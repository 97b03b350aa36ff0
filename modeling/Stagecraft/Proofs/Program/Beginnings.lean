/-
This file looks at a beginning of an action in the midst of an enter phase. What happens before it
leads from the world that the phase finds to the one that the action finds there, and what happens
after it leads from the world that the action leaves to the end of the phase. So whatever can be
followed from one stretch of a run to the next can be followed up to a beginning and on from there.
-/

import Stagecraft.Proofs.Program.Openings

namespace Stagecraft

variable {α : Type} [Trigonometric α]

/-! ### Up to a beginning and on from there -/

namespace Trace

variable {related : World α → List (Event α) → World α → Prop} {action : Instance α}
  {target : String} {world last : World α} {events : List (Event α)}

/-- The relation leads through a stretch of a run, and at every beginning of the action on the
target it leads up to it, through it and on from there. -/
structure Passes (related : World α → List (Event α) → World α → Prop) (action : Instance α)
    (target : String) (world : World α) (events : List (Event α)) (last : World α) : Prop where
  whole : related world events last
  beginnings : ∀ before found after,
    events = before ++ .entered target action.opening found :: after →
    ∃ locals rest, after = Block.traceAll target locals found action.opening ++ rest ∧
      related world before found ∧
      related found
        (.entered target action.opening found :: Block.traceAll target locals found action.opening)
        (Block.runAll target locals found action.opening) ∧
      related (Block.runAll target locals found action.opening) rest last

omit [Trigonometric α] in
/-- Where a block is entered, it is entered a last time. -/
theorem exists_last_entry {object : String} {block : Block α}
    (some : 0 < entries object block events) :
    ∃ before found after, events = before ++ .entered object block found :: after ∧
      entries object block after = 0 := by
  induction events with
  | nil => exact absurd some (by simp)
  | cons event rest inductionHypothesis =>
    by_cases later : 0 < entries object block rest
    · obtain ⟨before, found, after, rfl, none⟩ := inductionHypothesis later
      exact ⟨event :: before, found, after, rfl, none⟩
    · have none := Nat.eq_zero_of_not_pos later
      obtain ⟨found, entered⟩ := entries_pos.mp some
      rcases List.mem_cons.mp entered with rfl | inRest
      · exact ⟨[], found, rest, rfl, none⟩
      · exact absurd inRest (entries_eq_zero.mp none found)

/-- Where the action does not begin there is nothing more to say. -/
theorem Passes.of_unopened (leads : related world events last)
    (unopened : entries target action.opening events = 0) :
    Passes related action target world events last where
  whole := leads
  beginnings before found after split := by
    refine absurd ?_ (entries_eq_zero.mp unopened found)
    rw [split]
    exact List.mem_append_right _ List.mem_cons_self

variable (composes : Composes related)

include composes

theorem Composes.passes : Composes (Passes related action target) where
  nil world := .of_unopened (composes.nil world) entries_nil
  append {world mid last first second} early late := by
    refine ⟨composes.append early.whole late.whole, fun before found after split => ?_⟩
    rcases Lists.split_append split with ⟨tail, isFirst, isAfter⟩ | ⟨between, isBefore, isSecond⟩
    · obtain ⟨locals, rest, isTail, upTo, through, onwards⟩ :=
        early.beginnings before found tail isFirst
      refine ⟨locals, rest ++ second, ?_, upTo, through, composes.append onwards late.whole⟩
      rw [isAfter, isTail, List.append_assoc]
    · obtain ⟨locals, rest, isAfter, upTo, through, onwards⟩ :=
        late.beginnings between found after isSecond
      refine ⟨locals, rest, isAfter, ?_, through, onwards⟩
      rw [isBefore]
      exact composes.append early.whole upTo

/-- At the beginning itself nothing comes before and after. -/
theorem Composes.passes_opening {other : Instance α} {object : String} {locals : Locals α}
    (through : related world
      (.entered object other.opening world :: Block.traceAll object locals world other.opening)
      (Block.runAll object locals world other.opening))
    (once : entries target action.opening (Block.traceAll object locals world other.opening) = 0) :
    Passes related action target world
      (.entered object other.opening world :: Block.traceAll object locals world other.opening)
      (Block.runAll object locals world other.opening) where
  whole := through
  beginnings before found after split := by
    cases before with
    | nil =>
      obtain ⟨entered, isAfter⟩ := List.cons.inj split
      obtain ⟨rfl, same, rfl⟩ := Event.entered.inj entered
      rw [← isAfter, ← same]
      exact ⟨locals, [], (List.append_nil _).symm, composes.nil world, through, composes.nil _⟩
    | cons event before =>
      refine absurd ?_ (entries_eq_zero.mp once found)
      rw [(List.cons.inj split).2]
      exact List.mem_append_right _ List.mem_cons_self

end Trace

/-! ### What an action writes as it begins -/

/-- The slot is no part of an orientation. -/
def Slot.IsUnturned (slot : Slot) : Prop :=
  ∀ part, slot ≠ .orientation part

namespace Effect

variable {this : String}

/-- What an effect does first turns nothing. -/
theorem unturned_lead (effect : Effect α) :
    Block.WritesOnly (fun _ slot => slot.IsUnturned) this effect.lead := by
  cases effect with
  | fade visible => exact Block.writesOnly_nil
  | move motion => exact Block.writesOnly_nil
  | restore =>
    exact Block.writesOnly_onlyIf.mpr (writesOnly_capture fun channel part => by
      simp [Slot.orientation])
  | sound name volume | timeline name change =>
    refine writesOnly_lead ?_
    rintro slot ⟨field, same⟩ part
    simp [same, Slot.orientation]
  | toggle name enabled =>
    exact writesOnly_lead fun slot same part => by
      rw [show slot = _ from same]
      simp [Slot.orientation]

/-- An effect that takes time turns nothing before its first step. -/
theorem unturned_depart (effect : Effect α) (number : Nat) (steps : α) :
    Block.WritesOnly (fun _ slot => slot.IsUnturned) this (effect.depart number steps) := by
  have note (field : ActionField) : (Slot.action number field).IsUnturned := fun part => by
    simp [Slot.orientation]
  cases effect with
  | move motion =>
    exact Block.writesOnly_append.mpr
      ⟨writesOnly_beginShift (fun _ => note _) (fun _ => note _) _,
        writesOnly_beginTurn (fun _ => note _) (fun _ => note _) (fun _ => note _) _⟩
  | restore =>
    refine Block.writesOnly_cons.mpr ⟨Block.writesOnly_write.mpr fun part => ?_,
      Block.writesOnly_map fun channel _ => Block.writesOnly_write.mpr (note _)⟩
    simp [Slot.visible, Slot.orientation]
  | fade visible =>
    rw [depart, beginFade, Block.writesOnly_cons_cons, Block.writesOnly_write,
      Block.writesOnly_write]
    exact ⟨fun part => by simp [Slot.visible, Slot.orientation], note _⟩
  | sound name volume => exact Block.writesOnly_write.mpr (note _)
  | _ => exact Block.writesOnly_nil

/-- At once an effect writes all parts of the orientation or none of them. -/
theorem turns_or_unturned (effect : Effect α) :
    (∃ value, (Slot.orientation .w).write value ∈ effect.arrive) ∨
      Block.WritesOnly (fun _ slot => slot.IsUnturned) this effect.arrive := by
  cases effect with
  | fade visible =>
    refine .inr ?_
    rw [arrive, showNow, Block.writesOnly_cons_cons, Block.writesOnly_write,
      Block.writesOnly_write]
    exact ⟨fun part => by simp [Slot.alpha, Slot.orientation],
      fun part => by simp [Slot.visible, Slot.orientation]⟩
  | move motion =>
    obtain ⟨shift, turn⟩ := motion
    cases turn with
    | keep =>
      refine .inr (Block.writesOnly_append.mpr ⟨writesOnly_shiftNow fun _ axis part => ?_,
        Block.writesOnly_nil⟩)
      simp [Slot.position, Slot.orientation]
    | absolute goal => exact .inl ⟨_, List.mem_append_right _ List.mem_cons_self⟩
    | relative axis angle =>
      exact .inl ⟨_, List.mem_append_right _ (List.mem_append_right _ List.mem_cons_self)⟩
  | restore =>
    have listed : Channel.orientation .w ∈ Channel.all := by decide
    exact .inl ⟨_, List.mem_map_of_mem listed⟩
  | sound name volume =>
    refine .inr (writesOnly_arrive fun slot settles part => ?_)
    rcases settles with rfl | ⟨-, rfl⟩ <;> simp [Slot.orientation]
  | _ => exact .inr Block.writesOnly_nil

end Effect

/-- As it begins, an action writes all parts of the orientation or none of them. -/
theorem Instance.turns_or_unturned (self : Instance α) (this : String) :
    (∃ value, (Slot.orientation .w).write value ∈ self.opening) ∨
      Block.WritesOnly (fun _ slot => slot.IsUnturned) this self.opening := by
  have flags : Block.WritesOnly (fun _ slot => slot.IsUnturned) this
      (if self.isTimed then [self.active.write (.num 1), self.elapsed.write (.num 0)] else [] :
        Block α) := by
    split
    · rw [Block.writesOnly_cons_cons, Block.writesOnly_write, Block.writesOnly_write]
      exact ⟨fun part => by simp [active, Slot.orientation],
        fun part => by simp [elapsed, Slot.orientation]⟩
    · exact Block.writesOnly_nil
  rw [opening, phases, Effect.phases]
  split
  · rw [Effect.now_eq]
    rcases self.effect.turns_or_unturned with ⟨value, turns⟩ | unturned
    · exact .inl ⟨value, List.mem_append_left _ (List.mem_append_right _ turns)⟩
    · exact .inr (Block.writesOnly_append.mpr
        ⟨Block.writesOnly_append.mpr ⟨self.effect.unturned_lead, unturned⟩, flags⟩)
  · rw [Effect.start_eq]
    exact .inr (Block.writesOnly_append.mpr ⟨Block.writesOnly_append.mpr
      ⟨self.effect.unturned_lead, self.effect.unturned_depart _ _⟩, flags⟩)

/-! ### Enter phases -/

namespace Program.Layout

variable {rate : α} {scene : Scene α} {program : Program α} (layout : Layout rate scene program)
  {action : Instance α} (member : action ∈ instances rate scene) (timed : action.isTimed)
  {part : List (ObjectProgram α)} (inProgram : ∀ placed ∈ part, placed ∈ program.objects)

include layout member timed inProgram

/-- What can be followed through bookkeeping and through beginnings of actions can be followed up to
every beginning of one of them in the enter phase. -/
theorem passes_enter {related : World α → List (Event α) → World α → Prop}
    (composes : Trace.Composes related)
    (plain : ∀ this block,
      Block.WritesOnly (fun object slot => object = this ∧ slot.IsBooked) this block →
      ∀ locals world, related world (Block.traceAll this locals world block)
        (Block.runAll this locals world block))
    (enter : ∀ this block world, related world [.entered this block world] world)
    (opening : ∀ other ∈ instances rate scene, ∀ object ∈ other.targets, ∀ locals world,
      related world
        (.entered object other.opening world :: Block.traceAll object locals world other.opening)
        (Block.runAll object locals world other.opening))
    (target : String) (world : World α) :
    Trace.Passes related action target world (Agenda.trace (part.map (·.duty .enter)) world)
      (Agenda.run (part.map (·.duty .enter)) world) := by
  refine composes.passes.agenda (fun duty inDuties world _ => ?_) world
  obtain ⟨placed, inPart, rfl⟩ := List.mem_map.mp inDuties
  refine composes.passes.opens ?_ ?_ ?_ (layout.opens_enter (inProgram placed inPart)) [] world
  · intro block bounded locals world
    refine .of_unopened (plain _ block bounded locals world) ?_
    refine (Instance.tally_of_writesOnly timed (bounded.mono ?_) target locals world).openings
    rintro object slot ⟨-, booked⟩
    constructor <;> rintro rfl <;> cases booked
  · intro block opens world
    refine .of_unopened (enter _ block world) ?_
    refine (Trace.entries_cons_other ?_ world []).trans Trace.entries_nil
    rintro ⟨-, rfl⟩
    cases opens.own_of_mem (List.mem_of_getLast? (Instance.getLast?_opening timed))
  · intro other isOther object targeted locals world
    rw [Stmt.trace, Stmt.run]
    refine composes.passes_opening (opening other isOther object targeted locals world) ?_
    by_cases same : other.number = action.number
    · rw [layout.eq_of_number isOther member same]
      exact (Instance.tally_opening timed target object locals world).openings
    · have spared : Block.WritesOnly action.Spared object other.opening :=
        Instance.writesOnly_opening.mono fun _ _ inside =>
          Instance.spared_of_reaches same inside.2
      exact (Instance.tally_of_writesOnly timed spared target locals world).openings

end Program.Layout

/-! ### What is found on a target -/

/-- What happens in a stretch of an enter phase explains what is found on a target. There is
what was written last; the state of the action is written only where the action begins; and the
parts of the orientation are written all together. -/
structure Instance.Explains (action : Instance α) (target : String) (world : World α)
    (events : List (Event α)) (last : World α) : Prop where
  hosts : last.hosts = world.hosts
  read : world.hosts target → ∀ key, last.read target key =
    (Trace.ledger target key events).getLast?.getD (world.read target key)
  kept : Trace.entries target action.opening events = 0 →
    ∀ field, Trace.ledger target (Slot.action action.number field).key events = []
  turned : Trace.ledger target (Slot.orientation .w).key events = [] →
    ∀ part, Trace.ledger target (Slot.orientation part).key events = []

namespace Instance.Explains

variable {action : Instance α} {target : String} {world last : World α} {events : List (Event α)}

theorem read_of_nil (explains : action.Explains target world events last)
    (hosted : world.hosts target) {key : String}
    (unwritten : Trace.ledger target key events = []) :
    last.read target key = world.read target key := by
  rw [explains.read hosted, unwritten]
  rfl

theorem composes : Trace.Composes (action.Explains target) where
  nil world := ⟨rfl, fun _ _ => rfl, fun _ _ => rfl, fun _ _ => rfl⟩
  append {world mid last first second} early late := by
    refine ⟨late.hosts.trans early.hosts, fun hosted key => ?_, fun unopened field => ?_,
      fun unwritten part => ?_⟩
    · rw [Trace.ledger_append, List.getLast?_append, Option.getD_or,
        late.read (by rwa [early.hosts]), early.read hosted]
    · rw [Trace.entries_append, Nat.add_eq_zero_iff] at unopened
      rw [Trace.ledger_append, early.kept unopened.1, late.kept unopened.2, List.append_nil]
    · rw [Trace.ledger_append, List.append_eq_nil_iff] at unwritten
      rw [Trace.ledger_append, early.turned unwritten.1, late.turned unwritten.2, List.append_nil]

/-- Bookkeeping. -/
theorem of_booked {this : String} {block : Block α}
    (bounded : Block.WritesOnly (fun object slot => object = this ∧ slot.IsBooked) this block)
    (locals : Locals α) :
    action.Explains target world (Block.traceAll this locals world block)
      (Block.runAll this locals world block) where
  hosts := Block.hosts_runAll _ _ _ _
  read hosted _ := Block.read_runAll_eq hosted block
  kept _ _ := Trace.ledger_of_notMem (bounded.notMem (by exact And.right)) locals world
  turned _ _ := Trace.ledger_of_notMem (bounded.notMem (by exact And.right)) locals world

/-- A beginning of this action or of another one. -/
theorem of_opening {other : Instance α} (alone : other.number = action.number → other = action)
    (object : String) (locals : Locals α) :
    action.Explains target world
      (.entered object other.opening world :: Block.traceAll object locals world other.opening)
      (Block.runAll object locals world other.opening) where
  hosts := Block.hosts_runAll _ _ _ _
  read hosted _ := Block.read_runAll_eq hosted other.opening
  kept unopened field := by
    rw [Trace.ledger_cons_entered]
    refine Trace.ledger_of_notMem (Instance.writesOnly_opening.notMem ?_) locals world
    rintro ⟨rfl, reached⟩
    obtain rfl := alone (Instance.number_of_reaches reached)
    rw [Trace.entries_cons_self] at unopened
    cases unopened
  turned unwritten part := by
    rw [Trace.ledger_cons_entered] at unwritten ⊢
    by_cases same : object = target
    · subst same
      rcases other.turns_or_unturned object with ⟨value, turns⟩ | unturned
      · exact absurd unwritten (Trace.ledger_ne_nil turns locals world)
      · exact Trace.ledger_of_notMem (unturned.notMem fun inside => inside part rfl) locals world
    · refine Trace.ledger_of_notMem (Instance.writesOnly_opening.notMem ?_) locals world
      exact fun inside => same inside.1.symm

end Instance.Explains

namespace Program.Layout

variable {rate : α} {scene : Scene α} {program : Program α} (layout : Layout rate scene program)
  {action : Instance α} (member : action ∈ instances rate scene) (timed : action.isTimed)
  {part : List (ObjectProgram α)} (inProgram : ∀ placed ∈ part, placed ∈ program.objects)

include layout member timed inProgram

theorem explains_enter (target : String) (world : World α) :
    Trace.Passes (action.Explains target) action target world
      (Agenda.trace (part.map (·.duty .enter)) world)
      (Agenda.run (part.map (·.duty .enter)) world) :=
  layout.passes_enter member timed inProgram Instance.Explains.composes
    (fun _ _ bounded locals _ => .of_booked bounded locals)
    (fun _ _ _ => ⟨rfl, fun _ _ => rfl, fun _ _ => rfl, fun _ _ => rfl⟩)
    (fun _ isOther object _ locals _ =>
      .of_opening (layout.eq_of_number isOther member) object locals)
    target world

end Program.Layout

end Stagecraft
