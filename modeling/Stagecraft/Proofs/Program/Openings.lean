/-
This file traces every write of a frame back to an action or to bookkeeping. In the enter phase an
object writes its own bookkeeping, and apart from that it only opens actions on their targets. In
the other phases a write comes from the block of one action, which its flag let pass, and the flag
was set when the frame began unless the action was opened in it.
-/

import Stagecraft.Proofs.Action.Lifecycle
import Stagecraft.Proofs.Logic.Ledger
import Stagecraft.Proofs.Program.Order

namespace Stagecraft

variable {α : Type} [Trigonometric α]

/-! ### Where events happen -/

/-- What happens in a list of blocks happens in one of them. -/
theorem Block.exists_of_mem_flatMap {β : Type} {this : String} {locals : Locals α}
    {world : World α} {event : Event α} {block : β → Block α} {values : List β}
    (happens : event ∈ traceAll this locals world (values.flatMap block)) :
    ∃ before value after, values = before ++ value :: after ∧
      event ∈ traceAll this (thread this locals world (before.flatMap block)).1
        (runAll this locals world (before.flatMap block)) (block value) := by
  induction values generalizing locals world with
  | nil => simp at happens
  | cons value rest inductionHypothesis =>
    rw [List.flatMap_cons, traceAll_append, List.mem_append] at happens
    rcases happens with here | later
    · exact ⟨[], value, rest, rfl, by simpa using here⟩
    · obtain ⟨before, found, after, rfl, inside⟩ := inductionHypothesis later
      refine ⟨value :: before, found, after, rfl, ?_⟩
      rwa [List.flatMap_cons, thread_append, runAll_append, ← runAll_eq_thread]

namespace Agenda

variable {agenda : Agenda α} {world : World α} {event : Event α}

/-- What happens on an agenda happens at one of its duties. -/
theorem exists_of_mem (happens : event ∈ agenda.trace world) :
    ∃ before duty after, agenda = before ++ duty :: after ∧
      event ∈ duty.trace (run before world) := by
  induction agenda generalizing world with
  | nil => simp at happens
  | cons duty rest inductionHypothesis =>
    rw [trace_cons, List.mem_append] at happens
    rcases happens with here | later
    · exact ⟨[], duty, rest, rfl, here⟩
    · obtain ⟨before, found, after, rfl, inside⟩ := inductionHypothesis later
      exact ⟨duty :: before, found, after, rfl, inside⟩

theorem mem_trace {before after : Agenda α} {duty : Duty α}
    (happens : event ∈ duty.trace (run before world)) :
    event ∈ trace (before ++ duty :: after) world := by
  rw [trace_append, trace_cons]
  exact List.mem_append_right _ (List.mem_append_left _ happens)

end Agenda

/-- What happens at a duty happens in its block. -/
theorem Duty.mem_trace {duty : Duty α} {world : World α} {event : Event α}
    (happens : event ∈ duty.trace world) :
    world.hosts duty.object ∧ event ∈ Block.traceAll duty.object [] world duty.block := by
  rw [trace] at happens
  split at happens
  · exact ⟨‹_›, happens⟩
  · cases happens

/-! ### Blocks that open actions -/

/-- The block writes what is allowed on the object it runs on, and apart from that it opens actions
of a list on their targets. -/
inductive Block.Opens (actions : List (Instance α)) (own : Slot → Prop) (this : String) :
    Block α → Prop
  | nil : Opens actions own this []
  | plain (stmt : Stmt α) (rest : Block α) :
    WritesOnly (fun object slot => object = this ∧ own slot) this [stmt] →
      Opens actions own this rest → Opens actions own this (stmt :: rest)
  | branch (condition : Expr α) (yes no rest : Block α) :
    Opens actions own this yes → Opens actions own this no → Opens actions own this rest →
      Opens actions own this (.branch condition yes no :: rest)
  | opening (action : Instance α) (target : String) (rest : Block α) :
    action ∈ actions → target ∈ action.targets → Opens actions own this rest →
      Opens actions own this (.within target action.opening :: rest)

namespace Block.Opens

variable {actions : List (Instance α)} {own : Slot → Prop} {this : String}

theorem of_writesOnly {block : Block α}
    (bounded : WritesOnly (fun object slot => object = this ∧ own slot) this block) :
    Opens actions own this block := by
  induction block with
  | nil => exact .nil
  | cons stmt rest inductionHypothesis =>
    obtain ⟨here, later⟩ := writesOnly_cons.mp bounded
    exact .plain stmt rest here (inductionHypothesis later)

theorem append {first second : Block α} (early : Opens actions own this first)
    (late : Opens actions own this second) : Opens actions own this (first ++ second) := by
  induction early with
  | nil => exact late
  | plain stmt rest here _ inductionHypothesis => exact .plain stmt _ here inductionHypothesis
  | branch condition yes no rest inYes inNo _ _ _ inductionHypothesis =>
    exact .branch condition yes no _ inYes inNo inductionHypothesis
  | opening action target rest member targeted _ inductionHypothesis =>
    exact .opening action target _ member targeted inductionHypothesis

theorem flatMap {β : Type} {values : List β} {block : β → Block α}
    (each : ∀ value ∈ values, Opens actions own this (block value)) :
    Opens actions own this (values.flatMap block) := by
  induction values with
  | nil => exact .nil
  | cons value rest inductionHypothesis =>
    obtain ⟨here, later⟩ := List.forall_mem_cons.mp each
    rw [List.flatMap_cons]
    exact here.append (inductionHypothesis later)

theorem map {β : Type} {values : List β} {statement : β → Stmt α}
    (each : ∀ value ∈ values, Opens actions own this [statement value]) :
    Opens actions own this (values.map statement) := by
  rw [List.map_eq_flatMap]
  exact flatMap each

theorem onlyIf {condition : Expr α} {body : Block α} (inside : Opens actions own this body) :
    Opens actions own this [.onlyIf condition body] :=
  .branch condition body [] [] inside .nil .nil

theorem dispatch {action : Instance α} (member : action ∈ actions) :
    Opens actions own this action.dispatch :=
  map fun target targeted => .opening action target [] member targeted .nil

/-- What the block writes itself, not only in a block inside it, is allowed. -/
theorem own_of_mem {slot : Slot} {value : Expr α} {block : Block α}
    (opens : Opens actions own this block) (member : slot.write value ∈ block) : own slot := by
  induction opens with
  | nil => cases member
  | plain stmt rest bounded _ inductionHypothesis =>
    rcases List.mem_cons.mp member with rfl | inRest
    · exact (writesOnly_write.mp bounded).2
    · exact inductionHypothesis inRest
  | branch condition yes no rest _ _ _ _ _ inductionHypothesis =>
    rcases List.mem_cons.mp member with same | inRest
    · cases same
    · exact inductionHypothesis inRest
  | opening action target rest _ _ _ inductionHypothesis =>
    rcases List.mem_cons.mp member with same | inRest
    · cases same
    · exact inductionHypothesis inRest

theorem own_of_write {slot : Slot} {value : Expr α} {rest : Block α}
    (opens : Opens actions own this (slot.write value :: rest)) : own slot :=
  opens.own_of_mem List.mem_cons_self

/-- A write in such a block is bookkeeping, or it comes from an action that is opened. -/
theorem exists_of_wrote {block : Block α} (opens : Opens actions own this block)
    {locals : Locals α} {world : World α} {object key : String} {value : α}
    (wrote : .wrote object key value ∈ traceAll this locals world block) :
    (∃ slot, key = slot.key ∧ own slot) ∨
      ∃ action ∈ actions, object ∈ action.targets ∧
        (∃ slot, key = slot.key ∧ action.Reaches slot) ∧
        ∃ found, .entered object action.opening found ∈ traceAll this locals world block := by
  induction opens generalizing locals world with
  | nil => simp at wrote
  | plain stmt rest bounded _ inductionHypothesis =>
    rw [traceAll_cons, List.mem_append] at wrote
    rw [traceAll_cons]
    rcases wrote with here | later
    · have named := Stmt.mem_writes_of_wrote stmt here
      obtain ⟨slot, same, -, allowed⟩ := bounded (object, key) (by simpa using named)
      exact .inl ⟨slot, same, allowed⟩
    · refine (inductionHypothesis later).imp_right ?_
      rintro ⟨action, member, targeted, reached, found, entered⟩
      exact ⟨action, member, targeted, reached, found, List.mem_append_right _ entered⟩
  | branch condition yes no rest _ _ _ inYes inNo inductionHypothesis =>
    rw [traceAll_cons, List.mem_append, Stmt.trace] at wrote
    rw [traceAll_cons, Stmt.trace]
    rcases wrote with here | later
    · split at here
      · refine (inYes (by simpa using here)).imp_right ?_
        rintro ⟨action, member, targeted, reached, found, entered⟩
        rw [if_pos ‹_›]
        exact ⟨action, member, targeted, reached, found,
          List.mem_append_left _ (List.mem_cons_of_mem _ entered)⟩
      · refine (inNo (by simpa using here)).imp_right ?_
        rintro ⟨action, member, targeted, reached, found, entered⟩
        rw [if_neg ‹_›]
        exact ⟨action, member, targeted, reached, found,
          List.mem_append_left _ (List.mem_cons_of_mem _ entered)⟩
    · refine (inductionHypothesis later).imp_right ?_
      rintro ⟨action, member, targeted, reached, found, entered⟩
      exact ⟨action, member, targeted, reached, found, List.mem_append_right _ entered⟩
  | opening action target rest member targeted _ inductionHypothesis =>
    rw [traceAll_cons, List.mem_append, Stmt.trace] at wrote
    rw [traceAll_cons, Stmt.trace]
    rcases wrote with here | later
    · have named := Block.mem_writes_of_wrote action.opening (by simpa using here)
      obtain ⟨slot, same, rfl, reached⟩ := Instance.writesOnly_opening _ named
      exact .inr ⟨action, member, targeted, ⟨slot, same, reached⟩, world,
        List.mem_append_left _ List.mem_cons_self⟩
    · refine (inductionHypothesis later).imp_right ?_
      rintro ⟨other, isMember, isTarget, reached, found, entered⟩
      exact ⟨other, isMember, isTarget, reached, found, List.mem_append_right _ entered⟩

end Block.Opens

/-! ### Following a run -/

/-- A relation between a world, what happens from there and the world that is left can be followed
from one stretch of a run to the next. -/
structure Trace.Composes (related : World α → List (Event α) → World α → Prop) : Prop where
  nil : ∀ world, related world [] world
  append : ∀ {world mid last first second}, related world first mid → related mid second last →
    related world (first ++ second) last

namespace Trace.Composes

variable {related : World α → List (Event α) → World α → Prop} (composes : Composes related)

include composes

theorem blocks {this : String} {first second : Block α}
    (early : ∀ locals world, related world (Block.traceAll this locals world first)
      (Block.runAll this locals world first))
    (late : ∀ locals world, related world (Block.traceAll this locals world second)
      (Block.runAll this locals world second)) (locals : Locals α) (world : World α) :
    related world (Block.traceAll this locals world (first ++ second))
      (Block.runAll this locals world (first ++ second)) := by
  rw [Block.traceAll_append, Block.runAll_append]
  exact composes.append (early locals world) (late _ _)

/-- A block that opens actions is followed through its own writes, its branches and the openings. -/
theorem opens {actions : List (Instance α)} {own : Slot → Prop} {this : String}
    (plain : ∀ block, Block.WritesOnly (fun object slot => object = this ∧ own slot) this block →
      ∀ locals world, related world (Block.traceAll this locals world block)
        (Block.runAll this locals world block))
    (enter : ∀ block, Block.Opens actions own this block →
      ∀ world, related world [.entered this block world] world)
    (opening : ∀ action ∈ actions, ∀ target ∈ action.targets, ∀ locals world,
      related world ((Stmt.within target action.opening).trace this locals world)
        ((Stmt.within target action.opening).run this locals world).2)
    {block : Block α} (opens : Block.Opens actions own this block) (locals : Locals α)
    (world : World α) :
    related world (Block.traceAll this locals world block)
      (Block.runAll this locals world block) := by
  induction opens generalizing locals world with
  | nil =>
    rw [Block.traceAll_nil, Block.runAll_nil]
    exact composes.nil world
  | plain stmt rest bounded _ inductionHypothesis =>
    have here := plain [stmt] bounded locals world
    rw [Block.traceAll_cons, Block.traceAll_nil, List.append_nil, Block.runAll_cons,
      Block.runAll_nil] at here
    rw [Block.traceAll_cons, Block.runAll_cons]
    exact composes.append here (inductionHypothesis _ _)
  | branch condition yes no rest opensYes opensNo _ inYes inNo inductionHypothesis =>
    rw [Block.traceAll_cons, Block.runAll_cons]
    refine composes.append ?_ (inductionHypothesis _ _)
    rw [Stmt.trace, Stmt.run]
    split
    · exact composes.append (enter yes opensYes world) (inYes locals world)
    · exact composes.append (enter no opensNo world) (inNo locals world)
  | opening action target rest member targeted _ inductionHypothesis =>
    rw [Block.traceAll_cons, Block.runAll_cons]
    exact composes.append (opening action member target targeted locals world)
      (inductionHypothesis _ _)

theorem agenda {agenda : Agenda α} (each : ∀ duty ∈ agenda, ∀ world : World α,
      world.hosts duty.object → related world (Block.traceAll duty.object [] world duty.block)
        (Block.runAll duty.object [] world duty.block)) (world : World α) :
    related world (agenda.trace world) (agenda.run world) := by
  induction agenda generalizing world with
  | nil => exact composes.nil world
  | cons duty rest inductionHypothesis =>
    obtain ⟨here, later⟩ := List.forall_mem_cons.mp each
    rw [Agenda.trace_cons, Agenda.run_cons]
    refine composes.append ?_ (inductionHypothesis later _)
    rw [Duty.trace, Duty.run]
    split
    · exact here world ‹_›
    · exact composes.nil world

end Trace.Composes

/-! ### Sources -/

/-- The slots in which logic keeps its books. Whether a trigger is enabled is not among them. -/
def Slot.IsBooked : Slot → Prop
  | .watch _ field => field ≠ .state
  | .timeline _ _ | .captured _ | .initialized => True
  | _ => False

/-- The slots in which triggers, link actions and timelines keep theirs. -/
def Slot.IsTracked : Slot → Prop
  | .watch _ field => field ≠ .state
  | .timeline _ _ => True
  | _ => False

theorem Slot.IsTracked.isBooked {slot : Slot} (tracked : slot.IsTracked) : slot.IsBooked := by
  cases slot with
  | watch watch field => exact tracked
  | timeline name field => trivial
  | _ => cases tracked

omit [Trigonometric α] in
theorem Owned.Source.Keeps.isTracked {source : Source α} {slot : Slot} (keeps : source.Keeps slot) :
    slot.IsTracked := by
  cases source with
  | trigger declared =>
    obtain ⟨field, notState, rfl⟩ := keeps
    exact notState
  | link linkActions =>
    obtain ⟨field, notState, rfl⟩ := keeps
    exact notState
  | timeline declared =>
    obtain ⟨field, rfl⟩ := keeps
    trivial

section

variable {actions : List (Instance α)} {this : String} {own : Slot → Prop}

theorem Watch.opens_evaluate {dispatch : Block α} (inside : Block.Opens actions own this dispatch)
    {watch : Watch} (keeps : ∀ field, field ≠ .state → own (.watch watch field)) (sensor : Sensor α)
    (epsilon : α) (remain : Bool) :
    Block.Opens actions own this (watch.evaluate sensor epsilon remain dispatch) := by
  rw [evaluate]
  refine .append (.append (.of_writesOnly (sensor.writesOnly_before epsilon watch))
    (.plain _ _ Block.writesOnly_bind ?_)) (.plain _ _ ?_ (.of_writesOnly ?_))
  · split
    · exact .nil
    · exact .onlyIf inside
  · exact Block.writesOnly_write.mpr ⟨rfl, keeps _ (by simp)⟩
  · refine sensor.writesOnly_after fun field kept => ⟨rfl, keeps _ ?_⟩
    rcases kept with rfl | ⟨axis, rfl⟩ <;> simp

theorem Sequence.opens_run {sequence : Sequence α} (keeps : ∀ field, own (sequence.slot field))
    (inside : ∀ cue ∈ sequence.cues, cue.action ∈ actions) :
    Block.Opens actions own this sequence.run := by
  rw [run]
  refine .plain _ _ Block.writesOnly_comment (.onlyIf (.append (.map fun entry member => ?_) ?_))
  · refine .onlyIf (.plain _ _ (Block.writesOnly_write.mpr ⟨rfl, keeps _⟩) ?_)
    exact .dispatch (inside entry.1 (List.fst_mem_of_mem_zipIdx member))
  · refine .of_writesOnly ?_
    simp [countTick, stopAtEnd, keeps]

theorem Owned.opens_made {directory : Directory α} {rate : α} {first : Nat}
    {source : Source α} {piece : Owned α} (made : Made directory rate this first source piece)
    (keeps : ∀ slot, source.Keeps slot → own slot)
    (inside : ∀ action ∈ piece.instances, action ∈ actions) :
    Block.Opens actions own this piece.enter := by
  have dispatched (action : Instance α) (member : action ∈ piece.instances) :
      Block.Opens actions own this action.dispatch := .dispatch (inside action member)
  cases made with
  | trigger declared sensor instances =>
    refine .plain _ _ Block.writesOnly_comment (.onlyIf ?_)
    exact Watch.opens_evaluate (.flatMap dispatched)
      (fun field notState => keeps _ ⟨field, notState, rfl⟩) _ _ _
  | noLink => exact .nil
  | link declared instances =>
    refine .plain _ _ Block.writesOnly_comment ?_
    exact Watch.opens_evaluate (.flatMap dispatched)
      (fun field notState => keeps _ ⟨field, notState, rfl⟩) _ _ _
  | timeline declared entries instances sequence _ _ same =>
    subst same
    refine Sequence.opens_run (fun field => keeps _ ⟨field, rfl⟩) fun cue member => ?_
    obtain ⟨⟨entry, action⟩, inZip, rfl⟩ := List.mem_map.mp member
    exact inside action (List.of_mem_zip inZip).2

/-- Pieces open actions if each of them opens its own. -/
theorem Owned.opens_pieces {directory : Directory α} {rate : α} {sources : List (Source α)}
    {pieces : List (Owned α)}
    (made : List.Forall₂ (fun source piece => ∃ number, Made directory rate this number source piece)
      sources pieces)
    (keeps : ∀ source ∈ sources, ∀ slot, source.Keeps slot → own slot)
    (inside : ∀ action ∈ pieces.flatMap (·.instances), action ∈ actions) :
    Block.Opens actions own this (pieces.flatMap (·.enter)) := by
  refine .flatMap fun piece inPieces => ?_
  obtain ⟨source, inSources, number, madePiece⟩ := Lists.exists_of_mem_right made inPieces
  exact Owned.opens_made madePiece (keeps source inSources) fun action owned =>
    inside action (List.mem_flatMap.mpr ⟨piece, inPieces, owned⟩)

end

/-! ### Own blocks -/

namespace Instance

variable {self : Instance α} {target : String} {locals : Locals α} {world : World α}
  {object key : String} {value : α}

/-- The action goes on at an object. -/
def IsActiveOn (action : Instance α) (world : World α) (object : String) : Prop :=
  action.isTimed ∧ (world.read object action.active.key == 0) = false

/-- Where an action's block writes as it advances, the action goes on. -/
theorem isActiveOn_of_advance
    (wrote : .wrote object key value ∈ Block.traceAll target locals world self.advance) :
    self.IsActiveOn world target := by
  by_cases timed : self.isTimed
  · rw [advance_of_timed timed, Block.traceAll_cons, Block.traceAll_nil, List.append_nil,
      Stmt.trace_onlyIf, Expr.isTruthy_isSet_read] at wrote
    split at wrote
    · rename_i set
      exact ⟨timed, by simpa using set⟩
    · simp at wrote
  · rw [advance, if_neg timed, Block.traceAll_nil] at wrote
    cases wrote

/-- Where an action's block writes as it finishes, the action goes on. -/
theorem isActiveOn_of_finish
    (wrote : .wrote object key value ∈ Block.traceAll target locals world self.finish) :
    self.IsActiveOn world target := by
  by_cases timed : self.isTimed
  · rw [finish_of_timed timed, Block.traceAll_cons, Block.traceAll_nil, List.append_nil,
      Stmt.trace_onlyIf, Expr.isTruthy_and, Expr.isTruthy_isSet_read] at wrote
    split at wrote
    · rename_i set
      rw [Bool.and_eq_true] at set
      exact ⟨timed, by simpa using set.1⟩
    · simp at wrote
  · rw [finish, if_neg timed, Block.traceAll_nil] at wrote
    cases wrote

end Instance

/-! ### Phases -/

namespace Program.Layout

variable {rate : α} {scene : Scene α} {program : Program α} (layout : Layout rate scene program)
  {world : World α} {object key : String} {value : α}

include layout

/-- Apart from its setup, the logic of an object keeps track of its sources and opens actions. -/
theorem opens_owned {id : String} {owned : Owned α} (owns : layout.Owns id owned)
    {own : Slot → Prop} (keeps : ∀ (source : Owned.Source α) slot, source.Keeps slot → own slot) :
    Block.Opens (instances rate scene) own id owned.enter := by
  rcases owns with ⟨placedObject, inScene, same⟩ | ⟨-, rfl⟩
  · obtain ⟨pieces, made, joined⟩ := layout.made _ inScene
    dsimp only at joined made
    rw [same] at made
    rw [joined, Owned.enter_concat]
    refine Owned.opens_pieces made (fun source _ => keeps source) fun action owned =>
      layout.mem_instances inScene ?_
    rwa [joined, Owned.instances_concat]
  · exact .nil

/-- In its first frame an object keeps its books. -/
theorem opens_once {id : String} {owned : Owned α} (owns : layout.Owns id owned)
    (actions : List (Instance α)) :
    Block.Opens (instances rate scene) Slot.IsBooked id
      (once ((actions.map (·.setup)).eraseDups.flatten ++ owned.setup)) :=
  .of_writesOnly (layout.writesOnly_once owns ⟨rfl, trivial⟩ (fun _ => ⟨rfl, trivial⟩)
    (fun _ _ => ⟨rfl, trivial⟩) actions)

/-- In its enter phase an object keeps its books and opens actions. -/
theorem opens_enter {placed : ObjectProgram α} (isPlaced : placed ∈ program.objects) :
    Block.Opens (instances rate scene) Slot.IsBooked placed.id placed.phases.enter := by
  obtain ⟨owned, owns, enter⟩ := layout.listed_enter isPlaced
  rw [show placed.phases.enter = _ from enter]
  exact (layout.opens_once owns _).append
    (layout.opens_owned owns fun _ _ keeps => keeps.isTracked.isBooked)

/-- A write in the enter phases of some objects is bookkeeping, or it comes from an action that one
of them opens. -/
theorem exists_of_wrote_enter {part : List (ObjectProgram α)}
    (inProgram : ∀ placed ∈ part, placed ∈ program.objects)
    (wrote : .wrote object key value ∈ Agenda.trace (part.map (·.duty .enter)) world) :
    (∃ slot : Slot, key = slot.key ∧ slot.IsBooked) ∨
      ∃ action ∈ instances rate scene, object ∈ action.targets ∧
        (∃ slot, key = slot.key ∧ action.Reaches slot) ∧
        ∃ found, .entered object action.opening found ∈
          Agenda.trace (part.map (·.duty .enter)) world := by
  obtain ⟨before, duty, after, split, happens⟩ := Agenda.exists_of_mem wrote
  obtain ⟨hosted, inBlock⟩ := Duty.mem_trace happens
  have isDuty : duty ∈ part.map (·.duty .enter) := split ▸ by simp
  obtain ⟨placed, inPart, rfl⟩ := List.mem_map.mp isDuty
  refine ((layout.opens_enter (inProgram placed inPart)).exists_of_wrote inBlock).imp_right ?_
  rintro ⟨action, member, targeted, reached, found, entered⟩
  refine ⟨action, member, targeted, reached, found, ?_⟩
  rw [split]
  refine Agenda.mem_trace ?_
  rw [Duty.trace, if_pos hosted]
  exact entered

/-- A write in a phase that is made of the actions' own blocks comes from one of them, which finds
the flag of its action as the phase did. -/
theorem exists_of_wrote_later {own : Instance α → Block α} {phase : Phase}
    (listed : ∀ placed ∈ program.objects, placed.phases.get phase =
      (targeting (instances rate scene) placed.id).flatMap own)
    (bounded : ∀ (other : Instance α) object,
      Block.WritesOnly (other.ScopeOn object) object (own other))
    (activated : ∀ (action : Instance α) locals (found : World α),
      .wrote object key value ∈ Block.traceAll object locals found (own action) →
        action.IsActiveOn found object)
    (wrote : .wrote object key value ∈ (program.agenda phase).trace world) :
    ∃ action ∈ instances rate scene, object ∈ action.targets ∧
      (∃ slot, key = slot.key ∧ action.Reaches slot) ∧ action.IsActiveOn world object := by
  obtain ⟨before, duty, after, split, happens⟩ := Agenda.exists_of_mem wrote
  obtain ⟨-, inBlock⟩ := Duty.mem_trace happens
  have isDuty : duty ∈ program.agenda phase := split ▸ by simp
  obtain ⟨placed, isPlaced, rfl⟩ := mem_agenda.mp isDuty
  rw [ObjectProgram.duty, listed placed isPlaced] at inBlock
  dsimp only at inBlock
  obtain ⟨earlier, action, later, turn, inOwn⟩ := Block.exists_of_mem_flatMap inBlock
  obtain ⟨slot, same, rfl, reached⟩ := bounded action placed.id _ (Block.mem_writes_of_wrote _ inOwn)
  have inTargeting : action ∈ targeting (instances rate scene) placed.id := turn ▸ by simp
  obtain ⟨member, targeted⟩ := List.mem_filter.mp inTargeting
  have active := activated action _ _ inOwn
  refine ⟨action, member, by simpa using targeted, ⟨slot, same, reached⟩, active.1, ?_⟩
  -- What runs in the phase before the block spares the flag.
  have once : ((targeting (instances rate scene) placed.id).map (·.number)).Nodup :=
    layout.nodup_numbers.sublist (List.filter_sublist.map _)
  rw [turn, List.map_append, List.map_cons] at once
  have differ : ∀ other ∈ earlier, other.number ≠ action.number := fun other isEarlier alike =>
    (Lists.eq_of_nodup_append once).1 (alike ▸ List.mem_map_of_mem isEarlier)
  have alone := layout.nodup_agenda phase
  rw [split, List.map_append, List.map_cons] at alone
  have spared : ∀ duty ∈ before, ∀ written, ¬duty.Writes placed.id written := by
    intro duty isBefore written
    have isDuty : duty ∈ program.agenda phase := split ▸ List.mem_append_left _ isBefore
    obtain ⟨other, isOther, rfl⟩ := mem_agenda.mp isDuty
    exact not_writes_of_apart listed bounded isOther (fun alike =>
      (Lists.eq_of_nodup_append alone).1 (List.mem_map.mpr ⟨_, isBefore, alike⟩)) written
  have quiet : action.status (Agenda.run before world) placed.id = action.status world placed.id :=
    (Instance.quiet_agenda active.1 spared world).2
  have sparedEarlier : Block.WritesOnly action.Spared placed.id (earlier.flatMap own) :=
    Instance.spared_flatMap bounded differ
  have kept := Instance.status_of_writesOnly sparedEarlier placed.id [] (Agenda.run before world)
  have flag := active.2
  rwa [(Prod.mk.inj (kept.trans quiet)).1] at flag

/-- In the enter phase the flag of an action changes only where the action is opened. -/
theorem isActiveOn_enter {action : Instance α} (member : action ∈ instances rate scene)
    (targeted : object ∈ action.targets) (hosted : ∀ target ∈ action.targets, world.hosts target)
    (active : action.IsActiveOn ((program.agenda .enter).run world) object) :
    (∃ found, .entered object action.opening found ∈ (program.agenda .enter).trace world) ∨
      action.IsActiveOn world object := by
  have only : ∀ duty ∈ program.agenda .enter, action.OnlyDispatched duty.object duty.block := by
    intro duty inEnter
    obtain ⟨placed, isPlaced, rfl⟩ := mem_agenda.mp inEnter
    exact layout.onlyDispatched_enter member isPlaced
  obtain ⟨count, stretch⟩ := Instance.exists_stretch_agenda active.1
    (layout.numbered.nodup action member) only world hosted
  by_cases none : count = 0
  · have status := stretch.status object targeted
    rw [if_pos none] at status
    have flag := active.2
    rw [(Prod.mk.inj status).1] at flag
    exact .inr ⟨active.1, flag⟩
  · have openings := (stretch.tally object targeted).openings
    exact .inl (Trace.entries_pos.mp (openings ▸ Nat.pos_of_ne_zero none))

/-- A write of a frame is bookkeeping, or it comes from an action on the object that is opened in
the frame or goes on at its beginning. -/
theorem exists_of_wrote (hosted : ∀ action ∈ instances rate scene,
      ∀ target ∈ action.targets, world.hosts target)
    (wrote : .wrote object key value ∈ program.frame.trace world) :
    (∃ slot : Slot, key = slot.key ∧ slot.IsBooked) ∨
      ∃ action ∈ instances rate scene, object ∈ action.targets ∧
        (∃ slot, key = slot.key ∧ action.Reaches slot) ∧
        ((∃ found, .entered object action.opening found ∈ program.frame.trace world) ∨
          action.IsActiveOn world object) := by
  rw [frame_eq, Agenda.trace_append, Agenda.trace_append] at wrote ⊢
  rcases List.mem_append.mp wrote with inEnter | inLater
  · refine (layout.exists_of_wrote_enter (fun _ => id) inEnter).imp_right ?_
    rintro ⟨action, member, targeted, reached, found, entered⟩
    exact ⟨action, member, targeted, reached, .inl ⟨found, List.mem_append_left _ entered⟩⟩
  · right
    have active : ∃ action ∈ instances rate scene, object ∈ action.targets ∧
        (∃ slot, key = slot.key ∧ action.Reaches slot) ∧
        action.IsActiveOn ((program.agenda .enter).run world) object := by
      rcases List.mem_append.mp inLater with inAdvance | inExit
      · exact layout.exists_of_wrote_later (fun _ => layout.listed_advance)
          (fun _ _ => Instance.writesOnly_advance) (fun _ _ _ => Instance.isActiveOn_of_advance)
          inAdvance
      · obtain ⟨action, member, targeted, reached, timed, flag⟩ :=
          layout.exists_of_wrote_later (fun _ => layout.listed_exit)
            (fun _ _ => Instance.writesOnly_finish) (fun _ _ _ => Instance.isActiveOn_of_finish)
            inExit
        -- Advancing an action leaves its flag as it is.
        have hostedAdvance : ((program.agenda .enter).run world).hosts object := by
          rw [Agenda.hosts_run]
          exact hosted action member object targeted
        have advanced := (layout.advance_phase member timed targeted hostedAdvance).2
        have kept := congrArg Prod.fst advanced
        rw [Instance.advanced, apply_ite Prod.fst, ite_self] at kept
        change (Prod.fst (action.status _ _) == 0) = false at flag
        rw [kept] at flag
        exact ⟨action, member, targeted, reached, timed, flag⟩
    obtain ⟨action, member, targeted, reached, isActive⟩ := active
    refine ⟨action, member, targeted, reached, ?_⟩
    refine (layout.isActiveOn_enter member targeted (hosted action member) isActive).imp_left ?_
    rintro ⟨found, entered⟩
    exact ⟨found, List.mem_append_left _ entered⟩

end Program.Layout

end Stagecraft
