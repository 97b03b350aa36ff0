/-
This file shows that a stopped timeline rests. Elapsed time and cursor are written by the turns of
the timeline and by rewinds only, and a timeline that does not run lets its turns pass. So from a
stop on nothing of it moves, in this frame and in later ones, up to the first change that starts it
or lets it go on. Only a stop by an entry of its own waits for the end of the turn, since the tick
that has begun is completed.
-/

import Stagecraft.Proofs.Logic.Invariants
import Stagecraft.Proofs.Program.Contracts
import Stagecraft.Proofs.Program.Openings
import Stagecraft.Proofs.Timeline.Exactness

namespace Stagecraft

variable {α : Type}

namespace Sequence

/-! ### Stops and resumptions -/

section

variable [Trigonometric α] (sequence : Sequence α) (owner : String)

/-- A change of the timeline's state begins. -/
def IsChange (change : TimelineChange) (event : Event α) : Prop :=
  event.IsEntry owner (Effect.changeTimeline sequence.name change)

/-- The timeline is started, or told to go on. -/
def Resumes (event : Event α) : Prop :=
  ∃ change ≠ .stop, sequence.IsChange owner change event

open Classical in
/-- What happens before the timeline is resumed. -/
noncomputable def untilResumed (events : List (Event α)) : List (Event α) :=
  events.takeWhile fun event => ¬sequence.Resumes owner event

open Classical in
/-- The world that the last stop has found, unless the timeline was resumed since. -/
noncomputable def stopAfter (stop : Option (World α)) : Event α → Option (World α)
  | .entered object block found =>
    if object = owner ∧ block = Effect.changeTimeline sequence.name .stop then some found
    else if sequence.Resumes owner (.entered object block found) then none else stop
  | .wrote .. => stop

/-- How far the timeline has come. -/
def progress (world : World α) : α × α :=
  (sequence.value owner world .elapsed, sequence.value owner world .cursor)

/-- No entry is dispatched, the progress of the timeline is not written, and a block that begins finds
it as it is in a world. -/
def IsStill (world : World α) : Event α → Prop
  | .entered object block found =>
    (∀ index, ¬sequence.IsDispatch owner index (.entered object block found)) ∧
      sequence.progress owner found = sequence.progress owner world
  | .wrote object key _ => object = owner →
    key ≠ (sequence.slot .elapsed).key ∧ key ≠ (sequence.slot .cursor).key

/-- After a stop all is still until the timeline is resumed. -/
def Heeds : Option (World α) → List (Event α) → Prop
  | _, [] => True
  | stop, event :: rest =>
    (∀ world ∈ stop, sequence.IsStill owner world event) ∧
      Heeds (sequence.stopAfter owner stop event) rest

/-- Where what happens ends stopped, the timeline does not run. -/
def Halts (world : World α) (events : List (Event α)) (next : World α) : Prop :=
  world.hosts owner → next.hosts owner ∧ ∀ stop : Option (World α),
    (stop ≠ none → sequence.value owner world .running = 0) →
      events.foldl (sequence.stopAfter owner) stop ≠ none → sequence.value owner next .running = 0

/-- What happens heeds every stop, and where it ends stopped the progress is that of the stop. -/
def Holds (world : World α) (events : List (Event α)) (next : World α) : Prop :=
  ∀ stop : Option (World α),
    (∀ found ∈ stop, sequence.progress owner world = sequence.progress owner found) →
      sequence.Heeds owner stop events ∧
        ∀ found ∈ events.foldl (sequence.stopAfter owner) stop,
          sequence.progress owner next = sequence.progress owner found

end

section

variable [Trigonometric α] {sequence : Sequence α} {owner : String} {world next : World α}
  {events : List (Event α)} {stop : Option (World α)}

theorem isStill_congr {other : World α}
    (same : sequence.progress owner world = sequence.progress owner other) {event : Event α} :
    sequence.IsStill owner world event ↔ sequence.IsStill owner other event := by
  cases event with
  | entered object block found => rw [IsStill, IsStill, same]
  | wrote object key value => exact Iff.rfl

theorem heeds_append {first second : List (Event α)} :
    sequence.Heeds owner stop (first ++ second) ↔ sequence.Heeds owner stop first ∧
      sequence.Heeds owner (first.foldl (sequence.stopAfter owner) stop) second := by
  induction first generalizing stop with
  | nil => simp [Heeds]
  | cons event rest inductionHypothesis =>
    rw [List.cons_append, Heeds, Heeds, inductionHypothesis, List.foldl_cons, and_assoc]

theorem composes_halts : Trace.Composes (sequence.Halts owner) where
  nil world hosted := ⟨hosted, fun _ stopped => stopped⟩
  append first second hosted := by
    obtain ⟨hostedMid, early⟩ := first hosted
    obtain ⟨hostedLast, late⟩ := second hostedMid
    refine ⟨hostedLast, fun stop stopped => ?_⟩
    rw [List.foldl_append]
    exact late _ (early stop stopped)

theorem composes_holds : Trace.Composes (sequence.Holds owner) where
  nil world stop same := ⟨trivial, same⟩
  append first second stop same := by
    obtain ⟨heedsFirst, sameMid⟩ := first stop same
    obtain ⟨heedsSecond, sameLast⟩ := second _ sameMid
    rw [List.foldl_append]
    exact ⟨heeds_append.mpr ⟨heedsFirst, heedsSecond⟩, sameLast⟩

/-! ### Single events -/

theorem mem_stopAfter {event : Event α} {found : World α}
    (stopped : found ∈ sequence.stopAfter owner stop event) :
    found ∈ stop ∨ event =
      .entered owner (Effect.changeTimeline sequence.name .stop) found := by
  cases event with
  | entered object block entered =>
    rw [stopAfter] at stopped
    split at stopped
    · rename_i isStop
      obtain ⟨rfl, rfl⟩ := isStop
      rw [Option.mem_some_iff.mp stopped]
      exact .inr rfl
    · split at stopped
      · cases stopped
      · exact .inl stopped
  | wrote object key value => exact .inl stopped

theorem stopAfter_stop (stop : Option (World α)) (found : World α) :
    sequence.stopAfter owner stop
      (.entered owner (Effect.changeTimeline sequence.name .stop) found) = some found :=
  if_pos ⟨rfl, rfl⟩

omit [Trigonometric α] in
theorem changeTimeline_injective [Scalar α] {name : String} {change other : TimelineChange}
    (same : (Effect.changeTimeline name change : Block α) = Effect.changeTimeline name other) :
    change = other := by
  cases change <;> cases other <;>
    simp_all [Effect.changeTimeline, Effect.rewind, Slot.write, Slot.read, Stmt.onlyIf]

theorem stopAfter_resumed {event : Event α} (resumes : sequence.Resumes owner event) :
    sequence.stopAfter owner stop event = none := by
  cases event with
  | entered object block found =>
    obtain ⟨change, notStop, rfl, rfl⟩ := resumes
    have different : Effect.changeTimeline (α := α) sequence.name change ≠
        Effect.changeTimeline sequence.name .stop := fun same =>
      notStop (changeTimeline_injective same)
    rw [stopAfter, if_neg fun both => different both.2, if_pos ⟨change, notStop, rfl, rfl⟩]
  | wrote =>
    obtain ⟨_, _, isChange⟩ := resumes
    cases isChange

/-- Where no stop begins, none is new. -/
theorem mem_of_mem_foldl (none : ∀ found,
      .entered owner (Effect.changeTimeline sequence.name .stop) found ∉ events)
    {found : World α} (stopped : found ∈ events.foldl (sequence.stopAfter owner) stop) :
    found ∈ stop := by
  induction events generalizing stop with
  | nil => exact stopped
  | cons event rest inductionHypothesis =>
    simp only [List.mem_cons, not_or] at none
    refine (mem_stopAfter (inductionHypothesis (fun found => (none found).2) stopped)).resolve_right
      fun same => (none found).1 same.symm

theorem heeds_none (none : ∀ found,
      .entered owner (Effect.changeTimeline sequence.name .stop) found ∉ events) :
    sequence.Heeds owner Option.none events := by
  induction events with
  | nil => trivial
  | cons event rest inductionHypothesis =>
    simp only [List.mem_cons, not_or] at none
    have still : sequence.stopAfter owner Option.none event = Option.none :=
      Option.eq_none_iff_forall_not_mem.mpr fun found stopped =>
        (mem_stopAfter stopped).elim (by simp) fun same => (none found).1 same.symm
    refine ⟨by simp, ?_⟩
    rw [still]
    exact inductionHypothesis fun found => (none found).2

/-- A stretch of still events holds whatever was stopped, and may stop it again. -/
theorem holds_of_still (still : ∀ event ∈ events, sequence.IsStill owner world event)
    (same : sequence.progress owner next = sequence.progress owner world) :
    sequence.Holds owner world events next := by
  intro stop stopped
  induction events generalizing stop with
  | nil => exact ⟨trivial, fun found isStop => same.trans (stopped found isStop)⟩
  | cons event rest inductionHypothesis =>
    obtain ⟨here, later⟩ := List.forall_mem_cons.mp still
    obtain ⟨heeds, ends⟩ := inductionHypothesis later (sequence.stopAfter owner stop event)
      fun found isStop => by
        rcases mem_stopAfter isStop with before | rfl
        · exact stopped found before
        · exact here.2.symm
    exact ⟨⟨fun found isStop => (isStill_congr (stopped found isStop)).mp here, heeds⟩, ends⟩

/-! ### Blocks -/

/-- A block that spares the progress of the timeline is still. -/
theorem isStill_of_spared {this : String} {block : Block α}
    (elapsed : (owner, (sequence.slot .elapsed).key) ∉ Block.writes this block)
    (cursor : (owner, (sequence.slot .cursor).key) ∉ Block.writes this block) (locals : Locals α)
    (world : World α) :
    (∀ event ∈ Block.traceAll this locals world block, sequence.IsStill owner world event) ∧
      sequence.progress owner (Block.runAll this locals world block) =
        sequence.progress owner world := by
  constructor
  · intro event happens
    cases event with
    | entered object inner found =>
      constructor
      · rintro index ⟨cue, left, -, same⟩
        obtain ⟨rfl, rfl, -⟩ := Event.entered.inj same
        exact cursor (Block.writes_subset_of_entered block happens (by simp [entry, Slot.write]))
      · exact Prod.ext (Block.read_of_entered block elapsed happens)
          (Block.read_of_entered block cursor happens)
    | wrote object key value =>
      rintro rfl
      have written := Block.mem_writes_of_wrote block happens
      exact ⟨fun same => elapsed (same ▸ written), fun same => cursor (same ▸ written)⟩
  · exact Prod.ext (Block.read_runAll this locals world owner _ block elapsed)
      (Block.read_runAll this locals world owner _ block cursor)

theorem holds_of_spared {this : String} {block : Block α}
    (elapsed : (owner, (sequence.slot .elapsed).key) ∉ Block.writes this block)
    (cursor : (owner, (sequence.slot .cursor).key) ∉ Block.writes this block) (locals : Locals α)
    (world : World α) :
    sequence.Holds owner world (Block.traceAll this locals world block)
      (Block.runAll this locals world block) :=
  have still := isStill_of_spared elapsed cursor locals world
  holds_of_still still.1 still.2

/-- A block that does not write whether the timeline runs does not stop it. -/
theorem halts_of_spared {this : String} {block : Block α}
    (spared : (owner, (sequence.slot .running).key) ∉ Block.writes this block) (locals : Locals α)
    (world : World α) :
    sequence.Halts owner world (Block.traceAll this locals world block)
      (Block.runAll this locals world block) := by
  refine fun hosted => ⟨by rwa [Block.hosts_runAll], fun stop stopped ends => ?_⟩
  have none (found : World α) : .entered owner (Effect.changeTimeline sequence.name .stop) found ∉
      Block.traceAll this locals world block := fun happens =>
    spared (Block.writes_subset_of_entered block happens (by
      simp [Effect.changeTimeline, Slot.write, slot]))
  obtain ⟨found, isStop⟩ := Option.ne_none_iff_exists'.mp ends
  rw [← stopped (Option.ne_none_iff_exists'.mpr ⟨found, mem_of_mem_foldl none isStop⟩)]
  exact Block.read_runAll this locals world owner _ block spared

/-- A block begins that does not stop the timeline. -/
theorem halts_entered {object : String} {block : Block α}
    (other : ¬(object = owner ∧ block = Effect.changeTimeline sequence.name .stop)) :
    sequence.Halts owner world [.entered object block world] world := by
  refine fun hosted => ⟨hosted, fun stop stopped ends => stopped fun none => ends ?_⟩
  rw [List.foldl_cons, List.foldl_nil, stopAfter, if_neg other, none, ite_self]

/-- A block begins that dispatches no entry. -/
theorem holds_entered {object : String} {block : Block α}
    (other : ∀ index, ¬sequence.IsDispatch owner index (.entered object block world)) :
    sequence.Holds owner world [.entered object block world] world :=
  holds_of_still (by simpa [IsStill] using other) rfl

/-! ### Changes -/

/-- After the timeline is resumed there is nothing to heed before the next stop. -/
theorem follows_of_resumed {event : Event α} (resumes : sequence.Resumes owner event)
    (still : sequence.IsStill owner world event)
    (none : ∀ found, .entered owner (Effect.changeTimeline sequence.name .stop) found ∉ events)
    (hosts : next.hosts = world.hosts) :
    sequence.Halts owner world (event :: events) next ∧
      sequence.Holds owner world (event :: events) next := by
  have ends (stop : Option (World α)) :
      (event :: events).foldl (sequence.stopAfter owner) stop = Option.none := by
    rw [List.foldl_cons, stopAfter_resumed resumes]
    exact Option.eq_none_iff_forall_not_mem.mpr fun found stopped =>
      absurd (mem_of_mem_foldl none stopped) (by simp)
  constructor
  · exact fun hosted => ⟨by rwa [hosts], fun stop _ stopped => absurd (ends stop) stopped⟩
  · intro stop same
    rw [ends, Heeds, stopAfter_resumed resumes]
    exact ⟨⟨fun found isStop => (isStill_congr (same found isStop)).mp still, heeds_none none⟩,
      by simp⟩

/-- No change contains a stop of the timeline. -/
theorem no_stop_inside (change : TimelineChange) (locals : Locals α) (world found : World α) :
    .entered owner (Effect.changeTimeline sequence.name .stop) found ∉
      Block.traceAll owner locals world (Effect.changeTimeline sequence.name change) := by
  have rewound : .entered owner (Effect.changeTimeline sequence.name .stop) found ∉
      Block.traceAll owner locals world (Effect.rewind sequence.name) := by
    simp [Effect.rewind, Block.traceAll_cons]
  cases change with
  | start => exact rewound
  | startIfNotStarted =>
    rw [Effect.changeTimeline.eq_4, Block.traceAll_cons, Block.traceAll_nil, List.append_nil,
      Stmt.trace_onlyIf]
    split
    · rw [List.mem_cons, not_or]
      exact ⟨by simp [Effect.changeTimeline, Effect.rewind], rewound⟩
    · simp [Effect.changeTimeline]
  | _ => simp [Effect.changeTimeline, Block.traceAll_cons]

/-- A change of the timeline is not what runs for an entry. -/
theorem not_isDispatch_changeTimeline (change : TimelineChange) (index : Nat) :
    ¬sequence.IsDispatch owner index
      (.entered owner (Effect.changeTimeline sequence.name change) world) := by
  have other : ¬sequence.IsDispatch owner index
      (.entered owner (Effect.changeTimeline sequence.name change ++ []) world) :=
    not_isDispatch_change
  rwa [List.append_nil] at other

/-- A change of the timeline, with all that happens in it. -/
theorem follows_change (change : TimelineChange) (locals : Locals α) (world : World α) :
    let events := .entered owner (Effect.changeTimeline sequence.name change) world ::
      Block.traceAll owner locals world (Effect.changeTimeline sequence.name change)
    let next := Block.runAll owner locals world (Effect.changeTimeline sequence.name change)
    sequence.Halts owner world events next ∧ sequence.Holds owner world events next := by
  intro events next
  have begins : sequence.IsStill owner world
      (.entered owner (Effect.changeTimeline sequence.name change) world) :=
    ⟨not_isDispatch_changeTimeline change, rfl⟩
  by_cases isStop : change = .stop
  · subst isStop
    have run : next = world.write owner (sequence.slot .running).key 0 := by
      simp [next, Effect.changeTimeline, slot, Value.number]
    have spared (field : TimelineField) (other : field ≠ .running) :
        (owner, (sequence.slot field).key) ∉
          Block.writes owner (Effect.changeTimeline (α := α) sequence.name .stop) := by
      simpa [Effect.changeTimeline, Slot.write, slot] using other
    have inside := isStill_of_spared (spared .elapsed (by simp)) (spared .cursor (by simp)) locals world
    refine ⟨fun hosted => ⟨by rwa [Block.hosts_runAll], fun _ _ _ => ?_⟩,
      holds_of_still (List.forall_mem_cons.mpr ⟨begins, inside.1⟩) inside.2⟩
    rw [run, value_write hosted, if_pos rfl]
  · exact follows_of_resumed ⟨change, isStop, rfl, rfl⟩ begins
      (no_stop_inside change locals world) (Block.hosts_runAll _ _ _ _)

end

/-! ### Logic around a timeline -/

section

variable [Trigonometric α]

/-- Those actions that change the state of a timeline do it at once, and on its owner. -/
structure IsChangedOn (sequence : Sequence α) (owner : String) (actions : List (Instance α)) :
    Prop where
  opening : ∀ action ∈ actions, ∀ change, action.effect = .timeline sequence.name change →
    action.opening = Effect.changeTimeline sequence.name change
  instant : ∀ action ∈ actions, ∀ change, action.effect = .timeline sequence.name change →
    ¬action.isTimed
  targets : ∀ action ∈ actions, ∀ change, action.effect = .timeline sequence.name change →
    action.targets = [owner]

/-- What happens both halts and holds. -/
structure Follows (sequence : Sequence α) (owner : String) (world : World α)
    (events : List (Event α)) (next : World α) : Prop where
  halts : sequence.Halts owner world events next
  holds : sequence.Holds owner world events next

variable {sequence : Sequence α} {owner : String} {world : World α}

theorem composes_follows : Trace.Composes (sequence.Follows owner) where
  nil world := ⟨composes_halts.nil world, composes_holds.nil world⟩
  append first second := ⟨composes_halts.append first.halts second.halts,
    composes_holds.append first.holds second.holds⟩

theorem follows_of_spared {this : String} {block : Block α}
    (spared : ∀ field, (owner, (sequence.slot field).key) ∉ Block.writes this block)
    (locals : Locals α) (world : World α) :
    sequence.Follows owner world (Block.traceAll this locals world block)
      (Block.runAll this locals world block) :=
  ⟨halts_of_spared (spared .running) locals world,
    holds_of_spared (spared .elapsed) (spared .cursor) locals world⟩

variable {actions : List (Instance α)} (changed : sequence.IsChangedOn owner actions)

include changed in
theorem follows_opened {action : Instance α} (member : action ∈ actions) (this target : String)
    (locals : Locals α) (world : World α) :
    sequence.Follows owner world ((Stmt.within target action.opening).trace this locals world)
      ((Stmt.within target action.opening).run this locals world).2 := by
  rcases changes_or_spares_within sequence owner action this target with
    ⟨rfl, change, effect⟩ | spared
  · rw [Stmt.trace, Stmt.run, changed.opening action member change effect]
    obtain ⟨halts, holds⟩ := @follows_change α _ sequence target change locals world
    exact ⟨halts, holds⟩
  · have follows := follows_of_spared spared locals world
    rwa [Block.traceAll_cons, Block.traceAll_nil, List.append_nil, Block.runAll_cons,
      Block.runAll_nil] at follows

variable {own : Slot → Prop} {this : String} {block : Block α}

theorem not_stop_of_opens (apart : this = owner → ¬own (sequence.slot .running))
    (opens : Block.Opens actions own this block) :
    ¬(this = owner ∧ block = Effect.changeTimeline sequence.name .stop) := by
  rintro ⟨same, rfl⟩
  exact apart same opens.own_of_write

theorem not_isDispatch_of_opens (apart : this = owner → ¬own (sequence.slot .cursor))
    (opens : Block.Opens actions own this block) (index : Nat) :
    ¬sequence.IsDispatch owner index (.entered this block world) := by
  rintro ⟨cue, found, -, same⟩
  obtain ⟨rfl, rfl, -⟩ := Event.entered.inj same
  exact apart rfl opens.own_of_write

include changed

/-- Logic that opens actions, and does not itself write whether the timeline runs, halts. -/
theorem halts_opens (apart : this = owner → ¬own (sequence.slot .running))
    (opens : Block.Opens actions own this block) (locals : Locals α) (world : World α) :
    sequence.Halts owner world (Block.traceAll this locals world block)
      (Block.runAll this locals world block) := by
  refine composes_halts.opens (fun block bounded => ?_) (fun block opens world => ?_)
    (fun action member target _ => fun locals world =>
      (follows_opened changed member this target locals world).halts) opens locals world
  · exact halts_of_spared (bounded.notMem fun inside => apart inside.1.symm inside.2)
  · exact halts_entered (not_stop_of_opens apart opens)

/-- Logic that opens actions and keeps its books elsewhere also holds. -/
theorem follows_opens (apart : this = owner → ∀ field, ¬own (sequence.slot field))
    (opens : Block.Opens actions own this block) (locals : Locals α) (world : World α) :
    sequence.Follows owner world (Block.traceAll this locals world block)
      (Block.runAll this locals world block) := by
  refine composes_follows.opens (fun block bounded => ?_) (fun block opens world => ?_)
    (fun action member target _ => follows_opened changed member this target) opens locals world
  · exact follows_of_spared fun field =>
      bounded.notMem fun inside => apart inside.1.symm field inside.2
  · exact ⟨halts_entered (not_stop_of_opens (fun same => apart same .running) opens),
      holds_entered (not_isDispatch_of_opens (fun same => apart same .cursor) opens)⟩

end

/-! ### Setups -/

section

variable [Trigonometric α] {sequence : Sequence α} {owner : String}

theorem follows_setup (locals : Locals α) (world : World α) :
    sequence.Follows owner world (Block.traceAll owner locals world sequence.setup)
      (Block.runAll owner locals world sequence.setup) := by
  rw [setup]
  split
  · rw [Effect.changeTimeline, Block.traceAll_cons, Block.traceAll_nil, List.append_nil,
      Block.runAll_cons, Block.runAll_nil, Stmt.trace_onlyIf, Stmt.run_onlyIf]
    split
    · obtain ⟨halts, holds⟩ := @follows_change α _ sequence owner .start locals world
      exact ⟨halts, holds⟩
    · exact ⟨halts_entered (by simp [Effect.changeTimeline]),
        holds_entered fun _ => not_isDispatch_nil⟩
  · rw [Block.traceAll_nil, Block.runAll_nil]
    exact composes_follows.nil world

/-- The guarded setup of the owner, whatever else is set up in it. -/
theorem follows_once {ahead behind : Block α}
    (sparedAhead : Block.WritesOnly (sequence.Spared owner) owner ahead)
    (sparedBehind : Block.WritesOnly (sequence.Spared owner) owner behind) (locals : Locals α)
    (world : World α) :
    let once := Program.once (ahead ++ (sequence.setup ++ behind))
    sequence.Follows owner world (Block.traceAll owner locals world once)
      (Block.runAll owner locals world once) := by
  intro once
  have spared {block : Block α} (bounded : Block.WritesOnly (sequence.Spared owner) owner block)
      (locals : Locals α) (world : World α) :
      sequence.Follows owner world (Block.traceAll owner locals world block)
        (Block.runAll owner locals world block) :=
    follows_of_spared (fun field => bounded.notMem (not_spared field)) locals world
  dsimp only [once, Program.once]
  split
  · rw [Block.traceAll_nil, Block.runAll_nil]
    exact composes_follows.nil world
  · rw [Block.traceAll_cons, Block.traceAll_nil, List.append_nil, Block.runAll_cons,
      Block.runAll_nil, Stmt.trace_onlyIf, Stmt.run_onlyIf]
    split
    · -- The guarded block notes that the owner is set up, which no stop and no entry does.
      let body := (ahead ++ (sequence.setup ++ behind)) ++ [Slot.initialized.write (.num 1)]
      have notes : (owner, Slot.initialized.key) ∈ Block.writes owner body := by
        simp [body, Slot.write]
      have begins : sequence.Follows owner world [.entered owner body world] world := by
        refine ⟨halts_entered ?_, holds_entered ?_⟩
        · rintro ⟨-, same⟩
          rw [same] at notes
          simp [Effect.changeTimeline, Slot.write] at notes
        · rintro index ⟨cue, found, -, same⟩
          rw [(Event.entered.inj same).2.1, entry, Block.writes_cons, List.mem_append] at notes
          rcases notes with atCursor | inDispatch
          · simp [Slot.write, slot] at atCursor
          · refine (cue.action.writesOnly_dispatch owner).notMem ?_ inDispatch
            exact fun inside => Instance.not_reaches_initialized inside.2
      exact composes_follows.append begins (composes_follows.blocks
        (composes_follows.blocks (spared sparedAhead)
          (composes_follows.blocks follows_setup (spared sparedBehind)))
        (spared writesOnly_initialized) locals world)
    · exact ⟨halts_entered (by simp [Effect.changeTimeline]),
        holds_entered fun _ => not_isDispatch_nil⟩

/-! ### Turns -/

/-- Up to the last statement of a turn only its entries write whether the timeline runs. -/
theorem opens_turn {actions : List (Instance α)}
    (inside : ∀ cue ∈ sequence.cues, cue.action ∈ actions) :
    Block.Opens actions (fun slot => slot ≠ sequence.slot .running) owner
      (sequence.cues.zipIdx.map (fun (cue, index) => sequence.dispatchAt cue index) ++
        [sequence.countTick]) := by
  refine .append (.map fun cue member => .onlyIf ?_) (.of_writesOnly ?_)
  · refine .plain _ _ (Block.writesOnly_write.mpr ⟨rfl, by simp [slot]⟩) (.dispatch ?_)
    exact inside cue.1 (List.fst_mem_of_mem_zipIdx member)
  · exact Block.writesOnly_write.mpr ⟨rfl, by simp [slot]⟩

/-- Where a turn ends stopped, the timeline does not run. -/
theorem halts_run {actions : List (Instance α)} (changed : sequence.IsChangedOn owner actions)
    (inside : ∀ cue ∈ sequence.cues, cue.action ∈ actions) (locals : Locals α) (world : World α) :
    sequence.Halts owner world (Block.traceAll owner locals world sequence.run)
      (Block.runAll owner locals world sequence.run) := by
  let chain := sequence.cues.zipIdx.map fun (cue, index) => sequence.dispatchAt cue index
  have ends (locals : Locals α) (world : World α) : sequence.Halts owner world
      (Block.traceAll owner locals world [sequence.stopAtEnd])
      (Block.runAll owner locals world [sequence.stopAtEnd]) := by
    rw [Block.traceAll_cons, Block.traceAll_nil, List.append_nil, Block.runAll_cons,
      Block.runAll_nil, stopAtEnd, Stmt.trace_onlyIf, Stmt.run_onlyIf]
    split
    · exact (follows_change .stop locals world).1
    · exact halts_entered (by simp [Effect.changeTimeline])
  have turn (locals : Locals α) (world : World α) : sequence.Halts owner world
      (Block.traceAll owner locals world (chain ++ [sequence.countTick, sequence.stopAtEnd]))
      (Block.runAll owner locals world (chain ++ [sequence.countTick, sequence.stopAtEnd])) := by
    have whole :=
      composes_halts.blocks (halts_opens changed (fun _ kept => kept rfl) (opens_turn inside)) ends
    rw [List.append_assoc] at whole
    exact whole locals world
  rw [run, Block.traceAll_cons, Block.runAll_cons, Stmt.trace.eq_def, Stmt.run, List.nil_append,
    Block.traceAll_cons, Block.runAll_cons, Block.traceAll_nil, Block.runAll_nil, List.append_nil,
    Stmt.trace_onlyIf, Stmt.run_onlyIf]
  split
  · rw [← List.singleton_append]
    refine composes_halts.append (halts_entered ?_) (turn locals world)
    rintro ⟨-, same⟩
    have length := congrArg List.length same
    simp [Effect.changeTimeline] at length
  · exact halts_entered (by simp [Effect.changeTimeline])

/-- Whatever begins by resuming the timeline may write whether it runs. -/
theorem mem_writes_of_resumes {object : String} {block : Block α} {found : World α}
    (resumes : sequence.Resumes owner (.entered object block found)) :
    object = owner ∧ (owner, (sequence.slot .running).key) ∈ Block.writes owner block := by
  obtain ⟨change, -, rfl, rfl⟩ := resumes
  refine ⟨rfl, ?_⟩
  cases change <;> simp [Effect.changeTimeline, Effect.rewind, Slot.write, slot, Stmt.onlyIf]

/-- A block that does not write whether the timeline runs does not resume it. -/
theorem not_resumes_of_spared {this : String} {block : Block α}
    (spared : (owner, (sequence.slot .running).key) ∉ Block.writes this block) (locals : Locals α)
    (world : World α) :
    ∀ event ∈ Block.traceAll this locals world block, ¬sequence.Resumes owner event := by
  intro event happens resumes
  cases event with
  | entered object inner found =>
    obtain ⟨rfl, written⟩ := mem_writes_of_resumes resumes
    exact spared (Block.writes_subset_of_entered block happens written)
  | wrote =>
    obtain ⟨_, _, isChange⟩ := resumes
    cases isChange

/-- Logic that opens actions, and does not itself write whether the timeline runs, is not what begins
where the timeline is resumed. -/
theorem not_resumes_of_opens {actions : List (Instance α)} {own : Slot → Prop} {this : String}
    {block : Block α} (apart : this = owner → ¬own (sequence.slot .running))
    (opens : Block.Opens actions own this block) (world : World α) :
    ¬sequence.Resumes owner (.entered this block world) := by
  rintro ⟨change, notStop, rfl, rfl⟩
  have kept := apart rfl
  cases change with
  | start => exact kept opens.own_of_write
  | stop => exact notStop rfl
  | «continue» => exact kept opens.own_of_write
  | startIfNotStarted =>
    cases opens with
    | plain _ _ bounded =>
      have absent : (this, (sequence.slot .running).key) ∉ Block.writes this _ :=
        bounded.notMem fun inside => kept inside.2
      exact absent (by simp [Effect.rewind, Slot.write, slot, Stmt.onlyIf])
    | branch _ _ _ _ opensYes => exact kept opensYes.own_of_write

theorem not_resumes_nil (world : World α) : ¬sequence.Resumes owner (.entered owner [] world) :=
  have opens : Block.Opens [] (fun _ => False) owner ([] : Block α) := .nil
  not_resumes_of_opens (fun _ => id) opens world

/-- A stop is not what resumes the timeline, nor does anything in it. -/
theorem not_resumes_stop (locals : Locals α) (world : World α) :
    ∀ event ∈ .entered owner (Effect.changeTimeline sequence.name .stop) world ::
      Block.traceAll owner locals world (Effect.changeTimeline sequence.name .stop),
      ¬sequence.Resumes owner event := by
  rintro event happens ⟨change, notStop, isChange⟩
  rcases List.mem_cons.mp happens with rfl | inside
  · exact notStop (changeTimeline_injective isChange.2).symm
  · simp only [Effect.changeTimeline, Block.traceAll_cons, Slot.trace_write, Block.traceAll_nil,
      List.append_nil, List.mem_singleton] at inside
    subst inside
    cases isChange

/-- A timeline that its own entries only stop is not resumed in its turn. -/
theorem not_resumes_run {actions : List (Instance α)} (changed : sequence.IsChangedOn owner actions)
    (inside : ∀ cue ∈ sequence.cues, cue.action ∈ actions)
    (stops : ∀ cue ∈ sequence.cues, ∀ change,
      cue.action.effect = .timeline sequence.name change → change = .stop)
    (locals : Locals α) (world : World α) :
    ∀ event ∈ Block.traceAll owner locals world sequence.run, ¬sequence.Resumes owner event := by
  have composes : Trace.Composes fun (_ : World α) events (_ : World α) =>
      ∀ event ∈ events, ¬sequence.Resumes owner event :=
    ⟨by simp, fun first second => List.forall_mem_append.mpr ⟨first, second⟩⟩
  let chain := sequence.cues.zipIdx.map fun (cue, index) => sequence.dispatchAt cue index
  have early : ∀ locals world, ∀ event ∈
      Block.traceAll owner locals world (chain ++ [sequence.countTick]),
      ¬sequence.Resumes owner event := by
    refine composes.opens (fun block bounded => ?_) (fun block opens world => ?_)
      (fun action isOwn target targeted locals world => ?_)
      (opens_turn fun cue member => List.mem_map_of_mem (f := Cue.action) member)
    · exact not_resumes_of_spared (bounded.notMem fun inside => inside.2 rfl)
    · simpa using not_resumes_of_opens (fun _ kept => kept rfl) opens world
    · obtain ⟨cue, member, rfl⟩ := List.mem_map.mp isOwn
      rcases changes_or_spares_within sequence owner cue.action owner target with
        ⟨rfl, change, effect⟩ | spared
      · have isAction := inside cue member
        rw [Stmt.trace, changed.opening _ isAction change effect, stops cue member change effect]
        exact not_resumes_stop locals world
      · have calm := not_resumes_of_spared (spared .running) locals world
        rwa [Block.traceAll_cons, Block.traceAll_nil, List.append_nil] at calm
  have ends : ∀ locals world, ∀ event ∈ Block.traceAll owner locals world [sequence.stopAtEnd],
      ¬sequence.Resumes owner event := by
    intro locals world
    rw [Block.traceAll_cons, Block.traceAll_nil, List.append_nil, stopAtEnd, Stmt.trace_onlyIf]
    split
    · exact not_resumes_stop locals world
    · simpa using not_resumes_nil world
  rw [run, Block.traceAll_cons, Stmt.trace.eq_def, List.nil_append, Block.traceAll_cons,
    Block.traceAll_nil, List.append_nil, Stmt.trace_onlyIf]
  split
  · refine List.forall_mem_cons.mpr ⟨?_, ?_⟩
    · -- A turn is longer than most changes, and its last statement is not a plain write.
      rintro ⟨change, notStop, -, same⟩
      have length := congrArg List.length same
      cases change with
      | start =>
        have last := congrArg List.getLast? same
        simp only [Effect.changeTimeline, Effect.rewind, List.getLast?_append, List.getLast?_cons_cons,
          List.getLast?_singleton, Option.some_or, Option.some.injEq] at last
        cases last
      | _ => simp [Effect.changeTimeline] at length
    · have whole := composes.blocks early ends
      rw [List.append_assoc] at whole
      exact whole _ world
  · simpa using not_resumes_nil _

end

end Sequence

end Stagecraft
