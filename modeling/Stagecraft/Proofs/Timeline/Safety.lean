/-
This file follows a timeline through everything that can happen to it: frames of its sequence, its
setup, and changes of its state by other logic or by its own entries, in any order. Between any two
statements the same four facts hold of what has happened so far and of the slots of the timeline.
A rewind makes all of them trivial, so it may come at any moment, also out of the chain of entries.
-/

import Stagecraft.Proofs.Action.Scope
import Stagecraft.Proofs.Logic.Evaluation
import Stagecraft.Proofs.Logic.Ledger
import Stagecraft.Proofs.Scalar.Doubles
import Stagecraft.Proofs.Timeline.Sequence

namespace Stagecraft

namespace Sequence

variable {α : Type}

/-! ### What happens to a timeline -/

section

variable (sequence : Sequence α) (owner : String)

/-- The timeline is rewound: only a rewind notes that the timeline was started. -/
def isRewind : Event α → Bool
  | .wrote object key _ => object == owner && key == (sequence.slot .started).key
  | .entered .. => false

/-- A rewind has happened. -/
def Begun (events : List (Event α)) : Prop :=
  ∃ event ∈ events, sequence.isRewind owner event = true

/-- What happened since the last rewind. -/
def sinceRewind (events : List (Event α)) : List (Event α) :=
  events.rtakeWhile fun event => !sequence.isRewind owner event

variable [Trigonometric α]

/-- What runs when an entry is dispatched. -/
def entry (cue : Cue α) (index : Nat) : Block α :=
  (sequence.slot .cursor).write (.num (Scalar.ofNat (index + 1))) :: cue.action.dispatch

/-- The entry at the index is dispatched. -/
def IsDispatch (index : Nat) (event : Event α) : Prop :=
  ∃ cue world, sequence.cues[index]? = some cue ∧
    event = .entered owner (sequence.entry cue index) world

open Classical in
/-- The dispatches of entries. -/
noncomputable def dispatches (events : List (Event α)) : List (Event α) :=
  events.filter fun event => ∃ index, sequence.IsDispatch owner index event

/-- What a slot of the timeline holds. -/
def value (world : World α) (field : TimelineField) : α :=
  world.read owner (sequence.slot field).key

/-- Something happens that may concern the timeline. -/
inductive Step : World α → List (Event α) → World α → Prop
  | frame (locals : Locals α) (world : World α) :
    Step world (Block.traceAll owner locals world sequence.run)
      (Block.runAll owner locals world sequence.run)
  | setup (locals : Locals α) (world : World α) :
    Step world (Block.traceAll owner locals world sequence.setup)
      (Block.runAll owner locals world sequence.setup)
  /-- Other logic changes the state of the timeline. -/
  | change (change : TimelineChange) (locals : Locals α) (world : World α) :
    Step world (Block.traceAll owner locals world (Effect.changeTimeline sequence.name change))
      (Block.runAll owner locals world (Effect.changeTimeline sequence.name change))
  /-- Other logic does anything else. -/
  | elsewhere (world next : World α) (hosts : next.hosts = world.hosts)
    (spared : ∀ field, sequence.value owner next field = sequence.value owner world field) :
    Step world [] next

/-- Steps one after the other, with all that happens in them. -/
inductive Course (start : World α) : List (Event α) → World α → Prop
  | begin : Course start [] start
  | next {events more : List (Event α)} {world world' : World α}
    (earlier : Course start events world) (step : sequence.Step owner world more world') :
    Course start (events ++ more) world'

end

/-! ### Rewinds -/

section

variable {sequence : Sequence α} {owner : String} {events more : List (Event α)}

@[simp] theorem isRewind_write (field : TimelineField) (number : α) :
    sequence.isRewind owner (.wrote owner (sequence.slot field).key number) =
      decide (field = .started) := by
  cases field <;> simp [isRewind, slot]

theorem begun_append :
    Begun sequence owner (events ++ more) ↔
      Begun sequence owner events ∨ Begun sequence owner more := by
  simp only [Begun, List.mem_append, or_and_right, exists_or]

theorem sinceRewind_append_of_not_begun (none : ¬Begun sequence owner more) :
    sequence.sinceRewind owner (events ++ more) = sequence.sinceRewind owner events ++ more := by
  have all : ∀ event ∈ more.reverse, (!sequence.isRewind owner event) = true := by
    intro event member
    have notRewind := fun rewinds => none ⟨event, List.mem_reverse.mp member, rewinds⟩
    simpa using notRewind
  rw [sinceRewind, List.rtakeWhile, List.reverse_append, List.takeWhile_append_of_pos all,
    List.reverse_append, List.reverse_reverse]
  rfl

/-- What happened before a rewind is not looked at any more. -/
theorem sinceRewind_append_cons {event : Event α} (rewinds : sequence.isRewind owner event = true)
    (none : ¬Begun sequence owner more) :
    sequence.sinceRewind owner (events ++ event :: more) = more := by
  have split : events ++ event :: more = (events ++ [event]) ++ more := by simp
  rw [split, sinceRewind_append_of_not_begun none, sinceRewind,
    List.rtakeWhile_concat_neg _ _ _ (by simp [rewinds]), List.nil_append]

end

/-! ### Dispatches -/

section

variable [Trigonometric α] {sequence : Sequence α} {owner : String} {events more : List (Event α)}

/-- Nothing that happens is a rewind or a dispatch. -/
def Calm (sequence : Sequence α) (owner : String) (events : List (Event α)) : Prop :=
  ∀ event ∈ events, sequence.isRewind owner event = false ∧
    ∀ index, ¬sequence.IsDispatch owner index event

@[simp] theorem calm_nil : Calm sequence owner [] := fun _ member => by cases member

@[simp] theorem calm_cons {event : Event α} :
    Calm sequence owner (event :: events) ↔
      (sequence.isRewind owner event = false ∧ ∀ index, ¬sequence.IsDispatch owner index event) ∧
        Calm sequence owner events := by
  rw [Calm, List.forall_mem_cons, ← Calm]

theorem calm_append :
    Calm sequence owner (events ++ more) ↔
      Calm sequence owner events ∧ Calm sequence owner more := by
  rw [Calm, List.forall_mem_append, ← Calm, ← Calm]

theorem Calm.not_begun (calm : Calm sequence owner events) : ¬Begun sequence owner events := by
  rintro ⟨event, member, rewinds⟩
  rw [(calm event member).1] at rewinds
  cases rewinds

theorem dispatches_append :
    sequence.dispatches owner (events ++ more) =
      sequence.dispatches owner events ++ sequence.dispatches owner more := by
  rw [dispatches, List.filter_append, ← dispatches, ← dispatches]

theorem Calm.dispatches_eq_nil (calm : Calm sequence owner events) :
    sequence.dispatches owner events = [] := by
  rw [dispatches, List.filter_eq_nil_iff]
  intro event member
  simpa using (calm event member).2

@[simp] theorem not_isDispatch_wrote {object key : String} {number : α} {index : Nat} :
    ¬sequence.IsDispatch owner index (.wrote object key number) := by
  rintro ⟨cue, found, -, same⟩
  cases same

/-- A block that does not begin with a write of the cursor is not what runs for an entry. -/
theorem not_isDispatch_entered {block : Block α} {object : String} {world : World α} {index : Nat}
    (other : ∀ number rest, block ≠ (sequence.slot .cursor).write (.num number) :: rest) :
    ¬sequence.IsDispatch owner index (.entered object block world) := by
  rintro ⟨cue, found, -, same⟩
  exact other _ _ (Event.entered.inj same).2.1

/-- A dispatch is that of one entry only. -/
theorem IsDispatch.index_eq [Counting α] (small : sequence.cues.length ≤ countingLimit)
    {first second : Nat} {event : Event α} (here : sequence.IsDispatch owner first event)
    (there : sequence.IsDispatch owner second event) : first = second := by
  obtain ⟨cue, world, found, rfl⟩ := here
  obtain ⟨cue', world', found', same⟩ := there
  have firstLt := (List.getElem?_eq_some_iff.mp found).1
  have secondLt := (List.getElem?_eq_some_iff.mp found').1
  have numbers : (Scalar.ofNat (first + 1) : α) = Scalar.ofNat (second + 1) := by
    have heads := (List.cons.inj (Event.entered.inj same).2.1).1
    exact Expr.num.inj (Stmt.set.inj heads).2
  exact Nat.succ.inj (Counting.eq_of_ofNat_eq (by omega) (by omega) numbers)

theorem value_write {world : World α} (hosted : world.hosts owner) (field other : TimelineField) (number : α) :
    sequence.value owner (world.write owner (sequence.slot field).key number) other =
      if field = other then number else sequence.value owner world other := by
  rw [value, World.read_write]
  simp [hosted, slot, value]

end

/-! ### Safety -/

section

variable [Trigonometric α] (sequence : Sequence α) (owner : String)

/-- What holds of all that happened so far and of the slots of the timeline. -/
structure Safe (events : List (Event α)) (world : World α) : Prop where
  /-- An entry was dispatched only once its time had come. -/
  due : ∀ event ∈ sequence.dispatches owner events, ∃ index cue found,
    sequence.cues[index]? = some cue ∧ event = .entered owner (sequence.entry cue index) found ∧
      (Scalar.ofNat (sequence.startTick cue) : α) ≤ sequence.value owner found .elapsed
  /-- Before the first rewind the timeline rests. -/
  resting : ¬Begun sequence owner events → sequence.value owner world .running = 0 ∧
    sequence.value owner world .started = 0 ∧ sequence.value owner world .cursor = 0 ∧
      sequence.dispatches owner events = []
  started : Begun sequence owner events → sequence.value owner world .started = 1
  /-- Since the last rewind the entries below the cursor were dispatched in order. -/
  progress : sequence.cues.length ≤ countingLimit → ∃ count ≤ sequence.cues.length,
    sequence.value owner world .cursor = Scalar.ofNat count ∧
      List.Forall₂ (sequence.IsDispatch owner) (List.range count)
        (sequence.dispatches owner (sequence.sinceRewind owner events))

variable {sequence owner} {events more : List (Event α)} {world next : World α}

theorem Safe.running (safe : Safe sequence owner events world)
    (running : sequence.value owner world .running ≠ 0) : Begun sequence owner events := by
  by_contra none
  exact running (safe.resting none).1

/-- Nothing has happened to a timeline without slots. -/
theorem safe_begin [Counting α] (absent : ∀ field, sequence.value owner world field = 0) :
    Safe sequence owner [] world where
  due event member := by cases member
  resting _ := ⟨absent .running, absent .started, absent .cursor, rfl⟩
  started begun := absurd begun calm_nil.not_begun
  progress _ := ⟨0, Nat.zero_le _, by rw [absent, Counting.ofNat_zero], .nil⟩

/-- A timeline may stop and go on as long as it is neither rewound nor moved on. -/
theorem Safe.calm (safe : Safe sequence owner events world) (calm : Calm sequence owner more)
    (sameStarted : sequence.value owner next .started = sequence.value owner world .started)
    (sameCursor : sequence.value owner next .cursor = sequence.value owner world .cursor)
    (running : sequence.value owner next .running = 0 ∨
      sequence.value owner next .running = sequence.value owner world .running ∨
      sequence.value owner next .running = sequence.value owner world .started) :
    Safe sequence owner (events ++ more) next where
  due := by
    rw [dispatches_append, calm.dispatches_eq_nil, List.append_nil]
    exact safe.due
  resting none := by
    rw [begun_append, not_or] at none
    obtain ⟨atRest, neverStarted, first, nothing⟩ := safe.resting none.1
    rw [dispatches_append, calm.dispatches_eq_nil, List.append_nil, sameStarted, sameCursor]
    refine ⟨?_, neverStarted, first, nothing⟩
    rcases running with stopped | unchanged | resumed
    · exact stopped
    · rw [unchanged, atRest]
    · rw [resumed, neverStarted]
  started begun := by
    rw [begun_append, or_iff_left calm.not_begun] at begun
    rw [sameStarted, safe.started begun]
  progress small := by
    rw [sinceRewind_append_of_not_begun calm.not_begun, dispatches_append, calm.dispatches_eq_nil,
      List.append_nil, sameCursor]
    exact safe.progress small

/-- After a rewind nothing before it matters but that all was due. -/
theorem Safe.rewind [Counting α] {before after : List (Event α)} {event : Event α}
    (safe : Safe sequence owner events world) (calmBefore : Calm sequence owner before)
    (rewinds : sequence.isRewind owner event = true)
    (noDispatch : ∀ index, ¬sequence.IsDispatch owner index event)
    (calmAfter : Calm sequence owner after) (started : sequence.value owner next .started = 1)
    (cursor : sequence.value owner next .cursor = 0) :
    Safe sequence owner (events ++ (before ++ event :: after)) next where
  due := by
    have single : sequence.dispatches owner [event] = [] := by
      simpa [dispatches] using noDispatch
    have none : sequence.dispatches owner (before ++ event :: after) = [] := by
      rw [dispatches_append, calmBefore.dispatches_eq_nil, List.nil_append, ← List.singleton_append,
        dispatches_append, single, calmAfter.dispatches_eq_nil, List.nil_append]
    rw [dispatches_append, none, List.append_nil]
    exact safe.due
  resting none := absurd ⟨event, by simp, rewinds⟩ none
  started _ := started
  progress _ := by
    refine ⟨0, Nat.zero_le _, by rw [cursor, Counting.ofNat_zero], ?_⟩
    rw [← List.append_assoc, sinceRewind_append_cons rewinds calmAfter.not_begun,
      calmAfter.dispatches_eq_nil]
    exact .nil

/-- The entry under the cursor is dispatched, and the cursor moves on. -/
theorem Safe.dispatch [Counting α] {cue : Cue α} {index : Nat}
    (safe : Safe sequence owner events world) (hosted : world.hosts owner)
    (begun : Begun sequence owner events) (atIndex : sequence.cues[index]? = some cue)
    (isNext : (sequence.value owner world .cursor == Scalar.ofNat index) = true)
    (isDue : (Scalar.ofNat (sequence.startTick cue) : α) ≤ sequence.value owner world .elapsed) :
    Safe sequence owner
      (events ++ [.entered owner (sequence.entry cue index) world,
        .wrote owner (sequence.slot .cursor).key (Scalar.ofNat (index + 1))])
      (world.write owner (sequence.slot .cursor).key (Scalar.ofNat (index + 1))) := by
  let more : List (Event α) := [.entered owner (sequence.entry cue index) world,
    .wrote owner (sequence.slot .cursor).key (Scalar.ofNat (index + 1))]
  have dispatched : sequence.IsDispatch owner index
      (.entered owner (sequence.entry cue index) world) := ⟨cue, world, atIndex, rfl⟩
  have single : sequence.dispatches owner more =
      [.entered owner (sequence.entry cue index) world] := by
    have some : ∃ index', sequence.IsDispatch owner index'
        (.entered owner (sequence.entry cue index) world) := ⟨index, dispatched⟩
    simp [dispatches, more, some]
  have noRewind : ¬Begun sequence owner more := by
    simp [Begun, more, isRewind.eq_2]
  constructor
  case due =>
    rw [dispatches_append, single]
    refine List.forall_mem_append.mpr ⟨safe.due, List.forall_mem_singleton.mpr ?_⟩
    exact ⟨index, cue, world, atIndex, rfl, isDue⟩
  case resting =>
    intro none
    exact absurd (begun_append.mpr (.inl begun)) none
  case started =>
    intro _
    rw [value_write hosted, if_neg (by simp), safe.started begun]
  case progress =>
    intro small
    obtain ⟨count, within, atCount, passed⟩ := safe.progress small
    have below := (List.getElem?_eq_some_iff.mp atIndex).1
    rw [atCount, Counting.ofNat_beq _ _ (by omega) (by omega), decide_eq_true_eq] at isNext
    subst isNext
    refine ⟨count + 1, below, by rw [value_write hosted, if_pos rfl], ?_⟩
    rw [sinceRewind_append_of_not_begun noRewind, dispatches_append, single, List.range_succ]
    exact List.rel_append passed (.cons dispatched .nil)

end

/-! ### Blocks -/

/-- An action either changes the state of this timeline or spares its slots. -/
theorem changes_or_spares (sequence : Sequence α) (action : Instance α) :
    (∃ change, action.effect = .timeline sequence.name change) ∨
      ∀ field, ¬action.Reaches (sequence.slot field) := by
  by_cases changes : ∃ change, action.effect = .timeline sequence.name change
  · exact .inl changes
  · refine .inr fun field reaches => ?_
    rcases reaches with (drives | ⟨other, -, -, same⟩) | same | same
    · cases effect : action.effect with
      | timeline name change =>
        rw [effect, Effect.Drives] at drives
        obtain ⟨field', same⟩ := drives
        rw [slot, Slot.timeline.injEq] at same
        exact changes ⟨change, by rw [effect, same.1]⟩
      | _ => simp [effect, Effect.Drives, slot, Slot.visible, Slot.alpha, Slot.position,
          Slot.orientation] at drives
    · cases same
    · cases same
    · cases same

/-- On one of its targets an action changes the state of this timeline, or it spares its slots. -/
theorem changes_or_spares_within [Trigonometric α] (sequence : Sequence α) (owner : String)
    (action : Instance α) (this target : String) :
    (target = owner ∧ ∃ change, action.effect = .timeline sequence.name change) ∨
      ∀ field, (owner, (sequence.slot field).key) ∉
        Block.writes this [.within target action.opening] := by
  by_cases reached : target = owner ∧ ∃ change, action.effect = .timeline sequence.name change
  · exact .inl reached
  · refine .inr fun field => ?_
    rw [Block.writes_cons, Block.writes_nil, List.append_nil, Stmt.writes_within]
    refine Instance.writesOnly_opening.notMem ?_
    rintro ⟨rfl, reaches⟩
    rcases changes_or_spares sequence action with changes | spares
    · exact reached ⟨rfl, changes⟩
    · exact spares field reaches

/-- An action that changes the state of the timeline does nothing else but set flags of its own. -/
theorem exists_flags_of_change [Trigonometric α] {sequence : Sequence α} {action : Instance α}
    {change : TimelineChange} (effect : action.effect = .timeline sequence.name change)
    (owner : String) :
    ∃ flags : Block α, action.opening = Effect.changeTimeline sequence.name change ++ flags ∧
      ∀ field, (owner, (sequence.slot field).key) ∉ Block.writes owner flags := by
  refine ⟨if action.isTimed then [action.active.write (.num 1), action.elapsed.write (.num 0)]
    else [], ?_, fun field => ?_⟩
  · rw [Instance.opening, Instance.phases, effect, Effect.phases]
    split <;> rfl
  · split <;> simp [Slot.write, slot, Instance.active, Instance.elapsed]

section

variable [Trigonometric α] {sequence : Sequence α} {owner : String} {events : List (Event α)}
  {world : World α}

/-- A block that spares the slots of the timeline neither rewinds it nor dispatches an entry. -/
theorem calm_of_spared {this : String} {body : Block α}
    (spared : ∀ field, (owner, (sequence.slot field).key) ∉ Block.writes this body)
    (locals : Locals α) (world : World α) :
    Calm sequence owner (Block.traceAll this locals world body) := by
  intro event member
  cases event with
  | entered object block found =>
    refine ⟨rfl, ?_⟩
    rintro index ⟨cue, left, -, same⟩
    obtain ⟨rfl, rfl, -⟩ := Event.entered.inj same
    have inside := Block.writes_subset_of_entered body member
    exact spared .cursor (inside (by simp [entry, Slot.write]))
  | wrote object key number =>
    refine ⟨?_, fun index => not_isDispatch_wrote⟩
    by_contra rewinds
    simp only [isRewind, Bool.and_eq_true, beq_iff_eq, Bool.not_eq_false] at rewinds
    obtain ⟨rfl, rfl⟩ := rewinds
    exact spared .started (Block.mem_writes_of_wrote body member)

theorem Safe.spare (safe : Safe sequence owner events world) {this : String} {body : Block α}
    (spared : ∀ field, (owner, (sequence.slot field).key) ∉ Block.writes this body)
    (locals : Locals α) :
    Safe sequence owner (events ++ Block.traceAll this locals world body)
      (Block.runAll this locals world body) := by
  have same (field : TimelineField) : sequence.value owner (Block.runAll this locals world body)
      field = sequence.value owner world field :=
    Block.read_runAll this locals world owner _ body (spared field)
  exact safe.calm (calm_of_spared spared locals world) (same _) (same _) (.inr (.inl (same _)))

/-- What begins with a write of another slot than the cursor is not what runs for an entry. -/
theorem not_isDispatch_write {field : TimelineField} (other : field ≠ .cursor) {value : Expr α}
    {rest : Block α} {index : Nat} :
    ¬sequence.IsDispatch owner index
      (.entered owner ((sequence.slot field).write value :: rest) world) := by
  refine not_isDispatch_entered fun number rest' same => other ?_
  have heads := (Stmt.set.inj (List.cons.inj same).1).1
  rw [slot, slot, Slot.key_inj] at heads
  exact (Slot.timeline.inj heads).2

/-- What begins with a decision is not what runs for an entry. -/
theorem not_isDispatch_branch {condition : Expr α} {yes no rest : Block α} {index : Nat} :
    ¬sequence.IsDispatch owner index (.entered owner (.branch condition yes no :: rest) world) := by
  refine not_isDispatch_entered fun number rest' same => ?_
  cases (List.cons.inj same).1

theorem not_isDispatch_nil {index : Nat} :
    ¬sequence.IsDispatch owner index (.entered owner [] world) :=
  not_isDispatch_entered fun number rest same => by cases same

theorem not_isDispatch_change {change : TimelineChange} {rest : Block α} {index : Nat} :
    ¬sequence.IsDispatch owner index
      (.entered owner (Effect.changeTimeline sequence.name change ++ rest) world) := by
  cases change with
  | startIfNotStarted => exact not_isDispatch_branch
  | _ => exact not_isDispatch_write (by simp)

/-- Entering a block that is not what runs for an entry is safe. -/
theorem Safe.enter (safe : Safe sequence owner events world) {object : String} {block : Block α}
    (other : ∀ index, ¬sequence.IsDispatch owner index (.entered object block world)) :
    Safe sequence owner (events ++ [.entered object block world]) world :=
  safe.calm (calm_cons.mpr ⟨⟨rfl, other⟩, calm_nil⟩) rfl rfl (.inr (.inl rfl))

/-- The end of a tick. -/
theorem Safe.counted (safe : Safe sequence owner events world) (hosted : world.hosts owner)
    (locals : Locals α) :
    Safe sequence owner
      (events ++ Block.traceAll owner locals world [sequence.countTick, sequence.stopAtEnd])
      (Block.runAll owner locals world [sequence.countTick, sequence.stopAtEnd]) := by
  let count : Expr α := (sequence.slot .elapsed).read + .num 1
  let counted : World α := world.write owner (sequence.slot .elapsed).key
    (count.eval world owner locals).number
  have ticked : Safe sequence owner
      (events ++ [.wrote owner (sequence.slot .elapsed).key (count.eval world owner locals).number])
      counted := by
    refine safe.calm (by simp) ?_ ?_ (.inr (.inl ?_)) <;> simp [counted, value_write hosted]
  have split : Block.traceAll owner locals world [sequence.countTick, sequence.stopAtEnd] =
      [.wrote owner (sequence.slot .elapsed).key (count.eval world owner locals).number] ++
        sequence.stopAtEnd.trace owner locals counted := by
    simp [Block.traceAll_cons, countTick, count, counted]
  have left : Block.runAll owner locals world [sequence.countTick, sequence.stopAtEnd] =
      (sequence.stopAtEnd.run owner locals counted).2 := by
    simp [countTick, count, counted]
  rw [split, left, ← List.append_assoc, stopAtEnd, Stmt.trace_onlyIf, Stmt.run_onlyIf]
  split
  · have notEntry (index : Nat) : ¬sequence.IsDispatch owner index
        (.entered owner [(sequence.slot .running).write (.num 0)] counted) :=
      not_isDispatch_write (by simp)
    have calm : Calm sequence owner [.entered owner [(sequence.slot .running).write (.num 0)]
        counted, .wrote owner (sequence.slot .running).key 0] := by
      simp [notEntry, isRewind.eq_2]
    rw [Block.traceAll_cons, Block.traceAll_nil, List.append_nil, Slot.trace_write,
      Block.runAll_cons, Block.runAll_nil, Slot.run_write]
    have hostedStill : counted.hosts owner := by rwa [World.hosts_write]
    refine ticked.calm calm ?_ ?_ (.inl ?_) <;> simp [value_write hostedStill, Value.number]
  · exact ticked.enter fun index => not_isDispatch_nil

/-- What runs in a tick is not what runs for an entry. -/
theorem not_isDispatch_tick (entries : List (Cue α × Nat)) (world : World α) (index : Nat) :
    ¬sequence.IsDispatch owner index (.entered owner
      (entries.map (fun (cue, index) => sequence.dispatchAt cue index) ++
        [sequence.countTick, sequence.stopAtEnd]) world) := by
  cases entries with
  | nil => exact not_isDispatch_write (by simp)
  | cons entry rest => exact not_isDispatch_branch

variable [Counting α]

/-- A rewind is safe at any moment. -/
theorem Safe.rewound (safe : Safe sequence owner events world) (hosted : world.hosts owner)
    (locals : Locals α) :
    Safe sequence owner
      (events ++ Block.traceAll owner locals world (Effect.rewind sequence.name))
      (Block.runAll owner locals world (Effect.rewind sequence.name)) := by
  have before : Calm sequence owner [.wrote owner (sequence.slot .running).key 1] := by simp
  have after : Calm sequence owner [.wrote owner (sequence.slot .elapsed).key 0,
      .wrote owner (sequence.slot .cursor).key 0] := by simp
  have trace : Block.traceAll owner locals world (Effect.rewind sequence.name) =
      [.wrote owner (sequence.slot .running).key 1] ++
        .wrote owner (sequence.slot .started).key 1 ::
        [.wrote owner (sequence.slot .elapsed).key 0,
          .wrote owner (sequence.slot .cursor).key 0] := by
    simp [Effect.rewind, Block.traceAll_cons, Value.number, slot]
  have left : Block.runAll owner locals world (Effect.rewind sequence.name) =
      (((world.write owner (sequence.slot .running).key 1).write owner
        (sequence.slot .started).key 1).write owner (sequence.slot .elapsed).key 0).write owner
          (sequence.slot .cursor).key 0 := by
    simp [Effect.rewind, Value.number, slot]
  rw [trace, left]
  refine safe.rewind before (by simp) (by simp) after ?_ ?_ <;> simp [value_write, hosted]

/-- Every change of the timeline is safe at any moment. -/
theorem Safe.change (safe : Safe sequence owner events world) (hosted : world.hosts owner)
    (change : TimelineChange) (locals : Locals α) :
    Safe sequence owner
      (events ++ Block.traceAll owner locals world (Effect.changeTimeline sequence.name change))
      (Block.runAll owner locals world (Effect.changeTimeline sequence.name change)) := by
  have slotEq (field : TimelineField) : Slot.timeline sequence.name field = sequence.slot field :=
    rfl
  cases change with
  | start => exact safe.rewound hosted locals
  | stop =>
    simp only [Effect.changeTimeline, slotEq, Block.traceAll_cons, Slot.trace_write,
      Block.traceAll_nil, Block.runAll_cons, Slot.run_write, Block.runAll_nil, List.append_nil]
    refine safe.calm (by simp) ?_ ?_ (.inl ?_) <;> simp [value_write hosted, Value.number]
  | «continue» =>
    simp only [Effect.changeTimeline, slotEq, Block.traceAll_cons, Slot.trace_write,
      Block.traceAll_nil, Block.runAll_cons, Slot.run_write, Block.runAll_nil, List.append_nil]
    refine safe.calm (by simp) ?_ ?_ (.inr (.inr ?_))
    · simp [value_write hosted]
    · simp [value_write hosted]
    · rw [value_write hosted, if_pos rfl]
      rfl
  | startIfNotStarted =>
    rw [Effect.changeTimeline, Block.traceAll_cons, Block.traceAll_nil, List.append_nil,
      Block.runAll_cons, Block.runAll_nil, Stmt.trace_onlyIf, Stmt.run_onlyIf]
    split
    · have notEntry (index : Nat) : ¬sequence.IsDispatch owner index
          (.entered owner (Effect.rewind sequence.name) world) := not_isDispatch_write (by simp)
      simpa using (safe.enter notEntry).rewound hosted locals
    · exact safe.enter fun index => not_isDispatch_nil

/-! ### Entries -/

/-- What an entry does on one of its targets. -/
theorem Safe.opened (safe : Safe sequence owner events world) (hosted : world.hosts owner)
    (action : Instance α) (this target : String) (locals : Locals α) :
    Safe sequence owner
      (events ++ (Stmt.within target action.opening).trace this locals world)
      ((Stmt.within target action.opening).run this locals world).2 := by
  rcases changes_or_spares_within sequence owner action this target with
    ⟨rfl, change, effect⟩ | spared
  · obtain ⟨flags, opening, spared⟩ := exists_flags_of_change effect target
    have notEntry (index : Nat) : ¬sequence.IsDispatch target index
        (.entered target action.opening world) := opening ▸ not_isDispatch_change
    have changed := (safe.enter notEntry).change hosted change locals
    have flagged := changed.spare spared (Block.thread target locals world
      (Effect.changeTimeline sequence.name change)).1
    rw [Stmt.trace, Stmt.run, opening, Block.traceAll_append, Block.runAll_append]
    simpa [opening] using flagged
  · simpa [Block.traceAll_cons] using safe.spare spared locals

/-- What an entry does on all its targets. -/
theorem Safe.openedAll (safe : Safe sequence owner events world) (hosted : world.hosts owner)
    (action : Instance α) (this : String) (targets : List String) (locals : Locals α) :
    Safe sequence owner
      (events ++ Block.traceAll this locals world
        (targets.map fun target => .within target action.opening))
      (Block.runAll this locals world (targets.map fun target => .within target action.opening)) := by
  induction targets generalizing events world locals with
  | nil => simpa using safe
  | cons target rest inductionHypothesis =>
    have opened := safe.opened hosted action this target locals
    rw [List.map_cons, Block.traceAll_cons, Block.runAll_cons, ← List.append_assoc]
    exact inductionHypothesis opened (by rwa [Stmt.hosts_run])
      ((Stmt.within target action.opening).run this locals world).1

/-- An entry is dispatched if it is next and its time has come. -/
theorem Safe.dispatchedAt (safe : Safe sequence owner events world) (hosted : world.hosts owner)
    (begun : Begun sequence owner events) {cue : Cue α} {index : Nat}
    (atIndex : sequence.cues[index]? = some cue) (locals : Locals α) :
    Safe sequence owner (events ++ (sequence.dispatchAt cue index).trace owner locals world)
      ((sequence.dispatchAt cue index).run owner locals world).2 := by
  rw [dispatchAt, Stmt.trace_onlyIf, Stmt.run_onlyIf]
  split
  · rename_i decided
    rw [Expr.isTruthy_and, Bool.and_eq_true, Expr.isTruthy_equals_read,
      Expr.isTruthy_ge_read, decide_eq_true_eq] at decided
    have moved := safe.dispatch hosted begun atIndex decided.1 decided.2
    have opened := moved.openedAll (by rwa [World.hosts_write]) cue.action owner
      cue.action.targets locals
    rw [List.append_assoc] at opened
    rw [Block.traceAll_cons, Block.runAll_cons, Slot.trace_write, Slot.run_write, Expr.eval_num]
    exact opened
  · exact safe.enter fun index => not_isDispatch_nil

/-- The chain of entries, from any of them on. -/
theorem Safe.chained (safe : Safe sequence owner events world) (hosted : world.hosts owner)
    (begun : Begun sequence owner events) {entries : List (Cue α × Nat)}
    (placed : ∀ entry ∈ entries, sequence.cues[entry.2]? = some entry.1) (locals : Locals α) :
    Safe sequence owner
      (events ++ Block.traceAll owner locals world
        (entries.map fun (cue, index) => sequence.dispatchAt cue index))
      (Block.runAll owner locals world
        (entries.map fun (cue, index) => sequence.dispatchAt cue index)) := by
  induction entries generalizing events world locals with
  | nil => simpa using safe
  | cons entry rest inductionHypothesis =>
    obtain ⟨atIndex, later⟩ := List.forall_mem_cons.mp placed
    have dispatched := safe.dispatchedAt hosted begun atIndex locals
    rw [List.map_cons, Block.traceAll_cons, Block.runAll_cons, ← List.append_assoc]
    exact inductionHypothesis dispatched (by rwa [Stmt.hosts_run])
      (begun_append.mpr (.inl begun)) later _

/-- A frame of the sequence. -/
theorem Safe.ran (safe : Safe sequence owner events world) (hosted : world.hosts owner)
    (locals : Locals α) :
    Safe sequence owner (events ++ Block.traceAll owner locals world sequence.run)
      (Block.runAll owner locals world sequence.run) := by
  rw [run, Block.traceAll_cons, Block.runAll_cons, Stmt.trace.eq_def, Stmt.run]
  rw [List.nil_append, Block.traceAll_cons, Block.runAll_cons, Block.traceAll_nil,
    List.append_nil, Block.runAll_nil, Stmt.trace_onlyIf, Stmt.run_onlyIf]
  split
  · rename_i set
    have begun : Begun sequence owner events := by
      refine safe.running fun stopped => ?_
      rw [value] at stopped
      simp [stopped] at set
    have placed : ∀ entry ∈ sequence.cues.zipIdx, sequence.cues[entry.2]? = some entry.1 :=
      fun entry member => List.mem_zipIdx_iff_getElem?.mp member
    have entered := safe.enter (not_isDispatch_tick sequence.cues.zipIdx world)
    have chained := entered.chained hosted (begun_append.mpr (.inl begun)) placed locals
    have counted := chained.counted (by rwa [Block.hosts_runAll]) (Block.thread owner locals world
      (sequence.cues.zipIdx.map fun (cue, index) => sequence.dispatchAt cue index)).1
    rw [Block.traceAll_append, Block.runAll_append]
    simpa using counted
  · exact safe.enter fun index => not_isDispatch_nil

/-- The setup of the owner. -/
theorem Safe.setUp (safe : Safe sequence owner events world) (hosted : world.hosts owner)
    (locals : Locals α) :
    Safe sequence owner (events ++ Block.traceAll owner locals world sequence.setup)
      (Block.runAll owner locals world sequence.setup) := by
  rw [setup]
  split
  · exact safe.change hosted .startIfNotStarted locals
  · simpa using safe

end

/-! ### Courses -/

section

variable [Trigonometric α] {sequence : Sequence α} {owner : String} {events more : List (Event α)}
  {start world next : World α}

theorem Step.hosts (step : sequence.Step owner world more next) : next.hosts = world.hosts := by
  cases step with
  | elsewhere _ _ hosts _ => exact hosts
  | _ => rw [Block.hosts_runAll]

theorem Course.hosts (course : sequence.Course owner start events world) :
    world.hosts = start.hosts := by
  induction course with
  | begin => rfl
  | next _ step inductionHypothesis => rw [step.hosts, inductionHypothesis]

variable [Counting α]

theorem Safe.step (safe : Safe sequence owner events world) (hosted : world.hosts owner)
    (step : sequence.Step owner world more next) : Safe sequence owner (events ++ more) next := by
  cases step with
  | frame locals => exact safe.ran hosted locals
  | setup locals => exact safe.setUp hosted locals
  | change change locals => exact safe.change hosted change locals
  | elsewhere _ _ _ spared =>
    exact safe.calm calm_nil (spared _) (spared _) (.inr (.inl (spared _)))

theorem Course.safe (course : sequence.Course owner start events world)
    (hosted : start.hosts owner) (absent : ∀ field, sequence.value owner start field = 0) :
    Safe sequence owner events world := by
  induction course with
  | begin => exact safe_begin absent
  | next earlier step inductionHypothesis =>
    exact inductionHypothesis.step (by rwa [earlier.hosts]) step

/-- The setup leaves a timeline alone that was started. -/
theorem Safe.setup_eq (safe : Safe sequence owner events world)
    (begun : Begun sequence owner events) (locals : Locals α) :
    Block.runAll owner locals world sequence.setup = world ∧
      ¬Begun sequence owner (Block.traceAll owner locals world sequence.setup) := by
  have started : (world.read owner (Slot.timeline sequence.name .started).key == (0 : α)) = false := by
    rw [← Counting.one_beq_zero (α := α), ← safe.started begun]
    rfl
  rw [setup]
  split
  · rw [Effect.changeTimeline, Block.runAll_cons, Block.runAll_nil, Block.traceAll_cons,
      Block.traceAll_nil, Stmt.run_onlyIf, Stmt.trace_onlyIf, Expr.isTruthy_equals_read, started,
      if_neg Bool.false_ne_true, if_neg Bool.false_ne_true]
    exact ⟨rfl, by simp [Begun, isRewind]⟩
  · exact ⟨by simp, by simp [Begun]⟩

end

end Sequence

/-- A timeline is safe however its frames, its setup and changes of its state follow each other. It
runs only if it was started, and dispatches nothing before. Its cursor counts the entries that were
dispatched since the last rewind, which are the first ones, each once and in order; a list beyond
the counting limit fits into no memory. No entry is dispatched before its time has come, and the
setup changes nothing once the timeline was started. -/
theorem timeline_safety {α : Type} [Trigonometric α] [Counting α] {sequence : Sequence α}
    {owner : String} {start world : World α} {events : List (Event α)}
    (hosted : start.hosts owner) (absent : ∀ field, sequence.value owner start field = 0)
    (course : sequence.Course owner start events world) :
    (sequence.value owner world .running ≠ 0 → sequence.value owner world .started = 1) ∧
    (¬sequence.Begun owner events → sequence.dispatches owner events = []) ∧
    (sequence.cues.length ≤ countingLimit →
      (∀ event first second, sequence.IsDispatch owner first event →
        sequence.IsDispatch owner second event → first = second) ∧
      ∃ count ≤ sequence.cues.length,
        sequence.value owner world .cursor = Scalar.ofNat count ∧
        List.Forall₂ (sequence.IsDispatch owner) (List.range count)
          (sequence.dispatches owner (sequence.sinceRewind owner events))) ∧
    (∀ event ∈ sequence.dispatches owner events, ∃ index cue found,
      sequence.cues[index]? = some cue ∧ event = .entered owner (sequence.entry cue index) found ∧
        (Scalar.ofNat (sequence.startTick cue) : α) ≤ sequence.value owner found .elapsed) ∧
    (sequence.Begun owner events → ∀ locals,
      Block.runAll owner locals world sequence.setup = world ∧
        ¬sequence.Begun owner (Block.traceAll owner locals world sequence.setup)) := by
  have safe := course.safe hosted absent
  refine ⟨fun running => safe.started (safe.running running),
    fun never => (safe.resting never).2.2.2, fun small => ⟨?_, safe.progress small⟩, safe.due,
    fun begun locals => safe.setup_eq begun locals⟩
  intro event first second here there
  exact here.index_eq small there

/-- A timeline that starts by itself, shows the stage at once and hides it a second later. -/
def Sequence.opening : Sequence Float where
  name := "opening"
  autostart := true
  rate := 1
  cues := [⟨0, ⟨0, "visibility", ["stage"], ⟨0, 1⟩, .fade true⟩⟩,
    ⟨1, ⟨1, "visibility", ["stage"], ⟨0, 1⟩, .fade false⟩⟩]

/-- Stopped after its first frame, the timeline lets the second one pass; once it goes on, both its
entries have been dispatched in order. After a start from the beginning none of them has. -/
theorem timeline_safety_opening :
    (World.blank : World Float).hosts "stage" ∧
      (∀ field, Sequence.opening.value "stage" World.blank field = 0) ∧
      ∃ events world, Sequence.opening.Course "stage" World.blank events world ∧
        Sequence.opening.value "stage" world .cursor = 2 ∧
        List.Forall₂ (Sequence.opening.IsDispatch "stage") [0, 1]
          (Sequence.opening.dispatches "stage" (Sequence.opening.sinceRewind "stage" events)) ∧
        ∃ more world', Sequence.opening.Course "stage" World.blank (events ++ more) world' ∧
          Sequence.opening.value "stage" world' .cursor = 0 ∧
          Sequence.opening.dispatches "stage"
            (Sequence.opening.sinceRewind "stage" (events ++ more)) = [] := by
  have hosted : (World.blank : World Float).hosts "stage" := rfl
  have absent (field : TimelineField) :
      Sequence.opening.value "stage" World.blank field = 0 := by
    simp [Sequence.value, World.read, World.bag, World.blank, Bag.read]
  have begins : Sequence.opening.Course "stage" World.blank [] World.blank := .begin
  have stopped := ((begins.next (.setup [] _)).next (.frame [] _)).next (.change .stop [] _)
  have course := ((stopped.next (.frame [] _)).next (.change .continue [] _)).next (.frame [] _)
  have again := course.next (.change .start [] _)
  obtain ⟨count, within, cursor, dispatched⟩ :=
    ((timeline_safety hosted absent course).2.2.1 (by decide)).2
  obtain ⟨count', within', cursor', dispatched'⟩ :=
    ((timeline_safety hosted absent again).2.2.1 (by decide)).2
  have both := cursor.symm.trans (show _ = Scalar.ofNat 2 by decide +kernel)
  have none := cursor'.symm.trans (show _ = Scalar.ofNat 0 by decide +kernel)
  obtain rfl := Counting.eq_of_ofNat_eq (within.trans (by decide)) (by decide) both
  obtain rfl := Counting.eq_of_ofNat_eq (within'.trans (by decide)) (by decide) none
  exact ⟨hosted, absent, _, _, course, cursor, dispatched, _, _, again, cursor',
    List.forall₂_nil_left_iff.mp dispatched'⟩

end Stagecraft
