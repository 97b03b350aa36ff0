/-
This file reads a timeline as a clock. Whether it runs, how many ticks it has counted and where its
cursor stands tell which entries its next turn dispatches and what the turn makes of it, and they do
so also where an entry starts or stops the timeline itself. What a change makes of the clock, and
what a turn does to it, are stated in whole numbers first; the logic of a turn is then shown to do
the same to the slots of the timeline.
-/

import Stagecraft.Proofs.Timeline.Rest

namespace Stagecraft

/-- A timeline that was started: whether it runs, the ticks it has counted, and the place of the
entry that is dispatched next. -/
structure Clock where
  running : Bool
  elapsed : Nat
  cursor : Nat
deriving DecidableEq, Repr

/-- What a change makes of it. -/
def Clock.tell (clock : Clock) : TimelineChange → Clock
  | .start => ⟨true, 0, 0⟩
  | .stop => { clock with running := false }
  | .continue => { clock with running := true }
  | .startIfNotStarted => clock

namespace Sequence

variable {α : Type} [Trigonometric α]

/-! ### Turns in whole numbers -/

section

variable (sequence : Sequence α)

/-- The change of the timeline itself that an entry makes. -/
def ownChange? (cue : Cue α) : Option TimelineChange :=
  match cue.action.effect with
  | .timeline name change => if name = sequence.name then some change else none
  | _ => none

/-- The cursor stands on the entry and its time has come. -/
def IsDue (clock : Clock) (entry : Cue α × Nat) : Prop :=
  clock.cursor = entry.2 ∧ sequence.startTick entry.1 ≤ clock.elapsed

instance (clock : Clock) (entry : Cue α × Nat) : Decidable (sequence.IsDue clock entry) :=
  inferInstanceAs (Decidable (_ ∧ _))

/-- The cursor moves first, and then the entry does what it does. -/
def offer (clock : Clock) (entry : Cue α × Nat) : Clock :=
  if sequence.IsDue clock entry then
    let moved := { clock with cursor := entry.2 + 1 }
    ((sequence.ownChange? entry.1).map moved.tell).getD moved
  else clock

/-- The places of the entries that are dispatched when some are offered one after another. -/
def places (clock : Clock) : List (Cue α × Nat) → List Nat
  | [] => []
  | entry :: rest =>
    (if sequence.IsDue clock entry then [entry.2] else []) ++ places (sequence.offer clock entry) rest

/-- The tick is counted, and at the end the timeline stops. -/
def count (clock : Clock) : Clock where
  running := clock.running &&
    !decide (sequence.cues.length ≤ clock.cursor ∧ sequence.endTick ≤ clock.elapsed + 1)
  elapsed := clock.elapsed + 1
  cursor := clock.cursor

/-- What a turn makes of the timeline. -/
def turn (clock : Clock) : Clock :=
  if clock.running then sequence.count (sequence.cues.zipIdx.foldl sequence.offer clock) else clock

/-- The places of the entries that a turn dispatches. -/
def turnPlaces (clock : Clock) : List Nat :=
  if clock.running then sequence.places clock sequence.cues.zipIdx else []

/-- The numbers of the clock are within those that can be counted and compared. -/
structure Fits (clock : Clock) : Prop where
  elapsed : clock.elapsed ≤ countingLimit
  cursor : clock.cursor ≤ sequence.cues.length

/-- All that a turn compares can be counted. -/
structure IsMeasurable : Prop where
  length : sequence.cues.length ≤ countingLimit
  starts : ∀ cue ∈ sequence.cues, sequence.startTick cue ≤ countingLimit
  ends : sequence.endTick ≤ countingLimit

/-- The slots of a timeline that was started show its clock. -/
structure Shows (owner : String) (clock : Clock) (world : World α) : Prop where
  hosted : world.hosts owner
  running : sequence.value owner world .running = if clock.running then 1 else 0
  started : sequence.value owner world .started = 1
  elapsed : sequence.value owner world .elapsed = Scalar.ofNat clock.elapsed
  cursor : sequence.value owner world .cursor = Scalar.ofNat clock.cursor

end

variable {sequence : Sequence α} {owner : String} {clock : Clock} {world : World α}

omit [Trigonometric α] in
theorem ownChange?_eq_some {cue : Cue α} {change : TimelineChange} :
    sequence.ownChange? cue = some change ↔
      cue.action.effect = .timeline sequence.name change := by
  unfold ownChange?
  split
  · rename_i name other effect
    rw [effect]
    split
    · simp_all
    · rename_i different
      simp [different]
  · rename_i other
    constructor
    · simp
    · intro effect
      exact absurd effect (other _ _)

theorem places_append (first second : List (Cue α × Nat)) :
    sequence.places clock (first ++ second) =
      sequence.places clock first ++ sequence.places (first.foldl sequence.offer clock) second := by
  induction first generalizing clock with
  | nil => rfl
  | cons entry rest inductionHypothesis =>
    rw [List.cons_append, places, places, inductionHypothesis, List.foldl_cons, List.append_assoc]

/-- Offering an entry sets the clock back or leaves its ticks alone. -/
theorem elapsed_offer_le (entry : Cue α × Nat) :
    (sequence.offer clock entry).elapsed ≤ clock.elapsed := by
  rw [offer]
  split
  · cases sequence.ownChange? entry.1 with
    | none => exact le_rfl
    | some change => cases change <;> simp [Clock.tell]
  · exact le_rfl

theorem elapsed_foldl_le (entries : List (Cue α × Nat)) :
    (entries.foldl sequence.offer clock).elapsed ≤ clock.elapsed := by
  induction entries generalizing clock with
  | nil => exact le_rfl
  | cons entry rest inductionHypothesis =>
    exact inductionHypothesis.trans (elapsed_offer_le entry)

theorem Fits.offer {entry : Cue α × Nat} (fits : sequence.Fits clock)
    (atPlace : sequence.cues[entry.2]? = some entry.1) :
    sequence.Fits (sequence.offer clock entry) := by
  have below := (List.getElem?_eq_some_iff.mp atPlace).1
  refine ⟨(elapsed_offer_le entry).trans fits.elapsed, ?_⟩
  rw [Sequence.offer]
  split
  · cases sequence.ownChange? entry.1 with
    | none => exact below
    | some change => cases change <;> simp [Clock.tell] <;> omega
  · exact fits.cursor

theorem Fits.foldl {entries : List (Cue α × Nat)} (fits : sequence.Fits clock)
    (atPlaces : ∀ entry ∈ entries, sequence.cues[entry.2]? = some entry.1) :
    sequence.Fits (entries.foldl sequence.offer clock) := by
  induction entries generalizing clock with
  | nil => exact fits
  | cons entry rest inductionHypothesis =>
    obtain ⟨here, later⟩ := List.forall_mem_cons.mp atPlaces
    exact inductionHypothesis (fits.offer here) later

omit [Trigonometric α] in
theorem atPlaces_zipIdx :
    ∀ entry ∈ sequence.cues.zipIdx, sequence.cues[entry.2]? = some entry.1 :=
  fun _ member => List.mem_zipIdx_iff_getElem?.mp member

/-- A turn counts at most one tick. -/
theorem elapsed_turn_le : (sequence.turn clock).elapsed ≤ clock.elapsed + 1 := by
  rw [turn]
  split
  · exact Nat.succ_le_succ (elapsed_foldl_le _)
  · exact Nat.le_succ _

theorem Fits.turn (fits : sequence.Fits clock) (small : clock.elapsed < countingLimit) :
    sequence.Fits (sequence.turn clock) := by
  refine ⟨elapsed_turn_le.trans small, ?_⟩
  rw [Sequence.turn]
  split
  · exact (fits.foldl atPlaces_zipIdx).cursor
  · exact fits.cursor

/-- So many turns count at most so many ticks. -/
theorem Fits.iterate (fits : sequence.Fits clock) {count : Nat}
    (small : clock.elapsed + count ≤ countingLimit) :
    sequence.Fits (sequence.turn^[count] clock) ∧
      (sequence.turn^[count] clock).elapsed ≤ clock.elapsed + count := by
  induction count with
  | zero => exact ⟨fits, le_rfl⟩
  | succ count inductionHypothesis =>
    obtain ⟨still, within⟩ := inductionHypothesis (Nat.le_of_succ_le small)
    rw [Function.iterate_succ_apply']
    exact ⟨still.turn (within.trans_lt small), elapsed_turn_le.trans (Nat.succ_le_succ within)⟩

/-! ### Changes -/

section

variable [Counting α]

theorem IsFresh.shows {world : World α} (fresh : sequence.IsFresh owner world)
    (hosted : world.hosts owner) : sequence.Shows owner ⟨true, 0, 0⟩ world :=
  ⟨hosted, fresh.running, fresh.started, fresh.elapsed.trans Counting.ofNat_zero.symm,
    fresh.cursor.trans Counting.ofNat_zero.symm⟩

/-- A change of a timeline that was started does to its slots what it does to the clock. -/
theorem Shows.tell (shows : sequence.Shows owner clock world) (change : TimelineChange)
    (locals : Locals α) :
    sequence.Shows owner (clock.tell change)
      (Block.runAll owner locals world (Effect.changeTimeline sequence.name change)) := by
  have hosted (change : TimelineChange) : (Block.runAll owner locals world
      (Effect.changeTimeline sequence.name change)).hosts owner := by
    rw [Block.hosts_runAll]
    exact shows.hosted
  have written (number : α) (field : TimelineField) :
      sequence.value owner (world.write owner (sequence.slot .running).key number) field =
        if .running = field then number else sequence.value owner world field :=
    value_write shows.hosted _ _ _
  cases change with
  | start =>
    have fresh : sequence.IsFresh owner _ := isFresh_rewind shows.hosted locals
    exact ⟨hosted .start, fresh.running, fresh.started,
      fresh.elapsed.trans Counting.ofNat_zero.symm, fresh.cursor.trans Counting.ofNat_zero.symm⟩
  | stop =>
    have run : Block.runAll owner locals world (Effect.changeTimeline sequence.name .stop) =
        world.write owner (sequence.slot .running).key 0 := by
      simp [Effect.changeTimeline, slot, Value.number]
    refine ⟨hosted .stop, ?_, ?_, ?_, ?_⟩ <;> rw [run, written]
    · rfl
    · exact shows.started
    · exact shows.elapsed
    · exact shows.cursor
  | «continue» =>
    have run : Block.runAll owner locals world (Effect.changeTimeline sequence.name .continue) =
        world.write owner (sequence.slot .running).key 1 := by
      have started : world.read owner (sequence.slot .started).key = 1 := shows.started
      simp [Effect.changeTimeline, ← started, slot, Value.number]
    refine ⟨hosted .continue, ?_, ?_, ?_, ?_⟩ <;> rw [run, written]
    · rfl
    · exact shows.started
    · exact shows.elapsed
    · exact shows.cursor
  | startIfNotStarted =>
    rw [changeTimeline_of_started shows.started]
    exact shows

omit [Counting α] in
/-- No entry is dispatched in a change of the timeline. -/
theorem dispatches_change (change : TimelineChange) (locals : Locals α) (world : World α) :
    sequence.dispatches owner (.entered owner (Effect.changeTimeline sequence.name change) world ::
      Block.traceAll owner locals world (Effect.changeTimeline sequence.name change)) = [] := by
  have rewound : sequence.dispatches owner
      (Block.traceAll owner locals world (Effect.rewind sequence.name)) = [] := by
    simp [dispatches, Effect.rewind, Block.traceAll_cons]
  rw [← List.singleton_append, dispatches_append]
  have head : sequence.dispatches owner
      [.entered owner (Effect.changeTimeline sequence.name change) world] = [] := by
    simp [dispatches, not_isDispatch_changeTimeline]
  rw [head, List.nil_append]
  cases change with
  | start => exact rewound
  | startIfNotStarted =>
    rw [Effect.changeTimeline, Block.traceAll_cons, Block.traceAll_nil, List.append_nil,
      Stmt.trace_onlyIf]
    split
    · rw [← List.singleton_append, dispatches_append, rewound]
      simpa [dispatches, Effect.changeTimeline] using not_isDispatch_changeTimeline .start
    · simp [dispatches, not_isDispatch_nil]
  | _ => simp [dispatches, Effect.changeTimeline, Block.traceAll_cons]

variable {actions : List (Instance α)} (changed : sequence.IsChangedOn owner actions)

include changed

/-- What an entry does to the timeline itself is the change it makes, if any. -/
theorem Shows.dispatch {cue : Cue α} (inside : cue.action ∈ actions)
    (shows : sequence.Shows owner clock world) (locals : Locals α) :
    sequence.dispatches owner (Block.traceAll owner locals world cue.action.dispatch) = [] ∧
      sequence.Shows owner (((sequence.ownChange? cue).map clock.tell).getD clock)
        (Block.runAll owner locals world cue.action.dispatch) := by
  cases own : sequence.ownChange? cue with
  | some change =>
    have effect := ownChange?_eq_some.mp own
    rw [Instance.dispatch, changed.targets _ inside change effect,
      changed.opening _ inside change effect, List.map_cons, List.map_nil, Block.traceAll_cons,
      Block.traceAll_nil, List.append_nil, Block.runAll_cons, Block.runAll_nil, Stmt.trace, Stmt.run]
    exact ⟨dispatches_change change locals world, shows.tell change locals⟩
  | none =>
    have other (change : TimelineChange) : cue.action.effect ≠ .timeline sequence.name change :=
      fun effect => by
        rw [ownChange?_eq_some.mpr effect] at own
        cases own
    have spared : Block.WritesOnly (sequence.Spared owner) owner _ := writesOnly_dispatch other owner
    have same := value_of_writesOnly spared locals world
    refine ⟨(calm_of_spared (fun field => spared.notMem (not_spared field)) locals
      world).dispatches_eq_nil, ?_, (same _).trans shows.running, (same _).trans shows.started,
      (same _).trans shows.elapsed, (same _).trans shows.cursor⟩
    rw [Block.hosts_runAll]
    exact shows.hosted

/-! ### Turns -/

variable (measurable : sequence.IsMeasurable)

include measurable

omit changed in
/-- An entry is dispatched where the clock says that it is due. The cursor moves first. -/
theorem Shows.dispatchAt_of_due (entry : Cue α × Nat)
    (atPlace : sequence.cues[entry.2]? = some entry.1) (fits : sequence.Fits clock)
    (shows : sequence.Shows owner clock world) (due : sequence.IsDue clock entry)
    (locals : Locals α) :
    let moved := world.write owner (sequence.slot .cursor).key (Scalar.ofNat (entry.2 + 1))
    (sequence.dispatchAt entry.1 entry.2).trace owner locals world =
        .entered owner (sequence.entry entry.1 entry.2) world ::
          .wrote owner (sequence.slot .cursor).key (Scalar.ofNat (entry.2 + 1)) ::
          Block.traceAll owner locals moved entry.1.action.dispatch ∧
      (sequence.dispatchAt entry.1 entry.2).run owner locals world =
        (locals, Block.runAll owner locals moved entry.1.action.dispatch) ∧
      sequence.Shows owner { clock with cursor := entry.2 + 1 } moved := by
  have below := (List.getElem?_eq_some_iff.mp atPlace).1
  have next : (sequence.value owner world .cursor == Scalar.ofNat entry.2) = true := by
    rw [shows.cursor, due.1, Counting.ofNat_beq _ _ (below.le.trans measurable.length)
      (below.le.trans measurable.length), decide_eq_true rfl]
  have come : (Scalar.ofNat (sequence.startTick entry.1) : α) ≤
      sequence.value owner world .elapsed := by
    rw [shows.elapsed]
    exact (Counting.ofNat_le _ _ (measurable.starts _ (List.mem_of_getElem? atPlace))
      fits.elapsed).mpr due.2
  obtain ⟨trace, run⟩ := Sequence.dispatchAt_of_due next come locals
  have written (field : TimelineField) : sequence.value owner
      (world.write owner (sequence.slot .cursor).key (Scalar.ofNat (entry.2 + 1))) field =
        if .cursor = field then Scalar.ofNat (entry.2 + 1) else sequence.value owner world field :=
    value_write shows.hosted _ _ _
  exact ⟨trace, run, by rw [World.hosts_write]; exact shows.hosted, (written _).trans shows.running,
    (written _).trans shows.started, (written _).trans shows.elapsed, written _⟩

/-- An entry is dispatched exactly where it is due. -/
theorem Shows.offer {entry : Cue α × Nat} (atPlace : sequence.cues[entry.2]? = some entry.1)
    (inside : entry.1.action ∈ actions) (fits : sequence.Fits clock)
    (shows : sequence.Shows owner clock world) (locals : Locals α) :
    let statement := sequence.dispatchAt entry.1 entry.2
    List.Forall₂ (sequence.IsDispatch owner) (if sequence.IsDue clock entry then [entry.2] else [])
        (sequence.dispatches owner (statement.trace owner locals world)) ∧
      sequence.Shows owner (sequence.offer clock entry) (statement.run owner locals world).2 := by
  rw [Sequence.offer]
  dsimp only
  by_cases due : sequence.IsDue clock entry
  · obtain ⟨trace, run, moved⟩ := shows.dispatchAt_of_due measurable entry atPlace fits due locals
    obtain ⟨none, shown⟩ := moved.dispatch changed inside locals
    rw [trace, run, dispatches_entry atPlace none, if_pos due, if_pos due]
    exact ⟨.cons ⟨entry.1, world, atPlace, rfl⟩ .nil, shown⟩
  · have below := (List.getElem?_eq_some_iff.mp atPlace).1
    have idle : (sequence.value owner world .cursor == Scalar.ofNat entry.2) = false ∨
        ¬(Scalar.ofNat (sequence.startTick entry.1) : α) ≤ sequence.value owner world .elapsed := by
      rw [shows.cursor, shows.elapsed, Counting.ofNat_beq _ _ (fits.cursor.trans measurable.length)
        (below.le.trans measurable.length), decide_eq_false_iff_not, Counting.ofNat_le _ _
        (measurable.starts _ (List.mem_of_getElem? atPlace)) fits.elapsed]
      exact not_and_or.mp due
    obtain ⟨trace, run⟩ := dispatchAt_idle idle locals
    have none : sequence.dispatches owner [.entered owner [] world] = [] := by
      simp [dispatches, not_isDispatch_nil]
    rw [trace, run, if_neg due, if_neg due, none]
    exact ⟨.nil, shows⟩

/-- Entries that are offered one after another. -/
theorem Shows.places {entries : List (Cue α × Nat)}
    (atPlaces : ∀ entry ∈ entries, sequence.cues[entry.2]? = some entry.1)
    (inside : ∀ entry ∈ entries, entry.1.action ∈ actions) (fits : sequence.Fits clock)
    (shows : sequence.Shows owner clock world) (locals : Locals α) :
    let chain := entries.map fun entry => sequence.dispatchAt entry.1 entry.2
    List.Forall₂ (sequence.IsDispatch owner) (sequence.places clock entries)
        (sequence.dispatches owner (Block.traceAll owner locals world chain)) ∧
      sequence.Shows owner (entries.foldl sequence.offer clock)
        (Block.runAll owner locals world chain) := by
  induction entries generalizing clock locals world with
  | nil =>
    refine ⟨?_, by simpa using shows⟩
    simp [dispatches, Sequence.places]
  | cons entry rest inductionHypothesis =>
    obtain ⟨atPlace, atLater⟩ := List.forall_mem_cons.mp atPlaces
    obtain ⟨insideHere, insideLater⟩ := List.forall_mem_cons.mp inside
    obtain ⟨here, shown⟩ := shows.offer changed measurable atPlace insideHere fits locals
    obtain ⟨later, left⟩ := inductionHypothesis atLater insideLater (fits.offer atPlace) shown
      ((sequence.dispatchAt entry.1 entry.2).run owner locals world).1
    dsimp only
    rw [List.map_cons, Block.traceAll_cons, Block.runAll_cons, dispatches_append,
      Sequence.places, List.foldl_cons]
    exact ⟨List.rel_append here later, left⟩

omit changed in
/-- At the end of a turn. -/
theorem Shows.count (small : clock.elapsed < countingLimit) (fits : sequence.Fits clock)
    (shows : sequence.Shows owner clock world) (locals : Locals α) :
    let closing := [sequence.countTick, sequence.stopAtEnd]
    sequence.dispatches owner (Block.traceAll owner locals world closing) = [] ∧
      sequence.Shows owner (sequence.count clock) (Block.runAll owner locals world closing) := by
  let counted : World α :=
    world.write owner (sequence.slot .elapsed).key (Scalar.ofNat (clock.elapsed + 1))
  have number : (((sequence.slot .elapsed).read + .num 1 : Expr α).eval world owner locals).number =
      Scalar.ofNat (clock.elapsed + 1) := by
    rw [Expr.eval_add, Slot.eval_read, Expr.eval_num, ← Counting.ofNat_add_one _ small]
    exact congrArg (· + 1) shows.elapsed
  have trace : Block.traceAll owner locals world [sequence.countTick, sequence.stopAtEnd] =
      .wrote owner (sequence.slot .elapsed).key (Scalar.ofNat (clock.elapsed + 1)) ::
        sequence.stopAtEnd.trace owner locals counted := by
    rw [Block.traceAll_cons, Block.traceAll_cons, Block.traceAll_nil, List.append_nil, countTick,
      Slot.trace_write, Slot.run_write, number]
    rfl
  have run : Block.runAll owner locals world [sequence.countTick, sequence.stopAtEnd] =
      (sequence.stopAtEnd.run owner locals counted).2 := by
    rw [Block.runAll_cons, Block.runAll_cons, Block.runAll_nil, countTick, Slot.run_write, number]
  have written (field : TimelineField) : sequence.value owner counted field =
      if .elapsed = field then Scalar.ofNat (clock.elapsed + 1)
      else sequence.value owner world field := value_write shows.hosted _ _ _
  have shown : sequence.Shows owner { clock with elapsed := clock.elapsed + 1 } counted :=
    ⟨by rw [World.hosts_write]; exact shows.hosted, (written _).trans shows.running,
      (written _).trans shows.started, written _, (written _).trans shows.cursor⟩
  have ends : ((((sequence.slot .cursor).read.ge (.num (Scalar.ofNat sequence.cues.length))).and
      ((sequence.slot .elapsed).read.ge (.num (Scalar.ofNat sequence.endTick)))).eval counted owner
        locals).isTruthy =
      decide (sequence.cues.length ≤ clock.cursor ∧ sequence.endTick ≤ clock.elapsed + 1) := by
    have sent : counted.read owner (sequence.slot .cursor).key = Scalar.ofNat clock.cursor :=
      shown.cursor
    have spent : counted.read owner (sequence.slot .elapsed).key =
        Scalar.ofNat (clock.elapsed + 1) := shown.elapsed
    rw [Expr.isTruthy_and, Expr.isTruthy_ge_read, Expr.isTruthy_ge_read, sent, spent,
      ← Bool.decide_and, decide_eq_decide]
    exact and_congr
      (Counting.ofNat_le _ _ measurable.length (fits.cursor.trans measurable.length))
      (Counting.ofNat_le _ _ measurable.ends small)
  dsimp only
  rw [trace, run, stopAtEnd, Stmt.trace_onlyIf, Stmt.run_onlyIf, ends, Sequence.count]
  by_cases last : sequence.cues.length ≤ clock.cursor ∧ sequence.endTick ≤ clock.elapsed + 1
  · rw [decide_eq_true last, if_pos rfl, if_pos rfl, Bool.not_true, Bool.and_false]
    have stopped := shown.tell .stop locals
    have none : sequence.dispatches owner (.entered owner
        (Effect.changeTimeline sequence.name .stop) counted :: _) = [] :=
      dispatches_change .stop locals counted
    have wrote {key : String} {value : α} :
        sequence.dispatches owner [.wrote owner key value] = [] := by simp [dispatches]
    refine ⟨?_, stopped⟩
    rw [← List.singleton_append, dispatches_append, wrote, List.nil_append]
    exact none
  · rw [decide_eq_false last, if_neg Bool.false_ne_true, if_neg Bool.false_ne_true, Bool.not_false,
      Bool.and_true]
    exact ⟨by simp [dispatches, not_isDispatch_nil], shown⟩

/-- A turn dispatches the entries that the clock says, and leaves the clock as it says. -/
theorem Shows.run (inside : ∀ cue ∈ sequence.cues, cue.action ∈ actions)
    (small : clock.elapsed < countingLimit) (fits : sequence.Fits clock)
    (shows : sequence.Shows owner clock world) (locals : Locals α) :
    List.Forall₂ (sequence.IsDispatch owner) (sequence.turnPlaces clock)
        (sequence.dispatches owner (Block.traceAll owner locals world sequence.run)) ∧
      sequence.Shows owner (sequence.turn clock) (Block.runAll owner locals world sequence.run) := by
  rw [turnPlaces, turn]
  cases running : clock.running with
  | true =>
    have isSet : (sequence.value owner world .running == 0) = false := by
      rw [shows.running, running]
      exact Counting.one_beq_zero
    obtain ⟨trace, run⟩ := go_of_running isSet locals
    have atPlaces : ∀ entry ∈ sequence.cues.zipIdx, sequence.cues[entry.2]? = some entry.1 :=
      atPlaces_zipIdx
    obtain ⟨dispatched, offered⟩ := shows.places changed measurable atPlaces
      (fun entry member => inside _ (List.fst_mem_of_mem_zipIdx member)) fits locals
    let chain := sequence.cues.zipIdx.map fun entry => sequence.dispatchAt entry.1 entry.2
    obtain ⟨none, counted⟩ := offered.count measurable ((elapsed_foldl_le _).trans_lt small)
      (fits.foldl atPlaces) (Block.thread owner locals world chain).1
    have entered : Calm sequence owner [.entered owner
        (chain ++ [sequence.countTick, sequence.stopAtEnd]) world] :=
      calm_cons.mpr ⟨⟨rfl, not_isDispatch_tick sequence.cues.zipIdx world⟩, calm_nil⟩
    rw [trace, run, ← List.singleton_append, dispatches_append, entered.dispatches_eq_nil,
      List.nil_append, dispatches_append, none, List.append_nil]
    exact ⟨dispatched, counted⟩
  | false =>
    have zero : (sequence.value owner world .running == 0) = true := by
      rw [shows.running, running]
      exact Counting.zero_beq_zero
    obtain ⟨trace, run⟩ := pass_of_stopped zero locals
    rw [trace, run]
    have none : sequence.dispatches owner [.entered owner [] world] = [] := by
      simp [dispatches, not_isDispatch_nil]
    rw [none]
    exact ⟨.nil, shows⟩

end

end Sequence

end Stagecraft
