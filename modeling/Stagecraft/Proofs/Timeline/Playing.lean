/-
This file follows a started timeline through the frames of a run. As long as its state is found at
its turn as the last turn left it, the turns pass its ticks one by one up to the last, and then it
stands still. An entry is dispatched at its own tick only, so its action is finished after its own
time, and none is after the timeline has stopped.
-/

import Stagecraft.Proofs.Action.Placing
import Stagecraft.Proofs.Program.Declared
import Stagecraft.Proofs.Timeline.Entries
import Stagecraft.Proofs.Timeline.Schedule

namespace Stagecraft

variable {α : Type}

/-! ### Sequences of a scene -/

theorem Timeline.magnitude_of_checkStarts [Scalar α] {context : Context}
    {entries : List (TimedAction α)} (checked : checkStarts context entries = .ok ()) :
    ∀ entry ∈ entries, Scalar.isMagnitude entry.start := by
  induction entries with
  | nil => simp
  | cons entry rest inductionHypothesis =>
    obtain ⟨start, here, later⟩ := Outcome.bind_eq_ok.mp checked
    obtain ⟨magnitude, -⟩ := (Check.checks_magnitude _ _).mp here
    exact List.forall_mem_cons.mpr ⟨magnitude, inductionHypothesis later⟩

theorem Timeline.pairwise_inOrder [Scalar α] [Scheduling α] (timeline : Timeline α) :
    timeline.inOrder.Pairwise fun first second => Scalar.precedes first.start second.start :=
  List.pairwise_mergeSort
    (fun first second third => Scheduling.precedes_trans first.start second.start third.start)
    (fun first second => Scheduling.precedes_total first.start second.start) _

namespace Sequence

variable [Trigonometric α]

/-- The sequence is what a timeline of an object becomes. -/
structure Plays (directory : Directory α) (rate : α) (owner : String) (declared : Timeline α)
    (sequence : Sequence α) : Prop where
  name : sequence.name = declared.name
  autostart : sequence.autostart = declared.autostart
  cues : List.Forall₂ (fun (entry : TimedAction α) (cue : Cue α) => cue.start = entry.start ∧
    Declared.Becomes directory rate ⟨owner, .timeline declared.name, entry.action⟩ cue.action)
    declared.inOrder sequence.cues
  rate : sequence.rate = rate

variable {directory : Directory α} {rate : α} {owner : String} {declared : Timeline α}
  {sequence : Sequence α}

/-- Of two entries the later one starts at no earlier tick. -/
theorem Plays.isOrdered [Scheduling α] (plays : Plays directory rate owner declared sequence)
    (magnitudes : ∀ entry ∈ declared.entries, Scalar.isMagnitude entry.start)
    (finite : Scalar.isFinite rate) (positive : 0 < rate) : sequence.IsOrdered := by
  have same : sequence.cues.map (·.start) = declared.inOrder.map (·.start) := by
    have starts := plays.cues.imp fun _ _ related => related.1.symm
    exact (Lists.map_eq_of_forall₂ starts).symm
  have sorted : (declared.inOrder.map (·.start)).Pairwise fun first second =>
      Scalar.precedes first second := List.pairwise_map.mpr declared.pairwise_inOrder
  rw [← same, List.pairwise_map] at sorted
  have magnitude : ∀ cue ∈ sequence.cues, Scalar.isMagnitude cue.start := by
    intro cue member
    have started := List.mem_map_of_mem (f := Cue.start) member
    rw [same] at started
    obtain ⟨entry, inOrder, isStart⟩ := List.mem_map.mp started
    rw [← isStart]
    exact magnitudes entry (List.mem_mergeSort.mp inOrder)
  refine sorted.imp_of_mem fun {first second} inFirst inSecond precedes => ?_
  rw [startTick, startTick, plays.rate]
  exact Scheduling.count_le (magnitude first inFirst) (magnitude second inSecond) finite positive
    precedes

end Sequence

/-- The piece of a timeline is its sequence. -/
theorem Owned.plays_made [Trigonometric α] {directory : Directory α} {rate : α} {owner : String}
    {first : Nat} {declared : Timeline α} {piece : Owned α}
    (made : Made directory rate owner first (.timeline declared) piece) :
    ∃ sequence, Sequence.Plays directory rate owner declared sequence ∧
      (∀ entry ∈ declared.entries, Scalar.isMagnitude entry.start) ∧
      piece = ⟨sequence.setup, sequence.run, sequence.cues.map (·.action)⟩ := by
  cases made with
  | timeline _ entries instances sequence ordered resolved same =>
    have becomes := Action.becomes_of_resolveAll resolved
    have sameLength := becomes.length_eq
    rw [List.length_map, List.length_map] at sameLength
    rw [List.map_map, List.forall₂_map_left_iff] at becomes
    have inOrder := Timeline.eq_inOrder ordered
    obtain ⟨⟨⟩, checked, -⟩ := Outcome.bind_eq_ok.mp ordered
    refine ⟨sequence, ⟨by rw [same], by rw [same], ?_, by rw [same]⟩,
      Timeline.magnitude_of_checkStarts checked, ?_⟩
    · rw [← inOrder, same, List.forall₂_map_right_iff]
      exact (Lists.forall₂_zip_self becomes).imp fun entry placed related =>
        ⟨congrArg TimedAction.start related.1, related.2⟩
    · congr
      rw [same, List.map_map]
      exact (List.map_snd_zip sameLength.ge).symm

/-! ### Dispatches of one entry -/

namespace Sequence

variable [Trigonometric α] {sequence : Sequence α} {owner : String}

section

variable {cue : Cue α} {index : Nat} (atIndex : sequence.cues[index]? = some cue)

include atIndex

theorem isEntry_iff {event : Event α} :
    event.IsEntry owner (sequence.entry cue index) ↔ sequence.IsDispatch owner index event := by
  constructor
  · intro isEntry
    cases event with
    | entered object block world =>
      obtain ⟨rfl, rfl⟩ := isEntry
      exact ⟨cue, world, atIndex, rfl⟩
    | wrote => cases isEntry
  · rintro ⟨other, world, found, rfl⟩
    obtain rfl := Option.some.inj (atIndex.symm.trans found)
    exact ⟨rfl, rfl⟩

theorem mem_dueAt_iff {tick : Nat} : index ∈ sequence.dueAt tick ↔ sequence.startTick cue = tick := by
  simp only [dueAt, List.mem_map, List.mem_filter, decide_eq_true_eq, Prod.exists,
    List.mem_zipIdx_iff_getElem?]
  constructor
  · rintro ⟨other, place, ⟨found, starts⟩, rfl⟩
    obtain rfl := Option.some.inj (atIndex.symm.trans found)
    exact starts
  · intro starts
    exact ⟨cue, index, ⟨atIndex, starts⟩, rfl⟩

omit atIndex in
theorem nodup_dueAt (tick : Nat) : (sequence.dueAt tick).Nodup := by
  have places : (sequence.cues.zipIdx.map (·.2)).Nodup := by
    rw [List.zipIdx_map_snd]
    exact List.nodup_range'
  exact places.sublist (List.filter_sublist.map _)

/-- Where the entries of a tick are dispatched, each of them is dispatched once, and no other one
is. -/
theorem entries_of_dispatches [Counting α] (small : sequence.cues.length ≤ countingLimit)
    {trace : List (Event α)} {tick : Nat}
    (dispatched : List.Forall₂ (sequence.IsDispatch owner) (sequence.dueAt tick)
      (sequence.dispatches owner trace)) :
    Trace.entries owner (sequence.entry cue index) trace =
      if sequence.startTick cue = tick then 1 else 0 := by
  classical
  have within : Trace.entries owner (sequence.entry cue index) trace =
      (sequence.dispatches owner trace).countP fun event =>
        event.IsEntry owner (sequence.entry cue index) := by
    rw [Trace.entries, dispatches, List.countP_filter]
    refine List.countP_congr fun event _ => ?_
    simp only [decide_eq_true_eq, Bool.and_eq_true, isEntry_iff atIndex]
    exact ⟨fun here => ⟨here, index, here⟩, fun here => here.1⟩
  have counted : (sequence.dueAt tick).count index =
      (sequence.dispatches owner trace).countP fun event =>
        event.IsEntry owner (sequence.entry cue index) := by
    rw [List.count]
    refine Lists.countP_eq_of_forall₂ dispatched fun place event isDispatch => ?_
    simp only [beq_iff_eq, decide_eq_true_eq, isEntry_iff atIndex]
    constructor
    · rintro rfl
      exact isDispatch
    · exact isDispatch.index_eq small
  rw [within, ← counted, (nodup_dueAt tick).count]
  simp only [mem_dueAt_iff atIndex]

end

end Sequence

/-! ### Ticks in a run -/

namespace Sequence

variable [Trigonometric α] {sequence : Sequence α} {owner : String} {program : Program α}

/-- The timeline is as a start leaves it. -/
structure IsFresh (sequence : Sequence α) (owner : String) (world : World α) : Prop where
  running : sequence.value owner world .running = 1
  started : sequence.value owner world .started = 1
  elapsed : sequence.value owner world .elapsed = 0
  cursor : sequence.value owner world .cursor = 0

theorem IsFresh.goesOn [Counting α] {world : World α} (fresh : sequence.IsFresh owner world) :
    GoesOn sequence owner 0 (sequence.sent 0) world where
  running := fresh.running
  started := fresh.started
  elapsed := by rw [fresh.elapsed, Counting.ofNat_zero]
  cursor := by
    have none : sequence.sent 0 = 0 := by simp [sent]
    rw [fresh.cursor, none, Counting.ofNat_zero]

section

variable (spot : Program.Spot program owner sequence.run) (run : Run α)

/-- From its turn in the frame to the next turn the state of the timeline stays as it is. -/
def IsLeftAlone (frame : Nat) : Prop :=
  ∀ field, sequence.value owner (spot.turn (run.world (frame + 1))) field =
    sequence.value owner (spot.closing (run.world frame)) field

variable {spot run}

variable (hosted : run.opening.world.hosts owner)

include hosted

theorem hosts_turn (frame : Nat) : (spot.turn (run.world frame)).hosts owner := by
  rw [spot.hosts_turn, Run.hosts_world]
  exact hosted

section

variable [Counting α] (ordered : sequence.IsOrdered) (selfless : sequence.IsSelfless)
  (countable : sequence.IsCountable)

include ordered selfless countable

/-- A turn that finds the timeline at a tick dispatches the entries of that tick. -/
theorem turn_of_goesOn {tick frame : Nat} (within : tick ≤ countingLimit)
    (goes : GoesOn sequence owner tick (sequence.sent tick) (spot.turn (run.world frame))) :
    List.Forall₂ (sequence.IsDispatch owner) (sequence.dueAt tick)
        (sequence.dispatches owner (spot.trace (run.world frame))) ∧
      Ticked sequence owner tick (spot.closing (run.world frame)) :=
  run_of_goesOn ordered selfless countable.length countable.starts within goes
    (hosts_turn hosted frame) _

/-- As long as no tick was the last, the turns after a start pass the ticks one by one. -/
theorem goesOn_turn {first : Nat} (fresh : sequence.IsFresh owner (spot.turn (run.world first)))
    {tick : Nat} (within : tick ≤ countingLimit)
    (further : ∀ passed < tick, ¬sequence.IsLast passed)
    (alone : ∀ passed < tick, sequence.IsLeftAlone spot run (first + passed)) :
    GoesOn sequence owner tick (sequence.sent tick) (spot.turn (run.world (first + tick))) := by
  induction tick with
  | zero => exact fresh.goesOn
  | succ tick inductionHypothesis =>
    have goes := inductionHypothesis (Nat.le_of_succ_le within)
      (fun passed before => further passed (before.trans tick.lt_succ_self))
      fun passed before => alone passed (before.trans tick.lt_succ_self)
    have ticked := (turn_of_goesOn hosted ordered selfless countable (Nat.le_of_succ_le within)
      goes).2
    have kept := alone tick tick.lt_succ_self
    refine ⟨?_, ?_, ?_, ?_⟩ <;> rw [← Nat.add_assoc, kept]
    · rw [ticked.running, if_neg (further tick tick.lt_succ_self)]
    · exact ticked.started
    · rw [ticked.elapsed, Counting.ofNat_add_one tick within]
    · exact ticked.cursor

end

variable [Scheduling α] (ordered : sequence.IsOrdered) (selfless : sequence.IsSelfless)
  (countable : sequence.IsCountable) (inTime : sequence.EndsInTime) {first : Nat}
  (fresh : sequence.IsFresh owner (spot.turn (run.world first)))

include ordered selfless countable inTime fresh

/-- Up to its last tick the timeline goes on. -/
theorem goesOn_of_le_finalTick {tick : Nat} (within : tick ≤ sequence.finalTick)
    (alone : ∀ passed < tick, sequence.IsLeftAlone spot run (first + passed)) :
    GoesOn sequence owner tick (sequence.sent tick) (spot.turn (run.world (first + tick))) :=
  goesOn_turn hosted ordered selfless countable fresh
    (within.trans (countable.finalTick_le inTime))
    (fun passed before last => by
      rw [isLast_iff countable inTime (before.le.trans within)] at last
      omega) alone

/-- The turns after the last tick find the timeline stopped. -/
theorem stopped_turn {tick : Nat} (after : sequence.finalTick < tick)
    (alone : ∀ passed < tick, sequence.IsLeftAlone spot run (first + passed)) :
    sequence.value owner (spot.turn (run.world (first + tick))) .running = 0 := by
  induction tick with
  | zero => cases after
  | succ tick inductionHypothesis =>
    have before := fun passed (earlier : passed < tick) =>
      alone passed (earlier.trans tick.lt_succ_self)
    rw [← Nat.add_assoc, alone tick tick.lt_succ_self]
    rcases Nat.lt_succ_iff_lt_or_eq.mp after with later | rfl
    · have stopped := inductionHypothesis later before
      have zero : (sequence.value owner (spot.turn (run.world (first + tick))) .running == 0) =
          true := by rw [stopped, Counting.zero_beq_zero]
      rw [← stopped]
      exact (run_of_stopped zero _).same .running
    · have goes :=
        goesOn_of_le_finalTick hosted ordered selfless countable inTime fresh le_rfl before
      have ticked := (turn_of_goesOn hosted ordered selfless countable
        (countable.finalTick_le inTime) goes).2
      rw [ticked.running, if_pos ((isLast_iff countable inTime le_rfl).mpr rfl)]

/-- So many frames after a start, a turn dispatches the entries of that tick, and the timeline runs
until its last tick. -/
theorem turn_of_fresh (tick : Nat)
    (alone : ∀ passed < tick, sequence.IsLeftAlone spot run (first + passed)) :
    List.Forall₂ (sequence.IsDispatch owner) (sequence.dueAt tick)
        (sequence.dispatches owner (spot.trace (run.world (first + tick)))) ∧
      sequence.value owner (spot.turn (run.world (first + tick))) .running =
        (if tick ≤ sequence.finalTick then 1 else 0) ∧
      sequence.value owner (spot.closing (run.world (first + tick))) .running =
        if tick < sequence.finalTick then 1 else 0 := by
  by_cases within : tick ≤ sequence.finalTick
  · have goes := goesOn_of_le_finalTick hosted ordered selfless countable inTime fresh within alone
    obtain ⟨dispatched, ticked⟩ := turn_of_goesOn hosted ordered selfless countable
      (within.trans (countable.finalTick_le inTime)) goes
    have isLast := isLast_iff countable inTime within
    refine ⟨dispatched, by rw [if_pos within, goes.running], ?_⟩
    rw [ticked.running]
    by_cases last : tick = sequence.finalTick
    · rw [if_pos (isLast.mpr last), if_neg (by omega)]
    · rw [if_neg (mt isLast.mp last), if_pos (by omega)]
  · have stopped :=
      stopped_turn hosted ordered selfless countable inTime fresh (not_le.mp within) alone
    have zero : (sequence.value owner (spot.turn (run.world (first + tick))) .running == 0) =
        true := by rw [stopped, Counting.zero_beq_zero]
    have steady := run_of_stopped zero (spot.locals (run.world (first + tick)))
    have none : sequence.dueAt tick = [] := by
      rw [dueAt, List.map_eq_nil_iff, List.filter_eq_nil_iff]
      intro entry member
      have begun : sequence.lastStart ≤ sequence.finalTick := le_max_left _ _
      have starts := lastStart_le_iff.mp begun entry.1 (List.fst_mem_of_mem_zipIdx member)
      simp only [decide_eq_true_eq]
      exact (starts.trans_lt (not_le.mp within)).ne
    refine ⟨?_, by rw [if_neg within, stopped], ?_⟩
    · rw [none]
      exact steady.calm.dispatches_eq_nil ▸ .nil
    · rw [if_neg (by omega), ← stopped]
      exact steady.same .running

end

/-- What a timeline does so many frames after a start. -/
structure OnSchedule (sequence : Sequence α) (spot : Program.Spot program owner sequence.run)
    (run : Run α) (first tick : Nat) : Prop where
  /-- The entries that start at the tick are dispatched, in their order. -/
  dispatched : List.Forall₂ (sequence.IsDispatch owner) (sequence.dueAt tick)
    (sequence.dispatches owner (spot.trace (run.world (first + tick))))
  /-- Each entry is dispatched once at its own tick, and not at another one. -/
  once : ∀ index cue, sequence.cues[index]? = some cue →
    Trace.entries owner (sequence.entry cue index) (spot.trace (run.world (first + tick))) =
      if sequence.startTick cue = tick then 1 else 0
  /-- The turn finds the timeline running up to the last tick. -/
  turn : sequence.value owner (spot.turn (run.world (first + tick))) .running =
    if tick ≤ sequence.finalTick then 1 else 0
  /-- The turn leaves the timeline running before the last tick. -/
  closing : sequence.value owner (spot.closing (run.world (first + tick))) .running =
    if tick < sequence.finalTick then 1 else 0
  /-- The action of an entry is finished on its targets once it has had its ticks. -/
  finished : ∀ cue ∈ sequence.cues, cue.action.isTimed → sequence.startTick cue ≤ tick →
    ∀ target ∈ cue.action.targets,
      Trace.entries target cue.action.finishBody (run.trace (first + tick)) =
        if tick + 1 = sequence.startTick cue + max 1 cue.action.ticks then 1 else 0

end Sequence

/-! ### Exits -/

namespace Program.Layout

variable [Trigonometric α] {rate : α} {scene : Scene α} {program : Program α}
  (layout : Layout rate scene program)

include layout

/-- An action that is opened once in some frames is finished once it has had its ticks. -/
theorem finishes_of_once [Counting α] {action : Instance α} (member : action ∈ instances rate scene)
    (timed : action.isTimed) (small : action.ticks ≤ countingLimit)
    (visits : Nat → List (Visit α)) {first start tick : Nat}
    (opened : ∀ passed ≤ tick, ∀ target ∈ action.targets, Trace.entries target action.opening
      ((Run.ofScene program scene visits).trace (first + passed)) = if start = passed then 1 else 0)
    (begun : start ≤ tick) {target : String} (targeted : target ∈ action.targets) :
    Trace.entries target action.finishBody
        ((Run.ofScene program scene visits).trace (first + tick)) =
      if tick + 1 = start + max 1 action.ticks then 1 else 0 := by
  let run := Run.ofScene program scene visits
  have last : run.LastDispatch action (first + tick) (first + start) := by
    refine ⟨by omega, ⟨target, targeted, ?_⟩, fun later after within => ?_⟩
    · rw [opened start begun target targeted, if_pos rfl]
      exact Nat.one_pos
    · rintro ⟨other, isTarget, some⟩
      obtain ⟨passed, rfl⟩ := Nat.exists_eq_add_of_le (Nat.le_of_add_right_le after.le)
      rw [opened passed (by omega) other isTarget, if_neg (by omega)] at some
      exact lt_irrefl 0 some
  obtain ⟨count, frames⟩ := layout.frame_of_standing member timed small visits
    (layout.standing_stage member timed small visits (first + tick))
  have finishes := (frames target targeted).1.finishes
  rw [Run.age_of_lastDispatch last] at finishes
  have ends : first + tick - (first + start) + 1 = action.frames ↔
      tick + 1 = start + max 1 action.ticks := by
    rw [Instance.frames]
    omega
  simp only [Instance.due, ends] at finishes
  exact finishes

end Program.Layout

namespace Program.Layout.Seat

variable [Trigonometric α] {rate : α} {scene : Scene α} {program : Program α}
  {layout : Layout rate scene program} {object : SceneObject α} {first last : List (Owned.Source α)}
  {declared : Timeline α} {sequence : Sequence α}
  (seat : layout.Seat object first (.timeline declared) last
    ⟨sequence.setup, sequence.run, sequence.cues.map (·.action)⟩)

include seat

/-- No two entries of a timeline have actions with the same number. -/
theorem number_ne_of_cue {cue other : Cue α} {index place : Nat}
    (atIndex : sequence.cues[index]? = some cue) (atPlace : sequence.cues[place]? = some other)
    (different : place ≠ index) : other.action.number ≠ cue.action.number := by
  have once := layout.nodup_owned.1 _ seat.isOwned
  rw [Owned.instances_concat, List.flatMap_append, List.flatMap_cons, List.map_append,
    List.map_append, List.nodup_append'] at once
  have onceHere := (List.nodup_append'.mp once.2.1).1
  intro same
  have within : place < ((sequence.cues.map (·.action)).map (·.number)).length := by
    simpa using (List.getElem?_eq_some_iff.mp atPlace).1
  refine different ((List.getElem?_inj within onceHere).mp ?_)
  rw [List.getElem?_map, List.getElem?_map, List.getElem?_map, List.getElem?_map, atIndex, atPlace]
  exact congrArg some same

/-- A timeline that was started and is left alone keeps its schedule. -/
theorem onSchedule [Scheduling α] (ordered : sequence.IsOrdered) (selfless : sequence.IsSelfless)
    (countable : sequence.IsCountable) (inTime : sequence.EndsInTime)
    (visits : Nat → List (Visit α)) {start : Nat}
    (fresh : sequence.IsFresh object.id
      (seat.spot.turn ((Run.ofScene program scene visits).world start))) (tick : Nat)
    (alone : ∀ passed < tick, sequence.IsLeftAlone seat.spot (Run.ofScene program scene visits)
      (start + passed)) :
    sequence.OnSchedule seat.spot (Run.ofScene program scene visits) start tick := by
  let run := Run.ofScene program scene visits
  have hosted : run.opening.world.hosts object.id :=
    Program.Layout.hosts_owner (layout.id_mem_walk seat.isOwned)
  have turns (tick : Nat)
      (alone : ∀ passed < tick, sequence.IsLeftAlone seat.spot run (start + passed)) :=
    Sequence.turn_of_fresh hosted ordered selfless countable inTime fresh tick alone
  have once (tick : Nat)
      (alone : ∀ passed < tick, sequence.IsLeftAlone seat.spot run (start + passed))
      {index : Nat} {cue : Cue α} (atIndex : sequence.cues[index]? = some cue) :=
    Sequence.entries_of_dispatches atIndex countable.length (turns tick alone).1
  refine ⟨(turns tick alone).1, fun index cue atIndex => once tick alone atIndex,
    (turns tick alone).2.1, (turns tick alone).2.2,
    fun cue member timed begun target targeted => ?_⟩
  obtain ⟨index, atIndex⟩ := List.mem_iff_getElem?.mp member
  have inPiece : cue.action ∈ sequence.cues.map (·.action) := List.mem_map_of_mem member
  have inScene := seat.mem_of_piece inPiece
  refine layout.finishes_of_once inScene timed (countable.ticks cue member timed) visits
    (fun passed within other isTarget => ?_) begun targeted
  have hostedTargets : ∀ target ∈ cue.action.targets, (run.world (start + passed)).hosts target := by
    intro target targeted
    rw [Run.hosts_world]
    exact layout.hosts_target inScene targeted
  have hostedOwner : (run.world (start + passed)).hosts object.id := by
    rw [Run.hosts_world]
    exact hosted
  have opens : Trace.entries other cue.action.opening (run.trace (start + passed)) =
      Trace.entries other cue.action.opening (seat.spot.trace (run.world (start + passed))) :=
    seat.openings_frame inPiece timed isTarget (hostedTargets other isTarget) hostedOwner
  rw [opens]
  refine (Sequence.opensWith_run timed isTarget (layout.numbered.nodup _ inScene) atIndex
    (fun _ _ atPlace different => seat.number_ne_of_cue atIndex atPlace different) ?_ _).trans ?_
  · rwa [seat.spot.hosts_turn]
  · exact once passed (fun earlier before => alone earlier (before.trans_le within)) atIndex

end Program.Layout.Seat

end Stagecraft
