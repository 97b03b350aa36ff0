/-
This file counts the laps of a timeline. A lap begins where the cursor is put back to the first
entry. After a start from elsewhere the next turn finds no tick counted, and each entry is dispatched
as many frames later as its start says. A start by an entry comes before the tick of its own turn is
counted, so the next turn finds one tick counted: it dispatches the entries of the first two ticks at
once, and all others come one frame sooner after the start than in a lap that began elsewhere.
-/

import Stagecraft.Proofs.Timeline.Clock
import Stagecraft.Proofs.Timeline.Freeze

namespace Stagecraft

variable {α : Type} [Trigonometric α]

namespace Sequence

variable {sequence : Sequence α} {clock : Clock}

/-! ### Entries that were offered -/

/-- Of ordered entries those that start before a tick are the first ones. -/
theorem IsOrdered.lt_sent_iff (ordered : sequence.IsOrdered) (tick : Nat) {index : Nat} {cue : Cue α}
    (atIndex : sequence.cues[index]? = some cue) :
    index < sequence.sent tick ↔ sequence.startTick cue < tick := by
  obtain ⟨before, due, later, split, early, now, late⟩ := ordered.exists_split tick
  rw [sent_eq split early now late]
  rw [split] at atIndex
  constructor
  · intro below
    rw [List.getElem?_append_left below] at atIndex
    exact early cue (List.mem_of_getElem? atIndex)
  · intro starts
    by_contra above
    rw [List.getElem?_append_right (not_lt.mp above)] at atIndex
    rcases List.mem_append.mp (List.mem_of_getElem? atIndex) with isDue | isLater
    · exact starts.ne (now cue isDue)
    · exact starts.not_gt (late cue isLater)

/-- Only places of the entries that are offered are dispatched. -/
theorem mem_of_mem_places {entries : List (Cue α × Nat)} {place : Nat}
    (member : place ∈ sequence.places clock entries) : place ∈ entries.map (·.2) := by
  induction entries generalizing clock with
  | nil => cases member
  | cons entry rest inductionHypothesis =>
    rw [places, List.mem_append] at member
    rw [List.map_cons, List.mem_cons]
    rcases member with here | later
    · split at here
      · exact .inl (List.mem_singleton.mp here)
      · cases here
    · exact .inr (inductionHypothesis later)

/-- Entries of which none is due are passed over. -/
theorem offers_of_not_due {entries : List (Cue α × Nat)}
    (idle : ∀ entry ∈ entries, ¬sequence.IsDue clock entry) :
    sequence.places clock entries = [] ∧ entries.foldl sequence.offer clock = clock := by
  induction entries with
  | nil => exact ⟨rfl, rfl⟩
  | cons entry rest inductionHypothesis =>
    obtain ⟨here, later⟩ := List.forall_mem_cons.mp idle
    rw [places, List.foldl_cons, offer, if_neg here, if_neg here]
    exact inductionHypothesis later

omit [Trigonometric α] in
/-- The entries around one of them, with their places. -/
theorem zipIdx_eq_split {index : Nat} {cue : Cue α} (atIndex : sequence.cues[index]? = some cue) :
    sequence.cues.zipIdx = sequence.cues.zipIdx.take index ++
      (cue, index) :: sequence.cues.zipIdx.drop (index + 1) := by
  have entry : sequence.cues.zipIdx[index]? = some (cue, index) := by
    simp [List.getElem?_zipIdx, atIndex]
  have whole := List.take_append_drop index sequence.cues.zipIdx
  rwa [List.drop_eq_getElem?_toList_append, entry, Option.toList_some, eq_comm] at whole

omit [Trigonometric α] in
theorem le_of_mem_drop {index : Nat} {entry : Cue α × Nat}
    (member : entry ∈ sequence.cues.zipIdx.drop index) : index ≤ entry.2 := by
  have place := List.mem_map_of_mem (f := Prod.snd) member
  rw [List.map_drop, List.zipIdx_map_snd, List.drop_range', List.mem_range'] at place
  omega

omit [Trigonometric α] in
theorem lt_of_mem_take {index : Nat} {entry : Cue α × Nat}
    (member : entry ∈ sequence.cues.zipIdx.take index) : entry.2 < index := by
  obtain ⟨place, within, rfl⟩ := List.mem_take_iff_getElem.mp member
  rw [List.getElem_zipIdx]
  omega

/-- An entry is dispatched by a turn if it is due once those before it were offered. -/
theorem mem_places_iff {index : Nat} {cue : Cue α} (atIndex : sequence.cues[index]? = some cue) :
    index ∈ sequence.places clock sequence.cues.zipIdx ↔ sequence.IsDue
      ((sequence.cues.zipIdx.take index).foldl sequence.offer clock) (cue, index) := by
  have notBefore : index ∉ sequence.places clock (sequence.cues.zipIdx.take index) := by
    intro member
    obtain ⟨entry, inside, rfl⟩ := List.mem_map.mp (mem_of_mem_places member)
    exact lt_irrefl _ (lt_of_mem_take inside)
  have notAfter (clock : Clock) :
      index ∉ sequence.places clock (sequence.cues.zipIdx.drop (index + 1)) := by
    intro member
    obtain ⟨entry, inside, rfl⟩ := List.mem_map.mp (mem_of_mem_places member)
    exact absurd (le_of_mem_drop inside) (Nat.not_succ_le_self _)
  have split := congrArg (sequence.places clock) (zipIdx_eq_split atIndex)
  rw [split, places_append, places]
  simp [notBefore, notAfter]

/-! ### Laps -/

variable (sequence) in
/-- The entry neither starts nor stops the timeline itself while it runs. -/
def IsHarmless (cue : Cue α) : Prop :=
  ∀ change, sequence.ownChange? cue = some change →
    change = .continue ∨ change = .startIfNotStarted

/-- While the timeline runs, an entry that neither starts nor stops it only moves the cursor. -/
theorem offer_of_harmless {entry : Cue α × Nat} (harmless : sequence.IsHarmless entry.1)
    (running : clock.running = true) :
    sequence.offer clock entry =
      if sequence.IsDue clock entry then { clock with cursor := entry.2 + 1 } else clock := by
  rw [offer]
  cases own : sequence.ownChange? entry.1 with
  | none => rfl
  | some change => rcases harmless change own with rfl | rfl <;> simp [Clock.tell, running]

section

variable (ordered : sequence.IsOrdered) {index : Nat}
  (harmless : ∀ place < index, ∀ cue, sequence.cues[place]? = some cue → sequence.IsHarmless cue)

include ordered harmless

/-- Before the first entry that starts or stops the timeline the cursor moves on up to the entries
whose time has not come. -/
theorem foldl_offer_take (running : clock.running = true)
    (behind : clock.cursor ≤ sequence.sent (clock.elapsed + 1)) {count : Nat}
    (within : count ≤ index) (inside : count ≤ sequence.cues.length) :
    (sequence.cues.zipIdx.take count).foldl sequence.offer clock = { clock with
      cursor := max clock.cursor (min count (sequence.sent (clock.elapsed + 1))) } := by
  induction count with
  | zero => simp
  | succ count inductionHypothesis =>
    have moved := inductionHypothesis (Nat.le_of_succ_le within) (Nat.le_of_succ_le inside)
    have atPlace : sequence.cues[count]? = some sequence.cues[count] :=
      List.getElem?_eq_getElem inside
    have entry : sequence.cues.zipIdx[count]? = some (sequence.cues[count], count) := by
      simp [List.getElem?_zipIdx, atPlace]
    have starts := ordered.lt_sent_iff (clock.elapsed + 1) atPlace
    rw [Nat.lt_succ_iff] at starts
    let here : Clock :=
      { clock with cursor := max clock.cursor (min count (sequence.sent (clock.elapsed + 1))) }
    have offered : sequence.offer here (sequence.cues[count], count) = _ :=
      offer_of_harmless (harmless count within _ atPlace) running
    rw [List.take_add_one, entry, Option.toList_some, List.foldl_append, moved, List.foldl_cons,
      List.foldl_nil, offered]
    simp only [here, IsDue, ← starts]
    split <;> rw [Clock.mk.injEq] <;> exact ⟨rfl, rfl, by omega⟩

variable {cue : Cue α} (atIndex : sequence.cues[index]? = some cue)

include atIndex

/-- An entry that no earlier one keeps from it is dispatched by a turn that finds the cursor no
further and its time come. -/
theorem mem_turnPlaces_iff (running : clock.running = true)
    (behind : clock.cursor ≤ sequence.sent (clock.elapsed + 1)) :
    index ∈ sequence.turnPlaces clock ↔
      clock.cursor ≤ index ∧ sequence.startTick cue ≤ clock.elapsed := by
  have below := (List.getElem?_eq_some_iff.mp atIndex).1
  have starts := ordered.lt_sent_iff (clock.elapsed + 1) atIndex
  rw [Nat.lt_succ_iff] at starts
  rw [turnPlaces, if_pos running, mem_places_iff atIndex,
    foldl_offer_take ordered harmless running behind le_rfl below.le, IsDue, ← starts]
  dsimp only
  omega

/-- A turn before its time passes one tick. -/
theorem turn_of_early (running : clock.running = true)
    (behind : clock.cursor ≤ sequence.sent (clock.elapsed + 1))
    (early : clock.elapsed < sequence.startTick cue) :
    sequence.turn clock = ⟨true, clock.elapsed + 1, sequence.sent (clock.elapsed + 1)⟩ := by
  have below := (List.getElem?_eq_some_iff.mp atIndex).1
  have notSent : sequence.sent (clock.elapsed + 1) ≤ index := by
    rw [← not_lt, ordered.lt_sent_iff _ atIndex]
    omega
  have moved := foldl_offer_take ordered harmless running behind le_rfl below.le
  have whole : sequence.cues.zipIdx.foldl sequence.offer clock =
      { clock with cursor := sequence.sent (clock.elapsed + 1) } := by
    rw [← List.take_append_drop index sequence.cues.zipIdx, List.foldl_append, moved,
      min_eq_right notSent, max_eq_right behind]
    refine (offers_of_not_due fun entry member due => ?_).2
    have atPlace := List.mem_zipIdx_iff_getElem?.mp (List.mem_of_mem_drop member)
    have sent := (ordered.lt_sent_iff _ atPlace).mpr (Nat.lt_succ_of_le due.2)
    exact absurd (notSent.trans (le_of_mem_drop member)) (not_le.mpr sent)
  rw [turn, if_pos running, whole, count]
  simp [running]
  omega

/-- Up to the entry the turns of a lap pass the ticks one by one. -/
theorem iterate_turn {early count : Nat} (within : count ≤ sequence.startTick cue - early) :
    sequence.turn^[count] ⟨true, early, 0⟩ =
      ⟨true, early + count, if count = 0 then 0 else sequence.sent (early + count)⟩ := by
  induction count with
  | zero => rfl
  | succ count inductionHypothesis =>
    rw [Function.iterate_succ_apply', inductionHypothesis (Nat.le_of_succ_le within),
      turn_of_early ordered harmless atIndex rfl ?_ ?_, if_neg count.succ_ne_zero]
    · rfl
    · dsimp only
      split
      · exact Nat.zero_le _
      · exact List.countP_mono_left fun other _ before => by
          simp only [decide_eq_true_eq] at before ⊢
          omega
    · dsimp only
      omega

/-- In a lap an entry is dispatched by the turn that finds its tick, or already by the first turn. -/
theorem mem_turnPlaces_lap {early count : Nat} (within : count ≤ sequence.startTick cue - early) :
    index ∈ sequence.turnPlaces (sequence.turn^[count] ⟨true, early, 0⟩) ↔
      count = sequence.startTick cue - early := by
  rw [iterate_turn ordered harmless atIndex within, mem_turnPlaces_iff ordered harmless atIndex rfl]
  · dsimp only
    split
    · omega
    · rw [← not_lt, ordered.lt_sent_iff _ atIndex]
      omega
  · dsimp only
    split
    · exact Nat.zero_le _
    · exact List.countP_mono_left fun other _ before => by
        simp only [decide_eq_true_eq] at before ⊢
        omega

end

/-- A turn in which an entry starts the timeline anew dispatches no later entry, and has counted one
tick of the new lap already. -/
theorem turn_of_restart {place : Nat} {cue : Cue α} (atPlace : sequence.cues[place]? = some cue)
    (restarts : sequence.ownChange? cue = some .start)
    (dispatched : place ∈ sequence.turnPlaces clock) :
    sequence.turn clock = ⟨true, 1, 0⟩ ∧ ∀ other ∈ sequence.turnPlaces clock, other ≤ place := by
  rw [turnPlaces] at dispatched
  split at dispatched
  · rename_i running
    have below := (List.getElem?_eq_some_iff.mp atPlace).1
    have isDue := (mem_places_iff atPlace).mp dispatched
    have restarted : sequence.offer ((sequence.cues.zipIdx.take place).foldl sequence.offer clock)
        (cue, place) = ⟨true, 0, 0⟩ := by
      rw [offer, if_pos isDue, restarts]
      rfl
    have notDue : ∀ entry ∈ sequence.cues.zipIdx.drop (place + 1),
        ¬sequence.IsDue ⟨true, 0, 0⟩ entry := fun entry member due =>
      absurd (le_of_mem_drop member) (due.1 ▸ Nat.not_succ_le_zero place)
    have idle := offers_of_not_due notDue
    constructor
    · rw [turn, if_pos running, zipIdx_eq_split atPlace, List.foldl_append, List.foldl_cons,
        restarted, idle.2, count, decide_eq_false (by dsimp only; omega)]
      rfl
    · intro other member
      rw [turnPlaces, if_pos running, congrArg (sequence.places clock) (zipIdx_eq_split atPlace),
        places_append, places, restarted, idle.1, if_pos isDue, List.append_nil, List.mem_append] at member
      rcases member with before | here
      · obtain ⟨entry, inside, rfl⟩ := List.mem_map.mp (mem_of_mem_places before)
        exact (lt_of_mem_take inside).le
      · exact (List.mem_singleton.mp here).le
  · cases dispatched

/-- A lap that an entry begins is one tick ahead of one that begins elsewhere: counted from the turn of
the start, the entries of the first two ticks come with the next turn. -/
theorem mem_turnPlaces_restarted (ordered : sequence.IsOrdered) {place : Nat} {cue : Cue α}
    (atPlace : sequence.cues[place]? = some cue)
    (restarts : sequence.ownChange? cue = some .start)
    (dispatched : place ∈ sequence.turnPlaces clock) {index : Nat} {other : Cue α}
    (atIndex : sequence.cues[index]? = some other)
    (harmless : ∀ place < index, ∀ cue, sequence.cues[place]? = some cue → sequence.IsHarmless cue)
    {passed : Nat} (within : passed ≤ sequence.startTick other - 1) :
    index ∈ sequence.turnPlaces (sequence.turn^[passed + 1] clock) ↔
      passed = sequence.startTick other - 1 := by
  rw [Function.iterate_succ_apply, (turn_of_restart atPlace restarts dispatched).1,
    mem_turnPlaces_lap ordered harmless atIndex within]

/-- A round that shows the stage, hides it one tick later and begins anew after another one. -/
def round : Sequence Float where
  name := "round"
  autostart := true
  rate := 1
  cues := [⟨0, ⟨0, "visibility", ["stage"], ⟨0, 1⟩, .fade true⟩⟩,
    ⟨1, ⟨1, "visibility", ["stage"], ⟨0, 1⟩, .fade false⟩⟩,
    ⟨2, ⟨2, "timeline", ["stage"], ⟨0, 1⟩, .timeline "round" .start⟩⟩]

/-- In every lap but the first the stage is shown and hidden in one turn. -/
example : (List.range 6).map (fun count => round.turnPlaces (round.turn^[count] ⟨true, 0, 0⟩)) =
    [[0], [1], [2], [0, 1], [2], [0, 1]] := by decide +kernel

/-! ### Laps in a run -/

section

variable [Counting α] {owner : String} {program : Program α}
  {spot : Program.Spot program owner sequence.run} {run : Run α} {actions : List (Instance α)}

/-- As long as it is left alone, a timeline follows its clock from turn to turn. -/
theorem Shows.iterate (changed : sequence.IsChangedOn owner actions)
    (measurable : sequence.IsMeasurable) (inside : ∀ cue ∈ sequence.cues, cue.action ∈ actions)
    {first : Nat} (shows : sequence.Shows owner clock (spot.turn (run.world first)))
    (fits : sequence.Fits clock) {count : Nat} (small : clock.elapsed + count ≤ countingLimit)
    (alone : ∀ passed < count, sequence.IsLeftAlone spot run (first + passed)) :
    sequence.Shows owner (sequence.turn^[count] clock) (spot.turn (run.world (first + count))) := by
  induction count with
  | zero => exact shows
  | succ count inductionHypothesis =>
    have shown := inductionHypothesis (Nat.le_of_succ_le small) fun passed before =>
      alone passed (before.trans count.lt_succ_self)
    obtain ⟨fitsStill, within⟩ := fits.iterate (Nat.le_of_succ_le small)
    have closed := (shown.run changed measurable inside (within.trans_lt small) fitsStill
      (spot.locals (run.world (first + count)))).2
    have same := alone count count.lt_succ_self
    rw [Function.iterate_succ_apply', ← Nat.add_assoc]
    refine ⟨?_, (same _).trans closed.running, (same _).trans closed.started,
      (same _).trans closed.elapsed, (same _).trans closed.cursor⟩
    have hosted := shown.hosted
    rw [spot.hosts_turn, Run.hosts_world] at hosted ⊢
    exact hosted

variable (sequence spot run) in
/-- The entry is dispatched by the turn in the frame. -/
def Sends (index frame : Nat) : Prop :=
  ∃ event ∈ spot.trace (run.world frame), sequence.IsDispatch owner index event

variable (sequence spot run) in
/-- So many frames after a start the turn finds the timeline as its clock says, and dispatches the
entries that the clock says, in their order. -/
structure KeepsToClock (start count : Nat) : Prop where
  shows : sequence.Shows owner (sequence.turn^[count] ⟨true, 0, 0⟩)
    (spot.turn (run.world (start + count)))
  dispatched : List.Forall₂ (sequence.IsDispatch owner)
    (sequence.turnPlaces (sequence.turn^[count] ⟨true, 0, 0⟩))
    (sequence.dispatches owner (spot.trace (run.world (start + count))))

theorem KeepsToClock.sends_iff {start count : Nat} (keeps : KeepsToClock sequence spot run start count)
    (small : sequence.cues.length ≤ countingLimit) (index : Nat) :
    sequence.Sends spot run index (start + count) ↔
      index ∈ sequence.turnPlaces (sequence.turn^[count] ⟨true, 0, 0⟩) := by
  constructor
  · rintro ⟨event, happens, isDispatch⟩
    have inside : event ∈ sequence.dispatches owner (spot.trace (run.world (start + count))) := by
      classical
      rw [dispatches, List.mem_filter, decide_eq_true_iff]
      exact ⟨happens, index, isDispatch⟩
    obtain ⟨place, member, there⟩ := Lists.exists_of_mem_right keeps.dispatched inside
    rwa [isDispatch.index_eq small there]
  · intro member
    obtain ⟨event, inside, isDispatch⟩ := Lists.exists_of_mem_left keeps.dispatched member
    rw [dispatches, List.mem_filter] at inside
    exact ⟨event, inside.1, isDispatch⟩

end

end Sequence

namespace Program.Layout.Seat

variable [Counting α] {rate : α} {scene : Scene α} {program : Program α}
  {layout : Layout rate scene program} {object : SceneObject α} {first last : List (Owned.Source α)}
  {declared : Timeline α} {sequence : Sequence α}
  (seat : layout.Seat object first (.timeline declared) last
    ⟨sequence.setup, sequence.run, sequence.cues.map (·.action)⟩)
  (named : sequence.name ∈ Directory.timelineNames object)

include seat named

/-- From a start on, and as long as it is left alone, a timeline keeps to its clock. -/
theorem keepsToClock (measurable : sequence.IsMeasurable) (visits : Nat → List (Visit α))
    {start : Nat} (fresh : sequence.IsFresh object.id
      (seat.spot.turn ((Run.ofScene program scene visits).world start))) {count : Nat}
    (small : count < countingLimit)
    (alone : ∀ passed < count,
      sequence.IsLeftAlone seat.spot (Run.ofScene program scene visits) (start + passed)) :
    sequence.KeepsToClock seat.spot (Run.ofScene program scene visits) start count := by
  let run := Run.ofScene program scene visits
  have inside : ∀ cue ∈ sequence.cues, cue.action ∈ instances rate scene :=
    fun cue member => seat.mem_of_piece (List.mem_map_of_mem member)
  have changed := seat.changed named
  have hosted : (seat.spot.turn (run.world start)).hosts object.id := by
    rw [seat.spot.hosts_turn, Run.hosts_world]
    exact Program.Layout.hosts_owner (layout.id_mem_walk seat.isOwned)
  have fits : sequence.Fits ⟨true, 0, 0⟩ := ⟨Nat.zero_le _, Nat.zero_le _⟩
  have within : (⟨true, 0, 0⟩ : Clock).elapsed + count < countingLimit := by simpa using small
  have shows := (fresh.shows hosted).iterate changed measurable inside fits within.le alone
  obtain ⟨still, elapsed⟩ := fits.iterate within.le
  exact ⟨shows, (shows.run changed measurable inside (elapsed.trans_lt within) still _).1⟩

end Program.Layout.Seat

/-! ### Timelines of a scene -/

variable [Scheduling α]

/-- A timeline keeps to its clock, whatever its own entries do to it. In every run of a compiled
scene, from a start that its turn finds fresh and as long as it is left alone, each later turn finds
the timeline as the clock says and dispatches the entries that the clock says. So after a start from
elsewhere an entry that no earlier one keeps from it is dispatched as many frames later as its start
says. But counted from the frame in which an entry starts the timeline anew, an entry of the first
tick comes one frame late, together with those of the second tick. -/
theorem timeline_keeps_to_clock {rate : α} {scene : Scene α} {program : Program α}
    (compiled : Program.compile rate scene = .ok program) {object : SceneObject α}
    (inScene : object ∈ scene.walk) {declared : Timeline α}
    (member : declared ∈ object.timelines) :
    ∃ directory, Directory.ofScene scene = .ok directory ∧
      ∃ (sequence : Sequence α) (spot : Program.Spot program object.id sequence.run),
        Sequence.Plays directory rate object.id declared sequence ∧
        (sequence.IsMeasurable → ∀ visits : Nat → List (Visit α),
          let run := Run.ofScene program scene visits
          ∀ start, sequence.IsFresh object.id (spot.turn (run.world start)) →
            ∀ count < countingLimit,
              (∀ passed < count, sequence.IsLeftAlone spot run (start + passed)) →
              sequence.KeepsToClock spot run start count ∧
              ∀ index cue, sequence.cues[index]? = some cue →
                (∀ place < index, ∀ cue, sequence.cues[place]? = some cue →
                  sequence.IsHarmless cue) →
                (count ≤ sequence.startTick cue →
                  (sequence.Sends spot run index (start + count) ↔
                    count = sequence.startTick cue)) ∧
                ∀ begun place restart, sequence.cues[place]? = some restart →
                  restart.action.effect = .timeline declared.name .start →
                  begun < count → sequence.Sends spot run place (start + begun) →
                  count - begun ≤ max 1 (sequence.startTick cue) →
                  (sequence.Sends spot run index (start + count) ↔
                    count - begun = max 1 (sequence.startTick cue))) := by
  obtain ⟨layout⟩ := Program.exists_layout compiled
  obtain ⟨sequence, first, last, plays, ordered, -, ⟨seat⟩⟩ :=
    layout.exists_timeline inScene member
  have named : sequence.name ∈ Directory.timelineNames object := by
    rw [plays.name]
    exact List.mem_map_of_mem member
  refine ⟨layout.directory, layout.sound, sequence, seat.spot, plays, fun measurable visits => ?_⟩
  intro run start fresh count small alone
  have keeps := seat.keepsToClock named measurable visits fresh small alone
  have sends := keeps.sends_iff measurable.length
  refine ⟨keeps, fun index cue atIndex harmless => ⟨fun within => ?_,
    fun begun place restart atPlace restarts before restarted within => ?_⟩⟩
  · exact (sends index).trans
      (Sequence.mem_turnPlaces_lap ordered harmless atIndex (Nat.sub_zero _ ▸ within))
  · have began := seat.keepsToClock named measurable visits fresh (before.trans small)
      fun passed earlier => alone passed (earlier.trans before)
    have dispatched := (began.sends_iff measurable.length place).mp restarted
    have own : sequence.ownChange? restart = some .start := by
      rw [Sequence.ownChange?_eq_some, plays.name]
      exact restarts
    obtain ⟨passed, rfl⟩ := Nat.exists_eq_add_of_lt before
    have near : passed ≤ sequence.startTick cue - 1 := by omega
    have lap :=
      Sequence.mem_turnPlaces_restarted ordered atPlace own dispatched atIndex harmless near
    rw [← Function.iterate_add_apply, show passed + 1 + begun = begun + passed + 1 by omega] at lap
    rw [sends, lap]
    omega

end Stagecraft
