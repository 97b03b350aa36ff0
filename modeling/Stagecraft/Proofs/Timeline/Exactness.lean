/-
This file proves that a started timeline keeps its schedule exactly, as long as its end can be
counted. A timeline whose end lies beyond the numbers that are counted without error does not: one
that should stop right after them stops a tick too early.
-/

import Stagecraft.Proofs.Timeline.Autostart

namespace Stagecraft

variable {α : Type} [Trigonometric α]

/-! ### Ticks of a declared timeline -/

theorem Action.timing_of_resolve {directory : Directory α} {rate : α} {context : Context}
    {owner : String} {number : Nat} {action : Action α} {found : Instance α}
    (resolved : action.resolve directory rate context owner number = .ok found) :
    found.timing = ⟨action.duration, rate⟩ := by
  obtain ⟨-, targets, effect, -, rfl⟩ := Action.resolve_eq_ok.mp resolved
  rfl

/-- The ticks of the entries of a timeline, as it is declared. -/
theorem Sequence.Plays.ticks {directory : Directory α} {rate : α} {owner : String}
    {declared : Timeline α} {sequence : Sequence α}
    (plays : Plays directory rate owner declared sequence) :
    List.Forall₂ (fun (entry : TimedAction α) (cue : Cue α) =>
      sequence.startTick cue = Ticks.count entry.start rate ∧
        cue.action.ticks = Ticks.count entry.action.duration rate)
      declared.inOrder sequence.cues := by
  refine plays.cues.imp fun entry cue related => ⟨?_, ?_⟩
  · rw [startTick, plays.rate, related.1]
  · rw [Instance.ticks, Timing.ticks, Action.timing_of_resolve related.2]

/-- A timeline with one entry. -/
theorem Sequence.Plays.single {directory : Directory α} {rate : α} {owner : String}
    {declared : Timeline α} {sequence : Sequence α}
    (plays : Plays directory rate owner declared sequence) {entry : TimedAction α}
    (entries : declared.entries = [entry]) :
    ∃ cue, sequence.cues = [cue] ∧ sequence.startTick cue = Ticks.count entry.start rate ∧
      cue.action.ticks = Ticks.count entry.action.duration rate := by
  have ticks := plays.ticks
  rw [Timeline.inOrder, entries, List.mergeSort_singleton] at ticks
  obtain ⟨cue, rest, here, none, cues⟩ := List.forall₂_cons_left_iff.mp ticks
  rw [List.forall₂_nil_left_iff.mp none] at cues
  exact ⟨cue, cues, here⟩

/-! ### Timelines of a scene -/

namespace Program.Layout

variable {rate : α} {scene : Scene α} {program : Program α} (layout : Layout rate scene program)

include layout in
theorem finite_rate : Scalar.isFinite rate ∧ 0 < rate := by
  obtain ⟨⟨⟩, checked, -⟩ := Outcome.bind_eq_ok.mp layout.logic
  exact ((checks_checkRate rate _).mp checked).1

/-- Every timeline has a seat, and no other source keeps its slots. -/
theorem exists_timeline [Scheduling α] {object : SceneObject α} (inScene : object ∈ scene.walk)
    {declared : Timeline α} (member : declared ∈ object.timelines) :
    ∃ (sequence : Sequence α) (first last : List (Owned.Source α)),
      Sequence.Plays layout.directory rate object.id declared sequence ∧ sequence.IsOrdered ∧
      (∀ other ∈ first ++ last, ∀ field, ¬other.Keeps (sequence.slot field)) ∧
      Nonempty (layout.Seat object first (.timeline declared) last
        ⟨sequence.setup, sequence.run, sequence.cues.map (·.action)⟩) := by
  obtain ⟨owned, isOwned⟩ := layout.exists_owned inScene
  obtain ⟨before, after, timelines⟩ := List.append_of_mem member
  have logic : object.hasLogic := by
    simp [SceneObject.hasLogic, timelines]
  have sources : object.sources = (object.triggers.map .trigger ++ [.link object.linkActions] ++
      before.map .timeline) ++ .timeline declared :: after.map .timeline := by
    simp [SceneObject.sources, timelines]
  obtain ⟨piece, ⟨seat⟩⟩ := layout.exists_seat isOwned logic sources
  obtain ⟨sequence, plays, magnitudes, rfl⟩ := Owned.plays_made seat.made
  obtain ⟨finite, positive⟩ := layout.finite_rate
  have once : (Directory.timelineNames object).Nodup :=
    (List.nodup_flatMap.mp (Directory.unique_of_ofScene layout.sound).timelines).1 object inScene
  rw [Directory.timelineNames, timelines, List.map_append, List.map_cons] at once
  obtain ⟨notBefore, notAfter⟩ := Lists.eq_of_nodup_append once
  refine ⟨sequence, _, _, plays, plays.isOrdered magnitudes finite positive,
    fun other inOthers field keeps => ?_, ⟨seat⟩⟩
  have named {timelines : List (Timeline α)} (apart : declared.name ∉ timelines.map (·.name))
      (isTimeline : other ∈ timelines.map Owned.Source.timeline) : False := by
    obtain ⟨timeline, inTimelines, rfl⟩ := List.mem_map.mp isTimeline
    obtain ⟨field', same⟩ := keeps
    have names := (Slot.timeline.inj same).1
    rw [plays.name] at names
    exact apart (names ▸ List.mem_map_of_mem inTimelines)
  simp only [List.mem_append, List.mem_singleton] at inOthers
  rcases inOthers with ((isTrigger | rfl) | isBefore) | isAfter
  · obtain ⟨trigger, -, rfl⟩ := List.mem_map.mp isTrigger
    obtain ⟨field', -, same⟩ := keeps
    cases same
  · obtain ⟨field', -, same⟩ := keeps
    cases same
  · exact named notBefore isBefore
  · exact named notAfter isAfter

end Program.Layout

/-- A timeline of a compiled scene keeps its schedule in every run, whatever visitors do between the
frames. It starts at its beginning, also where it starts by itself and no action changes it. If a
turn in a frame finds it at its beginning, no entry starts or stops it and its end can be counted,
then as long as it is left alone, so many ticks later each turn dispatches the entries that start at
that tick, in their order, and no other ones; the turn at the last tick stops it; and by then each
timed action of its entries has been finished, if the tick of its end can be stored. -/
theorem timeline_on_schedule [Scheduling α] {rate : α} {scene : Scene α} {program : Program α}
    (compiled : Program.compile rate scene = .ok program) {object : SceneObject α}
    (inScene : object ∈ scene.walk) {declared : Timeline α}
    (member : declared ∈ object.timelines) :
    ∃ directory, Directory.ofScene scene = .ok directory ∧
      ∃ (sequence : Sequence α) (spot : Program.Spot program object.id sequence.run),
        Sequence.Plays directory rate object.id declared sequence ∧
        (∀ cue ∈ sequence.cues, cue.action ∈ Program.instances rate scene ∧
          (sequence.startTick cue + cue.action.ticks ≤ Ticks.limit →
            sequence.startTick cue + max 1 cue.action.ticks ≤ sequence.finalTick + 1)) ∧
        (∀ locals world, world.hosts object.id →
          sequence.IsFresh object.id
            (Block.runAll object.id locals world (Effect.changeTimeline declared.name .start)) ∧
          (sequence.value object.id world .started = 0 →
            sequence.IsFresh object.id (Block.runAll object.id locals world
              (Effect.changeTimeline declared.name .startIfNotStarted)))) ∧
        ∀ visits : Nat → List (Visit α),
          let run := Run.ofScene program scene visits
          (∀ frame, run.trace frame = spot.lead (run.world frame) ++
            (spot.trace (run.world frame) ++ spot.rest (run.world frame))) ∧
          (declared.autostart → (∀ action ∈ Program.instances rate scene, ∀ change,
              action.effect ≠ .timeline declared.name change) →
            sequence.IsFresh object.id (spot.turn (run.world 0)) ∧
              ∀ frame, sequence.IsLeftAlone spot run frame) ∧
          (sequence.IsSelfless → sequence.IsCountable → sequence.EndsInTime →
            ∀ first, sequence.IsFresh object.id (spot.turn (run.world first)) →
              ∀ tick, (∀ passed < tick, sequence.IsLeftAlone spot run (first + passed)) →
                sequence.OnSchedule spot run first tick) := by
  obtain ⟨layout⟩ := Program.exists_layout compiled
  obtain ⟨sequence, first, last, plays, ordered, apart, ⟨seat⟩⟩ :=
    layout.exists_timeline inScene member
  refine ⟨layout.directory, layout.sound, sequence, seat.spot, plays, fun cue inCues => ?_,
    fun locals world hosted => ⟨?_, fun never => ?_⟩,
    fun visits => ⟨fun frame => ?_, fun autostart quiet => ?_,
      fun selfless countable inTime start fresh tick alone => ?_⟩⟩
  · exact ⟨seat.mem_of_piece (List.mem_map_of_mem inCues), Sequence.startTick_add_frames_le inCues⟩
  · rw [← plays.name]
    exact Sequence.isFresh_rewind hosted locals
  · rw [← plays.name, Sequence.changeTimeline_of_not_started never]
    exact Sequence.isFresh_rewind hosted locals
  · refine seat.spot.trace_frame ?_
    rw [Run.hosts_world]
    exact Program.Layout.hosts_owner inScene
  · rw [← plays.name] at quiet
    rw [← plays.autostart] at autostart
    exact ⟨seat.isFresh_turn apart quiet visits autostart,
      seat.isLeftAlone apart quiet visits autostart⟩
  · exact seat.onSchedule ordered selfless countable inTime visits fresh tick alone

def Effect.isTimelineChange : Effect α → Bool
  | .timeline .. => true
  | _ => false

/-- The bell in the hall is rung in the second frame, and the timeline stops in the third one. -/
theorem timeline_on_schedule_hall :
    ∃ program, Program.compile 1 Scene.hall = .ok program ∧
      ∃ object ∈ Scene.hall.walk, ∃ declared ∈ object.timelines, declared.name = "opening" ∧
        ∃ (sequence : Sequence Float) (spot : Program.Spot program object.id sequence.run),
          sequence.cues.map sequence.startTick = [1] ∧ sequence.finalTick = 2 ∧ sequence.IsSelfless ∧
          sequence.IsCountable ∧ sequence.EndsInTime ∧
          let run := Run.ofScene program Scene.hall fun _ => []
          sequence.IsFresh object.id (spot.turn (run.world 0)) ∧
            ∀ tick, sequence.OnSchedule spot run 0 tick := by
  obtain ⟨program, compiled⟩ := Scene.exists_compile_hall
  obtain ⟨object, inScene, declared, member, named, autostart, entries⟩ :
      ∃ object ∈ Scene.hall.walk, ∃ declared ∈ object.timelines, declared.name = "opening" ∧
        declared.autostart = true ∧
          declared.entries = [⟨1, ⟨some "bell", 2, .sound "ring" (.start 1)⟩⟩] :=
    ⟨_, List.mem_cons_self, _, List.mem_cons_self, rfl, rfl, rfl⟩
  obtain ⟨directory, -, sequence, spot, plays, owns, -, runs⟩ :=
    timeline_on_schedule compiled inScene member
  obtain ⟨-, starts, onSchedule⟩ := runs fun _ => []
  obtain ⟨cue, cues, startTick, ticks⟩ := plays.single entries
  have first : sequence.startTick cue = 1 := startTick.trans (by decide +kernel)
  have long : cue.action.ticks = 2 := ticks.trans (by decide +kernel)
  have none : (Program.instances 1 Scene.hall).all fun action => !action.effect.isTimelineChange := by
    decide +kernel
  have quiet : ∀ action ∈ Program.instances 1 Scene.hall, ∀ change,
      action.effect ≠ .timeline declared.name change := by
    intro action isAction change same
    have other := List.all_eq_true.mp none action isAction
    rw [same] at other
    cases other
  have selfless : sequence.IsSelfless := fun cue inCues change same =>
    absurd (plays.name ▸ same) (quiet cue.action (owns cue inCues).1 change)
  have countable : sequence.IsCountable := by
    constructor
    · simp [cues, countingLimit]
    · simp [cues, first, countingLimit]
    · simp [cues, long, countingLimit]
  have final : sequence.finalTick = 2 := by
    simp [Sequence.finalTick, Sequence.lastStart, Sequence.endTick, Ticks.add, Ticks.limit, cues,
      first, long]
  have inTime : sequence.EndsInTime := by
    simp [Sequence.EndsInTime, Sequence.lastStart, Sequence.endTick, Ticks.add, Ticks.limit, cues,
      first, long, countingLimit]
  obtain ⟨fresh, alone⟩ := starts autostart quiet
  exact ⟨program, compiled, object, inScene, declared, member, named, sequence, spot,
    by simp [cues, first], final, selfless, countable, inTime, fresh,
    fun tick => onSchedule selfless countable inTime 0 fresh tick fun passed _ => alone _⟩

/-! ### An end that cannot be counted -/

/-- A clock fades after one second, for as many seconds as can be counted. -/
def Scene.eternal : Scene Float where
  objects := [{ SceneObject.still "clock" with
    timelines := [{
      name := "age"
      autostart := true
      entries := [⟨1, ⟨none, 9007199254740992, .visibility false⟩⟩] }] }]
  groups := []

/-- Every start and every number of ticks of the clock can be counted, but their sum cannot. Its
timeline should stop in the turn of the tick `2 ^ 53`, and stops one frame before. -/
theorem eternal_stops_early :
    ∃ program, Program.compile 1 Scene.eternal = .ok program ∧
      ∃ object ∈ Scene.eternal.walk, ∃ declared ∈ object.timelines,
        ∃ (sequence : Sequence Float) (spot : Program.Spot program object.id sequence.run),
          (∃ directory, Sequence.Plays directory 1 object.id declared sequence) ∧
          sequence.IsSelfless ∧ sequence.IsCountable ∧ sequence.finalTick = 2 ^ 53 ∧
          let run := Run.ofScene program Scene.eternal fun _ => []
          sequence.IsFresh object.id (spot.turn (run.world 0)) ∧
            (∀ frame, sequence.IsLeftAlone spot run frame) ∧
            sequence.value object.id (spot.turn (run.world (2 ^ 53 - 1))) .running = 1 ∧
            sequence.value object.id (spot.closing (run.world (2 ^ 53 - 1))) .running = 0 := by
  obtain ⟨program, compiled⟩ : ∃ program, Program.compile 1 Scene.eternal = .ok program :=
    Program.exists_of_isOk (by decide +kernel)
  obtain ⟨object, inScene, declared, member, autostart, entries⟩ :
      ∃ object ∈ Scene.eternal.walk, ∃ declared ∈ object.timelines, declared.autostart = true ∧
        declared.entries = [⟨1, ⟨none, 9007199254740992, .visibility false⟩⟩] :=
    ⟨_, List.mem_cons_self, _, List.mem_cons_self, rfl, rfl⟩
  obtain ⟨layout⟩ := Program.exists_layout compiled
  obtain ⟨sequence, first, last, plays, ordered, apart, ⟨seat⟩⟩ :=
    layout.exists_timeline inScene member
  obtain ⟨cue, cues, startTick, ticks⟩ := plays.single entries
  have starts : sequence.startTick cue = 1 := startTick.trans (by decide +kernel)
  have long : cue.action.ticks = 2 ^ 53 := ticks.trans (by decide +kernel)
  have none : (Program.instances 1 Scene.eternal).all fun action =>
      !action.effect.isTimelineChange := by
    decide +kernel
  have quiet : ∀ action ∈ Program.instances 1 Scene.eternal, ∀ change,
      action.effect ≠ .timeline sequence.name change := by
    intro action isAction change same
    have other := List.all_eq_true.mp none action isAction
    rw [same] at other
    cases other
  have selfless : sequence.IsSelfless := fun cue inCues change same =>
    absurd same (quiet cue.action (seat.mem_of_piece (List.mem_map_of_mem inCues)) change)
  have countable : sequence.IsCountable := by
    constructor
    · simp [cues, countingLimit]
    · simp [cues, starts, countingLimit]
    · simp [cues, long, countingLimit]
  have ends : sequence.endTick = 2 ^ 53 + 1 := by
    simp [Sequence.endTick, Ticks.add, Ticks.limit, cues, starts, long]
  have final : sequence.finalTick = 2 ^ 53 := by
    simp [Sequence.finalTick, Sequence.lastStart, ends, cues, starts]
  let run := Run.ofScene program Scene.eternal fun _ => []
  have fresh := seat.isFresh_turn apart quiet (fun _ => []) (plays.autostart.trans autostart)
  have alone := seat.isLeftAlone apart quiet (fun _ => []) (plays.autostart.trans autostart)
  have hosted : run.opening.world.hosts object.id := Program.Layout.hosts_owner inScene
  -- The end is rounded to the limit, so the tick that reaches it is one too early.
  have rounded : (Scalar.ofNat sequence.endTick : Float) = Scalar.ofNat countingLimit := by
    rw [ends]
    decide +kernel
  have further : ∀ passed < 2 ^ 53 - 1, ¬sequence.IsLast passed := by
    rintro passed before ⟨-, reached⟩
    have small : passed < countingLimit := before.trans_le (Nat.sub_le _ _)
    rw [rounded, Counting.ofNat_add_one passed small,
      Counting.ofNat_le _ _ le_rfl (Nat.succ_le_of_lt small)] at reached
    exact absurd reached (by unfold countingLimit; omega)
  have isLast : sequence.IsLast (2 ^ 53 - 1) := by
    refine (Sequence.isLast_iff_reached countable).mpr ⟨?_, ?_⟩
    · simp [Sequence.lastStart, cues, starts]
    · rw [rounded]
      decide +kernel
  have goes : Sequence.GoesOn sequence object.id (2 ^ 53 - 1) (sequence.sent (2 ^ 53 - 1))
      (seat.spot.turn (run.world (0 + (2 ^ 53 - 1)))) :=
    Sequence.goesOn_turn hosted ordered selfless countable fresh (by decide) further
      fun passed _ => alone _
  have ticked := (Sequence.turn_of_goesOn hosted ordered selfless countable (by decide) goes).2
  rw [Nat.zero_add] at goes ticked
  refine ⟨program, compiled, object, inScene, declared, member, sequence, seat.spot,
    ⟨layout.directory, plays⟩, selfless, countable, final, fresh, alone, goes.running, ?_⟩
  rw [ticked.running, if_pos isLast]

end Stagecraft
