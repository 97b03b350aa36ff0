/-
This file shows that a band around a threshold keeps a watch from flickering. A level that is not
set becomes set only on the near side of the whole band, and one that is set is lost only on its far
side. So between two dispatches the sensor has crossed all of the band, however often it has been
evaluated within it.
-/

import Stagecraft.Proofs.Scalar.Exact
import Stagecraft.Proofs.Trigger.Movements

namespace Stagecraft

variable {α : Type}

/-! ### Turns of a level -/

/-- Where the last level is different at two frames, there is a last evaluation in between at which
it changed. -/
theorem exists_turning {evaluated level : Nat → Bool} {first second : Nat} (value : Bool)
    (inOrder : first ≤ second) (before : lastLevel evaluated level first = !value)
    (after : lastLevel evaluated level second = value) :
    ∃ between, first ≤ between ∧ between < second ∧ evaluated between = true ∧
      level between = value ∧ lastLevel evaluated level between = !value ∧
      ∀ later, between < later → later < second → evaluated later = true →
        level later = value := by
  induction second, inOrder using Nat.le_induction with
  | base =>
    rw [before] at after
    exact absurd after (Bool.not_ne_self value)
  | succ second inOrder inductionHypothesis =>
    have here : evaluated second = true → level second = value := fun isEvaluated => by
      rwa [lastLevel, if_pos isEvaluated] at after
    by_cases already : lastLevel evaluated level second = value
    · obtain ⟨between, notBefore, below, turns, is, was, stays⟩ := inductionHypothesis already
      refine ⟨between, notBefore, Nat.lt_succ_of_lt below, turns, is, was,
        fun later above notAfter isEvaluated => ?_⟩
      rcases Nat.lt_succ_iff_lt_or_eq.mp notAfter with notAfter | rfl
      · exact stays later above notAfter isEvaluated
      · exact here isEvaluated
    · have isEvaluated : evaluated second = true := by
        by_contra skipped
        rw [lastLevel, if_neg skipped] at after
        exact already after
      exact ⟨second, inOrder, Nat.lt_succ_self second, isEvaluated, here isEvaluated,
        Bool.eq_not.mpr already, fun later above notAfter => absurd above (by omega)⟩

/-! ### Margins -/

namespace Sensor

variable [Trigonometric α] (watch : Watch) (margin : α) (this : String) (world : World α)

/-- The sensor is on the near side of its threshold and further than a margin away from it. -/
def IsMetBy : Sensor α → Prop
  | .orientation subject direction angle =>
    (world.forwardOf subject).angle direction < angle - margin
  | .proximity subject anchor distance =>
    (world.positionOf subject - world.anchorPosition anchor).length < distance - margin
  | .lookAt target angle =>
    (world.forwardOf headId).angle (world.lineOfSight target) < angle - margin
  | .movement subject distance =>
    distance + margin < (world.positionOf subject - world.lastPosition this watch).length
  | .volume subject least greatest _ =>
    ∀ axis, least.get axis + margin ≤ (world.positionOf subject).get axis ∧
      (world.positionOf subject).get axis ≤ greatest.get axis - margin
  | .selection => (world.read this Slot.clicked.key == (0 : α)) = false

/-- The sensor is on the far side of its threshold and at least a margin away from it. -/
def IsMissedBy : Sensor α → Prop
  | .orientation subject direction angle =>
    angle + margin ≤ (world.forwardOf subject).angle direction
  | .proximity subject anchor distance =>
    distance + margin ≤ (world.positionOf subject - world.anchorPosition anchor).length
  | .lookAt target angle =>
    angle + margin ≤ (world.forwardOf headId).angle (world.lineOfSight target)
  | .movement subject distance =>
    (world.positionOf subject - world.lastPosition this watch).length ≤ distance - margin
  | .volume subject least greatest _ =>
    ∃ axis, (world.positionOf subject).get axis < least.get axis - margin ∨
      greatest.get axis + margin < (world.positionOf subject).get axis
  | .selection => (world.read this Slot.clicked.key == (0 : α)) = true

end Sensor

section

open Exact

variable {K : Type} [Field K] [LinearOrder K] [IsStrictOrderedRing K] [FloorRing K] [Angles K]
  {watch : Watch} {sensor : Sensor K} {epsilon : K} {this : String} {locals : Locals K}
  {world : World K}

/-- A level that was not set is set only beyond the band. -/
theorem Sensor.isMetBy_of_levelAt
    (wasNotSet : world.read this (Slot.watch watch .previous).key = 0)
    (level : watch.levelAt sensor epsilon this locals world = true) :
    sensor.IsMetBy watch epsilon this world := by
  cases sensor with
  | orientation subject direction angle =>
    rw [Watch.levelAt_orientation, wasNotSet, mul_zero, add_zero, decide_eq_true_eq] at level
    exact level
  | proximity subject anchor distance =>
    rw [Watch.levelAt_proximity, wasNotSet, mul_zero, add_zero, decide_eq_true_eq] at level
    exact level
  | lookAt target angle =>
    rw [Watch.levelAt_lookAt, wasNotSet, mul_zero, add_zero, decide_eq_true_eq] at level
    exact level
  | movement subject distance =>
    rw [Watch.levelAt_movement, wasNotSet, mul_zero, sub_zero, Bool.and_eq_true,
      decide_eq_true_eq] at level
    exact level.2
  | volume subject least greatest crossing =>
    rw [Watch.levelAt_volume, wasNotSet] at level
    intro axis
    obtain ⟨low, high⟩ := level axis
    constructor <;> linarith
  | selection => rwa [Watch.levelAt_selection, Bool.not_eq_true'] at level

/-- A level that was set is lost only beyond it on the other side. -/
theorem Sensor.isMissedBy_of_levelAt
    (wasSet : world.read this (Slot.watch watch .previous).key = 1)
    (primed : ∀ subject distance, sensor = .movement subject distance →
      world.read this (Slot.watch watch .primed).key = 1)
    (level : watch.levelAt sensor epsilon this locals world = false) :
    sensor.IsMissedBy watch epsilon this world := by
  have raised (threshold : K) :
      threshold - epsilon + Scalar.two * epsilon * 1 = threshold + epsilon := by
    rw [two_eq]
    ring
  have lowered (threshold : K) :
      threshold + epsilon - Scalar.two * epsilon * 1 = threshold - epsilon := by
    rw [two_eq]
    ring
  cases sensor with
  | orientation subject direction angle =>
    rw [Watch.levelAt_orientation, wasSet, raised, decide_eq_false_iff_not, not_lt] at level
    exact level
  | proximity subject anchor distance =>
    rw [Watch.levelAt_proximity, wasSet, raised, decide_eq_false_iff_not, not_lt] at level
    exact level
  | lookAt target angle =>
    rw [Watch.levelAt_lookAt, wasSet, raised, decide_eq_false_iff_not, not_lt] at level
    exact level
  | movement subject distance =>
    rw [Watch.levelAt_movement, wasSet, primed subject distance rfl, Counting.one_beq_zero,
      lowered, Bool.not_false, Bool.true_and, decide_eq_false_iff_not, not_lt] at level
    exact level
  | volume subject least greatest crossing =>
    rw [← Bool.not_eq_true, Watch.levelAt_volume, not_forall] at level
    obtain ⟨axis, beyond⟩ := level
    rw [wasSet, two_eq, mul_one, not_and_or, not_le, not_le] at beyond
    refine ⟨axis, beyond.imp (fun low => ?_) fun high => ?_⟩ <;> linarith
  | selection => rwa [Watch.levelAt_selection, Bool.not_eq_false'] at level

end

/-! ### Dispatches -/

namespace Post

section

variable [Trigonometric α] {program : Program α} {owner title : String} (post : Post α)
  (spot : Program.Spot program owner (post.block title)) (run : Run α) (frame : Nat)

/-- Something is dispatched in a frame. -/
def DispatchesAt : Prop :=
  post.dispatch ≠ [] ∧ 0 < Trace.entries owner post.dispatch (spot.trace (run.world frame))

/-- In a frame the sensor is past the near side of the band. -/
def IsMetAt : Prop :=
  post.sensor.IsMetBy post.watch post.epsilon owner (spot.turn (run.world frame))

/-- In a frame the sensor is past the far side of the band. -/
def IsMissedAt : Prop :=
  post.sensor.IsMissedBy post.watch post.epsilon owner (spot.turn (run.world frame))

end

/-- The post dispatches at one side of the band, and not again before it has been evaluated at the
other side. For a rising edge the one side is the near side; for a falling edge it is the far side,
and then the post has been at the near side before the first dispatch too. So while it stays within
the band after a dispatch, it does not dispatch. -/
def HasHysteresis [Trigonometric α] (post : Post α) (program : Program α) (scene : Scene α)
    (owner : String) : Prop :=
  ∃ (title : String) (spot : Program.Spot program owner (post.block title)),
    ∀ visits : Nat → List (Visit α),
      let run := Run.ofScene program scene visits
      let evaluated := fun frame => post.evaluatedAt spot run frame = true
      let dispatches := post.DispatchesAt spot run
      let met := post.IsMetAt spot run
      let missed := post.IsMissedAt spot run
      (∀ frame, run.trace frame = spot.lead (run.world frame) ++
        (spot.trace (run.world frame) ++ spot.rest (run.world frame))) ∧
      (match post.sensor.edge with
      | .rising =>
        (∀ frame, dispatches frame → evaluated frame ∧ met frame) ∧
          ∀ first second, first < second → dispatches first → dispatches second →
            ∃ between, first < between ∧ between < second ∧ evaluated between ∧ missed between
      | .falling =>
        (∀ frame, dispatches frame → evaluated frame ∧ missed frame) ∧
          ∀ frame, dispatches frame → ∃ before, before < frame ∧ evaluated before ∧ met before ∧
            ∀ last, last < frame → dispatches last → last < before) ∧
      ∀ first second, first < second →
        (∀ between, first < between → between < second → evaluated between →
          ¬met between ∧ ¬missed between) →
        dispatches first → ¬dispatches second

section

open Exact

variable {K : Type} [Field K] [LinearOrder K] [IsStrictOrderedRing K] [FloorRing K] [Angles K]
  {program : Program K} {scene : Scene K} {owner title : String} {post : Post K}
  (spot : Program.Spot program owner (post.block title))
  (hosted : (Stage.ofScene scene).world.hosts owner) {visits : Nat → List (Visit K)} {run : Run K}
  (isOf : run = Run.ofScene program scene visits)
  (unwritten : (owner, post.stored.key) ∉ Block.writes owner post.dispatch)
  (spares : ∀ field, field ≠ .state → spot.Spares (.watch post.watch field))

include hosted isOf unwritten spares

/-- The level turns on at the near side of the band. -/
theorem isMetAt_of_turning {frame : Nat} (level : post.levelAt spot run frame = true)
    (previous : post.previousAt spot run frame = false) : post.IsMetAt spot run frame := by
  have stored := read_stored_turn spot hosted isOf frame unwritten (spares .previous (by simp))
  rw [previous, if_neg Bool.false_ne_true] at stored
  exact Sensor.isMetBy_of_levelAt stored level

/-- The level turns off at the far side. A movement has a position to be measured from by then. -/
theorem isMissedAt_of_turning {frame : Nat} (level : post.levelAt spot run frame = false)
    (previous : post.previousAt spot run frame = true) : post.IsMissedAt spot run frame := by
  have stored := read_stored_turn spot hosted isOf frame unwritten (spares .previous (by simp))
  rw [previous, if_pos rfl] at stored
  refine Sensor.isMissedBy_of_levelAt stored (fun subject distance sensed => ?_) level
  have primed := stored_of_lastEvaluation spot hosted isOf sensed spares frame
  rw [previousAt, lastLevel_eq] at previous
  rw [read_stage_turn spot run frame (spares .primed (by simp))]
  cases last : lastEvaluation (post.evaluatedAt spot run) frame with
  | none =>
    rw [last] at previous
    cases previous
  | some last' =>
    rw [last] at primed
    exact primed.2

variable (passing : post.remain = false)
  (effective : post.dispatch ≠ [] → Block.isIdle post.dispatch = false)

include passing effective

/-- What does not remain dispatches where its level turns in the way that counts. -/
theorem turning_of_dispatchesAt {frame : Nat} (dispatches : post.DispatchesAt spot run frame) :
    post.evaluatedAt spot run frame = true ∧
      post.levelAt spot run frame = decide (post.sensor.edge = .rising) ∧
      post.previousAt spot run frame = !decide (post.sensor.edge = .rising) := by
  obtain ⟨nonempty, entered⟩ := dispatches
  rw [entries_turn spot hosted isOf frame unwritten (spares .previous (by simp))
    (effective nonempty), passing] at entered
  split at entered
  next crossed =>
    obtain ⟨evaluated, crossed⟩ := crossed
    refine ⟨evaluated, ?_⟩
    cases edge : post.sensor.edge <;>
      simpa [edge, Edge.isCrossed, and_comm] using crossed
  next => exact absurd entered (lt_irrefl 0)

/-- Between two dispatches the level turns the other way. -/
theorem exists_turning_between {first second : Nat} (inOrder : first < second)
    (dispatches : post.DispatchesAt spot run first)
    (dispatches' : post.DispatchesAt spot run second) :
    ∃ between, first < between ∧ between < second ∧ post.evaluatedAt spot run between = true ∧
      post.levelAt spot run between = !decide (post.sensor.edge = .rising) ∧
      post.previousAt spot run between = decide (post.sensor.edge = .rising) := by
  obtain ⟨evaluated, level, -⟩ :=
    turning_of_dispatchesAt spot hosted isOf unwritten spares passing effective dispatches
  obtain ⟨-, -, previous⟩ :=
    turning_of_dispatchesAt spot hosted isOf unwritten spares passing effective dispatches'
  have left : lastLevel (post.evaluatedAt spot run) (post.levelAt spot run) (first + 1) =
      !!decide (post.sensor.edge = .rising) := by
    rw [lastLevel, if_pos evaluated, level, Bool.not_not]
  obtain ⟨between, after, before, isEvaluated, is, was, -⟩ :=
    exists_turning _ (Nat.succ_le_of_lt inOrder) left previous
  exact ⟨between, after, before, isEvaluated, is, was.trans (Bool.not_not _)⟩

/-- Before a dispatch at a falling edge the level turns on, and nothing is dispatched from there on
until then. -/
theorem exists_turning_before (falling : post.sensor.edge = .falling) {frame : Nat}
    (dispatches : post.DispatchesAt spot run frame) :
    ∃ before, before < frame ∧ post.evaluatedAt spot run before = true ∧
      post.levelAt spot run before = true ∧ post.previousAt spot run before = false ∧
      ∀ last, last < frame → post.DispatchesAt spot run last → last < before := by
  have turns {frame : Nat} (isDispatched : post.DispatchesAt spot run frame) :=
    turning_of_dispatchesAt spot hosted isOf unwritten spares passing effective isDispatched
  rw [falling] at turns
  obtain ⟨-, -, previous⟩ := turns dispatches
  obtain ⟨before, -, below, isEvaluated, level, previous, stays⟩ :=
    exists_turning true (Nat.zero_le frame) rfl previous
  refine ⟨before, below, isEvaluated, level, previous, fun last inTime earlier => ?_⟩
  -- The level is set from the turn on, and it is not set where something is dispatched.
  obtain ⟨isEvaluated', level', -⟩ := turns earlier
  rcases lt_trichotomy last before with isBefore | rfl | isAfter
  · exact isBefore
  · exact absurd (level.symm.trans level') Bool.true_eq_false.mp
  · exact absurd ((stays last isAfter inTime isEvaluated').symm.trans level') Bool.true_eq_false.mp

omit isOf in
/-- A post that does not remain has hysteresis where nothing else writes what it stores. -/
theorem hasHysteresis_of_spares : post.HasHysteresis program scene owner := by
  refine ⟨title, spot, fun visits => ?_⟩
  intro run evaluated dispatches met missed
  have isOf : run = Run.ofScene program scene visits := rfl
  have turns {frame : Nat} (isDispatched : dispatches frame) :=
    turning_of_dispatchesAt spot hosted isOf unwritten spares passing effective isDispatched
  have between {first second : Nat} (inOrder : first < second) (isDispatched : dispatches first)
      (again : dispatches second) :=
    exists_turning_between spot hosted isOf unwritten spares passing effective inOrder
      isDispatched again
  have near {frame : Nat} (level : post.levelAt spot run frame = true)
      (previous : post.previousAt spot run frame = false) : met frame :=
    isMetAt_of_turning spot hosted isOf unwritten spares level previous
  have far {frame : Nat} (level : post.levelAt spot run frame = false)
      (previous : post.previousAt spot run frame = true) : missed frame :=
    isMissedAt_of_turning spot hosted isOf unwritten spares level previous
  refine ⟨fun frame => spot.trace_frame (hosts_owner_world hosted isOf frame), ?_, ?_⟩
  · cases edge : post.sensor.edge with
    | rising =>
      rw [edge] at turns between
      refine ⟨fun frame isDispatched => ?_, fun first second inOrder isDispatched again => ?_⟩
      · obtain ⟨isEvaluated, level, previous⟩ := turns isDispatched
        exact ⟨isEvaluated, near level previous⟩
      · obtain ⟨frame, after, before, isEvaluated, level, previous⟩ :=
          between inOrder isDispatched again
        exact ⟨frame, after, before, isEvaluated, far level previous⟩
    | falling =>
      rw [edge] at turns
      refine ⟨fun frame isDispatched => ?_, fun frame isDispatched => ?_⟩
      · obtain ⟨isEvaluated, level, previous⟩ := turns isDispatched
        exact ⟨isEvaluated, far level previous⟩
      · obtain ⟨before, below, isEvaluated, level, previous, undisturbed⟩ :=
          exists_turning_before spot hosted isOf unwritten spares passing effective edge isDispatched
        exact ⟨before, below, isEvaluated, near level previous, undisturbed⟩
  · intro first second inOrder within isDispatched again
    obtain ⟨frame, after, before, isEvaluated, level, previous⟩ :=
      between inOrder isDispatched again
    obtain ⟨notMet, notMissed⟩ := within frame after before isEvaluated
    cases edge : post.sensor.edge with
    | rising =>
      rw [edge] at level previous
      exact notMissed (far level previous)
    | falling =>
      rw [edge] at level previous
      exact notMet (near level previous)

end

end Post

open Exact in
/-- In exact arithmetic every trigger of a compiled scene that does not remain has hysteresis, in
every run. -/
theorem trigger_has_hysteresis {K : Type} [Field K] [LinearOrder K] [IsStrictOrderedRing K]
    [FloorRing K] [Angles K] {rate : K} {scene : Scene K} {program : Program K}
    (compiled : Program.compile rate scene = .ok program) :
    ∃ directory, Directory.ofScene scene = .ok directory ∧
      ∀ object ∈ scene.walk, ∀ trigger ∈ object.triggers, trigger.remain = false →
        ∃ sensor first actions,
          trigger.sensor directory (.trigger trigger.name) = .ok sensor ∧
          Action.resolveAll directory rate (.trigger trigger.name) object.id first trigger.actions =
            .ok actions ∧
          (Post.ofTrigger trigger sensor actions).HasHysteresis program scene object.id := by
  obtain ⟨layout⟩ := Program.exists_layout compiled
  refine ⟨layout.directory, layout.sound, fun object inScene trigger member passing => ?_⟩
  obtain ⟨sensor, first, actions, title, sensed, resolved, owns, spot, spares⟩ :=
    layout.exists_spot_trigger inScene member
  obtain ⟨effective, unwritten⟩ :=
    layout.dispatchAll_facts owns object.id (.trigger trigger.name)
  exact ⟨sensor, first, actions, sensed, resolved, Post.hasHysteresis_of_spares spot
    (Program.Layout.hosts_owner inScene) unwritten spares passing effective⟩

namespace Exact

/-- Exact numbers have one zero. -/
scoped instance instMeasuring {K : Type} [Field K] [LinearOrder K] [FloorRing K] : Measuring K where
  beq_zero_iff value magnitude := by
    have notNegative : 0 ≤ value := of_decide_eq_true (Bool.and_eq_true_iff.mp magnitude).2
    show decide (value = 0) = true ↔ ¬0 < value
    rw [decide_eq_true_iff, not_lt, notNegative.ge_iff_eq']

end Exact

/-- An alarm with a band of one around a distance of five. -/
def Trigger.intrusion : Trigger ℚ where
  name := "near"
  condition := .proximity .head (.object "alarm") 5
  actions := [⟨none, 0, .visibility false⟩]
  remain := false
  enabled := true
  epsilon := 1

def Scene.vestibule : Scene ℚ where
  objects := [{
    id := "alarm"
    position := ⟨0, 0, 0⟩
    orientation := ⟨1, 0, 0, 0⟩
    visible := true
    triggers := [.intrusion]
    timelines := []
    linkActions := []
    children := [] }]
  groups := []

open Exact in
/-- The alarm goes off as the performance begins. A step to the outer half of the band and one back
from beyond it do not repeat it; then it goes off again within a distance of four. -/
theorem trigger_has_hysteresis_vestibule :
    letI := unturned
    ∃ program, Program.compile 1 Scene.vestibule = .ok program ∧
      ∃ alarm ∈ Scene.vestibule.walk, Trigger.intrusion ∈ alarm.triggers ∧
        Trigger.intrusion.remain = false ∧ ∃ sensor actions,
          let post := Post.ofTrigger .intrusion sensor actions
          post.HasHysteresis program Scene.vestibule alarm.id ∧
            ∃ (title : String) (spot : Program.Spot program alarm.id (post.block title)),
              let run := Run.ofScene program Scene.vestibule
                (Visit.along .x [0, 11 / 2, 7, 9 / 2, 3])
              post.dispatch ≠ [] ∧ [0, 1, 2, 3, 4].map (fun frame => Trace.entries alarm.id
                post.dispatch (spot.trace (run.world frame))) = [1, 0, 0, 0, 1] := by
  let _ := unturned
  obtain ⟨program, compiled⟩ : ∃ program, Program.compile 1 Scene.vestibule = .ok program :=
    Program.exists_of_isOk (by decide +kernel)
  obtain ⟨directory, sound, hysteresis⟩ := trigger_has_hysteresis compiled
  obtain ⟨sensor, first, actions, sensed, resolved, title, spot, has⟩ :=
    hysteresis _ (List.mem_singleton.mpr rfl) .intrusion (List.mem_singleton.mpr rfl) rfl
  obtain rfl := Sensor.eq_of_nearObject sensed rfl
  have nonempty : Owned.dispatchAll actions ≠ [] :=
    Owned.dispatchAll_ne_nil sound resolved (List.mem_singleton.mpr rfl) rfl
  have lengths : program.objects.map (fun placed => (placed.id, placed.phases.enter.length)) =
      [("alarm", 2)] := by
    apply Outcome.eq_of_seen compiled
    decide +kernel
  have isDue :
      (let run := Run.ofScene program Scene.vestibule
        (Visit.along .x [0, 11 / 2, 7, 9 / 2, 3])
      let alarm := Post.ofTrigger Trigger.intrusion (.proximity "head" (.object "alarm") 5) []
      [0, 1, 2, 3, 4].map fun frame => alarm.isDue "alarm" (run.world frame)) =
        [true, false, false, false, true] := by
    apply Outcome.eq_of_seen compiled
    decide +kernel
  have front := spot.isFront_of_length lengths (by decide) le_rfl
  have effective := Owned.isIdle_of_resolveAll resolved nonempty
  exact ⟨program, compiled, _, List.mem_singleton.mpr rfl, List.mem_singleton.mpr rfl, rfl, _,
    actions, ⟨title, spot, has⟩, title, spot, nonempty,
    Post.map_entries_front _ spot front effective isDue⟩

end Stagecraft
