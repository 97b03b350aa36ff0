/-
This file shows that a turn to a goal does not lose its direction on the way. Two quaternions name
the goal, and the turn notes the one on the side of the start. Each tick then goes straight on to it
and not along the arc, so the orientation is shorter than a unit meanwhile. But it stays away from
zero, and a host can normalize it.
-/

import Mathlib
import Stagecraft.Proofs.Geometry.Forward
import Stagecraft.Proofs.Program.Journeys

namespace Stagecraft

open Exact

variable {K : Type} [Field K] [LinearOrder K] [FloorRing K]

/-! ### Straight ways -/

namespace Quaternion

variable {start goal : Quaternion K} {share : K}

/-- What lies so far on the straight way from one quaternion to another. -/
def onTheWay (start goal : Quaternion K) (share : K) : Quaternion K :=
  .ofParts fun part => start.get part + share * (goal.get part - start.get part)

theorem normSquared_onTheWay : (onTheWay start goal share).normSquared =
    (1 - share) ^ 2 * start.normSquared + share ^ 2 * goal.normSquared +
      2 * share * (1 - share) * start.dot goal := by
  simp only [onTheWay, normSquared, dot, ofParts, get]
  ring

theorem nearer_eq_or (start goal : Quaternion K) :
    start.nearer goal = goal ∨ start.nearer goal = goal.map (- ·) := by
  rw [nearer]
  split
  · exact .inr (by simp [map])
  · exact .inl (by simp [map])

theorem normSquared_nearer (start goal : Quaternion K) :
    (start.nearer goal).normSquared = goal.normSquared := by
  rcases nearer_eq_or start goal with same | opposite
  · rw [same]
  · rw [opposite]
    simp [normSquared, map]

variable [IsStrictOrderedRing K]

theorem dot_nearer_nonneg (start goal : Quaternion K) : 0 ≤ start.dot (start.nearer goal) := by
  rw [nearer]
  split
  · rename_i obtuse
    have flipped : start.dot (goal.map (-1 * ·)) = -start.dot goal := by
      simp only [dot, map]
      ring
    rw [flipped]
    exact neg_nonneg.mpr obtuse.le
  · rename_i acute
    simpa [map] using acute

/-- Short of a goal on its side, what is not zero does not come to be zero. -/
theorem normSquared_onTheWay_pos (unit : goal.normSquared = 1) (acute : 0 ≤ start.dot goal)
    (some : start ≠ ⟨0, 0, 0, 0⟩) (begun : 0 ≤ share) (short : share < 1) :
    0 < (onTheWay start goal share).normSquared := by
  have rest : 0 < 1 - share := sub_pos.mpr short
  have positive := normSquared_pos some
  rw [normSquared_onTheWay, unit]
  positivity

/-- From one unit to another on its side the square is a half at least. -/
theorem half_le_normSquared_onTheWay (unit : goal.normSquared = 1) (acute : 0 ≤ start.dot goal)
    (isUnit : start.normSquared = 1) (begun : 0 ≤ share) (short : share ≤ 1) :
    1 / 2 ≤ (onTheWay start goal share).normSquared := by
  have rest : 0 ≤ 1 - share := sub_nonneg.mpr short
  have mixed : 0 ≤ 2 * share * (1 - share) * start.dot goal := by positivity
  rw [normSquared_onTheWay, unit, isUnit]
  nlinarith [sq_nonneg (2 * share - 1)]

end Quaternion

/-- Before the last tick there is some way to go, so the straight way keeps away from zero. -/
theorem Timing.normSquared_turned [IsStrictOrderedRing K] {timing : Timing K}
    (moving : 0 < timing.steps) {goal : Quaternion K} (unit : goal.normSquared = 1) (start : Quaternion K) {passed : Nat}
    (running : passed < timing.ticks) :
    let turned := start.onTheWay (start.nearer goal) (passed / timing.steps)
    (start ≠ ⟨0, 0, 0, 0⟩ → 0 < turned.normSquared) ∧
      (start.normSquared = 1 → 1 / 2 ≤ turned.normSquared) := by
  have unitNoted := (start.normSquared_nearer goal).trans unit
  have acute := start.dot_nearer_nonneg goal
  have begun : 0 ≤ (passed : K) / timing.steps := by positivity
  have short : (passed : K) / timing.steps < 1 := (div_lt_one moving).mpr (lt_steps running)
  exact ⟨fun some => Quaternion.normSquared_onTheWay_pos unitNoted acute some begun short,
    fun isUnit =>
      Quaternion.half_le_normSquared_onTheWay unitNoted acute isUnit begun short.le⟩

/-! ### Ticks of a turn -/

theorem World.get_orientationOf (world : World K) (this : String) (part : Part) :
    (world.orientationOf this).get part = world.read this (Slot.orientation part).key :=
  Quaternion.get_ofParts _ part

theorem Quaternion.get_onTheWay (start goal : Quaternion K) (share : K) (part : Part) :
    (start.onTheWay goal share).get part =
      start.get part + share * (goal.get part - start.get part) :=
  get_ofParts _ part

variable [Angles K]

/-- An object has begun an action and had so many ticks of it. In between, other logic may have run,
but it kept the notes of the action, and the orientation of the object. -/
inductive Instance.Passes (action : Instance K) (this : String) (origin : World K) :
    Nat → World K → Prop
  | begins (locals : Locals K) :
    Passes action this origin 0 (Block.runAll this locals origin action.phases.enter)
  | waits {passed : Nat} {world later : World K} : Passes action this origin passed world →
    later.hosts this → World.SharesNotes action.number this world later →
    later.orientationOf this = world.orientationOf this →
      Passes action this origin passed later
  | ticks {passed : Nat} {world : World K} (locals : Locals K) :
    Passes action this origin passed world →
      Passes action this origin (passed + 1)
        (Block.runAll this locals world action.phases.advance)

/-- So many ticks after the beginning of a turn the object holds where the turn goes to, its steps,
and an orientation on the straight way. -/
structure Instance.IsTurning (action : Instance K) (this : String) (start noted : Quaternion K)
    (passed : Nat) (world : World K) : Prop where
  hosted : world.hosts this
  goals : ∀ part, world.read this (Effect.goalSlot action.number part).key = noted.get part
  turns : ∀ part, world.read this (Effect.turnSlot action.number part).key =
    (noted.get part - start.get part) / action.timing.steps
  orientation : world.orientationOf this = start.onTheWay noted (passed / action.timing.steps)

namespace Instance

variable {action : Instance K} {this : String} {shift : Shift K} {goal : Quaternion K}
  (timed : action.isTimed) (turns : action.effect = .move ⟨shift, .absolute goal⟩)

include timed turns

theorem isTurning_zero {origin : World K} (hosted : origin.hosts this) (locals : Locals K) :
    let start := origin.orientationOf this
    action.IsTurning this start (start.nearer goal) 0
      (Block.runAll this locals origin action.phases.enter) := by
  intro start
  have begins : action.phases.enter = Effect.beginMotion action.number action.timing.steps
      ⟨shift, .absolute goal⟩ := by
    rw [phases_of_timed timed, turns]
    rfl
  have onlyNotes : Block.WritesOnly (fun _ slot => slot.IsNote action.number) this
      action.phases.enter := by
    rw [begins]
    exact Effect.writesOnly_beginMotion (fun _ isNote => isNote) _
  refine ⟨by rwa [Block.hosts_runAll], fun part => ?_, fun part => ?_, ?_⟩
  · rw [begins]
    exact (Effect.read_beginMotion_of_turn hosted _ rfl part).1
  · rw [begins, World.get_orientationOf]
    exact (Effect.read_beginMotion_of_turn hosted _ rfl part).2
  · refine Quaternion.ext_get fun part => ?_
    rw [Quaternion.get_onTheWay, World.get_orientationOf, World.get_orientationOf,
      onlyNotes.read_runAll (by simp [Slot.IsNote, Slot.orientation]), Nat.cast_zero, zero_div,
      zero_mul, add_zero]

theorem isTurning_succ {start noted : Quaternion K} {passed : Nat} {world : World K}
    (turning : action.IsTurning this start noted passed world) (locals : Locals K) :
    action.IsTurning this start noted (passed + 1)
      (Block.runAll this locals world action.phases.advance) := by
  have advances : action.phases.advance = action.effect.advance action.number
      action.timing.steps := by
    rw [phases_of_timed timed]
  have kept : Block.WritesOnly (fun _ slot => ¬slot.IsNote action.number) this
      action.phases.advance := by
    rw [advances]
    exact Effect.writesOnly_advance (fun _ settles => settles.not_isNote _) _
  refine ⟨by rw [Block.hosts_runAll, turning.hosted], fun part => ?_, fun part => ?_, ?_⟩
  · exact (kept.read_runAll (not_not.mpr ⟨.goal part, by simp, by simp, rfl⟩) _ _).trans
      (turning.goals part)
  · exact (kept.read_runAll (not_not.mpr ⟨.turn part, by simp, by simp, rfl⟩) _ _).trans
      (turning.turns part)
  · refine Quaternion.ext_get fun part => ?_
    have before := congrArg (·.get part) turning.orientation
    simp only [World.get_orientationOf, Quaternion.get_onTheWay] at before
    rw [World.get_orientationOf, advances, turns, Effect.advance,
      Effect.read_advanceMotion_orientation turning.hosted _ rfl, before, turning.turns,
      Quaternion.get_onTheWay]
    push_cast
    ring

theorem isTurning_of_passes {origin world : World K} (hosted : origin.hosts this) {passed : Nat}
    (passes : action.Passes this origin passed world) :
    let start := origin.orientationOf this
    action.IsTurning this start (start.nearer goal) passed world := by
  induction passes with
  | begins locals => exact isTurning_zero timed turns hosted locals
  | waits _ hostedLater shared sameTurn turning =>
    refine ⟨hostedLater, fun part => ?_, fun part => ?_, sameTurn.trans turning.orientation⟩
    · exact (shared _ ⟨.goal part, by simp, by simp, rfl⟩).trans (turning.goals part)
    · exact (shared _ ⟨.turn part, by simp, by simp, rfl⟩).trans (turning.turns part)
  | ticks locals _ turning => exact isTurning_succ timed turns turning locals

end Instance

/-! ### Directions -/

variable [IsStrictOrderedRing K]

namespace Instance

variable {action : Instance K} {this : String} {shift : Shift K} {goal : Quaternion K}

/-- In exact arithmetic a turn to a unit goes to the one of its two names that is on the side of the
start. Unless the start is zero, no orientation before the last tick is zero, so hosts normalize it;
from a unit the square does not come below a half. -/
theorem turns_along_short_arc (timed : action.isTimed) (moving : 0 < action.timing.steps)
    (turns : action.effect = .move ⟨shift, .absolute goal⟩) (unit : goal.normSquared = 1)
    {origin : World K} (hosted : origin.hosts this) :
    let start := origin.orientationOf this
    ∃ noted : Quaternion K, (noted = goal ∨ noted = goal.map (- ·)) ∧ 0 ≤ start.dot noted ∧
      (∀ locals part, (Block.runAll this locals origin action.phases.enter).read this
        (Effect.goalSlot action.number part).key = noted.get part) ∧
      ∀ passed world, action.Passes this origin passed world → passed < action.ticks →
        let turned := world.orientationOf this
        (start ≠ ⟨0, 0, 0, 0⟩ → 0 < turned.normSquared ∧
          turned.forward = turned.normalize.rotate Vec.unitY) ∧
        (start.normSquared = 1 → 1 / 2 ≤ turned.normSquared) := by
  intro start
  refine ⟨start.nearer goal, start.nearer_eq_or goal, start.dot_nearer_nonneg goal,
    fun locals => (isTurning_zero timed turns hosted locals).goals,
    fun passed world passes running => ?_⟩
  have turned := (isTurning_of_passes timed turns hosted passes).orientation
  obtain ⟨some, isUnit⟩ := action.timing.normSquared_turned moving unit start running
  rw [← turned] at some isUnit
  exact ⟨fun apart => ⟨some apart, Quaternion.forward_eq (some apart)⟩, isUnit⟩

/-- As long as nothing else turns the target of a turn, it is not seen without a direction either,
in any frame of a run before the last tick. -/
theorem seen_off_zero {rate : K} {scene : Scene K} {program : Program K}
    (compiled : Program.compile rate scene = .ok program)
    (member : action ∈ Program.instances rate scene) (timed : action.isTimed)
    (moving : 0 < action.timing.steps) (turns : action.effect = .move ⟨shift, .absolute goal⟩)
    (unit : goal.normSquared = 1) {target : String} (targeted : target ∈ action.targets)
    (visits : Nat → List (Visit K)) {first frames : Nat} {before rest : List (Event K)}
    {found : World K} (begins : (Run.ofScene program scene visits).trace first =
      before ++ .entered target action.opening found :: rest)
    (left : ∀ part, (Run.ofScene program scene visits).LeavesAlone action target
      (.orientation part) first rest frames) :
    let start := found.orientationOf target
    let seen (passed : Nat) := Quaternion.ofParts fun part =>
      (Run.ofScene program scene visits).along target (.orientation part) first
        (start.get part) passed
    ∀ passed ≤ frames, passed < action.ticks →
      (start ≠ ⟨0, 0, 0, 0⟩ → 0 < (seen passed).normSquared) ∧
        (start.normSquared = 1 → 1 / 2 ≤ (seen passed).normSquared) := by
  obtain ⟨layout⟩ := Program.exists_layout compiled
  intro start seen passed within running
  have onTheWay : seen passed =
      start.onTheWay (start.nearer goal) (passed / action.timing.steps) := by
    refine Quaternion.ext_get fun part => ?_
    have leads : action.effect.Leads found target (.orientation part)
        ((start.nearer goal).get part) := turns ▸ .turn shift goal part
    obtain ⟨begun, come⟩ :=
      layout.hasCome_along member timed targeted visits leads moving begins (left part)
    rw [Quaternion.get_ofParts, Quaternion.get_onTheWay]
    cases passed with
    | zero =>
      rw [Nat.cast_zero, zero_div, zero_mul, add_zero]
      rfl
    | succ passed =>
      refine ((come passed within (Nat.lt_of_succ_lt running)).further running).2.trans ?_
      rw [World.get_orientationOf]
      ring
  rw [onTheWay]
  exact action.timing.normSquared_turned moving unit start running

/-- A vane turns for a second and a half, with one tick in a second. -/
def vane : Instance ℚ where
  number := 0
  label := "move"
  targets := ["vane"]
  timing := ⟨3 / 2, 1⟩
  effect := .move ⟨.stay, .absolute ⟨0, 1, 0, 0⟩⟩

end Instance

/-- The vane is more than half a turn away from where it goes. -/
def World.windless : World ℚ :=
  ((World.blank.write "vane" (Slot.orientation .w).key (3 / 5)).write "vane"
    (Slot.orientation .x).key (-4 / 5))

/-- It turns the other way, and after a tick it is still long enough. -/
theorem Instance.turns_along_short_arc_vane :
    letI := unturned
    vane.isTimed ∧ 0 < vane.timing.steps ∧ World.windless.hosts "vane" ∧
      ∃ world, vane.Passes "vane" World.windless 1 world ∧ 1 < vane.ticks ∧
        1 / 2 ≤ (world.orientationOf "vane").normSquared := by
  let _ := unturned
  have timed : vane.isTimed = true := by decide +kernel
  have moving : 0 < vane.timing.steps := by decide +kernel
  have several : 1 < vane.ticks := by decide +kernel
  have isUnit : (World.windless.orientationOf "vane").normSquared = 1 := by decide +kernel
  have passes : vane.Passes "vane" World.windless 1 _ := (Passes.begins []).ticks []
  obtain ⟨noted, -, -, -, turned⟩ :=
    turns_along_short_arc timed moving rfl (by decide +kernel)
      (show World.windless.hosts "vane" = true by decide +kernel)
  exact ⟨timed, moving, by decide +kernel, _, passes, several, (turned 1 _ passes several).2 isUnit⟩

end Stagecraft
