/-
This file shows that a trigger has a sensor exactly when its condition is valid and the width of its
band is in range. A box is looked at from both sides: it is valid if no side is turned around, and
the check refuses it if some side is, which is the same for finite numbers.
-/

import Stagecraft.Proofs.Scalar.Laws
import Stagecraft.Proofs.Scene.Checks
import Stagecraft.Trigger.Resolution

namespace Stagecraft

open Outcome

variable {α : Type} [Trigonometric α] {context : Context}

namespace Check

theorem checks_box [Comparing α] {least greatest : Vec α} (finite : least.IsFinite)
    (finite' : greatest.IsFinite) :
    Checks (box context least greatest) (∀ axis, least.get axis ≤ greatest.get axis) () := by
  have ordered : (∀ axis, least.get axis ≤ greatest.get axis) ↔
      Axis.all.find? (fun axis => decide (greatest.get axis < least.get axis)) = none := by
    rw [List.find?_eq_none]
    have each (axis : Axis) := Comparing.le_iff_not_lt _ _ (finite axis) (finite' axis)
    constructor
    · intro inOrder axis _
      simpa using (each axis).mp (inOrder axis)
    · intro noneTurned axis
      exact (each axis).mpr (by simpa using noneTurned axis (by cases axis <;> decide))
  rintro ⟨⟩
  rw [box, ordered]
  cases Axis.all.find? fun axis => decide (greatest.get axis < least.get axis) <;> simp

variable {scene : Scene α} {directory : Directory α}
  (sound : Directory.ofScene scene = .ok directory)

include sound

omit [Trigonometric α] in
theorem checks_subject (value : Subject) :
    Checks (subject directory context value) (scene.Addresses value.id) value.id := by
  intro found
  rw [subject, bind_eq_ok]
  simp [Directory.checks_requireObject sound _ ()]

theorem succeeds_anchor (value : Anchor α) :
    Succeeds (anchor directory context value) ↔ value.IsValid scene := by
  cases value with
  | point position =>
    rw [anchor, (checks_finiteVec position).succeeds_bind]
    simp [Anchor.IsValid]
  | object id =>
    rw [anchor, (Directory.checks_requireObject sound id).succeeds_bind]
    simp [Anchor.IsValid]

theorem succeeds_lookTarget (value : LookTarget α) :
    Succeeds (lookTarget directory context value) ↔ value.IsValid scene := by
  cases value with
  | point position =>
    rw [lookTarget, (checks_finiteVec position).succeeds_bind]
    simp [LookTarget.IsValid]
  | direction towards =>
    rw [lookTarget, (checks_direction towards).succeeds_bind]
    simp [LookTarget.IsValid]
  | object id =>
    rw [lookTarget, LookTarget.IsValid]
    split
    · simp [*]
    · rw [(Directory.checks_requireObject sound id).succeeds_bind]
      simp [*]

end Check

variable {scene : Scene α} {directory : Directory α}
  (sound : Directory.ofScene scene = .ok directory)

include sound

theorem Sensor.succeeds_ofCondition [Comparing α] (condition : Condition α) :
    Succeeds (ofCondition directory context condition) ↔ condition.IsValid scene := by
  cases condition with
  | orientation subject direction angle =>
    rw [ofCondition, (Check.checks_subject sound subject).succeeds_bind,
      (Check.checks_direction direction).succeeds_bind,
      (Check.checks_magnitude angle).succeeds_bind]
    simp [Condition.IsValid]
  | proximity subject anchor distance =>
    rw [ofCondition, (Check.checks_subject sound subject).succeeds_bind, Condition.IsValid,
      ← Check.succeeds_anchor sound]
    exact and_congr_right fun _ => succeeds_bind fun _ _ =>
      (Check.checks_magnitude distance).succeeds_bind.trans (and_iff_left succeeds_pure)
  | lookAt target angle =>
    rw [Condition.IsValid, ← Check.succeeds_lookTarget sound]
    exact succeeds_bind fun _ _ =>
      (Check.checks_magnitude angle).succeeds_bind.trans (and_iff_left succeeds_pure)
  | movement subject distance =>
    rw [ofCondition, (Check.checks_subject sound subject).succeeds_bind,
      (Check.checks_magnitude distance).succeeds_bind]
    simp [Condition.IsValid]
  | volume subject least greatest crossing =>
    rw [ofCondition, (Check.checks_subject sound subject).succeeds_bind,
      (Check.checks_finiteVec least).succeeds_bind,
      (Check.checks_finiteVec greatest).succeeds_bind, Condition.IsValid]
    refine and_congr_right fun _ => and_congr_right fun finite => and_congr_right fun finite' => ?_
    rw [(Check.checks_box finite finite').succeeds_bind]
    simp

theorem Trigger.succeeds_sensor [Comparing α] (trigger : Trigger α) :
    Succeeds (trigger.sensor directory context) ↔
      Scalar.isMagnitude trigger.epsilon ∧ trigger.condition.IsValid scene := by
  rw [sensor, (Check.checks_magnitude trigger.epsilon).succeeds_bind,
    Sensor.succeeds_ofCondition sound]

end Stagecraft
