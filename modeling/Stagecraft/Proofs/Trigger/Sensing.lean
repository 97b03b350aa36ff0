/-
This file reads the sensor of a condition back as a case of a relation. Every object that the sensor
looks at was looked up, its points and boxes were found finite and its thresholds in range, and
directions were normalized.
-/

import Stagecraft.Proofs.Scene.Checks
import Stagecraft.Trigger.Resolution

namespace Stagecraft

namespace Sensor

variable {α : Type} [Trigonometric α] {directory : Directory α} {context : Context}

/-- What sensor a condition gives, if one can be made. -/
inductive Made (directory : Directory α) : Condition α → Sensor α → Prop
  | orientation (subject : Subject) (direction : Vec α) (angle : α) :
    directory.isAddressable subject.id → direction.IsNormalizable → Scalar.isMagnitude angle →
    Made directory (.orientation subject direction angle)
      (.orientation subject.id direction.normalize angle)
  | nearPoint (subject : Subject) (position : Vec α) (distance : α) :
    directory.isAddressable subject.id → position.IsFinite → Scalar.isMagnitude distance →
    Made directory (.proximity subject (.point position) distance)
      (.proximity subject.id (.point position) distance)
  | nearObject (subject : Subject) (id : String) (distance : α) :
    directory.isAddressable subject.id → directory.isAddressable id → Scalar.isMagnitude distance →
    Made directory (.proximity subject (.object id) distance)
      (.proximity subject.id (.object id) distance)
  | atPoint (position : Vec α) (angle : α) : position.IsFinite → Scalar.isMagnitude angle →
    Made directory (.lookAt (.point position) angle) (.lookAt (.point position) angle)
  | along (direction : Vec α) (angle : α) : direction.IsNormalizable → Scalar.isMagnitude angle →
    Made directory (.lookAt (.direction direction) angle)
      (.lookAt (.direction direction.normalize) angle)
  | atObject (id : String) (angle : α) : directory.isAddressable id → Scalar.isMagnitude angle →
    Made directory (.lookAt (.object id) angle) (.lookAt (.object id) angle)
  | movement (subject : Subject) (distance : α) :
    directory.isAddressable subject.id → Scalar.isMagnitude distance →
    Made directory (.movement subject distance) (.movement subject.id distance)
  | volume (subject : Subject) (least greatest : Vec α) (crossing : Crossing) :
    directory.isAddressable subject.id → least.IsFinite → greatest.IsFinite →
    Made directory (.volume subject least greatest crossing)
      (.volume subject.id least greatest crossing)

omit [Trigonometric α] in
theorem known_of_subject {subject : Subject} {id : String}
    (checked : Check.subject directory context subject = .ok id) :
    directory.isAddressable subject.id ∧ subject.id = id := by
  obtain ⟨⟨⟩, required, built⟩ := Outcome.bind_eq_ok.mp checked
  exact ⟨Directory.isAddressable_of_required required, Outcome.pure_eq_ok.mp built⟩

theorem made_of_ofCondition {condition : Condition α} {sensor : Sensor α}
    (sensed : ofCondition directory context condition = .ok sensor) :
    Made directory condition sensor := by
  cases condition with
  | orientation subject direction angle =>
    obtain ⟨_, checked, sensed⟩ := Outcome.bind_eq_ok.mp sensed
    obtain ⟨_, directed, sensed⟩ := Outcome.bind_eq_ok.mp sensed
    obtain ⟨_, measured, built⟩ := Outcome.bind_eq_ok.mp sensed
    obtain ⟨known, rfl⟩ := known_of_subject checked
    obtain ⟨normalizable, rfl⟩ := (Check.checks_direction _ _).mp directed
    obtain ⟨inRange, rfl⟩ := (Check.checks_magnitude _ _).mp measured
    rw [← Outcome.pure_eq_ok.mp built]
    exact .orientation subject direction angle known normalizable inRange
  | proximity subject anchor distance =>
    obtain ⟨_, checked, sensed⟩ := Outcome.bind_eq_ok.mp sensed
    obtain ⟨_, anchored, sensed⟩ := Outcome.bind_eq_ok.mp sensed
    obtain ⟨_, measured, built⟩ := Outcome.bind_eq_ok.mp sensed
    obtain ⟨known, rfl⟩ := known_of_subject checked
    obtain ⟨inRange, rfl⟩ := (Check.checks_magnitude _ _).mp measured
    rw [← Outcome.pure_eq_ok.mp built]
    cases anchor with
    | point position =>
      obtain ⟨_, placed, built⟩ := Outcome.bind_eq_ok.mp anchored
      obtain ⟨finite, rfl⟩ := (Check.checks_finiteVec _ _).mp placed
      rw [← Outcome.pure_eq_ok.mp built]
      exact .nearPoint subject position distance known finite inRange
    | object id =>
      obtain ⟨⟨⟩, required, built⟩ := Outcome.bind_eq_ok.mp anchored
      rw [← Outcome.pure_eq_ok.mp built]
      exact .nearObject subject id distance known (Directory.isAddressable_of_required required)
        inRange
  | lookAt target angle =>
    obtain ⟨_, looked, sensed⟩ := Outcome.bind_eq_ok.mp sensed
    obtain ⟨_, measured, built⟩ := Outcome.bind_eq_ok.mp sensed
    obtain ⟨inRange, rfl⟩ := (Check.checks_magnitude _ _).mp measured
    rw [← Outcome.pure_eq_ok.mp built]
    cases target with
    | point position =>
      obtain ⟨_, placed, built⟩ := Outcome.bind_eq_ok.mp looked
      obtain ⟨finite, rfl⟩ := (Check.checks_finiteVec _ _).mp placed
      rw [← Outcome.pure_eq_ok.mp built]
      exact .atPoint position angle finite inRange
    | direction direction =>
      obtain ⟨_, directed, built⟩ := Outcome.bind_eq_ok.mp looked
      obtain ⟨normalizable, rfl⟩ := (Check.checks_direction _ _).mp directed
      rw [← Outcome.pure_eq_ok.mp built]
      exact .along direction angle normalizable inRange
    | object id =>
      rw [Check.lookTarget] at looked
      split at looked
      · cases looked
      · obtain ⟨⟨⟩, required, built⟩ := Outcome.bind_eq_ok.mp looked
        rw [← Outcome.pure_eq_ok.mp built]
        exact .atObject id angle (Directory.isAddressable_of_required required) inRange
  | movement subject distance =>
    obtain ⟨_, checked, sensed⟩ := Outcome.bind_eq_ok.mp sensed
    obtain ⟨_, measured, built⟩ := Outcome.bind_eq_ok.mp sensed
    obtain ⟨known, rfl⟩ := known_of_subject checked
    obtain ⟨inRange, rfl⟩ := (Check.checks_magnitude _ _).mp measured
    rw [← Outcome.pure_eq_ok.mp built]
    exact .movement subject distance known inRange
  | volume subject least greatest crossing =>
    obtain ⟨_, checked, sensed⟩ := Outcome.bind_eq_ok.mp sensed
    obtain ⟨_, low, sensed⟩ := Outcome.bind_eq_ok.mp sensed
    obtain ⟨_, high, sensed⟩ := Outcome.bind_eq_ok.mp sensed
    obtain ⟨⟨⟩, -, built⟩ := Outcome.bind_eq_ok.mp sensed
    obtain ⟨known, rfl⟩ := known_of_subject checked
    obtain ⟨finite, rfl⟩ := (Check.checks_finiteVec _ _).mp low
    obtain ⟨finite', rfl⟩ := (Check.checks_finiteVec _ _).mp high
    rw [← Outcome.pure_eq_ok.mp built]
    exact .volume subject least greatest crossing known finite finite'

/-- A trigger near an object watches the distance from it. -/
theorem eq_of_nearObject {trigger : Trigger α} {sensor : Sensor α}
    (sensed : trigger.sensor directory context = .ok sensor) {subject : Subject} {id : String}
    {distance : α} (isNear : trigger.condition = .proximity subject (.object id) distance) :
    sensor = .proximity subject.id (.object id) distance := by
  obtain ⟨_, -, built⟩ := Outcome.bind_eq_ok.mp sensed
  rw [isNear] at built
  cases made_of_ofCondition built with
  | nearObject => rfl

end Sensor

end Stagecraft
