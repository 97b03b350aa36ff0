/-
This file says which values pass the checks that actions, conditions and timelines share, and what
is passed on: a number as it is, a direction normalized. What a directory is asked for it finds
where the scene that it was made of declares it.
-/

import Stagecraft.Proofs.Scene.Validity
import Stagecraft.Scene.Checks

namespace Stagecraft

variable {α : Type}

/-! ### Values -/

theorem Axis.forall_iff {holds : Axis → Prop} :
    (∀ axis, holds axis) ↔ holds .x ∧ holds .y ∧ holds .z := by
  constructor
  · exact fun each => ⟨each .x, each .y, each .z⟩
  · rintro ⟨x, y, z⟩ axis
    cases axis with
    | x => exact x
    | y => exact y
    | z => exact z

theorem Vec.isFinite_iff [Scalar α] {u : Vec α} :
    u.IsFinite ↔ ∀ value ∈ u.toList, Scalar.isFinite value := by
  simp [IsFinite, Axis.forall_iff, get, toList]

theorem Vec.infinite_eq_none_iff [Scalar α] {u : Vec α} : u.infinite? = none ↔ u.IsFinite := by
  simp [infinite?, isFinite_iff]

namespace Check

open Outcome

section

variable [Scalar α] {context : Context} {parameter : Parameter}

theorem checks_duration (value : α) :
    Checks (duration context value) (Scalar.isMagnitude value) value :=
  checks_ite

theorem checks_magnitude (value : α) :
    Checks (magnitude context parameter value) (Scalar.isMagnitude value) value :=
  checks_ite

theorem checks_finite (value : α) :
    Checks (finite context parameter value) (Scalar.isFinite value) value :=
  checks_ite

theorem checks_finiteVec (value : Vec α) :
    Checks (finiteVec context parameter value) value.IsFinite value := by
  intro found
  rw [finiteVec, ← Vec.infinite_eq_none_iff]
  cases value.infinite? <;> simp

end

variable [Trigonometric α] {context : Context} {parameter : Parameter}

theorem checks_unit (value : Vec α) :
    Checks (unit context parameter value) value.IsDirection value.normalize := by
  intro found
  rw [unit, (checks_finiteVec value).bind checks_ite_not found, Vec.isDirection_iff]

theorem checks_direction (value : Vec α) :
    Checks (direction context parameter value) value.IsNormalizable value.normalize := by
  rw [Vec.isNormalizable_iff]
  refine (checks_finiteVec value).bind fun found => ?_
  rw [Vec.normalize?]
  split <;> simp_all [Vec.normalize]

end Check

/-! ### Names -/

section

variable {scene : Scene α} {directory : Directory α} {context : Context}
  (sound : Directory.ofScene scene = .ok directory)

include sound

namespace Directory

theorem checks_requireObject (id : String) :
    Outcome.Checks (directory.requireObject context id) (scene.Addresses id) () := by
  rintro ⟨⟩
  rw [requireObject_eq_ok, isAddressable_iff, isObject_iff, objects_ofScene sound, List.mem_map]
  simp only [Scene.mem_walk_iff, Scene.Addresses, and_true]

theorem succeeds_groupMembers (name : String) :
    Outcome.Succeeds (directory.groupMembers context name) ↔ scene.DeclaresGroup name := by
  rw [Outcome.Succeeds, exists_groupMembers_iff, names_ofScene sound, mem_sorted, List.mem_map]
  rfl

theorem succeeds_timelineOwner (name : String) :
    Outcome.Succeeds (directory.timelineOwner context name) ↔ scene.DeclaresTimeline name := by
  rw [Outcome.Succeeds, exists_timelineOwner_iff, objects_ofScene sound, List.mem_flatMap]
  simp only [Scene.mem_walk_iff, Scene.DeclaresTimeline]

theorem succeeds_triggerOwner (name : String) :
    Outcome.Succeeds (directory.triggerOwner context name) ↔ scene.DeclaresTrigger name := by
  rw [Outcome.Succeeds, exists_triggerOwner_iff, objects_ofScene sound, List.mem_flatMap]
  simp only [Scene.mem_walk_iff, Scene.DeclaresTrigger]

end Directory

end

end Stagecraft
