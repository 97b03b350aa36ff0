/-
This file shows that an accepted movement to face a point builds the frame that it promises. The
second axis goes to the point, the first one to the side of that and the up direction, and the third
one is at right angles to both, on the side of the up direction. The three are a frame, and its
quaternion is a unit that turns the axes to it.
-/

import Stagecraft.Proofs.Action.Acceptance
import Stagecraft.Proofs.Geometry.Frames

namespace Stagecraft

open Exact Outcome

/-! ### Directions -/

namespace Vec

section

variable {K : Type} [Field K]

theorem cross_scale (u v : Vec K) (factor : K) :
    u.cross (v.scale factor) = (u.cross v).scale factor := by
  ext <;> simp only [cross, scale] <;> ring

theorem dot_scale_right (u v : Vec K) (factor : K) :
    u.dot (v.scale factor) = u.dot v * factor := by
  simp only [dot, scale]
  ring

/-- The two products of three vectors in a row can be exchanged. -/
theorem dot_cross (u v w : Vec K) : (u.cross v).dot w = u.dot (v.cross w) := by
  simp only [cross, dot]
  ring

variable [LinearOrder K]

/-- The unit vector in the direction of another one. -/
structure IsAlong (u v : Vec K) : Prop where
  unit : u.dot u = 1
  along : ∃ factor, 0 < factor ∧ v = u.scale factor

namespace IsAlong

variable {u v w : Vec K}

theorem dot_pos (isAlong : IsAlong u v) : 0 < u.dot v := by
  obtain ⟨unit, factor, positive, rfl⟩ := isAlong
  rwa [dot_scale_right, unit, one_mul]

theorem of_scale [IsStrictOrderedRing K] {factor : K} (positive : 0 < factor)
    (isAlong : IsAlong u (v.scale factor)) : IsAlong u v := by
  obtain ⟨unit, factor', positive', same⟩ := isAlong
  refine ⟨unit, factor' * (1 / factor), by positivity, ?_⟩
  rw [← scale_scale, ← same, scale_scale, mul_one_div_cancel positive.ne', scale_one]

/-- A unit vector, the one to the side of it, and the third one make a frame. -/
theorem isFrame (isUnit : v.dot v = 1) (isAlong : IsAlong u (v.cross w)) :
    IsFrame u v (u.cross v) := by
  obtain ⟨unit, factor, positive, same⟩ := isAlong
  refine ⟨unit, isUnit, ?_, rfl⟩
  have apart : v.dot u * factor = 0 := by
    rw [← dot_scale_right, ← same]
    simp only [cross, dot]
    ring
  rw [dot, mul_comm u.x, mul_comm u.y, mul_comm u.z]
  exact (mul_eq_zero.mp apart).resolve_right positive.ne'

end IsAlong

end

theorem isAlong_normalize {u : Vec ℝ} (some : 0 < u.length) : u.normalize.IsAlong u := by
  have square : u.dot u = u.length * u.length :=
    (Real.mul_self_sqrt (Real.sqrt_pos.mp some).le).symm
  refine ⟨?_, u.length, some, ?_⟩
  · rw [normalize, dot_scale, square]
    field_simp
  · rw [normalize, scale_scale, one_div_mul_cancel some.ne', scale_one]

theorem IsDirection.length_pos {u : Vec ℝ} (isDirection : u.IsDirection) : 0 < u.length := by
  refine Real.sqrt_pos.mpr (lt_of_le_of_ne ?_ ?_)
  · exact add_nonneg (add_nonneg (mul_self_nonneg _) (mul_self_nonneg _)) (mul_self_nonneg _)
  · exact fun none => isDirection.notZero (decide_eq_true none.symm)

end Vec

/-! ### Frames -/

/-- The orientation that faces along a unit vector is a unit, and turns the axes to a frame. -/
theorem Quaternion.facing_eq_some {direction up : Vec ℝ} (isUnit : direction.dot direction = 1)
    {orientation : Quaternion ℝ} (faces : facing? direction up = some orientation) :
    orientation.normSquared = 1 ∧ ∃ side : Vec ℝ, side.IsAlong (direction.cross up) ∧
      orientation.Carries Vec.unitX Vec.unitY Vec.unitZ side direction (side.cross direction) := by
  rw [facing?] at faces
  dsimp only at faces
  split at faces
  · cases faces
  rename_i apart
  have tolerance : (0 : ℝ) < parallelTolerance := by
    show (0 : ℝ) < (1 : ℕ) / 10 ^ 9
    positivity
  have isAlong := Vec.isAlong_normalize (tolerance.trans_le (not_lt.mp apart))
  rw [← Option.some.inj faces]
  obtain ⟨unit, carries⟩ := carries_ofFrame (isAlong.isFrame isUnit)
  exact ⟨unit, _, isAlong, carries⟩

/-- The orientation of an object that faces a point, with something above it. -/
structure Quaternion.Faces (orientation : Quaternion ℝ) (source point up : Vec ℝ) : Prop where
  unit : orientation.normSquared = 1
  ahead : (orientation.rotate Vec.unitY).IsAlong (point - source)
  aside : (orientation.rotate Vec.unitX).IsAlong ((orientation.rotate Vec.unitY).cross up)
  third : orientation.rotate Vec.unitZ =
    (orientation.rotate Vec.unitX).cross (orientation.rotate Vec.unitY)
  upward : 0 < (orientation.rotate Vec.unitZ).dot up

/-! ### Movements -/

theorem Placement.position_of_source {placement : Placement ℝ} {relative : Bool}
    {source : Vec ℝ} (stands : placement.source? relative = some source) :
    placement.position = some source := by
  obtain ⟨position?, reference, rotation⟩ := placement
  cases reference <;> cases relative <;> simp_all [source?]

theorem Turn.ofRotation_lookAt_eq_ok {context : Context} {shift : Shift ℝ} {relative : Bool}
    {point up : Vec ℝ} {turn : Turn ℝ}
    (turns : ofRotation context shift relative (.lookAt point up) = .ok turn) :
    ∃ source, (relative = false ∧ shift = .absolute source none) ∧
      look context source point up = .ok turn := by
  simp only [ofRotation] at turns
  split at turns
  · cases turns
  rename_i absolute
  split at turns
  · exact ⟨_, ⟨eq_false_of_ne_true absolute, rfl⟩, turns⟩
  · cases turns

theorem Turn.look_eq_ok {context : Context} {source point up : Vec ℝ} {turn : Turn ℝ}
    (looks : look context source point up = .ok turn) :
    ∃ orientation : Quaternion ℝ, turn = .absolute orientation ∧
      orientation.Faces source point up := by
  obtain ⟨point', checked, looks⟩ := bind_eq_ok.mp looks
  obtain rfl := ((Check.checks_finiteVec point point').mp checked).2
  obtain ⟨direction, checked, looks⟩ := bind_eq_ok.mp looks
  obtain ⟨facing, rfl⟩ := (Check.checks_unit _ direction).mp checked
  obtain ⟨above, checked, looks⟩ := bind_eq_ok.mp looks
  obtain ⟨upward, rfl⟩ := (Check.checks_unit _ above).mp checked
  split at looks
  · rename_i orientation faces
    refine ⟨orientation, (pure_eq_ok.mp looks).symm, ?_⟩
    obtain ⟨unit, side, isAlong, toSide, ahead, third⟩ :=
      Quaternion.facing_eq_some (Vec.isAlong_normalize facing.length_pos).unit faces
    rw [unit, Vec.scale_one] at toSide ahead third
    rw [Vec.normalize, Vec.normalize, Vec.cross_scale, ← Vec.normalize] at isAlong
    have aside := isAlong.of_scale (one_div_pos.mpr upward.length_pos)
    refine ⟨unit, ?_, ?_, ?_, ?_⟩
    · exact ahead ▸ Vec.isAlong_normalize facing.length_pos
    · rwa [toSide, ahead]
    · rw [third, toSide, ahead]
    · rw [third, Vec.dot_cross]
      exact aside.dot_pos
  · cases looks

/-- A placement to face a point, where it is accepted, turns to a unit that takes the second axis to
the direction from its position to the point, the first one to the side of that and the up
direction, and the third one to their product, on the side of the up direction. -/
theorem Motion.faces_point {context : Context} {placement : Placement ℝ} {relative : Bool}
    {point up : Vec ℝ} (looks : placement.rotation = .lookAt point up) {motion : Motion ℝ}
    (accepted : ofPlacement context placement relative = .ok motion) :
    ∃ source orientation, placement.position = some source ∧
      motion.turn = .absolute orientation ∧ orientation.Faces source point up := by
  have turned := turn_of_ofPlacement accepted
  rw [looks] at turned
  obtain ⟨source, goes, looks⟩ := Turn.ofRotation_lookAt_eq_ok turned
  obtain ⟨orientation, absolute, faces⟩ := Turn.look_eq_ok looks
  have stands := (placement.shift_eq_absolute_iff relative source).mp goes
  exact ⟨source, orientation, Placement.position_of_source stands, absolute, faces⟩

/-- A chair in the middle of a room that is turned to one of its corners. -/
noncomputable def Placement.cornered : Placement ℝ where
  position := some ⟨0, 0, 0⟩
  reference := .center
  rotation := .lookAt ⟨1, 1, 0⟩ ⟨0, 0, 1⟩

/-- It is accepted, and turned to the corner. -/
theorem Motion.faces_point_cornered : ∃ motion orientation,
    ofPlacement (.named "chair") Placement.cornered false = .ok motion ∧
      motion.turn = .absolute orientation ∧ orientation.Faces ⟨0, 0, 0⟩ ⟨1, 1, 0⟩ ⟨0, 0, 1⟩ := by
  have diagonal : (1 * (1 / √2) * (1 * (1 / √2)) : ℝ) = 1 / 2 := by
    rw [one_mul, div_mul_div_comm, Real.mul_self_sqrt two_pos.le, one_mul]
  have canLook : Rotation.CanLook (⟨0, 0, 0⟩ : Vec ℝ) ⟨1, 1, 0⟩ ⟨0, 0, 1⟩ := by
    have away : (⟨1, 1, 0⟩ - ⟨0, 0, 0⟩ : Vec ℝ) = ⟨1, 1, 0⟩ := by
      show (⟨1 - 0, 1 - 0, 0 - 0⟩ : Vec ℝ) = _
      simp
    refine ⟨fun _ => rfl, ⟨fun _ => rfl, ?_⟩, ⟨fun _ => rfl, ?_⟩, ?_⟩
    · rw [away]
      norm_num [Vec.dot]
    · norm_num [Vec.dot]
    · have apart : (Vec.normalize ⟨1, 1, 0⟩ : Vec ℝ).cross (Vec.normalize ⟨0, 0, 1⟩) =
          ⟨1 * (1 / √2), -(1 * (1 / √2)), 0⟩ := by
        norm_num [Vec.normalize, Vec.length, Vec.dot, Vec.scale, Vec.cross]
      have unit : (⟨1 * (1 / √2), -(1 * (1 / √2)), 0⟩ : Vec ℝ).length = 1 := by
        rw [Vec.length, Vec.dot, neg_mul_neg, diagonal]
        norm_num
      rw [away, apart, unit]
      show ¬(1 : ℝ) < (1 : ℕ) / 10 ^ 9
      norm_num
  obtain ⟨motion, accepted⟩ := (succeeds_ofPlacement Placement.cornered false).mpr
    ⟨fun _ _ => ⟨fun _ => rfl, fun _ _ => rfl⟩, ⟨_, rfl, canLook⟩, .inl (Option.some_ne_none _)⟩
  obtain ⟨source, orientation, same, absolute, faces⟩ := faces_point rfl accepted
  obtain rfl := Option.some.inj same
  exact ⟨motion, orientation, accepted, absolute, faces⟩

end Stagecraft
