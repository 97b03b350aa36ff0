/-
This file shows that the two ways to find where an orientation faces agree on the reals. One
normalizes first and turns the second axis, the other turns it first and divides its components by
the square of the length; either way it is the turned axis up to its length. So it is a unit vector,
the two names of an orientation face alike, and what is turned further faces what it faced, turned.
-/

import Stagecraft.Proofs.Geometry.Quaternions

namespace Stagecraft

open Exact

namespace Quaternion

section

variable {K : Type} [Field K] [LinearOrder K] [FloorRing K] [Angles K] {orientation : Quaternion K}

theorem forward_of_zero (none : orientation.normSquared = 0) :
    orientation.forward = Vec.unitY :=
  if_pos (by simpa using none)

/-- Hosts normalize what is not zero. -/
theorem forward_eq (some : 0 < orientation.normSquared) :
    orientation.forward = orientation.normalize.rotate Vec.unitY :=
  if_neg (by simpa using some.ne')

end

/-! ### Turned axes -/

theorem forward_eq_scale {orientation : Quaternion ℝ} (some : 0 < orientation.normSquared) :
    orientation.forward =
      (orientation.rotate Vec.unitY).scale (1 / orientation.normSquared) := by
  rw [forward_eq some, rotate_normalize]

/-- What is turned further faces what it faced, turned as far. -/
theorem forward_mul {turn start : Quaternion ℝ} (turns : 0 < turn.normSquared)
    (some : 0 < start.normSquared) :
    (turn * start).forward = turn.normalize.rotate start.forward := by
  have both : 0 < (turn * start).normSquared := by
    rw [normSquared_mul]
    positivity
  rw [forward_eq_scale both, forward_eq_scale some, normSquared_mul, rotate_mul, rotate_normalize,
    rotate_scaled, Vec.scale_scale, one_div_mul_one_div_rev]

/-- The two names of an orientation face alike. -/
theorem forward_neg (orientation : Quaternion ℝ) :
    (orientation.map (- ·)).forward = orientation.forward := by
  rcases orientation.normSquared_nonneg.eq_or_lt with none | some
  · rw [forward_of_zero none.symm, forward_of_zero (by rw [normSquared_neg, none])]
  · rw [forward_eq_scale some, forward_eq_scale (by rwa [normSquared_neg]), normSquared_neg,
      rotate_neg]

theorem dot_forward (orientation : Quaternion ℝ) :
    orientation.forward.dot orientation.forward = 1 := by
  have axis : (Vec.unitY : Vec ℝ).dot Vec.unitY = 1 := by simp [Vec.unitY, Vec.dot]
  rcases orientation.normSquared_nonneg.eq_or_lt with none | some
  · rw [forward_of_zero none.symm, axis]
  · rw [forward_eq some, dot_rotate, normSquared_normalize some, axis, one_mul, one_mul]

/-! ### Products of the parts -/

theorem rotate_unitY {K : Type} [Field K] [LinearOrder K] [FloorRing K] [Angles K]
    (turn : Quaternion K) :
    turn.rotate Vec.unitY = ⟨2 * (turn.x * turn.y - turn.w * turn.z),
      turn.w * turn.w - turn.x * turn.x + turn.y * turn.y - turn.z * turn.z,
      2 * (turn.y * turn.z + turn.w * turn.x)⟩ := by
  ext
  all_goals
    refine (show (_ + _ + _ : K) = _ from ?_)
    simp [vector, Vec.dot, Vec.cross, Vec.scale, Vec.unitY]
    ring

/-- Both ways to find where an orientation faces lead to the same direction. -/
theorem forwardByProducts_eq (orientation : Quaternion ℝ) :
    orientation.forwardByProducts = orientation.forward := by
  by_cases none : orientation = ⟨0, 0, 0, 0⟩
  · rw [none, forward_of_zero (by simp [normSquared])]
    simp [forwardByProducts, Vec.unitY]
  · have some := normSquared_pos none
    have square : orientation.w * orientation.w + orientation.x * orientation.x +
        orientation.y * orientation.y + orientation.z * orientation.z =
          orientation.normSquared := by
      rw [normSquared]
      ring
    rw [forward_eq_scale some, rotate_unitY, forwardByProducts]
    simp [square, some.ne', Vec.scale, div_eq_mul_inv]

end Quaternion

end Stagecraft
