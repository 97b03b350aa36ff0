/-
This file proves that a direction is made of finite doubles. The components of a vector are not
above its length, so none of them is above one when it is divided by the length. But the squares are
rounded, and that of a component which is too small is lost. Then the component is so small that it
stays finite with any reciprocal of a length.
-/

import Stagecraft.Proofs.Scalar.Magnitudes
import Stagecraft.Proofs.Scene.Directions

namespace Stagecraft

open Float.Model Float.Model.UnpackedFloat Rounding

namespace Double

variable {x y : Float} {bound : ℚ}

/-! ### Bounds from below -/

theorem AtLeast.isPositive (atLeast : AtLeast bound x) : IsPositive x := by
  cases atLeast with
  | number stands => exact stands.isPositive
  | infinite unpacked => exact .infinite unpacked

theorem AtLeast.le (atLeast : AtLeast bound x) {q : ℚ} (stands : StandsFor x q) : bound ≤ q := by
  obtain ⟨mantissa, exponent, canonical, unpacked, rfl⟩ := stands
  cases atLeast with
  | number stands' low =>
    obtain ⟨mantissa', exponent', canonical', unpacked', rfl⟩ := stands'
    cases unpacked.symm.trans unpacked'
    exact low
  | infinite unpacked' => cases unpacked.symm.trans unpacked'

/-- A sum with something that is not negative keeps a bound from below. -/
theorem AtLeast.add_nonneg (atLeast : AtLeast bound x) (nonneg : 0 ≤ bound)
    (rest : y = Float.ofNat 0 ∨ IsPositive y) : AtLeast bound (x + y) ∧ AtLeast bound (y + x) := by
  rcases rest with rfl | positive
  · have same := atLeast.isPositive.add_zero
    rw [same.1, same.2]
    exact ⟨atLeast, atLeast⟩
  · have sum := atLeast.add positive
    have sum' := AtLeast.add positive atLeast
    rw [sup_eq_left.mpr nonneg] at sum
    rw [sup_eq_right.mpr nonneg] at sum'
    exact ⟨sum, sum'⟩

/-- The square of a number that is not below a power of two is not below that of the power. -/
theorem atLeast_square {sign : Sign} {mantissa : Nat} {exponent : Int} {positive : 0 < mantissa}
    (unpacked : x.toModel.unpack = .finite sign mantissa exponent positive) {least : Int}
    (notTiny : -511 ≤ least) (low : (2 : ℚ) ^ least ≤ mantissa * 2 ^ exponent) :
    AtLeast (2 ^ (2 * least)) (x * x) := by
  have square : (2 : ℚ) ^ (2 * least) ≤ mantissa * 2 ^ exponent * (mantissa * 2 ^ exponent) := by
    rw [two_mul, zpow_add₀ two_ne_zero]
    exact mul_self_le_mul_self (by positivity) low
  have large : (2 : ℚ) ^ (-1075 : Int) < 2 ^ (2 * least) :=
    zpow_lt_zpow_right₀ one_lt_two (by omega)
  obtain ⟨-, mantissa', exponent', reduced, rounds, number⟩ :=
    (mul_rounded unpacked unpacked).resolve_left fun small =>
      (large.trans_le square).not_ge small.1
  have signs : sign * sign = .positive := by cases sign <;> rfl
  rw [number, signs]
  exact atLeast_pack reduced (rounds.two_zpow_le reduced (by omega) square)

end Double

namespace Vec

variable {v : Vec Float}

open Double

/-- The square of a vector is not below those of its components. -/
theorem atLeast_dot (finite : v.IsFinite) {bound : ℚ} (nonneg : 0 ≤ bound) {axis : Axis}
    (square : AtLeast bound (v.get axis * v.get axis)) : AtLeast bound (v.dot v) := by
  have part (axis : Axis) : v.get axis * v.get axis = Float.ofNat 0 ∨
      IsPositive (v.get axis * v.get axis) :=
    (square_eq_zero_or (finite axis)).imp_right And.left
  show AtLeast bound (v.get .x * v.get .x + v.get .y * v.get .y + v.get .z * v.get .z)
  cases axis with
  | x => exact ((square.add_nonneg nonneg (part .y)).1.add_nonneg nonneg (part .z)).1
  | y => exact ((square.add_nonneg nonneg (part .x)).2.add_nonneg nonneg (part .z)).1
  | z =>
    refine (square.add_nonneg nonneg ?_).2
    cases (isSum_square (finite .x)).add (isSum_square (finite .y)) with
    | nothing isZero => exact .inl isZero
    | some positive => exact .inr positive

/-- Where a vector has a direction, the direction is made of finite numbers. -/
theorem IsNormalizable.isFinite_normalize (normalizable : v.IsNormalizable) :
    v.normalize.IsFinite := by
  obtain ⟨q, stands⟩ := normalizable.exists_standsFor
  have finite := normalizable.finite
  intro axis
  rw [get_normalize]
  have isFinite : (v.get axis).toModel.unpack.isFinite = true := finite axis
  cases unpacked : (v.get axis).toModel.unpack with
  | infinity | notANumber =>
    rw [unpacked] at isFinite
    cases isFinite
  | zero sign =>
    obtain ⟨r, reciprocal, -, high⟩ := stands.exists_reciprocal le_rfl stands.between.1
    have within : IsWithin 0 (v.get axis) := .zero sign unpacked
    refine within.isFinite_mul (by norm_num : (0 : Int) ≤ 1023) (reciprocal.isWithin high) ?_
    rw [zero_mul]
    positivity
  | finite sign mantissa exponent positive =>
    have above : (0 : ℚ) < mantissa * 2 ^ exponent := by positivity
    obtain ⟨size, low, high⟩ := exists_mem_Ico_zpow above one_lt_two
    have within := IsWithin.number unpacked high.le
    by_cases notTiny : -511 ≤ size
    · have square := atLeast_square unpacked notTiny low
      obtain ⟨r, reciprocal, -, high⟩ := stands.exists_reciprocal (by omega)
        ((atLeast_dot finite (by positivity) square).le stands)
      refine within.isFinite_mul (by norm_num : (1 : Int) ≤ 1023) (reciprocal.isWithin high) ?_
      rw [← zpow_add₀ two_ne_zero, add_neg_cancel_comm]
    · obtain ⟨r, reciprocal, -, high⟩ := stands.exists_reciprocal le_rfl stands.between.1
      refine within.isFinite_mul (by norm_num : (27 : Int) ≤ 1023) (reciprocal.isWithin high) ?_
      rw [← zpow_add₀ two_ne_zero]
      exact zpow_le_zpow_right₀ one_le_two (by omega)

end Vec

end Stagecraft
