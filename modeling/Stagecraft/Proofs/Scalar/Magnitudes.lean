/-
This file says which arithmetic on doubles stays finite. A result that would not be above `2 ^ 1023`
is rounded to a finite double, however small it is; a quotient by zero never is one.
-/

import Stagecraft.Proofs.Scalar.Scheduling

namespace Stagecraft

open Float.Model Float.Model.UnpackedFloat Rounding

namespace Rounding

variable {mantissa : Nat} {exponent greatest : Int} {x : ℚ}

/-! ### Results -/

/-- What is not above a power of two that is a double has an exponent that fits. -/
theorem RoundsTo.isCanonical (rounds : RoundsTo mantissa exponent x)
    (reduced : IsReduced mantissa exponent) (high : x ≤ 2 ^ greatest) (notHuge : greatest ≤ 1023) :
    IsCanonical mantissa exponent := by
  refine ⟨reduced, ?_⟩
  by_contra huge
  have full : (2 ^ 52 : ℚ) ≤ mantissa := by
    exact_mod_cast reduced.full.resolve_right (by omega)
  have unit : (0 : ℚ) < 2 ^ exponent := by positivity
  have bound : (2 ^ 52 - 1 / 2 : ℚ) * 2 ^ exponent ≤ 2 ^ (51 : Int) * 2 ^ exponent :=
    calc (2 ^ 52 - 1 / 2 : ℚ) * 2 ^ exponent ≤ (mantissa - 1 / 2) * 2 ^ exponent :=
          mul_le_mul_of_nonneg_right (by linarith) unit.le
      _ ≤ 2 ^ greatest := rounds.half_le.trans high
      _ ≤ 2 ^ (51 + exponent) := zpow_le_zpow_right₀ one_le_two (by omega)
      _ = 2 ^ (51 : Int) * 2 ^ exponent := zpow_add₀ two_ne_zero _ _
  have less := le_of_mul_le_mul_right bound unit
  norm_num at less

/-- The result is packed into a finite double. -/
def Fits (result : UnpackedFloat) : Prop :=
  (Float.Model.pack result).unpack.isFinite = true

theorem fits_zero (sign : Sign) : Fits (.zero sign) := by
  cases sign <;> rfl

theorem fits_finite (canonical : IsCanonical mantissa exponent) (sign : Sign) :
    Fits (.finite sign mantissa exponent canonical.pos) :=
  congrArg UnpackedFloat.isFinite (unpack_pack canonical sign)

theorem IsRounding.fits {sign : Sign} {result : UnpackedFloat} (rounding : IsRounding sign x result)
    (nonneg : 0 ≤ x) (high : x ≤ 2 ^ greatest) (notHuge : greatest ≤ 1023) : Fits result := by
  rcases le_or_gt x (2 ^ (-1075 : Int)) with small | large
  · rw [rounding.eq_zero nonneg small]
    exact fits_zero sign
  · obtain ⟨mantissa, exponent, reduced, rounds⟩ := exists_roundsTo large
    rw [rounding.eq reduced rounds]
    exact fits_finite (rounds.isCanonical reduced high notHuge) sign

theorem abs_apply (sign : Sign) (count : Nat) : |sign.apply (count : Int)| = count := by
  cases sign with
  | positive => exact abs_of_nonneg (Int.natCast_nonneg count)
  | negative => exact (abs_neg _).trans (abs_of_nonneg (Int.natCast_nonneg count))

theorem fits_normalize {count shift : Int} (high : |(count : ℚ)| * 2 ^ shift ≤ 2 ^ greatest)
    (notHuge : greatest ≤ 1023) (sign : Sign) :
    Fits (UnpackedFloat.normalize Format.binary64 count shift sign) := by
  have whole {size : Nat} (nonzero : size ≠ 0) (same : (size : ℚ) = |(count : ℚ)|) (sign : Sign) :
      Fits (UnpackedFloat.round Format.binary64 sign size shift) :=
    (isRounding_round nonzero shift sign).fits (by positivity) (same ▸ high) notHuge
  rw [UnpackedFloat.normalize]
  rcases lt_trichotomy count 0 with below | rfl | above
  · rw [compare_lt_iff_lt.mpr below]
    refine whole (by omega) ?_ .negative
    rw [abs_of_neg (by exact_mod_cast below)]
    exact_mod_cast Int.toNat_of_nonneg (by omega : 0 ≤ -count)
  · exact fits_zero sign
  · rw [compare_gt_iff_gt.mpr above]
    refine whole (by omega) ?_ .positive
    rw [abs_of_pos (by exact_mod_cast above)]
    exact_mod_cast Int.toNat_of_nonneg above.le

end Rounding

namespace Double

/-- The double is a number, and not above the bound without its sign. -/
inductive IsWithin (bound : ℚ) (x : Float) : Prop
  | zero (sign : Sign) : x.toModel.unpack = .zero sign → IsWithin bound x
  | number {sign : Sign} {mantissa : Nat} {exponent : Int} {positive : 0 < mantissa} :
    x.toModel.unpack = .finite sign mantissa exponent positive →
    (mantissa : ℚ) * 2 ^ exponent ≤ bound → IsWithin bound x

variable {x y : Float} {bound bound' q : ℚ} {greatest : Int} (notHuge : greatest ≤ 1023)

theorem StandsFor.isWithin (stands : StandsFor x q) (atMost : q ≤ bound) : IsWithin bound x := by
  obtain ⟨mantissa, exponent, canonical, unpacked, rfl⟩ := stands
  exact .number unpacked atMost

theorem IsWithin.isFinite (within : IsWithin bound x) : Scalar.isFinite x := by
  show x.toModel.unpack.isFinite = true
  cases within with
  | zero sign unpacked =>
    rw [unpacked]
    rfl
  | number unpacked =>
    rw [unpacked]
    rfl

theorem IsWithin.mono (within : IsWithin bound x) (larger : bound ≤ bound') : IsWithin bound' x := by
  cases within with
  | zero sign unpacked => exact .zero sign unpacked
  | number unpacked atMost => exact .number unpacked (atMost.trans larger)

/-- A double is within a positive one if its size is not above it. -/
theorem StandsFor.isWithin_of_abs_le (stands : StandsFor y q) (atMost : Float.abs x ≤ y) :
    IsWithin q x := by
  have size : Float.abs x = Float.ofModel (Float.Model.pack x.toModel.unpack.abs) := rfl
  cases unpacked : x.toModel.unpack with
  | zero sign => exact .zero sign unpacked
  | infinity sign =>
    obtain ⟨_, _, _, unpacked', -⟩ := stands
    have infinite : Float.abs x = Float.ofModel (Float.Model.pack (.infinity .positive)) := by
      rw [size, unpacked]
      rfl
    rw [infinite] at atMost
    exact absurd rfl ((le_of_compare (by rw [unpacked']; rfl)).mp atMost)
  | notANumber =>
    rw [size, unpacked] at atMost
    cases of_decide_eq_true atMost
  | finite sign mantissa exponent positive =>
    have sized : StandsFor (Float.abs x) (mantissa * 2 ^ exponent) := by
      rw [size, unpacked]
      exact standsFor_pack (isCanonical_of_unpack unpacked)
    rw [le_of_compare (sized.compare_eq stands), compare_le_iff_le] at atMost
    exact .number unpacked atMost

/-- The size of the double is far below the greatest one. -/
def IsModerate (x : Float) : Prop :=
  Scalar.abs x ≤ 1e298

instance : Decidable (IsModerate x) :=
  inferInstanceAs (Decidable (Scalar.abs x ≤ 1e298))

theorem IsModerate.isWithin (moderate : IsModerate x) : IsWithin (2 ^ (990 : Int)) x := by
  have seen : ofFloat 1e298 = .number false 8607837561916492 937 := by decide +kernel
  have most : ((8607837561916492 : Nat) : ℚ) * 2 ^ (937 : Int) ≤ 2 ^ (990 : Int) := by
    rw [show (990 : Int) = 53 + 937 from rfl, zpow_add₀ two_ne_zero]
    exact mul_le_mul_of_nonneg_right (by norm_num) (by positivity)
  exact ((standsFor_of_ofFloat (by decide) seen).2.isWithin_of_abs_le moderate).mono most

/-! ### Quotients -/

/-- Nothing can be divided by zero. -/
theorem not_isFinite_div_zero (x : Float) : ¬Scalar.isFinite (x / Float.ofNat 0) := by
  show ¬Fits (UnpackedFloat.div Format.binary64 x.toModel.unpack (Float.ofNat 0).toModel.unpack)
  have infinite (sign : Sign) : ¬Fits (.infinity sign) := by
    cases sign <;> exact Bool.false_ne_true
  rw [unpack_zero]
  cases x.toModel.unpack with
  | finite sign | infinity sign => exact infinite _
  | zero sign => cases sign <;> exact Bool.false_ne_true
  | notANumber => exact Bool.false_ne_true

include notHuge

theorem IsWithin.isFinite_div (within : IsWithin bound x) (stands : StandsFor y q)
    (high : bound / q ≤ 2 ^ greatest) : Scalar.isFinite (x / y) := by
  obtain ⟨mantissa', exponent', canonical, unpacked', rfl⟩ := stands
  show Fits (UnpackedFloat.div Format.binary64 x.toModel.unpack y.toModel.unpack)
  rw [unpacked']
  cases within with
  | zero sign unpacked =>
    rw [unpacked]
    exact fits_zero _
  | number unpacked atMost =>
    rw [unpacked]
    refine (isRounding_div _ canonical.pos _ _).fits (by positivity) (le_trans ?_ high) notHuge
    exact div_le_div_of_nonneg_right atMost (by positivity)

/-! ### Products -/

theorem IsWithin.isFinite_mul (within : IsWithin bound x) (within' : IsWithin bound' y)
    (high : bound * bound' ≤ 2 ^ greatest) : Scalar.isFinite (x * y) := by
  show Fits (UnpackedFloat.mul Format.binary64 x.toModel.unpack y.toModel.unpack)
  cases within with
  | zero sign unpacked =>
    rw [unpacked]
    cases within' with
    | zero sign' unpacked' | number unpacked' =>
      rw [unpacked']
      exact fits_zero _
  | number unpacked atMost =>
    cases within' with
    | zero sign' unpacked' =>
      rw [unpacked, unpacked']
      exact fits_zero _
    | number unpacked' atMost' =>
      have enough := mul_enough (isCanonical_of_unpack unpacked).toIsReduced
        (isCanonical_of_unpack unpacked').toIsReduced
      rw [unpacked, unpacked']
      refine (isRounding_mul _ _ _ _ enough).fits (by positivity) (le_trans ?_ high) notHuge
      exact mul_le_mul atMost atMost' (by positivity) ((by positivity : (0 : ℚ) ≤ _).trans atMost)

/-! ### Sums and differences -/

/-- Numbers are added and subtracted in the smaller of their units. -/
theorem fits_combined {mantissa mantissa' : Nat} {exponent exponent' count : Int}
    (size : |count| ≤ ((mantissa <<< (exponent - exponent ⊓ exponent').toNat : Nat) : Int) +
      (mantissa' <<< (exponent' - exponent ⊓ exponent').toNat : Nat))
    (high : (mantissa : ℚ) * 2 ^ exponent + mantissa' * 2 ^ exponent' ≤ 2 ^ greatest) (sign : Sign) :
    Fits (UnpackedFloat.normalize Format.binary64 count (exponent ⊓ exponent') sign) := by
  refine fits_normalize (le_trans ?_ high) notHuge sign
  rw [← shiftLeft_mul mantissa inf_le_left, ← shiftLeft_mul mantissa' inf_le_right, ← add_mul]
  refine mul_le_mul_of_nonneg_right ?_ (by positivity)
  have cast : ((|count| : Int) : ℚ) ≤ _ := Int.cast_le.mpr size
  push_cast at cast
  exact cast

theorem IsWithin.isFinite_add (within : IsWithin bound x) (within' : IsWithin bound' y)
    (high : bound + bound' ≤ 2 ^ greatest) :
    Scalar.isFinite (x + y) ∧ Scalar.isFinite (x - y) := by
  show Fits (UnpackedFloat.add Format.binary64 x.toModel.unpack y.toModel.unpack) ∧
    Fits (UnpackedFloat.sub Format.binary64 x.toModel.unpack y.toModel.unpack)
  cases within with
  | zero sign unpacked =>
    rw [unpacked]
    cases within' with
    | zero sign' unpacked' =>
      rw [unpacked']
      constructor <;> cases sign <;> cases sign' <;> rfl
    | number unpacked' =>
      rw [unpacked']
      have canonical := isCanonical_of_unpack unpacked'
      exact ⟨fits_finite canonical _, fits_finite canonical _⟩
  | number unpacked atMost =>
    rw [unpacked]
    cases within' with
    | zero sign' unpacked' =>
      rw [unpacked']
      have canonical := isCanonical_of_unpack unpacked
      exact ⟨fits_finite canonical _, fits_finite canonical _⟩
    | number unpacked' atMost' =>
      rw [unpacked']
      have sum := (add_le_add atMost atMost').trans high
      constructor
      · refine fits_combined notHuge ((abs_add_le _ _).trans_eq ?_) sum .positive
        exact congrArg₂ _ (abs_apply _ _) (abs_apply _ _)
      · refine fits_combined notHuge ((abs_sub _ _).trans_eq ?_) sum .positive
        exact congrArg₂ _ (abs_apply _ _) (abs_apply _ _)

end Double

end Stagecraft
