/-
This file bounds how far rounding moves a number. A double has 53 digits unless it is tiny, so a
product or a quotient of doubles is little more than half of the last of them away from that of the
numbers, and a product of a rounded factor is moved twice.
-/

import Stagecraft.Proofs.Scalar.Roots

namespace Stagecraft

open Float.Model Float.Model.UnpackedFloat Rounding

namespace Rounding

/-! ### Rounding -/

/-- Rounding moves a number by little more than half of the last of 53 digits. -/
theorem RoundsTo.abs_sub_le {mantissa : Nat} {exponent : Int} {x : ℚ}
    (rounds : RoundsTo mantissa exponent x) (full : 2 ^ 52 ≤ mantissa) :
    |mantissa * 2 ^ exponent - x| ≤ x / (2 ^ 53 - 1) := by
  have unit : (0 : ℚ) < 2 ^ exponent := by positivity
  have large : (2 ^ 52 : ℚ) ≤ mantissa := by exact_mod_cast full
  have low := rounds.half_le
  have high := rounds.high
  have half : (2 ^ exponent : ℚ) / 2 ≤ x / (2 ^ 53 - 1) := by
    have least : (2 ^ 52 - 1 / 2 : ℚ) * 2 ^ exponent ≤ x :=
      (mul_le_mul_of_nonneg_right (by linarith) unit.le).trans low
    rw [div_le_div_iff₀ two_pos (by norm_num)]
    linarith
  rw [abs_le]
  constructor <;> linarith

/-- What is neither tiny nor huge is rounded to a double that is near to it. -/
theorem exists_canonical_near {x : ℚ} (low : 2 ^ (-64 : Int) ≤ x) (high : x ≤ 2 ^ (64 : Int)) :
    ∃ mantissa exponent, IsCanonical mantissa exponent ∧ RoundsTo mantissa exponent x ∧
      |(mantissa : ℚ) * 2 ^ exponent - x| ≤ x / (2 ^ 53 - 1) := by
  obtain ⟨mantissa, exponent, canonical, rounds, above, -⟩ :=
    exists_canonical_between le_rfl (by norm_num)
      (low.trans' (zpow_le_zpow_right₀ one_le_two (by norm_num))) high
  refine ⟨mantissa, exponent, canonical, rounds, rounds.abs_sub_le ?_⟩
  refine canonical.full.elim id fun lowest => ?_
  have units : ((2 ^ 52 : Nat) : ℚ) * 2 ^ (-1074 : Int) ≤ mantissa * 2 ^ (-1074 : Int) := by
    rw [lowest] at above
    rwa [show (-1074 : Int) = -1022 - 52 from rfl, two_zpow_eq]
  exact_mod_cast le_of_mul_le_mul_right units (by positivity)

end Rounding

namespace Double

variable {x y : Float} {p q : ℚ}

/-! ### Products and quotients -/

theorem StandsFor.exists_mul (first : StandsFor x p) (second : StandsFor y q)
    (low : 2 ^ (-64 : Int) ≤ p * q) (high : p * q ≤ 2 ^ (64 : Int)) :
    ∃ r, StandsFor (x * y) r ∧ |r - p * q| ≤ p * q / (2 ^ 53 - 1) := by
  obtain ⟨mantissa, exponent, canonical, rounds, near⟩ := exists_canonical_near low high
  refine ⟨mantissa * 2 ^ exponent, ?_, near⟩
  rw [first.mul second canonical.toIsReduced rounds]
  exact standsFor_pack canonical

theorem StandsFor.exists_div (first : StandsFor x p) (second : StandsFor y q)
    (low : 2 ^ (-64 : Int) ≤ p / q) (high : p / q ≤ 2 ^ (64 : Int)) :
    ∃ r, StandsFor (x / y) r ∧ |r - p / q| ≤ p / q / (2 ^ 53 - 1) := by
  obtain ⟨mantissa, exponent, canonical, rounds, near⟩ := exists_canonical_near low high
  refine ⟨mantissa * 2 ^ exponent, ?_, near⟩
  rw [first.div second canonical rounds]
  exact standsFor_pack canonical

/-- Two roundings together move a number by no more than the noise. -/
theorem noise_of_roundings {exact once twice : ℚ} (nonneg : 0 ≤ exact)
    (first : |once - exact| ≤ exact / (2 ^ 53 - 1)) (second : |twice - once| ≤ once / (2 ^ 53 - 1)) :
    |twice - exact| ≤ 2 ^ (-51 : Int) * exact := by
  have half : exact / (2 ^ 53 - 1) ≤ exact / 2 :=
    div_le_div_of_nonneg_left nonneg two_pos (by norm_num)
  have larger : once ≤ 3 / 2 * exact := by
    have right := (abs_le.mp (first.trans half)).2
    linarith
  calc |twice - exact| ≤ |twice - once| + |once - exact| := abs_sub_le _ _ _
    _ ≤ once / (2 ^ 53 - 1) + exact / (2 ^ 53 - 1) := add_le_add second first
    _ ≤ 3 / 2 * exact / (2 ^ 53 - 1) + exact / (2 ^ 53 - 1) :=
        add_le_add_left (div_le_div_of_nonneg_right larger (by norm_num)) _
    _ = 5 / 2 / (2 ^ 53 - 1) * exact := by ring
    _ ≤ 2 ^ (-51 : Int) * exact := mul_le_mul_of_nonneg_right (by norm_num) nonneg

/-! ### Values -/

/-- The double is a finite number, which is this one. -/
def HasValue (x : Float) (q : ℚ) : Prop :=
  ∃ negative mantissa exponent, ofFloat x = .number negative mantissa exponent ∧
    (if negative then -1 else 1) * ((mantissa : ℚ) * 2 ^ exponent) = q

theorem HasValue.standsFor (value : HasValue x q) (positive : 0 < q) : StandsFor x q := by
  obtain ⟨negative, mantissa, exponent, seen, rfl⟩ := value
  have magnitude : (0 : ℚ) ≤ mantissa * 2 ^ exponent := by positivity
  cases negative with
  | true =>
    rw [if_pos rfl] at positive
    linarith
  | false =>
    rw [if_neg Bool.false_ne_true, one_mul] at positive ⊢
    refine (standsFor_of_ofFloat ?_ seen).2
    rintro rfl
    simp at positive

theorem HasValue.exists_zero (value : HasValue x 0) : ∃ sign, x.toModel.unpack = .zero sign := by
  obtain ⟨negative, mantissa, exponent, seen, nothing⟩ := value
  have none : mantissa = 0 := by
    have unit : (2 : ℚ) ^ exponent ≠ 0 := by positivity
    cases negative <;> simpa [unit] using nothing
  rw [ofFloat_eq] at seen
  cases unpacked : x.toModel.unpack with
  | zero sign => exact ⟨sign, rfl⟩
  | finite sign mantissa' exponent' positive =>
    rw [unpacked] at seen
    exact absurd ((Double.number.inj seen).2.1.trans none) positive.ne'
  | infinity | notANumber =>
    rw [unpacked] at seen
    cases seen

end Double

end Stagecraft
