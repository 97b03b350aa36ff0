/-
This file bounds roots of doubles and reciprocals by powers of two. The root of a mantissa is a
whole number, and what is left tells on which side of a half the rest lies. So some rational number
in the same half is rounded to the same double as the root. Powers of two are doubles, and rounding
keeps the order, so the rounded root lies between the same powers as the root.
-/

import Stagecraft.Proofs.Scalar.Laws
import Stagecraft.Proofs.Scalar.Scheduling

namespace Stagecraft

open Float.Model Float.Model.UnpackedFloat Rounding

namespace Rounding

variable {mantissa : Nat} {exponent : Int}

/-! ### Powers of two -/

theorem two_zpow_eq (power : Int) : ((2 ^ 52 : Nat) : ℚ) * 2 ^ (power - 52) = 2 ^ power := by
  rw [zpow_sub₀ two_ne_zero]
  push_cast
  field_simp

/-- A power of two is a double, so what is not below it is not rounded below it. -/
theorem RoundsTo.two_zpow_le {x : ℚ} {least : Int} (rounds : RoundsTo mantissa exponent x)
    (reduced : IsReduced mantissa exponent) (notTiny : -1022 ≤ least) (low : 2 ^ least ≤ x) :
    (2 : ℚ) ^ least ≤ mantissa * 2 ^ exponent := by
  have full : IsReduced (2 ^ 52) (least - 52) :=
    ⟨by norm_num, by norm_num, by omega, .inl le_rfl⟩
  rw [← two_zpow_eq]
  refine (RoundsTo.self _ _).le full reduced rounds ?_
  rwa [two_zpow_eq]

/-- A number that is not above a power of two is rounded to a double that fits, and neither bound is
crossed. -/
theorem exists_canonical_between {x : ℚ} {least greatest : Int} (notTiny : -1022 ≤ least)
    (notHuge : greatest ≤ 1023) (low : 2 ^ least ≤ x) (high : x ≤ 2 ^ greatest) :
    ∃ mantissa exponent, IsCanonical mantissa exponent ∧ RoundsTo mantissa exponent x ∧
      (2 : ℚ) ^ least ≤ mantissa * 2 ^ exponent ∧ (mantissa * 2 ^ exponent : ℚ) ≤ 2 ^ greatest := by
  have above : 2 ^ (-1075 : Int) < x :=
    (zpow_lt_zpow_right₀ one_lt_two (by omega)).trans_le low
  obtain ⟨mantissa, exponent, reduced, rounds⟩ := exists_roundsTo above
  have order := (zpow_le_zpow_iff_right₀ one_lt_two).mp (low.trans high)
  have lower := rounds.two_zpow_le reduced notTiny low
  have upper : (mantissa * 2 ^ exponent : ℚ) ≤ 2 ^ greatest := by
    have full : IsReduced (2 ^ 52) (greatest - 52) :=
      ⟨by norm_num, by norm_num, by omega, .inl le_rfl⟩
    rw [← two_zpow_eq greatest]
    refine rounds.le reduced full (RoundsTo.self _ _) ?_
    rwa [two_zpow_eq]
  refine ⟨mantissa, exponent, ⟨reduced, ?_⟩, rounds, lower, upper⟩
  by_contra huge
  have whole : 2 ^ 52 ≤ mantissa := reduced.full.resolve_right (by omega)
  have large : (2 : ℚ) ^ (exponent + 52) ≤ mantissa * 2 ^ exponent := by
    rw [← two_zpow_eq, add_sub_cancel_right]
    exact mul_le_mul_of_nonneg_right (by exact_mod_cast whole) (by positivity)
  have beyond := (zpow_le_zpow_iff_right₀ one_lt_two).mp (large.trans upper)
  omega

/-! ### Roots -/

/-- A number in the same half as the root of a whole number. -/
theorem exists_knows_sqrt (count : Nat) : ∃ y : ℚ,
    Knows (.ofMantissaAndAccuracy count.sqrt
      (if count - count.sqrt * count.sqrt = 0 then .exact
        else .inexact (if count - count.sqrt * count.sqrt ≤ count.sqrt then .lt else .gt))) y ∧
      (count.sqrt : ℚ) ≤ y ∧ y < count.sqrt + 1 := by
  split
  · exact ⟨count.sqrt, rfl, le_rfl, lt_add_one _⟩
  · split
    · refine ⟨count.sqrt + 1 / 4, ?_, by linarith, by linarith⟩
      simp only [Knows, ExtendedMantissa.ofMantissaAndAccuracy]
      constructor <;> linarith
    · refine ⟨count.sqrt + 3 / 4, ?_, by linarith, by linarith⟩
      simp only [Knows, ExtendedMantissa.ofMantissaAndAccuracy]
      constructor <;> linarith

theorem two_zpow_double (power : Nat) (half : Int) :
    ((2 ^ power * 2 ^ power : Nat) : ℚ) * 2 ^ (2 * half) = 2 ^ (2 * (half + power)) := by
  rw [mul_add, zpow_add₀ two_ne_zero, ← Nat.pow_add, ← two_mul]
  push_cast
  rw [mul_comm, ← zpow_natCast]
  push_cast
  rfl

/-- A whole number of units between two even powers of two has its root between their roots. -/
theorem sqrt_units_between {count : Nat} (positive : 0 < count) {half least greatest : Int}
    (low : (2 : ℚ) ^ (2 * least) ≤ count * 2 ^ (2 * half))
    (high : (count * 2 ^ (2 * half) : ℚ) < 2 ^ (2 * greatest)) :
    (2 : ℚ) ^ least ≤ count.sqrt * 2 ^ half ∧ ((count.sqrt + 1) * 2 ^ half : ℚ) ≤ 2 ^ greatest := by
  have unit : (0 : ℚ) < 2 ^ half := by positivity
  have unit' : (0 : ℚ) < 2 ^ (2 * half) := by positivity
  have some : 1 ≤ count.sqrt := Nat.sqrt_pos.mpr positive
  constructor
  · rcases le_or_gt least half with fine | coarse
    · calc (2 : ℚ) ^ least ≤ 1 * 2 ^ half := by
            rw [one_mul]
            exact zpow_le_zpow_right₀ one_le_two fine
        _ ≤ count.sqrt * 2 ^ half :=
            mul_le_mul_of_nonneg_right (by exact_mod_cast some) unit.le
    · obtain ⟨power, rfl⟩ : ∃ power : Nat, least = half + power :=
        ⟨(least - half).toNat, by omega⟩
      rw [← two_zpow_double, mul_le_mul_iff_left₀ unit', Nat.cast_le] at low
      rw [zpow_add₀ two_ne_zero, mul_comm, zpow_natCast]
      exact mul_le_mul_of_nonneg_right (by exact_mod_cast Nat.le_sqrt.mpr low) unit.le
  · have order : half < greatest := by
      have whole : (2 : ℚ) ^ (2 * half) ≤ count * 2 ^ (2 * half) :=
        le_mul_of_one_le_left unit'.le (by exact_mod_cast positive)
      have order := exponent_lt whole high
      omega
    obtain ⟨power, rfl⟩ : ∃ power : Nat, greatest = half + power :=
      ⟨(greatest - half).toNat, by omega⟩
    rw [← two_zpow_double, mul_lt_mul_iff_left₀ unit', Nat.cast_lt] at high
    rw [zpow_add₀ two_ne_zero, mul_comm ((2 : ℚ) ^ half), zpow_natCast]
    refine mul_le_mul_of_nonneg_right ?_ unit.le
    exact_mod_cast Nat.succ_le_of_lt (Nat.sqrt_lt.mpr high)

/-- The root of a number between two even powers of two lies between their roots, as it is
rounded. -/
theorem sqrt_between (canonical : IsCanonical mantissa exponent) {least greatest : Int}
    (notTiny : -1022 ≤ least) (notHuge : greatest ≤ 1023)
    (low : (2 : ℚ) ^ (2 * least) ≤ mantissa * 2 ^ exponent)
    (high : (mantissa * 2 ^ exponent : ℚ) < 2 ^ (2 * greatest)) :
    ∃ mantissa' exponent', ∃ canonical' : IsCanonical mantissa' exponent',
      UnpackedFloat.sqrt Format.binary64 (.finite .positive mantissa exponent canonical.pos) =
        .finite .positive mantissa' exponent' canonical'.pos ∧
      (2 : ℚ) ^ least ≤ mantissa' * 2 ^ exponent' ∧
        (mantissa' * 2 ^ exponent' : ℚ) ≤ 2 ^ greatest := by
  let goal : Int := Format.binary64.targetExponent ((totalExponent mantissa exponent + 1) / 2)
  let half : Int := min (exponent / 2) goal
  let steps : Nat := (exponent - 2 * half).toNat
  let count : Nat := mantissa <<< steps
  have goal_eq : goal = max ((mantissa.log2 + 2 + exponent) / 2 - 53 : Int) (-1074) := by
    simp only [goal, Format.targetExponent, totalExponent, Format.mantissaBits, Format.minExponent]
    norm_num
    omega
  have value : (count : ℚ) * 2 ^ (2 * half) = mantissa * 2 ^ exponent := by
    have split : exponent = (steps : Int) + 2 * half := by omega
    conv_rhs => rw [split, zpow_add₀ two_ne_zero, zpow_natCast]
    rw [show (count : ℚ) = mantissa * 2 ^ steps by
      simp only [count, Nat.shiftLeft_eq]
      push_cast
      rfl, mul_assoc]
  have positive : 0 < count := by
    rw [show count = mantissa * 2 ^ steps from Nat.shiftLeft_eq _ _]
    exact Nat.mul_pos canonical.pos (Nat.two_pow_pos _)
  have enough : half ≤ Rounding.target count.sqrt half := by
    rw [target_eq]
    by_cases tiny : half ≤ -1074
    · omega
    · have bits : 104 ≤ count.log2 := by
        rw [show count.log2 = mantissa.log2 + steps from log2_shiftLeft canonical.pos.ne' steps]
        omega
      have large : 2 ^ 52 ≤ count.sqrt := by
        rw [Nat.le_sqrt, ← Nat.pow_add]
        exact (Nat.le_log2 positive.ne').mp bits
      have digits := (Nat.le_log2 (by omega)).mpr large
      omega
  rw [← value] at low high
  obtain ⟨y, knows, below, above⟩ := exists_knows_sqrt count
  obtain ⟨lower, upper⟩ := sqrt_units_between positive low high
  have unit : (0 : ℚ) < 2 ^ half := by positivity
  obtain ⟨mantissa', exponent', canonical', rounds, bounds⟩ :=
    exists_canonical_between notTiny notHuge
      (lower.trans (mul_le_mul_of_nonneg_right below unit.le))
      ((mul_le_mul_of_nonneg_right above.le unit.le).trans upper)
  rw [← mul_div_cancel_right₀ y unit.ne'] at knows
  exact ⟨mantissa', exponent', canonical',
    roundWithAccuracy_eq canonical'.toIsReduced rounds .positive enough knows, bounds⟩

end Rounding

/-! ### Lengths -/

namespace Double

variable {x : Float} {q : ℚ}

/-- A positive double lies between the least one and the greatest one. -/
theorem StandsFor.between (stands : StandsFor x q) :
    (2 : ℚ) ^ (-1074 : Int) ≤ q ∧ q < 2 ^ (1024 : Int) := by
  obtain ⟨mantissa, exponent, canonical, -, rfl⟩ := stands
  have unit : (0 : ℚ) < 2 ^ exponent := by positivity
  have some : (1 : ℚ) ≤ mantissa := by exact_mod_cast canonical.pos
  have small : (mantissa : ℚ) < 2 ^ (53 : Int) := by exact_mod_cast canonical.lt
  constructor
  · exact (zpow_le_zpow_right₀ one_le_two canonical.least).trans
      (le_mul_of_one_le_left unit.le some)
  · have top : (2 : ℚ) ^ (53 + exponent) ≤ 2 ^ (1024 : Int) :=
      zpow_le_zpow_right₀ one_le_two (by have := canonical.greatest; omega)
    refine (mul_lt_mul_of_pos_right small unit).trans_le ?_
    rwa [← zpow_add₀ two_ne_zero]

/-- The reciprocal of a root is far from the ends of the range of doubles, and the farther the larger
the number is. -/
theorem StandsFor.exists_reciprocal (stands : StandsFor x q) {least : Int} (notTiny : -537 ≤ least)
    (low : (2 : ℚ) ^ (2 * least) ≤ q) :
    ∃ r, StandsFor (1 / x.sqrt) r ∧ (2 : ℚ) ^ (-512 : Int) ≤ r ∧ r ≤ 2 ^ (-least) := by
  obtain ⟨-, high⟩ := stands.between
  obtain ⟨mantissa, exponent, canonical, unpacked, rfl⟩ := stands
  obtain ⟨mantissa', exponent', canonical', root, atLeast, atMost⟩ :=
    sqrt_between canonical (by omega) (by norm_num : (512 : Int) ≤ 1023) low high
  have length : StandsFor x.sqrt (mantissa' * 2 ^ exponent') := by
    have packed := standsFor_pack canonical'
    rw [← root, ← unpacked] at packed
    exact packed
  have inverse (power : Int) : (1 : ℚ) / 2 ^ power = 2 ^ (-power) := by
    rw [zpow_neg, one_div]
  have low' := one_div_le_one_div_of_le length.pos atMost
  have high' := one_div_le_one_div_of_le (by positivity) atLeast
  rw [inverse] at low' high'
  obtain ⟨mantissa'', exponent'', canonical'', rounds, between⟩ :=
    exists_canonical_between (by norm_num) (by omega) low' high'
  refine ⟨mantissa'' * 2 ^ exponent'', ?_, between⟩
  rw [standsFor_one.div length canonical'' rounds]
  exact standsFor_pack canonical''

end Double

end Stagecraft
