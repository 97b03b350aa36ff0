/-
This file says that the shortest decimal of a double is rounded to it. A decimal that is found lies
in the interval of the double, and one is found on the grid of seventeen digits at the latest: a
step of that grid is smaller than the interval is wide.
-/

import Stagecraft.Decimal.Shortest
import Stagecraft.Proofs.Scalar.Rounding

namespace Stagecraft

open Rounding

namespace Decimal

/-- The number that a decimal writes. -/
def value (decimal : Decimal) : ℚ :=
  decimal.digits * (10 : ℚ) ^ decimal.exponent

theorem trim_value (count : Nat) (decimal : Decimal) :
    (trim count decimal).value = decimal.value := by
  unfold trim
  split
  · rename_i power
    rw [value, value, power, zpow_add₀ (by norm_num), zpow_natCast]
    push_cast [Nat.pow_eq]
    ring
  · rfl

/-! ### Digits -/

theorem lt_pow_digitCount (count : Nat) : count < 10 ^ digitCount count :=
  (Nat.length_toDigits_le_iff (by norm_num) Nat.length_toDigits_pos).mp le_rfl

theorem pow_digitCount_le {count : Nat} (positive : 0 < count) :
    10 ^ (digitCount count - 1) ≤ count := by
  rcases Nat.eq_zero_or_pos (digitCount count - 1) with one | several
  · rw [one, pow_zero]
    exact positive
  · refine Nat.le_of_not_lt fun below => ?_
    have fewer : digitCount count ≤ digitCount count - 1 :=
      (Nat.length_toDigits_le_iff (by norm_num) several).mpr below
    omega

namespace Span

variable (span : Span)

/-- The unit in which the value and the ends are counted. -/
def unit : ℚ :=
  span.numerator / span.denominator

/-- What a grid is stretched by, so that its points and the ends are whole numbers. -/
def scale (exponent : Int) : ℚ :=
  span.denominator * 10 ^ (-exponent).toNat

theorem step_eq (exponent : Int) :
    (span.step exponent : ℚ) = (10 : ℚ) ^ exponent * span.scale exponent := by
  have split : (10 : ℚ) ^ exponent.toNat = (10 : ℚ) ^ exponent * 10 ^ (-exponent).toNat := by
    rw [← zpow_natCast, ← zpow_natCast, ← zpow_add₀ (by norm_num)]
    congr 1
    omega
  rw [step, scale]
  push_cast [Nat.pow_eq]
  rw [split]
  ring

variable {span}

theorem onGrid_eq (sound : 0 < span.denominator) (exponent : Int) (count : Nat) :
    (span.onGrid exponent count : ℚ) = count * span.unit * span.scale exponent := by
  have nonzero : (span.denominator : ℚ) ≠ 0 := by exact_mod_cast sound.ne'
  rw [onGrid, unit, scale]
  push_cast [Nat.pow_eq]
  field_simp

theorem scale_pos (sound : 0 < span.denominator) (exponent : Int) : 0 < span.scale exponent :=
  mul_pos (by exact_mod_cast sound) (by positivity)

/-- A point of a grid and an end are compared as numbers. -/
theorem onGrid_le_iff (sound : 0 < span.denominator) (exponent : Int) (count digits : Nat) :
    span.onGrid exponent count ≤ digits * span.step exponent ↔
      count * span.unit ≤ digits * (10 : ℚ) ^ exponent := by
  rw [← Nat.cast_le (α := ℚ), onGrid_eq sound, Nat.cast_mul, step_eq, ← mul_assoc,
    mul_le_mul_iff_left₀ (scale_pos sound exponent)]

theorem le_onGrid_iff (sound : 0 < span.denominator) (exponent : Int) (count digits : Nat) :
    digits * span.step exponent ≤ span.onGrid exponent count ↔
      digits * (10 : ℚ) ^ exponent ≤ count * span.unit := by
  rw [← Nat.cast_le (α := ℚ), onGrid_eq sound, Nat.cast_mul, step_eq, ← mul_assoc,
    mul_le_mul_iff_left₀ (scale_pos sound exponent)]

/-- Whether a point lies in the interval. -/
theorem holds_iff (sound : 0 < span.denominator) (exponent : Int) (digits : Nat) :
    span.holds exponent digits = true ↔
      if span.closed then
        span.low * span.unit ≤ digits * (10 : ℚ) ^ exponent ∧
          digits * (10 : ℚ) ^ exponent ≤ span.high * span.unit
      else
        span.low * span.unit < digits * (10 : ℚ) ^ exponent ∧
          digits * (10 : ℚ) ^ exponent < span.high * span.unit := by
  unfold holds
  cases span.closed with
  | true =>
    simp only [if_true, decide_eq_true_eq, onGrid_le_iff sound, le_onGrid_iff sound]
  | false =>
    simp only [Bool.false_eq_true, if_false, decide_eq_true_eq, ← not_le, onGrid_le_iff sound,
      le_onGrid_iff sound]

/-! ### The grids -/

theorem nearest_eq (tie : Tie) (exponent : Int) :
    span.nearest tie exponent = span.below exponent ∨
      span.nearest tie exponent = span.below exponent + 1 := by
  unfold nearest
  cases tie <;> simp only <;> split_ifs <;> simp

theorem holds_of_onlyOn {tie : Tie} {exponent : Int} {decimal : Decimal}
    (found : span.onlyOn tie exponent = some decimal) :
    decimal.exponent = exponent ∧ span.holds exponent decimal.digits = true := by
  unfold onlyOn at found
  simp only at found
  split at found
  · rename_i first second
    cases found
    rcases span.nearest_eq tie exponent with same | same
    · exact ⟨rfl, by rw [same]; exact first⟩
    · exact ⟨rfl, by rw [same]; exact second⟩
  · rename_i first second
    cases found
    exact ⟨rfl, first⟩
  · rename_i first second
    cases found
    exact ⟨rfl, second⟩
  · cases found

theorem not_holds_of_onlyOn {tie : Tie} {exponent : Int}
    (missing : span.onlyOn tie exponent = none) :
    span.holds exponent (span.below exponent) = false ∧
      span.holds exponent (span.below exponent + 1) = false := by
  unfold onlyOn at missing
  simp only at missing
  split at missing
  · cases missing
  · cases missing
  · cases missing
  · rename_i first second
    exact ⟨first, second⟩

theorem below_le (sound : 0 < span.denominator) (exponent : Int) :
    span.below exponent * (10 : ℚ) ^ exponent ≤ span.value * span.unit :=
  (le_onGrid_iff sound exponent _ _).mp (Nat.div_mul_le_self _ _)

theorem lt_below (sound : 0 < span.denominator) (exponent : Int) :
    span.value * span.unit < ((span.below exponent + 1 : Nat) : ℚ) * (10 : ℚ) ^ exponent := by
  have positive : 0 < span.step exponent :=
    Nat.mul_pos sound (Nat.pow_pos (by norm_num))
  have notBelow : ¬ (span.below exponent + 1) * span.step exponent ≤
      span.onGrid exponent span.value := by
    rw [not_le, below, mul_comm]
    exact Nat.lt_mul_div_succ _ positive
  rw [le_onGrid_iff sound] at notBelow
  exact not_le.mp notBelow

/-- If neither neighbour of the value lies in the interval, a step of the grid is as large as the
interval. -/
theorem width_le (sound : 0 < span.denominator) (positive : 0 < span.unit)
    (low : span.low < span.value) (high : span.value < span.high) {tie : Tie} {exponent : Int}
    (missing : span.onlyOn tie exponent = none) :
    ((span.high : ℚ) - span.low) * span.unit ≤ (10 : ℚ) ^ exponent := by
  obtain ⟨first, second⟩ := not_holds_of_onlyOn missing
  have under := below_le sound exponent
  have beyond := lt_below sound exponent
  have lowEnd : (span.low : ℚ) * span.unit < span.value * span.unit :=
    mul_lt_mul_of_pos_right (by exact_mod_cast low) positive
  have highEnd : (span.value : ℚ) * span.unit < span.high * span.unit :=
    mul_lt_mul_of_pos_right (by exact_mod_cast high) positive
  rw [← Bool.not_eq_true, holds_iff sound] at first second
  have beneath : (span.below exponent : ℚ) * (10 : ℚ) ^ exponent ≤ span.low * span.unit := by
    by_contra inside
    refine first ?_
    split
    · exact ⟨by linarith, by linarith⟩
    · exact ⟨by linarith, by linarith⟩
  have above : span.high * span.unit ≤
      ((span.below exponent + 1 : Nat) : ℚ) * (10 : ℚ) ^ exponent := by
    by_contra inside
    refine second ?_
    split
    · exact ⟨by linarith, by linarith⟩
    · exact ⟨by linarith, by linarith⟩
  push_cast at above
  linarith

theorem pow_leading_le (sound : 0 < span.denominator) (positive : 0 < span.value * span.numerator) :
    (10 : ℚ) ^ span.leading ≤ span.value * span.unit := by
  have sound' : (0 : ℚ) < span.denominator := by exact_mod_cast sound
  have positive' : (0 : ℚ) < span.value * span.numerator := by exact_mod_cast positive
  rw [unit, ← mul_div_assoc, le_div_iff₀ sound']
  unfold leading
  simp only
  split
  · rename_i large
    set quotient := span.value * span.numerator / span.denominator with quotient_eq
    have nonzero : 0 < quotient := Nat.div_pos large sound
    have count : ((digitCount quotient : Nat) : Int) - 1 =
        ((digitCount quotient - 1 : Nat) : Int) := by
      have digits : 0 < digitCount quotient := Nat.length_toDigits_pos
      omega
    rw [count, zpow_natCast]
    have product : 10 ^ (digitCount quotient - 1) * span.denominator ≤
        span.value * span.numerator :=
      (Nat.mul_le_mul_right _ (pow_digitCount_le nonzero)).trans (Nat.div_mul_le_self _ _)
    exact_mod_cast product
  · rename_i small
    set inverse := (span.denominator + span.value * span.numerator - 1) /
      (span.value * span.numerator) - 1 with inverse_eq
    rw [zpow_neg, zpow_natCast, inv_mul_le_iff₀ (by positivity)]
    have next : (span.denominator + span.value * span.numerator - 1) /
        (span.value * span.numerator) ≤ 10 ^ digitCount inverse := by
      have less := lt_pow_digitCount inverse
      omega
    have product : span.denominator ≤
        10 ^ digitCount inverse * (span.value * span.numerator) := by
      refine le_trans ?_ (Nat.mul_le_mul_right _ next)
      have whole := Nat.lt_div_mul_add positive
        (a := span.denominator + span.value * span.numerator - 1)
      omega
    exact_mod_cast product

end Span

/-! ### The interval of a double -/

section

variable {mantissa : Nat} {exponent : Int}

theorem Span.ofDouble_sound (mantissa : Nat) (exponent : Int) :
    0 < (Span.ofDouble mantissa exponent).denominator :=
  Nat.pow_pos (by norm_num)

theorem Span.ofDouble_unit (mantissa : Nat) (exponent : Int) :
    (Span.ofDouble mantissa exponent).unit = 2 ^ exponent / 4 := by
  have split : (2 : ℚ) ^ (exponent - 2).toNat =
      (2 : ℚ) ^ exponent / 4 * 2 ^ (2 - exponent).toNat := by
    have quarter : (4 : ℚ) = 2 ^ (2 : Int) := by norm_num
    rw [quarter, ← zpow_natCast, ← zpow_natCast, ← zpow_sub₀ (by norm_num),
      ← zpow_add₀ (by norm_num)]
    congr 1
    omega
  rw [Span.unit, Span.ofDouble]
  push_cast [Nat.pow_eq]
  rw [split, mul_div_assoc, div_self (by positivity), mul_one]

/-- A point of the interval is rounded to the double. -/
theorem roundsTo_of_holds (positive : 0 < mantissa) {grid : Int} {digits : Nat}
    (inside : (Span.ofDouble mantissa exponent).holds grid digits = true) :
    RoundsTo mantissa exponent (digits * (10 : ℚ) ^ grid) := by
  rw [Span.holds_iff (Span.ofDouble_sound mantissa exponent), Span.ofDouble_unit] at inside
  have least : 1 ≤ mantissa := positive
  have low : ((Span.ofDouble mantissa exponent).low : ℚ) =
      4 * (mantissa - (if mantissa = 2 ^ 52 ∧ -1074 < exponent then 1 / 4 else 1 / 2)) := by
    simp only [Span.ofDouble, Nat.pow_eq]
    split
    · push_cast [Nat.cast_sub (by omega : 1 ≤ 4 * mantissa)]
      ring
    · push_cast [Nat.cast_sub (by omega : 2 ≤ 4 * mantissa)]
      ring
  have high : ((Span.ofDouble mantissa exponent).high : ℚ) = 4 * (mantissa + 1 / 2) := by
    simp only [Span.ofDouble]
    push_cast
    ring
  rw [low, high] at inside
  have bounds : (mantissa - (if mantissa = 2 ^ 52 ∧ -1074 < exponent then 1 / 4 else 1 / 2) : ℚ) *
      2 ^ exponent ≤ digits * (10 : ℚ) ^ grid ∧
      digits * (10 : ℚ) ^ grid ≤ (mantissa + 1 / 2 : ℚ) * 2 ^ exponent := by
    split at inside
    · exact ⟨by linarith [inside.1], by linarith [inside.2]⟩
    · exact ⟨by linarith [inside.1], by linarith [inside.2]⟩
  refine ⟨bounds.1, bounds.2, fun odd => ?_⟩
  have isOpen : (Span.ofDouble mantissa exponent).closed = false := by
    simp only [Span.ofDouble, decide_eq_false_iff_not]
    omega
  have noGap : ¬ (mantissa = 2 ^ 52 ∧ -1074 < exponent) := by
    rintro ⟨rfl, -⟩
    norm_num at odd
  rw [isOpen, if_neg Bool.false_ne_true, if_neg noGap] at inside
  exact ⟨by linarith [inside.1], by linarith [inside.2]⟩

/-- The double lies on the grid of seventeen digits or between two points of which one lies in the
interval. -/
theorem exists_onlyOn (canonical : IsCanonical mantissa exponent) (tie : Tie) :
    (Span.ofDouble mantissa exponent).onlyOn tie
      ((Span.ofDouble mantissa exponent).leading - (17 - 1 : Nat)) ≠ none := by
  intro missing
  set span := Span.ofDouble mantissa exponent with span_eq
  have positive : 0 < mantissa := canonical.pos
  have sound : 0 < span.denominator := Span.ofDouble_sound mantissa exponent
  have unit_eq : span.unit = 2 ^ exponent / 4 := Span.ofDouble_unit mantissa exponent
  have unitPos : 0 < span.unit := by
    rw [unit_eq]
    positivity
  have numeratorPos : 0 < span.numerator := Nat.pow_pos (by norm_num)
  have valuePos : 0 < span.value * span.numerator :=
    Nat.mul_pos (Nat.mul_pos (by norm_num) positive) numeratorPos
  have low : span.low < span.value := by
    simp only [span_eq, Span.ofDouble]
    split <;> omega
  have high : span.value < span.high := by
    simp only [span_eq, Span.ofDouble]
    omega
  have wide := Span.width_le sound unitPos low high missing
  have leading := Span.pow_leading_le sound valuePos
  rw [zpow_sub₀ (by norm_num), zpow_natCast, le_div_iff₀ (by norm_num)] at wide
  have counted : ((span.high : ℚ) - span.low) * 10 ^ (17 - 1) ≤ span.value := by
    refine le_of_mul_le_mul_right ?_ unitPos
    calc ((span.high : ℚ) - span.low) * 10 ^ (17 - 1) * span.unit
        = ((span.high : ℚ) - span.low) * span.unit * 10 ^ (17 - 1) := by ring
      _ ≤ (10 : ℚ) ^ span.leading := wide
      _ ≤ span.value * span.unit := leading
  have whole : (span.high - span.low) * 10 ^ (17 - 1) ≤ span.value := by
    rw [← Nat.cast_le (α := ℚ), Nat.cast_mul, Nat.cast_sub (low.trans high).le]
    push_cast
    exact counted
  have small := canonical.lt
  simp only [span_eq, Span.ofDouble, Nat.pow_eq] at whole
  split at whole <;> omega

/-- The shortest decimal is rounded to the double. -/
theorem shortest_roundsTo (canonical : IsCanonical mantissa exponent) (tie : Tie) :
    RoundsTo mantissa exponent (shortest tie mantissa exponent).value := by
  unfold shortest
  simp only
  set span := Span.ofDouble mantissa exponent with span_eq
  cases search : (List.range' 1 17).findSome? fun count =>
      (span.onlyOn tie (span.leading - (count - 1 : Nat))).map (trim count) with
  | some decimal =>
    rw [Option.getD_some]
    obtain ⟨count, -, found⟩ := List.exists_of_findSome?_eq_some search
    obtain ⟨point, onGrid, rfl⟩ := Option.map_eq_some_iff.mp found
    obtain ⟨sameGrid, inside⟩ := Span.holds_of_onlyOn onGrid
    rw [trim_value, value, sameGrid]
    exact roundsTo_of_holds canonical.pos inside
  | none =>
    have last := List.findSome?_eq_none_iff.mp search 17 (List.mem_range'_1.mpr (by norm_num))
    exact absurd (Option.map_eq_none_iff.mp last) (exists_onlyOn canonical tie)

end

end Decimal

end Stagecraft
