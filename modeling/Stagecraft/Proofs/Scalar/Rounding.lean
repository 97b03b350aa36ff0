/-
This file says to which double a number is rounded. Rounding shifts a mantissa to the right until it
fits, and keeps two bits of what was lost. A number within half a unit of the last place of a double
is rounded to it; half a unit away it is, if the mantissa is even. Below a power of two the unit of
the last place is half as large.
-/

import Mathlib
import Stagecraft.Scalar.Double

namespace Stagecraft

open Float.Model Float.Model.UnpackedFloat

namespace Rounding

/-- Rounding leaves a mantissa of 53 digits, unless it has the least exponent. -/
structure IsReduced (mantissa : Nat) (exponent : Int) : Prop where
  pos : 0 < mantissa
  lt : mantissa < 2 ^ 53
  least : -1074 ≤ exponent
  full : 2 ^ 52 ≤ mantissa ∨ exponent = -1074

/-- A positive double has such a mantissa and an exponent that fits. -/
structure IsCanonical (mantissa : Nat) (exponent : Int) : Prop extends
    IsReduced mantissa exponent where
  greatest : exponent ≤ 971

/-- The number is rounded to the double with this mantissa and exponent. -/
structure RoundsTo (mantissa : Nat) (exponent : Int) (x : ℚ) : Prop where
  low : (mantissa - (if mantissa = 2 ^ 52 ∧ -1074 < exponent then 1 / 4 else 1 / 2) : ℚ) *
    2 ^ exponent ≤ x
  high : x ≤ (mantissa + 1 / 2 : ℚ) * 2 ^ exponent
  open_ends : mantissa % 2 = 1 →
    (mantissa - 1 / 2 : ℚ) * 2 ^ exponent < x ∧ x < (mantissa + 1 / 2 : ℚ) * 2 ^ exponent

/-! ### Remainders -/

/-- What a mantissa with its two bits of remainder knows of a number. -/
def Knows (extended : ExtendedMantissa) (x : ℚ) : Prop :=
  match extended.roundBit, extended.stickyBit with
  | false, false => x = extended.mantissa
  | false, true => (extended.mantissa : ℚ) < x ∧ x < extended.mantissa + 1 / 2
  | true, false => x = extended.mantissa + 1 / 2
  | true, true => (extended.mantissa : ℚ) + 1 / 2 < x ∧ x < extended.mantissa + 1

theorem Knows.bounds {extended : ExtendedMantissa} {x : ℚ} (knows : Knows extended x) :
    (extended.mantissa : ℚ) ≤ x ∧ x < extended.mantissa + 1 := by
  obtain ⟨mantissa, roundBit, stickyBit⟩ := extended
  cases roundBit <;> cases stickyBit <;> simp only [Knows] at knows ⊢ <;>
    constructor <;> linarith

theorem Knows.shiftRightOne {extended : ExtendedMantissa} {x : ℚ} (knows : Knows extended x) :
    Knows extended.shiftRightOne (x / 2) := by
  obtain ⟨mantissa, roundBit, stickyBit⟩ := extended
  obtain ⟨half, rfl | rfl⟩ := Nat.even_or_odd' mantissa
  · have shifted : ExtendedMantissa.shiftRightOne ⟨2 * half, roundBit, stickyBit⟩ =
        ⟨half, false, roundBit || stickyBit⟩ := by
      simp [ExtendedMantissa.shiftRightOne]
    rw [shifted]
    cases roundBit <;> cases stickyBit <;>
      simp only [Knows, Bool.or_false, Bool.or_true, Nat.cast_mul, Nat.cast_ofNat] at knows ⊢ <;>
      first | linarith | (constructor <;> linarith)
  · have shifted : ExtendedMantissa.shiftRightOne ⟨2 * half + 1, roundBit, stickyBit⟩ =
        ⟨half, true, roundBit || stickyBit⟩ := by
      simp only [ExtendedMantissa.shiftRightOne, ExtendedMantissa.mk.injEq, and_true]
      exact ⟨by omega, by simp⟩
    rw [shifted]
    cases roundBit <;> cases stickyBit <;>
      simp only [Knows, Bool.or_false, Bool.or_true, Nat.cast_add, Nat.cast_mul, Nat.cast_ofNat,
        Nat.cast_one] at knows ⊢ <;>
      first | linarith | (constructor <;> linarith)

theorem Knows.shiftRight {extended : ExtendedMantissa} {x : ℚ} (knows : Knows extended x)
    (count : Nat) : Knows (extended >>> count) (x / 2 ^ count) := by
  induction count with
  | zero =>
    rw [pow_zero, div_one]
    exact knows
  | succ count inductionHypothesis =>
    have next := inductionHypothesis.shiftRightOne
    rw [div_div, ← pow_succ] at next
    exact next

/-- The rounded mantissa is the nearest whole number; of two the even one. -/
theorem Knows.roundedMantissa_eq {extended : ExtendedMantissa} {x : ℚ} {nearest : Nat}
    (knows : Knows extended x) (low : (nearest : ℚ) - 1 / 2 ≤ x) (high : x ≤ nearest + 1 / 2)
    (odd : nearest % 2 = 1 → (nearest : ℚ) - 1 / 2 < x ∧ x < nearest + 1 / 2) :
    extended.roundedMantissa = nearest := by
  obtain ⟨mantissa, roundBit, stickyBit⟩ := extended
  -- The nearest number is the mantissa or the next one.
  have below : nearest < mantissa + 2 := by
    have bound := knows.bounds.2
    simp only at bound
    exact_mod_cast (by linarith : (nearest : ℚ) < mantissa + 2)
  have above : mantissa < nearest + 1 := by
    have bound := knows.bounds.1
    simp only at bound
    exact_mod_cast (by linarith : (mantissa : ℚ) < nearest + 1)
  obtain rfl | rfl : nearest = mantissa ∨ nearest = mantissa + 1 := by omega
  · cases roundBit <;> cases stickyBit <;>
      simp only [Knows, ExtendedMantissa.roundedMantissa, ExtendedMantissa.accuracy,
        Accuracy.roundToNearestEven] at knows ⊢
    · by_contra notEven
      have strict := (odd (by omega)).2
      linarith
    · exact absurd high (by linarith)
  · push_cast at low odd
    cases roundBit <;> cases stickyBit <;>
      simp only [Knows, ExtendedMantissa.roundedMantissa, ExtendedMantissa.accuracy,
        Accuracy.roundToNearestEven] at knows ⊢
    · exact absurd low (by linarith)
    · exact absurd low (by linarith)
    · by_contra notOdd
      have strict := (odd (by omega)).1
      linarith

/-! ### Target exponents -/

abbrev target (mantissa : Nat) (exponent : Int) : Int :=
  Format.binary64.targetExponent (totalExponent mantissa exponent)

theorem target_eq (mantissa : Nat) (exponent : Int) :
    target mantissa exponent = max ((mantissa.log2 : Int) + exponent - 52) (-1074) := by
  simp only [target, Format.targetExponent, totalExponent, Format.mantissaBits, Format.minExponent]
  norm_num
  omega

theorem exponent_lt {low high : Int} {x : ℚ} (above : 2 ^ low ≤ x) (below : x < 2 ^ high) :
    low < high :=
  (zpow_lt_zpow_iff_right₀ one_lt_two).mp (above.trans_lt below)

/-- A number lies between two powers of two, which its whole part decides. -/
theorem two_zpow_log2_le {count : Nat} (nonzero : count ≠ 0) {shift : Int} {x : ℚ}
    (low : (count : ℚ) * 2 ^ shift ≤ x) (high : x < (count + 1 : ℚ) * 2 ^ shift) :
    2 ^ (count.log2 + shift) ≤ x ∧ x < 2 ^ (count.log2 + shift + 1) := by
  have lower : (2 : ℚ) ^ (count.log2 : Int) ≤ count := by
    exact_mod_cast Nat.log2_self_le nonzero
  have upper : (count : ℚ) + 1 ≤ 2 ^ ((count.log2 : Int) + 1) := by
    exact_mod_cast Nat.lt_log2_self (n := count)
  have positive : (0 : ℚ) < 2 ^ shift := by positivity
  constructor
  · rw [zpow_add₀ two_ne_zero]
    exact (mul_le_mul_of_nonneg_right lower positive.le).trans low
  · rw [add_right_comm, zpow_add₀ two_ne_zero]
    exact high.trans_le (mul_le_mul_of_nonneg_right upper positive.le)

theorem shiftToTargetExponent_of_lt {mantissa : Nat} {exponent : Int} (small : mantissa < 2 ^ 53)
    (least : -1074 ≤ exponent) :
    shiftToTargetExponent Format.binary64 mantissa exponent .exact =
      (⟨mantissa, false, false⟩, exponent) := by
  have bits : mantissa.log2 ≤ 52 := by
    by_cases zero : mantissa = 0
    · simp [zero]
    · exact Nat.lt_succ_iff.mp ((Nat.log2_lt zero).mpr small)
  have noShift : (target mantissa exponent - exponent).toNat = 0 := by
    rw [target_eq]
    omega
  rw [shiftToTargetExponent, shiftToExponent, noShift, Nat.cast_zero, add_zero]
  rfl

theorem shiftToTargetExponent_two_pow (exponent : Int) (least : -1074 ≤ exponent) :
    shiftToTargetExponent Format.binary64 (2 ^ 53) exponent .exact =
      (⟨2 ^ 52, false, false⟩, exponent + 1) := by
  have oneShift : (target (2 ^ 53) exponent - exponent).toNat = 1 := by
    rw [target_eq, Nat.log2_two_pow]
    omega
  rw [shiftToTargetExponent, shiftToExponent, oneShift]
  rfl

/-! ### Rounding -/

section

variable {mantissa : Nat} {exponent : Int} {x : ℚ}

theorem RoundsTo.pos (reduced : IsReduced mantissa exponent)
    (rounds : RoundsTo mantissa exponent x) : 0 < x := by
  have large : (1 : ℚ) ≤ mantissa := by exact_mod_cast reduced.pos
  refine lt_of_lt_of_le (mul_pos ?_ (by positivity)) rounds.low
  split <;> linarith

theorem RoundsTo.lt_two_pow (reduced : IsReduced mantissa exponent)
    (rounds : RoundsTo mantissa exponent x) : x < 2 ^ (exponent + 53) := by
  have small : (mantissa : ℚ) + 1 / 2 < 2 ^ (53 : Int) := by
    have bound : (mantissa : ℚ) + 1 ≤ 2 ^ (53 : Int) := by exact_mod_cast reduced.lt
    linarith
  rw [zpow_add₀ two_ne_zero, mul_comm]
  exact rounds.high.trans_lt (mul_lt_mul_of_pos_right small (by positivity))

/-- Below the power of two there is only the end of the interval. -/
theorem RoundsTo.mantissa_eq (reduced : IsReduced mantissa exponent)
    (rounds : RoundsTo mantissa exponent x) (below : x < 2 ^ (exponent + 52))
    (notLeast : exponent ≠ -1074) :
    mantissa = 2 ^ 52 ∧ (2 ^ 53 - 1 / 2 : ℚ) * 2 ^ (exponent - 1) ≤ x := by
  have full := reduced.full.resolve_right notLeast
  have least := reduced.least
  have power : (2 : ℚ) ^ (exponent + 52) = 2 ^ 52 * 2 ^ exponent := by
    rw [zpow_add₀ two_ne_zero, mul_comm]
    norm_cast
  have positive : (0 : ℚ) < 2 ^ exponent := by positivity
  have low := rounds.low
  have same : mantissa = 2 ^ 52 := by
    by_contra larger
    rw [if_neg (fun bottom => larger bottom.1)] at low
    have next : (2 ^ 52 + 1 : ℚ) ≤ mantissa := by exact_mod_cast (by omega : 2 ^ 52 + 1 ≤ mantissa)
    rw [power] at below
    have inside := lt_of_mul_lt_mul_right (low.trans_lt below) positive.le
    linarith
  refine ⟨same, ?_⟩
  rw [if_pos ⟨same, by omega⟩, same] at low
  refine le_trans (le_of_eq ?_) low
  rw [zpow_sub_one₀ two_ne_zero]
  push_cast
  ring

/-- Above the power of two the unit is that of the double, and below half as large. -/
theorem RoundsTo.target (reduced : IsReduced mantissa exponent)
    (rounds : RoundsTo mantissa exponent x) {count : Nat} {shift : Int}
    (enough : shift ≤ Rounding.target count shift) (low : (count : ℚ) * 2 ^ shift ≤ x)
    (high : x < (count + 1 : ℚ) * 2 ^ shift) :
    Rounding.target count shift =
      if 2 ^ (exponent + 52) ≤ x ∨ exponent = -1074 then exponent else exponent - 1 := by
  have least := reduced.least
  have top := rounds.lt_two_pow reduced
  rw [target_eq] at enough ⊢
  by_cases zero : count = 0
  · -- Less than one unit is left only of the least doubles.
    rw [zero, Nat.log2_zero] at enough ⊢
    rw [zero, Nat.cast_zero, zero_add, one_mul] at high
    have tiny : shift ≤ -1074 := by omega
    have lowest : exponent = -1074 := by
      by_contra notLeast
      by_cases above : 2 ^ (exponent + 52) ≤ x
      · have order := exponent_lt above high
        omega
      · have edge := (rounds.mantissa_eq reduced (not_le.mp above) notLeast).2
        have half : (2 : ℚ) ^ (exponent - 1) ≤ (2 ^ 53 - 1 / 2) * 2 ^ (exponent - 1) :=
          le_mul_of_one_le_left (by positivity) (by norm_num)
        have order := exponent_lt (half.trans edge) high
        omega
    rw [if_pos (.inr lowest)]
    omega
  · obtain ⟨lower, upper⟩ := two_zpow_log2_le zero low high
    have notAbove := exponent_lt lower top
    split
    · rename_i inside
      rcases inside with above | lowest
      · have notBelow := exponent_lt above upper
        omega
      · omega
    · rename_i outside
      rw [not_or, not_le] at outside
      have edge := (rounds.mantissa_eq reduced outside.1 outside.2).2
      have half : (2 : ℚ) ^ (exponent + 51) ≤ (2 ^ 53 - 1 / 2) * 2 ^ (exponent - 1) := by
        have split : exponent + 51 = 52 + (exponent - 1) := by ring
        rw [split, zpow_add₀ two_ne_zero]
        exact mul_le_mul_of_nonneg_right (by norm_num) (by positivity)
      have notBelow := exponent_lt (half.trans edge) upper
      have below := exponent_lt lower outside.1
      omega

/-- What a first shift with its rounding leaves for the second one. -/
theorem roundWithAccuracy_of_first {sign : Sign} {count rounded : Nat} {shift left : Int}
    {accuracy : Accuracy} {extended : ExtendedMantissa}
    (first : shiftToTargetExponent Format.binary64 count shift accuracy = (extended, left))
    (rounding : extended.roundedMantissa = rounded) (positive : 0 < mantissa)
    (second : shiftToTargetExponent Format.binary64 rounded left .exact =
      (⟨mantissa, false, false⟩, exponent)) :
    roundWithAccuracy Format.binary64 sign count shift accuracy =
      .finite sign mantissa exponent positive := by
  rw [roundWithAccuracy, first]
  dsimp only
  rw [rounding, second, dif_neg positive.ne']

theorem mantissa_ofMantissaAndAccuracy (count : Nat) (accuracy : Accuracy) :
    (ExtendedMantissa.ofMantissaAndAccuracy count accuracy).mantissa = count := by
  unfold ExtendedMantissa.ofMantissaAndAccuracy
  split <;> rfl

/-- Rounding finds the double in whose interval the number is. -/
theorem roundWithAccuracy_eq (reduced : IsReduced mantissa exponent)
    (rounds : RoundsTo mantissa exponent x) (sign : Sign) {count : Nat} {shift : Int}
    {accuracy : Accuracy} (enough : shift ≤ Rounding.target count shift)
    (knows : Knows (.ofMantissaAndAccuracy count accuracy) (x / 2 ^ shift)) :
    roundWithAccuracy Format.binary64 sign count shift accuracy =
      .finite sign mantissa exponent reduced.pos := by
  have between := knows.bounds
  rw [mantissa_ofMantissaAndAccuracy, le_div_iff₀ (by positivity), div_lt_iff₀ (by positivity)] at between
  have chosen := rounds.target reduced enough between.1 between.2
  have least := reduced.least
  let steps := (Rounding.target count shift - shift).toNat
  have arrival : shift + steps = Rounding.target count shift := by omega
  have first : shiftToTargetExponent Format.binary64 count shift accuracy =
      (ExtendedMantissa.ofMantissaAndAccuracy count accuracy >>> steps,
        Rounding.target count shift) := Prod.ext rfl arrival
  have shifted := knows.shiftRight steps
  rw [div_div, ← zpow_natCast, ← zpow_add₀ two_ne_zero, arrival] at shifted
  have positive : (0 : ℚ) < 2 ^ exponent := by positivity
  split at chosen
  · rw [chosen] at first shifted
    refine roundWithAccuracy_of_first first (shifted.roundedMantissa_eq ?_ ?_ ?_) reduced.pos
      (shiftToTargetExponent_of_lt reduced.lt least)
    · rw [le_div_iff₀ positive]
      refine le_trans (mul_le_mul_of_nonneg_right ?_ positive.le) rounds.low
      split <;> linarith
    · rw [div_le_iff₀ positive]
      exact rounds.high
    · intro odd
      rw [lt_div_iff₀ positive, div_lt_iff₀ positive]
      exact rounds.open_ends odd
  · rename_i outside
    rw [not_or, not_le] at outside
    obtain ⟨bottom, edge⟩ := rounds.mantissa_eq reduced outside.1 outside.2
    have below : x < 2 ^ 53 * 2 ^ (exponent - 1) := by
      have power : (2 : ℚ) ^ (exponent + 52) = 2 ^ 53 * 2 ^ (exponent - 1) := by
        rw [← zpow_natCast, ← zpow_add₀ two_ne_zero]
        congr 1
        push_cast
        ring
      rw [← power]
      exact outside.1
    rw [chosen] at first shifted
    have rounding : (ExtendedMantissa.ofMantissaAndAccuracy count accuracy >>>
        steps).roundedMantissa = 2 ^ 53 := by
      refine shifted.roundedMantissa_eq ?_ ?_ (fun odd => absurd odd (by norm_num))
      · rw [le_div_iff₀ (by positivity)]
        exact_mod_cast edge
      · rw [div_le_iff₀ (by positivity)]
        refine below.le.trans (mul_le_mul_of_nonneg_right ?_ (by positivity))
        norm_num
    have second := shiftToTargetExponent_two_pow (exponent - 1) (by omega)
    rw [sub_add_cancel] at second
    subst bottom
    exact roundWithAccuracy_of_first first rounding reduced.pos second

/-- The result of rounding a number with a sign. Rounding starts from a mantissa in units that are
small enough, which knows what has to be known of the number. -/
inductive IsRounding (sign : Sign) (x : ℚ) : UnpackedFloat → Prop
  | intro {count : Nat} {shift : Int} {accuracy : Accuracy} :
    shift ≤ Rounding.target count shift →
    Knows (.ofMantissaAndAccuracy count accuracy) (x / 2 ^ shift) →
    IsRounding sign x (roundWithAccuracy Format.binary64 sign count shift accuracy)

theorem IsRounding.eq {sign : Sign} {result : UnpackedFloat} (rounding : IsRounding sign x result)
    (reduced : IsReduced mantissa exponent) (rounds : RoundsTo mantissa exponent x) :
    result = .finite sign mantissa exponent reduced.pos := by
  cases rounding with
  | intro enough knows => exact roundWithAccuracy_eq reduced rounds sign enough knows

/-- A double is rounded to itself. -/
theorem RoundsTo.self (mantissa : Nat) (exponent : Int) :
    RoundsTo mantissa exponent (mantissa * 2 ^ exponent) where
  low := by
    refine mul_le_mul_of_nonneg_right ?_ (by positivity)
    split <;> linarith
  high := mul_le_mul_of_nonneg_right (by linarith) (by positivity)
  open_ends _ :=
    ⟨mul_lt_mul_of_pos_right (by linarith) (by positivity),
      mul_lt_mul_of_pos_right (by linarith) (by positivity)⟩

theorem log2_shiftLeft {count : Nat} (nonzero : count ≠ 0) (steps : Nat) :
    (count <<< steps).log2 = count.log2 + steps := by
  have positive : 0 < 2 ^ steps := by positivity
  rw [Nat.shiftLeft_eq, Nat.log2_eq_iff (Nat.mul_ne_zero nonzero positive.ne'), add_right_comm,
    pow_add, pow_add]
  exact ⟨Nat.mul_le_mul_right _ (Nat.log2_self_le nonzero),
    Nat.mul_lt_mul_of_pos_right Nat.lt_log2_self positive⟩

/-- A whole number of units is rounded after the units are made smaller where that is needed. -/
theorem isRounding_round {count : Nat} (nonzero : count ≠ 0) (shift : Int) (sign : Sign) :
    IsRounding sign (count * 2 ^ shift) (UnpackedFloat.round Format.binary64 sign count shift) := by
  let steps := (shift - Rounding.target count shift).toNat
  have same : ((count <<< steps : Nat) : ℚ) * 2 ^ (shift - steps) = count * 2 ^ shift := by
    rw [Nat.shiftLeft_eq, zpow_sub₀ two_ne_zero, zpow_natCast]
    push_cast
    field_simp
  have enough : shift - steps ≤ Rounding.target (count <<< steps) (shift - steps) := by
    rw [target_eq, log2_shiftLeft nonzero]
    have reached := target_eq count shift
    omega
  rw [← same]
  refine .intro enough ?_
  rw [mul_div_cancel_right₀ _ (by positivity)]
  rfl

theorem round_eq (reduced : IsReduced mantissa exponent) {count : Nat} {shift : Int}
    (rounds : RoundsTo mantissa exponent (count * 2 ^ shift)) (sign : Sign) :
    UnpackedFloat.round Format.binary64 sign count shift =
      .finite sign mantissa exponent reduced.pos := by
  have nonzero : count ≠ 0 := by
    rintro rfl
    simpa using rounds.pos reduced
  exact (isRounding_round nonzero shift sign).eq reduced rounds

section

variable {first second : Nat} {firstShift secondShift : Int} (firstSign secondSign : Sign)
  (firstPos : 0 < first) (secondPos : 0 < second)

/-- A product of two numbers with enough digits, or with units that are small enough. -/
theorem isRounding_mul (enough : 2 ^ 52 ≤ first * second ∨ firstShift + secondShift ≤ -1074) :
    IsRounding (firstSign * secondSign) (first * 2 ^ firstShift * (second * 2 ^ secondShift))
      (UnpackedFloat.mul Format.binary64 (.finite firstSign first firstShift firstPos)
        (.finite secondSign second secondShift secondPos)) := by
  have split : (first * 2 ^ firstShift * (second * 2 ^ secondShift) : ℚ) =
      ((first * second : Nat) : ℚ) * 2 ^ (firstShift + secondShift) := by
    rw [zpow_add₀ two_ne_zero]
    push_cast
    ring
  rw [split]
  refine .intro ?_ ?_
  · have bits := Nat.le_log2 (k := 52) (Nat.mul_pos firstPos secondPos).ne'
    rw [target_eq]
    omega
  · rw [mul_div_cancel_right₀ _ (by positivity)]
    rfl

end

theorem mul_eq (reduced : IsReduced mantissa exponent) {first second : Nat}
    {firstShift secondShift : Int}
    (enough : 2 ^ 52 ≤ first * second ∨ firstShift + secondShift ≤ -1074)
    (rounds : RoundsTo mantissa exponent
      (first * 2 ^ firstShift * (second * 2 ^ secondShift)))
    (firstSign secondSign : Sign) (firstPos : 0 < first) (secondPos : 0 < second) :
    UnpackedFloat.mul Format.binary64 (.finite firstSign first firstShift firstPos)
        (.finite secondSign second secondShift secondPos) =
      .finite (firstSign * secondSign) mantissa exponent reduced.pos :=
  (isRounding_mul firstSign secondSign firstPos secondPos enough).eq reduced rounds

/-- A quotient, and what its remainder says of the rest. -/
theorem knows_div (dividend : Nat) {divisor : Nat} (positive : 0 < divisor) :
    Knows (.ofMantissaAndAccuracy (dividend / divisor)
      (accuracyOfFraction (dividend % divisor) divisor)) ((dividend : ℚ) / divisor) := by
  have divides : (0 : ℚ) < divisor := by exact_mod_cast positive
  have parts : (dividend : ℚ) / divisor =
      (dividend / divisor : Nat) + ((dividend % divisor : Nat) : ℚ) / divisor := by
    rw [div_eq_iff divides.ne', add_mul, div_mul_cancel₀ _ divides.ne']
    exact_mod_cast (Nat.div_add_mod' dividend divisor).symm
  have small : ((dividend % divisor : Nat) : ℚ) / divisor < 1 := by
    rw [div_lt_one divides]
    exact_mod_cast Nat.mod_lt dividend positive
  rw [parts, accuracyOfFraction]
  generalize dividend % divisor = remainder at small ⊢
  split
  · rename_i exact
    simp [exact, ExtendedMantissa.ofMantissaAndAccuracy, Knows]
  · rename_i inexact
    have above : (0 : ℚ) < remainder / divisor :=
      div_pos (by exact_mod_cast Nat.pos_of_ne_zero inexact) divides
    rcases lt_trichotomy (2 * remainder) divisor with order | order | order
    · have half : (remainder : ℚ) / divisor < 1 / 2 := by
        rw [div_lt_div_iff₀ divides two_pos]
        exact_mod_cast (by omega : remainder * 2 < 1 * divisor)
      rw [Nat.compare_eq_lt.mpr order]
      simp only [Knows, ExtendedMantissa.ofMantissaAndAccuracy]
      constructor <;> linarith
    · have half : (remainder : ℚ) / divisor = 1 / 2 := by
        rw [div_eq_div_iff divides.ne' two_ne_zero]
        exact_mod_cast (by omega : remainder * 2 = 1 * divisor)
      rw [Nat.compare_eq_eq.mpr order, half]
      rfl
    · have half : 1 / 2 < (remainder : ℚ) / divisor := by
        rw [div_lt_div_iff₀ two_pos divides]
        exact_mod_cast (by omega : 1 * divisor < remainder * 2)
      rw [Nat.compare_eq_gt.mpr order]
      simp only [Knows, ExtendedMantissa.ofMantissaAndAccuracy]
      constructor <;> linarith

/-- A quotient is divided in units that leave enough digits. -/
theorem isRounding_div {first second : Nat} {firstShift secondShift : Int} (firstPos : 0 < first)
    (secondPos : 0 < second) (firstSign secondSign : Sign) :
    IsRounding (firstSign / secondSign) (first * 2 ^ firstShift / (second * 2 ^ secondShift))
      (UnpackedFloat.div Format.binary64 (.finite firstSign first firstShift firstPos)
        (.finite secondSign second secondShift secondPos)) := by
  let goal : Int := Format.binary64.targetExponent
    (totalExponent first firstShift - totalExponent second secondShift)
  let shift : Int := min (firstShift - secondShift) goal
  let steps : Nat := (firstShift - secondShift - shift).toNat
  have goal_eq : goal = max (first.log2 + firstShift - (second.log2 + secondShift) - 53 : Int)
      (-1074) := by
    simp only [goal, Format.targetExponent, totalExponent, Format.mantissaBits,
      Format.minExponent]
    norm_num
    omega
  have split : (first * 2 ^ firstShift / (second * 2 ^ secondShift) : ℚ) =
      ((first <<< steps : Nat) : ℚ) / second * 2 ^ shift := by
    have exponents : firstShift = (steps : Int) + shift + secondShift := by omega
    rw [exponents, zpow_add₀ two_ne_zero, zpow_add₀ two_ne_zero, zpow_natCast, Nat.shiftLeft_eq]
    push_cast
    field_simp
  have enough : shift ≤ Rounding.target ((first <<< steps) / second) shift := by
    rw [target_eq]
    by_cases tiny : shift ≤ -1074
    · omega
    · have bits : 52 ≤ ((first <<< steps) / second).log2 := by
        have full : 2 ^ 52 ≤ (first <<< steps) / second := by
          rw [Nat.le_div_iff_mul_le secondPos, Nat.shiftLeft_eq]
          calc 2 ^ 52 * second ≤ 2 ^ 52 * 2 ^ (second.log2 + 1) :=
                Nat.mul_le_mul_left _ Nat.lt_log2_self.le
            _ = 2 ^ (52 + (second.log2 + 1)) := (pow_add 2 52 _).symm
            _ ≤ 2 ^ (first.log2 + steps) := Nat.pow_le_pow_right two_pos (by omega)
            _ = 2 ^ first.log2 * 2 ^ steps := pow_add 2 _ _
            _ ≤ first * 2 ^ steps :=
              Nat.mul_le_mul_right _ (Nat.log2_self_le firstPos.ne')
        exact (Nat.le_log2 (by omega)).mpr full
      omega
  rw [split]
  refine .intro enough ?_
  rw [mul_div_cancel_right₀ _ (by positivity)]
  exact knows_div (first <<< steps) secondPos

theorem div_eq (reduced : IsReduced mantissa exponent) {first second : Nat}
    {firstShift secondShift : Int} (firstPos : 0 < first) (secondPos : 0 < second)
    (rounds : RoundsTo mantissa exponent
      (first * 2 ^ firstShift / (second * 2 ^ secondShift))) (firstSign secondSign : Sign) :
    UnpackedFloat.div Format.binary64 (.finite firstSign first firstShift firstPos)
        (.finite secondSign second secondShift secondPos) =
      .finite (firstSign / secondSign) mantissa exponent reduced.pos :=
  (isRounding_div firstPos secondPos firstSign secondSign).eq reduced rounds

end

end Rounding

end Stagecraft
