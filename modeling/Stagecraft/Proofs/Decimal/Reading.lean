/-
This file says that the text of a double reads back as the double. The text of the shortest decimal
is split into its digits before and behind the point, whatever the layout, and digits that are
rounded to a double are read as that double.
-/

import Stagecraft.Decimal.Layout
import Stagecraft.Decimal.Reading
import Stagecraft.Proofs.Decimal.Shortest
import Stagecraft.Proofs.Lists
import Stagecraft.Proofs.Scalar.Doubles

namespace Stagecraft

open Rounding

namespace Decimal

/-! ### Digits -/

theorem ofDigits_eq (digits : List Char) : ofDigits digits = Nat.ofDigitChars 10 digits 0 := rfl

theorem ofDigits_zeros (count : Nat) (digits : List Char) :
    ofDigits (List.replicate count '0' ++ digits) = ofDigits digits := by
  rw [ofDigits_eq, ofDigits_eq, Nat.ofDigitChars_append, Nat.ofDigitChars_replicate_zero, mul_zero]

theorem toList_zeros (count : Nat) : (zeros count).toList = List.replicate count '0' :=
  Lists.toList_pushn '0' count

theorem isDigit_of_mem_zeros {count : Nat} {c : Char} (member : c ∈ List.replicate count '0') :
    c.isDigit = true := by
  rw [List.eq_of_mem_replicate member]
  rfl

theorem isDigit_of_mem_repr {count : Nat} {c : Char} (member : c ∈ Nat.toDigits 10 count) :
    c.isDigit = true :=
  Nat.isDigit_of_mem_toDigits (by norm_num) (by norm_num) member

/-! ### Numerals -/

/-- A text of digits with a point in front of those that count as a fraction. -/
def pointed (whole fraction : List Char) : List Char :=
  if fraction = [] then whole else whole ++ '.' :: fraction

/-- A text has a digit in front, and these digits before and behind the point. -/
structure Digits (text whole fraction : List Char) : Prop where
  text_eq : text = pointed whole fraction
  nonempty : whole ≠ []
  whole_digits : ∀ c ∈ whole, c.isDigit = true
  fraction_digits : ∀ c ∈ fraction, c.isDigit = true

theorem positional_digits (decimal : Decimal) : ∃ whole fraction,
    Digits (positional "" decimal).toList whole fraction ∧
      (ofDigits (whole ++ fraction) : ℚ) * 10 ^ (-(fraction.length : Int)) = decimal.value := by
  obtain ⟨digits, exponent⟩ := decimal
  have nonempty : Nat.toDigits 10 digits ≠ [] := Nat.toDigits_ne_nil
  unfold positional value
  simp only [Nat.toString_eq_repr, Nat.toList_repr]
  cases exponent with
  | ofNat places =>
    refine ⟨Nat.toDigits 10 digits ++ List.replicate places '0', [], ⟨?_, ?_, ?_, ?_⟩, ?_⟩
    · simp [pointed, toList_zeros]
    · simp [nonempty]
    · intro c member
      rcases List.mem_append.mp member with first | second
      · exact isDigit_of_mem_repr first
      · exact isDigit_of_mem_zeros second
    · simp
    · rw [List.append_nil, ofDigits_eq, Nat.ofDigitChars_append, Nat.ofDigitChars_ten_toDigits,
        Nat.ofDigitChars_replicate_zero, Int.ofNat_eq_natCast, zpow_natCast]
      push_cast
      simp [mul_comm]
  | negSucc less =>
    have power : (10 : ℚ) ^ Int.negSucc less = 10 ^ (-((less + 1 : Nat) : Int)) := by
      rw [Int.negSucc_eq]
      push_cast
      rfl
    simp only
    split
    · rename_i inside
      have length : (Nat.toDigits 10 digits).length = digits.repr.length := by
        rw [← Nat.toList_repr, String.length_toList]
      have rest : (List.drop (digits.repr.length - (less + 1)) (Nat.toDigits 10 digits)).length =
          less + 1 := by
        rw [List.length_drop, length]
        omega
      refine ⟨(Nat.toDigits 10 digits).take (digits.repr.length - (less + 1)),
        (Nat.toDigits 10 digits).drop (digits.repr.length - (less + 1)), ⟨?_, ?_, ?_, ?_⟩, ?_⟩
      · rw [pointed, if_neg (List.ne_nil_of_length_pos (by rw [rest]; omega))]
        simp
      · exact List.ne_nil_of_length_pos (by rw [List.length_take, length]; omega)
      · exact fun c member => isDigit_of_mem_repr (List.mem_of_mem_take member)
      · exact fun c member => isDigit_of_mem_repr (List.mem_of_mem_drop member)
      · rw [List.take_append_drop, ofDigits_eq, Nat.ofDigitChars_ten_toDigits, rest, power]
    · rename_i outside
      have length : (Nat.toDigits 10 digits).length = digits.repr.length := by
        rw [← Nat.toList_repr, String.length_toList]
      have rest : (List.replicate (less + 1 - digits.repr.length) '0' ++
          Nat.toDigits 10 digits).length = less + 1 := by
        rw [List.length_append, List.length_replicate, length]
        omega
      refine ⟨['0'], List.replicate (less + 1 - digits.repr.length) '0' ++ Nat.toDigits 10 digits,
        ⟨?_, List.cons_ne_nil _ _, ?_, ?_⟩, ?_⟩
      · rw [pointed, if_neg (List.ne_nil_of_length_pos (by rw [rest]; omega))]
        simp [toList_zeros]
      · simp
      · intro c member
        rcases List.mem_append.mp member with first | second
        · exact isDigit_of_mem_zeros first
        · exact isDigit_of_mem_repr second
      · have leading := ofDigits_zeros 1 (List.replicate (less + 1 - digits.repr.length) '0' ++
          Nat.toDigits 10 digits)
        rw [List.replicate_one] at leading
        rw [leading, ofDigits_zeros, ofDigits_eq, Nat.ofDigitChars_ten_toDigits, rest, power]

theorem spanDigits_append {digits rest : List Char} (all : ∀ c ∈ digits, c.isDigit = true)
    (ends : ∀ c ∈ rest.head?, c.isDigit = false) :
    spanDigits (digits ++ rest) = (digits, rest) := by
  rw [spanDigits, Lists.takeWhile_append all ends, Lists.dropWhile_append all ends]

/-- Digits alone leave nothing behind them. -/
theorem spanDigits_self {digits : List Char} (all : ∀ c ∈ digits, c.isDigit = true) :
    spanDigits digits = (digits, []) := by
  have spanned : spanDigits (digits ++ []) = (digits, []) := spanDigits_append all (by simp)
  rwa [List.append_nil] at spanned

/-- Digits with a point are read as the double next to their value. -/
theorem readMagnitude?_eq {text whole fraction : List Char} (digits : Digits text whole fraction) :
    readMagnitude? text =
      some (nearestDouble (ofDigits (whole ++ fraction)) (-(fraction.length : Int))) := by
  have someDigit : ¬ (whole.isEmpty = true ∧ fraction.isEmpty = true) := fun empty =>
    digits.nonempty (List.isEmpty_iff.mp empty.1)
  rw [digits.text_eq, pointed]
  unfold readMagnitude?
  split_ifs with bare
  · subst bare
    have spanned : spanDigits whole = (whole, []) := spanDigits_self digits.whole_digits
    simp only [spanned]
    rw [if_neg someDigit]
    simp [readExponent?]
  · have spanned : spanDigits (whole ++ '.' :: fraction) = (whole, '.' :: fraction) :=
      spanDigits_append digits.whole_digits (by
        intro c same
        cases same
        rfl)
    have spannedFraction : spanDigits fraction = (fraction, []) :=
      spanDigits_self digits.fraction_digits
    simp only [spanned, spannedFraction]
    rw [if_neg someDigit]
    simp [readExponent?]

/-! ### Doubles -/

theorem two_pow_le_ten_pow (count : Nat) : (2 : ℚ) ^ (3 * count) ≤ 10 ^ count := by
  rw [pow_mul]
  exact pow_le_pow_left₀ (by norm_num) (by norm_num) _

theorem ten_zpow_neg_le (count : Nat) :
    (10 : ℚ) ^ (-(count : Int)) ≤ 2 ^ (-((3 * count : Nat) : Int)) := by
  rw [zpow_neg, zpow_neg, zpow_natCast, zpow_natCast]
  exact inv_anti₀ (by positivity) (two_pow_le_ten_pow count)

section

variable {mantissa : Nat} {exponent : Int}

/-- A decimal that is rounded to a double has its leading digit within the range of doubles. -/
theorem leading_bounds (canonical : IsCanonical mantissa exponent) {digits : Nat} {power : Int}
    (rounds : RoundsTo mantissa exponent (digits * (10 : ℚ) ^ power)) :
    0 < digits ∧ -400 ≤ digitCount digits + power ∧ digitCount digits + power ≤ 400 := by
  have above := rounds.pos canonical.toIsReduced
  have positive : 0 < digits := by
    refine Nat.pos_of_ne_zero fun zero => ?_
    rw [zero, Nat.cast_zero, zero_mul] at above
    exact lt_irrefl _ above
  have counted : 0 < digitCount digits := Nat.length_toDigits_pos
  refine ⟨positive, ?_, ?_⟩
  · by_contra tiny
    have low : (1 / 2 : ℚ) * 2 ^ (-1074 : Int) ≤ digits * (10 : ℚ) ^ power := by
      refine le_trans ?_ rounds.low
      have large : (1 : ℚ) ≤ mantissa := by exact_mod_cast canonical.pos
      refine mul_le_mul ?_ (zpow_le_zpow_right₀ (by norm_num) canonical.least) (by positivity) ?_
      · split <;> linarith
      · split <;> linarith
    have high : digits * (10 : ℚ) ^ power < 10 ^ (-400 : Int) := by
      have bound : (digits : ℚ) < 10 ^ (digitCount digits : Int) := by
        rw [zpow_natCast]
        exact_mod_cast lt_pow_digitCount digits
      calc digits * (10 : ℚ) ^ power
          < 10 ^ (digitCount digits : Int) * (10 : ℚ) ^ power :=
            mul_lt_mul_of_pos_right bound (by positivity)
        _ = 10 ^ (digitCount digits + power) := (zpow_add₀ (by norm_num) _ _).symm
        _ ≤ 10 ^ (-400 : Int) := zpow_le_zpow_right₀ (by norm_num) (by omega)
    have least : (10 : ℚ) ^ (-400 : Int) ≤ 1 / 2 * 2 ^ (-1074 : Int) := by
      have half : (1 / 2 : ℚ) * 2 ^ (-1074 : Int) = 2 ^ (-1075 : Int) := by
        rw [one_div, ← zpow_neg_one, ← zpow_add₀ two_ne_zero]
        rfl
      rw [half]
      exact (ten_zpow_neg_le 400).trans (zpow_le_zpow_right₀ (by norm_num) (by norm_num))
    exact absurd (low.trans_lt high) (not_lt.mpr least)
  · by_contra huge
    have high : digits * (10 : ℚ) ^ power < 2 ^ (1024 : Int) :=
      (rounds.lt_two_pow canonical.toIsReduced).trans_le
        (zpow_le_zpow_right₀ (by norm_num) (by have := canonical.greatest; omega))
    have low : (10 : ℚ) ^ (400 : Int) ≤ digits * (10 : ℚ) ^ power := by
      have bound : (10 : ℚ) ^ ((digitCount digits : Int) - 1) ≤ digits := by
        have count : (digitCount digits : Int) - 1 = ((digitCount digits - 1 : Nat) : Int) := by
          omega
        rw [count, zpow_natCast]
        exact_mod_cast pow_digitCount_le positive
      calc (10 : ℚ) ^ (400 : Int)
          ≤ 10 ^ ((digitCount digits : Int) - 1 + power) :=
            zpow_le_zpow_right₀ (by norm_num) (by omega)
        _ = 10 ^ ((digitCount digits : Int) - 1) * (10 : ℚ) ^ power := zpow_add₀ (by norm_num) _ _
        _ ≤ digits * (10 : ℚ) ^ power := mul_le_mul_of_nonneg_right bound (by positivity)
    have greatest : (2 : ℚ) ^ (1024 : Int) ≤ 10 ^ (400 : Int) :=
      (zpow_le_zpow_right₀ (by norm_num) (by norm_num : (1024 : Int) ≤ (3 * 400 : Nat))).trans
        (two_pow_le_ten_pow 400)
    exact absurd (low.trans_lt high) (not_lt.mpr greatest)

theorem nearestDouble_eq (canonical : IsCanonical mantissa exponent) {digits : Nat} {power : Int}
    (rounds : RoundsTo mantissa exponent (digits * (10 : ℚ) ^ power)) :
    nearestDouble digits power =
      Float.ofModel (Float.Model.pack (.finite .positive mantissa exponent canonical.pos)) := by
  obtain ⟨positive, least, greatest⟩ := leading_bounds canonical rounds
  unfold digitCount at least greatest
  unfold nearestDouble
  rw [if_neg (by omega), if_neg (by omega)]
  have few : (Nat.toDigits 10 digits).length ≤ digits.log2 + 1 := by
    refine (Nat.length_toDigits_le_iff (by norm_num) (Nat.succ_pos _)).mpr ?_
    exact Nat.lt_log2_self.trans_le (Nat.pow_le_pow_left (by norm_num) _)
  refine Double.ofScientific_eq canonical positive.ne' ?_ (fun whole => ?_) (fun fraction => ?_)
  · have same : (if decide (power < 0) = true then -(power.natAbs : Int) else power.natAbs) =
        power := by
      simp only [decide_eq_true_eq]
      split <;> omega
    rw [same]
    exact rounds
  · rw [decide_eq_false_iff_not] at whole
    omega
  · rw [decide_eq_true_eq] at fraction
    omega

end

/-- The text of a magnitude is a numeral, and reads back as the double. -/
theorem text_plain {x : Float} {mantissa : Nat} {exponent : Int}
    (seen : Double.ofFloat x = .number false mantissa exponent) : ∃ whole fraction,
    Digits (text plain x).toList whole fraction ∧ readMagnitude? (text plain x).toList = some x := by
  cases mantissa with
  | zero =>
    have text_eq : text plain x = layOut plain ⟨0, 0⟩ := by
      rw [text, seen]
      rfl
    rw [text_eq, Double.eq_zero_of_ofFloat seen]
    exact ⟨['0'], [], ⟨rfl, List.cons_ne_nil _ _, by simp, by simp⟩, rfl⟩
  | succ less =>
    obtain ⟨canonical, stands⟩ := Double.standsFor_of_ofFloat (Nat.succ_ne_zero less) seen
    obtain ⟨whole, fraction, digits, value⟩ :=
      positional_digits (shortest .up (less + 1) exponent)
    have rounds := shortest_roundsTo canonical .up
    rw [← value] at rounds
    have text_eq : text plain x = positional "" (shortest .up (less + 1) exponent) := by
      rw [text, seen]
      rfl
    rw [text_eq]
    refine ⟨whole, fraction, digits, ?_⟩
    rw [readMagnitude?_eq digits, nearestDouble_eq canonical rounds]
    exact congrArg some ((Double.standsFor_pack canonical).eq stands)

end Decimal

end Stagecraft
