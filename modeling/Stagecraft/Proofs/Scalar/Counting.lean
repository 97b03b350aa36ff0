/-
This file names what counting needs of numbers. Ticks and positions in a list are counted by adding
one, and compared with numbers that are known beforehand. That is exact as long as every whole
number on the way is a number of the kind in use: for doubles up to `2 ^ 53`.
-/

import Mathlib
import Stagecraft.Scalar.Basic

namespace Stagecraft

/-- Whole numbers up to here are counted without error. -/
def countingLimit : Nat := 2 ^ 53

/-- Numbers that count whole numbers exactly up to the limit. -/
class Counting (α : Type) [Scalar α] : Prop where
  ofNat_zero : (Scalar.ofNat 0 : α) = 0
  ofNat_one : (Scalar.ofNat 1 : α) = 1
  ofNat_add_one (count : Nat) : count < countingLimit →
    (Scalar.ofNat count : α) + 1 = Scalar.ofNat (count + 1)
  ofNat_beq (first second : Nat) : first ≤ countingLimit → second ≤ countingLimit →
    ((Scalar.ofNat first : α) == Scalar.ofNat second) = decide (first = second)
  ofNat_le (first second : Nat) : first ≤ countingLimit → second ≤ countingLimit →
    ((Scalar.ofNat first : α) ≤ Scalar.ofNat second ↔ first ≤ second)

namespace Counting

variable {α : Type} [Scalar α] [Counting α]

theorem beq_zero (count : Nat) (small : count ≤ countingLimit) :
    ((Scalar.ofNat count : α) == 0) = decide (count = 0) := by
  rw [← ofNat_zero, ofNat_beq count 0 small (Nat.zero_le _)]

@[simp] theorem zero_beq_zero : ((0 : α) == 0) = true := by
  have zero := beq_zero (α := α) 0 (Nat.zero_le _)
  rwa [ofNat_zero] at zero

@[simp] theorem one_beq_zero : ((1 : α) == 0) = false := by
  have one := beq_zero (α := α) 1 (by decide)
  rwa [ofNat_one] at one

/-- Whole numbers up to the limit are told apart. -/
theorem eq_of_ofNat_eq {first second : Nat} (firstSmall : first ≤ countingLimit)
    (secondSmall : second ≤ countingLimit)
    (same : (Scalar.ofNat first : α) = Scalar.ofNat second) : first = second := by
  have compared := ofNat_beq (α := α) first second firstSmall secondSmall
  rw [same, ofNat_beq second second secondSmall secondSmall, decide_eq_decide] at compared
  exact compared.mp rfl

/-- A flag is not zero exactly where its condition holds. -/
theorem flag_beq_zero (condition : Prop) [Decidable condition] :
    ((if condition then 1 else 0 : α) == 0) = !decide condition := by
  by_cases holds : condition <;> simp [holds]

end Counting

end Stagecraft
