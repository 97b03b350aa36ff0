/-
Numbers as scenes use them. Logic is arithmetic on one kind of number, and nothing in the
library but its text formats depends on which: the same definitions run on doubles and are
studied over the rationals or the reals. The classes below name what is needed.
-/

namespace Stagecraft

/-- Numbers with the four operations, comparisons, and the roundings that turn seconds into
ticks. Comparisons are propositions that can be decided; `==` is numeric equality, which may
differ from `=` where a number has two notations. -/
class Scalar (α : Type) extends
    Zero α, One α, Add α, Sub α, Mul α, Div α, Neg α, BEq α, LT α, LE α where
  decideLt : DecidableLT α
  decideLe : DecidableLE α
  ofNat : Nat → α
  /-- `digits * 10 ^ (-places)`, rounded once. -/
  ofDecimal (digits places : Nat) : α
  isFinite : α → Bool
  abs : α → α
  min : α → α → α
  max : α → α → α
  /-- The nearest whole number; halves go away from zero. -/
  round : α → α
  /-- The least natural number not below the argument, cut at `limit`. -/
  ceilUpTo (limit : Nat) : α → Nat
  /-- A total order that refines `≤`, for sorting. -/
  precedes : α → α → Bool

instance Scalar.instDecidableLT {α : Type} [Scalar α] : DecidableLT α :=
  Scalar.decideLt

instance Scalar.instDecidableLE {α : Type} [Scalar α] : DecidableLE α :=
  Scalar.decideLe

/-- Scalars with the root and the angle functions that rotations need. -/
class Trigonometric (α : Type) extends Scalar α where
  sqrt : α → α
  sin : α → α
  cos : α → α
  acos : α → α
  /-- `atan2 y x`: the angle of the point `(x, y)`. -/
  atan2 : α → α → α
  pi : α

namespace Scalar

variable {α : Type} [Scalar α]

/-- The whole number two. -/
def two : α := ofNat 2

/-- One half, as a quotient. -/
def half : α := ofDecimal 5 1

/-- A finite number that is not below zero; `-0` counts. -/
def isMagnitude (x : α) : Bool :=
  isFinite x && decide (0 ≤ x)

end Scalar

end Stagecraft
