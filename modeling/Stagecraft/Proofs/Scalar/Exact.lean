/-
This file makes scalars of the numbers of an ordered field, such as the rationals and the reals. Sums,
products and comparisons are those of the field, so nothing is rounded but by the roundings that
scalars ask for. The root and the angle functions may be any functions; for the reals they are the
true ones.
-/

import Mathlib
import Stagecraft.Proofs.Scalar.Counting

namespace Stagecraft

/-- A root and angle functions. -/
class Angles (K : Type) where
  sqrt : K → K
  sin : K → K
  cos : K → K
  acos : K → K
  atan2 : K → K → K
  pi : K

namespace Exact

variable {K : Type} [Field K] [LinearOrder K] [FloorRing K]

/-- The nearest whole number; halves go away from zero. -/
def round (x : K) : K :=
  if x < 0 then -⌊1 / 2 - x⌋ else ⌊x + 1 / 2⌋

/-- Numbers of an ordered field as scalars. -/
scoped instance instScalar : Scalar K where
  beq x y := decide (x = y)
  decideLt := inferInstance
  decideLe := inferInstance
  ofNat count := count
  ofDecimal digits places := digits / 10 ^ places
  isFinite _ := true
  abs x := |x|
  min := min
  max := max
  round := round
  ceilUpTo limit x := min limit ⌈x⌉.toNat
  precedes x y := decide (x ≤ y)

scoped instance instTrigonometric [Angles K] : Trigonometric K where
  sqrt := Angles.sqrt
  sin := Angles.sin
  cos := Angles.cos
  acos := Angles.acos
  atan2 := Angles.atan2
  pi := Angles.pi

@[simp] theorem ofNat_eq (count : Nat) : (Scalar.ofNat count : K) = count := rfl

@[simp] theorem two_eq : (Scalar.two : K) = 2 := Nat.cast_ofNat

theorem half_eq : (Scalar.half : K) = 5 / 10 := by
  show ((5 : Nat) : K) / 10 ^ 1 = _
  rw [Nat.cast_ofNat, pow_one]

variable [IsStrictOrderedRing K]

scoped instance instCounting : Counting K where
  ofNat_zero := Nat.cast_zero
  ofNat_one := Nat.cast_one
  ofNat_add_one count _ := (Nat.cast_succ count).symm
  ofNat_beq first second _ _ := by
    show decide ((first : K) = second) = _
    rw [decide_eq_decide, Nat.cast_inj]
  ofNat_le first second _ _ := Nat.cast_le

/-- The root and the angle functions of the reals. -/
noncomputable scoped instance instAngles : Angles ℝ where
  sqrt := Real.sqrt
  sin := Real.sin
  cos := Real.cos
  acos := Real.arccos
  atan2 y x := Complex.arg ⟨x, y⟩
  pi := Real.pi

@[simp] theorem sqrt_eq (x : ℝ) : Trigonometric.sqrt x = √x := rfl

/-- Roots of the squares of rationals, and the angle functions where there is no turn. -/
@[reducible]
def unturned : Angles ℚ where
  sqrt := Rat.sqrt
  sin _ := 0
  cos _ := 1
  acos _ := 0
  atan2 _ _ := 0
  pi := 22 / 7

end Exact

end Stagecraft
