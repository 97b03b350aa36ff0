/-
Doubles. A double that is a number is `mantissa * 2 ^ exponent` with a sign, and the roundings
are defined on that view in whole-number arithmetic, so that they can be computed in proofs.
The file ends with the doubles as scalars.
-/

import Stagecraft.Scalar.Basic

namespace Stagecraft

/-- What a double stands for. -/
inductive Double where
  | notANumber
  | infinite (negative : Bool)
  /-- `mantissa * 2 ^ exponent`, negated when `negative`. -/
  | number (negative : Bool) (mantissa : Nat) (exponent : Int)
deriving DecidableEq

namespace Double

def ofBits (bits : Nat) : Double :=
  let negative := Nat.pow 2 63 ≤ bits
  let exponent : Nat := bits / Nat.pow 2 52 % Nat.pow 2 11
  let fraction := bits % Nat.pow 2 52
  if exponent = 2047 then
    if fraction = 0 then .infinite negative else .notANumber
  else if exponent = 0 then .number negative fraction (-1074)
  else .number negative (Nat.pow 2 52 + fraction) ((exponent : Int) - 1075)

def ofFloat (x : Float) : Double :=
  ofBits x.toBits.toNat

/-- The nearest whole number to `mantissa / 2 ^ places`; a half goes up. -/
def roundHalfUp (mantissa places : Nat) : Nat :=
  (2 * mantissa + Nat.pow 2 places) / Nat.pow 2 (places + 1)

/-- The least whole number not below `mantissa / 2 ^ places`. -/
def ceilShift (mantissa places : Nat) : Nat :=
  (mantissa + (Nat.pow 2 places - 1)) / Nat.pow 2 places

/-- The double with its sign set. -/
def signed (negative : Bool) (x : Float) : Float :=
  if negative then -x else x

/-- The nearest whole number; halves go away from zero, and the sign of zero is kept. A double
with a non-negative exponent is whole already. -/
def round (x : Float) : Float :=
  match ofFloat x with
  | .number negative mantissa (.negSucc places) =>
    signed negative (Float.ofNat (roundHalfUp mantissa (places + 1)))
  | _ => x

/-- The ceiling as a natural number, at most `limit`; negative numbers and values that are no
number give zero. -/
def ceilUpTo (limit : Nat) (x : Float) : Nat :=
  match ofFloat x with
  | .number false mantissa (.ofNat shift) => min limit (mantissa * Nat.pow 2 shift)
  | .number false mantissa (.negSucc places) => min limit (ceilShift mantissa (places + 1))
  | .infinite false => limit
  | _ => 0

/-- The place of a double in the order of bit patterns: `-0` just below `0`. -/
def orderKey (x : Float) : Int :=
  let bits := x.toBits.toNat
  if Nat.pow 2 63 ≤ bits then -((bits : Int) - Nat.pow 2 63) - 1 else bits

/-- The smaller of two doubles; a value that is no number gives way to the other. -/
def min (x y : Float) : Float :=
  if x.isNaN then y else if y < x then y else x

/-- The larger of two doubles; a value that is no number gives way to the other. -/
def max (x y : Float) : Float :=
  if x.isNaN then y else if x < y then y else x

end Double

instance : Scalar Float where
  zero := 0
  one := 1
  decideLt := inferInstance
  decideLe := inferInstance
  ofNat := Float.ofNat
  ofDecimal digits places := Float.ofScientific digits true places
  isFinite := Float.isFinite
  abs := Float.abs
  min := Double.min
  max := Double.max
  round := Double.round
  ceilUpTo := Double.ceilUpTo
  precedes x y := decide (Double.orderKey x ≤ Double.orderKey y)

instance : Trigonometric Float where
  sqrt := Float.sqrt
  sin := Float.sin
  cos := Float.cos
  acos := Float.acos
  atan2 := Float.atan2
  pi := 3.141592653589793

end Stagecraft
