/-
How decimals are laid out as text. A layout says which numbers are written with a positional
point and which with an exponent; the digits are always the shortest that name the double.
Texts with a fixed number of places round the exact value instead.
-/

import Stagecraft.Decimal.Shortest

namespace Stagecraft

namespace Decimal

/-- The decisions of one number format. -/
structure Layout where
  tie : Tie
  /-- Whether a number whose leading digit stands at this power of ten is written positionally. -/
  isPositional : Int → Bool
  /-- What follows a positional whole number. -/
  wholeSuffix : String

/-- Positional always, and bare whole numbers: the text of numbers in messages, in scripts and
in settings. -/
def plain : Layout where
  tie := .up
  isPositional _ := true
  wholeSuffix := ""

def zeros (count : Nat) : String :=
  "".pushn '0' count

/-- The digits with a point, or with the suffix of whole numbers. -/
def positional (wholeSuffix : String) (decimal : Decimal) : String :=
  let digits := toString decimal.digits
  match decimal.exponent with
  | .ofNat places => digits ++ zeros places ++ wholeSuffix
  | .negSucc less =>
    let places := less + 1
    if places < digits.length then
      let whole := digits.length - places
      String.ofList (digits.toList.take whole) ++ "." ++ String.ofList (digits.toList.drop whole)
    else "0." ++ zeros (places - digits.length) ++ digits

/-- One digit before the point, and a signed exponent. -/
def scientific (decimal : Decimal) : String :=
  let digits := toString decimal.digits
  let leading := decimal.exponent + (digits.length - 1 : Nat)
  let fraction := String.ofList (digits.toList.drop 1)
  String.ofList (digits.toList.take 1) ++ (if fraction.isEmpty then "" else "." ++ fraction) ++
    "e" ++ (if leading < 0 then "-" else "+") ++ toString leading.natAbs

def layOut (layout : Layout) (decimal : Decimal) : String :=
  let leading := decimal.exponent + ((toString decimal.digits).length - 1 : Nat)
  if layout.isPositional leading then positional layout.wholeSuffix decimal
  else scientific decimal

def signText (negative : Bool) : String :=
  if negative then "-" else ""

/-- The text of a double. A value that is no number has no sign. -/
def text (layout : Layout) (x : Float) : String :=
  match Double.ofFloat x with
  | .notANumber => "NaN"
  | .infinite negative => signText negative ++ "inf"
  | .number negative 0 _ => signText negative ++ layOut layout ⟨0, 0⟩
  | .number negative mantissa exponent =>
    signText negative ++ layOut layout (shortest layout.tie mantissa exponent)

/-- `numerator / denominator` to the nearest whole number, halves to the even neighbour. -/
def divideToEven (numerator denominator : Nat) : Nat :=
  let quotient := numerator / denominator
  let twice := 2 * (numerator % denominator)
  if twice < denominator ∨ (twice = denominator ∧ quotient % 2 = 0) then quotient
  else quotient + 1

/-- The exact value rounded to a number of places, all of which are written. -/
def fixed (places : Nat) (x : Float) : String :=
  match Double.ofFloat x with
  | .number negative mantissa exponent =>
    let digits := toString (divideToEven (mantissa * Nat.pow 2 exponent.toNat * Nat.pow 10 places)
      (Nat.pow 2 (-exponent).toNat))
    let padded := (zeros (places + 1 - digits.length) ++ digits).toList
    let whole := padded.length - places
    signText negative ++ String.ofList (padded.take whole) ++ "." ++
      String.ofList (padded.drop whole)
  | _ => text plain x

end Decimal

end Stagecraft
