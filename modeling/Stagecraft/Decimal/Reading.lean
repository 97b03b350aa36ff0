/-
Reading a decimal as the nearest double: an optional sign, digits with at most one point and an
optional exponent, or a name of infinity or of the value that is no number. Settings and command
line arguments are read by this rule.
-/

import Stagecraft.Scalar.Double

namespace Stagecraft

namespace Decimal

def digitValue (c : Char) : Nat :=
  c.toNat - '0'.toNat

/-- The number that a list of digits writes. -/
def ofDigits (digits : List Char) : Nat :=
  digits.foldl (fun value c => 10 * value + digitValue c) 0

/-- `digits * 10 ^ exponent` as the nearest double. The powers computed stay small: what lies
beyond the range of doubles is decided by the position of the leading digit. -/
def nearestDouble (digits : Nat) (exponent : Int) : Float :=
  let leading : Int := (Nat.toDigits 10 digits).length + exponent
  if digits = 0 ∨ leading < -400 then 0
  else if 400 < leading then 1 / 0
  else Float.ofScientific digits (decide (exponent < 0)) exponent.natAbs

/-- The leading digits of a text, and what follows. -/
def spanDigits (text : List Char) : List Char × List Char :=
  (text.takeWhile Char.isDigit, text.dropWhile Char.isDigit)

/-- A sign in front of a text, and what follows; `true` for a minus. -/
def splitSign : List Char → Bool × List Char
  | '-' :: rest => (true, rest)
  | '+' :: rest => (false, rest)
  | text => (false, text)

/-- A whole number with an optional sign, to the end of the text. -/
def readInteger? (text : List Char) : Option Int :=
  let (negative, rest) := splitSign text
  if rest.isEmpty ∨ ¬ rest.all Char.isDigit then none
  else if negative then some (-(ofDigits rest : Int)) else some (ofDigits rest)

/-- An exponent part to the end of the text; nothing stands for zero. -/
def readExponent? : List Char → Option Int
  | [] => some 0
  | c :: rest => if c = 'e' ∨ c = 'E' then readInteger? rest else none

/-- Digits, point, digits and exponent; there is a digit before or after the point. -/
def readMagnitude? (text : List Char) : Option Float :=
  let (whole, rest) := spanDigits text
  let (fraction, rest) := match rest with
    | '.' :: rest => spanDigits rest
    | _ => ([], rest)
  if whole.isEmpty ∧ fraction.isEmpty then none
  else (readExponent? rest).map fun exponent =>
    nearestDouble (ofDigits (whole ++ fraction)) (exponent - fraction.length)

/-- The double that a text names. -/
def read? (text : String) : Option Float :=
  let (negative, rest) := splitSign text.toList
  let magnitude? :=
    match String.ofList (rest.map Char.toLower) with
    | "inf" | "infinity" => some (1 / 0)
    | "nan" => some (0 / 0)
    | _ => readMagnitude? rest
  magnitude?.map (Double.signed negative)

/-- The natural number below `bound` that a text names; a plus sign may stand in front. -/
def readBelow? (bound : Nat) (text : String) : Option Nat :=
  let digits := match text.toList with
    | '+' :: rest => rest
    | rest => rest
  if digits.isEmpty ∨ ¬ digits.all Char.isDigit then none
  else if ofDigits digits < bound then some (ofDigits digits) else none

end Decimal

end Stagecraft
