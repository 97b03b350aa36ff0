/-
Numbers of a document as doubles. Digits are gathered into 64 bits, and once they are full the
later digits only move the point; the result is then scaled by one power of ten. So a number with
very many digits may come out one place beside the nearest double, and this is the number that
the document stands for.
-/

import Stagecraft.Json.Basic
import Stagecraft.Decimal.Reading

namespace Stagecraft

namespace Json

/-- The largest power of ten that is scaled by at once. -/
def largestPower : Nat := 308

def powerOfTen (exponent : Nat) : Float :=
  Float.ofScientific 1 false exponent

/-- `x / 10 ^ (-exponent)` for an exponent below the range of one step; three steps leave zero of
any number that fits in 64 bits. -/
def scaleDown : Nat → Float → Int → Float
  | 0, x, _ => x
  | steps + 1, x, exponent =>
    if exponent < -(largestPower : Int) then
      if x == 0 then x
      else scaleDown steps (x / powerOfTen largestPower) (exponent + largestPower)
    else x / powerOfTen exponent.natAbs

/-- `significand * 10 ^ exponent`, or nothing where it is too large for a double. -/
def scale? (significand : Nat) (exponent : Int) : Option Float :=
  let x := Float.ofNat significand
  if exponent < 0 then some (scaleDown 4 x exponent)
  else if exponent ≤ largestPower then
    let scaled := x * powerOfTen exponent.natAbs
    if scaled.isFinite then some scaled else none
  else if significand = 0 then some x else none

/-- Digits added to a significand as long as it stays within 64 bits, and the digits left over. -/
def gather (significand : Nat) : List Char → Nat × List Char
  | [] => (significand, [])
  | c :: rest =>
    let next := 10 * significand + Decimal.digitValue c
    if next < Nat.pow 2 64 then gather next rest else (significand, c :: rest)

/-- The largest exponent that is looked at as a number. -/
def largestExponent : Nat := Nat.pow 2 31 - 1

/-- The number of digits before a point, digits after it and a written exponent. -/
def ofParts? (whole fraction : List Char) (written : Int) : Option Float :=
  let (significand, dropped) := gather 0 whole
  let (significand, unused) := gather significand fraction
  if written.natAbs ≤ largestExponent then
    scale? significand (written + dropped.length - (fraction.length - unused.length : Nat))
  else if 0 < written ∧ significand ≠ 0 then none
  else some 0

/-- The double of a spelling that the reader accepts. A whole number within 64 bits is converted
directly. -/
def spellingToFloat? (spelling : String) : Option Float :=
  let (negative, rest) := Decimal.splitSign spelling.toList
  let (whole, rest) := Decimal.spanDigits rest
  let magnitude? :=
    if rest.isEmpty ∧ Decimal.ofDigits whole < Nat.pow 2 64 then
      some (Float.ofNat (Decimal.ofDigits whole))
    else
      let (fraction, rest) := match rest with
        | '.' :: rest => Decimal.spanDigits rest
        | _ => ([], rest)
      (Decimal.readExponent? rest).bind (ofParts? whole fraction)
  magnitude?.map (Double.signed negative)

def toFloat? : Json → Option Float
  | .number spelling => spellingToFloat? spelling
  | _ => none

/-- A whole number within 64 bits, spelled without point or exponent. -/
def toNat? : Json → Option Nat
  | .number spelling =>
    let digits := spelling.toList
    if digits.all Char.isDigit ∧ Decimal.ofDigits digits < Nat.pow 2 64 then
      some (Decimal.ofDigits digits)
    else none
  | _ => none

end Json

end Stagecraft
