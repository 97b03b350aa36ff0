/-
The fewest decimal digits that name a double. A positive double stands for the interval of reals
that round to it. For one digit, two digits and so on the decimal grid of that many digits has
two neighbours of the double; the first grid with a neighbour inside the interval gives the
answer. All comparisons are between whole numbers.
-/

import Stagecraft.Scalar.Double

namespace Stagecraft

/-- The decimal `digits * 10 ^ exponent`. -/
structure Decimal where
  digits : Nat
  exponent : Int
deriving DecidableEq

/-- Where a point halfway between two candidates goes. -/
inductive Tie where
  | up
  | even
deriving DecidableEq

namespace Decimal

def digitCount (n : Nat) : Nat :=
  (Nat.toDigits 10 n).length

/-- A positive double and the ends of its interval, as multiples `_ * numerator / denominator` of
one unit, a quarter of the last place. The lower end is nearer where the exponent changes. -/
structure Span where
  low : Nat
  value : Nat
  high : Nat
  numerator : Nat
  denominator : Nat
  /-- The ends themselves round to the double. -/
  closed : Bool

def Span.ofDouble (mantissa : Nat) (exponent : Int) : Span where
  low := 4 * mantissa - (if mantissa = Nat.pow 2 52 ∧ -1074 < exponent then 1 else 2)
  value := 4 * mantissa
  high := 4 * mantissa + 2
  numerator := Nat.pow 2 (exponent - 2).toNat
  denominator := Nat.pow 2 (2 - exponent).toNat
  closed := mantissa % 2 = 0

namespace Span

variable (span : Span)

/-- The decimal exponent of the leading digit: `10 ^ leading ≤ value < 10 ^ (leading + 1)`. -/
def leading : Int :=
  let value := span.value * span.numerator
  if span.denominator ≤ value then
    digitCount (value / span.denominator) - 1
  else
    -digitCount ((span.denominator + value - 1) / value - 1)

/-- `count * unit`, on the scale where a step of the grid `10 ^ exponent` is `step`. -/
def onGrid (exponent : Int) (count : Nat) : Nat :=
  count * span.numerator * Nat.pow 10 (-exponent).toNat

/-- A step of the grid `10 ^ exponent`, on the scale of `onGrid`. -/
def step (exponent : Int) : Nat :=
  span.denominator * Nat.pow 10 exponent.toNat

/-- Whether `digits * 10 ^ exponent` rounds to the double. -/
def holds (exponent : Int) (digits : Nat) : Bool :=
  let point := digits * span.step exponent
  let low := span.onGrid exponent span.low
  let high := span.onGrid exponent span.high
  if span.closed then low ≤ point ∧ point ≤ high else low < point ∧ point < high

/-- The grid point at or just below the double. -/
def below (exponent : Int) : Nat :=
  span.onGrid exponent span.value / span.step exponent

/-- Of the two grid points around the double the nearer one. -/
def nearest (tie : Tie) (exponent : Int) : Nat :=
  let digits := span.below exponent
  let beneath := span.onGrid exponent span.value - digits * span.step exponent
  let above := (digits + 1) * span.step exponent - span.onGrid exponent span.value
  if beneath < above then digits
  else if above < beneath then digits + 1
  else match tie with
    | .up => digits + 1
    | .even => if digits % 2 = 0 then digits else digits + 1

/-- The best decimal of the grid `10 ^ exponent`, if one rounds to the double. -/
def onlyOn (tie : Tie) (exponent : Int) : Option Decimal :=
  let digits := span.below exponent
  match span.holds exponent digits, span.holds exponent (digits + 1) with
  | true, true => some ⟨span.nearest tie exponent, exponent⟩
  | true, false => some ⟨digits, exponent⟩
  | false, true => some ⟨digits + 1, exponent⟩
  | false, false => none

end Span

/-- A power of ten in digits is written as one digit. -/
def trim (count : Nat) (decimal : Decimal) : Decimal :=
  if decimal.digits = Nat.pow 10 count then ⟨1, decimal.exponent + count⟩ else decimal

/-- The shortest decimal of a positive double; seventeen digits always suffice. -/
def shortest (tie : Tie) (mantissa : Nat) (exponent : Int) : Decimal :=
  let span := Span.ofDouble mantissa exponent
  let grid (count : Nat) : Int := span.leading - (count - 1 : Nat)
  let found := (List.range' 1 17).findSome? fun count =>
    (span.onlyOn tie (grid count)).map (trim count)
  found.getD ⟨span.nearest tie (grid 17), grid 17⟩

end Decimal

end Stagecraft
