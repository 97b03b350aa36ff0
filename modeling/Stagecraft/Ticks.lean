/-
Seconds and ticks. A host runs a fixed number of ticks a second. A duration is a whole number
of ticks when its product with the rate misses one only by rounding; otherwise a started tick
counts in full.
-/

import Stagecraft.Scalar.Basic

namespace Stagecraft

namespace Ticks

variable {α : Type} [Scalar α]

/-- Tick counts are stored in 64 bits, and larger ones are cut to this. -/
def limit : Nat := Nat.pow 2 64 - 1

/-- A sum of tick counts is stored in 64 bits, too. It wraps around where it does not fit, as
arithmetic does that is not checked. -/
def add (first second : Nat) : Nat :=
  (first + second) % (limit + 1)

/-- How far a product may miss a whole number, relative to that number. -/
def tolerance : α := Scalar.ofDecimal 1 9

/-- `duration * rate`, moved to the nearest whole number when that is within the tolerance. -/
def span (duration rate : α) : α :=
  let exact := duration * rate
  let nearest := Scalar.round exact
  if Scalar.abs (exact - nearest) ≤ tolerance * Scalar.max (Scalar.abs nearest) 1 then nearest
  else exact

/-- The frames that a duration takes. -/
def count (duration rate : α) : Nat :=
  Scalar.ceilUpTo limit (span duration rate)

/-- The seconds after so many frames. -/
def seconds (frames : Nat) (rate : α) : α :=
  Scalar.ofNat frames / rate

end Ticks

end Stagecraft
