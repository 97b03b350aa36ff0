/-
This file takes it for a demand that all numbers be finite. Doubles allow it: constants are finite,
counts are as long as few things are counted, and so are the directions of vectors.
-/

import Stagecraft.Proofs.Logic.Demands
import Stagecraft.Proofs.Scalar.Roots
import Stagecraft.Proofs.Scene.Lengths

namespace Stagecraft

/-! ### Counts -/

namespace Double

open Rounding

theorem isFinite_ofNat {count : Nat} (few : count ≤ 2 * Ticks.limit) :
    Scalar.isFinite (Float.ofNat count) := by
  have small : count ≤ 2 ^ 65 := few.trans (by decide)
  rcases Nat.eq_zero_or_pos count with rfl | positive
  · decide +kernel
  · have low : (2 : ℚ) ^ (0 : Int) ≤ count := by
      rw [zpow_zero]
      exact_mod_cast positive
    have high : (count : ℚ) ≤ 2 ^ (65 : Int) := by exact_mod_cast small
    obtain ⟨mantissa, exponent, canonical, rounds, -⟩ :=
      exists_canonical_between (by norm_num) (by norm_num) low high
    have rounds' : RoundsTo mantissa exponent
        (count * 10 ^ (if false then -((0 : Nat) : Int) else (0 : Nat))) := by
      simpa using rounds
    have packed : Float.ofNat count = Float.ofModel (Float.Model.pack
        (.finite .positive mantissa exponent canonical.pos)) :=
      ofScientific_eq canonical positive.ne' rounds' (by simp) (by simp)
    rw [packed]
    exact fits_finite canonical .positive

end Double

theorem Ticks.count_add_count_le (duration rate duration' rate' : Float) :
    count duration rate + count duration' rate' ≤ 2 * limit := by
  have first : count duration rate ≤ limit := Double.ceilUpTo_le _ _
  have second : count duration' rate' ≤ limit := Double.ceilUpTo_le _ _
  omega

/-! ### Numbers -/

/-- The demand that all numbers are finite. Two durations can be counted, one after the other. -/
def Demand.finite : Demand Float where
  number value := Scalar.isFinite value
  key _ := True
  few count := count ≤ 2 * Ticks.limit
  of_finite := id
  zero := by decide +kernel
  one := by decide +kernel
  minusOne := by decide +kernel
  two := by decide +kernel
  leastNorm := by decide +kernel
  degrees := by decide +kernel
  direction normalizable := normalizable.isFinite_normalize
  slot _ := trivial
  fewer := Nat.le_trans
  ticks := Ticks.count_add_count_le
  count := Double.isFinite_ofNat

theorem Block.meets_finite_iff {block : Block Float} :
    Meets .finite block ↔ ∀ value ∈ literals block, Scalar.isFinite value :=
  and_iff_left fun _ _ => trivial

end Stagecraft
