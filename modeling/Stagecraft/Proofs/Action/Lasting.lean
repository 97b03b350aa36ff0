/-
This file shows which timed actions last. A product of duration and rate that is not above the
tolerance is moved to zero, though the duration is not zero: then the action has no steps to divide
by and no ticks, yet it is advanced in one frame. Any other timed action has steps above zero, and
it is advanced once in each of its ticks, of which there is at least one.
-/

import Stagecraft.Proofs.Action.Lifecycle
import Stagecraft.Proofs.Scalar.Scheduling

namespace Stagecraft

namespace Double

variable {x y : Float} {p q : ℚ}

/-! ### Positive doubles -/

theorem StandsFor.lt_iff (first : StandsFor x p) (second : StandsFor y q) : x < y ↔ p < q := by
  rw [lt_of_compare (first.compare_eq second), compare_lt_iff_lt]

theorem StandsFor.le_iff (first : StandsFor x p) (second : StandsFor y q) : x ≤ y ↔ p ≤ q := by
  rw [le_of_compare (first.compare_eq second), compare_le_iff_le]

theorem StandsFor.zero_lt (stands : StandsFor x q) : 0 < x := by
  obtain ⟨mantissa, exponent, canonical, unpacked, -⟩ := stands
  have compared : (Float.ofNat 0).toModel.unpack.compare x.toModel.unpack = some .lt := by
    rw [unpack_zero, unpacked]
    rfl
  exact (lt_of_compare compared).mpr rfl

/-- A positive number has at least one tick, if no less are allowed. -/
theorem StandsFor.ceilUpTo_pos (stands : StandsFor x q) {limit : Nat} (some : 0 < limit) :
    0 < ceilUpTo limit x := by
  obtain ⟨whole, -, above, ceiling⟩ := stands.exists_ceil limit
  have positive : 0 < whole := by exact_mod_cast stands.pos.trans_le above
  rw [ceiling]
  exact lt_min some positive

/-! ### The tolerance -/

theorem exists_tolerance : ∃ r, StandsFor Ticks.tolerance r ∧ 2 ^ (-30 : Int) < r ∧ r < 1 / 2 := by
  have seen : ofFloat Ticks.tolerance = .number false 4835703278458517 (-82) := by decide +kernel
  refine ⟨_, (standsFor_of_ofFloat (by decide) seen).2, ?_, ?_⟩ <;> norm_num

/-- Near zero the distance that is allowed is not relative to anything. -/
theorem snaps_zero_iff (stands : StandsFor x q) (small : q < 1) :
    Snaps x 0 ↔ x ≤ Ticks.tolerance := by
  have bound : (Ticks.tolerance : Float) * Scalar.max (Scalar.abs (Float.ofNat 0)) 1 =
      Ticks.tolerance := by decide +kernel
  have distance : StandsFor (x - Float.ofNat 0) (q - (0 : Nat)) :=
    stands.sub_ofNat (by exact_mod_cast stands.pos) (by exact_mod_cast small)
  rw [Nat.cast_zero, sub_zero] at distance
  rw [Snaps, bound, distance.eq stands]
  exact iff_of_eq (congrArg (· ≤ _) (abs_of_standsFor stands))

/-! ### Steps and ticks -/

/-- A number of ticks that is above the tolerance leaves steps and ticks, and any other none. -/
def Lasts (x : Float) : Prop :=
  (Ticks.tolerance < x ∧ 0 < Ticks.settle x ∧ 0 < ceilUpTo Ticks.limit (Ticks.settle x)) ∨
    (¬Ticks.tolerance < x ∧ Ticks.settle x = 0 ∧ ceilUpTo Ticks.limit (Ticks.settle x) = 0)

theorem limit_pos : 0 < Ticks.limit := by
  decide

/-- What is above the tolerance is moved to a number that is not much below it. -/
theorem StandsFor.exists_settle (stands : StandsFor x q) (above : Ticks.tolerance < x) :
    ∃ s, StandsFor (Ticks.settle x) s ∧ 2 ^ (-30 : Int) < s := by
  obtain ⟨r, tolerance, tiny, less⟩ := exists_tolerance
  rw [tolerance.lt_iff stands] at above
  rcases stands.round_eq with ⟨whole, -, rounded⟩ | ⟨nearest, small, -, near, rounded⟩
  · rw [settle_eq rounded, ite_self]
    exact ⟨q, stands, tiny.trans above⟩
  · rw [settle_eq rounded]
    split
    · rename_i snaps
      rcases Nat.eq_zero_or_pos nearest with rfl | positive
      · rw [Nat.cast_zero, zero_add] at near
        have within := (snaps_zero_iff stands (by linarith)).mp snaps
        exact absurd ((stands.le_iff tolerance).mp within) (not_le.mpr above)
      · refine ⟨nearest, standsFor_ofNat positive (small.trans (by norm_num)), ?_⟩
        have least : (1 : ℚ) ≤ nearest := by exact_mod_cast positive
        linarith
    · exact ⟨q, stands, tiny.trans above⟩

/-- What is not above the tolerance is moved to zero. -/
theorem StandsFor.settle_eq_zero (stands : StandsFor x q) (notAbove : ¬Ticks.tolerance < x) :
    Ticks.settle x = Float.ofNat 0 := by
  obtain ⟨r, tolerance, -, less⟩ := exists_tolerance
  rw [tolerance.lt_iff stands, not_lt] at notAbove
  rcases stands.round_eq with ⟨whole, rfl, -⟩ | ⟨nearest, -, below, -, rounded⟩
  · have least : (1 : ℚ) ≤ whole := by exact_mod_cast (Nat.cast_pos.mp stands.pos : 0 < whole)
    linarith
  · have nothing : nearest = 0 := by
      have less : (nearest : ℚ) < 1 := by linarith
      exact Nat.lt_one_iff.mp (by exact_mod_cast less)
    subst nothing
    rw [settle_eq rounded]
    exact if_pos ((snaps_zero_iff stands (by linarith)).mpr ((stands.le_iff tolerance).mpr notAbove))

theorem StandsFor.lasts (stands : StandsFor x q) : Lasts x := by
  by_cases above : Ticks.tolerance < x
  · obtain ⟨s, settled, -⟩ := stands.exists_settle above
    exact .inl ⟨above, settled.zero_lt, settled.ceilUpTo_pos limit_pos⟩
  · have zero := stands.settle_eq_zero above
    rw [Lasts, zero, ceilUpTo_ofNat (Nat.zero_le _), Nat.min_zero]
    exact .inr ⟨above, rfl, rfl⟩

/-- What is rounded to a double is zero, a positive number or infinite. -/
theorem IsRounded.zero_or (rounded : IsRounded x q) :
    x = Float.ofNat 0 ∨ (∃ r, StandsFor x r) ∨
      x = Float.ofModel (Float.Model.pack (.infinity .positive)) := by
  cases rounded with
  | nothing zero _ => exact .inl zero
  | @number mantissa exponent reduced isPacked _ =>
    rw [isPacked]
    rcases le_or_gt exponent 971 with fits | huge
    · exact .inr (.inl ⟨_, standsFor_pack ⟨reduced, fits⟩⟩)
    · exact .inr (.inr (by rw [pack_huge reduced.pos huge]))

theorem settle_infinity :
    Ticks.settle (Float.ofModel (Float.Model.pack (.infinity .positive))) =
      Float.ofModel (Float.Model.pack (.infinity .positive)) :=
  settle_of_infinite (by decide +kernel)

theorem IsRounded.lasts (rounded : IsRounded x q) : Lasts x := by
  rcases rounded.zero_or with rfl | ⟨r, stands⟩ | rfl
  · rw [Lasts, ceilUpTo_settle_zero, settle_zero]
    exact .inr ⟨by decide +kernel, rfl, rfl⟩
  · exact stands.lasts
  · rw [Lasts, settle_infinity]
    exact .inl ⟨by decide +kernel, by decide +kernel, by decide +kernel⟩

end Double

namespace Timing

/-- A duration that is not zero leaves steps above zero and at least one tick if its product with
the rate is above the tolerance, and neither steps nor ticks otherwise. -/
theorem lasts {timing : Timing Float} (finite : Scalar.isFinite timing.duration)
    (timed : timing.isTimed) (finiteRate : Scalar.isFinite timing.rate)
    (forward : 0 < timing.rate) :
    (Ticks.tolerance < timing.duration * timing.rate ∧ 0 < timing.steps ∧ 0 < timing.ticks) ∨
      (¬Ticks.tolerance < timing.duration * timing.rate ∧ timing.steps = 0 ∧ timing.ticks = 0) := by
  obtain ⟨p, duration⟩ := Double.exists_standsFor finite (of_decide_eq_true timed)
  obtain ⟨q, rate⟩ := Double.exists_standsFor finiteRate forward
  exact (duration.isRounded_mul rate).lasts

end Timing

namespace Instance

/-- A timed action divides by steps above zero and is advanced in as many frames as it has ticks,
exactly if the product of its duration and the rate is above the tolerance. Otherwise it would
divide by zero, and the one frame in which it is advanced is no tick. -/
theorem lasts_above_tolerance {action : Instance Float}
    (finite : Scalar.isFinite action.timing.duration) (timed : action.isTimed)
    (finiteRate : Scalar.isFinite action.timing.rate) (forward : 0 < action.timing.rate) :
    let product := action.timing.duration * action.timing.rate
    (Ticks.tolerance < product → 0 < action.timing.steps ∧ 0 < action.ticks ∧
      action.frames = action.ticks) ∧
    (¬Ticks.tolerance < product → action.timing.steps = 0 ∧ action.ticks = 0 ∧
      action.frames = 1) := by
  rcases Timing.lasts finite timed finiteRate forward with ⟨above, steps, ticks⟩ |
    ⟨notAbove, steps, ticks⟩
  · exact ⟨fun _ => ⟨steps, ticks, max_eq_right ticks⟩, fun notAbove => absurd above notAbove⟩
  · refine ⟨fun above => absurd above notAbove, fun _ => ⟨steps, ticks, ?_⟩⟩
    rw [frames, show action.ticks = 0 from ticks]
    rfl

/-- Light that goes off in less than a millionth of a tick. -/
def flicker : Instance Float where
  number := 0
  label := "visibility"
  targets := ["lamp"]
  timing := ⟨1e-10, 1⟩
  effect := .fade false

theorem lasts_above_tolerance_flicker :
    flicker.isTimed ∧ flicker.timing.steps = 0 ∧ flicker.ticks = 0 ∧ flicker.frames = 1 := by
  have timed : flicker.isTimed = true := by decide +kernel
  exact ⟨timed, (lasts_above_tolerance (by decide +kernel) timed (by decide +kernel)
    (by decide +kernel)).2 (by decide +kernel)⟩

end Instance

end Stagecraft
