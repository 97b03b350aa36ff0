/-
This file shows that rounding never costs a tick or adds one where seconds are given in hundredths.
The product of such a duration and a whole rate is a whole number, or a hundredth or more away from
every one. What rounding adds to it is less than the tolerance, and the tolerance is less than a
hundredth. So a whole number of ticks is found again, and a started tick still counts in full.
-/

import Stagecraft.Proofs.Scalar.Errors
import Stagecraft.Proofs.Timeline.Spans

namespace Stagecraft

open scoped Exact

namespace Ticks

/-! ### Shares -/

section

variable {K : Type} [Field K] [LinearOrder K] [FloorRing K] [IsStrictOrderedRing K]

/-- Where a product lies that is a number of hundredths but for rounding: next to a whole number, or
well between it and the one before. -/
inductive Lands (x : K) (whole : Nat) : Prop
  | near : |x - whole| ≤ 2 ^ (-51 : Int) * whole → Lands x whole
  | inside : (whole : K) - 1 + 1 / 200 ≤ x → x ≤ whole - 1 / 200 → Lands x whole

omit [IsStrictOrderedRing K] in
theorem ceil_eq {x : K} {whole : Nat} (above : (whole : K) - 1 < x) (below : x ≤ whole) :
    ⌈x⌉₊ = whole := by
  refine le_antisymm (Nat.ceil_le.mpr below) ?_
  cases whole with
  | zero => exact Nat.zero_le _
  | succ before =>
    rw [Nat.cast_succ, add_sub_cancel_right] at above
    exact Nat.succ_le_of_lt (Nat.lt_ceil.mpr above)

/-- Two whole numbers of which none is one above the other or more. -/
theorem eq_of_lt_add_one {first second : Nat} (less : (first : K) < second + 1)
    (more : (second : K) < first + 1) : first = second :=
  le_antisymm (Nat.lt_succ_iff.mp (by exact_mod_cast less))
    (Nat.lt_succ_iff.mp (by exact_mod_cast more))

theorem min_limit {whole : Nat} (small : whole ≤ 10 ^ 6) : min limit whole = whole :=
  min_eq_right (small.trans (by norm_num [limit]))

/-- The noise is much smaller than a hundredth. -/
theorem noise_le {share : K} (small : share ≤ 10 ^ 6) : 2 ^ (-51 : Int) * share ≤ 1 / 200 := by
  have power : (2 : K) ^ (-51 : Int) ≤ 1 / (200 * 10 ^ 6) := by
    rw [zpow_neg, ← one_div]
    exact one_div_le_one_div_of_le (by norm_num) (by norm_num)
  calc 2 ^ (-51 : Int) * share ≤ 2 ^ (-51 : Int) * 10 ^ 6 :=
        mul_le_mul_of_nonneg_left small (by positivity)
    _ ≤ 1 / (200 * 10 ^ 6) * 10 ^ 6 := mul_le_mul_of_nonneg_right power (by norm_num)
    _ = 1 / 200 := by norm_num

/-- The noise is much smaller than the share. -/
theorem half_le_of_noise {x share : K} (nonneg : 0 ≤ share)
    (noise : |x - share| ≤ 2 ^ (-51 : Int) * share) : share / 2 ≤ x := by
  have half : (2 : K) ^ (-51 : Int) * share ≤ 1 / 2 * share :=
    mul_le_mul_of_nonneg_right (by norm_num) nonneg
  have low := (abs_le.mp (noise.trans half)).1
  linarith

theorem exists_lands {count : Nat} (small : count ≤ 100 * 10 ^ 6) {x : K}
    (noise : |x - count / 100| ≤ 2 ^ (-51 : Int) * (count / 100)) :
    ∃ whole, ⌈(count / 100 : K)⌉₊ = whole ∧ whole ≤ 10 ^ 6 ∧ Lands x whole := by
  let whole := (count + 99) / 100
  obtain ⟨missing, few, total⟩ : ∃ missing, missing < 100 ∧ count + missing = 100 * whole :=
    ⟨100 * whole - count, by omega, by omega⟩
  have share : (count / 100 : K) = whole - missing / 100 := by
    have cast : (count : K) + missing = 100 * whole := by exact_mod_cast total
    rw [eq_sub_iff_add_eq, ← add_div, cast, mul_div_cancel_left₀ _ (by norm_num)]
  have fewer : (missing / 100 : K) < 1 := by
    rw [div_lt_one (by norm_num)]
    exact_mod_cast few
  refine ⟨whole, ceil_eq (by linarith) (share ▸ sub_le_self _ (by positivity)), by omega, ?_⟩
  rcases Nat.eq_zero_or_pos missing with none | some
  · rw [share, none, Nat.cast_zero, zero_div, sub_zero] at noise
    exact .near noise
  · have hundredth : (1 / 100 : K) ≤ missing / 100 := by
      rw [div_le_div_iff_of_pos_right (by norm_num)]
      exact_mod_cast some
    have hundredth' : (missing / 100 : K) ≤ 99 / 100 := by
      rw [div_le_div_iff_of_pos_right (by norm_num)]
      exact_mod_cast Nat.le_of_lt_succ few
    have bound : (count / 100 : K) ≤ 10 ^ 6 := by
      rw [div_le_iff₀ (by norm_num), mul_comm]
      exact_mod_cast small
    obtain ⟨low, high⟩ := abs_le.mp (noise.trans (noise_le bound))
    rw [share] at low high
    exact .inside (by linarith) (by linarith)

/-! ### Without rounding -/

/-- Next to a whole number the slack is more than the noise. -/
theorem ceil_settle_of_near {x : K} {whole : Nat} (nonneg : 0 ≤ x) (small : whole ≤ 10 ^ 6)
    (noise : |x - whole| ≤ 2 ^ (-51 : Int) * whole) : ⌈settle x⌉₊ = whole := by
  have small' : (whole : K) ≤ 10 ^ 6 := by exact_mod_cast small
  obtain ⟨above, below⟩ := abs_le.mp (noise.trans (noise_le small'))
  have nearest : round x = whole := by
    rw [round_eq_iff, Int.cast_natCast]
    constructor <;> linarith
  have cast : (round x : K) = whole := by rw [nearest, Int.cast_natCast]
  have settled := settles nonneg
  generalize settle x = y at settled ⊢
  cases settled with
  | near => rw [cast, Nat.ceil_natCast]
  | far beyond =>
    have allowed : 2 ^ (-51 : Int) * whole ≤ slack x := by
      rw [slack_eq, cast]
      exact mul_le_mul (by norm_num) (le_max_right _ _) (Nat.cast_nonneg _) (by norm_num)
    rw [cast] at beyond
    exact absurd (noise.trans allowed) (not_le.mpr beyond)

/-- Between two whole numbers the slack does not reach any of them. -/
theorem ceil_settle_of_inside {x : K} {whole : Nat} (nonneg : 0 ≤ x) (small : whole ≤ 10 ^ 6)
    (above : (whole : K) - 1 + 1 / 200 ≤ x) (below : x ≤ whole - 1 / 200) : ⌈settle x⌉₊ = whole := by
  have settled := settles nonneg
  have high := round_le_add_half x
  generalize settle x = y at settled ⊢
  cases settled with
  | near within =>
    have allowed : slack x ≤ 1 / 1000 := by
      have most : (round x : K) ≤ 10 ^ 6 := by
        have top : round x < (whole : Int) + 1 := by
          have less : (round x : K) < (whole : K) + 1 := by linarith
          exact_mod_cast less
        exact_mod_cast (Int.lt_add_one_iff.mp top).trans (by exact_mod_cast small)
      calc slack x = 1 / 10 ^ 9 * max 1 (round x : K) := slack_eq x
        _ ≤ 1 / 10 ^ 9 * 10 ^ 6 :=
            mul_le_mul_of_nonneg_left (max_le (by norm_num) most) (by norm_num)
        _ = 1 / 1000 := by norm_num
    obtain ⟨left, right⟩ := abs_le.mp (within.trans allowed)
    have more : (whole : K) < round x + 1 := by linarith
    have less : (round x : K) < whole := by linarith
    have apart : (whole : Int) ≤ round x := Int.lt_add_one_iff.mp (by exact_mod_cast more)
    exact absurd less (not_lt.mpr (by exact_mod_cast apart))
  | far => exact ceil_eq (by linarith) (by linarith)

theorem Lands.count_eq {x : K} {whole : Nat} (nonneg : 0 ≤ x) (small : whole ≤ 10 ^ 6)
    (lands : Lands x whole) : Scalar.ceilUpTo limit (settle x) = whole := by
  have ceiling : ⌈settle x⌉₊ = whole := by
    cases lands with
    | near noise => exact ceil_settle_of_near nonneg small noise
    | inside above below => exact ceil_settle_of_inside nonneg small above below
  rw [ceilUpTo_eq, ceiling, min_limit small]

end

end Ticks

open Float.Model Rounding

namespace Double

variable {x y : Float} {p q : ℚ}

/-! ### With rounding -/

theorem exists_standsFor_tolerance :
    ∃ q, StandsFor Ticks.tolerance q ∧ 2 ^ (-30 : Int) ≤ q ∧ q ≤ 2 ^ (-29 : Int) := by
  have seen : ofFloat (Ticks.tolerance : Float) = .number false 4835703278458517 (-82) := by
    decide +kernel
  refine ⟨_, (standsFor_of_ofFloat (by norm_num) seen).2, ?_, ?_⟩ <;> norm_num

theorem StandsFor.max_one {count : Nat} (positive : 0 < count) (stands : StandsFor x count) :
    Scalar.max (Scalar.abs x) 1 = x := by
  have sameAbs : Scalar.abs x = x := abs_of_standsFor stands
  have isNumber : x.isNaN = false := by
    obtain ⟨_, _, _, unpacked, -⟩ := stands
    show x.toModel.unpack.isNaN = false
    rw [unpacked]
    rfl
  rw [sameAbs]
  show (if x.isNaN then 1 else if x < 1 then 1 else x) = x
  have notLess : ¬x < 1 := by
    rw [lt_of_compare (stands.compare_eq standsFor_one), compare_lt_iff_lt, not_lt]
    exact_mod_cast positive
  rw [isNumber, if_neg Bool.false_ne_true, if_neg notLess]

/-- How far a double may miss a whole number that is not too large to be moved there. -/
theorem exists_standsFor_allowance {whole : Nat} (small : whole ≤ 10 ^ 6) :
    ∃ allowance, StandsFor
        (Ticks.tolerance * Scalar.max (Scalar.abs (Float.ofNat whole)) 1) allowance ∧
      2 ^ (-51 : Int) * whole ≤ allowance ∧ allowance ≤ 1 / 500 := by
  obtain ⟨factor, positive, factorSmall, within, stands⟩ : ∃ factor : Nat, 0 < factor ∧
      factor ≤ 10 ^ 6 ∧ whole ≤ factor ∧
        StandsFor (Scalar.max (Scalar.abs (Float.ofNat whole)) 1) factor := by
    rcases Nat.eq_zero_or_pos whole with rfl | positive
    · have one : Scalar.max (Scalar.abs (Float.ofNat 0)) 1 = (1 : Float) := by decide +kernel
      refine ⟨1, one_pos, by norm_num, zero_le_one, ?_⟩
      rw [one, Nat.cast_one]
      exact standsFor_one
    · have stands := standsFor_ofNat positive (small.trans (by norm_num))
      refine ⟨whole, positive, small, le_rfl, ?_⟩
      rwa [stands.max_one positive]
  obtain ⟨tolerance, isTolerance, least, greatest⟩ := exists_standsFor_tolerance
  have least' : (1 : ℚ) ≤ factor := by exact_mod_cast positive
  have greatest' : (factor : ℚ) ≤ 10 ^ 6 := by exact_mod_cast factorSmall
  have low : 2 ^ (-30 : Int) * factor ≤ tolerance * factor :=
    mul_le_mul_of_nonneg_right least (by positivity)
  have high : tolerance * factor ≤ 2 ^ (-29 : Int) * 10 ^ 6 :=
    mul_le_mul greatest greatest' (by positivity) (by positivity)
  have positive' : 0 < tolerance * factor := mul_pos isTolerance.pos (by linarith)
  have moved : tolerance * factor / (2 ^ 53 - 1) ≤ tolerance * factor / 100 :=
    div_le_div_of_nonneg_left positive'.le (by norm_num) (by norm_num)
  obtain ⟨allowance, isAllowance, near⟩ := isTolerance.exists_mul stands
    (((le_mul_of_one_le_right (by positivity) least').trans low).trans' (by norm_num))
    (high.trans (by norm_num))
  obtain ⟨left, right⟩ := abs_le.mp (near.trans moved)
  refine ⟨allowance, isAllowance, ?_, ?_⟩
  · have within' : (whole : ℚ) ≤ factor := by exact_mod_cast within
    calc (2 : ℚ) ^ (-51 : Int) * whole ≤ 2 ^ (-31 : Int) * factor :=
          mul_le_mul (by norm_num) within' (by positivity) (by positivity)
      _ = 2 ^ (-30 : Int) * factor / 2 := by
          rw [show (-31 : Int) = -30 - 1 from rfl, zpow_sub_one₀ two_ne_zero]
          ring
      _ ≤ tolerance * factor / 2 := div_le_div_of_nonneg_right low zero_le_two
      _ ≤ allowance := by linarith only [left, positive']
  · calc allowance ≤ tolerance * factor * (101 / 100) := by
          linarith only [right]
      _ ≤ 2 ^ (-29 : Int) * 10 ^ 6 * (101 / 100) :=
          mul_le_mul_of_nonneg_right high (by norm_num)
      _ ≤ 1 / 500 := by norm_num

theorem StandsFor.exists_snaps_iff (stands : StandsFor x q) {whole : Nat} (small : whole ≤ 10 ^ 6)
    (below : (whole : ℚ) < q) (above : q < whole + 1) :
    ∃ allowance : ℚ, (Snaps x whole ↔ q - whole ≤ allowance) ∧
      2 ^ (-51 : Int) * whole ≤ allowance ∧ allowance ≤ 1 / 500 := by
  obtain ⟨allowance, isAllowance, least, greatest⟩ := exists_standsFor_allowance small
  have distance := stands.sub_ofNat below above
  have sameAbs : Scalar.abs (x - Float.ofNat whole) = x - Float.ofNat whole :=
    abs_of_standsFor distance
  refine ⟨allowance, ?_, least, greatest⟩
  rw [Snaps, sameAbs, le_of_compare (distance.compare_eq isAllowance), compare_le_iff_le]

/-- What is above the whole number by rounding only is near enough to be moved there. -/
theorem StandsFor.count_of_near (stands : StandsFor x q) {whole : Nat} (small : whole ≤ 10 ^ 6)
    (noise : |q - whole| ≤ 2 ^ (-51 : Int) * whole) :
    ceilUpTo Ticks.limit (Ticks.settle x) = whole := by
  have small' : (whole : ℚ) ≤ 10 ^ 6 := by exact_mod_cast small
  obtain ⟨left, right⟩ := abs_le.mp (noise.trans (Ticks.noise_le small'))
  obtain ⟨nearest, above, settles⟩ := stands.exists_settles Ticks.limit
  have low := settles.lt_above
  have high := settles.le_above
  have low' := settles.nearest_le
  have high' := settles.lt_nearest
  obtain rfl : nearest = whole :=
    Ticks.eq_of_lt_add_one (by linarith : (nearest : ℚ) < _) (by linarith)
  rcases settles.count with ⟨count, -⟩ | ⟨count, notSnaps⟩
  · rw [count, Ticks.min_limit small]
  · rcases le_or_gt q nearest with within | beyond
    · obtain rfl : above = nearest :=
        Ticks.eq_of_lt_add_one (by linarith : (above : ℚ) < _) (by linarith)
      rw [count, Ticks.min_limit small]
    · obtain ⟨allowance, snaps, least, -⟩ := stands.exists_snaps_iff small beyond (by linarith)
      exact absurd (snaps.mpr ((le_abs_self _).trans (noise.trans least))) (notSnaps beyond)

/-- What is above a whole number by a hundredth is not near enough to be moved there. -/
theorem StandsFor.count_of_inside (stands : StandsFor x q) {whole : Nat} (small : whole ≤ 10 ^ 6)
    (after : (whole : ℚ) - 1 + 1 / 200 ≤ q) (before : q ≤ whole - 1 / 200) :
    ceilUpTo Ticks.limit (Ticks.settle x) = whole := by
  obtain ⟨nearest, above, settles⟩ := stands.exists_settles Ticks.limit
  have low := settles.lt_above
  have high := settles.le_above
  have low' := settles.nearest_le
  obtain rfl : above = whole :=
    Ticks.eq_of_lt_add_one (by linarith : (above : ℚ) < _) (by linarith)
  rcases settles.count with ⟨count, snaps⟩ | ⟨count, -⟩
  · have top : (nearest : ℚ) < above + 1 := by linarith
    have top' : nearest ≤ above := Nat.lt_succ_iff.mp (by exact_mod_cast top)
    rcases top'.eq_or_lt with rfl | less
    · rw [count, Ticks.min_limit small]
    · have apart : (nearest : ℚ) + 1 ≤ above := by exact_mod_cast less
      have beyond : (nearest : ℚ) < q := by linarith
      obtain ⟨allowance, snapsIff, -, greatest⟩ := stands.exists_snaps_iff (top'.trans small) beyond
        (by linarith [settles.lt_nearest])
      have close := snapsIff.mp (snaps beyond)
      linarith
  · rw [count, Ticks.min_limit small]

theorem StandsFor.count_eq (stands : StandsFor x q) {count : Nat} (small : count ≤ 100 * 10 ^ 6)
    (noise : |q - count / 100| ≤ 2 ^ (-51 : Int) * (count / 100)) :
    ceilUpTo Ticks.limit (Ticks.settle x) = ⌈(count / 100 : ℚ)⌉₊ := by
  obtain ⟨whole, ceiling, few, lands⟩ := Ticks.exists_lands small noise
  rw [ceiling]
  cases lands with
  | near noise => exact stands.count_of_near few noise
  | inside after before => exact stands.count_of_inside few after before

theorem HasValue.count_eq (value : HasValue x q) {count : Nat} (small : count ≤ 100 * 10 ^ 6)
    (noise : |q - count / 100| ≤ 2 ^ (-51 : Int) * (count / 100)) :
    ceilUpTo Ticks.limit (Ticks.settle x) = ⌈(count / 100 : ℚ)⌉₊ := by
  rcases Nat.eq_zero_or_pos count with rfl | positive
  · rw [Nat.cast_zero, zero_div, sub_zero, mul_zero, abs_nonpos_iff] at noise
    subst noise
    obtain ⟨sign, unpacked⟩ := value.exists_zero
    rw [ceilUpTo_settle_of_zero unpacked, Nat.cast_zero, zero_div, Nat.ceil_zero]
  · have some : (0 : ℚ) < count / 100 := div_pos (by exact_mod_cast positive) (by norm_num)
    have above := Ticks.half_le_of_noise some.le noise
    exact (value.standsFor (by linarith)).count_eq small noise

/-! ### Products -/

/-- A number of hundredths of a second misses it by one rounding. -/
theorem exists_duration {hundredths : Nat} (some : 0 < hundredths) (few : hundredths ≤ 100 * 10 ^ 6) :
    ∃ duration : ℚ, StandsFor (Float.ofNat hundredths / Float.ofNat 100) duration ∧
      |duration - hundredths / 100| ≤ hundredths / 100 / (2 ^ 53 - 1) := by
  have dividend := standsFor_ofNat some (few.trans (by norm_num))
  have divisor : StandsFor (Float.ofNat 100) (100 : Nat) :=
    standsFor_ofNat (by norm_num) (by norm_num)
  have least : (1 : ℚ) ≤ hundredths := by exact_mod_cast some
  have most : (hundredths : ℚ) ≤ 100 * 10 ^ 6 := by exact_mod_cast few
  have low : (1 / 100 : ℚ) ≤ hundredths / (100 : Nat) := by
    rw [Nat.cast_ofNat]
    exact div_le_div_of_nonneg_right least (by norm_num)
  have high : (hundredths / (100 : Nat) : ℚ) ≤ 10 ^ 6 := by
    rw [Nat.cast_ofNat, div_le_iff₀ (by norm_num), mul_comm]
    exact most
  exact dividend.exists_div divisor (low.trans' (by norm_num)) (high.trans (by norm_num))

/-- A number of hundredths and its product with a rate, each of them rounded, miss the share by no
more than the noise. -/
theorem exists_share {hundredths rate : Nat} (some : 0 < hundredths) (some' : 0 < rate)
    (small : hundredths * rate ≤ 100 * 10 ^ 6) :
    ∃ q, StandsFor (Float.ofNat hundredths / Float.ofNat 100 * Float.ofNat rate) q ∧
      |q - (hundredths * rate : Nat) / 100| ≤
        2 ^ (-51 : Int) * ((hundredths * rate : Nat) / 100) := by
  have few : hundredths ≤ 100 * 10 ^ 6 := (Nat.le_mul_of_pos_right _ some').trans small
  have few' : rate ≤ 100 * 10 ^ 6 := (Nat.le_mul_of_pos_left _ some).trans small
  have factor := standsFor_ofNat some' (few'.trans (by norm_num))
  obtain ⟨duration, quotient, near⟩ := exists_duration some few
  have least : (1 : ℚ) ≤ (hundredths * rate : Nat) := by exact_mod_cast Nat.mul_pos some some'
  have most : ((hundredths * rate : Nat) : ℚ) ≤ 100 * 10 ^ 6 := by exact_mod_cast small
  have total : (hundredths / 100 * rate : ℚ) = (hundredths * rate : Nat) / 100 := by
    rw [Nat.cast_mul, div_mul_eq_mul_div]
  have near' : |duration * rate - (hundredths * rate : Nat) / 100| ≤
      (hundredths * rate : Nat) / 100 / (2 ^ 53 - 1) := by
    rw [← total, ← sub_mul, abs_mul, abs_of_pos factor.pos, mul_div_right_comm]
    exact mul_le_mul_of_nonneg_right near factor.pos.le
  generalize ((hundredths * rate : Nat) : ℚ) = count at *
  have nonneg : 0 ≤ count / 100 := by linarith
  have half : count / 100 / (2 ^ 53 - 1) ≤ count / 100 / 2 :=
    div_le_div_of_nonneg_left nonneg two_pos (by norm_num)
  obtain ⟨left, right⟩ := abs_le.mp (near'.trans half)
  have low : 1 / 200 ≤ duration * rate := by linarith only [left, least]
  have high : duration * rate ≤ 10 ^ 7 := by linarith only [right, most]
  obtain ⟨product, isProduct, near''⟩ := quotient.exists_mul factor
    (low.trans' (by norm_num)) (high.trans (by norm_num))
  exact ⟨product, isProduct, noise_of_roundings nonneg near' near''⟩

end Double

/-- Where seconds are given in hundredths, their ticks are the ceiling of their share of the rate.
Rounding noise in the product changes nothing in that, neither for doubles nor for numbers that are
counted exactly; and the product of doubles has no more than that of noise. -/
theorem noise_never_counts {hundredths rate : Nat} {share : ℚ}
    (isShare : share = hundredths * rate / 100) (small : share ≤ 10 ^ 6) :
    (∀ (duration frequency : Float) (product : ℚ),
      Double.HasValue (duration * frequency) product →
        |product - share| ≤ 2 ^ (-51 : Int) * share → Ticks.count duration frequency = ⌈share⌉₊) ∧
    (∀ duration frequency : ℚ, |duration * frequency - share| ≤ 2 ^ (-51 : Int) * share →
      Ticks.count duration frequency = ⌈share⌉₊) ∧
    Ticks.count (Float.ofNat hundredths / Float.ofNat 100) (Float.ofNat rate) = ⌈share⌉₊ := by
  have few : hundredths * rate ≤ 100 * 10 ^ 6 := by
    rw [isShare, div_le_iff₀ (by norm_num)] at small
    exact_mod_cast small.trans_eq (mul_comm _ _)
  replace isShare : share = (hundredths * rate : Nat) / 100 := by rw [isShare, Nat.cast_mul]
  subst isShare
  refine ⟨fun duration frequency product value noise => ?_, fun duration frequency noise => ?_, ?_⟩
  · exact value.count_eq few noise
  · obtain ⟨whole, ceiling, bound, lands⟩ := Ticks.exists_lands few noise
    have above := Ticks.half_le_of_noise (by positivity) noise
    rw [ceiling]
    exact lands.count_eq (above.trans' (by positivity)) bound
  · rcases Nat.eq_zero_or_pos hundredths with rfl | some
    · have nothing : Float.ofNat 0 / Float.ofNat 100 = Float.ofNat 0 := by decide +kernel
      rw [nothing, Double.count_of_zero (.inl Double.unpack_zero)]
      simp
    · rcases Nat.eq_zero_or_pos rate with rfl | some'
      · rw [Double.count_of_zero (.inr Double.unpack_zero)]
        simp
      · obtain ⟨product, stands, noise⟩ := Double.exists_share some some' few
        exact stands.count_eq few noise

/-- The product of 1.1 and 50 lies above 55, and that of 1.01 and 50 is a fraction. -/
theorem noise_never_counts_fifty :
    Ticks.count (Float.ofNat 110 / Float.ofNat 100) (Float.ofNat 50) = ⌈(55 : ℚ)⌉₊ ∧
      Ticks.count (Float.ofNat 101 / Float.ofNat 100) (Float.ofNat 50) = ⌈(101 / 2 : ℚ)⌉₊ := by
  have whole : (55 : ℚ) = (110 : Nat) * (50 : Nat) / 100 := by norm_num
  have fraction : (101 / 2 : ℚ) = (101 : Nat) * (50 : Nat) / 100 := by norm_num
  exact ⟨(noise_never_counts whole (by norm_num)).2.2,
    (noise_never_counts fraction (by norm_num)).2.2⟩

end Stagecraft
