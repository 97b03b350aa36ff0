/-
This file shows that seconds keep their order when they are turned into ticks without rounding. A
product is moved to its nearest whole number or left where it is, and how near is near enough
depends on that whole number only. So two products with the same nearest whole number stay in order,
even where all of its neighbourhood is near enough, and two products with different ones are kept
apart by the midpoint between them.
-/

import Stagecraft.Proofs.Scalar.Exact
import Stagecraft.Proofs.Timeline.Playing

namespace Stagecraft

open scoped Exact

variable {K : Type} [Field K] [LinearOrder K] [FloorRing K] [IsStrictOrderedRing K]

namespace Ticks

/-! ### Moving to the nearest whole number -/

/-- How far a product may miss the whole number that is nearest to it. -/
def slack (x : K) : K :=
  tolerance * max 1 (round x : K)

omit [IsStrictOrderedRing K] in
theorem slack_eq (x : K) : slack x = 1 / 10 ^ 9 * max 1 (round x : K) := by
  show ((1 : Nat) : K) / 10 ^ 9 * max 1 (round x : K) = _
  rw [Nat.cast_one]

theorem slack_nonneg (x : K) : 0 ≤ slack x := by
  rw [slack_eq]
  exact mul_nonneg (by positivity) (zero_le_one.trans (le_max_left _ _))

/-- Where a product is moved to: to the nearest whole number, if it misses that by no more than the
slack, and else nowhere. -/
inductive Settles (x : K) : K → Prop
  | near : |x - round x| ≤ slack x → Settles x (round x)
  | far : slack x < |x - round x| → Settles x x

theorem settles {x : K} (nonneg : 0 ≤ x) : Settles x (settle x) := by
  have nearest : Exact.round x = (round x : K) := by
    rw [Exact.round, if_neg nonneg.not_gt, round_eq]
  have above : (0 : K) ≤ round x := by
    rw [round_eq]
    exact_mod_cast Int.floor_nonneg.mpr (by positivity)
  have allowed : tolerance * Scalar.max (Scalar.abs (Scalar.round x)) 1 = slack x := by
    show tolerance * max |Exact.round x| 1 = slack x
    rw [nearest, abs_of_nonneg above, max_comm, slack]
  have settled : settle x = if |x - round x| ≤ slack x then (round x : K) else x := by
    rw [settle, allowed]
    show (if |x - Exact.round x| ≤ slack x then Exact.round x else x) = _
    rw [nearest]
  rw [settled]
  split
  · exact .near ‹_›
  · exact .far (not_le.mp ‹_›)

namespace Settles

variable {x y x' y' : K}

theorem abs_sub_le (settles : Settles x y) : |y - x| ≤ slack x := by
  cases settles with
  | near within => rwa [abs_sub_comm]
  | far => simpa using slack_nonneg x

/-- What is moved stays on its side of the midpoints between whole numbers. -/
theorem le_add_half (settles : Settles x y) : y ≤ round x + 1 / 2 := by
  cases settles with
  | near => linarith
  | far => linarith [sub_half_lt_round x]

theorem sub_half_le (settles : Settles x y) : round x - 1 / 2 ≤ y := by
  cases settles with
  | near => linarith
  | far => linarith [round_le_add_half x]

theorem le_of_round_eq (settles : Settles x y) (settles' : Settles x' y') (ordered : x ≤ x')
    (same : round x = round x') : y ≤ y' := by
  have alike : slack x = slack x' := by rw [slack, slack, same]
  cases settles with
  | near within =>
    cases settles' with
    | near => rw [same]
    | far beyond =>
      -- Below the whole number a greater product is nearer to it.
      rw [← alike, ← same] at beyond
      by_contra below
      rw [not_le] at below
      rw [abs_sub_comm, abs_of_pos (sub_pos.mpr below)] at beyond
      rw [abs_sub_comm, abs_of_pos (sub_pos.mpr (ordered.trans_lt below))] at within
      linarith
  | far beyond =>
    cases settles' with
    | near within =>
      rw [← alike, ← same] at within
      rw [← same]
      by_contra above
      rw [not_le] at above
      rw [abs_of_pos (sub_pos.mpr above)] at beyond
      rw [abs_of_pos (sub_pos.mpr (above.trans_le ordered))] at within
      linarith
    | far => exact ordered

theorem le (settles : Settles x y) (settles' : Settles x' y') (ordered : x ≤ x') : y ≤ y' := by
  rcases lt_trichotomy (round x) (round x') with less | same | greater
  · have apart : (round x : K) + 1 ≤ round x' := by exact_mod_cast less
    linarith [settles.le_add_half, settles'.sub_half_le]
  · exact settles.le_of_round_eq settles' ordered same
  · have apart : (round x' : K) + 1 ≤ round x := by exact_mod_cast greater
    linarith [round_le_add_half x, sub_half_lt_round x']

end Settles

theorem settle_le {x y : K} (nonneg : 0 ≤ x) (ordered : x ≤ y) : settle x ≤ settle y :=
  (settles nonneg).le (settles (nonneg.trans ordered)) ordered

/-! ### Counting -/

omit [IsStrictOrderedRing K] in
theorem ceilUpTo_eq (x : K) : Scalar.ceilUpTo limit x = min limit ⌈x⌉₊ := by
  show min limit ⌈x⌉.toNat = _
  rw [Int.ceil_toNat]

theorem count_settled_le {x y : K} (nonneg : 0 ≤ x) (ordered : x ≤ y) :
    Scalar.ceilUpTo limit (settle x) ≤ Scalar.ceilUpTo limit (settle y) := by
  rw [ceilUpTo_eq, ceilUpTo_eq]
  exact min_le_min_left limit (Nat.ceil_mono (settle_le nonneg ordered))

end Ticks

/-- The numbers of an ordered field keep their order when they are counted in ticks. -/
instance Exact.instScheduling : Scheduling K where
  precedes_total first second := by
    rw [Bool.or_eq_true]
    exact (le_total first second).imp decide_eq_true decide_eq_true
  precedes_trans first second third ordered further :=
    decide_eq_true ((of_decide_eq_true ordered).trans (of_decide_eq_true further))
  count_le {first second rate} magnitude _ _ positive ordered := by
    have nonneg : 0 ≤ first := of_decide_eq_true (Bool.and_eq_true_iff.mp magnitude).2
    exact Ticks.count_settled_le (mul_nonneg nonneg positive.le)
      (mul_le_mul_of_nonneg_right (of_decide_eq_true ordered) positive.le)
  le_limit_add_one count within := by
    show (count : K) ≤ (countingLimit : K) + 1
    exact_mod_cast within

/-- Without rounding, a longer duration and a higher rate never give a smaller span or fewer ticks,
also where the ticks are cut to the limit. The span differs from the product by no more than the
tolerance at the nearest whole number, and the ticks are its ceiling. So the entries of a timeline,
in the order in which they are dispatched, never go back to an earlier tick. -/
theorem spans_keep_order {duration duration' rate rate' : K} (nonneg : 0 ≤ duration)
    (longer : duration ≤ duration') (nonneg' : 0 ≤ rate) (faster : rate ≤ rate') :
    Ticks.span duration rate ≤ Ticks.span duration' rate' ∧
    Ticks.count duration rate ≤ Ticks.count duration' rate' ∧
    |Ticks.span duration rate - duration * rate| ≤
      1 / 10 ^ 9 * max 1 (round (duration * rate) : K) ∧
    Ticks.count duration rate = min Ticks.limit ⌈Ticks.span duration rate⌉₊ ∧
    ∀ (timeline : Timeline K) (context : Context) (entries : List (TimedAction K)),
      timeline.dispatchOrder context = .ok entries →
        (entries.map fun entry => Ticks.count entry.start rate).Pairwise (· ≤ ·) := by
  have product : 0 ≤ duration * rate := mul_nonneg nonneg nonneg'
  have ordered : duration * rate ≤ duration' * rate' :=
    mul_le_mul longer faster nonneg' (nonneg.trans longer)
  refine ⟨Ticks.settle_le product ordered, Ticks.count_settled_le product ordered,
    (Ticks.settles product).abs_sub_le.trans_eq (Ticks.slack_eq _), Ticks.ceilUpTo_eq _,
    fun timeline context entries dispatched => ?_⟩
  obtain ⟨⟨⟩, checked, -⟩ := Outcome.bind_eq_ok.mp dispatched
  have starts : ∀ entry ∈ entries, 0 ≤ entry.start := by
    intro entry member
    rw [Timeline.eq_inOrder dispatched, Timeline.inOrder, List.mem_mergeSort] at member
    have magnitude := Timeline.magnitude_of_checkStarts checked entry member
    exact of_decide_eq_true (Bool.and_eq_true_iff.mp magnitude).2
  have sorted := timeline.pairwise_inOrder
  rw [← Timeline.eq_inOrder dispatched] at sorted
  rw [List.pairwise_map]
  refine sorted.imp_of_mem fun member _ precedes => ?_
  exact Ticks.count_settled_le (mul_nonneg (starts _ member) nonneg')
    (mul_le_mul_of_nonneg_right (of_decide_eq_true precedes) nonneg')

/-- A little less and a little more than a third of a second. -/
theorem spans_keep_order_third :
    Ticks.count (333333333 / 10 ^ 9 : ℚ) 60 ≤ Ticks.count (333333334 / 10 ^ 9 : ℚ) 60 :=
  (spans_keep_order (by norm_num) (by norm_num) (by norm_num) le_rfl).2.1

/-- Where the tolerance exceeds one half, every product is moved. -/
example : Ticks.span (1000000000 + 3 / 5 : ℚ) 1 = 1000000001 := by decide +kernel

end Stagecraft
