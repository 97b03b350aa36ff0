/-
This file shows in which order a timeline dispatches its entries. Their starts are sorted by bits,
and bits tell `-0` from `0` though the two are equal. So no entry comes before one that starts
earlier, and entries that start together stay in the order in which they are declared, but for those
that start at `-0`: they come before those that start at `0`.
-/

import Stagecraft.Proofs.Program.Acceptance
import Stagecraft.Proofs.Timeline.Playing

namespace Stagecraft

namespace Double

open Float.Model Float.Model.UnpackedFloat

variable {x y : Float} {p q : ℚ}

/-! ### Magnitudes -/

/-- The number that a magnitude is: zero with either sign, or what a positive double stands for. -/
inductive Measures (x : Float) : ℚ → Prop
  | zero (sign : Sign) : x.toModel.unpack = .zero sign → Measures x 0
  | positive {q : ℚ} : StandsFor x q → Measures x q

theorem exists_measures (magnitude : Scalar.isMagnitude x) : ∃ q, Measures x q := by
  rcases zero_or_standsFor magnitude with ⟨sign, unpacked⟩ | ⟨q, stands⟩
  · exact ⟨0, .zero sign unpacked⟩
  · exact ⟨q, .positive stands⟩

/-- Magnitudes compare like their numbers. -/
theorem Measures.compare_eq (first : Measures x p) (second : Measures y q) :
    x.toModel.unpack.compare y.toModel.unpack = some (compare p q) := by
  cases first with
  | zero sign unpacked =>
    cases second with
    | zero sign' unpacked' =>
      rw [unpacked, unpacked', compare_eq_iff_eq.mpr rfl]
      rfl
    | positive stands' =>
      rw [compare_lt_iff_lt.mpr stands'.pos]
      obtain ⟨mantissa, exponent, canonical, unpacked', -⟩ := stands'
      rw [unpacked, unpacked']
      rfl
  | positive stands =>
    cases second with
    | zero sign' unpacked' =>
      rw [compare_gt_iff_gt.mpr stands.pos]
      obtain ⟨mantissa, exponent, canonical, unpacked, -⟩ := stands
      rw [unpacked, unpacked']
      rfl
    | positive stands' => exact stands.compare_eq stands'

theorem Measures.beq_iff (first : Measures x p) (second : Measures y q) :
    (x == y) = true ↔ p = q := by
  rw [beq_of_compare (first.compare_eq second), decide_eq_true_iff, compare_eq_iff_eq]

/-! ### Zeros -/

/-- The zero that has a sign. -/
def isNegativeZero (x : Float) : Bool :=
  ofFloat x == .number true 0 (-1074)

theorem isNegativeZero_of_zero {sign : Sign} (unpacked : x.toModel.unpack = .zero sign) :
    isNegativeZero x = (sign == .negative) := by
  rw [isNegativeZero, ofFloat_eq, unpacked]
  cases sign <;> rfl

theorem StandsFor.isNegativeZero_eq (stands : StandsFor x q) : isNegativeZero x = false := by
  obtain ⟨mantissa, exponent, -, seen, -⟩ := stands.exists_number
  rw [isNegativeZero, seen]
  rfl

/-- Nothing but the zero that has a sign has a place below zero. -/
theorem Measures.orderKey_neg_iff (measures : Measures x q) :
    orderKey x < 0 ↔ isNegativeZero x = true := by
  cases measures with
  | zero sign unpacked =>
    have known : x = Float.ofModel (Float.Model.pack (.zero sign)) :=
      eq_of_unpack (by rw [unpacked]; cases sign <;> rfl)
    rw [known]
    cases sign <;> decide +kernel
  | positive stands =>
    obtain ⟨-, -, -, -, below, -⟩ := stands.bits
    rw [stands.isNegativeZero_eq, orderKey, if_neg (by rw [Nat.pow_eq]; omega)]
    exact iff_of_false (Int.not_lt.mpr (Int.natCast_nonneg _)) (by decide)

/-- A number is one magnitude only, except that zero has two signs. -/
theorem Measures.eq (first : Measures x q) (second : Measures y q)
    (alike : isNegativeZero x = isNegativeZero y) : x = y := by
  cases first with
  | zero sign unpacked =>
    cases second with
    | zero sign' unpacked' =>
      rw [isNegativeZero_of_zero unpacked, isNegativeZero_of_zero unpacked'] at alike
      have sameSign : sign = sign' := by
        cases sign <;> cases sign' <;> first | rfl | cases alike
      exact eq_of_unpack (unpacked.trans (sameSign ▸ unpacked'.symm))
    | positive stands' => exact absurd stands'.pos (lt_irrefl _)
  | positive stands =>
    cases second with
    | zero => exact absurd stands.pos (lt_irrefl _)
    | positive stands' => exact stands.eq stands'

/-! ### Precedence -/

theorem le_of_precedes (magnitude : Scalar.isMagnitude x) (magnitude' : Scalar.isMagnitude y)
    (precedes : Scalar.precedes x y) : x ≤ y := by
  rcases zero_or_standsFor magnitude with ⟨sign, unpacked⟩ | ⟨p, stands⟩
  · obtain ⟨q, second⟩ := exists_measures magnitude'
    refine (le_of_compare ((Measures.zero sign unpacked).compare_eq second)).mpr
      (compare_le_iff_le.mpr ?_)
    cases second with
    | zero => exact le_rfl
    | positive stands' => exact stands'.pos.le
  · obtain ⟨q, stands', ordered⟩ := stands.le_of_precedes magnitude' precedes
    exact (le_of_compare (stands.compare_eq stands')).mpr (compare_le_iff_le.mpr ordered)

theorem isNegativeZero_of_precedes (magnitude : Scalar.isMagnitude x)
    (magnitude' : Scalar.isMagnitude y) (precedes : Scalar.precedes x y)
    (isNegative : isNegativeZero y = true) : isNegativeZero x = true := by
  obtain ⟨p, first⟩ := exists_measures magnitude
  obtain ⟨q, second⟩ := exists_measures magnitude'
  have ordered : orderKey x ≤ orderKey y := of_decide_eq_true precedes
  exact first.orderKey_neg_iff.mp (ordered.trans_lt (second.orderKey_neg_iff.mpr isNegative))

end Double

/-! ### Timelines -/

namespace Timeline

variable {timeline : Timeline Float}

/-- Entries that start together, none or all of them at `-0`, stay in their order. -/
theorem filter_inOrder (magnitudes : ∀ entry ∈ timeline.entries, Scalar.isMagnitude entry.start)
    {start : Float} (magnitude : Scalar.isMagnitude start) (isNegative : Bool) :
    timeline.inOrder.filter (fun entry =>
        entry.start == start && Double.isNegativeZero entry.start == isNegative) =
      timeline.entries.filter fun entry =>
        entry.start == start && Double.isNegativeZero entry.start == isNegative := by
  obtain ⟨q, measures⟩ := Double.exists_measures magnitude
  have number {entry : TimedAction Float} (listed : entry ∈ timeline.entries)
      (together : (entry.start == start) = true) : Double.Measures entry.start q := by
    obtain ⟨p, first⟩ := Double.exists_measures (magnitudes entry listed)
    rwa [← (first.beq_iff measures).mp together]
  refine Lists.filter_mergeSort
    (fun first second third => Scheduling.precedes_trans first.start second.start third.start)
    (fun first second => Scheduling.precedes_total first.start second.start) _
    (List.pairwise_of_forall_mem_list fun first inFirst second inSecond => ?_)
  rw [List.mem_filter, Bool.and_eq_true] at inFirst inSecond
  have same := (number inFirst.1 inFirst.2.1).eq (number inSecond.1 inSecond.2.1)
    ((eq_of_beq inFirst.2.2).trans (eq_of_beq inSecond.2.2).symm)
  rw [same]
  exact decide_eq_true le_rfl

/-- A timeline dispatches its entries by their starts, and those that start together in the order in
which they are declared, but all at `-0` before all at `0`. It has no order only where a start is
not finite, or below zero. -/
theorem dispatched_by_start (timeline : Timeline Float) (context : Context) :
    ((∃ fault, timeline.dispatchOrder context = .error fault) ↔
      ∃ entry ∈ timeline.entries, ¬(Scalar.isFinite entry.start ∧ 0 ≤ entry.start)) ∧
    ∀ found, timeline.dispatchOrder context = .ok found →
      found.Perm timeline.entries ∧
      (found.Pairwise fun first second => first.start ≤ second.start) ∧
      ∀ entry ∈ timeline.entries,
        let together := timeline.entries.filter (·.start == entry.start)
        found.filter (·.start == entry.start) =
          together.filter (Double.isNegativeZero ·.start) ++
            together.filter (!Double.isNegativeZero ·.start) := by
  have checks : Outcome.Checks (timeline.dispatchOrder context) _ _ :=
    checks_dispatchOrder timeline
  constructor
  · have fails : (∃ fault, timeline.dispatchOrder context = .error fault) ↔
        ¬Outcome.Succeeds (timeline.dispatchOrder context) := by
      cases timeline.dispatchOrder context <;> simp
    rw [fails, checks.succeeds]
    simp [Scalar.isMagnitude]
  · intro found ordered
    obtain ⟨magnitudes, rfl⟩ := (checks found).mp ordered
    have inEntries {entry : TimedAction Float} (listed : entry ∈ timeline.inOrder) :
        Scalar.isMagnitude entry.start := magnitudes entry (List.mem_mergeSort.mp listed)
    refine ⟨List.mergeSort_perm _ _, timeline.pairwise_inOrder.imp_of_mem
      fun inFirst inSecond => Double.le_of_precedes (inEntries inFirst) (inEntries inSecond),
      fun entry listed => ?_⟩
    have first := filter_inOrder magnitudes (magnitudes entry listed) true
    have later := filter_inOrder magnitudes (magnitudes entry listed) false
    have zerosFirst : (timeline.inOrder.filter (·.start == entry.start)).Pairwise fun first second =>
        Double.isNegativeZero second.start → Double.isNegativeZero first.start :=
      (timeline.pairwise_inOrder.filter _).imp_of_mem fun inFirst inSecond =>
        Double.isNegativeZero_of_precedes (inEntries (List.mem_of_mem_filter inFirst))
          (inEntries (List.mem_of_mem_filter inSecond))
    refine (Lists.filter_append_filter (fun entry : TimedAction Float =>
      Double.isNegativeZero entry.start) zerosFirst).symm.trans ?_
    simpa [List.filter_filter, Bool.and_comm] using congrArg₂ (· ++ ·) first later

/-- A light that is declared to go off and on again at once. -/
def blink : Timeline Float where
  name := "blink"
  autostart := true
  entries := [⟨0, ⟨none, 0, .visibility false⟩⟩, ⟨-0, ⟨none, 0, .visibility true⟩⟩]

/-- Because of a sign it goes on first, and then off. -/
theorem dispatched_by_start_blink (context : Context) :
    blink.dispatchOrder context = .ok blink.entries.reverse := by
  have magnitudes : ∀ entry ∈ blink.entries, Scalar.isMagnitude entry.start :=
    List.forall_mem_cons.mpr ⟨by decide +kernel, List.forall_mem_singleton.mpr (by decide +kernel)⟩
  have ordered : blink.dispatchOrder context = .ok blink.inOrder :=
    (checks_dispatchOrder blink _).mpr ⟨magnitudes, rfl⟩
  obtain ⟨permuted, -, together⟩ := (dispatched_by_start blink context).2 _ ordered
  have zero : ((0 : Float) == 0) = true := by decide +kernel
  have negativeZero : ((-0 : Float) == 0) = true := by decide +kernel
  have signed : Double.isNegativeZero (-0) = true := by decide +kernel
  have unsigned : Double.isNegativeZero 0 = false := by decide +kernel
  have all : ∀ entry ∈ blink.inOrder, (entry.start == 0) = true := fun entry listed =>
    (List.forall_mem_cons (p := fun entry => (entry.start == 0) = true)).mpr
      ⟨zero, List.forall_mem_singleton.mpr negativeZero⟩ entry (permuted.mem_iff.mp listed)
  have found := together ⟨0, ⟨none, 0, .visibility false⟩⟩ List.mem_cons_self
  rw [List.filter_eq_self.mpr all] at found
  have reversed : blink.inOrder = blink.entries.reverse := by
    simpa [blink, zero, negativeZero, signed, unsigned] using found
  exact ordered.trans (congrArg Except.ok reversed)

end Timeline

end Stagecraft
