/-
This file shows that of two starts the later one has no fewer ticks. A product is moved to the
nearest whole number if it is close enough, and a started tick counts in full otherwise. How close
is close enough depends on the whole number only, so this keeps the order, and so does what happens
before: seconds are sorted by their bits and rounded when they are multiplied with the rate.
-/

import Stagecraft.Proofs.Scalar.Products
import Stagecraft.Ticks

namespace Stagecraft

/-- Numbers that are put in an order which their ticks keep. Whatever one added to the limit is
rounded to, nothing up to the next whole number is above it. -/
class Scheduling (α : Type) [Scalar α] : Prop extends Counting α where
  precedes_total (first second : α) :
    Scalar.precedes first second || Scalar.precedes second first
  precedes_trans (first second third : α) : Scalar.precedes first second →
    Scalar.precedes second third → Scalar.precedes first third
  count_le {first second rate : α} : Scalar.isMagnitude first → Scalar.isMagnitude second →
    Scalar.isFinite rate → 0 < rate → Scalar.precedes first second →
      Ticks.count first rate ≤ Ticks.count second rate
  le_limit_add_one (count : Nat) : count ≤ countingLimit + 1 →
    (Scalar.ofNat count : α) ≤ Scalar.ofNat countingLimit + 1

/-- A number of ticks, moved to the nearest whole number when that is within the tolerance. -/
def Ticks.settle {α : Type} [Scalar α] (exact : α) : α :=
  let nearest := Scalar.round exact
  if Scalar.abs (exact - nearest) ≤ tolerance * Scalar.max (Scalar.abs nearest) 1 then nearest
  else exact

theorem Ticks.count_eq {α : Type} [Scalar α] (duration rate : α) :
    count duration rate = Scalar.ceilUpTo limit (settle (duration * rate)) := rfl

open Float.Model Float.Model.UnpackedFloat Rounding

namespace Double

variable {x y : Float} {p q : ℚ}

/-! ### What is seen of a double -/

theorem StandsFor.exists_number (stands : StandsFor x q) :
    ∃ mantissa exponent, IsCanonical mantissa exponent ∧
      ofFloat x = .number false mantissa exponent ∧ (mantissa : ℚ) * 2 ^ exponent = q := by
  obtain ⟨mantissa, exponent, canonical, unpacked, value⟩ := stands
  refine ⟨mantissa, exponent, canonical, ?_, value⟩
  rw [ofFloat_eq, unpacked]
  rfl

theorem StandsFor.pos (stands : StandsFor x q) : 0 < q := by
  obtain ⟨mantissa, exponent, canonical, -, rfl⟩ := stands
  exact mul_pos (by exact_mod_cast canonical.pos) (by positivity)

theorem ofFloat_zero : ofFloat (Float.ofNat 0) = .number false 0 (-1074) := by
  rw [ofFloat_eq, unpack_zero]
  rfl

/-- An exponent that is too large makes a double infinite. -/
theorem pack_huge {sign : Sign} {mantissa : Nat} {exponent : Int} (positive : 0 < mantissa)
    (huge : 971 < exponent) :
    Float.Model.pack (.finite sign mantissa exponent positive) =
      Float.Model.pack (.infinity sign) := by
  have biased : 2 ^ Format.binary64.exponentBits ≤ (exponent + (Format.binary64.exponentBias : Int) +
      (Format.binary64.mantissaBitsWithoutImplicit : Int)).toNat + 1 := by
    have bias : (Format.binary64.exponentBias : Int) = 1023 := rfl
    have fraction : (Format.binary64.mantissaBitsWithoutImplicit : Int) = 52 := rfl
    have bits : 2 ^ Format.binary64.exponentBits = 2048 := rfl
    rw [bias, fraction, bits]
    omega
  have packed : UnpackedFloat.pack Format.binary64 (.finite sign mantissa exponent positive) =
      packedInfinity Format.binary64 sign := by
    rw [UnpackedFloat.pack]
    exact if_pos biased
  rw [Float.Model.pack, Float.Model.pack, Float.Model.mk.injEq, packed]
  rfl

theorem ofFloat_pack_huge {mantissa : Nat} {exponent : Int} (positive : 0 < mantissa)
    (huge : 971 < exponent) :
    ofFloat (Float.ofModel (Float.Model.pack (.finite .positive mantissa exponent positive))) =
      .infinite false := by
  rw [pack_huge positive huge]
  decide +kernel

/-! ### Ceilings -/

theorem ceilUpTo_le (limit : Nat) (x : Float) : ceilUpTo limit x ≤ limit := by
  rw [ceilUpTo]
  split
  · exact min_le_left _ _
  · exact min_le_left _ _
  · exact le_rfl
  · exact Nat.zero_le _

theorem zpow_negSucc_eq (mantissa places : Nat) :
    (mantissa : ℚ) * 2 ^ Int.negSucc places = mantissa / 2 ^ (places + 1) := by
  rw [zpow_negSucc, div_eq_mul_inv]

/-- The ceiling of a number is the whole number less than one above it. -/
theorem StandsFor.exists_ceil (stands : StandsFor x q) (limit : Nat) :
    ∃ whole : Nat, (whole : ℚ) - 1 < q ∧ q ≤ whole ∧ ceilUpTo limit x = Min.min limit whole := by
  obtain ⟨mantissa, exponent, -, seen, rfl⟩ := stands.exists_number
  rw [ceilUpTo, seen]
  cases exponent with
  | ofNat shift =>
    refine ⟨mantissa * 2 ^ shift, ?_, ?_, rfl⟩ <;>
      simp only [Int.ofNat_eq_natCast, zpow_natCast, Nat.cast_mul, Nat.cast_pow, Nat.cast_ofNat]
    · linarith
    · exact le_rfl
  | negSucc places =>
    have positive : 0 < 2 ^ (places + 1) := Nat.two_pow_pos _
    have unit : (0 : ℚ) < 2 ^ (places + 1) := by positivity
    refine ⟨ceilShift mantissa (places + 1), ?_, ?_, rfl⟩
    · have low := Nat.div_mul_le_self (mantissa + (2 ^ (places + 1) - 1)) (2 ^ (places + 1))
      have bound : ceilShift mantissa (places + 1) * 2 ^ (places + 1) <
          mantissa + 2 ^ (places + 1) := by
        rw [ceilShift, Nat.pow_eq]
        omega
      rw [zpow_negSucc_eq, lt_div_iff₀ unit, sub_mul, one_mul, sub_lt_iff_lt_add]
      exact_mod_cast bound
    · have high := Nat.lt_div_mul_add (a := mantissa + (2 ^ (places + 1) - 1)) positive
      have bound : mantissa ≤ ceilShift mantissa (places + 1) * 2 ^ (places + 1) := by
        rw [ceilShift, Nat.pow_eq]
        omega
      rw [zpow_negSucc_eq, div_le_iff₀ unit]
      exact_mod_cast bound

theorem ceilShift_zero (places : Nat) : ceilShift 0 places = 0 := by
  have positive : 0 < 2 ^ places := Nat.two_pow_pos _
  rw [ceilShift, Nat.pow_eq]
  exact Nat.div_eq_of_lt (by omega)

theorem ceilUpTo_ofNat {count : Nat} (small : count ≤ 2 ^ 53) (limit : Nat) :
    ceilUpTo limit (Float.ofNat count) = Min.min limit count := by
  rcases Nat.eq_zero_or_pos count with rfl | positive
  · have zero : ceilUpTo limit (Float.ofNat 0) = Min.min limit (ceilShift 0 1074) := by
      rw [ceilUpTo, ofFloat_zero]
      rfl
    rw [zero, ceilShift_zero]
  · obtain ⟨whole, below, above, ceiling⟩ := (standsFor_ofNat positive small).exists_ceil limit
    have least : (whole : ℚ) < (count + 1 : Nat) := by
      push_cast
      linarith
    have same : whole = count :=
      le_antisymm (Nat.lt_succ_iff.mp (by exact_mod_cast least)) (by exact_mod_cast above)
    rw [ceiling, same]

/-! ### The nearest whole number -/

/-- A double is whole, or its nearest whole number is the double of one. -/
theorem StandsFor.round_eq (stands : StandsFor x q) :
    (∃ whole : Nat, q = whole ∧ round x = x) ∨
      ∃ nearest : Nat, nearest ≤ 2 ^ 52 ∧ (nearest : ℚ) ≤ q + 1 / 2 ∧ q + 1 / 2 < nearest + 1 ∧
        round x = Float.ofNat nearest := by
  obtain ⟨mantissa, exponent, canonical, seen, rfl⟩ := stands.exists_number
  rw [round, seen]
  cases exponent with
  | ofNat shift => exact .inl ⟨mantissa * 2 ^ shift, by push_cast; rfl, rfl⟩
  | negSucc places =>
    right
    have unit : (0 : ℚ) < 2 ^ (places + 1) := by positivity
    have value : (mantissa : ℚ) / 2 ^ (places + 1) + 1 / 2 =
        ((2 * mantissa + 2 ^ (places + 1) : Nat) : ℚ) / (2 ^ (places + 2) : Nat) := by
      push_cast
      rw [pow_succ (2 : ℚ) (places + 1)]
      field_simp
    have positive : 0 < 2 ^ (places + 2) := Nat.two_pow_pos _
    have unit' : (0 : ℚ) < (2 ^ (places + 2) : Nat) := by exact_mod_cast positive
    have low := Nat.div_mul_le_self (2 * mantissa + 2 ^ (places + 1)) (2 ^ (places + 2))
    have high := Nat.lt_div_mul_add (a := 2 * mantissa + 2 ^ (places + 1)) positive
    rw [zpow_negSucc_eq, value]
    refine ⟨roundHalfUp mantissa (places + 1), ?_, ?_, ?_, rfl⟩
    · have small := canonical.lt
      rw [roundHalfUp, Nat.pow_eq, Nat.pow_eq, Nat.div_le_iff_le_mul_add_pred positive]
      have enough : 2 * mantissa ≤ 2 ^ (places + 2) * 2 ^ 52 := by
        rw [pow_succ 2 (places + 1), pow_succ 2 places]
        nlinarith [Nat.one_le_two_pow (n := places)]
      have half : 2 ^ (places + 2) = 2 * 2 ^ (places + 1) := by
        rw [pow_succ 2 (places + 1), mul_comm]
      have some : 0 < 2 ^ (places + 1) := Nat.two_pow_pos _
      omega
    · rw [le_div_iff₀ unit']
      exact_mod_cast low
    · rw [div_lt_iff₀ unit', add_mul, one_mul]
      exact_mod_cast high

/-! ### Distances -/

theorem abs_of_standsFor (stands : StandsFor x q) : Float.abs x = x := by
  obtain ⟨mantissa, exponent, canonical, unpacked, -⟩ := stands
  have same : x.toModel.abs = x.toModel := by
    rw [Float.Model.abs, unpacked, ← model_pack_unpack x.toModel, unpacked]
    rfl
  rw [Float.abs, same]

/-- The distance of a number from the whole number below it is a double. -/
theorem StandsFor.sub_ofNat (stands : StandsFor x q) {whole : Nat} (below : (whole : ℚ) < q)
    (above : q < whole + 1) : StandsFor (x - Float.ofNat whole) (q - whole) := by
  obtain ⟨mantissa, exponent, canonical, unpacked, rfl⟩ := stands
  rcases Nat.eq_zero_or_pos whole with rfl | positive
  · have same : x - Float.ofNat 0 = x := by
      refine eq_of_unpack ?_
      show (Float.Model.pack (UnpackedFloat.sub Format.binary64 x.toModel.unpack
        (Float.ofNat 0).toModel.unpack)).unpack = _
      rw [unpack_zero, unpacked, UnpackedFloat.sub]
      · exact unpack_pack canonical .positive
      all_goals simp
    rw [same, Nat.cast_zero, sub_zero]
    exact ⟨mantissa, exponent, canonical, unpacked, rfl⟩
  · -- The number is not whole, so its units are fractions, and not too small ones.
    have negative : exponent < 0 := by
      by_contra nonneg
      obtain ⟨shift, rfl⟩ := Int.eq_ofNat_of_zero_le (not_lt.mp nonneg)
      rw [zpow_natCast] at below above
      have low : whole < mantissa * 2 ^ shift := by exact_mod_cast below
      have high : mantissa * 2 ^ shift < whole + 1 := by exact_mod_cast above
      omega
    have unit : (0 : ℚ) < 2 ^ exponent := by positivity
    obtain ⟨places, rfl⟩ : ∃ places : Nat, exponent = -(places : Int) :=
      ⟨(-exponent).toNat, by omega⟩
    have units : (whole : ℚ) = (whole * 2 ^ places : Nat) * 2 ^ (-(places : Int)) := by
      rw [zpow_neg, zpow_natCast]
      push_cast
      field_simp
    rw [units] at below
    have less : whole * 2 ^ places < mantissa := by
      exact_mod_cast lt_of_mul_lt_mul_right below unit.le
    have few : places ≤ 52 := by
      by_contra many
      have large : 2 ^ 53 ≤ whole * 2 ^ places :=
        (Nat.pow_le_pow_right two_pos (by omega)).trans (Nat.le_mul_of_pos_left _ positive)
      have small := canonical.lt
      omega
    have small : whole ≤ 2 ^ 53 := by
      have inside := (Nat.le_mul_of_pos_right whole (Nat.two_pow_pos places)).trans less.le
      exact inside.trans canonical.lt.le
    obtain ⟨mantissa', exponent', canonical', unpacked', value'⟩ := standsFor_ofNat positive small
    obtain ⟨result, power, resultCanonical, resultValue⟩ :=
      exists_canonical (Nat.sub_pos_of_lt less) (by have := canonical.lt; omega)
        (-(places : Int)) (by omega) (by omega)
    have difference : (mantissa : ℚ) * 2 ^ (-(places : Int)) - whole = result * 2 ^ power := by
      rw [resultValue, Nat.cast_sub less.le, sub_mul, ← units]
    let unit' : Int := -(places : Int) ⊓ exponent'
    let first : Nat := mantissa <<< (-(places : Int) - unit').toNat
    let second : Nat := mantissa' <<< (exponent' - unit').toNat
    have firstValue := shiftLeft_mul mantissa (inf_le_left : unit' ≤ -(places : Int))
    have secondValue := (shiftLeft_mul mantissa' (inf_le_right : unit' ≤ exponent')).trans value'
    have larger : second < first := by
      rw [← units, ← secondValue, ← firstValue] at below
      exact_mod_cast lt_of_mul_lt_mul_right below (by positivity)
    have rounds : RoundsTo result power ((first - second : Nat) * 2 ^ unit') := by
      rw [Nat.cast_sub larger.le, sub_mul, firstValue, secondValue, difference]
      exact RoundsTo.self result power
    have normalized : UnpackedFloat.normalize Format.binary64 ((first : Int) - second) unit'
        .positive = .finite .positive result power resultCanonical.pos := by
      have order : compare ((first : Int) - second) 0 = .gt :=
        compare_gt_iff_gt.mpr (by omega)
      have count : ((first : Int) - second).toNat = first - second := by omega
      rw [UnpackedFloat.normalize, order]
      dsimp only
      rw [count]
      exact Rounding.round_eq resultCanonical.toIsReduced rounds .positive
    have subtracted : x - Float.ofNat whole = Float.ofModel (Float.Model.pack
        (.finite .positive result power resultCanonical.pos)) := by
      show Float.ofModel (Float.Model.pack (UnpackedFloat.sub Format.binary64 x.toModel.unpack
        (Float.ofNat whole).toModel.unpack)) = _
      rw [unpacked, unpacked', UnpackedFloat.sub]
      exact congrArg (fun unpacked => Float.ofModel (Float.Model.pack unpacked)) normalized
    rw [subtracted, difference]
    exact standsFor_pack resultCanonical

/-- What is not below a larger number is not below a smaller one. -/
theorem StandsFor.le_of_le (first : StandsFor x p) (second : StandsFor y q) (ordered : p ≤ q)
    {bound : Float} (within : y ≤ bound) : x ≤ bound := by
  have compared {z : Float} {r : ℚ} (stands : StandsFor z r) {order : Ordering}
      (order_eq : z.toModel.unpack.compare bound.toModel.unpack = some order) :
      z ≤ bound ↔ order ≠ .gt := le_of_compare order_eq
  cases unpacked : bound.toModel.unpack with
  | finite sign mantissa exponent positive =>
    cases sign with
    | positive =>
      have stands : StandsFor bound (mantissa * 2 ^ exponent) :=
        ⟨mantissa, exponent, isCanonical_of_unpack unpacked, unpacked, rfl⟩
      rw [le_of_compare (second.compare_eq stands), compare_le_iff_le] at within
      rw [le_of_compare (first.compare_eq stands), compare_le_iff_le]
      exact ordered.trans within
    | negative =>
      obtain ⟨_, _, _, seen, -⟩ := second
      exact absurd rfl ((le_of_compare (by rw [seen, unpacked]; rfl)).mp within)
  | zero sign =>
    obtain ⟨_, _, _, seen, -⟩ := second
    exact absurd rfl ((le_of_compare (by rw [seen, unpacked]; rfl)).mp within)
  | infinity sign =>
    obtain ⟨_, _, _, seen, -⟩ := second
    obtain ⟨_, _, _, seen', -⟩ := first
    cases sign with
    | positive => exact (le_of_compare (by rw [seen', unpacked]; rfl)).mpr (by decide)
    | negative => exact absurd rfl ((le_of_compare (by rw [seen, unpacked]; rfl)).mp within)
  | notANumber =>
    have notLe : ¬y ≤ bound := by
      show ¬decide (y.toModel ≤ bound.toModel) = true
      rw [decide_eq_true_iff]
      show ¬(y.toModel.unpack.compare bound.toModel.unpack).any (·.isLE) = true
      rw [unpacked]
      cases y.toModel.unpack <;> simp [UnpackedFloat.compare]
    exact absurd within notLe

/-! ### Ticks -/

/-- The double is close enough to a whole number to be moved there. -/
def Snaps (x : Float) (whole : Nat) : Prop :=
  Scalar.abs (x - Float.ofNat whole) ≤
    Ticks.tolerance * Scalar.max (Scalar.abs (Float.ofNat whole)) 1

/-- What the ticks of a number can be: the nearest whole number, if it is close enough where it is
below, and the next one above otherwise. -/
structure Settles (limit : Nat) (x : Float) (q : ℚ) (nearest above : Nat) : Prop where
  nearest_le : (nearest : ℚ) ≤ q + 1 / 2
  lt_nearest : q + 1 / 2 < nearest + 1
  lt_above : (above : ℚ) - 1 < q
  le_above : q ≤ above
  count : ceilUpTo limit (Ticks.settle x) = Min.min limit nearest ∧ (nearest < q → Snaps x nearest) ∨
    ceilUpTo limit (Ticks.settle x) = Min.min limit above ∧ (nearest < q → ¬Snaps x nearest)

theorem settle_eq {nearest : Float} (rounded : round x = nearest) : Ticks.settle x =
    if Scalar.abs (x - nearest) ≤ Ticks.tolerance * Scalar.max (Scalar.abs nearest) 1 then nearest
    else x := by
  rw [← rounded]
  rfl

theorem StandsFor.exists_settles (stands : StandsFor x q) (limit : Nat) :
    ∃ nearest above, Settles limit x q nearest above := by
  obtain ⟨above, low, high, ceiling⟩ := stands.exists_ceil limit
  rcases stands.round_eq with ⟨whole, rfl, rounded⟩ | ⟨nearest, small, below, further, rounded⟩
  · have same : above = whole := by
      have least : (above : ℚ) < (whole + 1 : Nat) := by
        push_cast
        linarith
      exact le_antisymm (Nat.lt_succ_iff.mp (by exact_mod_cast least)) (by exact_mod_cast high)
    refine ⟨whole, whole, by linarith, by linarith, by linarith, le_rfl, .inl ⟨?_, ?_⟩⟩
    · rw [settle_eq rounded, ite_self, ceiling, same]
    · exact fun less => absurd less (lt_irrefl _)
  · refine ⟨nearest, above, below, further, low, high, ?_⟩
    rw [settle_eq rounded]
    by_cases snaps : Snaps x nearest
    · refine .inl ⟨?_, fun _ => snaps⟩
      rw [Snaps] at snaps
      rw [if_pos snaps, ceilUpTo_ofNat (small.trans (by norm_num))]
    · refine .inr ⟨?_, fun _ => snaps⟩
      rw [Snaps] at snaps
      rw [if_neg snaps, ceiling]

/-- Closer numbers are moved as well. -/
theorem Snaps.mono {whole : Nat} (snaps : Snaps y whole) (first : StandsFor x p)
    (second : StandsFor y q) (below : (whole : ℚ) < p) (ordered : p ≤ q) (above : q < whole + 1) :
    Snaps x whole := by
  have nearer := first.sub_ofNat below (ordered.trans_lt above)
  have farther := second.sub_ofNat (below.trans_le ordered) above
  rw [Snaps] at snaps ⊢
  have nearerAbs : Scalar.abs (x - Float.ofNat whole) = x - Float.ofNat whole :=
    abs_of_standsFor nearer
  have fartherAbs : Scalar.abs (y - Float.ofNat whole) = y - Float.ofNat whole :=
    abs_of_standsFor farther
  rw [fartherAbs] at snaps
  rw [nearerAbs]
  exact nearer.le_of_le farther (by linarith) snaps

theorem StandsFor.ceilUpTo_settle_le (first : StandsFor x p) (second : StandsFor y q)
    (ordered : p ≤ q) (limit : Nat) :
    ceilUpTo limit (Ticks.settle x) ≤ ceilUpTo limit (Ticks.settle y) := by
  obtain ⟨nearest, above, settles⟩ := first.exists_settles limit
  obtain ⟨nearest', above', settles'⟩ := second.exists_settles limit
  have nearestLe : nearest ≤ nearest' := by
    have less : (nearest : ℚ) < (nearest' + 1 : Nat) := by
      push_cast
      linarith [settles.nearest_le, settles'.lt_nearest]
    exact Nat.lt_succ_iff.mp (by exact_mod_cast less)
  have aboveLe : above ≤ above' := by
    have less : (above : ℚ) < (above' + 1 : Nat) := by
      push_cast
      linarith [settles.lt_above, settles'.le_above]
    exact Nat.lt_succ_iff.mp (by exact_mod_cast less)
  have nearestLeAbove : nearest ≤ above := by
    have less : (nearest : ℚ) < (above + 1 : Nat) := by
      push_cast
      linarith [settles.nearest_le, settles.le_above]
    exact Nat.lt_succ_iff.mp (by exact_mod_cast less)
  rcases settles.count with ⟨count, -⟩ | ⟨count, notSnaps⟩ <;>
    rcases settles'.count with ⟨count', snaps'⟩ | ⟨count', -⟩ <;> rw [count, count']
  · exact min_le_min_left limit nearestLe
  · exact min_le_min_left limit (nearestLeAbove.trans aboveLe)
  · refine min_le_min_left limit ?_
    rcases le_or_gt p nearest' with within | beyond
    · have less : (above : ℚ) < (nearest' + 1 : Nat) := by
        push_cast
        linarith [settles.lt_above]
      exact Nat.lt_succ_iff.mp (by exact_mod_cast less)
    · -- Both numbers lie above the same nearest one, and the farther one is moved there.
      have same : nearest = nearest' := by
        have less : (nearest' : ℚ) < (nearest + 1 : Nat) := by
          push_cast
          linarith [settles.lt_nearest]
        exact le_antisymm nearestLe (Nat.lt_succ_iff.mp (by exact_mod_cast less))
      subst same
      have inside : q < nearest + 1 := by linarith [settles'.lt_nearest]
      exact absurd ((snaps' (beyond.trans_le ordered)).mono first second beyond ordered inside)
        (notSnaps beyond)
  · exact min_le_min_left limit aboveLe

theorem settle_of_infinite (infinite : ofFloat x = .infinite false) : Ticks.settle x = x := by
  rw [settle_eq (by rw [round, infinite]), ite_self]

/-- Infinitely many ticks are cut to the limit. -/
theorem ceilUpTo_settle_of_infinite (infinite : ofFloat x = .infinite false) (limit : Nat) :
    ceilUpTo limit (Ticks.settle x) = limit := by
  rw [settle_of_infinite infinite, ceilUpTo, infinite]

theorem roundHalfUp_zero (places : Nat) : roundHalfUp 0 places = 0 := by
  rw [roundHalfUp, Nat.pow_eq, Nat.pow_eq, mul_zero, zero_add]
  exact Nat.div_eq_of_lt (Nat.pow_lt_pow_right one_lt_two (Nat.lt_succ_self _))

theorem settle_zero : Ticks.settle (Float.ofNat 0) = Float.ofNat 0 := by
  have rounded : round (Float.ofNat 0) = Float.ofNat (roundHalfUp 0 1074) := by
    rw [round, ofFloat_zero]
    rfl
  rw [settle_eq rounded, roundHalfUp_zero, ite_self]

theorem ceilUpTo_settle_zero (limit : Nat) :
    ceilUpTo limit (Ticks.settle (Float.ofNat 0)) = 0 := by
  rw [settle_zero, ceilUpTo_ofNat (Nat.zero_le _), Nat.min_zero]

/-- Ticks are in the order of the numbers that were rounded. -/
theorem IsRounded.ceilUpTo_settle_le (first : IsRounded x p) (second : IsRounded y q)
    (ordered : p ≤ q) (limit : Nat) :
    ceilUpTo limit (Ticks.settle x) ≤ ceilUpTo limit (Ticks.settle y) := by
  cases first with
  | nothing zero _ =>
    rw [zero, ceilUpTo_settle_zero]
    exact Nat.zero_le _
  | @number mantissa exponent reduced isPacked rounds =>
    cases second with
    | nothing _ small =>
      have large := rounds.half_le
      have least : (2 : ℚ) ^ (-1074 : Int) ≤ 2 ^ exponent :=
        zpow_le_zpow_right₀ one_le_two reduced.least
      have unit : (0 : ℚ) < 2 ^ exponent := by positivity
      rw [half_least] at small
      exfalso
      rcases Nat.lt_or_eq_of_le (Nat.succ_le_of_lt reduced.pos) with more | one
      · have bound : (2 : ℚ) ≤ mantissa := by exact_mod_cast more
        have half : (1 / 2 : ℚ) * 2 ^ exponent < (mantissa - 1 / 2) * 2 ^ exponent := by
          refine mul_lt_mul_of_pos_right ?_ unit
          linarith
        linarith
      · have above := (rounds.open_ends (by omega)).1
        rw [← one, Nat.cast_one] at above
        linarith
    | @number mantissa' exponent' reduced' isPacked' rounds' =>
      rcases le_or_gt exponent' 971 with fits' | huge'
      · have fits : exponent ≤ 971 := by
          by_contra huge
          exact absurd (rounds'.lt_of_exponent_lt reduced' reduced rounds (by omega))
            (not_lt.mpr ordered)
        rw [isPacked, isPacked']
        exact (standsFor_pack ⟨reduced, fits⟩).ceilUpTo_settle_le (standsFor_pack ⟨reduced', fits'⟩)
          (rounds.le reduced reduced' rounds' ordered) limit
      · rw [isPacked', ceilUpTo_settle_of_infinite (ofFloat_pack_huge reduced'.pos huge')]
        exact ceilUpTo_le limit _

/-! ### Order of bits -/

/-- A number that is finite and not below zero is zero or stands for a positive number. -/
theorem zero_or_standsFor (magnitude : Scalar.isMagnitude x) :
    (∃ sign, x.toModel.unpack = .zero sign) ∨ ∃ q, StandsFor x q := by
  rw [Scalar.isMagnitude, Bool.and_eq_true, decide_eq_true_iff] at magnitude
  obtain ⟨finite, nonneg⟩ := magnitude
  change x.toModel.unpack.isFinite = true at finite
  change Float.ofNat 0 ≤ x at nonneg
  cases unpacked : x.toModel.unpack with
  | finite sign mantissa exponent positive =>
    cases sign with
    | positive =>
      exact .inr ⟨_, mantissa, exponent, isCanonical_of_unpack unpacked, unpacked, rfl⟩
    | negative =>
      exact absurd rfl ((le_of_compare (by rw [unpack_zero, unpacked]; rfl)).mp nonneg)
  | zero sign => exact .inl ⟨sign, rfl⟩
  | infinity sign =>
    rw [unpacked] at finite
    cases finite
  | notANumber =>
    rw [unpacked] at finite
    cases finite

theorem exists_standsFor (finite : Scalar.isFinite x) (positive : 0 < x) : ∃ q, StandsFor x q := by
  change x.toModel.unpack.isFinite = true at finite
  change decide ((Float.ofNat 0).toModel < x.toModel) = true at positive
  rw [decide_eq_true_iff] at positive
  change ((Float.ofNat 0).toModel.unpack.lt x.toModel.unpack) = true at positive
  rw [unpack_zero] at positive
  cases unpacked : x.toModel.unpack with
  | finite sign mantissa exponent some =>
    cases sign with
    | positive => exact ⟨_, mantissa, exponent, isCanonical_of_unpack unpacked, unpacked, rfl⟩
    | negative =>
      rw [unpacked] at positive
      cases positive
  | zero sign =>
    rw [unpacked] at positive
    cases positive
  | infinity sign =>
    rw [unpacked] at finite
    cases finite
  | notANumber =>
    rw [unpacked] at finite
    cases finite

/-- The bits of a positive number are its exponent and its fraction. -/
theorem StandsFor.bits (stands : StandsFor x q) : ∃ biased fraction : Nat,
    x.toBits.toNat = biased * 2 ^ 52 + fraction ∧ fraction < 2 ^ 52 ∧ x.toBits.toNat < 2 ^ 63 ∧
      q = if biased = 0 then (fraction : ℚ) * 2 ^ (-1074 : Int)
        else (2 ^ 52 + fraction : Nat) * 2 ^ ((biased : Int) - 1075) := by
  obtain ⟨mantissa, exponent, -, seen, rfl⟩ := stands.exists_number
  rw [ofFloat, ofBits] at seen
  simp only [Nat.pow_eq] at seen
  have bound : x.toBits.toNat < 2 ^ 64 := x.toBits.toNat_lt
  have sign : x.toBits.toNat < 2 ^ 63 := by
    have unset : decide (2 ^ 63 ≤ x.toBits.toNat) = false := by
      split_ifs at seen <;> exact (Double.number.inj seen).1
    exact not_le.mp (of_decide_eq_false unset)
  refine ⟨x.toBits.toNat / 2 ^ 52 % 2 ^ 11, x.toBits.toNat % 2 ^ 52, by omega,
    Nat.mod_lt _ (by norm_num), sign, ?_⟩
  split_ifs at seen with last zero first
  · obtain ⟨-, rfl, rfl⟩ := Double.number.inj seen
    rw [if_pos first]
  · obtain ⟨-, rfl, rfl⟩ := Double.number.inj seen
    rw [if_neg first]

theorem StandsFor.le_of_bits (first : StandsFor x p) (second : StandsFor y q)
    (ordered : x.toBits.toNat ≤ y.toBits.toNat) : p ≤ q := by
  obtain ⟨biased, fraction, bits, small, -, rfl⟩ := first.bits
  obtain ⟨biased', fraction', bits', small', -, rfl⟩ := second.bits
  rw [bits, bits'] at ordered
  rcases lt_trichotomy biased biased' with less | rfl | greater
  · have full' : IsReduced (2 ^ 52 + fraction') ((biased' : Int) - 1075) :=
      ⟨by omega, by omega, by omega, .inl (by omega)⟩
    rw [if_neg (by omega : biased' ≠ 0)]
    by_cases zero : biased = 0
    · rw [if_pos zero]
      have unit : (2 : ℚ) ^ (-1074 : Int) ≤ 2 ^ ((biased' : Int) - 1075) :=
        zpow_le_zpow_right₀ one_le_two (by omega)
      have less : (fraction : ℚ) ≤ (2 ^ 52 + fraction' : Nat) := by
        exact_mod_cast (by omega : fraction ≤ 2 ^ 52 + fraction')
      exact mul_le_mul less unit (by positivity) (by positivity)
    · rw [if_neg zero]
      have full : IsReduced (2 ^ 52 + fraction) ((biased : Int) - 1075) :=
        ⟨by omega, by omega, by omega, .inl (by omega)⟩
      exact (mul_two_zpow_lt full full' (by omega)).le
  · have less : fraction ≤ fraction' := by omega
    split
    · exact mul_le_mul_of_nonneg_right (by exact_mod_cast less) (by positivity)
    · refine mul_le_mul_of_nonneg_right ?_ (by positivity)
      exact_mod_cast Nat.add_le_add_left less (2 ^ 52)
  · omega

/-- What does not precede a positive number stands for no smaller one. -/
theorem StandsFor.le_of_precedes (first : StandsFor x p) (magnitude : Scalar.isMagnitude y)
    (precedes : Scalar.precedes x y) : ∃ q, StandsFor y q ∧ p ≤ q := by
  have ordered : orderKey x ≤ orderKey y := of_decide_eq_true precedes
  obtain ⟨biased, fraction, bits, small, below, value⟩ := first.bits
  have positive : 0 < x.toBits.toNat := by
    refine Nat.pos_of_ne_zero fun zero => ?_
    have above := first.pos
    obtain rfl : biased = 0 := by omega
    obtain rfl : fraction = 0 := by omega
    rw [value] at above
    simp at above
  have nonneg : y.toBits.toNat < 2 ^ 63 ∧ x.toBits.toNat ≤ y.toBits.toNat := by
    rw [orderKey, orderKey] at ordered
    simp only [Nat.pow_eq] at ordered
    split_ifs at ordered <;> omega
  rcases zero_or_standsFor magnitude with ⟨sign, unpacked⟩ | ⟨q, second⟩
  · have seen : ofFloat y = .number (sign == .negative) 0 (-1074) := by
      rw [ofFloat_eq, unpacked]
      rfl
    rw [ofFloat, ofBits] at seen
    simp only [Nat.pow_eq] at seen
    exfalso
    split_ifs at seen with last zero first
    · have nothing := (Double.number.inj seen).2.1
      omega
    · have nothing := (Double.number.inj seen).2.1
      omega
  · exact ⟨q, second, first.le_of_bits second nonneg.2⟩

theorem ceilUpTo_settle_of_zero {sign : Sign} (unpacked : x.toModel.unpack = .zero sign) :
    ceilUpTo Ticks.limit (Ticks.settle x) = 0 := by
  have known : x = Float.ofModel (Float.Model.pack (.zero sign)) :=
    eq_of_unpack (by rw [unpacked]; cases sign <;> rfl)
  rw [known]
  cases sign <;> decide +kernel

/-- Nothing takes no ticks, and at no rate nothing takes any. -/
theorem count_of_zero {sign : Sign}
    (nothing : x.toModel.unpack = .zero sign ∨ y.toModel.unpack = .zero sign) :
    Ticks.count x y = 0 := by
  have product : x * y = Float.ofModel (Float.Model.pack .notANumber) ∨
      ∃ sign, x * y = Float.ofModel (Float.Model.pack (.zero sign)) := by
    have multiplied : x * y = Float.ofModel (Float.Model.pack
      (UnpackedFloat.mul Format.binary64 x.toModel.unpack y.toModel.unpack)) := rfl
    rw [multiplied]
    rcases nothing with unpacked | unpacked <;> rw [unpacked]
    · cases y.toModel.unpack with
      | infinity | notANumber => exact .inl rfl
      | zero | finite => exact .inr ⟨_, rfl⟩
    · cases x.toModel.unpack with
      | infinity | notANumber => exact .inl rfl
      | zero | finite => exact .inr ⟨_, rfl⟩
  rw [Ticks.count_eq]
  rcases product with product | ⟨sign', product⟩ <;> rw [product]
  · decide +kernel
  · have unpacked : (Float.ofModel (Float.Model.pack (.zero sign'))).toModel.unpack =
        .zero sign' := by
      cases sign' <;> rfl
    exact ceilUpTo_settle_of_zero unpacked

end Double

/-- Doubles keep their order when they are counted in ticks. -/
instance : Scheduling Float where
  precedes_total first second := by
    rw [Bool.or_eq_true]
    exact (le_total (Double.orderKey first) (Double.orderKey second)).imp decide_eq_true
      decide_eq_true
  precedes_trans first second third ordered further := by
    exact decide_eq_true ((of_decide_eq_true ordered).trans (of_decide_eq_true further))
  count_le {first second rate} magnitude magnitude' finite positive ordered := by
    obtain ⟨ratio, rateStands⟩ := Double.exists_standsFor finite positive
    rcases Double.zero_or_standsFor magnitude with ⟨sign, unpacked⟩ | ⟨p, stands⟩
    · rw [Double.count_of_zero (.inl unpacked)]
      exact Nat.zero_le _
    · obtain ⟨q, stands', less⟩ := stands.le_of_precedes magnitude' ordered
      exact (stands.isRounded_mul rateStands).ceilUpTo_settle_le (stands'.isRounded_mul rateStands)
        (mul_le_mul_of_nonneg_right less rateStands.pos.le) Ticks.limit
  le_limit_add_one count within := by
    have same : (Scalar.ofNat countingLimit : Float) + 1 = Scalar.ofNat countingLimit := by
      decide +kernel
    rw [same]
    rcases Nat.le_or_eq_of_le_succ within with small | rfl
    · exact (Counting.ofNat_le count countingLimit small le_rfl).mpr small
    · decide +kernel

end Stagecraft
