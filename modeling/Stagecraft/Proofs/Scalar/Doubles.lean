/-
This file says what arithmetic on doubles gives where the result is a double or lies near one. A
positive double stands for one rational number; sums, decimals and comparisons are those of the
numbers that doubles stand for. Other finite doubles are the negatives of positive ones, or zeros.
-/

import Stagecraft.Proofs.Scalar.Counting
import Stagecraft.Proofs.Scalar.Packing

namespace Stagecraft

open Float.Model Float.Model.UnpackedFloat Rounding

namespace Double

/-! ### What doubles stand for -/

/-- The same view of a double, from its unpacked form. -/
def ofUnpacked : UnpackedFloat → Double
  | .notANumber => .notANumber
  | .infinity sign => .infinite (sign == .negative)
  | .zero sign => .number (sign == .negative) 0 (-1074)
  | .finite sign mantissa exponent _ => .number (sign == .negative) mantissa exponent

theorem unpack_eq (x : Float) :
    x.toModel.unpack = assemble (Sign.ofBitVec (@unpackSign Format.binary64 x.toBits.toBitVec))
      (x.toBits.toNat / 2 ^ 52 % 2 ^ 11) (x.toBits.toNat % 2 ^ 52) := by
  have parts := unpack_packComponents
    (Sign.ofBitVec (@unpackSign Format.binary64 x.toBits.toBitVec))
    (@unpackExponent Format.binary64 x.toBits.toBitVec)
    (@unpackMantissa Format.binary64 x.toBits.toBitVec)
  rw [packComponents_unpack, toNat_unpackExponent, toNat_unpackMantissa] at parts
  exact parts

theorem ofFloat_eq (x : Float) : ofFloat x = ofUnpacked x.toModel.unpack := by
  have isNegative : (Sign.ofBitVec (@unpackSign Format.binary64 x.toBits.toBitVec) == .negative) =
      decide (2 ^ 63 ≤ x.toBits.toNat) := by
    have bit := toNat_unpackSign x.toBits.toBitVec
    by_cases set : 2 ^ 63 ≤ x.toBits.toNat
    · have isOne : @unpackSign Format.binary64 x.toBits.toBitVec = 1#1 := by
        apply BitVec.eq_of_toNat_eq
        have bound := (@unpackSign Format.binary64 x.toBits.toBitVec).isLt
        have large : 1 ≤ x.toBits.toNat / 2 ^ 63 := (Nat.one_le_div_iff (by norm_num)).mpr set
        rw [bit] at bound ⊢
        exact le_antisymm (Nat.lt_succ_iff.mp bound) large
      rw [isOne, decide_eq_true set]
      rfl
    · have isZero : @unpackSign Format.binary64 x.toBits.toBitVec = 0#1 := by
        apply BitVec.eq_of_toNat_eq
        rw [bit]
        exact Nat.div_eq_of_lt (not_le.mp set)
      rw [isZero, decide_eq_false set]
      rfl
  rw [ofFloat, ofBits, unpack_eq, assemble]
  simp only [Nat.pow_eq, ← isNegative]
  split_ifs with last zero first positive
  · rfl
  · rfl
  · rfl
  · rw [Nat.eq_zero_of_not_pos positive]
    rfl
  · rfl

/-- A finite double that is not zero has a canonical form. -/
theorem isCanonical_of_unpack {x : Float} {sign : Sign} {mantissa : Nat} {exponent : Int}
    {positive : 0 < mantissa}
    (unpacked : x.toModel.unpack = .finite sign mantissa exponent positive) :
    IsCanonical mantissa exponent := by
  have fraction : x.toBits.toNat % 2 ^ 52 < 2 ^ 52 := Nat.mod_lt _ (by norm_num)
  have biased : x.toBits.toNat / 2 ^ 52 % 2 ^ 11 < 2 ^ 11 := Nat.mod_lt _ (by norm_num)
  rw [unpack_eq, assemble] at unpacked
  split_ifs at unpacked with last zero first some
  · obtain ⟨-, rfl, rfl⟩ := UnpackedFloat.finite.inj unpacked
    exact isCanonical_of_lt some fraction
  · obtain ⟨-, rfl, rfl⟩ := UnpackedFloat.finite.inj unpacked
    exact isCanonical_full first (by omega) fraction

/-- The positive double stands for the number. -/
def StandsFor (x : Float) (q : ℚ) : Prop :=
  ∃ mantissa exponent, ∃ canonical : IsCanonical mantissa exponent,
    x.toModel.unpack = .finite .positive mantissa exponent canonical.pos ∧
      (mantissa : ℚ) * 2 ^ exponent = q

theorem standsFor_pack {mantissa : Nat} {exponent : Int} (canonical : IsCanonical mantissa exponent) :
    StandsFor (Float.ofModel (Float.Model.pack
      (.finite .positive mantissa exponent canonical.pos))) (mantissa * 2 ^ exponent) :=
  ⟨mantissa, exponent, canonical, unpack_pack canonical .positive, rfl⟩

/-- Every positive finite double stands for a number. -/
theorem standsFor_of_ofFloat {x : Float} {mantissa : Nat} {exponent : Int} (nonzero : mantissa ≠ 0)
    (seen : ofFloat x = .number false mantissa exponent) :
    IsCanonical mantissa exponent ∧ StandsFor x (mantissa * 2 ^ exponent) := by
  rw [ofFloat_eq] at seen
  cases unpacked : x.toModel.unpack with
  | finite sign mantissa' exponent' positive =>
    rw [unpacked] at seen
    obtain ⟨isPositive, rfl, rfl⟩ := Double.number.inj seen
    have canonical := isCanonical_of_unpack unpacked
    refine ⟨canonical, mantissa', exponent', canonical, ?_, rfl⟩
    cases sign with
    | positive => exact unpacked
    | negative => cases isPositive
  | zero sign =>
    rw [unpacked] at seen
    exact absurd (Double.number.inj seen).2.1.symm nonzero
  | infinity sign =>
    rw [unpacked] at seen
    cases seen
  | notANumber =>
    rw [unpacked] at seen
    cases seen

/-! ### Order -/

theorem beq_of_compare {x y : Float} {order : Ordering}
    (compared : x.toModel.unpack.compare y.toModel.unpack = some order) :
    (x == y) = decide (order = .eq) := by
  show (x.toModel.unpack.compare y.toModel.unpack == some .eq) = _
  rw [compared]
  cases order <;> rfl

theorem lt_of_compare {x y : Float} {order : Ordering}
    (compared : x.toModel.unpack.compare y.toModel.unpack = some order) : x < y ↔ order = .lt := by
  show decide (x.toModel < y.toModel) = true ↔ _
  rw [decide_eq_true_iff]
  show (x.toModel.unpack.compare y.toModel.unpack == some .lt) = true ↔ _
  rw [compared]
  cases order <;> decide

theorem le_of_compare {x y : Float} {order : Ordering}
    (compared : x.toModel.unpack.compare y.toModel.unpack = some order) :
    x ≤ y ↔ order ≠ .gt := by
  show decide (x.toModel ≤ y.toModel) = true ↔ _
  rw [decide_eq_true_iff]
  show (x.toModel.unpack.compare y.toModel.unpack).any (·.isLE) = true ↔ _
  rw [compared, Option.any_some, Ordering.isLE_iff_ne_gt]

section

variable {mantissa mantissa' : Nat} {exponent exponent' : Int}

theorem mul_two_zpow_lt (first : IsReduced mantissa exponent)
    (second : IsReduced mantissa' exponent') (less : exponent < exponent') :
    (mantissa * 2 ^ exponent : ℚ) < mantissa' * 2 ^ exponent' := by
  have least := first.least
  have small : (mantissa : ℚ) < 2 ^ 53 := by exact_mod_cast first.lt
  have full : (2 ^ 52 : ℚ) ≤ mantissa' := by
    exact_mod_cast second.full.resolve_right (by omega)
  calc (mantissa * 2 ^ exponent : ℚ) < 2 ^ 53 * 2 ^ exponent :=
        mul_lt_mul_of_pos_right small (by positivity)
    _ = 2 ^ 52 * 2 ^ (exponent + 1) := by
        rw [zpow_add_one₀ two_ne_zero]
        ring
    _ ≤ 2 ^ 52 * 2 ^ exponent' :=
        mul_le_mul_of_nonneg_left (zpow_le_zpow_right₀ one_le_two (by omega)) (by positivity)
    _ ≤ mantissa' * 2 ^ exponent' := mul_le_mul_of_nonneg_right full (by positivity)

/-- Doubles are ordered by exponent and then by mantissa, as the numbers are. -/
theorem compare_finite (first : IsReduced mantissa exponent)
    (second : IsReduced mantissa' exponent') :
    (compare exponent exponent').then (compare mantissa mantissa') =
      compare (mantissa * 2 ^ exponent : ℚ) (mantissa' * 2 ^ exponent') := by
  rcases lt_trichotomy exponent exponent' with less | rfl | greater
  · rw [compare_lt_iff_lt.mpr less, compare_lt_iff_lt.mpr (mul_two_zpow_lt first second less)]
    rfl
  · have positive : (0 : ℚ) < 2 ^ exponent := by positivity
    rw [compare_eq_iff_eq.mpr rfl, Ordering.eq_then]
    rcases lt_trichotomy mantissa mantissa' with less | rfl | greater
    · rw [compare_lt_iff_lt.mpr less, compare_lt_iff_lt.mpr]
      exact mul_lt_mul_of_pos_right (by exact_mod_cast less) positive
    · rw [compare_eq_iff_eq.mpr rfl, compare_eq_iff_eq.mpr rfl]
    · rw [compare_gt_iff_gt.mpr greater, compare_gt_iff_gt.mpr]
      exact mul_lt_mul_of_pos_right (by exact_mod_cast greater) positive
  · rw [compare_gt_iff_gt.mpr greater, compare_gt_iff_gt.mpr (mul_two_zpow_lt second first greater)]
    rfl

variable {x y : Float} {p q : ℚ}

theorem StandsFor.compare_eq (first : StandsFor x p) (second : StandsFor y q) :
    x.toModel.unpack.compare y.toModel.unpack = some (compare p q) := by
  obtain ⟨mantissa, exponent, canonical, unpacked, rfl⟩ := first
  obtain ⟨mantissa', exponent', canonical', unpacked', rfl⟩ := second
  rw [unpacked, unpacked', ← compare_finite canonical.toIsReduced canonical'.toIsReduced]
  rfl

theorem eq_of_unpack (same : x.toModel.unpack = y.toModel.unpack) : x = y := by
  have sameModel : x.toModel = y.toModel := by
    rw [← model_pack_unpack x.toModel, ← model_pack_unpack y.toModel, same]
  cases x
  cases y
  exact congrArg Float.ofModel sameModel

/-- A number has one double that stands for it. -/
theorem StandsFor.eq (first : StandsFor x q) (second : StandsFor y q) : x = y := by
  obtain ⟨mantissa, exponent, canonical, unpacked, value⟩ := first
  obtain ⟨mantissa', exponent', canonical', unpacked', rfl⟩ := second
  have sameOrder := compare_finite canonical.toIsReduced canonical'.toIsReduced
  rw [value, compare_eq_iff_eq.mpr rfl, Ordering.then_eq_eq, compare_eq_iff_eq,
    compare_eq_iff_eq] at sameOrder
  obtain ⟨rfl, rfl⟩ := sameOrder
  exact eq_of_unpack (unpacked.trans unpacked'.symm)

end

/-- Zero is unpacked as such. -/
theorem unpack_zero : (Float.ofNat 0).toModel.unpack = .zero .positive := by
  have packed : Float.ofNat 0 = Float.ofModel (Float.Model.pack (.zero .positive)) := by
    decide +kernel
  rw [packed]
  rfl

theorem eq_zero_of_ofFloat {x : Float} {exponent : Int}
    (seen : ofFloat x = .number false 0 exponent) : x = 0 := by
  refine eq_of_unpack (Eq.trans ?_ unpack_zero.symm)
  rw [ofFloat_eq] at seen
  cases unpacked : x.toModel.unpack with
  | finite sign mantissa exponent' positive =>
    rw [unpacked] at seen
    exact absurd (Double.number.inj seen).2.1 positive.ne'
  | zero sign =>
    rw [unpacked] at seen
    cases sign with
    | positive => rfl
    | negative => exact absurd (Double.number.inj seen).1 (by decide)
  | infinity sign =>
    rw [unpacked] at seen
    cases seen
  | notANumber =>
    rw [unpacked] at seen
    cases seen

/-! ### Signs -/

theorem unpack_neg (x : Float) : (-x).toModel.unpack = x.toModel.unpack.neg := by
  show (Float.Model.pack x.toModel.unpack.neg).unpack = _
  cases unpacked : x.toModel.unpack with
  | finite sign mantissa exponent positive => exact unpack_pack (isCanonical_of_unpack unpacked) (-sign)
  | zero sign => cases sign <;> rfl
  | infinity sign => cases sign <;> rfl
  | notANumber => rfl

theorem neg_neg (x : Float) : -(-x) = x := by
  refine eq_of_unpack ?_
  rw [unpack_neg, unpack_neg]
  cases x.toModel.unpack with
  | finite sign _ _ _ | zero sign | infinity sign => cases sign <;> rfl
  | notANumber => rfl

/-- The double is a finite number that is not below zero, and not `-0` either. -/
def IsMagnitude (x : Float) : Prop :=
  ∃ mantissa exponent, ofFloat x = .number false mantissa exponent

theorem IsMagnitude.isFinite {x : Float} (magnitude : IsMagnitude x) : x.isFinite = true := by
  obtain ⟨mantissa, exponent, seen⟩ := magnitude
  show x.toModel.unpack.isFinite = true
  rw [ofFloat_eq] at seen
  cases unpacked : x.toModel.unpack with
  | finite | zero => rfl
  | infinity | notANumber =>
    rw [unpacked] at seen
    cases seen

/-- Zero is the only magnitude that equals it. -/
theorem IsMagnitude.eq_zero {x : Float} (magnitude : IsMagnitude x) (isZero : (x == 0) = true) :
    x = 0 := by
  obtain ⟨mantissa, exponent, seen⟩ := magnitude
  by_cases nothing : mantissa = 0
  · subst nothing
    exact eq_zero_of_ofFloat seen
  · obtain ⟨-, _, _, canonical, unpacked, -⟩ := standsFor_of_ofFloat nothing seen
    have compared : x.toModel.unpack.compare (0 : Float).toModel.unpack = some .gt := by
      show x.toModel.unpack.compare (Float.ofNat 0).toModel.unpack = some .gt
      rw [unpacked, unpack_zero]
      rfl
    rw [beq_of_compare compared] at isZero
    cases isZero

/-- A finite double other than `-0` is a magnitude, or the negative of one below zero. -/
theorem isMagnitude_or_neg {x : Float} (finite : x.isFinite = true) (notNegativeZero : x ≠ -0) :
    ¬ x < 0 ∧ IsMagnitude x ∨ x < 0 ∧ IsMagnitude (-x) := by
  have isFinite : x.toModel.unpack.isFinite = true := finite
  have order : ∀ {found : Ordering}, x.toModel.unpack.compare (.zero .positive) = some found →
      (x < 0 ↔ found = .lt) := fun compared => lt_of_compare (unpack_zero ▸ compared)
  cases unpacked : x.toModel.unpack with
  | finite sign mantissa exponent positive =>
    rw [unpacked] at order
    cases sign with
    | positive =>
      refine .inl ⟨fun below => ?_, mantissa, exponent, ?_⟩
      · cases (order rfl).mp below
      · rw [ofFloat_eq, unpacked]
        rfl
    | negative =>
      refine .inr ⟨(order rfl).mpr rfl, mantissa, exponent, ?_⟩
      rw [ofFloat_eq, unpack_neg, unpacked]
      rfl
  | zero sign =>
    rw [unpacked] at order
    cases sign with
    | positive =>
      refine .inl ⟨fun below => ?_, 0, -1074, ?_⟩
      · cases (order rfl).mp below
      · rw [ofFloat_eq, unpacked]
        rfl
    | negative =>
      refine absurd (eq_of_unpack ?_) notNegativeZero
      rw [unpack_neg, unpacked]
      exact congrArg UnpackedFloat.neg unpack_zero.symm
  | infinity | notANumber =>
    rw [unpacked] at isFinite
    cases isFinite

/-! ### Whole numbers and decimals -/

/-- A whole number with few digits, shifted, has a canonical form. -/
theorem exists_canonical {count : Nat} (positive : 0 < count) (small : count < 2 ^ 53) (shift : Int)
    (least : -1022 ≤ shift) (greatest : shift ≤ 971) :
    ∃ mantissa exponent, IsCanonical mantissa exponent ∧
      (mantissa : ℚ) * 2 ^ exponent = count * 2 ^ shift := by
  have bits : count.log2 ≤ 52 := Nat.lt_succ_iff.mp ((Nat.log2_lt positive.ne').mpr small)
  have lower : 2 ^ count.log2 ≤ count := Nat.log2_self_le positive.ne'
  have upper : count < 2 ^ (count.log2 + 1) := Nat.lt_log2_self
  have full : 2 ^ 52 ≤ count * 2 ^ (52 - count.log2) := by
    calc 2 ^ 52 = 2 ^ count.log2 * 2 ^ (52 - count.log2) := by
          rw [← pow_add, Nat.add_sub_cancel' bits]
      _ ≤ count * 2 ^ (52 - count.log2) := Nat.mul_le_mul_right _ lower
  have bounded : count * 2 ^ (52 - count.log2) < 2 ^ 53 := by
    calc count * 2 ^ (52 - count.log2) < 2 ^ (count.log2 + 1) * 2 ^ (52 - count.log2) :=
          Nat.mul_lt_mul_of_pos_right upper (by positivity)
      _ = 2 ^ 53 := by
          rw [← pow_add]
          congr 1
          omega
  refine ⟨count * 2 ^ (52 - count.log2), shift - (52 - count.log2 : Nat),
    ⟨⟨by omega, bounded, by omega, .inl full⟩, by omega⟩, ?_⟩
  rw [zpow_sub₀ two_ne_zero, zpow_natCast]
  push_cast
  field_simp

theorem unpackedOfNat {count mantissa : Nat} {exponent : Int}
    (canonical : IsCanonical mantissa exponent) (rounds : RoundsTo mantissa exponent count) :
    UnpackedFloat.ofNat Format.binary64 count =
      .finite .positive mantissa exponent canonical.pos := by
  have positive : 0 < count := by
    have above := rounds.pos canonical.toIsReduced
    exact_mod_cast above
  have order : compare (count : Int) 0 = .gt :=
    compare_gt_iff_gt.mpr (by exact_mod_cast positive)
  have shifted : RoundsTo mantissa exponent (count * 2 ^ (0 : Int)) := by
    rwa [zpow_zero, mul_one]
  rw [UnpackedFloat.ofNat, UnpackedFloat.ofInt, UnpackedFloat.normalize, order]
  exact round_eq canonical.toIsReduced shifted .positive

theorem powersOfTen_eq : ∀ places : Fin 23,
    Float.exactlyRepresentablePowersOfTen[places] =
      Float.ofModel (Float.Model.ofNat (10 ^ places.val)) := by
  decide +kernel

theorem standsFor_powerOfTen {places : Nat} (few : places < 23) :
    StandsFor Float.exactlyRepresentablePowersOfTen[places] (10 ^ places) := by
  have small : 5 ^ places < 2 ^ 53 :=
    (Nat.pow_le_pow_right (by norm_num) (by omega : places ≤ 22)).trans_lt (by norm_num)
  obtain ⟨mantissa, exponent, canonical, value⟩ :=
    exists_canonical (by positivity : 0 < 5 ^ places) small places (by omega) (by omega)
  have power : (mantissa : ℚ) * 2 ^ exponent = 10 ^ places := by
    rw [value, zpow_natCast]
    push_cast
    rw [← mul_pow]
    norm_num
  have rounds : RoundsTo mantissa exponent ((10 ^ places : Nat) : ℚ) := by
    push_cast
    rw [← power]
    exact RoundsTo.self mantissa exponent
  have packed := standsFor_pack canonical
  rw [power, ← unpackedOfNat canonical rounds] at packed
  exact (congrArg (StandsFor · (10 ^ places)) (powersOfTen_eq ⟨places, few⟩)).mpr packed

/-- A product of doubles has enough digits, or it is counted in units that are small enough. -/
theorem mul_enough {mantissa mantissa' : Nat} {exponent exponent' : Int}
    (first : IsReduced mantissa exponent) (second : IsReduced mantissa' exponent') :
    2 ^ 52 ≤ mantissa * mantissa' ∨ exponent + exponent' ≤ -1074 := by
  rcases first.full with full | least
  · exact .inl (full.trans (Nat.le_mul_of_pos_right _ second.pos))
  · rcases second.full with full | least'
    · exact .inl (full.trans (Nat.le_mul_of_pos_left _ first.pos))
    · exact .inr (by omega)

theorem StandsFor.mul {x y : Float} {p q : ℚ} {mantissa : Nat} {exponent : Int}
    (first : StandsFor x p) (second : StandsFor y q)
    (reduced : IsReduced mantissa exponent) (rounds : RoundsTo mantissa exponent (p * q)) :
    x * y = Float.ofModel (Float.Model.pack (.finite .positive mantissa exponent reduced.pos)) := by
  obtain ⟨firstMantissa, firstExponent, firstCanonical, unpacked, rfl⟩ := first
  obtain ⟨secondMantissa, secondExponent, secondCanonical, unpacked', rfl⟩ := second
  have enough := mul_enough firstCanonical.toIsReduced secondCanonical.toIsReduced
  show Float.ofModel (Float.Model.pack
    (UnpackedFloat.mul Format.binary64 x.toModel.unpack y.toModel.unpack)) = _
  rw [unpacked, unpacked', mul_eq reduced enough rounds]
  rfl

theorem StandsFor.div {x y : Float} {p q : ℚ} {mantissa : Nat} {exponent : Int}
    (first : StandsFor x p) (second : StandsFor y q)
    (canonical : IsCanonical mantissa exponent) (rounds : RoundsTo mantissa exponent (p / q)) :
    x / y = Float.ofModel (Float.Model.pack (.finite .positive mantissa exponent canonical.pos)) := by
  obtain ⟨firstMantissa, firstExponent, firstCanonical, unpacked, rfl⟩ := first
  obtain ⟨secondMantissa, secondExponent, secondCanonical, unpacked', rfl⟩ := second
  show Float.ofModel (Float.Model.pack
    (UnpackedFloat.div Format.binary64 x.toModel.unpack y.toModel.unpack)) = _
  rw [unpacked, unpacked', div_eq canonical.toIsReduced firstCanonical.pos secondCanonical.pos rounds]
  rfl

/-- A whole number that fits a word, and a mantissa. -/
theorem standsFor_toFloat {count : Nat} (positive : 0 < count) (small : count < 2 ^ 53) :
    StandsFor count.toUInt64.toFloat count := by
  obtain ⟨mantissa, exponent, canonical, value⟩ :=
    exists_canonical positive small 0 (by norm_num) (by norm_num)
  rw [zpow_zero, mul_one] at value
  have rounds : RoundsTo mantissa exponent count := by
    rw [← value]
    exact RoundsTo.self mantissa exponent
  have fits : count.toUInt64.toNat = count := by
    show (UInt64.ofNat count).toNat = count
    rw [UInt64.toNat_ofNat', Nat.mod_eq_of_lt (by omega)]
  have packed := standsFor_pack canonical
  rw [value, ← unpackedOfNat canonical rounds] at packed
  have same : count.toUInt64.toFloat =
      Float.ofModel (Float.Model.pack (UnpackedFloat.ofNat Format.binary64 count)) := by
    show Float.ofModel (Float.Model.pack
      (UnpackedFloat.ofNat Format.binary64 count.toUInt64.toNat)) = _
    rw [fits]
  rwa [same]

/-- A decimal in terms of the model: by rounding a product or a quotient. -/
theorem unpackedOfScientific {mantissa : Nat} {exponent : Int}
    (canonical : IsCanonical mantissa exponent) {digits : Nat} {power : Int}
    (nonzero : digits ≠ 0) (rounds : RoundsTo mantissa exponent (digits * 10 ^ power))
    (notHuge : power ≤ 2 ^ 11) (notTiny : -(2 ^ 11 + (digits.log2 : Int)) ≤ power) :
    UnpackedFloat.ofScientific Format.binary64 digits power =
      .finite .positive mantissa exponent canonical.pos := by
  have positive := Nat.pos_of_ne_zero nonzero
  have huge : ¬power > 2 ^ Format.binary64.exponentBits := not_lt.mpr notHuge
  have tiny : ¬power < -(2 ^ Format.binary64.exponentBits + (digits.log2 : Int)) :=
    not_lt.mpr notTiny
  rw [UnpackedFloat.ofScientific, dif_neg nonzero, if_neg huge, if_neg tiny]
  split
  · rename_i whole
    have enough : 2 ^ 52 ≤ digits <<< 53 * 10 ^ power.toNat := by
      rw [Nat.shiftLeft_eq]
      calc 2 ^ 52 ≤ 1 * 2 ^ 53 * 1 := by norm_num
        _ ≤ digits * 2 ^ 53 * 10 ^ power.toNat :=
          Nat.mul_le_mul (Nat.mul_le_mul_right _ positive) (Nat.one_le_pow _ _ (by norm_num))
    have split : (digits : ℚ) * (10 : ℚ) ^ power =
        ((digits <<< 53 : Nat) : ℚ) * 2 ^ (-53 : Int) *
          (((10 ^ power.toNat : Nat) : ℚ) * 2 ^ (0 : Int)) := by
      have exponents : power = (power.toNat : Int) := by omega
      rw [Nat.shiftLeft_eq, zpow_neg, zpow_zero, mul_one]
      conv_lhs => rw [exponents, zpow_natCast]
      push_cast
      rw [mul_assoc (digits : ℚ), ← zpow_natCast, mul_inv_cancel₀ (by positivity), mul_one]
    rw [split] at rounds
    exact mul_eq canonical.toIsReduced (.inl enough) rounds _ _ _ _
  · rename_i negative
    have split : (digits : ℚ) * (10 : ℚ) ^ power =
        (digits : ℚ) * 2 ^ (0 : Int) / (((10 ^ (-power).toNat : Nat) : ℚ) * 2 ^ (0 : Int)) := by
      have exponents : power = -((-power).toNat : Int) := by omega
      rw [zpow_zero, mul_one, mul_one]
      conv_lhs => rw [exponents, zpow_neg, zpow_natCast, ← div_eq_mul_inv]
      push_cast
      rfl
    rw [split] at rounds
    exact div_eq canonical.toIsReduced _ _ rounds _ _

/-- The double of a decimal, as the library computes it: exactly for few digits, and by rounding a
product or a quotient otherwise. -/
theorem ofScientific_eq {mantissa : Nat} {exponent : Int} (canonical : IsCanonical mantissa exponent)
    {digits places : Nat} {fraction : Bool} (nonzero : digits ≠ 0)
    (rounds : RoundsTo mantissa exponent
      (digits * 10 ^ (if fraction then -(places : Int) else places)))
    (notHuge : fraction = false → places ≤ 2 ^ 11)
    (notTiny : fraction = true → places ≤ 2 ^ 11 + digits.log2) :
    Float.ofScientific digits fraction places =
      Float.ofModel (Float.Model.pack (.finite .positive mantissa exponent canonical.pos)) := by
  rw [Float.ofScientific]
  split
  · rename_i few
    have digitsStand := standsFor_toFloat (Nat.pos_of_ne_zero nonzero) few.1
    have powerStands := standsFor_powerOfTen (by omega : places < 23)
    cases fraction with
    | true =>
      rw [if_pos rfl, zpow_neg, zpow_natCast, ← div_eq_mul_inv] at rounds
      exact digitsStand.div powerStands canonical rounds
    | false =>
      rw [if_neg Bool.false_ne_true, zpow_natCast] at rounds
      exact digitsStand.mul powerStands canonical.toIsReduced rounds
  · cases fraction with
    | true =>
      have least := notTiny rfl
      rw [if_pos rfl] at rounds
      rw [← unpackedOfScientific canonical nonzero rounds (by omega) (by omega)]
      show Float.ofModel (Float.Model.ofScientific digits (Int.negOfNat places)) = _
      rw [Int.negOfNat_eq]
      rfl
    | false =>
      have greatest := notHuge rfl
      rw [if_neg Bool.false_ne_true] at rounds
      rw [← unpackedOfScientific canonical nonzero rounds (by omega) (by omega)]
      rfl

theorem standsFor_ofNat {count : Nat} (positive : 0 < count) (small : count ≤ 2 ^ 53) :
    StandsFor (Float.ofNat count) count := by
  obtain ⟨mantissa, exponent, canonical, value⟩ : ∃ mantissa exponent,
      IsCanonical mantissa exponent ∧ (mantissa : ℚ) * 2 ^ exponent = count := by
    rcases Nat.lt_or_eq_of_le small with less | rfl
    · simpa using exists_canonical positive less 0 (by norm_num) (by norm_num)
    · obtain ⟨mantissa, exponent, canonical, value⟩ :=
        exists_canonical one_pos (by norm_num) 53 (by norm_num) (by norm_num)
      exact ⟨mantissa, exponent, canonical, by rw [value]; norm_num⟩
  have rounds : RoundsTo mantissa exponent (count * 10 ^ (if false then -((0 : Nat) : Int) else (0 : Nat))) := by
    simpa [value] using RoundsTo.self mantissa exponent
  have packed := standsFor_pack canonical
  rw [value, ← ofScientific_eq canonical positive.ne' rounds (by simp) (by simp)] at packed
  exact packed

/-! ### Sums -/

/-- A number in smaller units. -/
theorem shiftLeft_mul (mantissa : Nat) {exponent unit : Int} (above : unit ≤ exponent) :
    ((mantissa <<< (exponent - unit).toNat : Nat) : ℚ) * 2 ^ unit = mantissa * 2 ^ exponent := by
  have split : exponent = ((exponent - unit).toNat : Int) + unit := by omega
  conv_rhs => rw [split, zpow_add₀ two_ne_zero, zpow_natCast]
  rw [Nat.shiftLeft_eq]
  push_cast
  ring

theorem StandsFor.add {x y : Float} {p q : ℚ} {mantissa : Nat} {exponent : Int}
    (first : StandsFor x p) (second : StandsFor y q)
    (reduced : IsReduced mantissa exponent) (rounds : RoundsTo mantissa exponent (p + q)) :
    x + y = Float.ofModel (Float.Model.pack (.finite .positive mantissa exponent reduced.pos)) := by
  obtain ⟨firstMantissa, firstExponent, firstCanonical, unpacked, rfl⟩ := first
  obtain ⟨secondMantissa, secondExponent, secondCanonical, unpacked', rfl⟩ := second
  let unit : Int := firstExponent ⊓ secondExponent
  let sum : Nat := firstMantissa <<< (firstExponent - unit).toNat +
    secondMantissa <<< (secondExponent - unit).toNat
  have value : (sum : ℚ) * 2 ^ unit =
      firstMantissa * 2 ^ firstExponent + secondMantissa * 2 ^ secondExponent := by
    rw [← shiftLeft_mul firstMantissa inf_le_left, ← shiftLeft_mul secondMantissa inf_le_right,
      ← add_mul, ← Nat.cast_add]
  rw [← value] at rounds
  have positive : 0 < sum := by
    refine Nat.pos_of_ne_zero fun zero => ?_
    have above := rounds.pos reduced
    rw [zero, Nat.cast_zero, zero_mul] at above
    exact lt_irrefl _ above
  show Float.ofModel (Float.Model.pack
    (UnpackedFloat.add Format.binary64 x.toModel.unpack y.toModel.unpack)) = _
  rw [unpacked, unpacked', UnpackedFloat.add]
  have added : UnpackedFloat.normalize Format.binary64 (sum : Int) unit .positive =
      .finite .positive mantissa exponent reduced.pos := by
    have order : compare (sum : Int) 0 = .gt :=
      compare_gt_iff_gt.mpr (by exact_mod_cast positive)
    rw [UnpackedFloat.normalize, order]
    exact round_eq reduced rounds .positive
  exact congrArg (fun unpacked => Float.ofModel (Float.Model.pack unpacked)) added

end Double

/-! ### Counting -/

theorem Double.ofNat_add_one {count : Nat} (small : count < 2 ^ 53) :
    Float.ofNat count + Float.ofNat 1 = Float.ofNat (count + 1) := by
  rcases Nat.eq_zero_or_pos count with rfl | positive
  · decide +kernel
  · have next := standsFor_ofNat (Nat.succ_pos count) small
    obtain ⟨mantissa, exponent, canonical, -, value⟩ := id next
    have sum : (count : ℚ) + (1 : Nat) = mantissa * 2 ^ exponent := by
      rw [value]
      push_cast
      rfl
    have rounds : RoundsTo mantissa exponent ((count : ℚ) + (1 : Nat)) := by
      rw [sum]
      exact RoundsTo.self mantissa exponent
    rw [(standsFor_ofNat positive small.le).add (standsFor_ofNat one_pos (by norm_num))
      canonical.toIsReduced rounds]
    have packed := standsFor_pack canonical
    rw [value] at packed
    exact packed.eq next

/-- Whole numbers are compared as such. -/
theorem Double.compare_ofNat {first second : Nat} (firstSmall : first ≤ 2 ^ 53)
    (secondSmall : second ≤ 2 ^ 53) :
    (Float.ofNat first).toModel.unpack.compare (Float.ofNat second).toModel.unpack =
      some (compare first second) := by
  rcases Nat.eq_zero_or_pos first with rfl | firstPos <;>
    rcases Nat.eq_zero_or_pos second with rfl | secondPos
  · rw [unpack_zero]
    rfl
  · obtain ⟨mantissa, exponent, canonical, unpacked, -⟩ := standsFor_ofNat secondPos secondSmall
    rw [unpack_zero, unpacked, compare_lt_iff_lt.mpr secondPos]
    rfl
  · obtain ⟨mantissa, exponent, canonical, unpacked, -⟩ := standsFor_ofNat firstPos firstSmall
    rw [unpack_zero, unpacked, compare_gt_iff_gt.mpr firstPos]
    rfl
  · rw [(standsFor_ofNat firstPos firstSmall).compare_eq (standsFor_ofNat secondPos secondSmall)]
    rw [← cmp_eq_compare, ← cmp_eq_compare, Nat.strictMono_cast.cmp_map_eq]

/-- Doubles count exactly up to the limit. -/
instance : Counting Float where
  ofNat_zero := rfl
  ofNat_one := rfl
  ofNat_add_one _ small := Double.ofNat_add_one small
  ofNat_beq first second firstSmall secondSmall := by
    refine (Double.beq_of_compare (Double.compare_ofNat firstSmall secondSmall)).trans ?_
    rw [decide_eq_decide, compare_eq_iff_eq]
  ofNat_le first second firstSmall secondSmall := by
    refine (Double.le_of_compare (Double.compare_ofNat firstSmall secondSmall)).trans ?_
    rw [Nat.compare_ne_gt]

end Stagecraft
