/-
This file compares the two checks of directions on doubles. A movement takes a vector whose square
is not zero, and a trigger one whose length has a positive number as its reciprocal. A square is
zero, a number or infinite, and the root and the reciprocal of a number are numbers again. So the
checks agree unless the square of a finite vector is infinite: then the movement takes a direction
that is zero, and the trigger rejects it.
-/

import Stagecraft.Proofs.Scalar.Roots
import Stagecraft.Proofs.Scene.Checks

namespace Stagecraft

open Float.Model Float.Model.UnpackedFloat Rounding

namespace Double

variable {x y : Float} {q : ℚ}

/-! ### Sums -/

/-- The double is a positive number that is not below the bound, or infinite. -/
inductive AtLeast (bound : ℚ) (x : Float) : Prop
  | number {q : ℚ} : StandsFor x q → bound ≤ q → AtLeast bound x
  | infinite : x.toModel.unpack = .infinity .positive → AtLeast bound x

/-- The double is a positive number, or infinite. -/
abbrev IsPositive (x : Float) : Prop := AtLeast 0 x

theorem atLeast_pack {mantissa : Nat} {exponent : Int} (reduced : IsReduced mantissa exponent)
    {bound : ℚ} (low : bound ≤ mantissa * 2 ^ exponent) :
    AtLeast bound (Float.ofModel (Float.Model.pack
      (.finite .positive mantissa exponent reduced.pos))) := by
  by_cases fits : exponent ≤ 971
  · exact .number (standsFor_pack ⟨reduced, fits⟩) low
  · rw [pack_huge reduced.pos (not_le.mp fits)]
    exact .infinite rfl

theorem StandsFor.isPositive (stands : StandsFor x q) : IsPositive x :=
  .number stands stands.pos.le

theorem isPositive_pack {mantissa : Nat} {exponent : Int} (reduced : IsReduced mantissa exponent) :
    IsPositive (Float.ofModel (Float.Model.pack
      (.finite .positive mantissa exponent reduced.pos))) :=
  atLeast_pack reduced (by positivity)

/-- A sum is what is packed from the unpacked sum. -/
theorem unpack_add {sum : UnpackedFloat}
    (added : UnpackedFloat.add Format.binary64 x.toModel.unpack y.toModel.unpack = sum) :
    (x + y).toModel.unpack = (Float.Model.pack sum).unpack := by
  rw [← added]
  rfl

/-- A sum of positive doubles is not below either of them. -/
theorem AtLeast.add {bound bound' : ℚ} (first : AtLeast bound x) (second : AtLeast bound' y) :
    AtLeast (bound ⊔ bound') (x + y) := by
  have infinite (added : UnpackedFloat.add Format.binary64 x.toModel.unpack y.toModel.unpack =
      .infinity .positive) : (x + y).toModel.unpack = .infinity .positive := unpack_add added
  cases first with
  | @number q stands low =>
    cases second with
    | @number q' stands' low' =>
      have large : (2 : ℚ) ^ (-1075 : Int) < q + q' :=
        (zpow_lt_zpow_right₀ one_lt_two (by norm_num)).trans_le
          (le_add_of_le_of_nonneg stands.between.1 stands'.pos.le)
      obtain ⟨mantissa, exponent, reduced, rounds⟩ := exists_roundsTo large
      have kept {z : Float} {r : ℚ} (part : StandsFor z r) (less : r ≤ q + q') :
          r ≤ mantissa * 2 ^ exponent := by
        obtain ⟨mantissa', exponent', canonical, -, rfl⟩ := part
        exact (RoundsTo.self _ _).le canonical.toIsReduced reduced rounds less
      rw [stands.add stands' reduced rounds]
      refine atLeast_pack reduced (sup_le (low.trans (kept stands ?_)) (low'.trans (kept stands' ?_)))
      · exact le_add_of_nonneg_right stands'.pos.le
      · exact le_add_of_nonneg_left stands.pos.le
    | infinite unpacked' =>
      obtain ⟨_, _, _, unpacked, -⟩ := stands
      refine .infinite (infinite ?_)
      rw [unpacked, unpacked']
      rfl
  | infinite unpacked =>
    refine .infinite (infinite ?_)
    cases second with
    | number stands' =>
      obtain ⟨_, _, _, unpacked', -⟩ := stands'
      rw [unpacked, unpacked']
      rfl
    | infinite unpacked' =>
      rw [unpacked, unpacked']
      rfl

theorem IsPositive.add (first : IsPositive x) (second : IsPositive y) : IsPositive (x + y) := by
  simpa using AtLeast.add first second

/-- Nothing is added by zero. -/
theorem IsPositive.add_zero (positive : IsPositive x) :
    Float.ofNat 0 + x = x ∧ x + Float.ofNat 0 = x := by
  have same (y z : Float) (added : UnpackedFloat.add Format.binary64 y.toModel.unpack
      z.toModel.unpack = x.toModel.unpack) : y + z = x :=
    eq_of_unpack ((unpack_add added).trans (by rw [model_pack_unpack]))
  constructor <;> refine same _ _ ?_ <;> rw [unpack_zero]
  all_goals
    cases positive with
    | number stands =>
      obtain ⟨_, _, _, unpacked, -⟩ := stands
      rw [unpacked]
      rfl
    | infinite unpacked =>
      rw [unpacked]
      rfl

/-- A sum of zeros and positive numbers is zero only where all of them are. -/
inductive IsSum (parts : List Float) (x : Float) : Prop
  | nothing : x = Float.ofNat 0 → (∀ part ∈ parts, part = Float.ofNat 0) → IsSum parts x
  | some : IsPositive x → (∃ part ∈ parts, IsPositive part) → IsSum parts x

theorem IsSum.add {parts parts' : List Float} (first : IsSum parts x) (second : IsSum parts' y) :
    IsSum (parts ++ parts') (x + y) := by
  cases first with
  | nothing isZero zeros =>
    subst isZero
    cases second with
    | nothing isZero' zeros' =>
      subst isZero'
      refine .nothing (by decide +kernel) fun part member => ?_
      exact (List.mem_append.mp member).elim (zeros part) (zeros' part)
    | some positive' found' =>
      obtain ⟨part, member, isPositive⟩ := found'
      rw [positive'.add_zero.1]
      exact .some positive' ⟨part, List.mem_append_right _ member, isPositive⟩
  | some positive found =>
    obtain ⟨part, member, isPositive⟩ := found
    refine .some ?_ ⟨part, List.mem_append_left _ member, isPositive⟩
    cases second with
    | nothing isZero' zeros' =>
      rw [isZero', positive.add_zero.2]
      exact positive
    | some positive' found' => exact positive.add positive'

/-! ### Squares -/

theorem IsPositive.ne_zero (positive : IsPositive x) : x ≠ Float.ofNat 0 := by
  rintro rfl
  cases positive with
  | number stands =>
    obtain ⟨_, _, _, unpacked, -⟩ := stands
    cases unpack_zero.symm.trans unpacked
  | infinite unpacked => cases unpack_zero.symm.trans unpacked

/-- The double is a number whose square is not rounded to zero. -/
inductive IsSized (x : Float) : Prop
  | intro {sign : Sign} {mantissa : Nat} {exponent : Int} {positive : 0 < mantissa} :
    x.toModel.unpack = .finite sign mantissa exponent positive →
    (2 : ℚ) ^ (-1075 : Int) < mantissa * 2 ^ exponent * (mantissa * 2 ^ exponent) → IsSized x

theorem square_eq_zero_or (finite : Scalar.isFinite x) :
    x * x = Float.ofNat 0 ∨ IsPositive (x * x) ∧ IsSized x := by
  change x.toModel.unpack.isFinite = true at finite
  have square (sign : Sign) : sign * sign = .positive := by cases sign <;> rfl
  cases unpacked : x.toModel.unpack with
  | infinity | notANumber =>
    rw [unpacked] at finite
    cases finite
  | zero sign =>
    left
    show Float.ofModel (Float.Model.pack
      (UnpackedFloat.mul Format.binary64 x.toModel.unpack x.toModel.unpack)) = _
    rw [unpacked, ofNat_zero_eq]
    cases sign <;> rfl
  | finite sign mantissa exponent positive =>
    rcases mul_rounded unpacked unpacked with ⟨-, zero⟩ | ⟨large, _, _, reduced, -, number⟩
    · rw [square] at zero
      exact .inl (zero.trans ofNat_zero_eq.symm)
    · rw [square] at number
      exact .inr ⟨number ▸ isPositive_pack reduced, unpacked, large⟩

theorem isSum_square (finite : Scalar.isFinite x) : IsSum [x * x] (x * x) := by
  rcases square_eq_zero_or finite with zero | ⟨positive, -⟩
  · exact .nothing zero fun part member => (List.mem_singleton.mp member).trans zero
  · exact .some positive ⟨_, List.mem_singleton_self _, positive⟩

/-! ### Products -/

/-- A positive double is finite, and above zero. -/
theorem StandsFor.above_zero (stands : StandsFor x q) :
    Scalar.isFinite x ∧ 0 < x ∧ (x == Float.ofNat 0) = false := by
  obtain ⟨_, _, _, unpacked, -⟩ := stands
  have above : x.toModel.unpack.compare (Float.ofNat 0).toModel.unpack = some .gt := by
    rw [unpacked, unpack_zero]
    rfl
  have below : (Float.ofNat 0).toModel.unpack.compare x.toModel.unpack = some .lt := by
    rw [unpacked, unpack_zero]
    rfl
  refine ⟨?_, (lt_of_compare below).mpr rfl, beq_of_compare above⟩
  show x.toModel.unpack.isFinite = true
  rw [unpacked]
  rfl

/-- A finite double times zero is zero. -/
theorem mul_zero_beq (finite : Scalar.isFinite x) : (x * Float.ofNat 0 == Float.ofNat 0) = true := by
  change x.toModel.unpack.isFinite = true at finite
  have product (sign : Sign) (multiplied : UnpackedFloat.mul Format.binary64 x.toModel.unpack
      (Float.ofNat 0).toModel.unpack = .zero sign) : (x * Float.ofNat 0 == Float.ofNat 0) = true := by
    have same : x * Float.ofNat 0 = Float.ofModel (Float.Model.pack (.zero sign)) := by
      rw [← multiplied]
      rfl
    rw [same]
    cases sign <;> decide +kernel
  rw [unpack_zero] at product
  cases unpacked : x.toModel.unpack with
  | infinity | notANumber =>
    rw [unpacked] at finite
    cases finite
  | zero sign | finite sign =>
    refine product (sign * .positive) ?_
    rw [unpacked]
    rfl

/-- What is not rounded to zero does not equal it. -/
theorem pack_ne_zero {mantissa : Nat} {exponent : Int} (reduced : IsReduced mantissa exponent)
    (sign : Sign) :
    (Float.ofModel (Float.Model.pack (.finite sign mantissa exponent reduced.pos)) ==
      Float.ofNat 0) = false := by
  by_cases fits : exponent ≤ 971
  · have unpacked : (Float.ofModel (Float.Model.pack
        (.finite sign mantissa exponent reduced.pos))).toModel.unpack =
        .finite sign mantissa exponent reduced.pos := unpack_pack ⟨reduced, fits⟩ sign
    cases sign with
    | positive =>
      have above := congrArg₂ UnpackedFloat.compare unpacked unpack_zero
      exact beq_of_compare (above.trans (show _ = some Ordering.gt from rfl))
    | negative =>
      have below := congrArg₂ UnpackedFloat.compare unpacked unpack_zero
      exact beq_of_compare (below.trans (show _ = some Ordering.lt from rfl))
  · rw [pack_huge reduced.pos (not_le.mp fits)]
    cases sign <;> decide +kernel

/-- Where the other factor is not too small, the product with a number of some size is not zero,
whatever their signs. -/
theorem IsSized.mul_ne_zero (sized : IsSized x) (stands : StandsFor y q)
    (notTiny : (2 : ℚ) ^ (-512 : Int) ≤ q) : (x * y == Float.ofNat 0) = false := by
  obtain ⟨unpacked, large⟩ := sized
  obtain ⟨mantissa', exponent', canonical', unpacked', rfl⟩ := stands
  rename_i sign mantissa exponent positive
  have root : (2 : ℚ) ^ (-538 : Int) < mantissa * 2 ^ exponent := by
    by_contra small
    have square := mul_self_le_mul_self (by positivity) (not_lt.mp small)
    rw [← zpow_add₀ two_ne_zero] at square
    have order := (zpow_lt_zpow_iff_right₀ one_lt_two).mp (large.trans_le square)
    norm_num at order
  have product : (2 : ℚ) ^ (-1075 : Int) <
      mantissa * 2 ^ exponent * (mantissa' * 2 ^ exponent') := by
    calc (2 : ℚ) ^ (-1075 : Int) < 2 ^ (-538 + -512 : Int) :=
          zpow_lt_zpow_right₀ one_lt_two (by norm_num)
      _ = 2 ^ (-538 : Int) * 2 ^ (-512 : Int) := zpow_add₀ two_ne_zero _ _
      _ ≤ mantissa * 2 ^ exponent * (mantissa' * 2 ^ exponent') :=
          mul_le_mul root.le notTiny (by positivity) (by positivity)
  obtain ⟨-, _, _, reduced, -, number⟩ :=
    (mul_rounded unpacked unpacked').resolve_left fun small => product.not_ge small.1
  rw [number]
  exact pack_ne_zero reduced _

end Double

/-! ### Vectors -/

namespace Vec

variable {v : Vec Float}

open Double

/-- The square of a finite vector is zero, a number or infinite, and not zero only where one of the
components has some size. -/
theorem dot_eq_zero_or (finite : v.IsFinite) : v.dot v = Float.ofNat 0 ∨
    IsPositive (v.dot v) ∧ ∃ axis, IsSized (v.get axis) := by
  have sum := ((isSum_square (finite .x)).add (isSum_square (finite .y))).add
    (isSum_square (finite .z))
  cases sum with
  | nothing isZero => exact .inl isZero
  | some positive found =>
    obtain ⟨part, member, isPositive⟩ := found
    have sized (axis : Axis) (same : part = v.get axis * v.get axis) : IsSized (v.get axis) :=
      ((square_eq_zero_or (finite axis)).resolve_left (same ▸ isPositive).ne_zero).2
    simp only [List.cons_append, List.nil_append, List.mem_cons, List.not_mem_nil, or_false] at member
    refine .inr ⟨positive, ?_⟩
    rcases member with same | same | same
    · exact ⟨.x, sized .x same⟩
    · exact ⟨.y, sized .y same⟩
    · exact ⟨.z, sized .z same⟩

/-- The components are finite, but the sum of their squares is not. -/
structure Overflows (v : Vec Float) : Prop where
  finite : v.IsFinite
  square : ¬Scalar.isFinite (v.dot v)

/-- A finite vector is too short for a direction, or has one, or it is so long that its square is
infinite. -/
inductive Measured (v : Vec Float) : Prop
  | short : (v.dot v == 0) = true → ¬v.Overflows → ¬v.IsNormalizable → Measured v
  | sized : (v.dot v == 0) = false → ¬v.Overflows → v.IsNormalizable →
    (∃ axis, (v.normalize.get axis == 0) = false) → Measured v
  | long : (v.dot v == 0) = false → v.Overflows → ¬v.IsNormalizable →
    (∀ axis, v.normalize.get axis == 0) → Measured v

theorem get_normalize (axis : Axis) : v.normalize.get axis = v.get axis * (1 / v.length) := by
  cases axis <;> rfl

/-- The square of a vector that has a direction is a positive number. -/
theorem IsNormalizable.exists_standsFor (normalizable : v.IsNormalizable) :
    ∃ q, StandsFor (v.dot v) q := by
  obtain ⟨finite, reciprocal, above⟩ := normalizable
  rcases dot_eq_zero_or finite with zero | ⟨positive, -⟩
  · rw [length, zero] at reciprocal
    exact absurd reciprocal (by decide +kernel)
  cases positive with
  | number stands => exact ⟨_, stands⟩
  | infinite unpacked =>
    have huge : v.dot v = Float.ofModel (Float.Model.pack (.infinity .positive)) :=
      eq_of_unpack unpacked
    rw [length, huge] at above
    exact absurd above (by decide +kernel)

theorem measured (finite : v.IsFinite) : v.Measured := by
  rcases dot_eq_zero_or finite with zero | ⟨positive, axis, sized⟩
  · refine .short ?_ (fun overflows => overflows.square ?_) fun isNormalizable => ?_
    · rw [zero]
      decide +kernel
    · rw [zero]
      decide +kernel
    · obtain ⟨_, stands⟩ := isNormalizable.exists_standsFor
      exact stands.isPositive.ne_zero zero
  cases positive with
  | number stands =>
    obtain ⟨r, reciprocal, notTiny, -⟩ := stands.exists_reciprocal le_rfl stands.between.1
    have length : StandsFor (1 / v.length) r := reciprocal
    obtain ⟨isFinite, above, -⟩ := length.above_zero
    refine .sized stands.above_zero.2.2 (fun overflows => overflows.square stands.above_zero.1)
      ⟨finite, isFinite, above⟩ ⟨axis, ?_⟩
    rw [get_normalize]
    exact sized.mul_ne_zero length notTiny
  | infinite unpacked =>
    have huge : v.dot v = Float.ofModel (Float.Model.pack (.infinity .positive)) :=
      eq_of_unpack unpacked
    have reciprocal : 1 / v.length = Float.ofNat 0 := by
      rw [length, huge]
      decide +kernel
    refine .long ?_ ⟨finite, ?_⟩ (fun isNormalizable => ?_) fun axis => ?_
    · rw [huge]
      decide +kernel
    · rw [huge]
      decide +kernel
    · obtain ⟨_, _, _, _, unpacked', -⟩ := isNormalizable.exists_standsFor
      cases unpacked.symm.trans unpacked'
    · rw [get_normalize, reciprocal]
      exact mul_zero_beq (finite axis)

end Vec

/-! ### Checks -/

namespace Check

variable {v : Vec Float} (context : Context) (parameter : Parameter)

theorem finiteVec_of_isFinite (finite : v.IsFinite) : finiteVec context parameter v = .ok v :=
  (checks_finiteVec v v).mpr ⟨finite, rfl⟩

/-- A vector that is not finite is rejected before its direction is looked for. -/
theorem unit_of_not_isFinite (infinite : ¬v.IsFinite) :
    unit context parameter v = direction context parameter v := by
  have rejected : finiteVec context parameter v ≠ .ok v := fun accepted =>
    infinite ((checks_finiteVec v v).mp accepted).1
  rw [unit, direction, finiteVec]
  rw [finiteVec] at rejected
  cases seen : v.infinite? with
  | none => exact absurd (by rw [seen]) rejected
  | some component => rfl

theorem unit_of_isFinite (finite : v.IsFinite) : unit context parameter v =
    if v.dot v == 0 then .error (.zeroVector context parameter) else .ok v.normalize := by
  rw [unit, finiteVec_of_isFinite context parameter finite]
  rfl

theorem direction_of_not_isNormalizable (finite : v.IsFinite) (short : ¬v.IsNormalizable) :
    direction context parameter v = .error (.zeroVector context parameter) := by
  have none : v.normalize? = none := by
    rw [Vec.normalize?]
    exact if_neg fun reciprocal => short ⟨finite, reciprocal.1, reciprocal.2⟩
  rw [direction, finiteVec_of_isFinite context parameter finite]
  simp [bind, Except.bind, none]

/-- The check of a movement and that of a trigger find the same direction, or report the same fault,
unless the square of a finite vector is infinite. Then the movement goes on with a direction that is
zero, and the trigger reports a zero vector. No direction that a trigger finds is zero. -/
theorem unit_eq_direction_or_overflows (v : Vec Float) :
    (¬v.Overflows → unit context parameter v = direction context parameter v) ∧
      (v.Overflows → (∃ zero, unit context parameter v = .ok zero ∧
        ∀ axis, zero.get axis == 0) ∧
          direction context parameter v = .error (.zeroVector context parameter)) ∧
      ∀ found, direction context parameter v = .ok found → ∃ axis, ¬found.get axis == 0 := by
  by_cases finite : v.IsFinite
  · rw [unit_of_isFinite context parameter finite]
    cases Vec.measured finite with
    | short none fits short =>
      rw [none, direction_of_not_isNormalizable context parameter finite short]
      exact ⟨fun _ => rfl, fun overflows => absurd overflows fits, fun found accepted => by
        cases accepted⟩
    | sized some fits isNormalizable sized =>
      have accepted : direction context parameter v = .ok v.normalize :=
        (checks_direction v v.normalize).mpr ⟨isNormalizable, rfl⟩
      obtain ⟨axis, sized⟩ := sized
      rw [some, accepted]
      refine ⟨fun _ => rfl, fun overflows => absurd overflows fits, fun found accepted => ?_⟩
      rw [← Except.ok.inj accepted]
      exact ⟨axis, ne_true_of_eq_false sized⟩
    | long some overflows short zeros =>
      rw [some, direction_of_not_isNormalizable context parameter finite short]
      exact ⟨fun fits => absurd overflows fits, fun _ => ⟨⟨_, rfl, zeros⟩, rfl⟩,
        fun found accepted => by cases accepted⟩
  · refine ⟨fun _ => unit_of_not_isFinite context parameter finite,
      fun overflows => absurd overflows.finite finite, fun found accepted => ?_⟩
    exact absurd ((checks_direction v found).mp accepted).1.finite finite

/-- An axis of a turn whose square is too large for a double. -/
def farAxis : Vec Float := ⟨1e200, 0, 0⟩

/-- As the axis of a movement it is accepted and becomes zero, and as a direction for a trigger it is
rejected. -/
theorem unit_farAxis : farAxis.Overflows ∧
    unit (.named "ctx") .axis farAxis = .ok ⟨0, 0, 0⟩ ∧
      direction (.named "ctx") .axis farAxis = .error (.zeroVector (.named "ctx") .axis) := by
  have finite : farAxis.IsFinite := fun axis => by cases axis <;> decide +kernel
  have some : ¬farAxis.dot farAxis == 0 := by decide +kernel
  have none : ¬0 < 1 / farAxis.length := by decide +kernel
  refine ⟨⟨finite, by decide +kernel⟩, ?_, ?_⟩
  · exact (checks_unit farAxis _).mpr ⟨⟨finite, some⟩, by decide +kernel⟩
  · exact direction_of_not_isNormalizable _ _ finite fun short => none short.positive

/-- Neither check promises a unit: a square may be rounded to the least double. -/
example : (Vec.normalize ⟨1.6e-162, 0, 0⟩ : Vec Float).x < 0.72 := by
  decide +kernel

end Check

end Stagecraft
