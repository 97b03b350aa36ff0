/-
This file proves laws of doubles that hold without rounding. A product with one is the other factor,
and a product with minus one is its negative: rounding leaves a mantissa that fits as it is, and
zeros, infinities and what is no number only take the sign. Of two finite doubles the first is at
most the second, or the second is less.
-/

import Stagecraft.Proofs.Scalar.Doubles

namespace Stagecraft

/-- Numbers that one and minus one multiply exactly. -/
class Signing (α : Type) [Scalar α] : Prop where
  one_mul (value : α) : 1 * value = value
  neg_one_mul (value : α) : -1 * value = -value

/-- Finite numbers that can be told to be in order. -/
class Comparing (α : Type) [Scalar α] : Prop where
  le_iff_not_lt (first second : α) : Scalar.isFinite first → Scalar.isFinite second →
    (first ≤ second ↔ ¬second < first)

namespace Double

open Float.Model Float.Model.UnpackedFloat Rounding

/-- A factor of one or minus one decides the sign of a product only. -/
theorem mul_unit {mantissa : Nat} {exponent : Int} (canonical : IsCanonical mantissa exponent)
    (unit : (mantissa : ℚ) * 2 ^ exponent = 1) (sign : Sign) (x : Float) :
    UnpackedFloat.mul Format.binary64 (.finite sign mantissa exponent canonical.pos)
        x.toModel.unpack =
      match sign with
      | .positive => x.toModel.unpack
      | .negative => x.toModel.unpack.neg := by
  cases unpacked : x.toModel.unpack with
  | finite other mantissa' exponent' positive =>
    have canonical' := isCanonical_of_unpack unpacked
    have enough := mul_enough canonical.toIsReduced canonical'.toIsReduced
    have rounds : RoundsTo mantissa' exponent'
        (mantissa * 2 ^ exponent * (mantissa' * 2 ^ exponent')) := by
      rw [unit, one_mul]
      exact .self mantissa' exponent'
    rw [mul_eq canonical'.toIsReduced enough rounds]
    cases sign <;> cases other <;> rfl
  | zero other | infinity other => cases sign <;> cases other <;> rfl
  | notANumber => cases sign <;> rfl

theorem standsFor_one : StandsFor 1 1 := by
  have stands := standsFor_ofNat one_pos (by norm_num)
  rwa [Nat.cast_one] at stands

instance : Signing Float where
  one_mul x := by
    obtain ⟨mantissa, exponent, canonical, unpacked, unit⟩ := standsFor_one
    show Float.ofModel (Float.Model.pack
      (UnpackedFloat.mul Format.binary64 (1 : Float).toModel.unpack x.toModel.unpack)) = x
    rw [unpacked, mul_unit canonical unit, model_pack_unpack]
  neg_one_mul x := by
    obtain ⟨mantissa, exponent, canonical, unpacked, unit⟩ := standsFor_one
    have negated : (-1 : Float).toModel.unpack =
        .finite .negative mantissa exponent canonical.pos := by
      rw [unpack_neg, unpacked]
      rfl
    show Float.ofModel (Float.Model.pack
      (UnpackedFloat.mul Format.binary64 (-1 : Float).toModel.unpack x.toModel.unpack)) = -x
    rw [negated, mul_unit canonical unit]
    rfl

theorem exists_compare {x y : Float} (finite : x.isFinite = true) (finite' : y.isFinite = true) :
    ∃ order, x.toModel.unpack.compare y.toModel.unpack = some order ∧
      y.toModel.unpack.compare x.toModel.unpack = some order.swap := by
  replace finite : x.toModel.unpack.isFinite = true := finite
  replace finite' : y.toModel.unpack.isFinite = true := finite'
  generalize x.toModel.unpack = first at finite ⊢
  generalize y.toModel.unpack = second at finite' ⊢
  have swapped (exponent exponent' : Int) (mantissa mantissa' : Nat) :
      (compare exponent' exponent).then (compare mantissa' mantissa) =
        ((compare exponent exponent').then (compare mantissa mantissa')).swap := by
    rw [Ordering.swap_then, ← Std.OrientedCmp.eq_swap, ← Std.OrientedCmp.eq_swap]
  cases first with
  | infinity | notANumber => cases finite
  | zero sign =>
    cases second with
    | infinity | notANumber => cases finite'
    | zero sign' => exact ⟨.eq, rfl, rfl⟩
    | finite sign' => cases sign' <;> exact ⟨_, rfl, rfl⟩
  | finite sign =>
    cases second with
    | infinity | notANumber => cases finite'
    | zero sign' => cases sign <;> exact ⟨_, rfl, rfl⟩
    | finite sign' =>
      cases sign <;> cases sign'
      · exact ⟨_, rfl, congrArg (fun order : Ordering => some order.swap) (swapped _ _ _ _)⟩
      · exact ⟨_, rfl, rfl⟩
      · exact ⟨_, rfl, rfl⟩
      · exact ⟨_, rfl, congrArg some (swapped _ _ _ _)⟩

instance : Comparing Float where
  le_iff_not_lt x y finite finite' := by
    obtain ⟨order, forward, backward⟩ := exists_compare finite finite'
    rw [show (x ≤ y ↔ order ≠ .gt) from le_of_compare forward,
      show (y < x ↔ order.swap = .lt) from lt_of_compare backward]
    cases order <;> decide

end Double

end Stagecraft
