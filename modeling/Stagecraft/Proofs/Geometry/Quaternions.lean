/-
This file computes with turns in the ring of quaternions. Turns one after the other are a product
there, whose sum of squares is the product of theirs. A turned vector is the vector between the turn
and its conjugate. So a product turns as its factors in order, a quaternion and its negative are the
same turn, and a longer one stretches by the square of its length.
-/

import Mathlib
import Stagecraft.Geometry.Facing
import Stagecraft.Proofs.Scalar.Exact

open scoped Quaternion

namespace Stagecraft

open Exact

attribute [ext] Vec Quaternion

theorem Quaternion.ext_get {β : Type} {first second : Quaternion β}
    (same : ∀ part, first.get part = second.get part) : first = second :=
  Quaternion.ext (same .w) (same .x) (same .y) (same .z)

section

variable {K : Type} [CommRing K]

/-! ### Vectors -/

namespace Vec

variable (u v : Vec K)

/-- The vector as a quaternion without a scalar part. -/
def imaginary : ℍ[K] := ⟨0, u.x, u.y, u.z⟩

@[simp] theorem re_imaginary : u.imaginary.re = 0 := rfl

@[simp] theorem imI_imaginary : u.imaginary.imI = u.x := rfl

@[simp] theorem imJ_imaginary : u.imaginary.imJ = u.y := rfl

@[simp] theorem imK_imaginary : u.imaginary.imK = u.z := rfl

theorem imaginary_injective : Function.Injective (imaginary : Vec K → ℍ[K]) :=
  fun _ _ same => Vec.ext (congrArg (·.imI) same) (congrArg (·.imJ) same) (congrArg (·.imK) same)

theorem imaginary_scale (factor : K) : (u.scale factor).imaginary = factor • u.imaginary := by
  ext <;> simp [scale, mul_comm]

/-- The product of vectors as quaternions has their two products as its parts. -/
theorem imaginary_mul_imaginary :
    u.imaginary * v.imaginary = (u.cross v).imaginary - ((u.dot v : K) : ℍ[K]) := by
  ext <;> simp [dot, cross] <;> ring

theorem normSq_imaginary : Quaternion.normSq u.imaginary = u.dot u := by
  simp [Quaternion.normSq_def', dot, sq]

@[simp] theorem scale_one : u.scale 1 = u := by
  ext <;> simp [scale]

theorem scale_scale (factor factor' : K) :
    (u.scale factor).scale factor' = u.scale (factor * factor') := by
  ext <;> simp [scale, mul_assoc]

theorem dot_scale (factor : K) :
    (u.scale factor).dot (u.scale factor) = factor * factor * u.dot u := by
  simp only [dot, scale]
  ring

end Vec

/-! ### Products -/

namespace Quaternion

variable (first second turn : Quaternion K)

/-- The quaternion as an element of the ring. -/
def element : ℍ[K] := ⟨turn.w, turn.x, turn.y, turn.z⟩

@[simp] theorem re_element : turn.element.re = turn.w := rfl

@[simp] theorem imI_element : turn.element.imI = turn.x := rfl

@[simp] theorem imJ_element : turn.element.imJ = turn.y := rfl

@[simp] theorem imK_element : turn.element.imK = turn.z := rfl

theorem element_injective : Function.Injective (element : Quaternion K → ℍ[K]) :=
  fun _ _ same => Quaternion.ext (congrArg (·.re) same) (congrArg (·.imI) same)
    (congrArg (·.imJ) same) (congrArg (·.imK) same)

theorem element_product : (first.product second).element = first.element * second.element := by
  ext <;> simp [product]

theorem element_scale (factor : K) : (turn.scale factor).element = factor • turn.element := by
  ext <;> simp [scale, mul_comm]

theorem element_neg : (turn.map (- ·)).element = -turn.element := by
  ext <;> simp [map]

theorem normSq_element : Quaternion.normSq turn.element = turn.normSquared := by
  simp only [Quaternion.normSq_def', normSquared, re_element, imI_element, imJ_element, imK_element]
  ring

/-- Turns one after the other, the later one in front. -/
instance instMonoid : Monoid (Quaternion K) where
  mul := product
  one := ⟨1, 0, 0, 0⟩
  mul_assoc first second third := by
    apply element_injective
    show ((first.product second).product third).element =
      (first.product (second.product third)).element
    simp only [element_product, mul_assoc]
  one_mul turn := by
    show product ⟨1, 0, 0, 0⟩ turn = turn
    ext <;> simp [product]
  mul_one turn := by
    show product turn ⟨1, 0, 0, 0⟩ = turn
    ext <;> simp [product]

theorem product_eq : first.product second = first * second := rfl

theorem element_mul : (first * second).element = first.element * second.element :=
  element_product first second

theorem normSquared_mul :
    (first * second).normSquared = first.normSquared * second.normSquared := by
  rw [← normSq_element, element_mul, map_mul, normSq_element, normSq_element]

theorem normSquared_scale (factor : K) :
    (turn.scale factor).normSquared = factor * factor * turn.normSquared := by
  rw [← normSq_element, element_scale, Quaternion.normSq_smul, normSq_element, sq]

theorem normSquared_neg : (turn.map (- ·)).normSquared = turn.normSquared := by
  rw [← normSq_element, element_neg, Quaternion.normSq_neg, normSq_element]

end Quaternion

end

/-! ### Turned vectors -/

section

variable {K : Type} [Field K] [LinearOrder K] [FloorRing K] [Angles K]

namespace Quaternion

variable (first second turn : Quaternion K) (u v : Vec K)

/-- A vector is turned from both sides. -/
theorem imaginary_rotate :
    (turn.rotate v).imaginary = turn.element * v.imaginary * star turn.element := by
  ext
  · simp
    ring
  all_goals
    simp only [Vec.imI_imaginary, Vec.imJ_imaginary, Vec.imK_imaginary]
    refine (show (_ + _ + _ : K) = _ from ?_)
    simp [vector, Vec.dot, Vec.cross, Vec.scale]
    ring

/-- What is turned by a product is turned by its second factor first. -/
theorem rotate_mul : (first * second).rotate v = first.rotate (second.rotate v) := by
  apply Vec.imaginary_injective
  simp only [imaginary_rotate, element_mul, star_mul, mul_assoc]

theorem rotate_scale (factor : K) :
    (turn.scale factor).rotate v = (turn.rotate v).scale (factor * factor) := by
  apply Vec.imaginary_injective
  simp only [imaginary_rotate, element_scale, Vec.imaginary_scale, Quaternion.star_smul,
    smul_mul_assoc, mul_smul_comm, smul_smul]

/-- The two names of an orientation turn alike. -/
theorem rotate_neg : (turn.map (- ·)).rotate v = turn.rotate v := by
  apply Vec.imaginary_injective
  simp only [imaginary_rotate, element_neg, star_neg, neg_mul, mul_neg, neg_neg]

theorem rotate_scaled (factor : K) :
    turn.rotate (v.scale factor) = (turn.rotate v).scale factor := by
  apply Vec.imaginary_injective
  simp only [imaginary_rotate, Vec.imaginary_scale, smul_mul_assoc, mul_smul_comm]

/-- Lengths are stretched by the square of that of the turn. -/
theorem dot_rotate : (turn.rotate v).dot (turn.rotate v) =
    turn.normSquared * turn.normSquared * v.dot v := by
  rw [← Vec.normSq_imaginary, imaginary_rotate, map_mul, map_mul, Quaternion.normSq_star,
    normSq_element, Vec.normSq_imaginary]
  ring

/-- What can be moved past a quaternion is what it turns to, up to its length. -/
theorem rotate_of_mul_eq (past : u.imaginary * turn.element = turn.element * v.imaginary) :
    turn.rotate v = u.scale turn.normSquared := by
  apply Vec.imaginary_injective
  rw [imaginary_rotate, ← past, mul_assoc, Quaternion.self_mul_star, normSq_element,
    Vec.imaginary_scale, Quaternion.mul_coe_eq_smul]

end Quaternion

end

/-! ### Lengths -/

namespace Quaternion

variable {K : Type} [Field K] [LinearOrder K] [IsStrictOrderedRing K]

theorem normSquared_nonneg (turn : Quaternion K) : 0 ≤ turn.normSquared := by
  simp only [normSquared, ← sq]
  positivity

theorem normSquared_pos {turn : Quaternion K} (some : turn ≠ ⟨0, 0, 0, 0⟩) :
    0 < turn.normSquared := by
  obtain ⟨w, x, y, z⟩ := turn
  rw [Ne, Quaternion.mk.injEq, not_and_or, not_and_or, not_and_or] at some
  simp only [normSquared, ← sq]
  rcases some with apart | apart | apart | apart <;> positivity

end Quaternion

namespace Quaternion

/-- What a turn does to a vector, it does as a unit without stretching it. -/
theorem rotate_normalize (turn : Quaternion ℝ) (v : Vec ℝ) :
    turn.normalize.rotate v = (turn.rotate v).scale (1 / turn.normSquared) := by
  rw [normalize, rotate_scale, sqrt_eq]
  refine (show Vec.scale _ (1 / √turn.normSquared * (1 / √turn.normSquared)) = _ from ?_)
  rw [div_mul_div_comm, Real.mul_self_sqrt turn.normSquared_nonneg, one_mul]

theorem normSquared_normalize {turn : Quaternion ℝ} (some : 0 < turn.normSquared) :
    turn.normalize.normSquared = 1 := by
  rw [normalize, normSquared_scale, sqrt_eq]
  refine (show 1 / √turn.normSquared * (1 / √turn.normSquared) * turn.normSquared = 1 from ?_)
  rw [div_mul_div_comm, Real.mul_self_sqrt some.le, one_mul, one_div_mul_cancel some.ne']

end Quaternion

end Stagecraft
