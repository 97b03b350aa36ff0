/-
This file shows that the quaternion made of a frame turns the axes to it. A quaternion can be
blended with two frames, so that each vector of the first frame moves past the blend and comes out
as that of the second one. So the blend turns the second frame to the first, up to its length.
Blended with a frame and the axes, the four units are the four candidates that the construction
chooses from, and it chooses one that is not zero.
-/

import Stagecraft.Proofs.Geometry.Quaternions

open scoped Quaternion

namespace Stagecraft

open Exact

/-- The third axis. -/
def Vec.unitZ {α : Type} [Scalar α] : Vec α := ⟨0, 0, 1⟩

/-! ### Frames -/

section

variable {K : Type} [CommRing K]

/-- Two unit vectors at a right angle, and the one to which the turn from the first to the second is
right-handed. -/
structure Vec.IsFrame (u v w : Vec K) : Prop where
  first : u.dot u = 1
  second : v.dot v = 1
  apart : u.dot v = 0
  third : u.cross v = w

namespace Vec.IsFrame

variable {u v w : Vec K} (frame : IsFrame u v w)

include frame

/-- Any of the three vectors can come first. -/
theorem cycle : IsFrame v w u := by
  obtain ⟨first, second, apart, rfl⟩ := frame
  simp only [dot] at first second apart
  refine ⟨second, ?_, ?_, ?_⟩
  · simp only [dot, cross]
    linear_combination first + (u.x * u.x + u.y * u.y + u.z * u.z) * second -
      (u.x * v.x + u.y * v.y + u.z * v.z) * apart
  · simp only [dot, cross]
    ring
  · ext <;> simp only [cross]
    · linear_combination u.x * second - v.x * apart
    · linear_combination u.y * second - v.y * apart
    · linear_combination u.z * second - v.z * apart

theorem square : u.imaginary * u.imaginary = -1 := by
  have parallel : (u.cross u).imaginary = 0 := by
    ext <;> simp [cross, mul_comm]
  rw [imaginary_mul_imaginary, frame.first, parallel, zero_sub, Quaternion.coe_one]

theorem next : u.imaginary * v.imaginary = w.imaginary := by
  rw [imaginary_mul_imaginary, frame.apart, frame.third, Quaternion.coe_zero, sub_zero]

theorem last : u.imaginary * w.imaginary = -v.imaginary := by
  rw [← frame.next, ← mul_assoc, frame.square, neg_one_mul]

end Vec.IsFrame

/-! ### Blends -/

namespace Quaternion

/-- A quaternion less what it is between the vectors of two frames, pair by pair. -/
def blend (u v w u' v' w' : Vec K) (middle : ℍ[K]) : ℍ[K] :=
  middle - u.imaginary * middle * u'.imaginary - v.imaginary * middle * v'.imaginary -
    w.imaginary * middle * w'.imaginary

variable {u v w u' v' w' : Vec K}

theorem blend_cycle (middle : ℍ[K]) :
    blend v w u v' w' u' middle = blend u v w u' v' w' middle := by
  rw [blend, blend]
  abel

/-- The first vector moves past a blend. -/
theorem mul_blend (frame : Vec.IsFrame u v w) (frame' : Vec.IsFrame u' v' w') (middle : ℍ[K]) :
    u.imaginary * blend u v w u' v' w' middle = blend u v w u' v' w' middle * u'.imaginary := by
  have square := frame.square
  have next := frame.next
  have last := frame.last
  have square' := frame'.square
  have next' := frame'.cycle.cycle.next
  have last' := frame'.cycle.last
  rw [blend]
  generalize u.imaginary = i, v.imaginary = j, w.imaginary = k, u'.imaginary = i',
    v'.imaginary = j', w'.imaginary = k' at *
  calc i * (middle - i * middle * i' - j * middle * j' - k * middle * k')
      = i * middle - i * i * middle * i' - i * j * middle * j' - i * k * middle * k' := by
        noncomm_ring
    _ = i * middle + middle * i' - k * middle * j' + j * middle * k' := by
        rw [square, next, last]
        noncomm_ring
    _ = middle * i' - i * middle * (i' * i') - j * middle * (j' * i') - k * middle * (k' * i') := by
        rw [square', next', last']
        noncomm_ring
    _ = (middle - i * middle * i' - j * middle * j' - k * middle * k') * i' := by
        noncomm_ring

end Quaternion

end

/-! ### Turned axes -/

namespace Quaternion

section

variable {K : Type} [Field K] [LinearOrder K] [FloorRing K] [Angles K]

/-- The turn takes these vectors to the others, up to its length. -/
def Carries (turn : Quaternion K) (u v w u' v' w' : Vec K) : Prop :=
  turn.rotate u = u'.scale turn.normSquared ∧ turn.rotate v = v'.scale turn.normSquared ∧
    turn.rotate w = w'.scale turn.normSquared

theorem Carries.scale {turn : Quaternion K} {u v w u' v' w' : Vec K}
    (carries : turn.Carries u v w u' v' w') (factor : K) :
    (turn.scale factor).Carries u v w u' v' w' := by
  obtain ⟨first, second, third⟩ := carries
  rw [Carries, normSquared_scale, mul_comm (factor * factor)]
  simp only [rotate_scale, first, second, third, Vec.scale_scale, true_and]

theorem carries_of_blend {u v w u' v' w' : Vec K} (frame : Vec.IsFrame u v w)
    (frame' : Vec.IsFrame u' v' w') {turn : Quaternion K} {middle : ℍ[K]}
    (blended : turn.element = blend u v w u' v' w' middle) :
    turn.Carries u' v' w' u v w := by
  refine ⟨turn.rotate_of_mul_eq _ _ ?_, turn.rotate_of_mul_eq _ _ ?_,
    turn.rotate_of_mul_eq _ _ ?_⟩
  · rw [blended, mul_blend frame frame']
  · rw [blended, ← blend_cycle, mul_blend frame.cycle frame'.cycle]
  · rw [blended, ← blend_cycle, ← blend_cycle, mul_blend frame.cycle.cycle frame'.cycle.cycle]

end

/-! ### Candidates -/

section

variable {K : Type} [CommRing K]

/-- Up to its length, the quaternion that turns the axes to a frame, from one of its parts and the
columns of the frame. -/
def candidate (columnX columnY columnZ : Vec K) : Part → Quaternion K
  | .w => ⟨1 + columnX.x + columnY.y + columnZ.z, columnY.z - columnZ.y, columnZ.x - columnX.z,
      columnX.y - columnY.x⟩
  | .x => ⟨columnY.z - columnZ.y, 1 + columnX.x - columnY.y - columnZ.z, columnX.y + columnY.x,
      columnX.z + columnZ.x⟩
  | .y => ⟨columnZ.x - columnX.z, columnX.y + columnY.x, 1 - columnX.x + columnY.y - columnZ.z,
      columnY.z + columnZ.y⟩
  | .z => ⟨columnX.y - columnY.x, columnX.z + columnZ.x, columnY.z + columnZ.y,
      1 - columnX.x - columnY.y + columnZ.z⟩

/-- The quaternion with a one for a part and zeros for the others. -/
def unit (part : Part) : Quaternion K :=
  .ofParts fun other => if other = part then 1 else 0

end

section

variable {K : Type} [Field K] [LinearOrder K] [FloorRing K]

theorem element_candidate (columnX columnY columnZ : Vec K) (part : Part) :
    (candidate columnX columnY columnZ part).element =
      blend columnX columnY columnZ Vec.unitX Vec.unitY Vec.unitZ (unit part).element := by
  cases part <;> ext <;>
    simp [candidate, blend, unit, ofParts, Vec.unitX, Vec.unitY, Vec.unitZ] <;> ring

theorem isFrame_axes : Vec.IsFrame (Vec.unitX : Vec K) Vec.unitY Vec.unitZ := by
  constructor <;> simp [Vec.unitX, Vec.unitY, Vec.unitZ, Vec.dot, Vec.cross]

/-- One of the four parts is a half at least, and the construction starts from such a part. -/
theorem exists_ofFrame_eq [IsStrictOrderedRing K] [Angles K] (columnX columnY columnZ : Vec K) :
    ∃ part, 1 ≤ (candidate columnX columnY columnZ part).get part ∧
      ofFrame columnX columnY columnZ = (candidate columnX columnY columnZ part).scale
        (Scalar.half / Trigonometric.sqrt ((candidate columnX columnY columnZ part).get part)) := by
  rw [ofFrame]
  split
  · rename_i below
    dsimp only
    split
    · rename_i order
      refine ⟨.x, ?_, ?_⟩
      · simp only [candidate, get]
        linarith
      · rw [show 1 - columnZ.z - (columnY.y - columnX.x) =
          1 + columnX.x - columnY.y - columnZ.z by ring]
        rfl
    · rename_i order
      refine ⟨.y, ?_, ?_⟩
      · simp only [candidate, get]
        linarith
      · rw [show 1 - columnZ.z + (columnY.y - columnX.x) =
          1 - columnX.x + columnY.y - columnZ.z by ring]
        rfl
  · rename_i above
    dsimp only
    split
    · rename_i order
      refine ⟨.z, ?_, ?_⟩
      · simp only [candidate, get]
        linarith
      · rw [show 1 + columnZ.z - (columnY.y + columnX.x) =
          1 - columnX.x - columnY.y + columnZ.z by ring]
        rfl
    · rename_i order
      refine ⟨.w, ?_, ?_⟩
      · simp only [candidate, get]
        linarith
      · rw [show 1 + columnZ.z + (columnY.y + columnX.x) =
          1 + columnX.x + columnY.y + columnZ.z by ring]
        rfl

theorem candidate_ne_zero [IsStrictOrderedRing K] {columnX columnY columnZ : Vec K} {part : Part}
    (large : 1 ≤ (candidate columnX columnY columnZ part).get part) :
    candidate columnX columnY columnZ part ≠ ⟨0, 0, 0, 0⟩ := by
  intro none
  rw [none] at large
  cases part <;> exact zero_lt_one.not_ge large

end

/-- The quaternion made of a frame turns the axes to it. -/
theorem carries_ofFrame {columnX columnY columnZ : Vec ℝ}
    (frame : Vec.IsFrame columnX columnY columnZ) :
    let turn := (ofFrame columnX columnY columnZ).normalize
    turn.normSquared = 1 ∧
      turn.Carries Vec.unitX Vec.unitY Vec.unitZ columnX columnY columnZ := by
  obtain ⟨part, large, made⟩ := exists_ofFrame_eq columnX columnY columnZ
  have some := normSquared_pos (candidate_ne_zero large)
  have factor : 0 < Scalar.half /
      Trigonometric.sqrt ((candidate columnX columnY columnZ part).get part) := by
    rw [half_eq, sqrt_eq]
    have root := Real.sqrt_pos.mpr (zero_lt_one.trans_le large)
    positivity
  have carries := carries_of_blend frame isFrame_axes
    (element_candidate columnX columnY columnZ part)
  rw [made]
  refine ⟨normSquared_normalize ?_, (carries.scale _).scale _⟩
  rw [normSquared_scale]
  positivity

end Quaternion

end Stagecraft
