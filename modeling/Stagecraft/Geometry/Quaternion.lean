/-
Quaternions as orientations, scalar part first. The product is formed of numbers and of
expressions alike; the constructions from an axis, an arc and a frame need numbers.
-/

import Stagecraft.Geometry.Vector

namespace Stagecraft

/-- The parts of a quaternion. -/
inductive Part where
  | w
  | x
  | y
  | z
deriving DecidableEq

namespace Part

def all : List Part := [.w, .x, .y, .z]

def name : Part → String
  | .w => "w"
  | .x => "x"
  | .y => "y"
  | .z => "z"

end Part

structure Quaternion (α : Type) where
  w : α
  x : α
  y : α
  z : α
deriving BEq, DecidableEq

namespace Quaternion

variable {α β : Type}

def get (q : Quaternion α) : Part → α
  | .w => q.w
  | .x => q.x
  | .y => q.y
  | .z => q.z

def ofParts (component : Part → α) : Quaternion α :=
  ⟨component .w, component .x, component .y, component .z⟩

def map (f : α → β) (q : Quaternion α) : Quaternion β :=
  ⟨f q.w, f q.x, f q.y, f q.z⟩

def toList (q : Quaternion α) : List α :=
  [q.w, q.x, q.y, q.z]

/-- The vector part. -/
def vector (q : Quaternion α) : Vec α :=
  ⟨q.x, q.y, q.z⟩

def ofVector (w : α) (u : Vec α) : Quaternion α :=
  ⟨w, u.x, u.y, u.z⟩

/-- The Hamilton product: the turn `b` followed by the turn `a`. -/
def product [Add α] [Sub α] [Mul α] (a b : Quaternion α) : Quaternion α where
  w := a.w * b.w - a.x * b.x - a.y * b.y - a.z * b.z
  x := a.w * b.x + a.x * b.w + a.y * b.z - a.z * b.y
  y := a.w * b.y - a.x * b.z + a.y * b.w + a.z * b.x
  z := a.w * b.z + a.x * b.y - a.y * b.x + a.z * b.w

/-- The inner product, summed from the scalar part on. -/
def dot [Add α] [Mul α] (a b : Quaternion α) : α :=
  a.w * b.w + a.x * b.x + a.y * b.y + a.z * b.z

/-- The sum of squares, the scalar part last. -/
def normSquared [Add α] [Mul α] (q : Quaternion α) : α :=
  q.x * q.x + q.y * q.y + q.z * q.z + q.w * q.w

def scale [Mul α] (q : Quaternion α) (factor : α) : Quaternion α :=
  ⟨q.w * factor, q.x * factor, q.y * factor, q.z * factor⟩

def one [Scalar α] : Quaternion α := ⟨1, 0, 0, 0⟩

variable [Trigonometric α]

def normalize (q : Quaternion α) : Quaternion α :=
  q.scale (1 / Trigonometric.sqrt q.normSquared)

/-- The rotated vector. -/
def rotate (q : Quaternion α) (v : Vec α) : Vec α :=
  let b := q.vector
  v.scale (q.w * q.w - b.dot b) + b.scale (v.dot b * Scalar.two) +
    (b.cross v).scale (q.w * Scalar.two)

/-- The turn by an angle about a unit axis. -/
def ofAxisAngle (axis : Vec α) (angle : α) : Quaternion α :=
  let middle := angle * Scalar.half
  ofVector (Trigonometric.cos middle) (axis.scale (Trigonometric.sin middle))

/-- A unit vector at a right angle to a unit vector. -/
def anyOrthonormal (u : Vec α) : Vec α :=
  let sign : α := if u.z < 0 then -1 else 1
  let a := -1 / (sign + u.z)
  let b := u.x * u.y * a
  ⟨b, sign + u.y * u.y * a, -u.y⟩

/-- How near to one the product of unit vectors must be for them to count as equal. -/
def arcTolerance : α :=
  Scalar.two * (1 / Scalar.ofNat (Nat.pow 2 52))

/-- The shortest turn that takes one unit vector to another; opposite vectors take a half turn
about any axis between them. -/
def ofArc (source target : Vec α) : Quaternion α :=
  let cosine := source.dot target
  if 1 - arcTolerance < cosine then one
  else if cosine < -(1 - arcTolerance) then
    ofAxisAngle (anyOrthonormal source) Trigonometric.pi
  else normalize (ofVector (1 + cosine) (source.cross target))

/-- Below this length of its vector part a quaternion counts as no turn. -/
def axisTolerance : α :=
  Scalar.ofDecimal 1 8

/-- The axis of a turn and its angle. -/
def toAxisAngle (q : Quaternion α) : Vec α × α :=
  let length := q.vector.length
  if axisTolerance ≤ length then
    (q.vector.map (· / length), Scalar.two * Trigonometric.atan2 length q.w)
  else (Vec.unitX, 0)

/-- The turn that takes the axes to the columns of a rotation matrix. The largest of the four
squares is found from the diagonal first, and the other parts are divided by its root. -/
def ofFrame (columnX columnY columnZ : Vec α) : Quaternion α :=
  if columnZ.z ≤ 0 then
    let difference := columnY.y - columnX.x
    let rest := 1 - columnZ.z
    if difference ≤ 0 then
      let square := rest - difference
      let factor := Scalar.half / Trigonometric.sqrt square
      { x := square * factor
        y := (columnX.y + columnY.x) * factor
        z := (columnX.z + columnZ.x) * factor
        w := (columnY.z - columnZ.y) * factor }
    else
      let square := rest + difference
      let factor := Scalar.half / Trigonometric.sqrt square
      { x := (columnX.y + columnY.x) * factor
        y := square * factor
        z := (columnY.z + columnZ.y) * factor
        w := (columnZ.x - columnX.z) * factor }
  else
    let sum := columnY.y + columnX.x
    let rest := 1 + columnZ.z
    if sum ≤ 0 then
      let square := rest - sum
      let factor := Scalar.half / Trigonometric.sqrt square
      { x := (columnX.z + columnZ.x) * factor
        y := (columnY.z + columnZ.y) * factor
        z := square * factor
        w := (columnX.y - columnY.x) * factor }
    else
      let square := rest + sum
      let factor := Scalar.half / Trigonometric.sqrt square
      { x := (columnY.z - columnZ.y) * factor
        y := (columnZ.x - columnX.z) * factor
        z := (columnX.y - columnY.x) * factor
        w := square * factor }

end Quaternion

end Stagecraft
