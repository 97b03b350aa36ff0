/-
Where an orientation faces. An object looks along its own second axis. Its forward vector is found
in two ways, by normalizing first and by dividing at the end, and a look direction with an up
direction gives an orientation.
-/

import Stagecraft.Geometry.Quaternion

namespace Stagecraft

namespace Quaternion

section

variable {α : Type} [Scalar α]

/-- The direction of the turned second axis, from products of the parts divided by their sum of
squares. -/
def forwardByProducts (q : Quaternion α) : Vec α :=
  let square := q.w * q.w + q.x * q.x + q.y * q.y + q.z * q.z
  let (w, square) := if square == 0 then (1, 1) else (q.w, square)
  { x := Scalar.two * (q.x * q.y - w * q.z) / square
    y := (w * w - q.x * q.x + q.y * q.y - q.z * q.z) / square
    z := Scalar.two * (q.y * q.z + w * q.x) / square }

end

variable {α : Type} [Trigonometric α]

/-- The second axis, turned by the normalized orientation; zero counts as no turn. -/
def forward (q : Quaternion α) : Vec α :=
  if q.normSquared == 0 then Vec.unitY else q.normalize.rotate Vec.unitY

/-- Below this length the side of a frame counts as zero: the directions are parallel. -/
def parallelTolerance : α :=
  Scalar.ofDecimal 1 9

/-- The orientation that faces along a unit vector with its third axis towards another one, if
they are not parallel. -/
def facing? (direction up : Vec α) : Option (Quaternion α) :=
  let side := direction.cross up
  if side.length < parallelTolerance then none
  else
    let side := side.normalize
    some (ofFrame side direction (side.cross direction)).normalize

end Quaternion

end Stagecraft
