/-
Reading and writing slots in logic, one at a time or as vectors and quaternions.
-/

import Stagecraft.Logic.Basic
import Stagecraft.Logic.Slot

namespace Stagecraft

namespace Slot

variable {α : Type}

/-- The number in a slot of the object that the logic runs on. -/
def read (slot : Slot) : Expr α :=
  .prop .this slot.key

/-- The number in a slot of a named object. -/
def readOf (slot : Slot) (object : String) : Expr α :=
  .prop (.object object) slot.key

def write (slot : Slot) (value : Expr α) : Stmt α :=
  .set slot.key value

end Slot

namespace Vec

variable {α : Type}

def constant (u : Vec α) : Vec (Expr α) :=
  u.map .num

def position : Vec (Expr α) :=
  ofAxes fun axis => (Slot.position axis).read

def positionOf (object : String) : Vec (Expr α) :=
  ofAxes fun axis => (Slot.position axis).readOf object

def forwardOf (object : String) : Vec (Expr α) :=
  ofAxes fun axis => (Slot.forward axis).readOf object

/-- Three temporaries with a common beginning of their names. -/
def temporaries (stem : String) : Vec (Expr α) :=
  ofAxes fun axis => .var (stem ++ axis.name)

def lengthExpr (u : Vec (Expr α)) : Expr α :=
  (u.dot u).sqrt

/-- Products of lengths below this are not divided by, so a zero vector is at a right angle to
every other. -/
def leastNorm [Scalar α] : α :=
  Scalar.ofDecimal 1 12

/-- The angle between two vectors in degrees. The cosine is kept between its bounds. -/
def angleExpr [Trigonometric α] (u v : Vec (Expr α)) : Expr α :=
  let norm := .call .max [.num leastNorm, u.lengthExpr * v.lengthExpr]
  let cosine := u.dot v / norm
  let clamped := .call .max [.num (-1), .call .min [.num 1, cosine]]
  .call .acos [clamped] * .num (Scalar.ofNat 180 / Trigonometric.pi)

end Vec

namespace Quaternion

variable {α : Type}

def orientation : Quaternion (Expr α) :=
  ofParts fun part => (Slot.orientation part).read

/-- Write the orientation of the object that the logic runs on. -/
def writeOrientation (value : Quaternion (Expr α)) : Block α :=
  Part.all.map fun part => (Slot.orientation part).write (value.get part)

end Quaternion

end Stagecraft
