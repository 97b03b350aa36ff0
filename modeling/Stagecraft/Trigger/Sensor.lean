/-
What is sensed in a frame. A sensor has a level, which is a condition on bags. Levels that compare
a distance or an angle with a threshold have a band around it: the threshold is moved by epsilon
against the level of the last frame, so a value that hovers at the boundary does not make the
level flicker.
-/

import Stagecraft.Logic.Access
import Stagecraft.Scene.Basic

namespace Stagecraft

/-- A condition whose parameters have been checked. Directions are of length one. -/
inductive Sensor (α : Type) where
  | orientation (subject : String) (direction : Vec α) (angle : α)
  | proximity (subject : String) (anchor : Anchor α) (distance : α)
  | lookAt (target : LookTarget α) (angle : α)
  | movement (subject : String) (distance : α)
  | volume (subject : String) (least greatest : Vec α) (crossing : Crossing)
  /-- The object itself is selected. -/
  | selection

/-- The change of a level that is dispatched on. -/
inductive Edge where
  | rising
  | falling
deriving DecidableEq

/-! ### Bands -/

namespace Expr

variable {α : Type} [Scalar α]

/-- The value is below a threshold, which is lower by epsilon until it is, and higher after. -/
def isBelow (value : Expr α) (threshold epsilon : α) (previous : Expr α) : Expr α :=
  value.lt (.num (threshold - epsilon) + .num (Scalar.two * epsilon) * previous)

/-- The value is above a threshold, which is higher by epsilon until it is, and lower after. -/
def isAbove (value : Expr α) (threshold epsilon : α) (previous : Expr α) : Expr α :=
  value.gt (.num (threshold + epsilon) - .num (Scalar.two * epsilon) * previous)

end Expr

namespace Sensor

variable {α : Type}

def edge : Sensor α → Edge
  | .volume _ _ _ .exit => .falling
  | _ => .rising

/-! ### Geometry -/

def anchorPosition : Anchor α → Vec (Expr α)
  | .point position => position.constant
  | .object id => Vec.positionOf id

/-- The direction from the head to what it may look at. -/
def lineOfSight : LookTarget α → Vec (Expr α)
  | .point position => position.constant - Vec.positionOf headId
  | .direction direction => direction.constant
  | .object id => Vec.positionOf id - Vec.positionOf headId

/-- The position at the last evaluation. -/
def lastPosition (watch : Watch) : Vec (Expr α) :=
  .ofAxes fun axis => (Slot.watch watch (.last axis)).read

/-- The temporary that holds the distance of subject and anchor. -/
def distanceName : String := "dist"

/-- The temporary that holds how far the subject moved. -/
def movedName : String := "moved"

/-- The temporary that holds by how much a box is wider than declared. -/
def marginName : String := "margin"

/-! ### Blocks -/

section

variable [Scalar α]

/-- A position is inside a box that is wider by a margin on all sides. -/
def isInside (position : Vec (Expr α)) (least greatest : Vec α) (margin : Expr α) : Expr α :=
  let low (axis : Axis) : Expr α := (position.get axis).ge (.num (least.get axis) - margin)
  let high (axis : Axis) : Expr α := (position.get axis).le (.num (greatest.get axis) + margin)
  ((((low .x).and (high .x)).and (low .y)).and (high .y)).and (low .z) |>.and (high .z)

/-- What is computed before the level. -/
def before (epsilon : α) (watch : Watch) : Sensor α → Block α
  | .proximity subject anchor _ =>
    [.bind distanceName (Vec.positionOf subject - anchorPosition anchor).lengthExpr]
  | .movement subject _ =>
    [.bind movedName (Vec.positionOf subject - lastPosition watch).lengthExpr]
  | .volume .. =>
    let previous : Expr α := (Slot.watch watch .previous).read
    [.bind marginName (.num epsilon * (.num Scalar.two * previous - .num 1))]
  | _ => []

/-- What is stored for the next frame, besides the level. -/
def after (watch : Watch) : Sensor α → Block α
  | .movement subject _ =>
    (Axis.all.map fun axis =>
      (Slot.watch watch (.last axis)).write ((Vec.positionOf subject).get axis)) ++
      [(Slot.watch watch .primed).write (.num 1)]
  | _ => []

end

variable [Trigonometric α]

/-- The level in this frame. A movement is not sensed before a position has been stored. -/
def level (epsilon : α) (watch : Watch) (sensor : Sensor α) : Expr α :=
  let previous : Expr α := (Slot.watch watch .previous).read
  match sensor with
  | .orientation subject direction angle =>
    ((Vec.forwardOf subject).angleExpr direction.constant).isBelow angle epsilon previous
  | .proximity _ _ distance => (Expr.var distanceName).isBelow distance epsilon previous
  | .lookAt target angle =>
    ((Vec.forwardOf headId).angleExpr (lineOfSight target)).isBelow angle epsilon previous
  | .movement _ distance =>
    (Slot.watch watch .primed).read.isSet.and
      ((Expr.var movedName).isAbove distance epsilon previous)
  | .volume subject least greatest _ =>
    isInside (Vec.positionOf subject) least greatest (.var marginName)
  | .selection => Slot.clicked.read.isSet

end Sensor

end Stagecraft
