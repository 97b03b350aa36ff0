/-
This file evaluates vectors of expressions. What is formed of expressions and what is formed of
numbers by the same formula agree: positions and directions that logic reads are those of the world,
and their differences, lengths and angles are those of the numbers.
-/

import Stagecraft.Proofs.Logic.Assignments

namespace Stagecraft

variable {α : Type}

/-! ### Places and directions -/

namespace World

variable [Scalar α] (world : World α)

/-- Where an object is. -/
def positionOf (object : String) : Vec α :=
  .ofAxes fun axis => world.read object (Slot.position axis).key

/-- Where an object looks. -/
def forwardOf (object : String) : Vec α :=
  .ofAxes fun axis => world.read object (Slot.forward axis).key

/-- How an object is turned. -/
def orientationOf (object : String) : Quaternion α :=
  .ofParts fun part => world.read object (Slot.orientation part).key

end World

/-- Of the two names of an orientation, the one that another orientation is nearer to. -/
def Quaternion.nearer [Scalar α] (orientation goal : Quaternion α) : Quaternion α :=
  goal.map ((if orientation.dot goal < 0 then -1 else 1) * ·)

/-- The angle between two vectors in degrees, with the cosine kept between its bounds. -/
def Vec.angle [Trigonometric α] (u v : Vec α) : α :=
  let norm := Builtin.max.apply [leastNorm, u.length * v.length]
  Trigonometric.acos (Builtin.max.apply [-1, Builtin.min.apply [1, u.dot v / norm]]) *
    (Scalar.ofNat 180 / Trigonometric.pi)

/-! ### Vectors of expressions -/

variable [Trigonometric α] (world : World α) (this : String) (locals : Locals α)

namespace Vec

/-- The numbers that a vector of expressions has. -/
def numbers (u : Vec (Expr α)) : Vec α :=
  u.map fun component => (component.eval world this locals).number

@[simp] theorem numbers_constant (u : Vec α) : u.constant.numbers world this locals = u := by
  simp [numbers, constant, map, Value.number]

@[simp] theorem numbers_positionOf (object : String) :
    (positionOf object).numbers world this locals = world.positionOf object := by
  simp [numbers, positionOf, World.positionOf, map, ofAxes, Slot.readOf, Expr.eval, Value.number]

@[simp] theorem numbers_forwardOf (object : String) :
    (forwardOf object).numbers world this locals = world.forwardOf object := by
  simp [numbers, forwardOf, World.forwardOf, map, ofAxes, Slot.readOf, Expr.eval, Value.number]

@[simp] theorem numbers_sub (u v : Vec (Expr α)) :
    (u - v).numbers world this locals =
      u.numbers world this locals - v.numbers world this locals := by
  have component (left right : Expr α) : ((left - right).eval world this locals).number =
      (left.eval world this locals).number - (right.eval world this locals).number := by
    rw [Expr.eval_sub, Value.number]
  exact congr (congr (congrArg Vec.mk (component u.x v.x)) (component u.y v.y))
    (component u.z v.z)

theorem eval_dot (u v : Vec (Expr α)) :
    (u.dot v).eval world this locals =
      .num ((u.numbers world this locals).dot (v.numbers world this locals)) := by
  simp [dot, numbers, map, Expr.eval_add, Expr.eval_mul, Value.number]

theorem eval_lengthExpr (u : Vec (Expr α)) :
    u.lengthExpr.eval world this locals = .num (u.numbers world this locals).length := by
  rw [lengthExpr, Expr.sqrt, Expr.eval, Expr.evalAll, Expr.evalAll, eval_dot]
  rfl

theorem eval_angleExpr (u v : Vec (Expr α)) :
    (u.angleExpr v).eval world this locals =
      .num ((u.numbers world this locals).angle (v.numbers world this locals)) := by
  simp only [angleExpr, Expr.eval_mul, Expr.eval, Expr.evalAll, Expr.eval_div, eval_dot,
    eval_lengthExpr, Value.number]
  rfl

end Vec

/-- How far the present orientation is from a goal. -/
theorem Quaternion.eval_dot_orientation (goal : Quaternion α) :
    (orientation.dot (goal.map .num)).eval world this locals =
      .num ((world.orientationOf this).dot goal) := by
  simp [dot, orientation, World.orientationOf, map, ofParts, Expr.eval_add, Expr.eval_mul,
    Value.number]

end Stagecraft
