/-
This file says what sensors read: the distance, the angle and the box that a level tests are those of
the positions and directions that the world has at the turn of the watch. The temporaries on the way
do not matter.
-/

import Stagecraft.Proofs.Logic.Vectors
import Stagecraft.Proofs.Trigger.Evaluation

namespace Stagecraft

variable {α : Type}

/-! ### Where sensors look -/

namespace World

variable [Scalar α] (world : World α)

/-- Where an anchor is. -/
def anchorPosition : Anchor α → Vec α
  | .point position => position
  | .object id => world.positionOf id

/-- The direction from the head to what it may look at. -/
def lineOfSight : LookTarget α → Vec α
  | .point position => position - world.positionOf headId
  | .direction direction => direction
  | .object id => world.positionOf id - world.positionOf headId

/-- The position that a watch of an object has stored. -/
def lastPosition (this : String) (watch : Watch) : Vec α :=
  .ofAxes fun axis => world.read this (Slot.watch watch (.last axis)).key

end World

/-! ### Levels -/

variable [Trigonometric α] (world : World α) (this : String) (locals : Locals α)

namespace Expr

theorem isTruthy_isBelow (value previous : Expr α) (threshold epsilon : α) :
    ((value.isBelow threshold epsilon previous).eval world this locals).isTruthy =
      decide ((value.eval world this locals).number <
        threshold - epsilon +
          Scalar.two * epsilon * (previous.eval world this locals).number) := by
  rw [isBelow, lt, eval_binary, BinaryOp.apply, Value.isTruthy_bool, eval_add, eval_mul, eval_num,
    eval_num]
  rfl

theorem isTruthy_isAbove (value previous : Expr α) (threshold epsilon : α) :
    ((value.isAbove threshold epsilon previous).eval world this locals).isTruthy =
      decide (threshold + epsilon -
        Scalar.two * epsilon * (previous.eval world this locals).number <
          (value.eval world this locals).number) := by
  rw [isAbove, gt, eval_binary, BinaryOp.apply, Value.isTruthy_bool, eval_sub, eval_mul, eval_num,
    eval_num]
  rfl

theorem isTruthy_isInside (position : Vec (Expr α)) (least greatest : Vec α) (margin : Expr α) :
    ((Sensor.isInside position least greatest margin).eval world this locals).isTruthy = true ↔
      ∀ axis, least.get axis - (margin.eval world this locals).number ≤
          (position.numbers world this locals).get axis ∧
        (position.numbers world this locals).get axis ≤
          greatest.get axis + (margin.eval world this locals).number := by
  have low (axis : Axis) : (((position.get axis).ge (.num (least.get axis) - margin)).eval world this
      locals).isTruthy = decide (least.get axis - (margin.eval world this locals).number ≤
        (position.numbers world this locals).get axis) := by
    rw [ge, eval_binary, BinaryOp.apply, Value.isTruthy_bool, eval_sub, eval_num]
    cases axis <;> rfl
  have high (axis : Axis) : (((position.get axis).le (.num (greatest.get axis) + margin)).eval world
      this locals).isTruthy = decide ((position.numbers world this locals).get axis ≤
        greatest.get axis + (margin.eval world this locals).number) := by
    rw [le, eval_binary, BinaryOp.apply, Value.isTruthy_bool, eval_add, eval_num]
    cases axis <;> rfl
  simp only [Sensor.isInside, isTruthy_and, low, high, Bool.and_eq_true, decide_eq_true_eq]
  constructor
  · rintro ⟨⟨⟨⟨⟨lowX, highX⟩, lowY⟩, highY⟩, lowZ⟩, highZ⟩ (- | - | -)
    · exact ⟨lowX, highX⟩
    · exact ⟨lowY, highY⟩
    · exact ⟨lowZ, highZ⟩
  · intro inside
    exact ⟨⟨⟨⟨inside .x, (inside .y).1⟩, (inside .y).2⟩, (inside .z).1⟩, (inside .z).2⟩

end Expr

namespace Sensor

@[simp] theorem numbers_anchorPosition (anchor : Anchor α) :
    (anchorPosition anchor).numbers world this locals = world.anchorPosition anchor := by
  cases anchor <;> simp [anchorPosition, World.anchorPosition]

@[simp] theorem numbers_lineOfSight (target : LookTarget α) :
    (lineOfSight target).numbers world this locals = world.lineOfSight target := by
  cases target <;> simp [lineOfSight, World.lineOfSight]

@[simp] theorem numbers_lastPosition (watch : Watch) :
    (lastPosition watch).numbers world this locals = world.lastPosition this watch := by
  simp [Vec.numbers, lastPosition, World.lastPosition, Vec.map, Vec.ofAxes, Value.number]

end Sensor

namespace Watch

variable (watch : Watch) (epsilon : α)

/-- A temporary that is bound before the level has its value when the level is computed. -/
theorem eval_sensed {sensor : Sensor α} {name : String} {value : Expr α}
    (bound : sensor.before epsilon watch = [.bind name value]) :
    (Expr.var name).eval world this (watch.sensed sensor epsilon this locals world) =
      value.eval world this locals := by
  rw [sensed, bound, Block.thread_cons, Stmt.run, Block.thread_nil, Expr.eval, Locals.read,
    List.lookup_cons_self, Option.getD_some]

theorem levelAt_orientation (subject : String) (direction : Vec α) (angle : α) :
    watch.levelAt (.orientation subject direction angle) epsilon this locals world =
      decide ((world.forwardOf subject).angle direction <
        angle - epsilon +
          Scalar.two * epsilon * world.read this (Slot.watch watch .previous).key) := by
  rw [levelAt, levelValue, Sensor.level, Expr.isTruthy_isBelow, Vec.eval_angleExpr,
    Vec.numbers_forwardOf, Vec.numbers_constant, Slot.eval_read]
  rfl

theorem levelAt_lookAt (target : LookTarget α) (angle : α) :
    watch.levelAt (.lookAt target angle) epsilon this locals world =
      decide ((world.forwardOf headId).angle (world.lineOfSight target) <
        angle - epsilon +
          Scalar.two * epsilon * world.read this (Slot.watch watch .previous).key) := by
  rw [levelAt, levelValue, Sensor.level, Expr.isTruthy_isBelow, Vec.eval_angleExpr,
    Vec.numbers_forwardOf, Sensor.numbers_lineOfSight, Slot.eval_read]
  rfl

theorem levelAt_proximity (subject : String) (anchor : Anchor α) (distance : α) :
    watch.levelAt (.proximity subject anchor distance) epsilon this locals world =
      decide ((world.positionOf subject - world.anchorPosition anchor).length <
        distance - epsilon +
          Scalar.two * epsilon * world.read this (Slot.watch watch .previous).key) := by
  rw [levelAt, levelValue, Sensor.level, Expr.isTruthy_isBelow, watch.eval_sensed _ _ _ _ rfl,
    Vec.eval_lengthExpr, Vec.numbers_sub, Vec.numbers_positionOf, Sensor.numbers_anchorPosition,
    Slot.eval_read]
  rfl

/-- A movement is sensed once a position has been stored, as a distance from it. -/
theorem levelAt_movement (subject : String) (distance : α) :
    watch.levelAt (.movement subject distance) epsilon this locals world =
      (!(world.read this (Slot.watch watch .primed).key == (0 : α)) &&
        decide (distance + epsilon -
          Scalar.two * epsilon * world.read this (Slot.watch watch .previous).key <
            (world.positionOf subject - world.lastPosition this watch).length)) := by
  rw [levelAt, levelValue, Sensor.level, Expr.isTruthy_and, Expr.isTruthy_isSet_read,
    Expr.isTruthy_isAbove, watch.eval_sensed _ _ _ _ rfl, Vec.eval_lengthExpr, Vec.numbers_sub,
    Vec.numbers_positionOf, Sensor.numbers_lastPosition, Slot.eval_read]
  rfl

theorem levelAt_volume (subject : String) (least greatest : Vec α) (crossing : Crossing) :
    watch.levelAt (.volume subject least greatest crossing) epsilon this locals world = true ↔
      ∀ axis,
        least.get axis - epsilon *
            (Scalar.two * world.read this (Slot.watch watch .previous).key - 1) ≤
          (world.positionOf subject).get axis ∧
        (world.positionOf subject).get axis ≤
          greatest.get axis + epsilon *
            (Scalar.two * world.read this (Slot.watch watch .previous).key - 1) := by
  have margin : ((Expr.var Sensor.marginName).eval world this
      (watch.sensed (.volume subject least greatest crossing) epsilon this locals world)).number =
      epsilon * (Scalar.two * world.read this (Slot.watch watch .previous).key - 1) := by
    rw [watch.eval_sensed _ _ _ _ rfl, Expr.eval_mul, Expr.eval_sub, Expr.eval_mul, Slot.eval_read]
    simp only [Expr.eval_num, Value.number]
  rw [levelAt, levelValue, Sensor.level, Expr.isTruthy_isInside, margin, Vec.numbers_positionOf]

/-- A selection is sensed as it is seen. -/
theorem levelAt_selection :
    watch.levelAt .selection epsilon this locals world =
      !(world.read this Slot.clicked.key == (0 : α)) := by
  rw [levelAt, levelValue, Sensor.level, Expr.isTruthy_isSet_read]

/-- A level is a matter of the world alone, whatever temporaries there are. -/
theorem levelAt_locals (sensor : Sensor α) (locals' : Locals α) :
    watch.levelAt sensor epsilon this locals world =
      watch.levelAt sensor epsilon this locals' world := by
  cases sensor with
  | orientation => rw [levelAt_orientation, levelAt_orientation]
  | proximity => rw [levelAt_proximity, levelAt_proximity]
  | lookAt => rw [levelAt_lookAt, levelAt_lookAt]
  | movement => rw [levelAt_movement, levelAt_movement]
  | volume => rw [Bool.eq_iff_iff, levelAt_volume, levelAt_volume]
  | selection => rw [levelAt_selection, levelAt_selection]

end Watch

end Stagecraft
