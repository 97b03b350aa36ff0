/-
This file evaluates the conditions that logic is built from: comparisons of a slot with a number,
their connectives, and the number of a condition. It ends with logic that is idle, which is run
without effect.
-/

import Stagecraft.Logic.Access
import Stagecraft.Logic.Meaning

namespace Stagecraft

@[simp] theorem Value.isTruthy_bool {α : Type} (condition : Bool) :
    (Value.bool condition : Value α).isTruthy = condition := by
  cases condition <;> rfl

variable {α : Type} [Trigonometric α] (world : World α) (this : String) (locals : Locals α)

section

attribute [local simp] Expr.eval Stmt.run

@[simp] theorem Slot.eval_read (slot : Slot) :
    slot.read.eval world this locals = .num (world.read this slot.key) := by
  simp [Slot.read]

@[simp] theorem Slot.run_write (slot : Slot) (value : Expr α) :
    (slot.write value).run this locals world =
      (locals, world.write this slot.key (value.eval world this locals).number) := by
  simp [Slot.write]

theorem Stmt.run_onlyIf (condition : Expr α) (body : Block α) :
    (Stmt.onlyIf condition body).run this locals world =
      (locals, if (condition.eval world this locals).isTruthy then
        Block.runAll this locals world body else world) := by
  rw [Stmt.onlyIf, Stmt.run]
  split
  · rfl
  · rw [Block.runAll]

@[simp] theorem Expr.eval_num (value : α) : (num value).eval world this locals = .num value := by
  simp

theorem Expr.eval_unary (op : UnaryOp) (operand : Expr α) :
    (unary op operand).eval world this locals = op.apply (operand.eval world this locals) := by
  simp

theorem Expr.eval_binary (op : BinaryOp) (left right : Expr α) :
    (binary op left right).eval world this locals =
      op.apply (left.eval world this locals) (right.eval world this locals) := by
  simp

end

namespace Expr

theorem eval_add (left right : Expr α) :
    (left + right).eval world this locals =
      .num ((left.eval world this locals).number + (right.eval world this locals).number) :=
  eval_binary world this locals .add left right

theorem isTruthy_isSet (value : Expr α) :
    (value.isSet.eval world this locals).isTruthy =
      !(value.eval world this locals).equals (.num 0) := by
  rw [isSet, differs, eval_binary, eval_num, BinaryOp.apply, Value.isTruthy_bool]

@[simp] theorem isTruthy_isSet_read (slot : Slot) :
    (slot.read.isSet.eval world this locals).isTruthy =
      !(world.read this slot.key == (0 : α)) := by
  rw [isTruthy_isSet, Slot.eval_read, Value.equals]

@[simp] theorem isTruthy_and (left right : Expr α) :
    ((left.and right).eval world this locals).isTruthy =
      ((left.eval world this locals).isTruthy && (right.eval world this locals).isTruthy) := by
  rw [and, eval_binary, BinaryOp.apply]
  split <;> simp_all

@[simp] theorem isTruthy_not (operand : Expr α) :
    (operand.not.eval world this locals).isTruthy =
      !(operand.eval world this locals).isTruthy := by
  rw [not, eval_unary, UnaryOp.apply, Value.isTruthy_bool]

@[simp] theorem isTruthy_equals_read (slot : Slot) (value : α) :
    ((slot.read.equals (num value)).eval world this locals).isTruthy =
      (world.read this slot.key == value) := by
  rw [equals, eval_binary, Slot.eval_read, eval_num, BinaryOp.apply, Value.isTruthy_bool,
    Value.equals]

@[simp] theorem isTruthy_differs_read (slot : Slot) (value : α) :
    ((slot.read.differs (num value)).eval world this locals).isTruthy =
      !(world.read this slot.key == value) := by
  rw [differs, eval_binary, Slot.eval_read, eval_num, BinaryOp.apply, Value.isTruthy_bool,
    Value.equals]

@[simp] theorem isTruthy_ge_read (slot : Slot) (value : α) :
    ((slot.read.ge (num value)).eval world this locals).isTruthy =
      decide (value ≤ world.read this slot.key) := by
  rw [ge, eval_binary, Slot.eval_read, eval_num, BinaryOp.apply, Value.isTruthy_bool]
  rfl

/-- The number of a condition. -/
@[simp] theorem number_flag (condition : Expr α) :
    (condition.flag.eval world this locals).number =
      if (condition.eval world this locals).isTruthy then 1 else 0 := by
  rw [flag, eval, eval_num, eval_num]
  cases (condition.eval world this locals).isTruthy <;> rfl

end Expr

/-! ### Idle logic -/

mutual

theorem Stmt.run_of_idle (this : String) (locals : Locals α) (world : World α) :
    (stmt : Stmt α) → stmt.isEffective = false → stmt.run this locals world = (locals, world)
  | .set _ _, idle | .bind _ _, idle | .host _, idle => by
    rw [Stmt.isEffective] at idle
    · cases idle
    all_goals nofun
  | .branch condition yes no, idle => by
    rw [Stmt.isEffective, Bool.or_eq_false_iff] at idle
    rw [Stmt.run, Block.runAll_of_idle this locals world yes idle.1,
      Block.runAll_of_idle this locals world no idle.2, ite_self]
  | .within object body, idle => by
    rw [Stmt.isEffective] at idle
    rw [Stmt.run, Block.runAll_of_idle object locals world body idle]
  | .comment _, _ => by rw [Stmt.run]

theorem Block.runAll_of_idle (this : String) (locals : Locals α) (world : World α) :
    (block : List (Stmt α)) → Block.isEffective block = false →
      Block.runAll this locals world block = world
  | [], _ => by rw [Block.runAll]
  | stmt :: rest, idle => by
    rw [Block.isEffective, Bool.or_eq_false_iff] at idle
    rw [Block.runAll, Stmt.run_of_idle this locals world stmt idle.1]
    exact Block.runAll_of_idle this locals world rest idle.2

end

theorem Block.run_of_isIdle {block : Block α} (idle : Block.isIdle block = true) :
    Block.run block this world = world := by
  rw [isIdle, Bool.not_eq_true'] at idle
  exact runAll_of_idle this [] world block idle

end Stagecraft
