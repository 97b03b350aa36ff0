/-
This file takes the numbers out of logic. The outline of a block has the same statements, keys,
names, operations and texts, and nothing in place of each number that is written in it. Whether a
block has an effect can be seen from its outline.
-/

import Mathlib
import Stagecraft.Logic.Access

namespace Stagecraft

variable {α : Type}

mutual

def Expr.outline : Expr α → Expr Unit
  | .num _ => .num ()
  | .prop place key => .prop place key
  | .var name => .var name
  | .unary op operand => .unary op operand.outline
  | .binary op left right => .binary op left.outline right.outline
  | .call builtin arguments => .call builtin (Expr.outlineAll arguments)
  | .select condition yes no => .select condition.outline yes.outline no.outline

def Expr.outlineAll : List (Expr α) → List (Expr Unit)
  | [] => []
  | expr :: rest => expr.outline :: Expr.outlineAll rest

end

mutual

def Stmt.outline : Stmt α → Stmt Unit
  | .set key value => .set key value.outline
  | .bind name value => .bind name value.outline
  | .branch condition yes no => .branch condition.outline (Block.outline yes) (Block.outline no)
  | .within object body => .within object (Block.outline body)
  | .host call => .host call
  | .comment text => .comment text

def Block.outline : List (Stmt α) → List (Stmt Unit)
  | [] => []
  | stmt :: rest => stmt.outline :: Block.outline rest

end

/-- The outlines of the phases. -/
def Phases.outline (phases : Phases α) : Phases Unit where
  enter := Block.outline phases.enter
  advance := Block.outline phases.advance
  exit := Block.outline phases.exit

/-! ### Building -/

@[simp] theorem Slot.outline_write (slot : Slot) (value : Expr α) :
    (slot.write value).outline = slot.write value.outline := by
  rw [Slot.write, Stmt.outline, Slot.write]

@[simp] theorem Stmt.outline_onlyIf (condition : Expr α) (body : Block α) :
    (Stmt.onlyIf condition body).outline = .onlyIf condition.outline (Block.outline body) := by
  rw [Stmt.onlyIf, Stmt.outline, Block.outline, Stmt.onlyIf]

namespace Block

@[simp] theorem outline_nil : outline ([] : Block α) = [] := by
  rw [outline]

@[simp] theorem outline_cons (stmt : Stmt α) (rest : Block α) :
    outline (stmt :: rest) = stmt.outline :: outline rest := by
  rw [outline]

@[simp] theorem outline_append (first second : Block α) :
    outline (first ++ second) = outline first ++ outline second := by
  induction first with
  | nil => simp
  | cons stmt rest inductionHypothesis => simp [inductionHypothesis]

@[simp] theorem outline_map {β : Type} (values : List β) (statement : β → Stmt α) :
    outline (values.map statement) = values.map fun value => (statement value).outline := by
  induction values with
  | nil => simp
  | cons value rest inductionHypothesis => simp [inductionHypothesis]

end Block

/-! ### Effect -/

mutual

theorem Stmt.isEffective_outline : (stmt : Stmt α) → stmt.outline.isEffective = stmt.isEffective
  | .set key value | .bind key value => by simp [Stmt.outline, Stmt.isEffective]
  | .host call | .comment text => by simp [Stmt.outline, Stmt.isEffective]
  | .branch condition yes no => by
    rw [Stmt.outline, Stmt.isEffective, Stmt.isEffective, Block.isEffective_outline yes,
      Block.isEffective_outline no]
  | .within object body => by
    rw [Stmt.outline, Stmt.isEffective, Stmt.isEffective, Block.isEffective_outline body]

theorem Block.isEffective_outline :
    (block : List (Stmt α)) → Block.isEffective (Block.outline block) = Block.isEffective block
  | [] => by rw [Block.outline, Block.isEffective, Block.isEffective]
  | stmt :: rest => by
    rw [Block.outline, Block.isEffective, Block.isEffective, Stmt.isEffective_outline stmt,
      Block.isEffective_outline rest]

end

/-- Blocks of the same outline are idle together. -/
theorem Block.isIdle_congr {first second : Block α} (same : outline first = outline second) :
    isIdle first = isIdle second := by
  rw [isIdle, isIdle, ← isEffective_outline first, same, isEffective_outline]

end Stagecraft
