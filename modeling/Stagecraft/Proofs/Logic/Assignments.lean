/-
This file describes blocks that assign several slots in a row. As long as no assigned number looks
at a slot that is assigned beside it, the order is of no importance: every slot ends with the number
that its expression has before the block.
-/

import Stagecraft.Proofs.Logic.Trace
import Stagecraft.Proofs.Logic.Evaluation

namespace Stagecraft

variable {α : Type}

/-! ### Expressions -/

namespace World

/-- Two worlds read the same, certain slots of one object apart. -/
def ReadsSame [Scalar α] (this : String) (slots : Slot → Prop) (first second : World α) : Prop :=
  ∀ object key, (∀ slot, slots slot → ¬(object = this ∧ key = slot.key)) →
    second.read object key = first.read object key

theorem ReadsSame.slot [Scalar α] {this : String} {slots : Slot → Prop} {first second : World α}
    (same : ReadsSame this slots first second) (object : String) {slot : Slot}
    (spared : ¬slots slot) : second.read object slot.key = first.read object slot.key :=
  same object slot.key fun _ member clash => spared (Slot.key_injective clash.2 ▸ member)

end World

section

variable [Trigonometric α] (world : World α) (this : String) (locals : Locals α)

namespace Expr

theorem eval_sub (left right : Expr α) :
    (left - right).eval world this locals =
      .num ((left.eval world this locals).number - (right.eval world this locals).number) :=
  eval_binary world this locals .sub left right

theorem eval_mul (left right : Expr α) :
    (left * right).eval world this locals =
      .num ((left.eval world this locals).number * (right.eval world this locals).number) :=
  eval_binary world this locals .mul left right

theorem eval_div (left right : Expr α) :
    (left / right).eval world this locals =
      .num ((left.eval world this locals).number / (right.eval world this locals).number) :=
  eval_binary world this locals .div left right

end Expr

/-- The product of a constant turn with parts that logic computes. -/
theorem Quaternion.number_product (turn : Quaternion α) (component : Part → Expr α) (part : Part) :
    ((((turn.map Expr.num).product (ofParts component)).get part).eval world this locals).number =
      (turn.product (ofParts fun part => ((component part).eval world this locals).number)).get
        part := by
  cases part <;>
    simp only [product, ofParts, map, get, Expr.eval_add, Expr.eval_sub, Expr.eval_mul,
      Expr.eval_num, Value.number]

end

variable [Trigonometric α] {this : String} {locals : Locals α} {slots : Slot → Prop}

namespace Expr

/-- The number of an expression does not depend on these slots. -/
def Ignores (this : String) (locals : Locals α) (slots : Slot → Prop) (expr : Expr α) : Prop :=
  ∀ world world' : World α, World.ReadsSame this slots world world' →
    (expr.eval world' this locals).number = (expr.eval world this locals).number

theorem ignores_num (value : α) : Ignores this locals slots (num value) :=
  fun _ _ _ => by rw [eval_num, eval_num]

theorem ignores_var (name : String) : Ignores this locals slots (.var name : Expr α) :=
  fun _ _ _ => by rw [eval, eval]

theorem ignores_read {slot : Slot} (spared : ¬slots slot) :
    Ignores this locals slots (slot.read : Expr α) :=
  fun _ _ same => by rw [Slot.eval_read, Slot.eval_read, same.slot this spared]

theorem ignores_readOf {slot : Slot} (object : String) (spared : ¬slots slot) :
    Ignores this locals slots (slot.readOf object : Expr α) :=
  fun _ _ same => by rw [Slot.readOf, eval, eval, same.slot object spared]

theorem Ignores.add {left right : Expr α} (first : left.Ignores this locals slots)
    (second : right.Ignores this locals slots) : (left + right).Ignores this locals slots :=
  fun _ _ same => by rw [eval_add, eval_add, first _ _ same, second _ _ same]

theorem Ignores.mul {left right : Expr α} (first : left.Ignores this locals slots)
    (second : right.Ignores this locals slots) : (left * right).Ignores this locals slots :=
  fun _ _ same => by rw [eval_mul, eval_mul, first _ _ same, second _ _ same]

end Expr

theorem Quaternion.ignores_product (turn : Quaternion α) {component : Part → Expr α}
    (each : ∀ part, (component part).Ignores this locals slots) (part : Part) :
    (((turn.map Expr.num).product (ofParts component)).get part).Ignores this locals slots :=
  fun _ _ same => by
    rw [number_product, number_product]
    simp only [each _ _ _ same]

/-! ### Assignments -/

namespace Block

variable {ι : Type} (slot : ι → Slot) (value : ι → Expr α)

/-- Write numbers to slots, one for each index. -/
def assign (indices : List ι) : Block α :=
  indices.map fun index => (slot index).write (value index)

variable {slot value} in
omit [Trigonometric α] in
theorem writesOnly_assign (allowed : String → Slot → Prop) {indices : List ι}
    (each : ∀ index ∈ indices, allowed this (slot index)) :
    WritesOnly allowed this (assign slot value indices) :=
  writesOnly_map fun index member => writesOnly_write.mpr (each index member)

theorem entry_assign {indices : List ι} {world : World α} (hosted : world.hosts this)
    (once : indices.Nodup) (injective : Function.Injective slot)
    (apart : ∀ index, (value index).Ignores this locals fun other =>
      ∃ beside, beside ≠ index ∧ other = slot beside)
    {index : ι} (member : index ∈ indices) :
    (runAll this locals world (assign slot value indices)).entry this (slot index).key =
      some ((value index).eval world this locals).number := by
  induction indices generalizing world with
  | nil => cases member
  | cons first rest inductionHypothesis =>
    obtain ⟨notLater, onceLater⟩ := List.nodup_cons.mp once
    rw [assign, List.map_cons, runAll_cons, Slot.run_write]
    rcases List.mem_cons.mp member with rfl | later
    · -- What follows does not write this slot again.
      have bounded : WritesOnly (fun _ other => ∃ beside ∈ rest, other = slot beside) this
          (assign slot value rest) := writesOnly_assign _ fun beside inRest => ⟨beside, inRest, rfl⟩
      have spared : ¬∃ beside ∈ rest, slot index = slot beside := by
        rintro ⟨beside, inRest, same⟩
        exact notLater (injective same ▸ inRest)
      refine (entry_runAll _ _ _ _ _ _ fun _ => bounded.notMem spared).trans ?_
      rw [World.entry_write, if_pos ⟨hosted, rfl, rfl⟩]
    · have different : first ≠ index := fun same => notLater (same ▸ later)
      let written := world.write this (slot first).key ((value first).eval world this locals).number
      have reads : World.ReadsSame this
          (fun other => ∃ beside, beside ≠ index ∧ other = slot beside) world written := by
        intro object key spared
        rw [World.read_write, if_neg]
        rintro ⟨-, rfl, rfl⟩
        exact spared (slot first) ⟨first, different, rfl⟩ ⟨rfl, rfl⟩
      rw [← apart index _ _ reads]
      exact inductionHypothesis (by rwa [World.hosts_write]) onceLater later

theorem read_assign {indices : List ι} {world : World α} (hosted : world.hosts this)
    (once : indices.Nodup) (injective : Function.Injective slot)
    (apart : ∀ index, (value index).Ignores this locals fun other =>
      ∃ beside, beside ≠ index ∧ other = slot beside)
    {index : ι} (member : index ∈ indices) :
    (runAll this locals world (assign slot value indices)).read this (slot index).key =
      ((value index).eval world this locals).number :=
  congrArg (·.getD 0) (entry_assign slot value hosted once injective apart member)

end Block

end Stagecraft
