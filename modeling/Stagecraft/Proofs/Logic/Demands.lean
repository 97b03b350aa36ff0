/-
This file is about what may be asked of logic: of the numbers that it is written with, and of the
keys under which it reads and writes. Each number and each key is asked for alone, so a block meets
a demand if each of its statements does. Whatever is asked, the constants that logic is written with
everywhere have to be allowed, and the keys of slots. So what is left are the numbers that an effect
or a sensor brings.
-/

import Stagecraft.Logic.Access
import Stagecraft.Proofs.Logic.Literals
import Stagecraft.Proofs.Logic.Spelling
import Stagecraft.Proofs.Scene.Validity
import Stagecraft.Ticks

namespace Stagecraft

variable {α : Type} [Trigonometric α]

/-! ### Demands -/

/-- What is asked of the numbers and of the keys that logic is written with. Numbers may be asked to
be finite and no more than that, and what all logic is made of is allowed. -/
structure Demand (α : Type) [Trigonometric α] where
  number : α → Prop
  key : String → Prop
  /-- So few can be counted. -/
  few : Nat → Prop
  of_finite {value : α} : Scalar.isFinite value → number value
  zero : number 0
  one : number 1
  minusOne : number (-1)
  two : number Scalar.two
  leastNorm : number Vec.leastNorm
  degrees : number (Scalar.ofNat 180 / Trigonometric.pi)
  direction {u : Vec α} : u.IsNormalizable → ∀ axis, number (u.normalize.get axis)
  slot (slot : Slot) : key slot.key
  fewer {count other : Nat} : other ≤ count → few count → few other
  ticks (duration rate duration' rate' : α) :
    few (Ticks.count duration rate + Ticks.count duration' rate')
  count {count : Nat} : few count → number (Scalar.ofNat count)

attribute [simp] Demand.zero Demand.one Demand.minusOne Demand.two Demand.leastNorm Demand.degrees
  Demand.slot

variable {demand : Demand α}

theorem Demand.countOf (duration rate : α) :
    demand.number (Scalar.ofNat (Ticks.count duration rate)) :=
  demand.count (demand.fewer (Nat.le_add_right _ _) (demand.ticks duration rate duration rate))

/-! ### Logic -/

/-- The numbers and the keys of the expression are as demanded. -/
def Expr.Meets (demand : Demand α) (expr : Expr α) : Prop :=
  (∀ value ∈ expr.literals, demand.number value) ∧ ∀ key ∈ expr.keys, demand.key key

def Stmt.Meets (demand : Demand α) (stmt : Stmt α) : Prop :=
  (∀ value ∈ stmt.literals, demand.number value) ∧ ∀ key ∈ stmt.keys, demand.key key

def Block.Meets (demand : Demand α) (block : Block α) : Prop :=
  (∀ value ∈ Block.literals block, demand.number value) ∧ ∀ key ∈ Block.keys block, demand.key key

/-! ### Expressions -/

namespace Expr

@[simp] theorem meets_num (value : α) : (num value).Meets demand ↔ demand.number value := by
  simp [Meets, literals, keys]

@[simp] theorem meets_var (name : String) : (var name).Meets demand := by
  simp [Meets, literals, keys]

@[simp] theorem meets_read (slot : Slot) : slot.read.Meets demand := by
  simp [Meets, literals, keys, Slot.read]

@[simp] theorem meets_readOf (slot : Slot) (object : String) :
    (slot.readOf object).Meets demand := by
  simp [Meets, literals, keys, Slot.readOf]

@[simp] theorem meets_unary (op : UnaryOp) (operand : Expr α) :
    (unary op operand).Meets demand ↔ operand.Meets demand :=
  Iff.rfl

@[simp] theorem meets_binary (op : BinaryOp) (left right : Expr α) :
    (binary op left right).Meets demand ↔ left.Meets demand ∧ right.Meets demand := by
  simp only [Meets, literals, keys, List.forall_mem_append, and_and_and_comm]

@[simp] theorem meets_call (builtin : Builtin) (arguments : List (Expr α)) :
    (call builtin arguments).Meets demand ↔ ∀ expr ∈ arguments, expr.Meets demand := by
  induction arguments with
  | nil => simp [Meets, literals, allLiterals, keys, allKeys]
  | cons expr rest inductionHypothesis =>
    rw [List.forall_mem_cons, ← inductionHypothesis]
    simp only [Meets, literals, allLiterals, keys, allKeys, List.forall_mem_append,
      and_and_and_comm]

@[simp] theorem meets_select (condition yes no : Expr α) :
    (select condition yes no).Meets demand ↔
      condition.Meets demand ∧ yes.Meets demand ∧ no.Meets demand := by
  simp only [Meets, literals, keys, List.forall_mem_append]
  tauto

variable (left right : Expr α)

@[simp] theorem meets_add :
    (left + right).Meets demand ↔ left.Meets demand ∧ right.Meets demand :=
  meets_binary .add left right

@[simp] theorem meets_sub :
    (left - right).Meets demand ↔ left.Meets demand ∧ right.Meets demand :=
  meets_binary .sub left right

@[simp] theorem meets_mul :
    (left * right).Meets demand ↔ left.Meets demand ∧ right.Meets demand :=
  meets_binary .mul left right

@[simp] theorem meets_div :
    (left / right).Meets demand ↔ left.Meets demand ∧ right.Meets demand :=
  meets_binary .div left right

@[simp] theorem meets_lt :
    (left.lt right).Meets demand ↔ left.Meets demand ∧ right.Meets demand :=
  meets_binary .lt left right

@[simp] theorem meets_le :
    (left.le right).Meets demand ↔ left.Meets demand ∧ right.Meets demand :=
  meets_binary .le left right

@[simp] theorem meets_gt :
    (left.gt right).Meets demand ↔ left.Meets demand ∧ right.Meets demand :=
  meets_binary .gt left right

@[simp] theorem meets_ge :
    (left.ge right).Meets demand ↔ left.Meets demand ∧ right.Meets demand :=
  meets_binary .ge left right

@[simp] theorem meets_equals :
    (left.equals right).Meets demand ↔ left.Meets demand ∧ right.Meets demand :=
  meets_binary .eq left right

@[simp] theorem meets_differs :
    (left.differs right).Meets demand ↔ left.Meets demand ∧ right.Meets demand :=
  meets_binary .ne left right

@[simp] theorem meets_and :
    (left.and right).Meets demand ↔ left.Meets demand ∧ right.Meets demand :=
  meets_binary .and left right

@[simp] theorem meets_or :
    (left.or right).Meets demand ↔ left.Meets demand ∧ right.Meets demand :=
  meets_binary .or left right

@[simp] theorem meets_not (operand : Expr α) :
    operand.not.Meets demand ↔ operand.Meets demand :=
  meets_unary .not operand

@[simp] theorem meets_isSet (value : Expr α) : value.isSet.Meets demand ↔ value.Meets demand := by
  simp [isSet]

@[simp] theorem meets_flag (condition : Expr α) :
    condition.flag.Meets demand ↔ condition.Meets demand := by
  simp [flag]

end Expr

/-! ### Vectors -/

namespace Vec

/-- All components are numbers as demanded. -/
def Meets (demand : Demand α) (u : Vec α) : Prop :=
  ∀ axis, demand.number (u.get axis)

/-- All components are written as demanded. -/
def AllMeet (demand : Demand α) (u : Vec (Expr α)) : Prop :=
  ∀ axis, (u.get axis).Meets demand

theorem IsFinite.meets {u : Vec α} (finite : u.IsFinite) : u.Meets demand :=
  fun axis => demand.of_finite (finite axis)

theorem Meets.constant {u : Vec α} (meets : u.Meets demand) : u.constant.AllMeet demand := by
  intro axis
  have written := (Expr.meets_num _).mpr (meets axis)
  cases axis <;> exact written

theorem allMeet_ofAxes {component : Axis → Expr α}
    (meets : ∀ axis, (component axis).Meets demand) : (ofAxes component).AllMeet demand := by
  intro axis
  cases axis <;> exact meets _

theorem allMeet_positionOf (object : String) : (positionOf object).AllMeet demand :=
  allMeet_ofAxes fun _ => Expr.meets_readOf _ _

theorem allMeet_forwardOf (object : String) : (forwardOf object).AllMeet demand :=
  allMeet_ofAxes fun _ => Expr.meets_readOf _ _

variable {u v : Vec (Expr α)} (first : u.AllMeet demand) (second : v.AllMeet demand)

include first

section

include second

theorem AllMeet.add : (u + v).AllMeet demand := by
  intro axis
  have meets := (Expr.meets_add _ _).mpr ⟨first axis, second axis⟩
  cases axis <;> exact meets

theorem AllMeet.sub : (u - v).AllMeet demand := by
  intro axis
  have meets := (Expr.meets_sub _ _).mpr ⟨first axis, second axis⟩
  cases axis <;> exact meets

theorem AllMeet.dot : (u.dot v).Meets demand := by
  simp only [Vec.dot, Expr.meets_add, Expr.meets_mul]
  exact ⟨⟨⟨first .x, second .x⟩, first .y, second .y⟩, first .z, second .z⟩

end

theorem AllMeet.lengthExpr : u.lengthExpr.Meets demand := by
  simpa [Vec.lengthExpr, Expr.sqrt] using first.dot first

include second

theorem AllMeet.angleExpr : (u.angleExpr v).Meets demand := by
  simp [Vec.angleExpr, first.dot second, first.lengthExpr, second.lengthExpr]

end Vec

/-! ### Statements -/

namespace Stmt

@[simp] theorem meets_write (slot : Slot) (value : Expr α) :
    (slot.write value).Meets demand ↔ value.Meets demand := by
  simp [Meets, Expr.Meets, literals, keys, Slot.write]

@[simp] theorem meets_bind (name : String) (value : Expr α) :
    (bind name value).Meets demand ↔ value.Meets demand :=
  Iff.rfl

@[simp] theorem meets_onlyIf (condition : Expr α) (body : Block α) :
    (onlyIf condition body).Meets demand ↔ condition.Meets demand ∧ Block.Meets demand body := by
  simp only [Meets, Expr.Meets, Block.Meets, onlyIf, literals, keys, Block.literals, Block.keys,
    List.append_nil, List.forall_mem_append, and_and_and_comm]

@[simp] theorem meets_within (object : String) (body : Block α) :
    (within object body).Meets demand ↔ Block.Meets demand body :=
  Iff.rfl

@[simp] theorem meets_host (call : HostCall) : (host call).Meets demand := by
  simp [Meets, literals, keys]

@[simp] theorem meets_comment (text : String) : (comment text).Meets demand := by
  simp [Meets, literals, keys]

end Stmt

/-! ### Blocks -/

namespace Block

@[simp] theorem meets_nil : Meets demand [] := by
  simp [Meets, literals, keys]

@[simp] theorem meets_cons (stmt : Stmt α) (rest : Block α) :
    Meets demand (stmt :: rest) ↔ stmt.Meets demand ∧ Meets demand rest := by
  simp only [Meets, Stmt.Meets, literals, keys, List.forall_mem_append, and_and_and_comm]

/-- A block meets a demand if each of its statements does. -/
theorem meets_iff {block : Block α} : Meets demand block ↔ ∀ stmt ∈ block, stmt.Meets demand := by
  induction block with
  | nil => simp
  | cons stmt rest inductionHypothesis =>
    rw [meets_cons, List.forall_mem_cons, inductionHypothesis]

@[simp] theorem meets_append (first second : Block α) :
    Meets demand (first ++ second) ↔ Meets demand first ∧ Meets demand second := by
  simp only [meets_iff, List.forall_mem_append]

@[simp] theorem meets_map {β : Type} (values : List β) (statement : β → Stmt α) :
    Meets demand (values.map statement) ↔ ∀ value ∈ values, (statement value).Meets demand := by
  rw [meets_iff, List.forall_mem_map]

@[simp] theorem meets_flatMap {β : Type} (values : List β) (block : β → Block α) :
    Meets demand (values.flatMap block) ↔ ∀ value ∈ values, Meets demand (block value) := by
  simp only [meets_iff, List.mem_flatMap, forall_exists_index, and_imp]
  exact ⟨fun each value member stmt inBlock => each stmt value member inBlock,
    fun each stmt value member inBlock => each value member stmt inBlock⟩

end Block

end Stagecraft
