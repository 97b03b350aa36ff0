/-
This file gives logic kinds. An expression gives a number or a condition, and its form says which,
once the kinds of the temporaries in reach are known. Logic is sound if numbers are used as numbers
and conditions as conditions, temporaries are read only where they have been named, and no objects
are named but known ones. Sound logic stays so inside of other logic, whatever that has named.
-/

import Mathlib
import Stagecraft.Logic.Access

namespace Stagecraft

/-! ### Kinds of expressions -/

/-- What an expression gives. -/
inductive Kind where
  | number
  | condition
deriving DecidableEq

/-- The kinds of the temporaries in reach, the latest first. -/
abbrev Kinds := List (String × Kind)

/-- The kind of the operand, which is that of the result. -/
def UnaryOp.kind : UnaryOp → Kind
  | .neg => .number
  | .not => .condition

/-- The kind of both operands. -/
def BinaryOp.operands : BinaryOp → Kind
  | .and | .or => .condition
  | _ => .number

def BinaryOp.result : BinaryOp → Kind
  | .add | .sub | .mul | .div => .number
  | _ => .condition

/-- Whether a builtin is given so many numbers. -/
def Builtin.takes : Builtin → Nat → Bool
  | .min, count | .max, count => 0 < count
  | _, count => count == 1

variable {α : Type}

section

variable (known : String → Bool)

mutual

/-- The kind of an expression, if its parts are of the kinds that they are used as. -/
def Expr.kind? (kinds : Kinds) : Expr α → Option Kind
  | .num _ => some .number
  | .prop .this _ => some .number
  | .prop (.object id) _ => if known id then some .number else none
  | .var name => kinds.lookup name
  | .unary op operand =>
    if operand.kind? kinds = some op.kind then some op.kind else none
  | .binary op left right =>
    if left.kind? kinds = some op.operands ∧ right.kind? kinds = some op.operands then
      some op.result
    else none
  | .call builtin arguments =>
    if builtin.takes arguments.length ∧ Expr.areNumbers kinds arguments then some .number
    else none
  | .select condition yes no =>
    if condition.kind? kinds = some .condition ∧ yes.kind? kinds = some .number ∧
      no.kind? kinds = some .number then some .number
    else none

def Expr.areNumbers (kinds : Kinds) : List (Expr α) → Bool
  | [] => true
  | expr :: rest => expr.kind? kinds = some .number ∧ Expr.areNumbers kinds rest

end

mutual

/-- The kinds of the temporaries after a statement, if it is sound where some kinds are given. -/
def Stmt.after? (kinds : Kinds) : Stmt α → Option Kinds
  | .set _ value => if value.kind? known kinds = some .number then some kinds else none
  | .bind name value => (value.kind? known kinds).map fun kind => (name, kind) :: kinds
  | .branch condition yes no =>
    if condition.kind? known kinds = some .condition ∧ (Block.after? kinds yes).isSome ∧
      (Block.after? kinds no).isSome then some kinds
    else none
  | .within object body =>
    if known object ∧ (Block.after? kinds body).isSome then some kinds else none
  | .host _ => some kinds
  | .comment _ => some kinds

def Block.after? (kinds : Kinds) : List (Stmt α) → Option Kinds
  | [] => some kinds
  | stmt :: rest => (stmt.after? kinds).bind fun kinds => Block.after? kinds rest

end

/-- The statement is sound by itself. -/
def Stmt.IsSound (stmt : Stmt α) : Prop :=
  (stmt.after? known []).isSome

/-- The block is sound by itself. -/
def Block.IsSound (block : Block α) : Prop :=
  (Block.after? known [] block).isSome

instance (block : Block α) : Decidable (Block.IsSound known block) :=
  inferInstanceAs (Decidable (_ = true))

def Expr.IsNumber (kinds : Kinds) (expr : Expr α) : Prop :=
  expr.kind? known kinds = some .number

def Expr.IsCondition (kinds : Kinds) (expr : Expr α) : Prop :=
  expr.kind? known kinds = some .condition

end

variable {known : String → Bool} {kinds : Kinds}

/-! ### Forms of expressions -/

section

attribute [local simp] Expr.kind? Expr.IsNumber Expr.IsCondition

@[simp] theorem Slot.isNumber_read (slot : Slot) :
    (slot.read : Expr α).IsNumber known kinds := by
  simp [Slot.read]

@[simp] theorem Slot.isNumber_readOf (slot : Slot) (object : String) :
    (slot.readOf object : Expr α).IsNumber known kinds ↔ known object := by
  simp [Slot.readOf]

namespace Expr

@[simp] theorem isNumber_num (value : α) : (num value).IsNumber known kinds := by
  simp

@[simp] theorem isNumber_var (name : String) :
    (var name : Expr α).IsNumber known kinds ↔ kinds.lookup name = some .number := by
  simp

@[simp] theorem isCondition_var (name : String) :
    (var name : Expr α).IsCondition known kinds ↔ kinds.lookup name = some .condition := by
  simp

variable {kind : Kind}

theorem kind?_object (id key : String) :
    (prop (.object id) key : Expr α).kind? known kinds = some kind ↔
      known id ∧ Kind.number = kind := by
  simp

theorem kind?_unary (op : UnaryOp) (operand : Expr α) :
    (unary op operand).kind? known kinds = some kind ↔
      operand.kind? known kinds = some op.kind ∧ op.kind = kind := by
  simp

theorem kind?_binary (op : BinaryOp) (left right : Expr α) :
    (binary op left right).kind? known kinds = some kind ↔
      (left.kind? known kinds = some op.operands ∧ right.kind? known kinds = some op.operands) ∧
        op.result = kind := by
  simp

theorem kind?_call (builtin : Builtin) (arguments : List (Expr α)) :
    (call builtin arguments).kind? known kinds = some kind ↔
      (builtin.takes arguments.length ∧ areNumbers known kinds arguments) ∧ Kind.number = kind := by
  simp

theorem kind?_select (condition yes no : Expr α) :
    (select condition yes no).kind? known kinds = some kind ↔
      (condition.kind? known kinds = some .condition ∧ yes.kind? known kinds = some .number ∧
        no.kind? known kinds = some .number) ∧ Kind.number = kind := by
  simp

end Expr

end

namespace Expr

theorem areNumbers_cons (expr : Expr α) (rest : List (Expr α)) :
    areNumbers known kinds (expr :: rest) ↔
      expr.IsNumber known kinds ∧ areNumbers known kinds rest := by
  rw [areNumbers, decide_eq_true_iff]
  rfl

theorem areNumbers_iff {exprs : List (Expr α)} :
    areNumbers known kinds exprs ↔ ∀ expr ∈ exprs, expr.IsNumber known kinds := by
  induction exprs with
  | nil => simp [areNumbers]
  | cons expr rest inductionHypothesis =>
    rw [areNumbers_cons, inductionHypothesis, List.forall_mem_cons]

variable (left right : Expr α)

@[simp] theorem isNumber_add :
    (left + right).IsNumber known kinds ↔
      left.IsNumber known kinds ∧ right.IsNumber known kinds :=
  (kind?_binary .add left right).trans (and_iff_left rfl)

@[simp] theorem isNumber_sub :
    (left - right).IsNumber known kinds ↔
      left.IsNumber known kinds ∧ right.IsNumber known kinds :=
  (kind?_binary .sub left right).trans (and_iff_left rfl)

@[simp] theorem isNumber_mul :
    (left * right).IsNumber known kinds ↔
      left.IsNumber known kinds ∧ right.IsNumber known kinds :=
  (kind?_binary .mul left right).trans (and_iff_left rfl)

@[simp] theorem isNumber_div :
    (left / right).IsNumber known kinds ↔
      left.IsNumber known kinds ∧ right.IsNumber known kinds :=
  (kind?_binary .div left right).trans (and_iff_left rfl)

@[simp] theorem isCondition_lt :
    (left.lt right).IsCondition known kinds ↔
      left.IsNumber known kinds ∧ right.IsNumber known kinds :=
  (kind?_binary .lt left right).trans (and_iff_left rfl)

@[simp] theorem isCondition_le :
    (left.le right).IsCondition known kinds ↔
      left.IsNumber known kinds ∧ right.IsNumber known kinds :=
  (kind?_binary .le left right).trans (and_iff_left rfl)

@[simp] theorem isCondition_gt :
    (left.gt right).IsCondition known kinds ↔
      left.IsNumber known kinds ∧ right.IsNumber known kinds :=
  (kind?_binary .gt left right).trans (and_iff_left rfl)

@[simp] theorem isCondition_ge :
    (left.ge right).IsCondition known kinds ↔
      left.IsNumber known kinds ∧ right.IsNumber known kinds :=
  (kind?_binary .ge left right).trans (and_iff_left rfl)

@[simp] theorem isCondition_equals :
    (left.equals right).IsCondition known kinds ↔
      left.IsNumber known kinds ∧ right.IsNumber known kinds :=
  (kind?_binary .eq left right).trans (and_iff_left rfl)

@[simp] theorem isCondition_differs :
    (left.differs right).IsCondition known kinds ↔
      left.IsNumber known kinds ∧ right.IsNumber known kinds :=
  (kind?_binary .ne left right).trans (and_iff_left rfl)

@[simp] theorem isCondition_and :
    (left.and right).IsCondition known kinds ↔
      left.IsCondition known kinds ∧ right.IsCondition known kinds :=
  (kind?_binary .and left right).trans (and_iff_left rfl)

@[simp] theorem isCondition_or :
    (left.or right).IsCondition known kinds ↔
      left.IsCondition known kinds ∧ right.IsCondition known kinds :=
  (kind?_binary .or left right).trans (and_iff_left rfl)

@[simp] theorem isCondition_not (operand : Expr α) :
    operand.not.IsCondition known kinds ↔ operand.IsCondition known kinds :=
  (kind?_unary .not operand).trans (and_iff_left rfl)

@[simp] theorem isNumber_select (condition yes no : Expr α) :
    (select condition yes no).IsNumber known kinds ↔ condition.IsCondition known kinds ∧
      yes.IsNumber known kinds ∧ no.IsNumber known kinds :=
  (kind?_select condition yes no).trans (and_iff_left rfl)

@[simp] theorem isNumber_call (builtin : Builtin) (arguments : List (Expr α)) :
    (call builtin arguments).IsNumber known kinds ↔
      builtin.takes arguments.length ∧ ∀ expr ∈ arguments, expr.IsNumber known kinds := by
  rw [← areNumbers_iff]
  exact (kind?_call builtin arguments).trans (and_iff_left rfl)

variable [Scalar α]

@[simp] theorem isCondition_isSet (value : Expr α) :
    value.isSet.IsCondition known kinds ↔ value.IsNumber known kinds := by
  simp [isSet]

@[simp] theorem isNumber_flag (condition : Expr α) :
    condition.flag.IsNumber known kinds ↔ condition.IsCondition known kinds := by
  simp [flag]

end Expr

/-! ### Vectors -/

namespace Vec

/-- All components are numbers. -/
def AreNumbers (known : String → Bool) (kinds : Kinds) (u : Vec (Expr α)) : Prop :=
  ∀ axis, (u.get axis).IsNumber known kinds

theorem areNumbers_constant (u : Vec α) : u.constant.AreNumbers known kinds := by
  intro axis
  cases axis <;> exact Expr.isNumber_num _

theorem areNumbers_ofAxes {component : Axis → Expr α}
    (numbers : ∀ axis, (component axis).IsNumber known kinds) :
    (ofAxes component).AreNumbers known kinds := by
  intro axis
  cases axis <;> exact numbers _

theorem areNumbers_positionOf {object : String} (isKnown : known object) :
    (positionOf object : Vec (Expr α)).AreNumbers known kinds :=
  areNumbers_ofAxes fun _ => (Slot.isNumber_readOf _ _).mpr isKnown

theorem areNumbers_forwardOf {object : String} (isKnown : known object) :
    (forwardOf object : Vec (Expr α)).AreNumbers known kinds :=
  areNumbers_ofAxes fun _ => (Slot.isNumber_readOf _ _).mpr isKnown

variable {u v : Vec (Expr α)} (first : u.AreNumbers known kinds) (second : v.AreNumbers known kinds)

include first

section

include second

theorem AreNumbers.add : (u + v).AreNumbers known kinds := by
  intro axis
  have numbers := (Expr.isNumber_add _ _).mpr ⟨first axis, second axis⟩
  cases axis <;> exact numbers

theorem AreNumbers.sub : (u - v).AreNumbers known kinds := by
  intro axis
  have numbers := (Expr.isNumber_sub _ _).mpr ⟨first axis, second axis⟩
  cases axis <;> exact numbers

theorem AreNumbers.dot : (u.dot v).IsNumber known kinds := by
  simp only [Vec.dot, Expr.isNumber_add, Expr.isNumber_mul]
  exact ⟨⟨⟨first .x, second .x⟩, first .y, second .y⟩, first .z, second .z⟩

end

theorem AreNumbers.lengthExpr : u.lengthExpr.IsNumber known kinds := by
  simpa [Vec.lengthExpr, Expr.sqrt, Builtin.takes] using first.dot first

include second

theorem AreNumbers.angleExpr [Trigonometric α] : (u.angleExpr v).IsNumber known kinds := by
  simp [Vec.angleExpr, Builtin.takes, first.dot second, first.lengthExpr, second.lengthExpr]

end Vec

/-! ### Blocks -/

namespace Block

@[simp] theorem after?_nil : after? known kinds ([] : Block α) = some kinds := by
  rw [after?]

@[simp] theorem after?_cons (stmt : Stmt α) (rest : Block α) :
    after? known kinds (stmt :: rest) =
      (stmt.after? known kinds).bind fun kinds => after? known kinds rest := by
  rw [after?]

theorem after?_append (first second : Block α) :
    after? known kinds (first ++ second) =
      (after? known kinds first).bind fun kinds => after? known kinds second := by
  induction first generalizing kinds with
  | nil => simp
  | cons stmt rest inductionHypothesis =>
    simp only [List.cons_append, after?_cons, inductionHypothesis, Option.bind_assoc]

end Block

/-! ### More temporaries -/

section

variable {outer : Kinds}

/-- An expression keeps its kind where more temporaries are in reach. -/
theorem Expr.kind?_append {kind : Kind} : (expr : Expr α) → expr.kind? known kinds = some kind →
    expr.kind? known (kinds ++ outer) = some kind
  | .num value, given => by rwa [Expr.kind?] at given ⊢
  | .prop .this key, given => by rwa [Expr.kind?] at given ⊢
  | .prop (.object id) key, given => by rwa [Expr.kind?] at given ⊢
  | .var name, given => by
    rw [Expr.kind?] at given ⊢
    rw [List.lookup_append, given, Option.some_or]
  | .unary op operand, given => by
    rw [Expr.kind?_unary] at given ⊢
    exact given.imp_left (Expr.kind?_append operand)
  | .binary op left right, given => by
    rw [Expr.kind?_binary] at given ⊢
    exact given.imp_left (And.imp (Expr.kind?_append left) (Expr.kind?_append right))
  | .call builtin arguments, given => by
    rw [Expr.kind?_call] at given ⊢
    exact given.imp_left (And.imp_right fun numbers =>
      Expr.areNumbers_iff.mpr fun argument member =>
        Expr.kind?_append argument (Expr.areNumbers_iff.mp numbers argument member))
  | .select condition yes no, given => by
    rw [Expr.kind?_select] at given ⊢
    exact given.imp_left (And.imp (Expr.kind?_append condition)
      (And.imp (Expr.kind?_append yes) (Expr.kind?_append no)))

mutual

/-- A statement that is sound stays so, and names the same, where more temporaries are in reach. -/
theorem Stmt.after?_outer {kinds next : Kinds} : (stmt : Stmt α) →
    stmt.after? known kinds = some next → stmt.after? known (kinds ++ outer) = some (next ++ outer)
  | .set key value, given => by
    rw [Stmt.after?, Option.ite_none_right_eq_some] at given ⊢
    obtain ⟨number, rfl⟩ := given.imp_right Option.some.inj
    exact ⟨Expr.kind?_append value number, rfl⟩
  | .bind name value, given => by
    rw [Stmt.after?, Option.map_eq_some_iff] at given ⊢
    obtain ⟨kind, isKind, rfl⟩ := given
    exact ⟨kind, Expr.kind?_append value isKind, rfl⟩
  | .branch condition yes no, given => by
    rw [Stmt.after?, Option.ite_none_right_eq_some] at given ⊢
    obtain ⟨⟨decides, soundYes, soundNo⟩, rfl⟩ := given.imp_right Option.some.inj
    obtain ⟨_, afterYes⟩ := Option.isSome_iff_exists.mp soundYes
    obtain ⟨_, afterNo⟩ := Option.isSome_iff_exists.mp soundNo
    exact ⟨⟨Expr.kind?_append condition decides,
      Option.isSome_of_eq_some (Block.after?_outer yes afterYes),
      Option.isSome_of_eq_some (Block.after?_outer no afterNo)⟩, rfl⟩
  | .within object body, given => by
    rw [Stmt.after?, Option.ite_none_right_eq_some] at given ⊢
    obtain ⟨⟨isKnown, sound⟩, rfl⟩ := given.imp_right Option.some.inj
    obtain ⟨_, after⟩ := Option.isSome_iff_exists.mp sound
    exact ⟨⟨isKnown, Option.isSome_of_eq_some (Block.after?_outer body after)⟩, rfl⟩
  | .host call, given => by
    rw [Stmt.after?] at given ⊢
    rw [Option.some.inj given]
  | .comment text, given => by
    rw [Stmt.after?] at given ⊢
    rw [Option.some.inj given]

theorem Block.after?_outer {kinds next : Kinds} : (block : List (Stmt α)) →
    Block.after? known kinds block = some next →
      Block.after? known (kinds ++ outer) block = some (next ++ outer)
  | [], given => by
    rw [Block.after?] at given ⊢
    rw [Option.some.inj given]
  | stmt :: rest, given => by
    rw [Block.after?, Option.bind_eq_some_iff] at given ⊢
    obtain ⟨middle, here, later⟩ := given
    exact ⟨_, Stmt.after?_outer stmt here, Block.after?_outer rest later⟩

end

theorem Block.isSome_outer {kinds : Kinds} (block : Block α)
    (sound : (Block.after? known kinds block).isSome) :
    (Block.after? known (kinds ++ outer) block).isSome := by
  obtain ⟨_, after⟩ := Option.isSome_iff_exists.mp sound
  exact Option.isSome_of_eq_some (Block.after?_outer block after)

end

/-! ### Statements -/

namespace Stmt

theorem after?_write (slot : Slot) {value : Expr α} (number : value.IsNumber known kinds) :
    (slot.write value).after? known kinds = some kinds := by
  rw [Slot.write, after?]
  exact if_pos number

theorem after?_bind (name : String) {value : Expr α} {kind : Kind}
    (isKind : value.kind? known kinds = some kind) :
    (bind name value).after? known kinds = some ((name, kind) :: kinds) := by
  rw [after?, isKind]
  rfl

theorem after?_onlyIf {condition : Expr α} {body : Block α}
    (decides : condition.IsCondition known kinds)
    (sound : (Block.after? known kinds body).isSome) :
    (onlyIf condition body).after? known kinds = some kinds := by
  rw [onlyIf, after?]
  exact if_pos ⟨decides, sound, by simp⟩

@[simp] theorem isSound_write (slot : Slot) (value : Expr α) :
    (slot.write value).IsSound known ↔ value.IsNumber known [] := by
  rw [Slot.write, IsSound, after?, Option.isSome_ite]
  rfl

@[simp] theorem isSound_bind (name : String) (value : Expr α) :
    (bind name value).IsSound known ↔ (value.kind? known []).isSome := by
  rw [IsSound, after?, Option.isSome_map]

@[simp] theorem isSound_onlyIf (condition : Expr α) (body : Block α) :
    (onlyIf condition body).IsSound known ↔
      condition.IsCondition known [] ∧ Block.IsSound known body := by
  rw [onlyIf, IsSound, after?, Option.isSome_ite]
  simp [Expr.IsCondition, Block.IsSound]

@[simp] theorem isSound_within (object : String) (body : Block α) :
    (within object body).IsSound known ↔ known object ∧ Block.IsSound known body := by
  rw [IsSound, after?, Option.isSome_ite]
  rfl

@[simp] theorem isSound_host (call : HostCall) : (host call : Stmt α).IsSound known := by
  rw [IsSound, after?]
  rfl

@[simp] theorem isSound_comment (text : String) : (comment text : Stmt α).IsSound known := by
  rw [IsSound, after?]
  rfl

end Stmt

/-! ### Sound blocks -/

namespace Block

theorem IsSound.isSome {block : Block α} (sound : IsSound known block) (kinds : Kinds) :
    (after? known kinds block).isSome :=
  isSome_outer block sound

@[simp] theorem isSound_nil : IsSound known ([] : Block α) := by
  rw [IsSound, after?_nil]
  rfl

/-- What is sound where a block has ended can follow it. -/
theorem isSound_append_of_after {first second : Block α} (ended : after? known [] first = some kinds)
    (sound : (after? known kinds second).isSome) : IsSound known (first ++ second) := by
  rw [IsSound, after?_append, ended]
  exact sound

theorem IsSound.append {first second : Block α} (sound : IsSound known first)
    (sound' : IsSound known second) : IsSound known (first ++ second) := by
  obtain ⟨next, ended⟩ := Option.isSome_iff_exists.mp sound
  exact isSound_append_of_after ended (sound'.isSome next)

theorem IsSound.cons {stmt : Stmt α} {rest : Block α} (sound : stmt.IsSound known)
    (sound' : IsSound known rest) : IsSound known (stmt :: rest) := by
  obtain ⟨next, ended⟩ := Option.isSome_iff_exists.mp sound
  rw [IsSound, after?_cons, ended]
  exact sound'.isSome next

/-- A block is sound if each of its statements is so by itself. -/
theorem isSound_of_forall {block : Block α} (sound : ∀ stmt ∈ block, stmt.IsSound known) :
    IsSound known block := by
  induction block with
  | nil => exact isSound_nil
  | cons stmt rest inductionHypothesis =>
    obtain ⟨here, later⟩ := List.forall_mem_cons.mp sound
    exact .cons here (inductionHypothesis later)

theorem isSound_singleton {stmt : Stmt α} : IsSound known [stmt] ↔ stmt.IsSound known := by
  rw [IsSound, after?_cons, Stmt.IsSound]
  cases stmt.after? known [] <;> simp

/-- A guarded block is sound by itself if the guard and the block are. -/
theorem isSound_guarded {condition : Expr α} {body : Block α}
    (decides : condition.IsCondition known []) (sound : IsSound known body) :
    IsSound known [.onlyIf condition body] :=
  isSound_singleton.mpr ((Stmt.isSound_onlyIf _ _).mpr ⟨decides, sound⟩)

theorem isSound_map {β : Type} {values : List β} {statement : β → Stmt α}
    (sound : ∀ value ∈ values, (statement value).IsSound known) :
    IsSound known (values.map statement) :=
  isSound_of_forall (List.forall_mem_map.mpr sound)

theorem isSound_flatMap {β : Type} {values : List β} {block : β → Block α}
    (sound : ∀ value ∈ values, IsSound known (block value)) :
    IsSound known (values.flatMap block) := by
  induction values with
  | nil => exact isSound_nil
  | cons value rest inductionHypothesis =>
    obtain ⟨here, later⟩ := List.forall_mem_cons.mp sound
    exact here.append (inductionHypothesis later)

/-- Numbers are written with the temporaries in reach, and no other ones are named. -/
theorem after?_writes {β : Type} {values : List β} {slot : β → Slot} {written : β → Expr α}
    (numbers : ∀ value ∈ values, (written value).IsNumber known kinds) :
    after? known kinds (values.map fun value => (slot value).write (written value)) =
      some kinds := by
  induction values with
  | nil => exact after?_nil
  | cons value rest inductionHypothesis =>
    obtain ⟨here, later⟩ := List.forall_mem_cons.mp numbers
    rw [List.map_cons, after?_cons, Stmt.after?_write _ here]
    exact inductionHypothesis later

end Block

end Stagecraft
