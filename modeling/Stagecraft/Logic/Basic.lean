/-
The logic of objects. Each object has a bag of named numbers, and logic is a list of statements
that read and write bags. Numbers are stored, and conditions occur only where a decision is made;
a condition becomes a number through `flag`.
-/

import Stagecraft.Geometry.Quaternion

namespace Stagecraft

/-- Whose bag is read: that of the object the logic runs on, or a named one. -/
inductive Place where
  | this
  | object (id : String)
deriving DecidableEq

inductive UnaryOp where
  | neg
  | not
deriving DecidableEq

inductive BinaryOp where
  | add
  | sub
  | mul
  | div
  | lt
  | le
  | gt
  | ge
  | eq
  | ne
  | and
  | or
deriving DecidableEq

def BinaryOp.isComparison : BinaryOp → Bool
  | .lt | .le | .gt | .ge | .eq | .ne => true
  | _ => false

inductive Builtin where
  | sqrt
  | acos
  | abs
  | min
  | max
deriving DecidableEq

inductive Expr (α : Type) where
  | num (value : α)
  | prop (place : Place) (key : String)
  /-- A temporary of the fragment. -/
  | var (name : String)
  | unary (op : UnaryOp) (operand : Expr α)
  | binary (op : BinaryOp) (left right : Expr α)
  | call (builtin : Builtin) (arguments : List (Expr α))
  /-- One of two numbers. -/
  | select (condition yes no : Expr α)

/-- What a host does for the object that logic runs on. -/
inductive HostCall where
  | playSound (sound : String)
  | stopSound (sound : String)
deriving DecidableEq

inductive Stmt (α : Type) where
  | set (key : String) (value : Expr α)
  /-- Name a value for the rest of the enclosing block. -/
  | bind (name : String) (value : Expr α)
  | branch (condition : Expr α) (yes no : List (Stmt α))
  /-- Run a block on another object. -/
  | within (object : String) (body : List (Stmt α))
  | host (call : HostCall)
  | comment (text : String)

abbrev Block (α : Type) := List (Stmt α)

/-! ### Building -/

namespace Expr

variable {α : Type}

instance : Add (Expr α) := ⟨binary .add⟩

instance : Sub (Expr α) := ⟨binary .sub⟩

instance : Mul (Expr α) := ⟨binary .mul⟩

instance : Div (Expr α) := ⟨binary .div⟩

def lt : Expr α → Expr α → Expr α := binary .lt

def le : Expr α → Expr α → Expr α := binary .le

def gt : Expr α → Expr α → Expr α := binary .gt

def ge : Expr α → Expr α → Expr α := binary .ge

def equals : Expr α → Expr α → Expr α := binary .eq

def differs : Expr α → Expr α → Expr α := binary .ne

def and : Expr α → Expr α → Expr α := binary .and

def or : Expr α → Expr α → Expr α := binary .or

def not : Expr α → Expr α := unary .not

def sqrt (operand : Expr α) : Expr α := call .sqrt [operand]

/-- The number differs from zero. -/
def isSet [Scalar α] (value : Expr α) : Expr α :=
  value.differs (num 0)

/-- One where the condition holds, and zero elsewhere. -/
def flag [Scalar α] (condition : Expr α) : Expr α :=
  select condition (num 1) (num 0)

end Expr

namespace Stmt

variable {α : Type}

/-- Run a block where a condition holds. -/
def onlyIf (condition : Expr α) (body : Block α) : Stmt α :=
  branch condition body []

end Stmt

/-! ### Effect -/

mutual

/-- Whether running the statement can have an effect. -/
def Stmt.isEffective {α : Type} : Stmt α → Bool
  | .comment _ => false
  | .branch _ yes no => Block.isEffective yes || Block.isEffective no
  | .within _ body => Block.isEffective body
  | _ => true

def Block.isEffective {α : Type} : List (Stmt α) → Bool
  | [] => false
  | stmt :: rest => stmt.isEffective || Block.isEffective rest

end

/-- Running the block has no effect. -/
def Block.isIdle {α : Type} (block : Block α) : Bool :=
  !Block.isEffective block

/-! ### Phases -/

/-- The points of a frame at which logic runs. -/
inductive Phase where
  | enter
  | advance
  | exit
deriving DecidableEq

def Phase.all : List Phase := [.enter, .advance, .exit]

/-- Hosts call the middle phase by another word than this library. -/
def Phase.name : Phase → String
  | .enter => "enter"
  | .advance => "continue"
  | .exit => "exit"

/-- One block for each phase. -/
structure Phases (α : Type) where
  enter : Block α
  advance : Block α
  exit : Block α

namespace Phases

variable {α : Type}

def get (phases : Phases α) : Phase → Block α
  | .enter => phases.enter
  | .advance => phases.advance
  | .exit => phases.exit

def isIdle (phases : Phases α) : Bool :=
  Phase.all.all fun phase => Block.isIdle (phases.get phase)

end Phases

/-! ### Equality

Equality compares numbers as numbers, so that zero equals its negative and a value that is no
number equals nothing. -/

mutual

def Expr.same {α : Type} [BEq α] : Expr α → Expr α → Bool
  | .num x, .num y => x == y
  | .prop place key, .prop place' key' => place == place' && key == key'
  | .var name, .var name' => name == name'
  | .unary op operand, .unary op' operand' => op == op' && Expr.same operand operand'
  | .binary op left right, .binary op' left' right' =>
    op == op' && Expr.same left left' && Expr.same right right'
  | .call builtin arguments, .call builtin' arguments' =>
    builtin == builtin' && Expr.sameAll arguments arguments'
  | .select condition yes no, .select condition' yes' no' =>
    Expr.same condition condition' && Expr.same yes yes' && Expr.same no no'
  | _, _ => false

def Expr.sameAll {α : Type} [BEq α] : List (Expr α) → List (Expr α) → Bool
  | [], [] => true
  | expr :: rest, expr' :: rest' => Expr.same expr expr' && Expr.sameAll rest rest'
  | _, _ => false

end

instance {α : Type} [BEq α] : BEq (Expr α) := ⟨Expr.same⟩

mutual

def Stmt.same {α : Type} [BEq α] : Stmt α → Stmt α → Bool
  | .set key value, .set key' value' => key == key' && value == value'
  | .bind name value, .bind name' value' => name == name' && value == value'
  | .branch condition yes no, .branch condition' yes' no' =>
    condition == condition' && Stmt.sameAll yes yes' && Stmt.sameAll no no'
  | .within object body, .within object' body' => object == object' && Stmt.sameAll body body'
  | .host call, .host call' => call == call'
  | .comment text, .comment text' => text == text'
  | _, _ => false

def Stmt.sameAll {α : Type} [BEq α] : List (Stmt α) → List (Stmt α) → Bool
  | [], [] => true
  | stmt :: rest, stmt' :: rest' => Stmt.same stmt stmt' && Stmt.sameAll rest rest'
  | _, _ => false

end

instance {α : Type} [BEq α] : BEq (Stmt α) := ⟨Stmt.same⟩

instance {α : Type} [BEq α] : BEq (Phases α) where
  beq first second := first.enter == second.enter && first.advance == second.advance &&
    first.exit == second.exit

end Stagecraft
