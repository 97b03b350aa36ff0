/-
What logic does. Only the condition `false` counts as false; `and` and `or` give one of their
operands and look at the second one only if they need it. A temporary that was never named reads
as zero.
-/

import Stagecraft.Logic.World

namespace Stagecraft

inductive Value (α : Type) where
  | num (value : α)
  | bool (value : Bool)

namespace Value

variable {α : Type}

def isTruthy : Value α → Bool
  | .bool false => false
  | _ => true

/-- The value as a number; a condition is one or zero. -/
def number [Scalar α] : Value α → α
  | .num value => value
  | .bool true => 1
  | .bool false => 0

/-- Numbers and conditions never equal each other. -/
def equals [BEq α] : Value α → Value α → Bool
  | .num x, .num y => x == y
  | .bool x, .bool y => x == y
  | _, _ => false

end Value

/-- The temporaries in reach, the latest first. -/
abbrev Locals (α : Type) := List (String × Value α)

/-- The value of a temporary. -/
def Locals.read {α : Type} [Scalar α] (locals : Locals α) (name : String) : Value α :=
  (locals.lookup name).getD (.num 0)

namespace Builtin

variable {α : Type} [Trigonometric α]

/-- A finite number as it stands; another one only if it is within the bound. -/
def bounded (choose : α → α → α) (bound first : α) : α :=
  if Scalar.isFinite first then first else choose bound first

/-- The least or the greatest of some numbers; the bound if there are none. -/
def extreme (choose : α → α → α) (bound : α) : List α → α
  | [] => bound
  | first :: rest => rest.foldl choose (bounded choose bound first)

def apply (builtin : Builtin) (arguments : List α) : α :=
  let first := arguments.head?.getD 0
  match builtin with
  | .sqrt => Trigonometric.sqrt first
  | .acos => Trigonometric.acos first
  | .abs => Scalar.abs first
  | .min => extreme Scalar.min (1 / 0) arguments
  | .max => extreme Scalar.max (-1 / 0) arguments

end Builtin

namespace BinaryOp

variable {α : Type} [Scalar α]

/-- The value of an operation that looks at both of its operands. -/
def apply (op : BinaryOp) (left right : Value α) : Value α :=
  let x := left.number
  let y := right.number
  match op with
  | .add => .num (x + y)
  | .sub => .num (x - y)
  | .mul => .num (x * y)
  | .div => .num (x / y)
  | .lt => .bool (decide (x < y))
  | .le => .bool (decide (x ≤ y))
  | .gt => .bool (decide (y < x))
  | .ge => .bool (decide (y ≤ x))
  | .eq => .bool (left.equals right)
  | .ne => .bool (!left.equals right)
  | .and => if left.isTruthy then right else left
  | .or => if left.isTruthy then left else right

end BinaryOp

namespace UnaryOp

variable {α : Type} [Scalar α]

def apply (op : UnaryOp) (operand : Value α) : Value α :=
  match op with
  | .neg => .num (-operand.number)
  | .not => .bool (!operand.isTruthy)

end UnaryOp

section

variable {α : Type} [Trigonometric α]

mutual

def Expr.eval (world : World α) (this : String) (locals : Locals α) : Expr α → Value α
  | .num value => .num value
  | .prop .this key => .num (world.read this key)
  | .prop (.object id) key => .num (world.read id key)
  | .var name => locals.read name
  | .unary op operand => op.apply (operand.eval world this locals)
  | .binary op left right =>
    op.apply (left.eval world this locals) (right.eval world this locals)
  | .call builtin arguments => .num (builtin.apply (Expr.evalAll world this locals arguments))
  | .select condition yes no =>
    let chosen := yes.eval world this locals
    if (condition.eval world this locals).isTruthy && chosen.isTruthy then chosen
    else no.eval world this locals

def Expr.evalAll (world : World α) (this : String) (locals : Locals α) : List (Expr α) → List α
  | [] => []
  | expr :: rest => (expr.eval world this locals).number :: Expr.evalAll world this locals rest

end

mutual

/-- Run one statement on an object, with the temporaries named so far. -/
def Stmt.run (this : String) (locals : Locals α) (world : World α) :
    Stmt α → Locals α × World α
  | .set key value =>
    (locals, world.write this key (value.eval world this locals).number)
  | .bind name value => ((name, value.eval world this locals) :: locals, world)
  | .branch condition yes no =>
    if (condition.eval world this locals).isTruthy then
      (locals, Block.runAll this locals world yes)
    else (locals, Block.runAll this locals world no)
  | .within object body => (locals, Block.runAll object locals world body)
  | .host call => (locals, world.call this call)
  | .comment _ => (locals, world)

/-- Run statements in order; the temporaries that they name end with them. -/
def Block.runAll (this : String) (locals : Locals α) (world : World α) :
    List (Stmt α) → World α
  | [] => world
  | stmt :: rest =>
    let (locals, world) := stmt.run this locals world
    Block.runAll this locals world rest

end

/-- Run a block on an object. -/
def Block.run (block : Block α) (this : String) (world : World α) : World α :=
  Block.runAll this [] world block

end

end Stagecraft
