/-
What Lua chunks do. Besides numbers and conditions there are strings, `nil` for names and objects
that are not there, bags, and the tables and functions that the host provides. An operation on the
wrong kind of value stops the run where it stands, and what was done before remains done. What the
functions of the mathematics library give for numbers is for the host to say.
-/

import Stagecraft.Logic.Meaning
import Stagecraft.Lua.Syntax

namespace Stagecraft

namespace Lua

inductive Library where
  | scene
  | host
  | math
deriving DecidableEq

inductive Function where
  | builtin (builtin : Builtin)
  | playSound
  | stopSound
deriving DecidableEq

inductive Value (α : Type) where
  | nil
  | bool (value : Bool)
  | num (value : α)
  | text (value : String)
  /-- The bag of an object. -/
  | bag (object : String)
  | library (library : Library)
  | function (function : Function)

/-- Why a run stops. -/
inductive RuntimeError where
  | index
  | arithmetic
  | comparison
  | call
  | argument
  | assignment
deriving DecidableEq

namespace Value

variable {α : Type}

def isTruthy : Value α → Bool
  | .nil => false
  | .bool false => false
  | _ => true

def equals [BEq α] : Value α → Value α → Bool
  | .nil, .nil => true
  | .bool x, .bool y => x == y
  | .num x, .num y => x == y
  | .text x, .text y => x == y
  | .bag x, .bag y => x == y
  | .library x, .library y => x == y
  | .function x, .function y => x == y
  | _, _ => false

/-- The number that an operation needs. -/
def number (error : RuntimeError) : Value α → Except RuntimeError α
  | .num value => .ok value
  | _ => .error error

end Value

/-! ### Names and tables -/

abbrev Locals (α : Type) := List (String × Value α)

def builtins : List Builtin := [.sqrt, .acos, .abs, .min, .max]

/-- A name of the global table; unknown names are `nil`. -/
def globalValue {α : Type} (name : String) : Value α :=
  if name = sceneName then .library .scene
  else if name = hostName then .library .host
  else if name = mathName then .library .math
  else .nil

/-- A field of a library table. -/
def Library.field {α : Type} (library : Library) (world : World α) (name : String) : Value α :=
  match library with
  | .scene => if world.hosts name then .bag name else .nil
  | .host =>
    if name = playName then .function .playSound
    else if name = stopName then .function .stopSound
    else .nil
  | .math =>
    match builtins.find? fun builtin => builtinName builtin == name with
    | some builtin => .function (.builtin builtin)
    | none => .nil

section

variable {α : Type} [Scalar α]

/-- `table[key]`. What a bag does not hold reads as zero. -/
def readIndex (world : World α) (table key : Value α) : Except RuntimeError (Value α) :=
  match table, key with
  | .bag object, .text key => .ok (.num (world.read object key))
  | .bag _, _ => .ok (.num 0)
  | .library library, .text name => .ok (library.field world name)
  | .library _, _ => .ok .nil
  | _, _ => .error .index

/-! ### Expressions -/

def applyUnary (op : UnaryOp) (operand : Value α) : Except RuntimeError (Value α) :=
  match op with
  | .neg => (operand.number .arithmetic).map fun x => .num (-x)
  | .not => .ok (.bool (!operand.isTruthy))

def arithmetic (operation : α → α → α) (left right : Value α) :
    Except RuntimeError (Value α) := do
  let x ← left.number .arithmetic
  let y ← right.number .arithmetic
  return .num (operation x y)

def comparison (relation : α → α → Bool) (left right : Value α) :
    Except RuntimeError (Value α) := do
  let x ← left.number .comparison
  let y ← right.number .comparison
  return .bool (relation x y)

/-- An operation that looks at both of its operands. -/
def applyBinary (op : BinaryOp) (left right : Value α) : Except RuntimeError (Value α) :=
  match op with
  | .add => arithmetic (· + ·) left right
  | .sub => arithmetic (· - ·) left right
  | .mul => arithmetic (· * ·) left right
  | .div => arithmetic (· / ·) left right
  | .lt => comparison (fun x y => decide (x < y)) left right
  | .le => comparison (fun x y => decide (x ≤ y)) left right
  | .gt => comparison (fun x y => decide (y < x)) left right
  | .ge => comparison (fun x y => decide (y ≤ x)) left right
  | .eq => .ok (.bool (left.equals right))
  | .ne => .ok (.bool (!left.equals right))
  | .and => .ok (if left.isTruthy then right else left)
  | .or => .ok (if left.isTruthy then left else right)

/-- The functions of the mathematics library. -/
abbrev Mathematics (α : Type) := Builtin → List α → α

variable (math : Mathematics α)

/-- A function of the mathematics library needs numbers, and at least one. -/
def applyFunction (function : Function) (arguments : List (Value α)) :
    Except RuntimeError (Value α) := do
  match function with
  | .builtin builtin =>
    let numbers ← arguments.mapM fun argument => argument.number .argument
    if numbers.isEmpty then .error .argument else return .num (math builtin numbers)
  | _ => return .nil

mutual

def Exp.eval (world : World α) (locals : Locals α) : Exp α → Except RuntimeError (Value α)
  | .numeral value => .ok (.num value)
  | .text content => .ok (.text content)
  | .name found => .ok ((locals.lookup found).getD (globalValue found))
  | .index table key => do
    let table ← table.eval world locals
    let key ← key.eval world locals
    readIndex world table key
  | .member table field => do
    let table ← table.eval world locals
    readIndex world table (.text field)
  | .unary op operand => do
    let operand ← operand.eval world locals
    applyUnary op operand
  | .binary .and left right => do
    let left ← left.eval world locals
    if left.isTruthy then right.eval world locals else .ok left
  | .binary .or left right => do
    let left ← left.eval world locals
    if left.isTruthy then .ok left else right.eval world locals
  | .binary op left right => do
    let left ← left.eval world locals
    let right ← right.eval world locals
    applyBinary op left right
  | .call callee arguments => do
    let callee ← callee.eval world locals
    let arguments ← Exp.evalAll world locals arguments
    match callee with
    | .function function => applyFunction math function arguments
    | _ => .error .call
  | .choose condition yes no => do
    let condition ← condition.eval world locals
    if condition.isTruthy then
      let chosen ← yes.eval world locals
      if chosen.isTruthy then .ok chosen else no.eval world locals
    else no.eval world locals

def Exp.evalAll (world : World α) (locals : Locals α) :
    List (Exp α) → Except RuntimeError (List (Value α))
  | [] => .ok []
  | exp :: rest => do
    let value ← exp.eval world locals
    let values ← Exp.evalAll world locals rest
    return value :: values

end

/-! ### Statements -/

/-- A run that came to its end, or stopped with the world as it was then. -/
abbrev Outcome (α : Type) (β : Type) := Except (RuntimeError × World α) β

/-- What an evaluation in a world gives to a run. -/
def atWorld {β : Type} (world : World α) : Except RuntimeError β → Outcome α β
  | .ok value => .ok value
  | .error error => .error (error, world)

/-- `table[key] = value`. Storing `nil` removes the key. -/
def writeIndex (world : World α) (table key value : Value α) : Outcome α (World α) :=
  match table, key, value with
  | .bag object, .text key, .num value => .ok (world.write object key value)
  | .bag object, .text key, .nil => .ok (world.clear object key)
  | .bag _, _, _ => .error (.assignment, world)
  | _, _, _ => .error (.index, world)

/-- A call for its effect. A call on no object is made on the object without a name. -/
def callFunction (world : World α) (callee : Value α) (arguments : List (Value α)) :
    Outcome α (World α) :=
  let object := match arguments.head? with
    | some (.bag object) => object
    | _ => ""
  match callee, arguments with
  | .function .playSound, [_, .text sound] => .ok (world.call object (.playSound sound))
  | .function .stopSound, [_, .text sound] => .ok (world.call object (.stopSound sound))
  | .function (.builtin builtin), arguments =>
    (atWorld world (applyFunction math (.builtin builtin) arguments)).map fun _ => world
  | .function _, _ => .error (.argument, world)
  | _, _ => .error (.call, world)

mutual

def Stat.run (locals : Locals α) (world : World α) :
    Stat α → Outcome α (Locals α × World α)
  | .assign table key value => do
    let table ← atWorld world (table.eval math world locals)
    let key ← atWorld world (key.eval math world locals)
    let value ← atWorld world (value.eval math world locals)
    let world ← writeIndex world table key value
    return (locals, world)
  | .declare name value => do
    let value ← atWorld world (value.eval math world locals)
    return ((name, value) :: locals, world)
  | .call callee arguments => do
    let callee ← atWorld world (callee.eval math world locals)
    let arguments ← atWorld world (Exp.evalAll math world locals arguments)
    let world ← callFunction math world callee arguments
    return (locals, world)
  | .branch condition yes no => do
    let condition ← atWorld world (condition.eval math world locals)
    let world ← if condition.isTruthy then Chunk.runAll locals world yes
      else Chunk.runAll locals world no
    return (locals, world)
  | .scope body => do
    let world ← Chunk.runAll locals world body
    return (locals, world)
  | .comment _ => .ok (locals, world)

def Chunk.runAll (locals : Locals α) (world : World α) : List (Stat α) → Outcome α (World α)
  | [] => .ok world
  | stat :: rest => do
    let (locals, world) ← stat.run locals world
    Chunk.runAll locals world rest

end

/-- Run a chunk on an object: its bag has the name `o`. -/
def Chunk.run (chunk : Chunk α) (object : String) (world : World α) : Outcome α (World α) :=
  Chunk.runAll math [(bagName, .bag object)] world chunk

end

end Lua

end Stagecraft
