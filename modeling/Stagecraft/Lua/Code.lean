/-
The code of chunks on a register machine. A chunk becomes one function, whose constants are numbered
as they come up. A constant with a number beyond one byte takes an instruction to load where others
stand in the instruction that needs them. A branch is a jump, and a jump reaches only so far: a
chunk in which one would have to reach further cannot be loaded, nor can one with too many
constants. Only the size of the code is told here, since nothing else decides what can be loaded.
-/

import Stagecraft.Lua.Syntax
import Std.Data.ExtTreeMap

namespace Stagecraft

namespace Lua

/-- The code of a chunk as far as it is written. -/
structure Code (α : Type) where
  /-- How many instructions there are. -/
  size : Nat
  /-- The texts among the constants, with their numbers. -/
  texts : Std.ExtTreeMap String Nat compare
  /-- The numbers among the constants, in order. -/
  numbers : Array α
  /-- The jumps that lead to the next instruction. -/
  waiting : List Nat
  /-- Whether no jump had to reach too far. -/
  isReachable : Bool

namespace Code

variable {α : Type}

def empty : Code α :=
  { size := 0, texts := ∅, numbers := #[], waiting := [], isReachable := true }

/-- How many instructions a jump can pass over. -/
def longestJump : Nat := 32767

/-- How many constants of a kind there can be. -/
def mostConstants : Nat := 65536

/-- How many constants of a kind can stand in the instruction that needs them. -/
def nearConstants : Nat := 256

def hasFewConstants (code : Code α) : Bool :=
  decide (code.texts.size ≤ mostConstants) && decide (code.numbers.size ≤ mostConstants)

end Code

abbrev Emit (α : Type) := StateM (Code α)

namespace Emit

variable {α : Type}

/-! ### Instructions -/

/-- Write an instruction; gives its place. Jumps that wait lead to it. -/
def instruction : Emit α Nat := modifyGet fun code =>
  (code.size, { code with
    size := code.size + 1
    waiting := []
    isReachable := code.isReachable &&
      code.waiting.all fun start => decide (code.size ≤ start + 1 + Code.longestJump) })

def instructions : Nat → Emit α Unit
  | 0 => pure ()
  | count + 1 => do
    let _ ← instruction
    instructions count

/-- Write a jump that leaves a block. Jumps that wait go on with it instead of to it; gives all
jumps that go its way. -/
def leave : Emit α (List Nat) := modifyGet fun code =>
  (code.size :: code.waiting, { code with size := code.size + 1, waiting := [] })

/-- Let jumps lead to what is written next. -/
def land (jumps : List Nat) : Emit α Unit :=
  modify fun code => { code with waiting := code.waiting ++ jumps }

/-! ### Constants -/

/-- The number of a text among the constants. -/
def textConstant (text : String) : Emit α Nat := modifyGet fun code =>
  match code.texts[text]? with
  | some number => (number, code)
  | none => (code.texts.size, { code with texts := code.texts.insert text code.texts.size })

/-- The number of a number among the constants. -/
def numberConstant [BEq α] (value : α) : Emit α Nat := modifyGet fun code =>
  match code.numbers.findIdx? (· == value) with
  | some number => (number, code)
  | none => (code.numbers.size, { code with numbers := code.numbers.push value })

end Emit

/-! ### Operands -/

/-- Where the value of an expression is. -/
inductive Source (α : Type) where
  | number (value : α)
  | text (value : String)
  | truth (value : Bool)
  | global (name : String)
  /-- A field whose table and key are at hand. -/
  | field
  /-- The register of a local name. -/
  | named
  | register
  /-- The result of the last instruction, whose register is still open. -/
  | result (isNegation : Bool)
  | call
  /-- A comparison, which jumps. -/
  | comparison (place : Nat)

/-- A jump out of an expression, which may take the value with it. -/
structure Exit where
  place : Nat
  carries : Bool

/-- An expression that is not finished: its value, and the jumps that leave it early. -/
structure Operand (α : Type) where
  source : Source α
  whenTrue : List Exit
  whenFalse : List Exit

namespace Operand

variable {α : Type}

def ofSource (source : Source α) : Operand α :=
  ⟨source, [], []⟩

def hasExits (operand : Operand α) : Bool :=
  !operand.whenTrue.isEmpty || !operand.whenFalse.isEmpty

def isNumber (operand : Operand α) : Bool :=
  match operand.source with
  | .number _ => true
  | _ => false

def isConstant (operand : Operand α) : Bool :=
  match operand.source with
  | .number _ | .text _ | .truth _ => true
  | _ => false

/-- Look a name or a field up. -/
def fetched (operand : Operand α) : Emit α (Operand α) := do
  match operand.source with
  | .global name =>
    let _ ← Emit.textConstant name
    let _ ← Emit.instruction
    return { operand with source := .result false }
  | .field =>
    let _ ← Emit.instruction
    return { operand with source := .result false }
  | .call => return { operand with source := .register }
  | _ => return operand

section

variable [Scalar α]

/-- Whether a number is whole and fits sixteen bits; then it is no constant when it is loaded. -/
def isShort (value : α) : Bool :=
  Scalar.round value == value && decide (-(Scalar.ofNat 32768) ≤ value) &&
    decide (value ≤ Scalar.ofNat 32767)

/-- Put what is not in a register of its own into one. -/
def load (operand : Operand α) : Emit α Unit := do
  match operand.source with
  | .number value =>
    if !isShort value then
      let _ ← Emit.numberConstant value
    Emit.instructions 1
  | .text value =>
    let _ ← Emit.textConstant value
    Emit.instructions 1
  | .truth _ => Emit.instructions 1
  | .named => Emit.instructions 1
  | _ => return ()

/-- Put the value into a register of its own. Exits that carry no value are given one: `true` and
`false` are loaded, each in its way. -/
def moved (operand : Operand α) : Emit α (Operand α) := do
  let operand ← operand.fetched
  operand.load
  match operand.source with
  | .comparison _ => Emit.instructions 3
  | _ =>
    if (operand.whenTrue ++ operand.whenFalse).any (!·.carries) then Emit.instructions 4
  return ofSource .register

/-- Put the value into a register, unless it is in one. -/
def placed (operand : Operand α) : Emit α (Operand α) := do
  let operand ← operand.fetched
  match operand.source, operand.hasExits with
  | .named, false => return operand
  | .register, false => return operand
  | _, _ => operand.moved

/-- A value without exits, which may be a constant. -/
def valued (operand : Operand α) : Emit α (Operand α) :=
  if operand.hasExits then operand.placed else operand.fetched

/-! ### Conditions -/

/-- Leave if a value is false, or if it is true; the value is carried along unless it is only the
negation of another one. -/
def exit (operand : Operand α) : Emit α Exit := do
  match operand.source with
  | .result true => return ⟨← Emit.instruction, false⟩
  | _ =>
    Emit.instructions 1
    return ⟨← Emit.instruction, true⟩

/-- Leave with a constant. -/
def exitLoaded (operand : Operand α) : Emit α Exit := do
  operand.load
  return ⟨← Emit.instruction, true⟩

def leaveIfFalse (operand : Operand α) : Emit α (Operand α) := do
  let operand ← operand.fetched
  let exits ← match operand.source with
    | .number _ | .text _ | .truth true => pure []
    | .truth false => return { operand with
        whenTrue := [], whenFalse := operand.whenFalse ++ [← operand.exitLoaded] }
    | .comparison place => pure [⟨place, false⟩]
    | _ => pure [← operand.exit]
  return { operand with whenTrue := [], whenFalse := operand.whenFalse ++ exits }

def leaveIfTrue (operand : Operand α) : Emit α (Operand α) := do
  let operand ← operand.fetched
  let exits ← match operand.source with
    | .truth false => pure []
    | .number _ | .text _ | .truth true => pure [← operand.exitLoaded]
    | .comparison place => pure [⟨place, false⟩]
    | _ => pure [← operand.exit]
  return { operand with whenTrue := operand.whenTrue ++ exits, whenFalse := [] }

/-! ### Operators -/

/-- The exits of a negated value, which carry nothing. -/
def swapped (operand : Operand α) : Operand α :=
  { operand with
    whenTrue := operand.whenFalse.map fun exit => { exit with carries := false }
    whenFalse := operand.whenTrue.map fun exit => { exit with carries := false } }

def negated (operand : Operand α) : Emit α (Operand α) := do
  let operand ← operand.swapped.fetched
  match operand.source with
  | .truth value => return { operand with source := .truth !value }
  | .number _ | .text _ => return { operand with source := .truth false }
  | .comparison _ => return operand
  | _ =>
    Emit.instructions 1
    return { operand with source := .result true }

/-- The opposite of a number; a constant other than zero stays a constant. -/
def opposite (operand : Operand α) : Emit α (Operand α) := do
  match operand.source, operand.hasExits with
  | .number value, false =>
    if value == 0 then opposed operand else return ofSource (.number (-value))
  | _, _ => opposed operand
where
  opposed (operand : Operand α) : Emit α (Operand α) := do
    let _ ← operand.placed
    Emit.instructions 1
    return ofSource (.result false)

/-- The key of a field; a text that is a near constant needs no register. -/
def key (operand : Operand α) : Emit α (Operand α) := do
  let operand ← operand.valued
  match operand.source with
  | .text value =>
    if (← Emit.textConstant value) ≥ Code.nearConstants then
      let _ ← operand.placed
  | _ =>
    let _ ← operand.placed
  return ofSource .field

/-- A number that an instruction can be given without a register. -/
def isNear (operand : Operand α) : Emit α Bool := do
  match operand.source with
  | .number value => return decide ((← Emit.numberConstant value) < Code.nearConstants)
  | _ => return false

/-- The value of an operation on constants, unless it has no constant to stand for it. -/
def folded? (operation : α → α → α) (left right : Operand α) : Option α :=
  match left.source, right.source with
  | .number x, .number y =>
    let value := operation x y
    let isNegativeZero := value == 0 && decide (1 / value < 0)
    if left.hasExits || right.hasExits || !(value == value) || isNegativeZero then none
    else some value
  | _, _ => none

def arithmetic (operation : α → α → α) (left right : Operand α) : Emit α (Operand α) := do
  match folded? operation left right with
  | some value => return ofSource (.number value)
  | none =>
    let right ← right.valued
    let right ← if ← right.isNear then pure right else right.placed
    if !(left.isNumber && !right.isNumber && (← left.isNear)) then
      let _ ← left.placed
    Emit.instructions 1
    return ofSource (.result false)

/-- An equation. A constant is compared to as it is. -/
def equation (left right : Operand α) : Emit α (Operand α) := do
  let left ← left.valued
  let (first, second) := if left.isConstant then (right, left) else (left, right)
  let _ ← first.placed
  let second ← second.valued
  match second.source with
  | .number value =>
    let _ ← Emit.numberConstant value
  | .text value =>
    let _ ← Emit.textConstant value
  | .truth _ => pure ()
  | _ =>
    let _ ← second.placed
  Emit.instructions 1
  return ofSource (.comparison (← Emit.instruction))

/-- A comparison by order. -/
def ordering (left right : Operand α) : Emit α (Operand α) := do
  let _ ← right.placed
  let _ ← left.placed
  Emit.instructions 1
  return ofSource (.comparison (← Emit.instruction))

def isEquation : BinaryOp → Bool
  | .eq | .ne => true
  | _ => false

def operation? : BinaryOp → Option (α → α → α)
  | .add => some (· + ·)
  | .sub => some (· - ·)
  | .mul => some (· * ·)
  | .div => some (· / ·)
  | _ => none

/-- The left operand of an operator, before the right one is looked at. A constant waits. -/
def asLeft (op : BinaryOp) (operand : Operand α) : Emit α (Operand α) :=
  let waits := if isEquation op then operand.isConstant else operand.isNumber
  if waits && !operand.hasExits then return operand else operand.placed

/-- An operator that looks at both of its operands. -/
def combine (op : BinaryOp) (left right : Operand α) : Emit α (Operand α) :=
  match operation? op with
  | some operation => arithmetic operation left right
  | none => if isEquation op then equation left right else ordering left right

end

/-- What is left of `left and right` and of `left or right`, once the left operand has been left. -/
def both (left right : Operand α) : Operand α :=
  { right with whenFalse := right.whenFalse ++ left.whenFalse }

def either (left right : Operand α) : Operand α :=
  { right with whenTrue := right.whenTrue ++ left.whenTrue }

end Operand

variable {α : Type} [Scalar α]

/-! ### Expressions -/

mutual

/-- The code of an expression within the reach of local names. -/
def Exp.emit (locals : List String) : Exp α → Emit α (Operand α)
  | .numeral value => return .ofSource (.number value)
  | .text value => return .ofSource (.text value)
  | .name found =>
    return .ofSource (if locals.contains found then .named else .global found)
  | .index table key => do
    let _ ← (← table.emit locals).placed
    (← key.emit locals).key
  | .member table field => do
    let _ ← (← table.emit locals).placed
    (Operand.ofSource (.text field)).key
  | .unary .not operand => do (← operand.emit locals).negated
  | .unary .neg operand => do (← operand.emit locals).opposite
  | .binary .and left right => do
    let left ← (← left.emit locals).leaveIfFalse
    return .both left (← (← right.emit locals).fetched)
  | .binary .or left right => do
    let left ← (← left.emit locals).leaveIfTrue
    return .either left (← (← right.emit locals).fetched)
  | .binary op left right => do
    let left ← (← left.emit locals).asLeft op
    Operand.combine op left (← right.emit locals)
  | .call callee arguments => do
    let _ ← (← callee.emit locals).moved
    Exp.emitAll locals arguments
    Emit.instructions 1
    return .ofSource .call
  | .choose condition yes no => do
    let condition ← (← condition.emit locals).leaveIfFalse
    let chosen := Operand.both condition (← (← yes.emit locals).fetched)
    return .either (← chosen.leaveIfTrue) (← (← no.emit locals).fetched)

/-- The code that puts values into registers of their own, in order. -/
def Exp.emitAll (locals : List String) : List (Exp α) → Emit α Unit
  | [] => return ()
  | exp :: rest => do
    let _ ← (← exp.emit locals).moved
    Exp.emitAll locals rest

end

/-! ### Statements -/

mutual

/-- The code of a statement; gives the local names after it. -/
def Stat.emit (locals : List String) : Stat α → Emit α (List String)
  | .assign table key value => do
    let _ ← (← table.emit locals).placed
    let _ ← (← key.emit locals).key
    let _ ← (← value.emit locals).placed
    Emit.instructions 1
    return locals
  | .declare name value => do
    let _ ← (← value.emit locals).moved
    return name :: locals
  | .call callee arguments => do
    let _ ← (Exp.call callee arguments).emit locals
    return locals
  | .branch condition yes no => do
    let condition ← (← condition.emit locals).leaveIfFalse
    let exits := condition.whenFalse.map (·.place)
    Stat.emitAll locals yes
    if no.isEmpty then Emit.land exits
    else
      let jumps ← Emit.leave
      Emit.land exits
      Stat.emitAll locals no
      Emit.land jumps
    return locals
  | .scope body => do
    Stat.emitAll locals body
    return locals
  | .comment _ => return locals

def Stat.emitAll (locals : List String) : List (Stat α) → Emit α Unit
  | [] => return ()
  | stat :: rest => do
    let locals ← stat.emit locals
    Stat.emitAll locals rest

end

/-- The code of a chunk, which returns at its end. -/
def Chunk.code (chunk : Chunk α) : Code α :=
  ((do Stat.emitAll [] chunk; Emit.instructions 1 : Emit α Unit).run .empty).2

/-- Whether a chunk can be loaded. -/
def Chunk.isLoadable (chunk : Chunk α) : Bool :=
  chunk.code.isReachable && chunk.code.hasFewConstants

end Lua

end Stagecraft
