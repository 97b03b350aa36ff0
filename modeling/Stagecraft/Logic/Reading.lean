/-
Documents as logic. Every kind of expression and statement is an object with the kind as its only
member; each level of nesting opens at least one container.
-/

import Stagecraft.Json.Decoding
import Stagecraft.Logic.Basic

namespace Stagecraft

open Json (Decoder Fields)

namespace Place

def decode : Decoder Place := fun budget json => do
  let choice ← Json.choice? budget json
  match choice.name with
  | "This" => choice.bare? false .this
  | "Object" => (choice.contents? Decoder.text).map .object
  | _ => none

end Place

namespace UnaryOp

def ofName? : String → Option UnaryOp
  | "Neg" => some .neg
  | "Not" => some .not
  | _ => none

def decode : Decoder UnaryOp := fun budget json => do
  let choice ← Json.choice? budget json
  choice.bare? false (← ofName? choice.name)

end UnaryOp

namespace BinaryOp

def ofName? : String → Option BinaryOp
  | "Add" => some .add
  | "Sub" => some .sub
  | "Mul" => some .mul
  | "Div" => some .div
  | "Lt" => some .lt
  | "Le" => some .le
  | "Gt" => some .gt
  | "Ge" => some .ge
  | "Eq" => some .eq
  | "Ne" => some .ne
  | "And" => some .and
  | "Or" => some .or
  | _ => none

def decode : Decoder BinaryOp := fun budget json => do
  let choice ← Json.choice? budget json
  choice.bare? false (← ofName? choice.name)

end BinaryOp

namespace Builtin

def ofName? : String → Option Builtin
  | "Sqrt" => some .sqrt
  | "Acos" => some .acos
  | "Abs" => some .abs
  | "Min" => some .min
  | "Max" => some .max
  | _ => none

def decode : Decoder Builtin := fun budget json => do
  let choice ← Json.choice? budget json
  choice.bare? false (← ofName? choice.name)

end Builtin

namespace Expr

/-- An expression within a budget of containers. -/
def decode : Decoder (Expr Float)
  | 0, _ => none
  | budget + 1, json =>
    match json with
    | .object [("Num", content)] => (Decoder.float budget content).map .num
    | .object [("Prop", content)] => do
      let fields ← Json.record? ["on", "key"] budget content
      return .prop (← fields.get "on" Place.decode) (← fields.get "key" Decoder.text)
    | .object [("Local", content)] => (Decoder.text budget content).map .var
    | .object [("Unary", .list [op, operand])] =>
      match budget with
      | 0 => none
      | budget + 1 => do
        return .unary (← UnaryOp.decode budget op) (← decode budget operand)
    | .object [("Binary", .list [op, left, right])] =>
      match budget with
      | 0 => none
      | budget + 1 => do
        return .binary (← BinaryOp.decode budget op) (← decode budget left)
          (← decode budget right)
    | .object [("Call", .list [builtin, .list arguments])] =>
      match budget with
      | budget + 2 => do
        return .call (← Builtin.decode (budget + 1) builtin) (← arguments.mapM (decode budget))
      | _ => none
    | .object [("Select", .list [condition, yes, no])] =>
      match budget with
      | 0 => none
      | budget + 1 => do
        return .select (← decode budget condition) (← decode budget yes) (← decode budget no)
    | _ => none

end Expr

namespace HostCall

def decode : Decoder HostCall := fun budget json => do
  let choice ← Json.choice? budget json
  match choice.name with
  | "PlaySound" => (choice.contents? Decoder.text).map .playSound
  | "StopSound" => (choice.contents? Decoder.text).map .stopSound
  | _ => none

end HostCall

namespace Stmt

mutual

/-- A statement within a budget of containers. -/
def decode : Decoder (Stmt Float)
  | 0, _ => none
  | budget + 1, json =>
    match json with
    | .object [("Set", content)] => do
      let fields ← Json.record? ["key", "value"] budget content
      return .set (← fields.get "key" Decoder.text) (← fields.get "value" Expr.decode)
    | .object [("Local", content)] => do
      let fields ← Json.record? ["name", "value"] budget content
      return .bind (← fields.get "name" Decoder.text) (← fields.get "value" Expr.decode)
    | .object [("If", content)] =>
      match budget with
      | 0 => none
      | budget + 1 => do
        let fields ← Json.record? ["cond", "then", "otherwise"] (budget + 1) content
        return .branch (← fields.get "cond" Expr.decode)
          (← (fields.members.lookup "then").bind (decodeBlock budget))
          (← (fields.members.lookup "otherwise").bind (decodeBlock budget))
    | .object [("With", content)] =>
      match budget with
      | 0 => none
      | budget + 1 => do
        let fields ← Json.record? ["object", "body"] (budget + 1) content
        return .within (← fields.get "object" Decoder.text)
          (← (fields.members.lookup "body").bind (decodeBlock budget))
    | .object [("Host", content)] => (HostCall.decode budget content).map .host
    | .object [("Comment", content)] => (Decoder.text budget content).map .comment
    | _ => none

def decodeBlock : Decoder (Block Float)
  | budget + 1, .list stmts => stmts.mapM (decode budget)
  | _, _ => none

end

end Stmt

namespace Block

def decode : Decoder (Block Float) := Stmt.decodeBlock

end Block

namespace Phases

def decode : Decoder (Phases Float) := fun budget json => do
  let fields ← Json.record? ["enter", "continue", "exit"] budget json
  return {
    enter := ← fields.get "enter" Block.decode
    advance := ← fields.get "continue" Block.decode
    exit := ← fields.get "exit" Block.decode }

end Phases

end Stagecraft
