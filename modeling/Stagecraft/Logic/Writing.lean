/-
Logic as documents.
-/

import Stagecraft.Json.Writer
import Stagecraft.Logic.Basic

namespace Stagecraft

namespace Place

def toJson : Place → Json
  | .this => .text "This"
  | .object id => .variant "Object" (.text id)

end Place

namespace UnaryOp

def name : UnaryOp → String
  | .neg => "Neg"
  | .not => "Not"

end UnaryOp

namespace BinaryOp

def name : BinaryOp → String
  | .add => "Add"
  | .sub => "Sub"
  | .mul => "Mul"
  | .div => "Div"
  | .lt => "Lt"
  | .le => "Le"
  | .gt => "Gt"
  | .ge => "Ge"
  | .eq => "Eq"
  | .ne => "Ne"
  | .and => "And"
  | .or => "Or"

end BinaryOp

namespace Builtin

def name : Builtin → String
  | .sqrt => "Sqrt"
  | .acos => "Acos"
  | .abs => "Abs"
  | .min => "Min"
  | .max => "Max"

end Builtin

namespace Expr

mutual

def toJson : Expr Float → Json
  | .num value => .variant "Num" (.ofFloat value)
  | .prop place key => .variant "Prop" (.object [("on", place.toJson), ("key", .text key)])
  | .var name => .variant "Local" (.text name)
  | .unary op operand => .variant "Unary" (.list [.text op.name, toJson operand])
  | .binary op left right =>
    .variant "Binary" (.list [.text op.name, toJson left, toJson right])
  | .call builtin arguments =>
    .variant "Call" (.list [.text builtin.name, .list (allToJson arguments)])
  | .select condition yes no =>
    .variant "Select" (.list [toJson condition, toJson yes, toJson no])

def allToJson : List (Expr Float) → List Json
  | [] => []
  | expr :: rest => toJson expr :: allToJson rest

end

end Expr

namespace HostCall

def name : HostCall → String
  | .playSound _ => "PlaySound"
  | .stopSound _ => "StopSound"

def sound : HostCall → String
  | .playSound sound => sound
  | .stopSound sound => sound

def toJson (call : HostCall) : Json :=
  .variant call.name (.text call.sound)

end HostCall

namespace Stmt

mutual

def toJson : Stmt Float → Json
  | .set key value => .variant "Set" (.object [("key", .text key), ("value", value.toJson)])
  | .bind name value =>
    .variant "Local" (.object [("name", .text name), ("value", value.toJson)])
  | .branch condition yes no =>
    .variant "If" (.object [("cond", condition.toJson), ("then", .list (allToJson yes)),
      ("otherwise", .list (allToJson no))])
  | .within object body =>
    .variant "With" (.object [("object", .text object), ("body", .list (allToJson body))])
  | .host call => .variant "Host" call.toJson
  | .comment text => .variant "Comment" (.text text)

def allToJson : List (Stmt Float) → List Json
  | [] => []
  | stmt :: rest => toJson stmt :: allToJson rest

end

end Stmt

namespace Block

def toJson (block : Block Float) : Json :=
  .list (Stmt.allToJson block)

end Block

namespace Phases

def toJson (phases : Phases Float) : Json :=
  .object [("enter", Block.toJson phases.enter), ("continue", Block.toJson phases.advance),
    ("exit", Block.toJson phases.exit)]

end Phases

end Stagecraft
