/-
The part of Lua that logic is written in. Numerals are not negative, and an expression with an
operator stands in parentheses when it is written, so precedence plays no part. The choice between
two values is the idiom `condition and yes or no`.
-/

import Stagecraft.Logic.Basic

namespace Stagecraft

namespace Lua

inductive Exp (α : Type) where
  | numeral (value : α)
  | text (value : String)
  | name (name : String)
  /-- `table[key]` -/
  | index (table key : Exp α)
  /-- `table.field` -/
  | member (table : Exp α) (field : String)
  | unary (op : UnaryOp) (operand : Exp α)
  | binary (op : BinaryOp) (left right : Exp α)
  | call (callee : Exp α) (arguments : List (Exp α))
  /-- `condition and yes or no` -/
  | choose (condition yes no : Exp α)

inductive Stat (α : Type) where
  /-- `table[key] = value` -/
  | assign (table key value : Exp α)
  /-- `local name = value` -/
  | declare (name : String) (value : Exp α)
  | call (callee : Exp α) (arguments : List (Exp α))
  | branch (condition : Exp α) (yes no : List (Stat α))
  /-- `do body end` -/
  | scope (body : List (Stat α))
  | comment (text : String)

abbrev Chunk (α : Type) := List (Stat α)

/-! ### Logic as Lua

A fragment finds the bag of its object under the name `o`, all bags under `scene`, and what the
host does under `host`. -/

def bagName : String := "o"

def sceneName : String := "scene"

def hostName : String := "host"

def mathName : String := "math"

def builtinName : Builtin → String
  | .sqrt => "sqrt"
  | .acos => "acos"
  | .abs => "abs"
  | .min => "min"
  | .max => "max"

def playName : String := "play_sound"

def stopName : String := "stop_sound"

section

variable {α : Type} [Scalar α]

/-- The name that is written for a number which is not finite. -/
def infiniteName (value : α) : String :=
  if value == value then "inf" else "NaN"

/-- A number that is not negative. Both zeros are written alike. -/
def literal (value : α) : Exp α :=
  if value == 0 then .numeral 0
  else if Scalar.isFinite value then .numeral value
  else .name (infiniteName value)

def ofNumber (value : α) : Exp α :=
  if value < 0 then .unary .neg (literal (-value)) else literal value

def bagOf (object : String) : Exp α :=
  .index (.name sceneName) (.text object)

mutual

def ofExpr : Expr α → Exp α
  | .num value => ofNumber value
  | .prop .this key => .index (.name bagName) (.text key)
  | .prop (.object id) key => .index (bagOf id) (.text key)
  | .var name => .name name
  | .unary op operand => .unary op (ofExpr operand)
  | .binary op left right => .binary op (ofExpr left) (ofExpr right)
  | .call builtin arguments =>
    .call (.member (.name mathName) (builtinName builtin)) (ofExprs arguments)
  | .select condition yes no => .choose (ofExpr condition) (ofExpr yes) (ofExpr no)

def ofExprs : List (Expr α) → List (Exp α)
  | [] => []
  | expr :: rest => ofExpr expr :: ofExprs rest

end

def ofCall : HostCall → Stat α
  | .playSound sound => .call (.member (.name hostName) playName) [.name bagName, .text sound]
  | .stopSound sound => .call (.member (.name hostName) stopName) [.name bagName, .text sound]

mutual

def ofStmt : Stmt α → Stat α
  | .set key value => .assign (.name bagName) (.text key) (ofExpr value)
  | .bind name value => .declare name (ofExpr value)
  | .branch condition yes no => .branch (ofExpr condition) (ofStmts yes) (ofStmts no)
  | .within object body => .scope (.declare bagName (bagOf object) :: ofStmts body)
  | .host call => ofCall call
  | .comment text => .comment text

def ofStmts : List (Stmt α) → List (Stat α)
  | [] => []
  | stmt :: rest => ofStmt stmt :: ofStmts rest

end

/-- The chunk of a block; nothing is left of a block without effect. -/
def ofBlock (block : Block α) : Chunk α :=
  if Block.isIdle block then [] else ofStmts block

end

end Lua

end Stagecraft
