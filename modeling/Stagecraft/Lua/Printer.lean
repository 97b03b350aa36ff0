/-
Lua as text. A chunk is a list of lines with their nesting levels, and a layout indents them.
Strings are quoted so that no character of theirs can end the string or the line.
-/

import Stagecraft.Decimal.Layout
import Stagecraft.Lua.Syntax

namespace Stagecraft

namespace Lua

/-! ### Expressions -/

def decimalDigit (n : Nat) : Char :=
  Char.ofNat ('0'.toNat + n % 10)

/-- A character inside a string literal; control characters are written with three digits. -/
def escape (c : Char) : List Char :=
  match c with
  | '\\' => ['\\', '\\']
  | '"' => ['\\', '"']
  | '\n' => ['\\', 'n']
  | '\r' => ['\\', 'r']
  | '\t' => ['\\', 't']
  | c =>
    if c.toNat < 0x20 ∨ c.toNat = 0x7f then
      ['\\', decimalDigit (c.toNat / 100), decimalDigit (c.toNat / 10), decimalDigit c.toNat]
    else [c]

/-- The string literal of a text. -/
def quote (text : String) : String :=
  String.ofList ('"' :: text.toList.flatMap escape ++ ['"'])

def unaryText : UnaryOp → String
  | .neg => "-"
  | .not => "not "

def binaryText : BinaryOp → String
  | .add => "+"
  | .sub => "-"
  | .mul => "*"
  | .div => "/"
  | .lt => "<"
  | .le => "<="
  | .gt => ">"
  | .ge => ">="
  | .eq => "=="
  | .ne => "~="
  | .and => "and"
  | .or => "or"

namespace Exp

mutual

def print : Exp Float → String
  | .numeral value => Decimal.text Decimal.plain value
  | .text content => quote content
  | .name found => found
  | .index table key => print table ++ "[" ++ print key ++ "]"
  | .member table field => print table ++ "." ++ field
  | .unary op operand => "(" ++ unaryText op ++ print operand ++ ")"
  | .binary op left right =>
    "(" ++ print left ++ " " ++ binaryText op ++ " " ++ print right ++ ")"
  | .call callee arguments =>
    print callee ++ "(" ++ String.intercalate ", " (printAll arguments) ++ ")"
  | .choose condition yes no =>
    "(" ++ print condition ++ " and " ++ print yes ++ " or " ++ print no ++ ")"

def printAll : List (Exp Float) → List String
  | [] => []
  | exp :: rest => print exp :: printAll rest

end

end Exp

/-! ### Lines -/

/-- A line of text without its indentation. -/
structure Line where
  level : Nat
  text : String
deriving DecidableEq

/-- A comment stays on one line. -/
def oneLine (text : String) : String :=
  text.map fun c => if c = '\n' ∨ c = '\r' then ' ' else c

mutual

def Stat.lines (level : Nat) : Stat Float → List Line
  | .assign table key value =>
    [⟨level, table.print ++ "[" ++ key.print ++ "] = " ++ value.print⟩]
  | .declare name value => [⟨level, "local " ++ name ++ " = " ++ value.print⟩]
  | .call callee arguments => [⟨level, (Exp.call callee arguments).print⟩]
  | .branch condition yes no =>
    ⟨level, "if " ++ condition.print ++ " then"⟩ :: Stat.allLines (level + 1) yes ++
      (if no.isEmpty then [] else ⟨level, "else"⟩ :: Stat.allLines (level + 1) no) ++
      [⟨level, "end"⟩]
  | .scope body => ⟨level, "do"⟩ :: Stat.allLines (level + 1) body ++ [⟨level, "end"⟩]
  | .comment text => [⟨level, "-- " ++ oneLine text⟩]

def Stat.allLines (level : Nat) : List (Stat Float) → List Line
  | [] => []
  | stat :: rest => Stat.lines level stat ++ Stat.allLines level rest

end

/-- How lines are indented: so many spaces for each level, counted from an offset. -/
structure Layout where
  indentWidth : Nat
  offset : Nat
deriving DecidableEq

namespace Layout

def line (layout : Layout) (line : Line) : String :=
  "".pushn ' ' (layout.indentWidth * line.level) ++ line.text ++ "\n"

def text (layout : Layout) (lines : List Line) : String :=
  String.join (lines.map layout.line)

end Layout

def Chunk.print (layout : Layout) (chunk : Chunk Float) : String :=
  layout.text (Stat.allLines layout.offset chunk)

end Lua

namespace Block

/-- The Lua text of a block. -/
def render (layout : Lua.Layout) (block : Block Float) : String :=
  Lua.Chunk.print layout (Lua.ofBlock block)

end Block

end Stagecraft
