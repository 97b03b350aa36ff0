/-
Documents as text, on one line or indented by two spaces. An empty container is written closed.
-/

import Stagecraft.Json.Basic

namespace Stagecraft

namespace Json

def hexDigit (n : Nat) : Char :=
  if n < 10 then Char.ofNat ('0'.toNat + n) else Char.ofNat ('a'.toNat + (n - 10))

/-- A character inside a string: quotes, backslashes and control characters are escaped. -/
def escape (c : Char) : String :=
  match c with
  | '"' => "\\\""
  | '\\' => "\\\\"
  | '\n' => "\\n"
  | '\r' => "\\r"
  | '\t' => "\\t"
  | '\x08' => "\\b"
  | '\x0c' => "\\f"
  | c =>
    if c.toNat < 0x20 then
      "\\u00" ++ String.ofList [hexDigit (c.toNat / 16), hexDigit (c.toNat % 16)]
    else c.toString

def quote (text : String) : String :=
  "\"" ++ String.join (text.toList.map escape) ++ "\""

/-- A text in the brackets of a list or an object. -/
def bracket (opening inner closing : String) : String :=
  opening ++ inner ++ closing

def openBrace : String := "\x7b"

def closeBrace : String := "\x7d"

mutual

/-- The document on one line. -/
def compact : Json → String
  | .null => "null"
  | .bool true => "true"
  | .bool false => "false"
  | .number spelling => spelling
  | .text value => quote value
  | .list items => bracket "[" (String.intercalate "," (compactItems items)) "]"
  | .object members => bracket openBrace (String.intercalate "," (compactMembers members)) closeBrace
  | .unreadable => "null"

def compactItems : List Json → List String
  | [] => []
  | item :: rest => compact item :: compactItems rest

def compactMembers : List (String × Json) → List String
  | [] => []
  | (key, value) :: rest => (quote key ++ ":" ++ compact value) :: compactMembers rest

end

/-- The start of a line at a nesting level. -/
def newLine (level : Nat) : String :=
  "\n" ++ "".pushn ' ' (2 * level)

/-- Parts on lines of their own, one level inside the brackets. -/
def spread (level : Nat) (opening : String) (parts : List String) (closing : String) : String :=
  if parts.isEmpty then opening ++ closing
  else bracket (opening ++ newLine (level + 1))
    (String.intercalate ("," ++ newLine (level + 1)) parts) (newLine level ++ closing)

mutual

/-- The document over several lines, starting at a nesting level. -/
def pretty (level : Nat) : Json → String
  | .null => "null"
  | .bool true => "true"
  | .bool false => "false"
  | .number spelling => spelling
  | .text value => quote value
  | .list items => spread level "[" (prettyItems (level + 1) items) "]"
  | .object members => spread level openBrace (prettyMembers (level + 1) members) closeBrace
  | .unreadable => "null"

def prettyItems (level : Nat) : List Json → List String
  | [] => []
  | item :: rest => pretty level item :: prettyItems level rest

def prettyMembers (level : Nat) : List (String × Json) → List String
  | [] => []
  | (key, value) :: rest =>
    (quote key ++ ": " ++ pretty level value) :: prettyMembers level rest

end

end Json

end Stagecraft
