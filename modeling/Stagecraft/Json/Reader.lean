/-
Text as a document. The notation is read strictly: no comments, no trailing commas, no leading
zeros, no control characters in strings, and nothing but blanks after the value. Every step reads
at least one character, so the length of the text bounds the work.
-/

import Stagecraft.Json.Basic

namespace Stagecraft

namespace Json

namespace Reader

def isBlank (c : Char) : Bool :=
  c = ' ' ∨ c = '\n' ∨ c = '\t' ∨ c = '\r'

def skipBlanks (chars : List Char) : List Char :=
  chars.dropWhile isBlank

/-! ### Strings -/

/-- A piece of a string: a character, or a code unit given by four hexadecimal digits. -/
inductive Piece where
  | char (c : Char)
  | unit (code : Nat)

def hexValue? (c : Char) : Option Nat :=
  if '0' ≤ c ∧ c ≤ '9' then some (c.toNat - '0'.toNat)
  else if 'a' ≤ c ∧ c ≤ 'f' then some (c.toNat - 'a'.toNat + 10)
  else if 'A' ≤ c ∧ c ≤ 'F' then some (c.toNat - 'A'.toNat + 10)
  else none

def unit? (a b c d : Char) : Option Nat := do
  let a ← hexValue? a
  let b ← hexValue? b
  let c ← hexValue? c
  let d ← hexValue? d
  return ((a * 16 + b) * 16 + c) * 16 + d

/-- The character that a letter after a backslash stands for. -/
def escaped? : Char → Option Char
  | '"' => some '"'
  | '\\' => some '\\'
  | '/' => some '/'
  | 'b' => some '\x08'
  | 'f' => some '\x0c'
  | 'n' => some '\n'
  | 'r' => some '\r'
  | 't' => some '\t'
  | _ => none

/-- The pieces of a string up to its closing quote, and what follows. -/
def pieces : List Char → Option (List Piece × List Char)
  | [] => none
  | '"' :: rest => some ([], rest)
  | '\\' :: 'u' :: a :: b :: c :: d :: rest => do
    let code ← unit? a b c d
    let (tail, rest) ← pieces rest
    return (.unit code :: tail, rest)
  | '\\' :: letter :: rest => do
    let c ← escaped? letter
    let (tail, rest) ← pieces rest
    return (.char c :: tail, rest)
  | c :: rest =>
    if c.toNat < 0x20 ∨ c = '\\' then none
    else do
      let (tail, rest) ← pieces rest
      return (.char c :: tail, rest)

def isHigh (code : Nat) : Bool :=
  0xD800 ≤ code ∧ code < 0xDC00

def isLow (code : Nat) : Bool :=
  0xDC00 ≤ code ∧ code < 0xE000

/-- The characters of a string; surrogates must come in pairs. -/
def join? : List Piece → Option (List Char)
  | [] => some []
  | .char c :: rest => (join? rest).map (c :: ·)
  | .unit high :: .unit low :: rest =>
    if isHigh high then
      if isLow low then
        (join? rest).map (Char.ofNat (0x10000 + (high - 0xD800) * 0x400 + (low - 0xDC00)) :: ·)
      else none
    else if isLow high then none
    else (join? (.unit low :: rest)).map (Char.ofNat high :: ·)
  | .unit code :: rest =>
    if isHigh code ∨ isLow code then none else (join? rest).map (Char.ofNat code :: ·)

/-- A string after its opening quote; the value is missing where surrogates are not paired. -/
def string (chars : List Char) : Option (Option String × List Char) := do
  let (found, rest) ← pieces chars
  return ((join? found).map String.ofList, rest)

/-! ### Numbers -/

def splitDigits (chars : List Char) : List Char × List Char :=
  (chars.takeWhile Char.isDigit, chars.dropWhile Char.isDigit)

/-- A part made of a mark, further signs and at least one digit; absent without the mark. -/
def fraction (chars : List Char) : Option (List Char × List Char) :=
  match chars with
  | '.' :: rest =>
    let (digits, rest) := splitDigits rest
    if digits.isEmpty then none else some ('.' :: digits, rest)
  | _ => some ([], chars)

def exponentSign : List Char → List Char × List Char
  | '+' :: rest => (['+'], rest)
  | '-' :: rest => (['-'], rest)
  | chars => ([], chars)

def exponent (chars : List Char) : Option (List Char × List Char) :=
  match chars with
  | c :: rest =>
    if c = 'e' ∨ c = 'E' then
      let (sign, rest) := exponentSign rest
      let (digits, rest) := splitDigits rest
      if digits.isEmpty then none else some (c :: sign ++ digits, rest)
    else some ([], chars)
  | [] => some ([], [])

/-- The digits before the point: a lone zero, or digits that do not begin with one. -/
def whole (chars : List Char) : Option (List Char × List Char) :=
  match chars with
  | '0' :: rest => some (['0'], rest)
  | _ =>
    let (digits, rest) := splitDigits chars
    if digits.isEmpty then none else some (digits, rest)

/-- A number as it is spelled. -/
def number (chars : List Char) : Option (String × List Char) := do
  let (sign, rest) := match chars with
    | '-' :: rest => (['-'], rest)
    | _ => ([], chars)
  let (whole, rest) ← whole rest
  let (fraction, rest) ← fraction rest
  let (exponent, rest) ← exponent rest
  return (String.ofList (sign ++ whole ++ fraction ++ exponent), rest)

/-! ### Values -/

/-- An object from its members; a key that stands for no text makes it unreadable. -/
def ofMembers (members : List (Option String × Json)) : Json :=
  match members.mapM fun (key, value) => key.map (·, value) with
  | some members => .object members
  | none => .unreadable

/-- A value without parts. -/
def scalar : List Char → Option (Json × List Char)
  | 'n' :: 'u' :: 'l' :: 'l' :: rest => some (.null, rest)
  | 't' :: 'r' :: 'u' :: 'e' :: rest => some (.bool true, rest)
  | 'f' :: 'a' :: 'l' :: 's' :: 'e' :: rest => some (.bool false, rest)
  | '"' :: rest => do
    let (value, rest) ← string rest
    return (match value with | some value => .text value | none => .unreadable, rest)
  | chars => do
    let (spelling, rest) ← number chars
    return (.number spelling, rest)

mutual

/-- A value at the front of a text, and what follows it. -/
def value : Nat → List Char → Option (Json × List Char)
  | 0, _ => none
  | fuel + 1, chars =>
    match skipBlanks chars with
    | '[' :: rest =>
      match skipBlanks rest with
      | ']' :: rest => some (.list [], rest)
      | rest => (items fuel rest).map fun (found, rest) => (.list found, rest)
    | '{' :: rest =>
      match skipBlanks rest with
      | '}' :: rest => some (.object [], rest)
      | rest => (members fuel rest).map fun (found, rest) => (ofMembers found, rest)
    | rest => scalar rest

/-- The items of a list from the first one to the closing bracket. -/
def items : Nat → List Char → Option (List Json × List Char)
  | 0, _ => none
  | fuel + 1, chars => do
    let (item, rest) ← value fuel chars
    match skipBlanks rest with
    | ']' :: rest => some ([item], rest)
    | ',' :: rest => do
      let (tail, rest) ← items fuel rest
      some (item :: tail, rest)
    | _ => none

/-- The members of an object from the first one to the closing brace. -/
def members : Nat → List Char → Option (List (Option String × Json) × List Char)
  | 0, _ => none
  | fuel + 1, chars =>
    match skipBlanks chars with
    | '"' :: rest => do
      let (key, rest) ← string rest
      match skipBlanks rest with
      | ':' :: rest => do
        let (item, rest) ← value fuel rest
        match skipBlanks rest with
        | '}' :: rest => some ([(key, item)], rest)
        | ',' :: rest => do
          let (tail, rest) ← members fuel rest
          some ((key, item) :: tail, rest)
        | _ => none
      | _ => none
    | _ => none

end

end Reader

/-- The document that a text writes. -/
def parse? (document : String) : Option Json := do
  let chars := document.toList
  let (found, rest) ← Reader.value (chars.length + 1) chars
  if (Reader.skipBlanks rest).isEmpty then some found else none

end Json

end Stagecraft
