/-
Settings files in sections. A line holds a section's name in brackets, or a key with a value behind
`=` or `:`, or a key alone. What follows a `;` or `#` is a comment. Names of sections and keys are
read without regard to case, and a key given twice has its last value.
-/

import Stagecraft.Text.Blank

namespace Stagecraft

namespace Ini

/-- What is wrong with a line. Lines count from one. -/
inductive Fault where
  | openBracket (line : Nat)
  | emptyKey (line : Nat)
deriving DecidableEq

/-- The message of a fault. Where a key is missing, its column is told, which is always the first:
lines are looked at without the white space around them. -/
def Fault.message : Fault → String
  | .openBracket line => "line " ++ toString line ++
    ": Found opening bracket for section name but no closing bracket"
  | .emptyKey line => "line " ++ toString line ++ ":0: Key cannot be empty"

structure Entry where
  part : String
  key : String
  value : Option String
deriving DecidableEq

/-! ### Lines -/

inductive Line where
  | blank
  | heading (name : String)
  | entry (key : String) (value : Option String)
deriving DecidableEq

def isCommentMark (c : Char) : Bool :=
  c = ';' || c = '#'

def isDelimiter (c : Char) : Bool :=
  c = '=' || c = ':'

/-- A letter in its small form. Besides the capitals of ASCII, the sign of the kelvin has a small
form in ASCII; no other letter can end up in the name of a setting. -/
def smallLetter (c : Char) : Char :=
  if c = '\u212a' then 'k' else c.toLower

/-- A name with its case and its outer white space taken away. -/
def nameOf (text : List Char) : String :=
  String.ofList ((Text.trim text).map smallLetter)

/-- What stands before the last closing bracket. -/
def beforeLastBracket? (text : List Char) : Option (List Char) :=
  match text.reverse.dropWhile (· != ']') with
  | [] => none
  | _ :: before => some before.reverse

def readLine (number : Nat) (line : List Char) : Except Fault Line :=
  let content := Text.trim ((Text.trim line).takeWhile fun c => !isCommentMark c)
  match content with
  | [] => .ok .blank
  | '[' :: rest =>
    match beforeLastBracket? rest with
    | some name => .ok (.heading (nameOf name))
    | none => .error (.openBracket number)
  | first :: rest =>
    if isDelimiter first then .error (.emptyKey number)
    else
      let key := nameOf (first :: rest.takeWhile fun c => !isDelimiter c)
      match rest.dropWhile fun c => !isDelimiter c with
      | [] => .ok (.entry key none)
      | _ :: value => .ok (.entry key (some (String.ofList (Text.trim value))))

/-! ### Files -/

/-- Lines from a number on, within a part of the file. -/
def readLines (number : Nat) (part : String) : List (List Char) → Except Fault (List Entry)
  | [] => .ok []
  | line :: rest => do
    match ← readLine number line with
    | .blank => readLines (number + 1) part rest
    | .heading name => readLines (number + 1) name rest
    | .entry key value =>
      let entries ← readLines (number + 1) part rest
      return ⟨part, key, value⟩ :: entries

/-- The part of a file before its first heading. -/
def firstPart : String := "default"

/-- Text cut at its line ends. -/
def splitLines : List Char → List (List Char)
  | [] => [[]]
  | '\n' :: rest => [] :: splitLines rest
  | c :: rest =>
    match splitLines rest with
    | [] => [[c]]
    | line :: lines => (c :: line) :: lines

def read (text : String) : Except Fault (List Entry) :=
  readLines 1 firstPart (splitLines text.toList)

/-- The last value of a key. -/
def value? (entries : List Entry) (part key : String) : Option String :=
  (entries.reverse.find? fun entry => entry.part == part && entry.key == key).bind (·.value)

end Ini

end Stagecraft
