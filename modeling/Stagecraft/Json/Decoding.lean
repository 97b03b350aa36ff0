/-
From documents to typed data. A decoder is given how many containers may still be opened. Records
ignore members they do not know, but a known member given twice is an error; a record may also be
written as the list of its values in order. A choice is written as its name, or as an object whose
only member is the name with the contents. A tagged value is an object with its tag among the
members, or a list with its tag in front.

Where the members of an object are shared between several readers, or the kind of a value stands
among its members, the value is taken up whole before it is decoded. Such a value must be readable
down to its last part.
-/

import Stagecraft.Json.Number

namespace Stagecraft

namespace Json

/-- The number of containers that may be open at once. -/
def nestingLimit : Nat := 127

/-- A decoder, given the number of containers that may still be opened. -/
abbrev Decoder (α : Type) := Nat → Json → Option α

namespace Decoder

variable {α : Type}

def text : Decoder String
  | _, .text value => some value
  | _, _ => none

def bool : Decoder Bool
  | _, .bool value => some value
  | _, _ => none

def float : Decoder Float :=
  fun _ json => json.toFloat?

def list (item : Decoder α) : Decoder (List α)
  | budget + 1, .list items => items.mapM (item budget)
  | _, _ => none

/-- A value that may be given as null. -/
def nullable (decode : Decoder α) : Decoder (Option α)
  | _, .null => some none
  | budget, json => (decode budget json).map some

end Decoder

mutual

/-- Whether a value is readable in all its parts, with at most `budget` containers nested. -/
def isReadable : Nat → Json → Bool
  | _, .null => true
  | _, .bool _ => true
  | _, .text _ => true
  | _, .number spelling => (spellingToFloat? spelling).isSome
  | _, .unreadable => false
  | 0, .list _ => false
  | budget + 1, .list items => areReadable budget items
  | 0, .object _ => false
  | budget + 1, .object members => areReadableMembers budget members

def areReadable : Nat → List Json → Bool
  | _, [] => true
  | budget, item :: rest => isReadable budget item && areReadable budget rest

def areReadableMembers : Nat → List (String × Json) → Bool
  | _, [] => true
  | budget, (_, value) :: rest => isReadable budget value && areReadableMembers budget rest

end

/-- The members of an opened object, with the containers that may still be opened inside. -/
structure Fields where
  budget : Nat
  members : List (String × Json)

namespace Fields

variable {α : Type} (fields : Fields)

/-- None of these names is given twice. -/
def areDistinct (names : List String) : Bool :=
  names.all fun name => (fields.members.filter (·.1 == name)).length ≤ 1

/-- The fields, unless one of these names is given twice. -/
def distinct? (names : List String) : Option Fields :=
  if fields.areDistinct names then some fields else none

def get (name : String) (decode : Decoder α) : Option α :=
  (fields.members.lookup name).bind (decode fields.budget)

def getOr (name : String) (absent : α) (decode : Decoder α) : Option α :=
  match fields.members.lookup name with
  | some value => decode fields.budget value
  | none => some absent

/-- Whether all members but the named ones are readable. -/
def areReadableBut (names : List String) : Bool :=
  fields.members.all fun (name, value) =>
    names.contains name || isReadable fields.budget value

end Fields

/-- An object, opened. -/
def object? : Decoder Fields
  | budget + 1, .object members => some ⟨budget, members⟩
  | _, _ => none

/-- What a list or an object holds, with the containers that may still be opened inside. -/
structure Parts where
  budget : Nat
  content : List Json ⊕ List (String × Json)

namespace Parts

variable (parts : Parts)

/-- The parts as fields of these names; the values of a list are those of the first names. -/
def fields? (names : List String) : Option Fields :=
  match parts.content with
  | .inl values =>
    if values.length ≤ names.length then some ⟨parts.budget, names.zip values⟩ else none
  | .inr members => Fields.distinct? ⟨parts.budget, members⟩ names

/-- Whether all parts are readable. -/
def areReadable : Bool :=
  match parts.content with
  | .inl values => Json.areReadable parts.budget values
  | .inr members => Json.areReadableMembers parts.budget members

end Parts

/-- A record with these fields, opened. -/
def record? (names : List String) : Decoder Fields
  | budget + 1, .object members => Parts.fields? ⟨budget, .inr members⟩ names
  | budget + 1, .list values => Parts.fields? ⟨budget, .inl values⟩ names
  | _, _ => none

/-- A choice by name, with contents that some choices have. -/
structure Choice where
  name : String
  content : Option Json
  budget : Nat

def choice? : Decoder Choice
  | budget, .text name => some ⟨name, none, budget⟩
  | budget + 1, .object [(name, content)] => some ⟨name, some content, budget⟩
  | _, _ => none

namespace Choice

variable {α : Type} (choice : Choice)

/-- The contents, which must be there. -/
def contents? (decode : Decoder α) : Option α :=
  choice.content.bind (decode choice.budget)

/-- The value of a choice without contents. In a value taken up whole an empty object says that
there are none. -/
def bare? (whole : Bool) (value : α) : Option α :=
  match choice.content with
  | none => some value
  | some .null => some value
  | some (.object []) => if whole then some value else none
  | some _ => none

end Choice

/-- The tag that a value says. In a value taken up whole it may be the position of the tag among all
tags. -/
def tag? (whole : Bool) (tags : List String) : Json → Option String
  | .text name => if tags.contains name then some name else none
  | value => if whole then value.toNat?.bind (tags[·]?) else none

/-- A tagged value, opened. -/
structure Tagged where
  tag : String
  parts : Parts

/-- The members of an object as a tagged value: the tag is given once. -/
def Fields.tagged? (fields : Fields) (whole : Bool) (label : String) (tags : List String) :
    Option Tagged :=
  match fields.members.filter (·.1 == label) with
  | [(_, value)] =>
    (tag? whole tags value).map fun tag => ⟨tag, fields.budget, .inr fields.members⟩
  | _ => none

def tagged? (whole : Bool) (label : String) (tags : List String) : Decoder Tagged
  | budget + 1, .object members => Fields.tagged? ⟨budget, members⟩ whole label tags
  | budget + 1, .list (value :: values) =>
    (tag? whole tags value).map fun tag => ⟨tag, budget, .inl values⟩
  | _, _ => none

end Json

end Stagecraft
