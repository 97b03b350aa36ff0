/-
Documents as data. A document keeps what its text says and decides nothing yet: members stay in
their written order with repetitions, and a number stays as it is spelled. A part of the text
that is well formed but stands for no value, such as a string with half a surrogate pair, is kept
as `unreadable`; it harms only a reader who needs it.
-/

import Stagecraft.Decimal.Layout

namespace Stagecraft

inductive Json where
  | null
  | bool (value : Bool)
  | number (spelling : String)
  | text (value : String)
  | list (items : List Json)
  | object (members : List (String × Json))
  | unreadable

namespace Json

/-- Numbers in documents have a point or an exponent: positional from five places after the point
to sixteen digits before it. -/
def numberLayout : Decimal.Layout where
  tie := .even
  isPositional leading := decide (-5 ≤ leading ∧ leading ≤ 15)
  wholeSuffix := ".0"

/-- A double as a document value; a double that is not finite has no spelling. -/
def ofFloat (x : Float) : Json :=
  if x.isFinite then .number (Decimal.text numberLayout x) else .null

def ofNat (n : Nat) : Json :=
  .number (toString n)

/-- A value without contents, or with one, named by its kind. -/
def variant (kind : String) (content : Json) : Json :=
  .object [(kind, content)]

end Json

end Stagecraft
