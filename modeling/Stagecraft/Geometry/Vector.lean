/-
Vectors over anything that can be added and multiplied. The same products are formed of numbers
and of expressions, so what a script computes and what is computed here share their formulas.
-/

import Stagecraft.Scalar.Basic

namespace Stagecraft

inductive Axis where
  | x
  | y
  | z
deriving DecidableEq

namespace Axis

def all : List Axis := [.x, .y, .z]

def name : Axis → String
  | .x => "x"
  | .y => "y"
  | .z => "z"

end Axis

structure Vec (α : Type) where
  x : α
  y : α
  z : α
deriving BEq, DecidableEq

namespace Vec

variable {α β γ : Type}

def get (u : Vec α) : Axis → α
  | .x => u.x
  | .y => u.y
  | .z => u.z

def ofAxes (component : Axis → α) : Vec α :=
  ⟨component .x, component .y, component .z⟩

def map (f : α → β) (u : Vec α) : Vec β :=
  ⟨f u.x, f u.y, f u.z⟩

def toList (u : Vec α) : List α :=
  [u.x, u.y, u.z]

instance [Add α] : Add (Vec α) where
  add u v := ⟨u.x + v.x, u.y + v.y, u.z + v.z⟩

instance [Sub α] : Sub (Vec α) where
  sub u v := ⟨u.x - v.x, u.y - v.y, u.z - v.z⟩

def scale [Mul α] (u : Vec α) (factor : α) : Vec α :=
  ⟨u.x * factor, u.y * factor, u.z * factor⟩

def dot [Add α] [Mul α] (u v : Vec α) : α :=
  u.x * v.x + u.y * v.y + u.z * v.z

def cross [Sub α] [Mul α] (u v : Vec α) : Vec α :=
  ⟨u.y * v.z - v.y * u.z, u.z * v.x - v.z * u.x, u.x * v.y - v.x * u.y⟩

def zero [Scalar α] : Vec α := ⟨0, 0, 0⟩

def unitX [Scalar α] : Vec α := ⟨1, 0, 0⟩

def unitY [Scalar α] : Vec α := ⟨0, 1, 0⟩

/-- The first component that is not finite. -/
def infinite? [Scalar α] (u : Vec α) : Option α :=
  u.toList.find? fun component => !Scalar.isFinite component

variable [Trigonometric α]

def length (u : Vec α) : α :=
  Trigonometric.sqrt (dot u u)

/-- The vector times the reciprocal of its length. -/
def normalize (u : Vec α) : Vec α :=
  u.scale (1 / u.length)

/-- The normalized vector, where the reciprocal of the length is a positive number. -/
def normalize? (u : Vec α) : Option (Vec α) :=
  let reciprocal := 1 / u.length
  if Scalar.isFinite reciprocal ∧ 0 < reciprocal then some (u.scale reciprocal) else none

end Vec

end Stagecraft
