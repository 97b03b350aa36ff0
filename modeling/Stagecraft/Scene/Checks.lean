/-
Checks of single values, shared by actions, triggers and timelines.
-/

import Stagecraft.Scene.Fault

namespace Stagecraft

namespace Check

variable {α : Type}

def duration [Scalar α] (context : Context) (value : α) : Except (Fault α) α :=
  if Scalar.isMagnitude value then .ok value else .error (.invalidDuration context value)

def magnitude [Scalar α] (context : Context) (parameter : Parameter) (value : α) :
    Except (Fault α) α :=
  if Scalar.isMagnitude value then .ok value
  else .error (.invalidParameter context parameter value)

def finite [Scalar α] (context : Context) (parameter : Parameter) (value : α) :
    Except (Fault α) α :=
  if Scalar.isFinite value then .ok value
  else .error (.invalidParameter context parameter value)

/-- A vector of finite components; the first other one is at fault. -/
def finiteVec [Scalar α] (context : Context) (parameter : Parameter) (value : Vec α) :
    Except (Fault α) (Vec α) :=
  match value.infinite? with
  | some component => .error (.invalidParameter context parameter component)
  | none => .ok value

/-- The direction of a vector for movements: a vector whose square is zero has none. -/
def unit [Trigonometric α] (context : Context) (parameter : Parameter) (value : Vec α) :
    Except (Fault α) (Vec α) := do
  let value ← finiteVec context parameter value
  if value.dot value == 0 then .error (.zeroVector context parameter) else return value.normalize

/-- The direction of a vector for triggers: the reciprocal of its length must be a positive
number. -/
def direction [Trigonometric α] (context : Context) (parameter : Parameter) (value : Vec α) :
    Except (Fault α) (Vec α) := do
  let value ← finiteVec context parameter value
  match value.normalize? with
  | some unit => return unit
  | none => .error (.zeroVector context parameter)

end Check

end Stagecraft
