/-
What one action does to one object. An effect is an action whose parameters have been checked and
whose directions have been worked out; what it means in logic is said in the modules beside this
one. An effect that takes time has three blocks: how it begins, how it advances in a tick, and how
it settles on the exact end state.
-/

import Stagecraft.Logic.Access
import Stagecraft.Scene.Basic
import Stagecraft.Ticks

namespace Stagecraft

/-- How the position changes. -/
inductive Shift (α : Type) where
  | stay
  /-- To an offset, from the position of another object if one is given. -/
  | absolute (offset : Vec α) (reference : Option String)
  | relative (offset : Vec α)

/-- How the orientation changes. The angle of a relative turn is in radians. -/
inductive Turn (α : Type) where
  | keep
  | absolute (goal : Quaternion α)
  | relative (axis : Vec α) (angle : α)

structure Motion (α : Type) where
  shift : Shift α
  turn : Turn α

inductive Effect (α : Type) where
  | fade (visible : Bool)
  | move (motion : Motion α)
  /-- Fade a sound to a volume, or to silence and stop it. -/
  | sound (name : String) (volume : Option α)
  | timeline (name : String) (change : TimelineChange)
  /-- Back to the snapshot. -/
  | restore
  | toggle (trigger : String) (enabled : Bool)

/-- The length of an action in seconds, and the ticks in a second. -/
structure Timing (α : Type) where
  duration : α
  rate : α

namespace Timing

variable {α : Type} [Scalar α] (timing : Timing α)

def isInstant : Bool :=
  timing.duration == 0

def isTimed : Bool :=
  decide (0 < timing.duration)

/-- What a whole change is divided by to get the change in a tick. -/
def steps : α :=
  Ticks.span timing.duration timing.rate

def ticks : Nat :=
  Ticks.count timing.duration timing.rate

end Timing

/-- The change in a tick from one number towards another. -/
def Expr.perTick {α : Type} (target current : Expr α) (steps : α) : Expr α :=
  (target - current) / .num steps

/-- The number of a condition that is known beforehand. -/
def Scalar.ofBool {α : Type} [Scalar α] (condition : Bool) : α :=
  if condition then 1 else 0

end Stagecraft
