/-
The blocks of every effect, and the phases made of them. An effect that happens at once has its
whole effect in the enter phase.
-/

import Stagecraft.Effect.Fading
import Stagecraft.Effect.Movement
import Stagecraft.Effect.Restoring
import Stagecraft.Effect.Switching

namespace Stagecraft

namespace Effect

variable {α : Type} [Trigonometric α]

/-- The effect at once. -/
def now : Effect α → Block α
  | .fade visible => showNow visible
  | .move motion => moveNow motion
  | .sound name volume => prepareSound name volume ++ settleSound name volume
  | .timeline name change => changeTimeline name change
  | .restore => restoreNow
  | .toggle name enabled => toggleTrigger name enabled

/-- How the effect begins when it takes time. -/
def start (number : Nat) (steps : α) : Effect α → Block α
  | .fade visible => beginFade number steps visible
  | .move motion => beginMotion number steps motion
  | .sound name volume => beginSound number steps name volume
  | .timeline name change => changeTimeline name change
  | .restore => beginRestore number steps
  | .toggle name enabled => toggleTrigger name enabled

/-- What the effect does in a tick. -/
def advance (number : Nat) (steps : α) : Effect α → Block α
  | .fade _ => advanceFade number
  | .move motion => advanceMotion number steps motion
  | .sound name _ => advanceSound number name
  | .timeline .. => []
  | .restore => advanceRestore number
  | .toggle .. => []

/-- The exact end state. -/
def settle (number : Nat) : Effect α → Block α
  | .fade visible => showNow visible
  | .move motion => settleMotion number motion
  | .sound name volume => settleSound name volume
  | .timeline .. => []
  | .restore => settleRestore
  | .toggle .. => []

def phases (effect : Effect α) (number : Nat) (timing : Timing α) : Phases α :=
  if timing.isInstant then { enter := effect.now, advance := [], exit := [] }
  else {
    enter := effect.start number timing.steps
    advance := effect.advance number timing.steps
    exit := effect.settle number }

/-- What a target of the effect does in its first frame, before all else. -/
def setup : Effect α → Block α
  | .restore => capture
  | _ => []

end Effect

end Stagecraft
