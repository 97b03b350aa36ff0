/-
Changes that happen at once: of the state of a timeline, and of whether a trigger is evaluated.
-/

import Stagecraft.Effect.Basic

namespace Stagecraft

namespace Effect

variable {α : Type} [Scalar α]

/-- Run a timeline from its beginning. -/
def rewind (name : String) : Block α :=
  [(Slot.timeline name .running).write (.num 1),
    (Slot.timeline name .started).write (.num 1),
    (Slot.timeline name .elapsed).write (.num 0),
    (Slot.timeline name .cursor).write (.num 0)]

/-- Change the state of a timeline. Going on does nothing to one that was never started. -/
def changeTimeline (name : String) : TimelineChange → Block α
  | .start => rewind name
  | .stop => [(Slot.timeline name .running).write (.num 0)]
  | .continue => [(Slot.timeline name .running).write (Slot.timeline name .started).read]
  | .startIfNotStarted =>
    [.onlyIf ((Slot.timeline name .started).read.equals (.num 0)) (rewind name)]

/-- The state of a trigger that was enabled by an action. -/
def enabledState : α := 1

/-- The state of a trigger that was disabled by an action. -/
def disabledState : α := Scalar.two

def toggleTrigger (name : String) (enabled : Bool) : Block α :=
  [(Slot.watch (.trigger name) .state).write
    (.num (if enabled then enabledState else disabledState))]

end Effect

end Stagecraft
