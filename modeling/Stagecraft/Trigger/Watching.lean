/-
Watching a sensor from frame to frame. The level of each frame is stored, and the next frame
dispatches where the level changed in the way that counts. A watch that remains dispatches in
every frame on the right side of the change.
-/

import Stagecraft.Effect.Switching
import Stagecraft.Trigger.Sensor

namespace Stagecraft

/-- When to dispatch, from the present and the last level. -/
def Edge.fires {α : Type} (edge : Edge) (remain : Bool) (present wasSet : Expr α) : Expr α :=
  match edge, remain with
  | .rising, false => present.and wasSet.not
  | .rising, true => present
  | .falling, false => wasSet.and present.not
  | .falling, true => present.not

namespace Watch

variable {α : Type} [Trigonometric α]

/-- The temporary that holds the present level. -/
def levelName : String := "cur"

/-- Evaluate a sensor and dispatch. The level is stored after the dispatch, and what else the
sensor stores comes last. -/
def evaluate (watch : Watch) (sensor : Sensor α) (epsilon : α) (remain : Bool)
    (dispatch : Block α) : Block α :=
  let present := .var levelName
  let previous := Slot.watch watch .previous
  sensor.before epsilon watch ++
    .bind levelName (sensor.level epsilon watch) ::
    (if Block.isIdle dispatch then []
      else [.onlyIf (sensor.edge.fires remain present previous.read.isSet) dispatch]) ++
    previous.write present.flag :: sensor.after watch

/-- Whether a trigger is evaluated: as the last toggle says, or as it was declared. -/
def isEnabled (watch : Watch) (declared : Bool) : Expr α :=
  let state := (Slot.watch watch .state).read
  if declared then state.differs (.num Effect.disabledState)
  else state.equals (.num Effect.enabledState)

end Watch

section

variable {α : Type} [Trigonometric α]

/-- What a trigger does in every frame. -/
def Trigger.watch (trigger : Trigger α) (sensor : Sensor α) (dispatch : Block α) : Block α :=
  let watch := .trigger trigger.name
  [.onlyIf (Watch.isEnabled watch trigger.enabled)
    (watch.evaluate sensor trigger.epsilon trigger.remain dispatch)]

/-- What an object with link actions does in every frame. -/
def watchLink (dispatch : Block α) : Block α :=
  .comment "link actions" :: Watch.link.evaluate .selection 0 false dispatch

end

end Stagecraft
