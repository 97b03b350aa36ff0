/-
From declared conditions to sensors. The width of the band is checked first, then the subject, then
what it is compared with, and the threshold last.
-/

import Stagecraft.Scene.Checks
import Stagecraft.Scene.Directory
import Stagecraft.Trigger.Sensor

namespace Stagecraft

variable {α : Type} [Trigonometric α]

namespace Check

def subject (directory : Directory α) (context : Context) (value : Subject) :
    Except (Fault α) String := do
  directory.requireObject context value.id
  return value.id

def anchor (directory : Directory α) (context : Context) :
    Anchor α → Except (Fault α) (Anchor α)
  | .point position => do
    let position ← finiteVec context .anchor position
    return .point position
  | .object id => do
    directory.requireObject context id
    return .object id

def lookTarget (directory : Directory α) (context : Context) :
    LookTarget α → Except (Fault α) (LookTarget α)
  | .point position => do
    let position ← finiteVec context .point position
    return .point position
  | .direction value => do
    let value ← direction context .direction value
    return .direction value
  | .object id =>
    if id = headId then .error (.unsupported context .headLooksAtItself)
    else do
      directory.requireObject context id
      return .object id

/-- No side of a box is turned around; the first one that is reports its upper end. -/
def box (context : Context) (least greatest : Vec α) : Except (Fault α) Unit :=
  match Axis.all.find? fun axis => decide (greatest.get axis < least.get axis) with
  | some axis => .error (.invalidParameter context .greatest (greatest.get axis))
  | none => .ok ()

end Check

namespace Sensor

def ofCondition (directory : Directory α) (context : Context) :
    Condition α → Except (Fault α) (Sensor α)
  | .orientation subject direction angle => do
    let subject ← Check.subject directory context subject
    let direction ← Check.direction context .direction direction
    let angle ← Check.magnitude context .angle angle
    return .orientation subject direction angle
  | .proximity subject anchor distance => do
    let subject ← Check.subject directory context subject
    let anchor ← Check.anchor directory context anchor
    let distance ← Check.magnitude context .distance distance
    return .proximity subject anchor distance
  | .lookAt target angle => do
    let target ← Check.lookTarget directory context target
    let angle ← Check.magnitude context .angle angle
    return .lookAt target angle
  | .movement subject distance => do
    let subject ← Check.subject directory context subject
    let distance ← Check.magnitude context .distance distance
    return .movement subject distance
  | .volume subject least greatest crossing => do
    let subject ← Check.subject directory context subject
    let least ← Check.finiteVec context .least least
    let greatest ← Check.finiteVec context .greatest greatest
    Check.box context least greatest
    return .volume subject least greatest crossing

end Sensor

/-- The sensor of a trigger. -/
def Trigger.sensor (directory : Directory α) (context : Context) (trigger : Trigger α) :
    Except (Fault α) (Sensor α) := do
  let _ ← Check.magnitude context .epsilon trigger.epsilon
  Sensor.ofCondition directory context trigger.condition

end Stagecraft
