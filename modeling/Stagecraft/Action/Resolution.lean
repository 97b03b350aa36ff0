/-
From declared actions to instances: targets are found and parameters checked. Among several faults
of one action the first found is reported, in the order in which things are looked at here.
-/

import Stagecraft.Action.Instance
import Stagecraft.Geometry.Facing
import Stagecraft.Scene.Checks
import Stagecraft.Scene.Directory

namespace Stagecraft

section

variable {α : Type} [Trigonometric α]

/-! ### Movements -/

namespace Shift

def ofPlacement (context : Context) (placement : Placement α) (relative : Bool) :
    Except (Fault α) (Shift α) :=
  match placement.position with
  | none => .ok .stay
  | some position => do
    let position ← Check.finiteVec context .position position
    match placement.reference, relative with
    | .center, true => return .relative position
    | .object _, true => throw (.unsupported context .relativeToObject)
    | .center, false => return .absolute position none
    | .object id, false => return .absolute position (some id)

/-- The object whose position is read when the movement begins. -/
def reference? : Shift α → Option String
  | .absolute _ reference => reference
  | _ => none

end Shift

namespace Turn

def degreesToRadians (angle : α) : α :=
  angle * (Trigonometric.pi / Scalar.ofNat 180)

/-- The orientation that faces from one point to another. -/
def look (context : Context) (source point up : Vec α) : Except (Fault α) (Turn α) := do
  let point ← Check.finiteVec context .point point
  let direction ← Check.unit context .point (point - source)
  let up ← Check.unit context .up up
  match Quaternion.facing? direction up with
  | some orientation => return .absolute orientation
  | none => throw (.unsupported context .lookAlongUp)

/-- The turn of a placement. Facing a point needs to know from where. -/
def ofRotation (context : Context) (shift : Shift α) (relative : Bool) :
    Rotation α → Except (Fault α) (Turn α)
  | .unchanged => .ok .keep
  | .axis axis angle => do
    let angle ← Check.finite context .angle angle
    let axis ← Check.unit context .axis axis
    let radians := degreesToRadians angle
    if relative then return .relative axis radians
    else return .absolute (Quaternion.ofAxisAngle axis radians)
  | .normal direction => do
    let direction ← Check.unit context .normal direction
    let arc := Quaternion.ofArc Vec.unitX direction
    if relative then return .relative arc.toAxisAngle.1 arc.toAxisAngle.2
    else return .absolute arc
  | .lookAt point up =>
    if relative then .error (.unsupported context .relativeLook)
    else match shift with
      | .absolute source none => look context source point up
      | _ => .error (.unsupported context .lookWithoutPosition)

end Turn

namespace Motion

def ofPlacement (context : Context) (placement : Placement α) (relative : Bool) :
    Except (Fault α) (Motion α) := do
  let shift ← Shift.ofPlacement context placement relative
  let turn ← Turn.ofRotation context shift relative placement.rotation
  match shift, turn with
  | .stay, .keep => throw (.unsupported context .changesNothing)
  | _, _ => return { shift, turn }

end Motion

/-! ### Effects -/

namespace Effect

def finalVolume? (context : Context) : SoundChange α → Except (Fault α) (Option α)
  | .start volume =>
    if Scalar.isFinite volume ∧ 0 ≤ volume ∧ volume ≤ 1 then .ok (some volume)
    else .error (.invalidParameter context .volume volume)
  | .stop => .ok none

/-- The effect of a kind that works on the properties of one object. -/
def ofObjectAction (directory : Directory α) (context : Context) :
    ActionKind α → Except (Fault α) (Effect α)
  | .visibility visible => .ok (.fade visible)
  | .move placement relative => do
    let motion ← Motion.ofPlacement context placement relative
    match motion.shift.reference? with
    | some object => directory.requireObject context object
    | none => pure ()
    return .move motion
  | .sound name change => do
    let volume ← finalVolume? context change
    return .sound name volume
  | .reset => .ok .restore
  | kind => .error (.unsupported context (.notObjectAction kind.label))

end Effect

/-! ### Actions -/

namespace Action

/-- No target may be given where the name decides it. -/
def forbidTarget (context : Context) (action : Action α) : Except (Fault α) Unit :=
  match action.target with
  | some target => .error (.unsupported context (.targetNotAllowed target))
  | none => .ok ()

/-- No duration may be given to a change that happens at once. -/
def requireInstant (context : Context) (duration : α) : Except (Fault α) Unit :=
  if duration == 0 then .ok () else .error (.unsupported context .instantOnly)

/-- The targets of an action and its effect on each of them. The owner is the object that carries
the action. -/
def resolveKind (directory : Directory α) (context : Context) (owner : String) (duration : α)
    (action : Action α) : Except (Fault α) (List String × Effect α) :=
  match action.kind with
  | .timeline name change => do
    action.forbidTarget context
    requireInstant context duration
    let target ← directory.timelineOwner context name
    return ([target], .timeline name change)
  | .triggerToggle name enabled => do
    action.forbidTarget context
    requireInstant context duration
    let target ← directory.triggerOwner context name
    return ([target], .toggle name enabled)
  | .group name inner => do
    action.forbidTarget context
    let members ← directory.groupMembers context name
    let effect ← Effect.ofObjectAction directory context inner
    return (members, effect)
  | kind => do
    let target := action.target.getD owner
    directory.requireObject context target
    let effect ← Effect.ofObjectAction directory context kind
    return ([target], effect)

/-- The instance of an action, under a number. -/
def resolve (directory : Directory α) (rate : α) (context : Context) (owner : String)
    (number : Nat) (action : Action α) : Except (Fault α) (Instance α) := do
  let duration ← Check.duration context action.duration
  let (targets, effect) ← action.resolveKind directory context owner duration
  return { number, label := action.kind.label, targets, timing := { duration, rate }, effect }

/-- The instances of several actions, numbered from `first` on. -/
def resolveAll (directory : Directory α) (rate : α) (context : Context) (owner : String) :
    (first : Nat) → List (Action α) → Except (Fault α) (List (Instance α))
  | _, [] => .ok []
  | first, action :: rest => do
    let head ← action.resolve directory rate context owner first
    let tail ← resolveAll directory rate context owner (first + 1) rest
    return head :: tail

end Action

end

end Stagecraft
