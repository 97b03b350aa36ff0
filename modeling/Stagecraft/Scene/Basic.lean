/-
Scenes. An object stands somewhere, may have children, and carries logic: triggers that watch a
condition, timelines that schedule actions, and link actions for when it is selected. Groups name
sets of objects.
-/

import Stagecraft.Geometry.Quaternion

namespace Stagecraft

/-! ### Actions -/

/-- The frame of an absolute position. -/
inductive Reference where
  | center
  | object (id : String)
deriving DecidableEq

/-- An orientation to take. Angles are in degrees. -/
inductive Rotation (α : Type) where
  | unchanged
  | axis (axis : Vec α) (angle : α)
  /-- Face a point, with an up direction. -/
  | lookAt (point up : Vec α)
  /-- Turn the first axis onto a direction. -/
  | normal (direction : Vec α)
deriving BEq

/-- Where a movement goes. The position is an offset when the movement is relative. -/
structure Placement (α : Type) where
  position : Option (Vec α)
  reference : Reference
  rotation : Rotation α
deriving BEq

inductive SoundChange (α : Type) where
  /-- Play, and fade to a volume between zero and one. -/
  | start (volume : α)
  /-- Fade out, then stop. -/
  | stop
deriving BEq

inductive TimelineChange where
  | start
  | stop
  /-- Go on where it was stopped. -/
  | continue
  | startIfNotStarted
deriving DecidableEq

def TimelineChange.name : TimelineChange → String
  | .start => "start"
  | .stop => "stop"
  | .continue => "continue"
  | .startIfNotStarted => "start_if_not_started"

/-- What an action does. -/
inductive ActionKind (α : Type) where
  | visibility (visible : Bool)
  | move (placement : Placement α) (relative : Bool)
  | sound (name : String) (change : SoundChange α)
  | timeline (name : String) (change : TimelineChange)
  /-- An action on every member of a group. -/
  | group (name : String) (action : ActionKind α)
  /-- Back to the state before the first frame. -/
  | reset
  | triggerToggle (name : String) (enabled : Bool)
deriving BEq

namespace ActionKind

variable {α : Type}

def label : ActionKind α → String
  | .visibility _ => "visibility"
  | .move .. => "move"
  | .sound .. => "sound"
  | .timeline .. => "timeline"
  | .group .. => "group"
  | .reset => "reset"
  | .triggerToggle .. => "trigger_toggle"

/-- The names of all kinds, in a fixed order. -/
def labels : List String :=
  ["visibility", "move", "sound", "timeline", "group", "reset", "trigger_toggle"]

/-- Whether the action works on the properties of a single object. -/
def isObjectAction : ActionKind α → Bool
  | .visibility _ => true
  | .move .. => true
  | .sound .. => true
  | .reset => true
  | _ => false

end ActionKind

/-- An action with its length in seconds; zero means at once. Without a target it works on the
object that carries it. -/
structure Action (α : Type) where
  target : Option String
  duration : α
  kind : ActionKind α
deriving BEq

/-! ### Triggers and timelines -/

/-- The object whose position or direction is watched. -/
inductive Subject where
  | head
  | object (id : String)
deriving DecidableEq

inductive Anchor (α : Type) where
  | point (position : Vec α)
  | object (id : String)
deriving BEq

inductive LookTarget (α : Type) where
  | point (position : Vec α)
  | direction (direction : Vec α)
  | object (id : String)
deriving BEq

/-- The crossing of a boundary that counts. -/
inductive Crossing where
  | enter
  | exit
deriving DecidableEq

/-- What a trigger watches for. Angles are in degrees. -/
inductive Condition (α : Type) where
  /-- The subject faces a direction within an angle. -/
  | orientation (subject : Subject) (direction : Vec α) (angle : α)
  /-- The subject is near a point or an object. -/
  | proximity (subject : Subject) (anchor : Anchor α) (distance : α)
  /-- The head looks at something within an angle. -/
  | lookAt (target : LookTarget α) (angle : α)
  /-- The subject moved since the last frame. -/
  | movement (subject : Subject) (distance : α)
  /-- The subject crosses the sides of a box. -/
  | volume (subject : Subject) (least greatest : Vec α) (crossing : Crossing)
deriving BEq

def Condition.label {α : Type} : Condition α → String
  | .orientation .. => "orientation"
  | .proximity .. => "proximity"
  | .lookAt .. => "look_at"
  | .movement .. => "movement"
  | .volume .. => "volume"

structure Trigger (α : Type) where
  name : String
  condition : Condition α
  actions : List (Action α)
  /-- Dispatch in every frame in which the condition holds, not only when it begins to. -/
  remain : Bool
  enabled : Bool
  /-- Half the width of the band around a threshold. -/
  epsilon : α
deriving BEq

/-- An action and the second at which its timeline dispatches it. -/
structure TimedAction (α : Type) where
  start : α
  action : Action α
deriving BEq

structure Timeline (α : Type) where
  name : String
  autostart : Bool
  entries : List (TimedAction α)
deriving BEq

/-! ### Objects and groups -/

structure SceneObject (α : Type) where
  id : String
  position : Vec α
  orientation : Quaternion α
  visible : Bool
  triggers : List (Trigger α)
  timelines : List (Timeline α)
  /-- What selecting the object dispatches. -/
  linkActions : List (Action α)
  children : List (SceneObject α)

structure Group where
  name : String
  objects : List String
  groups : List String
deriving DecidableEq

structure Scene (α : Type) where
  objects : List (SceneObject α)
  groups : List Group

/-- The id of the viewpoint, which the host keeps. -/
def headId : String := "head"

def Subject.id : Subject → String
  | .head => headId
  | .object id => id

namespace SceneObject

variable {α : Type}

/-- Whether something of the object runs in every frame. -/
def hasLogic (object : SceneObject α) : Bool :=
  !object.triggers.isEmpty || !object.timelines.isEmpty || !object.linkActions.isEmpty

mutual

/-- The object and all below it, parents first. -/
def preorder : SceneObject α → List (SceneObject α)
  | ⟨id, position, orientation, visible, triggers, timelines, linkActions, children⟩ =>
    ⟨id, position, orientation, visible, triggers, timelines, linkActions, children⟩ ::
      preorderAll children

def preorderAll : List (SceneObject α) → List (SceneObject α)
  | [] => []
  | object :: rest => preorder object ++ preorderAll rest

end

mutual

/-- Equality of all parts, where numbers are compared as numbers. -/
def same [BEq α] : SceneObject α → SceneObject α → Bool
  | ⟨id, position, orientation, visible, triggers, timelines, linkActions, children⟩, other =>
    id == other.id && position == other.position && orientation == other.orientation &&
      visible == other.visible && triggers == other.triggers && timelines == other.timelines &&
      linkActions == other.linkActions && sameAll children other.children

def sameAll [BEq α] : List (SceneObject α) → List (SceneObject α) → Bool
  | [], [] => true
  | object :: rest, other :: others => same object other && sameAll rest others
  | _, _ => false

end

instance [BEq α] : BEq (SceneObject α) := ⟨same⟩

end SceneObject

namespace Scene

variable {α : Type}

def empty : Scene α := ⟨[], []⟩

/-- All objects, parents before children. -/
def walk (scene : Scene α) : List (SceneObject α) :=
  SceneObject.preorderAll scene.objects

instance [BEq α] : BEq (Scene α) where
  beq first second := first.objects == second.objects && first.groups == second.groups

end Scene

end Stagecraft
