/-
Scenes put together piece by piece. A new object stands at the origin, unturned, visible and
without logic; a new action works on the object that carries it. Changes of timelines and triggers
happen at once, so their actions are built without a duration.
-/

import Stagecraft.Scene.Basic

namespace Stagecraft

namespace Action

variable {α : Type}

def ofKind (kind : ActionKind α) (duration : α) : Action α :=
  { target := none, duration, kind }

/-- An action of a kind that happens at once. -/
def atOnce [Scalar α] (kind : ActionKind α) : Action α :=
  ofKind kind 0

def withTarget (action : Action α) (target : String) : Action α :=
  { action with target := some target }

/-- The action built anew from its parts. -/
def rebuilt [Scalar α] (action : Action α) : Action α :=
  let built := match action.kind with
    | .timeline .. => atOnce action.kind
    | .triggerToggle .. => atOnce action.kind
    | _ => ofKind action.kind action.duration
  match action.target with
  | some target => built.withTarget target
  | none => built

end Action

namespace Trigger

variable {α : Type}

def new (name : String) (condition : Condition α) (epsilon : α) : Trigger α :=
  { name, condition, epsilon, actions := [], remain := false, enabled := true }

def withAction (trigger : Trigger α) (action : Action α) : Trigger α :=
  { trigger with actions := trigger.actions ++ [action] }

def withRemain (trigger : Trigger α) (remain : Bool) : Trigger α :=
  { trigger with remain }

def withEnabled (trigger : Trigger α) (enabled : Bool) : Trigger α :=
  { trigger with enabled }

def rebuilt [Scalar α] (trigger : Trigger α) : Trigger α :=
  let bare := ((new trigger.name trigger.condition trigger.epsilon).withRemain
    trigger.remain).withEnabled trigger.enabled
  trigger.actions.foldl (fun built action => built.withAction action.rebuilt) bare

end Trigger

namespace Timeline

variable {α : Type}

def new (name : String) : Timeline α :=
  { name, autostart := false, entries := [] }

def withAutostart (timeline : Timeline α) (autostart : Bool) : Timeline α :=
  { timeline with autostart }

def withEntry (timeline : Timeline α) (start : α) (action : Action α) : Timeline α :=
  { timeline with entries := timeline.entries ++ [⟨start, action⟩] }

def rebuilt [Scalar α] (timeline : Timeline α) : Timeline α :=
  timeline.entries.foldl (fun built entry => built.withEntry entry.start entry.action.rebuilt)
    ((new timeline.name).withAutostart timeline.autostart)

end Timeline

namespace Group

def new (name : String) : Group :=
  { name, objects := [], groups := [] }

def withObjects (group : Group) (objects : List String) : Group :=
  { group with objects := group.objects ++ objects }

def withGroup (group : Group) (nested : String) : Group :=
  { group with groups := group.groups ++ [nested] }

def rebuilt (group : Group) : Group :=
  group.groups.foldl withGroup ((new group.name).withObjects group.objects)

end Group

namespace SceneObject

variable {α : Type}

def new [Scalar α] (id : String) : SceneObject α where
  id := id
  position := Vec.zero
  orientation := Quaternion.one
  visible := true
  triggers := []
  timelines := []
  linkActions := []
  children := []

def withPosition (object : SceneObject α) (position : Vec α) : SceneObject α :=
  { object with position }

def withVisible (object : SceneObject α) (visible : Bool) : SceneObject α :=
  { object with visible }

def withTrigger (object : SceneObject α) (trigger : Trigger α) : SceneObject α :=
  { object with triggers := object.triggers ++ [trigger] }

def withTimeline (object : SceneObject α) (timeline : Timeline α) : SceneObject α :=
  { object with timelines := object.timelines ++ [timeline] }

def withLinkAction (object : SceneObject α) (action : Action α) : SceneObject α :=
  { object with linkActions := object.linkActions ++ [action] }

def withChild (object child : SceneObject α) : SceneObject α :=
  { object with children := object.children ++ [child] }

/-- The object built anew without its children. -/
def rebuiltAlone [Scalar α] (object : SceneObject α) : SceneObject α :=
  let placed := ((new object.id).withPosition object.position).withVisible object.visible
  let triggered := object.triggers.foldl (fun built trigger => built.withTrigger trigger.rebuilt)
    placed
  let timed := object.timelines.foldl (fun built timeline => built.withTimeline timeline.rebuilt)
    triggered
  object.linkActions.foldl (fun built action => built.withLinkAction action.rebuilt) timed

mutual

def rebuilt [Scalar α] : SceneObject α → SceneObject α
  | ⟨id, position, orientation, visible, triggers, timelines, linkActions, children⟩ =>
    (rebuiltAll children).foldl withChild
      (rebuiltAlone ⟨id, position, orientation, visible, triggers, timelines, linkActions, []⟩)

def rebuiltAll [Scalar α] : List (SceneObject α) → List (SceneObject α)
  | [] => []
  | object :: rest => rebuilt object :: rebuiltAll rest

end

end SceneObject

namespace Scene

variable {α : Type}

def withObject (scene : Scene α) (object : SceneObject α) : Scene α :=
  { scene with objects := scene.objects ++ [object] }

def withGroup (scene : Scene α) (group : Group) : Scene α :=
  { scene with groups := scene.groups ++ [group] }

/-- The scene built anew from its parts. Orientations and the durations of changes that happen at
once are not among them. -/
def rebuilt [Scalar α] (scene : Scene α) : Scene α :=
  scene.groups.foldl (fun built group => built.withGroup group.rebuilt)
    (scene.objects.foldl (fun built object => built.withObject object.rebuilt) empty)

end Scene

end Stagecraft
