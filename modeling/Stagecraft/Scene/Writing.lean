/-
Scenes as documents, with all their fields in a fixed order.
-/

import Stagecraft.Json.Writer
import Stagecraft.Scene.Basic

namespace Stagecraft

namespace Vec

def toJson (u : Vec Float) : Json :=
  .list (u.toList.map Json.ofFloat)

end Vec

namespace Quaternion

def toJson (q : Quaternion Float) : Json :=
  .list (q.toList.map Json.ofFloat)

end Quaternion

namespace Reference

def toJson : Reference → Json
  | .center => .text "center"
  | .object id => .variant "object" (.text id)

end Reference

namespace Rotation

def toJson : Rotation Float → Json
  | .unchanged => .object [("mode", .text "none")]
  | .axis around angle =>
    .object [("mode", .text "axis"), ("axis", around.toJson), ("angle", .ofFloat angle)]
  | .lookAt point up =>
    .object [("mode", .text "look_at"), ("point", point.toJson), ("up", up.toJson)]
  | .normal towards => .object [("mode", .text "normal"), ("normal", towards.toJson)]

end Rotation

namespace Placement

def toJson (placement : Placement Float) : Json :=
  .object [
    ("position", match placement.position with | some position => position.toJson | none => .null),
    ("relative_to", placement.reference.toJson),
    ("rotation", placement.rotation.toJson)]

end Placement

namespace SoundChange

def toJson : SoundChange Float → Json
  | .start volume => .variant "start" (.object [("volume", .ofFloat volume)])
  | .stop => .text "stop"

end SoundChange

namespace ActionKind

/-- The members of an action that say its kind, the kind itself first. -/
def toMembers : ActionKind Float → List (String × Json)
  | .visibility visible => [("kind", .text "visibility"), ("visible", .bool visible)]
  | .move placement relative =>
    [("kind", .text "move"), ("placement", placement.toJson), ("move_relative", .bool relative)]
  | .sound name change =>
    [("kind", .text "sound"), ("sound", .text name), ("change", change.toJson)]
  | .timeline name change =>
    [("kind", .text "timeline"), ("timeline", .text name), ("change", .text change.name)]
  | .group name action =>
    [("kind", .text "group"), ("group", .text name), ("action", .object action.toMembers)]
  | .reset => [("kind", .text "reset")]
  | .triggerToggle name enabled =>
    [("kind", .text "trigger_toggle"), ("trigger", .text name), ("enabled", .bool enabled)]

end ActionKind

namespace Action

def toMembers (action : Action Float) : List (String × Json) :=
  [("target", match action.target with | some target => .text target | none => .null),
    ("duration", .ofFloat action.duration)] ++ action.kind.toMembers

def toJson (action : Action Float) : Json :=
  .object action.toMembers

end Action

namespace TimedAction

def toJson (entry : TimedAction Float) : Json :=
  .object (("start", .ofFloat entry.start) :: entry.action.toMembers)

end TimedAction

namespace Timeline

def toJson (timeline : Timeline Float) : Json :=
  .object [("name", .text timeline.name), ("autostart", .bool timeline.autostart),
    ("actions", .list (timeline.entries.map TimedAction.toJson))]

end Timeline

namespace Subject

def toJson : Subject → Json
  | .head => .text "head"
  | .object id => .variant "object" (.text id)

end Subject

namespace Anchor

def toJson : Anchor Float → Json
  | .point position => .variant "point" position.toJson
  | .object id => .variant "object" (.text id)

end Anchor

namespace LookTarget

def toJson : LookTarget Float → Json
  | .point position => .variant "point" position.toJson
  | .direction towards => .variant "direction" towards.toJson
  | .object id => .variant "object" (.text id)

end LookTarget

namespace Crossing

def toJson : Crossing → Json
  | .enter => .text "enter"
  | .exit => .text "exit"

end Crossing

namespace Condition

def toJson : Condition Float → Json
  | .orientation subject direction angle =>
    .object [("kind", .text "orientation"), ("subject", subject.toJson),
      ("direction", direction.toJson), ("angle", .ofFloat angle)]
  | .proximity subject anchor distance =>
    .object [("kind", .text "proximity"), ("subject", subject.toJson),
      ("anchor", anchor.toJson), ("distance", .ofFloat distance)]
  | .lookAt target angle =>
    .object [("kind", .text "look_at"), ("target", target.toJson), ("angle", .ofFloat angle)]
  | .movement subject distance =>
    .object [("kind", .text "movement"), ("subject", subject.toJson),
      ("distance", .ofFloat distance)]
  | .volume subject least greatest crossing =>
    .object [("kind", .text "volume"), ("subject", subject.toJson), ("min", least.toJson),
      ("max", greatest.toJson), ("edge", crossing.toJson)]

end Condition

namespace Trigger

def toJson (trigger : Trigger Float) : Json :=
  .object [("name", .text trigger.name), ("condition", trigger.condition.toJson),
    ("actions", .list (trigger.actions.map Action.toJson)), ("remain", .bool trigger.remain),
    ("enabled", .bool trigger.enabled), ("epsilon", .ofFloat trigger.epsilon)]

end Trigger

namespace Group

def toJson (group : Group) : Json :=
  .object [("name", .text group.name), ("objects", .list (group.objects.map Json.text)),
    ("groups", .list (group.groups.map Json.text))]

end Group

namespace SceneObject

mutual

def toJson : SceneObject Float → Json
  | ⟨id, position, orientation, visible, triggers, timelines, linkActions, children⟩ =>
    .object [("id", .text id), ("position", position.toJson),
      ("orientation", orientation.toJson), ("visible", .bool visible),
      ("triggers", .list (triggers.map Trigger.toJson)),
      ("timelines", .list (timelines.map Timeline.toJson)),
      ("actions", .list (linkActions.map Action.toJson)), ("children", .list (allToJson children))]

def allToJson : List (SceneObject Float) → List Json
  | [] => []
  | object :: rest => toJson object :: allToJson rest

end

end SceneObject

namespace Scene

def toJson (scene : Scene Float) : Json :=
  .object [("objects", .list (scene.objects.map SceneObject.toJson)),
    ("groups", .list (scene.groups.map Group.toJson))]

/-- The scene on one line. -/
def write (scene : Scene Float) : String :=
  scene.toJson.compact

end Scene

end Stagecraft
