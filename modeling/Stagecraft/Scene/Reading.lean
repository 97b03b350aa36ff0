/-
Documents as scenes. Absent fields take their defaults, and fields that are not known are ignored.
-/

import Stagecraft.Json.Decoding
import Stagecraft.Json.Reader
import Stagecraft.Scene.Basic

namespace Stagecraft

open Json (Decoder Fields)

namespace Vec

def decode : Decoder (Vec Float)
  | budget + 1, .list [x, y, z] => do
    return ⟨← Decoder.float budget x, ← Decoder.float budget y, ← Decoder.float budget z⟩
  | _, _ => none

end Vec

namespace Quaternion

def decode : Decoder (Quaternion Float)
  | budget + 1, .list [w, x, y, z] => do
    return ⟨← Decoder.float budget w, ← Decoder.float budget x, ← Decoder.float budget y,
      ← Decoder.float budget z⟩
  | _, _ => none

end Quaternion

/-! Actions and conditions are taken up whole before they are decoded. -/

namespace Reference

def decode : Decoder Reference := fun budget json => do
  let choice ← Json.choice? budget json
  match choice.name with
  | "center" => choice.bare? true .center
  | "object" => (choice.contents? Decoder.text).map .object
  | _ => none

end Reference

namespace Rotation

def modes : List String := ["none", "axis", "look_at", "normal"]

def decode : Decoder (Rotation Float) := fun budget json => do
  let tagged ← Json.tagged? true "mode" modes budget json
  match tagged.tag with
  | "none" => do
    let _ ← tagged.parts.fields? []
    return .unchanged
  | "axis" => do
    let fields ← tagged.parts.fields? ["axis", "angle"]
    return .axis (← fields.get "axis" Vec.decode) (← fields.get "angle" Decoder.float)
  | "look_at" => do
    let fields ← tagged.parts.fields? ["point", "up"]
    return .lookAt (← fields.get "point" Vec.decode) (← fields.get "up" Vec.decode)
  | "normal" => do
    let fields ← tagged.parts.fields? ["normal"]
    return .normal (← fields.get "normal" Vec.decode)
  | _ => none

end Rotation

namespace Placement

def decode : Decoder (Placement Float) := fun budget json => do
  let fields ← Json.record? ["position", "relative_to", "rotation"] budget json
  return {
    position := ← fields.getOr "position" none (Decoder.nullable Vec.decode)
    reference := ← fields.getOr "relative_to" .center Reference.decode
    rotation := ← fields.getOr "rotation" .unchanged Rotation.decode }

end Placement

namespace SoundChange

def decodeVolume : Decoder (SoundChange Float) := fun budget json => do
  let fields ← Json.record? ["volume"] budget json
  return .start (← fields.get "volume" Decoder.float)

def decode : Decoder (SoundChange Float) := fun budget json => do
  let choice ← Json.choice? budget json
  match choice.name with
  | "start" => choice.contents? decodeVolume
  | "stop" => choice.bare? true .stop
  | _ => none

end SoundChange

namespace TimelineChange

def ofName? : String → Option TimelineChange
  | "start" => some .start
  | "stop" => some .stop
  | "continue" => some .continue
  | "start_if_not_started" => some .startIfNotStarted
  | _ => none

def decode : Decoder TimelineChange := fun budget json => do
  let choice ← Json.choice? budget json
  choice.bare? true (← ofName? choice.name)

end TimelineChange

namespace ActionKind

/-- The kind of an action from its tag and its parts, with a decoder for the kind of an action
inside. -/
def ofTagged (inner : Decoder (ActionKind Float)) (tagged : Json.Tagged) :
    Option (ActionKind Float) :=
  match tagged.tag with
  | "visibility" => do
    let fields ← tagged.parts.fields? ["visible"]
    return .visibility (← fields.get "visible" Decoder.bool)
  | "move" => do
    let fields ← tagged.parts.fields? ["placement", "move_relative"]
    return .move (← fields.get "placement" Placement.decode)
      (← fields.getOr "move_relative" false Decoder.bool)
  | "sound" => do
    let fields ← tagged.parts.fields? ["sound", "change"]
    return .sound (← fields.get "sound" Decoder.text) (← fields.get "change" SoundChange.decode)
  | "timeline" => do
    let fields ← tagged.parts.fields? ["timeline", "change"]
    return .timeline (← fields.get "timeline" Decoder.text)
      (← fields.get "change" TimelineChange.decode)
  | "group" => do
    let fields ← tagged.parts.fields? ["group", "action"]
    return .group (← fields.get "group" Decoder.text) (← fields.get "action" inner)
  | "reset" => do
    let _ ← tagged.parts.fields? []
    return .reset
  | "trigger_toggle" => do
    let fields ← tagged.parts.fields? ["trigger", "enabled"]
    return .triggerToggle (← fields.get "trigger" Decoder.text)
      (← fields.get "enabled" Decoder.bool)
  | _ => none

def decode : Decoder (ActionKind Float)
  | 0, _ => none
  | budget + 1, json =>
    (Json.tagged? true "kind" labels (budget + 1) json).bind (ofTagged fun _ => decode budget)

end ActionKind

namespace Action

def ofFields (fields : Fields) : Option (Action Float) := do
  let fields ← fields.distinct? ["target", "duration"]
  return {
    target := ← fields.getOr "target" none (Decoder.nullable Decoder.text)
    duration := ← fields.getOr "duration" 0 Decoder.float
    kind := ← (fields.tagged? true "kind" ActionKind.labels).bind
      (ActionKind.ofTagged ActionKind.decode) }

/-- An action; the members that say its kind are taken up whole. -/
def decode : Decoder (Action Float) := fun budget json => do
  let fields ← Json.object? budget json
  if fields.areReadableBut ["target", "duration"] then ofFields fields else none

end Action

namespace TimedAction

/-- An action with its start; the members of the action are taken up whole. -/
def decode : Decoder (TimedAction Float) := fun budget json => do
  let fields ← Json.object? budget json
  let fields ← fields.distinct? ["start"]
  let start ← fields.get "start" Decoder.float
  if fields.areReadableBut ["start"] then return ⟨start, ← Action.ofFields fields⟩ else none

end TimedAction

namespace Timeline

def decode : Decoder (Timeline Float) := fun budget json => do
  let fields ← Json.record? ["name", "autostart", "actions"] budget json
  return {
    name := ← fields.get "name" Decoder.text
    autostart := ← fields.getOr "autostart" false Decoder.bool
    entries := ← fields.getOr "actions" [] (Decoder.list TimedAction.decode) }

end Timeline

namespace Subject

def decode : Decoder Subject := fun budget json => do
  let choice ← Json.choice? budget json
  match choice.name with
  | "head" => choice.bare? true .head
  | "object" => (choice.contents? Decoder.text).map .object
  | _ => none

end Subject

namespace Anchor

def decode : Decoder (Anchor Float) := fun budget json => do
  let choice ← Json.choice? budget json
  match choice.name with
  | "point" => (choice.contents? Vec.decode).map .point
  | "object" => (choice.contents? Decoder.text).map .object
  | _ => none

end Anchor

namespace LookTarget

def decode : Decoder (LookTarget Float) := fun budget json => do
  let choice ← Json.choice? budget json
  match choice.name with
  | "point" => (choice.contents? Vec.decode).map .point
  | "direction" => (choice.contents? Vec.decode).map .direction
  | "object" => (choice.contents? Decoder.text).map .object
  | _ => none

end LookTarget

namespace Crossing

def decode : Decoder Crossing := fun budget json => do
  let choice ← Json.choice? budget json
  match choice.name with
  | "enter" => choice.bare? true .enter
  | "exit" => choice.bare? true .exit
  | _ => none

end Crossing

namespace Condition

def labels : List String := ["orientation", "proximity", "look_at", "movement", "volume"]

def ofTagged (tagged : Json.Tagged) : Option (Condition Float) :=
  match tagged.tag with
  | "orientation" => do
    let fields ← tagged.parts.fields? ["subject", "direction", "angle"]
    return .orientation (← fields.getOr "subject" .head Subject.decode)
      (← fields.get "direction" Vec.decode) (← fields.get "angle" Decoder.float)
  | "proximity" => do
    let fields ← tagged.parts.fields? ["subject", "anchor", "distance"]
    return .proximity (← fields.getOr "subject" .head Subject.decode)
      (← fields.get "anchor" Anchor.decode) (← fields.get "distance" Decoder.float)
  | "look_at" => do
    let fields ← tagged.parts.fields? ["target", "angle"]
    return .lookAt (← fields.get "target" LookTarget.decode) (← fields.get "angle" Decoder.float)
  | "movement" => do
    let fields ← tagged.parts.fields? ["subject", "distance"]
    return .movement (← fields.getOr "subject" .head Subject.decode)
      (← fields.get "distance" Decoder.float)
  | "volume" => do
    let fields ← tagged.parts.fields? ["subject", "min", "max", "edge"]
    return .volume (← fields.getOr "subject" .head Subject.decode)
      (← fields.get "min" Vec.decode) (← fields.get "max" Vec.decode)
      (← fields.getOr "edge" .enter Crossing.decode)
  | _ => none

/-- A condition: its kind is read by name, and all else is taken up whole. -/
def decode : Decoder (Condition Float) := fun budget json => do
  let tagged ← Json.tagged? false "kind" labels budget json
  if tagged.parts.areReadable then ofTagged tagged else none

end Condition

namespace Trigger

def decode : Decoder (Trigger Float) := fun budget json => do
  let fields ← Json.record?
    ["name", "condition", "actions", "remain", "enabled", "epsilon"] budget json
  return {
    name := ← fields.get "name" Decoder.text
    condition := ← fields.get "condition" Condition.decode
    actions := ← fields.getOr "actions" [] (Decoder.list Action.decode)
    remain := ← fields.getOr "remain" false Decoder.bool
    enabled := ← fields.getOr "enabled" true Decoder.bool
    epsilon := ← fields.get "epsilon" Decoder.float }

end Trigger

namespace Group

def decode : Decoder Group := fun budget json => do
  let fields ← Json.record? ["name", "objects", "groups"] budget json
  return {
    name := ← fields.get "name" Decoder.text
    objects := ← fields.getOr "objects" [] (Decoder.list Decoder.text)
    groups := ← fields.getOr "groups" [] (Decoder.list Decoder.text) }

end Group

namespace SceneObject

def fieldNames : List String :=
  ["id", "position", "orientation", "visible", "triggers", "timelines", "actions", "children"]

/-- An object from its fields, but for its children. -/
def ofFields (fields : Fields) (children : List (SceneObject Float)) :
    Option (SceneObject Float) := do
  return {
    id := ← fields.get "id" Decoder.text
    position := ← fields.getOr "position" Vec.zero Vec.decode
    orientation := ← fields.getOr "orientation" Quaternion.one Quaternion.decode
    visible := ← fields.getOr "visible" true Decoder.bool
    triggers := ← fields.getOr "triggers" [] (Decoder.list Trigger.decode)
    timelines := ← fields.getOr "timelines" [] (Decoder.list Timeline.decode)
    linkActions := ← fields.getOr "actions" [] (Decoder.list Action.decode)
    children }

/-- An object with its children; each level of children opens two containers. -/
def decode : Decoder (SceneObject Float)
  | 0, _ => none
  | budget + 1, json => do
    let fields ← Json.record? fieldNames (budget + 1) json
    let children ← match budget, fields.members.lookup "children" with
      | _, none => some []
      | budget + 1, some (.list items) => items.mapM (decode budget)
      | _, _ => none
    ofFields fields children

end SceneObject

namespace Scene

def decode : Decoder (Scene Float) := fun budget json => do
  let fields ← Json.record? ["objects", "groups"] budget json
  return {
    objects := ← fields.getOr "objects" [] (Decoder.list SceneObject.decode)
    groups := ← fields.getOr "groups" [] (Decoder.list Group.decode) }

/-- The scene of a document that has been read. -/
def ofJson? (json : Json) : Option (Scene Float) :=
  decode Json.nestingLimit json

/-- The scene that a text writes. -/
def parse? (text : String) : Option (Scene Float) :=
  (Json.parse? text).bind ofJson?

end Scene

end Stagecraft
