/-
What can be wrong with a scene. A fault keeps its cause, and its message is made from it in one
place. Most faults name the part of the scene in which they were found.
-/

import Stagecraft.Decimal.Layout
import Stagecraft.Scene.Basic

namespace Stagecraft

/-- The part of a scene that is being looked at. -/
inductive Context where
  | trigger (name : String)
  | link (object : String)
  | timeline (name : String)
  | group (name : String)
  | named (text : String)
deriving DecidableEq

def Context.text : Context → String
  | .trigger name => "trigger '" ++ name ++ "'"
  | .link object => "object '" ++ object ++ "' link"
  | .timeline name => "timeline '" ++ name ++ "'"
  | .group name => "group '" ++ name ++ "'"
  | .named text => text

/-- What has a name of its own throughout a scene. -/
inductive Named where
  | trigger
  | timeline
  | group
deriving DecidableEq

def Named.text : Named → String
  | .trigger => "trigger"
  | .timeline => "timeline"
  | .group => "group"

inductive Parameter where
  | angle
  | anchor
  | axis
  | direction
  | distance
  | epsilon
  | greatest
  | least
  | normal
  | point
  | position
  | start
  | up
  | volume
deriving DecidableEq

def Parameter.text : Parameter → String
  | .angle => "angle"
  | .anchor => "anchor"
  | .axis => "axis"
  | .direction => "direction"
  | .distance => "distance"
  | .epsilon => "epsilon"
  | .greatest => "max"
  | .least => "min"
  | .normal => "normal"
  | .point => "point"
  | .position => "position"
  | .start => "start"
  | .up => "up"
  | .volume => "volume"

/-- Why parts of an action or a condition do not go together. -/
inductive Conflict where
  | notObjectAction (label : String)
  | instantOnly
  | targetNotAllowed (target : String)
  | relativeToObject
  | relativeLook
  | lookWithoutPosition
  | lookAlongUp
  | changesNothing
  | headLooksAtItself
deriving DecidableEq

def Conflict.text : Conflict → String
  | .notObjectAction label => "'" ++ label ++ "' is not an object action"
  | .instantOnly => "this action is instantaneous; duration must be 0"
  | .targetNotAllowed target => "explicit target '" ++ target ++ "' not allowed here"
  | .relativeToObject => "relative moves take no reference object"
  | .relativeLook => "look-at rotations cannot be relative"
  | .lookWithoutPosition => "look-at needs an absolute position relative to the center"
  | .lookAlongUp => "look direction is parallel to up"
  | .changesNothing => "movement changes neither position nor rotation"
  | .headLooksAtItself => "the head cannot look at itself"

inductive Fault (α : Type) where
  | duplicateObject (id : String)
  | reservedObject (id : String)
  | unknownObject (context : Context) (id : String)
  | unknownGroup (context : Context) (name : String)
  | unknownTimeline (context : Context) (name : String)
  | unknownTrigger (context : Context) (name : String)
  | duplicateName (kind : Named) (name : String)
  | groupCycle (name : String)
  | invalidDuration (context : Context) (duration : α)
  | invalidParameter (context : Context) (parameter : Parameter) (value : α)
  | zeroVector (context : Context) (parameter : Parameter)
  | unsupported (context : Context) (conflict : Conflict)
  | invalidTickRate (rate : α)
deriving DecidableEq

namespace Fault

def numberText (x : Float) : String :=
  Decimal.text Decimal.plain x

def message : Fault Float → String
  | .duplicateObject id => "Duplicate object id: '" ++ id ++ "'"
  | .reservedObject id => "Object id '" ++ id ++ "' is reserved for the host"
  | .unknownObject context id => context.text ++ ": unknown object '" ++ id ++ "'"
  | .unknownGroup context name => context.text ++ ": unknown group '" ++ name ++ "'"
  | .unknownTimeline context name => context.text ++ ": unknown timeline '" ++ name ++ "'"
  | .unknownTrigger context name => context.text ++ ": unknown trigger '" ++ name ++ "'"
  | .duplicateName kind name => "Duplicate " ++ kind.text ++ " name: '" ++ name ++ "'"
  | .groupCycle name => "Group '" ++ name ++ "' contains itself"
  | .invalidDuration context duration =>
    context.text ++ ": invalid duration " ++ numberText duration
  | .invalidParameter context parameter value =>
    context.text ++ ": invalid " ++ parameter.text ++ " " ++ numberText value
  | .zeroVector context parameter =>
    context.text ++ ": " ++ parameter.text ++ " must not be a zero vector"
  | .unsupported context conflict => context.text ++ ": unsupported: " ++ conflict.text
  | .invalidTickRate rate => "Invalid tick rate: " ++ numberText rate

end Fault

end Stagecraft
