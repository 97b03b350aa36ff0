/-
What bags hold. A slot is a place for a number by its meaning; `Slot.key` spells it. Names of
triggers, timelines and sounds go into keys as they are, and the fields after them keep the keys
apart.
-/

import Stagecraft.Geometry.Quaternion

namespace Stagecraft

/-- What is seen of an object. -/
inductive Channel where
  | visible
  | alpha
  | position (axis : Axis)
  | orientation (part : Part)
deriving DecidableEq

/-- The state of one action on one target. -/
inductive ActionField where
  /-- Set while the action has not ended. -/
  | active
  /-- Ticks since it began. -/
  | elapsed
  /-- The change of a single channel in each tick. -/
  | delta
  /-- The change of one of several channels in each tick. -/
  | change (channel : Channel)
  | target (axis : Axis)
  | step (axis : Axis)
  /-- The orientation to arrive at. -/
  | goal (part : Part)
  /-- The change of the orientation in each tick. -/
  | turn (part : Part)
  /-- The orientation at the beginning. -/
  | origin (part : Part)
deriving DecidableEq

/-- What is watched for an edge: a trigger, or the selection of the object. -/
inductive Watch where
  | trigger (name : String)
  | link
deriving DecidableEq

inductive WatchField where
  /-- The level at the last evaluation. -/
  | previous
  /-- Zero until a toggle, then one or two for enabled and disabled. -/
  | state
  /-- A position has been stored. -/
  | primed
  | last (axis : Axis)
deriving DecidableEq

inductive TimelineField where
  | running
  | started
  | elapsed
  | cursor
deriving DecidableEq

inductive SoundField where
  | volume
  | playing
deriving DecidableEq

inductive Slot where
  | channel (channel : Channel)
  | forward (axis : Axis)
  | clicked
  /-- The first frame has begun. -/
  | initialized
  | action (number : Nat) (field : ActionField)
  | watch (watch : Watch) (field : WatchField)
  | timeline (name : String) (field : TimelineField)
  | sound (name : String) (field : SoundField)
  /-- A channel as it was before the first frame. -/
  | captured (channel : Channel)
deriving DecidableEq

/-! ### Spelling -/

namespace Channel

def key : Channel → String
  | .visible => "visible"
  | .alpha => "alpha"
  | .position axis => "position." ++ axis.name
  | .orientation part => "orientation." ++ part.name

end Channel

namespace ActionField

def key : ActionField → String
  | .active => "active"
  | .elapsed => "elapsed"
  | .delta => "delta"
  | .change channel => "d." ++ channel.key
  | .target axis => "t" ++ axis.name
  | .step axis => "d" ++ axis.name
  | .goal part => "q" ++ part.name
  | .turn part => "dq" ++ part.name
  | .origin part => "q0" ++ part.name

end ActionField

namespace WatchField

def key : WatchField → String
  | .previous => "prev"
  | .state => "state"
  | .primed => "primed"
  | .last axis => "last." ++ axis.name

end WatchField

namespace TimelineField

def key : TimelineField → String
  | .running => "running"
  | .started => "started"
  | .elapsed => "elapsed"
  | .cursor => "cursor"

end TimelineField

namespace SoundField

def key : SoundField → String
  | .volume => "volume"
  | .playing => "playing"

end SoundField

namespace Slot

/-- The name under which the state of an action is kept. -/
def actionPrefix (number : Nat) : String :=
  "act." ++ toString number

def triggerPrefix (name : String) : String :=
  "trig." ++ name

def actionKey (number : Nat) (field : String) : String :=
  actionPrefix number ++ "." ++ field

def triggerKey (name field : String) : String :=
  triggerPrefix name ++ "." ++ field

def linkKey (field : String) : String :=
  "link." ++ field

def timelineKey (name field : String) : String :=
  "tl." ++ name ++ "." ++ field

def soundKey (name field : String) : String :=
  "sound." ++ name ++ "." ++ field

def capturedKey (key : String) : String :=
  "reset." ++ key

def key : Slot → String
  | .channel seen => seen.key
  | .forward axis => "forward." ++ axis.name
  | .clicked => "clicked"
  | .initialized => "__init"
  | .action number field => actionKey number field.key
  | .watch (.trigger name) field => triggerKey name field.key
  | .watch .link field => linkKey field.key
  | .timeline name field => timelineKey name field.key
  | .sound name field => soundKey name field.key
  | .captured seen => capturedKey seen.key

def visible : Slot := channel .visible

def alpha : Slot := channel .alpha

def position (axis : Axis) : Slot := channel (.position axis)

def orientation (part : Part) : Slot := channel (.orientation part)

end Slot

end Stagecraft
