/-
The logic that objects own: what their triggers, their link actions and their timelines do in the
enter phase. Actions are numbered as they are met, so each piece of logic is made from the number
at which its actions begin.
-/

import Stagecraft.Action.Resolution
import Stagecraft.Timeline.Sequence
import Stagecraft.Trigger.Resolution
import Stagecraft.Trigger.Watching

namespace Stagecraft

/-- A piece of an object's logic, and the actions that it dispatches. -/
structure Owned (α : Type) where
  /-- Run once, in the first frame. -/
  setup : Block α
  /-- Run in every enter phase. -/
  enter : Block α
  instances : List (Instance α)

namespace Owned

variable {α : Type}

def nothing : Owned α := ⟨[], [], []⟩

def append (first second : Owned α) : Owned α where
  setup := first.setup ++ second.setup
  enter := first.enter ++ second.enter
  instances := first.instances ++ second.instances

instance : Append (Owned α) := ⟨append⟩

/-- Pieces in one. -/
def concat (pieces : List (Owned α)) : Owned α :=
  pieces.foldr append nothing

/-- Pieces made one after another, each numbering its actions after those before it. -/
def inTurn {ε : Type} (first : Nat) :
    List (Nat → Except ε (Owned α)) → Except ε (List (Owned α))
  | [] => .ok []
  | piece :: rest => do
    let head ← piece first
    let tail ← inTurn (first + head.instances.length) rest
    return head :: tail

variable [Trigonometric α] (directory : Directory α) (rate : α)

def dispatchAll (instances : List (Instance α)) : Block α :=
  instances.flatMap (·.dispatch)

def ofTrigger (owner : String) (trigger : Trigger α) (first : Nat) :
    Except (Fault α) (Owned α) := do
  let context := .trigger trigger.name
  let sensor ← trigger.sensor directory context
  let instances ← Action.resolveAll directory rate context owner first trigger.actions
  let title := "trigger " ++ trigger.name ++ " (" ++ trigger.condition.label ++ ")"
  return {
    setup := []
    enter := .comment title :: trigger.watch sensor (dispatchAll instances)
    instances }

def ofLink (owner : String) (actions : List (Action α)) (first : Nat) :
    Except (Fault α) (Owned α) :=
  if actions.isEmpty then .ok nothing
  else do
    let instances ← Action.resolveAll directory rate (.link owner) owner first actions
    return { setup := [], enter := watchLink (dispatchAll instances), instances }

def ofTimeline (owner : String) (timeline : Timeline α) (first : Nat) :
    Except (Fault α) (Owned α) := do
  let context := .timeline timeline.name
  let entries ← timeline.dispatchOrder context
  let instances ←
    Action.resolveAll directory rate context owner first (entries.map (·.action))
  let sequence : Sequence α := {
    name := timeline.name
    autostart := timeline.autostart
    rate
    cues := (entries.zip instances).map fun (entry, action) => ⟨entry.start, action⟩ }
  return { setup := sequence.setup, enter := sequence.run, instances }

def ofObject (object : SceneObject α) (first : Nat) : Except (Fault α) (Owned α) := do
  let pieces ← inTurn first
    (object.triggers.map (ofTrigger directory rate object.id) ++
      [ofLink directory rate object.id object.linkActions] ++
      object.timelines.map (ofTimeline directory rate object.id))
  return concat pieces

end Owned

end Stagecraft
