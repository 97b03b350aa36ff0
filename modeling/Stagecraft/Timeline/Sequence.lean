/-
Timelines as logic. A running timeline counts ticks, and a cursor stands on the entry that is
dispatched next. In each tick all entries that are due are dispatched in order; the cursor moves
first, so an entry that restarts the timeline has the last word. Once every entry has been
dispatched and the longest has had its time, the timeline stops.
-/

import Stagecraft.Action.Instance
import Stagecraft.Scene.Checks

namespace Stagecraft

/-! ### Order -/

namespace Timeline

variable {α : Type} [Scalar α]

def checkStarts (context : Context) : List (TimedAction α) → Except (Fault α) Unit
  | [] => .ok ()
  | entry :: rest => do
    let _ ← Check.magnitude context .start entry.start
    checkStarts context rest

/-- The entries in the order of their starts; entries that start together stay in their order. -/
def dispatchOrder (context : Context) (timeline : Timeline α) :
    Except (Fault α) (List (TimedAction α)) := do
  checkStarts context timeline.entries
  return timeline.entries.mergeSort fun first second =>
    Scalar.precedes first.start second.start

end Timeline

/-! ### Sequences -/

/-- An instance and the second at which it is dispatched. -/
structure Cue (α : Type) where
  start : α
  action : Instance α

/-- A timeline whose entries have been resolved, in the order in which they are dispatched. -/
structure Sequence (α : Type) where
  name : String
  autostart : Bool
  rate : α
  cues : List (Cue α)

namespace Sequence

variable {α : Type} [Trigonometric α] (sequence : Sequence α)

def slot (field : TimelineField) : Slot :=
  .timeline sequence.name field

def startTick (cue : Cue α) : Nat :=
  Ticks.count cue.start sequence.rate

/-- The tick at which all entries have been dispatched and have ended, if none of them ends too late
for its tick to be stored. -/
def endTick : Nat :=
  (sequence.cues.map fun cue => Ticks.add (sequence.startTick cue) cue.action.ticks).foldl max 0

/-- What its owner does in its first frame. -/
def setup : Block α :=
  if sequence.autostart then Effect.changeTimeline sequence.name .startIfNotStarted else []

/-- Dispatch an entry where the cursor stands on it and its time has come. -/
def dispatchAt (cue : Cue α) (index : Nat) : Stmt α :=
  let cursor := sequence.slot .cursor
  let isNext := cursor.read.equals (.num (Scalar.ofNat index))
  let isDue := (sequence.slot .elapsed).read.ge (.num (Scalar.ofNat (sequence.startTick cue)))
  .onlyIf (isNext.and isDue)
    (cursor.write (.num (Scalar.ofNat (index + 1))) :: cue.action.dispatch)

def countTick : Stmt α :=
  let elapsed := sequence.slot .elapsed
  elapsed.write (elapsed.read + .num 1)

def stopAtEnd : Stmt α :=
  let allSent := (sequence.slot .cursor).read.ge (.num (Scalar.ofNat sequence.cues.length))
  let allOver := (sequence.slot .elapsed).read.ge (.num (Scalar.ofNat sequence.endTick))
  .onlyIf (allSent.and allOver) [(sequence.slot .running).write (.num 0)]

/-- What its owner does in every frame. -/
def run : Block α :=
  [.comment ("timeline " ++ sequence.name),
    .onlyIf (sequence.slot .running).read.isSet
      (sequence.cues.zipIdx.map (fun (cue, index) => sequence.dispatchAt cue index) ++
        [sequence.countTick, sequence.stopAtEnd])]

end Sequence

end Stagecraft
