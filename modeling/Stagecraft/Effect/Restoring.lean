/-
Back to the beginning. In its first frame an object that may be restored takes a snapshot of its
channels; if another object restores it earlier in that frame, the snapshot is taken then. While
it fades back the object is visible if it is visible before or after.
-/

import Stagecraft.Effect.Basic

namespace Stagecraft

/-- The channels that move towards the snapshot in equal steps. -/
def Channel.gradual : List Channel :=
  .alpha :: Axis.all.map .position ++ Part.all.map .orientation

def Channel.all : List Channel :=
  gradual ++ [.visible]

namespace Effect

variable {α : Type} [Scalar α]

/-- The captured orientation is zero in all its parts. -/
def isCapturedDegenerate : Expr α :=
  let isZero (part : Part) : Expr α :=
    (Slot.captured (.orientation part)).read.equals (.num 0)
  (((isZero .w).and (isZero .x)).and (isZero .y)).and (isZero .z)

/-- Take the snapshot. An orientation of zero is taken as no turn. -/
def capture : Block α :=
  (Channel.all.map fun channel =>
    (Slot.captured channel).write (Slot.channel channel).read) ++
    [.onlyIf isCapturedDegenerate [(Slot.captured (.orientation .w)).write (.num 1)]]

def captureOnce : Stmt α :=
  .onlyIf (Slot.initialized.read.equals (.num 0)) capture

def settleRestore : Block α :=
  Channel.all.map fun channel => (Slot.channel channel).write (Slot.captured channel).read

def beginRestore (number : Nat) (steps : α) : Block α :=
  captureOnce ::
    Slot.visible.write
      ((Slot.visible.read.isSet.or (Slot.captured .visible).read.isSet).flag) ::
    (Channel.gradual.map fun channel => (Slot.action number (.change channel)).write
      (.perTick (Slot.captured channel).read (Slot.channel channel).read steps))

def advanceRestore (number : Nat) : Block α :=
  Channel.gradual.map fun channel =>
    (Slot.channel channel).write
      ((Slot.channel channel).read + (Slot.action number (.change channel)).read)

def restoreNow : Block α :=
  captureOnce :: settleRestore

end Effect

end Stagecraft
