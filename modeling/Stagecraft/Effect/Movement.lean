/-
Movements. A position moves by the same step in every tick. An absolute target is found when the
movement begins. An absolute turn moves the parts of the orientation in equal steps along the
shorter arc, whose sign is chosen when it begins; a relative turn multiplies the orientation by
the same quaternion in every tick, and in the end turns the orientation of the beginning by the
whole angle.
-/

import Stagecraft.Effect.Basic

namespace Stagecraft

namespace Effect

/-! ### Positions -/

section

variable {α : Type}

def targetPosition (offset : Vec α) (reference : Option String) : Vec (Expr α) :=
  match reference with
  | none => offset.constant
  | some object => Vec.positionOf object + offset.constant

def targetSlot (number : Nat) (axis : Axis) : Slot := .action number (.target axis)

def stepSlot (number : Nat) (axis : Axis) : Slot := .action number (.step axis)

def beginShift [Div α] (number : Nat) (steps : α) : Shift α → Block α
  | .stay => []
  | .absolute offset reference =>
    let target := targetPosition offset reference
    (Axis.all.map fun axis => (targetSlot number axis).write (target.get axis)) ++
      (Axis.all.map fun axis => (stepSlot number axis).write
        (.perTick (targetSlot number axis).read (Slot.position axis).read steps))
  | .relative offset =>
    Axis.all.flatMap fun axis =>
      [(targetSlot number axis).write ((Slot.position axis).read + .num (offset.get axis)),
        (stepSlot number axis).write (.num (offset.get axis / steps))]

def advanceShift (number : Nat) : Shift α → Block α
  | .stay => []
  | _ => Axis.all.map fun axis =>
    (Slot.position axis).write ((Slot.position axis).read + (stepSlot number axis).read)

def settleShift (number : Nat) : Shift α → Block α
  | .stay => []
  | _ => Axis.all.map fun axis => (Slot.position axis).write (targetSlot number axis).read

def shiftNow : Shift α → Block α
  | .stay => []
  | .absolute offset reference =>
    let target := targetPosition offset reference
    Axis.all.map fun axis => (Slot.position axis).write (target.get axis)
  | .relative offset =>
    Axis.all.map fun axis =>
      (Slot.position axis).write ((Slot.position axis).read + .num (offset.get axis))

end

/-! ### Orientations -/

section

variable {α : Type}

def goalSlot (number : Nat) (part : Part) : Slot := .action number (.goal part)

def turnSlot (number : Nat) (part : Part) : Slot := .action number (.turn part)

def originSlot (number : Nat) (part : Part) : Slot := .action number (.origin part)

/-- The temporary that holds a part of the orientation. -/
def partName (part : Part) : String := "q" ++ part.name

/-- The temporary that holds the sign of the shorter arc. -/
def signName : String := "s"

/-- Turn the present orientation. Its parts are all read before the first one is written. -/
def turnPresent (rotation : Quaternion α) : Block α :=
  (Part.all.map fun part => .bind (partName part) (Slot.orientation part).read) ++
    (rotation.map Expr.num |>.product (.ofParts fun part => .var (partName part))).writeOrientation

end

section

variable {α : Type} [Trigonometric α]

def beginTurn (number : Nat) (steps : α) : Turn α → Block α
  | .keep => []
  | .absolute goal =>
    let cosine := Quaternion.orientation.dot (goal.map .num)
    .bind signName (.select (cosine.lt (.num 0)) (.num (-1)) (.num 1)) ::
      (Part.all.map fun part =>
        (goalSlot number part).write (.var signName * .num (goal.get part))) ++
      (Part.all.map fun part => (turnSlot number part).write
        (.perTick (goalSlot number part).read (Slot.orientation part).read steps))
  | .relative _ _ =>
    Part.all.map fun part => (originSlot number part).write (Slot.orientation part).read

def advanceTurn (number : Nat) (steps : α) : Turn α → Block α
  | .keep => []
  | .absolute _ => Part.all.map fun part =>
    (Slot.orientation part).write ((Slot.orientation part).read + (turnSlot number part).read)
  | .relative axis angle => turnPresent (Quaternion.ofAxisAngle axis (angle / steps))

def settleTurn (number : Nat) : Turn α → Block α
  | .keep => []
  | .absolute _ =>
    (Quaternion.ofParts fun part => (goalSlot number part).read).writeOrientation
  | .relative axis angle =>
    ((Quaternion.ofAxisAngle axis angle).map Expr.num |>.product
      (.ofParts fun part => (originSlot number part).read)).writeOrientation

def turnNow : Turn α → Block α
  | .keep => []
  | .absolute goal => (goal.map Expr.num).writeOrientation
  | .relative axis angle => turnPresent (Quaternion.ofAxisAngle axis angle)

/-! ### Both -/

def beginMotion (number : Nat) (steps : α) (motion : Motion α) : Block α :=
  beginShift number steps motion.shift ++ beginTurn number steps motion.turn

def advanceMotion (number : Nat) (steps : α) (motion : Motion α) : Block α :=
  advanceShift number motion.shift ++ advanceTurn number steps motion.turn

def settleMotion (number : Nat) (motion : Motion α) : Block α :=
  settleShift number motion.shift ++ settleTurn number motion.turn

def moveNow (motion : Motion α) : Block α :=
  shiftNow motion.shift ++ turnNow motion.turn

end

end Effect

end Stagecraft
