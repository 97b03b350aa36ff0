/-
Fades of an object's transparency and of a sound's volume. An object that fades is visible from
the beginning, so that fading in can be seen. A sound is played if it does not play already, and
stopped once it is silent.
-/

import Stagecraft.Effect.Basic

namespace Stagecraft

namespace Effect

variable {α : Type} [Scalar α]

/-! ### Visibility -/

def showNow (visible : Bool) : Block α :=
  [Slot.alpha.write (.num (Scalar.ofBool visible)),
    Slot.visible.write (.num (Scalar.ofBool visible))]

def beginFade (number : Nat) (steps : α) (visible : Bool) : Block α :=
  [Slot.visible.write (.num 1),
    (Slot.action number .delta).write
      (.perTick (.num (Scalar.ofBool visible)) Slot.alpha.read steps)]

def advanceFade (number : Nat) : Block α :=
  [Slot.alpha.write (Slot.alpha.read + (Slot.action number .delta).read)]

/-! ### Sounds -/

/-- The volume at the end; silence where none is given. -/
def finalVolume (volume : Option α) : α :=
  volume.getD 0

def startPlaying (name : String) : Stmt α :=
  let playing := Slot.sound name .playing
  .onlyIf (playing.read.equals (.num 0)) [.host (.playSound name), playing.write (.num 1)]

def stopPlaying (name : String) : Block α :=
  [.host (.stopSound name), (Slot.sound name .playing).write (.num 0)]

def settleSound (name : String) (volume : Option α) : Block α :=
  (Slot.sound name .volume).write (.num (finalVolume volume)) ::
    (if volume.isNone then stopPlaying name else [])

/-- What comes before the volume changes. -/
def prepareSound (name : String) (volume : Option α) : Block α :=
  if volume.isSome then [startPlaying name] else []

def beginSound (number : Nat) (steps : α) (name : String) (volume : Option α) : Block α :=
  prepareSound name volume ++
    [(Slot.action number .delta).write
      (.perTick (.num (finalVolume volume)) (Slot.sound name .volume).read steps)]

def advanceSound (number : Nat) (name : String) : Block α :=
  let volume := Slot.sound name .volume
  [volume.write (volume.read + (Slot.action number .delta).read)]

end Effect

end Stagecraft
