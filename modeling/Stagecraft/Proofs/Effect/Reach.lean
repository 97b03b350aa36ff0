/-
This file says what effects may change. An effect changes what it is there for on the object that
it runs on, and its notes under its number. Whether the action goes on, and for how long already,
is not among them: that is kept by the instance around the effect.

An effect that takes time and one that happens at once begin alike. From there the first one takes
notes and goes step by step, the second one goes to its end. Only what is settled in the end may
change on the way, and the notes are taken once.
-/

import Stagecraft.Effect.Blocks
import Stagecraft.Proofs.Logic.Writes

namespace Stagecraft

variable {α : Type}

def Shift.Moves : Shift α → Prop
  | .stay => False
  | _ => True

def Turn.Moves : Turn α → Prop
  | .keep => False
  | _ => True

/-- The slots in which the effect of an action takes notes for its later blocks. -/
def Slot.IsNote (number : Nat) (slot : Slot) : Prop :=
  ∃ field : ActionField, field ≠ .active ∧ field ≠ .elapsed ∧ slot = .action number field

namespace Effect

/-- The slots that an effect is there to change. -/
def Drives : Effect α → Slot → Prop
  | .fade _, slot => slot = .visible ∨ slot = .alpha
  | .move motion, slot =>
    (motion.shift.Moves ∧ ∃ axis, slot = .position axis) ∨
      (motion.turn.Moves ∧ ∃ part, slot = .orientation part)
  | .sound name _, slot => ∃ field, slot = .sound name field
  | .timeline name _, slot => ∃ field, slot = .timeline name field
  | .restore, slot => (∃ channel, slot = .channel channel) ∨ ∃ channel, slot = .captured channel
  | .toggle name _, slot => slot = .watch (.trigger name) .state

/-- The slots that the blocks of an effect may write under a number. -/
def Reaches (effect : Effect α) (number : Nat) (slot : Slot) : Prop :=
  effect.Drives slot ∨ slot.IsNote number

/-- The same, as a bound on a block that runs on an object. -/
def Scope (effect : Effect α) (number : Nat) (this : String) : String → Slot → Prop :=
  fun object slot => object = this ∧ effect.Reaches number slot

variable {number : Nat} {this : String}

theorem scope_of_drives {effect : Effect α} {slot : Slot} (drives : effect.Drives slot) :
    effect.Scope number this this slot :=
  ⟨rfl, .inl drives⟩

/-! ### Movements -/

section

variable {allowed : String → Slot → Prop}

theorem writesOnly_orientation (parts : ∀ part, allowed this (.orientation part))
    (value : Quaternion (Expr α)) : Block.WritesOnly allowed this value.writeOrientation :=
  Block.writesOnly_map fun part _ => Block.writesOnly_write.mpr (parts part)

theorem writesOnly_turnPresent (parts : ∀ part, allowed this (.orientation part))
    (rotation : Quaternion α) : Block.WritesOnly allowed this (turnPresent rotation) :=
  Block.writesOnly_append.mpr
    ⟨Block.writesOnly_map fun _ _ => Block.writesOnly_bind, writesOnly_orientation parts _⟩

theorem writesOnly_beginShift [Div α] {steps : α}
    (target : ∀ axis, allowed this (targetSlot number axis))
    (step : ∀ axis, allowed this (stepSlot number axis)) (shift : Shift α) :
    Block.WritesOnly allowed this (beginShift number steps shift) := by
  cases shift with
  | stay => exact Block.writesOnly_nil
  | absolute offset reference =>
    exact Block.writesOnly_append.mpr
      ⟨Block.writesOnly_map fun axis _ => Block.writesOnly_write.mpr (target axis),
        Block.writesOnly_map fun axis _ => Block.writesOnly_write.mpr (step axis)⟩
  | relative offset =>
    refine Block.writesOnly_flatMap fun axis _ => ?_
    simp only [Block.writesOnly_cons_cons, Block.writesOnly_write]
    exact ⟨target axis, step axis⟩

section

variable {shift : Shift α} (axes : shift.Moves → ∀ axis, allowed this (.position axis))

include axes

theorem writesOnly_advanceShift :
    Block.WritesOnly allowed this (advanceShift number shift) := by
  cases shift with
  | stay => exact Block.writesOnly_nil
  | _ => exact Block.writesOnly_map fun axis _ => Block.writesOnly_write.mpr (axes trivial axis)

theorem writesOnly_settleShift :
    Block.WritesOnly allowed this (settleShift number shift) := by
  cases shift with
  | stay => exact Block.writesOnly_nil
  | _ => exact Block.writesOnly_map fun axis _ => Block.writesOnly_write.mpr (axes trivial axis)

theorem writesOnly_shiftNow : Block.WritesOnly allowed this (shiftNow shift) := by
  cases shift with
  | stay => exact Block.writesOnly_nil
  | _ => exact Block.writesOnly_map fun axis _ => Block.writesOnly_write.mpr (axes trivial axis)

end

variable [Trigonometric α]

theorem writesOnly_beginTurn {steps : α} (goal : ∀ part, allowed this (goalSlot number part))
    (change : ∀ part, allowed this (turnSlot number part))
    (origin : ∀ part, allowed this (originSlot number part)) (turn : Turn α) :
    Block.WritesOnly allowed this (beginTurn number steps turn) := by
  cases turn with
  | keep => exact Block.writesOnly_nil
  | absolute _ =>
    rw [beginTurn, List.cons_append, Block.writesOnly_cons, Block.writesOnly_append]
    exact ⟨Block.writesOnly_bind,
      Block.writesOnly_map fun part _ => Block.writesOnly_write.mpr (goal part),
      Block.writesOnly_map fun part _ => Block.writesOnly_write.mpr (change part)⟩
  | relative axis angle =>
    exact Block.writesOnly_map fun part _ => Block.writesOnly_write.mpr (origin part)

/-- As it begins, a movement only takes notes. -/
theorem writesOnly_beginMotion {steps : α}
    (notes : ∀ slot, Slot.IsNote number slot → allowed this slot) (motion : Motion α) :
    Block.WritesOnly allowed this (beginMotion number steps motion) := by
  have note {field : ActionField} (notActive : field ≠ .active) (notElapsed : field ≠ .elapsed) :
      allowed this (.action number field) := notes _ ⟨field, notActive, notElapsed, rfl⟩
  refine Block.writesOnly_append.mpr ⟨writesOnly_beginShift ?_ ?_ motion.shift,
    writesOnly_beginTurn ?_ ?_ ?_ motion.turn⟩ <;> exact fun _ => note (by simp) (by simp)

variable {turn : Turn α} (parts : turn.Moves → ∀ part, allowed this (.orientation part))

include parts

theorem writesOnly_advanceTurn (steps : α) :
    Block.WritesOnly allowed this (advanceTurn number steps turn) := by
  cases turn with
  | keep => exact Block.writesOnly_nil
  | absolute goal =>
    exact Block.writesOnly_map fun part _ => Block.writesOnly_write.mpr (parts trivial part)
  | relative axis angle => exact writesOnly_turnPresent (parts trivial) _

theorem writesOnly_settleTurn : Block.WritesOnly allowed this (settleTurn number turn) := by
  cases turn with
  | keep => exact Block.writesOnly_nil
  | _ => exact writesOnly_orientation (parts trivial) _

theorem writesOnly_turnNow : Block.WritesOnly allowed this (turnNow turn) := by
  cases turn with
  | keep => exact Block.writesOnly_nil
  | absolute goal => exact writesOnly_orientation (parts trivial) _
  | relative axis angle => exact writesOnly_turnPresent (parts trivial) _

end

/-! ### Switches -/

/-- A change of a timeline writes slots of that timeline only. -/
theorem writesOnly_changeTimeline [Scalar α] {allowed : String → Slot → Prop} {name : String}
    (keeps : ∀ field, allowed this (.timeline name field)) (change : TimelineChange) :
    Block.WritesOnly allowed this (changeTimeline name change : Block α) := by
  cases change <;> simp [changeTimeline, rewind, keeps]

/-! ### Returns -/

/-- Taking the snapshot writes nothing else. -/
theorem writesOnly_capture [Scalar α] {allowed : String → Slot → Prop}
    (captured : ∀ channel, allowed this (.captured channel)) :
    Block.WritesOnly allowed this (capture : Block α) := by
  refine Block.writesOnly_append.mpr ⟨Block.writesOnly_map fun channel _ =>
    Block.writesOnly_write.mpr (captured channel), ?_⟩
  rw [Block.writesOnly_onlyIf, Block.writesOnly_write]
  exact captured _

/-! ### Beyond reach -/

/-- Whether an action goes on is beyond the reach of every effect. -/
theorem not_reaches_active (effect : Effect α) (other : Nat) :
    ¬effect.Reaches number (.action other .active) := by
  rintro (drives | ⟨field, notActive, -, same⟩)
  · cases effect <;>
      simp [Drives, Slot.visible, Slot.alpha, Slot.position, Slot.orientation] at drives
  · exact notActive (Slot.action.inj same).2.symm

/-- How long an action has been going on is beyond the reach of every effect. -/
theorem not_reaches_elapsed (effect : Effect α) (other : Nat) :
    ¬effect.Reaches number (.action other .elapsed) := by
  rintro (drives | ⟨field, -, notElapsed, same⟩)
  · cases effect <;>
      simp [Drives, Slot.visible, Slot.alpha, Slot.position, Slot.orientation] at drives
  · exact notElapsed (Slot.action.inj same).2.symm

/-! ### Effects -/

section

variable [Trigonometric α]

/-- What an effect does first, however long it takes. -/
def lead : Effect α → Block α
  | .sound name volume => prepareSound name volume
  | .timeline name change => changeTimeline name change
  | .restore => [captureOnce]
  | .toggle name enabled => toggleTrigger name enabled
  | _ => []

/-- How an effect goes to its end at once. -/
def arrive : Effect α → Block α
  | .fade visible => showNow visible
  | .move motion => moveNow motion
  | .sound name volume => settleSound name volume
  | .restore => settleRestore
  | _ => []

/-- What an effect that takes time does next, before its first step. -/
def depart (number : Nat) (steps : α) : Effect α → Block α
  | .fade visible => beginFade number steps visible
  | .move motion => beginMotion number steps motion
  | .sound name volume =>
    [(Slot.action number .delta).write
      (.perTick (.num (finalVolume volume)) (Slot.sound name .volume).read steps)]
  | .restore => (beginRestore number steps).tail
  | _ => []

theorem now_eq (effect : Effect α) : effect.now = effect.lead ++ effect.arrive := by
  cases effect <;> simp [now, lead, arrive, restoreNow]

theorem start_eq (effect : Effect α) (steps : α) :
    effect.start number steps = effect.lead ++ effect.depart number steps := by
  cases effect <;> simp [start, lead, depart, beginSound, beginRestore]

end

/-- The slots that have their exact end state once an effect has settled. -/
def Settles : Effect α → Slot → Prop
  | .fade _, slot => slot = .visible ∨ slot = .alpha
  | .move motion, slot =>
    (motion.shift.Moves ∧ ∃ axis, slot = .position axis) ∨
      (motion.turn.Moves ∧ ∃ part, slot = .orientation part)
  | .sound name volume, slot =>
    slot = .sound name .volume ∨ volume.isNone ∧ slot = .sound name .playing
  | .restore, slot => ∃ channel, slot = .channel channel
  | _, _ => False

theorem Settles.drives {effect : Effect α} {slot : Slot} (settles : effect.Settles slot) :
    effect.Drives slot := by
  cases effect with
  | fade visible => exact settles
  | move motion => exact settles
  | sound name volume =>
    rcases settles with rfl | ⟨-, rfl⟩
    · exact ⟨_, rfl⟩
    · exact ⟨_, rfl⟩
  | restore => exact .inl settles
  | _ => cases settles

section

variable [Trigonometric α] {allowed : String → Slot → Prop}

theorem writesOnly_lead {effect : Effect α}
    (driven : ∀ slot, effect.Drives slot → allowed this slot) :
    Block.WritesOnly allowed this effect.lead := by
  cases effect with
  | sound name volume =>
    rw [lead, prepareSound]
    split
    · rw [startPlaying, Block.writesOnly_onlyIf, Block.writesOnly_cons, Block.writesOnly_write]
      exact ⟨Block.writesOnly_host, driven _ ⟨.playing, rfl⟩⟩
    · exact Block.writesOnly_nil
  | timeline name change =>
    exact writesOnly_changeTimeline (fun field => driven _ ⟨field, rfl⟩) change
  | restore =>
    exact Block.writesOnly_onlyIf.mpr
      (writesOnly_capture fun channel => driven _ (.inr ⟨channel, rfl⟩))
  | toggle name enabled => exact Block.writesOnly_write.mpr (driven _ rfl)
  | _ => exact Block.writesOnly_nil

theorem writesOnly_depart {effect : Effect α} {steps : α}
    (settled : ∀ slot, effect.Settles slot → allowed this slot)
    (notes : ∀ slot, Slot.IsNote number slot → allowed this slot) :
    Block.WritesOnly allowed this (effect.depart number steps) := by
  have note {field : ActionField} (notActive : field ≠ .active) (notElapsed : field ≠ .elapsed) :
      allowed this (.action number field) := notes _ ⟨field, notActive, notElapsed, rfl⟩
  cases effect with
  | fade visible =>
    rw [depart, beginFade, Block.writesOnly_cons_cons, Block.writesOnly_write,
      Block.writesOnly_write]
    exact ⟨settled _ (.inl rfl), note (by simp) (by simp)⟩
  | move motion => exact writesOnly_beginMotion notes motion
  | sound name volume => exact Block.writesOnly_write.mpr (note (by simp) (by simp))
  | restore =>
    refine Block.writesOnly_cons.mpr ⟨Block.writesOnly_write.mpr (settled _ ⟨.visible, rfl⟩), ?_⟩
    exact Block.writesOnly_map fun channel _ =>
      Block.writesOnly_write.mpr (note (by simp) (by simp))
  | _ => exact Block.writesOnly_nil

variable {effect : Effect α} (settled : ∀ slot, effect.Settles slot → allowed this slot)

include settled

theorem writesOnly_advance (steps : α) :
    Block.WritesOnly allowed this (effect.advance number steps) := by
  cases effect with
  | fade visible => exact Block.writesOnly_write.mpr (settled _ (.inr rfl))
  | move motion =>
    exact Block.writesOnly_append.mpr
      ⟨writesOnly_advanceShift fun moves axis => settled _ (.inl ⟨moves, axis, rfl⟩),
        writesOnly_advanceTurn (fun moves part => settled _ (.inr ⟨moves, part, rfl⟩)) steps⟩
  | sound name volume => exact Block.writesOnly_write.mpr (settled _ (.inl rfl))
  | restore =>
    exact Block.writesOnly_map fun channel _ =>
      Block.writesOnly_write.mpr (settled _ ⟨channel, rfl⟩)
  | _ => exact Block.writesOnly_nil

theorem writesOnly_settle (number : Nat) : Block.WritesOnly allowed this (effect.settle number) := by
  cases effect with
  | fade visible =>
    rw [settle, showNow, Block.writesOnly_cons_cons, Block.writesOnly_write, Block.writesOnly_write]
    exact ⟨settled _ (.inr rfl), settled _ (.inl rfl)⟩
  | move motion =>
    exact Block.writesOnly_append.mpr
      ⟨writesOnly_settleShift fun moves axis => settled _ (.inl ⟨moves, axis, rfl⟩),
        writesOnly_settleTurn fun moves part => settled _ (.inr ⟨moves, part, rfl⟩)⟩
  | sound name volume =>
    rw [settle, settleSound, Block.writesOnly_cons, Block.writesOnly_write]
    refine ⟨settled _ (.inl rfl), ?_⟩
    split <;> rename_i silent
    · rw [stopPlaying, Block.writesOnly_cons, Block.writesOnly_write]
      exact ⟨Block.writesOnly_host, settled _ (.inr ⟨silent, rfl⟩)⟩
    · exact Block.writesOnly_nil
  | restore =>
    exact Block.writesOnly_map fun channel _ =>
      Block.writesOnly_write.mpr (settled _ ⟨channel, rfl⟩)
  | _ => exact Block.writesOnly_nil

/-- Going to the end at once, an effect writes what it settles otherwise. -/
theorem writesOnly_arrive : Block.WritesOnly allowed this effect.arrive := by
  cases effect with
  | move motion =>
    exact Block.writesOnly_append.mpr
      ⟨writesOnly_shiftNow fun moves axis => settled _ (.inl ⟨moves, axis, rfl⟩),
        writesOnly_turnNow fun moves part => settled _ (.inr ⟨moves, part, rfl⟩)⟩
  | fade visible => exact writesOnly_settle settled 0
  | sound name volume => exact writesOnly_settle settled 0
  | restore => exact writesOnly_settle settled 0
  | _ => exact Block.writesOnly_nil

end

variable [Trigonometric α]

/-- No phase of an effect writes beyond its reach. -/
theorem writesOnly_phases (effect : Effect α) (timing : Timing α) (phase : Phase) :
    Block.WritesOnly (effect.Scope number this) this
      ((effect.phases number timing).get phase) := by
  have settled (slot : Slot) (settles : effect.Settles slot) : effect.Scope number this this slot :=
    scope_of_drives settles.drives
  have notes (slot : Slot) (note : slot.IsNote number) : effect.Scope number this this slot :=
    ⟨rfl, .inr note⟩
  have lead : Block.WritesOnly (effect.Scope number this) this effect.lead :=
    writesOnly_lead fun _ => scope_of_drives
  rw [phases]
  split
  · cases phase with
    | enter =>
      rw [Phases.get, now_eq]
      exact Block.writesOnly_append.mpr ⟨lead, writesOnly_arrive settled⟩
    | _ => exact Block.writesOnly_nil
  · cases phase with
    | enter =>
      rw [Phases.get, start_eq]
      exact Block.writesOnly_append.mpr ⟨lead, writesOnly_depart settled notes⟩
    | advance => exact writesOnly_advance settled _
    | exit => exact writesOnly_settle settled _

theorem writesOnly_setup {allowed : String → Slot → Prop}
    (captured : ∀ channel, allowed this (.captured channel)) (effect : Effect α) :
    Block.WritesOnly allowed this effect.setup := by
  cases effect with
  | restore => exact writesOnly_capture captured
  | _ => exact Block.writesOnly_nil

end Effect

end Stagecraft
