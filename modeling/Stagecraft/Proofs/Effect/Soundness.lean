/-
This file shows that whatever an effect does on its target is sound logic. Its temporaries are named
where it reads them, a condition becomes a number through a flag only, and the one object that an
effect may name is the reference of a movement.
-/

import Stagecraft.Action.Instance
import Stagecraft.Action.Resolution
import Stagecraft.Proofs.Logic.Kinds

namespace Stagecraft

variable {α : Type} {known : String → Bool} {kinds : Kinds}

@[simp] theorem Expr.isNumber_perTick (target current : Expr α) (steps : α) :
    (perTick target current steps).IsNumber known kinds ↔
      target.IsNumber known kinds ∧ current.IsNumber known kinds := by
  simp [perTick]

/-! ### Orientations -/

namespace Quaternion

theorem isNumber_orientation (part : Part) :
    ((orientation : Quaternion (Expr α)).get part).IsNumber known kinds := by
  cases part <;> exact Slot.isNumber_read _

theorem isNumber_dot {first second : Quaternion (Expr α)}
    (numbers : ∀ part, (first.get part).IsNumber known kinds)
    (numbers' : ∀ part, (second.get part).IsNumber known kinds) :
    (first.dot second).IsNumber known kinds := by
  simp only [dot, Expr.isNumber_add, Expr.isNumber_mul]
  exact ⟨⟨⟨⟨numbers .w, numbers' .w⟩, numbers .x, numbers' .x⟩, numbers .y, numbers' .y⟩,
    numbers .z, numbers' .z⟩

theorem isNumber_map (turn : Quaternion α) (part : Part) :
    ((turn.map Expr.num).get part).IsNumber known kinds := by
  cases part <;> exact Expr.isNumber_num _

/-- A constant turn of parts that are numbers has parts that are numbers. -/
theorem isNumber_product (turn : Quaternion α) {component : Part → Expr α}
    (numbers : ∀ part, (component part).IsNumber known kinds) (part : Part) :
    (((turn.map Expr.num).product (ofParts component)).get part).IsNumber known kinds := by
  cases part <;> simp [product, ofParts, map, get, numbers]

theorem after?_writeOrientation {value : Quaternion (Expr α)}
    (numbers : ∀ part, (value.get part).IsNumber known kinds) :
    Block.after? known kinds value.writeOrientation = some kinds :=
  Block.after?_writes fun part _ => numbers part

theorem isSound_writeOrientation {value : Quaternion (Expr α)}
    (numbers : ∀ part, (value.get part).IsNumber known []) :
    Block.IsSound known value.writeOrientation :=
  Block.isSound_map fun part _ => (Stmt.isSound_write _ _).mpr (numbers part)

end Quaternion

/-! ### Movements -/

namespace Effect

variable (number : Nat)

section

variable {shift : Shift α} (knows : ∀ object, shift.reference? = some object → known object)

section

include knows

theorem isNumber_targetPosition {offset : Vec α} {reference : Option String}
    (isAbsolute : shift = .absolute offset reference) :
    (targetPosition offset reference).AreNumbers known kinds := by
  cases reference with
  | none => exact Vec.areNumbers_constant offset
  | some object =>
    have isKnown : known object := knows object (by rw [isAbsolute]; rfl)
    exact (Vec.areNumbers_positionOf isKnown).add (Vec.areNumbers_constant offset)

theorem isSound_shiftNow : Block.IsSound known (shiftNow shift) := by
  cases isShift : shift with
  | stay => exact Block.isSound_nil
  | absolute offset reference =>
    have numbers : (targetPosition offset reference).AreNumbers known [] :=
      isNumber_targetPosition knows isShift
    exact Block.isSound_map fun axis _ => (Stmt.isSound_write _ _).mpr (numbers axis)
  | relative offset => exact Block.isSound_map fun axis _ => by simp

theorem isSound_beginShift [Div α] (steps : α) :
    Block.IsSound known (beginShift number steps shift) := by
  cases isShift : shift with
  | stay => exact Block.isSound_nil
  | absolute offset reference =>
    have numbers : (targetPosition offset reference).AreNumbers known [] :=
      isNumber_targetPosition knows isShift
    exact .append (Block.isSound_map fun axis _ => (Stmt.isSound_write _ _).mpr (numbers axis))
      (Block.isSound_map fun axis _ => by simp)
  | relative offset =>
    exact Block.isSound_flatMap fun axis _ => Block.isSound_of_forall (by simp)

end

theorem isSound_advanceShift (shift : Shift α) :
    Block.IsSound known (advanceShift number shift) := by
  cases shift with
  | stay => exact Block.isSound_nil
  | _ => exact Block.isSound_map fun axis _ => by simp

theorem isSound_settleShift (shift : Shift α) : Block.IsSound known (settleShift number shift) := by
  cases shift with
  | stay => exact Block.isSound_nil
  | _ => exact Block.isSound_map fun axis _ => by simp

end

/-- The parts are named before any of them is written. -/
theorem isSound_turnPresent (rotation : Quaternion α) :
    Block.IsSound known (turnPresent rotation) := by
  have named : Block.after? known [] ((Part.all.map fun part =>
      .bind (partName part) (Slot.orientation part).read) : Block α) =
      some (Part.all.reverse.map fun part => (partName part, .number)) := by
    simp [Part.all, Stmt.after?_bind _ (Slot.isNumber_read _)]
  refine Block.isSound_append_of_after named ?_
  rw [Quaternion.after?_writeOrientation]
  · rfl
  · refine Quaternion.isNumber_product rotation fun part => ?_
    rw [Expr.isNumber_var]
    cases part <;> decide

variable [Trigonometric α]

/-- The sign of the shorter arc is named before it is read. -/
theorem isSound_beginTurn (steps : α) (turn : Turn α) :
    Block.IsSound known (beginTurn number steps turn) := by
  cases turn with
  | keep => exact Block.isSound_nil
  | absolute goal =>
    have sign : (Expr.select ((Quaternion.orientation.dot (goal.map .num)).lt (.num 0)) (.num (-1))
        (.num 1) : Expr α).IsNumber known [] := by
      rw [Expr.isNumber_select, Expr.isCondition_lt]
      exact ⟨⟨Quaternion.isNumber_dot Quaternion.isNumber_orientation
        (Quaternion.isNumber_map goal), Expr.isNumber_num _⟩, Expr.isNumber_num _,
        Expr.isNumber_num _⟩
    rw [beginTurn, List.cons_append, Block.IsSound, Block.after?_cons, Stmt.after?_bind _ sign,
      Option.bind_some, Block.after?_append, Block.after?_writes, Option.bind_some,
      Block.after?_writes]
    · rfl
    · exact fun part _ => by simp
    · exact fun part _ => by simp
  | relative axis angle => exact Block.isSound_map fun part _ => by simp

theorem isSound_advanceTurn (steps : α) (turn : Turn α) :
    Block.IsSound known (advanceTurn number steps turn) := by
  cases turn with
  | keep => exact Block.isSound_nil
  | absolute goal => exact Block.isSound_map fun part _ => by simp
  | relative axis angle => exact isSound_turnPresent _

theorem isSound_settleTurn (turn : Turn α) : Block.IsSound known (settleTurn number turn) := by
  cases turn with
  | keep => exact Block.isSound_nil
  | absolute goal =>
    exact Quaternion.isSound_writeOrientation fun part => by
      cases part <;> exact Slot.isNumber_read _
  | relative axis angle =>
    exact Quaternion.isSound_writeOrientation
      (Quaternion.isNumber_product _ fun part => Slot.isNumber_read _)

theorem isSound_turnNow (turn : Turn α) : Block.IsSound known (turnNow turn) := by
  cases turn with
  | keep => exact Block.isSound_nil
  | absolute goal => exact Quaternion.isSound_writeOrientation (Quaternion.isNumber_map goal)
  | relative axis angle => exact isSound_turnPresent _

/-! ### Snapshots -/

theorem isSound_capture : Block.IsSound known (capture : Block α) := by
  refine .append (Block.isSound_map fun channel _ => by simp) (Block.isSound_guarded ?_ ?_)
  · simp [isCapturedDegenerate]
  · exact Block.isSound_of_forall (by simp)

theorem isSound_captureOnce : (captureOnce : Stmt α).IsSound known := by
  rw [captureOnce, Stmt.isSound_onlyIf]
  exact ⟨by simp, isSound_capture⟩

omit [Trigonometric α] in
theorem isSound_settleRestore : Block.IsSound known (settleRestore : Block α) :=
  Block.isSound_map fun channel _ => by simp

theorem isSound_beginRestore (steps : α) : Block.IsSound known (beginRestore number steps) :=
  .cons isSound_captureOnce (.cons (by simp) (Block.isSound_map fun channel _ => by simp))

/-! ### Other effects -/

theorem isSound_showNow (visible : Bool) : Block.IsSound known (showNow visible : Block α) :=
  Block.isSound_of_forall (by simp [showNow])

theorem isSound_prepareSound (name : String) (volume : Option α) :
    Block.IsSound known (prepareSound name volume) := by
  rw [prepareSound]
  split
  · exact Block.isSound_guarded (by simp) (Block.isSound_of_forall (by simp))
  · exact Block.isSound_nil

theorem isSound_settleSound (name : String) (volume : Option α) :
    Block.IsSound known (settleSound name volume) := by
  refine .cons (by simp) ?_
  split
  · exact Block.isSound_of_forall (by simp [stopPlaying])
  · exact Block.isSound_nil

theorem isSound_changeTimeline (name : String) (change : TimelineChange) :
    Block.IsSound known (changeTimeline name change : Block α) := by
  have rewinds : Block.IsSound known (rewind name : Block α) :=
    Block.isSound_of_forall (by simp [rewind])
  cases change with
  | start => exact rewinds
  | startIfNotStarted => exact Block.isSound_guarded (by simp) rewinds
  | _ => exact Block.isSound_singleton.mpr (by simp)

theorem isSound_toggleTrigger (name : String) (enabled : Bool) :
    Block.IsSound known (toggleTrigger name enabled : Block α) :=
  Block.isSound_of_forall (by simp [toggleTrigger])

/-! ### Phases -/

/-- The object at which a movement is aimed is known. -/
def AimsAtKnown (known : String → Bool) : Effect α → Prop
  | .move motion => ∀ object, motion.shift.reference? = some object → known object
  | _ => True

variable {effect : Effect α} (aimed : effect.AimsAtKnown known)

include aimed

theorem isSound_now : Block.IsSound known effect.now := by
  cases effect with
  | fade visible => exact isSound_showNow visible
  | move motion => exact (isSound_shiftNow aimed).append (isSound_turnNow motion.turn)
  | sound name volume =>
    exact (isSound_prepareSound name volume).append (isSound_settleSound name volume)
  | timeline name change => exact isSound_changeTimeline name change
  | restore => exact .cons isSound_captureOnce isSound_settleRestore
  | toggle name enabled => exact isSound_toggleTrigger name enabled

theorem isSound_start (steps : α) : Block.IsSound known (effect.start number steps) := by
  cases effect with
  | fade visible => exact Block.isSound_of_forall (by simp [start, beginFade])
  | move motion =>
    exact (isSound_beginShift number aimed steps).append (isSound_beginTurn number steps motion.turn)
  | sound name volume =>
    exact (isSound_prepareSound name volume).append (Block.isSound_singleton.mpr (by simp))
  | timeline name change => exact isSound_changeTimeline name change
  | restore => exact isSound_beginRestore number steps
  | toggle name enabled => exact isSound_toggleTrigger name enabled

omit aimed in
theorem isSound_advance (effect : Effect α) (steps : α) :
    Block.IsSound known (effect.advance number steps) := by
  cases effect with
  | fade visible => exact Block.isSound_singleton.mpr (by simp)
  | move motion =>
    exact (isSound_advanceShift number motion.shift).append
      (isSound_advanceTurn number steps motion.turn)
  | sound name volume => exact Block.isSound_singleton.mpr (by simp)
  | restore => exact Block.isSound_map fun channel _ => by simp
  | _ => exact Block.isSound_nil

omit aimed in
theorem isSound_settle (effect : Effect α) : Block.IsSound known (effect.settle number) := by
  cases effect with
  | fade visible => exact isSound_showNow visible
  | move motion =>
    exact (isSound_settleShift number motion.shift).append (isSound_settleTurn number motion.turn)
  | sound name volume => exact isSound_settleSound name volume
  | restore => exact isSound_settleRestore
  | _ => exact Block.isSound_nil

theorem isSound_phases (timing : Timing α) (phase : Phase) :
    Block.IsSound known ((effect.phases number timing).get phase) := by
  rw [phases]
  split
  · cases phase with
    | enter => exact isSound_now aimed
    | _ => exact Block.isSound_nil
  · cases phase with
    | enter => exact isSound_start number aimed timing.steps
    | advance => exact isSound_advance number effect timing.steps
    | exit => exact isSound_settle number effect

omit aimed in
theorem isSound_setup (effect : Effect α) : Block.IsSound known effect.setup := by
  cases effect with
  | restore => exact isSound_capture
  | _ => exact Block.isSound_nil

end Effect

/-! ### Instances -/

namespace Instance

variable [Trigonometric α] {self : Instance α} (aimed : self.effect.AimsAtKnown known)

include aimed

theorem isSound_phase (phase : Phase) : Block.IsSound known (self.phases.get phase) :=
  Effect.isSound_phases self.number aimed self.timing phase

theorem isSound_opening : Block.IsSound known self.opening := by
  refine (isSound_phase aimed .enter).append ?_
  split
  · exact Block.isSound_of_forall (by simp)
  · exact Block.isSound_nil

theorem isSound_dispatch (targets : ∀ target ∈ self.targets, known target) :
    Block.IsSound known self.dispatch :=
  Block.isSound_map fun target member =>
    (Stmt.isSound_within _ _).mpr ⟨targets target member, isSound_opening aimed⟩

theorem isSound_advance : Block.IsSound known self.advance := by
  rw [advance]
  split
  · exact Block.isSound_guarded (by simp)
      ((isSound_phase aimed .advance).append (Block.isSound_singleton.mpr (by simp)))
  · exact Block.isSound_nil

theorem isSound_finish : Block.IsSound known self.finish := by
  rw [finish]
  split
  · exact Block.isSound_guarded (by simp)
      ((isSound_phase aimed .exit).append (Block.isSound_singleton.mpr (by simp)))
  · exact Block.isSound_nil

end Instance

end Stagecraft
