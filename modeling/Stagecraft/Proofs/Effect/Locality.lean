/-
This file shows that an action that goes on concerns its target only. How an effect advances and
settles reads and writes slots of the object it runs on and names no other one; only at its
beginning may a movement look at a reference object, and without one it names none either.
-/

import Stagecraft.Action.Resolution
import Stagecraft.Proofs.Logic.Locality

namespace Stagecraft

variable {α : Type}

/-! ### Expressions -/

@[simp] theorem Slot.named_read (slot : Slot) : (slot.read : Expr α).named = [] := by
  rw [Slot.read, Expr.named] <;> simp

@[simp] theorem Slot.named_write (slot : Slot) (value : Expr α) :
    (slot.write value).named = value.named := by
  rw [Slot.write, Stmt.named]

namespace Expr

@[simp] theorem named_num (value : α) : (num value).named = [] := by
  rw [named] <;> simp

@[simp] theorem named_var (name : String) : (var name : Expr α).named = [] := by
  rw [named] <;> simp

@[simp] theorem named_add (left right : Expr α) :
    (left + right).named = left.named ++ right.named := by
  show (binary .add left right).named = _
  rw [named]

@[simp] theorem named_sub (left right : Expr α) :
    (left - right).named = left.named ++ right.named := by
  show (binary .sub left right).named = _
  rw [named]

@[simp] theorem named_mul (left right : Expr α) :
    (left * right).named = left.named ++ right.named := by
  show (binary .mul left right).named = _
  rw [named]

@[simp] theorem named_lt (left right : Expr α) :
    (left.lt right).named = left.named ++ right.named := by
  rw [lt, named]

@[simp] theorem named_equals (left right : Expr α) :
    (left.equals right).named = left.named ++ right.named := by
  rw [equals, named]

@[simp] theorem named_or (left right : Expr α) :
    (left.or right).named = left.named ++ right.named := by
  rw [or, named]

@[simp] theorem named_select (condition yes no : Expr α) :
    (select condition yes no).named = condition.named ++ (yes.named ++ no.named) := by
  rw [named]

@[simp] theorem named_perTick (target current : Expr α) (steps : α) :
    (perTick target current steps).named = target.named ++ current.named := by
  show (binary .div (target - current) (num steps)).named = _
  rw [named, named_sub, named_num, List.append_nil]

@[simp] theorem named_ge (left right : Expr α) :
    (left.ge right).named = left.named ++ right.named := by
  rw [ge, named]

@[simp] theorem named_and (left right : Expr α) :
    (left.and right).named = left.named ++ right.named := by
  rw [and, named]

@[simp] theorem named_isSet [Scalar α] (value : Expr α) : value.isSet.named = value.named := by
  rw [isSet, differs, named, named_num, List.append_nil]

end Expr

@[simp] theorem Expr.named_flag [Scalar α] (condition : Expr α) :
    condition.flag.named = condition.named := by
  rw [flag, named_select, named_num, named_num, List.append_nil, List.append_nil]

@[simp] theorem Stmt.named_bind (name : String) (value : Expr α) :
    (Stmt.bind name value).named = value.named := by
  rw [Stmt.named]

@[simp] theorem Stmt.named_host (call : HostCall) : (Stmt.host call : Stmt α).named = [] := by
  rw [Stmt.named] <;> simp

@[simp] theorem Stmt.named_onlyIf (condition : Expr α) (body : Block α) :
    (Stmt.onlyIf condition body).named = condition.named ++ Block.named body := by
  rw [Stmt.onlyIf, Stmt.named, Block.named_nil, List.append_nil]

@[simp] theorem Block.named_append (first second : Block α) :
    Block.named (first ++ second) = Block.named first ++ Block.named second := by
  induction first with
  | nil => simp
  | cons stmt rest inductionHypothesis => simp [inductionHypothesis]

theorem Block.named_map {β : Type} {values : List β} {statement : β → Stmt α}
    (home : ∀ value ∈ values, (statement value).named = []) :
    Block.named (values.map statement) = [] :=
  Block.named_eq_nil.mpr (List.forall_mem_map.mpr home)

theorem Block.named_flatMap {β : Type} {values : List β} {block : β → Block α}
    (home : ∀ value ∈ values, Block.named (block value) = []) :
    Block.named (values.flatMap block) = [] := by
  refine Block.named_eq_nil.mpr fun stmt member => ?_
  obtain ⟨value, inValues, inBlock⟩ := List.mem_flatMap.mp member
  exact Block.named_eq_nil.mp (home value inValues) stmt inBlock

/-! ### Orientations -/

namespace Quaternion

theorem named_writeOrientation {value : Quaternion (Expr α)}
    (home : ∀ part, (value.get part).named = []) : Block.named value.writeOrientation = [] :=
  Block.named_map fun part _ => by rw [Slot.named_write, home]

/-- A constant turn of parts that name no object names none. -/
theorem named_product (turn : Quaternion α) {component : Part → Expr α}
    (home : ∀ part, (component part).named = []) (part : Part) :
    (((turn.map Expr.num).product (ofParts component)).get part).named = [] := by
  cases part <;> simp [product, ofParts, map, get, home]

end Quaternion

/-! ### Effects -/

namespace Effect

variable (number : Nat)

theorem named_turnPresent (rotation : Quaternion α) : Block.named (turnPresent rotation) = [] := by
  rw [turnPresent, Block.named_append, Block.named_map, List.nil_append]
  · exact Quaternion.named_writeOrientation (Quaternion.named_product rotation (by simp))
  · exact fun part _ => by rw [Stmt.named_bind, Slot.named_read]

theorem named_advanceShift (shift : Shift α) : Block.named (advanceShift number shift) = [] := by
  cases shift with
  | stay => exact Block.named_nil
  | _ => exact Block.named_map fun axis _ => by simp

theorem named_settleShift (shift : Shift α) : Block.named (settleShift number shift) = [] := by
  cases shift with
  | stay => exact Block.named_nil
  | _ => exact Block.named_map fun axis _ => by simp

variable [Trigonometric α]

theorem named_advanceTurn (steps : α) (turn : Turn α) :
    Block.named (advanceTurn number steps turn) = [] := by
  cases turn with
  | keep => exact Block.named_nil
  | absolute goal => exact Block.named_map fun part _ => by simp
  | relative axis angle => exact named_turnPresent _

theorem named_settleTurn (turn : Turn α) : Block.named (settleTurn number turn) = [] := by
  cases turn with
  | keep => exact Block.named_nil
  | absolute goal =>
    exact Quaternion.named_writeOrientation fun part => by
      cases part <;> simp [Quaternion.ofParts, Quaternion.get]
  | relative axis angle =>
    exact Quaternion.named_writeOrientation (Quaternion.named_product _ (by simp))

theorem named_showNow (visible : Bool) : Block.named (showNow visible : Block α) = [] := by
  simp [showNow]

theorem named_settleSound (name : String) (volume : Option α) :
    Block.named (settleSound name volume) = [] := by
  rw [settleSound, Block.named_cons, Slot.named_write, Expr.named_num, List.nil_append]
  split
  · simp [stopPlaying]
  · exact Block.named_nil

/-- An effect that goes on names no object. -/
theorem named_advance (effect : Effect α) (steps : α) :
    Block.named (effect.advance number steps) = [] := by
  cases effect with
  | fade visible => simp [advance, advanceFade]
  | move motion =>
    rw [advance, advanceMotion, Block.named_append, named_advanceShift, named_advanceTurn]
    rfl
  | sound name volume => simp [advance, advanceSound]
  | restore => exact Block.named_map fun channel _ => by simp
  | _ => exact Block.named_nil

/-- An effect that ends names no object. -/
theorem named_settle (effect : Effect α) : Block.named (effect.settle number) = [] := by
  cases effect with
  | fade visible => exact named_showNow visible
  | move motion =>
    rw [settle, settleMotion, Block.named_append, named_settleShift, named_settleTurn]
    rfl
  | sound name volume => exact named_settleSound name volume
  | restore => exact Block.named_map fun channel _ => by simp
  | _ => exact Block.named_nil

theorem named_phases (effect : Effect α) (timing : Timing α) (phase : Phase)
    (later : phase ≠ .enter) : Block.named ((effect.phases number timing).get phase) = [] := by
  rw [phases]
  cases phase with
  | enter => exact absurd rfl later
  | advance =>
    split
    · exact Block.named_nil
    · exact named_advance number effect _
  | exit =>
    split
    · exact Block.named_nil
    · exact named_settle number effect

end Effect

/-! ### Beginnings -/

namespace Effect

/-- The object whose position is read when the effect begins. -/
def reference? [Trigonometric α] : Effect α → Option String
  | .move motion => motion.shift.reference?
  | _ => none

section

variable {shift : Shift α}

theorem named_shiftNow [Trigonometric α] (free : shift.reference? = none) :
    Block.named (shiftNow shift) = [] := by
  cases shift with
  | stay => exact Block.named_nil
  | absolute offset reference =>
    obtain rfl : reference = none := free
    exact Block.named_map fun axis _ => by
      cases axis <;> simp [targetPosition, Vec.constant, Vec.map, Vec.get]
  | relative offset => exact Block.named_map fun axis _ => by simp

theorem named_beginShift [Trigonometric α] (number : Nat) (steps : α)
    (free : shift.reference? = none) : Block.named (beginShift number steps shift) = [] := by
  cases shift with
  | stay => exact Block.named_nil
  | absolute offset reference =>
    obtain rfl : reference = none := free
    rw [beginShift, Block.named_append, Block.named_map, Block.named_map, List.append_nil]
    · exact fun axis _ => by simp
    · exact fun axis _ => by cases axis <;> simp [targetPosition, Vec.constant, Vec.map, Vec.get]
  | relative offset => exact Block.named_flatMap fun axis _ => by simp

end

variable [Trigonometric α]

theorem named_turnNow (turn : Turn α) : Block.named (turnNow turn) = [] := by
  cases turn with
  | keep => exact Block.named_nil
  | absolute goal =>
    exact Quaternion.named_writeOrientation fun part => by
      cases part <;> simp [Quaternion.map, Quaternion.get]
  | relative axis angle => exact named_turnPresent _

theorem named_beginTurn (number : Nat) (steps : α) (turn : Turn α) :
    Block.named (beginTurn number steps turn) = [] := by
  cases turn with
  | keep => exact Block.named_nil
  | absolute goal =>
    rw [beginTurn, List.cons_append, Block.named_cons, Block.named_append, Block.named_map,
      Block.named_map]
    · simp [Quaternion.dot, Quaternion.orientation, Quaternion.ofParts, Quaternion.map]
    · exact fun part _ => by simp
    · exact fun part _ => by simp
  | relative axis angle => exact Block.named_map fun part _ => by simp

theorem named_prepareSound (name : String) (volume : Option α) :
    Block.named (prepareSound name volume) = [] := by
  rw [prepareSound]
  split
  · simp [startPlaying]
  · exact Block.named_nil

theorem named_changeTimeline (name : String) (change : TimelineChange) :
    Block.named (changeTimeline name change : Block α) = [] := by
  cases change <;> simp [changeTimeline, rewind]

theorem named_captureOnce : (captureOnce : Stmt α).named = [] := by
  have captures : Block.named (capture : Block α) = [] := by
    rw [capture, Block.named_append, Block.named_map fun channel _ => by simp]
    simp [isCapturedDegenerate]
  simp [captureOnce, captures]

/-- An effect at once names no object but the one where its movement goes. -/
theorem named_now {effect : Effect α} (free : effect.reference? = none) :
    Block.named effect.now = [] := by
  cases effect with
  | fade visible => exact named_showNow visible
  | move motion =>
    rw [now, moveNow, Block.named_append, named_shiftNow free, named_turnNow]
    rfl
  | sound name volume =>
    rw [now, Block.named_append, named_prepareSound, named_settleSound]
    rfl
  | timeline name change => exact named_changeTimeline name change
  | restore =>
    rw [now, restoreNow, Block.named_cons, named_captureOnce]
    exact named_settle 0 (.restore : Effect α)
  | toggle name enabled => simp [now, toggleTrigger]

/-- Neither does an effect that begins to take its time. -/
theorem named_start {effect : Effect α} (number : Nat) (steps : α)
    (free : effect.reference? = none) : Block.named (effect.start number steps) = [] := by
  cases effect with
  | fade visible => simp [start, beginFade]
  | move motion =>
    rw [start, beginMotion, Block.named_append, named_beginShift number steps free, named_beginTurn]
    rfl
  | sound name volume => simp [start, beginSound, named_prepareSound]
  | timeline name change => exact named_changeTimeline name change
  | restore =>
    rw [start, beginRestore, Block.named_cons, Block.named_cons, named_captureOnce,
      Block.named_map fun channel _ => by simp]
    simp
  | toggle name enabled => simp [start, toggleTrigger]

end Effect

/-! ### Instances -/

namespace Instance

variable [Trigonometric α] (self : Instance α)

theorem named_advance : Block.named self.advance = [] := by
  have inside : Block.named self.phases.advance = [] :=
    self.effect.named_phases self.number self.timing .advance (by simp)
  rw [advance]
  split
  · simp [inside]
  · exact Block.named_nil

theorem named_finish : Block.named self.finish = [] := by
  have inside : Block.named self.phases.exit = [] :=
    self.effect.named_phases self.number self.timing .exit (by simp)
  rw [finish]
  split
  · simp [inside]
  · exact Block.named_nil

theorem named_opening (free : self.effect.reference? = none) : Block.named self.opening = [] := by
  have inside : Block.named self.phases.enter = [] := by
    rw [phases, Effect.phases]
    split
    · exact Effect.named_now free
    · exact Effect.named_start _ _ free
  rw [opening, Block.named_append, inside]
  split <;> simp

end Instance

end Stagecraft
