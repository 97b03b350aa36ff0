/-
This file shows that logic is handed on to other objects only by dispatching actions. The statements
that run a block on a named object are collected without running anything; what an effect does on
its target contains none, so those of a piece of logic are the dispatches of its actions, in order.
A dispatch is left out where it has no effect, and then it has no targets.
-/

import Stagecraft.Program.Contract
import Stagecraft.Program.Owned
import Stagecraft.Proofs.Effect.Locality

namespace Stagecraft

variable {α : Type}

/-! ### Statements -/

mutual

/-- The statements that run a block on a named object, in order. -/
def Stmt.withins : Stmt α → List (Stmt α)
  | .branch _ yes no => Block.withins yes ++ Block.withins no
  | .within object body => .within object body :: Block.withins body
  | _ => []

def Block.withins : List (Stmt α) → List (Stmt α)
  | [] => []
  | stmt :: rest => stmt.withins ++ Block.withins rest

end

namespace Block

@[simp] theorem withins_nil : withins ([] : Block α) = [] := by
  rw [withins]

@[simp] theorem withins_cons (stmt : Stmt α) (rest : Block α) :
    withins (stmt :: rest) = stmt.withins ++ withins rest := by
  rw [withins]

@[simp] theorem withins_append (first second : Block α) :
    withins (first ++ second) = withins first ++ withins second := by
  induction first with
  | nil => simp
  | cons stmt rest inductionHypothesis => simp [inductionHypothesis]

theorem withins_flatMap {β : Type} (values : List β) (block : β → Block α) :
    withins (values.flatMap block) = values.flatMap fun value => withins (block value) := by
  induction values with
  | nil => simp
  | cons value rest inductionHypothesis => simp [inductionHypothesis]

theorem withins_map {β : Type} {values : List β} {statement : β → Stmt α}
    (none : ∀ value ∈ values, (statement value).withins = []) :
    withins (values.map statement) = [] := by
  induction values with
  | nil => simp
  | cons value rest inductionHypothesis =>
    obtain ⟨here, later⟩ := List.forall_mem_cons.mp none
    simp [here, inductionHypothesis later]

end Block

@[simp] theorem Slot.withins_write (slot : Slot) (value : Expr α) :
    (slot.write value).withins = [] := by
  rw [Slot.write, Stmt.withins] <;> simp

namespace Stmt

@[simp] theorem withins_bind (name : String) (value : Expr α) : (bind name value).withins = [] := by
  rw [withins] <;> simp

@[simp] theorem withins_host (call : HostCall) : (host call : Stmt α).withins = [] := by
  rw [withins] <;> simp

@[simp] theorem withins_comment (text : String) : (comment text : Stmt α).withins = [] := by
  rw [withins] <;> simp

@[simp] theorem withins_onlyIf (condition : Expr α) (body : Block α) :
    (onlyIf condition body).withins = Block.withins body := by
  rw [onlyIf, withins, Block.withins_nil, List.append_nil]

@[simp] theorem withins_within (object : String) (body : Block α) :
    (within object body).withins = within object body :: Block.withins body := by
  rw [withins]

end Stmt

mutual

/-- Logic that names no object runs no block on one. -/
theorem Stmt.withins_of_named : (stmt : Stmt α) → stmt.named = [] → stmt.withins = []
  | .set key value, _ => by rw [Stmt.withins] <;> simp
  | .bind name value, _ => Stmt.withins_bind name value
  | .branch condition yes no, home => by
    simp only [Stmt.named, List.append_eq_nil_iff] at home
    rw [Stmt.withins, Block.withins_of_named yes home.2.1, Block.withins_of_named no home.2.2]
    rfl
  | .within object body, home => by simp [Stmt.named] at home
  | .host call, _ => Stmt.withins_host call
  | .comment text, _ => Stmt.withins_comment text

theorem Block.withins_of_named : (block : List (Stmt α)) → Block.named block = [] →
    Block.withins block = []
  | [], _ => Block.withins_nil
  | stmt :: rest, home => by
    simp only [Block.named_cons, List.append_eq_nil_iff] at home
    rw [Block.withins_cons, Stmt.withins_of_named stmt home.1, Block.withins_of_named rest home.2]
    rfl

end

/-! ### Effects -/

namespace Effect

section

variable (number : Nat)

theorem withins_writeOrientation (value : Quaternion (Expr α)) :
    Block.withins value.writeOrientation = [] :=
  Block.withins_map fun _ _ => Slot.withins_write _ _

theorem withins_turnPresent (rotation : Quaternion α) :
    Block.withins (turnPresent rotation) = [] := by
  rw [turnPresent, Block.withins_append, withins_writeOrientation,
    Block.withins_map fun _ _ => Stmt.withins_bind _ _, List.nil_append]

theorem withins_shiftNow (shift : Shift α) : Block.withins (shiftNow shift) = [] := by
  cases shift with
  | stay => exact Block.withins_nil
  | _ => exact Block.withins_map fun axis _ => Slot.withins_write _ _

theorem withins_beginShift [Div α] (steps : α) (shift : Shift α) :
    Block.withins (beginShift number steps shift) = [] := by
  cases shift with
  | stay => exact Block.withins_nil
  | absolute offset reference =>
    rw [beginShift, Block.withins_append, Block.withins_map fun axis _ => Slot.withins_write _ _,
      Block.withins_map fun axis _ => Slot.withins_write _ _, List.nil_append]
  | relative offset => simp [beginShift, Block.withins_flatMap]

end

variable [Trigonometric α] (number : Nat)

theorem withins_turnNow (turn : Turn α) : Block.withins (turnNow turn) = [] := by
  cases turn with
  | keep => exact Block.withins_nil
  | absolute goal => exact withins_writeOrientation _
  | relative axis angle => exact withins_turnPresent _

theorem withins_beginTurn (steps : α) (turn : Turn α) :
    Block.withins (beginTurn number steps turn) = [] := by
  cases turn with
  | keep => exact Block.withins_nil
  | absolute goal =>
    rw [beginTurn, List.cons_append, Block.withins_cons, Block.withins_append, Stmt.withins_bind,
      Block.withins_map fun part _ => Slot.withins_write _ _,
      Block.withins_map fun part _ => Slot.withins_write _ _]
    rfl
  | relative axis angle => exact Block.withins_map fun part _ => Slot.withins_write _ _

theorem withins_capture : Block.withins (capture : Block α) = [] := by
  rw [capture, Block.withins_append, Block.withins_map fun channel _ => Slot.withins_write _ _]
  simp

theorem withins_changeTimeline (name : String) (change : TimelineChange) :
    Block.withins (changeTimeline name change : Block α) = [] := by
  cases change <;> simp [changeTimeline, rewind]

theorem withins_prepareSound (name : String) (volume : Option α) :
    Block.withins (prepareSound name volume) = [] := by
  rw [prepareSound]
  split
  · simp [startPlaying]
  · exact Block.withins_nil

/-- How an effect begins runs no block on a named object. -/
theorem withins_phases (effect : Effect α) (timing : Timing α) :
    Block.withins (effect.phases number timing).enter = [] := by
  have restores : Block.withins (restoreNow : Block α) = [] := by
    rw [restoreNow, Block.withins_cons, captureOnce, Stmt.withins_onlyIf, withins_capture,
      settleRestore, Block.withins_map fun channel _ => Slot.withins_write _ _]
    rfl
  have begins (steps : α) : Block.withins (beginRestore number steps) = [] := by
    rw [beginRestore, Block.withins_cons, Block.withins_cons, captureOnce, Stmt.withins_onlyIf,
      withins_capture, Slot.withins_write, Block.withins_map fun channel _ => Slot.withins_write _ _]
    rfl
  rw [phases]
  split
  · cases effect with
    | fade visible => simp [now, showNow]
    | move motion => simp [now, moveNow, withins_shiftNow, withins_turnNow]
    | sound name volume =>
      simp [now, withins_prepareSound, Block.withins_of_named _ (named_settleSound name volume)]
    | timeline name change => exact withins_changeTimeline name change
    | restore => exact restores
    | toggle name enabled => simp [now, toggleTrigger]
  · cases effect with
    | fade visible => simp [start, beginFade]
    | move motion => simp [start, beginMotion, withins_beginShift, withins_beginTurn]
    | sound name volume => simp [start, beginSound, withins_prepareSound]
    | timeline name change => exact withins_changeTimeline name change
    | restore => exact begins _
    | toggle name enabled => simp [start, toggleTrigger]

theorem withins_setup (effect : Effect α) : Block.withins effect.setup = [] := by
  cases effect with
  | restore => exact withins_capture
  | _ => exact Block.withins_nil

end Effect

/-! ### Dispatches -/

namespace Instance

variable [Trigonometric α] (self : Instance α)

theorem withins_opening : Block.withins self.opening = [] := by
  rw [opening, phases, Block.withins_append, Effect.withins_phases, List.nil_append]
  split <;> simp

theorem withins_dispatch : Block.withins self.dispatch = self.dispatch := by
  rw [dispatch]
  induction self.targets with
  | nil => exact Block.withins_nil
  | cons target rest inductionHypothesis =>
    rw [List.map_cons, Block.withins_cons, Stmt.withins_within, withins_opening,
      inductionHypothesis]
    rfl

end Instance

theorem Owned.withins_dispatchAll [Trigonometric α] (actions : List (Instance α)) :
    Block.withins (dispatchAll actions) = dispatchAll actions := by
  rw [dispatchAll, Block.withins_flatMap]
  exact List.flatMap_congr fun action _ => action.withins_dispatch

/-! ### Effective dispatches -/

theorem Block.isEffective_append (first second : Block α) :
    isEffective (first ++ second) = (isEffective first || isEffective second) := by
  induction first with
  | nil => simp [isEffective]
  | cons stmt rest inductionHypothesis =>
    rw [List.cons_append, isEffective, isEffective, inductionHypothesis, Bool.or_assoc]

theorem Block.isEffective_of_mem {stmt : Stmt α} {block : Block α} (member : stmt ∈ block)
    (effective : stmt.isEffective) : isEffective block := by
  induction block with
  | nil => cases member
  | cons first rest inductionHypothesis =>
    rw [isEffective, Bool.or_eq_true]
    rcases List.mem_cons.mp member with rfl | member
    · exact .inl effective
    · exact .inr (inductionHypothesis member)

variable [Trigonometric α]

/-- An action that keeps its contract has an effect when it is dispatched. -/
theorem Instance.isEffective_opening {action : Instance α} (kept : action.breach? = none) :
    Block.isEffective action.opening := by
  rw [opening, Block.isEffective_append, Bool.or_eq_true]
  rw [breach?] at kept
  split at kept
  · rename_i timed
    right
    rw [if_pos timed]
    rfl
  · split at kept
    · cases kept
    · rename_i notIdle
      left
      simpa [Block.isIdle] using notIdle

/-- What several actions dispatch is idle only if it is empty. -/
theorem Owned.isIdle_dispatchAll {actions : List (Instance α)}
    (kept : ∀ action ∈ actions, action.breach? = none) (nonempty : dispatchAll actions ≠ []) :
    Block.isIdle (dispatchAll actions) = false := by
  obtain ⟨stmt, member⟩ := List.exists_mem_of_ne_nil _ nonempty
  obtain ⟨action, inActions, isDispatch⟩ := List.mem_flatMap.mp member
  obtain ⟨target, -, rfl⟩ := List.mem_map.mp isDispatch
  have effective : (Stmt.within target action.opening).isEffective := by
    rw [Stmt.isEffective]
    exact action.isEffective_opening (kept action inActions)
  rw [Block.isIdle, Block.isEffective_of_mem member effective]
  rfl

/-! ### Sources -/

theorem Sensor.withins_before (epsilon : α) (watch : Watch) (sensor : Sensor α) :
    Block.withins (sensor.before epsilon watch) = [] := by
  cases sensor <;> simp [before]

theorem Sensor.withins_after (watch : Watch) (sensor : Sensor α) :
    Block.withins (sensor.after watch) = [] := by
  cases sensor <;> simp [after, Axis.all]

/-- Watching a sensor hands on what it dispatches, and nothing else. -/
theorem Watch.withins_evaluate (watch : Watch) (sensor : Sensor α) (epsilon : α) (remain : Bool)
    {dispatch : Block α} (effective : dispatch ≠ [] → Block.isIdle dispatch = false) :
    Block.withins (watch.evaluate sensor epsilon remain dispatch) = Block.withins dispatch := by
  simp only [evaluate, Block.withins_append, Block.withins_cons, Sensor.withins_before,
    Sensor.withins_after, Stmt.withins_bind, Slot.withins_write, List.nil_append, List.append_nil]
  split
  · rename_i idle
    by_cases empty : dispatch = []
    · rw [empty]
    · rw [effective empty] at idle
      cases idle
  · rw [Block.withins_cons, Stmt.withins_onlyIf, Block.withins_nil, List.append_nil]

/-- A timeline hands on what its entries dispatch, in their order. -/
theorem Sequence.withins_run (sequence : Sequence α) :
    Block.withins sequence.run = sequence.cues.flatMap (·.action.dispatch) := by
  have chain (entries : List (Cue α × Nat)) :
      Block.withins (entries.map fun entry => sequence.dispatchAt entry.1 entry.2) =
        (entries.map (·.1)).flatMap (·.action.dispatch) := by
    induction entries with
    | nil => exact Block.withins_nil
    | cons entry rest inductionHypothesis =>
      rw [List.map_cons, Block.withins_cons, inductionHypothesis, List.map_cons, List.flatMap_cons]
      simp [dispatchAt, Instance.withins_dispatch]
  have cues := chain sequence.cues.zipIdx
  rw [List.zipIdx_map_fst] at cues
  rw [run, Block.withins_cons, Block.withins_cons, Stmt.withins_onlyIf, Block.withins_append,
    show Block.withins (sequence.cues.zipIdx.map _) = _ from cues]
  simp [countTick, stopAtEnd]

theorem Sequence.withins_setup (sequence : Sequence α) : Block.withins sequence.setup = [] := by
  rw [setup]
  split
  · exact Effect.withins_changeTimeline _ _
  · exact Block.withins_nil

end Stagecraft
