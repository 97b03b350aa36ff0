/-
This file says which numbers an effect brings into logic that are not given but worked out. A fade
brings what it divides by, and so does a movement to a place; a movement by an offset brings the
quotients, and a turn the parts of its quaternions. If the given numbers are as demanded, the phases
of an action meet the demand exactly if what is worked out for it does.
-/

import Stagecraft.Action.Instance
import Stagecraft.Proofs.Action.Numbering
import Stagecraft.Proofs.Logic.Demands
import Stagecraft.Proofs.Scene.Checks

namespace Stagecraft

variable {α : Type} [Trigonometric α] {demand : Demand α}

/-! ### Components -/

@[simp] theorem Demand.ofBool (condition : Bool) : demand.number (Scalar.ofBool condition) := by
  cases condition <;> simp [Scalar.ofBool]

theorem Part.forall_iff {holds : Part → Prop} :
    (∀ part, holds part) ↔ holds .w ∧ holds .x ∧ holds .y ∧ holds .z := by
  constructor
  · exact fun each => ⟨each .w, each .x, each .y, each .z⟩
  · rintro ⟨w, x, y, z⟩ part
    cases part with
    | w => exact w
    | x => exact x
    | y => exact y
    | z => exact z

namespace Quaternion

/-- All parts are numbers as demanded. -/
def Meets (demand : Demand α) (q : Quaternion α) : Prop :=
  ∀ part, demand.number (q.get part)

/-- All parts are written as demanded. -/
def AllMeet (demand : Demand α) (q : Quaternion (Expr α)) : Prop :=
  ∀ part, (q.get part).Meets demand

theorem allMeet_ofParts {component : Part → Expr α}
    (meets : ∀ part, (component part).Meets demand) : (ofParts component).AllMeet demand := by
  intro part
  cases part <;> exact meets _

@[simp] theorem allMeet_map (q : Quaternion α) :
    (q.map Expr.num).AllMeet demand ↔ q.Meets demand := by
  simp [AllMeet, Meets, Part.forall_iff, get, map]

theorem allMeet_orientation : orientation.AllMeet demand :=
  allMeet_ofParts fun _ => Expr.meets_read _

theorem AllMeet.dot {p q : Quaternion (Expr α)} (first : p.AllMeet demand)
    (second : q.AllMeet demand) : (p.dot q).Meets demand := by
  simp only [Quaternion.dot, Expr.meets_add, Expr.meets_mul]
  exact ⟨⟨⟨⟨first .w, second .w⟩, first .x, second .x⟩, first .y, second .y⟩, first .z, second .z⟩

@[simp] theorem meets_writeOrientation (q : Quaternion (Expr α)) :
    Block.Meets demand q.writeOrientation ↔ q.AllMeet demand := by
  simp [writeOrientation, AllMeet, Part.all, Part.forall_iff]

/-- Every part of the first factor stands in every part of a product. -/
theorem allMeet_product {p q : Quaternion (Expr α)} (second : q.AllMeet demand) :
    (p.product q).AllMeet demand ↔ p.AllMeet demand := by
  obtain ⟨w, x, y, z⟩ := Part.forall_iff.mp second
  simp only [get] at w x y z
  simp only [AllMeet, Part.forall_iff, get, product, Expr.meets_add, Expr.meets_sub,
    Expr.meets_mul, w, x, y, z, and_true]
  tauto

end Quaternion

/-! ### What is given and what is worked out -/

namespace Shift

/-- The offset is as demanded. It is written as it is given. -/
def Meets (demand : Demand α) : Shift α → Prop
  | .stay => True
  | .absolute offset _ => offset.Meets demand
  | .relative offset => offset.Meets demand

/-- What is divided by, or the quotients, are as demanded. -/
def WorksOut (demand : Demand α) (steps : α) : Shift α → Prop
  | .stay => True
  | .absolute _ _ => demand.number steps
  | .relative offset => ∀ axis, demand.number (offset.get axis / steps)

end Shift

namespace Turn

/-- The orientation to arrive at, or the whole turn, is as demanded. -/
def Meets (demand : Demand α) : Turn α → Prop
  | .keep => True
  | .absolute goal => goal.Meets demand
  | .relative axis angle => (Quaternion.ofAxisAngle axis angle).Meets demand

/-- What is divided by, or the turn in a tick, is as demanded. -/
def WorksOut (demand : Demand α) (steps : α) : Turn α → Prop
  | .keep => True
  | .absolute _ => demand.number steps
  | .relative axis angle => (Quaternion.ofAxisAngle axis (angle / steps)).Meets demand

end Turn

namespace Effect

/-- The numbers of the effect that are written as they are given are as demanded. -/
def Meets (demand : Demand α) : Effect α → Prop
  | .move motion => motion.shift.Meets demand
  | .sound _ volume => demand.number (finalVolume volume)
  | _ => True

/-- The numbers that are worked out for the effect are as demanded. One that happens at once brings
nothing that changes in a tick. -/
def WorksOut (demand : Demand α) (timing : Timing α) : Effect α → Prop
  | .fade _ | .sound _ _ | .restore => timing.isInstant = false → demand.number timing.steps
  | .move motion => motion.turn.Meets demand ∧ (timing.isInstant = false →
    motion.shift.WorksOut demand timing.steps ∧ motion.turn.WorksOut demand timing.steps)
  | .timeline _ _ | .toggle _ _ => True

/-! ### Movements -/

section

variable (number : Nat) (steps : α)

theorem allMeet_targetPosition {offset : Vec α} (given : offset.Meets demand)
    (reference : Option String) : (targetPosition offset reference).AllMeet demand := by
  cases reference with
  | none => exact Vec.Meets.constant given
  | some object => exact (Vec.allMeet_positionOf object).add (Vec.Meets.constant given)

theorem meets_shiftNow {shift : Shift α} (given : shift.Meets demand) :
    Block.Meets demand (shiftNow shift) := by
  cases shift with
  | stay => exact Block.meets_nil
  | absolute offset reference =>
    simpa [shiftNow] using fun axis _ => allMeet_targetPosition given reference axis
  | relative offset => simpa [shiftNow] using fun axis _ => given axis

theorem meets_beginShift {shift : Shift α} (given : shift.Meets demand) :
    Block.Meets demand (beginShift number steps shift) ↔ shift.WorksOut demand steps := by
  cases shift with
  | stay => exact iff_of_true Block.meets_nil trivial
  | absolute offset reference =>
    have target (axis : Axis) := allMeet_targetPosition given reference axis
    simp [beginShift, Expr.perTick, Shift.WorksOut, Axis.all, target]
  | relative offset =>
    have given (axis : Axis) : demand.number (offset.get axis) := given axis
    simp [beginShift, Shift.WorksOut, Axis.all, Axis.forall_iff, given]

theorem meets_advanceShift (shift : Shift α) : Block.Meets demand (advanceShift number shift) := by
  cases shift <;> simp [advanceShift]

theorem meets_settleShift (shift : Shift α) : Block.Meets demand (settleShift number shift) := by
  cases shift <;> simp [settleShift]

theorem meets_turnPresent (rotation : Quaternion α) :
    Block.Meets demand (turnPresent rotation) ↔ rotation.Meets demand := by
  have present (part : Part) : (Expr.var (partName part)).Meets demand := Expr.meets_var _
  simp [turnPresent, Quaternion.allMeet_product (Quaternion.allMeet_ofParts present)]

theorem meets_turnNow (turn : Turn α) : Block.Meets demand (turnNow turn) ↔ turn.Meets demand := by
  cases turn with
  | keep => exact iff_of_true Block.meets_nil trivial
  | absolute goal => simp [turnNow, Turn.Meets]
  | relative axis angle => exact meets_turnPresent _

theorem meets_turn (turn : Turn α) :
    Block.Meets demand (beginTurn number steps turn) ∧
        Block.Meets demand (advanceTurn number steps turn) ∧
        Block.Meets demand (settleTurn number turn) ↔
      turn.Meets demand ∧ turn.WorksOut demand steps := by
  cases turn with
  | keep => simp [beginTurn, advanceTurn, settleTurn, Turn.Meets, Turn.WorksOut]
  | absolute goal =>
    have cosine : goal.Meets demand → (Quaternion.orientation.dot (goal.map .num)).Meets demand :=
      fun given => Quaternion.AllMeet.dot Quaternion.allMeet_orientation
        ((Quaternion.allMeet_map goal).mpr given)
    have parts : (∀ part ∈ Part.all, demand.number (goal.get part)) ↔ goal.Meets demand := by
      simp [Quaternion.Meets, Part.all, Part.forall_iff]
    have steady : (∀ part ∈ Part.all, demand.number steps) ↔ demand.number steps := by
      simp [Part.all]
    have settled : (Quaternion.ofParts fun part => (goalSlot number part).read).AllMeet demand :=
      Quaternion.allMeet_ofParts fun part => Expr.meets_read _
    simp [beginTurn, advanceTurn, settleTurn, Expr.perTick, Turn.Meets, Turn.WorksOut, parts,
      steady, settled, and_iff_right_of_imp cosine, ← and_assoc]
  | relative axis angle =>
    have origin (part : Part) : (originSlot number part).read.Meets demand :=
      Expr.meets_read _
    simp [beginTurn, advanceTurn, settleTurn, meets_turnPresent, Turn.Meets, Turn.WorksOut,
      Quaternion.allMeet_product (Quaternion.allMeet_ofParts origin), and_comm]

/-! ### Phases -/

theorem meets_showNow (visible : Bool) : Block.Meets demand (showNow visible) := by
  simp [showNow]

theorem meets_prepareSound (name : String) (volume : Option α) :
    Block.Meets demand (prepareSound name volume) := by
  cases volume <;> simp [prepareSound, startPlaying]

theorem meets_settleSound (name : String) {volume : Option α}
    (given : demand.number (finalVolume volume)) :
    Block.Meets demand (settleSound name volume) := by
  cases volume <;> simp [settleSound, stopPlaying, given]

theorem meets_changeTimeline (name : String) (change : TimelineChange) :
    Block.Meets demand (changeTimeline name change) := by
  cases change <;> simp [changeTimeline, rewind]

theorem meets_toggleTrigger (name : String) (enabled : Bool) :
    Block.Meets demand (toggleTrigger name enabled) := by
  cases enabled <;> simp [toggleTrigger, enabledState, disabledState]

theorem meets_capture : Block.Meets demand capture := by
  simp [capture, isCapturedDegenerate]

theorem meets_captureOnce : captureOnce.Meets demand := by
  simp [captureOnce, meets_capture]

theorem meets_restoreNow : Block.Meets demand restoreNow := by
  simp [restoreNow, settleRestore, meets_captureOnce]

/-- A fade and a way back are written with constants and with what they divide by. -/
theorem meets_begin (visible : Bool) :
    (Block.Meets demand (beginFade number steps visible) ↔ demand.number steps) ∧
      (Block.Meets demand (beginRestore number steps) ↔ demand.number steps) := by
  simp [beginFade, beginRestore, Expr.perTick, meets_captureOnce, Channel.gradual,
    Axis.all, Part.all]

end

variable {effect : Effect α} (given : effect.Meets demand) {timing : Timing α}

include given

theorem meets_now (instant : timing.isInstant = true) :
    Block.Meets demand effect.now ↔ effect.WorksOut demand timing := by
  have still {promised : Prop} : timing.isInstant = false → promised := by simp [instant]
  cases effect with
  | fade visible => exact iff_of_true (meets_showNow visible) still
  | move motion =>
    rw [now, moveNow, Block.meets_append, meets_turnNow]
    exact (and_iff_right (meets_shiftNow given)).trans (and_iff_left still).symm
  | sound name volume =>
    rw [now, Block.meets_append]
    exact iff_of_true ⟨meets_prepareSound name volume, meets_settleSound name given⟩ still
  | timeline name change => exact iff_of_true (meets_changeTimeline name change) trivial
  | restore => exact iff_of_true meets_restoreNow still
  | toggle name enabled => exact iff_of_true (meets_toggleTrigger name enabled) trivial

theorem meets_timed (number : Nat) (timed : timing.isInstant = false) :
    Block.Meets demand (effect.start number timing.steps) ∧
        Block.Meets demand (effect.advance number timing.steps) ∧
        Block.Meets demand (effect.settle number) ↔
      effect.WorksOut demand timing := by
  cases effect with
  | fade visible =>
    have advanced : Block.Meets demand (advanceFade number) := by simp [advanceFade]
    rw [and_iff_left ⟨advanced, meets_showNow visible⟩]
    exact (meets_begin number timing.steps visible).1.trans (imp_iff_right timed).symm
  | move motion =>
    simp only [start, advance, settle, beginMotion, advanceMotion, settleMotion,
      Block.meets_append, meets_beginShift number timing.steps given, meets_advanceShift,
      meets_settleShift, true_and]
    have together : (move motion).WorksOut demand timing ↔
        motion.shift.WorksOut demand timing.steps ∧
          motion.turn.Meets demand ∧ motion.turn.WorksOut demand timing.steps := by
      rw [WorksOut, imp_iff_right timed, and_left_comm]
    rw [together, ← meets_turn number, and_assoc]
  | sound name volume =>
    have written : Block.Meets demand (beginSound number timing.steps name volume) ↔
        demand.number timing.steps := by
      have given : demand.number (finalVolume volume) := given
      simp [beginSound, Expr.perTick, meets_prepareSound, given]
    have advanced : Block.Meets demand (advanceSound number name) := by
      simp [advanceSound]
    rw [and_iff_left ⟨advanced, meets_settleSound name given⟩]
    exact written.trans (imp_iff_right timed).symm
  | timeline name change =>
    exact iff_of_true ⟨meets_changeTimeline name change, Block.meets_nil, Block.meets_nil⟩ trivial
  | restore =>
    have advanced : Block.Meets demand (advanceRestore number) := by
      simp [advanceRestore]
    have settled : Block.Meets demand settleRestore := by simp [settleRestore]
    rw [and_iff_left ⟨advanced, settled⟩]
    exact (meets_begin number timing.steps true).2.trans (imp_iff_right timed).symm
  | toggle name enabled =>
    exact iff_of_true ⟨meets_toggleTrigger name enabled, Block.meets_nil, Block.meets_nil⟩ trivial

/-- The phases of an effect meet a demand exactly if the numbers do that are worked out for it. -/
theorem meets_phases (number : Nat) :
    (∀ phase, Block.Meets demand ((effect.phases number timing).get phase)) ↔
      effect.WorksOut demand timing := by
  have phasewise {phases : Phases α} : (∀ phase, Block.Meets demand (phases.get phase)) ↔
      Block.Meets demand phases.enter ∧ Block.Meets demand phases.advance ∧
        Block.Meets demand phases.exit := by
    constructor
    · exact fun each => ⟨each .enter, each .advance, each .exit⟩
    · rintro ⟨enter, advance, exit⟩ phase
      cases phase
      · exact enter
      · exact advance
      · exact exit
  rw [phasewise, phases]
  cases instant : timing.isInstant with
  | true =>
    exact (and_iff_left ⟨Block.meets_nil, Block.meets_nil⟩).trans (meets_now given instant)
  | false => exact meets_timed given number instant

omit given in
theorem meets_setup (effect : Effect α) : Block.Meets demand effect.setup := by
  cases effect with
  | restore => exact meets_capture
  | _ => exact Block.meets_nil

end Effect

/-! ### What resolution gives -/

theorem Shift.meets_of_ofPlacement {context : Context} {placement : Placement α}
    {relative : Bool} {shift : Shift α}
    (placed : ofPlacement context placement relative = .ok shift) : shift.Meets demand := by
  rw [ofPlacement] at placed
  split at placed
  · rw [← Except.ok.inj placed]
    trivial
  · obtain ⟨position, checked, placed⟩ := Outcome.bind_eq_ok.mp placed
    obtain ⟨finite, rfl⟩ := (Check.checks_finiteVec _ _).mp checked
    split at placed
    · rw [← Outcome.pure_eq_ok.mp placed]
      exact finite.meets
    · exact absurd placed Outcome.throw_ne_ok
    · rw [← Outcome.pure_eq_ok.mp placed]
      exact finite.meets
    · rw [← Outcome.pure_eq_ok.mp placed]
      exact finite.meets

theorem Motion.meets_of_ofPlacement {context : Context} {placement : Placement α}
    {relative : Bool} {motion : Motion α}
    (placed : ofPlacement context placement relative = .ok motion) : motion.shift.Meets demand := by
  obtain ⟨shift, shifted, placed⟩ := Outcome.bind_eq_ok.mp placed
  obtain ⟨turn, -, placed⟩ := Outcome.bind_eq_ok.mp placed
  split at placed
  · exact absurd placed Outcome.throw_ne_ok
  · rw [← Outcome.pure_eq_ok.mp placed]
    exact Shift.meets_of_ofPlacement shifted

section

variable {directory : Directory α} {context : Context}

theorem Effect.Made.meets {kind : ActionKind α} {effect : Effect α}
    (made : Made directory context kind effect) : effect.Meets demand := by
  cases made with
  | move placement relative motion placed => exact Motion.meets_of_ofPlacement placed
  | sound name change volume heard =>
    cases change with
    | start volume =>
      rw [finalVolume?] at heard
      split at heard
      · rename_i inRange
        rw [← Except.ok.inj heard]
        exact demand.of_finite inRange.1
      · cases heard
    | stop =>
      rw [← Except.ok.inj heard]
      exact demand.zero
  | fade | restore => trivial

theorem Action.Resolves.meets {owner : String} {action : Action α} {targets : List String}
    {effect : Effect α} (resolves : action.Resolves directory context owner targets effect) :
    effect.Meets demand := by
  cases resolves with
  | timeline | toggle => trivial
  | group _ _ made => exact (Effect.made_of_ofObjectAction made).meets
  | object _ made => exact (Effect.made_of_ofObjectAction made).meets

end

/-! ### Instances -/

namespace Instance

variable {action : Instance α}

/-- The numbers that are worked out for the action are as demanded. -/
def WorksOut (demand : Demand α) (action : Instance α) : Prop :=
  action.effect.WorksOut demand action.timing

/-- Where nothing is asked of numbers, nothing has to be worked out. -/
theorem worksOut_of_forall (each : ∀ value, demand.number value) : action.WorksOut demand := by
  obtain ⟨number, label, targets, timing, effect⟩ := action
  cases effect with
  | move motion =>
    obtain ⟨shift, turn⟩ := motion
    have shifts : shift.WorksOut demand timing.steps := by
      cases shift with
      | stay => trivial
      | absolute => exact each _
      | relative => exact fun _ => each _
    cases turn with
    | keep => exact ⟨trivial, fun _ => ⟨shifts, trivial⟩⟩
    | absolute => exact ⟨fun _ => each _, fun _ => ⟨shifts, each _⟩⟩
    | relative => exact ⟨fun _ => each _, fun _ => ⟨shifts, fun _ => each _⟩⟩
  | fade | sound | restore => exact fun _ => each _
  | timeline | toggle => trivial

theorem meets_dispatch (meets : ∀ phase, Block.Meets demand (action.phases.get phase)) :
    Block.Meets demand action.dispatch := by
  have opening : Block.Meets demand action.opening := by
    rw [Instance.opening, Block.meets_append]
    refine ⟨meets .enter, ?_⟩
    split <;> simp
  rw [dispatch, Block.meets_map]
  exact fun target _ => opening

theorem meets_advance (meets : ∀ phase, Block.Meets demand (action.phases.get phase)) :
    Block.Meets demand action.advance := by
  rw [advance]
  split
  · have phase : Block.Meets demand action.phases.advance := meets .advance
    simp [phase]
  · exact Block.meets_nil

theorem meets_finish (meets : ∀ phase, Block.Meets demand (action.phases.get phase)) :
    Block.Meets demand action.finish := by
  rw [finish]
  split
  · have phase : Block.Meets demand action.phases.exit := meets .exit
    have counted : demand.number (Scalar.ofNat action.ticks) := demand.countOf _ _
    simp [phase, counted]
  · exact Block.meets_nil

end Instance

end Stagecraft
