/-
This file shows that no action breaks the contract that a program is checked for. A duration that
is accepted is zero or positive, so an action either takes time or happens at once. Every effect
does something at once and settles on something in the end, since a movement that changes nothing
is refused; effects that only switch something have no end, but they are not allowed to take time.
So the check never fails, and what can be wrong with a scene is a fault of the scene.
-/

import Stagecraft.Proofs.Action.Handing
import Stagecraft.Proofs.Program.Declared
import Stagecraft.Proofs.Scalar.Scheduling

namespace Stagecraft

/-! ### Durations -/

/-- Numbers whose magnitudes are zero or positive, however zero is written. -/
class Measuring (α : Type) [Scalar α] : Prop where
  beq_zero_iff (value : α) : Scalar.isMagnitude value → ((value == 0) = true ↔ ¬0 < value)

namespace Double

open Float.Model

theorem zero_lt_iff (x : Float) :
    0 < x ↔ UnpackedFloat.lt (.zero .positive) x.toModel.unpack = true := by
  show decide ((Float.ofNat 0).toModel < x.toModel) = true ↔ _
  rw [decide_eq_true_iff, ← unpack_zero]
  rfl

/-- Zero has two notations, and neither is positive. -/
instance : Measuring Float where
  beq_zero_iff x magnitude := by
    rw [zero_lt_iff]
    rcases zero_or_standsFor magnitude with ⟨sign, unpacked⟩ | ⟨_, _, _, _, unpacked, _⟩
    · have compared : x.toModel.unpack.compare (Float.ofNat 0).toModel.unpack = some .eq := by
        rw [unpacked, unpack_zero]
        cases sign <;> rfl
      have isZero : (x == 0) = true := beq_of_compare compared
      rw [isZero, unpacked]
      cases sign <;> decide
    · have compared : x.toModel.unpack.compare (Float.ofNat 0).toModel.unpack = some .gt := by
        rw [unpacked, unpack_zero]
        rfl
      have notZero : (x == 0) = false := beq_of_compare compared
      rw [notZero, unpacked]
      exact ⟨fun never => absurd never Bool.false_ne_true, fun notBelow => absurd rfl notBelow⟩

end Double

variable {α : Type}

/-! ### Effects -/

namespace Effect

/-- The effect changes something; only of a movement does that need to be said. -/
def Changes : Effect α → Prop
  | .move motion => motion.shift.Moves ∨ motion.turn.Moves
  | _ => True

/-- The effect switches something, which cannot take time. -/
def IsSwitch : Effect α → Prop
  | .timeline .. | .toggle .. => True
  | _ => False

section

variable (number : Nat)

theorem isEffective_shiftNow {shift : Shift α} (moves : shift.Moves) :
    Block.isEffective (shiftNow shift) := by
  cases shift with
  | stay => cases moves
  | _ => rfl

theorem isEffective_settleShift {shift : Shift α} (moves : shift.Moves) :
    Block.isEffective (settleShift number shift) := by
  cases shift with
  | stay => cases moves
  | _ => rfl

variable [Trigonometric α]

theorem isEffective_turnNow {turn : Turn α} (turns : turn.Moves) :
    Block.isEffective (turnNow turn) := by
  cases turn with
  | keep => cases turns
  | _ => rfl

theorem isEffective_settleTurn {turn : Turn α} (turns : turn.Moves) :
    Block.isEffective (settleTurn number turn) := by
  cases turn with
  | keep => cases turns
  | _ => rfl

/-- An effect that changes something does so at once. -/
theorem isEffective_now {effect : Effect α} (changes : effect.Changes) :
    Block.isEffective effect.now := by
  cases effect with
  | move motion =>
    rw [now, moveNow, Block.isEffective_append, Bool.or_eq_true]
    exact changes.imp isEffective_shiftNow isEffective_turnNow
  | sound name volume =>
    rw [now, Block.isEffective_append, Bool.or_eq_true]
    exact .inr rfl
  | timeline name change => cases change <;> rfl
  | _ => rfl

/-- An effect that takes time and changes something has an exact end. -/
theorem isEffective_settle {effect : Effect α} (changes : effect.Changes)
    (lasting : ¬effect.IsSwitch) : Block.isEffective (effect.settle number) := by
  cases effect with
  | move motion =>
    rw [settle, settleMotion, Block.isEffective_append, Bool.or_eq_true]
    exact changes.imp (isEffective_settleShift number) (isEffective_settleTurn number)
  | timeline name change => exact absurd trivial lasting
  | toggle name enabled => exact absurd trivial lasting
  | _ => rfl

end

end Effect

/-! ### Resolution -/

section

variable [Trigonometric α] {context : Context}

/-- A movement that changes neither position nor orientation is refused. -/
theorem Motion.changes_of_ofPlacement {placement : Placement α} {relative : Bool}
    {motion : Motion α} (made : ofPlacement context placement relative = .ok motion) :
    motion.shift.Moves ∨ motion.turn.Moves := by
  obtain ⟨shift, -, made⟩ := Outcome.bind_eq_ok.mp made
  obtain ⟨turn, -, made⟩ := Outcome.bind_eq_ok.mp made
  split at made
  · cases made
  · rename_i something
    rw [← Outcome.pure_eq_ok.mp made]
    cases shift with
    | stay =>
      cases turn with
      | keep => exact absurd rfl (something rfl)
      | _ => exact .inr trivial
    | _ => exact .inl trivial

theorem Effect.changes_of_ofObjectAction {directory : Directory α} {kind : ActionKind α}
    {effect : Effect α} (made : ofObjectAction directory context kind = .ok effect) :
    effect.Changes ∧ ¬effect.IsSwitch := by
  cases made_of_ofObjectAction made with
  | move _ _ motion placed => exact ⟨Motion.changes_of_ofPlacement placed, id⟩
  | _ => exact ⟨trivial, id⟩

/-- What an action does changes something, and takes no time if it is a switch. -/
theorem Action.changes_of_resolveKind {directory : Directory α} {owner : String} {duration : α}
    {action : Action α} {targets : List String} {effect : Effect α}
    (resolved : action.resolveKind directory context owner duration = .ok (targets, effect)) :
    effect.Changes ∧ (effect.IsSwitch → (duration == 0) = true) := by
  have instant (required : requireInstant context duration = .ok ()) : (duration == 0) = true := by
    rw [requireInstant] at required
    split at required
    · assumption
    · cases required
  rw [resolveKind.eq_def] at resolved
  split at resolved
  · obtain ⟨-, -, resolved⟩ := Outcome.bind_eq_ok.mp resolved
    obtain ⟨⟨⟩, required, resolved⟩ := Outcome.bind_eq_ok.mp resolved
    obtain ⟨target, -, resolved⟩ := Outcome.bind_eq_ok.mp resolved
    obtain ⟨-, rfl⟩ := Prod.mk.inj (Outcome.pure_eq_ok.mp resolved)
    exact ⟨trivial, fun _ => instant required⟩
  · obtain ⟨-, -, resolved⟩ := Outcome.bind_eq_ok.mp resolved
    obtain ⟨⟨⟩, required, resolved⟩ := Outcome.bind_eq_ok.mp resolved
    obtain ⟨target, -, resolved⟩ := Outcome.bind_eq_ok.mp resolved
    obtain ⟨-, rfl⟩ := Prod.mk.inj (Outcome.pure_eq_ok.mp resolved)
    exact ⟨trivial, fun _ => instant required⟩
  · obtain ⟨-, -, resolved⟩ := Outcome.bind_eq_ok.mp resolved
    obtain ⟨members, -, resolved⟩ := Outcome.bind_eq_ok.mp resolved
    obtain ⟨found, made, resolved⟩ := Outcome.bind_eq_ok.mp resolved
    obtain ⟨-, rfl⟩ := Prod.mk.inj (Outcome.pure_eq_ok.mp resolved)
    obtain ⟨changes, lasting⟩ := Effect.changes_of_ofObjectAction made
    exact ⟨changes, fun isSwitch => absurd isSwitch lasting⟩
  · obtain ⟨-, -, resolved⟩ := Outcome.bind_eq_ok.mp resolved
    obtain ⟨found, made, resolved⟩ := Outcome.bind_eq_ok.mp resolved
    obtain ⟨-, rfl⟩ := Prod.mk.inj (Outcome.pure_eq_ok.mp resolved)
    obtain ⟨changes, lasting⟩ := Effect.changes_of_ofObjectAction made
    exact ⟨changes, fun isSwitch => absurd isSwitch lasting⟩

/-- A change of a timeline is declared as such, and works on the owner of the timeline. -/
theorem Action.Resolves.kind_of_timeline {directory : Directory α} {owner : String}
    {action : Action α} {targets : List String} {name : String} {change : TimelineChange}
    (resolves : action.Resolves directory context owner targets (.timeline name change)) :
    action.kind = .timeline name change ∧
      ∃ target, targets = [target] ∧ directory.timelineOwner context name = .ok target := by
  cases resolves with
  | timeline isKind found => exact ⟨isKind, _, rfl, found⟩
  | group _ _ made => exact absurd trivial (Effect.changes_of_ofObjectAction made).2
  | object _ made => exact absurd trivial (Effect.changes_of_ofObjectAction made).2

/-- So is a toggle of a trigger. -/
theorem Action.Resolves.kind_of_toggle {directory : Directory α} {owner : String}
    {action : Action α} {targets : List String} {name : String} {enabled : Bool}
    (resolves : action.Resolves directory context owner targets (.toggle name enabled)) :
    action.kind = .triggerToggle name enabled ∧
      ∃ target, targets = [target] ∧ directory.triggerOwner context name = .ok target := by
  cases resolves with
  | toggle isKind found => exact ⟨isKind, _, rfl, found⟩
  | group _ _ made => exact absurd trivial (Effect.changes_of_ofObjectAction made).2
  | object _ made => exact absurd trivial (Effect.changes_of_ofObjectAction made).2

end

/-! ### The contract -/

section

variable [Trigonometric α]

/-- An action takes time and settles on an exact state, or it happens at once, with its whole
effect in the enter phase. -/
inductive Instance.KeepsContract (self : Instance α) : Prop
  | timed : self.isTimed → ¬self.timing.isInstant →
    Block.isIdle self.phases.exit = false → KeepsContract self
  | instant : self.timing.isInstant → ¬self.isTimed →
    Block.isIdle self.phases.enter = false → Block.isIdle self.phases.advance →
    Block.isIdle self.phases.exit → KeepsContract self

/-- A switch has its whole effect as it begins. -/
theorem Effect.IsSwitch.phases_eq {effect : Effect α} (isSwitch : effect.IsSwitch) (number : Nat)
    (timing : Timing α) :
    effect.phases number timing = { enter := effect.now, advance := [], exit := [] } := by
  rw [phases]
  cases effect with
  | timeline name change => split <;> rfl
  | toggle name enabled => split <;> rfl
  | _ => cases isSwitch

namespace Instance

variable {self : Instance α} (isSwitch : self.effect.IsSwitch)

include isSwitch

/-- A switch that keeps its contract takes no time. -/
theorem instant_of_isSwitch (kept : self.breach? = none) : ¬self.isTimed := by
  intro timed
  have idle : Block.isIdle self.phases.exit = true := by
    rw [phases, isSwitch.phases_eq]
    rfl
  rw [breach?, if_pos timed, if_pos idle] at kept
  cases kept

theorem opening_of_isSwitch (instant : ¬self.isTimed) : self.opening = self.effect.now := by
  rw [opening, if_neg instant, List.append_nil, phases, isSwitch.phases_eq]

end Instance

/-- The effect switches a timeline or a trigger that the object declares. -/
def Effect.Switches (object : SceneObject α) : Effect α → Prop
  | .timeline name _ => name ∈ Directory.timelineNames object
  | .toggle name _ => name ∈ Directory.triggerNames object
  | _ => False

omit [Trigonometric α] in
theorem Effect.Switches.isSwitch {object : SceneObject α} {effect : Effect α}
    (switches : effect.Switches object) : effect.IsSwitch := by
  cases effect with
  | timeline | toggle => trivial
  | _ => cases switches

/-- The action does what it does at once, on the owner alone. -/
structure Instance.SwitchesOn (owner : String) (action : Instance α) : Prop where
  opening : action.opening = action.effect.now
  instant : ¬action.isTimed
  targets : action.targets = [owner]

/-- What an object declares is switched at once, and on that object. -/
theorem Program.Layout.switchesOn {rate : α} {scene : Scene α} {program : Program α}
    (layout : Layout rate scene program) {object : SceneObject α} (inScene : object ∈ scene.walk)
    {action : Instance α} (isInstance : action ∈ instances rate scene)
    (switches : action.effect.Switches object) : action.SwitchesOn object.id := by
  have instant := Instance.instant_of_isSwitch switches.isSwitch (layout.contracts action isInstance)
  refine ⟨Instance.opening_of_isSwitch switches.isSwitch instant, instant, ?_⟩
  obtain ⟨declared, -, becomes⟩ := Lists.exists_of_mem_right layout.becomes isInstance
  obtain ⟨-, resolves⟩ := Action.resolves_of_resolve becomes
  generalize action.targets = targets, action.effect = effect at resolves switches
  cases effect with
  | timeline =>
    obtain ⟨-, target, rfl, found⟩ := resolves.kind_of_timeline
    rw [(Directory.timelineOwner_iff layout.sound found object.id).mpr
      ⟨object, inScene, rfl, switches⟩]
  | toggle =>
    obtain ⟨-, target, rfl, found⟩ := resolves.kind_of_toggle
    rw [(Directory.triggerOwner_iff layout.sound found object.id).mpr
      ⟨object, inScene, rfl, switches⟩]
  | _ => cases switches

theorem Instance.KeepsContract.breach_eq_none {self : Instance α} (kept : self.KeepsContract) :
    self.breach? = none := by
  rw [breach?]
  cases kept with
  | timed timed _ settled => simp [timed, settled]
  | instant _ notTimed begun noAdvance noExit => simp [notTimed, begun, noAdvance, noExit]

variable [Measuring α]

theorem Action.keepsContract_of_resolve {directory : Directory α} {rate : α} {context : Context}
    {owner : String} {number : Nat} {action : Action α} {found : Instance α}
    (resolved : action.resolve directory rate context owner number = .ok found) :
    found.KeepsContract := by
  obtain ⟨magnitude, targets, effect, kind, rfl⟩ := resolve_eq_ok.mp resolved
  obtain ⟨changes, switches⟩ := changes_of_resolveKind kind
  have measured := Measuring.beq_zero_iff action.duration magnitude
  by_cases instant : (action.duration == 0) = true
  · refine .instant instant ?_ ?_ ?_ ?_
    · simpa [Instance.isTimed, Timing.isTimed] using measured.mp instant
    all_goals
      rw [Instance.phases, Effect.phases]
      simp only [Timing.isInstant, instant, if_true, Block.isIdle]
    · rw [Effect.isEffective_now changes]
      rfl
    · rfl
    · rfl
  · refine .timed ?_ instant ?_
    · simpa [Instance.isTimed, Timing.isTimed] using mt measured.mpr instant
    · rw [Instance.phases, Effect.phases]
      simp only [Timing.isInstant, instant, Block.isIdle]
      rw [if_neg Bool.false_ne_true, Effect.isEffective_settle _ changes (mt switches instant)]
      rfl

/-- What actions dispatch together is idle only if it is empty. -/
theorem Owned.isIdle_of_resolveAll {directory : Directory α} {rate : α} {context : Context}
    {owner : String} {first : Nat} {actions : List (Action α)} {found : List (Instance α)}
    (resolved : Action.resolveAll directory rate context owner first actions = .ok found)
    (nonempty : dispatchAll found ≠ []) : Block.isIdle (dispatchAll found) = false := by
  refine isIdle_dispatchAll (fun action inFound => ?_) nonempty
  obtain ⟨declared, -, becomes⟩ :=
    Lists.exists_of_mem_right (Action.becomes_of_resolveAll resolved) inFound
  exact (Action.keepsContract_of_resolve becomes).breach_eq_none

namespace Program

theorem keepsContract_of_mem {rate : α} {scene : Scene α} {owned : List (SceneObject α × Owned α)}
    (logic : ownedLogic rate scene = .ok owned) {action : Instance α}
    (member : action ∈ owned.flatMap fun entry => entry.2.instances) : action.KeepsContract := by
  obtain ⟨directory, -, -, made, -⟩ := exists_made logic
  obtain ⟨entry, inScene, owns⟩ := List.mem_flatMap.mp member
  obtain ⟨pieces, madePieces, joined⟩ := made entry inScene
  rw [joined, Owned.instances_concat] at owns
  obtain ⟨piece, inPieces, inPiece⟩ := List.mem_flatMap.mp owns
  obtain ⟨source, -, number, madePiece⟩ := Lists.exists_of_mem_right madePieces inPieces
  obtain ⟨declared, -, becomes⟩ :=
    Lists.exists_of_mem_right (Owned.becomes_made madePiece) inPiece
  exact Action.keepsContract_of_resolve becomes

omit [Measuring α] in
theorem checkContracts_eq_ok {actions : List (Instance α)}
    (kept : ∀ action ∈ actions, action.KeepsContract) : checkContracts actions = .ok () := by
  induction actions with
  | nil => rfl
  | cons action rest inductionHypothesis =>
    obtain ⟨here, later⟩ := List.forall_mem_cons.mp kept
    rw [checkContracts, here.breach_eq_none]
    exact inductionHypothesis later

/-- Whatever an action is resolved to keeps its contract, on all its targets and for every duration
that is accepted. So compiling a scene at a rate gives a program or finds a fault in the scene, and
never a breach of contract. -/
theorem contracts_never_broken (rate : α) (scene : Scene α) :
    (∀ (directory : Directory α) (context : Context) (owner : String) (number : Nat)
      (action : Action α) (found : Instance α),
      action.resolve directory rate context owner number = .ok found → found.KeepsContract) ∧
    ((∃ program, compile rate scene = .ok program) ∨
      ∃ fault, compile rate scene = .error (.scene fault)) := by
  refine ⟨fun _ _ _ _ _ _ => Action.keepsContract_of_resolve, ?_⟩
  cases logic : ownedLogic rate scene with
  | error fault =>
    right
    refine ⟨fault, ?_⟩
    rw [compile, logic]
    rfl
  | ok owned =>
    left
    rw [compile, logic]
    have kept := checkContracts_eq_ok fun _ member => keepsContract_of_mem logic member
    simp only [Except.mapError, bind, Except.bind, kept]
    exact ⟨_, rfl⟩

end Program

end

/-- A reset of two lights whose duration is written as negative zero happens at once. -/
theorem Program.contracts_never_broken_lights : ∃ found : Instance Float,
    Action.resolve ⟨Scene.hall.walk, [("lights", ["lamp", "lantern"])]⟩ 1 (.link "door") "door" 0
      ⟨none, -0, .group "lights" .reset⟩ = .ok found ∧ found.KeepsContract := by
  have accepted : (Action.resolve (⟨Scene.hall.walk, [("lights", ["lamp", "lantern"])]⟩ :
      Directory Float) 1 (.link "door") "door" 0 ⟨none, -0, .group "lights" .reset⟩).isOk = true := by
    decide +kernel
  cases resolved : Action.resolve (⟨Scene.hall.walk, [("lights", ["lamp", "lantern"])]⟩ :
      Directory Float) 1 (.link "door") "door" 0 ⟨none, -0, .group "lights" .reset⟩ with
  | ok found =>
    exact ⟨found, rfl, (contracts_never_broken 1 Scene.hall).1 _ _ _ _ _ _ resolved⟩
  | error fault =>
    rw [resolved] at accepted
    cases accepted

end Stagecraft
