/-
This file shows that an action can be resolved exactly when it is valid. Every check on the way
passes under one of the conditions of validity, whatever is passed on after it; so resolving comes
down to these conditions, one construct after another: the shift of a movement, its turn, the
effect on one object, and the targets. An action without a target falls back on its owner, which is
always there.
-/

import Stagecraft.Action.Resolution
import Stagecraft.Proofs.Scene.Checks

namespace Stagecraft

open Outcome

variable {α : Type} [Trigonometric α] {context : Context}

/-! ### Movements -/

/-- Where a placement goes, if nothing is wrong with it. -/
def Placement.shift (placement : Placement α) (relative : Bool) : Shift α :=
  match placement.position, placement.reference, relative with
  | none, _, _ => .stay
  | some position, _, true => .relative position
  | some position, .center, false => .absolute position none
  | some position, .object id, false => .absolute position (some id)

namespace Placement

omit [Trigonometric α] in
theorem shift_eq_absolute_iff (placement : Placement α) (relative : Bool) (source : Vec α) :
    relative = false ∧ placement.shift relative = .absolute source none ↔
      placement.source? relative = some source := by
  obtain ⟨position?, reference, rotation⟩ := placement
  cases position? <;> cases reference <;> cases relative <;> simp [shift, source?]

omit [Trigonometric α] in
theorem reference_shift_iff (placement : Placement α) (relative : Bool) (id : String) :
    (placement.shift relative).reference? = some id ↔
      placement.position ≠ none ∧ placement.reference = .object id ∧ relative = false := by
  obtain ⟨position?, reference, rotation⟩ := placement
  cases position? <;> cases reference <;> cases relative <;> simp [shift, Shift.reference?]

omit [Trigonometric α] in
theorem shift_eq_stay_iff (placement : Placement α) (relative : Bool) :
    placement.shift relative = .stay ↔ placement.position = none := by
  obtain ⟨position?, reference, rotation⟩ := placement
  cases position? <;> cases reference <;> cases relative <;> simp [shift]

end Placement

theorem Shift.checks_ofPlacement (placement : Placement α) (relative : Bool) :
    Checks (ofPlacement context placement relative)
      (∀ position ∈ placement.position, position.IsFinite ∧
        ∀ id, placement.reference = .object id → relative = false)
      (placement.shift relative) := by
  obtain ⟨position?, reference, rotation⟩ := placement
  cases position? with
  | none =>
    intro found
    simp [ofPlacement, Placement.shift]
  | some position =>
    simp only [Option.mem_def, Option.some.injEq, forall_eq']
    refine (Check.checks_finiteVec position).bind fun found => ?_
    cases reference <;> cases relative <;> simp [Placement.shift]

namespace Turn

theorem succeeds_look {source point up : Vec α} :
    Succeeds (look context source point up) ↔ Rotation.CanLook source point up := by
  rw [look, (Check.checks_finiteVec point).succeeds_bind,
    (Check.checks_unit (point - source)).succeeds_bind, (Check.checks_unit up).succeeds_bind,
    Rotation.canLook_iff, Quaternion.facing?]
  dsimp only
  split_ifs <;> simp [*]

/-- A turn can be made of a valid rotation; facing a point needs a shift to a point. -/
theorem succeeds_ofRotation {shift : Shift α} {relative : Bool} {source? : Option (Vec α)}
    (stands : ∀ source, relative = false ∧ shift = .absolute source none ↔ source? = some source)
    (rotation : Rotation α) :
    Succeeds (ofRotation context shift relative rotation) ↔ rotation.IsValid source? := by
  cases rotation with
  | unchanged => simp [ofRotation, Rotation.IsValid]
  | axis about angle =>
    rw [ofRotation, (Check.checks_finite angle).succeeds_bind,
      (Check.checks_unit about).succeeds_bind, Rotation.IsValid, and_comm]
    cases relative <;> simp
  | normal towards =>
    rw [ofRotation, (Check.checks_unit towards).succeeds_bind, Rotation.IsValid]
    cases relative <;> simp
  | lookAt point up =>
    simp only [Rotation.IsValid, Option.mem_def, ← stands]
    cases relative with
    | true => simp [ofRotation]
    | false =>
      cases shift with
      | absolute source reference => cases reference <;> simp [ofRotation, succeeds_look]
      | _ => simp [ofRotation]

/-- Only an unchanged rotation keeps the orientation. -/
theorem eq_keep_iff {shift : Shift α} {relative : Bool} {rotation : Rotation α} {turn : Turn α}
    (made : ofRotation context shift relative rotation = .ok turn) :
    turn = .keep ↔ rotation = .unchanged := by
  cases rotation with
  | unchanged =>
    rw [← Except.ok.inj made]
    simp
  | axis about angle =>
    obtain ⟨_, -, made⟩ := bind_eq_ok.mp made
    obtain ⟨_, -, made⟩ := bind_eq_ok.mp made
    split at made <;> simp [← pure_eq_ok.mp made]
  | normal towards =>
    obtain ⟨_, -, made⟩ := bind_eq_ok.mp made
    split at made <;> simp [← pure_eq_ok.mp made]
  | lookAt point up =>
    simp only [ofRotation] at made
    split at made
    · cases made
    split at made
    · rw [look, bind_eq_ok] at made
      obtain ⟨_, -, made⟩ := made
      obtain ⟨_, -, made⟩ := bind_eq_ok.mp made
      obtain ⟨_, -, made⟩ := bind_eq_ok.mp made
      split at made
      · simp [← pure_eq_ok.mp made]
      · cases made
    · cases made

end Turn

namespace Motion

theorem shift_of_ofPlacement {placement : Placement α} {relative : Bool} {motion : Motion α}
    (made : ofPlacement context placement relative = .ok motion) :
    motion.shift = placement.shift relative := by
  obtain ⟨shift, shifted, made⟩ := bind_eq_ok.mp made
  obtain ⟨turn, -, made⟩ := bind_eq_ok.mp made
  rw [((Shift.checks_ofPlacement placement relative shift).mp shifted).2]
  split at made
  · cases made
  · rw [← pure_eq_ok.mp made]

theorem turn_of_ofPlacement {placement : Placement α} {relative : Bool} {motion : Motion α}
    (made : ofPlacement context placement relative = .ok motion) :
    Turn.ofRotation context (placement.shift relative) relative placement.rotation =
      .ok motion.turn := by
  obtain ⟨shift, shifted, made⟩ := bind_eq_ok.mp made
  obtain ⟨turn, turned, made⟩ := bind_eq_ok.mp made
  rw [((Shift.checks_ofPlacement placement relative shift).mp shifted).2]
  split at made
  · cases made
  · rw [turned, ← pure_eq_ok.mp made]

/-- Whether the reference of a movement is there is looked at later. -/
theorem succeeds_ofPlacement (placement : Placement α) (relative : Bool) :
    Succeeds (ofPlacement context placement relative) ↔
      (∀ position ∈ placement.position, position.IsFinite ∧
        ∀ id, placement.reference = .object id → relative = false) ∧
      placement.rotation.IsValid (placement.source? relative) ∧
      (placement.position ≠ none ∨ placement.rotation ≠ .unchanged) := by
  rw [ofPlacement, (Shift.checks_ofPlacement placement relative).succeeds_bind]
  refine and_congr_right fun _ => (succeeds_bind fun turn made => ?_).trans
    (and_congr_left' (Turn.succeeds_ofRotation (placement.shift_eq_absolute_iff relative) _))
  rw [ne_eq, ne_eq, ← Turn.eq_keep_iff made, ← placement.shift_eq_stay_iff relative]
  split
  · simp [*]
  · simp only [succeeds_pure, true_iff]
    tauto

end Motion

/-! ### Effects -/

section

variable {scene : Scene α} {directory : Directory α}

namespace Effect

theorem succeeds_finalVolume (change : SoundChange α) :
    Succeeds (finalVolume? context change) ↔ change.IsValid := by
  cases change with
  | start volume => exact checks_ite.succeeds
  | stop => simp [finalVolume?, SoundChange.IsValid]

theorem succeeds_ofObjectAction_move (sound : Directory.ofScene scene = .ok directory)
    (placement : Placement α) (relative : Bool) :
    Succeeds (ofObjectAction directory context (.move placement relative)) ↔
      (ActionKind.move placement relative).IsObjectValid scene := by
  have known : Succeeds (ofObjectAction directory context (.move placement relative)) ↔
      Succeeds (Motion.ofPlacement context placement relative) ∧
        ∀ id, (placement.shift relative).reference? = some id → scene.Addresses id := by
    refine succeeds_bind fun motion made => ?_
    rw [← Motion.shift_of_ofPlacement made]
    cases motion.shift.reference? with
    | none => simp
    | some object =>
      refine (Directory.checks_requireObject sound object).succeeds_bind.trans ?_
      simp
  rw [known, Motion.succeeds_ofPlacement, ActionKind.IsObjectValid, Placement.isValid_iff]
  simp only [placement.reference_shift_iff]
  constructor
  · rintro ⟨⟨inRange, rotation, changes⟩, known⟩
    refine ⟨changes, fun position given => ⟨(inRange position given).1, fun id same => ?_⟩,
      rotation⟩
    have absolute := (inRange position given).2 id same
    exact ⟨absolute, known id ⟨by simp [Option.mem_def.mp given], same, absolute⟩⟩
  · rintro ⟨changes, each, rotation⟩
    refine ⟨⟨fun position given => ⟨(each position given).1, fun id same =>
      ((each position given).2 id same).1⟩, rotation, changes⟩, ?_⟩
    rintro id ⟨given, same, -⟩
    obtain ⟨position, given⟩ := Option.ne_none_iff_exists'.mp given
    exact ((each position given).2 id same).2

theorem succeeds_ofObjectAction (sound : Directory.ofScene scene = .ok directory)
    (kind : ActionKind α) :
    Succeeds (ofObjectAction directory context kind) ↔ kind.IsObjectValid scene := by
  cases kind with
  | move placement relative => exact succeeds_ofObjectAction_move sound placement relative
  | sound name change =>
    rw [ofObjectAction, succeeds_bind_pure, succeeds_finalVolume]
    rfl
  | visibility visible => simp [ofObjectAction, ActionKind.IsObjectValid]
  | reset => simp [ofObjectAction, ActionKind.IsObjectValid]
  | _ => simp [ofObjectAction, ActionKind.IsObjectValid]

end Effect

/-! ### Actions -/

namespace Action

omit [Trigonometric α] in
theorem checks_forbidTarget (action : Action α) :
    Checks (action.forbidTarget context) (action.target = none) () := by
  rintro ⟨⟩
  rw [forbidTarget]
  cases action.target <;> simp

theorem checks_requireInstant (duration : α) :
    Checks (requireInstant context duration) (duration == 0) () :=
  checks_ite

variable (sound : Directory.ofScene scene = .ok directory)

include sound

theorem succeeds_resolveKind {owner : String} (known : scene.Addresses owner) (action : Action α) :
    Succeeds (action.resolveKind directory context owner action.duration) ↔ action.Fits scene := by
  have switches {find : Except (Fault α) String} {effect : Effect α} {declared : Prop}
      (found : Succeeds find ↔ declared) : Succeeds (do
        action.forbidTarget context
        requireInstant context action.duration
        let target ← find
        return ([target], effect)) ↔ action.IsSwitch ∧ declared := by
    rw [(checks_forbidTarget action).succeeds_bind,
      (checks_requireInstant action.duration).succeeds_bind, isSwitch_iff, and_assoc,
      succeeds_bind_pure, found]
  have works (kind : ActionKind α) : Succeeds (do
        let target := action.target.getD owner
        directory.requireObject context target
        let effect ← Effect.ofObjectAction directory context kind
        return ([target], effect)) ↔
      (∀ target ∈ action.target, scene.Addresses target) ∧ kind.IsObjectValid scene := by
    have addressed : scene.Addresses (action.target.getD owner) ↔
        ∀ target ∈ action.target, scene.Addresses target := by
      cases action.target <;> simp [known]
    rw [(Directory.checks_requireObject sound _).succeeds_bind, addressed,
      succeeds_bind_pure, Effect.succeeds_ofObjectAction sound]
  rw [resolveKind.eq_def, Fits]
  cases action.kind with
  | timeline name change => exact switches (Directory.succeeds_timelineOwner sound name)
  | triggerToggle name enabled => exact switches (Directory.succeeds_triggerOwner sound name)
  | group name inner =>
    dsimp only
    rw [(checks_forbidTarget action).succeeds_bind,
      succeeds_bind fun _ _ => succeeds_bind_pure,
      Directory.succeeds_groupMembers sound, Effect.succeeds_ofObjectAction sound]
  | _ => exact works _

/-- An action is resolved if it is valid. Its owner is there, so it needs no target. -/
theorem succeeds_resolve {owner : String} (known : scene.Addresses owner) (rate : α)
    (number : Nat) (action : Action α) :
    Succeeds (action.resolve directory rate context owner number) ↔ action.IsValid scene := by
  rw [resolve, (Check.checks_duration action.duration).succeeds_bind, isValid_iff,
    ← succeeds_resolveKind sound known]
  exact and_congr_right fun _ => succeeds_bind_pure

theorem succeeds_resolveAll {owner : String} (known : scene.Addresses owner) (rate : α)
    (first : Nat) (actions : List (Action α)) :
    Succeeds (resolveAll directory rate context owner first actions) ↔
      ∀ action ∈ actions, action.IsValid scene := by
  induction actions generalizing first with
  | nil => simp [resolveAll]
  | cons action rest inductionHypothesis =>
    rw [resolveAll, succeeds_bind fun _ _ => succeeds_bind_pure, succeeds_resolve sound known,
      inductionHypothesis, List.forall_mem_cons]

end Action

end

end Stagecraft
