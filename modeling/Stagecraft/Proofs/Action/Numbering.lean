/-
This file follows the resolution of declared actions. Each step that succeeded is read back as a
case of a relation. The instances of a list of actions bear consecutive numbers, and the targets of
each are different objects that the scene knows.
-/

import Stagecraft.Action.Resolution
import Stagecraft.Proofs.Scene.Checks

namespace Stagecraft

/-! ### Effects -/

namespace Effect

variable {α : Type} [Trigonometric α]

/-- What a kind of action does to one object, if it can be made. The reference of a movement is an
object that the scene knows, or the head. -/
inductive Made (directory : Directory α) (context : Context) : ActionKind α → Effect α → Prop
  | fade (visible : Bool) : Made directory context (.visibility visible) (.fade visible)
  | move (placement : Placement α) (relative : Bool) (motion : Motion α) :
    Motion.ofPlacement context placement relative = .ok motion →
    (∀ object, motion.shift.reference? = some object → directory.isAddressable object) →
    Made directory context (.move placement relative) (.move motion)
  | sound (name : String) (change : SoundChange α) (volume : Option α) :
    finalVolume? context change = .ok volume →
    Made directory context (.sound name change) (.sound name volume)
  | restore : Made directory context .reset .restore

theorem made_of_ofObjectAction {directory : Directory α} {context : Context} {kind : ActionKind α}
    {effect : Effect α} (made : ofObjectAction directory context kind = .ok effect) :
    Made directory context kind effect := by
  cases kind with
  | visibility visible =>
    rw [← Except.ok.inj made]
    exact .fade visible
  | move placement relative =>
    obtain ⟨motion, placed, made⟩ := Outcome.bind_eq_ok.mp made
    cases found : motion.shift.reference? with
    | none =>
      simp only [found] at made
      rw [← Outcome.pure_eq_ok.mp made]
      exact .move placement relative motion placed (by simp [found])
    | some object =>
      simp only [found] at made
      obtain ⟨⟨⟩, required, made⟩ := Outcome.bind_eq_ok.mp made
      rw [← Outcome.pure_eq_ok.mp made]
      refine .move placement relative motion placed fun other same => ?_
      rw [found] at same
      exact Option.some.inj same ▸ Directory.isAddressable_of_required required
  | sound name change =>
    obtain ⟨volume, heard, made⟩ := Outcome.bind_eq_ok.mp made
    rw [← Outcome.pure_eq_ok.mp made]
    exact .sound name change volume heard
  | reset =>
    rw [← Except.ok.inj made]
    exact .restore
  | timeline name change => cases made
  | group name inner => cases made
  | triggerToggle name enabled => cases made

end Effect

namespace Action

variable {α : Type} [Trigonometric α]

/-! ### Actions -/

/-- How the targets of an action and its effect on them were found. -/
inductive Resolves (directory : Directory α) (context : Context) (owner : String)
    (action : Action α) : List String → Effect α → Prop
  | timeline {name : String} {change : TimelineChange} {target : String} :
    action.kind = .timeline name change → directory.timelineOwner context name = .ok target →
      Resolves directory context owner action [target] (.timeline name change)
  | toggle {name : String} {enabled : Bool} {target : String} :
    action.kind = .triggerToggle name enabled → directory.triggerOwner context name = .ok target →
      Resolves directory context owner action [target] (.toggle name enabled)
  | group {name : String} {inner : ActionKind α} {members : List String} {effect : Effect α} :
    action.kind = .group name inner → directory.groupMembers context name = .ok members →
      Effect.ofObjectAction directory context inner = .ok effect →
      Resolves directory context owner action members effect
  | object {effect : Effect α} :
    directory.requireObject context (action.target.getD owner) = .ok () →
      Effect.ofObjectAction directory context action.kind = .ok effect →
      Resolves directory context owner action [action.target.getD owner] effect

variable {directory : Directory α} {context : Context} {owner : String} {action : Action α}

theorem resolves_of_resolveKind {duration : α} {targets : List String} {effect : Effect α}
    (resolved : action.resolveKind directory context owner duration = .ok (targets, effect)) :
    action.Resolves directory context owner targets effect := by
  rw [resolveKind.eq_def] at resolved
  split at resolved
  · obtain ⟨-, -, resolved⟩ := Outcome.bind_eq_ok.mp resolved
    obtain ⟨-, -, resolved⟩ := Outcome.bind_eq_ok.mp resolved
    obtain ⟨target, found, resolved⟩ := Outcome.bind_eq_ok.mp resolved
    obtain ⟨rfl, rfl⟩ := Prod.mk.inj (Outcome.pure_eq_ok.mp resolved)
    exact .timeline ‹_› found
  · obtain ⟨-, -, resolved⟩ := Outcome.bind_eq_ok.mp resolved
    obtain ⟨-, -, resolved⟩ := Outcome.bind_eq_ok.mp resolved
    obtain ⟨target, found, resolved⟩ := Outcome.bind_eq_ok.mp resolved
    obtain ⟨rfl, rfl⟩ := Prod.mk.inj (Outcome.pure_eq_ok.mp resolved)
    exact .toggle ‹_› found
  · obtain ⟨-, -, resolved⟩ := Outcome.bind_eq_ok.mp resolved
    obtain ⟨members, found, resolved⟩ := Outcome.bind_eq_ok.mp resolved
    obtain ⟨effect, made, resolved⟩ := Outcome.bind_eq_ok.mp resolved
    obtain ⟨rfl, rfl⟩ := Prod.mk.inj (Outcome.pure_eq_ok.mp resolved)
    exact .group ‹_› found made
  · obtain ⟨⟨⟩, required, resolved⟩ := Outcome.bind_eq_ok.mp resolved
    obtain ⟨effect, made, resolved⟩ := Outcome.bind_eq_ok.mp resolved
    obtain ⟨rfl, rfl⟩ := Prod.mk.inj (Outcome.pure_eq_ok.mp resolved)
    exact .object required made

/-- An action with a duration that is a magnitude is resolved as its kind is. -/
theorem resolve_eq_ok {rate : α} {number : Nat} {found : Instance α} :
    action.resolve directory rate context owner number = .ok found ↔
      Scalar.isMagnitude action.duration ∧ ∃ targets effect,
        action.resolveKind directory context owner action.duration = .ok (targets, effect) ∧
          ⟨number, action.kind.label, targets, ⟨action.duration, rate⟩, effect⟩ = found := by
  constructor
  · intro resolved
    obtain ⟨duration, checked, resolved⟩ := Outcome.bind_eq_ok.mp resolved
    obtain ⟨magnitude, rfl⟩ := (Check.checks_duration _ _).mp checked
    obtain ⟨⟨targets, effect⟩, kind, built⟩ := Outcome.bind_eq_ok.mp resolved
    exact ⟨magnitude, targets, effect, kind, Outcome.pure_eq_ok.mp built⟩
  · rintro ⟨magnitude, targets, effect, kind, rfl⟩
    exact Outcome.bind_eq_ok.mpr ⟨_, (Check.checks_duration _ _).mpr ⟨magnitude, rfl⟩,
      Outcome.bind_eq_ok.mpr ⟨(targets, effect), kind, rfl⟩⟩

theorem resolves_of_resolve {rate : α} {number : Nat} {found : Instance α}
    (resolved : action.resolve directory rate context owner number = .ok found) :
    found.number = number ∧ action.Resolves directory context owner found.targets found.effect := by
  obtain ⟨-, targets, effect, kind, rfl⟩ := resolve_eq_ok.mp resolved
  exact ⟨rfl, resolves_of_resolveKind kind⟩

/-- The targets of a resolved action. -/
theorem Resolves.known {scene : Scene α} (sound : Directory.ofScene scene = .ok directory)
    {targets : List String} {effect : Effect α}
    (resolves : action.Resolves directory context owner targets effect) :
    targets.Nodup ∧ ∀ target ∈ targets, directory.isAddressable target := by
  have single {target : String} (known : directory.isAddressable target) :
      [target].Nodup ∧ ∀ id ∈ [target], directory.isAddressable id := by
    simpa using known
  cases resolves with
  | timeline _ found =>
    exact single (Directory.isAddressable_of_isObject (Directory.isObject_of_timelineOwner found))
  | toggle _ found =>
    exact single (Directory.isAddressable_of_isObject (Directory.isObject_of_triggerOwner found))
  | group _ found _ =>
    obtain ⟨once, known⟩ :=
      Directory.groups_ofScene sound _ (Directory.mem_groups_of_lookup found)
    exact ⟨once, fun target member => Directory.isAddressable_of_isObject (known target member)⟩
  | object required _ => exact single (Directory.isAddressable_of_required required)

/-- What is known of an instance with a number. -/
structure IsSound (directory : Directory α) (number : Nat) (found : Instance α) : Prop where
  number : found.number = number
  nodup : found.targets.Nodup
  known : ∀ target ∈ found.targets, directory.isAddressable target

theorem isSound_of_resolve {scene : Scene α} (sound : Directory.ofScene scene = .ok directory)
    {rate : α} {number : Nat} {found : Instance α}
    (resolved : action.resolve directory rate context owner number = .ok found) :
    IsSound directory number found := by
  obtain ⟨numbered, resolves⟩ := resolves_of_resolve resolved
  obtain ⟨once, known⟩ := resolves.known sound
  exact ⟨numbered, once, known⟩

end Action

end Stagecraft
