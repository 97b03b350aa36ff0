/-
This file shows that exactly the valid scenes have a program, at every rate that is a positive
number. What a source of logic needs is the same whichever number its actions begin with, so pieces
made in turn succeed one by one; and a contract is never broken, so nothing is refused after that.
-/

import Stagecraft.Proofs.Action.Acceptance
import Stagecraft.Proofs.Program.Contracts
import Stagecraft.Proofs.Trigger.Acceptance

namespace Stagecraft

open Outcome

variable {α : Type}

/-! ### Timelines -/

namespace Timeline

variable [Scalar α] {context : Context}

theorem checks_checkStarts (entries : List (TimedAction α)) :
    Checks (checkStarts context entries) (∀ entry ∈ entries, Scalar.isMagnitude entry.start)
      () := by
  induction entries with
  | nil =>
    rintro ⟨⟩
    simp [checkStarts]
  | cons entry rest inductionHypothesis =>
    rw [List.forall_mem_cons]
    exact (Check.checks_magnitude entry.start).bind inductionHypothesis

theorem checks_dispatchOrder (timeline : Timeline α) :
    Checks (timeline.dispatchOrder context)
      (∀ entry ∈ timeline.entries, Scalar.isMagnitude entry.start) timeline.inOrder := by
  intro found
  rw [dispatchOrder, bind_eq_ok]
  simp [checks_checkStarts _ (), inOrder]

end Timeline

namespace Owned

variable [Trigonometric α]

/-! ### Sources -/

def Source.IsValid (scene : Scene α) : Source α → Prop
  | .trigger declared => declared.IsValid scene
  | .link actions => ∀ action ∈ actions, action.IsValid scene
  | .timeline declared => declared.IsValid scene

theorem isValid_iff_sources {scene : Scene α} {object : SceneObject α} :
    object.IsValid scene ↔ ∀ source ∈ object.sources, source.IsValid scene := by
  rw [SceneObject.isValid_iff, SceneObject.sources, List.forall_mem_append, List.forall_mem_append,
    List.forall_mem_map, List.forall_mem_map, List.forall_mem_singleton, and_assoc]
  rfl

variable [Comparing α] {scene : Scene α} {directory : Directory α}
  (sound : Directory.ofScene scene = .ok directory) (rate : α)

include sound

theorem succeeds_make {owner : String} (known : scene.Addresses owner) (source : Source α)
    (first : Nat) :
    Succeeds (source.make directory rate owner first) ↔ source.IsValid scene := by
  have resolves (context : Context) (actions : List (Action α)) :
      Succeeds (Action.resolveAll directory rate context owner first actions) ↔
        ∀ action ∈ actions, action.IsValid scene :=
    Action.succeeds_resolveAll sound known rate first actions
  cases source with
  | trigger declared =>
    rw [Source.IsValid, Trigger.isValid_iff, ← and_assoc, ← Trigger.succeeds_sensor sound,
      ← resolves (.trigger declared.name)]
    exact succeeds_bind fun _ _ => succeeds_bind_pure
  | link actions =>
    simp only [Source.make, ofLink, Source.IsValid, ← resolves (.link owner)]
    split
    · rename_i none
      rw [List.isEmpty_iff.mp none]
      simp [Action.resolveAll]
    · exact succeeds_bind_pure
  | timeline declared =>
    have inOrder : (∀ action ∈ declared.inOrder.map (·.action), action.IsValid scene) ↔
        ∀ entry ∈ declared.entries, entry.action.IsValid scene := by
      simp [Timeline.inOrder, List.mem_mergeSort]
    rw [Source.IsValid, Timeline.isValid_iff, ← inOrder, ← resolves (.timeline declared.name)]
    exact (Timeline.checks_dispatchOrder declared).succeeds_bind.trans
      (and_congr_right fun _ => succeeds_bind_pure)

/-! ### Pieces -/

omit [Trigonometric α] sound in
/-- What is made in turn is made one by one, where the number is of no importance. -/
theorem succeeds_inTurn {ε β : Type} {make : β → Nat → Except ε (Owned α)} {valid : β → Prop}
    {values : List β} (each : ∀ value ∈ values, ∀ first, Succeeds (make value first) ↔ valid value)
    (first : Nat) :
    Succeeds (inTurn first (values.map make)) ↔ ∀ value ∈ values, valid value := by
  induction values generalizing first with
  | nil => simp [inTurn]
  | cons value rest inductionHypothesis =>
    obtain ⟨here, later⟩ := List.forall_mem_cons.mp each
    rw [List.map_cons, inTurn, List.forall_mem_cons, ← here first]
    exact succeeds_bind fun _ _ => succeeds_bind_pure.trans (inductionHypothesis later _)

theorem succeeds_ofObject {object : SceneObject α} (inScene : scene.Holds object) (first : Nat) :
    Succeeds (ofObject directory rate object first) ↔ object.IsValid scene := by
  have known : scene.Addresses object.id := .inr ⟨object, inScene, rfl⟩
  rw [isValid_iff_sources, ← succeeds_inTurn (fun source _ => succeeds_make sound rate known source)
    first, SceneObject.sources, List.map_append, List.map_append, List.map_map, List.map_map]
  exact succeeds_bind_pure

end Owned

/-! ### Scenes -/

namespace Program

variable [Trigonometric α]

theorem succeeds_ownedLogic [Comparing α] (rate : α) (scene : Scene α) :
    Succeeds (ownedLogic rate scene) ↔ (Scalar.isFinite rate ∧ 0 < rate) ∧ scene.IsValid := by
  have pieces (directory : Directory α) (sound : Directory.ofScene scene = .ok directory) :
      Succeeds (do
        let owned ← Owned.inTurn 0 (directory.objects.map (Owned.ofObject directory rate))
        return directory.objects.zip owned) ↔ ∀ object, scene.Holds object → object.IsValid scene := by
    have each (object : SceneObject α) (inDirectory : object ∈ directory.objects) (first : Nat) :
        Succeeds (Owned.ofObject directory rate object first) ↔ object.IsValid scene := by
      rw [Directory.objects_ofScene sound, Scene.mem_walk_iff] at inDirectory
      exact Owned.succeeds_ofObject sound rate inDirectory first
    rw [succeeds_bind_pure, Owned.succeeds_inTurn each, Directory.objects_ofScene sound]
    simp only [Scene.mem_walk_iff]
  rw [ownedLogic, (checks_checkRate rate).succeeds_bind]
  refine and_congr_right fun _ => (succeeds_bind pieces).trans ?_
  rw [Succeeds, Directory.exists_ofScene_iff, Scene.isValid_iff, and_assoc]

/-- A scene has a program at a rate exactly if the rate is a positive number and the scene is
valid. -/
theorem exists_program_iff [Measuring α] [Comparing α] (rate : α) (scene : Scene α) :
    (∃ program, compile rate scene = .ok program) ↔
      (Scalar.isFinite rate ∧ 0 < rate) ∧ scene.IsValid := by
  rw [← succeeds_ownedLogic]
  refine (succeeds_bind fun owned logic => iff_true_intro ?_).trans
    ((and_iff_left trivial).trans succeeds_mapError)
  -- A contract would have been broken by an action of the scene.
  have kept := checkContracts_eq_ok fun _ member =>
    keepsContract_of_mem (mapError_eq_ok.mp logic) member
  exact ⟨_, bind_eq_ok.mpr ⟨(), kept, rfl⟩⟩

/-- The hall is valid. Without its lantern it would not be, since a group still lists it. -/
theorem exists_program_iff_hall :
    Scene.hall.IsValid ∧
      ¬{ Scene.hall with objects := Scene.hall.objects.dropLast }.IsValid := by
  constructor
  · exact ((exists_program_iff 1 Scene.hall).mp Scene.exists_compile_hall).2
  · intro valid
    have positive : Scalar.isFinite (1 : Float) ∧ (0 : Float) < 1 := by decide +kernel
    obtain ⟨program, compiled⟩ := (exists_program_iff 1 _).mpr ⟨positive, valid⟩
    have refused : (compile 1 { Scene.hall with
        objects := Scene.hall.objects.dropLast }).isOk = false := by decide +kernel
    rw [compiled] at refused
    cases refused

end Program

end Stagecraft
