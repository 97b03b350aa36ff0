/-
This file shows that all hosts let objects face alike. Before the phases of a frame each object but
the head is made to face where its orientation says, one object after the other. Where one object
faces does not change how another is turned, so all of them face where their orientations say at the
beginning. On the reals both ways to find this direction agree, so the worlds are the same.
-/

import Stagecraft.Proofs.Geometry.Forward
import Stagecraft.Proofs.Logic.Vectors
import Stagecraft.Proofs.Stage.Runs

namespace Stagecraft

section

variable {α : Type} [Scalar α] (forward : Quaternion α → Vec α)

/-! ### One object -/

namespace World

/-- Let an object face where its orientation says. -/
def faced (world : World α) (id : String) : World α :=
  Axis.all.foldl (fun world' axis =>
    world'.write id (Slot.forward axis).key ((forward (world.orientationOf id)).get axis)) world

variable (world : World α) (id object : String)

theorem hosts_faced : (world.faced forward id).hosts = world.hosts :=
  hosts_foldl (fun _ _ => hosts_write _ _ _ _) _ _

theorem read_faced (axis : Axis) : (world.faced forward id).read object (Slot.forward axis).key =
    if world.hosts id ∧ id = object then (forward (world.orientationOf id)).get axis
    else world.read object (Slot.forward axis).key := by
  have same (axis' : Axis) : (Slot.forward axis').key = (Slot.forward axis).key ↔ axis' = axis :=
    ⟨fun equal => Slot.forward.inj (Slot.key_injective equal), fun equal => by rw [equal]⟩
  cases axis <;> simp [faced, Axis.all, read_write, hosts_write, same]

theorem forwardOf_faced : (world.faced forward id).forwardOf object =
    if world.hosts id ∧ id = object then forward (world.orientationOf object)
    else world.forwardOf object := by
  rw [forwardOf]
  simp only [read_faced]
  split
  · rename_i here
    rw [here.2]
    rfl
  · rfl

theorem orientationOf_faced :
    (world.faced forward id).orientationOf object = world.orientationOf object := by
  have spares (part : Part) : (world.faced forward id).read object (Slot.orientation part).key =
      world.read object (Slot.orientation part).key := by
    refine read_foldl (fun world' axis => ?_) _ _
    rw [read_write, if_neg]
    rintro ⟨-, -, same⟩
    cases Slot.key_injective same
  simp only [orientationOf, spares]

/-- Each of several objects faces where its orientation says at the beginning. -/
theorem forwardOf_foldl_faced (ids : List String) :
    (ids.foldl (faced forward) world).forwardOf object =
      if object ∈ ids ∧ world.hosts object then forward (world.orientationOf object)
      else world.forwardOf object := by
  induction ids generalizing world with
  | nil => simp
  | cons id rest inductionHypothesis =>
    rw [List.foldl_cons, inductionHypothesis, hosts_faced, orientationOf_faced, forwardOf_faced]
    by_cases here : id = object
    · subst here
      by_cases hosted : world.hosts id <;> simp [hosted]
    · simp [here, Ne.symm here]

end World

/-! ### All objects -/

/-- An object on the stage faces where its orientation says; the head faces where visitors have
turned it. -/
theorem Stage.forwardOf_face (stage : Stage α) (object : String) :
    (stage.face forward).forwardOf object =
      if object ∈ stage.ids ∧ object ≠ headId ∧ stage.world.hosts object then
        forward (stage.world.orientationOf object)
      else stage.world.forwardOf object := by
  refine (World.forwardOf_foldl_faced forward stage.world object _).trans ?_
  simp only [List.mem_filter, bne_iff_ne, and_assoc]

end

open Exact

/-- Hosts that find directions by products of the parts and hosts that normalize orientations find
the same one for every orientation. It is a unit vector, and the same for both names of the
orientation. So they make the same world of every stage before the phases of a frame, in which each
object but the head faces where its orientation says. -/
theorem Stage.faces_alike :
    (∀ orientation : Quaternion ℝ,
      orientation.forwardByProducts = orientation.forward ∧ orientation.forward.length = 1 ∧
        (orientation.map (- ·)).forward = orientation.forward) ∧
    ∀ stage : Stage ℝ,
      stage.face Quaternion.forwardByProducts = stage.face Quaternion.forward ∧
        ∀ object, (stage.face Quaternion.forward).forwardOf object =
          if object ∈ stage.ids ∧ object ≠ headId ∧ stage.world.hosts object then
            (stage.world.orientationOf object).forward
          else stage.world.forwardOf object := by
  refine ⟨fun orientation => ⟨orientation.forwardByProducts_eq, ?_, orientation.forward_neg⟩,
    fun stage => ⟨?_, stage.forwardOf_face Quaternion.forward⟩⟩
  · rw [Vec.length, orientation.dot_forward, sqrt_eq, Real.sqrt_one]
  · rw [funext Quaternion.forwardByProducts_eq]

end Stagecraft
