/-
This file says when all numbers that a program is written with are finite: exactly if those are that
are worked out. With numbers that are not too large, one thing alone leads to something infinite: a
movement by an offset whose time is too short to last, so that the offset is divided by zero.
-/

import Stagecraft.Proofs.Action.Finiteness
import Stagecraft.Proofs.Program.Demands
import Stagecraft.Proofs.Timeline.Exactness
import Stagecraft.Proofs.Trigger.Finiteness

namespace Stagecraft

/-- All numbers that a program is written with are finite exactly if those are that are not given by
its scene but worked out: what is divided by and the quotients, the parts of turns, and the bands of
triggers. -/
theorem literals_finite_iff_worked_out {rate : Float} {scene : Scene Float}
    {program : Program Float} (compiled : Program.compile rate scene = .ok program)
    (counted : ∀ object ∈ scene.walk, ∀ timeline ∈ object.timelines,
      timeline.entries.length ≤ Ticks.limit) :
    (∀ block ∈ program.fragments, ∀ value ∈ Block.literals block, Scalar.isFinite value) ↔
      (∀ action ∈ Program.instances rate scene, action.targets ≠ [] → action.WorksOut .finite) ∧
        ∀ object ∈ scene.walk, ∀ trigger ∈ object.triggers, trigger.WorksOut .finite := by
  obtain ⟨layout⟩ := Program.exists_layout compiled
  simp only [← Block.meets_finite_iff]
  exact layout.meets_iff_worksOut fun object inScene timeline member =>
    (counted object inScene timeline member).trans (Nat.le_mul_of_pos_left _ two_pos)

/-! ### Movements that do not last -/

/-- If no number of a scene is too large, the program is written with finite numbers exactly if
every movement by an offset that takes time lasts: if the product of its duration and the rate is
above the tolerance. -/
theorem literals_finite_iff_offsets_last {rate : Float} {scene : Scene Float}
    {program : Program Float} (compiled : Program.compile rate scene = .ok program)
    (counted : ∀ object ∈ scene.walk, ∀ timeline ∈ object.timelines,
      timeline.entries.length ≤ Ticks.limit)
    (moderate : ∀ action ∈ Program.instances rate scene, action.IsModerate)
    (moderate' : ∀ object ∈ scene.walk, ∀ trigger ∈ object.triggers, trigger.IsModerate) :
    (∀ block ∈ program.fragments, ∀ value ∈ Block.literals block, Scalar.isFinite value) ↔
      ∀ action ∈ Program.instances rate scene, action.targets ≠ [] → action.isTimed →
        action.effect.offset?.isSome → Ticks.tolerance < action.timing.duration * rate := by
  obtain ⟨layout⟩ := Program.exists_layout compiled
  have bands : ∀ object ∈ scene.walk, ∀ trigger ∈ object.triggers, trigger.WorksOut .finite :=
    fun object inScene trigger member => (moderate' object inScene trigger member).worksOut
  rw [literals_finite_iff_worked_out compiled counted, and_iff_left bands]
  refine forall₂_congr fun action member => imp_congr_right fun _ => ?_
  obtain ⟨declared, -, becomes⟩ := Lists.exists_of_mem_right layout.becomes member
  have magnitude := (Action.resolve_eq_ok.mp becomes).1
  have worksOut := (moderate action member).worksOut_iff
  rw [Action.timing_of_resolve becomes] at worksOut ⊢
  exact worksOut magnitude layout.finite_rate.1 layout.finite_rate.2

/-- A bead that is pushed on in less than a millionth of a tick. -/
def Scene.nudge : Scene Float where
  objects := [{ SceneObject.still "bead" with
    linkActions := [⟨none, 1e-10, .move ⟨some ⟨1, 2, 3⟩, .center, .unchanged⟩ true⟩] }]
  groups := []

theorem instances_nudge : Program.instances 1 Scene.nudge =
    [⟨0, "move", ["bead"], ⟨1e-10, 1⟩, .move ⟨.relative ⟨1, 2, 3⟩, .keep⟩⟩] := by
  with_unfolding_all rfl

/-- The push is divided by zero. -/
theorem literals_finite_iff_offsets_last_nudge :
    ∃ program, Program.compile 1 Scene.nudge = .ok program ∧
      (∀ action ∈ Program.instances 1 Scene.nudge, action.IsModerate) ∧
      ¬∀ block ∈ program.fragments, ∀ value ∈ Block.literals block, Scalar.isFinite value := by
  obtain ⟨program, compiled⟩ := Program.exists_of_isOk
    (by decide +kernel : (Program.compile 1 Scene.nudge).isOk = true)
  have empty : Scene.nudge.walk.all fun object =>
      object.timelines.isEmpty && object.triggers.isEmpty := by decide +kernel
  simp only [List.all_eq_true, Bool.and_eq_true, List.isEmpty_iff] at empty
  have moderate : ∀ action ∈ Program.instances 1 Scene.nudge, action.IsModerate := by
    rw [instances_nudge, List.forall_mem_singleton]
    refine ⟨by decide +kernel, ?_, ?_⟩
    · rintro offset ⟨⟩ axis
      cases axis <;> decide +kernel
    · rintro motion ⟨⟩
      exact ⟨trivial, fun _ => trivial⟩
  have lasting := literals_finite_iff_offsets_last compiled
    (fun object inScene => by simp [empty object inScene]) moderate
    (fun object inScene => by simp [empty object inScene])
  refine ⟨program, compiled, moderate, fun finite => ?_⟩
  have above := lasting.mp finite
  rw [instances_nudge, List.forall_mem_singleton] at above
  exact absurd (above (by simp) (by decide +kernel) rfl) (by decide +kernel)

end Stagecraft
