/-
This file shows that the objects of a program may advance and settle in any order. After the enter
phase of a frame every object runs only blocks of actions on itself, and those concern no other
object.
-/

import Stagecraft.Proofs.Effect.Locality
import Stagecraft.Proofs.Program.Layout

namespace Stagecraft

variable {α : Type} [Trigonometric α]

namespace Program

variable {rate : α} {scene : Scene α} {program : Program α}

namespace Layout

variable (layout : Layout rate scene program)

include layout

/-- What an object runs after the enter phase names no object. -/
theorem named_phase {placed : ObjectProgram α} (isPlaced : placed ∈ program.objects)
    {phase : Phase} (later : phase ≠ .enter) : Block.named (placed.phases.get phase) = [] := by
  cases phase with
  | enter => exact absurd rfl later
  | advance =>
    rw [layout.listed_advance isPlaced]
    exact Block.named_flatMap fun action _ => action.named_advance
  | exit =>
    rw [layout.listed_exit isPlaced]
    exact Block.named_flatMap fun action _ => action.named_finish

/-- After the enter phase every duty concerns its own object only. -/
theorem staysHome_agenda {phase : Phase} (later : phase ≠ .enter) :
    ∀ duty ∈ program.agenda phase, Block.StaysHome duty.object duty.block := by
  intro duty member
  obtain ⟨placed, isPlaced, rfl⟩ := mem_agenda.mp member
  exact Block.staysHome_of_named (layout.named_phase isPlaced later) placed.id

theorem nodup_agenda (phase : Phase) : ((program.agenda phase).map (·.object)).Nodup := by
  rw [agenda, List.map_map]
  exact layout.nodup_ids

end Layout

end Program

/-- In a compiled scene the advance phase and the exit phase leave the same bags, and make the same
calls on every object, in whatever order the objects run: each of them reads and writes its own
bag only. -/
theorem later_phases_in_any_order {rate : α} {scene : Scene α} {program : Program α}
    (compiled : Program.compile rate scene = .ok program) {phase : Phase} (later : phase ≠ .enter) :
    (∀ placed ∈ program.objects, Block.StaysHome placed.id (placed.phases.get phase)) ∧
      ∀ (objects : List (ObjectProgram α)), objects.Perm program.objects → ∀ world : World α,
        let shuffled := Program.runPhase { program with objects } world phase
        let inOrder := program.runPhase world phase
        shuffled.bags = inOrder.bags ∧
          ∀ object, shuffled.callsOn object = inOrder.callsOn object := by
  obtain ⟨layout⟩ := Program.exists_layout compiled
  refine ⟨fun placed isPlaced => Block.staysHome_of_named (layout.named_phase isPlaced later) _,
    fun objects permuted world => ?_⟩
  have same (object : String) := Agenda.view_run_perm (layout.staysHome_agenda later)
    (layout.nodup_agenda phase) (permuted.map (·.duty phase)) world object
  dsimp only
  rw [Program.runPhase_eq, Program.runPhase_eq]
  exact ⟨Std.ExtTreeMap.ext_getElem? fun object => (Prod.mk.inj (same object)).1,
    fun object => (Prod.mk.inj (same object)).2⟩

/-- The objects of the hall may settle from the last to the first. -/
theorem later_phases_in_any_order_hall :
    ∃ program, Program.compile 1 Scene.hall = .ok program ∧ Phase.exit ≠ .enter ∧
      (∀ placed ∈ program.objects, Block.StaysHome placed.id (placed.phases.get .exit)) ∧
      program.objects.reverse.Perm program.objects ∧ ∀ world : World Float,
        (Program.runPhase { program with objects := program.objects.reverse } world .exit).bags =
          (program.runPhase world .exit).bags := by
  obtain ⟨program, compiled⟩ := Scene.exists_compile_hall
  have later : Phase.exit ≠ .enter := by decide
  have reversed : program.objects.reverse.Perm program.objects := List.reverse_perm _
  obtain ⟨home, shuffled⟩ := later_phases_in_any_order compiled later
  exact ⟨program, compiled, later, home, reversed, fun world => (shuffled _ reversed world).1⟩

end Stagecraft
