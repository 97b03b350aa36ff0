/-
This file lists the blocks of a program, and says what has to be shown of the parts of the program
so that it holds of every block: of what its sources set up and run, and of the phases of its
actions. Everything else is put together from these.
-/

import Stagecraft.Proofs.Program.Declared

namespace Stagecraft

/-- The blocks that an object is given: one for each phase, and those of its actions alone. -/
def ObjectProgram.fragments {α : Type} (placed : ObjectProgram α) : List (Block α) :=
  Phase.all.map placed.phases.get ++
    placed.actions.flatMap fun action => Phase.all.map action.phases.get

def Program.fragments {α : Type} (program : Program α) : List (Block α) :=
  program.objects.flatMap (·.fragments)

namespace Program

variable {α : Type} [Trigonometric α]

/-- What holds of blocks holds of all that a program puts together from them. -/
structure Spreads (holds : Block α → Prop) : Prop where
  nil : holds []
  append {first second : Block α} : holds first → holds second → holds (first ++ second)
  once {setup : Block α} : holds setup → holds (once setup)

variable {holds : Block α → Prop} (spreads : Spreads holds)

include spreads

theorem Spreads.flatMap {β : Type} {values : List β} {block : β → Block α}
    (each : ∀ value ∈ values, holds (block value)) : holds (values.flatMap block) := by
  induction values with
  | nil => exact spreads.nil
  | cons value rest inductionHypothesis =>
    obtain ⟨here, later⟩ := List.forall_mem_cons.mp each
    rw [List.flatMap_cons]
    exact spreads.append here (inductionHypothesis later)

theorem Spreads.captures (setups : ∀ effect : Effect α, holds effect.setup)
    (actions : List (Instance α)) : holds (actions.map (·.setup)).eraseDups.flatten := by
  rw [← List.flatMap_id]
  refine spreads.flatMap fun setup inSetups => ?_
  obtain ⟨action, -, rfl⟩ := List.mem_map.mp (Lists.mem_of_mem_eraseDups inSetups)
  exact setups action.effect

namespace Layout

variable {rate : α} {scene : Scene α} {program : Program α} (layout : Layout rate scene program)

include layout

/-- What holds of the pieces that sources make holds of all that an object owns. -/
theorem spread_owned
    (pieces : ∀ object ∈ scene.walk, ∀ source ∈ object.sources, ∀ first piece,
      Owned.Made layout.directory rate object.id first source piece →
      (∀ action ∈ piece.instances, action ∈ instances rate scene) →
      holds piece.setup ∧ holds piece.enter)
    {id : String} {owned : Owned α} (owns : layout.Owns id owned) :
    holds owned.setup ∧ holds owned.enter := by
  rcases owns with ⟨object, inScene, -⟩ | ⟨-, rfl⟩
  · obtain ⟨made, each, joined⟩ := layout.made _ inScene
    dsimp only at each joined
    have spread (piece : Owned α) (member : piece ∈ made) :
        holds piece.setup ∧ holds piece.enter := by
      obtain ⟨source, isSource, first, isMade⟩ := Lists.exists_of_mem_right each member
      refine pieces object (layout.id_mem_walk inScene) source isSource first piece isMade ?_
      intro action inPiece
      refine layout.mem_instances inScene ?_
      rw [joined, Owned.instances_concat]
      exact List.mem_flatMap.mpr ⟨piece, member, inPiece⟩
    rw [joined, Owned.setup_concat, Owned.enter_concat]
    exact ⟨spreads.flatMap fun piece member => (spread piece member).1,
      spreads.flatMap fun piece member => (spread piece member).2⟩
  · exact ⟨spreads.nil, spreads.nil⟩

/-- What holds of the parts of a program holds of all its blocks. Actions that are on no object are
in none of them. -/
theorem spread (setups : ∀ effect : Effect α, holds effect.setup)
    (pieces : ∀ object ∈ scene.walk, ∀ source ∈ object.sources, ∀ first piece,
      Owned.Made layout.directory rate object.id first source piece →
      (∀ action ∈ piece.instances, action ∈ instances rate scene) →
      holds piece.setup ∧ holds piece.enter)
    (actions : ∀ action ∈ instances rate scene, action.targets ≠ [] →
      (∀ phase, holds (action.phases.get phase)) ∧ holds action.advance ∧ holds action.finish)
    {placed : ObjectProgram α} (isPlaced : placed ∈ program.objects) {block : Block α}
    (member : block ∈ placed.fragments) : holds block := by
  obtain ⟨owned, parts, owns⟩ := layout.parts_of_mem isPlaced
  obtain ⟨setup, enter⟩ := layout.spread_owned spreads pieces owns
  have targeting {action : Instance α}
      (targeted : action ∈ targeting (instances rate scene) placed.id) :
      (∀ phase, holds (action.phases.get phase)) ∧ holds action.advance ∧ holds action.finish := by
    obtain ⟨inScene, isTarget⟩ := List.mem_filter.mp targeted
    refine actions action inScene fun none => ?_
    rw [none] at isTarget
    cases isTarget
  rw [parts] at member
  rcases List.mem_append.mp member with inPhases | inActions
  · obtain ⟨phase, -, rfl⟩ := List.mem_map.mp inPhases
    cases phase with
    | enter =>
      exact spreads.append (spreads.once (spreads.append (spreads.captures setups _) setup)) enter
    | advance => exact spreads.flatMap fun _ targeted => (targeting targeted).2.1
    | exit => exact spreads.flatMap fun _ targeted => (targeting targeted).2.2
  · obtain ⟨seen, inSeen, inPhases⟩ := List.mem_flatMap.mp inActions
    obtain ⟨action, targeted, rfl⟩ := List.mem_map.mp inSeen
    obtain ⟨phase, -, rfl⟩ := List.mem_map.mp inPhases
    exact (targeting targeted).1 phase

end Layout

end Program

end Stagecraft
