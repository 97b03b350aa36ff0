/-
This file shows that the logic of a program is sound: every block of every object, with all that it
dispatches, uses numbers as numbers and conditions as conditions, reads no temporary that it has not
named, and names no object that the scene does not have. So wherever the scene is hosted, its logic
can be run on its objects in any order and on any bags, and never has to fall back on anything.
-/

import Stagecraft.Proofs.Effect.Soundness
import Stagecraft.Proofs.Logic.Strict
import Stagecraft.Proofs.Program.Fragments
import Stagecraft.Proofs.Trigger.Soundness

namespace Stagecraft

variable {α : Type} [Trigonometric α]

/-! ### Actions -/

/-- All that an action names is known: its targets, and the object at which it aims. -/
structure Instance.NamesKnown (known : String → Bool) (action : Instance α) : Prop where
  targets : ∀ target ∈ action.targets, known target
  aimed : action.effect.AimsAtKnown known

theorem Effect.Made.aimed {directory : Directory α} {context : Context} {kind : ActionKind α}
    {effect : Effect α} (made : Made directory context kind effect) :
    effect.AimsAtKnown directory.isAddressable := by
  cases made with
  | move placement relative motion _ knows => exact knows
  | _ => trivial

theorem Action.Resolves.aimed {directory : Directory α} {context : Context} {owner : String}
    {action : Action α} {targets : List String} {effect : Effect α}
    (resolves : action.Resolves directory context owner targets effect) :
    effect.AimsAtKnown directory.isAddressable := by
  cases resolves with
  | timeline => trivial
  | toggle => trivial
  | group _ _ made => exact (Effect.made_of_ofObjectAction made).aimed
  | object _ made => exact (Effect.made_of_ofObjectAction made).aimed

theorem Declared.Becomes.namesKnown {scene : Scene α} {directory : Directory α}
    (sound : Directory.ofScene scene = .ok directory) {rate : α} {declared : Declared α}
    {action : Instance α} (becomes : declared.Becomes directory rate action) :
    action.NamesKnown directory.isAddressable where
  targets := (Action.isSound_of_resolve sound becomes).known
  aimed := (Action.resolves_of_resolve becomes).2.aimed

/-! ### Timelines -/

section

variable {known : String → Bool}

theorem Instance.NamesKnown.isSound_dispatch {action : Instance α}
    (names : action.NamesKnown known) : Block.IsSound known action.dispatch :=
  Instance.isSound_dispatch names.aimed names.targets

theorem Owned.isSound_dispatchAll {actions : List (Instance α)}
    (names : ∀ action ∈ actions, action.NamesKnown known) :
    Block.IsSound known (dispatchAll actions) :=
  Block.isSound_flatMap fun action member => (names action member).isSound_dispatch

namespace Sequence

theorem isSound_setup (sequence : Sequence α) : Block.IsSound known sequence.setup := by
  rw [setup]
  split
  · exact Effect.isSound_changeTimeline _ _
  · exact Block.isSound_nil

theorem isSound_run {sequence : Sequence α}
    (names : ∀ cue ∈ sequence.cues, cue.action.NamesKnown known) :
    Block.IsSound known sequence.run := by
  have dispatched (entry : Cue α × Nat) (member : entry ∈ sequence.cues.zipIdx) :
      (sequence.dispatchAt entry.1 entry.2).IsSound known := by
    rw [dispatchAt, Stmt.isSound_onlyIf]
    refine ⟨by simp, .cons (by simp) ?_⟩
    exact (names entry.1 (List.fst_mem_of_mem_zipIdx member)).isSound_dispatch
  refine .cons (Stmt.isSound_comment _) (Block.isSound_guarded (by simp) ?_)
  refine (Block.isSound_map dispatched).append (.cons ?_ (Block.isSound_guarded ?_ ?_))
  · simp [countTick]
  · simp
  · exact Block.isSound_singleton.mpr (by simp)

end Sequence

/-! ### Sources -/

namespace Owned

variable {directory : Directory α} {rate : α} {owner : String} {first : Nat} {source : Source α}
  {piece : Owned α}

theorem isSound_enter (made : Made directory rate owner first source piece)
    (names : ∀ action ∈ piece.instances, action.NamesKnown directory.isAddressable) :
    Block.IsSound directory.isAddressable piece.enter := by
  cases made with
  | trigger declared sensor instances _ sensed =>
    obtain ⟨-, -, sensed⟩ := Outcome.bind_eq_ok.mp sensed
    refine .cons (Stmt.isSound_comment _) (Block.isSound_guarded ?_ ?_)
    · exact Watch.isCondition_isEnabled _ _
    · exact Watch.isSound_evaluate _ (Sensor.isAddressable_of_ofCondition sensed) _ _
        (isSound_dispatchAll names)
  | noLink => exact Block.isSound_nil
  | link actions instances =>
    refine .cons (Stmt.isSound_comment _) (Watch.isSound_evaluate _ ?_ _ _ ?_)
    · simp [Sensor.objects]
    · exact isSound_dispatchAll names
  | timeline declared entries instances sequence _ _ same =>
    subst same
    refine Sequence.isSound_run fun cue member => ?_
    obtain ⟨⟨entry, action⟩, inZip, rfl⟩ := List.mem_map.mp member
    exact names action (List.of_mem_zip inZip).2

theorem isSound_setup (made : Made directory rate owner first source piece) :
    Block.IsSound known piece.setup := by
  cases made with
  | timeline declared entries instances sequence => exact sequence.isSound_setup
  | _ => exact Block.isSound_nil

end Owned

end

/-! ### Programs -/

/-- The id is that of an object of the scene or of the head. -/
def Scene.knows {α : Type} (scene : Scene α) (id : String) : Bool :=
  id == headId || scene.walk.any (·.id == id)

namespace Program

/-- Sound blocks make up sound blocks, since none reads a temporary of another. -/
theorem spreads_isSound (known : String → Bool) :
    Spreads fun block : Block α => Block.IsSound known block where
  nil := Block.isSound_nil
  append := Block.IsSound.append
  once {setup} sound := by
    rw [once]
    split
    · exact Block.isSound_nil
    · exact Block.isSound_guarded (by simp) (sound.append (Block.isSound_singleton.mpr (by simp)))

namespace Layout

variable {rate : α} {scene : Scene α} {program : Program α} (layout : Layout rate scene program)

include layout

theorem isAddressable_eq : layout.directory.isAddressable = scene.knows := by
  funext id
  rw [Directory.isAddressable, Directory.isObject, Directory.objects_ofScene layout.sound,
    Scene.knows]

theorem namesKnown {action : Instance α} (member : action ∈ instances rate scene) :
    action.NamesKnown layout.directory.isAddressable := by
  obtain ⟨declared, -, becomes⟩ := Lists.exists_of_mem_right layout.becomes member
  exact becomes.namesKnown layout.sound

theorem knows_of_mem {placed : ObjectProgram α} (isPlaced : placed ∈ program.objects) :
    scene.knows placed.id := by
  obtain ⟨owned, -, ⟨object, inScene, same⟩ | ⟨same, -⟩⟩ := layout.parts_of_mem isPlaced
  · rw [Scene.knows, Bool.or_eq_true, List.any_eq_true]
    exact .inr ⟨object, layout.id_mem_walk inScene, by simpa using same⟩
  · rw [same]
    rfl

theorem isSound_fragment {placed : ObjectProgram α} (isPlaced : placed ∈ program.objects)
    {block : Block α} (member : block ∈ placed.fragments) : Block.IsSound scene.knows block := by
  rw [← layout.isAddressable_eq]
  refine layout.spread (spreads_isSound _) (fun _ => Effect.isSound_setup _) ?_ ?_ isPlaced member
  · intro object _ source _ first piece made inScene
    exact ⟨Owned.isSound_setup made,
      Owned.isSound_enter made fun action inPiece => layout.namesKnown (inScene action inPiece)⟩
  · intro action inScene _
    have aimed := (layout.namesKnown inScene).aimed
    exact ⟨Instance.isSound_phase aimed, Instance.isSound_advance aimed,
      Instance.isSound_finish aimed⟩

end Layout

end Program

/-- Every block of a compiled scene is sound by itself, with all blocks inside of it. Hence its
blocks can be run on objects of the scene in any order, wherever these are hosted and whatever bags
and calls there are, and the run is the one in which nothing falls back: no temporary is read that
was not named, no object is missing, and no condition stands for a number. -/
theorem logic_never_falls_back {rate : α} {scene : Scene α} {program : Program α}
    (compiled : Program.compile rate scene = .ok program) :
    (∀ placed ∈ program.objects, scene.knows placed.id ∧
      ∀ block ∈ placed.fragments, Block.IsSound scene.knows block) ∧
    ∀ (agenda : Agenda α) (world : World α),
      (∀ duty ∈ agenda, scene.knows duty.object ∧ duty.block ∈ program.fragments) →
      (∀ id, scene.knows id → world.hosts id) →
      agenda.strictRun? world = some (agenda.run world) := by
  obtain ⟨layout⟩ := Program.exists_layout compiled
  refine ⟨fun placed isPlaced => ⟨layout.knows_of_mem isPlaced, fun block member =>
    layout.isSound_fragment isPlaced member⟩, fun agenda world duties hosted => ?_⟩
  refine Agenda.strictRun?_eq (fun duty inAgenda => ?_) hosted
  obtain ⟨isKnown, isFragment⟩ := duties duty inAgenda
  obtain ⟨placed, isPlaced, member⟩ := List.mem_flatMap.mp isFragment
  exact ⟨isKnown, layout.isSound_fragment isPlaced member⟩

/-- The hall's last phase can be run before all others. -/
theorem logic_never_falls_back_hall :
    ∃ program, Program.compile 1 Scene.hall = .ok program ∧
      let agenda := program.agenda .exit ++ program.agenda .enter
      let world := (Stage.ofScene Scene.hall).world
      agenda.strictRun? world = some (agenda.run world) := by
  obtain ⟨program, compiled⟩ := Scene.exists_compile_hall
  refine ⟨program, compiled, (logic_never_falls_back compiled).2 _ _ (fun duty inAgenda => ?_) ?_⟩
  · obtain ⟨phase, placed, isPlaced, rfl⟩ : ∃ phase, ∃ placed ∈ program.objects,
        placed.duty phase = duty := by
      rcases List.mem_append.mp inAgenda with inExit | inEnter
      · exact ⟨.exit, Program.mem_agenda.mp inExit⟩
      · exact ⟨.enter, Program.mem_agenda.mp inEnter⟩
    refine ⟨((logic_never_falls_back compiled).1 placed isPlaced).1, ?_⟩
    refine List.mem_flatMap.mpr ⟨placed, isPlaced, List.mem_append_left _ ?_⟩
    exact List.mem_map_of_mem (by cases phase <;> simp [Phase.all])
  · intro id isKnown
    rw [Stage.hosts_ofScene]
    rw [Scene.knows, Bool.or_eq_true, beq_iff_eq, List.any_eq_true] at isKnown
    refine isKnown.imp_right fun described => ?_
    obtain ⟨object, inScene, same⟩ := described
    exact List.mem_map.mpr ⟨object, inScene, by simpa using same⟩

end Stagecraft
