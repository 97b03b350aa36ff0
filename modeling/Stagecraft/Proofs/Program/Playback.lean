/-
This file keeps the flags of sounds in order through a whole performance. Between frames anything
may be written to any bag, as long as it is not the flag of the sound in question. What happens in
a frame is bookkeeping of sources, which makes no calls, and blocks of actions, each of which keeps
the flag with the last command.
-/

import Stagecraft.Proofs.Effect.Playback
import Stagecraft.Proofs.Program.Openings

namespace Stagecraft

/-! ### Disturbances -/

/-- One write from outside of logic, to whatever key. -/
structure Disturbance (α : Type) where
  object : String
  key : String
  value : α

namespace Stage

variable {α : Type}

/-- The stage after some disturbances. -/
def disturbed (stage : Stage α) (disturbances : List (Disturbance α)) : Stage α :=
  { stage with
    world := disturbances.foldl (fun world disturbance =>
      world.write disturbance.object disturbance.key disturbance.value) stage.world }

/-- The calls of all frames so far. -/
def calls (stage : Stage α) : List (String × HostCall) :=
  stage.log.map fun logged => (logged.object, logged.call)

end Stage

/-- The stage of a scene after some frames of a program, each with disturbances before it. -/
def Program.disturbedStage {α : Type} [Trigonometric α] (program : Program α) (scene : Scene α)
    (disturbances : Nat → List (Disturbance α)) : Nat → Stage α
  | 0 => Stage.ofScene scene
  | frame + 1 =>
    ((disturbedStage program scene disturbances frame).disturbed (disturbances frame)).runFrame
      program

variable {α : Type} [Trigonometric α]

/-! ### Pieces -/

theorem Sensor.calls_before (epsilon : α) (watch : Watch) (sensor : Sensor α) :
    Block.calls (sensor.before epsilon watch) = [] := by
  cases sensor <;> simp [before]

theorem Sensor.calls_after (watch : Watch) (sensor : Sensor α) :
    Block.calls (sensor.after watch) = [] := by
  cases sensor <;> simp [after]

section

variable {holds : World α → Prop} {this : String}
  (books : ∀ block, Block.WritesOnly (fun object slot => object = this ∧ slot.IsTracked) this block →
    Block.calls block = [] → Block.Keeps holds this block)

include books

theorem Watch.keeps_evaluate {dispatch : Block α} (dispatched : Block.Keeps holds this dispatch)
    (watch : Watch) (sensor : Sensor α) (epsilon : α) (remain : Bool) :
    Block.Keeps holds this (watch.evaluate sensor epsilon remain dispatch) := by
  have before := books _ (sensor.writesOnly_before epsilon watch) (sensor.calls_before epsilon watch)
  have after := books _ (sensor.writesOnly_after fun _ kept => ⟨rfl, by
    rcases kept with rfl | ⟨axis, rfl⟩ <;> simp [Slot.IsTracked]⟩) (sensor.calls_after watch)
  have level (value : Expr α) : Block.Keeps holds this [.bind levelName value] :=
    books _ Block.writesOnly_bind (by simp)
  have stored (value : Expr α) :
      Block.Keeps holds this [(Slot.watch watch .previous).write value] :=
    books _ (Block.writesOnly_write.mpr ⟨rfl, by simp [Slot.IsTracked]⟩) (by simp)
  rw [evaluate]
  refine Block.keeps_append (Block.keeps_append before (Block.keeps_cons (level _) ?_))
    (Block.keeps_cons (stored _) after)
  split
  · exact Block.keeps_nil
  · exact Block.keeps_branch dispatched Block.keeps_nil

theorem Sequence.keeps_run {sequence : Sequence α}
    (dispatched : ∀ cue ∈ sequence.cues, Block.Keeps holds this cue.action.dispatch) :
    Block.Keeps holds this sequence.run := by
  have noted (field : TimelineField) (value : Expr α) :
      Block.Keeps holds this [(sequence.slot field).write value] :=
    books _ (Block.writesOnly_write.mpr ⟨rfl, trivial⟩) (by simp)
  have entry (cue : Cue α) (member : cue ∈ sequence.cues) (index : Nat) :
      Block.Keeps holds this [sequence.dispatchAt cue index] :=
    Block.keeps_branch (Block.keeps_cons (noted .cursor _) (dispatched cue member)) Block.keeps_nil
  refine Block.keeps_cons (books _ Block.writesOnly_comment (by simp)) (Block.keeps_branch ?_
    Block.keeps_nil)
  refine Block.keeps_append ?_ (Block.keeps_cons (noted .elapsed _)
    (Block.keeps_branch (noted .running _) Block.keeps_nil))
  rw [List.map_eq_flatMap]
  exact Block.keeps_flatMap fun placed member =>
    entry placed.1 (List.fst_mem_of_mem_zipIdx member) placed.2

/-- What a property needs of a piece: the bookkeeping of its source, and what its actions do. -/
theorem Owned.keeps_made {directory : Directory α} {rate : α} {first : Nat} {source : Source α}
    {piece : Owned α} (made : Made directory rate this first source piece)
    (dispatched : ∀ action ∈ piece.instances, Block.Keeps holds this action.dispatch) :
    Block.Keeps holds this piece.enter := by
  have titled (text : String) : Block.Keeps holds this [.comment text] :=
    books _ Block.writesOnly_comment (by simp)
  cases made with
  | trigger declared sensor instances =>
    refine Block.keeps_cons (titled _) (Block.keeps_branch ?_ Block.keeps_nil)
    exact Watch.keeps_evaluate books (Block.keeps_flatMap dispatched) _ _ _ _
  | noLink => exact Block.keeps_nil
  | link declared instances =>
    refine Block.keeps_cons (titled _) ?_
    exact Watch.keeps_evaluate books (Block.keeps_flatMap dispatched) _ _ _ _
  | timeline declared entries instances sequence _ _ same =>
    subst same
    refine Sequence.keeps_run books fun cue member => ?_
    obtain ⟨⟨entry, action⟩, inZip, rfl⟩ := List.mem_map.mp member
    exact dispatched action (List.of_mem_zip inZip).2

end

/-! ### Phases -/

section

variable [Counting α] {past : List (String × HostCall)} {object name : String}

namespace Program.Layout

variable {rate : α} {scene : Scene α} {program : Program α} (layout : Layout rate scene program)

include layout

theorem heeds_dispatch {action : Instance α} (member : action ∈ instances rate scene)
    (this : String) :
    Block.Keeps (World.Heeds (Stage.ofScene scene).world.hosts past object name) this
      action.dispatch := by
  rw [Instance.dispatch, List.map_eq_flatMap]
  exact Block.keeps_flatMap fun target targeted =>
    Block.keeps_within (action.heeds_opening (layout.hosts_target member targeted))

/-- The logic of an object, apart from its setup. -/
theorem heeds_owned {id : String} {owned : Owned α} (owns : layout.Owns id owned) :
    Block.Keeps (World.Heeds (Stage.ofScene scene).world.hosts past object name) id owned.enter := by
  rcases owns with ⟨placedObject, inScene, same⟩ | ⟨-, rfl⟩
  · obtain ⟨pieces, made, joined⟩ := layout.made _ inScene
    dsimp only at joined made
    rw [joined, Owned.enter_concat]
    refine Block.keeps_flatMap fun piece inPieces => ?_
    obtain ⟨source, -, number, madePiece⟩ := Lists.exists_of_mem_right made inPieces
    rw [same] at madePiece
    refine Owned.keeps_made (fun block bounded silent => Block.keeps_of_silent
      (bounded.mono fun _ slot tracked same => ?_) silent) madePiece fun action inPiece =>
        layout.heeds_dispatch (layout.mem_instances inScene ?_) id
    · rw [same.2] at tracked
      exact tracked.2
    · rw [joined, Owned.instances_concat]
      exact List.mem_flatMap.mpr ⟨piece, inPieces, inPiece⟩
  · exact Block.keeps_nil

omit [Counting α] in
/-- No setup of an object makes a call. -/
theorem calls_setups {id : String} {owned : Owned α} (owns : layout.Owns id owned)
    (actions : List (Instance α)) :
    Block.calls ((actions.map (·.setup)).eraseDups.flatten ++ owned.setup) = [] := by
  rw [Block.calls_append, List.append_eq_nil_iff]
  constructor
  · refine Block.calls_flatten fun setup inSetups => ?_
    obtain ⟨action, -, rfl⟩ := List.mem_map.mp (Lists.mem_of_mem_eraseDups inSetups)
    exact action.effect.calls_setup
  · rcases owns with ⟨placedObject, inScene, -⟩ | ⟨-, rfl⟩
    · obtain ⟨pieces, made, joined⟩ := layout.made _ inScene
      dsimp only at joined made
      rw [joined, Owned.setup_concat, Block.calls_flatMap, List.flatMap_eq_nil_iff]
      intro piece inPieces
      obtain ⟨source, -, number, madePiece⟩ := Lists.exists_of_mem_right made inPieces
      cases madePiece with
      | timeline declared entries instances sequence =>
        show Block.calls sequence.setup = []
        rw [Sequence.setup]
        split
        · exact Effect.calls_changeTimeline _ _
        · exact Block.calls_nil
      | _ => exact Block.calls_nil
    · exact Block.calls_nil

omit [Counting α] in
theorem heeds_once {id : String} {owned : Owned α} (owns : layout.Owns id owned)
    (actions : List (Instance α)) :
    Block.Keeps (World.Heeds (Stage.ofScene scene).world.hosts past object name) id
      (once ((actions.map (·.setup)).eraseDups.flatten ++ owned.setup)) := by
  refine Block.keeps_of_silent (layout.writesOnly_once owns ?_ ?_ ?_ actions) ?_
  · exact fun same => by cases same.2
  · exact fun _ same => by cases same.2
  · exact fun _ _ same => by cases same.2
  · have silent := layout.calls_setups owns actions
    rw [once]
    split
    · exact Block.calls_nil
    · rw [Block.calls_cons, Stmt.calls_onlyIf, Block.calls_append, silent]
      simp

theorem heeds_phase {placed : ObjectProgram α} (isPlaced : placed ∈ program.objects)
    (phase : Phase) :
    Block.Keeps (World.Heeds (Stage.ofScene scene).world.hosts past object name) placed.id
      (placed.phases.get phase) := by
  have hosted := layout.hosts_of_mem isPlaced
  cases phase with
  | enter =>
    obtain ⟨owned, owns, enter⟩ := layout.listed_enter isPlaced
    rw [enter]
    exact Block.keeps_append (layout.heeds_once owns _) (layout.heeds_owned owns)
  | advance =>
    rw [layout.listed_advance isPlaced]
    exact Block.keeps_flatMap fun action _ => action.heeds_advance hosted
  | exit =>
    rw [layout.listed_exit isPlaced]
    exact Block.keeps_flatMap fun action _ => action.heeds_finish hosted

/-- A frame leaves the flag with the last command. -/
theorem heeds_frame {world : World α}
    (held : world.Heeds (Stage.ofScene scene).world.hosts past object name) :
    (program.frame.run world).Heeds (Stage.ofScene scene).world.hosts past object name := by
  refine Agenda.holds_run (fun duty inFrame => ?_) held
  obtain ⟨phase, -, inPhase⟩ := List.mem_flatMap.mp inFrame
  obtain ⟨placed, isPlaced, rfl⟩ := mem_agenda.mp inPhase
  exact layout.heeds_phase isPlaced phase

end Program.Layout

end

/-! ### Stages -/

section

variable {past : List (String × HostCall)} {object name : String}

namespace Stage

variable {hosts : String → Bool} {stage : Stage α}

/-- A write that is not to the flag. -/
theorem heeds_write {world : World α} (held : world.Heeds hosts past object name)
    {target key : String} (beside : target = object → key ≠ (Slot.sound name .playing).key)
    (value : α) : (world.write target key value).Heeds hosts past object name := by
  refine held.beside (World.hosts_write _ _ _ _) ?_ [] (by simp) HostCall.commands_nil
  rw [World.read_write, if_neg fun same => beside same.2.1 same.2.2]

theorem heeds_disturbed (held : stage.world.Heeds hosts past object name)
    {disturbances : List (Disturbance α)} (unheard : ∀ disturbance ∈ disturbances,
      disturbance.object = object → disturbance.key ≠ (Slot.sound name .playing).key) :
    (stage.disturbed disturbances).world.Heeds hosts past object name :=
  List.foldlRecOn disturbances _ held fun _ held disturbance member =>
    heeds_write held (unheard disturbance member) disturbance.value

theorem heeds_face (held : stage.world.Heeds hosts past object name)
    (forward : Quaternion α → Vec α) : (stage.face forward).Heeds hosts past object name := by
  refine List.foldlRecOn _ _ held fun _ held id _ => List.foldlRecOn _ _ held fun _ held axis _ => ?_
  refine heeds_write held (fun _ same => ?_) _
  cases Slot.key_injective same

theorem heeds_release {world : World α} (held : world.Heeds hosts past object name) :
    (stage.release world).Heeds hosts past object name := by
  refine List.foldlRecOn _ _ held fun _ held id _ => ?_
  split
  · exact held
  · refine heeds_write held (fun _ same => ?_) _
    cases Slot.key_injective same

omit [Trigonometric α] in
theorem calls_afterFrame (world : World α) :
    (stage.afterFrame world).calls = stage.calls ++ world.calls := by
  simp [afterFrame, calls, Function.comp_def]

/-- Logging the calls of a frame leaves the flag with the last command. -/
theorem heeds_afterFrame {world : World α} (held : world.Heeds hosts stage.calls object name) :
    (stage.afterFrame world).world.Heeds hosts (stage.afterFrame world).calls object name := by
  have same : (stage.afterFrame world).calls ++ (stage.afterFrame world).world.calls =
      stage.calls ++ world.calls := by
    rw [calls_afterFrame]
    exact List.append_nil _
  exact ⟨held.hosts, same ▸ held.flag, same ▸ held.alternate⟩

end Stage

end

variable [Counting α]

theorem Program.Layout.heeds_stage {object name : String} {rate : α} {scene : Scene α} {program : Program α}
    (layout : Layout rate scene program) {disturbances : Nat → List (Disturbance α)}
    (unheard : ∀ frame, ∀ disturbance ∈ disturbances frame, disturbance.object = object →
      disturbance.key ≠ (Slot.sound name .playing).key) (frame : Nat) :
    let stage := program.disturbedStage scene disturbances frame
    stage.world.Heeds (Stage.ofScene scene).world.hosts stage.calls object name := by
  induction frame with
  | zero => exact ⟨rfl, Stage.read_ofScene id scene object, List.isChain_nil⟩
  | succ frame inductionHypothesis =>
    have disturbed := Stage.heeds_disturbed inductionHypothesis (unheard frame)
    rw [disturbedStage, Stage.runFrame, foldl_runPhase]
    exact Stage.heeds_afterFrame (Stage.heeds_release
      (layout.heeds_frame (Stage.heeds_face disturbed Quaternion.forward)))

/-- The flag of a sound tells the last command that the host was given for the sound, however its
actions overlap: it is one if the command was to play the sound, and zero if it was to stop it or if
there was none. And two commands that play the sound have one that stops it between them. Anything
else than the flag may be written from outside between the frames. -/
theorem playing_of_last_command {rate : α} {scene : Scene α} {program : Program α}
    (compiled : Program.compile rate scene = .ok program) (disturbances : Nat → List (Disturbance α))
    (object name : String)
    (unheard : ∀ frame, ∀ disturbance ∈ disturbances frame, disturbance.object = object →
      disturbance.key ≠ (Slot.sound name .playing).key) (frame : Nat) :
    let stage := program.disturbedStage scene disturbances frame
    (stage.get object (Slot.sound name .playing).key =
      if (HostCall.commands object name stage.calls).getLast? = some (.playSound name) then 1
      else 0) ∧
    ∀ before first between second after,
      stage.log = before ++ first :: (between ++ second :: after) →
      (first.object, first.call) = (object, .playSound name) →
      (second.object, second.call) = (object, .playSound name) →
      ∃ logged ∈ between, (logged.object, logged.call) = (object, .stopSound name) := by
  intro stage
  obtain ⟨layout⟩ := Program.exists_layout compiled
  have held := layout.heeds_stage unheard frame
  have noCalls : stage.world.calls = [] := by
    cases frame <;> rfl
  have flag := held.flag
  have alternate := held.alternate
  rw [noCalls, List.append_nil] at flag alternate
  refine ⟨flag, fun before first between second after split isFirst isSecond => ?_⟩
  have calls : stage.calls = before.map (fun logged => (logged.object, logged.call)) ++
      (object, .playSound name) :: (between.map (fun logged => (logged.object, logged.call)) ++
        (object, .playSound name) :: after.map (fun logged => (logged.object, logged.call))) := by
    rw [Stage.calls, split, ← isFirst]
    simp [isFirst, isSecond]
  exact List.mem_map.mp (HostCall.stop_of_alternate alternate calls)

/-- The bell begins to ring in the first frame, and one second later it begins to fade away. Selecting
it lets it ring, too. -/
def Scene.belfry : Scene Float where
  objects := [
    { SceneObject.still "bell" with
      timelines := [
        ⟨"toll", true, [⟨0, ⟨none, 2, .sound "ring.low" (.start 1)⟩⟩]⟩,
        ⟨"fade", true, [⟨1, ⟨none, 2, .sound "ring.low" .stop⟩⟩]⟩]
      linkActions := [⟨none, 3, .sound "ring.low" (.start 1)⟩] }]
  groups := []

/-- The bell is selected before the second and before the sixth frame. -/
def Scene.ringing (frame : Nat) : List (Disturbance Float) :=
  if frame = 1 ∨ frame = 5 then [⟨"bell", Slot.clicked.key, 1⟩] else []

/-- The first selection finds the bell ringing, and the second one finds it silent. -/
theorem playing_of_last_command_belfry :
    ∃ program, Program.compile 1 Scene.belfry = .ok program ∧
      (∀ frame, ∀ disturbance ∈ Scene.ringing frame, disturbance.object = "bell" →
        disturbance.key ≠ (Slot.sound "ring.low" .playing).key) ∧
      let stage := program.disturbedStage Scene.belfry Scene.ringing 6
      HostCall.commands "bell" "ring.low" stage.calls =
          [.playSound "ring.low", .stopSound "ring.low", .playSound "ring.low"] ∧
        stage.get "bell" (Slot.sound "ring.low" .playing).key = 1 := by
  obtain ⟨program, compiled⟩ : ∃ program, Program.compile 1 Scene.belfry = .ok program :=
    Program.exists_of_isOk (by decide +kernel)
  have unheard : ∀ frame, ∀ disturbance ∈ Scene.ringing frame, disturbance.object = "bell" →
      disturbance.key ≠ (Slot.sound "ring.low" .playing).key := by
    intro frame disturbance member _ same
    rw [Scene.ringing] at member
    split at member
    · rw [List.mem_singleton] at member
      subst disturbance
      cases (Slot.key_injective same : Slot.clicked = .sound "ring.low" .playing)
    · cases member
  have made : HostCall.commands "bell" "ring.low"
      (program.disturbedStage Scene.belfry Scene.ringing 6).calls =
        [.playSound "ring.low", .stopSound "ring.low", .playSound "ring.low"] := by
    apply Outcome.eq_of_seen compiled
    decide +kernel
  have flag := (playing_of_last_command compiled Scene.ringing "bell" "ring.low" unheard 6).1
  rw [made] at flag
  exact ⟨program, compiled, unheard, made, flag⟩

end Stagecraft
