/-
This file follows the position that a watch of a movement stores. An evaluation ends with storing
where the subject is then, after whatever was dispatched, and nothing else writes the stored
position. So the next evaluation, however many frames later, measures from there, and the first
evaluation measures nothing.
-/

import Stagecraft.Proofs.Trigger.Edges

namespace Stagecraft

variable {α : Type}

/-- The last frame before this one that was evaluated. -/
def lastEvaluation (evaluated : Nat → Bool) : Nat → Option Nat
  | 0 => none
  | frame + 1 => if evaluated frame then some frame else lastEvaluation evaluated frame

theorem lastLevel_eq (evaluated level : Nat → Bool) (frame : Nat) :
    lastLevel evaluated level frame = ((lastEvaluation evaluated frame).map level).getD false := by
  induction frame with
  | zero => rfl
  | succ frame inductionHypothesis =>
    rw [lastLevel, lastEvaluation]
    split
    · rfl
    · exact inductionHypothesis

variable [Trigonometric α]

/-! ### Storing a position -/

namespace Sensor

variable {this : String} {locals : Locals α} {world : World α} {watch : Watch}

/-- What a movement stores is where its subject is, and that it has been stored. -/
theorem read_after_movement (hosted : world.hosts this) (subject : String) (distance : α) :
    let left := Block.runAll this locals world ((movement subject distance).after watch)
    left.lastPosition this watch = left.positionOf subject ∧
      left.read this (Slot.watch watch .primed).key = 1 := by
  intro left
  -- No write of a stored position is read by the next one: the position of the subject is seen.
  have storing : Block.runAll this locals world ((movement subject distance).after watch) =
      (((world.write this (Slot.watch watch (.last .x)).key (world.positionOf subject).x).write
        this (Slot.watch watch (.last .y)).key (world.positionOf subject).y).write
        this (Slot.watch watch (.last .z)).key (world.positionOf subject).z).write
        this (Slot.watch watch .primed).key 1 := by
    simp [after, Axis.all, Vec.positionOf, Vec.ofAxes, Vec.get, Slot.readOf, Expr.eval, Value.number,
      World.positionOf, World.read_write, Slot.position]
  have kept (axis : Axis) :
      left.read subject (Slot.position axis).key =
        world.read subject (Slot.position axis).key := by
    simp [left, storing, World.read_write, Slot.position]
  constructor
  · simp only [World.lastPosition, World.positionOf, kept]
    simp [left, storing, World.read_write, hosted, World.positionOf, Vec.ofAxes]
  · simp [left, storing, World.read_write, hosted]

end Sensor

/-- An evaluation ends with what its sensor stores. -/
theorem Watch.exists_runAll_evaluate (watch : Watch) (sensor : Sensor α) (epsilon : α)
    (remain : Bool) (dispatch : Block α) (this : String) (locals : Locals α) (world : World α) :
    ∃ locals' left, left.hosts = world.hosts ∧
      Block.runAll this locals world (watch.evaluate sensor epsilon remain dispatch) =
        Block.runAll this locals' left (sensor.after watch) := by
  let front : Block α := sensor.before epsilon watch ++
    .bind levelName (sensor.level epsilon watch) :: (watch.decision sensor remain dispatch ++
      [(Slot.watch watch .previous).write (Expr.var levelName).flag])
  have split : watch.evaluate sensor epsilon remain dispatch = front ++ sensor.after watch := by
    simp [evaluate, decision, front]
  refine ⟨(Block.thread this locals world front).1, _,
    Block.hosts_runAll this locals world front, ?_⟩
  rw [split, Block.runAll_append]

/-! ### Frames -/

namespace Post

variable {program : Program α} {owner title : String} {post : Post α}
  (spot : Program.Spot program owner (post.block title))

theorem closing_eq (world : World α) :
    spot.closing world =
      if post.isEvaluated owner (spot.turn world) then
        Block.runAll owner (spot.locals world) (spot.turn world) post.evaluate
      else spot.turn world := by
  have turned : spot.closing world =
      Block.runAll owner (spot.locals world) (spot.turn world) post.guarded := by
    show Block.runAll owner _ _ (.comment title :: post.guarded) = _
    rw [Block.runAll_cons, Stmt.run]
  rw [turned, guarded, isEvaluated]
  rcases post.declared with - | declared
  · rfl
  · dsimp only
    rw [Block.runAll_cons, Block.runAll_nil, Stmt.run_onlyIf]
    cases declared <;> simp [Watch.isEnabled]

/-- What nothing else writes is found at the turn of the post as the last frame left it. -/
theorem read_stage_turn (run : Run α) (frame : Nat) {field : WatchField}
    (spares : spot.Spares (.watch post.watch field)) :
    (spot.turn (run.world frame)).read owner (Slot.watch post.watch field).key =
      (run.stage frame).world.read owner (Slot.watch post.watch field).key := by
  rw [spot.read_turn spares, run.read_world id]

section

variable {scene : Scene α} (hosted : (Stage.ofScene scene).world.hosts owner)
  {visits : Nat → List (Visit α)} {run : Run α} (isOf : run = Run.ofScene program scene visits)
  (frame : Nat) {field : WatchField} (spares : spot.Spares (.watch post.watch field))

include hosted isOf spares

/-- And a frame leaves it as the turn of the post left it. -/
theorem read_stage_succ :
    (run.stage (frame + 1)).world.read owner (Slot.watch post.watch field).key =
      (spot.closing (run.world frame)).read owner (Slot.watch post.watch field).key := by
  have kept := spot.read_frame spares.toSparesBeside (hosts_owner_world hosted isOf frame)
  have ran : run.program = program := by rw [isOf, Run.ofScene]
  rw [run.read_stage_succ id, ran, kept]

/-- A frame without an evaluation changes nothing that the watch has stored. -/
theorem read_stage_of_not_evaluated (disabled : ¬post.evaluatedAt spot run frame) :
    (run.stage (frame + 1)).world.read owner (Slot.watch post.watch field).key =
      (run.stage frame).world.read owner (Slot.watch post.watch field).key := by
  have skipped : ¬post.isEvaluated owner (spot.turn (run.world frame)) := disabled
  rw [read_stage_succ spot hosted isOf frame spares, closing_eq, if_neg skipped]
  exact read_stage_turn spot run frame spares

end

/-- The post compares where the subject is with where the last evaluation before, if there is one,
left it. The level is set where the distance exceeds the threshold, raised by epsilon if the level
was not set at that evaluation, and lowered by epsilon if it was. An evaluation stores where it
leaves the subject, and its level; a frame without one changes nothing of what is stored. -/
def ComparesPositions (post : Post α) (subject : String) (distance : α) (program : Program α)
    (scene : Scene α) (owner : String) : Prop :=
  ∃ (title : String) (spot : Program.Spot program owner (post.block title)),
    ∀ (visits : Nat → List (Visit α)) (frame : Nat),
      let run := Run.ofScene program scene visits
      let evaluated := post.evaluatedAt spot run
      let level := post.levelAt spot run
      let found := fun frame => (spot.turn (run.world frame)).positionOf subject
      let left := fun frame => (spot.closing (run.world frame)).positionOf subject
      let stored := fun frame field =>
        (run.stage frame).world.read owner (Slot.watch post.watch field).key
      level frame =
          (match lastEvaluation evaluated frame with
          | none => false
          | some last => decide (distance + post.epsilon -
              Scalar.two * post.epsilon * (if level last then 1 else 0) <
                (found frame - left last).length)) ∧
        (∀ axis, stored (frame + 1) (.last axis) =
          if evaluated frame then (left frame).get axis else stored frame (.last axis)) ∧
        (stored (frame + 1) .primed = if evaluated frame then 1 else stored frame .primed) ∧
        stored (frame + 1) .previous =
          if evaluated frame then (if level frame then 1 else 0) else stored frame .previous

section

variable {scene : Scene α} (hosted : (Stage.ofScene scene).world.hosts owner)
  {visits : Nat → List (Visit α)} {run : Run α} (isOf : run = Run.ofScene program scene visits)
  {subject : String} {distance : α} (sensed : post.sensor = .movement subject distance)
  (spares : ∀ field, field ≠ .state → spot.Spares (.watch post.watch field))

include hosted isOf sensed spares

/-- An evaluation of a movement ends with the position stored at which it leaves the subject. -/
theorem read_stage_of_evaluated (frame : Nat) (evaluated : post.evaluatedAt spot run frame) :
    (run.stage (frame + 1)).world.lastPosition owner post.watch =
        (spot.closing (run.world frame)).positionOf subject ∧
      (run.stage (frame + 1)).world.read owner (Slot.watch post.watch .primed).key = 1 := by
  have taken : post.isEvaluated owner (spot.turn (run.world frame)) := evaluated
  obtain ⟨locals, left, sameHosts, ends⟩ := post.watch.exists_runAll_evaluate post.sensor
    post.epsilon post.remain post.dispatch owner (spot.locals (run.world frame))
    (spot.turn (run.world frame))
  have closing : spot.closing (run.world frame) =
      Block.runAll owner locals left ((Sensor.movement subject distance).after post.watch) := by
    rw [closing_eq, if_pos taken, evaluate, ends, sensed]
  have hostedLeft : left.hosts owner := by
    rw [sameHosts, Program.Spot.hosts_turn]
    exact hosts_owner_world hosted isOf frame
  obtain ⟨positions, primed⟩ := Sensor.read_after_movement hostedLeft subject distance
  rw [← closing] at positions primed
  have kept (field : WatchField) (notState : field ≠ .state) :=
    read_stage_succ spot hosted isOf frame (spares field notState)
  refine ⟨?_, ?_⟩
  · rw [← positions, World.lastPosition, World.lastPosition]
    simp only [kept (.last _) (by simp)]
  · rw [kept .primed (by simp), primed]

/-- Before every frame the last evaluation is what is stored. -/
theorem stored_of_lastEvaluation (frame : Nat) :
    match lastEvaluation (post.evaluatedAt spot run) frame with
    | none => (run.stage frame).world.read owner (Slot.watch post.watch .primed).key = 0
    | some last =>
      (run.stage frame).world.lastPosition owner post.watch =
          (spot.closing (run.world last)).positionOf subject ∧
        (run.stage frame).world.read owner (Slot.watch post.watch .primed).key = 1 := by
  induction frame with
  | zero =>
    rw [isOf]
    exact Stage.read_ofScene id scene owner
  | succ frame inductionHypothesis =>
    rw [lastEvaluation]
    by_cases evaluated : post.evaluatedAt spot run frame
    · rw [if_pos evaluated]
      exact read_stage_of_evaluated spot hosted isOf sensed spares frame evaluated
    · have kept (field : WatchField) (notState : field ≠ .state) :=
        read_stage_of_not_evaluated spot hosted isOf frame (spares field notState) evaluated
      have position : (run.stage (frame + 1)).world.lastPosition owner post.watch =
          (run.stage frame).world.lastPosition owner post.watch := by
        rw [World.lastPosition, World.lastPosition]
        simp only [kept (.last _) (by simp)]
      rw [if_neg evaluated, position, kept .primed (by simp)]
      exact inductionHypothesis

variable [Counting α] (unwritten : (owner, post.stored.key) ∉ Block.writes owner post.dispatch)

include unwritten

/-- The level is a comparison with the position that the last evaluation left. -/
theorem levelAt_eq (frame : Nat) :
    post.levelAt spot run frame =
      match lastEvaluation (post.evaluatedAt spot run) frame with
      | none => false
      | some last => decide (distance + post.epsilon -
          Scalar.two * post.epsilon * (if post.levelAt spot run last then 1 else 0) <
            ((spot.turn (run.world frame)).positionOf subject -
              (spot.closing (run.world last)).positionOf subject).length) := by
  have found (field : WatchField) (notState : field ≠ .state) :=
    read_stage_turn spot run frame (spares field notState)
  have position : (spot.turn (run.world frame)).lastPosition owner post.watch =
      (run.stage frame).world.lastPosition owner post.watch := by
    rw [World.lastPosition, World.lastPosition]
    simp only [found (.last _) (by simp)]
  have previous : (spot.turn (run.world frame)).read owner (Slot.watch post.watch .previous).key =
      if post.previousAt spot run frame then 1 else 0 :=
    read_stored_turn spot hosted isOf frame unwritten (spares .previous (by simp))
  have level : post.levelAt spot run frame = _ :=
    (congrArg (fun sensor => post.watch.levelAt sensor post.epsilon owner _ _) sensed).trans
      (Watch.levelAt_movement _ owner _ _ post.epsilon subject distance)
  have stored := stored_of_lastEvaluation spot hosted isOf sensed spares frame
  rw [level, position, found .primed (by simp), previous,
    show post.previousAt spot run frame = _ from lastLevel_eq _ _ frame]
  cases last : lastEvaluation (post.evaluatedAt spot run) frame with
  | none =>
    rw [last] at stored
    rw [stored, Counting.zero_beq_zero]
    rfl
  | some last' =>
    rw [last] at stored
    rw [stored.1, stored.2, Counting.one_beq_zero]
    rfl

omit isOf in
/-- A post of a movement compares positions where nothing else writes what it stores. -/
theorem comparesPositions_of_spares :
    post.ComparesPositions subject distance program scene owner := by
  refine ⟨title, spot, fun visits frame => ?_⟩
  have isOf : Run.ofScene program scene visits = Run.ofScene program scene visits := rfl
  have stores := read_stage_of_evaluated spot hosted isOf sensed spares frame
  have keeps (field : WatchField) (notState : field ≠ .state) :=
    read_stage_of_not_evaluated spot hosted isOf frame (spares field notState)
  have levels := read_stored spot hosted isOf (frame + 1) unwritten (spares .previous (by simp))
  refine ⟨levelAt_eq spot hosted isOf sensed spares unwritten frame, fun axis => ?_, ?_, ?_⟩
  · split
    next evaluated =>
      have positions := congrArg (fun position => position.get axis) (stores evaluated).1
      cases axis <;> exact positions
    next skipped => exact keeps (.last axis) (by simp) skipped
  · split
    next evaluated => exact (stores evaluated).2
    next skipped => exact keeps .primed (by simp) skipped
  · split
    next evaluated =>
      refine levels.trans ?_
      rw [previousAt, lastLevel, if_pos evaluated]
    next skipped => exact keeps .previous (by simp) skipped

end

end Post

/-- The sensor of a movement watches the subject with the declared threshold. -/
theorem Sensor.ofCondition_movement {directory : Directory α} {context : Context}
    {subject : Subject} {distance : α} {sensor : Sensor α}
    (sensed : Sensor.ofCondition directory context (.movement subject distance) = .ok sensor) :
    sensor = .movement subject.id distance := by
  cases made_of_ofCondition sensed with
  | movement => rfl

/-- In a compiled scene every trigger of a movement compares positions from one evaluation to the
next, in every run, whatever its dispatches do and however often it is disabled in between. -/
theorem movement_compares_positions [Counting α] {rate : α} {scene : Scene α} {program : Program α}
    (compiled : Program.compile rate scene = .ok program) :
    ∃ directory, Directory.ofScene scene = .ok directory ∧
      ∀ object ∈ scene.walk, ∀ trigger ∈ object.triggers, ∀ subject distance,
        trigger.condition = .movement subject distance → ∃ first actions,
          Action.resolveAll directory rate (.trigger trigger.name) object.id first trigger.actions =
            .ok actions ∧
          (Post.ofTrigger trigger (.movement subject.id distance) actions).ComparesPositions
            subject.id distance program scene object.id := by
  obtain ⟨layout⟩ := Program.exists_layout compiled
  refine ⟨layout.directory, layout.sound, fun object inScene trigger member subject distance moves => ?_⟩
  obtain ⟨sensor, first, actions, title, sensed, resolved, owns, spot, spares⟩ :=
    layout.exists_spot_trigger inScene member
  obtain ⟨-, unwritten⟩ := layout.dispatchAll_facts owns object.id (.trigger trigger.name)
  obtain ⟨_, -, sensed⟩ := Outcome.bind_eq_ok.mp sensed
  rw [moves] at sensed
  obtain rfl := Sensor.ofCondition_movement sensed
  exact ⟨first, actions, resolved,
    Post.comparesPositions_of_spares spot (Program.Layout.hosts_owner inScene) rfl spares unwritten⟩

/-- Who moves is pushed back. -/
def Trigger.stir : Trigger Float where
  name := "stir"
  condition := .movement .head 2
  actions := [⟨some "head", 0, .move ⟨some ⟨0, -5, 0⟩, .center, .unchanged⟩ true⟩]
  remain := true
  enabled := true
  epsilon := 1

def Scene.gate : Scene Float where
  objects := [{ SceneObject.still "sentry" with triggers := [.stir] }]
  groups := []

/-- Whoever steps to a distance of ten is pushed back to one of five. The sentry measures from there:
who stays is not pushed again. -/
theorem movement_compares_positions_gate :
    ∃ program, Program.compile 1 Scene.gate = .ok program ∧
      ∃ sentry ∈ Scene.gate.walk, Trigger.stir ∈ sentry.triggers ∧ ∃ actions,
        let post := Post.ofTrigger .stir (.movement "head" 2) actions
        post.ComparesPositions "head" 2 program Scene.gate sentry.id ∧
          ∃ (title : String) (spot : Program.Spot program sentry.id (post.block title)),
            let run := Run.ofScene program Scene.gate (Visit.along .y [0, 10])
            let height := fun world : World Float => (world.positionOf "head").y
            [0, 1, 2].map (fun frame => (height (run.world frame),
                height (run.stage (frame + 1)).world,
                ((run.stage (frame + 1)).world.lastPosition sentry.id (.trigger "stir")).y)) =
              [(0, 0, 0), (10, 5, 5), (5, 5, 5)] ∧
            [0, 1, 2].map (fun frame => Trace.entries sentry.id post.dispatch
              (spot.trace (run.world frame))) = [0, 1, 0] := by
  obtain ⟨program, compiled⟩ : ∃ program, Program.compile 1 Scene.gate = .ok program :=
    Program.exists_of_isOk (by decide +kernel)
  obtain ⟨directory, sound, compares⟩ := movement_compares_positions compiled
  obtain ⟨first, actions, resolved, title, spot, compared⟩ :=
    compares _ (List.mem_singleton.mpr rfl) .stir (List.mem_singleton.mpr rfl) .head 2 rfl
  have effective := Owned.isIdle_of_resolveAll resolved
    (Owned.dispatchAll_ne_nil sound resolved (List.mem_singleton.mpr rfl) rfl)
  have lengths : program.objects.map (fun placed => (placed.id, placed.phases.enter.length)) =
      [("sentry", 2), ("head", 0)] := by
    apply Outcome.eq_of_seen compiled
    decide +kernel
  have isDue : (let run := Run.ofScene program Scene.gate (Visit.along .y [0, 10])
      let stir := Post.ofTrigger Trigger.stir (.movement "head" 2) []
      [0, 1, 2].map fun frame => stir.isDue "sentry" (run.world frame)) = [false, true, false] := by
    apply Outcome.eq_of_seen compiled
    decide +kernel
  have front := spot.isFront_of_length lengths (by decide) le_rfl
  refine ⟨program, compiled, _, List.mem_singleton.mpr rfl, List.mem_singleton.mpr rfl, actions,
    ⟨title, spot, compared⟩, title, spot, ?_, Post.map_entries_front _ spot front effective isDue⟩
  apply Outcome.eq_of_seen compiled
  decide +kernel

end Stagecraft
