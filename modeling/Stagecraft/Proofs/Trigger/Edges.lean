/-
This file follows watches through the frames of a run. The level of the last frame in which a watch
was evaluated is what its slot holds, so a watch dispatches exactly where its level crosses the edge
from one evaluation to the next, however often it was disabled in between and whatever its dispatch
does.
-/

import Stagecraft.Proofs.Program.Contracts
import Stagecraft.Proofs.Program.Spots
import Stagecraft.Proofs.Scalar.Doubles
import Stagecraft.Proofs.Trigger.Readings
import Stagecraft.Proofs.Trigger.Sensing

namespace Stagecraft

variable {α : Type}

/-- What a watch stores, its state apart, is beyond all actions, and beyond setups. -/
theorem Slot.isPrivate_watch {actions : List (Instance α)} {others : List (Owned.Source α)}
    {watch : Watch} {field : WatchField} (notState : field ≠ .state)
    (alone : ∀ other ∈ others, ¬other.Keeps (.watch watch field)) :
    (Slot.watch watch field).IsPrivate actions others where
  notKept := alone
  notReached _ _ := Instance.not_reaches_watch notState
  notInitialized := by simp
  notCaptured := by simp
  notTimeline := by simp

/-! ### Effective dispatches -/

variable [Trigonometric α]

/-- What actions of a scene dispatch together is effective unless it is empty, and stores no
level. -/
theorem Program.Layout.dispatchAll_facts {rate : α} {scene : Scene α} {program : Program α}
    (layout : Layout rate scene program) {actions : List (Instance α)}
    (owned : ∀ action ∈ actions, action ∈ instances rate scene) (owner : String) (watch : Watch) :
    (Owned.dispatchAll actions ≠ [] → Block.isIdle (Owned.dispatchAll actions) = false) ∧
      (owner, (Slot.watch watch .previous).key) ∉
        Block.writes owner (Owned.dispatchAll actions) := by
  refine ⟨Owned.isIdle_dispatchAll fun action member => layout.contracts action (owned action member),
    ?_⟩
  have bound : Block.WritesOnly (fun _ slot => slot ≠ .watch watch .previous) owner
      (Owned.dispatchAll actions) :=
    Owned.writesOnly_dispatchAll fun action _ =>
      (action.writesOnly_dispatch owner).mono fun _ slot inside same =>
        Instance.not_reaches_watch (by simp) (same ▸ inside.2)
  exact bound.notMem (by simp)

/-! ### Posts -/

/-- A watch as it stands in an object's enter phase. -/
structure Post (α : Type) where
  watch : Watch
  sensor : Sensor α
  epsilon : α
  remain : Bool
  /-- Whether it is enabled as declared; nothing for a watch that is always evaluated. -/
  declared : Option Bool
  dispatch : Block α

namespace Post

/-- The post of a trigger. -/
def ofTrigger (trigger : Trigger α) (sensor : Sensor α) (actions : List (Instance α)) : Post α where
  watch := .trigger trigger.name
  sensor
  epsilon := trigger.epsilon
  remain := trigger.remain
  declared := some trigger.enabled
  dispatch := Owned.dispatchAll actions

/-- The post of an object's link actions. -/
def ofLink (actions : List (Instance α)) : Post α where
  watch := .link
  sensor := .selection
  epsilon := 0
  remain := false
  declared := none
  dispatch := Owned.dispatchAll actions

variable (post : Post α) (owner : String) (locals : Locals α) (world : World α)

/-- The enable condition: the watch is enabled as the last toggle says, or as declared before any. -/
def isEvaluated : Bool :=
  let state := world.read owner (Slot.watch post.watch .state).key
  match post.declared with
  | none => true
  | some true => !(state == Effect.disabledState)
  | some false => state == Effect.enabledState

/-- The test of the sensor. -/
def level : Bool :=
  post.watch.levelAt post.sensor post.epsilon owner locals world

/-- At its turn the post would be evaluated, and its level crosses the edge. -/
def isDue : Bool :=
  post.isEvaluated owner world &&
    post.sensor.edge.isCrossed post.remain (post.level owner [] world)
      (post.watch.wasSet owner world)

/-- The slot in which the level is stored. -/
def stored : Slot := .watch post.watch .previous

def evaluate : Block α :=
  post.watch.evaluate post.sensor post.epsilon post.remain post.dispatch

/-- What the owner runs for the post. -/
def guarded : Block α :=
  match post.declared with
  | none => post.evaluate
  | some declared => [.onlyIf (post.watch.isEnabled declared) post.evaluate]

/-- What happens at the turn of a post: an evaluation where the enable condition holds. -/
theorem trace_guarded :
    Block.traceAll owner locals world post.guarded =
      match post.declared with
      | none => Block.traceAll owner locals world post.evaluate
      | some _ =>
        if post.isEvaluated owner world then
          .entered owner post.evaluate world :: Block.traceAll owner locals world post.evaluate
        else [.entered owner [] world] := by
  rw [guarded, isEvaluated]
  rcases post.declared with - | declared
  · rfl
  · dsimp only
    rw [Block.traceAll_cons, Block.traceAll_nil, List.append_nil, Stmt.trace_onlyIf]
    cases declared <;> simp [Watch.isEnabled]

theorem dispatch_ne_evaluate (effective : Block.isIdle post.dispatch = false) :
    post.evaluate ≠ post.dispatch := by
  intro same
  have inside : Stmt.onlyIf (post.sensor.edge.fires post.remain (.var Watch.levelName)
      (Slot.watch post.watch .previous).read.isSet) post.dispatch ∈ post.evaluate := by
    simp [evaluate, Watch.evaluate, effective]
  have smaller := List.sizeOf_lt_of_mem inside
  rw [same, Stmt.onlyIf, Stmt.branch.sizeOf_spec] at smaller
  omega

/-- At its turn a post dispatches once if it is evaluated and its level crosses the edge, and
otherwise not at all. -/
theorem entries_guarded (effective : Block.isIdle post.dispatch = false) :
    Trace.entries owner post.dispatch (Block.traceAll owner locals world post.guarded) =
      if post.isEvaluated owner world ∧
        post.sensor.edge.isCrossed post.remain (post.level owner locals world)
          (post.watch.wasSet owner world) then 1 else 0 := by
  have nonempty : post.dispatch ≠ [] := by
    intro none
    rw [none] at effective
    simp [Block.isIdle, Block.isEffective] at effective
  have evaluated := post.watch.entries_evaluate post.sensor post.epsilon owner locals world
    post.remain post.dispatch effective
  have different : ¬(owner = owner ∧ post.evaluate = post.dispatch) :=
    fun same => post.dispatch_ne_evaluate effective same.2
  have empty : ¬(owner = owner ∧ [] = post.dispatch) := fun same => nonempty same.2.symm
  rw [trace_guarded]
  cases declared : post.declared with
  | none =>
    have always : post.isEvaluated owner world = true := by rw [isEvaluated, declared]
    simp only [always, true_and]
    exact evaluated
  | some enabled =>
    dsimp only
    cases post.isEvaluated owner world with
    | true =>
      rw [if_pos rfl, Trace.entries_cons_other different]
      simp only [true_and]
      exact evaluated
    | false => simp [Trace.entries_cons_other empty]

/-- At its turn a post stores its level once if it is evaluated, and otherwise not at all. -/
theorem ledger_guarded (spared : (owner, post.stored.key) ∉ Block.writes owner post.dispatch) :
    Trace.ledger owner post.stored.key (Block.traceAll owner locals world post.guarded) =
      if post.isEvaluated owner world then
        [if post.level owner locals world then 1 else 0] else [] := by
  have evaluated := post.watch.ledger_evaluate post.sensor post.epsilon owner locals world
    post.remain post.dispatch spared
  rw [trace_guarded]
  cases declared : post.declared with
  | none =>
    have always : post.isEvaluated owner world = true := by rw [isEvaluated, declared]
    rw [always, if_pos rfl]
    exact evaluated
  | some enabled =>
    dsimp only
    split
    · rw [Trace.ledger_cons_entered]
      exact evaluated
    · rfl

end Post

/-! ### Runs -/

/-- The level in the last frame before this one that was evaluated; not set if there is none. -/
def lastLevel (evaluated level : Nat → Bool) : Nat → Bool
  | 0 => false
  | frame + 1 => if evaluated frame then level frame else lastLevel evaluated level frame

/-- What an object runs for a post, under a title. -/
def Post.block (post : Post α) (title : String) : Block α :=
  .comment title :: post.guarded

/-- The post stands in the program of the scene on an object, and in every frame of every run it
dispatches exactly where it is evaluated and its level crosses the edge from the last evaluation to
this one. The slot of the level is written once in a frame with an evaluation, with the level, and
not at all in another one. -/
def Post.IsEdgeTriggered (post : Post α) (program : Program α) (scene : Scene α)
    (owner : String) : Prop :=
  ∃ (title : String) (spot : Program.Spot program owner (post.block title)),
    ∀ (visits : Nat → List (Visit α)) (frame : Nat),
      let run := Run.ofScene program scene visits
      let evaluated := fun frame => post.isEvaluated owner (spot.turn (run.world frame))
      let level := fun frame =>
        post.level owner (spot.locals (run.world frame)) (spot.turn (run.world frame))
      let previous := lastLevel evaluated level
      run.trace frame = spot.lead (run.world frame) ++
          (spot.trace (run.world frame) ++ spot.rest (run.world frame)) ∧
        (post.dispatch ≠ [] →
          Trace.entries owner post.dispatch (spot.trace (run.world frame)) =
            if evaluated frame ∧
              post.sensor.edge.isCrossed post.remain (level frame) (previous frame)
            then 1 else 0) ∧
        Trace.ledger owner post.stored.key (run.trace frame) =
          (if evaluated frame then [if level frame then 1 else 0] else []) ∧
        (run.stage (frame + 1)).world.read owner post.stored.key =
          if previous (frame + 1) then 1 else 0

namespace Post

variable {program : Program α} {owner title : String} (post : Post α)
  (spot : Program.Spot program owner (post.block title))

section

variable (run : Run α) (frame : Nat)

/-- Whether the post is evaluated in a frame. -/
def evaluatedAt : Bool :=
  post.isEvaluated owner (spot.turn (run.world frame))

/-- The level of the post in a frame. -/
def levelAt : Bool :=
  post.level owner (spot.locals (run.world frame)) (spot.turn (run.world frame))

/-- The level of the last evaluation before a frame. -/
def previousAt : Bool :=
  lastLevel (post.evaluatedAt spot run) (post.levelAt spot run) frame

end

/-- The title of a post does nothing. -/
theorem trace_turn (world : World α) :
    spot.trace world =
      Block.traceAll owner (spot.locals world) (spot.turn world) post.guarded := by
  show Block.traceAll owner _ _ (.comment title :: post.guarded) = _
  rw [Block.traceAll_cons, Stmt.trace.eq_def, Stmt.run]
  rfl

/-- A post at the front dispatches by what the frame finds. -/
theorem entries_front (front : spot.earlier = [] ∧ spot.before = [])
    (effective : Block.isIdle post.dispatch = false) (world : World α) :
    Trace.entries owner post.dispatch (spot.trace world) =
      if post.isDue owner world then 1 else 0 := by
  have same : post.level owner (spot.locals world) world = post.level owner [] world :=
    Watch.levelAt_locals world owner _ post.watch post.epsilon post.sensor []
  rw [trace_turn, spot.turn_of_front front, post.entries_guarded owner _ _ effective, isDue, same]
  simp only [Bool.and_eq_true]

/-- So the frames in which it dispatches can be told beforehand. -/
theorem map_entries_front (front : spot.earlier = [] ∧ spot.before = [])
    (effective : Block.isIdle post.dispatch = false) {run : Run α} {frames : List Nat}
    {dues : List Bool}
    (found : frames.map (fun frame => post.isDue owner (run.world frame)) = dues) :
    frames.map (fun frame => Trace.entries owner post.dispatch (spot.trace (run.world frame))) =
      dues.map fun due => if due then 1 else 0 := by
  rw [← found, List.map_map]
  exact List.map_congr_left fun frame _ => entries_front post spot front effective (run.world frame)

section

variable {post} {scene : Scene α} (hosted : (Stage.ofScene scene).world.hosts owner)
  {visits : Nat → List (Visit α)} {run : Run α} (isOf : run = Run.ofScene program scene visits)
  (frame : Nat)

include hosted isOf in
theorem hosts_owner_world : (run.world frame).hosts owner := by
  rw [Run.hosts_world, isOf]
  exact hosted

variable (unwritten : (owner, post.stored.key) ∉ Block.writes owner post.dispatch)
  (spares : spot.Spares post.stored)

include hosted isOf unwritten spares

/-- The slot of the level has an entry in the frames with an evaluation. -/
theorem ledger_stored :
    Trace.ledger owner post.stored.key (run.trace frame) =
      if post.evaluatedAt spot run frame then
        [if post.levelAt spot run frame then 1 else 0] else [] := by
  have same : run.trace frame = program.frame.trace (run.world frame) := by
    rw [isOf]
    rfl
  rw [same, spot.ledger_frame spares (hosts_owner_world hosted isOf frame), post.trace_turn]
  exact post.ledger_guarded owner _ _ unwritten

/-- Before every frame the slot holds the level of the last evaluation. -/
theorem read_stored :
    (run.stage frame).world.read owner post.stored.key =
      if post.previousAt spot run frame then 1 else 0 := by
  have inward : ¬post.stored.IsOutward := id
  induction frame with
  | zero =>
    rw [isOf]
    exact Stage.read_ofScene inward scene owner
  | succ frame inductionHypothesis =>
    rw [run.read_stage_succ inward,
      Agenda.read_run_eq _ (hosts_owner_world hosted isOf frame), run.read_world inward,
      inductionHypothesis, ← Run.trace, ledger_stored spot hosted isOf frame unwritten spares,
      previousAt, previousAt, lastLevel]
    split <;> rfl

/-- So it is at the turn of the post. -/
theorem read_stored_turn :
    (spot.turn (run.world frame)).read owner post.stored.key =
      if post.previousAt spot run frame then 1 else 0 := by
  have inward : ¬post.stored.IsOutward := id
  rw [spot.read_turn spares, run.read_world inward]
  exact read_stored spot hosted isOf frame unwritten spares

variable [Counting α]

/-- An effective dispatch runs in the frames with an evaluation in which the level crosses the
edge. -/
theorem entries_turn (effective : Block.isIdle post.dispatch = false) :
    Trace.entries owner post.dispatch (spot.trace (run.world frame)) =
      if post.evaluatedAt spot run frame ∧
        post.sensor.edge.isCrossed post.remain (post.levelAt spot run frame)
          (post.previousAt spot run frame) then 1 else 0 := by
  have wasSet : post.watch.wasSet owner (spot.turn (run.world frame)) =
      post.previousAt spot run frame := by
    have found := read_stored_turn spot hosted isOf frame unwritten spares
    rw [Watch.wasSet]
    show (!((spot.turn (run.world frame)).read owner post.stored.key == 0)) = _
    rw [found, Counting.flag_beq_zero, Bool.decide_eq_true, Bool.not_not]
  rw [post.trace_turn, post.entries_guarded owner _ _ effective, wasSet]
  rfl

omit isOf in
/-- A post is edge triggered where nothing else in a frame writes the slot of its level. -/
theorem isEdgeTriggered_of_spares
    (effective : post.dispatch ≠ [] → Block.isIdle post.dispatch = false) :
    post.IsEdgeTriggered program scene owner :=
  ⟨title, spot, fun _ frame =>
    ⟨spot.trace_frame (hosts_owner_world hosted rfl frame),
      fun nonempty => entries_turn spot hosted rfl frame unwritten spares (effective nonempty),
      ledger_stored spot hosted rfl frame unwritten spares,
      read_stored spot hosted rfl (frame + 1) unwritten spares⟩⟩

end

end Post

/-! ### Scenes -/

namespace Program.Layout

variable [Counting α] {rate : α} {scene : Scene α} {program : Program α}
  (layout : Layout rate scene program) {object : SceneObject α} (inScene : object ∈ scene.walk)

include layout inScene

omit [Counting α] in
/-- The post of a trigger has a spot in the program, and what the trigger stores, its state apart,
is written nowhere else. -/
theorem exists_spot_trigger {trigger : Trigger α} (member : trigger ∈ object.triggers) :
    ∃ sensor first actions title,
      trigger.sensor layout.directory (.trigger trigger.name) = .ok sensor ∧
      Action.resolveAll layout.directory rate (.trigger trigger.name) object.id first
        trigger.actions = .ok actions ∧
      (∀ action ∈ actions, action ∈ instances rate scene) ∧
      ∃ spot : Spot program object.id ((Post.ofTrigger trigger sensor actions).block title),
        ∀ field, field ≠ .state → spot.Spares (.watch (.trigger trigger.name) field) := by
  obtain ⟨owned, isOwned⟩ := layout.exists_owned inScene
  obtain ⟨before, after, triggers⟩ := List.append_of_mem member
  have logic : object.hasLogic := by
    simp [SceneObject.hasLogic, triggers]
  have sources : object.sources = before.map .trigger ++ .trigger trigger ::
      (after.map .trigger ++ .link object.linkActions :: object.timelines.map .timeline) := by
    simp [SceneObject.sources, triggers]
  obtain ⟨number, piece, made, owns, spot, spares⟩ := layout.exists_spot isOwned logic sources
  have once : (Directory.triggerNames object).Nodup :=
    (List.nodup_flatMap.mp (Directory.unique_of_ofScene layout.sound).triggers).1 object inScene
  rw [Directory.triggerNames, triggers, List.map_append, List.map_cons] at once
  obtain ⟨notBefore, notAfter⟩ := Lists.eq_of_nodup_append once
  have other {triggers : List (Trigger α)} (apart : trigger.name ∉ triggers.map (·.name)) :
      ∀ source ∈ triggers.map Owned.Source.trigger,
        ∀ field, ¬source.Keeps (.watch (.trigger trigger.name) field) := by
    intro source isTrigger field keeps
    obtain ⟨declared, inTriggers, rfl⟩ := List.mem_map.mp isTrigger
    obtain ⟨field, -, same⟩ := keeps
    have names := (Watch.trigger.inj (Slot.watch.inj same).1)
    exact apart (names ▸ List.mem_map_of_mem inTriggers)
  cases made with
  | trigger _ sensor actions title found resolved =>
    refine ⟨sensor, number, actions, title, found, resolved, owns, spot, fun field notState =>
      spares _ (Slot.isPrivate_watch notState fun source inOthers => ?_)⟩
    simp only [List.mem_append, List.mem_cons] at inOthers
    rcases inOthers with isTrigger | isTrigger | rfl | isTimeline
    · exact other notBefore source isTrigger field
    · exact other notAfter source isTrigger field
    · rintro ⟨field, -, same⟩
      cases same
    · obtain ⟨timeline, -, rfl⟩ := List.mem_map.mp isTimeline
      rintro ⟨field, same⟩
      cases same

theorem isEdgeTriggered_trigger {trigger : Trigger α} (member : trigger ∈ object.triggers) :
    ∃ sensor first actions,
      trigger.sensor layout.directory (.trigger trigger.name) = .ok sensor ∧
      Action.resolveAll layout.directory rate (.trigger trigger.name) object.id first
        trigger.actions = .ok actions ∧
      (Post.ofTrigger trigger sensor actions).IsEdgeTriggered program scene object.id := by
  obtain ⟨sensor, first, actions, title, found, resolved, owns, spot, spares⟩ :=
    layout.exists_spot_trigger inScene member
  obtain ⟨effective, unwritten⟩ :=
    layout.dispatchAll_facts owns object.id (.trigger trigger.name)
  exact ⟨sensor, first, actions, found, resolved, Post.isEdgeTriggered_of_spares spot
    (hosts_owner inScene) unwritten (spares .previous (by simp)) effective⟩

theorem isEdgeTriggered_link (linked : object.linkActions ≠ []) :
    ∃ first actions,
      Action.resolveAll layout.directory rate (.link object.id) object.id first
        object.linkActions = .ok actions ∧
      (Post.ofLink actions).IsEdgeTriggered program scene object.id := by
  obtain ⟨owned, isOwned⟩ := layout.exists_owned inScene
  have logic : object.hasLogic := by
    simp [SceneObject.hasLogic, linked]
  have sources : object.sources = object.triggers.map .trigger ++
      .link object.linkActions :: object.timelines.map .timeline := by
    simp [SceneObject.sources]
  obtain ⟨number, piece, made, owns, spot, spares⟩ := layout.exists_spot isOwned logic sources
  cases made with
  | noLink _ none => exact absurd none linked
  | link _ actions _ resolved =>
    obtain ⟨effective, unwritten⟩ := layout.dispatchAll_facts owns object.id .link
    refine ⟨number, actions, resolved, ?_⟩
    refine Post.isEdgeTriggered_of_spares spot (hosts_owner inScene) unwritten
      (spares _ (Slot.isPrivate_watch (by simp) fun source inOthers => ?_)) effective
    rcases List.mem_append.mp inOthers with isTrigger | isTimeline
    · obtain ⟨trigger, -, rfl⟩ := List.mem_map.mp isTrigger
      rintro ⟨field, -, same⟩
      cases same
    · obtain ⟨timeline, -, rfl⟩ := List.mem_map.mp isTimeline
      rintro ⟨field, same⟩
      cases same

end Program.Layout

variable [Counting α]

/-- In a compiled scene every trigger and every object's link actions dispatch on the edges of their
levels, in every run, whatever visitors do between the frames; and no action that is dispatched
anywhere changes the level that a watch has stored. -/
theorem edge_triggered_dispatch {rate : α} {scene : Scene α} {program : Program α}
    (compiled : Program.compile rate scene = .ok program) :
    ∃ directory, Directory.ofScene scene = .ok directory ∧
      (∀ object ∈ scene.walk, ∀ trigger ∈ object.triggers, ∃ sensor first actions,
        trigger.sensor directory (.trigger trigger.name) = .ok sensor ∧
        Action.resolveAll directory rate (.trigger trigger.name) object.id first trigger.actions =
          .ok actions ∧
        (Post.ofTrigger trigger sensor actions).IsEdgeTriggered program scene object.id) ∧
      (∀ object ∈ scene.walk, object.linkActions ≠ [] → ∃ first actions,
        Action.resolveAll directory rate (.link object.id) object.id first object.linkActions =
          .ok actions ∧
        (Post.ofLink actions).IsEdgeTriggered program scene object.id) ∧
      ∀ action ∈ Program.instances rate scene, ∀ this locals (world : World α) owner watch,
        (Block.runAll this locals world action.dispatch).read owner
          (Slot.watch watch .previous).key = world.read owner (Slot.watch watch .previous).key := by
  obtain ⟨layout⟩ := Program.exists_layout compiled
  refine ⟨layout.directory, layout.sound, fun object inScene trigger member => ?_,
    fun object inScene linked => ?_, fun action _ this locals world owner watch => ?_⟩
  · exact layout.isEdgeTriggered_trigger inScene member
  · exact layout.isEdgeTriggered_link inScene linked
  · exact (action.writesOnly_dispatch this).read_runAll
      (fun inside => Instance.not_reaches_watch (by simp) inside.2) locals world

/-- The viewpoint is near the lamp, leaves it and comes back: the trigger of the lamp dispatches in
the first frame and in the third one. -/
theorem edge_triggered_dispatch_lamp :
    ∃ program, Program.compile 1 Scene.lamp = .ok program ∧
      ∃ lamp ∈ Scene.lamp.walk, Trigger.near ∈ lamp.triggers ∧ ∃ sensor actions,
        let post := Post.ofTrigger .near sensor actions
        post.IsEdgeTriggered program Scene.lamp lamp.id ∧ post.dispatch ≠ [] ∧
          ∃ (title : String) (spot : Program.Spot program lamp.id (post.block title)),
            let run := Run.ofScene program Scene.lamp (Visit.along .x [0, 10, 0])
            [0, 1, 2].map (fun frame => Trace.entries lamp.id post.dispatch
              (spot.trace (run.world frame))) = [1, 0, 1] := by
  obtain ⟨program, compiled⟩ := Scene.exists_compile_lamp
  obtain ⟨directory, sound, triggers, -⟩ := edge_triggered_dispatch compiled
  obtain ⟨sensor, first, actions, sensed, resolved, triggered⟩ :=
    triggers _ (List.mem_singleton.mpr rfl) .near (List.mem_singleton.mpr rfl)
  obtain rfl := Sensor.eq_of_nearObject sensed rfl
  have nonempty : Owned.dispatchAll actions ≠ [] :=
    Owned.dispatchAll_ne_nil sound resolved (List.mem_singleton.mpr rfl) rfl
  obtain ⟨title, spot, edges⟩ := triggered
  have lengths : program.objects.map (fun placed => (placed.id, placed.phases.enter.length)) =
      [("lamp", 2)] := by
    apply Outcome.eq_of_seen compiled
    decide +kernel
  have isDue : (let run := Run.ofScene program Scene.lamp (Visit.along .x [0, 10, 0])
      let near := Post.ofTrigger Trigger.near (.proximity "head" (.object "lamp") 2) []
      [0, 1, 2].map fun frame => near.isDue "lamp" (run.world frame)) = [true, false, true] := by
    apply Outcome.eq_of_seen compiled
    decide +kernel
  have front := spot.isFront_of_length lengths (by decide) le_rfl
  have effective := Owned.isIdle_of_resolveAll resolved nonempty
  exact ⟨program, compiled, _, List.mem_singleton.mpr rfl, List.mem_singleton.mpr rfl, _, actions,
    ⟨title, spot, edges⟩, nonempty, title, spot, Post.map_entries_front _ spot front effective isDue⟩

end Stagecraft
