/-
This file follows a stopped timeline through the frames of a run. The frame in which it was stopped
goes on without it, every later turn finds it stopped and passes, and between two frames nobody
touches it. So it stands still over any number of frames, until logic starts it or tells it to go on.
-/

import Stagecraft.Proofs.Timeline.Clock

namespace Stagecraft

variable {α : Type} [Trigonometric α]

namespace Sequence

variable {sequence : Sequence α} {owner : String} {world next stopped : World α}
  {events : List (Event α)}

/-! ### Stretches of rest -/

/-- The timeline does not run, and has not moved since it was stopped. -/
structure RestsAt (sequence : Sequence α) (owner : String) (stopped world : World α) : Prop where
  running : sequence.value owner world .running = 0
  progress : sequence.progress owner world = sequence.progress owner stopped

/-- Until something resumes it, nothing of the timeline moves; and if nothing does, it is left at
rest. -/
structure Freezes (sequence : Sequence α) (owner : String) (stopped : World α)
    (events : List (Event α)) (next : World α) : Prop where
  still : ∀ event ∈ sequence.untilResumed owner events, sequence.IsStill owner stopped event
  rests : (∀ event ∈ events, ¬sequence.Resumes owner event) → sequence.RestsAt owner stopped next

theorem Freezes.append {mid : World α} {more : List (Event α)}
    (first : sequence.Freezes owner stopped events mid)
    (second : sequence.RestsAt owner stopped mid → sequence.Freezes owner stopped more next) :
    sequence.Freezes owner stopped (events ++ more) next := by
  classical
  by_cases calm : ∀ event ∈ events, ¬sequence.Resumes owner event
  · have later := second (first.rests calm)
    have all : ∀ event ∈ events, decide (¬sequence.Resumes owner event) = true := by simpa using calm
    refine ⟨fun event happens => ?_, fun none => later.rests fun event inside =>
      none event (List.mem_append_right _ inside)⟩
    rw [untilResumed, List.takeWhile_append_of_pos all] at happens
    rcases List.mem_append.mp happens with here | there
    · refine first.still event ?_
      rwa [untilResumed, List.takeWhile_eq_self_iff.mpr all]
    · exact later.still event there
  · have resumed : ¬∀ event ∈ events, decide (¬sequence.Resumes owner event) = true := by
      simpa using calm
    refine ⟨fun event happens => first.still event ?_, fun none => absurd (fun event inside =>
      none event (List.mem_append_left _ inside)) calm⟩
    rw [untilResumed, List.takeWhile_append, if_neg] at happens
    · exact happens
    · exact fun whole => resumed (List.takeWhile_eq_self_iff.mp
        ((List.takeWhile_prefix _).eq_of_length whole))

theorem stopAfter_ne_none {stop : Option (World α)} (stopped : stop ≠ none) {event : Event α}
    (calm : ¬sequence.Resumes owner event) : sequence.stopAfter owner stop event ≠ none := by
  cases event with
  | entered object block found =>
    rw [stopAfter, if_neg calm]
    split
    · simp
    · exact stopped
  | wrote object key value => exact stopped

/-- A stop remains until something resumes the timeline. -/
theorem foldl_ne_none {stop : Option (World α)} (stopped : stop ≠ none)
    (calm : ∀ event ∈ events, ¬sequence.Resumes owner event) :
    events.foldl (sequence.stopAfter owner) stop ≠ none := by
  induction events generalizing stop with
  | nil => exact stopped
  | cons event rest inductionHypothesis =>
    obtain ⟨here, later⟩ := List.forall_mem_cons.mp calm
    exact inductionHypothesis (stopAfter_ne_none stopped here) later

/-- Until something resumes the timeline, what heeds its stop is still; and if nothing does, a stop
with the same progress remains. -/
theorem still_of_heeds {stop : World α} (heeds : sequence.Heeds owner (some stop) events)
    (same : sequence.progress owner stop = sequence.progress owner stopped) :
    (∀ event ∈ sequence.untilResumed owner events, sequence.IsStill owner stopped event) ∧
      ((∀ event ∈ events, ¬sequence.Resumes owner event) →
        ∃ found ∈ events.foldl (sequence.stopAfter owner) (some stop),
          sequence.progress owner found = sequence.progress owner stopped) := by
  classical
  induction events generalizing stop with
  | nil => exact ⟨by simp [untilResumed], fun _ => ⟨stop, rfl, same⟩⟩
  | cons event rest inductionHypothesis =>
    obtain ⟨here, later⟩ := heeds
    have still := (isStill_congr same).mp (here stop rfl)
    by_cases resumes : sequence.Resumes owner event
    · refine ⟨?_, fun none => absurd resumes (none event List.mem_cons_self)⟩
      simp [untilResumed, resumes]
    · obtain ⟨found, isStop, alike⟩ : ∃ found, sequence.stopAfter owner (some stop) event =
          some found ∧ sequence.progress owner found = sequence.progress owner stopped := by
        cases event with
        | entered object block found =>
          rw [stopAfter, if_neg resumes]
          split
          · exact ⟨found, rfl, still.2⟩
          · exact ⟨stop, rfl, same⟩
        | wrote object key value => exact ⟨stop, rfl, same⟩
      rw [isStop] at later
      obtain ⟨stillLater, ends⟩ := inductionHypothesis later alike
      rw [List.foldl_cons, isStop]
      refine ⟨?_, fun none => ends fun event inside => none event (List.mem_cons_of_mem _ inside)⟩
      simpa [untilResumed, resumes] using ⟨still, by simpa [untilResumed] using stillLater⟩

/-- Logic that follows the stops of a timeline leaves one that rests at rest. -/
theorem Follows.freezes (follows : sequence.Follows owner world events next)
    (hosted : world.hosts owner) (rests : sequence.RestsAt owner stopped world) :
    sequence.Freezes owner stopped events next := by
  obtain ⟨heeds, ends⟩ := follows.holds (some stopped) fun found isStop => by
    rw [rests.progress, Option.mem_some_iff.mp isStop]
  obtain ⟨still, remains⟩ := still_of_heeds heeds rfl
  refine ⟨still, fun none => ?_⟩
  obtain ⟨found, isStop, same⟩ := remains none
  refine ⟨(follows.halts hosted).2 (some stopped) (fun _ => rests.running) ?_,
    (ends found isStop).trans same⟩
  exact Option.ne_none_iff_exists'.mpr ⟨found, isStop⟩

/-- From a stop inside of such logic on the timeline rests. -/
theorem Follows.freezes_of_stop (follows : sequence.Follows owner world events next)
    (hosted : world.hosts owner) {before after : List (Event α)} {found : World α}
    (split : events =
      before ++ .entered owner (Effect.changeTimeline sequence.name .stop) found :: after) :
    sequence.Freezes owner found after next := by
  obtain ⟨heeds, ends⟩ := follows.holds none (by simp)
  have fold : events.foldl (sequence.stopAfter owner) none =
      after.foldl (sequence.stopAfter owner) (some found) := by
    rw [split, List.foldl_append, List.foldl_cons, stopAfter_stop]
  rw [split, heeds_append, Heeds, stopAfter_stop] at heeds
  obtain ⟨still, remains⟩ := still_of_heeds heeds.2.2 rfl
  refine ⟨still, fun none => ?_⟩
  obtain ⟨other, isStop, same⟩ := remains none
  rw [← fold] at isStop
  refine ⟨(follows.halts hosted).2 Option.none (fun some => absurd rfl some) ?_,
    (ends other isStop).trans same⟩
  exact Option.ne_none_iff_exists'.mpr ⟨other, isStop⟩

/-- A turn of a timeline at rest passes. -/
theorem freezes_run [Counting α] (rests : sequence.RestsAt owner stopped world)
    (locals : Locals α) :
    sequence.Freezes owner stopped (Block.traceAll owner locals world sequence.run)
      (Block.runAll owner locals world sequence.run) := by
  have zero : (sequence.value owner world .running == 0) = true := by
    rw [rests.running, Counting.zero_beq_zero]
  obtain ⟨trace, run⟩ := pass_of_stopped zero locals
  rw [trace, run]
  refine ⟨fun event happens => ?_, fun _ => rests⟩
  rw [List.mem_singleton.mp ((List.takeWhile_sublist _).mem happens)]
  exact ⟨fun _ => not_isDispatch_nil, rests.progress⟩

/-- A turn in which an entry stops the timeline leaves it stopped, if no entry resumes it. -/
theorem running_run_of_stop {actions : List (Instance α)}
    (changed : sequence.IsChangedOn owner actions)
    (inside : ∀ cue ∈ sequence.cues, cue.action ∈ actions) (hosted : world.hosts owner)
    {locals : Locals α} {before after : List (Event α)} {found : World α}
    (split : Block.traceAll owner locals world sequence.run =
      before ++ .entered owner (Effect.changeTimeline sequence.name .stop) found :: after)
    (calm : ∀ event ∈ after, ¬sequence.Resumes owner event) :
    sequence.value owner (Block.runAll owner locals world sequence.run) .running = 0 := by
  refine ((halts_run changed inside locals world) hosted).2 none (fun some => absurd rfl some) ?_
  rw [split, List.foldl_append, List.foldl_cons, stopAfter_stop]
  exact foldl_ne_none (by simp) calm

/-- Between two frames a timeline at rest stays at rest. -/
theorem RestsAt.next_frame {run : Run α} {frame : Nat}
    (rests : sequence.RestsAt owner stopped (run.program.frame.run (run.world frame))) :
    sequence.RestsAt owner stopped (run.world (frame + 1)) := by
  have kept (field : TimelineField) : sequence.value owner (run.world (frame + 1)) field =
      sequence.value owner (run.program.frame.run (run.world frame)) field := by
    have inward : ¬(sequence.slot field).IsOutward := id
    rw [value, run.read_world inward, run.read_stage_succ inward]
    rfl
  exact ⟨(kept .running).trans rests.running,
    (Prod.ext (kept .elapsed) (kept .cursor)).trans rests.progress⟩

/-! ### Stops in a frame -/

/-- The timeline is stopped in a frame: what happens from the moment on at which the stop holds, and
the world of that moment. A stop from elsewhere holds at once, before or after the turn; a stop by an
entry holds at the end of the turn, if no entry resumes the timeline in it. -/
inductive StoppedIn {program : Program α} (spot : Program.Spot program owner sequence.run)
    (world : World α) : List (Event α) → World α → Prop
  | ahead {before after : List (Event α)} {found : World α} :
    spot.lead world =
      before ++ .entered owner (Effect.changeTimeline sequence.name .stop) found :: after →
    StoppedIn spot world (after ++ (spot.trace world ++ spot.rest world)) found
  | behind {before after : List (Event α)} {found : World α} :
    spot.rest world =
      before ++ .entered owner (Effect.changeTimeline sequence.name .stop) found :: after →
    StoppedIn spot world after found
  | within {before after : List (Event α)} {found : World α} :
    spot.trace world =
      before ++ .entered owner (Effect.changeTimeline sequence.name .stop) found :: after →
    (∀ event ∈ after, ¬sequence.Resumes owner event) →
    StoppedIn spot world (spot.rest world) (spot.closing world)

end Sequence

namespace Program.Layout

variable {rate : α} {scene : Scene α} {program : Program α} (layout : Layout rate scene program)
  {object : SceneObject α} (inScene : object ∈ scene.walk) {sequence : Sequence α}

section

variable (named : sequence.name ∈ Directory.timelineNames object)

include layout inScene named

theorem isChangedOn : sequence.IsChangedOn object.id (instances rate scene) := by
  have switched : ∀ action ∈ instances rate scene, ∀ change,
      action.effect = .timeline sequence.name change → action.SwitchesOn object.id :=
    fun action isInstance change effect =>
      layout.switchesOn inScene isInstance (effect ▸ named)
  refine ⟨fun action isInstance change effect => ?_,
    fun action isInstance change effect => (switched action isInstance change effect).instant,
    fun action isInstance change effect => (switched action isInstance change effect).targets⟩
  rw [(switched action isInstance change effect).opening, effect]
  rfl

/-- The enter phases of other objects follow the stops of a timeline. -/
theorem follows_enter {part : List (ObjectProgram α)}
    (others : ∀ placed ∈ part, placed ∈ program.objects ∧ placed.id ≠ object.id) (world : World α) :
    sequence.Follows object.id world (Agenda.trace (part.map (·.duty .enter)) world)
      (Agenda.run (part.map (·.duty .enter)) world) := by
  refine Sequence.composes_follows.agenda (fun duty inDuties world _ => ?_) world
  obtain ⟨placed, inPart, rfl⟩ := List.mem_map.mp inDuties
  obtain ⟨isPlaced, apart⟩ := others placed inPart
  exact Sequence.follows_opens (layout.isChangedOn inScene named) (fun same => absurd same apart)
    (layout.opens_enter isPlaced) [] world

/-- Later phases do not change any timeline. -/
theorem follows_phase {phase : Phase} (notEnter : phase ≠ .enter) (world : World α) :
    sequence.Follows object.id world ((program.agenda phase).trace world)
      ((program.agenda phase).run world) := by
  refine Sequence.composes_follows.agenda (fun duty inDuties world _ => ?_) world
  obtain ⟨placed, isPlaced, rfl⟩ := mem_agenda.mp inDuties
  have bounded : Block.WritesOnly (sequence.Spared object.id) placed.id
      (placed.phases.get phase) := by
    refine layout.writesOnly_phase isPlaced notEnter fun action isInstance timed slot reached => ?_
    rintro - field rfl
    rcases Sequence.changes_or_spares sequence action with ⟨change, effect⟩ | spares
    · exact (layout.isChangedOn inScene named).instant action isInstance change effect timed
    · exact spares field reached
  exact Sequence.follows_of_spared (fun field => bounded.notMem (Sequence.not_spared field)) [] world

end

end Program.Layout

namespace Program.Layout.Seat

variable {rate : α} {scene : Scene α} {program : Program α}
  {layout : Layout rate scene program} {object : SceneObject α} {first last : List (Owned.Source α)}
  {declared : Timeline α} {sequence : Sequence α}
  (seat : layout.Seat object first (.timeline declared) last
    ⟨sequence.setup, sequence.run, sequence.cues.map (·.action)⟩)
  (apart : ∀ other ∈ first ++ last, ∀ field, ¬other.Keeps (sequence.slot field))
  (named : sequence.name ∈ Directory.timelineNames object)

include seat named

theorem changed : sequence.IsChangedOn object.id (instances rate scene) :=
  layout.isChangedOn (layout.id_mem_walk seat.isOwned) named

include apart

/-- The other pieces of the owner follow the stops of the timeline. -/
theorem follows_pieces {sources : List (Owned.Source α)} {pieces : List (Owned α)}
    (made : List.Forall₂ (fun source piece =>
      ∃ number, Owned.Made layout.directory rate object.id number source piece) sources pieces)
    (among : sources ⊆ first ++ last)
    (inside : ∀ action ∈ pieces.flatMap (·.instances), action ∈ instances rate scene)
    (locals : Locals α) (world : World α) :
    sequence.Follows object.id world
      (Block.traceAll object.id locals world (pieces.flatMap (·.enter)))
      (Block.runAll object.id locals world (pieces.flatMap (·.enter))) := by
  have opens : Block.Opens (instances rate scene) (fun slot => ∀ field, slot ≠ sequence.slot field)
      object.id (pieces.flatMap (·.enter)) :=
    Owned.opens_pieces made (fun source inSources slot keeps field same =>
      apart source (among inSources) field (same ▸ keeps)) inside
  exact Sequence.follows_opens (seat.changed named) (fun _ field kept => kept field rfl) opens
    locals world

/-- So does what happens in a frame before the turn of the timeline. -/
theorem follows_lead (world : World α) :
    sequence.Follows object.id world (seat.spot.lead world) (seat.spot.turn world) := by
  obtain ⟨ahead, behind, before, sparedAhead, sparedBehind⟩ := seat.exists_setup apart
  refine Sequence.composes_follows.append (layout.follows_enter (layout.id_mem_walk seat.isOwned)
    named (fun placed inside => ⟨seat.mem_program (.inl inside), seat.apart placed (.inl inside)⟩)
    world) ?_
  rw [Spot.turn, before]
  refine Sequence.composes_follows.blocks (Sequence.follows_once sparedAhead sparedBehind)
    (seat.follows_pieces apart named seat.madeEarly (List.subset_append_left _ _)
      fun action inEarly => seat.mem_instances ?_) [] _
  rw [List.flatMap_append]
  exact List.mem_append_left _ inEarly

/-- And so does what happens after it. -/
theorem follows_rest {world : World α} (hosted : world.hosts object.id) :
    sequence.Follows object.id (seat.spot.closing world) (seat.spot.rest world)
      (program.frame.run world) := by
  have inScene := layout.id_mem_walk seat.isOwned
  have pieces := seat.follows_pieces apart named seat.madeLate (List.subset_append_right _ _)
    fun action inLate => seat.mem_instances (by
      rw [List.flatMap_append, List.flatMap_cons]
      exact List.mem_append_right _ (List.mem_append_right _ inLate))
  have others := layout.follows_enter inScene named fun placed (inside : placed ∈ seat.spot.later) =>
    ⟨seat.mem_program (.inr inside), seat.apart placed (.inr inside)⟩
  have phase (phase : Phase) (notEnter : phase ≠ .enter) :=
    layout.follows_phase inScene named notEnter
  rw [seat.spot.run_frame hosted, Spot.rest, Spot.closing]
  dsimp only
  rw [← Block.runAll_eq_thread, seat.after]
  exact Sequence.composes_follows.append (pieces _ _) (Sequence.composes_follows.append (others _)
    (Sequence.composes_follows.append (phase .advance (by simp) _) (phase .exit (by simp) _)))

/-! ### Runs -/

variable [Counting α] {stopped : World α}

/-- A timeline at rest lets its turn and what follows in the frame pass. -/
theorem freezes_turn {world : World α} (hosted : world.hosts object.id)
    (rests : sequence.RestsAt object.id stopped (seat.spot.turn world)) :
    sequence.Freezes object.id stopped (seat.spot.trace world ++ seat.spot.rest world)
      (program.frame.run world) := by
  refine (Sequence.freezes_run rests (seat.spot.locals world)).append fun stillRests => ?_
  refine (seat.follows_rest apart named hosted).freezes ?_ stillRests
  rwa [Spot.closing, Block.hosts_runAll, Spot.hosts_turn]

/-- So a timeline at rest lets the whole frame pass. -/
theorem freezes_frame {world : World α} (hosted : world.hosts object.id)
    (rests : sequence.RestsAt object.id stopped world) :
    sequence.Freezes object.id stopped (program.frame.trace world) (program.frame.run world) := by
  rw [seat.spot.trace_frame hosted]
  exact ((seat.follows_lead apart named world).freezes hosted rests).append
    (seat.freezes_turn apart named hosted)

/-- A timeline that is stopped in a frame rests for what is left of the frame. -/
theorem freezes_of_stoppedIn {world : World α} (hosted : world.hosts object.id)
    {left : List (Event α)} (stop : sequence.StoppedIn seat.spot world left stopped) :
    sequence.Freezes object.id stopped left (program.frame.run world) := by
  have rest := seat.follows_rest apart named hosted
  have hostedTurn : (seat.spot.turn world).hosts object.id := by rwa [Spot.hosts_turn]
  have hostedClosing : (seat.spot.closing world).hosts object.id := by
    rwa [Spot.closing, Block.hosts_runAll]
  cases stop with
  | ahead split =>
    exact ((seat.follows_lead apart named world).freezes_of_stop hosted split).append
      (seat.freezes_turn apart named hosted)
  | behind split => exact rest.freezes_of_stop hostedClosing split
  | within split calm =>
    refine rest.freezes hostedClosing ⟨?_, rfl⟩
    exact Sequence.running_run_of_stop (seat.changed named)
      (fun cue member => seat.mem_of_piece (List.mem_map_of_mem member)) hostedTurn split calm

/-- A timeline that is stopped in a frame rests over any number of frames. -/
theorem freezes_frames (visits : Nat → List (Visit α)) {frame : Nat} {left : List (Event α)}
    (stop : sequence.StoppedIn seat.spot ((Run.ofScene program scene visits).world frame) left
      stopped) (count : Nat) :
    sequence.Freezes object.id stopped
      (left ++ (List.range count).flatMap fun passed =>
        (Run.ofScene program scene visits).trace (frame + 1 + passed))
      ((Run.ofScene program scene visits).world (frame + 1 + count)) := by
  have hosted (frame : Nat) :
      ((Run.ofScene program scene visits).world frame).hosts object.id := by
    rw [Run.hosts_world]
    exact Program.Layout.hosts_owner (layout.id_mem_walk seat.isOwned)
  induction count with
  | zero =>
    have freezes := seat.freezes_of_stoppedIn apart named (hosted frame) stop
    refine ⟨?_, fun none => (freezes.rests ?_).next_frame⟩
    · simpa using freezes.still
    · simpa using none
  | succ count inductionHypothesis =>
    rw [List.range_succ, List.flatMap_append, List.flatMap_singleton, ← List.append_assoc]
    refine inductionHypothesis.append fun rests => ?_
    have freezes := seat.freezes_frame apart named (hosted (frame + 1 + count)) rests
    exact ⟨freezes.still, fun none => (freezes.rests none).next_frame⟩

end Program.Layout.Seat

/-! ### Timelines of a scene -/

/-- Changes of timelines are what the actions declared as such become. -/
theorem Action.Resolves.timeline_iff {directory : Directory α} {context : Context} {owner : String}
    {action : Action α} {targets : List String} {effect : Effect α}
    (resolves : action.Resolves directory context owner targets effect) {name : String}
    {change : TimelineChange} :
    action.kind = .timeline name change ↔ effect = .timeline name change := by
  constructor
  · intro isKind
    cases resolves with
    | timeline same => rw [isKind] at same; cases same; rfl
    | toggle same => rw [isKind] at same; cases same
    | group same => rw [isKind] at same; cases same
    | object _ made => rw [isKind] at made; cases Effect.made_of_ofObjectAction made
  · rintro rfl
    exact resolves.kind_of_timeline.1

variable [Scheduling α]

/-- A stopped timeline is frozen. In every run of a compiled scene, whatever visitors do between the
frames, from a stop on and over any number of frames no entry of the timeline is dispatched, and its
elapsed time and its cursor are neither written nor found changed, until it is started or told to go
on; and if it is not, it is at rest in the end. A stop from elsewhere holds at once. A stop by an
entry of the timeline holds from the end of that turn on. Which actions change the timeline can be
read off the scene, and each of them does so at once, on the owner. -/
theorem frozen_until_resumed {rate : α} {scene : Scene α} {program : Program α}
    (compiled : Program.compile rate scene = .ok program) {object : SceneObject α}
    (inScene : object ∈ scene.walk) {declared : Timeline α}
    (member : declared ∈ object.timelines) :
    ∃ directory, Directory.ofScene scene = .ok directory ∧
      ∃ (sequence : Sequence α) (spot : Program.Spot program object.id sequence.run),
        Sequence.Plays directory rate object.id declared sequence ∧
        (∀ cue ∈ sequence.cues, cue.action ∈ Program.instances rate scene) ∧
        (∀ change, List.Forall₂ (fun isDeclared action =>
          isDeclared.action.kind = .timeline declared.name change ↔
            action.effect = .timeline declared.name change)
          scene.declared (Program.instances rate scene)) ∧
        (∀ action ∈ Program.instances rate scene, ∀ change,
          action.effect = .timeline declared.name change →
            action.opening = Effect.changeTimeline declared.name change ∧
              action.targets = [object.id]) ∧
        ∀ visits : Nat → List (Visit α),
          let run := Run.ofScene program scene visits
          ∀ frame, run.trace frame = spot.lead (run.world frame) ++
              (spot.trace (run.world frame) ++ spot.rest (run.world frame)) ∧
            ∀ left stopped, sequence.StoppedIn spot (run.world frame) left stopped → ∀ count,
              sequence.Freezes object.id stopped
                (left ++ (List.range count).flatMap fun passed => run.trace (frame + 1 + passed))
                (run.world (frame + 1 + count)) := by
  obtain ⟨layout⟩ := Program.exists_layout compiled
  obtain ⟨sequence, first, last, plays, -, apart, ⟨seat⟩⟩ := layout.exists_timeline inScene member
  have named : sequence.name ∈ Directory.timelineNames object := by
    rw [plays.name]
    exact List.mem_map_of_mem member
  have changed := seat.changed named
  refine ⟨layout.directory, layout.sound, sequence, seat.spot, plays,
    fun cue inCues => seat.mem_of_piece (List.mem_map_of_mem inCues), fun change => ?_,
    fun action isInstance change effect => ?_,
    fun visits frame => ⟨?_, fun left stopped stop => seat.freezes_frames apart named visits stop⟩⟩
  · exact layout.becomes.imp fun _ _ becomes =>
      (Action.resolves_of_resolve becomes).2.timeline_iff
  · rw [← plays.name] at effect ⊢
    exact ⟨changed.opening action isInstance change effect,
      changed.targets action isInstance change effect⟩
  · refine seat.spot.trace_frame ?_
    rw [Run.hosts_world]
    exact Program.Layout.hosts_owner inScene

/-! ### An act that stops itself -/

/-- An act that stops itself, and hides the stage at the same time. -/
def Timeline.act : Timeline Float where
  name := "act"
  autostart := true
  entries := [⟨0, ⟨none, 0, .timeline "act" .stop⟩⟩, ⟨0, ⟨none, 0, .visibility false⟩⟩]

def SceneObject.stage : SceneObject Float :=
  { SceneObject.still "stage" with timelines := [.act] }

def Scene.curtain : Scene Float where
  objects := [.stage]
  groups := []

/-- What the act becomes. -/
def Sequence.act : Sequence Float where
  name := "act"
  autostart := true
  rate := 1
  cues := [⟨0, ⟨0, "timeline", ["stage"], ⟨0, 1⟩, .timeline "act" .stop⟩⟩,
    ⟨0, ⟨1, "visibility", ["stage"], ⟨0, 1⟩, .fade false⟩⟩]

theorem Timeline.dispatchOrder_act (context : Context) :
    Timeline.act.dispatchOrder context = .ok Timeline.act.entries := by
  have checked : checkStarts context Timeline.act.entries = .ok () := by rfl
  have together : Scalar.precedes (0 : Float) 0 = true := by decide +kernel
  rw [dispatchOrder, checked]
  exact congrArg Except.ok (List.mergeSort_of_pairwise (by simp [act, together]))

theorem Owned.ofTimeline_act (groups : List (String × List String)) :
    ofTimeline ⟨Scene.curtain.walk, groups⟩ 1 "stage" .act 0 =
      .ok ⟨Sequence.act.setup, Sequence.act.run, Sequence.act.cues.map (·.action)⟩ := by
  have resolved : Action.resolveAll ⟨Scene.curtain.walk, groups⟩ 1 (.timeline "act") "stage" 0
      (Timeline.act.entries.map (·.action)) = .ok (Sequence.act.cues.map (·.action)) := by rfl
  exact Outcome.bind_eq_ok.mpr ⟨_, Timeline.dispatchOrder_act _,
    Outcome.bind_eq_ok.mpr ⟨_, resolved, rfl⟩⟩

theorem Scene.exists_compile_curtain :
    ∃ program, Program.compile 1 Scene.curtain = .ok program ∧
      Program.instances 1 Scene.curtain = Sequence.act.cues.map (·.action) := by
  have accepted : (Directory.ofScene Scene.curtain).isOk = true := by decide +kernel
  cases sound : Directory.ofScene Scene.curtain with
  | error fault =>
    rw [sound] at accepted
    cases accepted
  | ok directory =>
    obtain ⟨objects, groups⟩ := directory
    obtain rfl := Directory.objects_ofScene sound
    let pieces : List (Owned Float) :=
      [.nothing, ⟨Sequence.act.setup, Sequence.act.run, Sequence.act.cues.map (·.action)⟩]
    have made : Owned.ofObject ⟨Scene.curtain.walk, groups⟩ 1 .stage 0 = .ok (.concat pieces) :=
      Outcome.bind_eq_ok.mpr ⟨pieces, Outcome.bind_eq_ok.mpr ⟨_, rfl,
        Outcome.bind_eq_ok.mpr ⟨_, Outcome.bind_eq_ok.mpr ⟨_, Owned.ofTimeline_act groups,
          rfl⟩, rfl⟩⟩, rfl⟩
    have logic : Program.ownedLogic 1 Scene.curtain = .ok [(.stage, .concat pieces)] :=
      Outcome.bind_eq_ok.mpr ⟨(), by rfl, Outcome.bind_eq_ok.mpr ⟨_, sound,
        Outcome.bind_eq_ok.mpr ⟨[.concat pieces], Outcome.bind_eq_ok.mpr ⟨_, made, rfl⟩, rfl⟩⟩⟩
    have all : Program.instances 1 Scene.curtain = Sequence.act.cues.map (·.action) := by
      rw [Program.instances, logic]
      rfl
    have kept := Program.checkContracts_eq_ok fun _ member =>
      Program.keepsContract_of_mem logic member
    exact ⟨_, Outcome.bind_eq_ok.mpr ⟨_, Outcome.mapError_eq_ok.mpr logic,
      Outcome.bind_eq_ok.mpr ⟨(), kept, rfl⟩⟩, all⟩

/-- The timeline of the compiled scene is the one that its act becomes. -/
theorem Sequence.Plays.eq_act {directory : Directory Float} {sequence : Sequence Float}
    (plays : Plays directory 1 "stage" .act sequence)
    (inside : ∀ cue ∈ sequence.cues, cue.action ∈ Sequence.act.cues.map (·.action)) :
    sequence = .act := by
  obtain ⟨name, autostart, rate, cues⟩ := sequence
  obtain ⟨rfl, rfl, becomes, rfl⟩ := plays
  rw [← Timeline.eq_inOrder (Timeline.dispatchOrder_act (.timeline "act")), Timeline.act] at becomes
  obtain _ | ⟨⟨firstStart, firstBecomes⟩, _ | ⟨⟨secondStart, secondBecomes⟩, _ | _⟩⟩ := becomes
  rename_i first second
  have stops := (Action.resolves_of_resolve firstBecomes).2.timeline_iff.mp rfl
  have hides (change : TimelineChange) : second.action.effect ≠ .timeline "act" change :=
    fun effect => by
      cases (Action.resolves_of_resolve secondBecomes).2.timeline_iff.mpr effect
  obtain ⟨firstIn, secondIn⟩ : first.action ∈ Sequence.act.cues.map (·.action) ∧
      second.action ∈ Sequence.act.cues.map (·.action) := by
    simpa using inside
  simp only [Sequence.act, List.map_cons, List.map_nil, List.mem_cons, List.not_mem_nil,
    or_false] at firstIn secondIn
  have firstIs := firstIn.resolve_right fun same => by
    rw [same] at stops
    cases stops
  have secondIs := secondIn.resolve_left fun same => hides .stop (by rw [same])
  obtain ⟨firstStart', firstAction⟩ := first
  obtain ⟨secondStart', secondAction⟩ := second
  dsimp only at firstStart secondStart firstIs secondIs
  subst firstStart secondStart firstIs secondIs
  rfl

theorem Sequence.isMeasurable_act : Sequence.act.IsMeasurable where
  length := by decide
  starts := by
    have starts : (Sequence.act.cues.map Sequence.act.startTick).all (· ≤ countingLimit) = true := by
      decide +kernel
    simpa using starts
  ends := by decide +kernel

theorem Sequence.not_resumes_act
    (changed : Sequence.act.IsChangedOn "stage" (Sequence.act.cues.map (·.action)))
    (locals : Locals Float) (world : World Float) :
    ∀ event ∈ Block.traceAll "stage" locals world Sequence.act.run,
      ¬Sequence.act.Resumes "stage" event := by
  refine not_resumes_run changed (fun cue member => List.mem_map_of_mem member)
    (fun cue inCues change effect => ?_) locals world
  have only : Sequence.act.cues.all (fun cue => Sequence.act.ownChange? cue = none ∨
      Sequence.act.ownChange? cue = some .stop) = true := by decide
  have chosen := List.all_eq_true.mp only cue inCues
  rw [ownChange?_eq_some.mpr effect] at chosen
  simpa using chosen

/-- The first turn of the act: after it was stopped its second entry is dispatched and the tick is
counted, although nothing resumes it. -/
theorem Sequence.turn_act {world : World Float}
    (changed : Sequence.act.IsChangedOn "stage" (Sequence.act.cues.map (·.action)))
    (shows : Sequence.act.Shows "stage" ⟨true, 0, 0⟩ world) (locals : Locals Float) :
    (∃ before found after,
      Block.traceAll "stage" locals world Sequence.act.run =
        before ++ .entered "stage" (Effect.changeTimeline "act" .stop) found :: after ∧
      (∀ event ∈ after, ¬Sequence.act.Resumes "stage" event) ∧
      (∃ event ∈ after, Sequence.act.IsDispatch "stage" 1 event) ∧
      Sequence.act.progress "stage" found = (Scalar.ofNat 0, Scalar.ofNat 1)) ∧
    Sequence.act.progress "stage" (Block.runAll "stage" locals world Sequence.act.run) =
      (Scalar.ofNat 1, Scalar.ofNat 2) := by
  obtain ⟨stops, hides, cues⟩ : ∃ stops hides, Sequence.act.cues = [stops, hides] := ⟨_, _, rfl⟩
  have firstCue : Sequence.act.cues[0]? = some stops := by rw [cues]; rfl
  have secondCue : Sequence.act.cues[1]? = some hides := by rw [cues]; rfl
  have inside : ∀ cue ∈ Sequence.act.cues, cue.action ∈ Sequence.act.cues.map (·.action) :=
    fun cue member => List.mem_map_of_mem member
  have insideFirst := inside stops (List.mem_of_getElem? firstCue)
  have own : Sequence.act.ownChange? stops = some .stop := by
    cases cues
    rfl
  have effect := ownChange?_eq_some.mp own
  have dispatch : stops.action.dispatch =
      [.within "stage" (Effect.changeTimeline "act" .stop)] := by
    rw [Instance.dispatch, changed.targets _ insideFirst _ effect,
      changed.opening _ insideFirst _ effect]
    rfl
  have due (cue : Cue Float) (inCues : cue ∈ Sequence.act.cues) : Sequence.act.startTick cue ≤ 0 := by
    have none : (Sequence.act.cues.map Sequence.act.startTick).all (· ≤ 0) = true := by
      decide +kernel
    simpa using List.all_eq_true.mp none _ (List.mem_map_of_mem inCues)
  have calm := not_resumes_act changed locals world
  -- The first entry stops the act.
  obtain ⟨firstTrace, firstRun, moved⟩ := shows.dispatchAt_of_due Sequence.isMeasurable_act
    (stops, 0) firstCue ⟨Nat.zero_le _, Nat.zero_le _⟩
    ⟨rfl, due _ (List.mem_of_getElem? firstCue)⟩ locals
  obtain ⟨-, stopped⟩ := moved.dispatch changed insideFirst locals
  rw [own] at stopped
  -- The second one is due as before.
  obtain ⟨secondTrace, -, -⟩ := stopped.dispatchAt_of_due Sequence.isMeasurable_act
    (hides, 1) secondCue ⟨Nat.zero_le _, by simp [cues, Clock.tell]⟩
    ⟨rfl, due _ (List.mem_of_getElem? secondCue)⟩ locals
  rw [dispatch, Block.traceAll_cons, Block.traceAll_nil, List.append_nil, Stmt.trace] at firstTrace
  have running : (Sequence.act.value "stage" world .running == 0) = false := by
    rw [shows.running]
    exact Counting.one_beq_zero
  have chain : Sequence.act.cues.zipIdx.map (fun entry => Sequence.act.dispatchAt entry.1 entry.2) =
      [Sequence.act.dispatchAt stops 0, Sequence.act.dispatchAt hides 1] := by
    rw [cues]
    rfl
  obtain ⟨trace, -⟩ := go_of_running running locals
  rw [chain, Block.traceAll_cons, Block.traceAll_cons _ _ _ (Sequence.act.dispatchAt hides 1),
    firstTrace, firstRun, secondTrace] at trace
  have closed := (shows.run changed Sequence.isMeasurable_act inside (by decide)
    ⟨Nat.zero_le _, Nat.zero_le _⟩ locals).2
  have turned : Sequence.act.turn ⟨true, 0, 0⟩ = ⟨false, 1, 2⟩ := by decide +kernel
  rw [turned] at closed
  refine ⟨?_, Prod.ext closed.elapsed closed.cursor⟩
  rw [trace] at calm ⊢
  refine ⟨[_, _, _], _, _, rfl, fun event happens => calm event ?_,
    ⟨.entered "stage" (Sequence.act.entry hides 1) (Block.runAll "stage" locals
      (world.write "stage" (Sequence.act.slot .cursor).key (Scalar.ofNat 1)) stops.action.dispatch),
      ?_, hides, _, secondCue, rfl⟩, Prod.ext moved.elapsed moved.cursor⟩
  · exact List.mem_append_right [_, _, _] (List.mem_cons_of_mem _ happens)
  · exact List.mem_append_left _ (List.mem_append_right _ List.mem_cons_self)

/-- The act starts by itself, so its first turn finds it at its beginning. -/
theorem Scene.shows_curtain {program : Program Float}
    (compiled : Program.compile 1 Scene.curtain = .ok program)
    (all : Program.instances 1 Scene.curtain = Sequence.act.cues.map (·.action)) :
    ∃ directory, Directory.ofScene Scene.curtain = .ok directory ∧
      ∃ spot : Program.Spot program "stage" Sequence.act.run,
        Sequence.Plays directory 1 "stage" .act .act ∧
        Sequence.act.IsChangedOn "stage" (Sequence.act.cues.map (·.action)) ∧
        let run := Run.ofScene program Scene.curtain fun _ => []
        run.trace 0 = spot.lead (run.world 0) ++
          (spot.trace (run.world 0) ++ spot.rest (run.world 0)) ∧
        Sequence.act.Shows "stage" ⟨true, 0, 0⟩ (spot.turn (run.world 0)) := by
  have inScene : SceneObject.stage ∈ Scene.curtain.walk := List.mem_cons_self
  obtain ⟨layout⟩ := Program.exists_layout compiled
  obtain ⟨sequence, first, last, plays, -, apart, ⟨seat⟩⟩ :=
    layout.exists_timeline inScene (show Timeline.act ∈ _ from List.mem_cons_self)
  obtain rfl := plays.eq_act fun cue inCues =>
    all ▸ seat.mem_of_piece (List.mem_map_of_mem inCues)
  let run := Run.ofScene program Scene.curtain fun _ => []
  have hosted : (run.world 0).hosts "stage" := by
    rw [Run.hosts_world]
    exact Program.Layout.hosts_owner inScene
  have fresh := seat.isFresh_turn_of_own apart (fun action isInstance _ _ => all ▸ isInstance)
    (fun _ => []) rfl
  exact ⟨layout.directory, layout.sound, seat.spot, plays, all ▸ seat.changed List.mem_cons_self,
    seat.spot.trace_frame hosted, fresh.shows (by rwa [seat.spot.hosts_turn])⟩

/-- In the first turn the act goes on after its entry has stopped it: although nothing resumes it, its
second entry is dispatched, and the tick is counted. -/
theorem act_goes_on_when_stopped :
    ∃ program, Program.compile 1 Scene.curtain = .ok program ∧
      ∃ object ∈ Scene.curtain.walk, ∃ declared ∈ object.timelines,
        ∃ (sequence : Sequence Float) (spot : Program.Spot program object.id sequence.run),
          (∃ directory, Directory.ofScene Scene.curtain = .ok directory ∧
            Sequence.Plays directory 1 object.id declared sequence) ∧
          let run := Run.ofScene program Scene.curtain fun _ => []
          run.trace 0 = spot.lead (run.world 0) ++
            (spot.trace (run.world 0) ++ spot.rest (run.world 0)) ∧
          (∃ before found after,
            spot.trace (run.world 0) = before ++
              .entered object.id (Effect.changeTimeline declared.name .stop) found :: after ∧
            (∀ event ∈ after, ¬sequence.Resumes object.id event) ∧
            (∃ event ∈ after, sequence.IsDispatch object.id 1 event) ∧
            sequence.progress object.id found = (Scalar.ofNat 0, Scalar.ofNat 1)) ∧
          sequence.progress object.id (spot.closing (run.world 0)) =
            (Scalar.ofNat 1, Scalar.ofNat 2) := by
  obtain ⟨program, compiled, all⟩ := Scene.exists_compile_curtain
  obtain ⟨directory, sound, spot, plays, changed, frame, shows⟩ := Scene.shows_curtain compiled all
  exact ⟨program, compiled, .stage, List.mem_cons_self, .act, List.mem_cons_self, .act, spot,
    ⟨directory, sound, plays⟩, frame, Sequence.turn_act changed shows _⟩

/-- The act is stopped in the first frame, and frozen from the end of its turn on. -/
theorem frozen_until_resumed_curtain :
    ∃ program, Program.compile 1 Scene.curtain = .ok program ∧
      SceneObject.stage ∈ Scene.curtain.walk ∧ Timeline.act ∈ SceneObject.stage.timelines ∧
      ∃ (sequence : Sequence Float) (spot : Program.Spot program "stage" sequence.run),
        (∃ directory, Sequence.Plays directory 1 "stage" .act sequence) ∧
        let run := Run.ofScene program Scene.curtain fun _ => []
        ∃ left stopped, sequence.StoppedIn spot (run.world 0) left stopped ∧ ∀ count,
          sequence.Freezes "stage" stopped
            (left ++ (List.range count).flatMap fun passed => run.trace (1 + passed))
            (run.world (1 + count)) := by
  obtain ⟨program, compiled, all⟩ := Scene.exists_compile_curtain
  have inScene : SceneObject.stage ∈ Scene.curtain.walk := List.mem_cons_self
  have member : Timeline.act ∈ SceneObject.stage.timelines := List.mem_cons_self
  obtain ⟨directory, -, sequence, spot, plays, inside, -, -, runs⟩ :=
    frozen_until_resumed compiled inScene member
  obtain rfl := plays.eq_act fun cue inCues => all ▸ inside cue inCues
  obtain ⟨-, -, other, -, changed, frame, shows⟩ := Scene.shows_curtain compiled all
  let run := Run.ofScene program Scene.curtain fun _ => []
  obtain ⟨⟨before, found, after, split, -⟩, -⟩ :=
    Sequence.turn_act changed shows (other.locals (run.world 0))
  obtain ⟨trace, frozen⟩ := runs (fun _ => []) 0
  have stops : .entered "stage" (Effect.changeTimeline "act" .stop) found ∈ run.trace 0 := by
    have inTurn : .entered "stage" (Effect.changeTimeline "act" .stop) found ∈
        other.trace (run.world 0) := by
      rw [Program.Spot.trace, split]
      exact List.mem_append_right _ List.mem_cons_self
    rw [frame]
    exact List.mem_append_right _ (List.mem_append_left _ inTurn)
  rw [trace, List.mem_append, List.mem_append] at stops
  -- Wherever in the frame the stop is, the act rests from then on, or from the end of its turn.
  obtain ⟨left, stopped, stop⟩ : ∃ left stopped,
      Sequence.StoppedIn spot (run.world 0) left stopped := by
    rcases stops with isAhead | isWithin | isBehind
    · obtain ⟨_, _, same⟩ := List.append_of_mem isAhead
      exact ⟨_, _, .ahead same⟩
    · obtain ⟨_, later, same⟩ := List.append_of_mem isWithin
      refine ⟨_, _, .within same fun event happens => ?_⟩
      refine Sequence.not_resumes_act changed (spot.locals (run.world 0)) (spot.turn (run.world 0))
        event ((congrArg (event ∈ ·) same).mpr ?_)
      exact List.mem_append_right _ (List.mem_cons_of_mem _ happens)
    · obtain ⟨_, _, same⟩ := List.append_of_mem isBehind
      exact ⟨_, _, .behind same⟩
  refine ⟨program, compiled, inScene, member, .act, spot, ⟨directory, plays⟩, left, stopped, stop,
    fun count => ?_⟩
  have freezes := frozen left stopped stop count
  simp only [Nat.zero_add] at freezes
  exact freezes

end Stagecraft
