/-
This file looks at starts. A start leaves a timeline at its beginning. A timeline that starts by
itself is at its beginning in its first turn, since the setup of its owner runs before it; and if no
action changes the timeline, nothing but its own turns does from then on, since to start what was
started changes nothing.
-/

import Stagecraft.Proofs.Action.Handing
import Stagecraft.Proofs.Timeline.Playing

namespace Stagecraft

variable {α : Type} [Trigonometric α]

/-! ### Starts -/

namespace Sequence

variable {sequence : Sequence α} {owner : String} {world : World α}

theorem isFresh_rewind (hosted : world.hosts owner) (locals : Locals α) :
    sequence.IsFresh owner
      (Block.runAll owner locals world (Effect.rewind sequence.name)) := by
  have slotEq (field : TimelineField) : Slot.timeline sequence.name field = sequence.slot field :=
    rfl
  constructor <;>
    simp [Effect.rewind, slotEq, value_write, hosted, Value.number]

/-- A timeline that was never started is started. -/
theorem changeTimeline_of_not_started [Counting α]
    (never : sequence.value owner world .started = 0) (locals : Locals α) :
    Block.runAll owner locals world (Effect.changeTimeline sequence.name .startIfNotStarted) =
      Block.runAll owner locals world (Effect.rewind sequence.name) := by
  have unset : (world.read owner (Slot.timeline sequence.name .started).key == (0 : α)) = true := by
    rw [← Counting.zero_beq_zero (α := α), ← never]
    rfl
  rw [Effect.changeTimeline, Block.runAll_cons, Block.runAll_nil, Stmt.run_onlyIf,
    Expr.isTruthy_equals_read, unset, if_pos rfl]

/-- A timeline that was started is not started again. -/
theorem changeTimeline_of_started [Counting α]
    (started : sequence.value owner world .started = 1) (locals : Locals α) :
    Block.runAll owner locals world (Effect.changeTimeline sequence.name .startIfNotStarted) =
      world := by
  have set : (world.read owner (Slot.timeline sequence.name .started).key == (0 : α)) = false := by
    rw [← Counting.one_beq_zero (α := α), ← started]
    rfl
  rw [Effect.changeTimeline, Block.runAll_cons, Block.runAll_nil, Stmt.run_onlyIf,
    Expr.isTruthy_equals_read, set, if_neg Bool.false_ne_true]

/-! ### Logic that leaves a timeline alone -/

variable (sequence owner) in
/-- A slot of another object, or none of the timeline. -/
def Spared : String → Slot → Prop :=
  fun object slot => object = owner → ∀ field, slot ≠ sequence.slot field

omit [Trigonometric α] in
theorem not_spared (field : TimelineField) : ¬sequence.Spared owner owner (sequence.slot field) :=
  fun spared => spared rfl field rfl

variable {this : String} {block : Block α}

theorem value_of_writesOnly (spared : Block.WritesOnly (sequence.Spared owner) this block)
    (locals : Locals α) (world : World α) (field : TimelineField) :
    sequence.value owner (Block.runAll this locals world block) field =
      sequence.value owner world field :=
  spared.read_runAll (not_spared field) locals world

/-- An action that does not change the timeline spares it. -/
theorem writesOnly_dispatch {action : Instance α}
    (other : ∀ change, action.effect ≠ .timeline sequence.name change) (this : String) :
    Block.WritesOnly (sequence.Spared owner) this action.dispatch := by
  refine (action.writesOnly_dispatch this).mono fun object slot inside _ field same => ?_
  rcases changes_or_spares sequence action with ⟨change, changes⟩ | spares
  · exact other change changes
  · exact spares field (same ▸ inside.2)

/-- Its own turn does not change whether a timeline was started. -/
theorem started_run
    (quiet : ∀ cue ∈ sequence.cues, ∀ change, cue.action.effect ≠ .timeline sequence.name change)
    (locals : Locals α) (world : World α) :
    sequence.value owner (Block.runAll owner locals world sequence.run) .started =
      sequence.value owner world .started := by
  have spared : Block.WritesOnly (fun object slot => object = owner → slot ≠ sequence.slot .started)
      owner sequence.run :=
    writesOnly_run (fun field other _ same => other (Slot.timeline.inj same).2)
      fun cue member => (writesOnly_dispatch (quiet cue member) owner).mono
        fun _ _ spared same => spared same .started
  exact spared.read_runAll (fun forbidden => forbidden rfl rfl) locals world

/-! ### Setups -/

theorem writesOnly_initialized : Block.WritesOnly (sequence.Spared owner) owner
    [Slot.initialized.write (.num 1 : Expr α)] :=
  Block.writesOnly_write.mpr fun _ _ same => by cases same

variable {ahead behind : Block α}
  (sparedAhead : Block.WritesOnly (sequence.Spared owner) owner ahead)
  (sparedBehind : Block.WritesOnly (sequence.Spared owner) owner behind)

include sparedAhead sparedBehind

/-- The setup of its owner leaves a timeline alone that was started. -/
theorem value_once_of_started [Counting α] (started : sequence.value owner world .started = 1)
    (field : TimelineField) :
    sequence.value owner (Block.runAll owner [] world
      (Program.once (ahead ++ (sequence.setup ++ behind)))) field =
        sequence.value owner world field := by
  have spared := value_of_writesOnly sparedAhead [] world
  have setUp (locals : Locals α) (world : World α)
      (started : sequence.value owner world .started = 1) :
      Block.runAll owner locals world sequence.setup = world := by
    rw [setup]
    split
    · exact changeTimeline_of_started started locals
    · exact Block.runAll_nil _ _ _
  rw [Program.once]
  split
  · rw [Block.runAll_nil]
  · rw [Block.runAll_cons, Block.runAll_nil, Stmt.run_onlyIf]
    split
    · rw [Block.runAll_append, value_of_writesOnly writesOnly_initialized, Block.runAll_append,
        Block.runAll_append, value_of_writesOnly sparedBehind, setUp _ _ (by rw [spared, started]),
        spared]
    · rfl

/-- In the first frame the setup of its owner starts a timeline that starts by itself. -/
theorem isFresh_once [Counting α] (autostart : sequence.autostart = true)
    (hosted : world.hosts owner) (first : world.read owner Slot.initialized.key = 0)
    (never : sequence.value owner world .started = 0) :
    sequence.IsFresh owner (Block.runAll owner [] world
      (Program.once (ahead ++ (sequence.setup ++ behind)))) := by
  have effective : Block.isIdle (ahead ++ (sequence.setup ++ behind)) = false := by
    simp [Block.isIdle, Block.isEffective_append, setup, autostart, Effect.changeTimeline,
      Stmt.onlyIf, Effect.rewind, Block.isEffective, Stmt.isEffective, Slot.write]
  have isFirst : ((Slot.initialized.read.equals (.num 0)).eval world owner []).isTruthy = true := by
    rw [Expr.isTruthy_equals_read, first, Counting.zero_beq_zero]
  have spared := value_of_writesOnly sparedAhead [] world
  have fresh : sequence.IsFresh owner (Block.runAll owner (Block.thread owner [] world ahead).1
      (Block.runAll owner [] world ahead) (Effect.rewind sequence.name)) :=
    isFresh_rewind (by rwa [Block.hosts_runAll]) _
  have setUp : Block.runAll owner (Block.thread owner [] world ahead).1
      (Block.runAll owner [] world ahead) sequence.setup =
        Block.runAll owner (Block.thread owner [] world ahead).1
          (Block.runAll owner [] world ahead) (Effect.rewind sequence.name) := by
    rw [setup, if_pos autostart]
    exact changeTimeline_of_not_started (by rw [spared, never]) _
  have same (field : TimelineField) : sequence.value owner (Block.runAll owner [] world
      (Program.once (ahead ++ (sequence.setup ++ behind)))) field =
        sequence.value owner (Block.runAll owner (Block.thread owner [] world ahead).1
          (Block.runAll owner [] world ahead) (Effect.rewind sequence.name)) field := by
    rw [Program.once, effective, if_neg Bool.false_ne_true, Block.runAll_cons, Block.runAll_nil,
      Stmt.run_onlyIf, isFirst, if_pos rfl, Block.runAll_append, value_of_writesOnly writesOnly_initialized,
      Block.runAll_append, Block.runAll_append, value_of_writesOnly sparedBehind, setUp]
  exact ⟨(same _).trans fresh.running, (same _).trans fresh.started, (same _).trans fresh.elapsed,
    (same _).trans fresh.cursor⟩

end Sequence

/-! ### Starts in a scene -/

/-- In its setup a piece writes what its source keeps. -/
theorem Owned.writesOnly_setup_of_keeps {directory : Directory α} {rate : α} {owner : String}
    {first : Nat} {source : Source α} {piece : Owned α} {allowed : String → Slot → Prop}
    (made : Made directory rate owner first source piece)
    (keeps : ∀ slot, source.Keeps slot → allowed owner slot) :
    Block.WritesOnly allowed owner piece.setup := by
  cases made with
  | timeline declared entries instances sequence _ _ same =>
    subst same
    exact Sequence.writesOnly_setup fun field => keeps _ ⟨field, rfl⟩
  | _ => exact Block.writesOnly_nil

namespace Program.Layout.Seat

variable {rate : α} {scene : Scene α} {program : Program α}
  {layout : Layout rate scene program} {object : SceneObject α} {first last : List (Owned.Source α)}
  {declared : Timeline α} {sequence : Sequence α}
  (seat : layout.Seat object first (.timeline declared) last
    ⟨sequence.setup, sequence.run, sequence.cues.map (·.action)⟩)

/-- An action of the owner that stands before the timeline is none of its entries. -/
theorem notMem_cues_of_early {action : Instance α} (inEarly : action ∈ seat.early.flatMap (·.instances)) :
    action ∉ sequence.cues.map (·.action) := by
  intro isEntry
  have once := layout.nodup_owned.1 _ seat.isOwned
  rw [Owned.instances_concat, List.flatMap_append, List.flatMap_cons, List.map_append,
    List.nodup_append'] at once
  refine once.2.2 (List.mem_map_of_mem inEarly) ?_
  rw [List.map_append]
  exact List.mem_append_left _ (List.mem_map_of_mem isEntry)

include seat in
/-- Neither is an action of another object. -/
theorem notMem_cues_of_owns {id : String} {owned : Owned α} (owns : layout.Owns id owned)
    (other : id ≠ object.id) {action : Instance α} (inOwned : action ∈ owned.instances) :
    action ∉ sequence.cues.map (·.action) := by
  intro isEntry
  refine other (layout.id_eq_of_number owns seat.owns inOwned ?_ rfl)
  rw [Owned.instances_concat, List.flatMap_append, List.flatMap_cons]
  exact List.mem_append_right _ (List.mem_append_left _ isEntry)

variable (apart : ∀ other ∈ first ++ last, ∀ field, ¬other.Keeps (sequence.slot field))

include apart

/-- Before the turn of the timeline its object sets it up, in the first frame only. What else is set
up there spares the timeline. -/
theorem exists_setup :
    ∃ ahead behind, seat.spot.before =
        once (ahead ++ (sequence.setup ++ behind)) ++ seat.early.flatMap (·.enter) ∧
      Block.WritesOnly (sequence.Spared object.id) object.id ahead ∧
      Block.WritesOnly (sequence.Spared object.id) object.id behind := by
  let captures : Block α :=
    ((targeting (instances rate scene) object.id).map (·.setup)).eraseDups.flatten
  have captured : Block.WritesOnly (sequence.Spared object.id) object.id captures :=
    writesOnly_captures (fun _ _ _ same => by cases same) _
  have setUp {sources : List (Owned.Source α)} {pieces : List (Owned α)}
      (made : List.Forall₂ (fun source piece =>
        ∃ number, Owned.Made layout.directory rate object.id number source piece) sources pieces)
      (inside : sources ⊆ first ++ last) :
      Block.WritesOnly (sequence.Spared object.id) object.id (pieces.flatMap (·.setup)) := by
    refine Block.writesOnly_flatMap fun piece inPieces => ?_
    obtain ⟨source, inSources, number, madePiece⟩ := Lists.exists_of_mem_right made inPieces
    exact Owned.writesOnly_setup_of_keeps madePiece fun slot keeps _ field same =>
      apart source (inside inSources) field (same ▸ keeps)
  refine ⟨captures ++ seat.early.flatMap (·.setup), seat.late.flatMap (·.setup), ?_, ?_, ?_⟩
  · rw [seat.before, Owned.setup_concat, List.flatMap_append, List.flatMap_cons,
      List.append_assoc]
  · exact Block.writesOnly_append.mpr
      ⟨captured, setUp seat.madeEarly (List.subset_append_left _ _)⟩
  · exact setUp seat.madeLate (List.subset_append_right _ _)

/-- A timeline that starts by itself is at its beginning in its first turn, if no actions but those
of its entries change it. -/
theorem isFresh_turn_of_own [Counting α] (own : ∀ action ∈ instances rate scene, ∀ change,
      action.effect = .timeline sequence.name change → action ∈ sequence.cues.map (·.action))
    (visits : Nat → List (Visit α)) (autostart : sequence.autostart = true) :
    sequence.IsFresh object.id
      (seat.spot.turn ((Run.ofScene program scene visits).world 0)) := by
  let run := Run.ofScene program scene visits
  have absent (slot : Slot) (inward : ¬slot.IsOutward) (spared : ∀ placed ∈ seat.spot.earlier,
        ¬(placed.duty .enter).Writes object.id slot.key) :
      (seat.spot.opening (run.world 0)).read object.id slot.key = 0 := by
    rw [seat.spot.read_opening_of_earlier spared, run.read_world inward]
    exact Stage.read_ofScene inward scene object.id
  have first := absent .initialized id fun placed inEarlier =>
    (seat.sparesBeside (fun _ _ => Instance.not_reaches_initialized) fun other _ keeps => by
      cases other <;> simp [Owned.Source.Keeps] at keeps).others placed (.inl inEarlier)
  have never := absent (sequence.slot .started) id fun placed inEarlier => by
    have elsewhere := seat.apart placed (.inl inEarlier)
    have spared : Block.WritesOnly (sequence.Spared object.id) placed.id placed.phases.enter :=
      layout.writesOnly_enter_of_keeps (seat.mem_program (.inl inEarlier))
        (fun same => absurd same elsewhere) (fun _ same => absurd same elsewhere)
        (fun _ _ same => absurd same elsewhere) (fun _ _ _ same => absurd same elsewhere)
        fun owned owns action inOwned => Sequence.writesOnly_dispatch fun change effect =>
          seat.notMem_cues_of_owns owns elsewhere inOwned
            (own action (layout.mem_of_owns owns inOwned) change effect)
    exact spared.notMem (Sequence.not_spared .started)
  have hosted : (seat.spot.opening (run.world 0)).hosts object.id := by
    rw [Spot.hosts_opening, Run.hosts_world]
    exact Program.Layout.hosts_owner (layout.id_mem_walk seat.isOwned)
  obtain ⟨ahead, behind, before, sparedAhead, sparedBehind⟩ := seat.exists_setup apart
  have sparedEarly : Block.WritesOnly (sequence.Spared object.id) object.id
      (seat.early.flatMap (·.enter)) := by
    refine seat.writesOnly_early (fun other inFirst slot keeps _ field same =>
        apart other (List.mem_append_left _ inFirst) field (same ▸ keeps))
      fun action inEarly => Sequence.writesOnly_dispatch fun change effect =>
        seat.notMem_cues_of_early inEarly (own action (seat.mem_instances ?_) change effect)
    rw [List.flatMap_append]
    exact List.mem_append_left _ inEarly
  have fresh := Sequence.isFresh_once sparedAhead sparedBehind autostart hosted first never
  have same := Sequence.value_of_writesOnly sparedEarly
    (Block.thread object.id [] (seat.spot.opening (run.world 0))
      (once (ahead ++ (sequence.setup ++ behind)))).1
    (Block.runAll object.id [] (seat.spot.opening (run.world 0))
      (once (ahead ++ (sequence.setup ++ behind))))
  rw [Spot.turn, before, Block.runAll_append]
  exact ⟨(same _).trans fresh.running, (same _).trans fresh.started, (same _).trans fresh.elapsed,
    (same _).trans fresh.cursor⟩

variable (quiet : ∀ action ∈ instances rate scene, ∀ change,
    action.effect ≠ .timeline sequence.name change)

include quiet

theorem writesOnly_early_spared :
    Block.WritesOnly (sequence.Spared object.id) object.id (seat.early.flatMap (·.enter)) :=
  seat.writesOnly_early
    (fun other inFirst slot keeps _ field same =>
      apart other (List.mem_append_left _ inFirst) field (same ▸ keeps))
    fun action inEarly => Sequence.writesOnly_dispatch (quiet action (seat.mem_instances (by
      rw [List.flatMap_append]
      exact List.mem_append_left _ inEarly)))

/-- Nothing on other objects writes the slots of the timeline, nor anything after its turn. -/
theorem sparesBeside_slot (field : TimelineField) :
    seat.spot.SparesBeside (sequence.slot field) := by
  refine seat.sparesBeside (fun action member => ?_) fun other inLast =>
    apart other (List.mem_append_right _ inLast) field
  rcases Sequence.changes_or_spares sequence action with ⟨change, changes⟩ | spares
  · exact absurd changes (quiet action member change)
  · exact spares field

variable [Counting α] (visits : Nat → List (Visit α))

theorem isFresh_turn (autostart : sequence.autostart = true) :
    sequence.IsFresh object.id
      (seat.spot.turn ((Run.ofScene program scene visits).world 0)) :=
  seat.isFresh_turn_of_own apart
    (fun action member change effect => absurd effect (quiet action member change)) visits autostart

/-- Once it was started, a timeline that no action changes is changed by its own turns only. -/
theorem isLeftAlone_of_started {frame : Nat}
    (started : sequence.value object.id
      (seat.spot.turn ((Run.ofScene program scene visits).world frame)) .started = 1) :
    sequence.IsLeftAlone seat.spot (Run.ofScene program scene visits) frame := by
  let run := Run.ofScene program scene visits
  have hosted : (run.world frame).hosts object.id := by
    rw [Run.hosts_world]
    exact Program.Layout.hosts_owner (layout.id_mem_walk seat.isOwned)
  -- The next turn of the owner finds what this turn of the timeline left.
  have kept (field : TimelineField) :
      sequence.value object.id (seat.spot.opening (run.world (frame + 1))) field =
        sequence.value object.id (seat.spot.closing (run.world frame)) field := by
    have inward : ¬(sequence.slot field).IsOutward := id
    have beside := seat.sparesBeside_slot apart quiet field
    rw [Sequence.value, seat.spot.read_opening beside, run.read_world inward,
      run.read_stage_succ inward]
    exact seat.spot.read_frame beside hosted
  have stillStarted :
      sequence.value object.id (seat.spot.opening (run.world (frame + 1))) .started = 1 := by
    rw [kept, ← started]
    refine Sequence.started_run (fun cue member => quiet cue.action ?_) _ _
    exact seat.mem_of_piece (List.mem_map_of_mem member)
  obtain ⟨ahead, behind, before, sparedAhead, sparedBehind⟩ := seat.exists_setup apart
  have sparedEarly := seat.writesOnly_early_spared apart quiet
  intro field
  rw [← kept, Spot.turn, before, Block.runAll_append, Sequence.value_of_writesOnly sparedEarly,
    Sequence.value_once_of_started sparedAhead sparedBehind stillStarted]

theorem isLeftAlone (autostart : sequence.autostart = true) (frame : Nat) :
    sequence.IsLeftAlone seat.spot (Run.ofScene program scene visits) frame := by
  let run := Run.ofScene program scene visits
  have started : sequence.value object.id (seat.spot.turn (run.world frame)) .started = 1 := by
    induction frame with
    | zero => exact (seat.isFresh_turn apart quiet visits autostart).started
    | succ frame inductionHypothesis =>
      rw [seat.isLeftAlone_of_started apart quiet visits inductionHypothesis .started,
        ← inductionHypothesis]
      refine Sequence.started_run (fun cue member => quiet cue.action ?_) _ _
      exact seat.mem_of_piece (List.mem_map_of_mem member)
  exact seat.isLeftAlone_of_started apart quiet visits started

end Program.Layout.Seat

end Stagecraft
