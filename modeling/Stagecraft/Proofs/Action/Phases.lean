/-
This file says what the phases of a frame mean for a timed action on one of its targets. The enter
phase only dispatches it, whatever object runs and in whatever order; each of the other phases
contains its block on the target once, and nothing else in them touches its flag or its count.
-/

import Stagecraft.Proofs.Action.Dispatching
import Stagecraft.Proofs.Logic.Ledger
import Stagecraft.Proofs.Program.Layout
import Stagecraft.Proofs.Scalar.Counting

namespace Stagecraft

variable {α : Type} [Trigonometric α]

namespace Instance

variable {self : Instance α} {this : String}

/-! ### Sources -/

theorem onlyDispatched_evaluate {dispatch : Block α} (inside : self.OnlyDispatched this dispatch)
    (watch : Watch) (sensor : Sensor α) (epsilon : α) (remain : Bool) :
    self.OnlyDispatched this (watch.evaluate sensor epsilon remain dispatch) := by
  rw [Watch.evaluate]
  refine .append (.append (.of_writesOnly (sensor.writesOnly_before epsilon watch))
    (.spared _ _ Block.writesOnly_bind ?_)) (.spared _ _ ?_ (.of_writesOnly ?_))
  · split
    · exact .nil
    · exact .onlyIf inside
  · exact Block.writesOnly_write.mpr (spared_watch watch .previous)
  · exact sensor.writesOnly_after fun field _ => spared_watch watch field

theorem onlyDispatched_run {sequence : Sequence α}
    (inside : ∀ cue ∈ sequence.cues, self.OnlyDispatched this cue.action.dispatch) :
    self.OnlyDispatched this sequence.run := by
  rw [Sequence.run]
  refine .spared _ _ Block.writesOnly_comment (.onlyIf (.append (.map fun entry member => ?_) ?_))
  · refine .onlyIf (.spared _ _ (Block.writesOnly_write.mpr (spared_timeline _ .cursor)) ?_)
    exact inside entry.1 (List.fst_mem_of_mem_zipIdx member)
  · refine .of_writesOnly ?_
    simp [Sequence.countTick, Sequence.stopAtEnd, Sequence.slot, spared_timeline]

theorem onlyDispatched_made {directory : Directory α} {rate : α} {first : Nat}
    {source : Owned.Source α} {piece : Owned α}
    (made : Owned.Made directory rate this first source piece)
    (alone : ∀ other ∈ piece.instances, other.number = self.number → other = self) :
    self.OnlyDispatched this piece.enter := by
  have dispatched (other : Instance α) (member : other ∈ piece.instances) :
      self.OnlyDispatched this other.dispatch :=
    .dispatch_of_number (alone other member) this
  cases made with
  | trigger declared sensor instances =>
    refine .spared _ _ Block.writesOnly_comment (.onlyIf ?_)
    exact onlyDispatched_evaluate (.flatMap dispatched) _ _ _ _
  | noLink => exact .nil
  | link actions instances =>
    refine .spared _ _ Block.writesOnly_comment ?_
    exact onlyDispatched_evaluate (.flatMap dispatched) _ _ _ _
  | timeline declared entries instances sequence _ _ same =>
    subst same
    refine onlyDispatched_run fun cue member => ?_
    obtain ⟨⟨entry, action⟩, inZip, rfl⟩ := List.mem_map.mp member
    exact dispatched action (List.of_mem_zip inZip).2

/-- On an agenda that only dispatches the action, it is opened equally often on all targets. -/
theorem exists_stretch_agenda (timed : self.isTimed) (once : self.targets.Nodup)
    {agenda : Agenda α} (only : ∀ duty ∈ agenda, self.OnlyDispatched duty.object duty.block)
    (world : World α) (hosted : ∀ target ∈ self.targets, world.hosts target) :
    ∃ count, self.Stretch world (agenda.trace world) (agenda.run world) count := by
  induction agenda generalizing world with
  | nil => exact ⟨0, .refl world⟩
  | cons duty rest inductionHypothesis =>
    obtain ⟨here, later⟩ := List.forall_mem_cons.mp only
    obtain ⟨count, stretch⟩ : ∃ count, self.Stretch world (duty.trace world) (duty.run world) count := by
      rw [Duty.trace, Duty.run]
      split
      · exact here.exists_stretch timed once [] world hosted
      · exact ⟨0, .refl world⟩
    obtain ⟨count', further⟩ := inductionHypothesis later (duty.run world) (by simpa using hosted)
    exact ⟨_, stretch.trans further⟩

/-- Duties on other objects do nothing to the action on a target. -/
theorem quiet_agenda (timed : self.isTimed) {agenda : Agenda α} {target : String}
    (spared : ∀ duty ∈ agenda, ∀ key, ¬duty.Writes target key) (world : World α) :
    self.Tally target (agenda.trace world) 0 0 0 ∧
      self.status (agenda.run world) target = self.status world target := by
  refine ⟨.of_entries timed fun block marks => ?_, ?_⟩
  · obtain ⟨slot, -, touched⟩ := marks.mem_writes target
    exact Agenda.entries_eq_zero (fun duty member => spared duty member slot.key) touched world
  · rw [status, Agenda.read_run fun duty member => spared duty member _,
      Agenda.read_run fun duty member => spared duty member _, status]

/-! ### Where the action rests -/

/-- In a stretch of a run nothing is done to the state that the action keeps on a target, and what is
found on the target afterwards is what was written there last. -/
structure Rests (action : Instance α) (target : String) (world : World α) (events : List (Event α))
    (last : World α) : Prop where
  tally : action.Tally target events 0 0 0
  kept : ∀ field, Trace.ledger target (Slot.action action.number field).key events = []
  read : ∀ key, last.read target key =
    (Trace.ledger target key events).getLast?.getD (world.read target key)

namespace Rests

variable {target : String} {world between last : World α} {events later : List (Event α)}

theorem append (first : self.Rests target world events between)
    (second : self.Rests target between later last) :
    self.Rests target world (events ++ later) last where
  tally := first.tally.append second.tally
  kept field := by rw [Trace.ledger_append, first.kept, second.kept, List.append_nil]
  read key := by
    rw [Trace.ledger_append, List.getLast?_append, Option.getD_or, second.read, first.read]

theorem read_of_nil (rests : self.Rests target world events last) {key : String}
    (unwritten : Trace.ledger target key events = []) :
    last.read target key = world.read target key := by
  rw [rests.read, unwritten]
  rfl

theorem read_kept (rests : self.Rests target world events last) (field : ActionField) :
    last.read target (Slot.action self.number field).key =
      world.read target (Slot.action self.number field).key :=
  rests.read_of_nil (rests.kept field)

theorem status_eq (rests : self.Rests target world events last) :
    self.status last target = self.status world target := by
  rw [status, status, active, elapsed, rests.read_kept, rests.read_kept]

/-- A block that does not write the state of the action. -/
theorem of_block (timed : self.isTimed) (hosted : world.hosts target) {whole : Block α}
    (foreign : Block.WritesOnly (fun _ slot => ∀ field, slot ≠ .action self.number field) this whole)
    (locals : Locals α) :
    self.Rests target world (Block.traceAll this locals world whole)
      (Block.runAll this locals world whole) where
  tally := tally_of_writesOnly timed
    (foreign.mono fun _ _ inside => ⟨inside .active, inside .elapsed⟩) target locals world
  kept field := Trace.ledger_of_notMem (foreign.notMem fun inside => inside field rfl) locals world
  read _ := Block.read_runAll_eq hosted whole

/-- Duties on other objects. -/
theorem of_agenda (timed : self.isTimed) (hosted : world.hosts target) {agenda : Agenda α}
    (spared : ∀ duty ∈ agenda, ∀ key, ¬duty.Writes target key) :
    self.Rests target world (agenda.trace world) (agenda.run world) where
  tally := (quiet_agenda timed spared world).1
  kept _ := Trace.ledger_agenda (fun duty member => spared duty member _) world
  read _ := Agenda.read_run_eq agenda hosted

end Rests

/-! ### Own blocks -/

section

variable {target : String} {world : World α} (hosted : world.hosts target) (locals : Locals α)

theorem tally_idle (timed : self.isTimed) :
    self.Tally target [.entered target [] world] 0 0 0 :=
  Tally.nil.entered_other timed (.inr (by simp [Marks])) world

theorem tally_advance (timed : self.isTimed) :
    self.Tally target (Block.traceAll target locals world self.advance) 0
      (if (self.status world target).1 == 0 then 0 else 1) 0 := by
  rw [advance_of_timed timed, Block.traceAll_cons, Block.traceAll_nil, List.append_nil,
    Stmt.trace_onlyIf, Expr.isTruthy_isSet_read, status]
  cases world.read target self.active.key == 0
  · exact (tally_advanceBody timed target target locals world).advanced timed world
  · exact tally_idle timed

theorem tally_finish (timed : self.isTimed) :
    self.Tally target (Block.traceAll target locals world self.finish) 0 0
      (if !((self.status world target).1 == 0) ∧
        Scalar.ofNat self.ticks ≤ (self.status world target).2 then 1 else 0) := by
  rw [finish_of_timed timed, Block.traceAll_cons, Block.traceAll_nil, List.append_nil,
    Stmt.trace_onlyIf, Expr.isTruthy_and, Expr.isTruthy_isSet_read, Expr.isTruthy_ge_read, status]
  simp only [Bool.and_eq_true, decide_eq_true_eq]
  split
  · exact (tally_finishBody timed target target locals world).finished timed world
  · exact tally_idle timed

include hosted

theorem status_advance (timed : self.isTimed) :
    self.status (Block.runAll target locals world self.advance) target =
      if (self.status world target).1 == 0 then self.status world target
      else ((self.status world target).1, (self.status world target).2 + 1) := by
  rw [advance_of_timed timed, Block.runAll_cons, Block.runAll_nil, Stmt.run_onlyIf,
    Expr.isTruthy_isSet_read]
  show _ = if world.read target self.active.key == 0 then _ else _
  cases world.read target self.active.key == 0
  · exact status_advanceBody hosted locals
  · rfl

theorem status_finish (timed : self.isTimed) :
    self.status (Block.runAll target locals world self.finish) target =
      if !((self.status world target).1 == 0) ∧
        Scalar.ofNat self.ticks ≤ (self.status world target).2
      then (0, (self.status world target).2) else self.status world target := by
  rw [finish_of_timed timed, Block.runAll_cons, Block.runAll_nil, Stmt.run_onlyIf,
    Expr.isTruthy_and, Expr.isTruthy_isSet_read, Expr.isTruthy_ge_read]
  simp only [Bool.and_eq_true, decide_eq_true_eq]
  show _ = if !(world.read target self.active.key == 0) ∧
    Scalar.ofNat self.ticks ≤ world.read target self.elapsed.key then _ else _
  split
  · exact status_finishBody hosted locals
  · rfl

end

end Instance

namespace Program.Layout

variable {rate : α} {scene : Scene α} {program : Program α} (layout : Layout rate scene program)
  {action : Instance α} (member : action ∈ instances rate scene)

/-! ### Enter -/

include layout member in
/-- In the enter phase every object only dispatches the action. -/
theorem onlyDispatched_enter {placed : ObjectProgram α} (isPlaced : placed ∈ program.objects) :
    action.OnlyDispatched placed.id placed.phases.enter := by
  obtain ⟨owned, parts, owns⟩ := layout.parts_of_mem isPlaced
  rw [parts]
  refine .append (.of_writesOnly (layout.writesOnly_once owns ?_ ?_ ?_ _)) ?_
  · simp [Instance.Spared, Instance.active, Instance.elapsed]
  · simp [Instance.Spared, Instance.active, Instance.elapsed]
  · exact Instance.spared_timeline
  · rcases owns with ⟨object, inScene, same⟩ | ⟨-, rfl⟩
    · obtain ⟨pieces, made, joined⟩ := layout.made _ inScene
      dsimp only at joined made
      rw [joined, Owned.enter_concat]
      refine .flatMap fun piece inPieces => ?_
      obtain ⟨source, -, number, madePiece⟩ := Lists.exists_of_mem_right made inPieces
      rw [same] at madePiece
      refine Instance.onlyDispatched_made madePiece fun other owned sameNumber => ?_
      refine layout.eq_of_number (layout.mem_instances inScene ?_) member sameNumber
      rw [joined, Owned.instances_concat]
      exact List.mem_flatMap.mpr ⟨piece, inPieces, owned⟩
    · exact .nil

/-! ### The other phases -/

section

variable {own : Instance α → Block α} {phase : Phase}
  (listed : ∀ placed ∈ program.objects, placed.phases.get phase =
    (targeting (instances rate scene) placed.id).flatMap own)
  (bounded : ∀ (other : Instance α) object,
    Block.WritesOnly (other.ScopeOn object) object (own other))

include listed bounded

/-- Where a phase is made of the actions' own blocks, no object writes on another one. -/
theorem not_writes_of_apart {target : String} {placed : ObjectProgram α}
    (isPlaced : placed ∈ program.objects) (apart : placed.id ≠ target) (key : String) :
    ¬(placed.duty phase).Writes target key := by
  intro writes
  rw [Duty.Writes, ObjectProgram.duty, listed placed isPlaced] at writes
  have bound : Block.WritesOnly (fun object _ => object = placed.id) placed.id
      ((targeting (instances rate scene) placed.id).flatMap own) :=
    Block.writesOnly_flatMap fun other _ => (bounded other placed.id).mono fun _ _ inside => inside.1
  obtain ⟨-, -, same⟩ := bound _ writes
  exact apart same.symm

/-- The action rests on a target where other objects have their turns. -/
theorem rests_beside (timed : action.isTimed) {target : String} {world : World α}
    (hosted : world.hosts target) {some : List (ObjectProgram α)}
    (apart : ∀ other ∈ some, other ∈ program.objects ∧ other.id ≠ target) :
    action.Rests target world (Agenda.trace (some.map (·.duty phase)) world)
      (Agenda.run (some.map (·.duty phase)) world) := by
  refine .of_agenda timed hosted fun duty inDuties key => ?_
  obtain ⟨other, inSome, rfl⟩ := List.mem_map.mp inDuties
  obtain ⟨inProgram, notTarget⟩ := apart other inSome
  exact not_writes_of_apart listed bounded inProgram notTarget key

omit listed in
/-- The action rests where the blocks of other actions run. -/
theorem rests_foreign (timed : action.isTimed) {target : String} {world : World α}
    (hosted : world.hosts target) {some : List (Instance α)}
    (others : ∀ other ∈ some, other.number ≠ action.number) (locals : Locals α) :
    action.Rests target world (Block.traceAll target locals world (some.flatMap own))
      (Block.runAll target locals world (some.flatMap own)) := by
  refine .of_block timed hosted (Block.writesOnly_flatMap fun other inSome =>
    (bounded other target).mono ?_) locals
  rintro object slot ⟨-, reached⟩ field rfl
  exact others other inSome (Instance.number_of_reaches reached)

include layout member

/-- A phase passes for the action on a target in three stretches. In the second one its own block
runs, and in the others it rests. -/
theorem exists_stretches (timed : action.isTimed) {target : String}
    (targeted : target ∈ action.targets) {world : World α} (hosted : world.hosts target) :
    ∃ locals found before after, found.hosts = world.hosts ∧
      (program.agenda phase).trace world =
        before ++ (Block.traceAll target locals found (own action) ++ after) ∧
      action.Rests target world before found ∧
      action.Rests target (Block.runAll target locals found (own action)) after
        ((program.agenda phase).run world) := by
  obtain ⟨placed, isPlaced, rfl⟩ := layout.exists_target member targeted
  obtain ⟨earlier, later, objects, apart⟩ := layout.exists_place isPlaced
  obtain ⟨before, after, split, others⟩ := layout.exists_turn member targeted
  have inProgram (other : ObjectProgram α) (inside : other ∈ earlier ∨ other ∈ later) :
      other ∈ program.objects := by
    rw [objects, List.mem_append, List.mem_cons]
    exact inside.imp_right .inr
  have block : placed.phases.get phase = before.flatMap own ++ (own action ++ after.flatMap own) := by
    rw [listed placed isPlaced, split, List.flatMap_append, List.flatMap_cons]
  -- The world in which the target's turn begins, and the one in which the action's own block does.
  let turn := Agenda.run (earlier.map (·.duty phase)) world
  let locals := (Block.thread placed.id [] turn (before.flatMap own)).1
  let found := Block.runAll placed.id [] turn (before.flatMap own)
  let locals' := (Block.thread placed.id locals found (own action)).1
  let left := Block.runAll placed.id locals found (own action)
  let closing := Block.runAll placed.id locals' left (after.flatMap own)
  have hostedTurn : turn.hosts placed.id := by rwa [Agenda.hosts_run]
  have hostedLeft : left.hosts placed.id := by rwa [Block.hosts_runAll, Block.hosts_runAll]
  have hostedClosing : closing.hosts placed.id := by rwa [Block.hosts_runAll]
  have runs : (program.agenda phase).run world = Agenda.run (later.map (·.duty phase)) closing := by
    rw [Program.agenda_eq objects, Agenda.run_append, Agenda.run_cons,
      ObjectProgram.run_duty hostedTurn, block, Block.runAll_append, Block.runAll_append]
  refine ⟨locals, found, Agenda.trace (earlier.map (·.duty phase)) world ++
    Block.traceAll placed.id [] turn (before.flatMap own),
    Block.traceAll placed.id locals' left (after.flatMap own) ++
      Agenda.trace (later.map (·.duty phase)) closing, ?_, ?_, ?_, ?_⟩
  · rw [Block.hosts_runAll, Agenda.hosts_run]
  · rw [Program.agenda_eq objects, Agenda.trace_append, Agenda.trace_cons,
      ObjectProgram.trace_duty hostedTurn, ObjectProgram.run_duty hostedTurn, block,
      Block.traceAll_append, Block.traceAll_append, Block.runAll_append, Block.runAll_append]
    simp only [List.append_assoc]
    rfl
  · exact (rests_beside listed bounded timed hosted
        fun other inside => ⟨inProgram other (.inl inside), apart other (.inl inside)⟩).append
      (rests_foreign bounded timed hostedTurn (fun other inside => others other (.inl inside)) [])
  · rw [runs]
    exact (rests_foreign bounded timed hostedLeft
        (fun other inside => others other (.inr inside)) locals').append
      (rests_beside listed bounded timed hostedClosing
        fun other inside => ⟨inProgram other (.inr inside), apart other (.inr inside)⟩)

/-- How a phase passes for the action on a target whose own block stands in it. Only that block
counts, and it finds flag and count as they were when the phase began. -/
theorem exists_own (timed : action.isTimed) {target : String} (targeted : target ∈ action.targets)
    {world : World α} (hosted : world.hosts target) :
    ∃ locals found, found.hosts = world.hosts ∧
      action.status found target = action.status world target ∧
      (∀ openings advances finishes,
        action.Tally target (Block.traceAll target locals found (own action))
          openings advances finishes →
        action.Tally target ((program.agenda phase).trace world) openings advances finishes) ∧
      action.status ((program.agenda phase).run world) target =
        action.status (Block.runAll target locals found (own action)) target := by
  obtain ⟨locals, found, before, after, hosts, trace, lead, rest⟩ :=
    layout.exists_stretches member listed bounded timed targeted hosted
  refine ⟨locals, found, hosts, lead.status_eq, fun openings advances finishes tally => ?_,
    rest.status_eq⟩
  rw [trace]
  simpa using lead.tally.append (tally.append rest.tally)

end

end Program.Layout

end Stagecraft
