/-
This file follows a slot through a frame of a timed action that leads it to a goal. The advance
phase brings it nearer by one step, and the exit phase of the last frame puts it at the goal. The
last step may lead beyond the goal, but it is taken in the frame that ends there. Numbers are exact
here, so nothing adds up on the way.
-/

import Mathlib
import Stagecraft.Proofs.Effect.Gliding
import Stagecraft.Proofs.Program.Beginnings
import Stagecraft.Proofs.Program.Snapshots

namespace Stagecraft

/-! ### Returns -/

section

variable {α : Type} [Trigonometric α] [Counting α]

theorem World.HasSnapshot.remembered {object : String} {snapshot : Channel → α} {world : World α}
    (held : HasSnapshot object snapshot world) (channel : Channel) :
    world.remembered object channel = snapshot channel := by
  rw [World.remembered, held.initialized, Counting.one_beq_zero, if_neg Bool.false_ne_true,
    held.captured]

omit [Counting α] in
/-- A channel that is left alone in a stretch of an enter phase has the same number in a snapshot
taken before as in one taken afterwards. -/
theorem Instance.Explains.snapshot_eq {action : Instance α} {target : String}
    {world last : World α} {events : List (Event α)}
    (explains : action.Explains target world events last) (hosted : world.hosts target)
    {channel : Channel}
    (unwritten : Trace.ledger target (Slot.channel channel).key events = []) :
    last.snapshot target channel = world.snapshot target channel := by
  rw [World.snapshot, World.snapshot, explains.read_of_nil hosted unwritten]
  by_cases isScalar : channel = .orientation .w
  · subst isScalar
    have parts (part : Part) : last.read target (Slot.orientation part).key =
        world.read target (Slot.orientation part).key :=
      explains.read_of_nil hosted (explains.turned unwritten part)
    simp only [parts]
  · rw [if_neg fun both => isScalar both.1, if_neg fun both => isScalar both.1]

namespace Program.Layout

variable {rate : α} {scene : Scene α} {program : Program α} (layout : Layout rate scene program)
  {action : Instance α} (member : action ∈ instances rate scene)
  (restores : action.effect = .restore) (timed : action.isTimed) {target : String}
  (targeted : target ∈ action.targets) (visits : Nat → List (Visit α))

include layout member timed

/-- Where an action begins before the first turn of its target, a channel that is left alone until
then is in the snapshot as the action found it. -/
theorem remembered_of_earlier {placed : ObjectProgram α} (isPlaced : placed ∈ program.objects)
    {world found : World α} (hosted : world.hosts placed.id)
    (fresh : world.read placed.id Slot.initialized.key = 0) {before after : List (Event α)}
    (split : (program.earlier placed.id).trace world =
      before ++ .entered placed.id action.opening found :: after) {channel : Channel}
    (unwritten : Trace.ledger placed.id (Slot.channel channel).key after = []) :
    found.remembered placed.id channel =
      ((program.earlier placed.id).run world).snapshot placed.id channel := by
  obtain ⟨earlier, later, objects, isEarlier, -⟩ := layout.exists_earlier isPlaced
  have inProgram : ∀ other ∈ earlier, other ∈ program.objects := fun other inside =>
    objects ▸ List.mem_append_left _ inside
  have passes := layout.explains_enter member timed inProgram placed.id world
  rw [← isEarlier] at passes
  obtain ⟨locals, rest, isAfter, upTo, through, onwards⟩ := passes.beginnings before found after split
  have way : action.Explains placed.id found (.entered placed.id action.opening found :: after)
      ((program.earlier placed.id).run world) := by
    rw [isAfter]
    exact Instance.Explains.composes.append through onwards
  have hostedFound : found.hosts placed.id := by rwa [upTo.hosts]
  have notSetUp : Trace.ledger placed.id Slot.initialized.key before = [] := by
    have silent := Trace.ledger_agenda (layout.not_writes_initialized isPlaced) world
    rw [split, Trace.ledger_append, List.append_eq_nil_iff] at silent
    exact silent.1
  have freshFound : found.read placed.id Slot.initialized.key = 0 := by
    rw [upTo.read_of_nil hosted notSetUp, fresh]
  rw [World.remembered, freshFound, Counting.zero_beq_zero, if_pos rfl,
    way.snapshot_eq hostedFound unwritten]

include restores targeted

/-- Wherever an action that restores begins after the first turn of its target, the target has its
snapshot. -/
theorem hasSnapshot_of_entered {earlier later : List (ObjectProgram α)}
    {placed : ObjectProgram α} (objects : program.objects = earlier ++ placed :: later)
    (isTarget : placed.id = target) {world found : World α} (hosted : world.hosts target)
    (fresh : world.read target Slot.initialized.key = 0)
    (entered : .entered target action.opening found ∈
      Agenda.trace (placed.duty .enter :: later.map (·.duty .enter)) world) :
    World.HasSnapshot target (world.snapshot target) found := by
  subst isTarget
  have isPlaced : placed ∈ program.objects := objects ▸ by simp
  have inProgram : ∀ other ∈ later, other ∈ program.objects := fun other inside =>
    objects ▸ List.mem_append_right _ (List.mem_cons_of_mem _ inside)
  obtain ⟨owned, owns, enter⟩ := layout.listed_enter isPlaced
  have taken := layout.hasSnapshot_once member restores owns targeted hosted fresh []
  have keeps : Block.Keeps (World.HasSnapshot placed.id (world.snapshot placed.id)) placed.id
      owned.enter := layout.keeps_owned owns
  rw [Agenda.trace_cons, ObjectProgram.trace_duty hosted, ObjectProgram.run_duty hosted, enter,
    Block.traceAll_append, Block.runAll_append, List.mem_append, List.mem_append] at entered
  rcases entered with (inSetup | inOwned) | inLater
  · have spared : Block.WritesOnly action.Spared placed.id (once
        (((targeting (instances rate scene) placed.id).map (·.setup)).eraseDups.flatten ++
          owned.setup)) :=
      layout.writesOnly_once owns (by simp [Instance.Spared, Instance.active, Instance.elapsed])
        (by simp [Instance.Spared, Instance.active, Instance.elapsed]) Instance.spared_timeline _
    have none := (Instance.tally_of_writesOnly timed spared placed.id [] world).openings
    exact absurd inSetup (Trace.entries_eq_zero.mp none found)
  · exact keeps.inside _ _ taken _ _ _ inOwned
  · exact Agenda.holds_of_entered (layout.keeps_duty inProgram .enter) (keeps.after _ _ taken)
      inLater

/-- Where an action that restores begins, the target will go back to the snapshot of its first turn,
also if this turn is still to come: a channel that is left alone from there on is then as it is
now. -/
theorem remembered_eq {frame : Nat} {before after : List (Event α)} {found : World α}
    {channel : Channel} :
    let run := Run.ofScene program scene visits
    (program.agenda .enter).trace (run.world frame) =
        before ++ .entered target action.opening found :: after →
      Trace.ledger target (Slot.channel channel).key after = [] →
      found.remembered target channel =
        ((program.earlier target).run (run.world 0)).snapshot target channel := by
  intro run split unwritten
  have entered : .entered target action.opening found ∈
      (program.agenda .enter).trace (run.world frame) := by simp [split]
  cases frame with
  | succ frame =>
    have held := run.hasSnapshot_world
      (layout.hasSnapshot_stage member restores targeted visits frame)
    exact (Agenda.holds_of_entered (layout.keeps_duty (fun _ => id) .enter) held
      entered).remembered channel
  | zero =>
    obtain ⟨placed, isPlaced, isTarget⟩ := layout.exists_target member targeted
    obtain ⟨earlier, later, objects, isEarlier, -⟩ := layout.exists_earlier isPlaced
    rw [isTarget] at isEarlier
    have hosted : (run.world 0).hosts target := layout.hosts_target_world member visits 0 targeted
    have fresh : (run.world 0).read target Slot.initialized.key = 0 := by
      rw [run.read_world Slot.initialized_inward]
      exact Stage.read_ofScene Slot.initialized_inward scene target
    rw [agenda_eq objects, Agenda.trace_append, ← isEarlier] at split
    rcases Lists.split_append split with ⟨tail, inEarlier, isAfter⟩ | ⟨between, -, inLater⟩
    · rw [isAfter, Trace.ledger_append, List.append_eq_nil_iff] at unwritten
      subst isTarget
      exact layout.remembered_of_earlier member timed isPlaced hosted fresh inEarlier unwritten.1
    · refine (layout.hasSnapshot_of_entered member restores timed targeted objects isTarget
        (by rwa [Agenda.hosts_run]) ?_ (by rw [inLater]; simp)).remembered channel
      subst isTarget
      rw [layout.read_initialized_earlier isPlaced, fresh]

end Program.Layout

end

/-! ### Phases -/

section

variable {α : Type} [Trigonometric α]

namespace Effect

omit [Trigonometric α] in
theorem Settles.not_isNote {effect : Effect α} {slot : Slot} (settles : effect.Settles slot)
    (number : Nat) : ¬slot.IsNote number := by
  rintro ⟨field, -, -, rfl⟩
  cases effect with
  | sound name volume =>
    rcases settles with same | ⟨-, same⟩ <;> cases same
  | _ => simp [Settles, Slot.visible, Slot.alpha, Slot.position, Slot.orientation] at settles

end Effect

namespace Instance

variable {self : Instance α} {this : String}

/-- As it advances, an action keeps its notes. -/
theorem unnoted_advance :
    Block.WritesOnly (fun _ slot => ¬slot.IsNote self.number) this self.advance := by
  rw [advance]
  split
  · rw [Block.writesOnly_onlyIf, Block.writesOnly_append, Block.writesOnly_write, phases,
      Effect.phases]
    have notNote : ¬(Slot.action self.number .elapsed).IsNote self.number := by
      rintro ⟨_, _, notElapsed, same⟩
      exact notElapsed (Slot.action.inj same).2.symm
    refine ⟨?_, notNote⟩
    split
    · exact Block.writesOnly_nil
    · exact Effect.writesOnly_advance (fun _ settles => settles.not_isNote _) _
  · exact Block.writesOnly_nil

theorem unnoted_finish :
    Block.WritesOnly (fun _ slot => ¬slot.IsNote self.number) this self.finish := by
  rw [finish]
  split
  · rw [Block.writesOnly_onlyIf, Block.writesOnly_append, Block.writesOnly_write, phases,
      Effect.phases]
    have notNote : ¬(Slot.action self.number .active).IsNote self.number := by
      rintro ⟨_, notActive, _, same⟩
      exact notActive (Slot.action.inj same).2.symm
    refine ⟨?_, notNote⟩
    split
    · exact Block.writesOnly_nil
    · exact Effect.writesOnly_settle (fun _ settles => settles.not_isNote _) _
  · exact Block.writesOnly_nil

variable (timed : self.isTimed) {target : String} {locals : Locals α} {world : World α}

include timed

/-- An action that goes on is advanced. -/
theorem advance_of_active [Counting α] (active : (self.status world target).1 = 1) :
    Block.traceAll target locals world self.advance =
        .entered target self.advanceBody world ::
          Block.traceAll target locals world self.advanceBody ∧
      Block.runAll target locals world self.advance =
        Block.runAll target locals world self.advanceBody := by
  have flag : (self.active.read.isSet.eval world target locals).isTruthy = true := by
    rw [Expr.isTruthy_isSet_read, show world.read target self.active.key = 1 from active,
      Counting.one_beq_zero, Bool.not_false]
  rw [advance_of_timed timed, Block.traceAll_cons, Block.traceAll_nil, List.append_nil,
    Stmt.trace_onlyIf, Block.runAll_cons, Block.runAll_nil, Stmt.run_onlyIf, flag]
  exact ⟨rfl, rfl⟩

/-- An action that has had its ticks is finished. -/
theorem finish_of_spent (spent : self.IsSpent (self.status world target)) :
    Block.traceAll target locals world self.finish =
        .entered target self.finishBody world ::
          Block.traceAll target locals world self.finishBody ∧
      Block.runAll target locals world self.finish =
        Block.runAll target locals world self.finishBody := by
  have flag : ((self.active.read.isSet.and
      (self.elapsed.read.ge (.num (Scalar.ofNat self.ticks)))).eval world target
        locals).isTruthy = true := by
    rw [Expr.isTruthy_and, Expr.isTruthy_isSet_read, Expr.isTruthy_ge_read, Bool.and_eq_true,
      decide_eq_true_eq]
    exact spent
  rw [finish_of_timed timed, Block.traceAll_cons, Block.traceAll_nil, List.append_nil,
    Stmt.trace_onlyIf, Block.runAll_cons, Block.runAll_nil, Stmt.run_onlyIf, flag]
  exact ⟨rfl, rfl⟩

end Instance

namespace Program.Layout

variable {rate : α} {scene : Scene α} {program : Program α} (layout : Layout rate scene program)
  {action : Instance α} (member : action ∈ instances rate scene)
  {own : Instance α → Block α} {phase : Phase}
  (listed : ∀ placed ∈ program.objects, placed.phases.get phase =
    (targeting (instances rate scene) placed.id).flatMap own)
  (bounded : ∀ (other : Instance α) object,
    Block.WritesOnly (other.ScopeOn object) object (own other))
  (timed : action.isTimed) {target : String} (targeted : target ∈ action.targets)
  {world : World α} (hosted : world.hosts target)

include layout member listed bounded timed targeted hosted

/-- A phase keeps the notes of an action whose own block does. -/
theorem sharesNotes_phase (unnoted : ∀ this,
      Block.WritesOnly (fun _ slot => ¬slot.IsNote action.number) this (own action)) :
    World.SharesNotes action.number target world ((program.agenda phase).run world) := by
  obtain ⟨locals, found, before, after, -, -, lead, rest⟩ :=
    layout.exists_stretches member listed bounded timed targeted hosted
  rintro slot ⟨field, notActive, notElapsed, rfl⟩
  have isNote : (Slot.action action.number field).IsNote action.number :=
    ⟨field, notActive, notElapsed, rfl⟩
  rw [rest.read_kept, (unnoted target).read_runAll (not_not_intro isNote), lead.read_kept]

/-- Where an action's own block writes a slot, and nothing else does in the phase, what holds of
what the block leaves there holds of what the phase leaves. -/
theorem read_phase_of_alone {slot : Slot} (holds : α → Prop)
    (own_writes : ∀ locals found, found.hosts target →
      action.status found target = action.status world target →
      Trace.ledger target slot.key (Block.traceAll target locals found (own action)) ≠ [])
    (own_leaves : ∀ locals found, found.hosts target →
      action.status found target = action.status world target →
      World.SharesNotes action.number target world found →
      found.read target slot.key = world.read target slot.key →
      Block.traceAll target locals found (own action) ⊆ (program.agenda phase).trace world →
      holds ((Block.runAll target locals found (own action)).read target slot.key)) :
    let written := Trace.ledger target slot.key ((program.agenda phase).trace world)
    1 ≤ written.length ∧
      (written.length ≤ 1 → holds (((program.agenda phase).run world).read target slot.key)) := by
  obtain ⟨locals, found, before, after, hosts, trace, lead, rest⟩ :=
    layout.exists_stretches member listed bounded timed targeted hosted
  have hostedFound : found.hosts target := by rwa [hosts]
  have writes := List.length_pos_of_ne_nil (own_writes locals found hostedFound lead.status_eq)
  intro written
  have length : written.length = (Trace.ledger target slot.key before).length +
      ((Trace.ledger target slot.key
        (Block.traceAll target locals found (own action))).length +
        (Trace.ledger target slot.key after).length) := by
    show (Trace.ledger _ _ _).length = _
    rw [trace, Trace.ledger_append, Trace.ledger_append, List.length_append, List.length_append]
  refine ⟨by omega, fun alone => ?_⟩
  have noneBefore : Trace.ledger target slot.key before = [] :=
    List.eq_nil_of_length_eq_zero (by omega)
  have noneAfter : Trace.ledger target slot.key after = [] :=
    List.eq_nil_of_length_eq_zero (by omega)
  rw [rest.read_of_nil noneAfter]
  refine own_leaves locals found hostedFound lead.status_eq ?_ (lead.read_of_nil noneBefore) ?_
  · rintro slot ⟨field, -, -, rfl⟩
    exact lead.read_kept field
  · rw [trace]
    exact List.subset_append_of_subset_right _ (List.subset_append_left _ _)

end Program.Layout

end

section

open Exact

variable {K : Type} [Field K] [LinearOrder K] [FloorRing K]

/-! ### Ticks -/

namespace Timing

variable {timing : Timing K}

theorem isInstant_of_isTimed (timed : timing.isTimed) : timing.isInstant = false := by
  have lasting : 0 < timing.duration := of_decide_eq_true timed
  exact decide_eq_false lasting.ne'

/-- Before its last tick a change has not had all its steps. -/
theorem lt_steps {passed : Nat} (running : passed < timing.ticks) :
    (passed : K) < timing.steps := by
  have below : passed < ⌈timing.steps⌉.toNat := running.trans_le (min_le_right _ _)
  have whole : (passed : ℤ) < ⌈timing.steps⌉ := Int.lt_toNat.mp below
  simpa using Int.lt_ceil.mp whole

theorem ticks_pos (moving : 0 < timing.steps) : 0 < timing.ticks := by
  have positive : 0 < ⌈timing.steps⌉ := Int.ceil_pos.mpr moving
  exact lt_min (by decide) (Int.lt_toNat.mpr positive)

end Timing

/-! ### Frames -/

variable [Angles K]

theorem Instance.phases_of_timed {self : Instance K} (timed : self.isTimed) : self.phases =
    ⟨self.effect.start self.number self.timing.steps,
      self.effect.advance self.number self.timing.steps, self.effect.settle self.number⟩ := by
  rw [phases, Effect.phases, Timing.isInstant_of_isTimed timed]
  rfl

/-- What is done in a frame after the enter phase. -/
def Program.later (program : Program K) : Agenda K :=
  program.agenda .advance ++ program.agenda .exit

theorem Program.run_frame (program : Program K) (world : World K) :
    program.frame.run world = program.later.run ((program.agenda .enter).run world) := by
  rw [frame_eq, Agenda.run_append, later]

theorem Program.trace_frame (program : Program K) (world : World K) :
    program.frame.trace world = (program.agenda .enter).trace world ++
      program.later.trace ((program.agenda .enter).run world) := by
  rw [frame_eq, Agenda.trace_append, later]

/-- A slot of a target is written no more often than the action writes it itself, once as it
advances and once as it finishes. -/
def Instance.WritesAlone (action : Instance K) (target : String) (slot : Slot)
    (events : List (Event K)) : Prop :=
  (Trace.ledger target slot.key events).length ≤
    Trace.entries target action.advanceBody events + Trace.entries target action.finishBody events

/-- Where an action returns, it finds the goal of a channel in the snapshot as it finishes. -/
def Instance.Recalls (action : Instance K) (target : String) (slot : Slot) (goal : K)
    (events : List (Event K)) : Prop :=
  ∀ channel, action.effect = .restore → slot = .channel channel →
    ∀ found, .entered target action.finishBody found ∈ events →
      found.read target (Slot.captured channel).key = goal

/-- So many ticks of an action have passed on a target since it began, and it keeps its notes. -/
structure Instance.IsUnderway (action : Instance K) (target : String) (begun : World K)
    (passed : Nat) (world : World K) : Prop where
  hosted : world.hosts target
  status : action.status world target = (1, (passed : K))
  shared : World.SharesNotes action.number target begun world

/-- Where nothing of its state changes, the action stays under way. -/
theorem Instance.IsUnderway.of_kept {action : Instance K} {target : String}
    {begun world last : World K} {passed : Nat}
    (underway : action.IsUnderway target begun passed world) (hosts : last.hosts = world.hosts)
    (kept : ∀ field, last.read target (Slot.action action.number field).key =
      world.read target (Slot.action action.number field).key) :
    action.IsUnderway target begun passed last where
  hosted := by
    rw [hosts]
    exact underway.hosted
  status := by
    rw [← underway.status]
    exact Prod.ext (kept .active) (kept .elapsed)
  shared := by
    rintro slot ⟨field, notActive, notElapsed, rfl⟩
    rw [kept, underway.shared _ ⟨field, notActive, notElapsed, rfl⟩]

variable [IsStrictOrderedRing K]

theorem Instance.isSpent_iff_ticks {action : Instance K} {passed : Nat}
    (running : passed ≤ action.ticks) :
    action.IsSpent (1, (passed : K)) ↔ passed = action.ticks := by
  rw [IsSpent, Counting.one_beq_zero, Bool.not_false, ofNat_eq, Nat.cast_le, eq_self, true_and]
  omega

namespace Program.Layout

variable {rate : K} {scene : Scene K} {program : Program K} (layout : Layout rate scene program)
  {action : Instance K} (member : action ∈ instances rate scene) (timed : action.isTimed)
  {target : String} (targeted : target ∈ action.targets)

include layout member timed targeted

section

variable {origin begun world : World K} {passed : Nat}
  (underway : action.IsUnderway target begun passed world) (running : passed < action.ticks)

include underway

/-- The advance phase counts one more tick. -/
theorem underway_advance :
    action.Tally target ((program.agenda .advance).trace world) 0 1 0 ∧
      action.IsUnderway target begun (passed + 1) ((program.agenda .advance).run world) := by
  obtain ⟨tally, status⟩ := layout.advance_phase member timed targeted underway.hosted
  rw [underway.status, Counting.one_beq_zero] at tally
  rw [underway.status, Instance.advanced, Counting.one_beq_zero] at status
  have notes := layout.sharesNotes_phase member (fun _ => layout.listed_advance)
    (fun _ _ => Instance.writesOnly_advance) timed targeted underway.hosted
    fun _ => Instance.unnoted_advance
  refine ⟨tally, ?_, ?_, underway.shared.trans notes⟩
  · rw [Agenda.hosts_run]
    exact underway.hosted
  · rw [status, Nat.cast_succ]
    rfl

/-- The exit phase finishes the action once it has had its ticks. -/
theorem underway_exit (running : passed ≤ action.ticks) :
    action.Tally target ((program.agenda .exit).trace world) 0 0
        (if passed = action.ticks then 1 else 0) ∧
      (passed < action.ticks →
        action.IsUnderway target begun passed ((program.agenda .exit).run world)) := by
  obtain ⟨tally, status⟩ := layout.exit_phase member timed targeted underway.hosted
  simp only [underway.status, Instance.isSpent_iff_ticks running] at tally
  have notes := layout.sharesNotes_phase member (fun _ => layout.listed_exit)
    (fun _ _ => Instance.writesOnly_finish) timed targeted underway.hosted
    fun _ => Instance.unnoted_finish
  refine ⟨tally, fun further => ⟨?_, ?_, underway.shared.trans notes⟩⟩
  · rw [Agenda.hosts_run]
    exact underway.hosted
  · rw [status, underway.status, Instance.finished,
      if_neg (mt (Instance.isSpent_iff_ticks running).mp further.ne)]

variable {slot : Slot} {goal : K} (leads : action.effect.Leads origin target slot goal)
  (hosted : origin.hosts target) {locals : Locals K}
  (isBegun : begun = Block.runAll target locals origin
    (action.effect.start action.number action.timing.steps))

include leads hosted isBegun

/-- In the advance phase the slot comes nearer to the goal by one step. -/
theorem read_advance_phase :
    let written := Trace.ledger target slot.key ((program.agenda .advance).trace world)
    1 ≤ written.length ∧ (written.length ≤ 1 →
      ((program.agenda .advance).run world).read target slot.key =
        world.read target slot.key +
          (goal - origin.read target slot.key) / action.timing.steps) := by
  have active {found : World K} (same : action.status found target = action.status world target) :
      (action.status found target).1 = 1 := by rw [same, underway.status]
  refine layout.read_phase_of_alone member (fun _ => layout.listed_advance)
    (fun _ _ => Instance.writesOnly_advance) timed targeted underway.hosted (· = _)
    (fun locals' found _ same => ?_) fun locals' found hostedFound same notes kept _ => ?_
  · obtain ⟨value, writes⟩ := leads.exists_write_advance action.number action.timing.steps
    have inBody : slot.write value ∈ action.advanceBody := by
      rw [Instance.advanceBody, Instance.phases_of_timed timed]
      exact List.mem_append_left _ writes
    rw [(Instance.advance_of_active timed (active same)).1, Trace.ledger_cons_entered]
    exact Trace.ledger_ne_nil inBody locals' found
  · have shared := underway.shared.trans notes
    have apart : action.elapsed.key ≠ slot.key := fun clash =>
      leads.ne_action action.number .elapsed (Slot.key_injective clash).symm
    rw [(Instance.advance_of_active timed (active same)).2, Instance.advanceBody,
      Instance.phases_of_timed timed, Block.runAll_append, Block.runAll_cons, Block.runAll_nil,
      Slot.run_write, World.read_write, if_neg fun clash => apart clash.2.2, ← kept]
    rw [isBegun] at shared
    exact leads.read_advance hosted hostedFound shared

/-- In the exit phase of the last frame the slot is put at the goal. -/
theorem read_exit_phase (ended : passed = action.ticks) :
    let written := Trace.ledger target slot.key ((program.agenda .exit).trace world)
    1 ≤ written.length ∧ (written.length ≤ 1 →
      action.Recalls target slot goal ((program.agenda .exit).trace world) →
      ((program.agenda .exit).run world).read target slot.key = goal) := by
  have spent {found : World K} (same : action.status found target = action.status world target) :
      action.IsSpent (action.status found target) := by
    rw [same, underway.status]
    exact (Instance.isSpent_iff_ticks ended.le).mpr ended
  refine layout.read_phase_of_alone member (fun _ => layout.listed_exit)
    (fun _ _ => Instance.writesOnly_finish) timed targeted underway.hosted
    (fun value => _ → value = goal) (fun locals' found _ same => ?_)
    fun locals' found hostedFound same notes _ inside recalls => ?_
  · obtain ⟨value, writes⟩ := leads.exists_write_settle action.number
    have inBody : slot.write value ∈ action.finishBody := by
      rw [Instance.finishBody, Instance.phases_of_timed timed]
      exact List.mem_append_left _ writes
    rw [(Instance.finish_of_spent timed (spent same)).1, Trace.ledger_cons_entered]
    exact Trace.ledger_ne_nil inBody locals' found
  · have shared := underway.shared.trans notes
    have apart : action.active.key ≠ slot.key := fun clash =>
      leads.ne_action action.number .active (Slot.key_injective clash).symm
    rw [(Instance.finish_of_spent timed (spent same)).1] at inside
    rw [(Instance.finish_of_spent timed (spent same)).2, Instance.finishBody,
      Instance.phases_of_timed timed, Block.runAll_append, Block.runAll_cons, Block.runAll_nil,
      Slot.run_write, World.read_write, if_neg fun clash => apart clash.2.2]
    rw [isBegun] at shared
    exact leads.read_settle hosted hostedFound shared fun channel restores isChannel =>
      recalls channel restores isChannel found (inside List.mem_cons_self)

/-- After the enter phase, a frame brings the slot nearer by one step, or puts it at the goal if it
is the last one. -/
theorem later_of_alone (running : passed < action.ticks) {lead : List (Event K)}
    (recalls : Trace.ledger target slot.key lead = [] → action.Recalls target slot goal
      ((program.agenda .exit).trace ((program.agenda .advance).run world)))
    (quiet : Trace.entries target action.advanceBody lead = 0 ∧
      Trace.entries target action.finishBody lead = 0)
    (alone : action.WritesAlone target slot (lead ++ program.later.trace world)) :
    Trace.ledger target slot.key lead = [] ∧
      (passed + 1 < action.ticks →
        action.IsUnderway target begun (passed + 1) (program.later.run world) ∧
        (program.later.run world).read target slot.key = world.read target slot.key +
          (goal - origin.read target slot.key) / action.timing.steps) ∧
      (passed + 1 = action.ticks → (program.later.run world).read target slot.key = goal) := by
  obtain ⟨tallyAdvance, advanced⟩ := layout.underway_advance member timed targeted underway
  obtain ⟨tallyExit, exited⟩ := layout.underway_exit member timed targeted advanced running
  obtain ⟨stepWritten, step⟩ :=
    layout.read_advance_phase member timed targeted underway leads hosted isBegun
  have ending (last : passed + 1 = action.ticks) :=
    layout.read_exit_phase member timed targeted advanced leads hosted isBegun last
  rw [Instance.WritesAlone, Program.later, Agenda.trace_append] at alone
  simp only [Trace.ledger_append, Trace.entries_append, List.length_append, quiet,
    tallyAdvance.advances, tallyAdvance.finishes, tallyExit.advances, tallyExit.finishes] at alone
  rw [Program.later, Agenda.run_append]
  rcases Nat.lt_or_eq_of_le (Nat.succ_le_of_lt running) with further | last
  · rw [if_neg further.ne] at alone
    refine ⟨List.eq_nil_of_length_eq_zero (by omega), fun _ => ⟨exited further, ?_⟩,
      fun last => absurd last further.ne⟩
    have still : Trace.ledger target slot.key
        ((program.agenda .exit).trace ((program.agenda .advance).run world)) = [] :=
      List.eq_nil_of_length_eq_zero (by omega)
    rw [Agenda.read_run_eq _ advanced.hosted, still]
    exact step (by omega)
  · rw [if_pos last] at alone
    obtain ⟨endWritten, atGoal⟩ := ending last
    have unwritten : Trace.ledger target slot.key lead = [] :=
      List.eq_nil_of_length_eq_zero (by omega)
    exact ⟨unwritten, fun further => absurd last further.ne,
      fun _ => atGoal (by omega) (recalls unwritten)⟩

end

/-! ### Enter phases -/

omit [IsStrictOrderedRing K] targeted in
/-- Where the action does not begin anew, an enter phase does nothing to it. -/
theorem underway_enter {begun world : World K} {passed : Nat}
    (underway : action.IsUnderway target begun passed world)
    (unopened : Trace.entries target action.opening ((program.agenda .enter).trace world) = 0) :
    action.IsUnderway target begun passed ((program.agenda .enter).run world) := by
  have explains := (layout.explains_enter member timed (fun _ => id) target world).whole
  exact underway.of_kept (Agenda.hosts_run _ _) fun field =>
    explains.read_of_nil underway.hosted (explains.kept unopened field)

omit [IsStrictOrderedRing K] in
/-- In an enter phase the action is neither advanced nor finished. -/
theorem quiet_enter {world : World K} (hosted : ∀ target ∈ action.targets, world.hosts target) :
    Trace.entries target action.advanceBody ((program.agenda .enter).trace world) = 0 ∧
      Trace.entries target action.finishBody ((program.agenda .enter).trace world) = 0 := by
  have only : ∀ duty ∈ program.agenda .enter, action.OnlyDispatched duty.object duty.block := by
    intro duty inEnter
    obtain ⟨placed, isPlaced, rfl⟩ := Program.mem_agenda.mp inEnter
    exact layout.onlyDispatched_enter member isPlaced
  obtain ⟨count, stretch⟩ := Instance.exists_stretch_agenda timed
    (layout.numbered.nodup action member) only world hosted
  exact ⟨(stretch.tally target targeted).advances, (stretch.tally target targeted).finishes⟩

omit [IsStrictOrderedRing K] in
/-- In a frame an action begins in the enter phase. -/
theorem begins_enter {world found : World K} (hosted : world.hosts target)
    {before after : List (Event K)}
    (begins : program.frame.trace world = before ++ .entered target action.opening found :: after) :
    ∃ lead, (program.agenda .enter).trace world =
        before ++ .entered target action.opening found :: lead ∧
      after = lead ++ program.later.trace ((program.agenda .enter).run world) := by
  have hostedAdvance : ((program.agenda .enter).run world).hosts target := by
    rwa [Agenda.hosts_run]
  have hostedExit : ((program.agenda .advance).run
      ((program.agenda .enter).run world)).hosts target := by
    rwa [Agenda.hosts_run]
  have unopened : Trace.entries target action.opening
      (program.later.trace ((program.agenda .enter).run world)) = 0 := by
    rw [Program.later, Agenda.trace_append, Trace.entries_append,
      (layout.advance_phase member timed targeted hostedAdvance).1.openings,
      (layout.exit_phase member timed targeted hostedExit).1.openings]
  rw [Program.trace_frame] at begins
  rcases Lists.split_append begins with ⟨lead, inEnter, isAfter⟩ | ⟨between, -, inLater⟩
  · exact ⟨lead, inEnter, isAfter⟩
  · refine absurd ?_ (Trace.entries_eq_zero.mp unopened found)
    rw [inLater]
    exact List.mem_append_right _ List.mem_cons_self

omit [IsStrictOrderedRing K] targeted in
/-- After the last beginning in an enter phase the action is under way, and a slot that is left
alone is as it was found. -/
theorem underway_begun {world found : World K} (hosted : world.hosts target)
    {before after : List (Event K)}
    (split : (program.agenda .enter).trace world =
      before ++ .entered target action.opening found :: after)
    (unopened : Trace.entries target action.opening after = 0) :
    found.hosts target ∧
      (∃ locals, action.IsUnderway target (Block.runAll target locals found
        (action.effect.start action.number action.timing.steps)) 0
        ((program.agenda .enter).run world)) ∧
      ∀ key, Trace.ledger target key after = [] →
        ((program.agenda .enter).run world).read target key = found.read target key := by
  obtain ⟨locals, rest, isAfter, upTo, through, onwards⟩ :=
    (layout.explains_enter member timed (fun _ => id) target world).beginnings before found after
      split
  have hostedFound : found.hosts target := by rwa [upTo.hosts]
  have hostedBegun : (Block.runAll target locals found action.opening).hosts target := by
    rwa [Block.hosts_runAll]
  have unopenedRest : Trace.entries target action.opening rest = 0 := by
    rw [isAfter, Trace.entries_append, Nat.add_eq_zero_iff] at unopened
    exact unopened.2
  have underway : action.IsUnderway target (Block.runAll target locals found
      (action.effect.start action.number action.timing.steps)) 0
      (Block.runAll target locals found action.opening) := by
    refine ⟨hostedBegun, ?_, ?_⟩
    · rw [Nat.cast_zero]
      exact Instance.status_opening timed hostedFound locals
    · rintro slot ⟨field, notActive, notElapsed, rfl⟩
      rw [Instance.opening, if_pos timed, Instance.phases_of_timed timed, Block.runAll_append]
      simp [World.read_write, Instance.active, Instance.elapsed, Slot.key_inj, notActive.symm,
        notElapsed.symm]
  refine ⟨hostedFound, ⟨locals, underway.of_kept onwards.hosts fun field =>
    onwards.read_of_nil hostedBegun (onwards.kept unopenedRest field)⟩, fun key unwritten => ?_⟩
  refine (Instance.Explains.composes.append through onwards).read_of_nil hostedFound ?_
  rw [List.cons_append, ← isAfter, Trace.ledger_cons_entered, unwritten]

end Program.Layout

end

end Stagecraft
