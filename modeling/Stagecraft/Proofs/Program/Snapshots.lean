/-
This file shows what a restored object goes back to. An object takes its snapshot at its own turn in
the first frame, before its own logic but after that of the objects before it, and the snapshot
stays for ever. If none of those objects opens an action on it, it goes back to how the first frame
found it; otherwise it goes back to what they left.
-/

import Stagecraft.Proofs.Effect.Snapshots
import Stagecraft.Proofs.Action.Handing
import Stagecraft.Proofs.Program.Changes

namespace Stagecraft

variable {α : Type} [Trigonometric α]

/-! ### Before the turn of an object -/

/-- What is done in the enter phase before the turn of an object. -/
def Program.earlier (program : Program α) (object : String) : Agenda α :=
  (program.objects.takeWhile (·.id != object)).map (·.duty .enter)

/-- The world in which the exit phase of a frame begins. -/
def Run.exiting (run : Run α) (frame : Nat) : World α :=
  (run.program.agenda .advance).run ((run.program.agenda .enter).run (run.world frame))

/-- Logic that keeps track of its sources and opens actions keeps what the openings keep, if it does
not concern the sources. -/
theorem Block.Opens.keeps {holds : World α → Prop} {actions : List (Instance α)}
    {own : Slot → Prop} {this : String}
    (ignores : World.Ignores holds fun object slot => object = this ∧ own slot)
    (openings : ∀ action ∈ actions, ∀ target ∈ action.targets, Keeps holds target action.opening)
    {block : Block α} (opens : Opens actions own this block) : Keeps holds this block := by
  induction opens with
  | nil => exact keeps_nil
  | plain stmt rest bounded _ inductionHypothesis =>
    exact keeps_cons (keeps_of_writesOnly ignores bounded) inductionHypothesis
  | branch condition yes no rest _ _ _ inYes inNo inductionHypothesis =>
    exact keeps_cons (keeps_branch inYes inNo) inductionHypothesis
  | opening action target rest member targeted _ inductionHypothesis =>
    exact keeps_cons (keeps_within (openings action member target targeted)) inductionHypothesis

theorem Slot.initialized_inward : ¬Slot.initialized.IsOutward := id

theorem Slot.captured_inward (channel : Channel) : ¬(captured channel).IsOutward := id

/-- Where an object faces is none of its channels. -/
theorem Stage.read_face_channel (stage : Stage α) (forward : Quaternion α → Vec α)
    (object : String) (channel : Channel) :
    (stage.face forward).read object (Slot.channel channel).key =
      stage.world.read object (Slot.channel channel).key := by
  refine World.read_foldl (fun world id => World.read_foldl (fun world axis => ?_) _ world) _ _
  rw [World.read_write, if_neg]
  rintro ⟨-, -, same⟩
  cases Slot.key_injective same

namespace Run

variable (run : Run α) {frame : Nat} {object : String} {snapshot : Channel → α}

/-- Between two frames nothing reaches a snapshot. -/
theorem hasSnapshot_world (held : World.HasSnapshot object snapshot (run.stage frame).world) :
    World.HasSnapshot object snapshot (run.world frame) where
  hosted := by
    rw [hosts_world, ← run.hosts_stage frame]
    exact held.hosted
  initialized := (run.read_world Slot.initialized_inward frame object).trans held.initialized
  captured channel :=
    (run.read_world (Slot.captured_inward channel) frame object).trans (held.captured channel)

theorem hasSnapshot_stage_succ
    (held : World.HasSnapshot object snapshot (run.program.frame.run (run.world frame))) :
    World.HasSnapshot object snapshot (run.stage (frame + 1)).world where
  hosted := by
    rw [hosts_stage, ← run.hosts_world frame, ← Agenda.hosts_run run.program.frame]
    exact held.hosted
  initialized := (run.read_stage_succ Slot.initialized_inward frame object).trans held.initialized
  captured channel :=
    (run.read_stage_succ (Slot.captured_inward channel) frame object).trans (held.captured channel)

end Run

namespace Program.Layout

variable {rate : α} {scene : Scene α} {program : Program α} (layout : Layout rate scene program)

include layout

theorem exists_earlier {placed : ObjectProgram α} (isPlaced : placed ∈ program.objects) :
    ∃ before later, program.objects = before ++ placed :: later ∧
      program.earlier placed.id = before.map (·.duty .enter) ∧
      ∀ other ∈ before, other.id ≠ placed.id := by
  obtain ⟨before, later, objects, apart⟩ := layout.exists_place isPlaced
  have others : ∀ other ∈ before, (other.id != placed.id) = true := fun other inside => by
    simpa using apart other (.inl inside)
  refine ⟨before, later, objects, ?_, fun other inside => apart other (.inl inside)⟩
  rw [earlier, objects, Lists.takeWhile_append others (by simp)]

/-! ### The first turn -/

section

variable {placed : ObjectProgram α} (isPlaced : placed ∈ program.objects)

include isPlaced

/-- Nothing before its turn sets an object up. -/
theorem not_writes_initialized :
    ∀ duty ∈ program.earlier placed.id, ¬duty.Writes placed.id Slot.initialized.key := by
  obtain ⟨before, later, objects, isEarlier, apart⟩ := layout.exists_earlier isPlaced
  rw [isEarlier]
  intro duty inDuties
  obtain ⟨other, inBefore, rfl⟩ := List.mem_map.mp inDuties
  have isOther : other ∈ program.objects := objects ▸ List.mem_append_left _ inBefore
  have bounded : Block.WritesOnly (fun object slot => object = other.id ∨ slot ≠ .initialized)
      other.id other.phases.enter := by
    refine layout.writesOnly_enter isOther (fun _ => .inl rfl) fun action _ this => ?_
    refine (action.writesOnly_dispatch this).mono fun object slot inside => .inr ?_
    rintro rfl
    exact Instance.not_reaches_initialized inside.2
  exact bounded.notMem (by simpa using (apart other inBefore).symm)

theorem read_initialized_earlier (world : World α) :
    ((program.earlier placed.id).run world).read placed.id Slot.initialized.key =
      world.read placed.id Slot.initialized.key :=
  Agenda.read_run (layout.not_writes_initialized isPlaced) world

/-- Where nothing before its turn opens an action on an object, its channels are left alone. -/
theorem read_channel_earlier {world : World α} (hosted : world.hosts placed.id)
    (unopened : ∀ action ∈ instances rate scene, placed.id ∈ action.targets →
      Trace.entries placed.id action.opening ((program.earlier placed.id).trace world) = 0)
    (channel : Channel) :
    ((program.earlier placed.id).run world).read placed.id (Slot.channel channel).key =
      world.read placed.id (Slot.channel channel).key := by
  obtain ⟨before, later, objects, isEarlier, -⟩ := layout.exists_earlier isPlaced
  have inProgram : ∀ other ∈ before, other ∈ program.objects :=
    fun other inside => objects ▸ List.mem_append_left _ inside
  have silent : ∀ value, .wrote placed.id (Slot.channel channel).key value ∉
      (program.earlier placed.id).trace world := by
    intro value wrote
    rw [isEarlier] at wrote unopened
    rcases layout.exists_of_wrote_enter inProgram wrote with
      ⟨slot, same, kept⟩ | ⟨action, member, targeted, -, found, entered⟩
    · rw [← Slot.key_injective same] at kept
      cases kept
    · exact Trace.entries_eq_zero.mp (unopened action member targeted) found entered
  rw [Agenda.read_run_eq _ hosted, Trace.ledger_eq_nil.mpr silent]
  rfl

end

variable [Counting α] {action : Instance α} (member : action ∈ instances rate scene)
  (restores : action.effect = .restore)

include member restores

/-- In its first frame an object on which an action restores takes its snapshot. -/
theorem hasSnapshot_once {id : String} {owned : Owned α} (owns : layout.Owns id owned)
    (targeted : id ∈ action.targets) {world : World α} (hosted : world.hosts id)
    (fresh : world.read id Slot.initialized.key = 0) (locals : Locals α) :
    World.HasSnapshot id (world.snapshot id) (Block.runAll id locals world
      (once (((targeting (instances rate scene) id).map (·.setup)).eraseDups.flatten ++
        owned.setup))) := by
  have aimed : action ∈ targeting (instances rate scene) id :=
    List.mem_filter.mpr ⟨member, by simpa using targeted⟩
  obtain ⟨setups, isSetups⟩ : ∃ setups,
      ((targeting (instances rate scene) id).map (·.setup)).eraseDups = setups := ⟨_, rfl⟩
  have each : ∀ setup ∈ (targeting (instances rate scene) id).map (·.setup),
      setup = Effect.capture ∨ setup = [] := by
    intro setup inSetups
    obtain ⟨other, -, rfl⟩ := List.mem_map.mp inSetups
    rw [Instance.setup]
    cases other.effect with
    | restore => exact .inl rfl
    | _ => exact .inr rfl
  have taken : Effect.capture ∈ setups := by
    have isCapture : action.setup = Effect.capture := by
      rw [Instance.setup, restores]
      rfl
    rw [← isSetups, ← isCapture]
    refine Lists.mem_eraseDups_of_apart (List.mem_map_of_mem aimed) fun other inSetups alike => ?_
    rcases each other inSetups with rfl | rfl
    · exact isCapture.symm
    · rw [isCapture] at alike
      cases alike
  have notIdle : Block.isIdle (setups.flatten ++ owned.setup) = false := by
    have inCapture : (Slot.captured .alpha).write Slot.alpha.read ∈ (Effect.capture : Block α) :=
      List.mem_append_left _ List.mem_cons_self
    have inSetups := List.mem_append_left owned.setup (List.mem_flatten.mpr ⟨_, taken, inCapture⟩)
    rw [Block.isIdle, Block.isEffective_of_mem inSetups rfl, Bool.not_true]
  have isFirst : ((Slot.initialized.read.equals (.num 0)).eval world id locals).isTruthy = true := by
    rw [Expr.isTruthy_equals_read, fresh, Counting.zero_beq_zero]
  have own : Block.WritesOnly (fun _ slot => ¬slot.IsSnapshot) id owned.setup :=
    layout.writesOnly_ownSetup owns fun _ _ inSnapshot => inSnapshot
  rw [isSetups, once, notIdle, if_neg Bool.false_ne_true, Block.runAll_cons, Block.runAll_nil,
    Stmt.run_onlyIf, isFirst, if_pos rfl, Block.runAll_append, Block.runAll_cons, Block.runAll_nil,
    Slot.run_write]
  refine ⟨by simpa using hosted, ?_, fun channel => ?_⟩
  · rw [World.read_write, if_pos ⟨by simpa using hosted, rfl, rfl⟩]
    simp [Value.number]
  · have inSnapshot (channel : Channel) : (Slot.captured channel).IsSnapshot := trivial
    have different : Slot.initialized.key ≠ (Slot.captured channel).key := fun same => by
      cases Slot.key_injective same
    rw [World.read_write, if_neg fun same => different same.2.2, Block.runAll_append,
      own.read_runAll fun outside => outside (inSnapshot channel)]
    refine Effect.read_setups hosted _ (fun setup inSetups => each setup ?_) (.inl taken) channel
    exact Lists.mem_of_mem_eraseDups (isSetups ▸ inSetups)

omit member restores

/-! ### Frames -/

section

variable {object : String} {snapshot : Channel → α}

/-- The logic of an object, apart from its setup, leaves snapshots that have been taken as they
are. -/
theorem keeps_owned {owner : String} {owned : Owned α} (owns : layout.Owns owner owned) :
    Block.Keeps (World.HasSnapshot object snapshot) owner owned.enter := by
  refine (layout.opens_owned owns fun _ _ keeps => keeps.isTracked).keeps (World.ignores_hasSnapshot ?_)
    fun _ _ _ _ => Instance.keeps_opening
  rintro slot inSnapshot ⟨-, tracked⟩
  cases slot with
  | initialized => cases tracked
  | captured => cases tracked
  | _ => cases inSnapshot

/-- Once an object has been set up, no phase of any object changes its snapshot. -/
theorem keeps_phase {placed : ObjectProgram α} (isPlaced : placed ∈ program.objects)
    (phase : Phase) :
    Block.Keeps (World.HasSnapshot object snapshot) placed.id (placed.phases.get phase) := by
  cases phase with
  | enter =>
    obtain ⟨owned, owns, enter⟩ := layout.listed_enter isPlaced
    rw [enter]
    refine Block.keeps_append ?_ (layout.keeps_owned owns)
    by_cases same : placed.id = object
    · rw [once]
      split
      · exact Block.keeps_nil
      · refine Block.keeps_shut fun locals world held => ?_
        rw [Expr.isTruthy_equals_read, same, held.initialized, Counting.one_beq_zero]
    · have bounded : Block.WritesOnly (fun other _ => other = placed.id) placed.id (once
          (((targeting (instances rate scene) placed.id).map (·.setup)).eraseDups.flatten ++
            owned.setup)) := layout.writesOnly_once owns rfl (fun _ => rfl) (fun _ _ => rfl) _
      exact Block.keeps_of_writesOnly
        (World.ignores_hasSnapshot fun _ _ isOther => same isOther.symm) bounded
  | advance =>
    rw [layout.listed_advance isPlaced]
    exact Block.keeps_flatMap fun _ _ => Instance.keeps_advance
  | exit =>
    rw [layout.listed_exit isPlaced]
    exact Block.keeps_flatMap fun _ _ => Instance.keeps_finish

theorem keeps_duty {part : List (ObjectProgram α)}
    (inProgram : ∀ placed ∈ part, placed ∈ program.objects) (phase : Phase) :
    ∀ duty ∈ part.map (·.duty phase),
      Block.Keeps (World.HasSnapshot object snapshot) duty.object duty.block := by
  intro duty inDuties
  obtain ⟨placed, inPart, rfl⟩ := List.mem_map.mp inDuties
  exact layout.keeps_phase (inProgram placed inPart) phase

theorem keeps_frame : ∀ duty ∈ program.frame,
    Block.Keeps (World.HasSnapshot object snapshot) duty.object duty.block := by
  intro duty inFrame
  obtain ⟨phase, -, inPhase⟩ := List.mem_flatMap.mp inFrame
  exact layout.keeps_duty (fun _ => id) phase duty inPhase

end

include member restores

/-- After the first enter phase an object on which an action restores has the snapshot that it took
at its turn. -/
theorem hasSnapshot_enter {target : String} (targeted : target ∈ action.targets) {world : World α}
    (hosted : world.hosts target) (fresh : world.read target Slot.initialized.key = 0) :
    World.HasSnapshot target (((program.earlier target).run world).snapshot target)
      ((program.agenda .enter).run world) := by
  obtain ⟨placed, isPlaced, rfl⟩ := layout.exists_target member targeted
  obtain ⟨before, later, objects, isEarlier, -⟩ := layout.exists_earlier isPlaced
  have inProgram : ∀ other ∈ later, other ∈ program.objects := fun other inside =>
    objects ▸ List.mem_append_right _ (List.mem_cons_of_mem _ inside)
  have hostedTurn : ((program.earlier placed.id).run world).hosts placed.id := by
    rwa [Agenda.hosts_run]
  have freshTurn := (layout.read_initialized_earlier isPlaced world).trans fresh
  obtain ⟨owned, owns, enter⟩ := layout.listed_enter isPlaced
  rw [agenda_eq objects, Agenda.run_append, ← isEarlier, Agenda.run_cons]
  refine Agenda.holds_run (layout.keeps_duty inProgram .enter) ?_
  rw [ObjectProgram.run_duty hostedTurn, enter, Block.runAll_append]
  exact (layout.keeps_owned owns).after _ _
    (layout.hasSnapshot_once member restores owns targeted hostedTurn freshTurn [])

/-! ### Runs -/

section

variable {target : String} (targeted : target ∈ action.targets) (visits : Nat → List (Visit α))

include targeted

theorem hasSnapshot_exiting_zero :
    let run := Run.ofScene program scene visits
    World.HasSnapshot target (((program.earlier target).run (run.world 0)).snapshot target)
      (run.exiting 0) := by
  intro run
  refine Agenda.holds_run (layout.keeps_duty (fun _ => id) .advance)
    (layout.hasSnapshot_enter member restores targeted
      (layout.hosts_target_world member visits 0 targeted) ?_)
  rw [run.read_world Slot.initialized_inward]
  exact Stage.read_ofScene Slot.initialized_inward scene target

/-- From the first frame on the snapshot stays. -/
theorem hasSnapshot_stage (frame : Nat) :
    let run := Run.ofScene program scene visits
    World.HasSnapshot target (((program.earlier target).run (run.world 0)).snapshot target)
      (run.stage (frame + 1)).world := by
  intro run
  induction frame with
  | zero =>
    refine run.hasSnapshot_stage_succ ?_
    rw [frame_eq, Agenda.run_append, Agenda.run_append]
    exact Agenda.holds_run (layout.keeps_duty (fun _ => id) .exit)
      (layout.hasSnapshot_exiting_zero member restores targeted visits)
  | succ frame inductionHypothesis =>
    exact run.hasSnapshot_stage_succ
      (Agenda.holds_run layout.keeps_frame (run.hasSnapshot_world inductionHypothesis))

theorem hasSnapshot_exiting (frame : Nat) :
    let run := Run.ofScene program scene visits
    World.HasSnapshot target (((program.earlier target).run (run.world 0)).snapshot target)
      (run.exiting frame) := by
  intro run
  cases frame with
  | zero => exact layout.hasSnapshot_exiting_zero member restores targeted visits
  | succ frame =>
    have held := run.hasSnapshot_world
      (layout.hasSnapshot_stage member restores targeted visits frame)
    exact Agenda.holds_run (layout.keeps_duty (fun _ => id) .advance)
      (Agenda.holds_run (layout.keeps_duty (fun _ => id) .enter) held)

end

end Program.Layout

/-! ### Restoring -/

namespace Instance

variable {self : Instance α} (restores : self.effect = .restore) (kept : self.breach? = none)
  {target : String} {snapshot : Channel → α} {world : World α}
  (held : World.HasSnapshot target snapshot world) (locals : Locals α) (channel : Channel)

include restores kept

/-- An action that restores and takes time settles on the snapshot. -/
theorem exit_of_restores (timed : self.isTimed) : self.phases.exit = Effect.settleRestore := by
  have settles : Block.isIdle self.phases.exit = false := by
    simpa [breach?, timed] using kept
  rw [phases, Effect.phases] at settles ⊢
  split at settles
  · cases settles
  · rw [if_neg ‹_›, restores]
    rfl

/-- An action that restores at once takes a missing snapshot, and then settles on it. -/
theorem enter_of_restores (timed : ¬self.isTimed) : self.phases.enter = Effect.restoreNow := by
  have finished : Block.isIdle self.phases.exit := by
    by_contra unfinished
    have notBoth : ¬(Block.isIdle self.phases.advance && Block.isIdle self.phases.exit) = true :=
      fun both => unfinished (Bool.and_eq_true_iff.mp both).2
    rw [breach?, if_neg timed, if_neg notBoth] at kept
    split at kept <;> cases kept
  rw [phases, Effect.phases] at finished ⊢
  split at finished
  · rw [if_pos ‹_›, restores]
    rfl
  · rw [restores] at finished
    cases finished

include held

theorem read_finishBody (timed : self.isTimed) :
    (Block.runAll target locals world self.finishBody).read target (Slot.channel channel).key =
      snapshot channel := by
  have different : self.active.key ≠ (Slot.channel channel).key := fun same => by
    cases Slot.key_injective same
  rw [finishBody, exit_of_restores restores kept timed, Block.runAll_append, Block.runAll_cons,
    Block.runAll_nil, Slot.run_write, World.read_write, if_neg fun same => different same.2.2,
    Effect.read_settleRestore held.hosted, held.captured]

theorem read_opening_of_restores [Counting α] (timed : ¬self.isTimed) :
    (Block.runAll target locals world self.opening).read target (Slot.channel channel).key =
      snapshot channel := by
  have taken : ((Slot.initialized.read.equals (.num 0)).eval world target locals).isTruthy = false := by
    rw [Expr.isTruthy_equals_read, held.initialized, Counting.one_beq_zero]
  rw [opening, if_neg timed, List.append_nil, enter_of_restores restores kept timed,
    Effect.restoreNow, Block.runAll_cons, Effect.captureOnce, Stmt.run_onlyIf, taken,
    if_neg Bool.false_ne_true, Effect.read_settleRestore held.hosted, held.captured]

end Instance

/-- An object on which some action restores takes its snapshot in the first frame and keeps it for
ever. The snapshot holds the channels as they are at the object's own turn in the enter phase, with
no turn in the place of an orientation of zero. Wherever an action that restores settles on the
object, the channels become those of the snapshot. If no object whose turn comes earlier opens an
action on this one in the first frame, the snapshot is how the frame found the object; and if no
visitor moved the object either, it is how the scene describes it. -/
theorem snapshot_of_first_turn [Counting α] {rate : α} {scene : Scene α} {program : Program α}
    (compiled : Program.compile rate scene = .ok program) {action : Instance α}
    (member : action ∈ Program.instances rate scene) (restores : action.effect = .restore)
    {target : String} (targeted : target ∈ action.targets) (visits : Nat → List (Visit α)) :
    let run := Run.ofScene program scene visits
    let before := program.earlier target
    let snapshot := (before.run (run.world 0)).snapshot target
    (∀ frame channel,
      (run.stage (frame + 1)).world.read target (Slot.captured channel).key = snapshot channel) ∧
    (action.isTimed → ∀ frame found,
      .entered target action.finishBody found ∈ (program.agenda .exit).trace (run.exiting frame) →
      ∀ locals channel, (Block.runAll target locals found action.finishBody).read target
        (Slot.channel channel).key = snapshot channel) ∧
    (¬action.isTimed → ∀ frame found,
      .entered target action.opening found ∈ run.trace (frame + 1) →
      ∀ locals channel, (Block.runAll target locals found action.opening).read target
        (Slot.channel channel).key = snapshot channel) ∧
    ((∀ other ∈ Program.instances rate scene, target ∈ other.targets →
        Trace.entries target other.opening (before.trace (run.world 0)) = 0) →
      snapshot = (run.world 0).snapshot target) ∧
    ((∀ visit ∈ visits 0, visit.object = target → ∀ channel, visit.slot ≠ .channel channel) →
      (run.world 0).snapshot target = (Stage.ofScene scene).world.snapshot target) := by
  obtain ⟨layout⟩ := Program.exists_layout compiled
  have kept := layout.contracts action member
  obtain ⟨placed, isPlaced, rfl⟩ := layout.exists_target member targeted
  intro run before snapshot
  have held := layout.hasSnapshot_stage member restores targeted visits
  refine ⟨fun frame => (held frame).captured, fun timed frame found entered locals channel => ?_,
    fun instant frame found entered locals channel => ?_, fun unopened => ?_, fun unmoved => ?_⟩
  · refine Instance.read_finishBody restores kept ?_ locals channel timed
    refine Agenda.holds_of_entered (layout.keeps_duty (fun _ => id) .exit) ?_ entered
    exact layout.hasSnapshot_exiting member restores targeted visits frame
  · refine Instance.read_opening_of_restores restores kept ?_ locals channel instant
    exact Agenda.holds_of_entered layout.keeps_frame (run.hasSnapshot_world (held frame)) entered
  · refine World.snapshot_congr (layout.read_channel_earlier isPlaced ?_ unopened)
    rw [Run.hosts_world]
    exact layout.hosts_target member targeted
  · refine World.snapshot_congr fun channel => ?_
    rw [Run.world, Stage.read_face_channel]
    exact Stage.read_visited_of_spared _ fun visit inVisits hit =>
      unmoved visit inVisits hit.1 channel (Slot.key_injective hit.2)

/-! ### A snapshot taken late -/

/-- A prompter hides the mirror as the first frame begins, before the mirror has its turn. Selecting
the mirror brings it back to its snapshot. -/
def Scene.prologue : Scene Float where
  objects := [
    { SceneObject.still "prompter" with
      timelines := [{
        name := "begin"
        autostart := true
        entries := [⟨0, ⟨some "mirror", 0, .visibility false⟩⟩] }] },
    { SceneObject.still "mirror" with
      linkActions := [⟨none, 0, .reset⟩] }]
  groups := []

def Effect.isRestore : Effect α → Bool
  | .restore => true
  | _ => false

omit [Trigonometric α] in
theorem Effect.isRestore_iff {effect : Effect α} : effect.isRestore ↔ effect = .restore := by
  cases effect <;> simp [isRestore]

theorem Scene.exists_restore_prologue :
    ∃ program, Program.compile 1 Scene.prologue = .ok program ∧
      ∃ action ∈ Program.instances 1 Scene.prologue,
        action.effect = .restore ∧ "mirror" ∈ action.targets := by
  obtain ⟨program, compiled⟩ : ∃ program, Program.compile 1 Scene.prologue = .ok program :=
    Program.exists_of_isOk (by decide +kernel)
  have found : (Program.instances 1 Scene.prologue).any fun action =>
      action.effect.isRestore && action.targets.contains "mirror" := by
    decide +kernel
  obtain ⟨action, member, both⟩ := List.any_eq_true.mp found
  obtain ⟨isRestore, targeted⟩ := Bool.and_eq_true_iff.mp both
  exact ⟨program, compiled, action, member, Effect.isRestore_iff.mp isRestore,
    List.contains_iff_mem.mp targeted⟩

/-- The mirror goes back to being hidden, in whichever frame it is restored. -/
theorem snapshot_of_first_turn_prologue :
    ∃ program, Program.compile 1 Scene.prologue = .ok program ∧
      ∃ action ∈ Program.instances 1 Scene.prologue,
        action.effect = .restore ∧ "mirror" ∈ action.targets ∧
        ∀ frame, ((Run.ofScene program Scene.prologue fun _ => []).stage (frame + 1)).world.read
          "mirror" (Slot.captured .alpha).key = 0 := by
  obtain ⟨program, compiled, action, member, restores, targeted⟩ := Scene.exists_restore_prologue
  refine ⟨program, compiled, action, member, restores, targeted, fun frame => ?_⟩
  rw [(snapshot_of_first_turn compiled member restores targeted fun _ => []).1 frame .alpha]
  apply Outcome.eq_of_seen compiled
  decide +kernel

/-- The first frame finds the mirror in full view, but the snapshot has it hidden. -/
theorem prologue_snapshot_hidden :
    ∃ program, Program.compile 1 Scene.prologue = .ok program ∧
      (∃ action ∈ Program.instances 1 Scene.prologue,
        action.effect = .restore ∧ "mirror" ∈ action.targets) ∧
      let run := Run.ofScene program Scene.prologue fun _ => []
      (run.world 0).read "mirror" Slot.alpha.key = 1 ∧
        (run.stage 1).world.read "mirror" (Slot.captured .alpha).key = 0 := by
  obtain ⟨program, compiled, restoring⟩ := Scene.exists_restore_prologue
  refine ⟨program, compiled, restoring, ?_, ?_⟩ <;>
    apply Outcome.eq_of_seen compiled <;>
    decide +kernel

end Stagecraft
