/-
This file describes the snapshot of an object. Taking it copies the channels and puts no turn in the
place of an orientation of zero; restoring copies it back. Once the object has been set up, the
snapshot stays: an effect would take it again only behind a guard that finds the object set up.
-/

import Stagecraft.Proofs.Action.Scope
import Stagecraft.Proofs.Logic.Assignments
import Stagecraft.Proofs.Logic.Invariants
import Stagecraft.Proofs.Scalar.Counting

namespace Stagecraft

variable {α : Type}

theorem Channel.mem_all (channel : Channel) : channel ∈ Channel.all := by
  cases channel with
  | position axis => cases axis <;> decide
  | orientation part => cases part <;> decide
  | _ => decide

/-! ### Snapshots -/

/-- What a snapshot of an object holds. An orientation of zero is taken as no turn. -/
def World.snapshot [Scalar α] (world : World α) (object : String) (channel : Channel) : α :=
  let degenerate := Part.all.all fun part => world.read object (Slot.orientation part).key == 0
  if channel = .orientation .w ∧ degenerate then 1
  else world.read object (Slot.channel channel).key

theorem World.snapshot_congr [Scalar α] {world world' : World α} {object : String}
    (same : ∀ channel, world'.read object (Slot.channel channel).key =
      world.read object (Slot.channel channel).key) :
    world'.snapshot object = world.snapshot object := by
  have parts (part : Part) : world'.read object (Slot.orientation part).key =
      world.read object (Slot.orientation part).key := same (.orientation part)
  funext channel
  simp only [snapshot, same, parts]

namespace Effect

variable [Trigonometric α] {this : String} {world : World α}

/-- Taking the snapshot changes no other slot. -/
theorem read_capture {slot : Slot} (other : ∀ channel, slot ≠ .captured channel)
    (locals : Locals α) (object : String) :
    (Block.runAll this locals world capture).read object slot.key = world.read object slot.key := by
  have bounded : Block.WritesOnly (fun _ slot => ∃ channel, slot = .captured channel) this
      (capture : Block α) := writesOnly_capture fun channel => ⟨channel, rfl⟩
  exact bounded.read_runAll (fun ⟨channel, same⟩ => other channel same) locals world

variable (hosted : world.hosts this) (locals : Locals α)

include hosted

theorem read_captured (channel : Channel) :
    (Block.runAll this locals world capture).read this (Slot.captured channel).key =
      world.snapshot this channel := by
  have copied (channel : Channel) : (Block.runAll this locals world (Channel.all.map fun channel =>
      (Slot.captured channel).write (Slot.channel channel).read)).read this
        (Slot.captured channel).key = world.read this (Slot.channel channel).key := by
    refine (Block.read_assign _ _ hosted (by decide) (fun _ _ => Slot.captured.inj)
      (fun _ => Expr.ignores_read (by simp)) channel.mem_all).trans ?_
    rw [Slot.eval_read, Value.number]
  rw [capture, Block.runAll_append, Block.runAll_cons, Block.runAll_nil, Stmt.run_onlyIf]
  simp only [isCapturedDegenerate, Expr.isTruthy_and, Expr.isTruthy_equals_read, copied]
  have degenerate : (Part.all.all fun part => world.read this (Slot.orientation part).key == 0) =
      (world.read this (Slot.channel (.orientation .w)).key == 0 &&
        world.read this (Slot.channel (.orientation .x)).key == 0 &&
        world.read this (Slot.channel (.orientation .y)).key == 0 &&
        world.read this (Slot.channel (.orientation .z)).key == 0) := by
    simp [Part.all, Slot.orientation, Bool.and_assoc]
  rw [World.snapshot, ← degenerate]
  by_cases isZero : (Part.all.all fun part => world.read this (Slot.orientation part).key == 0)
  · -- The orientation has been copied as it is, and is then corrected.
    have written : (Slot.captured (.orientation .w)).key = (Slot.captured channel).key ↔
        channel = .orientation .w :=
      ⟨fun same => (Slot.captured.inj (Slot.key_injective same)).symm, fun same => by rw [same]⟩
    rw [if_pos isZero, Block.runAll_cons, Block.runAll_nil, Slot.run_write, World.read_write, copied]
    simp only [Block.hosts_runAll, hosted, true_and, written, isZero, and_true, Expr.eval_num,
      Value.number]
  · rw [if_neg isZero, if_neg fun both => isZero both.2, copied]

/-- Restoring gives every channel the number that the snapshot holds. -/
theorem entry_settleRestore (channel : Channel) :
    (Block.runAll this locals world settleRestore).entry this (Slot.channel channel).key =
      some (world.read this (Slot.captured channel).key) := by
  have assigned : (settleRestore : Block α) =
      Block.assign .channel (fun channel => (Slot.captured channel).read) Channel.all := rfl
  rw [assigned, Block.entry_assign _ _ hosted (by decide) (fun _ _ => Slot.channel.inj)
    (fun _ => Expr.ignores_read (by simp)) channel.mem_all, Slot.eval_read, Value.number]

theorem read_settleRestore (channel : Channel) :
    (Block.runAll this locals world settleRestore).read this (Slot.channel channel).key =
      world.read this (Slot.captured channel).key :=
  congrArg (·.getD 0) (entry_settleRestore hosted locals channel)

/-- Setups that take the snapshot or do nothing leave it behind if one of them takes it. -/
theorem read_setups {setups : List (Block α)}
    (each : ∀ setup ∈ setups, setup = capture ∨ setup = [])
    (taken : capture ∈ setups ∨ ∀ channel,
      world.read this (Slot.captured channel).key = world.snapshot this channel)
    (channel : Channel) :
    (Block.runAll this locals world setups.flatten).read this (Slot.captured channel).key =
      world.snapshot this channel := by
  induction setups generalizing locals world with
  | nil =>
    rw [List.flatten_nil, Block.runAll_nil]
    exact (taken.resolve_left List.not_mem_nil) channel
  | cons setup rest inductionHypothesis =>
    obtain ⟨here, later⟩ := List.forall_mem_cons.mp each
    rw [List.flatten_cons, Block.runAll_append]
    rcases here with rfl | rfl
    · -- The channels are as before, so taking the snapshot again makes no difference.
      have unchanged : (Block.runAll this locals world capture).snapshot this =
          world.snapshot this :=
        World.snapshot_congr fun channel => read_capture (by simp) locals this
      rw [← unchanged]
      refine inductionHypothesis (by simpa using hosted) _ later (.inr fun channel => ?_)
      rw [unchanged, read_captured hosted]
    · rw [Block.runAll_nil]
      refine inductionHypothesis hosted _ later (taken.imp_left fun member => ?_)
      exact (List.mem_cons.mp member).resolve_left (by simp [capture])

end Effect

/-! ### Keeping the snapshot -/

/-- The slots that hold a snapshot, and that it has been taken. -/
def Slot.IsSnapshot : Slot → Prop
  | .initialized | .captured _ => True
  | _ => False

/-- The object has been set up, and its snapshot is this one. -/
structure World.HasSnapshot [Scalar α] (object : String) (snapshot : Channel → α)
    (world : World α) : Prop where
  hosted : world.hosts object
  initialized : world.read object Slot.initialized.key = 1
  captured : ∀ channel, world.read object (Slot.captured channel).key = snapshot channel

variable [Trigonometric α] {object : String} {snapshot : Channel → α}

theorem World.ignores_hasSnapshot {allowed : String → Slot → Prop}
    (spared : ∀ slot : Slot, slot.IsSnapshot → ¬allowed object slot) :
    World.Ignores (HasSnapshot object snapshot) allowed :=
  fun _ _ hosts same held => {
    hosted := hosts ▸ held.hosted
    initialized := (same object _ (spared .initialized trivial)).trans held.initialized
    captured := fun channel =>
      (same object _ (spared (.captured channel) trivial)).trans (held.captured channel) }

theorem World.ignores_beyond_snapshot :
    World.Ignores (HasSnapshot object snapshot) fun _ slot => ¬slot.IsSnapshot :=
  ignores_hasSnapshot fun _ inSnapshot => not_not_intro inSnapshot

namespace Effect

variable (number : Nat) (this : String)

omit [Trigonometric α] in
theorem not_reaches_snapshot {effect : Effect α} (other : effect ≠ .restore) {slot : Slot}
    (inSnapshot : slot.IsSnapshot) : ¬effect.Reaches number slot := by
  rintro (drives | ⟨field, -, -, rfl⟩)
  · cases effect <;> cases slot <;>
      simp_all [Drives, Slot.IsSnapshot, Slot.visible, Slot.alpha, Slot.position, Slot.orientation]
  · cases inSnapshot

/-- What goes on and what settles writes no snapshot. -/
theorem spares_snapshot (effect : Effect α) (timing : Timing α) {phase : Phase}
    (later : phase ≠ .enter) :
    Block.WritesOnly (fun _ slot => ¬slot.IsSnapshot) this
      ((effect.phases number timing).get phase) := by
  by_cases restores : effect = .restore
  · subst restores
    rw [phases]
    cases phase with
    | enter => exact absurd rfl later
    | advance =>
      split
      · exact Block.writesOnly_nil
      · exact Block.writesOnly_map fun channel _ => Block.writesOnly_write.mpr id
    | exit =>
      split
      · exact Block.writesOnly_nil
      · exact Block.writesOnly_map fun channel _ => Block.writesOnly_write.mpr id
  · exact (effect.writesOnly_phases timing phase).mono fun _ _ reached inSnapshot =>
      not_reaches_snapshot number restores inSnapshot reached.2

/-- An effect begins by taking a snapshot that is missing, if at all, and writes none after it. -/
theorem exists_enter (effect : Effect α) (timing : Timing α) :
    ∃ ahead rest, (effect.phases number timing).enter = ahead ++ rest ∧
      (ahead = [captureOnce] ∨ ahead = []) ∧
      Block.WritesOnly (fun _ slot => ¬slot.IsSnapshot) this rest := by
  by_cases restores : effect = .restore
  · subst restores
    rw [phases]
    split
    · exact ⟨[captureOnce], _, rfl, .inl rfl,
        Block.writesOnly_map fun channel _ => Block.writesOnly_write.mpr id⟩
    · refine ⟨[captureOnce], _, rfl, .inl rfl, Block.writesOnly_cons.mpr
        ⟨Block.writesOnly_write.mpr id, ?_⟩⟩
      exact Block.writesOnly_map fun channel _ => Block.writesOnly_write.mpr id
  · refine ⟨[], _, rfl, .inr rfl, ?_⟩
    exact (effect.writesOnly_phases timing .enter).mono fun _ _ reached inSnapshot =>
      not_reaches_snapshot number restores inSnapshot reached.2

end Effect

namespace Instance

variable {self : Instance α} {target : String}

/-- Opening an action leaves the snapshot of an object that has been set up as it is. -/
theorem keeps_opening [Counting α] :
    Block.Keeps (World.HasSnapshot object snapshot) target self.opening := by
  by_cases same : target = object
  · subst same
    obtain ⟨ahead, rest, enter, guarded, bounded⟩ :=
      self.effect.exists_enter self.number target self.timing
    rw [opening, phases, enter]
    refine Block.keeps_append (Block.keeps_append ?_
      (Block.keeps_of_writesOnly World.ignores_beyond_snapshot bounded))
      (Block.keeps_of_writesOnly World.ignores_beyond_snapshot ?_)
    · rcases guarded with rfl | rfl
      · refine Block.keeps_shut fun locals world held => ?_
        rw [Expr.isTruthy_equals_read, held.initialized, Counting.one_beq_zero]
      · exact Block.keeps_nil
    · split
      · simp [Slot.IsSnapshot, active, elapsed]
      · exact Block.writesOnly_nil
  · refine Block.keeps_of_writesOnly (World.ignores_hasSnapshot fun slot _ inside => ?_)
      writesOnly_opening
    exact same inside.1.symm

/-- What an action does on its own leaves the snapshot as it is. -/
theorem keeps_advance : Block.Keeps (World.HasSnapshot object snapshot) target self.advance := by
  refine Block.keeps_of_writesOnly World.ignores_beyond_snapshot ?_
  have advanceLater : Phase.advance ≠ .enter := by simp
  rw [advance]
  split
  · rw [Block.writesOnly_onlyIf, Block.writesOnly_append, Block.writesOnly_write]
    exact ⟨self.effect.spares_snapshot self.number target self.timing advanceLater, id⟩
  · exact Block.writesOnly_nil

theorem keeps_finish : Block.Keeps (World.HasSnapshot object snapshot) target self.finish := by
  refine Block.keeps_of_writesOnly World.ignores_beyond_snapshot ?_
  have exitLater : Phase.exit ≠ .enter := by simp
  rw [finish]
  split
  · rw [Block.writesOnly_onlyIf, Block.writesOnly_append, Block.writesOnly_write]
    exact ⟨self.effect.spares_snapshot self.number target self.timing exitLater, id⟩
  · exact Block.writesOnly_nil

end Instance

end Stagecraft
