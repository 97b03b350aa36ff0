/-
This file writes a frame as one list of duties, each a block with the object it runs on, in the
order in which the blocks run. Phases and objects are nested loops in a host; as a list they can be
cut at any place, and what happens in a frame is what happens in the parts.
-/

import Stagecraft.Proofs.Logic.Trace
import Stagecraft.Stage.Performance

namespace Stagecraft

structure Duty (α : Type) where
  object : String
  block : Block α

/-- Duties in running order. -/
abbrev Agenda (α : Type) := List (Duty α)

variable {α : Type}

/-! ### Duties -/

namespace Duty

variable [Trigonometric α] (duty : Duty α) (world : World α)

def run : World α :=
  if world.hosts duty.object then Block.run duty.block duty.object world else world

def trace : List (Event α) :=
  if world.hosts duty.object then Block.traceAll duty.object [] world duty.block else []

@[simp] theorem hosts_run : (duty.run world).hosts = world.hosts := by
  unfold run
  split
  · exact Block.hosts_runAll _ _ _ _
  · rfl

/-- The object of a duty may write the place. -/
def Writes (duty : Duty α) (object key : String) : Prop :=
  (object, key) ∈ Block.writes duty.object duty.block

theorem read_run {object key : String} (spared : ¬duty.Writes object key) :
    (duty.run world).read object key = world.read object key := by
  unfold run
  split
  · exact Block.read_runAll _ _ _ _ _ _ spared
  · rfl

end Duty

/-! ### Agendas -/

namespace Agenda

variable [Trigonometric α]

def run (agenda : Agenda α) (world : World α) : World α :=
  agenda.foldl (fun world duty => duty.run world) world

/-- What happens on an agenda, in order. -/
def trace : Agenda α → World α → List (Event α)
  | [], _ => []
  | duty :: rest, world => duty.trace world ++ trace rest (duty.run world)

@[simp] theorem run_nil (world : World α) : run [] world = world := rfl

@[simp] theorem run_cons (duty : Duty α) (rest : Agenda α) (world : World α) :
    run (duty :: rest) world = run rest (duty.run world) := rfl

theorem run_append (first second : Agenda α) (world : World α) :
    run (first ++ second) world = run second (run first world) :=
  List.foldl_append

@[simp] theorem trace_nil (world : World α) : trace [] world = [] := rfl

@[simp] theorem trace_cons (duty : Duty α) (rest : Agenda α) (world : World α) :
    trace (duty :: rest) world = duty.trace world ++ trace rest (duty.run world) := rfl

theorem trace_append (first second : Agenda α) (world : World α) :
    trace (first ++ second) world = trace first world ++ trace second (run first world) := by
  induction first generalizing world with
  | nil => rfl
  | cons duty rest inductionHypothesis =>
    rw [List.cons_append, trace_cons, inductionHypothesis, trace_cons, List.append_assoc, run_cons]

@[simp] theorem hosts_run (agenda : Agenda α) (world : World α) :
    (run agenda world).hosts = world.hosts := by
  induction agenda generalizing world with
  | nil => rfl
  | cons duty rest inductionHypothesis => rw [run_cons, inductionHypothesis, Duty.hosts_run]

/-- A place that no duty writes is left alone. -/
theorem read_run {agenda : Agenda α} {object key : String}
    (spared : ∀ duty ∈ agenda, ¬duty.Writes object key) (world : World α) :
    (run agenda world).read object key = world.read object key := by
  induction agenda generalizing world with
  | nil => rfl
  | cons duty rest inductionHypothesis =>
    obtain ⟨sparedHere, sparedLater⟩ := List.forall_mem_cons.mp spared
    rw [run_cons, inductionHypothesis sparedLater, duty.read_run world sparedHere]

/-- A block that may write a place is not entered where no duty writes it. -/
theorem entries_eq_zero {agenda : Agenda α} {object key : String}
    (spared : ∀ duty ∈ agenda, ¬duty.Writes object key) {owner : String} {block : Block α}
    (touched : (object, key) ∈ Block.writes owner block) (world : World α) :
    Trace.entries owner block (trace agenda world) = 0 := by
  induction agenda generalizing world with
  | nil => exact Trace.entries_nil
  | cons duty rest inductionHypothesis =>
    obtain ⟨sparedHere, sparedLater⟩ := List.forall_mem_cons.mp spared
    rw [trace_cons, Trace.entries_append, inductionHypothesis sparedLater, Nat.add_zero, Duty.trace]
    split
    · exact Trace.entries_eq_zero_of_notMem sparedHere touched [] world
    · exact Trace.entries_nil

end Agenda

/-! ### Frames -/

/-- What an object does in a phase. -/
def ObjectProgram.duty (phase : Phase) (placed : ObjectProgram α) : Duty α :=
  ⟨placed.id, placed.phases.get phase⟩

namespace ObjectProgram

variable [Trigonometric α] {placed : ObjectProgram α} {world : World α}
  (hosted : world.hosts placed.id) (phase : Phase)

include hosted

theorem run_duty :
    (placed.duty phase).run world = Block.runAll placed.id [] world (placed.phases.get phase) := by
  rw [duty, Duty.run, if_pos hosted, Block.run]

theorem trace_duty :
    (placed.duty phase).trace world =
      Block.traceAll placed.id [] world (placed.phases.get phase) := by
  rw [duty, Duty.trace, if_pos hosted]

end ObjectProgram

namespace Program

/-- The duties of a phase. -/
def agenda (program : Program α) (phase : Phase) : Agenda α :=
  program.objects.map (·.duty phase)

/-- The duties of a frame. -/
def frame (program : Program α) : Agenda α :=
  Phase.all.flatMap program.agenda

theorem mem_agenda {program : Program α} {phase : Phase} {duty : Duty α} :
    duty ∈ program.agenda phase ↔ ∃ placed ∈ program.objects, placed.duty phase = duty :=
  List.mem_map

theorem agenda_eq {program : Program α} {earlier later : List (ObjectProgram α)}
    {placed : ObjectProgram α} (objects : program.objects = earlier ++ placed :: later)
    (phase : Phase) :
    program.agenda phase =
      earlier.map (·.duty phase) ++ placed.duty phase :: later.map (·.duty phase) := by
  rw [agenda, objects, List.map_append, List.map_cons]

theorem frame_eq (program : Program α) :
    program.frame = program.agenda .enter ++ (program.agenda .advance ++ program.agenda .exit) := by
  simp [frame, Phase.all]

variable [Trigonometric α]

theorem runPhase_eq (program : Program α) (world : World α) (phase : Phase) :
    program.runPhase world phase = (program.agenda phase).run world := by
  rw [runPhase, agenda, Agenda.run, List.foldl_map]
  rfl

/-- The phases of a frame are its duties, one after the other. -/
theorem foldl_runPhase (program : Program α) (world : World α) :
    Phase.all.foldl program.runPhase world = program.frame.run world := by
  simp [frame, Phase.all, runPhase_eq, Agenda.run_append]

end Program

end Stagecraft
