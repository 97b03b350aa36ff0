/-
This file follows a timed action through the frames of a run. After a dispatch each target advances
the action in as many frames as it has ticks, at least one, the frame of the dispatch being the
first; in the last of them the target finishes it. A dispatch in between begins anew.
-/

import Stagecraft.Proofs.Action.Phases
import Stagecraft.Proofs.Scalar.Doubles

namespace Stagecraft

variable {α : Type} [Trigonometric α]

namespace Instance

variable (self : Instance α)

/-- The frames in which a target advances the action after a dispatch. -/
def frames : Nat := max 1 self.ticks

/-- Flag and count of the action on a target, so many frames after the beginning of the frame of the
last dispatch. -/
def Standing (since : Option Nat) (status : α × α) : Prop :=
  match since with
  | none => status.1 = 0
  | some passed =>
    if passed < self.frames then status = (1, Scalar.ofNat passed) else status.1 = 0

/-- How often a target advances and finishes the action in a frame, by the frames passed since the
last dispatch. -/
def due (since : Option Nat) : Nat × Nat :=
  match since with
  | none => (0, 0)
  | some passed =>
    (if passed < self.frames then 1 else 0, if passed + 1 = self.frames then 1 else 0)

/-- Flag and count after the advance phase. -/
def advanced (status : α × α) : α × α :=
  if status.1 == 0 then status else (status.1, status.2 + 1)

/-- The action goes on and has had its ticks. -/
def IsSpent (status : α × α) : Prop :=
  !(status.1 == 0) ∧ Scalar.ofNat self.ticks ≤ status.2

instance (status : α × α) : Decidable (self.IsSpent status) :=
  inferInstanceAs (Decidable (_ ∧ _))

/-- Flag and count after the exit phase. -/
def finished (status : α × α) : α × α :=
  if self.IsSpent status then (0, status.2) else status

variable {self} [Counting α]

theorem isSpent_iff (small : self.ticks ≤ countingLimit) {count : Nat} (first : 0 < count)
    (within : count ≤ self.frames) :
    self.IsSpent (1, Scalar.ofNat count) ↔ count = self.frames := by
  have bounded : count ≤ countingLimit := within.trans (max_le (by decide) small)
  rw [IsSpent, Counting.one_beq_zero, Counting.ofNat_le self.ticks count small bounded]
  simp only [Bool.not_false, true_and]
  unfold frames at within ⊢
  omega

variable (self) in
/-- An action that does not go on is not advanced, and it is not finished again. -/
theorem idle {status : α × α} (still : status.1 = 0) :
    (status.1 == 0) = true ∧ advanced status = status ∧ ¬self.IsSpent status ∧
      self.finished status = status := by
  have zero : (status.1 == 0) = true := by rw [still, Counting.zero_beq_zero]
  have notSpent : ¬self.IsSpent status := by simp [IsSpent, zero]
  exact ⟨zero, by rw [advanced, if_pos zero], notSpent, by rw [finished, if_neg notSpent]⟩

theorem advanced_ofNat {count : Nat} (bounded : count < countingLimit) :
    advanced ((1, Scalar.ofNat count) : α × α) = (1, Scalar.ofNat (count + 1)) := by
  rw [advanced, Counting.one_beq_zero, Counting.ofNat_add_one count bounded]
  rfl

/-- In a frame an action is advanced and finished as is due, and its standing moves on. -/
theorem standing_succ (small : self.ticks ≤ countingLimit) {since : Option Nat} {status : α × α}
    (standing : self.Standing since status) :
    (if status.1 == 0 then 0 else 1) = (self.due since).1 ∧
      (if self.IsSpent (advanced status) then 1 else 0) = (self.due since).2 ∧
      self.Standing (since.map (· + 1)) (self.finished (advanced status)) := by
  cases since with
  | none =>
    obtain ⟨zero, kept, notSpent, unfinished⟩ := idle self standing
    rw [kept, if_pos zero, if_neg notSpent, unfinished]
    exact ⟨rfl, rfl, standing⟩
  | some passed =>
    rw [Standing] at standing
    split at standing
    · rename_i within
      subst standing
      have bounded : passed < countingLimit := within.trans_le (max_le (by decide) small)
      have spent := isSpent_iff small passed.succ_pos (Nat.succ_le_of_lt within)
      rw [advanced_ofNat bounded, Counting.one_beq_zero, due, if_pos within, finished,
        Option.map_some, Standing]
      by_cases last : passed + 1 = self.frames
      · have ended : ¬passed + 1 < self.frames := by omega
        rw [if_pos (spent.mpr last), if_pos last, if_pos (spent.mpr last), if_neg ended]
        exact ⟨rfl, rfl, rfl⟩
      · have further : passed + 1 < self.frames := by omega
        rw [if_neg (mt spent.mp last), if_neg last, if_neg (mt spent.mp last), if_pos further]
        exact ⟨rfl, rfl, rfl⟩
    · rename_i ended
      have stillEnded : ¬passed + 1 < self.frames := by omega
      have notLast : ¬passed + 1 = self.frames := by omega
      obtain ⟨zero, kept, notSpent, unfinished⟩ := idle self standing
      rw [kept, if_pos zero, if_neg notSpent, unfinished, due, if_neg ended, if_neg notLast,
        Option.map_some, Standing, if_neg stillEnded]
      exact ⟨rfl, rfl, standing⟩

end Instance

namespace Program.Layout

variable {rate : α} {scene : Scene α} {program : Program α}
  (layout : Layout rate scene program) {action : Instance α}
  (member : action ∈ instances rate scene)

include layout member

section

variable (timed : action.isTimed) {target : String} (targeted : target ∈ action.targets)
  {world : World α} (hosted : world.hosts target)

include timed targeted hosted

/-- What the advance phase does to a target. -/
theorem advance_phase :
    action.Tally target ((program.agenda .advance).trace world) 0
        (if (action.status world target).1 == 0 then 0 else 1) 0 ∧
      action.status ((program.agenda .advance).run world) target =
        Instance.advanced (action.status world target) := by
  obtain ⟨locals, found, hosts, same, tally, status⟩ := layout.exists_own member
    (fun _ => layout.listed_advance) (fun _ _ => Instance.writesOnly_advance) timed targeted hosted
  rw [← same]
  refine ⟨tally _ _ _ (Instance.tally_advance locals timed), ?_⟩
  rw [status, Instance.status_advance (by rwa [hosts]) locals timed, Instance.advanced]

/-- What the exit phase does to a target. -/
theorem exit_phase :
    action.Tally target ((program.agenda .exit).trace world) 0 0
        (if action.IsSpent (action.status world target) then 1 else 0) ∧
      action.status ((program.agenda .exit).run world) target =
        action.finished (action.status world target) := by
  obtain ⟨locals, found, hosts, same, tally, status⟩ := layout.exists_own member
    (fun _ => layout.listed_exit) (fun _ _ => Instance.writesOnly_finish) timed targeted hosted
  rw [← same]
  refine ⟨tally _ _ _ (Instance.tally_finish locals timed), ?_⟩
  rw [status, Instance.status_finish (by rwa [hosts]) locals timed]
  rfl

/-- After the enter phase, a frame advances and finishes the action on a target as is due, and
leaves its flag and count as they stand one frame later. -/
theorem later_phases [Counting α] (small : action.ticks ≤ countingLimit) {since : Option Nat}
    (standing : action.Standing since (action.status world target)) :
    action.Tally target ((program.agenda .advance).trace world ++
        (program.agenda .exit).trace ((program.agenda .advance).run world)) 0
        (action.due since).1 (action.due since).2 ∧
      action.Standing (since.map (· + 1)) (action.status
        ((program.agenda .exit).run ((program.agenda .advance).run world)) target) := by
  obtain ⟨tallyAdvance, statusAdvance⟩ := layout.advance_phase member timed targeted hosted
  have hostedExit : ((program.agenda .advance).run world).hosts target := by
    rwa [Agenda.hosts_run]
  obtain ⟨tallyExit, statusExit⟩ := layout.exit_phase member timed targeted hostedExit
  obtain ⟨advances, finishes, later⟩ := Instance.standing_succ small standing
  rw [statusAdvance] at tallyExit statusExit
  rw [advances] at tallyAdvance
  rw [finishes] at tallyExit
  rw [statusExit]
  exact ⟨by simpa using tallyAdvance.append tallyExit, later⟩

end

/-- A frame opens the action equally often on all its targets. From there on it is advanced and
finished as is due, and its standing moves on. -/
theorem whole_frame [Counting α] (timed : action.isTimed) (small : action.ticks ≤ countingLimit)
    {world : World α} (hosted : ∀ target ∈ action.targets, world.hosts target)
    {since : Option Nat}
    (standing : ∀ target ∈ action.targets, action.Standing since (action.status world target)) :
    ∃ count, ∀ target ∈ action.targets,
      let began := if count = 0 then since else some 0
      action.Tally target (program.frame.trace world) count (action.due began).1
          (action.due began).2 ∧
        action.Standing (began.map (· + 1)) (action.status (program.frame.run world) target) := by
  have only : ∀ duty ∈ program.agenda .enter, action.OnlyDispatched duty.object duty.block := by
    intro duty inEnter
    obtain ⟨placed, isPlaced, rfl⟩ := Program.mem_agenda.mp inEnter
    exact layout.onlyDispatched_enter member isPlaced
  obtain ⟨count, stretch⟩ := Instance.exists_stretch_agenda timed
    (layout.numbered.nodup action member) only world hosted
  refine ⟨count, fun target targeted => ?_⟩
  have begins : action.Standing (if count = 0 then since else some 0)
      (action.status ((program.agenda .enter).run world) target) := by
    rw [stretch.status target targeted]
    split
    · exact standing target targeted
    · have first : 0 < action.frames := lt_of_lt_of_le Nat.one_pos (le_max_left _ _)
      rw [Instance.Standing, if_pos first, ‹Counting α›.ofNat_zero]
  obtain ⟨tally, later⟩ := layout.later_phases member timed targeted
    (by rw [Agenda.hosts_run]; exact hosted target targeted) small begins
  rw [Program.frame_eq, Agenda.trace_append, Agenda.trace_append, Agenda.run_append,
    Agenda.run_append]
  exact ⟨by simpa using (stretch.tally target targeted).append tally, later⟩

end Program.Layout

/-! ### Runs -/

namespace Run

variable (run : Run α) (action : Instance α)

/-- In the frame some target opens the action. -/
def Dispatches (frame : Nat) : Prop :=
  ∃ target ∈ action.targets, 0 < Trace.entries target action.opening (run.trace frame)

/-- Of the frames up to this one, the earlier one is the last that dispatches the action. -/
def LastDispatch (frame last : Nat) : Prop :=
  last ≤ frame ∧ run.Dispatches action last ∧
    ∀ later, last < later → later ≤ frame → ¬run.Dispatches action later

open Classical in
/-- The frames passed since the beginning of the last frame that dispatched the action. -/
noncomputable def since : Nat → Option Nat
  | 0 => none
  | frame + 1 => (if run.Dispatches action frame then some 0 else since frame).map (· + 1)

open Classical in
/-- The same in the midst of a frame, after its dispatches. -/
noncomputable def age (frame : Nat) : Option Nat :=
  if run.Dispatches action frame then some 0 else run.since action frame

theorem since_succ (frame : Nat) :
    run.since action (frame + 1) = (run.age action frame).map (· + 1) := by
  rw [since, age]

variable {run action}

/-- Where the count of a frame is not zero, the frame dispatches the action. -/
theorem dispatches_iff {frame count : Nat} {target : String} (targeted : target ∈ action.targets)
    (counted : ∀ target ∈ action.targets,
      Trace.entries target action.opening (run.trace frame) = count) :
    run.Dispatches action frame ↔ count ≠ 0 := by
  constructor
  · rintro ⟨other, isTarget, opened⟩
    rw [counted other isTarget] at opened
    exact opened.ne'
  · intro some
    exact ⟨target, targeted, by rw [counted target targeted]; exact Nat.pos_of_ne_zero some⟩

theorem age_of_dispatches {frame : Nat} (dispatched : run.Dispatches action frame) :
    run.age action frame = some 0 := by
  rw [age, if_pos dispatched]

theorem age_of_not_dispatches {frame : Nat} (none : ¬run.Dispatches action frame) :
    run.age action frame = run.since action frame := by
  rw [age, if_neg none]

theorem age_of_never {frame : Nat} (never : ∀ earlier ≤ frame, ¬run.Dispatches action earlier) :
    run.age action frame = none := by
  induction frame with
  | zero => rw [age_of_not_dispatches (never 0 (le_refl 0)), since]
  | succ frame inductionHypothesis =>
    have before := inductionHypothesis fun earlier within => never earlier (within.trans frame.le_succ)
    rw [age_of_not_dispatches (never _ (le_refl _)), since_succ, before, Option.map_none]

theorem age_of_lastDispatch {frame last : Nat} (is : run.LastDispatch action frame last) :
    run.age action frame = some (frame - last) := by
  induction frame with
  | zero =>
    obtain ⟨first, dispatched, -⟩ := is
    obtain rfl := Nat.le_zero.mp first
    exact age_of_dispatches dispatched
  | succ frame inductionHypothesis =>
    obtain ⟨before, dispatched, none⟩ := is
    rcases Nat.lt_or_eq_of_le before with earlier | rfl
    · have still : run.LastDispatch action frame last :=
        ⟨Nat.lt_succ_iff.mp earlier, dispatched, fun later after within =>
          none later after (within.trans frame.le_succ)⟩
      rw [age_of_not_dispatches (none (frame + 1) earlier (le_refl _)), since_succ,
        inductionHypothesis still, Option.map_some]
      congr 1
      omega
    · rw [age_of_dispatches dispatched, Nat.sub_self]

theorem pos_of_since {frame passed : Nat} (isSince : run.since action frame = some passed) :
    0 < passed := by
  cases frame with
  | zero => cases isSince
  | succ frame =>
    rw [since_succ] at isSince
    obtain ⟨_, -, rfl⟩ := Option.map_eq_some_iff.mp isSince
    exact Nat.succ_pos _

end Run

namespace Program.Layout

variable {rate : α} {scene : Scene α} {program : Program α}
  (layout : Layout rate scene program) {action : Instance α}
  (member : action ∈ instances rate scene)

include layout member

/-- Every target of an action is hosted. -/
theorem hosts_target {target : String} (targeted : target ∈ action.targets) :
    (Stage.ofScene scene).world.hosts target := by
  obtain ⟨placed, isPlaced, rfl⟩ := layout.exists_target member targeted
  exact layout.hosts_of_mem isPlaced

theorem hosts_target_world (visits : Nat → List (Visit α)) (frame : Nat) {target : String}
    (targeted : target ∈ action.targets) :
    ((Run.ofScene program scene visits).world frame).hosts target := by
  rw [Run.hosts_world]
  exact layout.hosts_target member targeted

variable [Counting α] (timed : action.isTimed) (small : action.ticks ≤ countingLimit)
  (visits : Nat → List (Visit α))

include timed small

/-- A frame that finds the action standing as it should advances and finishes it as is due, and
leaves it standing as it should. -/
theorem frame_of_standing {frame : Nat}
    (standing : ∀ target ∈ action.targets,
      let run := Run.ofScene program scene visits
      action.Standing (run.since action frame)
        (action.status (run.stage frame).world target)) :
    ∃ count, ∀ target ∈ action.targets,
      let run := Run.ofScene program scene visits
      let due := action.due (run.age action frame)
      action.Tally target (run.trace frame) count due.1 due.2 ∧
        action.Standing (run.since action (frame + 1))
          (action.status (run.stage (frame + 1)).world target) := by
  let run := Run.ofScene program scene visits
  have inward (field : ActionField) : ¬(Slot.action action.number field).IsOutward := id
  have found (target : String) : action.status (run.world frame) target =
      action.status (run.stage frame).world target := by
    rw [Instance.status, Instance.active, Instance.elapsed, run.read_world (inward _),
      run.read_world (inward _)]
    rfl
  have left (target : String) : action.status (run.stage (frame + 1)).world target =
      action.status (program.frame.run (run.world frame)) target := by
    rw [Instance.status, Instance.active, Instance.elapsed, run.read_stage_succ (inward _),
      run.read_stage_succ (inward _)]
    rfl
  have hosted : ∀ target ∈ action.targets, (run.world frame).hosts target := fun _ =>
    layout.hosts_target_world member visits frame
  have standingWorld : ∀ target ∈ action.targets,
      action.Standing (run.since action frame) (action.status (run.world frame) target) := by
    intro target targeted
    rw [found]
    exact standing target targeted
  obtain ⟨count, frames⟩ := layout.whole_frame member timed small hosted standingWorld
  have counted : ∀ target ∈ action.targets,
      Trace.entries target action.opening (run.trace frame) = count :=
    fun target targeted => (frames target targeted).1.openings
  refine ⟨count, fun target targeted => ?_⟩
  have dispatched := Run.dispatches_iff targeted counted
  have age : run.age action frame = if count = 0 then run.since action frame else some 0 := by
    split
    · rename_i none
      exact Run.age_of_not_dispatches fun some => dispatched.mp some none
    · rename_i some
      exact Run.age_of_dispatches (dispatched.mpr some)
  obtain ⟨tally, later⟩ := frames target targeted
  rw [← age] at tally later
  rw [← left, ← Run.since_succ] at later
  exact ⟨tally, later⟩

/-- Before every frame the action stands as the frames since its last dispatch say. -/
theorem standing_stage (frame : Nat) :
    ∀ target ∈ action.targets,
      let run := Run.ofScene program scene visits
      action.Standing (run.since action frame)
        (action.status (run.stage frame).world target) := by
  induction frame with
  | zero =>
    intro target _
    exact Stage.read_ofScene id scene target
  | succ frame inductionHypothesis =>
    obtain ⟨count, frames⟩ :=
      layout.frame_of_standing member timed small visits inductionHypothesis
    exact fun target targeted => (frames target targeted).2

/-- An action of several frames is dispatched in those frames that leave it standing at one. -/
theorem dispatches_iff_status (long : 1 < action.ticks) (frame : Nat) {target : String}
    (targeted : target ∈ action.targets) :
    (Run.ofScene program scene visits).Dispatches action frame ↔ action.status
      ((Run.ofScene program scene visits).stage (frame + 1)).world target = (1, 1) := by
  let run := Run.ofScene program scene visits
  have standing : action.Standing (run.since action (frame + 1))
      (action.status (run.stage (frame + 1)).world target) :=
    layout.standing_stage member timed small visits (frame + 1) target targeted
  have severalFrames : 1 < action.frames := long.trans_le (le_max_right _ _)
  rw [Run.since_succ] at standing
  constructor
  · intro dispatched
    rw [Run.age_of_dispatches dispatched, Option.map_some, Instance.Standing,
      if_pos severalFrames, Counting.ofNat_one] at standing
    exact standing
  · intro begun
    by_contra none
    rw [begun, Run.age_of_not_dispatches none] at standing
    have notZero : (1 : α) ≠ 0 := fun same => by
      have beq := Counting.one_beq_zero (α := α)
      rw [same, Counting.zero_beq_zero] at beq
      cases beq
    cases since : run.since action frame with
    | none =>
      rw [since] at standing
      exact notZero standing
    | some passed =>
      have later := Run.pos_of_since since
      rw [since, Option.map_some, Instance.Standing] at standing
      split at standing
      · rename_i within
        -- The count tells that one frame has passed, but there are two at least.
        have frames : action.frames ≤ countingLimit := max_le (by decide) small
        have counted := (Prod.mk.inj standing).2
        rw [← Counting.ofNat_one] at counted
        have same := Counting.eq_of_ofNat_eq (by decide) (by omega) counted
        omega
      · exact notZero standing

end Program.Layout

/-! ### Lifecycle -/

/-- The life of a timed action in a compiled scene, whatever visitors do between the frames. A
frame opens it equally often on all its targets. Where `last` is the last frame so far that
dispatched it, a target advances it once in each of the frames from `last` on, as many as its ticks
and at least one, finishes it once in the last of them, and flags it until then. An action that was
never dispatched is neither advanced nor finished nor flagged. -/
theorem timed_lifecycle [Counting α] {rate : α} {scene : Scene α} {program : Program α}
    (compiled : Program.compile rate scene = .ok program) {action : Instance α}
    (member : action ∈ Program.instances rate scene) (timed : action.isTimed)
    (small : action.ticks ≤ countingLimit) {target : String} (targeted : target ∈ action.targets)
    (visits : Nat → List (Visit α)) (frame : Nat) :
    let run := Run.ofScene program scene visits
    let openings (target : String) := Trace.entries target action.opening (run.trace frame)
    let advances := Trace.entries target action.advanceBody (run.trace frame)
    let finishes := Trace.entries target action.finishBody (run.trace frame)
    let flag := (run.stage (frame + 1)).world.read target action.active.key
    (∀ other ∈ action.targets, openings other = openings target) ∧
      (∀ last, run.LastDispatch action frame last →
        advances = (if frame < last + max 1 action.ticks then 1 else 0) ∧
          finishes = (if frame + 1 = last + max 1 action.ticks then 1 else 0) ∧
          flag = if frame + 1 < last + max 1 action.ticks then 1 else 0) ∧
      ((∀ earlier ≤ frame, ¬run.Dispatches action earlier) →
        advances = 0 ∧ finishes = 0 ∧ flag = 0) := by
  obtain ⟨layout⟩ := Program.exists_layout compiled
  obtain ⟨count, frames⟩ := layout.frame_of_standing member timed small visits
    (layout.standing_stage member timed small visits frame)
  obtain ⟨tally, standing⟩ := frames target targeted
  rw [Run.since_succ] at standing
  refine ⟨fun other isTarget => ?_, fun last is => ?_, fun never => ?_⟩
  · exact (frames other isTarget).1.openings.trans tally.openings.symm
  · rw [Run.age_of_lastDispatch is] at tally standing
    have before := is.1
    have within : frame - last < action.frames ↔ frame < last + max 1 action.ticks := by
      rw [Instance.frames]
      omega
    have ends : frame - last + 1 = action.frames ↔ frame + 1 = last + max 1 action.ticks := by
      rw [Instance.frames]
      omega
    have further : frame - last + 1 < action.frames ↔ frame + 1 < last + max 1 action.ticks := by
      rw [Instance.frames]
      omega
    simp only [Instance.due, within, ends] at tally
    simp only [Option.map_some, Instance.Standing, further] at standing
    refine ⟨tally.advances, tally.finishes, ?_⟩
    split at standing
    · rename_i goesOn
      rw [if_pos goesOn]
      exact congrArg Prod.fst standing
    · rename_i ended
      rw [if_neg ended]
      exact standing
  · rw [Run.age_of_never never] at tally standing
    exact ⟨tally.advances, tally.finishes, standing⟩

/-- The viewpoint leaves the lamp and comes back while it still fades. The lamp begins anew then, and
it has faded three frames later. -/
theorem timed_lifecycle_lamp :
    ∃ program action, Program.compile 3 Scene.lamp = .ok program ∧
      action ∈ Program.instances 3 Scene.lamp ∧ action.isTimed ∧ action.ticks = 3 ∧
      action.ticks ≤ countingLimit ∧ "lamp" ∈ action.targets ∧
      let run := Run.ofScene program Scene.lamp (Visit.along .x [0, 10, 0])
      run.LastDispatch action 1 0 ∧ run.LastDispatch action 4 2 ∧
        ∀ frame ≤ 4,
          Trace.entries "lamp" action.advanceBody (run.trace frame) = 1 ∧
          Trace.entries "lamp" action.finishBody (run.trace frame) = (if frame = 4 then 1 else 0) ∧
          (run.stage (frame + 1)).world.read "lamp" action.active.key =
            if frame = 4 then 0 else 1 := by
  obtain ⟨program, compiled⟩ : ∃ program, Program.compile 3 Scene.lamp = .ok program :=
    Program.exists_of_isOk (by decide +kernel)
  have found : (Program.instances 3 Scene.lamp).any (fun action => action.isTimed &&
      decide (action.number = 0) && decide (action.ticks = 3) &&
      action.targets.contains "lamp") = true := by
    decide +kernel
  obtain ⟨action, member, suitable⟩ := List.any_eq_true.mp found
  simp only [Bool.and_eq_true, decide_eq_true_eq, List.contains_iff_mem] at suitable
  obtain ⟨⟨⟨timed, number⟩, ticks⟩, targeted⟩ := suitable
  have small : action.ticks ≤ countingLimit := by
    rw [ticks]
    decide
  let visits : Nat → List (Visit Float) := Visit.along .x [0, 10, 0]
  let run := Run.ofScene program Scene.lamp visits
  let standings : List (Float × Float) := [(1, 1), (1, 2), (1, 1), (1, 2), (0, 3)]
  have seen : ((List.range 5).map fun frame =>
      let world := ((Run.ofScene program Scene.lamp visits).stage (frame + 1)).world
      (world.read "lamp" (Slot.action 0 .active).key,
        world.read "lamp" (Slot.action 0 .elapsed).key)) = standings := by
    apply Outcome.eq_of_seen compiled
    decide +kernel
  have dispatched (frame : Nat) (within : frame < 5) :
      run.Dispatches action frame ↔ frame = 0 ∨ frame = 2 := by
    obtain ⟨layout⟩ := Program.exists_layout compiled
    have begins : ∀ frame < 5, standings[frame]? = some (1, 1) ↔ frame = 0 ∨ frame = 2 := by
      decide +kernel
    have here := congrArg (·[frame]?) seen
    simp only [List.getElem?_map, List.getElem?_range within, Option.map_some] at here
    rw [layout.dispatches_iff_status member timed small visits (by rw [ticks]; decide) frame
      targeted, ← begins frame within, ← here, Option.some.injEq, Instance.status,
      Instance.active, Instance.elapsed, number]
  have last (frame : Nat) (within : frame ≤ 4) :
      run.LastDispatch action frame (if frame < 2 then 0 else 2) := by
    refine ⟨by split <;> omega, (dispatched _ (by split <;> omega)).mpr (by split <;> simp),
      fun later after before again => ?_⟩
    have isBegin := (dispatched later (by omega)).mp again
    split at after <;> omega
  refine ⟨program, action, compiled, member, timed, ticks, small, targeted, last 1 (by decide),
    last 4 le_rfl, fun frame within => ?_⟩
  obtain ⟨advances, finishes, flag⟩ :=
    (timed_lifecycle compiled member timed small targeted visits frame).2.1 _ (last frame within)
  rw [advances, finishes, flag, ticks]
  refine ⟨if_pos ?_, ?_, ?_⟩
  · split <;> omega
  · exact if_congr (by split <;> omega) rfl rfl
  · rw [← ite_not]
    exact if_congr (by split <;> omega) rfl rfl

end Stagecraft
