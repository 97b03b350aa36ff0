/-
This file follows a slot on its whole way to the goal of a timed action, from one frame to the next.
As long as nothing interferes, every frame brings it nearer by one step, and the last one puts it at
the goal. So between frames the slot is never seen going back or beyond, also where the number of
steps is not whole and the last of them alone would lead too far.
-/

import Mathlib
import Stagecraft.Proofs.Program.Gliding

namespace Stagecraft

open Exact

variable {K : Type} [LinearOrder K]

/-! ### Between two numbers -/

/-- A number lies properly between two others, unless these are the same. -/
def IsBetween (first value second : K) : Prop :=
  (first < second → first < value ∧ value < second) ∧
    (second < first → second < value ∧ value < first)

theorem IsBetween.ne_second {first value second : K} (between : IsBetween first value second)
    (apart : first ≠ second) : value ≠ second := by
  rcases lt_or_gt_of_ne apart with ahead | behind
  · exact (between.1 ahead).2.ne
  · exact (between.2 behind).1.ne'

variable [Field K]

/-- With every step on the way a number comes nearer to the goal, and it does not reach it before
the way is over. -/
theorem isBetween_steps [IsStrictOrderedRing K] {start goal steps earlier passed : K}
    (moving : 0 < steps) (further : earlier < passed) (running : passed < steps) :
    IsBetween (start + earlier * ((goal - start) / steps))
      (start + passed * ((goal - start) / steps)) goal := by
  generalize isStep : (goal - start) / steps = step
  have isGoal : goal = start + steps * step := by
    rw [← isStep, mul_div_cancel₀ _ moving.ne', add_sub_cancel]
  have left : 0 < steps - earlier := sub_pos.mpr (further.trans running)
  subst isGoal
  constructor
  · intro ahead
    have forwards : 0 < step := (mul_pos_iff_of_pos_left left).mp (by linarith)
    constructor <;> gcongr
  · intro behind
    have backwards : step < 0 :=
      neg_pos.mp ((mul_pos_iff_of_pos_left left).mp (by linarith))
    exact ⟨add_lt_add_right (mul_lt_mul_of_neg_right running backwards) _,
      add_lt_add_right (mul_lt_mul_of_neg_right further backwards) _⟩

/-! ### Left alone -/

variable [FloorRing K]

/-- What actions lead to a goal is seen or heard. -/
theorem Effect.Leads.isShown {world : World K} {this : String} {effect : Effect K} {slot : Slot}
    {goal : K} (leads : effect.Leads world this slot goal) : slot.IsShown := by
  cases leads <;> trivial

variable [Angles K]

namespace Run

variable (run : Run K) (action : Instance K) (target : String) (slot : Slot) (first : Nat)

/-- What happens in the frames from the beginning of an action on: at first the rest of the frame
that begins it, and then whole frames. -/
def onwards (rest : List (Event K)) : Nat → List (Event K)
  | 0 => rest
  | passed + 1 => run.trace (first + (passed + 1))

/-- What is found in a slot as an action begins, and then after so many frames, the one that begins
it being the first. -/
def along (start : K) : Nat → K
  | 0 => start
  | passed + 1 => (run.stage (first + (passed + 1))).world.read target slot.key

/-- For so many frames nothing interferes with a slot that an action leads to its goal. The action
does not begin anew, no visitor comes by the slot, and nothing else writes it. -/
structure LeavesAlone (rest : List (Event K)) (frames : Nat) : Prop where
  unopened : ∀ passed < frames,
    Trace.entries target action.opening (run.onwards first rest passed) = 0
  unvisited : ∀ passed < frames, 0 < passed → ∀ visit ∈ run.visits (first + passed),
    ¬(visit.object = target ∧ visit.slot = slot)
  alone : ∀ passed < frames, action.WritesAlone target slot (run.onwards first rest passed)

end Run

/-! ### Step by step -/

/-- So many frames after its beginning an action is under way and has led a slot so many steps
towards the goal, or it has had its ticks and the slot is at the goal. -/
structure Instance.HasCome (action : Instance K) (target : String) (origin begun : World K)
    (slot : Slot) (goal : K) (passed : Nat) (world : World K) : Prop where
  further : passed < action.ticks → action.IsUnderway target begun passed world ∧
    world.read target slot.key = origin.read target slot.key +
      passed * ((goal - origin.read target slot.key) / action.timing.steps)
  ended : passed = action.ticks → world.read target slot.key = goal

variable [IsStrictOrderedRing K]

namespace Program.Layout

variable {rate : K} {scene : Scene K} {program : Program K} (layout : Layout rate scene program)
  {action : Instance K} (member : action ∈ instances rate scene) (timed : action.isTimed)
  {target : String} (targeted : target ∈ action.targets) (visits : Nat → List (Visit K))
  {slot : Slot} {goal : K} {origin : World K} (leads : action.effect.Leads origin target slot goal)

include layout member timed targeted leads

/-- Where an action that returns has begun, it finishes with the goal of a channel in the snapshot,
if the channel was left alone in the rest of that enter phase. -/
theorem recalls_exiting {first : Nat} {before lead : List (Event K)} :
    let run := Run.ofScene program scene visits
    (program.agenda .enter).trace (run.world first) =
        before ++ .entered target action.opening origin :: lead →
      Trace.ledger target slot.key lead = [] → ∀ frame,
      action.Recalls target slot goal ((program.agenda .exit).trace (run.exiting frame)) := by
  intro run begins unwritten frame channel restores isChannel found finishes
  subst isChannel
  have isGoal : goal = origin.remembered target channel := by
    rw [restores] at leads
    cases leads
    rfl
  rw [isGoal, layout.remembered_eq member restores timed targeted visits begins unwritten]
  have held := layout.hasSnapshot_exiting member restores targeted visits frame
  exact (Agenda.holds_of_entered (layout.keeps_duty (fun _ => id) .exit) held
    finishes).captured channel

section

variable {begun : World K} {locals : Locals K} (hosted : origin.hosts target)
  (isBegun : begun = Block.runAll target locals origin
    (action.effect.start action.number action.timing.steps))
  {frame passed : Nat} (running : passed < action.ticks)

include hosted isBegun running

/-- From the end of the enter phase on, a frame takes the action one step further. -/
theorem hasCome_of_entered {lead : List (Event K)} :
    let run := Run.ofScene program scene visits
    let entered := (program.agenda .enter).run (run.world frame)
    action.IsUnderway target begun passed entered →
      (Trace.ledger target slot.key lead = [] →
        action.Recalls target slot goal ((program.agenda .exit).trace (run.exiting frame))) →
      (Trace.entries target action.advanceBody lead = 0 ∧
        Trace.entries target action.finishBody lead = 0) →
      action.WritesAlone target slot (lead ++ program.later.trace entered) →
      Trace.ledger target slot.key lead = [] ∧
        (entered.read target slot.key = origin.read target slot.key +
            passed * ((goal - origin.read target slot.key) / action.timing.steps) →
          action.HasCome target origin begun slot goal (passed + 1)
            (run.stage (frame + 1)).world) := by
  intro run entered underway recalls quiet alone
  obtain ⟨unwritten, further, ended⟩ :=
    layout.later_of_alone member timed targeted underway leads hosted isBegun running recalls quiet
      alone
  have shown : (run.stage (frame + 1)).world.read target slot.key =
      (program.later.run entered).read target slot.key :=
    (run.read_stage_succ_of_shown (Slot.isShownKey leads.isShown)).trans
      (congrArg (World.read · target slot.key) (program.run_frame _))
  have inward (field : ActionField) : ¬(Slot.action action.number field).IsOutward := id
  refine ⟨unwritten, fun read => ⟨fun more => ?_, fun last => shown.trans (ended last)⟩⟩
  obtain ⟨underwayLast, step⟩ := further more
  refine ⟨underwayLast.of_kept ?_ fun field => ?_, ?_⟩
  · rw [Run.hosts_stage, Agenda.hosts_run, Agenda.hosts_run, Run.hosts_world]
  · rw [run.read_stage_succ (inward field)]
    exact congrArg (World.read · target (Slot.action action.number field).key)
      (program.run_frame _)
  · rw [shown, step, read, Nat.cast_succ, add_one_mul, add_assoc]

/-- A frame takes an action that goes on one step further. -/
theorem hasCome_succ :
    let run := Run.ofScene program scene visits
    action.HasCome target origin begun slot goal passed (run.stage frame).world →
      action.Recalls target slot goal ((program.agenda .exit).trace (run.exiting frame)) →
      Trace.entries target action.opening (run.trace frame) = 0 →
      (∀ visit ∈ run.visits frame, ¬(visit.object = target ∧ visit.slot = slot)) →
      action.WritesAlone target slot (run.trace frame) →
      action.HasCome target origin begun slot goal (passed + 1) (run.stage (frame + 1)).world := by
  intro run come recalls unopened unvisited alone
  obtain ⟨underway, read⟩ := come.further running
  have inward (field : ActionField) : ¬(Slot.action action.number field).IsOutward := id
  have found : action.IsUnderway target begun passed (run.world frame) :=
    underway.of_kept (by rw [Run.hosts_world, Run.hosts_stage]) fun field =>
      run.read_world (inward field) frame target
  have spared : (run.world frame).read target slot.key =
      (run.stage frame).world.read target slot.key :=
    run.read_world_of_shown (Slot.isShownKey leads.isShown) fun visit inVisits both =>
      unvisited visit inVisits ⟨both.1, Slot.key_injective both.2⟩
  have split : run.trace frame = (program.agenda .enter).trace (run.world frame) ++
      program.later.trace ((program.agenda .enter).run (run.world frame)) :=
    program.trace_frame _
  rw [split] at alone
  rw [split, Trace.entries_append, Nat.add_eq_zero_iff] at unopened
  have hostedAll : ∀ target ∈ action.targets, (run.world frame).hosts target := fun _ =>
    layout.hosts_target_world member visits frame
  obtain ⟨unwritten, comes⟩ := layout.hasCome_of_entered member timed targeted visits leads hosted
    isBegun running (layout.underway_enter member timed found unopened.1) (fun _ => recalls)
    (layout.quiet_enter member timed targeted hostedAll) alone
  refine comes ?_
  rw [Agenda.read_run_eq _ found.hosted, unwritten]
  exact spared.trans read

end

/-! ### From the beginning on -/

variable {first : Nat} {before rest : List (Event K)} (moving : 0 < action.timing.steps)

include moving

/-- The frame that begins an action takes it its first step. -/
theorem hasCome_one :
    let run := Run.ofScene program scene visits
    run.trace first = before ++ .entered target action.opening origin :: rest →
      Trace.entries target action.opening rest = 0 → action.WritesAlone target slot rest →
      ∃ begun locals, origin.hosts target ∧
        begun = Block.runAll target locals origin
          (action.effect.start action.number action.timing.steps) ∧
        action.HasCome target origin begun slot goal 1 (run.stage (first + 1)).world ∧
        ∀ frame, action.Recalls target slot goal
          ((program.agenda .exit).trace (run.exiting frame)) := by
  intro run begins unopened alone
  have hostedAll : ∀ target ∈ action.targets, (run.world first).hosts target := fun _ =>
    layout.hosts_target_world member visits first
  obtain ⟨lead, inEnter, rfl⟩ :=
    layout.begins_enter member timed targeted (hostedAll target targeted) begins
  have quiet {block : Block K}
      (none : Trace.entries target block ((program.agenda .enter).trace (run.world first)) = 0) :
      Trace.entries target block lead = 0 := by
    refine Trace.entries_eq_zero.mpr fun world inLead => Trace.entries_eq_zero.mp none world ?_
    rw [inEnter]
    exact List.mem_append_right _ (List.mem_cons_of_mem _ inLead)
  rw [Trace.entries_append, Nat.add_eq_zero_iff] at unopened
  obtain ⟨hosted, ⟨locals, underway⟩, kept⟩ :=
    layout.underway_begun member timed (hostedAll target targeted) inEnter unopened.1
  obtain ⟨unwritten, comes⟩ := layout.hasCome_of_entered member timed targeted visits leads hosted
    rfl (Timing.ticks_pos moving) underway
    (fun unwritten =>
      layout.recalls_exiting member timed targeted visits leads inEnter unwritten first)
    ((layout.quiet_enter member timed targeted hostedAll).imp quiet quiet) alone
  refine ⟨_, locals, hosted, rfl, comes ?_,
    layout.recalls_exiting member timed targeted visits leads inEnter unwritten⟩
  rw [kept _ unwritten, Nat.cast_zero, zero_mul, add_zero]

/-- As long as nothing interferes, the action takes a step in every frame. -/
theorem hasCome_along {frames : Nat} :
    let run := Run.ofScene program scene visits
    run.trace first = before ++ .entered target action.opening origin :: rest →
      run.LeavesAlone action target slot first rest frames →
      ∃ begun, ∀ passed < frames, passed < action.ticks →
        action.HasCome target origin begun slot goal (passed + 1)
          (run.stage (first + (passed + 1))).world := by
  intro run begins left
  rcases Nat.eq_zero_or_pos frames with rfl | some
  · exact ⟨origin, fun passed before => absurd before passed.not_lt_zero⟩
  obtain ⟨begun, locals, hosted, isBegun, one, recalls⟩ := layout.hasCome_one member timed targeted
    visits leads moving begins (left.unopened 0 some) (left.alone 0 some)
  refine ⟨begun, fun passed within running => ?_⟩
  induction passed with
  | zero => exact one
  | succ passed inductionHypothesis =>
    have come := inductionHypothesis (by omega) (by omega)
    exact layout.hasCome_succ member timed targeted visits leads hosted isBegun running come
      (recalls _) (left.unopened _ within) (left.unvisited _ within passed.succ_pos)
      (left.alone _ within)

end Program.Layout

/-! ### Few writes -/

namespace Program.Layout

variable {rate : K} {scene : Scene K} {program : Program K} (layout : Layout rate scene program)
  {action : Instance K} (member : action ∈ instances rate scene) (timed : action.isTimed)
  {target : String} (targeted : target ∈ action.targets) (visits : Nat → List (Visit K))

include layout member timed targeted

omit [IsStrictOrderedRing K] in
/-- Where a whole frame writes a slot no more often than the action does, the rest of the frame from
a beginning of the action on does so, too. -/
theorem writesAlone_rest {slot : Slot} {frame : Nat} {before rest : List (Event K)}
    {found : World K} :
    let run := Run.ofScene program scene visits
    run.trace frame = before ++ .entered target action.opening found :: rest →
      action.WritesAlone target slot (run.trace frame) → action.WritesAlone target slot rest := by
  intro run begins alone
  have whole : run.trace frame = (program.agenda .enter).trace (run.world frame) ++
      program.later.trace ((program.agenda .enter).run (run.world frame)) :=
    program.trace_frame _
  obtain ⟨lead, -, isRest⟩ := layout.begins_enter member timed targeted
    (layout.hosts_target_world member visits frame targeted) begins
  have onwards {block : Block K}
      (none : Trace.entries target block ((program.agenda .enter).trace (run.world frame)) = 0) :
      Trace.entries target block (run.trace frame) ≤ Trace.entries target block rest := by
    rw [whole, isRest, Trace.entries_append, Trace.entries_append, none, Nat.zero_add]
    exact Nat.le_add_left _ _
  obtain ⟨notAdvanced, notFinished⟩ := layout.quiet_enter member timed targeted fun _ =>
    layout.hosts_target_world member visits frame
  have fewer : (Trace.ledger target slot.key rest).length ≤
      (Trace.ledger target slot.key (run.trace frame)).length := by
    rw [begins, Trace.ledger_append, Trace.ledger_cons_entered, List.length_append]
    exact Nat.le_add_left _ _
  exact fewer.trans (alone.trans (Nat.add_le_add (onwards notAdvanced) (onwards notFinished)))

variable (small : action.ticks ≤ countingLimit) {first : Nat}

include small

/-- Where a dispatch was the last one, the frames from there on do what is due. -/
theorem tally_of_lastDispatch {passed : Nat} :
    let run := Run.ofScene program scene visits
    run.LastDispatch action (first + passed) first → ∃ count,
      action.Tally target (run.trace (first + passed)) count (action.due (some passed)).1
        (action.due (some passed)).2 ∧ (count = 0 ↔ 0 < passed) := by
  intro run last
  obtain ⟨count, counted⟩ := layout.frame_of_standing member timed small visits
    (layout.standing_stage member timed small visits (first + passed))
  have dispatches : run.Dispatches action (first + passed) ↔ count ≠ 0 :=
    Run.dispatches_iff targeted fun other isTarget => (counted other isTarget).1.openings
  have tally := (counted target targeted).1
  rw [Run.age_of_lastDispatch last, Nat.add_sub_cancel_left] at tally
  obtain ⟨-, dispatched, once⟩ := last
  refine ⟨count, tally, fun none => ?_, fun later => ?_⟩
  · rcases Nat.eq_zero_or_pos passed with rfl | later
    · exact absurd none (dispatches.mp dispatched)
    · exact later
  · exact not_not.mp (mt dispatches.mpr (once _ (by omega) le_rfl))

/-- Where the frames from a dispatch on write a slot no more often than the action is due to advance
and finish, the action is left alone. -/
theorem exists_leavesAlone {slot : Slot} {frames : Nat} (lasting : 0 < frames) :
    let run := Run.ofScene program scene visits
    run.Dispatches action first →
      (∀ later, first < later → later < first + frames → ¬run.Dispatches action later) →
      (∀ passed < frames, 0 < passed → ∀ visit ∈ run.visits (first + passed),
        ¬(visit.object = target ∧ visit.slot = slot)) →
      (∀ passed < frames, (Trace.ledger target slot.key (run.trace (first + passed))).length ≤
        (action.due (some passed)).1 + (action.due (some passed)).2) →
      ∃ before found rest,
        run.trace first = before ++ .entered target action.opening found :: rest ∧
        run.LeavesAlone action target slot first rest frames := by
  intro run dispatched once unvisited few
  have last (passed : Nat) (within : passed < frames) :
      run.LastDispatch action (first + passed) first :=
    ⟨by omega, dispatched, fun later after before => once later after (by omega)⟩
  have tally (passed : Nat) (within : passed < frames) :=
    layout.tally_of_lastDispatch member timed targeted visits small (last passed within)
  have alone (passed : Nat) (within : passed < frames) :
      action.WritesAlone target slot (run.trace (first + passed)) := by
    obtain ⟨count, begun, -⟩ := tally passed within
    rw [Instance.WritesAlone, begun.advances, begun.finishes]
    exact few passed within
  obtain ⟨count, begun, begins⟩ := tally 0 lasting
  have opened : 0 < Trace.entries target action.opening (run.trace first) := by
    rw [← Nat.add_zero first, begun.openings]
    exact Nat.pos_of_ne_zero fun none => absurd (begins.mp none) (lt_irrefl 0)
  obtain ⟨before, found, rest, split, unopened⟩ := Trace.exists_last_entry opened
  refine ⟨before, found, rest, split, ⟨fun passed within => ?_, unvisited, fun passed within => ?_⟩⟩
  · cases passed with
    | zero => exact unopened
    | succ passed =>
      obtain ⟨count, begun, begins⟩ := tally _ within
      exact begun.openings.trans (begins.mpr passed.succ_pos)
  · cases passed with
    | zero => exact layout.writesAlone_rest member timed targeted visits split (alone 0 within)
    | succ passed => exact alone _ within

end Program.Layout

/-- In exact arithmetic what a timed action leads to a goal is never seen beyond it. As long as
nothing else interferes, the slot has come after every frame nearer to the goal by one step, from
where it was as the action began, and it lies properly between all that was seen of it before and
the goal. After the last tick it is at the goal. The number of steps need not be whole. -/
theorem glides_without_overshoot {rate : K} {scene : Scene K} {program : Program K}
    (compiled : Program.compile rate scene = .ok program) {action : Instance K}
    (member : action ∈ Program.instances rate scene) (timed : action.isTimed)
    (moving : 0 < action.timing.steps) {target : String} (targeted : target ∈ action.targets)
    (visits : Nat → List (Visit K)) {first : Nat} {before rest : List (Event K)}
    {found : World K} (begins : (Run.ofScene program scene visits).trace first =
      before ++ .entered target action.opening found :: rest)
    {slot : Slot} {goal : K} (leads : action.effect.Leads found target slot goal) {frames : Nat}
    (left : (Run.ofScene program scene visits).LeavesAlone action target slot first rest frames) :
    let run := Run.ofScene program scene visits
    let start := found.read target slot.key
    let seen := run.along target slot first start
    ∀ passed ≤ frames,
      (passed < action.ticks →
        seen passed = start + passed * ((goal - start) / action.timing.steps) ∧
        (start ≠ goal → seen passed ≠ goal) ∧
        ∀ earlier < passed, IsBetween (seen earlier) (seen passed) goal) ∧
      (passed = action.ticks → seen passed = goal) := by
  obtain ⟨layout⟩ := Program.exists_layout compiled
  intro run start seen
  obtain ⟨begun, come⟩ :=
    layout.hasCome_along member timed targeted visits leads moving begins left
  have onTheWay : ∀ passed ≤ frames, passed < action.ticks →
      seen passed = start + passed * ((goal - start) / action.timing.steps) := by
    intro passed within running
    cases passed with
    | zero => rw [Nat.cast_zero, zero_mul, add_zero]; rfl
    | succ passed => exact ((come passed within (Nat.lt_of_succ_lt running)).further running).2
  have between : ∀ passed ≤ frames, passed < action.ticks → ∀ earlier < passed,
      IsBetween (seen earlier) (seen passed) goal := by
    intro passed within running earlier before
    rw [onTheWay passed within running, onTheWay earlier (by omega) (by omega)]
    exact isBetween_steps moving (Nat.cast_lt.mpr before) (Timing.lt_steps running)
  intro passed within
  cases passed with
  | zero =>
    exact ⟨fun running => ⟨onTheWay 0 within running, fun apart => apart,
      between 0 within running⟩, fun ended => absurd ended (Timing.ticks_pos moving).ne⟩
  | succ passed =>
    refine ⟨fun running => ⟨onTheWay _ within running, fun apart => ?_, between _ within running⟩,
      fun ended => (come passed within (by omega)).ended ended⟩
    exact (between _ within running 0 passed.succ_pos).ne_second apart

/-- A lamp that goes out within one and a half seconds as the performance begins. -/
def Scene.dusk : Scene ℚ where
  objects := [{
    id := "lamp"
    position := ⟨0, 0, 0⟩
    orientation := ⟨1, 0, 0, 0⟩
    visible := true
    triggers := []
    timelines := [⟨"dusk", true, [⟨0, ⟨none, 3 / 2, .visibility false⟩⟩]⟩]
    linkActions := []
    children := [] }]
  groups := []

/-- Whether an effect that fades leaves its object visible. -/
def Effect.fading? {α : Type} : Effect α → Option Bool
  | .fade visible => some visible
  | _ => none

theorem Effect.fading?_eq_some {α : Type} {effect : Effect α} {visible : Bool} :
    effect.fading? = some visible ↔ effect = .fade visible := by
  cases effect <;> simp [fading?]

theorem Scene.exists_action_dusk :
    letI := unturned
    ∃ action ∈ Program.instances 1 Scene.dusk, action.isTimed ∧ action.number = 0 ∧
      action.ticks = 2 ∧ action.timing.steps = 3 / 2 ∧ action.effect = .fade false ∧
      "lamp" ∈ action.targets := by
  let _ := unturned
  have listed : (Program.instances 1 Scene.dusk).any (fun action => action.isTimed &&
      decide (action.number = 0) && decide (action.ticks = 2) &&
      decide (action.timing.steps = 3 / 2) && decide (action.effect.fading? = some false) &&
      action.targets.contains "lamp") = true := by
    decide +kernel
  obtain ⟨action, member, suitable⟩ := List.any_eq_true.mp listed
  simp only [Bool.and_eq_true, decide_eq_true_eq, List.contains_iff_mem] at suitable
  obtain ⟨⟨⟨⟨⟨timed, number⟩, ticks⟩, steps⟩, isFade⟩, targeted⟩ := suitable
  exact ⟨action, member, timed, number, ticks, steps, Effect.fading?_eq_some.mp isFade, targeted⟩

/-- Nothing else is done to the lamp. -/
theorem Scene.leavesAlone_dusk :
    letI := unturned
    ∀ program action, Program.compile 1 Scene.dusk = .ok program →
      action ∈ Program.instances 1 Scene.dusk → action.isTimed → action.number = 0 →
      action.ticks = 2 → "lamp" ∈ action.targets →
      let run := Run.ofScene program Scene.dusk fun _ => []
      ∃ before found rest,
        run.trace 0 = before ++ .entered "lamp" action.opening found :: rest ∧
        run.LeavesAlone action "lamp" Slot.alpha 0 rest 2 := by
  let _ := unturned
  intro program action compiled member timed number ticks targeted run
  have standings : (let run := Run.ofScene program Scene.dusk fun _ => []
      [1, 2].map fun frame => ((run.stage frame).world.read "lamp" (Slot.action 0 .active).key,
        (run.stage frame).world.read "lamp" (Slot.action 0 .elapsed).key)) = [(1, 1), (0, 2)] := by
    apply Outcome.eq_of_seen compiled
    decide +kernel
  have writes : (let run := Run.ofScene program Scene.dusk fun _ => []
      [0, 1].map fun frame => (Trace.ledger "lamp" Slot.alpha.key (run.trace frame)).length) =
        [1, 2] := by
    apply Outcome.eq_of_seen compiled
    decide +kernel
  simp only [List.map_cons, List.map_nil, List.cons.injEq, Prod.mk.injEq] at standings writes
  obtain ⟨⟨active, elapsed⟩, ⟨ended, -⟩, -⟩ := standings
  obtain ⟨oneWrite, twoWrites, -⟩ := writes
  obtain ⟨layout⟩ := Program.exists_layout compiled
  have small : action.ticks ≤ countingLimit := by
    rw [ticks]
    decide
  have dispatches (frame : Nat) : run.Dispatches action frame ↔
      action.status (run.stage (frame + 1)).world "lamp" = (1, 1) :=
    layout.dispatches_iff_status member timed small (fun _ => []) (by rw [ticks]; decide) frame
      targeted
  simp only [Instance.status, Instance.active, Instance.elapsed, number, Prod.mk.injEq]
    at dispatches
  have dispatched : run.Dispatches action 0 := (dispatches 0).mpr ⟨active, elapsed⟩
  have once : ¬run.Dispatches action 1 := fun again =>
    zero_ne_one (ended.symm.trans ((dispatches 1).mp again).1)
  refine layout.exists_leavesAlone member timed targeted (fun _ => []) small (by decide) dispatched
    (fun later after before => ?_) (fun _ _ _ _ none => absurd none List.not_mem_nil)
    fun passed within => ?_
  · rwa [show later = 1 by omega]
  · rw [Instance.due, Instance.frames, ticks]
    rcases (show passed = 0 ∨ passed = 1 by omega) with rfl | rfl
    · exact oneWrite.le.trans (by decide)
    · exact twoWrites.le.trans (by decide)

/-- With one frame a second, the second step of the lamp leads beyond darkness, but the lamp is just
dark after it. -/
theorem glides_without_overshoot_dusk :
    letI := unturned
    ∃ program action, Program.compile 1 Scene.dusk = .ok program ∧
      action ∈ Program.instances 1 Scene.dusk ∧ action.isTimed ∧ 0 < action.timing.steps ∧
      action.ticks = 2 ∧ "lamp" ∈ action.targets ∧
      let run := Run.ofScene program Scene.dusk fun _ => []
      ∃ before found rest,
        run.trace 0 = before ++ .entered "lamp" action.opening found :: rest ∧
        action.effect.Leads found "lamp" Slot.alpha 0 ∧
        run.LeavesAlone action "lamp" Slot.alpha 0 rest 2 ∧
        let start := found.read "lamp" Slot.alpha.key
        (run.stage 1).world.read "lamp" Slot.alpha.key = start + (0 - start) / (3 / 2) ∧
        (run.stage 2).world.read "lamp" Slot.alpha.key = 0 := by
  let _ := unturned
  obtain ⟨program, compiled⟩ : ∃ program, Program.compile 1 Scene.dusk = .ok program :=
    Program.exists_of_isOk (by decide +kernel)
  obtain ⟨action, member, timed, number, ticks, steps, fades, targeted⟩ := Scene.exists_action_dusk
  obtain ⟨before, found, rest, begins, left⟩ :=
    Scene.leavesAlone_dusk program action compiled member timed number ticks targeted
  have moving : 0 < action.timing.steps := by
    rw [steps]
    norm_num
  have leads : action.effect.Leads found "lamp" Slot.alpha 0 := by
    rw [fades]
    exact .fade false
  have glides := glides_without_overshoot compiled member timed moving targeted (fun _ => []) begins
    leads left
  refine ⟨program, action, compiled, member, timed, moving, ticks, targeted, before, found, rest,
    begins, leads, left, ?_, (glides 2 le_rfl).2 ticks.symm⟩
  have halfway := ((glides 1 (by decide)).1 (by rw [ticks]; decide)).1
  rwa [Nat.cast_one, one_mul, steps] at halfway

end Stagecraft
