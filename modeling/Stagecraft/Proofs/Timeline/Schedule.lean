/-
This file follows a timeline tick by tick while nothing else changes its state. Its entries are in
the order of their start ticks, so the cursor stands behind those that started before. In its turn
it dispatches the entries of the tick one after the other, counts the tick, and stops once the last
entry has been dispatched and the end is reached.
-/

import Stagecraft.Proofs.Lists
import Stagecraft.Proofs.Scalar.Scheduling
import Stagecraft.Proofs.Timeline.Safety

namespace Stagecraft

/-- A sum of tick counts is exact if it can be stored. -/
theorem Ticks.add_of_le {first second : Nat} (fits : first + second ≤ limit) :
    add first second = first + second :=
  Nat.mod_eq_of_lt (Nat.lt_succ_of_le fits)

/-- A second more than all that can be stored. -/
example : Ticks.add Ticks.limit 60 = 59 := by decide

namespace Sequence

variable {α : Type} [Trigonometric α]

/-! ### Ticks -/

section

variable (sequence : Sequence α)

/-- The number of entries that start before a tick. -/
def sent (tick : Nat) : Nat :=
  sequence.cues.countP fun cue => sequence.startTick cue < tick

/-- The places of the entries that start at a tick. -/
def dueAt (tick : Nat) : List Nat :=
  (sequence.cues.zipIdx.filter fun entry => sequence.startTick entry.1 = tick).map (·.2)

/-- The tick at which the last entry starts. -/
def lastStart : Nat :=
  (sequence.cues.map sequence.startTick).foldl max 0

/-- The entries are in the order of their start ticks. -/
def IsOrdered : Prop :=
  sequence.cues.Pairwise fun first second => sequence.startTick first ≤ sequence.startTick second

/-- No entry starts or stops the timeline itself. To go on, or to start what was started, changes
nothing while it runs. -/
def IsSelfless : Prop :=
  ∀ cue ∈ sequence.cues, ∀ change, cue.action.effect = .timeline sequence.name change →
    change = .continue ∨ change = .startIfNotStarted

end

variable {sequence : Sequence α}

/-- At every tick the entries are those that started before, those that start, and the later ones. -/
theorem IsOrdered.exists_split (ordered : sequence.IsOrdered) (tick : Nat) :
    ∃ before due later, sequence.cues = before ++ (due ++ later) ∧
      (∀ cue ∈ before, sequence.startTick cue < tick) ∧
      (∀ cue ∈ due, sequence.startTick cue = tick) ∧
      ∀ cue ∈ later, tick < sequence.startTick cue := by
  let started : Cue α → Bool := fun cue => sequence.startTick cue < tick
  let begun : Cue α → Bool := fun cue => sequence.startTick cue < tick + 1
  have first := Lists.filter_append_filter started (ordered.imp fun {first second} within =>
    by simpa [started] using within.trans_lt)
  have second := Lists.filter_append_filter begun
    ((ordered.filter fun cue => !started cue).imp fun {first second} within => by
      simpa [begun] using within.trans)
  refine ⟨sequence.cues.filter started, (sequence.cues.filter fun cue => !started cue).filter begun,
    (sequence.cues.filter fun cue => !started cue).filter fun cue => !begun cue, ?_, ?_, ?_, ?_⟩
  · rw [second, first]
  · intro cue member
    simpa [started] using (List.mem_filter.mp member).2
  · intro cue member
    obtain ⟨inside, isBegun⟩ := List.mem_filter.mp member
    have notStarted := (List.mem_filter.mp inside).2
    simp only [started, begun, Bool.not_eq_true', decide_eq_false_iff_not,
      decide_eq_true_eq] at isBegun notStarted
    omega
  · intro cue member
    have notBegun := (List.mem_filter.mp member).2
    simp only [begun, Bool.not_eq_true', decide_eq_false_iff_not] at notBegun
    omega

section

variable {before due later : List (Cue α)} {tick : Nat}
  (split : sequence.cues = before ++ (due ++ later))
  (early : ∀ cue ∈ before, sequence.startTick cue < tick)
  (now : ∀ cue ∈ due, sequence.startTick cue = tick)
  (late : ∀ cue ∈ later, tick < sequence.startTick cue)

include split early now late

theorem sent_eq : sequence.sent tick = before.length := by
  have all : before.countP (fun cue => sequence.startTick cue < tick) = before.length :=
    List.countP_eq_length.mpr fun cue member => by simpa using early cue member
  have noneDue : due.countP (fun cue => sequence.startTick cue < tick) = 0 :=
    List.countP_eq_zero.mpr fun cue member => by simp [now cue member]
  have noneLater : later.countP (fun cue => sequence.startTick cue < tick) = 0 :=
    List.countP_eq_zero.mpr fun cue member => by simpa using (late cue member).le
  rw [sent, split, List.countP_append, List.countP_append, all, noneDue, noneLater,
    Nat.add_zero]

theorem sent_succ_eq : sequence.sent (tick + 1) = before.length + due.length := by
  have all : before.countP (fun cue => sequence.startTick cue < tick + 1) = before.length :=
    List.countP_eq_length.mpr fun cue member => by simpa using (early cue member).le
  have allDue : due.countP (fun cue => sequence.startTick cue < tick + 1) = due.length :=
    List.countP_eq_length.mpr fun cue member => by simp [now cue member]
  have noneLater : later.countP (fun cue => sequence.startTick cue < tick + 1) = 0 :=
    List.countP_eq_zero.mpr fun cue member => by simpa using late cue member
  rw [sent, split, List.countP_append, List.countP_append, all, allDue, noneLater, Nat.add_zero]

theorem dueAt_eq : sequence.dueAt tick = List.range' before.length due.length := by
  have none {entries : List (Cue α)} (other : ∀ cue ∈ entries, sequence.startTick cue ≠ tick)
      (first : Nat) : (entries.zipIdx first).filter (fun entry =>
        sequence.startTick entry.1 = tick) = [] := by
    refine List.filter_eq_nil_iff.mpr fun entry member => ?_
    simpa using other entry.1 (List.fst_mem_of_mem_zipIdx member)
  have all : (due.zipIdx before.length).filter (fun entry =>
      sequence.startTick entry.1 = tick) = due.zipIdx before.length := by
    refine List.filter_eq_self.mpr fun entry member => ?_
    simpa using now entry.1 (List.fst_mem_of_mem_zipIdx member)
  rw [dueAt, split, List.zipIdx_append, List.zipIdx_append, List.filter_append, List.filter_append,
    none fun cue member => (early cue member).ne, Nat.zero_add, all,
    none fun cue member => (late cue member).ne', List.nil_append, List.append_nil,
    List.zipIdx_map_snd]

end

/-! ### Dispatches of entries -/

section

variable {owner : String} {events more : List (Event α)} {world next : World α}

/-- The timeline goes on at a tick, and its cursor stands at a place. -/
structure GoesOn (sequence : Sequence α) (owner : String) (tick place : Nat) (world : World α) :
    Prop where
  running : sequence.value owner world .running = 1
  started : sequence.value owner world .started = 1
  elapsed : sequence.value owner world .elapsed = Scalar.ofNat tick
  cursor : sequence.value owner world .cursor = Scalar.ofNat place

theorem GoesOn.of_eq {tick place : Nat} (goes : GoesOn sequence owner tick place world)
    (same : ∀ field, sequence.value owner next field = sequence.value owner world field) :
    GoesOn sequence owner tick place next :=
  ⟨(same _).trans goes.running, (same _).trans goes.started, (same _).trans goes.elapsed,
    (same _).trans goes.cursor⟩

/-- What happens is no dispatch, and the state of the timeline stays. -/
structure Steady (sequence : Sequence α) (owner : String) (world : World α)
    (events : List (Event α)) (next : World α) : Prop where
  calm : Calm sequence owner events
  same : ∀ field, sequence.value owner next field = sequence.value owner world field

theorem Steady.refl (world : World α) : Steady sequence owner world [] world :=
  ⟨calm_nil, fun _ => rfl⟩

theorem Steady.trans {last : World α} (first : Steady sequence owner world events next)
    (second : Steady sequence owner next more last) :
    Steady sequence owner world (events ++ more) last :=
  ⟨calm_append.mpr ⟨first.calm, second.calm⟩, fun field =>
    (second.same field).trans (first.same field)⟩

theorem Steady.enter (steady : Steady sequence owner world events next) {object : String}
    {block : Block α} {found : World α}
    (other : ∀ index, ¬sequence.IsDispatch owner index (.entered object block found)) :
    Steady sequence owner world (.entered object block found :: events) next :=
  ⟨calm_cons.mpr ⟨⟨rfl, other⟩, steady.calm⟩, steady.same⟩

theorem steady_of_spared {this : String} {body : Block α}
    (spared : ∀ field, (owner, (sequence.slot field).key) ∉ Block.writes this body)
    (locals : Locals α) (world : World α) :
    Steady sequence owner world (Block.traceAll this locals world body)
      (Block.runAll this locals world body) :=
  ⟨calm_of_spared spared locals world, fun field =>
    Block.read_runAll this locals world owner _ body (spared field)⟩

variable [Counting α]

/-- A timeline that goes on is not changed by going on, nor by starting it if it was not. -/
theorem steady_change {change : TimelineChange}
    (harmless : change = .continue ∨ change = .startIfNotStarted) (hosted : world.hosts owner)
    (running : sequence.value owner world .running = 1)
    (started : sequence.value owner world .started = 1) (locals : Locals α) :
    Steady sequence owner world
      (Block.traceAll owner locals world (Effect.changeTimeline sequence.name change))
      (Block.runAll owner locals world (Effect.changeTimeline sequence.name change)) := by
  have slotEq (field : TimelineField) : Slot.timeline sequence.name field = sequence.slot field :=
    rfl
  rcases harmless with rfl | rfl
  · simp only [Effect.changeTimeline, slotEq, Block.traceAll_cons, Slot.trace_write,
      Block.traceAll_nil, Block.runAll_cons, Slot.run_write, Block.runAll_nil, List.append_nil]
    refine ⟨by simp, fun field => ?_⟩
    rw [value_write hosted]
    split
    · rename_i same
      rw [← same, running, ← started]
      rfl
    · rfl
  · have notZero : (world.read owner (Slot.timeline sequence.name .started).key == (0 : α)) =
        false := by
      rw [← Counting.one_beq_zero (α := α), ← started]
      rfl
    rw [Effect.changeTimeline, Block.traceAll_cons, Block.traceAll_nil, List.append_nil,
      Block.runAll_cons, Block.runAll_nil, Stmt.trace_onlyIf, Stmt.run_onlyIf,
      Expr.isTruthy_equals_read, notZero, if_neg Bool.false_ne_true, if_neg Bool.false_ne_true]
    exact (Steady.refl world).enter fun index => not_isDispatch_nil

/-- An action that neither starts nor stops the timeline leaves it steady on every target. -/
theorem steady_opened {action : Instance α}
    (harmless : ∀ change, action.effect = .timeline sequence.name change →
      change = .continue ∨ change = .startIfNotStarted) (hosted : world.hosts owner)
    (running : sequence.value owner world .running = 1)
    (started : sequence.value owner world .started = 1) (this target : String)
    (locals : Locals α) :
    Steady sequence owner world ((Stmt.within target action.opening).trace this locals world)
      ((Stmt.within target action.opening).run this locals world).2 := by
  rcases changes_or_spares_within sequence owner action this target with
    ⟨rfl, change, effect⟩ | spared
  · obtain ⟨flags, opening, spared⟩ := exists_flags_of_change effect target
    have notEntry (index : Nat) : ¬sequence.IsDispatch target index
        (.entered target action.opening world) := opening ▸ not_isDispatch_change
    have changed := steady_change (harmless change effect) hosted running started locals
    have flagged := changed.trans (steady_of_spared spared (Block.thread target locals world
      (Effect.changeTimeline sequence.name change)).1 _)
    rw [Stmt.trace, Stmt.run]
    refine Steady.enter ?_ notEntry
    rw [opening, Block.traceAll_append, Block.runAll_append]
    exact flagged
  · simpa [Block.traceAll_cons] using steady_of_spared spared locals world

theorem steady_dispatch {action : Instance α}
    (harmless : ∀ change, action.effect = .timeline sequence.name change →
      change = .continue ∨ change = .startIfNotStarted) (hosted : world.hosts owner)
    (running : sequence.value owner world .running = 1)
    (started : sequence.value owner world .started = 1) (this : String) (locals : Locals α) :
    Steady sequence owner world (Block.traceAll this locals world action.dispatch)
      (Block.runAll this locals world action.dispatch) := by
  have each (targets : List String) : ∀ (locals : Locals α) (world : World α), world.hosts owner →
      sequence.value owner world .running = 1 → sequence.value owner world .started = 1 →
      Steady sequence owner world
        (Block.traceAll this locals world
          (targets.map fun target => .within target action.opening))
        (Block.runAll this locals world
          (targets.map fun target => .within target action.opening)) := by
    induction targets with
    | nil =>
      intro locals world _ _ _
      simpa using Steady.refl world
    | cons target rest inductionHypothesis =>
      intro locals world hosted running started
      have opened := steady_opened harmless hosted running started this target locals
      rw [List.map_cons, Block.traceAll_cons, Block.runAll_cons]
      refine opened.trans (inductionHypothesis _ _ (by rwa [Stmt.hosts_run]) ?_ ?_)
      · exact (opened.same .running).trans running
      · exact (opened.same .started).trans started
  exact each action.targets locals world hosted running started

/-! ### Chains of entries -/

omit [Counting α] in
/-- An entry that is not next, or whose time has not come, is passed over. -/
theorem dispatchAt_idle {cue : Cue α} {index : Nat}
    (idle : (sequence.value owner world .cursor == Scalar.ofNat index) = false ∨
      ¬(Scalar.ofNat (sequence.startTick cue) : α) ≤ sequence.value owner world .elapsed)
    (locals : Locals α) :
    (sequence.dispatchAt cue index).trace owner locals world = [.entered owner [] world] ∧
      (sequence.dispatchAt cue index).run owner locals world = (locals, world) := by
  have notDue : ((((sequence.slot .cursor).read.equals (.num (Scalar.ofNat index))).and
      ((sequence.slot .elapsed).read.ge (.num (Scalar.ofNat (sequence.startTick cue))))).eval
        world owner locals).isTruthy = false := by
    rw [Expr.isTruthy_and, Expr.isTruthy_equals_read, Expr.isTruthy_ge_read, Bool.and_eq_false_iff,
      decide_eq_false_iff_not]
    exact idle
  rw [dispatchAt, Stmt.trace_onlyIf, Stmt.run_onlyIf, notDue]
  exact ⟨rfl, rfl⟩

omit [Counting α] in
theorem chain_idle {entries : List (Cue α × Nat)} (locals : Locals α)
    (idle : ∀ entry ∈ entries, (sequence.value owner world .cursor == Scalar.ofNat entry.2) = false ∨
      ¬(Scalar.ofNat (sequence.startTick entry.1) : α) ≤ sequence.value owner world .elapsed) :
    Calm sequence owner (Block.traceAll owner locals world
        (entries.map fun entry => sequence.dispatchAt entry.1 entry.2)) ∧
      Block.thread owner locals world
        (entries.map fun entry => sequence.dispatchAt entry.1 entry.2) = (locals, world) := by
  induction entries with
  | nil => exact ⟨by simp, rfl⟩
  | cons entry rest inductionHypothesis =>
    obtain ⟨here, later⟩ := List.forall_mem_cons.mp idle
    obtain ⟨trace, run⟩ := dispatchAt_idle here locals
    rw [List.map_cons, Block.traceAll_cons, Block.thread_cons, trace, run]
    refine ⟨calm_append.mpr ⟨?_, (inductionHypothesis later).1⟩, (inductionHypothesis later).2⟩
    exact calm_cons.mpr ⟨⟨rfl, fun index => not_isDispatch_nil⟩, calm_nil⟩

omit [Counting α] in
/-- The entry under the cursor, once its time has come, is dispatched. -/
theorem dispatchAt_of_due {cue : Cue α} {place : Nat}
    (next : (sequence.value owner world .cursor == Scalar.ofNat place) = true)
    (come : (Scalar.ofNat (sequence.startTick cue) : α) ≤ sequence.value owner world .elapsed)
    (locals : Locals α) :
    let moved := world.write owner (sequence.slot .cursor).key (Scalar.ofNat (place + 1))
    (sequence.dispatchAt cue place).trace owner locals world =
        .entered owner (sequence.entry cue place) world ::
          .wrote owner (sequence.slot .cursor).key (Scalar.ofNat (place + 1)) ::
          Block.traceAll owner locals moved cue.action.dispatch ∧
      (sequence.dispatchAt cue place).run owner locals world =
        (locals, Block.runAll owner locals moved cue.action.dispatch) := by
  have isDue : ((((sequence.slot .cursor).read.equals (.num (Scalar.ofNat place))).and
      ((sequence.slot .elapsed).read.ge (.num (Scalar.ofNat (sequence.startTick cue))))).eval
        world owner locals).isTruthy = true := by
    rw [Expr.isTruthy_and, Expr.isTruthy_equals_read, Expr.isTruthy_ge_read, Bool.and_eq_true,
      decide_eq_true_iff]
    exact ⟨next, come⟩
  rw [dispatchAt, Stmt.trace_onlyIf, Stmt.run_onlyIf, isDue, if_pos rfl, if_pos rfl,
    Block.traceAll_cons, Slot.trace_write, Block.runAll_cons, Slot.run_write]
  exact ⟨rfl, rfl⟩

omit [Counting α] in
/-- The dispatch of an entry is the only one in it, if its action dispatches none. -/
theorem dispatches_entry {cue : Cue α} {place : Nat} (atPlace : sequence.cues[place]? = some cue)
    {key : String} {value : α} (none : sequence.dispatches owner events = []) :
    sequence.dispatches owner
        (.entered owner (sequence.entry cue place) world :: .wrote owner key value :: events) =
      [.entered owner (sequence.entry cue place) world] := by
  have some : ∃ index, sequence.IsDispatch owner index
      (.entered owner (sequence.entry cue place) world) := ⟨place, cue, world, atPlace, rfl⟩
  rw [dispatches] at none ⊢
  simp [some, none]

/-- The entry under the cursor is dispatched at its tick. -/
theorem dispatchAt_due (selfless : sequence.IsSelfless)
    (small : sequence.cues.length ≤ countingLimit) {cue : Cue α} {place tick : Nat}
    (atPlace : sequence.cues[place]? = some cue) (starts : sequence.startTick cue = tick)
    (within : tick ≤ countingLimit) (goes : GoesOn sequence owner tick place world)
    (hosted : world.hosts owner) (locals : Locals α) :
    (∃ event, sequence.IsDispatch owner place event ∧
      sequence.dispatches owner ((sequence.dispatchAt cue place).trace owner locals world) =
        [event]) ∧
      GoesOn sequence owner tick (place + 1)
        ((sequence.dispatchAt cue place).run owner locals world).2 := by
  have below := (List.getElem?_eq_some_iff.mp atPlace).1
  have next : (sequence.value owner world .cursor == (Scalar.ofNat place : α)) = true := by
    rw [goes.cursor, Counting.ofNat_beq _ _ (by omega) (by omega), decide_eq_true rfl]
  have come : (Scalar.ofNat (sequence.startTick cue) : α) ≤ sequence.value owner world .elapsed := by
    rw [goes.elapsed, starts]
    exact (Counting.ofNat_le _ _ within within).mpr le_rfl
  obtain ⟨trace, run⟩ := dispatchAt_of_due next come locals
  let moved := world.write owner (sequence.slot .cursor).key (Scalar.ofNat (place + 1))
  have hostedMoved : moved.hosts owner := by rwa [World.hosts_write]
  have value (field : TimelineField) : sequence.value owner moved field =
      if .cursor = field then Scalar.ofNat (place + 1) else sequence.value owner world field :=
    value_write hosted _ _ _
  have goesMoved : GoesOn sequence owner tick (place + 1) moved :=
    ⟨(value .running).trans goes.running, (value .started).trans goes.started,
      (value .elapsed).trans goes.elapsed, value .cursor⟩
  have steady := steady_dispatch (selfless _ (List.mem_of_getElem? atPlace)) hostedMoved
    goesMoved.running goesMoved.started owner locals
  rw [trace, run, dispatches_entry atPlace steady.calm.dispatches_eq_nil]
  exact ⟨⟨_, ⟨cue, world, atPlace, rfl⟩, rfl⟩, goesMoved.of_eq steady.same⟩

/-- Entries that follow the cursor are dispatched one after the other at their tick. -/
theorem chain_due (selfless : sequence.IsSelfless)
    (small : sequence.cues.length ≤ countingLimit) {tick : Nat} (within : tick ≤ countingLimit)
    {due : List (Cue α)} (starts : ∀ cue ∈ due, sequence.startTick cue = tick) {place : Nat}
    (placed : ∀ entry ∈ due.zipIdx place, sequence.cues[entry.2]? = some entry.1)
    (goes : GoesOn sequence owner tick place world) (hosted : world.hosts owner)
    (locals : Locals α) :
    List.Forall₂ (sequence.IsDispatch owner) (List.range' place due.length)
        (sequence.dispatches owner (Block.traceAll owner locals world
          ((due.zipIdx place).map fun entry => sequence.dispatchAt entry.1 entry.2))) ∧
      GoesOn sequence owner tick (place + due.length)
        (Block.runAll owner locals world
          ((due.zipIdx place).map fun entry => sequence.dispatchAt entry.1 entry.2)) := by
  induction due generalizing place world locals with
  | nil =>
    refine ⟨?_, by simpa using goes⟩
    simp [dispatches]
  | cons cue rest inductionHypothesis =>
    obtain ⟨startsHere, startsLater⟩ := List.forall_mem_cons.mp starts
    rw [List.zipIdx_cons] at placed ⊢
    obtain ⟨atPlace, placedLater⟩ := List.forall_mem_cons.mp placed
    obtain ⟨⟨event, dispatched, single⟩, moved⟩ := dispatchAt_due selfless small atPlace startsHere
      within goes hosted locals
    obtain ⟨dispatchedLater, left⟩ := inductionHypothesis startsLater placedLater moved
      (by rwa [Stmt.hosts_run]) ((sequence.dispatchAt cue place).run owner locals world).1
    rw [List.map_cons, Block.traceAll_cons, Block.runAll_cons, dispatches_append, single,
      List.length_cons, List.range'_succ]
    refine ⟨.cons dispatched dispatchedLater, ?_⟩
    rw [Nat.add_right_comm] at left
    exact left

/-! ### Turns -/

/-- In the tick the last entry has been dispatched, and the end is reached. -/
def IsLast (sequence : Sequence α) (tick : Nat) : Prop :=
  (Scalar.ofNat sequence.cues.length : α) ≤ Scalar.ofNat (sequence.sent (tick + 1)) ∧
    (Scalar.ofNat sequence.endTick : α) ≤ Scalar.ofNat tick + 1

instance (tick : Nat) : Decidable (sequence.IsLast tick) :=
  inferInstanceAs (Decidable (_ ∧ _))

/-- What a turn leaves behind. -/
structure Ticked (sequence : Sequence α) (owner : String) (tick : Nat) (world : World α) : Prop where
  running : sequence.value owner world .running = if sequence.IsLast tick then 0 else 1
  started : sequence.value owner world .started = 1
  elapsed : sequence.value owner world .elapsed = Scalar.ofNat tick + 1
  cursor : sequence.value owner world .cursor = Scalar.ofNat (sequence.sent (tick + 1))

omit [Counting α] in
/-- At the end of a turn the tick is counted, and the timeline stops if it was the last one. -/
theorem ticked_of_goesOn {tick : Nat}
    (goes : GoesOn sequence owner tick (sequence.sent (tick + 1)) world)
    (hosted : world.hosts owner) (locals : Locals α) :
    Calm sequence owner
        (Block.traceAll owner locals world [sequence.countTick, sequence.stopAtEnd]) ∧
      Ticked sequence owner tick
        (Block.runAll owner locals world [sequence.countTick, sequence.stopAtEnd]) := by
  let counted : World α :=
    world.write owner (sequence.slot .elapsed).key (Scalar.ofNat tick + 1)
  have number : (((sequence.slot .elapsed).read + .num 1 : Expr α).eval world owner locals).number =
      Scalar.ofNat tick + 1 := by
    rw [Expr.eval_add, Slot.eval_read, Expr.eval_num]
    exact congrArg (· + 1) goes.elapsed
  have trace : Block.traceAll owner locals world [sequence.countTick, sequence.stopAtEnd] =
      .wrote owner (sequence.slot .elapsed).key (Scalar.ofNat tick + 1) ::
        sequence.stopAtEnd.trace owner locals counted := by
    rw [Block.traceAll_cons, Block.traceAll_cons, Block.traceAll_nil, List.append_nil, countTick,
      Slot.trace_write, Slot.run_write, number]
    rfl
  have run : Block.runAll owner locals world [sequence.countTick, sequence.stopAtEnd] =
      (sequence.stopAtEnd.run owner locals counted).2 := by
    rw [Block.runAll_cons, Block.runAll_cons, Block.runAll_nil, countTick, Slot.run_write, number]
  have value (field : TimelineField) : sequence.value owner counted field =
      if .elapsed = field then Scalar.ofNat tick + 1 else sequence.value owner world field :=
    value_write hosted _ _ _
  have hostedStill : counted.hosts owner := by rwa [World.hosts_write]
  have ends : ((((sequence.slot .cursor).read.ge (.num (Scalar.ofNat sequence.cues.length))).and
      ((sequence.slot .elapsed).read.ge (.num (Scalar.ofNat sequence.endTick)))).eval counted owner
        locals).isTruthy = decide (sequence.IsLast tick) := by
    have sent : counted.read owner (sequence.slot .cursor).key =
        Scalar.ofNat (sequence.sent (tick + 1)) := (value .cursor).trans goes.cursor
    have spent : counted.read owner (sequence.slot .elapsed).key = Scalar.ofNat tick + 1 :=
      value .elapsed
    rw [Expr.isTruthy_and, Expr.isTruthy_ge_read, Expr.isTruthy_ge_read, sent, spent,
      ← Bool.decide_and]
    rfl
  rw [trace, run, stopAtEnd, Stmt.trace_onlyIf, Stmt.run_onlyIf, ends]
  by_cases last : sequence.IsLast tick
  · rw [decide_eq_true last, if_pos rfl, if_pos rfl, Block.traceAll_cons, Block.traceAll_nil,
      List.append_nil, Slot.trace_write, Block.runAll_cons, Block.runAll_nil, Slot.run_write]
    have notEntry (index : Nat) : ¬sequence.IsDispatch owner index
        (.entered owner [(sequence.slot .running).write (.num 0)] counted) :=
      not_isDispatch_write (by simp)
    refine ⟨by simp [notEntry, isRewind.eq_2], ?_, ?_, ?_, ?_⟩ <;>
      rw [value_write hostedStill, value] <;> simp [goes.started, goes.cursor, last, Value.number]
  · rw [decide_eq_false last, if_neg Bool.false_ne_true, if_neg Bool.false_ne_true]
    refine ⟨by simp [not_isDispatch_nil, isRewind.eq_2], ?_, ?_, ?_, ?_⟩ <;> rw [value]
    · rw [if_neg (by simp), if_neg last, goes.running]
    · rw [if_neg (by simp), goes.started]
    · rw [if_pos rfl]
    · rw [if_neg (by simp), goes.cursor]

/-- Of all entries those of the tick are dispatched, in order. -/
theorem chain_of_goesOn (ordered : sequence.IsOrdered) (selfless : sequence.IsSelfless)
    (small : sequence.cues.length ≤ countingLimit)
    (starts : ∀ cue ∈ sequence.cues, sequence.startTick cue ≤ countingLimit) {tick : Nat}
    (within : tick ≤ countingLimit)
    (goes : GoesOn sequence owner tick (sequence.sent tick) world) (hosted : world.hosts owner)
    (locals : Locals α) :
    let chain := sequence.cues.zipIdx.map fun entry => sequence.dispatchAt entry.1 entry.2
    List.Forall₂ (sequence.IsDispatch owner) (sequence.dueAt tick)
        (sequence.dispatches owner (Block.traceAll owner locals world chain)) ∧
      GoesOn sequence owner tick (sequence.sent (tick + 1))
        (Block.runAll owner locals world chain) := by
  obtain ⟨before, due, later, split, early, now, late⟩ := ordered.exists_split tick
  have whole : before.length + (due.length + later.length) = sequence.cues.length := by
    rw [split, List.length_append, List.length_append]
  rw [sent_eq split early now late] at goes
  let statement : Cue α × Nat → Stmt α := fun entry => sequence.dispatchAt entry.1 entry.2
  -- The cursor stands behind the entries that started before.
  obtain ⟨calmBefore, threadBefore⟩ : Calm sequence owner
      (Block.traceAll owner locals world (before.zipIdx.map statement)) ∧
      Block.thread owner locals world (before.zipIdx.map statement) = (locals, world) := by
    refine chain_idle locals fun entry member => .inl ?_
    have place := List.snd_lt_add_of_mem_zipIdx member
    rw [goes.cursor, Counting.ofNat_beq _ _ (by omega) (by omega), decide_eq_false_iff_not]
    omega
  have placed : ∀ entry ∈ due.zipIdx before.length, sequence.cues[entry.2]? = some entry.1 := by
    intro entry member
    have found := List.mem_zipIdx_iff_le_and_getElem?_sub.mp member
    rw [split, List.getElem?_append_right found.1, List.getElem?_append_left ?_]
    · exact found.2
    · exact (List.getElem?_eq_some_iff.mp found.2).1
  obtain ⟨dispatched, moved⟩ := chain_due selfless small within now placed goes hosted locals
  -- The time of the later ones has not come.
  let mid := Block.thread owner locals world ((due.zipIdx before.length).map statement)
  obtain ⟨calmLater, threadLater⟩ : Calm sequence owner (Block.traceAll owner mid.1 mid.2
      ((later.zipIdx (before.length + due.length)).map statement)) ∧
      Block.thread owner mid.1 mid.2
        ((later.zipIdx (before.length + due.length)).map statement) = (mid.1, mid.2) := by
    refine chain_idle mid.1 fun entry member => .inr ?_
    have isLater := List.fst_mem_of_mem_zipIdx member
    have inCues : entry.1 ∈ sequence.cues := by
      rw [split]
      exact List.mem_append_right _ (List.mem_append_right _ isLater)
    rw [Block.runAll_eq_thread] at moved
    rw [moved.elapsed, Counting.ofNat_le _ _ (starts _ inCues) within, not_le]
    exact late _ isLater
  have chain : sequence.cues.zipIdx.map statement = before.zipIdx.map statement ++
      ((due.zipIdx before.length).map statement ++
        (later.zipIdx (before.length + due.length)).map statement) := by
    rw [split, List.zipIdx_append, List.zipIdx_append, Nat.zero_add, List.map_append,
      List.map_append]
  dsimp only
  rw [show sequence.cues.zipIdx.map _ = _ from chain, dueAt_eq split early now late,
    sent_succ_eq split early now late]
  constructor
  · rw [Block.traceAll_append, Block.traceAll_append, dispatches_append, dispatches_append,
      calmBefore.dispatches_eq_nil, List.nil_append, Block.runAll_eq_thread, threadBefore,
      Block.runAll_eq_thread, calmLater.dispatches_eq_nil, List.append_nil]
    exact dispatched
  · rw [Block.runAll_append, Block.runAll_append, Block.runAll_eq_thread _ _ _ (before.zipIdx.map _),
      threadBefore, Block.runAll_eq_thread _ _ _ ((due.zipIdx _).map _), Block.runAll_eq_thread,
      threadLater]
    rw [Block.runAll_eq_thread] at moved
    exact moved

omit [Counting α] in
/-- The turn of a timeline that runs: its entries are offered, the tick is counted, and at the end it
stops. -/
theorem go_of_running (running : (sequence.value owner world .running == 0) = false)
    (locals : Locals α) :
    let chain := sequence.cues.zipIdx.map fun entry => sequence.dispatchAt entry.1 entry.2
    let closing := [sequence.countTick, sequence.stopAtEnd]
    Block.traceAll owner locals world sequence.run =
        .entered owner (chain ++ closing) world :: (Block.traceAll owner locals world chain ++
          Block.traceAll owner (Block.thread owner locals world chain).1
            (Block.runAll owner locals world chain) closing) ∧
      Block.runAll owner locals world sequence.run =
        Block.runAll owner (Block.thread owner locals world chain).1
          (Block.runAll owner locals world chain) closing := by
  intro chain closing
  have set : ((sequence.slot .running).read.isSet.eval world owner locals).isTruthy = true := by
    have unequal : (world.read owner (sequence.slot .running).key == 0) = false := running
    rw [Expr.isTruthy_isSet_read, unequal]
    rfl
  rw [run, Block.traceAll_cons, Block.runAll_cons, Stmt.trace.eq_def, Stmt.run, List.nil_append,
    Block.traceAll_cons, Block.runAll_cons, Block.traceAll_nil, Block.runAll_nil, List.append_nil,
    Stmt.trace_onlyIf, Stmt.run_onlyIf, set, if_pos rfl, if_pos rfl,
    show sequence.cues.zipIdx.map _ = chain from rfl, Block.traceAll_append, Block.runAll_append]
  exact ⟨rfl, rfl⟩

/-- The turn of a timeline that goes on. -/
theorem run_of_goesOn (ordered : sequence.IsOrdered) (selfless : sequence.IsSelfless)
    (small : sequence.cues.length ≤ countingLimit)
    (starts : ∀ cue ∈ sequence.cues, sequence.startTick cue ≤ countingLimit) {tick : Nat}
    (within : tick ≤ countingLimit)
    (goes : GoesOn sequence owner tick (sequence.sent tick) world) (hosted : world.hosts owner)
    (locals : Locals α) :
    List.Forall₂ (sequence.IsDispatch owner) (sequence.dueAt tick)
        (sequence.dispatches owner (Block.traceAll owner locals world sequence.run)) ∧
      Ticked sequence owner tick (Block.runAll owner locals world sequence.run) := by
  obtain ⟨dispatched, moved⟩ :=
    chain_of_goesOn ordered selfless small starts within goes hosted locals
  let chain := sequence.cues.zipIdx.map fun entry => sequence.dispatchAt entry.1 entry.2
  obtain ⟨calmEnd, ticked⟩ := ticked_of_goesOn moved (by rwa [Block.hosts_runAll])
    (Block.thread owner locals world chain).1
  have entered : Calm sequence owner [.entered owner
      (chain ++ [sequence.countTick, sequence.stopAtEnd]) world] :=
    calm_cons.mpr ⟨⟨rfl, not_isDispatch_tick sequence.cues.zipIdx world⟩, calm_nil⟩
  obtain ⟨trace, run⟩ := go_of_running (by rw [goes.running, Counting.one_beq_zero]) locals
  rw [trace, run, ← List.singleton_append, dispatches_append, entered.dispatches_eq_nil,
    List.nil_append, dispatches_append, calmEnd.dispatches_eq_nil, List.append_nil]
  exact ⟨dispatched, ticked⟩

omit [Counting α] in
/-- A timeline that does not run lets its turn pass. -/
theorem pass_of_stopped (stopped : (sequence.value owner world .running == 0) = true)
    (locals : Locals α) :
    Block.traceAll owner locals world sequence.run = [.entered owner [] world] ∧
      Block.runAll owner locals world sequence.run = world := by
  have unset : ((sequence.slot .running).read.isSet.eval world owner locals).isTruthy = false := by
    have zero : (world.read owner (sequence.slot .running).key == 0) = true := stopped
    rw [Expr.isTruthy_isSet_read, zero]
    rfl
  rw [run, Block.traceAll_cons, Block.runAll_cons, Stmt.trace.eq_def, Stmt.run, List.nil_append,
    Block.traceAll_cons, Block.runAll_cons, Block.traceAll_nil, Block.runAll_nil, List.append_nil,
    Stmt.trace_onlyIf, Stmt.run_onlyIf, unset, if_neg Bool.false_ne_true,
    if_neg Bool.false_ne_true]
  exact ⟨rfl, rfl⟩

omit [Counting α] in
/-- The turn of a timeline that does not go on. -/
theorem run_of_stopped (stopped : (sequence.value owner world .running == 0) = true)
    (locals : Locals α) :
    Steady sequence owner world (Block.traceAll owner locals world sequence.run)
      (Block.runAll owner locals world sequence.run) := by
  obtain ⟨trace, run⟩ := pass_of_stopped stopped locals
  rw [trace, run]
  exact (Steady.refl world).enter fun index => not_isDispatch_nil

end

/-! ### The last tick -/

section

variable (sequence)

/-- The tick in which a timeline stops: its last entry has started, and the longest has had its
time. -/
def finalTick : Nat :=
  max sequence.lastStart (sequence.endTick - 1)

/-- The entries, their start ticks and the ticks of their actions can be counted. -/
structure IsCountable : Prop where
  length : sequence.cues.length ≤ countingLimit
  starts : ∀ cue ∈ sequence.cues, sequence.startTick cue ≤ countingLimit
  ticks : ∀ cue ∈ sequence.cues, cue.action.isTimed → cue.action.ticks ≤ countingLimit

/-- The end can be counted, or it comes with the last start. -/
def EndsInTime : Prop :=
  sequence.endTick ≤ max countingLimit (sequence.lastStart + 1)

variable {sequence}

theorem lastStart_le_iff {tick : Nat} :
    sequence.lastStart ≤ tick ↔ ∀ cue ∈ sequence.cues, sequence.startTick cue ≤ tick := by
  rw [lastStart, Lists.foldl_max_le_iff]
  simp

theorem endTick_le_iff {tick : Nat} :
    sequence.endTick ≤ tick ↔
      ∀ cue ∈ sequence.cues, Ticks.add (sequence.startTick cue) cue.action.ticks ≤ tick := by
  rw [endTick, Lists.foldl_max_le_iff]
  simp

/-- All entries have started exactly from the last start on. -/
theorem length_le_sent_iff {tick : Nat} :
    sequence.cues.length ≤ sequence.sent (tick + 1) ↔ sequence.lastStart ≤ tick := by
  rw [sent, List.countP_le_length.ge_iff_eq, List.countP_eq_length, lastStart_le_iff]
  simp

theorem IsCountable.finalTick_le (countable : sequence.IsCountable)
    (inTime : sequence.EndsInTime) : sequence.finalTick ≤ countingLimit := by
  have starts := lastStart_le_iff.mpr countable.starts
  unfold EndsInTime at inTime
  rw [finalTick]
  omega

/-- What an entry began is over when the timeline stops, if the tick of its end can be stored. -/
theorem startTick_add_frames_le {cue : Cue α} (member : cue ∈ sequence.cues)
    (fits : sequence.startTick cue + cue.action.ticks ≤ Ticks.limit) :
    sequence.startTick cue + max 1 cue.action.ticks ≤ sequence.finalTick + 1 := by
  have starts := lastStart_le_iff.mp le_rfl cue member
  have ends := endTick_le_iff.mp le_rfl cue member
  rw [Ticks.add_of_le fits] at ends
  rw [finalTick]
  omega

/-- A tick is the last if the last entry has started and the end is reached. -/
theorem isLast_iff_reached [Counting α] (countable : sequence.IsCountable) {tick : Nat} :
    sequence.IsLast tick ↔ sequence.lastStart ≤ tick ∧
      (Scalar.ofNat sequence.endTick : α) ≤ Scalar.ofNat tick + 1 := by
  have sentBounded : sequence.sent (tick + 1) ≤ countingLimit :=
    List.countP_le_length.trans countable.length
  rw [IsLast, Counting.ofNat_le _ _ countable.length sentBounded, length_le_sent_iff]

/-- Up to the tick in which a timeline stops, no other one is the last. -/
theorem isLast_iff [Scheduling α] (countable : sequence.IsCountable)
    (inTime : sequence.EndsInTime) {tick : Nat} (within : tick ≤ sequence.finalTick) :
    sequence.IsLast tick ↔ tick = sequence.finalTick := by
  have bounded := within.trans (countable.finalTick_le inTime)
  have starts := lastStart_le_iff.mpr countable.starts
  rw [isLast_iff_reached countable]
  unfold EndsInTime at inTime
  unfold finalTick at within ⊢
  by_cases full : tick = countingLimit
  · have reached := Scheduling.le_limit_add_one (α := α) sequence.endTick (by omega)
    rw [← full] at reached
    constructor
    · omega
    · intro last
      exact ⟨by omega, reached⟩
  · rw [Counting.ofNat_add_one tick (by omega)]
    by_cases small : sequence.endTick ≤ countingLimit
    · rw [Counting.ofNat_le _ _ small (by omega)]
      omega
    · -- The end lies beyond the limit, so the last start is at the limit.
      constructor
      · rintro ⟨begun, -⟩
        omega
      · omega

end

end Sequence

end Stagecraft
