/-
This file says what evaluating a watch does, whatever it dispatches. The level is computed before
the dispatch and kept in a temporary, so a dispatch that changes what was sensed, or the watch's own
slots, changes neither the decision nor the level that is stored.
-/

import Stagecraft.Proofs.Logic.Evaluation
import Stagecraft.Proofs.Logic.Ledger
import Stagecraft.Proofs.Scalar.Counting
import Stagecraft.Proofs.Trigger.Watching

namespace Stagecraft

/-- Whether an edge is crossed by the present level, given whether the level was set before. A watch
that remains looks at the present level only. -/
def Edge.isCrossed (edge : Edge) (remain present wasSet : Bool) : Bool :=
  match edge, remain with
  | .rising, false => present && !wasSet
  | .rising, true => present
  | .falling, false => wasSet && !present
  | .falling, true => !present

variable {α : Type} [Trigonometric α] (watch : Watch) (sensor : Sensor α) (epsilon : α)
  (this : String) (locals : Locals α) (world : World α)

theorem Edge.isTruthy_fires (edge : Edge) (remain : Bool) (present wasSet : Expr α) :
    ((edge.fires remain present wasSet).eval world this locals).isTruthy =
      edge.isCrossed remain (present.eval world this locals).isTruthy
        (wasSet.eval world this locals).isTruthy := by
  cases edge <;> cases remain <;> simp [fires, isCrossed]

/-! ### Sensing -/

namespace Sensor

/-- What is computed before the level changes nothing. -/
theorem run_before :
    Block.runAll this locals world (sensor.before epsilon watch) = world ∧
      Block.traceAll this locals world (sensor.before epsilon watch) = [] := by
  cases sensor <;> simp [before, Stmt.run, Stmt.trace, Block.traceAll_cons]

/-- What is stored after the level is stored by plain writes. -/
theorem after_writes : ∀ stmt ∈ sensor.after watch, ∃ slot value, stmt = Slot.write slot value := by
  cases sensor with
  | movement subject distance =>
    intro stmt member
    rcases List.mem_append.mp member with member | member
    · obtain ⟨axis, -, rfl⟩ := List.mem_map.mp member
      exact ⟨_, _, rfl⟩
    · exact ⟨_, _, List.mem_singleton.mp member⟩
  | _ => simp [after]

/-- The level is not stored by the sensor itself. -/
theorem notMem_after :
    (this, (Slot.watch watch .previous).key) ∉ Block.writes this (sensor.after watch) := by
  have bound : Block.WritesOnly (fun _ slot => slot ≠ .watch watch .previous) this
      (sensor.after watch) :=
    sensor.writesOnly_after fun field kept => by
      rcases kept with rfl | ⟨axis, rfl⟩ <;> simp
  exact bound.notMem (by simp)

end Sensor

/-! ### Evaluation -/

namespace Watch

/-- The temporaries with which the level is computed. -/
def sensed : Locals α :=
  (Block.thread this locals world (sensor.before epsilon watch)).1

/-- The level as a value. -/
def levelValue : Value α :=
  (sensor.level epsilon watch).eval world this (watch.sensed sensor epsilon this locals world)

/-- Whether the level is set. -/
def levelAt : Bool :=
  (watch.levelValue sensor epsilon this locals world).isTruthy

/-- Whether the level was set at the last evaluation, as stored. -/
def wasSet : Bool :=
  !(world.read this (Slot.watch watch .previous).key == (0 : α))

/-- The temporaries with which the watch decides and dispatches. -/
def deciding : Locals α :=
  (levelName, watch.levelValue sensor epsilon this locals world) ::
    watch.sensed sensor epsilon this locals world

theorem read_deciding :
    (watch.deciding sensor epsilon this locals world).read levelName =
      watch.levelValue sensor epsilon this locals world := by
  simp [deciding, Locals.read]

/-- The decision to dispatch. -/
theorem isTruthy_decision (remain : Bool) :
    ((sensor.edge.fires remain (.var levelName) (Slot.watch watch .previous).read.isSet).eval world
      this (watch.deciding sensor epsilon this locals world)).isTruthy =
      sensor.edge.isCrossed remain (watch.levelAt sensor epsilon this locals world)
        (watch.wasSet this world) := by
  rw [Edge.isTruthy_fires, Expr.isTruthy_isSet_read, Expr.eval, read_deciding]
  rfl

variable (remain : Bool) (dispatch : Block α)

/-- The dispatch with its decision, or nothing where there is nothing to dispatch. -/
def decision : Block α :=
  if Block.isIdle dispatch then []
  else [.onlyIf (sensor.edge.fires remain (.var levelName) (Slot.watch watch .previous).read.isSet)
    dispatch]

/-- What happens in an evaluation: the dispatch as decided, then the level is stored, then what else
the sensor stores. -/
theorem exists_trace_evaluate :
    ∃ left, Block.traceAll this locals world
        (watch.evaluate sensor epsilon remain dispatch) =
      Block.traceAll this (watch.deciding sensor epsilon this locals world) world
        (watch.decision sensor remain dispatch) ++
      .wrote this (Slot.watch watch .previous).key
        (if watch.levelAt sensor epsilon this locals world then 1 else 0) ::
      Block.traceAll this (watch.deciding sensor epsilon this locals world) left
        (sensor.after watch) := by
  obtain ⟨unchanged, silent⟩ := sensor.run_before watch epsilon this locals world
  have flagged (left : World α) :
      ((Expr.var levelName).flag.eval left this
        (watch.deciding sensor epsilon this locals world)).number =
        if watch.levelAt sensor epsilon this locals world then 1 else 0 := by
    rw [Expr.number_flag, Expr.eval, read_deciding]
    rfl
  have sensed : Block.thread this locals world (sensor.before epsilon watch) =
      (watch.sensed sensor epsilon this locals world, world) := by
    refine Prod.ext rfl ?_
    rw [← Block.runAll_eq_thread, unchanged]
  have kept : (Block.thread this (watch.deciding sensor epsilon this locals world) world
      (watch.decision sensor remain dispatch)).1 =
      watch.deciding sensor epsilon this locals world := by
    rw [decision]
    split
    · rfl
    · rw [Block.thread_cons, Stmt.run_onlyIf, Block.thread_nil]
  let front : Block α := sensor.before epsilon watch ++
    .bind levelName (sensor.level epsilon watch) :: watch.decision sensor remain dispatch
  let stored : Stmt α := (Slot.watch watch .previous).write (Expr.var levelName).flag
  have named : (Stmt.bind levelName (sensor.level epsilon watch)).run this
      (watch.sensed sensor epsilon this locals world) world =
      (watch.deciding sensor epsilon this locals world, world) := by
    rw [Stmt.run]
    rfl
  have frontTrace : Block.traceAll this locals world front =
      Block.traceAll this (watch.deciding sensor epsilon this locals world) world
        (watch.decision sensor remain dispatch) := by
    rw [Block.traceAll_append, silent, List.nil_append, sensed, unchanged, Block.traceAll_cons, named,
      Stmt.trace.eq_def]
    rfl
  have frontLocals : (Block.thread this locals world front).1 =
      watch.deciding sensor epsilon this locals world := by
    rw [Block.thread_append, sensed, Block.thread_cons, named, kept]
  refine ⟨(stored.run this (watch.deciding sensor epsilon this locals world)
    (Block.runAll this locals world front)).2, ?_⟩
  show Block.traceAll this locals world (front ++ stored :: sensor.after watch) = _
  rw [Block.traceAll_append, frontTrace, frontLocals, Block.traceAll_cons, Slot.run_write]
  show _ ++ ((Slot.write _ _).trace _ _ _ ++ _) = _
  rw [Slot.write, Stmt.trace, flagged]
  rfl

/-- In an evaluation a dispatch that is not idle runs once if the edge is crossed, and otherwise not
at all. -/
theorem entries_evaluate (effective : Block.isIdle dispatch = false) :
    Trace.entries this dispatch
        (Block.traceAll this locals world (watch.evaluate sensor epsilon remain dispatch)) =
      if sensor.edge.isCrossed remain (watch.levelAt sensor epsilon this locals world)
        (watch.wasSet this world) then 1 else 0 := by
  have nonempty : dispatch ≠ [] := by
    rintro rfl
    simp [Block.isIdle, Block.isEffective] at effective
  obtain ⟨left, happens⟩ :=
    watch.exists_trace_evaluate sensor epsilon this locals world remain dispatch
  rw [happens, Trace.entries_append, Trace.entries_cons_wrote,
    Trace.entries_of_writes (sensor.after_writes watch), Nat.add_zero, decision, effective,
    if_neg Bool.false_ne_true, Block.traceAll_cons, Block.traceAll_nil, List.append_nil,
    Stmt.trace_onlyIf, isTruthy_decision]
  split
  · rw [Trace.entries_cons_self, Trace.entries_self]
  · rw [Trace.entries_cons_other (fun same => nonempty same.2.symm), Trace.entries_nil]

/-- An evaluation stores the level once, if the dispatch does not write it. -/
theorem ledger_evaluate
    (spared : (this, (Slot.watch watch .previous).key) ∉ Block.writes this dispatch) :
    Trace.ledger this (Slot.watch watch .previous).key
        (Block.traceAll this locals world (watch.evaluate sensor epsilon remain dispatch)) =
      [if watch.levelAt sensor epsilon this locals world then 1 else 0] := by
  obtain ⟨left, happens⟩ :=
    watch.exists_trace_evaluate sensor epsilon this locals world remain dispatch
  have decided : (this, (Slot.watch watch .previous).key) ∉
      Block.writes this (watch.decision sensor remain dispatch) := by
    rw [decision]
    split
    · simp
    · simpa using spared
  rw [happens, Trace.ledger_append, Trace.ledger_of_notMem decided, List.nil_append,
    Trace.ledger_cons_wrote, if_pos ⟨rfl, rfl⟩,
    Trace.ledger_of_notMem (sensor.notMem_after watch this), List.append_nil]

end Watch

end Stagecraft
