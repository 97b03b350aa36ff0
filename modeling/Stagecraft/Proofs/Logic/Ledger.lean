/-
This file keeps a ledger of the values that a run writes to one place. What is read there after the
run is the last of them, and a place that is not named in a block has nothing in its ledger.
-/

import Stagecraft.Proofs.Stage.Agenda

namespace Stagecraft

variable {α : Type}

/-! ### Ledgers -/

/-- The value that an event writes to a place, if it does. -/
def Event.valueAt? (object key : String) : Event α → Option α
  | .entered .. => none
  | .wrote object' key' value => if object' = object ∧ key' = key then some value else none

namespace Trace

/-- The values written to a place, in order. -/
def ledger (object key : String) (trace : List (Event α)) : List α :=
  trace.filterMap (·.valueAt? object key)

variable {object key : String}

@[simp] theorem ledger_nil : ledger object key ([] : List (Event α)) = [] := rfl

@[simp] theorem ledger_append (first second : List (Event α)) :
    ledger object key (first ++ second) = ledger object key first ++ ledger object key second :=
  List.filterMap_append

@[simp] theorem ledger_cons_entered (object' : String) (block : Block α) (world : World α)
    (rest : List (Event α)) :
    ledger object key (.entered object' block world :: rest) = ledger object key rest := rfl

theorem ledger_cons_wrote (object' key' : String) (value : α) (rest : List (Event α)) :
    ledger object key (.wrote object' key' value :: rest) =
      (if object' = object ∧ key' = key then [value] else []) ++ ledger object key rest := by
  by_cases same : object' = object ∧ key' = key
  · simp [ledger, Event.valueAt?, same]
  · simp [ledger, Event.valueAt?, same]

theorem ledger_eq_nil {trace : List (Event α)} :
    ledger object key trace = [] ↔ ∀ value, .wrote object key value ∉ trace := by
  rw [ledger, List.filterMap_eq_nil_iff]
  constructor
  · intro none value member
    simpa [Event.valueAt?] using none _ member
  · intro none event member
    cases event with
    | entered => rfl
    | wrote object' key' value =>
      simp only [Event.valueAt?, ite_eq_right_iff, reduceCtorEq, imp_false]
      rintro ⟨rfl, rfl⟩
      exact none value member

end Trace

variable [Trigonometric α]

/-! ### Places that are not named -/

mutual

/-- A statement writes only to places that it names. -/
theorem Stmt.mem_writes_of_wrote {this : String} {locals : Locals α} {world : World α}
    {object key : String} {value : α} :
    (stmt : Stmt α) → .wrote object key value ∈ stmt.trace this locals world →
      (object, key) ∈ stmt.writes this
  | .set written expr, member => by
    rw [Stmt.trace, List.mem_singleton] at member
    obtain ⟨rfl, rfl, -⟩ := Event.wrote.inj member
    rw [Stmt.writes_set]
    exact List.mem_singleton_self _
  | .bind name expr, member => by simp [Stmt.trace] at member
  | .branch condition yes no, member => by
    rw [Stmt.trace] at member
    rw [Stmt.writes_branch, List.mem_append]
    split at member
    · exact .inl (Block.mem_writes_of_wrote yes (by simpa using member))
    · exact .inr (Block.mem_writes_of_wrote no (by simpa using member))
  | .within inner body, member => by
    rw [Stmt.trace] at member
    rw [Stmt.writes_within]
    exact Block.mem_writes_of_wrote body (by simpa using member)
  | .host call, member => by simp [Stmt.trace] at member
  | .comment text, member => by simp [Stmt.trace] at member

theorem Block.mem_writes_of_wrote {this : String} {locals : Locals α} {world : World α}
    {object key : String} {value : α} :
    (block : List (Stmt α)) → .wrote object key value ∈ Block.traceAll this locals world block →
      (object, key) ∈ Block.writes this block
  | [], member => by simp at member
  | stmt :: rest, member => by
    rw [Block.traceAll_cons, List.mem_append] at member
    rw [Block.writes_cons, List.mem_append]
    rcases member with inHead | inRest
    · exact .inl (Stmt.mem_writes_of_wrote stmt inHead)
    · exact .inr (Block.mem_writes_of_wrote rest inRest)

end

namespace Trace

variable {object key : String}

theorem ledger_of_notMem {this : String} {block : Block α}
    (spared : (object, key) ∉ Block.writes this block) (locals : Locals α) (world : World α) :
    ledger object key (Block.traceAll this locals world block) = [] :=
  ledger_eq_nil.mpr fun _ member => spared (Block.mem_writes_of_wrote block member)

/-- What a block writes itself, not only in a block inside it, is entered. -/
theorem ledger_ne_nil {this : String} {slot : Slot} {value : Expr α} {block : Block α}
    (member : slot.write value ∈ block) (locals : Locals α) (world : World α) :
    ledger this slot.key (Block.traceAll this locals world block) ≠ [] := by
  obtain ⟨before, after, rfl⟩ := List.append_of_mem member
  simp [Block.traceAll_append, Block.traceAll_cons, ledger_cons_wrote]

theorem ledger_agenda {agenda : Agenda α}
    (spared : ∀ duty ∈ agenda, ¬duty.Writes object key) (world : World α) :
    ledger object key (agenda.trace world) = [] := by
  induction agenda generalizing world with
  | nil => rfl
  | cons duty rest inductionHypothesis =>
    obtain ⟨sparedHere, sparedLater⟩ := List.forall_mem_cons.mp spared
    rw [Agenda.trace_cons, ledger_append, inductionHypothesis sparedLater, List.append_nil,
      Duty.trace]
    split
    · exact ledger_of_notMem sparedHere [] world
    · rfl

end Trace

/-! ### Reading the last entry -/

mutual

/-- After a statement a hosted place reads as its last entry. -/
theorem Stmt.read_run_eq {this : String} {locals : Locals α} {world : World α}
    {object key : String} (hosted : world.hosts object) :
    (stmt : Stmt α) → (stmt.run this locals world).2.read object key =
      (Trace.ledger object key (stmt.trace this locals world)).getLast?.getD
        (world.read object key)
  | .set written expr => by
    rw [Stmt.run, Stmt.trace, World.read_write, Trace.ledger_cons_wrote]
    by_cases same : this = object ∧ written = key
    · obtain ⟨rfl, rfl⟩ := same
      simp [hosted]
    · simp [same]
  | .bind name expr => by simp [Stmt.run, Stmt.trace]
  | .branch condition yes no => by
    rw [Stmt.run, Stmt.trace]
    split
    · exact Block.read_runAll_eq hosted yes
    · exact Block.read_runAll_eq hosted no
  | .within inner body => by
    rw [Stmt.run, Stmt.trace]
    exact Block.read_runAll_eq hosted body
  | .host call => by simp [Stmt.run, Stmt.trace]
  | .comment text => by simp [Stmt.run, Stmt.trace]

theorem Block.read_runAll_eq {this : String} {locals : Locals α} {world : World α}
    {object key : String} (hosted : world.hosts object) :
    (block : List (Stmt α)) → (Block.runAll this locals world block).read object key =
      (Trace.ledger object key (Block.traceAll this locals world block)).getLast?.getD
        (world.read object key)
  | [] => by simp
  | stmt :: rest => by
    rw [Block.runAll_cons, Block.traceAll_cons, Trace.ledger_append, List.getLast?_append,
      Option.getD_or, Block.read_runAll_eq (by rwa [Stmt.hosts_run]) rest,
      Stmt.read_run_eq hosted stmt]

end

theorem Agenda.read_run_eq {object key : String} (agenda : Agenda α) {world : World α}
    (hosted : world.hosts object) :
    (agenda.run world).read object key =
      (Trace.ledger object key (agenda.trace world)).getLast?.getD (world.read object key) := by
  induction agenda generalizing world with
  | nil => rfl
  | cons duty rest inductionHypothesis =>
    have here : (duty.run world).read object key =
        (Trace.ledger object key (duty.trace world)).getLast?.getD (world.read object key) := by
      rw [Duty.run, Duty.trace]
      split
      · exact Block.read_runAll_eq hosted duty.block
      · rfl
    rw [run_cons, trace_cons, Trace.ledger_append, List.getLast?_append, Option.getD_or,
      inductionHypothesis (by rwa [Duty.hosts_run]), here]

end Stagecraft
