/-
This file says what happens during a run, not only what it leaves behind. The trace of a run lists
the blocks that were entered, each with the object it ran on and the world it found, and the
writes, in order. A block that is entered inside a statement is a smaller part of it, and may write
nothing that the statement may not.
-/

import Stagecraft.Proofs.Logic.Writes

namespace Stagecraft

/-- What happens during a run. -/
inductive Event (α : Type) where
  /-- A block begins to run on an object. -/
  | entered (object : String) (block : Block α) (world : World α)
  | wrote (object key : String) (value : α)

variable {α : Type}

/-! ### Threads

A block as a list of steps that hand on temporaries and world. Unlike a run, a thread shows the
temporaries, so that blocks can be put one after the other. -/

section

variable [Trigonometric α]

/-- The temporaries and the world after the statements of a block. -/
def Block.thread (this : String) (locals : Locals α) (world : World α) (block : Block α) :
    Locals α × World α :=
  block.foldl (fun state stmt => stmt.run this state.1 state.2) (locals, world)

namespace Block

variable (this : String) (locals : Locals α) (world : World α)

@[simp] theorem thread_nil : thread this locals world [] = (locals, world) := rfl

@[simp] theorem thread_cons (stmt : Stmt α) (rest : Block α) :
    thread this locals world (stmt :: rest) =
      thread this (stmt.run this locals world).1 (stmt.run this locals world).2 rest := rfl

theorem thread_append (first second : Block α) :
    thread this locals world (first ++ second) =
      thread this (thread this locals world first).1 (thread this locals world first).2 second := by
  simp [thread]

@[simp] theorem runAll_nil : runAll this locals world ([] : Block α) = world := by
  rw [runAll]

@[simp] theorem runAll_cons (stmt : Stmt α) (rest : Block α) :
    runAll this locals world (stmt :: rest) =
      runAll this (stmt.run this locals world).1 (stmt.run this locals world).2 rest := by
  rw [runAll]

theorem runAll_eq_thread (block : Block α) :
    runAll this locals world block = (thread this locals world block).2 := by
  induction block generalizing locals world with
  | nil => rw [runAll, thread_nil]
  | cons stmt rest inductionHypothesis => rw [runAll_cons, thread_cons, inductionHypothesis]

theorem runAll_append (first second : Block α) :
    runAll this locals world (first ++ second) =
      runAll this (thread this locals world first).1 (runAll this locals world first) second := by
  simp only [runAll_eq_thread, thread_append]

end Block

/-! ### Traces -/

mutual

def Stmt.trace (this : String) (locals : Locals α) (world : World α) :
    Stmt α → List (Event α)
  | .set key value => [.wrote this key (value.eval world this locals).number]
  | .branch condition yes no =>
    if (condition.eval world this locals).isTruthy then
      .entered this yes world :: Block.traceAll this locals world yes
    else .entered this no world :: Block.traceAll this locals world no
  | .within object body => .entered object body world :: Block.traceAll object locals world body
  | _ => []

/-- What happens in a block, in order. -/
def Block.traceAll (this : String) (locals : Locals α) (world : World α) :
    List (Stmt α) → List (Event α)
  | [] => []
  | stmt :: rest =>
    stmt.trace this locals world ++
      Block.traceAll this (stmt.run this locals world).1 (stmt.run this locals world).2 rest

end

namespace Block

variable (this : String) (locals : Locals α) (world : World α)

@[simp] theorem traceAll_nil : traceAll this locals world ([] : Block α) = [] := by
  rw [traceAll]

theorem traceAll_cons (stmt : Stmt α) (rest : Block α) :
    traceAll this locals world (stmt :: rest) = stmt.trace this locals world ++
      traceAll this (stmt.run this locals world).1 (stmt.run this locals world).2 rest := by
  rw [traceAll]

theorem traceAll_append (first second : Block α) :
    traceAll this locals world (first ++ second) = traceAll this locals world first ++
      traceAll this (thread this locals world first).1 (runAll this locals world first) second := by
  induction first generalizing locals world with
  | nil => simp [runAll_eq_thread]
  | cons stmt rest inductionHypothesis =>
    rw [List.cons_append, traceAll_cons, inductionHypothesis, traceAll_cons, List.append_assoc,
      thread_cons, runAll_cons]

end Block

@[simp] theorem Slot.trace_write (this : String) (locals : Locals α) (world : World α)
    (slot : Slot) (value : Expr α) :
    (slot.write value).trace this locals world =
      [.wrote this slot.key (value.eval world this locals).number] := by
  rw [Slot.write, Stmt.trace]

theorem Stmt.trace_onlyIf (this : String) (locals : Locals α) (world : World α)
    (condition : Expr α) (body : Block α) :
    (Stmt.onlyIf condition body).trace this locals world =
      if (condition.eval world this locals).isTruthy then
        .entered this body world :: Block.traceAll this locals world body
      else [.entered this [] world] := by
  rw [Stmt.onlyIf, Stmt.trace, Block.traceAll_nil]

/-! ### Parts -/

mutual

/-- A block entered inside a statement writes no more than the statement. -/
theorem Stmt.writes_subset_of_entered {this : String} {locals : Locals α} {world : World α}
    {object : String} {block : Block α} {found : World α} :
    (stmt : Stmt α) → .entered object block found ∈ stmt.trace this locals world →
      Block.writes object block ⊆ stmt.writes this
  | .set key value, member => by simp [Stmt.trace] at member
  | .bind name value, member => by simp [Stmt.trace] at member
  | .branch condition yes no, member => by
    rw [Stmt.trace] at member
    rw [Stmt.writes_branch]
    split at member
    · rcases List.mem_cons.mp member with same | deeper
      · obtain ⟨rfl, rfl, rfl⟩ := Event.entered.inj same
        exact List.subset_append_left _ _
      · exact List.Subset.trans (Block.writes_subset_of_entered yes deeper)
          (List.subset_append_left _ _)
    · rcases List.mem_cons.mp member with same | deeper
      · obtain ⟨rfl, rfl, rfl⟩ := Event.entered.inj same
        exact List.subset_append_right _ _
      · exact List.Subset.trans (Block.writes_subset_of_entered no deeper)
          (List.subset_append_right _ _)
  | .within inner body, member => by
    rw [Stmt.trace] at member
    rw [Stmt.writes_within]
    rcases List.mem_cons.mp member with same | deeper
    · obtain ⟨rfl, rfl, rfl⟩ := Event.entered.inj same
      exact List.Subset.refl _
    · exact Block.writes_subset_of_entered body deeper
  | .host call, member => by simp [Stmt.trace] at member
  | .comment text, member => by simp [Stmt.trace] at member

theorem Block.writes_subset_of_entered {this : String} {locals : Locals α} {world : World α}
    {object : String} {block : Block α} {found : World α} :
    (whole : List (Stmt α)) → .entered object block found ∈ Block.traceAll this locals world whole →
      Block.writes object block ⊆ Block.writes this whole
  | [], member => by simp at member
  | stmt :: rest, member => by
    rw [Block.traceAll_cons, List.mem_append] at member
    rw [Block.writes_cons]
    rcases member with inHead | inRest
    · exact List.Subset.trans (Stmt.writes_subset_of_entered stmt inHead)
        (List.subset_append_left _ _)
    · exact List.Subset.trans (Block.writes_subset_of_entered rest inRest)
        (List.subset_append_right _ _)

end

mutual

/-- A block entered inside a statement is smaller than the statement. -/
theorem Stmt.sizeOf_lt_of_entered {this : String} {locals : Locals α} {world : World α}
    {object : String} {block : Block α} {found : World α} :
    (stmt : Stmt α) → .entered object block found ∈ stmt.trace this locals world →
      sizeOf block < sizeOf stmt
  | .set key value, member => by simp [Stmt.trace] at member
  | .bind name value, member => by simp [Stmt.trace] at member
  | .branch condition yes no, member => by
    rw [Stmt.trace] at member
    rw [Stmt.branch.sizeOf_spec]
    split at member
    · rcases List.mem_cons.mp member with same | deeper
      · obtain ⟨rfl, rfl, rfl⟩ := Event.entered.inj same
        omega
      · have smaller := Block.sizeOf_lt_of_entered yes deeper
        omega
    · rcases List.mem_cons.mp member with same | deeper
      · obtain ⟨rfl, rfl, rfl⟩ := Event.entered.inj same
        omega
      · have smaller := Block.sizeOf_lt_of_entered no deeper
        omega
  | .within inner body, member => by
    rw [Stmt.trace] at member
    rw [Stmt.within.sizeOf_spec]
    rcases List.mem_cons.mp member with same | deeper
    · obtain ⟨rfl, rfl, rfl⟩ := Event.entered.inj same
      omega
    · have smaller := Block.sizeOf_lt_of_entered body deeper
      omega
  | .host call, member => by simp [Stmt.trace] at member
  | .comment text, member => by simp [Stmt.trace] at member

theorem Block.sizeOf_lt_of_entered {this : String} {locals : Locals α} {world : World α}
    {object : String} {block : Block α} {found : World α} :
    (whole : List (Stmt α)) → .entered object block found ∈ Block.traceAll this locals world whole →
      sizeOf block < sizeOf whole
  | [], member => by simp at member
  | stmt :: rest, member => by
    rw [Block.traceAll_cons, List.mem_append] at member
    rw [List.cons.sizeOf_spec]
    rcases member with inHead | inRest
    · have smaller := Stmt.sizeOf_lt_of_entered stmt inHead
      omega
    · have smaller := Block.sizeOf_lt_of_entered rest inRest
      omega

end

end

/-! ### Counting entries -/

/-- The block was entered on the object. -/
def Event.IsEntry (object : String) (block : Block α) : Event α → Prop
  | .entered object' block' _ => object' = object ∧ block' = block
  | .wrote .. => False

@[simp] theorem Event.isEntry_entered {object object' : String} {block block' : Block α}
    {world : World α} :
    (Event.entered object' block' world).IsEntry object block ↔
      object' = object ∧ block' = block := Iff.rfl

@[simp] theorem Event.not_isEntry_wrote {object object' key : String} {block : Block α}
    {value : α} : ¬(Event.wrote object' key value).IsEntry object block := id

namespace Trace

open Classical in
/-- How often a block was entered on an object. -/
noncomputable def entries (object : String) (block : Block α) (trace : List (Event α)) : Nat :=
  trace.countP fun event => event.IsEntry object block

variable {object : String} {block : Block α}

@[simp] theorem entries_nil : entries object block [] = 0 := by
  simp [entries]

@[simp] theorem entries_append (first second : List (Event α)) :
    entries object block (first ++ second) =
      entries object block first + entries object block second := by
  simp [entries]

@[simp] theorem entries_cons_wrote (object' key : String) (value : α) (rest : List (Event α)) :
    entries object block (.wrote object' key value :: rest) = entries object block rest := by
  simp [entries]

theorem entries_cons_self (world : World α) (rest : List (Event α)) :
    entries object block (.entered object block world :: rest) = entries object block rest + 1 := by
  simp [entries]

theorem entries_cons_other {object' : String} {block' : Block α}
    (different : ¬(object' = object ∧ block' = block)) (world : World α) (rest : List (Event α)) :
    entries object block (.entered object' block' world :: rest) = entries object block rest := by
  simp [entries, different]

theorem entries_eq_zero {trace : List (Event α)} :
    entries object block trace = 0 ↔ ∀ world, .entered object block world ∉ trace := by
  classical
  simp only [entries, List.countP_eq_zero]
  constructor
  · intro none world member
    exact none _ member (by simp)
  · intro none event member
    cases event with
    | entered object' block' world =>
      simp only [Event.isEntry_entered, decide_eq_true_eq]
      rintro ⟨rfl, rfl⟩
      exact none world member
    | wrote object' key value => simp

theorem entries_pos {trace : List (Event α)} :
    0 < entries object block trace ↔ ∃ world, .entered object block world ∈ trace := by
  rw [Nat.pos_iff_ne_zero, ne_eq, entries_eq_zero]
  push Not
  rfl

variable [Trigonometric α]

/-- A block that may write a place is not entered inside a block that spares the place. -/
theorem entries_eq_zero_of_notMem {this : String} {whole : Block α} {place : String × String}
    (spared : place ∉ Block.writes this whole) (touched : place ∈ Block.writes object block)
    (locals : Locals α) (world : World α) :
    entries object block (Block.traceAll this locals world whole) = 0 :=
  entries_eq_zero.mpr fun _ member =>
    spared (Block.writes_subset_of_entered whole member touched)

/-- A block is not entered inside itself. -/
theorem entries_self (this : String) (locals : Locals α) (world : World α) :
    entries object block (Block.traceAll this locals world block) = 0 :=
  entries_eq_zero.mpr fun _ member =>
    absurd (Block.sizeOf_lt_of_entered block member) (lt_irrefl _)

/-- Writes enter no block. -/
theorem entries_of_writes {this : String} {writes : Block α}
    (plain : ∀ stmt ∈ writes, ∃ slot value, stmt = Slot.write slot value) (locals : Locals α)
    (world : World α) : entries object block (Block.traceAll this locals world writes) = 0 := by
  induction writes generalizing locals world with
  | nil => simp
  | cons stmt rest inductionHypothesis =>
    obtain ⟨⟨slot, value, rfl⟩, later⟩ := List.forall_mem_cons.mp plain
    rw [Block.traceAll_cons, Slot.trace_write, List.singleton_append, entries_cons_wrote,
      inductionHypothesis later]

end Trace

end Stagecraft
