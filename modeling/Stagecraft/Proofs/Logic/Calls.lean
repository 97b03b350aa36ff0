/-
This file bounds the calls that a block makes to its host. The calls that its statements name are
collected without running it, and a block that names none leaves the list of calls as it was, up to
its end and wherever a block inside of it is entered. The calls that a run makes are those that it
adds to the list.
-/

import Stagecraft.Proofs.Logic.Trace

namespace Stagecraft

variable {α : Type}

/-! ### Statements -/

mutual

/-- The calls that a statement may make. -/
def Stmt.calls : Stmt α → List HostCall
  | .branch _ yes no => Block.calls yes ++ Block.calls no
  | .within _ body => Block.calls body
  | .host call => [call]
  | _ => []

def Block.calls : List (Stmt α) → List HostCall
  | [] => []
  | stmt :: rest => stmt.calls ++ Block.calls rest

end

namespace Block

@[simp] theorem calls_nil : calls ([] : Block α) = [] := by
  rw [calls]

@[simp] theorem calls_cons (stmt : Stmt α) (rest : Block α) :
    calls (stmt :: rest) = stmt.calls ++ calls rest := by
  rw [calls]

@[simp] theorem calls_append (first second : Block α) :
    calls (first ++ second) = calls first ++ calls second := by
  induction first with
  | nil => simp
  | cons stmt rest inductionHypothesis => simp [inductionHypothesis]

@[simp] theorem calls_map {β : Type} (values : List β) (statement : β → Stmt α) :
    calls (values.map statement) = values.flatMap fun value => (statement value).calls := by
  induction values with
  | nil => simp
  | cons value rest inductionHypothesis => simp [inductionHypothesis]

@[simp] theorem calls_flatMap {β : Type} (values : List β) (block : β → Block α) :
    calls (values.flatMap block) = values.flatMap fun value => calls (block value) := by
  induction values with
  | nil => simp
  | cons value rest inductionHypothesis => simp [inductionHypothesis]

theorem calls_flatten {blocks : List (Block α)} (silent : ∀ block ∈ blocks, calls block = []) :
    calls blocks.flatten = [] := by
  rw [← List.flatMap_id, calls_flatMap, List.flatMap_eq_nil_iff]
  exact silent

end Block

@[simp] theorem Slot.calls_write (slot : Slot) (value : Expr α) :
    (slot.write value).calls = [] := by
  rw [Slot.write, Stmt.calls] <;> simp

namespace Stmt

@[simp] theorem calls_bind (name : String) (value : Expr α) : (bind name value).calls = [] := by
  rw [calls] <;> simp

@[simp] theorem calls_comment (text : String) : (comment text : Stmt α).calls = [] := by
  rw [calls] <;> simp

@[simp] theorem calls_onlyIf (condition : Expr α) (body : Block α) :
    (onlyIf condition body).calls = Block.calls body := by
  rw [onlyIf, calls, Block.calls_nil, List.append_nil]

end Stmt

/-! ### Runs -/

section

variable [Trigonometric α]

mutual

/-- A statement that names no call makes none. -/
theorem Stmt.calls_run (this : String) (locals : Locals α) (world : World α) :
    (stmt : Stmt α) → stmt.calls = [] → (stmt.run this locals world).2.calls = world.calls
  | .set key value, _ => by rw [Stmt.run, World.calls_write]
  | .bind name value, _ => by rw [Stmt.run]
  | .branch condition yes no, silent => by
    rw [Stmt.calls, List.append_eq_nil_iff] at silent
    rw [Stmt.run]
    split
    · exact Block.calls_runAll this locals world yes silent.1
    · exact Block.calls_runAll this locals world no silent.2
  | .within object body, silent => by
    rw [Stmt.calls] at silent
    rw [Stmt.run]
    exact Block.calls_runAll object locals world body silent
  | .host call, silent => by
    rw [Stmt.calls] at silent
    cases silent
  | .comment text, _ => by rw [Stmt.run]

theorem Block.calls_runAll (this : String) (locals : Locals α) (world : World α) :
    (block : List (Stmt α)) → Block.calls block = [] →
      (Block.runAll this locals world block).calls = world.calls
  | [], _ => by rw [Block.runAll]
  | stmt :: rest, silent => by
    rw [Block.calls_cons, List.append_eq_nil_iff] at silent
    rw [Block.runAll, Block.calls_runAll _ _ _ rest silent.2,
      Stmt.calls_run this locals world stmt silent.1]

end

mutual

/-- Inside a statement that names no call the calls are as before it. -/
theorem Stmt.calls_of_entered {this object : String} {locals : Locals α} {world found : World α}
    {block : Block α} :
    (stmt : Stmt α) → stmt.calls = [] →
      .entered object block found ∈ stmt.trace this locals world → found.calls = world.calls
  | .set key value, _, entered => by simp [Stmt.trace] at entered
  | .bind name value, _, entered => by simp [Stmt.trace] at entered
  | .branch condition yes no, silent, entered => by
    rw [Stmt.calls, List.append_eq_nil_iff] at silent
    rw [Stmt.trace] at entered
    split at entered
    · rcases List.mem_cons.mp entered with same | deeper
      · rw [(Event.entered.inj same).2.2]
      · exact Block.calls_of_entered yes silent.1 deeper
    · rcases List.mem_cons.mp entered with same | deeper
      · rw [(Event.entered.inj same).2.2]
      · exact Block.calls_of_entered no silent.2 deeper
  | .within inner body, silent, entered => by
    rw [Stmt.calls] at silent
    rw [Stmt.trace] at entered
    rcases List.mem_cons.mp entered with same | deeper
    · rw [(Event.entered.inj same).2.2]
    · exact Block.calls_of_entered body silent deeper
  | .host call, _, entered => by simp [Stmt.trace] at entered
  | .comment text, _, entered => by simp [Stmt.trace] at entered

theorem Block.calls_of_entered {this object : String} {locals : Locals α} {world found : World α}
    {block : Block α} :
    (whole : List (Stmt α)) → Block.calls whole = [] →
      .entered object block found ∈ Block.traceAll this locals world whole →
      found.calls = world.calls
  | [], _, entered => by simp at entered
  | stmt :: rest, silent, entered => by
    rw [Block.calls_cons, List.append_eq_nil_iff] at silent
    rw [Block.traceAll_cons, List.mem_append] at entered
    rcases entered with inHead | inRest
    · exact Stmt.calls_of_entered stmt silent.1 inHead
    · rw [Block.calls_of_entered rest silent.2 inRest, Stmt.calls_run _ _ _ stmt silent.1]

end

end

/-! ### Calls that are made -/

section

variable [Trigonometric α]

mutual

/-- Calls are only added. -/
theorem Stmt.calls_isPrefix (this : String) (locals : Locals α) (world : World α) :
    (stmt : Stmt α) → world.calls <+: (stmt.run this locals world).2.calls
  | .set key value => by rw [Stmt.run, World.calls_write]
  | .bind name value => by rw [Stmt.run]
  | .branch condition yes no => by
    rw [Stmt.run]
    split
    · exact Block.calls_isPrefix this locals world yes
    · exact Block.calls_isPrefix this locals world no
  | .within object body => by
    rw [Stmt.run]
    exact Block.calls_isPrefix object locals world body
  | .host call => by
    rw [Stmt.run]
    exact List.prefix_append _ _
  | .comment text => by rw [Stmt.run]

theorem Block.calls_isPrefix (this : String) (locals : Locals α) (world : World α) :
    (block : List (Stmt α)) → world.calls <+: (Block.runAll this locals world block).calls
  | [] => by rw [Block.runAll]
  | stmt :: rest => by
    rw [Block.runAll]
    exact (Stmt.calls_isPrefix this locals world stmt).trans (Block.calls_isPrefix this _ _ rest)

end

namespace Block

variable {this : String}

/-- The calls that a run of a block makes. -/
def madeBy (this : String) (world : World α) (block : Block α) : List (String × HostCall) :=
  (block.run this world).calls.drop world.calls.length

theorem calls_run_eq (world : World α) (block : Block α) :
    (block.run this world).calls = world.calls ++ block.madeBy this world := by
  obtain ⟨made, run⟩ := calls_isPrefix this [] world block
  rw [madeBy, Block.run, ← run, List.drop_left]

theorem madeBy_of_silent {block : Block α} (silent : calls block = []) (world : World α) :
    block.madeBy this world = [] := by
  rw [madeBy, Block.run, calls_runAll _ _ _ block silent, List.drop_length]

/-- A block that leaves no temporaries is followed by the other one from where it ends. -/
theorem run_append {first : Block α} {world : World α}
    (closed : (thread this [] world first).1 = []) (second : Block α) :
    (first ++ second).run this world = second.run this (first.run this world) := by
  rw [Block.run, runAll_append, closed]
  rfl

theorem madeBy_append {first : Block α} {world : World α}
    (closed : (thread this [] world first).1 = []) (second : Block α) :
    (first ++ second).madeBy this world =
      first.madeBy this world ++ second.madeBy this (first.run this world) := by
  rw [madeBy, run_append closed, calls_run_eq, calls_run_eq, List.append_assoc, List.drop_left]

end Block

end

end Stagecraft
