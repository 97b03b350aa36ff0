/-
This file follows a property of worlds through a run. A block keeps the property if it holds
wherever a block inside of it is entered and again at the end. Blocks that write nothing the
property depends on keep it, a block that a guard shuts out keeps it whatever it would write, and
what is made of blocks that keep it keeps it too.
-/

import Stagecraft.Proofs.Logic.Evaluation
import Stagecraft.Proofs.Stage.Agenda

namespace Stagecraft

variable {α : Type} [Trigonometric α]

/-! ### Worlds found on the way -/

mutual

/-- Inside a statement who is hosted is as before it. -/
theorem Stmt.hosts_of_entered {this object : String} {locals : Locals α} {world found : World α}
    {block : Block α} :
    (stmt : Stmt α) → .entered object block found ∈ stmt.trace this locals world →
      found.hosts = world.hosts
  | .set key value, entered => by simp [Stmt.trace] at entered
  | .bind name value, entered => by simp [Stmt.trace] at entered
  | .branch condition yes no, entered => by
    rw [Stmt.trace] at entered
    split at entered
    · rcases List.mem_cons.mp entered with same | deeper
      · rw [(Event.entered.inj same).2.2]
      · exact Block.hosts_of_entered yes deeper
    · rcases List.mem_cons.mp entered with same | deeper
      · rw [(Event.entered.inj same).2.2]
      · exact Block.hosts_of_entered no deeper
  | .within inner body, entered => by
    rw [Stmt.trace] at entered
    rcases List.mem_cons.mp entered with same | deeper
    · rw [(Event.entered.inj same).2.2]
    · exact Block.hosts_of_entered body deeper
  | .host call, entered => by simp [Stmt.trace] at entered
  | .comment text, entered => by simp [Stmt.trace] at entered

theorem Block.hosts_of_entered {this object : String} {locals : Locals α} {world found : World α}
    {block : Block α} :
    (whole : List (Stmt α)) → .entered object block found ∈ Block.traceAll this locals world whole →
      found.hosts = world.hosts
  | [], entered => by simp at entered
  | stmt :: rest, entered => by
    rw [Block.traceAll_cons, List.mem_append] at entered
    rcases entered with inHead | inRest
    · exact Stmt.hosts_of_entered stmt inHead
    · rw [Block.hosts_of_entered rest inRest, Stmt.hosts_run]

end

mutual

/-- Inside a statement a place that the statement does not name holds what it held before. -/
theorem Stmt.read_of_entered {this object key inner : String} {locals : Locals α}
    {world found : World α} {block : Block α} :
    (stmt : Stmt α) → (object, key) ∉ stmt.writes this →
      .entered inner block found ∈ stmt.trace this locals world →
      found.read object key = world.read object key
  | .set written value, _, entered => by simp [Stmt.trace] at entered
  | .bind name value, _, entered => by simp [Stmt.trace] at entered
  | .branch condition yes no, spared, entered => by
    simp only [Stmt.writes_branch, List.mem_append, not_or] at spared
    rw [Stmt.trace] at entered
    split at entered
    · rcases List.mem_cons.mp entered with same | deeper
      · rw [(Event.entered.inj same).2.2]
      · exact Block.read_of_entered yes spared.1 deeper
    · rcases List.mem_cons.mp entered with same | deeper
      · rw [(Event.entered.inj same).2.2]
      · exact Block.read_of_entered no spared.2 deeper
  | .within other body, spared, entered => by
    rw [Stmt.writes_within] at spared
    rw [Stmt.trace] at entered
    rcases List.mem_cons.mp entered with same | deeper
    · rw [(Event.entered.inj same).2.2]
    · exact Block.read_of_entered body spared deeper
  | .host call, _, entered => by simp [Stmt.trace] at entered
  | .comment text, _, entered => by simp [Stmt.trace] at entered

theorem Block.read_of_entered {this object key inner : String} {locals : Locals α}
    {world found : World α} {block : Block α} :
    (whole : List (Stmt α)) → (object, key) ∉ Block.writes this whole →
      .entered inner block found ∈ Block.traceAll this locals world whole →
      found.read object key = world.read object key
  | [], _, entered => by simp at entered
  | stmt :: rest, spared, entered => by
    simp only [Block.writes_cons, List.mem_append, not_or] at spared
    rw [Block.traceAll_cons, List.mem_append] at entered
    rcases entered with inHead | inRest
    · exact Stmt.read_of_entered stmt spared.1 inHead
    · rw [Block.read_of_entered rest spared.2 inRest, Stmt.read_run _ _ _ _ _ stmt spared.1]

end

/-! ### Properties that blocks keep -/

/-- The property does not depend on the places that are allowed. -/
def World.Ignores (holds : World α → Prop) (allowed : String → Slot → Prop) : Prop :=
  ∀ world world' : World α, world'.hosts = world.hosts →
    (∀ object slot, ¬allowed object slot →
      world'.read object slot.key = world.read object slot.key) →
    holds world → holds world'

/-- Running the block keeps a property of worlds, up to the end and at every block inside. -/
structure Block.Keeps (holds : World α → Prop) (this : String) (block : Block α) : Prop where
  after : ∀ locals world, holds world → holds (runAll this locals world block)
  inside : ∀ locals world, holds world → ∀ object entered found,
    .entered object entered found ∈ traceAll this locals world block → holds found

namespace Block

variable {holds : World α → Prop} {this : String}

theorem keeps_nil : Keeps holds this [] where
  after _ world held := by rwa [runAll_nil]
  inside := by simp

theorem keeps_append {first second : Block α} (early : Keeps holds this first)
    (late : Keeps holds this second) : Keeps holds this (first ++ second) where
  after locals world held := by
    rw [runAll_append]
    exact late.after _ _ (early.after locals world held)
  inside locals world held object entered found happens := by
    rw [traceAll_append, List.mem_append] at happens
    rcases happens with before | later
    · exact early.inside locals world held object entered found before
    · exact late.inside _ _ (early.after locals world held) object entered found later

theorem keeps_cons {stmt : Stmt α} {rest : Block α} (here : Keeps holds this [stmt])
    (later : Keeps holds this rest) : Keeps holds this (stmt :: rest) :=
  keeps_append here later

theorem keeps_flatMap {β : Type} {values : List β} {block : β → Block α}
    (each : ∀ value ∈ values, Keeps holds this (block value)) :
    Keeps holds this (values.flatMap block) := by
  induction values with
  | nil => exact keeps_nil
  | cons value rest inductionHypothesis =>
    obtain ⟨here, later⟩ := List.forall_mem_cons.mp each
    rw [List.flatMap_cons]
    exact keeps_append here (inductionHypothesis later)

theorem keeps_branch {condition : Expr α} {yes no : Block α} (inYes : Keeps holds this yes)
    (inNo : Keeps holds this no) : Keeps holds this [.branch condition yes no] where
  after locals world held := by
    rw [runAll_cons, runAll_nil, Stmt.run]
    split
    · exact inYes.after locals world held
    · exact inNo.after locals world held
  inside locals world held object entered found happens := by
    rw [traceAll_cons, traceAll_nil, List.append_nil, Stmt.trace] at happens
    split at happens
    · rcases List.mem_cons.mp happens with same | deeper
      · rwa [(Event.entered.inj same).2.2]
      · exact inYes.inside locals world held object entered found deeper
    · rcases List.mem_cons.mp happens with same | deeper
      · rwa [(Event.entered.inj same).2.2]
      · exact inNo.inside locals world held object entered found deeper

/-- A block that is never entered while the property holds may do anything. -/
theorem keeps_shut {condition : Expr α} {body : Block α}
    (shut : ∀ locals world, holds world → (condition.eval world this locals).isTruthy = false) :
    Keeps holds this [.onlyIf condition body] where
  after locals world held := by
    rw [runAll_cons, runAll_nil, Stmt.run_onlyIf, shut locals world held]
    exact held
  inside locals world held object entered found happens := by
    rw [traceAll_cons, traceAll_nil, List.append_nil, Stmt.trace_onlyIf, shut locals world held]
      at happens
    have same := List.mem_singleton.mp happens
    rwa [(Event.entered.inj same).2.2]

theorem keeps_within {object : String} {body : Block α} (inside : Keeps holds object body) :
    Keeps holds this [.within object body] where
  after locals world held := by
    rw [runAll_cons, runAll_nil, Stmt.run]
    exact inside.after locals world held
  inside locals world held other entered found happens := by
    rw [traceAll_cons, traceAll_nil, List.append_nil, Stmt.trace] at happens
    rcases List.mem_cons.mp happens with same | deeper
    · rwa [(Event.entered.inj same).2.2]
    · exact inside.inside locals world held other entered found deeper

/-- What writes only places that the property ignores keeps it. -/
theorem keeps_of_writesOnly {allowed : String → Slot → Prop} (ignores : World.Ignores holds allowed)
    {block : Block α} (bounded : WritesOnly allowed this block) : Keeps holds this block where
  after locals world held :=
    ignores world _ (hosts_runAll _ _ _ _)
      (fun _ _ forbidden => bounded.read_runAll forbidden locals world) held
  inside _ world held _ _ _ happens :=
    ignores world _ (hosts_of_entered block happens)
      (fun _ _ forbidden => read_of_entered block (bounded.notMem forbidden) happens) held

end Block

/-! ### Agendas -/

namespace Duty

variable {holds : World α → Prop} {duty : Duty α}
  (keeps : Block.Keeps holds duty.object duty.block) {world : World α} (held : holds world)

include keeps held

theorem holds_run : holds (duty.run world) := by
  rw [run]
  split
  · exact keeps.after [] world held
  · exact held

theorem holds_of_entered {object : String} {block : Block α} {found : World α}
    (happens : .entered object block found ∈ duty.trace world) : holds found := by
  rw [trace] at happens
  split at happens
  · exact keeps.inside [] world held object block found happens
  · cases happens

end Duty

namespace Agenda

variable {holds : World α → Prop} {agenda : Agenda α}
  (keeps : ∀ duty ∈ agenda, Block.Keeps holds duty.object duty.block)

include keeps

theorem holds_run {world : World α} (held : holds world) : holds (agenda.run world) := by
  induction agenda generalizing world with
  | nil => exact held
  | cons duty rest inductionHypothesis =>
    obtain ⟨here, later⟩ := List.forall_mem_cons.mp keeps
    exact inductionHypothesis later (Duty.holds_run here held)

/-- Wherever a block is entered at one of the duties, the property holds. -/
theorem holds_of_entered {world found : World α} (held : holds world) {object : String}
    {block : Block α} (happens : .entered object block found ∈ agenda.trace world) :
    holds found := by
  induction agenda generalizing world with
  | nil => simp at happens
  | cons duty rest inductionHypothesis =>
    obtain ⟨here, later⟩ := List.forall_mem_cons.mp keeps
    rw [trace_cons, List.mem_append] at happens
    rcases happens with inDuty | inRest
    · exact Duty.holds_of_entered here held inDuty
    · exact inductionHypothesis later (Duty.holds_run here held) inRest

end Agenda

end Stagecraft
