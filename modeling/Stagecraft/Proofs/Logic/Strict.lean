/-
This file shows that sound logic never falls back on anything. Logic as it is run puts up with
temporaries that were never named, with objects that are not hosted and with conditions in the place
of numbers. Here it is run again so that each of these ends the run without a result; where all
known objects are hosted, sound logic has a result, and it is the one that it has in any case.
-/

import Stagecraft.Proofs.Logic.Kinds
import Stagecraft.Proofs.Stage.Agenda

namespace Stagecraft

variable {α : Type}

/-! ### Strict runs -/

namespace Value

def kind : Value α → Kind
  | .num _ => .number
  | .bool _ => .condition

/-- The number that the value is, if it is one. -/
def number? : Value α → Option α
  | .num value => some value
  | .bool _ => none

/-- The condition that the value is, if it is one. -/
def condition? : Value α → Option Bool
  | .num _ => none
  | .bool value => some value

end Value

/-- The kinds of the values of temporaries. -/
def Locals.kinds (locals : Locals α) : Kinds :=
  locals.map fun (name, value) => (name, value.kind)

def UnaryOp.strict? [Scalar α] (op : UnaryOp) (operand : Value α) : Option (Value α) :=
  if operand.kind = op.kind then some (op.apply operand) else none

def BinaryOp.strict? [Scalar α] (op : BinaryOp) (left right : Value α) : Option (Value α) :=
  if left.kind = op.operands ∧ right.kind = op.operands then some (op.apply left right) else none

variable [Trigonometric α]

mutual

/-- The value of an expression all parts of which have values of the kinds that are needed, whether
or not the value depends on them. -/
def Expr.strict? (world : World α) (this : String) (locals : Locals α) :
    Expr α → Option (Value α)
  | .num value => some (.num value)
  | .prop .this key => if world.hosts this then some (.num (world.read this key)) else none
  | .prop (.object id) key => if world.hosts id then some (.num (world.read id key)) else none
  | .var name => locals.lookup name
  | .unary op operand => (operand.strict? world this locals).bind op.strict?
  | .binary op left right => do
    let first ← left.strict? world this locals
    let second ← right.strict? world this locals
    op.strict? first second
  | .call builtin arguments => do
    let numbers ← Expr.strictAll? world this locals arguments
    if builtin.takes numbers.length then some (.num (builtin.apply numbers)) else none
  | .select condition yes no => do
    let holds ← (condition.strict? world this locals).bind (·.condition?)
    let first ← (yes.strict? world this locals).bind (·.number?)
    let second ← (no.strict? world this locals).bind (·.number?)
    return .num (if holds then first else second)

def Expr.strictAll? (world : World α) (this : String) (locals : Locals α) :
    List (Expr α) → Option (List α)
  | [] => some []
  | expr :: rest => do
    let first ← (expr.strict? world this locals).bind (·.number?)
    let others ← Expr.strictAll? world this locals rest
    return first :: others

end

mutual

/-- Run one statement, if the objects that it runs on are hosted and nothing in it lacks a value. -/
def Stmt.strictRun? (this : String) (locals : Locals α) (world : World α) :
    Stmt α → Option (Locals α × World α)
  | .set key value => do
    let number ← (value.strict? world this locals).bind (·.number?)
    if world.hosts this then some (locals, world.write this key number) else none
  | .bind name value => do
    let named ← value.strict? world this locals
    return ((name, named) :: locals, world)
  | .branch condition yes no =>
    match condition.strict? world this locals with
    | some (.bool true) => (Block.strictRunAll? this locals world yes).map (locals, ·)
    | some (.bool false) => (Block.strictRunAll? this locals world no).map (locals, ·)
    | _ => none
  | .within object body =>
    if world.hosts object then
      (Block.strictRunAll? object locals world body).map (locals, ·)
    else none
  | .host call => some (locals, world.call this call)
  | .comment _ => some (locals, world)

def Block.strictRunAll? (this : String) (locals : Locals α) (world : World α) :
    List (Stmt α) → Option (World α)
  | [] => some world
  | stmt :: rest => do
    let (locals, world) ← stmt.strictRun? this locals world
    Block.strictRunAll? this locals world rest

end

/-- Do all duties in order, none of them on an object that is not hosted. -/
def Agenda.strictRun? (agenda : Agenda α) (world : World α) : Option (World α) :=
  agenda.foldlM (fun world duty =>
    if world.hosts duty.object then Block.strictRunAll? duty.object [] world duty.block
    else none) world

/-! ### Expressions -/

omit [Trigonometric α] in
theorem Locals.exists_of_lookup {locals : Locals α} {name : String} {kind : Kind}
    (found : locals.kinds.lookup name = some kind) :
    ∃ value, locals.lookup name = some value ∧ value.kind = kind := by
  induction locals with
  | nil => cases found
  | cons entry rest inductionHypothesis =>
    obtain ⟨other, value⟩ := entry
    rw [kinds, List.map_cons, List.lookup_cons] at found
    rw [List.lookup_cons]
    cases same : name == other with
    | true =>
      rw [same] at found
      exact ⟨value, rfl, Option.some.inj found⟩
    | false =>
      rw [same] at found
      exact inductionHypothesis found

omit [Trigonometric α] in
theorem Value.exists_number {value : Value α} (isNumber : value.kind = .number) :
    ∃ number, value = .num number := by
  cases value with
  | num number => exact ⟨number, rfl⟩
  | bool holds => cases isNumber

omit [Trigonometric α] in
theorem Value.exists_condition {value : Value α} (isCondition : value.kind = .condition) :
    ∃ holds, value = .bool holds := by
  cases value with
  | num number => cases isCondition
  | bool holds => exact ⟨holds, rfl⟩

theorem UnaryOp.kind_apply (op : UnaryOp) (operand : Value α) :
    (op.apply operand).kind = op.kind := by
  cases op <;> rfl

/-- Connectives give one of their operands, so its kind is that of the result. -/
theorem BinaryOp.kind_apply (op : BinaryOp) {left right : Value α} (first : left.kind = op.operands)
    (second : right.kind = op.operands) : (op.apply left right).kind = op.result := by
  cases op with
  | and =>
    rw [apply]
    split
    · exact second
    · exact first
  | or =>
    rw [apply]
    split
    · exact first
    · exact second
  | _ => rfl

/-- The value of an expression has the kind of the expression, whatever is hosted. -/
theorem Expr.kind_eval {known : String → Bool} (world : World α) (this : String)
    (locals : Locals α) : (expr : Expr α) → {kind : Kind} →
      expr.kind? known locals.kinds = some kind → (expr.eval world this locals).kind = kind
  | .num value, kind, given => by
    rw [Expr.kind?] at given
    rw [Expr.eval]
    exact Option.some.inj given
  | .prop .this key, kind, given => by
    rw [Expr.kind?] at given
    rw [Expr.eval]
    exact Option.some.inj given
  | .prop (.object id) key, kind, given => by
    rw [Expr.kind?_object] at given
    rw [Expr.eval]
    exact given.2
  | .var name, kind, given => by
    rw [Expr.kind?] at given
    obtain ⟨value, found, isKind⟩ := Locals.exists_of_lookup given
    rw [Expr.eval, Locals.read, found]
    exact isKind
  | .unary op operand, kind, given => by
    rw [Expr.kind?_unary] at given
    rw [Expr.eval]
    exact (op.kind_apply _).trans given.2
  | .binary op left right, kind, given => by
    rw [Expr.kind?_binary] at given
    rw [Expr.eval]
    exact (op.kind_apply (Expr.kind_eval world this locals left given.1.1)
      (Expr.kind_eval world this locals right given.1.2)).trans given.2
  | .call builtin arguments, kind, given => by
    rw [Expr.kind?_call] at given
    rw [Expr.eval]
    exact given.2
  | .select condition yes no, kind, given => by
    rw [Expr.kind?_select] at given
    obtain ⟨⟨-, isYes, isNo⟩, rfl⟩ := given
    rw [Expr.eval]
    split
    · exact Expr.kind_eval world this locals yes isYes
    · exact Expr.kind_eval world this locals no isNo

theorem Expr.exists_number_eval {known : String → Bool} (world : World α) (this : String)
    {locals : Locals α} {expr : Expr α} (isNumber : expr.IsNumber known locals.kinds) :
    ∃ number, expr.eval world this locals = .num number :=
  Value.exists_number (Expr.kind_eval world this locals expr isNumber)

theorem Expr.exists_condition_eval {known : String → Bool} (world : World α) (this : String)
    {locals : Locals α} {expr : Expr α} (isCondition : expr.IsCondition known locals.kinds) :
    ∃ holds, expr.eval world this locals = .bool holds :=
  Value.exists_condition (Expr.kind_eval world this locals expr isCondition)

theorem Expr.length_evalAll (world : World α) (this : String) (locals : Locals α)
    (exprs : List (Expr α)) : (evalAll world this locals exprs).length = exprs.length := by
  induction exprs with
  | nil => rw [evalAll, List.length_nil, List.length_nil]
  | cons expr rest inductionHypothesis =>
    rw [evalAll, List.length_cons, List.length_cons, inductionHypothesis]

mutual

theorem Expr.strict?_eq {known : String → Bool} {world : World α} {this : String}
    {locals : Locals α} {kind : Kind} (hosted : ∀ id, known id → world.hosts id)
    (here : world.hosts this) : (expr : Expr α) → expr.kind? known locals.kinds = some kind →
      expr.strict? world this locals = some (expr.eval world this locals)
  | .num value, _ => by rw [Expr.strict?, Expr.eval]
  | .prop .this key, _ => by rw [Expr.strict?, Expr.eval, if_pos here]
  | .prop (.object id) key, given => by
    rw [Expr.kind?_object] at given
    rw [Expr.strict?, Expr.eval, if_pos (hosted id given.1)]
  | .var name, given => by
    rw [Expr.kind?] at given
    obtain ⟨value, found, -⟩ := Locals.exists_of_lookup given
    rw [Expr.strict?, Expr.eval, Locals.read, found]
    rfl
  | .unary op operand, given => by
    rw [Expr.kind?_unary] at given
    have isKind := Expr.kind_eval world this locals operand given.1
    rw [Expr.strict?, Expr.eval, Expr.strict?_eq hosted here operand given.1, Option.bind_some,
      UnaryOp.strict?, if_pos isKind]
  | .binary op left right, given => by
    rw [Expr.kind?_binary] at given
    have isLeft := Expr.kind_eval world this locals left given.1.1
    have isRight := Expr.kind_eval world this locals right given.1.2
    rw [Expr.strict?, Expr.eval, Expr.strict?_eq hosted here left given.1.1,
      Expr.strict?_eq hosted here right given.1.2]
    exact if_pos ⟨isLeft, isRight⟩
  | .call builtin arguments, given => by
    rw [Expr.kind?_call] at given
    rw [Expr.strict?, Expr.eval, Expr.strictAll?_eq hosted here arguments given.1.2]
    refine if_pos ?_
    rw [Expr.length_evalAll]
    exact given.1.1
  | .select condition yes no, given => by
    rw [Expr.kind?_select] at given
    obtain ⟨⟨decides, isYes, isNo⟩, -⟩ := given
    obtain ⟨holds, isHolds⟩ := Expr.exists_condition_eval world this decides
    obtain ⟨first, isFirst⟩ := Expr.exists_number_eval world this isYes
    obtain ⟨second, isSecond⟩ := Expr.exists_number_eval world this isNo
    rw [Expr.strict?, Expr.eval, Expr.strict?_eq hosted here condition decides,
      Expr.strict?_eq hosted here yes isYes, Expr.strict?_eq hosted here no isNo, isHolds, isFirst,
      isSecond]
    cases holds <;> rfl

theorem Expr.strictAll?_eq {known : String → Bool} {world : World α} {this : String}
    {locals : Locals α} (hosted : ∀ id, known id → world.hosts id) (here : world.hosts this) :
    (exprs : List (Expr α)) → Expr.areNumbers known locals.kinds exprs →
      Expr.strictAll? world this locals exprs = some (Expr.evalAll world this locals exprs)
  | [], _ => by rw [Expr.strictAll?, Expr.evalAll]
  | expr :: rest, given => by
    rw [Expr.areNumbers_cons] at given
    obtain ⟨number, isValue⟩ := Expr.exists_number_eval world this given.1
    rw [Expr.strictAll?, Expr.evalAll, Expr.strict?_eq hosted here expr given.1,
      Expr.strictAll?_eq hosted here rest given.2, isValue]
    rfl

end

/-! ### Statements -/

/-- A statement names what it is said to name. -/
theorem Stmt.kinds_run {known : String → Bool} (this : String) (locals : Locals α)
    (world : World α) {stmt : Stmt α} {next : Kinds}
    (given : stmt.after? known locals.kinds = some next) :
    (stmt.run this locals world).1.kinds = next := by
  cases stmt with
  | bind name value =>
    rw [after?, Option.map_eq_some_iff] at given
    obtain ⟨kind, isKind, rfl⟩ := given
    rw [run, ← Expr.kind_eval world this locals value isKind]
    rfl
  | branch condition yes no =>
    rw [after?, Option.ite_none_right_eq_some] at given
    rw [run]
    split <;> exact Option.some.inj given.2
  | set key value | within object body =>
    rw [after?, Option.ite_none_right_eq_some] at given
    rw [run]
    exact Option.some.inj given.2
  | host call | comment text =>
    rw [after?] at given
    rw [run]
    exact Option.some.inj given

mutual

theorem Stmt.strictRun?_eq {known : String → Bool} {world : World α} {this : String}
    {locals : Locals α} {next : Kinds} (hosted : ∀ id, known id → world.hosts id)
    (here : world.hosts this) : (stmt : Stmt α) → stmt.after? known locals.kinds = some next →
      stmt.strictRun? this locals world = some (stmt.run this locals world)
  | .set key value, given => by
    rw [Stmt.after?, Option.ite_none_right_eq_some] at given
    obtain ⟨number, isValue⟩ := Expr.exists_number_eval world this given.1
    rw [Stmt.strictRun?, Stmt.run, Expr.strict?_eq hosted here value given.1, isValue]
    exact if_pos here
  | .bind name value, given => by
    rw [Stmt.after?, Option.map_eq_some_iff] at given
    obtain ⟨kind, isKind, -⟩ := given
    rw [Stmt.strictRun?, Stmt.run, Expr.strict?_eq hosted here value isKind]
    rfl
  | .branch condition yes no, given => by
    rw [Stmt.after?, Option.ite_none_right_eq_some] at given
    obtain ⟨⟨decides, soundYes, soundNo⟩, -⟩ := given
    obtain ⟨holds, isHolds⟩ := Expr.exists_condition_eval world this decides
    rw [Stmt.strictRun?, Stmt.run, Expr.strict?_eq hosted here condition decides, isHolds]
    cases holds with
    | true =>
      rw [Block.strictRunAll?_eq hosted here yes soundYes]
      rfl
    | false =>
      rw [Block.strictRunAll?_eq hosted here no soundNo]
      rfl
  | .within object body, given => by
    rw [Stmt.after?, Option.ite_none_right_eq_some] at given
    obtain ⟨⟨isKnown, sound⟩, -⟩ := given
    have ran := Block.strictRunAll?_eq hosted (hosted object isKnown) body sound
    rw [Stmt.strictRun?, Stmt.run, if_pos (hosted object isKnown), ran]
    rfl
  | .host call, _ => by rw [Stmt.strictRun?, Stmt.run]
  | .comment text, _ => by rw [Stmt.strictRun?, Stmt.run]

theorem Block.strictRunAll?_eq {known : String → Bool} {world : World α} {this : String}
    {locals : Locals α} (hosted : ∀ id, known id → world.hosts id) (here : world.hosts this) :
    (block : List (Stmt α)) → (Block.after? known locals.kinds block).isSome →
      Block.strictRunAll? this locals world block = some (Block.runAll this locals world block)
  | [], _ => by rw [Block.strictRunAll?, Block.runAll]
  | stmt :: rest, sound => by
    obtain ⟨next, given⟩ := Option.isSome_iff_exists.mp sound
    rw [Block.after?, Option.bind_eq_some_iff] at given
    obtain ⟨middle, first, later⟩ := given
    rw [← Stmt.kinds_run this locals world first] at later
    have hosts := Stmt.hosts_run this locals world stmt
    have ranRest := Block.strictRunAll?_eq (hosts ▸ hosted) (hosts ▸ here) rest
      (Option.isSome_iff_exists.mpr ⟨next, later⟩)
    rw [Block.strictRunAll?, Stmt.strictRun?_eq hosted here stmt first, Block.runAll]
    exact ranRest

end

/-! ### Agendas -/

/-- Sound logic that is run on known objects, in whatever order, falls back on nothing. -/
theorem Agenda.strictRun?_eq {known : String → Bool} {agenda : Agenda α}
    (sound : ∀ duty ∈ agenda, known duty.object ∧ Block.IsSound known duty.block) {world : World α}
    (hosted : ∀ id, known id → world.hosts id) : agenda.strictRun? world = some (agenda.run world) := by
  induction agenda generalizing world with
  | nil => rfl
  | cons duty rest inductionHypothesis =>
    obtain ⟨⟨isKnown, here⟩, later⟩ := List.forall_mem_cons.mp sound
    have ran : duty.run world = Block.runAll duty.object [] world duty.block :=
      if_pos (hosted _ isKnown)
    have strict : Block.strictRunAll? duty.object [] world duty.block = some (duty.run world) := by
      rw [ran]
      exact Block.strictRunAll?_eq hosted (hosted _ isKnown) duty.block here
    have hosts := duty.hosts_run world
    rw [run_cons, ← inductionHypothesis later (hosts ▸ hosted), strictRun?, List.foldlM_cons,
      if_pos (hosted _ isKnown), strict]
    rfl

end Stagecraft
