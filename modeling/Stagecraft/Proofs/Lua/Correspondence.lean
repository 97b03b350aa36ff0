/-
This file shows that rendered logic does in Lua what the logic does. What is read from a text is run
as the chunk that was written, and a chunk is run step by step as the logic it was made from: names
stand for the temporaries of the same name and for the bags of the objects that logic runs on. Lua
stops where logic puts up with something, a name that stands for nothing or a condition among
numbers, so the logic has to be sound.
-/

import Stagecraft.Lua.Meaning
import Stagecraft.Proofs.Logic.Evaluation
import Stagecraft.Proofs.Logic.Strict
import Stagecraft.Proofs.Lua.Writing
import Stagecraft.Proofs.Outcome

namespace Stagecraft

namespace Lua

section

variable {α : Type} [Scalar α] (math : Mathematics α)

/-! ### Chunks as they are read -/

mutual

theorem eval_expanded (world : World α) (locals : Locals α) : (exp : Exp α) →
    exp.expanded.eval math world locals = exp.eval math world locals
  | .numeral _ => by rw [Exp.expanded]
  | .text _ => by rw [Exp.expanded]
  | .name _ => by rw [Exp.expanded]
  | .index table key => by
    rw [Exp.expanded, Exp.eval, Exp.eval, eval_expanded world locals table,
      eval_expanded world locals key]
  | .member table field => by
    rw [Exp.expanded, Exp.eval, Exp.eval, eval_expanded world locals table]
  | .unary op operand => by
    rw [Exp.expanded, Exp.eval, Exp.eval, eval_expanded world locals operand]
  | .binary op left right => by
    have sameLeft := eval_expanded world locals left
    have sameRight := eval_expanded world locals right
    cases op <;> simp only [Exp.expanded, Exp.eval, sameLeft, sameRight]
  | .call callee arguments => by
    rw [Exp.expanded, Exp.eval, Exp.eval, eval_expanded world locals callee,
      evalAll_expandedAll world locals arguments]
  | .choose condition yes no => by
    rw [Exp.expanded, Exp.eval, Exp.eval, Exp.eval, eval_expanded world locals condition,
      eval_expanded world locals yes, eval_expanded world locals no]
    -- Both look at the second value only if the first one holds, and at the third one otherwise.
    cases condition.eval math world locals with
    | error error => rfl
    | ok holds =>
      cases isTrue : holds.isTruthy <;> simp [bind, Except.bind, isTrue]

theorem evalAll_expandedAll (world : World α) (locals : Locals α) : (exps : List (Exp α)) →
    Exp.evalAll math world locals (Exp.expandedAll exps) = Exp.evalAll math world locals exps
  | [] => by rw [Exp.expandedAll]
  | exp :: rest => by
    rw [Exp.expandedAll, Exp.evalAll, Exp.evalAll, eval_expanded world locals exp,
      evalAll_expandedAll world locals rest]

end

mutual

theorem runAll_expanded (locals : Locals α) (world : World α) (rest : List (Stat α)) :
    (stat : Stat α) → Chunk.runAll math locals world (stat.expanded ++ rest) =
      Chunk.runAll math locals world (stat :: rest)
  | .assign table key value => by
    rw [Stat.expanded, List.singleton_append, Chunk.runAll, Chunk.runAll, Stat.run, Stat.run,
      eval_expanded, eval_expanded, eval_expanded]
  | .declare name value => by
    rw [Stat.expanded, List.singleton_append, Chunk.runAll, Chunk.runAll, Stat.run, Stat.run,
      eval_expanded]
  | .call callee arguments => by
    rw [Stat.expanded, List.singleton_append, Chunk.runAll, Chunk.runAll, Stat.run, Stat.run,
      eval_expanded, evalAll_expandedAll]
  | .branch condition yes no => by
    rw [Stat.expanded, List.singleton_append, Chunk.runAll, Chunk.runAll, Stat.run, Stat.run,
      eval_expanded, runAll_expandedAll locals world yes, runAll_expandedAll locals world no]
  | .scope body => by
    rw [Stat.expanded, List.singleton_append, Chunk.runAll, Chunk.runAll, Stat.run, Stat.run,
      runAll_expandedAll locals world body]
  | .comment text => by
    rw [Stat.expanded, List.nil_append, Chunk.runAll, Stat.run]
    rfl

theorem runAll_expandedAll (locals : Locals α) (world : World α) : (stats : List (Stat α)) →
    Chunk.runAll math locals world (Stat.expandedAll stats) =
      Chunk.runAll math locals world stats
  | [] => by rw [Stat.expandedAll]
  | stat :: rest => by
    rw [Stat.expandedAll, runAll_expanded locals world _ stat, Chunk.runAll, Chunk.runAll]
    refine congrArg _ (funext fun (locals, world) => ?_)
    exact runAll_expandedAll locals world rest

end

end

/-! ### Values and names -/

section

variable {α : Type}

def ofValue : Stagecraft.Value α → Value α
  | .num value => .num value
  | .bool value => .bool value

@[simp] theorem isTruthy_ofValue (value : Stagecraft.Value α) :
    (ofValue value).isTruthy = value.isTruthy := by
  cases value with
  | num value => rfl
  | bool value => cases value <;> rfl

theorem equals_ofValue [BEq α] (first second : Stagecraft.Value α) :
    (ofValue first).equals (ofValue second) = first.equals second := by
  cases first <;> cases second <;> rfl

/-- Names stand for the bag of an object, for the tables of the host, and for temporaries. -/
structure Represents (names : Locals α) (this : String) (locals : Stagecraft.Locals α) : Prop where
  bag : names.lookup bagName = some (.bag this)
  tables : ∀ name ∈ globals, names.lookup name = none
  temporaries : ∀ name ∉ taken, names.lookup name = (locals.lookup name).map ofValue
  free : AreFree locals.kinds

theorem lookup_cons_other {name other : String} (differs : name ≠ other) (value : Value α)
    (names : Locals α) : List.lookup name ((other, value) :: names) = names.lookup name := by
  rw [List.lookup_cons, beq_false_of_ne differs]

namespace Represents

theorem initial (this : String) :
    Represents (α := α) [(bagName, .bag this)] this [] where
  bag := rfl
  tables name isGlobal := lookup_cons_other (ne_of_mem_of_not_mem isGlobal (by decide)) _ []
  temporaries name isTemporary := lookup_cons_other (List.ne_of_not_mem_cons isTemporary) _ []
  free := nofun

variable {names : Locals α} {this : String} {locals : Stagecraft.Locals α}
  (represents : Represents names this locals)

include represents

theorem bind {name : String} (free : IsFree name) (value : Stagecraft.Value α) :
    Represents ((name, ofValue value) :: names) this ((name, value) :: locals) where
  bag := by
    rw [lookup_cons_other (List.ne_of_not_mem_cons free.2).symm]
    exact represents.bag
  tables other isGlobal := by
    rw [lookup_cons_other (ne_of_mem_of_not_mem (List.mem_cons_of_mem _ isGlobal) free.2)]
    exact represents.tables other isGlobal
  temporaries other isTemporary := by
    rw [List.lookup_cons, List.lookup_cons]
    split
    · rfl
    · exact represents.temporaries other isTemporary
  free := represents.free.cons free value.kind

/-- The temporaries go on inside of a block on another object. -/
theorem within (object : String) :
    Represents ((bagName, .bag object) :: names) object locals where
  bag := by rw [List.lookup_cons, beq_self_eq_true]
  tables name isGlobal := by
    rw [lookup_cons_other (ne_of_mem_of_not_mem isGlobal (by decide))]
    exact represents.tables name isGlobal
  temporaries name isTemporary := by
    rw [lookup_cons_other (List.ne_of_not_mem_cons isTemporary)]
    exact represents.temporaries name isTemporary
  free := represents.free

end Represents

/-! ### Operators -/

variable [Trigonometric α]

theorem applyUnary_ofValue (op : UnaryOp) {operand : Stagecraft.Value α}
    (isKind : operand.kind = op.kind) :
    applyUnary op (ofValue operand) = .ok (ofValue (op.apply operand)) := by
  cases op with
  | neg =>
    obtain ⟨number, rfl⟩ := Stagecraft.Value.exists_number isKind
    rfl
  | not => rw [applyUnary, isTruthy_ofValue, UnaryOp.apply, ofValue]

theorem applyBinary_ofValue (op : BinaryOp) {left right : Stagecraft.Value α}
    (isLeft : left.kind = op.operands) (isRight : right.kind = op.operands) :
    applyBinary op (ofValue left) (ofValue right) = .ok (ofValue (op.apply left right)) := by
  cases op with
  | and | or =>
    rw [applyBinary, BinaryOp.apply, isTruthy_ofValue]
    split <;> rfl
  | eq | ne => rw [applyBinary, BinaryOp.apply, equals_ofValue]; rfl
  | _ =>
    obtain ⟨first, rfl⟩ := Stagecraft.Value.exists_number isLeft
    obtain ⟨second, rfl⟩ := Stagecraft.Value.exists_number isRight
    rfl

/-- An operator may leave out its second operand only where that makes no difference. -/
theorem eval_binary {math : Mathematics α} {world : World α} {names : Locals α} (op : BinaryOp)
    {left right : Exp α} {first second : Value α} (isFirst : left.eval math world names = .ok first)
    (isSecond : right.eval math world names = .ok second) :
    (Exp.binary op left right).eval math world names = applyBinary op first second := by
  cases op with
  | and | or =>
    rw [Exp.eval, isFirst, isSecond, applyBinary]
    show (if first.isTruthy then _ else _) = _
    split <;> rfl
  | _ =>
    rw [Exp.eval, isFirst, isSecond]
    · rfl
    all_goals simp

/-- The functions of the library are the builtins of logic. -/
def Mathematics.Agrees (math : Mathematics α) : Prop :=
  ∀ (builtin : Builtin) (arguments : List α), builtin.takes arguments.length →
    math builtin arguments = builtin.apply arguments

theorem applyFunction_builtin {math : Mathematics α} (agrees : math.Agrees) {builtin : Builtin}
    {numbers : List α} (takes : builtin.takes numbers.length) :
    applyFunction math (.builtin builtin) (numbers.map .num) =
      .ok (.num (builtin.apply numbers)) := by
  have read : (numbers.map Value.num).mapM (fun argument => argument.number .argument) =
      .ok numbers := by
    rw [Stagecraft.Outcome.mapM_eq_ok, List.forall₂_map_left_iff, List.forall₂_same]
    exact fun number _ => rfl
  have nonempty : numbers.isEmpty = false := by
    cases numbers with
    | nil => cases builtin <;> cases takes
    | cons number rest => rfl
  rw [applyFunction, read, ← agrees builtin numbers takes]
  show (if numbers.isEmpty then _ else _) = _
  rw [nonempty]
  rfl

/-! ### Names and tables -/

section

variable {math : Mathematics α} {world : World α} {names : Locals α}

theorem eval_text (content : String) :
    (Exp.text content).eval math world names = .ok (.text content) := by
  rw [Exp.eval]

theorem eval_index {table key : Exp α} {first second : Value α}
    (isFirst : table.eval math world names = .ok first)
    (isSecond : key.eval math world names = .ok second) :
    (Exp.index table key).eval math world names = readIndex world first second := by
  rw [Exp.eval, isFirst, isSecond]
  rfl

theorem eval_member {table : Exp α} {library : Library} (field : String)
    (isLibrary : table.eval math world names = .ok (.library library)) :
    (Exp.member table field).eval math world names = .ok (library.field world field) := by
  rw [Exp.eval, isLibrary]
  rfl

variable {this : String} {locals : Stagecraft.Locals α}
  (represents : Represents names this locals)

include represents

theorem Represents.eval_bag : (Exp.name bagName).eval math world names = .ok (.bag this) := by
  rw [Exp.eval, represents.bag]
  rfl

theorem Represents.eval_table (name : String) (isGlobal : name ∈ globals) :
    (Exp.name name).eval math world names = .ok (globalValue name) := by
  rw [Exp.eval, represents.tables name isGlobal]
  rfl

theorem Represents.eval_bagOf {object : String} (hosted : world.hosts object) :
    (bagOf object).eval math world names = .ok (.bag object) := by
  have read : (bagOf object).eval math world names = .ok (Library.scene.field world object) :=
    eval_index (represents.eval_table sceneName (by decide)) (eval_text object)
  rw [read, Library.field, if_pos hosted]

theorem Represents.eval_builtin (builtin : Builtin) :
    (Exp.member (.name mathName) (builtinName builtin)).eval math world names =
      .ok (.function (.builtin builtin)) := by
  rw [eval_member _ (represents.eval_table mathName (by decide))]
  cases builtin <;> rfl

end

end

/-! ### Expressions -/

theorem eval_ofNumber {math : Mathematics Float} {world : World Float} {names : Locals Float}
    {value : Float} (exact : IsExact value) :
    (ofNumber value).eval math world names = .ok (.num value) := by
  rcases ofNumber_eq exact with ⟨same, -⟩ | ⟨same, -⟩
  · rw [same, Exp.eval]
  · rw [same, Exp.eval, Exp.eval]
    show Except.ok (Value.num (- -value)) = _
    rw [Double.neg_neg]

mutual

theorem eval_ofExpr {math : Mathematics Float} (agrees : math.Agrees) {known : String → Bool}
    {world : World Float} (hosted : ∀ id, known id → world.hosts id) {names : Locals Float}
    {this : String} {locals : Stagecraft.Locals Float} (represents : Represents names this locals) :
    (expr : Expr Float) → {kind : Kind} → expr.kind? known locals.kinds = some kind →
      (∀ value ∈ expr.literals, IsExact value) →
        (ofExpr expr).eval math world names = .ok (ofValue (expr.eval world this locals))
  | .num value, _, _, exact => by
    rw [ofExpr, Expr.eval]
    exact eval_ofNumber (exact value List.mem_cons_self)
  | .prop .this key, _, _, _ => by
    rw [ofExpr, Expr.eval]
    exact eval_index represents.eval_bag (eval_text key)
  | .prop (.object id) key, _, given, _ => by
    rw [Expr.kind?_object] at given
    rw [ofExpr, Expr.eval]
    exact eval_index (represents.eval_bagOf (hosted id given.1)) (eval_text key)
  | .var name, kind, given, _ => by
    rw [Expr.kind?] at given
    obtain ⟨value, found, -⟩ := Locals.exists_of_lookup given
    have isTemporary := (represents.free name kind given).2
    rw [ofExpr, Expr.eval, Locals.read, Exp.eval, represents.temporaries name isTemporary, found]
    rfl
  | .unary op operand, _, given, exact => by
    rw [Expr.kind?_unary] at given
    rw [Expr.literals] at exact
    rw [ofExpr, Expr.eval, Exp.eval, eval_ofExpr agrees hosted represents operand given.1 exact]
    exact applyUnary_ofValue op (Expr.kind_eval world this locals operand given.1)
  | .binary op left right, _, given, exact => by
    rw [Expr.kind?_binary] at given
    rw [Expr.literals, List.forall_mem_append] at exact
    have isLeft := eval_ofExpr agrees hosted represents left given.1.1 exact.1
    have isRight := eval_ofExpr agrees hosted represents right given.1.2 exact.2
    rw [ofExpr, Expr.eval, eval_binary op isLeft isRight]
    exact applyBinary_ofValue op (Expr.kind_eval world this locals left given.1.1)
      (Expr.kind_eval world this locals right given.1.2)
  | .call builtin arguments, _, given, exact => by
    rw [Expr.kind?_call] at given
    rw [Expr.literals] at exact
    have takes : builtin.takes (Expr.evalAll world this locals arguments).length := by
      rw [Expr.length_evalAll]
      exact given.1.1
    rw [ofExpr, Expr.eval, Exp.eval, represents.eval_builtin,
      evalAll_ofExprs agrees hosted represents arguments given.1.2 exact]
    exact applyFunction_builtin agrees takes
  | .select condition yes no, _, given, exact => by
    rw [Expr.kind?_select] at given
    rw [Expr.literals, List.forall_mem_append, List.forall_mem_append] at exact
    obtain ⟨⟨decides, isYes, isNo⟩, -⟩ := given
    obtain ⟨holds, isHolds⟩ := Expr.exists_condition_eval world this decides
    obtain ⟨number, isNumber⟩ := Expr.exists_number_eval world this isYes
    rw [ofExpr, Expr.eval, Exp.eval,
      eval_ofExpr agrees hosted represents condition decides exact.1.1,
      eval_ofExpr agrees hosted represents yes isYes exact.1.2,
      eval_ofExpr agrees hosted represents no isNo exact.2, isHolds, isNumber]
    cases holds <;> rfl

theorem evalAll_ofExprs {math : Mathematics Float} (agrees : math.Agrees) {known : String → Bool}
    {world : World Float} (hosted : ∀ id, known id → world.hosts id) {names : Locals Float}
    {this : String} {locals : Stagecraft.Locals Float} (represents : Represents names this locals) :
    (exprs : List (Expr Float)) → Expr.areNumbers known locals.kinds exprs →
    (∀ value ∈ Expr.allLiterals exprs, IsExact value) →
      Exp.evalAll math world names (ofExprs exprs) =
        .ok ((Expr.evalAll world this locals exprs).map .num)
  | [], _, _ => by
    rw [ofExprs, Exp.evalAll, Expr.evalAll]
    rfl
  | expr :: rest, given, exact => by
    rw [Expr.areNumbers_cons] at given
    rw [Expr.allLiterals, List.forall_mem_append] at exact
    obtain ⟨number, isNumber⟩ := Expr.exists_number_eval world this given.1
    rw [ofExprs, Exp.evalAll, Expr.evalAll,
      eval_ofExpr agrees hosted represents expr given.1 exact.1,
      evalAll_ofExprs agrees hosted represents rest given.2 exact.2, isNumber]
    rfl

end

/-! ### Statements -/

/-- A call reaches the host for the object that the logic runs on. -/
theorem run_ofCall {α : Type} [Trigonometric α] {math : Mathematics α} {world : World α}
    {names : Locals α} {this : String} {locals : Stagecraft.Locals α}
    (represents : Represents names this locals) (call : HostCall) :
    (ofCall call).run math names world = .ok (names, world.call this call) := by
  have host : (Exp.name hostName).eval math world names = .ok (.library .host) :=
    represents.eval_table hostName (by decide)
  cases call with
  | playSound sound | stopSound sound =>
    rw [ofCall, Stat.run, eval_member _ host, Exp.evalAll, Exp.evalAll, Exp.evalAll,
      represents.eval_bag, eval_text]
    rfl

mutual

theorem run_ofStmt {math : Mathematics Float} (agrees : math.Agrees) {known : String → Bool}
    {world : World Float} (hosted : ∀ id, known id → world.hosts id) {names : Locals Float}
    {this : String} {locals : Stagecraft.Locals Float} (represents : Represents names this locals) :
    (stmt : Stmt Float) → {next : Kinds} → stmt.after? known locals.kinds = some next →
      (∀ value ∈ stmt.literals, IsExact value) → (∀ name ∈ stmt.names, IsFree name) →
        ∃ names', Represents names' this (stmt.run this locals world).1 ∧
          (ofStmt stmt).run math names world = .ok (names', (stmt.run this locals world).2)
  | .set key value, _, given, exact, _ => by
    rw [Stmt.after?, Option.ite_none_right_eq_some] at given
    rw [Stmt.literals] at exact
    obtain ⟨number, isNumber⟩ := Expr.exists_number_eval world this given.1
    refine ⟨names, ?_⟩
    rw [Stmt.run, ofStmt, Stat.run, represents.eval_bag, eval_text,
      eval_ofExpr agrees hosted represents value given.1 exact, isNumber]
    exact ⟨represents, rfl⟩
  | .bind name value, _, given, exact, free => by
    rw [Stmt.after?, Option.map_eq_some_iff] at given
    obtain ⟨kind, isKind, -⟩ := given
    rw [Stmt.literals] at exact
    rw [Stmt.run, ofStmt, Stat.run, eval_ofExpr agrees hosted represents value isKind exact]
    exact ⟨_, represents.bind (free name List.mem_cons_self) (value.eval world this locals), rfl⟩
  | .branch condition yes no, _, given, exact, free => by
    rw [Stmt.after?, Option.ite_none_right_eq_some] at given
    obtain ⟨⟨decides, soundYes, soundNo⟩, -⟩ := given
    rw [Stmt.literals, List.forall_mem_append, List.forall_mem_append] at exact
    rw [Stmt.names, List.forall_mem_append] at free
    obtain ⟨holds, isHolds⟩ := Expr.exists_condition_eval world this decides
    have ranYes := runAll_ofStmts agrees hosted represents yes soundYes exact.1.2 free.1
    have ranNo := runAll_ofStmts agrees hosted represents no soundNo exact.2 free.2
    refine ⟨names, ?_⟩
    rw [Stmt.run, ofStmt, Stat.run,
      eval_ofExpr agrees hosted represents condition decides exact.1.1, isHolds, ranYes, ranNo]
    cases holds <;> exact ⟨represents, rfl⟩
  | .within object body, _, given, exact, free => by
    rw [Stmt.after?, Option.ite_none_right_eq_some] at given
    obtain ⟨⟨isKnown, sound⟩, -⟩ := given
    rw [Stmt.literals] at exact
    rw [Stmt.names] at free
    have ran := runAll_ofStmts agrees hosted (represents.within object) body sound exact free
    refine ⟨names, ?_⟩
    rw [Stmt.run, ofStmt, Stat.run, Chunk.runAll, Stat.run,
      represents.eval_bagOf (hosted object isKnown)]
    refine ⟨represents, ?_⟩
    show (do
      let world ← Chunk.runAll math ((bagName, .bag object) :: names) world (ofStmts body)
      return (names, world)) = _
    rw [ran]
    rfl
  | .host call, _, _, _, _ => by
    rw [Stmt.run, ofStmt]
    exact ⟨names, represents, run_ofCall represents call⟩
  | .comment text, _, _, _, _ => by
    rw [Stmt.run, ofStmt, Stat.run]
    exact ⟨names, represents, rfl⟩

theorem runAll_ofStmts {math : Mathematics Float} (agrees : math.Agrees) {known : String → Bool}
    {world : World Float} (hosted : ∀ id, known id → world.hosts id) {names : Locals Float}
    {this : String} {locals : Stagecraft.Locals Float} (represents : Represents names this locals) :
    (block : List (Stmt Float)) → (Block.after? known locals.kinds block).isSome →
      (∀ value ∈ Block.literals block, IsExact value) → (∀ name ∈ Block.names block, IsFree name) →
        Chunk.runAll math names world (ofStmts block) = .ok (Block.runAll this locals world block)
  | [], _, _, _ => by rw [ofStmts, Chunk.runAll, Block.runAll]
  | stmt :: rest, sound, exact, free => by
    obtain ⟨next, given⟩ := Option.isSome_iff_exists.mp sound
    rw [Block.after?, Option.bind_eq_some_iff] at given
    obtain ⟨middle, first, later⟩ := given
    rw [Block.literals, List.forall_mem_append] at exact
    rw [Block.names, List.forall_mem_append] at free
    obtain ⟨names', represents', ran⟩ :=
      run_ofStmt agrees hosted represents stmt first exact.1 free.1
    rw [← Stmt.kinds_run this locals world first] at later
    have hosts := Stmt.hosts_run this locals world stmt
    have ranRest := runAll_ofStmts agrees (hosts ▸ hosted) represents' rest
      (Option.isSome_iff_exists.mpr ⟨next, later⟩) exact.2 free.2
    rw [ofStmts, Chunk.runAll, ran, Block.runAll]
    exact ranRest

end

/-! ### Rendered logic -/

/-- The text of sound logic is read as a chunk, and the chunk does what the logic does, on whatever
object and in whatever state it is run. -/
theorem rendered_means_logic {math : Mathematics Float} (agrees : math.Agrees) (layout : Layout)
    (world : World Float) {block : Block Float} (sound : Block.IsSound world.hosts block)
    (exact : ∀ value ∈ Block.literals block, IsExact value)
    (free : ∀ name ∈ Block.names block, IsFree name) (this : String) :
    ∃ chunk, parse? (Block.render layout block) = some chunk ∧
      chunk.run math this world = .ok (Block.run block this world) := by
  have represents := Represents.initial (α := Float) this
  refine ⟨Stat.expandedAll (ofBlock block), ?_, ?_⟩
  · refine Chunk.parse?_print layout ?_
    rw [ofBlock]
    split
    · nofun
    · exact isWritable_ofStmts represents.free block sound exact free
  · rw [Chunk.run, runAll_expandedAll, ofBlock]
    split
    · rename_i idle
      rw [Block.run_of_isIdle world this idle, Chunk.runAll]
    · exact runAll_ofStmts agrees (fun _ => id) represents block sound exact free

/-- Logic with a statement of every form, and with texts that have to be quoted. -/
def greeting : Block Float :=
  [.comment "say \"hello\"\nto the door",
    .bind "gap" (.num (-2.5) + .prop (.object "door \"A\"") "open\n"),
    .branch ((Expr.var "gap").lt (.num 0))
      [.within "door \"A\"" [.set "open\n" (.call .max [.var "gap", .num 1]),
        .host (.playSound "creak\\")]]
      [.set "done" (Expr.not (Expr.var "gap").isSet).flag]]

theorem rendered_means_logic_greeting : ∃ chunk,
    parse? (Block.render ⟨4, 1⟩ greeting) = some chunk ∧
      chunk.run (fun builtin => builtin.apply) "hall" World.blank =
        .ok (Block.run greeting "hall" World.blank) :=
  rendered_means_logic (fun _ _ _ => rfl) ⟨4, 1⟩ World.blank (by decide) (by decide +kernel)
    (by decide) "hall"

end Lua

end Stagecraft
