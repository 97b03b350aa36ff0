/-
This file says which logic can be written as Lua. Its numbers have to be finite and may not be `-0`,
which would be written as zero; a number below zero is written as the negative of another one. The
names of its temporaries have to be names of Lua, and not those that a chunk finds its bags and its
host under. Object names, keys and sounds become strings, so they can be any texts.
-/

import Stagecraft.Proofs.Logic.Kinds
import Stagecraft.Proofs.Logic.Literals
import Stagecraft.Proofs.Lua.Grammar

namespace Stagecraft

namespace Lua

/-! ### Numbers -/

/-- The number is written as it is. -/
def IsExact (value : Float) : Prop :=
  value.isFinite = true ∧ value ≠ -0

instance (value : Float) : Decidable (IsExact value) :=
  inferInstanceAs (Decidable (_ ∧ _))

theorem literal_eq {value : Float} (magnitude : Double.IsMagnitude value) :
    literal value = .numeral value := by
  rw [literal]
  split
  · rename_i isZero
    rw [magnitude.eq_zero isZero]
  · exact if_pos magnitude.isFinite

/-- An exact number is a numeral, or the negative of one. -/
theorem ofNumber_eq {value : Float} (exact : IsExact value) :
    (ofNumber value = .numeral value ∧ Double.IsMagnitude value) ∨
      (ofNumber value = .unary .neg (.numeral (-value)) ∧ Double.IsMagnitude (-value)) := by
  rcases Double.isMagnitude_or_neg exact.1 exact.2 with ⟨notBelow, magnitude⟩ | ⟨below, magnitude⟩
  · exact .inl ⟨(if_neg notBelow).trans (literal_eq magnitude), magnitude⟩
  · exact .inr ⟨(if_pos below).trans (congrArg _ (literal_eq magnitude)), magnitude⟩

theorem isWritable_ofNumber {value : Float} (exact : IsExact value) :
    (ofNumber value).IsWritable := by
  rcases ofNumber_eq exact with ⟨same, _, _, seen⟩ | ⟨same, _, _, seen⟩
  · rw [same]
    exact .numeral seen
  · rw [same]
    exact .unary .neg (.numeral seen)

/-! ### Names -/

/-- The names under which a chunk finds the tables of its host. -/
def globals : List String := [sceneName, hostName, mathName]

/-- The names that a chunk uses itself. -/
def taken : List String := bagName :: globals

/-- A temporary can have the name. -/
def IsFree (name : String) : Prop :=
  isIdentifier name ∧ name ∉ taken

instance (name : String) : Decidable (IsFree name) :=
  inferInstanceAs (Decidable (_ ∧ _))

theorem isIdentifier_builtinName (builtin : Builtin) :
    isIdentifier (builtinName builtin) = true := by
  cases builtin <;> decide

theorem isPath_bagOf (object : String) : (bagOf object : Exp Float).IsPath :=
  .index (.name (by decide)) (.text object)

/-! ### Expressions -/

/-- All temporaries in reach have free names. -/
def AreFree (kinds : Kinds) : Prop :=
  ∀ name kind, kinds.lookup name = some kind → IsFree name

variable {known : String → Bool} {kinds : Kinds}

mutual

theorem isWritable_ofExpr (free : AreFree kinds) :
    (expr : Expr Float) → {kind : Kind} → expr.kind? known kinds = some kind →
      (∀ value ∈ expr.literals, IsExact value) → (ofExpr expr).IsWritable
  | .num value, _, _, exact => by
    rw [ofExpr]
    exact isWritable_ofNumber (exact value List.mem_cons_self)
  | .prop .this key, _, _, _ => by
    rw [ofExpr]
    exact .path (.index (.name (by decide)) (.text key))
  | .prop (.object id) key, _, _, _ => by
    rw [ofExpr]
    exact .path (.index (isPath_bagOf id) (.text key))
  | .var name, kind, given, _ => by
    rw [Expr.kind?] at given
    rw [ofExpr]
    exact .path (.name (free name kind given).1)
  | .unary op operand, _, given, exact => by
    rw [Expr.kind?_unary] at given
    rw [Expr.literals] at exact
    rw [ofExpr]
    exact .unary op (isWritable_ofExpr free operand given.1 exact)
  | .binary op left right, _, given, exact => by
    rw [Expr.kind?_binary] at given
    rw [Expr.literals, List.forall_mem_append] at exact
    rw [ofExpr]
    exact .binary op (isWritable_ofExpr free left given.1.1 exact.1)
      (isWritable_ofExpr free right given.1.2 exact.2)
  | .call builtin arguments, _, given, exact => by
    rw [Expr.kind?_call] at given
    rw [Expr.literals] at exact
    rw [ofExpr]
    exact .path (.call (.member (.name (by decide)) (isIdentifier_builtinName builtin))
      (isWritable_ofExprs free arguments given.1.2 exact))
  | .select condition yes no, _, given, exact => by
    rw [Expr.kind?_select] at given
    rw [Expr.literals, List.forall_mem_append, List.forall_mem_append] at exact
    rw [ofExpr]
    exact .choose (isWritable_ofExpr free condition given.1.1 exact.1.1)
      (isWritable_ofExpr free yes given.1.2.1 exact.1.2)
      (isWritable_ofExpr free no given.1.2.2 exact.2)

theorem isWritable_ofExprs (free : AreFree kinds) :
    (exprs : List (Expr Float)) → Expr.areNumbers known kinds exprs →
      (∀ value ∈ Expr.allLiterals exprs, IsExact value) →
        ∀ exp ∈ ofExprs exprs, exp.IsWritable
  | [], _, _ => by
    rw [ofExprs]
    nofun
  | expr :: rest, given, exact => by
    rw [Expr.areNumbers_cons] at given
    rw [Expr.allLiterals, List.forall_mem_append] at exact
    rw [ofExprs, List.forall_mem_cons]
    exact ⟨isWritable_ofExpr free expr given.1 exact.1,
      isWritable_ofExprs free rest given.2 exact.2⟩

end

/-! ### Statements -/

theorem AreFree.cons (free : AreFree kinds) {name : String} (isFree : IsFree name) (kind : Kind) :
    AreFree ((name, kind) :: kinds) := by
  intro other kind' found
  rw [List.lookup_cons] at found
  split at found
  · rename_i same
    rw [eq_of_beq same]
    exact isFree
  · exact free other kind' found

theorem AreFree.after (free : AreFree kinds) {stmt : Stmt Float} {next : Kinds}
    (given : stmt.after? known kinds = some next) (names : ∀ name ∈ stmt.names, IsFree name) :
    AreFree next := by
  cases stmt with
  | bind name value =>
    rw [Stmt.after?, Option.map_eq_some_iff] at given
    obtain ⟨kind, -, rfl⟩ := given
    exact free.cons (names name List.mem_cons_self) kind
  | set key value | branch condition yes no | within object body =>
    rw [Stmt.after?, Option.ite_none_right_eq_some] at given
    rwa [← Option.some.inj given.2]
  | host call | comment text =>
    rw [Stmt.after?] at given
    rwa [← Option.some.inj given]

theorem isWritable_ofCall (call : HostCall) : (ofCall call : Stat Float).IsWritable := by
  have arguments (sound : String) :
      ∀ argument ∈ [Exp.name bagName, .text sound], argument.IsWritable := by
    rw [List.forall_mem_cons, List.forall_mem_singleton]
    exact ⟨.path (.name (by decide)), .text sound⟩
  cases call with
  | playSound sound | stopSound sound =>
    exact .call (.member (.name (by decide)) (by decide)) (arguments sound)

mutual

theorem isWritable_ofStmt {kinds next : Kinds} (free : AreFree kinds) :
    (stmt : Stmt Float) → stmt.after? known kinds = some next →
      (∀ value ∈ stmt.literals, IsExact value) → (∀ name ∈ stmt.names, IsFree name) →
        (ofStmt stmt).IsWritable
  | .set key value, given, exact, _ => by
    rw [Stmt.after?, Option.ite_none_right_eq_some] at given
    rw [Stmt.literals] at exact
    rw [ofStmt]
    exact .assign (.name (by decide)) (.text key) (isWritable_ofExpr free value given.1 exact)
  | .bind name value, given, exact, names => by
    rw [Stmt.after?, Option.map_eq_some_iff] at given
    obtain ⟨kind, isKind, -⟩ := given
    rw [Stmt.literals] at exact
    rw [ofStmt]
    exact .declare (names name List.mem_cons_self).1 (isWritable_ofExpr free value isKind exact)
  | .branch condition yes no, given, exact, names => by
    rw [Stmt.after?, Option.ite_none_right_eq_some] at given
    obtain ⟨⟨decides, soundYes, soundNo⟩, -⟩ := given
    rw [Stmt.literals, List.forall_mem_append, List.forall_mem_append] at exact
    rw [Stmt.names, List.forall_mem_append] at names
    rw [ofStmt]
    exact .branch (isWritable_ofExpr free condition decides exact.1.1)
      (isWritable_ofStmts free yes soundYes exact.1.2 names.1)
      (isWritable_ofStmts free no soundNo exact.2 names.2)
  | .within object body, given, exact, names => by
    rw [Stmt.after?, Option.ite_none_right_eq_some] at given
    rw [Stmt.literals] at exact
    rw [Stmt.names] at names
    rw [ofStmt]
    refine .scope (List.forall_mem_cons.mpr ⟨?_, isWritable_ofStmts free body given.1.2 exact names⟩)
    exact .declare (by decide) (.path (isPath_bagOf object))
  | .host call, _, _, _ => by
    rw [ofStmt]
    exact isWritable_ofCall call
  | .comment text, _, _, _ => by
    rw [ofStmt]
    exact .comment text

theorem isWritable_ofStmts {kinds : Kinds} (free : AreFree kinds) :
    (block : List (Stmt Float)) → (Block.after? known kinds block).isSome →
      (∀ value ∈ Block.literals block, IsExact value) → (∀ name ∈ Block.names block, IsFree name) →
        ∀ stat ∈ ofStmts block, stat.IsWritable
  | [], _, _, _ => by
    rw [ofStmts]
    nofun
  | stmt :: rest, sound, exact, names => by
    obtain ⟨next, given⟩ := Option.isSome_iff_exists.mp sound
    rw [Block.after?, Option.bind_eq_some_iff] at given
    obtain ⟨middle, first, later⟩ := given
    rw [Block.literals, List.forall_mem_append] at exact
    rw [Block.names, List.forall_mem_append] at names
    rw [ofStmts, List.forall_mem_cons]
    exact ⟨isWritable_ofStmt free stmt first exact.1 names.1,
      isWritable_ofStmts (free.after first names.1) rest
        (Option.isSome_iff_exists.mpr ⟨next, later⟩) exact.2 names.2⟩

end

end Lua

end Stagecraft
