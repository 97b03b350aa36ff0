/-
This file shows that indentation carries no meaning. Every statement is written on lines of its own,
and nothing in a line can end it: object names, keys and sounds are quoted, comments are kept on one
line, and numbers have no line ends. So a text can be divided into the lines that it was put together
from. Each of them is some spaces, as many as its depth asks for, in front of what is written under
every layout.
-/

import Stagecraft.Proofs.Logic.Literals
import Stagecraft.Proofs.Lua.Tokens

namespace Stagecraft

/-! ### Depths -/

mutual

/-- How deep the lines of a statement are nested in it. The block of a branch, and that which runs
on another object, lie one level deeper than the lines around them; a block on another object has
one more line, which names the object. -/
def Stmt.depths {α : Type} : Stmt α → List Nat
  | .branch _ yes no =>
    0 :: (Block.depths yes).map (1 + ·) ++
      (if no.isEmpty then [] else 0 :: (Block.depths no).map (1 + ·)) ++ [0]
  | .within _ body => 0 :: 1 :: (Block.depths body).map (1 + ·) ++ [0]
  | .set _ _ => [0]
  | .bind _ _ => [0]
  | .host _ => [0]
  | .comment _ => [0]

def Block.depths {α : Type} : List (Stmt α) → List Nat
  | [] => []
  | stmt :: rest => stmt.depths ++ Block.depths rest

end

namespace Lua

/-! ### Lines of texts -/

/-- The text does not end a line. -/
def IsOneLine (text : List Char) : Prop :=
  ∀ c ∈ text, isLineEnd c = false

instance (text : List Char) : Decidable (IsOneLine text) :=
  List.decidableBAll _ text

/-- The text of a line ends no other one, and begins with what is seen. -/
structure Line.IsPlain (line : Line) : Prop where
  oneLine : IsOneLine line.text.toList
  visible : ∃ c, line.text.toList.head? = some c ∧ isBlank c = false

section

variable {first second : List Char}

@[simp] theorem isOneLine_nil : IsOneLine [] := by
  rintro c ⟨⟩

@[simp] theorem isOneLine_cons {c : Char} {rest : List Char} :
    IsOneLine (c :: rest) ↔ isLineEnd c = false ∧ IsOneLine rest :=
  List.forall_mem_cons

@[simp] theorem isOneLine_append :
    IsOneLine (first ++ second) ↔ IsOneLine first ∧ IsOneLine second :=
  List.forall_mem_append

theorem IsOneLine.notMem (oneLine : IsOneLine first) : '\n' ∉ first := fun member =>
  absurd (oneLine '\n' member) (by decide)

end

/-! ### Texts without line ends -/

theorem isLineEnd_of_isDigit {c : Char} (digit : c.isDigit = true) : isLineEnd c = false := by
  rw [isLineEnd, Bool.or_eq_false_iff]
  constructor
  all_goals
    rw [beq_eq_false_iff_ne]
    rintro rfl
    exact absurd digit (by decide)

theorem isOneLine_escape (c : Char) : IsOneLine (escape c) := by
  unfold escape
  split
  · decide
  · decide
  · decide
  · decide
  · decide
  · rename_i _ _ notFeed notReturn _
    split_ifs with control
    · have small : c.toNat < 128 := by omega
      obtain ⟨first, second, third, -⟩ := ofDigits_decimalDigit ⟨c.toNat, small⟩
      have backslash : isLineEnd '\\' = false := rfl
      simp [backslash, isLineEnd_of_isDigit first, isLineEnd_of_isDigit second,
        isLineEnd_of_isDigit third]
    · have plain : isLineEnd c = false :=
        Bool.or_eq_false_iff.mpr ⟨beq_eq_false_iff_ne.mpr notFeed, beq_eq_false_iff_ne.mpr notReturn⟩
      simp [plain]

/-- Whatever is quoted stays on its line. -/
theorem isOneLine_quote (text : String) : IsOneLine (quote text).toList := by
  rw [quote, String.toList_ofList, isOneLine_append, isOneLine_cons]
  refine ⟨⟨rfl, ?_⟩, by decide⟩
  intro c member
  obtain ⟨d, -, inside⟩ := List.mem_flatMap.mp member
  exact isOneLine_escape d c inside

/-- Every double is written without a line end, infinities and what is no number too. -/
theorem isOneLine_text (value : Float) : IsOneLine (Decimal.text Decimal.plain value).toList := by
  have sign (negative : Bool) : IsOneLine (Decimal.signText negative).toList := by
    cases negative <;> decide
  have digits (decimal : Decimal) : IsOneLine (Decimal.layOut Decimal.plain decimal).toList := by
    obtain ⟨whole, fraction, ⟨isText, -, wholeDigits, fractionDigits⟩, -⟩ :=
      Decimal.positional_digits decimal
    have all {digits : List Char} (are : ∀ c ∈ digits, c.isDigit = true) : IsOneLine digits :=
      fun c member => isLineEnd_of_isDigit (are c member)
    show IsOneLine (Decimal.positional "" decimal).toList
    rw [isText, Decimal.pointed]
    split
    · exact all wholeDigits
    · exact isOneLine_append.mpr ⟨all wholeDigits, isOneLine_cons.mpr ⟨rfl, all fractionDigits⟩⟩
  unfold Decimal.text
  split
  · decide
  · rw [String.toList_append, isOneLine_append]
    exact ⟨sign _, by decide⟩
  all_goals
    rw [String.toList_append, isOneLine_append]
    exact ⟨sign _, digits _⟩

/-! ### Expressions -/

/-- Arguments on one line stay on it with commas between them. -/
theorem isOneLine_intercalate : (texts : List String) →
    (∀ text ∈ texts, IsOneLine text.toList) →
      IsOneLine ([',', ' '].intercalate (texts.map String.toList))
  | [], _ => isOneLine_nil
  | [text], oneLine => by simpa using oneLine
  | text :: other :: rest, oneLine => by
    obtain ⟨here, later⟩ := List.forall_mem_cons.mp oneLine
    have others := isOneLine_intercalate (other :: rest) later
    simpa [here, isLineEnd] using others

theorem isOneLine_ofNumber (value : Float) : IsOneLine (ofNumber value : Exp Float).print.toList := by
  have literals (value : Float) : IsOneLine (literal value : Exp Float).print.toList := by
    unfold literal
    split_ifs
    · exact isOneLine_text 0
    · exact isOneLine_text value
    · unfold infiniteName
      split_ifs <;> decide
  unfold ofNumber
  split_ifs
  · simpa [Exp.print, unaryText, isLineEnd] using literals (-value)
  · exact literals value

/-- All names are such that they do not end a line. -/
def AreOneLine (names : List String) : Prop :=
  ∀ name ∈ names, IsOneLine name.toList

@[simp] theorem areOneLine_cons {name : String} {names : List String} :
    AreOneLine (name :: names) ↔ IsOneLine name.toList ∧ AreOneLine names :=
  List.forall_mem_cons

@[simp] theorem areOneLine_append {first second : List String} :
    AreOneLine (first ++ second) ↔ AreOneLine first ∧ AreOneLine second :=
  List.forall_mem_append

theorem isOneLine_binaryText (op : BinaryOp) : IsOneLine (binaryText op).toList := by
  cases op <;> decide

mutual

theorem isOneLine_ofExpr : (expr : Expr Float) → AreOneLine expr.temporaries →
    IsOneLine (ofExpr expr).print.toList
  | .num value, _ => by
    rw [ofExpr]
    exact isOneLine_ofNumber value
  | .prop .this key, _ => by
    simp [ofExpr, Exp.print, isOneLine_quote, bagName, isLineEnd]
  | .prop (.object id) key, _ => by
    simp [ofExpr, bagOf, Exp.print, isOneLine_quote, sceneName, isLineEnd]
  | .var name, names => by
    rw [Expr.temporaries, areOneLine_cons] at names
    rw [ofExpr, Exp.print]
    exact names.1
  | .unary op operand, names => by
    rw [Expr.temporaries] at names
    have inner := isOneLine_ofExpr operand names
    cases op <;> simpa [ofExpr, Exp.print, unaryText, isLineEnd] using inner
  | .binary op left right, names => by
    rw [Expr.temporaries, areOneLine_append] at names
    have first := isOneLine_ofExpr left names.1
    have second := isOneLine_ofExpr right names.2
    simp [ofExpr, Exp.print, isOneLine_binaryText, isLineEnd, first, second]
  | .call builtin arguments, names => by
    rw [Expr.temporaries] at names
    have inner := isOneLine_intercalate _ (isOneLine_ofExprs arguments names)
    have called : IsOneLine (builtinName builtin).toList := by cases builtin <;> decide
    simp [ofExpr, Exp.print, mathName, isLineEnd, called, inner]
  | .select condition yes no, names => by
    rw [Expr.temporaries, areOneLine_append, areOneLine_append] at names
    have first := isOneLine_ofExpr condition names.1
    have second := isOneLine_ofExpr yes names.2.1
    have third := isOneLine_ofExpr no names.2.2
    simp [ofExpr, Exp.print, isLineEnd, first, second, third]

theorem isOneLine_ofExprs : (exprs : List (Expr Float)) → AreOneLine (Expr.allTemporaries exprs) →
    ∀ text ∈ Exp.printAll (ofExprs exprs), IsOneLine text.toList
  | [], _ => by
    rw [ofExprs, Exp.printAll]
    nofun
  | expr :: rest, names => by
    rw [Expr.allTemporaries, areOneLine_append] at names
    rw [ofExprs, Exp.printAll, List.forall_mem_cons]
    exact ⟨isOneLine_ofExpr expr names.1, isOneLine_ofExprs rest names.2⟩

end

/-! ### Statements -/

theorem Line.isPlain_of {level : Nat} {text : String} {c : Char} {rest : List Char}
    (isText : text.toList = c :: rest) (visible : isBlank c = false)
    (oneLine : IsOneLine text.toList) : Line.IsPlain ⟨level, text⟩ :=
  ⟨oneLine, c, by rw [isText, List.head?_cons], visible⟩

mutual

theorem isPlain_lines : (stmt : Stmt Float) → AreOneLine stmt.temporaries → ∀ (level : Nat),
    ∀ line ∈ Stat.lines level (ofStmt stmt), line.IsPlain
  | .set key value, names, level => by
    rw [Stmt.temporaries] at names
    have written := isOneLine_ofExpr value names
    rw [ofStmt, Stat.lines, List.forall_mem_singleton]
    refine Line.isPlain_of (c := 'o') (by simp [Exp.print, bagName]; rfl) rfl ?_
    simp [Exp.print, bagName, isOneLine_quote, isLineEnd, written]
  | .bind name value, names, level => by
    rw [Stmt.temporaries, areOneLine_cons] at names
    have written := isOneLine_ofExpr value names.2
    rw [ofStmt, Stat.lines, List.forall_mem_singleton]
    refine Line.isPlain_of (c := 'l') (by simp; rfl) rfl ?_
    simp [isLineEnd, names.1, written]
  | .branch condition yes no, names, level => by
    rw [Stmt.temporaries, areOneLine_append, areOneLine_append] at names
    have asked := isOneLine_ofExpr condition names.1
    have opening : Line.IsPlain ⟨level, "if " ++ (ofExpr condition).print ++ " then"⟩ :=
      Line.isPlain_of (c := 'i') (by simp; rfl) rfl (by simp [isLineEnd, asked])
    have between : Line.IsPlain ⟨level, "else"⟩ := Line.isPlain_of (c := 'e') rfl rfl (by decide)
    have ending : Line.IsPlain ⟨level, "end"⟩ := Line.isPlain_of (c := 'e') rfl rfl (by decide)
    rw [ofStmt, Stat.lines, List.forall_mem_append, List.forall_mem_append, List.forall_mem_cons,
      List.forall_mem_singleton]
    refine ⟨⟨⟨opening, isPlain_allLines yes names.2.1 _⟩, ?_⟩, ending⟩
    split
    · nofun
    · exact List.forall_mem_cons.mpr ⟨between, isPlain_allLines no names.2.2 _⟩
  | .within object body, names, level => by
    rw [Stmt.temporaries] at names
    have opening : Line.IsPlain ⟨level, "do"⟩ := Line.isPlain_of (c := 'd') rfl rfl (by decide)
    have ending : Line.IsPlain ⟨level, "end"⟩ := Line.isPlain_of (c := 'e') rfl rfl (by decide)
    rw [ofStmt, Stat.lines, Stat.allLines, Stat.lines, List.forall_mem_append, List.forall_mem_cons,
      List.forall_mem_append, List.forall_mem_singleton, List.forall_mem_singleton]
    refine ⟨⟨opening, ?_, isPlain_allLines body names _⟩, ending⟩
    refine Line.isPlain_of (c := 'l') (by simp; rfl) rfl ?_
    simp [bagOf, Exp.print, bagName, sceneName, isOneLine_quote, isLineEnd]
  | .host call, _, level => by
    cases call with
    | playSound sound | stopSound sound =>
      rw [ofStmt, ofCall, Stat.lines, List.forall_mem_singleton]
      refine Line.isPlain_of (c := 'h') (by simp [Exp.print, hostName]; rfl) rfl ?_
      simp [Exp.print, Exp.printAll, hostName, playName, stopName, bagName, isOneLine_quote,
        isLineEnd]
  | .comment text, _, level => by
    rw [ofStmt, Stat.lines, List.forall_mem_singleton]
    refine Line.isPlain_of (c := '-') (by simp; rfl) rfl ?_
    rw [String.toList_append, isOneLine_append]
    exact ⟨by decide, isLineEnd_of_mem_oneLine text⟩

theorem isPlain_allLines : (block : List (Stmt Float)) → AreOneLine (Block.temporaries block) →
    ∀ (level : Nat), ∀ line ∈ Stat.allLines level (ofStmts block), line.IsPlain
  | [], _, level => by
    rw [ofStmts, Stat.allLines]
    nofun
  | stmt :: rest, names, level => by
    rw [Block.temporaries, areOneLine_append] at names
    rw [ofStmts, Stat.allLines, List.forall_mem_append]
    exact ⟨isPlain_lines stmt names.1 level, isPlain_allLines rest names.2 level⟩

end

/-! ### Levels and texts -/

theorem isEmpty_ofStmts (block : Block Float) : (ofStmts block).isEmpty = block.isEmpty := by
  cases block <;> rfl

mutual

/-- The lines of a statement lie as deep as the statement says, from the level on at which it is
written. -/
theorem map_level_lines (level : Nat) : (stmt : Stmt Float) →
    (Stat.lines level (ofStmt stmt)).map Line.level = stmt.depths.map (level + ·)
  | .set key value => by
    rw [ofStmt, Stat.lines, Stmt.depths]
    rfl
  | .bind name value => by
    rw [ofStmt, Stat.lines, Stmt.depths]
    rfl
  | .branch condition yes no => by
    have first := map_level_allLines (level + 1) yes
    have second := map_level_allLines (level + 1) no
    rw [ofStmt, Stat.lines, Stmt.depths, isEmpty_ofStmts]
    cases no.isEmpty <;> simp [first, second, Nat.add_assoc]
  | .within object body => by
    have inner := map_level_allLines (level + 1) body
    rw [ofStmt, Stat.lines, Stat.allLines, Stat.lines, Stmt.depths]
    simp [inner, Nat.add_assoc]
  | .host (.playSound sound) => by
    rw [ofStmt, ofCall, Stat.lines, Stmt.depths]
    rfl
  | .host (.stopSound sound) => by
    rw [ofStmt, ofCall, Stat.lines, Stmt.depths]
    rfl
  | .comment text => by
    rw [ofStmt, Stat.lines, Stmt.depths]
    rfl

theorem map_level_allLines (level : Nat) : (block : List (Stmt Float)) →
    (Stat.allLines level (ofStmts block)).map Line.level = (Block.depths block).map (level + ·)
  | [] => by
    rw [ofStmts, Stat.allLines, Block.depths]
    rfl
  | stmt :: rest => by
    rw [ofStmts, Stat.allLines, Block.depths, List.map_append, List.map_append,
      map_level_lines level stmt, map_level_allLines level rest]

end

mutual

/-- The level at which a statement is written decides nothing but the levels of its lines. -/
theorem map_text_lines (level level' : Nat) : (stat : Stat Float) →
    (Stat.lines level stat).map Line.text = (Stat.lines level' stat).map Line.text
  | .assign table key value => by
    rw [Stat.lines, Stat.lines]
    rfl
  | .declare name value => by
    rw [Stat.lines, Stat.lines]
    rfl
  | .call callee arguments => by
    rw [Stat.lines, Stat.lines]
    rfl
  | .branch condition yes no => by
    have first := map_text_allLines (level + 1) (level' + 1) yes
    have second := map_text_allLines (level + 1) (level' + 1) no
    rw [Stat.lines, Stat.lines]
    cases no.isEmpty <;> simp [first, second]
  | .scope body => by
    have inner := map_text_allLines (level + 1) (level' + 1) body
    rw [Stat.lines, Stat.lines]
    simp [inner]
  | .comment text => by
    rw [Stat.lines, Stat.lines]
    rfl

theorem map_text_allLines (level level' : Nat) : (stats : List (Stat Float)) →
    (Stat.allLines level stats).map Line.text = (Stat.allLines level' stats).map Line.text
  | [] => by rw [Stat.allLines, Stat.allLines]
  | stat :: rest => by
    rw [Stat.allLines, Stat.allLines, List.map_append, List.map_append,
      map_text_lines level level' stat, map_text_allLines level level' rest]

end

/-! ### Rows -/

/-- A line as it is indented. -/
def Layout.row (layout : Layout) (line : Line) : List Char :=
  List.replicate (layout.indentWidth * line.level) ' ' ++ line.text.toList

section

variable (layout : Layout) {lines : List Line} (plain : ∀ line ∈ lines, line.IsPlain)

include plain

omit plain

variable {line : Line}

theorem Line.IsPlain.stops (plain : line.IsPlain) :
    ∀ c ∈ line.text.toList.head?, (c == ' ') = false := by
  obtain ⟨-, first, begins, visible⟩ := plain
  intro c member
  rw [begins] at member
  obtain rfl := Option.some.inj member
  rw [beq_eq_false_iff_ne]
  rintro rfl
  cases visible

end

end Lua

/-! ### Indentation -/

open Lua

end Stagecraft
