/-
This file says which tokens the text of a chunk has: those of its parts in their order. Texts that
stand next to each other must not run together, a name with a numeral or a sign with another sign,
so each text is read in front of whatever follows it, as long as that does not go on with it. Only
names that are identifiers and numerals that are not negative can be read at all.
-/

import Stagecraft.Proofs.Lua.Lexing

namespace Stagecraft

namespace Lua

/-! ### Chunks that can be written -/

mutual

/-- A chain of indices, fields and calls that begins with a name. -/
inductive Exp.IsPath : Exp Float → Prop where
  | name {found : String} : isIdentifier found → IsPath (.name found)
  | index {table key : Exp Float} : IsPath table → IsWritable key → IsPath (.index table key)
  | member {table : Exp Float} {field : String} :
    IsPath table → isIdentifier field → IsPath (.member table field)
  | call {callee : Exp Float} {arguments : List (Exp Float)} :
    IsPath callee → (∀ argument ∈ arguments, IsWritable argument) → IsPath (.call callee arguments)

/-- The text of the expression is one of Lua. -/
inductive Exp.IsWritable : Exp Float → Prop where
  | numeral {value : Float} {mantissa : Nat} {exponent : Int} :
    Double.ofFloat value = .number false mantissa exponent → IsWritable (.numeral value)
  | text (content : String) : IsWritable (.text content)
  | path {exp : Exp Float} : IsPath exp → IsWritable exp
  | unary (op : UnaryOp) {operand : Exp Float} : IsWritable operand → IsWritable (.unary op operand)
  | binary (op : BinaryOp) {left right : Exp Float} :
    IsWritable left → IsWritable right → IsWritable (.binary op left right)
  | choose {condition yes no : Exp Float} :
    IsWritable condition → IsWritable yes → IsWritable no → IsWritable (.choose condition yes no)

end

inductive Stat.IsWritable : Stat Float → Prop where
  | assign {table key value : Exp Float} :
    table.IsPath → key.IsWritable → value.IsWritable → IsWritable (.assign table key value)
  | declare {name : String} {value : Exp Float} :
    isIdentifier name → value.IsWritable → IsWritable (.declare name value)
  | call {callee : Exp Float} {arguments : List (Exp Float)} :
    callee.IsPath → (∀ argument ∈ arguments, argument.IsWritable) →
      IsWritable (.call callee arguments)
  | branch {condition : Exp Float} {yes no : List (Stat Float)} :
    condition.IsWritable → (∀ stat ∈ yes, IsWritable stat) → (∀ stat ∈ no, IsWritable stat) →
      IsWritable (.branch condition yes no)
  | scope {body : List (Stat Float)} : (∀ stat ∈ body, IsWritable stat) → IsWritable (.scope body)
  | comment (text : String) : IsWritable (.comment text)

/-! ### Tokens of chunks -/

def unaryToken : UnaryOp → Token
  | .neg => .operator .sub
  | .not => .not

mutual

def Exp.tokens : Exp Float → List Token
  | .numeral value => [.numeral value]
  | .text content => [.text content]
  | .name found => [.name found]
  | .index table key => table.tokens ++ .bracket :: key.tokens ++ [.unbracket]
  | .member table field => table.tokens ++ [.dot, .name field]
  | .unary op operand => .opening :: unaryToken op :: operand.tokens ++ [.closing]
  | .binary op left right =>
    .opening :: left.tokens ++ .operator op :: right.tokens ++ [.closing]
  | .call callee arguments =>
    callee.tokens ++ .opening :: [Token.comma].intercalate (Exp.eachTokens arguments) ++ [.closing]
  | .choose condition yes no =>
    .opening :: condition.tokens ++ .operator .and :: yes.tokens ++ .operator .or :: no.tokens ++
      [.closing]

def Exp.eachTokens : List (Exp Float) → List (List Token)
  | [] => []
  | exp :: rest => exp.tokens :: Exp.eachTokens rest

end

mutual

def Stat.tokens : Stat Float → List Token
  | .assign table key value =>
    table.tokens ++ .bracket :: key.tokens ++ .unbracket :: .assign :: value.tokens
  | .declare name value => .declare :: .name name :: .assign :: value.tokens
  | .call callee arguments => (Exp.call callee arguments).tokens
  | .branch condition yes no =>
    .branch :: condition.tokens ++ .yes :: Stat.allTokens yes ++
      (if no.isEmpty then [] else .no :: Stat.allTokens no) ++ [.finish]
  | .scope body => .scope :: Stat.allTokens body ++ [.finish]
  | .comment _ => []

def Stat.allTokens : List (Stat Float) → List Token
  | [] => []
  | stat :: rest => stat.tokens ++ Stat.allTokens rest

end

/-! ### Symbols and words -/

theorem head_of_cons {β : Type} {first : β} {isPart : β → Bool} (stops : isPart first = false)
    (rest : List β) : ∀ other ∈ (first :: rest).head?, isPart other = false := by
  rintro _ ⟨⟩
  exact stops

section

variable {rest : List Char} {tokens : List Token}

theorem lex_cons {c : Char} {left : List Char} {token : Token}
    (seen : token? c rest = some (token, left)) (visible : isBlank c = false) {isFresh : Bool} (inside : isFresh = true → c ≠ '(')
    (noComment : c = '-' → ∀ d ∈ rest.head?, d ≠ '-') (read : lex false left = some tokens) :
    lex isFresh (c :: rest) = some (token :: tokens) := by
  rw [lex_token seen visible inside noComment, read]
  rfl

theorem lex_opening (read : lex false rest = some tokens) :
    lex false ('(' :: rest) = some (.opening :: tokens) :=
  lex_cons rfl rfl (by simp) (by simp) read

theorem lex_closing (read : lex false rest = some tokens) :
    lex false (')' :: rest) = some (.closing :: tokens) :=
  lex_cons rfl rfl (by simp) (by simp) read

theorem lex_unbracket (read : lex false rest = some tokens) :
    lex false (']' :: rest) = some (.unbracket :: tokens) :=
  lex_cons rfl rfl (by simp) (by simp) read

theorem lex_comma (read : lex false rest = some tokens) :
    lex false (',' :: ' ' :: rest) = some (.comma :: tokens) :=
  lex_cons rfl rfl (by simp) (by simp) ((lex_space false rest).trans read)

theorem lex_assign (read : lex false rest = some tokens) :
    lex false (' ' :: '=' :: ' ' :: rest) = some (.assign :: tokens) := by
  rw [lex_space]
  exact lex_cons rfl rfl (by simp) (by simp) ((lex_space false rest).trans read)

theorem lex_named (isFresh : Bool) {name : String} (valid : isIdentifier name = true)
    (stops : ∀ c ∈ rest.head?, isNamePart c = false)
    (read : lex false rest = some tokens) :
    lex isFresh (name.toList ++ rest) = some (.name name :: tokens) := by
  rw [lex_name valid stops, read]
  rfl

theorem lex_reserved (isFresh : Bool) (word : String) {token : Token} (isName : isWord word = true)
    (means : word? word = some token) (stops : ∀ c ∈ rest.head?, isNamePart c = false)
    (read : lex false rest = some tokens) :
    lex isFresh (word.toList ++ rest) = some (token :: tokens) := by
  rw [lex_word isName means stops, read]
  rfl

/-- A reserved word with a space behind it. -/
theorem lex_keyword (isFresh : Bool) (word : String) {token : Token} (isName : isWord word = true)
    (means : word? word = some token) (read : lex false rest = some tokens) :
    lex isFresh (word.toList ++ ' ' :: rest) = some (token :: tokens) :=
  lex_reserved isFresh word isName means (head_of_cons rfl rest) ((lex_space false rest).trans read)

/-- A sign between spaces is read as such, and so is a word. -/
theorem lex_binary (op : BinaryOp) (read : lex false rest = some tokens) :
    lex false (' ' :: (binaryText op).toList ++ ' ' :: rest) = some (.operator op :: tokens) := by
  rw [List.cons_append, lex_space]
  cases op with
  | and => exact lex_keyword false "and" rfl rfl read
  | or => exact lex_keyword false "or" rfl rfl read
  | _ =>
    refine lex_cons rfl rfl (by simp) ?_ ((lex_space false rest).trans read)
    rintro - _ ⟨⟩
    decide

/-! ### First characters -/

/-- A text of an expression can begin with the character. -/
def isOpening (c : Char) : Bool :=
  isNameStart c || c.isDigit || c == '"' || c == '('

theorem ne_of_isOpening {c d : Char} (begins : isOpening c = true) (other : isOpening d = false) :
    c ≠ d := by
  rintro rfl
  exact Bool.false_ne_true (other.symm.trans begins)

theorem exists_cons_of_isIdentifier {name : String} (valid : isIdentifier name = true) :
    ∃ c parts, name.toList = c :: parts ∧ isNameStart c = true := by
  rw [isIdentifier, isWord, Bool.and_eq_true] at valid
  cases characters : name.toList with
  | nil =>
    rw [characters] at valid
    cases valid.1
  | cons c parts =>
    rw [characters, Bool.and_eq_true] at valid
    exact ⟨c, parts, rfl, valid.1.1⟩

theorem Exp.IsPath.exists_cons {path : Exp Float} : path.IsPath →
    ∃ c parts, path.print.toList = c :: parts ∧ isNameStart c = true
  | .name valid => exists_cons_of_isIdentifier valid
  | .index table key => by
    obtain ⟨c, parts, isText, begins⟩ := table.exists_cons
    simp [Exp.print, isText, begins]
  | .member table valid => by
    obtain ⟨c, parts, isText, begins⟩ := table.exists_cons
    simp [Exp.print, isText, begins]
  | .call callee arguments => by
    obtain ⟨c, parts, isText, begins⟩ := callee.exists_cons
    simp [Exp.print, isText, begins]

theorem Exp.IsWritable.exists_cons {exp : Exp Float} (writable : exp.IsWritable) :
    ∃ c parts, exp.print.toList = c :: parts ∧ isOpening c = true := by
  cases writable with
  | numeral seen =>
    obtain ⟨whole, fraction, digits, -⟩ := Decimal.text_plain seen
    obtain ⟨c, parts, isText, digit, -⟩ := exists_cons_of_digits digits
    exact ⟨c, parts, isText, by simp [isOpening, digit]⟩
  | text content => exact ⟨'"', _, by rw [Exp.print, quote, String.toList_ofList]; rfl, rfl⟩
  | path path =>
    obtain ⟨c, parts, isText, begins⟩ := path.exists_cons
    exact ⟨c, parts, isText, by simp [isOpening, begins]⟩
  | unary op operand => exact ⟨'(', _, by simp [Exp.print]; rfl, rfl⟩
  | binary op left right => exact ⟨'(', _, by simp [Exp.print]; rfl, rfl⟩
  | choose condition yes no => exact ⟨'(', _, by simp [Exp.print]; rfl, rfl⟩

theorem lex_bracket {c : Char} (begins : isOpening c = true)
    (read : lex false (c :: rest) = some tokens) :
    lex false ('[' :: c :: rest) = some (.bracket :: tokens) := by
  refine lex_cons ?_ rfl (by simp) (by simp) read
  have notBracket := ne_of_isOpening begins (d := '[') rfl
  have notEquals := ne_of_isOpening begins (d := '=') rfl
  show symbol? ('[' :: c :: rest) = _
  simp [symbol?, notBracket, notEquals]

theorem lex_dot {field : String} (valid : isIdentifier field = true)
    (stops : ∀ c ∈ rest.head?, isNamePart c = false) (read : lex false rest = some tokens) :
    lex false ('.' :: field.toList ++ rest) = some (.dot :: .name field :: tokens) := by
  have named := lex_named false valid stops read
  obtain ⟨c, parts, isText, begins⟩ := exists_cons_of_isIdentifier valid
  rw [isText, List.cons_append] at named
  rw [List.cons_append, isText, List.cons_append]
  refine lex_cons ?_ rfl (by simp) (by simp) named
  have notDot : c ≠ '.' := by
    rintro rfl
    cases begins
  have notDigit : c.isDigit = false := by
    have above := le_of_isNameStart begins
    by_contra digit
    have below := bounds_of_isDigit (Bool.eq_true_of_not_eq_false digit)
    omega
  show symbol? ('.' :: c :: (parts ++ rest)) = _
  simp [symbol?, notDot, notDigit]

theorem lex_unary {c : Char} (begins : isOpening c = true) (op : UnaryOp)
    (read : lex false (c :: rest) = some tokens) :
    lex false ((unaryText op).toList ++ c :: rest) = some (unaryToken op :: tokens) := by
  cases op with
  | neg =>
    refine lex_cons rfl rfl (by simp) ?_ read
    rintro - _ ⟨⟩
    exact ne_of_isOpening begins rfl
  | not =>
    exact lex_keyword false "not" rfl rfl read

/-! ### Expressions -/

/-- Arguments have the tokens of each of them, with commas between. -/
theorem lex_arguments : {arguments : List (Exp Float)} →
    (∀ argument ∈ arguments, ∀ (rest : List Char) (tokens : List Token),
      (∀ c ∈ rest.head?, isNumeralPart c = false) → lex false rest = some tokens →
        lex false (argument.print.toList ++ rest) = some (argument.tokens ++ tokens)) →
    {rest : List Char} → {tokens : List Token} → lex false rest = some tokens →
      lex false ((String.intercalate ", " (Exp.printAll arguments)).toList ++ ')' :: rest) =
        some ([Token.comma].intercalate (Exp.eachTokens arguments) ++ .closing :: tokens)
  | [], _, rest, tokens, read => by
    rw [Exp.printAll, Exp.eachTokens]
    exact lex_closing read
  | [exp], lexes, rest, tokens, read => by
    have first := lexes exp List.mem_cons_self _ _ (head_of_cons rfl rest) (lex_closing read)
    simpa [Exp.printAll, Exp.eachTokens] using first
  | exp :: other :: others, lexes, rest, tokens, read => by
    have later := lex_arguments
      (fun argument member => lexes argument (List.mem_cons_of_mem _ member)) read
    have first := lexes exp List.mem_cons_self _ _ (head_of_cons rfl _) (lex_comma later)
    simpa [Exp.printAll, Exp.eachTokens] using first

mutual

theorem Exp.IsPath.lex_print {path : Exp Float} : path.IsPath →
    ∀ (isFresh : Bool) (rest : List Char) (tokens : List Token),
      (∀ c ∈ rest.head?, isNamePart c = false) → lex false rest = some tokens →
        lex isFresh (path.print.toList ++ rest) = some (path.tokens ++ tokens)
  | .name valid, isFresh, rest, tokens, stops, read => by
    exact lex_named isFresh valid stops read
  | .index table key, isFresh, rest, tokens, _, read => by
    obtain ⟨c, parts, isText, begins⟩ := key.exists_cons
    have inner := key.lex_print _ _ (head_of_cons rfl rest) (lex_unbracket read)
    rw [isText] at inner
    have whole := table.lex_print isFresh _ _ (head_of_cons rfl _) (lex_bracket begins inner)
    simpa [Exp.print, Exp.tokens, isText] using whole
  | .member table valid, isFresh, rest, tokens, stops, read => by
    have whole := table.lex_print isFresh _ _ (head_of_cons rfl _) (lex_dot valid stops read)
    simpa [Exp.print, Exp.tokens] using whole
  | .call callee arguments, isFresh, rest, tokens, _, read => by
    have inner := lex_arguments (fun argument member => (arguments argument member).lex_print) read
    have whole := callee.lex_print isFresh _ _ (head_of_cons rfl _) (lex_opening inner)
    simpa [Exp.print, Exp.tokens] using whole

theorem Exp.IsWritable.lex_print {exp : Exp Float} : exp.IsWritable →
    ∀ (rest : List Char) (tokens : List Token),
      (∀ c ∈ rest.head?, isNumeralPart c = false) → lex false rest = some tokens →
        lex false (exp.print.toList ++ rest) = some (exp.tokens ++ tokens)
  | .numeral seen, rest, tokens, stops, read => by
    obtain ⟨whole, fraction, digits, reads⟩ := Decimal.text_plain seen
    rw [Exp.print, lex_numeral digits reads stops, read]
    rfl
  | .text content, rest, tokens, _, read => by
    rw [Exp.print, lex_quote, read]
    rfl
  | .path path, rest, tokens, stops, read => by
    refine path.lex_print false rest tokens (fun c member => ?_) read
    exact (Bool.or_eq_false_iff.mp (stops c member)).1
  | .unary op operand, rest, tokens, _, read => by
    obtain ⟨c, parts, isText, begins⟩ := operand.exists_cons
    have inner := operand.lex_print _ _ (head_of_cons rfl rest) (lex_closing read)
    rw [isText] at inner
    have whole := lex_opening (lex_unary begins op inner)
    simpa [Exp.print, Exp.tokens, isText] using whole
  | .binary op left right, rest, tokens, _, read => by
    have second := right.lex_print _ _ (head_of_cons rfl rest) (lex_closing read)
    have first := left.lex_print _ _ (head_of_cons rfl _) (lex_binary op second)
    simpa [Exp.print, Exp.tokens] using lex_opening first
  | .choose condition yes no, rest, tokens, _, read => by
    have third := no.lex_print _ _ (head_of_cons rfl rest) (lex_closing read)
    have second := yes.lex_print _ _ (head_of_cons rfl _) (lex_binary .or third)
    have first := condition.lex_print _ _ (head_of_cons rfl _) (lex_binary .and second)
    simpa [Exp.print, Exp.tokens, binaryText] using lex_opening first

end

end

/-! ### Lines -/

theorem lex_spaces (isFresh : Bool) (count : Nat) (rest : List Char) :
    lex isFresh (List.replicate count ' ' ++ rest) = lex isFresh rest := by
  induction count with
  | zero => rfl
  | succ count inductionHypothesis =>
    rw [List.replicate_succ, List.cons_append, lex_space, inductionHypothesis]

section

variable (layout : Layout)

theorem toList_text_singleton (line : Line) :
    (layout.text [line]).toList = (layout.line line).toList := by
  simp [Layout.text]

theorem toList_text_append (first second : List Line) :
    (layout.text (first ++ second)).toList =
      (layout.text first).toList ++ (layout.text second).toList := by
  simp [Layout.text]

theorem toList_text_cons (line : Line) (lines : List Line) :
    (layout.text (line :: lines)).toList =
      (layout.line line).toList ++ (layout.text lines).toList := by
  rw [← toList_text_singleton, ← toList_text_append, List.singleton_append]

/-- Indentation has no tokens. -/
theorem lex_line {line : Line} {rest : List Char} {tokens : List Token}
    (read : lex true (line.text.toList ++ '\n' :: rest) = some tokens) :
    lex true ((layout.line line).toList ++ rest) = some tokens := by
  simpa [Layout.line, Lists.toList_pushn, lex_spaces] using read

theorem lex_word_line (word : String) {token : Token} (isName : isWord word = true)
    (means : word? word = some token) (level : Nat) {rest : List Char} {tokens : List Token}
    (read : lex true rest = some tokens) :
    lex true ((layout.line ⟨level, word⟩).toList ++ rest) = some (token :: tokens) := by
  refine lex_line layout ?_
  have ended := (lex_newline false rest).trans read
  exact lex_reserved true word isName means (head_of_cons rfl rest) ended

/-- A comment does not reach the next line. -/
theorem isLineEnd_of_mem_oneLine (text : String) :
    ∀ c ∈ (oneLine text).toList, isLineEnd c = false := by
  intro c member
  rw [oneLine, String.toList_map] at member
  obtain ⟨d, -, rfl⟩ := List.mem_map.mp member
  split_ifs with ends
  · rfl
  · simpa [isLineEnd] using ends

theorem lex_allLines {stats : List (Stat Float)}
    (lexes : ∀ stat ∈ stats, ∀ (level : Nat) (rest : List Char) (tokens : List Token),
      lex true rest = some tokens →
        lex true ((layout.text (stat.lines level)).toList ++ rest) = some (stat.tokens ++ tokens))
    (level : Nat) {rest : List Char} {tokens : List Token} (read : lex true rest = some tokens) :
    lex true ((layout.text (Stat.allLines level stats)).toList ++ rest) =
      some (Stat.allTokens stats ++ tokens) := by
  induction stats with
  | nil =>
    rw [Stat.allLines, Stat.allTokens]
    exact read
  | cons stat stats inductionHypothesis =>
    have later := inductionHypothesis fun other member =>
      lexes other (List.mem_cons_of_mem _ member)
    rw [Stat.allLines, Stat.allTokens, toList_text_append, List.append_assoc, List.append_assoc]
    exact lexes stat List.mem_cons_self level _ _ later

/-- The lines of the second branch, which are left out if it is empty. -/
theorem lex_else {stats : List (Stat Float)} (level : Nat)
    (lexes : ∀ stat ∈ stats, ∀ (level : Nat) (rest : List Char) (tokens : List Token),
      lex true rest = some tokens →
        lex true ((layout.text (stat.lines level)).toList ++ rest) = some (stat.tokens ++ tokens))
    {rest : List Char} {tokens : List Token} (read : lex true rest = some tokens) :
    lex true ((layout.text (if stats.isEmpty then [] else
        ⟨level, "else"⟩ :: Stat.allLines (level + 1) stats)).toList ++ rest) =
      some ((if stats.isEmpty then [] else .no :: Stat.allTokens stats) ++ tokens) := by
  split
  · exact read
  · rw [toList_text_cons, List.append_assoc]
    exact lex_word_line layout "else" rfl rfl level (lex_allLines layout lexes (level + 1) read)

theorem Stat.IsWritable.lex_lines {stat : Stat Float} : stat.IsWritable →
    ∀ (level : Nat) (rest : List Char) (tokens : List Token), lex true rest = some tokens →
      lex true ((layout.text (stat.lines level)).toList ++ rest) = some (stat.tokens ++ tokens)
  | .assign table key value, level, rest, tokens, read => by
    obtain ⟨c, parts, isText, begins⟩ := key.exists_cons
    have ended := (lex_newline false rest).trans read
    have third := lex_assign (value.lex_print _ _ (head_of_cons rfl _) ended)
    have second := key.lex_print _ _ (head_of_cons rfl _) (lex_unbracket third)
    rw [isText] at second
    have whole := table.lex_print true _ _ (head_of_cons rfl _) (lex_bracket begins second)
    rw [Stat.lines, toList_text_singleton]
    refine lex_line layout ?_
    simpa [Stat.tokens, isText] using whole
  | .declare valid value, level, rest, tokens, read => by
    have ended := (lex_newline false rest).trans read
    have second := lex_assign (value.lex_print _ _ (head_of_cons rfl _) ended)
    have first := lex_named false valid (head_of_cons rfl _) second
    have whole := lex_keyword true "local" rfl rfl first
    rw [Stat.lines, toList_text_singleton]
    refine lex_line layout ?_
    simpa [Stat.tokens] using whole
  | .call callee arguments, level, rest, tokens, read => by
    have ended := (lex_newline false rest).trans read
    have whole := (Exp.IsPath.call callee arguments).lex_print true _ _ (head_of_cons rfl _) ended
    rw [Stat.lines, toList_text_singleton]
    exact lex_line layout whole
  | .branch condition yes no, level, rest, tokens, read => by
    have ended := lex_word_line layout "end" rfl rfl level read
    have otherwise := lex_else layout level (fun stat member => (no stat member).lex_lines) ended
    have inner := lex_allLines layout (fun stat member => (yes stat member).lex_lines)
      (level + 1) otherwise
    have opened := (lex_newline false _).trans inner
    have decided := lex_reserved false "then" rfl rfl (head_of_cons rfl _) opened
    rw [← lex_space] at decided
    have asked := condition.lex_print _ _ (head_of_cons rfl _) decided
    have whole := lex_keyword true "if" rfl rfl asked
    rw [Stat.lines, toList_text_append, toList_text_append, toList_text_cons, toList_text_singleton,
      List.append_assoc, List.append_assoc, List.append_assoc]
    refine lex_line layout ?_
    simpa [Stat.tokens] using whole
  | .scope body, level, rest, tokens, read => by
    have ended := lex_word_line layout "end" rfl rfl level read
    have inner := lex_allLines layout (fun stat member => (body stat member).lex_lines) (level + 1)
      ended
    have whole := lex_word_line layout "do" rfl rfl level inner
    rw [Stat.lines, toList_text_append, toList_text_cons, toList_text_singleton]
    simpa [Stat.tokens] using whole
  | .comment text, level, rest, tokens, read => by
    rw [Stat.lines, toList_text_singleton]
    refine lex_line layout ?_
    have whole := (lex_comment (isLineEnd_of_mem_oneLine text) true rest).trans read
    simpa [Stat.tokens] using whole

/-- A chunk whose statements can be written has their tokens, however it is indented. -/
theorem Chunk.lex_print {chunk : Chunk Float} (writable : ∀ stat ∈ chunk, stat.IsWritable) :
    lex true (Chunk.print layout chunk).toList = some (Stat.allTokens chunk) := by
  have lexes := lex_allLines layout (fun stat member => (writable stat member).lex_lines layout)
    layout.offset (lex_nil true)
  rwa [List.append_nil, List.append_nil] at lexes

end

end Lua

end Stagecraft
