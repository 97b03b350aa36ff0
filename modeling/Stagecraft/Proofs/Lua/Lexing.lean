/-
This file reads Lua text as tokens, by the lexical rules of Lua 5.1 for the part of the language
that chunks are written in. A text with anything else has no tokens: long brackets, operators that
logic does not have, words that are reserved for other statements. Neither has a text where a
parenthesis is the first thing on a line, which could go on with the statement before it.
-/

import Mathlib
import Stagecraft.Lua.Printer
import Stagecraft.Proofs.Decimal.Reading
import Stagecraft.Proofs.Lists

namespace Stagecraft

namespace Lua

inductive Token where
  | name (text : String)
  | numeral (value : Float)
  | text (value : String)
  /-- An operator with two operands; the sign `-` is also one with a single operand. -/
  | operator (op : BinaryOp)
  | not
  /-- `(` and `)` -/
  | opening
  | closing
  /-- `[` and `]` -/
  | bracket
  | unbracket
  | dot
  | comma
  /-- `=` -/
  | assign
  /-- `local` -/
  | declare
  /-- `if`, `then` and `else` -/
  | branch
  | yes
  | no
  /-- `do` -/
  | scope
  /-- `end` -/
  | finish

/-! ### Words -/

/-- The reserved words, with the tokens of those that chunks are written with. -/
def words : List (String × Option Token) :=
  [("and", some (.operator .and)), ("break", none), ("do", some .scope), ("else", some .no),
    ("elseif", none), ("end", some .finish), ("false", none), ("for", none), ("function", none),
    ("if", some .branch), ("in", none), ("local", some .declare), ("nil", none),
    ("not", some .not), ("or", some (.operator .or)), ("repeat", none), ("return", none),
    ("then", some .yes), ("true", none), ("until", none), ("while", none)]

def word? (word : String) : Option Token :=
  (words.lookup word).getD (some (.name word))

def isNameStart (c : Char) : Bool :=
  c.isAlpha || c == '_'

def isNamePart (c : Char) : Bool :=
  isNameStart c || c.isDigit

/-- A text that is a name or a reserved word. -/
def isWord (word : String) : Bool :=
  match word.toList with
  | [] => false
  | c :: rest => isNameStart c && rest.all isNamePart

/-- A text that can be a name. -/
def isIdentifier (word : String) : Bool :=
  isWord word && (words.lookup word).isNone

/-! ### Strings and numerals -/

/-- The character that a letter behind a backslash stands for. -/
def unescape (c : Char) : Char :=
  match c with
  | 'a' => Char.ofNat 7
  | 'b' => Char.ofNat 8
  | 'f' => Char.ofNat 12
  | 'n' => '\n'
  | 'r' => '\r'
  | 't' => '\t'
  | 'v' => Char.ofNat 11
  | c => c

def isLineEnd (c : Char) : Bool :=
  c == '\n' || c == '\r'

/-- The characters of a string up to the quotation mark that ends it, and what follows. Digits
behind a backslash come in threes, and give a character of one byte. -/
def quoted? : List Char → Option (List Char × List Char)
  | '"' :: rest => some ([], rest)
  | '\\' :: c :: rest =>
    if c.isDigit then
      match rest with
      | d :: e :: rest =>
        let code := Decimal.ofDigits [c, d, e]
        if d.isDigit && e.isDigit && decide (code < 128) then
          (quoted? rest).map fun (content, left) => (Char.ofNat code :: content, left)
        else none
      | _ => none
    else if isLineEnd c then none
    else (quoted? rest).map fun (content, left) => (unescape c :: content, left)
  | c :: rest =>
    if c == '\\' || isLineEnd c then none
    else (quoted? rest).map fun (content, left) => (c :: content, left)
  | [] => none

def isNumeralPart (c : Char) : Bool :=
  isNamePart c || c == '.'

/-! ### Tokens -/

/-- The token that a text with neither a name, a numeral nor a string in front begins with, and
what follows. -/
def symbol? : List Char → Option (Token × List Char)
  | '=' :: '=' :: rest => some (.operator .eq, rest)
  | '~' :: '=' :: rest => some (.operator .ne, rest)
  | '<' :: '=' :: rest => some (.operator .le, rest)
  | '>' :: '=' :: rest => some (.operator .ge, rest)
  | '=' :: rest => some (.assign, rest)
  | '<' :: rest => some (.operator .lt, rest)
  | '>' :: rest => some (.operator .gt, rest)
  | '+' :: rest => some (.operator .add, rest)
  | '-' :: rest => some (.operator .sub, rest)
  | '*' :: rest => some (.operator .mul, rest)
  | '/' :: rest => some (.operator .div, rest)
  | '(' :: rest => some (.opening, rest)
  | ')' :: rest => some (.closing, rest)
  | ']' :: rest => some (.unbracket, rest)
  | ',' :: rest => some (.comma, rest)
  | '[' :: c :: rest => if c == '[' || c == '=' then none else some (.bracket, c :: rest)
  | '.' :: c :: rest => if c == '.' || c.isDigit then none else some (.dot, c :: rest)
  | _ => none

/-- The token that begins with a character, and what follows. -/
def token? (c : Char) (rest : List Char) : Option (Token × List Char) :=
  if isNameStart c then
    (word? (String.ofList (c :: rest.takeWhile isNamePart))).map fun token =>
      (token, rest.dropWhile isNamePart)
  else if c.isDigit then
    (Decimal.readMagnitude? (c :: rest.takeWhile isNumeralPart)).map fun value =>
      (.numeral value, rest.dropWhile isNumeralPart)
  else if c == '"' then
    (quoted? rest).map fun (content, left) => (.text (String.ofList content), left)
  else symbol? (c :: rest)

theorem length_quoted? {text content left : List Char} (read : quoted? text = some (content, left)) :
    left.length < text.length := by
  fun_induction quoted? text generalizing content with
  | case1 rest =>
    cases read
    simp
  | case2 | case6 | case8 =>
    rename_i inductionHypothesis
    obtain ⟨⟨content', left'⟩, inner, same⟩ := Option.map_eq_some_iff.mp read
    cases same
    have shorter := inductionHypothesis inner
    simp only [List.length_cons]
    omega
  | case3 | case4 | case5 | case7 | case9 => cases read

theorem length_symbol? {text left : List Char} {token : Token}
    (read : symbol? text = some (token, left)) : left.length < text.length := by
  unfold symbol? at read
  split at read <;> first
    | (cases read; simp only [List.length_cons]; omega)
    | (split at read
       · cases read
       · cases read
         simp)
    | cases read

/-- A token is not empty. -/
theorem length_token? {c : Char} {rest left : List Char} {token : Token}
    (read : token? c rest = some (token, left)) : left.length < rest.length + 1 := by
  unfold token? at read
  split_ifs at read with isName isNumeral isText
  · obtain ⟨word, -, same⟩ := Option.map_eq_some_iff.mp read
    cases same
    exact Nat.lt_succ_of_le (List.length_dropWhile_le _ _)
  · obtain ⟨value, -, same⟩ := Option.map_eq_some_iff.mp read
    cases same
    exact Nat.lt_succ_of_le (List.length_dropWhile_le _ _)
  · obtain ⟨⟨content, left'⟩, inner, same⟩ := Option.map_eq_some_iff.mp read
    cases same
    exact (length_quoted? inner).trans (Nat.lt_succ_self _)
  · exact length_symbol? read

/-- Characters without a meaning of their own. -/
def isBlank (c : Char) : Bool :=
  c == ' ' || (decide (9 ≤ c.toNat) && decide (c.toNat ≤ 13))

/-- The tokens of a text; `isFresh` says that none of them stands before it on its line. -/
def lex (isFresh : Bool) (text : List Char) : Option (List Token) :=
  match text with
  | [] => some []
  | '-' :: '-' :: rest =>
    if rest.head? = some '[' then none
    else lex isFresh (rest.dropWhile fun c => !isLineEnd c)
  | c :: rest =>
    if isBlank c then lex (isFresh || isLineEnd c) rest
    else if isFresh && c == '(' then none
    else match _read : token? c rest with
      | some (token, left) => (lex false left).map (token :: ·)
      | none => none
termination_by text.length
decreasing_by
  · have shorter := List.length_dropWhile_le (fun c => !isLineEnd c) rest
    simp only [List.length_cons]
    omega
  · simp
  · simpa using length_token? _read

/-! ### What texts begin with -/

@[simp] theorem lex_nil (isFresh : Bool) : lex isFresh [] = some [] := by
  rw [lex]

theorem lex_blank {c : Char} (blank : isBlank c = true) (isFresh : Bool) (rest : List Char) :
    lex isFresh (c :: rest) = lex (isFresh || isLineEnd c) rest := by
  rw [lex.eq_def]
  split
  · rename_i isEmpty
    cases isEmpty
  · rename_i isComment
    cases isComment
    exact absurd blank (by decide)
  · rename_i same
    cases same
    rw [if_pos blank]

@[simp] theorem lex_space (isFresh : Bool) (rest : List Char) :
    lex isFresh (' ' :: rest) = lex isFresh rest := by
  rw [lex_blank (by decide)]
  have noEnd : isLineEnd ' ' = false := by decide
  rw [noEnd, Bool.or_false]

@[simp] theorem lex_newline (isFresh : Bool) (rest : List Char) :
    lex isFresh ('\n' :: rest) = lex true rest := by
  rw [lex_blank (by decide)]
  have isEnd : isLineEnd '\n' = true := by decide
  rw [isEnd, Bool.or_true]

/-- A text that begins with a token has its tokens. -/
theorem lex_token {c : Char} {rest left : List Char} {token : Token}
    (read : token? c rest = some (token, left)) (visible : isBlank c = false) {isFresh : Bool}
    (inside : isFresh = true → c ≠ '(') (noComment : c = '-' → ∀ d ∈ rest.head?, d ≠ '-') :
    lex isFresh (c :: rest) = (lex false left).map (token :: ·) := by
  rw [lex.eq_def]
  split
  · rename_i isEmpty
    cases isEmpty
  · rename_i isComment
    cases isComment
    exact absurd rfl (noComment rfl '-' rfl)
  · rename_i same
    cases same
    have notFirst : ¬ (isFresh && c == '(') = true := by
      simpa using inside
    rw [if_neg (by simp [visible]), if_neg notFirst]
    split
    · rename_i token' left' read'
      rw [read] at read'
      cases read'
      rfl
    · rename_i unread
      rw [read] at unread
      cases unread

theorem lex_comment {text : List Char} (oneLine : ∀ c ∈ text, isLineEnd c = false) (isFresh : Bool)
    (rest : List Char) :
    lex isFresh ('-' :: '-' :: ' ' :: text ++ '\n' :: rest) = lex true rest := by
  have dropped : (' ' :: text ++ '\n' :: rest).dropWhile (fun c => !isLineEnd c) = '\n' :: rest := by
    refine Lists.dropWhile_append (fun c member => ?_) (by simp [isLineEnd])
    rcases List.mem_cons.mp member with rfl | member
    · decide
    · simp [oneLine c member]
  rw [List.cons_append, List.cons_append, lex, if_neg (by simp)]
  rw [dropped, lex_newline]

/-! ### Words -/

theorem le_of_isNameStart {c : Char} (first : isNameStart c = true) : 65 ≤ c.toNat := by
  rw [isNameStart, Bool.or_eq_true, beq_iff_eq, Char.isAlpha, Bool.or_eq_true] at first
  rcases first with (upper | lower) | rfl
  · simp only [Char.isUpper, decide_eq_true_eq, ge_iff_le, UInt32.le_iff_toNat_le] at upper
    exact upper.1
  · simp only [Char.isLower, Bool.and_eq_true, decide_eq_true_eq, ge_iff_le,
      UInt32.le_iff_toNat_le] at lower
    exact (by decide : 65 ≤ 97).trans lower.1
  · decide

theorem bounds_of_isDigit {c : Char} (digit : c.isDigit = true) : 48 ≤ c.toNat ∧ c.toNat ≤ 57 := by
  simp only [Char.isDigit, Bool.and_eq_true, decide_eq_true_eq, ge_iff_le,
    UInt32.le_iff_toNat_le] at digit
  exact digit

theorem isBlank_of_le {c : Char} (visible : 33 ≤ c.toNat) : isBlank c = false := by
  have notSpace : c ≠ ' ' := by
    rintro rfl
    exact absurd visible (by decide)
  have notControl : ¬ c.toNat ≤ 13 := by omega
  simp [isBlank, notSpace, notControl]

theorem lex_word {word : String} {token : Token} (isName : isWord word = true)
    (means : word? word = some token) {rest : List Char}
    (stops : ∀ c ∈ rest.head?, isNamePart c = false) (isFresh : Bool) :
    lex isFresh (word.toList ++ rest) = (lex false rest).map (token :: ·) := by
  unfold isWord at isName
  cases characters : word.toList with
  | nil =>
    rw [characters] at isName
    cases isName
  | cons c parts =>
    rw [characters, Bool.and_eq_true, List.all_eq_true] at isName
    obtain ⟨first, all⟩ := isName
    have read : token? c (parts ++ rest) = some (token, rest) := by
      rw [token?, if_pos first, Lists.takeWhile_append all stops, Lists.dropWhile_append all stops,
        ← characters, String.ofList_toList, means]
      rfl
    refine lex_token read (isBlank_of_le ((by decide : 33 ≤ 65).trans (le_of_isNameStart first))) ?_ ?_
    · rintro - rfl
      exact absurd first (by decide)
    · rintro rfl
      exact absurd first (by decide)

theorem lex_name {name : String} (valid : isIdentifier name = true) {rest : List Char}
    (stops : ∀ c ∈ rest.head?, isNamePart c = false) (isFresh : Bool) :
    lex isFresh (name.toList ++ rest) = (lex false rest).map (.name name :: ·) := by
  rw [isIdentifier, Bool.and_eq_true, Option.isNone_iff_eq_none] at valid
  refine lex_word valid.1 ?_ stops isFresh
  rw [word?, valid.2]
  rfl

/-! ### Numerals and strings -/

/-- Digits with a point begin with a digit. -/
theorem exists_cons_of_digits {text whole fraction : List Char}
    (digits : Decimal.Digits text whole fraction) : ∃ c parts,
      text = c :: parts ∧ c.isDigit = true ∧ ∀ d ∈ parts, isNumeralPart d = true := by
  have isPart {d : Char} (digit : d.isDigit = true) : isNumeralPart d = true := by
    simp [isNumeralPart, isNamePart, digit]
  obtain ⟨rfl, nonempty, wholeDigits, fractionDigits⟩ := digits
  obtain ⟨c, parts, rfl⟩ := List.exists_cons_of_ne_nil nonempty
  have later : ∀ d ∈ parts, isNumeralPart d = true := fun d member =>
    isPart (wholeDigits d (List.mem_cons_of_mem _ member))
  rw [Decimal.pointed]
  split_ifs
  · exact ⟨c, parts, rfl, wholeDigits c List.mem_cons_self, later⟩
  · refine ⟨c, parts ++ '.' :: fraction, rfl, wholeDigits c List.mem_cons_self, fun d member => ?_⟩
    rcases List.mem_append.mp member with first | second
    · exact later d first
    · rcases List.mem_cons.mp second with rfl | second
      · decide
      · exact isPart (fractionDigits d second)

theorem lex_numeral {text whole fraction : List Char} (digits : Decimal.Digits text whole fraction)
    {value : Float} (reads : Decimal.readMagnitude? text = some value) {rest : List Char}
    (stops : ∀ c ∈ rest.head?, isNumeralPart c = false) (isFresh : Bool) :
    lex isFresh (text ++ rest) = (lex false rest).map (.numeral value :: ·) := by
  obtain ⟨c, parts, rfl, digit, all⟩ := exists_cons_of_digits digits
  obtain ⟨low, high⟩ := bounds_of_isDigit digit
  have notName : ¬ isNameStart c = true := fun first => by
    have above := le_of_isNameStart first
    omega
  have read : token? c (parts ++ rest) = some (.numeral value, rest) := by
    rw [token?, if_neg notName, if_pos digit, Lists.takeWhile_append all stops,
      Lists.dropWhile_append all stops, reads]
    rfl
  refine lex_token read (isBlank_of_le (by omega)) ?_ ?_
  · rintro - rfl
    exact absurd digit (by decide)
  · rintro rfl
    exact absurd digit (by decide)

theorem ofDigits_decimalDigit : ∀ code : Fin 128,
    (decimalDigit (code / 100)).isDigit = true ∧ (decimalDigit (code / 10)).isDigit = true ∧
      (decimalDigit code).isDigit = true ∧
      Decimal.ofDigits [decimalDigit (code / 100), decimalDigit (code / 10), decimalDigit code] =
        code := by
  decide

theorem quoted?_backslash {c : Char} (noDigit : c.isDigit = false) (inside : isLineEnd c = false)
    (rest : List Char) :
    quoted? ('\\' :: c :: rest) =
      (quoted? rest).map fun (content, left) => (unescape c :: content, left) := by
  rw [quoted?.eq_def]
  simp only [noDigit, inside, Bool.false_eq_true, if_false]

/-- A character is read as it was escaped. -/
theorem quoted?_escape (c : Char) (rest : List Char) :
    quoted? (escape c ++ rest) =
      (quoted? rest).map fun (content, left) => (c :: content, left) := by
  unfold escape
  split
  · exact quoted?_backslash (by decide) (by decide) rest
  · exact quoted?_backslash (by decide) (by decide) rest
  · exact quoted?_backslash (by decide) (by decide) rest
  · exact quoted?_backslash (by decide) (by decide) rest
  · exact quoted?_backslash (by decide) (by decide) rest
  · rename_i notBackslash notQuote notNewline notReturn _
    split_ifs with control
    · have small : c.toNat < 128 := by omega
      obtain ⟨first, second, third, code⟩ := ofDigits_decimalDigit ⟨c.toNat, small⟩
      simp only at first second third code
      simp only [List.cons_append, List.nil_append]
      rw [quoted?, if_pos first]
      simp only [second, third, code, small, decide_true, Bool.and_self, if_true, Char.ofNat_toNat]
    · rw [List.singleton_append, quoted?.eq_def]
      split
      · rename_i same
        cases same
        exact absurd rfl notQuote
      · rename_i same
        cases same
        exact absurd rfl notBackslash
      · rename_i same
        cases same
        have plain : ¬ (c == '\\' || isLineEnd c) = true := by
          simp only [isLineEnd, Bool.or_eq_true, beq_iff_eq, not_or]
          exact ⟨notBackslash, notNewline, notReturn⟩
        rw [if_neg plain]
      · rename_i same
        cases same

theorem quoted?_escapes (text rest : List Char) :
    quoted? (text.flatMap escape ++ '"' :: rest) = some (text, rest) := by
  induction text with
  | nil => rfl
  | cons c text inductionHypothesis =>
    rw [List.flatMap_cons, List.append_assoc, quoted?_escape, inductionHypothesis]
    rfl

theorem lex_quote (text : String) (isFresh : Bool) (rest : List Char) :
    lex isFresh ((quote text).toList ++ rest) = (lex false rest).map (.text text :: ·) := by
  rw [quote, String.toList_ofList, List.cons_append, List.cons_append, List.append_assoc,
    List.singleton_append]
  refine lex_token ?_ (by decide) (by simp) (by simp)
  rw [token?, if_neg (by decide), if_neg (by decide), if_pos (by decide), quoted?_escapes]
  simp only [Option.map_some, String.ofList_toList]

end Lua

end Stagecraft
