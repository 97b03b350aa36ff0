/-
This file shows that a quoted text is read as the bytes of the text. Every character is quoted as a
piece that means its bytes whatever follows: as itself, as a letter behind a backslash, or as three
digits, with which no further digit can go on. So the pieces are read one by one, the string ends at
its last quotation mark and no sooner, and different texts are quoted differently. The rules of the
manual and those of the host agree on all of this.
-/

import Stagecraft.Proofs.Lua.Indentation
import Stagecraft.Proofs.Lua.Strings

namespace Stagecraft

namespace Lua

/-! ### Pieces -/

namespace Dialect

/-- A part of a string that means the same bytes whatever follows it. -/
inductive IsPiece (dialect : Dialect) (mark : Char) : List UInt8 → List UInt8 → Prop where
  | plain {bytes : List UInt8} :
    (∀ byte ∈ bytes, IsPlain mark byte) → IsPiece dialect mark bytes bytes
  | escape {behind meaning : List UInt8} :
    (∀ following, dialect.escape? (behind ++ following) = some (meaning, following)) →
      IsPiece dialect mark ('\\'.toUInt8 :: behind) meaning

variable {dialect : Dialect} {mark : Char}

theorem IsPiece.contents? {source meaning : List UInt8}
    (piece : dialect.IsPiece mark source meaning) (noBackslash : mark ≠ '\\') (rest : List UInt8) :
    dialect.contents? mark (source ++ rest) =
      (dialect.contents? mark rest).map fun (later, behind) => (meaning ++ later, behind) := by
  cases piece with
  | plain plain => exact contents?_of_plain plain rest
  | escape escapes => exact contents?_escape noBackslash.symm rfl (escapes rest)

/-- Pieces are read one by one, up to the mark behind them. -/
theorem contents?_of_pieces {sources meanings : List (List UInt8)}
    (pieces : List.Forall₂ (dialect.IsPiece mark) sources meanings) (noBackslash : mark ≠ '\\')
    {byte : UInt8} (isMark : Char.ofUInt8 byte = mark) (rest : List UInt8) :
    dialect.contents? mark (sources.flatten ++ byte :: rest) = some (meanings.flatten, rest) := by
  induction pieces with
  | nil => exact contents?_mark isMark rest
  | cons piece others inductionHypothesis =>
    rw [List.flatten_cons, List.append_assoc, piece.contents? noBackslash, inductionHypothesis]
    rfl

end Dialect

/-! ### Bytes of characters -/

/-- The bytes of characters one after another. -/
def encode (chars : List Char) : List UInt8 :=
  chars.flatMap String.utf8EncodeChar

@[simp] theorem encode_nil : encode [] = [] := rfl

@[simp] theorem encode_cons (c : Char) (chars : List Char) :
    encode (c :: chars) = String.utf8EncodeChar c ++ encode chars := List.flatMap_cons

@[simp] theorem encode_append (chars others : List Char) :
    encode (chars ++ others) = encode chars ++ encode others := List.flatMap_append

theorem utf8_eq (text : String) : utf8 text = encode text.toList := by
  rw [utf8, String.toUTF8_eq_toByteArray, ← String.utf8Encode_toList, List.utf8Encode,
    List.toList_data_toByteArray, encode]

theorem utf8_injective : Function.Injective utf8 := by
  intro text other same
  rw [utf8, utf8, Array.toList_inj] at same
  exact String.toByteArray_inj.mp (ByteArray.ext same)

section

variable {c : Char}

theorem utf8EncodeChar_of_lt (ascii : c.toNat < 128) : String.utf8EncodeChar c = [c.toUInt8] := by
  have small : c.val.toNat ≤ 127 := Nat.le_of_lt_succ ascii
  simp only [String.utf8EncodeChar, if_pos small]
  rfl

theorem ofUInt8_toUInt8 (ascii : c.toNat < 128) : Char.ofUInt8 c.toUInt8 = c := by
  refine Char.ext (UInt32.toNat_inj.mp ?_)
  have small : c.val.toNat < 128 := ascii
  show (c.val.toNat % 2 ^ 8) = c.val.toNat
  omega

/-- A byte that is a character by itself is not one of several bytes of another character. -/
theorem eq_of_mem_utf8EncodeChar {byte : UInt8} (member : byte ∈ String.utf8EncodeChar c)
    (ascii : (Char.ofUInt8 byte).toNat < 128) : Char.ofUInt8 byte = c := by
  by_cases single : c.toNat < 128
  · rw [utf8EncodeChar_of_lt single, List.mem_singleton] at member
    rw [member, ofUInt8_toUInt8 single]
  · have large : ¬ c.val.toNat ≤ 127 := fun small => single (Nat.lt_succ_of_le small)
    have high : 128 ≤ byte.toNat := by
      simp only [String.utf8EncodeChar, if_neg large] at member
      split_ifs at member <;> simp only [List.mem_cons, List.not_mem_nil, or_false] at member
      all_goals rcases member with rfl | rfl | rfl | rfl <;> simp <;> omega
    exact absurd ascii (not_lt.mpr high)

theorem isDigit_of_mem_utf8EncodeChar {byte : UInt8} (noDigit : c.isDigit = false)
    (member : byte ∈ String.utf8EncodeChar c) : (Char.ofUInt8 byte).isDigit = false := by
  by_contra digit
  rw [Bool.not_eq_false] at digit
  have bounds := bounds_of_isDigit digit
  rw [eq_of_mem_utf8EncodeChar member (by omega), noDigit] at digit
  cases digit

theorem isLineEnd_of_mem_utf8EncodeChar {byte : UInt8} (inside : isLineEnd c = false)
    (member : byte ∈ String.utf8EncodeChar c) : isLineEnd (Char.ofUInt8 byte) = false := by
  by_contra ends
  rw [Bool.not_eq_false] at ends
  have ascii : (Char.ofUInt8 byte).toNat < 128 := by
    rw [isLineEnd, Bool.or_eq_true, beq_iff_eq, beq_iff_eq] at ends
    rcases ends with isFeed | isReturn
    · rw [isFeed]
      decide
    · rw [isReturn]
      decide
  rw [eq_of_mem_utf8EncodeChar member ascii, inside] at ends
  cases ends

theorem isPlain_of_mem_utf8EncodeChar {mark : Char} (notMark : c ≠ mark) (ascii : mark.toNat < 128)
    (inside : isLineEnd c = false) (noBackslash : c ≠ '\\') :
    ∀ byte ∈ String.utf8EncodeChar c, IsPlain mark byte := by
  intro byte member
  refine ⟨?_, isLineEnd_of_mem_utf8EncodeChar inside member, ?_⟩
  · rintro rfl
    exact notMark (eq_of_mem_utf8EncodeChar member ascii).symm
  · intro isBackslash
    have same := eq_of_mem_utf8EncodeChar member (by rw [isBackslash]; decide)
    exact noBackslash (same.symm.trans isBackslash)

end

/-! ### Pieces of quoted texts -/

namespace Dialect

/-- Three digits are all that belongs to an escape. -/
theorem isPiece_digits (dialect : Dialect) (mark : Char) {first second third : Char}
    (isFirst : first.isDigit = true) (isSecond : second.isDigit = true)
    (isThird : third.isDigit = true) (small : Decimal.ofDigits [first, second, third] < 256) :
    dialect.IsPiece mark (encode ['\\', first, second, third])
      [UInt8.ofNat (Decimal.ofDigits [first, second, third])] := by
  have ascii {c : Char} (digit : c.isDigit = true) : c.toNat < 128 := by
    have bounds := bounds_of_isDigit digit
    omega
  have character {c : Char} (digit : c.isDigit = true) : Char.ofUInt8 c.toUInt8 = c :=
    ofUInt8_toUInt8 (ascii digit)
  have source : encode ['\\', first, second, third] =
      ['\\'.toUInt8, first.toUInt8, second.toUInt8, third.toUInt8] := by
    simp [utf8EncodeChar_of_lt (ascii isFirst), utf8EncodeChar_of_lt (ascii isSecond),
      utf8EncodeChar_of_lt (ascii isThird)]
    rfl
  rw [source]
  refine .escape fun following => ?_
  have begins : (Char.ofUInt8 first.toUInt8).isDigit = true := by rwa [character isFirst]
  rw [List.cons_append, escape?, if_pos begins, numbered?]
  simp [isDecimal, character isFirst, character isSecond, character isThird, isFirst, isSecond,
    isThird, small]

/-- Each character is quoted as a piece that means its bytes. -/
theorem isPiece_escape (dialect : Dialect) (c : Char) :
    dialect.IsPiece '"' (encode (escape c)) (String.utf8EncodeChar c) := by
  unfold escape
  split
  case h_6 notBackslash notQuote notNewline notReturn _ =>
    split_ifs with control
    · have small : c.toNat < 128 := by omega
      obtain ⟨first, second, third, code⟩ := ofDigits_decimalDigit ⟨c.toNat, small⟩
      have piece := dialect.isPiece_digits '"' first second third (by omega)
      rw [code] at piece
      rwa [utf8EncodeChar_of_lt small]
    · have inside : isLineEnd c = false :=
        Bool.or_eq_false_iff.mpr
          ⟨beq_eq_false_iff_ne.mpr notNewline, beq_eq_false_iff_ne.mpr notReturn⟩
      rw [encode_cons, encode_nil, List.append_nil]
      exact .plain (isPlain_of_mem_utf8EncodeChar notQuote (by decide) inside notBackslash)
  -- What stands behind the backslash means the same by all rules.
  all_goals exact .escape fun following => by cases dialect <;> rfl

end Dialect

/-! ### Strings read from characters -/

theorem utf8EncodeChar_ofNat : ∀ code : Fin 128,
    String.utf8EncodeChar (Char.ofNat code) = [UInt8.ofNat code] := by
  decide

theorem unescape_lt {c : Char} (ascii : c.toNat < 128) : (unescape c).toNat < 128 := by
  unfold unescape
  split
  case h_8 => exact ascii
  all_goals decide

theorem unescape_of_le {c : Char} (large : 128 ≤ c.toNat) : unescape c = c := by
  unfold unescape
  split
  case h_8 => rfl
  all_goals exact absurd large (by decide)

namespace Dialect

/-- By the manual, a character behind a backslash can have several bytes. Only the first belongs to
the escape then, and all of them stand for themselves. -/
theorem contents?_unescape {c : Char} (noDigit : c.isDigit = false) (inside : isLineEnd c = false)
    (rest : List UInt8) :
    manual.contents? '"' (encode ['\\', c] ++ rest) =
      (manual.contents? '"' rest).map fun (later, behind) =>
        (String.utf8EncodeChar (unescape c) ++ later, behind) := by
  obtain ⟨first, others, bytes⟩ :=
    List.exists_cons_of_ne_nil (String.utf8EncodeChar_ne_nil (c := c))
  have isFirst : first ∈ String.utf8EncodeChar c := by
    rw [bytes]
    exact List.mem_cons_self
  obtain ⟨plain, means⟩ : (∀ byte ∈ others, IsPlain '"' byte) ∧
      String.utf8EncodeChar (unescape c) = (unescape (Char.ofUInt8 first)).toUInt8 :: others := by
    by_cases ascii : c.toNat < 128
    · rw [utf8EncodeChar_of_lt ascii] at bytes
      cases bytes
      rw [utf8EncodeChar_of_lt (unescape_lt ascii), ofUInt8_toUInt8 ascii]
      exact ⟨by simp, rfl⟩
    · rw [not_lt] at ascii
      have differs {d : Char} (small : d.toNat < 128) : c ≠ d := by
        rintro rfl
        omega
      have all : ∀ byte ∈ String.utf8EncodeChar c, IsPlain '"' byte :=
        isPlain_of_mem_utf8EncodeChar (differs (by decide)) (by decide) inside (differs (by decide))
      rw [bytes, List.forall_mem_cons] at all
      have large : 128 ≤ (Char.ofUInt8 first).toNat := by
        by_contra small
        exact differs (not_le.mp small) (eq_of_mem_utf8EncodeChar isFirst (not_le.mp small)).symm
      refine ⟨all.2, ?_⟩
      rw [unescape_of_le ascii, unescape_of_le large, bytes]
      exact congrArg (· :: others) (UInt8.toUInt8_toUInt32 first).symm
  have escapes : manual.escape? (first :: (others ++ rest)) =
      some ([(unescape (Char.ofUInt8 first)).toUInt8], others ++ rest) := by
    have noDigit' := isDigit_of_mem_utf8EncodeChar noDigit isFirst
    have inside' := isLineEnd_of_mem_utf8EncodeChar inside isFirst
    rw [escape?, if_neg (by simp [noDigit']), if_neg (by simp [inside'])]
    rfl
  have source : encode ['\\', c] ++ rest = '\\'.toUInt8 :: (first :: (others ++ rest)) := by
    simp [bytes]
    rfl
  rw [source, contents?_escape (by decide) rfl escapes, contents?_of_plain plain, Option.map_map,
    means]
  rfl

/-- The tokens of a chunk are read from its characters. Where a string is found among these, the
manual has the same one. -/
theorem contents?_of_quoted? {text content left : List Char}
    (read : quoted? text = some (content, left)) :
    manual.contents? '"' (encode text) = some (encode content, encode left) := by
  fun_induction quoted? text generalizing content with
  | case1 rest =>
    cases read
    have mark : Char.ofUInt8 '"'.toUInt8 = '"' := rfl
    exact contents?_mark mark (encode left)
  | case2 c isFirst d e rest code valid =>
    rename_i inductionHypothesis
    obtain ⟨⟨later, left'⟩, inner, same⟩ := Option.map_eq_some_iff.mp read
    cases same
    rw [Bool.and_eq_true, Bool.and_eq_true, decide_eq_true_eq] at valid
    obtain ⟨⟨isSecond, isThird⟩, small⟩ := valid
    have piece := manual.isPiece_digits '"' isFirst isSecond isThird (small.trans (by decide))
    have split : encode ('\\' :: c :: d :: e :: rest) = encode ['\\', c, d, e] ++ encode rest :=
      encode_append ['\\', c, d, e] rest
    rw [split, piece.contents? (by decide), inductionHypothesis inner, encode_cons,
      utf8EncodeChar_ofNat ⟨_, small⟩]
    rfl
  | case6 c rest noDigit inside inductionHypothesis =>
    obtain ⟨⟨later, left'⟩, inner, same⟩ := Option.map_eq_some_iff.mp read
    cases same
    rw [Bool.not_eq_true] at noDigit inside
    have split : encode ('\\' :: c :: rest) = encode ['\\', c] ++ encode rest :=
      encode_append ['\\', c] rest
    rw [split, contents?_unescape noDigit inside, inductionHypothesis inner, encode_cons]
    rfl
  | case8 c rest notMark _ plain inductionHypothesis =>
    obtain ⟨⟨later, left'⟩, inner, same⟩ := Option.map_eq_some_iff.mp read
    cases same
    have bytes : ∀ byte ∈ String.utf8EncodeChar c, IsPlain '"' byte := by
      simp only [Bool.or_eq_true, beq_iff_eq, not_or, Bool.not_eq_true] at plain
      exact isPlain_of_mem_utf8EncodeChar notMark (by decide) plain.2 plain.1
    rw [encode_cons, contents?_of_plain bytes, inductionHypothesis inner]
    rfl
  | case3 | case4 | case5 | case7 | case9 => cases read

end Dialect

/-! ### Quoted texts -/

theorem Dialect.pieces_escapes (dialect : Dialect) (chars : List Char) :
    List.Forall₂ (dialect.IsPiece '"') (chars.map fun c => encode (escape c))
      (chars.map String.utf8EncodeChar) := by
  rw [List.forall₂_map_left_iff, List.forall₂_map_right_iff, List.forall₂_same]
  exact fun c _ => dialect.isPiece_escape c

theorem utf8_quote (text : String) :
    utf8 (quote text) =
      '"'.toUInt8 :: (text.toList.map fun c => encode (escape c)).flatten ++ ['"'.toUInt8] := by
  have mark : String.utf8EncodeChar '"' = ['"'.toUInt8] := rfl
  have inner : encode (text.toList.flatMap escape) =
      (text.toList.map fun c => encode (escape c)).flatten := by
    rw [encode, List.flatMap_assoc, List.flatMap_def]
    rfl
  rw [utf8_eq, quote, String.toList_ofList, encode_append, encode_cons, inner, mark]
  rfl

/-- A quoted text is read as its bytes, and nothing of what follows is. -/
theorem Dialect.string?_quote (dialect : Dialect) (text : String) (following : List UInt8) :
    dialect.string? (utf8 (quote text) ++ following) = some (utf8 text, following) := by
  have mark : Char.ofUInt8 '"'.toUInt8 = '"' := rfl
  rw [utf8_quote, List.cons_append, List.cons_append, List.append_assoc, List.singleton_append,
    string?, if_pos (.inl mark), mark,
    contents?_of_pieces (dialect.pieces_escapes text.toList) (by decide) mark, utf8_eq, encode,
    List.flatMap_def]

/-- A text is quoted as a string that is read as the bytes of the text, whatever bytes follow it.
Between its quotation marks the string has one piece for each character, which means the bytes of
that character by itself. No line ends in it, and nothing that it only begins with is a string. So
texts that are quoted alike are the same. -/
theorem quote_reads_back (dialect : Dialect) :
    (∀ (text : String) (following : List UInt8),
      dialect.string? (utf8 (quote text) ++ following) = some (utf8 text, following)) ∧
    (∀ text : String, ∃ sources : List (List UInt8),
      utf8 (quote text) = '"'.toUInt8 :: sources.flatten ++ ['"'.toUInt8] ∧
      List.Forall₂ (dialect.IsPiece '"') sources (text.toList.map String.utf8EncodeChar)) ∧
    (∀ text : String, ∀ byte ∈ utf8 (quote text), isLineEnd (Char.ofUInt8 byte) = false) ∧
    (∀ (text : String) (begun : List UInt8), begun <+: utf8 (quote text) →
      begun ≠ utf8 (quote text) → dialect.string? begun = none) ∧
    Function.Injective quote := by
  have whole (text : String) : dialect.string? (utf8 (quote text)) = some (utf8 text, []) := by
    have read := dialect.string?_quote text []
    rwa [List.append_nil] at read
  refine ⟨dialect.string?_quote,
    fun text => ⟨_, utf8_quote text, dialect.pieces_escapes text.toList⟩,
    fun text byte member => ?_, fun text begun => Dialect.string?_of_begun (whole text),
    fun text other same => ?_⟩
  · rw [utf8_eq] at member
    obtain ⟨c, inText, inCharacter⟩ := List.mem_flatMap.mp member
    exact isLineEnd_of_mem_utf8EncodeChar (isOneLine_quote text c inText) inCharacter
  · have read := whole text
    rw [same, whole other] at read
    exact utf8_injective (congrArg Prod.fst (Option.some.inj read)).symm

/-- Digits behind a control character, and a mark behind the string. -/
theorem quote_reads_back_bell :
    utf8 (quote "\x0723\n\"") = utf8 "\"\\00723\\n\\\"\"" ∧
      Dialect.host.string? (utf8 (quote "\x0723\n\"") ++ utf8 "4\"") =
        some ([7, 50, 51, 10, 34], [52, 34]) ∧
      Dialect.host.string? (utf8 "\"\\00723\\n\\\"") = none := by
  obtain ⟨reads, -, -, begun, -⟩ := quote_reads_back .host
  have written : utf8 (quote "\x0723\n\"") = utf8 "\"\\00723\\n\\\"\"" := by decide
  refine ⟨written, reads "\x0723\n\"" [52, 34], begun "\x0723\n\"" _ ⟨utf8 "\"", ?_⟩ ?_⟩
  · rw [written]
    rfl
  · rw [written]
    decide

end Lua

end Stagecraft
