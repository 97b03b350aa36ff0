/-
This file reads strings as Lua does. Its rules are about bytes: a string ends at the mark that it
begins with, a line cannot end inside it, and a backslash begins an escape. An escape is a letter, a
line end, or one to three digits, as many as there are, so what an escape means can hang on what
follows it. But once the string has ended, nothing that follows can change it: a text that begins
with a string still does when more is written behind it, and no string is the beginning of another.
-/

import Stagecraft.Json.Reader
import Stagecraft.Proofs.Lua.Lexing

namespace Stagecraft

namespace Lua

open Json.Reader (hexValue?)

/-- Whose rules are meant. By the manual of Lua 5.1 a character behind a backslash stands for itself
unless it has a meaning of its own. The host gives a meaning to some more of them, as later versions
of Lua do, and refuses the others. -/
inductive Dialect where
  | manual
  | host

/-- The bytes of a text as it is stored. -/
def utf8 (text : String) : List UInt8 :=
  text.toUTF8.data.toList

def apostrophe : Char := '\x27'

/-! ### Escapes

Each reader gives the bytes that an escape stands for, and what follows the escape. -/

def isDecimal (byte : UInt8) : Bool :=
  (Char.ofUInt8 byte).isDigit

def isHexadecimal (byte : UInt8) : Bool :=
  (hexValue? (Char.ofUInt8 byte)).isSome

/-- The number with the digits in base sixteen. -/
def ofHexadecimal (digits : List UInt8) : Nat :=
  digits.foldl (fun value byte => 16 * value + (hexValue? (Char.ofUInt8 byte)).getD 0) 0

/-- A byte by its number, in up to three digits. -/
def numbered? (text : List UInt8) : Option (List UInt8 × List UInt8) :=
  let digits := (text.take 3).takeWhile isDecimal
  let code := Decimal.ofDigits (digits.map Char.ofUInt8)
  if code < 256 then some ([UInt8.ofNat code], text.drop digits.length) else none

/-- What follows a line end. Another character that could end a line ends the same one. -/
def afterLineEnd (c : Char) : List UInt8 → List UInt8
  | [] => []
  | byte :: rest =>
    if isLineEnd (Char.ofUInt8 byte) && Char.ofUInt8 byte != c then rest else byte :: rest

/-- A byte by its number, in two digits of base sixteen. -/
def paired? : List UInt8 → Option (List UInt8 × List UInt8)
  | first :: second :: rest =>
    if isHexadecimal first && isHexadecimal second then
      some ([UInt8.ofNat (ofHexadecimal [first, second])], rest)
    else none
  | _ => none

/-- A character by its code, in base sixteen and between braces. -/
def braced? : List UInt8 → Option (List UInt8 × List UInt8)
  | [] => none
  | brace :: rest =>
    let digits := rest.takeWhile isHexadecimal
    match rest.dropWhile isHexadecimal with
    | [] => none
    | closing :: left =>
      if Char.ofUInt8 brace = '\x7b' ∧ digits ≠ [] ∧ Char.ofUInt8 closing = '\x7d' ∧
          (ofHexadecimal digits).isValidChar then
        some (String.utf8EncodeChar (Char.ofNat (ofHexadecimal digits)), left)
      else none

namespace Dialect

/-- An escape that begins with neither a digit nor a line end. -/
def lettered? (dialect : Dialect) (c : Char) (rest : List UInt8) :
    Option (List UInt8 × List UInt8) :=
  match dialect with
  | .manual => some ([(unescape c).toUInt8], rest)
  | .host =>
    if c ∈ ['a', 'b', 'f', 'n', 'r', 't', 'v', '\\', '"', apostrophe] then
      some ([(unescape c).toUInt8], rest)
    else if c = 'x' then paired? rest
    else if c = 'u' then braced? rest
    else if c = 'z' then some ([], rest.dropWhile fun byte => isBlank (Char.ofUInt8 byte))
    else none

/-- An escape, read from behind its backslash. -/
def escape? (dialect : Dialect) (text : List UInt8) : Option (List UInt8 × List UInt8) :=
  match text with
  | [] => none
  | byte :: rest =>
    let c := Char.ofUInt8 byte
    if c.isDigit then numbered? text
    else if isLineEnd c then some (['\n'.toUInt8], afterLineEnd c rest)
    else dialect.lettered? c rest

end Dialect

theorem length_numbered? {byte : UInt8} {rest meaning left : List UInt8}
    (digit : isDecimal byte = true) (read : numbered? (byte :: rest) = some (meaning, left)) :
    left.length < rest.length + 1 := by
  rw [numbered?] at read
  split_ifs at read
  cases read
  simp [digit]

theorem length_afterLineEnd_le (c : Char) (text : List UInt8) :
    (afterLineEnd c text).length ≤ text.length := by
  unfold afterLineEnd
  split
  · rfl
  · split_ifs <;> simp

theorem length_paired? {text meaning left : List UInt8}
    (read : paired? text = some (meaning, left)) : left.length < text.length := by
  unfold paired? at read
  split at read
  · split_ifs at read
    cases read
    simp only [List.length_cons]
    omega
  · cases read

theorem length_braced? {text meaning left : List UInt8}
    (read : braced? text = some (meaning, left)) : left.length < text.length := by
  unfold braced? at read
  split at read
  · cases read
  · rename_i rest
    split at read
    · cases read
    · rename_i isClosing
      dsimp only at read
      split_ifs at read
      cases read
      have shorter := List.length_dropWhile_le isHexadecimal rest
      rw [isClosing] at shorter
      simp only [List.length_cons] at shorter ⊢
      omega

namespace Dialect

variable (dialect : Dialect)

theorem length_lettered?_le {c : Char} {rest meaning left : List UInt8}
    (read : dialect.lettered? c rest = some (meaning, left)) : left.length ≤ rest.length := by
  unfold lettered? at read
  split at read
  · cases read
    rfl
  · split_ifs at read
    · cases read
      rfl
    · exact (length_paired? read).le
    · exact (length_braced? read).le
    · cases read
      exact List.length_dropWhile_le _ _

/-- An escape is not empty. -/
theorem length_escape? {text meaning left : List UInt8}
    (read : dialect.escape? text = some (meaning, left)) : left.length < text.length := by
  unfold escape? at read
  split at read
  · cases read
  · rename_i rest
    dsimp only at read
    split_ifs at read with isDigit isEnd
    · exact length_numbered? isDigit read
    · cases read
      exact Nat.lt_succ_of_le (length_afterLineEnd_le _ rest)
    · exact Nat.lt_succ_of_le (dialect.length_lettered?_le read)

/-! ### Strings -/

/-- The bytes of a string up to the mark that ends it, and what follows. -/
def contents? (mark : Char) (text : List UInt8) : Option (List UInt8 × List UInt8) :=
  match text with
  | [] => none
  | byte :: rest =>
    if Char.ofUInt8 byte = mark then some ([], rest)
    else if isLineEnd (Char.ofUInt8 byte) then none
    else if Char.ofUInt8 byte = '\\' then
      match _read : dialect.escape? rest with
      | some (meaning, left) =>
        (contents? mark left).map fun (later, behind) => (meaning ++ later, behind)
      | none => none
    else (contents? mark rest).map fun (later, behind) => (byte :: later, behind)
termination_by text.length
decreasing_by
  · exact (dialect.length_escape? _read).trans (Nat.lt_succ_self _)
  · simp

/-- The bytes of the string that a text begins with, and what follows it. -/
def string? (text : List UInt8) : Option (List UInt8 × List UInt8) :=
  match text with
  | [] => none
  | byte :: rest =>
    if Char.ofUInt8 byte = '"' ∨ Char.ofUInt8 byte = apostrophe then
      dialect.contents? (Char.ofUInt8 byte) rest
    else none

end Dialect

section

variable {mark : Char} {byte : UInt8} {text rest meaning left : List UInt8}

/-- A byte that can be part of a string and stands for itself there. -/
def IsPlain (mark : Char) (byte : UInt8) : Prop :=
  Char.ofUInt8 byte ≠ mark ∧ isLineEnd (Char.ofUInt8 byte) = false ∧ Char.ofUInt8 byte ≠ '\\'

namespace Dialect

variable {dialect : Dialect}

theorem contents?_mark (isMark : Char.ofUInt8 byte = mark) (rest : List UInt8) :
    dialect.contents? mark (byte :: rest) = some ([], rest) := by
  rw [contents?, if_pos isMark]

theorem contents?_plain (plain : IsPlain mark byte) (rest : List UInt8) :
    dialect.contents? mark (byte :: rest) =
      (dialect.contents? mark rest).map fun (later, behind) => (byte :: later, behind) := by
  obtain ⟨notMark, inside, noEscape⟩ := plain
  rw [contents?, if_neg notMark, if_neg (by simp [inside]), if_neg noEscape]

theorem contents?_escape (notMark : Char.ofUInt8 byte ≠ mark) (isEscape : Char.ofUInt8 byte = '\\')
    (read : dialect.escape? rest = some (meaning, left)) :
    dialect.contents? mark (byte :: rest) =
      (dialect.contents? mark left).map fun (later, behind) => (meaning ++ later, behind) := by
  have inside : ¬ isLineEnd (Char.ofUInt8 byte) = true := by
    rw [isEscape]
    decide
  rw [contents?, if_neg notMark, if_neg inside, if_pos isEscape]
  split
  · rename_i read'
    rw [read] at read'
    cases read'
    rfl
  · rename_i unread
    rw [read] at unread
    cases unread

theorem contents?_of_plain (plain : ∀ byte ∈ text, IsPlain mark byte) (rest : List UInt8) :
    dialect.contents? mark (text ++ rest) =
      (dialect.contents? mark rest).map fun (later, behind) => (text ++ later, behind) := by
  induction text with
  | nil => simp
  | cons byte text inductionHypothesis =>
    obtain ⟨here, others⟩ := List.forall_mem_cons.mp plain
    rw [List.cons_append, contents?_plain here, inductionHypothesis others, Option.map_map]
    rfl

theorem ne_nil_of_contents? (read : dialect.contents? mark text = some (meaning, left)) :
    text ≠ [] := by
  rintro rfl
  rw [contents?] at read
  cases read

end Dialect

/-! ### What follows a string -/

theorem numbered?_append (read : numbered? text = some (meaning, left)) (goesOn : left ≠ [])
    (more : List UInt8) : numbered? (text ++ more) = some (meaning, left ++ more) := by
  rw [numbered?] at read
  split_ifs at read with small
  cases read
  have inside := List.length_lt_of_drop_ne_nil goesOn
  -- Either there are three bytes already, or one of those there are is no digit.
  have same : ((text ++ more).take 3).takeWhile isDecimal = (text.take 3).takeWhile isDecimal := by
    by_cases long : 3 ≤ text.length
    · rw [List.take_append_of_le_length long]
    · have short : text.take 3 = text := List.take_of_length_le (by omega)
      rw [short] at inside
      rw [List.take_append, short, List.takeWhile_append, if_neg inside.ne]
  rw [numbered?, same, List.drop_append_of_le_length inside.le]
  exact if_pos small

theorem afterLineEnd_append {c : Char} (goesOn : afterLineEnd c text ≠ []) (more : List UInt8) :
    afterLineEnd c (text ++ more) = afterLineEnd c text ++ more := by
  cases text with
  | nil => exact absurd rfl goesOn
  | cons byte rest =>
    rw [List.cons_append, afterLineEnd, afterLineEnd]
    split_ifs <;> rfl

theorem paired?_append (read : paired? text = some (meaning, left)) (more : List UInt8) :
    paired? (text ++ more) = some (meaning, left ++ more) := by
  unfold paired? at read
  split at read
  · split_ifs at read with digits
    cases read
    rw [List.cons_append, List.cons_append, paired?, if_pos digits]
  · cases read

theorem braced?_append (read : braced? text = some (meaning, left)) (more : List UInt8) :
    braced? (text ++ more) = some (meaning, left ++ more) := by
  unfold braced? at read
  split at read
  · cases read
  · rename_i rest
    split at read
    · cases read
    · rename_i isClosing
      dsimp only at read
      split_ifs at read with valid
      cases read
      have goesOn : rest.dropWhile isHexadecimal ≠ [] := by
        rw [isClosing]
        exact List.cons_ne_nil _ _
      obtain ⟨taken, dropped⟩ := Lists.span_append goesOn more
      rw [isClosing] at dropped
      rw [List.cons_append, braced?, taken, dropped]
      exact if_pos valid

namespace Dialect

variable {dialect : Dialect}

theorem lettered?_append {c : Char} (read : dialect.lettered? c rest = some (meaning, left))
    (goesOn : left ≠ []) (more : List UInt8) :
    dialect.lettered? c (rest ++ more) = some (meaning, left ++ more) := by
  unfold lettered? at read ⊢
  split at read
  · cases read
    rfl
  · split_ifs at read ⊢
    · cases read
      rfl
    · exact paired?_append read more
    · exact braced?_append read more
    · cases read
      rw [(Lists.span_append goesOn more).2]

/-- Once something is left behind an escape, nothing can go on with the escape. -/
theorem escape?_append (read : dialect.escape? text = some (meaning, left)) (goesOn : left ≠ [])
    (more : List UInt8) : dialect.escape? (text ++ more) = some (meaning, left ++ more) := by
  unfold escape? at read
  split at read
  · cases read
  · dsimp only at read
    rw [List.cons_append, escape?]
    split_ifs at read ⊢ with isDigit isEnd
    · exact numbered?_append read goesOn more
    · cases read
      rw [afterLineEnd_append goesOn]
    · exact lettered?_append read goesOn more

theorem contents?_append (read : dialect.contents? mark text = some (meaning, left))
    (more : List UInt8) :
    dialect.contents? mark (text ++ more) = some (meaning, left ++ more) := by
  fun_induction dialect.contents? mark text generalizing meaning with
  | case1 | case3 | case5 => cases read
  | case2 byte rest isMark =>
    cases read
    rw [List.cons_append, contents?_mark isMark]
  | case4 byte rest notMark inside isEscape bytes behind escapes inductionHypothesis =>
    obtain ⟨⟨later, left'⟩, inner, same⟩ := Option.map_eq_some_iff.mp read
    cases same
    -- The mark is still to come behind the escape.
    have longer := escape?_append escapes (ne_nil_of_contents? inner) more
    rw [List.cons_append, contents?_escape notMark isEscape longer, inductionHypothesis inner]
    rfl
  | case6 byte rest notMark inside noEscape inductionHypothesis =>
    obtain ⟨⟨later, left'⟩, inner, same⟩ := Option.map_eq_some_iff.mp read
    cases same
    have plain : IsPlain mark byte := ⟨notMark, Bool.eq_false_iff.mpr inside, noEscape⟩
    rw [List.cons_append, contents?_plain plain, inductionHypothesis inner]
    rfl

/-- What follows a string has no say in it. -/
theorem string?_append (read : dialect.string? text = some (meaning, left)) (more : List UInt8) :
    dialect.string? (text ++ more) = some (meaning, left ++ more) := by
  unfold string? at read
  split at read
  · cases read
  · split_ifs at read with begins
    rw [List.cons_append, string?, if_pos begins]
    exact contents?_append read more

example : Dialect.host.string? (utf8 "\"\\71\\x41\\z \n\\u\x7be9\x7d\\0001\"23") =
    some ([71, 65, 195, 169, 0, 49], [50, 51]) := by
  cbv

/-- What a string only begins with is not a string yet. -/
theorem string?_of_begun (read : dialect.string? text = some (meaning, []))
    {begun : List UInt8} (begins : begun <+: text) (shorter : begun ≠ text) :
    dialect.string? begun = none := by
  obtain ⟨rest, rfl⟩ := begins
  by_contra ended
  obtain ⟨⟨early, left⟩, readEarly⟩ := Option.ne_none_iff_exists'.mp ended
  rw [string?_append readEarly] at read
  obtain ⟨-, rfl⟩ := List.append_eq_nil_iff.mp (congrArg Prod.snd (Option.some.inj read))
  exact shorter (List.append_nil begun).symm

end Dialect

end

end Lua

end Stagecraft
