/-
This file says that strings survive a document: a reader that takes up an escaped text finds the
characters again, one by one. A control character without a letter of its own is written as a code
unit, which is never half of a pair.
-/

import Mathlib
import Stagecraft.Json.Reader
import Stagecraft.Json.Writer

namespace Stagecraft

namespace Json

open Reader

/-! ### Characters -/

theorem hexValue_hexDigit : ∀ value < 16, hexValue? (hexDigit value) = some value := by
  decide

/-- The piece that stands for a character in a written string. -/
def pieceOf (c : Char) : Piece :=
  if c.toNat < 0x20 ∧ c ∉ ['\n', '\r', '\t', '\x08', '\x0c'] then .unit c.toNat else .char c

theorem pieces_escape (c : Char) (rest : List Char) :
    pieces ((escape c).toList ++ rest) =
      (pieces rest).map fun found => (pieceOf c :: found.1, found.2) := by
  unfold escape
  split
  case h_8 notQuote notBackslash notNewline notReturn notTab notBack notFeed =>
    split
    · rename_i control
      have first := hexValue_hexDigit (c.toNat / 16) (by omega)
      have second := hexValue_hexDigit (c.toNat % 16) (by omega)
      have unit : unit? '0' '0' (hexDigit (c.toNat / 16)) (hexDigit (c.toNat % 16)) =
          some c.toNat := by
        simp [unit?, first, second, show hexValue? '0' = some 0 from rfl]
        omega
      have isUnit : pieceOf c = .unit c.toNat := if_pos ⟨control, by simp_all⟩
      cases found : pieces rest <;> simp [pieces, unit, isUnit, found]
    · rename_i notControl
      have isChar : pieceOf c = .char c := if_neg fun control => notControl control.1
      have step : pieces (c :: rest) =
          (pieces rest).map fun found => (.char c :: found.1, found.2) := by
        rw [pieces.eq_def]
        split
        case h_5 same =>
          obtain ⟨rfl, rfl⟩ := List.cons.inj same
          rw [if_neg (not_or.mpr ⟨notControl, notBackslash⟩)]
          cases pieces rest <;> rfl
        all_goals simp_all
      rw [Char.toString_eq_singleton, String.toList_singleton, List.singleton_append, step, isChar]
  all_goals
    cases found : pieces rest <;> simp [pieces, escaped?, pieceOf, found]

/-- A code unit that is not half of a pair is a character by itself. -/
theorem join_unit {code : Nat} (single : code < 0xD800) (rest : List Piece) :
    join? (.unit code :: rest) = (join? rest).map (Char.ofNat code :: ·) := by
  have notHigh : isHigh code = false := by simp [isHigh, single]
  have notLow : isLow code = false := by
    simp [isLow]
    omega
  rw [join?.eq_def]
  split <;> simp_all

theorem join_pieceOf (c : Char) (rest : List Piece) :
    join? (pieceOf c :: rest) = (join? rest).map (c :: ·) := by
  rw [pieceOf]
  split
  · rename_i control
    rw [join_unit (by omega), Char.ofNat_toNat]
  · rw [join?]

/-! ### Strings -/

/-- The characters of a text as they stand between quotes. -/
def escapes (text : String) : List Char :=
  text.toList.flatMap fun c => (escape c).toList

theorem toList_quote (text : String) : (quote text).toList = '"' :: (escapes text ++ ['"']) := by
  simp [quote, escapes, List.flatMap_map]

theorem pieces_escapes (chars rest : List Char) :
    pieces (chars.flatMap (fun c => (escape c).toList) ++ '"' :: rest) =
      some (chars.map pieceOf, rest) := by
  induction chars with
  | nil => rw [List.flatMap_nil, List.nil_append, pieces, List.map_nil]
  | cons c later inductionHypothesis =>
    rw [List.flatMap_cons, List.append_assoc, pieces_escape, inductionHypothesis, List.map_cons,
      Option.map_some]

theorem join_pieces (chars : List Char) : join? (chars.map pieceOf) = some chars := by
  induction chars with
  | nil => rfl
  | cons c later inductionHypothesis =>
    rw [List.map_cons, join_pieceOf, inductionHypothesis, Option.map_some]

/-- A written string reads back. -/
theorem string_escapes (text : String) (rest : List Char) :
    string (escapes text ++ '"' :: rest) = some (some text, rest) := by
  rw [string, escapes, pieces_escapes]
  simp [join_pieces]

end Json

end Stagecraft
