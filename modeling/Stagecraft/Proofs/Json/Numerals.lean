/-
This file says how finite doubles are spelled in documents. The spelling is a numeral: digits that
do not begin with a zero in vain, then perhaps a fraction and an exponent. A reader takes up all of
a numeral, and stops where the document goes on.
-/

import Stagecraft.Json.Number
import Stagecraft.Json.Reader
import Stagecraft.Proofs.Decimal.Reading

namespace Stagecraft

namespace Json

/-! ### Numerals -/

structure AreDigits (digits : List Char) : Prop where
  nonempty : digits ≠ []
  each : ∀ c ∈ digits, c.isDigit = true

theorem AreDigits.append {digits more : List Char} (areDigits : AreDigits digits)
    (all : ∀ c ∈ more, c.isDigit = true) : AreDigits (digits ++ more) :=
  ⟨by simp [areDigits.nonempty], List.forall_mem_append.mpr ⟨areDigits.each, all⟩⟩

/-- The digits in front: a lone zero, or digits that do not begin with one. -/
inductive IsWhole : List Char → Prop
  | zero : IsWhole ['0']
  | digits {digits : List Char} : AreDigits digits → digits.head? ≠ some '0' → IsWhole digits

inductive IsFraction : List Char → Prop
  | none : IsFraction []
  | point {digits : List Char} : AreDigits digits → IsFraction ('.' :: digits)

inductive IsExponent : List Char → Prop
  | none : IsExponent []
  | signed {sign : Char} {digits : List Char} : sign = '+' ∨ sign = '-' → AreDigits digits →
    IsExponent ('e' :: sign :: digits)

inductive IsUnsigned : List Char → Prop
  | intro {whole fraction exponent : List Char} :
    IsWhole whole → IsFraction fraction → IsExponent exponent →
    IsUnsigned (whole ++ (fraction ++ exponent))

/-- The spelling of a number. -/
inductive IsNumeral : List Char → Prop
  | intro (negative : Bool) {magnitude : List Char} : IsUnsigned magnitude →
    IsNumeral ((if negative then ['-'] else []) ++ magnitude)

theorem IsWhole.exists_cons {digits : List Char} (isWhole : IsWhole digits) :
    ∃ c later, digits = c :: later ∧ c.isDigit = true := by
  cases isWhole with
  | zero => exact ⟨'0', [], rfl, rfl⟩
  | digits areDigits _ =>
    obtain ⟨c, later, rfl⟩ := List.exists_cons_of_ne_nil areDigits.nonempty
    exact ⟨c, later, rfl, areDigits.each c List.mem_cons_self⟩

theorem IsUnsigned.exists_cons {magnitude : List Char} (isUnsigned : IsUnsigned magnitude) :
    ∃ c later, magnitude = c :: later ∧ c.isDigit = true := by
  obtain ⟨isWhole, -, -⟩ := isUnsigned
  obtain ⟨c, later, rfl, digit⟩ := isWhole.exists_cons
  exact ⟨c, later ++ _, rfl, digit⟩

/-- What may follow a value inside a document: its end, or a mark. -/
def Closes (rest : List Char) : Prop :=
  ∀ c ∈ rest.head?, c = ',' ∨ c = ']' ∨ c = '}'

/-! ### Reading -/

namespace Reader

theorem splitDigits_append {digits rest : List Char} (all : ∀ c ∈ digits, c.isDigit = true)
    (ends : ∀ c ∈ rest.head?, c.isDigit = false) :
    splitDigits (digits ++ rest) = (digits, rest) := by
  rw [splitDigits, Lists.takeWhile_append all ends, Lists.dropWhile_append all ends]

variable {rest : List Char}

theorem whole_append {digits : List Char} (isWhole : IsWhole digits)
    (ends : ∀ c ∈ rest.head?, c.isDigit = false) :
    whole (digits ++ rest) = some (digits, rest) := by
  cases isWhole with
  | zero => rfl
  | digits areDigits notZero =>
    obtain ⟨c, later, rfl⟩ := List.exists_cons_of_ne_nil areDigits.nonempty
    unfold whole
    split
    · rename_i same
      exact absurd (congrArg List.head? same) (by simpa using notZero)
    · simp only [splitDigits_append areDigits.each ends]
      rfl

theorem fraction_append {part : List Char} (isFraction : IsFraction part)
    (ends : ∀ c ∈ rest.head?, c.isDigit = false ∧ c ≠ '.') :
    fraction (part ++ rest) = some (part, rest) := by
  cases isFraction with
  | none =>
    unfold fraction
    split
    · rename_i same
      exact absurd rfl (ends '.' (by rw [← List.nil_append rest, same]; rfl)).2
    · rfl
  | point areDigits =>
    simp [fraction, splitDigits_append areDigits.each fun c first => (ends c first).1,
      areDigits.nonempty]

theorem exponent_append {part : List Char} (isExponent : IsExponent part) (closes : Closes rest) :
    exponent (part ++ rest) = some (part, rest) := by
  cases isExponent with
  | none =>
    cases rest with
    | nil => rfl
    | cons c later =>
      have mark := closes c rfl
      have noMark : ¬(c = 'e' ∨ c = 'E') := by
        rcases mark with rfl | rfl | rfl <;> decide
      rw [List.nil_append, exponent, if_neg noMark]
  | signed isSign areDigits =>
    have ends (c : Char) (first : c ∈ rest.head?) : c.isDigit = false := by
      rcases closes c first with rfl | rfl | rfl <;> decide
    rcases isSign with rfl | rfl <;>
      simp [exponent, exponentSign, splitDigits_append areDigits.each ends, areDigits.nonempty]

/-- The digits, the fraction and the exponent of a number, read one after another. -/
theorem parts_append {magnitude : List Char} (isUnsigned : IsUnsigned magnitude)
    (closes : Closes rest) (sign : List Char) :
    (do
      let (whole, rest) ← whole (magnitude ++ rest)
      let (fraction, rest) ← fraction rest
      let (exponent, rest) ← exponent rest
      return (String.ofList (sign ++ whole ++ fraction ++ exponent), rest)) =
    some (String.ofList (sign ++ magnitude), rest) := by
  obtain ⟨isWhole, isFraction, isExponent⟩ := isUnsigned
  rename_i wholePart fractionPart exponentPart
  have afterFraction (c : Char) (first : c ∈ (exponentPart ++ rest).head?) :
      c.isDigit = false ∧ c ≠ '.' := by
    cases isExponent with
    | none => rcases closes c first with rfl | rfl | rfl <;> decide
    | signed => cases first; decide
  have afterWhole (c : Char) (first : c ∈ (fractionPart ++ (exponentPart ++ rest)).head?) :
      c.isDigit = false := by
    cases isFraction with
    | none => exact (afterFraction c first).1
    | point => cases first; decide
  simp only [List.append_assoc, whole_append isWhole afterWhole, Option.bind_eq_bind,
    Option.bind_some, fraction_append isFraction afterFraction,
    exponent_append isExponent closes, Option.pure_def]

/-- A numeral is read to its end. -/
theorem number_append {spelling : List Char} (isNumeral : IsNumeral spelling)
    (closes : Closes rest) :
    number (spelling ++ rest) = some (String.ofList spelling, rest) := by
  obtain ⟨negative, isUnsigned⟩ := isNumeral
  cases negative with
  | true => exact parts_append isUnsigned closes ['-']
  | false =>
    have parts := parts_append isUnsigned closes []
    obtain ⟨c, later, rfl, digit⟩ := isUnsigned.exists_cons
    unfold number
    split
    rename_i signed
    split at signed
    · rename_i same
      obtain ⟨rfl, -⟩ := List.cons.inj same
      exact absurd digit (by decide)
    · obtain ⟨rfl, rfl⟩ := Prod.mk.inj signed
      exact parts

end Reader

/-! ### Writing -/

theorem head_toDigits {count : Nat} (positive : 0 < count) :
    (Nat.toDigits 10 count).head? ≠ some '0' := by
  induction count using Nat.strong_induction_on with
  | _ count inductionHypothesis =>
    rw [Nat.toDigits_eq_if (by norm_num)]
    split
    · interval_cases count <;> decide
    · rename_i large
      rw [List.head?_append_of_ne_nil _ Nat.toDigits_ne_nil]
      exact inductionHypothesis _ (Nat.div_lt_self positive (by norm_num)) (by omega)

theorem areDigits_toDigits (count : Nat) : AreDigits (Nat.toDigits 10 count) :=
  ⟨Nat.toDigits_ne_nil, fun _ => Decimal.isDigit_of_mem_repr⟩

theorem isUnsigned_positional {decimal : Decimal} (positive : 0 < decimal.digits) :
    IsUnsigned (Decimal.positional ".0" decimal).toList := by
  obtain ⟨digits, exponent⟩ := decimal
  have notZero := head_toDigits positive
  have areDigits := areDigits_toDigits digits
  have length : (toString digits).length = (Nat.toDigits 10 digits).length := by
    rw [Nat.toString_eq_repr, ← String.length_toList, Nat.toList_repr]
  unfold Decimal.positional
  cases exponent with
  | ofNat places =>
    have isWhole : IsWhole (Nat.toDigits 10 digits ++ List.replicate places '0') :=
      .digits (areDigits.append fun _ => Decimal.isDigit_of_mem_zeros)
        (by rwa [List.head?_append_of_ne_nil _ areDigits.nonempty])
    have isFraction : IsFraction ['.', '0'] := .point ⟨by simp, by simp⟩
    simpa [Decimal.toList_zeros] using IsUnsigned.intro isWhole isFraction .none
  | negSucc less =>
    simp only [length]
    split
    · rename_i inside
      have isWhole : IsWhole ((Nat.toDigits 10 digits).take
          ((Nat.toDigits 10 digits).length - (less + 1))) := by
        refine .digits ⟨List.ne_nil_of_length_pos (by rw [List.length_take]; omega),
          fun c member => areDigits.each c (List.mem_of_mem_take member)⟩ ?_
        rwa [List.head?_take, if_neg (by omega)]
      have isFraction : IsFraction ('.' :: (Nat.toDigits 10 digits).drop
          ((Nat.toDigits 10 digits).length - (less + 1))) :=
        .point ⟨List.ne_nil_of_length_pos (by rw [List.length_drop]; omega),
          fun c member => areDigits.each c (List.mem_of_mem_drop member)⟩
      simpa using IsUnsigned.intro isWhole isFraction .none
    · have isFraction : IsFraction ('.' :: (List.replicate (less + 1 - (Nat.toDigits 10 digits).length)
          '0' ++ Nat.toDigits 10 digits)) :=
        .point ⟨by simp [areDigits.nonempty], List.forall_mem_append.mpr
          ⟨fun _ => Decimal.isDigit_of_mem_zeros, areDigits.each⟩⟩
      simpa [Decimal.toList_zeros] using IsUnsigned.intro .zero isFraction .none

theorem isUnsigned_scientific {decimal : Decimal} (positive : 0 < decimal.digits) :
    IsUnsigned (Decimal.scientific decimal).toList := by
  have notZero := head_toDigits positive
  obtain ⟨c, later, spelled⟩ := List.exists_cons_of_ne_nil
    (areDigits_toDigits decimal.digits).nonempty
  have areDigits := areDigits_toDigits decimal.digits
  rw [spelled] at notZero areDigits
  have isWhole : IsWhole [c] :=
    .digits ⟨by simp, by simpa using areDigits.each c List.mem_cons_self⟩ notZero
  have isFraction : IsFraction (if later = [] then [] else '.' :: later) := by
    split
    · exact .none
    · rename_i some
      exact .point ⟨some, fun d member => areDigits.each d (List.mem_cons_of_mem _ member)⟩
  have isExponent (leading : Int) :
      IsExponent ('e' :: (if leading < 0 then '-' else '+') :: Nat.toDigits 10 leading.natAbs) :=
    .signed (by split <;> simp) (areDigits_toDigits _)
  have spells := IsUnsigned.intro isWhole isFraction (isExponent
    (decimal.exponent + ((toString decimal.digits).length - 1 : Nat)))
  unfold Decimal.scientific
  dsimp only
  generalize decimal.exponent + ((toString decimal.digits).length - 1 : Nat) = leading at spells ⊢
  cases later <;> by_cases below : leading < 0 <;> simpa [spelled, below] using spells

/-- The shortest decimal of a positive double has a digit that is not zero. -/
theorem digits_shortest_pos {mantissa : Nat} {exponent : Int}
    (canonical : Rounding.IsCanonical mantissa exponent) (tie : Tie) :
    0 < (Decimal.shortest tie mantissa exponent).digits := by
  have positive := (Decimal.shortest_roundsTo canonical tie).pos canonical.toIsReduced
  by_contra none
  rw [Decimal.value, Nat.eq_zero_of_not_pos none, Nat.cast_zero, zero_mul] at positive
  exact lt_irrefl _ positive

/-- A finite double is spelled as a number. -/
theorem isNumeral_text {x : Float} (finite : x.isFinite = true) :
    IsNumeral (Decimal.text numberLayout x).toList := by
  have signed (negative : Bool) {magnitude : String} (isUnsigned : IsUnsigned magnitude.toList) :
      IsNumeral (Decimal.signText negative ++ magnitude).toList := by
    rw [String.toList_append]
    cases negative with
    | false => exact .intro false isUnsigned
    | true => exact .intro true isUnsigned
  replace finite : x.toModel.unpack.isFinite = true := finite
  rw [Decimal.text, Double.ofFloat_eq]
  cases unpacked : x.toModel.unpack with
  | infinity | notANumber =>
    rw [unpacked] at finite
    cases finite
  | zero sign =>
    have isFraction : IsFraction ['.', '0'] := .point ⟨by simp, by simp⟩
    exact signed _ (.intro .zero isFraction .none)
  | finite sign mantissa exponent positive =>
    have digits := digits_shortest_pos (Double.isCanonical_of_unpack unpacked) numberLayout.tie
    obtain ⟨less, rfl⟩ := Nat.exists_eq_add_of_lt positive
    refine signed _ ?_
    rw [Decimal.layOut]
    split
    · exact isUnsigned_positional digits
    · exact isUnsigned_scientific digits

end Json

end Stagecraft
