/-
This file says that a written document reads back. It holds of every document in which numbers are
spelled as such and nothing is unreadable. The text of a value is longer than the values inside it,
so a reader with more fuel than characters has enough for each of them; and where a value ends, the
document ends too or goes on with a mark that no value contains.
-/

import Stagecraft.Json.Decoding
import Stagecraft.Proofs.Json.Numerals
import Stagecraft.Proofs.Json.Strings

namespace Stagecraft

namespace Json

open Reader

/-! ### Documents -/

mutual

/-- Every number is spelled as one, and is one of the doubles; nothing is unreadable. -/
def IsProper : Json → Prop
  | .number spelling => IsNumeral spelling.toList ∧ (spellingToFloat? spelling).isSome
  | .list items => AreProper items
  | .object members => AreProperMembers members
  | .unreadable => False
  | .null | .bool _ | .text _ => True

def AreProper : List Json → Prop
  | [] => True
  | item :: rest => IsProper item ∧ AreProper rest

def AreProperMembers : List (String × Json) → Prop
  | [] => True
  | (_, value) :: rest => IsProper value ∧ AreProperMembers rest

end

mutual

/-- How many lists and objects are nested in one another. -/
def depth : Json → Nat
  | .list items => depthAll items + 1
  | .object members => depthMembers members + 1
  | _ => 0

def depthAll : List Json → Nat
  | [] => 0
  | item :: rest => max (depth item) (depthAll rest)

def depthMembers : List (String × Json) → Nat
  | [] => 0
  | (_, value) :: rest => max (depth value) (depthMembers rest)

end

mutual

/-- A proper document can be taken up whole, if it is not nested too deeply. -/
theorem isReadable_of_isProper : (json : Json) → (budget : Nat) → json.IsProper →
    json.depth ≤ budget → isReadable budget json = true
  | .null, _ | .bool _, _ | .text _, _ => fun _ _ => by rw [isReadable]
  | .number spelling, _ => fun proper _ => by
    rw [isReadable]
    exact proper.2
  | .list items, 0 => fun _ shallow => by
    rw [depth] at shallow
    omega
  | .list items, budget + 1 => fun proper shallow => by
    rw [depth] at shallow
    rw [isReadable]
    exact areReadable_of_areProper items budget proper (by omega)
  | .object members, 0 => fun _ shallow => by
    rw [depth] at shallow
    omega
  | .object members, budget + 1 => fun proper shallow => by
    rw [depth] at shallow
    rw [isReadable]
    exact areReadableMembers_of_areProperMembers members budget proper (by omega)
  | .unreadable, _ => fun proper _ => by cases proper

theorem areReadable_of_areProper : (items : List Json) → (budget : Nat) → AreProper items →
    depthAll items ≤ budget → areReadable budget items = true
  | [], _ => fun _ _ => by rw [areReadable]
  | item :: rest, budget => fun proper shallow => by
    rw [depthAll, max_le_iff] at shallow
    rw [areReadable, isReadable_of_isProper item budget proper.1 shallow.1,
      areReadable_of_areProper rest budget proper.2 shallow.2, Bool.and_true]

theorem areReadableMembers_of_areProperMembers : (members : List (String × Json)) →
    (budget : Nat) → AreProperMembers members → depthMembers members ≤ budget →
    areReadableMembers budget members = true
  | [], _ => fun _ _ => by rw [areReadableMembers]
  | (_, value) :: rest, budget => fun proper shallow => by
    rw [depthMembers, max_le_iff] at shallow
    rw [areReadableMembers, isReadable_of_isProper value budget proper.1 shallow.1,
      areReadableMembers_of_areProperMembers rest budget proper.2 shallow.2, Bool.and_true]

end

/-! ### Texts -/

/-- The items of a list as they stand between its brackets. -/
def itemsText (items : List Json) : List Char :=
  (String.intercalate "," (compactItems items)).toList

/-- The members of an object as they stand between its braces. -/
def membersText (members : List (String × Json)) : List Char :=
  (String.intercalate "," (compactMembers members)).toList

theorem toList_compact_list (items : List Json) :
    (compact (.list items)).toList = '[' :: (itemsText items ++ [']']) := by
  rw [compact, bracket]
  simp [itemsText]

theorem toList_compact_object (members : List (String × Json)) :
    (compact (.object members)).toList = '{' :: (membersText members ++ ['}']) := by
  rw [compact, bracket]
  simp [membersText, openBrace, closeBrace]

theorem itemsText_one (item : Json) : itemsText [item] = item.compact.toList := by
  simp [itemsText, compactItems]

theorem itemsText_more (item : Json) {later : List Json} (more : later ≠ []) :
    itemsText (item :: later) = item.compact.toList ++ ',' :: itemsText later := by
  obtain ⟨next, rest, rfl⟩ := List.exists_cons_of_ne_nil more
  simp [itemsText, compactItems]

theorem membersText_one (key : String) (item : Json) :
    membersText [(key, item)] = '"' :: (escapes key ++ '"' :: ':' :: item.compact.toList) := by
  simp [membersText, compactMembers, toList_quote]

theorem membersText_more (key : String) (item : Json) {later : List (String × Json)}
    (more : later ≠ []) : membersText ((key, item) :: later) =
      '"' :: (escapes key ++ '"' :: ':' :: (item.compact.toList ++ ',' :: membersText later)) := by
  obtain ⟨next, rest, rfl⟩ := List.exists_cons_of_ne_nil more
  simp [membersText, compactMembers, toList_quote]

theorem exists_cons_membersText {members : List (String × Json)} (nonempty : members ≠ []) :
    ∃ tail, membersText members = '"' :: tail := by
  obtain ⟨⟨key, item⟩, later, rfl⟩ := List.exists_cons_of_ne_nil nonempty
  rcases eq_or_ne later [] with rfl | more
  · exact ⟨_, membersText_one key item⟩
  · exact ⟨_, membersText_more key item more⟩

/-- A character with which a value can begin. -/
def Begins (c : Char) : Prop :=
  isBlank c = false ∧ c ≠ ']'

theorem exists_cons_of_isNumeral {spelling : List Char} (isNumeral : IsNumeral spelling) :
    ∃ c tail, spelling = c :: tail ∧ (c = '-' ∨ c.isDigit = true) := by
  obtain ⟨negative, isUnsigned⟩ := isNumeral
  obtain ⟨c, tail, rfl, digit⟩ := isUnsigned.exists_cons
  cases negative with
  | false => exact ⟨c, tail, rfl, .inr digit⟩
  | true => exact ⟨'-', c :: tail, rfl, .inl rfl⟩

theorem begins_of_number {c : Char} (first : c = '-' ∨ c.isDigit = true) :
    Begins c ∧ c ∉ ['[', '{', 'n', 't', 'f', '"'] := by
  rcases first with rfl | digit
  · exact ⟨⟨rfl, by decide⟩, by decide⟩
  · have apart {other : Char} (noDigit : other.isDigit = false) : c ≠ other := by
      rintro rfl
      rw [digit] at noDigit
      cases noDigit
    refine ⟨⟨?_, apart rfl⟩, ?_⟩
    · have notBlank : c ≠ ' ' ∧ c ≠ '\n' ∧ c ≠ '\t' ∧ c ≠ '\r' :=
        ⟨apart rfl, apart rfl, apart rfl, apart rfl⟩
      simp [isBlank, notBlank]
    · simp only [List.mem_cons, List.not_mem_nil, or_false, not_or]
      exact ⟨apart rfl, apart rfl, apart rfl, apart rfl, apart rfl, apart rfl⟩

theorem exists_cons_compact {json : Json} (proper : json.IsProper) :
    ∃ c tail, json.compact.toList = c :: tail ∧ Begins c := by
  cases json with
  | null => exact ⟨'n', ['u', 'l', 'l'], by rw [compact]; rfl, rfl, by decide⟩
  | bool value =>
    cases value with
    | true => exact ⟨'t', ['r', 'u', 'e'], by rw [compact]; rfl, rfl, by decide⟩
    | false => exact ⟨'f', ['a', 'l', 's', 'e'], by rw [compact]; rfl, rfl, by decide⟩
  | number spelling =>
    obtain ⟨c, tail, same, first⟩ := exists_cons_of_isNumeral proper.1
    exact ⟨c, tail, by rw [compact, same], (begins_of_number first).1⟩
  | text value => exact ⟨'"', _, by rw [compact, toList_quote], rfl, by decide⟩
  | list items => exact ⟨'[', _, toList_compact_list items, rfl, by decide⟩
  | object members => exact ⟨'{', _, toList_compact_object members, rfl, by decide⟩
  | unreadable => cases proper

theorem exists_cons_itemsText {items : List Json} (nonempty : items ≠ [])
    (proper : AreProper items) : ∃ c tail, itemsText items = c :: tail ∧ Begins c := by
  obtain ⟨item, later, rfl⟩ := List.exists_cons_of_ne_nil nonempty
  obtain ⟨c, tail, same, begins⟩ := exists_cons_compact proper.1
  rcases eq_or_ne later [] with rfl | more
  · exact ⟨c, tail, by rw [itemsText_one, same], begins⟩
  · exact ⟨c, _, by rw [itemsText_more item more, same, List.cons_append], begins⟩

/-! ### Values -/

section

variable {fuel : Nat} {c : Char} {rest : List Char}

theorem skipBlanks_cons (notBlank : isBlank c = false) : skipBlanks (c :: rest) = c :: rest := by
  rw [skipBlanks, List.dropWhile_cons_of_neg (by simp [notBlank])]

theorem value_scalar (notBlank : isBlank c = false) (notList : c ≠ '[') (notObject : c ≠ '{') :
    value (fuel + 1) (c :: rest) = scalar (c :: rest) := by
  rw [value, skipBlanks_cons notBlank]
  split
  · rename_i same
    exact absurd (List.cons.inj same).1 notList
  · rename_i same
    exact absurd (List.cons.inj same).1 notObject
  · rfl

theorem value_list (begins : Begins c) :
    value (fuel + 1) ('[' :: c :: rest) =
      (items fuel (c :: rest)).map fun found => (.list found.1, found.2) := by
  have opened : skipBlanks ('[' :: c :: rest) = '[' :: c :: rest := skipBlanks_cons rfl
  have inside : skipBlanks (c :: rest) = c :: rest := skipBlanks_cons begins.1
  simp only [value, opened, inside]
  split
  · rename_i same
    exact absurd (List.cons.inj same).1 begins.2
  · rfl

theorem value_object :
    value (fuel + 1) ('{' :: '"' :: rest) =
      (members fuel ('"' :: rest)).map fun found => (ofMembers found.1, found.2) := by
  have opened : skipBlanks ('{' :: '"' :: rest) = '{' :: '"' :: rest := skipBlanks_cons rfl
  have inside : skipBlanks ('"' :: rest) = '"' :: rest := skipBlanks_cons rfl
  simp only [value, opened, inside]
  rfl

/-- An item that ends its list. -/
theorem items_last {chars : List Char} {item : Json}
    (read : value fuel chars = some (item, ']' :: rest)) :
    items (fuel + 1) chars = some ([item], rest) := by
  rw [items, read]
  simp [skipBlanks_cons, isBlank]

theorem items_next {chars : List Char} {item : Json}
    (read : value fuel chars = some (item, ',' :: rest)) :
    items (fuel + 1) chars = (items fuel rest).map fun found => (item :: found.1, found.2) := by
  rw [items, read]
  cases found : items fuel rest <;> simp [skipBlanks_cons, isBlank, found]

theorem members_last {key : String} {chars : List Char} {item : Json}
    (read : value fuel chars = some (item, '}' :: rest)) :
    members (fuel + 1) ('"' :: (escapes key ++ '"' :: ':' :: chars)) =
      some ([(some key, item)], rest) := by
  rw [members, skipBlanks_cons rfl]
  simp [string_escapes, skipBlanks_cons, isBlank, read]

theorem members_next {key : String} {chars : List Char} {item : Json}
    (read : value fuel chars = some (item, ',' :: rest)) :
    members (fuel + 1) ('"' :: (escapes key ++ '"' :: ':' :: chars)) =
      (members fuel rest).map fun found => ((some key, item) :: found.1, found.2) := by
  rw [members, skipBlanks_cons rfl]
  cases found : members fuel rest <;>
    simp [string_escapes, skipBlanks_cons, isBlank, read, found]

theorem scalar_quote (text : String) :
    scalar ('"' :: (escapes text ++ '"' :: rest)) = some (.text text, rest) := by
  simp [scalar, string_escapes]

theorem scalar_numeral {spelling : String} (isNumeral : IsNumeral spelling.toList)
    (closes : Closes rest) :
    scalar (spelling.toList ++ rest) = some (.number spelling, rest) := by
  have read := number_append isNumeral closes
  obtain ⟨c, tail, same, first⟩ := exists_cons_of_isNumeral isNumeral
  have other := (begins_of_number first).2
  rw [String.ofList_toList] at read
  rw [same, List.cons_append] at read ⊢
  unfold scalar
  split
  case h_5 => rw [read]; rfl
  all_goals
    rename_i clash
    rw [(List.cons.inj clash).1] at other
    exact absurd other (by decide)

end

theorem ofMembers_some (members : List (String × Json)) :
    ofMembers (members.map fun (key, value) => (some key, value)) = .object members := by
  have kept : members.mapM some = some members := by
    induction members with
    | nil => rfl
    | cons member rest inductionHypothesis =>
      simp [inductionHypothesis]
  simp [ofMembers, Function.comp_def, kept]


/-! ### Written values -/

theorem closes_cons {mark : Char} (isMark : mark = ',' ∨ mark = ']' ∨ mark = '}')
    (rest : List Char) : Closes (mark :: rest) :=
  fun _ first => Option.some.inj first ▸ isMark

mutual

/-- A proper value is read to its end. -/
theorem value_compact : (json : Json) → json.IsProper → (fuel : Nat) → (rest : List Char) →
    json.compact.toList.length < fuel → Closes rest →
    value fuel (json.compact.toList ++ rest) = some (json, rest)
  | _, _, 0, _ => fun enough => absurd enough (Nat.not_lt_zero _)
  | .null, _, fuel + 1, rest => fun _ _ => by
    rw [compact]
    exact value_scalar rfl (by decide) (by decide)
  | .bool true, _, fuel + 1, rest => fun _ _ => by
    rw [compact]
    exact value_scalar rfl (by decide) (by decide)
  | .bool false, _, fuel + 1, rest => fun _ _ => by
    rw [compact]
    exact value_scalar rfl (by decide) (by decide)
  | .number spelling, proper, fuel + 1, rest => fun _ closes => by
    have read := scalar_numeral proper.1 closes
    obtain ⟨c, tail, same, first⟩ := exists_cons_of_isNumeral proper.1
    obtain ⟨begins, other⟩ := begins_of_number first
    rw [compact]
    rw [same, List.cons_append] at read ⊢
    rw [value_scalar begins.1 (by rintro rfl; simp at other) (by rintro rfl; simp at other), read]
  | .text content, _, fuel + 1, rest => fun _ _ => by
    rw [compact, toList_quote, List.cons_append, List.append_assoc,
      value_scalar rfl (by decide) (by decide)]
    exact scalar_quote content
  | .list items, proper, fuel + 1, rest => fun enough _ => by
    rw [toList_compact_list] at enough ⊢
    simp only [List.length_cons, List.length_append, List.length_nil] at enough
    rcases eq_or_ne items [] with rfl | nonempty
    · rfl
    · have read := items_compact items nonempty proper fuel rest (by omega)
      obtain ⟨c, tail, same, begins⟩ := exists_cons_itemsText nonempty proper
      rw [List.cons_append, List.append_assoc, List.singleton_append]
      rw [same, List.cons_append] at read ⊢
      rw [value_list begins, read, Option.map_some]
  | .object members, proper, fuel + 1, rest => fun enough _ => by
    rw [toList_compact_object] at enough ⊢
    simp only [List.length_cons, List.length_append, List.length_nil] at enough
    rcases eq_or_ne members [] with rfl | nonempty
    · rfl
    · have read := members_compact members nonempty proper fuel rest (by omega)
      obtain ⟨tail, same⟩ := exists_cons_membersText nonempty
      rw [List.cons_append, List.append_assoc, List.singleton_append]
      rw [same, List.cons_append] at read ⊢
      rw [value_object, read, Option.map_some, ofMembers_some]
  | .unreadable, proper, _, _ => by cases proper

theorem items_compact : (items : List Json) → items ≠ [] → AreProper items → (fuel : Nat) →
    (rest : List Char) → (itemsText items).length + 1 < fuel →
    Reader.items fuel (itemsText items ++ ']' :: rest) = some (items, rest)
  | [], nonempty, _, _, _ => absurd rfl nonempty
  | _, _, _, 0, _ => fun enough => absurd enough (Nat.not_lt_zero _)
  | item :: later, _, proper, fuel + 1, rest => fun enough => by
    rcases eq_or_ne later [] with rfl | more
    · rw [itemsText_one] at enough ⊢
      exact items_last (value_compact item proper.1 fuel (']' :: rest) (by omega)
        (closes_cons (by simp) rest))
    · rw [itemsText_more item more] at enough ⊢
      rw [List.length_append, List.length_cons] at enough
      rw [List.append_assoc, List.cons_append, items_next (value_compact item proper.1 fuel
          (',' :: (itemsText later ++ ']' :: rest)) (by omega) (closes_cons (by simp) _)),
        items_compact later more proper.2 fuel rest (by omega), Option.map_some]

theorem members_compact : (members : List (String × Json)) → members ≠ [] →
    AreProperMembers members → (fuel : Nat) → (rest : List Char) →
    (membersText members).length + 1 < fuel →
    Reader.members fuel (membersText members ++ '}' :: rest) =
      some (members.map fun (key, value) => (some key, value), rest)
  | [], nonempty, _, _, _ => absurd rfl nonempty
  | _, _, _, 0, _ => fun enough => absurd enough (Nat.not_lt_zero _)
  | (key, item) :: later, _, proper, fuel + 1, rest => fun enough => by
    rcases eq_or_ne later [] with rfl | more
    · rw [membersText_one] at enough ⊢
      simp only [List.length_cons, List.length_append] at enough
      simp only [List.cons_append, List.append_assoc]
      exact members_last (value_compact item proper.1 fuel ('}' :: rest) (by omega)
        (closes_cons (by simp) rest))
    · rw [membersText_more key item more] at enough ⊢
      simp only [List.length_cons, List.length_append] at enough
      simp only [List.cons_append, List.append_assoc]
      rw [members_next (value_compact item proper.1 fuel
          (',' :: (membersText later ++ '}' :: rest)) (by omega) (closes_cons (by simp) _)),
        members_compact later more proper.2 fuel rest (by omega), Option.map_some, List.map_cons]

end

/-- A written document reads back. -/
theorem parse_compact {json : Json} (proper : json.IsProper) : parse? json.compact = some json := by
  have read := value_compact json proper (json.compact.toList.length + 1) [] (Nat.lt_succ_self _)
    (by simp [Closes])
  rw [List.append_nil] at read
  rw [parse?, read]
  rfl

end Json

end Stagecraft
