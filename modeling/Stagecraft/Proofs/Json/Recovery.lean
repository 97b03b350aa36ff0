/-
This file says when a decoder recovers a value from a document: the document is proper, and the
decoder finds the value whenever as many containers may be opened as the document nests. Texts,
truth values, lists and absent values are recovered, and a double is if its spelling stands for it.
-/

import Stagecraft.Proofs.Json.Reading

namespace Stagecraft

namespace Json

/-! ### Values and containers -/

@[simp]
theorem isProper_null : null.IsProper :=
  trivial

@[simp]
theorem isProper_bool (value : Bool) : (bool value).IsProper :=
  trivial

@[simp]
theorem isProper_text (value : String) : (text value).IsProper :=
  trivial

theorem isProper_list {items : List Json} :
    (list items).IsProper ↔ ∀ item ∈ items, item.IsProper := by
  rw [IsProper]
  induction items with
  | nil => simp [AreProper]
  | cons item rest inductionHypothesis =>
    rw [AreProper, inductionHypothesis, List.forall_mem_cons]

theorem isProper_object {members : List (String × Json)} :
    (object members).IsProper ↔ ∀ member ∈ members, member.2.IsProper := by
  rw [IsProper]
  induction members with
  | nil => simp [AreProperMembers]
  | cons member rest inductionHypothesis =>
    rw [AreProperMembers, inductionHypothesis, List.forall_mem_cons]

theorem depthAll_le_iff {items : List Json} {budget : Nat} :
    depthAll items ≤ budget ↔ ∀ item ∈ items, item.depth ≤ budget := by
  induction items with
  | nil => simp [depthAll]
  | cons item rest inductionHypothesis =>
    rw [depthAll, max_le_iff, inductionHypothesis, List.forall_mem_cons]

theorem depthMembers_le_iff {members : List (String × Json)} {budget : Nat} :
    depthMembers members ≤ budget ↔ ∀ member ∈ members, member.2.depth ≤ budget := by
  induction members with
  | nil => simp [depthMembers]
  | cons member rest inductionHypothesis =>
    rw [depthMembers, max_le_iff, inductionHypothesis, List.forall_mem_cons]

/-- To take up a list, one more container is opened than for its items. -/
theorem depth_list_le_iff {items : List Json} {budget : Nat} :
    (list items).depth ≤ budget ↔
      ∃ inner, budget = inner + 1 ∧ ∀ item ∈ items, item.depth ≤ inner := by
  simp only [depth, ← depthAll_le_iff]
  constructor
  · intro enough
    exact ⟨budget - 1, by omega, by omega⟩
  · rintro ⟨inner, rfl, enough⟩
    omega

theorem depth_object_le_iff {members : List (String × Json)} {budget : Nat} :
    (object members).depth ≤ budget ↔
      ∃ inner, budget = inner + 1 ∧ ∀ member ∈ members, member.2.depth ≤ inner := by
  simp only [depth, ← depthMembers_le_iff]
  constructor
  · intro enough
    exact ⟨budget - 1, by omega, by omega⟩
  · rintro ⟨inner, rfl, enough⟩
    omega

/-! ### Members -/

section

variable {front members : List (String × Json)} {name : String}

theorem lookup_behind (other : ∀ member ∈ front, member.1 ≠ name) :
    (front ++ members).lookup name = members.lookup name := by
  have absent : front.lookup name = none :=
    List.lookup_eq_none_iff.mpr fun member isFront => by simpa using (other member isFront).symm
  rw [List.lookup_append, absent, Option.none_or]

theorem filter_behind (other : ∀ member ∈ front, member.1 ≠ name) :
    (front ++ members).filter (·.1 == name) = members.filter (·.1 == name) := by
  have absent : front.filter (·.1 == name) = [] :=
    List.filter_eq_nil_iff.mpr fun member isFront => by simpa using other member isFront
  rw [List.filter_append, absent, List.nil_append]

/-- What is read from fields is the same behind members of other names. -/
theorem bind_fields_behind {β : Type} {names : List String} {budget : Nat} {next : Fields → Option β}
    (other : ∀ name ∈ names, ∀ member ∈ front, member.1 ≠ name)
    (alike : next ⟨budget, front ++ members⟩ = next ⟨budget, members⟩) :
    (Parts.fields? ⟨budget, .inr (front ++ members)⟩ names).bind next =
      (Parts.fields? ⟨budget, .inr members⟩ names).bind next := by
  have distinct : Fields.areDistinct ⟨budget, front ++ members⟩ names =
      Fields.areDistinct ⟨budget, members⟩ names := by
    rw [Bool.eq_iff_iff, Fields.areDistinct, Fields.areDistinct, List.all_eq_true,
      List.all_eq_true]
    exact forall₂_congr fun name member => by rw [filter_behind (other name member)]
  simp only [Parts.fields?, Fields.distinct?, distinct]
  split
  · exact alike
  · rfl

end

namespace Fields

variable (fields : Fields)

/-- Members of which no two have a name in common can be told apart by any names. -/
theorem distinct?_of_nodup (nodup : (fields.members.map Prod.fst).Nodup) (names : List String) :
    fields.distinct? names = some fields := by
  refine if_pos (List.all_eq_true.mpr fun name _ => decide_eq_true ?_)
  have once := List.nodup_iff_count_le_one.mp nodup name
  rwa [List.count_eq_countP, List.countP_map, List.countP_eq_length_filter] at once

theorem areReadableBut_of_isProper (proper : ∀ member ∈ fields.members, member.2.IsProper)
    (depths : ∀ member ∈ fields.members, member.2.depth ≤ fields.budget) (names : List String) :
    fields.areReadableBut names = true := by
  refine List.all_eq_true.mpr fun member isMember => ?_
  have readable := isReadable_of_isProper member.2 fields.budget (proper member isMember)
    (depths member isMember)
  simp only [readable, Bool.or_true]

end Fields

/-! ### Numbers -/

/-- The double is what its spelling in a document stands for. -/
def Survives (x : Float) : Prop :=
  (ofFloat x).toFloat? = some x

instance (x : Float) : Decidable (Survives x) :=
  inferInstanceAs (Decidable (_ = _))

theorem Survives.isFinite {x : Float} (survives : Survives x) : x.isFinite = true := by
  by_contra infinite
  rw [Survives, ofFloat, if_neg infinite] at survives
  cases survives

theorem Survives.isProper {x : Float} (survives : Survives x) : (ofFloat x).IsProper := by
  have finite := survives.isFinite
  rw [Survives, ofFloat, if_pos finite] at survives
  rw [ofFloat, if_pos finite]
  exact ⟨isNumeral_text finite, Option.isSome_iff_exists.mpr ⟨x, survives⟩⟩

/-! ### Decoders -/

/-- The document is proper, and the decoder finds the value in it. -/
structure Decoder.Recovers {β : Type} (decode : Decoder β) (json : Json) (value : β) : Prop where
  proper : json.IsProper
  decodes : ∀ budget, json.depth ≤ budget → decode budget json = some value

namespace Decoder

variable {β : Type} {decode : Decoder β}

theorem recovers_text (value : String) : Recovers text (.text value) value :=
  ⟨trivial, fun _ _ => rfl⟩

theorem recovers_float {x : Float} (survives : Survives x) : Recovers float (ofFloat x) x :=
  ⟨survives.isProper, fun _ _ => survives⟩

/-- The members of an object may open one container less than the object. -/
theorem recovers_object {members : List (String × Json)} {value : β}
    (proper : ∀ member ∈ members, member.2.IsProper)
    (decodes : ∀ inner, (∀ member ∈ members, member.2.depth ≤ inner) →
      decode (inner + 1) (.object members) = some value) :
    Recovers decode (.object members) value where
  proper := isProper_object.mpr proper
  decodes _ shallow := by
    obtain ⟨inner, rfl, depths⟩ := depth_object_le_iff.mp shallow
    exact decodes inner depths

theorem mapM_map {toJson : β → Json} {read : Json → Option β} {values : List β}
    (each : ∀ value ∈ values, read (toJson value) = some value) :
    (values.map toJson).mapM read = some values := by
  induction values with
  | nil => rfl
  | cons value rest inductionHypothesis =>
    obtain ⟨here, later⟩ := List.forall_mem_cons.mp each
    rw [List.map_cons, List.mapM_cons, here, inductionHypothesis later]
    rfl

theorem recovers_list {toJson : β → Json} {values : List β}
    (each : ∀ value ∈ values, Recovers decode (toJson value) value) :
    Recovers (list decode) (.list (values.map toJson)) values where
  proper :=
    isProper_list.mpr (List.forall_mem_map.mpr fun value member => (each value member).proper)
  decodes budget shallow := by
    obtain ⟨inner, rfl, depths⟩ := depth_list_le_iff.mp shallow
    rw [List.forall_mem_map] at depths
    exact mapM_map fun value member => (each value member).decodes inner (depths value member)

/-- A choice with contents is recovered if the contents are. -/
theorem Recovers.variant {γ : Type} {content : Decoder γ} {json : Json} {part : γ} {name : String}
    {make : γ → β} (recovers : Recovers content json part)
    (reads : ∀ inner, decode (inner + 1) (.variant name json) = (content inner json).map make) :
    Recovers decode (.variant name json) (make part) := by
  refine recovers_object (by simp [recovers.proper]) fun inner depths => (reads inner).trans ?_
  rw [recovers.decodes inner (depths _ List.mem_cons_self), Option.map_some]

theorem recovers_null : Recovers (nullable decode) .null none :=
  ⟨trivial, fun _ _ => rfl⟩

theorem Recovers.nullable {json : Json} {value : β} (recovers : Recovers decode json value)
    (given : json ≠ .null) : Recovers (nullable decode) json (some value) where
  proper := recovers.proper
  decodes budget shallow := by
    have decoded := recovers.decodes budget shallow
    unfold Decoder.nullable
    split
    · exact absurd rfl given
    · rw [decoded, Option.map_some]

end Decoder

end Json

end Stagecraft
