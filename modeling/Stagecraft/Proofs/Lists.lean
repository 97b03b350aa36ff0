/-
This file has what the other files need of lists: elements of two lists that correspond, where a
list begins to differ, lists without repetitions, and texts as lists of characters.
-/

import Mathlib

namespace Stagecraft

namespace Lists

variable {β γ : Type}

/-! ### Correspondence -/

theorem exists_of_mem_left {relation : β → γ → Prop} {first : List β} {second : List γ}
    (related : List.Forall₂ relation first second) {value : β} (member : value ∈ first) :
    ∃ other ∈ second, relation value other := by
  induction related with
  | nil => cases member
  | cons here _ inductionHypothesis =>
    rcases List.mem_cons.mp member with rfl | member
    · exact ⟨_, List.mem_cons_self, here⟩
    · obtain ⟨other, inRest, holds⟩ := inductionHypothesis member
      exact ⟨other, List.mem_cons_of_mem _ inRest, holds⟩

theorem exists_of_mem_right {relation : β → γ → Prop} {first : List β} {second : List γ}
    (related : List.Forall₂ relation first second) {other : γ} (member : other ∈ second) :
    ∃ value ∈ first, relation value other :=
  exists_of_mem_left (List.Forall₂.flip (R := flip relation) related) member

theorem exists_zip_of_mem_right {relation : β → γ → Prop} {first : List β} {second : List γ}
    (related : List.Forall₂ relation first second) {other : γ} (member : other ∈ second) :
    ∃ value, (value, other) ∈ first.zip second ∧ relation value other := by
  induction related with
  | nil => cases member
  | cons here _ inductionHypothesis =>
    rw [List.zip_cons_cons]
    rcases List.mem_cons.mp member with rfl | member
    · exact ⟨_, List.mem_cons_self, here⟩
    · obtain ⟨value, inRest, holds⟩ := inductionHypothesis member
      exact ⟨value, List.mem_cons_of_mem _ inRest, holds⟩

/-- Where the first list is cut, the second one can be cut too. -/
theorem exists_of_append_left {relation : β → γ → Prop} {first later : List β} {whole : List γ}
    (related : List.Forall₂ relation (first ++ later) whole) :
    ∃ before after, whole = before ++ after ∧ List.Forall₂ relation first before ∧
      List.Forall₂ relation later after := by
  induction first generalizing whole with
  | nil => exact ⟨[], whole, rfl, .nil, related⟩
  | cons value rest inductionHypothesis =>
    obtain ⟨other, others, here, further, rfl⟩ := List.forall₂_cons_left_iff.mp related
    obtain ⟨before, after, rfl, inRest, inLater⟩ := inductionHypothesis further
    exact ⟨other :: before, after, rfl, .cons here inRest, inLater⟩

/-- Where a list is made of parts, and another one of parts as long, the pairs are those of the
parts. -/
theorem zip_flatMap {δ : Type} {values : List δ} {first : δ → List β} {second : δ → List γ}
    (alike : ∀ value ∈ values, (first value).length = (second value).length) :
    (values.flatMap first).zip (values.flatMap second) =
      values.flatMap fun value => (first value).zip (second value) := by
  induction values with
  | nil => rfl
  | cons value rest inductionHypothesis =>
    obtain ⟨here, later⟩ := List.forall_mem_cons.mp alike
    rw [List.flatMap_cons, List.flatMap_cons, List.flatMap_cons, List.zip_append here,
      inductionHypothesis later]

theorem flatMap_zip_right {δ : Type} {first : List β} {second : List γ}
    (alike : first.length = second.length) (part : γ → List δ) :
    ((first.zip second).flatMap fun pair => part pair.2) = second.flatMap part := by
  conv_rhs => rw [← List.map_snd_zip alike.ge, List.flatMap_map]

/-- Values that are kept with their keys have some of the keys, in order. -/
theorem sublist_of_filterMap {δ : Type} (keep : β → Option γ) (key : β → δ) (name : γ → δ)
    (named : ∀ value kept, keep value = some kept → name kept = key value) (values : List β) :
    List.Sublist ((values.filterMap keep).map name) (values.map key) := by
  induction values with
  | nil => exact .slnil
  | cons value rest inductionHypothesis =>
    rw [List.filterMap_cons]
    split
    · exact inductionHypothesis.cons _
    · rename_i kept found
      rw [List.map_cons, List.map_cons, named value kept found]
      exact inductionHypothesis.cons_cons _

/-! ### Beginnings -/

section

variable {holds : β → Bool} {first rest : List β}

theorem takeWhile_append (all : ∀ value ∈ first, holds value = true)
    (stops : ∀ value ∈ rest.head?, holds value = false) :
    (first ++ rest).takeWhile holds = first := by
  rw [List.takeWhile_append_of_pos all]
  cases rest with
  | nil => simp
  | cons value rest =>
    have isOutside : ¬ holds value = true := by simp [stops value rfl]
    rw [List.takeWhile_cons_of_neg isOutside, List.append_nil]

theorem dropWhile_append (all : ∀ value ∈ first, holds value = true)
    (stops : ∀ value ∈ rest.head?, holds value = false) :
    (first ++ rest).dropWhile holds = rest := by
  rw [List.dropWhile_append_of_pos all]
  cases rest with
  | nil => rfl
  | cons value rest =>
    have isOutside : ¬ holds value = true := by simp [stops value rfl]
    rw [List.dropWhile_cons_of_neg isOutside]

/-- Once something stops the beginning of a list, what follows the list is not part of it. -/
theorem span_append (stops : first.dropWhile holds ≠ []) (rest : List β) :
    (first ++ rest).takeWhile holds = first.takeWhile holds ∧
      (first ++ rest).dropWhile holds = first.dropWhile holds ++ rest := by
  refine ⟨?_, by simp [List.dropWhile_append, stops]⟩
  rw [List.takeWhile_append, if_neg]
  intro whole
  have parts := congrArg List.length (List.takeWhile_append_dropWhile (p := holds) (l := first))
  rw [List.length_append, whole] at parts
  exact stops (List.eq_nil_of_length_eq_zero (by omega))

end

/-- Lists whose elements agree pairwise in what is made of them give the same list. -/
theorem map_eq_of_forall₂ {δ : Type} {first : β → δ} {second : γ → δ} {values : List β}
    {others : List γ} (related : List.Forall₂ (fun value other => first value = second other) values others) :
    values.map first = others.map second := by
  induction related with
  | nil => rfl
  | cons here _ inductionHypothesis => rw [List.map_cons, List.map_cons, here, inductionHypothesis]

theorem countP_eq_of_forall₂ {relation : β → γ → Prop} {first : List β} {second : List γ}
    {holds : β → Bool} {holds' : γ → Bool} (related : List.Forall₂ relation first second)
    (alike : ∀ value other, relation value other → (holds value = true ↔ holds' other = true)) :
    first.countP holds = second.countP holds' := by
  induction related with
  | nil => rfl
  | cons here _ inductionHypothesis =>
    rw [List.countP_cons, List.countP_cons, inductionHypothesis]
    simp only [alike _ _ here]

theorem isEmpty_eq_of_forall₂ {relation : β → γ → Prop} {first : List β} {second : List γ}
    (related : List.Forall₂ relation first second) : first.isEmpty = second.isEmpty := by
  cases related <;> rfl

theorem forall₂_zip_self {relates : β → γ → Prop} {values : List β} {others : List γ}
    (related : List.Forall₂ relates values others) :
    List.Forall₂ (fun value pair => pair.1 = value ∧ relates value pair.2) values
      (values.zip others) := by
  induction related with
  | nil => exact .nil
  | cons here _ inductionHypothesis => exact .cons ⟨rfl, here⟩ inductionHypothesis

/-- Where two lists correspond, their elements beside a third list do. -/
theorem forall₂_zip_right {δ : Type} {relates : β → γ → Prop} (beside : List δ) {values : List β}
    {others : List γ} (related : List.Forall₂ relates values others) :
    List.Forall₂ (fun pair pair' => pair.1 = pair'.1 ∧ relates pair.2 pair'.2) (beside.zip values)
      (beside.zip others) := by
  induction related generalizing beside with
  | nil => simp
  | cons here _ inductionHypothesis =>
    cases beside with
    | nil => simp
    | cons _ rest => exact .cons ⟨rfl, here⟩ (inductionHypothesis rest)

/-! ### Orders -/

/-- Where what holds of a value holds of all before it, the values of which it holds come first. -/
theorem filter_append_filter (holds : β → Bool) {values : List β}
    (ordered : values.Pairwise fun first second => holds second → holds first) :
    values.filter holds ++ values.filter (fun value => !holds value) = values := by
  induction values with
  | nil => rfl
  | cons value rest inductionHypothesis =>
    obtain ⟨first, later⟩ := List.pairwise_cons.mp ordered
    by_cases here : holds value
    · rw [List.filter_cons_of_pos here, List.filter_cons_of_neg (by simp [here]), List.cons_append,
        inductionHypothesis later]
    · have none : rest.filter holds = [] :=
        List.filter_eq_nil_iff.mpr fun other member further => here (first other member further)
      have all : rest.filter (fun value => !holds value) = rest :=
        List.filter_eq_self.mpr fun other member => by
          simpa using fun further => here (first other member further)
      rw [List.filter_cons_of_neg here, List.filter_cons_of_pos (by simp [here]), none, all]
      rfl

/-- Sorting is stable: values that may stay in their order stay in it. -/
theorem filter_mergeSort {precedes : β → β → Bool}
    (transitive : ∀ first second third, precedes first second → precedes second third →
      precedes first third)
    (total : ∀ first second, precedes first second || precedes second first) (holds : β → Bool)
    {values : List β} (ordered : (values.filter holds).Pairwise fun first second =>
      precedes first second) :
    (values.mergeSort precedes).filter holds = values.filter holds := by
  have kept := (List.sublist_mergeSort transitive total ordered
    List.filter_sublist).filter holds
  simp only [List.filter_filter, Bool.and_self] at kept
  exact (kept.eq_of_length ((List.mergeSort_perm values precedes).filter holds).length_eq.symm).symm

theorem foldl_max_le_iff {values : List Nat} {first bound : Nat} :
    values.foldl max first ≤ bound ↔ first ≤ bound ∧ ∀ value ∈ values, value ≤ bound := by
  induction values generalizing first with
  | nil => simp
  | cons value rest inductionHypothesis =>
    rw [List.foldl_cons, inductionHypothesis, max_le_iff, List.forall_mem_cons, and_assoc]

/-! ### Repetitions -/

theorem mem_of_mem_eraseDups [BEq β] {values : List β} {value : β}
    (member : value ∈ values.eraseDups) : value ∈ values := by
  induction counted : values.length using Nat.strong_induction_on generalizing values with
  | _ count inductionHypothesis =>
    cases values with
    | nil => exact member
    | cons first rest =>
      rw [List.eraseDups_cons] at member
      rcases List.mem_cons.mp member with rfl | member
      · exact List.mem_cons_self
      · have fewer : (rest.filter fun other => !other == first).length < count := by
          rw [← counted, List.length_cons]
          exact Nat.lt_succ_of_le (List.length_filter_le _ _)
        have kept := inductionHypothesis _ fewer member rfl
        exact List.mem_cons_of_mem _ (List.mem_of_mem_filter kept)

/-- A value that counts as equal to no other one of a list is not dropped from it. -/
theorem mem_eraseDups_of_apart [BEq β] {values : List β} {value : β} (member : value ∈ values)
    (apart : ∀ other ∈ values, (value == other) = true → other = value) :
    value ∈ values.eraseDups := by
  induction counted : values.length using Nat.strong_induction_on generalizing values with
  | _ count inductionHypothesis =>
    cases values with
    | nil => cases member
    | cons first rest =>
      rw [List.eraseDups_cons, List.mem_cons, eq_comm]
      refine or_iff_not_imp_left.mpr fun notFirst => ?_
      have inRest : value ∈ rest := (List.mem_cons.mp member).resolve_left (Ne.symm notFirst)
      have differs : (value == first) = false :=
        Bool.eq_false_iff.mpr fun same => notFirst (apart first List.mem_cons_self same)
      have fewer : (rest.filter fun other => !other == first).length < count := by
        rw [← counted, List.length_cons]
        exact Nat.lt_succ_of_le (List.length_filter_le _ _)
      exact inductionHypothesis _ fewer (List.mem_filter.mpr ⟨inRest, by rw [differs]; rfl⟩)
        (fun other inFiltered => apart other
          (List.mem_cons_of_mem _ (List.mem_of_mem_filter inFiltered))) rfl

theorem nodup_eraseDups [BEq β] [LawfulBEq β] (values : List β) : values.eraseDups.Nodup := by
  induction counted : values.length using Nat.strong_induction_on generalizing values with
  | _ count inductionHypothesis =>
    cases values with
    | nil => exact List.nodup_nil
    | cons value rest =>
      rw [List.eraseDups_cons, List.nodup_cons]
      have fewer : (rest.filter fun other => !other == value).length < count := by
        rw [← counted, List.length_cons]
        exact Nat.lt_succ_of_le (List.length_filter_le _ _)
      refine ⟨?_, inductionHypothesis _ fewer _ rfl⟩
      rw [List.mem_eraseDups]
      simp

theorem eraseDups_concat [BEq β] [LawfulBEq β] (values : List β) (last : β) :
    (values ++ [last]).eraseDups =
      if values.contains last then values.eraseDups else values.eraseDups ++ [last] := by
  rw [List.eraseDups_append, List.removeAll, List.filter_singleton, ← List.contains]
  cases values.contains last <;> simp [List.eraseDups_cons]

/-- A list without its repetitions is in the order in which the list has its values first. -/
theorem pairwise_idxOf_eraseDups [BEq β] [LawfulBEq β] (values : List β) :
    values.eraseDups.Pairwise fun first second => values.idxOf first < values.idxOf second := by
  induction values using List.reverseRecOn with
  | nil => simp
  | append_singleton values last inductionHypothesis =>
    have earlier : values.eraseDups.Pairwise fun first second =>
        (values ++ [last]).idxOf first < (values ++ [last]).idxOf second :=
      inductionHypothesis.imp_of_mem fun {first second} inFirst inSecond less => by
        rwa [List.idxOf_append_of_mem (List.mem_eraseDups.mp inFirst),
          List.idxOf_append_of_mem (List.mem_eraseDups.mp inSecond)]
    rw [eraseDups_concat]
    split
    · exact earlier
    · rename_i fresh
      rw [List.pairwise_append]
      refine ⟨earlier, List.pairwise_singleton _ _, fun value member other isLast => ?_⟩
      obtain rfl := List.mem_singleton.mp isLast
      have before := List.mem_eraseDups.mp member
      rw [List.idxOf_append_of_mem before, List.idxOf_append_of_notMem (by simpa using fresh)]
      exact (List.idxOf_lt_length_of_mem before).trans_le (Nat.le_add_right _ _)

/-- In a list without repetitions an element occurs in one place only. -/
theorem eq_of_nodup_append {before after : List β} {value : β}
    (once : (before ++ value :: after).Nodup) : value ∉ before ∧ value ∉ after := by
  rw [List.nodup_append'] at once
  obtain ⟨-, onceAfter, apart⟩ := once
  exact ⟨fun member => apart member List.mem_cons_self, (List.nodup_cons.mp onceAfter).1⟩

/-- Where two lists are put together, an element is in the first one or in the second one. -/
theorem split_append {first second before after : List β} {value : β}
    (split : first ++ second = before ++ value :: after) :
    (∃ rest, first = before ++ value :: rest ∧ after = rest ++ second) ∨
      ∃ between, before = first ++ between ∧ second = between ++ value :: after := by
  rcases List.append_eq_append_iff.mp split with
    ⟨between, isBefore, isSecond⟩ | ⟨tail, isFirst, isTail⟩
  · exact .inr ⟨between, isBefore, isSecond⟩
  · cases tail with
    | nil => exact .inr ⟨[], by rw [isFirst, List.append_nil, List.append_nil], isTail.symm⟩
    | cons head rest =>
      obtain ⟨rfl, isAfter⟩ := List.cons.inj isTail
      exact .inl ⟨rest, isFirst, isAfter⟩

/-! ### Texts -/

theorem toList_pushn (c : Char) (count : Nat) :
    ("".pushn c count).toList = List.replicate count c := by
  rw [String.pushn_eq_repeat_push]
  induction count with
  | zero => rfl
  | succ count inductionHypothesis =>
    rw [Nat.repeat, String.toList_push, inductionHypothesis, ← List.replicate_succ']

end Lists

end Stagecraft
