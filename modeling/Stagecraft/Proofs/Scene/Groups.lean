/-
This file describes walks through groups. A walk meets the objects of a group and of the groups
nested in it, and it fails where one of them is not there or where a group is nested in itself. So
all walks succeed exactly when every group lists only what there is and none reaches itself.
-/

import Stagecraft.Proofs.Lists
import Stagecraft.Proofs.Outcome
import Stagecraft.Scene.Membership

namespace Stagecraft

variable {α : Type}

namespace Group

/-! ### Members -/

/-- What a walk through a group met: its own objects and what the walks through its nested groups
met. -/
theorem walk_eq_ok {isObject : String → Bool} {available : List Group} {path : List String}
    {name : String} {met : List String}
    (walked : walk (α := α) isObject available path name = .ok met) :
    ∃ (group : Group) (nested : List (List String)), find? available name = some group ∧
      (∀ id ∈ group.objects, isObject id) ∧
      List.Forall₂ (fun inner result =>
        walk (α := α) isObject (others available name) (name :: path) inner = .ok result)
        group.groups nested ∧
      met = group.objects ++ nested.flatten := by
  rw [walk] at walked
  split at walked
  · cases walked
  split at walked
  · cases walked
  rename_i group found
  split at walked
  · cases walked
  rename_i noStranger
  obtain ⟨nested, walkedAll, built⟩ := Outcome.bind_eq_ok.mp walked
  refine ⟨group, nested, found, fun id member => ?_, Outcome.mapM_eq_ok.mp walkedAll,
    (Outcome.pure_eq_ok.mp built).symm⟩
  simpa using List.find?_eq_none.mp noStranger id member

/-- A walk meets objects only. -/
theorem isObject_of_walk {isObject : String → Bool} {available : List Group} {path : List String}
    {name : String} {met : List String}
    (walked : walk (α := α) isObject available path name = .ok met) :
    ∀ id ∈ met, isObject id := by
  induction counted : available.length using Nat.strong_induction_on
    generalizing available path name met with
  | _ count inductionHypothesis =>
    obtain ⟨group, nested, found, own, inner, rfl⟩ := walk_eq_ok walked
    intro id member
    rcases List.mem_append.mp member with member | member
    · exact own id member
    · obtain ⟨result, inNested, member⟩ := List.mem_flatten.mp member
      obtain ⟨nestedName, -, walkedInner⟩ := Lists.exists_of_mem_right inner inNested
      exact inductionHypothesis _ (counted ▸ length_others_lt found) walkedInner rfl id member

theorem members_eq_ok {isObject : String → Bool} {groups : List Group} {name : String}
    {found : List String} (resolved : members (α := α) isObject groups name = .ok found) :
    found.Nodup ∧ ∀ id ∈ found, isObject id := by
  obtain ⟨met, walked, built⟩ := Outcome.bind_eq_ok.mp resolved
  rw [← Outcome.pure_eq_ok.mp built]
  exact ⟨Lists.nodup_eraseDups met, fun id member =>
    isObject_of_walk walked id (List.mem_eraseDups.mp member)⟩

/-! ### The way -/

/-- Groups other than one on the way are found as before. -/
theorem find_others {groups : List Group} {name other : String} (different : other ≠ name) :
    find? (others groups name) other = find? groups other := by
  induction groups with
  | nil => rfl
  | cons group rest inductionHypothesis =>
    simp only [find?, others] at inductionHypothesis ⊢
    by_cases same : group.name = name
    · have apart : (group.name == other) = false := by simpa [same] using different.symm
      rw [List.filter_cons_of_neg (by simpa using same), List.find?_cons, apart]
      exact inductionHypothesis
    · rw [List.filter_cons_of_pos (by simpa using same), List.find?_cons, List.find?_cons,
        inductionHypothesis]

theorem notMem_of_walk {isObject : String → Bool} {available : List Group} {path : List String}
    {name : String} {met : List String}
    (walked : walk (α := α) isObject available path name = .ok met) : name ∉ path := by
  rw [walk] at walked
  split at walked
  · cases walked
  · rename_i fresh
    simpa using fresh

/-! ### Sound groups -/

/-- A group lists another one as nested in it. -/
def Nests (groups : List Group) (outer inner : String) : Prop :=
  ∃ group ∈ groups, group.name = outer ∧ inner ∈ group.groups

/-- Groups have different names, hold only objects and groups that there are, and none is nested in
itself at any depth. -/
structure AreSound (ids : List String) (groups : List Group) : Prop where
  names : (groups.map (·.name)).Nodup
  objects : ∀ group ∈ groups, ∀ id ∈ group.objects, id ∈ ids
  nested : ∀ group ∈ groups, ∀ inner ∈ group.groups, inner ∈ groups.map (·.name)
  acyclic : ∀ name, ¬Relation.TransGen (Nests groups) name name

/-- Whatever nests something at some depth is a group. -/
theorem exists_of_nests {groups : List Group} {outer inner : String}
    (nests : Relation.TransGen (Nests groups) outer inner) :
    ∃ group ∈ groups, group.name = outer := by
  obtain ⟨_, ⟨group, member, same, -⟩, -⟩ := Relation.TransGen.head'_iff.mp nests
  exact ⟨group, member, same⟩

section

variable {groups : List Group} (names : (groups.map (·.name)).Nodup)

include names

theorem find?_eq_some_iff {name : String} {group : Group} :
    find? groups name = some group ↔ group ∈ groups ∧ group.name = name := by
  constructor
  · intro found
    exact ⟨List.mem_of_find?_eq_some found, by simpa using List.find?_some found⟩
  · rintro ⟨member, rfl⟩
    cases found : find? groups group.name with
    | none => simpa using List.find?_eq_none.mp found group member
    | some other =>
      have same : other.name = group.name := by simpa using List.find?_some found
      rw [List.inj_on_of_nodup_map names (List.mem_of_find?_eq_some found) member same]

/-- What is nested in a group lies before no group on the way to it. -/
theorem notMem_of_nests {isObject : String → Bool} {available : List Group} {path : List String}
    {name : String} {met : List String}
    (reachable : ∀ other ∉ path, find? available other = find? groups other)
    (walked : walk (α := α) isObject available path name = .ok met) {inner : String}
    (nests : Relation.TransGen (Nests groups) name inner) : inner ∉ name :: path := by
  have walkedInner {available : List Group} {path : List String} {name inner : String}
      {met : List String} (reachable : ∀ other ∉ path, find? available other = find? groups other)
      (walked : walk (α := α) isObject available path name = .ok met)
      (nests : Nests groups name inner) : ∃ result,
        walk (α := α) isObject (others available name) (name :: path) inner = .ok result := by
    obtain ⟨group, member, rfl, listed⟩ := nests
    obtain ⟨found, _, isFound, -, further, -⟩ := walk_eq_ok walked
    rw [reachable _ (notMem_of_walk walked), (find?_eq_some_iff names).mpr ⟨member, rfl⟩] at isFound
    obtain rfl := Option.some.inj isFound
    obtain ⟨result, -, walkedInner⟩ := Lists.exists_of_mem_left further listed
    exact ⟨result, walkedInner⟩
  induction nests using Relation.TransGen.head_induction_on generalizing available path met with
  | single direct =>
    obtain ⟨result, next⟩ := walkedInner reachable walked direct
    exact notMem_of_walk next
  | head direct _ inductionHypothesis =>
    obtain ⟨result, next⟩ := walkedInner reachable walked direct
    have beyond := inductionHypothesis (fun other fresh => ?_) next
    · exact fun member => beyond (List.mem_cons_of_mem _ member)
    · rw [List.mem_cons, not_or] at fresh
      rw [find_others fresh.1, reachable other fresh.2]

theorem areSound_of_walks {isObject : String → Bool} {ids : List String}
    (spells : ∀ id, isObject id = true ↔ id ∈ ids)
    (walks : ∀ name ∈ groups.map (·.name), ∃ met,
      walk (α := α) isObject groups [] name = .ok met) : AreSound ids groups := by
  have walked (group : Group) (member : group ∈ groups) :
      (∀ id ∈ group.objects, isObject id) ∧ ∀ inner ∈ group.groups, ∃ result,
        walk (α := α) isObject (others groups group.name) [group.name] inner = .ok result := by
    obtain ⟨met, walked⟩ := walks group.name (List.mem_map_of_mem member)
    obtain ⟨found, nested, isFound, own, further, -⟩ := walk_eq_ok walked
    rw [(find?_eq_some_iff names).mpr ⟨member, rfl⟩] at isFound
    obtain rfl := Option.some.inj isFound
    refine ⟨own, fun inner listed => ?_⟩
    obtain ⟨result, -, walkedInner⟩ := Lists.exists_of_mem_left further listed
    exact ⟨result, walkedInner⟩
  refine ⟨names, fun group member id listed => (spells id).mp ((walked group member).1 id listed),
    fun group member inner listed => ?_, fun name loop => ?_⟩
  · obtain ⟨result, walkedInner⟩ := (walked group member).2 inner listed
    obtain ⟨found, -, isFound, -⟩ := walk_eq_ok walkedInner
    have inOthers := List.mem_of_find?_eq_some isFound
    have sameName : found.name = inner := by simpa using List.find?_some isFound
    exact List.mem_map.mpr ⟨found, List.mem_of_mem_filter inOthers, sameName⟩
  · obtain ⟨group, member, rfl⟩ := exists_of_nests loop
    obtain ⟨met, walked⟩ := walks group.name (List.mem_map_of_mem member)
    exact notMem_of_nests names (fun _ _ => rfl) walked loop List.mem_cons_self

end

/-- Through sound groups every walk succeeds: whatever is on the way contains what comes next. -/
theorem exists_walk {isObject : String → Bool} {ids : List String} {groups : List Group}
    (sound : AreSound ids groups) (spells : ∀ id, isObject id = true ↔ id ∈ ids)
    {available : List Group} {path : List String} {name : String}
    (reachable : ∀ other ∉ path, find? available other = find? groups other)
    (declared : name ∈ groups.map (·.name))
    (below : ∀ outer ∈ path, Relation.TransGen (Nests groups) outer name) :
    ∃ met, walk (α := α) isObject available path name = .ok met := by
  induction counted : available.length using Nat.strong_induction_on
    generalizing available path name with
  | _ count inductionHypothesis =>
    obtain ⟨group, member, rfl⟩ := List.mem_map.mp declared
    have fresh : group.name ∉ path := fun onPath => sound.acyclic _ (below _ onPath)
    have found : find? available group.name = some group := by
      rw [reachable _ fresh, find?_eq_some_iff sound.names]
      exact ⟨member, rfl⟩
    have noStranger : (group.objects.find? fun id => !isObject id) = none :=
      List.find?_eq_none.mpr fun id listed => by
        simpa using (spells id).mpr (sound.objects group member id listed)
    obtain ⟨nested, walked⟩ := Outcome.exists_mapM
      (walk (α := α) isObject (others available group.name) (group.name :: path)) group.groups
      fun inner listed => by
        have direct : Nests groups group.name inner := ⟨group, member, rfl, listed⟩
        refine inductionHypothesis _ (counted ▸ length_others_lt found) (fun other beyond => ?_)
          (sound.nested group member inner listed) (fun outer onPath => ?_) rfl
        · rw [List.mem_cons, not_or] at beyond
          rw [find_others beyond.1, reachable other beyond.2]
        · rcases List.mem_cons.mp onPath with rfl | onPath
          · exact .single direct
          · exact (below outer onPath).tail direct
    refine ⟨group.objects ++ nested.flatten, ?_⟩
    rw [walk]
    split
    · rename_i onPath
      exact absurd (by simpa using onPath) fresh
    split
    · rename_i missing
      rw [found] at missing
      cases missing
    rename_i other isFound
    obtain rfl := Option.some.inj (found.symm.trans isFound)
    rw [noStranger]
    exact Outcome.bind_eq_ok.mpr ⟨nested, walked, rfl⟩

end Group

end Stagecraft
