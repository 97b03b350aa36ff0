/-
This file describes how the groups of a scene are flattened. A tour of a group lists the objects of
the group and then those of the groups nested in it, one nested group after the other, and the
members of the group are what its tour lists, each where it is met first. Nothing but the path to a
group bounds its expansion, and that is enough for it to end: no group is on a path twice. It fails
exactly where a group lists what is not there, or is nested in itself.
-/

import Stagecraft.Proofs.Scene.Names

namespace Stagecraft

variable {α : Type}

namespace Group

/-! ### Tours -/

/-- A tour of a group lists its own objects and then, nested group by nested group, what the tours
of these list. -/
inductive Tour (groups : List Group) : String → List String → Prop
  | visit {group : Group} (met : String → List String) :
    group ∈ groups → (∀ inner ∈ group.groups, Tour groups inner (met inner)) →
      Tour groups group.name (group.objects ++ group.groups.flatMap met)

/-- The members of a group are all objects of the groups that it reaches, each of them once and in
the order in which a tour meets them first. -/
structure IsFlattened (groups : List Group) (name : String) (members : List String) : Prop where
  mem_iff : ∀ id, id ∈ members ↔ ∃ inner ∈ groups,
    Relation.ReflTransGen (Nests groups) name inner.name ∧ id ∈ inner.objects
  once : members.Nodup
  inOrder : ∃ tour, Tour groups name tour ∧ (∀ id, id ∈ members ↔ id ∈ tour) ∧
    members.Pairwise fun first second => tour.idxOf first < tour.idxOf second

theorem eq_of_name {groups : List Group} (names : (groups.map (·.name)).Nodup)
    {first second : Group} (inFirst : first ∈ groups) (inSecond : second ∈ groups) (same : first.name = second.name) :
    first = second :=
  List.inj_on_of_nodup_map names inFirst inSecond same

/-- A tour meets the objects of all groups that are nested in its group at some depth. -/
theorem Tour.mem_iff {groups : List Group} (names : (groups.map (·.name)).Nodup) {name : String}
    {tour : List String} (leads : Tour groups name tour) (id : String) :
    id ∈ tour ↔ ∃ inner ∈ groups,
      Relation.ReflTransGen (Nests groups) name inner.name ∧ id ∈ inner.objects := by
  induction leads with
  | @visit group met member _ inductionHypothesis =>
    rw [List.mem_append, List.mem_flatMap]
    constructor
    · rintro (own | ⟨nested, listed, inNested⟩)
      · exact ⟨group, member, .refl, own⟩
      · obtain ⟨inner, isGroup, reached, inInner⟩ := (inductionHypothesis nested listed).mp inNested
        exact ⟨inner, isGroup, .head ⟨group, member, rfl, listed⟩ reached, inInner⟩
    · rintro ⟨inner, isGroup, reached, inInner⟩
      rcases reached.cases_head with same | ⟨nested, ⟨other, isOther, same, listed⟩, further⟩
      · obtain rfl := eq_of_name names member isGroup same
        exact .inl inInner
      · obtain rfl := eq_of_name names isOther member same
        exact .inr ⟨nested, listed, (inductionHypothesis nested listed).mpr
          ⟨inner, isGroup, further, inInner⟩⟩

/-- A walk that succeeds is a tour. -/
theorem tour_of_walk {isObject : String → Bool} {groups available : List Group}
    (among : available ⊆ groups) {path : List String} {name : String} {met : List String}
    (walked : walk (α := α) isObject available path name = .ok met) : Tour groups name met := by
  induction counted : available.length using Nat.strong_induction_on
    generalizing available path name met with
  | _ count inductionHypothesis =>
    obtain ⟨group, nested, found, -, further, rfl⟩ := walk_eq_ok walked
    have named : group.name = name := by simpa using List.find?_some found
    let inside (inner : String) : List String :=
      (walk (α := α) isObject (others available name) (name :: path) inner).toOption.getD []
    have listed : group.groups.map inside = nested.map id :=
      Lists.map_eq_of_forall₂ (further.imp fun inner result walkedInner => by
        simp only [inside, walkedInner, Except.toOption, Option.getD_some, id])
    have visited : Tour groups group.name (group.objects ++ group.groups.flatMap inside) :=
      .visit inside (among (List.mem_of_find?_eq_some found)) fun inner inGroup => by
        obtain ⟨result, -, walkedInner⟩ := Lists.exists_of_mem_left further inGroup
        have fewer : others available name ⊆ available := List.filter_subset_self _
        have isResult : inside inner = result := by
          simp only [inside, walkedInner, Except.toOption, Option.getD_some]
        rw [isResult]
        exact inductionHypothesis _ (counted ▸ length_others_lt found)
          (List.Subset.trans fewer among) walkedInner rfl
    rwa [named, List.flatMap, listed, List.map_id] at visited

theorem isFlattened_of_members {isObject : String → Bool} {groups : List Group}
    (names : (groups.map (·.name)).Nodup) {name : String} {found : List String}
    (resolved : members (α := α) isObject groups name = .ok found) :
    IsFlattened groups name found := by
  obtain ⟨met, walked, built⟩ := Outcome.bind_eq_ok.mp resolved
  obtain rfl := Outcome.pure_eq_ok.mp built
  have leads := tour_of_walk (List.Subset.refl groups) walked
  refine ⟨fun id => ?_, Lists.nodup_eraseDups met, met, leads, fun _ => List.mem_eraseDups,
    Lists.pairwise_idxOf_eraseDups met⟩
  rw [List.mem_eraseDups, leads.mem_iff names]

/-! ### Expansion -/

/-- One more member, unless it is among them already. -/
def gather (members : List String) (id : String) : List String :=
  if members.contains id then members else members ++ [id]

mutual

/-- Expanding a group adds its objects and those of its nested groups to the members found so far.
The path holds the groups on the way to this one, the last one first. -/
inductive Expands (isObject : String → Bool) (groups : List Group) :
    List String → String → List String → Except (Fault α) (List String) → Prop
  | cycle {path : List String} {name : String} {members : List String} : name ∈ path →
    Expands isObject groups path name members (.error (.groupCycle name))
  | unknown {path : List String} {name : String} {members : List String} : name ∉ path →
    find? groups name = none → Expands isObject groups path name members
      (.error (.unknownGroup (.group (path.head?.getD name)) name))
  | stranger {path : List String} {name : String} {members : List String} {group : Group}
    {id : String} : name ∉ path → find? groups name = some group →
    (group.objects.find? fun id => !isObject id) = some id →
      Expands isObject groups path name members (.error (.unknownObject (.group name) id))
  | known {path : List String} {name : String} {members : List String} {group : Group}
    {outcome : Except (Fault α) (List String)} : name ∉ path → find? groups name = some group →
    (∀ id ∈ group.objects, isObject id) →
    ExpandsAll isObject groups (name :: path) group.groups (group.objects.foldl gather members)
      outcome →
      Expands isObject groups path name members outcome

/-- Nested groups are expanded in turn, up to the first that fails. -/
inductive ExpandsAll (isObject : String → Bool) (groups : List Group) :
    List String → List String → List String → Except (Fault α) (List String) → Prop
  | nil {path members : List String} : ExpandsAll isObject groups path [] members (.ok members)
  | fails {path : List String} {name : String} {rest members : List String} {fault : Fault α} :
    Expands isObject groups path name members (.error fault) →
      ExpandsAll isObject groups path (name :: rest) members (.error fault)
  | cons {path : List String} {name : String} {rest members more : List String}
    {outcome : Except (Fault α) (List String)} :
    Expands isObject groups path name members (.ok more) →
    ExpandsAll isObject groups path rest more outcome →
      ExpandsAll isObject groups path (name :: rest) members outcome

end

theorem foldl_gather (met : List String) : met.foldl gather [] = met.eraseDups := by
  induction met using List.reverseRecOn with
  | nil => rfl
  | append_singleton met id inductionHypothesis =>
    have same : met.eraseDups.contains id = met.contains id := by simp
    rw [List.foldl_append, inductionHypothesis, Lists.eraseDups_concat, List.foldl_cons,
      List.foldl_nil, gather, same]

theorem expandsAll_of_walks {isObject : String → Bool} {groups : List Group} {path : List String}
    {walked : String → Except (Fault α) (List String)} {nested : List String}
    (each : ∀ inner ∈ nested, ∀ members, Expands isObject groups path inner members
      ((walked inner).map (·.foldl gather members))) (members : List String) :
    ExpandsAll isObject groups path nested members
      ((nested.mapM walked).map (·.flatten.foldl gather members)) := by
  induction nested generalizing members with
  | nil => exact .nil
  | cons inner rest inductionHypothesis =>
    obtain ⟨here, later⟩ := List.forall_mem_cons.mp each
    have first := here members
    rw [List.mapM_cons]
    cases walkedInner : walked inner with
    | error fault =>
      rw [walkedInner] at first
      exact .fails first
    | ok met =>
      rw [walkedInner] at first
      have continued := inductionHypothesis later (met.foldl gather members)
      cases walkedRest : rest.mapM walked with
      | error fault =>
        rw [walkedRest] at continued
        exact .cons first continued
      | ok further =>
        rw [walkedRest] at continued
        rw [Except.map, ← List.foldl_append, ← List.flatten_cons] at continued
        exact .cons first continued

/-- As long as all groups that are not on the path are available, a walk does what the expansion
does. -/
theorem expands_walk {isObject : String → Bool} {groups available : List Group}
    {path : List String} (name : String)
    (reachable : ∀ other ∉ path, find? available other = find? groups other)
    (members : List String) :
    Expands isObject groups path name members
      ((walk (α := α) isObject available path name).map (·.foldl gather members)) := by
  induction counted : available.length using Nat.strong_induction_on
    generalizing available path name members with
  | _ count inductionHypothesis =>
    rw [walk]
    split
    · rename_i onPath
      exact .cycle (by simpa using onPath)
    rename_i fresh
    replace fresh : name ∉ path := by simpa using fresh
    split
    · rename_i missing
      exact .unknown fresh ((reachable name fresh).symm.trans missing)
    rename_i group found
    have declared := (reachable name fresh).symm.trans found
    split
    · rename_i id isStranger
      exact .stranger fresh declared isStranger
    rename_i noStranger
    have all : ∀ id ∈ group.objects, isObject id := fun id listed => by
      simpa using List.find?_eq_none.mp noStranger id listed
    have each (inner : String) (_ : inner ∈ group.groups) (members : List String) :
        Expands isObject groups (name :: path) inner members
          ((walk (α := α) isObject (others available name) (name :: path) inner).map
            (·.foldl gather members)) := by
      refine inductionHypothesis _ (counted ▸ length_others_lt found) inner ?_ members rfl
      intro other beyond
      rw [List.mem_cons, not_or] at beyond
      rw [find_others beyond.1, reachable other beyond.2]
    have nested := expandsAll_of_walks each (group.objects.foldl gather members)
    refine .known fresh declared all ?_
    cases walked : group.groups.mapM fun inner =>
        walk (α := α) isObject (others available name) (name :: path) inner with
    | error fault =>
      rw [walked] at nested
      exact nested
    | ok met =>
      rw [walked, Except.map, ← List.foldl_append] at nested
      exact nested

/-- The expansion of every group comes to an end, with its members or with a fault. -/
theorem expands_members {isObject : String → Bool} (groups : List Group) (name : String) :
    Expands isObject groups [] name [] (members (α := α) isObject groups name) := by
  have expanded : Expands isObject groups [] name []
      ((walk (α := α) isObject groups [] name).map (·.foldl gather [])) :=
    expands_walk name (fun _ _ => rfl) []
  rw [members]
  cases walked : walk (α := α) isObject groups [] name with
  | error fault =>
    rw [walked] at expanded
    exact expanded
  | ok met =>
    rw [walked, Except.map, foldl_gather] at expanded
    exact expanded

mutual

/-- The expansion of a group has one outcome only. -/
theorem Expands.unique {isObject : String → Bool} {groups : List Group} {path : List String}
    {name : String} {members : List String} {first second : Except (Fault α) (List String)} :
    Expands isObject groups path name members first →
      Expands isObject groups path name members second → first = second
  | .cycle onPath, other => by
    cases other with
    | cycle => rfl
    | unknown fresh => exact absurd onPath fresh
    | stranger fresh => exact absurd onPath fresh
    | known fresh => exact absurd onPath fresh
  | .unknown fresh missing, other => by
    cases other with
    | cycle onPath => exact absurd onPath fresh
    | unknown => rfl
    | stranger _ found => cases missing.symm.trans found
    | known _ found => cases missing.symm.trans found
  | .stranger fresh found isStranger, other => by
    cases other with
    | cycle onPath => exact absurd onPath fresh
    | unknown _ missing => cases missing.symm.trans found
    | stranger _ again too =>
      cases found.symm.trans again
      cases isStranger.symm.trans too
      rfl
    | known _ again all =>
      cases found.symm.trans again
      exact absurd (all _ (List.mem_of_find?_eq_some isStranger))
        (by simpa using List.find?_some isStranger)
  | .known fresh found all further, other => by
    cases other with
    | cycle onPath => exact absurd onPath fresh
    | unknown _ missing => cases missing.symm.trans found
    | stranger _ again isStranger =>
      cases found.symm.trans again
      exact absurd (all _ (List.mem_of_find?_eq_some isStranger))
        (by simpa using List.find?_some isStranger)
    | known _ again _ too =>
      cases found.symm.trans again
      exact ExpandsAll.unique further too

theorem ExpandsAll.unique {isObject : String → Bool} {groups : List Group} {path : List String}
    {nested : List String} {members : List String} {first second : Except (Fault α) (List String)} :
    ExpandsAll isObject groups path nested members first →
      ExpandsAll isObject groups path nested members second → first = second
  | .nil, .nil => rfl
  | .fails fault, other => by
    cases other with
    | fails too => exact Expands.unique fault too
    | cons here => cases Expands.unique fault here
  | .cons here later, other => by
    cases other with
    | fails fault => cases Expands.unique here fault
    | cons too further =>
      cases Expands.unique here too
      exact ExpandsAll.unique later further

end

end Group

/-! ### Groups of a scene -/

namespace Scene

variable {scene : Scene α}

/-- Groups of different names are not flattened exactly where one of them lists an object that is
not in the scene, or a group that is not declared, or where one reaches itself. -/
theorem exists_fault_iff (names : (scene.groups.map (·.name)).Nodup) :
    (∃ fault, scene.flattenedGroups = .error fault) ↔
      (∃ group ∈ scene.groups, ∃ id ∈ group.objects, id ∉ scene.walk.map (·.id)) ∨
      (∃ group ∈ scene.groups, ∃ inner ∈ group.groups, inner ∉ scene.groups.map (·.name)) ∨
      ∃ group ∈ scene.groups,
        Relation.TransGen (Group.Nests scene.groups) group.name group.name := by
  have fails : (∃ fault, scene.flattenedGroups = .error fault) ↔
      ¬Group.AreSound (scene.walk.map (·.id)) scene.groups := by
    rw [← exists_flattenedGroups_iff names]
    cases scene.flattenedGroups <;> simp
  rw [fails]
  constructor
  · intro unsound
    by_contra! none
    obtain ⟨objects, nested, acyclic⟩ := none
    refine unsound ⟨names, objects, nested, fun name loop => ?_⟩
    obtain ⟨group, member, rfl⟩ := Group.exists_of_nests loop
    exact acyclic group member loop
  · rintro (⟨group, member, id, listed, absent⟩ | ⟨group, member, inner, listed, absent⟩ |
      ⟨group, -, loop⟩) sound
    · exact absent (sound.objects group member id listed)
    · exact absent (sound.nested group member inner listed)
    · exact sound.acyclic group.name loop

/-- A scene whose groups have different names is flattened group by group, each expansion comes to
an end, it fails only at groups that are not sound, and otherwise every group has its members. -/
theorem groups_are_flattened (names : (scene.groups.map (·.name)).Nodup) :
    (Directory.ofScene scene = do
      Directory.checkObjects [] [] [] scene.walk
      let groups ← scene.flattenedGroups
      return { objects := scene.walk, groups }) ∧
    (∀ group ∈ scene.groups,
      let isObject := fun id => scene.walk.any (·.id == id)
      ∀ outcome, Group.Expands (α := α) isObject scene.groups [] group.name [] outcome ↔
        outcome = Group.members isObject scene.groups group.name) ∧
    ((∃ fault, scene.flattenedGroups = .error fault) ↔
      (∃ group ∈ scene.groups, ∃ id ∈ group.objects, id ∉ scene.walk.map (·.id)) ∨
      (∃ group ∈ scene.groups, ∃ inner ∈ group.groups, inner ∉ scene.groups.map (·.name)) ∨
      ∃ group ∈ scene.groups,
        Relation.TransGen (Group.Nests scene.groups) group.name group.name) ∧
    ∀ groups, scene.flattenedGroups = .ok groups →
      groups.map (·.1) = Directory.sorted (scene.groups.map (·.name)) ∧
      ∀ group ∈ groups, Group.IsFlattened scene.groups group.1 group.2 := by
  refine ⟨Directory.ofScene_eq names, fun group _ => ?_, exists_fault_iff names,
    fun groups flattened => ⟨names_flattenedGroups flattened, fun group member =>
      Group.isFlattened_of_members names (members_flattenedGroups flattened group member)⟩⟩
  intro isObject outcome
  have expanded : Group.Expands isObject scene.groups [] group.name []
      (Group.members (α := α) isObject scene.groups group.name) :=
    Group.expands_members scene.groups group.name
  exact ⟨fun other => other.unique expanded, fun same => same ▸ expanded⟩

/-- A house where whatever is downstairs belongs to what is upstairs, too. -/
def house : Scene Float where
  objects := ["bed", "desk", "stove"].map fun id => {
    id
    position := ⟨0, 0, 0⟩
    orientation := ⟨1, 0, 0, 0⟩
    visible := true
    triggers := []
    timelines := []
    linkActions := []
    children := [] }
  groups := [⟨"downstairs", ["stove", "desk"], []⟩,
    ⟨"house", [], ["upstairs", "downstairs", "upstairs"]⟩,
    ⟨"upstairs", ["desk", "bed"], ["downstairs"]⟩]

theorem groups_are_flattened_house :
    (house.groups.map (·.name)).Nodup ∧
    house.flattenedGroups = .ok [("downstairs", ["stove", "desk"]),
      ("house", ["desk", "bed", "stove"]), ("upstairs", ["desk", "bed", "stove"])] ∧
    Group.IsFlattened house.groups "house" ["desk", "bed", "stove"] := by
  have names : (house.groups.map (·.name)).Nodup := by decide
  have inOrder : Directory.sorted (house.groups.map (·.name)) = house.groups.map (·.name) :=
    List.mergeSort_of_pairwise (by decide)
  have found : house.flattenedGroups.toOption = some [("downstairs", ["stove", "desk"]),
      ("house", ["desk", "bed", "stove"]), ("upstairs", ["desk", "bed", "stove"])] := by
    rw [flattenedGroups, inOrder]
    decide +kernel
  cases flattened : house.flattenedGroups with
  | error fault =>
    rw [flattened] at found
    cases found
  | ok groups =>
    rw [flattened] at found
    obtain rfl := Option.some.inj found
    exact ⟨names, rfl, ((groups_are_flattened names).2.2.2 _ flattened).2
      ("house", ["desk", "bed", "stove"]) (by simp)⟩

end Scene

end Stagecraft
