/-
This file says what a directory promises about names. Its objects have different ids, none of them
that of the head, and their triggers and timelines have different names; the members of its groups
are objects of the scene, each listed once; and an object found by one of its names is in the scene.
Nothing else is asked of a scene for it to have a directory.
-/

import Stagecraft.Proofs.Scene.Groups
import Stagecraft.Scene.Directory

namespace Stagecraft

variable {α : Type}

namespace Directory

/-! ### Unique names -/

theorem firstRepeat_eq_none {seen names : List String} :
    firstRepeat? seen names = none ↔ names.Nodup ∧ names.Disjoint seen := by
  induction names generalizing seen with
  | nil => simp [firstRepeat?]
  | cons name rest inductionHypothesis =>
    rw [firstRepeat?]
    split
    · rename_i repeated
      simp only [List.contains_eq_mem, decide_eq_true_eq] at repeated
      simp [List.disjoint_cons_left, repeated]
    · rename_i fresh
      simp only [List.contains_eq_mem, decide_eq_true_eq] at fresh
      rw [inductionHypothesis, List.disjoint_cons_right, List.disjoint_cons_left, List.nodup_cons]
      tauto

def triggerNames (object : SceneObject α) : List String :=
  object.triggers.map (·.name)

def timelineNames (object : SceneObject α) : List String :=
  object.timelines.map (·.name)

/-- No name is used twice, and none is reserved. -/
structure Unique (objects : List (SceneObject α)) : Prop where
  notHead : ∀ object ∈ objects, object.id ≠ headId
  ids : (objects.map (·.id)).Nodup
  triggers : (objects.flatMap triggerNames).Nodup
  timelines : (objects.flatMap timelineNames).Nodup

theorem unique_cons {object : SceneObject α} {rest : List (SceneObject α)} :
    Unique (object :: rest) ↔ Unique rest ∧ object.id ≠ headId ∧ object.id ∉ rest.map (·.id) ∧
      ((triggerNames object).Nodup ∧ (rest.flatMap triggerNames).Disjoint (triggerNames object)) ∧
      ((timelineNames object).Nodup ∧
        (rest.flatMap timelineNames).Disjoint (timelineNames object)) := by
  constructor
  · rintro ⟨notHead, ids, triggers, timelines⟩
    rw [List.forall_mem_cons] at notHead
    rw [List.map_cons, List.nodup_cons] at ids
    rw [List.flatMap_cons, List.nodup_append'] at triggers timelines
    exact ⟨⟨notHead.2, ids.2, triggers.2.1, timelines.2.1⟩, notHead.1, ids.1,
      ⟨triggers.1, triggers.2.2.symm⟩, ⟨timelines.1, timelines.2.2.symm⟩⟩
  · rintro ⟨⟨notHead, ids, triggers, timelines⟩, here, fresh, ownTriggers, ownTimelines⟩
    refine ⟨List.forall_mem_cons.mpr ⟨here, notHead⟩, List.nodup_cons.mpr ⟨fresh, ids⟩, ?_, ?_⟩
    · exact List.nodup_append'.mpr ⟨ownTriggers.1, triggers, ownTriggers.2.symm⟩
    · exact List.nodup_append'.mpr ⟨ownTimelines.1, timelines, ownTimelines.2.symm⟩

theorem checkObjects_cons {ids triggers timelines : List String} {object : SceneObject α}
    {rest : List (SceneObject α)} :
    checkObjects ids triggers timelines (object :: rest) = .ok () ↔
      object.id ≠ headId ∧ object.id ∉ ids ∧
      ((triggerNames object).Nodup ∧ (triggerNames object).Disjoint triggers) ∧
      ((timelineNames object).Nodup ∧ (timelineNames object).Disjoint timelines) ∧
      checkObjects (object.id :: ids) (triggerNames object ++ triggers)
        (timelineNames object ++ timelines) rest = .ok () := by
  rw [checkObjects, ← firstRepeat_eq_none, ← firstRepeat_eq_none]
  by_cases isHead : object.id = headId
  · simp [isHead]
  by_cases seen : object.id ∈ ids
  · simp [isHead, seen]
  cases triggersSeen : firstRepeat? triggers (triggerNames object) <;>
    cases timelinesSeen : firstRepeat? timelines (timelineNames object) <;>
    simp_all [triggerNames, timelineNames]

theorem checkObjects_eq_ok {ids triggers timelines : List String} {objects : List (SceneObject α)} :
    checkObjects ids triggers timelines objects = .ok () ↔
      Unique objects ∧ (objects.map (·.id)).Disjoint ids ∧
      (objects.flatMap triggerNames).Disjoint triggers ∧
      (objects.flatMap timelineNames).Disjoint timelines := by
  induction objects generalizing ids triggers timelines with
  | nil => exact ⟨fun _ => ⟨⟨by simp, by simp, by simp, by simp⟩, by simp, by simp, by simp⟩,
      fun _ => rfl⟩
  | cons object rest inductionHypothesis =>
    rw [checkObjects_cons, inductionHypothesis, unique_cons, List.map_cons, List.flatMap_cons,
      List.flatMap_cons, List.disjoint_cons_right, List.disjoint_cons_left,
      List.disjoint_append_right, List.disjoint_append_right, List.disjoint_append_left,
      List.disjoint_append_left]
    tauto

end Directory

/-! ### Groups of a scene -/

namespace Scene

/-- The groups of a scene with their members, in the order of their names. -/
def flattenedGroups (scene : Scene α) : Except (Fault α) (List (String × List String)) :=
  (Directory.sorted (scene.groups.map (·.name))).mapM fun name => do
    let members ← Group.members (fun id => scene.walk.any (·.id == id)) scene.groups name
    return (name, members)

variable {scene : Scene α} {groups : List (String × List String)}

/-- Groups are flattened one by one. -/
theorem flattenedGroups_eq_ok :
    scene.flattenedGroups = .ok groups ↔ List.Forall₂ (fun name group => name = group.1 ∧
      Group.members (α := α) (fun id => scene.walk.any (·.id == id)) scene.groups name =
        .ok group.2) (Directory.sorted (scene.groups.map (·.name))) groups := by
  rw [flattenedGroups, Outcome.mapM_eq_ok]
  refine iff_of_eq (congrArg (List.Forall₂ · _ _) ?_)
  funext name group
  rw [Outcome.bind_eq_ok]
  simp only [Outcome.pure_eq_ok, Prod.ext_iff, eq_iff_iff]
  constructor
  · rintro ⟨members, resolved, named, rfl⟩
    exact ⟨named, resolved⟩
  · rintro ⟨named, resolved⟩
    exact ⟨group.2, resolved, named, rfl⟩

theorem names_flattenedGroups (flattened : scene.flattenedGroups = .ok groups) :
    groups.map (·.1) = Directory.sorted (scene.groups.map (·.name)) := by
  have named := (flattenedGroups_eq_ok.mp flattened).imp fun name group related => related.1
  have same : (Directory.sorted (scene.groups.map (·.name))).map id = groups.map (·.1) :=
    Lists.map_eq_of_forall₂ named
  rw [← same, List.map_id]

theorem members_flattenedGroups (flattened : scene.flattenedGroups = .ok groups) :
    ∀ group ∈ groups, Group.members (α := α) (fun id => scene.walk.any (·.id == id)) scene.groups
      group.1 = .ok group.2 := by
  intro group member
  obtain ⟨name, -, rfl, resolved⟩ :=
    Lists.exists_of_mem_right (flattenedGroups_eq_ok.mp flattened) member
  exact resolved

theorem any_walk_iff (id : String) :
    (scene.walk.any (·.id == id)) = true ↔ id ∈ scene.walk.map (·.id) := by
  simp

/-- Groups of different names can be flattened if they are sound, and only then. -/
theorem exists_flattenedGroups_iff (names : (scene.groups.map (·.name)).Nodup) :
    (∃ groups, scene.flattenedGroups = .ok groups) ↔
      Group.AreSound (scene.walk.map (·.id)) scene.groups := by
  constructor
  · rintro ⟨groups, flattened⟩
    refine Group.areSound_of_walks (α := α) names any_walk_iff fun name declared => ?_
    obtain ⟨group, -, -, resolved⟩ := Lists.exists_of_mem_left
      (flattenedGroups_eq_ok.mp flattened) (List.mem_mergeSort.mpr declared)
    obtain ⟨met, walked, -⟩ := Outcome.bind_eq_ok.mp resolved
    exact ⟨met, walked⟩
  · intro sound
    refine Outcome.exists_mapM _ _ fun name member => ?_
    obtain ⟨met, walked⟩ : ∃ met, Group.walk (α := α) (fun id => scene.walk.any (·.id == id))
        scene.groups [] name = .ok met :=
      Group.exists_walk sound any_walk_iff (fun _ _ => rfl) (List.mem_mergeSort.mp member) (by simp)
    exact ⟨(name, met.eraseDups), Outcome.bind_eq_ok.mpr ⟨met.eraseDups,
      Outcome.bind_eq_ok.mpr ⟨met, walked, rfl⟩, rfl⟩⟩

end Scene

namespace Directory

/-! ### Directories -/

section

variable {scene : Scene α}

/-- Where groups have different names, a directory is made by checking the objects and flattening
the groups. -/
theorem ofScene_eq (names : (scene.groups.map (·.name)).Nodup) :
    ofScene scene = do
      checkObjects [] [] [] scene.walk
      let groups ← scene.flattenedGroups
      return { objects := scene.walk, groups } := by
  have once : firstRepeat? [] (scene.groups.map (·.name)) = none :=
    firstRepeat_eq_none.mpr ⟨names, by simp⟩
  rw [ofScene]
  dsimp only
  rw [once]
  rfl

theorem ofScene_eq_ok {directory : Directory α} :
    ofScene scene = .ok directory ↔ Unique scene.walk ∧ (scene.groups.map (·.name)).Nodup ∧
      scene.flattenedGroups = .ok directory.groups ∧ directory.objects = scene.walk := by
  by_cases names : (scene.groups.map (·.name)).Nodup
  · rw [ofScene_eq names, Outcome.bind_eq_ok]
    simp only [Outcome.bind_eq_ok, Outcome.pure_eq_ok, names, true_and]
    constructor
    · rintro ⟨⟨⟩, checked, groups, flattened, rfl⟩
      exact ⟨(checkObjects_eq_ok.mp checked).1, flattened, rfl⟩
    · rintro ⟨unique, flattened, objects⟩
      exact ⟨(), checkObjects_eq_ok.mpr ⟨unique, by simp, by simp, by simp⟩, directory.groups,
        flattened, by rw [← objects]⟩
  · refine iff_of_false (fun resolved => ?_) fun parts => names parts.2.1
    obtain ⟨-, -, resolved⟩ := Outcome.bind_eq_ok.mp resolved
    dsimp only at resolved
    split at resolved
    · exact absurd resolved Outcome.throw_ne_ok
    · rename_i once
      exact names (firstRepeat_eq_none.mp once).1

variable {directory : Directory α} (resolved : ofScene scene = .ok directory)

include resolved

/-- The objects of a directory are those of the scene. -/
theorem objects_ofScene : directory.objects = scene.walk :=
  (ofScene_eq_ok.mp resolved).2.2.2

theorem unique_of_ofScene : Unique scene.walk :=
  (ofScene_eq_ok.mp resolved).1

/-- The groups of a directory are listed with their members. -/
theorem members_of_ofScene : ∀ group ∈ directory.groups,
    Group.members (α := α) directory.isObject scene.groups group.1 = .ok group.2 := by
  have same : directory.isObject = fun id => scene.walk.any (·.id == id) := by
    funext id
    rw [isObject, objects_ofScene resolved]
  rw [same]
  exact Scene.members_flattenedGroups (ofScene_eq_ok.mp resolved).2.2.1

/-- Groups list objects of the scene, each once. -/
theorem groups_ofScene :
    ∀ group ∈ directory.groups, group.2.Nodup ∧ ∀ id ∈ group.2, directory.isObject id :=
  fun group member => Group.members_eq_ok (members_of_ofScene resolved group member)

theorem areSound_of_ofScene : Group.AreSound (scene.walk.map (·.id)) scene.groups := by
  obtain ⟨-, names, flattened, -⟩ := ofScene_eq_ok.mp resolved
  exact (Scene.exists_flattenedGroups_iff names).mp ⟨_, flattened⟩

/-- A directory has the groups of its scene. -/
theorem names_ofScene : directory.groups.map (·.1) = sorted (scene.groups.map (·.name)) :=
  Scene.names_flattenedGroups (ofScene_eq_ok.mp resolved).2.2.1

omit resolved

/-- A scene has a directory if its names are unique and its groups are sound, and only then. -/
theorem exists_ofScene_iff :
    (∃ directory, ofScene scene = .ok directory) ↔
      Unique scene.walk ∧ Group.AreSound (scene.walk.map (·.id)) scene.groups := by
  constructor
  · rintro ⟨directory, resolved⟩
    exact ⟨unique_of_ofScene resolved, areSound_of_ofScene resolved⟩
  · rintro ⟨unique, sound⟩
    obtain ⟨groups, flattened⟩ := (Scene.exists_flattenedGroups_iff sound.names).mpr sound
    exact ⟨{ objects := scene.walk, groups },
      ofScene_eq_ok.mpr ⟨unique, sound.names, flattened, rfl⟩⟩

end

theorem mem_sorted {names : List String} {name : String} : name ∈ sorted names ↔ name ∈ names :=
  List.mem_mergeSort

/-! ### Questions -/

section

variable {directory : Directory α} {context : Context}

theorem requireObject_eq_ok {id : String} :
    directory.requireObject context id = .ok () ↔ directory.isAddressable id = true := by
  rw [requireObject]
  split <;> simp_all

theorem exists_groupMembers_iff {name : String} :
    (∃ members, directory.groupMembers context name = .ok members) ↔
      name ∈ directory.groups.map (·.1) := by
  rw [groupMembers]
  cases found : directory.groups.lookup name with
  | some members =>
    obtain ⟨before, after, split, -⟩ := List.lookup_eq_some_iff.mp found
    simp [split]
  | none =>
    have absent := List.lookup_eq_none_iff.mp found
    simp only [List.mem_map, reduceCtorEq, exists_false, false_iff, not_exists, not_and]
    rintro group member rfl
    simpa using absent group member

/-- An object is found by one of its names if there is one that has it. -/
theorem isSome_find_iff {names : SceneObject α → List String} {name : String}
    (has : SceneObject α → Bool) (spells : ∀ object, has object = true ↔ name ∈ names object) :
    (directory.objects.find? has).isSome = true ↔ name ∈ directory.objects.flatMap names := by
  rw [List.find?_isSome, List.mem_flatMap]
  simp only [spells]

theorem exists_timelineOwner_iff {name : String} :
    (∃ owner, directory.timelineOwner context name = .ok owner) ↔
      name ∈ directory.objects.flatMap timelineNames := by
  rw [timelineOwner, ← isSome_find_iff (fun object => object.timelines.any (·.name == name))
    fun object => by simp [timelineNames]]
  cases directory.objects.find? fun object => object.timelines.any (·.name == name) <;> simp

theorem exists_triggerOwner_iff {name : String} :
    (∃ owner, directory.triggerOwner context name = .ok owner) ↔
      name ∈ directory.objects.flatMap triggerNames := by
  rw [triggerOwner, ← isSome_find_iff (fun object => object.triggers.any (·.name == name))
    fun object => by simp [triggerNames]]
  cases directory.objects.find? fun object => object.triggers.any (·.name == name) <;> simp

theorem isObject_iff {id : String} :
    directory.isObject id = true ↔ id ∈ directory.objects.map (·.id) := by
  simp [isObject]

theorem isAddressable_iff {id : String} :
    directory.isAddressable id = true ↔ id = headId ∨ directory.isObject id = true := by
  simp [isAddressable]

theorem isAddressable_of_isObject {id : String} (known : directory.isObject id) :
    directory.isAddressable id :=
  isAddressable_iff.mpr (.inr known)

theorem isAddressable_of_required {id : String}
    (required : directory.requireObject context id = .ok ()) : directory.isAddressable id := by
  rw [requireObject] at required
  split at required
  · assumption
  · cases required

theorem mem_groups_of_lookup {name : String} {members : List String}
    (found : directory.groupMembers context name = .ok members) :
    (name, members) ∈ directory.groups := by
  rw [groupMembers] at found
  split at found
  · rename_i members' listed
    obtain rfl := Except.ok.inj found
    obtain ⟨before, after, split, -⟩ := List.lookup_eq_some_iff.mp listed
    rw [split]
    exact List.mem_append_right _ List.mem_cons_self
  · cases found

theorem isObject_of_find {has : SceneObject α → Bool} {object : SceneObject α}
    (found : directory.objects.find? has = some object) : directory.isObject object.id :=
  isObject_iff.mpr (List.mem_map_of_mem (List.mem_of_find?_eq_some found))

theorem isObject_of_timelineOwner {name owner : String}
    (found : directory.timelineOwner context name = .ok owner) : directory.isObject owner := by
  rw [timelineOwner] at found
  split at found
  · rename_i object searched
    obtain rfl := Except.ok.inj found
    exact isObject_of_find searched
  · cases found

theorem isObject_of_triggerOwner {name owner : String}
    (found : directory.triggerOwner context name = .ok owner) : directory.isObject owner := by
  rw [triggerOwner] at found
  split at found
  · rename_i object searched
    obtain rfl := Except.ok.inj found
    exact isObject_of_find searched
  · cases found

end

end Directory

end Stagecraft
