/-
This file reads off a scene which actions it declares and whom each of them concerns, without
compiling it. Objects are met parents first, and on each object triggers come before link actions
and those before timelines. The instances of the program are what the declared actions become, one
for each, under their numbers in this order.
-/

import Stagecraft.Proofs.Program.Layout

namespace Stagecraft

variable {α : Type}

/-! ### Declared actions -/

/-- An action as a scene declares it. -/
structure Declared (α : Type) where
  /-- The object that carries it. -/
  owner : String
  context : Context
  action : Action α

/-- The entries by their starts; entries that start together stay in their order. -/
def Timeline.inOrder [Scalar α] (timeline : Timeline α) : List (TimedAction α) :=
  timeline.entries.mergeSort fun first second => Scalar.precedes first.start second.start

theorem Timeline.eq_inOrder [Scalar α] {timeline : Timeline α} {context : Context}
    {entries : List (TimedAction α)} (ordered : timeline.dispatchOrder context = .ok entries) :
    entries = timeline.inOrder := by
  obtain ⟨-, -, built⟩ := Outcome.bind_eq_ok.mp ordered
  exact (Outcome.pure_eq_ok.mp built).symm

def Owned.Source.declared [Scalar α] (owner : String) : Source α → List (Declared α)
  | .trigger declared => declared.actions.map (⟨owner, .trigger declared.name, ·⟩)
  | .link actions => actions.map (⟨owner, .link owner, ·⟩)
  | .timeline declared =>
    declared.inOrder.map fun entry => ⟨owner, .timeline declared.name, entry.action⟩

def SceneObject.declared [Scalar α] (object : SceneObject α) : List (Declared α) :=
  object.sources.flatMap (·.declared object.id)

/-- The actions of a scene in the order in which they are met. -/
def Scene.declared [Scalar α] (scene : Scene α) : List (Declared α) :=
  scene.walk.flatMap (·.declared)

/-! ### Whom they concern -/

/-- The object is one of the group, or one of a group nested in it. -/
inductive Group.Holds (groups : List Group) (id : String) : String → Prop
  | own {name : String} {group : Group} :
    find? groups name = some group → id ∈ group.objects → Holds groups id name
  | nested {name : String} {group : Group} {inner : String} :
    find? groups name = some group → inner ∈ group.groups → Holds groups id inner →
      Holds groups id name

/-- The object is a target of the action: the owner of the timeline or of the trigger that it
changes, a member of its group, the object that it names, or else its own. -/
def Declared.Concerns (scene : Scene α) (declared : Declared α) (target : String) : Prop :=
  match declared.action.kind with
  | .timeline name _ =>
    ∃ object ∈ scene.walk, object.id = target ∧ name ∈ Directory.timelineNames object
  | .triggerToggle name _ =>
    ∃ object ∈ scene.walk, object.id = target ∧ name ∈ Directory.triggerNames object
  | .group name _ => Group.Holds scene.groups target name
  | _ => target = declared.action.target.getD declared.owner

namespace Group

/-- A walk meets the objects that the group holds. -/
theorem mem_of_walk {isObject : String → Bool} {groups available : List Group}
    {path : List String} {name id : String} {met : List String}
    (reachable : ∀ other ∉ path, find? available other = find? groups other)
    (walked : walk (α := α) isObject available path name = .ok met) :
    id ∈ met ↔ Holds groups id name := by
  have further (other : String) (fresh : other ∉ name :: path) :
      find? (others available name) other = find? groups other := by
    rw [List.mem_cons, not_or] at fresh
    rw [find_others fresh.1, reachable other fresh.2]
  have freshName := notMem_of_walk walked
  constructor
  · induction counted : available.length using Nat.strong_induction_on
      generalizing available path name met with
    | _ count inductionHypothesis =>
      intro member
      obtain ⟨group, nested, found, -, inner, rfl⟩ := walk_eq_ok walked
      have isGroup : find? groups name = some group := by rw [← reachable name freshName, found]
      rcases List.mem_append.mp member with member | member
      · exact .own isGroup member
      · obtain ⟨result, inNested, member⟩ := List.mem_flatten.mp member
        obtain ⟨nestedName, inGroups, walkedInner⟩ := Lists.exists_of_mem_right inner inNested
        have freshInner := notMem_of_walk walkedInner
        refine .nested isGroup inGroups (inductionHypothesis _ (counted ▸ length_others_lt found)
          further walkedInner (fun other fresh => ?_) freshInner rfl member)
        rw [List.mem_cons, not_or] at fresh
        rw [find_others fresh.1, further other fresh.2]
  · intro holds
    induction holds generalizing available path met with
    | own isGroup member =>
      obtain ⟨group, nested, found, -, -, rfl⟩ := walk_eq_ok walked
      rw [reachable _ freshName, isGroup] at found
      obtain rfl := Option.some.inj found
      exact List.mem_append_left _ member
    | nested isGroup inGroups _ inductionHypothesis =>
      obtain ⟨group, nested, found, -, inner, rfl⟩ := walk_eq_ok walked
      rw [reachable _ freshName, isGroup] at found
      obtain rfl := Option.some.inj found
      obtain ⟨result, inNested, walkedInner⟩ := Lists.exists_of_mem_left inner inGroups
      have freshInner := notMem_of_walk walkedInner
      refine List.mem_append_right _ (List.mem_flatten.mpr ⟨result, inNested,
        inductionHypothesis further walkedInner (fun other fresh => ?_) freshInner⟩)
      rw [List.mem_cons, not_or] at fresh
      rw [find_others fresh.1, further other fresh.2]

theorem mem_of_members {isObject : String → Bool} {groups : List Group} {name id : String}
    {found : List String} (resolved : members (α := α) isObject groups name = .ok found) :
    id ∈ found ↔ Holds groups id name := by
  obtain ⟨met, walked, built⟩ := Outcome.bind_eq_ok.mp resolved
  rw [← Outcome.pure_eq_ok.mp built, List.mem_eraseDups]
  exact mem_of_walk (fun _ _ => rfl) walked

end Group

namespace Directory

variable {scene : Scene α} {directory : Directory α} (sound : ofScene scene = .ok directory)
  {context : Context} {name owner : String}

include sound

theorem mem_of_groupMembers {members : List String} {id : String}
    (found : directory.groupMembers context name = .ok members) :
    id ∈ members ↔ Group.Holds scene.groups id name := by
  exact Group.mem_of_members (members_of_ofScene sound _ (mem_groups_of_lookup found))

/-- Where names are unique, the object found by one is the only one that has it. -/
theorem eq_of_find {names : SceneObject α → List String} (unique : (scene.walk.flatMap names).Nodup)
    {has : SceneObject α → Bool} (spells : ∀ object, has object = true ↔ name ∈ names object)
    {found : SceneObject α} (searched : directory.objects.find? has = some found)
    (target : String) :
    found.id = target ↔ ∃ object ∈ scene.walk, object.id = target ∧ name ∈ names object := by
  rw [objects_ofScene sound] at searched
  have inScene := List.mem_of_find?_eq_some searched
  have hasName := (spells found).mp (List.find?_some searched)
  constructor
  · rintro rfl
    exact ⟨found, inScene, rfl, hasName⟩
  · rintro ⟨object, otherInScene, rfl, otherHasName⟩
    by_contra different
    have symmetric : Std.Symm (Function.onFun List.Disjoint names) :=
      ⟨fun _ _ disjoint => List.Disjoint.symm disjoint⟩
    have apart := (List.nodup_flatMap.mp unique).2.forall inScene otherInScene fun same =>
      different (same ▸ rfl)
    exact apart hasName otherHasName

theorem timelineOwner_iff (found : directory.timelineOwner context name = .ok owner)
    (target : String) :
    owner = target ↔ ∃ object ∈ scene.walk, object.id = target ∧ name ∈ timelineNames object := by
  rw [timelineOwner] at found
  split at found
  · rename_i object searched
    obtain rfl := Except.ok.inj found
    exact eq_of_find sound (unique_of_ofScene sound).timelines
      (fun object => by simp [timelineNames]) searched target
  · cases found

theorem triggerOwner_iff (found : directory.triggerOwner context name = .ok owner)
    (target : String) :
    owner = target ↔ ∃ object ∈ scene.walk, object.id = target ∧ name ∈ triggerNames object := by
  rw [triggerOwner] at found
  split at found
  · rename_i object searched
    obtain rfl := Except.ok.inj found
    exact eq_of_find sound (unique_of_ofScene sound).triggers
      (fun object => by simp [triggerNames]) searched target
  · cases found

end Directory

/-! ### What they become -/

section

variable [Trigonometric α]

/-- The instance is what the action becomes under its number. -/
def Declared.Becomes (directory : Directory α) (rate : α) (declared : Declared α)
    (action : Instance α) : Prop :=
  declared.action.resolve directory rate declared.context declared.owner action.number = .ok action

variable {scene : Scene α} {directory : Directory α} {rate : α} {declared : Declared α}
  {action : Instance α}

/-- The targets of an instance are the objects that its action concerns. -/
theorem Declared.Becomes.mem_targets (sound : Directory.ofScene scene = .ok directory)
    (becomes : declared.Becomes directory rate action) (target : String) :
    target ∈ action.targets ↔ declared.Concerns scene target := by
  obtain ⟨-, resolves⟩ := Action.resolves_of_resolve becomes
  generalize action.targets = targets, action.effect = effect at resolves
  rw [Concerns]
  cases resolves with
  | timeline isKind found =>
    rw [isKind, List.mem_singleton, eq_comm]
    exact Directory.timelineOwner_iff sound found target
  | toggle isKind found =>
    rw [isKind, List.mem_singleton, eq_comm]
    exact Directory.triggerOwner_iff sound found target
  | group isKind found _ =>
    rw [isKind]
    exact Directory.mem_of_groupMembers sound found
  | object _ made =>
    -- The kinds that are not for one object have no effect on one.
    cases isKind : declared.action.kind <;> rw [isKind] at made <;>
      first | exact List.mem_singleton | cases made

variable {owner : String} {first : Nat}

theorem Action.becomes_of_resolveAll {context : Context} {actions : List (Action α)}
    {found : List (Instance α)}
    (resolved : resolveAll directory rate context owner first actions = .ok found) :
    List.Forall₂ (Declared.Becomes directory rate) (actions.map (⟨owner, context, ·⟩)) found := by
  induction actions generalizing first found with
  | nil =>
    rw [resolveAll] at resolved
    rw [← Except.ok.inj resolved]
    exact .nil
  | cons action rest inductionHypothesis =>
    rw [resolveAll] at resolved
    obtain ⟨head, resolvedHead, resolved⟩ := Outcome.bind_eq_ok.mp resolved
    obtain ⟨tail, resolvedTail, built⟩ := Outcome.bind_eq_ok.mp resolved
    rw [← Outcome.pure_eq_ok.mp built]
    refine .cons ?_ (inductionHypothesis resolvedTail)
    rw [Declared.Becomes, (resolves_of_resolve resolvedHead).1]
    exact resolvedHead

/-- Actions of which one concerns some object dispatch something. -/
theorem Owned.dispatchAll_ne_nil (sound : Directory.ofScene scene = .ok directory)
    {context : Context} {actions : List (Action α)} {found : List (Instance α)}
    (resolved : Action.resolveAll directory rate context owner first actions = .ok found)
    {action : Action α} (member : action ∈ actions) {target : String}
    (concerned : Declared.Concerns scene ⟨owner, context, action⟩ target) :
    dispatchAll found ≠ [] := by
  obtain ⟨ready, inFound, becomes⟩ := Lists.exists_of_mem_left
    (Action.becomes_of_resolveAll resolved) (List.mem_map_of_mem member)
  have targeted := (becomes.mem_targets sound target).mpr concerned
  exact List.ne_nil_of_mem (List.mem_flatMap.mpr ⟨ready, inFound, List.mem_map_of_mem targeted⟩)

/-- The declared actions of a source become the instances of its piece. -/
theorem Owned.becomes_made {source : Source α} {piece : Owned α}
    (made : Made directory rate owner first source piece) :
    List.Forall₂ (Declared.Becomes directory rate) (source.declared owner) piece.instances := by
  cases made with
  | trigger declared sensor instances _ _ resolved => exact Action.becomes_of_resolveAll resolved
  | noLink actions none =>
    rw [none]
    exact .nil
  | link actions instances _ resolved => exact Action.becomes_of_resolveAll resolved
  | timeline declared entries instances _ ordered resolved =>
    have becomes := Action.becomes_of_resolveAll resolved
    rw [Timeline.eq_inOrder ordered, List.map_map] at becomes
    exact becomes

end

namespace Program.Layout

variable [Trigonometric α] {rate : α} {scene : Scene α} {program : Program α}
  (layout : Layout rate scene program)

include layout

theorem instances_eq : instances rate scene = layout.owned.flatMap (·.2.instances) := by
  rw [instances, layout.logic]

theorem declared_eq : scene.declared = layout.owned.flatMap (·.1.declared) := by
  rw [Scene.declared, ← layout.objects, List.flatMap_map]

/-- The declared actions of an object become the instances that it owns. -/
theorem becomes_owned {entry : SceneObject α × Owned α} (member : entry ∈ layout.owned) :
    List.Forall₂ (Declared.Becomes layout.directory rate) entry.1.declared entry.2.instances := by
  obtain ⟨pieces, made, joined⟩ := layout.made entry member
  rw [joined, Owned.instances_concat, SceneObject.declared]
  exact List.rel_flatMap made fun _ _ ⟨_, madePiece⟩ => Owned.becomes_made madePiece

/-- The declared actions of a scene become its instances, one each. -/
theorem becomes :
    List.Forall₂ (Declared.Becomes layout.directory rate) scene.declared
      (instances rate scene) := by
  rw [layout.instances_eq, layout.declared_eq]
  have each : ∀ some : List (SceneObject α × Owned α), some ⊆ layout.owned →
      List.Forall₂ (Declared.Becomes layout.directory rate) (some.flatMap (·.1.declared))
        (some.flatMap (·.2.instances)) := by
    intro some inside
    induction some with
    | nil => exact .nil
    | cons entry rest inductionHypothesis =>
      rw [List.cons_subset] at inside
      exact List.rel_append (layout.becomes_owned inside.1) (inductionHypothesis inside.2)
  exact each _ (List.Subset.refl _)

end Program.Layout

end Stagecraft
