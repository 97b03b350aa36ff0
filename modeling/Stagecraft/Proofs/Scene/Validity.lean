/-
This file says which scenes are valid. Their names are unique and their groups are sound; what an
action or a condition refers to is there, and every number is in its range. A scene holds all the
objects below those that it lists, so what is asked of objects is asked at every depth.
-/

import Stagecraft.Geometry.Facing
import Stagecraft.Proofs.Scene.Names

namespace Stagecraft

variable {α : Type}

/-! ### What a scene declares -/

namespace Scene

variable (scene : Scene α)

/-- The object is one of the scene, or below one of the scene. -/
inductive Holds : SceneObject α → Prop
  | root {object : SceneObject α} : object ∈ scene.objects → Holds object
  | child {parent object : SceneObject α} : Holds parent → object ∈ parent.children → Holds object

/-- The id is that of an object or of the head. -/
def Addresses (id : String) : Prop :=
  id = headId ∨ ∃ object, scene.Holds object ∧ object.id = id

def DeclaresTimeline (name : String) : Prop :=
  ∃ object, scene.Holds object ∧ name ∈ Directory.timelineNames object

def DeclaresTrigger (name : String) : Prop :=
  ∃ object, scene.Holds object ∧ name ∈ Directory.triggerNames object

def DeclaresGroup (name : String) : Prop :=
  ∃ group ∈ scene.groups, group.name = name

end Scene

/-! ### Movements -/

namespace Vec

def IsFinite [Scalar α] (u : Vec α) : Prop :=
  ∀ axis, Scalar.isFinite (u.get axis)

/-- A direction for a movement: its square is not zero. -/
@[mk_iff isDirection_iff]
structure IsDirection [Scalar α] (u : Vec α) : Prop where
  finite : u.IsFinite
  notZero : ¬u.dot u == 0

/-- A direction for a trigger: the reciprocal of its length is a positive number. -/
@[mk_iff isNormalizable_iff]
structure IsNormalizable [Trigonometric α] (u : Vec α) : Prop where
  finite : u.IsFinite
  reciprocal : Scalar.isFinite (1 / u.length)
  positive : 0 < 1 / u.length

end Vec

section

variable [Trigonometric α]

/-- An orientation can face from one point to another, and not along the up direction. -/
@[mk_iff canLook_iff]
structure Rotation.CanLook (source point up : Vec α) : Prop where
  finite : point.IsFinite
  facing : (point - source).IsDirection
  upward : up.IsDirection
  notParallel : ¬((point - source).normalize.cross up.normalize).length < Quaternion.parallelTolerance

/-- Facing a point needs to know from where. -/
def Rotation.IsValid (source? : Option (Vec α)) : Rotation α → Prop
  | .unchanged => True
  | .axis about angle => about.IsDirection ∧ Scalar.isFinite angle
  | .normal towards => towards.IsDirection
  | .lookAt point up => ∃ source ∈ source?, CanLook source point up

/-- The point from which a placement can face another one: a position that is neither an offset nor
taken from an object. -/
def Placement.source? (placement : Placement α) (relative : Bool) : Option (Vec α) :=
  match placement.reference, relative with
  | .center, false => placement.position
  | _, _ => none

/-- A movement changes something, to finite values; its offset is from no object, and its position
from one that is there. -/
@[mk_iff isValid_iff]
structure Placement.IsValid (scene : Scene α) (placement : Placement α) (relative : Bool) :
    Prop where
  changes : placement.position ≠ none ∨ placement.rotation ≠ .unchanged
  position : ∀ position ∈ placement.position, position.IsFinite ∧
    ∀ id, placement.reference = .object id → relative = false ∧ scene.Addresses id
  rotation : placement.rotation.IsValid (placement.source? relative)

/-! ### Actions -/

def SoundChange.IsValid : SoundChange α → Prop
  | .start volume => Scalar.isFinite volume ∧ 0 ≤ volume ∧ volume ≤ 1
  | .stop => True

/-- The action works on the properties of one object, and its parameters are in range. -/
def ActionKind.IsObjectValid (scene : Scene α) : ActionKind α → Prop
  | .visibility _ | .reset => True
  | .move placement relative => placement.IsValid scene relative
  | .sound _ change => change.IsValid
  | .timeline .. | .group .. | .triggerToggle .. => False

/-- The action leaves it to a name what it works on, and takes no time. -/
@[mk_iff isSwitch_iff]
structure Action.IsSwitch (action : Action α) : Prop where
  noTarget : action.target = none
  atOnce : action.duration == 0

/-- What the action works on is there, and the kind of the action goes with it. -/
def Action.Fits (scene : Scene α) (action : Action α) : Prop :=
  match action.kind with
  | .timeline name _ => action.IsSwitch ∧ scene.DeclaresTimeline name
  | .triggerToggle name _ => action.IsSwitch ∧ scene.DeclaresTrigger name
  | .group name inner =>
    action.target = none ∧ scene.DeclaresGroup name ∧ inner.IsObjectValid scene
  | kind => (∀ target ∈ action.target, scene.Addresses target) ∧ kind.IsObjectValid scene

@[mk_iff isValid_iff]
structure Action.IsValid (scene : Scene α) (action : Action α) : Prop where
  duration : Scalar.isMagnitude action.duration
  fits : action.Fits scene

/-! ### Conditions -/

def Anchor.IsValid (scene : Scene α) : Anchor α → Prop
  | .point position => position.IsFinite
  | .object id => scene.Addresses id

/-- The head looks at anything but itself. -/
def LookTarget.IsValid (scene : Scene α) : LookTarget α → Prop
  | .point position => position.IsFinite
  | .direction towards => towards.IsNormalizable
  | .object id => id ≠ headId ∧ scene.Addresses id

def Condition.IsValid (scene : Scene α) : Condition α → Prop
  | .orientation subject direction angle =>
    scene.Addresses subject.id ∧ direction.IsNormalizable ∧ Scalar.isMagnitude angle
  | .proximity subject anchor distance =>
    scene.Addresses subject.id ∧ anchor.IsValid scene ∧ Scalar.isMagnitude distance
  | .lookAt target angle => target.IsValid scene ∧ Scalar.isMagnitude angle
  | .movement subject distance => scene.Addresses subject.id ∧ Scalar.isMagnitude distance
  | .volume subject least greatest _ =>
    scene.Addresses subject.id ∧ least.IsFinite ∧ greatest.IsFinite ∧
      ∀ axis, least.get axis ≤ greatest.get axis

/-! ### Scenes -/

@[mk_iff isValid_iff]
structure Trigger.IsValid (scene : Scene α) (trigger : Trigger α) : Prop where
  epsilon : Scalar.isMagnitude trigger.epsilon
  condition : trigger.condition.IsValid scene
  actions : ∀ action ∈ trigger.actions, action.IsValid scene

@[mk_iff isValid_iff]
structure Timeline.IsValid (scene : Scene α) (timeline : Timeline α) : Prop where
  starts : ∀ entry ∈ timeline.entries, Scalar.isMagnitude entry.start
  actions : ∀ entry ∈ timeline.entries, entry.action.IsValid scene

@[mk_iff isValid_iff]
structure SceneObject.IsValid (scene : Scene α) (object : SceneObject α) : Prop where
  triggers : ∀ trigger ∈ object.triggers, trigger.IsValid scene
  links : ∀ action ∈ object.linkActions, action.IsValid scene
  timelines : ∀ timeline ∈ object.timelines, timeline.IsValid scene

@[mk_iff isValid_iff]
structure Scene.IsValid (scene : Scene α) : Prop where
  names : Directory.Unique scene.walk
  groups : Group.AreSound (scene.walk.map (·.id)) scene.groups
  objects : ∀ object, scene.Holds object → object.IsValid scene

end

/-! ### Walks -/

namespace SceneObject

theorem mem_preorderAll {objects : List (SceneObject α)} {object : SceneObject α}
    (member : object ∈ objects) : object ∈ preorderAll objects := by
  induction objects with
  | nil => cases member
  | cons first rest inductionHypothesis =>
    rw [preorderAll]
    rcases List.mem_cons.mp member with rfl | member
    · cases object
      rw [preorder]
      exact List.mem_append_left _ List.mem_cons_self
    · exact List.mem_append_right _ (inductionHypothesis member)

mutual

/-- A walk meets the children of whatever it meets. -/

theorem closed_preorder : (object : SceneObject α) → ∀ parent ∈ object.preorder,
    ∀ child ∈ parent.children, child ∈ object.preorder
  | ⟨_, _, _, _, _, _, _, children⟩ => by
    intro parent member child below
    rw [preorder] at member ⊢
    refine List.mem_cons_of_mem _ ?_
    rcases List.mem_cons.mp member with rfl | member
    · exact mem_preorderAll below
    · exact closed_preorderAll children parent member child below

theorem closed_preorderAll : (objects : List (SceneObject α)) → ∀ parent ∈ preorderAll objects,
    ∀ child ∈ parent.children, child ∈ preorderAll objects
  | [] => by simp [preorderAll]
  | object :: rest => by
    intro parent member child below
    rw [preorderAll] at member ⊢
    exact List.mem_append.mpr ((List.mem_append.mp member).imp
      (closed_preorder object parent · child below)
      (closed_preorderAll rest parent · child below))

end

mutual

/-- What children have from their parents, a walk meets throughout. -/
theorem forall_preorder {holds : SceneObject α → Prop}
    (descends : ∀ parent, holds parent → ∀ child ∈ parent.children, holds child) :
    (object : SceneObject α) → holds object → ∀ found ∈ object.preorder, holds found
  | ⟨_, _, _, _, _, _, _, children⟩ => by
    intro here found member
    rw [preorder] at member
    rcases List.mem_cons.mp member with rfl | member
    · exact here
    · exact forall_preorderAll descends children (descends _ here) found member

theorem forall_preorderAll {holds : SceneObject α → Prop}
    (descends : ∀ parent, holds parent → ∀ child ∈ parent.children, holds child) :
    (objects : List (SceneObject α)) → (∀ object ∈ objects, holds object) →
      ∀ found ∈ preorderAll objects, holds found
  | [] => by simp [preorderAll]
  | object :: rest => by
    intro all found member
    obtain ⟨here, later⟩ := List.forall_mem_cons.mp all
    rw [preorderAll] at member
    rcases List.mem_append.mp member with member | member
    · exact forall_preorder descends object here found member
    · exact forall_preorderAll descends rest later found member

end

end SceneObject

/-- A walk meets exactly what the scene holds. -/
theorem Scene.mem_walk_iff {scene : Scene α} {object : SceneObject α} :
    object ∈ scene.walk ↔ scene.Holds object := by
  constructor
  · exact SceneObject.forall_preorderAll (fun _ held _ => .child held) _ (fun _ => .root) object
  · intro held
    induction held with
    | root member => exact SceneObject.mem_preorderAll member
    | child _ below inductionHypothesis =>
      exact SceneObject.closed_preorderAll _ _ inductionHypothesis _ below

end Stagecraft
