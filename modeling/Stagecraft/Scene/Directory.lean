/-
Names resolved. A directory knows the objects of a scene, the members of its groups, and who owns
each trigger and timeline. It is made only of a scene whose names are unique and whose groups are
sound.
-/

import Stagecraft.Scene.Membership

namespace Stagecraft

structure Directory (α : Type) where
  /-- The objects of the scene, parents before children. -/
  objects : List (SceneObject α)
  /-- The members of each group. -/
  groups : List (String × List String)

namespace Directory

variable {α : Type}

/-! ### Construction -/

/-- The first name that has been seen before. -/
def firstRepeat? : List String → List String → Option String
  | _, [] => none
  | seen, name :: rest => if seen.contains name then some name else firstRepeat? (name :: seen) rest

/-- Object ids, trigger names and timeline names are each unique, and no object has the id of the
head. -/
def checkObjects (ids triggers timelines : List String) :
    List (SceneObject α) → Except (Fault α) Unit
  | [] => .ok ()
  | object :: rest =>
    let triggerNames := object.triggers.map (·.name)
    let timelineNames := object.timelines.map (·.name)
    if object.id = headId then .error (.reservedObject object.id)
    else if ids.contains object.id then .error (.duplicateObject object.id)
    else match firstRepeat? triggers triggerNames with
      | some name => .error (.duplicateName .trigger name)
      | none => match firstRepeat? timelines timelineNames with
        | some name => .error (.duplicateName .timeline name)
        | none => checkObjects (object.id :: ids) (triggerNames ++ triggers)
            (timelineNames ++ timelines) rest

/-- Names in ascending order of their characters. -/
def sorted (names : List String) : List String :=
  names.mergeSort fun first second => !decide (second < first)

def ofScene (scene : Scene α) : Except (Fault α) (Directory α) := do
  let objects := scene.walk
  checkObjects [] [] [] objects
  let names := scene.groups.map (·.name)
  match firstRepeat? [] names with
  | some name => throw (.duplicateName .group name)
  | none =>
    let isObject id := objects.any (·.id == id)
    let groups ← (sorted names).mapM fun name => do
      let members ← Group.members isObject scene.groups name
      return (name, members)
    return { objects, groups }

/-! ### Questions -/

variable (directory : Directory α)

def ids : List String :=
  sorted (directory.objects.map (·.id))

def isObject (id : String) : Bool :=
  directory.objects.any (·.id == id)

/-- Whether the id is that of an object or of the head. -/
def isAddressable (id : String) : Bool :=
  id == headId || directory.isObject id

def requireObject (context : Context) (id : String) : Except (Fault α) Unit :=
  if directory.isAddressable id then .ok () else .error (.unknownObject context id)

def groupMembers (context : Context) (name : String) : Except (Fault α) (List String) :=
  match directory.groups.lookup name with
  | some members => .ok members
  | none => .error (.unknownGroup context name)

/-- The object that has a timeline. -/
def timelineOwner (context : Context) (name : String) : Except (Fault α) String :=
  match directory.objects.find? fun object => object.timelines.any (·.name == name) with
  | some object => .ok object.id
  | none => .error (.unknownTimeline context name)

/-- The object that has a trigger. -/
def triggerOwner (context : Context) (name : String) : Except (Fault α) String :=
  match directory.objects.find? fun object => object.triggers.any (·.name == name) with
  | some object => .ok object.id
  | none => .error (.unknownTrigger context name)

end Directory

end Stagecraft
