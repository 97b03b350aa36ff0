/-
The members of groups. A group holds its own objects and those of the groups nested in it, taken in
order and each only once. On the way into nested groups every group may be met only once, so the
groups not yet on the way bound the walk.
-/

import Stagecraft.Scene.Fault

namespace Stagecraft

namespace Group

variable {α : Type}

/-- The group of a name. -/
def find? (groups : List Group) (name : String) : Option Group :=
  groups.find? (·.name == name)

/-- The groups of all other names. -/
def others (groups : List Group) (name : String) : List Group :=
  groups.filter (·.name != name)

theorem length_others_lt {groups : List Group} {name : String} {group : Group}
    (found : find? groups name = some group) :
    (others groups name).length < groups.length := by
  unfold others
  have member : group ∈ groups := List.mem_of_find?_eq_some found
  have same : (group.name == name) = true := by
    simpa using List.find?_some found
  refine List.length_filter_lt_length_iff_exists.2 ⟨group, member, ?_⟩
  simpa using same

/-- The objects met on the way through a group, with repetitions. `available` are the groups not
on the path that leads here. -/
def walk (isObject : String → Bool) (available : List Group) (path : List String)
    (name : String) : Except (Fault α) (List String) :=
  if path.contains name then .error (.groupCycle name)
  else match _found : find? available name with
    | none => .error (.unknownGroup (.group (path.head?.getD name)) name)
    | some group =>
      match group.objects.find? fun id => !isObject id with
      | some id => .error (.unknownObject (.group name) id)
      | none => do
        let nested ← group.groups.mapM fun inner =>
          walk isObject (others available name) (name :: path) inner
        return group.objects ++ nested.flatten
termination_by available.length
decreasing_by exact length_others_lt ‹_›

/-- The members of a group, in the order in which they are first met. -/
def members (isObject : String → Bool) (groups : List Group) (name : String) :
    Except (Fault α) (List String) := do
  let met ← walk isObject groups [] name
  return met.eraseDups

end Group

end Stagecraft
