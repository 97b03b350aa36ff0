/-
Bags in a world. Reading what is not there gives zero, and writing to an object that is not hosted
is ignored. A world also lists the calls that logic makes to its host.
-/

import Stagecraft.Logic.Basic
import Std.Data.ExtTreeMap

namespace Stagecraft

abbrev Bag (α : Type) := Std.ExtTreeMap String α compare

namespace Bag

variable {α : Type} [Scalar α]

def read (bag : Bag α) (key : String) : α :=
  (bag[key]?).getD 0

end Bag

structure World (α : Type) where
  hosts : String → Bool
  bags : Std.ExtTreeMap String (Bag α) compare
  /-- The calls made so far, with the objects they were made on. -/
  calls : List (String × HostCall)

namespace World

variable {α : Type}

/-- A world without bags that hosts every object. -/
def blank : World α :=
  { hosts := fun _ => true, bags := ∅, calls := [] }

def bag (world : World α) (object : String) : Bag α :=
  (world.bags[object]?).getD ∅

def read [Scalar α] (world : World α) (object key : String) : α :=
  (world.bag object).read key

def write (world : World α) (object key : String) (value : α) : World α :=
  if world.hosts object then
    { world with bags := world.bags.insert object ((world.bag object).insert key value) }
  else world

/-- Remove a key, so that it reads as zero again. -/
def clear (world : World α) (object key : String) : World α :=
  if world.hosts object then
    { world with bags := world.bags.insert object ((world.bag object).erase key) }
  else world

def call (world : World α) (object : String) (call : HostCall) : World α :=
  { world with calls := world.calls ++ [(object, call)] }

/-! ### Views -/

theorem read_write [Scalar α] (world : World α) (object key object' key' : String) (value : α) :
    (world.write object key value).read object' key' =
      if world.hosts object ∧ object = object' ∧ key = key' then value
      else world.read object' key' := by
  unfold write read bag Bag.read
  split <;> rename_i hosted
  · by_cases sameObject : object = object'
    · subst sameObject
      by_cases sameKey : key = key'
      · subst sameKey
        simp [hosted]
      · simp [hosted, sameKey, Std.ExtTreeMap.getElem?_insert]
    · simp [hosted, sameObject, Std.ExtTreeMap.getElem?_insert]
  · simp [hosted]

theorem read_clear [Scalar α] (world : World α) (object key object' key' : String) :
    (world.clear object key).read object' key' =
      if world.hosts object ∧ object = object' ∧ key = key' then 0
      else world.read object' key' := by
  unfold clear read bag Bag.read
  split <;> rename_i hosted
  · by_cases sameObject : object = object'
    · subst sameObject
      by_cases sameKey : key = key'
      · subst sameKey
        simp [hosted]
      · simp [hosted, sameKey, Std.ExtTreeMap.getElem?_erase]
    · simp [hosted, sameObject, Std.ExtTreeMap.getElem?_insert]
  · simp [hosted]

@[simp] theorem read_call [Scalar α] (world : World α) (object object' key : String)
    (made : HostCall) : (world.call object made).read object' key = world.read object' key := rfl

@[simp] theorem calls_call (world : World α) (object : String) (made : HostCall) :
    (world.call object made).calls = world.calls ++ [(object, made)] := rfl

@[simp] theorem calls_write (world : World α) (object key : String) (value : α) :
    (world.write object key value).calls = world.calls := by
  unfold write
  split <;> rfl

@[simp] theorem calls_clear (world : World α) (object key : String) :
    (world.clear object key).calls = world.calls := by
  unfold clear
  split <;> rfl

@[simp] theorem hosts_write (world : World α) (object key : String) (value : α) :
    (world.write object key value).hosts = world.hosts := by
  unfold write
  split <;> rfl

@[simp] theorem hosts_clear (world : World α) (object key : String) :
    (world.clear object key).hosts = world.hosts := by
  unfold clear
  split <;> rfl

@[simp] theorem hosts_call (world : World α) (object : String) (made : HostCall) :
    (world.call object made).hosts = world.hosts := rfl

end World

end Stagecraft
