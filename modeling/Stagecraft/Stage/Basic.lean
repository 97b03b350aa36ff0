/-
The stage is what a host keeps of a scene: a bag for every object and for the head, the number of
frames run, and a log of the calls that logic made. Visitors move, turn and click; they can only
reach what is hosted.
-/

import Stagecraft.Geometry.Facing
import Stagecraft.Logic.Slot
import Stagecraft.Logic.World
import Stagecraft.Scene.Basic

namespace Stagecraft

/-! ### Seeds -/

namespace Bag

variable {α : Type} [Scalar α]

def fromSlots (slots : List (Slot × α)) : Bag α :=
  slots.foldl (fun bag (slot, value) => bag.insert slot.key value) ∅

/-- The bag of an object before the first frame. -/
def ofObject (object : SceneObject α) : Bag α :=
  let visible : α := if object.visible then 1 else 0
  fromSlots ([(.visible, visible), (.alpha, visible)] ++
    (Axis.all.map fun axis => (.position axis, object.position.get axis)) ++
    (Part.all.map fun part => (.orientation part, object.orientation.get part)))

/-- The bag of the head before the first frame: at the origin, looking along the second axis. -/
def ofHead : Bag α :=
  fromSlots [(.visible, 1), (.alpha, 1), (.orientation .w, 1), (.forward .y, 1)]

end Bag

/-! ### Stages -/

/-- A call, with the frame and the object that it was made in. -/
structure LoggedCall where
  frame : Nat
  object : String
  call : HostCall
deriving DecidableEq

structure Stage (α : Type) where
  /-- The hosted objects, the head among them. -/
  ids : List String
  /-- The frames run so far. -/
  frame : Nat
  world : World α
  log : List LoggedCall

namespace Stage

variable {α : Type}

/-- The bags of a scene. Of several objects with one id the last one counts, and the head comes
after all. -/
def seeds [Scalar α] (scene : Scene α) : List (String × Bag α) :=
  scene.walk.map (fun object => (object.id, Bag.ofObject object)) ++ [(headId, Bag.ofHead)]

/-- A scene before the first frame. -/
def ofScene [Scalar α] (scene : Scene α) : Stage α :=
  let seeds := seeds scene
  let ids := seeds.map (·.1)
  { ids
    frame := 0
    world := {
      hosts := fun id => ids.contains id
      bags := seeds.foldl (fun bags (id, bag) => bags.insert id bag) ∅
      calls := [] }
    log := [] }

variable (stage : Stage α)

/-! ### Visitors -/

section

variable [Scalar α]

def get (id key : String) : α :=
  stage.world.read id key

/-- Write several slots of one hosted object. -/
def setSlots? (id : String) (slots : List (Slot × α)) : Option (Stage α) :=
  if stage.world.hosts id then
    some { stage with
      world := slots.foldl (fun world (slot, value) => world.write id slot.key value) stage.world }
  else none

def set? (id key : String) (value : α) : Option (Stage α) :=
  if stage.world.hosts id then some { stage with world := stage.world.write id key value }
  else none

def moveTo? (id : String) (position : Vec α) : Option (Stage α) :=
  stage.setSlots? id (Axis.all.map fun axis => (.position axis, position.get axis))

/-- Select an object for the next frame. -/
def click? (id : String) : Option (Stage α) :=
  stage.setSlots? id [(.clicked, 1)]

end

/-- Turn the head to a direction, unless its length has no reciprocal. -/
def look? [Trigonometric α] (direction : Vec α) : Option (Stage α) := do
  let forward ← direction.normalize?
  stage.setSlots? headId (Axis.all.map fun axis => (.forward axis, forward.get axis))

/-- Whether a bag holds a key; nothing for an object that is not hosted. -/
def holds? (id key : String) : Option Bool :=
  if stage.world.hosts id then some ((stage.world.bag id).contains key) else none

/-! ### Before and after the phases -/

/-- Let every object but the head face where its orientation says. -/
def face [Scalar α] (forward : Quaternion α → Vec α) : World α :=
  (stage.ids.filter (· != headId)).foldl
    (fun world id =>
      let direction := forward (.ofParts fun part => world.read id (Slot.orientation part).key)
      Axis.all.foldl
        (fun world axis => world.write id (Slot.forward axis).key (direction.get axis)) world)
    stage.world

/-- Take back all selections. -/
def release [Scalar α] (world : World α) : World α :=
  stage.ids.foldl
    (fun world id =>
      if world.read id Slot.clicked.key == 0 then world else world.write id Slot.clicked.key 0)
    world

/-- The stage after a frame that led to a world, with the calls of that frame logged. -/
def afterFrame (world : World α) : Stage α :=
  let frame := stage.frame + 1
  { stage with
    frame
    world := { world with calls := [] }
    log := stage.log ++ world.calls.map fun (object, call) => ⟨frame, object, call⟩ }

end Stage

end Stagecraft
