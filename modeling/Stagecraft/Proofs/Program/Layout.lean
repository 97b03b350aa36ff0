/-
This file describes the program of a scene by its parts. Every object with logic or with an action
on it has one place in the program, the head has one if an action is on it, and every target of an
action has a place. What objects own is made of the pieces that their sources give.
-/

import Stagecraft.Program.Compile
import Stagecraft.Proofs.Program.Sources
import Stagecraft.Proofs.Stage.Runs

namespace Stagecraft

namespace Program

variable {α : Type} [Trigonometric α]

/-- The actions of a scene, in the order of their numbers. -/
def instances (rate : α) (scene : Scene α) : List (Instance α) :=
  match ownedLogic rate scene with
  | .ok objects => objects.flatMap fun (_, owned) => owned.instances
  | .error _ => []

/-! ### Parts -/

/-- The parts that the program of a scene is made of. -/
structure Layout (rate : α) (scene : Scene α) (program : Program α) where
  directory : Directory α
  sound : Directory.ofScene scene = .ok directory
  /-- The objects of the scene with the logic that they own. -/
  owned : List (SceneObject α × Owned α)
  logic : ownedLogic rate scene = .ok owned
  objects : owned.map (·.1) = scene.walk
  made : ∀ entry ∈ owned, ∃ pieces, List.Forall₂
    (fun source piece => ∃ number, Owned.Made directory rate entry.1.id number source piece)
    entry.1.sources pieces ∧ entry.2 = Owned.concat pieces
  numbered : Owned.Numbered directory 0 (instances rate scene)
  contracts : ∀ action ∈ instances rate scene, action.breach? = none
  listed : program.objects =
    owned.filterMap (fun entry => ofObject? (instances rate scene) entry.1 entry.2) ++
      (ofHead? (instances rate scene)).toList

theorem checks_checkRate (rate : α) :
    Outcome.Checks (checkRate rate) (Scalar.isFinite rate ∧ 0 < rate) () :=
  Outcome.checks_ite

theorem breach_of_checkContracts {actions : List (Instance α)}
    (checked : checkContracts actions = .ok ()) : ∀ action ∈ actions, action.breach? = none := by
  induction actions with
  | nil => simp
  | cons first rest inductionHypothesis =>
    rw [checkContracts] at checked
    split at checked
    · cases checked
    · exact List.forall_mem_cons.mpr ⟨‹_›, inductionHypothesis checked⟩

/-- The logic of a scene is made piece by piece, under the numbers from zero on. -/
theorem exists_made {rate : α} {scene : Scene α} {owned : List (SceneObject α × Owned α)}
    (logic : ownedLogic rate scene = .ok owned) :
    ∃ directory, Directory.ofScene scene = .ok directory ∧ owned.map (·.1) = scene.walk ∧
      (∀ entry ∈ owned, ∃ pieces, List.Forall₂
        (fun source piece => ∃ number, Owned.Made directory rate entry.1.id number source piece)
        entry.1.sources pieces ∧ entry.2 = Owned.concat pieces) ∧
      Owned.Numbered directory 0 (instances rate scene) := by
  have all : instances rate scene = owned.flatMap fun entry => entry.2.instances := by
    rw [instances, logic]
  obtain ⟨⟨⟩, -, logic⟩ := Outcome.bind_eq_ok.mp logic
  obtain ⟨directory, sound, logic⟩ := Outcome.bind_eq_ok.mp logic
  obtain ⟨made, turned, zipped⟩ := Outcome.bind_eq_ok.mp logic
  have each : ∀ maker ∈ directory.objects.map (Owned.ofObject directory rate),
      ∀ first piece, maker first = .ok piece → Owned.Numbered directory first piece.instances := by
    intro maker member first piece madePiece
    obtain ⟨object, -, rfl⟩ := List.mem_map.mp member
    exact (Owned.numbered_ofObject sound madePiece).2
  obtain ⟨related, numbered⟩ := Owned.numbered_inTurn each turned
  rw [List.forall₂_map_left_iff] at related
  rw [← Outcome.pure_eq_ok.mp zipped] at all ⊢
  have sameLength := related.length_eq
  refine ⟨directory, sound, ?_, ?_, ?_⟩
  · rw [← Directory.objects_ofScene sound]
    exact List.map_fst_zip sameLength.le
  · intro entry member
    obtain ⟨number, madeHere⟩ := List.forall₂_zip related member
    exact (Owned.numbered_ofObject sound madeHere).1
  · rw [all, ← List.flatMap_map, List.map_snd_zip sameLength.ge]
    exact numbered

/-- A program has a layout. -/
theorem exists_layout {rate : α} {scene : Scene α} {program : Program α}
    (compiled : compile rate scene = .ok program) : Nonempty (Layout rate scene program) := by
  obtain ⟨owned, logic, compiled⟩ := Outcome.bind_eq_ok.mp compiled
  rw [Outcome.mapError_eq_ok] at logic
  obtain ⟨⟨⟩, checked, built⟩ := Outcome.bind_eq_ok.mp compiled
  have all : instances rate scene = owned.flatMap fun entry => entry.2.instances := by
    rw [instances, logic]
  obtain ⟨directory, sound, objects, made, numbered⟩ := exists_made logic
  refine ⟨{ directory, sound, owned, logic, objects, made, numbered, contracts := ?_, listed := ?_ }⟩
  · rw [all]
    exact breach_of_checkContracts checked
  · rw [← Outcome.pure_eq_ok.mp built, all]

/-! ### Places -/

theorem eq_of_ofObject {actions : List (Instance α)} {object : SceneObject α} {owned : Owned α}
    {placed : ObjectProgram α} (found : ofObject? actions object owned = some placed) :
    placed = ofParts object.id owned (targeting actions object.id) := by
  rw [ofObject?] at found
  split at found
  · exact (Option.some.inj found).symm
  · cases found

theorem eq_of_ofHead {actions : List (Instance α)} {placed : ObjectProgram α}
    (found : ofHead? actions = some placed) :
    placed = ofParts headId .nothing (targeting actions headId) := by
  rw [ofHead?] at found
  split at found
  · cases found
  · exact (Option.some.inj found).symm

namespace Layout

variable {rate : α} {scene : Scene α} {program : Program α} (layout : Layout rate scene program)

/-- The logic is that of the object of the scene with this id, or the head's, which is none. -/
def Owns (id : String) (owned : Owned α) : Prop :=
  (∃ object, (object, owned) ∈ layout.owned ∧ object.id = id) ∨ id = headId ∧ owned = .nothing

include layout

/-- An object of the program comes from the scene or is the head. -/
theorem parts_of_mem {placed : ObjectProgram α} (member : placed ∈ program.objects) :
    ∃ owned, placed = ofParts placed.id owned (targeting (instances rate scene) placed.id) ∧
      layout.Owns placed.id owned := by
  rw [layout.listed, List.mem_append, List.mem_filterMap, Option.mem_toList] at member
  rcases member with ⟨⟨object, owned⟩, inScene, found⟩ | found
  · rw [eq_of_ofObject found]
    exact ⟨owned, rfl, .inl ⟨object, inScene, rfl⟩⟩
  · rw [eq_of_ofHead found]
    exact ⟨.nothing, rfl, .inr ⟨rfl, rfl⟩⟩

/-- The actions of an object are actions of the scene. -/
theorem mem_instances {entry : SceneObject α × Owned α} (member : entry ∈ layout.owned)
    {action : Instance α} (owns : action ∈ entry.2.instances) : action ∈ instances rate scene := by
  rw [instances, layout.logic]
  exact List.mem_flatMap.mpr ⟨entry, member, owns⟩

theorem nodup_numbers : ((instances rate scene).map (·.number)).Nodup := by
  rw [layout.numbered.numbers]
  exact List.nodup_range'

/-- No two actions share a number. -/
theorem eq_of_number {first second : Instance α} (inFirst : first ∈ instances rate scene)
    (inSecond : second ∈ instances rate scene) (same : first.number = second.number) :
    first = second :=
  List.inj_on_of_nodup_map layout.nodup_numbers inFirst inSecond same

theorem id_mem_walk {entry : SceneObject α × Owned α} (member : entry ∈ layout.owned) :
    entry.1 ∈ scene.walk := by
  rw [← layout.objects]
  exact List.mem_map_of_mem member

/-- No object has two places. -/
theorem nodup_ids : (program.objects.map (·.id)).Nodup := by
  have unique := Directory.unique_of_ofScene layout.sound
  have walked : (layout.owned.map fun entry => entry.1.id).Nodup := by
    have ids := unique.ids
    rwa [← layout.objects, List.map_map] at ids
  have inScene := Lists.sublist_of_filterMap
    (fun entry : SceneObject α × Owned α => ofObject? (instances rate scene) entry.1 entry.2)
    (fun entry => entry.1.id) (fun placed => placed.id)
    (fun entry placed found => by rw [eq_of_ofObject found]; rfl) layout.owned
  have onHead : ∀ placed ∈ (ofHead? (instances rate scene)).toList, placed.id = headId := by
    intro placed member
    rw [eq_of_ofHead (Option.mem_toList.mp member)]
    rfl
  rw [layout.listed, List.map_append, List.nodup_append']
  refine ⟨walked.sublist inScene, ?_, ?_⟩
  · cases ofHead? (instances rate scene) <;> simp
  · intro id inFirst inSecond
    obtain ⟨entry, member, rfl⟩ := List.mem_map.mp (inScene.subset inFirst)
    obtain ⟨placed, isHead, same⟩ := List.mem_map.mp inSecond
    exact unique.notHead entry.1 (layout.id_mem_walk member) (same ▸ onHead placed isHead)

/-- Every target of an action has a place. -/
theorem exists_target {action : Instance α} (member : action ∈ instances rate scene)
    {target : String} (targeted : target ∈ action.targets) :
    ∃ placed ∈ program.objects, placed.id = target := by
  have aimed : action ∈ targeting (instances rate scene) target :=
    List.mem_filter.mpr ⟨member, by simpa using targeted⟩
  have nonempty : (targeting (instances rate scene) target).isEmpty = false := by
    simpa using List.ne_nil_of_mem aimed
  rw [layout.listed]
  rcases Directory.isAddressable_iff.mp (layout.numbered.known action member target targeted)
    with rfl | known
  · refine ⟨ofParts headId .nothing (targeting (instances rate scene) headId),
      List.mem_append_right _ (Option.mem_toList.mpr ?_), rfl⟩
    rw [ofHead?, nonempty]
    rfl
  · rw [Directory.isObject_iff, Directory.objects_ofScene layout.sound, ← layout.objects,
      List.map_map] at known
    obtain ⟨⟨object, owned⟩, inScene, rfl⟩ := List.mem_map.mp known
    refine ⟨ofParts object.id owned (targeting (instances rate scene) object.id),
      List.mem_append_left _ (List.mem_filterMap.mpr ⟨(object, owned), inScene, ?_⟩), rfl⟩
    simp only [Function.comp_apply] at nonempty
    rw [ofObject?, nonempty, Bool.not_false, Bool.or_true]
    rfl

/-- The objects before and after a place are other ones. -/
theorem exists_place {placed : ObjectProgram α} (isPlaced : placed ∈ program.objects) :
    ∃ earlier later, program.objects = earlier ++ placed :: later ∧
      ∀ other, other ∈ earlier ∨ other ∈ later → other.id ≠ placed.id := by
  obtain ⟨earlier, later, objects⟩ := List.append_of_mem isPlaced
  have once := layout.nodup_ids
  rw [objects, List.map_append, List.map_cons] at once
  obtain ⟨notEarlier, notLater⟩ := Lists.eq_of_nodup_append once
  refine ⟨earlier, later, objects, fun other inside same => ?_⟩
  rcases inside with inside | inside
  · exact notEarlier (same ▸ List.mem_map_of_mem inside)
  · exact notLater (same ▸ List.mem_map_of_mem inside)

/-- The actions on an object before and after one of them are other ones. -/
theorem exists_turn {action : Instance α} (member : action ∈ instances rate scene)
    {target : String} (targeted : target ∈ action.targets) :
    ∃ before after, targeting (instances rate scene) target = before ++ action :: after ∧
      ∀ other, other ∈ before ∨ other ∈ after → other.number ≠ action.number := by
  have aimed : action ∈ targeting (instances rate scene) target :=
    List.mem_filter.mpr ⟨member, by simpa using targeted⟩
  have once : ((targeting (instances rate scene) target).map (·.number)).Nodup :=
    layout.nodup_numbers.sublist (List.filter_sublist.map _)
  obtain ⟨before, after, split⟩ := List.append_of_mem aimed
  rw [split, List.map_append, List.map_cons] at once
  obtain ⟨notBefore, notAfter⟩ := Lists.eq_of_nodup_append once
  refine ⟨before, after, split, fun other inside same => ?_⟩
  rcases inside with inside | inside
  · exact notBefore (same ▸ List.mem_map_of_mem inside)
  · exact notAfter (same ▸ List.mem_map_of_mem inside)

/-- Every object of the program is hosted. -/
theorem hosts_of_mem {placed : ObjectProgram α} (member : placed ∈ program.objects) :
    (Stage.ofScene scene).world.hosts placed.id := by
  obtain ⟨owned, -, ⟨object, inScene, same⟩ | ⟨same, -⟩⟩ := layout.parts_of_mem member
  · rw [← same, Stage.hosts_ofScene]
    exact .inr (List.mem_map_of_mem (layout.id_mem_walk inScene))
  · rw [same, Stage.hosts_ofScene]
    exact .inl rfl

theorem exists_owned {object : SceneObject α} (inScene : object ∈ scene.walk) :
    ∃ owned, (object, owned) ∈ layout.owned := by
  rw [← layout.objects] at inScene
  obtain ⟨⟨_, owned⟩, member, rfl⟩ := List.mem_map.mp inScene
  exact ⟨owned, member⟩

omit layout in
theorem hosts_owner {object : SceneObject α} (inScene : object ∈ scene.walk) :
    (Stage.ofScene scene).world.hosts object.id :=
  (Stage.hosts_ofScene scene object.id).mpr (.inr (List.mem_map_of_mem inScene))

/-! ### Phases -/

/-- An object enters with its setup, and goes on with the logic that it owns. -/
theorem listed_enter {placed : ObjectProgram α} (isPlaced : placed ∈ program.objects) :
    ∃ owned, layout.Owns placed.id owned ∧ placed.phases.get .enter =
      once (((targeting (instances rate scene) placed.id).map (·.setup)).eraseDups.flatten ++
        owned.setup) ++ owned.enter := by
  obtain ⟨owned, parts, owns⟩ := layout.parts_of_mem isPlaced
  exact ⟨owned, owns, congrArg (·.phases.enter) parts⟩

theorem listed_advance {placed : ObjectProgram α} (isPlaced : placed ∈ program.objects) :
    placed.phases.get .advance =
      (targeting (instances rate scene) placed.id).flatMap (·.advance) := by
  obtain ⟨owned, parts, -⟩ := layout.parts_of_mem isPlaced
  rw [parts]
  rfl

theorem listed_exit {placed : ObjectProgram α} (isPlaced : placed ∈ program.objects) :
    placed.phases.get .exit =
      (targeting (instances rate scene) placed.id).flatMap (·.finish) := by
  obtain ⟨owned, parts, -⟩ := layout.parts_of_mem isPlaced
  rw [parts]
  rfl

/-! ### Setups -/

omit layout in
/-- The setups of actions write snapshots. -/
theorem writesOnly_captures {id : String} {allowed : String → Slot → Prop}
    (captured : ∀ channel, allowed id (.captured channel)) (actions : List (Instance α)) :
    Block.WritesOnly allowed id (actions.map (·.setup)).eraseDups.flatten := by
  rw [← List.flatMap_id]
  refine Block.writesOnly_flatMap fun setup inSetups => ?_
  obtain ⟨action, -, rfl⟩ := List.mem_map.mp (Lists.mem_of_mem_eraseDups inSetups)
  exact action.effect.writesOnly_setup captured

/-- What an object sets up for its own logic writes slots of timelines. -/
theorem writesOnly_ownSetup {id : String} {owned : Owned α} (owns : layout.Owns id owned)
    {allowed : String → Slot → Prop}
    (timelines : ∀ name field, allowed id (.timeline name field)) :
    Block.WritesOnly allowed id owned.setup := by
  rcases owns with ⟨object, inScene, same⟩ | ⟨-, rfl⟩
  · obtain ⟨pieces, made, rfl⟩ := layout.made _ inScene
    rw [Owned.setup_concat]
    refine Block.writesOnly_flatMap fun piece inPieces => ?_
    obtain ⟨source, -, number, madePiece⟩ := Lists.exists_of_mem_right made inPieces
    rw [← same] at timelines ⊢
    exact Owned.writesOnly_setup madePiece timelines
  · exact Block.writesOnly_nil

/-- What an object runs in its first frame writes snapshots, slots of timelines, and that the frame
has begun. -/
theorem writesOnly_once {id : String} {owned : Owned α} (owns : layout.Owns id owned)
    {allowed : String → Slot → Prop} (initialized : allowed id .initialized)
    (captured : ∀ channel, allowed id (.captured channel))
    (timelines : ∀ name field, allowed id (.timeline name field)) (actions : List (Instance α)) :
    Block.WritesOnly allowed id
      (once ((actions.map (·.setup)).eraseDups.flatten ++ owned.setup)) := by
  rw [once]
  split
  · exact Block.writesOnly_nil
  · rw [Block.writesOnly_onlyIf, Block.writesOnly_append, Block.writesOnly_append,
      Block.writesOnly_write]
    exact ⟨⟨writesOnly_captures captured actions, layout.writesOnly_ownSetup owns timelines⟩,
      initialized⟩

end Layout

end Program

/-! ### Small scenes -/

/-- A lamp fades for one second when the viewpoint comes near it. -/
def Trigger.near : Trigger Float where
  name := "near"
  condition := .proximity .head (.object "lamp") 2
  actions := [⟨none, 1, .visibility false⟩]
  remain := false
  enabled := true
  epsilon := 0

def Scene.lamp : Scene Float where
  objects := [{
    id := "lamp"
    position := ⟨0, 0, 0⟩
    orientation := ⟨1, 0, 0, 0⟩
    visible := true
    triggers := [.near]
    timelines := []
    linkActions := []
    children := [] }]
  groups := []

/-- An object at the origin that does nothing. -/
def SceneObject.still (id : String) : SceneObject Float where
  id
  position := ⟨0, 0, 0⟩
  orientation := ⟨1, 0, 0, 0⟩
  visible := true
  triggers := []
  timelines := []
  linkActions := []
  children := []

/-- Who comes through the door is moved on while the lights go out. A bell on the door rings one
second after the opening, and selecting the door brings it back to where it was. -/
def Scene.hall : Scene Float where
  objects := [
    { SceneObject.still "door" with
      triggers := [{
        name := "passage"
        condition := .volume .head ⟨-1, -1, -1⟩ ⟨1, 1, 1⟩ .enter
        actions := [⟨none, 2, .group "lights" (.visibility false)⟩,
          ⟨some "head", 0, .move ⟨some ⟨0, 2, 0⟩, .center, .unchanged⟩ true⟩]
        remain := false
        enabled := true
        epsilon := 0 }]
      timelines := [{
        name := "opening"
        autostart := true
        entries := [⟨1, ⟨some "bell", 2, .sound "ring" (.start 1)⟩⟩] }]
      linkActions := [⟨none, 0, .reset⟩]
      children := [.still "bell"] },
    .still "rug",
    .still "lamp",
    .still "lantern"]
  groups := [⟨"lights", ["lantern", "lamp"], []⟩]

/-- The viewpoint steps along an axis, to one place before each frame until there is no other. -/
def Visit.along {α : Type} (axis : Axis) (places : List α) (frame : Nat) : List (Visit α) :=
  (places[frame]?.map fun place => ⟨headId, .position axis, place, trivial⟩).toList

theorem Program.exists_of_isOk {α : Type} [Trigonometric α] {rate : α} {scene : Scene α}
    (accepted : (Program.compile rate scene).isOk = true) :
    ∃ program, Program.compile rate scene = .ok program := by
  cases compiled : Program.compile rate scene with
  | ok program => exact ⟨program, rfl⟩
  | error fault =>
    rw [compiled] at accepted
    cases accepted

theorem Scene.exists_compile_lamp : ∃ program, Program.compile 1 Scene.lamp = .ok program :=
  Program.exists_of_isOk (by decide +kernel)

theorem Scene.exists_compile_hall : ∃ program, Program.compile 1 Scene.hall = .ok program :=
  Program.exists_of_isOk (by decide +kernel)

end Stagecraft
