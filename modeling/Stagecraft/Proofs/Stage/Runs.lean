/-
This file sets a program on a stage and lets visitors act before every frame. Visitors write what is
seen of objects, where they face and what is selected, with any values and in any order. Between
two frames they and the stage itself reach no other slot, so what logic keeps for itself changes
only where a frame runs.
-/

import Stagecraft.Proofs.Stage.Agenda

namespace Stagecraft

variable {α : Type}

/-! ### Visits -/

/-- The slots that are kept from outside of logic. -/
def Slot.IsOutward : Slot → Prop
  | .channel _ | .forward _ | .clicked => True
  | _ => False

/-- One write from outside of logic. -/
structure Visit (α : Type) where
  object : String
  slot : Slot
  value : α
  outward : slot.IsOutward

/-- The stage after some visits. -/
def Stage.visited (stage : Stage α) (visits : List (Visit α)) : Stage α :=
  { stage with
    world := visits.foldl
      (fun world visit => world.write visit.object visit.slot.key visit.value) stage.world }

/-- A program on a stage, with the visits before each frame. -/
structure Run (α : Type) where
  program : Program α
  opening : Stage α
  visits : Nat → List (Visit α)

namespace Run

/-- A program on the stage of its scene. -/
def ofScene [Scalar α] (program : Program α) (scene : Scene α) (visits : Nat → List (Visit α)) : Run α :=
  ⟨program, Stage.ofScene scene, visits⟩

variable [Trigonometric α] (run : Run α)

/-- The stage before a frame and the visits to it. -/
def stage : Nat → Stage α
  | 0 => run.opening
  | frame + 1 => ((stage frame).visited (run.visits frame)).runFrame run.program

/-- The world in which the phases of a frame begin. -/
def world (frame : Nat) : World α :=
  ((run.stage frame).visited (run.visits frame)).face Quaternion.forward

/-- What happens in the phases of a frame. -/
def trace (frame : Nat) : List (Event α) :=
  run.program.frame.trace (run.world frame)

end Run

/-! ### Between the frames -/

theorem World.hosts_foldl {β : Type} {step : World α → β → World α}
    (keeps : ∀ world value, (step world value).hosts = world.hosts)
    (values : List β) (world : World α) : (values.foldl step world).hosts = world.hosts := by
  induction values generalizing world with
  | nil => rfl
  | cons value rest inductionHypothesis => rw [List.foldl_cons, inductionHypothesis, keeps]

section

variable [Scalar α]

/-- Steps that leave a place alone do so one after the other. -/
theorem World.read_foldl {β : Type} {object key : String} {step : World α → β → World α}
    (spares : ∀ world value, (step world value).read object key = world.read object key)
    (values : List β) (world : World α) :
    (values.foldl step world).read object key = world.read object key := by
  induction values generalizing world with
  | nil => rfl
  | cons value rest inductionHypothesis => rw [List.foldl_cons, inductionHypothesis, spares]

/-- A write from outside leaves the slots of logic alone. -/
theorem World.read_write_outward {slot : Slot} (written : Slot) (outward : written.IsOutward)
    (inward : ¬slot.IsOutward) (world : World α) (object target : String) (value : α) :
    (world.write target written.key value).read object slot.key = world.read object slot.key := by
  have different : written.key ≠ slot.key := fun same =>
    inward (Slot.key_injective same ▸ outward)
  rw [World.read_write, if_neg fun same => different same.2.2]

namespace Stage

variable {slot : Slot} (inward : ¬slot.IsOutward)

include inward

theorem read_visited (stage : Stage α) (visits : List (Visit α)) (object : String) :
    (stage.visited visits).world.read object slot.key = stage.world.read object slot.key := by
  have spares (world : World α) (visit : Visit α) :=
    World.read_write_outward visit.slot visit.outward inward world object visit.object visit.value
  exact World.read_foldl spares visits stage.world

theorem read_face (stage : Stage α) (forward : Quaternion α → Vec α) (object : String) :
    (stage.face forward).read object slot.key = stage.world.read object slot.key := by
  refine World.read_foldl (fun world id => World.read_foldl (fun world axis => ?_) _ world) _ _
  exact World.read_write_outward (.forward axis) trivial inward world _ _ _

theorem read_release (stage : Stage α) (world : World α) (object : String) :
    (stage.release world).read object slot.key = world.read object slot.key := by
  refine World.read_foldl (fun world id => ?_) _ world
  split
  · rfl
  · exact World.read_write_outward .clicked trivial inward world _ _ _

end Stage

end

/-! ### Before the first frame -/

section

variable [Scalar α] {slot : Slot} (inward : ¬slot.IsOutward)

include inward

theorem Bag.read_fromSlots {slots : List (Slot × α)}
    (outward : ∀ entry ∈ slots, entry.1.IsOutward) :
    (Bag.fromSlots slots).read slot.key = 0 := by
  have spared : ∀ bag : Bag α, (slots.foldl
      (fun bag entry => bag.insert entry.1.key entry.2) bag).read slot.key = bag.read slot.key := by
    induction slots with
    | nil => exact fun _ => rfl
    | cons entry rest inductionHypothesis =>
      obtain ⟨here, later⟩ := List.forall_mem_cons.mp outward
      have different : entry.1.key ≠ slot.key := fun same =>
        inward (Slot.key_injective same ▸ here)
      intro bag
      rw [List.foldl_cons, inductionHypothesis later, Bag.read, Std.ExtTreeMap.getElem?_insert]
      simp [different, Bag.read]
  rw [Bag.fromSlots, spared, Bag.read]
  simp

theorem Bag.read_seed {scene : Scene α} {entry : String × Bag α}
    (member : entry ∈ Stage.seeds scene) : entry.2.read slot.key = 0 := by
  rw [Stage.seeds, List.mem_append, List.mem_map, List.mem_singleton] at member
  rcases member with ⟨object, -, rfl⟩ | rfl
  · refine Bag.read_fromSlots inward fun entry member => ?_
    simp only [List.mem_append, List.mem_map] at member
    rcases member with (member | ⟨axis, -, rfl⟩) | ⟨part, -, rfl⟩
    · fin_cases member <;> trivial
    · trivial
    · trivial
  · refine Bag.read_fromSlots inward fun entry member => ?_
    fin_cases member <;> trivial

/-- What logic keeps for itself is absent before the first frame. -/
theorem Stage.read_ofScene (scene : Scene α) (object : String) :
    (Stage.ofScene scene).world.read object slot.key = 0 := by
  have kept (bags : Std.ExtTreeMap String (Bag α) compare) (seeds : List (String × Bag α))
      (absent : ((bags[object]?).getD ∅).read slot.key = 0)
      (each : ∀ entry ∈ seeds, entry.2.read slot.key = 0) :
      (((seeds.foldl (fun bags entry => bags.insert entry.1 entry.2) bags)[object]?).getD ∅).read
        slot.key = 0 := by
    induction seeds generalizing bags with
    | nil => exact absent
    | cons entry rest inductionHypothesis =>
      obtain ⟨here, later⟩ := List.forall_mem_cons.mp each
      refine inductionHypothesis _ ?_ later
      by_cases same : entry.1 = object
      · simpa [Std.ExtTreeMap.getElem?_insert, same] using here
      · simpa [Std.ExtTreeMap.getElem?_insert, same] using absent
  refine kept ∅ _ ?_ fun entry member => Bag.read_seed inward member
  simp [Bag.read]

end

theorem Stage.hosts_ofScene [Scalar α] (scene : Scene α) (object : String) :
    (Stage.ofScene scene).world.hosts object = true ↔
      object = headId ∨ object ∈ scene.walk.map (·.id) := by
  simp only [ofScene, seeds, List.map_append, List.map_map, List.map_cons, List.map_nil,
    List.contains_eq_mem, List.mem_append, List.mem_singleton, decide_eq_true_eq]
  exact or_comm

/-! ### Frames -/

theorem Stage.hosts_visited (stage : Stage α) (visits : List (Visit α)) :
    (stage.visited visits).world.hosts = stage.world.hosts :=
  World.hosts_foldl (fun _ _ => World.hosts_write _ _ _ _) visits stage.world

theorem Stage.hosts_face [Scalar α] (stage : Stage α) (forward : Quaternion α → Vec α) :
    (stage.face forward).hosts = stage.world.hosts :=
  World.hosts_foldl (fun _ _ => World.hosts_foldl (fun _ _ => World.hosts_write _ _ _ _) _ _) _ _

theorem Stage.hosts_release [Scalar α] (stage : Stage α) (world : World α) :
    (stage.release world).hosts = world.hosts := by
  refine World.hosts_foldl (fun world id => ?_) _ world
  split
  · rfl
  · exact World.hosts_write _ _ _ _

namespace Run

variable [Trigonometric α] (run : Run α)

theorem stage_succ (frame : Nat) :
    run.stage (frame + 1) =
      ((run.stage frame).visited (run.visits frame)).afterFrame
        (((run.stage frame).visited (run.visits frame)).release
          (run.program.frame.run (run.world frame))) := by
  rw [stage, Stage.runFrame, Program.foldl_runPhase, world]

/-- Who is hosted never changes. -/
@[simp] theorem hosts_stage (frame : Nat) :
    (run.stage frame).world.hosts = run.opening.world.hosts := by
  induction frame with
  | zero => rfl
  | succ frame inductionHypothesis =>
    rw [stage_succ, Stage.afterFrame, Stage.hosts_release, Agenda.hosts_run, world,
      Stage.hosts_face, Stage.hosts_visited, inductionHypothesis]

@[simp] theorem hosts_world (frame : Nat) :
    (run.world frame).hosts = run.opening.world.hosts := by
  rw [world, Stage.hosts_face, Stage.hosts_visited, hosts_stage]

variable {slot : Slot} (inward : ¬slot.IsOutward) (frame : Nat) (object : String)

include inward

/-- What logic keeps for itself is found by a frame as the last one left it. -/
theorem read_world :
    (run.world frame).read object slot.key = (run.stage frame).world.read object slot.key := by
  rw [world, Stage.read_face inward, Stage.read_visited inward]

theorem read_stage_succ :
    (run.stage (frame + 1)).world.read object slot.key =
      (run.program.frame.run (run.world frame)).read object slot.key := by
  rw [stage_succ]
  exact Stage.read_release inward _ _ _

end Run

end Stagecraft
