/-
This file shows that the logic of a program is spelled: whatever its blocks read or write, on any
object, is in a slot. So no two things that are kept in one bag ever stand under one key, however
triggers, timelines and sounds are named, and what a bag holds under a key in a run was put there
for the one slot of that key.
-/

import Stagecraft.Proofs.Program.Demands

namespace Stagecraft

variable {α : Type}

/-! ### Programs -/

/-- The demand that all keys are those of slots. -/
def Demand.spelled (α : Type) [Trigonometric α] : Demand α where
  number _ := True
  key := Slot.IsKey
  few _ := True
  of_finite _ := trivial
  zero := trivial
  one := trivial
  minusOne := trivial
  two := trivial
  leastNorm := trivial
  degrees := trivial
  direction _ _ := trivial
  slot := Slot.isKey
  fewer _ _ := trivial
  ticks _ _ _ _ := trivial
  count _ := trivial

theorem Program.Layout.isSpelled_fragment [Trigonometric α] {rate : α} {scene : Scene α}
    {program : Program α} (layout : Layout rate scene program) {block : Block α}
    (member : block ∈ program.fragments) : Block.IsSpelled block := by
  have meets : Block.Meets (.spelled α) block :=
    layout.meets_fragment (fun _ _ _ => Instance.worksOut_of_forall fun _ => trivial)
      (fun _ _ _ _ => trivial) (fun _ _ trigger _ => trigger.worksOut_of_forall fun _ => trivial)
      member
  exact meets.2

/-! ### Stages -/

theorem World.isSpelled_foldl {β : Type} {step : World α → β → World α}
    (keeps : ∀ world value, world.IsSpelled → (step world value).IsSpelled) (values : List β)
    {world : World α} (spelled : world.IsSpelled) : (values.foldl step world).IsSpelled := by
  induction values generalizing world with
  | nil => exact spelled
  | cons value rest inductionHypothesis => exact inductionHypothesis (keeps world value spelled)

/-- All that a bag holds is kept in slots. -/
def Bag.IsSpelled (bag : Bag α) : Prop :=
  ∀ key, bag[key]? ≠ none → Slot.IsKey key

theorem Bag.isSpelled_empty : IsSpelled (∅ : Bag α) := by
  intro key held
  exact absurd Std.ExtTreeMap.getElem?_empty held

theorem Bag.isSpelled_fromSlots (slots : List (Slot × α)) : (fromSlots slots).IsSpelled := by
  have kept (bag : Bag α) (spelled : bag.IsSpelled) :
      IsSpelled (slots.foldl (fun bag entry => bag.insert entry.1.key entry.2) bag) := by
    induction slots generalizing bag with
    | nil => exact spelled
    | cons entry rest inductionHypothesis =>
      refine inductionHypothesis _ fun key held => ?_
      rw [Std.ExtTreeMap.getElem?_insert] at held
      split at held
      · rename_i same
        exact compare_eq_iff_eq.mp same ▸ entry.1.isKey
      · exact spelled key held
  exact kept ∅ isSpelled_empty

section

variable [Scalar α]

namespace Stage

theorem isSpelled_seed {scene : Scene α} {entry : String × Bag α} (member : entry ∈ seeds scene) :
    entry.2.IsSpelled := by
  rw [seeds, List.mem_append, List.mem_map, List.mem_singleton] at member
  rcases member with ⟨object, -, rfl⟩ | rfl
  · exact Bag.isSpelled_fromSlots _
  · exact Bag.isSpelled_fromSlots _

theorem isSpelled_ofScene (scene : Scene α) : (ofScene scene).world.IsSpelled := by
  have kept (bags : Std.ExtTreeMap String (Bag α) compare) (seeds : List (String × Bag α))
      (each : ∀ entry ∈ seeds, entry.2.IsSpelled)
      (spelled : ∀ object : String, Bag.IsSpelled ((bags[object]?).getD ∅)) (object : String) :
      Bag.IsSpelled (((seeds.foldl (fun bags entry => bags.insert entry.1 entry.2)
        bags)[object]?).getD ∅) := by
    induction seeds generalizing bags with
    | nil => exact spelled object
    | cons entry rest inductionHypothesis =>
      obtain ⟨here, later⟩ := List.forall_mem_cons.mp each
      refine inductionHypothesis _ later fun other => ?_
      rw [Std.ExtTreeMap.getElem?_insert]
      split
      · exact here
      · exact spelled other
  refine kept ∅ _ (fun entry => isSpelled_seed) fun object => ?_
  rw [Std.ExtTreeMap.getElem?_empty]
  exact Bag.isSpelled_empty

variable {stage : Stage α}

omit [Scalar α] in
theorem isSpelled_visited (spelled : stage.world.IsSpelled) (visits : List (Visit α)) :
    (stage.visited visits).world.IsSpelled :=
  World.isSpelled_foldl (fun _ visit kept => kept.write visit.object visit.slot visit.value) visits
    spelled

theorem isSpelled_face (spelled : stage.world.IsSpelled) (forward : Quaternion α → Vec α) :
    (stage.face forward).IsSpelled :=
  World.isSpelled_foldl (fun _ id kept => World.isSpelled_foldl
    (fun _ axis kept => kept.write id (.forward axis) _) Axis.all kept) _ spelled

theorem isSpelled_release {world : World α} (spelled : world.IsSpelled) :
    (stage.release world).IsSpelled := by
  refine World.isSpelled_foldl (fun world id kept => ?_) _ spelled
  split
  · exact kept
  · exact kept.write id .clicked 0

end Stage

end

theorem Agenda.isSpelled_run [Trigonometric α] {agenda : Agenda α}
    (blocks : ∀ duty ∈ agenda, Block.IsSpelled duty.block) {world : World α}
    (spelled : world.IsSpelled) : (agenda.run world).IsSpelled := by
  induction agenda generalizing world with
  | nil => exact spelled
  | cons duty rest inductionHypothesis =>
    obtain ⟨here, later⟩ := List.forall_mem_cons.mp blocks
    rw [run_cons, Duty.run]
    split
    · exact inductionHypothesis later (spelled.runAll here duty.object [])
    · exact inductionHypothesis later spelled

/-- No frame puts anything into a bag that is not in a slot, if its logic is spelled. -/
theorem Run.isSpelled_stage [Trigonometric α] (run : Run α)
    (blocks : ∀ block ∈ run.program.fragments, Block.IsSpelled block)
    (opening : run.opening.world.IsSpelled) (frame : Nat) : (run.stage frame).world.IsSpelled := by
  have duties : ∀ duty ∈ run.program.frame, Block.IsSpelled duty.block := by
    intro duty inFrame
    obtain ⟨phase, -, inAgenda⟩ := List.mem_flatMap.mp inFrame
    obtain ⟨placed, isPlaced, rfl⟩ := Program.mem_agenda.mp inAgenda
    refine blocks _ (List.mem_flatMap.mpr ⟨placed, isPlaced, List.mem_append_left _ ?_⟩)
    exact List.mem_map_of_mem (by cases phase <;> decide)
  induction frame with
  | zero => exact opening
  | succ frame inductionHypothesis =>
    rw [stage_succ]
    exact Stage.isSpelled_release (Agenda.isSpelled_run duties
      (Stage.isSpelled_face (Stage.isSpelled_visited inductionHypothesis _) _))

/-- No two slots share a key, whatever numbers and names are in them. Every key that the logic of a
scene reads or writes, on any object, is that of one slot, and so is every key that a bag of its
stage holds, however many frames have run and whatever visitors did before each. -/
theorem keys_tell_slots [Trigonometric α] {rate : α} {scene : Scene α} {program : Program α}
    (compiled : Program.compile rate scene = .ok program) :
    (∀ first second : Slot, first.key = second.key → first = second) ∧
    (∀ block ∈ program.fragments, ∀ key ∈ Block.keys block, ∃! slot : Slot, slot.key = key) ∧
    ∀ (visits : Nat → List (Visit α)) (frame : Nat) (object key : String),
      ((Run.ofScene program scene visits).stage frame).holds? object key = some true →
        ∃! slot : Slot, slot.key = key := by
  obtain ⟨layout⟩ := Program.exists_layout compiled
  have spelled (block : Block α) (member : block ∈ program.fragments) : Block.IsSpelled block :=
    layout.isSpelled_fragment member
  refine ⟨fun first second same => Slot.key_injective same, fun block member key inKeys => ?_,
    fun visits frame object key holds => ?_⟩
  · exact (spelled block member key inKeys).existsUnique
  · have held := Run.isSpelled_stage (.ofScene program scene visits) spelled
      (Stage.isSpelled_ofScene scene) frame
    refine (held object key ?_).existsUnique
    rw [Stage.holds?, Option.ite_none_right_eq_some, Option.some.injEq,
      Std.ExtTreeMap.contains_eq_isSome_getElem?] at holds
    exact Option.isSome_iff_ne_none.mp holds.2

/-- The keys of the hall. -/
theorem keys_tell_slots_hall :
    ∃ program, Program.compile 1 Scene.hall = .ok program ∧
      ∀ block ∈ program.fragments, ∀ key ∈ Block.keys block, ∃! slot : Slot, slot.key = key := by
  obtain ⟨program, compiled⟩ := Scene.exists_compile_hall
  exact ⟨program, compiled, (keys_tell_slots compiled).2.1⟩

end Stagecraft
