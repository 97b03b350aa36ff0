/-
This file takes the logic of an object apart. Every trigger, the link actions and every timeline
give it a piece of logic of its own. The actions of the pieces bear consecutive numbers, and a piece
writes only what it keeps on its owner and what its actions may write on their targets.
-/

import Stagecraft.Program.Owned
import Stagecraft.Proofs.Action.Numbering
import Stagecraft.Proofs.Action.Scope
import Stagecraft.Proofs.Timeline.Sequence
import Stagecraft.Proofs.Trigger.Watching

namespace Stagecraft

variable {α : Type}

namespace Owned

/-! ### Sources -/

/-- What gives an object a piece of logic. -/
inductive Source (α : Type) where
  | trigger (trigger : Trigger α)
  | link (actions : List (Action α))
  | timeline (timeline : Timeline α)

namespace Source

/-- The slots of its owner that a source writes by itself. Whether a trigger is enabled is not
among them, since only actions change it. -/
def Keeps : Source α → Slot → Prop
  | .trigger declared, slot => ∃ field, field ≠ .state ∧ slot = .watch (.trigger declared.name) field
  | .link _, slot => ∃ field, field ≠ .state ∧ slot = .watch .link field
  | .timeline declared, slot => ∃ field, slot = .timeline declared.name field

def make [Trigonometric α] (directory : Directory α) (rate : α) (owner : String) :
    Source α → Nat → Except (Fault α) (Owned α)
  | .trigger declared => ofTrigger directory rate owner declared
  | .link actions => ofLink directory rate owner actions
  | .timeline declared => ofTimeline directory rate owner declared

end Source

/-- What the pieces of the sources are, if they can be made. -/
inductive Made [Trigonometric α] (directory : Directory α) (rate : α) (owner : String)
    (first : Nat) : Source α → Owned α → Prop
  | trigger (declared : Trigger α) (sensor : Sensor α) (instances : List (Instance α))
    (title : String) :
    declared.sensor directory (.trigger declared.name) = .ok sensor →
    Action.resolveAll directory rate (.trigger declared.name) owner first declared.actions =
      .ok instances →
    Made directory rate owner first (.trigger declared)
      { setup := []
        enter := .comment title :: declared.watch sensor (dispatchAll instances)
        instances }
  | noLink (actions : List (Action α)) :
    actions = [] → Made directory rate owner first (.link actions) nothing
  | link (actions : List (Action α)) (instances : List (Instance α)) :
    actions ≠ [] →
    Action.resolveAll directory rate (.link owner) owner first actions = .ok instances →
    Made directory rate owner first (.link actions)
      { setup := [], enter := watchLink (dispatchAll instances), instances }
  | timeline (declared : Timeline α) (entries : List (TimedAction α))
    (instances : List (Instance α)) (sequence : Sequence α) :
    declared.dispatchOrder (.timeline declared.name) = .ok entries →
    Action.resolveAll directory rate (.timeline declared.name) owner first
      (entries.map (·.action)) = .ok instances →
    sequence = {
      name := declared.name
      autostart := declared.autostart
      rate
      cues := (entries.zip instances).map fun (entry, action) => ⟨entry.start, action⟩ } →
    Made directory rate owner first (.timeline declared)
      { setup := sequence.setup, enter := sequence.run, instances }

theorem made_of_make [Trigonometric α] {directory : Directory α} {rate : α} {owner : String}
    {first : Nat} {source : Source α} {piece : Owned α}
    (made : source.make directory rate owner first = .ok piece) :
    Made directory rate owner first source piece := by
  cases source with
  | trigger declared =>
    obtain ⟨sensor, found, made⟩ := Outcome.bind_eq_ok.mp made
    obtain ⟨instances, resolved, built⟩ := Outcome.bind_eq_ok.mp made
    rw [← Outcome.pure_eq_ok.mp built]
    exact .trigger declared sensor instances _ found resolved
  | link actions =>
    simp only [Source.make, ofLink] at made
    split at made
    · rename_i none
      rw [← Except.ok.inj made]
      exact .noLink actions (List.isEmpty_iff.mp none)
    · rename_i some
      obtain ⟨instances, resolved, built⟩ := Outcome.bind_eq_ok.mp made
      rw [← Outcome.pure_eq_ok.mp built]
      exact .link actions instances (mt List.isEmpty_iff.mpr some) resolved
  | timeline declared =>
    obtain ⟨entries, ordered, made⟩ := Outcome.bind_eq_ok.mp made
    obtain ⟨instances, resolved, built⟩ := Outcome.bind_eq_ok.mp made
    rw [← Outcome.pure_eq_ok.mp built]
    exact .timeline declared entries instances _ ordered resolved rfl

end Owned

/-- The sources of an object's logic, in the order of their pieces. -/
def SceneObject.sources (object : SceneObject α) : List (Owned.Source α) :=
  object.triggers.map .trigger ++ [.link object.linkActions] ++ object.timelines.map .timeline

namespace Owned

/-! ### Pieces -/

theorem enter_concat (pieces : List (Owned α)) : (concat pieces).enter = pieces.flatMap (·.enter) := by
  induction pieces with
  | nil => rfl
  | cons piece rest inductionHypothesis =>
    rw [List.flatMap_cons, ← inductionHypothesis]
    rfl

theorem setup_concat (pieces : List (Owned α)) : (concat pieces).setup = pieces.flatMap (·.setup) := by
  induction pieces with
  | nil => rfl
  | cons piece rest inductionHypothesis =>
    rw [List.flatMap_cons, ← inductionHypothesis]
    rfl

theorem instances_concat (pieces : List (Owned α)) :
    (concat pieces).instances = pieces.flatMap (·.instances) := by
  induction pieces with
  | nil => rfl
  | cons piece rest inductionHypothesis =>
    rw [List.flatMap_cons, ← inductionHypothesis]
    rfl

section

variable [Trigonometric α] {directory : Directory α} {rate : α}

/-- Each source of an object gives one of the pieces of its logic. -/
theorem pieces_of_ofObject {object : SceneObject α} {first : Nat} {owned : Owned α}
    (made : ofObject directory rate object first = .ok owned) :
    ∃ pieces, inTurn first (object.sources.map (Source.make directory rate object.id)) = .ok pieces ∧
      owned = concat pieces := by
  obtain ⟨pieces, turned, built⟩ := Outcome.bind_eq_ok.mp made
  refine ⟨pieces, ?_, (Outcome.pure_eq_ok.mp built).symm⟩
  rw [SceneObject.sources, List.map_append, List.map_append, List.map_map, List.map_map]
  exact turned

end

/-! ### Numbers -/

/-- The instances bear consecutive numbers, and their targets are different and known. -/
structure Numbered (directory : Directory α) (first : Nat) (instances : List (Instance α)) :
    Prop where
  numbers : instances.map (·.number) = List.range' first instances.length
  nodup : ∀ action ∈ instances, action.targets.Nodup
  known : ∀ action ∈ instances, ∀ target ∈ action.targets, directory.isAddressable target

variable {directory : Directory α}

theorem numbered_nil (first : Nat) : Numbered directory first [] :=
  ⟨rfl, by simp, by simp⟩

theorem Numbered.append {first : Nat} {earlier later : List (Instance α)}
    (early : Numbered directory first earlier)
    (late : Numbered directory (first + earlier.length) later) :
    Numbered directory first (earlier ++ later) where
  numbers := by
    rw [List.map_append, early.numbers, late.numbers, List.length_append, List.range'_append_1]
  nodup := List.forall_mem_append.mpr ⟨early.nodup, late.nodup⟩
  known := List.forall_mem_append.mpr ⟨early.known, late.known⟩

/-- Pieces made in turn come from their makers, and number on where the last one ended. -/
theorem numbered_inTurn {makers : List (Nat → Except (Fault α) (Owned α))}
    (each : ∀ maker ∈ makers, ∀ first piece, maker first = .ok piece →
      Numbered directory first piece.instances)
    {first : Nat} {pieces : List (Owned α)} (made : inTurn first makers = .ok pieces) :
    List.Forall₂ (fun maker piece => ∃ number, maker number = .ok piece) makers pieces ∧
      Numbered directory first (pieces.flatMap (·.instances)) := by
  induction makers generalizing first pieces with
  | nil =>
    rw [inTurn] at made
    rw [← Except.ok.inj made]
    exact ⟨.nil, numbered_nil first⟩
  | cons maker rest inductionHypothesis =>
    obtain ⟨here, later⟩ := List.forall_mem_cons.mp each
    rw [inTurn] at made
    obtain ⟨head, madeHead, made⟩ := Outcome.bind_eq_ok.mp made
    obtain ⟨tail, madeTail, built⟩ := Outcome.bind_eq_ok.mp made
    rw [← Outcome.pure_eq_ok.mp built]
    obtain ⟨related, numbered⟩ := inductionHypothesis later madeTail
    exact ⟨.cons ⟨first, madeHead⟩ related, (here first head madeHead).append numbered⟩

section

variable [Trigonometric α] {rate : α} {owner : String} {scene : Scene α} (sound : Directory.ofScene scene = .ok directory)

include sound

theorem numbered_resolveAll {context : Context} {first : Nat} {actions : List (Action α)}
    {instances : List (Instance α)}
    (resolved : Action.resolveAll directory rate context owner first actions = .ok instances) :
    Numbered directory first instances := by
  induction actions generalizing first instances with
  | nil =>
    rw [Action.resolveAll] at resolved
    rw [← Except.ok.inj resolved]
    exact numbered_nil first
  | cons action rest inductionHypothesis =>
    rw [Action.resolveAll] at resolved
    obtain ⟨head, resolvedHead, resolved⟩ := Outcome.bind_eq_ok.mp resolved
    obtain ⟨tail, resolvedTail, built⟩ := Outcome.bind_eq_ok.mp resolved
    rw [← Outcome.pure_eq_ok.mp built]
    have here := Action.isSound_of_resolve sound resolvedHead
    have single : Numbered directory first [head] :=
      ⟨by simp [here.number], by simpa using here.nodup, by simpa using here.known⟩
    exact single.append (inductionHypothesis resolvedTail)

theorem numbered_made {source : Source α} {first : Nat} {piece : Owned α}
    (made : Made directory rate owner first source piece) :
    Numbered directory first piece.instances := by
  cases made with
  | trigger _ _ instances _ _ resolved => exact numbered_resolveAll sound resolved
  | noLink => exact numbered_nil first
  | link _ instances _ resolved => exact numbered_resolveAll sound resolved
  | timeline _ _ instances _ _ resolved => exact numbered_resolveAll sound resolved

theorem numbered_ofObject {object : SceneObject α} {first : Nat} {owned : Owned α}
    (made : ofObject directory rate object first = .ok owned) :
    (∃ pieces, List.Forall₂
      (fun source piece => ∃ number, Made directory rate object.id number source piece)
      object.sources pieces ∧ owned = concat pieces) ∧
      Numbered directory first owned.instances := by
  obtain ⟨pieces, turned, rfl⟩ := pieces_of_ofObject made
  have each : ∀ maker ∈ object.sources.map (Source.make directory rate object.id),
      ∀ first piece, maker first = .ok piece → Numbered directory first piece.instances := by
    intro maker member first piece madePiece
    obtain ⟨source, -, rfl⟩ := List.mem_map.mp member
    exact numbered_made sound (made_of_make madePiece)
  obtain ⟨related, numbered⟩ := numbered_inTurn each turned
  rw [List.forall₂_map_left_iff] at related
  rw [instances_concat]
  exact ⟨⟨pieces, related.imp fun _ _ ⟨number, made⟩ => ⟨number, made_of_make made⟩, rfl⟩,
    numbered⟩

end

/-! ### Reach -/

section

variable [Trigonometric α] {source : Source α} {rate : α} {owner : String}
  {allowed : String → Slot → Prop}

theorem writesOnly_dispatchAll {actions : List (Instance α)}
    (dispatched : ∀ action ∈ actions, Block.WritesOnly allowed owner action.dispatch) :
    Block.WritesOnly allowed owner (dispatchAll actions) :=
  Block.writesOnly_flatMap dispatched

/-- In its enter phase a piece writes what its source keeps and what its actions write. -/
theorem writesOnly_enter {first : Nat} {piece : Owned α}
    (made : Made directory rate owner first source piece)
    (keeps : ∀ slot, source.Keeps slot → allowed owner slot)
    (dispatched : ∀ action ∈ piece.instances, Block.WritesOnly allowed owner action.dispatch) :
    Block.WritesOnly allowed owner piece.enter := by
  cases made with
  | trigger declared sensor instances =>
    refine Block.writesOnly_cons.mpr ⟨Block.writesOnly_comment, Block.writesOnly_onlyIf.mpr ?_⟩
    exact Watch.writesOnly_evaluate (fun field notState => keeps _ ⟨field, notState, rfl⟩)
      (writesOnly_dispatchAll dispatched) _ _ _
  | noLink => exact Block.writesOnly_nil
  | link actions instances =>
    refine Block.writesOnly_cons.mpr ⟨Block.writesOnly_comment, ?_⟩
    exact Watch.writesOnly_evaluate (fun field notState => keeps _ ⟨field, notState, rfl⟩)
      (writesOnly_dispatchAll dispatched) _ _ _
  | timeline declared entries instances sequence _ _ same =>
    subst same
    refine Sequence.writesOnly_run (fun field _ => keeps _ ⟨field, rfl⟩) fun cue member => ?_
    obtain ⟨⟨entry, action⟩, inZip, rfl⟩ := List.mem_map.mp member
    exact dispatched action (List.of_mem_zip inZip).2

theorem writesOnly_pieces {sources : List (Source α)} {pieces : List (Owned α)}
    (made : List.Forall₂
      (fun source piece => ∃ number, Made directory rate owner number source piece) sources pieces)
    (keeps : ∀ source ∈ sources, ∀ slot, source.Keeps slot → allowed owner slot)
    (dispatched : ∀ action ∈ pieces.flatMap (·.instances),
      Block.WritesOnly allowed owner action.dispatch) :
    Block.WritesOnly allowed owner (pieces.flatMap (·.enter)) := by
  refine Block.writesOnly_flatMap fun piece inPieces => ?_
  obtain ⟨source, inSources, number, madePiece⟩ := Lists.exists_of_mem_right made inPieces
  exact writesOnly_enter madePiece (keeps source inSources) fun action owned =>
    dispatched action (List.mem_flatMap.mpr ⟨piece, inPieces, owned⟩)

/-- In its setup a piece writes slots of timelines. -/
theorem writesOnly_setup {first : Nat} {piece : Owned α}
    (made : Made directory rate owner first source piece)
    (timelines : ∀ name field, allowed owner (.timeline name field)) :
    Block.WritesOnly allowed owner piece.setup := by
  cases made with
  | timeline declared entries instances sequence =>
    exact Sequence.writesOnly_setup fun field => timelines _ field
  | _ => exact Block.writesOnly_nil

end

end Owned

end Stagecraft
