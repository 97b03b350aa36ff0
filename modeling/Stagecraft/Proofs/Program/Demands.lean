/-
This file says when the logic of a program meets a demand. Numbers that a scene gives are checked,
and constants and counts are allowed. What is left is worked out: what an action divides by and what
it gets, the parts of its turn, and the band of a trigger. Each of them is written somewhere, so the
program meets the demand exactly if all of them do.
-/

import Stagecraft.Proofs.Program.Fragments
import Stagecraft.Proofs.Program.Spots
import Stagecraft.Proofs.Trigger.Demands

namespace Stagecraft

variable {α : Type} [Trigonometric α] {demand : Demand α}

/-! ### Timelines -/

namespace Sequence

variable {sequence : Sequence α}

theorem meets_setup : Block.Meets demand sequence.setup := by
  rw [setup]
  split
  · exact Effect.meets_changeTimeline _ _
  · exact Block.meets_nil

theorem few_endTick : demand.few sequence.endTick := by
  have none : demand.few 0 := demand.fewer (Nat.zero_le _) (demand.ticks 0 0 0 0)
  refine List.foldlRecOn _ max none fun most few tick member => ?_
  obtain ⟨cue, -, rfl⟩ := List.mem_map.mp member
  rcases max_choice most (Ticks.add (sequence.startTick cue) cue.action.ticks) with same | same
  · rwa [same]
  · rw [same]
    exact demand.fewer (Nat.mod_le _ _) (demand.ticks _ _ _ _)

theorem meets_run (few : demand.few sequence.cues.length)
    (dispatched : ∀ cue ∈ sequence.cues, Block.Meets demand cue.action.dispatch) :
    Block.Meets demand sequence.run := by
  have entries : ∀ entry ∈ sequence.cues.zipIdx,
      (sequence.dispatchAt entry.1 entry.2).Meets demand := by
    rintro ⟨cue, index⟩ member
    have isIndex := List.snd_lt_of_mem_zipIdx member
    have starts : demand.number (Scalar.ofNat (sequence.startTick cue)) := demand.countOf _ _
    have here : demand.number (Scalar.ofNat index) := demand.count (demand.fewer (by omega) few)
    have next : demand.number (Scalar.ofNat (index + 1)) :=
      demand.count (demand.fewer (by omega) few)
    simp [dispatchAt, here, starts, next, dispatched cue (List.fst_mem_of_mem_zipIdx member)]
  have last := demand.count few
  have ends : demand.number (Scalar.ofNat sequence.endTick) := demand.count few_endTick
  simpa [run, countTick, stopAtEnd, ends, last] using entries

end Sequence

/-! ### Sources -/

namespace Owned

/-- The numbers that are worked out for the source itself are as demanded. -/
def Source.WorksOut (demand : Demand α) : Source α → Prop
  | .trigger declared => declared.WorksOut demand
  | .link _ | .timeline _ => True

/-- The entries of the source can be counted. -/
def Source.IsCounted (demand : Demand α) : Source α → Prop
  | .timeline declared => demand.few declared.entries.length
  | .trigger _ | .link _ => True

variable {directory : Directory α} {rate : α} {owner : String} {first : Nat} {source : Source α}
  {piece : Owned α} (made : Made directory rate owner first source piece)

include made

theorem meets_enter (counted : source.IsCounted demand)
    (dispatched : ∀ action ∈ piece.instances, Block.Meets demand action.dispatch) :
    Block.Meets demand piece.enter ↔ source.WorksOut demand := by
  cases made with
  | trigger declared sensor instances title sensed =>
    obtain ⟨_, checked, sensed⟩ := Outcome.bind_eq_ok.mp sensed
    obtain ⟨magnitude, -⟩ := (Check.checks_magnitude _ _).mp checked
    have epsilon : demand.number declared.epsilon :=
      demand.of_finite (Bool.and_eq_true_iff.mp magnitude).1
    have sensor := Sensor.made_of_ofCondition sensed
    have dispatch : Block.Meets demand (dispatchAll instances) :=
      (Block.meets_flatMap _ _).mpr dispatched
    rw [Block.meets_cons, Trigger.watch, Block.meets_cons, Stmt.meets_onlyIf,
      Watch.meets_evaluate _ _ (sensor.meets_before _ _ epsilon) (sensor.meets_after _) dispatch,
      sensor.meets_level]
    simp [Watch.meets_isEnabled, Source.WorksOut, Trigger.WorksOut]
  | noLink => exact iff_of_true Block.meets_nil trivial
  | link actions instances =>
    have dispatch : Block.Meets demand (dispatchAll instances) :=
      (Block.meets_flatMap _ _).mpr dispatched
    have before : Block.Meets demand ((Sensor.selection : Sensor α).before 0 .link) :=
      Block.meets_nil
    have watched := Watch.meets_evaluate .link false before Block.meets_nil dispatch
    refine iff_of_true ?_ trivial
    simp [watchLink, watched, Sensor.level]
  | timeline declared entries instances sequence ordered _ same =>
    subst same
    refine iff_of_true (Sequence.meets_run ?_ fun cue member => ?_) trivial
    · refine demand.fewer ?_ counted
      rw [Timeline.eq_inOrder ordered, List.length_map, List.length_zip, Timeline.inOrder,
        List.length_mergeSort]
      exact min_le_left _ _
    · obtain ⟨⟨entry, action⟩, inZip, rfl⟩ := List.mem_map.mp member
      exact dispatched action (List.of_mem_zip inZip).2

theorem meets_setup : Block.Meets demand piece.setup := by
  cases made with
  | timeline => exact Sequence.meets_setup
  | _ => exact Block.meets_nil

end Owned

/-! ### Programs -/

namespace Program

theorem spreads_meets (demand : Demand α) : Spreads (Block.Meets demand) where
  nil := Block.meets_nil
  append first second := (Block.meets_append _ _).mpr ⟨first, second⟩
  once {setup} meets := by
    rw [once]
    split
    · exact Block.meets_nil
    · simp [meets]

namespace Layout

variable {rate : α} {scene : Scene α} {program : Program α} (layout : Layout rate scene program)

include layout

/-- The phases of an action meet a demand exactly if what is worked out for it does. -/
theorem meets_phases_iff {action : Instance α} (member : action ∈ instances rate scene) :
    (∀ phase, Block.Meets demand (action.phases.get phase)) ↔ action.WorksOut demand := by
  obtain ⟨declared, -, becomes⟩ := Lists.exists_of_mem_right layout.becomes member
  exact Effect.meets_phases (Action.resolves_of_resolve becomes).2.meets action.number

section

variable (worksOut : ∀ action ∈ instances rate scene, action.targets ≠ [] → action.WorksOut demand)

include worksOut

theorem meets_dispatch {action : Instance α} (member : action ∈ instances rate scene) :
    Block.Meets demand action.dispatch := by
  by_cases aimed : action.targets = []
  · rw [Instance.dispatch, aimed]
    exact Block.meets_nil
  · exact Instance.meets_dispatch
      ((layout.meets_phases_iff member).mpr (worksOut action member aimed))

/-- A program for which everything is worked out as demanded meets the demand. -/
theorem meets_fragment
    (counted : ∀ object ∈ scene.walk, ∀ timeline ∈ object.timelines,
      demand.few timeline.entries.length)
    (bands : ∀ object ∈ scene.walk, ∀ trigger ∈ object.triggers, trigger.WorksOut demand)
    {block : Block α} (member : block ∈ program.fragments) : Block.Meets demand block := by
  obtain ⟨placed, isPlaced, member⟩ := List.mem_flatMap.mp member
  refine layout.spread (spreads_meets demand) Effect.meets_setup ?_ ?_ isPlaced member
  · intro object inScene source isSource first piece made inInstances
    have allowed : source.IsCounted demand ∧ source.WorksOut demand := by
      simp only [SceneObject.sources, List.mem_append, List.mem_map, List.mem_singleton] at isSource
      rcases isSource with (⟨trigger, isTrigger, rfl⟩ | rfl) | ⟨timeline, isTimeline, rfl⟩
      · exact ⟨trivial, bands object inScene trigger isTrigger⟩
      · exact ⟨trivial, trivial⟩
      · exact ⟨counted object inScene timeline isTimeline, trivial⟩
    refine ⟨Owned.meets_setup made, (Owned.meets_enter made allowed.1 fun action inPiece => ?_).mpr
      allowed.2⟩
    exact layout.meets_dispatch worksOut (inInstances action inPiece)
  · intro action inScene aimed
    have phases := (layout.meets_phases_iff inScene).mpr (worksOut action inScene aimed)
    exact ⟨phases, Instance.meets_advance phases, Instance.meets_finish phases⟩

end

section

variable (meets : ∀ block ∈ program.fragments, Block.Meets demand block)

include meets

/-- The phases of an action are listed with each of its targets. -/
theorem worksOut_of_meets {action : Instance α} (member : action ∈ instances rate scene)
    (aimed : action.targets ≠ []) : action.WorksOut demand := by
  obtain ⟨target, isTarget⟩ := List.exists_mem_of_ne_nil _ aimed
  obtain ⟨placed, isPlaced, same⟩ := layout.exists_target member isTarget
  obtain ⟨owned, parts, -⟩ := layout.parts_of_mem isPlaced
  have targeted : action ∈ targeting (instances rate scene) placed.id :=
    List.mem_filter.mpr ⟨member, by simpa [same] using isTarget⟩
  refine (layout.meets_phases_iff member).mp fun phase => meets _ ?_
  refine List.mem_flatMap.mpr ⟨placed, isPlaced, List.mem_append_right _ ?_⟩
  rw [parts]
  refine List.mem_flatMap.mpr ⟨targetAction action, List.mem_map_of_mem targeted, ?_⟩
  exact List.mem_map_of_mem (by cases phase <;> decide)

/-- What watches a trigger is in the enter phase of its owner. -/
theorem worksOut_trigger_of_meets {object : SceneObject α} (inScene : object ∈ scene.walk)
    {trigger : Trigger α} (member : trigger ∈ object.triggers) : trigger.WorksOut demand := by
  obtain ⟨owned, isOwned⟩ := layout.exists_owned inScene
  have logic : object.hasLogic := by
    rw [SceneObject.hasLogic, List.isEmpty_eq_false_iff.mpr (List.ne_nil_of_mem member)]
    rfl
  have isSource : Owned.Source.trigger trigger ∈ object.sources := by
    simp [SceneObject.sources, member]
  obtain ⟨first, last, sources⟩ := List.append_of_mem isSource
  obtain ⟨piece, ⟨seat⟩⟩ := layout.exists_seat isOwned logic sources
  have enter : Block.Meets demand piece.enter := by
    have whole := meets seat.spot.placed.phases.enter (List.mem_flatMap.mpr
      ⟨seat.spot.placed, by simp [seat.spot.objects], List.mem_append_left _ List.mem_cons_self⟩)
    rw [seat.spot.enter, Block.meets_append, Block.meets_append] at whole
    exact whole.2.1
  refine (Owned.meets_enter seat.made trivial fun action inPiece => ?_).mp enter
  exact layout.meets_dispatch (fun action => layout.worksOut_of_meets meets)
    (seat.mem_of_piece inPiece)

end

/-- A program meets a demand exactly if everything is worked out as demanded. -/
theorem meets_iff_worksOut
    (counted : ∀ object ∈ scene.walk, ∀ timeline ∈ object.timelines,
      demand.few timeline.entries.length) :
    (∀ block ∈ program.fragments, Block.Meets demand block) ↔
      (∀ action ∈ instances rate scene, action.targets ≠ [] → action.WorksOut demand) ∧
        ∀ object ∈ scene.walk, ∀ trigger ∈ object.triggers, trigger.WorksOut demand := by
  constructor
  · intro meets
    exact ⟨fun action => layout.worksOut_of_meets meets,
      fun object inScene trigger => layout.worksOut_trigger_of_meets meets inScene⟩
  · rintro ⟨worksOut, bands⟩ block
    exact layout.meets_fragment worksOut counted bands

end Layout

end Program

end Stagecraft
