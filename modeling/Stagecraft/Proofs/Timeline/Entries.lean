/-
This file shows that the turn of a timeline opens the action of an entry as often as it dispatches
the entry. Whatever else it runs spares the action, so neither happens there.
-/

import Stagecraft.Proofs.Action.Dispatching
import Stagecraft.Proofs.Timeline.Safety

namespace Stagecraft

variable {α : Type}

namespace Sequence

variable [Trigonometric α] {sequence : Sequence α} {owner : String}

/-! ### Blocks of the timeline -/

section

variable {cue : Cue α} {index : Nat}

variable (sequence owner cue index) in
/-- In a trace the action of an entry is opened on a target as often as the entry is dispatched. -/
def OpensWith (target : String) (trace : List (Event α)) : Prop :=
  Trace.entries target cue.action.opening trace =
    Trace.entries owner (sequence.entry cue index) trace

theorem not_marks_entry : ¬cue.action.Marks (sequence.entry cue index) := by
  rintro ⟨slot, value, kept, member⟩
  rcases List.mem_cons.mp member with same | member
  · have keys := Slot.key_injective (Stmt.set.inj same).1
    rcases kept with rfl | rfl <;> cases keys
  · obtain ⟨target, -, same⟩ := List.mem_map.mp member
    cases same

theorem not_marks_tick (entries : List (Cue α × Nat)) :
    ¬cue.action.Marks (entries.map (fun entry => sequence.dispatchAt entry.1 entry.2) ++
      [sequence.countTick, sequence.stopAtEnd]) := by
  rintro ⟨slot, value, kept, member⟩
  simp only [List.mem_append, List.mem_map, List.mem_cons, List.not_mem_nil, or_false] at member
  rcases member with ⟨entry, -, same⟩ | same | same
  · cases same
  · have keys := Slot.key_injective (Stmt.set.inj same).1
    rcases kept with rfl | rfl <;> cases keys
  · cases same

omit [Trigonometric α] in
theorem not_marks_nil : ¬cue.action.Marks [] := by
  rintro ⟨slot, value, -, member⟩
  cases member

theorem entry_ne_nil : [] ≠ sequence.entry cue index :=
  (List.cons_ne_nil _ _).symm

/-! ### Turns -/

variable {target : String} {trace later : List (Event α)} {world : World α}

theorem OpensWith.append
    (first : OpensWith sequence owner cue index target trace)
    (second : OpensWith sequence owner cue index target later) :
    OpensWith sequence owner cue index target (trace ++ later) := by
  rw [OpensWith, Trace.entries_append, Trace.entries_append, first, second]

variable (timed : cue.action.isTimed)

include timed

theorem OpensWith.enter {block : Block α} (rest : OpensWith sequence owner cue index target trace)
    (unmarked : ¬cue.action.Marks block) (other : block ≠ sequence.entry cue index) :
    OpensWith sequence owner cue index target (.entered owner block world :: trace) := by
  have notOpening : ¬(owner = target ∧ block = cue.action.opening) := fun same =>
    unmarked (same.2 ▸ Instance.marks_opening timed)
  rw [OpensWith, Trace.entries_cons_other notOpening,
    Trace.entries_cons_other fun same => other same.2, rest]

variable (targeted : target ∈ cue.action.targets)

include targeted

/-- Blocks that spare the action neither open it nor dispatch its entry. -/
theorem opensWith_of_spared {block : Block α}
    (spared : Block.WritesOnly cue.action.Spared owner block) (locals : Locals α)
    (world : World α) :
    OpensWith sequence owner cue index target (Block.traceAll owner locals world block) := by
  have marks := Instance.marks_opening timed
  obtain ⟨slot, kept, touched⟩ := marks.mem_writes target
  have inEntry : (target, slot.key) ∈ Block.writes owner (sequence.entry cue index) := by
    rw [entry, Block.writes_cons, List.mem_append]
    refine .inr (Block.mem_writes.mpr ⟨_, List.mem_map_of_mem targeted, ?_⟩)
    rwa [Stmt.writes_within]
  have notWritten := spared.notMem (Instance.not_spared kept target)
  rw [OpensWith, Trace.entries_eq_zero_of_notMem notWritten touched,
    Trace.entries_eq_zero_of_notMem notWritten inEntry]

/-- Where the entry is dispatched, its action is opened once on a target. -/
theorem opensWith_dispatchAt (once : cue.action.targets.Nodup)
    (hosted : ∀ target ∈ cue.action.targets, world.hosts target) (locals : Locals α) :
    OpensWith sequence owner cue index target ((sequence.dispatchAt cue index).trace owner locals world) := by
  have nothing : OpensWith sequence owner cue index target [] := rfl
  rw [dispatchAt, Stmt.trace_onlyIf]
  split
  · have notOpening : ¬(owner = target ∧ sequence.entry cue index = cue.action.opening) :=
      fun same => not_marks_entry (same.2 ▸ Instance.marks_opening timed)
    have dispatched := (Instance.dispatched timed cue.action.targets once owner target locals
      (world.write owner (sequence.slot .cursor).key (Scalar.ofNat (index + 1)))
      (by simpa using hosted)).1.openings
    rw [if_pos targeted] at dispatched
    show OpensWith sequence owner cue index target (.entered owner (sequence.entry cue index) world ::
      Block.traceAll owner locals world (sequence.entry cue index))
    rw [OpensWith, Trace.entries_cons_other notOpening, Trace.entries_cons_self, Trace.entries_self,
      entry, Block.traceAll_cons, Slot.trace_write, Slot.run_write, List.singleton_append,
      Trace.entries_cons_wrote]
    exact dispatched
  · exact OpensWith.enter timed nothing not_marks_nil entry_ne_nil

/-- In a turn of the timeline the action is opened as often as its entry is dispatched. -/
theorem opensWith_run (once : cue.action.targets.Nodup)
    (atIndex : sequence.cues[index]? = some cue)
    (apart : ∀ (other : Cue α) (place : Nat), sequence.cues[place]? = some other → place ≠ index →
      other.action.number ≠ cue.action.number)
    (hosted : ∀ target ∈ cue.action.targets, world.hosts target) (locals : Locals α) :
    OpensWith sequence owner cue index target
      (Block.traceAll owner locals world sequence.run) := by
  have nothing : OpensWith sequence owner cue index target [] := rfl
  have chained (entries : List (Cue α × Nat))
      (placed : ∀ entry ∈ entries, sequence.cues[entry.2]? = some entry.1)
      (locals : Locals α) (world : World α)
      (hosted : ∀ target ∈ cue.action.targets, world.hosts target) :
      OpensWith sequence owner cue index target (Block.traceAll owner locals world
        (entries.map fun entry => sequence.dispatchAt entry.1 entry.2)) := by
    induction entries generalizing locals world with
    | nil => simpa using nothing
    | cons entry rest inductionHypothesis =>
      obtain ⟨here, later⟩ := List.forall_mem_cons.mp placed
      rw [List.map_cons, Block.traceAll_cons]
      refine .append ?_ (inductionHypothesis later _ _ (by simpa using hosted))
      by_cases same : entry.2 = index
      · have isCue : entry.1 = cue := by
          rw [same, atIndex] at here
          exact (Option.some.inj here).symm
        rw [same, isCue]
        exact opensWith_dispatchAt timed targeted once hosted locals
      · have spared : Block.WritesOnly cue.action.Spared owner
            [sequence.dispatchAt entry.1 entry.2] :=
          writesOnly_dispatchAt (Instance.spared_timeline _ .cursor)
            ((entry.1.action.writesOnly_dispatch owner).mono fun _ _ inside =>
              Instance.spared_of_reaches (apart _ _ here same) inside.2) _
        simpa [Block.traceAll_cons] using opensWith_of_spared timed targeted spared locals world
  let chain := sequence.cues.zipIdx.map fun entry => sequence.dispatchAt entry.1 entry.2
  have tail : Block.WritesOnly cue.action.Spared owner [sequence.countTick, sequence.stopAtEnd] := by
    simp [countTick, stopAtEnd, slot, Instance.spared_timeline]
  have other : chain ++ [sequence.countTick, sequence.stopAtEnd] ≠ sequence.entry cue index :=
    fun same => not_isDispatch_tick sequence.cues.zipIdx world index
      ⟨cue, world, atIndex, congrArg (Event.entered owner · world) same⟩
  rw [run, Block.traceAll_cons, Stmt.trace.eq_def, List.nil_append, Block.traceAll_cons,
    Block.traceAll_nil, List.append_nil, Stmt.trace_onlyIf, Stmt.run]
  split
  · refine OpensWith.enter timed ?_ (not_marks_tick _) other
    rw [Block.traceAll_append]
    refine .append (chained _ (fun entry => List.mem_zipIdx_iff_getElem?.mp) locals world hosted) ?_
    exact opensWith_of_spared timed targeted tail _ _
  · exact OpensWith.enter timed nothing not_marks_nil entry_ne_nil

end

end Sequence

end Stagecraft
