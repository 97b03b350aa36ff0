/-
This file shows that an action is dispatched nowhere but at the turn of the piece that declares it.
Every other piece, of the same object or of another one, dispatches actions with other numbers, so
it writes neither the flag nor the count of this one.
-/

import Stagecraft.Proofs.Action.Lifecycle
import Stagecraft.Proofs.Program.Spots

namespace Stagecraft

variable {α : Type}

/-- What sources keep is spared. -/
theorem Instance.spared_of_keeps {self : Instance α} {source : Owned.Source α} {slot : Slot}
    (keeps : source.Keeps slot) (object : String) : self.Spared object slot := by
  cases source with
  | trigger | link =>
    obtain ⟨field, -, rfl⟩ := keeps
    exact spared_watch _ field
  | timeline =>
    obtain ⟨field, rfl⟩ := keeps
    exact spared_timeline _ field

variable [Trigonometric α]

/-- Duties that write neither the flag nor the count of an action do not count for it. -/
theorem Instance.tally_agenda {self : Instance α} (timed : self.isTimed) {agenda : Agenda α}
    (spared : ∀ duty ∈ agenda, Block.WritesOnly self.Spared duty.object duty.block)
    (target : String) (world : World α) : self.Tally target (agenda.trace world) 0 0 0 := by
  refine .of_entries timed fun block marks => ?_
  obtain ⟨slot, kept, touched⟩ := marks.mem_writes target
  exact Agenda.entries_eq_zero
    (fun duty member => (spared duty member).notMem (not_spared kept target)) touched world

namespace Program.Layout.Seat

variable {rate : α} {scene : Scene α} {program : Program α} {layout : Layout rate scene program}
  {object : SceneObject α} {first last : List (Owned.Source α)} {source : Owned.Source α}
  {piece : Owned α} (seat : layout.Seat object first source last piece) {action : Instance α}
  (member : action ∈ piece.instances)

include member

/-- The other pieces of the object have actions with other numbers. -/
theorem number_ne {other : Instance α}
    (inPieces : other ∈ (seat.early ++ seat.late).flatMap (·.instances)) :
    other.number ≠ action.number := by
  have once := layout.nodup_owned.1 _ seat.isOwned
  rw [Owned.instances_concat, List.flatMap_append, List.flatMap_cons, List.map_append,
    List.map_append, List.nodup_append'] at once
  obtain ⟨-, onceLate, apartEarly⟩ := once
  have apartLate := (List.nodup_append'.mp onceLate).2.2
  have inPiece := List.mem_map_of_mem (f := Instance.number) member
  intro same
  rw [List.flatMap_append, List.mem_append] at inPieces
  rcases inPieces with inEarly | inLate
  · refine apartEarly (List.mem_map_of_mem (f := Instance.number) inEarly) ?_
    rw [same]
    exact List.mem_append_left _ inPiece
  · refine apartLate inPiece ?_
    rw [← same]
    exact List.mem_map_of_mem inLate

/-- What stands before and after the piece on its object spares the action. -/
theorem spared_beside :
    Block.WritesOnly action.Spared object.id seat.spot.before ∧
      Block.WritesOnly action.Spared object.id seat.spot.after := by
  have foreign (other : Instance α)
      (inPieces : other ∈ (seat.early ++ seat.late).flatMap (·.instances)) (this : String) :
      Block.WritesOnly action.Spared this other.dispatch :=
    (other.writesOnly_dispatch this).mono fun _ _ inside =>
      Instance.spared_of_reaches (seat.number_ne member inPieces) inside.2
  have early : Block.WritesOnly action.Spared object.id (seat.early.flatMap (·.enter)) :=
    seat.writesOnly_early (fun _ _ _ keeps => Instance.spared_of_keeps keeps _)
      fun other inEarly => foreign other (by
        rw [List.flatMap_append]
        exact List.mem_append_left _ inEarly)
  have late : Block.WritesOnly action.Spared object.id (seat.late.flatMap (·.enter)) :=
    seat.writesOnly_late (fun _ _ _ keeps => Instance.spared_of_keeps keeps _)
      fun other inLate => foreign other (by
        rw [List.flatMap_append]
        exact List.mem_append_right _ inLate)
  refine ⟨seat.writesOnly_before ?_ ?_ Instance.spared_timeline early, ?_⟩
  · simp [Instance.Spared, Instance.active, Instance.elapsed]
  · simp [Instance.Spared, Instance.active, Instance.elapsed]
  · rw [seat.after]
    exact late

/-- The other objects spare the action in their enter phase. -/
theorem spared_others {other : ObjectProgram α}
    (inside : other ∈ seat.spot.earlier ∨ other ∈ seat.spot.later) :
    Block.WritesOnly action.Spared other.id other.phases.enter := by
  refine layout.writesOnly_enter_of_keeps (seat.mem_program inside) ?_ ?_
    Instance.spared_timeline (fun _ _ keeps => Instance.spared_of_keeps keeps _)
    fun owned owns foreign inOwned this => ?_
  · simp [Instance.Spared, Instance.active, Instance.elapsed]
  · simp [Instance.Spared, Instance.active, Instance.elapsed]
  · have inObject : action ∈
        (Owned.concat (seat.early ++ piece :: seat.late)).instances := by
      rw [Owned.instances_concat]
      exact List.mem_flatMap.mpr ⟨piece, by simp, member⟩
    have different : foreign.number ≠ action.number := fun same =>
      seat.apart other inside (layout.id_eq_of_number owns seat.owns inOwned inObject same)
    exact (foreign.writesOnly_dispatch this).mono fun _ _ inside =>
      Instance.spared_of_reaches different inside.2

/-- In a frame the action is opened as often as at the turn of its piece. -/
theorem openings_frame (timed : action.isTimed) {target : String}
    (targeted : target ∈ action.targets) {world : World α} (hosted : world.hosts target)
    (hostedOwner : world.hosts object.id) :
    Trace.entries target action.opening (program.frame.trace world) =
      Trace.entries target action.opening (seat.spot.trace world) := by
  have inScene := seat.mem_of_piece member
  obtain ⟨before, after⟩ := seat.spared_beside member
  have others (some : List (ObjectProgram α))
      (inside : ∀ other ∈ some, other ∈ seat.spot.earlier ∨ other ∈ seat.spot.later)
      (world : World α) :
      Trace.entries target action.opening (Agenda.trace (some.map (·.duty .enter)) world) = 0 := by
    refine (Instance.tally_agenda timed (fun duty inDuties => ?_) target world).openings
    obtain ⟨other, inSome, rfl⟩ := List.mem_map.mp inDuties
    exact seat.spared_others member (inside other inSome)
  have beside {block : Block α} (spared : Block.WritesOnly action.Spared object.id block)
      (locals : Locals α) (world : World α) :
      Trace.entries target action.opening (Block.traceAll object.id locals world block) = 0 :=
    (Instance.tally_of_writesOnly timed spared target locals world).openings
  have advances {world : World α} (hosted : world.hosts target) :=
    (layout.advance_phase inScene timed targeted hosted).1.openings
  have finishes {world : World α} (hosted : world.hosts target) :=
    (layout.exit_phase inScene timed targeted hosted).1.openings
  rw [seat.spot.trace_frame hostedOwner, Trace.entries_append, Trace.entries_append, Spot.lead,
    Spot.rest]
  simp only [Trace.entries_append, others _ fun _ => .inl, others _ fun _ => .inr, beside before,
    beside after, Nat.zero_add]
  rw [advances, finishes, Nat.add_zero]
  · rwa [Agenda.hosts_run, Agenda.hosts_run, Block.hosts_runAll, ← Block.runAll_eq_thread,
      Block.hosts_runAll, Spot.hosts_turn]
  · rwa [Agenda.hosts_run, Block.hosts_runAll, ← Block.runAll_eq_thread, Block.hosts_runAll,
      Spot.hosts_turn]

end Program.Layout.Seat

end Stagecraft
