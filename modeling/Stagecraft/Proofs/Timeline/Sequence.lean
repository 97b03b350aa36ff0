/-
This file bounds what a timeline's own logic may change: its four slots, and whatever its entries
change when they are dispatched.
-/

import Stagecraft.Proofs.Effect.Reach
import Stagecraft.Timeline.Sequence

namespace Stagecraft

namespace Sequence

variable {α : Type} [Trigonometric α] {allowed : String → Slot → Prop} {this : String}
  {sequence : Sequence α}

theorem writesOnly_setup (keeps : ∀ field, allowed this (sequence.slot field)) :
    Block.WritesOnly allowed this sequence.setup := by
  rw [setup]
  split
  · exact Effect.writesOnly_changeTimeline keeps .startIfNotStarted
  · exact Block.writesOnly_nil

theorem writesOnly_dispatchAt (cursor : allowed this (sequence.slot .cursor)) {cue : Cue α}
    (dispatched : Block.WritesOnly allowed this cue.action.dispatch) (index : Nat) :
    Block.WritesOnly allowed this [sequence.dispatchAt cue index] := by
  rw [dispatchAt, Block.writesOnly_onlyIf, Block.writesOnly_cons, Block.writesOnly_write]
  exact ⟨cursor, dispatched⟩

/-- Whether a timeline was started is nothing that its turns change. -/
theorem writesOnly_run (keeps : ∀ field, field ≠ .started → allowed this (sequence.slot field))
    (dispatched : ∀ cue ∈ sequence.cues, Block.WritesOnly allowed this cue.action.dispatch) :
    Block.WritesOnly allowed this sequence.run := by
  rw [run, Block.writesOnly_cons_cons, Block.writesOnly_onlyIf, Block.writesOnly_append]
  refine ⟨Block.writesOnly_comment, Block.writesOnly_map fun entry member => ?_, ?_⟩
  · exact writesOnly_dispatchAt (keeps .cursor (by simp))
      (dispatched entry.1 (List.fst_mem_of_mem_zipIdx member)) entry.2
  · simp [countTick, stopAtEnd, keeps]

end Sequence

end Stagecraft
