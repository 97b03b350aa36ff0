/-
This file bounds what watching a sensor may change: the level of the watch and what its sensor
stores with it, and whatever the dispatch in its midst changes. Whether the watch is evaluated is
not changed by evaluating it.
-/

import Stagecraft.Proofs.Logic.Writes
import Stagecraft.Trigger.Watching

namespace Stagecraft

variable {α : Type} {allowed : String → Slot → Prop} {this : String}

theorem Sensor.writesOnly_before [Scalar α] (epsilon : α) (watch : Watch) (sensor : Sensor α) :
    Block.WritesOnly allowed this (sensor.before epsilon watch) := by
  cases sensor with
  | proximity => exact Block.writesOnly_bind
  | movement => exact Block.writesOnly_bind
  | volume => exact Block.writesOnly_bind
  | _ => exact Block.writesOnly_nil

theorem Sensor.writesOnly_after [Scalar α] {watch : Watch}
    (keeps : ∀ field, field = .primed ∨ (∃ axis, field = .last axis) →
      allowed this (.watch watch field)) (sensor : Sensor α) :
    Block.WritesOnly allowed this (sensor.after watch) := by
  cases sensor with
  | movement =>
    refine Block.writesOnly_append.mpr ⟨Block.writesOnly_map fun axis _ => ?_, ?_⟩
    · exact Block.writesOnly_write.mpr (keeps _ (.inr ⟨axis, rfl⟩))
    · exact Block.writesOnly_write.mpr (keeps _ (.inl rfl))
  | _ => exact Block.writesOnly_nil

variable [Trigonometric α]

theorem Watch.writesOnly_evaluate {watch : Watch}
    (keeps : ∀ field, field ≠ .state → allowed this (.watch watch field)) {dispatch : Block α}
    (dispatched : Block.WritesOnly allowed this dispatch) (sensor : Sensor α) (epsilon : α)
    (remain : Bool) :
    Block.WritesOnly allowed this (watch.evaluate sensor epsilon remain dispatch) := by
  have stored := sensor.writesOnly_after fun field kept =>
    keeps field (by rcases kept with rfl | ⟨axis, rfl⟩ <;> simp)
  rw [evaluate, Block.writesOnly_append, Block.writesOnly_append, Block.writesOnly_cons]
  refine ⟨⟨sensor.writesOnly_before epsilon watch, Block.writesOnly_bind, ?_⟩, ?_⟩
  · split
    · exact Block.writesOnly_nil
    · exact Block.writesOnly_onlyIf.mpr dispatched
  · exact Block.writesOnly_cons.mpr
      ⟨Block.writesOnly_write.mpr (keeps .previous (by simp)), stored⟩

end Stagecraft
