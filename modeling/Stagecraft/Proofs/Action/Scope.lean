/-
This file says what instances may change and where. An instance writes only on its targets, and on
each of them only what its effect reaches and whether and how long it has been going on.
-/

import Stagecraft.Action.Instance
import Stagecraft.Proofs.Effect.Reach

namespace Stagecraft

namespace Instance

variable {α : Type} (self : Instance α)

/-- The slots of a target that the instance may write. -/
def Reaches (slot : Slot) : Prop :=
  self.effect.Reaches self.number slot ∨ slot = self.active ∨ slot = self.elapsed

/-- What the instance may write on one object. -/
def ScopeOn (target : String) : String → Slot → Prop :=
  fun object slot => object = target ∧ self.Reaches slot

/-- What the instance may write anywhere. -/
def Scope : String → Slot → Prop :=
  fun object slot => object ∈ self.targets ∧ self.Reaches slot

variable {self} {target : String}

theorem scopeOn_active : self.ScopeOn target target self.active :=
  ⟨rfl, .inr (.inl rfl)⟩

theorem scopeOn_elapsed : self.ScopeOn target target self.elapsed :=
  ⟨rfl, .inr (.inr rfl)⟩

/-! ### Outside of the scope -/

/-- Only the action itself says whether it goes on. -/
theorem reaches_active_iff {other : Instance α} :
    other.Reaches self.active ↔ other.number = self.number := by
  constructor
  · rintro (reached | same | same)
    · exact absurd reached (Effect.not_reaches_active _ _)
    · exact (Slot.action.inj same).1.symm
    · exact absurd (Slot.action.inj same).2 (by simp)
  · intro same
    exact .inr (.inl (by rw [active, active, same]))

/-- Only the action itself says for how long it has been going on. -/
theorem reaches_elapsed_iff {other : Instance α} :
    other.Reaches self.elapsed ↔ other.number = self.number := by
  constructor
  · rintro (reached | same | same)
    · exact absurd reached (Effect.not_reaches_elapsed _ _)
    · exact absurd (Slot.action.inj same).2 (by simp)
    · exact (Slot.action.inj same).1.symm
  · intro same
    exact .inr (.inr (by rw [elapsed, elapsed, same]))

/-- An action changes no level of a watch, nor what a watch stores with it. -/
theorem not_reaches_watch {watch : Watch} {field : WatchField} (notState : field ≠ .state) :
    ¬self.Reaches (.watch watch field) := by
  rintro ((drives | ⟨other, -, -, same⟩) | same | same)
  · cases effect : self.effect <;>
      simp_all [Effect.Drives, Slot.visible, Slot.alpha, Slot.position, Slot.orientation]
  · cases same
  · cases same
  · cases same

/-- An action changes nothing of whether an object has been set up. -/
theorem not_reaches_initialized : ¬self.Reaches .initialized := by
  rintro ((drives | ⟨other, -, -, same⟩) | same | same)
  · cases effect : self.effect <;>
      simp_all [Effect.Drives, Slot.visible, Slot.alpha, Slot.position, Slot.orientation]
  · cases same
  · cases same
  · cases same

/-- Only the action itself keeps its state. -/
theorem number_of_reaches {field : ActionField} {number : Nat}
    (reached : self.Reaches (.action number field)) : self.number = number := by
  rcases reached with (drives | ⟨other, -, -, same⟩) | same | same
  · cases effect : self.effect <;>
      simp_all [Effect.Drives, Slot.visible, Slot.alpha, Slot.position, Slot.orientation]
  · exact (Slot.action.inj same).1.symm
  · exact (Slot.action.inj same).1.symm
  · exact (Slot.action.inj same).1.symm

/-! ### Blocks -/

variable [Trigonometric α]

theorem writesOnly_phase (phase : Phase) :
    Block.WritesOnly (self.ScopeOn target) target (self.phases.get phase) :=
  (self.effect.writesOnly_phases self.timing phase).mono
    fun _ _ reached => ⟨reached.1, .inl reached.2⟩

theorem writesOnly_opening : Block.WritesOnly (self.ScopeOn target) target self.opening := by
  refine Block.writesOnly_append.mpr ⟨writesOnly_phase .enter, ?_⟩
  split
  · rw [Block.writesOnly_cons_cons, Block.writesOnly_write, Block.writesOnly_write]
    exact ⟨scopeOn_active, scopeOn_elapsed⟩
  · exact Block.writesOnly_nil

theorem writesOnly_dispatch (this : String) : Block.WritesOnly self.Scope this self.dispatch := by
  refine Block.writesOnly_map fun target member => ?_
  rw [Block.writesOnly_within]
  exact writesOnly_opening.mono fun object slot inside => ⟨inside.1 ▸ member, inside.2⟩

theorem writesOnly_advance : Block.WritesOnly (self.ScopeOn target) target self.advance := by
  rw [advance]
  split
  · rw [Block.writesOnly_onlyIf, Block.writesOnly_append, Block.writesOnly_write]
    exact ⟨writesOnly_phase .advance, scopeOn_elapsed⟩
  · exact Block.writesOnly_nil

theorem writesOnly_finish : Block.WritesOnly (self.ScopeOn target) target self.finish := by
  rw [finish]
  split
  · rw [Block.writesOnly_onlyIf, Block.writesOnly_append, Block.writesOnly_write]
    exact ⟨writesOnly_phase .exit, scopeOn_active⟩
  · exact Block.writesOnly_nil

end Instance

end Stagecraft
