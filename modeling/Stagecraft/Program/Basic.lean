/-
Programs. A program says for each object what it does in the phases of a frame. Objects run in the
order of the list.
-/

import Stagecraft.Logic.Basic

namespace Stagecraft

/-- An action as one of its targets sees it. -/
structure TargetAction (α : Type) where
  key : String
  /-- The kind of the action. -/
  label : String
  /-- The frames in which it advances; zero if it happens at once. -/
  ticks : Nat
  phases : Phases α

structure ObjectProgram (α : Type) where
  id : String
  phases : Phases α
  /-- The actions on the object, in the order of their numbers. -/
  actions : List (TargetAction α)

structure Program (α : Type) where
  /-- Ticks in a second. -/
  rate : α
  objects : List (ObjectProgram α)

/-- The ids of the objects in running order. -/
def Program.ids {α : Type} (program : Program α) : List String :=
  program.objects.map (·.id)

end Stagecraft
