/-
What every action keeps to. An action that takes time ends on an exact state; one that happens at
once does so in the enter phase and leaves nothing for later.
-/

import Stagecraft.Action.Instance
import Stagecraft.Scene.Fault

namespace Stagecraft

/-- How the phases of an action break the contract. -/
inductive Breach where
  | unsettled
  | idleStart
  | unfinished
deriving DecidableEq

namespace Instance

variable {α : Type} [Trigonometric α]

def breach? (self : Instance α) : Option Breach :=
  let phases := self.phases
  if self.isTimed then
    if Block.isIdle phases.exit then some .unsettled else none
  else if Block.isIdle phases.enter then some .idleStart
  else if Block.isIdle phases.advance && Block.isIdle phases.exit then none
  else some .unfinished

end Instance

/-- Why a scene has no program. -/
inductive CompileFault (α : Type) where
  | scene (fault : Fault α)
  | contract (key label : String) (breach : Breach)
deriving DecidableEq

namespace CompileFault

def message : CompileFault Float → String
  | .scene fault => "Configuration error: " ++ fault.message
  | .contract key label breach =>
    let name := key ++ " (" ++ label ++ ")"
    let text := match breach with
      | .unsettled => "timed action " ++ name ++ " has no exit snap"
      | .idleStart => "instantaneous action " ++ name ++ " has an empty enter"
      | .unfinished => "instantaneous action " ++ name ++ " has continue or exit logic"
    "Compiler invariant violated: " ++ text

end CompileFault

end Stagecraft
