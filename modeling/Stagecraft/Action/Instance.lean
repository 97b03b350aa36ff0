/-
Actions ready to run. An instance has a number of its own, under which each of its targets keeps
the state of the action. Dispatching it begins the action on every target; from then on each
target advances it in every frame until its ticks are spent, and then settles it.
-/

import Stagecraft.Effect.Blocks

namespace Stagecraft

structure Instance (α : Type) where
  number : Nat
  label : String
  targets : List String
  timing : Timing α
  effect : Effect α

namespace Instance

variable {α : Type} [Trigonometric α] (self : Instance α)

/-- The name under which targets keep the state of the action. -/
def key : String :=
  Slot.actionPrefix self.number

def isTimed : Bool :=
  self.timing.isTimed

def ticks : Nat :=
  self.timing.ticks

def phases : Phases α :=
  self.effect.phases self.number self.timing

def setup : Block α :=
  self.effect.setup

def active : Slot := .action self.number .active

def elapsed : Slot := .action self.number .elapsed

/-- What a dispatch does on one target. -/
def opening : Block α :=
  self.phases.enter ++
    (if self.isTimed then [self.active.write (.num 1), self.elapsed.write (.num 0)] else [])

def dispatch : Block α :=
  self.targets.map fun target => .within target self.opening

/-- What a target does in every frame while the action goes on. -/
def advance : Block α :=
  if self.isTimed then
    [.onlyIf self.active.read.isSet
      (self.phases.advance ++ [self.elapsed.write (self.elapsed.read + .num 1)])]
  else []

/-- What a target does once the ticks are spent. -/
def finish : Block α :=
  if self.isTimed then
    [.onlyIf (self.active.read.isSet.and (self.elapsed.read.ge (.num (Scalar.ofNat self.ticks))))
      (self.phases.exit ++ [self.active.write (.num 0)])]
  else []

end Instance

end Stagecraft
