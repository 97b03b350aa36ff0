/-
Frames run by the meaning of logic. In a frame every object is first made to face where its
orientation says. Then each phase runs on all objects in turn before the next one begins, and in the
end selections are taken back.
-/

import Stagecraft.Logic.Meaning
import Stagecraft.Program.Basic
import Stagecraft.Stage.Basic

namespace Stagecraft

variable {α : Type} [Trigonometric α]

/-- Run one phase on all hosted objects. -/
def Program.runPhase (program : Program α) (world : World α) (phase : Phase) : World α :=
  program.objects.foldl
    (fun world object =>
      if world.hosts object.id then Block.run (object.phases.get phase) object.id world else world)
    world

namespace Stage

def runFrame (program : Program α) (stage : Stage α) : Stage α :=
  let facing := stage.face Quaternion.forward
  stage.afterFrame (stage.release (Phase.all.foldl program.runPhase facing))

def runFrames (program : Program α) : (count : Nat) → Stage α → Stage α
  | 0, stage => stage
  | count + 1, stage => runFrames program count (stage.runFrame program)

end Stage

end Stagecraft
