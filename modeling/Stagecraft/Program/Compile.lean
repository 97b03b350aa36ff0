/-
From scenes to programs. An object's enter phase is its setup, guarded so that it runs once, and
the logic it owns. Its other phases come from the actions that have it as a target, whoever owns
them. Objects without logic that no action changes do not occur in the program.
-/

import Stagecraft.Program.Basic
import Stagecraft.Program.Contract
import Stagecraft.Program.Owned

namespace Stagecraft

namespace Program

variable {α : Type} [Trigonometric α]

def checkRate (rate : α) : Except (Fault α) Unit :=
  if Scalar.isFinite rate ∧ 0 < rate then .ok () else .error (.invalidTickRate rate)

def checkContracts : List (Instance α) → Except (CompileFault α) Unit
  | [] => .ok ()
  | first :: rest =>
    match first.breach? with
    | some breach => .error (.contract first.key first.label breach)
    | none => checkContracts rest

/-! ### Objects -/

/-- Run a block in the first frame only. -/
def once (setup : Block α) : Block α :=
  if Block.isIdle setup then []
  else [.onlyIf (Slot.initialized.read.equals (.num 0))
    (setup ++ [Slot.initialized.write (.num 1)])]

def targetAction (action : Instance α) : TargetAction α where
  key := action.key
  label := action.label
  ticks := if action.isTimed then action.ticks else 0
  phases := action.phases

/-- The program of an object that owns some logic and is a target of some actions. What several
actions set up alike is set up once. -/
def ofParts (id : String) (owned : Owned α) (actions : List (Instance α)) : ObjectProgram α where
  id
  phases := {
    enter := once ((actions.map (·.setup)).eraseDups.flatten ++ owned.setup) ++ owned.enter
    advance := actions.flatMap (·.advance)
    exit := actions.flatMap (·.finish) }
  actions := actions.map targetAction

/-- The actions that have an object as a target. -/
def targeting (instances : List (Instance α)) (id : String) : List (Instance α) :=
  instances.filter (·.targets.contains id)

def ofObject? (instances : List (Instance α)) (object : SceneObject α) (owned : Owned α) :
    Option (ObjectProgram α) :=
  let actions := targeting instances object.id
  if object.hasLogic || !actions.isEmpty then some (ofParts object.id owned actions) else none

/-- The head owns nothing. -/
def ofHead? (instances : List (Instance α)) : Option (ObjectProgram α) :=
  let actions := targeting instances headId
  if actions.isEmpty then none else some (ofParts headId .nothing actions)

/-! ### Scenes -/

/-- The objects of a scene with the logic that they own. -/
def ownedLogic (rate : α) (scene : Scene α) :
    Except (Fault α) (List (SceneObject α × Owned α)) := do
  checkRate rate
  let directory ← Directory.ofScene scene
  let owned ← Owned.inTurn 0 (directory.objects.map (Owned.ofObject directory rate))
  return directory.objects.zip owned

def compile (rate : α) (scene : Scene α) : Except (CompileFault α) (Program α) := do
  let objects ← (ownedLogic rate scene).mapError .scene
  let instances := objects.flatMap fun (_, owned) => owned.instances
  checkContracts instances
  return {
    rate
    objects := objects.filterMap (fun (object, owned) => ofObject? instances object owned) ++
      (ofHead? instances).toList }

end Program

end Stagecraft
