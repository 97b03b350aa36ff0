/-
Frames run in Lua. The text of each phase is a chunk, and a frame goes as it does for the logic that
the text was made from. A runtime error ends the frame where it happens: what was done before
remains, and selections are not taken back. A program is refused if one of its objects is not hosted
or one of its chunks cannot be loaded.
-/

import Stagecraft.Lua.Code
import Stagecraft.Lua.Meaning
import Stagecraft.Program.Basic
import Stagecraft.Stage.Basic

namespace Stagecraft

namespace Lua

/-! ### The mathematics library -/

/-- The one of two numbers that comes first, or last; the later one unless the earlier one does. -/
def pick {α : Type} [Scalar α] (comesFirst : α → α → Bool) (earlier later : α) : α :=
  if comesFirst earlier later then earlier else later

/-- The functions as the host computes them. The least and the greatest of some numbers are found
from left to right, so the last one stands for all before it if it cannot be compared to them. -/
def mathematics {α : Type} [Trigonometric α] (builtin : Builtin) (arguments : List α) : α :=
  let chosen (comesFirst : α → α → Bool) : α :=
    match arguments with
    | [] => 0
    | first :: rest => rest.foldl (pick comesFirst) first
  match builtin with
  | .min => chosen fun x y => decide (x < y)
  | .max => chosen fun x y => decide (y < x)
  | _ => builtin.apply arguments

/-! ### Refusals -/

/-- Why a host refuses. -/
inductive HostError where
  | unknownObject (id : String)
  | zeroLook
  /-- The name of a chunk has a NUL so many bytes from its start. -/
  | nulInName (place : Nat)
  | tooLarge
  | stopped (error : RuntimeError)
deriving DecidableEq

namespace HostError

def message : HostError → String
  | .unknownObject id => "unknown object '" ++ id ++ "'"
  | .zeroLook => "zero look direction"
  | .nulInName place =>
    "invalid name: nul byte found in provided data at position: " ++ toString place
  | .tooLarge => "control structure too long"
  | .stopped _ => "the script stopped"

end HostError

/-- A program as chunks. -/
structure Script (α : Type) where
  objects : List (String × (Phase → Chunk α))

namespace Script

variable {α : Type}

def ofProgram [Scalar α] (program : Program α) : Script α where
  objects := program.objects.map fun object =>
    (object.id, fun phase => ofBlock (object.phases.get phase))

/-- The name under which a chunk is loaded. -/
def chunkName (id : String) (phase : Phase) : String :=
  id ++ ":" ++ phase.name

/-- Where the first NUL of a text is. -/
def nulPlace? (text : String) : Option Nat :=
  if text.contains '\x00' then
    some (String.ofList (text.toList.takeWhile (· != '\x00'))).utf8ByteSize
  else none

/-- Load a chunk. A chunk without statements is not loaded, so nothing can be wrong with it. -/
def load [Scalar α] (name : String) (chunk : Chunk α) : Except HostError Unit :=
  if chunk.isEmpty then .ok ()
  else match nulPlace? name with
    | some place => .error (.nulInName place)
    | none => if chunk.isLoadable then .ok () else .error .tooLarge

/-- Load the chunks of objects, in order. All objects must be hosted. -/
def loadAll [Scalar α] (stage : Stage α) :
    List (String × (Phase → Chunk α)) → Except HostError Unit
  | [] => .ok ()
  | (id, chunks) :: rest => do
    if !stage.world.hosts id then throw (.unknownObject id)
    Phase.all.forM fun phase => load (chunkName id phase) (chunks phase)
    loadAll stage rest

/-- Install a program. -/
def install [Scalar α] (stage : Stage α) (program : Program α) :
    Except HostError (Script α) := do
  let script := ofProgram program
  loadAll stage script.objects
  return script

variable [Trigonometric α]

def runChunks (phase : Phase) : List (String × (Phase → Chunk α)) → World α → Outcome α (World α)
  | [], world => .ok world
  | (id, chunks) :: rest, world => do
    let world ← (chunks phase).run mathematics id world
    runChunks phase rest world

def runPhases (script : Script α) : List Phase → World α → Outcome α (World α)
  | [], world => .ok world
  | phase :: rest, world => do
    let world ← runChunks phase script.objects world
    runPhases script rest world

/-- Run a frame. If it stops, the stage is as it was then. -/
def runFrame (script : Script α) (stage : Stage α) : Option RuntimeError × Stage α :=
  match script.runPhases Phase.all (stage.face Quaternion.forwardByProducts) with
  | .ok world => (none, stage.afterFrame (stage.release world))
  | .error (error, world) => (some error, stage.afterFrame world)

/-- Run frames until one of them stops. -/
def runFrames (script : Script α) : (count : Nat) → Stage α → Option RuntimeError × Stage α
  | 0, stage => (none, stage)
  | count + 1, stage =>
    match script.runFrame stage with
    | (none, stage) => runFrames script count stage
    | (some error, stage) => (some error, stage)

end Script

end Lua

end Stagecraft
