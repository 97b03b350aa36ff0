/-
Simulations as text: a header with the watched keys, a row of their values after each frame, and in
the end the calls that were made to the host.
-/

import Stagecraft.Decimal.Layout
import Stagecraft.Lua.Performance
import Stagecraft.Scalar.Double
import Stagecraft.Stage.Performance
import Stagecraft.Text.Quoted

namespace Stagecraft

namespace CommandLine

/-- A key of an object whose value is printed. -/
structure Watched where
  object : String
  key : String
deriving DecidableEq

namespace Watched

/-- An object and a key with a colon between them. -/
def read? (text : String) : Option Watched :=
  match text.toList.dropWhile (· != ':') with
  | [] => none
  | _ :: key => some ⟨String.ofList (text.toList.takeWhile (· != ':')), String.ofList key⟩

def name (watched : Watched) : String :=
  watched.object ++ ":" ++ watched.key

end Watched

/-! ### Text -/

/-- The columns that frame numbers take. -/
def frameWidth : Nat := 6

def alignRight (width : Nat) (text : String) : String :=
  "".pushn ' ' (width - text.length) ++ text

def row (title : String) (cells : List String) : String :=
  if cells.isEmpty then ""
  else alignRight frameWidth title ++ " " ++ String.intercalate " " cells ++ "\n"

def header (watches : List Watched) : String :=
  row "frame" (watches.map (·.name))

def frameRow (frame : Nat) (values : List Float) : String :=
  row (toString frame) (values.map (Decimal.fixed 6))

def callText : HostCall → String
  | .playSound sound => "PlaySound(" ++ Text.quote sound ++ ")"
  | .stopSound sound => "StopSound(" ++ Text.quote sound ++ ")"

def callRow (call : LoggedCall) : String :=
  "frame " ++ toString call.frame ++ ": " ++ call.object ++ " " ++ callText call.call ++ "\n"

/-! ### Runs -/

/-- What has been printed, and what went wrong if something did. -/
structure Printed where
  text : String
  failure : Option String

/-- A host for a simulation, which may refuse. -/
structure Host where
  click : Stage Float → String → Except String (Stage Float)
  runFrame : Stage Float → Except String (Stage Float)
  get : Stage Float → Watched → Except String Float

namespace Host

/-- The host that runs logic by its meaning. What it does not know reads as zero. -/
def reference (program : Program Float) : Host where
  click stage id :=
    match stage.click? id with
    | some stage => .ok stage
    | none => .error ("Unknown object '" ++ id ++ "'")
  runFrame stage := .ok (stage.runFrame program)
  get stage watched := .ok (stage.get watched.object watched.key)

def luaFailure (error : Lua.HostError) : String :=
  let kind := match error with
    | .tooLarge => "syntax error: "
    | _ => "runtime error: "
  kind ++ error.message

def lua (script : Lua.Script Float) : Host where
  click stage id :=
    match stage.click? id with
    | some stage => .ok stage
    | none => .error (luaFailure (.unknownObject id))
  runFrame stage :=
    match script.runFrame stage with
    | (none, stage) => .ok stage
    | (some error, _) => .error (luaFailure (.stopped error))
  get stage watched :=
    if stage.world.hosts watched.object then .ok (stage.get watched.object watched.key)
    else .error (luaFailure (.unknownObject watched.object))

/-- Run a frame and read the watched values after it. -/
def observe (host : Host) (watches : List Watched) (stage : Stage Float) :
    Except String (Stage Float × List Float) := do
  let stage ← host.runFrame stage
  let values ← watches.mapM (host.get stage)
  return (stage, values)

/-- Run frames and print a row after each; then print the calls. -/
def runFrames (host : Host) (watches : List Watched) (text : String) :
    (count : Nat) → Stage Float → Printed
  | 0, stage => ⟨text ++ String.join (stage.log.map callRow), none⟩
  | count + 1, stage =>
    match host.observe watches stage with
    | .error message => ⟨text, some message⟩
    | .ok (stage, values) =>
      runFrames host watches (text ++ frameRow stage.frame values) count stage

/-- Run frames after a click, if there is one. -/
def simulate (host : Host) (watches : List Watched) (click : Option String) (frames : Nat)
    (stage : Stage Float) : Printed :=
  let clicked := match click with
    | some id => host.click stage id
    | none => .ok stage
  match clicked with
  | .error message => ⟨"", some message⟩
  | .ok stage => host.runFrames watches "" frames stage

end Host

end CommandLine

end Stagecraft
