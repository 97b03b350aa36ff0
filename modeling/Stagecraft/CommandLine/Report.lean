/-
Tasks carried out. What a task does is worked out from the texts of the files it reads, and comes
out as a report: what is printed, and then success, failure, or a file to be written.
-/

import Stagecraft.CommandLine.Invocation
import Stagecraft.CommandLine.Simulation
import Stagecraft.Program.Compile
import Stagecraft.Program.Writing
import Stagecraft.Scene.Reading
import Stagecraft.Settings.Basic

namespace Stagecraft

namespace CommandLine

inductive Ending where
  | success
  | failure (message : String)
  /-- Write a file. Success is announced; a failure is the complaint with the reason. -/
  | save (path content announcement complaint : String)
deriving DecidableEq

structure Report where
  output : String
  ending : Ending
deriving DecidableEq

/-- The texts of files by their paths, or the reasons why they cannot be read. -/
abbrev Files := String → Except String String

namespace Invocation

/-- The file that the settings are read from and written to. -/
def settingsFile (invocation : Invocation) : String :=
  invocation.settingsPath.getD Settings.standardPath

/-- The files that are read. -/
def reads (invocation : Invocation) : List String :=
  invocation.settingsFile :: invocation.task.scene?.toList

/-- The settings that hold. A file that cannot be loaded is passed over. -/
def settings (invocation : Invocation) (files : Files) : Settings :=
  let path := invocation.settingsFile
  let loaded := match Settings.standard.load path (files path) with
    | .ok settings => settings
    | .error _ => Settings.standard
  { loaded with rate := invocation.rate.getD loaded.rate }

end Invocation

/-! ### Tasks -/

/-- A scene and its program. -/
def compileFile (settings : Settings) (files : Files) (path : String) :
    Except String (Scene Float × Program Float) := do
  let text ← (files path).mapError fun reason => "Failed to read " ++ path ++ ": " ++ reason
  match Scene.parse? text with
  | none => throw "Failed to parse scene"
  | some scene =>
    let program ← (Program.compile settings.rate scene).mapError CompileFault.message
    return (scene, program)

def compileTask (settings : Settings) (files : Files) (path : String) (output : Option String)
    (logic : Bool) : Report :=
  match compileFile settings files path with
  | .error message => ⟨"", .failure message⟩
  | .ok (_, program) =>
    let content :=
      if logic then Json.pretty 0 program.toJson else program.manifest settings.layout
    match output with
    | none => ⟨content ++ "\n", .success⟩
    | some target => ⟨"", .save target content "" ("Failed to write " ++ target ++ ": ")⟩

def readWatches : List String → Except String (List Watched)
  | [] => .ok []
  | text :: rest => do
    match Watched.read? text with
    | none => throw ("Invalid watch '" ++ text ++ "', expected OBJECT:KEY")
    | some watched =>
      let others ← readWatches rest
      return watched :: others

/-- Run a program on the stage of its scene. -/
def perform (scene : Scene Float) (program : Program Float) (frames : Nat)
    (watches : List Watched) (click : Option String) (lua : Bool) : Printed :=
  let stage := Stage.ofScene scene
  if lua then
    match Lua.Script.install stage program with
    | .error error => ⟨"", some (Host.luaFailure error)⟩
    | .ok script => (Host.lua script).simulate watches click frames stage
  else (Host.reference program).simulate watches click frames stage

def simulateTask (settings : Settings) (files : Files) (path : String) (frames : Nat)
    (watches : List String) (click : Option String) (lua : Bool) : Report :=
  let prepared : Except String (Scene Float × Program Float × List Watched) := do
    let (scene, program) ← compileFile settings files path
    let watches ← readWatches watches
    return (scene, program, watches)
  match prepared with
  | .error message => ⟨"", .failure message⟩
  | .ok (scene, program, watches) =>
    let printed := perform scene program frames watches click lua
    let ending := match printed.failure with
      | none => .success
      | some message => .failure message
    ⟨header watches ++ printed.text, ending⟩

/-- Carry out what is asked for. -/
def Invocation.report (invocation : Invocation) (files : Files) : Report :=
  let settings := invocation.settings files
  match invocation.task with
  | .compile scene output logic => compileTask settings files scene output logic
  | .simulate scene frames watches click lua =>
    simulateTask settings files scene frames watches click lua
  | .initConfig =>
    let path := invocation.settingsFile
    ⟨"", .save path settings.write ("Config written to " ++ path ++ "\n") (Settings.saveMessage "")⟩

/-- What is printed instead of carrying out a task, and the exit code. -/
def Stop.answer : Stop → String × Nat
  | .usage => ("", 2)
  | .help => ("Usage: scenelogic [OPTIONS] <COMMAND>\n", 0)
  | .version => ("scenelogic 0.1.0\n", 0)

/-- How a failure is told. -/
def failureLine (message : String) : String :=
  "Error: " ++ message

end CommandLine

end Stagecraft
