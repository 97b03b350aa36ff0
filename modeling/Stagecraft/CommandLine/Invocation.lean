/-
What can be asked for on the command line. A task works on one scene, or writes the settings that
hold without it.
-/

namespace Stagecraft

namespace CommandLine

inductive Task where
  /-- Write the program of a scene, as a manifest or with its logic. -/
  | compile (scene : String) (output : Option String) (logic : Bool)
  /-- Run a scene for some frames, by its logic or in Lua. -/
  | simulate (scene : String) (frames : Nat) (watches : List String) (click : Option String)
    (lua : Bool)
  /-- Write the settings to their file. -/
  | initConfig
deriving DecidableEq

structure Invocation where
  settingsPath : Option String
  /-- Ticks in a second, whatever the settings say. -/
  rate : Option Float
  task : Task

/-- The scene that a task works on. -/
def Task.scene? : Task → Option String
  | .compile scene _ _ => some scene
  | .simulate scene _ _ _ _ => some scene
  | .initConfig => none

/-- Why no task is run. -/
inductive Stop where
  | usage
  | help
  | version
deriving DecidableEq

end CommandLine

end Stagecraft
