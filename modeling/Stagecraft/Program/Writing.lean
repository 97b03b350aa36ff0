/-
Programs as documents: with their logic, or as a manifest that gives a host the text of each phase.
-/

import Stagecraft.Logic.Writing
import Stagecraft.Lua.Printer
import Stagecraft.Program.Basic

namespace Stagecraft

def TargetAction.toJson (action : TargetAction Float) : Json :=
  .object [("key", .text action.key), ("kind", .text action.label), ("ticks", .ofNat action.ticks),
    ("fragments", action.phases.toJson)]

def ObjectProgram.toJson (object : ObjectProgram Float) : Json :=
  .object [("id", .text object.id), ("fragments", object.phases.toJson),
    ("actions", .list (object.actions.map (·.toJson)))]

namespace Phases

/-- The texts of the phases, by their names. -/
def texts (layout : Lua.Layout) (phases : Phases Float) : List (String × String) :=
  Phase.all.map fun phase => (phase.name, Block.render layout (phases.get phase))

end Phases

namespace Program

def toJson (program : Program Float) : Json :=
  .object [("tick_rate", .ofFloat program.rate),
    ("objects", .list (program.objects.map (·.toJson)))]

def manifestEntry (layout : Lua.Layout) (object : ObjectProgram Float) : Json :=
  .object (("id", .text object.id) ::
    (object.phases.texts layout).map fun (phase, text) => (phase, .text text))

/-- What is installed into a host. -/
def manifest (layout : Lua.Layout) (program : Program Float) : String :=
  Json.pretty 0 (.object [("tick_rate", .ofFloat program.rate),
    ("objects", .list (program.objects.map (manifestEntry layout)))])

end Program

end Stagecraft
