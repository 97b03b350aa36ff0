import Stagecraft.Scene.Reading
import Stagecraft.Scene.Writing
import Stagecraft.Scene.Building
import Stagecraft.Logic.Reading
import Stagecraft.Logic.Writing
import Stagecraft.Lua.Printer
import Stagecraft.Lua.Meaning
import Stagecraft.Action.Resolution
import Stagecraft.Trigger.Resolution
import Stagecraft.Trigger.Watching
import Stagecraft.Timeline.Sequence
import Stagecraft.Program.Compile
import Stagecraft.Program.Writing
import Stagecraft.Stage.Performance
import Stagecraft.Lua.Performance
import Stagecraft.Settings.Basic
import Stagecraft.Text.Quoted
import Stagecraft.Main
import Stagecraft.Proofs.Logic.Keys
import Stagecraft.Proofs.Logic.Writes
import Stagecraft.Proofs.Action.Dispatching
import Stagecraft.Proofs.Action.Lifecycle
import Stagecraft.Proofs.Decimal.Reading
import Stagecraft.Proofs.Logic.Ledger
import Stagecraft.Proofs.Lua.Correspondence
import Stagecraft.Proofs.Program.Spots
import Stagecraft.Proofs.Timeline.Safety
import Stagecraft.Proofs.Trigger.Edges
import Stagecraft.Proofs.Trigger.Movements
import Stagecraft.Proofs.Scalar.Exact
import Stagecraft.Proofs.Program.Order
import Stagecraft.Proofs.Action.Handing
import Stagecraft.Proofs.Program.Declared
import Stagecraft.Proofs.Program.Completeness
import Stagecraft.Proofs.Program.Changes
import Stagecraft.Proofs.Timeline.Exactness
import Stagecraft.Proofs.Program.Contracts
import Stagecraft.Proofs.Logic.Kinds
import Stagecraft.Proofs.Logic.Strict
import Stagecraft.Proofs.Effect.Soundness
import Stagecraft.Proofs.Trigger.Soundness
import Stagecraft.Proofs.Program.Soundness
import Stagecraft.Proofs.Effect.Snapshots
import Stagecraft.Proofs.Program.Snapshots
import Stagecraft.Proofs.Effect.Playback
import Stagecraft.Proofs.Program.Playback
import Stagecraft.Proofs.Trigger.Toggles
import Stagecraft.Proofs.Timeline.Rest
import Stagecraft.Proofs.Timeline.Freeze
import Stagecraft.Proofs.Timeline.Clock
import Stagecraft.Proofs.Program.Rates
import Stagecraft.Proofs.Program.Acceptance
import Stagecraft.Proofs.Effect.Settling
import Stagecraft.Proofs.Timeline.Laps
import Stagecraft.Proofs.Scene.RoundTrip
import Stagecraft.Proofs.Trigger.Hysteresis
import Stagecraft.Proofs.Action.FanOut
import Stagecraft.Proofs.Effect.Gliding
import Stagecraft.Proofs.Program.Beginnings
import Stagecraft.Proofs.Program.Gliding
import Stagecraft.Proofs.Program.Journeys
import Stagecraft.Proofs.Scene.Flattening
import Stagecraft.Proofs.Timeline.Starts
import Stagecraft.Proofs.Action.Lasting
import Stagecraft.Proofs.Program.Turning
import Stagecraft.Proofs.Geometry.Quaternions
import Stagecraft.Proofs.Geometry.Frames
import Stagecraft.Proofs.Action.Looking
import Stagecraft.Proofs.Stage.Facing
import Stagecraft.Proofs.Program.Revolving
import Stagecraft.Proofs.Scalar.Roots
import Stagecraft.Proofs.Scene.Directions
import Stagecraft.Proofs.Lua.Indentation
import Stagecraft.Proofs.Logic.Spelling
import Stagecraft.Proofs.Program.Spelling
import Stagecraft.Proofs.Timeline.Spans
import Stagecraft.Proofs.Scalar.Errors
import Stagecraft.Proofs.Timeline.Hundredths
import Stagecraft.Proofs.Lua.Quoting
import Stagecraft.Proofs.Program.Finiteness
