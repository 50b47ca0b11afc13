import SignalGraph.Config.Defaults
import SignalGraph.Config.Value
import SignalGraph.Dispatch.Builtin
import SignalGraph.Dispatch.Handlers
import SignalGraph.Dispatch.Numeric
import SignalGraph.Dispatch.Registry
import SignalGraph.Element.Basic
import SignalGraph.Element.Builtin
import SignalGraph.Element.Custom
import SignalGraph.Ensemble.Basic
import SignalGraph.Ensemble.Random
import SignalGraph.Ensemble.Ridge
import SignalGraph.ErrorCode
import SignalGraph.Graph.Basic
import SignalGraph.Graph.Construct
import SignalGraph.Graph.Error
import SignalGraph.Graph.Overlay
import SignalGraph.KeyMap
import SignalGraph.Logging.DebugTargets
import SignalGraph.Logging.Format
import SignalGraph.Matrix
import SignalGraph.NDArray.Basic
import SignalGraph.NDArray.Join
import SignalGraph.NDArray.Views
import SignalGraph.Network.Basic
import SignalGraph.Network.Handle
import SignalGraph.Network.Listing
import SignalGraph.Network.Object
import SignalGraph.Network.Target
import SignalGraph.Operand.Basic
import SignalGraph.Operand.Broadcast
import SignalGraph.Operation
import SignalGraph.Realize
import SignalGraph.Run.Basic
import SignalGraph.Run.Capture
import SignalGraph.Run.Options
import SignalGraph.Scalar
import SignalGraph.Scalar.Float
import SignalGraph.Settings.Basic
import SignalGraph.Settings.Check
import SignalGraph.Settings.Decode
import SignalGraph.Settings.Files
import SignalGraph.Settings.Load
import SignalGraph.Settings.Override
import SignalGraph.Shape
import SignalGraph.Signal
import SignalGraph.Signal.Function
import SignalGraph.Signal.Waveform
import SignalGraph.Simulation.Backend
import SignalGraph.Simulation.Circuit
import SignalGraph.Simulation.Schedule
import SignalGraph.Simulation.Simulator
import SignalGraph.Text.Binary
import SignalGraph.Text.Blank
import SignalGraph.Text.Case
import SignalGraph.Text.Decimal
import SignalGraph.Text.Listing
import SignalGraph.Text.Number
import SignalGraph.Text.Numeral
import SignalGraph.Text.Quoted
import SignalGraph.Text.Table.CaseIgnorable
import SignalGraph.Text.Table.Cased
import SignalGraph.Text.Table.Extending
import SignalGraph.Text.Table.Lowercase
import SignalGraph.Text.Table.Unprintable
import SignalGraph.Toml.Document
import SignalGraph.Toml.Number
import SignalGraph.Toml.Scan
import SignalGraph.Toml.Text
import SignalGraph.Toml.Value
import SignalGraph.Vectorize
import SignalGraph.Version
import SignalGraph.Proofs.Computation
import SignalGraph.Proofs.Simulation.Output
import SignalGraph.Proofs.Simulation.Schedules
import SignalGraph.Proofs.Network.WellFormed
import SignalGraph.Proofs.Simulation.Levels
import SignalGraph.Proofs.Simulation.Compile
import SignalGraph.Proofs.Arithmetic.Exact
import SignalGraph.Proofs.Arithmetic.Kernels
import SignalGraph.Proofs.Arithmetic.Rational
import SignalGraph.Proofs.Simulation.Stepping
import SignalGraph.Proofs.Simulation.Backends
import SignalGraph.Proofs.Simulation.Sizes
import SignalGraph.Proofs.Simulation.Feedback
import SignalGraph.Proofs.Effects
import SignalGraph.Proofs.Lowering.Kinds
import SignalGraph.Proofs.Lowering.Streams
import SignalGraph.Proofs.Realize.Places
import SignalGraph.Proofs.Lowering.Realized
import SignalGraph.Proofs.Lowering.Placing
import SignalGraph.Proofs.Arithmetic.Blocks
import SignalGraph.Proofs.Lowering.Outputs
import SignalGraph.Proofs.Lowering.Refinement
import SignalGraph.Proofs.Lowering.Traces
import SignalGraph.Proofs.Arrays
import SignalGraph.Proofs.Graph.Building
import SignalGraph.Proofs.Graph.Steady
import SignalGraph.Proofs.Graph.Constructors
import SignalGraph.Proofs.Dispatch.Cells
import SignalGraph.Proofs.Dispatch.Positions
import SignalGraph.Proofs.Dispatch.Expressions
import SignalGraph.Proofs.Steady.Configuration
import SignalGraph.Proofs.Steady.Networks
import SignalGraph.Proofs.Steady.Realized
import SignalGraph.Proofs.Run.Captures
import SignalGraph.Proofs.Steady.Recordings
import SignalGraph.Proofs.Steady.Runs
import SignalGraph.Proofs.Steady.Lazy
import SignalGraph.Proofs.Network.Histories
import SignalGraph.Proofs.Simulation.Records
import SignalGraph.Proofs.Simulation.Bounds
import SignalGraph.Proofs.Simulation.Safety
import SignalGraph.Proofs.Simulation.Failures
import SignalGraph.Proofs.Graph.Construction
import SignalGraph.Proofs.Dispatch.Keeping
import SignalGraph.Proofs.Graph.Routes
import SignalGraph.Proofs.Graph.Walks
import SignalGraph.Proofs.Graph.Parameters
import SignalGraph.Proofs.Graph.Scopes
import SignalGraph.Proofs.Lowering.Granted
import SignalGraph.Proofs.Realize.Tracing
import SignalGraph.Proofs.Realize.Writes
import SignalGraph.Proofs.Realize.Once
import SignalGraph.Proofs.Realize.Poisoning
import SignalGraph.Proofs.Realize.Sessions
import SignalGraph.Proofs.Realize.Progress
import SignalGraph.Proofs.Realize.Placeholders
import SignalGraph.Proofs.Realize.Furnished
import SignalGraph.Proofs.Realize.Orders
import SignalGraph.Proofs.Network.Mirrors
import SignalGraph.Proofs.Simulation.Mirrors
import SignalGraph.Proofs.Realize.Slices
import SignalGraph.Proofs.Graph.Overlays
import SignalGraph.Proofs.Graph.Nearest
import SignalGraph.Proofs.Run.Layout
import SignalGraph.Proofs.Settings.Runnable
import SignalGraph.Proofs.Broadcast.Joins
import SignalGraph.Proofs.Broadcast.Mapping
import SignalGraph.Proofs.Realize.Values
import SignalGraph.Proofs.Realize.Constructions
import SignalGraph.Proofs.Realize.Components
import SignalGraph.Proofs.Axes
import SignalGraph.Proofs.Dispatch.Bundles
import SignalGraph.Proofs.Arrays.Views
import SignalGraph.Proofs.Arrays.Joining
import SignalGraph.Proofs.Arrays.Lanes
import SignalGraph.Proofs.Dispatch.Axes
import SignalGraph.Proofs.Dispatch.Joining
import SignalGraph.Proofs.Realize.Totals
import SignalGraph.Proofs.Dispatch.Reductions
import SignalGraph.Proofs.Settings.Precedence
import SignalGraph.Proofs.Simulation.Chains
import SignalGraph.Proofs.Arithmetic.Ordered
import SignalGraph.Proofs.Ensemble.Factors
import SignalGraph.Proofs.Ensemble.Forms
import SignalGraph.Proofs.Arithmetic.Real
import SignalGraph.Proofs.Ensemble.Decoders
import SignalGraph.Proofs.Ensemble.Regression
import SignalGraph.Proofs.Dispatch.Registrations
import SignalGraph.Proofs.Ensemble.Seeds
