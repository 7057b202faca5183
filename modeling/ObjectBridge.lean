import ObjectBridge.Bridge.Marshal
import ObjectBridge.Bridge.State
import ObjectBridge.Bridge.ToNative
import ObjectBridge.Bridge.ToScripting
import ObjectBridge.Bridge.World
import ObjectBridge.BridgeError
import ObjectBridge.CommandLine.Arguments
import ObjectBridge.CommandLine.Invocation
import ObjectBridge.CommandLine.Program
import ObjectBridge.Config.Settings
import ObjectBridge.Config.Stored
import ObjectBridge.Console
import ObjectBridge.FileFault
import ObjectBridge.Files.FileSystem
import ObjectBridge.Files.Path
import ObjectBridge.Files.Volume
import ObjectBridge.Inspector.Bytes
import ObjectBridge.Inspector.Objects
import ObjectBridge.Json.Decode
import ObjectBridge.Json.Reader
import ObjectBridge.Json.Value
import ObjectBridge.Main
import ObjectBridge.Metadata.Descriptor
import ObjectBridge.Metadata.Error
import ObjectBridge.Metadata.Layout
import ObjectBridge.Metadata.Listing
import ObjectBridge.Metadata.Metadata
import ObjectBridge.Metadata.Reachable
import ObjectBridge.Metadata.Reader
import ObjectBridge.Metadata.Resolved
import ObjectBridge.Metadata.TypeExpr
import ObjectBridge.Metadata.TypeText
import ObjectBridge.Metadata.Universe
import ObjectBridge.Metadata.View
import ObjectBridge.Metadata.Writer
import ObjectBridge.Native.Call
import ObjectBridge.Native.ClassTable
import ObjectBridge.Native.Heap
import ObjectBridge.Native.Kind
import ObjectBridge.Native.Reference
import ObjectBridge.Native.Value
import ObjectBridge.Number.Binary
import ObjectBridge.Number.IntKind
import ObjectBridge.Number.LittleEndian
import ObjectBridge.Number.Shortest
import ObjectBridge.Proofs.Bridge.Adapters
import ObjectBridge.Proofs.Bridge.Callbacks
import ObjectBridge.Proofs.Bridge.Constructions
import ObjectBridge.Proofs.Bridge.Identity
import ObjectBridge.Proofs.Bridge.InstanceClasses
import ObjectBridge.Proofs.Bridge.Integers
import ObjectBridge.Proofs.Bridge.Invariants
import ObjectBridge.Proofs.Bridge.Lives
import ObjectBridge.Proofs.Bridge.Messages
import ObjectBridge.Proofs.Bridge.Moves
import ObjectBridge.Proofs.Bridge.PlainValues
import ObjectBridge.Proofs.Bridge.Pointers
import ObjectBridge.Proofs.Bridge.Records
import ObjectBridge.Proofs.Bridge.Rejections
import ObjectBridge.Proofs.Bridge.Results
import ObjectBridge.Proofs.Bridge.Shapes
import ObjectBridge.Proofs.Bridge.Slots
import ObjectBridge.Proofs.Bridge.Uses
import ObjectBridge.Proofs.Inspector.Forms
import ObjectBridge.Proofs.Json.Reading
import ObjectBridge.Proofs.Metadata.CheckedReads
import ObjectBridge.Proofs.Metadata.Consistency
import ObjectBridge.Proofs.Metadata.Declarations
import ObjectBridge.Proofs.Metadata.FieldNames
import ObjectBridge.Proofs.Metadata.FileBytes
import ObjectBridge.Proofs.Metadata.Lookup
import ObjectBridge.Proofs.Metadata.NestingLimit
import ObjectBridge.Proofs.Metadata.Outlines
import ObjectBridge.Proofs.Metadata.PrintedTypes
import ObjectBridge.Proofs.Metadata.RecordBytes
import ObjectBridge.Proofs.Metadata.RoundTrip
import ObjectBridge.Proofs.Metadata.Segments
import ObjectBridge.Proofs.Metadata.TypeBytes
import ObjectBridge.Proofs.Metadata.TypeGrammar
import ObjectBridge.Proofs.Metadata.TypePrinting
import ObjectBridge.Proofs.Metadata.Walk
import ObjectBridge.Proofs.Metadata.WideBlocks
import ObjectBridge.Proofs.Native.Classes
import ObjectBridge.Proofs.Native.Heap
import ObjectBridge.Proofs.Native.Lifetimes
import ObjectBridge.Proofs.Number.Doubles
import ObjectBridge.Proofs.Number.Rounding
import ObjectBridge.Proofs.Outcome
import ObjectBridge.Proofs.Queue.Dispatch
import ObjectBridge.Proofs.Queue.Histories
import ObjectBridge.Proofs.Queue.Interleavings
import ObjectBridge.Proofs.Queue.Shutdown
import ObjectBridge.Proofs.Queue.WakeCounts
import ObjectBridge.Proofs.Queue.Wakes
import ObjectBridge.Proofs.Registry.Counters
import ObjectBridge.Proofs.Registry.Filing
import ObjectBridge.Proofs.Registry.Ledger
import ObjectBridge.Proofs.Registry.Lending
import ObjectBridge.Proofs.Registry.Runs
import ObjectBridge.Proofs.Registry.Soundness
import ObjectBridge.Proofs.Registry.Standing
import ObjectBridge.Proofs.Registry.Tally
import ObjectBridge.Proofs.Registry.Turns
import ObjectBridge.Proofs.Session.Reached
import ObjectBridge.Proofs.Session.Registrations
import ObjectBridge.Proofs.Synthesis.Calls
import ObjectBridge.Proofs.Synthesis.Checks
import ObjectBridge.Proofs.Synthesis.Compatibility
import ObjectBridge.Proofs.Synthesis.Consistency
import ObjectBridge.Proofs.Synthesis.Histories
import ObjectBridge.Proofs.Synthesis.Members
import ObjectBridge.Proofs.Synthesis.NativePrograms
import ObjectBridge.Proofs.Synthesis.RecordedNames
import ObjectBridge.Proofs.Synthesis.Requests
import ObjectBridge.Proofs.Synthesis.Substitutability
import ObjectBridge.Proofs.Table
import ObjectBridge.Queue.Dispatcher
import ObjectBridge.Queue.Queue
import ObjectBridge.Queue.Workbench
import ObjectBridge.Registry.Holdings
import ObjectBridge.Registry.Wrapper
import ObjectBridge.Script.Value
import ObjectBridge.Session.Answer
import ObjectBridge.Session.Command
import ObjectBridge.Session.Env
import ObjectBridge.Session.Repertoire
import ObjectBridge.Session.Run
import ObjectBridge.Session.Steps
import ObjectBridge.Synthesis.Check
import ObjectBridge.Synthesis.Members
import ObjectBridge.Synthesis.Memo
import ObjectBridge.Synthesis.SynthesizedClass
import ObjectBridge.Table
import ObjectBridge.Text.Blank
import ObjectBridge.Text.Hex
import ObjectBridge.Text.Quoted
import ObjectBridge.Text.Unprintable
import ObjectBridge.Text.UpperCase
import ObjectBridge.Text.Utf8
import ObjectBridge.Toml.Lexeme
import ObjectBridge.Toml.Reader
import ObjectBridge.Toml.Table
import ObjectBridge.Toml.Value
import ObjectBridge.Toml.Writer
