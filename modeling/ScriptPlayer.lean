import ScriptPlayer.Event.Cancellation
import ScriptPlayer.Event.Clockwork
import ScriptPlayer.Event.Dispatch
import ScriptPlayer.Event.Listeners
import ScriptPlayer.Event.Queue
import ScriptPlayer.Event.Timer
import ScriptPlayer.Event.WorkerPool
import ScriptPlayer.Fault
import ScriptPlayer.Key
import ScriptPlayer.Media.Playback
import ScriptPlayer.Media.Video
import ScriptPlayer.Number.Binary64
import ScriptPlayer.Number.Decimal
import ScriptPlayer.Number.Duration
import ScriptPlayer.Object.Access
import ScriptPlayer.Object.ByteRuns
import ScriptPlayer.Object.ByteBuffer
import ScriptPlayer.Object.Class
import ScriptPlayer.Object.Dictionary
import ScriptPlayer.Object.Heap
import ScriptPlayer.Object.Instance
import ScriptPlayer.Object.PositionIndex
import ScriptPlayer.Object.PropertyMap
import ScriptPlayer.Object.TraitTable
import ScriptPlayer.Options.Basic
import ScriptPlayer.Options.Text
import ScriptPlayer.Player.Basic
import ScriptPlayer.Player.Clock
import ScriptPlayer.Player.Session
import ScriptPlayer.Player.Setup
import ScriptPlayer.Proofs.Container.Assoc
import ScriptPlayer.Proofs.Container.ByteRuns
import ScriptPlayer.Proofs.Container.ByteBuffer
import ScriptPlayer.Proofs.Container.Dictionary
import ScriptPlayer.Proofs.Container.DictionaryRun
import ScriptPlayer.Proofs.Container.Positions
import ScriptPlayer.Proofs.Container.PropertyMap
import ScriptPlayer.Proofs.Container.PropertyMapRun
import ScriptPlayer.Proofs.Container.TraitTable
import ScriptPlayer.Proofs.Ownership.Exchange
import ScriptPlayer.Proofs.Ownership.Heap
import ScriptPlayer.Proofs.Ownership.Refs
import ScriptPlayer.Proofs.Ownership.Release
import ScriptPlayer.Proofs.Ownership.Transfer
import ScriptPlayer.Proofs.Player.Accessors
import ScriptPlayer.Proofs.Player.Accounts
import ScriptPlayer.Proofs.Player.Bytes
import ScriptPlayer.Proofs.Player.Definitions
import ScriptPlayer.Proofs.Player.Guards
import ScriptPlayer.Proofs.Player.Session
import ScriptPlayer.Proofs.Player.Setup
import ScriptPlayer.Proofs.Player.Slots
import ScriptPlayer.Proofs.Pool.Greedy
import ScriptPlayer.Proofs.Pool.Outcome
import ScriptPlayer.Proofs.Pool.Schedule
import ScriptPlayer.Proofs.Run.Access
import ScriptPlayer.Proofs.Run.Builtins
import ScriptPlayer.Proofs.Run.Bytes
import ScriptPlayer.Proofs.Run.Construct
import ScriptPlayer.Proofs.Run.Ends
import ScriptPlayer.Proofs.Run.Events
import ScriptPlayer.Proofs.Run.Exchanges
import ScriptPlayer.Proofs.Run.Findings
import ScriptPlayer.Proofs.Run.Frames
import ScriptPlayer.Proofs.Run.Guards
import ScriptPlayer.Proofs.Run.Install
import ScriptPlayer.Proofs.Run.Interpreter
import ScriptPlayer.Proofs.Run.Perform
import ScriptPlayer.Proofs.Run.Property
import ScriptPlayer.Proofs.Run.Slots
import ScriptPlayer.Proofs.World.Chain
import ScriptPlayer.Proofs.World.Contents
import ScriptPlayer.Proofs.World.Counts
import ScriptPlayer.Proofs.World.Lifetime
import ScriptPlayer.Proofs.World.Members
import ScriptPlayer.Proofs.World.Preservation
import ScriptPlayer.Proofs.World.Sound
import ScriptPlayer.Proofs.World.Staffed
import ScriptPlayer.Proofs.World.Step
import ScriptPlayer.Proofs.World.Storing
import ScriptPlayer.Proofs.World.Update
import ScriptPlayer.QName
import ScriptPlayer.Script.Basic
import ScriptPlayer.Script.Builtin
import ScriptPlayer.Script.Builtins
import ScriptPlayer.Script.Construct
import ScriptPlayer.Script.Interpreter
import ScriptPlayer.Script.Property
import ScriptPlayer.Script.Run
import ScriptPlayer.Text.Blank
import ScriptPlayer.Text.Digits
import ScriptPlayer.Text.Parser
import ScriptPlayer.Text.Quoted
import ScriptPlayer.Text.Visible
import ScriptPlayer.Toml.Item
import ScriptPlayer.Toml.Syntax
import ScriptPlayer.Value
import ScriptPlayer.World.Basic
import ScriptPlayer.Player.Shutdown
import ScriptPlayer.Proofs.Timer.Actions
import ScriptPlayer.Proofs.Timer.Clockwork
import ScriptPlayer.Proofs.Timer.History
import ScriptPlayer.Proofs.Timer.Roster
import ScriptPlayer.Proofs.Timer.Ledger
import ScriptPlayer.Proofs.Timer.Deliveries
import ScriptPlayer.Proofs.Timer.Pace
import ScriptPlayer.Proofs.Timer.Counts
import ScriptPlayer.Proofs.Timer.Cues
import ScriptPlayer.Proofs.Timer.Tally
import ScriptPlayer.Proofs.Timer.Completion
import ScriptPlayer.Proofs.Run.Changes
import ScriptPlayer.Proofs.Run.Parts
import ScriptPlayer.Proofs.Run.Scripts
import ScriptPlayer.Proofs.Player.Requests
import ScriptPlayer.Proofs.Run.Leads
import ScriptPlayer.Proofs.Player.Histories
import ScriptPlayer.Proofs.Queue.Session
import ScriptPlayer.Proofs.Queue.Traffic
import ScriptPlayer.Proofs.Run.Places
import ScriptPlayer.Proofs.Player.Presence
import ScriptPlayer.Proofs.Player.Coherence
import ScriptPlayer.Proofs.Run.TextKeys
import ScriptPlayer.Proofs.Player.IndexText
import ScriptPlayer.Proofs.Text.QualifiedName
import ScriptPlayer.Proofs.World.Globals
import ScriptPlayer.Proofs.Player.ClassNames
import ScriptPlayer.Proofs.Text.NumberText
import ScriptPlayer.Proofs.Run.ValueKeys
import ScriptPlayer.Proofs.Video.Reel
import ScriptPlayer.Proofs.Video.Actions
import ScriptPlayer.Proofs.Video.History
import ScriptPlayer.Proofs.Video.Player
import ScriptPlayer.Proofs.Video.Cues
import ScriptPlayer.Proofs.Video.Handoff
import ScriptPlayer.Proofs.Video.Picture
import ScriptPlayer.Proofs.Timer.Targets
import ScriptPlayer.Proofs.Player.Overrides
import ScriptPlayer.Proofs.Run.Staff
import ScriptPlayer.Proofs.Player.EventClass
import ScriptPlayer.Proofs.Run.NewEvent
import ScriptPlayer.Proofs.Run.Dispatch
import ScriptPlayer.Proofs.Player.Dispatches
import ScriptPlayer.Proofs.Ownership.Keep
import ScriptPlayer.Proofs.World.Resembles
import ScriptPlayer.Proofs.World.Litter
import ScriptPlayer.Proofs.Run.Tidy
import ScriptPlayer.Proofs.Run.Balks
import ScriptPlayer.Proofs.Run.Defers
import ScriptPlayer.Proofs.Run.Unaided
import ScriptPlayer.Proofs.Player.Failures
import ScriptPlayer.Proofs.Number.Quotient
import ScriptPlayer.Proofs.Timer.Delays
import ScriptPlayer.Proofs.Timer.Limit
import ScriptPlayer.Proofs.Video.Size
import ScriptPlayer.Proofs.Container.ByteCopy
import ScriptPlayer.Proofs.Run.Copies
import ScriptPlayer.Proofs.Player.ByteCopies
import ScriptPlayer.Proofs.Container.ByteEvents
import ScriptPlayer.Proofs.Player.ByteLengths
import ScriptPlayer.Proofs.Player.Enumeration
import ScriptPlayer.Proofs.Number.Reciprocal
import ScriptPlayer.Proofs.Video.Period
import ScriptPlayer.Proofs.Number.Exactness
import ScriptPlayer.Proofs.Number.Wrapping
import ScriptPlayer.Proofs.Value.StrictEquality
import ScriptPlayer.Proofs.Text.ReadBack
import ScriptPlayer.Proofs.Value.NumberKeys
import ScriptPlayer.Proofs.Player.NumberKeys
import ScriptPlayer.Proofs.Player.ByteNames
import ScriptPlayer.Proofs.Value.Classification
import ScriptPlayer.Proofs.Container.Listeners
import ScriptPlayer.Proofs.Player.Hierarchy
import ScriptPlayer.Proofs.Player.Installation
