import Handover.Agent.Registration
import Handover.Agent.Runtime
import Handover.Agent.State
import Handover.Agent.Wire
import Handover.Blackboard.Basic
import Handover.Blackboard.Store
import Handover.Blackboard.Writer
import Handover.Bus.Basic
import Handover.Bus.Request
import Handover.CommandLine
import Handover.Config.Basic
import Handover.Config.Load
import Handover.Config.Setting
import Handover.Context
import Handover.Coordinator
import Handover.Demo
import Handover.Error
import Handover.Json.Decode
import Handover.Json.Draft
import Handover.Json.Printer
import Handover.Json.Value
import Handover.Main
import Handover.Message
import Handover.Number.Decimal
import Handover.Number.Double
import Handover.Number.Numeral
import Handover.Number.Shortest
import Handover.Output
import Handover.Proofs.Agent.Metrics
import Handover.Proofs.Agent.Runtime
import Handover.Proofs.Agent.Wire
import Handover.Proofs.Blackboard
import Handover.Proofs.Bureau
import Handover.Proofs.Bureau.Image
import Handover.Proofs.Bureau.Restart
import Handover.Proofs.Bus
import Handover.Proofs.Bus.Awaiting
import Handover.Proofs.Bus.Deliveries
import Handover.Proofs.Bus.Delivery
import Handover.Proofs.Bus.Queues
import Handover.Proofs.Call
import Handover.Proofs.Call.Atomicity
import Handover.Proofs.Call.Commands
import Handover.Proofs.Call.Holder
import Handover.Proofs.Call.Likeness
import Handover.Proofs.Call.Mirror
import Handover.Proofs.Call.Ping
import Handover.Proofs.Call.Record
import Handover.Proofs.Call.Success
import Handover.Proofs.Call.Succession
import Handover.Proofs.Call.Writes
import Handover.Proofs.Config.Keys
import Handover.Proofs.Config.Layers
import Handover.Proofs.Config.Merging
import Handover.Proofs.Context
import Handover.Proofs.Context.Family
import Handover.Proofs.Context.Tokens
import Handover.Proofs.Coordinator
import Handover.Proofs.Coordinator.Retention
import Handover.Proofs.Crowd
import Handover.Proofs.Crowd.Filing
import Handover.Proofs.Crowd.Independence
import Handover.Proofs.Crowd.OneAgent
import Handover.Proofs.Crowd.Story
import Handover.Proofs.Crowd.Versions
import Handover.Proofs.Desk
import Handover.Proofs.Desk.Front
import Handover.Proofs.Desk.Listening
import Handover.Proofs.Desk.Sessions
import Handover.Proofs.Exchange
import Handover.Proofs.Exchange.Accounts
import Handover.Proofs.Exchange.Addresses
import Handover.Proofs.Exchange.Clock
import Handover.Proofs.Exchange.Correlation
import Handover.Proofs.Exchange.History
import Handover.Proofs.Exchange.Once
import Handover.Proofs.Exchange.Outcome
import Handover.Proofs.Exchange.Overlap
import Handover.Proofs.Json
import Handover.Proofs.Json.Decoding
import Handover.Proofs.Json.Scalars
import Handover.Proofs.Recovery
import Handover.Proofs.Recovery.Additions
import Handover.Proofs.Recovery.Steps
import Handover.Proofs.Registry
import Handover.Proofs.Registry.Access
import Handover.Proofs.Registry.Heartbeats
import Handover.Proofs.Registry.Roster
import Handover.Proofs.Session
import Handover.Proofs.Session.Ending
import Handover.Proofs.Session.Growth
import Handover.Proofs.Session.History
import Handover.Proofs.Session.Wire
import Handover.Proofs.Site
import Handover.Proofs.Site.Pauses
import Handover.Proofs.Station
import Handover.Proofs.Swap.Burden
import Handover.Proofs.Swap.Course
import Handover.Proofs.Swap.Edits
import Handover.Proofs.Swap.Entries
import Handover.Proofs.Swap.Fate
import Handover.Proofs.Swap.Filing
import Handover.Proofs.Swap.Growth
import Handover.Proofs.Swap.Moves
import Handover.Proofs.Swap.Story
import Handover.Proofs.Swap.Takeover
import Handover.Proofs.Table
import Handover.Proofs.Time
import Handover.Proofs.Wire
import Handover.Proofs.Wording
import Handover.Proofs.Writer
import Handover.Proofs.Writer.Failures
import Handover.Proofs.Writer.Image
import Handover.Registry
import Handover.Rehearsal.Acts
import Handover.Rehearsal.Scheduler
import Handover.Rehearsal.Step
import Handover.Rehearsal.World
import Handover.Session.Basic
import Handover.Session.Wire
import Handover.Swap.Handing
import Handover.Swap.Protocol
import Handover.Table
import Handover.Text.Hidden
import Handover.Text.Ident
import Handover.Text.Quoted
import Handover.Time.Instant
import Handover.Time.Timestamp
import Handover.Toml.Document
import Handover.Toml.Scalar
