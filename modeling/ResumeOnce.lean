import ResumeOnce.Blocking
import ResumeOnce.Cell
import ResumeOnce.Channel.Basic
import ResumeOnce.Channel.Snapshot
import ResumeOnce.Completion
import ResumeOnce.Config.Builder
import ResumeOnce.Config.Document
import ResumeOnce.Config.Environment
import ResumeOnce.Config.Fault
import ResumeOnce.Config.Settings
import ResumeOnce.Config.Startup
import ResumeOnce.Datum
import ResumeOnce.Fault
import ResumeOnce.Fold.Turn
import ResumeOnce.Leak
import ResumeOnce.Lifecycle
import ResumeOnce.Proofs.Cell.Against
import ResumeOnce.Proofs.Cell.Race
import ResumeOnce.Proofs.Cell.Serial
import ResumeOnce.Proofs.Cell.Story
import ResumeOnce.Proofs.Channel.Cells
import ResumeOnce.Proofs.Channel.Coherence
import ResumeOnce.Proofs.Channel.Contents
import ResumeOnce.Proofs.Channel.Fifo
import ResumeOnce.Proofs.Channel.Keeping
import ResumeOnce.Proofs.Channel.Ledger
import ResumeOnce.Proofs.Channel.Move
import ResumeOnce.Proofs.Channel.Traffic
import ResumeOnce.Proofs.Channel.Vigil
import ResumeOnce.Proofs.Channel.Waiting
import ResumeOnce.Proofs.Config.Environment
import ResumeOnce.Proofs.Contest.Basic
import ResumeOnce.Proofs.Contest.Fair
import ResumeOnce.Proofs.Contest.Settled
import ResumeOnce.Proofs.Fold.Accounting
import ResumeOnce.Proofs.Fold.Cancelling
import ResumeOnce.Proofs.Fold.Consumer
import ResumeOnce.Proofs.Fold.Exits
import ResumeOnce.Proofs.Fold.History
import ResumeOnce.Proofs.Fold.Operations
import ResumeOnce.Proofs.Fold.Progress
import ResumeOnce.Proofs.Fold.Rebuffering
import ResumeOnce.Proofs.Fold.Relabelling
import ResumeOnce.Proofs.Fold.Steps
import ResumeOnce.Proofs.Fold.Undisturbed
import ResumeOnce.Proofs.Network.Brittle
import ResumeOnce.Proofs.Network.Call
import ResumeOnce.Proofs.Network.Cancelling
import ResumeOnce.Proofs.Network.Conduct
import ResumeOnce.Proofs.Network.Continuing
import ResumeOnce.Proofs.Network.Discourse
import ResumeOnce.Proofs.Network.Enduring
import ResumeOnce.Proofs.Network.Fallible
import ResumeOnce.Proofs.Network.Feeding
import ResumeOnce.Proofs.Network.Grammar
import ResumeOnce.Proofs.Network.Lasting
import ResumeOnce.Proofs.Network.Liveness
import ResumeOnce.Proofs.Network.Mapping
import ResumeOnce.Proofs.Network.Plan
import ResumeOnce.Proofs.Network.Pushing
import ResumeOnce.Proofs.Network.Reciting
import ResumeOnce.Proofs.Network.Remembering
import ResumeOnce.Proofs.Network.Resolving
import ResumeOnce.Proofs.Network.Sourcing
import ResumeOnce.Proofs.Network.Staging
import ResumeOnce.Proofs.Network.Supplying
import ResumeOnce.Proofs.Network.System
import ResumeOnce.Proofs.Network.Tracing
import ResumeOnce.Proofs.Network.Triples
import ResumeOnce.Proofs.Network.Uttering
import ResumeOnce.Proofs.Network.Voicing
import ResumeOnce.Proofs.Network.Zipping
import ResumeOnce.Proofs.Queue.Linked
import ResumeOnce.Proofs.Queue.Persistent
import ResumeOnce.Proofs.Queue.Versions
import ResumeOnce.Proofs.Reactor.Bursting
import ResumeOnce.Proofs.Reactor.Combining
import ResumeOnce.Proofs.Reactor.Demise
import ResumeOnce.Proofs.Reactor.Disowning
import ResumeOnce.Proofs.Reactor.Folding
import ResumeOnce.Proofs.Reactor.Guise
import ResumeOnce.Proofs.Reactor.Holding
import ResumeOnce.Proofs.Reactor.LettingGo
import ResumeOnce.Proofs.Reactor.Publishing
import ResumeOnce.Proofs.Reactor.Quiet
import ResumeOnce.Proofs.Reactor.Revoking
import ResumeOnce.Proofs.Reactor.Suspension
import ResumeOnce.Proofs.Reactor.Waking
import ResumeOnce.Proofs.Run
import ResumeOnce.Proofs.Scheduler.Floor
import ResumeOnce.Proofs.Scheduler.Pool
import ResumeOnce.Proofs.Scheduler.Stealing
import ResumeOnce.Proofs.Slot
import ResumeOnce.Proofs.Slot.Audience
import ResumeOnce.Proofs.Slot.Served
import ResumeOnce.Proofs.Streams.Answering
import ResumeOnce.Proofs.Streams.Bounds
import ResumeOnce.Proofs.Streams.Ceasing
import ResumeOnce.Proofs.Streams.Combination
import ResumeOnce.Proofs.Streams.Combiner
import ResumeOnce.Proofs.Streams.Custody
import ResumeOnce.Proofs.Streams.Faithful
import ResumeOnce.Proofs.Streams.Finalizing
import ResumeOnce.Proofs.Streams.Merging
import ResumeOnce.Proofs.Streams.Overflow
import ResumeOnce.Proofs.Streams.Pairing
import ResumeOnce.Proofs.Streams.Rights
import ResumeOnce.Proofs.Streams.Script
import ResumeOnce.Proofs.Text.Numeral
import ResumeOnce.Queue.Linked
import ResumeOnce.Queue.Persistent
import ResumeOnce.Reactor.Acting
import ResumeOnce.Reactor.Answering
import ResumeOnce.Reactor.ChannelSession
import ResumeOnce.Reactor.Frames
import ResumeOnce.Reactor.GateSession
import ResumeOnce.Reactor.Naming
import ResumeOnce.Reactor.Owning
import ResumeOnce.Reactor.Passing
import ResumeOnce.Reactor.Performing
import ResumeOnce.Reactor.Polling
import ResumeOnce.Reactor.Session
import ResumeOnce.Reactor.Spawning
import ResumeOnce.Reactor.Stepping
import ResumeOnce.Reactor.World
import ResumeOnce.Resumption
import ResumeOnce.Scheduler.Board
import ResumeOnce.Scheduler.Pool
import ResumeOnce.Scheduler.Steal
import ResumeOnce.Script.Command
import ResumeOnce.Script.Entry
import ResumeOnce.Session.Drains
import ResumeOnce.Session.Jobs
import ResumeOnce.Session.Parallel
import ResumeOnce.Session.Updates
import ResumeOnce.Session.Versions
import ResumeOnce.Slot
import ResumeOnce.Streams.Drive
import ResumeOnce.Streams.Event
import ResumeOnce.Streams.Machine
import ResumeOnce.Streams.Merge
import ResumeOnce.Streams.Source
import ResumeOnce.Streams.Zip
import ResumeOnce.Text.Blank
import ResumeOnce.Text.Described
import ResumeOnce.Text.Elapsed
import ResumeOnce.Text.JsonString
import ResumeOnce.Text.Numeral
import ResumeOnce.Text.Printable
import ResumeOnce.Text.Quoted
import ResumeOnce.Toml.Document
import ResumeOnce.Toml.Quotation
import ResumeOnce.Toml.Table
import ResumeOnce.Toml.Value
import ResumeOnce.Toml.Word
