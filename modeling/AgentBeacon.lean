import AgentBeacon.Api.Sessions
import AgentBeacon.Api.WorkerSync
import AgentBeacon.Db.Frames
import AgentBeacon.Db.Queries
import AgentBeacon.Db.Schema
import AgentBeacon.Db.Statements
import AgentBeacon.Db.Steps
import AgentBeacon.Error
import AgentBeacon.Json
import AgentBeacon.Lib.Interleave
import AgentBeacon.Lib.Table
import AgentBeacon.Lib.Tx
import AgentBeacon.Resolution
import AgentBeacon.Services.Execution
import AgentBeacon.Services.Reconciler
import AgentBeacon.Services.Transition
import AgentBeacon.System.Machine
import AgentBeacon.System.Reconcile
import AgentBeacon.System.Routes
import AgentBeacon.System.Permits
import AgentBeacon.Db.Within
import AgentBeacon.System.Effects
import AgentBeacon.System.History
import AgentBeacon.Correctness.Outcome
import AgentBeacon.System.Discipline
import AgentBeacon.System.Requests
import AgentBeacon.System.Serving
import AgentBeacon.System.Commands
import AgentBeacon.Correctness.Assignment
import AgentBeacon.Correctness.Stranded
import AgentBeacon.Lib.Lineage
import AgentBeacon.System.Tree
import AgentBeacon.Correctness.Agreement
import AgentBeacon.System.Log
import AgentBeacon.Events.Log
import AgentBeacon.Events.Paging
import AgentBeacon.Correctness.Paging
import AgentBeacon.Events.Stream
import AgentBeacon.Correctness.Stream
import AgentBeacon.Lib.Sharing
import AgentBeacon.Wiki.Schema
import AgentBeacon.Correctness.Visibility
import AgentBeacon.Wiki.Pages
import AgentBeacon.Wiki.Members
import AgentBeacon.Wiki.Machine
import AgentBeacon.Wiki.Effects
import AgentBeacon.Wiki.Locks
import AgentBeacon.Correctness.Consent
import AgentBeacon.Lib.Versions
import AgentBeacon.Wiki.Revisions
import AgentBeacon.Correctness.Revisions
import AgentBeacon.Correctness.Reports
import AgentBeacon.Lib.FirstWins
import AgentBeacon.System.Numbers
import AgentBeacon.Correctness.Numbering
import AgentBeacon.System.Additions
import AgentBeacon.Correctness.Retransmission
import AgentBeacon.Api.Decisions
import AgentBeacon.System.Decisions
import AgentBeacon.Correctness.Decisions
import AgentBeacon.Correctness.Columns
import AgentBeacon.Api.Executions
import AgentBeacon.Correctness.Eligibility
import AgentBeacon.Correctness.Width
import AgentBeacon.System.Continuation
import AgentBeacon.Correctness.Worktrees
import AgentBeacon.Api.ResolvedDecisions
import AgentBeacon.Correctness.ResolvedDecisions
import AgentBeacon.Api.PendingValidator
import AgentBeacon.Correctness.Validator
import AgentBeacon.Lib.Replica
import AgentBeacon.Lib.Separated
import AgentBeacon.Wiki.Search
import AgentBeacon.Wiki.Documents
import AgentBeacon.Correctness.Search
import AgentBeacon.Correctness.Conversations
import AgentBeacon.Correctness.CrashDetection
import AgentBeacon.Correctness.Commands
import AgentBeacon.Correctness.Readers
import AgentBeacon.Correctness.Delivery
import AgentBeacon.Correctness.MarkerSize
import AgentBeacon.Correctness.FittedAnswer
import AgentBeacon.Api.Leaves
import AgentBeacon.Correctness.Truncation
import AgentBeacon.Correctness.SharedCeiling
import AgentBeacon.Correctness.Recovery
import AgentBeacon.Correctness.Depth
import AgentBeacon.Correctness.Leftovers
import AgentBeacon.Correctness.Delegation
import AgentBeacon.Correctness.CrashNotices
import AgentBeacon.Correctness.Termination
import AgentBeacon.Lib.Matching
import AgentBeacon.Wiki.Edits
import AgentBeacon.Correctness.Edits
import AgentBeacon.Correctness.MarkerCodec
import AgentBeacon.Correctness.Prefilter
import AgentBeacon.Correctness.EntryCodec
import AgentBeacon.Correctness.CeilingCodec
import AgentBeacon.Correctness.Migrations
import AgentBeacon.Correctness.Projects
import AgentBeacon.Correctness.Ceilings
import AgentBeacon.Correctness.CeilingTables
import AgentBeacon.Correctness.Resolutions
import AgentBeacon.Correctness.Messages
import AgentBeacon.Correctness.Naming
import AgentBeacon.Correctness.CodexFiles
import AgentBeacon.Correctness.IdleStop
import AgentBeacon.Correctness.Filing
import AgentBeacon.Correctness.Backfill
import AgentBeacon.Correctness.FeedAcks
import AgentBeacon.Correctness.History
import AgentBeacon.Correctness.FreshSlugs
import AgentBeacon.System.Onward
import AgentBeacon.Correctness.Milestones
import AgentBeacon.Correctness.Cascade
import AgentBeacon.Web.Live
import AgentBeacon.Correctness.Batcher
import AgentBeacon.Correctness.LiveLane
import AgentBeacon.Correctness.LiveWindow
import AgentBeacon.System.Supervisor
import AgentBeacon.Correctness.Supervisor
import AgentBeacon.Web.Sse
import AgentBeacon.Correctness.Sse
import AgentBeacon.Web.Decisions
import AgentBeacon.Correctness.PendingList
import AgentBeacon.Correctness.PastDecisions
import AgentBeacon.Worker.SdkTask
import AgentBeacon.Correctness.SdkTask
import AgentBeacon.Worker.ClaudeStream
import AgentBeacon.Correctness.ClaudeStream
import AgentBeacon.Worker.CopilotTurns
import AgentBeacon.Correctness.CopilotTurns
import AgentBeacon.Wiki.Collections
import AgentBeacon.Correctness.Collections
