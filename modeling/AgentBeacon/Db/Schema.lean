import AgentBeacon.Json
import AgentBeacon.Lib.Table

/-!
# `Db.Schema` — rows and tables of the scheduler's database

The tables the execution core reads and writes: `executions`, `sessions`, `task_queue`, `events`,
and of `agents` and `execution_agents` what dispatching looks up. Enumerated text columns are
inductive types; timestamps are seconds since the epoch.
-/

namespace AgentBeacon
open Relational

abbrev ExecutionId := String
abbrev SessionId := String
abbrev AgentId := String
abbrev WorkerId := String
abbrev Timestamp := Nat

/-! ## Enumerated columns -/

/-- `sessions.desired`. -/
inductive Desired where
  | run | stop | terminate
  deriving DecidableEq, Repr

/-- `Desired::as_str`. -/
def Desired.asStr : Desired → String
  | .run => "run"
  | .stop => "stop"
  | .terminate => "terminate"

/-- `executions.desired`; an execution is never stopped. -/
inductive ExecutionDesired where
  | run | terminate
  deriving DecidableEq, Repr

/-- `sessions.executor_state`. -/
inductive ExState where
  | unassigned | running | idle | crashed
  deriving DecidableEq, Repr

/-- `ExState::as_str`. -/
def ExState.asStr : ExState → String
  | .unassigned => "unassigned"
  | .running => "running"
  | .idle => "idle"
  | .crashed => "crashed"

/-- `outcome` of a session or an execution. -/
inductive Outcome where
  | completed | canceled | failed
  deriving DecidableEq, Repr

def Outcome.asStr : Outcome → String
  | .completed => "completed"
  | .canceled => "canceled"
  | .failed => "failed"

/-- `sessions.command_type`. -/
inductive CommandType where
  | assign | feedTurn | stopTurn | cancel
  deriving DecidableEq, Repr

/-- `events.event_type`. -/
inductive EventType where
  | message | stateChange | platform
  deriving DecidableEq, Repr

/-- `sessions.desired_by`: the texts the scheduler writes. -/
inductive DesiredBy where
  | user
  | userSendMessage
  | agentRelease
  | systemCascade
  | systemRestart
  | systemRepair
  | systemAgentDeleted
  | systemCrashUnrecoverable
  | systemChildActionNotify
  | systemChildCrashNotify
  | systemTurnCompleteNotify
  | systemContinueFromNotify
  deriving DecidableEq, Repr

namespace DesiredBy

def asStr : DesiredBy → String
  | .user => "user"
  | .userSendMessage => "user:send_message"
  | .agentRelease => "agent:release"
  | .systemCascade => "system:cascade"
  | .systemRestart => "system:restart"
  | .systemRepair => "system:repair"
  | .systemAgentDeleted => "system:agent_deleted"
  | .systemCrashUnrecoverable => "system:crash_unrecoverable"
  | .systemChildActionNotify => "system:child_action_notify"
  | .systemChildCrashNotify => "system:child_crash_notify"
  | .systemTurnCompleteNotify => "system:turn_complete_notify"
  | .systemContinueFromNotify => "system:continue_from_notify"

/-- `desired_by.starts_with("system:crash")`. -/
def isCrash : DesiredBy → Bool
  | .systemCrashUnrecoverable => true
  | _ => false

end DesiredBy

/-! ## Rows -/

/-- A row of `executions`. -/
structure Execution where
  id : ExecutionId
  projectId : Option String
  title : Option String
  desired : ExecutionDesired
  outcome : Option Outcome
  maxDepth : Int
  maxWidth : Int
  sandboxPolicy : String
  createdAt : Timestamp
  lastActivityAt : Timestamp
  deriving DecidableEq, Repr

/-- A row of `sessions`. -/
structure Session where
  id : SessionId
  executionId : ExecutionId
  parentSessionId : Option SessionId
  agentId : AgentId
  agentSessionId : Option String
  cwd : Option String
  worktreePath : Option String
  baseCommitSha : Option String
  slug : String
  recoveryAttempts : Int
  desired : Desired
  executorState : ExState
  outcome : Option Outcome
  desiredBy : Option DesiredBy
  commandToken : Option String
  commandType : Option CommandType
  commandAt : Option Timestamp
  commandHasPayload : Bool
  workerId : Option WorkerId
  parentNotified : Bool
  continuedFromSessionId : Option SessionId
  sandboxPolicy : String
  createdAt : Timestamp
  deriving DecidableEq, Repr

/-- `task_queue.source`. -/
inductive TaskSource where
  | user
  | childResult (child : SessionId)
  deriving DecidableEq, Repr

/-- A row of `task_queue`. -/
structure TaskRow where
  id : Nat
  executionId : ExecutionId
  sessionId : SessionId
  taskPayload : Json
  queuedAt : Timestamp
  source : Option TaskSource

/-- A row of `events`. -/
structure EventRow where
  id : Nat
  executionId : ExecutionId
  sessionId : Option SessionId
  eventType : EventType
  payload : Json
  msgSeq : Option Int
  createdAt : Timestamp

/-- `agents.agent_type`. -/
inductive AgentType where
  | claudeSdk | copilotSdk | codexSdk
  | other (name : String)
  deriving DecidableEq, Repr

/-- A row of `agents`; `deleted` is `deleted_at IS NOT NULL`. -/
structure Agent where
  id : AgentId
  name : String
  agentType : AgentType
  enabled : Bool
  deleted : Bool
  deriving DecidableEq, Repr

/-! ## Tables -/

abbrev Executions := Table ExecutionId Execution Execution.id
abbrev Sessions := Table SessionId Session Session.id
abbrev Agents := Table AgentId Agent Agent.id
abbrev TaskQueue := AutoTable TaskRow TaskRow.id
abbrev Events := AutoTable EventRow EventRow.id

/-- The database. `executionAgents` holds the `(execution_id, agent_id)` pairs. -/
structure Db where
  executions : Executions
  sessions : Sessions
  taskQueue : TaskQueue
  events : Events
  agents : Agents
  executionAgents : List (ExecutionId × AgentId)

/-- The database after the migrations ran. -/
def Db.empty : Db where
  executions := .empty
  sessions := .empty
  taskQueue := .empty
  events := .empty
  agents := .empty
  executionAgents := []

end AgentBeacon
