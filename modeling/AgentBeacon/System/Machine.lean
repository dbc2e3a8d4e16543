import AgentBeacon.Api.Sessions
import AgentBeacon.Api.WorkerSync
import AgentBeacon.Lib.Interleave
import AgentBeacon.Services.Execution

/-!
# `System.Machine` — the scheduler as a machine of atomic operations

The store is the database, the worker heartbeats held in memory, and the identifiers drawn so far.
An operation reads the store, or runs one database transaction. Every transaction of the scheduler
writes under the lock of one execution (or is a single statement), so each is one step.
-/

namespace AgentBeacon
open Transaction Transition Interleave

/-! ## Transactions -/

/-- A transaction: what it replies, what it replies when the database fails it, its body. -/
structure DbTransaction where
  Reply : Type
  failed : Fault → Reply
  body : Env → DbTx Reply Reply

/-- A transaction of `services/transition.rs`. -/
def DbTransaction.rejecting {α : Type}
    (body : Env → DbTx (Except Rejected α) (Except Rejected α)) : DbTransaction where
  Reply := Except Rejected α
  failed fault := .error (.invalidTransition fault.message)
  body := body

/-- Any other transaction. -/
def DbTransaction.scheduling {α : Type}
    (body : Env → DbTx (Except SchedulerError α) (Except SchedulerError α)) : DbTransaction where
  Reply := Except SchedulerError α
  failed fault := .error (.database fault.message fault.retryable)
  body := body

/-- The transactions of the scheduler with their arguments. A `detectCrash` also carries what it
was decided on: the snapshot its caller held, and whether the caller's loss notice was written. -/
inductive Write where
  | createExecution (new : Creation.NewExecution)
  | createSession (executionId : ExecutionId) (agentId : AgentId)
      (cwd worktreePath baseCommitSha : Option String) (sandboxPolicy : String)
  | insertLocked (executionId : ExecutionId) (sessionId : Option SessionId)
      (eventType : EventType) (payload : Json)
  | insertExecutionAgents (executionId : ExecutionId) (agentIds : List AgentId)
  | pushTask (executionId : ExecutionId) (sessionId : SessionId) (payload : Json)
  | createWithWidthGuard (executionId : ExecutionId) (agentId : AgentId) (parentId : SessionId)
      (cwd : Option String) (active : Nat) (maxWidth : Int) (sandboxPolicy : String)
  | delegate (executionId : ExecutionId) (parentId childId : SessionId)
      (agentName parentName prompt : String) (taskPayload : Json)
  | deleteSession (id : SessionId)
  | setDesiredTerminate (session : Session) (desiredBy : DesiredBy)
      (parentForNotify : Option SessionId)
  | setDesiredStop (session : Session) (desiredBy : DesiredBy)
      (parentForNotify : Option SessionId)
  | setDesiredRun (session : Session) (desiredBy : DesiredBy)
  | sendMessage (session : Session) (args : SendMessageArgs)
  | setExecutorState (session : Session) (state : ExState) (workerId : WorkerId)
      (crashMeta : Option CrashMeta)
  | terminateFailed (session : Session) (desiredBy : DesiredBy) (requireCrashed : Bool)
  | detectCrash (session decidedOn : Session) (noticed : Bool)
  | retryRecovery (session : Session)
  | repairRootOutcome (session : Session) (executionOpen : Bool)
  | repairChildOutcome (session : Session)
  | repairDesired (session : Session)
  | repairExecution (session : Session)
  | repairCommand (session : Session)
  | repairExecutionForTerminalRoot (rootSessionId : SessionId) (executionId : ExecutionId)
  | issueAssign (session : Session) (resume : Bool) (workerId : Option WorkerId)
  | issueFeedTurn (session : Session)
  | issueStopTurn (session : Session)
  | issueCancel (session : Session)
  | finalize (session : Session)
  | continueFrom (old : Session) (parentId : SessionId) (resumable : Bool) (parts : List Json)
  | recover (session : Session) (clearAgentSessionId : Bool) (message : Option String)
  | clearWorktreePath (id : SessionId)
  | escalate (executionId : ExecutionId) (sessionId : SessionId) (importance : String)
      (questions : List Json)
  | dismiss (escalation : Resolution.Escalation)
  | resultTx (executionId : ExecutionId) (request : WorkerSync.SyncRequest)
      (held : Option Session) (shouldNotify : Bool) (notifyParent : Option SessionId)
  | updateAgentSessionId (id : SessionId) (agentSessionId : String) (workerId : WorkerId)
  | workerEvent (executionId : ExecutionId) (sessionId : SessionId) (workerId : WorkerId)
      (msgSeq : Int) (payload : Json)
  | putAgent (agent : Agent)

/-- The administration of agents: the row under the agent's id becomes `agent`. -/
def putAgent (agent : Agent) : DbTx (Except SchedulerError Unit) (Except SchedulerError Unit) := do
  let db ← Tx.read
  let agents ← Tx.ofOption ((db.agents.deleteWhere fun a => a.id = agent.id).insert? agent)
    (.error (dbError "write agent failed"))
  Tx.write fun db => { db with agents }
  pure (.ok ())

namespace Write
open DbTransaction Creation Reconciler SessionsApi WorkerSync

/-- The transaction behind an operation. -/
def transaction : Write → DbTransaction
  | createExecution new => scheduling fun env => Creation.createExecution env new
  | createSession executionId agentId cwd worktreePath baseCommitSha sandboxPolicy =>
      scheduling fun env => Creation.createSession env executionId agentId cwd worktreePath
        baseCommitSha sandboxPolicy
  | insertLocked executionId sessionId eventType payload =>
      scheduling fun env => Creation.insertLocked env executionId sessionId eventType payload
  | insertExecutionAgents executionId agentIds =>
      scheduling fun _ => Creation.insertExecutionAgents executionId agentIds
  | pushTask executionId sessionId payload =>
      scheduling fun env => Creation.pushTask env executionId sessionId payload
  | createWithWidthGuard executionId agentId parentId cwd active maxWidth sandboxPolicy =>
      scheduling fun env => Creation.createWithWidthGuard env executionId agentId parentId cwd
        active maxWidth sandboxPolicy
  | delegate executionId parentId childId agentName parentName prompt taskPayload =>
      scheduling fun env => Creation.delegate env executionId parentId childId agentName parentName
        prompt taskPayload
  | deleteSession id => scheduling fun _ => Creation.deleteSession id
  | setDesiredTerminate session desiredBy parentForNotify =>
      rejecting fun env => Transition.setDesiredTerminate env session desiredBy parentForNotify
  | setDesiredStop session desiredBy parentForNotify =>
      rejecting fun env => Transition.setDesiredStop env session desiredBy parentForNotify
  | setDesiredRun session desiredBy =>
      rejecting fun _ => Transition.setDesiredRun session desiredBy
  | sendMessage session args => rejecting fun env => Transition.sendMessage env session args
  | setExecutorState session state workerId crashMeta =>
      rejecting fun env => Transition.setExecutorState env session state workerId crashMeta
  | terminateFailed session desiredBy requireCrashed =>
      rejecting fun env => Transition.terminateFailed env session desiredBy requireCrashed
  | detectCrash session _ _ => rejecting fun env => Transition.detectCrash env session
  | retryRecovery session => rejecting fun env => Transition.retryRecovery env session
  | repairRootOutcome session executionOpen =>
      scheduling fun env => Reconciler.repairRootOutcome env session executionOpen
  | repairChildOutcome session => scheduling fun _ => Reconciler.repairChildOutcome session
  | repairDesired session => scheduling fun env => Reconciler.repairDesired env session
  | repairExecution session => scheduling fun env => Reconciler.repairExecution env session
  | repairCommand session => scheduling fun _ => Reconciler.repairCommand session
  | repairExecutionForTerminalRoot rootSessionId executionId =>
      scheduling fun env =>
        Reconciler.repairExecutionForTerminalRoot env rootSessionId executionId
  | issueAssign session resume workerId =>
      scheduling fun env => Reconciler.issueAssign env session resume workerId
  | issueFeedTurn session => scheduling fun env => Reconciler.issueFeedTurn env session
  | issueStopTurn session => scheduling fun env => Reconciler.issueStopTurn env session
  | issueCancel session => scheduling fun env => Reconciler.issueCancel env session
  | finalize session => scheduling fun env => Reconciler.finalize env session
  | continueFrom old parentId resumable parts =>
      scheduling fun env => SessionsApi.continueFrom env old parentId resumable parts
  | recover session clearAgentSessionId message =>
      scheduling fun env => SessionsApi.recover env session clearAgentSessionId message
  | clearWorktreePath id => scheduling fun _ => SessionsApi.clearWorktreePath id
  | escalate executionId sessionId importance questions =>
      scheduling fun env => SessionsApi.escalate env executionId sessionId importance questions
  | dismiss escalation => scheduling fun env => SessionsApi.dismiss env escalation
  | resultTx executionId request held shouldNotify notifyParent =>
      scheduling fun env => WorkerSync.resultTx env executionId request held shouldNotify
        notifyParent
  | updateAgentSessionId id agentSessionId workerId =>
      scheduling fun _ => WorkerSync.updateAgentSessionId id agentSessionId workerId
  | workerEvent executionId sessionId workerId msgSeq payload =>
      scheduling fun env => WorkerSync.workerEvent env executionId sessionId workerId msgSeq payload
  | putAgent agent => scheduling fun _ => AgentBeacon.putAgent agent

/-- Run a transaction: its reply and the database afterwards. -/
def run (w : Write) (env : Env) (db : Db) : w.transaction.Reply × Db :=
  match env.fault with
  | some fault => (w.transaction.failed fault, db)
  | none => Tx.commit (w.transaction.body env) db

end Write

/-! ## The machine -/

/-- The database, the heartbeats of workers, when the process started, and the identifiers
generated so far. -/
structure Store where
  db : Db
  heartbeats : List (WorkerId × Timestamp)
  startedAt : Timestamp
  drawn : List String

/-- Heartbeats are kept in memory: `HashMap::insert`. -/
def Store.beat (store : Store) (worker : WorkerId) (now : Timestamp) : Store :=
  { store with heartbeats := (worker, now) :: store.heartbeats.filter fun h => h.1 ≠ worker }

/-- The atomic operations. `read` goes to the database and may fail, `inspect` looks at memory or
the clock. `stall` is a recursion that has run out of fuel: it is never executed. -/
inductive Op : Type 1 where
  | read {α : Type} (query : Env → Store → α)
  | inspect {α : Type} (look : Env → Store → α)
  | write (w : Write)
  | heartbeat (worker : WorkerId)
  | startUp
  | stall

namespace Op

def Reply : Op → Type
  | @read α _ => Except SchedulerError α
  | @inspect α _ => α
  | write w => w.transaction.Reply
  | heartbeat _ => Unit
  | startUp => Unit
  | stall => Unit

/-- Identifiers are never generated twice. -/
def admits : Op → Env → Store → Bool
  | write _, env, store => env.uuid ∉ store.drawn
  | stall, _, _ => false
  | _, _, _ => true

def exec : (op : Op) → Env → Store → Reply op × Store
  | read query, env, store =>
      (match env.fault with
        | some fault => .error (.database fault.message fault.retryable)
        | none => .ok (query env store), store)
  | inspect look, env, store => (look env store, store)
  | write w, env, store =>
      ((w.run env store.db).1,
        { store with db := (w.run env store.db).2, drawn := env.uuid :: store.drawn })
  | heartbeat worker, env, store => ((), store.beat worker env.now)
  | startUp, env, store => ((), { store with heartbeats := [], startedAt := env.now })
  | stall, _, store => ((), store)

end Op

/-- The scheduler. It starts on an empty database. -/
def scheduler : Machine.{1} where
  Op := Op
  Reply := Op.Reply
  Input := Env
  State := Store
  init := { db := .empty, heartbeats := [], startedAt := 0, drawn := [] }
  admits := Op.admits
  exec := Op.exec

/-- A request of the scheduler. -/
abbrev Request (α : Type) := Prog scheduler α

/-- What has been called so far. -/
abbrev History := List (Event scheduler)

end AgentBeacon
