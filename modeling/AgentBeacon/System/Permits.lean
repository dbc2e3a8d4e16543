import AgentBeacon.Db.Steps
import AgentBeacon.System.Machine

/-!
# `System.Permits` — what each transaction may do

Said once for every transaction: which statements it may issue, under which condition on the row a
statement meets. `Write.steps` is that no transaction does more. The invariants of the scheduler are
derived from this alone; only the properties that tie several statements of one transaction together
look into a body again.
-/

namespace AgentBeacon
open Relational Transaction Transition Interleave

/-- A platform payload that no reader takes for a resolution marker. -/
def NoMarker (payload : Json) : Prop :=
  ∀ parts n, Resolution.parseParts payload = some parts → Resolution.resolutionCandidates parts n = []

/-- A platform payload that no reader takes for an escalation or a resolution marker. -/
def Inert (payload : Json) : Prop := Resolution.escalationData payload = none ∧ NoMarker payload

namespace Write

/-- Which transaction issues an `UPDATE sessions`, on which row. -/
def updates (w : Write) (env : Env) (s : Session) : SessionUpdate → Prop
  | .terminate _ desiredBy => ∃ session parent,
      w = .setDesiredTerminate session desiredBy parent ∧ s.id = session.id
  | .stop desiredBy => ∃ session parent,
      w = .setDesiredStop session desiredBy parent ∧ s.id = session.id
  | .run desiredBy => ∃ session, w = .setDesiredRun session desiredBy ∧ s.id = session.id
  | .resume _ => True
  | .terminateFailed desiredBy requireCrashed => ∃ session,
      w = .terminateFailed session desiredBy requireCrashed ∧ s.id = session.id
  | .reportCrashed worker => ∃ session crashMeta,
      w = .setExecutorState session .crashed worker crashMeta ∧ s.id = session.id
  | .reportIdle worker _ => ∃ session crashMeta,
      w = .setExecutorState session .idle worker crashMeta ∧ s.id = session.id
  | .reportState worker state => ∃ session crashMeta,
      w = .setExecutorState session state worker crashMeta ∧ s.id = session.id ∧ state ≠ .crashed
  | .detectCrash => ∃ session decidedOn noticed,
      w = .detectCrash session decidedOn noticed ∧ s.id = session.id
  | .retryRecovery => ∃ session, w = .retryRecovery session ∧ s.id = session.id
  | .repairRootOutcome _ => ∃ session executionOpen,
      w = .repairRootOutcome session executionOpen ∧ s.id = session.id ∧ s.desired = .terminate
  | .repairChildOutcome _ _ => ∃ session, w = .repairChildOutcome session ∧ s.id = session.id
  | .repairDesired => ∃ session, w = .repairDesired session ∧ s.id = session.id
  | .clearCrashedCommand => ∃ session, w = .repairCommand session ∧ s.id = session.id
  | .assign token _ _ worker => ∃ session resume,
      w = .issueAssign session resume worker ∧ s.id = session.id ∧ token = env.uuid
  | .feedTurn token _ worker => ∃ session,
      w = .issueFeedTurn session ∧ s.id = session.id ∧ token = env.uuid ∧ worker = session.workerId
  | .stopTurn token _ worker => ∃ session,
      w = .issueStopTurn session ∧ s.id = session.id ∧ token = env.uuid ∧ worker = session.workerId
  | .cancel token _ worker => ∃ session,
      w = .issueCancel session ∧ s.id = session.id ∧ token = env.uuid ∧ worker = session.workerId
  | .releaseWorker => ∃ session,
      w = .finalize session ∧ s.id = session.id ∧ s.desired = .terminate
  | .markParentNotified _ => ∃ session, w = .finalize session ∧ s.id = session.id
  | .ack token => ∃ executionId request held notify parent,
      w = .resultTx executionId request held notify parent ∧ request.commandAck = some token ∧
        s.workerId = some request.workerId
  | .ackTerminalCancel token => ∃ executionId request held notify parent,
      w = .resultTx executionId request held notify parent ∧ request.commandAck = some token ∧
        s.workerId = some request.workerId ∧ s.outcome.isSome
  | .recover clearAgentSessionId => ∃ session message,
      w = .recover session clearAgentSessionId message ∧ s.id = session.id
  | .takeAgentSession _ | .dropAgentSession _ => ∃ old parentId resumable parts,
      w = .continueFrom old parentId resumable parts
  | .setAgentSessionId agentSessionId worker => w = .updateAgentSessionId s.id agentSessionId worker
  | .handOverWorktree | .clearWorktreePath => True

/-- The transactions that may end an execution, with the session they judge it by. -/
def ends (w : Write) (executionId : ExecutionId) : Prop :=
  (∃ session desiredBy parent, w = .setDesiredTerminate session desiredBy parent ∧
    session.executionId = executionId ∧ session.parentSessionId = none) ∨
  (∃ session desiredBy requireCrashed, w = .terminateFailed session desiredBy requireCrashed ∧
    session.executionId = executionId ∧ session.parentSessionId = none) ∨
  (∃ session executionOpen, w = .repairRootOutcome session executionOpen ∧
    session.executionId = executionId) ∨
  (∃ session, w = .repairDesired session ∧ session.executionId = executionId) ∨
  (∃ session, w = .repairExecution session ∧ session.executionId = executionId) ∨
  ∃ root, w = .repairExecutionForTerminalRoot root executionId

/-- Which transaction issues an `UPDATE executions`. -/
def updatesExecution (w : Write) (executionId : ExecutionId) : ExecutionUpdate → Prop
  | .terminal _ _ => w.ends executionId
  | .touchLastActivity _ => True
  | .recover => ∃ session clearAgentSessionId message,
      w = .recover session clearAgentSessionId message ∧ session.executionId = executionId ∧
        session.parentSessionId = none

/-- Which transaction inserts a session, and which row. -/
def inserts (w : Write) (env : Env) (row : Session) : Prop :=
  ∃ executionId agentId parent cwd worktreePath baseCommitSha continued sandboxPolicy,
    row = newSession env.uuid executionId agentId parent cwd worktreePath baseCommitSha env.slug
      continued sandboxPolicy env.now ∧
    ((w = .createSession executionId agentId cwd worktreePath baseCommitSha sandboxPolicy ∧
        parent = none) ∨
      (∃ parentId active maxWidth, w = .createWithWidthGuard executionId agentId parentId cwd active
        maxWidth sandboxPolicy ∧ parent = some parentId ∧ worktreePath = none) ∨
      ∃ old parentId resumable parts, w = .continueFrom old parentId resumable parts ∧
        executionId = old.executionId ∧ parent = some parentId ∧ worktreePath = old.worktreePath)

/-- Which transaction enqueues for a session that it has not seen running. -/
def enqueuesUnchecked (w : Write) (env : Env) (recipient : SessionId) : Prop :=
  (∃ executionId payload, w = .pushTask executionId recipient payload) ∨
  (∃ executionId parent agentName parentName prompt payload,
    w = .delegate executionId parent recipient agentName parentName prompt payload) ∨
  ∃ old resumable parts, w = .continueFrom old recipient resumable parts ∧ env.swallow = true

/-- Whether a platform event is a resolution marker, and whose. -/
def marks (w : Write) (row : EventRow) : Prop :=
  (∃ session args marker messageId resolvedAt, w = .sendMessage session args ∧
    args.resolution = some marker ∧ row.executionId = session.executionId ∧
    row.sessionId = some marker.escalation.sessionId ∧
    row.payload = Resolution.markerPayload marker.escalation.data.batchId
      (some (marker.escalation.id : Int)) messageId resolvedAt marker.answerText false) ∨
  ∃ escalation, w = .dismiss escalation ∧ row.executionId = escalation.executionId ∧
    row.sessionId = some escalation.sessionId ∧
    row.payload = Resolution.dismissPayload escalation.data.batchId escalation.id

/-- Whether a platform event is an escalation, and whose. -/
def escalates (w : Write) (env : Env) (row : EventRow) : Prop :=
  ∃ sessionId importance questions, w = .escalate row.executionId sessionId importance questions ∧
    row.sessionId = some sessionId ∧
    row.payload = SessionsApi.escalateEvent env.uuid importance questions

/-- The transactions that log numbered messages. -/
def numbers (w : Write) : Prop :=
  (∃ executionId sessionId worker msgSeq payload,
    w = .workerEvent executionId sessionId worker msgSeq payload) ∨
  ∃ executionId request held notify parent, w = .resultTx executionId request held notify parent

/-- What a transaction may do. -/
def permit (w : Write) (env : Env) : Permit where
  update := w.updates env
  updateExecution := w.updatesExecution
  insert := w.inserts env
  insertExecution row := ∃ new, w = .createExecution new ∧ row.id = env.uuid ∧ row.desired = .run ∧
    row.outcome = none ∧ row.maxWidth = new.maxWidth
  delete db ids := ∃ id, w = .deleteSession id ∧ ids = db.subtree db.sessions.rows.length [id]
  enqueue s row := row.queuedAt = env.now ∧ (s.desired ≠ .stop ∨ w.enqueuesUnchecked env s.id)
  dequeue row := (∃ session resume worker, w = .issueAssign session resume worker ∧
      row.sessionId = session.id) ∨ ∃ session, w = .issueFeedTurn session ∧ row.sessionId = session.id
  drain s := ∃ session, w = .finalize session ∧ s.id = session.id ∧ s.desired = .terminate
  log row := (row.msgSeq ≠ none → w.numbers) ∧
    (row.eventType = .platform → Inert row.payload ∨ w.marks row ∨ w.escalates env row ∨
      ∃ executionId sessionId, w = .insertLocked executionId sessionId .platform row.payload)

end Write

end AgentBeacon
