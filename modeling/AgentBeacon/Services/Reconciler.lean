import AgentBeacon.Services.Transition

/-!
# `Services.Reconciler` — the transactions of the reconciler

The transactions of `services/reconciler.rs`: its repairs, the four commands it issues, and
`finalize`. The decisions between them, which read outside of any transaction, are `reconcile` in
`System.Requests`.
-/

namespace AgentBeacon
open Relational Transaction Transition

/-- Commands issued to workers, with the fields this model holds. -/
inductive CommandAction where
  | assign (sessionId : SessionId) (executionId : ExecutionId) (payload : Option Json)
      (resume : Bool) (cwd : Option String) (agentSessionId : Option String)
      (projectId : Option String) (nextMsgSeq : Int)
  | feedTurn (sessionId : SessionId) (payload : Json)
  | stopTurn (sessionId : SessionId)
  | cancel (sessionId : SessionId)

/-- Action produced for a session. -/
inductive ReconcilerAction where
  | noAction
  /-- A command is pending. -/
  | pendingCommand
  | sendCommand (token : String) (action : CommandAction)
  /-- Inconsistency corrected. -/
  | repaired
  /-- State was mutated. -/
  | mutated

namespace Reconciler

variable {ρ : Type}

/-- The reply of a reconciler transaction. -/
abbrev Reply := Except SchedulerError ReconcilerAction

def failed {α : Type} (message : String) : Except SchedulerError α := .error (dbError message)

/-- `tx_exec.desired == "terminate" || tx_exec.outcome.is_some()`. -/
def executionEnded (e : Execution) : Bool := e.desired = .terminate || e.outcome.isSome

/-! ## Repairs -/

/-- Terminated root without an outcome; `executionOpen` is the caller's snapshot. -/
def repairRootOutcome (env : Env) (session : Session) (executionOpen : Bool) :
    DbTx Reply Reply := do
  let _ ← DbTx.execution session.executionId (.error (.notFound "execution lock not found"))
  let txSession ← DbTx.session session.id (failed "repair re-read session")
  Tx.require (¬(txSession.desired ≠ .terminate ∨ txSession.outcome.isSome)) (.ok .noAction)
  let db ← Tx.read
  let outcome := sessionOutcome txSession (db.pendingTurns session.id)
  let execOutcome ← derivedIf executionOpen session.executionId (failed "read parent outcome")
  let _ ← DbTx.updateSession session.id (.repairRootOutcome outcome)
  Tx.forSome execOutcome fun outcome =>
    writeExecutionTerminal env session.executionId outcome (failed "insert event failed")
  pure (.ok .repaired)

/-- Terminated child without an outcome. -/
def repairChildOutcome (session : Session) : DbTx Reply Reply := do
  let _ ← DbTx.execution session.executionId (.error (.notFound "execution lock not found"))
  let current ← DbTx.session session.id (.error (.notFound "session not found"))
  Tx.when (¬(current.outcome.isSome ∨ current.desired ≠ .terminate)) do
    let db ← Tx.read
    let outcome := sessionOutcome current (db.pendingTurns current.id)
    let _ ← DbTx.updateSession current.id (.repairChildOutcome outcome current.executorState)
  pure (.ok .repaired)

/-- An outcome without `desired = 'terminate'`. -/
def repairDesired (env : Env) (session : Session) : DbTx Reply Reply := do
  let _ ← DbTx.execution session.executionId (.error (.notFound "execution lock not found"))
  let current ← DbTx.session session.id (.error (.notFound "session not found"))
  Tx.when (¬(current.outcome.isNone ∨ current.desired = .terminate)) do
    let repaired ← DbTx.updateSession session.id .repairDesired
    Tx.when repaired do
      let txExec ← DbTx.execution session.executionId (.error (.notFound "execution not found"))
      Tx.when (current.parentSessionId.isNone ∧ txExec.outcome.isNone) do
        let db ← Tx.read
        let derived ← Tx.ofOption (deriveExecutionOutcome db session.executionId)
          (failed "read parent outcome")
        writeExecutionTerminal env session.executionId derived (failed "insert event failed")
  pure (.ok .repaired)

/-- A terminal root under an execution that is still open. -/
def repairExecution (env : Env) (session : Session) : DbTx Reply Reply := do
  let _ ← DbTx.execution session.executionId (.error (.notFound "execution lock not found"))
  let txRoot ← DbTx.session session.id (failed "repair re-read root")
  Tx.require txRoot.outcome.isSome (.ok .noAction)
  let db ← Tx.read
  let execOutcome ← Tx.ofOption (deriveExecutionOutcome db session.executionId)
    (failed "read parent outcome")
  writeExecutionTerminal env session.executionId execOutcome (failed "insert event failed")
  pure (.ok .repaired)

/-- A command of a crashed session. -/
def repairCommand (session : Session) : DbTx Reply Reply := do
  let _ ← DbTx.execution session.executionId (failed "begin command repair tx")
  let affected ← DbTx.updateSession session.id .clearCrashedCommand
  Tx.require affected (.ok .noAction)
  pure (.ok .repaired)

/-- `repair_execution_for_terminal_root`; the execution is the one the root's snapshot names. -/
def repairExecutionForTerminalRoot (env : Env) (rootSessionId : SessionId)
    (executionId : ExecutionId) : DbTx (Except SchedulerError Unit) (Except SchedulerError Unit) := do
  let _ ← DbTx.execution executionId (.error (.notFound "execution lock not found"))
  let txRoot ← DbTx.session rootSessionId (.error (.notFound "session not found"))
  Tx.when (¬(txRoot.outcome.isNone ∨ txRoot.desired ≠ .terminate)) do
    let txExec ← DbTx.execution executionId (.error (.notFound "execution not found"))
    Tx.when txExec.outcome.isNone do
      let db ← Tx.read
      let derived ← Tx.ofOption (deriveExecutionOutcome db executionId)
        (failed "read parent outcome")
      writeExecutionTerminal env executionId derived (failed "insert event failed")
  pure (.ok ())

/-! ## Commands -/

/-- `SELECT … FROM task_queue WHERE session_id = ? ORDER BY queued_at ASC LIMIT 1`. -/
def nextTask (db : Db) (choice : Nat) (sessionId : SessionId) : Option TaskRow :=
  firstBy TaskRow.queuedAt choice (db.tasksOf sessionId)

/-- `SELECT COALESCE(MAX(msg_seq), -1) + 1 FROM events WHERE session_id = ?`. -/
def nextMsgSeq (db : Db) (sessionId : SessionId) : Int :=
  let seqs := db.events.rows.filterMap fun e =>
    if e.sessionId = some sessionId then e.msgSeq else none
  match seqs.max? with
  | some n => n + 1
  | none => 0

/-- `issue_assign`. Building the driver and agent configuration only reads, so that its errors are
faults of the transaction. -/
def issueAssign (env : Env) (session : Session) (resume : Bool) (workerId : Option WorkerId) :
    DbTx Reply Reply := do
  let _ ← DbTx.execution session.executionId (failed "begin transaction failed")
  let _ ← DbTx.agent session.agentId (.error (.notFound "agent not found"))
  let txExec ← DbTx.execution session.executionId (failed "execution recheck failed")
  Tx.require (¬executionEnded txExec) (.ok .noAction)
  let db ← Tx.read
  let task := nextTask db env.choice session.id
  Tx.forSome task fun row => Tx.write fun db => db.deleteTask row.id
  Tx.require (resume ∨ task.isSome) (.ok .noAction)
  let affected ← DbTx.updateSession session.id (.assign env.uuid env.now task.isSome workerId)
  Tx.require affected (.ok .noAction)
  Tx.when (task.isSome ∧ session.parentSessionId.isNone) do
    let _ ← DbTx.updateExecution session.executionId (.touchLastActivity env.now)
  let nextMsgSeq := if env.swallow then 0 else nextMsgSeq db session.id
  pure (.ok (.sendCommand env.uuid (.assign session.id session.executionId
    (task.map TaskRow.taskPayload) resume session.cwd session.agentSessionId txExec.projectId
    nextMsgSeq)))

/-- `issue_feed_turn`. -/
def issueFeedTurn (env : Env) (session : Session) : DbTx Reply Reply := do
  let _ ← DbTx.execution session.executionId (failed "begin transaction failed")
  let txExec ← DbTx.execution session.executionId (failed "execution recheck failed")
  Tx.require (¬executionEnded txExec) (.ok .noAction)
  let db ← Tx.read
  let row ← Tx.ofOption (nextTask db env.choice session.id) (.ok .noAction)
  Tx.write fun db => db.deleteTask row.id
  let affected ← DbTx.updateSession session.id (.feedTurn env.uuid env.now session.workerId)
  Tx.require affected (.ok .noAction)
  Tx.when session.parentSessionId.isNone do
    let _ ← DbTx.updateExecution session.executionId (.touchLastActivity env.now)
  pure (.ok (.sendCommand env.uuid (.feedTurn session.id row.taskPayload)))

/-- `issue_stop_turn`. -/
def issueStopTurn (env : Env) (session : Session) : DbTx Reply Reply := do
  let _ ← DbTx.execution session.executionId (failed "begin stop_turn tx")
  let affected ← DbTx.updateSession session.id (.stopTurn env.uuid env.now session.workerId)
  Tx.require affected (.ok .noAction)
  pure (.ok (.sendCommand env.uuid (.stopTurn session.id)))

/-- `issue_cancel`. -/
def issueCancel (env : Env) (session : Session) : DbTx Reply Reply := do
  let _ ← DbTx.execution session.executionId (failed "begin cancel tx")
  let affected ← DbTx.updateSession session.id (.cancel env.uuid env.now session.workerId)
  Tx.require affected (.ok .noAction)
  pure (.ok (.sendCommand env.uuid (.cancel session.id)))

/-! ## `finalize` -/

/-- The message a parent gets about a crashed child. -/
def crashMessage (session : Session) (desiredBy : DesiredBy) : Json :=
  notificationMessage ("Child session " ++ session.id ++ " crashed.")
    (.obj [("type", .str "child_crashed"), ("child_session_id", .str session.id),
           ("desired_by", .str desiredBy.asStr),
           ("outcome", .str (session.outcome.getD .failed).asStr)])

/-- `notify_parent_of_crash_in_tx`, past its early exits. -/
def notifyParent (env : Env) (session : Session) (desiredBy : DesiredBy) (parentId : SessionId)
    (onError : ρ) : DbTx ρ Unit := do
  let txExec ← DbTx.execution session.executionId onError
  let db ← Tx.read
  Tx.when (¬executionEnded txExec) do
    Tx.forSome (db.session? parentId) fun txParent =>
      Tx.when (¬(txParent.outcome.isSome ∨ txParent.desired = .terminate)) do
        let notified ← DbTx.updateSession session.id (.markParentNotified desiredBy)
        Tx.when notified do
          Tx.when (txParent.desired = .stop) do
            resumeStopped env session.executionId parentId .systemChildCrashNotify onError
          DbTx.insertTask session.executionId parentId (crashMessage session desiredBy)
            (some (.childResult session.id)) env.now onError
          let _ ← DbTx.insertEvent session.executionId (some parentId) .platform
            (notificationEvent "child_crashed" session.id) env.now onError

/-- `notify_parent_of_crash_in_tx`: a crash, of a child, whose parent has not been told. -/
def notifyParentOfCrash (env : Env) (session : Session) (onError : ρ) : DbTx ρ Unit :=
  Tx.forSome session.desiredBy fun desiredBy =>
    Tx.forSome session.parentSessionId fun parentId =>
      Tx.when (desiredBy.isCrash ∧ session.parentNotified = false) do
        notifyParent env session desiredBy parentId onError

/-- `finalize`. -/
def finalize (env : Env) (session : Session) :
    DbTx (Except SchedulerError Unit) (Except SchedulerError Unit) := do
  let _ ← DbTx.execution session.executionId (.error (.notFound "execution lock not found"))
  let db ← Tx.read
  Tx.forSome (db.session? session.id) fun current =>
    Tx.when (current.desired = .terminate) do
      Tx.write fun db => db.deleteTasks current.id
      notifyParentOfCrash env current (failed "notify parent of crash failed")
      Tx.when current.workerId.isSome do
        let _ ← DbTx.updateSession current.id .releaseWorker
  pure (.ok ())

end Reconciler

end AgentBeacon
