import AgentBeacon.Services.Transition

/-!
# `Api.WorkerSync` — the transactions of worker reports

What `api/handlers/worker_sync.rs` writes itself: the result transaction of a sync (turn messages,
the turn-complete notification, the command acknowledgement), the SDK session id of a report, and
mid-turn messages.
-/

namespace AgentBeacon
open Transaction Transition

namespace WorkerSync

variable {ρ : Type}

/-- A turn's outcome as the worker sends it. -/
structure TurnResult where
  sessionId : SessionId
  messages : List (Option Int × Json)
  error : Option String
  errorKind : Option String
  stderr : Option String
  deriving DecidableEq

structure ExecutorReport where
  sessionId : SessionId
  executorState : String
  agentSessionId : Option String
  deriving DecidableEq

structure SyncRequest where
  workerId : WorkerId
  executorReport : Option ExecutorReport
  turnResult : Option TurnResult
  commandAck : Option String
  deriving DecidableEq

/-! ## Turn results -/

/-- One message of a turn, deduplicated when it carries a sequence number. -/
def insertTurnMessage (env : Env) (executionId : ExecutionId) (sessionId : SessionId)
    (message : Option Int × Json) (onError : ρ) : DbTx ρ Unit :=
  match message.1 with
  | some seq => do
      let _ ← DbTx.insertEventDedup executionId sessionId .message message.2 seq env.now onError
  | none => do
      let _ ← DbTx.insertEvent executionId (some sessionId) .message message.2 env.now onError

def turnErrorEvent (error : String) (errorKind : Option String) : Json :=
  .obj [("error", .str error),
        ("error_kind", match errorKind with | some kind => .str kind | none => .null)]

/-- `process_turn_result_in_tx`. -/
def processTurnResult (env : Env) (executionId : ExecutionId) (session : Session)
    (result : TurnResult) (onError : ρ) : DbTx ρ Unit := do
  result.messages.forM fun message =>
    insertTurnMessage env executionId session.id message onError
  Tx.forSome result.error fun error => do
    let _ ← DbTx.insertEvent executionId (some session.id) .platform
      (turnErrorEvent error result.errorKind) env.now onError

/-! ## Turn-complete notifications -/

def turnCompleteData (child : SessionId) : Json := notificationEvent "turn_complete" child

def turnCompleteEvent (child : SessionId) : Json :=
  .obj [("parts", .arr [Json.dataPart (turnCompleteData child)])]

def turnCompleteMessage (child : SessionId) : Json :=
  notificationMessage ("Child session " ++ child ++ " turn complete.") (turnCompleteData child)

/-- The notification of a parent; `parentStopped` is what the transaction read of it. -/
def notifyParentOfTurn (env : Env) (executionId : ExecutionId) (session : Session)
    (parentId : SessionId) (parentStopped : Bool) (onError : ρ) : DbTx ρ Unit := do
  Tx.when parentStopped do
    resumeStopped env executionId parentId .systemTurnCompleteNotify onError
  DbTx.insertTask session.executionId parentId (turnCompleteMessage session.id)
    (some (.childResult session.id)) env.now onError
  let _ ← DbTx.insertEvent executionId (some parentId) .platform (turnCompleteEvent session.id)
    env.now onError

/-- The turn-complete record of a root. -/
def noteTurnOfRoot (env : Env) (executionId : ExecutionId) (session : Session) (onError : ρ) :
    DbTx ρ Unit := do
  let _ ← DbTx.insertEvent executionId (some session.id) .platform (turnCompleteEvent session.id)
    env.now onError
  let _ ← DbTx.updateExecution executionId (.touchLastActivity env.now)

/-- The parent row when it, and its execution, can still be notified. -/
def notifiableParent (db : Db) (child : Session) (parentId : SessionId) : Option Session :=
  match db.execution? child.executionId with
  | some exec =>
      if exec.desired ≠ .terminate ∧ exec.outcome.isNone then
        (db.session? parentId).filter fun p => p.outcome.isNone && p.desired ≠ .terminate
      else none
  | none => none

/-- The turn-complete step of the result transaction: `session` is the snapshot read before it,
`child` the row read inside. -/
def completeTurn (env : Env) (executionId : ExecutionId) (session child : Session)
    (notifyParent : Option SessionId) (onError : ρ) : DbTx ρ Unit := do
  let db ← Tx.read
  Tx.when (child.desired = .run ∧ child.outcome.isNone) do
    match notifyParent with
    | some parentId =>
        Tx.forSome (notifiableParent db child parentId) fun parent =>
          notifyParentOfTurn env executionId session parentId (parent.desired = .stop) onError
    | none =>
        Tx.when session.parentSessionId.isNone (noteTurnOfRoot env executionId session onError)

/-! ## Command acknowledgements -/

inductive AckResult where
  | applied (terminalCancel : Bool)
  | staleWorker
  | staleToken
  deriving DecidableEq, Repr

/-- `SELECT … FROM sessions WHERE command_token = ?`. -/
def sessionByToken (db : Db) (token : String) : Option Session :=
  db.sessions.rows.find? fun s => s.commandToken = some token

/-- `process_command_ack_in_tx`. -/
def processCommandAck (workerId : WorkerId) (ackToken : String) : DbTx ρ AckResult := do
  let db ← Tx.read
  match sessionByToken db ackToken with
  | none => pure .staleToken
  | some row =>
      if row.workerId ≠ some workerId then pure .staleWorker
      else do
        let terminalCancel := row.commandType = some .cancel && row.outcome.isSome
        let affected ← DbTx.updateSession row.id
          (if terminalCancel then .ackTerminalCancel ackToken else .ack ackToken)
        pure (if affected then .applied terminalCancel else .staleToken)

/-! ## The result transaction -/

/-- What the result transaction tells the rest of the sync. -/
structure ResultTx where
  turnResultSession : Option Session
  wasTerminalCancel : Bool
  ackStaleWorker : Bool
  turnResultStaleWorker : Bool
  skipReconciler : Bool

/-- The turn-result step: the session row when the worker still owns it. -/
def applyTurnResult (env : Env) (executionId : ExecutionId) (workerId : WorkerId)
    (turnResult : Option TurnResult) (held : Option Session) (onError : ρ) :
    DbTx ρ (Option Session) := do
  let db ← Tx.read
  match turnResult, held with
  | some result, some _ =>
      match db.session? result.sessionId with
      | some s =>
          if s.workerId = some workerId then do
            processTurnResult env executionId s result onError
            pure (some s)
          else pure none
      | none => pure none
  | _, _ => pure none

/-- Whether the row of a turn result exists but belongs to another worker by now. -/
def turnResultStale (db : Db) (workerId : WorkerId) (turnResult : Option TurnResult)
    (held : Option Session) : Bool :=
  match turnResult, held with
  | some result, some _ => (db.session? result.sessionId).any fun s => s.workerId ≠ some workerId
  | _, _ => false

/-- The result transaction of a sync. `held` is the session of the turn result as read before the
transaction, when the worker owned it then; `notifyParent` the parent found notifiable then. -/
def resultTx (env : Env) (executionId : ExecutionId) (request : SyncRequest)
    (held : Option Session) (shouldNotify : Bool) (notifyParent : Option SessionId) :
    DbTx (Except SchedulerError ResultTx) (Except SchedulerError ResultTx) := do
  let onError : Except SchedulerError ResultTx := .error (dbError "result transaction failed")
  let _ ← DbTx.execution executionId onError
  let db ← Tx.read
  let stale := turnResultStale db request.workerId request.turnResult held
  let child ← applyTurnResult env executionId request.workerId request.turnResult held onError
  let session := if child.isSome then held else none
  Tx.when shouldNotify do
    Tx.forSome session fun s => Tx.forSome child fun c =>
      completeTurn env executionId s c notifyParent onError
  let ack ← match request.commandAck with
    | some token => processCommandAck request.workerId token
    | none => pure .staleToken
  pure (.ok {
    turnResultSession := session
    wasTerminalCancel := ack = .applied true
    ackStaleWorker := ack = .staleWorker
    turnResultStaleWorker := stale
    skipReconciler := stale || ack = .staleWorker })

/-! ## Other writes of workers -/

/-- `update_agent_session_id`. -/
def updateAgentSessionId (id : SessionId) (agentSessionId : String) (workerId : WorkerId) :
    DbTx (Except SchedulerError Unit) (Except SchedulerError Unit) := do
  let affected ← DbTx.updateSession id (.setAgentSessionId agentSessionId workerId)
  Tx.require affected (.error (.notFound ("session not found: " ++ id)))
  pure (.ok ())

/-- `worker_event`, the transaction that persists a mid-turn message. -/
def workerEvent (env : Env) (executionId : ExecutionId) (sessionId : SessionId)
    (workerId : WorkerId) (msgSeq : Int) (payload : Json) :
    DbTx (Except SchedulerError Unit) (Except SchedulerError Unit) := do
  let _ ← DbTx.execution executionId (.error (dbError "insert event"))
  let s ← DbTx.session sessionId (.ok ())
  Tx.require (s.workerId = some workerId) (.ok ())
  let _ ← DbTx.insertEventDedup executionId sessionId .message payload msgSeq env.now
    (.error (dbError "insert event"))
  pure (.ok ())

end WorkerSync

end AgentBeacon
