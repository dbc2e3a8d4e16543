import AgentBeacon.Db.Statements
import AgentBeacon.Error

/-!
# `Services.Transition` — the transactions of the session state machine

One definition for each transaction of `services/transition.rs`, taking the row snapshot its caller
held. What is read before a transaction begins (the snapshot itself, the parent to notify) belongs
to the requests of `System.Requests`.
-/

namespace AgentBeacon
open Transaction Resolution

/-- A failure of a transaction: nothing it wrote is kept. -/
structure Fault where
  message : String
  retryable : Bool
  deriving DecidableEq, Repr

/-- What the environment decides for one operation: the database's clock, a generated identifier and
slug, which of several least rows an `ORDER BY … LIMIT 1` returns, whether the transaction fails,
and whether a statement whose error the code ignores fails. -/
structure Env where
  now : Timestamp
  uuid : String
  slug : String
  choice : Nat
  fault : Option Fault
  swallow : Bool
  deriving DecidableEq, Repr

namespace Transition

/-- Crash metadata from the worker. -/
structure CrashMeta where
  error : Option String
  errorKind : Option String
  stderr : Option String

/-- A resolution marker to persist alongside an answer message. -/
structure ResolutionMarker where
  escalation : Escalation
  answerText : Option String

structure SendMessageArgs where
  payload : Json
  resolution : Option ResolutionMarker
  emitMessageDelivered : Bool
  fromUser : Bool

/-- A plain message with no resolution marker and no delivery signal. -/
def SendMessageArgs.plain (payload : Json) : SendMessageArgs :=
  { payload, resolution := none, emitMessageDelivered := false, fromUser := false }

variable {ρ : Type}

/-! ## Outcomes -/

def isQuiescent (s : Session) (pendingTurns : Nat) : Bool :=
  if 0 < pendingTurns ∨ s.commandToken.isSome then false
  else match s.executorState with
    | .idle => true
    -- with an agent session it is still to be resumed
    | .unassigned => s.agentSessionId.isNone
    | .crashed => s.desired = .stop
    | .running => false

def isActive (s : Session) (pendingTurns : Nat) : Bool :=
  s.executorState = .running || 0 < pendingTurns || s.commandToken.isSome

/-- The quiescence test `derive_execution_outcome` spells out over its column slice. -/
def quiescentSlice (s : Session) (pending : Nat) : Bool :=
  (s.executorState = .idle ||
    (s.executorState = .unassigned && s.agentSessionId.isNone && s.commandToken.isNone) ||
    (s.executorState = .crashed && s.desired = .stop)) &&
  pending = 0 && s.commandToken.isNone

/-- The last pass of `derive_execution_outcome`: a failed child whose live parent has not been told.
`none` when a parent row is missing. -/
def unnotifiedPass (db : Db) : List Session → Option Outcome
  | [] => some .completed
  | s :: rest =>
      match s.parentSessionId with
      | some parentId =>
          if s.outcome = some .failed ∧ s.parentNotified = false then
            match db.session? parentId with
            | none => none
            | some parent =>
                if parent.outcome.isNone then some .canceled else unnotifiedPass db rest
          else unnotifiedPass db rest
      | none => unnotifiedPass db rest

/-- `derive_execution_outcome`; `none` is its database error. -/
def deriveExecutionOutcome (db : Db) (executionId : ExecutionId) : Option Outcome :=
  let sessions := db.sessionsOf executionId
  if sessions.any fun s => s.parentSessionId.isNone && s.outcome = some .failed then
    some .failed
  else if sessions.any fun s => isActive s (db.pendingTurns s.id) then
    some .canceled
  else if sessions.any fun s => s.outcome.isNone && !quiescentSlice s (db.pendingTurns s.id) then
    some .canceled
  else unnotifiedPass db sessions

/-- Derive the execution's outcome if `wanted`. -/
def derivedIf (wanted : Bool) (executionId : ExecutionId) (onError : ρ) :
    DbTx ρ (Option Outcome) := do
  let db ← Tx.read
  if wanted then
    let outcome ← Tx.ofOption (deriveExecutionOutcome db executionId) onError
    pure (some outcome)
  else pure none

def sessionOutcome (s : Session) (pendingTurns : Nat) : Outcome :=
  if isQuiescent s pendingTurns then .completed else .canceled

/-! ## Event payloads -/

def terminateEvent (outcome : Outcome) (desiredBy : DesiredBy) : Json :=
  .obj [("desired", .str "terminate"), ("outcome", .str outcome.asStr),
        ("desired_by", .str desiredBy.asStr)]

def desiredEvent (desired : Desired) (desiredBy : DesiredBy) : Json :=
  .obj [("desired", .str desired.asStr), ("desired_by", .str desiredBy.asStr)]

def executionTerminalEvent (outcome : Outcome) : Json :=
  .obj [("desired", .str "terminate"), ("outcome", .str outcome.asStr)]

def executorStateEvent (state : ExState) : Json := .obj [("executor_state", .str state.asStr)]

def crashedEvent (crashMeta : Option CrashMeta) : Json :=
  let field (key : String) (value : Option String) : List (String × Json) :=
    (value.map fun v => (key, Json.str v)).toList
  .obj (("executor_state", .str "crashed") :: match crashMeta with
    | none => []
    | some m => field "error" m.error ++ field "error_kind" m.errorKind ++ field "stderr" m.stderr)

/-- A platform event that only carries a text for the user. -/
def noticeEvent (text : String) : Json := .obj [("message", .str text)]

/-- The notice that a message popped by a command may be lost. -/
def lossNotice : Json := noticeEvent "Agent recovered from a crash. A message may have been lost."

def recoveredNotice : Json :=
  noticeEvent "Agent recovered from a crash; work in progress may have been lost."

/-- What a parent is told about a child. -/
inductive Notification where
  | childTerminated | childStopped
  deriving DecidableEq, Repr

def Notification.asStr : Notification → String
  | childTerminated => "child_terminated"
  | childStopped => "child_stopped"

/-- `notification_type.replace('_', " ")`. -/
def Notification.asWords : Notification → String
  | childTerminated => "child terminated"
  | childStopped => "child stopped"

def notificationEvent (type : String) (child : SessionId) : Json :=
  .obj [("type", .str type), ("child_session_id", .str child)]

/-- A user-role message of a text and a data part. -/
def notificationMessage (text : String) (data : Json) : Json :=
  .obj [("message", .obj [("role", .str roleUser),
    ("parts", .arr [Json.textPart text, Json.dataPart data])])]

/-! ## Shared steps of transactions -/

def invalid {α : Type} (reason : String) : Except Rejected α := .error (.invalidTransition reason)

/-- Set a stopped session back to `run` and log it. -/
def resumeStopped (env : Env) (executionId : ExecutionId) (id : SessionId) (desiredBy : DesiredBy)
    (onError : ρ) : DbTx ρ Unit := do
  let affected ← DbTx.updateSession id (.resume desiredBy)
  Tx.when affected do
    let _ ← DbTx.insertEvent executionId (some id) .stateChange (desiredEvent .run desiredBy)
      env.now onError

/-- `write_execution_terminal_in_tx`. -/
def writeExecutionTerminal (env : Env) (executionId : ExecutionId) (outcome : Outcome)
    (onError : ρ) : DbTx ρ Unit := do
  let wrote ← DbTx.updateExecution executionId (.terminal outcome env.now)
  Tx.when wrote do
    let _ ← DbTx.insertEvent executionId none .stateChange (executionTerminalEvent outcome)
      env.now onError

/-- `write_parent_notification_in_tx`. -/
def writeParentNotification {α : Type} (env : Env) (session : Session) (parentId : SessionId)
    (type : Notification) : DbTx (Except Rejected α) Unit := do
  let txExec ← DbTx.execution session.executionId (invalid "recheck execution failed")
  Tx.when (¬(txExec.desired = .terminate ∨ txExec.outcome.isSome)) do
    let txParent ← DbTx.session parentId (invalid "recheck parent failed")
    Tx.when (¬(txParent.outcome.isSome ∨ txParent.desired = .terminate)) do
      Tx.when (txParent.desired = .stop) do
        resumeStopped env session.executionId parentId .systemChildActionNotify
          (invalid "auto-resume state_change event")
      DbTx.insertTask session.executionId parentId
        (notificationMessage ("Child session " ++ session.id ++ " " ++ type.asWords ++ ".")
          (notificationEvent type.asStr session.id))
        (some (.childResult session.id)) env.now (invalid "enqueue parent notification")
      let _ ← DbTx.insertEvent session.executionId (some parentId) .platform
        (notificationEvent type.asStr session.id) env.now (invalid "parent platform event")

/-! ## `set_desired` -/

/-- `set_desired`, the transaction that terminates a session. -/
def setDesiredTerminate (env : Env) (session : Session) (desiredBy : DesiredBy)
    (parentForNotify : Option SessionId) : DbTx (Except Rejected Unit) (Except Rejected Unit) := do
  let _ ← DbTx.execution session.executionId (invalid "begin transaction failed")
  let txSession ← DbTx.session session.id (.error .notFound)
  Tx.require (txSession.desired ≠ .terminate) (.error .ratchet)
  let db ← Tx.read
  let outcome := sessionOutcome txSession (db.pendingTurns session.id)
  let execOutcome ← derivedIf session.parentSessionId.isNone session.executionId
    (invalid "derive execution outcome failed")
  -- the outcome of the execution is derived from the session as it was before
  let affected ← DbTx.updateSession session.id (.terminate outcome desiredBy)
  Tx.require affected (.error .ratchet)
  let _ ← DbTx.insertEvent session.executionId (some session.id) .stateChange
    (terminateEvent outcome desiredBy) env.now (invalid "persist event failed")
  Tx.forSome parentForNotify fun parentId =>
    writeParentNotification env session parentId .childTerminated
  Tx.forSome execOutcome fun outcome =>
    writeExecutionTerminal env session.executionId outcome (invalid "write execution terminal")
  pure (.ok ())

/-- `set_desired`, the transaction that stops a session. -/
def setDesiredStop (env : Env) (session : Session) (desiredBy : DesiredBy)
    (parentForNotify : Option SessionId) : DbTx (Except Rejected Unit) (Except Rejected Unit) := do
  let _ ← DbTx.execution session.executionId (invalid "begin stop tx failed")
  let txSession ← DbTx.session session.id (.error .notFound)
  Tx.require (txSession.desired ≠ .terminate) (.error .ratchet)
  -- stopped in the meantime: rolled back, but answered as done
  Tx.require (txSession.desired ≠ .stop) (.ok ())
  let affected ← DbTx.updateSession session.id (.stop desiredBy)
  Tx.require affected (.error .ratchet)
  Tx.write fun db => db.deleteTasks session.id
  let _ ← DbTx.insertEvent session.executionId (some session.id) .stateChange
    (desiredEvent .stop desiredBy) env.now (invalid "persist event failed")
  Tx.forSome parentForNotify fun parentId =>
    writeParentNotification env session parentId .childStopped
  pure (.ok ())

/-- `set_desired`, the transaction that sets a session running. -/
def setDesiredRun (session : Session) (desiredBy : DesiredBy) :
    DbTx (Except Rejected Unit) (Except Rejected Unit) := do
  let _ ← DbTx.execution session.executionId (invalid "begin run tx failed")
  let affected ← DbTx.updateSession session.id (.run desiredBy)
  Tx.require affected (.error .ratchet)
  pure (.ok ())

/-! ## `send_message` -/

/-- `find_marker_for_escalation_in_tx`: the later platform events of the escalation's execution. -/
def findMarkerForEscalation (db : Db) (escalation : Escalation) : Option ResolutionCandidate :=
  bestMarker (db.events.rows.filter fun e => e.executionId = escalation.executionId ∧
    e.eventType = .platform ∧ escalation.id < e.id) escalation

/-- The message row's payload: the event message, else the message, else the whole payload. -/
def messageEventPayload (payload : Json) : Json :=
  ((payload.get "event_message").orElse fun _ => payload.get "message").getD payload

def corruptSequence (eventId : Nat) : String :=
  "message event id " ++ toString eventId ++ " is non-positive: the events id sequence is corrupt " ++
    "and a resolution marker's embedded id would never validate (readers require id > 0). " ++
    "Repair the events id sequence (e.g. reset events_id_seq) and retry"

/-- `send_message`; the reply is the message event's id. -/
def sendMessage (env : Env) (session : Session) (args : SendMessageArgs) :
    DbTx (Except Rejected Nat) (Except Rejected Nat) := do
  let _ ← DbTx.execution session.executionId (invalid "begin tx failed")
  let txSession ← DbTx.session session.id (.error .notFound)
  let txExecution ← DbTx.execution session.executionId (.error .notFound)
  let db ← Tx.read
  Tx.forSome args.resolution fun marker => do
    Tx.require (marker.escalation.executionId = session.executionId)
      (invalid "resolution marker names a different execution")
    -- the first answer wins
    Tx.forSome (findMarkerForEscalation db marker.escalation) fun existing =>
      Tx.rollback (.error (.alreadyResolved existing))
  Tx.require (¬(txExecution.desired = .terminate ∨ txExecution.outcome.isSome))
    (.error (if args.resolution.isSome then .decisionExpired else .executionTerminated))
  Tx.require (¬(txSession.desired = .terminate ∨ txSession.outcome.isSome)) (.error .writeBarrier)
  Tx.when (txSession.desired = .stop) do
    let _ ← DbTx.updateSession session.id (.resume .userSendMessage)
  DbTx.insertTask session.executionId session.id args.payload none env.now
    (invalid "enqueue message failed")
  let eventId ← DbTx.insertEvent session.executionId (some session.id) .message
    (messageEventPayload args.payload) env.now (invalid "insert message event failed")
  -- the marker names the row of the message, so it comes behind it
  Tx.forSome args.resolution fun marker => do
    Tx.require (0 < eventId) (invalid (corruptSequence eventId))
    let _ ← DbTx.insertEvent session.executionId (some marker.escalation.sessionId) .platform
      (markerPayload marker.escalation.data.batchId (some (marker.escalation.id : Int)) eventId
        (rfc3339 env.now) marker.answerText false)
      env.now (invalid "insert marker failed")
  Tx.when args.emitMessageDelivered do
    let _ ← DbTx.insertEvent session.executionId (some session.id) .platform
      (.obj [("type", .str "message_delivered")]) env.now (invalid "insert message_delivered failed")
  Tx.when args.fromUser do
    let _ ← DbTx.updateExecution session.executionId (.touchLastActivity env.now)
  pure (.ok eventId)

/-! ## Executor states -/

/-- `set_executor_state`; the check of the snapshot is the caller's. -/
def setExecutorState (env : Env) (session : Session) (state : ExState) (workerId : WorkerId)
    (crashMeta : Option CrashMeta) : DbTx (Except Rejected Unit) (Except Rejected Unit) := do
  let _ ← DbTx.execution session.executionId (invalid "begin executor state tx failed")
  let current ← DbTx.session session.id (.error .notFound)
  match state with
  | .crashed =>
      -- the command took a message out of the queue; it may be lost with it
      Tx.when current.commandHasPayload do
        let _ ← DbTx.insertEvent session.executionId (some session.id) .platform lossNotice env.now
          (invalid "persist event failed")
      let affected ← DbTx.updateSession session.id (.reportCrashed workerId)
      Tx.require affected (.error .writeBarrier)
      Tx.when (current.executorState ≠ .crashed) do
        let _ ← DbTx.insertEvent session.executionId (some session.id) .stateChange
          (crashedEvent crashMeta) env.now (invalid "persist event failed")
      pure (.ok ())
  | .idle =>
      let affected ← DbTx.updateSession session.id
        (.reportIdle workerId (0 < current.recoveryAttempts))
      Tx.require affected (.error .writeBarrier)
      Tx.when (current.executorState ≠ .idle) do
        let _ ← DbTx.insertEvent session.executionId (some session.id) .stateChange
          (executorStateEvent .idle) env.now (invalid "persist event failed")
      pure (.ok ())
  | .running =>
      let affected ← DbTx.updateSession session.id (.reportState workerId .running)
      Tx.require affected (.error .writeBarrier)
      Tx.when (current.executorState ≠ .running) do
        let _ ← DbTx.insertEvent session.executionId (some session.id) .stateChange
          (executorStateEvent .running) env.now (invalid "persist event failed")
      pure (.ok ())
  -- the only report that is not logged
  | .unassigned =>
      let affected ← DbTx.updateSession session.id (.reportState workerId .unassigned)
      Tx.require affected (.error .writeBarrier)
      pure (.ok ())

/-- `terminate_failed`; the check of the snapshot is the caller's. -/
def terminateFailed (env : Env) (session : Session) (desiredBy : DesiredBy)
    (requireCrashed : Bool) : DbTx (Except Rejected Unit) (Except Rejected Unit) := do
  let _ ← DbTx.execution session.executionId (invalid "begin transaction failed")
  let affected ← DbTx.updateSession session.id (.terminateFailed desiredBy requireCrashed)
  Tx.require affected (.error .ratchet)
  let _ ← DbTx.insertEvent session.executionId (some session.id) .stateChange
    (terminateEvent .failed desiredBy) env.now (invalid "persist event failed")
  Tx.when session.parentSessionId.isNone do
    writeExecutionTerminal env session.executionId .failed (invalid "write execution terminal")
  pure (.ok ())

/-- `detect_crash`. -/
def detectCrash (env : Env) (session : Session) :
    DbTx (Except Rejected Unit) (Except Rejected Unit) := do
  let _ ← DbTx.execution session.executionId (invalid "begin detect_crash tx failed")
  let current ← DbTx.session session.id (.error .notFound)
  let affected ← DbTx.updateSession session.id .detectCrash
  Tx.require affected (.error .writeBarrier)
  Tx.when (current.executorState ≠ .crashed) do
    let _ ← DbTx.insertEvent session.executionId (some session.id) .stateChange
      (executorStateEvent .crashed) env.now (invalid "persist event failed")
  pure (.ok ())

/-- `retry_recovery`. -/
def retryRecovery (env : Env) (session : Session) :
    DbTx (Except Rejected Unit) (Except Rejected Unit) := do
  let _ ← DbTx.execution session.executionId (invalid "begin retry_recovery tx failed")
  let affected ← DbTx.updateSession session.id .retryRecovery
  Tx.require affected (.error .writeBarrier)
  -- read again for the number of the attempt
  let updated ← DbTx.session session.id (.error .notFound)
  Tx.when updated.agentSessionId.isSome do
    let _ ← DbTx.insertEvent session.executionId (some session.id) .platform recoveredNotice env.now
      (invalid "persist event failed")
  let _ ← DbTx.insertEvent session.executionId (some session.id) .stateChange
    (.obj [("executor_state", .str "unassigned"),
           ("recovery_attempt", .int updated.recoveryAttempts)]) env.now
    (invalid "persist event failed")
  pure (.ok ())

end Transition

end AgentBeacon
