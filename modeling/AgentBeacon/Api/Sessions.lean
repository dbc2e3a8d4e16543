import AgentBeacon.Services.Reconciler

/-!
# `Api.Sessions` — continuing and recovering sessions, escalating and dismissing

The transactions of `continue_from_handler` and `recover_session_handler` (`api/sessions.rs`), of
the escalation routes (`api/escalate.rs`), and the worktree clean-up.
-/

namespace AgentBeacon
open Transaction Transition Resolution

/-- `common::a2a::message_payload` of a user. -/
def userMessage (parts : List Json) : Json :=
  .obj [("role", .str roleUser), ("parts", .arr parts)]

namespace SessionsApi

/-! ## `continue_from_handler` -/

/-- The event and data part that tell the parent about a continuation. -/
def continuedData (oldId newId : SessionId) : Json :=
  .obj [("type", .str "child_continued"), ("old_session_id", .str oldId),
        ("new_session_id", .str newId)]

def continuedMessage (oldId newId : SessionId) : Json :=
  notificationMessage ("Child session continued from " ++ oldId ++ " as " ++ newId ++ ".")
    (continuedData oldId newId)

/-- `matches!(agent_type, "claude_sdk" | "copilot_sdk" | "codex_sdk")`. -/
def isResumable : AgentType → Bool
  | .claudeSdk | .copilotSdk | .codexSdk => true
  | .other _ => false

/-- The SDK session moves from the old row to the new one, if the old row still holds one. -/
def transferAgentSession {ρ : Type} (oldId newId : SessionId) (held : Option String)
    (onRace : ρ) : DbTx ρ Unit :=
  Tx.forSome held fun agentSessionId => do
    let _ ← DbTx.updateSession newId (.takeAgentSession agentSessionId)
    let cleared ← DbTx.updateSession oldId (.dropAgentSession agentSessionId)
    Tx.require cleared onRace

/-- `continue_from_handler`, the transaction. The error of the statement that resumes a stopped
parent is ignored: `env.swallow` is that it fails. -/
def continueFrom (env : Env) (old : Session) (parentId : SessionId) (resumable : Bool)
    (parts : List Json) :
    DbTx (Except SchedulerError SessionId) (Except SchedulerError SessionId) := do
  let newId := env.uuid
  let prompt : Json := .obj [("message", userMessage parts)]
  let _ ← DbTx.execution old.executionId (.error (dbError "begin continue_from tx"))
  let recheck ← DbTx.session old.id (.error (dbError "recheck old session"))
  Tx.require (¬(recheck.outcome.isNone ∨ recheck.commandToken.isSome ∨ recheck.workerId.isSome))
    (.error (.conflict "precondition race: old session state changed"))
  let exec ← DbTx.execution old.executionId (.error (dbError "recheck execution"))
  Tx.require (¬(exec.outcome.isSome ∨ exec.desired ≠ .run))
    (.error (.conflict "precondition race: execution is no longer alive/running"))
  let parent ← DbTx.session parentId (.error (dbError "recheck parent"))
  Tx.require (¬(parent.outcome.isSome ∨ parent.desired = .terminate))
    (.error (.conflict "precondition race: parent is no longer alive or is terminating"))
  let agent ← DbTx.agent old.agentId (.error (.conflict "agent deleted during continue_from"))
  Tx.require agent.enabled (.error (.conflict "agent disabled during continue_from"))
  DbTx.insertSession (newSession newId old.executionId old.agentId (some parentId) old.cwd
      old.worktreePath old.baseCommitSha env.slug (some old.id) old.sandboxPolicy env.now)
    (.error (dbError "create continued session")) (.error (dbError "create continued session"))
  Tx.when old.worktreePath.isSome do
    let _ ← DbTx.updateSession old.id .handOverWorktree
  Tx.when resumable do
    transferAgentSession old.id newId recheck.agentSessionId
      (.error (.conflict "concurrent continue_from: SDK session already transferred"))
  let _ ← DbTx.insertEvent old.executionId (some newId) .message prompt env.now
    (.error (dbError "insert prompt event"))
  DbTx.insertTask old.executionId newId prompt (some .user) env.now
    (.error (dbError "enqueue prompt"))
  Tx.when (parent.desired = .stop ∧ env.swallow = false) do
    resumeStopped env old.executionId parentId .systemContinueFromNotify
      (.error (dbError "auto-resume state_change event"))
  DbTx.insertTask old.executionId parentId (continuedMessage old.id newId)
    (some (.childResult newId)) env.now (.error (dbError "enqueue parent notification"))
  let _ ← DbTx.insertEvent old.executionId (some parentId) .platform (continuedData old.id newId)
    env.now (.error (dbError "insert platform event"))
  pure (.ok newId)

/-! ## `recover_session_handler` -/

def recoveryEvent : Json := .obj [("desired", .str "run"), ("recovery", .bool true)]

/-- The root row of an execution, as far as the recheck reads it: terminal or not. -/
def rootTerminal (db : Db) (executionId : ExecutionId) : Bool :=
  match (db.sessionsOf executionId).find? fun s => s.parentSessionId.isNone with
  | some root => root.desired = .terminate || root.outcome.isSome
  | none => false

/-- Reopen an execution that has ended. -/
def recoverExecution {ρ : Type} (executionId : ExecutionId) (onError : ρ) : DbTx ρ Bool := do
  let txExec ← DbTx.execution executionId onError
  Tx.when (Reconciler.executionEnded txExec) do
    let _ ← DbTx.updateExecution executionId .recover
  pure (Reconciler.executionEnded txExec)

/-- The rechecks of a child's recovery. -/
def recheckChild (session : Session) : DbTx (Except SchedulerError Bool) Unit := do
  let txExec ← DbTx.execution session.executionId (.error (dbError "execution recheck"))
  Tx.require (¬Reconciler.executionEnded txExec)
    (.error (.validationFailed "execution became terminal during recovery"))
  let db ← Tx.read
  Tx.require (¬rootTerminal db session.executionId)
    (.error (.conflict "session state changed concurrently"))

/-- The reopening of a root's execution; whether it had ended. -/
def reopenIf (isRoot : Bool) (executionId : ExecutionId) :
    DbTx (Except SchedulerError Bool) Bool :=
  if isRoot then recoverExecution executionId (.error (dbError "execution recheck"))
  else pure false

/-- `recover_session_handler`, the transaction; the reply is whether the execution was reopened. -/
def recover (env : Env) (session : Session) (clearAgentSessionId : Bool)
    (message : Option String) :
    DbTx (Except SchedulerError Bool) (Except SchedulerError Bool) := do
  let _ ← DbTx.execution session.executionId (.error (dbError "begin recover tx"))
  Tx.when session.parentSessionId.isSome (recheckChild session)
  let agent ← DbTx.agent session.agentId
    (.error (.validationFailed "agent deleted during recovery"))
  Tx.require agent.enabled (.error (.validationFailed "agent disabled during recovery"))
  let affected ← DbTx.updateSession session.id (.recover clearAgentSessionId)
  Tx.require affected (.error (.conflict "session state changed concurrently"))
  Tx.forSome message fun text =>
    DbTx.insertTask session.executionId session.id
      (.obj [("message", userMessage [Json.textPart text])]) none env.now
      (.error (dbError "enqueue message failed"))
  let executionRecovered ← reopenIf session.parentSessionId.isNone session.executionId
  let _ ← DbTx.insertEvent session.executionId (some session.id) .stateChange recoveryEvent env.now
    (.error (dbError "persist recovery event"))
  Tx.when executionRecovered do
    let _ ← DbTx.insertEvent session.executionId none .stateChange recoveryEvent env.now
      (.error (dbError "persist recovery event"))
  pure (.ok executionRecovered)

/-- `clear_worktree_path`; whether a row was affected. -/
def clearWorktreePath (id : SessionId) :
    DbTx (Except SchedulerError Bool) (Except SchedulerError Bool) := do
  let affected ← DbTx.updateSession id .clearWorktreePath
  pure (.ok affected)

/-! ## Escalations -/

/-- The platform event of an escalation. -/
def escalateEvent (batchId importance : String) (questions : List Json) : Json :=
  .obj [("role", .str roleAgent), ("parts", .arr [Json.dataPart (.obj
    [("type", .str escalateType), ("batch_id", .str batchId), ("importance", .str importance),
     ("questions", .arr questions)])])]

/-- `escalate`, the transaction; the reply is the batch id and the event id. -/
def escalate (env : Env) (executionId : ExecutionId) (sessionId : SessionId) (importance : String)
    (questions : List Json) :
    DbTx (Except SchedulerError (String × Nat)) (Except SchedulerError (String × Nat)) := do
  let _ ← DbTx.execution executionId (.error (.notFound "execution lock not found"))
  let id ← DbTx.insertEvent executionId (some sessionId) .platform
    (escalateEvent env.uuid importance questions) env.now (.error (dbError "insert event failed"))
  pure (.ok (env.uuid, id))

/-- `dismiss_in_tx`; the reply is the marker's event id. -/
def dismiss (env : Env) (escalation : Escalation) :
    DbTx (Except SchedulerError Nat) (Except SchedulerError Nat) := do
  let _ ← DbTx.execution escalation.executionId (.error (dbError "begin dismiss tx"))
  let db ← Tx.read
  Tx.forSome (findMarkerForEscalation db escalation) fun winner =>
    Tx.rollback (.error (.problem (.decisionAlreadyResolved winner)))
  let txExec ← DbTx.execution escalation.executionId (.error (dbError "recheck execution"))
  Tx.require (¬Reconciler.executionEnded txExec) (.error (.problem .decisionExpired))
  let id ← DbTx.insertEvent escalation.executionId (some escalation.sessionId) .platform
    (dismissPayload escalation.data.batchId escalation.id) env.now
    (.error (dbError "insert event failed"))
  pure (.ok id)

end SessionsApi

end AgentBeacon
