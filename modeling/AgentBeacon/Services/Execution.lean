import AgentBeacon.Services.Transition

/-!
# `Services.Execution` — creating executions and sessions

The transactions behind `create_execution` (`services/execution.rs`), behind the `delegate` and
`release` tools (`api/mcp_tools.rs`), and the writes other services share with them.
-/

namespace AgentBeacon
open Transaction Transition Resolution

namespace Creation

variable {ρ : Type}

/-- What `create_in_tx` inserts. -/
structure NewExecution where
  projectId : Option String
  title : Option String
  maxDepth : Int
  maxWidth : Int
  sandboxPolicy : String
  /-- The wire form of a sandboxed ceiling; `none` for an unsandboxed execution. -/
  ceiling : Option Json

/-- `ceiling_changed_payload` at launch. -/
def ceilingChangedPayload (executionId : ExecutionId) (ceiling : Json) (at_ : Timestamp) : Json :=
  .obj [("parts", .arr [Json.dataPart (.obj
    [("type", .str "ceiling_changed"), ("execution_id", .str executionId), ("ceiling", ceiling),
     ("previous", .null), ("by", .str "user"), ("at", .str (rfc3339 at_))])])]

/-- `create_in_tx` and the ceiling event, in one transaction. -/
def createExecution (env : Env) (new : NewExecution) :
    DbTx (Except SchedulerError ExecutionId) (Except SchedulerError ExecutionId) := do
  let db ← Tx.read
  let executions ← Tx.ofOption (db.executions.insert? {
      id := env.uuid, projectId := new.projectId, title := new.title, desired := .run, outcome := none
      maxDepth := new.maxDepth, maxWidth := new.maxWidth, sandboxPolicy := new.sandboxPolicy
      createdAt := env.now, lastActivityAt := env.now })
    (.error (dbError "create execution failed"))
  Tx.write fun db => { db with executions }
  Tx.forSome new.ceiling fun ceiling => do
    let _ ← DbTx.insertEvent env.uuid none .platform (ceilingChangedPayload env.uuid ceiling env.now)
      env.now (.error (dbError "insert event failed"))
  pure (.ok env.uuid)

/-- The unique-index violation of a session insert. -/
def uniqueViolation : SchedulerError := dbError "create session failed: UNIQUE constraint failed"

/-- `sessions::create`, of a root session. -/
def createSession (env : Env) (executionId : ExecutionId) (agentId : AgentId)
    (cwd worktreePath baseCommitSha : Option String) (sandboxPolicy : String) :
    DbTx (Except SchedulerError SessionId) (Except SchedulerError SessionId) := do
  DbTx.insertSession (newSession env.uuid executionId agentId none cwd worktreePath baseCommitSha
      env.slug none sandboxPolicy env.now)
    (.error (dbError "create session failed")) (.error uniqueViolation)
  pure (.ok env.uuid)

/-- `insert_locked`. -/
def insertLocked (env : Env) (executionId : ExecutionId) (sessionId : Option SessionId)
    (eventType : EventType) (payload : Json) :
    DbTx (Except SchedulerError Nat) (Except SchedulerError Nat) := do
  let _ ← DbTx.execution executionId (.error (.notFound "execution lock not found"))
  let id ← DbTx.insertEvent executionId sessionId eventType payload env.now
    (.error (dbError "insert event failed"))
  pure (.ok id)

/-- `execution_agents::insert_batch`. -/
def insertExecutionAgents (executionId : ExecutionId) (agentIds : List AgentId) :
    DbTx (Except SchedulerError Unit) (Except SchedulerError Unit) := do
  Tx.write fun db => { db with
    executionAgents := db.executionAgents ++ agentIds.map fun id => (executionId, id) }
  pure (.ok ())

/-- `TaskQueue::push`: a plain insert, under no lock. -/
def pushTask (env : Env) (executionId : ExecutionId) (sessionId : SessionId) (payload : Json) :
    DbTx (Except SchedulerError Unit) (Except SchedulerError Unit) := do
  DbTx.insertTask executionId sessionId payload none env.now
    (.error (dbError "insert task_queue failed"))
  pure (.ok ())

/-- The insert of `create_with_width_guard`, when its statement has counted `active` active children in the
snapshot it reads; `none` when these are `max_width`. -/
def createWithWidthGuard (env : Env) (executionId : ExecutionId) (agentId : AgentId)
    (parentId : SessionId) (cwd : Option String) (active : Nat) (maxWidth : Int) (sandboxPolicy : String) :
    DbTx (Except SchedulerError (Option SessionId))
      (Except SchedulerError (Option SessionId)) := do
  Tx.require ((active : Int) < maxWidth) (.ok none)
  DbTx.insertSession (newSession env.uuid executionId agentId (some parentId) cwd none none env.slug
      none sandboxPolicy env.now)
    (.error (dbError "create session failed")) (.error uniqueViolation)
  pure (.ok (some env.uuid))

/-- How the last transaction of `handle_delegate` ended. -/
inductive DelegateResult where
  | enqueued
  | executionTerminating
  | parentTerminal
  | parentStopped
  deriving DecidableEq, Repr

/-- The platform event of a delegation. -/
def delegateEvent (agentName : String) (child : SessionId) (prompt : String) : Json :=
  .obj [("role", .str roleAgent), ("parts", .arr [Json.dataPart (.obj
    [("type", .str "delegate"), ("agent", .str agentName), ("child_session_id", .str child),
     ("prompt", .str prompt)])])]

/-- The child's first message event. -/
def childPrompt (parentName : String) (parentId : SessionId) (prompt : String) : Json :=
  .obj [("role", .str roleUser), ("parts", .arr [Json.dataPart (.obj
      [("type", .str senderType), ("name", .str parentName), ("session_id", .str parentId)]),
    Json.textPart prompt])]

/-- The transaction of `handle_delegate` that enqueues the child's prompt. -/
def delegate (env : Env) (executionId : ExecutionId) (parentId childId : SessionId)
    (agentName parentName prompt : String) (taskPayload : Json) :
    DbTx (Except SchedulerError DelegateResult) (Except SchedulerError DelegateResult) := do
  let _ ← DbTx.execution executionId (.error (dbError "begin transaction failed"))
  let txExec ← DbTx.execution executionId (.error (dbError "recheck execution"))
  Tx.require (¬(txExec.desired = .terminate ∨ txExec.outcome.isSome)) (.ok .executionTerminating)
  let txParent ← DbTx.session parentId (.error (dbError "recheck parent session"))
  Tx.require (¬(txParent.desired ≠ .run ∨ txParent.outcome.isSome))
    (.ok (if txParent.outcome.isSome then .parentTerminal else .parentStopped))
  let _ ← DbTx.insertEvent executionId (some parentId) .platform
    (delegateEvent agentName childId prompt) env.now (.error (dbError "insert delegate event failed"))
  let _ ← DbTx.insertEvent executionId (some childId) .message
    (childPrompt parentName parentId prompt) env.now (.error (dbError "insert child prompt failed"))
  DbTx.insertTask executionId childId taskPayload none env.now
    (.error (dbError "insert task_queue failed"))
  pure (.ok .enqueued)

/-- `DELETE FROM sessions WHERE id = ?`: children, queue rows and events cascade; a session that
continues one of the deleted rows blocks the statement. -/
def deleteSession (id : SessionId) :
    DbTx (Except SchedulerError Unit) (Except SchedulerError Unit) := do
  let db ← Tx.read
  let ids := db.subtree db.sessions.rows.length [id]
  Tx.require (∀ s ∈ db.sessions.rows, s.continuedFromSessionId.any (· ∈ ids) → s.id ∈ ids)
    (.error (dbError "FOREIGN KEY constraint failed"))
  Tx.write fun db => db.deleteSessions ids
  pure (.ok ())

end Creation

end AgentBeacon
