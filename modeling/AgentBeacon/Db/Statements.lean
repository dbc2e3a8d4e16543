import AgentBeacon.Db.Schema
import AgentBeacon.Lib.Tx

/-!
# `Db.Statements` — the SQL statements that write the database

Every `UPDATE sessions` the scheduler issues is one constructor of `SessionUpdate`: `matches` is its
`WHERE` clause (beyond `id = ?`), `set` its `SET` list. `UPDATE executions` likewise. On top stand
the statements as database functions, and as statements of a transaction body.
-/

namespace AgentBeacon
open Relational Transaction

/-! ## `UPDATE sessions` -/

/-- The `UPDATE sessions SET … WHERE id = ? …` statements. -/
inductive SessionUpdate where
  /-- `set_desired`, to terminate. -/
  | terminate (outcome : Outcome) (desiredBy : DesiredBy)
  /-- `set_desired`, to stop. -/
  | stop (desiredBy : DesiredBy)
  /-- `set_desired`, to run. -/
  | run (desiredBy : DesiredBy)
  /-- The auto-resume of a stopped recipient. -/
  | resume (desiredBy : DesiredBy)
  /-- `terminate_failed`. -/
  | terminateFailed (desiredBy : DesiredBy) (requireCrashed : Bool)
  /-- `set_executor_state`, crashed. -/
  | reportCrashed (worker : WorkerId)
  /-- `set_executor_state`, idle; `reset` when there are recovery attempts to forget. -/
  | reportIdle (worker : WorkerId) (reset : Bool)
  /-- `set_executor_state`, any other state. -/
  | reportState (worker : WorkerId) (state : ExState)
  /-- `detect_crash`. -/
  | detectCrash
  /-- `retry_recovery`. -/
  | retryRecovery
  /-- `reconcile`, terminated root without outcome. -/
  | repairRootOutcome (outcome : Outcome)
  /-- `reconcile`, terminated child without outcome. -/
  | repairChildOutcome (outcome : Outcome) (state : ExState)
  /-- `reconcile`, outcome without `desired = 'terminate'`. -/
  | repairDesired
  /-- `reconcile`, command of a crashed session. -/
  | clearCrashedCommand
  /-- `issue_assign`. -/
  | assign (token : String) (now : Timestamp) (hasPayload : Bool) (worker : Option WorkerId)
  /-- `issue_feed_turn`. -/
  | feedTurn (token : String) (now : Timestamp) (worker : Option WorkerId)
  /-- `issue_stop_turn`. -/
  | stopTurn (token : String) (now : Timestamp) (worker : Option WorkerId)
  /-- `issue_cancel`. -/
  | cancel (token : String) (now : Timestamp) (worker : Option WorkerId)
  /-- `finalize`, releasing the worker. -/
  | releaseWorker
  /-- `notify_parent_of_crash_in_tx`, the compare-and-set of `parent_notified`. -/
  | markParentNotified (desiredBy : DesiredBy)
  /-- Command acknowledgement. -/
  | ack (token : String)
  /-- Acknowledgement of the cancel of a session that has ended. -/
  | ackTerminalCancel (token : String)
  /-- `recover_session_handler`. -/
  | recover (clearAgentSessionId : Bool)
  /-- `continue_from_handler`, the old session's worktree. -/
  | handOverWorktree
  /-- `continue_from_handler`, the new session's SDK session. -/
  | takeAgentSession (agentSessionId : String)
  /-- `continue_from_handler`, the old session's SDK session. -/
  | dropAgentSession (agentSessionId : String)
  /-- `update_agent_session_id`. -/
  | setAgentSessionId (agentSessionId : String) (worker : WorkerId)
  /-- `clear_worktree_path`. -/
  | clearWorktreePath

namespace SessionUpdate

/-- `worker_id = ?`, where the bound value may be NULL and then matches nothing. -/
def workerMatches (s : Session) (worker : Option WorkerId) : Bool :=
  worker.isSome && s.workerId = worker

/-- `AND worker_id = ? AND (outcome IS NULL OR command_token IS NOT NULL)`. -/
def reportMatches (s : Session) (worker : WorkerId) : Bool :=
  s.workerId = some worker && (s.outcome.isNone || s.commandToken.isSome)

/-- The `WHERE` clause, beyond `id = ?`. -/
def «matches» (s : Session) : SessionUpdate → Bool
  | terminate _ _ => s.desired ≠ .terminate
  | stop _ => s.desired = .run
  | run _ => s.desired ≠ .terminate
  | resume _ => s.desired = .stop
  | terminateFailed _ requireCrashed => s.desired ≠ .terminate &&
      (!requireCrashed || (s.desired = .run && s.executorState = .crashed && s.outcome.isNone))
  | reportCrashed worker => reportMatches s worker
  | reportIdle worker _ => reportMatches s worker
  | reportState worker _ => reportMatches s worker
  | detectCrash => s.workerId.isSome || s.commandToken.isSome
  | retryRecovery => s.executorState = .crashed && s.outcome.isNone && s.desired = .run
  | repairRootOutcome _ => s.outcome.isNone
  | repairChildOutcome _ state =>
      s.outcome.isNone && s.desired = .terminate && s.executorState = state
  | repairDesired => s.desired ≠ .terminate && s.outcome.isSome
  | clearCrashedCommand => s.executorState = .crashed
  | assign _ _ _ _ => s.commandToken.isNone && s.desired = .run && s.executorState = .unassigned
  | feedTurn _ _ worker => s.commandToken.isNone && s.desired = .run && workerMatches s worker &&
      (s.executorState = .running || s.executorState = .idle)
  | stopTurn _ _ worker => workerMatches s worker && s.desired = .stop
  | cancel _ _ worker => workerMatches s worker && s.desired = .terminate
  | releaseWorker => true
  | markParentNotified desiredBy => !s.parentNotified && s.desired = .terminate &&
      s.outcome.isSome && s.desiredBy = some desiredBy
  | ack token => s.commandToken = some token
  | ackTerminalCancel token => s.commandToken = some token
  | recover _ => s.outcome = some .failed
  | handOverWorktree => true
  | takeAgentSession _ => true
  | dropAgentSession agentSessionId => s.agentSessionId = some agentSessionId
  | setAgentSessionId _ worker => s.workerId = some worker
  | clearWorktreePath => s.outcome.isSome && s.workerId.isNone && s.commandToken.isNone &&
      s.worktreePath.isSome

/-- The four command columns, cleared. -/
def clearCommand (s : Session) : Session :=
  { s with commandToken := none, commandType := none, commandAt := none, commandHasPayload := false }

/-- The four command columns of a command issued now. -/
def issue (s : Session) (token : String) (type : CommandType) (now : Timestamp)
    (hasPayload : Bool) : Session :=
  { s with commandToken := some token, commandType := some type, commandAt := some now,
           commandHasPayload := hasPayload }

/-- The `SET` list. -/
def set (s : Session) : SessionUpdate → Session
  | terminate outcome desiredBy =>
      { s with desired := .terminate, outcome := some outcome, desiredBy := some desiredBy }
  | stop desiredBy => { s with desired := .stop, desiredBy := some desiredBy }
  | run desiredBy => { s with desired := .run, desiredBy := some desiredBy }
  | resume desiredBy => { s with desired := .run, desiredBy := some desiredBy }
  | terminateFailed desiredBy _ =>
      { s with desired := .terminate, outcome := some .failed, desiredBy := some desiredBy }
  | reportCrashed _ => { clearCommand s with executorState := .crashed }
  | reportIdle _ reset => { s with
      executorState := .idle, recoveryAttempts := if reset then 0 else s.recoveryAttempts }
  | reportState _ state => { s with executorState := state }
  | detectCrash => { clearCommand s with executorState := .crashed, workerId := none }
  | retryRecovery =>
      { s with executorState := .unassigned, recoveryAttempts := s.recoveryAttempts + 1 }
  | repairRootOutcome outcome => { s with
      outcome := some outcome, desiredBy := some (s.desiredBy.getD .systemRepair) }
  | repairChildOutcome outcome _ => { s with
      outcome := some outcome, desiredBy := some (s.desiredBy.getD .systemRepair) }
  | repairDesired => { s with
      desired := .terminate, desiredBy := some (s.desiredBy.getD .systemRepair) }
  | clearCrashedCommand => clearCommand s
  | assign token now hasPayload worker =>
      { issue s token .assign now hasPayload with workerId := worker.or s.workerId }
  | feedTurn token now _ => issue s token .feedTurn now true
  | stopTurn token now _ => issue s token .stopTurn now false
  | cancel token now _ => issue s token .cancel now false
  | releaseWorker => { s with workerId := none }
  | markParentNotified _ => { s with parentNotified := true }
  | ack _ => clearCommand s
  -- the agent of a cancelled session is gone, whatever it was doing
  | ackTerminalCancel _ => { clearCommand s with
      workerId := none
      executorState := if s.executorState = .idle ∨ s.executorState = .crashed
        then s.executorState else .crashed }
  -- as if it were new, but for its conversation
  | recover clearAgentSessionId => { clearCommand s with
      desired := .run, executorState := .unassigned, outcome := none, recoveryAttempts := 0
      parentNotified := false, desiredBy := some .user, workerId := none
      agentSessionId := if clearAgentSessionId then none else s.agentSessionId }
  | handOverWorktree => { s with worktreePath := none, baseCommitSha := none }
  | takeAgentSession agentSessionId => { s with agentSessionId := some agentSessionId }
  | dropAgentSession _ => { s with agentSessionId := none }
  | setAgentSessionId agentSessionId _ => { s with agentSessionId := some agentSessionId }
  | clearWorktreePath => { s with worktreePath := none }

/-- What the statement does to the row under its id. -/
def apply (u : SessionUpdate) (s : Session) : Session := if u.matches s then u.set s else s

/-- No statement changes a row's identity: its id, its place in the tree, its agent. -/
theorem set_identity (u : SessionUpdate) (s : Session) :
    (u.set s).id = s.id ∧ (u.set s).executionId = s.executionId ∧
      (u.set s).parentSessionId = s.parentSessionId ∧ (u.set s).agentId = s.agentId := by
  cases u <;> exact ⟨rfl, rfl, rfl, rfl⟩

theorem apply_identity (u : SessionUpdate) (s : Session) :
    (u.apply s).id = s.id ∧ (u.apply s).executionId = s.executionId ∧
      (u.apply s).parentSessionId = s.parentSessionId ∧ (u.apply s).agentId = s.agentId := by
  unfold apply
  split
  · exact u.set_identity s
  · exact ⟨rfl, rfl, rfl, rfl⟩

theorem apply_of_matches {u : SessionUpdate} {s : Session} (h : u.matches s = true) :
    u.apply s = u.set s := if_pos h

end SessionUpdate

/-! ## `UPDATE executions` -/

/-- The `UPDATE executions SET … WHERE id = ? …` statements. -/
inductive ExecutionUpdate where
  /-- `write_execution_terminal_in_tx`. -/
  | terminal (outcome : Outcome) (now : Timestamp)
  /-- `touch_last_activity`. -/
  | touchLastActivity (now : Timestamp)
  /-- `recover_session_handler`, of a root. -/
  | recover

namespace ExecutionUpdate

def «matches» (e : Execution) : ExecutionUpdate → Bool
  | terminal _ _ => e.outcome.isNone
  | touchLastActivity _ => true
  | recover => e.desired = .terminate || e.outcome.isSome

def set (e : Execution) : ExecutionUpdate → Execution
  | terminal outcome now =>
      { e with desired := .terminate, outcome := some outcome, lastActivityAt := now }
  | touchLastActivity now => { e with lastActivityAt := now }
  | recover => { e with desired := .run, outcome := none }

def apply (u : ExecutionUpdate) (e : Execution) : Execution := if u.matches e then u.set e else e

theorem apply_id (u : ExecutionUpdate) (e : Execution) : (u.apply e).id = e.id := by
  unfold apply
  split
  · cases u <;> rfl
  · rfl

end ExecutionUpdate

/-! ## New rows -/

/-- A row of `sessions` with the defaults of the columns an `INSERT` leaves out. -/
def newSession (id : SessionId) (executionId : ExecutionId) (agentId : AgentId)
    (parentSessionId : Option SessionId) (cwd worktreePath baseCommitSha : Option String)
    (slug : String) (continuedFromSessionId : Option SessionId) (sandboxPolicy : String)
    (now : Timestamp) : Session where
  id := id
  executionId := executionId
  parentSessionId := parentSessionId
  agentId := agentId
  agentSessionId := none
  cwd := cwd
  worktreePath := worktreePath
  baseCommitSha := baseCommitSha
  slug := slug
  recoveryAttempts := 0
  desired := .run
  executorState := .unassigned
  outcome := none
  desiredBy := none
  commandToken := none
  commandType := none
  commandAt := none
  commandHasPayload := false
  workerId := none
  parentNotified := false
  continuedFromSessionId := continuedFromSessionId
  sandboxPolicy := sandboxPolicy
  createdAt := now

/-! ## Statements as database functions -/

/-- `i64::MAX`, the last key a table with an integer key can draw. -/
def maxRowId : Nat := 9223372036854775807

namespace Db

/-- `SELECT … FROM sessions WHERE id = ?`. -/
def session? (db : Db) (id : SessionId) : Option Session := db.sessions.find? id

/-- `SELECT … FROM executions WHERE id = ?`. -/
def execution? (db : Db) (id : ExecutionId) : Option Execution := db.executions.find? id

/-- `SELECT … FROM agents WHERE id = ? AND deleted_at IS NULL`. -/
def agent? (db : Db) (id : AgentId) : Option Agent :=
  (db.agents.find? id).filter fun a => !a.deleted

/-- `UPDATE sessions SET … WHERE id = ? …`. -/
def updateSession (db : Db) (id : SessionId) (u : SessionUpdate) : Db :=
  { db with sessions := db.sessions.modify id u.apply fun s => (u.apply_identity s).1 }

/-- `rows_affected() > 0`. -/
def affects (db : Db) (id : SessionId) (u : SessionUpdate) : Bool := (db.session? id).any u.matches

/-- `UPDATE executions SET … WHERE id = ? …`. -/
def updateExecution (db : Db) (id : ExecutionId) (u : ExecutionUpdate) : Db :=
  { db with executions := db.executions.modify id u.apply u.apply_id }

/-- `INSERT INTO task_queue`. -/
def pushTask (db : Db) (executionId : ExecutionId) (sessionId : SessionId) (payload : Json)
    (source : Option TaskSource) (now : Timestamp) : Db :=
  let row (id : Nat) : TaskRow := ⟨id, executionId, sessionId, payload, now, source⟩
  { db with taskQueue := db.taskQueue.push row fun _ => rfl }

/-- `DELETE FROM task_queue WHERE session_id = ?`. -/
def deleteTasks (db : Db) (sessionId : SessionId) : Db :=
  { db with taskQueue := db.taskQueue.deleteWhere fun t => t.sessionId = sessionId }

/-- `DELETE FROM task_queue WHERE id = ?`. -/
def deleteTask (db : Db) (id : Nat) : Db :=
  { db with taskQueue := db.taskQueue.deleteWhere fun t => t.id = id }

/-- The `task_queue` rows of a session. -/
def tasksOf (db : Db) (sessionId : SessionId) : List TaskRow :=
  db.taskQueue.rows.filter fun t => t.sessionId = sessionId

/-- `SELECT COUNT(*) FROM task_queue WHERE session_id = ?`. -/
def pendingTurns (db : Db) (sessionId : SessionId) : Nat := (db.tasksOf sessionId).length

/-- `INSERT INTO events`. -/
def pushEvent (db : Db) (executionId : ExecutionId) (sessionId : Option SessionId)
    (eventType : EventType) (payload : Json) (msgSeq : Option Int) (now : Timestamp) : Db :=
  let row (id : Nat) : EventRow :=
    ⟨id, executionId, sessionId, eventType, payload, msgSeq, now⟩
  { db with events := db.events.push row fun _ => rfl }

/-- The ids of a session and everything below it, after `fuel` rounds of following children. -/
def subtree (db : Db) : Nat → List SessionId → List SessionId
  | 0, ids => ids
  | fuel + 1, ids => db.subtree fuel (ids ++ (db.sessions.rows.filter fun s =>
      s.parentSessionId.any (· ∈ ids) ∧ s.id ∉ ids).map Session.id)

/-- `DELETE FROM sessions` of the given rows, with the rows that cascade from them. -/
def deleteSessions (db : Db) (ids : List SessionId) : Db :=
  { db with
    sessions := db.sessions.deleteWhere fun s => s.id ∈ ids
    taskQueue := db.taskQueue.deleteWhere fun t => t.sessionId ∈ ids
    events := db.events.deleteWhere fun e => e.sessionId.any (· ∈ ids) }

/-- The sessions of an execution, `ORDER BY created_at`. -/
def sessionsOf (db : Db) (executionId : ExecutionId) : List Session :=
  db.sessions.rows.filter fun s => s.executionId = executionId

/-- The children of a session, `ORDER BY created_at`. -/
def childrenOf (db : Db) (parentId : SessionId) : List Session :=
  db.sessions.rows.filter fun s => s.parentSessionId = some parentId

end Db

/-! ## Statements of a transaction body -/

variable {ρ α : Type}

/-- A body of a database transaction; it rolls back with a reply of type `ρ`. -/
abbrev DbTx (ρ α : Type) := Tx Db ρ α

namespace DbTx

/-- `UPDATE sessions`; whether a row was affected. -/
def updateSession (id : SessionId) (u : SessionUpdate) : DbTx ρ Bool :=
  fun db => .ok (db.affects id u, db.updateSession id u)

/-- `UPDATE executions`; whether a row was affected. -/
def updateExecution (id : ExecutionId) (u : ExecutionUpdate) : DbTx ρ Bool :=
  fun db => .ok ((db.execution? id).any u.matches, db.updateExecution id u)

/-- `INSERT INTO task_queue`; both foreign keys must exist and the key space must not be used up. -/
def insertTask (executionId : ExecutionId) (sessionId : SessionId) (payload : Json)
    (source : Option TaskSource) (now : Timestamp) (onError : ρ) : DbTx ρ Unit := do
  let db ← Tx.read
  Tx.require (db.execution? executionId ≠ none ∧ db.session? sessionId ≠ none ∧
    db.taskQueue.next ≤ maxRowId) onError
  Tx.write fun db => db.pushTask executionId sessionId payload source now

/-- `insert_in_tx`: an event of the locked execution. The session, if any, must belong to it. The
answer is the id and the timestamp of the new row. -/
def insertEvent (executionId : ExecutionId) (sessionId : Option SessionId) (eventType : EventType)
    (payload : Json) (now : Timestamp) (onError : ρ) : DbTx ρ Nat := do
  let db ← Tx.read
  Tx.require (∀ id ∈ sessionId, ∃ s ∈ db.session? id, s.executionId = executionId) onError
  Tx.require (db.events.next ≤ maxRowId) onError
  Tx.write fun db => db.pushEvent executionId sessionId eventType payload none now
  pure db.events.next

/-- `insert_with_dedup_in_tx`: `none` when the `(session_id, msg_seq)` pair is taken. -/
def insertEventDedup (executionId : ExecutionId) (sessionId : SessionId) (eventType : EventType)
    (payload : Json) (msgSeq : Int) (now : Timestamp) (onError : ρ) : DbTx ρ (Option Nat) := do
  let db ← Tx.read
  Tx.require (∃ s ∈ db.session? sessionId, s.executionId = executionId) onError
  if db.events.rows.any fun e => e.sessionId = some sessionId ∧ e.msgSeq = some msgSeq then
    pure none
  else
    Tx.require (db.events.next ≤ maxRowId) onError
    Tx.write fun db => db.pushEvent executionId (some sessionId) eventType payload (some msgSeq) now
    pure (some db.events.next)

/-- `INSERT INTO sessions`: the foreign keys exist, and among the children of one parent (or the
roots of one execution) a slug is taken once. -/
def insertSession (row : Session) (onError onUnique : ρ) : DbTx ρ Unit := do
  let db ← Tx.read
  Tx.require (db.execution? row.executionId ≠ none ∧ db.agents.find? row.agentId ≠ none ∧
    (∀ id ∈ row.parentSessionId, db.session? id ≠ none) ∧
    ∀ id ∈ row.continuedFromSessionId, db.session? id ≠ none) onError
  Tx.require (row.slug = "" ∨ ∀ s ∈ db.sessions.rows, ¬(s.executionId = row.executionId ∧
    s.parentSessionId = row.parentSessionId ∧ s.slug = row.slug)) onUnique
  let sessions ← Tx.ofOption (db.sessions.insert? row) onUnique
  Tx.write fun db => { db with sessions }

/-- `get_in_tx` of a session. -/
def session (id : SessionId) (onError : ρ) : DbTx ρ Session := do
  let db ← Tx.read
  Tx.ofOption (db.session? id) onError

/-- `get_in_tx` of an execution, and `begin_execution_tx`, which locks the row. -/
def execution (id : ExecutionId) (onError : ρ) : DbTx ρ Execution := do
  let db ← Tx.read
  Tx.ofOption (db.execution? id) onError

/-- `get_by_id_in_tx` of an agent. -/
def agent (id : AgentId) (onError : ρ) : DbTx ρ Agent := do
  let db ← Tx.read
  Tx.ofOption (db.agent? id) onError

end DbTx

end AgentBeacon
