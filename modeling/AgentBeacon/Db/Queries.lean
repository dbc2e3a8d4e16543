import AgentBeacon.Db.Statements

/-!
# `Db.Queries` — the selections the scheduler reads

The `find_*` selections of `db/sessions.rs` with their predicates, and the walks over the session
tree that are written as recursive queries.
-/

namespace AgentBeacon
open Relational

namespace Db

/-- A row of `task_queue` exists for the session. -/
def hasTask (db : Db) (id : SessionId) : Bool := db.taskQueue.rows.any fun t => t.sessionId = id

/-- The children of a session that have not ended: what `create_with_width_guard` counts. -/
def liveChildren (db : Db) (parentId : SessionId) : Nat :=
  (db.childrenOf parentId).countP fun s => s.outcome.isNone

/-- `WHERE` of `find_reconcilable`. -/
def isReconcilable (db : Db) (s : Session) : Bool :=
  s.outcome.isNone || s.workerId.isSome || s.commandToken.isSome ||
  (!s.parentNotified && s.parentSessionId.isSome && s.outcome = some .failed) ||
  (s.outcome.isSome && s.desired ≠ .terminate) ||
  (s.parentSessionId.isNone && s.outcome.isSome &&
    db.executions.rows.any fun e => e.id = s.executionId ∧ e.outcome.isNone) ||
  (s.outcome.isSome && db.hasTask s.id) ||
  (s.desired = .terminate && s.outcome.isSome && db.sessions.rows.any fun c =>
    c.parentSessionId = some s.id ∧ c.outcome.isNone ∧ c.desired ≠ .terminate)

/-- `find_reconcilable`. -/
def findReconcilable (db : Db) : List Session := db.sessions.rows.filter db.isReconcilable

/-- `WHERE` of `find_unassigned_with_work`. -/
def isUnassignedWithWork (db : Db) (s : Session) : Bool :=
  s.desired = .run && s.executorState = .unassigned && s.outcome.isNone &&
  s.commandToken.isNone && s.workerId.isNone &&
  ((db.execution? s.executionId).any fun e => e.desired = .run ∧ e.outcome.isNone) &&
  (db.hasTask s.id || s.agentSessionId.isSome)

/-- `find_unassigned_with_work`. -/
def findUnassignedWithWork (db : Db) (choice : Nat) : Option Session :=
  firstBy Session.createdAt choice (db.sessions.rows.filter db.isUnassignedWithWork)

theorem mem_of_findUnassignedWithWork {db : Db} {choice : Nat} {s : Session}
    (h : db.findUnassignedWithWork choice = some s) :
    s ∈ db.sessions.rows ∧ db.isUnassignedWithWork s = true :=
  List.mem_filter.mp (firstBy_eq_some h).1

/-- `find_sessions_for_worker`. -/
def findSessionsForWorker (db : Db) (worker : WorkerId) : List Session :=
  db.sessions.rows.filter fun s => s.workerId = some worker

/-- `find_crashed_workerless`. -/
def findCrashedWorkerless (db : Db) : List Session :=
  db.sessions.rows.filter fun s => s.desired = .run && s.executorState = .crashed &&
    s.workerId.isNone && s.outcome.isNone

/-- `find_restart_pause_candidates`. -/
def findRestartPauseCandidates (db : Db) : List Session :=
  db.sessions.rows.filter fun s => s.desired = .run && s.outcome.isNone &&
    (db.execution? s.executionId).any fun e => e.desired = .run ∧ e.outcome.isNone

/-- `load_session_ancestry`: the sessions of the given executions. -/
def loadSessionAncestry (db : Db) (executionIds : List ExecutionId) : List Session :=
  db.sessions.rows.filter fun s => s.executionId ∈ executionIds

/-- The levels `compute_depth` collects, walking up from a session within its execution; the walk
stops after `fuel` steps. -/
def depthFrom (db : Db) (executionId : ExecutionId) : Nat → SessionId → Nat
  | 0, _ => 0
  | fuel + 1, id =>
      match (db.session? id).filter fun s => s.executionId = executionId with
      | none => 0
      | some s =>
          match s.parentSessionId.filter fun p =>
              (db.session? p).any fun q => q.executionId = executionId with
          | none => 0
          | some parentId => db.depthFrom executionId fuel parentId + 1

/-- `compute_depth`; the recursive query stops at level 11. -/
def computeDepth (db : Db) (id : SessionId) (executionId : ExecutionId) : Nat :=
  db.depthFrom executionId 11 id

end Db

/-! ## Hierarchical names -/

/-- The slug of a session, or the first eight characters of its id. -/
def displaySlug (s : Session) : String :=
  if s.slug = "" then String.ofList (s.id.toList.take 8) else s.slug

/-- The slugs from a session up to its root, following at most `fuel` rows. -/
def pathUp (sessions : List Session) : Nat → SessionId → List String
  | 0, _ => []
  | fuel + 1, id =>
      match sessions.find? fun s => s.id = id with
      | none => []
      | some s => displaySlug s :: match s.parentSessionId with
        | some parentId => pathUp sessions fuel parentId
        | none => []

/-- `compute_hierarchical_names`. -/
def hierarchicalNames (sessions : List Session) : List (SessionId × String) :=
  sessions.map fun s =>
    (s.id, String.intercalate "/" (pathUp sessions (sessions.length + 1) s.id).reverse)

end AgentBeacon
