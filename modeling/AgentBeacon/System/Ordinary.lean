import AgentBeacon.System.Discipline
import AgentBeacon.System.Effects

/-!
# `System.Ordinary` — what every ordinary statement respects

A relation between the databases before and after may be respected by the statements of transactions one
by one. The statements come first; a transaction made of ordinary statements then respects it as a whole.
Two things are not ordinary: the notice that a child has crashed, which only a finalization writes, and the
reopening of an execution, which only a recovery does.
-/

namespace AgentBeacon
open Relational Transaction Transition Tx Reconciler Creation SessionsApi WorkerSync Resolution

/-- A queue row that is no notice of a crash. -/
def UsualTask (source : Option TaskSource) (payload : Json) : Prop :=
  (∀ id, source ≠ some (.childResult id)) ∨ ∃ text data, payload = notificationMessage text data ∧
    data.get "type" ≠ some (.str "child_crashed")

/-- An event that is neither a notice of a crash nor the end of an execution. -/
def UsualEvent (type : EventType) (id : Option SessionId) (payload : Json) : Prop :=
  (type = .platform → payload.get "type" ≠ some (.str "child_crashed")) ∧
    (type = .stateChange → id = none → payload.get "outcome" = none)

namespace UsualEvent

variable {type : EventType} {payload : Json}

theorem of_platform {id : Option SessionId} (h : payload.get "type" ≠ some (.str "child_crashed")) :
    UsualEvent .platform id payload := by
  constructor
  · intro _
    exact h
  · intro htype
    cases htype

theorem of_session {id : SessionId} (h : type ≠ .platform) : UsualEvent type (some id) payload := by
  constructor
  · intro htype
    exact absurd htype h
  · intro _ hid
    cases hid

theorem of_execution (h : payload.get "outcome" = none) : UsualEvent .stateChange none payload := by
  constructor
  · intro htype
    cases htype
  · intro _ _
    exact h

end UsualEvent

/-- A relation that every ordinary statement respects. -/
class Ordinary (R : Db → Db → Prop) : Prop where
  refl : ∀ db, R db db
  trans : ∀ {db db' db''}, R db db' → R db' db'' → R db db''
  same : ∀ {db db' : Db}, db'.taskQueue = db.taskQueue → db'.events = db.events →
    db'.executions = db.executions → R db db'
  insertExecution : ∀ {db : Db} {row : Execution} {executions},
    db.executions.insert? row = some executions → row.outcome = none → R db { db with executions }
  touch : ∀ (db : Db) id now, R db (db.updateExecution id (.touchLastActivity now))
  dequeue : ∀ (db : Db) p, R db { db with taskQueue := db.taskQueue.deleteWhere p }
  deleteSessions : ∀ (db : Db) ids, R db (db.deleteSessions ids)
  pushTask : ∀ (db : Db) executionId id {payload source} now, UsualTask source payload →
    R db (db.pushTask executionId id payload source now)
  pushEvent : ∀ (db : Db) executionId {id type payload} seq now, UsualEvent type id payload →
    R db (db.pushEvent executionId id type payload seq now)

/-- A relation that the end of an execution, with the row that tells it, respects as well. -/
class Settling (R : Db → Db → Prop) : Prop extends Ordinary R where
  missed : ∀ {db : Db} {id outcome now},
    (db.execution? id).any (ExecutionUpdate.terminal outcome now).matches = false →
      R db (db.updateExecution id (.terminal outcome now))
  ended : ∀ {db : Db} {id outcome now},
    (db.execution? id).any (ExecutionUpdate.terminal outcome now).matches = true →
      R db ((db.updateExecution id (.terminal outcome now)).pushEvent id none .stateChange
        (executionTerminalEvent outcome) none now)

/-- The body respects the relation, from whatever database. -/
def Respects {ρ α : Type} (R : Db → Db → Prop) (m : DbTx ρ α) : Prop :=
  ∀ db, wp m (fun _ db' => R db db') (fun _ => True) db

namespace Respects

variable {ρ α β : Type} {R : Db → Db → Prop} [Ordinary R]

theorem pure (a : α) : Respects R (pure a : DbTx ρ α) := fun db => Ordinary.refl db

omit [Ordinary R] in
theorem rollback (e : ρ) : Respects R (Tx.rollback e : DbTx ρ α) := fun _ => trivial

/-- **A body of such parts is one.** -/
theorem bind {m : DbTx ρ α} {f : α → DbTx ρ β} (hm : Respects R m) (hf : ∀ a, Respects R (f a)) :
    Respects R (m >>= f) := by
  intro db
  refine Tx.seq (hm db) fun a db' hdb' => ?_
  exact Tx.wp_mono (hf a db') (fun _ _ h => Ordinary.trans hdb' h) fun _ h => h

omit [Ordinary R] in
theorem ite {c : Prop} [Decidable c] {m m' : DbTx ρ α} (hm : Respects R m) (hm' : Respects R m') :
    Respects R (if c then m else m') := by
  split
  · exact hm
  · exact hm'

theorem read : Respects R (Tx.read : DbTx ρ Db) := fun db => Ordinary.refl db

theorem require {c : Prop} [Decidable c] {e : ρ} : Respects R (Tx.require c e) := by
  intro db
  rw [wp_require]
  exact ⟨fun _ => Ordinary.refl db, fun _ => trivial⟩

theorem ofOption {o : Option α} {e : ρ} : Respects R (Tx.ofOption o e) := by
  intro db
  rw [wp_ofOption]
  exact ⟨fun _ _ => Ordinary.refl db, fun _ => trivial⟩

theorem when {c : Prop} [Decidable c] {m : DbTx ρ Unit} (hm : Respects R m) : Respects R (Tx.when c m) := by
  intro db
  rw [wp_when]
  exact ⟨fun _ => hm db, fun _ => Ordinary.refl db⟩

theorem forSome {o : Option α} {f : α → DbTx ρ Unit} (hf : ∀ a, Respects R (f a)) :
    Respects R (Tx.forSome o f) := by
  intro db
  rw [wp_forSome]
  exact ⟨fun a _ => hf a db, fun _ => Ordinary.refl db⟩

theorem forM {l : List α} {f : α → DbTx ρ Unit} (hf : ∀ a, Respects R (f a)) : Respects R (l.forM f) := by
  induction l with
  | nil => exact pure ()
  | cons a l ih => exact bind (hf a) fun _ => ih

theorem execution {id : ExecutionId} {e : ρ} : Respects R (DbTx.execution id e) := bind read fun _ => ofOption

theorem session {id : SessionId} {e : ρ} : Respects R (DbTx.session id e) := bind read fun _ => ofOption

theorem agent {id : AgentId} {e : ρ} : Respects R (DbTx.agent id e) := bind read fun _ => ofOption

theorem updateSession {id : SessionId} {u : SessionUpdate} :
    Respects R (DbTx.updateSession id u : DbTx ρ Bool) := fun _ => Ordinary.same rfl rfl rfl

theorem touch {id : ExecutionId} {now : Timestamp} :
    Respects R (DbTx.updateExecution id (.touchLastActivity now) : DbTx ρ Bool) :=
  fun db => Ordinary.touch db id now

/-- Writing other tables than the queue, the log and the executions. -/
theorem tables {g : Db → Db} (h : ∀ db, (g db).taskQueue = db.taskQueue ∧ (g db).events = db.events ∧
    (g db).executions = db.executions) : Respects R (Tx.write g : DbTx ρ Unit) := by
  intro db
  obtain ⟨htasks, hevents, hexecutions⟩ := h db
  exact Ordinary.same htasks hevents hexecutions

theorem deleteTasks {id : SessionId} : Respects R (Tx.write fun db => db.deleteTasks id : DbTx ρ Unit) :=
  fun db => Ordinary.dequeue db _

theorem deleteTask {id : Nat} : Respects R (Tx.write fun db => db.deleteTask id : DbTx ρ Unit) :=
  fun db => Ordinary.dequeue db _

theorem insertTask {executionId : ExecutionId} {id : SessionId} {payload : Json} {source : Option TaskSource}
    {now : Timestamp} {e : ρ} (h : UsualTask source payload) :
    Respects R (DbTx.insertTask executionId id payload source now e) := by
  intro db
  rw [DbTx.wp_insertTask]
  exact ⟨fun _ => Ordinary.pushTask db executionId id now h, fun _ => trivial⟩

theorem insertEvent {executionId : ExecutionId} {id : Option SessionId} {type : EventType} {payload : Json}
    {now : Timestamp} {e : ρ} (h : UsualEvent type id payload) :
    Respects R (DbTx.insertEvent executionId id type payload now e) := by
  intro db
  rw [DbTx.wp_insertEvent]
  exact ⟨fun _ => Ordinary.pushEvent db executionId none now h, fun _ => trivial⟩

theorem insertEventDedup {executionId : ExecutionId} {id : SessionId} {type : EventType} {payload : Json}
    {seq : Int} {now : Timestamp} {e : ρ} (h : UsualEvent type (some id) payload) :
    Respects R (DbTx.insertEventDedup executionId id type payload seq now e) := by
  unfold DbTx.insertEventDedup
  refine bind read fun db => bind require fun _ => ite (pure none) (bind require fun _ => bind ?_ fun _ => pure _)
  exact fun db => Ordinary.pushEvent db executionId _ now h

theorem insertSession {row : Session} {e e' : ρ} : Respects R (DbTx.insertSession row e e') := by
  unfold DbTx.insertSession
  refine bind read fun db => bind require fun _ => bind require fun _ => bind ofOption fun sessions => ?_
  exact tables fun _ => ⟨rfl, rfl, rfl⟩

end Respects

/-! ## The transactions -/

section Bodies

variable {ρ α : Type} {env : Env} {R : Db → Db → Prop} [Ordinary R]

theorem respects_resumeStopped (executionId : ExecutionId) (id : SessionId) (desiredBy : DesiredBy)
    (e : ρ) : Respects R (resumeStopped env executionId id desiredBy e) := by
  unfold resumeStopped
  exact .bind .updateSession fun _ => .when (.bind (.insertEvent (.of_session (by simp)))
    fun _ => .pure _)

omit [Ordinary R] in
theorem respects_writeExecutionTerminal [Settling R] (executionId : ExecutionId) (outcome : Outcome) (e : ρ) :
    Respects R (writeExecutionTerminal env executionId outcome e) := by
  intro db
  unfold writeExecutionTerminal
  rw [wp_bind, DbTx.wp_updateExecution, wp_when]
  refine ⟨fun hends => ?_, fun hmissed => Settling.missed (by simpa using hmissed)⟩
  rw [wp_bind, DbTx.wp_insertEvent]
  exact ⟨fun _ => Settling.ended hends, fun _ => trivial⟩

theorem respects_derivedIf (wanted : Bool) (executionId : ExecutionId) (e : ρ) :
    Respects R (derivedIf wanted executionId e) := by
  unfold derivedIf
  exact .bind .read fun _ => .ite (.bind .ofOption fun _ => .pure _) (.pure _)

theorem respects_writeParentNotification (session : Session) (parentId : SessionId)
    (type : Notification) : Respects R
      (writeParentNotification env session parentId type : DbTx (Except Rejected α) Unit) := by
  unfold writeParentNotification
  refine .bind .execution fun _ => .when (.bind .session fun _ => .when ?_)
  refine .bind (.when (respects_resumeStopped _ _ _ _)) fun _ => ?_
  refine .bind (.insertTask (.inr ⟨_, _, rfl, ?_⟩)) fun _ => ?_
  · cases type <;> simp [notificationEvent, Json.get, Notification.asStr]
  refine .bind (.insertEvent (.of_platform ?_)) fun _ => .pure _
  cases type <;> simp [notificationEvent, Json.get, Notification.asStr]

/-! ### `services/execution.rs` and `api/mcp_tools.rs` -/

theorem respects_createExecution (new : NewExecution) :
    Respects R (Creation.createExecution env new) := by
  intro db
  unfold Creation.createExecution
  refine Tx.seq_read (Tx.seq_ofOption (fun executions hinsert => ?_) fun _ => trivial)
  have hcreated : R db { db with executions } := Ordinary.insertExecution hinsert rfl
  have hceiling : ∀ ceiling, Respects R (do
      let _ ← DbTx.insertEvent env.uuid none .platform (ceilingChangedPayload env.uuid ceiling env.now)
        env.now (.error (dbError "insert event failed"))
      : DbTx (Except SchedulerError ExecutionId) Unit) := by
    intro ceiling
    refine .bind (.insertEvent (.of_platform ?_)) fun _ => .pure _
    simp [ceilingChangedPayload, Json.get, List.lookup_cons]
  refine Tx.seq_write (Tx.wp_mono (Respects.bind (.forSome hceiling) (fun _ => .pure _) { db with executions })
    (fun _ _ h => Ordinary.trans hcreated h) fun _ h => h)

theorem respects_createSession (executionId : ExecutionId) (agentId : AgentId)
    (cwd worktreePath baseCommitSha : Option String) (sandboxPolicy : String) :
    Respects R (Creation.createSession env executionId agentId cwd worktreePath
      baseCommitSha sandboxPolicy) := by
  unfold Creation.createSession
  exact .bind .insertSession fun _ => .pure _

theorem respects_insertLocked {executionId : ExecutionId} {id : Option SessionId} {type : EventType}
    {payload : Json} (h : (type = .platform → ∃ text, payload = noticeEvent text) ∧
      (type = .stateChange → payload.get "outcome" = none)) :
    Respects R (Creation.insertLocked env executionId id type payload) := by
  unfold Creation.insertLocked
  refine .bind .execution fun _ => .bind (.insertEvent ?_) fun _ => .pure _
  constructor
  · intro htype
    obtain ⟨text, rfl⟩ := h.1 htype
    simp [noticeEvent, Json.get, List.lookup_cons]
  · intro htype _
    exact h.2 htype

theorem respects_insertExecutionAgents (executionId : ExecutionId) (agentIds : List AgentId) :
    Respects R (Creation.insertExecutionAgents executionId agentIds) := by
  unfold Creation.insertExecutionAgents
  exact .bind (.tables fun _ => ⟨rfl, rfl, rfl⟩) fun _ => .pure _

theorem respects_pushTask (executionId : ExecutionId) (id : SessionId) (payload : Json) :
    Respects R (Creation.pushTask env executionId id payload) := by
  unfold Creation.pushTask
  exact .bind (.insertTask (.inl (by simp))) fun _ => .pure _

theorem respects_createWithWidthGuard (executionId : ExecutionId) (agentId : AgentId)
    (parentId : SessionId) (cwd : Option String) (active : Nat) (maxWidth : Int) (sandboxPolicy : String) :
    Respects R (Creation.createWithWidthGuard env executionId agentId parentId cwd
      active maxWidth sandboxPolicy) := by
  unfold Creation.createWithWidthGuard
  exact .bind .require fun _ => .bind .insertSession fun _ => .pure _

theorem respects_delegate (executionId : ExecutionId) (parentId childId : SessionId)
    (agentName parentName prompt : String) (taskPayload : Json) :
    Respects R (Creation.delegate env executionId parentId childId agentName
      parentName prompt taskPayload) := by
  unfold Creation.delegate
  refine .bind .execution fun _ => .bind .execution fun _ => .bind .require fun _ => ?_
  refine .bind .session fun _ => .bind .require fun _ => ?_
  refine .bind (.insertEvent (.of_platform ?_)) fun _ => ?_
  · simp [delegateEvent, Json.get, List.lookup_cons]
  refine .bind (.insertEvent (.of_session (by simp))) fun _ => ?_
  exact .bind (.insertTask (.inl (by simp))) fun _ => .pure _

theorem respects_deleteSession (id : SessionId) :
    Respects R (Creation.deleteSession id) := by
  unfold Creation.deleteSession
  exact .bind .read fun _ => .bind .require fun _ => .bind (fun db => Ordinary.deleteSessions db _) fun _ => .pure _

/-! ### `services/transition.rs` -/

omit [Ordinary R] in
theorem respects_setDesiredTerminate [Settling R] (session : Session) (desiredBy : DesiredBy)
    (parent : Option SessionId) :
    Respects R (setDesiredTerminate env session desiredBy parent) := by
  unfold setDesiredTerminate
  refine .bind .execution fun _ => .bind .session fun _ => .bind .require fun _ => .bind .read fun _ => ?_
  refine .bind (respects_derivedIf _ _ _) fun _ => .bind .updateSession fun _ => .bind .require fun _ => ?_
  refine .bind (.insertEvent (.of_session (by simp))) fun _ => ?_
  refine .bind (.forSome fun _ => respects_writeParentNotification _ _ _) fun _ => ?_
  exact .bind (.forSome fun _ => respects_writeExecutionTerminal _ _ _) fun _ => .pure _

theorem respects_setDesiredStop (session : Session) (desiredBy : DesiredBy)
    (parent : Option SessionId) :
    Respects R (setDesiredStop env session desiredBy parent) := by
  unfold setDesiredStop
  refine .bind .execution fun _ => .bind .session fun _ => .bind .require fun _ => .bind .require fun _ => ?_
  refine .bind .updateSession fun _ => .bind .require fun _ => .bind .deleteTasks fun _ => ?_
  refine .bind (.insertEvent (.of_session (by simp))) fun _ => ?_
  exact .bind (.forSome fun _ => respects_writeParentNotification _ _ _) fun _ => .pure _

theorem respects_setDesiredRun (session : Session) (desiredBy : DesiredBy) :
    Respects R (setDesiredRun session desiredBy) := by
  unfold setDesiredRun
  exact .bind .execution fun _ => .bind .updateSession fun _ => .bind .require fun _ => .pure _

theorem respects_sendMessage (session : Session) (args : SendMessageArgs) :
    Respects R (sendMessage env session args) := by
  unfold sendMessage
  refine .bind .execution fun _ => .bind .session fun _ => .bind .execution fun _ => .bind .read fun _ => ?_
  refine .bind (.forSome fun _ => .bind .require fun _ => .forSome fun _ => .rollback _) fun _ => ?_
  refine .bind .require fun _ => .bind .require fun _ => ?_
  refine .bind (.when (.bind .updateSession fun _ => .pure _)) fun _ => ?_
  refine .bind (.insertTask (.inl (by simp))) fun _ => ?_
  refine .bind (.insertEvent (.of_session (by simp))) fun _ => ?_
  refine .bind (.forSome fun _ => .bind .require fun _ => .bind (.insertEvent (.of_platform ?_)) fun _ => .pure _)
    fun _ => ?_
  · simp [markerPayload, Json.get, List.lookup_cons]
  refine .bind (.when (.bind (.insertEvent (.of_platform ?_)) fun _ => .pure _)) fun _ => ?_
  · simp [Json.get]
  exact .bind (.when (.bind .touch fun _ => .pure _)) fun _ => .pure _

theorem respects_setExecutorState (session : Session) (state : ExState) (workerId : WorkerId)
    (crashMeta : Option CrashMeta) :
    Respects R (setExecutorState env session state workerId crashMeta) := by
  unfold setExecutorState
  refine .bind .execution fun _ => .bind .session fun _ => ?_
  cases state with
  | crashed =>
      refine .bind (.when (.bind (.insertEvent (.of_platform ?_)) fun _ => .pure _)) fun _ => ?_
      · simp [lossNotice, noticeEvent, Json.get, List.lookup_cons]
      refine .bind .updateSession fun _ => .bind .require fun _ => ?_
      exact .bind (.when (.bind (.insertEvent (.of_session (by simp))) fun _ => .pure _)) fun _ => .pure _
  | idle =>
      refine .bind .updateSession fun _ => .bind .require fun _ => ?_
      exact .bind (.when (.bind (.insertEvent (.of_session (by simp))) fun _ => .pure _)) fun _ => .pure _
  | running =>
      refine .bind .updateSession fun _ => .bind .require fun _ => ?_
      exact .bind (.when (.bind (.insertEvent (.of_session (by simp))) fun _ => .pure _)) fun _ => .pure _
  | unassigned => exact .bind .updateSession fun _ => .bind .require fun _ => .pure _

omit [Ordinary R] in
theorem respects_terminateFailed [Settling R] (session : Session) (desiredBy : DesiredBy) (requireCrashed : Bool) :
    Respects R (terminateFailed env session desiredBy requireCrashed) := by
  unfold terminateFailed
  refine .bind .execution fun _ => .bind .updateSession fun _ => .bind .require fun _ => ?_
  refine .bind (.insertEvent (.of_session (by simp))) fun _ => ?_
  exact .bind (.when (respects_writeExecutionTerminal _ _ _)) fun _ => .pure _

theorem respects_detectCrash (session : Session) :
    Respects R (detectCrash env session) := by
  unfold detectCrash
  refine .bind .execution fun _ => .bind .session fun _ => .bind .updateSession fun _ => .bind .require fun _ => ?_
  exact .bind (.when (.bind (.insertEvent (.of_session (by simp))) fun _ => .pure _)) fun _ => .pure _

theorem respects_retryRecovery (session : Session) :
    Respects R (retryRecovery env session) := by
  unfold retryRecovery
  refine .bind .execution fun _ => .bind .updateSession fun _ => .bind .require fun _ => .bind .session fun _ => ?_
  refine .bind (.when (.bind (.insertEvent (.of_platform ?_)) fun _ => .pure _)) fun _ => ?_
  · simp [recoveredNotice, noticeEvent, Json.get, List.lookup_cons]
  exact .bind (.insertEvent (.of_session (by simp))) fun _ => .pure _

/-! ### `services/reconciler.rs` -/

omit [Ordinary R] in
theorem respects_repairRootOutcome [Settling R] (session : Session) (executionOpen : Bool) :
    Respects R (repairRootOutcome env session executionOpen) := by
  unfold repairRootOutcome
  refine .bind .execution fun _ => .bind .session fun _ => .bind .require fun _ => .bind .read fun _ => ?_
  refine .bind (respects_derivedIf _ _ _) fun _ => .bind .updateSession fun _ => ?_
  exact .bind (.forSome fun _ => respects_writeExecutionTerminal _ _ _) fun _ => .pure _

theorem respects_repairChildOutcome (session : Session) :
    Respects R (repairChildOutcome session) := by
  unfold repairChildOutcome
  refine .bind .execution fun _ => .bind .session fun _ => ?_
  exact .bind (.when (.bind .read fun _ => .bind .updateSession fun _ => .pure _)) fun _ => .pure _

omit [Ordinary R] in
theorem respects_repairDesired [Settling R] (session : Session) :
    Respects R (repairDesired env session) := by
  unfold repairDesired
  refine .bind .execution fun _ => .bind .session fun _ => ?_
  refine .bind (.when (.bind .updateSession fun _ => ?_)) fun _ => .pure _
  refine .when (.bind .execution fun _ => .when (.bind .read fun _ => .bind .ofOption fun _ => ?_))
  exact respects_writeExecutionTerminal _ _ _

omit [Ordinary R] in
theorem respects_repairExecution [Settling R] (session : Session) :
    Respects R (repairExecution env session) := by
  unfold repairExecution
  refine .bind .execution fun _ => .bind .session fun _ => .bind .require fun _ => .bind .read fun _ => ?_
  exact .bind .ofOption fun _ => .bind (respects_writeExecutionTerminal _ _ _) fun _ => .pure _

theorem respects_repairCommand (session : Session) :
    Respects R (repairCommand session) := by
  unfold repairCommand
  exact .bind .execution fun _ => .bind .updateSession fun _ => .bind .require fun _ => .pure _

omit [Ordinary R] in
theorem respects_repairExecutionForTerminalRoot [Settling R] (root : SessionId) (executionId : ExecutionId) :
    Respects R (Reconciler.repairExecutionForTerminalRoot env root executionId) := by
  unfold Reconciler.repairExecutionForTerminalRoot
  refine .bind .execution fun _ => .bind .session fun _ => .bind (.when (.bind .execution fun _ => ?_)) fun _ => .pure _
  exact .when (.bind .read fun _ => .bind .ofOption fun _ => respects_writeExecutionTerminal _ _ _)

theorem respects_issueAssign (session : Session) (resume : Bool) (workerId : Option WorkerId) :
    Respects R (issueAssign env session resume workerId) := by
  unfold issueAssign
  refine .bind .execution fun _ => .bind .agent fun _ => .bind .execution fun _ => .bind .require fun _ => ?_
  refine .bind .read fun _ => .bind (.forSome fun _ => .deleteTask) fun _ => .bind .require fun _ => ?_
  refine .bind .updateSession fun _ => .bind .require fun _ => ?_
  exact .bind (.when (.bind .touch fun _ => .pure _)) fun _ => .pure _

theorem respects_issueFeedTurn (session : Session) :
    Respects R (issueFeedTurn env session) := by
  unfold issueFeedTurn
  refine .bind .execution fun _ => .bind .execution fun _ => .bind .require fun _ => .bind .read fun _ => ?_
  refine .bind .ofOption fun _ => .bind .deleteTask fun _ => .bind .updateSession fun _ => .bind .require fun _ => ?_
  exact .bind (.when (.bind .touch fun _ => .pure _)) fun _ => .pure _

theorem respects_issueStopTurn (session : Session) :
    Respects R (issueStopTurn env session) := by
  unfold issueStopTurn
  exact .bind .execution fun _ => .bind .updateSession fun _ => .bind .require fun _ => .pure _

theorem respects_issueCancel (session : Session) :
    Respects R (issueCancel env session) := by
  unfold issueCancel
  exact .bind .execution fun _ => .bind .updateSession fun _ => .bind .require fun _ => .pure _

/-- A finalization respects the relation when what it tells the parent does. -/
theorem respects_finalize
    (htask : ∀ db executionId id payload source now, R db (Db.pushTask db executionId id payload source now))
    (hevent : ∀ db executionId id payload now, R db (Db.pushEvent db executionId id .platform payload none now))
    (session : Session) : Respects R (Reconciler.finalize env session) := by
  unfold Reconciler.finalize
  refine .bind .execution fun _ => .bind .read fun _ => .bind (.forSome fun _ => .when ?_) fun _ => .pure _
  refine .bind .deleteTasks fun _ => .bind ?_ fun _ => .when (.bind .updateSession fun _ => .pure _)
  unfold notifyParentOfCrash notifyParent
  refine .forSome fun _ => .forSome fun _ => .when (.bind .execution fun _ => .bind .read fun _ => .when ?_)
  refine .forSome fun _ => .when (.bind .updateSession fun _ => .when ?_)
  refine .bind (.when (respects_resumeStopped _ _ _ _)) fun _ => .bind ?_ fun _ => .bind ?_ fun _ => .pure _
  · intro db
    rw [DbTx.wp_insertTask]
    exact ⟨fun _ => htask db _ _ _ _ _, fun _ => trivial⟩
  · intro db
    rw [DbTx.wp_insertEvent]
    exact ⟨fun _ => hevent db _ _ _ _, fun _ => trivial⟩

/-! ### `api/sessions.rs` and `api/escalate.rs` -/

theorem respects_continueFrom (old : Session) (parentId : SessionId) (resumable : Bool) (parts : List Json) :
    Respects R (SessionsApi.continueFrom env old parentId resumable parts) := by
  unfold SessionsApi.continueFrom
  refine .bind .execution fun _ => .bind .session fun _ => .bind .require fun _ => .bind .execution fun _ => ?_
  refine .bind .require fun _ => .bind .session fun _ => .bind .require fun _ => .bind .agent fun _ => ?_
  refine .bind .require fun _ => .bind .insertSession fun _ => ?_
  refine .bind (.when (.bind .updateSession fun _ => .pure _)) fun _ => ?_
  refine .bind (.when ?_) fun _ => ?_
  · unfold transferAgentSession
    exact .forSome fun _ => .bind .updateSession fun _ => .bind .updateSession fun _ => .require
  refine .bind (.insertEvent (.of_session (by simp))) fun _ => ?_
  refine .bind (.insertTask (.inl (by simp))) fun _ => ?_
  refine .bind (.when (respects_resumeStopped _ _ _ _)) fun _ => ?_
  refine .bind (.insertTask (.inr ⟨_, _, rfl, ?_⟩)) fun _ => ?_
  · simp [continuedData, Json.get]
  refine .bind (.insertEvent (.of_platform ?_)) fun _ => .pure _
  simp [continuedData, Json.get]

theorem respects_recover (hreopen : ∀ db id, R db (db.updateExecution id .recover)) (session : Session)
    (clearAgentSessionId : Bool) (message : Option String) :
    Respects R (SessionsApi.recover env session clearAgentSessionId message) := by
  unfold SessionsApi.recover recheckChild reopenIf recoverExecution
  refine .bind .execution fun _ => .bind (.when ?_) fun _ => .bind .agent fun _ => .bind .require fun _ => ?_
  · exact .bind .execution fun _ => .bind .require fun _ => .bind .read fun _ => .require
  refine .bind .updateSession fun _ => .bind .require fun _ => ?_
  refine .bind (.forSome fun _ => .insertTask (.inl (by simp))) fun _ => ?_
  refine .bind (.ite ?_ (.pure _)) fun _ => ?_
  · exact .bind .execution fun _ => .bind (.when (.bind (fun db => hreopen db _) fun _ => .pure _)) fun _ => .pure _
  refine .bind (.insertEvent (.of_session (by simp))) fun _ => ?_
  exact .bind (.when (.bind (.insertEvent (.of_execution rfl)) fun _ => .pure _)) fun _ => .pure _

theorem respects_clearWorktreePath (id : SessionId) :
    Respects R (SessionsApi.clearWorktreePath id) := by
  unfold SessionsApi.clearWorktreePath
  exact .bind .updateSession fun _ => .pure _

theorem respects_escalate (executionId : ExecutionId) (id : SessionId) (importance : String)
    (questions : List Json) :
    Respects R (SessionsApi.escalate env executionId id importance questions) := by
  unfold SessionsApi.escalate
  refine .bind .execution fun _ => .bind (.insertEvent (.of_platform ?_)) fun _ => .pure _
  simp [escalateEvent, Json.get, List.lookup_cons]

theorem respects_dismiss (escalation : Escalation) :
    Respects R (SessionsApi.dismiss env escalation) := by
  unfold SessionsApi.dismiss
  refine .bind .execution fun _ => .bind .read fun _ => .bind (.forSome fun _ => .rollback _) fun _ => ?_
  refine .bind .execution fun _ => .bind .require fun _ => .bind (.insertEvent (.of_platform ?_)) fun _ => .pure _
  simp [dismissPayload, Json.get, List.lookup_cons]

/-! ### `api/handlers/worker_sync.rs` -/

theorem respects_completeTurn (executionId : ExecutionId) (session row : Session)
    (notify : Option SessionId) (e : ρ) :
    Respects R (completeTurn env executionId session row notify e) := by
  unfold completeTurn notifyParentOfTurn noteTurnOfRoot
  refine .bind .read fun _ => .when ?_
  cases notify with
  | some parentId =>
      refine .forSome fun _ => .bind (.when (respects_resumeStopped _ _ _ _)) fun _ => ?_
      refine .bind (.insertTask (.inr ⟨_, _, rfl, ?_⟩)) fun _ => ?_
      · simp [turnCompleteData, notificationEvent, Json.get]
      refine .bind (.insertEvent (.of_platform ?_)) fun _ => .pure _
      simp [turnCompleteEvent, Json.get, List.lookup_cons]
  | none =>
      refine .when (.bind (.insertEvent (.of_platform ?_)) fun _ => .bind .touch fun _ => .pure _)
      simp [turnCompleteEvent, Json.get, List.lookup_cons]

theorem respects_processTurnResult (executionId : ExecutionId) (session : Session) (result : TurnResult)
    (e : ρ) : Respects R (processTurnResult env executionId session result e) := by
  unfold processTurnResult
  refine .bind (.forM fun message => ?_) fun _ => .forSome fun _ => .bind (.insertEvent (.of_platform ?_))
    fun _ => .pure _
  · unfold insertTurnMessage
    split
    · exact .bind (.insertEventDedup (.of_session (by simp))) fun _ => .pure _
    · exact .bind (.insertEvent (.of_session (by simp))) fun _ => .pure _
  · simp [turnErrorEvent, Json.get, List.lookup_cons]

theorem respects_resultTx (executionId : ExecutionId) (request : SyncRequest) (held : Option Session)
    (shouldNotify : Bool) (notify : Option SessionId) :
    Respects R (resultTx env executionId request held shouldNotify notify) := by
  unfold resultTx
  refine .bind .execution fun _ => .bind .read fun _ => .bind ?_ fun _ => ?_
  · unfold applyTurnResult
    refine .bind .read fun _ => ?_
    split
    · split
      · exact .ite (.bind (respects_processTurnResult _ _ _ _) fun _ => .pure _) (.pure _)
      · exact .pure _
    · exact .pure _
  refine .bind (.when (.forSome fun _ => .forSome fun _ => respects_completeTurn _ _ _ _ _)) fun _ => ?_
  cases request.commandAck with
  | some token =>
      refine .bind ?_ fun _ => .pure _
      unfold processCommandAck
      refine .bind .read fun _ => ?_
      split
      · exact .pure _
      · exact .ite (.pure _) (.bind .updateSession fun _ => .pure _)
  | none => exact .bind (.pure _) fun _ => .pure _

theorem respects_updateAgentSessionId (id : SessionId) (agentSessionId : String) (workerId : WorkerId) :
    Respects R (updateAgentSessionId id agentSessionId workerId) := by
  unfold updateAgentSessionId
  exact .bind .updateSession fun _ => .bind .require fun _ => .pure _

theorem respects_workerEvent (executionId : ExecutionId) (id : SessionId) (workerId : WorkerId) (msgSeq : Int)
    (payload : Json) : Respects R (WorkerSync.workerEvent env executionId id workerId msgSeq payload) := by
  unfold WorkerSync.workerEvent
  refine .bind .execution fun _ => .bind .session fun _ => .bind .require fun _ => ?_
  exact .bind (.insertEventDedup (.of_session (by simp))) fun _ => .pure _

theorem respects_putAgent (agent : Agent) : Respects R (AgentBeacon.putAgent agent) := by
  unfold AgentBeacon.putAgent
  exact .bind .read fun _ => .bind .ofOption fun _ => .bind (.tables fun _ => ⟨rfl, rfl, rfl⟩) fun _ => .pure _

end Bodies

/-! ## Every transaction but one -/

section Others

variable {α : Type} {env : Env} {db : Db} {R : Db → Db → Prop} [Ordinary R]

theorem Respects.scheduling {m : Env → DbTx (Except SchedulerError α) (Except SchedulerError α)}
    (h : Respects R (m env)) : R db ((DbTransaction.scheduling m).run env db).2 := by
  refine scheduling_post (P := fun _ db' => R db db') (fun _ _ => Ordinary.refl db) ?_
  exact Tx.wp_mono (h db) (fun _ _ h => h) fun _ _ => Ordinary.refl db

theorem Respects.rejecting {m : Env → DbTx (Except Rejected α) (Except Rejected α)}
    (h : Respects R (m env)) : R db ((DbTransaction.rejecting m).run env db).2 := by
  refine rejecting_post (P := fun _ db' => R db db') (fun _ => Ordinary.refl db) ?_
  exact Tx.wp_mono (h db) (fun _ _ h => h) fun _ _ => Ordinary.refl db

omit [Ordinary R] in
/-- **Every transaction respects the relation**, but for a finalization and a recovery. -/
theorem respects_call [Interleave.Start scheduler] [Settling R] {me : Nat} {history : History} {w : Write}
    (hproper : Proper me history w) (hfinalize : ∀ session, w ≠ .finalize session)
    (hrecover : ∀ session clear message, w ≠ .recover session clear message) :
    R db (w.run env db).2 := by
  cases w with
  | createExecution new =>
      exact Respects.scheduling (m := fun env => Creation.createExecution env new) (respects_createExecution new)
  | createSession x a c p b d =>
      exact Respects.scheduling (m := fun env => Creation.createSession env x a c p b d)
        (respects_createSession _ _ _ _ _ _)
  | insertLocked x id type payload =>
      exact Respects.scheduling (m := fun env => Creation.insertLocked env x id type payload)
        (respects_insertLocked hproper)
  | insertExecutionAgents x ids =>
      exact Respects.scheduling (m := fun _ => Creation.insertExecutionAgents x ids)
        (respects_insertExecutionAgents _ _)
  | pushTask x id payload =>
      exact Respects.scheduling (m := fun env => Creation.pushTask env x id payload) (respects_pushTask _ _ _)
  | createWithWidthGuard x a p c n m d =>
      exact Respects.scheduling (m := fun env => Creation.createWithWidthGuard env x a p c n m d)
        (respects_createWithWidthGuard _ _ _ _ _ _ _)
  | delegate x p c a n q t =>
      exact Respects.scheduling (m := fun env => Creation.delegate env x p c a n q t) (respects_delegate _ _ _ _ _ _ _)
  | deleteSession id => exact Respects.scheduling (m := fun _ => Creation.deleteSession id) (respects_deleteSession id)
  | setDesiredTerminate s d p =>
      exact Respects.rejecting (m := fun env => setDesiredTerminate env s d p) (respects_setDesiredTerminate _ _ _)
  | setDesiredStop s d p =>
      exact Respects.rejecting (m := fun env => setDesiredStop env s d p) (respects_setDesiredStop _ _ _)
  | setDesiredRun s d => exact Respects.rejecting (m := fun _ => setDesiredRun s d) (respects_setDesiredRun _ _)
  | sendMessage s args => exact Respects.rejecting (m := fun env => sendMessage env s args) (respects_sendMessage _ _)
  | setExecutorState s state worker crash =>
      exact Respects.rejecting (m := fun env => setExecutorState env s state worker crash)
        (respects_setExecutorState _ _ _ _)
  | terminateFailed s d r =>
      exact Respects.rejecting (m := fun env => terminateFailed env s d r) (respects_terminateFailed _ _ _)
  | detectCrash s d n => exact Respects.rejecting (m := fun env => detectCrash env s) (respects_detectCrash _)
  | retryRecovery s => exact Respects.rejecting (m := fun env => retryRecovery env s) (respects_retryRecovery _)
  | repairRootOutcome s o =>
      exact Respects.scheduling (m := fun env => repairRootOutcome env s o) (respects_repairRootOutcome _ _)
  | repairChildOutcome s =>
      exact Respects.scheduling (m := fun _ => repairChildOutcome s) (respects_repairChildOutcome _)
  | repairDesired s => exact Respects.scheduling (m := fun env => repairDesired env s) (respects_repairDesired _)
  | repairExecution s => exact Respects.scheduling (m := fun env => repairExecution env s) (respects_repairExecution _)
  | repairCommand s => exact Respects.scheduling (m := fun _ => repairCommand s) (respects_repairCommand _)
  | repairExecutionForTerminalRoot r x =>
      exact Respects.scheduling (m := fun env => Reconciler.repairExecutionForTerminalRoot env r x)
        (respects_repairExecutionForTerminalRoot _ _)
  | issueAssign s r w => exact Respects.scheduling (m := fun env => issueAssign env s r w) (respects_issueAssign _ _ _)
  | issueFeedTurn s => exact Respects.scheduling (m := fun env => issueFeedTurn env s) (respects_issueFeedTurn _)
  | issueStopTurn s => exact Respects.scheduling (m := fun env => issueStopTurn env s) (respects_issueStopTurn _)
  | issueCancel s => exact Respects.scheduling (m := fun env => issueCancel env s) (respects_issueCancel _)
  | finalize session => exact absurd rfl (hfinalize session)
  | continueFrom o p r ps =>
      exact Respects.scheduling (m := fun env => SessionsApi.continueFrom env o p r ps) (respects_continueFrom _ _ _ _)
  | recover s c t => exact absurd rfl (hrecover s c t)
  | clearWorktreePath id =>
      exact Respects.scheduling (m := fun _ => SessionsApi.clearWorktreePath id) (respects_clearWorktreePath _)
  | escalate x id i qs =>
      exact Respects.scheduling (m := fun env => SessionsApi.escalate env x id i qs) (respects_escalate _ _ _ _)
  | dismiss escalation =>
      exact Respects.scheduling (m := fun env => SessionsApi.dismiss env escalation) (respects_dismiss _)
  | resultTx x r h n p =>
      exact Respects.scheduling (m := fun env => resultTx env x r h n p) (respects_resultTx _ _ _ _ _)
  | updateAgentSessionId id a w =>
      exact Respects.scheduling (m := fun _ => updateAgentSessionId id a w) (respects_updateAgentSessionId _ _ _)
  | workerEvent x id w n payload =>
      exact Respects.scheduling (m := fun env => WorkerSync.workerEvent env x id w n payload)
        (respects_workerEvent _ _ _ _ _)
  | putAgent agent => exact Respects.scheduling (m := fun _ => AgentBeacon.putAgent agent) (respects_putAgent agent)

end Others

end AgentBeacon
