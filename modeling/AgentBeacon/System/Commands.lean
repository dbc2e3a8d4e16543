import AgentBeacon.System.Serving

/-!
# `System.Commands` — what issuing a command finds and leaves

The four transactions that issue commands, seen from outside: either nothing was handed out and the
database is as it was, or the guards held of the rows in the transaction, the session's row carries
the command, and the queue has lost what the command carries.
-/

namespace AgentBeacon
open Relational Transaction Interleave Reconciler

/-! ## The guards of the commands -/

theorem assign_matches {token : String} {now : Timestamp} {payload : Bool} {worker : Option WorkerId}
    {s : Session} (h : (SessionUpdate.assign token now payload worker).matches s = true) :
    s.desired = .run ∧ s.commandToken = none ∧ s.executorState = .unassigned := by
  simp only [SessionUpdate.matches, Bool.and_eq_true, decide_eq_true_eq,
    Option.isNone_iff_eq_none] at h
  exact ⟨h.1.2, h.1.1, h.2⟩

theorem feedTurn_matches {token : String} {now : Timestamp} {worker : Option WorkerId}
    {s : Session} (h : (SessionUpdate.feedTurn token now worker).matches s = true) :
    s.desired = .run ∧ s.commandToken = none ∧ s.workerId = worker ∧ worker.isSome ∧
      (s.executorState = .running ∨ s.executorState = .idle) := by
  simp only [SessionUpdate.matches, SessionUpdate.workerMatches, Bool.and_eq_true, Bool.or_eq_true,
    decide_eq_true_eq, Option.isNone_iff_eq_none] at h
  exact ⟨h.1.1.2, h.1.1.1, h.1.2.2, h.1.2.1, h.2⟩

theorem stopTurn_matches {token : String} {now : Timestamp} {worker : Option WorkerId}
    {s : Session} (h : (SessionUpdate.stopTurn token now worker).matches s = true) :
    s.desired = .stop ∧ s.workerId = worker ∧ worker.isSome := by
  simp only [SessionUpdate.matches, SessionUpdate.workerMatches, Bool.and_eq_true,
    decide_eq_true_eq] at h
  exact ⟨h.2, h.1.2, h.1.1⟩

theorem cancel_matches {token : String} {now : Timestamp} {worker : Option WorkerId}
    {s : Session} (h : (SessionUpdate.cancel token now worker).matches s = true) :
    s.desired = .terminate ∧ s.workerId = worker ∧ worker.isSome := by
  simp only [SessionUpdate.matches, SessionUpdate.workerMatches, Bool.and_eq_true,
    decide_eq_true_eq] at h
  exact ⟨h.2, h.1.2, h.1.1⟩

/-! ## The command of a call -/

/-- The command a reply hands out. -/
def handedOut : Except SchedulerError ReconcilerAction → Option (String × CommandAction)
  | .ok (.sendCommand token action) => some (token, action)
  | _ => none

/-- What a command carries of the queue. -/
def CommandAction.payload : CommandAction → Option Json
  | .assign _ _ payload _ _ _ _ _ => payload
  | .feedTurn _ payload => some payload
  | .stopTurn _ | .cancel _ => none

/-- The command a transaction hands out. -/
def Write.command (w : Write) (env : Env) (db : Db) : Option (String × CommandAction) :=
  match w with
  | .issueAssign session resume worker => handedOut ((issueAssign session resume worker).run env db).1
  | .issueFeedTurn session => handedOut ((issueFeedTurn session).run env db).1
  | .issueStopTurn session => handedOut ((issueStopTurn session).run env db).1
  | .issueCancel session => handedOut ((issueCancel session).run env db).1
  | _ => none

/-- The command a call hands out. -/
def commandOf (e : Event scheduler) : Option (String × CommandAction) :=
  match (e.op : Op) with
  | .write w => w.command (envOf e) (before e)
  | _ => none

theorem commandOf_write {e : Event scheduler} {w : Write} (h : e.op = Op.write w) :
    commandOf e = w.command (envOf e) (before e) := by
  unfold commandOf
  rw [h]

/-- The queue without the row a command carries. -/
def without (queue : TaskQueue) : Option TaskRow → TaskQueue
  | some t => queue.deleteWhere fun t' => t'.id = t.id
  | none => queue

/-- A command with the session's work was committed: `u` is its `UPDATE`, `task` what it carries. -/
structure Issued (session : Session) (u : SessionUpdate) (task : Option TaskRow) (env : Env)
    (db db' : Db) : Prop where
  row : ∃ row, db.session? session.id = some row ∧ u.matches row = true
  alive : ∃ x, db.execution? session.executionId = some x ∧ x.desired = .run ∧ x.outcome = none
  popped : nextTask db env.choice session.id = task
  sessions : db'.sessions = (db.updateSession session.id u).sessions
  queue : db'.taskQueue = without db.taskQueue task
  events : db'.events = db.events

/-- The row that the command was issued on has taken its `SET` list. -/
theorem Issued.session {session : Session} {u : SessionUpdate} {task : Option TaskRow} {env : Env} {db db' : Db}
    (h : Issued session u task env db db') {row : Session} (hrow : db.session? session.id = some row)
    (hmatches : u.matches row = true) : db'.session? session.id = some (u.set row) := by
  rw [Db.session?, h.sessions]
  show (db.updateSession session.id u).session? session.id = some (u.set row)
  rw [Db.session?_updateSession, if_pos rfl, hrow, Option.map_some, SessionUpdate.apply_of_matches hmatches]

theorem executionEnded_eq_false {x : Execution} (h : ¬executionEnded x = true) :
    x.desired = .run ∧ x.outcome = none := by
  unfold executionEnded at h
  simp only [Bool.or_eq_true, decide_eq_true_eq, not_or, Option.not_isSome_iff_eq_none] at h
  refine ⟨?_, h.2⟩
  cases hd : x.desired with
  | run => rfl
  | terminate => exact absurd hd h.1

/-- **`issue_assign`, from outside.** -/
theorem issueAssign_spec (env : Env) (session : Session) (resume : Bool) (worker : Option WorkerId)
    (db : Db) :
    let w := Write.issueAssign session resume worker
    (w.command env db = none ∧ (w.run env db).2 = db) ∨ ∃ task action,
      w.command env db = some (env.uuid, action) ∧ action.payload = task.map TaskRow.taskPayload ∧
      Issued session (.assign env.uuid env.now task.isSome worker) task env db (w.run env db).2 := by
  refine scheduling_post (m := fun env => Reconciler.issueAssign env session resume worker)
    (P := fun r db' => (handedOut r = none ∧ db' = db) ∨ ∃ task action,
      handedOut r = some (env.uuid, action) ∧ action.payload = task.map TaskRow.taskPayload ∧
      Issued session (.assign env.uuid env.now task.isSome worker) task env db db')
    (fun _ _ => .inl ⟨rfl, rfl⟩) ?_
  unfold Reconciler.issueAssign
  refine DbTx.seq_execution (fun _ _ => ?_) fun _ => .inl ⟨rfl, rfl⟩
  refine DbTx.seq_agent (fun _ _ => ?_) fun _ => .inl ⟨rfl, rfl⟩
  refine DbTx.seq_execution (fun x hx => ?_) fun _ => .inl ⟨rfl, rfl⟩
  refine Tx.seq_require (fun halive => ?_) fun _ => .inl ⟨rfl, rfl⟩
  refine Tx.seq_read ?_
  refine Tx.seq (Q := fun _ db₁ => db₁ =
    { db with taskQueue := without db.taskQueue (nextTask db env.choice session.id) }) ?_ ?_
  · cases nextTask db env.choice session.id <;> rfl
  rintro _ _ rfl
  refine Tx.seq_require (fun _ => ?_) fun _ => .inl ⟨rfl, rfl⟩
  refine DbTx.seq_updateSession (fun row hrow hm => ?_) fun _ => .inl ⟨rfl, rfl⟩
  refine Tx.seq (Q := fun _ db₂ => Issued session (.assign env.uuid env.now
    (nextTask db env.choice session.id).isSome worker) (nextTask db env.choice session.id) env db db₂) ?_
    fun _ db₂ hdb₂ => .inr ⟨_, _, rfl, rfl, hdb₂⟩
  rw [Tx.wp_when]
  exact ⟨fun _ => ⟨⟨row, hrow, hm⟩, ⟨x, hx, executionEnded_eq_false halive⟩, rfl, rfl, rfl, rfl⟩,
    fun _ => ⟨⟨row, hrow, hm⟩, ⟨x, hx, executionEnded_eq_false halive⟩, rfl, rfl, rfl, rfl⟩⟩

/-- **`issue_feed_turn`, from outside.** It always carries a row. -/
theorem issueFeedTurn_spec (env : Env) (session : Session) (db : Db) :
    let w := Write.issueFeedTurn session
    (w.command env db = none ∧ (w.run env db).2 = db) ∨ ∃ task action,
      w.command env db = some (env.uuid, action) ∧ action.payload = some task.taskPayload ∧
      Issued session (.feedTurn env.uuid env.now session.workerId) (some task) env db
        (w.run env db).2 := by
  refine scheduling_post (m := fun env => Reconciler.issueFeedTurn env session)
    (P := fun r db' => (handedOut r = none ∧ db' = db) ∨ ∃ task action,
      handedOut r = some (env.uuid, action) ∧ action.payload = some task.taskPayload ∧
      Issued session (.feedTurn env.uuid env.now session.workerId) (some task) env db db')
    (fun _ _ => .inl ⟨rfl, rfl⟩) ?_
  unfold Reconciler.issueFeedTurn
  refine DbTx.seq_execution (fun _ _ => ?_) fun _ => .inl ⟨rfl, rfl⟩
  refine DbTx.seq_execution (fun x hx => ?_) fun _ => .inl ⟨rfl, rfl⟩
  refine Tx.seq_require (fun halive => ?_) fun _ => .inl ⟨rfl, rfl⟩
  refine Tx.seq_read (Tx.seq_ofOption (fun task htask => ?_) fun _ => .inl ⟨rfl, rfl⟩)
  refine Tx.seq_write (DbTx.seq_updateSession (fun row hrow hm => ?_) fun _ => .inl ⟨rfl, rfl⟩)
  refine Tx.seq (Q := fun _ db₂ => Issued session (.feedTurn env.uuid env.now session.workerId)
    (some task) env db db₂) ?_ fun _ db₂ hdb₂ => .inr ⟨_, _, rfl, rfl, hdb₂⟩
  rw [Tx.wp_when]
  exact ⟨fun _ => ⟨⟨row, hrow, hm⟩, ⟨x, hx, executionEnded_eq_false halive⟩, htask, rfl, rfl, rfl⟩,
    fun _ => ⟨⟨row, hrow, hm⟩, ⟨x, hx, executionEnded_eq_false halive⟩, htask, rfl, rfl, rfl⟩⟩

/-! ## Losing a command -/

/-- **`detect_crash`, from outside**: refused, or the row under the session's id, whatever it is by
then, has lost its worker and its command. -/
theorem detectCrash_spec (env : Env) (session decidedOn : Session) (noticed : Bool) (db : Db) :
    let w := Write.detectCrash session decidedOn noticed
    (((w.run env db).1 : Except Rejected Unit) ≠ .ok () ∧ (w.run env db).2 = db) ∨
    (((w.run env db).1 : Except Rejected Unit) = .ok () ∧ ∃ row, db.session? session.id = some row ∧
      (row.workerId.isSome = true ∨ row.commandToken.isSome = true) ∧
      (w.run env db).2.sessions = (db.updateSession session.id .detectCrash).sessions ∧
      (w.run env db).2.taskQueue = db.taskQueue) := by
  refine rejecting_post (m := fun env => Transition.detectCrash env session)
    (P := fun r db' => (r ≠ .ok () ∧ db' = db) ∨ (r = .ok () ∧ ∃ row, db.session? session.id = some row ∧
      (row.workerId.isSome = true ∨ row.commandToken.isSome = true) ∧
      db'.sessions = (db.updateSession session.id .detectCrash).sessions ∧
      db'.taskQueue = db.taskQueue)) (fun _ => .inl ⟨fun h => (by cases h), rfl⟩) ?_
  unfold Transition.detectCrash
  refine DbTx.seq_execution (fun _ _ => ?_) fun _ => .inl ⟨fun h => (by cases h), rfl⟩
  refine DbTx.seq_session (fun current _ => ?_) fun _ => .inl ⟨fun h => (by cases h), rfl⟩
  refine DbTx.seq_updateSession (fun row hrow hm => ?_) fun _ => .inl ⟨fun h => (by cases h), rfl⟩
  have hheld : row.workerId.isSome = true ∨ row.commandToken.isSome = true := by
    simpa [SessionUpdate.matches] using hm
  refine Tx.seq (Q := fun _ db' => db'.sessions = (db.updateSession session.id .detectCrash).sessions ∧
    db'.taskQueue = db.taskQueue) ?_ fun _ db' hdb' => .inr ⟨rfl, row, hrow, hheld, hdb'⟩
  rw [Tx.wp_when, Tx.wp_bind, DbTx.wp_insertEvent]
  exact ⟨fun _ => ⟨fun _ => ⟨rfl, rfl⟩, fun _ => .inl ⟨fun h => (by cases h), rfl⟩⟩, fun _ => ⟨rfl, rfl⟩⟩

/-- **When a crash that is detected goes through**: nothing fails the transaction, the row has a worker or a
command, and the log has room for the event of a session that had not crashed. -/
theorem detectCrash_ok_iff {env : Env} {session decidedOn row : Session} {noticed : Bool} {db : Db}
    {x : Execution} (hx : db.execution? session.executionId = some x)
    (hrow : db.session? session.id = some row) (hexec : row.executionId = session.executionId) :
    (((Write.detectCrash session decidedOn noticed).run env db).1 : Except Rejected Unit) = .ok () ↔
      env.fault = none ∧ (row.workerId.isSome = true ∨ row.commandToken.isSome = true) ∧
        (row.executorState ≠ .crashed → db.events.next ≤ maxRowId) := by
  have hmatches : SessionUpdate.detectCrash.matches row = true ↔
      row.workerId.isSome = true ∨ row.commandToken.isSome = true := by
    simp [SessionUpdate.matches]
  unfold Write.run
  cases hfault : env.fault with
  | some fault => exact ⟨fun h => (by cases h), fun h => (by cases h.1)⟩
  | none =>
      refine Tx.commit_post (P := fun (r : Except Rejected Unit) _ => r = .ok () ↔ _ ∧ _ ∧ _) ?_
      show Tx.wp (Transition.detectCrash env session) _ _ _
      unfold Transition.detectCrash
      refine DbTx.seq_execution (fun _ _ => ?_) fun hno => by rw [hx] at hno; cases hno
      refine DbTx.seq_session (fun current hcurrent => ?_) fun hno => by rw [hrow] at hno; cases hno
      obtain rfl := Option.some.inj (hrow.symm.trans hcurrent)
      refine DbTx.seq_updateSession (fun row' hrow' hm => ?_) fun hno => ?_
      · obtain rfl := Option.some.inj (hrow.symm.trans hrow')
        have hheld := hmatches.mp hm
        rw [Tx.wp_bind, Tx.wp_when]
        refine ⟨fun hstate => ?_, fun hstate => ?_⟩
        · -- the row that the event names is still there, and of this execution
          have hthere : ∀ j ∈ some session.id, ∃ s ∈ (db.updateSession session.id .detectCrash).session? j,
              s.executionId = session.executionId := by
            intro j hj
            obtain rfl := Option.some.inj hj
            rw [Db.session?_updateSession, if_pos rfl, hrow]
            exact ⟨_, rfl, ((SessionUpdate.apply_identity _ row).2.1).trans hexec⟩
          rw [Tx.wp_bind, DbTx.wp_insertEvent]
          refine ⟨fun hroom => ⟨fun _ => ⟨rfl, hheld, fun _ => hroom.2⟩, fun _ => rfl⟩, fun hno => ?_⟩
          exact ⟨fun h => (by cases h), fun h => absurd ⟨hthere, h.2.2 (by simpa using hstate)⟩ hno⟩
        · exact ⟨fun _ => ⟨rfl, hheld, fun h => absurd h (by simpa using hstate)⟩, fun _ => rfl⟩
      · refine ⟨fun h => (by cases h), fun h => ?_⟩
        rw [(Db.affects_iff).mpr ⟨row, hrow, hmatches.mpr h.2.1⟩] at hno
        cases hno

end AgentBeacon
