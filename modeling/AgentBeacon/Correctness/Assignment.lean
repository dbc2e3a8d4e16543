import AgentBeacon.System.Commands

/-!
# `Correctness.Assignment` — a session's work is handed out once

`issue_assign` and `issue_feed_turn` commit only on what their own transaction finds, whatever row
the request had read: a running session without a command, in a live execution. A row leaves the
queue with the command that carries it and not otherwise, and a session never has two assignments
outstanding.
-/

namespace AgentBeacon
open Relational Transaction Interleave Reconciler

/-! ## What left the queue -/

/-- `task` is what `db'` lacks of the queue of `db`, and nothing was added. -/
def Popped (db db' : Db) (task : Option TaskRow) : Prop :=
  (∀ t ∈ db.taskQueue.rows, t ∉ db'.taskQueue.rows ↔ task = some t) ∧
  ∀ t ∈ db'.taskQueue.rows, t ∈ db.taskQueue.rows

theorem nextTask_mem {db : Db} {choice : Nat} {id : SessionId} {t : TaskRow}
    (h : nextTask db choice id = some t) : t ∈ db.taskQueue.rows ∧ t.sessionId = id :=
  Db.mem_tasksOf.mp (firstBy_eq_some h).1

theorem Issued.queue_popped {session : Session} {u : SessionUpdate} {task : Option TaskRow} {env : Env}
    {db db' : Db} (h : Issued session u task env db db') : Popped db db' task := by
  have hrows : ∀ t, t ∈ db'.taskQueue.rows ↔
      t ∈ db.taskQueue.rows ∧ ∀ t' ∈ task, t.id ≠ t'.id := by
    intro t
    rw [h.queue]
    cases task with
    | none => simp [without]
    | some t' => simp [without, AutoTable.rows_deleteWhere, List.mem_filter]
  refine ⟨fun t ht => ?_, fun t ht => ((hrows t).mp ht).1⟩
  rw [hrows]
  constructor
  · intro hgone
    cases htask : task with
    | none => simp [htask, ht] at hgone
    | some t' =>
        simp only [htask, ht, Option.mem_def, Option.some.injEq, forall_eq', ne_eq, true_and,
          not_not] at hgone
        have ht' : t' ∈ db.taskQueue.rows := (nextTask_mem (h.popped.trans htask)).1
        rw [db.taskQueue.eq_of_key_eq ht' ht hgone.symm]
  · rintro rfl hstays
    exact hstays.2 t rfl rfl

/-! ## The claim -/

/-- The call asks for the session's work: an assignment, or the next turn of a worker. -/
def AsksForWork (e : Event scheduler) (session : Session) : Prop :=
  (∃ resume worker, e.op = Op.write (.issueAssign session resume worker)) ∨
    e.op = Op.write (.issueFeedTurn session)

/-- What a call found that handed out a session's work, and what it took and left: `task` is the queue row
its command carries, and the session's row has the command's token. -/
structure HandsOut (e : Event scheduler) (session : Session) (task : Option TaskRow) : Prop where
  found : ∃ row, (before e).session? session.id = some row ∧ row.desired = .run ∧
    row.commandToken = none ∧ ∃ x, (before e).execution? row.executionId = some x ∧
      x.desired = .run ∧ x.outcome = none
  carries : ∃ token action, commandOf e = some (token, action) ∧
    action.payload = task.map TaskRow.taskPayload ∧
    ∃ row, (after e).session? session.id = some row ∧ row.commandToken = some token
  own : ∀ t ∈ task, t.sessionId = session.id
  popped : Popped (before e) (after e) task

/-- An assignment of the session that the session's row still names. -/
def OutstandingAssign (history : History) (e : Event scheduler) (id : SessionId) : Prop :=
  e ∈ history ∧ ∃ session resume worker token action row,
    e.op = Op.write (.issueAssign session resume worker) ∧ session.id = id ∧
    commandOf e = some (token, action) ∧ (current history).session? id = some row ∧
    row.commandToken = some token

/-- The snapshot of a call names the execution of the row it meets. -/
theorem execution_of_snapshot {earlier : History} (hr : Reachable earlier) {session row : Session}
    (hseen : Seen earlier session) (hrow : (current earlier).session? session.id = some row) :
    row.executionId = session.executionId :=
  (hr.identity hseen (Db.mem_of_session? hrow) (Db.id_of_session? hrow)).1

/-- A call that asks for work, in a disciplined history, hands out a session's work or does nothing;
an assignment is handed out for an unassigned session only. -/
theorem handsOut_of_asks {history : History} (h : Trace disciplined history) {e : Event scheduler}
    (he : e ∈ history) {session : Session} (hask : AsksForWork e session) :
    (commandOf e = none ∧ after e = before e) ∨ ∃ task, HandsOut e session task ∧
      ∀ resume worker, e.op = Op.write (.issueAssign session resume worker) →
        ∃ row, (before e).session? session.id = some row ∧ row.executorState = .unassigned := by
  rcases hask with ⟨resume, worker, hop⟩ | hop
  · obtain ⟨earlier, -, hr, -, hbefore, hseen, -⟩ := proper_of_mem h he hop
    rcases issueAssign_spec (envOf e) session resume worker (before e) with hnone | hsome
    · exact .inl ⟨(commandOf_write hop).trans hnone.1, (after_write hop).trans hnone.2⟩
    · obtain ⟨task, action, hcommand, hpayload, hissued⟩ := hsome
      obtain ⟨row, hrow, hm⟩ := hissued.row
      obtain ⟨hrun, hfree, hstate⟩ := assign_matches hm
      obtain ⟨x, hx, hlive⟩ := hissued.alive
      have hexec := execution_of_snapshot hr.of_cons.1 hseen (hbefore ▸ hrow)
      refine .inr ⟨task, ⟨⟨row, hrow, hrun, hfree, x, hexec ▸ hx, hlive⟩,
        ⟨_, action, (commandOf_write hop).trans hcommand, hpayload, _,
          (after_write hop).symm ▸ hissued.session hrow hm, rfl⟩,
        fun t ht => (nextTask_mem (hissued.popped.trans ht)).2, ?_⟩, fun _ _ _ => ⟨row, hrow, hstate⟩⟩
      · rw [after_write hop]; exact hissued.queue_popped
  · obtain ⟨earlier, -, hr, -, hbefore, hseen⟩ := proper_of_mem h he hop
    rcases issueFeedTurn_spec (envOf e) session (before e) with hnone | hsome
    · exact .inl ⟨(commandOf_write hop).trans hnone.1, (after_write hop).trans hnone.2⟩
    · obtain ⟨task, action, hcommand, hpayload, hissued⟩ := hsome
      obtain ⟨row, hrow, hm⟩ := hissued.row
      obtain ⟨hrun, hfree, -⟩ := feedTurn_matches hm
      obtain ⟨x, hx, hlive⟩ := hissued.alive
      have hexec := execution_of_snapshot hr.of_cons.1 hseen (hbefore ▸ hrow)
      refine .inr ⟨some task, ⟨⟨row, hrow, hrun, hfree, x, hexec ▸ hx, hlive⟩,
        ⟨_, action, (commandOf_write hop).trans hcommand, hpayload, _,
          (after_write hop).symm ▸ hissued.session hrow hm, rfl⟩,
        fun t ht => (nextTask_mem (hissued.popped.trans ht)).2, ?_⟩, fun _ _ hassign => ?_⟩
      · rw [after_write hop]; exact hissued.queue_popped
      · rw [hop] at hassign; cases hassign

/-- The token of an assignment is the identifier its transaction drew. -/
theorem token_of_assign {e : Event scheduler} {session : Session} {resume : Bool}
    {worker : Option WorkerId} (hop : e.op = Op.write (.issueAssign session resume worker))
    {token : String} {action : CommandAction} (h : commandOf e = some (token, action)) :
    token = (envOf e).uuid := by
  rw [commandOf_write hop] at h
  rcases issueAssign_spec (envOf e) session resume worker (before e) with ⟨hnone, -⟩ | hsome
  · rw [hnone] at h; cases h
  · obtain ⟨_, _, hcommand, -⟩ := hsome
    rw [hcommand] at h
    exact (congrArg Prod.fst (Option.some.inj h)).symm

/-- **A session's work is handed out once.** In every interleaving of the scheduler, a call that asks
for a session's work either changes nothing and hands out no command, or found the session running,
without a command, in a live execution, took from the queue exactly the row its command carries, and left
the command's token on the session; an assignment found the session unassigned. And no session ever has
two assignments outstanding. -/
theorem work_handed_out_once {pool : List (Nat × Request Unit)} {history : History}
    (h : SchedulerRun pool history) :
    (∀ e ∈ history, ∀ session, AsksForWork e session →
      (commandOf e = none ∧ after e = before e) ∨ ∃ task, HandsOut e session task ∧
        ∀ resume worker, e.op = Op.write (.issueAssign session resume worker) →
          ∃ row, (before e).session? session.id = some row ∧ row.executorState = .unassigned) ∧
    ∀ id e e', OutstandingAssign history e id → OutstandingAssign history e' id → e = e' := by
  refine ⟨fun e he session hask => handsOut_of_asks h.disciplined he hask, fun id e e' ho ho' => ?_⟩
  obtain ⟨he, session, resume, worker, token, action, row, hop, -, hcommand, hrow, htoken⟩ := ho
  obtain ⟨he', session', resume', worker', token', action', row', hop', -, hcommand', hrow',
    htoken'⟩ := ho'
  refine h.reachable.uuid_unique he he' hop hop' ?_
  have hsame : row = row' := Option.some.inj (hrow.symm.trans hrow')
  rw [← token_of_assign hop hcommand, ← token_of_assign hop' hcommand']
  exact Option.some.inj (htoken.symm.trans (hsame ▸ htoken'))

/-- A worker asks for work, and is assigned the first execution's root. -/
def syncOf (worker : WorkerId) (ack : Option String) : Route :=
  .workerSync { heartbeatTimeoutSecs := 30, longPollTimeoutSecs := 0 }
    { workerId := worker, executorReport := none, turnResult := none, commandAck := ack }

def claimed : List (Choice (Nat × Route) Env) :=
  opening ++ [.spawn 2 (1, syncOf "w" none), .step 0 (calm 2 ""), .step 0 (calm 2 ""),
    .step 0 (calm 2 ""), .step 0 (calm 2 ""), .step 0 (calm 2 ""), .step 0 (calm 2 ""),
    .step 0 (calm 2 "t5")]

theorem work_handed_out_once_claimed :
    ((historyOf claimed).head?.bind commandOf).map Prod.fst = some "t5" ∧
    (∀ id e e', OutstandingAssign (historyOf claimed) e id →
      OutstandingAssign (historyOf claimed) e' id → e = e') := by
  refine ⟨by decide, ?_⟩
  obtain ⟨pool, hrun⟩ := historyOf_run claimed
  exact (work_handed_out_once hrun).2

end AgentBeacon
