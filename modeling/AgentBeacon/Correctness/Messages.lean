import AgentBeacon.Correctness.Commands
import AgentBeacon.Correctness.CrashDetection
import AgentBeacon.Correctness.Readers
import AgentBeacon.System.Decisions

/-!
# `Correctness.Messages` — where a queued message goes

A message is queued until a command takes it. The command is acknowledged, or lost with a crash, and then the
user is told that a message may have been lost. A crash that the worker reports looks at the command in the
transaction that drops it; a crash that the scheduler detects has looked at a row that it read before.
-/

namespace AgentBeacon
open Relational Transaction Interleave Reconciler

/-! ## A session that is left to run -/

/-- Nobody stops, terminates, recovers or deletes the session. -/
structure LeftToRun (id : SessionId) (e : Event scheduler) : Prop where
  run : ∀ s ∈ (after e).session? id, s.desired = .run
  stop : ∀ session desiredBy parent, e.op = Op.write (.setDesiredStop session desiredBy parent) →
    session.id = id → after e = before e
  recover : ∀ session clear message, e.op = Op.write (.recover session clear message) →
    session.id = id → after e = before e
  stays : (before e).session? id ≠ none → (after e).session? id ≠ none

/-! ## What is taken from the queue -/

namespace Db

variable {P : Permit} {db db' : Db}

/-- **A queued row stays** where it may not be taken and nobody stops its session; only of a session that
is to terminate is the queue drained. -/
theorem Steps.task_stays (h : Steps P db db') {t : TaskRow} (ht : t ∈ db.taskQueue.rows)
    (hs : ∃ s, db.session? t.sessionId = some s ∧ s.desired = .run) (htake : ¬P.dequeue t)
    (hstop : ∀ s desiredBy, s.id = t.sessionId → ¬P.update s (.stop desiredBy))
    (hdrain : ∀ drained, P.drain drained → drained.desired = .terminate ∧
      ∀ s u, P.update s u → s.desired = .run → (u.apply s).desired = .run)
    (hdelete : ∀ db ids, ¬P.delete db ids) : t ∈ db'.taskQueue.rows := by
  -- while the queue may be drained, the session goes on running
  suffices hall : t ∈ db'.taskQueue.rows ∧ ∃ s, db'.session? t.sessionId = some s ∧
      ∀ drained, P.drain drained → s.desired = .run from hall.1
  obtain ⟨s, hs, hruns⟩ := hs
  refine h.keeps (I := fun db => t ∈ db.taskQueue.rows ∧ ∃ s, db.session? t.sessionId = some s ∧
    ∀ drained, P.drain drained → s.desired = .run) ⟨ht, s, hs, fun _ _ => hruns⟩ ?_
  rintro db db' hstep ⟨ht, s, hs, hruns⟩
  have hid := id_of_session? hs
  cases hstep with
  | @updateSession i u hu _ =>
      refine ⟨ht, ?_⟩
      rw [session?_updateSession]
      by_cases hi : t.sessionId = i
      · subst hi
        rw [if_pos rfl, hs]
        exact ⟨_, rfl, fun drained hp => (hdrain drained hp).2 s u (hu s hs) (hruns drained hp)⟩
      · rw [if_neg hi]
        exact ⟨s, hs, hruns⟩
  | @stopSession i desiredBy hu =>
      by_cases hi : t.sessionId = i
      · subst hi
        exact absurd (hu s hs) (hstop s desiredBy hid)
      · refine ⟨List.mem_filter.mpr ⟨ht, by simpa using hi⟩, s, ?_, hruns⟩
        rw [session?_deleteTasks, session?_updateSession, if_neg hi]
        exact hs
  | @insertSession row sessions hins _ _ _ =>
      refine ⟨ht, s, ?_, hruns⟩
      show sessions.find? t.sessionId = some s
      rw [Table.find?_insert? hins]
      have hne : ¬t.sessionId = row.id := by
        intro heq
        have hfree := (Table.insert?_eq_some hins).1
        rw [← heq] at hfree
        exact absurd (hs.symm.trans hfree) (Option.some_ne_none _)
      rw [if_neg hne]
      exact hs
  | deleteSessions hd => exact absurd hd (hdelete _ _)
  | @deleteTasks i hd =>
      have hi : t.sessionId ≠ i := by
        rintro rfl
        have hdrained := hd s hs
        have hends := (hdrain s hdrained).1
        rw [hruns s hdrained] at hends
        cases hends
      exact ⟨List.mem_filter.mpr ⟨ht, by simpa using hi⟩, s, hs, hruns⟩
  | @deleteTask i hd =>
      have hi : t.id ≠ i := fun heq => htake (hd t ht heq)
      exact ⟨List.mem_filter.mpr ⟨ht, by simpa using hi⟩, s, hs, hruns⟩
  | pushTask hrecipient hp => exact ⟨List.mem_append_left _ ht, s, hs, hruns⟩
  | updateExecution hu => exact ⟨ht, s, hs, hruns⟩
  | insertExecution hins hi => exact ⟨ht, s, hs, hruns⟩
  | pushEvent hl => exact ⟨ht, s, hs, hruns⟩
  | agents a b => exact ⟨ht, s, hs, hruns⟩

end Db

/-- The call takes the row from the queue, with a command that it issues to the session. -/
def Takes (e : Event scheduler) (t : TaskRow) : Prop :=
  t ∈ (before e).taskQueue.rows ∧ t ∉ (after e).taskQueue.rows ∧
    (∃ w, e.op = Op.write w) ∧ ∃ s, (after e).session? t.sessionId = some s ∧
      s.commandToken = some (envOf e).uuid ∧ s.commandHasPayload = true

section Calls

variable {e : Event scheduler} {earlier : History} {t : TaskRow}

/-- A command that was issued took the row. -/
theorem takes_of_issued {session : Session} {u : SessionUpdate} {task : Option TaskRow} {w : Write}
    (hw : e.op = Op.write w) (hissued : Issued session u task (envOf e) (before e) (after e))
    (htoken : ∀ row, (u.set row).commandToken = some (envOf e).uuid)
    (hpayload : ∀ row, (u.set row).commandHasPayload = task.isSome)
    (ht : t ∈ (before e).taskQueue.rows) (hgone : t ∉ (after e).taskQueue.rows) : Takes e t := by
  have hqueue := hissued.queue
  cases htask : task with
  | none =>
      rw [htask] at hqueue
      exact absurd (hqueue ▸ ht) hgone
  | some taken =>
      rw [htask] at hqueue
      have hnext := hissued.popped.trans htask
      have hsame : t = taken := by
        by_contra hother
        have hid : ¬t.id = taken.id :=
          fun heq => hother (AutoTable.eq_of_key_eq _ ht (mem_of_nextTask hnext).1 heq)
        refine hgone ?_
        rw [hqueue]
        exact List.mem_filter.mpr ⟨ht, by simpa using hid⟩
      obtain ⟨row, hrow, hmatches⟩ := hissued.row
      have hsession : t.sessionId = session.id := by
        rw [hsame]
        exact (mem_of_nextTask hnext).2
      refine ⟨ht, hgone, ⟨w, hw⟩, u.set row, ?_, htoken row, (hpayload row).trans (by rw [htask]; rfl)⟩
      rw [hsession]
      exact hissued.session hrow hmatches

/-- **A row that goes from the queue of a session that is left to run is taken by a command.** -/
theorem takes_of_gone (hquiet : LeftToRun t.sessionId e) (ht : t ∈ (before e).taskQueue.rows)
    (hs : ∃ s, (before e).session? t.sessionId = some s ∧ s.desired = .run)
    (hgone : t ∉ (after e).taskQueue.rows) : Takes e t := by
  rcases call_effect e with ⟨w, hw, hsteps⟩ | hsame
  · by_cases hassign : ∃ session resume worker, w = .issueAssign session resume worker
    · obtain ⟨session, resume, worker, rfl⟩ := hassign
      have hafter := after_write hw
      rcases issueAssign_spec (envOf e) session resume worker (before e) with
        ⟨-, hsame⟩ | ⟨task, action, -, -, hissued⟩
      · exact absurd (hafter.trans hsame ▸ ht) hgone
      · rw [← hafter] at hissued
        exact takes_of_issued hw hissued (fun _ => rfl) (fun _ => rfl) ht hgone
    by_cases hfeed : ∃ session, w = .issueFeedTurn session
    · obtain ⟨session, rfl⟩ := hfeed
      have hafter := after_write hw
      rcases issueFeedTurn_spec (envOf e) session (before e) with
        ⟨-, hsame⟩ | ⟨task, action, -, -, hissued⟩
      · exact absurd (hafter.trans hsame ▸ ht) hgone
      · rw [← hafter] at hissued
        exact takes_of_issued hw hissued (fun _ => rfl) (fun _ => rfl) ht hgone
    by_cases hdelete : ∃ id, w = .deleteSession id
    · obtain ⟨id, rfl⟩ := hdelete
      have heffect := deleteSession_effect id (envOf e) (before e)
      rw [← after_write hw] at heffect
      rcases heffect with hsame | ⟨n, hdeleted⟩
      · exact absurd (hsame ▸ ht) hgone
      · -- the session stays, so it is none of those that are deleted
        obtain ⟨s, hs, -⟩ := hs
        have hstays := hquiet.stays (by rw [hs]; exact Option.some_ne_none _)
        rw [hdeleted, Db.session?_deleteSessions] at hstays
        have hout : t.sessionId ∉ (before e).subtree n [id] := fun hmem => hstays (if_pos hmem)
        refine absurd ?_ hgone
        rw [hdeleted]
        exact List.mem_filter.mpr ⟨ht, by simpa using hout⟩
    refine absurd (hsteps.task_stays ht hs ?_ ?_ ?_ ?_) hgone
    · rintro (⟨session, resume, worker, rfl, -⟩ | ⟨session, rfl, -⟩)
      · exact hassign ⟨_, _, _, rfl⟩
      · exact hfeed ⟨_, rfl⟩
    · rintro s desiredBy hid ⟨session, parent, rfl, hsession⟩
      exact hgone (hquiet.stop _ _ _ hw (hsession.symm.trans hid) ▸ ht)
    · rintro drained ⟨session, rfl, -, hends⟩
      refine ⟨hends, fun s u hu hruns => ?_⟩
      unfold SessionUpdate.apply
      split
      · cases u with
        | releaseWorker | markParentNotified | handOverWorktree | clearWorktreePath => exact hruns
        | resume => rfl
        | _ => simp [Write.permit, Write.updates] at hu
      · exact hruns
    · exact not_delete fun id heq => hdelete ⟨id, heq⟩
  · exact absurd (hsame ▸ ht) hgone

end Calls

/-! ## How a command with a message leaves its session -/

/-- A crashed session has no command with a message: whatever crashes a session clears its command, and
nothing is assigned or fed to a session that has crashed. -/
theorem Reachable.crashed_empty {history : History} (h : Reachable history) :
    ∀ s ∈ (current history).sessions.rows, s.executorState = .crashed → s.commandHasPayload = false := by
  refine h.rows (fun w env row hrow _ => ?_) fun w env s u hu hs => ?_
  · obtain ⟨_, _, _, _, _, _, _, _, rfl, -⟩ := hrow
    rfl
  · unfold SessionUpdate.apply
    split
    · rename_i hmatches
      intro hcrashed
      cases u with
      | reportCrashed | detectCrash | clearCrashedCommand | ack | ackTerminalCancel | recover | stopTurn
      | cancel => rfl
      | assign token now payload worker =>
          have hstate : s.executorState = .crashed := hcrashed
          rw [(assign_matches hmatches).2.2] at hstate
          cases hstate
      | feedTurn token now worker =>
          have hstate : s.executorState = .crashed := hcrashed
          rcases (feedTurn_matches hmatches).2.2.2.2 with hrunning | hidle
          · rw [hrunning] at hstate
            cases hstate
          · rw [hidle] at hstate
            cases hstate
      | reportState worker state =>
          obtain ⟨session, crashMeta, -, -, hother⟩ := hu
          exact absurd hcrashed hother
      | reportIdle | retryRecovery => cases hcrashed
      | _ => exact hs hcrashed
    · exact hs

/-- A stop or a cancellation does nothing to the command of a session that is to run. -/
theorem command_of_runs {w : Write} {env : Env} {s s' : Session}
    (hw : (∃ session, w = .issueStopTurn session) ∨ ∃ session, w = .issueCancel session)
    (h : Db.RowSteps (w.permit env) s s') (hrun : s.desired = .run) :
    s'.commandToken = s.commandToken ∧ s'.commandHasPayload = s.commandHasPayload := by
  have hkept : s'.desired = .run ∧ s'.commandToken = s.commandToken ∧
      s'.commandHasPayload = s.commandHasPayload := by
    refine h.keeps (I := fun t => t.desired = .run ∧ t.commandToken = s.commandToken ∧
      t.commandHasPayload = s.commandHasPayload) ⟨hrun, rfl, rfl⟩ fun t u hu ht => ?_
    obtain ⟨hruns, hsame⟩ := ht
    unfold SessionUpdate.apply
    split
    · rename_i hmatches
      cases u with
      | stopTurn =>
          have hstops := (stopTurn_matches hmatches).1
          rw [hruns] at hstops
          cases hstops
      | cancel =>
          have hends := (cancel_matches hmatches).1
          rw [hruns] at hends
          cases hends
      | resume => exact ⟨rfl, hsame⟩
      | handOverWorktree | clearWorktreePath => exact ⟨hruns, hsame⟩
      | _ => rcases hw with ⟨session, rfl⟩ | ⟨session, rfl⟩ <;> simp [Write.permit, Write.updates] at hu
    · exact ⟨hruns, hsame⟩
  exact hkept.2

/-- The call carries the acknowledgement of the command, from the worker that owns the session. -/
def Acknowledges (e : Event scheduler) (id : SessionId) (token : String) : Prop :=
  ∃ executionId request held notify parent,
    e.op = Op.write (.resultTx executionId request held notify parent) ∧
    request.commandAck = some token ∧ ∃ s ∈ (before e).session? id, s.workerId = some request.workerId

section Leaving

variable {e : Event scheduler} {earlier : History} {id : SessionId} {token : String}

/-- **A command with a message stays, or is acknowledged, or the session crashes.** -/
theorem command_goes (h : Reachable (e :: earlier)) (hquiet : LeftToRun id e) {s s' : Session}
    (hs : (before e).session? id = some s) (hrun : s.desired = .run)
    (hs' : (after e).session? id = some s') (htoken : s.commandToken = some token)
    (hpayload : s.commandHasPayload = true) :
    (s'.commandToken = some token ∧ s'.commandHasPayload = true) ∨ Acknowledges e id token ∨
      (∃ session worker crashMeta, e.op = Op.write (.setExecutorState session .crashed worker crashMeta) ∧
        session.id = id) ∨
      ∃ session decidedOn noticed, e.op = Op.write (.detectCrash session decidedOn noticed) ∧
        session.id = id := by
  have hid := Db.id_of_session? hs
  have hsame (hafter : after e = before e) : s'.commandToken = some token ∧ s'.commandHasPayload = true := by
    rw [hafter, hs] at hs'
    obtain rfl := Option.some.inj hs'
    exact ⟨htoken, hpayload⟩
  rcases call_effect e with ⟨w, hw, -⟩ | hafter
  · have hmem := Db.mem_of_session? hs
    have hrow := rowSteps_of_call h hw hmem (hid.symm ▸ hs')
    by_cases hurgent : (∃ session, w = .issueStopTurn session) ∨ ∃ session, w = .issueCancel session
    · obtain ⟨hkept, hkept'⟩ := command_of_runs hurgent hrow hrun
      exact .inl ⟨hkept.trans htoken, hkept'.trans hpayload⟩
    have hescalates : escalates w s = true := by
      unfold escalates
      split
      · exact absurd (.inl ⟨_, rfl⟩) hurgent
      · exact absurd (.inr ⟨_, rfl⟩) hurgent
      · rfl
    have hreach := h.of_cons.1
    rw [h.of_cons.2.1] at hmem
    rcases command_of_rowSteps hrow htoken hescalates (hreach.canceled s hmem) with hstill | hdeparts
    · exact .inl ⟨hstill.token.trans htoken, hstill.payload.trans hpayload⟩
    unfold departs at hdeparts
    split at hdeparts
    · rename_i executionId request held notify parent
      obtain ⟨hack, hworker⟩ := of_decide_eq_true hdeparts
      exact .inr (.inl ⟨_, request, _, _, _, hw, hack, s, hs, hworker⟩)
    · rename_i session worker crashMeta
      exact .inr (.inr (.inl ⟨session, _, _, hw, (of_decide_eq_true hdeparts).trans hid⟩))
    · rename_i session decidedOn noticed
      exact .inr (.inr (.inr ⟨session, _, _, hw, (of_decide_eq_true hdeparts).trans hid⟩))
    · -- what the repair clears carries no message
      have hempty := hreach.crashed_empty s hmem (of_decide_eq_true hdeparts).2
      rw [hpayload] at hempty
      cases hempty
    · rename_i session clear message
      exact .inl (hsame (hquiet.recover _ _ _ hw ((of_decide_eq_true hdeparts).trans hid)))
    · exact absurd (.inl ⟨_, rfl⟩) hurgent
    · exact absurd (.inr ⟨_, rfl⟩) hurgent
    · cases hdeparts
  · exact .inl (hsame hafter)

end Leaving

/-! ## Notices -/

/-- The event tells the user that a message may have been lost; it is no older than `since`. -/
def TellsLoss (row : EventRow) (id : SessionId) (since : Nat) : Prop :=
  row.sessionId = some id ∧ row.eventType = .platform ∧ row.payload = Transition.lossNotice ∧ since ≤ row.id

/-- **A reported crash tells of the message that it drops**, or changes nothing. -/
theorem reportCrashed_tells (env : Env) {db : Db} {session s : Session} (worker : WorkerId)
    (crashMeta : Option Transition.CrashMeta) (hs : db.session? session.id = some s)
    (hpayload : s.commandHasPayload = true) :
    let w := Write.setExecutorState session .crashed worker crashMeta
    (w.run env db).2 = db ∨
      ∃ row ∈ (w.run env db).2.events.rows, TellsLoss row session.id db.events.next := by
  refine rejecting_post (m := fun env => Transition.setExecutorState env session .crashed worker crashMeta)
    (P := fun _ db' => db' = db ∨ ∃ row ∈ db'.events.rows, TellsLoss row session.id db.events.next)
    (fun _ => .inl rfl) ?_
  unfold Transition.setExecutorState
  refine DbTx.seq_execution (fun _ _ => ?_) fun _ => .inl rfl
  refine DbTx.seq_session (fun current hcurrent => ?_) fun _ => .inl rfl
  obtain rfl := Option.some.inj (hs.symm.trans hcurrent)
  refine Tx.seq (Q := fun _ db' => ∃ row ∈ db'.events.rows, TellsLoss row session.id db.events.next) ?_ ?_
  · rw [Tx.wp_when]
    refine ⟨fun _ => ?_, fun hno => absurd hpayload hno⟩
    rw [Tx.wp_bind, DbTx.wp_insertEvent]
    refine ⟨fun _ => ?_, fun _ => .inl rfl⟩
    refine ⟨⟨db.events.next, session.executionId, some session.id, .platform, Transition.lossNotice, none,
      env.now⟩, List.mem_append_right _ List.mem_cons_self, rfl, rfl, rfl, Nat.le_refl _⟩
  · rintro - db' ⟨row, hrow, htells⟩
    refine DbTx.seq_updateSession (fun _ _ _ => ?_) fun _ => .inl rfl
    refine Tx.seq (Q := fun _ db' => ∃ row ∈ db'.events.rows, TellsLoss row session.id db.events.next) ?_
      fun _ db' htold => .inr htold
    rw [Tx.wp_when, Tx.wp_bind, DbTx.wp_insertEvent]
    exact ⟨fun _ => ⟨fun _ => ⟨row, List.mem_append_left _ hrow, htells⟩, fun _ => .inl rfl⟩,
      fun _ => ⟨row, hrow, htells⟩⟩

/-- A notice that was written is in the log. -/
theorem notice_tells (env : Env) (db : Db) (executionId : ExecutionId) (id : SessionId) {n : Nat}
    (hok : ((Write.insertLocked executionId (some id) .platform Transition.lossNotice).run env db).1 =
      (.ok n : Except SchedulerError Nat)) :
    ∃ row ∈ ((Write.insertLocked executionId (some id) .platform Transition.lossNotice).run env
      db).2.events.rows, TellsLoss row id db.events.next := by
  refine scheduling_post
    (m := fun env => Creation.insertLocked env executionId (some id) .platform Transition.lossNotice)
    (P := fun reply db' => reply = .ok n → ∃ row ∈ db'.events.rows, TellsLoss row id db.events.next)
    (fun _ _ h => by cases h) ?_ hok
  unfold Creation.insertLocked
  refine DbTx.seq_execution (fun _ _ => ?_) fun _ h => by cases h
  rw [Tx.wp_bind, DbTx.wp_insertEvent]
  refine ⟨fun _ _ => ?_, fun _ h => by cases h⟩
  exact ⟨⟨db.events.next, executionId, some id, .platform, Transition.lossNotice, none, env.now⟩,
    List.mem_append_right _ List.mem_cons_self, rfl, rfl, rfl, Nat.le_refl _⟩

/-- What is told of a session that is left to run stays. -/
theorem told_stays {e : Event scheduler} {id : SessionId} (hquiet : LeftToRun id e)
    (hs : (before e).session? id ≠ none) {row : EventRow} (hrow : row ∈ (before e).events.rows)
    (hid : row.sessionId = some id) : row ∈ (after e).events.rows := by
  rcases call_effect e with ⟨w, hw, hsteps⟩ | hsame
  · by_cases hdelete : ∃ id, w = .deleteSession id
    · obtain ⟨deleted, rfl⟩ := hdelete
      have hafter := after_write hw
      rcases deleteSession_effect deleted (envOf e) (before e) with hsame | ⟨n, hgone⟩
      · exact hafter.trans hsame ▸ hrow
      · have hstays := hquiet.stays hs
        rw [hafter, hgone, Db.session?_deleteSessions] at hstays
        have hout : id ∉ (before e).subtree n [deleted] := fun hmem => hstays (if_pos hmem)
        rw [hafter, hgone]
        exact List.mem_filter.mpr ⟨hrow, by simp [hid, hout]⟩
    · exact hsteps.event_stays (not_delete fun id heq => hdelete ⟨id, heq⟩) hrow
  · exact hsame ▸ hrow

/-! ## The order of calls -/

/-- Of two calls of a history, one comes first. -/
theorem suffix_cases {history o o' : History} {e e' : Event scheduler} (h : (e :: o) <:+ history)
    (h' : (e' :: o') <:+ history) : (e = e' ∧ o = o') ∨ (e :: o) <:+ o' ∨ (e' :: o') <:+ o := by
  rcases List.suffix_or_suffix_of_suffix h h' with hs | hs
  · rcases List.suffix_cons_iff.mp hs with heq | hs
    · exact .inl (List.cons.inj heq)
    · exact .inr (.inl hs)
  · rcases List.suffix_cons_iff.mp hs with heq | hs
    · obtain ⟨he, ho⟩ := List.cons.inj heq
      exact .inl ⟨he.symm, ho.symm⟩
    · exact .inr (.inr hs)

theorem drawn_mono {history past : History} (h : Reachable history) (hs : past <:+ history) :
    drawnIn past ⊆ drawnIn history := by
  induction history with
  | nil => exact List.suffix_nil.mp hs ▸ fun _ ht => ht
  | cons e history ih =>
      rcases List.suffix_cons_iff.mp hs with rfl | hs
      · exact fun _ h => h
      · exact fun token ht => h.drawn_cons.1 (ih h.of_cons.1 hs ht)

/-- What has been logged in a history was logged no later. -/
theorem next_le {history : History} {e : Event scheduler} (h : Reachable history) (he : e ∈ history) :
    (after e).events.next ≤ (current history).events.next := by
  induction history with
  | nil => cases he
  | cons e₀ history ih =>
      rcases List.mem_cons.mp he with rfl | he
      · exact Nat.le_refl _
      · exact (ih h.of_cons.1 he).trans h.call_logged.1

/-- A row that has been taken from the queue does not come back. -/
theorem not_queued {history : History} {e : Event scheduler} {t : TaskRow} (h : Reachable history)
    (he : e ∈ history) (ht : t ∈ (before e).taskQueue.rows) (hgone : t ∉ (after e).taskQueue.rows) :
    t ∉ (current history).taskQueue.rows := by
  suffices hall : t ∉ (current history).taskQueue.rows ∧ t.id < (current history).taskQueue.next from hall.1
  have hsteps : ∀ e : Event scheduler, (before e).taskQueue.next ≤ (after e).taskQueue.next ∧
      ∀ t ∈ (after e).taskQueue.rows, t ∈ (before e).taskQueue.rows ∨ (before e).taskQueue.next ≤ t.id := by
    intro e
    rcases call_effect e with ⟨w, -, hsteps⟩ | hsame
    · exact hsteps.queued
    · rw [hsame]
      exact ⟨Nat.le_refl _, fun t ht => .inl ht⟩
  induction history with
  | nil => cases he
  | cons e₀ history ih =>
      rcases List.mem_cons.mp he with rfl | he
      · exact ⟨hgone, ((before e).taskQueue.bounded t ht).trans_le (hsteps e).1⟩
      · obtain ⟨hnot, hlt⟩ := ih h.of_cons.1 he
        obtain ⟨hnext, hrows⟩ := hsteps e₀
        rw [h.of_cons.2.1] at hnext hrows
        refine ⟨fun hmem => ?_, hlt.trans_le hnext⟩
        rcases hrows t hmem with hold | hyoung
        · exact hnot hold
        · exact absurd hlt (Nat.not_lt.mpr hyoung)

/-- The command with this token leaves the session. -/
def Leaves (e : Event scheduler) (id : SessionId) (token : String) : Prop :=
  (∃ s, (before e).session? id = some s ∧ s.commandToken = some token) ∧
    ∀ s, (after e).session? id = some s → s.commandToken ≠ some token

/-- A command that has left its session does not come back. -/
theorem token_gone {history : History} {e : Event scheduler} {id : SessionId} {token : String}
    (h : Reachable history) (he : e ∈ history) (hleaves : Leaves e id token) :
    ∀ s, (current history).session? id = some s → s.commandToken ≠ some token := by
  suffices hall : (∀ s, (current history).session? id = some s → s.commandToken ≠ some token) ∧
      id ∈ drawnIn history ∧ token ∈ drawnIn history from hall.1
  induction history with
  | nil => cases he
  | cons e₀ history ih =>
      obtain ⟨hr, hbefore, hfresh⟩ := h.of_cons
      have hmono := h.drawn_cons.1
      rcases List.mem_cons.mp he with rfl | he
      · obtain ⟨⟨s, hs, htoken⟩, hgone⟩ := hleaves
        rw [hbefore] at hs
        obtain ⟨hid, hdrawn⟩ := hr.drawn s (Db.mem_of_session? hs)
        exact ⟨hgone, hmono (Db.id_of_session? hs ▸ hid), hmono (hdrawn token htoken)⟩
      · obtain ⟨hgone, hid, hdrawn⟩ := ih hr he
        refine ⟨fun s' hs' => ?_, hmono hid, hmono hdrawn⟩
        rcases call_effect e₀ with ⟨w, hw, hsteps⟩ | hsame
        · have hsid := Db.id_of_session? hs'
          rcases hsteps.descends (Db.mem_of_session? hs') with ⟨s, hs, hrow⟩ | ⟨row, hinserted, hrow⟩
          · rw [hbefore, hsid] at hs
            refine hrow.keeps (I := fun t => t.commandToken ≠ some token) (hgone s hs)
              fun t u hu ht htoken => ?_
            rcases Reachable.token_of_update hu htoken with hold | rfl
            · exact ht hold
            · exact hfresh w hw hdrawn
          · obtain ⟨_, _, _, _, _, _, _, _, rfl, -⟩ := hinserted
            have huuid : (envOf e₀).uuid = id := hrow.identity.1.symm.trans hsid
            exact absurd (huuid ▸ hid) (hfresh w hw)
        · rw [current_cons, hsame, hbefore] at hs'
          exact hgone s' hs'

/-- A row goes from the queue once. -/
theorem gone_once {history : History} {e e' : Event scheduler} {t : TaskRow} (h : Reachable history)
    (he : e ∈ history) (he' : e' ∈ history)
    (ht : t ∈ (before e).taskQueue.rows ∧ t ∉ (after e).taskQueue.rows)
    (ht' : t ∈ (before e').taskQueue.rows ∧ t ∉ (after e').taskQueue.rows) : e = e' := by
  obtain ⟨o, hs, hr⟩ := h.of_mem he
  obtain ⟨o', hs', hr'⟩ := h.of_mem he'
  have hnot {x y : Event scheduler} {past : History}
      (hx : t ∈ (before x).taskQueue.rows ∧ t ∉ (after x).taskQueue.rows)
      (hy : t ∈ (before y).taskQueue.rows) (hxmem : x ∈ past) (hy' : Reachable (y :: past)) : False := by
    refine not_queued hy'.of_cons.1 hxmem hx.1 hx.2 ?_
    rw [← hy'.of_cons.2.1]
    exact hy
  rcases suffix_cases hs hs' with ⟨heq, -⟩ | hearlier | hlater
  · exact heq
  · exact (hnot ht ht'.1 (hearlier.subset List.mem_cons_self) hr').elim
  · exact (hnot ht' ht.1 (hlater.subset List.mem_cons_self) hr).elim

/-- **A row is taken once.** -/
theorem takes_unique {history : History} {e e' : Event scheduler} {t : TaskRow} (h : Reachable history)
    (he : e ∈ history) (he' : e' ∈ history) (htakes : Takes e t) (htakes' : Takes e' t) : e = e' :=
  gone_once h he he' ⟨htakes.1, htakes.2.1⟩ ⟨htakes'.1, htakes'.2.1⟩

/-- **A command leaves once.** -/
theorem leaves_unique {history : History} {e e' : Event scheduler} {id : SessionId} {token : String}
    (h : Reachable history) (he : e ∈ history) (he' : e' ∈ history) (hleaves : Leaves e id token)
    (hleaves' : Leaves e' id token) : e = e' := by
  obtain ⟨o, hs, hr⟩ := h.of_mem he
  obtain ⟨o', hs', hr'⟩ := h.of_mem he'
  have hnot {x y : Event scheduler} {past : History} (hx : Leaves x id token) (hy : Leaves y id token)
      (hxmem : x ∈ past) (hy' : Reachable (y :: past)) : False := by
    obtain ⟨⟨s, hs, htoken⟩, -⟩ := hy
    rw [hy'.of_cons.2.1] at hs
    exact token_gone hy'.of_cons.1 hxmem hx s hs htoken
  rcases suffix_cases hs hs' with ⟨heq, -⟩ | hearlier | hlater
  · exact heq
  · exact (hnot hleaves hleaves' (hearlier.subset List.mem_cons_self) hr').elim
  · exact (hnot hleaves' hleaves (hlater.subset List.mem_cons_self) hr).elim

/-! ## Where a message is -/

/-- The places of a queued message: in the queue, with the command that took it, acknowledged with that
command, or dropped with it. -/
inductive Place where
  | queued
  | outstanding
  | acknowledged
  | dropped
  deriving DecidableEq

/-- How far on its way it is. -/
def Place.rank : Place → Nat
  | .queued => 0
  | .outstanding => 1
  | .acknowledged => 2
  | .dropped => 3

/-- The message is there. One that was dropped with its command has been told of since. -/
def At (history : History) (t : TaskRow) : Place → Prop
  | .queued => t ∈ (current history).taskQueue.rows
  | .outstanding => ∃ e ∈ history, Takes e t ∧ ∃ s, (current history).session? t.sessionId = some s ∧
      s.commandToken = some (envOf e).uuid ∧ s.commandHasPayload = true
  | .acknowledged => ∃ e ∈ history, Takes e t ∧ ∃ e' ∈ history,
      Leaves e' t.sessionId (envOf e).uuid ∧ Acknowledges e' t.sessionId (envOf e).uuid
  | .dropped => ∃ e ∈ history, Takes e t ∧ (∃ e' ∈ history,
      Leaves e' t.sessionId (envOf e).uuid ∧ ¬Acknowledges e' t.sessionId (envOf e).uuid) ∧
      ∃ row ∈ (current history).events.rows, TellsLoss row t.sessionId (after e).events.next

/-- **No message is in two places.** -/
theorem At.unique {history : History} {t : TaskRow} (h : Reachable history) {p q : Place}
    (hp : At history t p) (hq : At history t q) : p = q := by
  -- the call that took it is the same in all of them
  have hqueued {e : Event scheduler} (he : e ∈ history) (htakes : Takes e t) : ¬At history t .queued :=
    not_queued h he htakes.1 htakes.2.1
  have hleft {e : Event scheduler} (he : e ∈ history) (htakes : Takes e t)
      {e' : Event scheduler} (he' : e' ∈ history) (hleaves : Leaves e' t.sessionId (envOf e).uuid) :
      ¬At history t .outstanding := by
    rintro ⟨e₁, he₁, htakes₁, s, hs, htoken, -⟩
    obtain rfl := takes_unique h he he₁ htakes htakes₁
    exact token_gone h he' hleaves s hs htoken
  have hboth : At history t .acknowledged → ¬At history t .dropped := by
    rintro ⟨e, he, htakes, e', he', hleaves, hacks⟩ ⟨e₁, he₁, htakes₁, ⟨e₁', he₁', hleaves₁, hnot⟩, -⟩
    obtain rfl := takes_unique h he he₁ htakes htakes₁
    obtain rfl := leaves_unique h he' he₁' hleaves hleaves₁
    exact hnot hacks
  -- so what comes later in this order excludes what comes before
  have hexcludes {p q : Place} (hp : At history t p) (hq : At history t q) : ¬p.rank < q.rank := by
    intro hlt
    cases p with
    | queued =>
        cases q with
        | queued => exact absurd hlt (by decide)
        | outstanding | acknowledged | dropped =>
            obtain ⟨e, he, htakes, -⟩ := hq
            exact hqueued he htakes hp
    | outstanding =>
        cases q with
        | queued | outstanding => exact absurd hlt (by decide)
        | acknowledged =>
            obtain ⟨e, he, htakes, e', he', hleaves, -⟩ := hq
            exact hleft he htakes he' hleaves hp
        | dropped =>
            obtain ⟨e, he, htakes, ⟨e', he', hleaves, -⟩, -⟩ := hq
            exact hleft he htakes he' hleaves hp
    | acknowledged =>
        cases q with
        | queued | outstanding | acknowledged => exact absurd hlt (by decide)
        | dropped => exact hboth hp hq
    | dropped => cases q <;> exact absurd hlt (by decide)
  rcases Nat.lt_trichotomy p.rank q.rank with hlt | heq | hgt
  · exact absurd hlt (hexcludes hp hq)
  · cases p <;> cases q <;> first | rfl | cases heq
  · exact absurd hgt (hexcludes hq hp)

/-! ## What stays -/

section Staying

variable {history past : History} {id : SessionId}

/-- A session that is left to run runs. -/
theorem runs_of_quiet (hquiet : ∀ e ∈ history, LeftToRun id e) {s : Session}
    (hs : (current history).session? id = some s) : s.desired = .run := by
  cases history with
  | nil => cases hs
  | cons e history => exact (hquiet e List.mem_cons_self).run s hs

/-- It is not deleted. -/
theorem session_later (h : Reachable history) (hquiet : ∀ e ∈ history, LeftToRun id e)
    (hs : past <:+ history) (hexists : (current past).session? id ≠ none) :
    (current history).session? id ≠ none := by
  induction history with
  | nil => exact List.suffix_nil.mp hs ▸ hexists
  | cons e history ih =>
      rcases List.suffix_cons_iff.mp hs with rfl | hs
      · exact hexists
      · refine (hquiet e List.mem_cons_self).stays ?_
        rw [h.of_cons.2.1]
        exact ih h.of_cons.1 (fun e he => hquiet e (List.mem_cons_of_mem _ he)) hs

/-- What is told of it stays. -/
theorem told_later (h : Reachable history) (hquiet : ∀ e ∈ history, LeftToRun id e) (hs : past <:+ history)
    (hexists : (current past).session? id ≠ none) {row : EventRow}
    (hrow : row ∈ (current past).events.rows) (hid : row.sessionId = some id) :
    row ∈ (current history).events.rows := by
  induction history with
  | nil => exact List.suffix_nil.mp hs ▸ hrow
  | cons e history ih =>
      rcases List.suffix_cons_iff.mp hs with rfl | hs
      · exact hrow
      · have hrest := fun e he => hquiet e (List.mem_cons_of_mem _ he)
        have hbefore := h.of_cons.2.1
        have hstill := session_later h.of_cons.1 hrest hs hexists
        have hmem := ih h.of_cons.1 hrest hs
        rw [← hbefore] at hstill hmem
        exact told_stays (hquiet e List.mem_cons_self) hstill hmem hid

/-- A message is queued for a session that is there. -/
theorem Reachable.hasSessions (h : Reachable history) :
    ∀ t ∈ (current history).taskQueue.rows, (current history).session? t.sessionId ≠ none := by
  refine h.keeps (I := fun db => ∀ t ∈ db.taskQueue.rows, db.session? t.sessionId ≠ none)
    (fun t ht => absurd ht List.not_mem_nil) fun w env db db' hstep hdb => ?_
  have hupdate (i : SessionId) (u : SessionUpdate) {t : TaskRow} (ht : t ∈ db.taskQueue.rows) :
      (db.updateSession i u).session? t.sessionId ≠ none := by
    rw [Db.session?_updateSession]
    split
    · rename_i hi
      simpa [← hi] using hdb t ht
    · exact hdb t ht
  intro t ht
  cases hstep with
  | @updateSession i u hu hstop => exact hupdate i u ht
  | @stopSession i desiredBy hu => exact hupdate i _ (List.mem_filter.mp ht).1
  | @insertSession row sessions hins _ _ _ =>
      show sessions.find? t.sessionId ≠ none
      rw [Table.find?_insert? hins]
      split
      · exact Option.some_ne_none _
      · exact hdb t ht
  | @deleteSessions ids hd =>
      obtain ⟨hmem, hkept⟩ := List.mem_filter.mp ht
      have hout : t.sessionId ∉ ids := by simpa using hkept
      rw [Db.session?_deleteSessions, if_neg hout]
      exact hdb t hmem
  | @pushTask executionId i payload source now s hs hp =>
      rcases List.mem_append.mp ht with hold | hnew
      · exact hdb t hold
      · rw [List.mem_singleton.mp hnew]
        show db.session? i ≠ none
        rw [hs]
        exact Option.some_ne_none _
  | deleteTasks hd => exact hdb t (List.mem_filter.mp ht).1
  | deleteTask hd => exact hdb t (List.mem_filter.mp ht).1
  | updateExecution hu => exact hdb t ht
  | insertExecution hins hi => exact hdb t ht
  | pushEvent hl => exact hdb t ht
  | agents a b => exact hdb t ht

end Staying

/-- While a command stays, its message does. -/
theorem payload_of_kept {w : Write} {env : Env} {s s' : Session} {token : String}
    (h : Db.RowSteps (w.permit env) s s') (hpayload : s.commandHasPayload = true)
    (hold : token ≠ env.uuid) : s'.commandToken = some token → s'.commandHasPayload = true := by
  refine h.keeps (I := fun t => t.commandToken = some token → t.commandHasPayload = true)
    (fun _ => hpayload) fun t u hu ht => ?_
  unfold SessionUpdate.apply
  split
  · intro htoken
    cases u with
    | assign | feedTurn | stopTurn | cancel =>
        -- a command that is issued has a token of its own
        have hnew := Option.some.inj htoken
        first
          | (obtain ⟨_, _, _, _, rfl⟩ := hu; exact absurd hnew.symm hold)
          | (obtain ⟨_, _, _, rfl, _⟩ := hu; exact absurd hnew.symm hold)
    | _ => first | exact ht htoken | cases htoken
  · exact ht

/-! ## Detected crashes -/

/-- The crash that a call detects: of which session, decided on which row, and whether the loss notice that
went with the decision was written. -/
def detected (e : Event scheduler) : Option (Session × Session × Bool) :=
  match (e.op : Op) with
  | .write (.detectCrash session decidedOn noticed) => some (session, decidedOn, noticed)
  | _ => none

/-- If the call finds a command with a message, then the crash was decided on that command, and its notice
was written. -/
def DecidedOnCommand (e : Event scheduler) : Prop :=
  ∀ d ∈ detected e, ∀ s ∈ (before e).session? d.1.id, s.commandHasPayload = true →
    d.2.2 = true ∧ d.2.1.commandToken = s.commandToken

instance (e : Event scheduler) : Decidable (DecidedOnCommand e) :=
  inferInstanceAs (Decidable (∀ d ∈ detected e, ∀ s ∈ (before e).session? d.1.id, _ → _))

theorem TellsLoss.since {row : EventRow} {id : SessionId} {n m : Nat} (h : TellsLoss row id n)
    (hle : m ≤ n) : TellsLoss row id m := ⟨h.1, h.2.1, h.2.2.1, hle.trans h.2.2.2⟩

section Dropping

variable {e e₀ : Event scheduler} {earlier : History} {t : TaskRow}

/-- A notice that went with a decision on the command is younger than the command. -/
theorem told_of_decision (h : Reachable (e :: earlier))
    (hquiet : ∀ x ∈ e :: earlier, LeftToRun t.sessionId x) (he₀ : e₀ ∈ earlier) (htakes : Takes e₀ t)
    {decidedOn : Session} (hid : decidedOn.id = t.sessionId)
    (htoken : decidedOn.commandToken = some (envOf e₀).uuid) (hnoticed : NoticedSince earlier decidedOn) :
    ∃ row ∈ (after e).events.rows, TellsLoss row t.sessionId (after e₀).events.next := by
  have hr := h.of_cons.1
  obtain ⟨e₁, past, hsuffix, ⟨e₂, he₂, hrow₂⟩, hop, n, hok⟩ := hnoticed
  have hpast : past <:+ earlier := (List.suffix_cons e₁ past).trans hsuffix
  have hr₁ : Reachable (e₁ :: past) := hr.of_suffix hsuffix
  obtain ⟨o₀, hs₀, hr₀⟩ := hr.of_mem he₀
  obtain ⟨o₂, hs₂, hr₂⟩ := hr₁.of_cons.1.of_mem he₂
  -- the row was read after the command had been issued, for it carries the token
  rw [hr₂.of_cons.2.1] at hrow₂
  have hdrawn := (hr₂.of_cons.1.drawn decidedOn hrow₂).2 _ htoken
  obtain ⟨w, hw⟩ := htakes.2.2.1
  have hfresh := hr₀.of_cons.2.2 w hw
  have hissued : e₀ ∈ past := by
    rcases suffix_cases hs₀ (hs₂.trans hpast) with ⟨-, rfl⟩ | hafter | hbefore
    · exact absurd hdrawn hfresh
    · exact ((List.suffix_cons e₂ o₂).trans hs₂).subset (hafter.subset List.mem_cons_self)
    · have hless := (List.suffix_cons e₂ o₂).trans hbefore
      exact absurd (drawn_mono hr₀.of_cons.1 hless hdrawn) hfresh
  obtain ⟨row, hrow, htells⟩ := notice_tells (envOf e₁) (before e₁) decidedOn.executionId decidedOn.id hok
  rw [← after_write hop] at hrow
  rw [hr₁.of_cons.2.1, hid] at htells
  refine ⟨row, ?_, htells.since (next_le hr₁.of_cons.1 hissued)⟩
  have hseen : (current o₂).session? t.sessionId ≠ none := by
    rw [← hid, Db.session?_of_mem hrow₂]
    exact Option.some_ne_none _
  have hthere := session_later hr₁ (fun x hx => hquiet x (List.mem_cons_of_mem _ (hsuffix.subset hx)))
    (((List.suffix_cons e₂ o₂).trans hs₂).trans (List.suffix_cons e₁ past)) hseen
  exact told_later h hquiet (hsuffix.trans (List.suffix_cons e earlier)) hthere hrow htells.1

/-- **A command that is dropped with its message is told of.** -/
theorem told_of_drop (h : Trace disciplined (e :: earlier))
    (hquiet : ∀ x ∈ e :: earlier, LeftToRun t.sessionId x) (hdecided : DecidedOnCommand e)
    (he₀ : e₀ ∈ earlier) (htakes : Takes e₀ t) {s : Session}
    (hs : (before e).session? t.sessionId = some s) (htoken : s.commandToken = some (envOf e₀).uuid)
    (hpayload : s.commandHasPayload = true)
    (hgone : ∀ s', (after e).session? t.sessionId = some s' → s'.commandToken ≠ some (envOf e₀).uuid)
    (hnot : ¬Acknowledges e t.sessionId (envOf e₀).uuid) :
    ∃ row ∈ (after e).events.rows, TellsLoss row t.sessionId (after e₀).events.next := by
  have hr := reachable_of_trace h
  have hbefore := hr.of_cons.2.1
  have hquiete := hquiet e List.mem_cons_self
  have hrun : s.desired = .run := by
    rw [hbefore] at hs
    exact runs_of_quiet (fun x hx => hquiet x (List.mem_cons_of_mem _ hx)) hs
  obtain ⟨s', hs'⟩ := Option.ne_none_iff_exists'.mp
    (hquiete.stays (by rw [hs]; exact Option.some_ne_none _))
  have hchanges : after e ≠ before e := by
    intro hsame
    rw [hsame] at hgone
    exact hgone s hs htoken
  rcases command_goes hr hquiete hs hrun hs' htoken hpayload with
    ⟨hkept, -⟩ | hacks | ⟨session, worker, crashMeta, hop, hid⟩ | ⟨session, decidedOn, noticed, hop, hid⟩
  · exact absurd hkept (hgone s' hs')
  · exact absurd hacks hnot
  · have hafter := after_write hop
    rcases reportCrashed_tells (envOf e) worker crashMeta (hid.symm ▸ hs) hpayload with
      hsame | ⟨row, hrow, htells⟩
    · exact absurd (hafter.trans hsame) hchanges
    · rw [← hafter] at hrow
      rw [hid, hbefore] at htells
      exact ⟨row, hrow, htells.since (next_le hr.of_cons.1 he₀)⟩
  · have hproper := h.of_cons.2.1 _ hop
    obtain ⟨-, -, hsame, hnoticed⟩ := hproper
    have hdetected : detected e = some (session, decidedOn, noticed) := by
      unfold detected
      rw [hop]
    obtain ⟨hwritten, hcommand⟩ := hdecided _ hdetected s (hid.symm ▸ hs) hpayload
    exact told_of_decision hr hquiet he₀ htakes (hsame.symm.trans hid) (hcommand.trans htoken)
      (hnoticed hwritten)

end Dropping

/-! ## Whole runs -/

/-- The message has been queued at some point. -/
def Enqueued (history : History) (t : TaskRow) : Prop :=
  ∃ past, past <:+ history ∧ t ∈ (current past).taskQueue.rows

/-- **Every message that was queued is somewhere.** -/
theorem exists_place {history : History} (h : Trace disciplined history) {t : TaskRow}
    (hquiet : ∀ e ∈ history, LeftToRun t.sessionId e) (hdecided : ∀ e ∈ history, DecidedOnCommand e)
    (henqueued : Enqueued history t) : ∃ p, At history t p := by
  induction history with
  | nil =>
      obtain ⟨past, hs, ht⟩ := henqueued
      exact ⟨.queued, List.suffix_nil.mp hs ▸ ht⟩
  | cons e earlier ih =>
      have hr := reachable_of_trace h
      obtain ⟨hr', hbefore, hfresh⟩ := hr.of_cons
      have hquiete := hquiet e List.mem_cons_self
      have hrest := fun x hx => hquiet x (List.mem_cons_of_mem e hx)
      have hmem {x : Event scheduler} (hx : x ∈ earlier) : x ∈ e :: earlier := List.mem_cons_of_mem e hx
      obtain ⟨past, hs, ht⟩ := henqueued
      rcases List.suffix_cons_iff.mp hs with rfl | hs
      · exact ⟨.queued, ht⟩
      obtain ⟨p, hp⟩ := ih h.of_cons.1 hrest (fun x hx => hdecided x (hmem hx)) ⟨past, hs, ht⟩
      cases p with
      | queued =>
          by_cases hstays : t ∈ (after e).taskQueue.rows
          · exact ⟨.queued, hstays⟩
          obtain ⟨s, hs⟩ := Option.ne_none_iff_exists'.mp (hr'.hasSessions t hp)
          have hrun := runs_of_quiet hrest hs
          have hqueued : t ∈ (before e).taskQueue.rows := by
            rw [hbefore]
            exact hp
          rw [← hbefore] at hs
          have htakes := takes_of_gone hquiete hqueued ⟨s, hs, hrun⟩ hstays
          exact ⟨.outstanding, e, List.mem_cons_self, htakes, htakes.2.2.2⟩
      | outstanding =>
          obtain ⟨e₀, he₀, htakes, s, hs, htoken, hpayload⟩ := hp
          rw [← hbefore] at hs
          obtain ⟨s', hs'⟩ := Option.ne_none_iff_exists'.mp
            (hquiete.stays (by rw [hs]; exact Option.some_ne_none _))
          by_cases hkept : s'.commandToken = some (envOf e₀).uuid
          · refine ⟨.outstanding, e₀, hmem he₀, htakes, s', hs', hkept, ?_⟩
            rcases call_effect e with ⟨w, hw, -⟩ | hsame
            · have hid := Db.id_of_session? hs
              obtain ⟨w₀, hw₀⟩ := htakes.2.2.1
              have hdrawn := hr'.uuid_drawn he₀ hw₀
              have hold : (envOf e₀).uuid ≠ (envOf e).uuid := fun heq => hfresh w hw (heq ▸ hdrawn)
              exact payload_of_kept (rowSteps_of_call hr hw (Db.mem_of_session? hs) (hid.symm ▸ hs'))
                hpayload hold hkept
            · rw [hsame, hs] at hs'
              exact Option.some.inj hs' ▸ hpayload
          · have hgone : ∀ s', (after e).session? t.sessionId = some s' →
                s'.commandToken ≠ some (envOf e₀).uuid := by
              intro s'' hs''
              rw [hs'] at hs''
              exact Option.some.inj hs'' ▸ hkept
            have hleaves : Leaves e t.sessionId (envOf e₀).uuid := ⟨⟨s, hs, htoken⟩, hgone⟩
            by_cases hacks : Acknowledges e t.sessionId (envOf e₀).uuid
            · exact ⟨.acknowledged, e₀, hmem he₀, htakes, e, List.mem_cons_self, hleaves, hacks⟩
            · exact ⟨.dropped, e₀, hmem he₀, htakes, ⟨e, List.mem_cons_self, hleaves, hacks⟩,
                told_of_drop h hquiet (hdecided e List.mem_cons_self) he₀ htakes hs htoken hpayload hgone
                  hacks⟩
      | acknowledged =>
          obtain ⟨e₀, he₀, htakes, e₁, he₁, hleaves⟩ := hp
          exact ⟨.acknowledged, e₀, hmem he₀, htakes, e₁, hmem he₁, hleaves⟩
      | dropped =>
          obtain ⟨e₀, he₀, htakes, ⟨e₁, he₁, hleaves⟩, row, hrow, htells⟩ := hp
          refine ⟨.dropped, e₀, hmem he₀, htakes, ⟨e₁, hmem he₁, hleaves⟩, row, ?_, htells⟩
          obtain ⟨s, hs, -⟩ := htakes.2.2.2
          obtain ⟨o, hs₀, -⟩ := hr'.of_mem he₀
          have hthere := session_later hr' hrest hs₀ (by
            show (after e₀).session? t.sessionId ≠ none
            rw [hs]
            exact Option.some_ne_none _)
          rw [← hbefore] at hthere hrow
          exact told_stays hquiete hthere hrow htells.1

/-- **No message is lost or duplicated silently.** In every run of the scheduler, for every session that is
never stopped, terminated, recovered or deleted in it: if every crash that is detected where a command with
a message is outstanding was decided on that command and its notice was written, then every message queued
for the session is in exactly one place. -/
theorem message_in_one_place {pool : List (Nat × Request Unit)} {history : History}
    (h : SchedulerRun pool history) (hdecided : ∀ e ∈ history, DecidedOnCommand e) (id : SessionId)
    (hquiet : ∀ e ∈ history, LeftToRun id e) :
    ∀ t, Enqueued history t → t.sessionId = id → ∃ p, At history t p ∧ ∀ q, At history t q → q = p := by
  rintro t henqueued rfl
  obtain ⟨p, hp⟩ := exists_place h.disciplined hquiet hdecided henqueued
  exact ⟨p, hp, fun q hq => hq.unique h.reachable hp⟩

/-! ## Runs -/

/-- Whom a call stops or recovers. -/
def disturbed (e : Event scheduler) : Option SessionId :=
  match (e.op : Op) with
  | .write (.setDesiredStop session _ _) => some session.id
  | .write (.recover session _ _) => some session.id
  | _ => none

theorem leftToRun_of_checks {id : SessionId} {e : Event scheduler} (hdisturbed : disturbed e ≠ some id)
    (hrun : ∀ s ∈ (after e).session? id, s.desired = .run)
    (hstays : (before e).session? id ≠ none → (after e).session? id ≠ none) : LeftToRun id e where
  run := hrun
  stop session desiredBy parent hop hid := by
    refine absurd ?_ hdisturbed
    unfold disturbed
    rw [hop, ← hid]
  recover session clear message hop hid := by
    refine absurd ?_ hdisturbed
    unfold disturbed
    rw [hop, ← hid]
  stays := hstays

/-- The root works, and its worker is not heard of for a while. A tick finds no command to tell of; before it
says that the worker is gone, a sync of the worker fetches the next message. -/
def fedWhileGivenUp : List (Choice (Nat × Route) Env) :=
  claimed ++ [.drop 0] ++ alone 3 "c" (runningSync "t5") 10 ++
    alone 4 "d" (.postMessage "r" [.textPart "more"] none) 4 ++ [.spawn 100 (0, .tick deployed)] ++
    ((List.range 4).map fun i => .step 0 (calm 100 ("e" ++ toString i))) ++
    beside 101 "f" (syncOf "w" none) 6 ++ [.step 0 (calm 102 "g")]

/-- Which command a call acknowledges. -/
def ackOf (e : Event scheduler) : Option String :=
  match (e.op : Op) with
  | .write (.resultTx _ request _ _ _) => request.commandAck
  | _ => none

/-- **The message is lost, and nobody is told.** -/
theorem message_lost_silently : ¬∀ pool history, SchedulerRun pool history → ∀ id,
    (∀ e ∈ history, LeftToRun id e) → ∀ t, Enqueued history t → t.sessionId = id →
      ∃ p, At history t p ∧ ∀ q, At history t q → q = p := by
  intro hclaim
  obtain ⟨pool, hrun⟩ := historyOf_run fedWhileGivenUp
  have hr := hrun.reachable
  have hquiet : ∀ e ∈ historyOf fedWhileGivenUp, LeftToRun "r" e := by
    have hchecks : ∀ e ∈ historyOf fedWhileGivenUp, disturbed e ≠ some "r" ∧
        (∀ s ∈ (after e).session? "r", s.desired = .run) ∧
        ((before e).session? "r" ≠ none → (after e).session? "r" ≠ none) := by decide +kernel
    exact fun e he => leftToRun_of_checks (hchecks e he).1 (hchecks e he).2.1 (hchecks e he).2.2
  obtain ⟨e, he, t, ht, hid, hids, huuid⟩ : ∃ e ∈ historyOf fedWhileGivenUp,
      ∃ t ∈ (before e).taskQueue.rows, t.sessionId = "r" ∧
        (∀ t' ∈ (after e).taskQueue.rows, t'.id ≠ t.id) ∧ (envOf e).uuid = "f5" := by decide +kernel
  have hgone : t ∉ (after e).taskQueue.rows := fun hmem => hids t hmem rfl
  have htoken : ∀ s ∈ (current (historyOf fedWhileGivenUp)).session? "r", s.commandToken = none := by
    decide +kernel
  have hacks : ∀ e ∈ historyOf fedWhileGivenUp, ackOf e ≠ some "f5" := by decide +kernel
  have htold : ∀ row ∈ (current (historyOf fedWhileGivenUp)).events.rows,
      row.payload ≠ Transition.lossNotice := by decide +kernel
  obtain ⟨past, hs, hre⟩ := hr.of_mem he
  have henqueued : Enqueued (historyOf fedWhileGivenUp) t :=
    ⟨past, (List.suffix_cons e past).trans hs, hre.of_cons.2.1 ▸ ht⟩
  obtain ⟨p, hp, -⟩ := hclaim pool _ hrun "r" hquiet t henqueued hid
  cases p with
  | queued => exact not_queued hr he ht hgone hp
  | outstanding =>
      obtain ⟨e₀, -, -, s, hs, hcommand, -⟩ := hp
      rw [htoken s (hid ▸ hs)] at hcommand
      cases hcommand
  | acknowledged =>
      obtain ⟨e₀, he₀, htakes, e₁, he₁, -, executionId, request, held, notify, parent, hop, hack, -⟩ := hp
      obtain rfl := gone_once hr he he₀ ⟨ht, hgone⟩ ⟨htakes.1, htakes.2.1⟩
      refine hacks e₁ he₁ ?_
      unfold ackOf
      rw [hop]
      exact hack.trans (congrArg some huuid)
  | dropped =>
      obtain ⟨e₀, -, -, -, row, hrow, htells⟩ := hp
      exact htold row hrow htells.2.2.1

/-- The worker is silent with a command outstanding: its message is dropped with it, and the user is told. -/
theorem message_in_one_place_silent :
    (∃ e ∈ historyOf silentWorker, (detected e).isSome = true) ∧
    ∀ t, Enqueued (historyOf silentWorker) t → t.sessionId = "r" →
      ∃ p, At (historyOf silentWorker) t p ∧ ∀ q, At (historyOf silentWorker) t q → q = p := by
  obtain ⟨pool, hrun⟩ := historyOf_run silentWorker
  have hdecided : ∀ e ∈ historyOf silentWorker, DecidedOnCommand e := by decide +kernel
  have hchecks : ∀ e ∈ historyOf silentWorker, disturbed e ≠ some "r" ∧
      (∀ s ∈ (after e).session? "r", s.desired = .run) ∧
      ((before e).session? "r" ≠ none → (after e).session? "r" ≠ none) := by decide +kernel
  exact ⟨by decide +kernel, message_in_one_place hrun hdecided "r" fun e he =>
    leftToRun_of_checks (hchecks e he).1 (hchecks e he).2.1 (hchecks e he).2.2⟩

end AgentBeacon
