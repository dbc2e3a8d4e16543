import AgentBeacon.Correctness.Stranded

/-!
# `Correctness.Readers` — queued messages have a reader

Stopping a session drains its queue in the same transaction, and whoever enqueues for a session that is stopped
resumes it, or has looked before that it is not. Three transactions do neither: the first prompt of an execution,
the first prompt of a child, and the notice to a parent whose resumption has failed.
-/

namespace AgentBeacon
open Relational Transaction Interleave

/-- The delegation passes its own checks: the execution is live and the delegating session runs. -/
def delegates (db : Db) (executionId : ExecutionId) (parentId : SessionId) : Bool :=
  (db.execution? executionId).any (fun x => !(x.desired = .terminate || x.outcome.isSome)) &&
    (db.session? parentId).any fun parent => parent.desired = .run && parent.outcome.isNone

/-- For whom a call enqueues without a look at what the recipient is to do. -/
def enqueuedUnseen (e : Event scheduler) : Option SessionId :=
  match (e.op : Op) with
  | .write (.pushTask _ recipient _) => some recipient
  | .write (.delegate executionId parentId child _ _ _ _) =>
      if delegates (before e) executionId parentId then some child else none
  | .write (.continueFrom _ parentId _ _) => if (envOf e).swallow then some parentId else none
  | _ => none

/-- A call that does not look at the recipient finds it not stopped. -/
def FindsReader (e : Event scheduler) : Prop :=
  ∀ recipient ∈ enqueuedUnseen e, ∀ row ∈ (before e).session? recipient, row.desired ≠ .stop

instance (e : Event scheduler) : Decidable (FindsReader e) :=
  inferInstanceAs (Decidable (∀ recipient ∈ enqueuedUnseen e, ∀ row ∈ (before e).session? recipient,
    row.desired ≠ .stop))

/-- No queued message belongs to a stopped session. -/
def NoneStopped (db : Db) : Prop :=
  ∀ t ∈ db.taskQueue.rows, ∀ s, db.session? t.sessionId = some s → s.desired ≠ .stop

/-- The session, if it exists, is not stopped. -/
def NotStopped (db : Db) (id : SessionId) : Prop := ∀ s, db.session? id = some s → s.desired ≠ .stop

/-- Only `set_desired` stops a session. -/
theorem desired_of_apply {s : Session} {u : SessionUpdate} (hstop : ∀ desiredBy, u ≠ .stop desiredBy)
    (h : (u.apply s).desired = .stop) : s.desired = .stop := by
  unfold SessionUpdate.apply at h
  split at h
  · cases u with
    | stop desiredBy => exact absurd rfl (hstop desiredBy)
    | terminate | run | resume | terminateFailed | repairDesired | recover => cases h
    | _ => exact h
  · exact h

namespace Db

variable {P : Permit} {db db' : Db}

/-- **A statement that stops nobody leaves a session that is not stopped so.** -/
theorem Step.notStopped (h : Step P db db') (hno : ∀ s desiredBy, ¬P.update s (.stop desiredBy))
    (hinsert : ∀ row, P.insert row → row.desired ≠ .stop) {id : SessionId} (hid : NotStopped db id) :
    NotStopped db' id := by
  intro s' hs'
  have hmem := mem_of_session? hs'
  have hrow := id_of_session? hs'
  subst hrow
  rcases h.descends hmem with ⟨s, hs, hrow⟩ | ⟨row, hrow', hrow⟩
  · refine hrow.keeps (I := fun t => t.desired ≠ .stop) (hid s hs) fun t u hu ht hstop =>
      ht (desired_of_apply ?_ hstop)
    rintro desiredBy rfl
    exact hno t desiredBy hu
  · refine hrow.keeps (I := fun t => t.desired ≠ .stop) (hinsert row hrow') fun t u hu ht hstop =>
      ht (desired_of_apply ?_ hstop)
    rintro desiredBy rfl
    exact hno t desiredBy hu

/-- **One statement leaves no message with a stopped session**, if what it enqueues goes to one that
is not stopped. -/
theorem Step.noneStopped (h : Step P db db') (hinsert : ∀ row, P.insert row → row.desired ≠ .stop)
    (henqueue : ∀ s t, db.session? t.sessionId = some s → P.enqueue s t → s.desired ≠ .stop)
    (hdb : NoneStopped db) : NoneStopped db' := by
  intro t ht s' hs'
  cases h with
  | @updateSession id u hu hstop =>
      obtain ⟨s, hs, rfl | ⟨-, rfl⟩⟩ :=
        session?_of_updateSession (P := { P with update := fun _ _ => True }) (fun _ _ => trivial) hs'
      · exact hdb t ht s' hs
      · exact fun h => hdb t ht s hs (desired_of_apply hstop h)
  | @stopSession id desiredBy hu =>
      -- the messages of the session that is stopped are gone
      have hkept := List.mem_filter.mp ht
      have hne : t.sessionId ≠ id := by simpa using hkept.2
      refine hdb t hkept.1 s' ?_
      rw [← session?_updateSession_of_ne db (.stop desiredBy) hne]
      exact hs'
  | @insertSession row sessions hins hexec hparent hi =>
      have hfind : sessions.find? t.sessionId = some s' := hs'
      rw [Table.find?_insert? hins] at hfind
      split at hfind
      · obtain rfl := Option.some.inj hfind
        exact hinsert row hi
      · exact hdb t ht s' hfind
  | @deleteSessions ids hd =>
      have hkept := (List.mem_filter.mp ht).1
      rw [session?_deleteSessions] at hs'
      split at hs'
      · cases hs'
      · exact hdb t hkept s' hs'
  | @pushTask executionId id payload source now s hs hp =>
      rcases List.mem_append.mp ht with hold | hnew
      · exact hdb t hold s' hs'
      · rw [List.mem_singleton] at hnew
        subst hnew
        have hs'' : db.session? id = some s' := hs'
        exact henqueue s' _ hs'' (Option.some.inj (hs.symm.trans hs'') ▸ hp)
  | deleteTasks hd => exact hdb t (List.mem_filter.mp ht).1 s' hs'
  | deleteTask hd => exact hdb t (List.mem_filter.mp ht).1 s' hs'
  | updateExecution hu => exact hdb t ht s' hs'
  | insertExecution hins hi => exact hdb t ht s' hs'
  | pushEvent hl => exact hdb t ht s' hs'
  | agents a b => exact hdb t ht s' hs'

/-- **What is queued after a transaction** was queued before or is younger than everything then. -/
theorem Steps.queued (h : Steps P db db') : db.taskQueue.next ≤ db'.taskQueue.next ∧
    ∀ t ∈ db'.taskQueue.rows, t ∈ db.taskQueue.rows ∨ db.taskQueue.next ≤ t.id := by
  induction h with
  | refl => exact ⟨Nat.le_refl _, fun t ht => .inl ht⟩
  | @tail db₁ db₂ _ hstep ih =>
      obtain ⟨hnext, hrows⟩ := ih
      cases hstep with
      | pushTask hs hp =>
          refine ⟨Nat.le_succ_of_le hnext, fun t ht => ?_⟩
          rcases List.mem_append.mp ht with hold | hnew
          · exact hrows t hold
          · rw [List.mem_singleton.mp hnew]
            exact .inr hnext
      | stopSession hu => exact ⟨hnext, fun t ht => hrows t (List.mem_filter.mp ht).1⟩
      | deleteSessions hd => exact ⟨hnext, fun t ht => hrows t (List.mem_filter.mp ht).1⟩
      | deleteTasks hd => exact ⟨hnext, fun t ht => hrows t (List.mem_filter.mp ht).1⟩
      | deleteTask hd => exact ⟨hnext, fun t ht => hrows t (List.mem_filter.mp ht).1⟩
      | _ => exact ⟨hnext, hrows⟩

end Db

theorem newSession_runs {w : Write} {env : Env} {row : Session} (h : w.inserts env row) :
    row.desired ≠ .stop := by
  obtain ⟨_, _, _, _, _, _, _, _, rfl, -⟩ := h
  intro hstop
  cases hstop

/-- A transaction that enqueues unseen stops nobody. -/
theorem stops_nobody {w : Write} {env : Env} {recipient : SessionId}
    (h : w.enqueuesUnchecked env recipient) (s : Session) (desiredBy : DesiredBy) :
    ¬(w.permit env).update s (.stop desiredBy) := by
  rintro ⟨session, parent, rfl, -⟩
  rcases h with ⟨_, _, hw⟩ | ⟨_, _, _, _, _, _, hw⟩ | ⟨_, _, _, hw, -⟩
  · cases hw
  · cases hw
  · cases hw

/-- **A delegation that fails its checks changes nothing.** -/
theorem delegate_refused {env : Env} {db : Db} {executionId : ExecutionId} {parentId child : SessionId}
    (agentName parentName prompt : String) (payload : Json)
    (h : delegates db executionId parentId = false) :
    ((Write.delegate executionId parentId child agentName parentName prompt payload).run env db).2 = db := by
  refine scheduling_post (P := fun _ db' => db' = db) (fun _ _ => rfl) ?_
  unfold Creation.delegate
  refine DbTx.seq_execution (fun x hx => ?_) fun _ => rfl
  refine DbTx.seq_execution (fun x' hx' => ?_) fun _ => rfl
  refine Tx.seq_require (fun hlive => ?_) fun _ => rfl
  refine DbTx.seq_session (fun parent hparent => ?_) fun _ => rfl
  refine Tx.seq_require (fun hruns => ?_) fun _ => rfl
  simp_all [delegates]

/-- A transaction enqueues for the unseen recipient that it is said to, or does nothing. -/
theorem enqueuedUnseen_of_op {e : Event scheduler} {w : Write} (hw : e.op = Op.write w)
    {recipient : SessionId} (h : w.enqueuesUnchecked (envOf e) recipient) :
    enqueuedUnseen e = some recipient ∨ after e = before e := by
  rcases h with ⟨_, _, rfl⟩ | ⟨executionId, parentId, agentName, parentName, prompt, payload, rfl⟩ |
    ⟨_, _, _, rfl, hswallow⟩
  · refine .inl ?_
    unfold enqueuedUnseen
    rw [hw]
  · cases hpass : delegates (before e) executionId parentId with
    | false =>
        refine .inr ?_
        rw [after_write hw]
        exact delegate_refused agentName parentName prompt payload hpass
    | true =>
        refine .inl ?_
        unfold enqueuedUnseen
        rw [hw]
        exact if_pos hpass
  · refine .inl ?_
    unfold enqueuedUnseen
    rw [hw]
    exact if_pos hswallow

/-- **A transaction leaves no message with a stopped session**, if those that do not look find a reader. -/
theorem noneStopped_call {e : Event scheduler} (hfinds : FindsReader e) (hdb : NoneStopped (before e)) :
    NoneStopped (after e) := by
  by_cases hsame : after e = before e
  · rw [hsame]
    exact hdb
  rcases call_effect e with ⟨w, hw, hsteps⟩ | hno
  · -- the recipients that are not looked at stay readers while the transaction runs
    have hunseen : ∀ recipient, w.enqueuesUnchecked (envOf e) recipient →
        NotStopped (before e) recipient := by
      intro recipient hr s hs
      rcases enqueuedUnseen_of_op hw hr with hrecipient | hno
      · exact hfinds recipient hrecipient s hs
      · exact absurd hno hsame
    refine (hsteps.keeps (I := fun db => NoneStopped db ∧
      ∀ recipient, w.enqueuesUnchecked (envOf e) recipient → NotStopped db recipient)
      ⟨hdb, hunseen⟩ fun db db' hstep hI => ⟨?_, fun recipient hr => ?_⟩).1
    · refine hstep.noneStopped (fun row hrow => newSession_runs hrow) (fun s t hs hp => ?_) hI.1
      rcases hp.2 with hseen | hr
      · exact hseen
      · rw [Db.id_of_session? hs] at hr
        exact hI.2 _ hr s hs
    · exact hstep.notStopped (stops_nobody hr) (fun row hrow => newSession_runs hrow) (hI.2 recipient hr)
  · exact absurd hno hsame

/-- In every run whose unseen recipients are not stopped, no message waits for a stopped session. -/
theorem Reachable.noneStopped {history : History} (h : Reachable history)
    (hfinds : ∀ e ∈ history, FindsReader e) : NoneStopped (current history) := by
  induction history with
  | nil =>
      intro t ht
      cases ht
  | cons e history ih =>
      obtain ⟨hr, hbefore, -⟩ := h.of_cons
      refine noneStopped_call (hfinds e List.mem_cons_self) ?_
      rw [hbefore]
      exact ih hr fun e' he' => hfinds e' (List.mem_cons_of_mem _ he')

/-! ## Finalization -/

section Finalization

variable {env : Env} {db : Db} {session s : Session}

/-- Telling the parent of a crash fails with the error it is given. -/
theorem wp_notifyParentOfCrash {ρ : Type} (session : Session) (onError : ρ) :
    Tx.wp (Reconciler.notifyParentOfCrash env session onError) (fun _ _ => True)
      (fun e => e = onError) db := by
  unfold Reconciler.notifyParentOfCrash Reconciler.notifyParent
  simp [Transition.resumeStopped, DbTx.insertTask, DbTx.insertEvent]

/-- **A finalization that succeeds deletes every message that was queued.** What it tells the parent is
queued anew. -/
theorem finalize_deletes (hs : db.session? session.id = some s) (hterminate : s.desired = .terminate)
    (hok : ((Write.finalize session).run env db).1 = (.ok () : Except SchedulerError Unit)) :
    ∀ t ∈ db.taskQueue.rows, t.sessionId = session.id →
      t ∉ ((Write.finalize session).run env db).2.taskQueue.rows := by
  refine scheduling_post (m := fun env => Reconciler.finalize env session)
    (P := fun reply db' => reply = .ok () → ∀ t ∈ db.taskQueue.rows, t.sessionId = session.id →
      t ∉ db'.taskQueue.rows) (fun _ _ h => by cases h) ?_ hok
  refine Tx.wp_mono (Q := fun _ db' => ∀ t ∈ db.taskQueue.rows, t.sessionId = session.id →
      t ∉ db'.taskQueue.rows) (E := fun e => e ≠ .ok ()) ?_ (fun _ _ h _ => h) fun e he h => absurd h he
  unfold Reconciler.finalize
  refine DbTx.seq_execution (fun x _ => ?_) fun _ h => by cases h
  refine Tx.seq_read (Tx.seq_forSome (fun current hcurrent => ?_) fun hno => ?_)
  · obtain rfl := Option.some.inj (hs.symm.trans hcurrent)
    have hid := Db.id_of_session? hs
    rw [Tx.wp_when]
    refine ⟨fun _ => Tx.seq_write ?_, fun hno => absurd hterminate hno⟩
    refine Tx.seq (Q := fun _ db' => ∀ t ∈ db.taskQueue.rows, t.sessionId = session.id →
      t ∉ db'.taskQueue.rows) ?_ fun _ db' hgone => ?_
    · have hwithin : ∀ onError : Except SchedulerError Unit, Within ((Write.finalize session).permit env)
          (Reconciler.notifyParentOfCrash env s onError) (fun _ _ => True) (db.deleteTasks s.id) := by
        intro onError
        unfold Reconciler.notifyParentOfCrash
        refine .forSome_last fun desiredBy _ => .forSome_last fun parentId _ => .when_last fun _ => ?_
        exact notifyParent_within session s desiredBy parentId _ hid
      refine Tx.wp_mono (Tx.wp_and (hwithin _) (wp_notifyParentOfCrash s _)) (fun _ db' hdb' => ?_) fun e he => ?_
      · obtain ⟨-, hrows⟩ := hdb'.1.1.queued
        intro t ht hsession hmem
        rcases hrows t hmem with hold | hyoung
        · have hkept := (List.mem_filter.mp hold).2
          simp [hsession, hid] at hkept
        · exact absurd (db.taskQueue.bounded t ht) (Nat.not_lt.mpr hyoung)
      · rw [he.2]
        intro h
        cases h
    · rw [Tx.wp_when]
      exact ⟨fun _ => hgone, fun _ => hgone⟩
  · rw [hs] at hno
    cases hno

end Finalization

/-! ## The claim of the queue -/

/-- **Queued messages have a reader.** In every run of the scheduler in which whoever enqueues without
looking at the recipient finds it not stopped, no queued message belongs to a stopped session, and a session
that is to terminate and has one is selected for reconciliation, whose finalization deletes it. -/
theorem queued_messages_have_a_reader {pool : List (Nat × Request Unit)} {history : History}
    (h : SchedulerRun pool history) :
    ((∀ e ∈ history, FindsReader e) → ∀ t ∈ (current history).taskQueue.rows,
      ∀ s, (current history).session? t.sessionId = some s → s.desired ≠ .stop) ∧
    ∀ t ∈ (current history).taskQueue.rows, ∀ s, (current history).session? t.sessionId = some s →
      s.desired = .terminate → s ∈ (current history).findReconcilable ∧
      ∀ env session, session.id = s.id →
        ((Write.finalize session).run env (current history)).1 = (.ok () : Except SchedulerError Unit) →
        t ∉ ((Write.finalize session).run env (current history)).2.taskQueue.rows := by
  constructor
  · intro hfinds t ht s hs
    exact h.reachable.noneStopped hfinds t ht s hs
  · intro t ht s hs hterminate
    have hid := Db.id_of_session? hs
    refine ⟨?_, fun env session hsession hok => ?_⟩
    · refine List.mem_filter.mpr ⟨Db.mem_of_session? hs, ?_⟩
      have htask : (current history).hasTask s.id = true :=
        List.any_eq_true.mpr ⟨t, ht, decide_eq_true hid.symm⟩
      cases houtcome : s.outcome with
      | none => simp [Db.isReconcilable, houtcome]
      | some outcome => simp [Db.isReconcilable, houtcome, htask]
    · refine finalize_deletes ?_ hterminate hok t ht (hid.symm.trans hsession.symm)
      rw [hsession, hid]
      exact hs

/-! ## Runs -/

/-- The first root is terminated before any worker has asked for its message. -/
def terminatedUnread : List (Choice (Nat × Route) Env) :=
  opening ++ alone 2 "s" (.terminateSession "r") 4

theorem queued_messages_have_a_reader_terminated :
    (∃ t ∈ (current (historyOf terminatedUnread)).taskQueue.rows,
      ∃ s ∈ (current (historyOf terminatedUnread)).session? t.sessionId, s.desired = .terminate) ∧
    (∀ t ∈ (current (historyOf terminatedUnread)).taskQueue.rows, ∀ s,
      (current (historyOf terminatedUnread)).session? t.sessionId = some s → s.desired ≠ .stop) ∧
    ∀ t ∈ (current (historyOf terminatedUnread)).taskQueue.rows, ∀ s,
      (current (historyOf terminatedUnread)).session? t.sessionId = some s → s.desired = .terminate →
        s ∈ (current (historyOf terminatedUnread)).findReconcilable := by
  obtain ⟨pool, hrun⟩ := historyOf_run terminatedUnread
  have hfinds : ∀ e ∈ historyOf terminatedUnread, FindsReader e := by decide +kernel
  obtain ⟨hstop, hterminate⟩ := queued_messages_have_a_reader hrun
  refine ⟨by decide +kernel, hstop hfinds, fun t ht s hs hdesired => ?_⟩
  exact (hterminate t ht s hs hdesired).1

/-- The root of the first execution is stopped before its prompt is enqueued. -/
def stoppedBeforePrompt : List (Choice (Nat × Route) Env) :=
  opening.take 11 ++ beside 2 "s" (.stopTurn "r") 3 ++ [.step 0 (calm 3 "t4")]

/-- **The prompt waits for a stopped session.** -/
theorem prompt_waits_for_stopped : ¬∀ pool history, SchedulerRun pool history →
    ∀ t ∈ (current history).taskQueue.rows, ∀ s ∈ (current history).session? t.sessionId,
      s.desired ≠ .stop := by
  intro hclaim
  obtain ⟨pool, hrun⟩ := historyOf_run stoppedBeforePrompt
  have hwaits : ¬∀ t ∈ (current (historyOf stoppedBeforePrompt)).taskQueue.rows,
      ∀ s ∈ (current (historyOf stoppedBeforePrompt)).session? t.sessionId, s.desired ≠ .stop := by
    decide +kernel
  exact hwaits (hclaim pool _ hrun)

end AgentBeacon
