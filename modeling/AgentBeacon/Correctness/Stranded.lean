import AgentBeacon.Correctness.Assignment
import AgentBeacon.Correctness.Outcome
import AgentBeacon.System.Alone
import AgentBeacon.System.Onward

/-!
# `Correctness.Stranded` — a live session that has work is selected by some loop

Who looks for work looks for sessions without a worker that are unassigned, for crashed ones, and for
those of a worker. The invariant is that a live session without a worker is one of the first two, and
has no command left that nobody would answer.
-/

namespace AgentBeacon
open Relational Transaction Interleave

/-- A live session without a worker waits for one or has crashed, and has no command. -/
def Waiting (s : Session) : Prop :=
  s.outcome = none → s.workerId = none →
    (s.executorState = .unassigned ∨ s.executorState = .crashed) ∧ s.commandToken = none

/-- **Every update keeps it**, if assignments name a worker: the worker is only taken from a session
that crashes, is recovered, or has ended. -/
theorem Waiting.update {w : Write} {env : Env} {s : Session} {u : SessionUpdate} (h : Waiting s)
    (hs : Settled s) (hu : w.updates env s u)
    (hassign : ∀ session resume worker, w = .issueAssign session resume worker →
      worker.isSome = true) : Waiting (u.apply s) := by
  unfold SessionUpdate.apply
  split
  · rename_i hm
    unfold Waiting at h ⊢
    unfold Settled at hs
    cases u with
    | assign token now payload worker =>
        obtain ⟨session, resume, rfl, -⟩ := hu
        obtain ⟨id, rfl⟩ := Option.isSome_iff_exists.mp (hassign session resume worker rfl)
        simp [SessionUpdate.set, SessionUpdate.issue]
    | releaseWorker =>
        -- only a session that is to terminate, and that has ended, is released
        obtain ⟨session, -, -, hterminate⟩ := hu
        exact fun hnone => absurd (hs.mpr hterminate) (by simpa [SessionUpdate.set] using hnone)
    | ackTerminalCancel token =>
        obtain ⟨_, _, _, _, _, -, -, -, hended⟩ := hu
        exact fun hnone => absurd hended
          (by simpa [SessionUpdate.set, SessionUpdate.clearCommand] using hnone)
    -- the other commands go to the worker the row names
    | feedTurn token now worker =>
        obtain ⟨-, -, hworker, hsome, -⟩ := feedTurn_matches hm
        exact fun _ hnone => by rw [← hworker, show s.workerId = none from hnone] at hsome; cases hsome
    | stopTurn token now worker =>
        obtain ⟨-, hworker, hsome⟩ := stopTurn_matches hm
        exact fun _ hnone => by rw [← hworker, show s.workerId = none from hnone] at hsome; cases hsome
    | cancel token now worker =>
        obtain ⟨-, hworker, hsome⟩ := cancel_matches hm
        exact fun _ hnone => by rw [← hworker, show s.workerId = none from hnone] at hsome; cases hsome
    | _ => simp_all [SessionUpdate.set, SessionUpdate.clearCommand, SessionUpdate.matches,
        SessionUpdate.reportMatches]
  · exact h

/-- **In every reachable state of a disciplined history every session is settled and waiting.** -/
theorem settled_and_waiting {history : History} (h : Trace disciplined history) :
    ∀ s ∈ (current history).sessions.rows, Settled s ∧ Waiting s := by
  refine rows_of_trace h (fun w env row hrow => ?_) fun me earlier w env s u hG hu hs =>
    ⟨hs.1.update hu, hs.2.update hs.1 hu fun session resume worker hw => ?_⟩
  · obtain ⟨_, _, _, _, _, _, _, _, rfl, -⟩ := hrow
    exact ⟨settled_newSession _ _ _ _ _ _ _ _ _ _ _, fun _ _ => ⟨.inl rfl, rfl⟩⟩
  · subst hw
    exact (hG _ rfl).2

/-! ## What a program comes to -/

/-- Every way through the program comes to `goal`, or ends before with such a result. Reads of the database find
this one; what the other calls reply is open. -/
inductive ComesTo {β : Type} (db : Db) (goal : Request β) : {α : Type} → (α → Prop) → Request α → Prop
  | here {α : Type} {ends : α → Prop} (k : β → Request α) : ComesTo db goal ends (goal >>= k)
  | ended {α : Type} {ends : α → Prop} {a : α} (h : ends a) : ComesTo db goal ends (.ret a)
  | call {α : Type} {ends : α → Prop} {op : Op} {k : op.Reply → Request α}
      (h : ∀ reply, ComesTo db goal ends (k reply)) : ComesTo db goal ends (.call (M := scheduler) op k)
  | query {α γ : Type} {ends : α → Prop} {f : Env → Db → γ} {k : Except SchedulerError γ → Request α}
      (h : ∀ env, ComesTo db goal ends (k (.ok (f env db)))) : ComesTo db goal ends (query f >>= k)

namespace ComesTo

variable {α β γ : Type} {db : Db} {goal : Request β}

/-- What comes to it whatever the first part results in. -/
theorem after {ends : α → Prop} (p : Request γ) {k : γ → Request α} (h : ∀ c, ComesTo db goal ends (k c)) :
    ComesTo db goal ends (p >>= k) := by
  induction p with
  | ret c => exact h c
  | call op _ ih => exact .call ih

/-- What comes to it in the first part, or behind the results that this may end with. -/
theorem bind {ends : γ → Prop} {ends' : α → Prop} {p : Request γ} {k : γ → Request α}
    (h : ComesTo db goal ends p) (hk : ∀ c, ends c → ComesTo db goal ends' (k c)) :
    ComesTo db goal ends' (p >>= k) := by
  induction h with
  | here k' =>
      rw [Prog.bind_assoc]
      exact .here _
  | ended hc => exact hk _ hc
  | call _ ih => exact .call fun reply => ih reply hk
  | query _ ih =>
      rw [Prog.bind_assoc]
      exact .query fun env => ih env hk

end ComesTo

/-! ## Who looks after a session -/

/-- A pass over a worker's own sessions comes to each of them, unless it ends with a command for an earlier
one. -/
theorem ownPass_comesTo (db : Db) (fuel : Nat) (worker : WorkerId) {s : Session} {sessions : List Session}
    (hs : s ∈ sessions) (pass : Pass) :
    ComesTo db (reconcileOne fuel s true (some worker))
      (fun r => ∃ token action, r = .inl (.command token action)) (ownPass fuel worker sessions pass) := by
  induction sessions generalizing pass with
  | nil => cases hs
  | cons session rest ih =>
      unfold ownPass
      rcases List.mem_cons.mp hs with rfl | hrest
      · exact .here _
      · refine .after _ fun r => ?_
        cases r with
        | error e => exact ih hrest pass
        | ok action =>
            cases action with
            | sendCommand token action => exact .ended ⟨token, action, rfl⟩
            | _ => exact ih hrest _

/-- The global loop of any worker's sync reconciles the session. -/
def InGlobalLoop (db : Db) (s : Session) : Prop :=
  s ∈ db.findReconcilable ∧ ∀ self expired, globalLoopAction self expired s = .reconcile

/-- The session's worker looks after it. -/
structure OfWorker (db : Db) (s : Session) (worker : WorkerId) : Prop where
  /-- Its own sync reconciles the session, unless it returns a command for another one before. -/
  own : ∀ fuel config, ComesTo db (reconcileOne fuel s true (some worker))
    (fun r => ∃ token action, r = .command token action) (runReconcilerForWorker fuel config worker)
  /-- Once its heartbeat has expired, the tick and the syncs of the others take the session for lost, -/
  expires : s ∈ db.findReconcilable ∧ ∀ expired, expired worker = true →
    tickAction expired s = .lost ∧ ∀ self, self ≠ worker → globalLoopAction self expired s = .lost
  /-- and what they do then takes the worker away, if nothing fails and no other request comes between. -/
  released : ∀ fuel store, store.db = db → Always (M := scheduler) Smooth (loopStep fuel s .lost)
    (fun _ store' => ∃ s', store'.db.session? s.id = some s' ∧ s'.workerId = none ∧ s'.commandToken = none ∧
      s'.executorState = .crashed) store

theorem mem_findReconcilable {db : Db} {s : Session} (hs : s ∈ db.sessions.rows)
    (hlive : s.outcome = none) : s ∈ db.findReconcilable :=
  List.mem_filter.mpr ⟨hs, by simp [Db.isReconcilable, hlive]⟩

theorem inGlobalLoop_of_crashed {db : Db} {s : Session} (hs : s ∈ db.sessions.rows)
    (hlive : s.outcome = none) (hworker : s.workerId = none) (hcrashed : s.executorState = .crashed) :
    InGlobalLoop db s :=
  ⟨mem_findReconcilable hs hlive, fun _ _ => by simp [globalLoopAction, hworker, hcrashed]⟩

/-- Its own sync finds the session among those it goes over. -/
theorem runReconcilerForWorker_comesTo {db : Db} {s : Session} (hs : s ∈ db.sessions.rows) {worker : WorkerId}
    (hworker : s.workerId = some worker) (fuel : Nat) (config : Config) :
    ComesTo db (reconcileOne fuel s true (some worker)) (fun r => ∃ token action, r = .command token action)
      (runReconcilerForWorker fuel config worker) := by
  have hmem : s ∈ db.findSessionsForWorker worker := List.mem_filter.mpr ⟨hs, by simp [hworker]⟩
  unfold runReconcilerForWorker
  refine .query fun _ => ?_
  obtain ⟨first, rest, hsessions⟩ := List.exists_cons_of_ne_nil (List.ne_nil_of_mem hmem)
  rw [hsessions]
  refine .query fun _ => ?_
  refine (ownPass_comesTo db fuel worker hmem ⟨false, false⟩).bind ?_
  rintro _ ⟨token, action, rfl⟩
  exact .ended ⟨token, action, rfl⟩

/-- A notice changes neither the executions nor the sessions. -/
theorem insertLocked_keeps (env : Env) (executionId : ExecutionId) (id : Option SessionId) (eventType : EventType)
    (payload : Json) (db : Db) :
    let db' := ((Write.insertLocked executionId id eventType payload).run env db).2
    db'.executions = db.executions ∧ db'.sessions = db.sessions := by
  refine scheduling_post (m := fun env => Creation.insertLocked env executionId id eventType payload)
    (P := fun _ db' => db'.executions = db.executions ∧ db'.sessions = db.sessions) (fun _ _ => ⟨rfl, rfl⟩) ?_
  unfold Creation.insertLocked
  refine DbTx.seq_execution (fun _ _ => ?_) fun _ => ⟨rfl, rfl⟩
  rw [Tx.wp_bind, DbTx.wp_insertEvent]
  exact ⟨fun _ => ⟨rfl, rfl⟩, fun _ => ⟨rfl, rfl⟩⟩

/-- **A session whose worker is lost** has none afterwards, and has crashed. -/
theorem loseCommand_releases {db : Db} {s : Session} (hs : db.session? s.id = some s) {x : Execution}
    (hx : db.execution? s.executionId = some x) {worker : WorkerId} (hworker : s.workerId = some worker)
    {store : Store} (hstore : store.db = db) :
    Always (M := scheduler) Smooth (loseCommand s) (fun _ store' => ∃ s', store'.db.session? s.id = some s' ∧
      s'.workerId = none ∧ s'.commandToken = none ∧ s'.executorState = .crashed) store := by
  -- the row is still the same when the crash is detected
  have hdetect : ∀ (noticed : Bool) (store' : Store), store'.db.executions = db.executions →
      store'.db.sessions = db.sessions → Always (M := scheduler) Smooth
        (transition s.executionId s.id (.detectCrash s noticed) >>= fun _ => .ret ())
        (fun _ store' => ∃ s', store'.db.session? s.id = some s' ∧ s'.workerId = none ∧
          s'.commandToken = none ∧ s'.executorState = .crashed) store' := by
    intro noticed store' hexecutions hsessions
    have hrow : store'.db.session? s.id = some s := by rw [← hs, Db.session?, hsessions]; rfl
    have hexec : store'.db.execution? s.executionId = some x := by
      rw [← hx, Db.execution?, hexecutions]; rfl
    refine Always.bind (always_lookup (fun _ _ h => h.1) hrow ?_) fun _ _ h => h
    refine always_issue fun env store'' hsmooth hafter => ?_
    have hok : (((Write.detectCrash s s noticed).run env store'.db).1 : Except Rejected Unit) = .ok () :=
      (detectCrash_ok_iff hexec hrow rfl).mpr
        ⟨hsmooth.1, .inl (by simp [hworker]), fun _ => by have := hsmooth.2; omega⟩
    obtain ⟨hno, -⟩ | ⟨-, row, hrow', hheld, hset, -⟩ := detectCrash_spec env s s noticed store'.db
    · exact absurd hok hno
    · obtain rfl := Option.some.inj (hrow.symm.trans hrow')
      refine ⟨SessionUpdate.detectCrash.set s, ?_, rfl, rfl, rfl⟩
      rw [hafter, Db.session?, hset]
      show (store'.db.updateSession s.id .detectCrash).session? s.id = _
      rw [Db.session?_updateSession, if_pos rfl, hrow, Option.map_some,
        SessionUpdate.apply_of_matches (by simp [SessionUpdate.matches, hworker])]
  unfold loseCommand
  split
  · unfold notice
    refine always_issue fun env store' _ hafter => hdetect _ store' ?_ ?_
    · rw [hafter, ← hstore]
      exact (insertLocked_keeps ..).1
    · rw [hafter, ← hstore]
      exact (insertLocked_keeps ..).2
  · exact hdetect false store (by rw [hstore]) (by rw [hstore])

theorem ofWorker {db : Db} {s : Session} (hs : s ∈ db.sessions.rows) (hlive : s.outcome = none) {x : Execution}
    (hx : db.execution? s.executionId = some x) {worker : WorkerId} (hworker : s.workerId = some worker) :
    OfWorker db s worker where
  own := runReconcilerForWorker_comesTo hs hworker
  expires := by
    refine ⟨mem_findReconcilable hs hlive, fun expired hexpired => ⟨?_, fun self hself => ?_⟩⟩
    · simp [tickAction, hworker, hexpired]
    · simp [globalLoopAction, hworker, hexpired, hself.symm]
  released := fun _ store hstore =>
    (loseCommand_releases (Db.session?_of_mem hs) hx hworker hstore).bind fun _ _ h => h

/-- **No live session is stranded.** In every reachable state a session without an outcome and
without a worker is unassigned or crashed and has no command outstanding. Hence a session that is to
run, in a live execution, with a queued message, can be claimed, or has crashed and is reconciled by
the global loop of any sync, or has a worker, which looks after it. -/
theorem no_live_session_stranded {pool : List (Nat × Request Unit)} {history : History}
    (h : SchedulerRun pool history) :
    ∀ s ∈ (current history).sessions.rows,
      (s.outcome = none → s.workerId = none →
        (s.executorState = .unassigned ∨ s.executorState = .crashed) ∧ s.commandToken = none) ∧
      ∀ x, s.desired = .run → (current history).execution? s.executionId = some x →
        x.desired = .run → x.outcome = none → (current history).hasTask s.id = true →
        (current history).isUnassignedWithWork s = true ∨
        (s.executorState = .crashed ∧ InGlobalLoop (current history) s) ∨
        ∃ worker, s.workerId = some worker ∧ OfWorker (current history) s worker := by
  intro s hs
  obtain ⟨hsettled, hwaiting⟩ := settled_and_waiting h.disciplined s hs
  refine ⟨hwaiting, fun x hrun hx halive hopen htask => ?_⟩
  have hlive : s.outcome = none := by
    cases ho : s.outcome with
    | none => rfl
    | some o => rw [hsettled.mp (by simp [ho])] at hrun; cases hrun
  cases hworker : s.workerId with
  | some worker => exact .inr (.inr ⟨worker, rfl, ofWorker hs hlive hx hworker⟩)
  | none =>
      obtain ⟨hstate | hcrashed, htoken⟩ := hwaiting hlive hworker
      · refine .inl ?_
        simp [Db.isUnassignedWithWork, hrun, hstate, hlive, htoken, hworker, hx, halive, hopen, htask]
      · exact .inr (.inl ⟨hcrashed, inGlobalLoop_of_crashed hs hlive hworker hcrashed⟩)

/-- A worker has been handed the root, and a message has come for it. -/
def messageWhileClaimed : List (Choice (Nat × Route) Env) :=
  claimed ++ [.drop 0] ++ alone 3 "c" (.postMessage "r" [.textPart "more"] none) 4

/-- Before any worker has asked for work the root can be claimed; then its worker looks after it. -/
theorem no_live_session_stranded_opening :
    (∃ s ∈ (current (historyOf opening)).sessions.rows,
      (current (historyOf opening)).hasTask s.id = true ∧
      (current (historyOf opening)).isUnassignedWithWork s = true) ∧
    ∃ s ∈ (current (historyOf messageWhileClaimed)).sessions.rows,
      (current (historyOf messageWhileClaimed)).hasTask s.id = true ∧
      OfWorker (current (historyOf messageWhileClaimed)) s "w" := by
  have hwaits : ∃ s ∈ (current (historyOf opening)).sessions.rows, s.workerId = none ∧ s.desired = .run ∧
      s.executorState = .unassigned ∧ (current (historyOf opening)).hasTask s.id = true ∧
      ∃ x, (current (historyOf opening)).execution? s.executionId = some x ∧ x.desired = .run ∧
        x.outcome = none := by
    refine ⟨((current (historyOf opening)).session? "r").get rfl, ?_⟩
    refine ⟨by decide +kernel, by decide +kernel, by decide +kernel, by decide +kernel, by decide +kernel, ?_⟩
    exact ⟨((current (historyOf opening)).execution? "x").get rfl, by decide +kernel⟩
  have howned : ∃ s ∈ (current (historyOf messageWhileClaimed)).sessions.rows, s.workerId = some "w" ∧
      s.desired = .run ∧ s.executorState ≠ .crashed ∧
      (current (historyOf messageWhileClaimed)).hasTask s.id = true ∧
      ∃ x, (current (historyOf messageWhileClaimed)).execution? s.executionId = some x ∧ x.desired = .run ∧
        x.outcome = none := by
    refine ⟨((current (historyOf messageWhileClaimed)).session? "r").get rfl, ?_⟩
    refine ⟨by decide +kernel, by decide +kernel, by decide +kernel, by decide +kernel, by decide +kernel, ?_⟩
    exact ⟨((current (historyOf messageWhileClaimed)).execution? "x").get rfl, by decide +kernel⟩
  constructor
  · obtain ⟨s, hs, hworker, hrun, hstate, htask, x, hx, halive, hopen⟩ := hwaits
    obtain ⟨pool, h⟩ := historyOf_run opening
    refine ⟨s, hs, htask, ?_⟩
    rcases (no_live_session_stranded h s hs).2 x hrun hx halive hopen htask with
      hclaimed | ⟨hcrashed, -⟩ | ⟨worker, hnamed, -⟩
    · exact hclaimed
    · rw [hstate] at hcrashed
      cases hcrashed
    · rw [hworker] at hnamed
      cases hnamed
  · obtain ⟨s, hs, hworker, hrun, hstate, htask, x, hx, halive, hopen⟩ := howned
    obtain ⟨pool, h⟩ := historyOf_run messageWhileClaimed
    refine ⟨s, hs, htask, ?_⟩
    rcases (no_live_session_stranded h s hs).2 x hrun hx halive hopen htask with
      hclaimed | ⟨hcrashed, -⟩ | ⟨worker, hnamed, hlooks⟩
    · simp [Db.isUnassignedWithWork, hworker] at hclaimed
    · exact absurd hcrashed hstate
    · obtain rfl := Option.some.inj (hworker.symm.trans hnamed)
      exact hlooks

end AgentBeacon
