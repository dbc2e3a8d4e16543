import AgentBeacon.Correctness.Columns

/-!
# `Correctness.Commands` — how a command leaves its session

An outstanding command is acknowledged, lost with a crash, dropped by a recovery, or replaced. A command
that replaces another is meant to be more urgent, but its priority is judged on a row that was read before: two
requests that have seen no command yet replace each other's.
-/

namespace AgentBeacon
open Relational Interleave Reconciler

/-- The ways in which a transaction may take the command with this token from the session. -/
def departs (w : Write) (s : Session) (token : String) : Bool :=
  match w with
  | .resultTx _ request _ _ _ =>
      decide (request.commandAck = some token ∧ s.workerId = some request.workerId)
  | .setExecutorState session .crashed _ _ => decide (session.id = s.id)
  | .detectCrash session _ _ => decide (session.id = s.id)
  | .repairCommand session => decide (session.id = s.id ∧ s.executorState = .crashed)
  | .recover session _ _ => decide (session.id = s.id)
  | .issueStopTurn session => decide (session.id = s.id ∧
      commandPriority s.commandType < commandPriority (some .stopTurn))
  | .issueCancel session => decide (session.id = s.id ∧
      commandPriority s.commandType < commandPriority (some .cancel))
  | _ => false

/-- A session that the transaction is to command has no command of the same kind. -/
def escalates (w : Write) (s : Session) : Bool :=
  match w with
  | .issueStopTurn session => decide (s.id = session.id → s.desired = .stop →
      SessionUpdate.workerMatches s session.workerId = true → s.commandType ≠ some .stopTurn)
  | .issueCancel session => decide (s.id = session.id → s.desired = .terminate →
      SessionUpdate.workerMatches s session.workerId = true → s.commandType ≠ some .cancel)
  | _ => true

/-- A session that is being canceled is to terminate. -/
theorem Reachable.canceled {history : History} (h : Reachable history) :
    ∀ s ∈ (current history).sessions.rows, s.commandType = some .cancel → s.desired = .terminate := by
  refine h.rows (fun w env row hrow htype => ?_) fun w env s u hu hs => ?_
  · obtain ⟨_, _, _, _, _, _, _, _, rfl, -⟩ := hrow
    cases htype
  · unfold SessionUpdate.apply
    split
    · rename_i hmatches
      intro htype
      cases u with
      | terminate | terminateFailed | repairDesired => rfl
      | stop desiredBy =>
          have hrun : s.desired = .run := of_decide_eq_true hmatches
          rw [hs htype] at hrun
          cases hrun
      | run desiredBy => exact absurd (hs htype) (of_decide_eq_true hmatches)
      | resume desiredBy =>
          have hstop : s.desired = .stop := of_decide_eq_true hmatches
          rw [hs htype] at hstop
          cases hstop
      | cancel token now worker =>
          simp only [SessionUpdate.matches, Bool.and_eq_true, decide_eq_true_eq] at hmatches
          exact hmatches.2
      | assign | feedTurn | stopTurn | reportCrashed | detectCrash | clearCrashedCommand | ack
      | ackTerminalCancel | recover => cases htype
      | _ => exact hs htype
    · exact hs

/-! ## One transaction -/

/-- The transactions that judge a command by more of the row than its token. -/
def judges : Write → Prop
  | .resultTx _ _ _ _ _ | .repairCommand _ | .issueStopTurn _ | .issueCancel _ => True
  | _ => False

theorem judges_cases {w : Write} (h : judges w) :
    (∃ executionId request found notify parent, w = .resultTx executionId request found notify parent) ∨
      (∃ session, w = .repairCommand session) ∨ (∃ session, w = .issueStopTurn session) ∨
      ∃ session, w = .issueCancel session := by
  unfold judges at h
  split at h
  · exact .inl ⟨_, _, _, _, _, rfl⟩
  · exact .inr (.inl ⟨_, rfl⟩)
  · exact .inr (.inr (.inl ⟨_, rfl⟩))
  · exact .inr (.inr (.inr ⟨_, rfl⟩))
  · exact h.elim

/-- The command is still there, and so is what it is judged by. -/
structure StillThere (w : Write) (s t : Session) : Prop where
  token : t.commandToken = s.commandToken
  type : t.commandType = s.commandType
  since : t.commandAt = s.commandAt
  payload : t.commandHasPayload = s.commandHasPayload
  worker : judges w → t.workerId = s.workerId
  executor : judges w → t.executorState = s.executorState
  desired : judges w → t.desired = s.desired ∨ t.desired = .run

/-- A row that is to stop, or to end, was so at first. -/
theorem StillThere.desired_eq {w : Write} {s t : Session} (h : StillThere w s t) (hjudges : judges w) {d : Desired}
    (hd : t.desired = d) (hrun : d ≠ .run) : s.desired = d := by
  rcases h.desired hjudges with hsame | hresumed
  · exact hsame.symm.trans hd
  · exact absurd (hd.symm.trans hresumed) hrun

theorem StillThere.workerMatches {w : Write} {s t : Session} (h : StillThere w s t) (hjudges : judges w)
    {worker : Option WorkerId} (hmatches : SessionUpdate.workerMatches t worker = true) :
    SessionUpdate.workerMatches s worker = true := by
  unfold SessionUpdate.workerMatches at hmatches ⊢
  rw [← h.worker hjudges]
  exact hmatches

/-- A stop takes the command, unless that is a stop itself. -/
theorem StillThere.stopTurn {s t session : Session} {token : String}
    (h : StillThere (.issueStopTurn session) s t) (hid : s.id = session.id) (hstop : t.desired = .stop)
    (hworker : SessionUpdate.workerMatches t session.workerId = true)
    (hescalates : escalates (.issueStopTurn session) s = true)
    (hcanceled : s.commandType = some .cancel → s.desired = .terminate) :
    departs (.issueStopTurn session) s token = true := by
  have hstopped := h.desired_eq trivial hstop Desired.noConfusion
  have hnot := of_decide_eq_true hescalates hid hstopped (h.workerMatches trivial hworker)
  refine decide_eq_true ⟨hid.symm, ?_⟩
  cases htype : s.commandType with
  | none => decide
  | some type =>
      cases type with
      | assign => decide
      | feedTurn => decide
      | stopTurn => exact absurd htype hnot
      | cancel =>
          rw [hcanceled htype] at hstopped
          cases hstopped

/-- A cancel takes the command, unless that is a cancel itself. -/
theorem StillThere.cancel {s t session : Session} {token : String}
    (h : StillThere (.issueCancel session) s t) (hid : s.id = session.id) (hterminate : t.desired = .terminate)
    (hworker : SessionUpdate.workerMatches t session.workerId = true)
    (hescalates : escalates (.issueCancel session) s = true) :
    departs (.issueCancel session) s token = true := by
  have hending := h.desired_eq trivial hterminate Desired.noConfusion
  have hnot := of_decide_eq_true hescalates hid hending (h.workerMatches trivial hworker)
  refine decide_eq_true ⟨hid.symm, ?_⟩
  cases htype : s.commandType with
  | none => decide
  | some type =>
      cases type with
      | assign => decide
      | feedTurn => decide
      | stopTurn => decide
      | cancel => exact absurd htype hnot

/-- **What an update does to a command**: it leaves it, or the transaction may take it. -/
theorem StillThere.apply {w : Write} {env : Env} {s t : Session} {u : SessionUpdate} {token : String}
    (h : StillThere w s t) (hid : t.id = s.id) (hu : w.updates env t u)
    (htoken : s.commandToken = some token) (hescalates : escalates w s = true)
    (hcanceled : s.commandType = some .cancel → s.desired = .terminate) :
    StillThere w s (u.apply t) ∨ departs w s token = true := by
  have held : t.commandToken = some token := h.token.trans htoken
  unfold SessionUpdate.apply
  split
  · rename_i hmatches
    cases u with
    | assign token' now payload worker =>
        simp [SessionUpdate.matches, held] at hmatches
    | feedTurn token' now worker =>
        simp [SessionUpdate.matches, held] at hmatches
    | stopTurn token' now worker =>
        obtain ⟨session, rfl, hsession, -, rfl⟩ := hu
        simp only [SessionUpdate.matches, Bool.and_eq_true, decide_eq_true_eq] at hmatches
        obtain ⟨hworker, hstop⟩ := hmatches
        exact .inr (h.stopTurn (hid.symm.trans hsession) hstop hworker hescalates hcanceled)
    | cancel token' now worker =>
        obtain ⟨session, rfl, hsession, -, rfl⟩ := hu
        simp only [SessionUpdate.matches, Bool.and_eq_true, decide_eq_true_eq] at hmatches
        obtain ⟨hworker, hterminate⟩ := hmatches
        exact .inr (h.cancel (hid.symm.trans hsession) hterminate hworker hescalates)
    | reportCrashed worker =>
        obtain ⟨session, crashMeta, rfl, hsession⟩ := hu
        exact .inr (decide_eq_true (hsession.symm.trans hid))
    | detectCrash =>
        obtain ⟨session, decidedOn, noticed, rfl, hsession⟩ := hu
        exact .inr (decide_eq_true (hsession.symm.trans hid))
    | clearCrashedCommand =>
        obtain ⟨session, rfl, hsession⟩ := hu
        refine .inr (decide_eq_true ⟨hsession.symm.trans hid, ?_⟩)
        rw [← h.executor trivial]
        exact of_decide_eq_true hmatches
    | ack token' =>
        obtain ⟨executionId, request, found, notify, parent, rfl, hack, hworker⟩ := hu
        have hsame : t.commandToken = some token' := of_decide_eq_true hmatches
        obtain rfl := Option.some.inj (held.symm.trans hsame)
        exact .inr (decide_eq_true ⟨hack, (h.worker trivial).symm.trans hworker⟩)
    | ackTerminalCancel token' =>
        obtain ⟨executionId, request, found, notify, parent, rfl, hack, hworker, -⟩ := hu
        have hsame : t.commandToken = some token' := of_decide_eq_true hmatches
        obtain rfl := Option.some.inj (held.symm.trans hsame)
        exact .inr (decide_eq_true ⟨hack, (h.worker trivial).symm.trans hworker⟩)
    | recover clear =>
        obtain ⟨session, message, rfl, hsession⟩ := hu
        exact .inr (decide_eq_true (hsession.symm.trans hid))
    | resume desiredBy =>
        exact .inl ⟨h.token, h.type, h.since, h.payload, h.worker, h.executor, fun _ => .inr rfl⟩
    | handOverWorktree | clearWorktreePath =>
        exact .inl ⟨h.token, h.type, h.since, h.payload, h.worker, h.executor, h.desired⟩
    | _ =>
        -- the other updates touch no command, and no transaction issues them that judges one
        have hnot : ¬judges w := by
          intro hjudges
          rcases judges_cases hjudges with ⟨_, _, _, _, _, rfl⟩ | ⟨_, rfl⟩ | ⟨_, rfl⟩ | ⟨_, rfl⟩ <;>
            simp [Write.updates] at hu
        exact .inl ⟨h.token, h.type, h.since, h.payload, fun hjudges => (hnot hjudges).elim,
          fun hjudges => (hnot hjudges).elim, fun hjudges => (hnot hjudges).elim⟩
  · exact .inl h

/-- **What a transaction does to a command**: it leaves it whole, or takes it. -/
theorem command_of_rowSteps {w : Write} {env : Env} {s s' : Session} {token : String}
    (h : Db.RowSteps (w.permit env) s s') (htoken : s.commandToken = some token)
    (hescalates : escalates w s = true)
    (hcanceled : s.commandType = some .cancel → s.desired = .terminate) :
    StillThere w s s' ∨ departs w s token = true := by
  have hkept : s'.id = s.id ∧ (StillThere w s s' ∨ departs w s token = true) := by
    refine h.keeps (I := fun t => t.id = s.id ∧ (StillThere w s t ∨ departs w s token = true)) ?_
      fun t u hu ht => ?_
    · exact ⟨rfl, .inl ⟨rfl, rfl, rfl, rfl, fun _ => rfl, fun _ => rfl, fun _ => .inl rfl⟩⟩
    · obtain ⟨hid, hstill | hdeparts⟩ := ht
      · exact ⟨(u.apply_identity t).1.trans hid, hstill.apply hid hu htoken hescalates hcanceled⟩
      · exact ⟨(u.apply_identity t).1.trans hid, .inr hdeparts⟩
  exact hkept.2

/-- The acknowledgement of a request is of the command of a session, from its worker. -/
def Acks (request : WorkerSync.SyncRequest) (s : Session) : Prop :=
  request.commandAck.isSome ∧ s.commandToken = request.commandAck ∧ s.workerId = some request.workerId

/-- The command columns of the rows are the same. -/
def SameCommand (s s' : Session) : Prop :=
  s'.commandToken = s.commandToken ∧ s'.commandType = s.commandType ∧ s'.commandAt = s.commandAt ∧
    s'.commandHasPayload = s.commandHasPayload

/-- **A stray acknowledgement changes no command.** -/
theorem command_of_strayAck {executionId : ExecutionId} {request : WorkerSync.SyncRequest}
    {found : Option Session} {notify : Bool} {parent : Option SessionId} {env : Env} {s s' : Session}
    (h : Db.RowSteps ((Write.resultTx executionId request found notify parent).permit env) s s')
    (hstray : ¬Acks request s) : SameCommand s s' := by
  have hkept : s'.workerId = s.workerId ∧ SameCommand s s' := by
    refine h.keeps (I := fun t => t.workerId = s.workerId ∧ SameCommand s t)
      ⟨rfl, rfl, rfl, rfl, rfl⟩ fun t u hu ht => ?_
    obtain ⟨hworker, hsame⟩ := ht
    have hnot : ∀ token, request.commandAck = some token → t.commandToken = some token →
        t.workerId = some request.workerId → False := by
      intro token hack htoken howner
      refine hstray ⟨by simp [hack], ?_, hworker.symm.trans howner⟩
      rw [hack, ← hsame.1]
      exact htoken
    unfold SessionUpdate.apply
    split
    · rename_i hmatches
      cases u with
      | ack token =>
          obtain ⟨_, _, _, _, _, hw, hack, howner⟩ := hu
          obtain ⟨-, rfl, -⟩ := Write.resultTx.inj hw
          exact (hnot token hack (of_decide_eq_true hmatches) howner).elim
      | ackTerminalCancel token =>
          obtain ⟨_, _, _, _, _, hw, hack, howner, -⟩ := hu
          obtain ⟨-, rfl, -⟩ := Write.resultTx.inj hw
          exact (hnot token hack (of_decide_eq_true hmatches) howner).elim
      | resume | handOverWorktree | clearWorktreePath => exact ⟨hworker, hsame⟩
      | _ => simp [Write.permit, Write.updates] at hu
    · exact ⟨hworker, hsame⟩
  exact hkept.2

/-! ## Runs -/

/-- The transaction of a call. -/
def issued (e : Event scheduler) : Option Write :=
  match (e.op : Op) with
  | .write w => some w
  | _ => none

theorem issued_of_op {e : Event scheduler} {w : Write} (h : e.op = Op.write w) : issued e = some w := by
  unfold issued
  rw [h]

/-- The transaction of a call takes the command with this token from the session. -/
def takes (e : Event scheduler) (s : Session) (token : String) : Bool :=
  (issued e).any fun w => departs w s token

/-- No transaction replaces a command of its own kind. -/
def Escalating (e : Event scheduler) : Prop :=
  ∀ w ∈ issued e, ∀ s ∈ (before e).sessions.rows, escalates w s = true

instance (e : Event scheduler) : Decidable (Escalating e) :=
  inferInstanceAs (Decidable (∀ w ∈ issued e, ∀ s ∈ (before e).sessions.rows, escalates w s = true))

/-- A command that is no longer that of its session has been acknowledged, lost with a crash, dropped by a
recovery or replaced by a more urgent one. -/
def LeavesProperly (e : Event scheduler) : Prop :=
  ∀ s ∈ (before e).sessions.rows, ∀ s' ∈ (after e).session? s.id, ∀ token ∈ s.commandToken,
    s'.commandToken = some token ∨ takes e s token = true

instance (e : Event scheduler) : Decidable (LeavesProperly e) :=
  inferInstanceAs (Decidable (∀ s ∈ (before e).sessions.rows, ∀ s' ∈ (after e).session? s.id,
    ∀ token ∈ s.commandToken, _ ∨ _))

/-- A row that is there after a call was there before it, or is new. -/
theorem rowSteps_of_call {e : Event scheduler} {history : History} (h : Reachable (e :: history))
    {w : Write} (hw : e.op = Op.write w) {s s' : Session} (hs : s ∈ (before e).sessions.rows)
    (hs' : (after e).session? s.id = some s') : Db.RowSteps (w.permit (envOf e)) s s' := by
  rcases descends_of_call h (Db.session?_of_mem hs) hs' with rfl | ⟨w', hw', hrow⟩
  · exact .refl
  · obtain rfl := Op.write.inj (hw.symm.trans hw')
    exact hrow

theorem leavesProperly_of_escalating {e : Event scheduler} {history : History}
    (h : Reachable (e :: history)) (hescalating : Escalating e) : LeavesProperly e := by
  obtain ⟨hearlier, hbefore, -⟩ := h.of_cons
  intro s hs s' hs' token htoken
  rcases call_effect e with ⟨w, hw, -⟩ | hsame
  · have hone : escalates w s = true := hescalating w (issued_of_op hw) s hs
    have hcanceled := hearlier.canceled s (hbefore ▸ hs)
    rcases command_of_rowSteps (rowSteps_of_call h hw hs hs') htoken hone hcanceled with
      hstill | hdeparts
    · exact .inl (hstill.token.trans htoken)
    · right
      unfold takes
      rw [issued_of_op hw]
      exact hdeparts
  · have hfound : (after e).session? s.id = some s := by
      rw [hsame]
      exact Db.session?_of_mem hs
    obtain rfl := Option.some.inj (hfound.symm.trans hs')
    exact .inl htoken

/-- **How a command leaves its session.** In every run of the scheduler in which no stop is issued over an
outstanding stop and no cancel over an outstanding cancel, a command leaves its session only by an
acknowledgement of its token from the session's worker, by a crash, by a recovery, or replaced by one of
higher priority. And in every run, an acknowledgement that is of another token, or from another worker,
changes no command. -/
theorem command_departs {pool : List (Nat × Request Unit)} {history : History}
    (h : SchedulerRun pool history) :
    ((∀ e ∈ history, Escalating e) → ∀ e ∈ history, LeavesProperly e) ∧
    ∀ e ∈ history, ∀ executionId request found notify parent,
      e.op = Op.write (.resultTx executionId request found notify parent) →
      ∀ s ∈ (before e).sessions.rows, ∀ s' ∈ (after e).session? s.id, ¬Acks request s →
        SameCommand s s' := by
  have hr := reachable_of_trace h.disciplined
  constructor
  · intro hescalating e he
    obtain ⟨earlier, -, hre⟩ := hr.of_mem he
    exact leavesProperly_of_escalating hre (hescalating e he)
  · intro e he executionId request found notify parent hw s hs s' hs' hstray
    obtain ⟨earlier, -, hre⟩ := hr.of_mem he
    exact command_of_strayAck (rowSteps_of_call hre hw hs hs') hstray

/-- The root runs, and the user stops it. -/
def stoppedTurn : List (Choice (Nat × Route) Env) :=
  claimed ++ [.drop 0] ++ alone 3 "c" (runningSync "t5") 10 ++ alone 4 "d" (.stopTurn "r") 3

/-- Its worker is told once, and acknowledges. -/
theorem command_departs_acknowledged :
    (∃ e ∈ historyOf (stoppedTurn ++ alone 5 "e" (syncOf "w" none) 6 ++
        alone 6 "f" (syncOf "w" (some "e5")) 8), (issued e).isSome = true) ∧
    ∀ e ∈ historyOf (stoppedTurn ++ alone 5 "e" (syncOf "w" none) 6 ++
      alone 6 "f" (syncOf "w" (some "e5")) 8), LeavesProperly e := by
  obtain ⟨pool, hrun⟩ := historyOf_run (stoppedTurn ++ alone 5 "e" (syncOf "w" none) 6 ++
    alone 6 "f" (syncOf "w" (some "e5")) 8)
  exact ⟨by decide +kernel, (command_departs hrun).1 (by decide +kernel)⟩

/-- **A stop replaces a stop.** Two syncs of the worker have found the session without a command. -/
theorem stop_replaces_stop : ¬∀ pool history, SchedulerRun pool history →
    ∀ e ∈ history, LeavesProperly e := by
  intro hclaim
  obtain ⟨pool, hrun⟩ := historyOf_run (stoppedTurn ++ [.spawn 5 (0, syncOf "w" none)] ++
    ((List.range 5).map fun i => .step 0 (calm 5 ("e" ++ toString i))) ++
    beside 6 "f" (syncOf "w" none) 6 ++ [.step 0 (calm 7 "g")])
  have hreplaced : ¬∀ e ∈ historyOf (stoppedTurn ++ [.spawn 5 (0, syncOf "w" none)] ++
    ((List.range 5).map fun i => .step 0 (calm 5 ("e" ++ toString i))) ++
    beside 6 "f" (syncOf "w" none) 6 ++ [.step 0 (calm 7 "g")]), LeavesProperly e := by decide +kernel
  exact hreplaced (hclaim pool _ hrun)

end AgentBeacon
