import AgentBeacon.Correctness.Outcome
import AgentBeacon.Correctness.Reports

/-!
# `Correctness.Columns` — the command columns move together

A command is four columns. Every statement that writes one of them writes all four, so a row has a
whole command or none, whatever its caller had read. What a row with a command to feed a turn has
besides, its worker, is another matter: `finalize` takes the worker away without a look at the command.
-/

namespace AgentBeacon
open Interleave

/-- The command columns of a row are those of one command, or of none. -/
structure WholeCommand (s : Session) : Prop where
  type : s.commandToken = none ↔ s.commandType = none
  since : s.commandType = none ↔ s.commandAt = none
  payload : s.commandHasPayload = true → s.commandToken.isSome = true ∧
    (s.commandType = some .assign ∨ s.commandType = some .feedTurn)

theorem wholeCommand_none {s : Session} (htoken : s.commandToken = none) (htype : s.commandType = none)
    (hat : s.commandAt = none) (hpayload : s.commandHasPayload = false) : WholeCommand s := by
  refine ⟨by simp [htoken, htype], by simp [htype, hat], fun h => ?_⟩
  rw [hpayload] at h
  cases h

theorem wholeCommand_some {s : Session} {token : String} {type : CommandType} {now : Timestamp}
    (htoken : s.commandToken = some token) (htype : s.commandType = some type)
    (hat : s.commandAt = some now)
    (hpayload : s.commandHasPayload = true → type = .assign ∨ type = .feedTurn) : WholeCommand s := by
  refine ⟨by simp [htoken, htype], by simp [htype, hat], fun h => ⟨by simp [htoken], ?_⟩⟩
  rw [htype]
  exact (hpayload h).imp (congrArg some) (congrArg some)

/-- A row whose command columns are another's has a whole command if that one has. -/
theorem WholeCommand.congr {s s' : Session} (h : WholeCommand s) (htoken : s'.commandToken = s.commandToken)
    (htype : s'.commandType = s.commandType) (hat : s'.commandAt = s.commandAt)
    (hpayload : s'.commandHasPayload = s.commandHasPayload) : WholeCommand s' := by
  refine ⟨?_, ?_, ?_⟩
  · rw [htoken, htype]
    exact h.type
  · rw [htype, hat]
    exact h.since
  · rw [hpayload, htoken, htype]
    exact h.payload

/-- **Every statement writes all of the command columns or none.** -/
theorem WholeCommand.apply {s : Session} (h : WholeCommand s) (u : SessionUpdate) :
    WholeCommand (u.apply s) := by
  unfold SessionUpdate.apply
  split
  · cases u with
    | reportCrashed | detectCrash | clearCrashedCommand | ack | ackTerminalCancel | recover =>
        exact wholeCommand_none rfl rfl rfl rfl
    | assign => exact wholeCommand_some rfl rfl rfl fun _ => .inl rfl
    | feedTurn => exact wholeCommand_some rfl rfl rfl fun _ => .inr rfl
    | stopTurn | cancel =>
        refine wholeCommand_some rfl rfl rfl fun hno => ?_
        cases hno
    | _ => exact h.congr rfl rfl rfl rfl
  · exact h

/-- **In every reachable state every row has a whole command or none.** -/
theorem Reachable.wholeCommand {history : History} (h : Reachable history) :
    ∀ s ∈ (current history).sessions.rows, WholeCommand s := by
  refine h.rows (fun w env row hrow => ?_) fun w env s u hu hs => hs.apply u
  obtain ⟨_, _, _, _, _, _, _, _, rfl, -⟩ := hrow
  exact wholeCommand_none rfl rfl rfl rfl

/-! ## The worker of a turn that is fed -/

/-- A turn is being fed only to a worker. -/
def FedToWorker (s : Session) : Prop := s.commandType = some .feedTurn → s.workerId.isSome = true

/-- The session that a call finalizes. -/
def finalizedBy (e : Event scheduler) : Option SessionId :=
  match (e.op : Op) with
  | .write (.finalize session) => some session.id
  | _ => none

/-- A finalization does not find a turn being fed to a session that is to terminate. -/
def FindsNoTurn (e : Event scheduler) : Prop :=
  ∀ id ∈ finalizedBy e, ∀ row ∈ (before e).session? id, row.desired = .terminate →
    row.commandType ≠ some .feedTurn

instance (e : Event scheduler) : Decidable (FindsNoTurn e) :=
  inferInstanceAs (Decidable (∀ id ∈ finalizedBy e, ∀ row ∈ (before e).session? id,
    row.desired = .terminate → row.commandType ≠ some .feedTurn))

theorem finalizedBy_of_op {e : Event scheduler} {session : Session}
    (h : e.op = Op.write (.finalize session)) : finalizedBy e = some session.id := by
  unfold finalizedBy
  rw [h]

/-- Every update keeps the worker of a turn that is being fed, but a release. -/
theorem FedToWorker.apply {s : Session} (h : FedToWorker s) {u : SessionUpdate}
    (hu : u = .releaseWorker → s.commandType ≠ some .feedTurn) : FedToWorker (u.apply s) := by
  unfold SessionUpdate.apply
  split
  · rename_i hm
    intro hfed
    cases u with
    | feedTurn token now worker =>
        simp only [SessionUpdate.matches, SessionUpdate.workerMatches, Bool.and_eq_true,
          decide_eq_true_eq] at hm
        obtain ⟨⟨-, hworker, hsame⟩, -⟩ := hm
        show s.workerId.isSome = true
        rw [hsame]
        exact hworker
    | releaseWorker => exact absurd hfed (hu rfl)
    | assign | stopTurn | cancel | reportCrashed | detectCrash | clearCrashedCommand | ack
    | ackTerminalCancel | recover => cases hfed
    | _ => exact h hfed
  · exact h

/-- What a finalization leaves alone in a row: the command, and a session that is to run. -/
theorem finalize_leaves {session s : Session} {env : Env} {u : SessionUpdate}
    (hu : (Write.finalize session).updates env s u) :
    (u.apply s).commandType = s.commandType ∧ ((u.apply s).desired = .terminate → s.desired = .terminate) := by
  unfold SessionUpdate.apply
  split
  · cases u with
    | releaseWorker | markParentNotified | handOverWorktree | takeAgentSession | dropAgentSession
    | setAgentSessionId | clearWorktreePath => exact ⟨rfl, id⟩
    | resume =>
        refine ⟨rfl, fun h => ?_⟩
        cases h
    | _ => simp [Write.updates] at hu
  · exact ⟨rfl, id⟩

/-- **A transaction keeps the workers of the turns that are being fed**, unless it is a finalization
that finds one. -/
theorem FedToWorker.steps {w : Write} {env : Env} {s s' : Session}
    (hsteps : Db.RowSteps (w.permit env) s s') (hs : FedToWorker s)
    (hfinds : ∀ session, w = .finalize session → s.id = session.id → s.desired = .terminate →
      s.commandType ≠ some .feedTurn) : FedToWorker s' := by
  have hkept := hsteps.keeps (I := fun t => t.id = s.id ∧ FedToWorker t ∧ ∀ session, w = .finalize session →
    t.commandType = s.commandType ∧ (t.desired = .terminate → s.desired = .terminate))
    ⟨rfl, hs, fun _ _ => ⟨rfl, id⟩⟩ fun t u hu ht => ?_
  · exact hkept.2.1
  · obtain ⟨hid, hfed, hleft⟩ := ht
    refine ⟨(u.apply_identity t).1.trans hid, hfed.apply fun hrelease => ?_, fun session hw => ?_⟩
    · subst hrelease
      obtain ⟨session, hw, hsession, hterminate⟩ := hu
      obtain ⟨htype, hdesired⟩ := hleft session hw
      rw [htype]
      exact hfinds session hw (hid.symm.trans hsession) (hdesired hterminate)
    · obtain ⟨htype, hdesired⟩ := hleft session hw
      subst hw
      obtain ⟨htype', hdesired'⟩ := finalize_leaves hu
      exact ⟨htype'.trans htype, fun h => hdesired (hdesired' h)⟩

/-- A run in which no finalization finds a turn being fed feeds turns only to workers. -/
theorem Reachable.fedToWorker {history : History} (h : Reachable history)
    (hfinds : ∀ e ∈ history, FindsNoTurn e) : ∀ s ∈ (current history).sessions.rows, FedToWorker s := by
  induction history with
  | nil =>
      intro s hs
      cases hs
  | cons e history ih =>
      obtain ⟨hr, hbefore, -⟩ := h.of_cons
      have hprev := ih hr fun e' he' => hfinds e' (List.mem_cons_of_mem _ he')
      intro s' hs'
      rcases call_effect e with ⟨w, hw, hsteps⟩ | hsame
      · rcases hsteps.descends hs' with ⟨s, hs, hrow⟩ | ⟨row, hrow', hrow⟩
        · refine FedToWorker.steps hrow (hprev s (hbefore ▸ Db.mem_of_session? hs)) ?_
          rintro session rfl hid hterminate
          rw [← Db.id_of_session? hs, hid] at hs
          exact hfinds e List.mem_cons_self session.id (finalizedBy_of_op hw) s hs hterminate
        · obtain ⟨_, _, _, _, _, _, _, _, rfl, -⟩ := hrow'
          refine FedToWorker.steps hrow (fun hfed => ?_) fun _ _ _ _ hfed => ?_
          · cases hfed
          · cases hfed
      · rw [current_cons, hsame, hbefore] at hs'
        exact hprev s' hs'

/-- **The command columns move together.** In every state of every interleaving of the scheduler, every
session has a token if and only if it has a command type if and only if it has a command time, and a
payload only if its command assigns it or feeds it a turn. And in every run whose finalizations find no
turn being fed to the session they finalize, a turn is being fed only while there is a worker. -/
theorem command_columns_agree {pool : List (Nat × Request Unit)} {history : History}
    (h : SchedulerRun pool history) :
    (∀ s ∈ (current history).sessions.rows,
      (s.commandToken = none ↔ s.commandType = none) ∧ (s.commandType = none ↔ s.commandAt = none) ∧
      (s.commandHasPayload = true → s.commandToken.isSome = true ∧
        (s.commandType = some .assign ∨ s.commandType = some .feedTurn))) ∧
    ((∀ e ∈ history, FindsNoTurn e) → ∀ s ∈ (current history).sessions.rows,
      s.commandType = some .feedTurn → s.workerId.isSome = true) := by
  constructor
  · intro s hs
    have hwhole := h.reachable.wholeCommand s hs
    exact ⟨hwhole.type, hwhole.since, hwhole.payload⟩
  · intro hfinds s hs
    exact h.reachable.fedToWorker hfinds s hs

/-! ## Runs -/

def deployed : Config := { heartbeatTimeoutSecs := 30, longPollTimeoutSecs := 0 }

/-- The root crashes and has failed. -/
def crashedForGood : List (Choice (Nat × Route) Env) :=
  claimed ++ [.drop 0] ++ alone 3 "c" (reportSync "w" "r" "crashed") 4 ++ alone 4 "d" (.tick deployed) 12

/-- The root is finalized while it has no command. -/
theorem command_columns_agree_finalized :
    (∃ e ∈ historyOf (crashedForGood ++ alone 5 "e" (.tick deployed) 7), (finalizedBy e).isSome = true) ∧
    ∀ s ∈ (current (historyOf
    (crashedForGood ++ alone 5 "e" (.tick deployed) 7))).sessions.rows,
    s.commandType = some .feedTurn → s.workerId.isSome = true := by
  obtain ⟨pool, hrun⟩ := historyOf_run (crashedForGood ++ alone 5 "e" (.tick deployed) 7)
  exact ⟨by decide +kernel, (command_columns_agree hrun).2 (by decide +kernel)⟩

/-- The worker acknowledges its command and reports that the root runs. -/
def runningSync (ack : String) : Route :=
  .workerSync deployed
    { workerId := "w", executorReport := some ⟨"r", "running", none⟩, turnResult := none
      commandAck := some ack }

/-- A tick is about to finalize the failed root. Meanwhile the user recovers it, it is assigned, runs, is
fed another turn and is terminated. Then the tick goes on. -/
def finalizedLate : List (Choice (Nat × Route) Env) :=
  crashedForGood ++ [.spawn 5 (0, .tick deployed)] ++ ((List.range 6).map fun i =>
    .step 0 (calm 5 ("e" ++ toString i))) ++
    beside 6 "f" (.recover "r" (some "again")) 4 ++ beside 7 "g" (syncOf "w" none) 7 ++
    beside 8 "h" (runningSync "g6") 10 ++ beside 9 "i" (.postMessage "r" [.textPart "more"] none) 4 ++
    beside 10 "j" (syncOf "w" none) 6 ++ beside 11 "k" (.terminateSession "r") 5 ++
    [.step 0 (calm 12 "l")]

/-- **A late finalization takes the worker of a turn that is being fed.** -/
theorem finalization_takes_worker_of_turn : ∃ pool history, SchedulerRun pool history ∧
    ∃ s ∈ (current history).sessions.rows, s.commandType = some .feedTurn ∧ s.workerId = none := by
  obtain ⟨pool, hrun⟩ := historyOf_run finalizedLate
  exact ⟨pool, historyOf finalizedLate, hrun, by decide +kernel⟩

end AgentBeacon
