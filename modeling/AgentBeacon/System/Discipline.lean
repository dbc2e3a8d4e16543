import AgentBeacon.System.History

/-!
# `System.Discipline` — what the requests of the scheduler have to go on

A transaction gets its arguments from what its request has read and done before: a row it was called
with is one that stood in the table at some point, an escalation is one that was logged, a root is
created in an execution by the request that created the execution. `Proper` says this for each
transaction; that every route keeps it, whatever runs around it, is `System.Requests`.
-/

namespace AgentBeacon
open Relational Transaction Transition Interleave Resolution

/-! ## What a request has to go on -/

/-- The escalation stood in the log at some point. -/
def Known (history : History) (escalation : Escalation) : Prop :=
  ∃ e ∈ history, ∃ row ∈ (before e).events.rows, asEscalation row = some escalation

section

variable [Start scheduler]

/-- The request `me` has created the execution, and it has no root yet. -/
def Owns (me : Nat) (history : History) (executionId : ExecutionId) : Prop :=
  (∃ e ∈ history, e.caller = me ∧ (envOf e).uuid = executionId ∧
    ∃ new, e.op = Op.write (.createExecution new)) ∧
  ∀ s ∈ (current history).sessions.rows, s.executionId = executionId → s.parentSessionId ≠ none

end

/-- Some call of the history found exactly this execution. -/
def SeenExecution (history : History) (x : Execution) : Prop :=
  ∃ e ∈ history, x ∈ (before e).executions.rows

/-- What a delegation has read: the session it delegates for, and its execution's width. -/
def WidthOf (history : History) (executionId : ExecutionId) (sessionId : SessionId) (maxWidth : Int) :
    Prop :=
  (∃ s, Seen history s ∧ s.id = sessionId ∧ s.executionId = executionId) ∧
  ∃ x, SeenExecution history x ∧ x.id = executionId ∧ x.maxWidth = maxWidth

/-- What a delegation has found: its session, already seen, less deep than its execution allows. -/
def DepthOf (history : History) (executionId : ExecutionId) (sessionId : SessionId) : Prop :=
  ∃ e earlier, (e :: earlier) <:+ history ∧
    (∃ s, Seen earlier s ∧ s.id = sessionId ∧ s.executionId = executionId) ∧
    ∃ x, SeenExecution earlier x ∧ x.id = executionId ∧
      ((before e).computeDepth sessionId executionId : Int) < x.maxDepth

/-- The session was created by a delegation. -/
def Delegated (history : History) (id : SessionId) : Prop :=
  ∃ e ∈ history, (envOf e).uuid = id ∧ ∃ executionId agentId parentId cwd active maxWidth sandboxPolicy,
    e.op = Op.write (.createWithWidthGuard executionId agentId parentId cwd active maxWidth sandboxPolicy)

/-- A loss notice for the session was written after this row had been read. -/
def NoticedSince (history : History) (s : Session) : Prop :=
  ∃ e earlier, (e :: earlier) <:+ history ∧ Seen earlier s ∧
    e.op = Op.write (.insertLocked s.executionId (some s.id) .platform lossNotice) ∧
    ∃ n : Nat, ((Write.insertLocked s.executionId (some s.id) .platform lossNotice).run (envOf e)
      (before e)).1 = (.ok n : Except SchedulerError Nat)

/-- The session has ended, or is to. -/
def Db.Terminated (db : Db) (id : SessionId) : Prop :=
  ∃ s, db.session? id = some s ∧ (s.outcome.isSome = true ∨ s.desired = .terminate)

/-- Whether the execution has an outcome. -/
def Db.hasEnded (db : Db) (x : ExecutionId) : Bool := (db.execution? x).any fun row => row.outcome.isSome

/-- Some call has found the session terminated, or has left it so. -/
def FoundEnded (history : History) (id : SessionId) : Prop :=
  ∃ e ∈ history, (before e).Terminated id ∨ (after e).Terminated id

/-- A row that was read terminated. -/
theorem Seen.foundEnded {history : History} {s : Session} (h : Seen history s)
    (hended : s.outcome.isSome = true ∨ s.desired = .terminate) : FoundEnded history s.id := by
  obtain ⟨e, he, hrow⟩ := h
  exact ⟨e, he, .inl ⟨s, Db.session?_of_mem hrow, hended⟩⟩

/-- Some call has found the execution ended, or has left it so. -/
def ExecutionFoundEnded (history : History) (x : ExecutionId) : Prop :=
  ∃ e ∈ history, (before e).hasEnded x = true ∨ (after e).hasEnded x = true

/-- The call leaves the execution open over a root that has ended or is to: it repairs for a root that is to
terminate without an outcome, or it recovers a failed root. -/
def Overlooks (x : ExecutionId) (e : Event scheduler) : Prop :=
  (before e).hasEnded x = false ∧
  ((∃ root, e.op = Op.write (.repairExecutionForTerminalRoot root x) ∧
      ∃ s, (before e).session? root = some s ∧ s.desired = .terminate ∧ s.outcome = none) ∨
    ∃ session clearAgentSessionId message, e.op = Op.write (.recover session clearAgentSessionId message) ∧
      session.executionId = x ∧ session.parentSessionId = none ∧
      ∃ s, (before e).session? session.id = some s ∧ s.outcome = some .failed)

/-- The session has been found terminated; if it is a root, so has its execution been, unless a call has
overlooked it. -/
def Announced (history : History) (id : SessionId) : Prop :=
  FoundEnded history id ∧ ∃ s, Seen history s ∧ s.id = id ∧ (s.parentSessionId = none →
    ExecutionFoundEnded history s.executionId ∨ ∃ e ∈ history, Overlooks s.executionId e)

/-- The termination of the session's parent has been announced. -/
def BelowEnded (history : History) (id : SessionId) : Prop :=
  ∃ s parent, Seen history s ∧ s.id = id ∧ s.parentSessionId = some parent ∧ Announced history parent

section

variable [Start scheduler]

/-- The arguments a transaction may be called with. -/
def Proper (me : Nat) (history : History) : Write → Prop
  | .createSession executionId _ _ _ _ _ => Owns me history executionId
  | .insertLocked _ _ eventType payload => (eventType = .platform → ∃ text, payload = noticeEvent text) ∧
      (eventType = .stateChange → payload.get "outcome" = none)
  | .createWithWidthGuard executionId _ parentId _ _ maxWidth _ =>
      WidthOf history executionId parentId maxWidth ∧ DepthOf history executionId parentId
  | .deleteSession id => Delegated history id
  | .setDesiredTerminate session desiredBy parent =>
      Seen history session ∧ (∀ id ∈ parent, session.parentSessionId = some id) ∧
        (desiredBy = .systemCascade → BelowEnded history session.id)
  | .setDesiredStop session _ parent =>
      Seen history session ∧ ∀ id ∈ parent, session.parentSessionId = some id
  | .sendMessage session args => Seen history session ∧
      ∀ marker ∈ args.resolution,
        Known history marker.escalation ∧ marker.escalation.sessionId = session.id
  | .detectCrash session decidedOn noticed => Seen history session ∧ Seen history decidedOn ∧
      session.id = decidedOn.id ∧ (noticed = true → NoticedSince history decidedOn)
  | .repairExecution session => Seen history session ∧ session.parentSessionId = none
  | .repairExecutionForTerminalRoot root executionId =>
      ∃ s, Seen history s ∧ s.id = root ∧ s.executionId = executionId ∧ s.parentSessionId = none
  | .issueAssign session _ worker => Seen history session ∧ worker.isSome
  | .setDesiredRun session _ | .setExecutorState session _ _ _ | .terminateFailed session _ _
  | .retryRecovery session | .repairRootOutcome session _ | .repairChildOutcome session
  | .repairDesired session | .repairCommand session | .issueFeedTurn session
  | .issueStopTurn session | .issueCancel session | .finalize session | .recover session _ _ =>
      Seen history session
  | .continueFrom old parentId _ _ => Seen history old ∧ old.parentSessionId = some parentId
  | .escalate executionId sessionId _ _ =>
      ∃ s, Seen history s ∧ s.id = sessionId ∧ s.executionId = executionId ∧ s.parentSessionId = none
  | .dismiss escalation => Known history escalation
  | .resultTx executionId _ held _ _ => ∀ s ∈ held, Seen history s ∧ s.executionId = executionId
  | .createExecution new => 1 ≤ new.maxWidth
  | .insertExecutionAgents _ _ | .pushTask _ _ _ | .delegate _ _ _ _ _ _ _
  | .clearWorktreePath _ | .updateAgentSessionId _ _ _ | .workerEvent _ _ _ _ _ | .putAgent _ => True

/-- Every transaction is called with proper arguments. -/
def disciplined : Discipline scheduler := fun me history op =>
  ∀ w, op = Op.write w → Proper me history w

end

/-- An execution that has been seen is still there, with the limits and the title it had. -/
theorem Reachable.execution_of_seen [Start scheduler] {history : History} (h : Reachable history) {x : Execution}
    (hseen : SeenExecution history x) :
    ∃ x', (current history).execution? x.id = some x' ∧ x'.limits = x.limits ∧ x'.title = x.title := by
  induction history with
  | nil =>
      obtain ⟨e, he, -⟩ := hseen
      cases he
  | cons e history ih =>
      obtain ⟨hr, hbefore, -⟩ := h.of_cons
      have hthere : ∃ x₀, (before e).execution? x.id = some x₀ ∧ x₀.limits = x.limits ∧ x₀.title = x.title := by
        obtain ⟨e', he', hrow⟩ := hseen
        rcases List.mem_cons.mp he' with rfl | he'
        · exact ⟨x, Table.find?_of_mem hrow, rfl, rfl⟩
        · rw [hbefore]
          exact ih hr ⟨e', he', hrow⟩
      obtain ⟨x₀, hx₀, hkeeps⟩ := hthere
      rcases call_effect e with ⟨w, -, hsteps⟩ | hsame
      · obtain ⟨x', hx', hlimits, htitle⟩ := hsteps.execution_stays hx₀
        exact ⟨x', hx', hlimits.trans hkeeps.1, htitle.trans hkeeps.2⟩
      · rw [current_cons, hsame]
        exact ⟨x₀, hx₀, hkeeps⟩

end AgentBeacon
