import AgentBeacon.System.Log

/-!
# `System.Reports` — what a report of a worker does

The transaction behind an executor report sets the state of the row, if the worker that reports still
owns it and the session is not closed to reports; else it changes nothing.
-/

namespace AgentBeacon
open Relational Transaction Interleave Transition

/-- The statement of a report. -/
def reportUpdate (state : ExState) (worker : WorkerId) (attempts : Int) : SessionUpdate :=
  match state with
  | .crashed => .reportCrashed worker
  | .idle => .reportIdle worker (0 < attempts)
  | .running => .reportState worker .running
  | .unassigned => .reportState worker .unassigned

theorem reportUpdate_matches (state : ExState) (worker : WorkerId) (attempts : Int) (s : Session) :
    (reportUpdate state worker attempts).matches s = SessionUpdate.reportMatches s worker := by
  cases state <;> rfl

theorem reportUpdate_state (state : ExState) (worker : WorkerId) (attempts : Int) (s : Session) :
    ((reportUpdate state worker attempts).set s).executorState = state := by
  cases state <;> rfl

/-- How many events a report of this row logs. -/
def reportEvents (s : Session) (state : ExState) : Nat :=
  (if state = .crashed ∧ s.commandHasPayload = true then 1 else 0) +
    if state ≠ .unassigned ∧ s.executorState ≠ state then 1 else 0

/-- Whether a report of this row goes through: its worker owns it, it is open, and its events can be
logged. -/
def Reportable (db : Db) (s : Session) (state : ExState) (worker : WorkerId) : Prop :=
  SessionUpdate.reportMatches s worker = true ∧
    (reportEvents s state = 0 ∨ db.events.next + reportEvents s state ≤ maxRowId + 1)

section Spec

variable {db : Db} {ρ : Type}

theorem Write.run_of_calm (w : Write) {env : Env} (h : env.fault = none) (db : Db) :
    w.run env db = Tx.commit (w.transaction.body env) db := by
  unfold Write.run
  rw [h]

/-- An event of a session is logged while there are ids. -/
theorem wp_log {c : Prop} [Decidable c] {Q : Unit → Db → Prop} {E : ρ → Prop} {id : SessionId}
    {executionId : ExecutionId} {type : EventType} {payload : Json} {now : Timestamp} {e : ρ}
    (hsession : ∃ s ∈ db.session? id, s.executionId = executionId)
    (hlog : c → db.events.next ≤ maxRowId → Q () (db.pushEvent executionId (some id) type payload none now))
    (hskip : ¬c → Q () db) (hfull : c → ¬db.events.next ≤ maxRowId → E e) :
    Tx.wp (Tx.when c do
      let _ ← DbTx.insertEvent executionId (some id) type payload now e) Q E db := by
  rw [Tx.wp_when]
  refine ⟨fun hc => ?_, hskip⟩
  rw [Tx.wp_bind, DbTx.wp_insertEvent]
  have hall : ∀ j ∈ some id, ∃ s ∈ db.session? j, s.executionId = executionId := by
    rintro j ⟨⟩
    exact hsession
  refine ⟨fun hroom => hlog hc hroom.2, fun hno => hfull hc fun hroom => hno ⟨hall, hroom⟩⟩

/-- The statement of a report, and the event of a state that is new. -/
theorem wp_reported {worker : WorkerId} {session row : Session}
    {c : Prop} [Decidable c] {payload : Json} {now : Timestamp} {u : SessionUpdate}
    {E E' : Except Rejected Unit} (hu : u.matches row = SessionUpdate.reportMatches row worker)
    (hrow : db.session? session.id = some row) (hexec : row.executionId = session.executionId) :
    Tx.wp (do
        let affected ← DbTx.updateSession session.id u
        Tx.require affected E
        Tx.when c do
          let _ ← DbTx.insertEvent session.executionId (some session.id) .stateChange payload now E'
        pure (.ok ()) : DbTx (Except Rejected Unit) (Except Rejected Unit))
      (fun _ db' => SessionUpdate.reportMatches row worker = true ∧ (c → db.events.next ≤ maxRowId) ∧
        db'.sessions = (db.updateSession session.id u).sessions)
      (fun _ => ¬(SessionUpdate.reportMatches row worker = true ∧ (c → db.events.next ≤ maxRowId))) db := by
  refine DbTx.seq_updateSession (fun row' hrow' hm => ?_) fun hnone hboth => ?_
  · obtain rfl := Option.some.inj (hrow.symm.trans hrow')
    rw [hu] at hm
    have hafter : ∃ s ∈ (db.updateSession session.id u).session? session.id,
        s.executionId = session.executionId := by
      rw [Db.session?_updateSession, if_pos rfl, hrow]
      exact ⟨_, rfl, (u.apply_identity row).2.1.trans hexec⟩
    rw [Tx.wp_bind]
    exact wp_log hafter (fun hc hroom => ⟨hm, fun _ => hroom, rfl⟩) (fun hc => ⟨hm, fun h => absurd h hc, rfl⟩)
      fun hc hfull hboth => hfull (hboth.2 hc)
  · have haffects : db.affects session.id u = true := by
      rw [Db.affects, hrow]
      exact hu.trans hboth.1
    rw [hnone] at haffects
    cases haffects

/-- What there must be room for: first the loss notice, then the new state. -/
theorem reportable_iff {row : Session} {state : ExState} {worker : WorkerId} :
    Reportable db row state worker ↔ SessionUpdate.reportMatches row worker = true ∧
      (state = .crashed ∧ row.commandHasPayload = true → db.events.next ≤ maxRowId) ∧
      (state ≠ .unassigned ∧ row.executorState ≠ state →
        db.events.next + (if state = .crashed ∧ row.commandHasPayload = true then 1 else 0) ≤ maxRowId) := by
  unfold Reportable reportEvents
  refine and_congr_right fun _ => ?_
  by_cases hlost : state = .crashed ∧ row.commandHasPayload = true
  · by_cases hnew : state ≠ .unassigned ∧ row.executorState ≠ state
    · rw [if_pos hlost, if_pos hnew]
      constructor
      · intro hroom
        refine ⟨fun _ => ?_, fun _ => ?_⟩
        · omega
        · omega
      · intro hroom
        have := hroom.2 hnew
        omega
    · simp only [if_pos hlost, if_neg hnew]
      constructor
      · intro hroom
        refine ⟨fun _ => ?_, fun h => absurd h hnew⟩
        omega
      · intro hroom
        have := hroom.1 hlost
        omega
  · by_cases hnew : state ≠ .unassigned ∧ row.executorState ≠ state
    · simp only [if_neg hlost, if_pos hnew]
      constructor
      · intro hroom
        refine ⟨fun h => absurd h hlost, fun _ => ?_⟩
        omega
      · intro hroom
        have := hroom.2 hnew
        omega
    · rw [if_neg hlost, if_neg hnew]
      constructor
      · intro _
        exact ⟨fun h => absurd h hlost, fun h => absurd h hnew⟩
      · intro _
        exact .inl rfl

/-- **`set_executor_state`, from outside.** -/
theorem setExecutorState_spec (env : Env) (session : Session) (state : ExState) (worker : WorkerId)
    (crashMeta : Option CrashMeta) (hfault : env.fault = none) {row : Session}
    (hrow : db.session? session.id = some row) (hexec : row.executionId = session.executionId)
    (hexists : db.execution? session.executionId ≠ none) :
    (Reportable db row state worker ∧
      ((Write.setExecutorState session state worker crashMeta).run env db).2.sessions =
        (db.updateSession session.id (reportUpdate state worker row.recoveryAttempts)).sessions) ∨
    (¬Reportable db row state worker ∧
      ((Write.setExecutorState session state worker crashMeta).run env db).2 = db) := by
  rw [Write.run_of_calm _ hfault]
  refine Tx.commit_post (m := Transition.setExecutorState env session state worker crashMeta)
    (P := fun _ db' => (Reportable db row state worker ∧ db'.sessions =
      (db.updateSession session.id (reportUpdate state worker row.recoveryAttempts)).sessions) ∨
      (¬Reportable db row state worker ∧ db' = db)) ?_
  unfold Transition.setExecutorState
  refine DbTx.seq_execution (fun _ _ => ?_) fun hnone => absurd hnone hexists
  refine DbTx.seq_session (fun current hcurrent => ?_) fun hnone => by rw [hrow] at hnone; cases hnone
  obtain rfl := Option.some.inj (hrow.symm.trans hcurrent)
  have hsession : ∃ s ∈ db.session? session.id, s.executionId = session.executionId := by
    rw [hrow]
    exact ⟨row, rfl, hexec⟩
  rw [reportable_iff]
  cases state with
  | crashed =>
      simp only
      rw [Tx.wp_bind]
      refine wp_log hsession (fun hc hroom => ?_) (fun hc => ?_) fun hc hfull => ?_
      · refine Tx.wp_mono (wp_reported rfl hrow hexec) (fun _ db' hdone => .inl ?_) fun _ hno => .inr ⟨?_, trivial⟩
        · obtain ⟨hm, hnew, hsessions⟩ := hdone
          refine ⟨⟨hm, fun _ => hroom, fun hstate => ?_⟩, hsessions⟩
          rw [if_pos ⟨trivial, hc⟩]
          exact hnew hstate.2
        · rintro ⟨hm, -, hnew⟩
          rw [if_pos ⟨trivial, hc⟩] at hnew
          exact hno ⟨hm, fun hstate => hnew ⟨by simp, hstate⟩⟩
      · refine Tx.wp_mono (wp_reported rfl hrow hexec) (fun _ db' hdone => .inl ?_) fun _ hno => .inr ⟨?_, trivial⟩
        · obtain ⟨hm, hnew, hsessions⟩ := hdone
          refine ⟨⟨hm, fun hlost => absurd hlost.2 hc, fun hstate => ?_⟩, hsessions⟩
          rw [if_neg fun hlost => hc hlost.2]
          exact hnew hstate.2
        · rintro ⟨hm, -, hnew⟩
          rw [if_neg fun hlost => hc hlost.2] at hnew
          exact hno ⟨hm, fun hstate => hnew ⟨by simp, hstate⟩⟩
      · exact .inr ⟨fun h => hfull (h.2.1 ⟨trivial, hc⟩), trivial⟩
  | idle =>
      refine Tx.wp_mono (wp_reported rfl hrow hexec) (fun _ db' hdone => .inl ?_) fun _ hno => .inr ⟨?_, rfl⟩
      · obtain ⟨hm, hnew, hsessions⟩ := hdone
        exact ⟨⟨hm, fun hlost => absurd hlost.1 (by simp), fun hstate => hnew hstate.2⟩, hsessions⟩
      · rintro ⟨hm, -, hnew⟩
        exact hno ⟨hm, fun hstate => hnew ⟨by simp, hstate⟩⟩
  | running =>
      refine Tx.wp_mono (wp_reported rfl hrow hexec) (fun _ db' hdone => .inl ?_) fun _ hno => .inr ⟨?_, rfl⟩
      · obtain ⟨hm, hnew, hsessions⟩ := hdone
        exact ⟨⟨hm, fun hlost => absurd hlost.1 (by simp), fun hstate => hnew hstate.2⟩, hsessions⟩
      · rintro ⟨hm, -, hnew⟩
        exact hno ⟨hm, fun hstate => hnew ⟨by simp, hstate⟩⟩
  | unassigned =>
      refine DbTx.seq_updateSession (fun row' hrow' hm => ?_) fun hnone => .inr ⟨fun hboth => ?_, rfl⟩
      · obtain rfl := Option.some.inj (hrow.symm.trans hrow')
        exact .inl ⟨⟨hm, fun hlost => absurd hlost.1 (by simp), fun hstate => absurd rfl hstate.1⟩, rfl⟩
      · have haffects : db.affects session.id (.reportState worker .unassigned) = true := by
          rw [Db.affects, hrow]
          exact hboth.1
        rw [hnone] at haffects
        cases haffects

end Spec

end AgentBeacon
