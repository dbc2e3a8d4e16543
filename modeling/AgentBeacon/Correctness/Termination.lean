import AgentBeacon.Correctness.Agreement
import AgentBeacon.System.Numbers
import AgentBeacon.System.Ordinary

/-!
# `Correctness.Termination` — the row that ends an execution, and the cascade after it

The row is written by the statement that sets the execution's outcome, wherever that is called from, so the
rows in the log and the outcome of the execution can be counted against each other: every transaction keeps
the balance but a recovery, which takes the outcome away and leaves the rows. Where a termination was
interrupted, root and execution stand apart until a repair; whether the cascade waits for it depends on which
request comes first.
-/

namespace AgentBeacon
open Relational Transaction Interleave Transition Tx

/-! ## The rows and the outcome -/

/-- The row tells the end of the execution: it is about no session and carries the outcome. -/
def endsRow (x : ExecutionId) (row : EventRow) : Bool :=
  decide (row.executionId = x) && decide (row.eventType = .stateChange) && row.sessionId.isNone &&
    (row.payload.get "outcome").isSome

namespace Db

/-- The rows that tell the end of the execution. -/
def endings (db : Db) (x : ExecutionId) : List EventRow := db.events.rows.filter (endsRow x)

variable {db : Db}

theorem endings_pushEvent (executionId : ExecutionId) (id : Option SessionId) (type : EventType) (payload : Json)
    (seq : Option Int) (now : Timestamp) (x : ExecutionId) :
    (db.pushEvent executionId id type payload seq now).endings x = db.endings x ++
      [(⟨db.events.next, executionId, id, type, payload, seq, now⟩ : EventRow)].filter (endsRow x) :=
  List.filter_append ..

/-- An event of another kind is no end. -/
theorem endings_pushEvent_usual {executionId : ExecutionId} {id : Option SessionId} {type : EventType}
    {payload : Json} {seq : Option Int} {now : Timestamp} (h : UsualEvent type id payload) (x : ExecutionId) :
    (db.pushEvent executionId id type payload seq now).endings x = db.endings x := by
  rw [endings_pushEvent, List.filter_singleton]
  have hno : endsRow x ⟨db.events.next, executionId, id, type, payload, seq, now⟩ = false := by
    unfold endsRow
    by_cases htype : type = .stateChange
    · by_cases hid : id = none
      · simp [h.2 htype hid]
      · simp [hid]
    · simp [htype]
  rw [hno]
  simp

/-- The rows of sessions go with them; the end of an execution is no session's. -/
theorem endings_deleteSessions (ids : List SessionId) (x : ExecutionId) :
    (db.deleteSessions ids).endings x = db.endings x := by
  show (db.events.rows.filter _).filter (endsRow x) = _
  rw [List.filter_filter]
  refine List.filter_congr fun row _ => ?_
  cases hid : row.sessionId with
  | none => simp [endsRow, hid]
  | some id => simp [endsRow, hid]

theorem hasEnded_updateExecution_same {id : ExecutionId} {u : ExecutionUpdate}
    (h : ∀ row, db.execution? id = some row → (u.apply row).outcome = row.outcome) (x : ExecutionId) :
    (db.updateExecution id u).hasEnded x = db.hasEnded x := by
  unfold hasEnded
  rw [execution?_updateExecution]
  split
  · rename_i hx
    subst hx
    cases hrow : db.execution? x with
    | none => rfl
    | some row => simp [h row hrow]
  · rfl

theorem hasEnded_updateExecution_of_ne {id x : ExecutionId} (u : ExecutionUpdate) (h : x ≠ id) :
    (db.updateExecution id u).hasEnded x = db.hasEnded x := by
  unfold hasEnded
  rw [execution?_updateExecution, if_neg h]

theorem hasEnded_insert {row : Execution} {executions : Executions} (h : db.executions.insert? row = some executions)
    (hopen : row.outcome = none) (x : ExecutionId) : Db.hasEnded { db with executions } x = db.hasEnded x := by
  have hnew : db.executions.find? row.id = none := (Table.insert?_eq_some h).1
  unfold hasEnded execution?
  rw [Table.find?_insert? h]
  split
  · rename_i hx
    rw [hx, hnew]
    simp [hopen]
  · rfl

end Db

/-- As many rows were added as executions have got an outcome, one of each. -/
def Balanced (db db' : Db) : Prop := ∀ x, ∃ rows, db'.endings x = db.endings x ++ rows ∧
  rows.length + (db.hasEnded x).toNat = (db'.hasEnded x).toNat

/-- No row was added. -/
def SameEndings (db db' : Db) : Prop := ∀ x, db'.endings x = db.endings x

theorem Balanced.of_same {db db' : Db} (hrows : ∀ x, db'.endings x = db.endings x)
    (hended : ∀ x, db'.hasEnded x = db.hasEnded x) : Balanced db db' := by
  intro x
  refine ⟨[], ?_, ?_⟩
  · rw [hrows, List.append_nil]
  · rw [hended]
    simp

/-- An execution that had no outcome gets one, and the row. -/
theorem Balanced.of_ended {db : Db} {id : ExecutionId} {outcome : Outcome} {now : Timestamp}
    (h : (db.execution? id).any (ExecutionUpdate.terminal outcome now).matches = true) :
    Balanced db ((db.updateExecution id (.terminal outcome now)).pushEvent id none .stateChange
      (executionTerminalEvent outcome) none now) := by
  intro x
  refine ⟨_, Db.endings_pushEvent _ _ _ _ _ _ x, ?_⟩
  show _ + _ = ((db.updateExecution id (.terminal outcome now)).hasEnded x).toNat
  by_cases hx : x = id
  · subst hx
    obtain ⟨row, hrow, hmatches⟩ := Option.any_eq_true .. |>.mp h
    have hopen : row.outcome = none := by simpa [ExecutionUpdate.matches] using hmatches
    have hafter : (db.updateExecution x (.terminal outcome now)).hasEnded x = true := by
      unfold Db.hasEnded
      rw [Db.execution?_updateExecution, if_pos rfl, hrow]
      simp [ExecutionUpdate.apply, hmatches, ExecutionUpdate.set]
    have hbefore : db.hasEnded x = false := by
      unfold Db.hasEnded
      rw [hrow]
      simp [hopen]
    rw [hafter, hbefore]
    simp [endsRow, executionTerminalEvent, Json.get, List.lookup_cons]
  · rw [Db.hasEnded_updateExecution_of_ne _ hx]
    have hne : id ≠ x := fun h => hx h.symm
    simp [endsRow, hne]

instance : Settling Balanced where
  refl db := .of_same (fun _ => rfl) fun _ => rfl
  trans h h' := by
    intro x
    obtain ⟨rows, hrows, hcount⟩ := h x
    obtain ⟨rows', hrows', hcount'⟩ := h' x
    refine ⟨rows ++ rows', ?_, ?_⟩
    · rw [hrows', hrows, List.append_assoc]
    · rw [List.length_append]
      omega
  same _ hevents hexecutions := by
    refine .of_same (fun x => ?_) fun x => ?_
    · unfold Db.endings
      rw [hevents]
    · unfold Db.hasEnded Db.execution?
      rw [hexecutions]
  insertExecution hinsert hopen := .of_same (fun _ => rfl) (Db.hasEnded_insert hinsert hopen)
  touch db id now := .of_same (fun _ => rfl) (Db.hasEnded_updateExecution_same fun _ _ => rfl)
  dequeue _ _ := .of_same (fun _ => rfl) fun _ => rfl
  deleteSessions _ ids := .of_same (Db.endings_deleteSessions ids) fun _ => rfl
  pushTask _ _ _ _ _ _ _ := .of_same (fun _ => rfl) fun _ => rfl
  pushEvent _ _ _ _ _ _ _ h := .of_same (Db.endings_pushEvent_usual h) fun _ => rfl
  missed := by
    intro db id outcome now hmissed
    refine .of_same (fun _ => rfl) (Db.hasEnded_updateExecution_same fun row hrow => ?_)
    rw [hrow, Option.any_some] at hmissed
    unfold ExecutionUpdate.apply
    rw [hmissed]
    rfl
  ended := .of_ended

instance : Ordinary SameEndings where
  refl _ _ := rfl
  trans h h' x := (h' x).trans (h x)
  same _ hevents _ x := by
    unfold Db.endings
    rw [hevents]
  insertExecution _ _ _ := rfl
  touch _ _ _ _ := rfl
  dequeue _ _ _ := rfl
  deleteSessions _ ids := Db.endings_deleteSessions ids
  pushTask _ _ _ _ _ _ _ _ := rfl
  pushEvent _ _ _ _ _ _ _ h := Db.endings_pushEvent_usual h

/-! ## What a call does -/

/-- The call takes the outcome of the execution away. -/
def Reopens (x : ExecutionId) (e : Event scheduler) : Bool :=
  (before e).hasEnded x && !(after e).hasEnded x

/-- The recovery of a root of the execution. -/
def RecoversRoot (x : ExecutionId) (w : Write) : Prop :=
  ∃ session clearAgentSessionId message, w = .recover session clearAgentSessionId message ∧
    session.executionId = x ∧ session.parentSessionId = none

theorem hasEnded_terminal {db : Db} {id x : ExecutionId} {outcome : Outcome} {now : Timestamp}
    (h : db.hasEnded x = true) : (db.updateExecution id (.terminal outcome now)).hasEnded x = true := by
  unfold Db.hasEnded at h ⊢
  rw [Db.execution?_updateExecution]
  split
  · rename_i hx
    subst hx
    obtain ⟨row, hrow, hended⟩ := Option.any_eq_true .. |>.mp h
    have hmissed : (ExecutionUpdate.terminal outcome now).matches row ≠ true := by
      intro hmatches
      have hnone : row.outcome = none := by simpa [ExecutionUpdate.matches] using hmatches
      rw [hnone] at hended
      cases hended
    rw [hrow, Option.map_some, Option.any_some, ExecutionUpdate.apply, if_neg hmissed]
    exact hended
  · exact h

/-- An outcome stays, unless the root is recovered. -/
theorem hasEnded_step {w : Write} {env : Env} {db db' : Db} (h : Db.Step (w.permit env) db db')
    {x : ExecutionId} (hno : ¬RecoversRoot x w) (hended : db.hasEnded x = true) : db'.hasEnded x = true := by
  cases h with
  | @updateExecution id u hu =>
      cases u with
      | terminal outcome now => exact hasEnded_terminal hended
      | touchLastActivity now =>
          rw [Db.hasEnded_updateExecution_same fun _ _ => rfl]
          exact hended
      | recover =>
          obtain ⟨session, clear, message, hw, hexec, hroot⟩ := hu
          have hne : x ≠ id := by
            intro hx
            exact hno ⟨session, clear, message, hw, hexec.trans hx.symm, hroot⟩
          rw [Db.hasEnded_updateExecution_of_ne _ hne]
          exact hended
  | insertExecution ht hi =>
      obtain ⟨_, -, -, -, hopen, -⟩ := hi
      rw [Db.hasEnded_insert ht hopen]
      exact hended
  | _ => exact hended

/-- A recovery gives no execution an outcome. -/
theorem hasEnded_step_of_recover {w : Write} {env : Env} {db db' : Db} (h : Db.Step (w.permit env) db db')
    {x : ExecutionId} {session : Session} {clear : Bool} {message : Option String}
    (hw : w = .recover session clear message) (hopen : db.hasEnded x = false) : db'.hasEnded x = false := by
  cases h with
  | @updateExecution id u hu =>
      cases u with
      | terminal outcome now =>
          subst hw
          rcases hu with ⟨_, _, _, h, -⟩ | ⟨_, _, _, h, -⟩ | ⟨_, _, h, -⟩ | ⟨_, h, -⟩ | ⟨_, h, -⟩ | ⟨_, h⟩ <;> cases h
      | touchLastActivity now =>
          rw [Db.hasEnded_updateExecution_same fun _ _ => rfl]
          exact hopen
      | recover =>
          unfold Db.hasEnded at hopen ⊢
          rw [Db.execution?_updateExecution]
          split
          · rename_i hx
            subst hx
            cases hrow : db.execution? x with
            | none => rfl
            | some row =>
                rw [hrow, Option.any_some] at hopen
                have hnone : row.outcome = none := by simpa using hopen
                rw [Option.map_some, Option.any_some, ExecutionUpdate.apply]
                split <;> simp [ExecutionUpdate.set, hnone]
          · exact hopen
  | insertExecution ht hi =>
      obtain ⟨_, -, -, -, hfresh, -⟩ := hi
      rw [Db.hasEnded_insert ht hfresh]
      exact hopen
  | _ => exact hopen

/-- Only the recovery of its root reopens an execution. -/
theorem recoversRoot_of_reopens {e : Event scheduler} {x : ExecutionId} (h : Reopens x e = true) :
    ∃ w, e.op = Op.write w ∧ RecoversRoot x w := by
  unfold Reopens at h
  rw [Bool.and_eq_true, Bool.not_eq_true'] at h
  rcases call_effect e with ⟨w, hw, hsteps⟩ | hsame
  · refine ⟨w, hw, ?_⟩
    by_contra hno
    have hstill := hsteps.keeps (I := fun db => db.hasEnded x = true) h.1 fun _ _ hstep => hasEnded_step hstep hno
    rw [h.2] at hstill
    cases hstill
  · rw [hsame, h.1] at h
    cases h.2

/-- **One call, and the rows it adds**: one when the execution ends, none otherwise. -/
theorem endings_of_call [Start scheduler] {e : Event scheduler} {me : Nat} {history : History}
    (hproper : ∀ w, e.op = Op.write w → Proper me history w) (x : ExecutionId) :
    ∃ rows, (after e).endings x = (before e).endings x ++ rows ∧
      rows.length + ((before e).hasEnded x).toNat = ((after e).hasEnded x).toNat + (Reopens x e).toNat := by
  have hbalanced : Balanced (before e) (after e) → ∃ rows, (after e).endings x = (before e).endings x ++ rows ∧
      rows.length + ((before e).hasEnded x).toNat = ((after e).hasEnded x).toNat + (Reopens x e).toNat := by
    intro h
    obtain ⟨rows, hrows, hcount⟩ := h x
    refine ⟨rows, hrows, ?_⟩
    have hno : Reopens x e = false := by
      unfold Reopens
      cases hended : (before e).hasEnded x with
      | false => rfl
      | true =>
          cases hafter : (after e).hasEnded x with
          | true => rfl
          | false =>
              rw [hended, hafter] at hcount
              simp at hcount
    rw [hcount, hno]
    simp
  rcases call_effect e with ⟨w, hw, hsteps⟩ | hsame
  · by_cases hrecover : ∃ session clear message, w = .recover session clear message
    · -- a recovery adds no row, whatever it does to the outcome
      obtain ⟨session, clear, message, hrec⟩ := hrecover
      have hrows : SameEndings (before e) (after e) := by
        rw [after_write hw, hrec]
        exact Respects.scheduling (m := fun env => SessionsApi.recover env session clear message)
          (respects_recover (fun _ _ _ => rfl) session clear message)
      refine ⟨[], by rw [hrows x, List.append_nil], ?_⟩
      unfold Reopens
      cases hended : (before e).hasEnded x with
      | true => cases (after e).hasEnded x <;> rfl
      | false =>
          have hstill := hsteps.keeps (I := fun db => db.hasEnded x = false) hended
            fun _ _ hstep => hasEnded_step_of_recover hstep hrec
          rw [hstill]
          rfl
    · refine hbalanced ?_
      rw [after_write hw]
      by_cases hfinalize : ∃ session, w = .finalize session
      · obtain ⟨session, rfl⟩ := hfinalize
        refine Respects.scheduling (m := fun env => Reconciler.finalize env session) (respects_finalize ?_ ?_ session)
        · exact fun _ _ _ _ _ _ => .of_same (fun _ => rfl) fun _ => rfl
        · intro db executionId id payload now
          refine .of_same (fun x => ?_) fun _ => rfl
          rw [Db.endings_pushEvent]
          simp [endsRow]
      · exact respects_call (hproper w hw) (fun session h => hfinalize ⟨session, h⟩)
          fun session clear message h => hrecover ⟨session, clear, message, h⟩
  · refine hbalanced ?_
    rw [hsame]
    exact Ordinary.refl _

/-- How often the execution has been reopened. -/
def reopenings (history : History) (x : ExecutionId) : Nat := history.countP (Reopens x)

section Started

variable [Start scheduler]

/-- **The rows are as many as there were at the start and the execution has been reopened since, and one more when
it has ended, which is there at the start if it had ended then.** -/
theorem endings_counted {history : History} (h : Trace disciplined history) (x : ExecutionId) :
    ((current history).endings x).length + ((current []).hasEnded x).toNat =
      ((current []).endings x).length + reopenings history x + ((current history).hasEnded x).toNat := by
  induction history with
  | nil => rfl
  | cons e history ih =>
      obtain ⟨htrace, hproper, -, -⟩ := h.of_cons
      have hbefore : before e = current history := (reachable_of_trace h).of_cons.2.1
      obtain ⟨rows, hrows, hcount⟩ := endings_of_call hproper x
      have hprev := ih htrace
      rw [← hbefore] at hprev
      have hlength : ((after e).endings x).length = ((before e).endings x).length + rows.length := by
        rw [hrows, List.length_append]
      have hreopened : reopenings (e :: history) x = reopenings history x + (Reopens x e).toNat := by
        unfold reopenings
        rw [List.countP_cons]
        cases Reopens x e <;> rfl
      rw [current_cons, hlength, hreopened]
      omega

end Started

/-! ## The root -/

/-- The call sets the session to terminate. -/
def SetsToTerminate (e : Event scheduler) (s : Session) : Prop :=
  (before e).session? s.id = some s ∧ s.desired ≠ .terminate ∧
    ∃ row, (after e).session? s.id = some row ∧ row.desired = .terminate

/-- The call is a repair of the execution that found what to repair: a root with an outcome, one that is to
terminate, or one that is to and has none. -/
def Repairs (x : ExecutionId) (e : Event scheduler) : Prop :=
  (∃ session, e.op = Op.write (.repairExecution session) ∧ session.executionId = x ∧
    ((Write.repairExecution session).run (envOf e) (before e)).1 = (.ok .repaired : Reconciler.Reply)) ∨
  (∃ session, e.op = Op.write (.repairRootOutcome session true) ∧ session.executionId = x ∧
    ((Write.repairRootOutcome session true).run (envOf e) (before e)).1 = (.ok .repaired : Reconciler.Reply)) ∨
  ∃ root s, e.op = Op.write (.repairExecutionForTerminalRoot root x) ∧ (before e).session? root = some s ∧
    s.desired = .terminate ∧ s.outcome.isSome = true ∧
      ((Write.repairExecutionForTerminalRoot root x).run (envOf e) (before e)).1 = (.ok () : Except SchedulerError Unit)

/-- The call leaves the execution ended, and if it was open adds the row. -/
def EndsExecution (x : ExecutionId) (e : Event scheduler) : Prop :=
  (after e).hasEnded x = true ∧
    ((before e).hasEnded x = false → ∃ row, (after e).endings x = (before e).endings x ++ [row])

/-- The call takes the outcome of the session away. -/
def Revives (e : Event scheduler) (s : Session) : Prop :=
  (before e).session? s.id = some s ∧ s.outcome.isSome = true ∧
    ∃ row, (after e).session? s.id = some row ∧ row.outcome = none

/-- A call that creates a session does not terminate it. -/
theorem live_of_inserted {w : Write} {env : Env} {row s : Session} (hins : w.inserts env row)
    (hrow : Db.RowSteps (w.permit env) row s) : s.outcome = none ∧ s.desired ≠ .terminate := by
  have hquiet : ¬w.settles := by
    obtain ⟨_, _, _, _, _, _, _, _, -, ⟨h, -⟩ | ⟨_, _, _, h, -⟩ | ⟨_, _, _, _, h, -⟩⟩ := hins <;>
      (subst h; exact fun hsettles => hsettles)
  obtain ⟨_, _, _, _, _, _, _, _, rfl, -⟩ := hins
  have hkept := hrow.keeps (I := fun t => Settled t ∧ t.outcome = none)
    ⟨settled_newSession _ _ _ _ _ _ _ _ _ _ _, rfl⟩ fun t u hu ht => by
      refine ⟨ht.1.update hu, ?_⟩
      rw [outcome_of_quiet hquiet ht.1 hu]
      exact ht.2
  refine ⟨hkept.2, fun hended => ?_⟩
  have hsome := hkept.1.mpr hended
  rw [hkept.2] at hsome
  cases hsome

/-- A row that is terminated was set to terminate, when it had neither an outcome nor was to. -/
theorem turned_of_terminated {w : Write} {env : Env} {s s' : Session} (hrow : Db.RowSteps (w.permit env) s s')
    (hlive : ¬(s.outcome.isSome = true ∨ s.desired = .terminate))
    (hended : s'.outcome.isSome = true ∨ s'.desired = .terminate) :
    s.desired ≠ .terminate ∧ s'.desired = .terminate := by
  rw [not_or] at hlive
  have hsettled : Settled s := by
    unfold Settled
    simp [hlive.1, hlive.2]
  have hkept := hrow.keeps (I := Settled) hsettled fun _ _ hu ht => ht.update hu
  exact ⟨hlive.2, hended.elim hkept.mp id⟩

/-- An outcome is only taken away by the recovery of a failed session. -/
theorem recover_of_revived {w : Write} {env : Env} {s : Session} {u : SessionUpdate} (hu : w.updates env s u)
    (houtcome : s.outcome.isSome = true) (hnone : (u.apply s).outcome = none) :
    s.outcome = some .failed ∧ ∃ session clear message, w = .recover session clear message ∧ s.id = session.id := by
  unfold SessionUpdate.apply at hnone
  split at hnone
  · rename_i hm
    cases u with
    | recover clear =>
        obtain ⟨session, message, hw, hid⟩ := hu
        exact ⟨by simpa [SessionUpdate.matches] using hm, session, clear, message, hw, hid⟩
    | _ => simp_all [SessionUpdate.set, SessionUpdate.clearCommand, SessionUpdate.issue, SessionUpdate.matches]
  · rw [hnone] at houtcome
    cases houtcome

section Roots

variable [Start scheduler] {history : History}

/-- A call that leaves an execution ended has added the row if it was open. -/
theorem ends_of_hasEnded {t : Event scheduler} (h : Trace disciplined (t :: history)) {x : ExecutionId}
    (hended : (after t).hasEnded x = true) : EndsExecution x t := by
  obtain ⟨-, hproper, -, -⟩ := h.of_cons
  refine ⟨hended, fun hopen => ?_⟩
  obtain ⟨rows, hrows, hcount⟩ := endings_of_call hproper x
  have hno : Reopens x t = false := by
    unfold Reopens
    rw [hopen]
    rfl
  rw [hopen, hended, hno] at hcount
  obtain ⟨row, rfl⟩ := List.length_eq_one_iff.mp (by simpa using hcount)
  exact ⟨row, hrows⟩

/-- **A repair leaves the execution ended.** -/
theorem ends_of_repair {t : Event scheduler} (h : Trace disciplined (t :: history)) {x : ExecutionId}
    (hrepairs : Repairs x t) : EndsExecution x t := by
  refine ends_of_hasEnded h ?_
  rcases hrepairs with ⟨session, hop, rfl, hok⟩ | ⟨session, hop, rfl, hok⟩ | ⟨root, s, hop, hs, hterminate, hsome, hok⟩
  · rw [after_write hop]
    exact repairExecution_reply (envOf t) (before t) session hok
  · rw [after_write hop]
    exact repairRootOutcome_reply (envOf t) (before t) session hok
  · obtain ⟨row, hrow, hfound⟩ := repairExecutionForTerminalRoot_reply (envOf t) (before t) root x hok
    obtain rfl := Option.some.inj (hs.symm.trans hrow)
    rw [after_write hop]
    rcases hfound with hlive | hnone | hended
    · exact absurd hterminate hlive
    · rw [hnone] at hsome
      cases hsome
    · exact hended

/-- **A session that is terminated was so at the start, or was terminated by some call.** -/
theorem ended_by (h : Reachable history) {id : SessionId} (hended : (current history).Terminated id) :
    (current []).Terminated id ∨ ∃ t ∈ history, ∃ s, s.id = id ∧ SetsToTerminate t s := by
  induction history with
  | nil => exact .inl hended
  | cons e history ih =>
      obtain ⟨hr, hbefore, -⟩ := h.of_cons
      by_cases hprev : (current history).Terminated id
      · rcases ih hr hprev with hstart | ⟨t, ht, hrest⟩
        · exact .inl hstart
        · exact .inr ⟨t, List.mem_cons_of_mem e ht, hrest⟩
      · -- the last call did it: not by inserting the row, and not without a write
        refine .inr ⟨e, List.mem_cons_self, ?_⟩
        obtain ⟨s', hs', hterminated⟩ := hended
        rcases call_effect e with ⟨w, hw, hsteps⟩ | hsame
        · rcases hsteps.descends (Db.mem_of_session? hs') with ⟨s, hs, hrow⟩ | ⟨row, hins, hrow⟩
          · rw [Db.id_of_session? hs'] at hs
            have hid := Db.id_of_session? hs
            obtain ⟨hlive, hended⟩ := turned_of_terminated hrow (fun hterminated => hprev (by
              rw [← hbefore]
              exact ⟨s, hs, hterminated⟩)) hterminated
            refine ⟨s, hid, ?_, hlive, s', ?_, hended⟩
            · rw [hid]
              exact hs
            · rw [hid]
              exact hs'
          · obtain ⟨hnone, hlive⟩ := live_of_inserted hins hrow
            rcases hterminated with houtcome | hdesired
            · rw [hnone] at houtcome
              cases houtcome
            · exact absurd hdesired hlive
        · rw [current_cons, hsame, hbefore] at hs'
          exact absurd ⟨s', hs', hterminated⟩ hprev

variable [Grounded]

/-- **The call that sets a root to terminate ends its execution.** -/
theorem ends_of_root {t : Event scheduler} (h : Trace disciplined (t :: history)) {root : Session}
    (hsets : SetsToTerminate t root) (hparent : root.parentSessionId = none) : EndsExecution root.executionId t := by
  obtain ⟨hrow, hlive, row, hrow', hended⟩ := hsets
  exact ends_of_hasEnded h (hasEnded_of_turned h hrow hrow' hparent hlive hended)

/-- **Who recovers a root reopens its execution**, unless it overlooks that it is open. -/
theorem reopens_of_revived {e : Event scheduler} (h : Trace disciplined (e :: history)) {root : Session}
    (hrevives : Revives e root) (hparent : root.parentSessionId = none) (hno : ¬Overlooks root.executionId e) :
    Reopens root.executionId e = true := by
  obtain ⟨hrow, houtcome, row, hrow', hnone⟩ := hrevives
  have hreach := reachable_of_trace h
  obtain ⟨-, hproper, -, -⟩ := h.of_cons
  obtain ⟨hearlier, hbefore, -⟩ := hreach.of_cons
  have hmoved : ¬row = root := by
    intro hsame
    rw [hsame] at hnone
    rw [hnone] at houtcome
    cases houtcome
  rcases descends_of_call hreach hrow hrow' with hsame | ⟨w, hw, hsteps⟩
  · exact absurd hsame hmoved
  obtain ⟨hfailed, session, clear, message, rfl, hid⟩ := recover_of_lost
    (I := fun t => t.outcome.isSome = true) (fun t u hu ht hlost => recover_of_revived hu ht (by simpa using hlost))
    hsteps houtcome (by rw [hnone]; simp)
  have hidentity := hearlier.identity (hproper _ hw) (hbefore ▸ Db.mem_of_session? hrow) hid
  -- were the execution open, a failed root of it would have been recovered
  have hended : (before e).hasEnded root.executionId = true := by
    cases hopen : (before e).hasEnded root.executionId with
    | true => rfl
    | false =>
        refine absurd ⟨hopen, .inr ⟨session, clear, message, hw, hidentity.1.symm,
          hidentity.2.1.symm.trans hparent, root, ?_, hfailed⟩⟩ hno
        rw [← hid]
        exact hrow
  have hopen : (after e).hasEnded root.executionId = false := by
    rw [hidentity.1]
    have hreply := recover_reply (envOf e) (before e) (hidentity.2.1.symm.trans hparent) clear message
    rw [← after_write hw] at hreply
    refine hreply.resolve_left fun hsame => ?_
    rw [hsame, hrow] at hrow'
    exact hmoved (Option.some.inj hrow').symm
  unfold Reopens
  rw [hended, hopen]
  rfl

end Roots

/-! ## The cascade -/

/-- The call cascades a termination to the child. -/
def CascadesTo (e : Event scheduler) (child : Session) : Prop :=
  ∃ notify, e.op = Op.write (.setDesiredTerminate child .systemCascade notify)

/-- The call `e` carries the termination `t` on: it cascades to a child of the session that `t` terminated. -/
def CascadeFollows (history : History) (t e : Event scheduler) : Prop :=
  ∃ child s, CascadesTo e child ∧ child.parentSessionId = some s.id ∧ SetsToTerminate t s ∧
    ∃ earlier, (e :: earlier) <:+ history ∧ t ∈ earlier

/-- The call `m` came before `e`, and found the execution ended or left it so. -/
def EndedBefore (history : History) (x : ExecutionId) (m e : Event scheduler) : Prop :=
  ((before m).hasEnded x = true ∨ (after m).hasEnded x = true) ∧
    ∃ earlier, (e :: earlier) <:+ history ∧ m ∈ earlier

/-- Whatever `e` adds to the log has a larger id than all that stood there after `m`. -/
def RowsFollow (m e : Event scheduler) : Prop :=
  ∀ row ∈ (after m).events.rows, ∀ row' ∈ (after e).events.rows, row' ∉ (before e).events.rows → row.id < row'.id

section Cascades

variable [Start scheduler]

theorem next_of_mem {history : History} (h : Reachable history) {t : Event scheduler} (ht : t ∈ history) :
    (after t).events.next ≤ (current history).events.next := by
  induction history with
  | nil => cases ht
  | cons e history ih =>
      rcases List.mem_cons.mp ht with rfl | hlater
      · exact Nat.le_refl _
      · exact Nat.le_trans (ih h.of_cons.1 hlater) h.call_logged.1

/-- The ids that a call draws for the log come after those that an earlier one has drawn. -/
theorem next_of_earlier {history earlier : History} (h : Reachable history) {m e : Event scheduler}
    (hs : (e :: earlier) <:+ history) (hm : m ∈ earlier) :
    (after m).events.next ≤ (before e).events.next ∧ (before e).events.next ≤ (after e).events.next := by
  have hreach : Reachable (e :: earlier) := h.of_suffix hs
  rw [hreach.of_cons.2.1]
  exact ⟨next_of_mem hreach.of_cons.1 hm, hreach.call_logged.1⟩

/-- **What a cascade adds, over however many generations, comes after all that came before its first call.** -/
theorem rowsFollow_of_cascade {history earlier : History} (h : Reachable history) {m e e' : Event scheduler}
    (hs : (e :: earlier) <:+ history) (hm : m ∈ earlier)
    (hcascade : Relation.ReflTransGen (CascadeFollows history) e e') : RowsFollow m e' := by
  have hnext : (after m).events.next ≤ (before e').events.next ∧ ∃ earlier', (e' :: earlier') <:+ history := by
    induction hcascade with
    | refl => exact ⟨(next_of_earlier h hs hm).1, earlier, hs⟩
    | tail _ hfollows ih =>
        obtain ⟨-, -, -, -, -, later, hlater, hmem⟩ := hfollows
        obtain ⟨hsofar, between, hbetween⟩ := ih
        have hreach : Reachable (_ :: between) := h.of_suffix hbetween
        have hgrows := hreach.call_logged.1
        rw [← hreach.of_cons.2.1] at hgrows
        have hstep := (next_of_earlier h hlater hmem).1
        exact ⟨by omega, later, hlater⟩
  obtain ⟨hnext, earlier', hs'⟩ := hnext
  intro row hrow row' hrow' hnew
  have hreach : Reachable (e' :: earlier') := h.of_suffix hs'
  have hbelow := (after m).events.bounded row hrow
  rw [hreach.of_cons.2.1] at hnew hnext
  have habove := ((hreach.call_logged.2 row' hrow').resolve_left hnew).1
  omega

variable [Grounded]

/-- **A cascade never comes before the termination it carries on**, which may be one that the start has. -/
theorem follows_of_cascade {history : History} (h : Trace disciplined history) {e : Event scheduler}
    (he : e ∈ history) {child : Session} (hcascade : CascadesTo e child) :
    (∃ t, CascadeFollows history t e) ∨
      ∃ parent, child.parentSessionId = some parent ∧ (current []).Terminated parent := by
  obtain ⟨earlier, hs, htrace, hproper, -⟩ := h.of_mem he
  obtain ⟨notify, hop⟩ := hcascade
  obtain ⟨hseen, -, hbelow⟩ := hproper _ hop
  obtain ⟨s, parent, hseen', hid, hparent, ⟨m, hm, hfound⟩, -⟩ := hbelow rfl
  have hr := reachable_of_trace htrace
  have hsame : child.parentSessionId = some parent :=
    (hr.seen_identity hseen' hseen hid.symm).2.1.trans hparent
  obtain ⟨sofar, hsofar, hreach⟩ := hr.of_mem hm
  have hended : (current []).Terminated parent ∨ ∃ t ∈ m :: sofar, ∃ s, s.id = parent ∧ SetsToTerminate t s := by
    rcases hfound with hbefore | hafter
    · rw [hreach.of_cons.2.1] at hbefore
      rcases ended_by hreach.of_cons.1 hbefore with hstart | ⟨t, ht, hrest⟩
      · exact .inl hstart
      · exact .inr ⟨t, List.mem_cons_of_mem m ht, hrest⟩
    · exact ended_by hreach hafter
  rcases hended with hstart | ⟨t, ht, p, rfl, hends⟩
  · exact .inr ⟨parent, hsame, hstart⟩
  · exact .inl ⟨t, child, p, ⟨notify, hop⟩, hsame, hends, earlier, hs, hsofar.subset ht⟩

/-- **A cascade to a child of the root never comes before the end of the execution**, unless that was overlooked. -/
theorem endedBefore_of_cascade {history : History} (h : Trace disciplined history) {e : Event scheduler}
    (he : e ∈ history) {child root : Session} (hcascade : CascadesTo e child)
    (hparent : child.parentSessionId = some root.id) (hroot : Seen history root)
    (htop : root.parentSessionId = none) (hno : ∀ e ∈ history, ¬Overlooks root.executionId e) :
    ∃ m, EndedBefore history root.executionId m e := by
  obtain ⟨earlier, hs, htrace, hproper, -⟩ := h.of_mem he
  obtain ⟨notify, hop⟩ := hcascade
  obtain ⟨hseen, -, hbelow⟩ := hproper _ hop
  obtain ⟨s, parent, hseen', hid, hparent', -, p, hp, hpid, hannounced⟩ := hbelow rfl
  have hearlier : earlier <:+ history := (List.suffix_cons e earlier).trans hs
  have hr := reachable_of_trace h
  have hsame := (hr.seen_identity (hseen'.mono hearlier) (hseen.mono hearlier) hid.symm).2.1.trans hparent'
  have hpRoot : p.id = root.id := by
    rw [hpid]
    exact Option.some.inj (hsame.symm.trans hparent)
  have hidentity := hr.seen_identity hroot (hp.mono hearlier) hpRoot
  rw [← hidentity.1] at hno ⊢
  rcases hannounced (hidentity.2.1.trans htop) with ⟨m, hm, hended⟩ | ⟨m, hm, hoverlooks⟩
  · exact ⟨m, hended, earlier, hs, hm⟩
  · exact absurd hoverlooks (hno m (hearlier.subset hm))

end Cascades

/-! ## The order -/

/-- The order of a termination, for one execution of a history. There are as many rows with its outcome as at the
start, one more for each time it was reopened and one more if it has ended, unless it had then; only the recovery
of its root reopens it, and always does. The call that sets the root to terminate ends it and adds the row, and
so does a repair. Every cascading call carries a termination on, of the history or of the start, and what it adds
comes after all that stood in the log when that was committed; a cascade to a child of the root comes after a call
at which the execution stood ended, and so does all that follows it. -/
structure Ordered [Start scheduler] (history : History) (x : ExecutionId) : Prop where
  counted : ((current history).endings x).length + ((current []).hasEnded x).toNat =
    ((current []).endings x).length + reopenings history x + ((current history).hasEnded x).toNat
  reopened : ∀ e ∈ history, Reopens x e = true → ∃ w, e.op = Op.write w ∧ RecoversRoot x w
  recovered : ∀ e ∈ history, ∀ root, Revives e root → root.executionId = x → root.parentSessionId = none →
    Reopens x e = true
  written : ∀ t ∈ history, ∀ root, SetsToTerminate t root → root.executionId = x → root.parentSessionId = none →
    EndsExecution x t
  repaired : ∀ t ∈ history, Repairs x t → EndsExecution x t
  carried : ∀ e ∈ history, ∀ child, CascadesTo e child → (∃ t, CascadeFollows history t e) ∨
    ∃ parent, child.parentSessionId = some parent ∧ (current []).Terminated parent
  follows : ∀ t e, Relation.TransGen (CascadeFollows history) t e → RowsFollow t e
  announced : ∀ e ∈ history, ∀ child root, CascadesTo e child → child.parentSessionId = some root.id →
    Seen history root → root.executionId = x → root.parentSessionId = none →
      ∃ m, EndedBefore history x m e ∧
        ∀ e', Relation.ReflTransGen (CascadeFollows history) e e' → RowsFollow m e'

theorem Ordered.of_trace [Start scheduler] [Grounded] {history : History} (h : Trace disciplined history)
    {x : ExecutionId} (hx : ∀ e ∈ history, ¬Overlooks x e) : Ordered history x := by
  have hreach := reachable_of_trace h
  constructor
  · exact endings_counted h x
  · intro e _ hreopens
    exact recoversRoot_of_reopens hreopens
  · rintro e he root hrevives rfl hparent
    obtain ⟨earlier, hs, -⟩ := h.of_mem he
    exact reopens_of_revived (h.of_suffix hs) hrevives hparent (hx e he)
  · rintro t ht root hsets rfl hparent
    obtain ⟨earlier, hs, -⟩ := h.of_mem ht
    exact ends_of_root (h.of_suffix hs) hsets hparent
  · intro t ht hrepairs
    obtain ⟨earlier, hs, -⟩ := h.of_mem ht
    exact ends_of_repair (h.of_suffix hs) hrepairs
  · intro e he child hcascade
    exact follows_of_cascade h he hcascade
  · intro t e hcascade
    obtain ⟨c, hfollows, hrest⟩ := Relation.TransGen.head'_iff.mp hcascade
    obtain ⟨-, -, -, -, -, earlier, hs, ht⟩ := hfollows
    exact rowsFollow_of_cascade hreach hs ht hrest
  · rintro e he child root hcascade hparent hroot rfl htop
    obtain ⟨m, hended, earlier, hs, hm⟩ := endedBefore_of_cascade h he hcascade hparent hroot htop hx
    exact ⟨m, ⟨hended, earlier, hs, hm⟩, fun e' hcascade' => rowsFollow_of_cascade hreach hs hm hcascade'⟩

/-- An execution has ended just when its root has. -/
theorem hasEnded_of_root {history : History} (h : Trace disciplined history) {root : Session}
    (hroot : root ∈ (current history).sessions.rows) (hparent : root.parentSessionId = none) :
    (current history).hasEnded root.executionId = root.outcome.isSome := by
  obtain ⟨x, hx⟩ := Option.ne_none_iff_exists'.mp ((reachable_of_trace h).hasExecutions root hroot)
  have hmember := member_of_row (Db.session?_of_mem hroot)
  have hlife : (current history).forest.life root.executionId = some x.life := by
    show ((current history).execution? root.executionId).map Execution.life = _
    rw [hx, Option.map_some]
  obtain ⟨-, hopen, -⟩ := (forest_agrees h).fits root.id root.node hmember hparent x.life hlife
  have hagree : x.outcome = none ↔ root.outcome = none := hopen
  unfold Db.hasEnded
  rw [hx, Option.any_some]
  cases hout : x.outcome with
  | none => rw [hagree.mp hout]
  | some o =>
      cases hrootOut : root.outcome with
      | none => rw [hagree.mpr hrootOut] at hout; cases hout
      | some _ => rfl

/-- **From the empty database nothing is ever overlooked**: no root is to terminate without an outcome, and none has
one that its execution has not. -/
theorem never_overlooks {history : History} (h : Trace disciplined history) {e : Event scheduler} (he : e ∈ history)
    (x : ExecutionId) : ¬Overlooks x e := by
  obtain ⟨earlier, hs, htrace, hproper, -⟩ := h.of_mem he
  have hr := reachable_of_trace htrace
  have hbefore := (reachable_of_trace (h.of_suffix hs)).of_cons.2.1
  rintro ⟨hopen, ⟨root, -, s, hs, hterminate, hnone⟩ | ⟨session, clear, message, hop, rfl, hparent, s, hrow, hfailed⟩⟩
  · rw [hbefore] at hs
    have hsome := (hr.settled s (Db.mem_of_session? hs)).mpr hterminate
    rw [hnone] at hsome
    cases hsome
  · rw [hbefore] at hopen hrow
    have hidentity := hr.identity (hproper _ hop) (Db.mem_of_session? hrow) (Db.id_of_session? hrow)
    have hended := hasEnded_of_root htrace (Db.mem_of_session? hrow) (hidentity.2.1.trans hparent)
    rw [hidentity.1, hopen, hfailed] at hended
    cases hended

/-- **From the empty database every termination is in order**, and an execution has ended just when its root has. -/
theorem ordered_from_empty {pool : List (Nat × Request Unit)} {history : History} (h : SchedulerRun pool history) :
    (∀ x, Ordered history x) ∧ ∀ root ∈ (current history).sessions.rows, root.parentSessionId = none →
      (current history).hasEnded root.executionId = root.outcome.isSome := by
  have htrace := h.disciplined
  constructor
  · exact fun x => .of_trace htrace fun e he => never_overlooks htrace he x
  · exact fun root hroot hparent => hasEnded_of_root htrace hroot hparent

/-- The root has delegated. -/
def delegatedTree : List (Choice (Nat × Route) Env) :=
  opening ++ alone 2 "c" (.delegate "r" "lead" "work" none) 11

/-- The user terminates the root. -/
def terminatesRoot (count : Nat) : List (Choice (Nat × Route) Env) :=
  .spawn 3 (2, .terminateSession "r") :: ((List.range count).map fun i => .step 0 (calm 3 ("d" ++ toString i))) ++
    [.drop 0]

/-- The row of the root, that of the execution, and the child's. -/
example : ((current (historyOf (delegatedTree ++ terminatesRoot 7))).events.rows.map EventRow.sessionId).drop 4 =
    [some "r", none, some "c8"] := by decide +kernel

/-! ## From an interrupted termination -/

/-- The store of that tree, in which the row of the root says that it is to terminate, with this outcome. -/
@[reducible] def interrupted (outcome : Option Outcome) : Start scheduler where
  state :=
    let store := scheduler.now (historyOf delegatedTree)
    let sessions := store.db.sessions.modify "r" (fun s => { s with desired := .terminate, outcome := outcome })
      (fun _ => rfl)
    { store with db := { store.db with sessions := sessions } }

theorem grounded_interrupted (outcome : Option Outcome) : @Grounded (interrupted outcome) := by
  have hdrawn := (historyOf_reachable delegatedTree).drawn
  have hthere := (historyOf_reachable delegatedTree).hasExecutions
  let _ := interrupted outcome
  constructor
  · intro s hs
    obtain ⟨t, ht, rfl⟩ := List.mem_map.mp hs
    split
    · exact hdrawn t ht
    · exact hdrawn t ht
  · intro s hs
    obtain ⟨t, ht, rfl⟩ := List.mem_map.mp hs
    split
    · exact hthere t ht
    · exact hthere t ht

/-- The session a call cascades to. -/
def cascadedTo (e : Event scheduler) : Option Session :=
  match e.op with
  | .write (.setDesiredTerminate child .systemCascade _) => some child
  | _ => none

theorem cascadesTo_of_cascadedTo {e : Event scheduler} {child : Session} (h : cascadedTo e = some child) :
    CascadesTo e child := by
  unfold cascadedTo at h
  split at h
  · rename_i child' notify hop
    obtain rfl := Option.some.inj h
    exact ⟨notify, hop⟩
  · cases h

end AgentBeacon
