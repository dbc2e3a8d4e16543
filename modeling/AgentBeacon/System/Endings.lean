import AgentBeacon.System.Discipline

/-!
# `System.Endings` — how a root and its execution end

A root is terminated by a transaction that also ends its execution, whatever the tables held before: the two
can only stand apart in a store that is so from the start. What a request may conclude of the execution from
the replies of such transactions, and from what it has read of the root before.
-/

namespace AgentBeacon
open Relational Transaction Transition Interleave

/-! ## The end of an execution -/

section Endings

variable {ρ : Type} {E : ρ → Prop} {env : Env} {db : Db} {id : SessionId} {x : ExecutionId}

/-- The execution has an outcome, if it is there. -/
def Db.Over (db : Db) (x : ExecutionId) : Prop := ∀ row, db.execution? x = some row → row.outcome.isSome = true

theorem Db.Over.hasEnded (h : db.Over x) (hx : db.execution? x ≠ none) : db.hasEnded x = true := by
  obtain ⟨row, hrow⟩ := Option.ne_none_iff_exists'.mp hx
  unfold Db.hasEnded
  rw [hrow, Option.any_some]
  exact h row hrow

theorem Db.over_of_outcome {row : Execution} (hrow : db.execution? x = some row) (h : ¬row.outcome.isNone = true) :
    db.Over x := by
  intro row' hrow'
  obtain rfl := Option.some.inj (hrow.symm.trans hrow')
  cases hout : row.outcome with
  | none => rw [hout] at h; exact absurd rfl h
  | some o => rfl

theorem Db.over_terminal (outcome : Outcome) (now : Timestamp) :
    (db.updateExecution x (.terminal outcome now)).Over x := by
  intro row' hrow'
  rw [Db.execution?_updateExecution, if_pos rfl, Option.map_eq_some_iff] at hrow'
  obtain ⟨row, -, rfl⟩ := hrow'
  unfold ExecutionUpdate.apply
  split
  · rfl
  · -- the statement misses a row that has an outcome already
    rename_i hmissed
    cases hout : row.outcome with
    | none => exact absurd (by simp [ExecutionUpdate.matches, hout]) hmissed
    | some o => rfl

/-- After `write_execution_terminal` the execution has an outcome, and no session has changed. -/
theorem ended_writeExecutionTerminal {I : Db → Prop} (hI : ∀ db', db'.sessions = db.sessions → I db')
    (outcome : Outcome) {e : ρ} (he : E e) :
    Tx.wp (writeExecutionTerminal env x outcome e) (fun _ db' => I db' ∧ db'.Over x) E db := by
  have hover : (db.updateExecution x (.terminal outcome env.now)).Over x := Db.over_terminal outcome env.now
  unfold writeExecutionTerminal
  rw [Tx.wp_bind, DbTx.wp_updateExecution, Tx.wp_when]
  refine ⟨fun _ => ?_, fun _ => ⟨hI _ rfl, hover⟩⟩
  rw [Tx.wp_bind, DbTx.wp_insertEvent]
  exact ⟨fun _ => ⟨hI _ rfl, hover⟩, fun _ => he⟩

/-- **After `write_execution_terminal` the execution has an outcome**, written now or before. -/
theorem over_writeExecutionTerminal (outcome : Outcome) {e : ρ} (he : E e) :
    Tx.wp (writeExecutionTerminal env x outcome e) (fun _ db' => db'.Over x) E db :=
  Tx.wp_mono (ended_writeExecutionTerminal (I := fun _ => True) (fun _ _ => trivial) outcome he)
    (fun _ _ h => h.2) fun _ h => h

/-- What `derivedIf` reads. -/
theorem derivedIf_wp {wanted : Bool} {executionId : ExecutionId} {e : ρ} :
    Tx.wp (derivedIf wanted executionId e) (fun derived db' => db' = db ∧
      (wanted = false → derived = none) ∧ (wanted = true → ∃ outcome, derived = some outcome ∧
        deriveExecutionOutcome db executionId = some outcome)) (fun _ => True) db := by
  unfold derivedIf
  refine Tx.seq_read ?_
  cases wanted with
  | false => exact ⟨rfl, fun _ => rfl, fun h => by cases h⟩
  | true => exact Tx.seq_ofOption (fun o ho => ⟨rfl, fun h => (by cases h), fun _ => ⟨o, rfl, ho⟩⟩) fun _ => trivial

/-! ## What a termination answers -/

theorem Db.Terminated.resume {j : SessionId} {desiredBy : DesiredBy} (h : db.Terminated id) :
    (db.updateSession j (.resume desiredBy)).Terminated id := by
  obtain ⟨s, hs, hended⟩ := h
  by_cases hj : id = j
  · subst hj
    refine ⟨(SessionUpdate.resume desiredBy).apply s, ?_, ?_⟩
    · rw [Db.session?_updateSession, if_pos rfl, hs]
      rfl
    · unfold SessionUpdate.apply
      split
      · -- what is resumed was stopped, not terminated
        rename_i hstopped
        have hstop : s.desired = .stop := by simpa [SessionUpdate.matches] using hstopped
        rcases hended with houtcome | hterminate
        · exact .inl houtcome
        · rw [hstop] at hterminate
          cases hterminate
      · exact hended
  · refine ⟨s, ?_, hended⟩
    rw [Db.session?_updateSession_of_ne _ _ hj]
    exact hs

theorem terminated_insertEvent (h : db.Terminated id) {executionId : ExecutionId} {j : Option SessionId}
    {type : EventType} {payload : Json} {now : Timestamp} {e : ρ} (he : E e) :
    Tx.wp (DbTx.insertEvent executionId j type payload now e) (fun _ db' => db'.Terminated id) E db := by
  rw [DbTx.wp_insertEvent]
  exact ⟨fun _ => h, fun _ => he⟩

theorem terminated_resumeStopped (h : db.Terminated id) {executionId : ExecutionId} {j : SessionId}
    {desiredBy : DesiredBy} {e : ρ} (he : E e) :
    Tx.wp (resumeStopped env executionId j desiredBy e) (fun _ db' => db'.Terminated id) E db := by
  unfold resumeStopped
  rw [Tx.wp_bind, DbTx.wp_updateSession, Tx.wp_when]
  refine ⟨fun _ => ?_, fun _ => h.resume⟩
  exact Tx.seq (terminated_insertEvent h.resume he) fun _ _ h' => h'

theorem terminated_writeParentNotification {α : Type} {E : Except Rejected α → Prop} (h : db.Terminated id)
    {session : Session} {parentId : SessionId} {type : Notification} (he : ∀ reason, E (invalid reason)) :
    Tx.wp (writeParentNotification env session parentId type) (fun _ db' => db'.Terminated id) E db := by
  unfold writeParentNotification
  refine DbTx.seq_execution (fun _ _ => ?_) fun _ => he _
  rw [Tx.wp_when]
  refine ⟨fun _ => ?_, fun _ => h⟩
  refine DbTx.seq_session (fun _ _ => ?_) fun _ => he _
  rw [Tx.wp_when]
  refine ⟨fun _ => ?_, fun _ => h⟩
  refine Tx.seq (Q := fun _ db₁ => db₁.Terminated id) ?_ fun _ db₁ h₁ => ?_
  · rw [Tx.wp_when]
    exact ⟨fun _ => terminated_resumeStopped h (he _), fun _ => h⟩
  · rw [Tx.wp_bind, DbTx.wp_insertTask]
    refine ⟨fun _ => ?_, fun _ => he _⟩
    exact Tx.seq (terminated_insertEvent (by exact h₁) (he _)) fun _ _ h₂ => h₂

/-- A row that the statement has terminated. -/
theorem terminated_updateSession {row : Session} {u : SessionUpdate} (hrow : db.session? id = some row)
    (hmatches : u.matches row = true) (hset : (u.set row).desired = .terminate) :
    (db.updateSession id u).Terminated id := by
  refine ⟨u.apply row, ?_, .inr ?_⟩
  · rw [Db.session?_updateSession, if_pos rfl, hrow]
    rfl
  · rw [SessionUpdate.apply_of_matches hmatches]
    exact hset

/-- The session stays terminated when the end of an execution is written. -/
theorem closed_writeExecutionTerminal (h : db.Terminated id) (outcome : Outcome) {e : ρ} (he : E e) :
    Tx.wp (writeExecutionTerminal env x outcome e) (fun _ db' => db'.Terminated id ∧ db'.Over x) E db := by
  refine ended_writeExecutionTerminal (fun db' hsessions => ?_) outcome he
  unfold Db.Terminated Db.session?
  rw [hsessions]
  exact h

/-- What a termination answers: the session is terminated and its execution has ended, or was to terminate
already; a refusal leaves everything as it was. -/
structure Concludes (db : Db) (session : Session) (r : Except Rejected Unit) (db' : Db) : Prop where
  done : r = .ok () → db'.Terminated session.id ∧ (session.parentSessionId = none → db'.Over session.executionId)
  undone : ∀ e, r = .error e → db' = db

theorem Concludes.refusal {session : Session} {e : Rejected} : Concludes db session (.error e) db := by
  constructor
  · intro h
    cases h
  · intro _ _
    rfl

/-- A termination that changed anything was done. -/
theorem Concludes.over {session : Session} {r : Except Rejected Unit} {db' : Db} (h : Concludes db session r db')
    (hmoved : ¬db' = db) :
    db'.Terminated session.id ∧ (session.parentSessionId = none → db'.Over session.executionId) := by
  cases r with
  | ok a => exact h.done rfl
  | error e => exact absurd (h.undone e rfl) hmoved

/-- **What `set_desired` answers to a termination.** -/
theorem setDesiredTerminate_reply (env : Env) (db : Db) (session : Session) (desiredBy : DesiredBy)
    (parent : Option SessionId) :
    Concludes db session ((Write.setDesiredTerminate session desiredBy parent).run env db).1
        ((Write.setDesiredTerminate session desiredBy parent).run env db).2 ∧
      (((Write.setDesiredTerminate session desiredBy parent).run env db).1 =
        (.error .ratchet : Except Rejected Unit) →
          ∃ row, db.session? session.id = some row ∧ row.desired = .terminate) := by
  have hinvalid : ∀ reason, Concludes db session (invalid reason) db ∧
      (invalid (α := Unit) reason = .error .ratchet →
        ∃ row, db.session? session.id = some row ∧ row.desired = .terminate) := by
    intro reason
    refine ⟨.refusal, fun h => ?_⟩
    cases h
  refine rejecting_post (m := fun env => setDesiredTerminate env session desiredBy parent)
    (P := fun r db' => Concludes db session r db' ∧ (r = .error .ratchet →
      ∃ row, db.session? session.id = some row ∧ row.desired = .terminate))
    (fun message => hinvalid message) ?_
  unfold setDesiredTerminate
  refine DbTx.seq_execution (fun _ _ => ?_) fun _ => hinvalid _
  refine DbTx.seq_session (fun row hrow => ?_) fun _ => ⟨.refusal, fun h => by cases h⟩
  refine Tx.seq_require (fun hlive => Tx.seq_read ?_) fun hended =>
    ⟨.refusal, fun _ => ⟨row, hrow, not_not.mp hended⟩⟩
  -- of a root an outcome is derived, or the transaction is given up
  refine Tx.seq (Q := fun derived db₁ => db₁ = db ∧ (session.parentSessionId = none → derived ≠ none)) ?_ ?_
  · unfold derivedIf
    refine Tx.seq_read ?_
    split
    · exact Tx.seq_ofOption (fun _ _ => ⟨rfl, fun _ => Option.some_ne_none _⟩) fun _ => hinvalid _
    · rename_i hchild
      exact ⟨rfl, fun hroot => absurd (by rw [hroot]; rfl) hchild⟩
  rintro derived db₁ ⟨hsame, hderived⟩
  subst hsame
  refine DbTx.seq_updateSession (fun row' hrow' hmatches => ?_) fun hmissed => ?_
  case refine_2 =>
    -- the row that was found is live, and is hit
    have hhit : db₁.affects session.id (.terminate (sessionOutcome row (db₁.pendingTurns session.id)) desiredBy) =
        true := by
      unfold Db.affects
      rw [hrow, Option.any_some]
      simpa [SessionUpdate.matches] using hlive
    rw [hhit] at hmissed
    cases hmissed
  have hterminated := terminated_updateSession hrow' hmatches rfl
  refine Tx.seq (terminated_insertEvent hterminated (hinvalid _)) fun _ db₂ h₂ => ?_
  refine Tx.seq (Q := fun _ db₃ => db₃.Terminated session.id) ?_ fun _ db₃ h₃ => ?_
  · rw [Tx.wp_forSome]
    exact ⟨fun _ _ => terminated_writeParentNotification h₂ hinvalid, fun _ => h₂⟩
  have hdone : ∀ db', db'.Terminated session.id →
      (session.parentSessionId = none → db'.Over session.executionId) →
        Concludes db₁ session (.ok ()) db' ∧ (Except.ok () = (.error .ratchet : Except Rejected Unit) →
          ∃ row, db₁.session? session.id = some row ∧ row.desired = .terminate) := by
    intro db' hterminated hover
    refine ⟨⟨fun _ => ⟨hterminated, hover⟩, fun e he => ?_⟩, fun h => ?_⟩
    · cases he
    · cases h
  refine Tx.seq_forSome (fun outcome _ => ?_) fun hnone => ?_
  · exact Tx.wp_mono (closed_writeExecutionTerminal h₃ outcome (hinvalid _))
      (fun _ _ h => hdone _ h.1 fun _ => h.2) fun _ h => h
  · exact hdone _ h₃ fun hroot => absurd hnone (hderived hroot)

/-- **What `terminate_failed` answers.** -/
theorem terminateFailed_reply (env : Env) (db : Db) (session : Session) (desiredBy : DesiredBy)
    (requireCrashed : Bool) :
    Concludes db session ((Write.terminateFailed session desiredBy requireCrashed).run env db).1
      ((Write.terminateFailed session desiredBy requireCrashed).run env db).2 := by
  refine rejecting_post (m := fun env => terminateFailed env session desiredBy requireCrashed)
    (P := fun r db' => Concludes db session r db') (fun message => .refusal) ?_
  unfold terminateFailed
  refine DbTx.seq_execution (fun _ _ => ?_) fun _ => .refusal
  refine DbTx.seq_updateSession (fun row hrow hmatches => ?_) fun _ => .refusal
  have hterminated := terminated_updateSession hrow hmatches rfl
  refine Tx.seq (terminated_insertEvent hterminated .refusal) fun _ db₁ h₁ => ?_
  have hdone : ∀ db', db'.Terminated session.id →
      (session.parentSessionId = none → db'.Over session.executionId) → Concludes db session (.ok ()) db' := by
    intro db' hterminated hover
    refine ⟨fun _ => ⟨hterminated, hover⟩, fun e he => ?_⟩
    cases he
  refine Tx.seq_when (fun hroot => ?_) fun hchild => ?_
  · exact Tx.wp_mono (closed_writeExecutionTerminal h₁ _ .refusal) (fun _ _ h => hdone _ h.1 fun _ => h.2)
      fun _ h => h
  · exact hdone _ h₁ fun hroot => absurd (by rw [hroot]; rfl) hchild

/-- An execution that is there before a transaction and over after it has ended. -/
theorem hasEnded_of_over {w : Write} (hx : db.execution? x ≠ none) (hover : (w.run env db).2.Over x) :
    (w.run env db).2.hasEnded x = true := by
  obtain ⟨row, hrow⟩ := Option.ne_none_iff_exists'.mp hx
  obtain ⟨row', hrow', -⟩ := (w.steps env db).execution_stays hrow
  refine hover.hasEnded ?_
  rw [hrow']
  exact Option.some_ne_none row'

/-- **`repair_execution_for_terminal_root`** leaves the execution ended, unless it finds the root live or without
an outcome. -/
theorem repairExecutionForTerminalRoot_reply (env : Env) (db : Db) (root : SessionId) (executionId : ExecutionId)
    (hok : ((Write.repairExecutionForTerminalRoot root executionId).run env db).1 =
      (.ok () : Except SchedulerError Unit)) :
    ∃ row, db.session? root = some row ∧ (row.desired ≠ .terminate ∨ row.outcome = none ∨
      ((Write.repairExecutionForTerminalRoot root executionId).run env db).2.hasEnded executionId = true) := by
  have hover : db.execution? executionId ≠ none ∧ ∃ row, db.session? root = some row ∧
      (row.desired ≠ .terminate ∨ row.outcome = none ∨
        ((Write.repairExecutionForTerminalRoot root executionId).run env db).2.Over executionId) := by
    refine scheduling_post (m := fun env => Reconciler.repairExecutionForTerminalRoot env root executionId)
      (P := fun r db' => r = .ok () → db.execution? executionId ≠ none ∧ ∃ row, db.session? root = some row ∧
        (row.desired ≠ .terminate ∨ row.outcome = none ∨ db'.Over executionId))
      (fun _ _ h => by cases h) ?_ hok
    unfold Reconciler.repairExecutionForTerminalRoot
    refine DbTx.seq_execution (fun x hx => ?_) fun _ h => by cases h
    have hthere := Option.ne_none_iff_exists'.mpr ⟨x, hx⟩
    refine DbTx.seq_session (fun row hrow => ?_) fun _ h => by cases h
    refine Tx.seq_when (fun hended => ?_) fun hnot _ => ⟨hthere, row, hrow, ?_⟩
    · -- the root has ended: the execution is open and gets its outcome, or had one
      refine DbTx.seq_execution (fun txExec hexec => ?_) fun _ h => by cases h
      rw [Tx.wp_when]
      refine ⟨fun _ => Tx.seq_read (Tx.seq_ofOption (fun outcome _ => ?_) fun _ h => by cases h), fun hopen _ => ?_⟩
      · refine Tx.wp_mono (over_writeExecutionTerminal (E := fun r => r = .ok () → _) _ fun h => by cases h)
          (fun _ _ h _ => ?_) fun _ h => h
        exact ⟨hthere, row, hrow, .inr (.inr h)⟩
      · exact ⟨hthere, row, hrow, .inr (.inr (Db.over_of_outcome hexec hopen))⟩
    · -- the early return
      rcases not_not.mp hnot with hnone | hlive
      · exact .inr (.inl (Option.isNone_iff_eq_none.mp hnone))
      · exact .inl hlive
  obtain ⟨hthere, row, hrow, h⟩ := hover
  exact ⟨row, hrow, h.imp_right (Or.imp_right (hasEnded_of_over hthere))⟩

/-- **The repair of an execution** leaves it ended, when it says so. -/
theorem repairExecution_reply (env : Env) (db : Db) (session : Session)
    (hok : ((Write.repairExecution session).run env db).1 = (.ok .repaired : Reconciler.Reply)) :
    ((Write.repairExecution session).run env db).2.hasEnded session.executionId = true := by
  have hover : db.execution? session.executionId ≠ none ∧
      ((Write.repairExecution session).run env db).2.Over session.executionId := by
    refine scheduling_post (m := fun env => Reconciler.repairExecution env session)
      (P := fun r db' => r = .ok .repaired → db.execution? session.executionId ≠ none ∧ db'.Over session.executionId)
      (fun _ _ h => by cases h) ?_ hok
    unfold Reconciler.repairExecution
    refine DbTx.seq_execution (fun x hx => ?_) fun _ h => by cases h
    have hthere := Option.ne_none_iff_exists'.mpr ⟨x, hx⟩
    refine DbTx.seq_session (fun _ _ => ?_) fun _ h => by cases h
    refine Tx.seq_require (fun _ => Tx.seq_read ?_) fun _ h => by cases h
    refine Tx.seq_ofOption (fun outcome _ => ?_) fun _ h => by cases h
    refine Tx.seq (over_writeExecutionTerminal outcome fun h => by cases h) fun _ _ hover => ?_
    exact fun _ => ⟨hthere, hover⟩
  exact hasEnded_of_over hover.1 hover.2

/-- **The repair of a root's outcome** ends the execution, when it was called for an open one. -/
theorem repairRootOutcome_reply (env : Env) (db : Db) (session : Session)
    (hok : ((Write.repairRootOutcome session true).run env db).1 = (.ok .repaired : Reconciler.Reply)) :
    ((Write.repairRootOutcome session true).run env db).2.hasEnded session.executionId = true := by
  have hover : db.execution? session.executionId ≠ none ∧
      ((Write.repairRootOutcome session true).run env db).2.Over session.executionId := by
    refine scheduling_post (m := fun env => Reconciler.repairRootOutcome env session true)
      (P := fun r db' => r = .ok .repaired → db.execution? session.executionId ≠ none ∧ db'.Over session.executionId)
      (fun _ _ h => by cases h) ?_ hok
    unfold Reconciler.repairRootOutcome
    refine DbTx.seq_execution (fun x hx => ?_) fun _ h => by cases h
    have hthere := Option.ne_none_iff_exists'.mpr ⟨x, hx⟩
    refine DbTx.seq_session (fun _ _ => ?_) fun _ h => by cases h
    refine Tx.seq_require (fun _ => Tx.seq_read ?_) fun _ h => by cases h
    refine Tx.seq (Q := fun derived _ => derived ≠ none) ?_ fun derived db₁ hderived => ?_
    · refine Tx.seq_read (Tx.seq_ofOption (fun outcome _ => ?_) fun _ h => by cases h)
      exact Option.some_ne_none outcome
    rw [Tx.wp_bind, DbTx.wp_updateSession]
    refine Tx.seq_forSome (fun outcome _ => ?_) fun hnone => absurd hnone hderived
    exact Tx.wp_mono (over_writeExecutionTerminal (E := fun r => r = .ok .repaired → _) outcome fun h => by cases h)
      (fun _ _ hover _ => ⟨hthere, hover⟩) fun _ h => h
  exact hasEnded_of_over hover.1 hover.2

/-- **`repair desired`** ends the execution with a root, when it changes anything. -/
theorem repairDesired_reply (env : Env) (db : Db) (session : Session)
    (hroot : ∀ row, db.session? session.id = some row → row.parentSessionId = none) :
    ((Write.repairDesired session).run env db).2 = db ∨
      ((Write.repairDesired session).run env db).2.Over session.executionId := by
  refine scheduling_post (m := fun env => Reconciler.repairDesired env session)
    (P := fun _ db' => db' = db ∨ db'.Over session.executionId) (fun _ _ => .inl rfl) ?_
  unfold Reconciler.repairDesired
  refine DbTx.seq_execution (fun _ _ => ?_) fun _ => .inl rfl
  refine DbTx.seq_session (fun row hrow => ?_) fun _ => .inl rfl
  refine Tx.seq_when (fun hbroken => ?_) fun _ => .inl rfl
  rw [not_or] at hbroken
  have hhit : db.affects session.id .repairDesired = true := by
    refine Db.affects_iff.mpr ⟨row, hrow, ?_⟩
    have hended : row.outcome ≠ none := by simpa using hbroken.1
    simpa [SessionUpdate.matches, Option.isSome_iff_ne_none] using ⟨hbroken.2, hended⟩
  rw [Tx.wp_bind, DbTx.wp_updateSession, hhit, Tx.wp_when]
  refine ⟨fun _ => ?_, fun h => absurd rfl h⟩
  refine DbTx.seq_execution (fun txExec hexec => ?_) fun _ => .inl rfl
  rw [Tx.wp_when]
  refine ⟨fun _ => Tx.seq_read (Tx.seq_ofOption (fun outcome _ => ?_) fun _ => .inl rfl), fun hopen => ?_⟩
  · exact Tx.wp_mono (over_writeExecutionTerminal (E := fun _ => _) _ (.inl rfl)) (fun _ _ h => .inr h) fun _ h => h
  · refine .inr (Db.over_of_outcome hexec fun hnone => hopen ⟨?_, hnone⟩)
    rw [hroot row hrow]
    rfl

/-- **`recover_session_handler`** leaves the execution of a root open, when it changes anything. -/
theorem recover_reply (env : Env) (db : Db) {session : Session} (hroot : session.parentSessionId = none)
    (clearAgentSessionId : Bool) (message : Option String) :
    ((Write.recover session clearAgentSessionId message).run env db).2 = db ∨
      ((Write.recover session clearAgentSessionId message).run env db).2.hasEnded session.executionId = false := by
  have hopened : ∀ {db' : Db} {y : Execution}, db'.execution? session.executionId = some y → y.outcome = none →
      db'.hasEnded session.executionId = false := by
    intro db' y hy hnone
    unfold Db.hasEnded
    rw [hy, Option.any_some, hnone]
    rfl
  refine scheduling_post (m := fun env => SessionsApi.recover env session clearAgentSessionId message)
    (P := fun _ db' => db' = db ∨ db'.hasEnded session.executionId = false) (fun _ _ => .inl rfl) ?_
  unfold SessionsApi.recover
  refine DbTx.seq_execution (fun _ _ => ?_) fun _ => .inl rfl
  refine Tx.seq_when (fun hchild => ?_) fun _ => ?_
  · rw [hroot] at hchild
    cases hchild
  refine DbTx.seq_agent (fun _ _ => Tx.seq_require (fun _ => ?_) fun _ => .inl rfl) fun _ => .inl rfl
  refine DbTx.seq_updateSession (fun _ _ _ => ?_) fun _ => .inl rfl
  -- what is done to the session's row and its queue does not matter
  refine Tx.seq_of (Q := fun _ _ => True) (fun _ => .inl rfl) (Tx.wp_true _ _) fun _ db₁ _ => ?_
  refine Tx.seq_of (Q := fun _ db₂ => db₂.hasEnded session.executionId = false) (fun _ => .inl rfl) ?_
    fun _ db₂ h₂ => ?_
  · unfold SessionsApi.reopenIf SessionsApi.recoverExecution
    rw [hroot]
    refine DbTx.seq_execution (fun txExec hexec => ?_) fun _ => trivial
    refine Tx.seq_when (fun hended => ?_) fun hopen => ?_
    · rw [Tx.wp_bind, DbTx.wp_updateExecution]
      refine hopened (y := ExecutionUpdate.recover.apply txExec) ?_ ?_
      · rw [Db.execution?_updateExecution, if_pos rfl, hexec]
        rfl
      · have hmatches : ExecutionUpdate.recover.matches txExec = true := by
          simpa [Reconciler.executionEnded, ExecutionUpdate.matches] using hended
        unfold ExecutionUpdate.apply
        rw [if_pos hmatches]
        rfl
    · refine hopened hexec ?_
      cases hout : txExec.outcome with
      | none => rfl
      | some o => exact absurd (by simp [Reconciler.executionEnded, hout]) hopen
  refine Tx.seq_of (Q := fun _ db₃ => db₃.hasEnded session.executionId = false) (fun _ => .inl rfl) ?_
    fun _ db₃ h₃ => ?_
  · rw [DbTx.wp_insertEvent]
    exact ⟨fun _ => h₂, fun _ => trivial⟩
  refine Tx.seq_when (fun _ => ?_) fun _ => .inr h₃
  rw [Tx.wp_bind, DbTx.wp_insertEvent]
  exact ⟨fun _ => .inr h₃, fun _ => .inl rfl⟩

end Endings

/-! ## What turns a session -/

section Turns

variable {w : Write} {env : Env} {s s' : Session}

/-- The transactions that set a session to terminate. -/
def Write.turns (w : Write) (id : SessionId) : Prop :=
  (∃ session desiredBy parent, w = .setDesiredTerminate session desiredBy parent ∧ id = session.id) ∨
  (∃ session desiredBy requireCrashed, w = .terminateFailed session desiredBy requireCrashed ∧ id = session.id) ∨
  ∃ session, w = .repairDesired session ∧ id = session.id

theorem turns_of_update {u : SessionUpdate} (hu : w.updates env s u) (hlive : s.desired ≠ .terminate)
    (hended : (u.apply s).desired = .terminate) : w.turns s.id := by
  unfold SessionUpdate.apply at hended
  split at hended
  · cases u with
    | terminate outcome desiredBy =>
        obtain ⟨session, parent, hw, hid⟩ := hu
        exact .inl ⟨session, desiredBy, parent, hw, hid⟩
    | terminateFailed desiredBy requireCrashed =>
        obtain ⟨session, hw, hid⟩ := hu
        exact .inr (.inl ⟨session, desiredBy, requireCrashed, hw, hid⟩)
    | repairDesired =>
        obtain ⟨session, hw, hid⟩ := hu
        exact .inr (.inr ⟨session, hw, hid⟩)
    | _ => simp_all [SessionUpdate.set, SessionUpdate.clearCommand, SessionUpdate.issue]
  · exact absurd hended hlive

theorem turns_of_rowSteps (h : Db.RowSteps (w.permit env) s s') (hlive : s.desired ≠ .terminate)
    (hended : s'.desired = .terminate) : w.turns s.id := by
  have hkept := h.keeps (I := fun t => t.id = s.id ∧ (t.desired = .terminate → w.turns s.id))
    ⟨rfl, fun hended => absurd hended hlive⟩ fun t u hu ht => by
      refine ⟨(u.apply_identity t).1.trans ht.1, fun hended => ?_⟩
      by_cases hbefore : t.desired = .terminate
      · exact ht.2 hbefore
      · rw [← ht.1]
        exact turns_of_update hu hbefore hended
  exact hkept.2 hended

/-- Only the recovery of a failed session sets it running again once it is to terminate. -/
theorem recover_of_update {u : SessionUpdate} (hu : w.updates env s u) (hended : s.desired = .terminate)
    (hlive : (u.apply s).desired ≠ .terminate) :
    s.outcome = some .failed ∧ ∃ session clear message, w = .recover session clear message ∧ s.id = session.id := by
  unfold SessionUpdate.apply at hlive
  split at hlive
  · rename_i hm
    cases u with
    | recover clear =>
        obtain ⟨session, message, hw, hid⟩ := hu
        exact ⟨by simpa [SessionUpdate.matches] using hm, session, clear, message, hw, hid⟩
    | _ => simp_all [SessionUpdate.set, SessionUpdate.clearCommand, SessionUpdate.issue, SessionUpdate.matches]
  · exact absurd hended hlive

/-- What a recovery does to an outcome: it stands, or it was a failure of the session that is recovered. -/
theorem outcome_of_recover {u : SessionUpdate} {session : Session} {clear : Bool} {message : Option String}
    (hw : w = .recover session clear message) (hu : w.updates env s u) :
    (u.apply s).outcome = s.outcome ∨ s.outcome = some .failed ∧ s.id = session.id := by
  subst hw
  unfold SessionUpdate.apply
  split
  · rename_i hm
    cases u with
    | recover clear' =>
        obtain ⟨session', message', hw', hid⟩ := hu
        obtain ⟨rfl, -, -⟩ := Write.recover.inj hw'
        exact .inr ⟨by simpa [SessionUpdate.matches] using hm, hid⟩
    | _ => simp_all [SessionUpdate.set, Write.updates]
  · exact .inl rfl

/-- What only the recovery of a failed session takes from a row, no other transaction takes from it. -/
theorem recover_of_lost {I : Session → Prop}
    (hlose : ∀ t u, w.updates env t u → I t → ¬I (u.apply t) →
      t.outcome = some .failed ∧ ∃ session clear message, w = .recover session clear message ∧ t.id = session.id)
    (h : Db.RowSteps (w.permit env) s s') (hI : I s) (hI' : ¬I s') :
    s.outcome = some .failed ∧ ∃ session clear message, w = .recover session clear message ∧ s.id = session.id := by
  by_cases hrecover : ∃ session clear message, w = .recover session clear message
  · -- its outcome stands up to the update of the recovery, which only a failed session meets
    obtain ⟨session, clear, message, hw⟩ := hrecover
    have hkept := h.keeps (I := fun t => t.id = s.id ∧
        (I t ∧ t.outcome = s.outcome ∨ s.outcome = some .failed ∧ s.id = session.id))
      ⟨rfl, .inl ⟨hI, rfl⟩⟩ fun t u hu ht => by
        refine ⟨(u.apply_identity t).1.trans ht.1, ?_⟩
        rcases ht.2 with ⟨hbefore, hsame⟩ | hdone
        · by_cases hafter : I (u.apply t)
          · rcases outcome_of_recover hw hu with hstands | ⟨hfailed, hid⟩
            · exact .inl ⟨hafter, hstands.trans hsame⟩
            · exact .inr ⟨hsame.symm.trans hfailed, ht.1.symm.trans hid⟩
          · obtain ⟨hfailed, session', _, _, hw', hid⟩ := hlose t u hu hbefore hafter
            obtain ⟨rfl, -, -⟩ := Write.recover.inj (hw.symm.trans hw')
            exact .inr ⟨hsame.symm.trans hfailed, ht.1.symm.trans hid⟩
        · exact .inr hdone
    rcases hkept.2 with ⟨hstill, -⟩ | ⟨hfailed, hid⟩
    · exact absurd hstill hI'
    · exact ⟨hfailed, session, clear, message, hw, hid⟩
  · refine absurd (h.keeps (I := I) hI fun t u hu ht => ?_) hI'
    by_contra hno
    obtain ⟨-, session, clear, message, hw, -⟩ := hlose t u hu ht hno
    exact hrecover ⟨session, clear, message, hw⟩

end Turns

section Roots

variable [Start scheduler] [Grounded] {e : Event scheduler} {history : History} {id : SessionId} {r r' : Session}

/-- The row of a session that was there before a call descends from it. -/
theorem descends_of_call (h : Reachable (e :: history)) (hr : (before e).session? id = some r)
    (hr' : (after e).session? id = some r') :
    r' = r ∨ ∃ w, e.op = Op.write w ∧ Db.RowSteps (w.permit (envOf e)) r r' := by
  obtain ⟨hreach, hbefore, hdraw⟩ := h.of_cons
  rcases call_effect e with ⟨w, hw, hsteps⟩ | hsame
  · rcases hsteps.descends (Db.mem_of_session? hr') with ⟨t, ht, hrow⟩ | ⟨row, hins, hrow⟩
    · rw [Db.id_of_session? hr', hr] at ht
      obtain rfl := Option.some.inj ht
      exact .inr ⟨w, hw, hrow⟩
    · -- an inserted row has the id that the call drew, and that was free
      obtain ⟨_, _, _, _, _, _, _, _, rfl, -⟩ := hins
      have huuid : (envOf e).uuid = r.id :=
        hrow.identity.1.symm.trans ((Db.id_of_session? hr').trans (Db.id_of_session? hr).symm)
      exact absurd (huuid ▸ (hreach.drawn r (hbefore ▸ Db.mem_of_session? hr)).1) (hdraw w hw)
  · rw [hsame, hr] at hr'
    exact .inl (Option.some.inj hr').symm

/-- **A call that sets a root to terminate leaves its execution ended.** -/
theorem hasEnded_of_turned (h : Trace disciplined (e :: history)) (hr : (before e).session? id = some r)
    (hr' : (after e).session? id = some r') (hroot : r.parentSessionId = none) (hlive : r.desired ≠ .terminate)
    (hended : r'.desired = .terminate) : (after e).hasEnded r.executionId = true := by
  obtain ⟨htrace, hproper, -, -⟩ := h.of_cons
  have hreach := reachable_of_trace h
  obtain ⟨hearlier, hbefore, -⟩ := hreach.of_cons
  have hid := Db.id_of_session? hr
  have hseen : Seen (e :: history) r := ⟨e, List.mem_cons_self, Db.mem_of_session? hr⟩
  have hidentity := hreach.identity hseen (Db.mem_of_session? hr')
    ((Db.id_of_session? hr').trans hid.symm)
  -- the execution is there: the row that was left belongs to it
  have hthere : (after e).execution? r.executionId ≠ none := by
    rw [← hidentity.1]
    exact hreach.hasExecutions r' (Db.mem_of_session? hr')
  have hsnap : ∀ session, Seen history session → session.id = id → SameIdentity session r := by
    intro session hsession hsid
    exact hearlier.identity hsession (hbefore ▸ Db.mem_of_session? hr) (hid.trans hsid.symm)
  have hmoved : ¬after e = before e := by
    intro hsame
    rw [hsame, hr] at hr'
    obtain rfl := Option.some.inj hr'
    exact hlive hended
  rcases descends_of_call hreach hr hr' with rfl | ⟨w, hw, hrow⟩
  · exact absurd hended hlive
  · have hover : (after e).Over r.executionId := by
      rcases turns_of_rowSteps hrow hlive hended with ⟨session, desiredBy, parent, rfl, hsid⟩ |
        ⟨session, desiredBy, requireCrashed, rfl, hsid⟩ | ⟨session, rfl, hsid⟩
      · have hsame := hsnap session (hproper _ hw).1 (hsid.symm.trans hid)
        have hreply := (setDesiredTerminate_reply (envOf e) (before e) session desiredBy parent).1
        rw [← after_write hw] at hreply
        rw [hsame.1]
        exact (hreply.over hmoved).2 (hsame.2.1.symm.trans hroot)
      · have hsame := hsnap session (hproper _ hw) (hsid.symm.trans hid)
        have hreply := terminateFailed_reply (envOf e) (before e) session desiredBy requireCrashed
        rw [← after_write hw] at hreply
        rw [hsame.1]
        exact (hreply.over hmoved).2 (hsame.2.1.symm.trans hroot)
      · have hsame := hsnap session (hproper _ hw) (hsid.symm.trans hid)
        have hreply := repairDesired_reply (envOf e) (before e) session fun row hrow => by
          rw [← hsid, hid, hr] at hrow
          obtain rfl := Option.some.inj hrow
          exact hroot
        rw [← after_write hw] at hreply
        rw [hsame.1]
        exact hreply.resolve_left hmoved
    exact hover.hasEnded hthere

/-- **What was found to terminate, and was not always so, has been announced.** -/
theorem announced_of_terminating (h : Trace disciplined history) {s q : Session} (hs : Seen history s)
    (hq : Seen history q) (hid : q.id = s.id) (hended : s.desired = .terminate) (hlive : q.desired ≠ .terminate) :
    Announced history s.id := by
  have hreach := reachable_of_trace h
  refine ⟨hs.foundEnded (.inr hended), s, hs, rfl, fun hroot => ?_⟩
  rcases hreach.turns_of_seen (I := fun t => t.desired = .terminate) hs hq hid hended hlive with
    ⟨e, earlier, hsuffix, r, r', hr, hr', hbefore, hafter⟩ | ⟨e, earlier, hsuffix, r, r', hr, hr', hbefore, hafter⟩ <;>
    have htrace := h.of_suffix hsuffix <;>
    have hmem : e ∈ history := hsuffix.subset List.mem_cons_self <;>
    have hsame := hreach.seen_identity hs ⟨e, hmem, Db.mem_of_session? hr⟩ (Db.id_of_session? hr)
  · -- it was set running again: a recovery, of an execution that had ended, or was overlooked
    rcases descends_of_call (reachable_of_trace htrace) hr hr' with rfl | ⟨w, hw, hrow⟩
    · exact absurd hbefore hafter
    obtain ⟨hfailed, session, clear, message, rfl, hsid⟩ :=
      recover_of_lost (fun _ _ => recover_of_update) hrow hbefore hafter
    obtain ⟨hearlier, hproper, -, -⟩ := htrace.of_cons
    have hseen : Seen history session := (hproper _ hw).mono ((List.suffix_cons _ _).trans hsuffix)
    have hsession := hreach.seen_identity hseen hs ((Db.id_of_session? hr).symm.trans hsid)
    cases hopen : (before e).hasEnded s.executionId with
    | true => exact .inl ⟨e, hmem, .inl hopen⟩
    | false =>
        refine .inr ⟨e, hmem, hopen, .inr ⟨session, clear, message, hw, hsession.1.symm,
          hsession.2.1.symm.trans hroot, r, ?_, hfailed⟩⟩
        rw [← hsid]
        rw [Db.id_of_session? hr]
        exact hr
  · -- it was set to terminate, and its execution ended with it
    refine .inl ⟨e, hmem, .inr ?_⟩
    rw [← hsame.1]
    exact hasEnded_of_turned htrace hr hr' (hsame.2.1.trans hroot) hbefore (not_not.mp hafter)

end Roots

end AgentBeacon
