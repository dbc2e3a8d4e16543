import AgentBeacon.Correctness.Depth
import AgentBeacon.System.Onward

/-!
# `Correctness.Milestones` — what the repairs of a pass achieve

What a pass has to achieve for a session before it comes to the children: its worker, if lost, is released, it is
to terminate, it has an outcome, and so has its execution when it is the root. Each is a milestone that later
states keep; and the transaction that is meant to reach it does, when nothing fails.
-/

namespace AgentBeacon
open Relational Transaction Interleave Interleave.Way Transition Reconciler

/-! ## Milestones -/

/-- What happens to a session once. -/
inductive Milestone where
  /-- No worker runs it. -/
  | released
  /-- It is to terminate. -/
  | condemned
  /-- It has an outcome. -/
  | ended
  /-- Its execution has an outcome. -/
  | settled
  deriving DecidableEq

/-- The milestone is behind the session with this row. -/
def Db.passed (db : Db) (s : Session) : Milestone → Prop
  | .released => s.workerId = none
  | .condemned => s.desired = .terminate
  | .ended => s.outcome.isSome = true
  | .settled => ∃ x, db.execution? s.executionId = some x ∧ x.outcome.isSome = true

/-- The session has come past the milestone. -/
def Db.Past (db : Db) (id : SessionId) (m : Milestone) : Prop := ∃ s, db.session? id = some s ∧ db.passed s m

/-- A database whose sessions belong to executions, and whose children belong to their parents' executions. -/
structure Db.Contained (db : Db) : Prop where
  execution : ∀ id s, db.session? id = some s → ∃ x, db.execution? s.executionId = some x
  parent : ∀ id s, db.session? id = some s → ∀ parentId, s.parentSessionId = some parentId →
    ∃ p, db.session? parentId = some p ∧ p.executionId = s.executionId

namespace Db

variable {db db' : Db} {id : SessionId}

theorem Past.onward {m : Milestone} (h : db.Past id m) (hlater : Db.Onward db db') : db'.Past id m := by
  obtain ⟨s, hs, hpassed⟩ := h
  obtain ⟨s', hs', hrow⟩ := hlater.session id s hs
  refine ⟨s', hs', ?_⟩
  cases m with
  | released =>
      show s'.workerId = none
      -- a later row has no worker but the one it had
      cases hworker : s'.workerId with
      | none => rfl
      | some w =>
          have hbefore := hrow.worker w hworker
          rw [show s.workerId = none from hpassed] at hbefore
          cases hbefore
  | condemned => exact hrow.desired hpassed
  | ended => exact hrow.outcome hpassed
  | settled =>
      obtain ⟨x, hx, hout⟩ := hpassed
      obtain ⟨x', hx', hkeeps⟩ := hlater.execution _ x hx
      exact ⟨x', hrow.execution ▸ hx', hkeeps hout⟩

theorem Contained.onward (h : db.Contained) (hlater : Db.Onward db db') : db'.Contained := by
  refine ⟨fun id s' hs' => ?_, fun id s' hs' parentId hparent => ?_⟩
  · obtain ⟨s, hs, hrow⟩ := hlater.back id s' hs'
    obtain ⟨x, hx⟩ := h.execution id s hs
    obtain ⟨x', hx', -⟩ := hlater.execution _ x hx
    exact ⟨x', hrow.execution ▸ hx'⟩
  · obtain ⟨s, hs, hrow⟩ := hlater.back id s' hs'
    obtain ⟨p, hp, hsame⟩ := h.parent id s hs parentId (hrow.parent ▸ hparent)
    obtain ⟨p', hp', hprow⟩ := hlater.session parentId p hp
    exact ⟨p', hp', hprow.execution.trans (hsame.trans hrow.execution.symm)⟩

/-- The outcome of an execution can be derived. -/
theorem derive_of_contained (h : db.Contained) (executionId : ExecutionId) :
    ∃ outcome, deriveExecutionOutcome db executionId = some outcome := by
  have hpass : ∀ l : List Session, (∀ s ∈ l, s ∈ db.sessions.rows) →
      ∃ outcome, unnotifiedPass db l = some outcome := by
    intro l hl
    induction l with
    | nil => exact ⟨.completed, rfl⟩
    -- the look at a child's parent is what could fail
    | cons s rest ih =>
        obtain ⟨outcome, hrest⟩ := ih fun s hs => hl s (List.mem_cons_of_mem _ hs)
        unfold unnotifiedPass
        cases hparent : s.parentSessionId with
        | none => exact ⟨outcome, hrest⟩
        | some parentId =>
            obtain ⟨p, hp, -⟩ := h.parent s.id s (Db.session?_of_mem (hl s List.mem_cons_self)) parentId hparent
            simp only [hp]
            split
            · split
              · exact ⟨.canceled, rfl⟩
              · exact ⟨outcome, hrest⟩
            · exact ⟨outcome, hrest⟩
  unfold deriveExecutionOutcome
  dsimp only
  split
  · exact ⟨.failed, rfl⟩
  · split
    · exact ⟨.canceled, rfl⟩
    · split
      · exact ⟨.canceled, rfl⟩
      · exact hpass _ fun s hs => (List.mem_filter.mp hs).1

/-- An update that matches takes its session past a milestone that the new row is past. -/
theorem past_of_matches {u : SessionUpdate} {row : Session} {m : Milestone} (hs : db.session? id = some row)
    (hm : u.matches row = true) (hpassed : db.passed (u.set row) m) : (db.updateSession id u).Past id m := by
  refine ⟨u.set row, ?_, ?_⟩
  · rw [session?_updateSession, if_pos rfl, hs, Option.map_some, SessionUpdate.apply_of_matches hm]
  · cases m with
    | settled => simpa [passed] using hpassed
    | _ => exact hpassed

end Db

/-! ## Transactions that succeed -/

section Lands

variable {env : Env} {db : Db} {session row : Session}

/-- What a transaction reaches, whether it commits or rolls back. -/
theorem scheduling_lands {α : Type} {m : Env → DbTx (Except SchedulerError α) (Except SchedulerError α)} {Q : Db → Prop}
    (hfault : env.fault = none) (h : Tx.wp (m env) (fun _ db' => Q db') (fun _ => Q db) db) :
    Q ((DbTransaction.scheduling m).run env db).2 := by
  unfold DbTransaction.run
  rw [hfault]
  exact Tx.commit_post (P := fun _ db' => Q db') h

theorem rejecting_lands {α : Type} {m : Env → DbTx (Except Rejected α) (Except Rejected α)} {Q : Db → Prop}
    (hfault : env.fault = none) (h : Tx.wp (m env) (fun _ db' => Q db') (fun _ => Q db) db) :
    Q ((DbTransaction.rejecting m).run env db).2 := by
  unfold DbTransaction.run
  rw [hfault]
  exact Tx.commit_post (P := fun _ db' => Q db') h

/-- An execution is ended, whatever it was. -/
theorem writeExecutionTerminal_lands {ρ : Type} {E : ρ → Prop} {executionId : ExecutionId} {outcome : Outcome} {e : ρ}
    {x : Execution} (hx : db.execution? executionId = some x) (hnumbers : db.events.next ≤ maxRowId) :
    Tx.wp (writeExecutionTerminal env executionId outcome e) (fun _ db' => (∀ j, db'.session? j = db.session? j) ∧
      ∃ x', db'.execution? executionId = some x' ∧ x'.outcome.isSome = true) E db := by
  have hended : ∃ x', (db.updateExecution executionId (.terminal outcome env.now)).execution? executionId = some x' ∧
      x'.outcome.isSome = true := by
    refine ⟨_, by rw [Db.execution?_updateExecution, if_pos rfl, hx]; rfl, ?_⟩
    unfold ExecutionUpdate.apply
    split
    · rfl
    · next hno =>
        cases hout : x.outcome with
        | none => simp [ExecutionUpdate.matches, hout] at hno
        | some o => rfl
  unfold writeExecutionTerminal
  rw [Tx.wp_bind, DbTx.wp_updateExecution, Tx.wp_when]
  refine ⟨fun _ => ?_, fun _ => ⟨fun _ => rfl, hended⟩⟩
  rw [Tx.wp_bind, DbTx.wp_insertEvent]
  refine ⟨fun _ => ⟨fun j => ?_, ?_⟩, fun hno => absurd ⟨fun j hj => (by cases hj), ?_⟩ hno⟩
  · simp
  · simpa using hended
  · simpa using hnumbers

/-- **A lost worker is gone.** -/
theorem detectCrash_lands (hfault : env.fault = none) (hnumbers : db.events.next ≤ maxRowId)
    (hdb : db.Contained) (hrow : db.session? session.id = some row) (hexec : row.executionId = session.executionId)
    (decidedOn : Session) (noticed : Bool) :
    ((Write.detectCrash session decidedOn noticed).run env db).2.Past session.id .released := by
  refine rejecting_lands (m := fun env => Transition.detectCrash env session)
    (Q := fun db' => db'.Past session.id .released) hfault ?_
  unfold Transition.detectCrash
  obtain ⟨x, hx⟩ := hdb.execution _ row hrow
  refine DbTx.seq_execution (fun _ _ => ?_) fun hno => ?_
  · refine DbTx.seq_session (fun current hcurrent => ?_) fun hno => ?_
    · refine DbTx.seq_updateSession (fun row' hrow' hm => ?_) fun hno => ?_
      · have hgone : (db.updateSession session.id .detectCrash).Past session.id .released :=
          Db.past_of_matches hrow' hm rfl
        rw [Tx.wp_bind, Tx.wp_when]
        refine ⟨fun _ => ?_, fun _ => hgone⟩
        rw [Tx.wp_bind, DbTx.wp_insertEvent]
        refine ⟨fun _ => by simpa [Db.Past, Db.passed] using hgone, fun hno => absurd ⟨?_, ?_⟩ hno⟩
        · intro j hj
          obtain rfl := Option.some.inj hj
          obtain rfl := Option.some.inj (hrow.symm.trans hrow')
          refine ⟨_, by rw [Db.session?_updateSession, if_pos rfl, hrow]; rfl, ?_⟩
          rw [(SessionUpdate.apply_identity _ row).2.1, hexec]
        · simpa using hnumbers
      · -- nothing to release
        refine ⟨row, hrow, ?_⟩
        cases hworker : row.workerId with
        | none => exact hworker
        | some w =>
            have hyes : db.affects session.id .detectCrash = true :=
              Db.affects_iff.mpr ⟨row, hrow, by simp [SessionUpdate.matches, hworker]⟩
            rw [hyes] at hno
            cases hno
    · rw [hrow] at hno
      cases hno
  · rw [← hexec, hx] at hno
    cases hno

theorem derivedIf_lands {ρ : Type} {E : ρ → Prop} (hdb : db.Contained) {wanted : Bool} {executionId : ExecutionId}
    {e : ρ} : Tx.wp (derivedIf wanted executionId e) (fun _ db' => db' = db) E db := by
  unfold derivedIf
  refine Tx.seq_read ?_
  split
  · refine Tx.seq_ofOption (fun _ _ => rfl) fun hno => ?_
    obtain ⟨outcome, hderived⟩ := Db.derive_of_contained hdb executionId
    rw [hderived] at hno
    cases hno
  · rfl

/-- The outcome of a root is repaired. -/
theorem repairRootOutcome_lands (hfault : env.fault = none) (hnumbers : db.events.next ≤ maxRowId)
    (hdb : db.Contained) (hrow : db.session? session.id = some row) (hexec : row.executionId = session.executionId)
    (hdesired : row.desired = .terminate) (executionOpen : Bool) :
    ((Write.repairRootOutcome session executionOpen).run env db).2.Past session.id .ended := by
  refine scheduling_lands (m := fun env => Reconciler.repairRootOutcome env session executionOpen)
    (Q := fun db' => db'.Past session.id .ended) hfault ?_
  unfold Reconciler.repairRootOutcome
  obtain ⟨x, hx⟩ := hdb.execution _ row hrow
  rw [hexec] at hx
  refine DbTx.seq_execution (fun _ _ => ?_) fun hno => ?_
  case refine_2 =>
    rw [hx] at hno
    cases hno
  refine DbTx.seq_session (fun current hcurrent => ?_) fun hno => ?_
  case refine_2 =>
    rw [hrow] at hno
    cases hno
  obtain rfl := Option.some.inj (hrow.symm.trans hcurrent)
  refine Tx.seq_require (fun hbroken => Tx.seq_read ?_) fun hno => ?_
  case refine_2 =>
    refine ⟨row, hrow, ?_⟩
    rcases not_not.mp hno with hlive | hended
    · exact absurd hdesired hlive
    · exact hended
  refine Tx.seq (derivedIf_lands hdb) fun derived db₁ hsame => ?_
  subst hsame
  have hopen : row.outcome = none := by
    cases hout : row.outcome with
    | none => rfl
    | some o => exact absurd (.inr (by rw [hout]; rfl)) hbroken
  have hended (outcome : Outcome) :
      (db₁.updateSession session.id (.repairRootOutcome outcome)).Past session.id .ended :=
    Db.past_of_matches hrow (by simp [SessionUpdate.matches, hopen]) rfl
  rw [Tx.wp_bind, DbTx.wp_updateSession]
  refine Tx.seq_forSome (fun outcome _ => ?_) fun _ => hended _
  refine Tx.wp_mono (writeExecutionTerminal_lands (E := fun _ => False) (x := x) ?_ ?_) ?_ fun e he => he.elim
  · rw [Db.execution?_updateSession]
    exact hx
  · simpa using hnumbers
  · rintro _ db₂ ⟨hsame, -⟩
    obtain ⟨s, hs, hpassed⟩ := hended (sessionOutcome row (db₁.pendingTurns session.id))
    exact ⟨s, (hsame _).trans hs, hpassed⟩

/-- The outcome of a child is repaired. -/
theorem repairChildOutcome_lands (hfault : env.fault = none) (hdb : db.Contained)
    (hrow : db.session? session.id = some row) (hexec : row.executionId = session.executionId)
    (hdesired : row.desired = .terminate) :
    ((Write.repairChildOutcome session).run env db).2.Past session.id .ended := by
  refine scheduling_lands (m := fun _ => Reconciler.repairChildOutcome session)
    (Q := fun db' => db'.Past session.id .ended) hfault ?_
  unfold Reconciler.repairChildOutcome
  obtain ⟨x, hx⟩ := hdb.execution _ row hrow
  rw [hexec] at hx
  refine DbTx.seq_execution (fun _ _ => ?_) fun hno => ?_
  case refine_2 =>
    rw [hx] at hno
    cases hno
  refine DbTx.seq_session (fun current hcurrent => ?_) fun hno => ?_
  case refine_2 =>
    rw [hrow] at hno
    cases hno
  obtain rfl := Option.some.inj (hrow.symm.trans hcurrent)
  have hid := Db.id_of_session? hrow
  refine Tx.seq_when (fun hbroken => Tx.seq_read ?_) fun hfine => ?_
  · have hopen : row.outcome = none := by
      cases hout : row.outcome with
      | none => rfl
      | some o => exact absurd (.inl (by rw [hout]; rfl)) hbroken
    rw [Tx.wp_bind, DbTx.wp_updateSession, hid]
    exact Db.past_of_matches hrow (by simp [SessionUpdate.matches, hopen, hdesired]) rfl
  · refine ⟨row, hrow, ?_⟩
    rcases not_not.mp hfine with hended | hlive
    · exact hended
    · exact absurd hdesired hlive

/-- A session with an outcome is to terminate, after the repair. -/
theorem repairDesired_lands (hfault : env.fault = none) (hnumbers : db.events.next ≤ maxRowId)
    (hdb : db.Contained) (hrow : db.session? session.id = some row) (hexec : row.executionId = session.executionId)
    (hended : row.outcome.isSome = true) :
    ((Write.repairDesired session).run env db).2.Past session.id .condemned := by
  refine scheduling_lands (m := fun env => Reconciler.repairDesired env session)
    (Q := fun db' => db'.Past session.id .condemned) hfault ?_
  unfold Reconciler.repairDesired
  obtain ⟨x, hx⟩ := hdb.execution _ row hrow
  rw [hexec] at hx
  refine DbTx.seq_execution (fun _ _ => ?_) fun hno => ?_
  case refine_2 =>
    rw [hx] at hno
    cases hno
  refine DbTx.seq_session (fun current hcurrent => ?_) fun hno => ?_
  case refine_2 =>
    rw [hrow] at hno
    cases hno
  obtain rfl := Option.some.inj (hrow.symm.trans hcurrent)
  refine Tx.seq_when (fun hbroken => ?_) fun hfine => ?_
  case refine_2 =>
    refine ⟨row, hrow, ?_⟩
    rcases not_not.mp hfine with hopen | hdoomed
    · simp [Option.isNone_iff_eq_none.mp hopen] at hended
    · exact hdoomed
  have hlive : row.desired ≠ .terminate := fun hdoomed => hbroken (.inr hdoomed)
  have hdoomed : (db.updateSession session.id .repairDesired).Past session.id .condemned :=
    Db.past_of_matches hrow (by simp [SessionUpdate.matches, hlive, hended]) rfl
  have hx₁ : (db.updateSession session.id .repairDesired).execution? session.executionId = some x := by
    rw [Db.execution?_updateSession]
    exact hx
  rw [Tx.wp_bind, DbTx.wp_updateSession, Tx.wp_when]
  refine ⟨fun _ => ?_, fun _ => hdoomed⟩
  refine DbTx.seq_execution (fun _ _ => ?_) fun hno => ?_
  case refine_2 =>
    rw [hx₁] at hno
    cases hno
  rw [Tx.wp_when]
  refine ⟨fun _ => Tx.seq_read (Tx.seq_ofOption (fun outcome _ => ?_) fun hno => ?_), fun _ => hdoomed⟩
  · refine Tx.wp_mono (writeExecutionTerminal_lands (E := fun _ => False) hx₁ ?_) ?_ fun e he => he.elim
    · simpa using hnumbers
    · rintro _ db₂ ⟨hsame, -⟩
      obtain ⟨s, hs, hpassed⟩ := hdoomed
      exact ⟨s, (hsame _).trans hs, hpassed⟩
  · have hlater : Db.Onward db (db.updateSession session.id .repairDesired) :=
      @onward_of_step (.repairDesired session) env rfl _ _
        (.updateSession (fun s hs => ⟨session, rfl, Db.id_of_session? hs⟩) fun _ h => by cases h)
    obtain ⟨outcome, hderived⟩ := Db.derive_of_contained (hdb.onward hlater) session.executionId
    rw [hderived] at hno
    cases hno

/-- The execution of a root with an outcome is ended. -/
theorem repairExecution_lands (hfault : env.fault = none) (hnumbers : db.events.next ≤ maxRowId)
    (hdb : db.Contained) (hrow : db.session? session.id = some row) (hexec : row.executionId = session.executionId)
    (hended : row.outcome.isSome = true) :
    ((Write.repairExecution session).run env db).2.Past session.id .settled := by
  refine scheduling_lands (m := fun env => Reconciler.repairExecution env session)
    (Q := fun db' => db'.Past session.id .settled) hfault ?_
  unfold Reconciler.repairExecution
  obtain ⟨x, hx⟩ := hdb.execution _ row hrow
  rw [hexec] at hx
  refine DbTx.seq_execution (fun _ _ => ?_) fun hno => ?_
  case refine_2 =>
    rw [hx] at hno
    cases hno
  refine DbTx.seq_session (fun current hcurrent => ?_) fun hno => ?_
  case refine_2 =>
    rw [hrow] at hno
    cases hno
  obtain rfl := Option.some.inj (hrow.symm.trans hcurrent)
  refine Tx.seq_require (fun _ => Tx.seq_read ?_) fun hno => absurd hended hno
  refine Tx.seq_ofOption (fun outcome _ => ?_) fun hno => ?_
  case refine_2 =>
    obtain ⟨outcome, hderived⟩ := Db.derive_of_contained hdb session.executionId
    rw [hderived] at hno
    cases hno
  refine Tx.seq (writeExecutionTerminal_lands hx hnumbers) ?_
  rintro _ db₁ ⟨hsame, hsettled⟩
  exact ⟨row, (hsame _).trans hrow, by rw [Db.passed, hexec]; exact hsettled⟩

/-- A child is terminated. -/
theorem setDesiredTerminate_lands (hfault : env.fault = none) (hnumbers : db.events.next ≤ maxRowId)
    (hdb : db.Contained) (hrow : db.session? session.id = some row) (hexec : row.executionId = session.executionId)
    (hchild : session.parentSessionId.isSome = true) (desiredBy : DesiredBy) :
    ((Write.setDesiredTerminate session desiredBy none).run env db).2.Past session.id .condemned := by
  refine rejecting_lands (m := fun env => Transition.setDesiredTerminate env session desiredBy none)
    (Q := fun db' => db'.Past session.id .condemned) hfault ?_
  unfold Transition.setDesiredTerminate
  obtain ⟨x, hx⟩ := hdb.execution _ row hrow
  rw [hexec] at hx
  refine DbTx.seq_execution (fun _ _ => ?_) fun hno => ?_
  case refine_2 =>
    rw [hx] at hno
    cases hno
  refine DbTx.seq_session (fun current hcurrent => ?_) fun hno => ?_
  case refine_2 =>
    rw [hrow] at hno
    cases hno
  obtain rfl := Option.some.inj (hrow.symm.trans hcurrent)
  refine Tx.seq_require (fun hlive => Tx.seq_read ?_) fun hno => ⟨row, hrow, not_not.mp hno⟩
  refine Tx.seq (Q := fun derived db₁ => derived = none ∧ db₁ = db) ?_ ?_
  · unfold derivedIf
    refine Tx.seq_read ?_
    rw [if_neg (by simp [Option.isSome_iff_ne_none.mp hchild])]
    exact ⟨rfl, rfl⟩
  rintro _ db₁ ⟨rfl, rfl⟩
  refine DbTx.seq_updateSession (fun row' hrow' hm => ?_) fun hno => ?_
  · obtain rfl := Option.some.inj (hrow.symm.trans hrow')
    have hdoomed := Db.past_of_matches (m := .condemned) hrow hm rfl
    rw [Tx.wp_bind, DbTx.wp_insertEvent]
    refine ⟨fun _ => ?_, fun hno => absurd ⟨?_, ?_⟩ hno⟩
    · simpa [Tx.forSome, Db.Past, Db.passed] using hdoomed
    · intro j hj
      obtain rfl := Option.some.inj hj
      refine ⟨_, by rw [Db.session?_updateSession, if_pos rfl, hrow]; rfl, ?_⟩
      rw [(SessionUpdate.apply_identity _ row).2.1, hexec]
    · simpa using hnumbers
  · have hyes : db₁.affects session.id (.terminate (sessionOutcome row (db₁.pendingTurns session.id)) desiredBy) =
        true := Db.affects_iff.mpr ⟨row, hrow, by simp [SessionUpdate.matches, hlive]⟩
    rw [hyes] at hno
    cases hno

end Lands

end AgentBeacon
