import AgentBeacon.System.Effects

/-!
# `System.Continuation` — what a continuation and a recovery find and leave

A continuation hands two things from an ended session to its successor: the worktree and the SDK
conversation. Both are columns that no other session should name. What the transaction finds when it
goes through, and what it makes of these columns, is said here once; likewise what a recovery and a
delegation find. Who may hold what over a whole run is derived from it.
-/

namespace AgentBeacon
open Relational Transaction Transition

/-! ## What a session holds -/

/-- The columns that are handed over, and whether the session has ended. -/
structure Holdings where
  outcome : Option Outcome
  worktreePath : Option String
  agentSessionId : Option String
  deriving DecidableEq

def Session.holdings (s : Session) : Holdings where
  outcome := s.outcome
  worktreePath := s.worktreePath
  agentSessionId := s.agentSessionId

namespace Db

/-- What the session under an id holds. -/
def holdings (db : Db) (id : SessionId) : Option Holdings := (db.session? id).map Session.holdings

theorem holdings_of_session? {db : Db} {id : SessionId} {s : Session} (h : db.session? id = some s) :
    db.holdings id = some s.holdings := by
  unfold holdings
  rw [h]
  rfl

/-- An update that acts on the holdings alone. -/
theorem holdings_updateSession {db : Db} {id : SessionId} {u : SessionUpdate}
    (g : Holdings → Holdings) (h : ∀ s, (u.apply s).holdings = g s.holdings) :
    (db.updateSession id u).holdings = fun j => if j = id then (db.holdings j).map g else db.holdings j := by
  funext j
  unfold holdings
  rw [session?_updateSession]
  split
  · rename_i hj
    subst hj
    rw [Option.map_map, Option.map_map]
    exact congrArg (fun f => Option.map f (db.session? j)) (funext h)
  · rfl

theorem holdings_resume {db : Db} {id : SessionId} {desiredBy : DesiredBy} :
    (db.updateSession id (.resume desiredBy)).holdings = db.holdings := by
  have hsame : ∀ s, ((SessionUpdate.resume desiredBy).apply s).holdings = s.holdings := by
    intro s
    unfold SessionUpdate.apply
    split <;> rfl
  rw [holdings_updateSession (fun h => h) hsame]
  funext j
  split <;> simp

theorem holdings_insertSession {db : Db} {row : Session} {sessions : Sessions}
    (ht : db.sessions.insert? row = some sessions) :
    Db.holdings { db with sessions } =
      fun j => if j = row.id then some row.holdings else db.holdings j := by
  funext j
  show (sessions.find? j).map Session.holdings = _
  rw [Table.find?_insert? ht]
  split <;> rfl

end Db

/-! ## Statements that hand nothing over -/

section Statements

variable {ρ : Type} {E : ρ → Prop} {db : Db} {H : SessionId → Option Holdings}

theorem wp_insertEvent_holdings {executionId : ExecutionId} {id : Option SessionId}
    {eventType : EventType} {payload : Json} {now : Timestamp} {e : ρ} (hE : ∀ e, E e)
    (h : db.holdings = H) :
    Tx.wp (DbTx.insertEvent executionId id eventType payload now e) (fun _ db' => db'.holdings = H) E
      db := by
  rw [DbTx.wp_insertEvent]
  exact ⟨fun _ => h, fun _ => hE e⟩

theorem wp_insertTask_holdings {executionId : ExecutionId} {id : SessionId} {payload : Json}
    {source : Option TaskSource} {now : Timestamp} {e : ρ} (hE : ∀ e, E e) (h : db.holdings = H) :
    Tx.wp (DbTx.insertTask executionId id payload source now e) (fun _ db' => db'.holdings = H) E
      db := by
  rw [DbTx.wp_insertTask]
  exact ⟨fun _ => h, fun _ => hE e⟩

theorem wp_resumeStopped_holdings {env : Env} {executionId : ExecutionId} {id : SessionId}
    {desiredBy : DesiredBy} {e : ρ} (hE : ∀ e, E e) (h : db.holdings = H) :
    Tx.wp (resumeStopped env executionId id desiredBy e) (fun _ db' => db'.holdings = H) E db := by
  unfold resumeStopped
  rw [Tx.wp_bind, DbTx.wp_updateSession, Tx.wp_when]
  have hresumed : (db.updateSession id (.resume desiredBy)).holdings = H := by
    rw [Db.holdings_resume]
    exact h
  refine ⟨fun _ => ?_, fun _ => hresumed⟩
  exact Tx.seq (wp_insertEvent_holdings hE hresumed) fun _ _ h' => h'

theorem seq_insertSession {β : Type} {row : Session} {e e' : ρ} {f : Unit → DbTx ρ β}
    {R : β → Db → Prop} (hE : ∀ e, E e)
    (h : ∀ sessions, db.sessions.insert? row = some sessions → Tx.wp (f ()) R E { db with sessions }) :
    Tx.wp (DbTx.insertSession row e e' >>= f) R E db := by
  unfold DbTx.insertSession
  simp only [Tx.wp_bind, Tx.wp_read, Tx.wp_require, Tx.wp_ofOption, Tx.wp_write]
  exact ⟨fun _ => ⟨fun _ => ⟨fun sessions hs => h sessions hs, fun _ => hE _⟩, fun _ => hE _⟩,
    fun _ => hE _⟩

end Statements

/-! ## A continuation -/

/-- The rechecks of `continue_from_handler`. -/
def Continues (db : Db) (old : Session) (parentId : SessionId) : Prop :=
  (∃ row ∈ db.session? old.id, row.outcome.isSome ∧ row.commandToken = none ∧ row.workerId = none) ∧
  (∃ exec ∈ db.execution? old.executionId, exec.outcome = none ∧ exec.desired = .run) ∧
  (∃ parent ∈ db.session? parentId, parent.outcome = none ∧ parent.desired ≠ .terminate) ∧
  ∃ agent ∈ db.agent? old.agentId, agent.enabled = true

instance (db : Db) (old : Session) (parentId : SessionId) : Decidable (Continues db old parentId) :=
  inferInstanceAs (Decidable (_ ∧ _ ∧ _ ∧ _))

/-- What everybody holds after a continuation that has found `row` for the old session: the worktree
is the one its caller has read, the conversation the one the row names. -/
def handedOver (db : Db) (old row : Session) (newId : SessionId) (resumable : Bool) :
    SessionId → Option Holdings := fun j =>
  if j = newId then
    some ⟨none, old.worktreePath, if resumable then row.agentSessionId else none⟩
  else if j = old.id then
    some ⟨row.outcome, if old.worktreePath.isSome then none else row.worktreePath,
      if resumable then none else row.agentSessionId⟩
  else db.holdings j

section Transfer

variable {ρ : Type} {E : ρ → Prop} {db : Db} {old row : Session} {newId : SessionId}

/-- The worktree, after the successor has been inserted. -/
theorem wp_handOver (hrow : db.session? old.id = some row) (hnew : newId ≠ old.id)
    {db₁ : Db} (h : db₁.holdings = fun j => if j = newId then some ⟨none, old.worktreePath, none⟩
      else db.holdings j) :
    Tx.wp (Tx.when old.worktreePath.isSome do
        let _ ← DbTx.updateSession (ρ := ρ) old.id .handOverWorktree)
      (fun _ db₂ => db₂.holdings = handedOver db old row newId false) E db₁ := by
  have hold := Db.holdings_of_session? hrow
  have hhand : ∀ s, (SessionUpdate.handOverWorktree.apply s).holdings =
      { s.holdings with worktreePath := none } := fun _ => rfl
  rw [Tx.wp_when]
  constructor
  -- there is a worktree: the old session gives it up
  · intro hpath
    show (db₁.updateSession old.id .handOverWorktree).holdings = _
    rw [Db.holdings_updateSession (fun h => { h with worktreePath := none }) hhand, h]
    funext j
    by_cases hj : j = old.id
    · subst hj
      simp [handedOver, hnew.symm, hold, hpath, Session.holdings]
    · simp [handedOver, hj]
  · intro hpath
    rw [h]
    funext j
    by_cases hj : j = old.id
    · subst hj
      simp [handedOver, hnew.symm, hold, hpath, Session.holdings]
    · simp [handedOver, hj]

/-- The conversation, after the worktree. -/
theorem wp_transfer (hE : ∀ e, E e) (hnew : newId ≠ old.id) {onRace : ρ} {db₂ : Db}
    (h : db₂.holdings = handedOver db old row newId false) :
    Tx.wp (SessionsApi.transferAgentSession old.id newId row.agentSessionId onRace)
      (fun _ db₃ => db₃.holdings = handedOver db old row newId true) E db₂ := by
  unfold SessionsApi.transferAgentSession
  rw [Tx.wp_forSome]
  constructor
  · intro conversation hheld
    have htake : ∀ s, ((SessionUpdate.takeAgentSession conversation).apply s).holdings =
        { s.holdings with agentSessionId := some conversation } := fun _ => rfl
    have hdrop : ∀ s, ((SessionUpdate.dropAgentSession conversation).apply s).holdings =
        if s.holdings.agentSessionId = some conversation then
          { s.holdings with agentSessionId := none } else s.holdings := by
      intro s
      by_cases hs : s.agentSessionId = some conversation
      · simp [SessionUpdate.apply, SessionUpdate.matches, SessionUpdate.set, Session.holdings, hs]
      · simp [SessionUpdate.apply, SessionUpdate.matches, Session.holdings, hs]
    rw [Tx.wp_bind, DbTx.wp_updateSession, Tx.wp_bind, DbTx.wp_updateSession, Tx.wp_require]
    refine ⟨fun _ => ?_, fun _ => hE _⟩
    -- taken by the new session, then dropped by the old one, unless somebody was faster
    rw [Db.holdings_updateSession (fun h => if h.agentSessionId = some conversation then
        { h with agentSessionId := none } else h) hdrop,
      Db.holdings_updateSession (fun h => { h with agentSessionId := some conversation }) htake, h]
    funext j
    by_cases hj : j = newId
    · subst hj
      simp [handedOver, hnew, hheld]
    · by_cases hj' : j = old.id
      · subst hj'
        simp [handedOver, hnew.symm, hheld]
      · simp [handedOver, hj, hj']
  · intro hheld
    rw [h]
    funext j
    simp [handedOver, hheld]

end Transfer

/-- **A continuation goes through only on what it rechecks**, and then hands over a worktree as its
caller has read it and a conversation as it finds it. -/
theorem continueFrom_spec (env : Env) (old : Session) (parentId : SessionId) (resumable : Bool)
    (parts : List Json) (db : Db) :
    ((Write.continueFrom old parentId resumable parts).run env db).2 = db ∨
    Continues db old parentId ∧ db.session? env.uuid = none ∧ ∃ row, db.session? old.id = some row ∧
      ((Write.continueFrom old parentId resumable parts).run env db).2.holdings =
        handedOver db old row env.uuid resumable := by
  refine scheduling_post (m := fun env => SessionsApi.continueFrom env old parentId resumable parts)
    (P := fun _ db' => db' = db ∨ Continues db old parentId ∧ db.session? env.uuid = none ∧
      ∃ row, db.session? old.id = some row ∧ db'.holdings = handedOver db old row env.uuid resumable)
    (fun _ _ => .inl rfl) ?_
  have hE : ∀ e : Except SchedulerError SessionId, db = db ∨ Continues db old parentId ∧
      db.session? env.uuid = none ∧ ∃ row, db.session? old.id = some row ∧
        db.holdings = handedOver db old row env.uuid resumable := fun _ => .inl rfl
  unfold SessionsApi.continueFrom
  dsimp only
  refine DbTx.seq_execution (fun _ _ => ?_) fun _ => (.inl rfl)
  refine DbTx.seq_session (fun row hrow => ?_) fun _ => (.inl rfl)
  refine Tx.seq_require (fun hidle => ?_) fun _ => (.inl rfl)
  refine DbTx.seq_execution (fun exec hexec => ?_) fun _ => (.inl rfl)
  refine Tx.seq_require (fun hopen => ?_) fun _ => (.inl rfl)
  refine DbTx.seq_session (fun parent hparent => ?_) fun _ => (.inl rfl)
  refine Tx.seq_require (fun hlive => ?_) fun _ => (.inl rfl)
  refine DbTx.seq_agent (fun agent hagent => ?_) fun _ => (.inl rfl)
  refine Tx.seq_require (fun henabled => ?_) fun _ => (.inl rfl)
  refine seq_insertSession hE fun sessions hsessions => ?_
  have hcontinues : Continues db old parentId := by
    simp only [not_or, Option.isNone_iff_eq_none, Bool.not_eq_true, Option.isSome_eq_false_iff,
      ne_eq, not_not] at hidle hopen hlive
    refine ⟨⟨row, hrow, ?_, hidle.2⟩, ⟨exec, hexec, hopen⟩, ⟨parent, hparent, hlive⟩,
      agent, hagent, henabled⟩
    exact Option.isSome_iff_ne_none.mpr hidle.1
  -- all rechecks are behind; what follows are the writes, one after the other
  have hfresh : db.session? env.uuid = none := (Table.insert?_eq_some hsessions).1
  have hnew : env.uuid ≠ old.id := by
    intro heq
    rw [heq, hrow] at hfresh
    cases hfresh
  refine Tx.seq (Q := fun _ db₂ => db₂.holdings = handedOver db old row env.uuid false)
    (wp_handOver hrow hnew (Db.holdings_insertSession hsessions)) fun _ db₂ h₂ => ?_
  refine Tx.seq (Q := fun _ db₃ => db₃.holdings = handedOver db old row env.uuid resumable) ?_
    fun _ db₃ h₃ => ?_
  · cases resumable with
    | false => exact h₂
    | true => exact wp_transfer hE hnew h₂
  refine Tx.seq (wp_insertEvent_holdings hE h₃) fun _ db₄ h₄ => ?_
  refine Tx.seq (wp_insertTask_holdings hE h₄) fun _ db₅ h₅ => ?_
  refine Tx.seq (Q := fun _ db₆ => db₆.holdings = handedOver db old row env.uuid resumable) ?_
    fun _ db₆ h₆ => ?_
  · rw [Tx.wp_when]
    exact ⟨fun _ => wp_resumeStopped_holdings hE h₅, fun _ => h₅⟩
  refine Tx.seq (wp_insertTask_holdings hE h₆) fun _ db₇ h₇ => ?_
  refine Tx.seq (wp_insertEvent_holdings hE h₇) fun _ db₈ h₈ => ?_
  exact .inr ⟨hcontinues, hfresh, row, hrow, h₈⟩

/-! ## Recoveries and delegations -/

/-- The rechecks of `recover_session_handler`, and that the session has failed. -/
def Recovers (db : Db) (session : Session) : Prop :=
  (∃ row ∈ db.session? session.id, row.outcome = some .failed) ∧
  (∃ agent ∈ db.agent? session.agentId, agent.enabled = true) ∧
  (session.parentSessionId.isSome →
    (∃ exec ∈ db.execution? session.executionId, Reconciler.executionEnded exec = false) ∧
    SessionsApi.rootTerminal db session.executionId = false)

instance (db : Db) (session : Session) : Decidable (Recovers db session) :=
  inferInstanceAs (Decidable (_ ∧ _ ∧ (_ → _)))

/-- **A recovery goes through only on what it rechecks.** -/
theorem recover_guard (env : Env) (session : Session) (clearAgentSessionId : Bool)
    (message : Option String) (db : Db) :
    ((Write.recover session clearAgentSessionId message).run env db).2 = db ∨
      Recovers db session := by
  refine scheduling_post (m := fun env => SessionsApi.recover env session clearAgentSessionId message)
    (P := fun _ db' => db' = db ∨ Recovers db session) (fun _ _ => .inl rfl) ?_
  unfold SessionsApi.recover
  refine DbTx.seq_execution (fun _ _ => ?_) fun _ => .inl rfl
  refine Tx.seq (Q := fun _ db₁ => db₁ = db ∧ (session.parentSessionId.isSome →
    (∃ exec ∈ db.execution? session.executionId, Reconciler.executionEnded exec = false) ∧
    SessionsApi.rootTerminal db session.executionId = false)) ?_ fun _ db₁ h₁ => ?_
  · rw [Tx.wp_when]
    refine ⟨fun _ => ?_, fun hroot => ⟨rfl, fun hchild => absurd hchild hroot⟩⟩
    unfold SessionsApi.recheckChild
    refine DbTx.seq_execution (fun exec hexec => ?_) fun _ => .inl rfl
    refine Tx.seq_require (fun hopen => ?_) fun _ => .inl rfl
    refine Tx.seq_read ?_
    rw [Tx.wp_require]
    refine ⟨fun hroot => ⟨rfl, fun _ => ⟨⟨exec, hexec, ?_⟩, ?_⟩⟩, fun _ => .inl rfl⟩
    · simpa using hopen
    · simpa using hroot
  · obtain ⟨rfl, hchild⟩ := h₁
    refine DbTx.seq_agent (fun agent hagent => ?_) fun _ => .inl rfl
    refine Tx.seq_require (fun henabled => ?_) fun _ => .inl rfl
    refine DbTx.seq_updateSession (fun row hrow hfailed => ?_) fun _ => .inl rfl
    have hrecovers : Recovers db₁ session :=
      ⟨⟨row, hrow, by simpa [SessionUpdate.matches] using hfailed⟩, ⟨agent, hagent, henabled⟩, hchild⟩
    exact Tx.wp_mono (Tx.wp_true _ _) (fun _ _ _ => .inr hrecovers) fun _ _ => .inl rfl

/-- **A delegation goes through only if its statement has counted fewer than the width.** -/
theorem createWithWidthGuard_guard (env : Env) (executionId : ExecutionId) (agentId : AgentId)
    (parentId : SessionId) (cwd : Option String) (active : Nat) (maxWidth : Int) (sandboxPolicy : String)
    (db : Db) :
    ((Write.createWithWidthGuard executionId agentId parentId cwd active maxWidth sandboxPolicy).run
      env db).2 = db ∨ (active : Int) < maxWidth := by
  refine scheduling_post (m := fun env => Creation.createWithWidthGuard env executionId agentId
    parentId cwd active maxWidth sandboxPolicy)
    (P := fun _ db' => db' = db ∨ (active : Int) < maxWidth)
    (fun _ _ => .inl rfl) ?_
  unfold Creation.createWithWidthGuard
  refine Tx.seq_require (fun hroom => ?_) fun _ => .inl rfl
  exact Tx.wp_mono (Tx.wp_true _ _) (fun _ _ _ => .inr hroom) fun _ _ => .inl rfl

end AgentBeacon
