import AgentBeacon.Correctness.Leftovers

/-!
# `Correctness.Delegation` — what a failed delegation leaves behind

A delegation commits the row of the child in a statement of its own. Where its last transaction finds
the execution or the parent ended, the row is deleted again; every other failure after the insert goes
out with `?`. The result is followed from the calls of the request: which of them inserted the child,
and what the last of them was.
-/

namespace AgentBeacon
open Relational Interleave Transaction Transition Creation

/-! ## The three transactions -/

section Transactions

variable {env : Env} {db : Db}

/-- A child that was not inserted changed nothing; one that was is the only new row. -/
theorem createWithWidthGuard_effect (env : Env) (db : Db) (executionId : ExecutionId) (agentId : AgentId)
    (parentId : SessionId) (cwd : Option String) (active : Nat) (maxWidth : Int) (sandboxPolicy : String) :
    (∀ child, ((Write.createWithWidthGuard executionId agentId parentId cwd active maxWidth
        sandboxPolicy).run env db).1 =
          (.ok (some child) : Except SchedulerError (Option SessionId)) →
      ∃ row sessions, row.id = child ∧ db.sessions.insert? row = some sessions ∧
        ((Write.createWithWidthGuard executionId agentId parentId cwd active maxWidth
          sandboxPolicy).run env db).2 = { db with sessions }) ∧
    ((∀ child, ((Write.createWithWidthGuard executionId agentId parentId cwd active maxWidth
        sandboxPolicy).run env db).1 ≠
          (.ok (some child) : Except SchedulerError (Option SessionId))) →
      ((Write.createWithWidthGuard executionId agentId parentId cwd active maxWidth
        sandboxPolicy).run env db).2 = db) := by
  refine scheduling_post (m := fun env => Creation.createWithWidthGuard env executionId agentId
    parentId cwd active maxWidth sandboxPolicy) (P := fun r db' =>
      (∀ child, r = .ok (some child) → ∃ row sessions, row.id = child ∧
        db.sessions.insert? row = some sessions ∧ db' = { db with sessions }) ∧
      ((∀ child, r ≠ .ok (some child)) → db' = db)) (fun _ _ => ⟨by simp, fun _ => rfl⟩) ?_
  unfold Creation.createWithWidthGuard DbTx.insertSession
  simp only [Tx.wp_bind, Tx.wp_read, Tx.wp_require, Tx.wp_ofOption, Tx.wp_write, Tx.wp_pure]
  refine ⟨fun _ => ⟨fun _ => ⟨fun _ => ⟨fun sessions ht => ⟨fun child hchild => ?_, fun hno => ?_⟩, ?_⟩, ?_⟩,
    ?_⟩, ?_⟩
  · exact ⟨_, sessions, Option.some.inj (Except.ok.inj hchild), ht, rfl⟩
  · exact absurd rfl (hno _)
  all_goals simp

/-- What every result satisfies, the result of a body does. -/
theorem wp_always {ρ α : Type} {m : DbTx ρ α} {Q : α → Db → Prop} (h : ∀ a db, Q a db) :
    Tx.wp m Q (fun _ => True) db :=
  Tx.wp_mono (Tx.wp_true m db) (fun a db _ => h a db) fun _ _ => trivial

/-- A delegation that was not enqueued changed nothing. -/
theorem delegate_not_enqueued (executionId : ExecutionId) (parentId childId : SessionId)
    (agentName parentName prompt : String) (taskPayload : Json)
    (h : ((Write.delegate executionId parentId childId agentName parentName prompt taskPayload).run
      env db).1 ≠ (.ok .enqueued : Except SchedulerError DelegateResult)) :
    ((Write.delegate executionId parentId childId agentName parentName prompt taskPayload).run
      env db).2 = db := by
  refine scheduling_post (m := fun env => Creation.delegate env executionId parentId childId agentName
    parentName prompt taskPayload) (P := fun r db' => r ≠ .ok .enqueued → db' = db)
    (fun _ _ _ => rfl) ?_ h
  unfold Creation.delegate
  refine Tx.wp_mono (Q := fun r _ => r = .ok .enqueued) (E := fun _ => True) ?_
    (fun r _ hr hne => absurd hr hne) fun _ _ _ => rfl
  rw [Tx.wp_bind]
  refine wp_always fun _ _ => ?_
  rw [Tx.wp_bind]
  refine wp_always fun _ _ => ?_
  rw [Tx.wp_bind]
  refine wp_always fun _ _ => ?_
  rw [Tx.wp_bind]
  refine wp_always fun _ _ => ?_
  rw [Tx.wp_bind]
  refine wp_always fun _ _ => ?_
  rw [Tx.wp_bind]
  refine wp_always fun _ _ => ?_
  rw [Tx.wp_bind]
  refine wp_always fun _ _ => ?_
  rw [Tx.wp_bind]
  refine wp_always fun _ _ => ?_
  rw [Tx.wp_pure]

/-- Deleting is possible: no session that stays continues one of those that go. -/
def Db.Deletable (db : Db) (id : SessionId) : Prop :=
  ∀ s ∈ db.sessions.rows,
    s.continuedFromSessionId.any (· ∈ db.subtree db.sessions.rows.length [id]) →
      s.id ∈ db.subtree db.sessions.rows.length [id]

/-- Following children only adds sessions. -/
theorem mem_subtree_of_mem {n : Nat} {ids : List SessionId} {id : SessionId} (h : id ∈ ids) :
    id ∈ db.subtree n ids := by
  induction n generalizing ids with
  | zero => exact h
  | succ n ih => exact ih (List.mem_append_left _ h)

/-- **After a deletion the session is gone** exactly when the statement did not fail, or it had gone
before. -/
theorem gone_of_deleteSession (env : Env) (db : Db) (id : SessionId) :
    ((Write.deleteSession id).run env db).2.session? id = none ↔
      (env.fault = none ∧ db.Deletable id) ∨ db.session? id = none := by
  cases hfault : env.fault with
  | some fault =>
      have hsame : ((Write.deleteSession id).run env db).2 = db := by simp [Write.run, hfault]
      rw [hsame]
      simp
  | none =>
      have hrun : (Write.deleteSession id).run env db = Tx.commit (Creation.deleteSession id) db := by
        simp only [Write.run, hfault]
        rfl
      have hself : id ∈ db.subtree db.sessions.rows.length [id] :=
        mem_subtree_of_mem List.mem_cons_self
      rw [hrun]
      refine Tx.commit_post (m := Creation.deleteSession id) (P := fun _ db' =>
        db'.session? id = none ↔ (none = none ∧ db.Deletable id) ∨ db.session? id = none) ?_
      unfold Creation.deleteSession
      simp only [Tx.wp_bind, Tx.wp_read, Tx.wp_require, Tx.wp_write, Tx.wp_pure]
      refine ⟨fun hfree => ?_, fun hblocked => ?_⟩
      · rw [Db.session?_deleteSessions, if_pos hself]
        exact ⟨fun _ => .inl ⟨trivial, hfree⟩, fun _ => rfl⟩
      · exact ⟨.inr, fun h => h.elim (fun hfree => absurd hfree.2 hblocked) fun hnone => hnone⟩

end Transactions

/-! ## What a call adds -/

/-- The rows a delegation may write, by their keys. -/
inductive RowKey where
  | session (id : SessionId)
  | task (id : Nat)
  | event (id : Nat)

def Db.Has (db : Db) : RowKey → Prop
  | .session id => db.session? id ≠ none
  | .task id => ∃ t ∈ db.taskQueue.rows, t.id = id
  | .event id => ∃ row ∈ db.events.rows, row.id = id

/-- The child a call inserted. -/
def childOf (e : Event scheduler) : Option SessionId :=
  match e with
  | ⟨_, .write (.createWithWidthGuard executionId agentId parentId cwd active maxWidth sandboxPolicy),
      env, pre⟩ =>
      (((Write.createWithWidthGuard executionId agentId parentId cwd active maxWidth sandboxPolicy).run
        env (Store.db pre)).1 : Except SchedulerError (Option SessionId)).toOption.join
  | _ => none

/-- The call inserted no child, and no other row. -/
def Neutral (e : Event scheduler) : Prop :=
  childOf e = none ∧ ∀ row, (after e).Has row → (before e).Has row

/-- The call added no row and removed none. -/
def Harmless (e : Event scheduler) : Prop :=
  Neutral e ∧ ∀ row, (before e).Has row → (after e).Has row

theorem harmless_of_unchanged {e : Event scheduler} (hchild : childOf e = none)
    (h : after e = before e) : Harmless e := by
  unfold Harmless Neutral
  rw [h]
  exact ⟨⟨hchild, fun _ hrow => hrow⟩, fun _ hrow => hrow⟩

/-- What a call that inserted a child added: the row of the child. -/
theorem has_of_childOf {e : Event scheduler} {child : SessionId} (h : childOf e = some child)
    {row : RowKey} (hrow : (after e).Has row) : (before e).Has row ∨ row = .session child := by
  obtain ⟨caller, op, env, pre⟩ := e
  unfold childOf at h
  split at h
  · rename_i executionId agentId parentId cwd active maxWidth sandboxPolicy env pre heq
    cases heq
    obtain ⟨r, hr, rfl⟩ : ∃ r, _ = some r ∧ r = some child := by
      simpa [Option.join_eq_some_iff] using h
    obtain ⟨new, sessions, hid, ht, hafter⟩ :=
      (createWithWidthGuard_effect env (Store.db pre) executionId agentId parentId cwd active maxWidth
        sandboxPolicy).1 child (ok_of_toOption hr)
    have hdb : after ⟨caller, .write (.createWithWidthGuard executionId agentId parentId cwd active maxWidth
        sandboxPolicy), env, pre⟩ = { Store.db pre with sessions } := hafter
    rw [hdb] at hrow
    cases row with
    | session id =>
        by_cases hnew : id = child
        · exact .inr (by rw [hnew])
        · left
          have hfind := Table.find?_insert? ht id
          rw [hid, if_neg hnew] at hfind
          have hother : ({ Store.db pre with sessions } : Db).session? id = (Store.db pre).session? id :=
            hfind
          intro hnone
          exact hrow (hother.trans hnone)
    | task id => exact .inl hrow
    | event id => exact .inl hrow
  · cases h

/-- A call that inserted a child removed nothing. -/
theorem kept_of_childOf {e : Event scheduler} {child : SessionId} (h : childOf e = some child) {row : RowKey}
    (hrow : (before e).Has row) : (after e).Has row := by
  obtain ⟨caller, op, env, pre⟩ := e
  unfold childOf at h
  split at h
  · rename_i executionId agentId parentId cwd active maxWidth sandboxPolicy env pre heq
    cases heq
    obtain ⟨r, hr, rfl⟩ : ∃ r, _ = some r ∧ r = some child := by
      simpa [Option.join_eq_some_iff] using h
    obtain ⟨new, sessions, hid, ht, hafter⟩ :=
      (createWithWidthGuard_effect env (Store.db pre) executionId agentId parentId cwd active maxWidth
        sandboxPolicy).1 child (ok_of_toOption hr)
    have hdb : after ⟨caller, .write (.createWithWidthGuard executionId agentId parentId cwd active maxWidth
        sandboxPolicy), env, pre⟩ = { Store.db pre with sessions } := hafter
    rw [hdb]
    cases row with
    | session id =>
        have hfind : ({ Store.db pre with sessions } : Db).session? id = _ := Table.find?_insert? ht id
        show ({ Store.db pre with sessions } : Db).session? id ≠ none
        rw [hfind]
        split
        · exact Option.some_ne_none _
        · exact hrow
    | task id => exact hrow
    | event id => exact hrow
  · cases h

/-- The row is that of the session or of one below it, or it names one of these. -/
def Db.HangsOn (db : Db) (id : SessionId) : RowKey → Prop
  | .session j => j ∈ db.subtree db.sessions.rows.length [id]
  | .task n => ∃ t ∈ db.taskQueue.rows, t.id = n ∧ t.sessionId ∈ db.subtree db.sessions.rows.length [id]
  | .event n => ∃ row ∈ db.events.rows, row.id = n ∧
      ∃ j ∈ row.sessionId, j ∈ db.subtree db.sessions.rows.length [id]

/-- What became of the child in a call: it is gone exactly when the call deleted it or it had gone. -/
def Deletes (e : Event scheduler) (child : SessionId) : Prop :=
  e.op = Op.write (.deleteSession child) ∧ (envOf e).fault = none ∧ (before e).Deletable child

/-- The call adds nothing, removes only what belongs to the child, and deletes the child unless it fails. -/
def Fated (child : SessionId) (e : Event scheduler) : Prop :=
  Neutral e ∧ ((after e).session? child = none ↔ Deletes e child ∨ (before e).session? child = none) ∧
    ∀ row, (before e).Has row → (after e).Has row ∨ (before e).HangsOn child row

theorem fated_of_unchanged {child : SessionId} {e : Event scheduler} (hchild : childOf e = none)
    (hop : e.op ≠ Op.write (.deleteSession child)) (h : after e = before e) : Fated child e := by
  have hharmless := harmless_of_unchanged hchild h
  refine ⟨hharmless.1, ?_, fun row hrow => .inl (hharmless.2 row hrow)⟩
  rw [h]
  constructor
  · exact .inr
  · rintro (⟨hdeletes, -⟩ | hgone)
    · exact absurd hdeletes hop
    · exact hgone

/-! ## The calls of a delegation -/

section Calls

variable {α β : Type} {calls : List (Event scheduler)}

theorem unchanged_of_reads {e : Event scheduler} (h : Reads e.op) : childOf e = none ∧ after e = before e := by
  constructor
  · obtain ⟨caller, op, env, pre⟩ := e
    unfold childOf
    split
    · rename_i heq
      cases heq
      exact absurd rfl (h _)
    · rfl
  · rcases call_effect e with ⟨w, hw, -⟩ | hsame
    · exact absurd hw (h w)
    · exact hsame

theorem returns_ne_nil {op : Op} {k : scheduler.Reply op → Request α} {a : α}
    (h : Returns (M := scheduler) (.call op k) calls a) : calls ≠ [] := by
  cases h
  exact List.cons_ne_nil _ _

theorem reads_getSession (id : SessionId) : Only (M := scheduler) Reads (getSession id) :=
  Only.bind (reads_query _) fun _ => trivial

theorem reads_authenticate (token : String) : Only (M := scheduler) Reads (authenticate token).run := by
  refine Only.handler (reads_getSession token) fun session => Only.handler_ite trivial ?_
  refine Only.handler (reads_getExecution _) fun execution => ?_
  exact Only.handler (Only.attempt (reads_query _)) fun depth => trivial

theorem reads_hierarchicalName (steps : Nat) (id : SessionId) :
    Only (M := scheduler) Reads (hierarchicalNameForSession steps id).run := by
  induction steps generalizing id with
  | zero => trivial
  | succ steps ih =>
      refine Only.handler (reads_getSession id) fun session => ?_
      split
      · trivial
      · exact Only.handler (ih _) fun _ => trivial

/-- The calls of what only reads are harmless. -/
theorem harmless_of_only {p : Request α} {a : α} (hp : Only (M := scheduler) Reads p)
    (h : Returns (M := scheduler) p calls a) : ∀ e ∈ calls, Harmless e := fun e he =>
  have hreads := unchanged_of_reads (hp.of_returns h e he)
  harmless_of_unchanged hreads.1 hreads.2

theorem fated_of_only {p : Request α} {a : α} (hp : Only (M := scheduler) Reads p)
    (h : Returns (M := scheduler) p calls a) (child : SessionId) : ∀ e ∈ calls, Fated child e := fun e he =>
  have hreads := hp.of_returns h e he
  fated_of_unchanged (unchanged_of_reads hreads).1 (hreads _) (unchanged_of_reads hreads).2

end Calls

/-! ## How a delegation fails -/

/-- The calls of a delegation that failed: none of them inserted a child; or one did, some calls
followed, and of these only a deletion of the child had an effect. -/
inductive Fails (calls : List (Event scheduler)) : Prop where
  | neutral (h : ∀ e ∈ calls, Harmless e)
  | inserted (first : List (Event scheduler)) (e : Event scheduler) (rest : List (Event scheduler))
      (child : SessionId) (hcalls : calls = first ++ e :: rest) (hfirst : ∀ e' ∈ first, Harmless e')
      (hchild : childOf e = some child) (hnonempty : rest ≠ []) (hrest : ∀ e' ∈ rest, Fated child e')

theorem Fails.prepend {first calls : List (Event scheduler)} (hfirst : ∀ e ∈ first, Harmless e)
    (h : Fails calls) : Fails (first ++ calls) := by
  cases h with
  | neutral h =>
      refine .neutral fun e he => ?_
      rcases List.mem_append.mp he with he | he
      · exact hfirst e he
      · exact h e he
  | inserted first' e rest child hcalls hfirst' hchild hnonempty hrest =>
      refine .inserted (first ++ first') e rest child (by simp [hcalls]) (fun e' he' => ?_) hchild
        hnonempty hrest
      rcases List.mem_append.mp he' with he' | he'
      · exact hfirst e' he'
      · exact hfirst' e' he'

/-- A handler whose failures are such. -/
def FailsSo {α : Type} (p : Handler α) : Prop :=
  ∀ calls err, Returns (M := scheduler) p.run calls (.error err) → Fails calls

namespace FailsSo

variable {α β : Type}

theorem throw (err : SchedulerError) : FailsSo (throw err : Handler α) := by
  intro calls err h
  cases h
  exact .neutral fun e he => by cases he

theorem ite {c : Prop} [Decidable c] {p q : Handler α} (hp : FailsSo p) (hq : FailsSo q) :
    FailsSo (if c then p else q) := by
  split
  · exact hp
  · exact hq

/-- What comes before may read. -/
theorem bind {p : Handler α} {f : α → Handler β} (hp : Only (M := scheduler) Reads p.run)
    (hf : ∀ a, FailsSo (f a)) : FailsSo (p >>= f) := by
  intro calls err h
  rcases returns_handler h with ⟨err', -, hfirst⟩ | ⟨a, first, rest, rfl, hfirst, hrest⟩
  · exact .neutral (harmless_of_only hp hfirst)
  · exact (hf a rest err hrest).prepend (harmless_of_only hp hfirst)

end FailsSo

section Inserting

variable {executionId : ExecutionId} {agentId : AgentId} {parentId : SessionId} {cwd : Option String}
  {active : Nat} {maxWidth : Int} {sandboxPolicy : String} {calls : List (Event scheduler)}

/-- The insert of a child answers what it did. -/
theorem childOf_insert (caller : Nat) {env : Env} {pre : Store}
    {r : Except SchedulerError (Option SessionId)}
    (hr : r = ((Write.createWithWidthGuard executionId agentId parentId cwd active maxWidth
      sandboxPolicy).run env (Store.db pre)).1) :
    (∀ child, r = .ok (some child) → childOf ⟨caller, .write (.createWithWidthGuard executionId agentId
      parentId cwd active maxWidth sandboxPolicy), env, pre⟩ = some child) ∧
    ((∀ child, r ≠ .ok (some child)) → Harmless ⟨caller, .write (.createWithWidthGuard executionId agentId
      parentId cwd active maxWidth sandboxPolicy), env, pre⟩) := by
  have hchild : childOf ⟨caller, .write (.createWithWidthGuard executionId agentId parentId cwd active maxWidth
      sandboxPolicy), env, pre⟩ = r.toOption.join := by
    rw [hr]
    rfl
  refine ⟨fun child hok => ?_, fun hno => ?_⟩
  · rw [hchild, hok]
    rfl
  · refine harmless_of_unchanged ?_ ?_
    · rw [hchild]
      cases hr : r with
      | error e => rfl
      | ok created =>
          cases created with
          | none => rfl
          | some child => exact absurd hr (hno child)
    · refine (createWithWidthGuard_effect env (Store.db pre) executionId agentId parentId
        cwd active maxWidth sandboxPolicy).2 fun child hok => hno child ?_
      rw [hr]
      exact hok

/-- The calls inserted no child, harmlessly; or the last of them did, and they answered so. -/
def Inserts (calls : List (Event scheduler)) (r : Except SchedulerError (Option SessionId)) : Prop :=
  ((∀ child, r ≠ .ok (some child)) ∧ ∀ e ∈ calls, Harmless e) ∨
    ∃ child first e, r = .ok (some child) ∧ calls = first ++ [e] ∧ (∀ e' ∈ first, Harmless e') ∧
      childOf e = some child

theorem Inserts.prepend {first calls : List (Event scheduler)} {r : Except SchedulerError (Option SessionId)}
    (hfirst : ∀ e ∈ first, Harmless e) (h : Inserts calls r) : Inserts (first ++ calls) r := by
  have hall : ∀ others : List (Event scheduler), (∀ e ∈ others, Harmless e) →
      ∀ e ∈ first ++ others, Harmless e := fun others hothers e he =>
    (List.mem_append.mp he).elim (hfirst e) (hothers e)
  rcases h with ⟨hno, hcalls⟩ | ⟨child, first', e, hr, rfl, hfirst', hchild⟩
  · exact .inl ⟨hno, hall calls hcalls⟩
  · exact .inr ⟨child, first ++ first', e, hr, (List.append_assoc _ _ _).symm, hall first' hfirst', hchild⟩

/-- One guarded insert: it counts, and inserts or does not. -/
theorem returns_guarded {r : Except SchedulerError (Option SessionId)}
    (h : Returns (M := scheduler) (createWithWidthGuard executionId agentId parentId cwd maxWidth
      sandboxPolicy) calls r) : Inserts calls r := by
  obtain ⟨counted, first, rest, rfl, hcount, hrest⟩ := Returns.of_bind (M := scheduler) h
  refine Inserts.prepend (harmless_of_only (reads_query _) hcount) ?_
  cases counted with
  | error err =>
      cases hrest
      exact .inl ⟨fun child => by simp, fun e he => by cases he⟩
  | ok active =>
      obtain ⟨caller, env, pre, rfl, hreply⟩ := returns_issue hrest
      obtain ⟨hsome, hnone⟩ := childOf_insert caller hreply
      by_cases hno : ∀ child, r ≠ .ok (some child)
      · refine .inl ⟨hno, fun e he => ?_⟩
        obtain rfl := List.mem_singleton.mp he
        exact hnone hno
      · push Not at hno
        obtain ⟨child, hok⟩ := hno
        exact .inr ⟨child, [], _, hok, rfl, by simp, hsome child hok⟩

/-- The attempts to insert a child: they failed without effect, or the last of them answered. -/
theorem returns_attempts {attempts : Nat} {r : Except SchedulerError (Option SessionId)}
    (h : Returns (M := scheduler) (withFreshSlug (createWithWidthGuard executionId agentId parentId cwd
      maxWidth sandboxPolicy) attempts : Handler (Option SessionId)).run calls r) : Inserts calls r := by
  induction attempts generalizing calls with
  | zero =>
      cases h
      exact .inl ⟨fun child => by simp, fun e he => by cases he⟩
  | succ attempts ih =>
      obtain ⟨x, first, rest, rfl, hinsert, hrest⟩ := Returns.of_bind (M := scheduler) h
      obtain ⟨y, first', rest', rfl, hguarded, hlift⟩ := Returns.of_bind (M := scheduler) hinsert
      cases hlift
      rw [List.append_nil]
      have hinserts := returns_guarded hguarded
      cases y with
      | ok created =>
          cases hrest
          rw [List.append_nil]
          exact hinserts
      | error err =>
          -- a failed attempt has inserted nothing, and the next may follow
          rcases hinserts with ⟨-, hharmless⟩ | ⟨child, _, _, hok, -⟩
          · refine Inserts.prepend hharmless ?_
            have hretry : Returns (M := scheduler) (if namesUnique err then
                withFreshSlug (createWithWidthGuard executionId agentId parentId cwd maxWidth
                  sandboxPolicy) attempts else throw err : Handler (Option SessionId)).run rest r := hrest
            split at hretry
            · exact ih hretry
            · cases hretry
              exact .inl ⟨fun child => by simp, fun e he => by cases he⟩
          · cases hok

end Inserting

/-- A deletion adds nothing. -/
theorem has_of_deleteSession {env : Env} {db : Db} (id : SessionId) :
    ∀ row, ((Write.deleteSession id).run env db).2.Has row → db.Has row := by
  refine scheduling_post (m := fun _ => Creation.deleteSession id) (P := fun _ db' =>
    ∀ row, Db.Has db' row → db.Has row) (fun _ _ row hrow => hrow) ?_
  unfold Creation.deleteSession
  simp only [Tx.wp_bind, Tx.wp_read, Tx.wp_require, Tx.wp_write, Tx.wp_pure]
  refine ⟨fun _ row hrow => ?_, fun _ row hrow => hrow⟩
  cases row with
  | session j =>
      intro hnone
      refine hrow ?_
      rw [Db.session?_deleteSessions, hnone]
      exact ite_self _
  | task n =>
      obtain ⟨t, ht, hid⟩ := hrow
      exact ⟨t, (List.mem_filter.mp ht).1, hid⟩
  | event n =>
      obtain ⟨r, hr, hid⟩ := hrow
      exact ⟨r, (List.mem_filter.mp hr).1, hid⟩

/-- It removes only what belongs to the session. -/
theorem kept_of_deleteSession {env : Env} {db : Db} (id : SessionId) :
    ∀ row, db.Has row → ((Write.deleteSession id).run env db).2.Has row ∨ db.HangsOn id row := by
  refine scheduling_post (m := fun _ => Creation.deleteSession id) (P := fun _ db' =>
    ∀ row, db.Has row → Db.Has db' row ∨ db.HangsOn id row) (fun _ _ row hrow => .inl hrow) ?_
  unfold Creation.deleteSession
  simp only [Tx.wp_bind, Tx.wp_read, Tx.wp_require, Tx.wp_write, Tx.wp_pure]
  refine ⟨fun _ row hrow => ?_, fun _ row hrow => .inl hrow⟩
  cases row with
  | session j =>
      by_cases hj : j ∈ db.subtree db.sessions.rows.length [id]
      · exact .inr hj
      · refine .inl ?_
        show (db.deleteSessions (db.subtree db.sessions.rows.length [id])).session? j ≠ none
        rw [Db.session?_deleteSessions, if_neg hj]
        exact hrow
  | task n =>
      obtain ⟨t, ht, hid⟩ := hrow
      by_cases hof : t.sessionId ∈ db.subtree db.sessions.rows.length [id]
      · exact .inr ⟨t, ht, hid, hof⟩
      · exact .inl ⟨t, List.mem_filter.mpr ⟨ht, by simpa using hof⟩, hid⟩
  | event n =>
      obtain ⟨row, hrow, hid⟩ := hrow
      by_cases hof : ∃ j ∈ row.sessionId, j ∈ db.subtree db.sessions.rows.length [id]
      · exact .inr ⟨row, hrow, hid, hof⟩
      · refine .inl ⟨row, List.mem_filter.mpr ⟨hrow, ?_⟩, hid⟩
        cases hsession : row.sessionId with
        | none => simp [hsession]
        | some j => simpa [hsession] using hof

/-- The clean-up is one deletion of the child. -/
theorem fated_abandonChild {child : SessionId} {calls : List (Event scheduler)}
    {r : Except SchedulerError Unit}
    (h : Returns (M := scheduler) (abandonChild child).run calls r) : ∀ e ∈ calls, Fated child e := by
  obtain ⟨x, first, rest, rfl, hlift, hrest⟩ := Returns.of_bind (M := scheduler) h
  obtain ⟨y, first', rest', rfl, hissue, hpure⟩ := Returns.of_bind (M := scheduler) hlift
  cases hpure
  cases hrest
  obtain ⟨caller, env, pre, rfl, -⟩ := returns_issue hissue
  intro e he
  obtain rfl := List.mem_singleton.mp (by simpa using he)
  refine ⟨⟨rfl, has_of_deleteSession child⟩, ?_, kept_of_deleteSession child⟩
  refine (gone_of_deleteSession env (Store.db pre) child).trans ?_
  exact or_congr_left ⟨fun h => ⟨rfl, h⟩, fun h => h.2⟩

/-- So the calls after a refusal are harmless, but for the deletion. -/
theorem fated_of_refused {child : SessionId} {refused : DelegateResult}
    {calls : List (Event scheduler)} {r : Except SchedulerError SessionId}
    (h : Returns (M := scheduler) (do
      abandonChild child
      throw (delegateRefused refused) : Handler SessionId).run calls r) :
    ∀ e ∈ calls, Fated child e := by
  rcases returns_handler h with ⟨err, -, habandon⟩ | ⟨_, first, rest, rfl, habandon, hthrow⟩
  · exact fated_abandonChild habandon
  · cases hthrow
    rw [List.append_nil]
    exact fated_abandonChild habandon

/-- The calls after the insert of the child. -/
theorem fated_after_insert {auth : McpSession} {agent : Agent} {prompt : String} {child : SessionId}
    {calls : List (Event scheduler)} {err : SchedulerError}
    (h : Returns (M := scheduler) (do
      let name ← hierarchicalNameForSession 20 auth.sessionId
      lookUpProject auth.projectId
      let result ← attempt (issue (.delegate auth.executionId auth.sessionId child agent.name
        (String.intercalate "/" name) prompt
        (.obj [("agent_id", .str agent.id), ("message", userMessage [.textPart prompt])])))
      match result with
      | .enqueued => return child
      | refused => do
          abandonChild child
          throw (delegateRefused refused) : Handler SessionId).run calls (.error err)) :
    calls ≠ [] ∧ ∀ e ∈ calls, Fated child e := by
  refine ⟨returns_ne_nil h, ?_⟩
  rcases returns_handler h with ⟨err', -, hfirst⟩ | ⟨name, first, rest, rfl, hfirst, h⟩
  · exact fated_of_only (reads_hierarchicalName 20 _) hfirst child
  have hnames := fated_of_only (reads_hierarchicalName 20 _) hfirst child
  have hrest : ∀ e ∈ rest, Fated child e := by
    rcases returns_handler h with ⟨err', -, hfirst⟩ | ⟨_, first', rest', rfl, hfirst', h⟩
    · exact fated_of_only (reads_lookUpProject _) hfirst child
    have hproject := fated_of_only (reads_lookUpProject _) hfirst' child
    have hlast : ∀ e ∈ rest', Fated child e := by
      rcases returns_handler h with ⟨err', -, hissue⟩ | ⟨result, first'', rest'', rfl, hissue, h⟩
      · obtain ⟨caller, env, pre, rfl, hreply⟩ := returns_issue hissue
        intro e he
        obtain rfl := List.mem_singleton.mp he
        refine fated_of_unchanged rfl (fun hop => by cases hop) ?_
        exact delegate_not_enqueued _ _ _ _ _ _ _ fun hok => by simp [← hreply] at hok
      · obtain ⟨caller, env, pre, rfl, hreply⟩ := returns_issue hissue
        have hrefused : result ≠ .enqueued ∧ ∀ e ∈ rest'', Fated child e := by
          cases result with
          | enqueued => cases h
          | executionTerminating => exact ⟨by simp, fated_of_refused h⟩
          | parentTerminal => exact ⟨by simp, fated_of_refused h⟩
          | parentStopped => exact ⟨by simp, fated_of_refused h⟩
        intro e he
        rcases List.mem_cons.mp he with rfl | he
        · refine fated_of_unchanged rfl (fun hop => by cases hop) ?_
          exact delegate_not_enqueued _ _ _ _ _ _ _ fun hok => hrefused.1 (Except.ok.inj (hreply.trans hok))
        · exact hrefused.2 e he
    intro e he
    rcases List.mem_append.mp he with he | he
    · exact hproject e he
    · exact hlast e he
  intro e he
  rcases List.mem_append.mp he with he | he
  · exact hnames e he
  · exact hrest e he

theorem fails_delegateTo (auth : McpSession) (agent : Agent) (prompt : String) (cwd : Option String) :
    FailsSo (delegateTo auth agent prompt cwd) := by
  intro calls err h
  rcases returns_handler h with ⟨err', -, hfirst⟩ | ⟨created, first, rest, rfl, hfirst, h⟩
  · rcases returns_attempts hfirst with ⟨-, hall⟩ | ⟨child, _, _, hok, -⟩
    · exact .neutral hall
    · cases hok
  rcases returns_attempts hfirst with ⟨hno, hall⟩ | ⟨child, before, e, hok, rfl, hbefore, hchild⟩
  · -- the width is used up
    cases created with
    | some child => exact absurd rfl (hno child)
    | none =>
        cases h
        refine .neutral fun e he => hall e ?_
        simpa using he
  · obtain rfl := Except.ok.inj hok
    obtain ⟨hnonempty, hrest⟩ := fated_after_insert h
    exact .inserted before e rest child (by simp) hbefore hchild hnonempty hrest

theorem fails_delegate (token agentName prompt : String) (explicitCwd : Option String) :
    FailsSo (delegate token agentName prompt explicitCwd) := by
  refine FailsSo.bind (reads_authenticate token) fun auth => FailsSo.ite (.throw _) (FailsSo.ite (.throw _) ?_)
  refine FailsSo.bind (reads_getExecution _) fun execution => FailsSo.ite (.throw _) ?_
  refine FailsSo.bind (Only.attempt (reads_query _)) fun found => ?_
  cases found with
  | none => exact .throw _
  | some agent =>
      refine FailsSo.ite (.throw _) (FailsSo.bind (Only.attempt (reads_query _)) fun pool => ?_)
      refine FailsSo.ite (.throw _) (FailsSo.bind (reads_getSession _) fun parent => ?_)
      exact fails_delegateTo auth agent prompt _

/-! ## What is left -/

/-- Nothing that the calls inserted is there in the end. -/
def NothingAdded (start : Store) (calls : List (Event scheduler)) : Prop :=
  ∀ e ∈ calls, ∀ row, ¬(before e).Has row → (after e).Has row → ¬(dbAfter start calls).Has row

/-- The calls removed nothing but what hangs on a child that they inserted. -/
def NothingRemoved (calls : List (Event scheduler)) : Prop :=
  ∀ e ∈ calls, ∀ row, (before e).Has row →
    (after e).Has row ∨ ∃ child, (∃ e' ∈ calls, childOf e' = some child) ∧ (before e).HangsOn child row

/-- The calls undo the insert of a child: the last of them deletes it and does not fail, unless the
child had gone by then. -/
def CleansUp (calls : List (Event scheduler)) : Prop :=
  ∀ e ∈ calls, ∀ child, childOf e = some child →
    ∃ last ∈ calls.getLast?, Deletes last child ∨ (before last).session? child = none

/-- A call that inserted a child found none and left one. -/
theorem inserted_of_childOf {e : Event scheduler} {child : SessionId} (h : childOf e = some child) :
    (before e).session? child = none ∧ (after e).session? child ≠ none := by
  obtain ⟨caller, op, env, pre⟩ := e
  unfold childOf at h
  split at h
  · rename_i executionId agentId parentId cwd active maxWidth sandboxPolicy env pre heq
    cases heq
    obtain ⟨r, hr, rfl⟩ : ∃ r, _ = some r ∧ r = some child := by
      simpa [Option.join_eq_some_iff] using h
    obtain ⟨new, sessions, rfl, ht, hafter⟩ :=
      (createWithWidthGuard_effect env (Store.db pre) executionId agentId parentId cwd active maxWidth
        sandboxPolicy).1 child (ok_of_toOption hr)
    have hdb : after ⟨caller, .write (.createWithWidthGuard executionId agentId parentId cwd active maxWidth
        sandboxPolicy), env, pre⟩ = { Store.db pre with sessions } := hafter
    refine ⟨(Table.insert?_eq_some ht).1, ?_⟩
    rw [hdb]
    have hfind := Table.find?_insert? ht new.id
    rw [if_pos rfl] at hfind
    have hthere : ({ Store.db pre with sessions } : Db).session? new.id = some new := hfind
    simp [hthere]
  · cases h

/-- **When a failed delegation leaves nothing behind**: when it inserted no child, or its last call was a
deletion of the child that went through. Whatever other requests do in between. It removes nothing else. -/
theorem failed_delegation_leaves_nothing_iff {token agentName prompt : String} {cwd : Option String}
    {calls : List (Event scheduler)} {err : SchedulerError}
    (h : Returns (M := scheduler) (delegate token agentName prompt cwd).run calls (.error err))
    (start : Store) : (NothingAdded start calls ↔ CleansUp calls) ∧ NothingRemoved calls := by
  cases fails_delegate token agentName prompt cwd calls err h with
  | neutral hall =>
      refine ⟨⟨?_, ?_⟩, fun e he row hrow => .inl ((hall e he).2 row hrow)⟩
      · intro _ e he child hchild
        rw [(hall e he).1.1] at hchild
        cases hchild
      · intro _ e he row hbefore hafter
        exact absurd ((hall e he).1.2 row hafter) hbefore
  | inserted first e rest child hcalls hfirst hchild hnonempty hrest =>
      have honly : ∀ e' ∈ calls, Neutral e' ∨ e' = e := by
        intro e' he'
        rw [hcalls] at he'
        rcases List.mem_append.mp he' with he' | he'
        · exact .inl (hfirst e' he').1
        · rcases List.mem_cons.mp he' with rfl | he'
          · exact .inr rfl
          · exact .inl (hrest e' he').1
      obtain ⟨hnew, hthere⟩ := inserted_of_childOf hchild
      -- the last call, and what it does to the child
      obtain ⟨last, hlast⟩ := Option.isSome_iff_exists.mp (List.getLast?_isSome.mpr hnonempty)
      have hcallsLast : calls.getLast? = some last := by
        rw [hcalls, List.getLast?_append, List.getLast?_cons, hlast]
        rfl
      have hdb : dbAfter start calls = after last := by
        show Store.db ((calls.getLast?.map Event.post).getD start) = _
        rw [hcallsLast]
        rfl
      have hfate := (hrest last (List.mem_of_getLast? hlast)).2.1
      have hinserted : ∃ e' ∈ calls, childOf e' = some child := ⟨e, by simp [hcalls], hchild⟩
      refine ⟨⟨?_, ?_⟩, fun e' he' row hrow => ?_⟩
      · intro hnothing e' he' child' hchild'
        rcases honly e' he' with hneutral | rfl
        · rw [hneutral.1] at hchild'
          cases hchild'
        · obtain rfl : child = child' := Option.some.inj (hchild.symm.trans hchild')
          have hgone := hnothing e' he' (.session child) (fun hhas => hhas hnew) hthere
          rw [hdb] at hgone
          exact ⟨last, hcallsLast, hfate.mp (not_not.mp hgone)⟩
      · intro hcleans e' he' row hbefore hafter
        rcases honly e' he' with hneutral | rfl
        · exact absurd (hneutral.2 row hafter) hbefore
        · obtain rfl : row = .session child := (has_of_childOf hchild hafter).resolve_left hbefore
          obtain ⟨last', hlast', hdeletes⟩ := hcleans e' he' child hchild
          obtain rfl : last' = last := Option.some.inj (hlast'.symm.trans hcallsLast)
          rw [hdb]
          exact fun hhas => hhas (hfate.mpr hdeletes)
      · rw [hcalls] at he'
        rcases List.mem_append.mp he' with he' | he'
        · exact .inl ((hfirst e' he').2 row hrow)
        · rcases List.mem_cons.mp he' with rfl | he'
          · exact .inl (kept_of_childOf hchild hrow)
          · exact ((hrest e' he').2.2 row hrow).imp_right fun hof => ⟨child, hinserted, hof⟩

/-- A delegation whose first step after the insert fails: the name of the parent cannot be read. -/
def cutShort : List Env :=
  [calm 2 "", calm 2 "", calm 2 "", calm 2 "", calm 2 "", calm 2 "", calm 2 "", calm 2 "", calm 2 "c", faulty 2 ""]

/-- The execution is there. -/
def opened : Store := scheduler.now (historyOf opening)

theorem cutShort_inserts : ∃ calls err,
    Returns (M := scheduler) (delegate "r" "lead" "work" none).run calls (.error err) ∧
      Between (M := scheduler) Eq calls ∧ (∃ e ∈ calls, childOf e = some "c") ∧
      (dbAfter opened calls).session? "c" ≠ none := by
  obtain ⟨calls, err, hreturns, hbetween, hcheck⟩ := served_failed
    (delegate "r" "lead" "work" none) cutShort opened
    (fun calls => (calls.any fun e => childOf e = some "c") &&
      ((dbAfter opened calls).session? "c").isSome) (by decide +kernel)
  rw [Bool.and_eq_true, List.any_eq_true] at hcheck
  obtain ⟨⟨e, he, hchild⟩, hthere⟩ := hcheck
  exact ⟨calls, err, hreturns, hbetween, ⟨e, he, of_decide_eq_true hchild⟩,
    Option.isSome_iff_ne_none.mp hthere⟩

theorem failed_delegation_leaves_nothing_iff_cutShort : ∃ calls,
    (∃ e ∈ calls, childOf e = some "c") ∧ (NothingAdded opened calls ↔ CleansUp calls) ∧
      NothingRemoved calls := by
  obtain ⟨calls, err, hreturns, -, hinserts, -⟩ := cutShort_inserts
  exact ⟨calls, hinserts, failed_delegation_leaves_nothing_iff hreturns opened⟩

/-- **A delegation that fails after the insert leaves the child behind.** -/
theorem delegation_left_behind : ∃ calls err,
    Returns (M := scheduler) (delegate "r" "lead" "work" none).run calls (.error err) ∧
      Between (M := scheduler) Eq calls ∧ ¬NothingAdded opened calls := by
  obtain ⟨calls, err, hreturns, hbetween, ⟨e, he, hchild⟩, hthere⟩ := cutShort_inserts
  refine ⟨calls, err, hreturns, hbetween, fun hnothing => ?_⟩
  obtain ⟨hnew, hinserted⟩ := inserted_of_childOf hchild
  exact hnothing e he (.session "c") (fun hhas => hhas hnew) hinserted hthere

end AgentBeacon
