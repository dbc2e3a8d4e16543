import AgentBeacon.Lib.Calls
import AgentBeacon.System.Serving

/-!
# `Correctness.Leftovers` — what a failed creation leaves behind

`create_execution` and `handle_delegate` commit the row of an execution, or of a child, before steps
that may still fail. The failure path of the first removes the worktree from disk and nothing from the
database, so nothing is left just when the transaction of the row itself was rolled back. The second deletes the
child again where its last transaction refuses, and nowhere else.
-/

namespace AgentBeacon
open Relational Interleave Transaction

/-- The database after some calls of a request. -/
def dbAfter (start : Store) (calls : List (Event scheduler)) : Db :=
  Store.db (lastState (M := scheduler) start calls)

/-! ## Calls that end no execution -/

/-- The execution is there, without an outcome. -/
def Db.Live (db : Db) (id : ExecutionId) : Prop :=
  ∃ x, db.execution? id = some x ∧ x.outcome = none

/-- The operation is none of the transactions that may end an execution. -/
def Spares (op : Op) : Prop := ∀ w, op = .write w → ∀ id, ¬w.ends id

theorem ExecutionUpdate.apply_outcome {w : Write} {id : ExecutionId} {u : ExecutionUpdate}
    (hu : w.updatesExecution id u) (hspares : ¬w.ends id) {x : Execution} (hx : x.outcome = none) :
    (u.apply x).outcome = none := by
  unfold ExecutionUpdate.apply
  split
  · cases u with
    | terminal outcome now => exact absurd hu hspares
    | touchLastActivity now => exact hx
    | recover => rfl
  · exact hx

/-- A statement of such a transaction leaves a live execution live. -/
theorem Db.Step.live {w : Write} {env : Env} {db db' : Db} {id : ExecutionId}
    (hspares : ∀ id, ¬w.ends id) (h : Db.Step (w.permit env) db db') (hlive : db.Live id) :
    db'.Live id := by
  obtain ⟨x, hx, hnone⟩ := hlive
  cases h with
  | @updateExecution i u hu =>
      by_cases hi : id = i
      · subst hi
        refine ⟨u.apply x, ?_, ExecutionUpdate.apply_outcome hu (hspares id) hnone⟩
        rw [execution?_updateExecution, if_pos rfl, hx]
        rfl
      · refine ⟨x, ?_, hnone⟩
        rw [execution?_updateExecution, if_neg hi]
        exact hx
  | @insertExecution row executions ht _ =>
      refine ⟨x, ?_, hnone⟩
      show executions.find? id = some x
      rw [Table.find?_insert? ht, if_neg]
      · exact hx
      · rintro rfl
        have hfree : db.execution? row.id = none := (Table.insert?_eq_some ht).1
        rw [hx] at hfree
        cases hfree
  | _ => exact ⟨x, hx, hnone⟩

/-- **Such a call leaves a live execution live.** -/
theorem live_of_spares {e : Event scheduler} (hspares : Spares e.op) {id : ExecutionId}
    (hlive : (before e).Live id) : (after e).Live id := by
  rcases call_effect e with ⟨w, hw, hsteps⟩ | hsame
  · exact hsteps.keeps hlive fun db db' hstep => hstep.live (hspares w hw)
  · rw [hsame]
    exact hlive

/-! ## Creating an execution -/

/-- The execution a call committed. -/
def createdBy (e : Event scheduler) : Option ExecutionId :=
  match e with
  | ⟨_, .write (.createExecution new), env, pre⟩ =>
      (((Write.createExecution new).run env (Store.db pre)).1 :
        Except SchedulerError ExecutionId).toOption
  | _ => none

theorem ok_of_toOption {ε α : Type} {r : Except ε α} {a : α} (h : r.toOption = some a) : r = .ok a := by
  cases r with
  | error e => cases h
  | ok b =>
      obtain rfl := Option.some.inj h
      rfl

theorem write_of_createdBy {e : Event scheduler} {id : ExecutionId} (h : createdBy e = some id) :
    ∃ new, e.op = Op.write (.createExecution new) ∧
      ((Write.createExecution new).run (envOf e) (before e)).1 =
        (.ok id : Except SchedulerError ExecutionId) := by
  obtain ⟨caller, op, env, pre⟩ := e
  unfold createdBy at h
  split at h
  · rename_i new env pre heq
    cases heq
    exact ⟨new, rfl, ok_of_toOption h⟩
  · cases h

/-- A new execution is live. -/
theorem live_of_createdBy {e : Event scheduler} {id : ExecutionId} (h : createdBy e = some id) :
    (after e).Live id := by
  obtain ⟨new, hw, hreply⟩ := write_of_createdBy h
  rw [after_write hw]
  refine scheduling_post (m := fun env => Creation.createExecution env new) (P := fun r db' =>
    ∀ id, r = .ok id → db'.Live id) (fun _ _ => by simp) ?_ id hreply
  unfold Creation.createExecution
  simp only [Tx.wp_bind, Tx.wp_read, Tx.wp_ofOption, Tx.wp_write, Tx.wp_forSome, Tx.wp_pure,
    DbTx.wp_insertEvent]
  refine ⟨fun executions ht => ?_, fun _ _ => by simp⟩
  have hlive : ∀ db' : Db, db'.executions = executions → db'.Live (envOf e).uuid := by
    intro db' hdb'
    have hfind := Table.find?_insert? ht (envOf e).uuid
    rw [if_pos rfl, ← hdb'] at hfind
    exact ⟨_, hfind, rfl⟩
  refine ⟨fun _ _ => ⟨fun _ id hid => ?_, fun _ _ => by simp⟩, fun _ id hid => ?_⟩
  · obtain rfl := Except.ok.inj hid
    exact hlive _ rfl
  · obtain rfl := Except.ok.inj hid
    exact hlive _ rfl

/-- Nothing of an execution that was not created is left: it is not live, none of its sessions waits
for a worker, and no session names the worktree that was removed. -/
structure NothingLeft (db : Db) (id : ExecutionId) (removed : Option String) : Prop where
  ended : ¬db.Live id
  unassignable : ∀ s ∈ db.sessions.rows, s.executionId = id → db.isUnassignedWithWork s = false
  unnamed : ∀ s ∈ db.sessions.rows, ∀ path, removed = some path → s.worktreePath ≠ some path

/-! ## The calls of a handler -/

section Calls

variable {P : Op → Prop} {α β : Type}

theorem Only.handler {p : Handler α} {f : α → Handler β} (hp : Only (M := scheduler) P p.run)
    (hf : ∀ a, Only (M := scheduler) P (f a).run) : Only (M := scheduler) P (p >>= f).run := by
  refine Only.bind hp fun r => ?_
  cases r with
  | error e => trivial
  | ok a => exact hf a

theorem Only.attempt {p : Request (Except SchedulerError α)} (hp : Only (M := scheduler) P p) :
    Only (M := scheduler) P (attempt p).run := hp

theorem Only.handler_ite {c : Prop} [Decidable c] {p q : Handler α}
    (hp : Only (M := scheduler) P p.run) (hq : Only (M := scheduler) P q.run) :
    Only (M := scheduler) P (if c then p else q).run := by
  split
  · exact hp
  · exact hq

/-- Where every read may be called, and one transaction, a retried insert may be. -/
theorem Only.withFreshSlug {insert : Request (Except SchedulerError α)}
    (h : Only (M := scheduler) P insert) (attempts : Nat) :
    Only (M := scheduler) P (withFreshSlug insert attempts).run := by
  induction attempts with
  | zero => trivial
  | succ attempts ih =>
      refine Only.bind (Only.bind h fun _ => trivial) fun r => ?_
      cases r with
      | error e => trivial
      | ok r =>
          cases r with
          | ok a => trivial
          | error e => exact Only.handler_ite ih trivial

end Calls

section Handlers

variable {α β : Type} {calls : List (Event scheduler)}

/-- The operation is no transaction. -/
def Reads (op : Op) : Prop := ∀ w, op ≠ .write w

/-- The one call of a transaction. -/
theorem returns_issue {w : Write} {r : w.transaction.Reply}
    (h : Returns (M := scheduler) (issue w) calls r) :
    ∃ caller input pre, calls = [⟨caller, .write w, input, pre⟩] ∧
      r = (w.run input (Store.db pre)).1 := by
  have hcall : Returns (M := scheduler) (.call (Op.write w) fun reply => .ret reply) calls r := h
  obtain ⟨caller, input, pre, rest, hcalls, hret⟩ := hcall.of_call
  generalize hreply : (scheduler.exec (Op.write w) input pre).1 = reply at hret
  cases hret
  exact ⟨caller, input, pre, hcalls, hreply.symm⟩

/-- A handler that fails has failed in its first part, or in what follows. -/
theorem returns_handler {p : Handler α} {f : α → Handler β} {r : Except SchedulerError β}
    (h : Returns (M := scheduler) (p >>= f).run calls r) :
    (∃ err, r = .error err ∧ Returns (M := scheduler) p.run calls (.error err)) ∨
      ∃ a first rest, calls = first ++ rest ∧ Returns (M := scheduler) p.run first (.ok a) ∧
        Returns (M := scheduler) (f a).run rest r := by
  obtain ⟨x, first, rest, rfl, hp, hf⟩ := Returns.of_bind (M := scheduler) h
  cases x with
  | error err =>
      cases hf
      rw [List.append_nil]
      exact .inl ⟨err, rfl, hp⟩
  | ok a => exact .inr ⟨a, first, rest, rfl, hp, hf⟩

theorem reads_query (f : Env → Db → α) : Only (M := scheduler) Reads (query f) := by
  refine ⟨fun w hw => ?_, fun _ => trivial⟩
  cases hw

theorem reads_getAgent (id : AgentId) : Only (M := scheduler) Reads (getAgent id) :=
  Only.bind (reads_query _) fun _ => trivial

theorem reads_getExecution (id : ExecutionId) : Only (M := scheduler) Reads (getExecution id) :=
  Only.bind (reads_query _) fun _ => trivial

theorem reads_lookUpProject (projectId : Option String) :
    Only (M := scheduler) Reads (lookUpProject projectId).run :=
  Only.handler_ite (Only.attempt (reads_query _)) trivial

end Handlers

theorem spares_read {α : Type} (f : Env → Db → α) : Only (M := scheduler) Spares (query f) := by
  refine ⟨fun w hw => ?_, fun _ => trivial⟩
  cases hw

theorem spares_getAgent (id : AgentId) : Only (M := scheduler) Spares (getAgent id) :=
  Only.bind (spares_read _) fun _ => trivial

theorem spares_getExecution (id : ExecutionId) : Only (M := scheduler) Spares (getExecution id) :=
  Only.bind (spares_read _) fun _ => trivial

theorem spares_issue {w : Write} (h : ∀ id, ¬w.ends id) : Only (M := scheduler) Spares (issue w) := by
  refine ⟨fun w' hw => ?_, fun _ => trivial⟩
  obtain rfl := Op.write.inj hw
  exact h

theorem spares_lookUpProject (projectId : Option String) :
    Only (M := scheduler) Spares (lookUpProject projectId).run :=
  Only.handler_ite (Only.attempt (spares_read _)) trivial

/-- No call of `create_execution` may end an execution. -/
theorem only_createExecution (request : NewExecutionRequest) :
    Only (M := scheduler) Spares (createExecution request).run := by
  refine Only.handler_ite trivial (Only.handler (spares_getAgent _) fun agent => ?_)
  refine Only.handler_ite trivial (Only.handler_ite trivial (Only.handler_ite trivial ?_))
  refine Only.handler (spares_issue fun id => by simp [Write.ends]) fun executionId => ?_
  refine Only.handler (Only.withFreshSlug (spares_issue fun id => by simp [Write.ends]) 3)
    fun sessionId => ?_
  refine Only.handler (spares_issue fun id => by simp [Write.ends]) fun _ => ?_
  refine Only.handler (spares_issue fun id => by simp [Write.ends]) fun _ => ?_
  refine Only.handler (spares_lookUpProject _) fun _ => Only.handler (spares_lookUpProject _) fun _ => ?_
  refine Only.handler (spares_issue fun id => by simp [Write.ends]) fun _ => ?_
  refine Only.handler (spares_getExecution _) fun _ => ?_
  exact Only.handler (spares_issue fun id => by simp [Write.ends]) fun _ => trivial

/-- What others may do while an execution is created: anything but end it. -/
def SparedByOthers (id : ExecutionId) (s s' : Store) : Prop := (Store.db s).Live id → (Store.db s').Live id

/-- **After the row of the execution is committed, something is left.** Whichever step fails then: unless
another request ends the execution, it is live when `create_execution` returns. -/
theorem live_after_failure {request : NewExecutionRequest} {calls : List (Event scheduler)}
    {err : SchedulerError} {id : ExecutionId}
    (h : Returns (M := scheduler) (createExecution request).run calls (.error err))
    (hothers : Between (M := scheduler) (SparedByOthers id) calls) (start : Store) {e : Event scheduler}
    (he : e ∈ calls) (hcreated : createdBy e = some id) : (dbAfter start calls).Live id := by
  have hops := (only_createExecution request).of_returns h
  refine hothers.keeps_of_mem (I := fun s => (Store.db s).Live id) (fun _ _ hs => hs) start he
    (live_of_createdBy hcreated) fun e' he' => ?_
  exact live_of_spares (hops e' he')

/-! ## The first transaction -/

/-- The transaction that inserts the row of the execution is rolled back: the database fails it, its commit
included, or the log has no number left for the event of the ceiling. -/
def RollsBack (e : Event scheduler) (new : Creation.NewExecution) : Prop :=
  (envOf e).fault ≠ none ∨ (new.ceiling ≠ none ∧ maxRowId < (before e).events.next)

/-- Nothing in the database names the execution, or the worktree that was made for it. -/
structure Unknown (db : Db) (id : ExecutionId) (worktree : Option String) : Prop where
  execution : db.execution? id = none
  sessions : ∀ s ∈ db.sessions.rows, s.executionId ≠ id
  paths : ∀ s ∈ db.sessions.rows, ∀ path, worktree = some path → s.worktreePath ≠ some path

/-- **The first transaction**, of an execution that is not known: it commits the row, unless it is rolled back. -/
theorem createExecution_ok_iff {env : Env} {db : Db} {new : Creation.NewExecution}
    (hfree : db.execution? env.uuid = none) :
    (∃ id : ExecutionId, ((Write.createExecution new).run env db).1 = (.ok id : Except SchedulerError ExecutionId)) ↔
      env.fault = none ∧ (new.ceiling ≠ none → db.events.next ≤ maxRowId) := by
  unfold Write.run
  cases hfault : env.fault with
  | some fault =>
      refine ⟨?_, fun h => (by cases h.1)⟩
      rintro ⟨id, h⟩
      cases h
  | none =>
      refine Tx.commit_post (P := fun (r : Except SchedulerError ExecutionId) _ => (∃ id, r = .ok id) ↔ _ ∧ _) ?_
      show Tx.wp (Creation.createExecution env new) _ _ _
      unfold Creation.createExecution
      simp only [Tx.wp_bind, Tx.wp_read, Tx.wp_ofOption, Tx.wp_write, Tx.wp_forSome, Tx.wp_pure,
        DbTx.wp_insertEvent]
      refine ⟨fun executions ht => ⟨fun ceiling hceiling => ⟨fun hroom => ?_, fun hfull => ?_⟩, fun hnone => ?_⟩,
        fun hno => ?_⟩
      · exact ⟨fun _ => ⟨trivial, fun _ => hroom.2⟩, fun _ => ⟨_, rfl⟩⟩
      · refine ⟨?_, fun h => absurd ⟨?_, h.2 (by simp [hceiling])⟩ hfull⟩
        · rintro ⟨id, h⟩
          cases h
        · intro j hj
          cases hj
      · exact ⟨fun _ => ⟨trivial, fun h => absurd hnone h⟩, fun _ => ⟨_, rfl⟩⟩
      · rw [Table.insert?_eq_none] at hno
        exact absurd hfree hno

theorem createdBy_eq_none_iff {e : Event scheduler} {new : Creation.NewExecution}
    (hop : e.op = Op.write (.createExecution new)) (hfree : (before e).execution? (envOf e).uuid = none) :
    createdBy e = none ↔ RollsBack e new := by
  have hrolls : RollsBack e new ↔
      ¬((envOf e).fault = none ∧ (new.ceiling ≠ none → (before e).events.next ≤ maxRowId)) := by
    unfold RollsBack
    rw [not_and_or, Classical.not_imp, Nat.not_le]
  rw [hrolls, ← createExecution_ok_iff hfree, not_exists]
  obtain ⟨caller, op, env, pre⟩ := e
  obtain rfl : op = Op.write (.createExecution new) := hop
  show (((Write.createExecution new).run env (Store.db pre)).1 : Except SchedulerError ExecutionId).toOption = none ↔
    ∀ id, ¬(((Write.createExecution new).run env (Store.db pre)).1 : Except SchedulerError ExecutionId) = .ok id
  cases (((Write.createExecution new).run env (Store.db pre)).1 : Except SchedulerError ExecutionId) with
  | error err => exact ⟨fun _ id h => (by cases h), fun _ => rfl⟩
  | ok id => exact ⟨fun h => (by cases h), fun h => absurd rfl (h id)⟩

/-- It draws the identifier of the execution, and changes nothing where it does not commit. -/
theorem createExecution_reply (env : Env) (db : Db) (new : Creation.NewExecution) :
    let w := Write.createExecution new
    (∀ id : ExecutionId, (w.run env db).1 = (.ok id : Except SchedulerError ExecutionId) → id = env.uuid) ∧
      ∀ err, (w.run env db).1 = (.error err : Except SchedulerError ExecutionId) → (w.run env db).2 = db := by
  refine scheduling_post (m := fun env => Creation.createExecution env new) (P := fun r db' =>
    (∀ id, r = .ok id → id = env.uuid) ∧ ∀ err, r = .error err → db' = db) (fun _ _ => ⟨by simp, fun _ _ => rfl⟩) ?_
  unfold Creation.createExecution
  simp only [Tx.wp_bind, Tx.wp_read, Tx.wp_ofOption, Tx.wp_write, Tx.wp_forSome, Tx.wp_pure, DbTx.wp_insertEvent]
  refine ⟨fun executions _ => ⟨fun ceiling _ => ⟨fun _ => ?_, fun _ => ⟨fun _ h => (by cases h), fun _ _ => trivial⟩⟩,
    fun _ => ?_⟩, fun _ => ⟨fun _ h => (by cases h), fun _ _ => trivial⟩⟩
  · exact ⟨fun id h => (Except.ok.inj h).symm, fun err h => (by cases h)⟩
  · exact ⟨fun id h => (Except.ok.inj h).symm, fun err h => (by cases h)⟩

theorem uuid_of_createdBy {e : Event scheduler} {id : ExecutionId} (h : createdBy e = some id) :
    id = (envOf e).uuid := by
  obtain ⟨new, -, hreply⟩ := write_of_createdBy h
  exact (createExecution_reply _ _ new).1 id hreply

theorem kept_of_not_created {e : Event scheduler} {new : Creation.NewExecution}
    (hop : e.op = Op.write (.createExecution new)) (hno : createdBy e = none) : after e = before e := by
  rw [after_write hop]
  obtain ⟨caller, op, env, pre⟩ := e
  obtain rfl : op = Op.write (.createExecution new) := hop
  have hreply : (((Write.createExecution new).run env (Store.db pre)).1 :
      Except SchedulerError ExecutionId).toOption = none := hno
  cases hr : (((Write.createExecution new).run env (Store.db pre)).1 : Except SchedulerError ExecutionId) with
  | error err => exact (createExecution_reply env (Store.db pre) new).2 err hr
  | ok id =>
      rw [hr] at hreply
      cases hreply

/-- The row of an execution is inserted by another call. -/
def LeavesRow (op : Op) : Prop := ∀ new, op ≠ .write (.createExecution new)

theorem leavesRow_query {α : Type} (f : Env → Db → α) : Only (M := scheduler) LeavesRow (query f) := by
  refine ⟨fun new hop => ?_, fun _ => trivial⟩
  cases hop

theorem leavesRow_issue {w : Write} (h : ∀ new, w ≠ .createExecution new) :
    Only (M := scheduler) LeavesRow (issue w) := by
  refine ⟨fun new hop => h new ?_, fun _ => trivial⟩
  exact Op.write.inj hop

theorem leavesRow_lookUpProject (projectId : Option String) :
    Only (M := scheduler) LeavesRow (lookUpProject projectId).run :=
  Only.handler_ite (Only.attempt (leavesRow_query _)) trivial

/-- The call is the transaction of the row of an execution. -/
def insertsExecution (e : Event scheduler) : Bool :=
  match (e.op : Op) with
  | .write (.createExecution _) => true
  | _ => false

theorem op_of_insertsExecution {e : Event scheduler} (h : insertsExecution e = true) :
    ∃ new, e.op = Op.write (.createExecution new) := by
  obtain ⟨caller, op, env, pre⟩ := e
  cases (op : Op) with
  | write w =>
      cases w with
      | createExecution new => exact ⟨new, rfl⟩
      | _ => cases h
  | _ => cases h

/-- **A creation makes one such call**, with what was requested; if that does not commit it is the last one. -/
theorem last_of_not_created {request : NewExecutionRequest} {calls : List (Event scheduler)}
    {r : Except SchedulerError (ExecutionId × SessionId)}
    (h : Returns (M := scheduler) (createExecution request).run calls r) {e : Event scheduler} (he : e ∈ calls)
    {new : Creation.NewExecution} (hop : e.op = Op.write (.createExecution new)) :
    new = request.new ∧ (createdBy e = none → calls.getLast? = some e) := by
  unfold createExecution at h
  split at h
  · cases h
    cases he
  · have hreads : ∀ first : List (Event scheduler), (∀ e' ∈ first, Reads e'.op) → e ∉ first :=
      fun first hfirst hmem => hfirst e hmem _ hop
    rcases returns_handler h with ⟨err, -, hagent⟩ | ⟨agent, first, rest, rfl, hagent, hrest⟩
    · exact absurd he (hreads _ ((reads_getAgent _).of_returns hagent))
    · have hrestOf := (List.mem_append.mp he).resolve_left
        (hreads first ((reads_getAgent _).of_returns hagent))
      split at hrest
      · cases hrest
        cases hrestOf
      · split at hrest
        · cases hrest
          cases hrestOf
        · split at hrest
          · cases hrest
            cases hrestOf
          · rcases returns_handler hrest with ⟨err, -, hissue⟩ | ⟨id, first', rest', rfl, hissue, hafter⟩
            · obtain ⟨caller, env, pre, rfl, -⟩ := returns_issue hissue
              obtain rfl := List.mem_singleton.mp hrestOf
              exact ⟨(Write.createExecution.inj (Op.write.inj hop)).symm, fun _ => by simp⟩
            · obtain ⟨caller, env, pre, rfl, hreply⟩ := returns_issue hissue
              rcases List.mem_append.mp hrestOf with hfirst | hlater
              · obtain rfl := List.mem_singleton.mp hfirst
                refine ⟨(Write.createExecution.inj (Op.write.inj hop)).symm, fun hno => ?_⟩
                have hcreated : (.ok id : Except SchedulerError ExecutionId).toOption = none := by
                  rw [hreply]
                  exact hno
                cases hcreated
              · -- none of the later calls inserts the row of an execution
                refine absurd hop (Only.of_returns (P := LeavesRow) ?_ hafter e hlater new)
                refine Only.handler (Only.withFreshSlug (leavesRow_issue fun _ h => by cases h) 3) fun sessionId => ?_
                refine Only.handler (leavesRow_issue fun _ h => by cases h) fun _ => ?_
                refine Only.handler (leavesRow_issue fun _ h => by cases h) fun _ => ?_
                refine Only.handler (leavesRow_lookUpProject _) fun _ =>
                  Only.handler (leavesRow_lookUpProject _) fun _ => ?_
                refine Only.handler (leavesRow_issue fun _ h => by cases h) fun _ => ?_
                refine Only.handler (Only.bind (leavesRow_query _) fun _ => trivial) fun _ => ?_
                exact Only.handler (leavesRow_issue fun _ h => by cases h) fun _ => trivial

/-- **When a failed creation leaves nothing**: exactly if it was the transaction of its row that was rolled back.
Whatever the request, and whichever step fails; as long as no other request ends the execution. -/
theorem failed_creation_leaves {request : NewExecutionRequest} {calls : List (Event scheduler)}
    {err : SchedulerError} (h : Returns (M := scheduler) (createExecution request).run calls (.error err))
    {e : Event scheduler} (he : e ∈ calls) (hinserts : insertsExecution e = true)
    (hunknown : Unknown (before e) (envOf e).uuid request.worktreePath)
    (hothers : Between (M := scheduler) (SparedByOthers (envOf e).uuid) calls) (start : Store) :
    NothingLeft (dbAfter start calls) (envOf e).uuid request.worktreePath ↔ RollsBack e request.new := by
  obtain ⟨new, hop⟩ := op_of_insertsExecution hinserts
  obtain ⟨rfl, hlast⟩ := last_of_not_created h he hop
  rw [← createdBy_eq_none_iff hop hunknown.execution]
  constructor
  · intro hnothing
    by_contra hcreated
    obtain ⟨id, hid⟩ := Option.ne_none_iff_exists'.mp hcreated
    rw [uuid_of_createdBy hid] at hid
    exact hnothing.ended (live_after_failure h hothers start he hid)
  · intro hno
    have hdb : dbAfter start calls = after e := by
      show Store.db ((calls.getLast?.map Event.post).getD start) = _
      rw [hlast hno]
      rfl
    rw [hdb, kept_of_not_created hop hno]
    refine ⟨?_, ?_, hunknown.paths⟩
    · rintro ⟨x, hx, -⟩
      rw [hunknown.execution] at hx
      cases hx
    · exact fun s hs hexec => absurd hexec (hunknown.sessions s hs)

/-- A request that creates an execution in a worktree. -/
def worktreeRequest : NewExecutionRequest := { firstRequest with worktreePath := some "/w" }

/-- A step that fails. -/
def faulty (now : Timestamp) (uuid : String) : Env :=
  { calm now uuid with fault := some ⟨"disk I/O error", false⟩ }

/-- The agent is there. -/
def agentThere : Store := scheduler.now
  (historyOf [.spawn 0 (0, .putAgent leadAgent), .step 0 (calm 1 "t0"), .drop 0])

/-- The session is created, and its first message cannot be written. -/
def unlucky : List Env := [calm 1 "", calm 1 "x", calm 1 "r", faulty 1 "t1"]

/-- A request that was served alone and failed, and what its calls were like. -/
def failedServed {α : Type} (served : Option (List (Event scheduler) × Except SchedulerError α))
    (check : List (Event scheduler) → Bool) : Bool :=
  match served with
  | some (calls, .error _) => check calls
  | _ => false

theorem served_failed {α : Type} (p : Handler α) (inputs : List Env) (start : Store)
    (check : List (Event scheduler) → Bool)
    (h : failedServed (served (M := scheduler) p.run inputs start) check = true) :
    ∃ calls err, Returns (M := scheduler) p.run calls (.error err) ∧
      Between (M := scheduler) Eq calls ∧ check calls = true := by
  unfold failedServed at h
  split at h
  · rename_i calls err hserved
    obtain ⟨hreturns, hbetween, -⟩ := served_returns (M := scheduler) hserved
    exact ⟨calls, err, hreturns, hbetween, h⟩
  · cases h

/-- The call of `create_execution` that fails has created the execution. -/
theorem unlucky_created : ∃ calls err,
    Returns (M := scheduler) (createExecution worktreeRequest).run calls (.error err) ∧
      Between (M := scheduler) Eq calls ∧ (∃ e ∈ calls, createdBy e = some "x") ∧
      ∃ s ∈ (dbAfter agentThere calls).sessions.rows, s.executionId = "x" ∧ s.worktreePath = some "/w" := by
  obtain ⟨calls, err, hreturns, hbetween, hcheck⟩ := served_failed
    (createExecution worktreeRequest) unlucky agentThere
    (fun calls => (calls.any fun e => createdBy e = some "x") &&
      (dbAfter agentThere calls).sessions.rows.any fun s => s.executionId = "x" ∧
        s.worktreePath = some "/w") (by decide +kernel)
  rw [Bool.and_eq_true, List.any_eq_true, List.any_eq_true] at hcheck
  obtain ⟨⟨e, he, hcreated⟩, s, hs, hnames⟩ := hcheck
  exact ⟨calls, err, hreturns, hbetween, ⟨e, he, of_decide_eq_true hcreated⟩, s, hs,
    of_decide_eq_true hnames⟩

/-- A request for a sandboxed execution in a worktree. -/
def sandboxedRequest : NewExecutionRequest :=
  { worktreeRequest with new := { worktreeRequest.new with ceiling := some .null } }

/-- The call inserts the execution `"x"` where nothing is known of it, and the database fails it or not. -/
def insertsFresh (fails : Bool) (e : Event scheduler) : Bool :=
  insertsExecution e && decide ((envOf e).uuid = "x") && ((before e).execution? "x").isNone &&
    (before e).sessions.rows.isEmpty && (envOf e).fault.isSome == fails

theorem insertsFresh_spec {fails : Bool} {e : Event scheduler} (h : insertsFresh fails e = true)
    (worktree : Option String) : insertsExecution e = true ∧ (envOf e).uuid = "x" ∧
      Unknown (before e) "x" worktree ∧ (envOf e).fault.isSome = fails := by
  unfold insertsFresh at h
  simp only [Bool.and_eq_true, decide_eq_true_eq, Option.isNone_iff_eq_none, List.isEmpty_iff, beq_iff_eq] at h
  obtain ⟨⟨⟨⟨hinserts, huuid⟩, hexec⟩, hsessions⟩, hfails⟩ := h
  refine ⟨hinserts, huuid, ⟨hexec, fun s hs => ?_, fun s hs => ?_⟩, hfails⟩
  · rw [hsessions] at hs
    cases hs
  · rw [hsessions] at hs
    cases hs

theorem sparedByOthers_of_eq {id : ExecutionId} {calls : List (Event scheduler)}
    (h : Between (M := scheduler) Eq calls) : Between (M := scheduler) (SparedByOthers id) calls := by
  refine h.mono fun s s' hs => ?_
  subst hs
  exact fun hlive => hlive

/-- The first message fails, and something is left; the commit of the row fails, and nothing is. -/
theorem failed_creation_leaves_unlucky :
    (∃ calls, ¬NothingLeft (dbAfter agentThere calls) "x" worktreeRequest.worktreePath) ∧
    ∃ calls ≠ [], NothingLeft (dbAfter agentThere calls) "x" sandboxedRequest.worktreePath := by
  constructor
  · obtain ⟨calls, err, hreturns, hbetween, hcheck⟩ := served_failed (createExecution worktreeRequest) unlucky
      agentThere (fun calls => calls.any (insertsFresh false)) (by decide +kernel)
    obtain ⟨e, he, hfresh⟩ := List.any_eq_true.mp hcheck
    obtain ⟨hinserts, huuid, hunknown, hfails⟩ := insertsFresh_spec hfresh worktreeRequest.worktreePath
    rw [← huuid] at hunknown
    have hiff := failed_creation_leaves hreturns he hinserts hunknown (sparedByOthers_of_eq hbetween) agentThere
    rw [huuid] at hiff
    refine ⟨calls, fun hnothing => ?_⟩
    rcases hiff.mp hnothing with hfault | ⟨hceiling, -⟩
    · rw [Option.isSome_eq_false_iff, Option.isNone_iff_eq_none] at hfails
      exact hfault hfails
    · exact hceiling rfl
  · obtain ⟨calls, err, hreturns, hbetween, hcheck⟩ := served_failed (createExecution sandboxedRequest)
      [calm 1 "", faulty 1 "x"] agentThere (fun calls => calls.any (insertsFresh true)) (by decide +kernel)
    obtain ⟨e, he, hfresh⟩ := List.any_eq_true.mp hcheck
    obtain ⟨hinserts, huuid, hunknown, hfails⟩ := insertsFresh_spec hfresh sandboxedRequest.worktreePath
    rw [← huuid] at hunknown
    have hiff := failed_creation_leaves hreturns he hinserts hunknown (sparedByOthers_of_eq hbetween) agentThere
    rw [huuid] at hiff
    exact ⟨calls, List.ne_nil_of_mem he, hiff.mpr (.inl (Option.isSome_iff_ne_none.mp hfails))⟩

/-- **A creation that fails at its first message leaves a live execution**, and a session in the worktree
that was removed. -/
theorem creation_left_behind : ∃ calls err,
    Returns (M := scheduler) (createExecution worktreeRequest).run calls (.error err) ∧
      Between (M := scheduler) Eq calls ∧ (∃ e ∈ calls, createdBy e = some "x") ∧
      ¬NothingLeft (dbAfter agentThere calls) "x" worktreeRequest.worktreePath := by
  obtain ⟨calls, err, hreturns, hbetween, hcreated, s, hs, -, hpath⟩ := unlucky_created
  refine ⟨calls, err, hreturns, hbetween, hcreated, fun hnothing => ?_⟩
  exact hnothing.unnamed s hs "/w" rfl hpath

end AgentBeacon
