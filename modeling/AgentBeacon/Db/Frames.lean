import AgentBeacon.Db.Statements

/-!
# `Db.Frames` — what the statements leave behind

For each statement, what the lookups see afterwards (the *frame*), and its weakest precondition as a
statement of a transaction body. With these in the simp set a body can be executed symbolically and
its final database looked up, without unfolding a table.
-/

namespace AgentBeacon
open Relational Transaction

namespace Db

variable (db : Db)

/-! ## Sessions -/

/-- **What an `UPDATE sessions` leaves under each id.** -/
theorem session?_updateSession (id j : SessionId) (u : SessionUpdate) :
    (db.updateSession id u).session? j =
      if j = id then (db.session? id).map u.apply else db.session? j :=
  db.sessions.find?_modify id j u.apply fun s => (u.apply_identity s).1

theorem session?_updateSession_of_ne {id j : SessionId} (u : SessionUpdate) (h : j ≠ id) :
    (db.updateSession id u).session? j = db.session? j := by
  rw [session?_updateSession, if_neg h]

theorem affects_iff {db : Db} {id : SessionId} {u : SessionUpdate} :
    db.affects id u = true ↔ ∃ s, db.session? id = some s ∧ u.matches s = true := by
  simp [affects, Option.any_eq_true]

/-- The row an `UPDATE` has affected. -/
theorem session?_of_affects {db : Db} {id : SessionId} {u : SessionUpdate} {s' : Session}
    (h : db.affects id u = true) (hs' : (db.updateSession id u).session? id = some s') :
    ∃ s, db.session? id = some s ∧ u.matches s = true ∧ s' = u.set s := by
  obtain ⟨s, hs, hm⟩ := affects_iff.mp h
  rw [session?_updateSession, if_pos rfl, hs] at hs'
  exact ⟨s, hs, hm, (Option.some.inj hs').symm.trans (u.apply_of_matches hm)⟩

/-- Every session that is there after `db` became `db'` was there, desired to do the same. -/
def SameDesired (db db' : Db) : Prop :=
  ∀ j s, db'.session? j = some s → ∃ t, db.session? j = some t ∧ t.desired = s.desired

theorem SameDesired.refl : SameDesired db db := fun _ s hs => ⟨s, hs, rfl⟩

theorem SameDesired.trans {db db' db'' : Db} (h : SameDesired db db') (h' : SameDesired db' db'') :
    SameDesired db db'' := fun j s hs => by
  obtain ⟨t, ht, hts⟩ := h' j s hs
  obtain ⟨t₀, ht₀, htt⟩ := h j t ht
  exact ⟨t₀, ht₀, htt.trans hts⟩

theorem sameDesired_updateSession {id : SessionId} {u : SessionUpdate}
    (hu : ∀ s, (u.set s).desired = s.desired) : SameDesired db (db.updateSession id u) := by
  intro j s hs
  rw [session?_updateSession] at hs
  by_cases hj : j = id
  · subst hj
    rw [if_pos rfl, Option.map_eq_some_iff] at hs
    obtain ⟨t, ht, rfl⟩ := hs
    refine ⟨t, ht, ?_⟩
    unfold SessionUpdate.apply
    split
    · exact (hu t).symm
    · rfl
  · rw [if_neg hj] at hs
    exact ⟨s, hs, rfl⟩

@[simp] theorem session?_updateExecution (id : ExecutionId) (u : ExecutionUpdate) (j : SessionId) :
    (db.updateExecution id u).session? j = db.session? j := rfl

@[simp] theorem session?_pushTask (executionId : ExecutionId) (id : SessionId) (payload : Json)
    (source : Option TaskSource) (now : Timestamp) (j : SessionId) :
    (db.pushTask executionId id payload source now).session? j = db.session? j := rfl

@[simp] theorem session?_deleteTasks (id j : SessionId) :
    (db.deleteTasks id).session? j = db.session? j := rfl

@[simp] theorem session?_deleteTask (id : Nat) (j : SessionId) :
    (db.deleteTask id).session? j = db.session? j := rfl

@[simp] theorem session?_pushEvent (executionId : ExecutionId) (id : Option SessionId)
    (eventType : EventType) (payload : Json) (msgSeq : Option Int) (now : Timestamp)
    (j : SessionId) :
    (db.pushEvent executionId id eventType payload msgSeq now).session? j = db.session? j := rfl

theorem session?_deleteSessions (ids : List SessionId) (j : SessionId) :
    (db.deleteSessions ids).session? j = if j ∈ ids then none else db.session? j := by
  show (db.sessions.deleteWhere _).find? j = _
  rw [Table.find?_deleteWhere]
  show (db.session? j).filter _ = _
  cases h : db.session? j with
  | none => simp
  | some s =>
      have hid : s.id = j := Table.key_of_find? h
      by_cases hj : j ∈ ids
      · simp [hid, hj, Option.filter]
      · simp [hid, hj, Option.filter]

theorem id_of_session? {db : Db} {id : SessionId} {s : Session} (h : db.session? id = some s) :
    s.id = id := Table.key_of_find? h

theorem mem_of_session? {db : Db} {id : SessionId} {s : Session} (h : db.session? id = some s) :
    s ∈ db.sessions.rows := Table.mem_of_find? h

theorem session?_of_mem {db : Db} {s : Session} (h : s ∈ db.sessions.rows) :
    db.session? s.id = some s := Table.find?_of_mem h

/-! ## Executions -/

/-- **What an `UPDATE executions` leaves under each id.** -/
theorem execution?_updateExecution (id j : ExecutionId) (u : ExecutionUpdate) :
    (db.updateExecution id u).execution? j =
      if j = id then (db.execution? id).map u.apply else db.execution? j :=
  db.executions.find?_modify id j u.apply u.apply_id

@[simp] theorem execution?_updateSession (id : SessionId) (u : SessionUpdate) (j : ExecutionId) :
    (db.updateSession id u).execution? j = db.execution? j := rfl

@[simp] theorem execution?_pushTask (executionId : ExecutionId) (id : SessionId) (payload : Json)
    (source : Option TaskSource) (now : Timestamp) (j : ExecutionId) :
    (db.pushTask executionId id payload source now).execution? j = db.execution? j := rfl

@[simp] theorem execution?_deleteTasks (id : SessionId) (j : ExecutionId) :
    (db.deleteTasks id).execution? j = db.execution? j := rfl

@[simp] theorem execution?_deleteTask (id : Nat) (j : ExecutionId) :
    (db.deleteTask id).execution? j = db.execution? j := rfl

@[simp] theorem execution?_pushEvent (executionId : ExecutionId) (id : Option SessionId)
    (eventType : EventType) (payload : Json) (msgSeq : Option Int) (now : Timestamp)
    (j : ExecutionId) :
    (db.pushEvent executionId id eventType payload msgSeq now).execution? j = db.execution? j := rfl

@[simp] theorem execution?_deleteSessions (ids : List SessionId) (j : ExecutionId) :
    (db.deleteSessions ids).execution? j = db.execution? j := rfl

theorem mem_of_execution? {db : Db} {id : ExecutionId} {e : Execution}
    (h : db.execution? id = some e) : e ∈ db.executions.rows := List.mem_of_find?_eq_some h

theorem id_of_execution? {db : Db} {id : ExecutionId} {e : Execution}
    (h : db.execution? id = some e) : e.id = id := Table.key_of_find? h

/-! ## The queue -/

@[simp] theorem taskQueue_updateSession (id : SessionId) (u : SessionUpdate) :
    (db.updateSession id u).taskQueue = db.taskQueue := rfl

@[simp] theorem taskQueue_updateExecution (id : ExecutionId) (u : ExecutionUpdate) :
    (db.updateExecution id u).taskQueue = db.taskQueue := rfl

@[simp] theorem taskQueue_pushEvent (executionId : ExecutionId) (id : Option SessionId)
    (eventType : EventType) (payload : Json) (msgSeq : Option Int) (now : Timestamp) :
    (db.pushEvent executionId id eventType payload msgSeq now).taskQueue = db.taskQueue := rfl

theorem mem_tasksOf {db : Db} {id : SessionId} {t : TaskRow} :
    t ∈ db.tasksOf id ↔ t ∈ db.taskQueue.rows ∧ t.sessionId = id := by
  simp [tasksOf, List.mem_filter]

/-! ## Events -/

@[simp] theorem events_updateSession (id : SessionId) (u : SessionUpdate) :
    (db.updateSession id u).events = db.events := rfl

@[simp] theorem events_updateExecution (id : ExecutionId) (u : ExecutionUpdate) :
    (db.updateExecution id u).events = db.events := rfl

@[simp] theorem events_pushTask (executionId : ExecutionId) (id : SessionId) (payload : Json)
    (source : Option TaskSource) (now : Timestamp) :
    (db.pushTask executionId id payload source now).events = db.events := rfl

@[simp] theorem events_deleteTasks (id : SessionId) : (db.deleteTasks id).events = db.events := rfl

@[simp] theorem events_deleteTask (id : Nat) : (db.deleteTask id).events = db.events := rfl

end Db

/-! ## Statements of a body, executed -/

namespace DbTx
open Tx

variable {ρ : Type} {E : ρ → Prop} {db : Db}

@[simp] theorem wp_updateSession {Q : Bool → Db → Prop} (id : SessionId) (u : SessionUpdate) :
    wp (updateSession id u : DbTx ρ Bool) Q E db ↔ Q (db.affects id u) (db.updateSession id u) :=
  Iff.rfl

@[simp] theorem wp_updateExecution {Q : Bool → Db → Prop} (id : ExecutionId) (u : ExecutionUpdate) :
    wp (updateExecution id u : DbTx ρ Bool) Q E db ↔
      Q ((db.execution? id).any u.matches) (db.updateExecution id u) :=
  Iff.rfl

@[simp] theorem wp_insertTask {Q : Unit → Db → Prop} (executionId : ExecutionId) (id : SessionId)
    (payload : Json) (source : Option TaskSource) (now : Timestamp) (e : ρ) :
    wp (insertTask executionId id payload source now e) Q E db ↔
      (db.execution? executionId ≠ none ∧ db.session? id ≠ none ∧ db.taskQueue.next ≤ maxRowId →
        Q () (db.pushTask executionId id payload source now)) ∧
      (¬(db.execution? executionId ≠ none ∧ db.session? id ≠ none ∧
        db.taskQueue.next ≤ maxRowId) → E e) := by
  unfold insertTask
  rw [wp_bind, wp_read, wp_bind, wp_require]
  rfl

@[simp] theorem wp_insertEvent {Q : Nat → Db → Prop} (executionId : ExecutionId)
    (id : Option SessionId) (eventType : EventType) (payload : Json) (now : Timestamp) (e : ρ) :
    wp (insertEvent executionId id eventType payload now e) Q E db ↔
      ((∀ j ∈ id, ∃ s ∈ db.session? j, s.executionId = executionId) ∧ db.events.next ≤ maxRowId →
        Q db.events.next (db.pushEvent executionId id eventType payload none now)) ∧
      (¬((∀ j ∈ id, ∃ s ∈ db.session? j, s.executionId = executionId) ∧
        db.events.next ≤ maxRowId) → E e) := by
  unfold insertEvent
  simp only [wp_bind, wp_read, wp_require, wp_write, wp_pure]
  constructor
  · rintro ⟨h, h'⟩
    refine ⟨fun hboth => (h hboth.1).1 hboth.2, fun hno => ?_⟩
    by_cases hs : ∀ j ∈ id, ∃ s ∈ db.session? j, s.executionId = executionId
    · exact (h hs).2 fun hn => hno ⟨hs, hn⟩
    · exact h' hs
  · rintro ⟨h, h'⟩
    exact ⟨fun hs => ⟨fun hn => h ⟨hs, hn⟩, fun hn => h' fun hno => hn hno.2⟩,
      fun hs => h' fun hno => hs hno.1⟩

@[simp] theorem wp_session {Q : Session → Db → Prop} (id : SessionId) (e : ρ) :
    wp (session id e) Q E db ↔
      (∀ s, db.session? id = some s → Q s db) ∧ (db.session? id = none → E e) := by
  unfold session
  rw [wp_bind, wp_read, wp_ofOption]

@[simp] theorem wp_execution {Q : Execution → Db → Prop} (id : ExecutionId) (e : ρ) :
    wp (execution id e) Q E db ↔
      (∀ x, db.execution? id = some x → Q x db) ∧ (db.execution? id = none → E e) := by
  unfold execution
  rw [wp_bind, wp_read, wp_ofOption]

@[simp] theorem wp_agent {Q : Agent → Db → Prop} (id : AgentId) (e : ρ) :
    wp (agent id e) Q E db ↔
      (∀ a, db.agent? id = some a → Q a db) ∧ (db.agent? id = none → E e) := by
  unfold agent
  rw [wp_bind, wp_read, wp_ofOption]

/-! ## One statement, then the rest of a body -/

section Seq

variable {β : Type} {R : β → Db → Prop}

theorem seq_execution {id : ExecutionId} {e : ρ} {f : Execution → DbTx ρ β}
    (h : ∀ x, db.execution? id = some x → wp (f x) R E db) (he : db.execution? id = none → E e) :
    wp (execution id e >>= f) R E db := by
  rw [wp_bind, wp_execution]; exact ⟨h, he⟩

theorem seq_session {id : SessionId} {e : ρ} {f : Session → DbTx ρ β}
    (h : ∀ s, db.session? id = some s → wp (f s) R E db) (he : db.session? id = none → E e) :
    wp (session id e >>= f) R E db := by
  rw [wp_bind, wp_session]; exact ⟨h, he⟩

theorem seq_agent {id : AgentId} {e : ρ} {f : Agent → DbTx ρ β}
    (h : ∀ a, db.agent? id = some a → wp (f a) R E db) (he : db.agent? id = none → E e) :
    wp (agent id e >>= f) R E db := by
  rw [wp_bind, wp_agent]; exact ⟨h, he⟩

/-- The usual pair: an `UPDATE`, and a rollback when it affected no row. -/
theorem seq_updateSession {id : SessionId} {u : SessionUpdate} {e : ρ} {f : Unit → DbTx ρ β}
    (h : ∀ row, db.session? id = some row → u.matches row = true →
      wp (f ()) R E (db.updateSession id u)) (he : db.affects id u = false → E e) :
    wp (updateSession id u >>= fun affected => Tx.require affected e >>= f) R E db := by
  rw [wp_bind, wp_updateSession, wp_bind, wp_require]
  refine ⟨fun ha => ?_, fun ha => he (by simpa using ha)⟩
  obtain ⟨row, hrow, hm⟩ := Db.affects_iff.mp ha
  exact h row hrow hm

end Seq

end DbTx

end AgentBeacon
