import AgentBeacon.Db.Frames
import Mathlib.Logic.Relation

/-!
# `Db.Steps` — what a transaction may do to the database

A committed transaction is a sequence of statements. A `Permit` says which statements are allowed,
each judged on the row it meets when it runs; `Steps P` is what a sequence of permitted statements
can do. What every permitted statement keeps, every transaction under the permit keeps.
-/

namespace AgentBeacon
open Relational

/-- The statements a transaction may issue. -/
structure Permit where
  /-- `UPDATE sessions`, on the row under its id. -/
  update : Session → SessionUpdate → Prop
  updateExecution : ExecutionId → ExecutionUpdate → Prop
  /-- `INSERT INTO sessions`. -/
  insert : Session → Prop
  insertExecution : Execution → Prop
  /-- `DELETE FROM sessions`, in the database it runs on. -/
  delete : Db → List SessionId → Prop
  /-- `INSERT INTO task_queue`, given the recipient's row. -/
  enqueue : Session → TaskRow → Prop
  /-- `DELETE FROM task_queue` of one row. -/
  dequeue : TaskRow → Prop
  /-- `DELETE FROM task_queue` of a session's rows, given the session's row. -/
  drain : Session → Prop
  /-- `INSERT INTO events`. -/
  log : EventRow → Prop

namespace Db

/-- One permitted statement. Stopping a session and draining its queue count as one: nothing else
is ever done to a session between the two. -/
inductive Step (P : Permit) (db : Db) : Db → Prop where
  | updateSession {id : SessionId} {u : SessionUpdate}
      (hu : ∀ s, db.session? id = some s → P.update s u) (hstop : ∀ desiredBy, u ≠ .stop desiredBy) :
      Step P db (db.updateSession id u)
  | stopSession {id : SessionId} {desiredBy : DesiredBy}
      (hu : ∀ s, db.session? id = some s → P.update s (.stop desiredBy)) :
      Step P db ((db.updateSession id (.stop desiredBy)).deleteTasks id)
  | updateExecution {id : ExecutionId} {u : ExecutionUpdate} (hu : P.updateExecution id u) :
      Step P db (db.updateExecution id u)
  | insertSession {row : Session} {sessions : Sessions} (ht : db.sessions.insert? row = some sessions)
      (hexec : db.execution? row.executionId ≠ none)
      (hparent : ∀ id ∈ row.parentSessionId, db.session? id ≠ none) (hi : P.insert row) :
      Step P db { db with sessions }
  | insertExecution {row : Execution} {executions : Executions}
      (ht : db.executions.insert? row = some executions) (hi : P.insertExecution row) :
      Step P db { db with executions }
  | deleteSessions {ids : List SessionId} (hd : P.delete db ids) : Step P db (db.deleteSessions ids)
  | pushTask {executionId : ExecutionId} {id : SessionId} {payload : Json}
      {source : Option TaskSource} {now : Timestamp} {s : Session} (hs : db.session? id = some s)
      (hp : P.enqueue s ⟨db.taskQueue.next, executionId, id, payload, now, source⟩) :
      Step P db (db.pushTask executionId id payload source now)
  | deleteTasks {id : SessionId} (hd : ∀ s, db.session? id = some s → P.drain s) :
      Step P db (db.deleteTasks id)
  | deleteTask {id : Nat} (hd : ∀ t ∈ db.taskQueue.rows, t.id = id → P.dequeue t) :
      Step P db (db.deleteTask id)
  | pushEvent {executionId : ExecutionId} {id : Option SessionId} {eventType : EventType}
      {payload : Json} {msgSeq : Option Int} {now : Timestamp}
      (hl : P.log ⟨db.events.next, executionId, id, eventType, payload, msgSeq, now⟩) :
      Step P db (db.pushEvent executionId id eventType payload msgSeq now)
  | agents (agents : Agents) (executionAgents : List (ExecutionId × AgentId)) :
      Step P db { db with agents, executionAgents }

/-- A sequence of permitted statements. -/
abbrev Steps (P : Permit) : Db → Db → Prop := Relation.ReflTransGen (Step P)

namespace Steps

variable {P : Permit} {db db' : Db}

/-- **What every permitted statement keeps, the transaction keeps.** -/
theorem keeps {I : Db → Prop} (h : Steps P db db') (hI : I db)
    (hstep : ∀ db db', Step P db db' → I db → I db') : I db' := by
  induction h with
  | refl => exact hI
  | tail _ hs ih => exact hstep _ _ hs ih

end Steps

/-! ## One row through a transaction -/

/-- What a sequence of permitted updates can make of a row. -/
abbrev RowSteps (P : Permit) : Session → Session → Prop :=
  Relation.ReflTransGen fun s s' => ∃ u, P.update s u ∧ s' = u.apply s

theorem RowSteps.keeps {P : Permit} {I : Session → Prop} {s s' : Session} (h : RowSteps P s s')
    (hI : I s) (hstep : ∀ s u, P.update s u → I s → I (u.apply s)) : I s' := by
  induction h with
  | refl => exact hI
  | tail _ hu ih =>
      obtain ⟨u, hu, rfl⟩ := hu
      exact hstep _ u hu ih

/-- No sequence of updates changes a row's identity. -/
theorem RowSteps.identity {P : Permit} {s s' : Session} (h : RowSteps P s s') :
    s'.id = s.id ∧ s'.executionId = s.executionId ∧ s'.parentSessionId = s.parentSessionId ∧
      s'.agentId = s.agentId :=
  h.keeps (I := fun t => t.id = s.id ∧ t.executionId = s.executionId ∧
      t.parentSessionId = s.parentSessionId ∧ t.agentId = s.agentId) ⟨rfl, rfl, rfl, rfl⟩
    fun t u _ ht => by
      obtain ⟨hid, hexec, hparent, hagent⟩ := u.apply_identity t
      exact ⟨hid.trans ht.1, hexec.trans ht.2.1, hparent.trans ht.2.2.1, hagent.trans ht.2.2.2⟩

/-- Where a row of a later database comes from: it was there and was updated, or it was inserted. -/
def Descends (P : Permit) (db : Db) (s' : Session) : Prop :=
  (∃ s, db.session? s'.id = some s ∧ RowSteps P s s') ∨ ∃ row, P.insert row ∧ RowSteps P row s'

theorem Descends.update {P : Permit} {db : Db} {s : Session} {u : SessionUpdate}
    (h : Descends P db s) (hu : P.update s u) : Descends P db (u.apply s) := by
  have hid : (u.apply s).id = s.id := (u.apply_identity s).1
  rcases h with ⟨s₀, hs₀, hr⟩ | ⟨row, hrow, hr⟩
  · exact .inl ⟨s₀, by rw [hid]; exact hs₀, hr.tail ⟨u, hu, rfl⟩⟩
  · exact .inr ⟨row, hrow, hr.tail ⟨u, hu, rfl⟩⟩

/-- The rows after one update come from rows before it. -/
theorem session?_of_updateSession {P : Permit} {db : Db} {id j : SessionId} {u : SessionUpdate}
    {s' : Session} (hu : ∀ s, db.session? id = some s → P.update s u)
    (h : (db.updateSession id u).session? j = some s') :
    ∃ s, db.session? j = some s ∧ (s' = s ∨ P.update s u ∧ s' = u.apply s) := by
  rw [session?_updateSession] at h
  by_cases hj : j = id
  · subst hj
    rw [if_pos rfl, Option.map_eq_some_iff] at h
    obtain ⟨s, hs, rfl⟩ := h
    exact ⟨s, hs, .inr ⟨hu s hs, rfl⟩⟩
  · rw [if_neg hj] at h
    exact ⟨s', h, .inl rfl⟩

/-- **Every row after a transaction descends from a row before it or from an insert.** -/
theorem Steps.descends {P : Permit} {db db' : Db} (h : Steps P db db') {s' : Session}
    (hs' : s' ∈ db'.sessions.rows) : Descends P db s' := by
  suffices hall : ∀ j t, db'.session? j = some t → Descends P db t from
    hall _ _ (session?_of_mem hs')
  clear hs' s'
  induction h with
  | refl =>
      intro j t ht
      exact .inl ⟨t, by rw [id_of_session? ht]; exact ht, .refl⟩
  | @tail db₁ db₂ _ hstep ih =>
      have hupdated : ∀ {id u}, (∀ s, db₁.session? id = some s → P.update s u) →
          ∀ j t, (db₁.updateSession id u).session? j = some t → Descends P db t := by
        intro id u hu j t ht
        obtain ⟨s, hs, rfl | ⟨hus, rfl⟩⟩ := session?_of_updateSession hu ht
        · exact ih j t hs
        · exact (ih j s hs).update hus
      cases hstep with
      | updateSession hu _ => exact hupdated hu
      | stopSession hu => exact hupdated hu
      | @insertSession row sessions ht _ _ hi =>
          intro j t hjt
          have hfind : sessions.find? j = some t := hjt
          rw [Table.find?_insert? ht] at hfind
          by_cases hj : j = row.id
          · rw [if_pos hj] at hfind
            obtain rfl := Option.some.inj hfind
            exact .inr ⟨row, hi, .refl⟩
          · rw [if_neg hj] at hfind
            exact ih j t hfind
      | @deleteSessions ids hd =>
          intro j t ht
          rw [session?_deleteSessions] at ht
          by_cases hj : j ∈ ids
          · rw [if_pos hj] at ht; cases ht
          · rw [if_neg hj] at ht; exact ih j t ht
      | updateExecution hu => exact ih
      | insertExecution ht hi => exact ih
      | pushTask hs hp => exact ih
      | deleteTasks hd => exact ih
      | deleteTask hd => exact ih
      | pushEvent hl => exact ih
      | agents a b => exact ih

theorem Step.descends {P : Permit} {db db' : Db} (h : Step P db db') {s' : Session}
    (hs' : s' ∈ db'.sessions.rows) : Descends P db s' := Steps.descends (.single h) hs'

/-- **A row stays unless it is deleted.** -/
theorem Steps.session_stays {P : Permit} {db db' : Db} (h : Steps P db db')
    (hno : ∀ db ids, ¬ P.delete db ids) {id : SessionId} {s : Session}
    (hs : db.session? id = some s) : ∃ s', db'.session? id = some s' ∧ RowSteps P s s' := by
  induction h with
  | refl => exact ⟨s, hs, .refl⟩
  | @tail db₁ db₂ _ hstep ih =>
      obtain ⟨t, ht, hr⟩ := ih
      have hupdated : ∀ {i u}, (∀ s, db₁.session? i = some s → P.update s u) →
          ∃ t', (db₁.updateSession i u).session? id = some t' ∧ RowSteps P s t' := by
        intro i u hu
        by_cases hi : id = i
        · subst hi
          refine ⟨u.apply t, ?_, hr.tail ⟨u, hu t ht, rfl⟩⟩
          rw [session?_updateSession, if_pos rfl, ht]; rfl
        · exact ⟨t, by rw [session?_updateSession_of_ne _ u hi]; exact ht, hr⟩
      cases hstep with
      | updateSession hu _ => exact hupdated hu
      | stopSession hu => exact hupdated hu
      | @insertSession row sessions hins _ _ hi =>
          refine ⟨t, ?_, hr⟩
          show sessions.find? id = some t
          rw [Table.find?_insert? hins, if_neg]
          · exact ht
          · rintro rfl
            have := (Table.insert?_eq_some hins).1
            rw [show db₁.sessions.find? row.id = db₁.session? row.id from rfl, ht] at this
            cases this
      | deleteSessions hd => exact absurd hd (hno _ _)
      | updateExecution hu => exact ⟨t, ht, hr⟩
      | insertExecution ht' hi => exact ⟨t, ht, hr⟩
      | pushTask hs hp => exact ⟨t, ht, hr⟩
      | deleteTasks hd => exact ⟨t, ht, hr⟩
      | deleteTask hd => exact ⟨t, ht, hr⟩
      | pushEvent hl => exact ⟨t, ht, hr⟩
      | agents a b => exact ⟨t, ht, hr⟩

/-! ## The log through a transaction -/

/-- **The log only grows**: what a transaction adds comes after everything logged before, and the
permit allows it. -/
theorem Steps.logged {P : Permit} {db db' : Db} (h : Steps P db db') :
    db.events.next ≤ db'.events.next ∧ ∀ row ∈ db'.events.rows,
      row ∈ db.events.rows ∨ db.events.next ≤ row.id ∧ P.log row := by
  induction h with
  | refl => exact ⟨Nat.le_refl _, fun row hrow => .inl hrow⟩
  | @tail db₁ db₂ _ hstep ih =>
      cases hstep with
      | @pushEvent executionId id eventType payload msgSeq now hl =>
          refine ⟨Nat.le_succ_of_le ih.1, fun row hrow => ?_⟩
          rcases List.mem_append.mp hrow with hold | hnew
          · exact ih.2 row hold
          · rw [List.mem_singleton.mp hnew]
            exact .inr ⟨ih.1, hl⟩
      | deleteSessions hd => exact ⟨ih.1, fun row hrow => ih.2 row (List.mem_filter.mp hrow).1⟩
      | _ => exact ih

/-- **An event stays unless sessions are deleted.** -/
theorem Steps.event_stays {P : Permit} {db db' : Db} (h : Steps P db db')
    (hno : ∀ db ids, ¬ P.delete db ids) {row : EventRow} (hrow : row ∈ db.events.rows) :
    row ∈ db'.events.rows := by
  induction h with
  | refl => exact hrow
  | tail _ hstep ih =>
      cases hstep with
      | pushEvent hl => exact List.mem_append_left _ ih
      | deleteSessions hd => exact absurd hd (hno _ _)
      | _ => exact ih

/-! ## Executions -/

/-- An execution stays. -/
theorem Step.execution_stays {P : Permit} {db db' : Db} (h : Step P db db') {id : ExecutionId}
    (hx : db.execution? id ≠ none) : db'.execution? id ≠ none := by
  cases h with
  | @updateExecution i u hu =>
      rw [execution?_updateExecution]
      by_cases hi : id = i
      · subst hi
        rw [if_pos rfl]
        cases hrow : db.execution? id with
        | none => exact absurd hrow hx
        | some x => exact Option.some_ne_none _
      · rw [if_neg hi]; exact hx
  | @insertExecution row executions ht hi =>
      show executions.find? id ≠ none
      rw [Table.find?_insert? ht]
      split
      · exact Option.some_ne_none _
      · exact hx
  | _ => exact hx

/-- Every session belongs to an execution. -/
def HasExecutions (db : Db) : Prop :=
  ∀ s ∈ db.sessions.rows, db.execution? s.executionId ≠ none

theorem Step.hasExecutions {P : Permit} {db db' : Db} (h : Step P db db') (hdb : HasExecutions db) :
    HasExecutions db' := by
  intro s' hs'
  refine h.execution_stays ?_
  have hfind := session?_of_mem hs'
  have hupdated : ∀ {id u}, (db.updateSession id u).session? s'.id = some s' →
      db.execution? s'.executionId ≠ none := by
    intro id u hu
    obtain ⟨s, hs, rfl | ⟨-, hrow⟩⟩ :=
      session?_of_updateSession (P := { P with update := fun _ _ => True }) (fun _ _ => trivial) hu
    · exact hdb s' (mem_of_session? hs)
    · rw [hrow, (u.apply_identity s).2.1]
      exact hdb s (mem_of_session? hs)
  cases h with
  | updateSession hu _ => exact hupdated hfind
  | stopSession hu => exact hupdated hfind
  | @insertSession row sessions ht hexec _ hi =>
      have hrow : sessions.find? s'.id = some s' := hfind
      rw [Table.find?_insert? ht] at hrow
      split at hrow
      · obtain rfl := Option.some.inj hrow
        exact hexec
      · exact hdb s' (mem_of_session? hrow)
  | @deleteSessions ids hd =>
      rw [session?_deleteSessions] at hfind
      split at hfind
      · cases hfind
      · exact hdb s' (mem_of_session? hfind)
  | updateExecution hu => exact hdb s' hs'
  | insertExecution ht hi => exact hdb s' hs'
  | pushTask hs hp => exact hdb s' hs'
  | deleteTasks hd => exact hdb s' hs'
  | deleteTask hd => exact hdb s' hs'
  | pushEvent hl => exact hdb s' hs'
  | agents a b => exact hdb s' hs'

end Db

/-- The limits of an execution: its depth and its width. -/
def Execution.limits (x : Execution) : Int × Int := (x.maxDepth, x.maxWidth)

theorem ExecutionUpdate.apply_keeps (u : ExecutionUpdate) (x : Execution) :
    (u.apply x).limits = x.limits ∧ (u.apply x).title = x.title := by
  unfold ExecutionUpdate.apply
  split
  · cases u <;> exact ⟨rfl, rfl⟩
  · exact ⟨rfl, rfl⟩

/-- **An execution stays, and its limits and its title with it.** -/
theorem Db.Steps.execution_stays {P : Permit} {db db' : Db} (h : Db.Steps P db db')
    {id : ExecutionId} {x : Execution} (hx : db.execution? id = some x) :
    ∃ x', db'.execution? id = some x' ∧ x'.limits = x.limits ∧ x'.title = x.title := by
  induction h with
  | refl => exact ⟨x, hx, rfl, rfl⟩
  | @tail db₁ db₂ _ hstep ih =>
      obtain ⟨x₁, hx₁, hkeeps⟩ := ih
      cases hstep with
      | @updateExecution i u _ =>
          by_cases hi : id = i
          · subst hi
            obtain ⟨hlimits, htitle⟩ := u.apply_keeps x₁
            refine ⟨u.apply x₁, ?_, hlimits.trans hkeeps.1, htitle.trans hkeeps.2⟩
            rw [execution?_updateExecution, if_pos rfl, hx₁]
            rfl
          · refine ⟨x₁, ?_, hkeeps⟩
            rw [execution?_updateExecution, if_neg hi]
            exact hx₁
      | @insertExecution row executions ht _ =>
          refine ⟨x₁, ?_, hkeeps⟩
          show executions.find? id = some x₁
          rw [Table.find?_insert? ht, if_neg]
          · exact hx₁
          · rintro rfl
            have hfree : db₁.execution? row.id = none := (Table.insert?_eq_some ht).1
            rw [hx₁] at hfree
            cases hfree
      | _ => exact ⟨x₁, hx₁, hkeeps⟩

end AgentBeacon
