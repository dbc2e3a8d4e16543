import AgentBeacon.Db.Steps

/-!
# `Db.Within` — transaction bodies that stay within a permit

`Within P m Q db`: run from `db`, the body `m` issues only statements `P` permits, and what it
returns and leaves satisfies `Q`. One rule for each statement followed by the rest of a body; at a
conditional statement the rest is asked for whatever the condition left.
-/

namespace AgentBeacon
open Relational Transaction Tx

variable {ρ α β : Type} {P : Permit} {db : Db}

/-- `m` stays within `P` and establishes `Q`. -/
def Within (P : Permit) (m : DbTx ρ α) (Q : α → Db → Prop) (db : Db) : Prop :=
  wp m (fun a db' => Db.Steps P db db' ∧ Q a db') (fun _ => True) db

namespace Within

theorem pure {a : α} {Q : α → Db → Prop} (h : Q a db) : Within P (pure a : DbTx ρ α) Q db :=
  ⟨.refl, h⟩

theorem rollback {e : ρ} {Q : α → Db → Prop} : Within P (Tx.rollback e : DbTx ρ α) Q db := trivial

theorem mono {m : DbTx ρ α} {Q Q' : α → Db → Prop} (h : Within P m Q db)
    (hQ : ∀ a db', Db.Steps P db db' → Q a db' → Q' a db') : Within P m Q' db :=
  wp_mono h (fun a db' h => ⟨h.1, hQ a db' h.1 h.2⟩) fun _ h => h

/-- **Sequencing.** -/
theorem bind {m : DbTx ρ α} {f : α → DbTx ρ β} {Q : α → Db → Prop} {R : β → Db → Prop}
    (h : Within P m Q db)
    (hf : ∀ a db', Db.Steps P db db' → Q a db' → Within P (f a) R db') :
    Within P (m >>= f) R db := by
  unfold Within
  rw [wp_bind]
  refine wp_mono h (fun a db' hQ => ?_) fun _ h => h
  exact wp_mono (hf a db' hQ.1 hQ.2) (fun b db'' hR => ⟨hQ.1.trans hR.1, hR.2⟩) fun _ h => h

/-! ## Reading and deciding -/

variable {R : β → Db → Prop}

theorem read {f : Db → DbTx ρ β} (h : Within P (f db) R db) : Within P (Tx.read >>= f) R db := by
  unfold Within
  rw [wp_bind, wp_read]
  exact h

theorem execution {id : ExecutionId} {e : ρ} {f : Execution → DbTx ρ β}
    (h : ∀ x, db.execution? id = some x → Within P (f x) R db) :
    Within P (DbTx.execution id e >>= f) R db := by
  unfold Within
  rw [wp_bind, DbTx.wp_execution]
  exact ⟨h, fun _ => trivial⟩

theorem session {id : SessionId} {e : ρ} {f : Session → DbTx ρ β}
    (h : ∀ s, db.session? id = some s → Within P (f s) R db) :
    Within P (DbTx.session id e >>= f) R db := by
  unfold Within
  rw [wp_bind, DbTx.wp_session]
  exact ⟨h, fun _ => trivial⟩

theorem agent {id : AgentId} {e : ρ} {f : Agent → DbTx ρ β}
    (h : ∀ a, db.agent? id = some a → Within P (f a) R db) :
    Within P (DbTx.agent id e >>= f) R db := by
  unfold Within
  rw [wp_bind, DbTx.wp_agent]
  exact ⟨h, fun _ => trivial⟩

theorem require {c : Prop} [Decidable c] {e : ρ} {f : Unit → DbTx ρ β}
    (h : c → Within P (f ()) R db) : Within P (Tx.require c e >>= f) R db := by
  unfold Within
  rw [wp_bind, wp_require]
  exact ⟨h, fun _ => trivial⟩

theorem ofOption {o : Option α} {e : ρ} {f : α → DbTx ρ β}
    (h : ∀ a, o = some a → Within P (f a) R db) : Within P (Tx.ofOption o e >>= f) R db := by
  unfold Within
  rw [wp_bind, wp_ofOption]
  exact ⟨h, fun _ => trivial⟩

theorem require_last {c : Prop} [Decidable c] {e : ρ} :
    Within P (Tx.require c e) (fun _ _ => True) db := by
  unfold Within
  rw [wp_require]
  exact ⟨fun _ => ⟨.refl, trivial⟩, fun _ => trivial⟩

/-! ## Conditional statements -/

/-- A conditional statement whose effect the rest of the body does not rely on. -/
theorem when {c : Prop} [Decidable c] {m : DbTx ρ Unit} {f : Unit → DbTx ρ β}
    (hm : c → Within P m (fun _ _ => True) db)
    (hf : ∀ db', Db.Steps P db db' → Within P (f ()) R db') :
    Within P (Tx.when c m >>= f) R db := by
  refine bind (Q := fun _ _ => True) ?_ fun _ db' hs _ => hf db' hs
  unfold Tx.when
  split
  · rename_i hc; exact hm hc
  · exact pure trivial

theorem forSome {o : Option α} {m : α → DbTx ρ Unit} {f : Unit → DbTx ρ β}
    (hm : ∀ a, o = some a → Within P (m a) (fun _ _ => True) db)
    (hf : ∀ db', Db.Steps P db db' → Within P (f ()) R db') :
    Within P (Tx.forSome o m >>= f) R db := by
  refine bind (Q := fun _ _ => True) ?_ fun _ db' hs _ => hf db' hs
  cases o with
  | none => exact pure trivial
  | some a => exact hm a rfl

/-- The same as the last statement of a body. -/
theorem when_last {c : Prop} [Decidable c] {m : DbTx ρ Unit}
    (hm : c → Within P m (fun _ _ => True) db) :
    Within P (Tx.when c m) (fun _ _ => True) db := by
  unfold Tx.when
  split
  · rename_i hc; exact hm hc
  · exact pure trivial

theorem forSome_last {o : Option α} {m : α → DbTx ρ Unit}
    (hm : ∀ a, o = some a → Within P (m a) (fun _ _ => True) db) :
    Within P (Tx.forSome o m) (fun _ _ => True) db := by
  cases o with
  | none => exact pure trivial
  | some a => exact hm a rfl

theorem forM {l : List α} {f : α → DbTx ρ Unit}
    (h : ∀ a ∈ l, ∀ db, Within P (f a) (fun _ _ => True) db) :
    Within P (l.forM f) (fun _ _ => True) db := by
  induction l generalizing db with
  | nil => exact pure trivial
  | cons a l ih =>
      show Within P (f a >>= fun _ => l.forM f) _ db
      exact bind (h a (by simp) db) fun _ db' _ _ => ih fun b hb => h b (by simp [hb])

/-! ## Writing -/

/-- One permitted statement, and the rest of the body from what it left. -/
theorem step {db' : Db} {m : DbTx ρ α} {a : α} (hm : m db = .ok (a, db')) (hs : Db.Step P db db')
    {f : α → DbTx ρ β} (h : Within P (f a) R db') : Within P (m >>= f) R db := by
  refine bind (Q := fun b db₂ => b = a ∧ db₂ = db') ?_ ?_
  · unfold Within wp
    rw [hm]
    exact ⟨.single hs, rfl, rfl⟩
  · rintro _ _ _ ⟨rfl, rfl⟩
    exact h

theorem updateSession {id : SessionId} {u : SessionUpdate} {f : Bool → DbTx ρ β}
    (hstop : ∀ desiredBy, u ≠ .stop desiredBy)
    (hu : ∀ s, db.session? id = some s → P.update s u)
    (h : Within P (f (db.affects id u)) R (db.updateSession id u)) :
    Within P (DbTx.updateSession id u >>= f) R db :=
  step rfl (.updateSession hu hstop) h

theorem updateExecution {id : ExecutionId} {u : ExecutionUpdate} {f : Bool → DbTx ρ β}
    (hu : P.updateExecution id u)
    (h : Within P (f ((db.execution? id).any u.matches)) R (db.updateExecution id u)) :
    Within P (DbTx.updateExecution id u >>= f) R db :=
  step rfl (.updateExecution hu) h

theorem deleteTasks {id : SessionId} {f : Unit → DbTx ρ β}
    (hd : ∀ s, db.session? id = some s → P.drain s) (h : Within P (f ()) R (db.deleteTasks id)) :
    Within P (Tx.write (fun db => db.deleteTasks id) >>= f) R db :=
  step rfl (.deleteTasks hd) h

theorem deleteTask {id : Nat} {f : Unit → DbTx ρ β}
    (hd : ∀ t ∈ db.taskQueue.rows, t.id = id → P.dequeue t)
    (h : Within P (f ()) R (db.deleteTask id)) :
    Within P (Tx.write (fun db => db.deleteTask id) >>= f) R db :=
  step rfl (.deleteTask hd) h

theorem deleteTask_last {id : Nat} (hd : ∀ t ∈ db.taskQueue.rows, t.id = id → P.dequeue t) :
    Within P (Tx.write fun db => db.deleteTask id : DbTx ρ Unit) (fun _ _ => True) db :=
  ⟨.single (.deleteTask hd), trivial⟩

/-- The statement that stops a session, and the one that drains its queue if there was a session to
stop. -/
theorem stopSession {id : SessionId} {desiredBy : DesiredBy} {e : ρ} {rest : DbTx ρ β}
    (hu : ∀ s, db.session? id = some s → P.update s (.stop desiredBy))
    (h : Within P rest R ((db.updateSession id (.stop desiredBy)).deleteTasks id)) :
    Within P (do
      let affected ← DbTx.updateSession id (.stop desiredBy)
      Tx.require affected e
      Tx.write fun db => db.deleteTasks id
      rest) R db := by
  unfold Within
  simp only [wp_bind, DbTx.wp_updateSession, wp_require, wp_write]
  refine ⟨fun _ => ?_, fun _ => trivial⟩
  exact wp_mono h (fun b db' hR => ⟨.head (.stopSession hu) hR.1, hR.2⟩) fun _ h => h

theorem insertTask {executionId : ExecutionId} {id : SessionId} {payload : Json}
    {source : Option TaskSource} {now : Timestamp} {e : ρ} {f : Unit → DbTx ρ β}
    (hp : ∀ s, db.session? id = some s →
      P.enqueue s ⟨db.taskQueue.next, executionId, id, payload, now, source⟩)
    (h : Within P (f ()) R (db.pushTask executionId id payload source now)) :
    Within P (DbTx.insertTask executionId id payload source now e >>= f) R db := by
  unfold Within
  rw [wp_bind, DbTx.wp_insertTask]
  refine ⟨fun ⟨_, hid, _⟩ => ?_, fun _ => trivial⟩
  obtain ⟨s, hs⟩ := Option.ne_none_iff_exists'.mp hid
  refine wp_mono h (fun b db' hR => ⟨?_, hR.2⟩) fun _ h => h
  exact .head (.pushTask hs (hp s hs)) hR.1

theorem insertTask_last {executionId : ExecutionId} {id : SessionId} {payload : Json}
    {source : Option TaskSource} {now : Timestamp} {e : ρ}
    (hp : ∀ s, db.session? id = some s →
      P.enqueue s ⟨db.taskQueue.next, executionId, id, payload, now, source⟩) :
    Within P (DbTx.insertTask executionId id payload source now e) (fun _ _ => True) db := by
  unfold Within
  rw [DbTx.wp_insertTask]
  refine ⟨fun ⟨_, hid, _⟩ => ?_, fun _ => trivial⟩
  obtain ⟨s, hs⟩ := Option.ne_none_iff_exists'.mp hid
  exact ⟨.single (.pushTask hs (hp s hs)), trivial⟩

theorem insertEvent {executionId : ExecutionId} {id : Option SessionId} {eventType : EventType}
    {payload : Json} {now : Timestamp} {e : ρ} {f : Nat → DbTx ρ β}
    (hl : P.log ⟨db.events.next, executionId, id, eventType, payload, none, now⟩)
    (h : Within P (f db.events.next) R (db.pushEvent executionId id eventType payload none now)) :
    Within P (DbTx.insertEvent executionId id eventType payload now e >>= f) R db := by
  unfold Within
  rw [wp_bind, DbTx.wp_insertEvent]
  refine ⟨fun _ => ?_, fun _ => trivial⟩
  exact wp_mono h (fun b db' hR => ⟨.head (.pushEvent hl) hR.1, hR.2⟩) fun _ h => h

theorem insertEventDedup {executionId : ExecutionId} {id : SessionId} {eventType : EventType}
    {payload : Json} {msgSeq : Int} {now : Timestamp} {e : ρ} {f : Option Nat → DbTx ρ β}
    (hl : P.log ⟨db.events.next, executionId, some id, eventType, payload, some msgSeq, now⟩)
    (h : ∀ a db', Db.Steps P db db' → Within P (f a) R db') :
    Within P (DbTx.insertEventDedup executionId id eventType payload msgSeq now e >>= f) R db := by
  refine bind (Q := fun _ _ => True) ?_ fun a db' hs _ => h a db' hs
  unfold DbTx.insertEventDedup
  refine read (require fun _ => ?_)
  split
  · exact pure trivial
  · refine require fun _ => ?_
    exact step rfl (.pushEvent hl) (pure trivial)

theorem insertSession {row : Session} {e e' : ρ} {f : Unit → DbTx ρ β} (hi : P.insert row)
    (h : ∀ sessions, db.sessions.insert? row = some sessions →
      Within P (f ()) R { db with sessions }) :
    Within P (DbTx.insertSession row e e' >>= f) R db := by
  refine bind (Q := fun _ db' => ∃ sessions, db.sessions.insert? row = some sessions ∧
    db' = { db with sessions }) ?_ ?_
  · unfold DbTx.insertSession
    refine read (require fun hfk => require fun _ => ofOption fun sessions hins => ?_)
    unfold Within
    rw [wp_write]
    exact ⟨.single (.insertSession hins hfk.1 hfk.2.2.1 hi), sessions, hins, rfl⟩
  · rintro _ _ _ ⟨sessions, hins, rfl⟩
    exact h sessions hins

end Within

end AgentBeacon
