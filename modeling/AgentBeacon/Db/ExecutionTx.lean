import AgentBeacon.Services.Execution

/-!
# `Db.ExecutionTx` — event inserts inside an execution transaction

An `ExecutionTx` is scoped to the execution whose row it locked, and remembers the sessions it has checked against
it. Event rows take their execution from the transaction; a session that is not remembered is looked up first.
-/

namespace AgentBeacon
open Relational Transaction

structure ExecutionTx where
  executionId : ExecutionId
  verifiedSessions : List SessionId
  deriving DecidableEq, Repr

namespace ExecutionTx

def sessionVerified (tx : ExecutionTx) (id : SessionId) : Bool := tx.verifiedSessions.contains id

def markSessionVerified (tx : ExecutionTx) (id : SessionId) : ExecutionTx :=
  { tx with verifiedSessions := tx.verifiedSessions.insert id }

/-- An open transaction, and the database as it sees it. -/
structure Open where
  tx : ExecutionTx
  db : Db

end ExecutionTx

open ExecutionTx (Open)

/-- A body that holds an `ExecutionTx`. -/
abbrev InTx (ρ α : Type) := Tx Open ρ α

variable {ρ α : Type}

namespace InTx

/-- `verify_session_owner`. -/
def verifySessionOwner (id : SessionId) (onError : ρ) : InTx ρ Unit := do
  let before ← Tx.read
  Tx.when (before.tx.sessionVerified id = false) do
    Tx.require ((before.db.session? id).map Session.executionId = some before.tx.executionId) onError
    Tx.write fun s => { s with tx := s.tx.markSessionVerified id }

/-- `insert_in_tx`. The statement fails if the session is not there, or the key space is used up. -/
def insertInTx (id : Option SessionId) (eventType : EventType) (payload : Json) (now : Timestamp) (onError : ρ) :
    InTx ρ Nat := do
  Tx.forSome id fun id => verifySessionOwner id onError
  let before ← Tx.read
  Tx.require ((∀ i ∈ id, before.db.session? i ≠ none) ∧ before.db.events.next ≤ maxRowId) onError
  Tx.write fun s => { s with db := s.db.pushEvent s.tx.executionId id eventType payload none now }
  pure before.db.events.next

/-- `insert_with_dedup_in_tx`. -/
def insertWithDedupInTx (id : SessionId) (eventType : EventType) (payload : Json) (msgSeq : Int) (now : Timestamp)
    (onError : ρ) : InTx ρ (Option Nat) := do
  verifySessionOwner id onError
  let before ← Tx.read
  if before.db.events.rows.any fun e => e.sessionId = some id ∧ e.msgSeq = some msgSeq then
    pure none
  else
    Tx.require (before.db.session? id ≠ none ∧ before.db.events.next ≤ maxRowId) onError
    Tx.write fun s => { s with db := s.db.pushEvent s.tx.executionId (some id) eventType payload (some msgSeq) now }
    pure (some before.db.events.next)

end InTx

namespace DbTx

/-- `begin_execution_tx`. -/
def beginExecutionTx (executionId : ExecutionId) (onError : ρ) : DbTx ρ ExecutionTx := do
  let _ ← DbTx.execution executionId onError
  pure ⟨executionId, []⟩

/-- A body inside the transaction; what the transaction remembers is gone when it ends. -/
def inside (tx : ExecutionTx) (body : InTx ρ α) : DbTx ρ α := fun db =>
  match body ⟨tx, db⟩ with
  | .ok (a, s) => .ok (a, s.db)
  | .error e => .error e

/-- `insert_locked`. -/
def insertLocked (executionId : ExecutionId) (id : Option SessionId) (eventType : EventType) (payload : Json)
    (now : Timestamp) (onError : ρ) : DbTx ρ Nat := do
  let tx ← beginExecutionTx executionId onError
  inside tx (InTx.insertInTx id eventType payload now onError)

end DbTx

/-! ## Running a body -/

section Running

variable {σ ε β : Type}

theorem bind_eq (m : Tx σ ε α) (f : α → Tx σ ε β) (s : σ) :
    (m >>= f) s = match m s with
      | .ok (a, s') => f a s'
      | .error e => .error e := by
  show Tx.andThen m f s = _
  unfold Tx.andThen
  rcases m s with e | ⟨a, s'⟩
  · rfl
  · rfl

theorem read_bind (f : σ → Tx σ ε β) (s : σ) : (Tx.read >>= f) s = f s s := rfl

theorem require_bind (c : Prop) [Decidable c] (e : ε) (f : Unit → Tx σ ε β) (s : σ) :
    (Tx.require c e >>= f) s = if c then f () s else .error e := by
  rw [bind_eq]
  unfold Tx.require
  by_cases hc : c
  · rw [if_pos hc, if_pos hc]
    rfl
  · rw [if_neg hc, if_neg hc]
    rfl

end Running

/-! ## The lookup and the memory -/

namespace Db

/-- The session is there, and belongs to the execution. -/
def Belongs (db : Db) (id : SessionId) (executionId : ExecutionId) : Prop :=
  ∃ s ∈ db.session? id, s.executionId = executionId

theorem belongs_iff {db : Db} {id : SessionId} {executionId : ExecutionId} :
    db.Belongs id executionId ↔ (db.session? id).map Session.executionId = some executionId := by
  rw [Option.map_eq_some_iff]
  rfl

theorem Belongs.there {db : Db} {id : SessionId} {executionId : ExecutionId} (h : db.Belongs id executionId) :
    db.session? id ≠ none := by
  obtain ⟨s, hs, -⟩ := h
  rw [Option.mem_def.mp hs]
  exact Option.some_ne_none s

end Db

namespace ExecutionTx

/-- What the transaction remembers is so. -/
def Open.Verified (s : Open) : Prop := ∀ id ∈ s.tx.verifiedSessions, s.db.Belongs id s.tx.executionId

/-- The transaction after a session was checked. -/
def remember (tx : ExecutionTx) (id : SessionId) : ExecutionTx :=
  if tx.sessionVerified id then tx else tx.markSessionVerified id

@[simp] theorem remember_executionId (tx : ExecutionTx) (id : SessionId) :
    (tx.remember id).executionId = tx.executionId := by
  unfold remember
  split <;> rfl

theorem mem_remember {tx : ExecutionTx} {id j : SessionId} (h : j ∈ (tx.remember id).verifiedSessions) :
    j = id ∨ j ∈ tx.verifiedSessions := by
  unfold remember at h
  split at h
  · exact .inr h
  · exact List.mem_insert_iff.mp h

/-- Remembering a session that belongs to the execution. -/
theorem Open.Verified.remember {s : Open} (h : s.Verified) {id : SessionId} {db : Db}
    (hid : s.db.Belongs id s.tx.executionId) (hdb : db.sessions = s.db.sessions) :
    Open.Verified ⟨s.tx.remember id, db⟩ := by
  have hkept : ∀ j, s.db.Belongs j s.tx.executionId → db.Belongs j s.tx.executionId := by
    rintro j ⟨row, hrow, hexecution⟩
    exact ⟨row, by unfold Db.session?; rw [hdb]; exact hrow, hexecution⟩
  intro j hj
  rw [remember_executionId]
  obtain rfl | hold := mem_remember hj
  · exact hkept j hid
  · exact hkept j (h j hold)

end ExecutionTx

namespace InTx

open ExecutionTx

variable {s : Open}

/-- **A session is accepted exactly if it belongs to the execution**, remembered or not. -/
theorem verifySessionOwner_eq (h : s.Verified) (id : SessionId) (onError : ρ) :
    verifySessionOwner id onError s =
      if (s.db.session? id).map Session.executionId = some s.tx.executionId then
        .ok ((), { s with tx := s.tx.remember id })
      else .error onError := by
  unfold verifySessionOwner
  show Tx.when (s.tx.sessionVerified id = false) _ s = _
  unfold Tx.when ExecutionTx.remember
  cases hknown : s.tx.sessionVerified id with
  | true =>
      have hbelongs := h id (List.contains_iff_mem.mp hknown)
      rw [if_neg (by simp), if_pos (Db.belongs_iff.mp hbelongs), if_pos rfl]
      rfl
  | false =>
      rw [if_pos rfl, if_neg (Bool.false_ne_true), require_bind]
      rfl

/-- What a body at an open transaction returns, given what its statement on the database returns. -/
def result (tx : ExecutionTx) : Except ρ (α × Db) → Except ρ (α × Open)
  | .ok (a, db) => .ok (a, ⟨tx, db⟩)
  | .error e => .error e

/-- **The insert checks as if it looked every time.** -/
theorem insertInTx_eq (h : s.Verified) (id : Option SessionId) (eventType : EventType) (payload : Json)
    (now : Timestamp) (onError : ρ) :
    insertInTx id eventType payload now onError s =
      result (id.elim s.tx s.tx.remember)
        (DbTx.insertEvent s.tx.executionId id eventType payload now onError s.db) := by
  unfold insertInTx DbTx.insertEvent
  rw [read_bind, require_bind, require_bind]
  cases id with
  | none =>
      rw [if_pos (by simp)]
      show (Tx.require _ _ >>= _) s = _
      rw [require_bind]
      by_cases hnext : s.db.events.next ≤ maxRowId
      · rw [if_pos ⟨by simp, hnext⟩, if_pos hnext]
        rfl
      · rw [if_neg fun hboth => hnext hboth.2, if_neg hnext]
        rfl
  | some id =>
      rw [show Tx.forSome (some id) (fun id => verifySessionOwner id onError) = verifySessionOwner id onError from rfl,
        bind_eq, verifySessionOwner_eq h]
      by_cases hbelongs : s.db.Belongs id s.tx.executionId
      · rw [if_pos (Db.belongs_iff.mp hbelongs), if_pos fun i hi => Option.mem_some_iff.mp hi ▸ hbelongs]
        dsimp only
        rw [read_bind, require_bind]
        by_cases hnext : s.db.events.next ≤ maxRowId
        · rw [if_pos ⟨by simpa using hbelongs.there, hnext⟩, if_pos hnext]
          rw [← remember_executionId s.tx id]
          rfl
        · rw [if_neg fun hboth => hnext hboth.2, if_neg hnext]
          rfl
      · rw [if_neg (mt Db.belongs_iff.mpr hbelongs), if_neg fun hall => hbelongs (hall id rfl)]
        rfl

/-- The same of the insert that looks for the number. -/
theorem insertWithDedupInTx_eq (h : s.Verified) (id : SessionId) (eventType : EventType) (payload : Json)
    (msgSeq : Int) (now : Timestamp) (onError : ρ) :
    insertWithDedupInTx id eventType payload msgSeq now onError s =
      result (s.tx.remember id)
        (DbTx.insertEventDedup s.tx.executionId id eventType payload msgSeq now onError s.db) := by
  unfold insertWithDedupInTx DbTx.insertEventDedup
  rw [read_bind, require_bind, bind_eq, verifySessionOwner_eq h]
  by_cases hbelongs : s.db.Belongs id s.tx.executionId
  · have hlooked : ∃ row ∈ s.db.session? id, row.executionId = s.tx.executionId := hbelongs
    rw [if_pos (Db.belongs_iff.mp hbelongs), if_pos hlooked]
    dsimp only
    rw [read_bind]
    dsimp only
    split
    · rfl
    · rw [require_bind, require_bind]
      by_cases hnext : s.db.events.next ≤ maxRowId
      · rw [if_pos ⟨hbelongs.there, hnext⟩, if_pos hnext]
        rw [← remember_executionId s.tx id]
        rfl
      · rw [if_neg fun hboth => hnext hboth.2, if_neg hnext]
        rfl
  · have hlooked : ¬∃ row ∈ s.db.session? id, row.executionId = s.tx.executionId := hbelongs
    rw [if_neg (mt Db.belongs_iff.mpr hbelongs), if_neg hlooked]
    rfl

end InTx

/-- `insert_locked` with the lookup made each time. -/
theorem DbTx.insertLocked_eq (executionId : ExecutionId) (id : Option SessionId) (eventType : EventType)
    (payload : Json) (now : Timestamp) (onError : ρ) :
    DbTx.insertLocked executionId id eventType payload now onError = (do
      let _ ← DbTx.execution executionId onError
      DbTx.insertEvent executionId id eventType payload now onError) := by
  funext db
  unfold DbTx.insertLocked DbTx.beginExecutionTx
  rw [bind_eq, bind_eq, bind_eq]
  rcases DbTx.execution executionId onError db with e | ⟨execution, db⟩
  · rfl
  show DbTx.inside ⟨executionId, []⟩ _ db = DbTx.insertEvent executionId id eventType payload now onError db
  unfold DbTx.inside
  rw [InTx.insertInTx_eq fun _ hid => absurd hid List.not_mem_nil]
  rcases DbTx.insertEvent executionId id eventType payload now onError db with e | ⟨n, db⟩
  · rfl
  · rfl

end AgentBeacon
