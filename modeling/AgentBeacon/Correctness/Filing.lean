import AgentBeacon.Db.Backfill
import AgentBeacon.Db.Frames
import Mathlib.Data.List.Nodup

/-!
# `Correctness.Filing` — events are filed under the right execution

Rows enter `events` through `insert_in_tx`, `insert_with_dedup_in_tx`, `insert_locked` and the backfill. In a life of
the database made of these, of any other statements, of commits and of rollbacks, every row that was not there at the
start has the execution of its session, and what a transaction remembers of a session holds of its execution alone.
-/

namespace AgentBeacon
open Relational ExecutionTx

/-! ## The life of a database -/

/-- A statement that is no insert into `events`; none of them changes the execution of a session. -/
inductive OtherStatement where
  | updateSession (id : SessionId) (u : SessionUpdate)
  | updateExecution (id : ExecutionId) (u : ExecutionUpdate)
  | insertSession (row : Session)
  | insertExecution (row : Execution)
  | insertTask (executionId : ExecutionId) (id : SessionId) (payload : Json) (source : Option TaskSource)
      (now : Timestamp)
  | deleteTasks (id : SessionId)
  | deleteTask (id : Nat)
  | putAgents (agents : Agents) (executionAgents : List (ExecutionId × AgentId))

/-- The database after a statement; one that fails changes nothing. -/
def OtherStatement.exec (db : Db) : OtherStatement → Db
  | updateSession id u => db.updateSession id u
  | updateExecution id u => db.updateExecution id u
  | insertSession row =>
      match DbTx.insertSession row () () db with
      | .ok (_, db) => db
      | .error _ => db
  | insertExecution row =>
      match db.executions.insert? row with
      | some executions => { db with executions }
      | none => db
  | insertTask executionId id payload source now =>
      match DbTx.insertTask executionId id payload source now () db with
      | .ok (_, db) => db
      | .error _ => db
  | deleteTasks id => db.deleteTasks id
  | deleteTask id => db.deleteTask id
  | putAgents agents executionAgents => { db with agents, executionAgents }

/-- The sessions that a statement makes up. -/
def OtherStatement.draws : OtherStatement → List (SessionId × ExecutionId)
  | insertSession row => [(row.id, row.executionId)]
  | _ => []

inductive TxAction where
  | begin (executionId : ExecutionId)
  | insertInTx (id : Option SessionId) (eventType : EventType) (payload : Json) (now : Timestamp)
  | insertWithDedupInTx (id : SessionId) (eventType : EventType) (payload : Json) (msgSeq : Int) (now : Timestamp)
  | statement (s : OtherStatement)
  | commit
  | rollback
  | insertLocked (executionId : ExecutionId) (id : Option SessionId) (eventType : EventType) (payload : Json)
      (now : Timestamp)
  | deleteSessions (ids : List SessionId)
  | backfill (setting : Backfill.Setting) (now : Timestamp)

/-- The database as committed, the open transaction, and the sessions that were ever made up, with the executions
they were made up for. -/
structure Lifetime where
  db : Db
  drawn : List (SessionId × ExecutionId)
  transaction : Option Open

namespace Lifetime

def ofDb (db : Db) : Lifetime := ⟨db, db.sessions.rows.map fun s => (s.id, s.executionId), none⟩

/-- What a body leaves: one that fails leaves the transaction as it was. -/
def inTx {α : Type} (life : Lifetime) (body : InTx Unit α) : Lifetime :=
  match life.transaction with
  | none => life
  | some s =>
      match body s with
      | .ok (_, s) => { life with transaction := some s }
      | .error _ => life

/-- What a transaction of its own leaves. -/
def alone {α : Type} (life : Lifetime) (body : Db → Option (α × Db)) : Lifetime :=
  match life.transaction, body life.db with
  | none, some (_, db) => { life with db }
  | _, _ => life

/-- A statement, in the open transaction or by itself. A session's id is never made up twice. -/
def statement (life : Lifetime) (s : OtherStatement) : Lifetime :=
  if ∀ session ∈ s.draws, session.1 ∉ life.drawn.map Prod.fst then
    match life.transaction with
    | none => { life with db := s.exec life.db, drawn := life.drawn ++ s.draws }
    | some at_ =>
        { life with transaction := some { at_ with db := s.exec at_.db }, drawn := life.drawn ++ s.draws }
  else life

def step (life : Lifetime) : TxAction → Lifetime
  | .begin executionId =>
      match life.transaction, DbTx.beginExecutionTx executionId () life.db with
      | none, .ok (tx, db) => { life with transaction := some ⟨tx, db⟩ }
      | _, _ => life
  | .insertInTx id eventType payload now => life.inTx (InTx.insertInTx id eventType payload now ())
  | .insertWithDedupInTx id eventType payload msgSeq now =>
      life.inTx (InTx.insertWithDedupInTx id eventType payload msgSeq now ())
  | .statement s => life.statement s
  | .commit =>
      match life.transaction with
      | some s => { life with db := s.db, transaction := none }
      | none => life
  | .rollback => { life with transaction := none }
  | .insertLocked executionId id eventType payload now =>
      life.alone fun db => (DbTx.insertLocked executionId id eventType payload now () db).toOption
  | .deleteSessions ids => life.alone fun db => some ((), db.deleteSessions ids)
  | .backfill setting now =>
      life.alone fun db => (Backfill.runBackfill0024 setting now db).toOption.map Prod.swap

def run (start : Db) (actions : List TxAction) : Lifetime := actions.foldl step (ofDb start)

end Lifetime

/-! ## What an insert leaves -/

/-- The session of a row belongs to the execution of the row. -/
def Db.Owns (db : Db) (row : EventRow) : Prop := ∀ id ∈ row.sessionId, db.Belongs id row.executionId

/-- Every row that was not there at the start is filed right. -/
def Db.FiledSince (start db : Db) : Prop := ∀ row ∈ db.events.rows, row ∈ start.events.rows ∨ db.Owns row

/-- The sessions stay as they are, and new rows are filed right. -/
structure Db.Logs (db db' : Db) : Prop where
  sessions : db'.sessions = db.sessions
  rows : ∀ row ∈ db'.events.rows, row ∈ db.events.rows ∨ db.Owns row

namespace Db

variable {start db db' db'' : Db} {executionId : ExecutionId} {type : EventType} {payload : Json} {now : Timestamp}

theorem Logs.refl : Logs db db := ⟨rfl, fun _ => .inl⟩

theorem Logs.belongs (h : Logs db db') {id : SessionId} : db'.Belongs id executionId ↔ db.Belongs id executionId := by
  unfold Belongs session?
  rw [h.sessions]

theorem Logs.owns (h : Logs db db') {row : EventRow} : db'.Owns row ↔ db.Owns row :=
  forall_congr' fun _ => imp_congr_right fun _ => h.belongs

theorem Logs.trans (h : Logs db db') (h' : Logs db' db'') : Logs db db'' where
  sessions := h'.sessions.trans h.sessions
  rows row hrow := by
    obtain hold | hnew := h'.rows row hrow
    · exact h.rows row hold
    · exact .inr (h.owns.mp hnew)

theorem FiledSince.logs (hfiled : FiledSince start db) (h : Logs db db') : FiledSince start db' := by
  intro row hrow
  obtain hold | hnew := h.rows row hrow
  · exact (hfiled row hold).imp_right h.owns.mpr
  · exact .inr (h.owns.mpr hnew)

theorem Logs.pushEvent {id : Option SessionId} {seq : Option Int} (h : ∀ i ∈ id, db.Belongs i executionId) :
    Logs db (db.pushEvent executionId id type payload seq now) where
  sessions := rfl
  rows row hrow := by
    obtain hold | hnew := List.mem_append.mp hrow
    · exact .inl hold
    · rw [List.mem_singleton.mp hnew]
      exact .inr h

theorem Logs.insertEvent {id : Option SessionId} {n : Nat}
    (h : DbTx.insertEvent executionId id type payload now () db = .ok (n, db')) : Logs db db' := by
  unfold DbTx.insertEvent at h
  rw [read_bind, require_bind] at h
  split at h
  · rename_i hbelongs
    rw [require_bind] at h
    split at h
    · obtain ⟨-, rfl⟩ := Prod.mk.inj (Except.ok.inj h)
      exact .pushEvent hbelongs
    · cases h
  · cases h

theorem Logs.insertEventDedup {id : SessionId} {seq : Int} {n : Option Nat}
    (h : DbTx.insertEventDedup executionId id type payload seq now () db = .ok (n, db')) : Logs db db' := by
  unfold DbTx.insertEventDedup at h
  rw [read_bind, require_bind] at h
  split at h
  · rename_i hbelongs
    split at h
    · obtain ⟨-, rfl⟩ := Prod.mk.inj (Except.ok.inj h)
      exact .refl
    · rw [require_bind] at h
      split at h
      · obtain ⟨-, rfl⟩ := Prod.mk.inj (Except.ok.inj h)
        exact .pushEvent fun i hi => Option.mem_some_iff.mp hi ▸ hbelongs
      · cases h
  · cases h

theorem belongs_of_insertEvent {id : SessionId} {n : Nat}
    (h : DbTx.insertEvent executionId (some id) type payload now () db = .ok (n, db')) :
    db.Belongs id executionId := by
  unfold DbTx.insertEvent at h
  rw [read_bind, require_bind] at h
  split at h
  · rename_i hbelongs
    exact hbelongs id rfl
  · cases h

theorem belongs_of_insertEventDedup {id : SessionId} {seq : Int} {n : Option Nat}
    (h : DbTx.insertEventDedup executionId id type payload seq now () db = .ok (n, db')) :
    db.Belongs id executionId := by
  unfold DbTx.insertEventDedup at h
  rw [read_bind, require_bind] at h
  split at h
  · rename_i hbelongs
    exact hbelongs
  · cases h

/-- Locking an execution changes nothing. -/
theorem execution_ok {execution : Execution} (h : DbTx.execution executionId () db = .ok (execution, db')) :
    db' = db := by
  have hwp := (DbTx.wp_execution (E := fun _ => True) (Q := fun _ db' => db' = db) executionId ()).mpr
    ⟨fun _ _ => rfl, fun _ => trivial⟩
  unfold Transaction.Tx.wp at hwp
  rw [h] at hwp
  exact hwp

theorem begin_ok {tx : ExecutionTx} (h : DbTx.beginExecutionTx executionId () db = .ok (tx, db')) :
    db' = db ∧ tx = ⟨executionId, []⟩ := by
  unfold DbTx.beginExecutionTx at h
  rw [bind_eq] at h
  cases hlock : DbTx.execution executionId () db with
  | error e =>
      rw [hlock] at h
      cases h
  | ok locked =>
      obtain ⟨execution, locked⟩ := locked
      rw [hlock] at h
      obtain ⟨rfl, rfl⟩ := Prod.mk.inj (Except.ok.inj h)
      exact ⟨execution_ok hlock, rfl⟩

theorem Logs.insertLocked {id : Option SessionId} {n : Nat}
    (h : DbTx.insertLocked executionId id type payload now () db = .ok (n, db')) : Logs db db' := by
  rw [DbTx.insertLocked_eq, bind_eq] at h
  cases hlock : DbTx.execution executionId () db with
  | error e =>
      rw [hlock] at h
      cases h
  | ok locked =>
      obtain ⟨execution, locked⟩ := locked
      rw [hlock] at h
      obtain rfl := execution_ok hlock
      exact .insertEvent h

/-! ## The backfill -/

/-- What the backfill has written so far is filed right, and so is what waits in its buffer. -/
structure Writes (db : Db) (w : Backfill.Writing) : Prop where
  logs : Logs db w.db
  buffer : ∀ marker ∈ w.insertBuf, db.Belongs marker.2.1 marker.1

theorem Logs.pushMarkers {markers : List Backfill.BufferedMarker}
    (h : ∀ marker ∈ markers, db.Belongs marker.2.1 marker.1) :
    Logs db (markers.foldl (fun db marker =>
      db.pushEvent marker.1 (some marker.2.1) .platform marker.2.2 none now) db) := by
  induction markers generalizing db with
  | nil => exact .refl
  | cons marker markers ih =>
      have hfirst : Logs db (db.pushEvent marker.1 (some marker.2.1) .platform marker.2.2 none now) :=
        .pushEvent fun i hi => Option.mem_some_iff.mp hi ▸ h marker (List.mem_cons_self ..)
      exact hfirst.trans (ih fun m hm => hfirst.belongs.mpr (h m (List.mem_cons_of_mem _ hm)))

namespace Writes

variable {w w' : Backfill.Writing}

theorem flush (h : Writes db w) (hrun : w.flush now = .ok w') : Writes db w' := by
  obtain ⟨flushed, hflushed, hrun⟩ := Backfill.bind_ok hrun
  obtain rfl := Except.ok.inj hrun
  unfold Backfill.flushMarkers at hflushed
  split at hflushed
  · obtain rfl := Except.ok.inj hflushed
    refine ⟨h.logs.trans (.pushMarkers fun marker hmarker => ?_), fun _ hmarker => absurd hmarker List.not_mem_nil⟩
    exact h.logs.belongs.mpr (h.buffer marker hmarker)
  · cases hflushed

theorem push (h : Writes db w) {key : Backfill.SourceKey} {marker : Json}
    (hkey : db.Belongs key.sessionId key.executionId) (hrun : Backfill.Chunked.push .code now key marker w = .ok w') :
    Writes db w' := by
  obtain ⟨flushed, hflushed, hrun⟩ := Backfill.bind_ok hrun
  have hroom : Writes db flushed := by
    unfold Backfill.Chunked.flushFor at hflushed
    split at hflushed
    · exact h.flush hflushed
    · obtain rfl := Except.ok.inj hflushed
      exact h
  have hbuffer : Writes db (flushed.buffer key marker) := by
    refine ⟨hroom.logs, fun m hm => ?_⟩
    obtain hold | hnew := List.mem_append.mp hm
    · exact hroom.buffer m hold
    · rw [List.mem_singleton.mp hnew]
      exact hkey
  unfold Backfill.Chunked.flushIfFull at hrun
  split at hrun
  · exact hbuffer.flush hrun
  · obtain rfl := Except.ok.inj hrun
    exact hbuffer

theorem pushUnlessOversize (h : Writes db w) {key : Backfill.SourceKey} {marker : Json}
    (hkey : db.Belongs key.sessionId key.executionId)
    (hrun : Backfill.Chunked.pushUnlessOversize .code now key marker w = .ok w') :
    Writes db w' := by
  unfold Backfill.Chunked.pushUnlessOversize at hrun
  by_cases hcap : Resolution.markerSerializedCapBytes < (Resolution.stored marker).utf8ByteSize
  · rw [if_pos hcap] at hrun
    obtain rfl := Except.ok.inj hrun
    exact ⟨h.logs, h.buffer⟩
  · rw [if_neg hcap] at hrun
    exact h.push hkey hrun

theorem writeSource (h : Writes db w) {setting : Backfill.Setting} {key : Backfill.SourceKey}
    (hkey : db.Belongs key.sessionId key.executionId) (hrun : Backfill.writeSource setting now w key = .ok w') :
    Writes db w' := by
  unfold Backfill.writeSource Backfill.Chunked.writeSource at hrun
  split at hrun
  · obtain rfl := Except.ok.inj hrun
    exact h
  dsimp only at hrun
  split at hrun
  · split at hrun
    · obtain rfl := Except.ok.inj hrun
      exact h
    split at hrun
    · obtain rfl := Except.ok.inj hrun
      exact h
    · exact h.pushUnlessOversize hkey hrun
  · cases hrun

end Writes

/-- **What the backfill writes is filed right.** -/
theorem Logs.runBackfill0024 {setting : Backfill.Setting} {stats : Backfill.BackfillStats}
    (h : Backfill.runBackfill0024 setting now db = .ok (db', stats)) : Logs db db' := by
  obtain ⟨⟨uncovered, found⟩, hcollected, h⟩ := Backfill.bind_ok h
  have hkeys := Backfill.collectUncoveredSources_belong hcollected
  obtain ⟨written, hwritten, h⟩ := Backfill.bind_ok h
  have hwrites : Writes db written := by
    refine Backfill.foldlM_keeps hwritten ⟨.refl, fun _ hmarker => absurd hmarker List.not_mem_nil⟩ ?_
    intro w key w' hkey hw hrun
    exact hw.writeSource (hkeys key (List.mem_mergeSort.mp hkey)) hrun
  split at h
  · obtain ⟨rfl, -⟩ := Prod.mk.inj (Except.ok.inj h)
    exact hwrites.logs
  · obtain ⟨flushed, hflushed, h⟩ := Backfill.bind_ok h
    obtain ⟨rfl, -⟩ := Prod.mk.inj (Except.ok.inj h)
    exact (hwrites.flush hflushed).logs

/-! ## Other statements -/

/-- The log stays as it is, sessions stay with their execution, and those that are new are `drawn`. -/
structure Changes (db db' : Db) (drawn : List (SessionId × ExecutionId)) : Prop where
  events : db'.events = db.events
  keeps : ∀ id executionId, db.Belongs id executionId → db'.Belongs id executionId
  draws : ∀ id executionId, db'.Belongs id executionId → db.Belongs id executionId ∨ (id, executionId) ∈ drawn

theorem FiledSince.changes (hfiled : FiledSince start db) {drawn : List (SessionId × ExecutionId)}
    (h : Changes db db' drawn) : FiledSince start db' := by
  intro row hrow
  rw [h.events] at hrow
  exact (hfiled row hrow).imp_right fun howns id hid => h.keeps id _ (howns id hid)

theorem Changes.of_same {drawn : List (SessionId × ExecutionId)} (hsessions : db'.sessions = db.sessions)
    (hevents : db'.events = db.events) : Changes db db' drawn := by
  have hsame : ∀ id executionId, db'.Belongs id executionId ↔ db.Belongs id executionId := by
    intro id executionId
    unfold Belongs session?
    rw [hsessions]
  exact ⟨hevents, fun id e => (hsame id e).mpr, fun id e hid => .inl ((hsame id e).mp hid)⟩

theorem belongs_updateSession (id : SessionId) (u : SessionUpdate) {j : SessionId} :
    (db.updateSession id u).Belongs j executionId ↔ db.Belongs j executionId := by
  rw [belongs_iff, belongs_iff, session?_updateSession]
  split
  · rename_i hj
    rw [hj, Option.map_map]
    have hexecution : Session.executionId ∘ u.apply = Session.executionId :=
      funext fun s => (u.apply_identity s).2.1
    rw [hexecution]
  · rfl

theorem Changes.insertSession {row : Session} {a : Unit}
    (h : DbTx.insertSession row () () db = .ok (a, db')) : Changes db db' [(row.id, row.executionId)] := by
  unfold DbTx.insertSession at h
  rw [read_bind, require_bind] at h
  split at h
  · rw [require_bind] at h
    split at h
    · rw [bind_eq] at h
      cases hinsert : db.sessions.insert? row with
      | none =>
          rw [hinsert] at h
          cases h
      | some sessions =>
          rw [hinsert] at h
          obtain ⟨-, rfl⟩ := Prod.mk.inj (Except.ok.inj h)
          have hfind : ∀ j, sessions.find? j = if j = row.id then some row else db.session? j :=
            Table.find?_insert? hinsert
          refine ⟨rfl, fun id executionId hid => ?_, fun id executionId hid => ?_⟩
          · obtain ⟨s, hs, hexecution⟩ := hid
            refine ⟨s, ?_, hexecution⟩
            show sessions.find? id = some s
            rw [hfind, if_neg, hs]
            rintro rfl
            rw [show db.session? row.id = none from (Table.insert?_eq_some hinsert).1] at hs
            cases hs
          · obtain ⟨s, hs, hexecution⟩ := hid
            have hs' : sessions.find? id = some s := hs
            rw [hfind] at hs'
            split at hs'
            · rename_i hid
              obtain rfl := Option.some.inj hs'
              exact .inr (by rw [hid, hexecution]; exact List.mem_singleton_self _)
            · exact .inl ⟨s, hs', hexecution⟩
    · cases h
  · cases h

/-- **What a statement changes.** -/
theorem Changes.exec (db : Db) (s : OtherStatement) : Changes db (s.exec db) s.draws := by
  cases s with
  | updateSession id u =>
      refine ⟨rfl, fun j executionId => (belongs_updateSession id u).mpr, fun j executionId hj => ?_⟩
      exact .inl ((belongs_updateSession id u).mp hj)
  | updateExecution id u => exact .of_same rfl rfl
  | insertSession row =>
      unfold OtherStatement.exec
      dsimp only
      split
      · rename_i hrun
        exact .insertSession hrun
      · exact .of_same rfl rfl
  | insertExecution row =>
      unfold OtherStatement.exec
      dsimp only
      split
      · exact .of_same rfl rfl
      · exact .of_same rfl rfl
  | insertTask executionId id payload source now =>
      unfold OtherStatement.exec
      dsimp only
      split
      · rename_i hrun
        unfold DbTx.insertTask at hrun
        rw [read_bind, require_bind] at hrun
        split at hrun
        · obtain ⟨-, rfl⟩ := Prod.mk.inj (Except.ok.inj hrun)
          exact .of_same rfl rfl
        · cases hrun
      · exact .of_same rfl rfl
  | deleteTasks id => exact .of_same rfl rfl
  | deleteTask id => exact .of_same rfl rfl
  | putAgents agents executionAgents => exact .of_same rfl rfl

theorem belongs_deleteSessions {ids : List SessionId} {id : SessionId} :
    (db.deleteSessions ids).Belongs id executionId ↔ id ∉ ids ∧ db.Belongs id executionId := by
  unfold Belongs
  rw [session?_deleteSessions]
  split
  · rename_i hid
    constructor
    · rintro ⟨s, hs, -⟩
      exact absurd hs (Option.not_mem_none s)
    · rintro ⟨hout, -⟩
      exact absurd hid hout
  · rename_i hid
    exact (and_iff_right hid).symm

/-- With a session its rows go. -/
theorem FiledSince.deleteSessions (hfiled : FiledSince start db) (ids : List SessionId) :
    FiledSince start (db.deleteSessions ids) := by
  intro row hrow
  obtain ⟨hold, hkept⟩ := List.mem_filter.mp hrow
  refine (hfiled row hold).imp_right fun howns id hid => belongs_deleteSessions.mpr ⟨fun hmem => ?_, howns id hid⟩
  have hgone : (row.sessionId.any fun i => decide (i ∈ ids)) = true :=
    (Option.any_eq_true _ _).mpr ⟨id, hid, decide_eq_true hmem⟩
  dsimp only at hkept
  rw [hgone] at hkept
  cases hkept

end Db

/-! ## Every life -/

theorem eq_ok_of_toOption {ε α : Type} {m : Except ε α} {a : α} (h : m.toOption = some a) : m = .ok a := by
  cases m with
  | error e => cases h
  | ok b => exact congrArg Except.ok (Option.some.inj h)

variable {start : Db}

/-- What an open transaction has made of the database, and what it remembers. -/
structure FiledInTx (start : Db) (drawn : List (SessionId × ExecutionId)) (s : Open) : Prop where
  filed : start.FiledSince s.db
  verified : s.Verified
  known : ∀ id executionId, s.db.Belongs id executionId → (id, executionId) ∈ drawn

/-- Rows are filed right, and every session has been drawn once, for its execution. -/
structure FiledRight (start : Db) (life : Lifetime) : Prop where
  once : (life.drawn.map Prod.fst).Nodup
  filed : start.FiledSince life.db
  known : ∀ id executionId, life.db.Belongs id executionId → (id, executionId) ∈ life.drawn
  inTx : ∀ s ∈ life.transaction, FiledInTx start life.drawn s

namespace FiledInTx

variable {drawn more : List (SessionId × ExecutionId)} {s s' : Open}

theorem mono (h : FiledInTx start drawn s) : FiledInTx start (drawn ++ more) s :=
  ⟨h.filed, h.verified, fun id executionId hid => List.mem_append_left _ (h.known id executionId hid)⟩

/-- After an insert, that has checked a session at most. -/
theorem logs (h : FiledInTx start drawn s) (hlogs : s.db.Logs s'.db) (hverified : s'.Verified) :
    FiledInTx start drawn s' :=
  ⟨h.filed.logs hlogs, hverified, fun id executionId hid => h.known id executionId (hlogs.belongs.mp hid)⟩

theorem changes (h : FiledInTx start drawn s) {db : Db} (hchanges : s.db.Changes db more) :
    FiledInTx start (drawn ++ more) ⟨s.tx, db⟩ := by
  refine ⟨h.filed.changes hchanges, fun id hid => hchanges.keeps id _ (h.verified id hid), fun id executionId hid => ?_⟩
  obtain hold | hnew := hchanges.draws id executionId hid
  · exact List.mem_append_left _ (h.known id executionId hold)
  · exact List.mem_append_right _ hnew

theorem insertInTx (h : FiledInTx start drawn s) {id : Option SessionId} {type : EventType} {payload : Json}
    {now : Timestamp} {n : Nat} (hrun : InTx.insertInTx id type payload now () s = .ok (n, s')) :
    FiledInTx start drawn s' := by
  rw [InTx.insertInTx_eq h.verified] at hrun
  cases hinsert : DbTx.insertEvent s.tx.executionId id type payload now () s.db with
  | error e =>
      rw [hinsert] at hrun
      cases hrun
  | ok inserted =>
      obtain ⟨n', db⟩ := inserted
      rw [hinsert] at hrun
      obtain ⟨-, rfl⟩ := Prod.mk.inj (Except.ok.inj hrun)
      have hlogs := Db.Logs.insertEvent hinsert
      refine h.logs hlogs ?_
      cases id with
      | none => exact fun i hi => hlogs.belongs.mpr (h.verified i hi)
      | some id => exact h.verified.remember (Db.belongs_of_insertEvent hinsert) hlogs.sessions

theorem insertWithDedupInTx (h : FiledInTx start drawn s) {id : SessionId} {type : EventType} {payload : Json}
    {seq : Int} {now : Timestamp} {n : Option Nat}
    (hrun : InTx.insertWithDedupInTx id type payload seq now () s = .ok (n, s')) : FiledInTx start drawn s' := by
  rw [InTx.insertWithDedupInTx_eq h.verified] at hrun
  cases hinsert : DbTx.insertEventDedup s.tx.executionId id type payload seq now () s.db with
  | error e =>
      rw [hinsert] at hrun
      cases hrun
  | ok inserted =>
      obtain ⟨n', db⟩ := inserted
      rw [hinsert] at hrun
      obtain ⟨-, rfl⟩ := Prod.mk.inj (Except.ok.inj hrun)
      have hlogs := Db.Logs.insertEventDedup hinsert
      exact h.logs hlogs (h.verified.remember (Db.belongs_of_insertEventDedup hinsert) hlogs.sessions)

end FiledInTx

namespace FiledRight

variable {life : Lifetime}

theorem ofDb (start : Db) : FiledRight start (.ofDb start) := by
  refine ⟨?_, fun _ hrow => .inl hrow, fun id executionId hid => ?_, fun _ hs => by cases hs⟩
  · show ((start.sessions.rows.map fun s => (s.id, s.executionId)).map Prod.fst).Nodup
    rw [List.map_map]
    exact start.sessions.nodup
  · obtain ⟨s, hs, rfl⟩ := hid
    obtain rfl := Db.id_of_session? hs
    exact List.mem_map_of_mem (Db.mem_of_session? hs)

/-- A body that keeps an open transaction right. -/
theorem ofInTx {α : Type} (h : FiledRight start life) {body : InTx Unit α}
    (hbody : ∀ s n s', FiledInTx start life.drawn s → body s = .ok (n, s') → FiledInTx start life.drawn s') :
    FiledRight start (life.inTx body) := by
  unfold Lifetime.inTx
  split
  · exact h
  rename_i s hs
  split
  · rename_i n s' hrun
    refine ⟨h.once, h.filed, h.known, fun t ht => ?_⟩
    obtain rfl := Option.mem_some_iff.mp ht
    exact hbody s n s' (h.inTx s hs) hrun
  · exact h

theorem ofAlone {α : Type} (h : FiledRight start life) {body : Db → Option (α × Db)}
    (hbody : ∀ a db, body life.db = some (a, db) → start.FiledSince db ∧
      ∀ id executionId, db.Belongs id executionId → life.db.Belongs id executionId) :
    FiledRight start (life.alone body) := by
  unfold Lifetime.alone
  split
  · rename_i a db hnone hrun
    obtain ⟨hfiled, hbelongs⟩ := hbody a db hrun
    exact ⟨h.once, hfiled, fun id executionId hid => h.known id executionId (hbelongs id executionId hid), h.inTx⟩
  · exact h

theorem statement (h : FiledRight start life) (s : OtherStatement) : FiledRight start (life.statement s) := by
  unfold Lifetime.statement
  split
  · rename_i hfresh
    have honce : ((life.drawn ++ s.draws).map Prod.fst).Nodup := by
      rw [List.map_append, List.nodup_append]
      refine ⟨h.once, ?_, fun a ha b hb => ?_⟩
      · cases s with
        | insertSession row => exact List.nodup_singleton _
        | _ => exact List.nodup_nil
      · obtain ⟨session, hsession, rfl⟩ := List.mem_map.mp hb
        rintro rfl
        exact hfresh session hsession ha
    split
    · rename_i hnone
      have hchanges := Db.Changes.exec life.db s
      refine ⟨honce, h.filed.changes hchanges, fun id executionId hid => ?_, fun t ht => by rw [hnone] at ht; cases ht⟩
      obtain hold | hnew := hchanges.draws id executionId hid
      · exact List.mem_append_left _ (h.known id executionId hold)
      · exact List.mem_append_right _ hnew
    · rename_i at_ hat
      refine ⟨honce, h.filed, fun id executionId hid => List.mem_append_left _ (h.known id executionId hid), ?_⟩
      intro t ht
      obtain rfl := Option.mem_some_iff.mp ht
      exact (h.inTx at_ hat).changes (Db.Changes.exec at_.db s)
  · exact h

/-- **One step.** -/
theorem step (h : FiledRight start life) (action : TxAction) : FiledRight start (life.step action) := by
  cases action with
  | begin executionId =>
      unfold Lifetime.step
      dsimp only
      split
      · rename_i tx db hnone hbegin
        obtain ⟨rfl, rfl⟩ := Db.begin_ok hbegin
        refine ⟨h.once, h.filed, h.known, fun t ht => ?_⟩
        obtain rfl := Option.mem_some_iff.mp ht
        exact ⟨h.filed, fun _ hid => absurd hid List.not_mem_nil, h.known⟩
      · exact h
  | insertInTx id type payload now => exact h.ofInTx fun _ _ _ hs hrun => hs.insertInTx hrun
  | insertWithDedupInTx id type payload seq now => exact h.ofInTx fun _ _ _ hs hrun => hs.insertWithDedupInTx hrun
  | statement s => exact h.statement s
  | commit =>
      unfold Lifetime.step
      dsimp only
      split
      · rename_i s hs
        have hopen := h.inTx s hs
        exact ⟨h.once, hopen.filed, hopen.known, fun _ ht => by cases ht⟩
      · exact h
  | rollback => exact ⟨h.once, h.filed, h.known, fun _ ht => by cases ht⟩
  | insertLocked executionId id type payload now =>
      show FiledRight start (life.alone fun db =>
        (DbTx.insertLocked executionId id type payload now () db).toOption)
      refine h.ofAlone fun n db hrun => ?_
      have hlogs := Db.Logs.insertLocked (eq_ok_of_toOption hrun)
      exact ⟨h.filed.logs hlogs, fun _ _ => hlogs.belongs.mp⟩
  | deleteSessions ids =>
      show FiledRight start (life.alone fun db => some ((), db.deleteSessions ids))
      refine h.ofAlone fun _ db hrun => ?_
      obtain ⟨-, rfl⟩ := Prod.mk.inj (Option.some.inj hrun)
      exact ⟨h.filed.deleteSessions ids, fun id executionId hid => (Db.belongs_deleteSessions.mp hid).2⟩
  | backfill setting now =>
      show FiledRight start (life.alone fun db => (Backfill.runBackfill0024 setting now db).toOption.map Prod.swap)
      refine h.ofAlone fun stats db hrun => ?_
      obtain ⟨⟨db', stats'⟩, hsome, hswap⟩ := Option.map_eq_some_iff.mp hrun
      obtain ⟨rfl, rfl⟩ := Prod.mk.inj hswap
      have hlogs := Db.Logs.runBackfill0024 (eq_ok_of_toOption hsome)
      exact ⟨h.filed.logs hlogs, fun _ _ => hlogs.belongs.mp⟩

theorem steps (h : FiledRight start life) (actions : List TxAction) :
    FiledRight start (actions.foldl Lifetime.step life) := by
  induction actions generalizing life with
  | nil => exact h
  | cons action actions ih => exact ih (h.step action)

theorem run (start : Db) (actions : List TxAction) : FiledRight start (.run start actions) :=
  (ofDb start).steps actions

end FiledRight

namespace Lifetime

variable {life : Lifetime}

/-- What was drawn stays drawn. -/
theorem drawn_step (life : Lifetime) (action : TxAction) : life.drawn <+: (life.step action).drawn := by
  have hinTx : ∀ {α : Type} (body : InTx Unit α), life.drawn <+: (life.inTx body).drawn := by
    intro α body
    unfold inTx
    split
    · exact List.prefix_rfl
    split
    · exact List.prefix_rfl
    · exact List.prefix_rfl
  have halone : ∀ {α : Type} (body : Db → Option (α × Db)), life.drawn <+: (life.alone body).drawn := by
    intro α body
    unfold alone
    split
    · exact List.prefix_rfl
    · exact List.prefix_rfl
  cases action with
  | begin executionId =>
      unfold step
      dsimp only
      split
      · exact List.prefix_rfl
      · exact List.prefix_rfl
  | insertInTx => exact hinTx _
  | insertWithDedupInTx => exact hinTx _
  | statement s =>
      unfold step statement
      dsimp only
      split
      · split
        · exact List.prefix_append ..
        · exact List.prefix_append ..
      · exact List.prefix_rfl
  | commit =>
      unfold step
      dsimp only
      split
      · exact List.prefix_rfl
      · exact List.prefix_rfl
  | rollback => exact List.prefix_rfl
  | insertLocked => exact halone _
  | deleteSessions => exact halone _
  | backfill => exact halone _

theorem drawn_run (start : Db) (actions later : List TxAction) :
    (run start actions).drawn <+: (run start (actions ++ later)).drawn := by
  unfold run
  rw [List.foldl_append]
  generalize actions.foldl step (ofDb start) = life
  induction later generalizing life with
  | nil => exact List.prefix_rfl
  | cons action later ih => exact (drawn_step life action).trans (ih _)

end Lifetime

/-- The transaction accepts an event of the session. -/
def ExecutionTx.Open.accepts (s : Open) (id : SessionId) : Bool := (InTx.verifySessionOwner id () s).isOk

theorem FiledInTx.accepts_iff {drawn : List (SessionId × ExecutionId)} {s : Open} (h : FiledInTx start drawn s)
    (id : SessionId) : s.accepts id = true ↔ s.db.Belongs id s.tx.executionId := by
  unfold ExecutionTx.Open.accepts
  rw [InTx.verifySessionOwner_eq h.verified, Db.belongs_iff]
  split
  · rename_i hbelongs
    exact iff_of_true rfl hbelongs
  · rename_i hno
    exact iff_of_false Bool.false_ne_true hno

/-- **Events are filed under the right execution.** In every life of a database, committed or as an open transaction
sees it: each row that was not there at the start has the execution of its session. A transaction accepts a session
exactly if it belongs to its execution, and what it remembers does; and no transaction that comes later, for another
execution, accepts a session that it remembers. -/
theorem events_filed_right (start : Db) (actions : List TxAction) :
    start.FiledSince (Lifetime.run start actions).db ∧
      (∀ s ∈ (Lifetime.run start actions).transaction, start.FiledSince s.db ∧
        (∀ id, s.tx.sessionVerified id = true → s.db.Belongs id s.tx.executionId) ∧
        ∀ id, s.accepts id = true ↔ s.db.Belongs id s.tx.executionId) ∧
      ∀ later, ∀ s ∈ (Lifetime.run start actions).transaction,
        ∀ s' ∈ (Lifetime.run start (actions ++ later)).transaction, ∀ id,
          s.tx.sessionVerified id = true → s'.accepts id = true → s'.tx.executionId = s.tx.executionId := by
  have h := FiledRight.run start actions
  have hverified : ∀ s ∈ (Lifetime.run start actions).transaction, ∀ id, s.tx.sessionVerified id = true →
      s.db.Belongs id s.tx.executionId :=
    fun s hs id hid => (h.inTx s hs).verified id (List.contains_iff_mem.mp hid)
  refine ⟨h.filed, fun s hs => ⟨(h.inTx s hs).filed, hverified s hs, (h.inTx s hs).accepts_iff⟩, ?_⟩
  intro later s hs s' hs' id hid haccepts
  have hlater := FiledRight.run start (actions ++ later)
  have hold := (Lifetime.drawn_run start actions later).subset ((h.inTx s hs).known id _ (hverified s hs id hid))
  have hnew := (hlater.inTx s' hs').known id _ (((hlater.inTx s' hs').accepts_iff id).mp haccepts)
  -- a session is drawn once, so for one execution
  have honce := List.inj_on_of_nodup_map hlater.once hnew hold rfl
  exact congrArg Prod.snd honce

end AgentBeacon
