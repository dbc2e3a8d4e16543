import AgentBeacon.Correctness.Filing
import AgentBeacon.Db.BackfillChunks

/-!
# `Correctness.BackfillChunks` — the chunks of a backfill do not matter

What a flush writes and what waits in the buffer are together the markers made so far. So whatever the sizes of the
chunks, the loop comes to one insert of all markers, which is made or fails as a whole.
-/

namespace AgentBeacon
open Relational Resolution

namespace Backfill

/-! ## Inserting markers -/

/-- The database after the markers were inserted. -/
def pushMarkers (now : Timestamp) (markers : List BufferedMarker) (db : Db) : Db :=
  markers.foldl (fun db marker => db.pushEvent marker.1 (some marker.2.1) .platform marker.2.2 none now) db

/-- Nothing keeps the database from inserting them. -/
def Insertable (db : Db) (markers : List BufferedMarker) : Prop :=
  (markers.all fun marker => (db.execution? marker.1).isSome && (db.session? marker.2.1).isSome) = true ∧
    db.events.next + markers.length ≤ maxRowId + 1

instance (db : Db) (markers : List BufferedMarker) : Decidable (Insertable db markers) :=
  inferInstanceAs (Decidable (_ ∧ _))

/-- None are inserted, or nothing keeps the database from it. -/
def Fits (db : Db) (markers : List BufferedMarker) : Prop := markers = [] ∨ Insertable db markers

instance (db : Db) (markers : List BufferedMarker) : Decidable (Fits db markers) :=
  inferInstanceAs (Decidable (_ ∨ _))

/-- The rows of the markers, from an id on. -/
def markerRows (now : Timestamp) : Nat → List BufferedMarker → List EventRow
  | _, [] => []
  | id, marker :: markers =>
      ⟨id, marker.1, some marker.2.1, .platform, marker.2.2, none, now⟩ :: markerRows now (id + 1) markers

section Insert

variable {now : Timestamp} {db : Db} {markers markers' : List BufferedMarker}

theorem flushMarkers_eq (now : Timestamp) (markers : List BufferedMarker) (db : Db) :
    flushMarkers now markers db =
      if Insertable db markers then .ok (pushMarkers now markers db) else .error .insertFailed := rfl

theorem pushMarkers_append (now : Timestamp) (markers markers' : List BufferedMarker) (db : Db) :
    pushMarkers now (markers ++ markers') db = pushMarkers now markers' (pushMarkers now markers db) :=
  List.foldl_append

/-- **What inserting them changes**: rows are added to the events. -/
theorem pushMarkers_spec (now : Timestamp) (markers : List BufferedMarker) (db : Db) :
    (pushMarkers now markers db).events.rows = db.events.rows ++ markerRows now db.events.next markers ∧
      (pushMarkers now markers db).events.next = db.events.next + markers.length ∧
      (pushMarkers now markers db).sessions = db.sessions ∧
      (pushMarkers now markers db).executions = db.executions := by
  induction markers generalizing db with
  | nil => exact ⟨(List.append_nil _).symm, rfl, rfl, rfl⟩
  | cons marker markers ih =>
      obtain ⟨hrows, hnext, hsessions, hexecutions⟩ :=
        ih (db.pushEvent marker.1 (some marker.2.1) .platform marker.2.2 none now)
      refine ⟨hrows.trans ?_, hnext.trans ?_, hsessions, hexecutions⟩
      · show (db.events.rows ++ [_]) ++ markerRows now (db.events.next + 1) markers = _
        rw [List.append_assoc]
        rfl
      · show db.events.next + 1 + markers.length = _
        rw [List.length_cons]
        omega

theorem Fits.of_append (h : Fits db (markers ++ markers')) : Fits db markers := by
  rcases h with hnil | ⟨hall, hnext⟩
  · exact .inl (List.append_eq_nil_iff.mp hnil).1
  · rw [List.all_append, Bool.and_eq_true] at hall
    rw [List.length_append] at hnext
    exact .inr ⟨hall.1, by omega⟩

/-- Inserted in two statements or in one. -/
theorem insertable_append (h : Fits db markers) :
    Insertable (pushMarkers now markers db) markers' ↔ Insertable db (markers ++ markers') := by
  rcases h with rfl | h
  · exact Iff.rfl
  obtain ⟨-, hnext, hsessions, hexecutions⟩ := pushMarkers_spec now markers db
  unfold Insertable
  have hsession : ∀ id, (pushMarkers now markers db).session? id = db.session? id := fun id => by
    unfold Db.session?
    rw [hsessions]
  have hexecution : ∀ id, (pushMarkers now markers db).execution? id = db.execution? id := fun id => by
    unfold Db.execution?
    rw [hexecutions]
  simp only [hsession, hexecution, hnext, List.all_append, h.1, Bool.true_and, List.length_append, Nat.add_assoc]

end Insert

/-! ## Flushing -/

section Flush

variable {now : Timestamp} {db : Db} {stats : BackfillStats} {markers : List BufferedMarker} {w : Writing}

/-- The markers made so far: those that are inserted, and those in the buffer. -/
structure Wrote (now : Timestamp) (db : Db) (stats : BackfillStats) (markers : List BufferedMarker) (w : Writing) :
    Prop where
  split : ∃ flushed, markers = flushed ++ w.insertBuf ∧ w.db = pushMarkers now flushed db ∧ Fits db flushed
  stats : w.stats = { stats with markersSynthesized := stats.markersSynthesized + markers.length }

/-- They are all made, or they cannot be inserted. -/
def Progress (now : Timestamp) (db : Db) (stats : BackfillStats) (markers : List BufferedMarker) :
    Except Abort Writing → Prop
  | .ok w => Wrote now db stats markers w
  | .error e => e = .insertFailed ∧ ¬Fits db markers

/-- **A flush** inserts what is in the buffer, if all of them can be inserted. -/
theorem Wrote.flush (h : Wrote now db stats markers w) (hbuf : w.insertBuf ≠ []) : w.flush now =
    if Fits db markers then .ok { w with db := pushMarkers now markers db, insertBuf := [], insertBytes := 0 }
    else .error .insertFailed := by
  obtain ⟨flushed, rfl, hdb, hflushed⟩ := h.split
  have hiff : Insertable (pushMarkers now flushed db) w.insertBuf ↔ Fits db (flushed ++ w.insertBuf) := by
    rw [insertable_append hflushed]
    exact ⟨.inr, fun h => h.resolve_left fun hnil => hbuf (List.append_eq_nil_iff.mp hnil).2⟩
  unfold Writing.flush
  rw [flushMarkers_eq, hdb]
  by_cases hall : Fits db (flushed ++ w.insertBuf)
  · rw [if_pos (hiff.mpr hall), if_pos hall, pushMarkers_append]
    rfl
  · rw [if_neg (mt hiff.mp hall), if_neg hall]
    rfl

theorem Wrote.flushes (h : Wrote now db stats markers w) (hbuf : w.insertBuf ≠ []) :
    Progress now db stats markers (w.flush now) := by
  rw [h.flush hbuf]
  by_cases hall : Fits db markers
  · rw [if_pos hall]
    exact ⟨⟨markers, (List.append_nil _).symm, rfl, hall⟩, h.stats⟩
  · rw [if_neg hall]
    exact ⟨rfl, hall⟩

/-- **A marker more.** -/
theorem Wrote.push (h : Wrote now db stats markers w) (sizes : ChunkSizes) (key : SourceKey) (marker : Json) :
    Progress now db stats (markers ++ [(key.executionId, key.sessionId, marker)])
      (Chunked.push sizes now key marker w) := by
  have hroom : Progress now db stats markers (Chunked.flushFor sizes now marker w) := by
    unfold Chunked.flushFor
    split
    · rename_i hfull
      refine h.flushes fun hnil => ?_
      rw [hnil] at hfull
      cases hfull
    · exact h
  unfold Chunked.push
  cases hfor : Chunked.flushFor sizes now marker w with
  | error e =>
      rw [hfor] at hroom
      exact ⟨hroom.1, fun hall => hroom.2 hall.of_append⟩
  | ok w₁ =>
      rw [hfor] at hroom
      obtain ⟨flushed, hsplit, hdb, hflushed⟩ := hroom.split
      have hbuffer : Wrote now db stats (markers ++ [(key.executionId, key.sessionId, marker)])
          (w₁.buffer key marker) := by
        refine ⟨⟨flushed, ?_, hdb, hflushed⟩, ?_⟩
        · rw [hsplit, List.append_assoc]
          rfl
        · show { w₁.stats with markersSynthesized := w₁.stats.markersSynthesized + 1 } = _
          rw [hroom.stats, List.length_append]
          rfl
      show Progress now db stats _ (Chunked.flushIfFull sizes now (w₁.buffer key marker))
      unfold Chunked.flushIfFull
      split
      · exact hbuffer.flushes (List.append_ne_nil_of_right_ne_nil _ (List.cons_ne_nil _ _))
      · exact hbuffer

end Flush

/-! ## Chunks -/

section Chunks

variable {setting : Setting} {now : Timestamp} {db : Db} {stats : BackfillStats} {sizes : ChunkSizes}

/-- The marker that is made for a source, if its row is there and can be read. -/
def markerFor (setting : Setting) (db : Db) (key : SourceKey) : Option BufferedMarker := do
  let row ← Chunked.sourceRow db key.sourceId
  if resolvedAtIsRepresentable setting (rfc3339 row.createdAt) then
    let (role, parts) ← parseRoleAndParts row.payload
    let (_, answer) ← historicalAnswerSourceRef role parts
    let marker := markerOf key (rfc3339 row.createdAt) answer
    if markerSerializedCapBytes < (stored marker).utf8ByteSize then none
    else some (key.executionId, key.sessionId, marker)
  else none

/-- The row of a source is found again, whatever was inserted since. -/
theorem sourceRow_pushed {flushed : List BufferedMarker} {id : Int} {row : EventRow}
    (h : Chunked.sourceRow db id = some row) : Chunked.sourceRow (pushMarkers now flushed db) id = some row := by
  unfold Chunked.sourceRow at h ⊢
  rw [(pushMarkers_spec now flushed db).1, List.find?_append, h]
  rfl

theorem Wrote.source {markers flushed : List BufferedMarker} {w : Writing} {key : SourceKey} {marker : BufferedMarker}
    (h : Wrote now db stats markers w) (hmarker : markerFor setting db key = some marker) :
    Progress now db stats (markers ++ [marker])
      (Chunked.writeSource sizes setting now (pushMarkers now flushed db) w key) := by
  obtain ⟨row, hrow, hmarker⟩ := Option.bind_eq_some_iff.mp hmarker
  split at hmarker
  · rename_i hrepresentable
    obtain ⟨⟨role, parts⟩, hparts, hmarker⟩ := Option.bind_eq_some_iff.mp hmarker
    obtain ⟨⟨batchId, answer⟩, hanswer, hmarker⟩ := Option.bind_eq_some_iff.mp hmarker
    dsimp only at hmarker
    split at hmarker
    · cases hmarker
    · rename_i hfits
      obtain rfl := Option.some.inj hmarker
      unfold Chunked.writeSource
      rw [sourceRow_pushed hrow]
      dsimp only
      rw [if_pos hrepresentable, hparts]
      dsimp only
      rw [hanswer]
      dsimp only
      unfold Chunked.pushUnlessOversize
      rw [if_neg hfits]
      exact h.push sizes key _
  · cases hmarker

theorem Progress.bind {markers markers' : List BufferedMarker} {r : Except Abort Writing}
    {f : Writing → Except Abort Writing} (h : Progress now db stats markers r)
    (hf : ∀ w, Wrote now db stats markers w → Progress now db stats (markers ++ markers') (f w)) :
    Progress now db stats (markers ++ markers') (r >>= f) := by
  cases r with
  | error e => exact ⟨h.1, fun hall => h.2 hall.of_append⟩
  | ok w => exact hf w h

/-- A list of sources, each with a marker. -/
def AllMarked (setting : Setting) (db : Db) (keys : List SourceKey) : Prop :=
  ∀ key ∈ keys, ∃ marker, markerFor setting db key = some marker

/-- **The sources of a chunk.** -/
theorem Wrote.chunk {markers flushed : List BufferedMarker} {w : Writing} {keys : List SourceKey}
    (h : Wrote now db stats markers w) (hkeys : AllMarked setting db keys) :
    Progress now db stats (markers ++ keys.filterMap (markerFor setting db))
      (keys.foldlM (Chunked.writeSource sizes setting now (pushMarkers now flushed db)) w) := by
  induction keys generalizing markers w with
  | nil =>
      rw [List.filterMap_nil, List.append_nil]
      exact h
  | cons key keys ih =>
      obtain ⟨marker, hmarker⟩ := hkeys key List.mem_cons_self
      rw [List.filterMap_cons_some hmarker, List.foldlM_cons, ← List.singleton_append, ← List.append_assoc]
      refine (h.source hmarker).bind fun w₁ h₁ => ?_
      exact ih h₁ fun key' hkey' => hkeys key' (List.mem_cons_of_mem _ hkey')

theorem chunkLength_ge (db : Db) (count bytes : Nat) (window : List SourceKey) :
    count ≤ Chunked.chunkLength sizes db count bytes window := by
  induction window generalizing count bytes with
  | nil => exact Nat.le_refl _
  | cons key window ih =>
      unfold Chunked.chunkLength
      split
      · exact Nat.le_refl _
      · exact Nat.le_of_succ_le (ih _ _)

/-- A chunk is not empty, for a source is taken however long it is. -/
theorem chunkLength_pos (db : Db) (key : SourceKey) (window : List SourceKey) :
    0 < Chunked.chunkLength sizes db 0 0 (key :: window) := by
  unfold Chunked.chunkLength
  rw [if_neg fun h => Nat.lt_irrefl 0 h.1]
  exact chunkLength_ge db _ _ window

/-- **All chunks.** -/
theorem Wrote.chunks (hsizes : 0 < sizes.readRows) {markers : List BufferedMarker} {w : Writing} {rounds : Nat}
    {keys : List SourceKey} (h : Wrote now db stats markers w) (hkeys : AllMarked setting db keys)
    (hrounds : keys.length ≤ rounds) :
    Progress now db stats (markers ++ keys.filterMap (markerFor setting db))
      (Chunked.writeChunks sizes setting now rounds keys w) := by
  induction rounds generalizing markers w keys with
  | zero =>
      obtain rfl := List.eq_nil_of_length_eq_zero (Nat.le_zero.mp hrounds)
      rw [List.filterMap_nil, List.append_nil]
      exact h
  | succ rounds ih =>
      cases keys with
      | nil =>
          rw [List.filterMap_nil, List.append_nil]
          exact h
      | cons key keys =>
          unfold Chunked.writeChunks
          dsimp only
          generalize hsize : Chunked.chunkLength sizes w.db 0 0 ((key :: keys).take sizes.readRows) = size
          have hpos : 0 < size := by
            obtain ⟨n, hn⟩ : ∃ n, sizes.readRows = n + 1 := ⟨sizes.readRows - 1, by omega⟩
            rw [← hsize, hn, List.take_succ_cons]
            exact chunkLength_pos w.db key _
          have hsplit : (key :: keys).filterMap (markerFor setting db) =
              ((key :: keys).take size).filterMap (markerFor setting db) ++
                ((key :: keys).drop size).filterMap (markerFor setting db) := by
            rw [← List.filterMap_append, List.take_append_drop]
          obtain ⟨flushed, -, hdb, -⟩ := h.split
          rw [hsplit, ← List.append_assoc, hdb]
          refine (h.chunk fun k hk => hkeys k (List.mem_of_mem_take hk)).bind fun w₁ h₁ => ?_
          refine ih h₁ (fun k hk => hkeys k (List.mem_of_mem_drop hk)) ?_
          rw [List.length_drop]
          rw [List.length_cons] at hrounds ⊢
          omega

/-- The source is read from the database as it is. -/
theorem writeSource_eq (w : Writing) (key : SourceKey) :
    Backfill.writeSource setting now w key = Chunked.writeSource .code setting now w.db w key := rfl

/-- One source after the other. -/
theorem Wrote.sources {markers : List BufferedMarker} {w : Writing} {keys : List SourceKey}
    (h : Wrote now db stats markers w) (hkeys : AllMarked setting db keys) :
    Progress now db stats (markers ++ keys.filterMap (markerFor setting db))
      (keys.foldlM (Backfill.writeSource setting now) w) := by
  induction keys generalizing markers w with
  | nil =>
      rw [List.filterMap_nil, List.append_nil]
      exact h
  | cons key keys ih =>
      obtain ⟨marker, hmarker⟩ := hkeys key List.mem_cons_self
      obtain ⟨flushed, -, hdb, -⟩ := h.split
      rw [List.filterMap_cons_some hmarker, List.foldlM_cons, ← List.singleton_append, ← List.append_assoc,
        writeSource_eq, hdb]
      refine (h.source hmarker).bind fun w₁ h₁ => ?_
      exact ih h₁ fun key' hkey' => hkeys key' (List.mem_cons_of_mem _ hkey')

end Chunks

end Backfill

end AgentBeacon
