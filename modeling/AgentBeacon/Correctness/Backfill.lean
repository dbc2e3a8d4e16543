import AgentBeacon.Correctness.BackfillChunks
import AgentBeacon.Correctness.BackfillScan

/-!
# `Correctness.Backfill` — the backfill is complete, and writes nothing twice

A source is collected exactly if it lacks a marker (`Found.mem_iff`). Each marker is read back as covering its source,
and keeps as many bytes as the source did, so the next collection finds every source covered and stays within the cap
(`Found.next`).
-/

namespace AgentBeacon
open Json Relational Resolution

/-! ## A stored marker -/

/-- A member with a new key comes in between. -/
theorem insertMember_perm {key : String} {value : Json} {members : List (String × Json)}
    (h : key ∉ members.map Prod.fst) : (insertMember key value members).Perm ((key, value) :: members) := by
  induction members with
  | nil => exact List.Perm.refl _
  | cons member members ih =>
      obtain ⟨k, v⟩ := member
      rw [List.map_cons, List.mem_cons, not_or] at h
      unfold insertMember
      rw [if_neg h.1]
      split
      · exact List.Perm.refl _
      · exact ((ih h.2).cons _).trans (List.Perm.swap _ _ _)

/-- **A map of different keys** has the members it was made of. -/
theorem mapOf_perm {members : List (String × Json)} (h : (members.map Prod.fst).Nodup) :
    (mapOf members).Perm members := by
  have hfold : ∀ (l acc : List (String × Json)), ((acc ++ l).map Prod.fst).Nodup →
      (l.foldl (fun acc m => insertMember m.1 m.2 acc) acc).Perm (acc ++ l) := by
    intro l
    induction l with
    | nil =>
        intro acc _
        rw [List.append_nil]
        exact List.Perm.refl _
    | cons m l ih =>
        intro acc hnodup
        have hmiddle : (acc ++ m :: l).Perm ((m :: acc) ++ l) := List.perm_middle
        have hnew : m.1 ∉ acc.map Prod.fst := by
          have := (hmiddle.map Prod.fst).nodup_iff.mp hnodup
          rw [List.cons_append, List.map_cons, List.map_append, List.nodup_cons] at this
          exact fun hmem => this.1 (List.mem_append_left _ hmem)
        have hinsert : (insertMember m.1 m.2 acc).Perm (m :: acc) := insertMember_perm hnew
        have hperm : (insertMember m.1 m.2 acc ++ l).Perm ((m :: acc) ++ l) := hinsert.append_right l
        refine (ih (insertMember m.1 m.2 acc) ?_).trans (hperm.trans hmiddle.symm)
        exact ((hperm.trans hmiddle.symm).map Prod.fst).nodup_iff.mpr hnodup
  have hall := hfold members [] (by rw [List.nil_append]; exact h)
  rwa [List.nil_append] at hall

/-- **A stored marker** is as long as its size says. -/
theorem stored_marker (batchId : String) (sourceId : Int) (createdAt : String) (text : Option String)
    (truncated : Bool) : (stored (markerPayload batchId none sourceId createdAt text truncated)).utf8ByteSize =
      serializedMarkerBytes batchId none sourceId createdAt text truncated := by
  obtain ⟨members, hmembers, hnormal, hnodup⟩ : ∃ members,
      markerData batchId none sourceId createdAt text truncated = .obj members ∧
      normalMembers members = members ∧ (members.map Prod.fst).Nodup := by
    cases text <;> cases truncated <;> exact ⟨_, rfl, rfl, by simp⟩
  have hstored : stored (markerPayload batchId none sourceId createdAt text truncated) =
      (Json.obj [("parts", .arr [Json.dataPart (.obj (mapOf members))])]).serialize := by
    unfold stored markerPayload
    rw [hmembers]
    show (Json.obj [("parts", .arr [.obj [("data", .obj (mapOf (normalMembers members)))]])]).serialize = _
    rw [hnormal]
    rfl
  rw [hstored]
  show (Json.obj [("parts", .arr [Json.dataPart (.obj (mapOf members))])]).serializedLength = _
  rw [serializedLength_envelope, serializedLength_perm (mapOf_perm hnodup), ← hmembers]
  exact serializedLength_markerData _ _ _ _ _ _

/-- The text of a timestamp is as long as it has bytes. -/
theorem length_of_plain {s : String} (h : Plain s) : s.utf8ByteSize = s.length := by
  have hsize : ∀ c ∈ s.toList, c.utf8Size = 1 := by
    intro c hc
    have hone := h c hc
    unfold charEscapedWidth at hone
    split at hone
    · cases hone
    · split at hone
      · cases hone
      · exact hone
  rw [← String.ofList_toList (s := s), utf8ByteSize_ofList, String.ofList_toList, utf8Length,
    List.map_congr_left hsize, List.map_const', List.sum_replicate, String.length_toList]
  simp

namespace Backfill

/-! ## The collection as a whole -/

section Collect

variable {setting : Setting} {flag : Bool} {db db' : Db} {now : Timestamp} {keys : List SourceKey}
  {stats : BackfillStats}

/-- What a collection with the check of ids has found, step by step. -/
structure Found (setting : Setting) (db : Db) (keys : List SourceKey) (scan : Scan) (collected : Collected) : Prop where
  platform : scanPlatform setting true db db.events.rows ⟨0, [], []⟩ = .ok scan
  added : Added setting true scan (db.events.rows.filter (isCandidateMessage setting))
    ⟨scan.retained, [], ⟨0, 0, 0, 0⟩⟩ collected
  uncovered : collected.uncovered = keys

theorem collect_found (h : collectUncoveredSources setting true db = .ok (keys, stats)) :
    ∃ scan collected, Found setting db keys scan collected ∧ collected.stats = stats := by
  obtain ⟨scan, hscan, h⟩ := bind_ok h
  obtain ⟨collected, hcollected, h⟩ := bind_ok h
  obtain ⟨rfl, rfl⟩ := Prod.mk.inj (Except.ok.inj h)
  exact ⟨scan, collected, ⟨hscan, scanMessages_added hcollected, rfl⟩, rfl⟩

namespace Found

variable {scan : Scan} {collected : Collected}

theorem keys_eq (h : Found setting db keys scan collected) :
    keys = (db.events.rows.filter (isCandidateMessage setting)).filterMap (needs scan) := by
  rw [← h.uncovered, h.added.uncovered]
  rfl

/-- The message that a source is. -/
theorem row_of_mem (h : Found setting db keys scan collected) {key : SourceKey} (hkey : key ∈ keys) :
    ∃ row ∈ db.events.rows, isCandidateMessage setting row = true ∧ needs scan row = some key := by
  rw [h.keys_eq] at hkey
  obtain ⟨row, hrow, hneeds⟩ := List.mem_filterMap.mp hkey
  obtain ⟨hmem, hcandidate⟩ := List.mem_filter.mp hrow
  exact ⟨row, hmem, hcandidate, hneeds⟩

/-- Sources are collected in the order of their ids. -/
theorem ascending (h : Found setting db keys scan collected) : keys.Pairwise fun a b => a.sourceId < b.sourceId := by
  rw [h.keys_eq, List.pairwise_filterMap]
  have hrows : db.events.rows.Pairwise fun a b => a.id < b.id := List.pairwise_map.mp db.events.ascending
  refine (hrows.filter _).imp fun {a b} hlt key hkey key' hkey' => ?_
  obtain ⟨answer, hsource, -⟩ := needs_eq_some.mp hkey
  obtain ⟨answer', hsource', -⟩ := needs_eq_some.mp hkey'
  obtain ⟨-, -, -, -, hid, -⟩ := sourceOf_eq hsource
  obtain ⟨-, -, -, -, hid', -⟩ := sourceOf_eq hsource'
  rw [hid, hid']
  exact Int.ofNat_lt.mpr hlt

theorem nodup (h : Found setting db keys scan collected) : keys.Nodup :=
  h.ascending.imp fun hlt heq => absurd (congrArg SourceKey.sourceId heq) (Int.ne_of_lt hlt)

/-- Sorting them changes nothing. -/
theorem sorted (h : Found setting db keys scan collected) :
    keys.mergeSort (fun a b => decide (a.sourceId ≤ b.sourceId)) = keys :=
  List.mergeSort_of_pairwise (h.ascending.imp fun hlt => decide_eq_true (Int.le_of_lt hlt))

theorem positive (h : Found setting db keys scan collected) {key : SourceKey} (hkey : key ∈ keys) :
    0 < key.sourceId := by
  obtain ⟨row, hrow, hcandidate, hneeds⟩ := h.row_of_mem hkey
  obtain ⟨answer, hsource, -⟩ := needs_eq_some.mp hneeds
  have hpositive := h.added.positive rfl row (List.mem_filter.mpr ⟨hrow, hcandidate⟩)
    (by rw [hsource]; exact Option.some_ne_none _)
  obtain ⟨-, -, -, -, hid, -⟩ := sourceOf_eq hsource
  rw [hid]
  exact Int.natCast_pos.mpr hpositive

theorem utf8ByteSize_reserved : reservedTimestamp.utf8ByteSize = 20 := by decide

/-- **A marker is made for every source.** -/
theorem marked (h : Found setting db keys scan collected) : ∀ key ∈ keys, ∃ createdAt answer,
    markerFor setting db key = some (key.executionId, key.sessionId, markerOf key createdAt answer) := by
  intro key hkey
  obtain ⟨row, hrow, hcandidate, hneeds⟩ := h.row_of_mem hkey
  obtain ⟨answer, hsource, hyields, -⟩ := needs_eq_some.mp hneeds
  obtain ⟨role, parts, hparts, hanswer, hid, -⟩ := sourceOf_eq hsource
  have hrepresentable := h.added.representable row (List.mem_filter.mpr ⟨hrow, hcandidate⟩) key hneeds
  have hfound : Chunked.sourceRow db key.sourceId = some row := by
    unfold Chunked.sourceRow
    obtain ⟨front, back, hsplit⟩ := List.append_of_mem hrow
    have hascending : db.events.rows.Pairwise fun a b => a.id < b.id := List.pairwise_map.mp db.events.ascending
    rw [hsplit] at hascending ⊢
    rw [List.find?_append, List.find?_eq_none.mpr, Option.none_or, List.find?_cons_of_pos]
    · exact decide_eq_true hid.symm
    · intro r hr
      have hlt := (List.pairwise_append.mp hascending).2.2 r hr row List.mem_cons_self
      rw [decide_eq_true_eq, hid]
      omega
  -- the marker fits, for its timestamp is as long as the reserved one
  have hlength : (rfc3339 row.createdAt).length = 20 := by
    unfold resolvedAtIsRepresentable at hrepresentable
    rw [Bool.and_eq_true, decide_eq_true_eq, length_of_plain (plain_rfc3339 _)] at hrepresentable
    exact hrepresentable.1.trans utf8ByteSize_reserved
  have hfits := backfilled_fits (plain_rfc3339 row.createdAt) hlength (hid ▸ hyields)
  rw [markerFits_iff] at hfits
  have hsmall : ¬markerSerializedCapBytes < (stored (markerOf key (rfc3339 row.createdAt) answer)).utf8ByteSize := by
    rw [markerOf_eq, stored_marker]
    exact Nat.not_lt.mpr hfits
  refine ⟨rfc3339 row.createdAt, answer, Option.bind_eq_some_iff.mpr ⟨row, hfound, ?_⟩⟩
  dsimp only
  rw [if_pos hrepresentable]
  refine Option.bind_eq_some_iff.mpr ⟨(role, parts), hparts, ?_⟩
  refine Option.bind_eq_some_iff.mpr ⟨(key.batchId, answer), hanswer, ?_⟩
  dsimp only
  rw [if_neg hsmall]

theorem allMarked (h : Found setting db keys scan collected) : AllMarked setting db keys := fun key hkey =>
  let ⟨_, _, hmarker⟩ := h.marked key hkey
  ⟨_, hmarker⟩

/-- The rows of the markers are markers of the sources. -/
theorem isMarker (h : Found setting db keys scan collected) (hids : ∀ key ∈ keys, key.sourceId ≤ maxRowId)
    (id : Nat) : List.Forall₂ IsMarker keys (markerRows now id (keys.filterMap (markerFor setting db))) := by
  have hall : ∀ (l : List SourceKey) (id : Nat), (∀ key ∈ l, key ∈ keys) →
      List.Forall₂ IsMarker l (markerRows now id (l.filterMap (markerFor setting db))) := by
    intro l
    induction l with
    | nil => exact fun _ _ => .nil
    | cons key l ih =>
        intro id hl
        have hkey := hl key List.mem_cons_self
        obtain ⟨createdAt, answer, hmarker⟩ := h.marked key hkey
        rw [List.filterMap_cons_some hmarker]
        refine .cons ⟨rfl, rfl, rfl, ⟨createdAt, answer, rfl⟩, h.positive hkey, hids key hkey⟩ ?_
        exact ih (id + 1) fun key' hkey' => hl key' (List.mem_cons_of_mem _ hkey')
  exact hall keys id fun _ hkey => hkey

end Found

/-! ## The backfill as a whole -/

/-- What a backfill comes to, given what is collected: all markers are inserted at once. -/
def inOneGo (setting : Setting) (now : Timestamp) (db : Db) (keys : List SourceKey) (stats : BackfillStats) :
    Except Abort (Db × BackfillStats) :=
  let markers := keys.filterMap (markerFor setting db)
  if Fits db markers then
    .ok (pushMarkers now markers db, { stats with markersSynthesized := stats.markersSynthesized + markers.length })
  else .error .insertFailed

/-- The flush behind the loop. -/
def finish (now : Timestamp) (written : Writing) : Except Abort (Db × BackfillStats) :=
  if written.insertBuf.isEmpty then .ok (written.db, written.stats)
  else do
    let flushed ← written.flush now
    .ok (flushed.db, flushed.stats)

/-- **The last flush.** -/
theorem Progress.finish {r : Except Abort Writing}
    (h : Progress now db stats (keys.filterMap (markerFor setting db)) r) :
    r >>= Backfill.finish now = inOneGo setting now db keys stats := by
  unfold inOneGo
  generalize keys.filterMap (markerFor setting db) = markers at h ⊢
  cases r with
  | error e =>
      obtain ⟨rfl, hno⟩ := h
      dsimp only
      rw [if_neg hno]
      rfl
  | ok w =>
      have h : Wrote now db stats markers w := h
      show Backfill.finish now w = _
      unfold Backfill.finish
      by_cases hempty : w.insertBuf.isEmpty = true
      · obtain ⟨flushed, hsplit, hdb, hflushed⟩ := h.split
        rw [List.isEmpty_iff.mp hempty, List.append_nil] at hsplit
        subst hsplit
        rw [if_pos hempty, if_pos hflushed, hdb, h.stats]
      · rw [if_neg hempty, h.flush fun hnil => hempty (List.isEmpty_iff.mpr hnil)]
        by_cases hall : Fits db markers
        · rw [if_pos hall, if_pos hall]
          show Except.ok (_, w.stats) = _
          rw [h.stats]
        · rw [if_neg hall, if_neg hall]
          rfl

theorem wrote_nothing (now : Timestamp) (db : Db) (stats : BackfillStats) :
    Wrote now db stats [] ⟨db, [], 0, stats⟩ := ⟨⟨[], rfl, rfl, .inl rfl⟩, rfl⟩

/-- **The backfill is one insert of all markers**, in chunks of any size. -/
theorem runBackfill_eq (setting : Setting) (now : Timestamp) (db : Db) {sizes : ChunkSizes}
    (hsizes : 0 < sizes.readRows) :
    Chunked.runBackfill sizes setting now db =
      (collectUncoveredSources setting true db >>= fun found => inOneGo setting now db found.1 found.2) := by
  unfold Chunked.runBackfill
  cases hcollect : collectUncoveredSources setting true db with
  | error e => rfl
  | ok found =>
      obtain ⟨keys, stats⟩ := found
      obtain ⟨scan, collected, hfound, -⟩ := collect_found hcollect
      have hall : Progress now db stats ([] ++ keys.filterMap (markerFor setting db))
          (Chunked.writeChunks sizes setting now keys.length keys ⟨db, [], 0, stats⟩) :=
        (wrote_nothing now db stats).chunks hsizes hfound.allMarked (Nat.le_refl _)
      rw [List.nil_append] at hall
      show (Chunked.writeChunks sizes setting now (keys.mergeSort _).length (keys.mergeSort _) _ >>= _) = _
      rw [hfound.sorted]
      exact hall.finish

theorem runBackfill0024_eq (setting : Setting) (now : Timestamp) (db : Db) : runBackfill0024 setting now db =
    (collectUncoveredSources setting true db >>= fun found => inOneGo setting now db found.1 found.2) := by
  unfold runBackfill0024
  cases hcollect : collectUncoveredSources setting true db with
  | error e => rfl
  | ok found =>
      obtain ⟨keys, stats⟩ := found
      obtain ⟨scan, collected, hfound, -⟩ := collect_found hcollect
      have hall := (wrote_nothing now db stats).sources hfound.allMarked
      rw [List.nil_append] at hall
      show ((keys.mergeSort _).foldlM (Backfill.writeSource setting now) _ >>= _) = _
      rw [hfound.sorted]
      exact hall.finish

/-- The owner that an event names for a batch. -/
def ownerIn (db : Db) (batchId : String) (row : EventRow) : Option (ExecutionId × SessionId) := do
  let sessionId ← row.sessionId
  if coherent db row.executionId sessionId ∧ (escalateParts row.payload).any fun part => part.batchId = batchId then
    some (row.executionId, sessionId)
  else none

/-- The owner of a batch: the first escalation counts. -/
def ownerOf (db : Db) (batchId : String) : Option (ExecutionId × SessionId) :=
  (db.events.rows.filter fun row => row.eventType = .platform).findSome? (ownerIn db batchId)

/-- A message of the user answers the batch of the key, and its owner is that of the key. -/
def IsSource (setting : Setting) (db : Db) (key : SourceKey) (answer : Option String) (row : EventRow) : Prop :=
  isCandidateMessage setting row = true ∧ (row.id : Int) = key.sourceId ∧
    ownerOf db key.batchId = some (key.executionId, key.sessionId) ∧
    ∃ role parts, parseRoleAndParts row.payload = some (role, parts) ∧
      historicalAnswerSourceRef role parts = some (key.batchId, answer)

/-- No event is a marker of the source. -/
def IsUncovered (db : Db) (key : SourceKey) : Prop :=
  ∀ row ∈ db.events.rows, row.eventType = .platform → key ∉ coveredBy row

/-- A source that has no marker, and whose answer allows one. -/
def LacksMarker (setting : Setting) (db : Db) (key : SourceKey) : Prop :=
  ∃ row ∈ db.events.rows, ∃ answer, IsSource setting db key answer row ∧
    sourceYieldsNoMarker key.batchId key.sourceId answer = false ∧ IsUncovered db key

/-- How often the rows mark the source. -/
def markersOf (rows : List EventRow) (key : SourceKey) : Nat := (rows.flatMap coveredBy).count key

/-! ### What the scan of the platform events knows -/

theorem ownBatch_owner {executionId : ExecutionId} {sessionId : SessionId} {scan scan' : Scan} {part : EscalatePart}
    (batchId : String) (h : ownBatch setting executionId sessionId scan part = .ok scan') :
    scan'.ownerMap.lookup batchId = (scan.ownerMap.lookup batchId).or
      (if part.batchId = batchId then some (executionId, sessionId) else none) := by
  unfold ownBatch at h
  split at h
  · rename_i hknown
    obtain rfl := Except.ok.inj h
    by_cases hsame : part.batchId = batchId
    · subst hsame
      obtain ⟨owner, howner, hbatch⟩ := List.any_eq_true.mp hknown
      cases hlookup : scan.ownerMap.lookup part.batchId with
      | none =>
          have := List.lookup_eq_none_iff.mp hlookup owner howner
          simp_all
      | some found => rfl
    · rw [if_neg hsame, Option.or_none]
  · obtain ⟨retained, -, h⟩ := bind_ok h
    rw [← Except.ok.inj h]
    dsimp only
    rw [List.lookup_append]
    congr 1
    by_cases hsame : part.batchId = batchId
    · rw [if_pos hsame, ← hsame]
      exact List.lookup_cons_self
    · rw [if_neg hsame, List.lookup_cons, beq_eq_false_iff_ne.mpr (Ne.symm hsame)]
      rfl

theorem ownBatches_owner {sessionId : SessionId} {scan scan' : Scan} {row : EventRow} (batchId : String)
    (hsession : row.sessionId = some sessionId) (h : ownBatches setting flag db scan row sessionId = .ok scan') :
    scan'.ownerMap.lookup batchId = (scan.ownerMap.lookup batchId).or (ownerIn db batchId row) := by
  unfold ownBatches at h
  unfold ownerIn
  rw [hsession, Option.bind_eq_bind, Option.bind_some]
  split at h
  · rename_i hcoherent
    rw [hcoherent]
    split at h
    · cases h
    · simp only [true_and]
      generalize escalateParts row.payload = parts at h ⊢
      induction parts generalizing scan with
      | nil =>
          obtain rfl := Except.ok.inj h
          simp
      | cons part parts ih =>
          rw [List.foldlM_cons] at h
          obtain ⟨middle, hfirst, h⟩ := bind_ok h
          rw [ih h, ownBatch_owner batchId hfirst, Option.or_assoc, List.any_cons]
          by_cases hsame : part.batchId = batchId <;> simp [hsame]
  · rename_i hcoherent
    obtain rfl := Except.ok.inj h
    simp [hcoherent]

theorem scanPlatformRow_owner {scan scan' : Scan} {row : EventRow} (batchId : String)
    (h : scanPlatformRow setting flag db scan row = .ok scan') :
    scan'.ownerMap.lookup batchId = (scan.ownerMap.lookup batchId).or (ownerIn db batchId row) := by
  unfold scanPlatformRow at h
  cases hsession : row.sessionId with
  | none =>
      rw [hsession] at h
      obtain rfl := Except.ok.inj h
      simp [ownerIn, hsession]
  | some sessionId =>
      rw [hsession] at h
      obtain ⟨owned, howned, h⟩ := bind_ok h
      rw [← ownBatches_owner batchId hsession howned]
      split at h
      · refine foldlM_keeps (I := fun s => s.ownerMap.lookup batchId = owned.ownerMap.lookup batchId) h rfl
          fun s candidate s' _ hsame hstep => ?_
        rw [coverSource_owners hstep, hsame]
      · rw [← Except.ok.inj h]

/-- **The owners** are those of the first escalations. -/
theorem Found.owner {scan : Scan} {collected : Collected} (h : Found setting db keys scan collected)
    (batchId : String) : scan.ownerMap.lookup batchId = ownerOf db batchId := by
  have hall : ∀ (rows : List EventRow) (s s' : Scan), rows.foldlM (scanPlatformRow setting true db) s = .ok s' →
      s'.ownerMap.lookup batchId = (s.ownerMap.lookup batchId).or (rows.findSome? (ownerIn db batchId)) := by
    intro rows
    induction rows with
    | nil =>
        intro s s' hrun
        obtain rfl := Except.ok.inj hrun
        simp
    | cons row rows ih =>
        intro s s' hrun
        rw [List.foldlM_cons] at hrun
        obtain ⟨middle, hfirst, hrun⟩ := bind_ok hrun
        rw [ih middle s' hrun, scanPlatformRow_owner batchId hfirst, Option.or_assoc, List.findSome?_cons]
        cases ownerIn db batchId row <;> rfl
  exact hall _ _ _ h.platform

/-- **The sources with a marker** are those that some event covers. -/
theorem Found.existing {scan : Scan} {collected : Collected} (h : Found setting db keys scan collected)
    (key : SourceKey) : key ∉ scan.existing ↔ IsUncovered db key := by
  have hadds := foldlM_adds (P := fun s : Scan => key ∈ s.existing) (Q := fun row => key ∈ coveredBy row) h.platform
    fun s row s' hstep => scanPlatformRow_existing hstep key
  rw [hadds]
  unfold IsUncovered
  simp only [List.mem_filter, decide_eq_true_eq, List.not_mem_nil, false_or, not_exists, not_and, and_imp]

/-- **A source is collected** iff it lacks a marker. -/
theorem Found.mem_iff {scan : Scan} {collected : Collected} (h : Found setting db keys scan collected)
    (key : SourceKey) : key ∈ keys ↔ LacksMarker setting db key := by
  rw [h.keys_eq, List.mem_filterMap]
  unfold LacksMarker IsSource
  constructor
  · rintro ⟨row, hrow, hneeds⟩
    obtain ⟨hmem, hcandidate⟩ := List.mem_filter.mp hrow
    obtain ⟨answer, hsource, hyields, hnew⟩ := needs_eq_some.mp hneeds
    obtain ⟨role, parts, hparts, hanswer, hid, howner⟩ := sourceOf_eq hsource
    refine ⟨row, hmem, answer, ⟨hcandidate, hid.symm, ?_, role, parts, hparts, hanswer⟩, ?_, (h.existing key).mp hnew⟩
    · rw [← h.owner, howner]
    · rw [hid]
      exact hyields
  · rintro ⟨row, hmem, answer, ⟨hcandidate, hid, howner, role, parts, hparts, hanswer⟩, hyields, hnew⟩
    refine ⟨row, List.mem_filter.mpr ⟨hmem, hcandidate⟩, needs_eq_some.mpr ⟨answer, ?_, ?_, (h.existing key).mpr hnew⟩⟩
    · refine Option.bind_eq_some_iff.mpr ⟨(role, parts), hparts, ?_⟩
      refine Option.bind_eq_some_iff.mpr ⟨(key.batchId, answer), hanswer, ?_⟩
      refine Option.bind_eq_some_iff.mpr ⟨(key.executionId, key.sessionId), (h.owner _).trans howner, ?_⟩
      show some (_, answer) = some (key, answer)
      rw [hid]
    · rw [hid]
      exact hyields

/-! ### The next collection -/

/-- What is kept stays within the cap. -/
theorem Found.scan_within {scan : Scan} {collected : Collected} (h : Found setting db keys scan collected) :
    scan.retained ≤ setting.cap := by
  refine foldlM_keeps (I := fun s : Scan => s.retained ≤ setting.cap) h.platform (Nat.zero_le _)
    fun s row s' _ hle hstep => ?_
  unfold scanPlatformRow at hstep
  split at hstep
  · rwa [← Except.ok.inj hstep]
  obtain ⟨owned, howned, hstep⟩ := bind_ok hstep
  have hown : owned.retained ≤ setting.cap := by
    unfold ownBatches at howned
    split at howned
    · split at howned
      · cases howned
      · refine foldlM_keeps (I := fun s : Scan => s.retained ≤ setting.cap) howned hle
          fun s part s' _ hle hstep => ?_
        unfold ownBatch at hstep
        split at hstep
        · rwa [← Except.ok.inj hstep]
        · obtain ⟨retained, hretained, hstep⟩ := bind_ok hstep
          rw [← Except.ok.inj hstep]
          exact (retain_ok hretained).2
    · rwa [← Except.ok.inj howned]
  split at hstep
  · refine foldlM_keeps (I := fun s : Scan => s.retained ≤ setting.cap) hstep hown fun s candidate s' _ hle hstep => ?_
    unfold coverSource at hstep
    split at hstep
    · rwa [← Except.ok.inj hstep]
    dsimp only at hstep
    split at hstep
    · rwa [← Except.ok.inj hstep]
    · obtain ⟨retained, hretained, hstep⟩ := bind_ok hstep
      rw [← Except.ok.inj hstep]
      exact (retain_ok hretained).2
  · rwa [← Except.ok.inj hstep]

theorem Found.markers_length {scan : Scan} {collected : Collected} (h : Found setting db keys scan collected) :
    (keys.filterMap (markerFor setting db)).length = keys.length := by
  have hall : ∀ l : List SourceKey, (∀ key ∈ l, key ∈ keys) →
      (l.filterMap (markerFor setting db)).length = l.length := by
    intro l
    induction l with
    | nil => exact fun _ => rfl
    | cons key l ih =>
        intro hl
        obtain ⟨createdAt, answer, hmarker⟩ := h.marked key (hl key List.mem_cons_self)
        rw [List.filterMap_cons_some hmarker, List.length_cons, List.length_cons]
        rw [ih fun key' hkey' => hl key' (List.mem_cons_of_mem _ hkey')]
  exact hall keys fun _ hkey => hkey

/-- The ids of the sources are within the key space if the markers are. -/
theorem Found.ids {scan : Scan} {collected : Collected} (h : Found setting db keys scan collected)
    (hfits : Fits db (keys.filterMap (markerFor setting db))) {key : SourceKey} (hkey : key ∈ keys) :
    key.sourceId ≤ maxRowId := by
  have hlength := h.markers_length
  have hkeys := List.length_pos_of_mem hkey
  rcases hfits with hnil | ⟨-, hnext⟩
  · rw [hnil] at hlength
    rw [List.length_nil] at hlength
    omega
  obtain ⟨row, hrow, -, hneeds⟩ := h.row_of_mem hkey
  obtain ⟨answer, hsource, -⟩ := needs_eq_some.mp hneeds
  obtain ⟨-, -, -, -, hid, -⟩ := sourceOf_eq hsource
  have hbound := db.events.bounded row hrow
  rw [hid]
  omega

theorem isMarker_of_mem {rows : List EventRow} {row : EventRow} (h : List.Forall₂ IsMarker keys rows)
    (hrow : row ∈ rows) : ∃ key ∈ keys, IsMarker key row := by
  induction h with
  | nil => cases hrow
  | @cons key row' keys rows hmarker _ ih =>
      rcases List.mem_cons.mp hrow with rfl | hmem
      · exact ⟨key, List.mem_cons_self, hmarker⟩
      · obtain ⟨key', hkey', hmarker'⟩ := ih hmem
        exact ⟨key', List.mem_cons_of_mem _ hkey', hmarker'⟩

/-- A marker covers its source, and nothing else. -/
theorem IsMarker.coveredBy_eq {key : SourceKey} {row : EventRow} (h : IsMarker key row) : coveredBy row = [key] :=
  let ⟨_, _, hpayload⟩ := h.payload
  coveredBy_marker h.execution h.session hpayload h.id

/-- What the scan knows behind the markers of the keys. -/
def Scan.covering (scan : Scan) (keys : List SourceKey) : Scan where
  retained := scan.retained + (keys.map keyCost).sum
  ownerMap := scan.ownerMap
  existing := scan.existing ++ keys

/-- **The next collection** finds every source covered. -/
theorem Found.next {scan : Scan} {collected : Collected} (h : Found setting db keys scan collected)
    (hfits : Fits db (keys.filterMap (markerFor setting db))) (flag : Bool) :
    ∃ stats, collectUncoveredSources setting flag
      (pushMarkers now (keys.filterMap (markerFor setting db)) db) = .ok ([], stats) := by
  obtain ⟨hrows, -, hsessions, -⟩ := pushMarkers_spec now (keys.filterMap (markerFor setting db)) db
  generalize pushMarkers now (keys.filterMap (markerFor setting db)) db = db' at hrows hsessions ⊢
  have hmarkers : List.Forall₂ IsMarker keys
      (markerRows now db.events.next (keys.filterMap (markerFor setting db))) :=
    h.isMarker (fun key hkey => h.ids hfits hkey) _
  have hretained : scan.retained + (keys.map keyCost).sum ≤ setting.cap := by
    have hwithin := h.added.within h.scan_within
    rw [h.added.retained, ← h.keys_eq] at hwithin
    exact hwithin
  have hnew : ∀ key ∈ keys, key ∉ scan.existing := by
    intro key hkey
    obtain ⟨row, -, -, hneeds⟩ := h.row_of_mem hkey
    obtain ⟨answer, -, -, hnew⟩ := needs_eq_some.mp hneeds
    exact hnew
  -- the old events are read as before, and every marker behind them covers its source
  have hold : scanPlatform setting flag db' db.events.rows ⟨0, [], []⟩ = .ok scan :=
    foldlM_transfer h.platform fun _ _ _ => scanPlatformRow_same hsessions
  have hplatform : (db'.events.rows.filter fun row => row.eventType = .platform).foldlM
      (scanPlatformRow setting flag db') ⟨0, [], []⟩ = .ok (scan.covering keys) := by
    rw [hrows, List.filter_append, List.foldlM_append]
    have hscan : scanPlatform setting flag db' (markerRows now db.events.next (keys.filterMap (markerFor setting db)))
        scan = .ok (scan.covering keys) := scan_markers hmarkers h.nodup hnew hretained
    unfold scanPlatform at hold hscan
    rw [hold]
    exact hscan
  have hmessages : db'.events.rows.filter (isCandidateMessage setting) =
      db.events.rows.filter (isCandidateMessage setting) := by
    have hnone : (markerRows now db.events.next (keys.filterMap (markerFor setting db))).filter
        (isCandidateMessage setting) = [] := by
      refine List.filter_eq_nil_iff.mpr fun row hrow hcandidate => ?_
      obtain ⟨key, -, hmarker⟩ := isMarker_of_mem hmarkers hrow
      unfold isCandidateMessage at hcandidate
      rw [hmarker.platform] at hcandidate
      simp at hcandidate
    rw [hrows, List.filter_append, hnone, List.append_nil]
  obtain ⟨collected', hcollected, huncovered⟩ : ∃ collected',
      (db.events.rows.filter (isCandidateMessage setting)).foldlM
        (scanMessageRow setting flag (scan.covering keys)) ⟨(scan.covering keys).retained, [], ⟨0, 0, 0, 0⟩⟩ =
        .ok collected' ∧ collected'.uncovered = [] := scanMessages_none
    (fun _ row hrow hsource => h.added.positive rfl row hrow hsource)
    (fun row hrow => by
      refine Option.eq_none_iff_forall_ne_some.mpr fun key hneeds => ?_
      obtain ⟨answer, hsource, hyields, hcovered⟩ := needs_eq_some.mp hneeds
      have hneither : key ∉ scan.existing ∧ key ∉ keys := not_or.mp (List.mem_append.not.mp hcovered)
      refine hneither.2 ?_
      rw [h.keys_eq]
      exact List.mem_filterMap.mpr ⟨row, hrow, needs_eq_some.mpr ⟨answer, hsource, hyields, hneither.1⟩⟩)
  refine ⟨collected'.stats, ?_⟩
  unfold collectUncoveredSources
  rw [hplatform]
  dsimp only [bind, Except.bind]
  rw [hmessages, hcollected]
  dsimp only
  rw [huncovered]

/-- **The new rows** mark every source once. -/
theorem Found.markersOf_new {scan : Scan} {collected : Collected} (h : Found setting db keys scan collected)
    (hfits : Fits db (keys.filterMap (markerFor setting db))) (id : Nat) (key : SourceKey) :
    markersOf (markerRows now id (keys.filterMap (markerFor setting db))) key = keys.count key := by
  have hall : ∀ {l : List SourceKey} {rows : List EventRow}, List.Forall₂ IsMarker l rows →
      rows.flatMap coveredBy = l := by
    intro l rows hl
    induction hl with
    | nil => rfl
    | @cons k row l rows hmarker _ ih =>
        rw [List.flatMap_cons, ih, hmarker.coveredBy_eq]
        rfl
  unfold markersOf
  rw [hall (h.isMarker (fun key hkey => h.ids hfits hkey) id)]

/-- **The backfill is complete and idempotent.** A run that succeeds leaves no source uncovered; it adds one marker
for each source that lacked one, and no other; a second run adds nothing; the chunks do not matter. -/
theorem backfill_complete {db' : Db} (h : runBackfill0024 setting now db = .ok (db', stats)) :
    (∀ flag, ∃ stats', collectUncoveredSources setting flag db' = .ok ([], stats')) ∧
      (∃ added, db'.events.rows = db.events.rows ++ added ∧
        (∀ row ∈ added, row.eventType = .platform ∧ ∃ key, LacksMarker setting db key ∧ coveredBy row = [key]) ∧
        ∀ key, (LacksMarker setting db key → markersOf added key = 1) ∧
          (¬LacksMarker setting db key → markersOf added key = 0)) ∧
      (∀ now', ∃ stats', runBackfill0024 setting now' db' = .ok (db', stats')) ∧
      ∀ sizes : ChunkSizes, 0 < sizes.readRows → Chunked.runBackfill sizes setting now db = .ok (db', stats) := by
  have hchunks : ∀ sizes : ChunkSizes, 0 < sizes.readRows →
      Chunked.runBackfill sizes setting now db = .ok (db', stats) := fun sizes hsizes => by
    rw [runBackfill_eq setting now db hsizes, ← runBackfill0024_eq, h]
  rw [runBackfill0024_eq] at h
  obtain ⟨⟨keys, collectedStats⟩, hcollect, h⟩ := bind_ok h
  obtain ⟨scan, collected, hfound, -⟩ := collect_found hcollect
  unfold inOneGo at h
  dsimp only at h
  split at h
  swap
  · cases h
  rename_i hfits
  obtain ⟨rfl, -⟩ := Prod.mk.inj (Except.ok.inj h)
  have hmarkers : List.Forall₂ IsMarker keys
      (markerRows now db.events.next (keys.filterMap (markerFor setting db))) :=
    hfound.isMarker (fun key hkey => hfound.ids hfits hkey) _
  refine ⟨hfound.next hfits, ⟨_, (pushMarkers_spec now _ db).1, fun row hrow => ?_, fun key => ⟨fun hlacks => ?_,
    fun hlacks => ?_⟩⟩, fun now' => ?_, hchunks⟩
  · obtain ⟨key, hkey, hmarker⟩ := isMarker_of_mem hmarkers hrow
    exact ⟨hmarker.platform, key, (hfound.mem_iff key).mp hkey, hmarker.coveredBy_eq⟩
  · rw [hfound.markersOf_new hfits]
    exact List.count_eq_one_of_mem hfound.nodup ((hfound.mem_iff key).mpr hlacks)
  · rw [hfound.markersOf_new hfits]
    exact List.count_eq_zero_of_not_mem fun hmem => hlacks ((hfound.mem_iff key).mp hmem)
  · obtain ⟨stats', hnext⟩ : ∃ stats', collectUncoveredSources setting true
        (pushMarkers now (keys.filterMap (markerFor setting db)) db) = .ok ([], stats') := hfound.next hfits true
    refine ⟨stats', ?_⟩
    rw [runBackfill0024_eq, hnext]
    rfl

def askingRoot : Session := newSession "s" "e" "a" none none none none "r" none "" 1

def askingExecution : Execution where
  id := "e"
  projectId := none
  title := none
  desired := .run
  outcome := none
  maxDepth := 2
  maxWidth := 5
  sandboxPolicy := ""
  createdAt := 1
  lastActivityAt := 1

/-- A question, and its answer as a plain message. -/
def answeredLog : Db :=
  let db := { Db.empty with
    executions := (Table.empty.insert? askingExecution).getD .empty
    sessions := (Table.empty.insert? askingRoot).getD .empty }
  let asked := db.pushEvent "e" (some "s") .platform
    (.obj [("role", .str roleAgent), ("parts", .arr [Json.dataPart (.obj
      [("type", .str escalateType), ("batch_id", .str "b")])])]) none 1
  asked.pushEvent "e" none .message
    (.obj [("role", .str roleUser), ("parts", .arr [Json.dataPart (.obj
      [("type", .str answerType), ("batch_id", .str "b")])])]) none 2

/-- A setting with room for the keys. -/
def roomySetting : Setting := ⟨1000, .exact, fun _ => true⟩

theorem backfill_complete_answeredLog : ∃ db' stats, runBackfill0024 roomySetting 3 answeredLog = .ok (db', stats) ∧
    stats.markersSynthesized = 1 ∧ (∃ stats', collectUncoveredSources roomySetting false db' = .ok ([], stats')) ∧
    (∀ now', ∃ stats', runBackfill0024 roomySetting now' db' = .ok (db', stats')) ∧
    Chunked.runBackfill .code roomySetting 3 answeredLog = .ok (db', stats) := by
  have hruns : ((runBackfill0024 roomySetting 3 answeredLog).toOption.any
      fun r => r.2.markersSynthesized = 1) = true := by decide +kernel
  rw [Option.any_eq_true] at hruns
  obtain ⟨⟨db', stats⟩, hsome, hone⟩ := hruns
  have hrun := eq_ok_of_toOption hsome
  obtain ⟨hnext, -, hagain, hchunks⟩ := backfill_complete hrun
  exact ⟨db', stats, hrun, of_decide_eq_true hone, hnext false, hagain, hchunks _ (by decide)⟩

end Collect

end Backfill

end AgentBeacon
