import AgentBeacon.Correctness.FittedAnswer
import AgentBeacon.Db.Backfill

/-!
# `Correctness.BackfillScan` — what the two scans of a backfill find

The scan of the platform events knows a source as covered exactly if some event is its marker, and a marker that the
backfill has written is read back as that of its source. The scan of the messages adds each source that needs a marker,
and keeps the bytes of its key.
-/

namespace AgentBeacon
open Json Relational Resolution

namespace Backfill

/-! ## What the scan of the platform events finds -/

section Scan

variable {setting : Setting} {flag : Bool} {db db' : Db} {scan scan' : Scan} {row : EventRow}

/-- The bytes that a source or a marker keeps. -/
def keyCost (key : SourceKey) : Nat :=
  key.executionId.utf8ByteSize + key.sessionId.utf8ByteSize + key.batchId.utf8ByteSize + 8 + perEntryOverhead

/-- The source that a candidate is a marker of. -/
def coveredKey (executionId : ExecutionId) (sessionId : SessionId) (candidate : ResolutionCandidate) :
    Option SourceKey :=
  candidate.embeddedResolvedEventId.map fun id => ⟨executionId, sessionId, candidate.batchId, id⟩

/-- The sources that a platform event is a marker of. -/
def coveredBy (row : EventRow) : List SourceKey :=
  match row.sessionId, parseParts row.payload with
  | some sessionId, some parts =>
      (resolutionCandidates parts row.id).filterMap (coveredKey row.executionId sessionId)
  | _, _ => []

/-- A marker covers its source. -/
theorem coverSource_existing {executionId : ExecutionId} {sessionId : SessionId} {candidate : ResolutionCandidate}
    (h : coverSource setting executionId sessionId scan candidate = .ok scan') (key : SourceKey) :
    key ∈ scan'.existing ↔ key ∈ scan.existing ∨ coveredKey executionId sessionId candidate = some key := by
  unfold coverSource at h
  unfold coveredKey
  cases hid : candidate.embeddedResolvedEventId with
  | none =>
      rw [hid] at h
      obtain rfl := Except.ok.inj h
      simp
  | some id =>
      rw [hid] at h
      dsimp only at h
      split at h
      · rename_i hknown
        obtain rfl := Except.ok.inj h
        refine ⟨.inl, fun hor => hor.elim (fun h => h) fun heq => ?_⟩
        obtain rfl := Option.some.inj heq
        exact List.contains_iff_mem.mp hknown
      · obtain ⟨retained, -, h⟩ := bind_ok h
        obtain rfl := Except.ok.inj h
        simp only [List.mem_append, List.mem_singleton, Option.map_some, Option.some.injEq]
        exact or_congr Iff.rfl eq_comm

/-- What one element adds, a list adds. -/
theorem foldlM_adds {α σ ε : Type} {f : σ → α → Except ε σ} {P : σ → Prop} {Q : α → Prop} {l : List α} {s s' : σ}
    (hrun : l.foldlM f s = .ok s') (hstep : ∀ s a s', f s a = .ok s' → (P s' ↔ P s ∨ Q a)) :
    P s' ↔ P s ∨ ∃ a ∈ l, Q a := by
  induction l generalizing s with
  | nil =>
      obtain rfl : s = s' := Except.ok.inj hrun
      simp
  | cons a l ih =>
      rw [List.foldlM_cons] at hrun
      obtain ⟨middle, hfirst, hrun⟩ := bind_ok hrun
      rw [ih hrun, hstep s a middle hfirst]
      simp only [List.mem_cons, exists_eq_or_imp, or_assoc]

/-- Where every step that succeeds does the same, a loop that succeeds does. -/
theorem foldlM_transfer {α σ ε : Type} {f g : σ → α → Except ε σ} {l : List α} {s s' : σ}
    (hrun : l.foldlM f s = .ok s') (hstep : ∀ s a s', f s a = .ok s' → g s a = .ok s') : l.foldlM g s = .ok s' := by
  induction l generalizing s with
  | nil => exact hrun
  | cons a l ih =>
      rw [List.foldlM_cons] at hrun ⊢
      obtain ⟨middle, hfirst, hrun⟩ := bind_ok hrun
      rw [hstep s a middle hfirst]
      exact ih hrun

theorem ownBatch_existing {executionId : ExecutionId} {sessionId : SessionId} {part : EscalatePart}
    (h : ownBatch setting executionId sessionId scan part = .ok scan') : scan'.existing = scan.existing := by
  unfold ownBatch at h
  split at h
  · rw [← Except.ok.inj h]
  · obtain ⟨retained, -, h⟩ := bind_ok h
    rw [← Except.ok.inj h]

theorem ownBatches_existing {sessionId : SessionId} (h : ownBatches setting flag db scan row sessionId = .ok scan') :
    scan'.existing = scan.existing := by
  unfold ownBatches at h
  split at h
  · split at h
    · cases h
    · refine foldlM_keeps (I := fun s => s.existing = scan.existing) h rfl fun s part s' _ hsame hstep => ?_
      rw [ownBatch_existing hstep, hsame]
  · rw [← Except.ok.inj h]

/-- **The sources with a marker** are those that the events cover. -/
theorem scanPlatformRow_existing (h : scanPlatformRow setting flag db scan row = .ok scan') (key : SourceKey) :
    key ∈ scan'.existing ↔ key ∈ scan.existing ∨ key ∈ coveredBy row := by
  unfold scanPlatformRow at h
  unfold coveredBy
  cases hsession : row.sessionId with
  | none =>
      rw [hsession] at h
      obtain rfl := Except.ok.inj h
      simp
  | some sessionId =>
      rw [hsession] at h
      obtain ⟨owned, howned, h⟩ := bind_ok h
      rw [← ownBatches_existing howned]
      cases hparts : parseParts row.payload with
      | none =>
          rw [hparts] at h
          obtain rfl := Except.ok.inj h
          simp
      | some parts =>
          rw [hparts] at h
          have hcovers := foldlM_adds (P := fun s : Scan => key ∈ s.existing) h fun s candidate s' hstep =>
            coverSource_existing hstep key
          dsimp only
          rw [hcovers, List.mem_filterMap]

/-- The check of ids only makes it fail, and of the database only the sessions count. -/
theorem scanPlatformRow_same (hsessions : db'.sessions = db.sessions)
    (h : scanPlatformRow setting true db scan row = .ok scan') :
    scanPlatformRow setting flag db' scan row = .ok scan' := by
  have hcoherent : ∀ sessionId, coherent db' row.executionId sessionId = coherent db row.executionId sessionId := by
    intro sessionId
    unfold coherent Db.session?
    rw [hsessions]
  have hown : ∀ sessionId owned, ownBatches setting true db scan row sessionId = .ok owned →
      ownBatches setting flag db' scan row sessionId = .ok owned := by
    intro sessionId owned howned
    unfold ownBatches at howned ⊢
    rw [hcoherent]
    split at howned
    · rename_i hyes
      rw [if_pos hyes]
      split at howned
      · cases howned
      · rename_i hpositive
        rw [if_neg fun hbad => hpositive ⟨rfl, hbad.2⟩]
        exact howned
    · rename_i hno
      rw [if_neg hno]
      exact howned
  unfold scanPlatformRow at h ⊢
  cases hsession : row.sessionId with
  | none =>
      rw [hsession] at h
      exact h
  | some sessionId =>
      rw [hsession] at h
      obtain ⟨owned, howned, h⟩ := bind_ok h
      dsimp only
      rw [hown sessionId owned howned]
      exact h

/-- The scan of the platform events. -/
def scanPlatform (setting : Setting) (flag : Bool) (db : Db) (rows : List EventRow) (scan : Scan) : Except Abort Scan :=
  (rows.filter fun row => row.eventType = .platform).foldlM (scanPlatformRow setting flag db) scan

end Scan

/-! ## A marker is read back -/

section Marker

variable {key : SourceKey} {createdAt : String} {answer : Option String}

/-- A text and a flag make the marker of every source. -/
theorem markerOf_eq (key : SourceKey) (createdAt : String) (answer : Option String) :
    markerOf key createdAt answer = markerPayload key.batchId none key.sourceId createdAt
      (backfilledText key.batchId key.sourceId createdAt answer).1
      (backfilledText key.batchId key.sourceId createdAt answer).2 := by
  cases answer with
  | none => rfl
  | some text => rfl

theorem parseParts_marker (batchId : String) (sourceId : Int) (createdAt : String) (text : Option String)
    (truncated : Bool) : parseParts (markerPayload batchId none sourceId createdAt text truncated) =
      some [Json.dataPart (markerData batchId none sourceId createdAt text truncated)] := rfl

/-- It carries no escalation. -/
theorem escalateParts_marker (batchId : String) (sourceId : Int) (createdAt : String) (text : Option String)
    (truncated : Bool) : escalateParts (markerPayload batchId none sourceId createdAt text truncated) = [] := rfl

/-- **It is read back as the marker of its source.** -/
theorem candidates_marker (hid : 0 < key.sourceId ∧ key.sourceId ≤ maxRowId) (createdAt : String)
    (answer : Option String) (id : Int) : ∃ parts candidate,
      parseParts (markerOf key createdAt answer) = some parts ∧ resolutionCandidates parts id = [candidate] ∧
        candidate.batchId = key.batchId ∧ candidate.embeddedResolvedEventId = some key.sourceId := by
  have hread : (Json.int key.sourceId).asI64 = some key.sourceId := by
    have hle : key.sourceId ≤ 9223372036854775807 := hid.2
    show (if _ then _ else _) = _
    rw [if_pos ⟨by omega, hle⟩]
  have hembedded : ∀ (text : Option String) (truncated : Bool),
      embeddedResolvedEventId (markerData key.batchId none key.sourceId createdAt text truncated) =
        some key.sourceId := by
    intro text truncated
    show ((Json.int key.sourceId).asI64).filter _ = _
    rw [hread, Option.filter_some, if_pos (by simpa using hid.1)]
  rw [markerOf_eq]
  exact ⟨_, _, parseParts_marker _ _ _ _ _, rfl, rfl, hembedded _ _⟩

theorem coveredBy_marker {row : EventRow} (hexecution : row.executionId = key.executionId)
    (hsession : row.sessionId = some key.sessionId) (hpayload : row.payload = markerOf key createdAt answer)
    (hid : 0 < key.sourceId ∧ key.sourceId ≤ maxRowId) : coveredBy row = [key] := by
  obtain ⟨parts, candidate, hparts, hcandidates, hbatch, hsource⟩ := candidates_marker hid createdAt answer row.id
  unfold coveredBy
  rw [hsession, hpayload, hparts, hexecution]
  dsimp only
  rw [hcandidates]
  unfold coveredKey
  simp [hsource, hbatch]

/-- A row of the log that is the marker of a source. -/
structure IsMarker (key : SourceKey) (row : EventRow) : Prop where
  platform : row.eventType = .platform
  execution : row.executionId = key.executionId
  session : row.sessionId = some key.sessionId
  payload : ∃ createdAt answer, row.payload = markerOf key createdAt answer
  id : 0 < key.sourceId ∧ key.sourceId ≤ maxRowId

/-- **The scan of a marker** finds its source covered. -/
theorem scan_marker {setting : Setting} {flag : Bool} {db : Db} {scan : Scan} {row : EventRow}
    (h : IsMarker key row) (hnew : key ∉ scan.existing) (hcap : scan.retained + keyCost key ≤ setting.cap) :
    scanPlatformRow setting flag db scan row =
      .ok { scan with retained := scan.retained + keyCost key, existing := scan.existing ++ [key] } := by
  obtain ⟨createdAt, answer, hpayload⟩ := h.payload
  obtain ⟨parts, candidate, hparts, hcandidates, hbatch, hsource⟩ := candidates_marker h.id createdAt answer row.id
  have hescalates : escalateParts row.payload = [] := by
    rw [hpayload, markerOf_eq]
    exact escalateParts_marker _ _ _ _ _
  have howned : ownBatches setting flag db scan row key.sessionId = .ok scan := by
    unfold ownBatches
    rw [hescalates]
    split
    · rw [if_neg fun hbad => hbad.2.1 rfl]
      rfl
    · rfl
  unfold scanPlatformRow
  rw [h.session]
  dsimp only
  rw [howned, hpayload]
  dsimp only [bind, Except.bind]
  rw [hparts]
  dsimp only
  rw [hcandidates, List.foldlM_cons]
  have hcover : coverSource setting row.executionId key.sessionId scan candidate =
      .ok { scan with retained := scan.retained + keyCost key, existing := scan.existing ++ [key] } := by
    unfold coverSource
    rw [hsource, hbatch, h.execution]
    dsimp only
    rw [if_neg (by simpa using hnew)]
    unfold keyCost at hcap ⊢
    unfold retain
    rw [if_neg (by omega)]
    show Except.ok _ = _
    congr 2
  rw [hcover]
  rfl

/-- **The scan of all markers.** -/
theorem scan_markers {setting : Setting} {flag : Bool} {db : Db} {scan : Scan} {keys : List SourceKey}
    {rows : List EventRow} (h : List.Forall₂ IsMarker keys rows) (hnodup : keys.Nodup)
    (hnew : ∀ key ∈ keys, key ∉ scan.existing) (hcap : scan.retained + (keys.map keyCost).sum ≤ setting.cap) :
    scanPlatform setting flag db rows scan =
      .ok { scan with retained := scan.retained + (keys.map keyCost).sum, existing := scan.existing ++ keys } := by
  unfold scanPlatform
  induction h generalizing scan with
  | nil =>
      show Except.ok scan = _
      simp
  | @cons key row keys rows hmarker _ ih =>
      obtain ⟨hhead, htail⟩ := List.nodup_cons.mp hnodup
      rw [List.map_cons, List.sum_cons] at hcap
      rw [List.filter_cons, if_pos (decide_eq_true hmarker.platform), List.foldlM_cons,
        scan_marker hmarker (hnew key List.mem_cons_self) (by omega)]
      show List.foldlM _ _ _ = _
      rw [ih htail ?_ ?_]
      · simp [Nat.add_assoc]
      · intro key' hkey' hmem
        rcases List.mem_append.mp hmem with hold | hsame
        · exact hnew key' (List.mem_cons_of_mem _ hkey') hold
        · exact hhead (List.mem_singleton.mp hsame ▸ hkey')
      · dsimp only
        omega

end Marker

/-! ## What the scan of the messages finds -/

section Messages

variable {setting : Setting} {flag : Bool} {db : Db} {scan scan' : Scan} {collected collected' : Collected}
  {row : EventRow} {rows : List EventRow} {key : SourceKey}

/-- The source that a message is, with its answer. -/
def sourceOf (scan : Scan) (row : EventRow) : Option (SourceKey × Option String) := do
  let (role, parts) ← parseRoleAndParts row.payload
  let (batchId, answer) ← historicalAnswerSourceRef role parts
  let (executionId, sessionId) ← scan.ownerMap.lookup batchId
  return (⟨executionId, sessionId, batchId, row.id⟩, answer)

/-- The source that a message is, if it has no marker and there is one for it. -/
def needs (scan : Scan) (row : EventRow) : Option SourceKey := do
  let (key, answer) ← sourceOf scan row
  if sourceYieldsNoMarker key.batchId row.id answer ∨ key ∈ scan.existing then none else return key

/-- What a source comes from. -/
theorem sourceOf_eq {answer : Option String} (h : sourceOf scan row = some (key, answer)) :
    ∃ role parts, parseRoleAndParts row.payload = some (role, parts) ∧
      historicalAnswerSourceRef role parts = some (key.batchId, answer) ∧ key.sourceId = row.id ∧
      scan.ownerMap.lookup key.batchId = some (key.executionId, key.sessionId) := by
  obtain ⟨⟨role, parts⟩, hparts, h⟩ := Option.bind_eq_some_iff.mp h
  obtain ⟨⟨batchId, answer'⟩, hanswer, h⟩ := Option.bind_eq_some_iff.mp h
  obtain ⟨⟨executionId, sessionId⟩, howner, h⟩ := Option.bind_eq_some_iff.mp h
  obtain ⟨rfl, rfl⟩ := Prod.mk.inj (Option.some.inj h)
  exact ⟨role, parts, hparts, hanswer, rfl, howner⟩

theorem needs_eq_some : needs scan row = some key ↔ ∃ answer, sourceOf scan row = some (key, answer) ∧
    sourceYieldsNoMarker key.batchId row.id answer = false ∧ key ∉ scan.existing := by
  unfold needs
  rw [Option.bind_eq_bind, Option.bind_eq_some_iff]
  constructor
  · rintro ⟨⟨key', answer⟩, hsource, h⟩
    dsimp only at h
    split at h
    · cases h
    · rename_i hneither
      obtain rfl := Option.some.inj h
      rw [not_or, Bool.not_eq_true] at hneither
      exact ⟨answer, hsource, hneither.1, hneither.2⟩
  · rintro ⟨answer, hsource, hyields, hnew⟩
    refine ⟨(key, answer), hsource, ?_⟩
    dsimp only
    rw [if_neg (by simp [hyields, hnew])]
    rfl

/-- **What a message adds**: its source if it needs a marker. -/
structure Added (setting : Setting) (flag : Bool) (scan : Scan) (rows : List EventRow)
    (collected collected' : Collected) : Prop where
  uncovered : collected'.uncovered = collected.uncovered ++ rows.filterMap (needs scan)
  retained : collected'.retained = collected.retained + ((rows.filterMap (needs scan)).map keyCost).sum
  within : collected.retained ≤ setting.cap → collected'.retained ≤ setting.cap
  positive : flag = true → ∀ row ∈ rows, sourceOf scan row ≠ none → 0 < row.id
  representable : ∀ row ∈ rows, ∀ key, needs scan row = some key →
    resolvedAtIsRepresentable setting (rfc3339 row.createdAt) = true

/-- What a source does to what is collected. -/
def scanSource (setting : Setting) (flag : Bool) (scan : Scan) (collected : Collected) (row : EventRow)
    (key : SourceKey) (answer : Option String) : Except Abort Collected :=
  let stats := { collected.stats with sourcesSeen := collected.stats.sourcesSeen + 1 }
  if flag = true ∧ (row.id : Int) ≤ 0 then .error (.nonPositiveId row.id)
  else if sourceYieldsNoMarker key.batchId row.id answer then
    .ok { collected with stats := { stats with envelopeOversizeSkipped := stats.envelopeOversizeSkipped + 1 } }
  else if scan.existing.contains key then
    .ok { collected with stats := { stats with alreadyCovered := stats.alreadyCovered + 1 } }
  else do
    let retained ← retain setting collected.retained
      (key.executionId.utf8ByteSize + key.sessionId.utf8ByteSize + key.batchId.utf8ByteSize + 8)
    if resolvedAtIsRepresentable setting (rfc3339 row.createdAt) then
      .ok { retained, uncovered := collected.uncovered ++ [key], stats }
    else .error (.unformattableCreatedAt row.id)

/-- A message in terms of its source. -/
theorem scanMessageRow_eq (setting : Setting) (flag : Bool) (scan : Scan) (collected : Collected) (row : EventRow) :
    scanMessageRow setting flag scan collected row =
      (sourceOf scan row).elim (.ok collected) fun source =>
        scanSource setting flag scan collected row source.1 source.2 := by
  unfold scanMessageRow sourceOf
  cases hparts : parseRoleAndParts row.payload with
  | none => rfl
  | some read =>
      obtain ⟨role, parts⟩ := read
      dsimp only [Option.bind_eq_bind, Option.bind_some]
      cases hanswer : historicalAnswerSourceRef role parts with
      | none => rfl
      | some found =>
          obtain ⟨batchId, answer⟩ := found
          dsimp only [Option.bind_some]
          cases howner : scan.ownerMap.lookup batchId with
          | none => rfl
          | some owner => rfl

theorem retain_ok {retained bytes retained' : Nat} (h : retain setting retained bytes = .ok retained') :
    retained' = retained + bytes + perEntryOverhead ∧ retained' ≤ setting.cap := by
  unfold retain at h
  split at h
  · cases h
  · obtain rfl := Except.ok.inj h
    exact ⟨rfl, by omega⟩

/-- One message. -/
theorem scanMessageRow_added (h : scanMessageRow setting flag scan collected row = .ok collected') :
    Added setting flag scan [row] collected collected' := by
  rw [scanMessageRow_eq] at h
  cases hsource : sourceOf scan row with
  | none =>
      rw [hsource] at h
      obtain rfl := Except.ok.inj h
      have hneeds : needs scan row = none := by
        unfold needs
        rw [hsource]
        rfl
      refine ⟨by simp [hneeds], by simp [hneeds], fun h => h, fun _ row' hrow' hne => ?_, fun row' hrow' key hkey => ?_⟩
      · rw [List.mem_singleton.mp hrow', hsource] at hne
        exact absurd rfl hne
      · rw [List.mem_singleton.mp hrow', hneeds] at hkey
        cases hkey
  | some source =>
      obtain ⟨key, answer⟩ := source
      rw [hsource] at h
      dsimp only [Option.elim_some] at h
      unfold scanSource at h
      dsimp only at h
      split at h
      · cases h
      rename_i hpositive
      have hpos : flag = true → ∀ row' ∈ [row], sourceOf scan row' ≠ none → 0 < row'.id := by
        intro hflag row' hrow' _
        rw [List.mem_singleton.mp hrow']
        by_contra hzero
        exact hpositive ⟨hflag, by omega⟩
      -- a source that has a marker already, or can have none
      have hnone : ∀ {stats}, needs scan row = none →
          Added setting flag scan [row] collected { collected with stats } := by
        intro stats hneeds
        refine ⟨by simp [hneeds], by simp [hneeds], fun h => h, hpos, fun row' hrow' key hkey => ?_⟩
        rw [List.mem_singleton.mp hrow', hneeds] at hkey
        cases hkey
      have hneither : needs scan row = none ↔
          sourceYieldsNoMarker key.batchId row.id answer = true ∨ key ∈ scan.existing := by
        unfold needs
        rw [hsource]
        dsimp only [Option.bind_eq_bind, Option.bind_some]
        split
        · rename_i heither
          exact iff_of_true rfl heither
        · rename_i hno
          exact iff_of_false (fun h => nomatch h) hno
      split at h
      · rename_i hyields
        obtain rfl := Except.ok.inj h
        exact hnone (hneither.mpr (.inl hyields))
      rename_i hyields
      split at h
      · rename_i hknown
        obtain rfl := Except.ok.inj h
        exact hnone (hneither.mpr (.inr (List.contains_iff_mem.mp hknown)))
      rename_i hknown
      obtain ⟨retained, hretained, h⟩ := bind_ok h
      split at h
      · rename_i hrepresentable
        obtain rfl := Except.ok.inj h
        have hneeds : needs scan row = some key := by
          refine needs_eq_some.mpr ⟨answer, hsource, by simpa using hyields, fun hmem => ?_⟩
          exact hknown (List.contains_iff_mem.mpr hmem)
        obtain ⟨hsum, hcap⟩ := retain_ok hretained
        refine ⟨by simp [hneeds], ?_, fun _ => hcap, hpos, fun row' hrow' key' _ => ?_⟩
        · rw [List.filterMap_cons_some hneeds]
          show retained = collected.retained + (keyCost key + 0)
          rw [hsum]
          unfold keyCost
          omega
        · rw [List.mem_singleton.mp hrow']
          exact hrepresentable
      · cases h

/-- **All messages.** -/
theorem scanMessages_added (h : rows.foldlM (scanMessageRow setting flag scan) collected = .ok collected') :
    Added setting flag scan rows collected collected' := by
  induction rows generalizing collected with
  | nil =>
      obtain rfl : collected = collected' := Except.ok.inj h
      exact ⟨by simp, by simp, fun h => h, fun _ _ h => (nomatch h), fun _ h => (nomatch h)⟩
  | cons row rows ih =>
      rw [List.foldlM_cons] at h
      obtain ⟨middle, hfirst, h⟩ := bind_ok h
      have hhead := scanMessageRow_added hfirst
      have htail := ih h
      have hsplit : (row :: rows).filterMap (needs scan) =
          [row].filterMap (needs scan) ++ rows.filterMap (needs scan) := by
        rw [← List.filterMap_append]
        rfl
      refine ⟨?_, ?_, fun hle => htail.within (hhead.within hle), fun hflag row' hrow' => ?_, fun row' hrow' => ?_⟩
      · rw [htail.uncovered, hhead.uncovered, hsplit, List.append_assoc]
      · rw [htail.retained, hhead.retained, hsplit, List.map_append, List.sum_append, Nat.add_assoc]
      · rcases List.mem_cons.mp hrow' with rfl | hmem
        · exact hhead.positive hflag row' List.mem_cons_self
        · exact htail.positive hflag row' hmem
      · rcases List.mem_cons.mp hrow' with rfl | hmem
        · exact hhead.representable row' List.mem_cons_self
        · exact htail.representable row' hmem

/-- **Where no message needs a marker**, none is collected. -/
theorem scanMessages_none (hpositive : flag = true → ∀ row ∈ rows, sourceOf scan row ≠ none → 0 < row.id)
    (hneeds : ∀ row ∈ rows, needs scan row = none) :
    ∃ collected', rows.foldlM (scanMessageRow setting flag scan) collected = .ok collected' ∧
      collected'.uncovered = collected.uncovered := by
  induction rows generalizing collected with
  | nil => exact ⟨collected, rfl, rfl⟩
  | cons row rows ih =>
      have hhead : ∃ middle, scanMessageRow setting flag scan collected row = .ok middle ∧
          middle.uncovered = collected.uncovered := by
        rw [scanMessageRow_eq]
        have hnone := hneeds row List.mem_cons_self
        cases hsource : sourceOf scan row with
        | none => exact ⟨collected, rfl, rfl⟩
        | some source =>
            obtain ⟨key, answer⟩ := source
            dsimp only [Option.elim_some]
            unfold scanSource
            dsimp only
            have hid : ¬(flag = true ∧ (row.id : Int) ≤ 0) := by
              rintro ⟨hflag, hzero⟩
              have := hpositive hflag row List.mem_cons_self (by rw [hsource]; exact Option.some_ne_none _)
              omega
            rw [if_neg hid]
            split
            · exact ⟨_, rfl, rfl⟩
            rename_i hyields
            split
            · exact ⟨_, rfl, rfl⟩
            rename_i hknown
            have hsome : needs scan row = some key := by
              refine needs_eq_some.mpr ⟨answer, hsource, by simpa using hyields, fun hmem => ?_⟩
              exact hknown (List.contains_iff_mem.mpr hmem)
            rw [hnone] at hsome
            cases hsome
      obtain ⟨middle, hfirst, hsame⟩ := hhead
      obtain ⟨collected', hrest, hrestSame⟩ : ∃ collected', rows.foldlM (scanMessageRow setting flag scan) middle =
          .ok collected' ∧ collected'.uncovered = middle.uncovered := ih
        (fun hflag row' hrow' => hpositive hflag row' (List.mem_cons_of_mem _ hrow'))
        (fun row' hrow' => hneeds row' (List.mem_cons_of_mem _ hrow'))
      refine ⟨collected', ?_, hrestSame.trans hsame⟩
      rw [List.foldlM_cons, hfirst]
      exact hrest

end Messages

end Backfill

end AgentBeacon
