import AgentBeacon.Db.ExecutionTx
import AgentBeacon.Lib.Like
import AgentBeacon.Payloads

/-!
# `Db.Backfill` — the markers of the backfill of version 24

`run_backfill_0024` writes a marker for every historical answer that has none. The owner of a batch comes from an
escalation whose session belongs to its execution; a marker is filed under the owner of its batch.
-/

namespace AgentBeacon
open Relational Resolution

namespace Resolution

/-- `historical_answer_source_ref`. -/
def historicalAnswerSourceRef (role : Option String) (parts : List Json) : Option (String × Option String) :=
  if role ≠ some roleUser then none
  else if hasSenderPart parts || answerPartCount parts ≠ 1 then none
  else do
    let batchId ← parts.findSome? fun part => do
      let data ← partData part
      if dataType data = some answerType then (data.get "batch_id").bind Json.asStr else none
    some (batchId, answerTextFromParts parts)

end Resolution

namespace Backfill

/-- Why a backfill gives up: it has changed nothing then. A deadline that passes ends it in the same way. -/
inductive Abort where
  | cap
  | nonPositiveId (id : Int)
  | unformattableCreatedAt (id : Int)
  | insertFailed
  deriving DecidableEq, Repr

/-- What a backfill is given: the cap on the keys it keeps, how the database compares texts, and which texts `chrono`
parses as a timestamp. -/
structure Setting where
  cap : Nat
  collation : Like.Collation
  parsesRfc3339 : String → Bool

structure BackfillStats where
  sourcesSeen : Nat
  markersSynthesized : Nat
  alreadyCovered : Nat
  envelopeOversizeSkipped : Nat
  deriving DecidableEq, Repr

structure SourceKey where
  executionId : ExecutionId
  sessionId : SessionId
  batchId : String
  sourceId : Int
  deriving DecidableEq, Repr

def perEntryOverhead : Nat := 64
def insertChunkRows : Nat := 200
def insertChunkBytes : Nat := 4 * 1024 * 1024

def resolvedAtIsRepresentable (setting : Setting) (s : String) : Bool :=
  s.utf8ByteSize = reservedTimestamp.utf8ByteSize && setting.parsesRfc3339 s

/-! ## The scan of the platform events -/

/-- The bytes kept so far, the owner of each batch, and the sources that have a marker. -/
structure Scan where
  retained : Nat
  ownerMap : List (String × ExecutionId × SessionId)
  existing : List SourceKey

/-- The bytes of one more entry. -/
def retain (setting : Setting) (retained bytes : Nat) : Except Abort Nat :=
  if setting.cap < retained + bytes + perEntryOverhead then .error .cap else .ok (retained + bytes + perEntryOverhead)

/-- The owner of an escalated batch: the first escalation counts. -/
def ownBatch (setting : Setting) (executionId : ExecutionId) (sessionId : SessionId) (scan : Scan)
    (part : EscalatePart) : Except Abort Scan :=
  if scan.ownerMap.any fun owner => owner.1 = part.batchId then .ok scan
  else do
    let retained ← retain setting scan.retained
      (part.batchId.utf8ByteSize + executionId.utf8ByteSize + sessionId.utf8ByteSize)
    .ok { scan with retained, ownerMap := scan.ownerMap ++ [(part.batchId, executionId, sessionId)] }

/-- The source of a marker. -/
def coverSource (setting : Setting) (executionId : ExecutionId) (sessionId : SessionId) (scan : Scan)
    (candidate : ResolutionCandidate) : Except Abort Scan :=
  match candidate.embeddedResolvedEventId with
  -- a marker of before, that names no source
  | none => .ok scan
  | some sourceId =>
      let key : SourceKey := ⟨executionId, sessionId, candidate.batchId, sourceId⟩
      if scan.existing.contains key then .ok scan
      else do
        let retained ← retain setting scan.retained
          (executionId.utf8ByteSize + sessionId.utf8ByteSize + candidate.batchId.utf8ByteSize + 8)
        .ok { scan with retained, existing := scan.existing ++ [key] }

/-- The join `s.id = e.session_id AND s.execution_id = e.execution_id` finds the session. -/
def coherent (db : Db) (executionId : ExecutionId) (sessionId : SessionId) : Bool :=
  (db.session? sessionId).any fun s => s.executionId = executionId

/-- The owners that an event names. -/
def ownBatches (setting : Setting) (abortOnNonPositiveId : Bool) (db : Db) (scan : Scan) (row : EventRow)
    (sessionId : SessionId) : Except Abort Scan :=
  if coherent db row.executionId sessionId then
    if abortOnNonPositiveId ∧ escalateParts row.payload ≠ [] ∧ (row.id : Int) ≤ 0 then .error (.nonPositiveId row.id)
    else (escalateParts row.payload).foldlM (ownBatch setting row.executionId sessionId) scan
  else .ok scan

def scanPlatformRow (setting : Setting) (abortOnNonPositiveId : Bool) (db : Db) (scan : Scan) (row : EventRow) :
    Except Abort Scan :=
  match row.sessionId with
  | none => .ok scan
  | some sessionId => do
      let owned ← ownBatches setting abortOnNonPositiveId db scan row sessionId
      -- markers count also where the session does not belong to the execution
      match parseParts row.payload with
      | some parts => (resolutionCandidates parts row.id).foldlM (coverSource setting row.executionId sessionId) owned
      | none => .ok owned

/-! ## The scan of the messages -/

/-- The bytes kept so far, and the sources that need a marker. -/
structure Collected where
  retained : Nat
  uncovered : List SourceKey
  stats : BackfillStats

def scanMessageRow (setting : Setting) (abortOnNonPositiveId : Bool) (scan : Scan) (collected : Collected)
    (row : EventRow) : Except Abort Collected :=
  match parseRoleAndParts row.payload with
  | none => .ok collected
  | some (role, parts) =>
      match historicalAnswerSourceRef role parts with
      | none => .ok collected
      | some (batchId, answer) =>
          match scan.ownerMap.lookup batchId with
          -- an answer to a batch that nobody has escalated
          | none => .ok collected
          | some (executionId, sessionId) =>
              let stats := { collected.stats with sourcesSeen := collected.stats.sourcesSeen + 1 }
              let key : SourceKey := ⟨executionId, sessionId, batchId, row.id⟩
              if abortOnNonPositiveId ∧ (row.id : Int) ≤ 0 then .error (.nonPositiveId row.id)
              else if sourceYieldsNoMarker batchId row.id answer then
                .ok { collected with
                  stats := { stats with envelopeOversizeSkipped := stats.envelopeOversizeSkipped + 1 } }
              else if scan.existing.contains key then
                .ok { collected with stats := { stats with alreadyCovered := stats.alreadyCovered + 1 } }
              else do
                let retained ← retain setting collected.retained
                  (executionId.utf8ByteSize + sessionId.utf8ByteSize + batchId.utf8ByteSize + 8)
                if resolvedAtIsRepresentable setting (rfc3339 row.createdAt) then
                  .ok { retained, uncovered := collected.uncovered ++ [key], stats }
                else .error (.unformattableCreatedAt row.id)

/-- `event_type = 'message' AND payload LIKE '%question_answer%'`. -/
def isCandidateMessage (setting : Setting) (row : EventRow) : Bool :=
  row.eventType = .message && Like.like setting.collation "%question_answer%".toList (stored row.payload).toList

/-- `collect_uncovered_sources`. -/
def collectUncoveredSources (setting : Setting) (abortOnNonPositiveId : Bool) (db : Db) :
    Except Abort (List SourceKey × BackfillStats) := do
  let scan ← (db.events.rows.filter fun row => row.eventType = .platform).foldlM
    (scanPlatformRow setting abortOnNonPositiveId db) ⟨0, [], []⟩
  let collected ← (db.events.rows.filter (isCandidateMessage setting)).foldlM
    (scanMessageRow setting abortOnNonPositiveId scan) ⟨scan.retained, [], ⟨0, 0, 0, 0⟩⟩
  .ok (collected.uncovered, collected.stats)

/-! ## Writing the markers -/

/-- A row of the buffer: its execution, its session, and the marker. -/
abbrev BufferedMarker := ExecutionId × SessionId × Json

structure Writing where
  db : Db
  insertBuf : List BufferedMarker
  insertBytes : Nat
  stats : BackfillStats

/-- `flush_markers`, one statement for all. It fails if a row's execution or session is not there, or the key space
is used up. -/
def flushMarkers (now : Timestamp) (markers : List BufferedMarker) (db : Db) : Except Abort Db :=
  if (markers.all fun marker => (db.execution? marker.1).isSome && (db.session? marker.2.1).isSome) ∧
      db.events.next + markers.length ≤ maxRowId + 1 then
    .ok (markers.foldl (fun db marker => db.pushEvent marker.1 (some marker.2.1) .platform marker.2.2 none now) db)
  else .error .insertFailed

/-- A flush, and what the loop does behind it. -/
def Writing.flush (now : Timestamp) (w : Writing) : Except Abort Writing := do
  let db ← flushMarkers now w.insertBuf w.db
  .ok { w with db, insertBuf := [], insertBytes := 0 }

/-- A marker goes into the buffer. -/
def Writing.buffer (key : SourceKey) (marker : Json) (w : Writing) : Writing where
  db := w.db
  insertBuf := w.insertBuf ++ [(key.executionId, key.sessionId, marker)]
  insertBytes := w.insertBytes + (stored marker).utf8ByteSize
  stats := { w.stats with markersSynthesized := w.stats.markersSynthesized + 1 }

/-- The marker of a source, its answer cut where it must be. -/
def markerOf (key : SourceKey) (createdAt : String) (answer : Option String) : Json :=
  let fitted := match answer with
    | some text => fitAnswerText key.batchId none key.sourceId createdAt text
    | none => (none, false)
  markerPayload key.batchId none key.sourceId createdAt fitted.1 fitted.2

def Writing.skip (w : Writing) : Writing :=
  { w with stats := { w.stats with envelopeOversizeSkipped := w.stats.envelopeOversizeSkipped + 1 } }

/-- How much goes into a chunk: what is read at a time, and what waits at most before it is written. -/
structure ChunkSizes where
  readRows : Nat
  readBytes : Nat
  insertRows : Nat
  insertBytes : Nat

/-- `READ_CHUNK_ROWS` and the others. -/
def ChunkSizes.code : ChunkSizes := ⟨256, 8 * 1024 * 1024, insertChunkRows, insertChunkBytes⟩

namespace Chunked

variable (sizes : ChunkSizes)

def flushBeforePush (bufLen bufBytes markerLen : Nat) : Bool :=
  0 < bufLen && sizes.insertBytes < bufBytes + markerLen

/-- Room in the buffer for a marker. -/
def flushFor (now : Timestamp) (marker : Json) (w : Writing) : Except Abort Writing :=
  if flushBeforePush sizes w.insertBuf.length w.insertBytes (stored marker).utf8ByteSize then w.flush now else .ok w

def flushIfFull (now : Timestamp) (w : Writing) : Except Abort Writing :=
  if sizes.insertRows ≤ w.insertBuf.length ∨ sizes.insertBytes ≤ w.insertBytes then w.flush now else .ok w

def push (now : Timestamp) (key : SourceKey) (marker : Json) (w : Writing) : Except Abort Writing := do
  let flushed ← flushFor sizes now marker w
  flushIfFull sizes now (flushed.buffer key marker)

def pushUnlessOversize (now : Timestamp) (key : SourceKey) (marker : Json) (w : Writing) : Except Abort Writing :=
  if markerSerializedCapBytes < (stored marker).utf8ByteSize then .ok w.skip else push sizes now key marker w

/-- `SELECT … WHERE id = ?` of a source. -/
def sourceRow (db : Db) (sourceId : Int) : Option EventRow := db.events.rows.find? fun row => (row.id : Int) = sourceId

/-- One source, from the rows of its chunk: `read` is the database they were read from. -/
def writeSource (setting : Setting) (now : Timestamp) (read : Db) (w : Writing) (key : SourceKey) :
    Except Abort Writing :=
  match sourceRow read key.sourceId with
  | none => .ok w
  | some row =>
      let createdAt := rfc3339 row.createdAt
      if resolvedAtIsRepresentable setting createdAt then
        match parseRoleAndParts row.payload with
        | none => .ok w
        | some (role, parts) =>
            match historicalAnswerSourceRef role parts with
            | none => .ok w
            | some (_, answer) => pushUnlessOversize sizes now key (markerOf key createdAt answer) w
      else .error (.unformattableCreatedAt row.id)

end Chunked

/-- One source, in chunks of the sizes of the code. Its row is that of the log at the time: none changes in between. -/
def writeSource (setting : Setting) (now : Timestamp) (w : Writing) (key : SourceKey) : Except Abort Writing :=
  Chunked.writeSource .code setting now w.db w key

/-- `run_backfill_0024`. -/
def runBackfill0024 (setting : Setting) (now : Timestamp) (db : Db) : Except Abort (Db × BackfillStats) := do
  let (uncovered, stats) ← collectUncoveredSources setting true db
  let written ← (uncovered.mergeSort fun a b => a.sourceId ≤ b.sourceId).foldlM (writeSource setting now)
    ⟨db, [], 0, stats⟩
  if written.insertBuf.isEmpty then .ok (written.db, written.stats)
  else do
    let flushed ← written.flush now
    .ok (flushed.db, flushed.stats)

/-! ## Every marker has an owner -/

/-- What every step keeps, the loop keeps. -/
theorem foldlM_keeps {α σ ε : Type} {I : σ → Prop} {f : σ → α → Except ε σ} {l : List α} {s s' : σ}
    (hrun : l.foldlM f s = .ok s') (hs : I s) (hstep : ∀ s a s', a ∈ l → I s → f s a = .ok s' → I s') : I s' := by
  induction l generalizing s with
  | nil =>
      obtain rfl : s = s' := Except.ok.inj hrun
      exact hs
  | cons a l ih =>
      rw [List.foldlM_cons] at hrun
      cases hfirst : f s a with
      | error e =>
          rw [hfirst] at hrun
          cases hrun
      | ok middle =>
          rw [hfirst] at hrun
          refine ih hrun (hstep s a middle (List.mem_cons_self ..) hs hfirst) fun s a s' ha => ?_
          exact hstep s a s' (List.mem_cons_of_mem _ ha)

theorem bind_ok {α β ε : Type} {m : Except ε α} {f : α → Except ε β} {b : β} (h : m >>= f = .ok b) :
    ∃ a, m = .ok a ∧ f a = .ok b := by
  cases m with
  | error e => cases h
  | ok a => exact ⟨a, rfl, h⟩

theorem mem_of_lookup {α β : Type} [BEq α] [LawfulBEq α] {l : List (α × β)} {a : α} {b : β}
    (h : l.lookup a = some b) : (a, b) ∈ l := by
  obtain ⟨before, after, rfl, -⟩ := List.lookup_eq_some_iff.mp h
  exact List.mem_append_right _ (List.mem_cons_self ..)

variable {setting : Setting} {flag : Bool} {db : Db}

theorem coherent_iff {executionId : ExecutionId} {sessionId : SessionId} :
    coherent db executionId sessionId = true ↔ db.Belongs sessionId executionId := by
  unfold coherent Db.Belongs
  rw [Option.any_eq_true]
  exact exists_congr fun s => and_congr Iff.rfl decide_eq_true_iff

/-- The owners found so far own a session that belongs to them. -/
def OwnersBelong (db : Db) (scan : Scan) : Prop := ∀ owner ∈ scan.ownerMap, db.Belongs owner.2.2 owner.2.1

theorem ownBatch_belong {scan scan' : Scan} {executionId : ExecutionId} {sessionId : SessionId} {part : EscalatePart}
    (h : OwnersBelong db scan) (hown : db.Belongs sessionId executionId)
    (hrun : ownBatch setting executionId sessionId scan part = .ok scan') : OwnersBelong db scan' := by
  unfold ownBatch at hrun
  split at hrun
  · obtain rfl := Except.ok.inj hrun
    exact h
  · obtain ⟨retained, -, hrun⟩ := bind_ok hrun
    obtain rfl := Except.ok.inj hrun
    intro owner howner
    obtain hold | hnew := List.mem_append.mp howner
    · exact h owner hold
    · rw [List.mem_singleton.mp hnew]
      exact hown

theorem coverSource_owners {scan scan' : Scan} {executionId : ExecutionId} {sessionId : SessionId}
    {candidate : ResolutionCandidate} (hrun : coverSource setting executionId sessionId scan candidate = .ok scan') :
    scan'.ownerMap = scan.ownerMap := by
  unfold coverSource at hrun
  split at hrun
  · rw [← Except.ok.inj hrun]
  dsimp only at hrun
  split at hrun
  · rw [← Except.ok.inj hrun]
  · obtain ⟨retained, -, hrun⟩ := bind_ok hrun
    rw [← Except.ok.inj hrun]

theorem scanPlatformRow_belong {scan scan' : Scan} {row : EventRow} (h : OwnersBelong db scan)
    (hrun : scanPlatformRow setting flag db scan row = .ok scan') : OwnersBelong db scan' := by
  unfold scanPlatformRow at hrun
  split at hrun
  · obtain rfl := Except.ok.inj hrun
    exact h
  rename_i sessionId _
  obtain ⟨owned, howned, hrun⟩ := bind_ok hrun
  have hbelong : OwnersBelong db owned := by
    unfold ownBatches at howned
    split at howned
    · rename_i hcoherent
      split at howned
      · cases howned
      · exact foldlM_keeps howned h fun _ _ _ _ hkept => ownBatch_belong hkept (coherent_iff.mp hcoherent)
    · obtain rfl := Except.ok.inj howned
      exact h
  split at hrun
  · refine foldlM_keeps hrun hbelong fun s a s' _ hkept hcover => ?_
    intro owner howner
    rw [coverSource_owners hcover] at howner
    exact hkept owner howner
  · obtain rfl := Except.ok.inj hrun
    exact hbelong

/-- The session of a key belongs to the execution of the key. -/
def KeysBelong (db : Db) (keys : List SourceKey) : Prop := ∀ key ∈ keys, db.Belongs key.sessionId key.executionId

theorem scanMessageRow_belong {scan : Scan} {collected collected' : Collected} {row : EventRow}
    (hscan : OwnersBelong db scan) (h : KeysBelong db collected.uncovered)
    (hrun : scanMessageRow setting flag scan collected row = .ok collected') :
    KeysBelong db collected'.uncovered := by
  unfold scanMessageRow at hrun
  split at hrun
  · rw [← Except.ok.inj hrun]
    exact h
  split at hrun
  · rw [← Except.ok.inj hrun]
    exact h
  split at hrun
  · rw [← Except.ok.inj hrun]
    exact h
  rename_i executionId sessionId hlookup
  dsimp only at hrun
  split at hrun
  · cases hrun
  split at hrun
  · rw [← Except.ok.inj hrun]
    exact h
  split at hrun
  · rw [← Except.ok.inj hrun]
    exact h
  obtain ⟨retained, -, hrun⟩ := bind_ok hrun
  split at hrun
  · rw [← Except.ok.inj hrun]
    intro key hkey
    obtain hold | hnew := List.mem_append.mp hkey
    · exact h key hold
    · rw [List.mem_singleton.mp hnew]
      exact hscan _ (mem_of_lookup hlookup)
  · cases hrun

/-- **Every source has an owner** whose session belongs to its execution. -/
theorem collectUncoveredSources_belong {uncovered : List SourceKey} {stats : BackfillStats}
    (h : collectUncoveredSources setting flag db = .ok (uncovered, stats)) : KeysBelong db uncovered := by
  obtain ⟨scan, hscan, h⟩ := bind_ok h
  obtain ⟨collected, hcollected, h⟩ := bind_ok h
  obtain ⟨rfl, -⟩ := Prod.mk.inj (Except.ok.inj h)
  have howners : OwnersBelong db scan :=
    foldlM_keeps hscan (fun _ howner => absurd howner List.not_mem_nil) fun _ _ _ _ => scanPlatformRow_belong
  exact foldlM_keeps (I := fun c => KeysBelong db c.uncovered) hcollected
    (fun _ hkey => absurd hkey List.not_mem_nil) fun _ _ _ _ => scanMessageRow_belong howners

end Backfill

end AgentBeacon
