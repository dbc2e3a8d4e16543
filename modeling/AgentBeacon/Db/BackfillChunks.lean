import AgentBeacon.Db.Backfill

/-!
# `Db.BackfillChunks` — the backfill in chunks of any size

`run_backfill_0024` reads the uncovered sources in chunks and inserts the markers in chunks. Here the four sizes
are parameters: at most `readRows` sources at a time, of at most `readBytes` together unless one alone is longer,
and a flush at `insertRows` markers or `insertBytes`.
-/

namespace AgentBeacon
open Relational Resolution

namespace Backfill

namespace Chunked

variable (sizes : ChunkSizes)

/-- `plan_lengths`, of one source. -/
def sourceLength (db : Db) (key : SourceKey) : Nat :=
  ((sourceRow db key.sourceId).map fun row => (stored row.payload).utf8ByteSize).getD 0

/-- How many sources of a window go into a chunk that holds `count` of them, of `bytes` together. -/
def chunkLength (db : Db) : Nat → Nat → List SourceKey → Nat
  | count, _, [] => count
  | count, bytes, key :: window =>
      -- the first source goes in, however long it is
      if 0 < count ∧ sizes.readBytes < bytes + sourceLength db key then count
      else chunkLength db (count + 1) (bytes + sourceLength db key) window

/-- The loop over the sources, a chunk at a time: as many rounds as there are sources are enough. -/
def writeChunks (setting : Setting) (now : Timestamp) : Nat → List SourceKey → Writing → Except Abort Writing
  | 0, _, w => .ok w
  | _ + 1, [], w => .ok w
  | rounds + 1, uncovered, w => do
      let size := chunkLength sizes w.db 0 0 (uncovered.take sizes.readRows)
      let written ← (uncovered.take size).foldlM (writeSource sizes setting now w.db) w
      writeChunks setting now rounds (uncovered.drop size) written

/-- `run_backfill_0024`, with chunks of these sizes. -/
def runBackfill (setting : Setting) (now : Timestamp) (db : Db) : Except Abort (Db × BackfillStats) := do
  let (uncovered, stats) ← collectUncoveredSources setting true db
  let sorted := uncovered.mergeSort fun a b => a.sourceId ≤ b.sourceId
  let written ← writeChunks sizes setting now sorted.length sorted ⟨db, [], 0, stats⟩
  if written.insertBuf.isEmpty then .ok (written.db, written.stats)
  else do
    let flushed ← written.flush now
    .ok (flushed.db, flushed.stats)

end Chunked

end Backfill

end AgentBeacon
