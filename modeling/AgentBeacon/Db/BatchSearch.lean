import AgentBeacon.Lib.Like
import AgentBeacon.Payloads

/-!
# `Db.BatchSearch` — finding a batch by its id

`find_batch_owner` and `find_resolution_for_batch_in_tx` of `db/events.rs` first let the database look for the
id in the text of the payloads, with `LIKE`, and then decode the rows that it returns. The text of a payload is
the compact serialization of its value. The filter is an argument of the functions here, so that the search
without it is the same function.
-/

namespace AgentBeacon
open Like
open Resolution

/-- `like_pattern_for_batch_id`. -/
def likePatternForBatchId (batchId : String) : List Char :=
  let encoded := (Json.str batchId).compact
  let inner :=
    if encoded.head? = some '"' ∧ encoded.tail.getLast? = some '"' then encoded.tail.dropLast else encoded
  '%' :: (Like.escape inner ++ ['%'])

/-- `payload LIKE ? ESCAPE '\\'`. -/
def payloadLike (collation : Collation) (batchId : String) (payload : Json) : Bool :=
  like collation (likePatternForBatchId batchId) payload.compact

namespace Db

variable (db : Db) (keep : Json → Bool)

/-- The platform events that the filter keeps, in the order of their ids. -/
def platformEvents : List EventRow :=
  db.events.rows.filter fun e => e.eventType = .platform && keep e.payload

/-- `BatchOwner` of a row: its session, provided the session belongs to its execution. -/
def ownerOfRow (batchId : String) (row : EventRow) : Option (ExecutionId × SessionId) := do
  let sessionId ← row.sessionId
  let session ← db.sessions.find? sessionId
  if session.executionId = row.executionId ∧
      (escalateParts row.payload).any (fun p => p.batchId = batchId) then
    some (row.executionId, sessionId)
  else none

/-- `find_batch_owner`. -/
def findBatchOwner (batchId : String) : Option (ExecutionId × SessionId) :=
  (db.platformEvents keep).findSome? (db.ownerOfRow batchId)

/-- The candidates for the batch in a row of the owner. -/
def candidatesOfRow (executionId : ExecutionId) (sessionId : SessionId) (batchId : String) (row : EventRow) :
    List ResolutionCandidate :=
  if row.executionId ≠ executionId ∨ row.sessionId ≠ some sessionId then []
  else match parseParts row.payload with
    | none => []
    | some parts => (resolutionCandidates parts row.id).filter fun c => c.batchId = batchId

/-- `find_resolution_for_batch_in_tx`: the kind of the candidate with the smallest key. -/
def findResolutionForBatch (executionId : ExecutionId) (sessionId : SessionId) (batchId : String) :
    Option ResolutionKind :=
  (((db.platformEvents keep).flatMap (candidatesOfRow executionId sessionId batchId)).foldl better none).map
    ResolutionCandidate.kind

end Db

end AgentBeacon
