import AgentBeacon.Api.Decisions
import AgentBeacon.Events.Paging

/-!
# `Api.ResolvedDecisions` — the history of the resolved decisions

The listing of the decisions that are no longer pending, newest first. One request walks the platform
rows of the whole log backwards, chunk by chunk, until its page is full or its budget of chunks is
spent; the cursor of the next page is the last row it has looked at, whatever that row was. Its queries
are in no transaction: each reads the database of a moment of its own (`ResolvedReads`).
-/

namespace AgentBeacon
open Resolution Keyset

/-! ## The platform lane -/

namespace EventLog

variable (log : EventLog)

/-- `WHERE event_type = 'platform'`, with `AND id < ?` when there is a cursor. -/
def platformBelow : Option Int → List StoredEvent
  | some fromId => (log.rows.filter fun row => row.eventType = .platform).filter
      fun row => (row.id : Int) < fromId
  | none => log.rows.filter fun row => row.eventType = .platform

/-- `scan_platform_descending`. -/
def scanPlatformDescending (fromId : Option Int) (limit : Nat) : EventScan :=
  collectScan ((log.platformBelow fromId).reverse.take limit)

/-- `platform_rows_exist_below`. -/
def platformRowsExistBelow (id : Int) : Bool := !(log.platformBelow (some id)).isEmpty

end EventLog

namespace DecisionsApi

/-! ## The request -/

def decisionsResolvedDefaultPage : Int := 50
def decisionsResolvedMaxPage : Int := 200

/-- `SCAN_CHUNK` and `SCAN_CHUNK_BUDGET`: the rows of a chunk, and the chunks of a request. -/
structure ScanBudget where
  chunk : Nat
  chunks : Nat
  chunk_pos : 0 < chunk
  chunks_pos : 0 < chunks

def scanBudget : ScanBudget where
  chunk := 500
  chunks := 4
  chunk_pos := by decide
  chunks_pos := by decide

/-- The page size. -/
def resolvedLimit : Option Int → Except SchedulerError Int
  | none => .ok decisionsResolvedDefaultPage
  | some n =>
      if 1 ≤ n ∧ n ≤ decisionsResolvedMaxPage then .ok n
      else invalidQuery "limit must be between 1 and the advertised maximum"

/-- Where the walk starts. -/
def resolvedCursor : Option String → Except SchedulerError (Option Int)
  | none => .ok none
  | some value => (parseCursor value).map some

/-! ## The walk -/

/-- The escalation that an inspected row is listed as. -/
def listedAs (prescanPending : List Nat) (event : EventRow) : Option Escalation := do
  let sessionId ← event.sessionId
  let data ← escalationData event.payload
  if event.id ∈ prescanPending then none
  else some { id := event.id, executionId := event.executionId, sessionId,
              createdAt := event.createdAt, data }

/-- What a request has found, and how far down it has looked. -/
structure Progress where
  found : List Escalation
  lowestInspected : Option Nat
  exhausted : Bool

/-- The rows of a chunk, until the page is full; how many were inspected. A row that did not decode
counts as inspected. -/
def inspectChunk (decoded : Nat → Option EventRow) (prescanPending : List Nat) (limit : Int) :
    List Nat → Progress → Progress × Nat
  | [], progress => (progress, 0)
  | id :: ids, progress =>
      let progress := { progress with lowestInspected := some id }
      match (decoded id).bind (listedAs prescanPending) with
      | none =>
          let (progress, inspected) := inspectChunk decoded prescanPending limit ids progress
          (progress, inspected + 1)
      | some escalation =>
          let progress := { progress with found := progress.found ++ [escalation] }
          if limit ≤ progress.found.length then (progress, 1)
          else
            let (progress, inspected) := inspectChunk decoded prescanPending limit ids progress
            (progress, inspected + 1)

/-- The chunks of a request, each read from the log of its moment; the second argument is the budget
left. -/
def walkChunks (chunk : Nat) (prescanPending : List Nat) (limit : Int) :
    (Nat → EventLog) → Nat → Option Int → Progress → Progress
  | _, 0, _, progress => progress
  | logs, budget + 1, cursor, progress =>
      let scan := (logs 0).scanPlatformDescending cursor chunk
      if scan.scanned = 0 then { progress with exhausted := true }
      else
        let (progress, inspected) := inspectChunk (fun id => scan.events.find? fun e => e.id = id)
          prescanPending limit scan.ids progress
        if inspected < scan.scanned then progress
        else if scan.scanned < chunk then { progress with exhausted := true }
        else if limit ≤ progress.found.length then progress
        else walkChunks chunk prescanPending limit (fun n => logs (n + 1)) budget
          (progress.lowestInspected.map fun id => (id : Int)) progress

/-! ## The page -/

structure DecisionSummary where
  eventId : String
  batchId : String
  executionId : ExecutionId
  executionTitle : Option String
  sessionId : SessionId
  status : String
  importance : String
  questionPreview : String
  questionCount : Nat
  createdAt : Timestamp

/-- An item of a page, with the title that `titles_for` has found. -/
def summary (titles : Db) (escalation : Escalation) : DecisionSummary :=
  let questions := parseQuestions escalation.data.questions
  { eventId := toString escalation.id
    batchId := escalation.data.batchId
    executionId := escalation.executionId
    executionTitle := (titles.execution? escalation.executionId).bind Execution.title
    sessionId := escalation.sessionId
    status := "resolved"
    importance := escalation.data.importance
    questionPreview := (questions.head?.map DecisionQuestion.question).getD ""
    questionCount := questions.length
    createdAt := escalation.createdAt }

/-- The pending escalations of the executions that were found active, by their ids. -/
def pendingScanned (active scanned : Db) (log : EventLog) : List Nat :=
  (scanPending scanned log (activeExecutions active none)).pendingIds

/-- Those of one moment. -/
def pendingNow (db : Db) (log : EventLog) : List Nat := pendingScanned db db log

/-- What the queries of a request read, in this order: the active executions and the scan of their
events; the chunks; the active executions and the scan again; the titles; whether there are rows below. -/
structure ResolvedReads where
  active : Db
  scanned : Db × EventLog
  chunks : Nat → EventLog
  activeAfter : Db
  scannedAfter : Db × EventLog
  titles : Db
  below : EventLog

/-- Nothing is written meanwhile. -/
def ResolvedReads.still (db : Db) (log : EventLog) : ResolvedReads where
  active := db
  scanned := (db, log)
  chunks := fun _ => log
  activeAfter := db
  scannedAfter := (db, log)
  titles := db
  below := log

/-- Whether there may be more below what was inspected. -/
def hasMoreBelow (log : EventLog) (progress : Progress) : Bool :=
  match progress.lowestInspected with
  | some id => if progress.exhausted then false else log.platformRowsExistBelow id
  | none => false

/-- The page of a walk; what became pending meanwhile is left out. -/
def resolvedPage (reads : ResolvedReads) (progress : Progress) : PageV1 DecisionSummary where
  items := (progress.found.filter fun e =>
    e.id ∉ pendingScanned reads.activeAfter reads.scannedAfter.1 reads.scannedAfter.2).map (summary reads.titles)
  nextCursor := if hasMoreBelow reads.below progress then progress.lowestInspected.map toString else none
  hasMore := hasMoreBelow reads.below progress

/-- `resolved_decisions`. The pending decisions are scanned before the walk and after it. -/
def resolvedDecisionsFrom (reads : ResolvedReads) (budget : ScanBudget) (before : Option String)
    (limit : Option Int) : Except SchedulerError (PageV1 DecisionSummary) := do
  let limit ← resolvedLimit limit
  let cursor ← resolvedCursor before
  let pending := pendingScanned reads.active reads.scanned.1 reads.scanned.2
  return resolvedPage reads (walkChunks budget.chunk pending limit reads.chunks budget.chunks cursor
    { found := [], lowestInspected := none, exhausted := false })

/-- A request on a fixed log. -/
def resolvedDecisions (db : Db) (log : EventLog) (budget : ScanBudget) (before : Option String)
    (limit : Option Int) : Except SchedulerError (PageV1 DecisionSummary) :=
  resolvedDecisionsFrom (.still db log) budget before limit

/-- A client that follows the cursors, asking for a limit of its own each time, until there is no
more. -/
inductive Follows (db : Db) (log : EventLog) (budget : ScanBudget) :
    (Nat → Option Int) → Option String → List (PageV1 DecisionSummary) → Prop where
  | last {limits : Nat → Option Int} {before : Option String} {page : PageV1 DecisionSummary}
      (h : resolvedDecisions db log budget before (limits 0) = .ok page)
      (hend : page.hasMore = false) : Follows db log budget limits before [page]
  | more {limits : Nat → Option Int} {before : Option String} {page : PageV1 DecisionSummary}
      {cursor : String} {pages : List (PageV1 DecisionSummary)}
      (h : resolvedDecisions db log budget before (limits 0) = .ok page) (hmore : page.hasMore = true)
      (hcursor : page.nextCursor = some cursor)
      (hrest : Follows db log budget (fun n => limits (n + 1)) (some cursor) pages) :
      Follows db log budget limits before (page :: pages)

end DecisionsApi

end AgentBeacon
