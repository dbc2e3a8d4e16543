import AgentBeacon.Events.Log
import AgentBeacon.Services.Transition

/-!
# `Api.Decisions` — the decision feed and the decision detail

The reads of `api/decisions.rs`: the feed of the pending decisions, which scans the platform events of
the active executions once, and the detail of one decision, which looks for its marker. Both read the
stored log; the times of answers and dismissals and the formatting of times are left out.
-/

namespace AgentBeacon
open Resolution

namespace DecisionsApi

/-! ## A decision's representation -/

structure QuestionOption where
  label : String
  description : Option String

structure DecisionQuestion where
  question : String
  context : Option String
  options : Option (List QuestionOption)
  index : Nat

/-- `parse_questions`. -/
def parseQuestions (raw : List Json) : List DecisionQuestion :=
  raw.zipIdx.map fun (q, index) =>
    { question := ((q.get "question").bind Json.asStr).getD ""
      context := (q.get "context").bind Json.asStr
      options := ((q.get "options").bind Json.asArray).map fun options =>
        options.filterMap fun o => do
          let label ← (← o.get "label").asStr
          some { label, description := (o.get "description").bind Json.asStr }
      index }

structure DecisionBrief where
  eventId : Nat
  batchId : String
  executionId : ExecutionId
  executionTitle : Option String
  sessionId : SessionId
  status : String
  importance : String
  questions : List DecisionQuestion
  answer : Option String
  truncated : Option Bool
  createdAt : Timestamp

/-- `build_brief`. -/
def buildBrief (escalation : Escalation) (marker : Option ResolutionCandidate)
    (executionTitle : Option String) (executionTerminal : Bool) : DecisionBrief :=
  let (status, answer, truncated) : String × Option String × Option Bool :=
    match marker with
    | some cand => match cand.kind with
      | .answer => ("answered", cand.answerText, if cand.truncated then some true else none)
      | .dismiss => ("dismissed", none, none)
    | none => if executionTerminal then ("expired", none, none) else ("pending", none, none)
  { eventId := escalation.id
    batchId := escalation.data.batchId
    executionId := escalation.executionId
    executionTitle
    sessionId := escalation.sessionId
    status
    importance := escalation.data.importance
    questions := parseQuestions escalation.data.questions
    answer
    truncated
    createdAt := escalation.createdAt }

/-! ## The feed -/

/-- A platform event, and whether its session is one of its execution. -/
structure WindowEvent where
  event : EventRow
  sessionCoherent : Bool

/-- The `LEFT JOIN` on the session of the event, within its execution. -/
def sessionCoherent (db : Db) (event : EventRow) : Bool :=
  event.sessionId.any fun id => (db.session? id).any fun s => s.executionId = event.executionId

/-- `list_platform_events_for_executions`: undecodable rows are skipped. -/
def listPlatformEventsForExecutions (db : Db) (log : EventLog) (executionIds : List ExecutionId) :
    List WindowEvent :=
  (decoded (log.rows.filter fun row =>
    row.executionId ∈ executionIds ∧ row.eventType = .platform)).map fun event =>
      ⟨event, sessionCoherent db event⟩

/-- The identity a marker must name to attach to an escalation. -/
structure MarkerTarget where
  escalationEventId : Int
  executionId : ExecutionId
  sessionId : SessionId
  deriving DecidableEq

/-- The scan backing one pending-decisions response. -/
structure PendingScan where
  escalations : List Escalation
  resolved : List MarkerTarget

/-- The targets that the candidates of an event name. -/
def targetsOf (event : EventRow) (sessionId : SessionId) (parts : List Json) : List MarkerTarget :=
  (resolutionCandidates parts event.id).filterMap fun cand =>
    cand.escalationEventId.map fun escalationEventId =>
      ⟨escalationEventId, event.executionId, sessionId⟩

/-- One event of the scan: an escalation, or the targets of its markers. -/
def PendingScan.visit (scan : PendingScan) (window : WindowEvent) : PendingScan :=
  if !window.sessionCoherent then scan
  else match window.event.sessionId with
    | none => scan
    | some sessionId => match escalationData window.event.payload with
      | some data => { scan with escalations := scan.escalations ++ [
          { id := window.event.id, executionId := window.event.executionId, sessionId,
            createdAt := window.event.createdAt, data }] }
      | none => match parseParts window.event.payload with
        | none => scan
        | some parts =>
            { scan with resolved := scan.resolved ++ targetsOf window.event sessionId parts }

/-- `scan_pending`. -/
def scanPending (db : Db) (log : EventLog) (executionIds : List ExecutionId) : PendingScan :=
  (listPlatformEventsForExecutions db log executionIds).foldl PendingScan.visit ⟨[], []⟩

/-- The escalation has a marker in the scan. -/
def PendingScan.isResolved (scan : PendingScan) (escalation : Escalation) : Bool :=
  ⟨escalation.id, escalation.executionId, escalation.sessionId⟩ ∈ scan.resolved

/-- `pending_ids`. -/
def PendingScan.pendingIds (scan : PendingScan) : List Nat :=
  (scan.escalations.filter fun e => !scan.isResolved e).map Escalation.id

/-- `outcome IS NULL AND desired != 'terminate'`. -/
def executionActive (x : Execution) : Bool := x.outcome.isNone && x.desired ≠ .terminate

/-- `list_active`, and the filter of the request. -/
def activeExecutions (db : Db) (executionFilter : Option ExecutionId) : List ExecutionId :=
  ((db.executions.rows.filter fun x => executionActive x).map Execution.id).filter fun id =>
    executionFilter.all fun wanted => id = wanted

/-- `ActiveExecutionMark`: an active execution with its high-water mark. -/
structure ActiveExecutionMark where
  id : ExecutionId
  outcome : Option Outcome
  desired : ExecutionDesired
  title : Option String
  platformMax : Option Nat
  deriving DecidableEq

/-- `MAX(id)` of the platform events of an execution. -/
def platformMax (db : Db) (executionId : ExecutionId) : Option Nat :=
  ((db.events.rows.filter fun e => e.executionId = executionId ∧ e.eventType = .platform).map
    EventRow.id).max?

/-- `list_active_with_platform_mark`, and the filter of the request. -/
def listActiveWithPlatformMark (db : Db) (executionFilter : Option ExecutionId) :
    List ActiveExecutionMark :=
  ((db.executions.rows.filter fun x => executionActive x).map fun x =>
    ⟨x.id, x.outcome, x.desired, x.title, platformMax db x.id⟩).filter fun mark =>
      executionFilter.all fun wanted => mark.id = wanted

/-- The title of an execution, among the marks. -/
def titleOf (marks : List ActiveExecutionMark) (id : ExecutionId) : Option String :=
  (marks.find? fun mark => mark.id = id).bind ActiveExecutionMark.title

/-- What `pending_decisions` lists for the executions it has the marks of, when it scans the log. -/
def pendingBody (db : Db) (log : EventLog) (marks : List ActiveExecutionMark) : List DecisionBrief :=
  let scan := scanPending db log (marks.map ActiveExecutionMark.id)
  (scan.escalations.filter fun e => e.id ∈ scan.pendingIds).map fun e =>
    buildBrief e none (titleOf marks e.executionId) false

/-- `pending_decisions` at one moment, when the client has no current representation. -/
def pendingDecisions (db : Db) (log : EventLog) (executionFilter : Option ExecutionId) :
    List DecisionBrief :=
  pendingBody db log (listActiveWithPlatformMark db executionFilter)

/-! ## The detail -/

/-- `get_escalation`. -/
def getEscalation (log : EventLog) (eventId : Int) : Option Escalation := do
  let row ← log.rows.find? fun row => (row.id : Int) = eventId
  asEscalation (← parseEventRow row)

/-- `find_marker_for_escalation_in_tx`, on the stored log. -/
def findMarkerForEscalation (log : EventLog) (escalation : Escalation) : Option ResolutionCandidate :=
  bestMarker (decoded (log.rows.filter fun row => row.executionId = escalation.executionId ∧
    row.eventType = .platform ∧ escalation.id < row.id)) escalation

/-- `get_decision`. -/
def getDecision (db : Db) (log : EventLog) (eventId : String) : Except SchedulerError DecisionBrief := do
  let some eventId := parseI64 eventId | throw (.problem .decisionNotFound)
  let some escalation := getEscalation log eventId | throw (.problem .decisionNotFound)
  let some execution := db.execution? escalation.executionId | throw (.notFound "execution lock not found")
  let terminal := execution.outcome.isSome || execution.desired = .terminate
  return buildBrief escalation (findMarkerForEscalation log escalation) execution.title terminal

end DecisionsApi

end AgentBeacon
