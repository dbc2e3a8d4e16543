import AgentBeacon.Api.PendingValidator
import AgentBeacon.Api.ResolvedDecisions
import AgentBeacon.System.History

/-!
# `Web.Decisions` — the client's store of decisions

`stores/questionState.ts`: the pending decisions, which each refresh replaces or finds not modified, and the history of
the resolved ones, which a walk appends page by page. Both are asked for by several components at once, so each request
has a generation, and only the answer of the newest one is applied. The times of answers and dismissals are left out, as
they are in the responses.
-/

namespace AgentBeacon.Web
open DecisionsApi Interleave

/-! ## What is shown -/

/-- `QuestionState`, of a decision that nobody has begun to answer. -/
structure QuestionState where
  questionText : String
  context : Option String
  options : Option (List QuestionOption)
  answer : String

structure DecisionBatch where
  eventId : Nat
  batchId : String
  executionId : ExecutionId
  sessionId : SessionId
  executionTitle : Option String
  status : String
  importance : String
  questions : List QuestionState
  answer : Option String
  truncated : Bool
  createdAt : Timestamp

def mapResponseToBatch (d : DecisionBrief) : DecisionBatch where
  eventId := d.eventId
  batchId := d.batchId
  executionId := d.executionId
  sessionId := d.sessionId
  executionTitle := d.executionTitle
  status := d.status
  importance := d.importance
  questions := d.questions.map fun q => ⟨q.question, q.context, q.options, ""⟩
  answer := d.answer
  truncated := d.truncated.getD false
  createdAt := d.createdAt

/-- A resolved decision as history renders it. -/
structure PastDecision where
  eventId : String
  batchId : String
  executionId : ExecutionId
  executionTitle : Option String
  sessionId : SessionId
  status : String
  importance : String
  questionPreview : String
  questionCount : Nat
  createdAt : Timestamp

def mapResponseToSummary (d : DecisionSummary) : PastDecision where
  eventId := d.eventId
  batchId := d.batchId
  executionId := d.executionId
  executionTitle := d.executionTitle
  sessionId := d.sessionId
  status := "resolved"
  importance := d.importance
  questionPreview := d.questionPreview
  questionCount := d.questionCount
  createdAt := d.createdAt

/-- What a request throws: its message, if it is an `Error`. -/
abbrev Thrown := Option String

/-! ## The store -/

/-- The answer of `getDecisionsPending`. -/
inductive PendingDecisionsResult where
  | notModified
  | modified (etag : Option String) (decisions : List DecisionBrief)

/-- The outcome of a refresh; `stale` means that nothing was applied. -/
inductive RefreshResult where
  | applied
  | stale
  | failed (error : Thrown)

structure DecisionStore where
  pendingDecisions : List DecisionBatch
  pendingEtag : Option String
  pendingGeneration : Nat
  refreshInFlight : Bool
  resolvedHistory : List PastDecision
  pastDecisionsCursor : Option String
  pastDecisionsHasMore : Bool
  pastDecisionsError : Option String
  resolvedGeneration : Nat

namespace DecisionStore

def fresh : DecisionStore where
  pendingDecisions := []
  pendingEtag := none
  pendingGeneration := 0
  refreshInFlight := false
  resolvedHistory := []
  pastDecisionsCursor := none
  pastDecisionsHasMore := false
  pastDecisionsError := none
  resolvedGeneration := 0

variable (store : DecisionStore)

/-- `setDecisionsFromResponse`: ascending from the server, newest first here. -/
def setDecisionsFromResponse (decisions : List DecisionBrief) : DecisionStore :=
  { store with pendingDecisions := (decisions.map mapResponseToBatch).reverse }

/-- `pastDecisions`: the summaries that the pending list does not hold. -/
def pastDecisions : List PastDecision :=
  store.resolvedHistory.filter fun d => d.eventId ∉ store.pendingDecisions.map fun p => toString p.eventId

/-- `refreshDecisions` returns before it has asked. -/
def skips (skipIfInFlight : Bool) : Bool := skipIfInFlight && store.refreshInFlight

/-- `refreshDecisions`, up to its request: the generation is the new one, the validator sent is `pendingEtag`. -/
def beginRefresh : DecisionStore :=
  { store with pendingGeneration := store.pendingGeneration + 1, refreshInFlight := true }

/-- `refreshDecisions`, once its request is answered, up to its `finally`. -/
def applyRefresh (generation : Nat) (answer : Except Thrown PendingDecisionsResult) :
    DecisionStore × RefreshResult :=
  match answer with
  | .ok result =>
      if generation ≠ store.pendingGeneration then (store, .stale)
      else match result with
        | .notModified => (store, .applied)
        | .modified etag decisions =>
            (setDecisionsFromResponse { store with pendingEtag := etag } decisions, .applied)
  | .error error => if generation ≠ store.pendingGeneration then (store, .stale) else (store, .failed error)

/-- Only the newest request re-opens the gate. -/
def endRefresh (generation : Nat) (answer : Except Thrown PendingDecisionsResult) :
    DecisionStore × RefreshResult :=
  let (store, result) := store.applyRefresh generation answer
  (if generation = store.pendingGeneration then { store with refreshInFlight := false } else store, result)

/-- The cursor that `loadMorePastDecisions` asks below. -/
def before (reset : Bool) : Option String := if reset then none else store.pastDecisionsCursor

/-- `loadMorePastDecisions`, up to its request. -/
def beginLoad : DecisionStore := { store with resolvedGeneration := store.resolvedGeneration + 1 }

/-- `loadMorePastDecisions`, once its request is answered. Nothing but the error of a first page is published on
failure. -/
def endLoad (reset : Bool) (generation : Nat) (answer : Except Thrown (PageV1 DecisionSummary)) : DecisionStore :=
  if generation ≠ store.resolvedGeneration then store
  else match answer with
    | .error error =>
        if reset then { store with pastDecisionsError := some (error.getD "Failed to load history") } else store
    | .ok page =>
        let items := page.items.map mapResponseToSummary
        { store with
          pastDecisionsError := none
          resolvedHistory := if reset then items else store.resolvedHistory ++ items
          pastDecisionsCursor := page.nextCursor
          pastDecisionsHasMore := page.hasMore }

end DecisionStore

/-! ## The client and the scheduler -/

/-- A refresh whose answer has not been applied: the validator it sent, when it was sent, and its answer once the
scheduler has given one. -/
structure RefreshCall where
  etag : Option String
  started : History
  answer : Option (Except Thrown PendingDecisionsResult)

/-- A call of `loadMorePastDecisions` whose answer has not been applied. -/
structure LoadCall where
  reset : Bool
  before : Option String
  started : History
  answer : Option (Except Thrown (PageV1 DecisionSummary))

/-- The store, its calls by their generations, and the scheduler. -/
structure DecisionsView where
  history : History
  store : DecisionStore
  refreshes : Nat → Option (RefreshCall)
  loads : Nat → Option LoadCall

namespace DecisionsView

def start : DecisionsView where
  history := []
  store := .fresh
  refreshes := fun _ => none
  loads := fun _ => none

variable (view : DecisionsView)

/-- A refresh is sent. -/
def refresh : DecisionsView :=
  { view with
    store := view.store.beginRefresh
    refreshes := Function.update view.refreshes (view.store.pendingGeneration + 1)
      (some ⟨view.store.pendingEtag, view.history, none⟩) }

/-- A refresh is answered. -/
def answer (generation : Nat) (call : RefreshCall) (answer : Except Thrown PendingDecisionsResult) :
    DecisionsView :=
  { view with refreshes := Function.update view.refreshes generation (some { call with answer := some answer }) }

/-- The answer of a refresh arrives. -/
def arrive (generation : Nat) (answer : Except Thrown PendingDecisionsResult) : DecisionsView :=
  { view with
    store := (view.store.endRefresh generation answer).1
    refreshes := Function.update view.refreshes generation none }

def load (reset : Bool) : DecisionsView :=
  { view with
    store := view.store.beginLoad
    loads := Function.update view.loads (view.store.resolvedGeneration + 1)
      (some ⟨reset, view.store.before reset, view.history, none⟩) }

def answerLoad (generation : Nat) (call : LoadCall) (answer : Except Thrown (PageV1 DecisionSummary)) :
    DecisionsView :=
  { view with loads := Function.update view.loads generation (some { call with answer := some answer }) }

def arriveLoad (generation : Nat) (call : LoadCall) (answer : Except Thrown (PageV1 DecisionSummary)) :
    DecisionsView :=
  { view with
    store := view.store.endLoad call.reset generation answer
    loads := Function.update view.loads generation none }

end DecisionsView

/-- The result of `getDecisionsPending`, of a response. -/
def pendingResult : String × Option (List DecisionBrief) → PendingDecisionsResult
  | (_, none) => .notModified
  | (etag, some decisions) => .modified (some etag) decisions

/-- The moments at which the queries of a page are made, one after the other. -/
structure PageMoments (started now : History) where
  active : History
  scanned : History
  chunks : Nat → History
  activeAfter : History
  scannedAfter : History
  titles : History
  below : History
  sent : started <:+ active
  scan : active <:+ scanned
  walk : scanned <:+ chunks 0
  onward : ∀ n, chunks n <:+ chunks (n + 1)
  walked : ∀ n, chunks n <:+ activeAfter
  rescan : activeAfter <:+ scannedAfter
  named : scannedAfter <:+ titles
  ends : titles <:+ below
  past : below <:+ now

/-- What they read. -/
def PageMoments.reads {started now : History} (moments : PageMoments started now) (logs : History → EventLog) :
    ResolvedReads where
  active := current moments.active
  scanned := (current moments.scanned, logs moments.scanned)
  chunks := fun n => logs (moments.chunks n)
  activeAfter := current moments.activeAfter
  scannedAfter := (current moments.scannedAfter, logs moments.scannedAfter)
  titles := current moments.titles
  below := logs moments.below

section Steps

variable (sha256 : String → String) (logs : History → EventLog)

/-- One step of the client, the network or the scheduler. A refresh is answered from two moments since it was sent: the
marks are read at the first, the log is scanned at the second; a page is answered from one moment for each of its
queries. Only a component that is told that there is more asks for a further page. Requests may fail whenever they
like. -/
inductive DecisionsStep : DecisionsView → DecisionsView → Prop where
  | served {view : DecisionsView} (later : History) :
      DecisionsStep view { view with history := later ++ view.history }
  | refresh {view : DecisionsView} (skipIfInFlight : Bool) (hasks : view.store.skips skipIfInFlight = false) :
      DecisionsStep view view.refresh
  | answer {view : DecisionsView} {generation : Nat} {call : RefreshCall} {marked : History}
      (hcall : view.refreshes generation = some call) (hwaits : call.answer = none) (hsent : call.started <:+ marked)
      (hmarked : marked <:+ view.history) :
      DecisionsStep view (view.answer generation call (.ok (pendingResult (pendingResponse sha256 (current marked)
        (current view.history) (logs view.history) none call.etag))))
  | fail {view : DecisionsView} {generation : Nat} {call : RefreshCall} (error : Thrown)
      (hcall : view.refreshes generation = some call) (hwaits : call.answer = none) :
      DecisionsStep view (view.answer generation call (.error error))
  | arrive {view : DecisionsView} {generation : Nat} {call : RefreshCall}
      {answer : Except Thrown PendingDecisionsResult} (hcall : view.refreshes generation = some call)
      (hanswer : call.answer = some answer) : DecisionsStep view (view.arrive generation answer)
  | load {view : DecisionsView} (reset : Bool) (hmore : reset = true ∨ view.store.pastDecisionsHasMore = true) :
      DecisionsStep view (view.load reset)
  | answerLoad {view : DecisionsView} {generation : Nat} {call : LoadCall} {page : PageV1 DecisionSummary}
      (hcall : view.loads generation = some call) (hwaits : call.answer = none)
      (moments : PageMoments call.started view.history)
      (hpage : resolvedDecisionsFrom (moments.reads logs) scanBudget call.before none = .ok page) :
      DecisionsStep view (view.answerLoad generation call (.ok page))
  | failLoad {view : DecisionsView} {generation : Nat} {call : LoadCall} (error : Thrown)
      (hcall : view.loads generation = some call) (hwaits : call.answer = none) :
      DecisionsStep view (view.answerLoad generation call (.error error))
  | arriveLoad {view : DecisionsView} {generation : Nat} {call : LoadCall}
      {answer : Except Thrown (PageV1 DecisionSummary)} (hcall : view.loads generation = some call)
      (hanswer : call.answer = some answer) : DecisionsStep view (view.arriveLoad generation call answer)

inductive DecisionsRun (first : DecisionsView) : DecisionsView → Prop where
  | refl : DecisionsRun first first
  | step {view next : DecisionsView} (h : DecisionsRun first view) (hstep : DecisionsStep sha256 logs view next) :
      DecisionsRun first next

end Steps

end AgentBeacon.Web
