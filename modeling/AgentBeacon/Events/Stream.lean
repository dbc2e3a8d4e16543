import AgentBeacon.Events.Paging

/-!
# `Events.Stream` — the live stream of an execution's events

`GET …/events/stream`: the stream announces the highest event id at its opening and then, woken by a
broadcast or its timer, reads the rows above the last id it has passed, page by page. Writers go on
between any two of its reads.
-/

namespace AgentBeacon
open Keyset

/-! ## What is sent -/

/-- `EphemeralPayload`: an event that is broadcast and not stored. -/
structure EphemeralPayload where
  sessionId : SessionId
  msgSeq : Int
  payload : Json

/-- `EventNotification`. -/
structure EventNotification where
  executionId : ExecutionId
  eventId : Nat
  ephemeral : Option EphemeralPayload

/-- What a stream sends. -/
inductive Frame where
  | position (position historyBefore : Option Nat)
  | ephemeral (payload : EphemeralPayload)
  | event (e : EventRow)
  | protocolError

/-- The stored event a frame carries. -/
def Frame.stored : Frame → Option EventRow
  | event e => some e
  | _ => none

/-- `is_terminal_event`: a `state_change` of the execution itself to a final outcome. -/
def isTerminalEvent (e : EventRow) : Bool :=
  let outcome := (e.payload.get "outcome").bind Json.asStr
  let target := (e.payload.get "to").bind Json.asStr
  e.sessionId.isNone && e.eventType = .stateChange &&
    (outcome.or target).any (· ∈ ["completed", "failed", "canceled"])

/-! ## The stream -/

/-- Where a stream stands: waiting to be woken, reading pages, or closed. -/
inductive Phase where
  | waiting | reading | closed
  deriving DecidableEq, Repr

structure Stream where
  executionId : ExecutionId
  position : Option Nat
  lastSentId : Nat
  phase : Phase
  sent : List Frame

/-- `position.and_then(|id| id.checked_add(1))`. -/
def historyBefore (position : Option Nat) : Option Nat :=
  position.bind fun id => if id < maxRowId then some (id + 1) else none

/-- `execution_event_stream`, up to the first wait. -/
def openStream (log : EventLog) (executionId : ExecutionId) : Stream :=
  let position := log.maxIdForExecution executionId
  { executionId, position, lastSentId := position.getD 0, phase := .waiting
    sent := [.position position (historyBefore position)] }

/-- The loop over a batch: what is sent, the last id passed, whether a terminal event ended it. -/
def deliver (last : Nat) : List EventRow → List EventRow × Nat × Bool
  | [] => ([], last, false)
  | e :: rest =>
      if isTerminalEvent e then ([e], e.id, true)
      else
        let (sent, last, ended) := deliver e.id rest
        (e :: sent, last, ended)

namespace Stream

/-- The stored events sent so far. -/
def streamed (s : Stream) : List EventRow := s.sent.filterMap Frame.stored

/-- A broadcast; those of other executions are ignored. -/
def notify (s : Stream) (notification : EventNotification) : Stream :=
  if notification.executionId ≠ s.executionId then s
  else { s with
    phase := .reading
    sent := s.sent ++ (notification.ephemeral.map Frame.ephemeral).toList }

/-- One page of the inner loop. -/
def read (s : Stream) (log : EventLog) : Stream :=
  let batch := log.listAfter (.execution s.executionId) s.lastSentId eventsMaxPage.toNat
  let (sent, last, ended) := deliver s.lastSentId batch.events
  if ended then
    { s with lastSentId := last, phase := .closed, sent := s.sent ++ sent.map Frame.event }
  else
    { s with
      lastSentId := max last (batch.highestId.getD last)
      phase := if batch.scanned < eventsMaxPage.toNat then .waiting else .reading
      sent := s.sent ++ sent.map Frame.event }

end Stream

/-! ## Writers and the stream, interleaved -/

/-- What the writers of events do to the log: within each execution they are serialised, so the rows
of an execution only get successors. -/
def EventLog.Extends (log log' : EventLog) : Prop :=
  ∀ executionId, log.of (.execution executionId) <+: log'.of (.execution executionId)

/-- A client that follows the cursors while the log grows: each page is of what the log is by then. -/
inductive GrowingWalk {ν : Type} (render : EventRow → ν) (log : EventLog) (scope : Scope) :
    EventPageQuery → List (PageV1 ν) → Prop where
  | last {now : EventLog} {query : EventPageQuery} {page : PageV1 ν} (hgrown : log.Extends now)
      (h : now.page render scope query = .ok page) (hend : page.hasMore = false) :
      GrowingWalk render log scope query [page]
  | more {now : EventLog} {query : EventPageQuery} {page : PageV1 ν} {cursor : String}
      {pages : List (PageV1 ν)} (hgrown : log.Extends now)
      (h : now.page render scope query = .ok page) (hmore : page.hasMore = true)
      (hcursor : page.nextCursor = some cursor)
      (hrest : GrowingWalk render log scope (query.follow cursor) pages) :
      GrowingWalk render log scope query (page :: pages)

/-- One step of the writers, the broadcast, the timer or the stream. -/
inductive StreamStep : EventLog × Stream → EventLog × Stream → Prop where
  | write {log log' : EventLog} {s : Stream} (h : log.Extends log') : StreamStep (log, s) (log', s)
  | notified {log : EventLog} {s : Stream} (notification : EventNotification)
      (h : s.phase = .waiting) : StreamStep (log, s) (log, s.notify notification)
  | tick {log : EventLog} {s : Stream} (h : s.phase = .waiting) :
      StreamStep (log, s) (log, { s with phase := .reading })
  /-- The receiver has lagged, or the channel is closed. -/
  | hangUp {log : EventLog} {s : Stream} (h : s.phase = .waiting) :
      StreamStep (log, s) (log, { s with phase := .closed })
  | read {log : EventLog} {s : Stream} (h : s.phase = .reading) : StreamStep (log, s) (log, s.read log)
  | readFailed {log : EventLog} {s : Stream} (h : s.phase = .reading) :
      StreamStep (log, s) (log, { s with phase := .closed, sent := s.sent ++ [.protocolError] })

/-- A stream that was opened on `log₀`, and what has become of the log and the stream since. -/
inductive StreamRun (log₀ : EventLog) (executionId : ExecutionId) : EventLog × Stream → Prop where
  | opened : StreamRun log₀ executionId (log₀, openStream log₀ executionId)
  | step {now next : EventLog × Stream} (h : StreamRun log₀ executionId now)
      (hs : StreamStep now next) : StreamRun log₀ executionId next

end AgentBeacon
