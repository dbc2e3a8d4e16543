import AgentBeacon.Db.Schema
import AgentBeacon.Json
import Mathlib.Algebra.GroupWithZero.Nat

/-!
# `Web.Sse` — the connection to an execution's stream

`connectExecutionSSE` keeps one `EventSource` open. What the browser, the server and the caller do to it comes in any
order: a source opens, delivers or fails, a timer runs out, the page is shown again, the caller closes or reconnects.
An `EventSource` fires no event once it is closed.
-/

namespace AgentBeacon.Web

/-! ## The events of a stream -/

/-- An event of the stream, as far as the connection reads it. -/
structure StreamedEvent where
  schemaVersion : Option Int
  sessionId : Option SessionId
  eventType : EventType
  payload : Json

/-- `isUnsupportedSchema`. -/
def StreamedEvent.isUnsupportedSchema (event : StreamedEvent) : Bool :=
  match event.schemaVersion with
  | none => false
  | some version => version ≠ 1

/-- The `??` of a member and another one. -/
def coalesced (payload : Json) (first second : String) : Option Json :=
  match payload.get first with
  | none => payload.get second
  | some .null => payload.get second
  | some value => some value

/-- `isExecutionTerminal`. -/
def isExecutionTerminal (event : StreamedEvent) : Bool :=
  if event.isUnsupportedSchema then false
  else if event.sessionId.isSome || event.eventType ≠ .stateChange then false
  else
    match (coalesced event.payload "outcome" "to").bind Json.asStr with
    | some outcome => outcome = "completed" || outcome = "failed" || outcome = "canceled"
    | none => false

/-! ## The connection -/

def maxConsecutiveErrors : Nat := 8
def backoffThreshold : Nat := 3
def maxBackoffMs : Nat := 30000

inductive ReadyState where
  | connecting | opened | closed
  deriving DecidableEq, Repr

inductive TimerKind where
  /-- Reports a disconnect that was not made good. -/
  | disconnect
  /-- Opens the next source. -/
  | backoff
  deriving DecidableEq, Repr

/-- A timer that is set. -/
structure Timer where
  id : Nat
  kind : TimerKind
  delay : Nat
  deriving DecidableEq, Repr

/-- The callbacks of the caller. -/
inductive Callback where
  | event (event : StreamedEvent)
  | ephemeral
  | connected
  | disconnected
  | reconnecting
  | position
  | protocolError
  | permanentFallback

/-- The variables of `connectExecutionSSE`, the sources and timers it has made, and the callbacks it has called. -/
structure Connection where
  consecutiveErrors : Nat
  closed : Bool
  /-- Set when the connection must not be reopened. -/
  fatal : Bool
  connected : Bool
  disconnectTimer : Option Nat
  backoffTimer : Option Nat
  inBackoff : Bool
  source : Option Nat
  sources : List ReadyState
  timers : List Timer
  nextTimer : Nat
  calls : List Callback

/-- What happens to a connection. -/
inductive SseInput where
  | onopen (source : Nat)
  /-- `none` for a message that is not an event. -/
  | onmessage (source : Nat) (event : Option StreamedEvent)
  | position (source : Nat) (parsed : Bool)
  | protocolError (source : Nat) (parsed : Bool)
  | ephemeral (source : Nat) (parsed : Bool)
  /-- `ended`: the server has refused, and the browser does not try again. -/
  | onerror (source : Nat) (ended : Bool)
  | timerFires (id : Nat)
  | visibilitychange (visible : Bool)
  | close
  | reconnect

namespace Connection

variable (c : Connection)

def call (callback : Callback) : Connection := { c with calls := c.calls ++ [callback] }

def clearTimeout (id : Option Nat) : Connection :=
  { c with timers := c.timers.filter fun timer => decide (some timer.id ≠ id) }

/-- `disconnectTimer = setTimeout(…, 2000)`. -/
def setDisconnectTimer : Connection :=
  { c with
    timers := c.timers ++ [⟨c.nextTimer, .disconnect, 2000⟩]
    disconnectTimer := some c.nextTimer
    nextTimer := c.nextTimer + 1 }

/-- `backoffTimer = setTimeout(…, delay)`. -/
def setBackoffTimer (delay : Nat) : Connection :=
  { c with
    timers := c.timers ++ [⟨c.nextTimer, .backoff, delay⟩]
    backoffTimer := some c.nextTimer
    nextTimer := c.nextTimer + 1 }

/-- The sources after `source?.close()`. -/
def closedSources : List ReadyState :=
  match c.source with
  | some i => c.sources.set i .closed
  | none => c.sources

/-- `source?.close()`. -/
def closeSource : Connection := { c with sources := c.closedSources }

/-- `source?.close(); source = null`. -/
def dropSource : Connection := { c.closeSource with source := none }

/-- `source?.readyState === EventSource.CLOSED`. -/
def sourceClosed : Bool :=
  match c.source with
  | some i => c.sources[i]? = some .closed
  | none => false

def createSource : Connection :=
  if c.closed then c
  else { c with inBackoff := false, source := some c.sources.length, sources := c.sources ++ [.connecting] }

/-- The delay before the next source. -/
def delay : Nat := min (2 ^ (c.consecutiveErrors - backoffThreshold + 1) * 1000) maxBackoffMs

/-- `onPermanentFallback` and `onDisconnected`. -/
def fallBack : Connection := (c.call .permanentFallback).call .disconnected

def onopen : Connection :=
  if c.fatal then c
  else (({ c with connected := true, consecutiveErrors := 0 }).clearTimeout c.disconnectTimer).call .connected

def onmessage (event : Option StreamedEvent) : Connection :=
  let c := { c with consecutiveErrors := 0 }
  match event with
  | none => c
  | some event =>
      let c := c.call (.event event)
      if isExecutionTerminal event then
        ((({ c with closed := true, connected := false }).clearTimeout c.disconnectTimer).dropSource).call .disconnected
      else c

def onposition (parsed : Bool) : Connection :=
  let c := { c with consecutiveErrors := 0 }
  if parsed then c.call .position else c

def onprotocolError (parsed : Bool) : Connection :=
  let c := if parsed then c.call .protocolError else c
  ((({ c with fatal := true, closed := true, connected := false }).clearTimeout c.disconnectTimer).dropSource).fallBack

def onephemeral (parsed : Bool) : Connection :=
  let c := { c with consecutiveErrors := 0 }
  if parsed then c.call .ephemeral else c

def onerror : Connection :=
  if c.closed then c
  else if c.sourceClosed then
    ((({ c with connected := false, closed := true }).closeSource).clearTimeout c.disconnectTimer).fallBack
  else
    -- a transient disconnect
    let c :=
      if c.connected then (({ c with connected := false }).clearTimeout c.disconnectTimer).setDisconnectTimer else c
    let c := { c with consecutiveErrors := c.consecutiveErrors + 1 }
    if c.consecutiveErrors ≥ maxConsecutiveErrors then
      ((({ c with closed := true }).dropSource).clearTimeout c.disconnectTimer).fallBack
    else if c.consecutiveErrors ≥ backoffThreshold then
      let c := (({ c.dropSource with inBackoff := true }).clearTimeout c.disconnectTimer)
      ((c.call .disconnected).call .reconnecting).setBackoffTimer c.delay
    else c

def handleVisibility (visible : Bool) : Connection :=
  if visible && c.inBackoff && !c.closed then (c.clearTimeout c.backoffTimer).createSource else c

def timerFires (timer : Timer) : Connection :=
  let c := { c with timers := c.timers.filter fun other => decide (other.id ≠ timer.id) }
  match timer.kind with
  | .disconnect => c.call .disconnected
  | .backoff => c.createSource

def close : Connection :=
  ((({ c with closed := true, connected := false, inBackoff := false }).clearTimeout c.disconnectTimer).clearTimeout
    c.backoffTimer).dropSource

def reconnect : Connection :=
  (((({ c with
    closed := false, fatal := false, connected := false, inBackoff := false
    consecutiveErrors := 0 }).clearTimeout c.disconnectTimer).clearTimeout c.backoffTimer).dropSource).createSource

/-- `connectExecutionSSE`. -/
def connect : Connection := createSource
  { consecutiveErrors := 0, closed := false, fatal := false, connected := false, disconnectTimer := none
    backoffTimer := none, inBackoff := false, source := none, sources := [], timers := [], nextTimer := 0, calls := [] }

end Connection

/-- What happens, and what the connection makes of it. Only a source that is not closed fires events. -/
inductive SseStep (c : Connection) : SseInput → Connection → Prop
  | onopen {i : Nat} (h : c.sources[i]? = some .connecting) :
      SseStep c (.onopen i) { c with sources := c.sources.set i .opened }.onopen
  | onmessage {i : Nat} (event : Option StreamedEvent) (h : c.sources[i]? = some .opened) :
      SseStep c (.onmessage i event) (c.onmessage event)
  | position {i : Nat} (parsed : Bool) (h : c.sources[i]? = some .opened) :
      SseStep c (.position i parsed) (c.onposition parsed)
  | protocolError {i : Nat} (parsed : Bool) (h : c.sources[i]? = some .opened) :
      SseStep c (.protocolError i parsed) (c.onprotocolError parsed)
  | ephemeral {i : Nat} (parsed : Bool) (h : c.sources[i]? = some .opened) :
      SseStep c (.ephemeral i parsed) (c.onephemeral parsed)
  | onerror {i : Nat} {state : ReadyState} (ended : Bool) (h : c.sources[i]? = some state) (hlive : state ≠ .closed) :
      SseStep c (.onerror i ended)
        { c with sources := c.sources.set i (if ended then .closed else .connecting) }.onerror
  | timerFires {timer : Timer} (h : timer ∈ c.timers) : SseStep c (.timerFires timer.id) (c.timerFires timer)
  | visibilitychange (visible : Bool) : SseStep c (.visibilitychange visible) (c.handleVisibility visible)
  | close : SseStep c .close c.close
  | reconnect : SseStep c .reconnect c.reconnect

/-- Everything that happens to a connection, from the first on. -/
inductive SseRun : List SseInput → Connection → Prop
  | connect : SseRun [] .connect
  | step {inputs : List SseInput} {input : SseInput} {c c' : Connection} (hrun : SseRun inputs c)
      (hstep : SseStep c input c') : SseRun (inputs ++ [input]) c'

end AgentBeacon.Web
