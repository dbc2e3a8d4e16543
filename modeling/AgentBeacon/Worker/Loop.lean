import AgentBeacon.Worker.Executor

/-!
# `Worker.Loop` — the loop of a session

`run_session` waits for the executor's events, for the answer to its long poll and for two timers. Commands for the
executor, requests to the scheduler and signals are logged. Each prompt handed over has a number, which an `Accepted`
carries here and not in the program: nothing in the loop looks at it.
-/

namespace AgentBeacon
namespace Executors.Loop

/-! ## What is exchanged with the scheduler -/

inductive CommandAction where
  | assign
  | feedTurn (payload : Json)
  | stopTurn
  | cancel
  deriving DecidableEq

inductive SyncResponse where
  | noAction
  | command (token : String) (action : CommandAction)
  deriving DecidableEq

structure ExecutorReport where
  executorState : String
  agentSessionId : Option String
  deriving DecidableEq, Repr

/-- `TurnResult` of a request. -/
structure TurnReport where
  messages : List (Int × Json)
  error : Option String
  errorKind : Option String
  deriving DecidableEq

/-- A request to the scheduler; the worker and the session are always the same. -/
structure SyncRequest where
  executorReport : Option ExecutorReport
  turnResult : Option TurnReport
  commandAck : Option String
  deriving DecidableEq

/-- The answer to a request, or an error. -/
abbrev Reply := Except String SyncResponse

def ErrorKind.asStr : ErrorKind → String
  | .executorFailed => "executor_failed"
  | .cancelled => "cancelled"
  | .stoppedByUser => "stopped_by_user"
  | .budgetExceeded => "budget_exceeded"
  | .maxTurns => "max_turns"

/-! ## The state -/

/-- An event on its way to the loop; an `Accepted` is for a prompt. -/
inductive Emission where
  | accepted (prompt : Nat)
  | event (event : AgentEvent)
  deriving DecidableEq

/-- What happened: a prompt was handed over (the starting one, or with the token of a `feed_turn`), another command
was sent to the executor, the executor emitted something, a command came from the scheduler, a request was made, or a
signal was sent. -/
inductive Entry where
  | handed (prompt : Nat) (token : Option String)
  | told (command : AgentCommand)
  | emitted (emission : Emission)
  | received (token : String) (action : CommandAction)
  | requested (request : SyncRequest)
  | signalled (signal : String)
  deriving DecidableEq

/-- The locals of `run_session`, the events on their way, and the log. `poll` is the request of the long poll,
`escalation` the stage of an armed escalation. -/
structure Session where
  agentSessionId : Option String
  msgSeq : Int
  turnMessages : List (Int × Json)
  lastAck : Option String
  executorRunning : Bool
  cancelAckPending : Bool
  pendingStopToken : Option String
  pendingFeedToken : Option String
  escalation : Option Nat
  silence : Bool
  poll : Option SyncRequest
  running : Bool
  events : List Emission
  nextPrompt : Nat
  log : List Entry
  deriving DecidableEq

namespace Session

def record (s : Session) (e : Entry) : Session := { s with log := s.log ++ [e] }

/-- After the `Start`. -/
def begin (initialToken : String) (agentSessionId : Option String) (nextMsgSeq : Int) : Session where
  agentSessionId := agentSessionId
  msgSeq := nextMsgSeq
  turnMessages := []
  lastAck := some initialToken
  executorRunning := true
  cancelAckPending := false
  pendingStopToken := none
  pendingFeedToken := none
  escalation := none
  silence := false
  poll := none
  running := true
  events := []
  nextPrompt := 1
  log := [.received initialToken .assign, .handed 0 none]

/-- The loop is left. -/
def leave (s : Session) : Session := { s with running := false }

/-! ## Commands -/

/-- `handle_command`. -/
def handleCommand (s : Session) (token : String) : CommandAction → Session
  | .feedTurn payload =>
      -- the command is repeated until it is acknowledged
      if s.pendingFeedToken = some token then s
      else
        match extractParts payload with
        | .ok _ =>
            { s with executorRunning := true, pendingFeedToken := some token, nextPrompt := s.nextPrompt + 1 }.record
              (.handed s.nextPrompt (some token))
        | .error _ => s
  | .stopTurn =>
      if s.executorRunning then
        { s with pendingFeedToken := none, pendingStopToken := some token }.record (.told .stopTurn)
      -- no turn to stop: it is acknowledged at once
      else { s with pendingFeedToken := none, lastAck := some token }
  | .cancel =>
      { s with
        pendingFeedToken := none, pendingStopToken := none, lastAck := some token, cancelAckPending := true }.record
        (.told .cancel)
  | .assign => s

/-- A command in an answer, and the escalation that it may call for. -/
def command (s : Session) (token : String) (action : CommandAction) : Session :=
  let handled := (s.record (.received token action)).handleCommand token action
  if handled.cancelAckPending ∨ handled.pendingStopToken ≠ none then { handled with escalation := some 0 } else handled

/-! ## Requests -/

def report (s : Session) (executorState : String) : ExecutorReport := ⟨executorState, s.agentSessionId⟩

def stateName (s : Session) : String := if s.executorRunning then "running" else "idle"

/-- `start_long_poll`. -/
def startLongPoll (s : Session) (report : Option ExecutorReport) (ack : Option String) : Session :=
  { s with poll := some ⟨report, none, ack⟩ }.record (.requested ⟨report, none, ack⟩)

/-- The acknowledgement of the poll behind an `Accepted` or an answered poll. -/
def ackForPoll (s : Session) : Option String :=
  if s.cancelAckPending ∨ s.pendingStopToken ≠ none ∨ s.pendingFeedToken ≠ none then none else s.lastAck

/-- `start_long_poll` with a report. -/
def pollAgain (s : Session) : Session := s.startLongPoll (some (s.report s.stateName)) s.ackForPoll

/-- The acknowledgement that the end of a turn or of the process takes along. -/
def takeAck (s : Session) : Session × Option String :=
  if s.cancelAckPending then ({ s with lastAck := none }, s.lastAck)
  else
    match s.pendingStopToken with
    | some token => ({ s with pendingStopToken := none }, some token)
    | none => ({ s with lastAck := none }, s.lastAck)

/-! ## Events -/

/-- The messages that the end of a turn reports; its output counts if there was no message. -/
def takeMessages (s : Session) (output : Option Json) : Session × List (Int × Json) :=
  match s.turnMessages, output with
  -- the output is the only message
  | [], some output => ({ s with msgSeq := s.msgSeq + 1 }, [(s.msgSeq + 1, output)])
  | messages, _ => ({ s with turnMessages := [] }, messages)

/-- The answer to the report of a turn's end. -/
def turnReported (s : Session) (settled : Bool) : SyncResponse → Session
  | .command token action =>
      if s.cancelAckPending then s.leave
      else
        let handled := ({ s with cancelAckPending := false, escalation := none }.record
          (.received token action)).handleCommand token action
        let armed := if handled.cancelAckPending ∨ handled.pendingStopToken ≠ none then
          { handled with escalation := some 0 } else handled
        { armed.startLongPoll none (if armed.pendingStopToken ≠ none ∨ armed.pendingFeedToken ≠ none then none
          else armed.lastAck) with silence := !settled }
  | .noAction =>
      if s.cancelAckPending then s.leave
      else { { s with cancelAckPending := false, escalation := none }.startLongPoll none s.lastAck with
        silence := !settled }

def handleTurnComplete (s : Session) (result : TurnResult) (settled : Bool) (reply : Reply) : Session :=
  let (taken, messages) := { s with
    silence := false, agentSessionId := result.agentSessionId.or s.agentSessionId }.takeMessages result.output
  let ended := { taken with poll := none, executorRunning := taken.executorRunning && !settled }
  let (acked, ack) := ended.takeAck
  let request : SyncRequest := ⟨some (ended.report (if settled then "idle" else "running")),
    some ⟨messages, result.error, result.errorKind.map ErrorKind.asStr⟩, ack⟩
  let reported := acked.record (.requested request)
  match reply with
  | .ok response => reported.turnReported settled response
  -- the scheduler has not heard of the end: the executor is stopped
  | .error _ => (reported.record (.told .stop)).leave

def handleInit (s : Session) (sessionId : String) : Session :=
  let known := { s with silence := false, agentSessionId := some sessionId, executorRunning := true }
  if known.poll = none then known.startLongPoll (some (known.report "running")) known.lastAck else known

/-- `Accepted`: whose it is cannot be seen. -/
def handleAccepted (s : Session) (reply : Reply) : Session :=
  let heard := { s with silence := false }
  match heard.pendingFeedToken with
  | none => heard
  | some feedToken =>
      let acked := { heard with pendingFeedToken := none, poll := none }.record
        (.requested ⟨some (heard.report "running"), none, some feedToken⟩)
      match reply with
      | .ok (.command token action) => (acked.command token action).pollAgain
      | .ok .noAction => acked.pollAgain
      -- the acknowledgement goes along with the next poll
      | .error _ => { acked with lastAck := some feedToken }.pollAgain

def handleMessage (s : Session) (output : Json) (ephemeral : Bool) : Session :=
  { s with
    silence := false
    msgSeq := s.msgSeq + 1
    turnMessages := if ephemeral then s.turnMessages else s.turnMessages ++ [(s.msgSeq + 1, output)] }

def handleProcessDied (s : Session) (error : String) (agentSessionId : Option String) : Session :=
  let known := { s with
    silence := false, agentSessionId := agentSessionId.or s.agentSessionId, pendingFeedToken := none }
  let (acked, ack) := { known with turnMessages := [] }.takeAck
  (acked.record (.requested ⟨some (known.report "crashed"),
    some ⟨known.turnMessages, some error, some "executor_failed"⟩, ack⟩)).leave

def handleEvent (s : Session) (reply : Reply) : Emission → Session
  | .accepted _ => s.handleAccepted reply
  | .event (.turnComplete result settled) => s.handleTurnComplete result settled reply
  | .event (.init sessionId) => s.handleInit sessionId
  | .event (.message output ephemeral) => s.handleMessage output ephemeral
  | .event (.processDied error agentSessionId) => s.handleProcessDied error agentSessionId

/-- The event channel is closed. -/
def handleClosed (s : Session) : Session :=
  let ack := if s.cancelAckPending then s.lastAck else s.pendingStopToken.or s.lastAck
  match ack with
  | some ack => (s.record (.requested ⟨none, none, some ack⟩)).leave
  | none => s.leave

/-- The long poll is answered. -/
def handlePoll (s : Session) (reply : Reply) : Session :=
  let answered := { s with poll := none }
  let forgotten := if answered.cancelAckPending then answered else { answered with lastAck := none }
  match reply with
  | .ok (.command token action) => (forgotten.command token action).pollAgain
  | .ok .noAction => forgotten.pollAgain
  | .error _ => answered.pollAgain

/-- The escalation timer fires. -/
def handleEscalation (s : Session) (stage : Nat) : Session :=
  match stage with
  | 0 => { s with escalation := some 1 }.record (.signalled "SIGINT")
  | _ => { s with escalation := none }.record (.signalled "SIGKILL")

end Session

/-! ## The loop -/

/-- What comes next: the executor emits something or is gone, or a branch of the `select!` is taken. -/
inductive Pick where
  | emit (emission : Emission)
  | event (reply : Reply)
  | closed
  | poll (reply : Reply)
  | escalation
  | silence
  deriving DecidableEq

namespace Session

/-- Whether the executor can emit it: an `Accepted` is for a prompt that was handed over, and comes once. -/
def canEmit (s : Session) : Emission → Bool
  | .accepted prompt => prompt < s.nextPrompt && !s.log.contains (.emitted (.accepted prompt))
  | .event _ => true

/-- An executor emits, or the loop takes a branch that is ready; an event comes before everything else. -/
def handlePick (s : Session) : Pick → Session
  | .emit emission =>
      if s.canEmit emission then { s with events := s.events ++ [emission] }.record (.emitted emission) else s
  | .event reply =>
      match s.events with
      | emission :: events => { s with events }.handleEvent reply emission
      | [] => s
  | .closed => if s.events = [] then s.handleClosed else s
  | .poll reply => if s.events = [] ∧ s.poll ≠ none then s.handlePoll reply else s
  | .escalation =>
      match s.events, s.escalation with
      | [], some stage => s.handleEscalation stage
      | _, _ => s
  | .silence =>
      if s.events = [] ∧ s.silence = true then { s with silence := false }.record (.signalled "SIGKILL") else s

def iterate (s : Session) (pick : Pick) : Session := if s.running then s.handlePick pick else s

def run (initialToken : String) (agentSessionId : Option String) (nextMsgSeq : Int) (picks : List Pick) : Session :=
  picks.foldl iterate (begin initialToken agentSessionId nextMsgSeq)

end Session

end Executors.Loop
end AgentBeacon
