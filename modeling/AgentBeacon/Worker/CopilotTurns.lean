import AgentBeacon.Worker.SdkTask

/-!
# `Worker.CopilotTurns` — the turns of the Copilot executor

`copilot-executor.ts` as a whole: the handler of its input lines, the handlers of the events of a session, and the main
loop with the turns of a session, which stands still wherever it awaits. Lines and events come in between. The log keeps
what comes in, what is put out, and where turns begin and end; the code does not look at the log. Temporary files and
the configuration of a session are left out; whether the attachments of a prompt can be written is decided outside.
-/

namespace AgentBeacon
namespace Executors.Copilot
open Sdk (TurnState)

inductive Command where
  | start (parts : List Json)
  | prompt (parts : List Json)
  | stop
  | eof
  | other

def Command.isTurn : Command → Bool
  | .start _ | .prompt _ => true
  | _ => false

/-- A line of the input; its end counts as the command `eof`. -/
inductive Line where
  | cancel
  | stopTurn
  | command (command : Command)

/-- The events of a session, with the data that is read. -/
inductive SessionEvent where
  | message (content : String)
  | toolStart (toolCallId toolName : String) (arguments : Option Json)
  | toolComplete (toolCallId : String) (success : Bool) (contents : List Json) (errorMessage content : Option String)
  | reasoning (content : String)
  | reasoningDelta (deltaContent : Option String)
  | messageDelta (deltaContent : Option String)
  | idle
  | error (errorType message : String)

/-- The promise of `waitForIdle`. -/
inductive IdlePromise where
  | pending
  | resolved
  | rejected (message : String)

/-- Where the main loop awaits. -/
inductive Awaiting where
  | commands
  | connecting (parts : List Json)
  | opening (parts : List Json)
  | sending (idle : IdlePromise)
  | idling (idle : IdlePromise)
  | prompts
  | disconnecting
  | stopping (error : Option String)
  | done

structure Result where
  subtype : String
  result : Option String
  errors : List String

/-- What is put out beside the messages that are persisted and the results of turns. -/
inductive Told where
  | init
  | accepted
  | ephemeral (block : Json)
  | error (message : String)
  | shutdown

/-- An entry of the log. -/
inductive Entry where
  | got (event : SessionEvent)
  | woken (unsendable : Option String)
  | answered (error unsendable : Option String)
  | queued (command : Command)
  | taken (command : Command)
  | discarded (commands : List Command)
  | steered (parts : List Json) (sendable : Bool)
  | cancelled
  | stopped
  | stopKept
  | shutDown
  | began (parts : List Json)
  | failed (error : String)
  | ended (result : Result)
  | crashed
  | put (content : List Json)
  | dropped (content : List Json)
  | told (event : Told)

/-- The variables of the process. The newest entry of the log is the first. -/
structure Script where
  currentSession : Bool
  aborted : Bool
  stoppedByUser : Bool
  pendingStopTurn : Bool
  shutdownRequested : Bool
  turnState : TurnState
  pendingBlocks : List Json
  lastAssistantContent : Option String
  commandQueue : List Command
  awaiting : Awaiting
  log : List Entry

namespace Script

def fresh : Script where
  currentSession := false
  aborted := false
  stoppedByUser := false
  pendingStopTurn := false
  shutdownRequested := false
  turnState := .idle
  pendingBlocks := []
  lastAssistantContent := none
  commandQueue := []
  awaiting := .commands
  log := []

variable (s : Script)

def note (entry : Entry) : Script := { s with log := entry :: s.log }

def tell (event : Told) : Script := s.note (.told event)

/-- `hasQueuedTurnCommand`. -/
def hasQueuedTurnCommand : Bool := s.commandQueue.any Command.isTurn

/-- `discardQueuedTurnCommands`. -/
def discardQueuedTurnCommands : Script :=
  { s.note (.discarded (s.commandQueue.filter Command.isTurn)) with
    commandQueue := s.commandQueue.filter fun command => !command.isTurn }

/-- `flushPendingBlocks`. -/
def flushPendingBlocks : Script :=
  if s.pendingBlocks.isEmpty then s else { s.note (.put s.pendingBlocks) with pendingBlocks := [] }

/-- A session is there, and a turn of it is not idle. -/
def isActive : Bool := s.currentSession && s.turnState != .idle

/-! ## Input lines -/

def enqueue (command : Command) : Script :=
  { s.note (.queued command) with commandQueue := s.commandQueue ++ [command] }

/-- A line; `sendable` is whether the attachments of a prompt can be written. -/
def handleLine (line : Line) (sendable : Bool) : Script :=
  match line with
  | .cancel =>
      if s.isActive then { s.note .cancelled with aborted := true }
      -- between turns the process shuts down; the `stop` wakes whatever waits for a command
      else { s.note .shutDown with shutdownRequested := true }.discardQueuedTurnCommands.enqueue .stop
  | .stopTurn =>
      if s.isActive then
        { s.note .stopped with stoppedByUser := true, aborted := true }.discardQueuedTurnCommands
      -- the turn it is meant for has not begun yet
      else if s.turnState = .starting ∨ s.hasQueuedTurnCommand then { s.note .stopKept with pendingStopTurn := true }
      else s
  | .command (.prompt parts) =>
      -- a turn in flight is steered
      if s.turnState = .inFlight ∧ s.currentSession then
        let steered := s.note (.steered parts sendable)
        if sendable then steered.tell .accepted else steered
      else s.enqueue (.prompt parts)
  | .command command => s.enqueue command

/-! ## Events of the session -/

def textBlock (content : String) : Json := .obj [("type", .str "text"), ("text", .str content)]
def thinkingBlock (content : String) : Json := .obj [("type", .str "thinking"), ("thinking", .str content)]

def toolUse (toolCallId toolName : String) (arguments : Option Json) : Json :=
  .obj ([("type", .str "tool_use"), ("id", .str toolCallId), ("name", .str toolName)] ++
    (arguments.map fun input => ("input", input)).toList)

/-- What a tool returns: structured content, if there is any, else a text. -/
def toolResult (toolCallId : String) (success : Bool) (contents : List Json) (errorMessage content : Option String) :
    Json :=
  let resultContent : Json :=
    if !contents.isEmpty then .arr contents
    else if !success then .str ((errorMessage.or content).getD "")
    else .str (content.getD "")
  .obj [("type", .str "tool_result"), ("tool_use_id", .str toolCallId), ("content", resultContent),
    ("is_error", .bool !success)]

def fatalErrorTypes : List String := ["connection_closed", "auth_failure"]

/-- The first of an idle session and a fatal error settles the promise. -/
def settleIdle (idle : IdlePromise) : Script :=
  match s.awaiting with
  | .sending .pending => { s with awaiting := .sending idle }
  | .idling .pending => { s with awaiting := .idling idle }
  | _ => s

/-- An event of the session that is there. -/
def handleEvent (event : SessionEvent) : Script :=
  let got := s.note (.got event)
  match event with
  | .message content =>
      { got with
        lastAssistantContent := some content,
        pendingBlocks := s.pendingBlocks ++ [textBlock content] }.flushPendingBlocks
  | .toolStart toolCallId toolName arguments =>
      { got with pendingBlocks := s.pendingBlocks ++ [toolUse toolCallId toolName arguments] }
  | .toolComplete toolCallId success contents errorMessage content =>
      { got with pendingBlocks := s.pendingBlocks ++ [toolResult toolCallId success contents errorMessage content] }
  | .reasoning content => got.flushPendingBlocks.note (.put [thinkingBlock content])
  | .reasoningDelta deltaContent =>
      match deltaContent with
      | some text =>
          got.flushPendingBlocks.tell (.ephemeral (.obj [("type", .str "thinking_delta"), ("thinking", .str text)]))
      | none => got.flushPendingBlocks
  | .messageDelta deltaContent =>
      match deltaContent with
      | some text => got.tell (.ephemeral (.obj [("type", .str "text_delta"), ("text", .str text)]))
      | none => got
  | .idle => got.settleIdle .resolved
  | .error errorType message =>
      if errorType ∈ fatalErrorTypes then got.settleIdle (.rejected message) else got

/-! ## Turns -/

/-- The result of a turn. -/
def turnResult (stoppedByUser aborted : Bool) (lastAssistantContent fatalError : Option String) : Result :=
  if stoppedByUser then ⟨"stopped_by_user", none, []⟩
  else if aborted then ⟨"cancelled", none, []⟩
  else match fatalError, lastAssistantContent with
    | some error, _ => ⟨"error_during_execution", none, [error]⟩
    | none, none => ⟨"error_during_execution", none, ["Turn completed without an assistant message"]⟩
    | none, some content => ⟨"success", some content, []⟩

/-- `emitTurnResult`. -/
def emitTurnResult (lastAssistantContent fatalError : Option String) : Script :=
  let flushed := s.flushPendingBlocks
  let ended := flushed.note (.ended (turnResult s.stoppedByUser s.aborted lastAssistantContent fatalError))
  -- what was queued behind the stopped turn goes with it
  let ended := if s.stoppedByUser then ended.discardQueuedTurnCommands else ended
  { ended with stoppedByUser := false, pendingStopTurn := false, aborted := false }

/-- The session is given up. -/
def giveUp (error : Option String) : Script :=
  { s with turnState := .idle, currentSession := false, awaiting := .stopping error }

/-- `runTurn` up to its first `await`; `unsendable` is why the attachments cannot be written. Nothing runs in between,
so that a stop is looked for once. -/
def runTurn (parts : List Json) (unsendable : Option String) : Script :=
  let began := { s.note (.began parts) with aborted := false, lastAssistantContent := none, turnState := .starting }
  if s.pendingStopTurn then
    { began with
      stoppedByUser := true, aborted := true, pendingStopTurn := false, turnState := .idle,
      awaiting := .prompts }.emitTurnResult none none
  else
    match unsendable with
    | some error => (began.note (.failed error)).giveUp (some error)
    | none => { began with turnState := .inFlight, awaiting := .sending .pending }

/-- The end of `runTurn`. -/
def endTurn (fatalError : Option String) : Script :=
  { s with turnState := .idle, awaiting := .prompts }.emitTurnResult s.lastAssistantContent fatalError

/-! ## The main loop -/

/-- The process is done. -/
def finish : Script :=
  let done := { s with awaiting := .done }
  if s.shutdownRequested then done.tell .shutdown else done

/-- A session is over for the main loop. -/
def afterSession (error : Option String) : Script :=
  let told := match error with
    | some error => s.tell (.error error)
    | none => s
  if s.shutdownRequested then told.finish else { told with awaiting := .commands }

/-- A command that `nextCommand` has taken. -/
def handleCommand (command : Command) (unsendable : Option String) : Script :=
  match s.awaiting with
  | .commands =>
      match command with
      | .stop | .eof => s.finish
      | .start parts => { s with turnState := .starting, awaiting := .connecting parts }
      | _ => s
  | .prompts =>
      match command with
      | .stop | .eof => { s with awaiting := .disconnecting }
      | .start _ => { s.tell (.error "Received start command during active session") with awaiting := .disconnecting }
      | .prompt parts => s.runTurn parts unsendable
      | .other => s
  | _ => s

/-- `nextCommand` goes on. -/
def wake (unsendable : Option String) : Script :=
  match s.awaiting, s.commandQueue with
  | .commands, command :: rest | .prompts, command :: rest =>
      { s.note (.taken command) with commandQueue := rest }.handleCommand command unsendable
  | _, _ => s

/-- A session has been opened. What a session before has left in the buffer is dropped. -/
def openSession (parts : List Json) (unsendable : Option String) : Script :=
  let dropped := ({ s with currentSession := true }.tell .init).note (.dropped s.pendingBlocks)
  { dropped with pendingBlocks := [] }.runTurn parts unsendable

/-- What is awaited of the SDK goes on; with an error, if it has failed. -/
def settle (error unsendable : Option String) : Script :=
  match s.awaiting with
  | .connecting parts =>
      match error with
      -- the client is started outside the `try`: the turn state stays
      | some error => s.afterSession (some error)
      | none => { s with awaiting := .opening parts }
  | .opening parts =>
      match error with
      | some error => s.giveUp (some error)
      | none => s.openSession parts unsendable
  | .sending idle =>
      match error with
      | some error => s.endTurn (some error)
      | none => { s.tell .accepted with awaiting := .idling idle }
  | .idling .resolved => s.endTurn none
  | .idling (.rejected message) => s.endTurn (some ("Error: " ++ message))
  | .disconnecting => s.giveUp none
  | .stopping failure => s.afterSession failure
  | _ => s

/-- A fatal error that comes while the prompt is being sent rejects a promise that nothing awaits yet, and an unhandled
rejection ends the process, unless the answer of `send` is there before it is noticed. -/
def crash : Script :=
  match s.awaiting with
  | .sending (.rejected _) =>
      { s.note .crashed with currentSession := false, stoppedByUser := false, awaiting := .done }
  | _ => s

end Script

/-- What happens next. -/
inductive Input where
  | line (line : Line) (sendable : Bool)
  | event (event : SessionEvent)
  | wake (unsendable : Option String)
  | settle (error unsendable : Option String)
  | crash

namespace Script

/-- Events come from the session that is there; when the process is done, nothing more happens. -/
def step (s : Script) (input : Input) : Script :=
  match s.awaiting with
  | .done => s
  | _ =>
    match input with
    | .line line sendable => s.handleLine line sendable
    | .event event => if s.currentSession then s.handleEvent event else s
    | .wake unsendable => (s.note (.woken unsendable)).wake unsendable
    | .settle error unsendable => (s.note (.answered error unsendable)).settle error unsendable
    | .crash => s.crash

def after (inputs : List Input) : Script := inputs.foldl step fresh

end Script

end Executors.Copilot
end AgentBeacon
