import AgentBeacon.Worker.Executor

/-!
# `Worker.Sdk` — a prompt and a `StopTurn` at the SDK executors

The Claude and the Copilot executor are a task of the worker, which writes commands as lines to a Node process, and
that process, which queues them for its main loop. Modelled are the branches of both sides that take a prompt and a
`StopTurn`.
-/

namespace AgentBeacon
namespace Executors.Sdk

inductive SdkKind where
  | claude
  | copilot
  deriving DecidableEq, Repr

/-! ## The worker's side -/

/-- The locals of `background_task` in `sdk.rs`, the lines it wrote and the events it sent. -/
structure Bridge where
  started : Bool
  turnActive : Bool
  pendingPrompts : List (List Json)
  written : List Json
  events : List AgentEvent
  running : Bool
  deriving DecidableEq

namespace Bridge

/-- `AgentCommand::Prompt`: buffered until the agent is initialized. -/
def handlePrompt (b : Bridge) (parts : List Json) : Bridge :=
  if b.started then
    { b with turnActive := true, written := b.written ++ [.obj [("type", .str "prompt"), ("parts", .arr parts)]] }
  else { b with turnActive := true, pendingPrompts := b.pendingPrompts ++ [parts] }

/-- `AgentCommand::StopTurn`. -/
def handleStopTurn (b : Bridge) : Bridge := { b with written := b.written ++ [.obj [("type", .str "stop_turn")]] }

end Bridge

/-! ## The process's side -/

inductive TurnState where
  | idle
  | starting
  | inFlight
  deriving DecidableEq, Repr

/-- A command in the queue, by its type. -/
inductive Command where
  | start
  | prompt (parts : List Json)
  | cancel
  | stop
  | eof
  deriving DecidableEq

/-- The variables that the line handler of an executor script looks at. `current` is whether there is an abort
controller, or a Copilot session; `aborts` counts the calls that abort it, `sent` the prompts handed to a running
turn. -/
structure Adapter where
  turnState : TurnState
  current : Bool
  commandQueue : List Command
  stoppedByUser : Bool
  pendingStopTurn : Bool
  aborts : Nat
  sent : List (List Json)
  ignored : Nat
  deriving DecidableEq

namespace Adapter

def isTurnCommand : Command → Bool
  | .start | .prompt _ => true
  | _ => false

/-- `hasQueuedTurnCommand`. -/
def hasQueuedTurnCommand (a : Adapter) : Bool := a.commandQueue.any isTurnCommand

/-- `discardQueuedTurnCommands`. -/
def discardQueuedTurnCommands (a : Adapter) : Adapter :=
  { a with commandQueue := a.commandQueue.filter fun command => !isTurnCommand command }

/-- The `stop_turn` branch of `claude-executor.ts`. -/
def claudeStopTurn (a : Adapter) : Adapter :=
  if a.current && (a.turnState != .idle || a.hasQueuedTurnCommand) then
    let discarded := { a with stoppedByUser := true }.discardQueuedTurnCommands
    { discarded with commandQueue := discarded.commandQueue ++ [.cancel], aborts := discarded.aborts + 1 }
  else if a.turnState == .starting || a.hasQueuedTurnCommand then { a with pendingStopTurn := true }
  else { a with ignored := a.ignored + 1 }

/-- The `stop_turn` branch of `copilot-executor.ts`. -/
def copilotStopTurn (a : Adapter) : Adapter :=
  if a.current && a.turnState != .idle then
    { { a with stoppedByUser := true }.discardQueuedTurnCommands with aborts := a.aborts + 1 }
  else if a.turnState == .starting || a.hasQueuedTurnCommand then { a with pendingStopTurn := true }
  else { a with ignored := a.ignored + 1 }

def stopTurn (kind : SdkKind) (a : Adapter) : Adapter :=
  match kind with
  | .claude => a.claudeStopTurn
  | .copilot => a.copilotStopTurn

/-- A `prompt` line: queued, or with Copilot handed to a turn in flight. -/
def takePrompt (kind : SdkKind) (a : Adapter) (parts : List Json) : Adapter :=
  if kind = .copilot ∧ a.turnState = .inFlight ∧ a.current then { a with sent := a.sent ++ [parts] }
  else { a with commandQueue := a.commandQueue ++ [.prompt parts] }

/-- No turn is active or about to start. -/
def Idle (a : Adapter) : Prop := a.turnState = .idle ∧ a.hasQueuedTurnCommand = false

/-- **Between turns a `stop_turn` is ignored.** -/
theorem stopTurn_idle {a : Adapter} (h : a.Idle) (kind : SdkKind) :
    a.stopTurn kind = { a with ignored := a.ignored + 1 } := by
  obtain ⟨hidle, hnone⟩ := h
  cases kind with
  | claude => simp [stopTurn, claudeStopTurn, hidle, hnone]
  | copilot => simp [stopTurn, copilotStopTurn, hidle, hnone]

end Adapter

end Executors.Sdk
end AgentBeacon
