import AgentBeacon.Worker.Executor

/-!
# `Worker.Acp` — the ACP executor

The background task of `acp.rs`: one step handles what the `select!` picks, a message of the agent, a command of
the worker, or one of the timers. What the writes to the agent come to is part of the step.

Prompts are numbered in the order they are handed over, and the ids of requests are the numbers they were drawn
under. The log keeps for each prompt sent its id and number, and for each `TurnComplete` the id of the prompt that
it is the end of, if any; the code does not look at the log.
-/

namespace AgentBeacon
namespace Executors.Acp

/-- `common::Message`, as far as it is read: its parts as values. -/
structure Message where
  role : String
  parts : List Json
  deriving DecidableEq

/-- `JsonRpcError`, less its data. -/
structure RpcError where
  code : Int
  message : String
  deriving DecidableEq

/-- `JsonRpcResponse`. -/
structure RpcResponse where
  result : Option Json
  error : Option RpcError
  id : Nat
  deriving DecidableEq

/-- `JsonRpcMessage`. -/
inductive RpcMessage where
  | response (resp : RpcResponse)
  | notification (method : String) (params : Json)
  | request (id method : String) (params : Json)
  | parseError (line : String)
  deriving DecidableEq

inductive PromptPhase where
  | idle
  | awaitingResponse (requestId : Nat) (updateHistory : List Message)
  | cancelling (requestId : Nat) (updateHistory : List Message)
  deriving DecidableEq

namespace PromptPhase

def isIdle : PromptPhase → Bool
  | idle => true
  | _ => false

def isCancelling : PromptPhase → Bool
  | cancelling _ _ => true
  | _ => false

def requestId? : PromptPhase → Option Nat
  | idle => none
  | awaitingResponse requestId _ | cancelling requestId _ => some requestId

/-- `take_history`. -/
def history : PromptPhase → List Message
  | idle => []
  | awaitingResponse _ updateHistory | cancelling _ updateHistory => updateHistory

/-- `update_history_mut`. -/
def withHistory : PromptPhase → List Message → PromptPhase
  | idle, _ => idle
  | awaitingResponse requestId _, updateHistory => awaitingResponse requestId updateHistory
  | cancelling requestId _, updateHistory => cancelling requestId updateHistory

/-- `begin_cancel`. -/
def beginCancel : PromptPhase → PromptPhase
  | awaitingResponse requestId updateHistory => cancelling requestId updateHistory
  | other => other

end PromptPhase

/-! ## Contents -/

/-- One part, as `translate_a2a_parts_to_acp_content` maps it; the parts it skips have none. -/
def translatePart (part : Json) : Option Json :=
  match (part.get "text").bind Json.asStr, (part.get "raw").bind Json.asStr with
  | some text, _ => some (.obj [("type", .str "text"), ("text", .str text)])
  | none, some raw =>
      let mimeType := ((part.get "mediaType").bind Json.asStr).getD "application/octet-stream"
      if mimeType.startsWith "image/" then
        some (.obj [("type", .str "image"), ("mimeType", .str mimeType), ("data", .str raw)])
      else
        let name := ((part.get "filename").bind Json.asStr).getD "attachment"
        some (.obj [("type", .str "resource"), ("resource", .obj [("uri", .str ("attachment://" ++ name)),
          ("mimeType", .str mimeType), ("blob", .str raw)])])
  | none, none => none

/-- `translate_a2a_parts_to_acp_content`. No part makes it fail. -/
def translateParts (parts : List Json) : Except String (List Json) := .ok (parts.filterMap translatePart)

def roleUser : String := "ROLE_USER"

def roleAgent : String := "ROLE_AGENT"

/-- `handle_session_update`: the message that a `session/update` brings. -/
def sessionUpdate (params : Json) : Except String Message :=
  match params.get "update" with
  | none => .error "session/update missing update"
  | some update =>
      match (update.get "sessionUpdate").bind Json.asStr with
      | none => .error "session/update missing sessionUpdate discriminator"
      | some variant =>
          let text := (((update.get "content").bind (·.get "text")).bind Json.asStr).getD ""
          if variant = "agent_message_chunk" then .ok ⟨roleAgent, [Json.textPart text]⟩
          else if variant = "user_message_chunk" then .ok ⟨roleUser, [Json.textPart text]⟩
          else if variant = "agent_thought_chunk" then
            .ok ⟨roleAgent, [Json.dataPart (.obj [("type", .str "agent_thought_chunk"), ("text", .str text)])]⟩
          else
            let data := match update with
              | .obj members => .obj (("type", .str variant) ::
                  members.filter fun m => m.1 ≠ "sessionUpdate" ∧ m.1 ≠ "type")
              | other => other
            .ok ⟨roleAgent, [Json.dataPart data]⟩

/-- The session, and what serde says of a `session/prompt` result it cannot read. -/
structure Config where
  sessionId : String
  complaint : Json → String

/-- `SessionPromptResult`: the stop reason and the error. -/
def readPromptResult (config : Config) (value : Json) : Except String (String × Option String) :=
  let fields : Option Json → Option Json → Option (String × Option String)
    | some (.str reason), none | some (.str reason), some .null => some (reason, none)
    | some (.str reason), some (.str error) => some (reason, some error)
    | _, _ => none
  let read := match value with
    | .obj members => fields (members.lookup "stopReason") (members.lookup "error")
    | .arr [reason, error] => fields (some reason) (some error)
    | _ => none
  match read with
  | some result => .ok result
  | none => .error (config.complaint value)

/-- A turn that failed in the executor. -/
def failure (config : Config) (error : String) : TurnResult where
  agentSessionId := some config.sessionId
  error := some error
  errorKind := some .executorFailed
  output := none

/-- `build_turn_result`. -/
def buildTurnResult (config : Config) (resp : RpcResponse) (history : List Message) : TurnResult :=
  match resp.error with
  | some error => failure config (error.message ++ " (code: " ++ toString error.code ++ ")")
  | none =>
      match resp.result with
      | none => failure config "session/prompt response missing result"
      | some result =>
          match readPromptResult config result with
          | .error e => failure config e
          | .ok (stopReason, promptError) =>
              let isError := stopReason = "error" ∨ stopReason = "cancelled" ∨ stopReason = "refusal"
              let parts := (history.filter fun m => m.role = roleAgent).flatMap Message.parts
              { agentSessionId := some config.sessionId
                error := if isError then some (promptError.getD stopReason) else none
                errorKind :=
                  if isError then some (if stopReason = "cancelled" then .cancelled else .executorFailed) else none
                output := if parts = [] then none
                  else some (.obj [("role", .str roleAgent), ("parts", .arr parts)]) }

/-- `handle_permission_request`: the answer, if one is sent. -/
def permissionAnswer (params : Json) : Option Json := do
  let options ← (← params.get "options").asArray
  let selected ← options.find? fun option =>
    let kind := (option.get "kind").bind Json.asStr
    kind = some "allow_once" || kind = some "allow_always"
  let optionId ← (← selected.get "optionId").asStr
  return .obj [("outcome", .obj [("outcome", .str "selected"), ("optionId", .str optionId)])]

/-! ## The task -/

/-- What the task does and what it is told, in order. -/
inductive Entry where
  | took (command : AgentCommand)
  | closed
  | received (msg : RpcMessage)
  | graceOver
  | prompted (requestId number : Nat) (prompt : List Json)
  | told (message : Json)
  | accepted (number : Nat)
  | message (output : Json)
  | turnComplete (turn : Option Nat) (result : TurnResult)
  | died (error : String)
  deriving DecidableEq

/-- The locals of `background_task`, what is still to be drawn, and the log. -/
structure Task where
  phase : PromptPhase
  pendingPrompts : List (Nat × List Json)
  nextRequest : Nat
  nextPrompt : Nat
  running : Bool
  log : List Entry

def Task.new : Task where
  phase := .idle
  pendingPrompts := []
  nextRequest := 0
  nextPrompt := 0
  running := true
  log := []

/-- What the `select!` picks; `written` is what writing a `session/prompt` comes to. -/
inductive Pick where
  | message (msg : RpcMessage) (written : Except String Unit)
  | exited (exitInfo : String)
  | command (command : AgentCommand) (written : Except String Unit)
  | closed
  | graceOver
  | stalled (seconds : Nat)

namespace Task

def record (t : Task) (e : Entry) : Task := { t with log := t.log ++ [e] }

def leave (t : Task) : Task := { t with running := false }

/-- `send_prompt`, and what follows it everywhere: `Accepted`, or the end of a turn that never was. -/
def sendPrompt (t : Task) (config : Config) (number : Nat) (prompt : List Json) (what : String)
    (written : Except String Unit) : Task :=
  let drawn := { t with nextRequest := t.nextRequest + 1 }
  match written with
  | .error e => drawn.record (.turnComplete none (failure config (what ++ ": " ++ e)))
  | .ok () =>
      { (drawn.record (.prompted t.nextRequest number prompt)).record (.accepted number) with
        phase := .awaitingResponse t.nextRequest [] }

/-- The queue after a turn: its first prompt is sent. -/
def drainQueue (t : Task) (config : Config) (written : Except String Unit) : Task :=
  match t.pendingPrompts with
  | [] => t
  | (number, parts) :: rest =>
      let popped := { t with pendingPrompts := rest }
      match translateParts parts with
      | .error e => popped.record (.turnComplete none (failure config ("failed to translate queued parts: " ++ e)))
      | .ok prompt => popped.sendPrompt config number prompt "failed to send queued prompt" written

/-- The response to the prompt that is waited for. -/
def handleResponse (t : Task) (config : Config) (resp : RpcResponse) (written : Except String Unit) : Task :=
  let wasCancelling := t.phase.isCancelling
  let ended := { t with phase := .idle }.record
    (.turnComplete (some resp.id) (buildTurnResult config resp t.phase.history))
  -- a cancelled turn takes the queue with it
  if wasCancelling then { ended with pendingPrompts := [] } else ended.drainQueue config written

def handleUpdate (t : Task) (params : Json) : Task :=
  -- an update between turns is dropped
  if t.phase.isIdle then t
  else match sessionUpdate params with
    | .error _ => t
    | .ok update =>
        { t with phase := t.phase.withHistory (t.phase.history ++ [update]) }.record
          (.message (.obj [("role", .str update.role), ("parts", .arr update.parts)]))

/-- A request of the agent. -/
def handleRequest (t : Task) (id method : String) (params : Json) : Task :=
  if method = "session/request_permission" then
    if t.phase.isCancelling then
      t.record (.told (.obj [("id", .str id), ("result", .obj [("outcome", .obj [("outcome", .str "cancelled")])])]))
    else match permissionAnswer params with
      -- no option allows it: the request stays unanswered
      | none => t
      | some answer => t.record (.told (.obj [("id", .str id), ("result", answer)]))
  else t.record (.told (.obj [("id", .str id),
    ("error", .obj [("code", .int (-32601)), ("message", .str "Method not found")])]))

/-- The message branch. -/
def handleMessage (t : Task) (config : Config) (msg : RpcMessage) (written : Except String Unit) : Task :=
  match msg with
  | .response resp => if t.phase.requestId? = some resp.id then t.handleResponse config resp written else t
  | .notification method params => if method = "session/update" then t.handleUpdate params else t
  | .request id method params => t.handleRequest id method params
  | .parseError _ =>
      -- it may have been the answer that is waited for
      match t.phase.requestId? with
      | none => t
      | some requestId => { t with phase := .idle, pendingPrompts := [] }.record
          (.turnComplete (some requestId) (failure config "malformed JSON-RPC response"))

/-- `extract_acp_content`. -/
def acpContent (taskPayload : Json) : Except String (List Json) :=
  match extractParts taskPayload with
  | .error e => .error e
  | .ok parts =>
      match translateParts parts with
      | .error e => .error ("failed to translate parts: " ++ e)
      | .ok prompt => .ok prompt

/-- A prompt that is not sent. -/
def refuse (t : Task) (config : Config) (error : String) : Task :=
  t.record (.turnComplete none (failure config error))

def sessionCancel (config : Config) : Json :=
  .obj [("method", .str "session/cancel"), ("params", .obj [("sessionId", .str config.sessionId)])]

/-- `AgentCommand::Start`. -/
def handleStart (t : Task) (config : Config) (taskPayload : Json) (written : Except String Unit) : Task :=
  let number := t.nextPrompt
  let t := { t with nextPrompt := t.nextPrompt + 1 }
  if t.phase.isIdle then
    match acpContent taskPayload with
    | .error e => t.refuse config e
    | .ok prompt => t.sendPrompt config number prompt "failed to send prompt" written
  else t.refuse config "Start received while prompt in progress"

/-- `AgentCommand::Prompt`. -/
def handlePrompt (t : Task) (config : Config) (parts : List Json) (written : Except String Unit) : Task :=
  let number := t.nextPrompt
  let t := { t with nextPrompt := t.nextPrompt + 1 }
  if t.phase.isIdle then
    match translateParts parts with
    | .error e => t.refuse config ("failed to translate parts: " ++ e)
    | .ok prompt => t.sendPrompt config number prompt "failed to send prompt" written
  else { t with pendingPrompts := t.pendingPrompts ++ [(number, parts)] }

/-- `AgentCommand::Cancel`. -/
def handleCancel (t : Task) (config : Config) : Task :=
  match t.phase with
  | .awaitingResponse _ _ => { t.record (.told (sessionCancel config)) with phase := t.phase.beginCancel }
  -- between turns there is nothing to wait for
  | .idle => (t.record (.turnComplete none ⟨none, none, none, none⟩)).leave
  | .cancelling _ _ => t

/-- `AgentCommand::StopTurn`. -/
def handleStopTurn (t : Task) (config : Config) : Task :=
  match t.phase with
  | .awaitingResponse _ _ => { t.record (.told (sessionCancel config)) with phase := t.phase.beginCancel }
  | _ => t

/-- The command branch. -/
def handleCommand (t : Task) (config : Config) (command : AgentCommand) (written : Except String Unit) : Task :=
  let t := t.record (.took command)
  match command with
  | .start taskPayload => t.handleStart config taskPayload written
  | .prompt parts => t.handlePrompt config parts written
  | .cancel => t.handleCancel config
  | .stopTurn => t.handleStopTurn config
  | .stop => t.leave

/-- One iteration of the loop. The timers are only armed in the phases they are for. -/
def iterate (config : Config) (t : Task) (pick : Pick) : Task :=
  if t.running then
    match pick with
    | .message msg written => (t.record (.received msg)).handleMessage config msg written
    | .exited exitInfo => (t.record (.died ("ACP subprocess died (" ++ exitInfo ++ ")"))).leave
    | .command command written => t.handleCommand config command written
    | .closed => (t.record .closed).leave
    | .graceOver =>
        match t.phase with
        | .cancelling requestId _ =>
            { t.record .graceOver with phase := .idle, pendingPrompts := [] }.record
              (.turnComplete (some requestId) { failure config "Agent did not acknowledge cancellation" with
                errorKind := some .cancelled })
        | _ => t
    | .stalled seconds =>
        match t.phase with
        | .awaitingResponse _ _ =>
            (t.record (.died ("executor stalled: no output for " ++ toString seconds ++ "s"))).leave
        | _ => t
  else t

def run (config : Config) (picks : List Pick) : Task := picks.foldl (iterate config) new

end Task

end Executors.Acp
end AgentBeacon
