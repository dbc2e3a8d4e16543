import AgentBeacon.Worker.SdkTask

/-!
# `Worker.ClaudeStream` — what the Claude executor makes of the messages of the SDK

The loop over a query in `claude-executor.ts`. The SDK delivers what the assistant says block by block; the blocks are
buffered, and put out together as one message once they are known to be complete. The log keeps what came in and what
was put out, with the blocks that were dropped; the code does not look at the log.
-/

namespace AgentBeacon
namespace Executors.Claude
open Sdk (typeField)

/-! ## Values -/

/-- A value that counts as true. -/
def truthy : Json → Bool
  | .null => false
  | .bool b => b
  | .int n => n ≠ 0
  | .number literal => literal ≠ "0.0"
  | .str s => s ≠ ""
  | .arr _ | .obj _ => true

/-- `typeof value === "object"`, and not `null`. -/
def isObjectLike : Json → Bool
  | .arr _ | .obj _ => true
  | _ => false

def isNumber : Json → Bool
  | .int _ | .number _ => true
  | _ => false

/-- A count of tokens. -/
def asCount : Json → Option Int
  | .int n => some n
  | _ => none

/-- A field that is there and not `null`. -/
def given (value : Json) (key : String) : Option Json :=
  match value.get key with
  | none | some .null => none
  | some found => some found

/-- `Object.values`. -/
def values : Json → List Json
  | .obj members => members.map Prod.snd
  | .arr items => items
  | _ => []

/-! ## Events -/

/-- What the executor emits for a query. -/
inductive Event where
  | init (sessionId : Option Json) (mcpServers : Option Json)
  | message (content : List Json) (ephemeral : Bool)
  | result (subtype : String) (sessionId : Option Json) (costUsd numTurns durationMs : Option Json)
      (result : Option String) (errors : Option Json)
  | error (message : String)

/-- An entry of the log: what came in; an event that was put out; buffered blocks that were put out, or dropped. -/
inductive Entry where
  | started
  | attempted
  | got (msg : Json)
  | finished
  | flushed (content : List Json)
  | dropped (content : List Json)
  | toolResults (content : List Json)
  | resulted (msg : Json) (result : Option String) (event : Event)
  | told (event : Event)

/-- The events of an entry. -/
def Entry.event : Entry → Option Event
  | .flushed content | .toolResults content => some (.message content false)
  | .resulted _ _ event | .told event => some event
  | _ => none

/-- The locals of the loop. The newest entry of the log is the first. -/
structure Query where
  currentSessionId : Option Json
  pendingAssistant : Option (List Json)
  lastFinalOutput : Option String
  log : List Entry

namespace Query

def fresh : Query where
  currentSessionId := none
  pendingAssistant := none
  lastFinalOutput := none
  log := []

variable (q : Query)

def note (entry : Entry) : Query := { q with log := entry :: q.log }

def tell (content : List Json) (ephemeral : Bool) : Query := q.note (.told (.message content ephemeral))

/-- The text of a message, as the fallback for a result without one. -/
def textOf (content : List Json) : String :=
  String.join ((content.filter fun b => b.get "type" = some (.str "text")).filterMap fun b =>
    (b.get "text").bind Json.asStr)

/-- `flushPendingAssistant`: nothing, if nothing is buffered. -/
def flushPendingAssistant : Query :=
  match q.pendingAssistant with
  | none => q
  | some flushed =>
      { q.note (.flushed flushed) with lastFinalOutput := some (textOf flushed), pendingAssistant := none }

/-- What is buffered is dropped. -/
def dropPending : Query := { q.note (.dropped (q.pendingAssistant.getD [])) with pendingAssistant := none }

/-- A `system` message. -/
def handleSystem (msg : Json) : Query :=
  let subtype := (msg.get "subtype").bind Json.asStr
  if subtype = some "init" then
    let mcpServers := (msg.get "mcp_servers").filter fun servers => servers.asArray.isSome
    { q with currentSessionId := msg.get "session_id" }.note (.told (.init (msg.get "session_id") mcpServers))
  else if subtype = some "compact_boundary" then
    let trigger := (((msg.get "compact_metadata").bind (Json.get · "trigger")).bind Json.asStr).getD "auto"
    q.tell [.obj [("type", .str "compaction"), ("trigger", .str trigger)]] false
  else q.tell [msg] false

/-- The counts of tokens that a usage names, which are put behind the content. -/
def usageUpdate (usage : Json) : List Json :=
  match (usage.get "input_tokens").bind asCount with
  | none => []
  | some inputTokens =>
      let count (key : String) : Int := ((usage.get key).bind asCount).getD 0
      [.obj [("type", .str "usage_update"),
        ("input_tokens", .int (inputTokens + count "cache_read_input_tokens" + count "cache_creation_input_tokens")),
        ("output_tokens", .int (count "output_tokens"))]]

/-- The blocks that an `assistant` message adds. -/
def assistantContent (msg : Json) : List Json :=
  let inner := msg.get "message"
  ((inner.bind (Json.get · "content")).bind Json.asArray).getD [] ++
    ((inner.bind (Json.get · "usage")).map usageUpdate).getD []

/-- The error of an `assistant` message, which is put out at once. -/
def assistantError (msg : Json) : Bool := (((msg.get "error").bind Json.asStr).getD "") ≠ ""

/-- An `assistant` message: it is buffered, and complete once it has a reason why it stops. -/
def handleAssistant (msg : Json) : Query :=
  -- an error may be followed by a result at once, which would drop it
  let q := if assistantError msg then q.tell [.obj [("data", msg)]] false else q
  let q := { q with pendingAssistant := some (q.pendingAssistant.getD [] ++ assistantContent msg) }
  if ((msg.get "message").bind (given · "stop_reason")).isSome then q.flushPendingAssistant else q

/-- The tool results of a `user` message. -/
def toolResultsOf (msg : Json) : List Json :=
  ((((msg.get "message").bind (Json.get · "content")).bind Json.asArray).getD []).filter
    fun b => b.get "type" = some (.str "tool_result")

/-- A `user` message: what the tools are used for stands before what they return. -/
def handleUser (msg : Json) : Query :=
  if (toolResultsOf msg).isEmpty then q else q.flushPendingAssistant.note (.toolResults (toolResultsOf msg))

/-- The largest context window of the models that were used. -/
def maxContextWindow (msg : Json) : Int :=
  let modelUsage := (given msg "model_usage").or (given msg "modelUsage")
  ((modelUsage.map values).getD []).foldl (fun largest info =>
    max largest (((info.get "contextWindow").bind asCount).getD 0)) 0

/-- The result is one of success. -/
def isSuccess (msg : Json) : Bool := msg.get "subtype" = some (.str "success")

/-- The text of a result: its own, or that of the last message. -/
def resultText (msg : Json) (fallbackResult : Option String) : Option String :=
  if isSuccess msg then
    ((msg.get "result").bind Json.asStr).or (fallbackResult.filter fun text => text ≠ "")
  else none

def resultEvent (msg : Json) (currentSessionId : Option Json) (result : Option String) : Event :=
  .result (((msg.get "subtype").bind Json.asStr).getD "success") currentSessionId
    ((msg.get "total_cost_usd").filter isNumber) ((msg.get "num_turns").filter isNumber)
    ((msg.get "duration_ms").filter isNumber) result ((msg.get "errors").filter fun errors => errors.asArray.isSome)

/-- A `result` message: complete content that has not been put out is, and the rest is dropped. -/
def handleResult (msg : Json) : Query :=
  -- some turns finish without a `message_stop`
  let q := if isSuccess msg ∧ q.pendingAssistant.getD [] ≠ [] then q.flushPendingAssistant else q
  let q := q.dropPending
  -- the fallback of this turn must not leak into the next
  let fallbackResult := q.lastFinalOutput
  let q := { q with lastFinalOutput := none }
  let q :=
    if 0 < maxContextWindow msg then
      q.tell [.obj [("type", .str "usage_snapshot"), ("context_window", .int (maxContextWindow msg))]] false
    else q
  let result := resultText msg fallbackResult
  q.note (.resulted msg result (resultEvent msg q.currentSessionId result))

/-- The delta of a block, which is never persisted. -/
def handleDelta (delta : Json) : Query :=
  let type := (delta.get "type").bind Json.asStr
  let text := (delta.get "text").bind Json.asStr
  let thinking := (delta.get "thinking").bind Json.asStr
  if type = some "text_delta" ∧ text.isSome then
    q.tell [.obj [("type", .str "text_delta"), ("text", .str (text.getD ""))]] true
  else if type = some "thinking_delta" ∧ thinking.isSome then
    q.tell [.obj [("type", .str "thinking_delta"), ("thinking", .str (thinking.getD ""))]] true
  else if ((delta.get "type").map truthy).getD false then q.tell [delta] true
  else q

/-- A `stream_event` message. -/
def handleStreamEvent (msg : Json) : Query :=
  match (msg.get "event").filter truthy with
  | none => q
  | some event =>
      let delta := (event.get "delta").filter isObjectLike
      if typeField event = "content_block_delta" ∧ delta.isSome then q.handleDelta (delta.getD .null)
      else if typeField event = "message_stop" then q.flushPendingAssistant
      else q.tell [event] true

/-- A message of the SDK. -/
def handleMessage (msg : Json) : Query :=
  let type := typeField msg
  if type = "system" then q.handleSystem msg
  else if type = "assistant" then q.handleAssistant msg
  else if type = "user" then q.handleUser msg
  else if type = "result" then q.handleResult msg
  else if type = "stream_event" then q.handleStreamEvent msg
  else q.tell [msg] (type = "tool_progress")

/-- The buffer and the fallback are cleared. -/
def clear : Query := { q.dropPending with lastFinalOutput := none }

end Query

/-- How a query can fail. -/
inductive QueryError where
  | aborted (stoppedByUser : Bool)
  | failed (text : String)

/-- What happens in the main loop: a start, an attempt of its query, which may be called off before the query, a message
of the SDK, the end of the attempts. -/
inductive Input where
  | start
  | attempt
  | calledOff (stoppedByUser : Bool)
  | message (msg : Json)
  | finished (error : Option QueryError)

namespace Query

/-- The result of a query that was stopped or cancelled; `emitAbortedBeforeQuery` is this, when there is none yet. -/
def emitAborted (q : Query) (stoppedByUser : Bool) : Query :=
  let subtype := if stoppedByUser then "stopped_by_user" else "cancelled"
  q.note (.told (.result subtype q.currentSessionId none none none none none))

/-- The final error of a query. -/
def handleError (q : Query) : Option QueryError → Query
  | none => q
  | some (.aborted stoppedByUser) => q.emitAborted stoppedByUser
  | some (.failed text) => q.note (.told (.error text))

def step (q : Query) : Input → Query
  | .start => { q.note .started with currentSessionId := none }.clear
  | .attempt => (q.note .attempted).clear
  | .calledOff stoppedByUser => q.emitAborted stoppedByUser
  | .message msg => (q.note (.got msg)).handleMessage msg
  | .finished error => ((q.note .finished).clear).handleError error

def after (inputs : List Input) : Query := inputs.foldl step fresh

end Query

end Executors.Claude
end AgentBeacon
