import AgentBeacon.Worker.Sdk

/-!
# `Worker.SdkTask` — the background task of the SDK executors

`background_task` of `sdk.rs`, which stands between the worker's loop and a Node process: each iteration of its loop
takes an event of the process, a command of the worker, or the end of the wait for either. The log keeps what the loop
takes, what it tries to write to the process and whether it could, and what it sends to the worker, in this order; the
code does not look at the log. What the process writes to its standard error is left out.
-/

namespace AgentBeacon
namespace Executors.Sdk

/-! ## The messages of the process -/

/-- `content_block_to_part`. -/
def contentBlockToPart (item : Json) : Option Json :=
  let blockType := ((item.get "type").bind Json.asStr).getD "text"
  if blockType = "text" ∨ blockType = "text_delta" then
    let text := ((item.get "text").bind Json.asStr).getD ""
    if text.isEmpty then none else some (.obj [("text", .str text)])
  else some (.obj [("data", item)])

/-- `build_output_message`. -/
def buildOutputMessage (contentBlocks : Json) : Option Json := do
  let blocks ← contentBlocks.asArray
  let parts := blocks.filterMap contentBlockToPart
  if parts.isEmpty then none else some (.obj [("role", .str "ROLE_AGENT"), ("parts", .arr parts)])

/-- The type that an event names; it is empty where there is none. -/
def typeField (event : Json) : String := ((event.get "type").bind Json.asStr).getD ""

/-- A field of an `Option` type: missing, `null`, or one that can be read. -/
def optionalField {α : Type} (event : Json) (key : String) (read : Json → Option α) : Option (Option α) :=
  match event.get key with
  | none | some .null => some none
  | some value => (read value).map some

/-- An unsigned integer below a bound. -/
def readUnsigned (bound : Int) : Json → Option Nat
  | .int n => if 0 ≤ n ∧ n < bound then some n.toNat else none
  | _ => none

def readFloat : Json → Option Json
  | .int n => some (.int n)
  | .number literal => some (.number literal)
  | _ => none

def readStrings (value : Json) : Option (List String) := do
  (← value.asArray).mapM Json.asStr

/-- `InitEvent`, less the servers, which nothing reads. -/
def initSession (event : Json) : Option String := (event.get "sessionId").bind Json.asStr

/-- `ResultEvent`. -/
structure ResultEvent where
  subtype : String
  sessionId : Option String
  result : Option String
  errors : Option (List String)
  costUsd : Option Json
  numTurns : Option Nat
  durationMs : Option Nat

def ResultEvent.ofJson (event : Json) : Option ResultEvent := do
  let subtype ← (event.get "subtype").bind Json.asStr
  let sessionId ← optionalField event "sessionId" Json.asStr
  let result ← optionalField event "result" Json.asStr
  let errors ← optionalField event "errors" readStrings
  let costUsd ← optionalField event "costUsd" readFloat
  let numTurns ← optionalField event "numTurns" (readUnsigned 4294967296)
  let durationMs ← optionalField event "durationMs" (readUnsigned 18446744073709551616)
  some { subtype, sessionId, result, errors, costUsd, numTurns, durationMs }

/-- `ErrorEvent`. -/
def errorMessage (event : Json) : Option String := (event.get "message").bind Json.asStr

/-- The content and the ephemeral flag of a `MessageEvent`; a `null` content is none. -/
def messageEvent (event : Json) : Option (Option Json × Option Bool) := do
  let _ ← (event.get "role").bind Json.asStr
  let content ← optionalField event "content" some
  let ephemeral ← optionalField event "ephemeral" Json.asBool
  some (content, ephemeral)

/-- The error of a result, by its subtype. -/
def resultError (kind : SdkKind) (result : ResultEvent) : Option (String × ErrorKind) :=
  let joined (otherwise : String) := (result.errors.map ("; ".intercalate ·)).getD otherwise
  if result.subtype = "success" then none
  else if result.subtype = "cancelled" then some ("session cancelled", .cancelled)
  else if result.subtype = "stopped_by_user" then some ("stopped by user", .stoppedByUser)
  else if result.subtype = "error_max_turns" ∧ kind = .claude then some (joined "max turns reached", .maxTurns)
  else if result.subtype = "error_max_budget_usd" ∧ kind = .claude then some (joined "budget exceeded", .budgetExceeded)
  else some (joined ("executor error: " ++ result.subtype), .executorFailed)

/-- `map_result_to_turn`. -/
def mapResultToTurn (kind : SdkKind) (result : ResultEvent) (agentSessionId : Option String) : TurnResult where
  agentSessionId
  error := (resultError kind result).map Prod.fst
  errorKind := (resultError kind result).map Prod.snd
  output :=
    if (resultError kind result).isNone then
      result.result.map fun text => .obj [("role", .str "ROLE_AGENT"), ("parts", .arr [.obj [("text", .str text)]])]
    else none

/-! ## The commands for the process -/

/-- `ClaudeConfig` and `CopilotConfig`. -/
inductive ParsedConfig where
  | claude (model systemPrompt : Option String) (maxTurns : Option Nat) (maxBudgetUsd thinking : Option Json)
      (effort : Option String)
  | copilot (model systemPrompt : Option String) (provider : Option Json) (reasoningEffort : Option String)

/-- `SdkCommand`. -/
inductive SdkCommand where
  | start (parts : List Json) (cwd : String) (mcpServers : Option Json) (model systemPrompt : Option String)
      (resumeSessionId : Option String) (maxTurns : Option Nat) (maxBudgetUsd thinking : Option Json)
      (effort : Option String) (provider : Option Json) (reasoningEffort : Option String) (sandboxPolicy : Option Json)
  | prompt (parts : List Json)
  | cancel
  | stopTurn
  | stop

def sensitiveKeys : List String := ["apiKey", "api_key", "bearerToken", "bearer_token"]

/-- `sanitize_provider`. -/
def sanitizeProvider (provider : Option Json) : Option Json :=
  provider.map fun value => match value with
    | .obj members => .obj (members.filter fun member => member.1 ∉ sensitiveKeys)
    | value => value

/-- What the task is started with; times are in milliseconds. `serdeError` is what the library says of an event that
it cannot read. -/
structure TaskConfig where
  kind : SdkKind
  cwd : String
  mcpServers : Json
  parsedConfig : ParsedConfig
  sandboxPolicy : Option Json
  inactivityTimeout : Nat
  serdeError : Json → String

/-- `build_start_command`. -/
def TaskConfig.buildStartCommand (cfg : TaskConfig) (parts : List Json) (resumeSessionId : Option String) :
    SdkCommand :=
  match cfg.parsedConfig with
  | .claude model systemPrompt maxTurns maxBudgetUsd thinking effort =>
      .start parts cfg.cwd (some cfg.mcpServers) model systemPrompt resumeSessionId maxTurns maxBudgetUsd thinking
        effort none none cfg.sandboxPolicy
  | .copilot model systemPrompt provider reasoningEffort =>
      .start parts cfg.cwd (some cfg.mcpServers) model systemPrompt resumeSessionId none none none none
        (sanitizeProvider provider) reasoningEffort cfg.sandboxPolicy

/-! ## The task -/

inductive Entry where
  | got (event : Json)
  | took (command : AgentCommand)
  | line (command : SdkCommand) (written : Bool)
  | sent (event : AgentEvent)
  | accepted

/-- The locals of `background_task`. -/
structure Task where
  agentSessionId : Option String
  started : Bool
  pendingPrompts : List (List Json)
  turnActive : Bool
  lastActivity : Nat
  running : Bool
  log : List Entry

namespace Task

/-- The turn of the initial prompt is active. -/
def fresh (now : Nat) : Task where
  agentSessionId := none
  started := false
  pendingPrompts := []
  turnActive := true
  lastActivity := now
  running := true
  log := []

variable (cfg : TaskConfig) (t : Task)

def note (entry : Entry) : Task := { t with log := t.log ++ [entry] }

def send (event : AgentEvent) : Task := t.note (.sent event)

/-- `write_command`: it tries to write the line. -/
def writeCommand (command : SdkCommand) (written : Bool) : Task := t.note (.line command written)

/-- The turn is over, with an error of the executor. -/
def failTurn (error : String) : Task :=
  { t with turnActive := false }.send
    (.turnComplete ⟨t.agentSessionId, some error, some .executorFailed, none⟩ true)

/-- The process is given up. -/
def die (error : String) : Task := { t.send (.processDied error none) with running := false }

/-- An `init` event. The task tries to write the prompts that arrived before; it is only logged if one cannot be
written. -/
def handleInit (event : Json) (written : Nat → Bool) : Task :=
  match initSession event with
  | none => t
  | some sessionId =>
      let initialized := { t with agentSessionId := some sessionId, started := true, turnActive := true }.send
        (.init sessionId)
      let flushed := t.pendingPrompts.zipIdx.foldl (fun t p => t.writeCommand (.prompt p.1) (written p.2)) initialized
      { flushed with pendingPrompts := [] }

def handleMessage (event : Json) : Task :=
  match messageEvent event with
  | some (some content, ephemeral) =>
      match buildOutputMessage content with
      | some output => t.send (.message output (ephemeral.getD false))
      | none => t
  | _ => t

def handleResult (event : Json) : Task :=
  match ResultEvent.ofJson event with
  | some result =>
      let agentSessionId := result.sessionId.or t.agentSessionId
      { t with agentSessionId, turnActive := false }.send
        (.turnComplete (mapResultToTurn cfg.kind result agentSessionId) true)
  | none => t.failTurn ("malformed result event: " ++ cfg.serdeError event)

def handleError (event : Json) : Task :=
  t.failTurn ((errorMessage event).getD ("malformed error event: " ++ cfg.serdeError event))

/-- An event of the process. -/
def handleEvent (event : Json) (written : Nat → Bool) : Task :=
  let type := typeField event
  if type = "init" then t.handleInit event written
  else if type = "message" then t.handleMessage event
  else if type = "result" then t.handleResult cfg event
  else if type = "error" then t.handleError cfg event
  else if type = "accepted" then t.note .accepted
  else t

/-- `AgentCommand::Start`. Without a message it resumes the session that it names. -/
def handleStart (taskPayload : Json) (writeError : Option String) : Task :=
  let resumeSessionId := (taskPayload.get "resumeSessionId").bind Json.asStr
  match extractParts taskPayload with
  | .ok parts =>
      let wrote := t.writeCommand (cfg.buildStartCommand parts resumeSessionId) writeError.isNone
      match writeError with
      | none => wrote
      | some e => wrote.die ("failed to write start command: " ++ e)
  | .error e =>
      if resumeSessionId.isSome then
        let wrote := t.writeCommand (cfg.buildStartCommand [] resumeSessionId) writeError.isNone
        match writeError with
        | none => wrote
        | some e => wrote.die ("failed to write resume command: " ++ e)
      else t.failTurn ("bad task payload: " ++ e)

/-- `AgentCommand::Prompt`: buffered until the agent is initialized. -/
def handlePrompt (parts : List Json) (written : Bool) : Task :=
  if t.started then t.writeCommand (.prompt parts) written
  else { t with pendingPrompts := t.pendingPrompts ++ [parts] }

/-- A command of the worker; `writeError` is why its line cannot be written, if it cannot. -/
def handleCommand (now : Nat) (command : AgentCommand) (writeError : Option String) : Task :=
  let taken := t.note (.took command)
  match command with
  | .start taskPayload => { taken with turnActive := true, lastActivity := now }.handleStart cfg taskPayload writeError
  | .prompt parts => { taken with turnActive := true, lastActivity := now }.handlePrompt parts writeError.isNone
  | .cancel => taken.writeCommand .cancel writeError.isNone
  | .stopTurn => taken.writeCommand .stopTurn writeError.isNone
  | .stop => { taken.writeCommand .stop writeError.isNone with running := false }

end Task

/-- What the `select!` of an iteration picks, and how the writes of that iteration end. -/
inductive Pick where
  | event (now : Nat) (event : Json) (written : Nat → Bool)
  | exited (exitInfo : String)
  | command (now : Nat) (command : AgentCommand) (writeError : Option String)
  | closed
  | timer (now : Nat)

namespace Task

def label : SdkKind → String
  | .claude => "Claude"
  | .copilot => "Copilot"

/-- One iteration of the loop, as long as it runs. The timer is only waited for while a turn is active. -/
def iterate (cfg : TaskConfig) (t : Task) (pick : Pick) : Task :=
  if !t.running then t
  else match pick with
    | .event now event written => { t.note (.got event) with lastActivity := now }.handleEvent cfg event written
    | .exited exitInfo => t.die (label cfg.kind ++ " executor process died (" ++ exitInfo ++ ")")
    | .command now command writeError => t.handleCommand cfg now command writeError
    | .closed => { t with running := false }
    | .timer now =>
        if t.turnActive ∧ t.lastActivity + cfg.inactivityTimeout ≤ now then
          t.die ("executor stalled: no output for " ++ toString (cfg.inactivityTimeout / 1000) ++ "s")
        else t

/-- The task after its iterations. -/
def after (cfg : TaskConfig) (now : Nat) (picks : List Pick) : Task := picks.foldl (iterate cfg) (fresh now)

end Task

end Executors.Sdk
end AgentBeacon
