import AgentBeacon.Worker.Executor

/-!
# `Worker.Codex` — the Codex executor

The background task of `codex.rs`: one loop iteration starts the turn that is waiting, if any, and then handles
what its `select!` picks, a message that was read earlier, a line of the process, a command of the worker, or the
inactivity timer. What the process answers to a request, and what it writes before that, comes with the step.

Prompts are numbered in the order they are handed over, and the log keeps for each request which prompts it
carries; the code does not look at either.
-/

namespace AgentBeacon
namespace Executors.Codex

/-! ## Input files -/

/-- A file in the temporary directory; the uuid in its name is the number of the draw. -/
structure TempFile where
  number : Nat
  extension : String
  deriving DecidableEq, Repr

def TempFile.path (file : TempFile) : String := "/tmp/ab-" ++ toString file.number ++ "." ++ file.extension

/-- `Option<String>` of a member. -/
def stringMember : Option Json → Option (Option String)
  | none => some none
  | some .null => some none
  | some (.str s) => some (some s)
  | some _ => none

/-- The fields of a `Part` that are looked at. -/
structure Part where
  text : Option String
  raw : Option String
  mediaType : Option String

/-- `serde_json::from_value(part).unwrap_or_default()`: one field of another type and all are lost. -/
def readPart (value : Json) : Part :=
  let fields (text url raw mediaType filename : Option Json) : Option Part := do
    let text ← stringMember text
    let _ ← stringMember url
    let raw ← stringMember raw
    let mediaType ← stringMember mediaType
    let _ ← stringMember filename
    return { text, raw, mediaType }
  let read :=
    match value with
    | .obj members => fields (members.lookup "text") (members.lookup "url") (members.lookup "raw")
        (members.lookup "mediaType") (members.lookup "filename")
    | .arr [text, url, raw, _, mediaType, filename, _] =>
        fields (some text) (some url) (some raw) (some mediaType) (some filename)
    | _ => none
  read.getD ⟨none, none, none⟩

def extensionOf (media : String) : String :=
  if media = "image/png" then "png"
  else if media = "image/jpeg" ∨ media = "image/jpg" then "jpg"
  else if media = "image/gif" then "gif"
  else if media = "image/webp" then "webp"
  else "bin"

/-- What `fs::write` comes to: a failed one may leave a file behind. -/
inductive Written where
  | whole
  | torn (error : String)
  | absent (error : String)
  deriving DecidableEq

/-- What happens to the image under a number: whether its base64 decodes, the write, and whether `remove_file` will
work on the file. -/
structure Attempt where
  decodes : Bool
  written : Written
  removable : Bool

/-- The locals of `parts_to_codex_input`, the next number to draw, the files that exist by now, and those among them
that cannot be removed. -/
structure Draft where
  input : List Json
  tempFiles : List TempFile
  next : Nat
  created : List TempFile
  stuck : List TempFile

def localImage (file : TempFile) : Json := .obj [("type", .str "localImage"), ("path", .str file.path)]

def textInput (text : String) : Json := .obj [("type", .str "text"), ("text", .str text)]

/-- The body of the loop of `parts_to_codex_input`. -/
def addPart (attempt : Nat → Attempt) (draft : Draft) (value : Json) : Except (String × Draft) Draft :=
  let part := readPart value
  match part.text, part.raw with
  -- a part with both is a text
  | some text, _ => .ok { draft with input := draft.input ++ [textInput text] }
  | none, none => .ok draft
  | none, some _ =>
      let media := part.mediaType.getD "application/octet-stream"
      if media.startsWith "image/" then
        if (attempt draft.next).decodes then
          let file : TempFile := ⟨draft.next, extensionOf media⟩
          let drawn := { draft with next := draft.next + 1 }
          match (attempt draft.next).written with
          | .whole => .ok { drawn with
              input := draft.input ++ [localImage file]
              tempFiles := draft.tempFiles ++ [file]
              created := draft.created ++ [file]
              stuck := if (attempt draft.next).removable then draft.stuck else draft.stuck ++ [file] }
          | .torn _ => .error ("failed to write temp image: " ++ file.path,
              { drawn with created := draft.created ++ [file] })
          | .absent _ => .error ("failed to write temp image: " ++ file.path, drawn)
        else .error ("failed to decode base64 image data", draft)
      -- files that are no images are left out
      else .ok draft

/-- `parts_to_codex_input`, with the files that exist afterwards. -/
def partsToCodexInput (attempt : Nat → Attempt) (next : Nat) (parts : List Json) : Except (String × Draft) Draft :=
  match parts.foldlM (addPart attempt) ⟨[], [], next, [], []⟩ with
  | .error e => .error e
  | .ok draft => .ok (if draft.input = [] then { draft with input := [textInput ""] } else draft)

/-! ## The task -/

/-- A prompt in `deferred_prompts`. -/
structure Deferred where
  number : Nat
  input : List Json
  tempFiles : List TempFile

/-- What a request carries: nothing, a prompt on its own, a prompt for the running turn, or the prompts that
waited. -/
inductive Carries where
  | nothing
  | own (number : Nat)
  | steer (number : Nat)
  | waited (numbers : List Nat)
  deriving DecidableEq

structure Request where
  method : String
  params : Json
  carries : Carries
  deriving DecidableEq

/-- What comes of `send_request` and `wait_for_response`: the request cannot be written, no answer can be read, a
line is read that is no JSON, no answer is read in time, or one is; with the messages that are read before that. -/
inductive Answer where
  | unsent (error : String)
  | failed (meanwhile : List Json) (error : String)
  | malformed (meanwhile : List Json) (line : String)
  | timedOut (meanwhile : List Json)
  | response (meanwhile : List Json) (resp : Json)
  deriving DecidableEq

/-- `&line[..line.len().min(120)]`, which panics where the cut is inside a character. -/
def lineHead (line : String) : Option String :=
  let cut : String.Pos.Raw := ⟨min line.utf8ByteSize 120⟩
  if cut.isValid line then some (String.Pos.Raw.extract line 0 cut) else none

/-- The error of a line that is no JSON. -/
def malformedJson (head : String) : String := "malformed JSON from codex: " ++ head

/-- What the task does and what it is told, in order. `asked` is a request that was written, with its answer;
`told` is a message whose answer nobody waits for. -/
inductive Entry where
  | took (command : AgentCommand)
  | closed
  | panicked
  | asked (request : Request) (answer : Answer)
  | told (message : Json)
  | accepted (number : Nat)
  | event (event : AgentEvent)
  deriving DecidableEq

/-- `TurnState`, and around it the queue of messages read early, the end of the output if it was read, the files on
disk and those that cannot be removed, and the log. What is pending as fallback input is kept as the prompts it is
put together from. -/
structure Task where
  threadId : Option String
  activeTurnId : Option String
  stopTurnRequested : Bool
  deferredPrompts : List Deferred
  fallbackInFlight : Bool
  initEmitted : Bool
  cancelRequested : Bool
  activeTurnTempFiles : List TempFile
  pendingFallbackInput : Option (List Deferred)
  notifications : List Json
  ended : Option String
  nextFile : Nat
  disk : List TempFile
  stuck : List TempFile
  nextPrompt : Nat
  running : Bool
  log : List Entry

/-- `TurnState::new`. -/
def Task.new : Task where
  threadId := none
  activeTurnId := none
  stopTurnRequested := false
  deferredPrompts := []
  fallbackInFlight := false
  initEmitted := false
  cancelRequested := false
  activeTurnTempFiles := []
  pendingFallbackInput := none
  notifications := []
  ended := none
  nextFile := 0
  disk := []
  stuck := []
  nextPrompt := 0
  running := true
  log := []

/-- A line of the process's standard output, or its end. -/
inductive Line where
  | json (msg : Json)
  | malformed
  | blank
  | eof (exitInfo : String)
  | error (e : String)

/-- What the `select!` picks when no message is queued. The lines of `cancel` and `stopTurn` are those read
until the deadline. -/
inductive Pick where
  | line (line : Line)
  | start (taskPayload : Json) (attempt : Nat → Attempt) (thread turn : Answer)
  | prompt (parts : List Json) (attempt : Nat → Attempt) (answer : Answer)
  | cancel (lines : List Line)
  | stopTurn (lines : List Line)
  | stop
  | closed
  | stalled (seconds : Nat)

namespace Task

def emit (t : Task) (event : AgentEvent) : Task := { t with log := t.log ++ [.event event] }

def tell (t : Task) (message : Json) : Task := { t with log := t.log ++ [.told message] }

def took (t : Task) (command : AgentCommand) : Task := { t with log := t.log ++ [.took command] }

/-- A request and its answer. -/
def ask (t : Task) (request : Request) (answer : Answer) : Task :=
  match answer with
  -- nothing was written
  | .unsent _ => t
  -- what is read before the answer is kept for the loop
  | .failed meanwhile _ | .malformed meanwhile _ | .timedOut meanwhile | .response meanwhile _ =>
      { t with log := t.log ++ [.asked request answer], notifications := t.notifications ++ meanwhile }

/-- `ProcessDied`, under the thread id. -/
def died (t : Task) (error : String) : Task := t.emit (.processDied error t.threadId)

/-- `settled`. -/
def settled (t : Task) : Bool := !t.fallbackInFlight && t.deferredPrompts.isEmpty

/-- `cleanup_temp_files`: that a file cannot be removed is only logged. -/
def cleanupTempFiles (t : Task) (files : List TempFile) : Task :=
  { t with disk := t.disk.filter fun file => file ∉ files ∨ file ∈ t.stuck }

/-- `cleanup_deferred_temp_files`. -/
def cleanupDeferredTempFiles (t : Task) : Task := t.cleanupTempFiles (t.deferredPrompts.flatMap Deferred.tempFiles)

/-- `cleanup_state_temp_files`. -/
def cleanupStateTempFiles (t : Task) : Task :=
  t.cleanupTempFiles (t.activeTurnTempFiles ++ t.deferredPrompts.flatMap Deferred.tempFiles)

/-- `return` from the task. -/
def leave (t : Task) : Task := { t with running := false }

/-- A panic: the task is gone, with no event and no clean-up. -/
def panic (t : Task) : Task := leave { t with log := t.log ++ [.panicked] }

/-- Files are created while a prompt is converted. -/
def drafted (t : Task) (draft : Draft) : Task :=
  { t with nextFile := draft.next, disk := t.disk ++ draft.created, stuck := t.stuck ++ draft.stuck }

end Task

/-- `resp["result"]["turn"]["id"]`. -/
def turnIdOf (resp : Json) : Option String := do
  (← (← (← resp.get "result").get "turn").get "id").asStr

/-- `resp["result"]["thread"]["id"]`. -/
def threadIdOf (resp : Json) : Option String := do
  (← (← (← resp.get "result").get "thread").get "id").asStr

def interrupt (threadId turnId : String) : Json :=
  .obj [("method", .str "turn/interrupt"), ("params", .obj [("threadId", .str threadId), ("turnId", .str turnId)])]

def turnStart (threadId : String) (input : List Json) (carries : Carries) : Request :=
  ⟨"turn/start", .obj [("threadId", .str threadId), ("input", .arr input)], carries⟩

def turnSteer (threadId turnId : String) (input : List Json) (carries : Carries) : Request :=
  ⟨"turn/steer", .obj [("threadId", .str threadId), ("expectedTurnId", .str turnId), ("input", .arr input)], carries⟩

/-! ## Messages of the process -/

/-- The combined input, and the files, of the prompts that waited. -/
def combinedInput (prompts : List Deferred) : List Json := prompts.flatMap Deferred.input

/-- The error and its kind for a turn's status. -/
def turnError (t : Task) (turn : Json) : Option String × Option ErrorKind :=
  let status := ((turn.get "status").bind Json.asStr).getD "completed"
  if status = "completed" then (none, none)
  else if status = "failed" then
    (some ((((turn.get "error").bind (·.get "message")).bind Json.asStr).getD "turn failed"), some .executorFailed)
  else if status = "interrupted" then
    if t.cancelRequested then (some "cancelled", some .cancelled)
    else if t.stopTurnRequested then (some "stopped by user", some .stoppedByUser)
    else (some "interrupted", none)
  else (some ("unexpected turn status: " ++ status), some .executorFailed)

def turnResult (t : Task) (msg : Json) : TurnResult :=
  let (error, errorKind) := turnError t ((((msg.get "params").getD .null).get "turn").getD .null)
  { agentSessionId := t.threadId, error, errorKind, output := none }

namespace Task

/-- The end of `handle_turn_completed`: the prompts that waited become the next turn's input. -/
def queueFallback (t : Task) : Task :=
  if t.deferredPrompts ≠ [] ∧ !t.stopTurnRequested ∧ !t.cancelRequested then
    { t with
      fallbackInFlight := true
      activeTurnTempFiles := t.deferredPrompts.flatMap Deferred.tempFiles
      pendingFallbackInput := some t.deferredPrompts
      deferredPrompts := [] }
  else t

/-- The turn is over: its files go. -/
def endTurn (t : Task) : Task :=
  { t.cleanupTempFiles t.activeTurnTempFiles with activeTurnTempFiles := [], activeTurnId := none }

/-- `handle_turn_completed`. -/
def handleTurnCompleted (t : Task) (msg : Json) : Task :=
  let reported := t.endTurn.emit (.turnComplete (turnResult t msg) t.endTurn.settled)
  { reported.queueFallback with stopTurnRequested := false }

end Task

inductive ServerRequestAction where
  | accept
  | approved
  | grantPermissions
  | errorNotSupported
  | errorUnknown

/-- `classify_server_request`. -/
def classifyServerRequest (method : String) : ServerRequestAction :=
  if method = "item/permissions/requestApproval" then .grantPermissions
  else if method = "item/commandExecution/requestApproval" ∨ method = "item/fileChange/requestApproval" then .accept
  else if method = "applyPatchApproval" ∨ method = "execCommandApproval" then .approved
  else if method = "item/tool/requestUserInput" ∨ method = "mcpServer/elicitation/request" ∨
      method = "account/chatgptAuthTokens/refresh" then .errorNotSupported
  else .errorUnknown

def response (id result : Json) : Json := .obj [("id", id), ("result", result)]

def errorResponse (id : Json) (code : Int) (message : String) : Json :=
  .obj [("id", id), ("error", .obj [("code", .int code), ("message", .str message)])]

/-- `handle_server_request`: the answer. -/
def serverAnswer (id : Json) (method : String) (msg : Json) : Json :=
  match classifyServerRequest method with
  | .accept => response id (.obj [("decision", .str "accept")])
  | .grantPermissions => response id (.obj [
      ("permissions", ((msg.get "params").bind (·.get "permissions")).getD (.obj [])), ("scope", .str "session")])
  | .approved => response id (.obj [("decision", .str "approved")])
  | .errorNotSupported => errorResponse id (-32601) "Not supported in headless mode"
  | .errorUnknown => errorResponse id (-32601) "Method not supported by AgentBeacon"

/-- `EPHEMERAL_METHODS`. -/
def ephemeralMethods : List String :=
  ["item/agentMessage/delta", "item/reasoning/textDelta", "item/reasoning/summaryPartAdded",
    "item/reasoning/summaryTextDelta", "item/commandExecution/outputDelta", "item/fileChange/outputDelta",
    "item/plan/delta", "mcpToolCall/progress", "item/started", "turn/started"]

/-- The text of an agent message's delta. -/
def deltaText (msg : Json) : String :=
  match ((msg.get "params").bind (·.get "delta")) with
  | none => ""
  | some delta => (delta.asStr <|> (delta.get "text").bind Json.asStr).getD ""

def agentMessage (part : Json) : Json := .obj [("role", .str "ROLE_AGENT"), ("parts", .arr [part])]

namespace Task

/-- `handle_notification`. -/
def handleNotification (t : Task) (msg : Json) (method : String) : Task :=
  if method = "turn/completed" then t.handleTurnCompleted msg
  else if method = "thread/started" then
    match t.threadId, ((((msg.get "params").bind (·.get "thread")).bind (·.get "id")).bind Json.asStr) with
    | none, some tid => { t with threadId := some tid }
    | _, _ => t
  else if method = "item/agentMessage/delta" then
    if deltaText msg = "" then t else t.emit (.message (agentMessage (Json.textPart (deltaText msg))) true)
  else if method = "contextCompacted" then
    t.emit (.message (agentMessage (Json.dataPart (.obj [("type", .str "compaction")]))) false)
  else t.emit (.message (agentMessage (Json.dataPart msg)) (ephemeralMethods.contains method))

/-- `handle_incoming_message`. -/
def handleIncomingMessage (t : Task) (msg : Json) : Task :=
  match msg.get "id", (msg.get "method").bind Json.asStr with
  | some id, some method => t.tell (serverAnswer id method msg)
  -- an answer that nobody waits for any more
  | some _, none => t
  | none, some method => t.handleNotification msg method
  | none, none => t

/-! ## The waiting turn -/

/-- The head of the loop: the turn for the prompts that waited. -/
def startFallback (t : Task) (answer : Answer) : Task :=
  match t.pendingFallbackInput, t.threadId with
  | none, _ => t
  | some _, none => { t with pendingFallbackInput := none }
  | some prompts, some tid =>
      let taken := { t with pendingFallbackInput := none }
      let asked := taken.ask (turnStart tid (combinedInput prompts) (.waited (prompts.map Deferred.number))) answer
      let gone (error : String) := (asked.died error).cleanupStateTempFiles.leave
      match answer with
      | .unsent e => gone ("failed to send fallback turn/start: " ++ e)
      | .failed _ e => gone ("fallback turn/start failed: " ++ e)
      | .malformed _ line =>
          match lineHead line with
          | none => asked.panic
          | some head => gone ("fallback turn/start failed: " ++ malformedJson head)
      | .timedOut _ => gone "fallback turn/start timed out"
      | .response _ resp =>
          if (resp.get "error").isSome then gone ("fallback turn/start rejected: " ++ text resp)
          else match turnIdOf resp with
            -- the turn counts as being started until it completes
            | none => asked
            | some turnId =>
                let started := { asked with activeTurnId := some turnId, fallbackInFlight := false }
                -- a stop that came while the turn was being started
                if started.stopTurnRequested then started.tell (interrupt tid turnId) else started

end Task

/-! ## Commands -/

/-- The configuration the task is started with. -/
structure Config where
  cwd : String
  sandboxPolicy : String

/-- Why a start comes to nothing: an error is returned, or the task panics. -/
inductive Failure where
  | error (message : String)
  | panicked

/-- `send_request`, `wait_for_response` under a timeout, and the look at `error`, as `do_fresh_start` and its
likes do it. -/
def Task.exchange (t : Task) (request : Request) (answer : Answer) : Task × Except Failure Json :=
  let asked := t.ask request answer
  match answer with
  | .unsent e => (asked, .error (.error e))
  | .failed _ _ => (asked, .error (.error (request.method ++ " failed")))
  | .malformed _ line =>
      (asked, .error (if (lineHead line).isNone then .panicked else .error (request.method ++ " failed")))
  | .timedOut _ => (asked, .error (.error (request.method ++ " timed out")))
  | .response _ resp =>
      if (resp.get "error").isSome then (asked, .error (.error (request.method ++ " rejected: " ++ text resp)))
      else (asked, .ok resp)

namespace Task

/-- `do_turn_start`. -/
def doTurnStart (t : Task) (input : List Json) (answer : Answer) : Task × Except Failure Unit :=
  match t.threadId with
  | none => (t, .error (.error "turn/start called without thread_id"))
  | some tid =>
      match t.exchange (turnStart tid input .nothing) answer with
      | (asked, .error e) => (asked, .error e)
      | (asked, .ok resp) =>
          match turnIdOf resp with
          | none => (asked, .error (.error "turn/start response missing turn.id"))
          | some turnId => ({ asked with activeTurnId := some turnId, fallbackInFlight := false }, .ok ())

/-- `do_fresh_start`. -/
def doFreshStart (t : Task) (config : Config) (input : List Json) (thread turn : Answer) :
    Task × Except Failure Unit :=
  let params : Json := .obj [("cwd", .str config.cwd), ("approvalPolicy", .str "never"),
    ("sandbox", .str config.sandboxPolicy)]
  match t.exchange { method := "thread/start", params, carries := .nothing } thread with
  | (asked, .error e) => (asked, .error e)
  | (asked, .ok resp) =>
      match threadIdOf resp with
      | none => (asked, .error (.error "thread/start response missing thread.id"))
      | some tid => Task.doTurnStart { asked with threadId := some tid } input turn

/-- `do_resume`. -/
def doResume (t : Task) (resumeThreadId : String) (input : List Json) (thread turn : Answer) :
    Task × Except Failure Unit :=
  match t.exchange ⟨"thread/resume", .obj [("threadId", .str resumeThreadId)], .nothing⟩ thread with
  | (asked, .error e) => (asked, .error e)
  | (asked, .ok _) => Task.doTurnStart { asked with threadId := some resumeThreadId } input turn

/-- `Init`, once. -/
def emitInit (t : Task) : Task :=
  match t.initEmitted, t.threadId with
  | false, some tid => { t.emit (.init tid) with initEmitted := true }
  | _, _ => t

/-- What becomes of a start that came to nothing: its own files go, unless the task panicked. -/
def abandon (tried : Task) (what : String) (draft : Draft) : Failure → Task
  | .error e => ((tried.died (what ++ ": " ++ e)).cleanupTempFiles draft.tempFiles).leave
  | .panicked => tried.panic

/-- `AgentCommand::Start`. -/
def handleStart (t : Task) (config : Config) (taskPayload : Json) (attempt : Nat → Attempt) (thread turn : Answer) :
    Task :=
  match extractParts taskPayload with
  | .error e => (t.died ("bad task payload: " ++ e)).leave
  | .ok parts =>
      match partsToCodexInput attempt t.nextFile parts with
      | .error (e, draft) => ((t.drafted draft).died ("failed to prepare input: " ++ e)).leave
      | .ok draft =>
          match (taskPayload.get "resumeSessionId").bind Json.asStr with
          | some resumeId =>
              match (t.drafted draft).doResume resumeId draft.input thread turn with
              | (tried, .error e) => tried.abandon "Codex resume failed" draft e
              | (started, .ok _) => { started.emitInit with activeTurnTempFiles := draft.tempFiles }
          | none =>
              match (t.drafted draft).doFreshStart config draft.input thread turn with
              | (tried, .error e) => tried.abandon "Codex start failed" draft e
              | (started, .ok _) => { started.emitInit with activeTurnTempFiles := draft.tempFiles }

def accept (t : Task) (number : Nat) : Task := { t with log := t.log ++ [.accepted number] }

def defer (t : Task) (number : Nat) (draft : Draft) : Task :=
  let prompt : Deferred := ⟨number, draft.input, draft.tempFiles⟩
  accept { t with deferredPrompts := t.deferredPrompts ++ [prompt] } number

/-- `handle_prompt` when no turn is active: a turn of its own. -/
def promptTurn (t : Task) (number : Nat) (draft : Draft) (answer : Answer) : Task :=
  match t.threadId with
  | none => (t.died "Prompt received but no thread_id set").cleanupTempFiles draft.tempFiles
  | some tid =>
      let asked := t.ask (turnStart tid draft.input (.own number)) answer
      let gone (error : String) := (asked.died error).cleanupTempFiles draft.tempFiles
      match answer with
      | .unsent e => gone ("failed to send turn/start: " ++ e)
      | .failed _ e => gone ("turn/start failed: " ++ e)
      | .malformed _ line =>
          match lineHead line with
          | none => asked.panic
          | some head => gone ("turn/start failed: " ++ malformedJson head)
      | .timedOut _ => gone "turn/start timed out"
      | .response _ resp =>
          if (resp.get "error").isSome then gone ("turn/start rejected: " ++ text resp)
          else
            let active := match turnIdOf resp with
              | some turnId => some turnId
              | none => asked.activeTurnId
            { { asked with activeTurnId := active }.accept number with
              activeTurnTempFiles := draft.tempFiles
              stopTurnRequested := false }

/-- `err["data"]["activeTurnNotSteerable"]`. -/
def notSteerable (err : Json) : Bool := ((err.get "data").bind (·.get "activeTurnNotSteerable")).isSome

/-- `handle_prompt` when a turn is active: the prompt is steered into it. -/
def promptSteer (t : Task) (number : Nat) (draft : Draft) (answer : Answer) : Task :=
  let asked := t.ask (turnSteer (t.threadId.getD "") (t.activeTurnId.getD "") draft.input (.steer number)) answer
  let gone (error : String) := (asked.died error).cleanupTempFiles draft.tempFiles
  match answer with
  | .unsent e => gone ("turn/steer transport error: " ++ e)
  | .failed _ e => gone ("turn/steer failed: " ++ e)
  | .malformed _ line =>
      match lineHead line with
      | none => asked.panic
      | some head => gone ("turn/steer failed: " ++ malformedJson head)
  | .timedOut _ => gone "turn/steer timed out"
  | .response _ resp =>
      match resp.get "error" with
      | some err =>
          -- the turn cannot take it: it waits for the next one, unless this one is being stopped
          if notSteerable err ∧ !asked.stopTurnRequested then asked.defer number draft
          else if asked.stopTurnRequested then asked.cleanupTempFiles draft.tempFiles
          else gone ("turn/steer error: " ++ text err)
      | none =>
          { asked.accept number with activeTurnTempFiles := asked.activeTurnTempFiles ++ draft.tempFiles }

/-- `handle_prompt`. An error ends the process, and the loop finds out. -/
def handlePrompt (t : Task) (parts : List Json) (attempt : Nat → Attempt) (answer : Answer) : Task :=
  let number := t.nextPrompt
  let t := { t with nextPrompt := t.nextPrompt + 1 }
  match partsToCodexInput attempt t.nextFile parts with
  | .error (e, draft) => (t.drafted draft).emit
      (.turnComplete ⟨t.threadId, some ("failed to prepare input: " ++ e), some .executorFailed, none⟩ true)
  | .ok draft =>
      let t := t.drafted draft
      if t.fallbackInFlight then t.defer number draft
      else if t.activeTurnId.isNone then t.promptTurn number draft answer
      else t.promptSteer number draft answer

/-- `is_turn_completed`. -/
def isTurnCompleted (msg : Json) : Bool := (msg.get "method").bind Json.asStr = some "turn/completed"

/-- The wait of `Cancel` for the end of the turn. -/
def cancelWait (t : Task) : List Line → Task
  | [] => t
  | .json msg :: lines =>
      if isTurnCompleted msg then t.handleTurnCompleted msg else (t.handleIncomingMessage msg).cancelWait lines
  | .malformed :: lines | .blank :: lines => t.cancelWait lines
  -- there will be no more
  | .eof _ :: _ | .error _ :: _ => t

/-- `AgentCommand::Cancel`. The files of deferred prompts are looked for after the prompts are dropped. -/
def handleCancel (t : Task) (lines : List Line) : Task :=
  let dropped := { t with cancelRequested := true, deferredPrompts := [] }.cleanupDeferredTempFiles
  let waited := match dropped.threadId, dropped.activeTurnId with
    | some tid, some turnId => (dropped.tell (interrupt tid turnId)).cancelWait lines
    | _, _ => dropped
  (waited.died "cancelled").cleanupStateTempFiles.leave

/-- A late answer to a `turn/start`. -/
def lateTurnId (msg : Json) : Option String :=
  if (msg.get "id").isSome ∧ (msg.get "method").isNone ∧ (msg.get "result").isSome then turnIdOf msg else none

/-- The wait of `StopTurn` for a turn that is being started. -/
def stopWait (t : Task) : List Line → Task
  -- the deadline
  | [] => (t.died "StopTurn escalated: turn/start hung").cleanupStateTempFiles.leave
  | .json msg :: lines =>
      match lateTurnId msg with
      | some turnId =>
          let started := { t with activeTurnId := some turnId, fallbackInFlight := false }
          match started.threadId with
          | some tid => started.tell (interrupt tid turnId)
          | none => started
      | none => (t.handleIncomingMessage msg).stopWait lines
  | .malformed :: lines | .blank :: lines => t.stopWait lines
  -- the loop reads the end again
  | .eof exitInfo :: _ => { t with ended := some exitInfo }
  -- the next line may be readable
  | .error _ :: _ => t

/-- `AgentCommand::StopTurn`. -/
def handleStopTurn (t : Task) (lines : List Line) : Task :=
  let dropped := { { t with stopTurnRequested := true }.cleanupDeferredTempFiles with deferredPrompts := [] }
  match dropped.threadId, dropped.activeTurnId with
  | some tid, some turnId => dropped.tell (interrupt tid turnId)
  | some _, none => dropped.stopWait lines
  | none, _ => dropped

/-- What the process writes. -/
def handleLine (t : Task) : Line → Task
  | .json msg => t.handleIncomingMessage msg
  | .malformed | .blank => t
  | .eof exitInfo => (t.died ("Codex process died (" ++ exitInfo ++ ")")).cleanupStateTempFiles.leave
  | .error e => (t.died ("Codex stdout read error: " ++ e)).cleanupStateTempFiles.leave

/-- The branches of the `select!`. -/
def handlePick (t : Task) (config : Config) : Pick → Task
  | .line line => t.handleLine line
  | .start payload attempt thread turn => (t.took (.start payload)).handleStart config payload attempt thread turn
  | .prompt parts attempt answer => (t.took (.prompt parts)).handlePrompt parts attempt answer
  | .cancel lines => (t.took .cancel).handleCancel lines
  | .stopTurn lines => (t.took .stopTurn).handleStopTurn lines
  -- nothing is emitted for a stop
  | .stop => (t.took .stop).cleanupStateTempFiles.leave
  | .closed => { t with log := t.log ++ [Entry.closed] }.cleanupStateTempFiles.leave
  | .stalled seconds =>
      if t.activeTurnId.isSome ∧ !t.cancelRequested then
        (t.died ("executor stalled: no output for " ++ toString seconds ++ "s")).cleanupStateTempFiles.leave
      else t

/-- The `select!`, which is biased: messages read early come first, and the output before the commands. -/
def select (t : Task) (config : Config) (pick : Pick) : Task :=
  match t.notifications, t.ended with
  | msg :: rest, _ => { t with notifications := rest }.handleIncomingMessage msg
  | [], some exitInfo => t.handleLine (.eof exitInfo)
  | [], none => t.handlePick config pick

/-- One iteration of the loop, with the answer to a fallback turn. -/
def iterate (config : Config) (t : Task) (step : Answer × Pick) : Task :=
  if t.running then
    let started := t.startFallback step.1
    if started.running then started.select config step.2 else started
  else t

/-- The task over a sequence of inputs. -/
def run (config : Config) (steps : List (Answer × Pick)) : Task := steps.foldl (iterate config) new

end Task

end Executors.Codex
end AgentBeacon
