import AgentBeacon.System.Reconcile

/-!
# `System.Routes` — what the scheduler runs

The HTTP and MCP handlers, the sync of a worker, and the scheduler's own loops, each a request over
the operations of `System.Machine`. Broadcasts and wake-ups of waiting requests carry no state and
are left out, as is everything done to processes and files.
-/

namespace AgentBeacon
open Interleave Transition Resolution

/-! ## Authentication -/

inductive McpRole where
  | rootLead | subLead | leaf
  deriving DecidableEq, Repr

/-- `McpSession`: the caller's own session, as read when the request arrived. -/
structure McpSession where
  sessionId : SessionId
  executionId : ExecutionId
  role : McpRole
  depth : Nat
  maxDepth : Int
  maxWidth : Int
  desired : Desired
  projectId : Option String
  sandboxPolicy : String

/-- `McpSession::from_request_parts`, given the bearer token. -/
def authenticate (token : String) : Handler McpSession := do
  let session ← attempt (getSession token)
  if session.outcome.isSome then throw (.notFound "session is in terminal state")
  else do
    let execution ← attempt (getExecution session.executionId)
    let depth ← attempt (query fun _ db => db.computeDepth session.id session.executionId)
    return {
      sessionId := session.id
      executionId := session.executionId
      role := if session.parentSessionId.isNone then .rootLead
        else if execution.maxDepth ≤ depth then .leaf else .subLead
      depth
      maxDepth := execution.maxDepth
      maxWidth := execution.maxWidth
      desired := session.desired
      projectId := execution.projectId
      sandboxPolicy := session.sandboxPolicy }

/-- `is_agent_session_bearer`. -/
def isAgentSessionBearer (bearer : Option String) : Handler Bool :=
  match bearer with
  | none => return false
  | some token => do
      match ← ExceptT.lift (getSession token) with
      | .ok _ => return true
      | .error (.notFound _) => return false
      | .error e => throw e

/-! ## Messages -/

/-- `has_deliverable_content`. -/
def hasDeliverableContent (parts : List Json) : Bool :=
  parts.any fun p =>
    match (p.get "text").bind Json.asStr with
    | some text => !text.toList.all isWhitespace
    | none =>
        match (p.get "raw").bind Json.asStr with
        | some raw => raw ≠ ""
        | none => ((p.get "url").bind Json.asStr).any fun url => url ≠ ""

/-- `get_escalation`; event ids in requests are `i64`. -/
def getEscalation (eventId : Int) : Request (Except SchedulerError (Option Escalation)) :=
  query fun _ db =>
    (db.events.rows.find? fun e => (e.id : Int) = eventId).bind asEscalation

/-- The resolution marker of a live answer, in `post_message`. -/
def resolutionMarker (id : SessionId) (parts : List Json) (bearer : Option String) :
    Handler (Option ResolutionMarker) :=
  match validateLiveAnswer parts with
  | .notAnAnswer => return none
  | .multipleParts =>
      throw (.validationFailed "message must contain at most one question_answer part")
  | .missingEscalationEventId =>
      throw (.validationFailed "question_answer part requires a string escalation_event_id")
  | .senderPresent => throw (.validationFailed "question_answer cannot carry a sender part")
  | .malformedParts =>
      throw (.validationFailed "message parts must be objects with object data members")
  | .valid escalationEventId answerText =>
      if reservedEnvelopeExceedsCap answerText then throw (.problem .decisionAnswerTooLarge)
      else do
        match ← attempt (getEscalation escalationEventId) with
        | none => throw (.problem .decisionNotFound)
        | some escalation =>
            if escalation.sessionId ≠ id then throw (.problem .decisionWrongSession)
            else if ← isAgentSessionBearer bearer then throw (.problem .authForbidden)
            else return some { escalation, answerText }

/-- How `post_message` answers a refused transition. -/
def messageRefused : Rejected → SchedulerError
  | .writeBarrier => .conflict "session or execution cannot accept messages"
  | .alreadyResolved winner => .problem (.decisionAlreadyResolved winner)
  | .decisionExpired => .problem .decisionExpired
  | .executionTerminated => .problem .executionTerminated
  | .notFound => .notFound "session does not exist"
  | .ratchet => dbError "transition failed: Ratchet"
  | .invalidTransition reason => dbError ("transition failed: " ++ reason)

/-- `post_message`. -/
def postMessage (id : SessionId) (parts : List Json) (bearer : Option String) :
    Handler (Option Nat) :=
  if parts.isEmpty then throw (.validationFailed "parts must be non-empty")
  else if !hasDeliverableContent parts then
    throw (.validationFailed
      "parts must contain at least one non-empty text part or file part with bytes")
  else do
    let resolution ← resolutionMarker id parts bearer
    let session ← attempt (getSession id)
    let args : SendMessageArgs := {
      payload := .obj [("message", userMessage parts)]
      resolution, emitMessageDelivered := true, fromUser := true }
    match ← ExceptT.lift (transition session.executionId session.id (.sendMessage args)) with
    | .ok eventId => return eventId
    | .error e => throw (messageRefused e)

/-- Who a lateral message is from. -/
structure SenderInfo where
  name : String
  sessionId : SessionId

/-- The header the recipient sees above a lateral message. -/
def SenderInfo.header (s : SenderInfo) : String :=
  "[message from " ++ s.name ++ " · session " ++ s.sessionId ++ "]"

/-- The parts delivered: the sender's header in front of the first text. -/
def deliveryParts (sender : SenderInfo) (parts : List Json) : List Json :=
  match parts.findIdx? fun p => (p.get "text").isSome with
  | some i =>
      let existing := (((parts[i]?).bind fun p => p.get "text").bind Json.asStr).getD ""
      parts.set i (.textPart (sender.header ++ "\n\n" ++ existing))
  | none => .textPart sender.header :: parts

/-- `deliver_message`, from another session. -/
def deliverMessage (session : Session) (parts : List Json) (sender : SenderInfo) :
    Handler (Option Nat) := do
  let senderPart := Json.dataPart (.obj [("type", .str senderType), ("name", .str sender.name),
    ("session_id", .str sender.sessionId)])
  let payload : Json := .obj [("message", userMessage (deliveryParts sender parts)),
    ("event_message", userMessage (parts ++ [senderPart]))]
  match ← ExceptT.lift (transition session.executionId session.id
      (.sendMessage (.plain payload))) with
  | .ok eventId => return eventId
  | .error .writeBarrier => throw (.conflict "session or execution cannot accept messages")
  | .error _ => throw (dbError "send message failed")

/-- `POST /api/v1/messages`. -/
def sendLateralMessage (token recipient : String) (parts : List Json) : Handler (Option Nat) := do
  let auth ← authenticate token
  if auth.desired ≠ .run then
    throw (.conflict "sender session is stopped or terminated — cannot send messages")
  else if parts.isEmpty then throw (.validationFailed "parts must be non-empty")
  else if !hasDeliverableContent parts then
    throw (.validationFailed
      "parts must contain at least one non-empty text part or file part with bytes")
  else do
    let sessions ← attempt (query fun _ db => db.sessionsOf auth.executionId)
    let names := hierarchicalNames sessions
    match names.find? fun n => n.1 = auth.sessionId with
    | none => throw (.notFound ("session not found in execution: " ++ auth.sessionId))
    | some sender =>
        match names.filter fun n => n.2 = recipient with
        | [] => throw (.notFound ("no agent found with name: " ++ recipient))
        | [matched] => do
            let session ← attempt (getSession matched.1)
            deliverMessage session parts { name := sender.2, sessionId := auth.sessionId }
        | _ => throw (.conflict "ambiguous recipient")

/-! ## Stopping and terminating -/

/-- `stop_turn_handler`. -/
def stopTurn (id : SessionId) : Handler Unit := do
  let session ← attempt (getSession id)
  match ← ExceptT.lift
      (transition session.executionId session.id (.setDesired .stop .user)) with
  | .ok _ => return ()
  | .error .ratchet => throw (.conflict "session already terminated")
  | .error _ => throw (dbError "transition failed")

/-- `repair_execution_for_terminal_root`. -/
def repairExecutionForTerminalRoot (rootSessionId : SessionId) : Handler Unit := do
  let session ← attempt (getSession rootSessionId)
  attempt (issue (.repairExecutionForTerminalRoot rootSessionId session.executionId))

/-- What both terminate handlers do: terminate the session, repair the execution of a root that had
terminated already, and cascade. -/
def terminateTree (fuel : Nat) (executionId : ExecutionId) (id : SessionId) (repairs : Bool) :
    Handler Unit := do
  match ← ExceptT.lift (terminateSession executionId id .user) with
  | .error .ratchet => do
      if repairs then repairExecutionForTerminalRoot id else pure ()
      let fresh ← attempt (getSession id)
      cascadeChildren fuel fresh
  | .error _ => throw (dbError "transition failed")
  | .ok () => do
      let fresh ← attempt (getSession id)
      cascadeChildren fuel fresh

/-- `POST /sessions/{id}/terminate`. -/
def terminateSessionRoute (fuel : Nat) (id : SessionId) : Handler Unit := do
  let session ← attempt (getSession id)
  terminateTree fuel session.executionId session.id session.parentSessionId.isNone

/-- `POST /executions/{id}/terminate`. -/
def terminateExecution (fuel : Nat) (id : ExecutionId) : Handler Unit := do
  let exec ← attempt (getExecution id)
  if exec.outcome.isSome then return ()
  else do
    let sessions ← attempt (query fun _ db => db.sessionsOf id)
    match sessions.find? fun s => s.parentSessionId.isNone with
    | none => throw (.notFound ("no root session found for execution " ++ id))
    | some root => terminateTree fuel id root.id true

/-- `handle_release`. -/
def release (fuel : Nat) (token : String) (targetId : SessionId) : Handler Unit := do
  let auth ← authenticate token
  if auth.role = .leaf ∨ auth.maxDepth ≤ auth.depth then
    throw (.forbidden "no tools available for this session role")
  else do
    let target ← attempt (getSession targetId)
    if target.executionId ≠ auth.executionId then
      throw (.validationFailed "session does not belong to this execution")
    else if target.parentSessionId ≠ some auth.sessionId then
      throw (.validationFailed "session is not a child of this session")
    else do
      match ← ExceptT.lift
          (transition target.executionId targetId (.setDesired .terminate .agentRelease)) with
      | .ok _ | .error .ratchet => do
          match ← ExceptT.lift (getSession targetId) with
          | .ok fresh => do
              let _ ← ExceptT.lift (cascadeChildren fuel fresh).run
              return ()
          | .error _ => return ()
      | .error _ => throw (dbError "release transition failed")

/-! ## Creating sessions -/

/-- `create_execution`, with what the request resolved to. -/
structure NewExecutionRequest where
  agentId : AgentId
  agentIds : List AgentId
  parts : List Json
  new : Creation.NewExecution
  cwd : Option String
  worktreePath : Option String
  baseCommitSha : Option String

/-- Whether an error text names a unique-index violation. -/
def namesUnique : SchedulerError → Bool
  | .database message _ =>
      1 < (message.toLower.splitOn "unique").length ||
      1 < (message.toLower.splitOn "duplicate key").length
  | _ => false

/-- Insert a session, with up to `attempts` slugs. -/
def withFreshSlug {α : Type} (insert : Request (Except SchedulerError α)) : Nat → Handler α
  | 0 => throw (dbError "create session failed: slug collision after 3 retries")
  | attempts + 1 => do
      match ← ExceptT.lift insert with
      | .ok a => return a
      | .error e => if namesUnique e then withFreshSlug insert attempts else throw e

/-- A lookup by the project, if there is one: `count_non_terminal_by_project` and `list_by_project` of
the MCP servers. What they find goes into the answer and into the queued payload only. -/
def lookUpProject (projectId : Option String) : Handler Unit :=
  if projectId.isSome then attempt (query fun _ _ => ()) else return ()

/-- `persist_and_enqueue`, after the checks of `create_execution`. The queued payload also carries
the composed agent and driver configuration, which no modelled operation reads. -/
def createExecution (request : NewExecutionRequest) : Handler (ExecutionId × SessionId) :=
  if request.parts.isEmpty then throw (.validationFailed "parts is required")
  else do
    let agent ← attempt (getAgent request.agentId)
    if !agent.enabled then throw (.validationFailed ("agent is disabled: " ++ request.agentId))
    else if ¬(1 ≤ request.new.maxDepth ∧ request.new.maxDepth ≤ 10) then
      throw (.validationFailed "max_depth must be between 1 and 10")
    else if ¬(1 ≤ request.new.maxWidth ∧ request.new.maxWidth ≤ 50) then
      throw (.validationFailed "max_width must be between 1 and 50")
    else do
      let executionId ← attempt (issue (.createExecution request.new))
      let sessionId ← withFreshSlug (issue (.createSession executionId agent.id request.cwd
        request.worktreePath request.baseCommitSha request.new.sandboxPolicy)) 3
      let _ : Nat ← attempt (issue (.insertLocked executionId (some sessionId) .message
        (userMessage request.parts)))
      let _ : Nat ← attempt (issue (.insertLocked executionId none .stateChange
        (.obj [("desired", .str "run")])))
      lookUpProject request.new.projectId -- for the warning
      lookUpProject request.new.projectId -- for the MCP servers
      attempt (issue (.insertExecutionAgents executionId request.agentIds))
      let _ ← attempt (getExecution executionId)
      attempt (issue (.pushTask executionId sessionId
        (.obj [("agent_id", .str agent.id), ("message", userMessage request.parts)])))
      return (executionId, sessionId)

/-- The name of a session: the slugs from its root, read row by row. -/
def hierarchicalNameForSession : Nat → SessionId → Handler (List String)
  | 0, _ => return []
  | steps + 1, id => do
      let session ← attempt (getSession id)
      match session.parentSessionId with
      | none => return [displaySlug session]
      | some parentId => do
          let above ← hierarchicalNameForSession steps parentId
          return above ++ [displaySlug session]

/-- The clean-up of a delegation that lost a race: the child's row is deleted, errors ignored. -/
def abandonChild (childId : SessionId) : Handler Unit := do
  let _ : Except SchedulerError Unit ← ExceptT.lift (issue (.deleteSession childId))
  return ()

/-- What `handle_delegate` answers for a delegation that did not happen. -/
def delegateRefused : Creation.DelegateResult → SchedulerError
  | .executionTerminating => .conflict "execution is terminating (concurrent race)"
  | .parentTerminal => .conflict "parent session is terminal (concurrent race)"
  | .parentStopped => .conflict "parent session is stopped (concurrent race)"
  | .enqueued => .conflict "delegated"

/-- `create_with_width_guard`. Its one statement counts in the snapshot that it reads; another insert may be
committed (on PostgreSQL) between that and its own. -/
def createWithWidthGuard (executionId : ExecutionId) (agentId : AgentId) (parentId : SessionId)
    (cwd : Option String) (maxWidth : Int) (sandboxPolicy : String) :
    Request (Except SchedulerError (Option SessionId)) := do
  match ← query fun _ db => db.liveChildren parentId with
  | .error e => return .error e
  | .ok active =>
      issue (.createWithWidthGuard executionId agentId parentId cwd active maxWidth sandboxPolicy)

/-- `handle_delegate`, from the creation of the child on. -/
def delegateTo (auth : McpSession) (agent : Agent) (prompt : String) (cwd : Option String) :
    Handler SessionId := do
  let created ← withFreshSlug (createWithWidthGuard auth.executionId agent.id auth.sessionId cwd
    auth.maxWidth auth.sandboxPolicy) 3
  match created with
  | none => throw (.validationFailed "Cannot delegate: maximum active children reached.")
  | some childId => do
      let name ← hierarchicalNameForSession 20 auth.sessionId
      lookUpProject auth.projectId -- for the MCP servers
      let result ← attempt (issue (.delegate auth.executionId auth.sessionId childId agent.name
        (String.intercalate "/" name) prompt
        (.obj [("agent_id", .str agent.id), ("message", userMessage [.textPart prompt])])))
      match result with
      | .enqueued => return childId
      | refused => do
          abandonChild childId
          throw (delegateRefused refused)

/-- `handle_delegate`. An explicit working directory is checked against the file system, which only
decides whether the request goes on. -/
def delegate (token agentName prompt : String) (explicitCwd : Option String) :
    Handler SessionId := do
  let auth ← authenticate token
  if auth.role = .leaf ∨ auth.maxDepth ≤ auth.depth then
    throw (.forbidden "no tools available for this session role")
  else if auth.desired = .stop then
    throw (.conflict "session is stopped — cannot delegate while stop is in effect")
  else do
    let execution ← attempt (getExecution auth.executionId)
    if Reconciler.executionEnded execution then throw (.conflict "execution is terminating")
    else do
      let found ← attempt (query fun _ db => db.agents.rows.find? fun a =>
        a.name = agentName ∧ a.deleted = false)
      match found with
      | none => throw (.validationFailed ("agent not found: " ++ agentName))
      | some agent =>
          if !agent.enabled then throw (.validationFailed ("agent is disabled: " ++ agentName))
          else do
            let pool ← attempt (query fun _ db => db.executionAgents)
            if (auth.executionId, agent.id) ∉ pool then
              throw (.validationFailed ("agent '" ++ agentName ++ "' is not available"))
            else do
              let parent ← attempt (getSession auth.sessionId)
              delegateTo auth agent prompt (explicitCwd.or parent.cwd)

/-- `continue_from_handler`. -/
def continueFrom (id : SessionId) (parts : List Json) : Handler SessionId := do
  let old ← attempt (getSession id)
  if !hasDeliverableContent parts then
    throw (.validationFailed "parts must contain at least one non-empty text part")
  else if old.outcome.isNone then throw (.conflict "session is not terminal (outcome IS NULL)")
  else
    match old.parentSessionId with
    | none => throw (.conflict "cannot continue a root session — use re-run instead")
    | some parentId =>
        if old.commandToken.isSome then
          throw (.conflict "session has a pending command (command_token IS NOT NULL)")
        else if old.workerId.isSome then
          throw (.conflict "session has a worker attached (worker_id IS NOT NULL)")
        else do
          let execution ← attempt (getExecution old.executionId)
          if Reconciler.executionEnded execution then
            throw (.conflict "execution is not alive (desired=terminate or outcome set)")
          else do
            let parent ← attempt (getSession parentId)
            if parent.outcome.isSome ∨ parent.desired = .terminate then
              throw (.conflict "parent is not alive or is terminating")
            else do
              let agent ← attempt (getAgent old.agentId)
              if !agent.enabled then throw (.conflict "agent is disabled — cannot continue")
              else attempt (issue (.continueFrom old parentId
                (SessionsApi.isResumable agent.agentType) parts))

/-- `recover_session_handler`. -/
def recover (id : SessionId) (message : Option String) : Handler Bool :=
  if message.any fun m => 10000 < m.length then
    throw (.validationFailed "message must be 10,000 characters or fewer")
  else do
    let session ← attempt (getSession id)
    if session.outcome ≠ some .failed then
      throw (.validationFailed "session is not in failed state")
    else do
      let agent ← attempt (getAgent session.agentId)
      let resumable := SessionsApi.isResumable agent.agentType
      if !agent.enabled then throw (.validationFailed "agent is disabled — cannot recover")
      else if !resumable ∧ message.isNone then
        throw (.validationFailed "non-resumable agent requires a message for recovery")
      else do
        let exec ← attempt (getExecution session.executionId)
        if session.parentSessionId.isSome ∧ Reconciler.executionEnded exec then
          throw (.validationFailed
            "cannot recover child session under terminal or terminating execution")
        else attempt (issue (.recover session (!resumable && session.agentSessionId.isSome) message))

/-- `delete_session_worktree`, as far as the database is concerned. -/
def deleteWorktree (id : SessionId) : Handler Bool := do
  let session ← attempt (getSession id)
  if session.outcome.isNone ∨ session.workerId.isSome ∨ session.commandToken.isSome then
    throw (.conflict "worktree cleanup only allowed on terminal finalized sessions")
  else if session.worktreePath.isNone then throw (.notFound "session has no worktree")
  else do
    let preClear ← attempt (getSession id)
    if preClear.outcome.isNone ∨ preClear.workerId.isSome ∨ preClear.commandToken.isSome then
      throw (.conflict "session was recovered during worktree cleanup — aborting")
    else attempt (issue (.clearWorktreePath id))

/-! ## Escalations -/

/-- `escalate`. -/
def escalate (token importance : String) (questions : List Json) : Handler (String × Nat) := do
  let auth ← authenticate token
  if auth.role ≠ .rootLead then
    throw (.forbidden "escalate is only available to the root lead agent")
  else if questions.isEmpty ∨ 4 < questions.length then
    throw (.validationFailed "questions must contain 1-4 items")
  else if importance ≠ "blocking" ∧ importance ≠ "fyi" then
    throw (.validationFailed "importance must be \"blocking\" or \"fyi\"")
  else attempt (issue (.escalate auth.executionId auth.sessionId importance questions))

/-- `dismiss`. -/
def dismiss (eventId : String) (bearer : Option String) : Handler Nat := do
  if ← isAgentSessionBearer bearer then throw (.problem .authForbidden)
  else
    match parseI64 eventId with
    | none => throw (.problem .decisionNotFound)
    | some id => do
        match ← attempt (getEscalation id) with
        | none => throw (.problem .decisionNotFound)
        | some escalation => attempt (issue (.dismiss escalation))

/-! ## The reconciler loops -/

/-- Timeouts of the deployment. -/
structure Config where
  heartbeatTimeoutSecs : Nat
  longPollTimeoutSecs : Nat

inductive ReconcilerResult where
  | command (token : String) (action : CommandAction)
  /-- Reconciler ran on assigned sessions, no command needed. -/
  | noAction
  /-- A command is pending: return immediately. -/
  | pendingCommand
  /-- No sessions found for this worker, no unassigned work. -/
  | nothingFound

/-- What a loop does with a session it finds reconcilable. -/
inductive LoopAction where
  | skip
  /-- Its worker is gone. -/
  | lost
  | reconcile
  deriving DecidableEq, Repr

/-- The global loop of `run_reconciler_for_worker`. -/
def globalLoopAction (self : WorkerId) (expired : WorkerId → Bool) (s : Session) : LoopAction :=
  match s.workerId with
  | some worker =>
      if worker = self then .skip
      else if expired worker then .lost
      else if s.outcome.isNone ∧
          ¬(s.commandToken.isSome ∨ s.desired = .terminate ∨ s.executorState = .crashed) then .skip
      else .reconcile
  | none =>
      if s.outcome.isNone ∧ s.desired ≠ .terminate ∧ s.executorState ≠ .crashed then .skip
      else .reconcile

/-- The liveness tick of `main`. -/
def tickAction (expired : WorkerId → Bool) (s : Session) : LoopAction :=
  if s.workerId.any expired then .lost
  else if s.outcome.isNone ∧ s.desired ≠ .terminate ∧ s.executorState ≠ .crashed ∧
      s.commandToken.isNone then .skip
  else .reconcile

/-- `last_seen.elapsed() > timeout`; a worker never heard of is judged by `whenUnknown`. -/
def heartbeatExpired (heartbeats : List (WorkerId × Timestamp)) (timeout now : Nat)
    (whenUnknown : Bool) (worker : WorkerId) : Bool :=
  match heartbeats.lookup worker with
  | some lastSeen => timeout < now - lastSeen
  | none => whenUnknown

/-- Reconcile one session of a loop; whether anything changed. -/
def reconcileOne (fuel : Nat) (session : Session) (commandOk : Bool) (workerId : Option WorkerId) :
    Request (Except SchedulerError ReconcilerAction) := do
  let pending ← countPendingTurns session.id
  match ← getExecution session.executionId with
  | .error e => return .error e
  | .ok execution => (reconcile fuel session pending execution commandOk workerId).run

/-- One session of the global loop, on which the loop has decided. -/
def loopStep (fuel : Nat) (session : Session) : LoopAction → Request Bool
  | .skip => return false
  | .lost => do
      loseCommand session
      return true
  | .reconcile => do
      match ← reconcileOne fuel session false none with
      | .ok .mutated | .ok .repaired => return true
      | _ => return false

/-- The global loop; whether anything changed. -/
def globalLoop (fuel : Nat) (config : Config) (self : WorkerId)
    (heartbeats : List (WorkerId × Timestamp)) (startedAt : Timestamp) :
    List Session → Request Bool
  | [] => return false
  | session :: rest => do
      let now ← clock
      let expired := heartbeatExpired heartbeats config.heartbeatTimeoutSecs now
        (config.heartbeatTimeoutSecs < now - startedAt)
      let changed ← loopStep fuel session (globalLoopAction self expired session)
      let others ← globalLoop fuel config self heartbeats startedAt rest
      return changed || others

/-- What a pass over a worker's own sessions has found so far. -/
structure Pass where
  anyRepaired : Bool
  pendingCommand : Bool

/-- One pass over a worker's own sessions; it ends at the first command. -/
def ownPass (fuel : Nat) (workerId : WorkerId) :
    List Session → Pass → Request (ReconcilerResult ⊕ Pass)
  | [], pass => return .inr pass
  | session :: rest, pass => do
      match ← reconcileOne fuel session true (some workerId) with
      | .ok (.sendCommand token action) => return .inl (.command token action)
      | .ok .repaired => ownPass fuel workerId rest { pass with anyRepaired := true }
      | .ok .pendingCommand => ownPass fuel workerId rest { pass with pendingCommand := true }
      | _ => ownPass fuel workerId rest pass

/-- Up to `passes` passes, another one only after a repair. -/
def ownPasses (fuel : Nat) (workerId : WorkerId) : Nat → Bool → Request ReconcilerResult
  | 0, pending => return if pending then .pendingCommand else .noAction
  | passes + 1, pending => do
      match ← query fun _ db => db.findSessionsForWorker workerId with
      | .error _ => return if pending then .pendingCommand else .noAction
      | .ok fresh =>
          match ← ownPass fuel workerId fresh ⟨false, pending⟩ with
          | .inl result => return result
          | .inr pass =>
              if pass.anyRepaired then ownPasses fuel workerId passes pass.pendingCommand
              else return if pass.pendingCommand then .pendingCommand else .noAction

/-- Claim a session nobody works on. -/
def claim (fuel : Nat) (workerId : WorkerId) : Request (Option ReconcilerResult) := do
  match ← query fun env db => db.findUnassignedWithWork env.choice with
  | .ok (some session) =>
      match ← reconcileOne fuel session true (some workerId) with
      | .ok (.sendCommand token action) => return some (.command token action)
      | _ => return none
  | _ => return none

/-- `run_reconciler_for_worker`. -/
def runReconcilerForWorker (fuel : Nat) (config : Config) (workerId : WorkerId) :
    Request ReconcilerResult := do
  match ← query fun _ db => db.findSessionsForWorker workerId with
  | .error _ => return .nothingFound
  | .ok (_ :: _) => ownPasses fuel workerId 2 false
  | .ok [] => do
      match ← claim fuel workerId with
      | some result => return result
      | none => do
          match ← query fun _ db => db.findReconcilable with
          | .error _ => return .nothingFound
          | .ok sessions => do
              let (heartbeats, startedAt) ← inspect fun _ store =>
                (store.heartbeats, store.startedAt)
              let changed ← globalLoop fuel config workerId heartbeats startedAt sessions
              return if changed then .noAction else .nothingFound

/-- `run_reconciler_for_session`. -/
def runReconcilerForSession (fuel : Nat) (workerId : WorkerId) (sessionId : SessionId) :
    Nat → Request ReconcilerResult
  | 0 => return .noAction
  | passes + 1 => do
      match ← getSession sessionId with
      | .error _ => return .nothingFound
      | .ok session =>
          if session.workerId ≠ some workerId then return .nothingFound
          else do
            let pending ← countPendingTurns sessionId
            match ← getExecution session.executionId with
            | .error _ => return .nothingFound
            | .ok execution => do
                match ← (reconcile fuel session pending execution true (some workerId)).run with
                | .ok (.sendCommand token action) => return .command token action
                | .ok .pendingCommand => return .pendingCommand
                | .ok .repaired => runReconcilerForSession fuel workerId sessionId passes
                | _ => return .noAction

/-- The liveness tick. -/
def tickLoop (fuel : Nat) (config : Config) (heartbeats : List (WorkerId × Timestamp)) :
    List Session → Request Unit
  | [] => return ()
  | session :: rest => do
      let now ← clock
      let expired := heartbeatExpired heartbeats config.heartbeatTimeoutSecs now true
      let _ ← loopStep fuel session (tickAction expired session)
      tickLoop fuel config heartbeats rest

def tick (fuel : Nat) (config : Config) : Request Unit := do
  match ← query fun _ db => db.findReconcilable with
  | .error _ => return ()
  | .ok sessions => do
      let heartbeats ← inspect fun _ store => store.heartbeats
      tickLoop fuel config heartbeats sessions

/-! ## The sync of a worker -/

open WorkerSync

/-- `process_executor_report`: whether the report was applied. -/
def processExecutorReport (workerId : WorkerId) (report : ExecutorReport)
    (crashMeta : Option CrashMeta) : ExceptT String (Prog scheduler) Bool := do
  match ← ExceptT.lift (getSession report.sessionId) with
  | .error _ => throw "session not found"
  | .ok session =>
      if session.workerId ≠ some workerId then return false
      else do
        let state ← match report.executorState with
          | "running" => pure ExState.running
          | "idle" => pure ExState.idle
          | "crashed" => pure ExState.crashed
          | other => throw ("unknown executor_state: " ++ other)
        match report.agentSessionId with
        | some agentSessionId => do
            let updated : Except SchedulerError Unit ←
              ExceptT.lift (issue (.updateAgentSessionId session.id agentSessionId workerId))
            if updated.isOk then pure () else throw "update agent_session_id failed"
        | none => pure ()
        let result ← ExceptT.lift (transition session.executionId session.id
          (.setExecutorState state workerId crashMeta))
        if result.isOk then return true else throw "transition failed"

/-- What a report decides about the reconciler: skip it, run it for one session, or run it. -/
inductive AfterReport where
  | skip
  | scoped (sessionId : SessionId)
  | free

/-- The executor report of a sync. -/
def handleReport (request : SyncRequest) : Request AfterReport :=
  match request.executorReport with
  | none => return .free
  | some report => do
      let crashMeta : Option CrashMeta :=
        if report.executorState = "crashed" then
          (request.turnResult.filter fun r => r.sessionId = report.sessionId).map fun r =>
            { error := r.error, errorKind := r.errorKind, stderr := r.stderr }
        else none
      match ← (processExecutorReport request.workerId report crashMeta).run with
      | .ok applied => return if !applied ∨ report.executorState = "crashed" then .skip else .free
      | .error _ =>
          if report.executorState = "crashed" then return .skip
          else do
            match ← getSession report.sessionId with
            | .error _ => return .skip
            | .ok session =>
                return if (session.outcome.isSome ∧ session.desired ≠ .terminate) ∨
                    session.executorState.asStr ≠ report.executorState ∨
                    session.workerId ≠ some request.workerId
                  then .skip else .scoped report.sessionId

/-- The session of the turn result, if this worker owns it; and whether it is another worker's. -/
def heldSession (request : SyncRequest) : Request (Option Session × Bool) :=
  match request.turnResult with
  | none => return (none, false)
  | some result => do
      match ← getSession result.sessionId with
      | .error _ => return (none, false)
      | .ok session =>
          return if session.workerId = some request.workerId then (some session, false)
            else (none, true)

/-- Whether a turn's end is reported to the parent: an idle report with messages. -/
def shouldNotify (request : SyncRequest) : Bool :=
  (request.executorReport.any fun r => r.executorState = "idle") &&
  request.executorReport.map (·.sessionId) = request.turnResult.map (·.sessionId) &&
  request.turnResult.any fun r => !r.messages.isEmpty

/-- The parent a turn's end is reported to, as read before the result transaction. -/
def parentOfTurn (wanted : Bool) (held : Option Session) : Request (Option SessionId) :=
  match wanted, held.bind fun s => s.parentSessionId.map fun p => (s, p) with
  | true, some (session, parentId) =>
      if session.outcome.isNone ∧ session.desired = .run then do
        match ← getSession parentId with
        | .error _ => return none
        | .ok parent =>
            if parent.outcome.isSome then return none
            else do
              match ← getExecution session.executionId with
              | .error _ => return none
              | .ok exec =>
                  return if exec.desired ≠ .terminate ∧ exec.outcome.isNone
                    then some parentId else none
      else return none
  | _, _ => return none

/-- The execution whose lock the result transaction takes. -/
def resultExecution (request : SyncRequest) (held : Option Session) :
    Request (Option ExecutionId) :=
  match held, request.commandAck with
  | some session, _ => return some session.executionId
  | none, some token => do
      match ← query fun _ db => sessionByToken db token with
      | .ok row => return row.map Session.executionId
      | .error _ => return none
  | none, none => return none

/-- The result transaction, retried up to `retries` times after a deadlock. -/
def runResultTx (executionId : ExecutionId) (request : SyncRequest) (held : Option Session)
    (notify : Bool) (parent : Option SessionId) : Nat → Request (Except SchedulerError ResultTx)
  | 0 => issue (.resultTx executionId request held notify parent)
  | retries + 1 => do
      let result : Except SchedulerError ResultTx ←
        issue (.resultTx executionId request held notify parent)
      match result with
      | .error (.database _ true) => runResultTx executionId request held notify parent retries
      | other => return other

/-- The turn result and the acknowledgement of a sync: whether the reconciler is skipped. -/
def handleResult (request : SyncRequest) : Handler Bool :=
  if request.turnResult.isNone ∧ request.commandAck.isNone then return false
  else do
    let (held, stale) ← ExceptT.lift (heldSession request)
    let parent ← ExceptT.lift (parentOfTurn (shouldNotify request) held)
    match ← ExceptT.lift (resultExecution request held) with
    | none => return stale
    | some executionId => do
        let result ← attempt
          (runResultTx executionId request held (shouldNotify request) parent 3)
        return stale || result.skipReconciler || result.wasTerminalCancel

/-- The reconciler step of a sync: reply with a command, or poll. -/
def pollReconciler (fuel : Nat) (config : Config) (request : SyncRequest) :
    Request ReconcilerResult := do
  match ← runReconcilerForWorker fuel config request.workerId with
  | .command token action => return .command token action
  | .pendingCommand => return .noAction
  | _ =>
      if request.commandAck.isSome ∨ request.turnResult.isSome ∨ config.longPollTimeoutSecs = 0 then
        return .noAction
      else do
        match ← runReconcilerForWorker fuel config request.workerId with
        | .command token action => return .command token action
        | .pendingCommand => return .noAction
        | _ => do
            Prog.perform (M := scheduler) (.heartbeat request.workerId)
            runReconcilerForWorker fuel config request.workerId

/-- `worker_sync`. -/
def workerSync (fuel : Nat) (config : Config) (request : SyncRequest) :
    Handler ReconcilerResult := do
  ExceptT.lift (Prog.perform (M := scheduler) (.heartbeat request.workerId))
  let afterReport ← ExceptT.lift (handleReport request)
  let skip ← handleResult request
  match skip, afterReport with
  | false, .free => ExceptT.lift (pollReconciler fuel config request)
  | false, .scoped sessionId =>
      ExceptT.lift (runReconcilerForSession fuel request.workerId sessionId 2)
  | _, _ => return .noAction

/-- `worker_event`; an ephemeral message leaves no row. -/
def workerEvent (workerId : WorkerId) (sessionId : SessionId) (msgSeq : Int) (payload : Json)
    (ephemeral : Bool) : Handler Unit := do
  let session ← attempt (getSession sessionId)
  if session.workerId ≠ some workerId ∨ ephemeral then return ()
  else attempt (issue (.workerEvent session.executionId sessionId workerId msgSeq payload))

/-! ## Starting up -/

/-- `AncestorCheck`. -/
inductive AncestorCheck where
  | clean | terminating | corrupt
  deriving DecidableEq, Repr

/-- `classify_ancestry`: the walk to the root, at most one step per node. -/
def classifyFrom (nodes : List Session) (start : SessionId) :
    Nat → List SessionId → SessionId → AncestorCheck
  | 0, _, _ => .corrupt
  | steps + 1, visited, current =>
      match nodes.find? fun n => n.id = current with
      | none => .corrupt
      | some node =>
          if node.id ∈ visited then .corrupt
          else if current ≠ start ∧ (node.desired = .terminate ∨ node.outcome.isSome) then
            .terminating
          else
            match node.parentSessionId with
            | none => .clean
            | some parentId =>
                match nodes.find? fun n => n.id = parentId with
                | none => .corrupt
                | some parent =>
                    if parent.executionId ≠ node.executionId then .corrupt
                    else classifyFrom nodes start steps (node.id :: visited) parentId

def classifyAncestry (nodes : List Session) (start : SessionId) : AncestorCheck :=
  classifyFrom nodes start (nodes.length + 1) [] start

/-- `note_left_running`. -/
def noteLeftRunning (candidate : Session) : Request Unit := do
  let _ ← notice candidate (noticeEvent "Session left running after server restart.")
  return ()

/-- One candidate of `park_live_sessions_on_boot` whose ancestry is clean. -/
def park (candidate : Session) : Request Unit := do
  match ← query fun _ db => db.pendingTurns candidate.id with
  | .error _ => noteLeftRunning candidate
  | .ok pending => do
      let announced ← if 0 < pending then
          notice candidate (noticeEvent
            (toString pending ++ " queued message(s) discarded on server restart."))
        else pure true
      if !announced then noteLeftRunning candidate
      else do
        let _ ← if candidate.commandHasPayload then notice candidate lossNotice else pure false
        match ← transition candidate.executionId candidate.id
            (.setDesired .stop .systemRestart) with
        | .ok _ => return ()
        | .error _ => noteLeftRunning candidate

/-- `park_live_sessions_on_boot`. -/
def parkLiveSessionsOnBoot : Request Unit := do
  match ← query fun _ db => db.findRestartPauseCandidates with
  | .error _ => return ()
  | .ok candidates => do
      match ← query fun _ db => db.loadSessionAncestry (candidates.map Session.executionId) with
      | .error _ => return ()
      | .ok nodes =>
          candidates.forM fun candidate =>
            match classifyAncestry nodes candidate.id with
            | .clean => park candidate
            | .terminating => return ()
            | .corrupt => noteLeftRunning candidate

/-- The sweep over crashed sessions when the liveness task starts. -/
def crashedSweep (fuel : Nat) : Request Unit := do
  match ← query fun _ db => db.findCrashedWorkerless with
  | .error _ => return ()
  | .ok sessions => sessions.forM fun session => do
      let _ ← reconcileOne fuel session true none
      return ()

/-- A start of the process; `pauseSessions` is the setting `restart.pause_sessions`. -/
def boot (fuel : Nat) (pauseSessions : Bool) : Request Unit := do
  Prog.perform (M := scheduler) .startUp
  if pauseSessions then parkLiveSessionsOnBoot else pure ()
  crashedSweep fuel

/-! ## Everything that can be asked of the scheduler -/

inductive Route where
  | createExecution (request : NewExecutionRequest)
  | postMessage (id : SessionId) (parts : List Json) (bearer : Option String)
  | sendLateralMessage (token recipient : String) (parts : List Json)
  | stopTurn (id : SessionId)
  | terminateSession (id : SessionId)
  | terminateExecution (id : ExecutionId)
  | delegate (token agentName prompt : String) (cwd : Option String)
  | release (token : String) (target : SessionId)
  | continueFrom (id : SessionId) (parts : List Json)
  | recover (id : SessionId) (message : Option String)
  | deleteWorktree (id : SessionId)
  | escalate (token importance : String) (questions : List Json)
  | dismiss (eventId : String) (bearer : Option String)
  | workerSync (config : Config) (request : SyncRequest)
  | workerEvent (workerId : WorkerId) (sessionId : SessionId) (msgSeq : Int) (payload : Json)
      (ephemeral : Bool)
  | tick (config : Config)
  | boot (pauseSessions : Bool)
  | putAgent (agent : Agent)

/-- Serve a request, dropping what it answers. -/
def done {α : Type} (p : Handler α) : Request Unit := do
  let _ ← p.run
  return ()

/-- The request behind a route; `fuel` bounds the depth of its cascades. -/
def serve (fuel : Nat) : Route → Request Unit
  | .createExecution request => done (createExecution request)
  | .postMessage id parts bearer => done (postMessage id parts bearer)
  | .sendLateralMessage token recipient parts => done (sendLateralMessage token recipient parts)
  | .stopTurn id => done (stopTurn id)
  | .terminateSession id => done (terminateSessionRoute fuel id)
  | .terminateExecution id => done (terminateExecution fuel id)
  | .delegate token agentName prompt cwd => done (delegate token agentName prompt cwd)
  | .release token target => done (release fuel token target)
  | .continueFrom id parts => done (continueFrom id parts)
  | .recover id message => done (recover id message)
  | .deleteWorktree id => done (deleteWorktree id)
  | .escalate token importance questions => done (escalate token importance questions)
  | .dismiss eventId bearer => done (dismiss eventId bearer)
  | .workerSync config request => done (workerSync fuel config request)
  | .workerEvent workerId sessionId msgSeq payload ephemeral =>
      done (workerEvent workerId sessionId msgSeq payload ephemeral)
  | .tick config => tick fuel config
  | .boot pauseSessions => boot fuel pauseSessions
  | .putAgent agent => done (attempt (issue (.putAgent agent)))

/-- The interleavings of the scheduler: any routes, each with any depth of cascades. -/
def SchedulerRun [Start scheduler] (pool : List (Nat × Request Unit)) (history : History) : Prop :=
  Run (M := scheduler) (fun r : Nat × Route => serve r.1 r.2) pool history

end AgentBeacon
