import AgentBeacon.Db.Queries
import AgentBeacon.System.Machine

/-!
# `System.Reconcile` — transitions and the reconciler as requests

The parts of `services/transition.rs` and `services/reconciler.rs` that run between transactions:
what is read before one begins, which transaction follows, and what is made of its reply.
-/

namespace AgentBeacon
open Interleave Transition

/-! ## Reading -/

/-- A request that may fail with `?`. -/
abbrev Handler (α : Type) := ExceptT SchedulerError (Prog scheduler) α

/-- A database read, outside of any transaction. -/
def query {α : Type} (f : Env → Db → α) : Request (Except SchedulerError α) :=
  Prog.perform (M := scheduler) (.read fun env store => f env store.db)

/-- A read of memory or of the clock. -/
def inspect {α : Type} (f : Env → Store → α) : Request α :=
  Prog.perform (M := scheduler) (.inspect f)

/-- Run a transaction. -/
def issue (w : Write) : Request w.transaction.Reply := Prog.perform (M := scheduler) (.write w)

/-- A recursion that has run out of fuel never continues. -/
def stall {α : Type} (a : α) : Request α := .call (M := scheduler) .stall fun _ => .ret a

/-- `?`. -/
def attempt {α : Type} (p : Request (Except SchedulerError α)) : Handler α := ExceptT.mk p

def orNotFound {α : Type} (message : String) :
    Except SchedulerError (Option α) → Except SchedulerError α
  | .ok (some a) => .ok a
  | .ok none => .error (.notFound message)
  | .error e => .error e

def getSession (id : SessionId) : Request (Except SchedulerError Session) := do
  let row ← query fun _ db => db.session? id
  return orNotFound ("session not found: " ++ id) row

def getExecution (id : ExecutionId) : Request (Except SchedulerError Execution) := do
  let row ← query fun _ db => db.execution? id
  return orNotFound ("execution not found: " ++ id) row

def getAgent (id : AgentId) : Request (Except SchedulerError Agent) := do
  let row ← query fun _ db => db.agent? id
  return orNotFound ("agent not found: " ++ id) row

def getChildren (id : SessionId) : Request (Except SchedulerError (List Session)) :=
  query fun _ db => db.childrenOf id

/-- `count_pending_turns(…).unwrap_or(0)`. -/
def countPendingTurns (id : SessionId) : Request Nat := do
  let count ← query fun _ db => db.pendingTurns id
  return count.toOption.getD 0

def clock : Request Timestamp := inspect fun env _ => env.now

/-! ## Transitions -/

/-- `Action`; a crash detection names what it was decided on. -/
inductive Action where
  | setDesired (desired : Desired) (desiredBy : DesiredBy)
  | sendMessage (args : SendMessageArgs)
  | delegate
  | setExecutorState (state : ExState) (workerId : WorkerId) (crashMeta : Option CrashMeta)
  | detectCrash (decidedOn : Session) (noticed : Bool)
  | retryRecovery

/-- The parent a user's stop or terminate is reported to, as read before the transaction. -/
def parentForNotify (session : Session) (desired : Desired) (desiredBy : DesiredBy) :
    Request (Option SessionId) :=
  match session.parentSessionId with
  | some parentId =>
      if desiredBy = .user ∧ (desired = .stop ∨ desired = .terminate) then do
        let parent ← getSession parentId
        let execution ← getExecution session.executionId
        match parent, execution with
        | .ok p, .ok e =>
            return if p.outcome.isNone ∧ e.desired ≠ .terminate ∧ e.outcome.isNone
              then some parentId else none
        -- a failed read only costs the parent its notification
        | _, _ => return none
      else return none
  | none => return none

/-- `set_desired`. -/
def setDesired (session : Session) (desired : Desired) (desiredBy : DesiredBy) :
    Request (Except Rejected Unit) :=
  if session.desired = .terminate then return .error .ratchet
  else if session.desired = desired then return .ok ()
  else do
    let parent ← parentForNotify session desired desiredBy
    match desired with
    | .terminate => issue (.setDesiredTerminate session desiredBy parent)
    | .stop => issue (.setDesiredStop session desiredBy parent)
    | .run => issue (.setDesiredRun session desiredBy)

/-- `send_message`, from the snapshot on. -/
def sendMessageTo (session : Session) (args : SendMessageArgs) : Request (Except Rejected Nat) := do
  match ← getExecution session.executionId with
  | .error _ => return .error .notFound
  | .ok _ => issue (.sendMessage session args)

/-- `lookup`: the session, in the execution it is addressed in. -/
def lookup (executionId : ExecutionId) (sessionId : SessionId) :
    Request (Except Rejected Session) := do
  match ← getSession sessionId with
  | .error _ => return .error .notFound
  | .ok session => return if session.executionId = executionId then .ok session else .error .notFound

/-- `transition`, after the session was looked up. -/
def act (session : Session) : Action → Request (Except Rejected (Option Nat))
  | .setDesired desired desiredBy => do
      return (← setDesired session desired desiredBy).map fun _ => none
  | .sendMessage args => do return (← sendMessageTo session args).map some
  | .delegate => do
      match ← getExecution session.executionId with
      | .error _ => return .error .notFound
      | .ok e => return if e.outcome.isSome then .error .writeBarrier else .ok none
  | .setExecutorState state workerId crashMeta =>
      -- an ended session with a command outstanding may still answer it
      if session.outcome.isSome ∧ session.commandToken.isNone then return .error .writeBarrier
      else do
        let result : Except Rejected Unit ←
          issue (.setExecutorState session state workerId crashMeta)
        return result.map fun _ => none
  | .detectCrash decidedOn noticed => do
      let result : Except Rejected Unit ← issue (.detectCrash session decidedOn noticed)
      return result.map fun _ => none
  | .retryRecovery => do
      let result : Except Rejected Unit ← issue (.retryRecovery session)
      return result.map fun _ => none

/-- `transition`. -/
def transition (executionId : ExecutionId) (sessionId : SessionId) (action : Action) :
    Request (Except Rejected (Option Nat)) := do
  match ← lookup executionId sessionId with
  | .error e => return .error e
  | .ok session => act session action

/-- `terminate_session`. -/
def terminateSession (executionId : ExecutionId) (sessionId : SessionId) (desiredBy : DesiredBy) :
    Request (Except Rejected Unit) := do
  match ← lookup executionId sessionId with
  | .error e => return .error e
  | .ok session => setDesired session .terminate desiredBy

/-- `terminate_session_failed`. -/
def terminateSessionFailed (executionId : ExecutionId) (sessionId : SessionId)
    (desiredBy : DesiredBy) (requireCrashed : Bool) : Request (Except Rejected Unit) := do
  match ← lookup executionId sessionId with
  | .error e => return .error e
  | .ok session =>
      if session.desired = .terminate then return .error .ratchet
      else issue (.terminateFailed session desiredBy requireCrashed)

/-! ## Notices -/

/-- `insert_locked` of a notice for the user; whether it was written. -/
def notice (session : Session) (payload : Json) : Request Bool := do
  let result : Except SchedulerError Nat ←
    issue (.insertLocked session.executionId (some session.id) .platform payload)
  return result.isOk

/-- What the scheduler does when it finds a command timed out or a worker gone: announce a payload
that may be lost, then detect the crash. -/
def loseCommand (session : Session) : Request Unit := do
  let noticed ← if session.commandHasPayload then notice session lossNotice else pure false
  let _ ← transition session.executionId session.id (.detectCrash session noticed)

/-! ## Cascades -/

/-- The cascade step of `reconcile`: each live child is asked once, refusals are ignored. -/
def terminateChildren (session : Session) : Handler Unit := do
  let children ← attempt (getChildren session.id)
  ExceptT.lift <| children.forM fun child => do
    if child.outcome.isNone ∧ child.desired ≠ .terminate then
      let _ ← transition session.executionId child.id (.setDesired .terminate .systemCascade)
    else pure ()

/-- The cascade step, of a session that is to terminate. -/
def cascadeStep (session : Session) : Handler Unit :=
  if session.desired = .terminate then terminateChildren session else pure ()

/-- Whether a child that refused to terminate has terminated by now. -/
def settled (child : Session) : Rejected → Request Bool
  | .ratchet => do
      match ← getSession child.id with
      | .ok c => return decide (c.desired = .terminate)
      | .error _ => return false
  | _ => return false

/-- Terminate one child, unless it has already ended. -/
def terminateChild (session child : Session) : Handler Unit :=
  if child.outcome.isNone ∧ child.desired ≠ .terminate then do
    match ← ExceptT.lift
        (transition session.executionId child.id (.setDesired .terminate .systemCascade)) with
    | .ok _ => pure ()
    | .error e =>
        if ← ExceptT.lift (settled child e) then pure ()
        else throw (dbError ("cascade to " ++ child.id ++ " failed"))
  else pure ()

/-- `cascade_children`. -/
def cascadeChildren : Nat → Session → Handler Unit
  | 0, _ => ExceptT.lift (stall ())
  | fuel + 1, session => do
      let children ← attempt (getChildren session.id)
      children.forM fun child => do
        terminateChild session child
        let fresh ← attempt (getSession child.id)
        cascadeChildren fuel fresh

/-- A termination that found the session terminated already is as good as one that did it. -/
def acceptRatchet (message : String) : Except Rejected Unit → Handler Unit
  | .ok () => pure ()
  | .error .ratchet => pure ()
  | .error _ => throw (dbError message)

/-- `terminate_and_cascade`. -/
def terminateAndCascade (fuel : Nat) (session : Session) (desiredBy : DesiredBy) :
    Handler Unit := do
  let result ← ExceptT.lift (terminateSession session.executionId session.id desiredBy)
  acceptRatchet (desiredBy.asStr ++ " terminate failed") result
  let fresh ← attempt (getSession session.id)
  cascadeChildren fuel fresh

/-! ## `reconcile` -/

/-- `is_agent_deleted`. -/
def isAgentDeleted (id : AgentId) : Request Bool := do
  match ← getAgent id with
  | .ok agent => return agent.deleted
  | .error (.notFound _) => return true
  -- not known to be deleted
  | .error _ => return false

def maxRecoveryAttempts : Int := 2

/-- `recoverable`. -/
def recoverable (session : Session) (pendingTurns : Nat) : Handler Bool :=
  if maxRecoveryAttempts ≤ session.recoveryAttempts then return false
  else do
    let execution ← attempt (getExecution session.executionId)
    if execution.outcome.isSome then return false
    else do
      let agent ← attempt (getAgent session.agentId)
      if agent.deleted then return false
      -- with a conversation it is resumed, without one it starts over with what is queued
      else if session.agentSessionId.isSome then
        return SessionsApi.isResumable agent.agentType && session.cwd.isSome
      else return decide (0 < pendingTurns)

/-- How long a command may stay unacknowledged, in seconds. -/
def commandTimeout : Option CommandType → Nat
  | some .assign => 60
  | some .feedTurn => 5
  | some .stopTurn => 15
  | some .cancel => 15
  | none => 60

/-- The command the desired state calls for, over an outstanding one of type `current`. -/
def neededCommand (session : Session) (current : Option CommandType) : Option CommandType :=
  match session.desired with
  | .terminate => some .cancel
  | .stop =>
      if session.executorState = .running then some .stopTurn
      -- the outstanding command would start a turn
      else if current = some .assign ∨ current = some .feedTurn then some .stopTurn
      else none
  | .run => none

def commandPriority : Option CommandType → Nat
  | some .cancel => 3
  | some .stopTurn => 2
  | _ => 1

/-- `reconcile`, of a session with a command outstanding. -/
def reconcileCommand (session : Session) (commandOk : Bool) : Handler ReconcilerAction := do
  if session.executorState = .crashed then
    attempt (issue (.repairCommand session))
  else
    let now ← ExceptT.lift clock
    if session.commandAt.any fun at_ => commandTimeout session.commandType < now - at_ then
      ExceptT.lift (loseCommand session)
      return .mutated
    else if commandOk ∧ commandPriority session.commandType <
        commandPriority (neededCommand session session.commandType) then
      match neededCommand session session.commandType with
      | some .stopTurn => attempt (issue (.issueStopTurn session))
      | some .cancel => attempt (issue (.issueCancel session))
      | _ => return .pendingCommand
    else return .pendingCommand

/-- `reconcile`, of a running session that has crashed. -/
def reconcileCrashed (fuel : Nat) (session : Session) (pendingTurns : Nat) :
    Handler ReconcilerAction := do
  if ← ExceptT.lift (isAgentDeleted session.agentId) then
    terminateAndCascade fuel session .systemAgentDeleted
    return .mutated
  else if ← recoverable session pendingTurns then
    match ← ExceptT.lift (transition session.executionId session.id .retryRecovery) with
    | .ok _ => return .mutated
    | .error _ => throw (dbError "retry recovery failed")
  else
    match ← ExceptT.lift
        (terminateSessionFailed session.executionId session.id .systemCrashUnrecoverable true) with
    -- terminated, or no longer crashed, since it was read
    | .error .ratchet => return .noAction
    | .error _ => throw (dbError "terminate failed failed")
    | .ok () =>
        let _ ← ExceptT.lift (notice session
          (noticeEvent "Agent session failed permanently. Work or messages may have been lost."))
        let fresh ← attempt (getSession session.id)
        cascadeChildren fuel fresh
        return .mutated

/-- `finalize`, as a step of `reconcile`. -/
def finalized (session : Session) : Handler ReconcilerAction := do
  attempt (issue (.finalize session))
  return .mutated

/-- `reconcile`, the dispatch on `(desired, executor_state)` of a session without a command. -/
def reconcileState (fuel : Nat) (session : Session) (pendingTurns : Nat) (execution : Execution)
    (commandOk : Bool) (workerId : Option WorkerId) : Handler ReconcilerAction :=
  let execAlive := execution.desired = .run ∧ execution.outcome.isNone
  match session.desired, session.executorState with
  | .run, .unassigned => do
      if ← ExceptT.lift (isAgentDeleted session.agentId) then
        terminateAndCascade fuel session .systemAgentDeleted
        return .mutated
      else if (0 < pendingTurns ∨ session.agentSessionId.isSome) ∧ commandOk ∧ execAlive then
        attempt (issue (.issueAssign session session.agentSessionId.isSome workerId))
      else return .noAction
  | .run, .running | .run, .idle =>
      if 0 < pendingTurns ∧ commandOk ∧ execAlive then attempt (issue (.issueFeedTurn session))
      else return .noAction
  | .run, .crashed => reconcileCrashed fuel session pendingTurns
  | .stop, .running =>
      if commandOk then attempt (issue (.issueStopTurn session)) else return .noAction
  | .stop, _ => return .noAction
  | .terminate, .running =>
      if commandOk then attempt (issue (.issueCancel session)) else return .noAction
  | .terminate, .idle =>
      if session.workerId.isSome then
        if commandOk then attempt (issue (.issueCancel session)) else return .noAction
      else finalized session
  | .terminate, .unassigned | .terminate, .crashed => finalized session

/-- `reconcile`. -/
def reconcile (fuel : Nat) (session : Session) (pendingTurns : Nat) (execution : Execution)
    (commandOk : Bool) (workerId : Option WorkerId) : Handler ReconcilerAction := do
  if session.desired = .terminate ∧ session.outcome.isNone then
    if session.parentSessionId.isNone then
      attempt (issue (.repairRootOutcome session execution.outcome.isNone))
    else attempt (issue (.repairChildOutcome session))
  else if session.outcome.isSome ∧ session.desired ≠ .terminate then
    attempt (issue (.repairDesired session))
  else if session.parentSessionId.isNone ∧ session.outcome.isSome ∧ execution.outcome.isNone then
    attempt (issue (.repairExecution session))
  else
    cascadeStep session
    if session.commandToken.isSome then reconcileCommand session commandOk
    else reconcileState fuel session pendingTurns execution commandOk workerId

end AgentBeacon
