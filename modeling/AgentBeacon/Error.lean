import AgentBeacon.Resolution

/-!
# `Error` — what operations answer when they refuse or fail
-/

namespace AgentBeacon

/-- The problem codes of the operations modelled here. -/
inductive ProblemCode where
  | internalError
  | authForbidden
  | decisionNotFound
  | decisionWrongSession
  | decisionAnswerTooLarge
  | decisionAlreadyResolved (winner : Resolution.ResolutionCandidate)
  | decisionExpired
  | executionTerminated
  | requestInvalid (detail : String)
  deriving DecidableEq

/-- `SchedulerError`. A database error carries whether its text names a deadlock or a serialization
failure, which is what a retry looks for. -/
inductive SchedulerError where
  | problem (code : ProblemCode)
  | database (message : String) (retryable : Bool)
  | notFound (message : String)
  | validationFailed (message : String)
  | conflict (message : String)
  | unauthorized (message : String)
  | forbidden (message : String)
  deriving DecidableEq

/-- `transition::Rejected`. -/
inductive Rejected where
  | ratchet
  | writeBarrier
  | notFound
  | alreadyResolved (winner : Resolution.ResolutionCandidate)
  | decisionExpired
  | executionTerminated
  | invalidTransition (reason : String)
  deriving DecidableEq

/-- A database error of one statement. -/
def dbError (message : String) : SchedulerError := .database message false

end AgentBeacon
