import AgentBeacon.Services.Transition

/-!
# `Api.Executions` — what an execution's representation derives from its tree

`api/types.rs` computes two fields of an execution's representation from the rows of its session tree:
the status, and whether the user may close the execution as completed. The detail view has the rows
paired with their queue counts, the list view has the counts in a list of their own; apart from where
a count comes from the two compute the same.
-/

namespace AgentBeacon
open Relational Transition

/-- `list_by_execution_with_pending`: the count is joined on the execution the queue row names. -/
def Db.listByExecutionWithPending (db : Db) (executionId : ExecutionId) : List (Session × Nat) :=
  (db.sessionsOf executionId).map fun s =>
    (s, (db.taskQueue.rows.filter fun t => t.executionId = executionId ∧ t.sessionId = s.id).length)

namespace ExecutionsApi

structure ExecutionDerived where
  status : String
  completionEligible : Bool

/-- A failed child whose live parent has not been told, looked for in the given rows. -/
def unnotifiedFailure (sessions : List Session) (s : Session) : Bool :=
  s.outcome = some .failed && !s.parentNotified &&
    s.parentSessionId.any fun parentId =>
      (sessions.find? fun p => p.id = parentId).any fun p => p.outcome.isNone

/-- What `derive_from_snapshot` and `derive` compute from the rows and their counts. -/
def derivedFields (exec : Execution) (snapshot : List (Session × Nat)) : ExecutionDerived :=
  match exec.outcome with
  | some outcome => { status := outcome.asStr, completionEligible := false }
  | none =>
      if exec.desired = .terminate then { status := "canceled", completionEligible := false }
      else if snapshot.any fun (s, pending) => isActive s pending then
        { status := "working", completionEligible := false }
      else
        let sessions := snapshot.map Prod.fst
        let rootAlive := (sessions.find? fun s => s.parentSessionId.isNone).any fun r => r.outcome.isNone
        let allQuiescent := snapshot.all fun (s, pending) => s.outcome.isSome || isQuiescent s pending
        let noUnnotifiedFailure := !sessions.any (unnotifiedFailure sessions)
        { status := "awaiting_input"
          completionEligible := rootAlive && allQuiescent && noUnnotifiedFailure }

/-- `derive_from_snapshot`: the detail view. -/
def deriveFromSnapshot (exec : Execution) (snapshot : List (Session × Nat)) : ExecutionDerived :=
  derivedFields exec snapshot

/-- `pending_for`: a session without an entry has nothing queued. -/
def pendingFor (pendingCounts : List (SessionId × Nat)) (id : SessionId) : Nat :=
  ((pendingCounts.find? fun c => c.1 = id).map Prod.snd).getD 0

/-- `derive`: the list view. -/
def derive (exec : Execution) (sessions : List Session) (pendingCounts : List (SessionId × Nat)) :
    ExecutionDerived :=
  derivedFields exec (sessions.map fun s => (s, pendingFor pendingCounts s.id))

end ExecutionsApi

end AgentBeacon
