import AgentBeacon.Deserialize

/-!
# `Worker.Executor` — what the executors share

Executors are background tasks between the worker's loop and an agent process: they take commands from a
channel, talk to the process, and emit events. What a process writes to its standard error, which the
events carry along, is left out.
-/

namespace AgentBeacon
namespace Executors

inductive ErrorKind where
  | executorFailed
  | cancelled
  | stoppedByUser
  | budgetExceeded
  | maxTurns
  deriving DecidableEq, Repr

structure TurnResult where
  agentSessionId : Option String
  error : Option String
  errorKind : Option ErrorKind
  output : Option Json
  deriving DecidableEq

/-- `AgentEvent`, less `Accepted`, which every executor logs with the prompt it is for. -/
inductive AgentEvent where
  | init (sessionId : String)
  | message (output : Json) (ephemeral : Bool)
  | turnComplete (result : TurnResult) (settled : Bool)
  | processDied (error : String) (agentSessionId : Option String)
  deriving DecidableEq

inductive AgentCommand where
  | start (taskPayload : Json)
  | prompt (parts : List Json)
  | cancel
  | stopTurn
  | stop
  deriving DecidableEq

/-- `extract_parts`. -/
def extractParts (taskPayload : Json) : Except String (List Json) :=
  match taskPayload.get "message" with
  | none => .error "task_payload missing message field"
  | some message =>
      match (message.get "parts").bind Json.asArray with
      | none => .error "message missing parts array"
      | some parts => .ok parts

/-- `serde_json::to_string`. -/
def text (value : Json) : String := value.normal.serialize

/-- Every input of a run meets a condition in the state it comes in. -/
def Along {σ ι : Type} (step : σ → ι → σ) (P : σ → ι → Prop) : σ → List ι → Prop
  | _, [] => True
  | s, i :: inputs => P s i ∧ Along step P (step s i) inputs

/-- **What every step that meets the condition preserves holds after the run.** -/
theorem Along.invariant {σ ι : Type} {step : σ → ι → σ} {P : σ → ι → Prop} {I : σ → Prop}
    (hstep : ∀ s i, I s → P s i → I (step s i)) {s : σ} {inputs : List ι} (h : Along step P s inputs) (hs : I s) :
    I (inputs.foldl step s) := by
  induction inputs generalizing s with
  | nil => exact hs
  | cons i inputs ih => exact ih h.2 (hstep s i hs h.1)

end Executors
end AgentBeacon
