import AgentBeacon.Correctness.Reports
import AgentBeacon.System.Additions

/-!
# `Correctness.Retransmission` — what a repeated sync adds

A worker sends a sync again until it is answered. What the scheduler has processed already is recognized
where a message carries a number, and where a report or an acknowledgement finds nothing left to do. The
error of a turn and the notification of its end are not recognized.
-/

namespace AgentBeacon
open Relational Transaction Interleave Transition WorkerSync FirstWins

/-- The call processes a part of the request: its report, or its turn result and acknowledgement. -/
def Processes (request : SyncRequest) (e : Event scheduler) : Prop :=
  match (e.op : Op) with
  | .write (.updateAgentSessionId id agentSessionId worker) =>
      ∃ report ∈ request.executorReport, report.sessionId = id ∧
        report.agentSessionId = some agentSessionId ∧ worker = request.workerId
  | .write (.setExecutorState session state worker _) =>
      ∃ report ∈ request.executorReport, report.sessionId = session.id ∧
        report.executorState = state.asStr ∧ worker = request.workerId
  | .write (.resultTx _ request' _ _ _) => request' = request
  | _ => False

/-- What the call finds has been dealt with, or the call fails. -/
def Absorbed (e : Event scheduler) : Prop :=
  match (e.op : Op) with
  | .write (.setExecutorState session state worker crashMeta) =>
      ((Write.setExecutorState session state worker crashMeta).run (envOf e) (before e)).1.isOk = true →
        ReportAbsorbed (before e) session.id state
  | .write (.resultTx executionId request held notify parent) =>
      ((Write.resultTx executionId request held notify parent).run (envOf e) (before e)).1.isOk = true →
        ResultAbsorbed (before e) request held notify parent
  | _ => True

/-- One call of a sync. -/
theorem addsNothing_iff_absorbed {request : SyncRequest} {e : Event scheduler}
    (h : Processes request e) : AddsNothing (before e) (after e) ↔ Absorbed e := by
  have hsame : AddsNothing (before e) (before e) := Appended.refl.addsNothing_iff.mpr trivial
  unfold Processes at h
  split at h
  · rename_i id agentSessionId worker hop
    unfold Absorbed
    rw [hop, after_write hop]
    exact iff_of_true (updateAgentSessionId_adds id agentSessionId worker (envOf e)) trivial
  · rename_i session state worker crashMeta hop
    unfold Absorbed
    rw [hop, after_write hop]
    simp only
    rcases setExecutorState_appended session state worker crashMeta (envOf e) with
      ⟨hok, happended⟩ | ⟨hfailed, hrefused⟩
    · rw [happended.addsNothing_iff, hok]
      exact ⟨fun habsorbed _ => habsorbed, fun habsorbed => habsorbed rfl⟩
    · rw [hrefused, hfailed]
      exact iff_of_true hsame nofun
  · rename_i executionId request' held notify parent hop
    unfold Absorbed
    rw [hop, after_write hop]
    simp only
    rcases resultTx_appended executionId request' held notify parent (envOf e) with
      ⟨hok, happended⟩ | ⟨hfailed, hrefused⟩
    · rw [happended.addsNothing_iff, hok]
      exact ⟨fun habsorbed _ => habsorbed, fun habsorbed => habsorbed rfl⟩
    · rw [hrefused, hfailed]
      exact iff_of_true hsame nofun
  · exact h.elim

/-- **What a repeated sync adds.** For every state and every request: the calls that process the request,
for the second time as for any, add no message, error or platform event and no task exactly when each
finds its part dealt with. -/
theorem retransmission_adds_nothing_iff {request : SyncRequest} {again : List (Event scheduler)}
    (hagain : ∀ e ∈ again, Processes request e) :
    (∀ e ∈ again, AddsNothing (before e) (after e)) ↔ ∀ e ∈ again, Absorbed e :=
  forall₂_congr fun e he => addsNothing_iff_absorbed (hagain e he)

/-- The root's worker reports the end of a turn with one message. -/
def turnRequest : SyncRequest :=
  { workerId := "w", executorReport := some ⟨"r", "idle", none⟩
    turnResult := some ⟨"r", [(some 1, .str "done")], none, none, none⟩, commandAck := some "t5" }

def turnSync : Route :=
  .workerSync { heartbeatTimeoutSecs := 30, longPollTimeoutSecs := 0 } turnRequest

/-- The request is processed, and, as its answer is lost, once more. -/
def repeated : List (Choice (Nat × Route) Env) :=
  claimed ++ [.spawn 3 (1, turnSync)] ++ stepsAt 3 "a" 10 ++ [.drop 1, .spawn 4 (1, turnSync)] ++
    stepsAt 4 "b" 10

/-- The request whose turn result and acknowledgement a call processes, and whether it notifies the end of the turn. -/
def resultOf (e : Event scheduler) : Option (SyncRequest × Bool) :=
  match (e.op : Op) with
  | .write (.resultTx _ request _ notify _) => some (request, notify)
  | _ => none

theorem resultOf_eq_some {e : Event scheduler} {request : SyncRequest} {notify : Bool}
    (h : resultOf e = some (request, notify)) :
    ∃ executionId held parent, e.op = Op.write (.resultTx executionId request held notify parent) := by
  unfold resultOf at h
  split at h
  · rename_i hop
    obtain ⟨rfl, rfl⟩ := Prod.mk.inj (Option.some.inj h)
    exact ⟨_, _, _, hop⟩
  · cases h

theorem processes_of_resultOf {e : Event scheduler} {request : SyncRequest} {notify : Bool}
    (h : resultOf e = some (request, notify)) : Processes request e := by
  obtain ⟨_, _, _, hop⟩ := resultOf_eq_some h
  unfold Processes
  rw [hop]

/-- The root's worker reports two messages of a turn that goes on. -/
def messageRequest : SyncRequest :=
  { workerId := "w", executorReport := some ⟨"r", "running", none⟩
    turnResult := some ⟨"r", [(some 1, .str "thinking"), (some 2, .str "done")], none, none, none⟩
    commandAck := none }

def messageSync : Route :=
  .workerSync { heartbeatTimeoutSecs := 30, longPollTimeoutSecs := 0 } messageRequest

/-- The request is processed, and once more. -/
def resent : List (Choice (Nat × Route) Env) :=
  claimed ++ [.spawn 3 (1, messageSync)] ++ stepsAt 3 "a" 6 ++ [.drop 1, .spawn 4 (1, messageSync)] ++
    stepsAt 4 "b" 6

/-- The second result transaction finds both messages stored. -/
theorem retransmission_adds_nothing_iff_resent : ∃ again ∈ historyOf resent,
    resultOf again = some (messageRequest, false) ∧
      ((before again).events.rows.filterMap EventRow.msgSeq) = [1, 2] ∧ AddsNothing (before again) (after again) := by
  obtain ⟨again, hagain⟩ := Option.isSome_iff_exists.mp (by decide +kernel : (historyOf resent)[0]?.isSome = true)
  have hresult : (historyOf resent)[0]?.bind resultOf = some (messageRequest, false) := by decide +kernel
  have hstored : (historyOf resent)[0]?.map (fun e => (numbered (before e) "r").map Prod.fst) = some [1, 2] := by
    decide +kernel
  have hlogged : (historyOf resent)[0]?.map (fun e => (before e).events.rows.filterMap EventRow.msgSeq) =
      some [1, 2] := by decide +kernel
  rw [hagain] at hresult hstored hlogged
  have hstored : (numbered (before again) "r").map Prod.fst = [1, 2] := Option.some.inj hstored
  obtain ⟨executionId, held, parent, hop⟩ := resultOf_eq_some hresult
  have hprocesses : ∀ e ∈ [again], Processes messageRequest e :=
    List.forall_mem_singleton.mpr (processes_of_resultOf hresult)
  have hiff := retransmission_adds_nothing_iff hprocesses
  rw [List.forall_mem_singleton, List.forall_mem_singleton] at hiff
  refine ⟨again, List.mem_of_getElem? hagain, hresult, Option.some.inj hlogged, hiff.mpr ?_⟩
  unfold Absorbed
  rw [hop]
  intro _ result hresult' _ _ _ _ _
  obtain rfl := Option.some.inj hresult'
  refine ⟨fun message hmessage => ?_, rfl, fun hnotify => Bool.false_ne_true hnotify.1⟩
  show ∃ seq ∈ message.1, seq ∈ (numbered (before again) "r").map Prod.fst
  rw [hstored]
  rcases List.mem_pair.mp hmessage with rfl | rfl
  · exact ⟨1, rfl, by decide⟩
  · exact ⟨2, rfl, by decide⟩

/-- **The end of a turn is notified twice** when its report is processed twice. -/
theorem repeated_turn_notified_twice : ∃ pool later between start first again,
    SchedulerRun pool (later ++ again :: (between ++ first :: start)) ∧
    Processes turnRequest first ∧ carried "r" first = [(1, .str "done")] ∧
    Processes turnRequest again ∧ ¬AddsNothing (before again) (after again) := by
  obtain ⟨pool, hrun⟩ := historyOf_run repeated
  obtain ⟨again, hagain⟩ := Option.isSome_iff_exists.mp
    (by decide +kernel : (historyOf repeated)[4]?.isSome = true)
  obtain ⟨first, hfirst⟩ := Option.isSome_iff_exists.mp
    (by decide +kernel : ((historyOf repeated).drop 5)[9]?.isSome = true)
  have hresult : (historyOf repeated)[4]?.bind resultOf = some (turnRequest, true) := by decide +kernel
  have hresult' : ((historyOf repeated).drop 5)[9]?.bind resultOf = some (turnRequest, true) := by decide +kernel
  have hcarried : ((historyOf repeated).drop 5)[9]?.map (carried "r") = some [(1, .str "done")] := by
    decide +kernel
  -- the second result transaction logs an event that is no state change
  have hnew : (historyOf repeated)[4]?.any fun e => (after e).events.rows.any fun row =>
      row.eventType ≠ .stateChange ∧ row.id ∉ (before e).events.rows.map EventRow.id := by decide +kernel
  rw [hagain] at hresult hnew
  rw [hfirst] at hresult' hcarried
  rw [history_split hagain, history_split hfirst] at hrun
  refine ⟨pool, _, _, _, first, again, hrun, processes_of_resultOf hresult', Option.some.inj hcarried,
    processes_of_resultOf hresult, ?_⟩
  obtain ⟨row, hrow, hadded⟩ := List.any_eq_true.mp hnew
  obtain ⟨htype, hid⟩ := of_decide_eq_true hadded
  intro hnothing
  exact hid (List.mem_map_of_mem (hnothing.1 row hrow htype))

end AgentBeacon
