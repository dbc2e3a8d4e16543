import AgentBeacon.Correctness.Assignment
import AgentBeacon.System.Reports

/-!
# `Correctness.Reports` — which state a session's reports leave

The state of a session that only reports touch is that of the last report to go through, in the order
in which the scheduler processes them: a report carries nothing by which one that was made earlier could
be told from a newer one.
-/

namespace AgentBeacon
open Relational Transaction Interleave Transition

/-- The report a call processes: the session, the state and the worker. -/
def reportOf (e : Event scheduler) : Option (SessionId × ExState × WorkerId) :=
  match (e.op : Op) with
  | .write (.setExecutorState session state worker _) => some (session.id, state, worker)
  | _ => none

instance (db : Db) (s : Session) (state : ExState) (worker : WorkerId) :
    Decidable (Reportable db s state worker) := inferInstanceAs (Decidable (_ ∧ _))

/-- The state of a report on the session that goes through: the database does not fail it, and it is
reportable of the row it finds. -/
def landed (id : SessionId) (e : Event scheduler) : Option ExState :=
  match reportOf e with
  | some (j, state, worker) =>
      if j = id ∧ (envOf e).fault.isNone ∧ ((before e).session? id).any fun row =>
        Reportable (before e) row state worker then some state else none
  | none => none

theorem reportOf_eq_some {e : Event scheduler} {id : SessionId} {state : ExState} {worker : WorkerId}
    (h : reportOf e = some (id, state, worker)) :
    ∃ session crashMeta, e.op = Op.write (.setExecutorState session state worker crashMeta) ∧
      session.id = id := by
  unfold reportOf at h
  split at h
  · rename_i session state' worker' crashMeta hop
    obtain ⟨rfl, rfl, rfl⟩ := h
    exact ⟨session, crashMeta, hop, rfl⟩
  · cases h

/-- One report: the state it lands, or the one that was. -/
theorem report_step {history : History} (h : Trace disciplined history) {e : Event scheduler}
    (he : e ∈ history) {id : SessionId} {state : ExState} {worker : WorkerId}
    (hreport : reportOf e = some (id, state, worker)) {row : Session}
    (hrow : (before e).session? id = some row) :
    ((after e).session? id).map Session.executorState =
      some ((landed id e).getD row.executorState) := by
  obtain ⟨session, crashMeta, hop, rfl⟩ := reportOf_eq_some hreport
  obtain ⟨earlier, -, hr, -, hbefore, hseen⟩ := proper_of_mem h he hop
  have hexec := execution_of_snapshot hr.of_cons.1 hseen (hbefore ▸ hrow)
  have hexists : (before e).execution? session.executionId ≠ none := by
    rw [hbefore] at hrow ⊢
    rw [← hexec]
    exact hr.of_cons.1.hasExecutions row (Db.mem_of_session? hrow)
  unfold landed
  rw [hreport]
  simp only [hrow, Option.any_some, decide_eq_true_eq, true_and]
  cases hfault : (envOf e).fault with
  | some fault =>
      have hsame : after e = before e := by
        rw [after_write hop, Write.run, hfault]
      rw [hsame, hrow]
      simp
  | none =>
      rw [after_write hop]
      rcases setExecutorState_spec (envOf e) session state worker crashMeta hfault hrow hexec hexists with
        ⟨hlands, hsessions⟩ | ⟨hrefused, hsame⟩
      · have hfind : ((Write.setExecutorState session state worker crashMeta).run (envOf e)
            (before e)).2.session? session.id =
            some ((reportUpdate state worker row.recoveryAttempts).apply row) := by
          rw [Db.session?, hsessions]
          show ((before e).updateSession session.id _).session? session.id = _
          rw [Db.session?_updateSession, if_pos rfl, hrow]
          rfl
        have hmatches := (reportUpdate_matches state worker row.recoveryAttempts row).trans hlands.1
        rw [hfind, Option.map_some, SessionUpdate.apply_of_matches hmatches, reportUpdate_state]
        simp [hlands]
      · rw [hsame, hrow]
        simp [hrefused]

/-- **The last report that goes through stands.** In every run, and for every part `later` of it in which
a session's state is left alone by all calls but the reports on it: the state at its end is that of the
worker's last report, `last`, exactly when the report that is processed last, of those that go through,
is of that state. -/
theorem state_converges_iff {pool : List (Nat × Request Unit)} {start later : History}
    (hrun : SchedulerRun pool (later ++ start)) {id : SessionId} {s₀ : Session}
    (hs : (current start).session? id = some s₀)
    (halone : ∀ e ∈ later, (∀ state worker, reportOf e ≠ some (id, state, worker)) →
      ((after e).session? id).map Session.executorState =
        ((before e).session? id).map Session.executorState) (last : ExState) :
    ((current (later ++ start)).session? id).map Session.executorState = some last ↔
      (later.filterMap (landed id)).head?.getD s₀.executorState = last := by
  suffices hstate : ((current (later ++ start)).session? id).map Session.executorState =
      some ((later.filterMap (landed id)).head?.getD s₀.executorState) by
    rw [hstate, Option.some.injEq]
  have htrace := hrun.disciplined
  clear hrun
  induction later with
  | nil =>
      rw [List.nil_append, hs]
      rfl
  | cons e later ih =>
      have hbefore : before e = current (later ++ start) := (reachable_of_trace htrace).of_cons.2.1
      have hprev := ih (fun e' he' => halone e' (List.mem_cons_of_mem _ he')) htrace.of_cons.1
      rw [← hbefore] at hprev
      rw [List.cons_append, current_cons]
      by_cases hreport : ∃ state worker, reportOf e = some (id, state, worker)
      · obtain ⟨state, worker, hreport⟩ := hreport
        obtain ⟨row, hrow, hstate⟩ := Option.map_eq_some_iff.mp hprev
        rw [report_step htrace List.mem_cons_self hreport hrow, hstate]
        cases hlanded : landed id e with
        | none => rw [List.filterMap_cons_none hlanded, Option.getD_none]
        | some state' => rw [List.filterMap_cons_some hlanded]; rfl
      · have hnone : landed id e = none := by
          unfold landed
          split
          · rename_i j state worker hop
            rw [if_neg]
            rintro ⟨rfl, -⟩
            exact hreport ⟨state, worker, hop⟩
          · rfl
        rw [List.filterMap_cons_none hnone, ← hprev]
        exact halone e List.mem_cons_self fun state worker hop => hreport ⟨state, worker, hop⟩

/-- A worker reports a state of its session. -/
def reportSync (worker : WorkerId) (id : SessionId) (state : String) : Route :=
  .workerSync { heartbeatTimeoutSecs := 30, longPollTimeoutSecs := 0 }
    { workerId := worker, executorReport := some ⟨id, state, none⟩, turnResult := none
      commandAck := none }

/-- The root is assigned to `"w"`, whose crash is reported; its report from before the crash, that it is
running, comes later. -/
def lateReport : List (Choice (Nat × Route) Env) :=
  claimed ++ [.spawn 3 (1, reportSync "w" "r" "crashed"), .step 1 (calm 3 ""), .step 1 (calm 3 ""),
    .step 1 (calm 3 ""), .step 1 (calm 3 "t6"), .drop 1,
    .spawn 4 (1, reportSync "w" "r" "running"), .step 1 (calm 4 ""), .step 1 (calm 4 ""),
    .step 1 (calm 4 ""), .step 1 (calm 4 "t7")]

/-- The calls of the two reports, newest first, and what was called before. -/
def lateCalls : History := (historyOf lateReport).take 8

def callsBefore : History := (historyOf lateReport).drop 8

theorem lateCalls_run : ∃ pool, SchedulerRun pool (lateCalls ++ callsBefore) := by
  obtain ⟨pool, hrun⟩ := historyOf_run lateReport
  refine ⟨pool, ?_⟩
  rw [lateCalls, callsBefore, List.take_append_drop]
  exact hrun

/-- Nothing but the two reports touches the session. -/
theorem lateCalls_alone : ∀ e ∈ lateCalls, (∀ state worker, reportOf e ≠ some ("r", state, worker)) →
    ((after e).session? "r").map Session.executorState =
      ((before e).session? "r").map Session.executorState := by
  have habout : ∀ e ∈ lateCalls, ∀ r ∈ reportOf e, r.1 = "r" := by decide
  have hothers : ∀ e ∈ lateCalls, reportOf e = none →
      ((after e).session? "r").map Session.executorState =
        ((before e).session? "r").map Session.executorState := by decide
  intro e he hnone
  cases hreport : reportOf e with
  | none => exact hothers e he hreport
  | some r =>
      obtain ⟨id, state, worker⟩ := r
      obtain rfl : id = "r" := habout e he _ hreport
      exact absurd hreport (hnone state worker)

/-- **A late report overwrites a later one**: the worker has reported that it runs and then that it
crashed; the second report is processed first, and the session runs. -/
theorem late_report_overwrites : ∃ pool start later, SchedulerRun pool (later ++ start) ∧
    ((current start).session? "r").map Session.workerId = some (some "w") ∧
    (∀ e ∈ later, (∀ state worker, reportOf e ≠ some ("r", state, worker)) →
      ((after e).session? "r").map Session.executorState =
        ((before e).session? "r").map Session.executorState) ∧
    later.filterMap reportOf = [("r", .running, "w"), ("r", .crashed, "w")] ∧
    ((current (later ++ start)).session? "r").map Session.executorState ≠ some .crashed := by
  obtain ⟨pool, hrun⟩ := lateCalls_run
  refine ⟨pool, callsBefore, lateCalls, hrun, by decide, lateCalls_alone, by decide, ?_⟩
  rw [lateCalls, callsBefore, List.take_append_drop]
  decide

theorem state_converges_iff_late :
    ((current (lateCalls ++ callsBefore)).session? "r").map Session.executorState = some .running := by
  obtain ⟨pool, hrun⟩ := lateCalls_run
  have hstart : ((current callsBefore).session? "r").isSome = true := by decide
  obtain ⟨s₀, hs⟩ := Option.isSome_iff_exists.mp hstart
  have hlanded : (lateCalls.filterMap (landed "r")).head? = some .running := by decide
  have hiff := state_converges_iff hrun hs lateCalls_alone .running
  rw [hlanded] at hiff
  exact hiff.mpr rfl

end AgentBeacon
