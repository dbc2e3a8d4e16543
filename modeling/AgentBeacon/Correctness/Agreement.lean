import AgentBeacon.System.Tree

/-!
# `Correctness.Agreement` — an execution and its root agree

Root and execution are written by different statements, and the execution's outcome is derived from
the whole tree before the root is updated; still every transaction that ends or reopens the one does
the same to the other, whatever the requests that called it had read.
-/

namespace AgentBeacon
open Interleave Lineage

/-- **An execution and its root agree.** In every state of every interleaving of the scheduler, for
every execution with a root: the execution has no outcome if and only if it is desired to run if and
only if the root has no outcome; it failed if and only if the root did; and if it completed, so did
the root. -/
theorem execution_agrees_with_root {pool : List (Nat × Request Unit)} {history : History}
    (h : SchedulerRun pool history) :
    ∀ x ∈ (current history).executions.rows, ∀ root ∈ (current history).sessions.rows,
      root.executionId = x.id → root.parentSessionId = none →
        (x.outcome = none ↔ x.desired = .run) ∧ (x.desired = .run ↔ root.outcome = none) ∧
        (x.outcome = some .failed ↔ root.outcome = some .failed) ∧
        (x.outcome = some .completed → root.outcome = some .completed) := by
  intro x hx root hroot hexec hparent
  have hmember := member_of_row (Db.session?_of_mem hroot)
  have hlife : (current history).forest.life root.executionId = some x.life := by
    rw [hexec]
    show ((current history).executions.find? x.id).map Execution.life = _
    rw [Relational.Table.find?_of_mem hx, Option.map_some]
  obtain ⟨hrun, hopen, hfailed, hcompleted⟩ :=
    (forest_agrees h.disciplined).fits root.id root.node hmember hparent x.life hlife
  exact ⟨hrun, hrun.symm.trans hopen, hfailed, hcompleted⟩

/-- The first execution, terminated by the user. -/
theorem execution_agrees_with_root_terminated :
    (current (historyOf terminated)).executions.rows.map Execution.outcome = [some .canceled] ∧
    ∀ x ∈ (current (historyOf terminated)).executions.rows,
      ∀ root ∈ (current (historyOf terminated)).sessions.rows,
        root.executionId = x.id → root.parentSessionId = none →
          (x.outcome = none ↔ x.desired = .run) ∧ (x.desired = .run ↔ root.outcome = none) ∧
          (x.outcome = some .failed ↔ root.outcome = some .failed) ∧
          (x.outcome = some .completed → root.outcome = some .completed) := by
  refine ⟨by decide, ?_⟩
  obtain ⟨pool, hrun⟩ := historyOf_run terminated
  exact execution_agrees_with_root hrun

end AgentBeacon
