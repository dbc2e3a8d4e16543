import AgentBeacon.Api.Executions

/-!
# `Correctness.Eligibility` — an execution offered for completion completes

Three classifiers look at a session tree: the two views, which tell the user whether the execution may
be completed, and `derive_execution_outcome`, which decides when the user terminates the root. The
views call `is_active` and `is_quiescent`; the decision spells the same tests out over the raw columns
and gives up early. On the rows of one tree they agree.
-/

namespace AgentBeacon
open Relational Transition ExecutionsApi

/-- The rows of an execution are one tree under `root`: a parent is a session of the execution, only
`root` has none, and a queue row is filed under the execution of its session. -/
structure SessionTree (db : Db) (executionId : ExecutionId) (root : Session) : Prop where
  root_mem : root ∈ db.sessionsOf executionId
  root_parent : root.parentSessionId = none
  root_unique : ∀ s ∈ db.sessionsOf executionId, s.parentSessionId = none → s = root
  parent_mem : ∀ s ∈ db.sessionsOf executionId, ∀ p ∈ s.parentSessionId,
    ∃ t ∈ db.sessionsOf executionId, t.id = p
  queued : ∀ t ∈ db.taskQueue.rows, ∀ s ∈ db.sessionsOf executionId, t.sessionId = s.id →
    t.executionId = executionId

variable {db : Db} {executionId : ExecutionId} {root : Session}

/-! ## The classifiers on one row -/

/-- The test that `derive_execution_outcome` spells out is `is_quiescent`. -/
theorem quiescentSlice_eq (s : Session) (pending : Nat) :
    quiescentSlice s pending = isQuiescent s pending := by
  unfold quiescentSlice isQuiescent
  cases s.executorState <;> cases s.commandToken <;> cases pending <;> simp

/-- A failed child that the last pass of `derive_execution_outcome` stops at. -/
def Untold (db : Db) (s : Session) : Prop :=
  s.outcome = some .failed ∧ s.parentNotified = false ∧
    ∃ p ∈ s.parentSessionId, ∃ parent, db.session? p = some parent ∧ parent.outcome = none

/-- **The last pass completes exactly when it stops nowhere.** A missing parent row would be an error;
in a tree there is none. -/
theorem unnotifiedPass_eq_completed {sessions : List Session}
    (hparents : ∀ s ∈ sessions, ∀ p ∈ s.parentSessionId, (db.session? p).isSome) :
    unnotifiedPass db sessions = some .completed ↔ ∀ s ∈ sessions, ¬Untold db s := by
  induction sessions with
  | nil => simp [unnotifiedPass]
  | cons s rest ih =>
      have ih := ih fun s' hs' => hparents s' (List.mem_cons_of_mem s hs')
      rw [List.forall_mem_cons, ← ih]
      cases hp : s.parentSessionId with
      | none => simp [unnotifiedPass, Untold, hp]
      | some p =>
          obtain ⟨parent, hparent⟩ := Option.isSome_iff_exists.mp
            (hparents s List.mem_cons_self p (by simp [hp]))
          by_cases hfailed : s.outcome = some .failed ∧ s.parentNotified = false
          · by_cases hlive : parent.outcome = none
            · simp [unnotifiedPass, Untold, hp, hfailed, hparent, hlive]
            · simp [unnotifiedPass, Untold, hp, hfailed, hparent, hlive]
          · have huntold : ¬Untold db s := fun h => hfailed ⟨h.1, h.2.1⟩
            simp [unnotifiedPass, hp, hfailed, huntold]

/-! ## The rows of a tree -/

namespace SessionTree

/-- The snapshot's join counts what the transaction counts. -/
theorem snapshot (h : SessionTree db executionId root) :
    db.listByExecutionWithPending executionId =
      (db.sessionsOf executionId).map fun s => (s, db.pendingTurns s.id) := by
  refine List.map_congr_left fun s hs => ?_
  have hfilter : (db.taskQueue.rows.filter fun t =>
      t.executionId = executionId ∧ t.sessionId = s.id) = db.tasksOf s.id :=
    List.filter_congr fun t ht => by
      have := h.queued t ht s hs
      simpa using this
  simp only [hfilter, Db.pendingTurns]

/-- The first session without a parent is the root. -/
theorem find_root (h : SessionTree db executionId root) :
    (db.sessionsOf executionId).find? (fun s => s.parentSessionId.isNone) = some root := by
  have hsome : ((db.sessionsOf executionId).find? fun s => s.parentSessionId.isNone).isSome := by
    rw [List.find?_isSome]
    exact ⟨root, h.root_mem, by simp [h.root_parent]⟩
  obtain ⟨r, hr⟩ := Option.isSome_iff_exists.mp hsome
  have hparent : r.parentSessionId = none := by simpa using List.find?_some hr
  rw [hr, h.root_unique r (List.mem_of_find?_eq_some hr) hparent]

/-- Looking a parent up among the rows of the tree is looking it up in the table. -/
theorem find_parent (h : SessionTree db executionId root) {s : Session}
    (hs : s ∈ db.sessionsOf executionId) {p : SessionId} (hp : p ∈ s.parentSessionId) :
    ∃ parent, db.session? p = some parent ∧
      (db.sessionsOf executionId).find? (fun t => t.id = p) = some parent := by
  obtain ⟨t, ht, hid⟩ := h.parent_mem s hs p hp
  have hsome : ((db.sessionsOf executionId).find? fun t => t.id = p).isSome := by
    rw [List.find?_isSome]
    exact ⟨t, ht, by simp [hid]⟩
  obtain ⟨parent, hparent⟩ := Option.isSome_iff_exists.mp hsome
  have hmem : parent ∈ db.sessions.rows :=
    (List.mem_filter.mp (List.mem_of_find?_eq_some hparent)).1
  have hkey : parent.id = p := by simpa using List.find?_some hparent
  exact ⟨parent, hkey ▸ db.sessions.find?_of_mem hmem, hparent⟩

/-- The views look for the same failed child as the last pass. -/
theorem unnotifiedFailure_iff (h : SessionTree db executionId root) {s : Session}
    (hs : s ∈ db.sessionsOf executionId) :
    unnotifiedFailure (db.sessionsOf executionId) s = true ↔ Untold db s := by
  cases hp : s.parentSessionId with
  | none => simp [unnotifiedFailure, Untold, hp]
  | some p =>
      obtain ⟨parent, hrow, hfind⟩ := h.find_parent hs (p := p) (by simp [hp])
      simp [unnotifiedFailure, Untold, hp, hrow, hfind, and_assoc]

/-- **When the decision is `completed`.** -/
theorem outcome_completed_iff (h : SessionTree db executionId root) (hroot : root.outcome = none) :
    deriveExecutionOutcome db executionId = some .completed ↔
      (∀ s ∈ db.sessionsOf executionId, isActive s (db.pendingTurns s.id) = false) ∧
      (∀ s ∈ db.sessionsOf executionId,
        s.outcome.isSome = true ∨ isQuiescent s (db.pendingTurns s.id) = true) ∧
      ∀ s ∈ db.sessionsOf executionId, ¬Untold db s := by
  have hnotfailed : ((db.sessionsOf executionId).any fun s =>
      s.parentSessionId.isNone && s.outcome = some .failed) = false := by
    refine List.any_eq_false.mpr fun s hs hfailed => ?_
    simp only [Bool.and_eq_true, Option.isNone_iff_eq_none, decide_eq_true_eq] at hfailed
    obtain rfl := h.root_unique s hs hfailed.1
    simp [hroot] at hfailed
  have hparents : ∀ s ∈ db.sessionsOf executionId, ∀ p ∈ s.parentSessionId,
      (db.session? p).isSome := by
    intro s hs p hp
    obtain ⟨parent, hrow, -⟩ := h.find_parent hs hp
    simp [hrow]
  rw [← unnotifiedPass_eq_completed hparents]
  unfold deriveExecutionOutcome
  simp only [hnotfailed, quiescentSlice_eq, Bool.false_eq_true, if_false]
  split
  · -- an active session cancels, and it is one that the first condition excludes
    rename_i hactive
    obtain ⟨s, hs, hs'⟩ := List.any_eq_true.mp hactive
    constructor
    · intro h'
      cases h'
    · intro h'
      exact absurd hs' (by simp [h'.1 s hs])
  · rename_i hidle
    have hidle : ∀ s ∈ db.sessionsOf executionId, isActive s (db.pendingTurns s.id) = false := by
      simpa using hidle
    split
    · rename_i hrestless
      obtain ⟨s, hs, hs'⟩ := List.any_eq_true.mp hrestless
      simp only [Bool.and_eq_true, Option.isNone_iff_eq_none, Bool.not_eq_true'] at hs'
      constructor
      · intro h'
        cases h'
      · intro h'
        have hquiet := h'.2.1 s hs
        simp [hs'.1, hs'.2] at hquiet
    · rename_i hquiet
      have hquiet : ∀ s ∈ db.sessionsOf executionId,
          s.outcome.isSome = true ∨ isQuiescent s (db.pendingTurns s.id) = true := by
        have hlive : ∀ s ∈ db.sessionsOf executionId, s.outcome = none →
            isQuiescent s (db.pendingTurns s.id) = true := by simpa using hquiet
        intro s hs
        cases ho : s.outcome with
        | none => exact .inr (hlive s hs ho)
        | some o => exact .inl rfl
      exact ⟨fun h' => ⟨hidle, hquiet, h'⟩, fun h' => h'.2.2⟩

/-- **When the views offer completion**, whatever list the rows and their counts come in. -/
theorem eligible_iff (h : SessionTree db executionId root) (hroot : root.outcome = none)
    {execution : Execution} (hrun : execution.desired = .run) (hopen : execution.outcome = none) :
    (derivedFields execution ((db.sessionsOf executionId).map fun s =>
        (s, db.pendingTurns s.id))).completionEligible = true ↔
      (∀ s ∈ db.sessionsOf executionId, isActive s (db.pendingTurns s.id) = false) ∧
      (∀ s ∈ db.sessionsOf executionId,
        s.outcome.isSome = true ∨ isQuiescent s (db.pendingTurns s.id) = true) ∧
      ∀ s ∈ db.sessionsOf executionId, ¬Untold db s := by
  have hrows : ((db.sessionsOf executionId).map fun s => (s, db.pendingTurns s.id)).map Prod.fst =
      db.sessionsOf executionId := by
    rw [List.map_map]
    exact List.map_id _
  have huntold : (!(db.sessionsOf executionId).any
      (unnotifiedFailure (db.sessionsOf executionId))) = true ↔
        ∀ s ∈ db.sessionsOf executionId, ¬Untold db s := by
    simp only [Bool.not_eq_true', List.any_eq_false]
    exact forall₂_congr fun s hs => not_congr (h.unnotifiedFailure_iff hs)
  have hactive : ((db.sessionsOf executionId).map fun s => (s, db.pendingTurns s.id)).any
      (fun row => isActive row.1 row.2) = true ↔
        ¬∀ s ∈ db.sessionsOf executionId, isActive s (db.pendingTurns s.id) = false := by
    simp [List.any_map]
  unfold derivedFields
  simp only [hopen, hrun, hrows, h.find_root, Option.any_some, hroot, Option.isNone_none,
    Bool.true_and, reduceCtorEq, if_false]
  by_cases hidle : ∀ s ∈ db.sessionsOf executionId, isActive s (db.pendingTurns s.id) = false
  · rw [if_neg (fun hc => (hactive.mp hc) hidle)]
    have hall : ((db.sessionsOf executionId).map fun s => (s, db.pendingTurns s.id)).all
        (fun row => row.1.outcome.isSome || isQuiescent row.1 row.2) = true ↔
          ∀ s ∈ db.sessionsOf executionId,
            s.outcome.isSome = true ∨ isQuiescent s (db.pendingTurns s.id) = true := by
      simp [List.all_map]
    rw [Bool.and_eq_true, huntold, hall]
    exact ⟨fun h' => ⟨hidle, h'⟩, And.right⟩
  · rw [if_pos (hactive.mpr hidle)]
    simp [hidle]

end SessionTree

/-! ## The views and the decision -/

/-- **An execution is offered for completion exactly when terminating its root completes it.** On the
rows of the tree of an open execution with a live root, the detail view and the list view (with the
counts of the queue) report it as eligible if and only if `derive_execution_outcome`, which
`set_desired` calls before it updates the root, decides `completed`. -/
theorem completion_eligible_iff {execution : Execution}
    (htree : SessionTree db execution.id root) (hroot : root.outcome = none)
    (hrun : execution.desired = .run) (hopen : execution.outcome = none)
    (pendingCounts : List (SessionId × Nat))
    (hcounts : ∀ s ∈ db.sessionsOf execution.id,
      pendingFor pendingCounts s.id = db.pendingTurns s.id) :
    ((deriveFromSnapshot execution
        (db.listByExecutionWithPending execution.id)).completionEligible = true ↔
      deriveExecutionOutcome db execution.id = some .completed) ∧
    ((derive execution (db.sessionsOf execution.id) pendingCounts).completionEligible = true ↔
      deriveExecutionOutcome db execution.id = some .completed) := by
  have hcompleted := htree.outcome_completed_iff hroot
  have heligible := htree.eligible_iff hroot hrun hopen
  have hlist : (db.sessionsOf execution.id).map (fun s => (s, pendingFor pendingCounts s.id)) =
      (db.sessionsOf execution.id).map fun s => (s, db.pendingTurns s.id) :=
    List.map_congr_left fun s hs => by rw [hcounts s hs]
  constructor
  · rw [deriveFromSnapshot, htree.snapshot, heligible, hcompleted]
  · rw [derive, hlist, heligible, hcompleted]

def openExecution : Execution where
  id := "x"
  projectId := none
  title := none
  desired := .run
  outcome := none
  maxDepth := 2
  maxWidth := 5
  sandboxPolicy := ""
  createdAt := 1
  lastActivityAt := 1

/-- An idle root with two children: one has failed, and the root has been told of it or not, and one is idle. -/
def familyRoot : Session :=
  { newSession "r" "x" "a" none none none none "lead" none "" 1 with executorState := .idle }

def failedChild (parentNotified : Bool) : Session :=
  { newSession "m" "x" "a" (some "r") none none none "mate" none "" 2 with
    executorState := .crashed, outcome := some .failed, parentNotified := parentNotified }

def liveChild (commandToken : Option String) : Session :=
  { newSession "n" "x" "a" (some "r") none none none "aide" none "" 3 with
    executorState := .idle, commandToken := commandToken, commandType := commandToken.map fun _ => .stopTurn,
    commandAt := commandToken.map fun _ => 4, workerId := some "w" }

def turnRow (id : Nat) : TaskRow where
  id := id
  executionId := "x"
  sessionId := "n"
  taskPayload := .null
  queuedAt := 4
  source := none

def familyTree (parentNotified : Bool) (commandToken : Option String) : Db :=
  { Db.empty with
    sessions := ⟨[familyRoot, failedChild parentNotified, liveChild commandToken], by
      show ["r", "m", "n"].Nodup
      decide⟩ }

/-- The same with a queue row. -/
def busyTree : Db :=
  { familyTree false (some "stop") with taskQueue := AutoTable.empty.push turnRow fun _ => rfl }

theorem familyTree_tree {db : Db} {parentNotified : Bool} {commandToken : Option String}
    (hsessions : db.sessions = (familyTree parentNotified commandToken).sessions)
    (hqueued : ∀ t ∈ db.taskQueue.rows, t.executionId = "x") : SessionTree db openExecution.id familyRoot := by
  have hrows : db.sessionsOf "x" = [familyRoot, failedChild parentNotified, liveChild commandToken] := by
    unfold Db.sessionsOf
    rw [hsessions]
    rfl
  have hmem : ∀ s ∈ db.sessionsOf "x",
      s = familyRoot ∨ s = failedChild parentNotified ∨ s = liveChild commandToken := by
    intro s hs
    rw [hrows] at hs
    simpa using hs
  have hroot : familyRoot ∈ db.sessionsOf "x" := by
    rw [hrows]
    exact List.mem_cons_self
  refine ⟨hroot, rfl, fun s hs hnone => ?_, fun s hs p hp => ?_, fun t ht s _ _ => hqueued t ht⟩
  · rcases hmem s hs with rfl | rfl | rfl
    · rfl
    · cases hnone
    · cases hnone
  · rcases hmem s hs with rfl | rfl | rfl
    · cases hp
    · cases hp
      exact ⟨familyRoot, hroot, rfl⟩
    · cases hp
      exact ⟨familyRoot, hroot, rfl⟩

/-- With a queue row, a command and a failure that the root has not been told of, completion is not offered; without
them it is. -/
theorem completion_eligible_iff_family :
    ((deriveFromSnapshot openExecution (busyTree.listByExecutionWithPending "x")).completionEligible = true ↔
      deriveExecutionOutcome busyTree "x" = some .completed) ∧
    ((derive openExecution (busyTree.sessionsOf "x") [("n", 1)]).completionEligible = true ↔
      deriveExecutionOutcome busyTree "x" = some .completed) ∧
    (derive openExecution (busyTree.sessionsOf "x") [("n", 1)]).completionEligible = false ∧
    ((derive openExecution ((familyTree false none).sessionsOf "x") []).completionEligible = true ↔
      deriveExecutionOutcome (familyTree false none) "x" = some .completed) ∧
    (derive openExecution ((familyTree false none).sessionsOf "x") []).completionEligible = false ∧
    ((derive openExecution ((familyTree true none).sessionsOf "x") []).completionEligible = true ↔
      deriveExecutionOutcome (familyTree true none) "x" = some .completed) ∧
    (derive openExecution ((familyTree true none).sessionsOf "x") []).completionEligible = true := by
  have hbusy : SessionTree busyTree openExecution.id familyRoot := familyTree_tree rfl (by decide)
  have huntold : SessionTree (familyTree false none) openExecution.id familyRoot := familyTree_tree rfl (by decide)
  have htold : SessionTree (familyTree true none) openExecution.id familyRoot := familyTree_tree rfl (by decide)
  obtain ⟨hdetail, hlist⟩ := completion_eligible_iff hbusy rfl rfl rfl [("n", 1)] (by decide)
  exact ⟨hdetail, hlist, by decide, (completion_eligible_iff huntold rfl rfl rfl [] (by decide)).2, by decide,
    (completion_eligible_iff htold rfl rfl rfl [] (by decide)).2, by decide⟩

end AgentBeacon
