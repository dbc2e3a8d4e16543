import AgentBeacon.Db.Migrations

/-!
# `Correctness.Migrations` — no migration is replayed

A step is one transaction: whatever fails, it leaves the database as it was or does all that it does without a
failure, which includes recording its version. A run that has read what is recorded goes through the missing
steps in order and stops at the first one that fails, so what it leaves is what some first missing steps do.
-/

namespace AgentBeacon
namespace Migrations

variable {σ : Type} {target : Target σ} {db db' : MigratedDb σ}

/-! ## One step -/

/-- The statements of a step. -/
def bodyOf (target : Target σ) : MigrationStep σ → List (Statement σ)
  | .sql statements => statements
  | .code0024 => codeStatements target.backfill0024 24
  | .code0026 => codeStatements target.backfillSlugs 26

/-- Whether foreign keys are enforced while a step runs. -/
def enforcedFor (target : Target σ) (step : MigrationStep σ × Int) : Bool :=
  !(step.1.isSql && needsFkDisable target.isPostgres step.2)

/-- What a step does to the database when nothing fails but its own statements. -/
def effect (target : Target σ) (db : MigratedDb σ) (step : MigrationStep σ × Int) : Option (MigratedDb σ) :=
  execStatements (enforcedFor target step) none 0 (bodyOf target step.1) db

theorem execStatements_whole {enforced : Bool} {failing : Option Nat} {statements : List (Statement σ)}
    (i j : Nat) (h : execStatements enforced failing i statements db = some db') :
    execStatements enforced none j statements db = some db' := by
  induction statements generalizing i j db with
  | nil => exact h
  | cons statement rest ih =>
      simp only [execStatements] at h
      split at h
      · cases h
      · obtain ⟨next, hnext, hrest⟩ := Option.bind_eq_some_iff.mp h
        simp only [execStatements, reduceCtorEq, if_false, hnext, Option.bind_some]
        exact ih (i + 1) (j + 1) hrest

/-- One transaction does all its statements or nothing. -/
theorem executeMigrationVersion_cases (faults : StepFaults) (enforced : Bool) (statements : List (Statement σ))
    (db : MigratedDb σ) :
    (∃ db', execStatements enforced none 0 statements db = some db' ∧
      ∃ ok, executeMigrationVersion faults enforced statements db = (ok, db')) ∨
    executeMigrationVersion faults enforced statements db = (false, db) := by
  unfold executeMigrationVersion
  split
  · exact .inr rfl
  · cases hexec : execStatements enforced faults.statement 0 statements db with
    | none => exact .inr rfl
    | some written =>
        have hwhole := execStatements_whole 0 0 hexec
        cases faults.commit with
        | none => exact .inl ⟨written, hwhole, true, rfl⟩
        | some fault =>
            cases fault with
            | refused => exact .inr rfl
            | lost => exact .inl ⟨written, hwhole, false, rfl⟩

/-- A step has its whole effect, or it fails and the database stays as it was. -/
theorem applyStep_cases (target : Target σ) (faults : StepFaults) (step : MigrationStep σ × Int)
    (db : MigratedDb σ) :
    (∃ db', effect target db step = some db' ∧ ∃ ok, applyStep target faults step db = (ok, db')) ∨
      applyStep target faults step db = (false, db) := by
  obtain ⟨body, version⟩ := step
  cases body with
  | sql statements =>
      simp only [applyStep, applySqlMigration, effect, bodyOf, enforcedFor, MigrationStep.isSql, Bool.true_and]
      split
      · exact .inr rfl
      · obtain ⟨db', heffect, ok, hrun⟩ | hrun := executeMigrationVersion_cases faults
          (!needsFkDisable target.isPostgres version) statements db
        · refine .inl ⟨db', heffect, ?_⟩
          rw [hrun]
          split
          · exact ⟨false, rfl⟩
          · exact ⟨ok, rfl⟩
        · refine .inr ?_
          rw [hrun]
          simp
  | code0024 => exact executeMigrationVersion_cases faults true _ db
  | code0026 => exact executeMigrationVersion_cases faults true _ db

theorem executeMigrationVersion_none {enforced : Bool} {statements : List (Statement σ)}
    (h : execStatements enforced none 0 statements db = some db') :
    executeMigrationVersion .none enforced statements db = (true, db') := by
  simp [executeMigrationVersion, StepFaults.none, h]

theorem applyStep_none {step : MigrationStep σ × Int} (h : effect target db step = some db') :
    applyStep target .none step db = (true, db') := by
  obtain ⟨body, version⟩ := step
  cases body with
  | sql statements =>
      simp only [effect, bodyOf, enforcedFor, MigrationStep.isSql, Bool.true_and] at h
      have hrun := executeMigrationVersion_none h
      simp only [applyStep, applySqlMigration, hrun]
      simp [StepFaults.none]
  | code0024 => exact executeMigrationVersion_none h
  | code0026 => exact executeMigrationVersion_none h

/-! ## The version row of a step -/

theorem exec_recorded {enforced : Bool} {statement : Statement σ}
    (h : statement.exec enforced db = some db') (v : Int) :
    v ∈ db'.recorded ↔ v ∈ db.recorded ∨ statement.version? = some v := by
  cases statement with
  | change work =>
      obtain ⟨content, -, rfl⟩ := Option.map_eq_some_iff.mp h
      simp [Statement.version?]
  | recordOnce version =>
      simp only [Statement.exec] at h
      split at h
      · next hmem =>
          cases h
          simp only [Statement.version?, Option.some.injEq]
          exact ⟨.inl, fun hv => hv.elim id fun heq => heq ▸ hmem⟩
      · cases h
        simp [Statement.version?, or_comm, eq_comm]
  | record version =>
      simp only [Statement.exec] at h
      split at h
      · cases h
      · cases h
        simp [Statement.version?, or_comm, eq_comm]

theorem execStatements_recorded {enforced : Bool} {failing : Option Nat} {statements : List (Statement σ)}
    {i : Nat} (h : execStatements enforced failing i statements db = some db') (v : Int) :
    v ∈ db'.recorded ↔ v ∈ db.recorded ∨ ∃ s ∈ statements, s.version? = some v := by
  induction statements generalizing i db with
  | nil =>
      cases h
      simp
  | cons statement rest ih =>
      simp only [execStatements] at h
      split at h
      · cases h
      · obtain ⟨next, hnext, hrest⟩ := Option.bind_eq_some_iff.mp h
        rw [ih hrest, exec_recorded hnext]
        simp [or_assoc]

theorem bodyOf_version {step : MigrationStep σ × Int} (h : RecordsItself step) (v : Int) :
    (∃ s ∈ bodyOf target step.1, s.version? = some v) ↔ v = step.2 := by
  obtain ⟨body, version⟩ := step
  cases body with
  | sql statements =>
      obtain ⟨hmem, hothers⟩ := h
      constructor
      · rintro ⟨s, hs, hversion⟩
        obtain hnone | rfl := hothers s hs
        · rw [hnone] at hversion
          cases hversion
        · simpa [Statement.version?, eq_comm] using hversion
      · rintro rfl
        exact ⟨_, hmem, rfl⟩
  | code0024 =>
      cases h
      simp [bodyOf, codeStatements, Statement.version?, eq_comm]
  | code0026 =>
      cases h
      simp [bodyOf, codeStatements, Statement.version?, eq_comm]

/-- With its effect a step records its version, and no other. -/
theorem effect_recorded {step : MigrationStep σ × Int} (hstep : RecordsItself step)
    (h : effect target db step = some db') (v : Int) : v ∈ db'.recorded ↔ v ∈ db.recorded ∨ v = step.2 := by
  rw [execStatements_recorded h, bodyOf_version hstep]

/-- The effects of steps, one after the other. -/
def effects (target : Target σ) (steps : List (MigrationStep σ × Int)) (db : MigratedDb σ) :
    Option (MigratedDb σ) :=
  steps.foldlM (effect target) db

theorem effects_cons (step : MigrationStep σ × Int) (rest : List (MigrationStep σ × Int)) (db : MigratedDb σ) :
    effects target (step :: rest) db = (effect target db step).bind (effects target rest) := rfl

theorem effects_append (front back : List (MigrationStep σ × Int)) (db : MigratedDb σ) :
    effects target (front ++ back) db = (effects target front db).bind (effects target back) := by
  unfold effects
  rw [List.foldlM_append]
  rfl

theorem effects_recorded {steps : List (MigrationStep σ × Int)} (hsteps : ∀ s ∈ steps, RecordsItself s)
    (h : effects target steps db = some db') (v : Int) :
    v ∈ db'.recorded ↔ v ∈ db.recorded ∨ v ∈ steps.map Prod.snd := by
  induction steps generalizing db with
  | nil =>
      cases h
      simp
  | cons step rest ih =>
      rw [effects_cons] at h
      obtain ⟨next, hnext, hrest⟩ := Option.bind_eq_some_iff.mp h
      rw [ih (fun s hs => hsteps s (List.mem_cons_of_mem _ hs)) hrest,
        effect_recorded (hsteps step List.mem_cons_self) hnext]
      simp [or_assoc]

/-! ## The loop over the steps -/

/-- The steps whose versions are not among those applied. -/
def missing (applied : List Int) (steps : List (MigrationStep σ × Int)) : List (MigrationStep σ × Int) :=
  steps.filter fun s => s.2 ∉ applied

/-- How far a loop got: its result is that of the first `front` of the steps to do. -/
structure Reached (target : Target σ) (todo : List (MigrationStep σ × Int)) (db : MigratedDb σ)
    (result : RunResult σ) (front : List (MigrationStep σ × Int)) : Prop where
  first : front <+: todo
  leaves : effects target front db = some result.db
  begins : front.map Prod.snd <+: result.executed
  within : result.executed <+: todo.map Prod.snd
  completes : result.ok = true → front = todo
  starts : todo ≠ [] → result.executed ≠ []

theorem Reached.cons {step : MigrationStep σ × Int} {todo front : List (MigrationStep σ × Int)}
    {result : RunResult σ} (hstep : effect target db step = some db') (h : Reached target todo db' result front) :
    Reached target (step :: todo) db { result with executed := step.2 :: result.executed } (step :: front) where
  first := List.cons_prefix_cons.mpr ⟨rfl, h.first⟩
  leaves := by
    rw [effects_cons, hstep]
    exact h.leaves
  begins := by
    rw [List.map_cons]
    exact List.cons_prefix_cons.mpr ⟨rfl, h.begins⟩
  within := by
    rw [List.map_cons]
    exact List.cons_prefix_cons.mpr ⟨rfl, h.within⟩
  completes := by
    intro hok
    rw [h.completes hok]
  starts := by simp

theorem missing_cons (applied : List Int) (step : MigrationStep σ × Int) (rest : List (MigrationStep σ × Int)) :
    missing applied (step :: rest) =
      if step.2 ∈ applied then missing applied rest else step :: missing applied rest := by
  unfold missing
  by_cases h : step.2 ∈ applied <;> simp [h]

theorem runSteps_reached (target : Target σ) (faults : Int → StepFaults) (applied : List Int)
    (steps : List (MigrationStep σ × Int)) (db : MigratedDb σ) :
    ∃ front, Reached target (missing applied steps) db (runSteps target faults applied steps db) front := by
  induction steps generalizing db with
  | nil => exact ⟨[], List.nil_prefix, rfl, List.nil_prefix, List.nil_prefix, fun _ => rfl, fun h => absurd rfl h⟩
  | cons step rest ih =>
      rw [missing_cons]
      simp only [runSteps]
      split
      · exact ih db
      · obtain ⟨db', heffect, ok, happly⟩ | happly := applyStep_cases target (faults step.2) step db
        · rw [happly]
          cases ok with
          | true =>
              obtain ⟨front, hfront⟩ := ih db'
              exact ⟨step :: front, hfront.cons heffect⟩
          | false =>
              -- the answer of the commit, or the switch of the foreign keys, failed behind a written step
              refine ⟨[step], ?_⟩
              constructor
              · simp
              · rw [effects_cons, heffect]
                rfl
              · simp
              · simp
              · simp
              · simp
        · rw [happly]
          refine ⟨[], ?_⟩
          constructor
          · exact List.nil_prefix
          · rfl
          · exact List.nil_prefix
          · simp
          · simp
          · simp

/-- Without failures the loop does what all the missing steps do. -/
theorem runSteps_none {applied : List Int} {steps : List (MigrationStep σ × Int)}
    (h : effects target (missing applied steps) db = some db') :
    runSteps target (fun _ => .none) applied steps db = ⟨true, db', (missing applied steps).map Prod.snd⟩ := by
  induction steps generalizing db with
  | nil =>
      cases h
      rfl
  | cons step rest ih =>
      rw [missing_cons] at h ⊢
      simp only [runSteps]
      split
      · next hmem =>
          rw [if_pos hmem] at h
          exact ih h
      · next hmem =>
          rw [if_neg hmem, effects_cons] at h
          obtain ⟨next, hnext, hrest⟩ := Option.bind_eq_some_iff.mp h
          rw [applyStep_none hnext]
          simp [ih hrest]

/-! ## A run -/

/-- The read of `schema_migrations` succeeds, or there is nothing to read. -/
def Reads (faults : Faults) (db : MigratedDb σ) : Prop :=
  faults.read = false ∨ db.recorded = []

theorem appliedVersions_of_reads {faults : Faults} (h : Reads faults db) :
    appliedVersions faults db = db.recorded := by
  unfold appliedVersions
  obtain hread | hempty := h
  · simp [hread]
  · simp [hempty]

/-- No schema step is missing below the recorded ones. -/
def Contiguous (steps : List (MigrationStep σ × Int)) (recorded : List Int) : Prop :=
  ∀ s ∈ steps, s.1.isSql = true → s.2 ∉ recorded → highestApplied recorded < s.2

theorem findGap_none_iff {applied : List Int} {steps : List (MigrationStep σ × Int)} :
    findGap applied steps = none ↔ Contiguous steps applied := by
  unfold findGap
  rw [Option.map_eq_none_iff, List.find?_eq_none]
  apply forall₂_congr
  intro s hs
  by_cases hmem : s.2 ∈ applied <;> by_cases hlt : highestApplied applied < s.2 <;> simp [hmem, hlt]

theorem le_highestApplied {applied : List Int} {v : Int} (h : v ∈ applied) : v ≤ highestApplied applied := by
  unfold highestApplied
  cases hmax : applied.max? with
  | none =>
      rw [List.max?_eq_none_iff.mp hmax] at h
      cases h
  | some highest => exact (List.max?_eq_some_iff.mp hmax).2 v h

theorem run_contiguous {faults : Faults} {steps : List (MigrationStep σ × Int)} (hread : Reads faults db)
    (h : Contiguous steps db.recorded) :
    run target faults steps db = runSteps target faults.step db.recorded steps db := by
  unfold run runMigrationSteps
  rw [appliedVersions_of_reads hread, findGap_none_iff.mpr h]

theorem run_gap {faults : Faults} {steps : List (MigrationStep σ × Int)} (hread : Reads faults db)
    (h : ¬Contiguous steps db.recorded) : run target faults steps db = ⟨false, db, []⟩ := by
  unfold run runMigrationSteps
  rw [appliedVersions_of_reads hread]
  cases hgap : findGap db.recorded steps with
  | none => exact absurd (findGap_none_iff.mp hgap) h
  | some version => rfl

theorem reads_none (db : MigratedDb σ) : Reads .none db := .inl rfl

theorem missing_versions (steps : Steps σ) (applied : List Int) :
    ((missing applied steps.list).map Prod.snd).Pairwise (· < ·) := by
  rw [List.pairwise_map]
  exact steps.increasing.sublist List.filter_sublist

/-- What a run that has read the recorded versions does. -/
structure Orderly (target : Target σ) (steps : Steps σ) (db : MigratedDb σ) (result : RunResult σ) : Prop where
  increasing : result.executed.Pairwise (· < ·)
  unrecorded : ∀ v ∈ result.executed, v ∉ db.recorded ∧ v ∈ steps.list.map Prod.snd
  /-- It leaves what its first steps do in full, each with its version row. -/
  whole : ∃ front, front <+: missing db.recorded steps.list ∧ effects target front db = some result.db ∧
    front.map Prod.snd <+: result.executed ∧
    ∀ v, v ∈ result.db.recorded ↔ v ∈ db.recorded ∨ v ∈ front.map Prod.snd
  /-- A missing schema step below a recorded version is refused before anything is executed. -/
  refused : ∀ s ∈ steps.list, s.1.isSql = true → s.2 ∉ db.recorded → (∃ v ∈ db.recorded, s.2 < v) →
    result = ⟨false, db, []⟩
  /-- Nothing else is refused: the first missing step is begun, a code step below the highest one included. -/
  begun : Contiguous steps.list db.recorded →
    result.executed.head? = ((missing db.recorded steps.list).map Prod.snd).head?
  complete : result.ok = true → result.executed = (missing db.recorded steps.list).map Prod.snd

theorem prefix_head {a b : List Int} (h : a <+: b) (ha : b ≠ [] → a ≠ []) : a.head? = b.head? := by
  obtain ⟨rest, rfl⟩ := h
  cases a with
  | nil =>
      cases rest with
      | nil => rfl
      | cons v rest => exact absurd rfl (ha (by simp))
  | cons v a => rfl

theorem Reached.orderly {steps : Steps σ} {result : RunResult σ} {front : List (MigrationStep σ × Int)}
    (h : Reached target (missing db.recorded steps.list) db result front)
    (hcontiguous : Contiguous steps.list db.recorded) : Orderly target steps db result where
  increasing := (missing_versions steps db.recorded).sublist h.within.sublist
  unrecorded := by
    intro v hv
    obtain ⟨s, hs, rfl⟩ := List.mem_map.mp (h.within.subset hv)
    obtain ⟨hmem, hmissing⟩ := List.mem_filter.mp hs
    exact ⟨by simpa using hmissing, List.mem_map_of_mem hmem⟩
  whole := by
    refine ⟨front, h.first, h.leaves, h.begins, effects_recorded ?_ h.leaves⟩
    intro s hs
    exact steps.recording s (List.mem_filter.mp (h.first.subset hs)).1
  refused := by
    rintro s hs hsql hmissing ⟨v, hv, hlt⟩
    have hbelow := hcontiguous s hs hsql hmissing
    have habove := le_highestApplied hv
    omega
  begun := by
    intro _
    refine prefix_head h.within fun hne => h.starts ?_
    rintro hnil
    exact hne (by rw [hnil]; rfl)
  complete := by
    intro hok
    have hfront := h.completes hok
    refine h.within.eq_of_length_le ?_
    have hlength := h.begins.length_le
    rwa [hfront] at hlength

theorem run_orderly (steps : Steps σ) {faults : Faults} (hread : Reads faults db) :
    Orderly target steps db (run target faults steps.list db) := by
  by_cases hcontiguous : Contiguous steps.list db.recorded
  · rw [run_contiguous hread hcontiguous]
    obtain ⟨front, hfront⟩ := runSteps_reached target faults.step db.recorded steps.list db
    exact hfront.orderly hcontiguous
  · rw [run_gap hread hcontiguous]
    constructor
    · exact List.Pairwise.nil
    · simp
    · exact ⟨[], List.nil_prefix, rfl, List.nil_prefix, by simp⟩
    · intros
      rfl
    · intro h
      exact absurd h hcontiguous
    · simp

/-! ## Runs that follow each other -/

/-- What is still missing behind the first steps. -/
theorem missing_behind {steps : Steps σ} {recorded recorded' : List Int}
    {front back : List (MigrationStep σ × Int)} (h : missing recorded steps.list = front ++ back)
    (hrecorded : ∀ v, v ∈ recorded' ↔ v ∈ recorded ∨ v ∈ front.map Prod.snd) :
    missing recorded' steps.list = back := by
  have hfilter : missing recorded' steps.list =
      (missing recorded steps.list).filter fun s => s.2 ∉ front.map Prod.snd := by
    unfold missing
    rw [List.filter_filter]
    apply List.filter_congr
    intro s hs
    rw [Bool.eq_iff_iff, Bool.and_eq_true, decide_eq_true_iff, decide_eq_true_iff, decide_eq_true_iff, hrecorded,
      not_or, and_comm]
  have hincreasing := missing_versions steps recorded
  rw [h, List.map_append, List.pairwise_append] at hincreasing
  rw [hfilter, h, List.filter_append, List.filter_eq_nil_iff.mpr, List.filter_eq_self.mpr, List.nil_append]
  · intro s hs
    rw [decide_eq_true_iff]
    intro hmem
    exact absurd (hincreasing.2.2 s.2 hmem s.2 (List.mem_map_of_mem hs)) (lt_irrefl _)
  · intro s hs
    rw [decide_eq_true_iff]
    exact not_not_intro (List.mem_map_of_mem hs)

/-- A run without failures does what all the missing steps do. -/
theorem run_none {steps : Steps σ} (hcontiguous : Contiguous steps.list db.recorded)
    (h : effects target (missing db.recorded steps.list) db = some db') :
    run target .none steps.list db = ⟨true, db', (missing db.recorded steps.list).map Prod.snd⟩ := by
  rw [run_contiguous (reads_none db) hcontiguous]
  exact runSteps_none h

/-- A run that succeeds does all the missing steps, and there was no gap. -/
theorem run_ok {steps : Steps σ} {faults : Faults} (hread : Reads faults db)
    (hok : (run target faults steps.list db).ok = true) :
    Contiguous steps.list db.recorded ∧
      effects target (missing db.recorded steps.list) db = some (run target faults steps.list db).db := by
  by_cases hcontiguous : Contiguous steps.list db.recorded
  · refine ⟨hcontiguous, ?_⟩
    rw [run_contiguous hread hcontiguous] at hok ⊢
    obtain ⟨front, hfront⟩ := runSteps_reached target faults.step db.recorded steps.list db
    have hleaves := hfront.leaves
    rwa [hfront.completes hok] at hleaves
  · rw [run_gap hread hcontiguous] at hok
    cases hok

/-- A run without failures that succeeds behind another run would have done as much without it. -/
theorem run_behind {steps : Steps σ} {faults : Faults} (hread : Reads faults db) {result : RunResult σ}
    (h : run target .none steps.list (run target faults steps.list db).db = result) (hok : result.ok = true) :
    run target .none steps.list db = ⟨true, result.db, (missing db.recorded steps.list).map Prod.snd⟩ := by
  subst h
  obtain ⟨hcontiguous', heffects'⟩ := run_ok (reads_none _) hok
  by_cases hcontiguous : Contiguous steps.list db.recorded
  · have horderly : Orderly target steps db (run target faults steps.list db) := run_orderly steps hread
    obtain ⟨front, ⟨back, hback⟩, hfront, -, hrecorded⟩ := horderly.whole
    apply run_none hcontiguous
    rw [missing_behind hback.symm hrecorded] at heffects'
    rw [← hback, effects_append, hfront]
    exact heffects'
  · rw [run_gap hread hcontiguous] at hcontiguous'
    exact absurd hcontiguous' hcontiguous

/-- The database behind some runs. -/
def runs (target : Target σ) (steps : List (MigrationStep σ × Int)) (db : MigratedDb σ) :
    List Faults → MigratedDb σ
  | [] => db
  | faults :: rest => runs target steps (run target faults steps db).db rest

/-- Every one of the runs reads what is recorded when it begins. -/
def ReadsAll (target : Target σ) (steps : List (MigrationStep σ × Int)) (db : MigratedDb σ) :
    List Faults → Prop
  | [] => True
  | faults :: rest => Reads faults db ∧ ReadsAll target steps (run target faults steps db).db rest

/-- Some runs and a run without failures that succeeds leave what that run alone leaves. -/
theorem run_behind_all {steps : Steps σ} {earlier : List Faults}
    (hreads : ReadsAll target steps.list db earlier)
    (hok : (run target .none steps.list (runs target steps.list db earlier)).ok = true) :
    run target .none steps.list db =
      ⟨true, (run target .none steps.list (runs target steps.list db earlier)).db,
        (missing db.recorded steps.list).map Prod.snd⟩ := by
  induction earlier generalizing db with
  | nil =>
      obtain ⟨hcontiguous, heffects⟩ := run_ok (reads_none db) hok
      exact run_none hcontiguous heffects
  | cons faults rest ih =>
      have hrest := ih hreads.2 hok
      have hbehind := run_behind hreads.1 hrest rfl
      exact hbehind

/-- Runs that read what is recorded never replay a migration; when one of them succeeds, the database is as
one run without failures leaves it. -/
theorem migrations_never_replayed (target : Target σ) (steps : Steps σ) (db : MigratedDb σ) (earlier : List Faults)
    (hearlier : ReadsAll target steps.list db earlier) (faults : Faults)
    (hread : Reads faults (runs target steps.list db earlier)) :
    Orderly target steps (runs target steps.list db earlier)
        (run target faults steps.list (runs target steps.list db earlier)) ∧
      ((run target faults steps.list (runs target steps.list db earlier)).ok = true →
        run target .none steps.list db =
          ⟨true, (run target faults steps.list (runs target steps.list db earlier)).db,
            (missing db.recorded steps.list).map Prod.snd⟩) := by
  refine ⟨run_orderly steps hread, ?_⟩
  intro hok
  obtain ⟨hcontiguous, heffects⟩ := run_ok hread hok
  have hnone := run_none hcontiguous heffects
  have hbehind := run_behind_all hearlier (by rw [hnone])
  rwa [hnone] at hbehind

/-- A schema step that counts, and the backfill of version 24. -/
def twoSteps : Steps Nat where
  list := [(.sql [.change fun _ n => some (n + 1), .recordOnce 1], 1), (.code0024, 24)]
  increasing := by simp
  recording := by simp [RecordsItself, Statement.version?]

def counting : Target Nat := ⟨false, fun n => some (10 * n), some⟩

/-- The run loses the answer of the commit of version 1, or nothing. -/
def losing (lost : Bool) : Faults :=
  ⟨false, fun v => if lost ∧ v = 1 then { StepFaults.none with commit := some .lost } else .none⟩

theorem migrations_never_replayed_lost :
    Orderly counting twoSteps ⟨1, [1]⟩ (run counting (losing false) twoSteps.list ⟨1, [1]⟩) ∧
      run counting .none twoSteps.list ⟨0, []⟩ = ⟨true, ⟨10, [24, 1]⟩, [1, 24]⟩ := by
  have hearlier : ReadsAll counting twoSteps.list (⟨0, []⟩ : MigratedDb Nat) [losing true] := ⟨.inl rfl, trivial⟩
  have hrun := migrations_never_replayed counting twoSteps ⟨0, []⟩ [losing true] hearlier (losing false) (.inl rfl)
  exact ⟨hrun.1, hrun.2 rfl⟩

/-- When the read fails, the run takes a recorded migration for a missing one and executes it again. -/
theorem recorded_replayed :
    run counting ⟨true, fun _ => .none⟩ twoSteps.list ⟨1, [1]⟩ = ⟨true, ⟨20, [24, 1]⟩, [1, 24]⟩ ∧
      ¬Orderly counting twoSteps ⟨1, [1]⟩ (run counting ⟨true, fun _ => .none⟩ twoSteps.list ⟨1, [1]⟩) := by
  refine ⟨rfl, ?_⟩
  intro h
  have hunrecorded := (h.unrecorded 1 (by decide +kernel)).1
  simp at hunrecorded

end Migrations
end AgentBeacon
