import Mathlib.Data.List.Pairwise
import Mathlib.Data.Int.Notation
import Mathlib.Order.Lattice

/-!
# `Db.Migrations` — the migrations of the database

`run` of `db/migrations.rs` reads which versions are recorded, refuses a history with a gap, and applies the
steps that are missing. A migration is the list of its statements, split and adapted to the database already;
one of them records its version. A run is given the points at which it fails.
-/

namespace AgentBeacon
namespace Migrations

variable {σ : Type}

/-- The database: its schema and rows, and the rows of `schema_migrations`. -/
structure MigratedDb (σ : Type) where
  content : σ
  recorded : List Int

/-- A statement of a migration. What it does may depend on whether foreign keys are enforced; it may fail. -/
inductive Statement (σ : Type) where
  | change (effect : Bool → σ → Option σ)
  /-- `INSERT OR IGNORE INTO schema_migrations`. -/
  | recordOnce (version : Int)
  /-- `INSERT INTO schema_migrations`. -/
  | record (version : Int)

namespace Statement

def exec (enforced : Bool) : Statement σ → MigratedDb σ → Option (MigratedDb σ)
  | change effect, db => (effect enforced db.content).map fun content => { db with content }
  | recordOnce version, db =>
      if version ∈ db.recorded then some db else some { db with recorded := version :: db.recorded }
  | record version, db =>
      if version ∈ db.recorded then none else some { db with recorded := version :: db.recorded }

/-- The version that a statement records. -/
def version? : Statement σ → Option Int
  | change _ => none
  | recordOnce version => some version
  | record version => some version

end Statement

/-- `MigrationStep`. -/
inductive MigrationStep (σ : Type) where
  | sql (statements : List (Statement σ))
  | code0024
  | code0026

def MigrationStep.isSql : MigrationStep σ → Bool
  | sql _ => true
  | _ => false

/-- The database that is migrated, and the work of the code steps: `run_backfill_0024` and `backfill_slugs`. -/
structure Target (σ : Type) where
  isPostgres : Bool
  backfill0024 : σ → Option σ
  backfillSlugs : σ → Option σ

/-! ## Failures -/

/-- A commit that fails: the database rolls back, or the answer is lost. -/
inductive CommitFault where
  | refused | lost
  deriving DecidableEq

/-- Where the application of one step fails. -/
structure StepFaults where
  acquire : Bool
  disable : Bool
  begin : Bool
  statement : Option Nat
  commit : Option CommitFault
  enable : Bool

def StepFaults.none : StepFaults := ⟨false, false, false, Option.none, Option.none, false⟩

/-- Where a run fails: in reading `schema_migrations`, or in the step of a version. -/
structure Faults where
  read : Bool
  step : Int → StepFaults

def Faults.none : Faults := ⟨false, fun _ => .none⟩

/-! ## One step -/

/-- The statements of a transaction, from an index on; the one at `failing` fails. -/
def execStatements (enforced : Bool) (failing : Option Nat) : Nat → List (Statement σ) → MigratedDb σ →
    Option (MigratedDb σ)
  | _, [], db => some db
  | i, statement :: rest, db =>
      if failing = some i then none
      else (statement.exec enforced db).bind fun db => execStatements enforced failing (i + 1) rest db

/-- `execute_migration_version`: all the statements in one transaction. With it comes whether it succeeded. -/
def executeMigrationVersion (faults : StepFaults) (enforced : Bool) (statements : List (Statement σ))
    (db : MigratedDb σ) : Bool × MigratedDb σ :=
  if faults.begin then (false, db)
  else
    match execStatements enforced faults.statement 0 statements db with
    | none => (false, db)
    | some written =>
        match faults.commit with
        | none => (true, written)
        | some .refused => (false, db)
        | some .lost => (false, written)

/-- `needs_fk_disable`. -/
def needsFkDisable (isPostgres : Bool) (version : Int) : Bool :=
  !isPostgres && version ∈ [2, 5, 14, 17, 19, 22, 27]

/-- `apply_sql_migration`. -/
def applySqlMigration (isPostgres : Bool) (faults : StepFaults) (statements : List (Statement σ)) (version : Int)
    (db : MigratedDb σ) : Bool × MigratedDb σ :=
  let toggled := needsFkDisable isPostgres version
  if faults.acquire || (toggled && faults.disable) then (false, db)
  else
    let result := executeMigrationVersion faults (!toggled) statements db
    if toggled && faults.enable then (false, result.2) else result

/-- The statements of `run_code_step_0024` and `run_code_step_0026`. -/
def codeStatements (work : σ → Option σ) (version : Int) : List (Statement σ) :=
  [.change fun _ => work, .record version]

/-- `run_code_step_0024`. -/
def runCodeStep0024 (target : Target σ) (faults : StepFaults) (db : MigratedDb σ) : Bool × MigratedDb σ :=
  executeMigrationVersion faults true (codeStatements target.backfill0024 24) db

/-- `run_code_step_0026`. -/
def runCodeStep0026 (target : Target σ) (faults : StepFaults) (db : MigratedDb σ) : Bool × MigratedDb σ :=
  executeMigrationVersion faults true (codeStatements target.backfillSlugs 26) db

/-- The body of the second loop of `run_migration_steps`. -/
def applyStep (target : Target σ) (faults : StepFaults) (step : MigrationStep σ × Int) (db : MigratedDb σ) :
    Bool × MigratedDb σ :=
  match step.1 with
  | .sql statements => applySqlMigration target.isPostgres faults statements step.2 db
  | .code0024 => runCodeStep0024 target faults db
  | .code0026 => runCodeStep0026 target faults db

/-! ## A run -/

/-- What a run leaves: whether it succeeded, the database, and the versions that it began to execute. -/
structure RunResult (σ : Type) where
  ok : Bool
  db : MigratedDb σ
  executed : List Int

/-- `highest_applied`. -/
def highestApplied (applied : List Int) : Int :=
  applied.max?.getD 0

/-- The first loop of `run_migration_steps`: the first version that is missing and cannot be replayed. -/
def findGap (applied : List Int) (steps : List (MigrationStep σ × Int)) : Option Int :=
  (steps.find? fun s => !(s.2 ∈ applied || highestApplied applied < s.2) && s.1.isSql).map Prod.snd

/-- The second loop of `run_migration_steps`. -/
def runSteps (target : Target σ) (faults : Int → StepFaults) (applied : List Int) :
    List (MigrationStep σ × Int) → MigratedDb σ → RunResult σ
  | [], db => ⟨true, db, []⟩
  | step :: rest, db =>
      if step.2 ∈ applied then runSteps target faults applied rest db
      else if (applyStep target (faults step.2) step db).1 then
        let result := runSteps target faults applied rest (applyStep target (faults step.2) step db).2
        { result with executed := step.2 :: result.executed }
      else ⟨false, (applyStep target (faults step.2) step db).2, [step.2]⟩

/-- `run_migration_steps`. -/
def runMigrationSteps (target : Target σ) (faults : Int → StepFaults) (applied : List Int)
    (steps : List (MigrationStep σ × Int)) (db : MigratedDb σ) : RunResult σ :=
  match findGap applied steps with
  | some _ => ⟨false, db, []⟩
  | none => runSteps target faults applied steps db

/-- `applied_versions`, and nothing when the read fails. -/
def appliedVersions (faults : Faults) (db : MigratedDb σ) : List Int :=
  if faults.read then [] else db.recorded

/-- `run`. -/
def run (target : Target σ) (faults : Faults) (steps : List (MigrationStep σ × Int)) (db : MigratedDb σ) :
    RunResult σ :=
  runMigrationSteps target faults.step (appliedVersions faults db) steps db

/-! ## Lists of steps -/

/-- A step records its own version and no other. -/
def RecordsItself : MigrationStep σ × Int → Prop
  | (.sql statements, version) =>
      .recordOnce version ∈ statements ∧
        ∀ s ∈ statements, s.version? = none ∨ s = .recordOnce version
  | (.code0024, version) => version = 24
  | (.code0026, version) => version = 26

/-- The steps of a program: in increasing order of their versions, each with its version row. -/
structure Steps (σ : Type) where
  list : List (MigrationStep σ × Int)
  increasing : list.Pairwise fun a b => a.2 < b.2
  recording : ∀ s ∈ list, RecordsItself s

end Migrations
end AgentBeacon
