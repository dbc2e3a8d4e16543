import AgentBeacon.Db.Schema
import AgentBeacon.Lib.Careful
import AgentBeacon.Lib.Tx
import AgentBeacon.Network.Ceiling

/-!
# `Services.Ceiling` — recording an execution's network ceiling

`services/ceiling.rs`, the first transaction of `create_execution`, and the route that changes a ceiling. A
transaction of an execution holds its lock from the first statement on, so it is one step; each of its
statements may fail, and so may its commit. The tables have the columns that a ceiling is about;
`Correctness.CeilingTables` relates them to those of `Db.Schema`.
-/

namespace AgentBeacon
namespace Network
open Transaction Interleave Relational

/-! ## The tables -/

/-- The columns of `executions` that a change of the ceiling reads or writes. -/
structure CeilingRow where
  id : String
  desired : ExecutionDesired
  outcome : Option Outcome
  ceilingMode : String
  ceilingEntries : String
  ceilingBy : Option String
  ceilingAt : Option String
  deriving DecidableEq

/-- A row of `events`. -/
structure CeilingEvent where
  id : Int
  executionId : String
  eventType : String
  payload : Json
  deriving DecidableEq

structure CeilingDb where
  executions : List CeilingRow
  events : List CeilingEvent
  deriving DecidableEq

/-- The errors of the requests. -/
inductive ChangeError where
  | authForbidden (detail : String)
  | requestInvalid (detail : String)
  | executionTerminated (detail : String)
  | resourceConflict (detail : String)
  | ceiling (e : CeilingError)
  | notFound (message : String)
  | database (message : String)

/-- A statement of one of the transactions. -/
inductive Statement where
  | begin | lock | create | get | update | reread | insert
  deriving DecidableEq

/-- A commit that fails: the database rolls back, or the answer is lost. -/
inductive CommitFault where
  | refused | lost
  deriving DecidableEq

/-- What is decided outside for one call. -/
structure CeilingEnv where
  /-- `CURRENT_TIMESTAMP`. -/
  now : String
  /-- The next value of the sequence of `events`. -/
  eventId : Int
  agentBearer : Bool
  fails : Statement → Bool
  commit : Option CommitFault

abbrev CeilingTx (α : Type) := Tx CeilingDb ChangeError α

variable (outside : Outside) (env : CeilingEnv)

/-- A statement that may fail. -/
def statement (s : Statement) (what : String) : CeilingTx Unit :=
  Tx.require (env.fails s = false) (.database s!"{what} failed")

/-- The row of an execution. -/
def selectExecution (id : String) (missing : String) : CeilingTx CeilingRow := do
  let db ← Tx.read
  Tx.ofOption (db.executions.find? fun r => r.id = id) (.notFound s!"{missing} not found: {id}")

/-- `begin_execution_tx`. -/
def beginExecutionTx (id : String) : CeilingTx Unit := do
  statement env .begin "begin execution tx"
  statement env .lock "fetch execution lock"
  let _ ← selectExecution id "execution lock"

/-- `Ceiling::from_columns` in a transaction. -/
def readCeiling (exec : CeilingRow) : CeilingTx Ceiling :=
  match Ceiling.fromColumns outside exec.ceilingMode exec.ceilingEntries with
  | .ok ceiling => pure ceiling
  | .error message => Tx.rollback (.database message)

def ceilingChangedType : String := "ceiling_changed"

/-- `ceiling_changed_payload`. -/
def ceilingChangedPayload (executionId : String) (ceiling : Ceiling) (previous : Option Ceiling)
    (changedBy changedAt : String) : Json :=
  .obj [("parts", .arr [.obj [("data", .obj [
    ("type", .str ceilingChangedType),
    ("execution_id", .str executionId),
    ("ceiling", ceiling.toWire outside),
    ("previous", (previous.map fun c => c.toWire outside).getD .null),
    ("by", .str changedBy),
    ("at", .str changedAt)])]])]

/-- `insert_in_tx` of `db/events.rs`. -/
def insertEvent (executionId eventType : String) (payload : Json) : CeilingTx Unit := do
  statement env .insert "insert event"
  Tx.write fun db => { db with events := db.events ++ [⟨env.eventId, executionId, eventType, payload⟩] }

/-- `write_ceiling_changed_in_tx`. -/
def writeCeilingChanged (executionId : String) (previous : Option Ceiling) : CeilingTx Unit := do
  statement env .reread "fetch execution"
  let exec ← selectExecution executionId "execution"
  let ceiling ← readCeiling outside exec
  let changedAt ← Tx.ofOption exec.ceilingAt (.database "ceiling_at missing after write")
  let payload := ceilingChangedPayload outside executionId ceiling previous (exec.ceilingBy.getD "user") changedAt
  insertEvent env executionId "platform" payload

def endedDetail : String := "the execution has ended; its ceiling cannot be changed"

/-- Whether the `UPDATE` of `set_ceiling` matches a row. -/
def Changeable (executionId : String) (r : CeilingRow) : Prop :=
  r.id = executionId ∧ r.desired = .run ∧ r.outcome = none

instance (executionId : String) (r : CeilingRow) : Decidable (Changeable executionId r) :=
  inferInstanceAs (Decidable (_ ∧ _ ∧ _))

/-- The row with the columns of a ceiling. -/
def CeilingRow.withCeiling (ceiling : Ceiling) (r : CeilingRow) : CeilingRow :=
  { r with
    ceilingMode := (ceiling.toColumns outside).1
    ceilingEntries := (ceiling.toColumns outside).2
    ceilingBy := some "user"
    ceilingAt := some env.now }

/-- The `UPDATE` of `set_ceiling`. -/
def updateCeiling (executionId : String) (ceiling : Ceiling) : CeilingTx Unit := do
  statement env .update "update ceiling"
  let db ← Tx.read
  Tx.require (∃ r ∈ db.executions, Changeable executionId r) (.executionTerminated endedDetail)
  Tx.write fun db => { db with
    executions := db.executions.map fun r =>
      if Changeable executionId r then r.withCeiling outside env ceiling else r }

/-- `set_ceiling`: whether anything was written. -/
def setCeiling (executionId : String) (ceiling : Ceiling) : CeilingTx Bool := do
  beginExecutionTx env executionId
  statement env .get "fetch execution"
  let exec ← selectExecution executionId "execution"
  Tx.require (¬(exec.desired = .terminate ∨ exec.outcome.isSome = true)) (.executionTerminated endedDetail)
  let current ← readCeiling outside exec
  Tx.require (current ≠ .unsandboxed)
    (.resourceConflict "this execution is unsandboxed; its ceiling cannot be changed")
  -- the same ceiling again: nothing is written, and no event
  if current = ceiling then pure false
  else do
    updateCeiling outside env executionId ceiling
    writeCeilingChanged outside env executionId (some current)
    pure true

/-- `create_in_tx` of `db/executions.rs`. -/
def createInTx (id : String) (ceiling : Ceiling) : CeilingTx Unit := do
  statement env .begin "begin execution tx"
  statement env .create "create execution"
  let db ← Tx.read
  Tx.require (∀ r ∈ db.executions, r.id ≠ id) (.database "create execution failed: duplicate key")
  Tx.write fun db => { db with
    executions := db.executions ++ [⟨id, .run, none, (ceiling.toColumns outside).1, (ceiling.toColumns outside).2,
      some "user", some env.now⟩] }
  statement env .lock "fetch execution lock"

/-- The transaction of `create_execution` that inserts the execution. -/
def createExecution (id : String) (ceiling : Ceiling) : CeilingTx Unit := do
  createInTx outside env id ceiling
  Tx.when (ceiling ≠ .unsandboxed) (writeCeilingChanged outside env id none)

/-- A body with its commit. -/
def commitTx {α : Type} (body : CeilingTx α) (db : CeilingDb) : Except ChangeError α × CeilingDb :=
  match body db with
  | .error e => (.error e, db)
  | .ok (a, written) =>
      match env.commit with
      | none => (.ok a, written)
      | some .refused => (.error (.database "commit failed"), db)
      -- the answer is an error, the writes are there
      | some .lost => (.error (.database "commit failed"), written)

/-! ## The requests -/

/-- The two values that a `ceiling_changed` event records. -/
structure CeilingChange where
  previous : Json
  ceiling : Json
  deriving DecidableEq

/-- The change that an event records, where it is of type `ceiling_changed`. -/
def changeOf (e : CeilingEvent) : Option CeilingChange :=
  if e.eventType = "platform" then
    (((e.payload.get "parts").bind Json.asArray).bind List.head?).bind fun part =>
      (part.get "data").bind fun data =>
        if (data.get "type").bind Json.asStr = some ceilingChangedType then
          some ⟨(data.get "previous").getD .null, (data.get "ceiling").getD .null⟩
        else none
  else none

/-- What a request, or the rest of the system, does to the tables in one step. -/
inductive CeilingOp where
  /-- `is_agent_session_bearer`. -/
  | bearer
  | create (id : String) (ceiling : Ceiling)
  | set (id : String) (ceiling : Ceiling)
  /-- A transition of the execution: to be terminated, or to its outcome. -/
  | settle (id : String) (desired : ExecutionDesired) (outcome : Option Outcome)
  /-- An event of another kind. -/
  | record (executionId eventType : String) (payload : Json)

abbrev CeilingAnswer : CeilingOp → Type
  | .bearer => Bool
  | .create _ _ => Unit
  | .set _ _ => Bool
  | .settle _ _ _ => Unit
  | .record _ _ _ => Unit

def settleExecution (id : String) (desired : ExecutionDesired) (outcome : Option Outcome) : CeilingTx Unit := do
  beginExecutionTx env id
  statement env .update "update execution"
  Tx.write fun db => { db with
    executions := db.executions.map fun r => if r.id = id then { r with desired, outcome } else r }

def execCeiling : (op : CeilingOp) → CeilingEnv → CeilingDb → Except ChangeError (CeilingAnswer op) × CeilingDb
  | .bearer, env, db => (.ok env.agentBearer, db)
  | .create id ceiling, env, db => commitTx env (createExecution outside env id ceiling) db
  | .set id ceiling, env, db => commitTx env (setCeiling outside env id ceiling) db
  | .settle id desired outcome, env, db => commitTx env (settleExecution env id desired outcome) db
  | .record executionId eventType payload, env, db =>
      commitTx env (insertEvent env executionId eventType payload) db

/-- The execution whose lock the transaction holds. -/
def CeilingOp.locks : CeilingOp → Option String
  | bearer => none
  | create id _ => some id
  | set id _ => some id
  | settle id _ _ => some id
  | record executionId _ _ => some executionId

/-- The id of a new event is new, and behind those of its execution: they were drawn under its lock. -/
def FreshId (op : CeilingOp) (env : CeilingEnv) (db : CeilingDb) : Prop :=
  ∀ e ∈ db.events, e.id ≠ env.eventId ∧ (op.locks = some e.executionId → e.id < env.eventId)

instance (op : CeilingOp) (env : CeilingEnv) (db : CeilingDb) : Decidable (FreshId op env db) :=
  inferInstanceAs (Decidable (∀ e ∈ db.events, _ ∧ (_ → _)))

/-- The executions and their events, from an empty database on. -/
def ceilings : Machine where
  Op := CeilingOp
  Reply op := Except ChangeError (CeilingAnswer op)
  Input := CeilingEnv
  State := CeilingDb
  init := ⟨[], []⟩
  admits op env db := decide (FreshId op env db)
  exec := execCeiling outside

abbrev CeilingHandler (α : Type) := Prog (ceilings outside) (Except ChangeError α)

def perform {α : Type} (op : CeilingOp) (k : CeilingAnswer op → CeilingHandler outside α) :
    CeilingHandler outside α :=
  .call op fun reply => .check reply k

/-- `Ceiling::parse_authored` with the error of the route. -/
def authored (value : Json) : Except ChangeError Ceiling :=
  match Ceiling.parseAuthored outside value with
  | .ok ceiling => .ok ceiling
  | .error e => .error (.ceiling e)

/-- The ceiling of a request that creates an execution: `network` absent, null or an object. -/
def launchCeiling (network : Option Json) : Except ChangeError Ceiling :=
  match network with
  | none => .ok .unsandboxed
  | some .null => .error (.requestInvalid "network must not be null; omit it for an unsandboxed execution")
  | some raw => authored outside raw

/-- The part of the creation route that stores the ceiling, under the id drawn for the execution. -/
def createRoute (id : String) (network : Option Json) : CeilingHandler outside Unit :=
  .check (launchCeiling outside network) fun ceiling =>
    perform outside (.create id ceiling) fun _ => .ret (.ok ())

/-- The checks of `patch_execution`. -/
def patchCeiling (body : Json) : Except ChangeError Ceiling :=
  match body with
  | .obj fields =>
      match fields.find? fun f => f.1 ≠ "network" with
      | some (key, _) => .error (.requestInvalid s!"only network can be patched; unknown field: {key}")
      | none =>
          match fields.lookup "network" with
          | none => .error (.requestInvalid "network is required")
          | some .null => .error (.requestInvalid "network is required")
          -- unlike at the creation, an unsandboxed one cannot be asked for
          | some network =>
              match authored outside network with
              | .error e => .error e
              | .ok .unsandboxed =>
                  .error (.requestInvalid
                    "network.kind must be \"sandboxed\"; the kind is fixed when the execution is created")
              | .ok (.sandboxed policy) => .ok (.sandboxed policy)
  | _ => .error (.requestInvalid "the body must be a JSON object")

/-- `patch_execution`, up to its answer. -/
def patchExecution (id : String) (body : Json) : CeilingHandler outside Bool :=
  perform outside .bearer fun agent =>
    if agent then
      .ret (.error (.authForbidden
        "changing the network ceiling is not available via agent session auth"))
    else
      .check (patchCeiling outside body) fun ceiling =>
        perform outside (.set id ceiling) fun changed => .ret (.ok changed)

/-- A request, or a step of the rest of the system. -/
inductive CeilingRequest where
  | create (id : String) (network : Option Json)
  | patch (id : String) (body : Json)
  | settle (id : String) (desired : ExecutionDesired) (outcome : Option Outcome)
  | record (executionId eventType : String) (payload : Json)
      (other : ∀ id, changeOf ⟨id, executionId, eventType, payload⟩ = none)

def CeilingRequest.body : CeilingRequest → Prog (ceilings outside) Unit
  | create id network => createRoute outside id network >>= fun _ => .ret ()
  | patch id body => patchExecution outside id body >>= fun _ => .ret ()
  | settle id desired outcome => .call (.settle id desired outcome) fun _ => .ret ()
  | record executionId eventType payload _ => .call (.record executionId eventType payload) fun _ => .ret ()

end Network
end AgentBeacon
