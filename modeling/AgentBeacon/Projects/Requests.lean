import AgentBeacon.Projects.Store
import AgentBeacon.Lib.Careful

/-!
# `Projects.Requests` — the requests about projects

The handlers of `api/projects.rs` that write a project, as programs over the statements of `db/projects.rs`. A
request is several statements and no transaction: between two of them any other request may run.
-/

namespace AgentBeacon
namespace Projects
open Interleave

/-- What a request asks of the database, the file system and the generator of ids. -/
inductive Op where
  /-- `Uuid::new_v4`. -/
  | newId
  /-- `fs::canonicalize`, and whether the path is a directory. -/
  | canonicalize (path : List Char)
  | countByPath (path : List Char)
  | slugTaken (slug : List Char) (excludeId : Option (List Char))
  | insert (p : Project)
  | getById (id : List Char)
  | resolve (idOrSlug : List Char)
  | update (id : List Char) (changes : Changes)
  | softDelete (id : List Char)

abbrev Answer : Op → Type
  | .newId => List Char
  | .canonicalize _ => List Char × Bool
  | .countByPath _ => Nat
  | .slugTaken _ _ => Bool
  | .insert _ => Unit
  | .getById _ => Project
  | .resolve _ => Project
  | .update _ _ => Nat
  | .softDelete _ => Nat

/-- A statement that fails: it is not executed, or its answer is lost. -/
inductive Fault where
  | refused (message : String)
  | lost (message : String)

/-- What is decided outside for one call. -/
structure Outside where
  fault : Option Fault
  uuid : List Char
  file : Option (List Char × Bool)

/-- A query: its answer, or the error of the connection. -/
def answer {α : Type} (outside : Outside) (what : String) (db : List Project) (a : Except SchedulerError α) :
    Except SchedulerError α × List Project :=
  match outside.fault with
  | some (.refused message) => (.error (dbError s!"{what} failed: {message}"), db)
  | some (.lost message) => (.error (dbError s!"{what} failed: {message}"), db)
  | none => (a, db)

/-- A write: its rows or the violation of a key, or the error of the connection. -/
def change {α : Type} (outside : Outside) (what : String) (db : List Project) (a : α)
    (written : Option (List Project)) : Except SchedulerError α × List Project :=
  match outside.fault with
  | some (.refused message) => (.error (dbError s!"{what} failed: {message}"), db)
  | some (.lost message) => (.error (dbError s!"{what} failed: {message}"), written.getD db)
  | none =>
      match written with
      | none => (.error (.conflict "slug_exists"), db)
      | some db => (.ok a, db)

/-- `map_db_error` for a query that found no row. -/
def found (key : List Char) : Option Project → Except SchedulerError Project
  | none => .error (.notFound s!"project not found: {String.ofList key}")
  | some p => .ok p

def exec : (op : Op) → Outside → List Project → Except SchedulerError (Answer op) × List Project
  | .newId, outside, db => (.ok outside.uuid, db)
  | .canonicalize path, outside, db =>
      match outside.file with
      | none => (.error (.validationFailed s!"path does not exist: {String.ofList path}"), db)
      | some file => (.ok file, db)
  | .countByPath path, outside, db => answer outside "count projects" db (.ok (countByPath db path))
  | .slugTaken slug excludeId, outside, db =>
      answer outside "check project slug" db (.ok (slugTaken db slug excludeId))
  | .insert p, outside, db => change outside "create project" db () (insertProject db p)
  | .getById id, outside, db => answer outside "fetch project" db (found id (getById? db id))
  | .resolve key, outside, db => answer outside "fetch project" db (found key (resolve? db key))
  | .update id changes, outside, db =>
      change outside "update project" db (affected db id) (updateProject db id changes)
  | .softDelete id, outside, db => change outside "soft delete project" db (affected db id) (softDelete db id)

/-- The projects as a store, from rows on. -/
def projects (db : List Project) : Machine where
  Op := Op
  Reply op := Except SchedulerError (Answer op)
  Input := Outside
  State := List Project
  init := db
  admits op outside _ :=
    match op with
    | .newId => decide (IsUuid outside.uuid)
    | _ => true
  exec := exec

variable (db : List Project)

abbrev Handler (α : Type) := Prog (projects db) (Except SchedulerError α)

/-- Call an operation, and continue unless it fails. -/
def attempt {α : Type} (op : Op) (k : Answer op → Handler db α) : Handler db α :=
  .call op fun reply => .check reply k

/-! ## Checks -/

def maxNameLen : Nat := 255

/-- The check of a name, the same on creation and update. -/
def validateName (name : List Char) : Except SchedulerError (List Char) :=
  if trimText name = [] || maxNameLen < utf8Length (trimText name) then
    .error (.validationFailed "name must be non-empty and max 255 chars")
  else .ok (trimText name)

/-- The path of a project: absolute, existing, and a directory. -/
def validatePath {α : Type} (path : List Char) (k : List Char → Handler db α) : Handler db α :=
  let path := trimText path
  if path.head? ≠ some '/' then
    .ret (.error (.validationFailed s!"path must be absolute: {String.ofList path}"))
  else
    attempt db (.canonicalize path) fun file =>
      if !file.2 then .ret (.error (.validationFailed s!"path is not a directory: {String.ofList path}"))
      else k file.1

/-- The slug of a new project. -/
def newSlug (supplied : Option (List Char)) (name id : List Char) : Except SchedulerError (List Char) :=
  match supplied with
  | some supplied =>
      match validateSlug (trimText supplied) with
      | .error e => .error e
      | .ok validated =>
          if isUuidShaped validated then
            .error (.validationFailed "slug must not have the shape of a project id")
          else .ok validated
  | none => .ok (deriveSlug name id)

/-- The slug of an update. -/
def changedSlug (supplied id : List Char) : Except SchedulerError (List Char) :=
  match validateSlug (trimText supplied) with
  | .error e => .error e
  | .ok validated =>
      if isUuidShaped validated && validated ≠ id then
        .error (.validationFailed "slug must not have the shape of another project's id")
      else .ok validated

/-! ## Handlers -/

/-- `CreateProjectRequest`. -/
structure CreateRequest where
  name : List Char
  path : List Char
  slug : Option (List Char)

/-- `UpdateProjectRequest`. -/
structure UpdateRequest where
  name : Option (List Char)
  path : Option (List Char)
  settings : Option Json
  slug : Option (List Char)

/-- `db::projects::create`. -/
def create {α : Type} (p : Project) (k : Project → Handler db α) : Handler db α :=
  attempt db (.insert p) fun _ => attempt db (.getById p.id) k

/-- `create_project`: the project, and the warning. -/
def createProject (req : CreateRequest) : Handler db (Project × Option String) :=
  Prog.check (validateName req.name) fun name =>
    validatePath db req.path fun path =>
      attempt db (.countByPath path) fun pathCount =>
        let warning := if 0 < pathCount then some "Another project already uses this path" else none
        attempt db .newId fun id =>
          Prog.check (newSlug req.slug name id) fun slug =>
            attempt db (.slugTaken slug none) fun taken =>
              if taken then .ret (.error (.conflict "slug_exists"))
              else
                create db ⟨id, name, some slug, path, "{}".toList, false⟩ fun project =>
                  .ret (.ok (project, warning))

/-- `db::projects::update`. -/
def update (id : List Char) (changes : Changes) : Handler db Project :=
  attempt db (.update id changes) fun affected =>
    if affected = 0 then .ret (.error (.notFound s!"project not found: {String.ofList id}"))
    else attempt db (.getById id) fun project => .ret (.ok project)

/-- The path of an update, where one is given. -/
def changedPath {α : Type} (path : Option (List Char)) (k : Option (List Char) → Handler db α) : Handler db α :=
  match path with
  | none => k none
  | some path => validatePath db path fun canonical => k (some canonical)

/-- The slug of an update, where one is given and no other project has it. -/
def freeSlug {α : Type} (id : List Char) (slug : Option (List Char)) (k : Option (List Char) → Handler db α) :
    Handler db α :=
  match slug with
  | none => k none
  | some supplied =>
      Prog.check (changedSlug supplied id) fun validated =>
        attempt db (.slugTaken validated (some id)) fun taken =>
          if taken then .ret (.error (.conflict "slug_exists")) else k (some validated)

/-- `update_project`. -/
def updateProjectRoute (idOrSlug : List Char) (req : UpdateRequest) : Handler db Project :=
  attempt db (.resolve idOrSlug) fun existing =>
    Prog.check (req.name.mapM validateName) fun name =>
      changedPath db req.path fun path =>
        freeSlug db existing.id req.slug fun slug =>
          update db existing.id ⟨name, path, req.settings.map fun v => v.serialize.toList, slug⟩

/-- `delete_project`. -/
def deleteProject (idOrSlug : List Char) : Handler db Unit :=
  attempt db (.resolve idOrSlug) fun project =>
    attempt db (.softDelete project.id) fun affected =>
      if affected = 0 then .ret (.error (.notFound s!"project not found: {String.ofList project.id}"))
      else .ret (.ok ())

/-- A request of a client. -/
inductive ProjectRequest where
  | create (req : CreateRequest)
  | update (idOrSlug : List Char) (req : UpdateRequest)
  | delete (idOrSlug : List Char)

def ProjectRequest.body : ProjectRequest → Prog (projects db) Unit
  | create req => createProject db req >>= fun _ => .ret ()
  | update key req => updateProjectRoute db key req >>= fun _ => .ret ()
  | delete key => deleteProject db key >>= fun _ => .ret ()

end Projects
end AgentBeacon
