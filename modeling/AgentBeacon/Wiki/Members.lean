import AgentBeacon.Wiki.Pages

/-!
# `Wiki.Members` — admitting projects to tags

`admit_member` and `set_member_access` lock the tag, work out what the request would newly expose and,
unless that is nothing or acknowledged, ask for confirmation. What they have found already visible is
kept here (`AdmitSeen`, `AccessSeen`): the membership is written afterwards.
-/

namespace AgentBeacon
open Relational

/-! ## Admission -/

/-- An admission, once the tag and the project are resolved. -/
structure AdmitRequest where
  tagId : String
  joinerId : String
  accessLevel : AccessLevel
  acknowledgeShare : Bool

/-- What `admit_member` found already visible. -/
structure AdmitSeen where
  joinerReaches : List String
  incumbentsReach : List String
  alreadyWritable : List String

/-- The body that asks for confirmation. -/
structure ShareConfirmation where
  tag : String
  exposesToJoiner : List Exposure
  exposesFromJoiner : Option Exposure
  grantsWrite : Option (List Exposure)

/-- The answers of `admit_member`. -/
inductive AdmitOutcome where
  | created (member : Member)
  | alreadyMember (member : Member)
  | memberExists (accessLevel : AccessLevel)
  | requiresConfirmation (body : ShareConfirmation)
  | tagNotFound
  | projectNotFound
  | conflict
  | database

namespace WikiDb

variable (db : WikiDb)

/-- The name of a tag. -/
def tagName? (tagId : String) : Option String := (db.tags.find? tagId).map WikiTag.name

/-- `already_a_member`. -/
def alreadyAMember (existing : Member) (requested : AccessLevel) : AdmitOutcome :=
  if existing.accessLevel = requested then .alreadyMember existing
  else .memberExists existing.accessLevel

/-- The pages every one of the projects can reach through another tag. -/
def commonReach (tagId : String) : List String → List String
  | [] => []
  | first :: rest => (db.reachablePageIds first tagId false).filter fun g =>
      rest.all fun p => g ∈ db.reachablePageIds p tagId false

/-- The slugs for the lists of an answer. -/
def slugsOf (members : List Member) (projectId : String) (slug : Option String) (p : String) :
    Option String :=
  if p = projectId then slug else (members.find? fun m => m.projectId = p).map Member.projectSlug

/-- What a read-write membership would let the joiner write. -/
def grantedWrites (tagId : String) (level : AccessLevel) (incumbentIds : List String)
    (slugs : String → Option String) (alreadyWritable : List String) : Nat × Option (List Exposure) :=
  if level = .readWrite then
    let (total, entries) := db.exposureByProject tagId incumbentIds slugs alreadyWritable
    (total, some entries)
  else (0, none)

/-- The first part of `admit_member`: an answer, or what it has found visible when it goes on. -/
def admitCheck (req : AdmitRequest) : Except AdmitOutcome AdmitSeen :=
  match db.tagName? req.tagId, db.activeProject? req.joinerId with
  | none, _ => .error .tagNotFound
  | some _, none => .error .projectNotFound
  | some tagName, some joiner =>
      let members := db.activeMembers req.tagId
      match members.find? fun m => m.projectId = req.joinerId with
      | some existing => .error (alreadyAMember existing req.accessLevel)
      | none =>
          let incumbents := members.filter fun m => m.projectId ≠ req.joinerId
          let incumbentIds := incumbents.map Member.projectId
          let seen : AdmitSeen := {
            joinerReaches := db.reachablePageIds req.joinerId req.tagId false
            incumbentsReach := db.commonReach req.tagId incumbentIds
            alreadyWritable := db.reachablePageIds req.joinerId req.tagId true }
          if !incumbents.isEmpty && !req.acknowledgeShare then
            let slugs := slugsOf incumbents req.joinerId joiner.slug
            let inbound := db.exposureByProject req.tagId incumbentIds slugs seen.joinerReaches
            let outbound := db.exposureByProject req.tagId [req.joinerId] slugs seen.incumbentsReach
            let writes := db.grantedWrites req.tagId req.accessLevel incumbentIds slugs seen.alreadyWritable
            if inbound.1 + outbound.1 + writes.1 > 0 then
              .error (.requiresConfirmation {
                tag := tagName, exposesToJoiner := inbound.2, exposesFromJoiner := outbound.2.head?
                grantsWrite := writes.2 })
            else .ok seen
          else .ok seen

/-- The second part of `admit_member`; `id` is the new row's. -/
def admitCommit (id : String) (req : AdmitRequest) : AdmitOutcome × WikiDb :=
  match db.insertMember { id, tagId := req.tagId, projectId := req.joinerId
                          accessLevel := req.accessLevel, revoked := false } with
  | none => (.conflict, db)
  | some inserted =>
      match inserted.activeMember req.tagId req.joinerId with
      | none => (.database, db)
      | some member => (.created member, inserted)

/-- `admit_member`, with nothing in between. -/
def admitMember (id : String) (req : AdmitRequest) : AdmitOutcome × WikiDb :=
  match db.admitCheck req with
  | .error answer => (answer, db)
  | .ok _ => db.admitCommit id req

end WikiDb

/-! ## Access levels -/

/-- A change of a member's level, once the tag and the project are resolved. -/
structure AccessRequest where
  tagId : String
  projectId : String
  accessLevel : AccessLevel
  acknowledgeShare : Bool

/-- What `set_member_access` found. -/
structure AccessSeen where
  existing : AccessLevel
  alreadyWritable : List String

/-- The answers of `set_member_access`. -/
inductive AccessOutcome where
  | updated (member : Member)
  | requiresConfirmation (tag : String) (grantsWrite : List Exposure)
  | tagNotFound
  | projectNotFound
  | memberNotFound
  | database

namespace WikiDb

variable (db : WikiDb)

/-- The first part of `set_member_access`. -/
def accessCheck (req : AccessRequest) : Except AccessOutcome AccessSeen :=
  match db.tagName? req.tagId, db.activeProject? req.projectId with
  | none, _ => .error .tagNotFound
  | some _, none => .error .projectNotFound
  | some tagName, some target =>
      match db.activeMember req.tagId req.projectId with
      | none => .error .memberNotFound
      | some existing =>
          let seen : AccessSeen := {
            existing := existing.accessLevel
            alreadyWritable := db.reachablePageIds req.projectId req.tagId true }
          if existing.accessLevel ≠ .readWrite && req.accessLevel = .readWrite &&
              !req.acknowledgeShare then
            let others := (db.activeMembers req.tagId).filter fun m => m.projectId ≠ req.projectId
            let slugs := slugsOf others req.projectId target.slug
            let writes := db.exposureByProject req.tagId (others.map Member.projectId) slugs
              seen.alreadyWritable
            if writes.1 > 0 then .error (.requiresConfirmation tagName writes.2) else .ok seen
          else .ok seen

/-- The second part of `set_member_access`. -/
def accessCommit (req : AccessRequest) : AccessOutcome × WikiDb :=
  if db.members.rows.any (isEdge req.tagId req.projectId) then
    let updated := db.setAccessLevel req.tagId req.projectId req.accessLevel
    match updated.activeMember req.tagId req.projectId with
    | none => (.database, db)
    | some member => (.updated member, updated)
  else (.memberNotFound, db)

/-- `set_member_access`, with nothing in between. -/
def setMemberAccess (req : AccessRequest) : AccessOutcome × WikiDb :=
  match db.accessCheck req with
  | .error answer => (answer, db)
  | .ok _ => db.accessCommit req

/-- `revoke_member`, the statement of `DELETE …/members/{project}`. -/
def revokeMember (tagId projectId : String) : WikiDb := db.revokeEdge tagId projectId

end WikiDb

end AgentBeacon
