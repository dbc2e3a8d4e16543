import AgentBeacon.Wiki.Sharing

/-!
# `Wiki.Auth` — what a caller may do with a page

`SharingContext` answers per page, `SearchScope` per document, and `apply_page_change` checks a foreign
writer again on the rows it has locked.
-/

namespace AgentBeacon
open Relational Sharing

/-! ## The context of a caller -/

/-- `Access`. -/
inductive Access where
  | read | readWrite
  deriving DecidableEq, Repr

/-- `SharingContext`, but for the token it is re-resolved with. -/
structure SharingContext where
  callerProjectId : String
  links : List SharedTagLink
  crossProjectWrites : Bool
  callerActive : Bool

/-- `SearchScope`. -/
structure SearchScope where
  projects : List String
  tagged : List (String × String)

namespace WikiDb

variable (db : WikiDb)

/-- `cross_project_writes_enabled` and `cross_project_writes_in_tx`. -/
def writesEnabled : Bool :=
  match db.crossProjectWrites with
  | none => true
  | some value => value ≠ "false"

/-- `SharingContext::load`. -/
def loadContext (callerProjectId : String) : SharingContext where
  callerProjectId
  links := db.sharedLinks callerProjectId
  crossProjectWrites := db.writesEnabled
  callerActive := db.resolves callerProjectId

/-- `SharingContext::in_tx`. -/
def contextInTx (callerProjectId : String) : SharingContext where
  callerProjectId
  links := db.sharedLinks callerProjectId
  crossProjectWrites := db.writesEnabled
  callerActive := db.isActive callerProjectId

end WikiDb

namespace SharingContext

variable (ctx : SharingContext)

/-- The loop of `access_to` over the links. -/
def linkAccess (projectId : String) (tags : List String) : Option Access → List SharedTagLink →
    Option Access
  | access, [] => access
  | access, link :: links =>
      if link.ownerProjectId ≠ projectId then linkAccess projectId tags access links
      else if link.tagName ∉ tags then linkAccess projectId tags access links
      else if link.accessLevel = .readWrite ∧ ctx.crossProjectWrites then some .readWrite
      else linkAccess projectId tags (some .read) links

/-- `access_to`. -/
def accessTo (projectId : String) (tags : List String) : Option Access :=
  if !ctx.callerActive then none
  else if projectId = ctx.callerProjectId then some .readWrite
  else ctx.linkAccess projectId tags none ctx.links

/-- `tag_pairs`. -/
def tagPairs : List (String × String) := ctx.links.map fun l => (l.ownerProjectId, l.tagName)

/-- `search_scope`. -/
def searchScope : SearchScope :=
  if !ctx.callerActive then ⟨[], []⟩
  else { projects := [ctx.callerProjectId], tagged := ctx.tagPairs }

end SharingContext

namespace SearchScope

variable (scope : SearchScope)

/-- `narrowed_to`. -/
def narrowedTo (projectId : String) : SearchScope where
  projects := scope.projects.filter (· = projectId)
  tagged := scope.tagged.filter fun pair => pair.1 = projectId

/-- `scope_query`, on a page as it is indexed: of a granted project, or of a project and with a tag
of one of the pairs. -/
def grants (projectId : String) (tags : List String) : Bool :=
  scope.projects.contains projectId ||
    scope.tagged.any fun pair => pair.1 = projectId && tags.contains pair.2

end SearchScope

/-! ## The locked check -/

/-- `ForeignWriter`. -/
structure ForeignWriter where
  callerProjectId : String
  ownerProjectId : String

/-- Why a foreign writer is refused. -/
inductive ForeignRefusal where
  | accessRevoked | readOnly | notFound | crossProjectWritesDisabled
  deriving DecidableEq, Repr

/-- The level of a tag among those of the caller that the source keeps in a map: the last one read. -/
def levelIn (levels : List (String × AccessLevel)) (tagId : String) : Option AccessLevel :=
  (levels.reverse.find? fun entry => entry.1 = tagId).map Prod.snd

/-- The loop over the tags of the page: the best level among the shared ones. -/
def bestLevel (ownerTags : List String) (levels : List (String × AccessLevel)) :
    Option AccessLevel → List String → Option AccessLevel
  | best, [] => best
  | best, tagId :: rest =>
      if tagId ∉ ownerTags then bestLevel ownerTags levels best rest
      else match levelIn levels tagId with
        | none => bestLevel ownerTags levels best rest
        | some .readWrite => bestLevel ownerTags levels (some .readWrite) rest
        | some .read => bestLevel ownerTags levels (best.or (some .read)) rest

namespace WikiDb

variable (db : WikiDb)

/-- The checks of `apply_page_change` on a foreign writer, up to the page it may change: the projects,
the memberships of both in the tags of the page, the page and the kill switch. -/
def lockedForeignCheck (foreign : ForeignWriter) (projectId pageId slug : String) :
    Except ForeignRefusal WikiPage := do
  if !(db.isActive projectId && db.isActive foreign.callerProjectId) then
    throw .accessRevoked
  let rows := db.members.rows.filter fun m =>
    (m.projectId = projectId || m.projectId = foreign.callerProjectId) && !m.revoked
  let callerLevels := (rows.filter fun m => m.projectId = foreign.callerProjectId).map fun m =>
    (m.tagId, m.accessLevel)
  let ownerTags := (rows.filter fun m => m.projectId ≠ foreign.callerProjectId).map TagMember.tagId
  let pageTags := (db.pageTags.filter fun pt => pt.pageId = pageId).map PageTag.tagId
  match bestLevel ownerTags callerLevels none pageTags with
  | none => throw .accessRevoked
  | some .read => throw .readOnly
  | some .readWrite =>
      match (db.livePage? pageId).filter fun p => p.projectId = projectId && p.slug = slug with
      | none => throw .notFound
      | some page =>
          if !db.writesEnabled then throw .crossProjectWritesDisabled
          return page

/-! ## The relations, as `access_to` has them -/

/-- `P` may read the page of another project. -/
def readsForeign (callerProjectId pageId : String) : Prop :=
  ∃ page, db.livePage? pageId = some page ∧ page.projectId ≠ callerProjectId ∧
    ((db.contextInTx callerProjectId).accessTo page.projectId (db.pageTagNames pageId)).isSome = true

/-- `P` may write the page of another project. -/
def writesForeign (callerProjectId pageId : String) : Prop :=
  ∃ page, db.livePage? pageId = some page ∧ page.projectId ≠ callerProjectId ∧
    (db.contextInTx callerProjectId).accessTo page.projectId (db.pageTagNames pageId) = some .readWrite

end WikiDb

end AgentBeacon
