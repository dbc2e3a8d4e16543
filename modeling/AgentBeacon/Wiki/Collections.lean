import AgentBeacon.Wiki.Auth

/-!
# `Wiki.Collections` — the answers that are put together from many pages

The listing of pages, the tags with their counts, the feed of changes and the export, and the read of one page. Each is
read on one snapshot, with the context of the caller in it. The rows have no timestamps here: the listing is without its
order, and the feed is told when a revision was made.
-/

namespace AgentBeacon
open Relational Sharing

/-- `VisiblePage`, and `ResolvedPage`. -/
structure VisiblePage where
  page : WikiPage
  tags : List String
  access : Access

/-- `TagResponse`. -/
structure TagResponse where
  name : String
  tagId : String
  pageCount : Nat
  shared : Bool

/-- `reachable_project_ids`. -/
def SharingContext.reachableProjectIds (ctx : SharingContext) : List String :=
  if !ctx.callerActive then []
  else ctx.links.foldl (fun ids link => if link.ownerProjectId ∈ ids then ids else ids ++ [link.ownerProjectId])
    [ctx.callerProjectId]

namespace WikiDb

variable (db : WikiDb) (ctx : SharingContext)

/-- `list_pages_in_projects_in_tx`, but for the order. -/
def listPagesInProjects (projectIds : List String) : List WikiPage :=
  db.pages.rows.filter fun p => p.projectId ∈ projectIds && !p.deleted

/-- The rows of `page_tags_in_projects_in_tx`. -/
def pageTagsInProjects (projectIds : List String) : List (String × String) :=
  (db.listPagesInProjects projectIds).flatMap fun p => (db.pageTagNames p.id).map fun name => (p.id, name)

/-- The tags of one page in these rows. -/
def tagsOfPage (rows : List (String × String)) (pageId : String) : List String :=
  (rows.filter fun row => row.1 = pageId).map Prod.snd

/-- `visible_pages_in_tx`. -/
def visiblePages : List VisiblePage :=
  let rows := db.pageTagsInProjects ctx.reachableProjectIds
  (db.listPagesInProjects ctx.reachableProjectIds).filterMap fun page =>
    (ctx.accessTo page.projectId (tagsOfPage rows page.id)).map fun access => ⟨page, tagsOfPage rows page.id, access⟩

/-- `load_readable_page`. -/
def loadReadablePage (projectId slug : String) : Option VisiblePage :=
  (db.pageBySlug? projectId slug).bind fun page =>
    (ctx.accessTo page.projectId (db.pageTagNames page.id)).map fun access => ⟨page, db.pageTagNames page.id, access⟩

/-- `memberships_of_in_tx`, the names of the tags. -/
def membershipsOf (projectId : String) : List String :=
  if db.isActive projectId then
    (db.members.rows.filter fun m => m.projectId = projectId && !m.revoked).flatMap fun m =>
      (db.tags.rows.filter fun t => t.id = m.tagId).map WikiTag.name
  else []

/-- `list_tags`. -/
def listTags : List TagResponse :=
  let counted := (db.visiblePages ctx).flatMap VisiblePage.tags
  let shared := db.membershipsOf ctx.callerProjectId
  let names := counted.dedup ++ shared.dedup.filter fun name => name ∉ counted
  (names.mergeSort fun a b => a ≤ b).map fun name =>
    { name, tagId := (db.tagId? name).getD "", pageCount := counted.count name, shared := decide (name ∈ shared) }

/-- `list_changes`, of the revisions that its filters select; `createdAt` is when a revision was made. -/
def listChanges (selected : WikiPageRevision → Bool) (createdAt : WikiPageRevision → Nat) (limit : Nat) :
    List WikiPageRevision :=
  let visible := (db.visiblePages ctx).map fun v => v.page.id
  let reachable := (db.listPagesInProjects ctx.reachableProjectIds).map WikiPage.id
  let rows := (db.revisions.filter fun r => r.pageId ∈ reachable && selected r).mergeSort fun a b =>
    createdAt b < createdAt a || (createdAt a = createdAt b && b.revisionNumber ≤ a.revisionNumber)
  (rows.filter fun r => r.pageId ∈ visible).take limit

/-- `export_pages`. -/
def exportPages (projectId : String) : List WikiPage :=
  (db.pages.rows.filter fun p => p.projectId = projectId && !p.deleted).mergeSort fun a b => a.slug ≤ b.slug

end WikiDb

end AgentBeacon
