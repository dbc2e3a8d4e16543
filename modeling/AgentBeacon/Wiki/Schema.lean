import AgentBeacon.Lib.Table

/-!
# `Wiki.Schema` — rows and tables of the wiki

Pages belong to projects and carry tags; projects are members of tags, at a level of access. Rows
are not removed: pages and projects are deleted, and memberships revoked, by a timestamp, of which
the model keeps whether it is set.
-/

namespace AgentBeacon
open Relational

/-- `access_level`. -/
inductive AccessLevel where
  | read | readWrite
  deriving DecidableEq, Repr

/-- A row of `projects`, as far as the wiki reads it. -/
structure WikiProject where
  id : String
  slug : Option String
  deleted : Bool
  deriving DecidableEq

/-- A row of `wiki_tags`. -/
structure WikiTag where
  id : String
  name : String
  deriving DecidableEq

/-- A row of `wiki_tag_members`. -/
structure TagMember where
  id : String
  tagId : String
  projectId : String
  accessLevel : AccessLevel
  revoked : Bool
  deriving DecidableEq

/-- A row of `wiki_pages`. -/
structure WikiPage where
  id : String
  projectId : String
  slug : String
  title : String
  body : String
  revisionNumber : Nat
  createdBy : Option String
  updatedBy : Option String
  deleted : Bool

/-- A row of `wiki_page_tags`. -/
structure PageTag where
  pageId : String
  tagId : String
  deriving DecidableEq

/-- A row of `wiki_page_revisions`. -/
structure WikiPageRevision where
  pageId : String
  revisionNumber : Nat
  title : String
  body : String
  summary : Option String
  createdBy : Option String

/-- The tables, with the constraints of the schema that the wiki relies on: tag names are unique,
`idx_wiki_tag_members_edge`, and the foreign keys into `wiki_tags` and `wiki_pages`. -/
structure WikiDb where
  projects : Table String WikiProject WikiProject.id
  tags : Table String WikiTag WikiTag.id
  members : Table String TagMember TagMember.id
  pages : Table String WikiPage WikiPage.id
  pageTags : List PageTag
  revisions : List WikiPageRevision
  /-- The value of `wiki.cross_project_writes`, when it is set. -/
  crossProjectWrites : Option String
  names : ∀ t ∈ tags.rows, ∀ t' ∈ tags.rows, t.name = t'.name → t = t'
  edges : ∀ m ∈ members.rows, ∀ m' ∈ members.rows, m.revoked = false → m'.revoked = false →
    m.tagId = m'.tagId → m.projectId = m'.projectId → m = m'
  memberTags : ∀ m ∈ members.rows, ∃ t ∈ tags.rows, t.id = m.tagId
  pageTagTags : ∀ pt ∈ pageTags, ∃ t ∈ tags.rows, t.id = pt.tagId
  pageTagPages : ∀ pt ∈ pageTags, ∃ p ∈ pages.rows, p.id = pt.pageId

namespace WikiDb

variable (db : WikiDb)

/-! ## Lookups -/

/-- `id = ? AND deleted_at IS NULL`. -/
def activeProject? (projectId : String) : Option WikiProject :=
  (db.projects.find? projectId).filter fun p => !p.deleted

/-- `lock_active_in_tx` and `is_active_in_tx`. -/
def isActive (projectId : String) : Bool := (db.activeProject? projectId).isSome

/-- `projects::resolve` succeeds: an active project has this id or slug. -/
def resolves (idOrSlug : String) : Bool :=
  db.projects.rows.any fun p => (p.id = idOrSlug || p.slug = some idOrSlug) && !p.deleted

/-- The slug of a project; its id without one. -/
def slugOf (projectId : String) : String :=
  ((db.projects.find? projectId).bind WikiProject.slug).getD projectId

/-- The id of the tag of this name. -/
def tagId? (name : String) : Option String :=
  (db.tags.rows.find? fun t => t.name = name).map WikiTag.id

/-- `id = ? AND deleted_at IS NULL`. -/
def livePage? (pageId : String) : Option WikiPage :=
  (db.pages.find? pageId).filter fun p => !p.deleted

/-- `project_id = ? AND slug = ? AND deleted_at IS NULL`. -/
def pageBySlug? (projectId slug : String) : Option WikiPage :=
  db.pages.rows.find? fun p => p.projectId = projectId && p.slug = slug && !p.deleted

/-- `page_tag_names_in_tx`, but for the order. -/
def pageTagNames (pageId : String) : List String :=
  ((db.tags.rows.filter fun t => ⟨pageId, t.id⟩ ∈ db.pageTags)).map WikiTag.name

/-- `page_with_tags_by_id_in_tx`. -/
def pageWithTags? (pageId : String) : Option (WikiPage × List String) :=
  (db.livePage? pageId).map fun page => (page, db.pageTagNames pageId)

/-- The unrevoked memberships of a tag. -/
def membersOf (tagId : String) : List TagMember :=
  db.members.rows.filter fun m => m.tagId = tagId && !m.revoked

/-! ## Statements -/

/-- `INSERT INTO wiki_tags … ON CONFLICT DO NOTHING`, then the tag's id by its name; `none` when
another tag has the id. -/
def holdTag (id name : String) : Option (WikiDb × String) :=
  match hname : db.tagId? name with
  | some tagId => some (db, tagId)
  | none =>
      match htags : db.tags.insert? { id, name } with
      | none => none
      | some tags => some ({ db with
          tags
          names := by
            have hfresh : ∀ t ∈ db.tags.rows, t.name ≠ name := by
              intro t ht hn
              have hfind := Option.map_eq_none_iff.mp hname
              exact absurd (List.find?_eq_none.mp hfind t ht) (by simp [hn])
            rw [(Table.insert?_eq_some htags).2]
            intro t ht t' ht' hn
            rcases List.mem_append.mp ht with ht | ht <;> rcases List.mem_append.mp ht' with ht' | ht'
            · exact db.names t ht t' ht' hn
            · rw [List.mem_singleton.mp ht'] at hn
              exact absurd hn (hfresh t ht)
            · rw [List.mem_singleton.mp ht] at hn
              exact absurd hn.symm (hfresh t' ht')
            · rw [List.mem_singleton.mp ht, List.mem_singleton.mp ht']
          memberTags := fun m hm => by
            obtain ⟨t, ht, hid⟩ := db.memberTags m hm
            rw [(Table.insert?_eq_some htags).2]
            exact ⟨t, List.mem_append_left _ ht, hid⟩
          pageTagTags := fun pt hpt => by
            obtain ⟨t, ht, hid⟩ := db.pageTagTags pt hpt
            rw [(Table.insert?_eq_some htags).2]
            exact ⟨t, List.mem_append_left _ ht, hid⟩ }, id)

/-- `INSERT INTO wiki_tag_members`; `none` when a constraint is violated. -/
def insertMember (m : TagMember) : Option WikiDb :=
  if hedge : db.members.rows.any fun m' => m'.tagId = m.tagId && m'.projectId = m.projectId &&
      !m'.revoked then none
  else if htag : ∃ t ∈ db.tags.rows, t.id = m.tagId then
    match hmembers : db.members.insert? m with
    | none => none
    | some members => some { db with
        members
        edges := by
          have hnew : ∀ m' ∈ db.members.rows, m'.revoked = false → m'.tagId = m.tagId →
              m'.projectId ≠ m.projectId := by
            intro m' hm' hr ht hp
            refine hedge (List.any_eq_true.mpr ⟨m', hm', ?_⟩)
            simp [hr, ht, hp]
          rw [(Table.insert?_eq_some hmembers).2]
          intro a ha b hb hra hrb ht hp
          rcases List.mem_append.mp ha with ha | ha <;> rcases List.mem_append.mp hb with hb | hb
          · exact db.edges a ha b hb hra hrb ht hp
          · rw [List.mem_singleton.mp hb] at ht hp
            exact absurd hp (hnew a ha hra ht)
          · rw [List.mem_singleton.mp ha] at ht hp
            exact absurd hp.symm (hnew b hb hrb ht.symm)
          · rw [List.mem_singleton.mp ha, List.mem_singleton.mp hb]
        memberTags := by
          rw [(Table.insert?_eq_some hmembers).2]
          intro a ha
          rcases List.mem_append.mp ha with ha | ha
          · exact db.memberTags a ha
          · rw [List.mem_singleton.mp ha]
            exact htag }
  else none

/-- `WHERE tag_id = ? AND project_id = ? AND revoked_at IS NULL`. -/
def isEdge (tagId projectId : String) (m : TagMember) : Bool :=
  m.tagId = tagId && m.projectId = projectId && !m.revoked

/-- `UPDATE wiki_tag_members SET access_level = ?`. -/
def setAccessLevel (tagId projectId : String) (level : AccessLevel) : WikiDb :=
  { db with
    members := db.members.updateWhere (isEdge tagId projectId) ({ · with accessLevel := level })
      fun _ => rfl
    edges := by
      intro a ha b hb hra hrb ht hp
      obtain ⟨a₀, ha₀, rfl⟩ := Table.mem_updateWhere.mp ha
      obtain ⟨b₀, hb₀, rfl⟩ := Table.mem_updateWhere.mp hb
      have hsame : a₀ = b₀ := by
        refine db.edges a₀ ha₀ b₀ hb₀ ?_ ?_ ?_ ?_
        · split at hra <;> exact hra
        · split at hrb <;> exact hrb
        · split at ht <;> split at ht <;> exact ht
        · split at hp <;> split at hp <;> exact hp
      rw [hsame]
    memberTags := by
      intro m hm
      obtain ⟨m₀, hm₀, rfl⟩ := Table.mem_updateWhere.mp hm
      have := db.memberTags m₀ hm₀
      split <;> exact this }

/-- `UPDATE wiki_tag_members SET revoked_at = CURRENT_TIMESTAMP`. -/
def revokeEdge (tagId projectId : String) : WikiDb :=
  { db with
    members := db.members.updateWhere (isEdge tagId projectId) ({ · with revoked := true })
      fun _ => rfl
    edges := by
      intro a ha b hb hra hrb ht hp
      obtain ⟨a₀, ha₀, rfl⟩ := Table.mem_updateWhere.mp ha
      obtain ⟨b₀, hb₀, rfl⟩ := Table.mem_updateWhere.mp hb
      split at hra
      · cases hra
      split at hrb
      · cases hrb
      rename_i hna hnb
      rw [if_neg hna, if_neg hnb]
      rw [if_neg hna, if_neg hnb] at ht hp
      exact db.edges a₀ ha₀ b₀ hb₀ hra hrb ht hp
    memberTags := by
      intro m hm
      obtain ⟨m₀, hm₀, rfl⟩ := Table.mem_updateWhere.mp hm
      have := db.memberTags m₀ hm₀
      split <;> exact this }

/-- `INSERT INTO wiki_pages`; `none` when the id or, within the project, the slug is taken. -/
def insertPage (page : WikiPage) : Option WikiDb :=
  if (db.pageBySlug? page.projectId page.slug).isSome then none
  else match hpages : db.pages.insert? page with
    | none => none
    | some pages => some { db with
        pages
        pageTagPages := fun pt hpt => by
          obtain ⟨p, hp, hid⟩ := db.pageTagPages pt hpt
          rw [(Table.insert?_eq_some hpages).2]
          exact ⟨p, List.mem_append_left _ hp, hid⟩ }

/-- An `UPDATE` of pages keeps their ids. -/
theorem pageTagPages_updateWhere {p : WikiPage → Bool} {f : WikiPage → WikiPage}
    (hf : ∀ r, (f r).id = r.id) :
    ∀ pt ∈ db.pageTags, ∃ page ∈ (db.pages.updateWhere p f hf).rows, page.id = pt.pageId := by
  intro pt hpt
  obtain ⟨page, hpage, hid⟩ := db.pageTagPages pt hpt
  refine ⟨_, Table.mem_updateWhere.mpr ⟨page, hpage, rfl⟩, ?_⟩
  split
  · rw [hf, hid]
  · exact hid

/-- `UPDATE wiki_pages … WHERE id = ? AND revision_number = ? AND deleted_at IS NULL`. -/
def updatePage (pageId : String) (revision : Nat) (title body : String) (updatedBy : Option String) :
    WikiDb :=
  { db with
    pages := db.pages.updateWhere
      (fun p => p.id = pageId && p.revisionNumber = revision && !p.deleted)
      (fun p => { p with title, body, revisionNumber := p.revisionNumber + 1, updatedBy }) fun _ => rfl
    pageTagPages := db.pageTagPages_updateWhere _ }

/-- `UPDATE wiki_pages SET deleted_at … WHERE id = ? AND project_id = ? AND deleted_at IS NULL`;
`none` when no row is affected. -/
def removePage (pageId projectId : String) : Option WikiDb :=
  if (db.livePage? pageId).any fun p => p.projectId = projectId then
    some { db with
      pages := db.pages.updateWhere (fun p => p.id = pageId && p.projectId = projectId && !p.deleted)
        ({ · with deleted := true }) fun _ => rfl
      pageTagPages := db.pageTagPages_updateWhere _ }
  else none

/-- `INSERT INTO wiki_page_tags … ON CONFLICT DO NOTHING`; `none` when there is no such tag or page. -/
def tagPage (pageId tagId : String) : Option WikiDb :=
  if hkeys : (∃ t ∈ db.tags.rows, t.id = tagId) ∧ ∃ p ∈ db.pages.rows, p.id = pageId then
    if ⟨pageId, tagId⟩ ∈ db.pageTags then some db
    else some { db with
      pageTags := db.pageTags ++ [⟨pageId, tagId⟩]
      pageTagTags := by
        intro pt hpt
        rcases List.mem_append.mp hpt with hpt | hpt
        · exact db.pageTagTags pt hpt
        · rw [List.mem_singleton.mp hpt]
          exact hkeys.1
      pageTagPages := by
        intro pt hpt
        rcases List.mem_append.mp hpt with hpt | hpt
        · exact db.pageTagPages pt hpt
        · rw [List.mem_singleton.mp hpt]
          exact hkeys.2 }
  else none

/-- `DELETE FROM wiki_page_tags WHERE …`. -/
def untagWhere (p : PageTag → Bool) : WikiDb :=
  { db with
    pageTags := db.pageTags.filter fun pt => !p pt
    pageTagTags := fun pt hpt => db.pageTagTags pt (List.mem_of_mem_filter hpt)
    pageTagPages := fun pt hpt => db.pageTagPages pt (List.mem_of_mem_filter hpt) }

/-- `INSERT INTO wiki_page_revisions`; `none` when the page has a revision of this number. -/
def insertRevision (r : WikiPageRevision) : Option WikiDb :=
  if db.revisions.any fun r' => r'.pageId = r.pageId && r'.revisionNumber = r.revisionNumber then none
  else some { db with revisions := db.revisions ++ [r] }

end WikiDb

end AgentBeacon
