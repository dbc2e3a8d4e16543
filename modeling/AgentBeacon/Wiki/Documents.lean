import AgentBeacon.Wiki.Revisions
import AgentBeacon.Wiki.Search

/-!
# `Wiki.Documents` — what becomes of the documents of pages

A request changes the document of one page, and leaves those of all others alone: new tags are on no page
yet, and the statements about pages and their tags name the page. A page that was there stays there, its
revision does not go down, and once deleted it stays deleted.
-/

namespace AgentBeacon
open Relational Replica Versions

variable {db db' db'' : WikiDb} {uuid : String → String} {live : String → Bool} {g : String}

/-- A page and its tags are the same. -/
structure SamePage (db db' : WikiDb) (g : String) : Prop where
  row : db'.pages.find? g = db.pages.find? g
  tags : db'.pageTagNames g = db.pageTagNames g

theorem SamePage.refl (db : WikiDb) (g : String) : SamePage db db g := ⟨rfl, rfl⟩

theorem SamePage.trans (h : SamePage db db' g) (h' : SamePage db' db'' g) : SamePage db db'' g :=
  ⟨h'.row.trans h.row, h'.tags.trans h.tags⟩

theorem SamePage.document (h : SamePage db db' g) : db'.document? g = db.document? g := by
  unfold WikiDb.document? WikiDb.pageWithTags? WikiDb.livePage?
  rw [h.row, h.tags]

/-- The tags of a page are the same when the associations of it are, and the tags. -/
theorem samePage_of_tables (hrow : db'.pages.find? g = db.pages.find? g) (htags : db'.tags = db.tags)
    (hpageTags : ∀ pt : PageTag, pt.pageId = g → (pt ∈ db'.pageTags ↔ pt ∈ db.pageTags)) :
    SamePage db db' g := by
  refine ⟨hrow, ?_⟩
  unfold WikiDb.pageTagNames
  rw [htags]
  congr 1
  refine List.filter_congr fun t _ => ?_
  exact decide_eq_decide.mpr (hpageTags ⟨g, t.id⟩ rfl)

/-! ## The statements -/

/-- A new tag is on no page. -/
theorem holdTag_samePage {id name tagId : String} (h : db.holdTag id name = some (db', tagId)) :
    SamePage db db' g := by
  unfold WikiDb.holdTag at h
  split at h
  · obtain ⟨rfl, -⟩ := Prod.mk.inj (Option.some.inj h)
    exact .refl _ _
  · split at h
    · cases h
    · rename_i tags htags
      obtain ⟨rfl, -⟩ := Prod.mk.inj (Option.some.inj h)
      obtain ⟨hfresh, hrows⟩ := Table.insert?_eq_some htags
      refine ⟨rfl, ?_⟩
      have hnew : ⟨g, id⟩ ∉ db.pageTags := by
        intro hpt
        obtain ⟨t, ht, hid⟩ := db.pageTagTags _ hpt
        exact Table.find?_eq_none.mp hfresh t ht hid
      show (tags.rows.filter fun t => decide (⟨g, t.id⟩ ∈ db.pageTags)).map WikiTag.name =
        db.pageTagNames g
      rw [hrows, List.filter_append, List.filter_cons_of_neg (by simpa using hnew), List.filter_nil,
        List.append_nil]
      rfl

theorem holdTags_samePage {names : List String} {held : List (String × String)}
    (h : db.holdTags uuid names = some (db', held)) : SamePage db db' g := by
  induction names generalizing db held with
  | nil =>
      obtain ⟨rfl, -⟩ := Prod.mk.inj (Option.some.inj h)
      exact .refl _ _
  | cons name names ih =>
      unfold WikiDb.holdTags at h
      split at h
      · cases h
      · rename_i db₁ id hfirst
        split at h
        · cases h
        · rename_i db₂ rest hrest
          obtain ⟨rfl, -⟩ := Prod.mk.inj (Option.some.inj h)
          exact (holdTag_samePage hfirst).trans (ih hrest)

theorem insertPage_samePage {page : WikiPage} (h : db.insertPage page = some db') (hne : g ≠ page.id) :
    SamePage db db' g := by
  unfold WikiDb.insertPage at h
  split at h
  · cases h
  · split at h
    · cases h
    · rename_i pages hpages
      obtain rfl := Option.some.inj h
      exact ⟨(Table.find?_insert? hpages g).trans (if_neg hne), rfl⟩

theorem tagPageAll_samePage {pageId : String} {ids : List String}
    (h : db.tagPageAll pageId ids = some db') (hne : g ≠ pageId) : SamePage db db' g := by
  obtain ⟨hframe, hpages, -, hpageTags⟩ := tagPageAll_effect h
  refine samePage_of_tables (by rw [hpages]) hframe.tags fun pt hpt => ?_
  rw [hpageTags]
  constructor
  · rintro (hold | ⟨hid, -⟩)
    · exact hold
    · exact absurd (hpt.symm.trans hid) hne
  · exact .inl

theorem untagWhere_samePage {p : PageTag → Bool} (hp : ∀ pt : PageTag, pt.pageId = g → p pt = false) :
    SamePage db (db.untagWhere p) g := by
  refine samePage_of_tables rfl rfl fun pt hpt => ?_
  show pt ∈ db.pageTags.filter (fun pt => !p pt) ↔ pt ∈ db.pageTags
  rw [List.mem_filter, hp pt hpt]
  simp

theorem updatePage_samePage {pageId title body : String} {revision : Nat} {updatedBy : Option String}
    (hne : g ≠ pageId) : SamePage db (db.updatePage pageId revision title body updatedBy) g := by
  refine ⟨?_, rfl⟩
  rw [find?_updatePage]
  cases hrow : db.pages.find? g with
  | none => rfl
  | some row =>
      have hkey : row.id ≠ pageId := by
        rw [Table.key_of_find? hrow]
        exact hne
      rw [Option.map_some, if_neg (by simp [hkey])]

/-! ## The requests -/

/-- The page that was inserted is the one of its slug. -/
theorem insertPage_bySlug {page found : WikiPage} (h : db.insertPage page = some db')
    (hlive : page.deleted = false) (hfound : db'.pageBySlug? page.projectId page.slug = some found) :
    found = page ∧ db.pages.find? page.id = none ∧ db'.pages.find? page.id = some page := by
  unfold WikiDb.insertPage at h
  split at h
  · cases h
  rename_i hnone
  have hold := Option.not_isSome_iff_eq_none.mp hnone
  split at h
  · cases h
  rename_i pages hpages
  obtain rfl := Option.some.inj h
  obtain ⟨hfresh, hrows⟩ := Table.insert?_eq_some hpages
  unfold WikiDb.pageBySlug? at hold hfound
  refine ⟨?_, hfresh, (Table.find?_insert? hpages page.id).trans (if_pos rfl)⟩
  rw [hrows, List.find?_append, hold, Option.none_or, List.find?_cons_of_pos (by simp [hlive])] at hfound
  exact (Option.some.inj hfound).symm

theorem document_of_row {page : WikiPage} (hrow : db.pages.find? g = some page)
    (hlive : page.deleted = false) :
    db.document? g = some (buildDocument page (db.pageTagNames g)) := by
  unfold WikiDb.document? WikiDb.pageWithTags? WikiDb.livePage?
  rw [hrow, Option.filter_some, if_pos (by simp [hlive])]
  rfl

/-- **What creating a page does to documents.** The page is new, its document is what the request has in
hand, and no other changes. -/
theorem created_documents {req : PageCreation} {page : WikiPage} {tags : List String}
    (h : db.createCommit uuid live req = (.created page tags, db')) :
    db.pages.find? page.id = none ∧ db'.pages.find? page.id = some page ∧
      db'.document? page.id = some (buildDocument page tags) ∧ ∀ g, g ≠ page.id → SamePage db db' g := by
  unfold WikiDb.createCommit at h
  split at h
  · cases h
  rename_i held heldTags hheld
  split at h
  · cases h
  split at h
  · cases h
  rename_i inserted hinserted
  split at h
  · cases h
  rename_i tagged htagged
  split at h
  · cases h
  rename_i found hfound
  split at h
  · cases h
  obtain ⟨hcreated, rfl⟩ := Prod.mk.inj h
  obtain ⟨rfl, rfl⟩ := CreateOutcome.created.inj hcreated
  have hpages : tagged.pages = inserted.pages ∧ ∀ g, g ≠ req.id → SamePage inserted tagged g := by
    split at htagged
    · have hsync : (inserted.untagWhere fun pt => pt.pageId = req.id).tagPageAll req.id
          (heldTags.map Prod.snd) = some tagged := htagged
      refine ⟨(tagPageAll_effect hsync).2.1, fun g hne => ?_⟩
      have huntag : SamePage inserted (inserted.untagWhere fun pt => pt.pageId = req.id) g :=
        untagWhere_samePage fun pt hpt => by simp [hpt, hne]
      exact huntag.trans (tagPageAll_samePage hsync hne)
    · obtain rfl := Option.some.inj htagged
      exact ⟨rfl, fun g _ => .refl _ _⟩
  unfold WikiDb.pageBySlug? at hfound
  rw [hpages.1] at hfound
  obtain ⟨rfl, hfresh, hrow⟩ := insertPage_bySlug hinserted rfl hfound
  rw [← hpages.1] at hrow
  refine ⟨?_, hrow, document_of_row hrow rfl, fun g hne => ?_⟩
  · rw [← (holdTags_samePage hheld).row]
    exact hfresh
  · exact (holdTags_samePage hheld).trans
      ((insertPage_samePage hinserted hne).trans (hpages.2 g hne))

theorem writeChange_documents {change : PageChange} {page : WikiPage} {newTitle newBody : String}
    {addedIds : List String} (h : db.writeChange change page newTitle newBody addedIds = some db')
    (hrow : db.pages.find? page.id = some page) (hlive : page.deleted = false) :
    db'.pages.find? page.id = some { page with
      title := newTitle, body := newBody, revisionNumber := page.revisionNumber + 1
      updatedBy := change.updatedBy } ∧
      ∀ g, g ≠ page.id → SamePage db db' g := by
  have hpages := (writeChange_effect h).2.2.2.1
  obtain ⟨archived, harchived, hrest⟩ := Option.bind_eq_some_iff.mp h
  obtain ⟨tagged, htagged, rfl⟩ := Option.map_eq_some_iff.mp hrest
  constructor
  · rw [hpages, find?_updatePage, hrow, Option.map_some, if_pos (by simp [hlive])]
  · intro g hne
    have harchive : SamePage db archived g := by
      unfold WikiDb.insertRevision at harchived
      split at harchived
      · cases harchived
      · obtain rfl := Option.some.inj harchived
        exact ⟨rfl, rfl⟩
    have huntag : SamePage tagged (tagged.untagNamed page.id change.removeTags) g :=
      untagWhere_samePage fun pt hpt => by simp [hpt, hne]
    exact harchive.trans ((updatePage_samePage hne).trans ((tagPageAll_samePage htagged hne).trans huntag))

/-- **What changing a page does to documents.** The page has the next revision, its document is what the
request has in hand, and no other changes. -/
theorem changed_documents {change : PageChange} {audiences : List PublicationAudience} {page : WikiPage}
    {tags : List String} (h : db.changeCommit uuid live change audiences = (.updated page tags, db')) :
    (∃ old, db.pages.find? page.id = some old ∧ old.deleted = false ∧
        page.revisionNumber = old.revisionNumber + 1) ∧
      db'.pages.find? page.id = some page ∧ page.deleted = false ∧
      db'.document? page.id = some (buildDocument page tags) ∧ ∀ g, g ≠ page.id → SamePage db db' g := by
  unfold WikiDb.changeCommit at h
  split at h
  · cases h
  rename_i held heldTags hheld
  split at h
  · rename_i refusal hrefused
    cases refusal <;> cases (Prod.mk.inj h).1
  rename_i old hlock
  simp only at h
  split at h
  · cases h
  split at h
  · cases h
  split at h
  · cases h
  split at h
  · cases h
  rename_i newBody hbody
  split at h
  · cases h
  split at h
  · cases h
  split at h
  · cases h
  rename_i written hwritten
  split at h
  · cases h
  rename_i updated updatedTags hread
  split at h
  · cases h
  obtain ⟨hupdated, rfl⟩ := Prod.mk.inj h
  obtain ⟨rfl, rfl⟩ := PageChangeOutcome.updated.inj hupdated
  -- what is read back is the row that was locked, one revision on
  obtain ⟨hlive, -⟩ := lockPage_ok hlock
  obtain ⟨hmem, hid, hdeleted⟩ := WikiDb.mem_livePage.mp hlive
  have hrow : held.pages.find? old.id = some old := Table.find?_of_mem hmem
  obtain ⟨hwrote, hothers⟩ := writeChange_documents hwritten hrow hdeleted
  obtain ⟨row, hread', hpair⟩ := Option.map_eq_some_iff.mp hread
  obtain ⟨rfl, rfl⟩ := Prod.mk.inj hpair
  have hfound := find_of_live hread'
  obtain rfl := Option.some.inj (hwrote.symm.trans hfound)
  have hbefore : db.pages.find? old.id = some old := by
    rw [← (holdTags_samePage hheld).row]
    exact hrow
  refine ⟨⟨old, hbefore, hdeleted, rfl⟩, hwrote, hdeleted, document_of_row hwrote hdeleted, ?_⟩
  intro g hne
  exact (holdTags_samePage hheld).trans (hothers g hne)

/-- **What deleting a page does to documents.** The page has none, and no other changes. -/
theorem deleted_documents {projectId pageId : String} {sessionId : Option String}
    (h : db.deletePage live projectId pageId sessionId = some db') :
    (∃ old, db.pages.find? pageId = some old ∧ old.deleted = false ∧
        db'.pages.find? pageId = some { old with deleted := true }) ∧
      db'.document? pageId = none ∧ ∀ g, g ≠ pageId → SamePage db db' g := by
  unfold WikiDb.deletePage at h
  split at h
  · cases h
  obtain ⟨removed, hremoved, hrest⟩ := Option.bind_eq_some_iff.mp h
  split at hrest
  · cases hrest
  obtain rfl := Option.some.inj hrest
  unfold WikiDb.removePage at hremoved
  split at hremoved
  · rename_i hpage
    obtain rfl := Option.some.inj hremoved
    obtain ⟨old, hold, hproject⟩ := (Option.any_eq_true _ _).mp hpage
    obtain ⟨hmem, hid, hlive⟩ := WikiDb.mem_livePage.mp hold
    have hfind := Table.find?_updateWhere db.pages
      (fun p => p.id = pageId && p.projectId = projectId && !p.deleted) ({ · with deleted := true })
      (fun _ => rfl)
    have hnow := (hfind pageId).trans (congrArg (Option.map _) (find_of_live hold))
    rw [Option.map_some, if_pos (by simp [hid, hlive, of_decide_eq_true hproject])] at hnow
    refine ⟨⟨old, find_of_live hold, hlive, hnow⟩, ?_, fun g hne => ⟨(hfind g).trans ?_, rfl⟩⟩
    · unfold WikiDb.document? WikiDb.pageWithTags? WikiDb.livePage?
      rw [hnow]
      rfl
    · cases hrow : db.pages.find? g with
      | none => rfl
      | some row =>
          have hkey : row.id ≠ pageId := by
            rw [Table.key_of_find? hrow]
            exact hne
          rw [Option.map_some, if_neg (by simp [hkey])]
  · cases hremoved

theorem insertMember_samePage {m : TagMember} (h : db.insertMember m = some db') :
    SamePage db db' g := by
  unfold WikiDb.insertMember at h
  split at h
  · cases h
  split at h
  · split at h
    · cases h
    · obtain rfl := Option.some.inj h
      exact ⟨rfl, rfl⟩
  · cases h

theorem admitCommit_samePage (db : WikiDb) (id : String) (req : AdmitRequest) (g : String) :
    SamePage db (db.admitCommit id req).2 g := by
  unfold WikiDb.admitCommit
  split
  · exact .refl _ _
  rename_i inserted hinserted
  split
  · exact .refl _ _
  · exact insertMember_samePage hinserted

theorem accessCommit_samePage (db : WikiDb) (req : AccessRequest) (g : String) :
    SamePage db (db.accessCommit req).2 g := by
  unfold WikiDb.accessCommit
  split
  · simp only
    split
    · exact .refl _ _
    · exact ⟨rfl, rfl⟩
  · exact .refl _ _

/-- A step that owes the index nothing leaves every page and its tags. -/
theorem quiet_documents {s s' : WikiState} {e : WikiEvent} (hs : WikiStep s e s')
    (hquiet : e.isQuiet = true) : SamePage s.db s'.db g := by
  cases hs with
  | createChecked => exact .refl _ _
  | createCommitted => cases hquiet
  | changeChecked => exact .refl _ _
  | @changeCommitted uuid live change audiences =>
      rcases changeCommit_effect s.db uuid live change audiences with
        ⟨-, hsame⟩ | ⟨held, heldTags, page, newTitle, newBody, addedIds, -, -, -, -, -, hupdated⟩
      · rw [hsame]
        exact .refl _ _
      · simp [WikiEvent.isQuiet, hupdated] at hquiet
  | pageDeleted => cases hquiet
  | admitChecked => exact .refl _ _
  | @admitCommitted id req seen before after member db hp hcommit =>
      have htables := admitCommit_samePage s.db id req g
      rw [hcommit] at htables
      exact htables
  | accessChecked => exact .refl _ _
  | @accessCommitted req seen before after member db hp hcommit =>
      have htables := accessCommit_samePage s.db req g
      rw [hcommit] at htables
      exact htables
  | memberRevoked => exact ⟨rfl, rfl⟩
  | givenUp => exact .refl _ _

end AgentBeacon
