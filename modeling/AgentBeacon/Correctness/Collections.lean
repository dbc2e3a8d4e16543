import AgentBeacon.Correctness.Visibility
import AgentBeacon.Wiki.Collections

/-!
# `Correctness.Collections` — a collection shows what a single read serves

The listing asks about the pages of the projects that it can reach only, and gathers their tags from one statement; the
feed filters by the listing. A page that a caller may read is of a reachable project, so nothing is left out.
-/

namespace AgentBeacon
open Relational Sharing

variable {db : WikiDb} {ctx : SharingContext}

/-- The unique index on the project and the slug of a page that is not deleted. -/
def SlugsUnique (db : WikiDb) : Prop :=
  ∀ p ∈ db.pages.rows, ∀ p' ∈ db.pages.rows, p.deleted = false → p'.deleted = false →
    p.projectId = p'.projectId → p.slug = p'.slug → p = p'

/-! ## Reach -/

theorem mem_reachableProjectIds {o : String} : o ∈ ctx.reachableProjectIds ↔ ctx.callerActive = true ∧
    (o = ctx.callerProjectId ∨ ∃ link ∈ ctx.links, link.ownerProjectId = o) := by
  unfold SharingContext.reachableProjectIds
  have hfold : ∀ (links : List SharedTagLink) (ids : List String),
      o ∈ links.foldl (fun ids link => if link.ownerProjectId ∈ ids then ids else ids ++ [link.ownerProjectId]) ids ↔
        o ∈ ids ∨ ∃ link ∈ links, link.ownerProjectId = o := by
    intro links
    induction links with
    | nil => simp
    | cons link links ih =>
        intro ids
        rw [List.foldl_cons, ih, List.exists_mem_cons_iff]
        split
        · rename_i hmem
          constructor
          · rintro (h | h)
            · exact .inl h
            · exact .inr (.inr h)
          · rintro (h | rfl | h)
            · exact .inl h
            · exact .inl hmem
            · exact .inr h
        · simp only [List.mem_append, List.mem_singleton, eq_comm (a := o)]
          tauto
  cases hactive : ctx.callerActive with
  | false => simp
  | true =>
      rw [Bool.not_true, if_neg Bool.false_ne_true, hfold, List.mem_singleton]
      simp

/-- **Access needs reach**: it comes from a link to the project. -/
theorem linkAccess_reach {o : String} {tags : List String} {links : List SharedTagLink} {access : Option Access}
    (h : ctx.linkAccess o tags access links ≠ access) : ∃ link ∈ links, link.ownerProjectId = o := by
  induction links generalizing access with
  | nil => exact absurd rfl h
  | cons link links ih =>
      by_cases howner : link.ownerProjectId = o
      · exact ⟨link, List.mem_cons_self .., howner⟩
      · unfold SharingContext.linkAccess at h
        rw [if_pos howner] at h
        obtain ⟨found, hfound, hmatch⟩ := ih h
        exact ⟨found, List.mem_cons_of_mem _ hfound, hmatch⟩

theorem reach_of_access {o : String} {tags : List String} {access : Access} (h : ctx.accessTo o tags = some access) :
    o ∈ ctx.reachableProjectIds := by
  rw [mem_reachableProjectIds]
  unfold SharingContext.accessTo at h
  cases hactive : ctx.callerActive with
  | false =>
      rw [hactive] at h
      cases h
  | true =>
      refine ⟨rfl, ?_⟩
      rw [hactive, Bool.not_true, if_neg Bool.false_ne_true] at h
      by_cases hown : o = ctx.callerProjectId
      · exact .inl hown
      · rw [if_neg hown] at h
        right
        apply linkAccess_reach
        rw [h]
        exact Option.some_ne_none access

/-! ## The tags of a page -/

/-- The rows that a statement joins to the rows of a table are gathered by key. -/
theorem gathered {ρ : Type} (key : ρ → String) (names : String → List String) {rows : List ρ}
    (hnodup : (rows.map key).Nodup) (k : String) :
    WikiDb.tagsOfPage (rows.flatMap fun r => (names (key r)).map fun name => (key r, name)) k =
      if k ∈ rows.map key then names k else [] := by
  unfold WikiDb.tagsOfPage
  induction rows with
  | nil => rfl
  | cons row rows ih =>
      obtain ⟨hnot, hnodup⟩ := List.nodup_cons.mp hnodup
      rw [List.flatMap_cons, List.filter_append, List.map_append, ih hnodup, List.map_cons]
      by_cases hkey : key row = k
      · have hall : ((names (key row)).map fun name => (key row, name)).filter (fun r => r.1 = k) =
            (names (key row)).map fun name => (key row, name) := by
          rw [List.filter_eq_self]
          intro r hr
          obtain ⟨name, -, rfl⟩ := List.mem_map.mp hr
          simpa using hkey
        subst hkey
        rw [hall, if_neg hnot, if_pos (List.mem_cons_self ..), List.append_nil, List.map_map]
        exact List.map_id _
      · have hnone : ((names (key row)).map fun name => (key row, name)).filter (fun r => r.1 = k) = [] := by
          rw [List.filter_eq_nil_iff]
          intro r hr
          obtain ⟨name, -, rfl⟩ := List.mem_map.mp hr
          simpa using hkey
        have hmem : k ∈ key row :: rows.map key ↔ k ∈ rows.map key := by
          rw [List.mem_cons]
          exact or_iff_right fun h => hkey h.symm
        rw [hnone, List.map_nil, List.nil_append]
        simp only [hmem]

theorem listPages_nodup (db : WikiDb) (projectIds : List String) :
    ((db.listPagesInProjects projectIds).map WikiPage.id).Nodup := by
  unfold WikiDb.listPagesInProjects
  exact db.pages.nodup.sublist ((List.filter_sublist ..).map _)

/-- The rows of the one statement hold for each page its own tags. -/
theorem tagsOfPage_eq {projectIds : List String} {page : WikiPage} (h : page ∈ db.listPagesInProjects projectIds) :
    WikiDb.tagsOfPage (db.pageTagsInProjects projectIds) page.id = db.pageTagNames page.id := by
  unfold WikiDb.pageTagsInProjects
  rw [gathered WikiPage.id db.pageTagNames (listPages_nodup db projectIds), if_pos (List.mem_map_of_mem h)]

/-! ## The collections -/

/-- **The listing** has a page with the tags and the access of a single look at it. -/
theorem mem_visiblePages {v : VisiblePage} : v ∈ db.visiblePages ctx ↔
    v.page ∈ db.pages.rows ∧ v.page.deleted = false ∧ v.tags = db.pageTagNames v.page.id ∧
      ctx.accessTo v.page.projectId v.tags = some v.access := by
  have hlisted : ∀ page, page ∈ db.listPagesInProjects ctx.reachableProjectIds ↔
      page ∈ db.pages.rows ∧ page.projectId ∈ ctx.reachableProjectIds ∧ page.deleted = false := by
    intro page
    unfold WikiDb.listPagesInProjects
    simp [List.mem_filter]
  unfold WikiDb.visiblePages
  dsimp only
  rw [List.mem_filterMap]
  constructor
  · rintro ⟨page, hpage, hv⟩
    obtain ⟨hrow, -, hlive⟩ := (hlisted page).mp hpage
    obtain ⟨access, haccess, rfl⟩ := Option.map_eq_some_iff.mp hv
    exact ⟨hrow, hlive, tagsOfPage_eq hpage, haccess⟩
  · rintro ⟨hrow, hlive, htags, haccess⟩
    have hpage := (hlisted v.page).mpr ⟨hrow, reach_of_access haccess, hlive⟩
    refine ⟨v.page, hpage, Option.map_eq_some_iff.mpr ⟨v.access, ?_, ?_⟩⟩
    · rw [tagsOfPage_eq hpage, ← htags]
      exact haccess
    · rw [tagsOfPage_eq hpage, ← htags]

theorem visiblePages_nodup (db : WikiDb) (ctx : SharingContext) :
    ((db.visiblePages ctx).map fun v => v.page.id).Nodup := by
  have hsub : ((db.visiblePages ctx).map fun v => v.page.id).Sublist
      ((db.listPagesInProjects ctx.reachableProjectIds).map WikiPage.id) := by
    unfold WikiDb.visiblePages
    dsimp only
    generalize db.pageTagsInProjects ctx.reachableProjectIds = rows
    induction db.listPagesInProjects ctx.reachableProjectIds with
    | nil => exact List.Sublist.slnil
    | cons page pages ih =>
        rw [List.filterMap_cons, List.map_cons]
        cases ctx.accessTo page.projectId (WikiDb.tagsOfPage rows page.id) with
        | none => exact ih.cons _
        | some access => exact ih.cons_cons _
  exact (listPages_nodup db _).sublist hsub

/-- **A single read** finds the page that has the slug, if the caller may read it. -/
theorem loadReadablePage_eq_some (hslugs : SlugsUnique db) {v : VisiblePage} :
    db.loadReadablePage ctx v.page.projectId v.page.slug = some v ↔ v ∈ db.visiblePages ctx := by
  rw [mem_visiblePages]
  unfold WikiDb.loadReadablePage
  rw [Option.bind_eq_some_iff]
  constructor
  · rintro ⟨page, hpage, hv⟩
    obtain ⟨access, haccess, rfl⟩ := Option.map_eq_some_iff.mp hv
    have hfound := List.find?_some hpage
    refine ⟨List.mem_of_find?_eq_some hpage, ?_, rfl, haccess⟩
    simpa using hfound
  · rintro ⟨hrow, hlive, htags, haccess⟩
    have hfind : db.pageBySlug? v.page.projectId v.page.slug = some v.page := by
      unfold WikiDb.pageBySlug?
      cases hfound : db.pages.rows.find? (fun p =>
          p.projectId = v.page.projectId && p.slug = v.page.slug && !p.deleted) with
      | none =>
          have hnot := List.find?_eq_none.mp hfound v.page hrow
          simp [hlive] at hnot
      | some page =>
          have hpage := List.find?_some hfound
          simp only [Bool.and_eq_true, decide_eq_true_eq, Bool.not_eq_true'] at hpage
          obtain ⟨⟨hproject, hslug⟩, hpagelive⟩ := hpage
          rw [hslugs page (List.mem_of_find?_eq_some hfound) v.page hrow hpagelive hlive hproject hslug]
    refine ⟨v.page, hfind, Option.map_eq_some_iff.mpr ⟨v.access, ?_, ?_⟩⟩
    · rw [← htags]
      exact haccess
    · rw [← htags]

/-! ## Tags, changes and the export -/

theorem pageTagNames_nodup (db : WikiDb) (pageId : String) : (db.pageTagNames pageId).Nodup := by
  unfold WikiDb.pageTagNames
  refine List.Nodup.map_on ?_ ((List.Nodup.of_map WikiTag.id db.tags.nodup).filter _)
  intro t ht t' ht' hname
  exact db.names t (List.mem_of_mem_filter ht) t' (List.mem_of_mem_filter ht') hname

/-- A tag is counted once for each page that carries it. -/
theorem count_tags (pages : List VisiblePage) (htags : ∀ v ∈ pages, v.tags.Nodup) (name : String) :
    (pages.flatMap VisiblePage.tags).count name = (pages.filter fun v => name ∈ v.tags).length := by
  induction pages with
  | nil => rfl
  | cons v pages ih =>
      have hrest := ih fun v hv => htags v (List.mem_cons_of_mem _ hv)
      have hhere := htags v (List.mem_cons_self ..)
      rw [List.flatMap_cons, List.count_append, hrest, List.filter_cons]
      by_cases hmem : name ∈ v.tags
      · rw [List.count_eq_one_of_mem hhere hmem, if_pos (decide_eq_true hmem), List.length_cons, Nat.add_comm]
      · rw [List.count_eq_zero_of_not_mem hmem, if_neg (by simpa using hmem), Nat.zero_add]

/-- **The tags** that are listed are those of the visible pages and of the caller's memberships, with their counts. -/
theorem mem_listTags {item : TagResponse} : item ∈ db.listTags ctx ↔
    ((∃ v ∈ db.visiblePages ctx, item.name ∈ v.tags) ∨ item.name ∈ db.membershipsOf ctx.callerProjectId) ∧
      item.pageCount = ((db.visiblePages ctx).filter fun v => item.name ∈ v.tags).length ∧
      item.tagId = (db.tagId? item.name).getD "" ∧
      item.shared = decide (item.name ∈ db.membershipsOf ctx.callerProjectId) := by
  have htags : ∀ v ∈ db.visiblePages ctx, v.tags.Nodup := by
    intro v hv
    rw [(mem_visiblePages.mp hv).2.2.1]
    exact pageTagNames_nodup db _
  have hname : ∀ name, name ∈ (((db.visiblePages ctx).flatMap VisiblePage.tags).dedup ++
      (db.membershipsOf ctx.callerProjectId).dedup.filter fun name =>
        name ∉ (db.visiblePages ctx).flatMap VisiblePage.tags).mergeSort (fun a b => a ≤ b) ↔
      (∃ v ∈ db.visiblePages ctx, name ∈ v.tags) ∨ name ∈ db.membershipsOf ctx.callerProjectId := by
    intro name
    rw [List.mem_mergeSort, List.mem_append, List.mem_dedup, List.mem_filter, List.mem_dedup, decide_eq_true_eq,
      List.mem_flatMap]
    by_cases hcounted : ∃ v ∈ db.visiblePages ctx, name ∈ v.tags
    · exact iff_of_true (.inl hcounted) (.inl hcounted)
    · rw [or_iff_right hcounted, or_iff_right hcounted, and_iff_left hcounted]
  unfold WikiDb.listTags
  dsimp only
  rw [List.mem_map]
  constructor
  · rintro ⟨name, hlisted, rfl⟩
    exact ⟨(hname name).mp hlisted, count_tags _ htags name, rfl, rfl⟩
  · rintro ⟨hlisted, hcount, hid, hshared⟩
    refine ⟨item.name, (hname item.name).mpr hlisted, ?_⟩
    rw [count_tags _ htags, ← hcount, ← hid, ← hshared]

/-- **The feed** has the selected revisions of the visible pages, unless the limit cuts it. -/
theorem mem_listChanges {selected : WikiPageRevision → Bool} {createdAt : WikiPageRevision → Nat} {limit : Nat}
    {r : WikiPageRevision} :
    (r ∈ db.listChanges ctx selected createdAt limit →
      r ∈ db.revisions ∧ selected r = true ∧ ∃ v ∈ db.visiblePages ctx, v.page.id = r.pageId) ∧
    ((db.listChanges ctx selected createdAt limit).length < limit → r ∈ db.revisions → selected r = true →
      (∃ v ∈ db.visiblePages ctx, v.page.id = r.pageId) → r ∈ db.listChanges ctx selected createdAt limit) := by
  have hreach : ∀ v ∈ db.visiblePages ctx, v.page.id ∈
      (db.listPagesInProjects ctx.reachableProjectIds).map WikiPage.id := by
    intro v hv
    obtain ⟨hrow, hlive, -, haccess⟩ := mem_visiblePages.mp hv
    refine List.mem_map_of_mem ?_
    unfold WikiDb.listPagesInProjects
    simp [List.mem_filter, hrow, hlive, reach_of_access haccess]
  unfold WikiDb.listChanges
  dsimp only
  constructor
  · intro hr
    have hr := List.mem_of_mem_take hr
    simp only [List.mem_filter, List.mem_mergeSort, Bool.and_eq_true, decide_eq_true_eq, List.mem_map] at hr
    exact ⟨hr.1.1, hr.1.2.2, hr.2⟩
  · rintro hshort hrow hselected ⟨v, hv, hid⟩
    rw [List.length_take] at hshort
    rw [List.take_of_length_le (by omega)]
    simp only [List.mem_filter, List.mem_mergeSort, Bool.and_eq_true, decide_eq_true_eq, List.mem_map]
    exact ⟨⟨hrow, by simpa [hid] using List.mem_map.mp (hreach v hv), hselected⟩, v, hv, hid⟩

/-- **The export** has the caller's own pages. -/
theorem mem_exportPages (hactive : ctx.callerActive = true) {page : WikiPage} :
    page ∈ db.exportPages ctx.callerProjectId ↔
      page.projectId = ctx.callerProjectId ∧ ⟨page, db.pageTagNames page.id, .readWrite⟩ ∈ db.visiblePages ctx := by
  rw [mem_visiblePages]
  unfold WikiDb.exportPages
  rw [List.mem_mergeSort, List.mem_filter]
  simp only [Bool.and_eq_true, decide_eq_true_eq, Bool.not_eq_true', true_and]
  constructor
  · rintro ⟨hrow, hown, hlive⟩
    refine ⟨hown, hrow, hlive, ?_⟩
    simp [SharingContext.accessTo, hactive, hown]
  · rintro ⟨hown, hrow, hlive, -⟩
    exact ⟨hrow, hown, hlive⟩

/-- **The collections of the wiki agree with its single reads.** For a caller whose project is active, in every state:
the listing has a page, once, with the tags and the access with which a read of its project and slug serves it, and it
has every page that a read serves; a tag is listed with the number of these pages that carry it, if one does or the
caller is a member; the feed has the selected revisions of these pages and no others, and all of them if the limit does
not cut it; and the export is what of these pages is the caller's own, which it may write. -/
theorem wiki_collections_agree (db : WikiDb) (P : String) (hslugs : SlugsUnique db) (hactive : db.isActive P = true) :
    (∀ v : VisiblePage, v ∈ db.visiblePages (db.contextInTx P) ↔
      db.loadReadablePage (db.contextInTx P) v.page.projectId v.page.slug = some v) ∧
    ((db.visiblePages (db.contextInTx P)).map fun v => v.page.id).Nodup ∧
    (∀ item, item ∈ db.listTags (db.contextInTx P) ↔
      ((∃ v ∈ db.visiblePages (db.contextInTx P), item.name ∈ v.tags) ∨ item.name ∈ db.membershipsOf P) ∧
        item.pageCount = ((db.visiblePages (db.contextInTx P)).filter fun v => item.name ∈ v.tags).length ∧
        item.tagId = (db.tagId? item.name).getD "" ∧ item.shared = decide (item.name ∈ db.membershipsOf P)) ∧
    (∀ selected createdAt limit r,
      (r ∈ db.listChanges (db.contextInTx P) selected createdAt limit →
        r ∈ db.revisions ∧ selected r = true ∧ ∃ v ∈ db.visiblePages (db.contextInTx P), v.page.id = r.pageId) ∧
      ((db.listChanges (db.contextInTx P) selected createdAt limit).length < limit → r ∈ db.revisions →
        selected r = true → (∃ v ∈ db.visiblePages (db.contextInTx P), v.page.id = r.pageId) →
          r ∈ db.listChanges (db.contextInTx P) selected createdAt limit)) ∧
    (∀ page, page ∈ db.exportPages P ↔ page.projectId = P ∧
      ⟨page, db.pageTagNames page.id, .readWrite⟩ ∈ db.visiblePages (db.contextInTx P)) := by
  refine ⟨fun v => (loadReadablePage_eq_some hslugs).symm, visiblePages_nodup db _, fun item => mem_listTags,
    fun selected createdAt limit r => mem_listChanges, fun page => ?_⟩
  have hexport := @mem_exportPages db (db.contextInTx P) hactive page
  exact hexport

/-! ### A tag that two projects share -/

/-- The owner has a page under the shared tag and one under a tag of its own, the reader has one under that other tag,
and both pages of the owner have been changed. -/
def libraryWiki : WikiDb :=
  { twoTagWiki [⟨"1", "t1", "owner", .readWrite, false⟩, ⟨"2", "t1", "reader", .read, false⟩] with
    pages := ⟨[⟨"g", "owner", "shared", "Shared", "text", 2, none, none, false⟩,
      ⟨"h", "owner", "secret", "Secret", "text", 2, none, none, false⟩,
      ⟨"k", "reader", "notes", "Notes", "text", 1, none, none, false⟩], by decide⟩
    pageTags := [⟨"g", "t1"⟩, ⟨"h", "t2"⟩, ⟨"k", "t2"⟩]
    revisions := [⟨"g", 1, "Shared", "old", none, none⟩, ⟨"h", 1, "Secret", "old", none, none⟩]
    pageTagTags := by decide
    pageTagPages := by decide }

theorem libraryWiki_slugs : SlugsUnique libraryWiki := by
  have hslug : (libraryWiki.pages.rows.map fun p => p.slug).Nodup := by decide
  intro p hp p' hp' _ _ _ heq
  exact List.inj_on_of_nodup_map hslug hp hp' heq

/-- The feed is no longer than the archive. -/
theorem listChanges_length_le (selected : WikiPageRevision → Bool) (createdAt : WikiPageRevision → Nat) (limit : Nat) :
    (db.listChanges ctx selected createdAt limit).length ≤ db.revisions.length := by
  unfold WikiDb.listChanges
  dsimp only
  rw [List.length_take]
  refine Nat.le_trans (Nat.min_le_right ..) (Nat.le_trans (List.length_filter_le ..) ?_)
  rw [List.length_mergeSort]
  exact List.length_filter_le ..

theorem wiki_collections_agree_library :
    let ctx := libraryWiki.contextInTx "reader"
    let feed := libraryWiki.listChanges ctx (fun _ => true) (fun _ => 0) 10
    ((libraryWiki.visiblePages ctx).map fun v => v.page.id) = ["g", "k"] ∧
      (∀ v, v.page.id = "h" → libraryWiki.loadReadablePage ctx v.page.projectId v.page.slug ≠ some v) ∧
      ⟨"one", "t1", 1, true⟩ ∈ libraryWiki.listTags ctx ∧ ⟨"two", "t2", 1, false⟩ ∈ libraryWiki.listTags ctx ∧
      ⟨"g", 1, "Shared", "old", none, none⟩ ∈ feed ∧ ⟨"h", 1, "Secret", "old", none, none⟩ ∉ feed ∧
      ∀ page ∈ libraryWiki.exportPages "reader", ⟨page, libraryWiki.pageTagNames page.id, .readWrite⟩ ∈
        libraryWiki.visiblePages ctx := by
  intro ctx feed
  obtain ⟨hread, -, htags, hfeed, hexport⟩ :=
    wiki_collections_agree libraryWiki "reader" libraryWiki_slugs (by decide)
  have hvisible : ((libraryWiki.visiblePages ctx).map fun v => v.page.id) = ["g", "k"] := by decide +kernel
  have hshown : ∀ id, (∃ v ∈ libraryWiki.visiblePages ctx, v.page.id = id) ↔ id = "g" ∨ id = "k" := by
    intro id
    rw [← List.mem_map, hvisible]
    simp
  refine ⟨hvisible, ?_, (htags _).mpr ?_, (htags _).mpr ?_, ?_, ?_, fun page hpage => ((hexport page).mp hpage).2⟩
  · intro v hv hserved
    have hid := (hshown "h").mp ⟨v, (hread v).mpr hserved, hv⟩
    revert hid
    decide
  · decide +kernel
  · decide +kernel
  · have hshort : feed.length < 10 := Nat.lt_of_le_of_lt (listChanges_length_le ..) (by decide)
    exact (hfeed _ _ _ _).2 hshort (List.mem_cons_self ..) rfl ((hshown "g").mpr (.inl rfl))
  · intro hsecret
    have hid := (hshown "h").mp ((hfeed _ _ _ _).1 hsecret).2.2
    revert hid
    decide

end AgentBeacon
