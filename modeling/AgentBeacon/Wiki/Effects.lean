import AgentBeacon.Wiki.Machine

/-!
# `Wiki.Effects` — what the parts of a request do to the tables

For each second part: what it leaves of pages and revisions, and what it does to the groups of the
wiki. Holding tags changes no group, for a new tag has no members.
-/

namespace AgentBeacon
open Relational Sharing Groups

variable {db db' : WikiDb} {uuid : String → String} {live : String → Bool}

/-! ## Holding tags -/

theorem tagName_of_tagId {name id : String} (h : db.tagId? name = some id) :
    db.tagName? id = some name := by
  obtain ⟨t, ht, rfl⟩ := Option.map_eq_some_iff.mp h
  have hname : t.name = name := by simpa using List.find?_some ht
  unfold WikiDb.tagName?
  rw [Table.find?_of_mem (List.mem_of_find?_eq_some ht), Option.map_some, hname]

theorem tagId_of_tagName {name id : String} (h : db.tagName? id = some name) :
    db.tagId? name = some id := by
  obtain ⟨t, ht, rfl⟩ := Option.map_eq_some_iff.mp h
  obtain ⟨hmem, rfl⟩ := Table.find?_eq_some.mp ht
  unfold WikiDb.tagId?
  cases hfind : db.tags.rows.find? fun t' => t'.name = t.name with
  | none => exact absurd (List.find?_eq_none.mp hfind t hmem) (by simp)
  | some t' =>
      have hname : t'.name = t.name := by simpa using List.find?_some hfind
      rw [Option.map_some, db.names t' (List.mem_of_find?_eq_some hfind) t hmem hname]

/-- A tag that is not there has no members. -/
theorem not_member_of_no_tag {t p : String} {ℓ : AccessLevel} (h : db.tagName? t = none) :
    ¬db.groups.member t p ℓ := by
  rintro ⟨m, hm, rfl, -, -, -⟩
  obtain ⟨tag, htag, hid⟩ := db.memberTags m hm
  rw [WikiDb.tagName?, ← hid, Table.find?_of_mem htag] at h
  cases h

/-- What holding tags does: it adds the missing ones. -/
structure Holds (db : WikiDb) (names : List String) (held : WikiDb) (heldTags : List (String × String)) :
    Prop where
  projects : held.projects = db.projects
  members : held.members = db.members
  pages : held.pages = db.pages
  pageTags : held.pageTags = db.pageTags
  revisions : held.revisions = db.revisions
  crossProjectWrites : held.crossProjectWrites = db.crossProjectWrites
  keeps : ∀ t name, db.tagName? t = some name → held.tagName? t = some name
  named : ∀ name id, (name, id) ∈ heldTags →
    name ∈ names ∧ (db.tagName? id = some name ∨ db.tagName? id = none)
  finds : ∀ t name, db.tagName? t = some name → name ∈ names → (name, t) ∈ heldTags

theorem Holds.groups {names : List String} {held : WikiDb} {heldTags : List (String × String)}
    (h : Holds db names held heldTags) : held.groups = db.groups := by
  unfold WikiDb.groups WikiDb.isActive WikiDb.activeProject? WikiDb.livePage?
  simp only [h.projects, h.members, h.pages, h.pageTags]

theorem holdTag_holds {id name tagId : String} (h : db.holdTag id name = some (db', tagId)) :
    Holds db [name] db' [(name, tagId)] := by
  unfold WikiDb.holdTag at h
  split at h
  · rename_i found hfound
    obtain ⟨rfl, rfl⟩ := Prod.mk.inj (Option.some.inj h)
    refine ⟨rfl, rfl, rfl, rfl, rfl, rfl, fun _ _ ht => ht, fun n i hin => ?_, fun t n ht hin => ?_⟩
    · obtain ⟨rfl, rfl⟩ := Prod.mk.inj (List.mem_singleton.mp hin)
      exact ⟨List.mem_singleton_self _, .inl (tagName_of_tagId hfound)⟩
    · obtain rfl := List.mem_singleton.mp hin
      obtain rfl := Option.some.inj (hfound.symm.trans (tagId_of_tagName ht))
      exact List.mem_singleton_self _
  · rename_i hmissing
    split at h
    · cases h
    · rename_i tags htags
      obtain ⟨rfl, rfl⟩ := Prod.mk.inj (Option.some.inj h)
      have hfind := Table.find?_insert? htags
      have hfresh : db.tags.find? id = none := (Table.insert?_eq_some htags).1
      refine ⟨rfl, rfl, rfl, rfl, rfl, rfl, fun t n ht => ?_, fun n i hin => ?_, fun t n ht hin => ?_⟩
      rotate_right
      · obtain rfl := List.mem_singleton.mp hin
        exact absurd (hmissing.symm.trans (tagId_of_tagName ht)) (by simp)
      · have hne : t ≠ id := by
          rintro rfl
          rw [WikiDb.tagName?, hfresh] at ht
          cases ht
        show (tags.find? t).map WikiTag.name = some n
        rw [hfind t]
        unfold WikiDb.tagName? at ht
        simp only [hne, if_false]
        exact ht
      · obtain ⟨rfl, rfl⟩ := Prod.mk.inj (List.mem_singleton.mp hin)
        refine ⟨List.mem_singleton_self _, .inr ?_⟩
        rw [WikiDb.tagName?, hfresh]
        rfl

theorem holdTags_holds {names : List String} {held : WikiDb} {heldTags : List (String × String)}
    (h : db.holdTags uuid names = some (held, heldTags)) : Holds db names held heldTags := by
  induction names generalizing db held heldTags with
  | nil =>
      obtain ⟨rfl, rfl⟩ := Prod.mk.inj (Option.some.inj h)
      exact ⟨rfl, rfl, rfl, rfl, rfl, rfl, fun _ _ ht => ht, fun _ _ hin => (nomatch hin),
        fun _ _ _ hin => (nomatch hin)⟩
  | cons name names ih =>
      unfold WikiDb.holdTags at h
      split at h
      · cases h
      · rename_i db₁ id hfirst
        split at h
        · cases h
        · rename_i db₂ rest hrest
          obtain ⟨rfl, rfl⟩ := Prod.mk.inj (Option.some.inj h)
          have h₁ := holdTag_holds hfirst
          have h₂ := ih hrest
          refine ⟨h₂.projects.trans h₁.projects, h₂.members.trans h₁.members, h₂.pages.trans h₁.pages,
            h₂.pageTags.trans h₁.pageTags, h₂.revisions.trans h₁.revisions,
            h₂.crossProjectWrites.trans h₁.crossProjectWrites,
            fun t n ht => h₂.keeps t n (h₁.keeps t n ht), fun n i hin => ?_, fun t n ht hin => ?_⟩
          rotate_right
          · rcases List.mem_cons.mp hin with rfl | hin
            · have hentry := h₁.finds t n ht (List.mem_singleton_self _)
              obtain ⟨-, rfl⟩ := Prod.mk.inj (List.mem_singleton.mp hentry)
              exact List.mem_cons_self
            · exact List.mem_cons_of_mem _ (h₂.finds t n (h₁.keeps t n ht) hin)
          rcases List.mem_cons.mp hin with heq | hin
          · obtain ⟨rfl, rfl⟩ := Prod.mk.inj heq
            exact ⟨List.mem_cons_self, (h₁.named n i (List.mem_singleton_self _)).2⟩
          · obtain ⟨hname, hid⟩ := h₂.named n i hin
            refine ⟨List.mem_cons_of_mem _ hname, ?_⟩
            rcases hid with hsome | hnone
            · -- a name keeps its tag, so before the first one it was either there or not
              cases hbefore : db.tagName? i with
              | none => exact .inr rfl
              | some n' =>
                  left
                  exact (h₁.keeps i n' hbefore).symm.trans hsome
            · right
              by_contra hsome
              obtain ⟨n', hn'⟩ := Option.ne_none_iff_exists'.mp hsome
              exact absurd ((h₁.keeps i n' hn').symm.trans hnone) (by simp)

/-- What a held tag is: one of the names that nobody sees yet, or a new one that has no members. -/
theorem Holds.unseen {names : List String} {held : WikiDb} {heldTags : List (String × String)}
    (h : Holds db names held heldTags) {name id owner : String} (hin : (name, id) ∈ heldTags)
    (hunseen : ∀ t, db.tagName? t = some name → ¬db.groups.Seen t owner) :
    ¬db.groups.Seen id owner := by
  rcases (h.named name id hin).2 with hsome | hnone
  · exact hunseen id hsome
  · rintro ⟨-, ⟨ℓ, hmem⟩, -⟩
    exact not_member_of_no_tag hnone hmem

/-! ## Pages and tags -/

/-- The tables but for pages, page tags and revisions. -/
structure SameFrame (db db' : WikiDb) : Prop where
  projects : db'.projects = db.projects
  members : db'.members = db.members
  tags : db'.tags = db.tags
  crossProjectWrites : db'.crossProjectWrites = db.crossProjectWrites

theorem SameFrame.refl (db : WikiDb) : SameFrame db db := ⟨rfl, rfl, rfl, rfl⟩

theorem SameFrame.trans {db'' : WikiDb} (h : SameFrame db db') (h' : SameFrame db' db'') :
    SameFrame db db'' :=
  ⟨h'.projects.trans h.projects, h'.members.trans h.members, h'.tags.trans h.tags,
    h'.crossProjectWrites.trans h.crossProjectWrites⟩

theorem SameFrame.active (h : SameFrame db db') (p : String) :
    db'.groups.active p ↔ db.groups.active p := by
  show db'.isActive p = true ↔ db.isActive p = true
  unfold WikiDb.isActive WikiDb.activeProject?
  rw [h.projects]

theorem SameFrame.member (h : SameFrame db db') (t p : String) (ℓ : AccessLevel) :
    db'.groups.member t p ℓ ↔ db.groups.member t p ℓ := by
  show (∃ m ∈ db'.members.rows, _) ↔ ∃ m ∈ db.members.rows, _
  rw [h.members]

theorem tagPage_effect {pageId tagId : String} (h : db.tagPage pageId tagId = some db') :
    SameFrame db db' ∧ db'.pages = db.pages ∧ db'.revisions = db.revisions ∧
      ∀ pt, pt ∈ db'.pageTags ↔ pt ∈ db.pageTags ∨ pt = ⟨pageId, tagId⟩ := by
  unfold WikiDb.tagPage at h
  split at h
  · split at h
    · rename_i hin
      obtain rfl := Option.some.inj h
      refine ⟨.refl _, rfl, rfl, fun pt => ?_⟩
      constructor
      · exact .inl
      · rintro (hpt | rfl)
        · exact hpt
        · exact hin
    · obtain rfl := Option.some.inj h
      exact ⟨⟨rfl, rfl, rfl, rfl⟩, rfl, rfl, fun pt => by simp⟩
  · cases h

theorem tagPageAll_effect {pageId : String} {ids : List String}
    (h : db.tagPageAll pageId ids = some db') :
    SameFrame db db' ∧ db'.pages = db.pages ∧ db'.revisions = db.revisions ∧
      ∀ pt, pt ∈ db'.pageTags ↔ pt ∈ db.pageTags ∨ pt.pageId = pageId ∧ pt.tagId ∈ ids := by
  induction ids generalizing db with
  | nil =>
      obtain rfl := Option.some.inj h
      exact ⟨.refl _, rfl, rfl, fun pt => by simp⟩
  | cons id ids ih =>
      obtain ⟨db₁, hfirst, hrest⟩ := Option.bind_eq_some_iff.mp h
      obtain ⟨hframe, hpages, hrevs, htags⟩ := tagPage_effect hfirst
      obtain ⟨hframe', hpages', hrevs', htags'⟩ := ih hrest
      refine ⟨hframe.trans hframe', hpages'.trans hpages, hrevs'.trans hrevs, fun pt => ?_⟩
      rw [htags', htags, List.mem_cons]
      obtain ⟨g, t⟩ := pt
      simp only [PageTag.mk.injEq]
      tauto

/-- **What creating a page does.** -/
theorem createCommit_effect (db : WikiDb) (uuid : String → String) (live : String → Bool)
    (req : PageCreation) : (db.createCommit uuid live req).2 = db ∨
    ∃ held heldTags page, db.materializeTags uuid (req.tags.getD []) = some (held, heldTags) ∧
      page.id = req.id ∧ page.projectId = req.projectId ∧ page.revisionNumber = 1 ∧
      page.deleted = false ∧
      SameFrame held (db.createCommit uuid live req).2 ∧
      held.pages.insert? page = some (db.createCommit uuid live req).2.pages ∧
      (db.createCommit uuid live req).2.revisions = held.revisions ∧
      ∀ pt, pt ∈ (db.createCommit uuid live req).2.pageTags →
        pt ∈ held.pageTags ∨ pt.pageId = req.id ∧ pt.tagId ∈ heldTags.map Prod.snd := by
  unfold WikiDb.createCommit
  split
  · exact .inl rfl
  · rename_i held heldTags hheld
    split
    · exact .inl rfl
    · split
      · exact .inl rfl
      · rename_i inserted hinserted
        split
        · exact .inl rfl
        · rename_i tagged htagged
          split
          · exact .inl rfl
          · rename_i found hfound
            split
            · exact .inl rfl
            · right
              unfold WikiDb.insertPage at hinserted
              split at hinserted
              · cases hinserted
              split at hinserted
              · cases hinserted
              rename_i pages hpages
              obtain rfl := Option.some.inj hinserted
              refine ⟨held, heldTags, ⟨req.id, req.projectId, req.slug, req.title, req.body, 1,
                req.createdBy, req.createdBy, false⟩, hheld, rfl, rfl, rfl, rfl, ?_⟩
              split at htagged
              · obtain ⟨hframe, hp, hrevs, htags⟩ := tagPageAll_effect htagged
                refine ⟨⟨hframe.projects, hframe.members, hframe.tags, hframe.crossProjectWrites⟩,
                  hpages.trans (congrArg some hp.symm), hrevs, fun pt hpt => ?_⟩
                rcases (htags pt).mp hpt with hold | hnew
                · exact .inl (List.mem_of_mem_filter hold)
                · exact .inr hnew
              · obtain rfl := Option.some.inj htagged
                exact ⟨⟨rfl, rfl, rfl, rfl⟩, hpages, rfl, fun pt hpt => .inl hpt⟩

/-- **What the writes of a change do**: the old title and body are archived under their number, and
the page has the next one. -/
theorem writeChange_effect {change : PageChange} {page : WikiPage} {newTitle newBody : String}
    {addedIds : List String}
    (h : db.writeChange change page newTitle newBody addedIds = some db') :
    SameFrame db db' ∧
      (∀ r ∈ db.revisions, ¬(r.pageId = page.id ∧ r.revisionNumber = page.revisionNumber)) ∧
      db'.revisions = db.revisions ++ [{
        pageId := page.id, revisionNumber := page.revisionNumber, title := page.title
        body := page.body, summary := change.summary, createdBy := change.updatedBy }] ∧
      db'.pages = (db.updatePage page.id page.revisionNumber newTitle newBody change.updatedBy).pages ∧
      ∀ pt, pt ∈ db'.pageTags → pt ∈ db.pageTags ∨ pt.pageId = page.id ∧ pt.tagId ∈ addedIds := by
  obtain ⟨archived, harchived, hrest⟩ := Option.bind_eq_some_iff.mp h
  obtain ⟨tagged, htagged, rfl⟩ := Option.map_eq_some_iff.mp hrest
  unfold WikiDb.insertRevision at harchived
  split at harchived
  · cases harchived
  rename_i hfresh
  obtain rfl := Option.some.inj harchived
  obtain ⟨hframe, hpages, hrevs, htags⟩ := tagPageAll_effect htagged
  refine ⟨⟨hframe.projects, hframe.members, hframe.tags, hframe.crossProjectWrites⟩, ?_, hrevs, hpages,
    fun pt hpt => ?_⟩
  · rintro r hr ⟨hid, hnumber⟩
    refine hfresh (List.any_eq_true.mpr ⟨r, hr, ?_⟩)
    simp [hid, hnumber]
  · exact (htags pt).mp (List.mem_of_mem_filter hpt)

/-- **What changing a page does**: nothing, unless it says that the page is updated. -/
theorem changeCommit_effect (db : WikiDb) (uuid : String → String) (live : String → Bool)
    (change : PageChange) (audiences : List PublicationAudience) :
    (db.changeCommit uuid live change audiences).1.isUpdated = false ∧
        (db.changeCommit uuid live change audiences).2 = db ∨
      ∃ held heldTags page newTitle newBody addedIds,
        db.materializeTags uuid change.addTags = some (held, heldTags) ∧
        held.lockPage change = .ok page ∧ (page.revisionNumber : Int) = change.expectedRevision ∧
        (∀ id ∈ addedIds, ∃ name, (name, id) ∈ heldTags ∧ ∀ a ∈ audiences, a.tagName ≠ name) ∧
        held.writeChange change page newTitle newBody addedIds =
          some (db.changeCommit uuid live change audiences).2 ∧
        (db.changeCommit uuid live change audiences).1.isUpdated = true := by
  unfold WikiDb.changeCommit
  split
  · exact .inl ⟨rfl, rfl⟩
  · rename_i held heldTags hheld
    split
    · rename_i refusal hrefused
      left
      cases refusal <;> exact ⟨rfl, rfl⟩
    · rename_i page hpage
      simp only
      split
      · exact .inl ⟨rfl, rfl⟩
      rename_i hrev
      split
      · exact .inl ⟨rfl, rfl⟩
      split
      · exact .inl ⟨rfl, rfl⟩
      split
      · exact .inl ⟨rfl, rfl⟩
      rename_i newBody hbody
      split
      · exact .inl ⟨rfl, rfl⟩
      rename_i howed
      split
      · exact .inl ⟨rfl, rfl⟩
      split
      · exact .inl ⟨rfl, rfl⟩
      rename_i written hwritten
      split
      · exact .inl ⟨rfl, rfl⟩
      split
      · exact .inl ⟨rfl, rfl⟩
      right
      refine ⟨held, heldTags, page, _, newBody, _, hheld, hpage, not_not.mp hrev, ?_, hwritten, rfl⟩
      intro id hid
      obtain ⟨⟨name, id'⟩, hentry, rfl⟩ := List.mem_map.mp hid
      obtain ⟨hin, hadded⟩ := List.mem_filter.mp hentry
      refine ⟨name, hin, fun a ha hname => howed ?_⟩
      rw [Bool.not_eq_true', List.isEmpty_eq_false_iff]
      refine List.ne_nil_of_mem (List.mem_filter.mpr ⟨ha, ?_⟩)
      rw [hname]
      exact hadded

end AgentBeacon
