import AgentBeacon.Lib.Sharing
import AgentBeacon.Wiki.Schema
import Mathlib.Algebra.GroupWithZero.Nat
import Mathlib.Data.List.Dedup

/-!
# `Wiki.Sharing` — who reaches whose pages, and what an operation would publish

The queries behind the wiki's rights, each a join of its own: the links of a caller, the pages it
reaches through other tags than one, the audience a tag would publish a page to, and the pages an
admission would expose. `WikiDb.groups` is the relation they all are about.
-/

namespace AgentBeacon
open Relational Sharing

/-! ## Members -/

/-- `Member`: an active membership of an active project. -/
structure Member where
  id : String
  projectId : String
  projectSlug : String
  accessLevel : AccessLevel

/-- `SharedTagLink`. -/
structure SharedTagLink where
  tagId : String
  tagName : String
  ownerProjectId : String
  accessLevel : AccessLevel

/-- `PublicationAudience`. -/
structure PublicationAudience where
  tagName : String
  members : List (String × String × AccessLevel)
  slugConflicts : List (String × String)

/-- One entry of `exposure_by_project`. -/
structure Exposure where
  project : String
  pageCount : Nat
  pages : List (String × String)

def pageSampleCap : Nat := 50

namespace WikiDb

variable (db : WikiDb)

/-- `active_members` and `active_members_in_tx`. -/
def activeMembers (tagId : String) : List Member :=
  ((db.membersOf tagId).filterMap fun m =>
    (db.activeProject? m.projectId).map fun p =>
      { id := m.id, projectId := m.projectId, projectSlug := p.slug.getD m.projectId
        accessLevel := m.accessLevel }).mergeSort
    fun a b => a.projectSlug ≤ b.projectSlug

/-- `active_member` and `active_member_in_tx`. -/
def activeMember (tagId projectId : String) : Option Member :=
  (db.activeMembers tagId).find? fun m => m.projectId = projectId

/-! ## Links and reach -/

/-- `SHARED_LINKS_SQL`. -/
def sharedLinks (projectId : String) : List SharedTagLink :=
  (db.members.rows.filter fun mine => mine.projectId = projectId && !mine.revoked).flatMap fun mine =>
    (db.members.rows.filter fun theirs => theirs.tagId = mine.tagId &&
      theirs.projectId ≠ mine.projectId && !theirs.revoked).flatMap fun theirs =>
      (db.tags.rows.filter fun t => t.id = mine.tagId &&
        db.isActive theirs.projectId && db.isActive mine.projectId).map fun t =>
        { tagId := t.id, tagName := t.name, ownerProjectId := theirs.projectId
          accessLevel := mine.accessLevel }

/-- `reachable_page_ids_in_tx`. -/
def reachablePageIds (projectId excludeTagId : String) (writeOnly : Bool) : List String :=
  (db.members.rows.filter fun mine => mine.projectId = projectId && !mine.revoked &&
    mine.tagId ≠ excludeTagId && (!writeOnly || mine.accessLevel = .readWrite)).flatMap fun mine =>
    (db.members.rows.filter fun theirs => theirs.tagId = mine.tagId &&
      theirs.projectId ≠ mine.projectId && !theirs.revoked &&
      db.isActive mine.projectId && db.isActive theirs.projectId).flatMap fun theirs =>
      (db.pageTags.filter fun pt => pt.tagId = mine.tagId).flatMap fun pt =>
        (db.pages.rows.filter fun p => p.id = pt.pageId && p.projectId = theirs.projectId &&
          !p.deleted).map WikiPage.id

/-! ## What an operation would publish -/

/-- `pages_carrying_tag_in_tx`. -/
def pagesCarryingTag (tagId : String) (projectIds : List String) : List WikiPage :=
  db.pages.rows.filter fun p =>
    ⟨p.id, tagId⟩ ∈ db.pageTags && p.projectId ∈ projectIds && !p.deleted

/-- `members_publishing_slug_in_tx`. -/
def membersPublishingSlug (slug tagId : String) (projectIds : List String) :
    List (String × String) :=
  ((db.pagesCarryingTag tagId projectIds).filter fun p =>
    p.slug = slug && db.isActive p.projectId).map fun p => (p.projectId, db.slugOf p.projectId)

/-- One round of `audiences_for_publication`, for the name and id of a tag. -/
def audienceOf (ownerProjectId pageSlug tagName tagId : String) : Option PublicationAudience :=
  let members := db.activeMembers tagId
  if members.any fun m => m.projectId = ownerProjectId then
    let others := members.filter fun m => m.projectId ≠ ownerProjectId
    if others.isEmpty then none
    else some {
      tagName
      members := others.map fun m => (m.projectId, m.projectSlug, m.accessLevel)
      slugConflicts := db.membersPublishingSlug pageSlug tagId (others.map Member.projectId) }
  else none

/-- `audiences_for_publication`. -/
def audiencesForPublication (ownerProjectId pageSlug : String) (held : List (String × String)) :
    List PublicationAudience :=
  held.filterMap fun (tagName, tagId) => db.audienceOf ownerProjectId pageSlug tagName tagId

/-- `exposure_by_project`: the pages carrying the tag that are not already visible, counted and, up
to a cap, listed by owning project. -/
def exposureByProject (tagId : String) (projectIds : List String) (slugs : String → Option String)
    (alreadyVisible : List String) : Nat × List Exposure :=
  let rows := (db.pagesCarryingTag tagId projectIds).filter fun p => p.id ∉ alreadyVisible
  let owners := ((rows.map WikiPage.projectId).dedup).mergeSort fun a b =>
    (slugs a).getD a ≤ (slugs b).getD b
  let entries := owners.map fun owner =>
    let pages := (rows.filter fun p => p.projectId = owner).mergeSort fun a b => a.slug ≤ b.slug
    { project := (slugs owner).getD owner, pageCount := pages.length
      pages := (pages.take pageSampleCap).map fun p => (p.slug, p.title) : Exposure }
  ((entries.map Exposure.pageCount).sum, entries)

/-! ## The relation -/

/-- Projects, live pages, unrevoked memberships and page tags. -/
def groups : Groups String String String AccessLevel where
  active p := db.isActive p = true
  owns p g := ∃ page, db.livePage? g = some page ∧ page.projectId = p
  member t p ℓ := ∃ m ∈ db.members.rows,
    m.tagId = t ∧ m.projectId = p ∧ m.revoked = false ∧ m.accessLevel = ℓ
  holds t g := ⟨g, t⟩ ∈ db.pageTags
  owner_unique := by
    rintro p q g ⟨page, hpage, rfl⟩ ⟨page', hpage', rfl⟩
    rw [Option.some.inj (hpage.symm.trans hpage')]

end WikiDb

/-- The levels that grant reading, or writing. -/
def Grants (writeOnly : Bool) (ℓ : AccessLevel) : Prop := writeOnly = true → ℓ = .readWrite

/-- Every level grants reading. -/
theorem grants_false (ℓ : AccessLevel) : Grants false ℓ := by
  intro h
  cases h

namespace WikiDb

variable {db : WikiDb}

theorem mem_livePage {g : String} {page : WikiPage} :
    db.livePage? g = some page ↔ page ∈ db.pages.rows ∧ page.id = g ∧ page.deleted = false := by
  unfold livePage?
  rw [Option.filter_eq_some_iff, Table.find?_eq_some]
  constructor
  · rintro ⟨⟨hmem, hid⟩, hlive⟩
    exact ⟨hmem, hid, by simpa using hlive⟩
  · rintro ⟨hmem, hid, hlive⟩
    exact ⟨⟨hmem, hid⟩, by simp [hlive]⟩

/-- **Whom `active_members` lists.** -/
theorem mem_activeMembers {tagId projectId : String} {ℓ : AccessLevel} :
    (∃ m ∈ db.activeMembers tagId, m.projectId = projectId ∧ m.accessLevel = ℓ) ↔
      db.groups.active projectId ∧ db.groups.member tagId projectId ℓ := by
  constructor
  · rintro ⟨m, hm, rfl, rfl⟩
    obtain ⟨row, hrow, hjoin⟩ := List.mem_filterMap.mp (List.mem_mergeSort.mp hm)
    obtain ⟨p, hp, rfl⟩ := Option.map_eq_some_iff.mp hjoin
    obtain ⟨hmem, hwhere⟩ := List.mem_filter.mp hrow
    rw [Bool.and_eq_true, decide_eq_true_eq, Bool.not_eq_true'] at hwhere
    refine ⟨?_, row, hmem, hwhere.1, rfl, hwhere.2, rfl⟩
    show (db.activeProject? row.projectId).isSome = true
    rw [hp]
    rfl
  · rintro ⟨hactive, row, hmem, rfl, rfl, hrev, rfl⟩
    obtain ⟨p, hp⟩ := Option.isSome_iff_exists.mp hactive
    have hin : row ∈ db.membersOf row.tagId := List.mem_filter.mpr ⟨hmem, by simp [hrev]⟩
    exact ⟨⟨row.id, row.projectId, p.slug.getD row.projectId, row.accessLevel⟩,
      List.mem_mergeSort.mpr (List.mem_filterMap.mpr
        ⟨row, hin, Option.map_eq_some_iff.mpr ⟨p, hp, rfl⟩⟩), rfl, rfl⟩

theorem mem_activeMembers_any {tagId projectId : String} :
    (∃ m ∈ db.activeMembers tagId, m.projectId = projectId) ↔
      db.groups.active projectId ∧ ∃ ℓ, db.groups.member tagId projectId ℓ := by
  constructor
  · rintro ⟨m, hm, hp⟩
    obtain ⟨hactive, hmem⟩ := mem_activeMembers.mp ⟨m, hm, hp, rfl⟩
    exact ⟨hactive, _, hmem⟩
  · rintro ⟨hactive, ℓ, hmem⟩
    obtain ⟨m, hm, hp, -⟩ := mem_activeMembers.mpr ⟨hactive, hmem⟩
    exact ⟨m, hm, hp⟩

theorem mem_pagesCarryingTag {tagId : String} {projectIds : List String} {page : WikiPage} :
    page ∈ db.pagesCarryingTag tagId projectIds ↔
      db.livePage? page.id = some page ∧ page.projectId ∈ projectIds ∧
        db.groups.holds tagId page.id := by
  rw [pagesCarryingTag, List.mem_filter, mem_livePage]
  show _ ∧ _ ↔ _ ∧ _ ∧ (⟨page.id, tagId⟩ : PageTag) ∈ db.pageTags
  simp only [Bool.and_eq_true, decide_eq_true_eq, Bool.not_eq_true', true_and]
  tauto

/-- **What `reachable_page_ids_in_tx` selects**: the right through another tag. -/
theorem mem_reachablePageIds {projectId excludeTagId g : String} {writeOnly : Bool} :
    g ∈ db.reachablePageIds projectId excludeTagId writeOnly ↔
      db.groups.RightBut (Grants writeOnly) excludeTagId projectId g := by
  constructor
  · intro h
    obtain ⟨mine, hmine, h⟩ := List.mem_flatMap.mp h
    obtain ⟨theirs, htheirs, h⟩ := List.mem_flatMap.mp h
    obtain ⟨pt, hpt, h⟩ := List.mem_flatMap.mp h
    obtain ⟨p, hp, rfl⟩ := List.mem_map.mp h
    simp only [List.mem_filter, Bool.and_eq_true, decide_eq_true_eq, Bool.not_eq_true', Bool.or_eq_true,
      ne_eq] at hmine htheirs hpt hp
    obtain ⟨hmine, ⟨⟨rfl, hrev⟩, hother⟩, hlevel⟩ := hmine
    obtain ⟨htheirs, ⟨⟨⟨htag, hne⟩, hrev'⟩, hcaller⟩, howner⟩ := htheirs
    obtain ⟨hpt, hcarried⟩ := hpt
    obtain ⟨hp, ⟨hid, hproject⟩, hlive⟩ := hp
    refine ⟨mine.tagId, hother, theirs.projectId, ⟨p, mem_livePage.mpr ⟨hp, rfl, hlive⟩, hproject⟩, hne,
      hcaller, howner, ⟨mine.accessLevel, ?_, mine, hmine, rfl, rfl, hrev, rfl⟩,
      ⟨theirs.accessLevel, theirs, htheirs, htag, rfl, hrev', rfl⟩, ?_⟩
    · intro hwrite
      simpa [hwrite] using hlevel
    · show (⟨p.id, mine.tagId⟩ : PageTag) ∈ db.pageTags
      rw [hid, ← hcarried]
      exact hpt
  · rintro ⟨t, hother, o, ⟨p, hp, hproject⟩, hne, hcaller, howner, ⟨ℓ, hℓ, mine, hmine, rfl, rfl, hrev, rfl⟩,
      ⟨ℓ', theirs, htheirs, htag, rfl, hrev', rfl⟩, hheld⟩
    obtain ⟨hmem, rfl, hlive⟩ := mem_livePage.mp hp
    have hcaller' : db.isActive mine.projectId = true := hcaller
    have howner' : db.isActive theirs.projectId = true := howner
    have hlevel : writeOnly = false ∨ mine.accessLevel = .readWrite := by
      cases hw : writeOnly with
      | false => exact .inl rfl
      | true => exact .inr (hℓ hw)
    refine List.mem_flatMap.mpr ⟨mine, ?_, List.mem_flatMap.mpr ⟨theirs, ?_, List.mem_flatMap.mpr
      ⟨⟨p.id, mine.tagId⟩, ?_, List.mem_map.mpr ⟨p, ?_, rfl⟩⟩⟩⟩
    · simp only [List.mem_filter, Bool.and_eq_true, decide_eq_true_eq, Bool.not_eq_true',
        Bool.or_eq_true, ne_eq]
      exact ⟨hmine, ⟨⟨trivial, hrev⟩, hother⟩, hlevel⟩
    · simp only [List.mem_filter, Bool.and_eq_true, decide_eq_true_eq, Bool.not_eq_true', ne_eq]
      exact ⟨htheirs, ⟨⟨⟨htag, hne⟩, hrev'⟩, hcaller'⟩, howner'⟩
    · exact List.mem_filter.mpr ⟨hheld, by simp⟩
    · simp only [List.mem_filter, Bool.and_eq_true, decide_eq_true_eq, Bool.not_eq_true']
      exact ⟨hmem, ⟨trivial, hproject⟩, hlive⟩

/-- **Nothing is exposed exactly when every page carrying the tag was visible already.** -/
theorem exposure_eq_zero {tagId : String} {projectIds : List String} {slugs : String → Option String}
    {visible : List String} :
    (db.exposureByProject tagId projectIds slugs visible).1 = 0 ↔
      ∀ page ∈ db.pagesCarryingTag tagId projectIds, page.id ∈ visible := by
  unfold exposureByProject
  simp only [List.map_map]
  rw [List.sum_eq_zero_iff_forall_eq_nat]
  constructor
  · intro h page hpage
    by_contra hhidden
    have hrow : page ∈ (db.pagesCarryingTag tagId projectIds).filter fun p => p.id ∉ visible :=
      List.mem_filter.mpr ⟨hpage, decide_eq_true hhidden⟩
    have howner := List.mem_dedup.mpr (List.mem_map_of_mem (f := WikiPage.projectId) hrow)
    have hzero := h _ (List.mem_map_of_mem (List.mem_mergeSort.mpr howner))
    simp only [Function.comp, List.length_mergeSort, List.length_eq_zero_iff, List.filter_eq_nil_iff] at hzero
    exact hzero page hrow (by simp)
  · intro h n hn
    obtain ⟨owner, howner, rfl⟩ := List.mem_map.mp hn
    obtain ⟨page, hrow, -⟩ := List.mem_map.mp (List.mem_dedup.mp (List.mem_mergeSort.mp howner))
    obtain ⟨hpage, hhidden⟩ := List.mem_filter.mp hrow
    exact absurd (h page hpage) (of_decide_eq_true hhidden)

/-- **Whom a tag would publish to**: nobody exactly when the tag's items of the owner are unseen. -/
theorem audience_unseen {ownerProjectId pageSlug name tagId : String} {held : List (String × String)}
    (h : ∀ a ∈ db.audiencesForPublication ownerProjectId pageSlug held, a.tagName ≠ name)
    (hheld : (name, tagId) ∈ held) : ¬db.groups.Seen tagId ownerProjectId := by
  rintro ⟨howner, hmember, p, hne, hp, hpmember⟩
  obtain ⟨m, hm, hmid⟩ := mem_activeMembers_any.mpr ⟨howner, hmember⟩
  obtain ⟨m', hm', hmid'⟩ := mem_activeMembers_any.mpr ⟨hp, hpmember⟩
  have hmem : (db.activeMembers tagId).any (fun m => m.projectId = ownerProjectId) = true :=
    List.any_eq_true.mpr ⟨m, hm, decide_eq_true hmid⟩
  have hother : m' ∈ (db.activeMembers tagId).filter fun m => m.projectId ≠ ownerProjectId :=
    List.mem_filter.mpr ⟨hm', by simp [hmid', hne]⟩
  have hothers : ((db.activeMembers tagId).filter fun m => m.projectId ≠ ownerProjectId).isEmpty = false :=
    List.isEmpty_eq_false_iff.mpr (List.ne_nil_of_mem hother)
  have haudience : ∃ a, db.audienceOf ownerProjectId pageSlug name tagId = some a ∧ a.tagName = name := by
    unfold audienceOf
    simp only [hmem, if_true, hothers, Bool.false_eq_true, if_false]
    exact ⟨_, rfl, rfl⟩
  obtain ⟨a, ha, hname⟩ := haudience
  exact h a (List.mem_filterMap.mpr ⟨(name, tagId), hheld, ha⟩) hname

end WikiDb

end AgentBeacon
