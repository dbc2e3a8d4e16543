import AgentBeacon.Wiki.Revisions

/-!
# `Correctness.Revisions` — the history of a page is complete

In every state of every run of interleaved wiki requests, the archive of a live page has the revisions
before the current one, each once and as they were; a revision is changed at most once; and a request
that is refused changes nothing.
-/

namespace AgentBeacon
open Relational Versions

variable {db : WikiDb} {s s' : WikiState} {e : WikiEvent}

/-- What is archived under a number is what the page had while it had that number. -/
theorem revision_content {db₀ : WikiDb} (hstart : db₀.Chained) (hrun : WikiRun db₀ s')
    (hlater : WikiSteps s s') {g : String} {page page' : WikiPage}
    (hpage : s.db.livePage? g = some page) (hpage' : s'.db.livePage? g = some page') :
    (page'.revisionNumber = page.revisionNumber → page'.title = page.title ∧ page'.body = page.body) ∧
      ∀ r ∈ s'.db.revisions, r.pageId = g → r.revisionNumber = page.revisionNumber →
        r.title = page.title ∧ r.body = page.body := by
  have hchained := hrun.chained hstart
  have hcurrent' := store_current (find_of_live hpage')
  have harchived : ∀ r ∈ s'.db.revisions,
      (⟨r.pageId, r.revisionNumber, r.title, r.body⟩ : Version String (String × String)) ∈
        s'.db.store.archive := fun r hr => List.mem_map.mpr ⟨r, hr, rfl⟩
  rcases hlater.follows.current g _ _ (store_current (find_of_live hpage)) with
    hsame | ⟨hin, k, c, hnow, hlt⟩
  · rw [hcurrent'] at hsame
    obtain ⟨hnumber, hcontent⟩ := Prod.mk.inj (Option.some.inj hsame)
    obtain ⟨htitle, hbody⟩ := Prod.mk.inj hcontent
    refine ⟨fun _ => ⟨htitle, hbody⟩, fun r hr hid hk => ?_⟩
    -- the current number is not archived
    have hmem : r.revisionNumber ∈ (s'.db.store.versionsOf g).map Version.number :=
      List.mem_map.mpr ⟨_, List.mem_filter.mpr ⟨harchived r hr, decide_eq_true hid⟩, rfl⟩
    have hrange := (Versions.Chained.numbers hchained g _ _ hcurrent').mem_iff.mp hmem
    rw [List.mem_range'_1] at hrange
    omega
  · rw [hcurrent'] at hnow
    obtain ⟨rfl, -⟩ := Prod.mk.inj (Option.some.inj hnow)
    refine ⟨fun hnumber => absurd hnumber (by omega), fun r hr hid hk => ?_⟩
    have hsame := Versions.Chained.version_unique hchained (harchived r hr) hin hid hk
    obtain ⟨-, -, hcontent⟩ := Version.mk.inj hsame
    exact Prod.mk.inj hcontent

/-- Every revision that a run has archived was current in one of its states. -/
theorem revision_origin {db₀ : WikiDb} (hrun : WikiRun db₀ s) {r : WikiPageRevision}
    (hr : r ∈ s.db.revisions) : r ∈ db₀.revisions ∨ ∃ s₁ page, WikiRun db₀ s₁ ∧ WikiSteps s₁ s ∧
      s₁.db.livePage? r.pageId = some page ∧ page.revisionNumber = r.revisionNumber ∧
      page.title = r.title ∧ page.body = r.body := by
  induction hrun with
  | start => exact .inl hr
  | @step s s' e hrun hs ih =>
      have hold (hr : r ∈ s.db.revisions) : r ∈ db₀.revisions ∨ ∃ s₁ page, WikiRun db₀ s₁ ∧
          WikiSteps s₁ s' ∧ s₁.db.livePage? r.pageId = some page ∧ page.revisionNumber = r.revisionNumber ∧
          page.title = r.title ∧ page.body = r.body := by
        rcases ih hr with hfirst | ⟨s₁, page, hrun₁, hsteps, hrest⟩
        · exact .inl hfirst
        · exact .inr ⟨s₁, page, hrun₁, hsteps.step hs, hrest⟩
      rcases hs.revisions with hsame | ⟨page, r', hlive, hnumber, htitle, hbody, hmore⟩
      · rw [hsame] at hr
        exact hold hr
      · rw [hmore] at hr
        rcases List.mem_append.mp hr with hr | hr
        · exact hold hr
        · obtain rfl := List.mem_singleton.mp hr
          exact .inr ⟨s, page, hrun, (WikiSteps.refl s).step hs, hlive, hnumber.symm, htitle.symm,
            hbody.symm⟩

/-- A change that lands has found the revision it expected, and leaves the page past it. -/
theorem updated_replaces {change : PageChange} {outcome : PageChangeOutcome}
    (hs : WikiStep s (.changed change outcome) s') (hupdated : outcome.isUpdated = true) :
    ∃ (k : Nat) (c : String × String), (k : Int) = change.expectedRevision ∧
      Replaces s.db.store s'.db.store change.expectedPageId k c := by
  cases hs with
  | @changeCommitted uuid live _ audiences =>
      rcases changeCommit_edit s.db uuid live change audiences with
        ⟨hnot, -⟩ | ⟨page, r, -, hexpected, -, -, -, -, -, -, hreplaces⟩
      · rw [hnot] at hupdated
        cases hupdated
      · exact ⟨page.revisionNumber, _, hexpected, hreplaces⟩

/-- A revision is changed at most once. -/
theorem expected_increases {change change' : PageChange} {outcome outcome' : PageChangeOutcome}
    {s₁ s₂ s₃ : WikiState} (hs : WikiStep s (.changed change outcome) s₁)
    (hlater : WikiSteps s₁ s₂) (hs' : WikiStep s₂ (.changed change' outcome') s₃)
    (hupdated : outcome.isUpdated = true) (hupdated' : outcome'.isUpdated = true)
    (hpage : change'.expectedPageId = change.expectedPageId) :
    change.expectedRevision < change'.expectedRevision := by
  obtain ⟨k, c, hk, hreplaces⟩ := updated_replaces hs hupdated
  obtain ⟨k', c', hk', hreplaces'⟩ := updated_replaces hs' hupdated'
  have hbefore := hreplaces'.before
  rw [hpage] at hbefore
  have hlt : k < k' := hreplaces.past hlater.follows hbefore
  omega

/-- A request that does not create a page changes nothing. -/
theorem createCommit_refused (db : WikiDb) (uuid : String → String) (live : String → Bool)
    (req : PageCreation) : (db.createCommit uuid live req).2 = db ∨
      ∃ page tags, (db.createCommit uuid live req).1 = .created page tags := by
  unfold WikiDb.createCommit
  split
  · exact .inl rfl
  · split
    · exact .inl rfl
    · split
      · exact .inl rfl
      · split
        · exact .inl rfl
        · split
          · exact .inl rfl
          · split
            · exact .inl rfl
            · exact .inr ⟨_, _, rfl⟩

theorem createPage_refused (db : WikiDb) (uuid : String → String) (live : String → Bool)
    (req : PageCreation) : (db.createPage uuid live req).2 = db ∨
      ∃ page tags, (db.createPage uuid live req).1 = .created page tags := by
  unfold WikiDb.createPage
  split
  · exact .inl rfl
  · exact createCommit_refused db uuid live req

/-- A request that does not change a page changes nothing. -/
theorem changeCommit_refused (db : WikiDb) (uuid : String → String) (live : String → Bool)
    (change : PageChange) (audiences : List PublicationAudience)
    (hrefused : (db.changeCommit uuid live change audiences).1.isUpdated = false) :
    (db.changeCommit uuid live change audiences).2 = db := by
  rcases changeCommit_edit db uuid live change audiences with
    ⟨-, hsame⟩ | ⟨page, r, -, -, hupdated, -⟩
  · exact hsame
  · rw [hrefused] at hupdated
    cases hupdated

theorem applyPageChange_refused (db : WikiDb) (uuid : String → String) (live : String → Bool)
    (change : PageChange) (hrefused : (db.applyPageChange uuid live change).1.isUpdated = false) :
    (db.applyPageChange uuid live change).2 = db := by
  unfold WikiDb.applyPageChange at hrefused ⊢
  cases hcheck : db.changeCheck uuid change with
  | none => rfl
  | some audiences =>
      rw [hcheck] at hrefused
      exact changeCommit_refused db uuid live change audiences hrefused

/-- **The history of every page is complete.** A wiki without pages is chained; and in every state of every
run from a chained one: a live page has the revisions `1` to the current one less
one in its archive, each once; what is archived under a number, here or later, is what the page had
under it, and was current before; of the changes with one expected revision at most one lands; and a
request that is not carried out leaves the tables as they were. -/
theorem revision_chain {db₀ : WikiDb} (hstart : db₀.Chained) (hrun : WikiRun db₀ s) :
    (∀ db : WikiDb, db.pages.rows = [] → db.revisions = [] → db.Chained) ∧
    (∀ g page, s.db.livePage? g = some page →
      ((s.db.revisionsOf g).map WikiPageRevision.revisionNumber).Perm
        (List.range' 1 (page.revisionNumber - 1))) ∧
    (∀ s', WikiSteps s s' → ∀ g page page', s.db.livePage? g = some page →
      s'.db.livePage? g = some page' →
      (page'.revisionNumber = page.revisionNumber →
        page'.title = page.title ∧ page'.body = page.body) ∧
      ∀ r ∈ s'.db.revisions, r.pageId = g → r.revisionNumber = page.revisionNumber →
        r.title = page.title ∧ r.body = page.body) ∧
    (∀ r ∈ s.db.revisions, r ∈ db₀.revisions ∨ ∃ s₁ page, WikiRun db₀ s₁ ∧ WikiSteps s₁ s ∧
      s₁.db.livePage? r.pageId = some page ∧ page.revisionNumber = r.revisionNumber ∧
      page.title = r.title ∧ page.body = r.body) ∧
    (∀ change change' outcome outcome' s₁ s₂ s₃, WikiStep s (.changed change outcome) s₁ →
      WikiSteps s₁ s₂ → WikiStep s₂ (.changed change' outcome') s₃ → outcome.isUpdated = true →
      change'.expectedPageId = change.expectedPageId →
      change'.expectedRevision = change.expectedRevision → outcome'.isUpdated = false) ∧
    (∀ uuid live change audiences, (s.db.changeCommit uuid live change audiences).1.isUpdated = false →
      (s.db.changeCommit uuid live change audiences).2 = s.db) ∧
    (∀ uuid live change, (s.db.applyPageChange uuid live change).1.isUpdated = false →
      (s.db.applyPageChange uuid live change).2 = s.db) ∧
    (∀ uuid live req, (∀ page tags, (s.db.createPage uuid live req).1 ≠ .created page tags) →
      (s.db.createPage uuid live req).2 = s.db) := by
  refine ⟨fun db => chained_of_no_pages, fun g page hpage => ?_, fun s' hlater g page page' hpage hpage' => ?_,
    fun r hr => ?_, ?_,
    fun uuid live change audiences => changeCommit_refused s.db uuid live change audiences,
    fun uuid live change => applyPageChange_refused s.db uuid live change, fun uuid live req hnot => ?_⟩
  · obtain ⟨hmem, rfl, -⟩ := WikiDb.mem_livePage.mp hpage
    exact (hrun.chained hstart).numbers hmem
  · exact revision_content hstart (hrun.later hlater) hlater hpage hpage'
  · exact revision_origin hrun hr
  · intro change change' outcome outcome' s₁ s₂ s₃ hs hlater hs' hupdated hpage hsame
    cases hupdated' : outcome'.isUpdated with
    | false => rfl
    | true =>
        have hlt := expected_increases hs hlater hs' hupdated hupdated' hpage
        omega
  · rcases createPage_refused s.db uuid live req with hsame | ⟨page, tags, hcreated⟩
    · exact hsame
    · exact absurd hcreated (hnot page tags)

/-- A wiki of one project, which has no pages yet. -/
def blankWiki : WikiDb where
  projects := ⟨[⟨"owner", some "owner", false⟩], by decide⟩
  tags := ⟨[], by decide⟩
  members := ⟨[], by decide⟩
  pages := ⟨[], by decide⟩
  pageTags := []
  revisions := []
  crossProjectWrites := none
  names := by simp
  edges := by simp
  memberTags := by simp
  pageTagTags := by simp
  pageTagPages := by simp

theorem orderedTagNames_nil : orderedTagNames [] = [] := List.mergeSort_nil

theorem materializeTags_nil (db : WikiDb) (uuid : String → String) :
    db.materializeTags uuid [] = some (db, []) := by
  rw [WikiDb.materializeTags, orderedTagNames_nil]
  rfl

/-- Its one page, at a revision with a body, and the archive. -/
def writtenWiki (number : Nat) (body : String) (archive : List WikiPageRevision) : WikiDb :=
  { blankWiki with
    pages := ⟨[⟨"g", "owner", "page", "Page", body, number, none, none, false⟩], by simp⟩
    revisions := archive
    pageTagPages := by simp [blankWiki] }

def archivedAs (number : Nat) (body : String) : WikiPageRevision := ⟨"g", number, "Page", body, none, none⟩

/-- Another body for the page at a revision. -/
def rewriting (expectedRevision : Int) (body : String) : PageChange where
  projectId := "owner"
  slug := "page"
  expectedPageId := "g"
  expectedRevision := expectedRevision
  title := none
  addTags := []
  removeTags := []
  summary := none
  updatedBy := none
  foreign := none
  acknowledgeShare := false
  transformBody := fun _ => .ok body

theorem changeCheck_rewriting (db : WikiDb) (number : Int) (body : String) :
    db.changeCheck id (rewriting number body) = some [] := by
  rw [WikiDb.changeCheck, show (rewriting number body).addTags = [] from rfl, materializeTags_nil]
  rfl

theorem rewriting_sharable (s : WikiState) (number : Int) (body : String) :
    s.Sharable (WikiPending.change (rewriting number body) []).heldNames := by
  intro p _ tagId name _ _ hmem
  rw [show (WikiPending.change (rewriting number body) []).heldNames = [] from orderedTagNames_nil] at hmem
  cases hmem

theorem writtenWiki_lands : ∃ page tags, (writtenWiki 1 "text" []).changeCommit id (fun _ => true)
    (rewriting 1 "one") [] = (.updated page tags, writtenWiki 2 "one" [archivedAs 1 "text"]) := by
  rw [WikiDb.changeCommit, show (rewriting 1 "one").addTags = [] from rfl, materializeTags_nil, orderedTagNames_nil]
  exact ⟨_, _, rfl⟩

theorem writtenWiki_conflicts : ∃ page tags, (writtenWiki 2 "one" [archivedAs 1 "text"]).changeCommit id
    (fun _ => true) (rewriting 1 "two") [] =
      (.revisionConflict page tags, writtenWiki 2 "one" [archivedAs 1 "text"]) := by
  rw [WikiDb.changeCommit, show (rewriting 1 "two").addTags = [] from rfl, materializeTags_nil, orderedTagNames_nil]
  exact ⟨_, _, rfl⟩

theorem writtenWiki_lands_again : ∃ page tags, (writtenWiki 2 "one" [archivedAs 1 "text"]).changeCommit id
    (fun _ => true) (rewriting 2 "three") [] =
      (.updated page tags, writtenWiki 3 "three" [archivedAs 1 "text", archivedAs 2 "one"]) := by
  rw [WikiDb.changeCommit, show (rewriting 2 "three").addTags = [] from rfl, materializeTags_nil, orderedTagNames_nil]
  exact ⟨_, _, rfl⟩

/-- Two changes of the first revision are under way at once, a further one follows, and then the page is deleted. -/
theorem revision_chain_contended : ∃ s₁ s₂ s₃ s₄ s₅ outcome outcome' outcome'' page, WikiRun blankWiki s₁ ∧
    WikiStep s₁ (.changed (rewriting 1 "one") outcome) s₂ ∧ outcome.isUpdated = true ∧
    WikiStep s₂ (.changed (rewriting 1 "two") outcome') s₃ ∧ outcome'.isUpdated = false ∧ s₃.db = s₂.db ∧
    WikiStep s₃ (.changed (rewriting 2 "three") outcome'') s₄ ∧
    s₄.db.livePage? "g" = some page ∧ page.revisionNumber = 3 ∧
    ((s₄.db.revisionsOf "g").map WikiPageRevision.revisionNumber).Perm [1, 2] ∧
    (∀ r ∈ s₄.db.revisions, r.pageId = "g" → r.revisionNumber = 1 → r.title = "Page" ∧ r.body = "text") ∧
    WikiStep s₄ .deleted s₅ ∧ (s₅.db.applyPageChange id (fun _ => true) (rewriting 3 "four")).2 = s₅.db := by
  have hstart : blankWiki.Chained := chained_of_no_pages rfl rfl
  obtain ⟨page₁, tags₁, hlands⟩ := writtenWiki_lands
  obtain ⟨page₂, tags₂, hconflicts⟩ := writtenWiki_conflicts
  obtain ⟨page₃, tags₃, hagain⟩ := writtenWiki_lands_again
  -- the page is created, and three changes are checked, two of them of its first revision
  have hchecked : blankWiki.createCheck id ⟨"g", "owner", "page", "Page", "text", none, none, false⟩ = none := by
    rw [WikiDb.createCheck, Option.getD_none, materializeTags_nil]
    rfl
  have hcreated : (blankWiki.createCommit id (fun _ => true)
      ⟨"g", "owner", "page", "Page", "text", none, none, false⟩).2 = writtenWiki 1 "text" [] := by
    rw [WikiDb.createCommit, Option.getD_none, materializeTags_nil]
    rfl
  have hempty : WikiRun blankWiki ⟨blankWiki, []⟩ := .start
  have hrun := (hempty.step (.createChecked id _ (fun _ hp => by cases hp) hchecked)).step
    (.createCommitted id (fun _ => true) (List.nil_append _).symm)
  rw [hcreated] at hrun
  have hrun := ((hrun.step (.changeChecked id (rewriting 1 "one") (rewriting_sharable _ _ _)
    (changeCheck_rewriting _ _ _))).step (.changeChecked id (rewriting 1 "two") (rewriting_sharable _ _ _)
    (changeCheck_rewriting _ _ _))).step (.changeChecked id (rewriting 2 "three") (rewriting_sharable _ _ _)
    (changeCheck_rewriting _ _ _))
  -- one after the other they commit
  have hfirst := WikiStep.changeCommitted (s := ⟨writtenWiki 1 "text" [], [.change (rewriting 1 "one") [],
    .change (rewriting 1 "two") [], .change (rewriting 2 "three") []]⟩) id (fun _ => true) (List.nil_append _).symm
  rw [hlands] at hfirst
  have hsecond := WikiStep.changeCommitted (s := ⟨writtenWiki 2 "one" [archivedAs 1 "text"],
    [.change (rewriting 1 "two") [], .change (rewriting 2 "three") []]⟩) id (fun _ => true) (List.nil_append _).symm
  rw [hconflicts] at hsecond
  have hthird := WikiStep.changeCommitted (s := ⟨writtenWiki 2 "one" [archivedAs 1 "text"],
    [.change (rewriting 2 "three") []]⟩) id (fun _ => true) (List.nil_append _).symm
  rw [hagain] at hthird
  have hlater := (((WikiSteps.refl _).step hfirst).step hsecond).step hthird
  have hdeleted := @WikiStep.pageDeleted ⟨writtenWiki 3 "three" [archivedAs 1 "text", archivedAs 2 "one"], []⟩
    (fun _ => true) "owner" "g" none _ rfl
  -- what the chain says of these states
  have hbefore := revision_chain hstart hrun
  have hafter := revision_chain hstart (((hrun.step hfirst).step hsecond).step hthird)
  have hend := revision_chain hstart ((((hrun.step hfirst).step hsecond).step hthird).step hdeleted)
  have hcontent := hbefore.2.2.1 _ hlater "g" _ _ rfl rfl
  refine ⟨_, _, _, _, _, _, _, _, _, hrun, hfirst, rfl, hsecond, ?_, rfl, hthird, rfl, rfl, ?_, ?_, hdeleted, ?_⟩
  · exact hbefore.2.2.2.2.1 _ _ _ _ _ _ _ hfirst (.refl _) hsecond rfl rfl rfl
  · exact hafter.2.1 "g" _ rfl
  · exact hcontent.2
  · apply hend.2.2.2.2.2.2.1
    rw [WikiDb.applyPageChange, changeCheck_rewriting]
    dsimp only
    rw [WikiDb.changeCommit, show (rewriting 3 "four").addTags = [] from rfl, materializeTags_nil]
    rfl

end AgentBeacon
