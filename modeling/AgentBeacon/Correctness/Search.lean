import AgentBeacon.Correctness.Revisions
import AgentBeacon.Wiki.Documents

/-!
# `Correctness.Search` — when the search index converges

The tables are the primary of the search index. Every update that is committed leaves another document
than those of its page before it: a change a later revision, a deletion none, after which no other is
committed. So once all requests are done, the index is that of the tables exactly when of every page
the request that committed last was the last to write. Nothing sees to that: the write of an older revision
that comes late replaces a newer one, or brings a deleted page back.
-/

namespace AgentBeacon
open Relational Replica

variable {σ : Type} {writer : IndexWriter σ} {db db' db₀ : WikiDb} {index₀ : σ} {g : String}
  {commits writes : List (Update String Document)} {s s' : IndexedWiki σ} {e : IndexEvent}

theorem pageId_of_document {d : Document} (h : db.document? g = some d) : d.pageId = g := by
  obtain ⟨⟨page, tags⟩, hread, rfl⟩ := Option.map_eq_some_iff.mp h
  obtain ⟨row, hrow, hpair⟩ := Option.map_eq_some_iff.mp hread
  obtain ⟨rfl, -⟩ := Prod.mk.inj hpair
  exact (WikiDb.mem_livePage.mp hrow).2.1

/-- The server starts with the index of its tables. -/
theorem rebuildAll_converged (writer : IndexWriter σ) (db : WikiDb) (index : σ) :
    Converged writer db (writer.rebuildAll db index) := by
  have hadds : ∀ (pages : List WikiPage) (index : σ) (d : Document), writer.Finds
      (pages.foldl (fun index page =>
        writer.addDocument (buildDocument page (db.pageTagNames page.id)) index) index) d ↔
      writer.Finds index d ∨ ∃ page ∈ pages, d = buildDocument page (db.pageTagNames page.id) := by
    intro pages
    induction pages with
    | nil => simp
    | cons page pages ih =>
        intro index d
        rw [List.foldl_cons, ih, writer.finds_addDocument, List.exists_mem_cons_iff, or_assoc]
  intro d
  unfold IndexWriter.rebuildAll
  rw [hadds]
  constructor
  · rintro (hnone | ⟨page, hpage, rfl⟩)
    · exact absurd hnone (writer.finds_deleteAll _ _)
    · obtain ⟨hmem, hlive⟩ := List.mem_filter.mp hpage
      exact document_of_row (Table.find?_of_mem hmem) (by simpa using hlive)
  · intro hdocument
    obtain ⟨⟨page, tags⟩, hread, hbuilt⟩ := Option.map_eq_some_iff.mp hdocument
    obtain ⟨row, hrow, hpair⟩ := Option.map_eq_some_iff.mp hread
    obtain ⟨rfl, rfl⟩ := Prod.mk.inj hpair
    obtain ⟨hmem, hid, hlive⟩ := WikiDb.mem_livePage.mp hrow
    rw [← hid] at hbuilt
    exact .inr ⟨row, List.mem_filter.mpr ⟨hmem, by simp [hlive]⟩, hbuilt.symm⟩

/-! ## One commit -/

/-- What a commit that is to be written does to the tables. -/
structure Commits (db db' : WikiDb) (u : Update String Document) : Prop where
  document : db'.document? u.key = u.value
  others : ∀ g, g ≠ u.key → SamePage db db' g
  /-- The page is there, and no older than the document. -/
  row : ∃ row, db'.pages.find? u.key = some row ∧ (u.value = none → row.deleted = true) ∧
    (∀ d, u.value = some d → d.revisionNumber ≤ row.revisionNumber) ∧
    ∀ old, db.pages.find? u.key = some old → old.deleted = false ∧
      old.revisionNumber ≤ row.revisionNumber ∧
      ∀ d, u.value = some d → old.revisionNumber < d.revisionNumber

theorem IndexStep.commit {number : Nat} {task : IndexTask}
    (hs : IndexStep writer number s (.committed task) s') :
    Commits s.wiki.db s'.wiki.db (task.update number) ∧ s'.owed = s.owed ++ [(number, task)] ∧
      s'.index = s.index := by
  cases hs with
  | @pageCreated uuid live req before after page tags db h hcommit =>
      obtain ⟨hfresh, hrow, hdocument, hothers⟩ := created_documents hcommit
      refine ⟨⟨hdocument, hothers, page, hrow, fun h => ?_, fun d hd => ?_, fun old hold => ?_⟩, rfl, rfl⟩
      · cases h
      · obtain rfl := Option.some.inj hd
        exact Nat.le_refl _
      · exact absurd (hfresh.symm.trans hold) (by simp)
  | @pageChanged uuid live change audiences before after page tags db h hcommit =>
      obtain ⟨⟨old, hold, hlive, hnext⟩, hrow, -, hdocument, hothers⟩ := changed_documents hcommit
      refine ⟨⟨hdocument, hothers, page, hrow, fun h => ?_, fun d hd => ?_, fun old' hold' => ?_⟩, rfl, rfl⟩
      · cases h
      · obtain rfl := Option.some.inj hd
        exact Nat.le_refl _
      · obtain rfl := Option.some.inj (hold.symm.trans hold')
        refine ⟨hlive, by omega, fun d hd => ?_⟩
        obtain rfl := Option.some.inj hd
        show old.revisionNumber < page.revisionNumber
        omega
  | @pageDeleted live projectId pageId sessionId db h =>
      obtain ⟨⟨old, hold, hlive, hrow⟩, hdocument, hothers⟩ := deleted_documents h
      refine ⟨⟨hdocument, hothers, _, hrow, fun _ => rfl, fun d hd => ?_, fun old' hold' => ?_⟩, rfl, rfl⟩
      · cases hd
      · obtain rfl := Option.some.inj (hold.symm.trans hold')
        refine ⟨hlive, Nat.le_refl _, fun d hd => ?_⟩
        cases hd

/-! ## Runs -/

/-- What holds between a run and its state: the tables are what the commits left, the index is what the
writes left, and what was committed is written or owed. -/
structure Tracks (writer : IndexWriter σ) (db₀ : WikiDb) (commits writes : List (Update String Document))
    (s : IndexedWiki σ) : Prop where
  primary : ∀ g, s.wiki.db.document? g = valueAfter db₀.document? commits g
  replica : ∀ d : Document, writer.Finds s.index d ↔ valueAfter db₀.document? writes d.pageId = some d
  differs : commits.Pairwise Differs
  numbered : ∀ u ∈ commits, u.number < commits.length
  owed : ∀ p ∈ s.owed, p.2.update p.1 ∈ commits
  sound : ∀ u ∈ writes, u ∈ commits
  complete : ∀ u ∈ commits, u ∈ writes ∨ ∃ p ∈ s.owed, p.2.update p.1 = u
  keyed : ∀ u ∈ commits, ∀ d, u.value = some d → d.pageId = u.key
  /-- The page of an update is there: it is not younger than the document, and deleted when that was removed. -/
  aged : ∀ u ∈ commits, ∃ row, s.wiki.db.pages.find? u.key = some row ∧
    (u.value = none → row.deleted = true) ∧
    ∀ d, u.value = some d → d.revisionNumber ≤ row.revisionNumber

theorem IndexTask.keyed (task : IndexTask) (number : Nat) (d : Document)
    (h : (task.update number).value = some d) : d.pageId = (task.update number).key := by
  cases task with
  | index page tags =>
      obtain rfl := Option.some.inj h
      rfl
  | remove pageId => cases h

/-- A write of the index replaces the document of its page. -/
theorem finds_apply (task : IndexTask) (number : Nat) (index : σ) (d : Document) :
    writer.Finds (task.apply writer index) d ↔
      if d.pageId = (task.update number).key then (task.update number).value = some d
      else writer.Finds index d := by
  cases task with
  | index page tags =>
      show writer.Finds (writer.addDocument _ (writer.deleteTerm page.id index)) d ↔
        if d.pageId = page.id then some (buildDocument page tags) = some d else writer.Finds index d
      rw [writer.finds_addDocument, writer.finds_deleteTerm]
      by_cases hkey : d.pageId = page.id
      · rw [if_pos hkey, Option.some.injEq]
        constructor
        · rintro (⟨-, hother⟩ | heq)
          · exact absurd hkey hother
          · exact heq.symm
        · intro heq
          exact .inr heq.symm
      · rw [if_neg hkey]
        constructor
        · rintro (⟨hfinds, -⟩ | rfl)
          · exact hfinds
          · exact absurd rfl hkey
        · intro hfinds
          exact .inl ⟨hfinds, hkey⟩
  | remove pageId =>
      show writer.Finds (writer.deleteTerm pageId index) d ↔
        if d.pageId = pageId then none = some d else writer.Finds index d
      rw [writer.finds_deleteTerm]
      by_cases hkey : d.pageId = pageId
      · rw [if_pos hkey]
        constructor
        · rintro ⟨-, hother⟩
          exact absurd hkey hother
        · intro h
          cases h
      · rw [if_neg hkey]
        exact ⟨And.left, fun hfinds => ⟨hfinds, hkey⟩⟩

theorem Tracks.commit {task : IndexTask} (h : Tracks writer db₀ commits writes s)
    (hs : IndexStep writer commits.length s (.committed task) s') :
    Tracks writer db₀ (task.update commits.length :: commits) writes s' := by
  obtain ⟨⟨hdocument, hothers, row, hrow, hdeleted, hnewest, hgrows⟩, howed, hindex⟩ := hs.commit
  have hnumber : (task.update commits.length).number = commits.length := by
    cases task <;> rfl
  generalize hu : task.update commits.length = u at *
  -- an earlier update of the page is of an older document: a page that was deleted does not come back
  have hother : ∀ v ∈ commits, v.key = u.key → ∃ d, v.value = some d ∧ d.revisionNumber ≤ row.revisionNumber ∧
      ∀ d', u.value = some d' → d.revisionNumber < d'.revisionNumber := by
    intro v hv hkey
    obtain ⟨old, hold, hremoved, hnot⟩ := h.aged v hv
    rw [hkey] at hold
    obtain ⟨hlive, hle, hlater⟩ := hgrows old hold
    cases hvalue : v.value with
    | none => exact absurd (hremoved hvalue) (by simp [hlive])
    | some d =>
        have hd := hnot d hvalue
        exact ⟨d, rfl, Nat.le_trans hd hle, fun d' hd' => Nat.lt_of_le_of_lt hd (hlater d' hd')⟩
  constructor
  -- the tables, the index, the numbers, what is owed, and the page of the new update
  · intro g
    by_cases hg : g = u.key
    · rw [hg, hdocument, valueAfter_cons_self]
    · rw [(hothers g hg).document, h.primary, valueAfter_cons_of_ne hg]
  · rw [hindex]
    exact h.replica
  · refine List.pairwise_cons.mpr ⟨fun v hv => ⟨?_, fun hkey heq => ?_⟩, h.differs⟩
    · rw [hnumber]
      exact h.numbered v hv
    · obtain ⟨d, hd, -, hlater⟩ := hother v hv hkey
      have hlt := hlater d (heq ▸ hd)
      omega
  · intro v hv
    rw [List.length_cons]
    rcases List.mem_cons.mp hv with rfl | hv
    · omega
    · exact Nat.lt_succ_of_lt (h.numbered v hv)
  · intro p hp
    rw [howed] at hp
    rcases List.mem_append.mp hp with hp | hp
    · exact List.mem_cons_of_mem _ (h.owed p hp)
    · obtain rfl := List.mem_singleton.mp hp
      rw [hu]
      exact List.mem_cons_self
  · intro v hv
    exact List.mem_cons_of_mem _ (h.sound v hv)
  · intro v hv
    rw [howed]
    rcases List.mem_cons.mp hv with rfl | hv
    · exact .inr ⟨_, List.mem_append_right _ (List.mem_singleton_self _), hu⟩
    · rcases h.complete v hv with hwritten | ⟨p, hp, heq⟩
      · exact .inl hwritten
      · exact .inr ⟨p, List.mem_append_left _ hp, heq⟩
  · intro v hv d hd
    rcases List.mem_cons.mp hv with rfl | hv
    · rw [← hu] at hd ⊢
      exact task.keyed _ d hd
    · exact h.keyed v hv d hd
  · intro v hv
    rcases List.mem_cons.mp hv with rfl | hv
    · exact ⟨row, hrow, hdeleted, hnewest⟩
    · by_cases hkey : v.key = u.key
      · obtain ⟨d, hd, hle, -⟩ := hother v hv hkey
        rw [hkey]
        refine ⟨row, hrow, fun hnone => ?_, fun d' hd' => ?_⟩
        · rw [hd] at hnone
          cases hnone
        · obtain rfl := Option.some.inj (hd.symm.trans hd')
          exact hle
      · rw [(hothers v.key hkey).row]
        exact h.aged v hv

theorem Tracks.quiet (h : Tracks writer db₀ commits writes s)
    (hs : IndexStep writer commits.length s .quiet s') : Tracks writer db₀ commits writes s' := by
  cases hs with
  | quietly hstep hquiet =>
      have hsame : ∀ g, SamePage s.wiki.db _ g := fun g => quiet_documents hstep hquiet
      refine { h with primary := fun g => ?_, aged := fun u hu => ?_ }
      · exact (hsame g).document.trans (h.primary g)
      · obtain ⟨row, hrow, hrest⟩ := h.aged u hu
        exact ⟨row, (hsame u.key).row.trans hrow, hrest⟩

theorem Tracks.write {number : Nat} {task : IndexTask} (h : Tracks writer db₀ commits writes s)
    (hs : IndexStep writer commits.length s (.wrote number task) s') :
    Tracks writer db₀ commits (task.update number :: writes) s' := by
  cases hs with
  | @written _ _ before after howed =>
      refine { h with replica := fun d => ?_, owed := fun p hp => ?_, sound := fun u hu => ?_,
                      complete := fun u hu => ?_ }
      -- only the document of its page is replaced
      · rw [finds_apply task number s.index d]
        by_cases hkey : d.pageId = (task.update number).key
        · rw [if_pos hkey, hkey, valueAfter_cons_self]
        · rw [if_neg hkey, valueAfter_cons_of_ne hkey]
          exact h.replica d
      · refine h.owed p ?_
        rw [howed]
        rcases List.mem_append.mp hp with hp | hp
        · exact List.mem_append_left _ hp
        · exact List.mem_append_right _ (List.mem_cons_of_mem _ hp)
      · rcases List.mem_cons.mp hu with rfl | hu
        · exact h.owed (number, task) (howed ▸ List.mem_append_right _ List.mem_cons_self)
        · exact h.sound u hu
      · rcases h.complete u hu with hwritten | ⟨p, hp, rfl⟩
        · exact .inl (List.mem_cons_of_mem _ hwritten)
        · rw [howed] at hp
          rcases List.mem_append.mp hp with hp | hp
          · exact .inr ⟨p, List.mem_append_left _ hp, rfl⟩
          · rcases List.mem_cons.mp hp with rfl | hp
            · exact .inl List.mem_cons_self
            · exact .inr ⟨p, List.mem_append_right _ hp, rfl⟩

theorem IndexRun.tracks (hstart : Converged writer db₀ index₀)
    (hrun : IndexRun writer db₀ index₀ commits writes s) : Tracks writer db₀ commits writes s := by
  induction hrun with
  | start =>
      constructor
      · exact fun _ => rfl
      · exact hstart
      · exact List.Pairwise.nil
      all_goals simp
  | @step commits writes s s' e hrun hs ih =>
      cases e with
      | quiet => exact ih.quiet hs
      | committed task => exact ih.commit hs
      | wrote number task => exact ih.write hs

/-- **When the search index converges.** Any number of wiki requests run concurrently, from a state whose
index is that of the tables. Once all that have committed have written the index, it is that of the tables if and
only if of every page the last to commit was the last to write. -/
theorem index_converges_iff (hstart : Converged writer db₀ index₀)
    (hrun : IndexRun writer db₀ index₀ commits writes s) (hdone : s.owed = []) :
    Converged writer s.wiki.db s.index ↔ LastWritten commits writes := by
  have htracks := hrun.tracks hstart
  have hcomplete : ∀ u ∈ commits, u ∈ writes := by
    intro u hu
    rcases htracks.complete u hu with hwritten | ⟨p, hp, -⟩
    · exact hwritten
    · rw [hdone] at hp
      cases hp
  rw [← valueAfter_eq_iff db₀.document? htracks.differs htracks.sound hcomplete]
  -- the index is looked up by document, the tables by page
  have hkeyed : ∀ g d, valueAfter db₀.document? writes g = some d → d.pageId = g := by
    intro g d hd
    unfold valueAfter at hd
    cases hlast : last writes g with
    | none =>
        rw [hlast] at hd
        exact pageId_of_document hd
    | some u =>
        rw [hlast] at hd
        exact (htracks.keyed u (htracks.sound u (mem_of_last hlast)) d hd).trans (key_of_last hlast)
  constructor
  · intro hconverged g
    refine Option.ext fun d => ?_
    constructor
    · intro hd
      obtain rfl := hkeyed g d hd
      rw [← htracks.primary]
      exact (hconverged d).mp ((htracks.replica d).mpr hd)
    · intro hd
      rw [← htracks.primary] at hd
      obtain rfl := pageId_of_document hd
      exact (htracks.replica d).mp ((hconverged d).mpr hd)
  · intro hvalues d
    rw [htracks.replica, hvalues, htracks.primary]

/-- An index that is a list of documents. -/
def listWriter : IndexWriter (List Document) where
  Finds index d := d ∈ index
  deleteTerm pageId index := index.filter fun d => d.pageId ≠ pageId
  addDocument document index := index ++ [document]
  deleteAll _ := []
  finds_deleteTerm pageId index d := by simp
  finds_addDocument document index d := by simp
  finds_deleteAll index d := by simp

/-- The page that is created, and what its request has in hand. -/
def firstPage : WikiPage := ⟨"g", "owner", "page", "Page", "text", 1, none, none, false⟩

def pageRequest : PageCreation := ⟨"g", "owner", "page", "Page", "text", none, none, false⟩

/-- The page is created and deleted; neither request has written the index. -/
theorem createdAndDeleted_run : ∃ db, db.document? "g" = none ∧
    IndexRun listWriter blankWiki [] [⟨1, "g", none⟩, ⟨0, "g", some (buildDocument firstPage [])⟩] []
      ⟨⟨db, []⟩, [(0, .index firstPage []), (1, .remove "g")], []⟩ := by
  have hchecked : blankWiki.createCheck id pageRequest = none := by
    rw [WikiDb.createCheck, pageRequest, Option.getD_none, materializeTags_nil]
    rfl
  have hcreated : blankWiki.createCommit id (fun _ => true) pageRequest =
      (.created firstPage [], (blankWiki.createCommit id (fun _ => true) pageRequest).2) := by
    rw [WikiDb.createCommit, pageRequest, Option.getD_none, materializeTags_nil]
    rfl
  have hdeleted : ((blankWiki.createCommit id (fun _ => true) pageRequest).2.deletePage
      (fun _ => true) "owner" "g" none).isSome := by
    rw [WikiDb.createCommit, pageRequest, Option.getD_none, materializeTags_nil]
    rfl
  obtain ⟨db, hdb⟩ := Option.isSome_iff_exists.mp hdeleted
  have hstart : IndexRun listWriter blankWiki [] [] [] ⟨⟨blankWiki, []⟩, [], []⟩ := .start
  have hlock : (WikiState.mk blankWiki []).Sharable (WikiPending.create pageRequest).heldNames := by
    intro p hp
    cases hp
  have hrun₁ := hstart.step (.quietly (.createChecked id pageRequest hlock hchecked) rfl)
  have hrun₂ := hrun₁.step (.pageCreated id (fun _ => true) (List.nil_append _).symm hcreated)
  have hrun₃ := hrun₂.step (.pageDeleted (fun _ => true) hdb)
  exact ⟨db, (deleted_documents hdb).2.1, hrun₃⟩

/-- The requests write the index in the order in which they committed: the index is empty. -/
theorem index_converges_in_order : ∃ commits writes s,
    IndexRun listWriter blankWiki [] commits writes s ∧ s.owed = [] ∧ commits ≠ [] ∧
      Converged listWriter s.wiki.db s.index := by
  obtain ⟨db, -, hrun⟩ := createdAndDeleted_run
  have hrun₁ := hrun.step (.written (List.nil_append _).symm)
  have hrun₂ := hrun₁.step (.written (List.nil_append _).symm)
  have hstart : Converged listWriter blankWiki [] := rebuildAll_converged listWriter blankWiki []
  refine ⟨_, _, _, hrun₂, rfl, by simp, (index_converges_iff hstart hrun₂ rfl).mpr ?_⟩
  intro key
  by_cases hkey : key = "g"
  · subst hkey
    rfl
  · have hnone : ∀ updates : List (Update String Document), (∀ u ∈ updates, u.key = "g") →
        last updates key = none := by
      intro updates hall
      exact last_eq_none.mpr fun u hu heq => hkey (heq.symm.trans (hall u hu))
    rw [hnone _ (by simp [IndexEvent.writes, IndexTask.update, firstPage]),
      hnone _ (by simp [IndexEvent.commits])]

/-- **A deleted page comes back**: the request that created it writes the index last. -/
theorem index_shows_deleted : ¬∀ commits writes s, IndexRun listWriter blankWiki [] commits writes s →
    s.owed = [] → Converged listWriter s.wiki.db s.index := by
  intro hclaim
  obtain ⟨db, hnone, hrun⟩ := createdAndDeleted_run
  have howed : [(0, IndexTask.index firstPage []), (1, IndexTask.remove "g")] =
      [(0, IndexTask.index firstPage [])] ++ (1, IndexTask.remove "g") :: [] := rfl
  have hrun₁ := hrun.step (.written howed)
  have hrun₂ := hrun₁.step (.written (List.nil_append _).symm)
  have hconverged := hclaim _ _ _ hrun₂ rfl (buildDocument firstPage [])
  have hfinds : listWriter.Finds (IndexTask.apply listWriter (.index firstPage [])
      (IndexTask.apply listWriter (.remove "g") [])) (buildDocument firstPage []) :=
    List.mem_singleton_self _
  have hfound : db.document? "g" = some (buildDocument firstPage []) := hconverged.mp hfinds
  rw [hnone] at hfound
  cases hfound

end AgentBeacon
