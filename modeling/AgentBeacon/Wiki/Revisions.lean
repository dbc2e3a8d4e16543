import AgentBeacon.Lib.Versions
import AgentBeacon.Wiki.Locks

/-!
# `Wiki.Revisions` — pages as documents with numbered versions

`WikiDb.store` is the version store that pages and their archived revisions are: of each page, deleted
or not, the number and what it is the version of, its title and body. Each step of each request is one
edit of it, and a change that lands replaces the version that it expected.
-/

namespace AgentBeacon
open Relational Versions

variable {db db' : WikiDb} {uuid : String → String} {live : String → Bool} {s s' : WikiState}
  {e : WikiEvent}

/-- The pages and their archive. -/
def WikiDb.store (db : WikiDb) : Versions.Store String (String × String) where
  current g := (db.pages.find? g).map fun page => (page.revisionNumber, page.title, page.body)
  archive := db.revisions.map fun r => ⟨r.pageId, r.revisionNumber, r.title, r.body⟩

/-- The archived revisions of a page. -/
def WikiDb.revisionsOf (db : WikiDb) (pageId : String) : List WikiPageRevision :=
  db.revisions.filter fun r => r.pageId = pageId

/-- Every page has the archive that its current revision calls for. -/
def WikiDb.Chained (db : WikiDb) : Prop := Versions.Chained db.store

theorem store_current {g : String} {page : WikiPage} (h : db.pages.find? g = some page) :
    db.store.current g = some (page.revisionNumber, page.title, page.body) := by
  show (db.pages.find? g).map _ = _
  rw [h]
  rfl

theorem find_of_live {g : String} {page : WikiPage} (h : db.livePage? g = some page) :
    db.pages.find? g = some page := (Option.filter_eq_some_iff.mp h).1

/-- A wiki without pages is chained. -/
theorem chained_of_no_pages (hpages : db.pages.rows = []) (hrevisions : db.revisions = []) :
    db.Chained := by
  refine chained_of_empty (fun g => ?_) ?_
  · have hnone : db.pages.find? g = none := by
      rw [Table.find?_eq_none, hpages]
      exact fun _ hr => nomatch hr
    show (db.pages.find? g).map _ = none
    rw [hnone]
    rfl
  · show db.revisions.map _ = []
    rw [hrevisions]
    rfl

/-- The archive of a live page. -/
theorem WikiDb.Chained.numbers (h : db.Chained) {page : WikiPage} (hpage : page ∈ db.pages.rows) :
    ((db.revisionsOf page.id).map WikiPageRevision.revisionNumber).Perm
      (List.range' 1 (page.revisionNumber - 1)) := by
  have hperm := Versions.Chained.numbers h page.id _ _ (store_current (Table.find?_of_mem hpage))
  have hmap : (db.store.versionsOf page.id).map Version.number =
      (db.revisionsOf page.id).map WikiPageRevision.revisionNumber := by
    unfold Store.versionsOf WikiDb.store WikiDb.revisionsOf
    rw [List.filter_map, List.map_map]
    rfl
  rw [← hmap]
  exact hperm

/-! ## Steps as edits -/

theorem keeps_of_rows (hpages : db'.pages = db.pages) (hrevisions : db'.revisions = db.revisions) :
    Versions.Keeps db.store db'.store := by
  constructor
  · intro g
    show (db'.pages.find? g).map _ = (db.pages.find? g).map _
    rw [hpages]
  · show db'.revisions.map _ = db.revisions.map _
    rw [hrevisions]

theorem deletePage_keeps {projectId pageId : String} {sessionId : Option String}
    (h : db.deletePage live projectId pageId sessionId = some db') : Versions.Keeps db.store db'.store := by
  unfold WikiDb.deletePage at h
  split at h
  · cases h
  obtain ⟨deleted, hdeleted, hrest⟩ := Option.bind_eq_some_iff.mp h
  split at hrest
  · cases hrest
  obtain rfl := Option.some.inj hrest
  unfold WikiDb.removePage at hdeleted
  split at hdeleted
  · obtain rfl := Option.some.inj hdeleted
    constructor
    · -- a deleted page keeps its row, and its version with it
      intro g
      have hfind := Table.find?_updateWhere db.pages
        (fun p => p.id = pageId && p.projectId = projectId && !p.deleted) ({ · with deleted := true })
        (fun _ => rfl) g
      refine (congrArg (Option.map _) hfind).trans ?_
      rw [Option.map_map]
      refine congrArg (fun f => Option.map f (db.pages.find? g)) (funext fun page => ?_)
      simp only [Function.comp]
      split <;> rfl
    · rfl
  · cases hdeleted

theorem insertMember_rows {m : TagMember} (h : db.insertMember m = some db') :
    db'.pages = db.pages ∧ db'.revisions = db.revisions := by
  unfold WikiDb.insertMember at h
  split at h
  · cases h
  split at h
  · split at h
    · cases h
    · obtain rfl := Option.some.inj h
      exact ⟨rfl, rfl⟩
  · cases h

/-- An admission leaves pages and revisions alone, however it ends. -/
theorem admitCommit_rows (db : WikiDb) (id : String) (req : AdmitRequest) :
    (db.admitCommit id req).2.pages = db.pages ∧ (db.admitCommit id req).2.revisions = db.revisions := by
  unfold WikiDb.admitCommit
  split
  · exact ⟨rfl, rfl⟩
  rename_i inserted hinserted
  split
  · exact ⟨rfl, rfl⟩
  · exact insertMember_rows hinserted

theorem accessCommit_rows (db : WikiDb) (req : AccessRequest) :
    (db.accessCommit req).2.pages = db.pages ∧ (db.accessCommit req).2.revisions = db.revisions := by
  unfold WikiDb.accessCommit
  split
  · simp only
    split
    · exact ⟨rfl, rfl⟩
    · exact ⟨rfl, rfl⟩
  · exact ⟨rfl, rfl⟩

theorem createCommit_edit (req : PageCreation) : Edit db.store (db.createCommit uuid live req).2.store := by
  rcases createCommit_effect db uuid live req with
    hsame | ⟨held, heldTags, page, hheld, hid, -, hone, -, -, hinsert, hrevisions, -⟩
  · rw [hsame]
    exact .keeps (keeps_of_rows rfl rfl)
  have hholds := holdTags_holds hheld
  rw [hholds.pages] at hinsert
  have hfind := Table.find?_insert? hinsert
  have hfresh : db.pages.find? page.id = none := (Table.insert?_eq_some hinsert).1
  refine .creates (d := page.id) (c := (page.title, page.body)) ⟨?_, ?_, fun g hne => ?_, ?_⟩
  · show (db.pages.find? page.id).map _ = none
    rw [hfresh]
    rfl
  · rw [store_current ((hfind page.id).trans (if_pos rfl)), hone]
  · show ((db.createCommit uuid live req).2.pages.find? g).map _ = (db.pages.find? g).map _
    rw [hfind g, if_neg hne]
  · show (db.createCommit uuid live req).2.revisions.map _ = db.revisions.map _
    rw [hrevisions, hholds.revisions]

/-- What the update of a page leaves under each id. -/
theorem find?_updatePage (db : WikiDb) (pageId : String) (revision : Nat) (title body : String)
    (updatedBy : Option String) (g : String) :
    (db.updatePage pageId revision title body updatedBy).pages.find? g =
      (db.pages.find? g).map fun p =>
        if (p.id = pageId && p.revisionNumber = revision && !p.deleted) = true then
          { p with title, body, revisionNumber := p.revisionNumber + 1, updatedBy }
        else p :=
  Table.find?_updateWhere db.pages (fun p => p.id = pageId && p.revisionNumber = revision && !p.deleted)
    (fun p => { p with title, body, revisionNumber := p.revisionNumber + 1, updatedBy }) (fun _ => rfl) g

/-- **A change that lands replaces the version it expected**, and any other changes nothing. -/
theorem changeCommit_edit (db : WikiDb) (uuid : String → String) (live : String → Bool)
    (change : PageChange) (audiences : List PublicationAudience) :
    (db.changeCommit uuid live change audiences).1.isUpdated = false ∧
        (db.changeCommit uuid live change audiences).2 = db ∨
      ∃ page r, db.livePage? change.expectedPageId = some page ∧
        (page.revisionNumber : Int) = change.expectedRevision ∧
        (db.changeCommit uuid live change audiences).1.isUpdated = true ∧ r.pageId = page.id ∧
        r.revisionNumber = page.revisionNumber ∧ r.title = page.title ∧
        r.body = page.body ∧
        (db.changeCommit uuid live change audiences).2.revisions = db.revisions ++ [r] ∧
        Replaces db.store (db.changeCommit uuid live change audiences).2.store change.expectedPageId
          page.revisionNumber (page.title, page.body) := by
  rcases changeCommit_effect db uuid live change audiences with
    hsame | ⟨held, heldTags, page, newTitle, newBody, addedIds, hheld, hlock, hrevision, -, hwrite, hupdated⟩
  · exact .inl hsame
  right
  have hholds := holdTags_holds hheld
  obtain ⟨-, -, hrevisions, hpages, -⟩ := writeChange_effect hwrite
  obtain ⟨hlive, -⟩ := lockPage_ok hlock
  have hlive₀ : db.livePage? change.expectedPageId = some page := by
    rw [WikiDb.livePage?, ← hholds.pages]
    exact hlive
  obtain ⟨-, hid, hdeleted⟩ := WikiDb.mem_livePage.mp hlive
  rw [hholds.revisions] at hrevisions
  refine ⟨page, _, hlive₀, hrevision, hupdated, rfl, rfl, rfl, rfl, hrevisions, ?_⟩
  have hfind := find?_updatePage held page.id page.revisionNumber newTitle newBody change.updatedBy
  rw [← hpages, hholds.pages] at hfind
  refine ⟨store_current (find_of_live hlive₀), ⟨(newTitle, newBody), ?_⟩, fun g hne => ?_, ?_⟩
  · have hnow := hfind change.expectedPageId
    rw [find_of_live hlive₀, Option.map_some, if_pos (by simp [hdeleted])] at hnow
    exact store_current hnow
  · show ((db.changeCommit uuid live change audiences).2.pages.find? g).map _ = (db.pages.find? g).map _
    rw [hfind g]
    cases hrow : db.pages.find? g with
    | none => rfl
    | some row =>
        have hkey : row.id ≠ page.id := by
          rw [Table.key_of_find? hrow, hid]
          exact hne
        rw [Option.map_some, if_neg (by simp [hkey])]
  · show (db.changeCommit uuid live change audiences).2.revisions.map _ = db.revisions.map _ ++ _
    rw [hrevisions, List.map_append, ← hid]
    rfl

/-- **Every step is one edit.** -/
theorem WikiStep.edit (hs : WikiStep s e s') : Edit s.db.store s'.db.store := by
  cases hs with
  | createChecked => exact .keeps (keeps_of_rows rfl rfl)
  | changeChecked => exact .keeps (keeps_of_rows rfl rfl)
  | admitChecked => exact .keeps (keeps_of_rows rfl rfl)
  | accessChecked => exact .keeps (keeps_of_rows rfl rfl)
  | givenUp => exact .keeps (keeps_of_rows rfl rfl)
  | memberRevoked => exact .keeps (keeps_of_rows rfl rfl)
  | @createCommitted uuid live req => exact createCommit_edit req
  | @changeCommitted uuid live change audiences =>
      rcases changeCommit_edit s.db uuid live change audiences with
        ⟨-, hsame⟩ | ⟨page, r, -, -, -, -, -, -, -, -, hreplaces⟩
      · rw [hsame]
        exact .keeps (keeps_of_rows rfl rfl)
      · exact .replaces hreplaces
  | pageDeleted live hdelete => exact .keeps (deletePage_keeps hdelete)
  | @admitCommitted id req seen before after member db hp hcommit =>
      have hrows := admitCommit_rows s.db id req
      rw [hcommit] at hrows
      exact .keeps (keeps_of_rows hrows.1 hrows.2)
  | @accessCommitted req seen before after member db hp hcommit =>
      have hrows := accessCommit_rows s.db req
      rw [hcommit] at hrows
      exact .keeps (keeps_of_rows hrows.1 hrows.2)

/-- **The chain holds in every state of a run.** -/
theorem WikiRun.chained {db₀ : WikiDb} (hstart : db₀.Chained) (hrun : WikiRun db₀ s) : s.db.Chained := by
  induction hrun with
  | start => exact hstart
  | step _ hs ih => exact hs.edit.chained ih

theorem WikiRun.later {db₀ : WikiDb} (hrun : WikiRun db₀ s) (h : WikiSteps s s') : WikiRun db₀ s' := by
  induction h with
  | refl => exact hrun
  | step _ hs ih => exact ih.step hs

theorem WikiSteps.follows (h : WikiSteps s s') : Follows s.db.store s'.db.store := by
  induction h with
  | refl => exact Follows.refl _
  | step _ hs ih => exact ih.trans hs.edit.follows

/-- **What a step archives**: nothing, or the revision that a live page has. -/
theorem WikiStep.revisions (hs : WikiStep s e s') : s'.db.revisions = s.db.revisions ∨
    ∃ page r, s.db.livePage? r.pageId = some page ∧ r.revisionNumber = page.revisionNumber ∧
      r.title = page.title ∧ r.body = page.body ∧ s'.db.revisions = s.db.revisions ++ [r] := by
  cases hs with
  | createChecked => exact .inl rfl
  | changeChecked => exact .inl rfl
  | admitChecked => exact .inl rfl
  | accessChecked => exact .inl rfl
  | givenUp => exact .inl rfl
  | memberRevoked => exact .inl rfl
  | @createCommitted uuid live req =>
      left
      rcases createCommit_effect s.db uuid live req with
        hsame | ⟨held, heldTags, page, hheld, -, -, -, -, -, -, hrevisions, -⟩
      · exact congrArg WikiDb.revisions hsame
      · exact hrevisions.trans (holdTags_holds hheld).revisions
  | @changeCommitted uuid live change audiences =>
      rcases changeCommit_edit s.db uuid live change audiences with
        ⟨-, hsame⟩ | ⟨page, r, hlive, -, -, hid, hnumber, htitle, hbody, hrevisions, -⟩
      · exact .inl (congrArg WikiDb.revisions hsame)
      · right
        refine ⟨page, r, ?_, hnumber, htitle, hbody, hrevisions⟩
        obtain ⟨hmem, hpid, hdeleted⟩ := WikiDb.mem_livePage.mp hlive
        exact WikiDb.mem_livePage.mpr ⟨hmem, hid.symm, hdeleted⟩
  | pageDeleted live hdelete =>
      left
      unfold WikiDb.deletePage at hdelete
      split at hdelete
      · cases hdelete
      obtain ⟨deleted, hdeleted, hrest⟩ := Option.bind_eq_some_iff.mp hdelete
      split at hrest
      · cases hrest
      obtain rfl := Option.some.inj hrest
      unfold WikiDb.removePage at hdeleted
      split at hdeleted
      · obtain rfl := Option.some.inj hdeleted
        rfl
      · cases hdeleted
  | @admitCommitted id req seen before after member db hp hcommit =>
      left
      have hrows := admitCommit_rows s.db id req
      rw [hcommit] at hrows
      exact hrows.2
  | @accessCommitted req seen before after member db hp hcommit =>
      left
      have hrows := accessCommit_rows s.db req
      rw [hcommit] at hrows
      exact hrows.2

end AgentBeacon
