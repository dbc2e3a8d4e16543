import AgentBeacon.Lib.Replica
import AgentBeacon.Wiki.Machine

/-!
# `Wiki.Search` — the search index beside the tables

A request that has created, changed or deleted a page commits, and then writes the index with what it
has in hand: `index_page` replaces the document of the page, `remove_page` removes it. The two steps are
not one transaction; each write of the index is, for it is made under the lock of the writer. Of the
index only the documents that can be found are kept; an index that cannot be written is not modelled.
-/

namespace AgentBeacon
open Relational Replica

/-- `build_document`, but for the time. -/
structure Document where
  pageId : String
  projectId : String
  slug : String
  title : String
  body : String
  tags : List String
  revisionNumber : Nat
  updatedBy : Option String
  deriving DecidableEq

def buildDocument (page : WikiPage) (tags : List String) : Document where
  pageId := page.id
  projectId := page.projectId
  slug := page.slug
  title := page.title
  body := page.body
  tags := tags
  revisionNumber := page.revisionNumber
  updatedBy := page.updatedBy

/-- The document that a page should have: none, when it is deleted. -/
def WikiDb.document? (db : WikiDb) (pageId : String) : Option Document :=
  (db.pageWithTags? pageId).map fun (page, tags) => buildDocument page tags

/-- The index writer: deleting by the term `page_id` deletes what was added before, and both take effect
with the commit; `delete_all_documents` deletes all. -/
structure IndexWriter (σ : Type) where
  Finds : σ → Document → Prop
  deleteTerm : String → σ → σ
  addDocument : Document → σ → σ
  deleteAll : σ → σ
  finds_deleteTerm : ∀ pageId index d, Finds (deleteTerm pageId index) d ↔ Finds index d ∧ d.pageId ≠ pageId
  finds_addDocument : ∀ document index d, Finds (addDocument document index) d ↔ Finds index d ∨ d = document
  finds_deleteAll : ∀ index d, ¬Finds (deleteAll index) d

namespace IndexWriter

variable {σ : Type} (writer : IndexWriter σ)

/-- `index_page`. -/
def indexPage (page : WikiPage) (tags : List String) (index : σ) : σ :=
  writer.addDocument (buildDocument page tags) (writer.deleteTerm page.id index)

/-- `remove_page`. -/
def removePage (pageId : String) (index : σ) : σ := writer.deleteTerm pageId index

/-- `rebuild_all`, of the pages that are not deleted: the start of the server. -/
def rebuildAll (db : WikiDb) (index : σ) : σ :=
  (db.pages.rows.filter fun page => !page.deleted).foldl
    (fun index page => writer.addDocument (buildDocument page (db.pageTagNames page.id)) index)
    (writer.deleteAll index)

end IndexWriter

/-- What a request does to the index once its transaction is committed. -/
inductive IndexTask where
  | index (page : WikiPage) (tags : List String)
  | remove (pageId : String)

namespace IndexTask

def apply {σ : Type} (writer : IndexWriter σ) : IndexTask → σ → σ
  | index page tags => writer.indexPage page tags
  | remove pageId => writer.removePage pageId

/-- The update of the index that it is, as the one of this number. -/
def update (number : Nat) : IndexTask → Update String Document
  | index page tags => ⟨number, page.id, some (buildDocument page tags)⟩
  | remove pageId => ⟨number, pageId, none⟩

end IndexTask

/-- The wiki, what its requests still have to write, numbered as they committed, and the index. -/
structure IndexedWiki (σ : Type) where
  wiki : WikiState
  owed : List (Nat × IndexTask)
  index : σ

/-- The step of a request that writes no index. -/
def WikiEvent.isQuiet : WikiEvent → Bool
  | created _ => false
  | changed _ outcome => !outcome.isUpdated
  | deleted => false
  | _ => true

/-- What a step commits that is to be written, or writes. -/
inductive IndexEvent where
  | quiet
  | committed (task : IndexTask)
  | wrote (number : Nat) (task : IndexTask)

/-- One step, when so many updates have been committed. -/
inductive IndexStep {σ : Type} (writer : IndexWriter σ) (number : Nat) :
    IndexedWiki σ → IndexEvent → IndexedWiki σ → Prop where
  /-- `put_page`, at its commit. -/
  | pageCreated {s : IndexedWiki σ} (uuid : String → String) (live : String → Bool) {req : PageCreation}
      {before after : List WikiPending} {page : WikiPage} {tags : List String} {db : WikiDb}
      (h : s.wiki.pending = before ++ .create req :: after)
      (hcommit : s.wiki.db.createCommit uuid live req = (.created page tags, db)) :
      IndexStep writer number s (.committed (.index page tags))
        { s with wiki := ⟨db, before ++ after⟩, owed := s.owed ++ [(number, .index page tags)] }
  /-- `patch_page`, at its commit. -/
  | pageChanged {s : IndexedWiki σ} (uuid : String → String) (live : String → Bool) {change : PageChange}
      {audiences : List PublicationAudience} {before after : List WikiPending} {page : WikiPage}
      {tags : List String} {db : WikiDb} (h : s.wiki.pending = before ++ .change change audiences :: after)
      (hcommit : s.wiki.db.changeCommit uuid live change audiences = (.updated page tags, db)) :
      IndexStep writer number s (.committed (.index page tags))
        { s with wiki := ⟨db, before ++ after⟩, owed := s.owed ++ [(number, .index page tags)] }
  /-- `delete_page`, at its commit. -/
  | pageDeleted {s : IndexedWiki σ} (live : String → Bool) {projectId pageId : String}
      {sessionId : Option String} {db : WikiDb}
      (h : s.wiki.db.deletePage live projectId pageId sessionId = some db) :
      IndexStep writer number s (.committed (.remove pageId))
        { s with wiki := { s.wiki with db }, owed := s.owed ++ [(number, .remove pageId)] }
  /-- Any step that owes the index nothing. -/
  | quietly {s : IndexedWiki σ} {e : WikiEvent} {wiki : WikiState} (h : WikiStep s.wiki e wiki)
      (hquiet : e.isQuiet = true) : IndexStep writer number s .quiet { s with wiki }
  /-- The end of a request that has committed: it writes the index. -/
  | written {s : IndexedWiki σ} {n : Nat} {task : IndexTask} {before after : List (Nat × IndexTask)}
      (h : s.owed = before ++ (n, task) :: after) :
      IndexStep writer number s (.wrote n task)
        { s with owed := before ++ after, index := task.apply writer s.index }

/-- The updates that were committed, the newest first. -/
def IndexEvent.commits (number : Nat) : IndexEvent → List (Update String Document)
  | committed task => [task.update number]
  | _ => []

/-- The updates that were written to the index, the newest first. -/
def IndexEvent.writes : IndexEvent → List (Update String Document)
  | wrote number task => [task.update number]
  | _ => []

/-- A run of wiki requests, each with its write of the index: what was committed, what was written, and
the state it leads to. -/
inductive IndexRun {σ : Type} (writer : IndexWriter σ) (db₀ : WikiDb) (index₀ : σ) :
    List (Update String Document) → List (Update String Document) → IndexedWiki σ → Prop where
  | start : IndexRun writer db₀ index₀ [] [] ⟨⟨db₀, []⟩, [], index₀⟩
  | step {commits writes : List (Update String Document)} {s s' : IndexedWiki σ} {e : IndexEvent}
      (h : IndexRun writer db₀ index₀ commits writes s) (hs : IndexStep writer commits.length s e s') :
      IndexRun writer db₀ index₀ (e.commits commits.length ++ commits) (e.writes ++ writes) s'

/-- **The index is that of the tables**: it finds of each page what the page is now, and of a deleted one
nothing. -/
def Converged {σ : Type} (writer : IndexWriter σ) (db : WikiDb) (index : σ) : Prop :=
  ∀ d : Document, writer.Finds index d ↔ db.document? d.pageId = some d

end AgentBeacon
