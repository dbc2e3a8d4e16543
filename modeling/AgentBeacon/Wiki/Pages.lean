import AgentBeacon.Json
import AgentBeacon.Wiki.Auth

/-!
# `Wiki.Pages` — creating, changing and deleting pages

`create_page` and `apply_page_change` first hold the tags they are about and read whom these would
publish to, and then lock, check and write the page. The two parts are kept apart here: on PostgreSQL
other transactions commit between them. A transaction that is rolled back leaves the tables as they
were.
-/

namespace AgentBeacon
open Relational

/-! ## Tags by name -/

/-- `str::trim`. -/
def trim (s : String) : String :=
  String.ofList ((s.toList.dropWhile isWhitespace).reverse.dropWhile isWhitespace).reverse

/-- `ordered_tag_names`. -/
def orderedTagNames (tags : List String) : List String :=
  (((tags.map trim).filter (· ≠ "")).dedup).mergeSort fun a b => a ≤ b

/-- The loop of `materialize_tags_in_tx`; `uuid` draws the ids of new tags. -/
def WikiDb.holdTags (uuid : String → String) (db : WikiDb) :
    List String → Option (WikiDb × List (String × String))
  | [] => some (db, [])
  | name :: names =>
      match db.holdTag (uuid name) name with
      | none => none
      | some (db, id) =>
          match holdTags uuid db names with
          | none => none
          | some (db, held) => some (db, (name, id) :: held)

/-- `materialize_tags_in_tx`. -/
def WikiDb.materializeTags (uuid : String → String) (db : WikiDb) (tags : List String) :
    Option (WikiDb × List (String × String)) :=
  db.holdTags uuid (orderedTagNames tags)

/-- The associations that the loops over tags insert. -/
def WikiDb.tagPageAll (pageId : String) (db : WikiDb) : List String → Option WikiDb
  | [] => some db
  | tagId :: rest => (db.tagPage pageId tagId).bind fun db => tagPageAll pageId db rest

/-- `sync_tags_in_tx`. -/
def WikiDb.syncTags (db : WikiDb) (pageId : String) (held : List (String × String)) : Option WikiDb :=
  (db.untagWhere fun pt => pt.pageId = pageId).tagPageAll pageId (held.map Prod.snd)

/-! ## Creating -/

/-- The arguments of `create_page`. -/
structure PageCreation where
  id : String
  projectId : String
  slug : String
  title : String
  body : String
  createdBy : Option String
  tags : Option (List String)
  acknowledgeShare : Bool

/-- `CreateOutcome`, and the errors of `create_page`. -/
inductive CreateOutcome where
  | created (page : WikiPage) (tags : List String)
  | needsConfirmation (audiences : List PublicationAudience)
  | conflict (detail : String)
  | notFound (detail : String)
  | unauthorized (detail : String)
  | database

/-- The first part of `create_page`: with `none` it goes on. -/
def WikiDb.createCheck (uuid : String → String) (db : WikiDb) (req : PageCreation) :
    Option CreateOutcome :=
  match db.materializeTags uuid (req.tags.getD []) with
  | none => some .database
  | some (held, heldTags) =>
      if req.tags.isSome && !req.acknowledgeShare then
        let audiences := held.audiencesForPublication req.projectId req.slug heldTags
        if audiences.isEmpty then none
        -- a page that could not be created anyway asks for no confirmation
        else if (db.pageBySlug? req.projectId req.slug).isSome then
          some (.conflict s!"wiki page slug already exists: {req.slug}")
        else some (.needsConfirmation audiences)
      else none

/-- The second part of `create_page`, committed or rolled back. `live` says of a session whether it is
live. -/
def WikiDb.createCommit (uuid : String → String) (live : String → Bool) (db : WikiDb)
    (req : PageCreation) : CreateOutcome × WikiDb :=
  match db.materializeTags uuid (req.tags.getD []) with
  | none => (.database, db)
  | some (held, heldTags) =>
      if !held.isActive req.projectId then (.notFound s!"project not found: {req.projectId}", db)
      else
        match held.insertPage {
          id := req.id, projectId := req.projectId, slug := req.slug, title := req.title
          body := req.body, revisionNumber := 1, createdBy := req.createdBy
          updatedBy := req.createdBy, deleted := false } with
        | none => (.conflict s!"wiki page slug already exists: {req.slug}", db)
        | some inserted =>
            match (if req.tags.isSome then inserted.syncTags req.id heldTags else some inserted) with
            | none => (.database, db)
            | some tagged =>
                match tagged.pageBySlug? req.projectId req.slug with
                | none => (.database, db)
                | some page =>
                    -- the writer is checked last, behind all writes
                    if req.createdBy.any fun s => !live s then
                      (.unauthorized "session is not live", db)
                    else (.created page (tagged.pageTagNames page.id), tagged)

/-- `create_page`, with nothing in between. -/
def WikiDb.createPage (uuid : String → String) (live : String → Bool) (db : WikiDb)
    (req : PageCreation) : CreateOutcome × WikiDb :=
  match db.createCheck uuid req with
  | some refused => (refused, db)
  | none => db.createCommit uuid live req

/-! ## Changing -/

/-- `BodyEditReason`. -/
inductive BodyEditReason where
  | notFound | multipleMatches | emptyResult
  deriving DecidableEq, Repr

/-- `BodyEditFailure`. -/
structure BodyEditFailure where
  index : Option Nat
  reason : BodyEditReason

/-- `PageChange`, with `transform_body`. -/
structure PageChange where
  projectId : String
  slug : String
  expectedPageId : String
  expectedRevision : Int
  title : Option (String × String)
  addTags : List String
  removeTags : List String
  summary : Option String
  updatedBy : Option String
  foreign : Option ForeignWriter
  acknowledgeShare : Bool
  transformBody : String → Except BodyEditFailure String

/-- `PageChangeOutcome`, and that of an error. -/
inductive PageChangeOutcome where
  | updated (page : WikiPage) (tags : List String)
  | unchanged (page : WikiPage) (tags : List String)
  | revisionConflict (page : WikiPage) (tags : List String)
  | titleMismatch (page : WikiPage) (tags : List String)
  | tagNotPresent (missing : List String) (current : WikiPage) (tags : List String)
  | bodyEditFailed (failure : BodyEditFailure) (current : WikiPage) (tags : List String)
  | needsConfirmation (audiences : List PublicationAudience)
  | accessRevoked
  | readOnly
  | crossProjectWritesDisabled
  | principalGone
  | notFound
  | database

/-- Whether the change landed. -/
def PageChangeOutcome.isUpdated : PageChangeOutcome → Bool
  | updated .. => true
  | _ => false

def ForeignRefusal.outcome : ForeignRefusal → PageChangeOutcome
  | accessRevoked => .accessRevoked
  | readOnly => .readOnly
  | notFound => .notFound
  | crossProjectWritesDisabled => .crossProjectWritesDisabled

namespace WikiDb

/-- The first part of `apply_page_change`: the audiences of the tags to add; `none` on an error. -/
def changeCheck (uuid : String → String) (db : WikiDb) (change : PageChange) :
    Option (List PublicationAudience) :=
  (db.materializeTags uuid change.addTags).map fun (held, heldTags) =>
    if !change.addTags.isEmpty && !change.acknowledgeShare then
      held.audiencesForPublication change.projectId change.slug heldTags
    else []

/-- The page of a change, once its project or, for a foreign writer, everything else is checked. -/
def lockPage (db : WikiDb) (change : PageChange) : Except ForeignRefusal WikiPage :=
  match change.foreign with
  | some foreign =>
      db.lockedForeignCheck foreign change.projectId change.expectedPageId change.slug
  | none =>
      if !db.isActive change.projectId then .error .accessRevoked
      else
        match (db.livePage? change.expectedPageId).filter fun p =>
          p.projectId = change.projectId && p.slug = change.slug with
        | none => .error .notFound
        | some page => .ok page

/-- The associations of removed tags go. -/
def untagNamed (db : WikiDb) (pageId : String) (names : List String) : WikiDb :=
  db.untagWhere fun pt => pt.pageId = pageId &&
    db.tags.rows.any fun t => t.id = pt.tagId && names.contains t.name

/-- The writes of `apply_page_change`, once nothing stands against it: archive, update, tags. -/
def writeChange (db : WikiDb) (change : PageChange) (page : WikiPage) (newTitle newBody : String)
    (addedIds : List String) : Option WikiDb :=
  (db.insertRevision {
    pageId := page.id, revisionNumber := page.revisionNumber, title := page.title, body := page.body
    summary := change.summary, createdBy := change.updatedBy }).bind fun archived =>
      ((archived.updatePage page.id page.revisionNumber newTitle newBody change.updatedBy).tagPageAll
        page.id addedIds).map fun tagged => tagged.untagNamed page.id change.removeTags

/-- The second part of `apply_page_change`, committed or rolled back. -/
def changeCommit (uuid : String → String) (live : String → Bool) (db : WikiDb) (change : PageChange)
    (audiences : List PublicationAudience) : PageChangeOutcome × WikiDb :=
  match db.materializeTags uuid change.addTags with
  | none => (.database, db)
  | some (held, heldTags) =>
      match held.lockPage change with
      | .error refusal => (refusal.outcome, db)
      | .ok page =>
          let currentTags := held.pageTagNames page.id
          if (page.revisionNumber : Int) ≠ change.expectedRevision then
            (.revisionConflict page currentTags, db)
          else if change.title.any fun (old, _) => old ≠ page.title then
            (.titleMismatch page currentTags, db)
          else
            let missing := change.removeTags.filter fun t => t ∉ currentTags
            if !missing.isEmpty then (.tagNotPresent missing page currentTags, db)
            else
              match change.transformBody page.body with
              | .error failure => (.bodyEditFailed failure page currentTags, db)
              | .ok newBody =>
                  let newTitle := (change.title.map Prod.snd).getD page.title
                  -- only tags that are new to the page need a confirmation
                  let added := (orderedTagNames change.addTags).filter fun t => t ∉ currentTags
                  let owed := audiences.filter fun a => a.tagName ∈ added
                  if !owed.isEmpty then (.needsConfirmation owed, db)
                  else if added.isEmpty && change.removeTags.isEmpty && newBody = page.body &&
                      newTitle = page.title then
                    (.unchanged page currentTags, db)
                  else
                    let addedIds := (heldTags.filter fun (name, _) => name ∈ added).map Prod.snd
                    match held.writeChange change page newTitle newBody addedIds with
                    | none => (.database, db)
                    | some written =>
                        match written.pageWithTags? page.id with
                        | none => (.database, db)
                        | some (updated, tags) =>
                            if change.updatedBy.any fun s => !live s then (.principalGone, db)
                            else (.updated updated tags, written)

/-- `apply_page_change`, with nothing in between. -/
def applyPageChange (uuid : String → String) (live : String → Bool) (db : WikiDb)
    (change : PageChange) : PageChangeOutcome × WikiDb :=
  match db.changeCheck uuid change with
  | none => (.database, db)
  | some audiences => db.changeCommit uuid live change audiences

/-! ## Deleting -/

/-- `delete_page`; `none` when it is refused. -/
def deletePage (live : String → Bool) (db : WikiDb) (projectId pageId : String)
    (sessionId : Option String) : Option WikiDb :=
  if !db.isActive projectId then none
  else (db.removePage pageId projectId).bind fun deleted =>
    if sessionId.any fun s => !live s then none else some deleted

end WikiDb

end AgentBeacon
