import AgentBeacon.Wiki.Members

/-!
# `Wiki.Machine` — interleaved wiki requests

The requests of any number of clients over one database. A transaction that has passed its first part
is *pending* until its second part commits or it is given up; in between others commit. What it holds
keeps some of them out: a publication the tags it names, against admissions to them (`FOR KEY SHARE`),
an admission or a change of level its tag, against all of these (`FOR UPDATE`). On SQLite the pool has
one connection, and the second part follows the first at once.
-/

namespace AgentBeacon
open Relational

/-- A transaction between its two parts. -/
inductive WikiPending where
  | create (req : PageCreation)
  | change (change : PageChange) (audiences : List PublicationAudience)
  | admission (req : AdmitRequest) (seen : AdmitSeen)
  | access (req : AccessRequest) (seen : AccessSeen)

namespace WikiPending

/-- The names of the tags it holds `FOR KEY SHARE`. -/
def heldNames : WikiPending → List String
  | create req => orderedTagNames (req.tags.getD [])
  | change c _ => orderedTagNames c.addTags
  | _ => []

/-- The tag it holds `FOR UPDATE`. -/
def lockedTag : WikiPending → Option String
  | admission req _ => some req.tagId
  | access req _ => some req.tagId
  | _ => none

end WikiPending

/-- The tables and the pending transactions. -/
structure WikiState where
  db : WikiDb
  pending : List WikiPending

namespace WikiState

variable (s : WikiState)

/-- No pending transaction holds one of these tags for update. -/
def Sharable (names : List String) : Prop :=
  ∀ p ∈ s.pending, ∀ tagId name, p.lockedTag = some tagId → s.db.tagName? tagId = some name →
    name ∉ names

/-- No pending transaction holds this tag. -/
def Lockable (tagId : String) : Prop :=
  ∀ p ∈ s.pending, p.lockedTag ≠ some tagId ∧
    ∀ name, s.db.tagName? tagId = some name → name ∉ p.heldNames

end WikiState

/-- What a step was. -/
inductive WikiEvent where
  | checked
  | created (req : PageCreation)
  | changed (change : PageChange) (outcome : PageChangeOutcome)
  | deleted
  | admitted (req : AdmitRequest) (seen : AdmitSeen)
  | accessSet (req : AccessRequest) (seen : AccessSeen)
  | revoked
  | givenUp

/-- Whether the request carried `acknowledge_share = true`. -/
def WikiEvent.acknowledged : WikiEvent → Bool
  | created req => req.acknowledgeShare
  | changed change _ => change.acknowledgeShare
  | admitted req _ => req.acknowledgeShare
  | accessSet req _ => req.acknowledgeShare
  | _ => false

/-- One step of one request. -/
inductive WikiStep : WikiState → WikiEvent → WikiState → Prop where
  | createChecked {s : WikiState} (uuid : String → String) (req : PageCreation)
      (hlock : s.Sharable (WikiPending.create req).heldNames) (h : s.db.createCheck uuid req = none) :
      WikiStep s .checked { s with pending := s.pending ++ [.create req] }
  | createCommitted {s : WikiState} (uuid : String → String) (live : String → Bool)
      {req : PageCreation} {before after : List WikiPending}
      (h : s.pending = before ++ .create req :: after) :
      WikiStep s (.created req) ⟨(s.db.createCommit uuid live req).2, before ++ after⟩
  | changeChecked {s : WikiState} (uuid : String → String) (change : PageChange)
      {audiences : List PublicationAudience}
      (hlock : s.Sharable (WikiPending.change change audiences).heldNames)
      (h : s.db.changeCheck uuid change = some audiences) :
      WikiStep s .checked { s with pending := s.pending ++ [.change change audiences] }
  | changeCommitted {s : WikiState} (uuid : String → String) (live : String → Bool)
      {change : PageChange} {audiences : List PublicationAudience} {before after : List WikiPending}
      (h : s.pending = before ++ .change change audiences :: after) :
      WikiStep s (.changed change (s.db.changeCommit uuid live change audiences).1)
        ⟨(s.db.changeCommit uuid live change audiences).2, before ++ after⟩
  | pageDeleted {s : WikiState} (live : String → Bool) {projectId pageId : String}
      {sessionId : Option String} {db : WikiDb}
      (h : s.db.deletePage live projectId pageId sessionId = some db) :
      WikiStep s .deleted { s with db }
  | admitChecked {s : WikiState} (req : AdmitRequest) {seen : AdmitSeen} (hlock : s.Lockable req.tagId)
      (h : s.db.admitCheck req = .ok seen) :
      WikiStep s .checked { s with pending := s.pending ++ [.admission req seen] }
  | admitCommitted {s : WikiState} {id : String} {req : AdmitRequest} {seen : AdmitSeen}
      {before after : List WikiPending} {member : Member} {db : WikiDb}
      (h : s.pending = before ++ .admission req seen :: after)
      (hcommit : s.db.admitCommit id req = (.created member, db)) :
      WikiStep s (.admitted req seen) ⟨db, before ++ after⟩
  | accessChecked {s : WikiState} (req : AccessRequest) {seen : AccessSeen}
      (hlock : s.Lockable req.tagId) (h : s.db.accessCheck req = .ok seen) :
      WikiStep s .checked { s with pending := s.pending ++ [.access req seen] }
  | accessCommitted {s : WikiState} {req : AccessRequest} {seen : AccessSeen}
      {before after : List WikiPending} {member : Member} {db : WikiDb}
      (h : s.pending = before ++ .access req seen :: after)
      (hcommit : s.db.accessCommit req = (.updated member, db)) :
      WikiStep s (.accessSet req seen) ⟨db, before ++ after⟩
  | memberRevoked {s : WikiState} (tagId projectId : String) :
      WikiStep s .revoked { s with db := s.db.revokeMember tagId projectId }
  /-- A refused second part, an error, or a client that is gone. -/
  | givenUp {s : WikiState} {p : WikiPending} {before after : List WikiPending}
      (h : s.pending = before ++ p :: after) : WikiStep s .givenUp { s with pending := before ++ after }

/-- A run, from a state without pending transactions. -/
inductive WikiRun (db₀ : WikiDb) : WikiState → Prop where
  | start : WikiRun db₀ ⟨db₀, []⟩
  | step {s s' : WikiState} {e : WikiEvent} (h : WikiRun db₀ s) (hs : WikiStep s e s') : WikiRun db₀ s'

/-- The later part of a run. -/
inductive WikiSteps : WikiState → WikiState → Prop where
  | refl (s : WikiState) : WikiSteps s s
  | step {s s' s'' : WikiState} {e : WikiEvent} (h : WikiSteps s s') (hs : WikiStep s' e s'') :
      WikiSteps s s''

/-! ## A request that runs alone -/

theorem lockable_nil (db : WikiDb) (tagId : String) : WikiState.Lockable ⟨db, []⟩ tagId := by
  intro p hp
  cases hp

/-- The second part of an admission inserts the member that it answers with, or leaves the tables as they were. -/
theorem admitCommit_cases (db : WikiDb) (id : String) (req : AdmitRequest) :
    (db.admitCommit id req).2 = db ∨ ∃ member joined, db.admitCommit id req = (.created member, joined) := by
  unfold WikiDb.admitCommit
  split
  · exact .inl rfl
  · split
    · exact .inl rfl
    · exact .inr ⟨_, _, rfl⟩

/-- **With nothing in between, an admission is its two steps.** -/
theorem admitMember_run (db : WikiDb) (id : String) (req : AdmitRequest) :
    WikiRun db ⟨(db.admitMember id req).2, []⟩ := by
  unfold WikiDb.admitMember
  cases hcheck : db.admitCheck req with
  | error answer => exact .start
  | ok seen =>
      have hchecked : WikiRun db ⟨db, [.admission req seen]⟩ :=
        .step .start (.admitChecked req (lockable_nil db req.tagId) hcheck)
      show WikiRun db ⟨(db.admitCommit id req).2, []⟩
      rcases admitCommit_cases db id req with hkept | ⟨member, joined, hcommit⟩
      · rw [hkept]
        exact .start
      · rw [hcommit]
        have hcommitted : WikiStep ⟨db, [.admission req seen]⟩ (.admitted req seen) ⟨joined, [] ++ []⟩ :=
          .admitCommitted rfl hcommit
        exact .step hchecked hcommitted

theorem accessCommit_cases (db : WikiDb) (req : AccessRequest) :
    (db.accessCommit req).2 = db ∨ ∃ member changed, db.accessCommit req = (.updated member, changed) := by
  unfold WikiDb.accessCommit
  split
  · dsimp only
    split
    · exact .inl rfl
    · exact .inr ⟨_, _, rfl⟩
  · exact .inl rfl

/-- And a change of a member's level is its two. -/
theorem setMemberAccess_run (db : WikiDb) (req : AccessRequest) : WikiRun db ⟨(db.setMemberAccess req).2, []⟩ := by
  unfold WikiDb.setMemberAccess
  cases hcheck : db.accessCheck req with
  | error answer => exact .start
  | ok seen =>
      have hchecked : WikiRun db ⟨db, [.access req seen]⟩ :=
        .step .start (.accessChecked req (lockable_nil db req.tagId) hcheck)
      show WikiRun db ⟨(db.accessCommit req).2, []⟩
      rcases accessCommit_cases db req with hkept | ⟨member, changed, hcommit⟩
      · rw [hkept]
        exact .start
      · rw [hcommit]
        have hcommitted : WikiStep ⟨db, [.access req seen]⟩ (.accessSet req seen) ⟨changed, [] ++ []⟩ :=
          .accessCommitted rfl hcommit
        exact .step hchecked hcommitted

end AgentBeacon
