import AgentBeacon.Correctness.Visibility
import AgentBeacon.Wiki.Locks

/-!
# `Correctness.Consent` — which steps extend who reads and writes whose pages

Over every run of interleaved wiki requests, only an unacknowledged admission or change of level can
extend a relation without consent, and the theorems say exactly when one does: for reading, when a
page that the check counted as visible already is no longer visible at the commit; for writing, also
when a read-write member of the tag may not yet write the joiner's pages, which the check of
`admit_member` does not ask about.
-/

namespace AgentBeacon
open Relational Sharing Groups

variable {db db' : WikiDb} {s s' : WikiState} {e : WikiEvent}

/-! ## The invariant of the locks, over runs -/

theorem create_tagsKept {uuid : String → String} {live : String → Bool} (req : PageCreation) :
    TagsKept db (db.createCommit uuid live req).2 := by
  rcases createCommit_effect db uuid live req with
    hsame | ⟨held, heldTags, page, hheld, -, -, -, -, hframe, -⟩
  · rw [hsame]
    exact fun _ _ h => h
  · intro t name ht
    rw [WikiDb.tagName?, hframe.tags]
    exact (holdTags_holds hheld).keeps t name ht

theorem change_tagsKept {uuid : String → String} {live : String → Bool} (change : PageChange)
    (audiences : List PublicationAudience) :
    TagsKept db (db.changeCommit uuid live change audiences).2 := by
  rcases changeCommit_effect db uuid live change audiences with
    ⟨-, hsame⟩ | ⟨held, heldTags, page, _, _, _, hheld, -, -, -, hwrite, -⟩
  · rw [hsame]
    exact fun _ _ h => h
  · intro t name ht
    rw [WikiDb.tagName?, (writeChange_effect hwrite).1.tags]
    exact (holdTags_holds hheld).keeps t name ht

/-- What a committed admission is. -/
theorem admitCommit_created {id : String} {req : AdmitRequest} {member : Member}
    (h : db.admitCommit id req = (.created member, db')) :
    Admits db.groups db'.groups req.tagId req.joinerId req.accessLevel ∧ db'.tags = db.tags ∧
      db.groups.active req.joinerId := by
  unfold WikiDb.admitCommit at h
  split at h
  · cases h
  rename_i inserted hinserted
  split at h
  · cases h
  rename_i found hfound
  obtain ⟨-, rfl⟩ := Prod.mk.inj h
  obtain ⟨hadmits, htags⟩ := insertMember_admits hinserted rfl
  refine ⟨hadmits, htags, ?_⟩
  have hproject : found.projectId = req.joinerId := by simpa using List.find?_some hfound
  obtain ⟨hactive, -⟩ := WikiDb.mem_activeMembers_any.mp ⟨found, List.mem_of_find?_eq_some hfound, hproject⟩
  exact (hadmits.active _).mp hactive

/-- What a committed change of level is. -/
theorem accessCommit_updated {req : AccessRequest} {member : Member}
    (h : db.accessCommit req = (.updated member, db')) :
    Relevels db.groups db'.groups req.tagId req.projectId req.accessLevel ∧ db'.tags = db.tags ∧
      db.groups.active req.projectId ∧ ∃ ℓ, db.groups.member req.tagId req.projectId ℓ := by
  unfold WikiDb.accessCommit at h
  split at h
  · rename_i hedge
    simp only at h
    split at h
    · cases h
    rename_i found hfound
    obtain ⟨-, rfl⟩ := Prod.mk.inj h
    have hrelevels := setAccessLevel_relevels db req.tagId req.projectId req.accessLevel
    refine ⟨hrelevels, rfl, ?_, ?_⟩
    · have hproject : found.projectId = req.projectId := by simpa using List.find?_some hfound
      obtain ⟨hactive, -⟩ :=
        WikiDb.mem_activeMembers_any.mp ⟨found, List.mem_of_find?_eq_some hfound, hproject⟩
      exact (hrelevels.active _).mp hactive
    · obtain ⟨m, hm, hm'⟩ := List.any_eq_true.mp hedge
      simp only [WikiDb.isEdge, Bool.and_eq_true, decide_eq_true_eq, Bool.not_eq_true'] at hm'
      exact ⟨m.accessLevel, m, hm, hm'.1.1, hm'.1.2, hm'.2, rfl⟩
  · cases h

/-- A check adds a transaction that the locks let in. -/
theorem WikiInv.add (h : WikiInv s) {p : WikiPending} (hc : Covered s.db p)
    (hp : ∀ q ∈ s.pending, Compatible s.db q p) : WikiInv { s with pending := s.pending ++ [p] } := by
  refine ⟨fun q hq => ?_, ?_⟩
  -- the others have seen what they had seen, the new one what it just has
  · rcases List.mem_append.mp hq with hq | hq
    · exact h.covered q hq
    · rw [List.mem_singleton.mp hq]
      exact hc
  · refine List.pairwise_append.mpr ⟨h.compatible, List.pairwise_singleton _ _, fun q hq r hr => ?_⟩
    rw [List.mem_singleton.mp hr]
    exact hp q hq

theorem compatible_of_sharable {p : WikiPending} (hlock : s.Sharable p.heldNames)
    (hnone : p.lockedTag = none) : ∀ q ∈ s.pending, Compatible s.db q p := by
  intro q hq
  refine ⟨fun t ht => ⟨by rw [hnone]; exact nofun, fun name hname => hlock q hq t name ht hname⟩, ?_⟩
  intro t ht
  rw [hnone] at ht
  cases ht

theorem compatible_of_lockable {p : WikiPending} {tagId : String} (hlock : s.Lockable tagId)
    (htag : p.lockedTag = some tagId) (hnames : p.heldNames = []) :
    ∀ q ∈ s.pending, Compatible s.db q p := by
  intro q hq
  obtain ⟨hother, hheld⟩ := hlock q hq
  refine ⟨fun t ht => ⟨?_, fun name _ => by rw [hnames]; exact nofun⟩, fun t ht => ?_⟩
  · rw [htag]
    rintro ⟨⟩
    exact hother ht
  · obtain rfl := Option.some.inj (htag.symm.trans ht)
    exact ⟨hother, hheld⟩

/-- **Every step keeps the invariant of the locks.** -/
theorem WikiInv.step (h : WikiInv s) (hs : WikiStep s e s') : WikiInv s' := by
  cases hs with
  | createChecked uuid req hlock hcheck =>
      exact h.add (createCheck_ok hcheck) (compatible_of_sharable hlock rfl)
  | changeChecked uuid change hlock hcheck =>
      exact h.add (changeCheck_ok hcheck) (compatible_of_sharable hlock rfl)
  | admitChecked req hlock hcheck =>
      exact h.add (admitCheck_ok hcheck).2 (compatible_of_lockable hlock rfl rfl)
  | accessChecked req hlock hcheck =>
      exact h.add (accessCheck_ok hcheck).2 (compatible_of_lockable hlock rfl rfl)
  -- a commit of names leaves the other transactions what they hold, a commit of members what they have locked
  | @createCommitted uuid live req before after hp =>
      obtain ⟨-, hothers, hpair⟩ := h.take hp
      refine WikiInv.mono (fun q hq => (hothers q hq).1) hpair (create_tagsKept req) fun q hq => ?_
      exact undisturbed_of_publishes (create_tagsKept req) (create_publishes req) (fun _ hname => hname)
        (hothers q hq).1 (hothers q hq).2.2
  | @changeCommitted uuid live change audiences before after hp =>
      obtain ⟨-, hothers, hpair⟩ := h.take hp
      refine WikiInv.mono (fun q hq => (hothers q hq).1) hpair (change_tagsKept change audiences)
        fun q hq => ?_
      exact undisturbed_of_publishes (change_tagsKept change audiences) (change_publishes change audiences)
        (fun _ hname => hname.1) (hothers q hq).1 (hothers q hq).2.2
  | pageDeleted live hdelete =>
      obtain ⟨hwithin, htags⟩ := deletePage_within hdelete
      exact WikiInv.mono h.covered h.compatible (.of_tags htags) fun q _ =>
        undisturbed_of_within htags hwithin
  | memberRevoked tagId projectId =>
      exact WikiInv.mono h.covered h.compatible (.of_tags rfl) fun q _ =>
        undisturbed_of_within rfl (revokeMember_within tagId projectId)
  | admitCommitted hp hcommit =>
      obtain ⟨-, hothers, hpair⟩ := h.take hp
      obtain ⟨hadmits, htags, -⟩ := admitCommit_created hcommit
      refine WikiInv.mono (fun q hq => (hothers q hq).1) hpair (.of_tags htags) fun q hq => ?_
      exact undisturbed_of_quiet htags (fun r => (hadmits.active r).mp) (fun t hne => hadmits.quiet hne) rfl
        (hothers q hq).2.1
  | accessCommitted hp hcommit =>
      obtain ⟨-, hothers, hpair⟩ := h.take hp
      obtain ⟨hrelevels, htags, -⟩ := accessCommit_updated hcommit
      refine WikiInv.mono (fun q hq => (hothers q hq).1) hpair (.of_tags htags) fun q hq => ?_
      exact undisturbed_of_quiet htags (fun r => (hrelevels.active r).mp)
        (fun t hne => hrelevels.quiet hne) rfl (hothers q hq).2.1
  | givenUp hp =>
      obtain ⟨-, hothers, hpair⟩ := h.take hp
      exact ⟨fun q hq => (hothers q hq).1, hpair⟩

/-- **In every run, pending transactions have seen what they rely on.** -/
theorem WikiRun.inv {db₀ : WikiDb} (h : WikiRun db₀ s) : WikiInv s := by
  induction h with
  | start => exact ⟨fun _ hp => (nomatch hp), List.Pairwise.nil⟩
  | step _ hs ih => exact ih.step hs

/-! ## Steps that extend nothing -/

/-- Where the relation can grow at all. -/
def WikiEvent.isMembership : WikiEvent → Bool
  | admitted .. => true
  | accessSet .. => true
  | _ => false

/-- **Unacknowledged, a publication lets nobody gain**, whatever the level. -/
theorem no_gain_of_publication (h : WikiInv s) (hs : WikiStep s e s') (hack : e.acknowledged = false)
    (hkind : e.isMembership = false) (levels : AccessLevel → Prop) :
    ¬Gains s.db.groups s'.db.groups levels := by
  have hrefl : ¬Gains s.db.groups s.db.groups levels := (Within.refl _).no_gain
  have hnew : ∀ {t o : String}, s.db.tagName? t = none → ¬s.db.groups.Seen t o := by
    rintro t o hnone ⟨-, ⟨ℓ, hmem⟩, -⟩
    exact not_member_of_no_tag hnone hmem
  cases hs with
  | createChecked => exact hrefl
  | changeChecked => exact hrefl
  | admitChecked => exact hrefl
  | accessChecked => exact hrefl
  | givenUp => exact hrefl
  | @createCommitted uuid live req before after hp =>
      obtain ⟨hcov, -⟩ := h.take hp
      have hunseen := hcov.resolve_left fun hyes => Bool.false_ne_true (hack.symm.trans hyes)
      refine (create_publishes req).no_gain fun t ht => ?_
      rcases ht with hnone | ⟨name, hname, htag⟩
      · exact hnew hnone
      · exact hunseen t name htag hname
  | @changeCommitted uuid live change audiences before after hp =>
      obtain ⟨hcov, -⟩ := h.take hp
      have hunseen := hcov.resolve_left fun hyes => Bool.false_ne_true (hack.symm.trans hyes)
      refine (change_publishes change audiences).no_gain fun t ht => ?_
      rcases ht with hnone | ⟨name, ⟨hname, haud⟩, htag⟩
      · exact hnew hnone
      · exact hunseen t name htag hname haud
  | pageDeleted live hdelete => exact (deletePage_within hdelete).1.no_gain
  | memberRevoked tagId projectId => exact (revokeMember_within tagId projectId).no_gain
  | admitCommitted => cases hkind
  | accessCommitted => cases hkind

/-! ## The conditions -/

/-- The other active members of a tag that may write through it. -/
def WikiDb.writersIn (db : WikiDb) (tagId projectId : String) : List String :=
  ((db.activeMembers tagId).filter fun m =>
    m.projectId ≠ projectId && m.accessLevel = .readWrite).map Member.projectId

theorem mem_writersIn {t j p : String} :
    p ∈ db.writersIn t j ↔ db.groups.Incumbent (Grants true) t j p := by
  constructor
  · intro h
    obtain ⟨m, hm, rfl⟩ := List.mem_map.mp h
    obtain ⟨hm, hwhere⟩ := List.mem_filter.mp hm
    simp only [Bool.and_eq_true, decide_eq_true_eq] at hwhere
    obtain ⟨hactive, hmember⟩ := WikiDb.mem_activeMembers.mp ⟨m, hm, rfl, hwhere.2⟩
    exact ⟨hwhere.1, hactive, .readWrite, fun _ => rfl, hmember⟩
  · rintro ⟨hne, hactive, ℓ, hℓ, hmember⟩
    obtain rfl := hℓ rfl
    obtain ⟨m, hm, rfl, hlevel⟩ := WikiDb.mem_activeMembers.mpr ⟨hactive, hmember⟩
    exact List.mem_map.mpr ⟨m, List.mem_filter.mpr ⟨hm, by simp [hne, hlevel]⟩, rfl⟩

/-- At an unacknowledged admission, the pages that its check found visible already still are: those of
the members to the joiner, and the joiner's to every member. -/
def StillRead (db : WikiDb) (req : AdmitRequest) (seen : AdmitSeen) : Prop :=
  (∀ page ∈ db.pagesCarryingTag req.tagId (db.othersIn req.tagId req.joinerId),
    page.id ∈ seen.joinerReaches → page.id ∈ db.reachablePageIds req.joinerId req.tagId false) ∧
  ∀ m ∈ db.othersIn req.tagId req.joinerId, ∀ page ∈ db.pagesCarryingTag req.tagId [req.joinerId],
    page.id ∈ seen.incumbentsReach → page.id ∈ db.reachablePageIds m req.tagId false

/-- … the pages of the members it found writable still are to the joiner, and every member that may
write through the tag may write the joiner's pages already. -/
def StillWritten (db : WikiDb) (req : AdmitRequest) (seen : AdmitSeen) : Prop :=
  (req.accessLevel = .readWrite →
    ∀ page ∈ db.pagesCarryingTag req.tagId (db.othersIn req.tagId req.joinerId),
      page.id ∈ seen.alreadyWritable → page.id ∈ db.reachablePageIds req.joinerId req.tagId true) ∧
  ∀ m ∈ db.writersIn req.tagId req.joinerId, ∀ page ∈ db.pagesCarryingTag req.tagId [req.joinerId],
    page.id ∈ db.reachablePageIds m req.tagId true

/-- At an unacknowledged change of level, the pages that its check found writable still are. -/
def StillWritable (db : WikiDb) (req : AccessRequest) (seen : AccessSeen) : Prop :=
  seen.existing = .read → req.accessLevel = .readWrite →
    ∀ page ∈ db.pagesCarryingTag req.tagId (db.othersIn req.tagId req.projectId),
      page.id ∈ seen.alreadyWritable → page.id ∈ db.reachablePageIds req.projectId req.tagId true

/-- When a step asks for no consent to reading that it ought to ask for. -/
def ReadsCondition (db : WikiDb) : WikiEvent → Prop
  | .admitted req seen => req.acknowledgeShare = true ∨ StillRead db req seen
  | _ => True

/-- When a step asks for no consent to writing that it ought to ask for. -/
def WritesCondition (db : WikiDb) : WikiEvent → Prop
  | .admitted req seen => req.acknowledgeShare = true ∨ StillWritten db req seen
  | .accessSet req seen => req.acknowledgeShare = true ∨ StillWritable db req seen
  | _ => True

/-- **Whether an admission extends reading** is whether what it counted as visible still is. -/
theorem admission_reads (h : WikiInv s) (hs : WikiStep s e s') {req : AdmitRequest} {seen : AdmitSeen}
    (he : e = .admitted req seen) (hack : req.acknowledgeShare = false) :
    ¬Gains s.db.groups s'.db.groups (Grants false) ↔ StillRead s.db req seen := by
  subst he
  cases hs with
  | admitCommitted hp hcommit =>
      obtain ⟨⟨-, hcov⟩, -⟩ := h.take hp
      obtain ⟨hin, hout⟩ := hcov.resolve_left fun hyes => Bool.false_ne_true (hack.symm.trans hyes)
      obtain ⟨hadmits, -, hactive⟩ := admitCommit_created hcommit
      rw [hadmits.gains_iff hactive]
      constructor
      · intro hno
        refine ⟨fun page hpage _ => ?_, fun m hm page hpage _ => ?_⟩
        · rw [WikiDb.mem_reachablePageIds]
          by_contra hbut
          exact hno (.inl ⟨grants_false _, page.id, inbound_iff.mpr ⟨page, hpage, rfl⟩, hbut⟩)
        · rw [WikiDb.mem_reachablePageIds]
          by_contra hbut
          exact hno (.inr ⟨m, page.id, mem_othersIn.mp hm, outbound_iff.mpr ⟨page, hpage, rfl⟩, hbut⟩)
      · rintro ⟨hstill, hstill'⟩ (⟨-, g, hg, hbut⟩ | ⟨m, g, hm, hg, hbut⟩)
        · obtain ⟨page, hpage, rfl⟩ := inbound_iff.mp hg
          exact hbut (WikiDb.mem_reachablePageIds.mp (hstill page hpage (hin _ hg).1))
        · obtain ⟨page, hpage, rfl⟩ := outbound_iff.mp hg
          exact hbut (WikiDb.mem_reachablePageIds.mp
            (hstill' m (mem_othersIn.mpr hm) page hpage (hout ⟨m, hm⟩ _ hg)))

/-- **Whether an admission extends writing.** -/
theorem admission_writes (h : WikiInv s) (hs : WikiStep s e s') {req : AdmitRequest} {seen : AdmitSeen}
    (he : e = .admitted req seen) (hack : req.acknowledgeShare = false) :
    ¬Gains s.db.groups s'.db.groups (Grants true) ↔ StillWritten s.db req seen := by
  subst he
  cases hs with
  | admitCommitted hp hcommit =>
      obtain ⟨⟨-, hcov⟩, -⟩ := h.take hp
      obtain ⟨hin, -⟩ := hcov.resolve_left fun hyes => Bool.false_ne_true (hack.symm.trans hyes)
      obtain ⟨hadmits, -, hactive⟩ := admitCommit_created hcommit
      rw [hadmits.gains_iff hactive]
      constructor
      · intro hno
        refine ⟨fun hlevel page hpage _ => ?_, fun m hm page hpage => ?_⟩
        · rw [WikiDb.mem_reachablePageIds]
          by_contra hbut
          exact hno (.inl ⟨fun _ => hlevel, page.id, inbound_iff.mpr ⟨page, hpage, rfl⟩, hbut⟩)
        · rw [WikiDb.mem_reachablePageIds]
          by_contra hbut
          exact hno (.inr ⟨m, page.id, mem_writersIn.mp hm, outbound_iff.mpr ⟨page, hpage, rfl⟩, hbut⟩)
      · rintro ⟨hstill, hstill'⟩ (⟨hlevel, g, hg, hbut⟩ | ⟨m, g, hm, hg, hbut⟩)
        · obtain ⟨page, hpage, rfl⟩ := inbound_iff.mp hg
          exact hbut (WikiDb.mem_reachablePageIds.mp
            (hstill (hlevel rfl) page hpage ((hin _ hg).2 (hlevel rfl))))
        · obtain ⟨page, hpage, rfl⟩ := outbound_iff.mp hg
          exact hbut (WikiDb.mem_reachablePageIds.mp (hstill' m (mem_writersIn.mpr hm) page hpage))

/-- A change of level extends no reading. -/
theorem accessSet_reads (hs : WikiStep s e s') {req : AccessRequest} {seen : AccessSeen}
    (he : e = .accessSet req seen) : ¬Gains s.db.groups s'.db.groups (Grants false) := by
  subst he
  cases hs with
  | accessCommitted hp hcommit =>
      obtain ⟨hrelevels, -, -, ℓ, hℓ⟩ := accessCommit_updated hcommit
      exact hrelevels.no_gain fun _ => ⟨ℓ, grants_false ℓ, hℓ⟩

/-- **Whether a change of level extends writing.** -/
theorem accessSet_writes (h : WikiInv s) (hs : WikiStep s e s') {req : AccessRequest} {seen : AccessSeen}
    (he : e = .accessSet req seen) (hack : req.acknowledgeShare = false) :
    ¬Gains s.db.groups s'.db.groups (Grants true) ↔ StillWritable s.db req seen := by
  subst he
  cases hs with
  | accessCommitted hp hcommit =>
      obtain ⟨⟨-, hlevel, hcov⟩, -⟩ := h.take hp
      have hin := hcov.resolve_left fun hyes => Bool.false_ne_true (hack.symm.trans hyes)
      obtain ⟨hrelevels, -, hactive, ℓ₀, hℓ₀⟩ := accessCommit_updated hcommit
      by_cases hread : seen.existing = .read
      -- the lock keeps the level that the check found
      · have hold : ∀ ℓ, s.db.groups.member req.tagId req.projectId ℓ → ¬Grants true ℓ := by
          intro ℓ hℓ hgrants
          have hboth := (hlevel ℓ hℓ).symm.trans (hgrants rfl)
          rw [hread] at hboth
          cases hboth
        rw [hrelevels.gains_iff hactive ⟨ℓ₀, hℓ₀⟩ hold]
        constructor
        · intro hno _ hwrite page hpage _
          rw [WikiDb.mem_reachablePageIds]
          by_contra hbut
          exact hno ⟨fun _ => hwrite, page.id, inbound_iff.mpr ⟨page, hpage, rfl⟩, hbut⟩
        · rintro hstill ⟨hwrite, g, hg, hbut⟩
          obtain ⟨page, hpage, rfl⟩ := inbound_iff.mp hg
          exact hbut (WikiDb.mem_reachablePageIds.mp
            (hstill hread (hwrite rfl) page hpage (hin hread (hwrite rfl) _ hg)))
      · -- a member that may write already gains nothing
        have hold : Grants true ℓ₀ := by
          intro _
          rw [hlevel ℓ₀ hℓ₀]
          cases hexisting : seen.existing with
          | read => exact absurd hexisting hread
          | readWrite => rfl
        exact ⟨fun _ hyes => absurd hyes hread, fun _ => hrelevels.no_gain fun _ => ⟨ℓ₀, hold, hℓ₀⟩⟩

/-- **Reading**: a step that is not acknowledged lets nobody gain, exactly under its condition. -/
theorem no_reader_gains_iff (h : WikiInv s) (hs : WikiStep s e s') :
    (e.acknowledged = true ∨ ¬Gains s.db.groups s'.db.groups (Grants false)) ↔
      ReadsCondition s.db e := by
  cases hack : e.acknowledged with
  | true =>
      cases e with
      | admitted req seen => exact ⟨fun _ => .inl hack, fun _ => .inl rfl⟩
      | _ => exact ⟨fun _ => trivial, fun _ => .inl rfl⟩
  | false =>
      simp only [Bool.false_eq_true, false_or]
      cases e with
      | admitted req seen =>
          have hack : req.acknowledgeShare = false := hack
          rw [admission_reads h hs rfl hack, ReadsCondition, hack]
          simp
      | accessSet req seen => exact ⟨fun _ => trivial, fun _ => accessSet_reads hs rfl⟩
      | _ => exact ⟨fun _ => trivial, fun _ => no_gain_of_publication h hs hack rfl _⟩

/-- **Writing**, likewise. -/
theorem no_writer_gains_iff (h : WikiInv s) (hs : WikiStep s e s') :
    (e.acknowledged = true ∨ ¬Gains s.db.groups s'.db.groups (Grants true)) ↔
      WritesCondition s.db e := by
  cases hack : e.acknowledged with
  | true =>
      cases e with
      | admitted req seen => exact ⟨fun _ => .inl hack, fun _ => .inl rfl⟩
      | accessSet req seen => exact ⟨fun _ => .inl hack, fun _ => .inl rfl⟩
      | _ => exact ⟨fun _ => trivial, fun _ => .inl rfl⟩
  | false =>
      simp only [Bool.false_eq_true, false_or]
      cases e with
      | admitted req seen =>
          have hack : req.acknowledgeShare = false := hack
          rw [admission_writes h hs rfl hack, WritesCondition, hack]
          simp
      | accessSet req seen =>
          have hack : req.acknowledgeShare = false := hack
          rw [accessSet_writes h hs rfl hack, WritesCondition, hack]
          simp
      | _ => exact ⟨fun _ => trivial, fun _ => no_gain_of_publication h hs hack rfl _⟩

/-! ## The relations that `access_to` gives -/

theorem readsForeign_iff {P g : String} : db.readsForeign P g ↔ db.groups.Right (Grants false) P g := by
  constructor
  · rintro ⟨page, hpage, hforeign, haccess⟩
    exact (accessTo_isSome (contextOf_inTx db P) hpage hforeign).mp haccess
  · intro hright
    have ⟨t, o, ⟨page, hpage, hproject⟩, hne, _⟩ := hright
    subst hproject
    exact ⟨page, hpage, hne, (accessTo_isSome (contextOf_inTx db P) hpage hne).mpr hright⟩

theorem writesForeign_iff {P g : String} (hon : db.writesEnabled = true) :
    db.writesForeign P g ↔ db.groups.Right (Grants true) P g := by
  constructor
  · rintro ⟨page, hpage, hforeign, haccess⟩
    exact ((accessTo_readWrite (contextOf_inTx db P) hpage hforeign).mp haccess).2
  · intro hright
    have ⟨t, o, ⟨page, hpage, hproject⟩, hne, _⟩ := hright
    subst hproject
    exact ⟨page, hpage, hne, (accessTo_readWrite (contextOf_inTx db P) hpage hne).mpr ⟨hon, hright⟩⟩

/-- No request touches the kill switch. -/
theorem writesEnabled_step (hs : WikiStep s e s') : s'.db.writesEnabled = s.db.writesEnabled := by
  have hkeep : ∀ {db db' : WikiDb}, db'.crossProjectWrites = db.crossProjectWrites →
      db'.writesEnabled = db.writesEnabled := by
    intro db db' h
    unfold WikiDb.writesEnabled
    rw [h]
  cases hs with
  | createChecked => rfl
  | changeChecked => rfl
  | admitChecked => rfl
  | accessChecked => rfl
  | givenUp => rfl
  | memberRevoked => rfl
  | @createCommitted uuid live req before after hp =>
      rcases createCommit_effect s.db uuid live req with
        hsame | ⟨held, heldTags, page, hheld, -, -, -, -, hframe, -⟩
      · exact hkeep (congrArg WikiDb.crossProjectWrites hsame)
      · exact hkeep (hframe.crossProjectWrites.trans (holdTags_holds hheld).crossProjectWrites)
  | @changeCommitted uuid live change audiences before after hp =>
      rcases changeCommit_effect s.db uuid live change audiences with
        ⟨-, hsame⟩ | ⟨held, heldTags, page, _, _, _, hheld, -, -, -, hwrite, -⟩
      · exact hkeep (congrArg WikiDb.crossProjectWrites hsame)
      · exact hkeep ((writeChange_effect hwrite).1.crossProjectWrites.trans
          (holdTags_holds hheld).crossProjectWrites)
  | pageDeleted live hdelete =>
      refine hkeep ?_
      unfold WikiDb.deletePage at hdelete
      split at hdelete
      · cases hdelete
      obtain ⟨deleted, hdeleted, hrest⟩ := Option.bind_eq_some_iff.mp hdelete
      split at hrest
      · cases hrest
      obtain rfl := Option.some.inj hrest
      unfold WikiDb.removePage at hdeleted
      split at hdeleted
      · obtain rfl := Option.some.inj hdeleted
        rfl
      · cases hdeleted
  | admitCommitted hp hcommit =>
      refine hkeep ?_
      unfold WikiDb.admitCommit at hcommit
      split at hcommit
      · cases hcommit
      rename_i inserted hinserted
      split at hcommit
      · cases hcommit
      obtain ⟨-, rfl⟩ := Prod.mk.inj hcommit
      unfold WikiDb.insertMember at hinserted
      split at hinserted
      · cases hinserted
      split at hinserted
      · split at hinserted
        · cases hinserted
        · obtain rfl := Option.some.inj hinserted
          rfl
      · cases hinserted
  | accessCommitted hp hcommit =>
      refine hkeep ?_
      unfold WikiDb.accessCommit at hcommit
      split at hcommit
      · simp only at hcommit
        split at hcommit
        · cases hcommit
        · obtain ⟨-, rfl⟩ := Prod.mk.inj hcommit
          rfl
      · cases hcommit

theorem writesEnabled_run {db₀ : WikiDb} (h : WikiRun db₀ s) :
    s.db.writesEnabled = db₀.writesEnabled := by
  induction h with
  | start => rfl
  | step _ hs ih => exact (writesEnabled_step hs).trans ih

/-- "Whoever gains has been consented to", of any relation. -/
theorem consent_iff {R R' : String → String → Prop} {ack : Bool} {levels : AccessLevel → Prop}
    (hbefore : ∀ P g, R P g ↔ db.groups.Right levels P g)
    (hafter : ∀ P g, R' P g ↔ db'.groups.Right levels P g) :
    (∀ P g, ¬R P g → R' P g → ack = true) ↔
      (ack = true ∨ ¬Gains db.groups db'.groups levels) := by
  constructor
  · intro h
    by_cases hack : ack = true
    · exact .inl hack
    · right
      rintro ⟨P, g, hno, hyes⟩
      exact hack (h P g (fun hr => hno ((hbefore P g).mp hr)) ((hafter P g).mpr hyes))
  · rintro (hack | hno) P g hbefore' hafter'
    · exact hack
    · exact absurd ⟨P, g, fun hr => hbefore' ((hbefore P g).mpr hr), (hafter P g).mp hafter'⟩ hno

/-- **When the read relation grows by consent.** In every run and for every step: whoever can read
another project's page after it and could not before has been acknowledged, exactly when the step is no
unacknowledged admission, or one whose check counted as visible only what still is. A check that
commits at once, as on SQLite, meets the condition. -/
theorem reading_grows_by_consent {db₀ : WikiDb} (hrun : WikiRun db₀ s) (hs : WikiStep s e s') :
    ((∀ P g, ¬s.db.readsForeign P g → s'.db.readsForeign P g → e.acknowledged = true) ↔
      ReadsCondition s.db e) ∧
    ∀ req seen, s.db.admitCheck req = .ok seen → ReadsCondition s.db (.admitted req seen) := by
  constructor
  · rw [consent_iff (fun _ _ => readsForeign_iff) fun _ _ => readsForeign_iff]
    exact no_reader_gains_iff hrun.inv hs
  · intro req seen hcheck
    obtain ⟨rfl, -⟩ := admitCheck_ok hcheck
    refine .inr ⟨fun _ _ h => h, fun m hm page _ h => ?_⟩
    exact (mem_commonReach (List.ne_nil_of_mem hm)).mp h m hm

/-- **When the write relation grows by consent**, cross-project writes being on. -/
theorem writing_grows_by_consent {db₀ : WikiDb} (hon : db₀.writesEnabled = true)
    (hrun : WikiRun db₀ s) (hs : WikiStep s e s') :
    (∀ P g, ¬s.db.writesForeign P g → s'.db.writesForeign P g → e.acknowledged = true) ↔
      WritesCondition s.db e := by
  have hbefore : s.db.writesEnabled = true := (writesEnabled_run hrun).trans hon
  have hafter : s'.db.writesEnabled = true := (writesEnabled_step hs).trans hbefore
  rw [consent_iff (fun _ _ => writesForeign_iff hbefore) fun _ _ => writesForeign_iff hafter]
  exact no_writer_gains_iff hrun.inv hs

/-! ## Runs that extend a relation without consent -/

/-- A check that finds everything visible goes on. -/
theorem admitCheck_eq_ok {req : AdmitRequest} (htag : (db.tagName? req.tagId).isSome = true)
    (hjoiner : (db.activeProject? req.joinerId).isSome = true)
    (hfresh : ∀ m ∈ db.members.rows, ¬(m.tagId = req.tagId ∧ m.projectId = req.joinerId ∧ m.revoked = false))
    (hin : ∀ page ∈ db.pagesCarryingTag req.tagId (db.othersIn req.tagId req.joinerId),
      page.id ∈ db.reachablePageIds req.joinerId req.tagId false)
    (hout : ∀ page ∈ db.pagesCarryingTag req.tagId [req.joinerId],
      page.id ∈ db.commonReach req.tagId (db.othersIn req.tagId req.joinerId))
    (hlevel : req.accessLevel = .read) : ∃ seen, db.admitCheck req = .ok seen := by
  obtain ⟨name, hname⟩ := Option.isSome_iff_exists.mp htag
  obtain ⟨joiner, hjoiner⟩ := Option.isSome_iff_exists.mp hjoiner
  have hnone : (db.activeMembers req.tagId).find? (fun m => m.projectId = req.joinerId) = none := by
    rw [List.find?_eq_none]
    intro m hm hproject
    obtain ⟨-, ℓ, row, hrow, ht, hp, hrev, -⟩ :=
      WikiDb.mem_activeMembers_any.mp ⟨m, hm, of_decide_eq_true hproject⟩
    exact hfresh row hrow ⟨ht, hp, hrev⟩
  unfold WikiDb.admitCheck
  rw [hname, hjoiner]
  simp only [hnone]
  split
  · have hinbound : ∀ slugs, (db.exposureByProject req.tagId (db.othersIn req.tagId req.joinerId) slugs
        (db.reachablePageIds req.joinerId req.tagId false)).1 = 0 :=
      fun _ => WikiDb.exposure_eq_zero.mpr hin
    have houtbound : ∀ slugs, (db.exposureByProject req.tagId [req.joinerId] slugs
        (db.commonReach req.tagId (db.othersIn req.tagId req.joinerId))).1 = 0 :=
      fun _ => WikiDb.exposure_eq_zero.mpr hout
    have hwrites : ∀ slugs, (db.grantedWrites req.tagId req.accessLevel (db.othersIn req.tagId req.joinerId)
        slugs (db.reachablePageIds req.joinerId req.tagId true)).1 = 0 := by
      intro slugs
      rw [WikiDb.grantedWrites, hlevel, if_neg (by decide)]
    unfold WikiDb.othersIn at hinbound houtbound hwrites
    simp only [hinbound, houtbound, hwrites]
    exact ⟨_, if_neg (by decide)⟩
  · exact ⟨_, rfl⟩

/-- A commit that breaks no constraint lands. -/
theorem admitCommit_eq {id : String} {req : AdmitRequest} (hactive : db.groups.active req.joinerId)
    (h : db.insertMember ⟨id, req.tagId, req.joinerId, req.accessLevel, false⟩ = some db') :
    ∃ member, db.admitCommit id req = (.created member, db') := by
  obtain ⟨hadmits, -⟩ := insertMember_admits h rfl
  obtain ⟨m, hm, hproject⟩ := WikiDb.mem_activeMembers_any.mpr
    ⟨(hadmits.active _).mpr hactive, _, (hadmits.member _ _ _).mpr (.inr ⟨rfl, rfl, rfl⟩)⟩
  have hfound : (db'.activeMember req.tagId req.joinerId).isSome = true := by
    rw [WikiDb.activeMember, List.find?_isSome]
    exact ⟨m, hm, decide_eq_true hproject⟩
  obtain ⟨member, hmember⟩ := Option.isSome_iff_exists.mp hfound
  refine ⟨member, ?_⟩
  unfold WikiDb.admitCommit
  rw [h]
  simp only [hmember]

/-- A check that finds everything writable goes on, with the level it has found. -/
theorem accessCheck_eq_ok {req : AccessRequest} {level : AccessLevel} (htag : (db.tagName? req.tagId).isSome = true)
    (htarget : (db.activeProject? req.projectId).isSome = true)
    (hmember : db.groups.active req.projectId ∧ db.groups.member req.tagId req.projectId level)
    (hwritable : ∀ page ∈ db.pagesCarryingTag req.tagId (db.othersIn req.tagId req.projectId),
      page.id ∈ db.reachablePageIds req.projectId req.tagId true) :
    ∃ seen, db.accessCheck req = .ok seen ∧ seen.existing = level := by
  obtain ⟨name, hname⟩ := Option.isSome_iff_exists.mp htag
  obtain ⟨target, htarget⟩ := Option.isSome_iff_exists.mp htarget
  obtain ⟨m, hm, hproject⟩ := WikiDb.mem_activeMembers_any.mpr ⟨hmember.1, level, hmember.2⟩
  have hfound : (db.activeMember req.tagId req.projectId).isSome = true := by
    rw [WikiDb.activeMember, List.find?_isSome]
    exact ⟨m, hm, decide_eq_true hproject⟩
  obtain ⟨existing, hexisting⟩ := Option.isSome_iff_exists.mp hfound
  have hzero : ∀ slugs, (db.exposureByProject req.tagId (db.othersIn req.tagId req.projectId) slugs
      (db.reachablePageIds req.projectId req.tagId true)).1 = 0 := fun _ => WikiDb.exposure_eq_zero.mpr hwritable
  have hchecked : ∃ seen, db.accessCheck req = .ok seen := by
    unfold WikiDb.accessCheck
    rw [hname, htarget]
    simp only [hexisting]
    split
    · unfold WikiDb.othersIn at hzero
      rw [if_neg (by rw [hzero]; exact Nat.lt_irrefl 0)]
      exact ⟨_, rfl⟩
    · exact ⟨_, rfl⟩
  obtain ⟨seen, hseen⟩ := hchecked
  obtain ⟨-, -, hlevel, -⟩ := accessCheck_ok hseen
  exact ⟨seen, hseen, (hlevel level hmember.2).symm⟩

/-- A change of a member's level lands. -/
theorem accessCommit_eq {req : AccessRequest}
    (hedge : db.members.rows.any (WikiDb.isEdge req.tagId req.projectId) = true)
    (hmember : (db.setAccessLevel req.tagId req.projectId req.accessLevel).groups.active req.projectId ∧
      (db.setAccessLevel req.tagId req.projectId req.accessLevel).groups.member req.tagId req.projectId
        req.accessLevel) :
    ∃ member, db.accessCommit req =
      (.updated member, db.setAccessLevel req.tagId req.projectId req.accessLevel) := by
  obtain ⟨m, hm, hproject⟩ := WikiDb.mem_activeMembers_any.mpr ⟨hmember.1, req.accessLevel, hmember.2⟩
  have hfound : ((db.setAccessLevel req.tagId req.projectId req.accessLevel).activeMember req.tagId
      req.projectId).isSome = true := by
    rw [WikiDb.activeMember, List.find?_isSome]
    exact ⟨m, hm, decide_eq_true hproject⟩
  obtain ⟨member, hmember⟩ := Option.isSome_iff_exists.mp hfound
  refine ⟨member, ?_⟩
  unfold WikiDb.accessCommit
  rw [if_pos hedge]
  simp only [hmember]

/-- `reader` reads the page through the first tag and may write through the second, which the owner is
to join. -/
def overwriteWiki : WikiDb := twoTagWiki [⟨"1", "t1", "owner", .readWrite, false⟩,
  ⟨"2", "t1", "reader", .read, false⟩, ⟨"3", "t2", "reader", .readWrite, false⟩]

theorem activeMembers_overwriteWiki :
    overwriteWiki.activeMembers "t2" = [⟨"3", "reader", "reader", .readWrite⟩] :=
  List.mergeSort_singleton _

/-- A project is to join the second tag, to read, unacknowledged. -/
def joinRequest (joinerId : String) : AdmitRequest := ⟨"t2", joinerId, .read, false⟩

theorem rereadWiki_checked : ∃ seen, rereadWiki.admitCheck (joinRequest "reader") = .ok seen ∧
    "g" ∈ seen.joinerReaches := by
  have hchecked : ∃ seen, rereadWiki.admitCheck (joinRequest "reader") = .ok seen := by
    refine admitCheck_eq_ok (by decide) (by decide) (by decide) ?_ ?_ rfl
    · intro page hpage
      obtain ⟨hlive, -, -⟩ := WikiDb.mem_pagesCarryingTag.mp hpage
      obtain ⟨hmem, -, -⟩ := WikiDb.mem_livePage.mp hlive
      obtain rfl := List.mem_singleton.mp hmem
      decide
    · intro page hpage
      have hnone : rereadWiki.pagesCarryingTag "t2" ["reader"] = [] := by decide
      have hpage : page ∈ rereadWiki.pagesCarryingTag "t2" ["reader"] := hpage
      rw [hnone] at hpage
      cases hpage
  obtain ⟨seen, hseen⟩ := hchecked
  refine ⟨seen, hseen, ?_⟩
  obtain ⟨rfl, -⟩ := admitCheck_ok hseen
  show "g" ∈ rereadWiki.reachablePageIds "reader" "t2" false
  decide

/-- The page is shared under the second tag by a member other than `reader`. -/
theorem shared_rereadWiki : ∃ page ∈ (rereadWiki.revokeMember "t1" "reader").pagesCarryingTag "t2"
    ((rereadWiki.revokeMember "t1" "reader").othersIn "t2" "reader"), page.id = "g" := by
  refine inbound_iff.mp ⟨"owner", ⟨_, rfl, rfl⟩, by decide, rfl, ⟨.readWrite, ?_⟩, ?_⟩
  · exact ⟨⟨"3", "t2", "owner", .readWrite, false⟩, by decide, rfl, rfl, rfl, rfl⟩
  · show (⟨"g", "t2"⟩ : PageTag) ∈ (rereadWiki.revokeMember "t1" "reader").pageTags
    decide

/-- `reader` is asked into the second tag while it reads the page through the first, and is thrown out of the first
before the admission commits. -/
theorem rereadWiki_run : ∃ seen joined, "g" ∈ seen.joinerReaches ∧
    WikiRun rereadWiki ⟨rereadWiki.revokeMember "t1" "reader", [.admission (joinRequest "reader") seen]⟩ ∧
    WikiStep ⟨rereadWiki.revokeMember "t1" "reader", [.admission (joinRequest "reader") seen]⟩
      (.admitted (joinRequest "reader") seen) ⟨joined, []⟩ := by
  obtain ⟨seen, hseen, hreach⟩ := rereadWiki_checked
  have hstart : WikiRun rereadWiki ⟨rereadWiki, []⟩ := .start
  have hasked := hstart.step (.admitChecked (joinRequest "reader") (fun _ hp => by cases hp) hseen)
  have hinsert : ((rereadWiki.revokeMember "t1" "reader").insertMember
      ⟨"4", "t2", "reader", .read, false⟩).isSome = true := by decide
  obtain ⟨joined, hjoined⟩ := Option.isSome_iff_exists.mp hinsert
  obtain ⟨member, hcommit⟩ : ∃ member, (rereadWiki.revokeMember "t1" "reader").admitCommit "4"
      (joinRequest "reader") = (.created member, joined) := admitCommit_eq rfl hjoined
  have hs : WikiStep ⟨rereadWiki.revokeMember "t1" "reader", [.admission (joinRequest "reader") seen]⟩
      (.admitted (joinRequest "reader") seen) ⟨joined, [] ++ []⟩ := .admitCommitted rfl hcommit
  exact ⟨seen, joined, hreach, hasked.step (.memberRevoked "t1" "reader"), hs⟩

theorem rereadWiki_condition {seen : AdmitSeen} (hreach : "g" ∈ seen.joinerReaches) :
    ¬ReadsCondition (rereadWiki.revokeMember "t1" "reader") (.admitted (joinRequest "reader") seen) := by
  intro h
  have hstill := h.resolve_left (by decide)
  obtain ⟨page, hpage, hid⟩ := shared_rereadWiki
  have hgone : page.id ∉ (rereadWiki.revokeMember "t1" "reader").reachablePageIds "reader" "t2" false := by
    rw [hid]
    decide
  exact hgone (hstill.1 page hpage (hid ▸ hreach))

/-- **A page that the check counted as visible is lost before the commit**, and gained again when it commits. -/
theorem reading_grows_unasked : ∃ db₀ s e s', WikiRun db₀ s ∧ WikiStep s e s' ∧ e.acknowledged = false ∧
    ∃ P g, ¬s.db.readsForeign P g ∧ s'.db.readsForeign P g := by
  obtain ⟨seen, joined, hreach, hrun, hs⟩ := rereadWiki_run
  refine ⟨_, _, _, _, hrun, hs, rfl, ?_⟩
  have hgains : ¬(_ ∨ ¬_) := fun h => rereadWiki_condition hreach ((no_reader_gains_iff hrun.inv hs).mp h)
  obtain ⟨P, g, hno, hyes⟩ := not_not.mp (not_or.mp hgains).2
  exact ⟨P, g, fun h => hno (readsForeign_iff.mp h), readsForeign_iff.mpr hyes⟩

/-- `reader` may write the page through both tags once its level in the second is raised. -/
def raisedWiki : WikiDb := twoTagWiki [⟨"1", "t1", "owner", .readWrite, false⟩,
  ⟨"2", "t1", "reader", .readWrite, false⟩, ⟨"3", "t2", "owner", .readWrite, false⟩,
  ⟨"4", "t2", "reader", .read, false⟩]

def raiseRequest : AccessRequest := ⟨"t2", "reader", .readWrite, false⟩

/-- The level is to be raised while `reader` writes the page through the first tag, and `reader` is thrown out of the
first tag before that commits. -/
theorem raisedWiki_run : ∃ seen, "g" ∈ seen.alreadyWritable ∧ seen.existing = .read ∧
    WikiRun raisedWiki ⟨raisedWiki.revokeMember "t1" "reader", [.access raiseRequest seen]⟩ ∧
    WikiStep ⟨raisedWiki.revokeMember "t1" "reader", [.access raiseRequest seen]⟩ (.accessSet raiseRequest seen)
      ⟨(raisedWiki.revokeMember "t1" "reader").setAccessLevel "t2" "reader" .readWrite, []⟩ := by
  obtain ⟨seen, hseen, hexisting⟩ : ∃ seen, raisedWiki.accessCheck raiseRequest = .ok seen ∧
      seen.existing = .read := by
    refine accessCheck_eq_ok (by decide) (by decide) ⟨rfl, ⟨"4", "t2", "reader", .read, false⟩, by decide, rfl, rfl,
      rfl, rfl⟩ ?_
    intro page hpage
    obtain ⟨hlive, -, -⟩ := WikiDb.mem_pagesCarryingTag.mp hpage
    obtain ⟨hmem, -, -⟩ := WikiDb.mem_livePage.mp hlive
    obtain rfl := List.mem_singleton.mp hmem
    decide
  have hreach : "g" ∈ seen.alreadyWritable := by
    rw [(accessCheck_ok hseen).1]
    decide
  have hstart : WikiRun raisedWiki ⟨raisedWiki, []⟩ := .start
  have hasked := hstart.step (.accessChecked raiseRequest (fun _ hp => by cases hp) hseen)
  obtain ⟨member, hcommit⟩ : ∃ member, (raisedWiki.revokeMember "t1" "reader").accessCommit raiseRequest =
      (.updated member, (raisedWiki.revokeMember "t1" "reader").setAccessLevel "t2" "reader" .readWrite) :=
    accessCommit_eq (by decide) ⟨rfl, ⟨"4", "t2", "reader", .readWrite, false⟩, by decide, rfl, rfl, rfl, rfl⟩
  have hs : WikiStep ⟨raisedWiki.revokeMember "t1" "reader", [.access raiseRequest seen]⟩
      (.accessSet raiseRequest seen)
      ⟨(raisedWiki.revokeMember "t1" "reader").setAccessLevel "t2" "reader" .readWrite, [] ++ []⟩ :=
    .accessCommitted rfl hcommit
  exact ⟨seen, hreach, hexisting, hasked.step (.memberRevoked "t1" "reader"), hs⟩

/-- At the admission above the condition fails; a change of level never adds readers. -/
theorem reading_grows_by_consent_readmitted :
    (∃ (seen : AdmitSeen) (joined : WikiDb),
      ¬(∀ P g, ¬(rereadWiki.revokeMember "t1" "reader").readsForeign P g → joined.readsForeign P g →
      (WikiEvent.admitted (joinRequest "reader") seen).acknowledged = true)) ∧
    (∃ req seen, rereadWiki.admitCheck req = .ok seen ∧ ReadsCondition rereadWiki (.admitted req seen)) ∧
    ∀ P g, ¬(raisedWiki.revokeMember "t1" "reader").readsForeign P g →
      ((raisedWiki.revokeMember "t1" "reader").setAccessLevel "t2" "reader" .readWrite).readsForeign P g →
      false = true := by
  obtain ⟨seen, joined, hreach, hrun, hs⟩ := rereadWiki_run
  obtain ⟨asked, hasked, -⟩ := rereadWiki_checked
  obtain ⟨raised, -, -, hrun', hs'⟩ := raisedWiki_run
  refine ⟨⟨seen, joined, fun h => ?_⟩, ⟨_, asked, hasked, ?_⟩, ?_⟩
  · exact rereadWiki_condition hreach ((reading_grows_by_consent hrun hs).1.mp h)
  · exact (reading_grows_by_consent WikiRun.start (.memberRevoked "t1" "reader")).2 _ _ hasked
  · exact (reading_grows_by_consent hrun' hs').1.mpr trivial

theorem overwriteWiki_checked :
    ∃ seen, overwriteWiki.admitCheck (joinRequest "owner") = .ok seen := by
  have hothers : overwriteWiki.othersIn "t2" "owner" = ["reader"] := by
    rw [WikiDb.othersIn, activeMembers_overwriteWiki]
    rfl
  refine admitCheck_eq_ok (by decide) (by decide) (by decide) ?_ ?_ rfl
  · intro page hpage
    obtain ⟨hlive, hother, -⟩ := WikiDb.mem_pagesCarryingTag.mp hpage
    obtain ⟨hmem, -, -⟩ := WikiDb.mem_livePage.mp hlive
    obtain rfl := List.mem_singleton.mp hmem
    exact absurd rfl (mem_othersIn.mp hother).1
  · intro page hpage
    obtain ⟨hlive, -, -⟩ := WikiDb.mem_pagesCarryingTag.mp hpage
    obtain ⟨hmem, -, -⟩ := WikiDb.mem_livePage.mp hlive
    obtain rfl := List.mem_singleton.mp hmem
    show "g" ∈ overwriteWiki.commonReach "t2" (overwriteWiki.othersIn "t2" "owner")
    rw [hothers]
    decide

/-- The owner joins the second tag, through which `reader` may write. -/
theorem overwriteWiki_run : ∃ seen joined,
    WikiRun overwriteWiki ⟨overwriteWiki, [.admission (joinRequest "owner") seen]⟩ ∧
    WikiStep ⟨overwriteWiki, [.admission (joinRequest "owner") seen]⟩ (.admitted (joinRequest "owner") seen)
      ⟨joined, []⟩ := by
  obtain ⟨seen, hseen⟩ := overwriteWiki_checked
  have hstart : WikiRun overwriteWiki ⟨overwriteWiki, []⟩ := .start
  have hasked := hstart.step (.admitChecked (joinRequest "owner") (fun _ hp => by cases hp) hseen)
  have hinsert : (overwriteWiki.insertMember ⟨"4", "t2", "owner", .read, false⟩).isSome = true := by decide
  obtain ⟨joined, hjoined⟩ := Option.isSome_iff_exists.mp hinsert
  obtain ⟨member, hcommit⟩ : ∃ member, overwriteWiki.admitCommit "4" (joinRequest "owner") =
      (.created member, joined) := admitCommit_eq rfl hjoined
  have hs : WikiStep ⟨overwriteWiki, [.admission (joinRequest "owner") seen]⟩
      (.admitted (joinRequest "owner") seen) ⟨joined, [] ++ []⟩ := .admitCommitted rfl hcommit
  exact ⟨seen, joined, hasked, hs⟩

theorem overwriteWiki_condition (seen : AdmitSeen) :
    ¬WritesCondition overwriteWiki (.admitted (joinRequest "owner") seen) := by
  intro h
  have hstill := h.resolve_left (by decide)
  have hwriter : "reader" ∈ overwriteWiki.writersIn "t2" "owner" := by
    rw [WikiDb.writersIn, activeMembers_overwriteWiki]
    decide
  obtain ⟨page, hpage, hid⟩ : ∃ page ∈ overwriteWiki.pagesCarryingTag "t2" ["owner"], page.id = "g" := by
    decide
  have hunwritten : page.id ∉ overwriteWiki.reachablePageIds "reader" "t2" true := by
    rw [hid]
    decide
  exact hunwritten (hstill.2 "reader" hwriter page hpage)

/-- **The joiner's own pages are not asked about.** `reader` reads the owner's page through the first tag
and may write through the second; when the owner joins the second, `reader` may write the page. -/
theorem writing_grows_unasked : ∃ db₀ s e s', db₀.writesEnabled = true ∧ WikiRun db₀ s ∧ WikiStep s e s' ∧
    e.acknowledged = false ∧ ∃ P g, ¬s.db.writesForeign P g ∧ s'.db.writesForeign P g := by
  obtain ⟨seen, joined, hrun, hs⟩ := overwriteWiki_run
  have hon : overwriteWiki.writesEnabled = true := rfl
  have hon' : joined.writesEnabled = true := (writesEnabled_step hs).trans hon
  refine ⟨_, _, _, _, hon, hrun, hs, rfl, ?_⟩
  have hgains : ¬(_ ∨ ¬_) := fun h => overwriteWiki_condition seen ((no_writer_gains_iff hrun.inv hs).mp h)
  obtain ⟨P, g, hno, hyes⟩ := not_not.mp (not_or.mp hgains).2
  exact ⟨P, g, fun h => hno ((writesForeign_iff hon).mp h), (writesForeign_iff hon').mpr hyes⟩

/-- The page is shared under the second tag by a member other than `reader`. -/
theorem shared_raisedWiki : ∃ page ∈ (raisedWiki.revokeMember "t1" "reader").pagesCarryingTag "t2"
    ((raisedWiki.revokeMember "t1" "reader").othersIn "t2" "reader"), page.id = "g" := by
  refine inbound_iff.mp ⟨"owner", ⟨_, rfl, rfl⟩, by decide, rfl, ⟨.readWrite, ?_⟩, ?_⟩
  · exact ⟨⟨"3", "t2", "owner", .readWrite, false⟩, by decide, rfl, rfl, rfl, rfl⟩
  · show (⟨"g", "t2"⟩ : PageTag) ∈ (raisedWiki.revokeMember "t1" "reader").pageTags
    decide

/-- At the admission above the condition fails, and at a change of level whose page has been lost meanwhile. -/
theorem writing_grows_by_consent_raised :
    (∃ (seen : AdmitSeen) (joined : WikiDb), ¬(∀ P g, ¬overwriteWiki.writesForeign P g → joined.writesForeign P g →
      (WikiEvent.admitted (joinRequest "owner") seen).acknowledged = true)) ∧
    ∃ seen, ¬(∀ P g, ¬(raisedWiki.revokeMember "t1" "reader").writesForeign P g →
      ((raisedWiki.revokeMember "t1" "reader").setAccessLevel "t2" "reader" .readWrite).writesForeign P g →
      (WikiEvent.accessSet raiseRequest seen).acknowledged = true) := by
  obtain ⟨seen, joined, hrun, hs⟩ := overwriteWiki_run
  obtain ⟨raised, hreach, hexisting, hrun', hs'⟩ := raisedWiki_run
  refine ⟨⟨seen, joined, fun h => ?_⟩, raised, fun h => ?_⟩
  · exact overwriteWiki_condition seen ((writing_grows_by_consent rfl hrun hs).mp h)
  · have hstill := ((writing_grows_by_consent rfl hrun' hs').mp h).resolve_left (by decide)
    obtain ⟨page, hpage, hid⟩ := shared_raisedWiki
    have hgone : page.id ∉ (raisedWiki.revokeMember "t1" "reader").reachablePageIds "reader" "t2" true := by
      rw [hid]
      decide
    exact hgone (hstill hexisting rfl page hpage (hid ▸ hreach))

end AgentBeacon
