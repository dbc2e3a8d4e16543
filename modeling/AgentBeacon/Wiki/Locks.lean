import AgentBeacon.Wiki.Effects

/-!
# `Wiki.Locks` — what the locks keep true between check and commit

A pending transaction has seen its tags at its check. The locks of the others leave it with what it has
seen, or less (`Covered`): no member and no page comes into a tag that an admission holds, and no
member into a tag that a publication holds.
-/

namespace AgentBeacon
open Relational Sharing Groups

variable {db db' : WikiDb} {uuid : String → String} {live : String → Bool}

/-! ## The operations on groups -/

/-- Pages that are neither moved nor revived had the same owner before. -/
theorem owns_of_rows (h : ∀ r' ∈ db'.pages.rows, ∃ r ∈ db.pages.rows, r.id = r'.id ∧
      r.projectId = r'.projectId ∧ (r'.deleted = false → r.deleted = false))
    {o g : String} (howns : db'.groups.owns o g) : db.groups.owns o g := by
  obtain ⟨page, hpage, rfl⟩ := howns
  obtain ⟨hmem, rfl, hdel⟩ := WikiDb.mem_livePage.mp hpage
  obtain ⟨r, hr, hid, hproject, hlive⟩ := h page hmem
  exact ⟨r, WikiDb.mem_livePage.mpr ⟨hr, hid, hlive hdel⟩, hproject⟩

theorem insertMember_admits {m : TagMember} (h : db.insertMember m = some db') (hm : m.revoked = false) :
    Admits db.groups db'.groups m.tagId m.projectId m.accessLevel ∧ db'.tags = db.tags := by
  unfold WikiDb.insertMember at h
  split at h
  · cases h
  rename_i hedge
  split at h
  · split at h
    · cases h
    rename_i members hmembers
    obtain rfl := Option.some.inj h
    have hrows := (Table.insert?_eq_some hmembers).2
    refine ⟨⟨fun _ => Iff.rfl, fun _ _ => Iff.rfl, fun u p ℓ => ?_, fun _ _ => Iff.rfl, ?_⟩, rfl⟩
    · show (∃ a ∈ members.rows, _) ↔ (∃ a ∈ db.members.rows, _) ∨ _
      rw [hrows]
      constructor
      · rintro ⟨a, ha, htag, hproject, hrev, hlevel⟩
        rcases List.mem_append.mp ha with ha | ha
        · exact .inl ⟨a, ha, htag, hproject, hrev, hlevel⟩
        · rw [List.mem_singleton.mp ha] at htag hproject hlevel
          exact .inr ⟨htag.symm, hproject.symm, hlevel.symm⟩
      · rintro (⟨a, ha, hrest⟩ | ⟨rfl, rfl, rfl⟩)
        · exact ⟨a, List.mem_append_left _ ha, hrest⟩
        · exact ⟨m, by simp, rfl, rfl, hm, rfl⟩
    · rintro ℓ ⟨a, ha, htag, hproject, hrev, -⟩
      refine hedge (List.any_eq_true.mpr ⟨a, ha, ?_⟩)
      simp [htag, hproject, hrev]
  · cases h

theorem setAccessLevel_relevels (db : WikiDb) (tagId projectId : String) (level : AccessLevel) :
    Relevels db.groups (db.setAccessLevel tagId projectId level).groups tagId projectId level := by
  have hrow : ∀ (m : TagMember), WikiDb.isEdge tagId projectId m = true ↔
      m.tagId = tagId ∧ m.projectId = projectId ∧ m.revoked = false := by
    intro m
    simp [WikiDb.isEdge, and_assoc]
  refine ⟨fun _ => Iff.rfl, fun _ _ => Iff.rfl, fun u p ℓ hother => ?_, fun ℓ => ?_, fun _ _ => Iff.rfl⟩
  · constructor
    · rintro ⟨m, hm, htag, hproject, hrev, hlevel⟩
      obtain ⟨m₀, hm₀, rfl⟩ := List.mem_map.mp hm
      by_cases hedge : WikiDb.isEdge tagId projectId m₀ = true
      · rw [if_pos hedge] at htag hproject
        obtain ⟨h₁, h₂, -⟩ := (hrow m₀).mp hedge
        exact absurd ⟨htag.symm.trans h₁, hproject.symm.trans h₂⟩ hother
      · rw [if_neg hedge] at htag hproject hrev hlevel
        exact ⟨m₀, hm₀, htag, hproject, hrev, hlevel⟩
    · rintro ⟨m, hm, rfl, rfl, hrev, rfl⟩
      have hedge : ¬WikiDb.isEdge tagId projectId m = true := fun hedge =>
        hother ⟨((hrow m).mp hedge).1, ((hrow m).mp hedge).2.1⟩
      exact ⟨m, List.mem_map.mpr ⟨m, hm, if_neg hedge⟩, rfl, rfl, hrev, rfl⟩
  · constructor
    · rintro ⟨m, hm, htag, hproject, hrev, hlevel⟩
      obtain ⟨m₀, hm₀, rfl⟩ := List.mem_map.mp hm
      by_cases hedge : WikiDb.isEdge tagId projectId m₀ = true
      · obtain ⟨h₁, h₂, h₃⟩ := (hrow m₀).mp hedge
        rw [if_pos hedge] at hlevel
        exact ⟨⟨m₀.accessLevel, m₀, hm₀, h₁, h₂, h₃, rfl⟩, hlevel.symm⟩
      · rw [if_neg hedge] at htag hproject hrev
        exact absurd ((hrow m₀).mpr ⟨htag, hproject, hrev⟩) hedge
    · rintro ⟨⟨ℓ₀, m, hm, htag, hproject, hrev, -⟩, rfl⟩
      have hedge : WikiDb.isEdge tagId projectId m = true := (hrow m).mpr ⟨htag, hproject, hrev⟩
      exact ⟨{ m with accessLevel := ℓ }, List.mem_map.mpr ⟨m, hm, if_pos hedge⟩, htag, hproject,
        hrev, rfl⟩

theorem revokeMember_within (tagId projectId : String) :
    (db.revokeMember tagId projectId).groups.Within db.groups := by
  refine ⟨fun _ h => h, fun _ _ h => h, fun t p ℓ h => ?_, fun _ _ _ _ h => h⟩
  obtain ⟨m, hm, htag, hproject, hrev, hlevel⟩ := h
  have hm : m ∈ (db.members.updateWhere (WikiDb.isEdge tagId projectId) ({ · with revoked := true })
    fun _ => rfl).rows := hm
  obtain ⟨m₀, hm₀, rfl⟩ := List.mem_map.mp hm
  split at hrev
  · cases hrev
  · rename_i hedge
    rw [if_neg hedge] at htag hproject hlevel
    exact ⟨m₀, hm₀, htag, hproject, hrev, hlevel⟩

theorem deletePage_within {projectId pageId : String} {sessionId : Option String}
    (h : db.deletePage live projectId pageId sessionId = some db') :
    db'.groups.Within db.groups ∧ db'.tags = db.tags := by
  unfold WikiDb.deletePage at h
  split at h
  · cases h
  obtain ⟨deleted, hdeleted, hrest⟩ := Option.bind_eq_some_iff.mp h
  split at hrest
  · cases hrest
  obtain rfl := Option.some.inj hrest
  unfold WikiDb.removePage at hdeleted
  split at hdeleted
  · obtain rfl := Option.some.inj hdeleted
    refine ⟨⟨fun _ h => h, fun o g h => ?_, fun _ _ _ h => h, fun _ _ _ _ h => h⟩, rfl⟩
    refine owns_of_rows (fun r' hr' => ?_) h
    obtain ⟨r, hr, rfl⟩ := List.mem_map.mp hr'
    refine ⟨r, hr, ?_⟩
    split
    · exact ⟨rfl, rfl, fun hdel => absurd hdel (by simp)⟩
    · exact ⟨rfl, rfl, fun hdel => hdel⟩
  · cases hdeleted

/-- A tag of one of these names, or one that is not there yet. -/
def HeldTag (db : WikiDb) (names : String → Prop) (t : String) : Prop :=
  db.tagName? t = none ∨ ∃ name, names name ∧ db.tagName? t = some name

theorem create_publishes (req : PageCreation) :
    Publishes db.groups (db.createCommit uuid live req).2.groups req.projectId
      (HeldTag db (· ∈ (WikiPending.create req).heldNames)) := by
  rcases createCommit_effect db uuid live req with
    hsame | ⟨held, heldTags, page, hheld, hid, hproject, -, -, hframe, hpages, -, htags⟩
  · rw [hsame]
    exact (Within.refl _).publishes _ _
  have hholds := holdTags_holds hheld
  have hgroups := hholds.groups
  refine ⟨fun p hp => ?_, fun t p ℓ hm => ?_, fun t p g howns hheldTag => ?_⟩
  · rw [← hgroups]
    exact (hframe.active p).mp hp
  · rw [← hgroups]
    exact (hframe.member t p ℓ).mp hm
  · obtain ⟨found, hfound, rfl⟩ := howns
    obtain ⟨hmem, rfl, hdel⟩ := WikiDb.mem_livePage.mp hfound
    rw [(Table.insert?_eq_some hpages).2] at hmem
    rcases htags _ hheldTag with hold | ⟨hnew, hin⟩
    · -- an association that was there is of a page that was there
      left
      rw [← hgroups]
      refine ⟨⟨found, WikiDb.mem_livePage.mpr ⟨?_, rfl, hdel⟩, rfl⟩, hold⟩
      rcases List.mem_append.mp hmem with hin | hin
      · exact hin
      · obtain ⟨old, hold, hoid⟩ := held.pageTagPages _ hold
        rw [List.mem_singleton.mp hin] at hoid
        have hfresh := (Table.insert?_eq_some hpages).1
        exact absurd hoid (Table.find?_eq_none.mp hfresh old hold)
    · right
      constructor
      · rcases List.mem_append.mp hmem with hin' | hin'
        · have hfresh := (Table.insert?_eq_some hpages).1
          exact absurd (hnew.trans hid.symm) (Table.find?_eq_none.mp hfresh found hin')
        · rw [List.mem_singleton.mp hin', hproject]
      · obtain ⟨⟨name, id⟩, hentry, rfl⟩ := List.mem_map.mp hin
        obtain ⟨hname, hsome | hnone⟩ := hholds.named name id hentry
        · exact .inr ⟨name, hname, hsome⟩
        · exact .inl hnone

theorem lockPage_ok {change : PageChange} {page : WikiPage} (h : db.lockPage change = .ok page) :
    db.livePage? change.expectedPageId = some page ∧ page.projectId = change.projectId := by
  have hfilter : ∀ {found : WikiPage}, (db.livePage? change.expectedPageId).filter (fun p =>
      p.projectId = change.projectId && p.slug = change.slug) = some found →
      db.livePage? change.expectedPageId = some found ∧ found.projectId = change.projectId := by
    intro found hfound
    obtain ⟨hpage, hwhere⟩ := Option.filter_eq_some_iff.mp hfound
    refine ⟨hpage, ?_⟩
    simp only [Bool.and_eq_true, decide_eq_true_eq] at hwhere
    exact hwhere.1
  unfold WikiDb.lockPage at h
  split at h
  · rename_i foreign _
    unfold WikiDb.lockedForeignCheck at h
    by_cases hactive : (db.isActive change.projectId && db.isActive foreign.callerProjectId) = true
    · simp only [hactive, Bool.not_true, Bool.false_eq_true, if_false] at h
      generalize bestLevel _ _ none _ = best at h
      match best, h with
      | some .readWrite, h =>
          simp only at h
          split at h
          · cases h
          · rename_i found hfound
            cases hw : db.writesEnabled with
            | false =>
                rw [hw] at h
                cases h
            | true =>
                rw [hw] at h
                obtain rfl := Except.ok.inj h
                exact hfilter hfound
    · have hinactive : (db.isActive change.projectId && db.isActive foreign.callerProjectId) = false := by
        simpa using hactive
      rw [hinactive] at h
      cases h
  · split at h
    · cases h
    · split at h
      · cases h
      · rename_i found hfound
        obtain rfl := Except.ok.inj h
        exact hfilter hfound

theorem change_publishes (change : PageChange) (audiences : List PublicationAudience) :
    Publishes db.groups (db.changeCommit uuid live change audiences).2.groups change.projectId
      (HeldTag db fun name => name ∈ (WikiPending.change change audiences).heldNames ∧
        ∀ a ∈ audiences, a.tagName ≠ name) := by
  rcases changeCommit_effect db uuid live change audiences with
    ⟨-, hsame⟩ | ⟨held, heldTags, page, _, _, addedIds, hheld, hlock, -, hadded, hwrite, -⟩
  · rw [hsame]
    exact (Within.refl _).publishes _ _
  have hholds := holdTags_holds hheld
  have hgroups := hholds.groups
  obtain ⟨hframe, -, -, hpages, htags⟩ := writeChange_effect hwrite
  obtain ⟨hpage, hproject⟩ := lockPage_ok hlock
  have howner : held.groups.owns change.projectId page.id := by
    obtain ⟨hmem, hid, hdel⟩ := WikiDb.mem_livePage.mp hpage
    exact ⟨page, WikiDb.mem_livePage.mpr ⟨hmem, rfl, hdel⟩, hproject⟩
  refine ⟨fun p hp => ?_, fun t p ℓ hm => ?_, fun t p g howns hheldTag => ?_⟩
  · rw [← hgroups]
    exact (hframe.active p).mp hp
  · rw [← hgroups]
    exact (hframe.member t p ℓ).mp hm
  · have howns₀ : held.groups.owns p g := by
      refine owns_of_rows (fun r' hr' => ?_) howns
      rw [hpages] at hr'
      obtain ⟨r, hr, rfl⟩ := List.mem_map.mp hr'
      refine ⟨r, hr, ?_⟩
      split <;> exact ⟨rfl, rfl, fun hdel => hdel⟩
    rcases htags _ hheldTag with hold | ⟨rfl, hin⟩
    · left
      rw [← hgroups]
      exact ⟨howns₀, hold⟩
    · right
      refine ⟨held.groups.owner_unique _ _ _ howns₀ howner, ?_⟩
      obtain ⟨name, hentry, haudience⟩ := hadded t hin
      obtain ⟨hname, hsome | hnone⟩ := hholds.named name t hentry
      · exact .inr ⟨name, ⟨hname, haudience⟩, hsome⟩
      · exact .inl hnone

/-! ## What a check has seen -/

/-- The other active members of a tag. -/
def WikiDb.othersIn (db : WikiDb) (tagId projectId : String) : List String :=
  ((db.activeMembers tagId).filter fun m => m.projectId ≠ projectId).map Member.projectId

theorem mem_othersIn {t j p : String} :
    p ∈ db.othersIn t j ↔ db.groups.Incumbent (Grants false) t j p := by
  constructor
  · intro h
    obtain ⟨m, hm, rfl⟩ := List.mem_map.mp h
    obtain ⟨hm, hne⟩ := List.mem_filter.mp hm
    obtain ⟨hactive, ℓ, hℓ⟩ := WikiDb.mem_activeMembers_any.mp ⟨m, hm, rfl⟩
    exact ⟨of_decide_eq_true hne, hactive, ℓ, grants_false ℓ, hℓ⟩
  · rintro ⟨hne, hactive, ℓ, -, hℓ⟩
    obtain ⟨m, hm, rfl⟩ := WikiDb.mem_activeMembers_any.mpr ⟨hactive, ℓ, hℓ⟩
    exact List.mem_map.mpr ⟨m, List.mem_filter.mpr ⟨hm, decide_eq_true hne⟩, rfl⟩

/-- The pages that carry the tag and are another member's. -/
theorem inbound_iff {t j g : String} :
    db.groups.Inbound t j g ↔ ∃ page ∈ db.pagesCarryingTag t (db.othersIn t j), page.id = g := by
  constructor
  · rintro ⟨o, ⟨page, hpage, rfl⟩, hne, ho, ⟨ℓ, hℓ⟩, hheld⟩
    obtain ⟨hmem, rfl, hdel⟩ := WikiDb.mem_livePage.mp hpage
    exact ⟨page, WikiDb.mem_pagesCarryingTag.mpr ⟨hpage, mem_othersIn.mpr ⟨hne, ho, ℓ, grants_false ℓ, hℓ⟩, hheld⟩,
      rfl⟩
  · rintro ⟨page, hpage, rfl⟩
    obtain ⟨hlive, hother, hheld⟩ := WikiDb.mem_pagesCarryingTag.mp hpage
    obtain ⟨hne, ho, ℓ, -, hℓ⟩ := mem_othersIn.mp hother
    exact ⟨page.projectId, ⟨page, hlive, rfl⟩, hne, ho, ⟨ℓ, hℓ⟩, hheld⟩

/-- The pages that carry the tag and are the project's own. -/
theorem outbound_iff {t j g : String} :
    db.groups.Outbound t j g ↔ ∃ page ∈ db.pagesCarryingTag t [j], page.id = g := by
  constructor
  · rintro ⟨⟨page, hpage, rfl⟩, hheld⟩
    obtain ⟨hmem, rfl, hdel⟩ := WikiDb.mem_livePage.mp hpage
    exact ⟨page, WikiDb.mem_pagesCarryingTag.mpr ⟨hpage, List.mem_singleton_self _, hheld⟩, rfl⟩
  · rintro ⟨page, hpage, rfl⟩
    obtain ⟨hlive, hown, hheld⟩ := WikiDb.mem_pagesCarryingTag.mp hpage
    exact ⟨⟨page, hlive, List.mem_singleton.mp hown⟩, hheld⟩

/-- What a pending transaction relies on: that the tag it holds is there and, unless the request is
acknowledged, that it has seen everything its commit will expose. -/
def Covered (db : WikiDb) : WikiPending → Prop
  | .create req => req.acknowledgeShare = true ∨ ∀ t name, db.tagName? t = some name →
      name ∈ (WikiPending.create req).heldNames → ¬db.groups.Seen t req.projectId
  | .change c audiences => c.acknowledgeShare = true ∨ ∀ t name, db.tagName? t = some name →
      name ∈ (WikiPending.change c audiences).heldNames → (∀ a ∈ audiences, a.tagName ≠ name) →
      ¬db.groups.Seen t c.projectId
  | .admission req seen => (db.tagName? req.tagId).isSome = true ∧ (req.acknowledgeShare = true ∨
      (∀ g, db.groups.Inbound req.tagId req.joinerId g → g ∈ seen.joinerReaches ∧
        (req.accessLevel = .readWrite → g ∈ seen.alreadyWritable)) ∧
      ((∃ m, db.groups.Incumbent (Grants false) req.tagId req.joinerId m) →
        ∀ g, db.groups.Outbound req.tagId req.joinerId g → g ∈ seen.incumbentsReach))
  | .access req seen => (db.tagName? req.tagId).isSome = true ∧
      (∀ ℓ, db.groups.member req.tagId req.projectId ℓ → ℓ = seen.existing) ∧
      (req.acknowledgeShare = true ∨ (seen.existing = .read → req.accessLevel = .readWrite →
        ∀ g, db.groups.Inbound req.tagId req.projectId g → g ∈ seen.alreadyWritable))

/-- What is reached by each of a list of projects. -/
theorem mem_commonReach {t g : String} {ids : List String} (hne : ids ≠ []) :
    g ∈ db.commonReach t ids ↔ ∀ p ∈ ids, g ∈ db.reachablePageIds p t false := by
  cases ids with
  | nil => exact absurd rfl hne
  | cons first rest =>
      unfold WikiDb.commonReach
      rw [List.mem_filter, List.forall_mem_cons, List.all_eq_true]
      simp

theorem grantedWrites_eq_zero {tagId : String} {level : AccessLevel} {ids visible : List String}
    {slugs : String → Option String} (h : (db.grantedWrites tagId level ids slugs visible).1 = 0)
    (hlevel : level = .readWrite) : ∀ page ∈ db.pagesCarryingTag tagId ids, page.id ∈ visible := by
  unfold WikiDb.grantedWrites at h
  rw [if_pos hlevel] at h
  exact WikiDb.exposure_eq_zero.mp h

/-- **What an admission goes on with**: what it found visible and, unless it is acknowledged or there is
nobody to share with, that this is all there is. -/
theorem admitCheck_ok {req : AdmitRequest} {seen : AdmitSeen} (h : db.admitCheck req = .ok seen) :
    seen = {
      joinerReaches := db.reachablePageIds req.joinerId req.tagId false
      incumbentsReach := db.commonReach req.tagId (db.othersIn req.tagId req.joinerId)
      alreadyWritable := db.reachablePageIds req.joinerId req.tagId true } ∧
    Covered db (.admission req seen) := by
  unfold WikiDb.admitCheck at h
  split at h
  · cases h
  · cases h
  rename_i tagName joiner htag hjoiner
  simp only at h
  split at h
  · cases h
  have htagged : (db.tagName? req.tagId).isSome = true := by rw [htag]; rfl
  split at h
  · rename_i hasked
    split at h
    · cases h
    rename_i hnothing
    obtain rfl := Except.ok.inj h
    have hzero := Nat.eq_zero_of_not_pos hnothing
    obtain ⟨⟨hin, hout⟩, hwrite⟩ : (_ = 0 ∧ _ = 0) ∧ _ = 0 := by
      rw [← Nat.add_eq_zero_iff, ← Nat.add_eq_zero_iff]
      exact hzero
    rw [WikiDb.exposure_eq_zero] at hin hout
    refine ⟨rfl, htagged, .inr ⟨fun g hg => ?_, fun _ g hg => ?_⟩⟩
    · obtain ⟨page, hpage, rfl⟩ := inbound_iff.mp hg
      exact ⟨hin page hpage, fun hlevel => grantedWrites_eq_zero hwrite hlevel page hpage⟩
    · obtain ⟨page, hpage, rfl⟩ := outbound_iff.mp hg
      exact hout page hpage
  · rename_i hasked
    obtain rfl := Except.ok.inj h
    refine ⟨rfl, htagged, ?_⟩
    by_cases hack : req.acknowledgeShare = true
    · exact .inl hack
    · right
      have hnobody : ∀ m, ¬db.groups.Incumbent (Grants false) req.tagId req.joinerId m := by
        intro m hm
        have hin := mem_othersIn.mpr hm
        refine hasked ?_
        rw [Bool.and_eq_true]
        refine ⟨?_, by simpa using hack⟩
        rw [Bool.not_eq_true', List.isEmpty_eq_false_iff]
        intro hnil
        rw [WikiDb.othersIn, hnil] at hin
        cases hin
      refine ⟨fun g hg => ?_, fun hsome => hsome.elim fun m hm => absurd hm (hnobody m)⟩
      obtain ⟨o, -, hne, ho, ⟨ℓ, hℓ⟩, -⟩ := hg
      exact absurd ⟨hne, ho, ℓ, grants_false ℓ, hℓ⟩ (hnobody o)

/-- **What a change of level goes on with.** -/
theorem accessCheck_ok {req : AccessRequest} {seen : AccessSeen} (h : db.accessCheck req = .ok seen) :
    seen.alreadyWritable = db.reachablePageIds req.projectId req.tagId true ∧
      Covered db (.access req seen) := by
  unfold WikiDb.accessCheck at h
  split at h
  · cases h
  · cases h
  rename_i tagName target htag htarget
  split at h
  · cases h
  rename_i existing hexisting
  have htagged : (db.tagName? req.tagId).isSome = true := by rw [htag]; rfl
  have hlevel : ∀ ℓ, db.groups.member req.tagId req.projectId ℓ → ℓ = existing.accessLevel := by
    rintro ℓ ⟨m, hm, ht, hp, hrev, rfl⟩
    have hfound : existing.projectId = req.projectId := by simpa using List.find?_some hexisting
    obtain ⟨-, m', hm', ht', hp', hrev', hl'⟩ := WikiDb.mem_activeMembers.mp
      ⟨existing, List.mem_of_find?_eq_some hexisting, hfound, rfl⟩
    rw [db.edges m hm m' hm' hrev hrev' (ht.trans ht'.symm) (hp.trans hp'.symm), hl']
  simp only at h
  split at h
  · rename_i hasked
    split at h
    · cases h
    rename_i hnothing
    obtain rfl := Except.ok.inj h
    have hzero := Nat.eq_zero_of_not_pos hnothing
    refine ⟨rfl, htagged, hlevel, .inr fun _ _ g hg => ?_⟩
    obtain ⟨page, hpage, rfl⟩ := inbound_iff.mp hg
    exact WikiDb.exposure_eq_zero.mp hzero page hpage
  · rename_i hasked
    obtain rfl := Except.ok.inj h
    refine ⟨rfl, htagged, hlevel, ?_⟩
    by_cases hack : req.acknowledgeShare = true
    · exact .inl hack
    · refine .inr fun hread hwrite => absurd ?_ hasked
      simp only at hread
      simp [hread, hwrite, hack]

/-- A tag that the check held and found no audience for is unseen. -/
theorem unseen_of_check {names : List String} {held : WikiDb} {heldTags : List (String × String)}
    (h : Holds db names held heldTags) {owner t name : String} (slug : String) (htag : db.tagName? t = some name)
    (hname : name ∈ names)
    (haud : ∀ a ∈ held.audiencesForPublication owner slug heldTags, a.tagName ≠ name) :
    ¬db.groups.Seen t owner := by
  rw [← h.groups]
  exact WikiDb.audience_unseen haud (h.finds t name htag hname)

/-- **What creating a page goes on with**: no tag it names has an audience. -/
theorem createCheck_ok {req : PageCreation} (h : db.createCheck uuid req = none) :
    Covered db (.create req) := by
  unfold WikiDb.createCheck at h
  split at h
  · cases h
  rename_i held heldTags hheld
  by_cases hack : req.acknowledgeShare = true
  · exact .inl hack
  refine .inr fun t name htag hname => unseen_of_check (holdTags_holds hheld) req.slug htag hname ?_
  split at h
  · rename_i hasked
    simp only at h
    split at h
    · rename_i hempty
      rw [List.isEmpty_iff.mp hempty]
      exact fun a ha => (nomatch ha)
    · split at h <;> cases h
  · rename_i hasked
    -- without tags nothing is held
    have hnone : req.tags = none := by
      cases htags : req.tags with
      | none => rfl
      | some tags => exact absurd (by simp [htags, hack]) hasked
    rw [WikiPending.heldNames, hnone] at hname
    exact absurd hname (by simp [orderedTagNames])

/-- **What changing a page goes on with**: the tags it adds have the audiences it has listed. -/
theorem changeCheck_ok {change : PageChange} {audiences : List PublicationAudience}
    (h : db.changeCheck uuid change = some audiences) : Covered db (.change change audiences) := by
  obtain ⟨⟨held, heldTags⟩, hheld, haudiences⟩ := Option.map_eq_some_iff.mp h
  by_cases hack : change.acknowledgeShare = true
  · exact .inl hack
  refine .inr fun t name htag hname haud =>
    unseen_of_check (holdTags_holds hheld) change.slug htag hname ?_
  simp only at haudiences
  split at haudiences
  · rw [haudiences]
    exact haud
  · rename_i hasked
    have hnil : change.addTags = [] := by
      cases htags : change.addTags with
      | nil => rfl
      | cons tag tags => exact absurd (by simp [htags, hack]) hasked
    rw [WikiPending.heldNames, hnil] at hname
    exact absurd hname (by simp [orderedTagNames])

/-! ## What others leave -/

/-- The names of tags are kept. -/
def TagsKept (db db' : WikiDb) : Prop := ∀ t name, db.tagName? t = some name → db'.tagName? t = some name

theorem TagsKept.of_tags (h : db'.tags = db.tags) : TagsKept db db' := by
  intro t name ht
  rw [WikiDb.tagName?, h]
  exact ht

/-- What another transaction may do while `p` is pending. -/
structure Undisturbed (p : WikiPending) (db db' : WikiDb) : Prop where
  kept : TagsKept db db'
  active : ∀ q, db'.groups.active q → db.groups.active q
  locked : ∀ t, p.lockedTag = some t → Quiet t db.groups db'.groups
  held : ∀ t name, db'.tagName? t = some name → name ∈ p.heldNames →
    ∀ q ℓ, db'.groups.member t q ℓ → db.groups.member t q ℓ

/-- A tag that is seen was there, under its name. -/
theorem seen_before {p : WikiPending} (h : Undisturbed p db db') {t name o : String}
    (htag : db'.tagName? t = some name) (hname : name ∈ p.heldNames) (hseen : db'.groups.Seen t o) :
    db.tagName? t = some name ∧ db.groups.Seen t o := by
  obtain ⟨ho, ⟨ℓ, hmem⟩, q, hne, hq, ℓ', hmem'⟩ := hseen
  have hbefore := h.held t name htag hname o ℓ hmem
  refine ⟨?_, h.active o ho, ⟨ℓ, hbefore⟩, q, hne, h.active q hq, ℓ', h.held t name htag hname q ℓ' hmem'⟩
  cases hold : db.tagName? t with
  | none => exact absurd hbefore (not_member_of_no_tag hold)
  | some name' => exact (h.kept t name' hold).symm.trans htag

/-- **What a pending transaction relies on stays true.** -/
theorem Covered.mono {p : WikiPending} (hc : Covered db p) (h : Undisturbed p db db') :
    Covered db' p := by
  cases p with
  | create req =>
      refine hc.imp_right fun hunseen t name htag hname hseen => ?_
      obtain ⟨htag₀, hseen₀⟩ := seen_before h htag hname hseen
      exact hunseen t name htag₀ hname hseen₀
  | change c audiences =>
      refine hc.imp_right fun hunseen t name htag hname haud hseen => ?_
      obtain ⟨htag₀, hseen₀⟩ := seen_before h htag hname hseen
      exact hunseen t name htag₀ hname haud hseen₀
  | admission req seen =>
      obtain ⟨htag, hcov⟩ := hc
      have hquiet := h.locked req.tagId rfl
      obtain ⟨name, hname⟩ := Option.isSome_iff_exists.mp htag
      refine ⟨by rw [h.kept _ _ hname]; rfl, hcov.imp_right fun ⟨hin, hout⟩ => ⟨fun g hg => ?_, ?_⟩⟩
      · exact hin g (hquiet.inbound hg)
      · rintro ⟨m, hm⟩ g hg
        exact hout ⟨m, hquiet.incumbent hm⟩ g (hquiet.outbound hg)
  | access req seen =>
      obtain ⟨htag, hlevel, hcov⟩ := hc
      have hquiet := h.locked req.tagId rfl
      obtain ⟨name, hname⟩ := Option.isSome_iff_exists.mp htag
      refine ⟨by rw [h.kept _ _ hname]; rfl, fun ℓ hℓ => hlevel ℓ (hquiet.member _ ℓ hℓ), ?_⟩
      exact hcov.imp_right fun hin hread hwrite g hg => hin hread hwrite g (hquiet.inbound hg)

/-- One transaction's lock keeps the other out. -/
def Excludes (db : WikiDb) (p q : WikiPending) : Prop :=
  ∀ t, p.lockedTag = some t → q.lockedTag ≠ some t ∧
    ∀ name, db.tagName? t = some name → name ∉ q.heldNames

/-- Two transactions may be pending together. -/
def Compatible (db : WikiDb) (p q : WikiPending) : Prop := Excludes db p q ∧ Excludes db q p

/-- **The invariant of the locks.** -/
structure WikiInv (s : WikiState) : Prop where
  covered : ∀ p ∈ s.pending, Covered s.db p
  compatible : s.pending.Pairwise (Compatible s.db)

theorem lockedTag_exists {p : WikiPending} (hc : Covered db p) {t : String}
    (ht : p.lockedTag = some t) : (db.tagName? t).isSome = true := by
  cases p with
  | create req => cases ht
  | change c audiences => cases ht
  | admission req seen =>
      obtain rfl := Option.some.inj ht
      exact hc.1
  | access req seen =>
      obtain rfl := Option.some.inj ht
      exact hc.1

theorem Excludes.mono {p q : WikiPending} (h : Excludes db p q) (hc : Covered db p)
    (hkept : TagsKept db db') : Excludes db' p q := by
  intro t ht
  obtain ⟨hother, hnames⟩ := h t ht
  refine ⟨hother, fun name hname => ?_⟩
  obtain ⟨name₀, hname₀⟩ := Option.isSome_iff_exists.mp (lockedTag_exists hc ht)
  obtain rfl := Option.some.inj ((hkept t name₀ hname₀).symm.trans hname)
  exact hnames name₀ hname₀

/-- A step that leaves the others undisturbed keeps the invariant. -/
theorem WikiInv.mono {pending : List WikiPending} (hc : ∀ p ∈ pending, Covered db p)
    (hp : pending.Pairwise (Compatible db)) (hkept : TagsKept db db')
    (hq : ∀ q ∈ pending, Undisturbed q db db') : WikiInv ⟨db', pending⟩ := by
  refine ⟨fun p hp => (hc p hp).mono (hq p hp), ?_⟩
  refine hp.imp_of_mem fun hp hq ⟨hpq, hqp⟩ => ⟨hpq.mono (hc _ hp) hkept, hqp.mono (hc _ hq) hkept⟩

/-- Taking a transaction out of the pending ones. -/
theorem WikiInv.take {s : WikiState} (h : WikiInv s) {p : WikiPending} {before after : List WikiPending}
    (hp : s.pending = before ++ p :: after) : Covered s.db p ∧
      (∀ q ∈ before ++ after, Covered s.db q ∧ Compatible s.db p q) ∧
      (before ++ after).Pairwise (Compatible s.db) := by
  obtain ⟨hc, hpair⟩ := h
  rw [hp] at hc hpair
  have hsub : (before ++ after).Sublist (before ++ p :: after) :=
    List.Sublist.append_left (List.sublist_cons_self p after) before
  refine ⟨hc p (by simp), fun q hq => ⟨hc q (hsub.subset hq), ?_⟩, hpair.sublist hsub⟩
  obtain ⟨-, hafter, hcross⟩ := List.pairwise_append.mp hpair
  rcases List.mem_append.mp hq with hq | hq
  · exact (hcross q hq p List.mem_cons_self).symm
  · exact (List.pairwise_cons.mp hafter).1 q hq

/-- A publication disturbs nobody whose tag it does not name. -/
theorem undisturbed_of_publishes {p q : WikiPending} {o : String} {names : String → Prop}
    (hkept : TagsKept db db') (hpub : Publishes db.groups db'.groups o (HeldTag db names))
    (hnames : ∀ name, names name → name ∈ p.heldNames) (hc : Covered db q) (hex : Excludes db q p) :
    Undisturbed q db db' := by
  refine ⟨hkept, hpub.active, fun t ht => hpub.quiet ?_, fun t _ _ _ p ℓ => hpub.member t p ℓ⟩
  obtain ⟨name, hname⟩ := Option.isSome_iff_exists.mp (lockedTag_exists hc ht)
  rintro (hnone | ⟨name', hname', hsome⟩)
  · rw [hname] at hnone
    cases hnone
  · obtain rfl := Option.some.inj (hname.symm.trans hsome)
    exact (hex t ht).2 name hname (hnames name hname')

/-- A loss disturbs nobody. -/
theorem undisturbed_of_within {q : WikiPending} (htags : db'.tags = db.tags)
    (h : db'.groups.Within db.groups) : Undisturbed q db db' :=
  ⟨.of_tags htags, h.active, fun t _ => h.quiet t, fun t _ _ _ => h.member t⟩

/-- A change of membership disturbs nobody who does not hold its tag. -/
theorem undisturbed_of_quiet {p q : WikiPending} {u : String} (htags : db'.tags = db.tags)
    (hactive : ∀ r, db'.groups.active r → db.groups.active r)
    (hquiet : ∀ t, t ≠ u → Quiet t db.groups db'.groups) (hu : p.lockedTag = some u)
    (hex : Excludes db p q) : Undisturbed q db db' := by
  refine ⟨.of_tags htags, hactive, fun t ht => hquiet t ?_, fun t name hname hin => ?_⟩
  · rintro rfl
    exact (hex t hu).1 ht
  · refine (hquiet t ?_).member
    rintro rfl
    refine (hex t hu).2 name ?_ hin
    rw [WikiDb.tagName?, ← htags]
    exact hname

end AgentBeacon
