import AgentBeacon.Wiki.Auth

/-!
# `Correctness.Visibility` — the visibility checks compute one relation

Each check of the wiki is brought to the same form: for another project's page, the right through a
tag (`Groups.Right`). The per-page check and the search scope compare tags by name, the others by id;
the constraints of the schema make that the same.
-/

namespace AgentBeacon
open Relational Sharing

variable {db : WikiDb} {ctx : SharingContext} {P o g : String}

/-! ## The per-page check -/

/-- A link to a project through a tag of these names. -/
def LinksTo (links : List SharedTagLink) (o : String) (tags : List String)
    (levels : AccessLevel → Prop) : Prop :=
  ∃ link ∈ links, link.ownerProjectId = o ∧ link.tagName ∈ tags ∧ levels link.accessLevel

theorem linksTo_cons {link : SharedTagLink} {links : List SharedTagLink} {tags : List String}
    {levels : AccessLevel → Prop} : LinksTo (link :: links) o tags levels ↔
      (link.ownerProjectId = o ∧ link.tagName ∈ tags ∧ levels link.accessLevel) ∨
        LinksTo links o tags levels := by
  unfold LinksTo
  rw [List.exists_mem_cons_iff]

/-- **The loop of `access_to`** finds access when some link does. -/
theorem linkAccess_isSome {tags : List String} {links : List SharedTagLink} {access : Option Access} :
    (ctx.linkAccess o tags access links).isSome = true ↔
      access.isSome = true ∨ LinksTo links o tags (Grants false) := by
  induction links generalizing access with
  | nil => simp [SharingContext.linkAccess, LinksTo]
  | cons link links ih =>
      have hgrants := grants_false link.accessLevel
      rw [linksTo_cons]
      unfold SharingContext.linkAccess
      by_cases hother : link.ownerProjectId ≠ o
      · rw [if_pos hother, ih]
        tauto
      · rw [if_neg hother]
        by_cases htag : link.tagName ∉ tags
        · rw [if_pos htag, ih]
          tauto
        · rw [if_neg htag]
          split
          · simp only [Option.isSome_some, true_iff]
            exact .inr (.inl ⟨not_not.mp hother, not_not.mp htag, hgrants⟩)
          · rw [ih]
            simp only [Option.isSome_some, true_or, true_iff]
            exact .inr (.inl ⟨not_not.mp hother, not_not.mp htag, hgrants⟩)

/-- … and write access when some link grants it and the kill switch does not forbid it. -/
theorem linkAccess_readWrite {tags : List String} {links : List SharedTagLink} {access : Option Access}
    (haccess : access ≠ some .readWrite) :
    ctx.linkAccess o tags access links = some .readWrite ↔
      ctx.crossProjectWrites = true ∧ LinksTo links o tags (Grants true) := by
  induction links generalizing access with
  | nil => simp [SharingContext.linkAccess, LinksTo, haccess]
  | cons link links ih =>
      rw [linksTo_cons]
      unfold SharingContext.linkAccess
      by_cases hother : link.ownerProjectId ≠ o
      · rw [if_pos hother, ih haccess]
        tauto
      · rw [if_neg hother]
        by_cases htag : link.tagName ∉ tags
        · rw [if_pos htag, ih haccess]
          tauto
        · rw [if_neg htag]
          by_cases hwrite : link.accessLevel = .readWrite ∧ ctx.crossProjectWrites = true
          · rw [if_pos hwrite]
            simp only [true_iff]
            exact ⟨hwrite.2, .inl ⟨not_not.mp hother, not_not.mp htag, fun _ => hwrite.1⟩⟩
          · rw [if_neg hwrite, ih (by simp)]
            have hlevel : ctx.crossProjectWrites = true → ¬Grants true link.accessLevel :=
              fun hon hgrants => hwrite ⟨hgrants rfl, hon⟩
            tauto

/-! ## Links and tags of a page -/

theorem mem_pageTagNames {name : String} :
    name ∈ db.pageTagNames g ↔ ∃ t ∈ db.tags.rows, t.name = name ∧ db.groups.holds t.id g := by
  unfold WikiDb.pageTagNames
  rw [List.mem_map]
  refine exists_congr fun t => ?_
  rw [List.mem_filter, decide_eq_true_eq]
  show (_ ∧ (⟨g, t.id⟩ : PageTag) ∈ db.pageTags) ∧ _ ↔ _ ∧ _ ∧ (⟨g, t.id⟩ : PageTag) ∈ db.pageTags
  tauto

/-- **The links of a caller lead to a page exactly through the tags that hold it.** -/
theorem linksTo_iff {levels : AccessLevel → Prop} {page : WikiPage}
    (hpage : db.livePage? g = some page) :
    LinksTo (db.sharedLinks P) page.projectId (db.pageTagNames g) levels ↔
      db.groups.Right levels P g := by
  constructor
  · rintro ⟨link, hlink, howner, hname, hlevel⟩
    obtain ⟨mine, hmine, hlink⟩ := List.mem_flatMap.mp hlink
    obtain ⟨theirs, htheirs, hlink⟩ := List.mem_flatMap.mp hlink
    obtain ⟨t, ht, rfl⟩ := List.mem_map.mp hlink
    simp only [List.mem_filter, Bool.and_eq_true, decide_eq_true_eq, Bool.not_eq_true', ne_eq]
      at hmine htheirs ht
    obtain ⟨hmine, rfl, hrev⟩ := hmine
    obtain ⟨htheirs, ⟨htag, hne⟩, hrev'⟩ := htheirs
    obtain ⟨ht, ⟨hid, hactive⟩, hcaller⟩ := ht
    obtain ⟨t', ht', hsame, hheld⟩ := mem_pageTagNames.mp hname
    obtain rfl := db.names t' ht' t ht hsame
    refine ⟨t'.id, page.projectId, ⟨page, hpage, rfl⟩, ?_, hcaller, ?_,
      ⟨mine.accessLevel, hlevel, mine, hmine, hid.symm, rfl, hrev, rfl⟩,
      ⟨theirs.accessLevel, theirs, htheirs, htag.trans hid.symm, howner, hrev', rfl⟩, hheld⟩
    · rw [← howner]
      exact hne
    · rw [← howner]
      exact hactive
  · rintro ⟨t, o, ⟨page', hpage', rfl⟩, hne, hcaller, hactive, ⟨ℓ, hlevel, mine, hmine, rfl, rfl, hrev, rfl⟩,
      ⟨ℓ', theirs, htheirs, htag, howner, hrev', rfl⟩, hheld⟩
    obtain rfl := Option.some.inj (hpage'.symm.trans hpage)
    obtain ⟨t, ht, hid⟩ := db.memberTags mine hmine
    have hcaller' : db.isActive mine.projectId = true := hcaller
    have hactive' : db.isActive theirs.projectId = true := howner ▸ hactive
    refine ⟨⟨t.id, t.name, theirs.projectId, mine.accessLevel⟩, ?_, howner, ?_, hlevel⟩
    · refine List.mem_flatMap.mpr ⟨mine, ?_, List.mem_flatMap.mpr ⟨theirs, ?_, List.mem_map.mpr
        ⟨t, ?_, rfl⟩⟩⟩
      · simp [hmine, hrev]
      · simp [htheirs, htag, hrev', howner, hne]
      · simp [ht, hid, hcaller', hactive']
    · exact mem_pageTagNames.mpr ⟨t, ht, rfl, by rw [hid]; exact hheld⟩

/-! ## The contexts -/

/-- What the two ways to make a context have in common. -/
structure ContextOf (db : WikiDb) (P : String) (ctx : SharingContext) : Prop where
  caller : ctx.callerProjectId = P
  links : ctx.links = db.sharedLinks P
  writes : ctx.crossProjectWrites = db.writesEnabled
  active : db.isActive P = true → ctx.callerActive = true

theorem contextOf_inTx (db : WikiDb) (P : String) : ContextOf db P (db.contextInTx P) :=
  ⟨rfl, rfl, rfl, fun h => h⟩

theorem contextOf_load (db : WikiDb) (P : String) : ContextOf db P (db.loadContext P) := by
  refine ⟨rfl, rfl, rfl, fun h => ?_⟩
  obtain ⟨p, hp⟩ := Option.isSome_iff_exists.mp h
  obtain ⟨hfind, hlive⟩ := Option.filter_eq_some_iff.mp hp
  refine List.any_eq_true.mpr ⟨p, Table.mem_of_find? hfind, ?_⟩
  simpa [Table.key_of_find? hfind] using hlive

/-- **`access_to` another project's page** is the right through a tag. -/
theorem accessTo_isSome (hctx : ContextOf db P ctx) {page : WikiPage}
    (hpage : db.livePage? g = some page) (hforeign : page.projectId ≠ P) :
    (ctx.accessTo page.projectId (db.pageTagNames g)).isSome = true ↔
      db.groups.Right (Grants false) P g := by
  unfold SharingContext.accessTo
  rw [hctx.caller, hctx.links, ← linksTo_iff hpage]
  cases hactive : ctx.callerActive with
  | false =>
      simp only [Bool.not_false, if_true, Option.isSome_none, Bool.false_eq_true, false_iff]
      intro hlinks
      obtain ⟨-, -, -, -, hcaller, -⟩ := (linksTo_iff hpage).mp hlinks
      exact Bool.false_ne_true (hactive.symm.trans (hctx.active hcaller))
  | true =>
      rw [Bool.not_true, if_neg Bool.false_ne_true, if_neg hforeign, linkAccess_isSome]
      simp

/-- **Write access to another project's page** is the right to write through a tag, unless the kill
switch forbids it. -/
theorem accessTo_readWrite (hctx : ContextOf db P ctx) {page : WikiPage}
    (hpage : db.livePage? g = some page) (hforeign : page.projectId ≠ P) :
    ctx.accessTo page.projectId (db.pageTagNames g) = some .readWrite ↔
      db.writesEnabled = true ∧ db.groups.Right (Grants true) P g := by
  unfold SharingContext.accessTo
  rw [hctx.caller, hctx.links, ← hctx.writes, ← linksTo_iff hpage]
  cases hactive : ctx.callerActive with
  | false =>
      simp only [Bool.not_false, if_true, reduceCtorEq, false_iff, not_and]
      intro _ hlinks
      obtain ⟨-, -, -, -, hcaller, -⟩ := (linksTo_iff hpage).mp hlinks
      exact Bool.false_ne_true (hactive.symm.trans (hctx.active hcaller))
  | true =>
      rw [Bool.not_true, if_neg Bool.false_ne_true, if_neg hforeign, linkAccess_readWrite (by simp)]

/-! ## The search scope -/

/-- **The search scope grants what `access_to` grants**, narrowed or not. -/
theorem searchScope_grants (hctx : ContextOf db P ctx) (page : WikiPage) :
    (ctx.searchScope.grants page.projectId (db.pageTagNames g) = true ↔
      (ctx.accessTo page.projectId (db.pageTagNames g)).isSome = true) ∧
    (ctx.searchScope.narrowedTo page.projectId).grants page.projectId (db.pageTagNames g) =
      ctx.searchScope.grants page.projectId (db.pageTagNames g) := by
  constructor
  · unfold SharingContext.accessTo SharingContext.searchScope SearchScope.grants
    rw [hctx.caller]
    cases hactive : ctx.callerActive with
    | false => simp
    | true =>
        by_cases hown : page.projectId = P
        · simp [hown]
        · rw [Bool.not_true, if_neg Bool.false_ne_true, if_neg Bool.false_ne_true, if_neg hown,
            linkAccess_isSome]
          simp [hown, SharingContext.tagPairs, LinksTo, Grants]
  · unfold SearchScope.narrowedTo SearchScope.grants
    congr 1
    · rw [Bool.eq_iff_iff]
      simp
    · rw [List.any_filter]
      congr 1
      funext pair
      by_cases hpair : pair.1 = page.projectId <;> simp [hpair]

/-! ## The locked check -/

theorem bestLevel_readWrite {ownerTags : List String} {levels : List (String × AccessLevel)}
    {tagIds : List String} {best : Option AccessLevel} :
    bestLevel ownerTags levels best tagIds = some .readWrite ↔
      best = some .readWrite ∨ ∃ t ∈ tagIds, t ∈ ownerTags ∧ levelIn levels t = some .readWrite := by
  induction tagIds generalizing best with
  | nil => simp [bestLevel]
  | cons t rest ih =>
      rw [List.exists_mem_cons_iff]
      unfold bestLevel
      by_cases howner : t ∉ ownerTags
      · rw [if_pos howner, ih]
        tauto
      · rw [if_neg howner]
        have hin : t ∈ ownerTags := not_not.mp howner
        cases hlevel : levelIn levels t with
        | none =>
            show bestLevel ownerTags levels best rest = _ ↔ _
            rw [ih]
            simp
        | some level =>
            cases level with
            | readWrite =>
                show bestLevel ownerTags levels (some .readWrite) rest = _ ↔ _
                rw [ih]
                simp [hin]
            | read =>
                show bestLevel ownerTags levels (best.or (some .read)) rest = _ ↔ _
                rw [ih]
                cases best <;> simp

/-- A project has one level in a tag. -/
theorem levelIn_iff {rows : List TagMember} {t : String} {ℓ : AccessLevel}
    (hrows : ∀ m ∈ rows, m ∈ db.members.rows ∧ m.revoked = false ∧ m.projectId = P) :
    levelIn (rows.map fun m => (m.tagId, m.accessLevel)) t = some ℓ ↔
      ∃ m ∈ rows, m.tagId = t ∧ m.accessLevel = ℓ := by
  unfold levelIn
  rw [Option.map_eq_some_iff]
  constructor
  · rintro ⟨entry, hentry, rfl⟩
    obtain ⟨m, hm, rfl⟩ := List.mem_map.mp (List.mem_reverse.mp (List.mem_of_find?_eq_some hentry))
    exact ⟨m, hm, by simpa using List.find?_some hentry, rfl⟩
  · rintro ⟨m, hm, rfl, rfl⟩
    have hin : (m.tagId, m.accessLevel) ∈ (rows.map fun m => (m.tagId, m.accessLevel)).reverse :=
      List.mem_reverse.mpr (List.mem_map_of_mem (f := fun m : TagMember => (m.tagId, m.accessLevel)) hm)
    cases hfind : (rows.map fun m => (m.tagId, m.accessLevel)).reverse.find?
        fun entry => entry.1 = m.tagId with
    | none => exact absurd (List.find?_eq_none.mp hfind _ hin) (by simp)
    | some entry =>
        refine ⟨entry, rfl, ?_⟩
        obtain ⟨m', hm', rfl⟩ := List.mem_map.mp (List.mem_reverse.mp (List.mem_of_find?_eq_some hfind))
        have htag : m'.tagId = m.tagId := by simpa using List.find?_some hfind
        obtain ⟨hmem, hrev, hproject⟩ := hrows m hm
        obtain ⟨hmem', hrev', hproject'⟩ := hrows m' hm'
        rw [db.edges m' hmem' m hmem hrev' hrev htag (hproject'.trans hproject.symm)]

/-- The memberships of two projects, as the locked check reads them. -/
def lockedRows (db : WikiDb) (o P : String) : List TagMember :=
  db.members.rows.filter fun m => (m.projectId = o || m.projectId = P) && !m.revoked

/-- **The locked check finds write access** exactly with the right to write. -/
theorem lockedLevel_readWrite {page : WikiPage} (hpage : db.livePage? g = some page)
    (hforeign : page.projectId ≠ P) (howner : db.isActive page.projectId = true)
    (hcaller : db.isActive P = true) :
    bestLevel
      (((lockedRows db page.projectId P).filter fun m => m.projectId ≠ P).map TagMember.tagId)
      (((lockedRows db page.projectId P).filter fun m => m.projectId = P).map fun m =>
        (m.tagId, m.accessLevel))
      none ((db.pageTags.filter fun pt => pt.pageId = g).map PageTag.tagId) = some .readWrite ↔
      db.groups.Right (Grants true) P g := by
  have hrows : ∀ m ∈ (lockedRows db page.projectId P).filter (fun m => m.projectId = P),
      m ∈ db.members.rows ∧ m.revoked = false ∧ m.projectId = P := by
    intro m hm
    simp only [lockedRows, List.mem_filter, Bool.and_eq_true, Bool.not_eq_true', decide_eq_true_eq] at hm
    exact ⟨hm.1.1, hm.1.2.2, hm.2⟩
  rw [bestLevel_readWrite]
  simp only [reduceCtorEq, false_or]
  constructor
  · rintro ⟨t, ht, hshared, hlevel⟩
    obtain ⟨pt, hpt, rfl⟩ := List.mem_map.mp ht
    obtain ⟨theirs, htheirs, htag⟩ := List.mem_map.mp hshared
    obtain ⟨mine, hmine, hmineTag, hmineLevel⟩ := (levelIn_iff hrows).mp hlevel
    obtain ⟨hmine, hrev, hproject⟩ := hrows mine hmine
    simp only [lockedRows, List.mem_filter, Bool.and_eq_true, Bool.or_eq_true, Bool.not_eq_true',
      decide_eq_true_eq, ne_eq] at htheirs hpt
    obtain ⟨⟨htheirs, hboth, hrev'⟩, hother⟩ := htheirs
    refine ⟨pt.tagId, page.projectId, ⟨page, hpage, rfl⟩, hforeign, hcaller, howner,
      ⟨.readWrite, fun _ => rfl, mine, hmine, hmineTag, hproject, hrev, hmineLevel⟩,
      ⟨theirs.accessLevel, theirs, htheirs, htag, hboth.resolve_right hother, hrev', rfl⟩, ?_⟩
    show (⟨g, pt.tagId⟩ : PageTag) ∈ db.pageTags
    rw [← hpt.2]
    exact hpt.1
  · rintro ⟨t, o, ⟨page', hpage', rfl⟩, -, -, -, ⟨ℓ, hlevel, mine, hmine, htag, hproject, hrev, rfl⟩,
      ⟨ℓ', theirs, htheirs, htag', hproject', hrev', rfl⟩, hheld⟩
    obtain rfl := Option.some.inj (hpage'.symm.trans hpage)
    refine ⟨t, ?_, ?_, (levelIn_iff hrows).mpr ⟨mine, ?_, htag, hlevel rfl⟩⟩
    · exact List.mem_map.mpr ⟨⟨g, t⟩, List.mem_filter.mpr ⟨hheld, by simp⟩, rfl⟩
    · exact List.mem_map.mpr ⟨theirs, by simp [lockedRows, htheirs, hproject', hrev', hforeign], htag'⟩
    · simp [lockedRows, hmine, hproject, hrev]

/-- **The locked check lets a foreign writer through** exactly with the right to write, unless the
kill switch forbids it. -/
theorem lockedForeignCheck_ok {page : WikiPage} (hpage : db.livePage? g = some page)
    (hforeign : page.projectId ≠ P) :
    db.lockedForeignCheck ⟨P, page.projectId⟩ page.projectId g page.slug = .ok page ↔
      db.writesEnabled = true ∧ db.groups.Right (Grants true) P g := by
  have hlevel := @lockedLevel_readWrite db P g page hpage hforeign
  unfold lockedRows at hlevel
  unfold WikiDb.lockedForeignCheck
  by_cases hactive : (db.isActive page.projectId && db.isActive P) = true
  · obtain ⟨howner, hcaller⟩ := Bool.and_eq_true_iff.mp hactive
    have hlevel := hlevel howner hcaller
    simp only [hactive, Bool.not_true, Bool.false_eq_true, if_false]
    have hfound : (db.livePage? g).filter
        (fun p => p.projectId = page.projectId && p.slug = page.slug) = some page := by
      rw [hpage, Option.filter_some, if_pos (by simp)]
    rw [hfound]
    generalize bestLevel _ _ none _ = best at hlevel ⊢
    rw [← hlevel]
    cases best with
    | none => simp [throw, throwThe, MonadExceptOf.throw]
    | some level =>
        cases level with
        | read => simp [throw, throwThe, MonadExceptOf.throw]
        | readWrite =>
            cases db.writesEnabled <;>
              simp [throw, throwThe, MonadExceptOf.throw, pure, Except.pure, bind, Except.bind]
  · have hinactive : (db.isActive page.projectId && db.isActive P) = false := by simpa using hactive
    simp only [hinactive, Bool.not_false, if_true]
    constructor
    · intro h
      cases h
    · rintro ⟨-, t, o, ⟨page', hpage', rfl⟩, -, hcaller, howner, -⟩
      obtain rfl := Option.some.inj (hpage'.symm.trans hpage)
      exact absurd (Bool.and_eq_true_iff.mpr ⟨howner, hcaller⟩) hactive

/-! ## Agreement -/

/-- **All visibility checks compute the same relation.** In every database state and for every caller
and live page: the search scope, narrowed to the owner or not, grants the page exactly when `access_to`
does; for another project's page so does `reachable_page_ids_in_tx` with an excluded tag that links
nothing; and `access_to` grants writing such a page exactly when the locked check does. -/
theorem visibility_checks_agree (db : WikiDb) (P g : String) (page : WikiPage)
    (hpage : db.livePage? g = some page) (ctx : SharingContext)
    (hctx : ctx = db.contextInTx P ∨ ctx = db.loadContext P) :
    let tags := db.pageTagNames g
    let access := ctx.accessTo page.projectId tags
    (ctx.searchScope.grants page.projectId tags = true ↔ access.isSome = true) ∧
    ((ctx.searchScope.narrowedTo page.projectId).grants page.projectId tags = true ↔
      access.isSome = true) ∧
    (page.projectId ≠ P → ∀ excluded, (∀ x, ¬db.groups.Linked (Grants false) excluded P x) →
      (g ∈ db.reachablePageIds P excluded false ↔ access.isSome = true)) ∧
    (page.projectId ≠ P → (access = some .readWrite ↔
      db.lockedForeignCheck ⟨P, page.projectId⟩ page.projectId g page.slug = .ok page)) := by
  intro tags access
  have hof : ContextOf db P ctx := by
    rcases hctx with rfl | rfl
    · exact contextOf_inTx db P
    · exact contextOf_load db P
  obtain ⟨hscope, hnarrowed⟩ := searchScope_grants hof page
  refine ⟨hscope, ?_, ?_, ?_⟩
  · rw [hnarrowed]
    exact hscope
  · intro hforeign excluded hnothing
    rw [WikiDb.mem_reachablePageIds, accessTo_isSome hof hpage hforeign]
    constructor
    · rintro ⟨t, -, ht⟩
      exact ⟨t, ht⟩
    · rintro ⟨t, ht⟩
      refine ⟨t, ?_, ht⟩
      rintro rfl
      exact hnothing g ht
  · intro hforeign
    rw [accessTo_readWrite hof hpage hforeign, lockedForeignCheck_ok hpage hforeign]

/-- Two projects and a page of the one, under two tags, with these members. -/
def twoTagWiki (members : List TagMember) (hkeys : (members.map TagMember.id).Nodup := by decide)
    (hedges : ∀ m ∈ members, ∀ m' ∈ members, m.revoked = false → m'.revoked = false →
      m.tagId = m'.tagId → m.projectId = m'.projectId → m = m' := by decide)
    (htags : ∀ m ∈ members, ∃ t ∈ ([⟨"t1", "one"⟩, ⟨"t2", "two"⟩] : List WikiTag), t.id = m.tagId := by
      decide) : WikiDb where
  projects := ⟨[⟨"owner", some "owner", false⟩, ⟨"reader", some "reader", false⟩], by decide⟩
  tags := ⟨[⟨"t1", "one"⟩, ⟨"t2", "two"⟩], by decide⟩
  members := ⟨members, hkeys⟩
  pages := ⟨[⟨"g", "owner", "page", "Page", "text", 1, none, none, false⟩], by decide⟩
  pageTags := [⟨"g", "t1"⟩, ⟨"g", "t2"⟩]
  revisions := []
  crossProjectWrites := none
  names := by decide
  edges := hedges
  memberTags := htags
  pageTagTags := by decide
  pageTagPages := by simp

/-- The owner shares under both tags; `reader` reads the page through the first. -/
def rereadWiki : WikiDb := twoTagWiki [⟨"1", "t1", "owner", .readWrite, false⟩,
  ⟨"2", "t1", "reader", .read, false⟩, ⟨"3", "t2", "owner", .readWrite, false⟩]

theorem visibility_checks_agree_reader :
    let ctx := rereadWiki.contextInTx "reader"
    let tags := rereadWiki.pageTagNames "g"
    (ctx.searchScope.grants "owner" tags = true ↔ (ctx.accessTo "owner" tags).isSome = true) ∧
      (ctx.accessTo "owner" tags = some .readWrite ↔
        rereadWiki.lockedForeignCheck ⟨"reader", "owner"⟩ "owner" "g" "page" =
          .ok ⟨"g", "owner", "page", "Page", "text", 1, none, none, false⟩) := by
  have hagree := visibility_checks_agree rereadWiki "reader" "g"
    ⟨"g", "owner", "page", "Page", "text", 1, none, none, false⟩ rfl _ (.inl rfl)
  exact ⟨hagree.1, hagree.2.2.2 (by decide)⟩

end AgentBeacon
