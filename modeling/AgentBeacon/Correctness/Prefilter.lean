import AgentBeacon.Db.BatchSearch

/-!
# `Correctness.Prefilter` — the search in the text loses no row

What a decoded payload holds stands in its text, in the form in which the id of a batch is looked for: the
serialized id without its quotes, each of whose characters the pattern takes for itself. So a row that the
filter drops would not have been decoded into anything.
-/

namespace AgentBeacon
open Like
open Resolution

/-! ## What a value holds stands in its text -/

namespace Json

theorem compactItems_within {item : Json} {items : List Json} (h : item ∈ items) :
    item.compact <:+: (compactItems items).tail := by
  induction items with
  | nil => cases h
  | cons head items ih =>
      rw [compactItems, List.tail_cons]
      rcases List.mem_cons.mp h with rfl | hmem
      · exact (List.prefix_append _ _).isInfix
      · have htail : (compactItems items).tail <:+: compactItems items := (List.tail_suffix _).isInfix
        exact (ih hmem).trans (htail.trans (List.suffix_append _ _).isInfix)

theorem compactMembers_within {key : String} {value : Json} {members : List (String × Json)}
    (h : (key, value) ∈ members) : value.compact <:+: (compactMembers members).tail := by
  induction members with
  | nil => cases h
  | cons head members ih =>
      obtain ⟨k, v⟩ := head
      rw [compactMembers, List.tail_cons]
      rcases List.mem_cons.mp h with heq | hmem
      · obtain ⟨rfl, rfl⟩ := Prod.mk.inj heq
        refine List.IsInfix.trans ?_ (List.suffix_append _ _).isInfix
        exact List.infix_cons (List.prefix_append _ _).isInfix
      · have htail : (compactMembers members).tail <:+: compactMembers members := (List.tail_suffix _).isInfix
        refine (ih hmem).trans (htail.trans ?_)
        refine List.IsInfix.trans ?_ (List.suffix_append _ _).isInfix
        exact List.infix_cons (List.suffix_append _ _).isInfix

theorem within_brackets {text inner : List Char} (a b : Char) (h : text <:+: inner) :
    text <:+: a :: (inner ++ [b]) :=
  List.infix_cons (h.trans (List.prefix_append _ _).isInfix)

/-- A member of a value. -/
theorem get_within {v w : Json} {key : String} (h : v.get key = some w) : w.compact <:+: v.compact := by
  cases v with
  | obj members =>
      have hmem : (key, w) ∈ members := by
        obtain ⟨l, l', heq, -⟩ := List.lookup_eq_some_iff.mp h
        rw [heq]
        simp
      rw [compact]
      exact within_brackets _ _ (compactMembers_within hmem)
  | _ => cases h

/-- An item of a value. -/
theorem asArray_within {v item : Json} {items : List Json} (h : v.asArray = some items) (hmem : item ∈ items) :
    item.compact <:+: v.compact := by
  cases v with
  | arr _ =>
      cases h
      rw [compact]
      exact within_brackets _ _ (compactItems_within hmem)
  | _ => cases h

theorem asStr_eq_some {v : Json} {s : String} (h : v.asStr = some s) : v = .str s := by
  cases v with
  | str t =>
      cases h
      rfl
  | _ => cases h

end Json

/-- The id of a batch, as it stands in a text. -/
def escapedId (batchId : String) : List Char := batchId.toList.flatMap Json.escapeChar

theorem escapedId_within (batchId : String) : escapedId batchId <:+: (Json.str batchId).compact := by
  rw [Json.compact, Json.quoted]
  exact Json.within_brackets _ _ List.infix_rfl

/-- The quotes of the serialized id are taken off. -/
theorem likePatternForBatchId_eq (batchId : String) :
    likePatternForBatchId batchId = '%' :: (Like.escape (escapedId batchId) ++ ['%']) := by
  unfold likePatternForBatchId
  simp [Json.compact, Json.quoted, escapedId]

/-- **A payload whose text has the id is kept.** -/
theorem payloadLike_of_within (collation : Collation) {batchId : String} {payload : Json}
    (h : escapedId batchId <:+: payload.compact) : payloadLike collation batchId payload = true := by
  rw [payloadLike, likePatternForBatchId_eq]
  exact like_within h

/-! ## What is decoded stands in the text -/

theorem batchId_within {data value part payload : Json} {parts : List Json} {batchId : String}
    (hparts : parseParts payload = some parts) (hpart : part ∈ parts) (hdata : partData part = some data)
    (hget : data.get "batch_id" = some value) (hvalue : value.asStr = some batchId) :
    escapedId batchId <:+: payload.compact := by
  have hstr := Json.asStr_eq_some hvalue
  subst hstr
  unfold parseParts at hparts
  simp only [Option.bind_eq_bind, Option.bind_eq_some_iff] at hparts
  obtain ⟨array, harray, items, hitems, hvalid⟩ := hparts
  have hsame : items = parts := by
    split at hvalid
    · exact Option.some.inj hvalid
    · cases hvalid
  subst hsame
  have hbatch := (escapedId_within batchId).trans (Json.get_within hget)
  have hinpart := hbatch.trans (Json.get_within hdata)
  exact (hinpart.trans (Json.asArray_within hitems hpart)).trans (Json.get_within harray)

/-- An escalation of the batch keeps its payload. -/
theorem payloadLike_of_escalateParts (collation : Collation) {batchId : String} {payload : Json}
    {p : EscalatePart} (hp : p ∈ escalateParts payload) (hbatch : p.batchId = batchId) :
    payloadLike collation batchId payload = true := by
  unfold escalateParts at hp
  split at hp
  · cases hp
  · split at hp
    · cases hp
    · next parts hparts =>
        obtain ⟨⟨part, ordinal⟩, hmem, hpart⟩ := List.mem_filterMap.mp hp
        unfold escalatePart at hpart
        simp only [Option.bind_eq_bind, Option.bind_eq_some_iff] at hpart
        obtain ⟨data, hdata, hrest⟩ := hpart
        split at hrest
        · simp only [Option.bind_eq_some_iff] at hrest
          obtain ⟨value, hget, id, hvalue, heq⟩ := hrest
          cases heq
          subst hbatch
          have hin : part ∈ parts := (List.mem_zipIdx' hmem).2 ▸ List.getElem_mem _
          exact payloadLike_of_within collation (batchId_within hparts hin hdata hget hvalue)
        · cases hrest

/-- A candidate for the batch keeps its payload. -/
theorem payloadLike_of_candidate (collation : Collation) {batchId : String} {payload : Json}
    {parts : List Json} {ownEventId : Int} {c : ResolutionCandidate} (hparts : parseParts payload = some parts)
    (hc : c ∈ resolutionCandidates parts ownEventId) (hbatch : c.batchId = batchId) :
    payloadLike collation batchId payload = true := by
  unfold resolutionCandidates at hc
  split at hc
  · cases hc
  · obtain ⟨⟨part, ordinal⟩, hmem, hpart⟩ := List.mem_filterMap.mp hc
    unfold candidateOfPart at hpart
    simp only [Option.bind_eq_bind, Option.bind_eq_some_iff] at hpart
    obtain ⟨data, hdata, value, hget, id, hvalue, hrest⟩ := hpart
    have hid : c.batchId = id := by
      split at hrest
      · cases hrest
        rfl
      · split at hrest
        · cases hrest
          rfl
        · cases hrest
    obtain rfl := hbatch.symm.trans hid
    have hin : part ∈ parts := (List.mem_zipIdx' hmem).2 ▸ List.getElem_mem _
    exact payloadLike_of_within collation (batchId_within hparts hin hdata hget hvalue)

/-! ## Rows that the filter drops -/

section Dropped

variable {α β : Type} {keep wanted : α → Bool} {rows : List α}

theorem findSome?_prefilter {f : α → Option β} (h : ∀ a, (f a).isSome → keep a = true) :
    (rows.filter fun a => wanted a && keep a).findSome? f = (rows.filter wanted).findSome? f := by
  induction rows with
  | nil => rfl
  | cons a rows ih =>
      by_cases hwanted : wanted a = true
      · by_cases hkeep : keep a = true
        · simp [List.findSome?_cons, hwanted, hkeep, ih]
        · have hnone : f a = none := by
            rw [← Option.not_isSome_iff_eq_none]
            exact fun hsome => hkeep (h a hsome)
          simp [hwanted, hkeep, hnone, ih]
      · simp [hwanted, ih]

theorem flatMap_prefilter {f : α → List β} (h : ∀ a, f a ≠ [] → keep a = true) :
    (rows.filter fun a => wanted a && keep a).flatMap f = (rows.filter wanted).flatMap f := by
  induction rows with
  | nil => rfl
  | cons a rows ih =>
      by_cases hwanted : wanted a = true
      · by_cases hkeep : keep a = true
        · simp [hwanted, hkeep, ih]
        · have hnil : f a = [] := by
            by_contra hne
            exact hkeep (h a hne)
          simp [hwanted, hkeep, hnil, ih]
      · simp [hwanted, ih]

/-- In rows that are in order, a search that stops at the first hit finds the least one. -/
theorem findSome?_least {f : α → Option β} {key : α → Nat} (hascending : (rows.map key).Pairwise (· < ·)) {b : β} :
    rows.findSome? f = some b ↔
      ∃ a ∈ rows, f a = some b ∧ ∀ a' ∈ rows, (f a').isSome → key a ≤ key a' := by
  induction rows with
  | nil => simp
  | cons a rows ih =>
      obtain ⟨hfirst, hascending⟩ := List.pairwise_cons.mp hascending
      rw [List.findSome?_cons]
      cases hfa : f a with
      | some found =>
          constructor
          · intro h
            obtain rfl := Option.some.inj h
            refine ⟨a, List.mem_cons_self .., hfa, fun a' ha' _ => ?_⟩
            rcases List.mem_cons.mp ha' with rfl | ha'
            · exact Nat.le_refl _
            · exact Nat.le_of_lt (hfirst _ (List.mem_map_of_mem ha'))
          · rintro ⟨a', ha', hb, hleast⟩
            rcases List.mem_cons.mp ha' with rfl | ha'
            · exact hfa.symm.trans hb
            · have hle := hleast a (List.mem_cons_self ..) (by rw [hfa]; rfl)
              have hlt := hfirst _ (List.mem_map_of_mem ha')
              omega
      | none =>
          rw [ih hascending]
          constructor
          · rintro ⟨a', ha', hb, hleast⟩
            refine ⟨a', List.mem_cons_of_mem _ ha', hb, fun x hx hsome => ?_⟩
            rcases List.mem_cons.mp hx with rfl | hx
            · rw [hfa] at hsome
              cases hsome
            · exact hleast x hx hsome
          · rintro ⟨a', ha', hb, hleast⟩
            rcases List.mem_cons.mp ha' with rfl | ha'
            · rw [hfa] at hb
              cases hb
            · exact ⟨a', ha', hb, fun x hx => hleast x (List.mem_cons_of_mem _ hx)⟩

end Dropped

/-- The search for the owner, with the filter and without it. -/
theorem findBatchOwner_prefilter (collation : Collation) (db : Db) (batchId : String) :
    db.findBatchOwner (payloadLike collation batchId) batchId = db.findBatchOwner (fun _ => true) batchId := by
  unfold Db.findBatchOwner Db.platformEvents
  simp only [Bool.and_true]
  refine findSome?_prefilter fun row hsome => ?_
  obtain ⟨owner, howner⟩ := Option.isSome_iff_exists.mp hsome
  unfold Db.ownerOfRow at howner
  simp only [Option.bind_eq_bind, Option.bind_eq_some_iff] at howner
  obtain ⟨sessionId, -, session, -, hrest⟩ := howner
  split at hrest
  · next hfound =>
      obtain ⟨p, hp, hbatch⟩ := List.any_eq_true.mp hfound.2
      exact payloadLike_of_escalateParts collation hp (of_decide_eq_true hbatch)
  · cases hrest

/-- The search for the resolution, with the filter and without it. -/
theorem findResolution_prefilter (collation : Collation) (db : Db) (batchId : String) (executionId : ExecutionId)
    (sessionId : SessionId) :
    db.findResolutionForBatch (payloadLike collation batchId) executionId sessionId batchId =
      db.findResolutionForBatch (fun _ => true) executionId sessionId batchId := by
  unfold Db.findResolutionForBatch Db.platformEvents
  simp only [Bool.and_true]
  have hrows : (db.events.rows.filter fun e =>
      decide (e.eventType = .platform) && payloadLike collation batchId e.payload).flatMap
        (Db.candidatesOfRow executionId sessionId batchId) =
      (db.events.rows.filter fun e => e.eventType = .platform).flatMap
        (Db.candidatesOfRow executionId sessionId batchId) := by
    refine flatMap_prefilter fun row hne => ?_
    obtain ⟨c, hc⟩ := List.exists_mem_of_ne_nil _ hne
    unfold Db.candidatesOfRow at hc
    split at hc
    · cases hc
    · split at hc
      · cases hc
      · next parts hparts =>
          obtain ⟨hmem, hbatch⟩ := List.mem_filter.mp hc
          exact payloadLike_of_candidate collation hparts hmem (of_decide_eq_true hbatch)
  rw [hrows]

/-! ## What the searches find -/

/-- The row is one of the owner's that asks about the batch. -/
structure Asks (db : Db) (batchId : String) (row : EventRow) (owner : ExecutionId × SessionId) : Prop where
  platform : row.eventType = .platform
  execution : row.executionId = owner.1
  session : row.sessionId = some owner.2
  coherent : ∃ session, db.sessions.find? owner.2 = some session ∧ session.executionId = owner.1
  part : ∃ p ∈ escalateParts row.payload, p.batchId = batchId

/-- The candidate resolves the batch in a row of the owner. -/
structure ResolvesBatch (db : Db) (executionId : ExecutionId) (sessionId : SessionId) (batchId : String)
    (row : EventRow) (c : ResolutionCandidate) : Prop where
  logged : row ∈ db.events.rows
  platform : row.eventType = .platform
  execution : row.executionId = executionId
  session : row.sessionId = some sessionId
  parts : ∃ parts, parseParts row.payload = some parts ∧ c ∈ resolutionCandidates parts row.id
  batch : c.batchId = batchId

theorem ownerOfRow_eq_some {db : Db} {batchId : String} {row : EventRow} {owner : ExecutionId × SessionId}
    (hplatform : row.eventType = .platform) :
    db.ownerOfRow batchId row = some owner ↔ Asks db batchId row owner := by
  unfold Db.ownerOfRow
  simp only [Option.bind_eq_bind, Option.bind_eq_some_iff]
  constructor
  · rintro ⟨sessionId, hid, session, hsession, hrest⟩
    split at hrest
    · next hfound =>
        obtain rfl := Option.some.inj hrest
        obtain ⟨p, hp, hbatch⟩ := List.any_eq_true.mp hfound.2
        exact ⟨hplatform, rfl, hid, ⟨session, hsession, hfound.1⟩, p, hp, of_decide_eq_true hbatch⟩
    · cases hrest
  · rintro ⟨-, hexecution, hid, ⟨session, hsession, hcoherent⟩, p, hp, hbatch⟩
    refine ⟨owner.2, hid, session, hsession, ?_⟩
    rw [if_pos ⟨hcoherent.trans hexecution.symm, List.any_eq_true.mpr ⟨p, hp, decide_eq_true hbatch⟩⟩, hexecution]

theorem mem_candidatesOfRow {db : Db} {executionId : ExecutionId} {sessionId : SessionId} {batchId : String}
    {c : ResolutionCandidate} :
    c ∈ (db.platformEvents fun _ => true).flatMap (Db.candidatesOfRow executionId sessionId batchId) ↔
      ∃ row, ResolvesBatch db executionId sessionId batchId row c := by
  unfold Db.platformEvents Db.candidatesOfRow
  rw [List.mem_flatMap]
  constructor
  · rintro ⟨row, hrow, hc⟩
    obtain ⟨hrow, hplatform⟩ := List.mem_filter.mp hrow
    split at hc
    · cases hc
    · next howner =>
        obtain ⟨hexecution, hsession⟩ := not_or.mp howner
        split at hc
        · cases hc
        · next parts hparts =>
            obtain ⟨hc, hbatch⟩ := List.mem_filter.mp hc
            exact ⟨row, hrow, by simpa using hplatform, not_not.mp hexecution, not_not.mp hsession,
              ⟨parts, hparts, hc⟩, of_decide_eq_true hbatch⟩
  · rintro ⟨row, hrow, hplatform, hexecution, hsession, ⟨parts, hparts, hc⟩, hbatch⟩
    refine ⟨row, List.mem_filter.mpr ⟨hrow, by simp [hplatform]⟩, ?_⟩
    rw [if_neg (not_or.mpr ⟨not_not.mpr hexecution, not_not.mpr hsession⟩), hparts]
    exact List.mem_filter.mpr ⟨hc, decide_eq_true hbatch⟩

/-- The key of a candidate names its row and its part. -/
theorem orderKey_of_mem {parts : List Json} {ownEventId : Int} {c : ResolutionCandidate}
    (hc : c ∈ resolutionCandidates parts ownEventId) :
    c.orderKey.ownEventId = ownEventId ∧ ∃ ordinal : Nat, c.orderKey.partOrdinal = ordinal ∧
      (parts[ordinal]?).bind (candidateOfPart ownEventId ordinal) = some c := by
  unfold resolutionCandidates at hc
  split at hc
  · cases hc
  · obtain ⟨⟨part, ordinal⟩, hmem, hpart⟩ := List.mem_filterMap.mp hc
    have hat : parts[ordinal]? = some part := by
      obtain ⟨hlt, heq⟩ := List.mem_zipIdx' hmem
      rw [List.getElem?_eq_getElem hlt, heq]
    have hkey : c.orderKey.ownEventId = ownEventId ∧ c.orderKey.partOrdinal = ordinal := by
      unfold candidateOfPart at hpart
      simp only [Option.bind_eq_bind, Option.bind_eq_some_iff] at hpart
      obtain ⟨data, -, value, -, id, -, hrest⟩ := hpart
      split at hrest
      · cases hrest
        exact ⟨rfl, rfl⟩
      · split at hrest
        · cases hrest
          exact ⟨rfl, rfl⟩
        · cases hrest
    exact ⟨hkey.1, ordinal, hkey.2, by rw [hat]; exact hpart⟩

/-- No two candidates of the log have one key. -/
theorem ResolvesBatch.unique {db : Db} {executionId : ExecutionId} {sessionId : SessionId} {batchId : String}
    {row row' : EventRow} {c c' : ResolutionCandidate} (h : ResolvesBatch db executionId sessionId batchId row c)
    (h' : ResolvesBatch db executionId sessionId batchId row' c') (hkey : c.orderKey = c'.orderKey) : c = c' := by
  obtain ⟨parts, hparts, hc⟩ := h.parts
  obtain ⟨parts', hparts', hc'⟩ := h'.parts
  obtain ⟨hown, ordinal, hordinal, hat⟩ := orderKey_of_mem hc
  obtain ⟨hown', ordinal', hordinal', hat'⟩ := orderKey_of_mem hc'
  have hid : row.id = row'.id := Int.ofNat_inj.mp (by rw [← hown, ← hown', hkey])
  obtain rfl := db.events.eq_of_key_eq h.logged h'.logged hid
  obtain rfl := Option.some.inj (hparts.symm.trans hparts')
  have hsame : ordinal = ordinal' := Int.ofNat_inj.mp (by rw [← hordinal, ← hordinal', hkey])
  subst hsame
  exact Option.some.inj (hat.symm.trans hat')

/-- **The owner** is that of the first row that asks. -/
theorem findBatchOwner_eq_some {db : Db} {batchId : String} {owner : ExecutionId × SessionId} :
    db.findBatchOwner (fun _ => true) batchId = some owner ↔ ∃ row ∈ db.events.rows, Asks db batchId row owner ∧
      ∀ other ∈ db.events.rows, ∀ owner', Asks db batchId other owner' → row.id ≤ other.id := by
  have hplatform : ∀ row, row ∈ db.platformEvents (fun _ => true) ↔
      row ∈ db.events.rows ∧ row.eventType = .platform := by
    intro row
    unfold Db.platformEvents
    simp [List.mem_filter]
  have hascending : ((db.platformEvents fun _ => true).map EventRow.id).Pairwise (· < ·) :=
    db.events.ascending.sublist (List.filter_sublist.map _)
  unfold Db.findBatchOwner
  rw [findSome?_least hascending]
  constructor
  · rintro ⟨row, hrow, howner, hleast⟩
    obtain ⟨hmem, htype⟩ := (hplatform row).mp hrow
    refine ⟨row, hmem, (ownerOfRow_eq_some htype).mp howner, fun other hother owner' hasks => ?_⟩
    have hsome := (ownerOfRow_eq_some hasks.platform).mpr hasks
    exact hleast other ((hplatform other).mpr ⟨hother, hasks.platform⟩) (Option.isSome_iff_exists.mpr ⟨owner', hsome⟩)
  · rintro ⟨row, hrow, hasks, hleast⟩
    refine ⟨row, (hplatform row).mpr ⟨hrow, hasks.platform⟩, (ownerOfRow_eq_some hasks.platform).mpr hasks,
      fun other hother hsome => ?_⟩
    obtain ⟨hother, htype⟩ := (hplatform other).mp hother
    obtain ⟨owner', howner⟩ := Option.isSome_iff_exists.mp hsome
    exact hleast other hother owner' ((ownerOfRow_eq_some htype).mp howner)

/-- **The resolution** is that of the smallest key. -/
theorem findResolution_eq_some {db : Db} {executionId : ExecutionId} {sessionId : SessionId} {batchId : String}
    {kind : ResolutionKind} :
    db.findResolutionForBatch (fun _ => true) executionId sessionId batchId = some kind ↔
      ∃ row c, ResolvesBatch db executionId sessionId batchId row c ∧ c.kind = kind ∧
        ∀ other c', ResolvesBatch db executionId sessionId batchId other c' → c'.orderKey.lt c.orderKey = false := by
  unfold Db.findResolutionForBatch
  rw [Option.map_eq_some_iff]
  constructor
  · rintro ⟨c, hfound, hkind⟩
    rcases mem_of_foldl_better hfound with hnone | hmem
    · cases hnone
    · obtain ⟨row, hresolves⟩ := mem_candidatesOfRow.mp hmem
      exact ⟨row, c, hresolves, hkind, fun other c' hother =>
        (foldl_better_least hfound).2 c' (mem_candidatesOfRow.mpr ⟨other, hother⟩)⟩
  · rintro ⟨row, c, hresolves, hkind, hleast⟩
    have hmem := mem_candidatesOfRow.mpr ⟨row, hresolves⟩
    cases hfound : ((db.platformEvents fun _ => true).flatMap
        (Db.candidatesOfRow executionId sessionId batchId)).foldl better none with
    | none => exact absurd (foldl_better_eq_none.mp hfound).2 (List.ne_nil_of_mem hmem)
    | some winner =>
        refine ⟨winner, rfl, ?_⟩
        rcases mem_of_foldl_better hfound with hnone | hwinner
        · cases hnone
        · -- the smallest key belongs to one candidate only
          obtain ⟨other, hother⟩ := mem_candidatesOfRow.mp hwinner
          have hkey := OrderKey.eq_of_not_lt ((foldl_better_least hfound).2 c hmem) (hleast other winner hother)
          rw [← hresolves.unique hother hkey]
          exact hkind

/-- **The filter loses nothing.** For every database, every id and either comparison of letters, the owner of
a batch and its resolution are those that are found when every row is decoded: the owner is that of the first row of
the log that asks about the batch, and the resolution is that of the smallest key among the answers and the dismissals
of the owner that name it. -/
theorem prefilter_complete (collation : Collation) (db : Db) (batchId : String) :
    db.findBatchOwner (payloadLike collation batchId) batchId = db.findBatchOwner (fun _ => true) batchId ∧
    (∀ owner, db.findBatchOwner (payloadLike collation batchId) batchId = some owner ↔
      ∃ row ∈ db.events.rows, Asks db batchId row owner ∧
        ∀ other ∈ db.events.rows, ∀ owner', Asks db batchId other owner' → row.id ≤ other.id) ∧
    ∀ (executionId : ExecutionId) (sessionId : SessionId),
      db.findResolutionForBatch (payloadLike collation batchId) executionId sessionId batchId =
        db.findResolutionForBatch (fun _ => true) executionId sessionId batchId ∧
      ∀ kind, db.findResolutionForBatch (payloadLike collation batchId) executionId sessionId batchId = some kind ↔
        ∃ row c, ResolvesBatch db executionId sessionId batchId row c ∧ c.kind = kind ∧
          ∀ other c', ResolvesBatch db executionId sessionId batchId other c' → c'.orderKey.lt c.orderKey = false := by
  refine ⟨findBatchOwner_prefilter collation db batchId, fun owner => ?_, fun executionId sessionId =>
    ⟨findResolution_prefilter collation db batchId executionId sessionId, fun kind => ?_⟩⟩
  · rw [findBatchOwner_prefilter]
    exact findBatchOwner_eq_some
  · rw [findResolution_prefilter]
    exact findResolution_eq_some

/-! ### Two ids that SQLite takes for one -/

def askPayload (batchId : String) : Json :=
  .obj [("role", .str roleAgent), ("parts", .arr [Json.dataPart (.obj
    [("type", .str escalateType), ("batch_id", .str batchId)])])]

def askingSession (id : SessionId) : Session :=
  ⟨id, "x", none, "agent", none, none, none, none, id, 0, .run, .idle, none, none, none, none, none, false, none, false,
    none, "", 0⟩

/-- Two sessions ask about batches whose ids differ in the case of a letter, and the second one's is dismissed. -/
def twoSpellings : Db :=
  { Db.empty with
    sessions := ⟨[askingSession "s1", askingSession "s2"], by decide⟩
    events := ⟨[⟨1, "x", some "s1", .platform, askPayload "B1", none, 0⟩,
      ⟨2, "x", some "s2", .platform, askPayload "b1", none, 0⟩,
      ⟨3, "x", some "s2", .platform, dismissPayload "b1" 2, none, 0⟩], 4, by decide, by decide⟩ }

theorem prefilter_complete_folding :
    payloadLike .asciiFolding "b1" (askPayload "B1") = true ∧
      twoSpellings.findBatchOwner (payloadLike .asciiFolding "b1") "b1" = some ("x", "s2") ∧
      twoSpellings.findResolutionForBatch (payloadLike .asciiFolding "b1") "x" "s2" "b1" = some .dismiss := by
  obtain ⟨howner, -, hresolution⟩ := prefilter_complete .asciiFolding twoSpellings "b1"
  rw [howner, (hresolution "x" "s2").1]
  exact ⟨by decide +kernel, by decide +kernel, by decide +kernel⟩

end AgentBeacon
