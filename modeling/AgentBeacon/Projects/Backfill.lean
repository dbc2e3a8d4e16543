import AgentBeacon.Projects.Store
import Mathlib.Data.List.Perm.Basic

/-!
# `Projects.Backfill` — the slugs of the backfill

What `backfill_slugs` gives a project depends on the table alone, not on the order of its rows: the candidate
where no other slugless project has the same one and no project has it already, the id otherwise. A candidate
never is the id of another project, so the slugs given on the way do not matter.
-/

namespace AgentBeacon
namespace Projects

variable {rows read : List Project}

/-- The candidate of a project. -/
def candidateOf (p : Project) : List Char := deriveSlug p.name p.id

/-- The slug that the backfill gives. -/
def slugFor (rows : List Project) (p : Project) : List Char :=
  if ((pendingSlugs rows).map Prod.snd).count (candidateOf p) = 1 && !(takenSlugs rows).contains (candidateOf p) then
    candidateOf p
  else p.id

theorem slugFor_cases (rows : List Project) (p : Project) :
    (((pendingSlugs rows).map Prod.snd).count (candidateOf p) = 1 ∧ candidateOf p ∉ takenSlugs rows ∧
      slugFor rows p = candidateOf p) ∨ slugFor rows p = p.id := by
  unfold slugFor
  split
  · next h =>
      simp only [Bool.and_eq_true, decide_eq_true_iff, Bool.not_eq_true', List.contains_eq_mem,
        decide_eq_false_iff_not] at h
      exact .inl ⟨h.1, h.2, rfl⟩
  · exact .inr rfl

theorem mem_takenSlugs {s : List Char} : s ∈ takenSlugs rows ↔ ∃ p ∈ rows, p.slug = some s :=
  List.mem_filterMap

theorem mem_pendingSlugs {id candidate : List Char} :
    (id, candidate) ∈ pendingSlugs rows ↔ ∃ p ∈ rows, p.slug = none ∧ p.id = id ∧ candidateOf p = candidate := by
  simp [pendingSlugs, candidateOf, and_assoc]

/-- Projects with the only copy of a candidate are the same. -/
theorem eq_of_candidate {p q : Project} (hp : p ∈ rows) (hpnone : p.slug = none) (hq : q ∈ rows)
    (hqnone : q.slug = none) (heq : candidateOf p = candidateOf q)
    (hcount : ((pendingSlugs rows).map Prod.snd).count (candidateOf p) = 1) : p = q := by
  have hcandidates : (pendingSlugs rows).map Prod.snd = (rows.filter fun p => p.slug.isNone).map candidateOf := by
    unfold pendingSlugs
    rw [List.map_map]
    rfl
  rw [hcandidates, List.count_eq_countP, List.countP_map, List.countP_eq_length_filter,
    List.length_eq_one_iff] at hcount
  obtain ⟨r, hr⟩ := hcount
  have hmem : ∀ t ∈ rows, t.slug = none → candidateOf t = candidateOf p → t = r := by
    intro t ht hnone hcandidate
    rw [← List.mem_singleton, ← hr, List.mem_filter, List.mem_filter]
    simp [ht, hnone, hcandidate]
  rw [hmem p hp hpnone rfl, hmem q hq hqnone heq.symm]

/-- What the slugs of a table must be like: an id only as the slug of its own project. -/
def Unclaimed (rows : List Project) : Prop :=
  ∀ p ∈ rows, ∀ s, p.slug = some s → isUuidShaped s = true → s = p.id

/-- The ids of the projects. -/
def UuidIds (rows : List Project) : Prop := ∀ p ∈ rows, IsUuid p.id

theorem candidate_eq_id {p q : Project} (hq : IsUuid q.id) (h : candidateOf p = q.id) : p.id = q.id := by
  have hshaped : isUuidShaped (candidateOf p) = true := by
    rw [h]
    exact hq.shaped
  rw [← h]
  exact (deriveSlug_uuid hshaped).symm

/-- The slugs given are different. -/
theorem slugFor_inj (haccepted : Accepted rows) (hids : UuidIds rows) {p q : Project} (hp : p ∈ rows)
    (hpnone : p.slug = none) (hq : q ∈ rows) (hqnone : q.slug = none) (h : slugFor rows p = slugFor rows q) :
    p = q := by
  -- each has its candidate or its id; a candidate is an id only if it is its project's own
  obtain ⟨hcount, -, hcandidate⟩ | hown := slugFor_cases rows p
  · obtain ⟨-, -, hcandidate'⟩ | hown' := slugFor_cases rows q
    · rw [hcandidate, hcandidate'] at h
      exact eq_of_candidate hp hpnone hq hqnone h hcount
    · rw [hcandidate, hown'] at h
      exact haccepted.same_of_id hp hq (candidate_eq_id (hids q hq) h)
  · obtain ⟨-, -, hcandidate'⟩ | hown' := slugFor_cases rows q
    · rw [hown, hcandidate'] at h
      exact haccepted.same_of_id hp hq (candidate_eq_id (hids p hp) h.symm).symm
    · rw [hown, hown'] at h
      exact haccepted.same_of_id hp hq h

/-- A slug given is none that a project has. -/
theorem slugFor_fresh (haccepted : Accepted rows) (hids : UuidIds rows) (hslugs : Unclaimed rows) {p q : Project}
    (hp : p ∈ rows) (hpnone : p.slug = none) (hq : q ∈ rows) {s : List Char} (hqsome : q.slug = some s) :
    slugFor rows p ≠ s := by
  rintro rfl
  obtain ⟨-, hfree, hcandidate⟩ | hown := slugFor_cases rows p
  · rw [hcandidate] at hqsome
    exact hfree (mem_takenSlugs.mpr ⟨q, hq, hqsome⟩)
  · rw [hown] at hqsome
    have hid := hslugs q hq p.id hqsome (hids p hp).shaped
    rw [haccepted.same_of_id hp hq hid, hqsome] at hpnone
    cases hpnone

/-! ## The table on the way -/

/-- A project behind the update of those ids. -/
def fill (rows : List Project) (done : List (List Char)) (p : Project) : Project :=
  if p.slug = none ∧ done.contains p.id = true then { p with slug := some (slugFor rows p) } else p

theorem fill_id (done : List (List Char)) (p : Project) : (fill rows done p).id = p.id := by
  unfold fill
  split <;> rfl

theorem fill_deleted (done : List (List Char)) (p : Project) : (fill rows done p).deleted = p.deleted := by
  unfold fill
  split <;> rfl

theorem fill_slug {done : List (List Char)} {p : Project} {s : List Char}
    (h : (fill rows done p).slug = some s) : p.slug = some s ∨ p.slug = none ∧ s = slugFor rows p := by
  unfold fill at h
  split at h
  · next hdone =>
      cases h
      exact .inr ⟨hdone.1, rfl⟩
  · exact .inl h

theorem fill_accepted (haccepted : Accepted rows) (hids : UuidIds rows) (hslugs : Unclaimed rows)
    (done : List (List Char)) : Accepted (rows.map (fill rows done)) := by
  rw [accepted_iff, List.map_map]
  constructor
  · have hsame : Project.id ∘ fill rows done = Project.id := funext fun p => fill_id done p
    rw [hsame]
    exact (accepted_iff.mp haccepted).1
  · intro p' hp' q' hq' hne hclash
    obtain ⟨p, hp, rfl⟩ := List.mem_map.mp hp'
    obtain ⟨q, hq, rfl⟩ := List.mem_map.mp hq'
    rw [fill_id, fill_id] at hne
    obtain ⟨hpactive, hqactive, hsome, heq⟩ := hclash
    rw [fill_deleted] at hpactive hqactive
    obtain ⟨s, hs⟩ := Option.isSome_iff_exists.mp hsome
    rw [hs] at heq
    -- two old slugs, an old and a new one, or two new ones
    obtain hpslug | ⟨hpnone, hps⟩ := fill_slug hs
    · obtain hqslug | ⟨hqnone, hqs⟩ := fill_slug heq.symm
      · refine (accepted_iff.mp haccepted).2 p hp q hq hne ⟨hpactive, hqactive, ?_, hpslug.trans hqslug.symm⟩
        rw [hpslug]
        rfl
      · exact slugFor_fresh haccepted hids hslugs hq hqnone hp hpslug hqs.symm
    · obtain hqslug | ⟨hqnone, hqs⟩ := fill_slug heq.symm
      · exact slugFor_fresh haccepted hids hslugs hp hpnone hq hqslug hps.symm
      · have hsame := slugFor_inj haccepted hids hp hpnone hq hqnone (hps.symm.trans hqs)
        exact hne (congrArg Project.id hsame)

theorem setSlug_fill (haccepted : Accepted rows) (hids : UuidIds rows) (hslugs : Unclaimed rows) {p : Project}
    (hp : p ∈ rows) (hpnone : p.slug = none) {done : List (List Char)} (hdone : p.id ∉ done) :
    setSlug (rows.map (fill rows done)) (slugFor rows p) p.id = some (rows.map (fill rows (p.id :: done))) := by
  have hmap : (rows.map (fill rows done)).map
      (fun r => if r.id = p.id then { r with slug := some (slugFor rows p) } else r) =
        rows.map (fill rows (p.id :: done)) := by
    rw [List.map_map]
    apply List.map_congr_left
    intro r hr
    simp only [Function.comp_apply, fill_id]
    split
    -- the row under the id is the project itself
    · next hid =>
        obtain rfl := haccepted.same_of_id hr hp hid
        unfold fill
        simp [hpnone, hdone]
    · next hid =>
        unfold fill
        simp [hid]
  unfold setSlug
  rw [hmap]
  exact write_accepted (fill_accepted haccepted hids hslugs _)

/-! ## The loop -/

/-- The slugs that are taken behind the update of those ids. -/
def TakenBehind (rows : List Project) (done taken : List (List Char)) : Prop :=
  ∀ s, s ∈ taken ↔ s ∈ takenSlugs rows ∨ ∃ q ∈ rows, q.slug = none ∧ q.id ∈ done ∧ s = slugFor rows q

/-- The slugs given before do not change the choice. -/
theorem choice_eq (haccepted : Accepted rows) (hids : UuidIds rows) {p : Project} (hp : p ∈ rows)
    (hpnone : p.slug = none) {done taken : List (List Char)} (hdone : p.id ∉ done)
    (htaken : TakenBehind rows done taken) :
    (if ((pendingSlugs rows).map Prod.snd).count (candidateOf p) = 1 && !taken.contains (candidateOf p) then
      candidateOf p else p.id) = slugFor rows p := by
  unfold slugFor
  by_cases hcount : ((pendingSlugs rows).map Prod.snd).count (candidateOf p) = 1
  · have hsame : candidateOf p ∈ taken ↔ candidateOf p ∈ takenSlugs rows := by
      rw [htaken]
      refine ⟨?_, .inl⟩
      rintro (hpresent | ⟨q, hq, hqnone, hqdone, hgiven⟩)
      · exact hpresent
      -- the only project with this candidate is the one whose turn it is
      · exfalso
        have hpq : p = q := by
          obtain ⟨-, -, hcandidate⟩ | hown := slugFor_cases rows q
          · rw [hcandidate] at hgiven
            exact eq_of_candidate hp hpnone hq hqnone hgiven hcount
          · rw [hown] at hgiven
            exact haccepted.same_of_id hp hq (candidate_eq_id (hids q hq) hgiven)
        rw [hpq] at hdone
        exact hdone hqdone
    simp [hsame]
  · simp [hcount]

theorem TakenBehind.cons {done taken : List (List Char)} {p : Project} (hp : p ∈ rows) (hpnone : p.slug = none)
    (haccepted : Accepted rows) (h : TakenBehind rows done taken) :
    TakenBehind rows (p.id :: done) (slugFor rows p :: taken) := by
  intro s
  rw [List.mem_cons, h]
  constructor
  · rintro (rfl | hpresent | ⟨q, hq, hqnone, hqdone, hgiven⟩)
    · exact .inr ⟨p, hp, hpnone, List.mem_cons_self, rfl⟩
    · exact .inl hpresent
    · exact .inr ⟨q, hq, hqnone, List.mem_cons_of_mem _ hqdone, hgiven⟩
  · rintro (hpresent | ⟨q, hq, hqnone, hqdone, hgiven⟩)
    · exact .inr (.inl hpresent)
    · obtain hid | hqdone := List.mem_cons.mp hqdone
      · rw [haccepted.same_of_id hq hp hid] at hgiven
        exact .inl hgiven
      · exact .inr (.inr ⟨q, hq, hqnone, hqdone, hgiven⟩)

/-- The loop fills one project after the other. -/
theorem fillSlugs_eq (haccepted : Accepted rows) (hids : UuidIds rows) (hslugs : Unclaimed rows)
    {pending : List (List Char × List Char)} {done taken : List (List Char)}
    (hpending : ∀ entry ∈ pending, entry ∈ pendingSlugs rows)
    (hnodup : (pending.map Prod.fst).Nodup) (hdone : ∀ entry ∈ pending, entry.1 ∉ done)
    (htaken : TakenBehind rows done taken) :
    fillSlugs (fun candidate => ((pendingSlugs rows).map Prod.snd).count candidate) taken pending
        (rows.map (fill rows done)) =
      some (rows.map (fill rows ((pending.map Prod.fst).reverse ++ done))) := by
  induction pending generalizing done taken with
  | nil => rfl
  | cons entry pending ih =>
      obtain ⟨id, candidate⟩ := entry
      obtain ⟨p, hp, hpnone, rfl, rfl⟩ := mem_pendingSlugs.mp (hpending _ List.mem_cons_self)
      have hfree : p.id ∉ done := hdone _ List.mem_cons_self
      simp only [fillSlugs]
      rw [choice_eq haccepted hids hp hpnone hfree htaken, setSlug_fill haccepted hids hslugs hp hpnone hfree,
        Option.bind_some, ih]
      · simp
      · exact fun entry hentry => hpending entry (List.mem_cons_of_mem _ hentry)
      · exact (List.nodup_cons.mp hnodup).2
      · intro entry hentry hmem
        obtain hid | hmem := List.mem_cons.mp hmem
        · refine (List.nodup_cons.mp hnodup).1 ?_
          rw [← hid]
          exact List.mem_map.mpr ⟨entry, hentry, rfl⟩
        · exact hdone entry (List.mem_cons_of_mem _ hentry) hmem
      · exact htaken.cons hp hpnone haccepted

/-! ## The whole backfill -/

/-- Every slugless project with its slug. -/
def backfilled (rows : List Project) : List Project :=
  rows.map fun p => if p.slug = none then { p with slug := some (slugFor rows p) } else p

theorem pendingSlugs_perm (h : read.Perm rows) : (pendingSlugs read).Perm (pendingSlugs rows) :=
  (h.filter _).map _

theorem pendingSlugs_nodup (h : Accepted rows) : ((pendingSlugs rows).map Prod.fst).Nodup := by
  have hids : (pendingSlugs rows).map Prod.fst = (rows.filter fun p => p.slug.isNone).map Project.id := by
    unfold pendingSlugs
    rw [List.map_map]
    rfl
  rw [hids]
  exact (accepted_iff.mp h).1.sublist (List.filter_sublist.map _)

/-- **The backfill gives every slugless project its slug, in whatever order the rows are read.** -/
theorem backfillSlugs_eq (haccepted : Accepted rows) (hids : UuidIds rows) (hslugs : Unclaimed rows)
    (hread : read.Perm rows) :
    backfillSlugs read rows = some ((pendingSlugs rows).length, backfilled rows) := by
  have hpending := pendingSlugs_perm hread
  have hcounts : (fun candidate => ((pendingSlugs read).map Prod.snd).count candidate) =
      fun candidate => ((pendingSlugs rows).map Prod.snd).count candidate :=
    funext fun candidate => (hpending.map Prod.snd).count_eq candidate
  have hstart : TakenBehind rows [] (takenSlugs read) := by
    intro s
    have hsame : s ∈ takenSlugs read ↔ s ∈ takenSlugs rows := (hread.filterMap Project.slug).mem_iff
    simp [hsame]
  have hnone : rows.map (fill rows []) = rows := by
    have hid : ∀ p ∈ rows, fill rows [] p = id p := by
      intro p _
      simp [fill]
    rw [List.map_congr_left hid, List.map_id]
  have hmem : ∀ entry ∈ pendingSlugs read, entry ∈ pendingSlugs rows := fun entry hentry =>
    hpending.mem_iff.mp hentry
  have hnodup := (hpending.map Prod.fst).nodup_iff.mpr (pendingSlugs_nodup haccepted)
  have hloop := fillSlugs_eq haccepted hids hslugs hmem hnodup (by simp) hstart
  rw [hnone] at hloop
  unfold backfillSlugs
  dsimp only
  rw [hcounts, hloop, hpending.length_eq, Option.map_some]
  have hall : rows.map (fill rows (((pendingSlugs read).map Prod.fst).reverse ++ [])) = backfilled rows := by
    apply List.map_congr_left
    intro p hp
    unfold fill
    by_cases hpnone : p.slug = none
    · have hmem : p.id ∈ (pendingSlugs read).map Prod.fst := by
        have hentry : (p.id, candidateOf p) ∈ pendingSlugs rows := mem_pendingSlugs.mpr ⟨p, hp, hpnone, rfl, rfl⟩
        exact List.mem_map.mpr ⟨_, hpending.mem_iff.mpr hentry, rfl⟩
      rw [List.append_nil, if_pos ⟨hpnone, List.contains_iff_mem.mpr (List.mem_reverse.mpr hmem)⟩, if_pos hpnone]
    · rw [if_neg (fun h => hpnone h.1), if_neg hpnone]
  rw [hall]

end Projects
end AgentBeacon
