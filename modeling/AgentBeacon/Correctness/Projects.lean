import AgentBeacon.Projects.Backfill
import AgentBeacon.Projects.Requests

/-!
# `Correctness.Projects` — a project address is unambiguous

Ids and slugs share one space of addresses. Every slug in the table is valid, and has the shape of an id only as
the id of its own project; ids have that shape. The checks before a write establish it for the value written,
whatever runs in between; the keys of the table do the rest.
-/

namespace AgentBeacon
namespace Projects
open Interleave

/-! ## The invariant -/

/-- A slug that a project may have. -/
def Own (id s : List Char) : Prop := ValidSlug s ∧ (isUuidShaped s = true → s = id)

/-- The rows of `projects` behind the backfill. -/
structure Sound (rows : List Project) : Prop where
  accepted : Accepted rows
  ids : UuidIds rows
  slugs : ∀ p ∈ rows, ∃ s, p.slug = some s ∧ Own p.id s

theorem deriveSlug_own (name : List Char) {id : List Char} (h : IsUuid id) : Own id (deriveSlug name id) :=
  ⟨deriveSlug_valid name h, deriveSlug_uuid⟩

theorem newSlug_own {supplied : Option (List Char)} {name id s : List Char} (hid : IsUuid id)
    (h : newSlug supplied name id = .ok s) : Own id s := by
  unfold newSlug at h
  cases supplied with
  | none =>
      cases h
      exact deriveSlug_own name hid
  | some supplied =>
      simp only at h
      cases hvalid : validateSlug (trimText supplied) with
      | error e =>
          rw [hvalid] at h
          cases h
      | ok validated =>
          rw [hvalid] at h
          simp only at h
          split at h
          · cases h
          · next hshape =>
              cases h
              exact ⟨validateSlug_valid hvalid, fun hshaped => absurd hshaped hshape⟩

theorem changedSlug_own {supplied id s : List Char} (h : changedSlug supplied id = .ok s) : Own id s := by
  unfold changedSlug at h
  cases hvalid : validateSlug (trimText supplied) with
  | error e =>
      rw [hvalid] at h
      cases h
  | ok validated =>
      rw [hvalid] at h
      simp only at h
      split at h
      · cases h
      · next hshape =>
          cases h
          refine ⟨validateSlug_valid hvalid, ?_⟩
          intro hshaped
          by_contra hne
          exact hshape (by simp [hshaped, hne])

/-! ## One call -/

/-- What a request may call: it writes only slugs that the project may have. -/
def Proper : Op → Prop
  | .insert p => IsUuid p.id ∧ ∃ s, p.slug = some s ∧ Own p.id s
  | .update id changes => ∀ s, changes.slug = some s → Own id s
  | _ => True

theorem answer_state {α : Type} (outside : Outside) (what : String) (db : List Project)
    (a : Except SchedulerError α) : (answer outside what db a).2 = db := by
  unfold answer
  split <;> rfl

theorem change_state {α : Type} (outside : Outside) (what : String) (db : List Project) (a : α)
    (written : Option (List Project)) :
    (change outside what db a written).2 = db ∨ written = some (change outside what db a written).2 := by
  unfold change
  cases written with
  | none =>
      left
      split <;> rfl
  | some rows =>
      split
      · exact .inl rfl
      · exact .inr rfl
      · exact .inr rfl

theorem insert_sound {rows rows' : List Project} {p : Project} (h : Sound rows) (hp : Proper (.insert p))
    (hwrite : insertProject rows p = some rows') : Sound rows' := by
  obtain ⟨rfl, haccepted⟩ := write_some hwrite
  refine ⟨haccepted, ?_, ?_⟩
  · intro q hq
    obtain hq | hq := List.mem_append.mp hq
    · exact h.ids q hq
    · rw [List.mem_singleton.mp hq]
      exact hp.1
  · intro q hq
    obtain hq | hq := List.mem_append.mp hq
    · exact h.slugs q hq
    · rw [List.mem_singleton.mp hq]
      exact hp.2

/-- A write that keeps the ids, and gives proper slugs. -/
theorem map_sound {rows rows' : List Project} {f : Project → Project} (h : Sound rows)
    (hid : ∀ p, (f p).id = p.id) (hslug : ∀ p ∈ rows, ∀ s, (f p).slug = some s → p.slug ≠ some s → Own p.id s)
    (hsome : ∀ p ∈ rows, (f p).slug.isSome = true) (hwrite : write (rows.map f) = some rows') : Sound rows' := by
  obtain ⟨rfl, haccepted⟩ := write_some hwrite
  refine ⟨haccepted, ?_, ?_⟩
  · intro q hq
    obtain ⟨p, hp, rfl⟩ := List.mem_map.mp hq
    rw [hid]
    exact h.ids p hp
  · intro q hq
    obtain ⟨p, hp, rfl⟩ := List.mem_map.mp hq
    obtain ⟨s, hs⟩ := Option.isSome_iff_exists.mp (hsome p hp)
    refine ⟨s, hs, ?_⟩
    rw [hid]
    obtain ⟨t, ht, hown⟩ := h.slugs p hp
    by_cases hsame : p.slug = some s
    · rw [ht] at hsame
      cases hsame
      exact hown
    · exact hslug p hp s hs hsame

theorem update_sound {rows rows' : List Project} {id : List Char} {changes : Changes} (h : Sound rows)
    (hproper : Proper (.update id changes)) (hwrite : updateProject rows id changes = some rows') :
    Sound rows' := by
  refine map_sound h ?_ ?_ ?_ hwrite
  · intro p
    split <;> rfl
  · intro p _ s hs hne
    split at hs
    · next hmatch =>
        simp only [Bool.and_eq_true, decide_eq_true_iff] at hmatch
        obtain hset | ⟨-, hkept⟩ := Option.or_eq_some_iff.mp hs
        · rw [hmatch.1]
          exact hproper s hset
        · exact absurd hkept hne
    · exact absurd hs hne
  · intro p hp
    obtain ⟨t, ht, -⟩ := h.slugs p hp
    split
    · simp [Changes.apply, ht]
    · simp [ht]

theorem delete_sound {rows rows' : List Project} {id : List Char} (h : Sound rows)
    (hwrite : softDelete rows id = some rows') : Sound rows' := by
  refine map_sound h ?_ ?_ ?_ hwrite
  · intro p
    split <;> rfl
  · intro p _ s hs hne
    split at hs <;> exact absurd hs hne
  · intro p hp
    obtain ⟨t, ht, -⟩ := h.slugs p hp
    split <;> simp [ht]

/-- **A proper call keeps the table sound.** -/
theorem exec_sound {op : Op} {outside : Outside} {rows : List Project} (h : Sound rows) (hop : Proper op) :
    Sound (exec op outside rows).2 := by
  cases op with
  | newId => exact h
  | canonicalize path =>
      simp only [exec]
      split <;> exact h
  | countByPath path =>
      simp only [exec, answer_state]
      exact h
  | slugTaken slug excludeId =>
      simp only [exec, answer_state]
      exact h
  | getById id =>
      simp only [exec, answer_state]
      exact h
  | resolve key =>
      simp only [exec, answer_state]
      exact h
  | insert p =>
      obtain hsame | hwrite := change_state outside "create project" rows () (insertProject rows p)
      · simp only [exec, hsame]
        exact h
      · exact insert_sound h hop hwrite
  | update id changes =>
      obtain hsame | hwrite := change_state outside "update project" rows (affected rows id)
        (updateProject rows id changes)
      · simp only [exec, hsame]
        exact h
      · exact update_sound h hop hwrite
  | softDelete id =>
      obtain hsame | hwrite := change_state outside "soft delete project" rows (affected rows id)
        (softDelete rows id)
      · simp only [exec, hsame]
        exact h
      · exact delete_sound h hwrite

/-! ## The requests -/

variable {db : List Project}

theorem attempt_careful {α : Type} {op : Op} {k : Answer op → Handler db α} (hop : Proper op)
    (hk : ∀ outside rows a, (projects db).admits op outside rows = true → (exec op outside rows).1 = .ok a →
      Careful Proper (k a)) : Careful Proper (attempt db op k) := by
  refine Careful.call hop ?_
  intro outside rows hadmits
  exact Careful.check fun a ha => hk outside rows a hadmits ha

theorem validatePath_careful {α : Type} {path : List Char} {k : List Char → Handler db α}
    (hk : ∀ canonical, Careful Proper (k canonical)) : Careful Proper (validatePath db path k) := by
  unfold validatePath
  dsimp only
  split
  · exact Careful.ret _
  · refine attempt_careful (by exact trivial) ?_
    intro _ _ file _ _
    split
    · exact Careful.ret _
    · exact hk file.1

theorem createProject_careful (req : CreateRequest) : Careful Proper (createProject db req) := by
  apply Careful.check
  intro name _
  apply validatePath_careful
  intro path
  refine attempt_careful (by exact trivial) ?_
  intro _ _ pathCount _ _
  refine attempt_careful (by exact trivial) ?_
  intro outside _ id hadmits hid
  have hid : IsUuid id := by
    cases hid
    exact of_decide_eq_true hadmits
  apply Careful.check
  intro slug hslug
  refine attempt_careful (by exact trivial) ?_
  intro _ _ taken _ _
  split
  · exact Careful.ret _
  · have hproper : Proper (.insert ⟨id, name, some slug, path, "{}".toList, false⟩) :=
      ⟨hid, slug, rfl, newSlug_own hid hslug⟩
    apply attempt_careful hproper
    intro _ _ _ _ _
    refine attempt_careful (by exact trivial) ?_
    intro _ _ project _ _
    exact Careful.ret _

theorem update_careful {id : List Char} {changes : Changes} (h : Proper (.update id changes)) :
    Careful Proper (update db id changes) := by
  apply attempt_careful h
  intro _ _ affected _ _
  split
  · exact Careful.ret _
  · refine attempt_careful (by exact trivial) ?_
    intro _ _ project _ _
    exact Careful.ret _

theorem changedPath_careful {α : Type} {path : Option (List Char)} {k : Option (List Char) → Handler db α}
    (hk : ∀ canonical, Careful Proper (k canonical)) : Careful Proper (changedPath db path k) := by
  cases path with
  | none => exact hk none
  | some path => exact validatePath_careful fun canonical => hk (some canonical)

theorem freeSlug_careful {α : Type} {id : List Char} {slug : Option (List Char)}
    {k : Option (List Char) → Handler db α} (hk : ∀ slug, (∀ s, slug = some s → Own id s) → Careful Proper (k slug)) :
    Careful Proper (freeSlug db id slug k) := by
  cases slug with
  | none => exact hk none (by simp)
  | some supplied =>
      apply Careful.check
      intro validated hvalidated
      refine attempt_careful (by exact trivial) ?_
      intro _ _ taken _ _
      split
      · exact Careful.ret _
      · apply hk
        rintro s hs
        cases hs
        exact changedSlug_own hvalidated

theorem updateProjectRoute_careful (key : List Char) (req : UpdateRequest) :
    Careful Proper (updateProjectRoute db key req) := by
  refine attempt_careful (by exact trivial) ?_
  intro _ _ existing _ _
  apply Careful.check
  intro name _
  apply changedPath_careful
  intro path
  apply freeSlug_careful
  intro slug hslug
  exact update_careful hslug

theorem deleteProject_careful (key : List Char) : Careful Proper (deleteProject db key) := by
  refine attempt_careful (by exact trivial) ?_
  intro _ _ project _ _
  refine attempt_careful (by exact trivial) ?_
  intro _ _ affected _ _
  split <;> exact Careful.ret _

theorem body_careful (req : ProjectRequest) : Careful Proper (req.body db) := by
  cases req with
  | create req => exact (createProject_careful req).bind fun _ => Careful.ret ()
  | update key req => exact (updateProjectRoute_careful key req).bind fun _ => Careful.ret ()
  | delete key => exact (deleteProject_careful key).bind fun _ => Careful.ret ()

/-- **The table is sound at every point of every interleaving.** -/
theorem run_sound (hdb : Sound db) {pool : List (Nat × Prog (projects db) Unit)} {tr : List (Event (projects db))}
    (h : Run (ProjectRequest.body db) pool tr) : Sound ((projects db).now tr) := by
  have htrace := h.careful body_careful
  refine htrace.invariant (I := Sound) hdb ?_
  intro tr me op outside _ hop _ hnow
  exact exec_sound hnow hop

/-! ## Addresses -/

variable {rows : List Project}

theorem find?_unique {f : Project → Bool} {p : Project} (hp : p ∈ rows) (hf : f p = true)
    (hunique : ∀ q ∈ rows, f q = true → q = p) : rows.find? f = some p := by
  cases hfind : rows.find? f with
  | none => exact absurd hf (List.find?_eq_none.mp hfind p hp)
  | some q => rw [hunique q (List.mem_of_find?_eq_some hfind) (List.find?_some hfind)]

/-- An id is the slug of no other project. -/
theorem Sound.slug_ne_id (h : Sound rows) {p q : Project} (hp : p ∈ rows) (hq : q ∈ rows) (hne : p ≠ q) :
    q.slug ≠ some p.id := by
  intro hslug
  obtain ⟨s, hs, -, hown⟩ := h.slugs q hq
  rw [hslug] at hs
  cases hs
  exact hne (h.accepted.same_of_id hp hq (hown (h.ids p hp).shaped))

theorem Sound.slug_ne (h : Sound rows) {p q : Project} (hp : p ∈ rows) (hq : q ∈ rows)
    (hpactive : p.deleted = false) (hqactive : q.deleted = false) (hne : p ≠ q) : q.slug ≠ p.slug := by
  intro hslug
  have hid : p.id ≠ q.id := fun heq => hne (h.accepted.same_of_id hp hq heq)
  obtain ⟨s, hs, -⟩ := h.slugs p hp
  refine (accepted_iff.mp h.accepted).2 p hp q hq hid ⟨hpactive, hqactive, ?_, hslug.symm⟩
  rw [hs]
  rfl

theorem Sound.resolve_id (h : Sound rows) {p : Project} (hp : p ∈ rows) (hactive : p.deleted = false) :
    resolve? rows p.id = some p := by
  unfold resolve?
  rw [find?_unique hp]
  · rfl
  · simp [hactive]
  · intro q hq hmatch
    simp only [Bool.and_eq_true, decide_eq_true_iff] at hmatch
    exact h.accepted.same_of_id hq hp hmatch.2

theorem Sound.resolve_slug (h : Sound rows) {p : Project} (hp : p ∈ rows) (hactive : p.deleted = false)
    {s : List Char} (hs : p.slug = some s) : resolve? rows s = some p := by
  by_cases hown : s = p.id
  · rw [hown]
    exact h.resolve_id hp hactive
  · have hnone : rows.find? (fun q => !q.deleted && q.id = s) = none := by
      rw [List.find?_eq_none]
      intro q hq hmatch
      simp only [Bool.and_eq_true, decide_eq_true_iff] at hmatch
      obtain ⟨t, ht, -, hshape⟩ := h.slugs p hp
      rw [hs] at ht
      cases ht
      exact hown (hshape (hmatch.2 ▸ (h.ids q hq).shaped))
    unfold resolve?
    rw [hnone, Option.none_or]
    apply find?_unique hp
    · simp [hactive, hs]
    · intro q hq hmatch
      simp only [Bool.and_eq_true, decide_eq_true_iff, Bool.not_eq_true'] at hmatch
      by_contra hne
      exact h.slug_ne hp hq hactive hmatch.1 (fun heq => hne heq.symm) (hmatch.2.trans hs.symm)

/-! ## Behind the backfill -/

theorem backfilled_sound (haccepted : Accepted rows) (hids : UuidIds rows)
    (hslugs : ∀ p ∈ rows, ∀ s, p.slug = some s → Own p.id s) : Sound (backfilled rows) := by
  have hunclaimed : Unclaimed rows := fun p hp s hs => (hslugs p hp s hs).2
  have hfill : backfilled rows = rows.map (fill rows (rows.map Project.id)) := by
    apply List.map_congr_left
    intro p hp
    unfold fill
    simp only [List.contains_iff_mem.mpr (List.mem_map_of_mem hp), and_true]
  refine ⟨?_, ?_, ?_⟩
  · rw [hfill]
    exact fill_accepted haccepted hids hunclaimed _
  · intro q hq
    obtain ⟨p, hp, rfl⟩ := List.mem_map.mp hq
    split <;> exact hids p hp
  · intro q hq
    obtain ⟨p, hp, rfl⟩ := List.mem_map.mp hq
    split
    · refine ⟨slugFor rows p, rfl, ?_⟩
      obtain ⟨-, -, hcandidate⟩ | hown := slugFor_cases rows p
      · rw [hcandidate]
        exact deriveSlug_own p.name (hids p hp)
      · rw [hown]
        exact ⟨(hids p hp).valid, fun _ => rfl⟩
    · next hsome =>
        obtain ⟨s, hs⟩ := Option.ne_none_iff_exists'.mp hsome
        exact ⟨s, hs, hslugs p hp s hs⟩

/-- The addresses of the active projects are different, and each is resolved. -/
def Unambiguous (rows : List Project) : Prop :=
  (∀ p ∈ rows, p.deleted = false → ∀ q ∈ rows, q.deleted = false → p ≠ q →
    q.slug ≠ some p.id ∧ q.slug ≠ p.slug) ∧
  (∀ p ∈ rows, p.deleted = false → resolve? rows p.id = some p ∧
    ∃ s, p.slug = some s ∧ resolve? rows s = some p) ∧
  ∀ p ∈ rows, ∃ s, p.slug = some s ∧ validateSlug s = .ok s

theorem Sound.unambiguous (h : Sound rows) : Unambiguous rows := by
  refine ⟨?_, ?_, ?_⟩
  · intro p hp hpactive q hq hqactive hne
    exact ⟨h.slug_ne_id hp hq hne, h.slug_ne hp hq hpactive hqactive hne⟩
  · intro p hp hactive
    obtain ⟨s, hs, -⟩ := h.slugs p hp
    exact ⟨h.resolve_id hp hactive, s, hs, h.resolve_slug hp hactive hs⟩
  · intro p hp
    obtain ⟨s, hs, hvalid, -⟩ := h.slugs p hp
    exact ⟨s, hs, hvalid⟩

/-- The backfill gives every slugless project a slug of its own, whatever the order of the rows; behind it the
address of a project is unambiguous at every point of every interleaving of requests. A project that has a slug
before has one that the requests accept. -/
theorem project_addresses (rows : List Project) (haccepted : Accepted rows) (hids : ∀ p ∈ rows, IsUuid p.id)
    (hslugs : ∀ p ∈ rows, ∀ s, p.slug = some s → Own p.id s) :
    (∀ name id, IsUuid id → validateSlug (deriveSlug name id) = .ok (deriveSlug name id)) ∧
    ∃ given : Project → List Char, ∃ start : List Project,
      start = rows.map (fun p => if p.slug = none then { p with slug := some (given p) } else p) ∧
      (∀ read, read.Perm rows →
        backfillSlugs read rows = some (rows.countP fun p => p.slug.isNone, start)) ∧
      (∀ p ∈ rows, p.slug = none → ∀ q ∈ rows,
        (q.slug = none → given p = given q → p = q) ∧ ∀ s, q.slug = some s → given p ≠ s) ∧
      ∀ pool tr, Run (ProjectRequest.body start) pool tr → Unambiguous ((projects start).now tr) := by
  have hunclaimed : Unclaimed rows := fun p hp s hs => (hslugs p hp s hs).2
  refine ⟨fun name id hid => deriveSlug_valid name hid, slugFor rows, backfilled rows, rfl, ?_, ?_, ?_⟩
  · intro read hread
    rw [backfillSlugs_eq haccepted hids hunclaimed hread]
    simp [pendingSlugs, List.countP_eq_length_filter]
  · intro p hp hpnone q hq
    constructor
    · exact slugFor_inj haccepted hids hp hpnone hq
    · intro s hs
      exact slugFor_fresh haccepted hids hunclaimed hp hpnone hq hs
  · intro pool tr hrun
    exact (run_sound (backfilled_sound haccepted hids hslugs) hrun).unambiguous

def sampleId (c : Char) : List Char := c :: "0000000-0000-4000-8000-000000000000".toList

/-- Two of the names make the same candidate. -/
def sampleProjects : List Project :=
  [⟨sampleId '1', "My App".toList, none, "/a".toList, "{}".toList, false⟩,
    ⟨sampleId '2', "my app!".toList, none, "/b".toList, "{}".toList, false⟩,
    ⟨sampleId '3', "Other".toList, none, "/c".toList, "{}".toList, true⟩]

theorem project_addresses_sample :
    ∃ start, backfillSlugs sampleProjects.reverse sampleProjects = some (3, start) ∧
      start.map Project.slug = [some (sampleId '1'), some (sampleId '2'), some "other".toList] ∧
      ∀ pool tr, Run (ProjectRequest.body start) pool tr → Unambiguous ((projects start).now tr) := by
  obtain ⟨-, given, start, -, hread, -, hruns⟩ := project_addresses sampleProjects (by decide +kernel)
    (by decide +kernel) (by simp [sampleProjects])
  have hback := hread sampleProjects.reverse (List.reverse_perm _)
  refine ⟨start, hback, ?_, hruns⟩
  have hrun : (backfillSlugs sampleProjects.reverse sampleProjects).map (fun r => r.2.map Project.slug) =
      some [some (sampleId '1'), some (sampleId '2'), some "other".toList] := by
    decide +kernel
  rw [hback] at hrun
  exact Option.some.inj hrun

end Projects
end AgentBeacon
