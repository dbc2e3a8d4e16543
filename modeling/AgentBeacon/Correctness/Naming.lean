import AgentBeacon.Correctness.Parking
import AgentBeacon.Db.Frames
import AgentBeacon.System.Alone

/-!
# `Correctness.Naming` — hierarchical names identify sessions

A session is called by the slugs from its root down to it, joined by slashes. Three walks put such a name together;
where slugs are unique among the roots and among the children of each session, the names tell all sessions of an
execution apart, the walks agree, and whoever is addressed by name is found.
-/

namespace AgentBeacon
open Upward Interleave Transaction

/-! ## The other walks, and the look-up by name -/

/-- `hierarchical_name_for_session_in_tx`: the same walk, row by row in a transaction. -/
def hierarchicalNameInTx {ρ : Type} (onError : ρ) : Nat → SessionId → DbTx ρ (List String)
  | 0, _ => pure []
  | steps + 1, id => do
      let session ← DbTx.session id onError
      match session.parentSessionId with
      | none => pure [displaySlug session]
      | some parentId => do
          let above ← hierarchicalNameInTx onError steps parentId
          pure (above ++ [displaySlug session])

/-- `resolve_recipient_and_sender`. -/
def resolveRecipientAndSender (executionId : ExecutionId) (recipientName : String) (senderSessionId : SessionId) :
    Handler (Session × String) := do
  let sessions ← attempt (query fun _ db => db.sessionsOf executionId)
  let names := hierarchicalNames sessions
  match names.find? fun n => n.1 = senderSessionId with
  | none => throw (.notFound ("session not found in execution: " ++ senderSessionId))
  | some sender =>
      match names.filter fun n => n.2 = recipientName with
      | [] => throw (.notFound ("no agent found with name: " ++ recipientName))
      | [matched] => do
          let recipient ← attempt (getSession matched.1)
          return (recipient, sender.2)
      | several => throw (.conflict ("ambiguous recipient: " ++ toString several.length ++
          " sessions match name '" ++ recipientName ++ "'"))

/-! ## Forests of slugs -/

/-- The sessions of an execution that names are made for. -/
structure NamedForest (sessions : List Session) : Prop where
  distinct : (sessions.map Session.id).Nodup
  rooted : ∀ s ∈ sessions, ∃ path, Climb (nodeAt sessions) Session.parentSessionId s.id path
  slug_ne : ∀ s ∈ sessions, s.slug ≠ ""
  slug_plain : ∀ s ∈ sessions, '/' ∉ s.slug.toList
  siblings : ∀ s ∈ sessions, ∀ t ∈ sessions, s.parentSessionId = t.parentSessionId → s.slug = t.slug → s.id = t.id

/-- The slugs along a way up, from the root down. -/
def slugsDown (path : List Session) : List String := (path.map Session.slug).reverse

/-- A name determines the slugs it is joined from. -/
theorem intercalate_inj {slugs slugs' : List String} (hne : slugs ≠ []) (hne' : slugs' ≠ [])
    (hplain : ∀ slug ∈ slugs, '/' ∉ slug.toList) (hplain' : ∀ slug ∈ slugs', '/' ∉ slug.toList)
    (h : String.intercalate "/" slugs = String.intercalate "/" slugs') : slugs = slugs' := by
  have hsplit : ∀ {l : List String}, l ≠ [] → (∀ slug ∈ l, '/' ∉ slug.toList) →
      (String.intercalate "/" l).toList.splitOn '/' = l.map String.toList := by
    intro l hl hfree
    rw [String.toList_intercalate]
    refine List.splitOn_intercalate '/' (fun cs hcs => ?_) fun hnil => hl (List.map_eq_nil_iff.mp hnil)
    obtain ⟨slug, hslug, rfl⟩ := List.mem_map.mp hcs
    exact hfree slug hslug
  have hlists : slugs.map String.toList = slugs'.map String.toList := by
    rw [← hsplit hne hplain, ← hsplit hne' hplain', h]
  exact (List.map_injective_iff.mpr fun _ _ hsame => String.toList_inj.mp hsame) hlists

section Forest

variable {sessions : List Session} {path : List Session} {id : SessionId}

theorem nodeAt_of_mem (h : (sessions.map Session.id).Nodup) {s : Session} (hs : s ∈ sessions) :
    nodeAt sessions s.id = some s := by
  induction sessions with
  | nil => cases hs
  | cons t rest ih =>
      rw [List.map_cons, List.nodup_cons] at h
      rcases List.mem_cons.mp hs with rfl | hrest
      · exact List.find?_cons_of_pos (decide_eq_true rfl)
      · have hother : ¬t.id = s.id := fun hsame => h.1 (hsame ▸ List.mem_map_of_mem hrest)
        rw [nodeAt, List.find?_cons_of_neg (by simpa using hother)]
        exact ih h.2 hrest

theorem mem_of_climb (h : Climb (nodeAt sessions) Session.parentSessionId id path) {n : Session} (hn : n ∈ path) :
    n ∈ sessions :=
  mem_of_nodeAt _ n (h.found_of_mem (f := Session.id) id_of_nodeAt hn)

/-- The walk over all sessions at once takes the way up, if it is given the steps. -/
theorem pathUp_of_climb (hslugs : ∀ s ∈ sessions, s.slug ≠ "")
    (h : Climb (nodeAt sessions) Session.parentSessionId id path) {fuel : Nat} (hfuel : path.length ≤ fuel) :
    pathUp sessions fuel id = path.map Session.slug := by
  induction h generalizing fuel with
  | @root k n hfind hup =>
      obtain ⟨fuel, rfl⟩ : ∃ more, fuel = more + 1 := ⟨fuel - 1, by simp at hfuel; omega⟩
      have hslug : displaySlug n = n.slug := if_neg (hslugs n (mem_of_nodeAt k n hfind))
      rw [pathUp, show sessions.find? (fun s => s.id = k) = some n from hfind]
      dsimp only
      rw [hup, hslug]
      rfl
  | @step k p n rest hfind hup hrest ih =>
      obtain ⟨fuel, rfl⟩ : ∃ more, fuel = more + 1 := ⟨fuel - 1, by simp at hfuel; omega⟩
      have hslug : displaySlug n = n.slug := if_neg (hslugs n (mem_of_nodeAt k n hfind))
      rw [pathUp, show sessions.find? (fun s => s.id = k) = some n from hfind]
      dsimp only
      rw [hup, hslug, List.map_cons]
      dsimp only
      rw [ih (by rw [List.length_cons] at hfuel; omega)]

/-- What each session of a forest is called. -/
theorem hierarchicalNames_eq (h : NamedForest sessions) {s : Session}
    (hpath : Climb (nodeAt sessions) Session.parentSessionId s.id path) :
    String.intercalate "/" (pathUp sessions (sessions.length + 1) s.id).reverse =
      String.intercalate "/" (slugsDown path) := by
  have hle := hpath.length_le (f := Session.id) id_of_nodeAt mem_of_nodeAt
  rw [pathUp_of_climb h.slug_ne hpath (by omega)]
  rfl

/-- **Different sessions have different names.** -/
theorem eq_of_name_eq (h : NamedForest sessions) {s t : Session} (hs : s ∈ sessions) (ht : t ∈ sessions)
    (hname : String.intercalate "/" (pathUp sessions (sessions.length + 1) s.id).reverse =
      String.intercalate "/" (pathUp sessions (sessions.length + 1) t.id).reverse) : s = t := by
  obtain ⟨path, hpath⟩ := h.rooted s hs
  obtain ⟨path', hpath'⟩ := h.rooted t ht
  rw [hierarchicalNames_eq h hpath, hierarchicalNames_eq h hpath'] at hname
  have hplain : ∀ {id path}, Climb (nodeAt sessions) Session.parentSessionId id path →
      slugsDown path ≠ [] ∧ ∀ slug ∈ slugsDown path, '/' ∉ slug.toList := by
    intro id path hclimb
    refine ⟨fun hnil => hclimb.ne_nil ?_, fun slug hslug => ?_⟩
    · exact List.map_eq_nil_iff.mp (List.reverse_eq_nil_iff.mp hnil)
    · obtain ⟨n, hn, rfl⟩ := List.mem_map.mp (List.mem_reverse.mp hslug)
      exact h.slug_plain n (mem_of_climb hclimb hn)
  have hslugs := intercalate_inj (hplain hpath).1 (hplain hpath').1 (hplain hpath).2 (hplain hpath').2 hname
  have hid := hpath.inj_of_names (f := Session.id) id_of_nodeAt
    (fun n m hn hm hup hslug => h.siblings n (mem_of_nodeAt _ n hn) m (mem_of_nodeAt _ m hm) hup hslug) hpath'
    (List.reverse_injective hslugs)
  have hfound := nodeAt_of_mem h.distinct hs
  rw [hid, nodeAt_of_mem h.distinct ht] at hfound
  exact (Option.some.inj hfound).symm

end Forest

/-! ## The walks agree, and a name finds its session -/

section Look

variable {db : Db} {executionId : ExecutionId}

theorem session?_of_nodeAt {id : SessionId} {s : Session} (h : nodeAt (db.sessionsOf executionId) id = some s) :
    db.session? id = some s := by
  have hmem := (List.mem_filter.mp (mem_of_nodeAt id s h)).1
  rw [← id_of_nodeAt id s h]
  exact Db.session?_of_mem hmem

/-- The walk row by row, given the steps, takes the way up. -/
theorem hierarchicalNameForSession_of_climb {store : Store} {id : SessionId} {path : List Session}
    (hslugs : ∀ s ∈ store.db.sessionsOf executionId, s.slug ≠ "")
    (h : Climb (nodeAt (store.db.sessionsOf executionId)) Session.parentSessionId id path) {steps : Nat}
    (hsteps : path.length ≤ steps) :
    Always (M := scheduler) Faultless (hierarchicalNameForSession steps id).run
      (fun r store' => r = .ok (slugsDown path) ∧ store' = store) store := by
  induction h generalizing steps with
  | @root k n hfind hup =>
      obtain ⟨steps, rfl⟩ : ∃ more, steps = more + 1 := ⟨steps - 1, by simp at hsteps; omega⟩
      have hslug : displaySlug n = n.slug := if_neg (hslugs n (mem_of_nodeAt k n hfind))
      refine always_getSession (fun _ _ h => h) (session?_of_nodeAt hfind) ?_
      rw [hup]
      exact ⟨by rw [hslug]; rfl, rfl⟩
  | @step k p n rest hfind hup hrest ih =>
      obtain ⟨steps, rfl⟩ : ∃ more, steps = more + 1 := ⟨steps - 1, by simp at hsteps; omega⟩
      have hslug : displaySlug n = n.slug := if_neg (hslugs n (mem_of_nodeAt k n hfind))
      refine always_getSession (fun _ _ h => h) (session?_of_nodeAt hfind) ?_
      rw [hup]
      have hrest' : rest.length ≤ steps := by
        rw [List.length_cons] at hsteps
        omega
      refine Always.bind (ih hrest') ?_
      rintro _ _ ⟨rfl, rfl⟩
      refine ⟨?_, rfl⟩
      rw [hslug, slugsDown, slugsDown, List.map_cons, List.reverse_cons]

/-- So does its copy in a transaction. -/
theorem hierarchicalNameInTx_of_climb {ρ : Type} {e : ρ} {E : ρ → Prop} {id : SessionId} {path : List Session}
    (hslugs : ∀ s ∈ db.sessionsOf executionId, s.slug ≠ "")
    (h : Climb (nodeAt (db.sessionsOf executionId)) Session.parentSessionId id path) {steps : Nat}
    (hsteps : path.length ≤ steps) :
    Tx.wp (hierarchicalNameInTx e steps id) (fun slugs db' => slugs = slugsDown path ∧ db' = db) E db := by
  induction h generalizing steps with
  | @root k n hfind hup =>
      obtain ⟨steps, rfl⟩ : ∃ more, steps = more + 1 := ⟨steps - 1, by simp at hsteps; omega⟩
      have hslug : displaySlug n = n.slug := if_neg (hslugs n (mem_of_nodeAt k n hfind))
      have hrow := session?_of_nodeAt hfind
      refine DbTx.seq_session (fun s hs => ?_) fun hno => ?_
      · obtain rfl := Option.some.inj (hrow.symm.trans hs)
        rw [hup]
        exact ⟨by rw [hslug]; rfl, rfl⟩
      · rw [hrow] at hno
        cases hno
  | @step k p n rest hfind hup hrest ih =>
      obtain ⟨steps, rfl⟩ : ∃ more, steps = more + 1 := ⟨steps - 1, by simp at hsteps; omega⟩
      have hslug : displaySlug n = n.slug := if_neg (hslugs n (mem_of_nodeAt k n hfind))
      have hrow := session?_of_nodeAt hfind
      refine DbTx.seq_session (fun s hs => ?_) fun hno => ?_
      · obtain rfl := Option.some.inj (hrow.symm.trans hs)
        rw [hup]
        have hrest' : rest.length ≤ steps := by
          rw [List.length_cons] at hsteps
          omega
        refine Tx.seq (ih hrest') ?_
        rintro _ _ ⟨rfl, rfl⟩
        refine ⟨?_, rfl⟩
        rw [hslug, slugsDown, slugsDown, List.map_cons, List.reverse_cons]
      · rw [hrow] at hno
        cases hno

/-- The one element that passes. -/
theorem filter_eq_singleton {α : Type} {p : α → Bool} {l : List α} (hl : l.Nodup) {a : α} (ha : a ∈ l) (hp : p a = true)
    (hone : ∀ b ∈ l, p b = true → b = a) : l.filter p = [a] := by
  have hnodup := hl.filter p
  have hmem : a ∈ l.filter p := List.mem_filter.mpr ⟨ha, hp⟩
  have hall : ∀ b ∈ l.filter p, b = a := fun b hb => hone b (List.mem_filter.mp hb).1 (List.mem_filter.mp hb).2
  cases hfilter : l.filter p with
  | nil =>
      rw [hfilter] at hmem
      cases hmem
  | cons b rest =>
      rw [hfilter] at hnodup hall
      obtain rfl := hall b List.mem_cons_self
      cases rest with
      | nil => rfl
      | cons c rest =>
          have hsame := hall c (List.mem_cons_of_mem _ List.mem_cons_self)
          rw [hsame, List.nodup_cons] at hnodup
          exact absurd List.mem_cons_self hnodup.1

/-- **A name finds its session.** -/
theorem resolve_of_forest {store : Store} (h : NamedForest (store.db.sessionsOf executionId)) {s sender : Session}
    (hs : s ∈ store.db.sessionsOf executionId)
    {name senderName : String} (hname : (s.id, name) ∈ hierarchicalNames (store.db.sessionsOf executionId))
    (hsenderName : (sender.id, senderName) ∈ hierarchicalNames (store.db.sessionsOf executionId)) :
    Always (M := scheduler) Faultless (resolveRecipientAndSender executionId name sender.id).run
      (fun r store' => r = .ok (s, senderName) ∧ store' = store) store := by
  unfold resolveRecipientAndSender
  refine always_attempt_query (fun _ _ hgood => hgood) fun _ => ?_
  generalize hsessions : store.db.sessionsOf executionId = sessions at *
  have hids : (hierarchicalNames sessions).map Prod.fst = sessions.map Session.id := by
    rw [hierarchicalNames, List.map_map]
    rfl
  have hdistinct : ((hierarchicalNames sessions).map Prod.fst).Nodup := by
    rw [hids]
    exact h.distinct
  -- an id has one entry
  have hentry : ∀ {id name name'}, (id, name) ∈ hierarchicalNames sessions →
      (id, name') ∈ hierarchicalNames sessions → name = name' := by
    intro id name name' hn hn'
    exact congrArg Prod.snd (List.inj_on_of_nodup_map hdistinct hn hn' rfl)
  have hfind : (hierarchicalNames sessions).find? (fun n => n.1 = sender.id) = some (sender.id, senderName) := by
    cases hlook : (hierarchicalNames sessions).find? (fun n => n.1 = sender.id) with
    | none => simpa using List.find?_eq_none.mp hlook _ hsenderName
    | some entry =>
        have hid : entry.1 = sender.id := by simpa using List.find?_some hlook
        obtain ⟨id, found⟩ := entry
        obtain rfl : id = sender.id := hid
        rw [hentry hsenderName (List.mem_of_find?_eq_some hlook)]
  have hfilter : (hierarchicalNames sessions).filter (fun n => n.2 = name) = [(s.id, name)] := by
    refine filter_eq_singleton hdistinct.of_map hname (by simp) ?_
    rintro ⟨id, found⟩ hmem hsame
    obtain rfl : found = name := by simpa using hsame
    obtain ⟨t, ht, htname⟩ := List.mem_map.mp hmem
    obtain ⟨s', hs', hsname⟩ := List.mem_map.mp hname
    have hst := eq_of_name_eq h ht hs' ((congrArg Prod.snd htname).trans (congrArg Prod.snd hsname).symm)
    rw [← htname, ← hsname, hst]
  have hnode : nodeAt (store.db.sessionsOf executionId) s.id = some s := by
    rw [hsessions]
    exact nodeAt_of_mem h.distinct hs
  have hrow : store.db.session? s.id = some s := session?_of_nodeAt hnode
  dsimp only
  rw [hfind, hfilter]
  refine always_getSession (fun _ _ hgood => hgood) hrow ?_
  exact ⟨rfl, rfl⟩

end Look

/-- **Hierarchical names identify sessions.** In an execution whose sessions form a forest of slugs, the names are
pairwise distinct; the walks from a single session, which climb twenty levels at most, give the same name; and a name
is resolved to the session it belongs to. -/
theorem names_identify (store : Store) (executionId : ExecutionId)
    (h : NamedForest (store.db.sessionsOf executionId)) :
    (hierarchicalNames (store.db.sessionsOf executionId)).map Prod.fst =
        (store.db.sessionsOf executionId).map Session.id ∧
      ((hierarchicalNames (store.db.sessionsOf executionId)).map Prod.snd).Nodup ∧
      (∀ s ∈ store.db.sessionsOf executionId, ∀ path,
        Climb (nodeAt (store.db.sessionsOf executionId)) Session.parentSessionId s.id path → path.length ≤ 20 →
        ∃ slugs, (s.id, String.intercalate "/" slugs) ∈ hierarchicalNames (store.db.sessionsOf executionId) ∧
          Always (M := scheduler) Faultless (hierarchicalNameForSession 20 s.id).run
            (fun r store' => r = .ok slugs ∧ store' = store) store ∧
          ∀ (ρ : Type) (onError : ρ), hierarchicalNameInTx onError 20 s.id store.db = .ok (slugs, store.db)) ∧
      ∀ s ∈ store.db.sessionsOf executionId, ∀ sender ∈ store.db.sessionsOf executionId, ∀ name senderName,
        (s.id, name) ∈ hierarchicalNames (store.db.sessionsOf executionId) →
        (sender.id, senderName) ∈ hierarchicalNames (store.db.sessionsOf executionId) →
        Always (M := scheduler) Faultless (resolveRecipientAndSender executionId name sender.id).run
          (fun r store' => r = .ok (s, senderName) ∧ store' = store) store := by
  refine ⟨?_, ?_, fun s hs path hpath hdepth => ⟨slugsDown path, ?_, ?_, fun ρ onError => ?_⟩, ?_⟩
  · rw [hierarchicalNames, List.map_map]
    rfl
  · rw [hierarchicalNames, List.map_map]
    refine List.Nodup.map_on (fun s hs t ht hname => eq_of_name_eq h hs ht hname) ?_
    exact h.distinct.of_map
  · rw [← hierarchicalNames_eq h hpath]
    exact List.mem_map_of_mem (f := fun s : Session => (s.id, String.intercalate "/"
      (pathUp (store.db.sessionsOf executionId) ((store.db.sessionsOf executionId).length + 1) s.id).reverse)) hs
  · exact hierarchicalNameForSession_of_climb h.slug_ne hpath hdepth
  · have hwp := hierarchicalNameInTx_of_climb (E := fun _ => False) (e := onError) h.slug_ne hpath hdepth
    unfold Tx.wp at hwp
    cases hrun : hierarchicalNameInTx onError 20 s.id store.db with
    | error e =>
        rw [hrun] at hwp
        exact hwp.elim
    | ok r =>
        rw [hrun] at hwp
        obtain ⟨slugs, db'⟩ := r
        obtain ⟨rfl, rfl⟩ := hwp
        rfl
  · exact fun s hs sender _ name senderName hname hsenderName => resolve_of_forest h hs hname hsenderName

/-- A lead with a mate. -/
def lead : Session := newSession "r" "x" "a" none none none none "lead" none "" 1

def mate : Session := newSession "m" "x" "a" (some "r") none none none "mate" none "" 2

def aboard : Store where
  db := { Db.empty with sessions := ((Relational.Table.empty.insert? lead).bind fun t => t.insert? mate).getD .empty }
  heartbeats := []
  startedAt := 1
  drawn := []

theorem names_identify_aboard :
    Always (M := scheduler) Faultless (resolveRecipientAndSender "x" "lead/mate" "r").run
      (fun r store' => r = .ok (mate, "lead") ∧ store' = aboard) aboard := by
  have hsessions : aboard.db.sessionsOf "x" = [lead, mate] := by decide
  have hlead : Climb (nodeAt [lead, mate]) Session.parentSessionId "r" [lead] := .root (by decide) (by decide)
  have hmate : Climb (nodeAt [lead, mate]) Session.parentSessionId "m" [mate, lead] :=
    .step (by decide) (by decide) hlead
  have hforest : NamedForest (aboard.db.sessionsOf "x") := by
    rw [hsessions]
    refine ⟨by decide, ?_, by decide, by decide, by decide⟩
    rintro s (_ | ⟨_, _ | ⟨_, hs⟩⟩)
    · exact ⟨[lead], hlead⟩
    · exact ⟨[mate, lead], hmate⟩
    · cases hs
  exact (names_identify aboard "x" hforest).2.2.2 mate (by decide) lead (by decide) "lead/mate" "lead"
    (by decide) (by decide)

end AgentBeacon
