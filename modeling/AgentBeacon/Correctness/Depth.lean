import AgentBeacon.Correctness.Width
import AgentBeacon.Lib.Ancestry
import AgentBeacon.System.Numbers

/-!
# `Correctness.Depth` — how deep a session lies

`compute_depth` walks up from a session, within its execution, and stops after eleven steps. A
delegation goes by the depth that was computed when its request was authenticated. In an execution
whose limit is in the accepted range no session lies deeper than the limit, so the walk always
reaches the root.
-/

namespace AgentBeacon
open Relational Interleave Transaction Ancestry

/-! ## What a deletion takes -/

namespace Db

variable {db : Db}

/-- A set of sessions that contains the children of its members. -/
def ClosedBelow (db : Db) (ids : List SessionId) : Prop :=
  ∀ s ∈ db.sessions.rows, ∀ p, s.parentSessionId = some p → p ∈ ids → s.id ∈ ids

/-- The sessions one round of following children adds. -/
def below (db : Db) (ids : List SessionId) : List Session :=
  db.sessions.rows.filter fun s => s.parentSessionId.any (· ∈ ids) ∧ s.id ∉ ids

theorem subtree_succ (n : Nat) (ids : List SessionId) :
    db.subtree (n + 1) ids = db.subtree n (ids ++ (db.below ids).map Session.id) := rfl

/-- A round that adds nothing has found everything. -/
theorem closedBelow_of_below {ids : List SessionId} (h : db.below ids = []) : db.ClosedBelow ids := by
  intro s hs p hp hmem
  by_contra hout
  have hadded : s ∈ db.below ids := by simp [below, hs, hp, hmem, hout]
  simp [h] at hadded

theorem subtree_of_below {ids : List SessionId} (h : db.below ids = []) (n : Nat) :
    db.subtree n ids = ids := by
  induction n with
  | zero => rfl
  | succ n ih =>
      rw [subtree_succ, h]
      simpa using ih

/-- The sessions that have not been found. -/
def outside (db : Db) (ids : List SessionId) : List Session :=
  db.sessions.rows.filter fun s => s.id ∉ ids

/-- A round that adds something leaves fewer sessions to find. -/
theorem outside_lt {ids : List SessionId} (h : db.below ids ≠ []) :
    (db.outside (ids ++ (db.below ids).map Session.id)).length < (db.outside ids).length := by
  obtain ⟨s, hs⟩ := List.exists_mem_of_ne_nil _ h
  obtain ⟨hmem, hnew⟩ := List.mem_filter.mp hs
  have hout : s.id ∉ ids := by simpa using (of_decide_eq_true hnew).2
  have hsub : db.outside (ids ++ (db.below ids).map Session.id) =
      (db.outside ids).filter fun s => s.id ∉ (db.below ids).map Session.id := by
    rw [outside, outside, List.filter_filter]
    refine List.filter_congr fun t _ => ?_
    simp only [List.mem_append, not_or, Bool.decide_and]
    exact Bool.and_comm _ _
  rw [hsub]
  refine List.length_filter_lt_length_iff_exists.mpr ⟨s, ?_, ?_⟩
  · exact List.mem_filter.mpr ⟨hmem, by simpa using hout⟩
  · have hfound : s.id ∈ (db.below ids).map Session.id := List.mem_map_of_mem hs
    simp [hfound]

/-- **As many rounds as there are sessions to find are enough.** -/
theorem closedBelow_subtree {n : Nat} {ids : List SessionId} (h : (db.outside ids).length ≤ n) :
    db.ClosedBelow (db.subtree n ids) := by
  induction n generalizing ids with
  | zero =>
      intro s hs p hp hmem
      have hnone : db.outside ids = [] := List.length_eq_zero_iff.mp (Nat.le_zero.mp h)
      by_contra hout
      have hnot : s.id ∉ ids := hout
      have hstill : s ∈ db.outside ids := List.mem_filter.mpr ⟨hs, by simpa using hnot⟩
      simp [hnone] at hstill
  | succ n ih =>
      by_cases hdone : db.below ids = []
      · rw [subtree_of_below hdone]
        exact closedBelow_of_below hdone
      · rw [subtree_succ]
        refine ih ?_
        have hlt := db.outside_lt hdone
        omega

/-! ## The tree -/

/-- The sessions as a forest. -/
def parents (db : Db) : Parents SessionId := fun id => (db.session? id).map Session.parentSessionId

theorem parents_of_mem {s : Session} (h : s ∈ db.sessions.rows) :
    db.parents s.id = some s.parentSessionId := by
  rw [parents, session?_of_mem h]
  rfl

theorem parents_eq_some {id : SessionId} {o : Option SessionId} (h : db.parents id = some o) :
    ∃ s ∈ db.sessions.rows, s.id = id ∧ s.parentSessionId = o := by
  obtain ⟨s, hs, hp⟩ := Option.map_eq_some_iff.mp h
  exact ⟨s, mem_of_session? hs, id_of_session? hs, hp⟩

theorem parents_ne_none {id : SessionId} : db.parents id ≠ none ↔ db.session? id ≠ none := by
  simp [parents]

theorem parents_updateSession (id : SessionId) (u : SessionUpdate) :
    (db.updateSession id u).parents = db.parents := by
  funext j
  unfold parents
  rw [session?_updateSession]
  split
  · rename_i hj
    rw [Option.map_map, hj]
    congr 1
    funext s
    exact (u.apply_identity s).2.2.1
  · rfl

/-- A statement leaves every session with a parent that is there. -/
theorem Step.linked {P : Permit} {db' : Db} (h : Step P db db')
    (hdelete : ∀ ids, P.delete db ids → ∃ id, ids = db.subtree db.sessions.rows.length [id])
    (hdb : Linked db.parents) : Linked db'.parents := by
  cases h with
  | @updateSession id u _ _ =>
      rw [parents_updateSession]
      exact hdb
  | @stopSession id desiredBy _ =>
      have hsame : ((db.updateSession id (.stop desiredBy)).deleteTasks id).parents = db.parents :=
        parents_updateSession id (.stop desiredBy)
      rw [hsame]
      exact hdb
  | @insertSession row sessions ht _ hparent _ =>
      have hfind : ∀ j, ({ db with sessions } : Db).parents j =
          if j = row.id then some row.parentSessionId else db.parents j := by
        intro j
        show (sessions.find? j).map Session.parentSessionId = _
        rw [Table.find?_insert? ht]
        split <;> rfl
      intro k p hk
      have hthere : db.parents p ≠ none := by
        rw [hfind] at hk
        split at hk
        · exact parents_ne_none.mpr (hparent p (Option.some.inj hk))
        · exact hdb k p hk
      rw [hfind]
      split
      · simp
      · exact hthere
  | @deleteSessions ids hd =>
      obtain ⟨id, rfl⟩ := hdelete ids hd
      have hclosed : db.ClosedBelow (db.subtree db.sessions.rows.length [id]) :=
        closedBelow_subtree (List.length_filter_le _ _)
      intro k p hk
      obtain ⟨s, hs, rfl, hp⟩ := parents_eq_some hk
      obtain ⟨hmem, hstays⟩ := Table.mem_deleteWhere.mp hs
      have hout : p ∉ db.subtree db.sessions.rows.length [id] := by
        intro hin
        have hgone := hclosed s hmem p hp hin
        simp [hgone] at hstays
      have hthere := hdb s.id p (by rw [parents_of_mem hmem, hp])
      rw [parents_ne_none, session?_deleteSessions, if_neg hout]
      exact parents_ne_none.mp hthere
  | _ => exact hdb

end Db

/-- The parent of a session is there. -/
theorem Reachable.linked {history : History} (h : Reachable history) :
    Linked (current history).parents := by
  refine h.keeps (I := fun db => Linked db.parents) (fun k p hk => by cases hk) ?_
  intro w env db db' hstep hdb
  refine hstep.linked (fun ids hd => ?_) hdb
  obtain ⟨id, -, hids⟩ := hd
  exact ⟨id, hids⟩

/-- Two databases of one history agree on the parents. -/
theorem Reachable.agree {history earlier : History} {e : Event scheduler} (h : Reachable history)
    (he : e ∈ history) (hbefore : before e = current earlier) :
    Agree (current earlier).parents (current history).parents := by
  intro k o o' hk hk'
  obtain ⟨s, hs, rfl, rfl⟩ := Db.parents_eq_some hk
  obtain ⟨s', hs', hid, rfl⟩ := Db.parents_eq_some hk'
  exact (h.identity ⟨e, he, hbefore ▸ hs⟩ hs' hid).2.1

/-- The distance of a session stays as long as the session does. -/
theorem Reachable.distance_stays {history earlier : History} {e : Event scheduler}
    (h : Reachable history) (he : e ∈ history) (hbefore : before e = current earlier)
    {id : SessionId} {n : Nat} (hdist : Distance (current earlier).parents id n)
    (hstays : (current history).session? id ≠ none) : Distance (current history).parents id n :=
  hdist.carry (h.agree he hbefore) h.linked (Db.parents_ne_none.mpr hstays)

/-- The walk ends at a root. -/
theorem Db.depthFrom_root {db : Db} {s : Session} (hs : s ∈ db.sessions.rows)
    (hp : s.parentSessionId = none) (fuel : Nat) : db.depthFrom s.executionId (fuel + 1) s.id = 0 := by
  rw [depthFrom, session?_of_mem hs]
  simp [Option.filter, hp]

/-- The walk goes on to a parent of the same execution. -/
theorem Db.depthFrom_child {db : Db} {s q : Session} (hs : s ∈ db.sessions.rows)
    (hq : q ∈ db.sessions.rows) (hp : s.parentSessionId = some q.id)
    (hexec : q.executionId = s.executionId) (fuel : Nat) :
    db.depthFrom s.executionId (fuel + 1) s.id = db.depthFrom q.executionId fuel q.id + 1 := by
  rw [depthFrom, session?_of_mem hs]
  simp [Option.filter, hp, session?_of_mem hq, hexec]

/-- **The walk of `compute_depth` reaches the root** when its steps suffice. -/
theorem depthFrom_of_distance {history : History} (h : Trace disciplined history) {s : Session}
    (hs : s ∈ (current history).sessions.rows) {n fuel : Nat}
    (hdist : Distance (current history).parents s.id n) (hfuel : n ≤ fuel) :
    (current history).depthFrom s.executionId fuel s.id = n := by
  have hr := reachable_of_trace h
  induction fuel generalizing s n with
  | zero => exact (Nat.le_zero.mp hfuel).symm
  | succ fuel ih =>
      cases hp : s.parentSessionId with
      | none =>
          have hroot : Distance (current history).parents s.id 0 := by
            refine .root ?_
            rw [Db.parents_of_mem hs, hp]
          rw [Db.depthFrom_root hs hp]
          exact hroot.unique hdist
      | some p =>
          have hedge : (current history).parents s.id = some (some p) := by
            rw [Db.parents_of_mem hs, hp]
          obtain ⟨m, rfl, hdist'⟩ := hdist.of_child hedge
          obtain ⟨q, hq⟩ := Option.ne_none_iff_exists'.mp (Db.parents_ne_none.mp hdist'.member)
          obtain rfl : q.id = p := Db.id_of_session? hq
          have hmem := Db.mem_of_session? hq
          -- the parent is of the same execution
          obtain ⟨q', hq', hid, hexec⟩ := parent_seen h (.inr hs) hp
          have hsame : q.executionId = s.executionId := by
            rw [(hr.identity hq' hmem hid.symm).1, hexec]
          rw [Db.depthFrom_child hs hmem hp hsame, ih hmem hdist' (by omega)]

/-! ## The limit -/

/-- Every session has a distance, within the limit of its execution where this is in the accepted
range. -/
def WithinDepth (db : Db) : Prop :=
  ∀ s ∈ db.sessions.rows, ∃ n, Distance db.parents s.id n ∧
    ∀ x, db.execution? s.executionId = some x → 1 ≤ x.maxDepth → x.maxDepth ≤ 10 →
      (n : Int) ≤ x.maxDepth

/-- Within the limit, the depth that is computed is the distance. -/
theorem WithinDepth.computed {history : History} (hwithin : WithinDepth (current history))
    (h : Trace disciplined history) {s : Session} (hs : s ∈ (current history).sessions.rows)
    {x : Execution} (hx : (current history).execution? s.executionId = some x)
    (hlow : 1 ≤ x.maxDepth) (hhigh : x.maxDepth ≤ 10) :
    ∃ n : Nat, Distance (current history).parents s.id n ∧ (n : Int) ≤ x.maxDepth ∧
      (current history).computeDepth s.id s.executionId = n := by
  obtain ⟨n, hdist, hbound⟩ := hwithin s hs
  have hle := hbound x hx hlow hhigh
  exact ⟨n, hdist, hle, depthFrom_of_distance h hs hdist (by omega)⟩

/-- What was within the limit at some point is within the limit of today. -/
theorem WithinDepth.later {history earlier : History} {e : Event scheduler}
    (hwithin : WithinDepth (current earlier)) (h : Reachable history) (he : e ∈ history)
    (hr : Reachable earlier) (hbefore : before e = current earlier) {s : Session}
    (hs : s ∈ (current earlier).sessions.rows) :
    ∃ n, Distance (current earlier).parents s.id n ∧
      ∀ x, (current history).execution? s.executionId = some x → 1 ≤ x.maxDepth →
        x.maxDepth ≤ 10 → (n : Int) ≤ x.maxDepth := by
  obtain ⟨n, hdist, hbound⟩ := hwithin s hs
  refine ⟨n, hdist, fun x hx hlow hhigh => ?_⟩
  obtain ⟨x₀, hx₀⟩ := Option.ne_none_iff_exists'.mp (hr.hasExecutions s hs)
  have hlimits : x.limits = x₀.limits := by
    refine h.limits_of_seen ⟨e, he, hbefore ▸ Db.mem_of_execution? hx₀⟩ ?_
    rw [Db.id_of_execution? hx₀]
    exact hx
  have hdepth : x.maxDepth = x₀.maxDepth := congrArg Prod.fst hlimits
  rw [hdepth] at hlow hhigh ⊢
  exact hbound x₀ hx₀ hlow hhigh

/-- A suffix of a history that begins with a call: the call is in the history, and found what the
suffix left. -/
theorem Reachable.point {history earlier : History} {e : Event scheduler} (h : Reachable history)
    (hs : (e :: earlier) <:+ history) :
    e ∈ history ∧ Reachable earlier ∧ before e = current earlier := by
  have hr : Reachable (e :: earlier) := h.of_suffix hs
  obtain ⟨hr, hbefore, -⟩ := hr.of_cons
  exact ⟨hs.subset List.mem_cons_self, hr, hbefore⟩

/-- A session that has been read and is there was there at any point after it had been read. -/
theorem Reachable.there_since {history earlier : History} (h : Reachable history)
    (hs : earlier <:+ history) {s : Session} (hseen : Seen earlier s)
    (hstays : (current history).session? s.id ≠ none) : (current earlier).session? s.id ≠ none := by
  have hr : Reachable earlier := h.of_suffix hs
  obtain ⟨later, rfl⟩ := hs
  exact h.session_earlier (hr.seen_drawn hseen) hstays

/-- What a delegation has read of its session still holds: the session is less than the limit away
from its root. -/
theorem distance_of_delegated {history earlier : History} {e : Event scheduler}
    (h : Trace disciplined history) (hs : (e :: earlier) <:+ history)
    (hwithin : WithinDepth (current earlier)) {p : Session} (hp : Seen earlier p) {x₀ : Execution}
    (hx₀ : SeenExecution earlier x₀) (hxid : x₀.id = p.executionId)
    (hless : ((before e).computeDepth p.id p.executionId : Int) < x₀.maxDepth)
    (hthere : (current history).session? p.id ≠ none) :
    ∃ n, Distance (current history).parents p.id n ∧
      ∀ x, (current history).execution? p.executionId = some x → 1 ≤ x.maxDepth →
        x.maxDepth ≤ 10 → (n : Int) < x.maxDepth := by
  have hr := reachable_of_trace h
  obtain ⟨he, hrearlier, hbefore⟩ := hr.point hs
  have hsuffix : earlier <:+ history := (List.suffix_cons e earlier).trans hs
  -- the parent was there when its depth was computed
  obtain ⟨q, hq⟩ := Option.ne_none_iff_exists'.mp (hr.there_since hsuffix hp hthere)
  have hmem := Db.mem_of_session? hq
  have hqid : q.id = p.id := Db.id_of_session? hq
  have hqexec : q.executionId = p.executionId := (hrearlier.identity hp hmem hqid).1
  obtain ⟨n, hdist, hbound⟩ := hwithin.later hr he hrearlier hbefore hmem
  rw [hqid] at hdist
  refine ⟨n, hr.distance_stays he hbefore hdist hthere, fun x hx hlow hhigh => ?_⟩
  have hle := hbound x (hqexec ▸ hx) hlow hhigh
  -- so what was computed is its distance
  have hcomputed : (before e).computeDepth p.id p.executionId = n := by
    rw [hbefore, ← hqexec, ← hqid]
    exact depthFrom_of_distance (h.of_suffix hsuffix) hmem (hqid ▸ hdist) (by omega)
  have hlimits : x.limits = x₀.limits := by
    obtain ⟨e₀, he₀, hrow⟩ := hx₀
    exact hr.limits_of_seen ⟨e₀, hsuffix.subset he₀, hrow⟩ (hxid ▸ hx)
  have hdepth : x.maxDepth = x₀.maxDepth := congrArg Prod.fst hlimits
  rw [hdepth, ← hcomputed]
  exact hless

/-- **What one call keeps.** -/
theorem WithinDepth.call {e : Event scheduler} {history : History}
    (h : Trace disciplined (e :: history))
    (hprev : ∀ earlier, earlier <:+ history → WithinDepth (current earlier)) :
    WithinDepth (after e) := by
  have hr := reachable_of_trace h
  obtain ⟨hrearlier, hbefore, -⟩ := hr.of_cons
  obtain ⟨-, hproper, -, -⟩ := h.of_cons
  intro s' hs'
  have hthere : (after e).session? s'.id ≠ none := by simp [Db.session?_of_mem hs']
  rcases call_effect e with ⟨w, hw, hsteps⟩ | hsame
  · rcases hsteps.descends hs' with ⟨s, hs, hrow⟩ | ⟨row, hins, hrow⟩
    · -- it was there
      obtain ⟨hid, hexec, -⟩ := hrow.identity
      have hmem : s ∈ (current history).sessions.rows := hbefore ▸ Db.mem_of_session? hs
      obtain ⟨n, hdist, hbound⟩ := (hprev history List.suffix_rfl).later hr List.mem_cons_self
        hrearlier hbefore hmem
      rw [hid] at hthere ⊢
      rw [hexec]
      exact ⟨n, hr.distance_stays List.mem_cons_self hbefore hdist hthere, hbound⟩
    · obtain ⟨executionId, agentId, parent, cwd, worktreePath, baseCommitSha, continued, sandboxPolicy,
        rfl, hins⟩ := hins
      have hexec : s'.executionId = executionId := hrow.identity.2.1
      have hparent : s'.parentSessionId = parent := hrow.identity.2.2.1
      have hedge : (after e).parents s'.id = some parent := by
        rw [Db.parents_of_mem hs', hparent]
      rcases hins with ⟨-, rfl⟩ | ⟨parentId, active, maxWidth, rfl, rfl, -⟩ |
        ⟨old, parentId, resumable, parts, rfl, rfl, rfl, -⟩
      · -- a root
        exact ⟨0, .root hedge, fun x _ hlow _ => by omega⟩
      · -- a delegated child
        obtain ⟨-, e₀, earlier, hs, ⟨p, hp, rfl, rfl⟩, x₀, hx₀, hxid, hless⟩ := hproper _ hw
        have hsuffix : earlier <:+ history := (List.suffix_cons e₀ earlier).trans hs
        have hpthere := Db.parents_ne_none.mp (hr.linked s'.id p.id hedge)
        obtain ⟨n, hdist, hbound⟩ := distance_of_delegated h (hs.trans (List.suffix_cons e history))
          (hprev earlier hsuffix) hp hx₀ hxid hless hpthere
        refine ⟨n + 1, .child hedge hdist, fun x hx hlow hhigh => ?_⟩
        have hlt := hbound x (hexec ▸ hx) hlow hhigh
        push_cast
        omega
      · -- a child that continues another: both are children of one parent
        obtain ⟨⟨e₁, he₁, hrow₁⟩, hchild⟩ := hproper _ hw
        have hfull := hr.of_cons.1
        obtain ⟨earlier, hs, hre⟩ := hfull.of_mem he₁
        obtain ⟨hrearlier, hbefore₁, -⟩ := hre.of_cons
        have hsuffix : earlier <:+ history := (List.suffix_cons e₁ earlier).trans hs
        have he₁' : e₁ ∈ e :: history := List.mem_cons_of_mem _ he₁
        rw [hbefore₁] at hrow₁
        obtain ⟨n, hdist, hbound⟩ := (hprev earlier hsuffix).later hr he₁' hrearlier hbefore₁ hrow₁
        obtain ⟨m, rfl, hdist'⟩ := hdist.of_child (by rw [Db.parents_of_mem hrow₁, hchild])
        have hpthere := Db.parents_ne_none.mp (hr.linked s'.id parentId hedge)
        have hstays := hr.distance_stays he₁' hbefore₁ hdist' hpthere
        refine ⟨m + 1, .child hedge hstays, fun x hx => ?_⟩
        exact hbound x (hexec ▸ hx)
  · rw [hsame] at hs' ⊢
    rw [hbefore] at hs' ⊢
    exact hprev history List.suffix_rfl s' hs'

/-- **No session ever lies deeper than its execution allows.** -/
theorem withinDepth {history : History} (h : Trace disciplined history) :
    ∀ earlier, earlier <:+ history → WithinDepth (current earlier) := by
  induction history with
  | nil =>
      intro earlier hs
      obtain rfl := List.suffix_nil.mp hs
      intro s hs
      cases hs
  | cons e history ih =>
      have hprev := ih h.of_cons.1
      intro earlier hs
      rcases List.suffix_cons_iff.mp hs with rfl | hs
      · exact WithinDepth.call h hprev
      · exact hprev earlier hs

/-- `compute_depth_in_tx`: the same query, on what the transaction sees. -/
def DbTx.computeDepthInTx {ρ : Type} (id : SessionId) (executionId : ExecutionId) : DbTx ρ Nat := do
  let db ← Tx.read
  pure (db.computeDepth id executionId)

/-- **The depth limit.** In every state of every run, a session of an execution whose limit is in the
accepted range is at most the limit away from its root, and `compute_depth` and `compute_depth_in_tx`
return its distance. -/
theorem depth_limited {pool : List (Nat × Request Unit)} {history : History}
    (h : SchedulerRun pool history) :
    ∀ s ∈ (current history).sessions.rows, ∀ x,
      (current history).execution? s.executionId = some x → 1 ≤ x.maxDepth → x.maxDepth ≤ 10 →
        ∃ n : Nat, Distance (current history).parents s.id n ∧ (n : Int) ≤ x.maxDepth ∧
          (current history).computeDepth s.id s.executionId = n ∧
          ∀ ρ : Type, (DbTx.computeDepthInTx s.id s.executionId : DbTx ρ Nat) (current history) =
            .ok (n, current history) := by
  intro s hs x hx hlow hhigh
  have hwithin := withinDepth h.disciplined history List.suffix_rfl
  obtain ⟨n, hdist, hle, hcomputed⟩ := hwithin.computed h.disciplined hs hx hlow hhigh
  refine ⟨n, hdist, hle, hcomputed, fun ρ => ?_⟩
  show Except.ok (((current history).computeDepth s.id s.executionId), current history) = _
  rw [hcomputed]

/-- The root delegates, and its child delegates in turn: the limit of two is reached. -/
def nestedOnce : List (Choice (Nat × Route) Env) :=
  opening ++ alone 2 "c" (.delegate "r" "lead" "work" none) 11 ++
    alone 3 "d" (.delegate "c8" "lead" "more" none) 12

theorem depth_limited_nested :
    ((current (historyOf nestedOnce)).session? "d8").isSome = true ∧
    ∀ s ∈ (current (historyOf nestedOnce)).sessions.rows, ∃ n : Nat,
      Distance (current (historyOf nestedOnce)).parents s.id n ∧ n ≤ 2 := by
  refine ⟨by decide +kernel, fun s hs => ?_⟩
  obtain ⟨pool, hrun⟩ := historyOf_run nestedOnce
  have hlimits : ∀ s ∈ (current (historyOf nestedOnce)).sessions.rows,
      ((current (historyOf nestedOnce)).execution? s.executionId).map Execution.maxDepth = some 2 := by
    decide +kernel
  obtain ⟨x, hx, htwo⟩ := Option.map_eq_some_iff.mp (hlimits s hs)
  obtain ⟨n, hdist, hle, -⟩ := depth_limited hrun s hs x hx (by omega) (by omega)
  exact ⟨n, hdist, by omega⟩

end AgentBeacon
