import AgentBeacon.System.Serving

/-!
# `Correctness.Worktrees` — one owner per worktree

A worktree is made for the root of an execution, under a path of its own. `continue_from` would hand
a path over as its caller has read it, and several continuations of one session would each take it;
what keeps a worktree with one owner is that only a child is continued, and that no child ever gets a
worktree: a delegation creates none, and a continuation only what a child had.
-/

namespace AgentBeacon
open Relational Interleave

/-- No update gives a session a worktree. -/
theorem SessionUpdate.apply_worktreePath (u : SessionUpdate) (s : Session) :
    (u.apply s).worktreePath = s.worktreePath ∨ (u.apply s).worktreePath = none := by
  unfold apply
  split
  · cases u with
    | handOverWorktree => exact .inr rfl
    | clearWorktreePath => exact .inr rfl
    | _ => exact .inl rfl
  · exact .inl rfl

/-- A session with a worktree had it before the transaction. -/
theorem Db.RowSteps.worktreePath {P : Permit} {s s' : Session} (h : Db.RowSteps P s s') {path : String}
    (hpath : s'.worktreePath = some path) : s.worktreePath = some path := by
  have hkept : s'.worktreePath = s.worktreePath ∨ s'.worktreePath = none := by
    refine h.keeps (I := fun t => t.worktreePath = s.worktreePath ∨ t.worktreePath = none) (.inl rfl)
      fun t u _ ht => ?_
    rcases u.apply_worktreePath t with hsame | hnone
    · rw [hsame]
      exact ht
    · exact .inr hnone
  rcases hkept with hsame | hnone
  · exact hsame.symm.trans hpath
  · rw [hpath] at hnone
    cases hnone

/-- **Only a root has a worktree**, in every row there is and in every row that was read. -/
theorem root_of_worktree {history : History} (h : Trace disciplined history) {s : Session}
    (hs : Seen history s ∨ s ∈ (current history).sessions.rows) (hpath : s.worktreePath.isSome) :
    s.parentSessionId = none := by
  induction history generalizing s with
  | nil =>
      rcases hs with ⟨e, he, -⟩ | hs
      · cases he
      · cases hs
  | cons e history ih =>
      obtain ⟨ht, hproper, -, -⟩ := h.of_cons
      obtain ⟨-, hbefore, -⟩ := (reachable_of_trace h).of_cons
      have hprev : ∀ s, Seen history s ∨ s ∈ (before e).sessions.rows → s.worktreePath.isSome →
          s.parentSessionId = none := by
        intro s hs
        exact ih ht (hbefore ▸ hs)
      rcases hs with ⟨e', he', hrow⟩ | hs
      · rcases List.mem_cons.mp he' with rfl | he'
        · exact hprev s (.inr hrow) hpath
        · exact hprev s (.inl ⟨e', he', hrow⟩) hpath
      obtain ⟨path, hpath⟩ := Option.isSome_iff_exists.mp hpath
      rcases call_effect e with ⟨w, hw, hsteps⟩ | hsame
      · rcases hsteps.descends hs with ⟨s₀, hs₀, hrow⟩ | ⟨row, hrow', hrow⟩
        · rw [hrow.identity.2.2.1]
          exact hprev s₀ (.inr (Db.mem_of_session? hs₀)) (by simp [hrow.worktreePath hpath])
        · have hinserted := hrow.worktreePath hpath
          rw [hrow.identity.2.2.1]
          obtain ⟨_, _, parent, _, worktreePath, _, _, _, rfl, hins⟩ := hrow'
          have hgiven : worktreePath = some path := hinserted
          rcases hins with ⟨-, rfl⟩ | ⟨_, _, _, -, -, hnone⟩ | ⟨old, parentId, _, _, rfl, -, -, hold⟩
          · rfl
          · rw [hgiven] at hnone
            cases hnone
          · -- a continuation takes the path of a child, which has none
            obtain ⟨hseen, hchild⟩ := hproper _ hw
            have hroot := hprev old (.inl hseen) (by simp [← hold, hgiven])
            rw [hchild] at hroot
            cases hroot
      · rw [current_cons, hsame] at hs
        exact hprev s (.inr hs) (by simp [hpath])

/-- The worktree that a call creates a session with. -/
def createdWith (e : Event scheduler) : Option String :=
  match (e.op : Op) with
  | .write (.createSession _ _ _ worktreePath _ _) => worktreePath
  | _ => none

/-- A session is created under a path that no session has. -/
def FreshPath (e : Event scheduler) : Prop :=
  ∀ path ∈ createdWith e, ∀ s ∈ (before e).sessions.rows, s.worktreePath ≠ some path

instance (e : Event scheduler) : Decidable (FreshPath e) :=
  inferInstanceAs (Decidable (∀ path ∈ createdWith e, ∀ s ∈ (before e).sessions.rows,
    s.worktreePath ≠ some path))

/-- A worktree has at most one owner. -/
def OneOwner (db : Db) : Prop :=
  ∀ s ∈ db.sessions.rows, ∀ s' ∈ db.sessions.rows, ∀ path, s.worktreePath = some path →
    s'.worktreePath = some path → s.id = s'.id

/-- Where a path comes from: its owner had it before the call, or was created with it. -/
theorem owner_before {e : Event scheduler} {history : History} (h : Trace disciplined (e :: history))
    {s : Session} (hs : s ∈ (after e).sessions.rows) {path : String}
    (hpath : s.worktreePath = some path) :
    (∃ s₀ ∈ (before e).sessions.rows, s₀.id = s.id ∧ s₀.worktreePath = some path) ∨
      s.id = (envOf e).uuid ∧ createdWith e = some path := by
  obtain ⟨ht, hproper, -, -⟩ := h.of_cons
  rcases call_effect e with ⟨w, hw, hsteps⟩ | hsame
  · rcases hsteps.descends hs with ⟨s₀, hs₀, hrow⟩ | ⟨row, hrow', hrow⟩
    · exact .inl ⟨s₀, Db.mem_of_session? hs₀, hrow.identity.1.symm, hrow.worktreePath hpath⟩
    · have hinserted := hrow.worktreePath hpath
      obtain ⟨_, _, parent, _, worktreePath, _, _, _, rfl, hins⟩ := hrow'
      have hgiven : worktreePath = some path := hinserted
      rcases hins with ⟨rfl, -⟩ | ⟨_, _, _, -, -, hnone⟩ | ⟨old, parentId, _, _, rfl, -, -, hold⟩
      · refine .inr ⟨hrow.identity.1, ?_⟩
        unfold createdWith
        rw [hw]
        exact hgiven
      · rw [hgiven] at hnone
        cases hnone
      · obtain ⟨hseen, hchild⟩ := hproper _ hw
        have hroot := root_of_worktree ht (.inl hseen) (by simp [← hold, hgiven])
        rw [hchild] at hroot
        cases hroot
  · rw [hsame] at hs
    exact .inl ⟨s, hs, rfl, hpath⟩

/-- **What one call keeps.** -/
theorem OneOwner.call {e : Event scheduler} {history : History} (h : Trace disciplined (e :: history))
    (hfresh : FreshPath e) (hone : OneOwner (before e)) : OneOwner (after e) := by
  intro s hs s' hs' path hpath hpath'
  rcases owner_before h hs hpath with ⟨s₀, hs₀, hid, hpath₀⟩ | ⟨hid, hcreated⟩
  · rcases owner_before h hs' hpath' with ⟨s₁, hs₁, hid', hpath₁⟩ | ⟨-, hcreated⟩
    · rw [← hid, ← hid']
      exact hone s₀ hs₀ s₁ hs₁ path hpath₀ hpath₁
    · exact absurd hpath₀ (hfresh path hcreated s₀ hs₀)
  · rcases owner_before h hs' hpath' with ⟨s₁, hs₁, -, hpath₁⟩ | ⟨hid', -⟩
    · exact absurd hpath₁ (hfresh path hcreated s₁ hs₁)
    · rw [hid, hid']

/-- **One owner per worktree.** In every state of every interleaving of the scheduler, with any number
of continuations of one session and any deletions of worktrees among its requests, a worktree path
belongs to at most one session, if the paths sessions are created with are fresh. -/
theorem one_owner_per_worktree {pool : List (Nat × Request Unit)} {history : History}
    (h : SchedulerRun pool history) (hfresh : ∀ e ∈ history, FreshPath e) :
    ∀ s ∈ (current history).sessions.rows, ∀ s' ∈ (current history).sessions.rows, ∀ path,
      s.worktreePath = some path → s'.worktreePath = some path → s.id = s'.id := by
  have hone : ∀ history, Trace disciplined history → (∀ e ∈ history, FreshPath e) →
      OneOwner (current history) := by
    intro history ht hfresh
    induction history with
    | nil =>
        intro s hs
        cases hs
    | cons e history ih =>
        obtain ⟨-, hbefore, -⟩ := (reachable_of_trace ht).of_cons
        have hprev := ih ht.of_cons.1 fun e' he' => hfresh e' (List.mem_cons_of_mem e he')
        exact OneOwner.call ht (hfresh e List.mem_cons_self) (hbefore ▸ hprev)
  exact hone history h.disciplined hfresh

/-- Two executions, each with a worktree; the user ends the first and deletes its worktree. -/
def twoWorktrees : List (Choice (Nat × Route) Env) :=
  [.spawn 0 (0, .putAgent leadAgent), .step 0 (calm 1 "t0"), .drop 0] ++
    alone 1 "a" (.createExecution { firstRequest with worktreePath := some "/w/1" }) 8 ++
    alone 2 "b" (.createExecution { firstRequest with worktreePath := some "/w/2" }) 8 ++
    alone 3 "c" (.terminateSession "a2") 4 ++ alone 4 "d" (.deleteWorktree "a2") 3

theorem one_owner_per_worktree_two :
    (∃ s ∈ (current (historyOf twoWorktrees)).sessions.rows, s.worktreePath.isSome = true) ∧
    ∀ s ∈ (current (historyOf twoWorktrees)).sessions.rows,
    ∀ s' ∈ (current (historyOf twoWorktrees)).sessions.rows, ∀ path,
      s.worktreePath = some path → s'.worktreePath = some path → s.id = s'.id := by
  obtain ⟨pool, hrun⟩ := historyOf_run twoWorktrees
  exact ⟨by decide +kernel, one_owner_per_worktree hrun (by decide +kernel)⟩

end AgentBeacon
