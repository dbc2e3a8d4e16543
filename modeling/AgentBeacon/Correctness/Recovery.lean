import AgentBeacon.Correctness.Columns

/-!
# `Correctness.Recovery` — how often a crashed session is restarted

`recoverable` looks at the attempts of a row that was read before; the transaction that counts one more looks
only whether the session is crashed. The bound holds as long as each of these transactions finds what
`recoverable` asks for.
-/

namespace AgentBeacon
open Relational Transaction Interleave

/-- The session whose recovery is retried. -/
def retried (e : Event scheduler) : Option Session :=
  match (e.op : Op) with
  | .write (.retryRecovery session) => some session
  | _ => none

/-- If the call retries the recovery of a session that it finds crashed, attempts are left. -/
def AttemptsLeft (e : Event scheduler) : Prop :=
  ∀ session ∈ retried e, ∀ s ∈ (before e).session? session.id,
    SessionUpdate.retryRecovery.matches s = true → s.recoveryAttempts < maxRecoveryAttempts

instance (e : Event scheduler) : Decidable (AttemptsLeft e) :=
  inferInstanceAs (Decidable (∀ session ∈ retried e, ∀ s ∈ (before e).session? session.id, _ → _))

/-- The attempts of a row are within the bound. -/
def Bounded (s : Session) : Prop := s.recoveryAttempts ≤ maxRecoveryAttempts

/-- Only a retry counts up. -/
theorem bounded_apply {s : Session} {u : SessionUpdate} (hu : u ≠ .retryRecovery) (hs : Bounded s) :
    Bounded (u.apply s) := by
  have hzero : (0 : Int) ≤ maxRecoveryAttempts := by decide
  unfold SessionUpdate.apply
  split
  · cases u with
    | reportIdle worker reset =>
        show (if reset then (0 : Int) else s.recoveryAttempts) ≤ maxRecoveryAttempts
        split
        · exact hzero
        · exact hs
    | recover => exact hzero
    | retryRecovery => exact absurd rfl hu
    | _ => exact hs
  · exact hs

/-- The transaction counts one more, or leaves the sessions alone. -/
theorem retryRecovery_sessions (session : Session) (env : Env) (db : Db) :
    ((Write.retryRecovery session).run env db).2.sessions = db.sessions ∨
      ((Write.retryRecovery session).run env db).2.sessions =
        (db.updateSession session.id .retryRecovery).sessions := by
  refine rejecting_post (m := fun env => Transition.retryRecovery env session)
    (P := fun _ db' => db'.sessions = db.sessions ∨
      db'.sessions = (db.updateSession session.id .retryRecovery).sessions) (fun _ => .inl rfl) ?_
  unfold Transition.retryRecovery
  refine DbTx.seq_execution (fun x _ => ?_) fun _ => .inl rfl
  refine DbTx.seq_updateSession (fun row _ _ => ?_) fun _ => .inl rfl
  -- what is logged afterwards leaves the sessions alone
  refine DbTx.seq_session (fun updated _ => ?_) fun _ => .inl rfl
  simp only [Tx.wp_bind, Tx.wp_when, DbTx.wp_insertEvent, Tx.wp_pure]
  refine ⟨fun _ => ⟨fun _ => ?_, fun _ => .inl trivial⟩, fun _ => ?_⟩
  · exact ⟨fun _ => .inr rfl, fun _ => .inl trivial⟩
  · exact ⟨fun _ => .inr rfl, fun _ => .inl trivial⟩

/-- **What one call preserves.** -/
theorem bounded_call {e : Event scheduler} (hleft : AttemptsLeft e)
    (h : ∀ s ∈ (before e).sessions.rows, Bounded s) : ∀ s ∈ (after e).sessions.rows, Bounded s := by
  rcases call_effect e with ⟨w, hw, hsteps⟩ | hsame
  · by_cases hretry : ∃ session, w = .retryRecovery session
    · obtain ⟨session, rfl⟩ := hretry
      have hsession : session ∈ retried e := by
        unfold retried
        rw [hw]
        rfl
      rw [after_write hw]
      intro s' hs'
      rcases retryRecovery_sessions session (envOf e) (before e) with hsame | hupdated
      · rw [hsame] at hs'
        exact h s' hs'
      · rw [hupdated] at hs'
        have hfound : ((before e).updateSession session.id .retryRecovery).session? s'.id = some s' :=
          Db.session?_of_mem hs'
        rw [Db.session?_updateSession] at hfound
        split at hfound
        · obtain ⟨s, hs, rfl⟩ := Option.map_eq_some_iff.mp hfound
          have hbound := h s (Db.mem_of_session? hs)
          unfold SessionUpdate.apply
          split
          · rename_i hmatches
            have hless := hleft session hsession s hs hmatches
            show s.recoveryAttempts + 1 ≤ maxRecoveryAttempts
            omega
          · exact hbound
        · exact h s' (Db.mem_of_session? hfound)
    · intro s' hs'
      have hkeep : ∀ s u, w.updates (envOf e) s u → Bounded s → Bounded (u.apply s) := by
        intro s u hu hs
        refine bounded_apply ?_ hs
        rintro rfl
        obtain ⟨session, hwrite, -⟩ := hu
        exact hretry ⟨session, hwrite⟩
      rcases hsteps.descends hs' with ⟨s, hs, hrow⟩ | ⟨row, hrow', hrow⟩
      · exact hrow.keeps (h s (Db.mem_of_session? hs)) hkeep
      · obtain ⟨_, _, _, _, _, _, _, _, rfl, -⟩ := hrow'
        have hnew : (0 : Int) ≤ maxRecoveryAttempts := by decide
        exact hrow.keeps hnew hkeep
  · rw [hsame]
    exact h

/-- **A session is restarted at most twice.** In every run of the scheduler in which each retry of a recovery
finds attempts left, no session of any state reached has made more attempts than are allowed. -/
theorem recovery_bounded {pool : List (Nat × Request Unit)} {history : History} (h : SchedulerRun pool history)
    (hleft : ∀ e ∈ history, AttemptsLeft e) :
    ∀ later earlier, history = later ++ earlier →
      ∀ s ∈ (current earlier).sessions.rows, s.recoveryAttempts ≤ maxRecoveryAttempts := by
  have hall : ∀ earlier, Reachable earlier → (∀ e ∈ earlier, AttemptsLeft e) →
      ∀ s ∈ (current earlier).sessions.rows, Bounded s := by
    intro earlier hr hearlier
    induction earlier with
    | nil =>
        intro s hs
        cases hs
    | cons e earlier ih =>
        obtain ⟨hrest, hbefore, -⟩ := hr.of_cons
        refine bounded_call (hearlier e List.mem_cons_self) ?_
        rw [hbefore]
        exact ih hrest fun e' he' => hearlier e' (List.mem_cons_of_mem _ he')
  rintro later earlier rfl
  refine hall earlier (h.reachable.of_suffix (List.suffix_append later earlier)) fun e he => ?_
  exact hleft e (List.mem_append_right later he)

/-! ## Runs -/

/-- The root has crashed with three messages left. -/
def crashedWithWork : List (Choice (Nat × Route) Env) :=
  opening ++ alone 1 "b" (.postMessage "r" [.textPart "more"] none) 4 ++
    alone 1 "c" (.postMessage "r" [.textPart "more"] none) 4 ++
    alone 1 "d" (.postMessage "r" [.textPart "more"] none) 4 ++ alone 2 "e" (syncOf "w" none) 7 ++
    alone 3 "f" (reportSync "w" "r" "crashed") 4

theorem recovery_bounded_once :
    (∃ s ∈ (current (historyOf (crashedWithWork ++ alone 4 "g" (.tick deployed) 10))).sessions.rows,
      s.recoveryAttempts = 1) ∧
    ∀ s ∈ (current (historyOf (crashedWithWork ++ alone 4 "g" (.tick deployed) 10))).sessions.rows,
      s.recoveryAttempts ≤ maxRecoveryAttempts := by
  obtain ⟨pool, hrun⟩ := historyOf_run (crashedWithWork ++ alone 4 "g" (.tick deployed) 10)
  exact ⟨by decide +kernel, recovery_bounded hrun (by decide +kernel) [] _ rfl⟩

/-- A tick has found the session recoverable. Meanwhile it is recovered, assigned and crashes again, twice. -/
def recoveredLate : List (Choice (Nat × Route) Env) :=
  crashedWithWork ++ .spawn 4 (0, .tick deployed) ::
      ((List.range 8).map fun i => .step 0 (calm 4 ("g" ++ toString i))) ++
    beside 5 "h" (.tick deployed) 10 ++ beside 6 "i" (syncOf "w" none) 7 ++
    beside 7 "j" (reportSync "w" "r" "crashed") 4 ++ beside 8 "k" (.tick deployed) 10 ++
    beside 9 "l" (syncOf "w" none) 7 ++ beside 10 "m" (reportSync "w" "r" "crashed") 4 ++
    [.step 0 (calm 11 "n0"), .step 0 (calm 11 "n1")]

/-- **The session is restarted a third time.** -/
theorem restarted_thrice : ¬∀ pool history, SchedulerRun pool history →
    ∀ s ∈ (current history).sessions.rows, s.recoveryAttempts ≤ maxRecoveryAttempts := by
  intro hclaim
  obtain ⟨pool, hrun⟩ := historyOf_run recoveredLate
  have hthird : ¬∀ s ∈ (current (historyOf recoveredLate)).sessions.rows,
      s.recoveryAttempts ≤ maxRecoveryAttempts := by decide +kernel
  exact hthird (hclaim pool _ hrun)

end AgentBeacon
