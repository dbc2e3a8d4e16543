import AgentBeacon.System.History

/-!
# `Correctness.Outcome` — a session has an outcome exactly when it is to terminate

Every statement that writes `desired` or `outcome` keeps the two in step, whatever row its caller
had read, so the repairs of `reconcile` never find anything to repair. An outcome, once there, is
only ever taken back by a recovery, and only when it was a failure.
-/

namespace AgentBeacon
open Interleave

/-- `outcome IS NOT NULL` if and only if `desired = 'terminate'`. -/
def Settled (s : Session) : Prop := s.outcome.isSome = true ↔ s.desired = .terminate

theorem settled_newSession (id : SessionId) (executionId : ExecutionId) (agentId : AgentId)
    (parent : Option SessionId) (cwd worktreePath baseCommitSha : Option String) (slug : String)
    (continued : Option SessionId) (sandboxPolicy : String) (now : Timestamp) :
    Settled (newSession id executionId agentId parent cwd worktreePath baseCommitSha slug continued
      sandboxPolicy now) := by
  simp [Settled, newSession]

/-- **Every permitted update keeps a row settled.** The repairs of a missing outcome would not, on
their own: what keeps them away is that they only touch rows that are to terminate. -/
theorem Settled.update {w : Write} {env : Env} {s : Session} {u : SessionUpdate}
    (hs : Settled s) (hu : w.updates env s u) : Settled (u.apply s) := by
  unfold SessionUpdate.apply
  split
  · rename_i hm
    unfold Settled at hs ⊢
    cases u with
    | repairRootOutcome outcome =>
        obtain ⟨_, _, _, _, hterminate⟩ := hu
        simp only [SessionUpdate.matches, Option.isNone_iff_eq_none] at hm
        simp [hm] at hs
        exact absurd hterminate hs
    | repairChildOutcome outcome state =>
        simp only [SessionUpdate.matches, Bool.and_eq_true, decide_eq_true_eq,
          Option.isNone_iff_eq_none] at hm
        simp [hm.1.1] at hs
        exact absurd hm.1.2 hs
    | _ => simp_all [SessionUpdate.set, SessionUpdate.clearCommand, SessionUpdate.issue,
        SessionUpdate.matches]
  · exact hs

/-- **In every reachable state every session is settled.** -/
theorem Reachable.settled {history : History} (h : Reachable history) :
    ∀ s ∈ (current history).sessions.rows, Settled s := by
  refine h.rows (fun w env row hrow => ?_) fun w env s u hu hs => hs.update hu
  obtain ⟨_, _, _, _, _, _, _, _, rfl, -⟩ := hrow
  exact settled_newSession _ _ _ _ _ _ _ _ _ _ _

/-- What became of an outcome `o` in a transaction `w`: it stands, or a recovery has taken it back. -/
def Kept (w : Write) (o : Outcome) (s : Session) : Prop :=
  s.outcome = some o ∨ s.outcome = none ∧ o = .failed ∧
    ∃ session clearAgentSessionId message, w = .recover session clearAgentSessionId message

/-- **An outcome is only taken back by a recovery, and only a failure.** -/
theorem Kept.update {w : Write} {env : Env} {o : Outcome} {s : Session} {u : SessionUpdate}
    (h : Kept w o s) (hs : Settled s) (hu : w.updates env s u) : Kept w o (u.apply s) := by
  unfold SessionUpdate.apply
  split
  · rename_i hm
    rcases h with ho | ⟨hnone, rfl, hrecover⟩
    · -- the outcome stands: only `recover` takes it away, the rest does not match or keeps it
      have hterminate : s.desired = .terminate := hs.mp (by simp [ho])
      cases u with
      | recover clearAgentSessionId =>
          obtain ⟨session, message, rfl, -⟩ := hu
          have hfailed : o = .failed := by simpa [SessionUpdate.matches, ho] using hm
          exact .inr ⟨rfl, hfailed, session, clearAgentSessionId, message, rfl⟩
      | _ => simp_all [Kept, SessionUpdate.set, SessionUpdate.clearCommand, SessionUpdate.issue,
          SessionUpdate.matches]
    · -- it has been taken back already: nothing in a recovery sets one
      obtain ⟨session, clearAgentSessionId, message, rfl⟩ := hrecover
      refine .inr ⟨?_, rfl, session, clearAgentSessionId, message, rfl⟩
      cases u <;> simp_all [SessionUpdate.set, SessionUpdate.matches, Write.updates]
  · exact h

/-- **`outcome` and `desired` agree, and an outcome is final.** In every reachable state a session has
an outcome if and only if it is desired to terminate; and no call of a reachable history changes an
outcome, except that a recovery may take back a failure. -/
theorem outcome_settled {history : History} (h : Reachable history) :
    (∀ s ∈ (current history).sessions.rows, s.outcome.isSome = true ↔ s.desired = .terminate) ∧
    ∀ e ∈ history, ∀ s ∈ (before e).sessions.rows, ∀ s' ∈ (after e).sessions.rows, s'.id = s.id →
      ∀ o, s.outcome = some o → s'.outcome = some o ∨
        s'.outcome = none ∧ o = .failed ∧ ∃ session clearAgentSessionId message,
          e.op = Op.write (.recover session clearAgentSessionId message) := by
  refine ⟨h.settled, fun e he s hs s' hs' hid o ho => ?_⟩
  obtain ⟨earlier, -, hr⟩ := h.of_mem he
  obtain ⟨hearlier, hbefore, hfresh⟩ := hr.of_cons
  rcases call_effect e with ⟨w, hw, hsteps⟩ | hsame
  · rcases hsteps.descends hs' with ⟨t, ht, hrow⟩ | ⟨row, hrow', hrow⟩
    · have hts : t = s :=
        (before e).sessions.eq_of_key_eq (Db.mem_of_session? ht) hs ((Db.id_of_session? ht).trans hid)
      subst hts
      have hsettled : Settled t := hearlier.settled t (hbefore ▸ hs)
      have hkept := hrow.keeps (I := fun t => Settled t ∧ Kept w o t) ⟨hsettled, .inl ho⟩
        fun t u hu ht => ⟨ht.1.update hu, ht.2.update ht.1 hu⟩
      rcases hkept.2 with ho' | ⟨hnone, hfailed, session, clear, message, rfl⟩
      · exact .inl ho'
      · exact .inr ⟨hnone, hfailed, session, clear, message, hw⟩
    · -- a row that was there is not inserted again
      obtain ⟨_, _, _, _, _, _, _, _, rfl, -⟩ := hrow'
      have huuid : (envOf e).uuid = s.id := hrow.identity.1.symm.trans hid
      exact absurd (huuid ▸ (hearlier.drawn s (hbefore ▸ hs)).1) (hfresh w hw)
  · rw [hsame] at hs'
    rw [(before e).sessions.eq_of_key_eq hs' hs hid]
    exact .inl ho

/-- The user terminates the first execution's root. -/
def terminated : List (Choice (Nat × Route) Env) :=
  opening ++ [.spawn 2 (1, .terminateSession "r"), .step 0 (calm 2 ""), .step 0 (calm 2 ""),
    .step 0 (calm 2 "t5")]

theorem outcome_settled_terminated :
    (current (historyOf terminated)).sessions.rows.map Session.outcome = [some .canceled] ∧
    (∀ s ∈ (current (historyOf terminated)).sessions.rows,
      s.outcome.isSome = true ↔ s.desired = .terminate) :=
  ⟨by decide, (outcome_settled (historyOf_reachable terminated)).1⟩

end AgentBeacon
