import AgentBeacon.System.Endings

/-!
# `System.Requests` — every route keeps the discipline

Rely–guarantee, request by request: whatever other requests call in between, a request calls its
transactions with proper arguments, because what it goes on was read or done by itself. One lemma
for each function of `System.Reconcile` and `System.Routes`, in their order; this module ends before
the creation of sessions, `System.Serving` does the rest.
-/

namespace AgentBeacon
open Relational Transaction Transition Interleave Resolution

variable {me : Nat} {history : History} {α β : Type}

/-! ## What stays known -/

theorem Known.mono {history history' : History} {escalation : Escalation}
    (h : Known history escalation) (hs : history <:+ history') : Known history' escalation := by
  obtain ⟨e, he, hrow⟩ := h
  exact ⟨e, hs.subset he, hrow⟩

theorem Delegated.mono {history history' : History} {id : SessionId} (h : Delegated history id)
    (hs : history <:+ history') : Delegated history' id := by
  obtain ⟨e, he, hid⟩ := h
  exact ⟨e, hs.subset he, hid⟩

theorem NoticedSince.mono {history history' : History} {s : Session} (h : NoticedSince history s)
    (hs : history <:+ history') : NoticedSince history' s := by
  obtain ⟨e, earlier, he, hrest⟩ := h
  exact ⟨e, earlier, he.trans hs, hrest⟩

theorem SeenExecution.mono {history history' : History} {x : Execution} (h : SeenExecution history x)
    (hs : history <:+ history') : SeenExecution history' x := by
  obtain ⟨e, he, hrow⟩ := h
  exact ⟨e, hs.subset he, hrow⟩

theorem WidthOf.mono {history history' : History} {executionId : ExecutionId} {id : SessionId}
    {maxWidth : Int} (h : WidthOf history executionId id maxWidth) (hs : history <:+ history') :
    WidthOf history' executionId id maxWidth := by
  obtain ⟨⟨s, hseen, hs'⟩, x, hx, hx'⟩ := h
  exact ⟨⟨s, hseen.mono hs, hs'⟩, x, hx.mono hs, hx'⟩

theorem DepthOf.mono {history history' : History} {executionId : ExecutionId} {id : SessionId}
    (h : DepthOf history executionId id) (hs : history <:+ history') : DepthOf history' executionId id := by
  obtain ⟨e, earlier, he, hrest⟩ := h
  exact ⟨e, earlier, he.trans hs, hrest⟩

theorem FoundEnded.mono {history history' : History} {id : SessionId} (h : FoundEnded history id)
    (hs : history <:+ history') : FoundEnded history' id := by
  obtain ⟨e, he, hended⟩ := h
  exact ⟨e, hs.subset he, hended⟩

theorem ExecutionFoundEnded.mono {history history' : History} {x : ExecutionId} (h : ExecutionFoundEnded history x)
    (hs : history <:+ history') : ExecutionFoundEnded history' x := by
  obtain ⟨e, he, hended⟩ := h
  exact ⟨e, hs.subset he, hended⟩

theorem Announced.mono {history history' : History} {id : SessionId} (h : Announced history id)
    (hs : history <:+ history') : Announced history' id := by
  obtain ⟨hfound, s, hseen, hid, hroot⟩ := h
  refine ⟨hfound.mono hs, s, hseen.mono hs, hid, fun hparent => ?_⟩
  rcases hroot hparent with hended | ⟨e, he, hoverlooks⟩
  · exact .inl (hended.mono hs)
  · exact .inr ⟨e, hs.subset he, hoverlooks⟩

/-- An execution that was read ended. -/
theorem SeenExecution.foundEnded {history : History} {x : Execution} (h : SeenExecution history x)
    (hended : x.outcome.isSome = true) : ExecutionFoundEnded history x.id := by
  obtain ⟨e, he, hrow⟩ := h
  refine ⟨e, he, .inl ?_⟩
  unfold Db.hasEnded
  rw [show (before e).execution? x.id = some x from Table.find?_of_mem hrow, Option.any_some]
  exact hended

/-- A child that has been found terminated. -/
theorem FoundEnded.announced {history : History} {s : Session} {parent : SessionId} (h : FoundEnded history s.id)
    (hseen : Seen history s) (hparent : s.parentSessionId = some parent) : Announced history s.id := by
  refine ⟨h, s, hseen, rfl, fun hroot => ?_⟩
  rw [hparent] at hroot
  cases hroot

theorem BelowEnded.mono {history history' : History} {id : SessionId} (h : BelowEnded history id)
    (hs : history <:+ history') : BelowEnded history' id := by
  obtain ⟨s, parent, hseen, hid, hparent, hended⟩ := h
  exact ⟨s, parent, hseen.mono hs, hid, hparent, hended.mono hs⟩

/-! ## Rules for requests -/

theorem orNotFound_ok {message : String} {r : Except SchedulerError (Option α)} {a : α}
    (h : orNotFound message r = .ok a) : r = .ok (some a) := by
  unfold orNotFound at h
  split at h
  · exact congrArg _ (congrArg some (Except.ok.inj h))
  · cases h
  · cases h

section Requests

-- what ends sessions relies on the tables of the start, the rest does not
set_option linter.unusedSectionVars false

variable [Start scheduler]

/-- A request that keeps the discipline, with what its result is known to satisfy. -/
abbrev Keeps (me : Nat) (p : Request α) (Q : History → α → Prop) (history : History) : Prop :=
  Safe disciplined me p Q history

/-- The same for a request that may fail: the promise is about its success. -/
def KeepsOk {ε : Type} (me : Nat) (p : ExceptT ε (Prog scheduler) α) (Q : History → α → Prop)
    (history : History) : Prop :=
  Keeps me p.run (fun history r => ∀ a, r = .ok a → Q history a) history

/-- Something a request may go on for good: no later call takes it back. -/
def Stable (Q : History → Prop) : Prop :=
  ∀ history history', history <:+ history' → Q history → Q history'

namespace Keeps

theorem pure {a : α} {Q : History → α → Prop}
    (h : ∀ history', Around disciplined me history history' → Q history' a) :
    Keeps me (.ret a) Q history := Safe.ret h

/-- A call that is no transaction. -/
theorem call {op : Op} (hop : ∀ w, op ≠ .write w) {Q : History → Op.Reply op → Prop}
    (hQ : ∀ e history', e ∈ history' → Q history' (Op.exec op (envOf e) e.pre).1) :
    Keeps me (Prog.perform (M := scheduler) op) Q history := by
  refine Safe.perform (fun _ _ w hw => absurd hw (hop w)) fun tr i tr' hl hl' => ?_
  exact hQ (scheduler.event me op i tr) tr' (hl'.later.1.subset List.mem_cons_self)

/-- **What a query answers was true of some database of the history.** -/
theorem query (f : Env → Db → α) :
    Keeps me (query f) (fun history r => ∀ a, r = .ok a →
      ∃ e ∈ history, a = f (envOf e) (before e)) history := by
  refine call (fun _ => Op.noConfusion) fun e history' he a ha => ⟨e, he, ?_⟩
  have hresult : (Op.exec (.read fun env store => f env store.db) (envOf e) e.pre).1 = .ok a := ha
  simp only [Op.exec] at hresult
  split at hresult
  · cases hresult
  · exact (Except.ok.inj hresult).symm

/-- The same, with the point at which it was asked. -/
theorem query_at (f : Env → Db → α) :
    Keeps me (AgentBeacon.query f) (fun history' r => ∀ a, r = .ok a →
      ∃ e earlier, history <:+ earlier ∧ (e :: earlier) <:+ history' ∧ a = f (envOf e) (before e)) history := by
  refine Safe.perform (fun _ _ w hw => Op.noConfusion hw) fun tr i tr' hl hl' => ?_
  intro a ha
  refine ⟨_, tr, hl.later.1, hl'.later.1, ?_⟩
  have hresult : (Op.exec (.read fun env store => f env store.db) i (scheduler.now tr)).1 = .ok a := ha
  simp only [Op.exec] at hresult
  split at hresult
  · cases hresult
  · exact (Except.ok.inj hresult).symm

theorem inspect (f : Env → Store → α) : Keeps me (inspect f) (fun _ _ => True) history :=
  call (fun _ => Op.noConfusion) fun _ _ _ => trivial

/-- A recursion that has run out of fuel calls nothing more. -/
theorem stall {a : α} {Q : History → α → Prop} : Keeps me (stall a) Q history :=
  fun _ _ => ⟨fun _ => Op.noConfusion, fun _ hi => Bool.noConfusion hi⟩

/-- **A transaction may be issued with arguments that are proper whenever it is called**, and its
reply is that of a call of the history. -/
theorem issue {w : Write}
    (h : ∀ history', Around disciplined me history history' → Proper me history' w) :
    Keeps me (issue w) (fun history' r => ∃ e earlier, Around disciplined me history earlier ∧
      Around disciplined me (e :: earlier) history' ∧ e.caller = me ∧ e.op = Op.write w ∧
      r = (w.run (envOf e) (before e)).1) history := by
  refine Safe.perform (fun tr hl w' hw => ?_) fun tr i tr' hl hl' => ?_
  · obtain rfl : w = w' := Op.write.inj hw
    exact h tr hl
  · exact ⟨scheduler.event me (Op.write w) i tr, tr, hl, hl', rfl, rfl, rfl⟩

/-- The usual case: what makes the arguments proper is never taken back. -/
theorem issue_of_stable {w : Write} (hw : Stable fun history => Proper me history w)
    (h : Proper me history w) : Keeps me (AgentBeacon.issue w) (fun _ _ => True) history :=
  (issue fun _ hl => hw _ _ hl.later.1 h).mono fun _ _ _ _ => trivial

end Keeps

namespace KeepsOk

variable {ε : Type}

theorem pure {a : α} {Q : History → α → Prop}
    (h : ∀ history', Around disciplined me history history' → Q history' a) :
    KeepsOk me (pure a : ExceptT ε (Prog scheduler) α) Q history := by
  refine Keeps.pure (a := Except.ok (ε := ε) a)
    (Q := fun history r => ∀ a, r = .ok a → Q history a) fun history' hl b hb => ?_
  obtain rfl := Except.ok.inj hb
  exact h history' hl

/-- The end of a request whose answer is not looked at. -/
theorem done {a : α} : KeepsOk me (Pure.pure a : ExceptT ε (Prog scheduler) α) (fun _ _ => True)
    history := pure fun _ _ => trivial

theorem throw {e : ε} {Q : History → α → Prop} :
    KeepsOk me (throw e : ExceptT ε (Prog scheduler) α) Q history := by
  exact Keeps.pure (a := Except.error (α := α) e)
    (Q := fun history r => ∀ a, r = .ok a → Q history a) fun _ _ _ hb => by cases hb

theorem ofRequest {p : Request (Except SchedulerError α)} {Q : History → α → Prop}
    (h : Keeps me p (fun history r => ∀ a, r = .ok a → Q history a) history) :
    KeepsOk me (attempt p) Q history := h

theorem mono {p : ExceptT ε (Prog scheduler) α} {Q R : History → α → Prop}
    (h : KeepsOk me p Q history)
    (hQR : ∀ history' a, Later disciplined history history' → Q history' a → R history' a) :
    KeepsOk me p R history :=
  Safe.mono h fun history' _ hl hq a ha => hQR history' a hl (hq a ha)

theorem bind {p : ExceptT ε (Prog scheduler) α} {f : α → ExceptT ε (Prog scheduler) β}
    {Q : History → α → Prop} {R : History → β → Prop} (h : KeepsOk me p Q history)
    (hf : ∀ history' a, Later disciplined history history' → Q history' a →
      KeepsOk me (f a) R history') : KeepsOk me (p >>= f) R history := by
  show Keeps me (p.run >>= ExceptT.bindCont f) _ history
  refine Safe.bind h fun history' r hl hq => ?_
  cases r with
  | error e => exact Keeps.pure fun _ _ _ hb => by cases hb
  | ok a => exact hf history' a hl (hq a rfl)

theorem lift {p : Request α} {Q : History → α → Prop} (h : Keeps me p Q history) :
    KeepsOk me (ExceptT.lift p : ExceptT ε (Prog scheduler) α) Q history := by
  show Keeps me (p >>= fun a => .ret (Except.ok (ε := ε) a))
    (fun history r => ∀ a, r = .ok a → Q history a) history
  refine (Safe.map h).mono fun history' r _ hr b hb => ?_
  obtain ⟨a, rfl, hq⟩ := hr
  obtain rfl := Except.ok.inj hb
  exact hq

/-- A call whose answer is not looked at. -/
theorem ofRequest_any {p : Request (Except SchedulerError α)}
    {Q : History → Except SchedulerError α → Prop} (h : Keeps me p Q history) :
    KeepsOk me (attempt p) (fun _ _ => True) history :=
  Safe.mono h fun _ _ _ _ _ _ => trivial

theorem ite {c : Prop} [Decidable c] {p q : ExceptT ε (Prog scheduler) α} {Q : History → α → Prop}
    (hp : c → KeepsOk me p Q history) (hq : ¬c → KeepsOk me q Q history) :
    KeepsOk me (if c then p else q) Q history := by
  split
  · rename_i hc; exact hp hc
  · rename_i hc; exact hq hc

end KeepsOk

/-! ## What is proper stays proper -/

/-- Only a root's creation goes on something another request could take away. -/
theorem proper_stable (w : Write)
    (hw : ∀ executionId agentId cwd worktreePath baseCommitSha sandboxPolicy,
      w ≠ .createSession executionId agentId cwd worktreePath baseCommitSha sandboxPolicy) :
    Stable fun history => Proper me history w := by
  intro history history' hs h
  cases w with
  | createSession => exact absurd rfl (hw _ _ _ _ _ _)
  | insertLocked => exact h
  | createWithWidthGuard => exact ⟨h.1.mono hs, h.2.mono hs⟩
  | repairExecutionForTerminalRoot | escalate =>
      obtain ⟨s, hseen, hrest⟩ := h
      exact ⟨s, hseen.mono hs, hrest⟩
  | deleteSession => exact Delegated.mono h hs
  | setDesiredTerminate =>
      exact ⟨h.1.mono hs, h.2.1, fun hcascade => (h.2.2 hcascade).mono hs⟩
  | setDesiredStop | repairExecution | issueAssign | continueFrom =>
      exact ⟨h.1.mono hs, h.2⟩
  | sendMessage session args =>
      exact ⟨h.1.mono hs, fun marker hm => ⟨(h.2 marker hm).1.mono hs, (h.2 marker hm).2⟩⟩
  | detectCrash session decidedOn noticed =>
      exact ⟨h.1.mono hs, h.2.1.mono hs, h.2.2.1, fun hn => (h.2.2.2 hn).mono hs⟩
  | setDesiredRun | setExecutorState | terminateFailed | retryRecovery | repairRootOutcome
  | repairChildOutcome | repairDesired | repairCommand | issueFeedTurn | issueStopTurn
  | issueCancel | finalize | recover => exact Seen.mono h hs
  | dismiss => exact Known.mono h hs
  | resultTx executionId request held notify parent =>
      exact fun s hheld => ⟨(h s hheld).1.mono hs, (h s hheld).2⟩
  | createExecution => exact h
  | insertExecutionAgents | pushTask | delegate | clearWorktreePath | updateAgentSessionId | workerEvent
  | putAgent => trivial

/-- A transaction whose arguments are proper now, and whose reply nothing is made of. -/
theorem keeps_issue {w : Write}
    (hw : ∀ executionId agentId cwd worktreePath baseCommitSha sandboxPolicy,
      w ≠ .createSession executionId agentId cwd worktreePath baseCommitSha sandboxPolicy)
    (h : Proper me history w) :
    Keeps me (issue w) (fun _ _ => True) history :=
  Keeps.issue_of_stable (proper_stable w hw) h

/-! ## Reading -/

theorem keeps_getSession (id : SessionId) :
    Keeps me (getSession id) (fun history r => ∀ s, r = .ok s → Seen history s ∧ s.id = id)
      history := by
  refine Safe.bind (Keeps.query _) fun history' r hl hr => Keeps.pure fun history'' hl' s hs => ?_
  obtain ⟨e, he, hrow⟩ := hr _ (orNotFound_ok hs)
  exact ⟨⟨e, hl'.later.1.subset he, Db.mem_of_session? hrow.symm⟩, Db.id_of_session? hrow.symm⟩

theorem keeps_getExecution (id : ExecutionId) :
    Keeps me (getExecution id) (fun history r => ∀ x, r = .ok x → SeenExecution history x ∧ x.id = id)
      history := by
  refine Safe.bind (Keeps.query _) fun history' r hl hr => Keeps.pure fun history'' hl' x hx => ?_
  obtain ⟨e, he, hrow⟩ := hr _ (orNotFound_ok hx)
  exact ⟨⟨e, hl'.later.1.subset he, Db.mem_of_execution? hrow.symm⟩, Db.id_of_execution? hrow.symm⟩

theorem keeps_getAgent (id : AgentId) : Keeps me (getAgent id) (fun _ _ => True) history :=
  Safe.bind (Keeps.query _) fun _ _ _ _ => Keeps.pure fun _ _ => trivial

/-- Rows a query selects have been seen. -/
theorem keeps_select (f : Env → Db → List Session)
    (hf : ∀ env db, ∀ s ∈ f env db, s ∈ db.sessions.rows) :
    Keeps me (query f) (fun history r => ∀ l, r = .ok l → ∀ s ∈ l, Seen history s) history := by
  refine (Keeps.query f).mono fun history' r hl hr l hl' s hs => ?_
  obtain ⟨e, he, rfl⟩ := hr l hl'
  exact ⟨e, he, hf _ _ s hs⟩

theorem keeps_getChildren (id : SessionId) :
    Keeps me (getChildren id) (fun history r => ∀ l, r = .ok l → ∀ s ∈ l, Seen history s ∧
      s.parentSessionId = some id) history := by
  refine (Keeps.query _).mono fun history' r hl hr l hl' s hs => ?_
  obtain ⟨e, he, rfl⟩ := hr l hl'
  obtain ⟨hrow, hparent⟩ := List.mem_filter.mp hs
  exact ⟨⟨e, he, hrow⟩, of_decide_eq_true hparent⟩

theorem keeps_query (f : Env → Db → α) : Keeps me (query f) (fun _ _ => True) history :=
  (Keeps.query f).mono fun _ _ _ _ => trivial

theorem keeps_countPendingTurns (id : SessionId) :
    Keeps me (countPendingTurns id) (fun _ _ => True) history :=
  Safe.bind (keeps_query _) fun _ _ _ _ => Keeps.pure fun _ _ => trivial

/-! ## Transitions -/

variable [Grounded]

theorem keeps_parentForNotify (session : Session) (desired : Desired) (desiredBy : DesiredBy) :
    Keeps me (parentForNotify session desired desiredBy)
      (fun _ r => ∀ id ∈ r, session.parentSessionId = some id) history := by
  unfold parentForNotify
  split
  · rename_i parentId hparent
    split
    · refine Safe.bind (keeps_getSession parentId) fun _ parent _ _ => ?_
      refine Safe.bind (keeps_getExecution _) fun _ execution _ _ => ?_
      split
      · refine Keeps.pure fun _ _ id hid => ?_
        split at hid
        · exact hparent.trans hid
        · cases hid
      · exact Keeps.pure fun _ _ _ hid => by cases hid
    · exact Keeps.pure fun _ _ _ hid => by cases hid
  · exact Keeps.pure fun _ _ _ hid => by cases hid

/-- What an answer says of a termination: it has been announced; or the session has been found to terminate. -/
def TellsEnded (history : History) (id : SessionId) {α : Type} (r : Except Rejected α) : Prop :=
  ((∃ a, r = .ok a) → Announced history id) ∧
    (r = .error .ratchet → ∃ s, Seen history s ∧ s.id = id ∧ s.desired = .terminate)

theorem TellsEnded.mono {history history' : History} {id : SessionId} {r : Except Rejected α}
    (h : TellsEnded history id r) (hs : history <:+ history') : TellsEnded history' id r := by
  refine ⟨fun hok => (h.1 hok).mono hs, fun hratchet => ?_⟩
  obtain ⟨s, hseen, hrest⟩ := h.2 hratchet
  exact ⟨s, hseen.mono hs, hrest⟩

/-- Either way it has been found terminated. -/
theorem TellsEnded.foundEnded {history : History} {id : SessionId} {r : Except Rejected α}
    (h : TellsEnded history id r) (hr : (∃ a, r = .ok a) ∨ r = .error .ratchet) : FoundEnded history id := by
  rcases hr with hok | hratchet
  · exact (h.1 hok).1
  · obtain ⟨s, hseen, rfl, hended⟩ := h.2 hratchet
    exact hseen.foundEnded (.inr hended)

/-- A termination that is committed is announced. -/
theorem announced_of_done {e : Event scheduler} {earlier : History} (h : Trace disciplined (e :: earlier))
    {session : Session} (hseen : Seen earlier session)
    (hdone : (after e).Terminated session.id ∧
      (session.parentSessionId = none → (after e).Over session.executionId)) :
    Announced (e :: earlier) session.id := by
  have hreach := reachable_of_trace h
  obtain ⟨hterminated, hover⟩ := hdone
  have hlater := hseen.mono (List.suffix_cons e earlier)
  refine ⟨⟨e, List.mem_cons_self, .inr hterminated⟩, session, hlater, rfl, fun hroot => .inl ?_⟩
  obtain ⟨row, hrow, -⟩ := hterminated
  have hthere := hreach.hasExecutions row (Db.mem_of_session? hrow)
  rw [(hreach.identity hlater (Db.mem_of_session? hrow) (Db.id_of_session? hrow)).1] at hthere
  exact ⟨e, List.mem_cons_self, .inr ((hover hroot).hasEnded hthere)⟩

/-- `set_desired`; a cascade goes on what was found of the parent. -/
theorem keeps_setDesired {session : Session} (hseen : Seen history session) (desired : Desired)
    (desiredBy : DesiredBy)
    (hcascade : desired = .terminate → desiredBy = .systemCascade → BelowEnded history session.id) :
    Keeps me (setDesired session desired desiredBy)
      (fun history' r => desired = .terminate → TellsEnded history' session.id r) history := by
  unfold setDesired
  split
  · rename_i hended
    refine Keeps.pure fun _ hl _ => ⟨fun hok => ?_, fun _ => ⟨session, hseen.mono hl.later.1, rfl, hended⟩⟩
    obtain ⟨a, ha⟩ := hok
    cases ha
  · rename_i hlive
    split
    · rename_i hsame
      exact Keeps.pure fun _ _ h => absurd (hsame.trans h) hlive
    · refine Safe.bind (keeps_parentForNotify session desired desiredBy) fun _ parent hl hp => ?_
      cases desired with
      | terminate =>
          have hproper : Proper me _ (.setDesiredTerminate session desiredBy parent) :=
            ⟨hseen.mono hl.1, hp, fun h => (hcascade rfl h).mono hl.1⟩
          refine (Keeps.issue (w := .setDesiredTerminate session desiredBy parent) fun _ hl' =>
            proper_stable (.setDesiredTerminate session desiredBy parent) nofun _ _ hl'.later.1 hproper).mono ?_
          rintro history' r - ⟨e, earlier, hl₁, hl', -, hop, hr⟩ -
          have hreply := setDesiredTerminate_reply (envOf e) (before e) session desiredBy parent
          have hsession := hseen.mono (hl.1.trans hl₁.later.1)
          constructor
          · rintro ⟨a, ha⟩
            have hdone := hreply.1.done (hr.symm.trans ha)
            rw [← after_write hop] at hdone
            exact (announced_of_done (hl'.2.of_suffix hl'.later.1) hsession hdone).mono hl'.later.1
          · intro ha
            obtain ⟨row, hrow, hended⟩ := hreply.2 (hr.symm.trans ha)
            refine ⟨row, ⟨e, hl'.later.1.subset List.mem_cons_self, Db.mem_of_session? hrow⟩, ?_, hended⟩
            exact Db.id_of_session? hrow
      | stop =>
          exact (keeps_issue (w := .setDesiredStop session desiredBy parent) nofun ⟨hseen.mono hl.1, hp⟩).mono
            fun _ _ _ _ h => by cases h
      | run =>
          exact (keeps_issue (w := .setDesiredRun session desiredBy) nofun (hseen.mono hl.1)).mono
            fun _ _ _ _ h => by cases h

/-- What an action goes on, beyond the session's row. -/
def ActionProper (history : History) (id : SessionId) : Action → Prop
  | .sendMessage args => ∀ marker ∈ args.resolution,
      Known history marker.escalation ∧ marker.escalation.sessionId = id
  | .detectCrash decidedOn noticed => Seen history decidedOn ∧ id = decidedOn.id ∧
      (noticed = true → NoticedSince history decidedOn)
  | .setDesired desired desiredBy => desired = .terminate → desiredBy = .systemCascade → BelowEnded history id
  | _ => True

theorem ActionProper.mono {history history' : History} {id : SessionId} {action : Action}
    (h : ActionProper history id action) (hs : history <:+ history') :
    ActionProper history' id action := by
  cases action with
  | sendMessage args => exact fun marker hm => ⟨(h marker hm).1.mono hs, (h marker hm).2⟩
  | detectCrash decidedOn noticed => exact ⟨h.1.mono hs, h.2.1, fun hn => (h.2.2 hn).mono hs⟩
  | setDesired desired desiredBy => exact fun hd hc => (h hd hc).mono hs
  | _ => trivial

theorem keeps_lookup (executionId : ExecutionId) (id : SessionId) :
    Keeps me (lookup executionId id) (fun history r => ∀ s, r = .ok s →
      Seen history s ∧ s.id = id) history := by
  unfold lookup
  refine Safe.bind (keeps_getSession id) fun _ r _ hr => ?_
  cases r with
  | error e => exact Keeps.pure fun _ _ _ hs => by cases hs
  | ok session =>
      refine Keeps.pure fun _ hl s hs => ?_
      split at hs
      · obtain rfl := Except.ok.inj hs
        exact ⟨(hr session rfl).1.mono hl.later.1, (hr session rfl).2⟩
      · cases hs

/-- The same, with the one error there is. -/
theorem keeps_lookupOf (executionId : ExecutionId) (id : SessionId) :
    Keeps me (lookup executionId id) (fun history r => (∀ s, r = .ok s → Seen history s ∧ s.id = id) ∧
      ∀ e, r = .error e → e = .notFound) history := by
  unfold lookup
  refine Safe.bind (keeps_getSession id) fun _ r _ hr => ?_
  cases r with
  | error e =>
      refine Keeps.pure fun _ _ => ⟨fun s hs => (by cases hs), fun e' he' => ?_⟩
      exact (Except.error.inj he').symm
  | ok session =>
      refine Keeps.pure fun _ hl => ?_
      split
      · refine ⟨fun s hs => ?_, fun e he => by cases he⟩
        obtain rfl := Except.ok.inj hs
        exact ⟨(hr session rfl).1.mono hl.later.1, (hr session rfl).2⟩
      · refine ⟨fun s hs => (by cases hs), fun e he => ?_⟩
        exact (Except.error.inj he).symm

theorem keeps_act {session : Session} (hseen : Seen history session) {action : Action}
    (haction : ActionProper history session.id action) :
    Keeps me (act session action) (fun _ _ => True) history := by
  cases action with
  | setDesired desired desiredBy =>
      exact Safe.bind (keeps_setDesired hseen desired desiredBy haction) fun _ _ _ _ =>
        Keeps.pure fun _ _ => trivial
  | sendMessage args =>
      refine Safe.bind (Q := fun _ _ => True) ?_ fun _ _ _ _ => Keeps.pure fun _ _ => trivial
      refine Safe.bind (keeps_getExecution _) fun _ r hl _ => ?_
      cases r with
      | error e => exact Keeps.pure fun _ _ => trivial
      | ok execution => exact keeps_issue nofun ⟨hseen.mono hl.1, haction.mono hl.1⟩
  | delegate =>
      refine Safe.bind (keeps_getExecution _) fun _ r _ _ => ?_
      cases r with
      | error e => exact Keeps.pure fun _ _ => trivial
      | ok execution => exact Keeps.pure fun _ _ => trivial
  | setExecutorState state worker crashMeta =>
      refine Safe.ite (fun _ => Keeps.pure fun _ _ => trivial) fun _ => ?_
      exact Safe.bind (keeps_issue (w := .setExecutorState session state worker crashMeta) nofun hseen)
        fun _ _ _ _ => Keeps.pure fun _ _ => trivial
  | detectCrash decidedOn noticed =>
      exact Safe.bind (keeps_issue nofun ⟨hseen, haction⟩) fun _ _ _ _ => Keeps.pure fun _ _ => trivial
  | retryRecovery =>
      exact Safe.bind (keeps_issue nofun hseen) fun _ _ _ _ => Keeps.pure fun _ _ => trivial

theorem keeps_transition (executionId : ExecutionId) {id : SessionId} {action : Action}
    (haction : ActionProper history id action) :
    Keeps me (transition executionId id action) (fun _ _ => True) history := by
  unfold transition
  refine Safe.bind (keeps_lookup executionId id) fun _ r hl hr => ?_
  cases r with
  | error e => exact Keeps.pure fun _ _ => trivial
  | ok session =>
      obtain ⟨hseen, hid⟩ := hr session rfl
      exact keeps_act hseen (by rw [hid]; exact haction.mono hl.1)

/-- Unless it is a cascade, setting what a session is desired to do goes on nothing but its row. -/
theorem keeps_transitionTo (executionId : ExecutionId) (id : SessionId) (desired : Desired)
    (desiredBy : DesiredBy) (h : desiredBy ≠ .systemCascade) :
    Keeps me (transition executionId id (.setDesired desired desiredBy)) (fun _ _ => True) history :=
  keeps_transition executionId fun _ hcascade => absurd hcascade h

/-- The answer to a failed look-up tells nothing. -/
theorem TellsEnded.of_lookup {history' : History} {id : SessionId} {e : Rejected}
    (h : e = .notFound) : TellsEnded history' id (.error e : Except Rejected α) := by
  subst h
  constructor
  · rintro ⟨a, ha⟩
    cases ha
  · intro hr
    cases hr

theorem keeps_terminateSession (executionId : ExecutionId) (id : SessionId) (desiredBy : DesiredBy)
    (hcascade : desiredBy = .systemCascade → BelowEnded history id) :
    Keeps me (terminateSession executionId id desiredBy) (fun history' r => TellsEnded history' id r) history := by
  unfold terminateSession
  refine Safe.bind (keeps_lookupOf executionId id) fun _ r hl hr => ?_
  cases r with
  | error e => exact Keeps.pure fun _ _ => TellsEnded.of_lookup (hr.2 e rfl)
  | ok session =>
      obtain ⟨hseen, rfl⟩ := hr.1 session rfl
      refine (keeps_setDesired hseen _ _ fun _ h => (hcascade h).mono hl.1).mono ?_
      exact fun _ _ _ h => h rfl

/-- Terminating by a transition, with what the answer tells. -/
theorem keeps_terminate (executionId : ExecutionId) (id : SessionId) (desiredBy : DesiredBy)
    (hcascade : desiredBy = .systemCascade → BelowEnded history id) :
    Keeps me (transition executionId id (.setDesired .terminate desiredBy))
      (fun history' r => TellsEnded history' id r) history := by
  unfold transition
  refine Safe.bind (keeps_lookupOf executionId id) fun _ r hl hr => ?_
  cases r with
  | error e => exact Keeps.pure fun _ _ => TellsEnded.of_lookup (hr.2 e rfl)
  | ok session =>
      obtain ⟨hseen, rfl⟩ := hr.1 session rfl
      refine Safe.bind (keeps_setDesired hseen _ _ fun _ h => (hcascade h).mono hl.1) fun _ r _ hr => ?_
      refine Keeps.pure fun _ hl' => ?_
      have htells := (hr rfl).mono hl'.later.1
      cases r with
      | ok a => exact ⟨fun _ => htells.1 ⟨a, rfl⟩, fun h => by cases h⟩
      | error e =>
          refine ⟨fun hok => ?_, fun he => htells.2 (congrArg _ (Except.error.inj he))⟩
          obtain ⟨a, ha⟩ := hok
          cases ha

theorem keeps_terminateSessionFailed (executionId : ExecutionId) (id : SessionId)
    (desiredBy : DesiredBy) (requireCrashed : Bool) :
    Keeps me (terminateSessionFailed executionId id desiredBy requireCrashed)
      (fun history' r => r = .ok () → Announced history' id) history := by
  unfold terminateSessionFailed
  refine Safe.bind (keeps_lookup executionId id) fun _ r _ hr => ?_
  cases r with
  | error e => exact Keeps.pure fun _ _ h => by cases h
  | ok session =>
      obtain ⟨hseen, rfl⟩ := hr session rfl
      refine Safe.ite (fun _ => Keeps.pure fun _ _ h => by cases h) fun _ => ?_
      refine (Keeps.issue fun _ hl' => proper_stable (.terminateFailed session desiredBy requireCrashed) nofun _ _
        hl'.later.1 hseen).mono ?_
      rintro history' r - ⟨e, earlier, hl₁, hl', -, hop, hr⟩ hok
      have hreply := terminateFailed_reply (envOf e) (before e) session desiredBy requireCrashed
      have hdone := hreply.done (hr.symm.trans hok)
      rw [← after_write hop] at hdone
      exact (announced_of_done (hl'.2.of_suffix hl'.later.1) (hseen.mono hl₁.later.1) hdone).mono hl'.later.1

/-! ## Notices -/

theorem keeps_notice (session : Session) (text : String) :
    Keeps me (notice session (noticeEvent text)) (fun _ _ => True) history :=
  Safe.bind (keeps_issue nofun ⟨fun _ => ⟨text, rfl⟩, nofun⟩) fun _ _ _ _ => Keeps.pure fun _ _ => trivial

/-- A loss notice that was written was written after the row at hand had been read. -/
theorem keeps_lossNotice {session : Session} (hseen : Seen history session) :
    Keeps me (notice session lossNotice)
      (fun history r => r = true → NoticedSince history session) history := by
  refine Safe.bind (Keeps.issue fun _ _ => ⟨fun _ => ⟨_, rfl⟩, nofun⟩) fun history' r hl hr => ?_
  obtain ⟨e, earlier, hearlier, hsuffix, -, hop, hreply⟩ := hr
  refine Keeps.pure fun history'' hl' hok => ?_
  refine ⟨e, earlier, hsuffix.later.1.trans hl'.later.1, hseen.mono hearlier.later.1, hop, ?_⟩
  cases r with
  | error err => cases hok
  | ok n => exact ⟨n, hreply.symm⟩

theorem keeps_loseCommand {session : Session} (hseen : Seen history session) :
    Keeps me (loseCommand session) (fun _ _ => True) history := by
  have hrest : ∀ history' noticed, Later disciplined history history' →
      (noticed = true → NoticedSince history' session) →
      Keeps me (do
        let _ ← transition session.executionId session.id (.detectCrash session noticed)
        return ()) (fun _ _ => True) history' := fun history' noticed hl hn =>
    Safe.bind (keeps_transition _ ⟨hseen.mono hl.1, rfl, hn⟩) fun _ _ _ _ =>
      Keeps.pure fun _ _ => trivial
  refine Safe.ite (fun _ => ?_) fun _ => ?_
  · exact Safe.bind (keeps_lossNotice hseen) fun _ noticed hl hn => hrest _ noticed hl hn
  · exact Safe.bind (p := .ret false) (Q := fun _ r => r = false) (Keeps.pure fun _ _ => rfl)
      fun _ noticed hl hn => hrest _ noticed hl fun h => by rw [hn] at h; cases h

/-! ## Cascades -/

theorem keeps_terminateChildren {session : Session} (hended : Announced history session.id) :
    KeepsOk me (terminateChildren session) (fun _ _ => True) history := by
  refine .bind (.ofRequest (keeps_getChildren session.id)) fun _ children hl hchildren => .lift ?_
  refine Safe.forM fun child hchild history' hl' => Safe.ite (fun _ => ?_) fun _ => Keeps.pure fun _ _ => trivial
  have hbelow : BelowEnded history' child.id := by
    obtain ⟨hseen, hparent⟩ := hchildren child hchild
    exact ⟨child, session.id, hseen.mono hl'.1, rfl, hparent, hended.mono (hl.1.trans hl'.1)⟩
  exact Safe.bind (keeps_terminate _ _ _ fun _ => hbelow) fun _ _ _ _ => Keeps.pure fun _ _ => trivial

theorem keeps_cascadeStep {session : Session}
    (hended : session.desired = .terminate → Announced history session.id) :
    KeepsOk me (cascadeStep session) (fun _ _ => True) history :=
  Safe.ite (fun hterminate => keeps_terminateChildren (hended hterminate)) fun _ => KeepsOk.done

theorem keeps_settled (child : Session) (e : Rejected) :
    Keeps me (settled child e) (fun history' b => b = true → FoundEnded history' child.id) history := by
  unfold settled
  split
  · refine Safe.bind (keeps_getSession _) fun _ r _ hr => ?_
    cases r with
    | error e => exact Keeps.pure fun _ _ h => by cases h
    | ok c =>
        refine Keeps.pure fun _ hl h => ?_
        obtain ⟨hseen, hid⟩ := hr c rfl
        rw [← hid]
        exact (hseen.mono hl.later.1).foundEnded (.inr (of_decide_eq_true h))
  · exact Keeps.pure fun _ _ h => by cases h

/-- A child that has been dealt with has been found terminated. -/
theorem keeps_terminateChild {session child : Session} (hchild : Seen history child)
    (hparent : child.parentSessionId = some session.id) (hended : Announced history session.id) :
    KeepsOk me (terminateChild session child) (fun history' _ => Announced history' child.id) history := by
  have hbelow : BelowEnded history child.id := ⟨child, session.id, hchild, rfl, hparent, hended⟩
  refine KeepsOk.ite (fun _ => ?_) fun hnot => KeepsOk.pure fun _ hl => ?_
  · refine KeepsOk.bind (.lift (keeps_terminate _ _ _ fun _ => hbelow)) fun _ r hl hr => ?_
    cases r with
    | ok a => exact KeepsOk.pure fun _ hl => (hr.1 ⟨a, rfl⟩).mono hl.later.1
    | error e =>
        refine .bind (.lift (keeps_settled child e)) fun _ b hl' hb => KeepsOk.ite (fun hsettled => ?_) fun _ => ?_
        · refine KeepsOk.pure fun _ hl'' => FoundEnded.announced ((hb hsettled).mono hl''.later.1) ?_ hparent
          exact hchild.mono (hl.1.trans (hl'.1.trans hl''.later.1))
        · exact KeepsOk.throw
  · refine FoundEnded.announced ((hchild.mono hl.later.1).foundEnded ?_) (hchild.mono hl.later.1) hparent
    by_cases houtcome : child.outcome.isNone = true
    · exact .inr (by_contra fun hd => hnot ⟨houtcome, hd⟩)
    · exact .inl (by cases hout : child.outcome <;> simp_all)

theorem KeepsOk.forM {l : List α} {f : α → Handler Unit}
    (h : ∀ a ∈ l, ∀ history', Later disciplined history history' →
      KeepsOk me (f a) (fun _ _ => True) history') :
    KeepsOk me (l.forM f) (fun _ _ => True) history := by
  induction l generalizing history with
  | nil => exact .done
  | cons a l ih =>
      by_cases ht : Trace disciplined history
      · refine .bind (h a (by simp) history (Later.refl ht)) fun history' _ hl _ => ?_
        exact ih fun b hb history'' hl' => h b (by simp [hb]) history'' (hl.trans hl')
      · exact Safe.of_not_trace ht

theorem keeps_cascadeChildren (fuel : Nat) {session : Session} (hended : Announced history session.id) :
    KeepsOk me (cascadeChildren fuel session) (fun _ _ => True) history := by
  induction fuel generalizing history session with
  | zero => exact .lift Keeps.stall
  | succ fuel ih =>
      refine .bind (.ofRequest (keeps_getChildren session.id)) fun _ children hl hchildren => .forM ?_
      intro child hchild _ hl'
      obtain ⟨hseen, hparent⟩ := hchildren child hchild
      refine .bind (keeps_terminateChild (hseen.mono hl'.1) hparent (hended.mono (hl.1.trans hl'.1)))
        fun _ _ _ hfound => ?_
      refine .bind (.ofRequest (keeps_getSession _)) fun _ fresh hl'' hfresh => ih ?_
      rw [hfresh.2]
      exact hfound.mono hl''.1

theorem keeps_acceptRatchet (message : String) (r : Except Rejected Unit) :
    KeepsOk me (acceptRatchet message r) (fun _ _ => (∃ a, r = .ok a) ∨ r = .error .ratchet) history := by
  unfold acceptRatchet
  split
  · exact .pure fun _ _ => .inl ⟨(), rfl⟩
  · exact .pure fun _ _ => .inr rfl
  · exact .throw

/-- The row of a session read, its cascade started. -/
theorem keeps_cascadeFresh (fuel : Nat) {id : SessionId} (hended : Announced history id) :
    KeepsOk me (do
      let fresh ← attempt (getSession id)
      cascadeChildren fuel fresh) (fun _ _ => True) history := by
  refine .bind (.ofRequest (keeps_getSession id)) fun _ fresh hl hfresh => keeps_cascadeChildren fuel ?_
  rw [hfresh.2]
  exact hended.mono hl.1

/-- The session has been read running, so who finds it to terminate comes after its end. -/
theorem keeps_terminateAndCascade (fuel : Nat) {session : Session} (hseen : Seen history session)
    (hlive : session.desired ≠ .terminate) {desiredBy : DesiredBy} (h : desiredBy ≠ .systemCascade) :
    KeepsOk me (terminateAndCascade fuel session desiredBy) (fun _ _ => True) history := by
  refine .bind (.lift (keeps_terminateSession _ _ _ fun hcascade => absurd hcascade h)) fun _ r hl htells => ?_
  refine .bind (keeps_acceptRatchet _ r) fun _ _ hl' hr => keeps_cascadeFresh fuel ?_
  rcases hr with hok | hratchet
  · exact (htells.1 hok).mono hl'.1
  · obtain ⟨s, hs, hid, hended⟩ := (htells.mono hl'.1).2 hratchet
    rw [← hid]
    exact announced_of_terminating hl'.2 hs (hseen.mono (hl.1.trans hl'.1)) hid.symm hended hlive

/-! ## `reconcile` -/

theorem keeps_isAgentDeleted (id : AgentId) :
    Keeps me (isAgentDeleted id) (fun _ _ => True) history := by
  refine Safe.bind (keeps_getAgent id) fun _ r _ _ => ?_
  split <;> exact Keeps.pure fun _ _ => trivial

theorem keeps_recoverable (session : Session) (pendingTurns : Nat) :
    KeepsOk me (recoverable session pendingTurns) (fun _ _ => True) history := by
  refine KeepsOk.ite (fun _ => KeepsOk.done) fun _ => ?_
  refine KeepsOk.bind (.ofRequest_any (keeps_getExecution _)) fun _ execution _ _ => ?_
  refine KeepsOk.ite (fun _ => KeepsOk.done) fun _ => ?_
  refine KeepsOk.bind (.ofRequest_any (keeps_getAgent _)) fun _ agent _ _ => ?_
  refine KeepsOk.ite (fun _ => KeepsOk.done) fun _ => ?_
  exact KeepsOk.ite (fun _ => KeepsOk.done) fun _ => KeepsOk.done

theorem keeps_reconcileCommand {session : Session} (hseen : Seen history session)
    (commandOk : Bool) :
    KeepsOk me (reconcileCommand session commandOk) (fun _ _ => True) history := by
  refine KeepsOk.ite (fun _ => ?_) fun _ => ?_
  · exact KeepsOk.ofRequest_any (keeps_issue (w := .repairCommand session) nofun hseen)
  refine KeepsOk.bind (.lift (Keeps.inspect _)) fun _ now hl _ => KeepsOk.ite (fun _ => ?_) fun _ => ?_
  · exact KeepsOk.bind (.lift (keeps_loseCommand (hseen.mono hl.1))) fun _ _ _ _ =>
      .done
  refine KeepsOk.ite (fun _ => ?_) fun _ => KeepsOk.done
  split
  · exact KeepsOk.ofRequest_any (keeps_issue (w := .issueStopTurn session) nofun (hseen.mono hl.1))
  · exact KeepsOk.ofRequest_any (keeps_issue (w := .issueCancel session) nofun (hseen.mono hl.1))
  · exact KeepsOk.done

theorem keeps_reconcileCrashed (fuel : Nat) {session : Session} (hseen : Seen history session)
    (hlive : session.desired ≠ .terminate) (pendingTurns : Nat) :
    KeepsOk me (reconcileCrashed fuel session pendingTurns) (fun _ _ => True) history := by
  refine KeepsOk.bind (.lift (keeps_isAgentDeleted _)) fun _ deleted hl _ => KeepsOk.ite (fun _ => ?_)
    fun _ => ?_
  · exact KeepsOk.bind (keeps_terminateAndCascade fuel (hseen.mono hl.1) hlive (by simp)) fun _ _ _ _ =>
      .done
  refine KeepsOk.bind (keeps_recoverable session _) fun _ recoverable _ _ => KeepsOk.ite (fun _ => ?_)
    fun _ => ?_
  · have hretry : ActionProper history session.id .retryRecovery := by trivial
    refine KeepsOk.bind (.lift (keeps_transition _ hretry)) fun _ r _ _ => ?_
    cases r with
    | ok _ => exact .done
    | error e => exact .throw
  refine KeepsOk.bind (.lift (keeps_terminateSessionFailed _ _ _ _)) fun _ r _ hr => ?_
  split
  · exact .done
  · exact .throw
  · refine .bind (.lift (keeps_notice session _)) fun _ _ hl _ => ?_
    refine .bind (.ofRequest (keeps_getSession _)) fun _ fresh hl' hfresh => ?_
    refine .bind (keeps_cascadeChildren fuel ?_) fun _ _ _ _ => .done
    rw [hfresh.2]
    exact (hr rfl).mono (hl.1.trans hl'.1)

theorem keeps_finalized {session : Session} (hseen : Seen history session) :
    KeepsOk me (finalized session) (fun _ _ => True) history :=
  .bind (.ofRequest_any (keeps_issue (w := .finalize session) nofun hseen)) fun _ _ _ _ => .done

/-- Who reconciles without a worker must not issue commands, or hold the row of a crashed session:
an assignment needs a worker. -/
def CanAssign (session : Session) (commandOk : Bool) (worker : Option WorkerId) : Prop :=
  commandOk = true → worker.isSome = true ∨ session.executorState = .crashed

theorem keeps_reconcileState (fuel : Nat) {session : Session} (hseen : Seen history session)
    (pendingTurns : Nat) (execution : Execution) {commandOk : Bool} {worker : Option WorkerId}
    (hassign : CanAssign session commandOk worker) :
    KeepsOk me (reconcileState fuel session pendingTurns execution commandOk worker)
      (fun _ _ => True) history := by
  unfold reconcileState
  dsimp only
  split
  · rename_i hdesired hstate
    refine .bind (.lift (keeps_isAgentDeleted _)) fun _ deleted hl _ => KeepsOk.ite (fun _ => ?_)
      fun _ => KeepsOk.ite (fun hc => ?_) fun _ => KeepsOk.done
    · exact KeepsOk.bind (keeps_terminateAndCascade fuel (hseen.mono hl.1) (by simp [hdesired]) (by simp))
        fun _ _ _ _ => .done
    · refine KeepsOk.ofRequest_any (keeps_issue (w := .issueAssign session _ worker) nofun
        ⟨hseen.mono hl.1, ?_⟩)
      rcases hassign hc.2.1 with hworker | hcrashed
      · exact hworker
      · rw [hstate] at hcrashed; cases hcrashed
  · exact .ite (fun _ => .ofRequest_any (keeps_issue (w := .issueFeedTurn session) nofun hseen)) fun _ => .done
  · exact .ite (fun _ => .ofRequest_any (keeps_issue (w := .issueFeedTurn session) nofun hseen)) fun _ => .done
  · rename_i hdesired hstate
    exact keeps_reconcileCrashed fuel hseen (by simp [hdesired]) pendingTurns
  · exact .ite (fun _ => .ofRequest_any (keeps_issue (w := .issueStopTurn session) nofun hseen)) fun _ => .done
  · exact KeepsOk.done
  · exact .ite (fun _ => .ofRequest_any (keeps_issue (w := .issueCancel session) nofun hseen)) fun _ => .done
  · refine KeepsOk.ite (fun _ => KeepsOk.ite (fun _ => ?_) fun _ => KeepsOk.done)
      fun _ => keeps_finalized hseen
    exact KeepsOk.ofRequest_any (keeps_issue (w := .issueCancel session) nofun hseen)
  · exact keeps_finalized hseen
  · exact keeps_finalized hseen

/-- The repairs come first: where the cascade is reached, a root that is to terminate has its outcome, and its
execution has been read ended. -/
theorem keeps_reconcile (fuel : Nat) {session : Session} (hseen : Seen history session)
    (pendingTurns : Nat) {execution : Execution}
    (hexecution : SeenExecution history execution ∧ execution.id = session.executionId)
    {commandOk : Bool} {worker : Option WorkerId}
    (hassign : CanAssign session commandOk worker) :
    KeepsOk me (reconcile fuel session pendingTurns execution commandOk worker)
      (fun _ _ => True) history := by
  refine KeepsOk.ite (fun _ => KeepsOk.ite (fun _ => ?_) fun _ => ?_) fun hsettled => KeepsOk.ite (fun _ => ?_)
    fun _ => KeepsOk.ite (fun hroot => ?_) fun hagrees => ?_
  · exact KeepsOk.ofRequest_any (keeps_issue (w := .repairRootOutcome session _) nofun hseen)
  · exact KeepsOk.ofRequest_any (keeps_issue (w := .repairChildOutcome session) nofun hseen)
  · exact KeepsOk.ofRequest_any (keeps_issue (w := .repairDesired session) nofun hseen)
  · exact KeepsOk.ofRequest_any (keeps_issue (w := .repairExecution session) nofun
      ⟨hseen, by simpa using hroot.1⟩)
  · have hended : session.desired = .terminate → Announced history session.id := by
      intro hterminate
      refine ⟨hseen.foundEnded (.inr hterminate), session, hseen, rfl, fun hroot => .inl ?_⟩
      have houtcome : session.outcome.isSome = true := by
        cases hout : session.outcome with
        | none => exact absurd ⟨hterminate, by rw [hout]; rfl⟩ hsettled
        | some o => rfl
      have hexec : execution.outcome.isSome = true := by
        cases hout : execution.outcome with
        | none => exact absurd ⟨by rw [hroot]; rfl, houtcome, by rw [hout]; rfl⟩ hagrees
        | some o => rfl
      rw [← hexecution.2]
      exact hexecution.1.foundEnded hexec
    refine KeepsOk.bind (keeps_cascadeStep hended) fun _ _ hl _ => KeepsOk.ite (fun _ => ?_) fun _ => ?_
    · exact keeps_reconcileCommand (hseen.mono hl.1) commandOk
    · exact keeps_reconcileState fuel (hseen.mono hl.1) pendingTurns execution hassign

/-! ## Authentication and messages -/

/-- What `authenticate` has read of the depth of its session. -/
def ReadDepth (history : History) (auth : McpSession) : Prop :=
  ∃ e earlier, (e :: earlier) <:+ history ∧
    (∃ s, Seen earlier s ∧ s.id = auth.sessionId ∧ s.executionId = auth.executionId) ∧
    (∃ x, SeenExecution earlier x ∧ x.id = auth.executionId ∧ x.maxDepth = auth.maxDepth) ∧
    auth.depth = (before e).computeDepth auth.sessionId auth.executionId

/-- The guard of a delegation passes on what was read. -/
theorem ReadDepth.depthOf {history : History} {auth : McpSession} (h : ReadDepth history auth)
    (hguard : ¬(auth.role = .leaf ∨ auth.maxDepth ≤ auth.depth)) :
    DepthOf history auth.executionId auth.sessionId := by
  obtain ⟨e, earlier, hs, hseen, ⟨x, hx, hid, hmax⟩, hdepth⟩ := h
  refine ⟨e, earlier, hs, hseen, x, hx, hid, ?_⟩
  have hless : ¬ auth.maxDepth ≤ auth.depth := fun hle => hguard (.inr hle)
  rw [← hdepth, hmax]
  omega

/-- The session behind a bearer token and its execution have been seen; a root lead is a root. -/
theorem keeps_authenticate (token : String) :
    KeepsOk me (authenticate token) (fun history auth =>
      WidthOf history auth.executionId auth.sessionId auth.maxWidth ∧ ReadDepth history auth ∧
        ∃ s, Seen history s ∧ s.id = auth.sessionId ∧ s.executionId = auth.executionId ∧
          (auth.role = .rootLead → s.parentSessionId = none)) history := by
  refine KeepsOk.bind (.ofRequest (keeps_getSession token)) fun _ session hl hs => KeepsOk.ite
    (fun _ => KeepsOk.throw) fun _ => ?_
  refine KeepsOk.bind (.ofRequest (keeps_getExecution _)) fun read execution hl' hx => ?_
  refine KeepsOk.bind (.ofRequest (Keeps.query_at _)) fun _ depth hl'' hdepth => ?_
  refine KeepsOk.pure fun _ hl₃ => ?_
  have hseen := hs.1.mono (hl'.1.trans (hl''.1.trans hl₃.later.1))
  refine ⟨⟨⟨session, hseen, rfl, rfl⟩, execution, hx.1.mono (hl''.1.trans hl₃.later.1), hx.2, rfl⟩, ?_,
    session, hseen, rfl, rfl, fun hrole => ?_⟩
  · obtain ⟨e, earlier, hread, he, hasked⟩ := hdepth
    exact ⟨e, earlier, he.trans hl₃.later.1, ⟨session, hs.1.mono (hl'.1.trans hread), rfl, rfl⟩,
      ⟨execution, hx.1.mono hread, hx.2, rfl⟩, hasked⟩
  · by_contra hchild
    have hno : session.parentSessionId.isNone = false := by
      cases h : session.parentSessionId with
      | none => exact absurd h hchild
      | some p => rfl
    simp only [hno, Bool.false_eq_true, if_false] at hrole
    split at hrole <;> cases hrole

theorem keeps_isAgentSessionBearer (bearer : Option String) :
    KeepsOk me (isAgentSessionBearer bearer) (fun _ _ => True) history := by
  unfold isAgentSessionBearer
  split
  · exact .done
  · refine .bind (.lift (keeps_getSession _)) fun _ r _ _ => ?_
    split
    · exact .done
    · exact .done
    · exact .throw

theorem keeps_getEscalation (eventId : Int) :
    Keeps me (getEscalation eventId) (fun history r => ∀ o, r = .ok o →
      ∀ escalation ∈ o, Known history escalation) history := by
  refine (Keeps.query _).mono fun history' r _ hr o ho escalation hesc => ?_
  obtain ⟨e, he, rfl⟩ := hr o ho
  obtain ⟨row, hrow, hasEsc⟩ := Option.bind_eq_some_iff.mp hesc
  exact ⟨e, he, row, List.mem_of_find?_eq_some hrow, hasEsc⟩

theorem keeps_resolutionMarker (id : SessionId) (parts : List Json) (bearer : Option String) :
    KeepsOk me (resolutionMarker id parts bearer) (fun history o => ∀ marker ∈ o,
      Known history marker.escalation ∧ marker.escalation.sessionId = id) history := by
  unfold resolutionMarker
  split
  · exact .pure fun _ _ _ h => by cases h
  · exact .throw
  · exact .throw
  · exact .throw
  · exact .throw
  · refine KeepsOk.ite (fun _ => KeepsOk.throw) fun _ => ?_
    refine KeepsOk.bind (.ofRequest (keeps_getEscalation _)) fun _ o hl ho => ?_
    cases o with
    | none => exact .throw
    | some escalation =>
        refine KeepsOk.ite (fun _ => KeepsOk.throw) fun hsession => ?_
        refine KeepsOk.bind (keeps_isAgentSessionBearer bearer) fun _ b hl' _ => KeepsOk.ite
          (fun _ => KeepsOk.throw) fun _ => KeepsOk.pure fun _ hl'' marker hm => ?_
        obtain rfl := Option.some.inj hm
        exact ⟨(ho escalation rfl).mono (hl'.1.trans hl''.later.1), by simpa using hsession⟩

theorem keeps_postMessage (id : SessionId) (parts : List Json) (bearer : Option String) :
    KeepsOk me (postMessage id parts bearer) (fun _ _ => True) history := by
  refine KeepsOk.ite (fun _ => KeepsOk.throw) fun _ => KeepsOk.ite (fun _ => KeepsOk.throw) fun _ => ?_
  refine KeepsOk.bind (keeps_resolutionMarker id parts bearer) fun _ resolution hl hr => ?_
  refine KeepsOk.bind (.ofRequest (keeps_getSession id)) fun _ session hl' hs => ?_
  refine KeepsOk.bind (.lift (keeps_transition _ ?_)) fun _ r _ _ => ?_
  · intro marker hm
    exact ⟨(hr marker hm).1.mono hl'.1, (hr marker hm).2.trans hs.2.symm⟩
  · cases r with
    | ok eventId => exact .done
    | error e => exact .throw

theorem keeps_deliverMessage (session : Session) (parts : List Json) (sender : SenderInfo) :
    KeepsOk me (deliverMessage session parts sender) (fun _ _ => True) history := by
  refine KeepsOk.bind (.lift (keeps_transition _ ?_)) fun _ r _ _ => ?_
  · intro marker hm; cases hm
  · split
    · exact .done
    · exact .throw
    · exact .throw

theorem keeps_sendLateralMessage (token recipient : String) (parts : List Json) :
    KeepsOk me (sendLateralMessage token recipient parts) (fun _ _ => True) history := by
  refine KeepsOk.bind (keeps_authenticate token) fun _ auth _ _ => KeepsOk.ite (fun _ => KeepsOk.throw)
    fun _ => KeepsOk.ite (fun _ => KeepsOk.throw) fun _ => KeepsOk.ite (fun _ => KeepsOk.throw) fun _ => ?_
  refine KeepsOk.bind (.ofRequest_any (keeps_query _)) fun _ sessions _ _ => ?_
  dsimp only
  split
  · exact .throw
  · split
    · exact .throw
    · exact .bind (.ofRequest (keeps_getSession _)) fun _ session _ _ =>
        keeps_deliverMessage session _ _
    · exact .throw

/-! ## Stopping and terminating -/

theorem keeps_stopTurn (id : SessionId) : KeepsOk me (stopTurn id) (fun _ _ => True) history := by
  refine KeepsOk.bind (.ofRequest (keeps_getSession id)) fun _ session _ _ => ?_
  refine KeepsOk.bind (.lift (keeps_transitionTo _ _ _ _ (by simp))) fun _ r _ _ => ?_
  split
  · exact .done
  · exact .throw
  · exact .throw

/-- The repair is called for the root it was decided for, and after it the execution has ended, unless it was
overlooked, or the root is no longer to terminate. -/
theorem keeps_repairExecutionForTerminalRoot {root : Session} (hseen : Seen history root)
    (hroot : root.parentSessionId = none) (hended : root.desired = .terminate) :
    KeepsOk me (repairExecutionForTerminalRoot root.id) (fun history' _ => Announced history' root.id) history := by
  refine KeepsOk.bind (.ofRequest (keeps_getSession _)) fun _ session hl hs => ?_
  have hsame := (reachable_of_trace hl.2).seen_identity (hseen.mono hl.1) hs.1 hs.2
  have hproper : Proper me _ (.repairExecutionForTerminalRoot root.id session.executionId) :=
    ⟨root, hseen.mono hl.1, rfl, hsame.1.symm, hroot⟩
  refine .ofRequest ((Keeps.issue fun _ hl' => proper_stable
    (.repairExecutionForTerminalRoot root.id session.executionId) nofun _ _ hl'.later.1 hproper).mono ?_)
  rintro history' r hl' ⟨e, earlier, hl₁, hl₂, -, hop, hr⟩ a ha
  have hsuffix : (e :: earlier) <:+ history' := hl₂.later.1
  have hmem : e ∈ history' := hsuffix.subset List.mem_cons_self
  have hreach := reachable_of_trace hl'.2
  have hlater := hseen.mono (hl.1.trans hl'.1)
  obtain ⟨row, hrow, hfound⟩ := repairExecutionForTerminalRoot_reply (envOf e) (before e) root.id
    session.executionId (hr.symm.trans ha)
  have hrowSeen : Seen history' row := ⟨e, hmem, Db.mem_of_session? hrow⟩
  have hid := Db.id_of_session? hrow
  by_cases hterminate : row.desired = .terminate
  · refine ⟨hlater.foundEnded (.inr hended), root, hlater, rfl, fun _ => ?_⟩
    cases hopen : (before e).hasEnded root.executionId with
    | true => exact .inl ⟨e, hmem, .inl hopen⟩
    | false =>
        rcases hfound with hlive | hnone | hclosed
        · exact absurd hterminate hlive
        · refine .inr ⟨e, hmem, hopen, .inl ⟨root.id, ?_, row, hrow, hterminate, hnone⟩⟩
          rw [← hsame.1]
          exact hop
        · refine .inl ⟨e, hmem, .inr ?_⟩
          rw [← after_write hop, hsame.1] at hclosed
          exact hclosed
  · exact announced_of_terminating hl'.2 hlater hrowSeen hid hended hterminate

/-- A root that was found to terminate already is repaired for; a child needs no repair. -/
theorem keeps_terminateTree (fuel : Nat) (executionId : ExecutionId) {session : Session}
    (hseen : Seen history session) {repairs : Bool}
    (hroot : repairs = true ↔ session.parentSessionId = none) :
    KeepsOk me (terminateTree fuel executionId session.id repairs) (fun _ _ => True) history := by
  refine KeepsOk.bind (.lift (keeps_terminateSession _ _ _ (by simp))) fun _ r hl htells => ?_
  split
  · obtain ⟨s, hs, hid, hended⟩ := htells.2 rfl
    have hsame := (reachable_of_trace hl.2).seen_identity (hseen.mono hl.1) hs hid
    rw [← hid]
    refine KeepsOk.ite (fun hrepairs => KeepsOk.bind
        (keeps_repairExecutionForTerminalRoot hs (hsame.2.1.trans (hroot.mp hrepairs)) hended)
          fun _ _ _ hannounced => keeps_cascadeFresh fuel hannounced) fun hchild => ?_
    cases hparent : s.parentSessionId with
    | none => exact absurd (hroot.mpr (hsame.2.1.symm.trans hparent)) hchild
    | some parent => exact keeps_cascadeFresh fuel ((hs.foundEnded (.inr hended)).announced hs hparent)
  · exact .throw
  · exact keeps_cascadeFresh fuel (htells.1 ⟨(), rfl⟩)

theorem keeps_terminateSessionRoute (fuel : Nat) (id : SessionId) :
    KeepsOk me (terminateSessionRoute fuel id) (fun _ _ => True) history := by
  refine KeepsOk.bind (.ofRequest (keeps_getSession id)) fun _ session _ hs => ?_
  exact keeps_terminateTree fuel _ hs.1 (by simp)

theorem keeps_terminateExecution (fuel : Nat) (id : ExecutionId) :
    KeepsOk me (terminateExecution fuel id) (fun _ _ => True) history := by
  refine KeepsOk.bind (.ofRequest_any (keeps_getExecution _)) fun _ exec _ _ => ?_
  refine KeepsOk.ite (fun _ => KeepsOk.done) fun _ => ?_
  refine KeepsOk.bind (.ofRequest (keeps_select (fun _ db => db.sessionsOf id)
    fun _ _ _ hs => List.mem_of_mem_filter hs)) fun _ sessions _ hsessions => ?_
  split
  · exact .throw
  · rename_i root hfind
    have hparent : root.parentSessionId = none := by simpa using List.find?_some hfind
    exact keeps_terminateTree fuel id (hsessions root (List.mem_of_find?_eq_some hfind)) (by simp [hparent])

theorem keeps_release (fuel : Nat) (token : String) (targetId : SessionId) :
    KeepsOk me (release fuel token targetId) (fun _ _ => True) history := by
  refine KeepsOk.bind (keeps_authenticate token) fun _ auth _ _ => KeepsOk.ite (fun _ => KeepsOk.throw)
    fun _ => ?_
  refine KeepsOk.bind (.ofRequest (keeps_getSession targetId)) fun _ target _ htarget => KeepsOk.ite
    (fun _ => KeepsOk.throw) fun _ => KeepsOk.ite (fun _ => KeepsOk.throw) fun hparent => ?_
  refine KeepsOk.bind (.lift (keeps_terminate _ _ _ (by simp))) fun _ r hl₀ htells => ?_
  split
  case h_3 => exact .throw
  all_goals
    have hfound := htells.foundEnded (by simp)
    rw [← htarget.2] at hfound
    have hended := hfound.announced (htarget.1.mono hl₀.1) (not_not.mp hparent)
    rw [htarget.2] at hended
    refine KeepsOk.bind (.lift (keeps_getSession _)) fun _ r hl hr => ?_
    cases r with
    | error e => exact .done
    | ok fresh =>
        refine .bind (.lift (keeps_cascadeChildren fuel ?_)) fun _ _ _ _ => .done
        rw [(hr fresh rfl).2]
        exact hended.mono hl.1

end Requests

end AgentBeacon
