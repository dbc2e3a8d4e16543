import AgentBeacon.System.Requests

/-!
# `System.Serving` — every route keeps the discipline, continued

The creation of sessions, the recovery routes, the loops and the sync of a worker, and with them
`serve` itself. `SchedulerRun.disciplined` is what the rest of the development uses.
-/

namespace AgentBeacon
open Relational Transaction Transition Interleave Resolution

/-! ## What is answered -/

/-- What a committed `create_execution` found: no execution under the new id. -/
theorem createExecution_ok {env : Env} {new : Creation.NewExecution} {db : Db} {id : ExecutionId}
    (h : ((Write.createExecution new).run env db).1 = (.ok id : Except SchedulerError ExecutionId)) :
    id = env.uuid ∧ db.execution? env.uuid = none := by
  refine scheduling_post (m := fun env => Creation.createExecution env new) (P := fun r _ =>
    ∀ id, r = .ok id → id = env.uuid ∧ db.execution? env.uuid = none) (fun _ _ => by simp) ?_ id h
  unfold Creation.createExecution
  simp only [Tx.wp_bind, Tx.wp_read, Tx.wp_ofOption, Tx.wp_write, Tx.wp_forSome, Tx.wp_pure,
    DbTx.wp_insertEvent]
  refine ⟨fun executions ht => ?_, fun _ _ => by simp⟩
  have hnew := (Table.insert?_eq_some ht).1
  exact ⟨fun _ _ => ⟨fun _ id hid => ⟨(Except.ok.inj hid).symm, hnew⟩, fun _ _ => by simp⟩,
    fun _ id hid => ⟨(Except.ok.inj hid).symm, hnew⟩⟩

/-- A root that was not created left the database alone. -/
theorem createSession_error {env : Env} {executionId : ExecutionId} {agentId : AgentId}
    {cwd worktreePath baseCommitSha : Option String} {sandboxPolicy : String} {db : Db}
    {e : SchedulerError}
    (h : ((Write.createSession executionId agentId cwd worktreePath baseCommitSha
      sandboxPolicy).run env db).1 = (.error e : Except SchedulerError SessionId)) :
    ((Write.createSession executionId agentId cwd worktreePath baseCommitSha
      sandboxPolicy).run env db).2 = db := by
  refine scheduling_post (m := fun env => Creation.createSession env executionId agentId cwd
    worktreePath baseCommitSha sandboxPolicy) (P := fun r db' => ∀ e, r = .error e → db' = db)
    (fun _ _ _ _ => rfl) ?_ e h
  unfold Creation.createSession
  rw [Tx.wp_bind]
  exact Tx.wp_mono (Q := fun _ _ => True) (E := fun _ => True) (Tx.wp_true _ _) (fun _ _ _ _ => nofun)
    fun _ _ _ _ => rfl

/-- A delegated child has the identifier its transaction drew. -/
theorem createWithWidthGuard_ok {env : Env} {executionId : ExecutionId} {agentId : AgentId}
    {parentId : SessionId} {cwd : Option String} {active : Nat} {maxWidth : Int} {sandboxPolicy : String}
    {db : Db} {id : SessionId}
    (h : ((Write.createWithWidthGuard executionId agentId parentId cwd active maxWidth sandboxPolicy).run
      env db).1 = (.ok (some id) : Except SchedulerError (Option SessionId))) : id = env.uuid := by
  refine scheduling_post (m := fun env => Creation.createWithWidthGuard env executionId agentId
    parentId cwd active maxWidth sandboxPolicy) (P := fun r _ => ∀ id, r = .ok (some id) → id = env.uuid)
    (fun _ _ => by simp) ?_ id h
  unfold Creation.createWithWidthGuard DbTx.insertSession
  simp only [Tx.wp_bind, Tx.wp_read, Tx.wp_require, Tx.wp_ofOption, Tx.wp_write, Tx.wp_pure]
  refine ⟨fun _ => ⟨fun _ => ⟨fun _ => ⟨fun _ _ id hid => ?_, fun _ _ => by simp⟩, fun _ _ => by simp⟩,
    fun _ _ => by simp⟩, fun _ _ => by simp⟩
  exact (Option.some.inj (Except.ok.inj hid)).symm

/-- A loop that serves no worker issues no command. -/
theorem canAssign_noCommand (session : Session) (worker : Option WorkerId) :
    CanAssign session false worker := fun h => by cases h

section Serving

-- as in `System.Requests`
set_option linter.unusedSectionVars false

variable [Start scheduler] [Grounded] {me : Nat} {history : History} {α β : Type}

/-! ## Creating sessions -/

/-- **An execution stays without a root while its creator does not create one.** Only its creator
may, and an identifier names one creation. -/
theorem Owns.cons {e : Event scheduler} {executionId : ExecutionId}
    (h : Owns me history executionId) (ht : Trace disciplined (e :: history))
    (hown : e.caller = me → ∀ agentId cwd worktreePath baseCommitSha sandboxPolicy,
      e.op ≠ Op.write (.createSession executionId agentId cwd worktreePath baseCommitSha
        sandboxPolicy)) : Owns me (e :: history) executionId := by
  obtain ⟨⟨e₀, he₀, hcaller, huuid, new, hop⟩, hno⟩ := h
  refine ⟨⟨e₀, List.mem_cons_of_mem e he₀, hcaller, huuid, new, hop⟩, fun s' hs' hexec => ?_⟩
  have hreach := reachable_of_trace ht
  obtain ⟨-, hbefore, -⟩ := hreach.of_cons
  rcases call_effect e with ⟨w, hw, hsteps⟩ | hsame
  · rcases hsteps.descends hs' with ⟨s, hs, hrow⟩ | ⟨row, hrow', hrow⟩
    · rw [hrow.identity.2.2.1]
      refine hno s ?_ (hrow.identity.2.1.symm.trans hexec)
      exact hbefore ▸ Db.mem_of_session? hs
    · obtain ⟨executionId', _, parent, _, _, _, _, _, rfl, hins⟩ := hrow'
      have hid : executionId' = executionId := hrow.identity.2.1.symm.trans hexec
      have hparent : s'.parentSessionId = parent := hrow.identity.2.2.1
      rcases hins with ⟨hcreate, -⟩ | ⟨parentId, _, _, -, rfl, -⟩ | ⟨_, parentId, _, _, -, -, rfl, -⟩
      · -- the creator of that root has created the execution too, so it is `me`
        rw [hcreate, hid] at hw
        obtain ⟨-, hproper, -⟩ := ht.of_cons
        obtain ⟨⟨e₁, he₁, hcaller₁, huuid₁, new₁, hop₁⟩, -⟩ := hproper _ hw
        have hsame : e₁ = e₀ := hreach.of_cons.1.uuid_unique he₁ he₀ hop₁ hop
          (huuid₁.trans huuid.symm)
        subst hsame
        exact absurd hw (hown (hcaller₁.symm.trans hcaller) _ _ _ _ _)
      · rw [hparent]; exact Option.some_ne_none _
      · rw [hparent]; exact Option.some_ne_none _
  · rw [current_cons, hsame, hbefore] at hs'
    exact hno s' hs' hexec

/-- No other request takes an execution's creator its ownership. -/
theorem Owns.around {executionId : ExecutionId} (h : Owns me history executionId)
    {history' : History} (hl : Around disciplined me history history') :
    Owns me history' executionId :=
  hl.keeps (I := fun history => Owns me history executionId) h fun _ _ ht hcaller h =>
    h.cons ht fun hme => absurd hme hcaller

/-- The creation of an execution, and that its creator then owns it. -/
theorem keeps_newExecution {new : Creation.NewExecution} (hwidth : 1 ≤ new.maxWidth) :
    KeepsOk me (attempt (issue (.createExecution new)) : Handler ExecutionId)
      (fun history executionId => Owns me history executionId) history := by
  refine .ofRequest ((Keeps.issue (w := .createExecution new) fun _ _ => hwidth).mono fun history' r _ hr id hid => ?_)
  obtain ⟨e, earlier, hl, hl', hcaller, hop, hreply⟩ := hr
  obtain ⟨huuid, hfresh⟩ := createExecution_ok (hreply.symm.trans hid)
  have ht : Trace disciplined (e :: earlier) := hl'.2.of_suffix hl'.later.1
  obtain ⟨hr, hbefore, -⟩ := (reachable_of_trace ht).of_cons
  refine Owns.around ⟨⟨e, List.mem_cons_self, hcaller, huuid.symm, new, hop⟩, fun s' hs' hexec => ?_⟩ hl'
  rw [current_cons, after_write hop] at hs'
  rcases (Write.steps _ _ _).descends hs' with ⟨s, hs, hrow⟩ | ⟨row, hrow', -⟩
  · -- a session there already belongs to an execution that is there
    have hexists := hr.hasExecutions s (hbefore ▸ Db.mem_of_session? hs)
    rw [← hrow.identity.2.1, hexec, huuid, ← hbefore] at hexists
    exact absurd hfresh hexists
  · obtain ⟨_, _, _, _, _, _, _, _, -, ⟨h, -⟩ | ⟨_, _, _, h, -⟩ | ⟨_, _, _, _, h, -⟩⟩ := hrow' <;>
      cases h

/-- **Retries.** An insert that may be repeated as long as it fails. -/
theorem keeps_withFreshSlug {insert : Request (Except SchedulerError α)} {J : History → Prop}
    {Q : History → α → Prop} (hJ : J history) (hQ : ∀ a, Stable fun history => Q history a)
    (h : ∀ history, J history → Keeps me insert (fun history' r =>
      (∀ a, r = .ok a → Q history' a) ∧ ∀ e, r = .error e → J history') history) (attempts : Nat) :
    KeepsOk me (withFreshSlug insert attempts) Q history := by
  induction attempts generalizing history with
  | zero => exact .throw
  | succ attempts ih =>
      refine .bind (.lift (h history hJ)) fun history' r _ hr => ?_
      cases r with
      | ok a => exact .pure fun history'' hl => hQ a _ _ hl.later.1 (hr.1 a rfl)
      | error e => exact .ite (fun _ => ih (hr.2 e rfl)) fun _ => .throw

/-- A root session, by the creator of its execution. -/
theorem keeps_newRoot {executionId : ExecutionId} (howns : Owns me history executionId)
    (agentId : AgentId) (cwd worktreePath baseCommitSha : Option String) (sandboxPolicy : String) :
    KeepsOk me (withFreshSlug (issue (.createSession executionId agentId cwd worktreePath
      baseCommitSha sandboxPolicy)) 3 : Handler SessionId) (fun _ _ => True) history := by
  refine keeps_withFreshSlug (J := fun history => Owns me history executionId) howns
    (fun _ _ _ _ h => h) (fun history howns => ?_) 3
  refine (Keeps.issue (w := .createSession _ _ _ _ _ _) fun _ hl => howns.around hl).mono fun history' r _ hr =>
    ⟨fun _ _ => trivial, fun err herr => ?_⟩
  obtain ⟨e, earlier, hl, hl', -, hop, hreply⟩ := hr
  obtain ⟨⟨e₀, he₀, hcreated⟩, hno⟩ := howns.around hl
  have ht : Trace disciplined (e :: earlier) := hl'.2.of_suffix hl'.later.1
  refine Owns.around ⟨⟨e₀, List.mem_cons_of_mem e he₀, hcreated⟩, fun s hs => hno s ?_⟩ hl'
  have hsame := createSession_error (hreply.symm.trans herr)
  rw [current_cons, after_write hop, hsame, (reachable_of_trace ht).of_cons.2.1] at hs
  exact hs

theorem keeps_lookUpProject (projectId : Option String) :
    KeepsOk me (lookUpProject projectId) (fun _ _ => True) history :=
  .ite (fun _ => .ofRequest_any (keeps_query _)) fun _ => .done

theorem keeps_createExecution (request : NewExecutionRequest) :
    KeepsOk me (createExecution request) (fun _ _ => True) history := by
  refine .ite (fun _ => .throw) fun _ => ?_
  refine .bind (.ofRequest_any (keeps_getAgent _)) fun _ agent _ _ => .ite (fun _ => .throw) fun _ => ?_
  refine .ite (fun _ => .throw) fun _ => .ite (fun _ => .throw) fun hwidth => ?_
  refine .bind (keeps_newExecution (by omega)) fun _ executionId _ howns => ?_
  refine .bind (keeps_newRoot howns _ _ _ _ _) fun _ sessionId _ _ => ?_
  refine .bind (.ofRequest_any (keeps_issue (w := .insertLocked _ _ .message _) nofun ⟨nofun, nofun⟩))
    fun _ _ _ _ => ?_
  refine .bind (.ofRequest_any (keeps_issue (w := .insertLocked _ _ .stateChange _) nofun
      ⟨nofun, fun _ => rfl⟩))
    fun _ _ _ _ => ?_
  refine .bind (keeps_lookUpProject _) fun _ _ _ _ => .bind (keeps_lookUpProject _) fun _ _ _ _ => ?_
  refine .bind (.ofRequest_any (keeps_issue (w := .insertExecutionAgents _ _) nofun trivial))
    fun _ _ _ _ => ?_
  refine .bind (.ofRequest_any (keeps_getExecution _)) fun _ _ _ _ => ?_
  exact .bind (.ofRequest_any (keeps_issue (w := .pushTask _ _ _) nofun trivial)) fun _ _ _ _ => .done

theorem keeps_hierarchicalNameForSession (steps : Nat) (id : SessionId) :
    KeepsOk me (hierarchicalNameForSession steps id) (fun _ _ => True) history := by
  induction steps generalizing history id with
  | zero => exact .done
  | succ steps ih =>
      refine .bind (.ofRequest (keeps_getSession id)) fun _ session _ _ => ?_
      split
      · exact .done
      · exact .bind (ih _) fun _ _ _ _ => .done

theorem keeps_abandonChild {childId : SessionId} (h : Delegated history childId) :
    KeepsOk me (abandonChild childId) (fun _ _ => True) history :=
  .bind (.lift (keeps_issue (w := .deleteSession childId) nofun h)) fun _ _ _ _ => .done

/-- A child of a session that has been seen, by its own request. -/
theorem keeps_newChild {auth : McpSession} {agentId : AgentId} {cwd : Option String}
    (hauth : WidthOf history auth.executionId auth.sessionId auth.maxWidth)
    (hdepth : DepthOf history auth.executionId auth.sessionId) :
    KeepsOk me (withFreshSlug (createWithWidthGuard auth.executionId agentId auth.sessionId
      cwd auth.maxWidth auth.sandboxPolicy) 3 : Handler (Option SessionId))
      (fun history created => ∀ id ∈ created, Delegated history id) history := by
  refine keeps_withFreshSlug (J := fun history => WidthOf history auth.executionId auth.sessionId
    auth.maxWidth ∧ DepthOf history auth.executionId auth.sessionId)
    (Q := fun history created => ∀ id ∈ created, Delegated history id)
    ⟨hauth, hdepth⟩ (fun _ _ _ hs h id hid => (h id hid).mono hs) (fun history hauth => ?_) 3
  refine Safe.bind (keeps_query _) fun history₁ counted hl₁ _ => ?_
  have hauth₁ := And.intro (hauth.1.mono hl₁.1) (hauth.2.mono hl₁.1)
  cases counted with
  | error e =>
      exact Keeps.pure fun _ hl => ⟨fun _ hc => (by cases hc), fun _ _ =>
        ⟨hauth₁.1.mono hl.later.1, hauth₁.2.mono hl.later.1⟩⟩
  | ok active =>
      refine (Keeps.issue (w := .createWithWidthGuard _ _ _ _ _ _ _)
        fun _ hl => ⟨hauth₁.1.mono hl.later.1, hauth₁.2.mono hl.later.1⟩).mono fun history' r hl hr =>
          ⟨fun created hc id hid => ?_, fun _ _ => ⟨hauth₁.1.mono hl.1, hauth₁.2.mono hl.1⟩⟩
      obtain ⟨e, earlier, -, hl', -, hop, hreply⟩ := hr
      refine ⟨e, hl'.later.1.subset List.mem_cons_self, ?_, _, _, _, _, _, _, _, hop⟩
      rw [Option.mem_def.mp hid] at hc
      exact (createWithWidthGuard_ok (hreply.symm.trans hc)).symm

theorem keeps_delegateTo {auth : McpSession} {agent : Agent} {prompt : String} {cwd : Option String}
    (hauth : WidthOf history auth.executionId auth.sessionId auth.maxWidth)
    (hdepth : DepthOf history auth.executionId auth.sessionId) :
    KeepsOk me (delegateTo auth agent prompt cwd) (fun _ _ => True) history := by
  refine .bind (keeps_newChild hauth hdepth) fun _ created _ hcreated => ?_
  cases created with
  | none => exact .throw
  | some childId =>
      refine .bind (keeps_hierarchicalNameForSession 20 _) fun _ name hl₀ _ => ?_
      refine .bind (keeps_lookUpProject _) fun _ _ hl₁ _ => ?_
      have hl := hl₀.trans hl₁
      refine .bind (.ofRequest_any (keeps_issue (w := .delegate _ _ _ _ _ _ _) nofun trivial))
        fun _ result hl' _ => ?_
      have hchild := (hcreated childId rfl).mono (hl.1.trans hl'.1)
      cases result with
      | enqueued => exact .done
      | _ => exact .bind (keeps_abandonChild hchild) fun _ _ _ _ => .throw

theorem keeps_delegate (token agentName prompt : String) (explicitCwd : Option String) :
    KeepsOk me (delegate token agentName prompt explicitCwd) (fun _ _ => True) history := by
  refine .bind (keeps_authenticate token) fun _ auth _ hauth => .ite (fun _ => .throw) fun hguard =>
    .ite (fun _ => .throw) fun _ => ?_
  have hdepth := hauth.2.1.depthOf hguard
  refine .bind (.ofRequest_any (keeps_getExecution _)) fun _ execution hl _ =>
    .ite (fun _ => .throw) fun _ => ?_
  refine .bind (.ofRequest_any (keeps_query _)) fun _ found hl' _ => ?_
  cases found with
  | none => exact .throw
  | some agent =>
      refine .ite (fun _ => .throw) fun _ => ?_
      refine .bind (.ofRequest_any (keeps_query _)) fun _ pool hl'' _ => .ite (fun _ => .throw) fun _ => ?_
      refine .bind (.ofRequest (keeps_getSession _)) fun _ parent hl₃ _ => ?_
      have hlater := hl.1.trans (hl'.1.trans (hl''.1.trans hl₃.1))
      exact keeps_delegateTo (hauth.1.mono hlater) (hdepth.mono hlater)

theorem keeps_continueFrom (id : SessionId) (parts : List Json) :
    KeepsOk me (continueFrom id parts) (fun _ _ => True) history := by
  refine .bind (.ofRequest (keeps_getSession id)) fun _ old _ hold => .ite (fun _ => .throw) fun _ =>
    .ite (fun _ => .throw) fun _ => ?_
  split
  · exact .throw
  · rename_i parentId hparent
    refine .ite (fun _ => .throw) fun _ => .ite (fun _ => .throw) fun _ => ?_
    refine .bind (.ofRequest_any (keeps_getExecution _)) fun _ execution hl _ =>
      .ite (fun _ => .throw) fun _ => ?_
    refine .bind (.ofRequest_any (keeps_getSession _)) fun _ parent hl' _ =>
      .ite (fun _ => .throw) fun _ => ?_
    refine .bind (.ofRequest_any (keeps_getAgent _)) fun _ agent hl'' _ =>
      .ite (fun _ => .throw) fun _ => ?_
    exact .ofRequest_any (keeps_issue (w := .continueFrom old parentId _ parts) nofun
      ⟨hold.1.mono (hl.1.trans (hl'.1.trans hl''.1)), hparent⟩)

theorem keeps_recover (id : SessionId) (message : Option String) :
    KeepsOk me (recover id message) (fun _ _ => True) history := by
  refine .ite (fun _ => .throw) fun _ => ?_
  refine .bind (.ofRequest (keeps_getSession id)) fun _ session _ hs => .ite (fun _ => .throw) fun _ => ?_
  refine .bind (.ofRequest_any (keeps_getAgent _)) fun _ agent hl _ => .ite (fun _ => .throw) fun _ =>
    .ite (fun _ => .throw) fun _ => ?_
  refine .bind (.ofRequest_any (keeps_getExecution _)) fun _ exec hl' _ => .ite (fun _ => .throw) fun _ => ?_
  exact .ofRequest_any (keeps_issue (w := .recover session _ message) nofun (hs.1.mono (hl.1.trans hl'.1)))

theorem keeps_deleteWorktree (id : SessionId) :
    KeepsOk me (deleteWorktree id) (fun _ _ => True) history := by
  refine .bind (.ofRequest_any (keeps_getSession id)) fun _ session _ _ => .ite (fun _ => .throw) fun _ =>
    .ite (fun _ => .throw) fun _ => ?_
  refine .bind (.ofRequest_any (keeps_getSession id)) fun _ preClear _ _ => .ite (fun _ => .throw) fun _ => ?_
  exact .ofRequest_any (keeps_issue (w := .clearWorktreePath id) nofun trivial)

/-! ## Escalations -/

theorem keeps_escalate (token importance : String) (questions : List Json) :
    KeepsOk me (escalate token importance questions) (fun _ _ => True) history := by
  refine .bind (keeps_authenticate token) fun _ auth _ hauth => .ite (fun _ => .throw) fun hrole =>
    .ite (fun _ => .throw) fun _ => .ite (fun _ => .throw) fun _ => ?_
  obtain ⟨-, -, s, hseen, hid, hexec, hroot⟩ := hauth
  exact .ofRequest_any (keeps_issue (w := .escalate _ _ _ _) nofun
    ⟨s, hseen, hid, hexec, hroot (by simpa using hrole)⟩)

theorem keeps_dismiss (eventId : String) (bearer : Option String) :
    KeepsOk me (dismiss eventId bearer) (fun _ _ => True) history := by
  refine .bind (keeps_isAgentSessionBearer bearer) fun _ b _ _ => .ite (fun _ => .throw) fun _ => ?_
  split
  · exact .throw
  · refine .bind (.ofRequest (keeps_getEscalation _)) fun _ found _ hfound => ?_
    cases found with
    | none => exact .throw
    | some escalation =>
        exact .ofRequest_any (keeps_issue (w := .dismiss escalation) nofun (hfound escalation rfl))

/-! ## The reconciler loops -/

theorem keeps_reconcileOne (fuel : Nat) {session : Session} (hseen : Seen history session)
    {commandOk : Bool} {worker : Option WorkerId} (hassign : CanAssign session commandOk worker) :
    Keeps me (reconcileOne fuel session commandOk worker) (fun _ _ => True) history := by
  refine Safe.bind (keeps_countPendingTurns _) fun _ pending hl _ => ?_
  refine Safe.bind (keeps_getExecution _) fun _ r hl' hr => ?_
  cases r with
  | error e => exact Keeps.pure fun _ _ => trivial
  | ok execution =>
      exact Safe.mono (keeps_reconcile fuel (hseen.mono (hl.1.trans hl'.1)) pending (hr execution rfl) hassign)
        fun _ _ _ _ => trivial

theorem keeps_loopStep (fuel : Nat) {session : Session} (hseen : Seen history session)
    (action : LoopAction) : Keeps me (loopStep fuel session action) (fun _ _ => True) history := by
  cases action with
  | skip => exact Keeps.pure fun _ _ => trivial
  | lost => exact Safe.bind (keeps_loseCommand hseen) fun _ _ _ _ => Keeps.pure fun _ _ => trivial
  | reconcile =>
      refine Safe.bind (keeps_reconcileOne fuel hseen (canAssign_noCommand session none))
        fun _ r _ _ => ?_
      split <;> exact Keeps.pure fun _ _ => trivial

theorem keeps_globalLoop (fuel : Nat) (config : Config) (self : WorkerId)
    (heartbeats : List (WorkerId × Timestamp)) (startedAt : Timestamp) {sessions : List Session}
    (hseen : ∀ s ∈ sessions, Seen history s) :
    Keeps me (globalLoop fuel config self heartbeats startedAt sessions) (fun _ _ => True)
      history := by
  induction sessions generalizing history with
  | nil => exact Keeps.pure fun _ _ => trivial
  | cons session rest ih =>
      refine Safe.bind (Keeps.inspect _) fun _ now hl _ => ?_
      refine Safe.bind (keeps_loopStep fuel ((hseen session (by simp)).mono hl.1) _)
        fun _ changed hl' _ => ?_
      refine Safe.bind (ih fun s hs => (hseen s (by simp [hs])).mono (hl.1.trans hl'.1))
        fun _ others _ _ => Keeps.pure fun _ _ => trivial

theorem keeps_ownPass (fuel : Nat) (worker : WorkerId) {sessions : List Session} (pass : Pass)
    (hseen : ∀ s ∈ sessions, Seen history s) :
    Keeps me (ownPass fuel worker sessions pass) (fun _ _ => True) history := by
  induction sessions generalizing history pass with
  | nil => exact Keeps.pure fun _ _ => trivial
  | cons session rest ih =>
      refine Safe.bind (keeps_reconcileOne fuel (hseen session (by simp)) fun _ => .inl rfl)
        fun _ r hl _ => ?_
      have hrest : ∀ s ∈ rest, Seen _ s := fun s hs => (hseen s (by simp [hs])).mono hl.1
      split
      · exact Keeps.pure fun _ _ => trivial
      · exact ih _ hrest
      · exact ih _ hrest
      · exact ih _ hrest

theorem keeps_ownPasses (fuel : Nat) (worker : WorkerId) (passes : Nat) (pending : Bool) :
    Keeps me (ownPasses fuel worker passes pending) (fun _ _ => True) history := by
  induction passes generalizing history pending with
  | zero => exact Keeps.pure fun _ _ => trivial
  | succ passes ih =>
      refine Safe.bind (keeps_select (fun _ db => db.findSessionsForWorker worker)
        fun _ _ _ hs => List.mem_of_mem_filter hs) fun _ r _ hr => ?_
      cases r with
      | error e => exact Keeps.pure fun _ _ => trivial
      | ok fresh =>
          refine Safe.bind (keeps_ownPass fuel worker _ (hr fresh rfl)) fun _ res _ _ => ?_
          cases res with
          | inl result => exact Keeps.pure fun _ _ => trivial
          | inr pass => exact Safe.ite (fun _ => ih _) fun _ => Keeps.pure fun _ _ => trivial

theorem keeps_claim (fuel : Nat) (worker : WorkerId) :
    Keeps me (claim fuel worker) (fun _ _ => True) history := by
  refine Safe.bind (Keeps.query _) fun history' r _ hr => ?_
  split
  · rename_i session
    obtain ⟨e, he, hfound⟩ := hr _ rfl
    have hseen : Seen history' session := ⟨e, he, (Db.mem_of_findUnassignedWithWork hfound.symm).1⟩
    refine Safe.bind (keeps_reconcileOne fuel hseen fun _ => .inl rfl) fun _ r _ _ => ?_
    split <;> exact Keeps.pure fun _ _ => trivial
  · exact Keeps.pure fun _ _ => trivial

theorem keeps_runReconcilerForWorker (fuel : Nat) (config : Config) (worker : WorkerId) :
    Keeps me (runReconcilerForWorker fuel config worker) (fun _ _ => True) history := by
  refine Safe.bind (keeps_query _) fun _ own _ _ => ?_
  split
  · exact Keeps.pure fun _ _ => trivial
  · exact keeps_ownPasses fuel worker 2 false
  · refine Safe.bind (keeps_claim fuel worker) fun _ claimed _ _ => ?_
    cases claimed with
    | some result => exact Keeps.pure fun _ _ => trivial
    | none =>
        refine Safe.bind (keeps_select (fun _ db => db.findReconcilable)
          fun _ _ _ hs => List.mem_of_mem_filter hs) fun _ r _ hr => ?_
        cases r with
        | error e => exact Keeps.pure fun _ _ => trivial
        | ok sessions =>
            refine Safe.bind (Keeps.inspect _) fun _ seen hl _ => ?_
            refine Safe.bind (keeps_globalLoop fuel config worker _ _ fun s hs =>
              (hr sessions rfl s hs).mono hl.1) fun _ changed _ _ => Keeps.pure fun _ _ => trivial

theorem keeps_runReconcilerForSession (fuel : Nat) (worker : WorkerId) (id : SessionId)
    (passes : Nat) :
    Keeps me (runReconcilerForSession fuel worker id passes) (fun _ _ => True) history := by
  induction passes generalizing history with
  | zero => exact Keeps.pure fun _ _ => trivial
  | succ passes ih =>
      refine Safe.bind (keeps_getSession id) fun _ r _ hr => ?_
      cases r with
      | error e => exact Keeps.pure fun _ _ => trivial
      | ok session =>
          refine Safe.ite (fun _ => Keeps.pure fun _ _ => trivial) fun _ => ?_
          refine Safe.bind (keeps_countPendingTurns _) fun _ pending hl _ => ?_
          refine Safe.bind (keeps_getExecution _) fun _ r hl' hexecution => ?_
          cases r with
          | error e => exact Keeps.pure fun _ _ => trivial
          | ok execution =>
              refine Safe.bind (keeps_reconcile fuel ((hr session rfl).1.mono (hl.1.trans hl'.1)) pending
                (hexecution execution rfl) fun _ => .inl rfl) fun _ r _ _ => ?_
              split
              · exact Keeps.pure fun _ _ => trivial
              · exact Keeps.pure fun _ _ => trivial
              · exact ih
              · exact Keeps.pure fun _ _ => trivial

theorem keeps_tickLoop (fuel : Nat) (config : Config) (heartbeats : List (WorkerId × Timestamp))
    {sessions : List Session} (hseen : ∀ s ∈ sessions, Seen history s) :
    Keeps me (tickLoop fuel config heartbeats sessions) (fun _ _ => True) history := by
  induction sessions generalizing history with
  | nil => exact Keeps.pure fun _ _ => trivial
  | cons session rest ih =>
      refine Safe.bind (Keeps.inspect _) fun _ now hl _ => ?_
      refine Safe.bind (keeps_loopStep fuel ((hseen session (by simp)).mono hl.1) _) fun _ _ hl' _ => ?_
      exact ih fun s hs => (hseen s (by simp [hs])).mono (hl.1.trans hl'.1)

theorem keeps_tick (fuel : Nat) (config : Config) :
    Keeps me (tick fuel config) (fun _ _ => True) history := by
  refine Safe.bind (keeps_select (fun _ db => db.findReconcilable)
    fun _ _ _ hs => List.mem_of_mem_filter hs) fun _ r _ hr => ?_
  cases r with
  | error e => exact Keeps.pure fun _ _ => trivial
  | ok sessions =>
      refine Safe.bind (Keeps.inspect _) fun _ heartbeats hl _ => ?_
      exact keeps_tickLoop fuel config heartbeats fun s hs => (hr sessions rfl s hs).mono hl.1

/-! ## The sync of a worker -/

/-- The transition a report asks for. -/
theorem keeps_reportState (session : Session) (state : ExState) (worker : WorkerId)
    (crashMeta : Option CrashMeta) :
    KeepsOk me (do
      let result ← ExceptT.lift (transition session.executionId session.id
        (.setExecutorState state worker crashMeta))
      if result.isOk then return true else throw "transition failed" :
        ExceptT String (Prog scheduler) Bool) (fun _ _ => True) history :=
  .bind (.lift (keeps_transition _ (by trivial))) fun _ r _ _ => .ite (fun _ => .done) fun _ => .throw

theorem keeps_processExecutorReport (worker : WorkerId) (report : WorkerSync.ExecutorReport)
    (crashMeta : Option CrashMeta) :
    KeepsOk me (processExecutorReport worker report crashMeta) (fun _ _ => True) history := by
  refine .bind (.lift (keeps_getSession _)) fun _ r _ _ => ?_
  cases r with
  | error e => exact .throw
  | ok session =>
      refine .ite (fun _ => .done) fun _ => ?_
      split
      · rename_i agentSessionId _
        have hset : ∀ history' state, KeepsOk me (do
            let updated : Except SchedulerError Unit ←
              ExceptT.lift (issue (.updateAgentSessionId session.id agentSessionId worker))
            if updated.isOk then pure () else throw "update agent_session_id failed"
            let result ← ExceptT.lift (transition session.executionId session.id
              (.setExecutorState state worker crashMeta))
            if result.isOk then return true else throw "transition failed" :
              ExceptT String (Prog scheduler) Bool) (fun _ _ => True) history' := fun _ state =>
          .bind (.lift (keeps_issue (w := .updateAgentSessionId _ _ _) nofun trivial)) fun _ r _ _ =>
            .ite (fun _ => keeps_reportState session state worker crashMeta) fun _ =>
              .bind (Q := fun _ _ => True) .throw fun _ _ _ _ =>
                keeps_reportState session state worker crashMeta
        dsimp only
        split
        · exact .bind (Q := fun _ _ => True) .done fun _ state _ _ => hset _ state
        · exact .bind (Q := fun _ _ => True) .done fun _ state _ _ => hset _ state
        · exact .bind (Q := fun _ _ => True) .done fun _ state _ _ => hset _ state
        · exact .bind (Q := fun _ _ => True) .throw fun _ state _ _ => hset _ state
      · dsimp only
        split
        · exact .bind (Q := fun _ _ => True) .done fun _ state _ _ => keeps_reportState session state _ _
        · exact .bind (Q := fun _ _ => True) .done fun _ state _ _ => keeps_reportState session state _ _
        · exact .bind (Q := fun _ _ => True) .done fun _ state _ _ => keeps_reportState session state _ _
        · exact .bind (Q := fun _ _ => True) .throw fun _ state _ _ => keeps_reportState session state _ _

theorem keeps_handleReport (request : WorkerSync.SyncRequest) :
    Keeps me (handleReport request) (fun _ _ => True) history := by
  unfold handleReport
  split
  · exact Keeps.pure fun _ _ => trivial
  · refine Safe.bind (keeps_processExecutorReport _ _ _) fun _ r _ _ => ?_
    cases r with
    | ok applied => exact Keeps.pure fun _ _ => trivial
    | error message =>
        refine Safe.ite (fun _ => Keeps.pure fun _ _ => trivial) fun _ => ?_
        refine Safe.bind (keeps_getSession _) fun _ r _ _ => ?_
        cases r <;> exact Keeps.pure fun _ _ => trivial

theorem keeps_heldSession (request : WorkerSync.SyncRequest) :
    Keeps me (heldSession request) (fun history r => ∀ s ∈ r.1, Seen history s) history := by
  unfold heldSession
  split
  · exact Keeps.pure fun _ _ _ hs => by cases hs
  · refine Safe.bind (keeps_getSession _) fun _ r _ hr => ?_
    cases r with
    | error e => exact Keeps.pure fun _ _ _ hs => by cases hs
    | ok session =>
        refine Keeps.pure fun _ hl s hs => ?_
        split at hs
        · obtain rfl := Option.some.inj hs
          exact (hr session rfl).1.mono hl.later.1
        · cases hs

theorem keeps_parentOfTurn (wanted : Bool) (held : Option Session) :
    Keeps me (parentOfTurn wanted held) (fun _ _ => True) history := by
  unfold parentOfTurn
  split
  · refine Safe.ite (fun _ => ?_) fun _ => Keeps.pure fun _ _ => trivial
    refine Safe.bind (keeps_getSession _) fun _ r _ _ => ?_
    cases r with
    | error e => exact Keeps.pure fun _ _ => trivial
    | ok parent =>
        refine Safe.ite (fun _ => Keeps.pure fun _ _ => trivial) fun _ => ?_
        refine Safe.bind (keeps_getExecution _) fun _ r _ _ => ?_
        cases r <;> exact Keeps.pure fun _ _ => trivial
  · exact Keeps.pure fun _ _ => trivial

/-- The lock the result transaction takes is that of the held session. -/
theorem keeps_resultExecution (request : WorkerSync.SyncRequest) (held : Option Session) :
    Keeps me (resultExecution request held) (fun _ r => ∀ s ∈ held, ∀ id ∈ r, s.executionId = id)
      history := by
  unfold resultExecution
  split
  · rename_i session _
    refine Keeps.pure fun _ _ s hs id hid => ?_
    obtain rfl := Option.some.inj hs
    exact Option.some.inj hid
  · refine Safe.bind (keeps_query _) fun _ r _ _ => ?_
    cases r with
    | ok row => exact Keeps.pure fun _ _ _ hs => by cases hs
    | error e => exact Keeps.pure fun _ _ _ hs => by cases hs
  · exact Keeps.pure fun _ _ _ hs => by cases hs

theorem keeps_runResultTx (executionId : ExecutionId) (request : WorkerSync.SyncRequest)
    {held : Option Session} (notify : Bool) (parent : Option SessionId) (retries : Nat)
    (hheld : ∀ s ∈ held, Seen history s ∧ s.executionId = executionId) :
    Keeps me (runResultTx executionId request held notify parent retries) (fun _ _ => True)
      history := by
  induction retries generalizing history with
  | zero => exact keeps_issue (w := .resultTx executionId request held notify parent) nofun hheld
  | succ retries ih =>
      refine Safe.bind (keeps_issue (w := .resultTx executionId request held notify parent) nofun hheld)
        fun _ r hl _ => ?_
      split
      · exact ih fun s hs => ⟨(hheld s hs).1.mono hl.1, (hheld s hs).2⟩
      · exact Keeps.pure fun _ _ => trivial

theorem keeps_handleResult (request : WorkerSync.SyncRequest) :
    KeepsOk me (handleResult request) (fun _ _ => True) history := by
  refine .ite (fun _ => .done) fun _ => ?_
  refine .bind (.lift (keeps_heldSession request)) fun _ r _ hr => ?_
  obtain ⟨held, stale⟩ := r
  refine .bind (.lift (keeps_parentOfTurn _ held)) fun _ parent hl _ => ?_
  refine .bind (.lift (keeps_resultExecution request held)) fun _ lock hl' hlock => ?_
  cases lock with
  | none => exact .done
  | some executionId =>
      exact .bind (.ofRequest_any (keeps_runResultTx executionId request _ _ 3 fun s hs =>
        ⟨(hr s hs).mono (hl.1.trans hl'.1), hlock s hs executionId rfl⟩)) fun _ _ _ _ => .done

theorem keeps_heartbeat (worker : WorkerId) :
    Keeps me (Prog.perform (M := scheduler) (.heartbeat worker)) (fun _ _ => True) history :=
  Keeps.call (fun _ => Op.noConfusion) fun _ _ _ => trivial

theorem keeps_pollReconciler (fuel : Nat) (config : Config) (request : WorkerSync.SyncRequest) :
    Keeps me (pollReconciler fuel config request) (fun _ _ => True) history := by
  refine Safe.bind (keeps_runReconcilerForWorker fuel config _) fun _ r _ _ => ?_
  split
  · exact Keeps.pure fun _ _ => trivial
  · exact Keeps.pure fun _ _ => trivial
  refine Safe.ite (fun _ => Keeps.pure fun _ _ => trivial) fun _ => ?_
  refine Safe.bind (keeps_runReconcilerForWorker fuel config _) fun _ r _ _ => ?_
  split
  · exact Keeps.pure fun _ _ => trivial
  · exact Keeps.pure fun _ _ => trivial
  exact Safe.bind (keeps_heartbeat _) fun _ _ _ _ => keeps_runReconcilerForWorker fuel config _

theorem keeps_workerSync (fuel : Nat) (config : Config) (request : WorkerSync.SyncRequest) :
    KeepsOk me (workerSync fuel config request) (fun _ _ => True) history := by
  refine .bind (.lift (keeps_heartbeat _)) fun _ _ _ _ => ?_
  refine .bind (.lift (keeps_handleReport request)) fun _ afterReport _ _ => ?_
  refine .bind (keeps_handleResult request) fun _ skip _ _ => ?_
  split
  · exact .lift (keeps_pollReconciler fuel config request)
  · exact .lift (keeps_runReconcilerForSession fuel _ _ 2)
  · exact .done

theorem keeps_workerEvent (worker : WorkerId) (id : SessionId) (msgSeq : Int) (payload : Json)
    (ephemeral : Bool) :
    KeepsOk me (workerEvent worker id msgSeq payload ephemeral) (fun _ _ => True) history :=
  .bind (.ofRequest (keeps_getSession id)) fun _ _ _ _ => .ite (fun _ => .done) fun _ =>
    .ofRequest_any (keeps_issue (w := .workerEvent _ _ _ _ _) nofun trivial)

/-! ## Starting up -/

theorem keeps_noteLeftRunning (candidate : Session) :
    Keeps me (noteLeftRunning candidate) (fun _ _ => True) history :=
  Safe.bind (keeps_notice candidate _) fun _ _ _ _ => Keeps.pure fun _ _ => trivial

/-- The end of a parking: the loss notice, and the stop. -/
theorem keeps_parkStop (candidate : Session) :
    Keeps me (do
      let _ ← if candidate.commandHasPayload then notice candidate lossNotice else pure false
      match ← transition candidate.executionId candidate.id (.setDesired .stop .systemRestart) with
      | .ok _ => return ()
      | .error _ => noteLeftRunning candidate) (fun _ _ => True) history := by
  have hstop : ∀ history', Keeps me (do
      match ← transition candidate.executionId candidate.id (.setDesired .stop .systemRestart) with
      | .ok _ => return ()
      | .error _ => noteLeftRunning candidate) (fun _ _ => True) history' := fun _ => by
    refine Safe.bind (keeps_transitionTo _ _ _ _ (by simp)) fun _ r _ _ => ?_
    cases r with
    | ok _ => exact Keeps.pure fun _ _ => trivial
    | error e => exact keeps_noteLeftRunning candidate
  refine Safe.ite (fun _ => ?_) fun _ => ?_
  · exact Safe.bind (keeps_notice candidate _) fun _ _ _ _ => hstop _
  · exact Safe.bind (Q := fun _ _ => True) (Keeps.pure fun _ _ => trivial) fun _ _ _ _ => hstop _

theorem keeps_park (candidate : Session) :
    Keeps me (park candidate) (fun _ _ => True) history := by
  refine Safe.bind (keeps_query _) fun _ r _ _ => ?_
  cases r with
  | error e => exact keeps_noteLeftRunning candidate
  | ok pending =>
      have hrest : ∀ history' announced, Keeps me (if !announced then noteLeftRunning candidate
          else do
            let _ ← if candidate.commandHasPayload then notice candidate lossNotice else pure false
            match ← transition candidate.executionId candidate.id
                (.setDesired .stop .systemRestart) with
            | .ok _ => return ()
            | .error _ => noteLeftRunning candidate) (fun _ _ => True) history' := fun _ announced =>
        Safe.ite (fun _ => keeps_noteLeftRunning candidate) fun _ => keeps_parkStop candidate
      refine Safe.ite (fun _ => ?_) fun _ => ?_
      · exact Safe.bind (keeps_notice candidate _) fun _ announced _ _ => hrest _ announced
      · exact Safe.bind (Q := fun _ _ => True) (Keeps.pure fun _ _ => trivial)
          fun _ announced _ _ => hrest _ announced

theorem keeps_parkLiveSessionsOnBoot :
    Keeps me parkLiveSessionsOnBoot (fun _ _ => True) history := by
  refine Safe.bind (keeps_query _) fun _ r _ _ => ?_
  cases r with
  | error e => exact Keeps.pure fun _ _ => trivial
  | ok candidates =>
      refine Safe.bind (keeps_query _) fun _ r _ _ => ?_
      cases r with
      | error e => exact Keeps.pure fun _ _ => trivial
      | ok nodes =>
          refine Safe.forM fun candidate _ _ _ => ?_
          split
          · exact keeps_park candidate
          · exact Keeps.pure fun _ _ => trivial
          · exact keeps_noteLeftRunning candidate

theorem keeps_crashedSweep (fuel : Nat) : Keeps me (crashedSweep fuel) (fun _ _ => True) history := by
  refine Safe.bind (Keeps.query _) fun history' r _ hr => ?_
  cases r with
  | error e => exact Keeps.pure fun _ _ => trivial
  | ok sessions =>
      obtain ⟨e, he, rfl⟩ := hr sessions rfl
      refine Safe.forM fun session hsession _ hl => ?_
      obtain ⟨hmem, hcrashed⟩ := List.mem_filter.mp hsession
      have hseen : Seen history' session := ⟨e, he, hmem⟩
      refine Safe.bind (keeps_reconcileOne fuel (hseen.mono hl.1) fun _ => .inr ?_)
        fun _ _ _ _ => Keeps.pure fun _ _ => trivial
      simp only [Bool.and_eq_true, decide_eq_true_eq] at hcrashed
      exact hcrashed.1.1.2

theorem keeps_boot (fuel : Nat) (pauseSessions : Bool) :
    Keeps me (boot fuel pauseSessions) (fun _ _ => True) history := by
  refine Safe.bind (Q := fun _ _ => True)
    (Keeps.call (fun _ => Op.noConfusion) fun _ _ _ => trivial) fun _ _ _ _ => ?_
  refine Safe.ite (fun _ => ?_) fun _ => ?_
  · exact Safe.bind keeps_parkLiveSessionsOnBoot fun _ _ _ _ => keeps_crashedSweep fuel
  · exact keeps_crashedSweep fuel

/-! ## Every route -/

theorem keeps_done {p : Handler α} (h : KeepsOk me p (fun _ _ => True) history) :
    Keeps me (done p) (fun _ _ => True) history :=
  Safe.bind h fun _ _ _ _ => Keeps.pure fun _ _ => trivial

/-- **Every request keeps the discipline.** -/
theorem keeps_serve (fuel : Nat) (route : Route) :
    Keeps me (serve fuel route) (fun _ _ => True) history := by
  cases route with
  | createExecution request => exact keeps_done (keeps_createExecution request)
  | postMessage => exact keeps_done (keeps_postMessage _ _ _)
  | sendLateralMessage => exact keeps_done (keeps_sendLateralMessage _ _ _)
  | stopTurn => exact keeps_done (keeps_stopTurn _)
  | terminateSession => exact keeps_done (keeps_terminateSessionRoute _ _)
  | terminateExecution => exact keeps_done (keeps_terminateExecution _ _)
  | delegate => exact keeps_done (keeps_delegate _ _ _ _)
  | release => exact keeps_done (keeps_release _ _ _)
  | continueFrom => exact keeps_done (keeps_continueFrom _ _)
  | recover => exact keeps_done (keeps_recover _ _)
  | deleteWorktree => exact keeps_done (keeps_deleteWorktree _)
  | escalate => exact keeps_done (keeps_escalate _ _ _)
  | dismiss => exact keeps_done (keeps_dismiss _ _)
  | workerSync => exact keeps_done (keeps_workerSync _ _ _)
  | workerEvent => exact keeps_done (keeps_workerEvent _ _ _ _ _)
  | tick => exact keeps_tick _ _
  | boot => exact keeps_boot _ _
  | putAgent agent => exact keeps_done (.ofRequest_any (keeps_issue (w := .putAgent agent) nofun trivial))

/-- **Every interleaving of the scheduler is disciplined.** -/
theorem SchedulerRun.disciplined {pool : List (Nat × Request Unit)} {history : History}
    (h : SchedulerRun pool history) : Trace disciplined history :=
  (Run.trace (G := AgentBeacon.disciplined) (fun r _ _ _ => keeps_serve r.1 r.2) h).1

/-- The point of a disciplined history at which a transaction was called, and that its arguments were
proper there. -/
theorem proper_of_mem {history : History} (h : Trace AgentBeacon.disciplined history)
    {e : Event scheduler} (he : e ∈ history) {w : Write} (hw : e.op = Op.write w) :
    ∃ earlier, (e :: earlier) <:+ history ∧ Reachable (e :: earlier) ∧
      Trace AgentBeacon.disciplined earlier ∧ before e = current earlier ∧
      Proper e.caller earlier w := by
  obtain ⟨earlier, hs, ht, hproper, -, -⟩ := Trace.of_mem h he
  have hr := reachable_of_trace (h.of_suffix hs)
  exact ⟨earlier, hs, hr, ht, hr.of_cons.2.1, hproper w hw⟩

end Serving

end AgentBeacon
