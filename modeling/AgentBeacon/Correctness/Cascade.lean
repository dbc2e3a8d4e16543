import AgentBeacon.System.Alone
import AgentBeacon.Correctness.Milestones
import Mathlib.Data.Fintype.Prod

/-!
# `Correctness.Cascade` — a termination reaches everything below it

A pass over all sessions may stop at a session for many reasons before it comes to the children: the worker is
lost, the outcome or the execution has to be repaired first. Each of them happens once. So as long as a session
below a terminated one is left, a pass takes some session past a milestone, and there are four for each session.
-/

namespace AgentBeacon
open Relational Transaction Interleave Interleave.Way Transition Reconciler

/-! ## Passes -/

/-- The part of `run_reconciler_for_worker` behind its own sessions and its claim: one pass of the global loop
over `find_reconcilable`. -/
def globalPass (fuel : Nat) (config : Config) (self : WorkerId) : Request ReconcilerResult := do
  match ← query fun _ db => db.findReconcilable with
  | .error _ => return .nothingFound
  | .ok sessions => do
      let (heartbeats, startedAt) ← inspect fun _ store => (store.heartbeats, store.startedAt)
      let changed ← globalLoop fuel config self heartbeats startedAt sessions
      return if changed then .noAction else .nothingFound

/-- **It is what the sync of a worker comes to** that has no sessions and finds nothing to claim. -/
theorem runReconcilerForWorker_eq (fuel : Nat) (config : Config) (self : WorkerId) :
    runReconcilerForWorker fuel config self = (do
      match ← query fun _ db => db.findSessionsForWorker self with
      | .error _ => return .nothingFound
      | .ok (_ :: _) => ownPasses fuel self 2 false
      | .ok [] => do
          match ← claim fuel self with
          | some result => return result
          | none => globalPass fuel config self) := rfl

/-- Who makes a pass. -/
structure Passer where
  fuel : Nat
  config : Config
  self : WorkerId

def Passer.pass (p : Passer) : Request PUnit := do
  let _ ← globalPass p.fuel p.config p.self
  return ()

/-- Passes one after the other, with nothing in between. -/
def globalPasses (passers : List Passer) : Request PUnit := passers.forM Passer.pass

/-! ## Milestones gained -/

/-- Some session has come past a milestone since. -/
def Advanced (db db' : Db) : Prop := ∃ id m, ¬db.Past id m ∧ db'.Past id m

theorem Advanced.onward {db db' db'' : Db} (h : Advanced db db') (hlater : Db.Onward db' db'') : Advanced db db'' := by
  obtain ⟨id, m, hbefore, hpast⟩ := h
  exact ⟨id, m, hbefore, hpast.onward hlater⟩

theorem Advanced.back {db db' db'' : Db} (h : Advanced db' db'') (hlater : Db.Onward db db') : Advanced db db'' := by
  obtain ⟨id, m, hbefore, hpast⟩ := h
  exact ⟨id, m, fun hpast' => hbefore (hpast'.onward hlater), hpast⟩

section Steps

variable {rank : SessionId → Nat} {top : Nat} {start : Db} {store : Store} {session : Session} {α β : Type}

/-- From here on, run alone, a milestone is gained. -/
abbrev Advances (start : Db) (p : Request α) (store : Store) : Prop :=
  Always (M := scheduler) Smooth p (fun _ store' => Advanced start store'.db) store

theorem Smooth.fault {env : Env} (h : Smooth env store) : env.fault = none := h.1

/-- **A transaction that gains one.** -/
theorem advances_issue {w : Write}
    (h : ∀ env, env.fault = none → store.db.events.next ≤ maxRowId → Advanced start (w.run env store.db).2) :
    Advances start (issue w) store := by
  refine ⟨?_, fun env _ hsmooth => h env hsmooth.1 (by have := hsmooth.2; omega)⟩
  obtain ⟨uuid, hfresh⟩ := Infinite.exists_notMem_finset store.drawn.toFinset
  exact ⟨⟨0, uuid, "", 0, none, false⟩, decide_eq_true fun hmem => hfresh (List.mem_toFinset.mpr hmem)⟩

theorem advances_query {f : Env → Db → α} {k : Except SchedulerError α → Request β}
    (h : ∀ env, Advances start (k (.ok (f env store.db))) store) : Advances start (query f >>= k) store :=
  always_query (fun _ _ hsmooth => hsmooth.fault) h

/-- Behind a request that gains one, it stays gained. -/
theorem advances_bind {p : Request α} {f : α → Request β} (hp : Forward rank top p) (hs : store.db.Ranked rank top)
    (h : Advances start p store) (hf : ∀ a, Forward rank top (f a)) : Advances start (p >>= f) store :=
  hp.reached (W := onward rank top) (Q := fun store' => Advanced start store'.db) hs Advanced.onward h hf

/-- The row of a session, later. -/
theorem later_row (hlater : Db.Onward start store.db) (hsession : start.session? session.id = some session) :
    ∃ row, store.db.session? session.id = some row ∧ session.Onward row ∧ row.id = session.id := by
  obtain ⟨row, hrow, honward⟩ := hlater.session _ _ hsession
  exact ⟨row, hrow, honward, Db.id_of_session? hrow⟩

theorem not_past {m : Milestone} (hsession : start.session? session.id = some session) (h : ¬start.passed session m) :
    ¬start.Past session.id m := by
  rintro ⟨s, hs, hpassed⟩
  obtain rfl := Option.some.inj (hsession.symm.trans hs)
  exact h hpassed

/-- **A session whose worker is lost** loses it. -/
theorem advances_loseCommand (hs : store.db.Ranked rank top) (hdb : store.db.Contained)
    (hlater : Db.Onward start store.db) (hsession : start.session? session.id = some session)
    (hworker : session.workerId ≠ none) : Advances start (loseCommand session) store := by
  have hnew := not_past (m := .released) hsession hworker
  -- the notice comes first, and moves nothing back
  have hrest : ∀ (noticed : Bool) (store' : Store), store'.db.Ranked rank top → Db.Onward store.db store'.db →
      Advances start (transition session.executionId session.id (.detectCrash session noticed) >>= fun _ => .ret ())
        store' := by
    intro noticed store' hs' hahead
    have hlater' := hlater.trans hahead
    obtain ⟨row, hrow, honward, hid⟩ := later_row hlater' hsession
    refine advances_bind (forward_transition _ _ _) hs' ?_ fun _ => .ret _
    have hexec : session.executionId = row.executionId := honward.execution.symm
    unfold transition
    rw [hexec]
    refine always_lookup (fun _ _ hsmooth => hsmooth.fault) hrow ?_
    refine advances_bind (forward_issue rfl) hs' (advances_issue fun env hfault hnumbers => ?_) fun _ => .ret _
    rw [← hid] at hnew hrow
    exact ⟨row.id, .released, hnew, detectCrash_lands hfault hnumbers (hdb.onward hahead) hrow rfl session noticed⟩
  unfold loseCommand
  split
  · exact (forward_notice session lossNotice).reaches (W := onward rank top)
      (Q := fun store' => Advanced start store'.db) hs hrest
  · exact hrest false store hs (.refl _)

/-- One session of a pass, with its execution as it is read. -/
theorem advances_reconcileOne {fuel : Nat} {x : Execution} (hx : store.db.execution? session.executionId = some x)
    (h : ∀ pending, Advances start (reconcile fuel session pending x false none).run store) :
    Advances start (reconcileOne fuel session false none) store := by
  show Advances start (query (fun _ db => db.pendingTurns session.id) >>= _) store
  refine advances_query fun _ => ?_
  show Advances start (query (fun _ db => db.execution? session.executionId) >>= _) store
  refine advances_query fun _ => ?_
  rw [hx]
  exact h _

/-- **A terminated session without an outcome** gets one. -/
theorem advances_repairOutcome {fuel pending : Nat} {x : Execution} (hdb : store.db.Contained)
    (hlater : Db.Onward start store.db) (hsession : start.session? session.id = some session)
    (hdesired : session.desired = .terminate) (hopen : session.outcome = none) :
    Advances start (reconcile fuel session pending x false none).run store := by
  have hnew : ¬start.Past session.id .ended := not_past hsession fun hended => by
    rw [Db.passed, hopen] at hended
    cases hended
  obtain ⟨row, hrow, honward, -⟩ := later_row hlater hsession
  unfold reconcile
  rw [if_pos ⟨hdesired, Option.isNone_iff_eq_none.mpr hopen⟩]
  split
  · refine advances_issue fun env hfault hnumbers => ⟨session.id, .ended, hnew, ?_⟩
    exact repairRootOutcome_lands hfault hnumbers hdb hrow honward.execution (honward.desired hdesired) _
  · refine advances_issue fun env hfault _ => ⟨session.id, .ended, hnew, ?_⟩
    exact repairChildOutcome_lands hfault hdb hrow honward.execution (honward.desired hdesired)

/-- **A session with an outcome that is not to terminate** is. -/
theorem advances_repairDesired {fuel pending : Nat} {x : Execution} (hdb : store.db.Contained)
    (hlater : Db.Onward start store.db) (hsession : start.session? session.id = some session)
    (hdesired : session.desired ≠ .terminate) (hended : session.outcome.isSome = true) :
    Advances start (reconcile fuel session pending x false none).run store := by
  have hnew : ¬start.Past session.id .condemned := not_past hsession hdesired
  obtain ⟨row, hrow, honward, -⟩ := later_row hlater hsession
  unfold reconcile
  rw [if_neg fun h => hdesired h.1, if_pos ⟨hended, hdesired⟩]
  refine advances_issue fun env hfault hnumbers => ⟨session.id, .condemned, hnew, ?_⟩
  exact repairDesired_lands hfault hnumbers hdb hrow honward.execution (honward.outcome hended)

/-- A child that is still to run is terminated, or has come past a milestone meanwhile. -/
theorem advances_terminate {child : Session} (hs : store.db.Ranked rank top) (hdb : store.db.Contained)
    (hlater : Db.Onward start store.db) (hchild : start.session? child.id = some child)
    (hparent : child.parentSessionId.isSome = true) (hdesired : child.desired ≠ .terminate) :
    Advances start (transition child.executionId child.id (.setDesired .terminate .systemCascade) >>= fun _ => .ret ())
      store := by
  have hnew : ¬start.Past child.id .condemned := not_past hchild hdesired
  obtain ⟨row, hrow, honward, hid⟩ := later_row hlater hchild
  refine advances_bind (forward_transition _ _ _) hs ?_ fun _ => .ret _
  unfold transition
  rw [← honward.execution]
  refine always_lookup (fun _ _ hsmooth => hsmooth.fault) hrow ?_
  refine advances_bind (forward_setDesired _ _ _) hs ?_ fun _ => .ret _
  unfold setDesired
  split
  · rename_i hdoomed
    exact ⟨child.id, .condemned, hnew, row, hrow, hdoomed⟩
  -- a cascade notifies no parent
  have hnobody : parentForNotify row .terminate .systemCascade = .ret none := by
    unfold parentForNotify
    split
    · rw [if_neg fun h => by cases h.1]
      rfl
    · rfl
  rw [hnobody]
  refine advances_issue fun env hfault hnumbers => ?_
  rw [← hid] at hrow hnew
  exact ⟨row.id, .condemned, hnew, setDesiredTerminate_lands hfault hnumbers hdb hrow rfl
    (honward.parent ▸ hparent) .systemCascade⟩

/-- **A terminated session with an outcome** ends its execution, or takes the termination to its children. -/
theorem advances_cascade {fuel pending : Nat} {x : Execution} {child : Session} (hfuel : top < fuel)
    (hs : store.db.Ranked rank top) (hdb : store.db.Contained) (hlater : Db.Onward start store.db)
    (hsession : start.session? session.id = some session) (hdesired : session.desired = .terminate)
    (hended : session.outcome.isSome = true) (hx : store.db.execution? session.executionId = some x)
    (hchild : start.session? child.id = some child) (hparent : child.parentSessionId = some session.id)
    (hexec : child.executionId = session.executionId) (hlive : child.desired ≠ .terminate)
    (hopen : child.outcome = none) : Advances start (reconcile fuel session pending x false none).run store := by
  obtain ⟨row, hrow, honward, -⟩ := later_row hlater hsession
  unfold reconcile
  rw [if_neg fun h => by simp [Option.isNone_iff_eq_none.mp h.2] at hended, if_neg fun h => h.2 hdesired]
  split
  -- a root whose execution is still open: this pass ends it, the next one goes on
  · rename_i hroot
    have hnew : ¬start.Past session.id .settled := by
      rintro hpast
      obtain ⟨s, hs, x', hx', hout⟩ := hpast.onward hlater
      obtain rfl := Option.some.inj (hrow.symm.trans hs)
      rw [honward.execution, hx] at hx'
      obtain rfl := Option.some.inj hx'
      simp [Option.isNone_iff_eq_none.mp hroot.2.2] at hout
    refine advances_issue fun env hfault hnumbers => ⟨session.id, .settled, hnew, ?_⟩
    exact repairExecution_lands hfault hnumbers hdb hrow honward.execution (honward.outcome hended)
  · have hrest : ∀ r : Except SchedulerError Unit, Forward rank top (ExceptT.bindCont (fun _ =>
        if session.commandToken.isSome then reconcileCommand session false
        else reconcileState fuel session pending x false none) r) := by
      intro r
      cases r with
      | error e => exact .ret _
      | ok _ =>
          show Forward rank top (ExceptT.run (if session.commandToken.isSome then _ else _))
          split
          · exact forward_reconcileCommand session false
          · exact forward_reconcileState hfuel session pending x
    show Advances start ((cascadeStep session).run >>= _) store
    refine advances_bind (forward_cascadeStep session) hs ?_ hrest
    unfold cascadeStep
    rw [if_pos hdesired]
    -- the children as they are now; the one that was left may have come further
    refine advances_query (f := fun _ db => db.childrenOf session.id) fun _ => ?_
    obtain ⟨crow, hcrow, hconward, hcid⟩ := later_row hlater hchild
    have hmem : crow ∈ store.db.childrenOf session.id :=
      List.mem_filter.mpr ⟨Db.mem_of_session? hcrow, by simp [hconward.parent, hparent]⟩
    have hstep : ∀ c : Session, Forward rank top (if c.outcome.isNone ∧ c.desired ≠ .terminate then
        (transition session.executionId c.id (.setDesired .terminate .systemCascade) >>= fun _ => pure ())
        else pure PUnit.unit : Request PUnit) :=
      fun c => Goes.ite (fun _ => Goes.bind (forward_transition _ _ _) fun _ => .ret _) fun _ => .ret _
    refine advances_bind (Goes.forM hstep _) hs ?_ fun _ => .ret _
    by_cases hstill : crow.outcome.isNone ∧ crow.desired ≠ .terminate
    · rw [← hcid] at hcrow
      refine reaches_forM (W := onward rank top) (Q := fun store' => Advanced start store'.db) hstep Advanced.onward
        hmem (fun store' hs' hahead => ?_) hs (.refl store.db)
      rw [if_pos hstill, ← hexec, ← hconward.execution]
      have hparent' : crow.parentSessionId.isSome = true := by rw [hconward.parent, hparent]; rfl
      exact (advances_terminate hs' (hdb.onward hahead) hahead hcrow hparent' hstill.2).mono fun _ _ h => h.back hlater
    · -- another session of the pass was faster
      have hgained : Advanced start store.db := by
        rcases not_and_or.mp hstill with hout | hdoomed
        · refine ⟨child.id, .ended, not_past hchild (by simp [Db.passed, hopen]), crow, hcrow, ?_⟩
          simpa [Db.passed, Option.isSome_iff_ne_none] using hout
        · exact ⟨child.id, .condemned, not_past hchild hlive, crow, hcrow, not_not.mp hdoomed⟩
      exact (Goes.forM hstep _).keeps (W := onward rank top) (Q := fun store' => Advanced start store'.db) hs
        Advanced.onward hgained

/-- **What a pass does with a session** that is to terminate or has ended: its worker is lost, or it is reconciled. -/
theorem advances_loopStep {fuel : Nat} {self : WorkerId} (expired : WorkerId → Bool) (hs : store.db.Ranked rank top)
    (hdb : store.db.Contained) (hlater : Db.Onward start store.db)
    (hsession : start.session? session.id = some session) (hself : session.workerId ≠ some self)
    (hover : session.outcome.isSome = true ∨ session.desired = .terminate) (hfuel : top < fuel)
    (h : ∀ pending x, store.db.execution? session.executionId = some x →
      Advances start (reconcile fuel session pending x false none).run store) :
    Advances start (loopStep fuel session (globalLoopAction self expired session)) store := by
  have hreconcile : Advances start (loopStep fuel session .reconcile) store := by
    obtain ⟨row, hrow, honward, -⟩ := later_row hlater hsession
    obtain ⟨x, hx⟩ := hdb.execution _ _ hrow
    rw [honward.execution] at hx
    refine advances_bind (forward_reconcileOne hfuel session) hs
      (advances_reconcileOne hx fun pending => h pending x hx) fun r => ?_
    split
    · exact .ret _
    · exact .ret _
    · exact .ret _
  have hnot : ∀ {p : Prop}, ¬(session.outcome.isNone = true ∧ session.desired ≠ .terminate ∧ p) := by
    rintro p ⟨hopen, hlive, -⟩
    rcases hover with hended | hdoomed
    · simp [Option.isNone_iff_eq_none.mp hopen] at hended
    · exact hlive hdoomed
  unfold globalLoopAction
  split
  · rename_i worker hworker
    rw [if_neg fun heq : worker = self => hself (hworker.trans (congrArg some heq))]
    split
    · refine advances_bind (forward_loseCommand session) hs (advances_loseCommand hs hdb hlater hsession ?_)
        fun _ => .ret _
      rw [hworker]
      exact Option.some_ne_none worker
    · rw [if_neg fun hskip => ?_]
      · exact hreconcile
      · obtain ⟨hopen, hnone⟩ := hskip
        exact hnot (p := True) ⟨hopen, fun hdoomed => hnone (.inr (.inl hdoomed)), trivial⟩
  · rw [if_neg hnot]
    exact hreconcile

/-- **A pass over sessions** gains what it gains at one of them. -/
theorem advances_globalLoop {fuel : Nat} {config : Config} {self : WorkerId} {heartbeats : List (WorkerId × Timestamp)}
    {startedAt : Timestamp} {sessions : List Session} (hfuel : top < fuel) (hmem : session ∈ sessions)
    (hs : store.db.Ranked rank top) (hlater : Db.Onward start store.db)
    (h : ∀ (expired : WorkerId → Bool) (store' : Store), store'.db.Ranked rank top → Db.Onward start store'.db →
      Advances start (loopStep fuel session (globalLoopAction self expired session)) store') :
    Advances start (globalLoop fuel config self heartbeats startedAt sessions) store := by
  induction sessions generalizing store with
  | nil => cases hmem
  | cons head rest ih =>
      have hgo : ∀ expired, Forward rank top (loopStep fuel head (globalLoopAction self expired head)) :=
        fun expired => forward_loopStep hfuel head _
      have hrest : Forward rank top (globalLoop fuel config self heartbeats startedAt rest) :=
        forward_globalLoop hfuel config self heartbeats startedAt rest
      refine (forward_inspect _).reaches (W := onward rank top) (Q := fun store' => Advanced start store'.db) hs
        fun now store' hs' hahead => ?_
      obtain rfl | hbehind := List.mem_cons.mp hmem
      · exact advances_bind (hgo _) hs' (h _ store' hs' (hlater.trans hahead)) fun _ => Goes.bind hrest fun _ => .ret _
      · refine (hgo _).reaches (W := onward rank top) (Q := fun store' => Advanced start store'.db) hs'
          fun _ store'' hs'' hahead' => ?_
        exact advances_bind hrest hs'' (ih hbehind hs'' ((hlater.trans hahead).trans hahead')) fun _ => .ret _

theorem forward_globalPass {fuel : Nat} (hfuel : top < fuel) (config : Config) (self : WorkerId) :
    Forward rank top (globalPass fuel config self) := by
  refine Goes.bind (forward_query _) fun r => ?_
  cases r with
  | error e => exact .ret _
  | ok sessions =>
      exact Goes.bind (forward_inspect _) fun _ => Goes.bind (forward_globalLoop hfuel _ _ _ _ _) fun _ => .ret _

theorem forward_pass {p : Passer} (hfuel : top < p.fuel) : Forward rank top p.pass :=
  Goes.bind (forward_globalPass hfuel _ _) fun _ => .ret _

/-- **One pass.** -/
theorem advances_pass {p : Passer} (hfuel : top < p.fuel) (hs : store.db.Ranked rank top)
    (hmem : session ∈ store.db.findReconcilable)
    (h : ∀ (expired : WorkerId → Bool) (store' : Store), store'.db.Ranked rank top → Db.Onward store.db store'.db →
      Advances store.db (loopStep p.fuel session (globalLoopAction p.self expired session)) store') :
    Advances store.db p.pass store := by
  refine advances_bind (forward_globalPass hfuel _ _) hs ?_ fun _ => .ret _
  refine advances_query fun _ => ?_
  refine (forward_inspect _).reaches (W := onward rank top) (Q := fun store' => Advanced store.db store'.db) hs
    fun known store' hs' hahead => ?_
  obtain ⟨heartbeats, startedAt⟩ := known
  show Advances store.db (globalLoop p.fuel p.config p.self heartbeats startedAt store.db.findReconcilable >>= _) store'
  exact advances_bind (forward_globalLoop hfuel _ _ _ _ _) hs' (advances_globalLoop hfuel hmem hs' hahead h)
    fun _ => .ret _

end Steps

/-! ## Forests -/

namespace Db

/-- The link from a session to its parent. -/
def IsParent (db : Db) (p c : SessionId) : Prop := ∃ s, db.session? c = some s ∧ s.parentSessionId = some p

def IsAncestor (db : Db) : SessionId → SessionId → Prop := Relation.TransGen db.IsParent

/-- The parent links form a forest. -/
def IsForest (db : Db) : Prop := ∀ id, ¬db.IsAncestor id id

/-- Some ancestor is to terminate. -/
def IsDoomed (db : Db) (id : SessionId) : Prop := ∃ a, db.IsAncestor a id ∧ db.Past a .condemned

/-- It is set to terminate, with an outcome. -/
def IsTerminated (db : Db) (id : SessionId) : Prop :=
  ∃ s, db.session? id = some s ∧ s.desired = .terminate ∧ s.outcome.isSome = true

variable {db db' : Db} {id : SessionId}

theorem isTerminated_iff : db.IsTerminated id ↔ db.Past id .condemned ∧ db.Past id .ended := by
  constructor
  · rintro ⟨s, hs, hdesired, hout⟩
    exact ⟨⟨s, hs, hdesired⟩, ⟨s, hs, hout⟩⟩
  · rintro ⟨⟨s, hs, hdesired⟩, ⟨s', hs', hout⟩⟩
    obtain rfl := Option.some.inj (hs.symm.trans hs')
    exact ⟨s, hs, hdesired, hout⟩

theorem IsTerminated.onward (h : db.IsTerminated id) (hlater : Db.Onward db db') : db'.IsTerminated id :=
  isTerminated_iff.mpr ((isTerminated_iff.mp h).imp (·.onward hlater) (·.onward hlater))

theorem IsAncestor.onward {a : SessionId} (h : db.IsAncestor a id) (hlater : Db.Onward db db') :
    db'.IsAncestor a id := by
  refine Relation.TransGen.mono (fun p c hparent => ?_) a id h
  obtain ⟨s, hs, hp⟩ := hparent
  obtain ⟨s', hs', honward⟩ := hlater.session c s hs
  exact ⟨s', hs', honward.parent.trans hp⟩

theorem IsDoomed.onward (h : db.IsDoomed id) (hlater : Db.Onward db db') : db'.IsDoomed id := by
  obtain ⟨a, hancestor, hcondemned⟩ := h
  exact ⟨a, hancestor.onward hlater, hcondemned.onward hlater⟩

/-- **Where the termination has stopped**: a session that is to terminate, with a child that is not. -/
theorem IsAncestor.stopped {a : SessionId} (h : db.IsAncestor a id) (ha : db.Past a .condemned)
    (hid : ¬db.Past id .condemned) : ∃ p c, db.IsParent p c ∧ db.Past p .condemned ∧ ¬db.Past c .condemned := by
  induction h with
  | single hparent => exact ⟨a, _, hparent, ha, hid⟩
  | @tail b c hancestor hparent ih =>
      by_cases hb : db.Past b .condemned
      · exact ⟨b, c, hparent, hb, hid⟩
      · exact ih hb

/-! ### Depth -/

/-- The ids of the sessions. -/
def ids (db : Db) : Finset SessionId := (db.sessions.rows.map Session.id).toFinset

theorem mem_ids : id ∈ db.ids ↔ ∃ s, db.session? id = some s := by
  simp only [ids, List.mem_toFinset, List.mem_map]
  constructor
  · rintro ⟨s, hs, rfl⟩
    exact ⟨s, session?_of_mem hs⟩
  · rintro ⟨s, hs⟩
    exact ⟨s, mem_of_session? hs, id_of_session? hs⟩

theorem card_ids_le (db : Db) : db.ids.card ≤ db.sessions.rows.length := by
  simpa [ids] using List.toFinset_card_le (db.sessions.rows.map Session.id)

open Classical in
/-- How many sessions lie above one. -/
noncomputable def depth (db : Db) (id : SessionId) : Nat := (db.ids.filter (db.IsAncestor · id)).card

/-- **A forest can be ranked.** -/
theorem IsForest.ranked (h : db.IsForest) (hdb : db.Contained) : db.Ranked db.depth db.sessions.rows.length := by
  classical
  intro c s hs
  refine ⟨(Finset.card_filter_le _ _).trans (card_ids_le db), fun p hp => Finset.card_lt_card ?_⟩
  have hparent : db.IsParent p c := ⟨s, hs, hp⟩
  refine Finset.ssubset_iff_of_subset (fun a ha => ?_) |>.mpr ⟨p, ?_, fun hself => ?_⟩
  · obtain ⟨hmem, habove⟩ := Finset.mem_filter.mp ha
    exact Finset.mem_filter.mpr ⟨hmem, Relation.TransGen.tail habove hparent⟩
  · obtain ⟨row, hrow, -⟩ := hdb.parent c s hs p hp
    exact Finset.mem_filter.mpr ⟨mem_ids.mpr ⟨row, hrow⟩, Relation.TransGen.single hparent⟩
  · exact h p (Finset.mem_filter.mp hself).2

/-! ### Milestones ahead -/

instance : Fintype Milestone := ⟨{.released, .condemned, .ended, .settled}, fun m => by cases m <;> decide⟩

open Classical in
/-- The milestones that the sessions of `start` have not come past. -/
noncomputable def ahead (start db : Db) : Finset (SessionId × Milestone) :=
  (start.ids ×ˢ Finset.univ).filter fun x => ¬db.Past x.1 x.2

theorem mem_ahead {start : Db} {m : Milestone} : (id, m) ∈ ahead start db ↔ id ∈ start.ids ∧ ¬db.Past id m := by
  simp [ahead]

theorem card_ahead_le (start db : Db) : (ahead start db).card ≤ 4 * start.sessions.rows.length := by
  have hall : (start.ids ×ˢ (Finset.univ : Finset Milestone)).card = 4 * start.ids.card := by
    rw [Finset.card_product, mul_comm]
    rfl
  have hids := card_ids_le start
  classical exact ((Finset.card_filter_le _ _).trans hall.le).trans (Nat.mul_le_mul_left 4 hids)

/-- **Fewer are left once one is gained.** -/
theorem ahead_lt {start : Db} (hbefore : Db.Onward start db) (hlater : Db.Onward db db') (h : Advanced db db') :
    (ahead start db').card < (ahead start db).card := by
  obtain ⟨j, m, hno, hpast⟩ := h
  refine Finset.card_lt_card (Finset.ssubset_iff_of_subset (fun x hx => ?_) |>.mpr ⟨(j, m), ?_, fun hmem => ?_⟩)
  · obtain ⟨hmem, hahead⟩ := mem_ahead.mp hx
    exact mem_ahead.mpr ⟨hmem, fun hpast' => hahead (hpast'.onward hlater)⟩
  · obtain ⟨s', hs', -⟩ := hpast
    obtain ⟨s, hs, -⟩ := (hbefore.trans hlater).back j s' hs'
    exact mem_ahead.mpr ⟨mem_ids.mpr ⟨s, hs⟩, hno⟩
  · exact (mem_ahead.mp hmem).2 hpast

end Db

/-! ## Convergence -/

section Convergence

variable {rank : SessionId → Nat} {top : Nat} {store : Store} {p : Passer} {id : SessionId}

/-- A pass at a session that is to terminate and has no outcome. -/
theorem advances_at_open {session : Session} (hs : store.db.Ranked rank top) (hdb : store.db.Contained)
    (hfuel : top < p.fuel) (hself : session.workerId ≠ some p.self)
    (hsession : store.db.session? session.id = some session) (hdesired : session.desired = .terminate)
    (hopen : session.outcome = none) : Advances store.db p.pass store := by
  have hmem : session ∈ store.db.findReconcilable :=
    List.mem_filter.mpr ⟨Db.mem_of_session? hsession, by simp [Db.isReconcilable, hopen]⟩
  refine advances_pass hfuel hs hmem fun expired store' hs' hlater => ?_
  exact advances_loopStep expired hs' (hdb.onward hlater) hlater hsession hself (.inr hdesired) hfuel fun pending x _ =>
    advances_repairOutcome (hdb.onward hlater) hlater hsession hdesired hopen

/-- A pass at a session that is not to terminate and has an outcome. -/
theorem advances_at_ended {session : Session} (hs : store.db.Ranked rank top) (hdb : store.db.Contained)
    (hfuel : top < p.fuel) (hself : session.workerId ≠ some p.self)
    (hsession : store.db.session? session.id = some session) (hdesired : session.desired ≠ .terminate)
    (hended : session.outcome.isSome = true) : Advances store.db p.pass store := by
  have hmem : session ∈ store.db.findReconcilable :=
    List.mem_filter.mpr ⟨Db.mem_of_session? hsession, by simp [Db.isReconcilable, hended, hdesired]⟩
  refine advances_pass hfuel hs hmem fun expired store' hs' hlater => ?_
  exact advances_loopStep expired hs' (hdb.onward hlater) hlater hsession hself (.inl hended) hfuel fun pending x _ =>
    advances_repairDesired (hdb.onward hlater) hlater hsession hdesired hended

/-- A pass at a terminated session with a child that is still to run. -/
theorem advances_at_parent {session child : Session} (hs : store.db.Ranked rank top) (hdb : store.db.Contained)
    (hfuel : top < p.fuel) (hself : session.workerId ≠ some p.self)
    (hsession : store.db.session? session.id = some session) (hdesired : session.desired = .terminate)
    (hended : session.outcome.isSome = true) (hchild : store.db.session? child.id = some child)
    (hparent : child.parentSessionId = some session.id) (hlive : child.desired ≠ .terminate)
    (hopen : child.outcome = none) : Advances store.db p.pass store := by
  have hmem : session ∈ store.db.findReconcilable := by
    refine List.mem_filter.mpr ⟨Db.mem_of_session? hsession, ?_⟩
    have hbelow : (store.db.sessions.rows.any fun c =>
        c.parentSessionId = some session.id ∧ c.outcome.isNone ∧ c.desired ≠ .terminate) = true :=
      List.any_eq_true.mpr ⟨child, Db.mem_of_session? hchild, by simp [hparent, hopen, hlive]⟩
    simp only [Db.isReconcilable, hbelow, hdesired, hended, decide_true, Bool.and_self, Bool.or_true]
  have hexec : child.executionId = session.executionId := by
    obtain ⟨row, hrow, hsame⟩ := hdb.parent _ _ hchild _ hparent
    obtain rfl := Option.some.inj (hsession.symm.trans hrow)
    exact hsame.symm
  refine advances_pass hfuel hs hmem fun expired store' hs' hlater => ?_
  refine advances_loopStep expired hs' (hdb.onward hlater) hlater hsession hself (.inl hended) hfuel
    fun pending x hx => ?_
  exact advances_cascade hfuel hs' (hdb.onward hlater) hlater hsession hdesired hended hx hchild hparent hexec hlive
    hopen

/-- **As long as a session below a terminated one is left, a pass gains a milestone.** -/
theorem advances_of_left (hs : store.db.Ranked rank top) (hdb : store.db.Contained) (hfuel : top < p.fuel)
    (hself : ∀ j s, store.db.session? j = some s → s.workerId ≠ some p.self) (hdoomed : store.db.IsDoomed id)
    (hleft : ¬store.db.IsTerminated id) : Advances store.db p.pass store := by
  have hrow : ∀ {j s}, store.db.session? j = some s → store.db.session? s.id = some s := fun h =>
    Db.session?_of_mem (Db.mem_of_session? h)
  obtain ⟨a, hancestor, ha⟩ := hdoomed
  by_cases hid : store.db.Past id .condemned
  -- the termination is there, the outcome is missing
  · obtain ⟨s, hsession, hdesired⟩ := hid
    refine advances_at_open hs hdb hfuel (hself _ _ hsession) (hrow hsession) hdesired ?_
    by_contra hended
    exact hleft ⟨s, hsession, hdesired, Option.isSome_iff_ne_none.mpr hended⟩
  · obtain ⟨parentId, c, ⟨child, hchild, hparent⟩, ⟨session, hsession, hdesired⟩, hc⟩ := hancestor.stopped ha hid
    obtain rfl := Db.id_of_session? hsession
    -- outcomes are repaired before the children are looked at
    have hlive : child.desired ≠ .terminate := fun hdoomed => hc ⟨child, hchild, hdoomed⟩
    cases hended : session.outcome with
    | none => exact advances_at_open hs hdb hfuel (hself _ _ hsession) hsession hdesired hended
    | some outcome =>
        have hisSome : session.outcome.isSome = true := by rw [hended]; rfl
        cases hopen : child.outcome with
        | none =>
            exact advances_at_parent hs hdb hfuel (hself _ _ hsession) hsession hdesired hisSome (hrow hchild) hparent
              hlive hopen
        | some outcome' =>
            exact advances_at_ended hs hdb hfuel (hself _ _ hchild) (hrow hchild) hlive (by rw [hopen]; rfl)

/-- A worker with no session gets none. -/
theorem unassigned_onward {db db' : Db} {self : WorkerId} (hlater : Db.Onward db db')
    (h : ∀ j s, db.session? j = some s → s.workerId ≠ some self) :
    ∀ j s, db'.session? j = some s → s.workerId ≠ some self := by
  intro j s' hs' hself
  obtain ⟨s, hs, honward⟩ := hlater.back j s' hs'
  exact h j s hs (honward.worker _ hself)

/-- **A run of passes** at least as long as the milestones that are ahead. -/
theorem converges_of_card {start : Db} {passers : List Passer} (hs : store.db.Ranked rank top)
    (hdb : store.db.Contained) (hbefore : Db.Onward start store.db)
    (hlength : (Db.ahead start store.db).card ≤ passers.length)
    (hpassers : ∀ p ∈ passers, top < p.fuel ∧ ∀ j s, store.db.session? j = some s → s.workerId ≠ some p.self) :
    Always (M := scheduler) Smooth (globalPasses passers)
      (fun _ store' => ∀ id, start.IsDoomed id → store'.db.IsTerminated id) store := by
  have hforward : ∀ l : List Passer, (∀ p ∈ l, top < p.fuel) → Forward rank top (globalPasses l) := by
    intro l hl
    induction l with
    | nil => exact .ret _
    | cons p l ih =>
        refine Goes.bind (forward_pass (hl p List.mem_cons_self)) fun _ => ih fun q hq => ?_
        exact hl q (List.mem_cons_of_mem p hq)
  induction passers generalizing store with
  -- no milestone is ahead of any session
  | nil =>
      intro id hdoomed
      have hnone : Db.ahead start store.db = ∅ := Finset.card_eq_zero.mp (Nat.le_zero.mp hlength)
      have hpast : ∀ m, store.db.Past id m := by
        intro m
        by_contra hahead
        obtain ⟨a, hancestor, -⟩ := hdoomed
        have hmem : id ∈ start.ids := by
          obtain ⟨b, -, s, hid, -⟩ := Relation.TransGen.tail'_iff.mp hancestor
          exact Db.mem_ids.mpr ⟨s, hid⟩
        have : (id, m) ∈ Db.ahead start store.db := Db.mem_ahead.mpr ⟨hmem, hahead⟩
        simp [hnone] at this
      exact Db.isTerminated_iff.mpr ⟨hpast _, hpast _⟩
  | cons p rest ih =>
      have hfuel := (hpassers p List.mem_cons_self).1
      by_cases hdone : ∀ id, start.IsDoomed id → store.db.IsTerminated id
      · refine (hforward (p :: rest) fun q hq => (hpassers q hq).1).keeps (W := onward rank top)
          (Q := fun store' => ∀ id, start.IsDoomed id → store'.db.IsTerminated id) hs ?_ hdone
        exact fun h hlater id hdoomed => (h id hdoomed).onward hlater
      · obtain ⟨id, hdoomed, hleft⟩ : ∃ id, start.IsDoomed id ∧ ¬store.db.IsTerminated id := by
          simpa using hdone
        have hgains : Advances store.db p.pass store := advances_of_left hs hdb hfuel (hpassers p List.mem_cons_self).2
          (hdoomed.onward hbefore) hleft
        have hpass : Forward rank top p.pass := forward_pass hfuel
        refine Always.bind ((hpass store hs).and hgains) ?_
        rintro _ store' ⟨hlater, hgained⟩
        have hlt := Db.ahead_lt hbefore hlater hgained
        refine ih (hs.onward hlater) (hdb.onward hlater) (hbefore.trans hlater) ?_ fun q hq => ?_
        · simp only [List.length_cons] at hlength
          omega
        · have hq' := hpassers q (List.mem_cons_of_mem p hq)
          exact ⟨hq'.1, unassigned_onward hlater hq'.2⟩

/-- **Termination reaches everything below it.** Where the sessions form a forest inside their executions and nothing
fails, four passes for each session are enough, whoever makes them: every session with a terminated ancestor is
then set to terminate, with an outcome. -/
theorem passes_converge (hforest : store.db.IsForest) (hdb : store.db.Contained) {passers : List Passer}
    (hlength : 4 * store.db.sessions.rows.length ≤ passers.length)
    (hpassers : ∀ p ∈ passers, store.db.sessions.rows.length < p.fuel ∧
      ∀ j s, store.db.session? j = some s → s.workerId ≠ some p.self) :
    Always (M := scheduler) Smooth (globalPasses passers)
      (fun _ store' => ∀ id, store.db.IsDoomed id → store'.db.IsTerminated id) store :=
  converges_of_card (hforest.ranked hdb) hdb (.refl _) ((Db.card_ahead_le _ _).trans hlength) hpassers

end Convergence

/-! ### A family -/

/-- It has ended, and its worker has not answered yet. -/
def endedRoot : Session :=
  { newSession "r" "x" "a" none none none none "lead" none "" 1 with
    desired := .terminate, executorState := .running, outcome := some .canceled, workerId := some "w" }

/-- The termination has not come to it. -/
def leftChild (executionId : ExecutionId) : Session :=
  newSession "m" executionId "a" (some "r") none none none "mate" none "" 2

def familyExecution (id : ExecutionId) (outcome : Option Outcome) : Execution where
  id := id
  projectId := none
  title := none
  desired := .run
  outcome := outcome
  maxDepth := 2
  maxWidth := 5
  sandboxPolicy := ""
  createdAt := 1
  lastActivityAt := 1

/-- An ended root with a child, in the root's execution or in another one. -/
def family (executionId : ExecutionId) : Store where
  db := { Db.empty with
    executions := ⟨[familyExecution "x" (some .canceled), familyExecution "y" none], by decide⟩
    sessions := ⟨[endedRoot, leftChild executionId], by
      show ["r", "m"].Nodup
      decide⟩ }
  heartbeats := [("w", 0)]
  startedAt := 0
  drawn := []

theorem family_session {executionId : ExecutionId} {id : SessionId} {s : Session}
    (h : (family executionId).db.session? id = some s) :
    id = "r" ∧ s = endedRoot ∨ id = "m" ∧ s = leftChild executionId := by
  have hid := Db.id_of_session? h
  rcases Db.mem_of_session? h with _ | ⟨_, _ | ⟨_, hnone⟩⟩
  · exact .inl ⟨hid.symm, rfl⟩
  · exact .inr ⟨hid.symm, rfl⟩
  · cases hnone

theorem family_isParent {executionId : ExecutionId} {p c : SessionId}
    (h : (family executionId).db.IsParent p c) : p = "r" ∧ c = "m" := by
  obtain ⟨s, hs, hp⟩ := h
  rcases family_session hs with ⟨-, rfl⟩ | ⟨rfl, rfl⟩
  · cases hp
  · exact ⟨(Option.some.inj hp).symm, rfl⟩

theorem family_isForest (executionId : ExecutionId) : (family executionId).db.IsForest := by
  intro id hcycle
  obtain ⟨b, hfirst, -⟩ := Relation.TransGen.head'_iff.mp hcycle
  obtain ⟨c, -, hlast⟩ := Relation.TransGen.tail'_iff.mp hcycle
  have hclash : ("r" : String) = "m" := (family_isParent hfirst).1.symm.trans (family_isParent hlast).2
  exact absurd hclash (by decide)

theorem family_isDoomed (executionId : ExecutionId) : (family executionId).db.IsDoomed "m" :=
  ⟨"r", Relation.TransGen.single ⟨leftChild executionId, rfl, rfl⟩, endedRoot, rfl, rfl⟩

theorem family_worker {executionId : ExecutionId} {id : SessionId} {s : Session}
    (h : (family executionId).db.session? id = some s) : s.workerId ≠ some "v" := by
  rcases family_session h with ⟨-, rfl⟩ | ⟨-, rfl⟩
  · decide
  · exact fun hsome => by cases hsome

/-- In the root's execution, the child is reached. -/
theorem passes_converge_family :
    Always (M := scheduler) Smooth (globalPasses (List.replicate 8 ⟨3, ⟨60, 30⟩, "v"⟩))
      (fun _ store' => ∀ id, (family "x").db.IsDoomed id → store'.db.IsTerminated id) (family "x") := by
  refine passes_converge (family_isForest "x") ⟨fun id s hs => ?_, fun id s hs p hp => ?_⟩ (by decide)
    fun p hp => ?_
  · rcases family_session hs with ⟨-, rfl⟩ | ⟨-, rfl⟩
    · exact ⟨_, rfl⟩
    · exact ⟨_, rfl⟩
  · rcases family_session hs with ⟨-, rfl⟩ | ⟨-, rfl⟩
    · cases hp
    · cases hp
      exact ⟨endedRoot, rfl, rfl⟩
  · obtain rfl := List.eq_of_mem_replicate hp
    exact ⟨by decide, fun j s hs => family_worker hs⟩

instance (env : scheduler.Input) (store : scheduler.State) : Decidable (Smooth env store) :=
  inferInstanceAs (Decidable (Env.fault env = none ∧ (Store.db store).events.next + 2 ≤ maxRowId))

/-- A pass over a child in another execution: `transition` looks it up in the root's and does not find it. -/
theorem pass_family (fuel : Nat) :
    steady (M := scheduler) Smooth (⟨0, "", "", 0, none, false⟩ : Env) (Passer.pass ⟨fuel, ⟨60, 30⟩, "v"⟩)
      (family "y") = some (⟨⟩, family "y") := by
  rfl

/-- **Across executions the termination stops**: however many passes there are, there is a run of them that leaves
the child as it is. -/
theorem passes_not_converge : ¬∀ store : Store, store.db.IsForest →
    (∀ id s, store.db.session? id = some s → (∃ x, store.db.execution? s.executionId = some x) ∧
      ∀ parentId, s.parentSessionId = some parentId → ∃ p, store.db.session? parentId = some p) →
    ∃ n fuel, ∀ passers : List Passer, n ≤ passers.length →
      (∀ p ∈ passers, fuel ≤ p.fuel ∧ ∀ j s, store.db.session? j = some s → s.workerId ≠ some p.self) →
      Always (M := scheduler) Smooth (globalPasses passers)
        (fun _ store' => ∀ id, store.db.IsDoomed id → store'.db.IsTerminated id) store := by
  intro hall
  obtain ⟨n, fuel, hconverges⟩ := hall (family "y") (family_isForest "y") fun id s hs => by
    rcases family_session hs with ⟨-, rfl⟩ | ⟨-, rfl⟩
    · exact ⟨⟨_, rfl⟩, fun p hp => by cases hp⟩
    · refine ⟨⟨_, rfl⟩, fun p hp => ?_⟩
      cases hp
      exact ⟨endedRoot, rfl⟩
  have hpasses := hconverges (List.replicate n ⟨fuel, ⟨60, 30⟩, "v"⟩) (by simp) fun p hp => by
    obtain rfl := List.eq_of_mem_replicate hp
    exact ⟨le_rfl, fun j s hs => family_worker hs⟩
  have hdone := hpasses.of_steady (steady_forM fun p hp => by
    obtain rfl := List.eq_of_mem_replicate hp
    exact pass_family fuel)
  obtain ⟨s, hs, hdesired, -⟩ := hdone "m" (family_isDoomed "y")
  rcases family_session hs with ⟨hm, -⟩ | ⟨-, rfl⟩
  · exact absurd hm (by decide)
  · cases hdesired

end AgentBeacon
