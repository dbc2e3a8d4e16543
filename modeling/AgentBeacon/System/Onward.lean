import AgentBeacon.Lib.Alone
import AgentBeacon.System.Effects
import AgentBeacon.System.Routes
import Mathlib.Data.Fintype.EquivFin

/-!
# `System.Onward` — what a pass over all sessions never takes back

A reconcile loop that is not asked for commands assigns nothing and recovers nothing. Whatever else it does, a
session that is to terminate stays so, an outcome stays, and a worker that is gone does not come back.
-/

namespace AgentBeacon
open Relational Transaction Interleave Interleave.Way Transition Reconciler

/-- The later row of a session. -/
structure Session.Onward (s s' : Session) : Prop where
  execution : s'.executionId = s.executionId
  parent : s'.parentSessionId = s.parentSessionId
  worker : ∀ w, s'.workerId = some w → s.workerId = some w
  outcome : s.outcome.isSome = true → s'.outcome.isSome = true
  desired : s.desired = .terminate → s'.desired = .terminate

theorem Session.Onward.refl (s : Session) : s.Onward s :=
  ⟨rfl, rfl, fun _ h => h, fun h => h, fun h => h⟩

theorem Session.Onward.trans {s s' s'' : Session} (h : s.Onward s') (h' : s'.Onward s'') : s.Onward s'' :=
  ⟨h'.execution.trans h.execution, h'.parent.trans h.parent, fun w hw => h.worker w (h'.worker w hw),
    fun hs => h'.outcome (h.outcome hs), fun hs => h'.desired (h.desired hs)⟩

namespace Db

/-- The same sessions and executions, each of them later. -/
structure Onward (db db' : Db) : Prop where
  session : ∀ id s, db.session? id = some s → ∃ s', db'.session? id = some s' ∧ s.Onward s'
  back : ∀ id s', db'.session? id = some s' → ∃ s, db.session? id = some s ∧ s.Onward s'
  execution : ∀ id x, db.execution? id = some x →
    ∃ x', db'.execution? id = some x' ∧ (x.outcome.isSome = true → x'.outcome.isSome = true)

theorem Onward.refl (db : Db) : Onward db db :=
  ⟨fun _ s hs => ⟨s, hs, .refl s⟩, fun _ s hs => ⟨s, hs, .refl s⟩, fun _ x hx => ⟨x, hx, id⟩⟩

theorem Onward.trans {db db' db'' : Db} (h : Onward db db') (h' : Onward db' db'') : Onward db db'' := by
  refine ⟨fun id s hs => ?_, fun id s'' hs'' => ?_, fun id x hx => ?_⟩
  · obtain ⟨s', hs', hlater⟩ := h.session id s hs
    obtain ⟨s'', hs'', hlater'⟩ := h'.session id s' hs'
    exact ⟨s'', hs'', hlater.trans hlater'⟩
  · obtain ⟨s', hs', hlater'⟩ := h'.back id s'' hs''
    obtain ⟨s, hs, hlater⟩ := h.back id s' hs'
    exact ⟨s, hs, hlater.trans hlater'⟩
  · obtain ⟨x', hx', hlater⟩ := h.execution id x hx
    obtain ⟨x'', hx'', hlater'⟩ := h'.execution id x' hx'
    exact ⟨x'', hx'', fun hx => hlater' (hlater hx)⟩

end Db

/-- The transactions that insert or delete sessions, give one a worker, or recover one. -/
def unsettles : Write → Bool
  | .createSession _ _ _ _ _ _ | .createWithWidthGuard _ _ _ _ _ _ _ | .continueFrom _ _ _ _
  | .deleteSession _ | .issueAssign _ _ _ | .recover _ _ _ => true
  | _ => false

theorem onward_of_update {w : Write} {env : Env} (hw : unsettles w = false) {s : Session} {u : SessionUpdate}
    (hu : w.updates env s u) : s.Onward (u.apply s) := by
  unfold SessionUpdate.apply
  split
  · rename_i hm
    cases u with
    | assign token now payload worker =>
        obtain ⟨session, resume, rfl, -⟩ := hu
        cases hw
    | recover clear =>
        obtain ⟨session, message, rfl, -⟩ := hu
        cases hw
    -- the guards of `stop` and `resume` exclude a session that is to terminate
    | stop desiredBy =>
        have hrun : s.desired = .run := of_decide_eq_true hm
        refine ⟨rfl, rfl, fun _ h => h, fun h => h, fun h => ?_⟩
        rw [hrun] at h
        cases h
    | run desiredBy => exact ⟨rfl, rfl, fun _ h => h, fun h => h, fun h => absurd h (of_decide_eq_true hm)⟩
    | resume desiredBy =>
        have hstop : s.desired = .stop := of_decide_eq_true hm
        refine ⟨rfl, rfl, fun _ h => h, fun h => h, fun h => ?_⟩
        rw [hstop] at h
        cases h
    | terminate | terminateFailed => exact ⟨rfl, rfl, fun _ h => h, fun _ => rfl, fun _ => rfl⟩
    | repairDesired => exact ⟨rfl, rfl, fun _ h => h, fun h => h, fun _ => rfl⟩
    | repairRootOutcome | repairChildOutcome => exact ⟨rfl, rfl, fun _ h => h, fun _ => rfl, fun h => h⟩
    -- the three that take the worker away
    | detectCrash | releaseWorker | ackTerminalCancel =>
        exact ⟨rfl, rfl, fun _ h => (by cases h), fun h => h, fun h => h⟩
    | _ => exact ⟨rfl, rfl, fun _ h => h, fun h => h, fun h => h⟩
  · exact .refl s

theorem onward_of_executionUpdate {w : Write} (hw : unsettles w = false) {id : ExecutionId}
    {u : ExecutionUpdate} (hu : w.updatesExecution id u) (x : Execution) :
    x.outcome.isSome = true → (u.apply x).outcome.isSome = true := by
  unfold ExecutionUpdate.apply
  split
  · cases u with
    | terminal outcome now => exact fun _ => rfl
    | touchLastActivity now => exact fun h => h
    | recover =>
        obtain ⟨_, _, _, rfl, -⟩ := hu
        cases hw
  · exact fun h => h

/-- **One statement of such a transaction only goes forward.** -/
theorem onward_of_step {w : Write} {env : Env} (hw : unsettles w = false) {db db' : Db}
    (h : Db.Step (w.permit env) db db') : Db.Onward db db' := by
  have hupdated : ∀ {i u}, (∀ s, db.session? i = some s → w.updates env s u) →
      Db.Onward db (db.updateSession i u) := by
    intro i u hu
    refine ⟨fun id s hs => ?_, fun id s' hs' => ?_, fun id x hx => ⟨x, hx, fun h => h⟩⟩
    · rw [Db.session?_updateSession]
      by_cases hid : id = i
      · subst hid
        rw [if_pos rfl, hs]
        exact ⟨_, rfl, onward_of_update hw (hu s hs)⟩
      · rw [if_neg hid]
        exact ⟨s, hs, .refl s⟩
    · rw [Db.session?_updateSession] at hs'
      by_cases hid : id = i
      · subst hid
        rw [if_pos rfl, Option.map_eq_some_iff] at hs'
        obtain ⟨s, hs, rfl⟩ := hs'
        exact ⟨s, hs, onward_of_update hw (hu s hs)⟩
      · rw [if_neg hid] at hs'
        exact ⟨s', hs', .refl s'⟩
  cases h with
  | updateSession hu hstop => exact hupdated hu
  | @stopSession i desiredBy hu =>
      have hlater : Db.Onward db (db.updateSession i (.stop desiredBy)) := hupdated hu
      exact ⟨hlater.session, hlater.back, hlater.execution⟩
  | @updateExecution i u hu =>
      refine ⟨fun id s hs => ⟨s, hs, .refl s⟩, fun id s hs => ⟨s, hs, .refl s⟩, fun id x hx => ?_⟩
      rw [Db.execution?_updateExecution]
      by_cases hid : id = i
      · subst hid
        rw [if_pos rfl, hx]
        exact ⟨_, rfl, onward_of_executionUpdate hw hu x⟩
      · rw [if_neg hid]
        exact ⟨x, hx, fun h => h⟩
  | insertSession ht hexec hparent hi =>
      obtain ⟨_, _, _, _, _, _, _, _, -, ⟨rfl, -⟩ | ⟨_, _, _, rfl, -⟩ | ⟨_, _, _, _, rfl, -⟩⟩ := hi
      · cases hw
      · cases hw
      · cases hw
  | @insertExecution row executions ht hi =>
      refine ⟨fun id s hs => ⟨s, hs, .refl s⟩, fun id s hs => ⟨s, hs, .refl s⟩, fun id x hx => ⟨x, ?_, fun h => h⟩⟩
      show executions.find? id = some x
      rw [Table.find?_insert? ht, if_neg]
      · exact hx
      · rintro rfl
        have hnone : db.executions.find? row.id = none := (Table.insert?_eq_some ht).1
        rw [show db.executions.find? row.id = some x from hx] at hnone
        cases hnone
  | deleteSessions hd =>
      obtain ⟨_, rfl, -⟩ := hd
      cases hw
  | pushTask hs hp => exact ⟨fun id s hs => ⟨s, hs, .refl s⟩, fun id s hs => ⟨s, hs, .refl s⟩,
      fun id x hx => ⟨x, hx, fun h => h⟩⟩
  | deleteTasks hd => exact ⟨fun id s hs => ⟨s, hs, .refl s⟩, fun id s hs => ⟨s, hs, .refl s⟩,
      fun id x hx => ⟨x, hx, fun h => h⟩⟩
  | deleteTask hd => exact ⟨fun id s hs => ⟨s, hs, .refl s⟩, fun id s hs => ⟨s, hs, .refl s⟩,
      fun id x hx => ⟨x, hx, fun h => h⟩⟩
  | pushEvent hl => exact ⟨fun id s hs => ⟨s, hs, .refl s⟩, fun id s hs => ⟨s, hs, .refl s⟩,
      fun id x hx => ⟨x, hx, fun h => h⟩⟩
  | agents a b => exact ⟨fun id s hs => ⟨s, hs, .refl s⟩, fun id s hs => ⟨s, hs, .refl s⟩,
      fun id x hx => ⟨x, hx, fun h => h⟩⟩

theorem onward_of_write {w : Write} (hw : unsettles w = false) (env : Env) (db : Db) :
    Db.Onward db (w.run env db).2 :=
  (w.steps env db).keeps (I := Db.Onward db) (.refl db) fun _ _ hstep h => h.trans (onward_of_step hw hstep)

/-! ## The way forward -/

/-- No database operation fails, and there are numbers left for its events. -/
def Smooth (env : Env) (store : Store) : Prop :=
  env.fault = none ∧ store.db.events.next + 2 ≤ maxRowId

/-- Every session ranks below `top` and above its parent. -/
def Db.Ranked (rank : SessionId → Nat) (top : Nat) (db : Db) : Prop :=
  ∀ id s, db.session? id = some s → rank id ≤ top ∧ ∀ p, s.parentSessionId = some p → rank p < rank id

theorem Db.Ranked.onward {rank : SessionId → Nat} {top : Nat} {db db' : Db} (h : db.Ranked rank top)
    (hlater : Db.Onward db db') : db'.Ranked rank top := by
  intro id s' hs'
  obtain ⟨s, hs, hrow⟩ := hlater.back id s' hs'
  refine ⟨(h id s hs).1, fun p hp => (h id s hs).2 p ?_⟩
  rw [← hrow.parent, hp]

/-- What the passes over a forest follow when nothing fails. -/
def onward (rank : SessionId → Nat) (top : Nat) : Way scheduler where
  may := Smooth
  holds store := store.db.Ranked rank top
  ahead store store' := Db.Onward store.db store'.db
  refl store := .refl store.db
  trans h h' := h.trans h'
  keeps h hlater := h.onward hlater

/-- A request whose calls all go forward. -/
abbrev Forward (rank : SessionId → Nat) (top : Nat) {α : Type} (p : Request α) : Prop :=
  (onward rank top).Goes p

section Routes

variable {rank : SessionId → Nat} {top : Nat}

theorem forward_query {α : Type} (f : Env → Db → α) : Forward rank top (query f) :=
  Goes.perform (fun _ => ⟨⟨0, "", "", 0, none, false⟩, rfl⟩) fun _ store _ => .refl store.db

theorem forward_inspect {α : Type} (f : Env → Store → α) : Forward rank top (inspect f) :=
  Goes.perform (fun _ => ⟨⟨0, "", "", 0, none, false⟩, rfl⟩) fun _ store _ => .refl store.db

theorem forward_issue {w : Write} (h : unsettles w = false) : Forward rank top (issue w) := by
  refine Goes.perform (fun store => ?_) fun env store _ => onward_of_write h env store.db
  obtain ⟨uuid, hfresh⟩ := Infinite.exists_notMem_finset store.drawn.toFinset
  exact ⟨⟨0, uuid, "", 0, none, false⟩, decide_eq_true fun hmem => hfresh (List.mem_toFinset.mpr hmem)⟩

theorem forward_handler {α β : Type} {p : Handler α} {f : α → Handler β} (hp : Forward rank top p.run)
    (hf : ∀ a, Forward rank top (f a).run) : Forward rank top (p >>= f).run := by
  show Forward rank top (p.run >>= ExceptT.bindCont f)
  refine Goes.bind hp fun r => ?_
  cases r with
  | error e => exact .ret _
  | ok a => exact hf a

theorem forward_lift {α : Type} {p : Request α} (h : Forward rank top p) :
    Forward rank top (ExceptT.lift p : Handler α).run := Goes.bind h fun _ => .ret _

theorem forward_getSession (id : SessionId) : Forward rank top (getSession id) :=
  Goes.bind (forward_query _) fun _ => .ret _

theorem forward_getExecution (id : ExecutionId) : Forward rank top (getExecution id) :=
  Goes.bind (forward_query _) fun _ => .ret _

theorem forward_getAgent (id : AgentId) : Forward rank top (getAgent id) := Goes.bind (forward_query _) fun _ => .ret _

theorem forward_parentForNotify (session : Session) (desired : Desired) (desiredBy : DesiredBy) :
    Forward rank top (parentForNotify session desired desiredBy) := by
  unfold parentForNotify
  split
  · split
    · refine Goes.bind (forward_getSession _) fun parent => Goes.bind (forward_getExecution _) fun execution => ?_
      split
      · exact .ret _
      · exact .ret _
    · exact .ret _
  · exact .ret _

theorem forward_setDesired (session : Session) (desired : Desired) (desiredBy : DesiredBy) :
    Forward rank top (setDesired session desired desiredBy) := by
  unfold setDesired
  split
  · exact .ret _
  · split
    · exact .ret _
    · refine Goes.bind (forward_parentForNotify _ _ _) fun parent => ?_
      cases desired with
      | terminate => exact forward_issue rfl
      | stop => exact forward_issue rfl
      | run => exact forward_issue rfl

theorem forward_lookup (executionId : ExecutionId) (id : SessionId) : Forward rank top (lookup executionId id) := by
  refine Goes.bind (forward_getSession id) fun r => ?_
  cases r with
  | error e => exact .ret _
  | ok s => exact .ret _

theorem forward_act (session : Session) (action : Action) : Forward rank top (act session action) := by
  cases action with
  | setDesired desired desiredBy => exact Goes.bind (forward_setDesired _ _ _) fun _ => .ret _
  | sendMessage args =>
      refine Goes.bind (Goes.bind (forward_getExecution _) fun r => ?_) fun _ => .ret _
      cases r with
      | error e => exact .ret _
      | ok x => exact forward_issue rfl
  | delegate =>
      refine Goes.bind (forward_getExecution _) fun r => ?_
      cases r with
      | error e => exact .ret _
      | ok x => exact .ret _
  | setExecutorState state worker crashMeta =>
      exact Goes.ite (fun _ => .ret _) fun _ => Goes.bind (forward_issue rfl) fun _ => .ret _
  | detectCrash decidedOn noticed => exact Goes.bind (forward_issue rfl) fun _ => .ret _
  | retryRecovery => exact Goes.bind (forward_issue rfl) fun _ => .ret _

theorem forward_transition (executionId : ExecutionId) (id : SessionId) (action : Action) :
    Forward rank top (transition executionId id action) := by
  refine Goes.bind (forward_lookup executionId id) fun r => ?_
  cases r with
  | error e => exact .ret _
  | ok s => exact forward_act s action

theorem forward_terminateSession (executionId : ExecutionId) (id : SessionId) (desiredBy : DesiredBy) :
    Forward rank top (terminateSession executionId id desiredBy) := by
  refine Goes.bind (forward_lookup executionId id) fun r => ?_
  cases r with
  | error e => exact .ret _
  | ok s => exact forward_setDesired s _ _

theorem forward_terminateSessionFailed (executionId : ExecutionId) (id : SessionId) (desiredBy : DesiredBy)
    (requireCrashed : Bool) : Forward rank top (terminateSessionFailed executionId id desiredBy requireCrashed) := by
  refine Goes.bind (forward_lookup executionId id) fun r => ?_
  cases r with
  | error e => exact .ret _
  | ok s =>
      exact Goes.ite (fun _ => .ret _) fun _ => forward_issue rfl

theorem forward_notice (session : Session) (payload : Json) : Forward rank top (notice session payload) :=
  Goes.bind (forward_issue rfl) fun _ => .ret _

theorem forward_loseCommand (session : Session) : Forward rank top (loseCommand session) := by
  have hdetect : ∀ noticed, Forward rank top (do
      let _ ← transition session.executionId session.id (.detectCrash session noticed)
      pure ()) := fun noticed => Goes.bind (forward_transition _ _ _) fun _ => .ret _
  exact Goes.ite (fun _ => Goes.bind (forward_notice _ _) hdetect) fun _ => hdetect false

theorem forward_getChildren (id : SessionId) : Forward rank top (getChildren id) := forward_query _

theorem forward_terminateChildren (session : Session) : Forward rank top (terminateChildren session).run := by
  unfold terminateChildren
  refine forward_handler (p := attempt (getChildren session.id)) (forward_getChildren _) fun children => ?_
  refine forward_lift (Goes.forM (fun child => ?_) children)
  exact Goes.ite (fun _ => Goes.bind (forward_transition _ _ _) fun _ => .ret _) fun _ => .ret _

theorem forward_cascadeStep (session : Session) : Forward rank top (cascadeStep session).run := by
  unfold cascadeStep
  split
  · exact forward_terminateChildren session
  · exact .ret _

theorem forward_terminateChild (session child : Session) : Forward rank top (terminateChild session child).run := by
  unfold terminateChild
  split
  · refine forward_handler (forward_lift (forward_transition _ _ _)) fun r => ?_
    cases r with
    | ok a => exact .ret _
    | error e =>
        refine forward_handler (forward_lift ?_) fun b => ?_
        · cases e with
          | ratchet =>
              refine Goes.bind (forward_getSession _) fun r => ?_
              cases r with
              | error e => exact .ret _
              | ok c => exact .ret _
          | _ => exact .ret _
        · cases b with
          | true => exact .ret _
          | false => exact .ret _
  · exact .ret _

/-! ### Cascades

They end because a child ranks above its parent: what is left of the fuel covers the ranks that are left. -/

/-- A read that succeeds, with what holds of the state it found. -/
theorem forward_of_query {α β : Type} {f : Env → Db → α} {k : Except SchedulerError α → Request β}
    (h : ∀ env db, Db.Ranked rank top db → Forward rank top (k (.ok (f env db)))) :
    Forward rank top (query f >>= k) := by
  intro store hs
  refine ⟨⟨⟨0, "", "", 0, none, false⟩, rfl⟩, fun env _ hsmooth => ?_⟩
  have hreply : (Op.exec (.read fun env store => f env (Store.db store)) env store).1 =
      (.ok (f env store.db) : Except SchedulerError α) := by
    unfold Op.exec
    dsimp only
    rw [hsmooth.1]
  show Always (onward rank top).may (k (Op.exec (.read fun env store => f env (Store.db store)) env store).1)
    (fun _ store' => Db.Onward store.db (Store.db store')) store
  rw [hreply]
  exact h env store.db hs store hs

theorem forward_of_children {β : Type} {id : SessionId} {f : List Session → Handler β}
    (h : ∀ children : List Session, (∀ c ∈ children, rank id < rank c.id) → Forward rank top (f children).run) :
    Forward rank top (attempt (getChildren id) >>= f).run := by
  show Forward rank top (query (fun _ db => db.childrenOf id) >>= ExceptT.bindCont f)
  refine forward_of_query fun _ db hdb => h _ fun c hc => ?_
  obtain ⟨hmem, hparent⟩ := List.mem_filter.mp hc
  exact (hdb c.id c (Db.session?_of_mem hmem)).2 id (of_decide_eq_true hparent)

theorem forward_of_session {β : Type} {id : SessionId} {f : Session → Handler β}
    (h : ∀ s : Session, s.id = id → rank id ≤ top → Forward rank top (f s).run) :
    Forward rank top (attempt (getSession id) >>= f).run := by
  show Forward rank top (getSession id >>= ExceptT.bindCont f)
  show Forward rank top (query (fun _ db => db.session? id) >>= fun row =>
    ExceptT.bindCont f (orNotFound ("session not found: " ++ id) row))
  refine forward_of_query fun _ db hdb => ?_
  cases hs : db.session? id with
  | none => exact .ret _
  | some s => exact h s (Db.id_of_session? hs) (hdb id s hs).1

theorem forward_cascadeChildren {fuel : Nat} {session : Session} (hrank : rank session.id ≤ top)
    (hfuel : top < fuel + rank session.id) : Forward rank top (cascadeChildren fuel session).run := by
  induction fuel generalizing session with
  -- a session that is in the tree ranks at most `top`
  | zero => omega
  | succ fuel ih =>
      refine forward_of_children fun children hchildren => ?_
      have hloop : ∀ l : List Session, (∀ c ∈ l, rank session.id < rank c.id) →
          Forward rank top (ExceptT.run (l.forM fun child => do
            terminateChild session child
            let fresh ← attempt (getSession child.id)
            cascadeChildren fuel fresh)) := by
        intro l hl
        induction l with
        | nil => exact .ret _
        | cons child l ihl =>
            refine forward_handler ?_ fun _ => ihl fun c hc => hl c (List.mem_cons_of_mem _ hc)
            refine forward_handler (forward_terminateChild session child) fun _ => ?_
            refine forward_of_session fun fresh hfresh hle => ih ?_ ?_
            · rw [hfresh]
              exact hle
            · -- one level down, one step less of fuel
              have habove := hl child List.mem_cons_self
              rw [hfresh]
              omega
      exact hloop children hchildren

theorem forward_acceptRatchet (message : String) (r : Except Rejected Unit) :
    Forward rank top (acceptRatchet message r).run := by
  unfold acceptRatchet
  split
  · exact .ret _
  · exact .ret _
  · exact .ret _

/-- The rest of a cascade, from a session as it is now. -/
theorem forward_cascadeFresh {β : Type} {fuel : Nat} (hfuel : top < fuel) {id : SessionId} {k : Handler β}
    (hk : Forward rank top k.run) :
    Forward rank top (ExceptT.run (do
      let fresh ← attempt (getSession id)
      cascadeChildren fuel fresh
      k)) := by
  refine forward_of_session fun fresh hfresh hle => ?_
  refine forward_handler (forward_cascadeChildren ?_ ?_) fun _ => hk
  · rw [hfresh]
    exact hle
  · omega

theorem forward_terminateAndCascade {fuel : Nat} (hfuel : top < fuel) (session : Session) (desiredBy : DesiredBy) :
    Forward rank top (terminateAndCascade fuel session desiredBy).run := by
  refine forward_handler (forward_lift (forward_terminateSession _ _ _)) fun r => ?_
  refine forward_handler (forward_acceptRatchet _ r) fun _ => ?_
  refine forward_of_session fun fresh hfresh hle => forward_cascadeChildren ?_ ?_
  · rw [hfresh]
    exact hle
  · omega

theorem forward_isAgentDeleted (id : AgentId) : Forward rank top (isAgentDeleted id) := by
  refine Goes.bind (forward_getAgent id) fun r => ?_
  split
  · exact .ret _
  · exact .ret _
  · exact .ret _

theorem forward_recoverable (session : Session) (pendingTurns : Nat) :
    Forward rank top (recoverable session pendingTurns).run := by
  unfold recoverable
  split
  · exact .ret _
  · refine forward_handler (forward_getExecution _) fun execution => ?_
    split
    · exact .ret _
    · refine forward_handler (forward_getAgent _) fun agent => ?_
      split
      · exact .ret _
      · split
        · exact .ret _
        · exact .ret _

theorem forward_reconcileCommand (session : Session) (commandOk : Bool) :
    Forward rank top (reconcileCommand session commandOk).run := by
  unfold reconcileCommand
  split
  · exact forward_issue rfl
  · refine forward_handler (forward_lift (forward_inspect _)) fun now => ?_
    split
    · exact forward_handler (forward_lift (forward_loseCommand session)) fun _ => .ret _
    · split
      · split
        · exact forward_issue rfl
        · exact forward_issue rfl
        · exact .ret _
      · exact .ret _

theorem forward_reconcileCrashed {fuel : Nat} (hfuel : top < fuel) (session : Session) (pendingTurns : Nat) :
    Forward rank top (reconcileCrashed fuel session pendingTurns).run := by
  unfold reconcileCrashed
  refine forward_handler (forward_lift (forward_isAgentDeleted _)) fun deleted => ?_
  split
  · exact forward_handler (forward_terminateAndCascade hfuel _ _) fun _ => .ret _
  · refine forward_handler (forward_recoverable _ _) fun retry => ?_
    split
    · refine forward_handler (forward_lift (forward_transition _ _ _)) fun r => ?_
      cases r with
      | ok a => exact .ret _
      | error e => exact .ret _
    · refine forward_handler (forward_lift (forward_terminateSessionFailed _ _ _ _)) fun r => ?_
      split
      · exact .ret _
      · exact .ret _
      · exact forward_handler (forward_lift (forward_notice _ _)) fun _ => forward_cascadeFresh hfuel (.ret _)

theorem forward_finalized (session : Session) : Forward rank top (finalized session).run :=
  forward_handler (forward_issue rfl) fun _ => .ret _

theorem forward_reconcileState {fuel : Nat} (hfuel : top < fuel) (session : Session) (pendingTurns : Nat)
    (execution : Execution) :
    Forward rank top (reconcileState fuel session pendingTurns execution false none).run := by
  unfold reconcileState
  simp only [Bool.false_eq_true, false_and, and_false, if_false]
  split
  · refine forward_handler (forward_lift (forward_isAgentDeleted _)) fun deleted => ?_
    split
    · exact forward_handler (forward_terminateAndCascade hfuel _ _) fun _ => .ret _
    · exact .ret _
  · exact .ret _
  · exact .ret _
  · exact forward_reconcileCrashed hfuel session pendingTurns
  · exact .ret _
  · exact .ret _
  · exact .ret _
  · split
    · exact .ret _
    · exact forward_finalized session
  · exact forward_finalized session
  · exact forward_finalized session

theorem forward_reconcileWork {fuel : Nat} (hfuel : top < fuel) (session : Session) (pendingTurns : Nat)
    (execution : Execution) :
    Forward rank top (ExceptT.run (do
      cascadeStep session
      if session.commandToken.isSome then reconcileCommand session false
      else reconcileState fuel session pendingTurns execution false none)) := by
  refine forward_handler (forward_cascadeStep session) fun _ => ?_
  split
  · exact forward_reconcileCommand session false
  · exact forward_reconcileState hfuel session pendingTurns execution

theorem forward_reconcile {fuel : Nat} (hfuel : top < fuel) (session : Session) (pendingTurns : Nat)
    (execution : Execution) :
    Forward rank top (reconcile fuel session pendingTurns execution false none).run := by
  unfold reconcile
  split
  · split
    · exact forward_issue rfl
    · exact forward_issue rfl
  · split
    · exact forward_issue rfl
    · split
      · exact forward_issue rfl
      · exact forward_reconcileWork hfuel session pendingTurns execution

theorem forward_reconcileOne {fuel : Nat} (hfuel : top < fuel) (session : Session) :
    Forward rank top (reconcileOne fuel session false none) := by
  refine Goes.bind (Goes.bind (forward_query _) fun _ => .ret _) fun pending => ?_
  refine Goes.bind (forward_getExecution _) fun r => ?_
  cases r with
  | error e => exact .ret _
  | ok execution => exact forward_reconcile hfuel session pending execution

theorem forward_loopStep {fuel : Nat} (hfuel : top < fuel) (session : Session) (action : LoopAction) :
    Forward rank top (loopStep fuel session action) := by
  cases action with
  | skip => exact .ret _
  | lost => exact Goes.bind (forward_loseCommand session) fun _ => .ret _
  | reconcile =>
      refine Goes.bind (forward_reconcileOne hfuel session) fun r => ?_
      split
      · exact .ret _
      · exact .ret _
      · exact .ret _

theorem forward_globalLoop {fuel : Nat} (hfuel : top < fuel) (config : Config) (self : WorkerId)
    (heartbeats : List (WorkerId × Timestamp)) (startedAt : Timestamp) (sessions : List Session) :
    Forward rank top (globalLoop fuel config self heartbeats startedAt sessions) := by
  induction sessions with
  | nil => exact .ret _
  | cons session rest ih =>
      refine Goes.bind (forward_inspect _) fun now => ?_
      exact Goes.bind (forward_loopStep hfuel session _) fun _ => Goes.bind ih fun _ => .ret _

end Routes

end AgentBeacon
