import AgentBeacon.Correctness.Columns
import AgentBeacon.System.Numbers
import AgentBeacon.System.Ordinary

/-!
# `Correctness.CrashNotices` — telling a parent that its child has crashed

`finalize` is called again and again for a session that has ended. The row it reads inside of its
transaction carries a flag, and the transaction that raises the flag is the one that writes the notice: a
row in the parent's queue and a platform event. Only a recovery takes the flag back. No other transaction
writes rows of this kind.
-/

namespace AgentBeacon
open Relational Transaction Transition Tx Interleave Reconciler Creation SessionsApi WorkerSync Resolution

/-! ## The kind of rows -/

/-- A kind of rows, told by what stands in them. -/
structure Kind where
  task : Option TaskSource → Json → Prop
  event : EventType → Option SessionId → Json → Prop

/-- No row of the kind is new. -/
def Kind.NoneNew (k : Kind) (db db' : Db) : Prop :=
  (∀ t ∈ db'.taskQueue.rows, k.task t.source t.taskPayload → t ∈ db.taskQueue.rows) ∧
    ∀ row ∈ db'.events.rows, k.event row.eventType row.sessionId row.payload → row ∈ db.events.rows

namespace Kind.NoneNew

variable {k : Kind} {db db' db'' : Db}

theorem refl (k : Kind) (db : Db) : k.NoneNew db db := ⟨fun _ h _ => h, fun _ h _ => h⟩

theorem trans (h : k.NoneNew db db') (h' : k.NoneNew db' db'') : k.NoneNew db db'' := by
  constructor
  · intro t ht hk
    exact h.1 t (h'.1 t ht hk) hk
  · intro row hrow hk
    exact h.2 row (h'.2 row hrow hk) hk

/-- Deleting rows adds none. -/
theorem of_subset (htasks : ∀ t ∈ db'.taskQueue.rows, t ∈ db.taskQueue.rows)
    (hevents : ∀ row ∈ db'.events.rows, row ∈ db.events.rows) : k.NoneNew db db' :=
  ⟨fun t ht _ => htasks t ht, fun row hrow _ => hevents row hrow⟩

theorem pushTask {executionId : ExecutionId} {id : SessionId} {payload : Json} {source : Option TaskSource}
    {now : Timestamp} (h : ¬k.task source payload) :
    k.NoneNew db (db.pushTask executionId id payload source now) := by
  refine ⟨fun t ht hk => ?_, fun _ hrow _ => hrow⟩
  rcases List.mem_append.mp ht with hold | hnew
  · exact hold
  · rw [List.mem_singleton.mp hnew] at hk
    exact absurd hk h

theorem pushEvent {executionId : ExecutionId} {id : Option SessionId} {type : EventType} {payload : Json}
    {seq : Option Int} {now : Timestamp} (h : ¬k.event type id payload) :
    k.NoneNew db (db.pushEvent executionId id type payload seq now) := by
  refine ⟨fun _ ht _ => ht, fun row hrow hk => ?_⟩
  rcases List.mem_append.mp hrow with hold | hnew
  · exact hold
  · rw [List.mem_singleton.mp hnew] at hk
    exact absurd hk h

end Kind.NoneNew

/-- What tells a parent that `child` has crashed. -/
def crashNotice (child : SessionId) : Kind where
  task source payload := source = some (.childResult child) ∧
    ∃ s desiredBy, payload = crashMessage s desiredBy
  event type _ payload := type = .platform ∧ payload = notificationEvent "child_crashed" child

/-- The rows that ordinary statements insert are no crash notices. -/
theorem crashNotice_of_usualTask {child : SessionId} {source : Option TaskSource} {payload : Json}
    (h : UsualTask source payload) : ¬(crashNotice child).task source payload := by
  rintro ⟨hsource, s, desiredBy, hpayload⟩
  rcases h with hother | ⟨text, data, rfl, htype⟩
  · exact hother child hsource
  · simp only [crashMessage, notificationMessage, Json.dataPart, Json.obj.injEq, List.cons.injEq,
      Prod.mk.injEq, Json.arr.injEq] at hpayload
    refine htype ?_
    simp_all

theorem crashNotice_of_usualEvent {child : SessionId} {type : EventType} {id : Option SessionId} {payload : Json}
    (h : UsualEvent type id payload) : ¬(crashNotice child).event type id payload := by
  rintro ⟨htype, rfl⟩
  exact h.1 htype rfl

instance (child : SessionId) : Settling (crashNotice child).NoneNew where
  refl := .refl _
  trans := .trans
  same htasks hevents _ := by
    refine .of_subset (fun t ht => ?_) fun row hrow => ?_
    · rw [← htasks]
      exact ht
    · rw [← hevents]
      exact hrow
  insertExecution _ _ := .of_subset (fun _ ht => ht) fun _ hrow => hrow
  touch _ _ _ := .of_subset (fun _ ht => ht) fun _ hrow => hrow
  missed _ := .of_subset (fun _ ht => ht) fun _ hrow => hrow
  ended _ := .trans (.of_subset (fun _ ht => ht) fun _ hrow => hrow) (.pushEvent fun h => by cases h.1)
  dequeue _ _ := .of_subset (fun _ ht => (List.mem_filter.mp ht).1) fun _ hrow => hrow
  deleteSessions _ _ := .of_subset (fun _ ht => (List.mem_filter.mp ht).1) fun _ hrow => (List.mem_filter.mp hrow).1
  pushTask _ _ _ _ _ _ h := .pushTask (crashNotice_of_usualTask h)
  pushEvent _ _ _ _ _ _ _ h := .pushEvent (crashNotice_of_usualEvent h)

/-- **Only a finalization writes crash notices.** -/
theorem noneNew_of_other {me : Nat} {history : History} {env : Env} {db : Db} {w : Write}
    (hproper : Proper me history w) (hother : ∀ session, w ≠ .finalize session) (child : SessionId) :
    (crashNotice child).NoneNew db (w.run env db).2 := by
  by_cases hrecover : ∃ session clear message, w = .recover session clear message
  · obtain ⟨session, clear, message, rfl⟩ := hrecover
    have hreopen : ∀ (db : Db) id, (crashNotice child).NoneNew db (db.updateExecution id .recover) :=
      fun _ _ => .of_subset (fun _ ht => ht) fun _ hrow => hrow
    exact Respects.scheduling (m := fun env => SessionsApi.recover env session clear message)
      (respects_recover hreopen session clear message)
  · exact respects_call hproper hother fun session clear message h => hrecover ⟨session, clear, message, h⟩

/-! ## The flag -/

/-- The flag of a session, if the session is there. -/
def Db.flagOf (db : Db) (id : SessionId) : Option Bool := (db.session? id).map Session.parentNotified

theorem Db.flagOf_updateSession {db : Db} {id : SessionId} {u : SessionUpdate}
    (hu : ∀ s, (u.apply s).parentNotified = s.parentNotified) (j : SessionId) :
    (db.updateSession id u).flagOf j = db.flagOf j := by
  unfold flagOf
  rw [session?_updateSession]
  split
  · rename_i hj
    subst hj
    rw [Option.map_map]
    congr 1
    funext s
    exact hu s
  · rfl

theorem flag_resume (desiredBy : DesiredBy) (s : Session) :
    ((SessionUpdate.resume desiredBy).apply s).parentNotified = s.parentNotified := by
  unfold SessionUpdate.apply
  split <;> rfl

theorem flag_releaseWorker (s : Session) :
    (SessionUpdate.releaseWorker.apply s).parentNotified = s.parentNotified := by
  unfold SessionUpdate.apply
  split <;> rfl

/-! ## What a finalization does -/

section Finalization

variable {ρ : Type} {env : Env} {db : Db}

/-- What resuming a stopped parent does to the queue, the log and the flags. -/
structure Resumed (db db' : Db) : Prop where
  tasks : db'.taskQueue = db.taskQueue
  flags : ∀ j, db'.flagOf j = db.flagOf j
  logged : ∀ r ∈ db'.events.rows, r ∈ db.events.rows ∨ r.eventType = .stateChange
  drawn : db.events.next ≤ db'.events.next

theorem Resumed.refl (db : Db) : Resumed db db :=
  ⟨rfl, fun _ => rfl, fun _ hr => .inl hr, Nat.le_refl _⟩

theorem resumeStopped_effect (executionId : ExecutionId) (id : SessionId) (desiredBy : DesiredBy)
    (e : ρ) : wp (resumeStopped env executionId id desiredBy e) (fun _ db' => Resumed db db')
      (fun _ => True) db := by
  unfold resumeStopped
  rw [wp_bind, DbTx.wp_updateSession, wp_when]
  have hflags : ∀ j, (db.updateSession id (.resume desiredBy)).flagOf j = db.flagOf j :=
    Db.flagOf_updateSession (flag_resume desiredBy)
  refine ⟨fun _ => ?_, fun _ => ⟨rfl, hflags, fun _ hr => .inl hr, Nat.le_refl _⟩⟩
  rw [wp_bind, DbTx.wp_insertEvent]
  refine ⟨fun _ => ?_, fun _ => trivial⟩
  rw [wp_pure]
  refine ⟨rfl, hflags, fun r hr => ?_, Nat.le_succ _⟩
  rcases List.mem_append.mp hr with hold | hnew
  · exact .inl hold
  · rw [List.mem_singleton.mp hnew]
    exact .inr rfl

/-- The parent is told: one new row in its queue, and one platform event among what is logged. -/
structure Tells (child parent : SessionId) (db db' : Db) : Prop where
  task : ∃ t ∈ db'.taskQueue.rows, t.id = db.taskQueue.next ∧ t.sessionId = parent ∧
    (crashNotice child).task t.source t.taskPayload ∧
    ∀ t' ∈ db'.taskQueue.rows, t' ∈ db.taskQueue.rows ∨ t' = t
  event : ∃ r ∈ db'.events.rows, db.events.next ≤ r.id ∧ r.sessionId = some parent ∧
    r.eventType = .platform ∧ r.payload = notificationEvent "child_crashed" child ∧
    ∀ r' ∈ db'.events.rows, r' ∈ db.events.rows ∨ r'.eventType = .stateChange ∨ r' = r

/-- What the two inserts do, after the parent may have been resumed. -/
theorem tells_of_inserts {db₁ : Db} (hresumed : Resumed db db₁) (executionId : ExecutionId)
    (s : Session) (desiredBy : DesiredBy) (parent : SessionId) (now : Timestamp) (e : ρ) :
    wp (do
      DbTx.insertTask executionId parent (crashMessage s desiredBy) (some (.childResult s.id)) now e
      let _ ← DbTx.insertEvent executionId (some parent) .platform
        (notificationEvent "child_crashed" s.id) now e)
      (fun _ db' => Tells s.id parent db db' ∧ ∀ j, db'.flagOf j = db.flagOf j) (fun _ => True) db₁ := by
  rw [wp_bind, DbTx.wp_insertTask]
  refine ⟨fun _ => ?_, fun _ => trivial⟩
  rw [wp_bind, DbTx.wp_insertEvent]
  refine ⟨fun _ => ?_, fun _ => trivial⟩
  rw [wp_pure]
  refine ⟨⟨?_, ?_⟩, hresumed.flags⟩
  · refine ⟨⟨db₁.taskQueue.next, executionId, parent, crashMessage s desiredBy, now, _⟩,
      List.mem_append_right _ (List.mem_singleton.mpr rfl), ?_, rfl, ⟨rfl, s, desiredBy, rfl⟩, ?_⟩
    · rw [← hresumed.tasks]
    · intro t' ht'
      rcases List.mem_append.mp ht' with hold | hnew
      · rw [hresumed.tasks] at hold
        exact .inl hold
      · exact .inr (List.mem_singleton.mp hnew)
  · refine ⟨_, List.mem_append_right _ (List.mem_singleton.mpr rfl), hresumed.drawn, rfl, rfl, rfl, ?_⟩
    intro r' hr'
    rcases List.mem_append.mp hr' with hold | hnew
    · exact (hresumed.logged r' hold).imp_right .inl
    · exact .inr (.inr (List.mem_singleton.mp hnew))

/-- What a finalization may do about notices: nothing, or everything. -/
inductive Finalized (id : SessionId) (db db' : Db) : Prop where
  | silent (hnone : ∀ c, (crashNotice c).NoneNew db db') (hflags : ∀ j, db'.flagOf j = db.flagOf j)
  | told (s : Session) (p : SessionId) (q : Session) (x : Execution) (hs : db.session? id = some s)
      (hunnotified : s.parentNotified = false) (hparent : s.parentSessionId = some p)
      (hq : db.session? p = some q) (hlive : q.outcome = none ∧ q.desired ≠ .terminate)
      (hx : db.execution? s.executionId = some x) (hopen : executionEnded x = false)
      (htells : Tells id p db db') (hflag : db'.flagOf id = some true)
      (hothers : ∀ j, j ≠ id → db'.flagOf j = db.flagOf j)

theorem notifyParent_effect {s : Session} (hs : db.session? s.id = some s) {p : SessionId}
    (hparent : s.parentSessionId = some p) (hunnotified : s.parentNotified = false)
    (desiredBy : DesiredBy) (e : ρ) :
    wp (notifyParent env s desiredBy p e) (fun _ db' => Finalized s.id db db') (fun _ => True) db := by
  have hsilent : Finalized s.id db db := .silent (fun c => .refl _ db) fun _ => rfl
  unfold notifyParent
  refine DbTx.seq_execution (fun x hx => Tx.seq_read ?_) fun _ => trivial
  rw [wp_when]
  refine ⟨fun hopen => ?_, fun _ => hsilent⟩
  rw [wp_forSome]
  refine ⟨fun q hq => ?_, fun _ => hsilent⟩
  rw [wp_when]
  refine ⟨fun hlive => ?_, fun _ => hsilent⟩
  rw [wp_bind, DbTx.wp_updateSession, wp_when]
  refine ⟨fun haffected => ?_, fun hnone => ?_⟩
  · obtain ⟨row, hrow, hmatches⟩ := Db.affects_iff.mp haffected
    obtain rfl : row = s := Option.some.inj (hrow.symm.trans hs)
    have hflag : (db.updateSession row.id (.markParentNotified desiredBy)).flagOf row.id = some true := by
      unfold Db.flagOf
      rw [Db.session?_updateSession, if_pos rfl, hs]
      show some ((SessionUpdate.markParentNotified desiredBy).apply row).parentNotified = _
      rw [SessionUpdate.apply_of_matches hmatches]
      rfl
    have hothers : ∀ j, j ≠ row.id →
        (db.updateSession row.id (.markParentNotified desiredBy)).flagOf j = db.flagOf j := by
      intro j hj
      unfold Db.flagOf
      rw [Db.session?_updateSession_of_ne _ _ hj]
    have hfinish : ∀ db₁, Resumed (db.updateSession row.id (.markParentNotified desiredBy)) db₁ →
        wp (do
          DbTx.insertTask row.executionId p (crashMessage row desiredBy) (some (.childResult row.id))
            env.now e
          let _ ← DbTx.insertEvent row.executionId (some p) .platform
            (notificationEvent "child_crashed" row.id) env.now e)
          (fun _ db' => Finalized row.id db db') (fun _ => True) db₁ := by
      intro db₁ hresumed
      refine Tx.wp_mono (tells_of_inserts hresumed row.executionId row desiredBy p env.now e)
        (fun _ db' h => ?_) fun _ h => h
      obtain ⟨htells, hflags⟩ := h
      refine .told row p q x hs hunnotified hparent hq ?_ hx ?_ ⟨htells.task, htells.event⟩
        ((hflags row.id).trans hflag) fun j hj => (hflags j).trans (hothers j hj)
      · simpa [not_or] using hlive
      · simpa using hopen
    refine Tx.seq_when (fun _ => ?_) fun _ => hfinish _ (.refl _)
    exact Tx.wp_mono (resumeStopped_effect _ _ _ _) (fun _ db₁ h => hfinish db₁ h) fun _ h => h
  · have hmatches : (SessionUpdate.markParentNotified desiredBy).matches s ≠ true := by
      intro hm
      exact hnone (Db.affects_iff.mpr ⟨s, hs, hm⟩)
    refine .silent (fun c => .of_subset (fun _ h => h) fun _ h => h) fun j => ?_
    unfold Db.flagOf
    by_cases hj : j = s.id
    · subst hj
      rw [Db.session?_updateSession, if_pos rfl, hs]
      show some ((SessionUpdate.markParentNotified desiredBy).apply s).parentNotified = _
      rw [SessionUpdate.apply, if_neg hmatches]
      rfl
    · rw [Db.session?_updateSession_of_ne _ _ hj]

theorem notifyParentOfCrash_effect {s : Session} (hs : db.session? s.id = some s) (e : ρ) :
    wp (notifyParentOfCrash env s e) (fun _ db' => Finalized s.id db db') (fun _ => True) db := by
  have hsilent : Finalized s.id db db := .silent (fun c => .refl _ db) fun _ => rfl
  unfold notifyParentOfCrash
  rw [wp_forSome]
  refine ⟨fun desiredBy _ => ?_, fun _ => hsilent⟩
  rw [wp_forSome]
  refine ⟨fun p hp => ?_, fun _ => hsilent⟩
  rw [wp_when]
  exact ⟨fun h => notifyParent_effect hs hp h.2 desiredBy e, fun _ => hsilent⟩

/-- Emptying the child's queue first changes nothing about it. -/
theorem Finalized.after_deletion {id : SessionId} {db' : Db} (h : Finalized id (db.deleteTasks id) db') :
    Finalized id db db' := by
  cases h with
  | silent hnone hflags =>
      refine .silent (fun c => ?_) hflags
      have hdeleted : (crashNotice c).NoneNew db (db.deleteTasks id) :=
        .of_subset (fun t ht => (List.mem_filter.mp ht).1) fun r hr => hr
      exact hdeleted.trans (hnone c)
  | told s p q x hs hunnotified hparent hq hlive hx hopen htells hflag hothers =>
      refine .told s p q x hs hunnotified hparent hq hlive hx hopen ⟨?_, htells.event⟩ hflag hothers
      obtain ⟨t, ht, hid, hto, hkind, honly⟩ := htells.task
      refine ⟨t, ht, hid, hto, hkind, fun t' ht' => ?_⟩
      exact (honly t' ht').imp_left fun hold => (List.mem_filter.mp hold).1

/-- Releasing the worker afterwards changes nothing about it. -/
theorem Finalized.then_release {id j : SessionId} {db' : Db} (h : Finalized id db db') :
    Finalized id db (db'.updateSession j .releaseWorker) := by
  have hsame : ∀ i, (db'.updateSession j .releaseWorker).flagOf i = db'.flagOf i :=
    Db.flagOf_updateSession flag_releaseWorker
  cases h with
  | silent hnone hflags =>
      exact .silent (fun c => ⟨(hnone c).1, (hnone c).2⟩) fun i => (hsame i).trans (hflags i)
  | told s p q x hs hunnotified hparent hq hlive hx hopen htells hflag hothers =>
      exact .told s p q x hs hunnotified hparent hq hlive hx hopen ⟨htells.task, htells.event⟩
        ((hsame id).trans hflag) fun i hi => (hsame i).trans (hothers i hi)

/-- **A finalization tells the parent and raises the flag, or does neither.** -/
theorem finalize_effect (env : Env) (db : Db) (session : Session) :
    Finalized session.id db ((Write.finalize session).run env db).2 := by
  have hsilent : ∀ id, Finalized id db db := fun id => .silent (fun c => .refl _ db) fun _ => rfl
  refine scheduling_post (m := fun env => Reconciler.finalize env session) (P := fun _ db' =>
    Finalized session.id db db') (fun _ _ => hsilent _) ?_
  unfold Reconciler.finalize
  refine DbTx.seq_execution (fun _ _ => Tx.seq_read ?_) fun _ => hsilent _
  refine Tx.seq_forSome (fun s hs => ?_) fun _ => hsilent _
  have hid : s.id = session.id := Db.id_of_session? hs
  rw [wp_when]
  refine ⟨fun _ => Tx.seq_write ?_, fun _ => hsilent _⟩
  have hs' : (db.deleteTasks s.id).session? s.id = some s := by
    rw [hid]
    exact hs
  rw [← hid]
  refine Tx.seq_of (fun _ => hsilent _) (notifyParentOfCrash_effect hs' _) fun _ db' h => ?_
  rw [wp_when]
  refine ⟨fun _ => ?_, fun _ => h.after_deletion⟩
  rw [wp_bind, DbTx.wp_updateSession]
  exact h.after_deletion.then_release

end Finalization

/-! ## What a call does -/

/-- A new row of the kind in a queue. -/
def NewTask (e : Event scheduler) (child : SessionId) (t : TaskRow) : Prop :=
  t ∈ (after e).taskQueue.rows ∧ t ∉ (before e).taskQueue.rows ∧
    (crashNotice child).task t.source t.taskPayload

/-- A new row of the kind in the log. -/
def NewEvent (e : Event scheduler) (child : SessionId) (r : EventRow) : Prop :=
  r ∈ (after e).events.rows ∧ r ∉ (before e).events.rows ∧
    (crashNotice child).event r.eventType r.sessionId r.payload

/-- The flag of the child became true. -/
def FlagRaised (e : Event scheduler) (child : SessionId) : Prop :=
  (before e).flagOf child ≠ some true ∧ (after e).flagOf child = some true

instance (e : Event scheduler) (child : SessionId) : Decidable (FlagRaised e child) :=
  inferInstanceAs (Decidable (_ ≠ _ ∧ _ = _))

/-- The parent of the child is live, and so is the execution. -/
def LiveParent (db : Db) (child parent : SessionId) : Prop :=
  ∃ s q x, db.session? child = some s ∧ s.parentSessionId = some parent ∧ db.session? parent = some q ∧
    q.outcome = none ∧ q.desired ≠ .terminate ∧
    db.execution? s.executionId = some x ∧ executionEnded x = false

/-- The call tells the parent of the child. -/
structure TellsParent (e : Event scheduler) (child parent : SessionId) : Prop where
  live : LiveParent (before e) child parent
  tells : Tells child parent (before e) (after e)
  raised : FlagRaised e child

/-- The call tells nobody of the child. -/
structure TellsNobody (e : Event scheduler) (child : SessionId) : Prop where
  none : (crashNotice child).NoneNew (before e) (after e)
  unraised : ¬FlagRaised e child

theorem parentNotified_stays {u : SessionUpdate} {s : Session} (hu : ∀ clear, u ≠ .recover clear)
    (h : s.parentNotified = true) : (u.apply s).parentNotified = true := by
  unfold SessionUpdate.apply
  split
  · cases u with
    | recover clear => exact absurd rfl (hu clear)
    | markParentNotified => rfl
    | _ => exact h
  · exact h

theorem parentNotified_not_raised {u : SessionUpdate} {s : Session}
    (hu : ∀ desiredBy, u ≠ .markParentNotified desiredBy) (h : s.parentNotified = false) :
    (u.apply s).parentNotified = false := by
  unfold SessionUpdate.apply
  split
  · cases u with
    | markParentNotified desiredBy => exact absurd rfl (hu desiredBy)
    | recover => rfl
    | _ => exact h
  · exact h

/-- Only a finalization raises the flag. -/
theorem not_raised_of_other {e : Event scheduler} {w : Write} (hw : e.op = Op.write w)
    (hother : ∀ session, w ≠ .finalize session) (child : SessionId) : ¬FlagRaised e child := by
  rintro ⟨hlow, htrue⟩
  obtain ⟨s', hs', hnotified⟩ := Option.map_eq_some_iff.mp htrue
  rcases call_effect e with ⟨w', hw', hsteps⟩ | hsame
  · obtain rfl : w = w' := Op.write.inj (hw.symm.trans hw')
    have hkeep : ∀ t u, w.updates (envOf e) t u → t.parentNotified = false →
        (u.apply t).parentNotified = false := by
      intro t u hu ht
      refine parentNotified_not_raised (fun desiredBy hmark => ?_) ht
      subst hmark
      obtain ⟨session, hfinalize, -⟩ := hu
      exact hother session hfinalize
    have hstill : s'.parentNotified = false := by
      rcases hsteps.descends (Db.mem_of_session? hs') with ⟨t, ht, hrow⟩ | ⟨row, hins, hrow⟩
      · rw [Db.id_of_session? hs'] at ht
        have hunnotified : t.parentNotified = false := by
          cases hflag : t.parentNotified with
          | false => rfl
          | true =>
              refine absurd ?_ hlow
              unfold Db.flagOf
              rw [ht, Option.map_some, hflag]
        exact hrow.keeps hunnotified hkeep
      · obtain ⟨_, _, _, _, _, _, _, _, rfl, -⟩ := hins
        exact hrow.keeps (I := fun t => t.parentNotified = false) rfl hkeep
    rw [hstill] at hnotified
    cases hnotified
  · rw [hsame] at htrue
    exact hlow htrue

/-- **A call tells the parent of the child and raises its flag, or does neither.** -/
theorem tellsParent_or_nobody {e : Event scheduler} {me : Nat} {history : History}
    (hproper : ∀ w, e.op = Op.write w → Proper me history w) (child : SessionId) :
    TellsNobody e child ∨ ∃ parent, TellsParent e child parent := by
  rcases call_effect e with ⟨w, hw, -⟩ | hsame
  · by_cases hfinalize : ∃ session, w = .finalize session
    · obtain ⟨session, rfl⟩ := hfinalize
      have heffect := finalize_effect (envOf e) (before e) session
      rw [← after_write hw] at heffect
      cases heffect with
      | silent hnone hflags =>
          refine .inl ⟨hnone child, fun hraised => ?_⟩
          rw [FlagRaised, hflags child] at hraised
          exact hraised.1 hraised.2
      | told s p q x hs hunnotified hparent hq hlive hx hopen htells hflag hothers =>
          by_cases hchild : session.id = child
          · subst hchild
            refine .inr ⟨p, ⟨s, q, x, hs, hparent, hq, hlive.1, hlive.2, hx, hopen⟩, htells, ?_, hflag⟩
            unfold Db.flagOf
            rw [hs, Option.map_some, hunnotified]
            simp
          · -- what is written is about another child
            refine .inl ⟨⟨fun t' ht' hkind => ?_, fun r' hr' hkind => ?_⟩, fun hraised => ?_⟩
            · obtain ⟨t, -, -, -, hother, honly⟩ := htells.task
              rcases honly t' ht' with hold | rfl
              · exact hold
              · have hsame := hkind.1.symm.trans hother.1
                simp only [Option.some.injEq, TaskSource.childResult.injEq] at hsame
                exact absurd hsame.symm hchild
            · obtain ⟨r, -, -, -, -, hpayload, honly⟩ := htells.event
              rcases honly r' hr' with hold | hchange | rfl
              · exact hold
              · rw [hkind.1] at hchange
                cases hchange
              · have hsame := hkind.2.symm.trans hpayload
                simp only [notificationEvent, Json.obj.injEq, List.cons.injEq, Prod.mk.injEq,
                  Json.str.injEq, true_and, and_true] at hsame
                exact absurd hsame.symm hchild
            · rw [FlagRaised, hothers child fun h => hchild h.symm] at hraised
              exact hraised.1 hraised.2
    · have hother : ∀ session, w ≠ .finalize session := fun session h => hfinalize ⟨session, h⟩
      refine .inl ⟨?_, not_raised_of_other hw hother child⟩
      rw [after_write hw]
      exact noneNew_of_other (hproper w hw) hother child
  · refine .inl ⟨?_, ?_⟩
    · rw [hsame]
      exact .refl _ _
    · intro hraised
      rw [FlagRaised, hsame] at hraised
      exact hraised.1 hraised.2

/-! ### The rows of one call -/

namespace TellsParent

variable {e : Event scheduler} {child parent : SessionId}

theorem newTask (h : TellsParent e child parent) :
    ∃ t, NewTask e child t ∧ t.sessionId = parent ∧ ∀ t', NewTask e child t' → t' = t := by
  obtain ⟨t, ht, hid, hto, hkind, honly⟩ := h.tells.task
  refine ⟨t, ⟨ht, fun hold => ?_, hkind⟩, hto, fun t' ht' => ?_⟩
  · have hbound := (before e).taskQueue.bounded t hold
    omega
  · exact (honly t' ht'.1).resolve_left ht'.2.1

theorem newEvent (h : TellsParent e child parent) :
    ∃ r, NewEvent e child r ∧ r.sessionId = some parent ∧ ∀ r', NewEvent e child r' → r' = r := by
  obtain ⟨r, hr, hid, hto, htype, hpayload, honly⟩ := h.tells.event
  refine ⟨r, ⟨hr, fun hold => ?_, htype, hpayload⟩, hto, fun r' hr' => ?_⟩
  · have hbound := (before e).events.bounded r hold
    omega
  · rcases honly r' hr'.1 with hold | hchange | hsame
    · exact absurd hold hr'.2.1
    · rw [hr'.2.2.1] at hchange
      cases hchange
    · exact hsame

end TellsParent

namespace TellsNobody

variable {e : Event scheduler} {child : SessionId}

theorem no_task (h : TellsNobody e child) (t : TaskRow) : ¬NewTask e child t := by
  rintro ⟨hnew, hold, hkind⟩
  exact hold (h.none.1 t hnew hkind)

theorem no_event (h : TellsNobody e child) (r : EventRow) : ¬NewEvent e child r := by
  rintro ⟨hnew, hold, hkind⟩
  exact hold (h.none.2 r hnew hkind)

end TellsNobody

/-- What one call does about the notice of a child's crash: the flag is raised exactly when a row in the queue
is new, and exactly when a platform event is; there is at most one of each, and the parent they go to is
live. -/
structure NoticeTogether (e : Event scheduler) (child : SessionId) : Prop where
  raised_iff_task : FlagRaised e child ↔ ∃ t, NewTask e child t
  raised_iff_event : FlagRaised e child ↔ ∃ r, NewEvent e child r
  one_task : ∀ t t', NewTask e child t → NewTask e child t' → t = t'
  one_event : ∀ r r', NewEvent e child r → NewEvent e child r' → r = r'
  task_live : ∀ t, NewTask e child t → LiveParent (before e) child t.sessionId
  event_live : ∀ r, NewEvent e child r → ∃ parent, r.sessionId = some parent ∧ LiveParent (before e) child parent

theorem TellsNobody.together {e : Event scheduler} {child : SessionId} (h : TellsNobody e child) :
    NoticeTogether e child where
  raised_iff_task := ⟨fun hraised => absurd hraised h.unraised, fun ⟨t, ht⟩ => absurd ht (h.no_task t)⟩
  raised_iff_event := ⟨fun hraised => absurd hraised h.unraised, fun ⟨r, hr⟩ => absurd hr (h.no_event r)⟩
  one_task t _ ht _ := absurd ht (h.no_task t)
  one_event r _ hr _ := absurd hr (h.no_event r)
  task_live t ht := absurd ht (h.no_task t)
  event_live r hr := absurd hr (h.no_event r)

theorem TellsParent.together {e : Event scheduler} {child parent : SessionId} (h : TellsParent e child parent) :
    NoticeTogether e child := by
  obtain ⟨t, ht, hto, htask⟩ := h.newTask
  obtain ⟨r, hr, hrto, hevent⟩ := h.newEvent
  refine ⟨⟨fun _ => ⟨t, ht⟩, fun _ => h.raised⟩, ⟨fun _ => ⟨r, hr⟩, fun _ => h.raised⟩, ?_, ?_, ?_, ?_⟩
  · intro t₁ t₂ h₁ h₂
    rw [htask t₁ h₁, htask t₂ h₂]
  · intro r₁ r₂ h₁ h₂
    rw [hevent r₁ h₁, hevent r₂ h₂]
  · intro t₁ h₁
    rw [htask t₁ h₁, hto]
    exact h.live
  · intro r₁ h₁
    rw [hevent r₁ h₁]
    exact ⟨parent, hrto, h.live⟩

/-! ## Over a run -/

/-- A recovery of the child that takes its flag back. -/
def TakesFlagBack (e : Event scheduler) (child : SessionId) : Prop :=
  (∃ session clearAgentSessionId message, e.op = Op.write (.recover session clearAgentSessionId message) ∧
    session.id = child) ∧ (before e).flagOf child = some true ∧ (after e).flagOf child = some false

/-- The flag of the child is up, as long as the child is there. -/
def FlagUp (db : Db) (child : SessionId) : Prop := ∀ s, db.session? child = some s → s.parentNotified = true

/-- **Only a recovery takes the flag back.** -/
theorem flagUp_kept {e : Event scheduler} {history : History} (h : Reachable (e :: history))
    {child : SessionId} (hdrawn : child ∈ drawnIn history) (hup : FlagUp (before e) child)
    (hno : ¬TakesFlagBack e child) : FlagUp (after e) child := by
  intro s' hs'
  obtain ⟨-, hbefore, hfresh⟩ := h.of_cons
  rcases call_effect e with ⟨w, hw, hsteps⟩ | hsame
  · rcases hsteps.descends (Db.mem_of_session? hs') with ⟨t, ht, hrow⟩ | ⟨row, hins, hrow⟩
    · rw [Db.id_of_session? hs'] at ht
      have hnotified := hup t ht
      by_contra hlowered
      have hfalse : s'.parentNotified = false := by simpa using hlowered
      by_cases hrecover : ∃ session clear message, w = .recover session clear message ∧ session.id = child
      · obtain ⟨session, clear, message, rfl, hid⟩ := hrecover
        refine hno ⟨⟨session, clear, message, hw, hid⟩, ?_, ?_⟩
        · unfold Db.flagOf
          rw [ht, Option.map_some, hnotified]
        · unfold Db.flagOf
          rw [hs', Option.map_some, hfalse]
      · have hkept := hrow.keeps (I := fun t => t.id = child ∧ t.parentNotified = true)
          ⟨Db.id_of_session? ht, hnotified⟩ fun t u hu ht => by
            refine ⟨(u.apply_identity t).1.trans ht.1, parentNotified_stays (fun clear hrec => ?_) ht.2⟩
            subst hrec
            obtain ⟨session, message, hwrite, hid⟩ := hu
            exact hrecover ⟨session, clear, message, hwrite, hid.symm.trans ht.1⟩
        exact hlowered hkept.2
    · -- a session that the call inserts has an id that no session had
      obtain ⟨_, _, _, _, _, _, _, _, rfl, -⟩ := hins
      have huuid : (envOf e).uuid = child := hrow.identity.1.symm.trans (Db.id_of_session? hs')
      exact absurd (huuid ▸ hdrawn) (hfresh w hw)
  · rw [hsame] at hs'
    exact hup s' hs'

/-- From a point where the flag is up it stays so, or some call between recovers the child. -/
theorem flagUp_or_recovered {middle start : History} (h : Reachable (middle ++ start)) {child : SessionId}
    (hdrawn : child ∈ drawnIn start) (hup : FlagUp (current start) child) :
    (∃ m ∈ middle, TakesFlagBack m child) ∨ FlagUp (current (middle ++ start)) child := by
  induction middle with
  | nil => exact .inr hup
  | cons m middle ih =>
      have hr : Reachable (middle ++ start) := h.of_cons.1
      rcases ih hr with ⟨m', hm', hrecovers⟩ | hstill
      · exact .inl ⟨m', List.mem_cons_of_mem m hm', hrecovers⟩
      · by_cases hrecovers : TakesFlagBack m child
        · exact .inl ⟨m, List.mem_cons_self, hrecovers⟩
        · refine .inr ?_
          have hbefore : before m = current (middle ++ start) := h.of_cons.2.1
          rw [← hbefore] at hstill
          exact flagUp_kept h (hr.drawn_later hdrawn) hstill hrecovers

/-- Something of a notice of the child's crash is new. -/
def TellsOfCrash (e : Event scheduler) (child : SessionId) : Prop :=
  (∃ t, NewTask e child t) ∨ ∃ r, NewEvent e child r

theorem NoticeTogether.raised {e : Event scheduler} {child : SessionId} (h : NoticeTogether e child)
    (hnotifies : TellsOfCrash e child) : FlagRaised e child :=
  hnotifies.elim h.raised_iff_task.mpr h.raised_iff_event.mpr

theorem noticeTogether {history : History} (h : Trace disciplined history) (child : SessionId) :
    ∀ e ∈ history, NoticeTogether e child := by
  intro e he
  obtain ⟨earlier, -, -, hproper, -⟩ := h.of_mem he
  rcases tellsParent_or_nobody hproper child with hnobody | ⟨parent, htells⟩
  · exact hnobody.together
  · exact htells.together

/-- **Crash notices.** In every run, whatever calls a request makes, the flag of a child becomes true in just
those transactions that put a row in its parent's queue and a platform event in the log; there is one of each,
and neither the parent nor the execution is terminal then. And between two notices of the same child, the
child has been recovered. -/
theorem crash_notified {pool : List (Nat × Request Unit)} {history : History}
    (h : SchedulerRun pool history) (child : SessionId) :
    (∀ e ∈ history, NoticeTogether e child) ∧
    ∀ later middle earlier e' e, history = later ++ e' :: (middle ++ e :: earlier) →
      TellsOfCrash e child → TellsOfCrash e' child → ∃ m ∈ middle, TakesFlagBack m child := by
  have htogether := noticeTogether h.disciplined child
  refine ⟨htogether, ?_⟩
  rintro later middle earlier e' e rfl hfirst hsecond
  have hr' : Reachable (e' :: (middle ++ e :: earlier)) := h.reachable.of_suffix (List.suffix_append later _)
  have hr : Reachable (middle ++ e :: earlier) := hr'.of_cons.1
  have hr₀ : Reachable (e :: earlier) := hr.of_suffix (List.suffix_append middle _)
  -- the first notice raised the flag
  have hraised := (htogether e (by simp)).raised hfirst
  obtain ⟨s, hs, hnotified⟩ := Option.map_eq_some_iff.mp hraised.2
  have hdrawn : child ∈ drawnIn (e :: earlier) := by
    have hmem := (hr₀.drawn s (Db.mem_of_session? hs)).1
    rw [Db.id_of_session? hs] at hmem
    exact hmem
  have hup : FlagUp (current (e :: earlier)) child := by
    intro s' hs'
    obtain rfl : s = s' := Option.some.inj (hs.symm.trans hs')
    exact hnotified
  rcases flagUp_or_recovered hr hdrawn hup with hrecovered | hstill
  · exact hrecovered
  · -- the second notice found it down
    have hlow := ((htogether e' (by simp)).raised hsecond).1
    have hchild : (before e').session? child ≠ none := by
      rcases hsecond with ⟨t, ht⟩ | ⟨r, hrow⟩
      · obtain ⟨s', -, -, hs', -⟩ := (htogether e' (by simp)).task_live t ht
        rw [hs']
        exact Option.some_ne_none s'
      · obtain ⟨-, -, s', -, -, hs', -⟩ := (htogether e' (by simp)).event_live r hrow
        rw [hs']
        exact Option.some_ne_none s'
    obtain ⟨s', hs'⟩ := Option.ne_none_iff_exists'.mp hchild
    rw [← hr'.of_cons.2.1] at hstill
    refine absurd ?_ hlow
    unfold Db.flagOf
    rw [hs', Option.map_some, hstill s' hs']

/-- The root has delegated; its child crashes and cannot be recovered, and the next tick finalizes it. -/
def crashedChild : List (Choice (Nat × Route) Env) :=
  opening ++ alone 2 "c" (.delegate "r" "lead" "work" none) 11 ++ alone 3 "d" (syncOf "w" none) 7 ++
    alone 4 "e" (syncOf "v" none) 7 ++ alone 5 "f" (reportSync "v" "c8" "crashed") 4 ++
    alone 6 "g" (.tick deployed) 16 ++ alone 7 "h" (.tick deployed) 11

theorem crash_notified_once :
    (∃ e ∈ historyOf crashedChild, FlagRaised e "c8") ∧
    ∀ e ∈ historyOf crashedChild, FlagRaised e "c8" →
      ∃ t, NewTask e "c8" t ∧ LiveParent (before e) "c8" t.sessionId := by
  refine ⟨by decide +kernel, fun e he hraised => ?_⟩
  obtain ⟨pool, hrun⟩ := historyOf_run crashedChild
  have htogether := (crash_notified hrun "c8").1 e he
  obtain ⟨t, ht⟩ := htogether.raised_iff_task.mp hraised
  exact ⟨t, ht, htogether.task_live t ht⟩

end AgentBeacon
