import AgentBeacon.Db.Within
import AgentBeacon.System.Permits

/-!
# `System.Effects` — every transaction stays within its permit

One lemma for each transaction body, in the order of the sources, and `Write.steps`, which is all
that later modules use.
-/

namespace AgentBeacon
open Relational Transaction Transition Resolution Tx

/-! ## Payloads that are no markers and no escalations -/

theorem inert_of_no_parts {payload : Json} (h : payload.get "parts" = none) : Inert payload := by
  have hparts : parseParts payload = none := by simp [parseParts, h]
  exact ⟨by simp [escalationData, parseRoleAndParts, hparts], fun parts n hp => by
    rw [hparts] at hp; cases hp⟩

theorem parts_of_single {payload part : Json} (hp : payload.get "parts" = some (.arr [part]))
    {parts : List Json} (h : parseParts payload = some parts) : parts = [part] := by
  simp only [parseParts, hp, Json.asArray, Option.bind_eq_bind, Option.bind_some] at h
  split at h
  · exact (Option.some.inj h).symm
  · cases h

/-- A single data part of a type that is no answer and no dismissal is no marker. -/
theorem noMarker_of_data {payload : Json} {type : String} {members : List (String × Json)}
    (hp : payload.get "parts" = some (.arr [Json.dataPart (.obj (("type", .str type) :: members))]))
    (ha : type ≠ answerType) (hd : type ≠ dismissType) : NoMarker payload := by
  intro parts n h
  rw [parts_of_single hp h]
  simp [resolutionCandidates, candidateOfPart, partData, Json.dataPart, dataType, Json.asStr, ha, hd]

/-- Nor an escalation, if it is of another type again. -/
theorem inert_of_data {payload : Json} {type : String} {members : List (String × Json)}
    (hp : payload.get "parts" = some (.arr [Json.dataPart (.obj (("type", .str type) :: members))]))
    (ha : type ≠ answerType) (hd : type ≠ dismissType) (he : type ≠ escalateType) : Inert payload := by
  refine ⟨?_, noMarker_of_data hp ha hd⟩
  cases h : parseParts payload with
  | none => simp [escalationData, parseRoleAndParts, h]
  | some parts =>
      rw [parts_of_single hp h] at h
      simp [escalationData, parseRoleAndParts, h, escalationOfParts, partData, Json.dataPart, dataType,
        Json.asStr, he]

theorem inert_noticeEvent (text : String) : Inert (noticeEvent text) := inert_of_no_parts rfl

theorem inert_notificationEvent (type : String) (child : SessionId) :
    Inert (notificationEvent type child) := inert_of_no_parts rfl

theorem inert_turnCompleteEvent (child : SessionId) : Inert (WorkerSync.turnCompleteEvent child) :=
  inert_of_data rfl (by decide) (by decide) (by decide)

/-! ## Logging under a permit -/

variable {w : Write} {env : Env}

section Logging

variable {n : Nat} {executionId : ExecutionId} {id : Option SessionId} {type : EventType}
  {payload : Json} {seq : Option Int} {now : Timestamp}

/-- Anything but a platform event may be logged. -/
theorem logs_other (h : type ≠ .platform) :
    (w.permit env).log ⟨n, executionId, id, type, payload, none, now⟩ :=
  ⟨absurd rfl, fun h' => absurd h' h⟩

/-- A platform event without a marker may be logged. -/
theorem logs_inert (h : Inert payload) :
    (w.permit env).log ⟨n, executionId, id, type, payload, none, now⟩ :=
  ⟨absurd rfl, fun _ => .inl h⟩

/-- A numbered message may be logged by the transactions that number. -/
theorem logs_numbered (hw : w.numbers) (h : type ≠ .platform) :
    (w.permit env).log ⟨n, executionId, id, type, payload, seq, now⟩ :=
  ⟨fun _ => hw, fun h' => absurd h' h⟩

end Logging

variable {ρ : Type} {db : Db}

/-- One event at the end of a conditional block. -/
theorem insertEvent_within {executionId : ExecutionId} {id : Option SessionId}
    {eventType : EventType} {payload : Json} {now : Timestamp} {e : ρ}
    (hl : ∀ n, (w.permit env).log ⟨n, executionId, id, eventType, payload, none, now⟩) :
    Within (w.permit env) (do
      let _ ← DbTx.insertEvent executionId id eventType payload now e
      pure ()) (fun _ _ => True) db :=
  .insertEvent (hl _) (.pure trivial)

/-! ## `services/transition.rs` -/

theorem resumeStopped_within (env' : Env) (executionId : ExecutionId) (id : SessionId)
    (desiredBy : DesiredBy) (e : ρ) :
    Within (w.permit env) (resumeStopped env' executionId id desiredBy e)
      (fun _ db' => ∀ s, db'.session? id = some s → s.desired ≠ .stop) db := by
  unfold resumeStopped
  refine .updateSession nofun (fun _ _ => trivial) ?_
  have hresumed : ∀ s, (db.updateSession id (.resume desiredBy)).session? id = some s →
      s.desired ≠ .stop := by
    intro s hs
    rw [Db.session?_updateSession, if_pos rfl, Option.map_eq_some_iff] at hs
    obtain ⟨t, -, rfl⟩ := hs
    unfold SessionUpdate.apply
    split
    · simp [SessionUpdate.set]
    · rename_i hno
      simpa [SessionUpdate.matches] using hno
  unfold Tx.when
  split
  · exact .insertEvent (logs_other (by simp)) (.pure (by simpa using hresumed))
  · exact .pure hresumed

theorem writeExecutionTerminal_within (executionId : ExecutionId) (outcome : Outcome) (e : ρ)
    (hw : w.ends executionId) :
    Within (w.permit env) (writeExecutionTerminal env executionId outcome e) (fun _ _ => True) db := by
  unfold writeExecutionTerminal
  refine .updateExecution hw (.when_last fun _ => ?_)
  exact insertEvent_within fun _ => logs_other (by simp)

/-- What is queued for a recipient that is set running first if it was stopped. -/
theorem enqueueResumed_within {executionId executionId' : ExecutionId} {id : SessionId}
    {desiredBy : DesiredBy} {payload : Json} {source : Option TaskSource} {e e' : ρ} {c : Prop}
    [Decidable c] {β : Type} {rest : DbTx ρ β}
    (hc : ∀ s, db.session? id = some s → s.desired = .stop → c)
    (hrest : ∀ db, Within (w.permit env) rest (fun _ _ => True) db) :
    Within (w.permit env) (do
      Tx.when c (resumeStopped env executionId id desiredBy e)
      DbTx.insertTask executionId' id payload source env.now e'
      rest) (fun _ _ => True) db := by
  refine .bind (Q := fun _ db' => ∀ s, db'.session? id = some s → s.desired ≠ .stop) ?_ ?_
  · unfold Tx.when
    split
    · exact resumeStopped_within env executionId id desiredBy e
    · rename_i hno
      exact .pure fun s hs hstop => hno (hc s hs hstop)
  · intro _ db' _ hrun
    exact .insertTask (fun s hs => ⟨rfl, .inl (hrun s hs)⟩) (hrest _)

theorem writeParentNotification_within {α : Type} (session : Session) (parentId : SessionId)
    (type : Notification) :
    Within (w.permit env)
      (writeParentNotification env session parentId type : DbTx (Except Rejected α) Unit)
      (fun _ _ => True) db := by
  unfold writeParentNotification
  refine .execution fun x _ => .when_last fun _ => .session fun parent hparent => .when_last fun _ => ?_
  apply enqueueResumed_within
  · intro s hs hstop
    exact Option.some.inj (hparent.symm.trans hs) ▸ hstop
  · exact fun _ => insertEvent_within fun _ => logs_inert (inert_notificationEvent _ _)

theorem setDesiredTerminate_within (session : Session) (desiredBy : DesiredBy)
    (parent : Option SessionId) :
    Within ((Write.setDesiredTerminate session desiredBy parent).permit env)
      (setDesiredTerminate env session desiredBy parent) (fun _ _ => True) db := by
  unfold setDesiredTerminate
  refine .execution fun x _ => .session fun s hs => .require fun _ => .read ?_
  refine .bind (Q := fun a db' => db' = db ∧ (a.isSome → session.parentSessionId = none)) ?_ ?_
  · unfold derivedIf
    refine .read ?_
    split
    · rename_i hroot
      exact .ofOption fun _ _ => .pure ⟨rfl, fun _ => by simpa using hroot⟩
    · exact .pure ⟨rfl, nofun⟩
  · rintro execOutcome _ - ⟨rfl, hroot⟩
    refine .updateSession nofun (fun s hs => ⟨session, parent, rfl, Db.id_of_session? hs⟩) ?_
    refine .require fun _ => .insertEvent (logs_other (by simp)) ?_
    refine .forSome (fun p _ => writeParentNotification_within session p _) fun _ _ => ?_
    refine .forSome (fun o ho => ?_) fun _ _ => .pure trivial
    refine writeExecutionTerminal_within _ _ _ (.inl ⟨session, desiredBy, parent, rfl, rfl, ?_⟩)
    exact hroot (by simp [ho])

theorem setDesiredStop_within (session : Session) (desiredBy : DesiredBy)
    (parent : Option SessionId) :
    Within ((Write.setDesiredStop session desiredBy parent).permit env)
      (setDesiredStop env session desiredBy parent) (fun _ _ => True) db := by
  unfold setDesiredStop
  refine .execution fun x _ => .session fun s hs => .require fun _ => .require fun _ => ?_
  refine .stopSession (fun s hs => ⟨session, parent, rfl, Db.id_of_session? hs⟩) ?_
  refine .insertEvent (logs_other (by simp)) ?_
  exact .forSome (fun p _ => writeParentNotification_within session p _) fun _ _ => .pure trivial

theorem setDesiredRun_within (session : Session) (desiredBy : DesiredBy) :
    Within ((Write.setDesiredRun session desiredBy).permit env)
      (setDesiredRun session desiredBy) (fun _ _ => True) db := by
  unfold setDesiredRun
  refine .execution fun x _ => ?_
  refine .updateSession nofun (fun s hs => ⟨session, rfl, Db.id_of_session? hs⟩) ?_
  exact .require fun _ => .pure trivial

theorem sendMessage_within (session : Session) (args : SendMessageArgs) :
    Within ((Write.sendMessage session args).permit env) (sendMessage env session args)
      (fun _ _ => True) db := by
  unfold sendMessage
  refine .execution fun x _ => .session fun s hs => .execution fun x _ => .read ?_
  refine .bind (Q := fun _ db' => db' = db) ?_ ?_
  · cases args.resolution with
    | none => exact .pure rfl
    | some marker =>
        refine .require fun _ => ?_
        cases findMarkerForEscalation db marker.escalation with
        | none => exact .pure rfl
        | some existing => exact .rollback
  · rintro _ _ - rfl
    refine .require fun _ => .require fun _ => ?_
    refine .bind (Q := fun _ db' => ∀ s, db'.session? session.id = some s → s.desired ≠ .stop) ?_ ?_
    · unfold Tx.when
      split
      · refine .updateSession nofun (fun _ _ => trivial) (.pure fun t ht => ?_)
        rw [Db.session?_updateSession, if_pos rfl, hs] at ht
        obtain rfl := Option.some.inj ht
        rename_i hstop
        simp [SessionUpdate.apply, SessionUpdate.matches, SessionUpdate.set, hstop]
      · rename_i hstop
        refine .pure fun t ht => ?_
        rw [hs] at ht
        exact Option.some.inj ht ▸ hstop
    · intro _ db' _ hrun
      refine .insertTask (fun t ht => ⟨rfl, .inl (hrun t ht)⟩) ?_
      refine .insertEvent (logs_other (by simp)) ?_
      refine .forSome (fun marker hmarker => ?_) fun _ _ => ?_
      · refine .require fun _ => insertEvent_within fun _ => ⟨absurd rfl, fun _ => .inr (.inl (.inl ?_))⟩
        exact ⟨session, args, marker, _, _, rfl, hmarker, rfl, rfl, rfl⟩
      · refine .when (fun _ => insertEvent_within fun _ => logs_inert (inert_of_no_parts rfl))
          fun _ _ => ?_
        exact .when (fun _ => .updateExecution trivial (.pure trivial)) fun _ _ => .pure trivial

theorem setExecutorState_within (session : Session) (state : ExState) (worker : WorkerId)
    (crashMeta : Option CrashMeta) :
    Within ((Write.setExecutorState session state worker crashMeta).permit env)
      (setExecutorState env session state worker crashMeta) (fun _ _ => True) db := by
  unfold setExecutorState
  refine .execution fun x _ => .session fun current _ => ?_
  cases state with
  | crashed =>
      refine .when (fun _ => insertEvent_within fun _ => logs_inert (inert_noticeEvent _)) fun db' _ => ?_
      refine .updateSession nofun (fun s hs => ⟨session, crashMeta, rfl, Db.id_of_session? hs⟩) ?_
      refine .require fun _ => .when (fun _ => ?_) fun _ _ => .pure trivial
      exact insertEvent_within fun _ => logs_other (by simp)
  | idle =>
      refine .updateSession nofun (fun s hs => ⟨session, crashMeta, rfl, Db.id_of_session? hs⟩) ?_
      refine .require fun _ => .when (fun _ => ?_) fun _ _ => .pure trivial
      exact insertEvent_within fun _ => logs_other (by simp)
  | running =>
      refine .updateSession nofun (fun s hs => ⟨session, crashMeta, rfl, Db.id_of_session? hs, nofun⟩) ?_
      refine .require fun _ => .when (fun _ => ?_) fun _ _ => .pure trivial
      exact insertEvent_within fun _ => logs_other (by simp)
  | unassigned =>
      refine .updateSession nofun (fun s hs => ⟨session, crashMeta, rfl, Db.id_of_session? hs, nofun⟩) ?_
      exact .require fun _ => .pure trivial

theorem terminateFailed_within (session : Session) (desiredBy : DesiredBy) (requireCrashed : Bool) :
    Within ((Write.terminateFailed session desiredBy requireCrashed).permit env)
      (terminateFailed env session desiredBy requireCrashed) (fun _ _ => True) db := by
  unfold terminateFailed
  refine .execution fun x _ => ?_
  refine .updateSession nofun (fun s hs => ⟨session, rfl, Db.id_of_session? hs⟩) ?_
  refine .require fun _ => .insertEvent (logs_other (by simp)) ?_
  refine .when (fun hroot => ?_) fun _ _ => .pure trivial
  exact writeExecutionTerminal_within _ _ _
    (.inr (.inl ⟨session, desiredBy, requireCrashed, rfl, rfl, by simpa using hroot⟩))

theorem detectCrash_within (session decidedOn : Session) (noticed : Bool) :
    Within ((Write.detectCrash session decidedOn noticed).permit env) (detectCrash env session)
      (fun _ _ => True) db := by
  unfold detectCrash
  refine .execution fun x _ => .session fun current _ => ?_
  refine .updateSession nofun (fun s hs => ⟨session, decidedOn, noticed, rfl, Db.id_of_session? hs⟩) ?_
  refine .require fun _ => .when (fun _ => ?_) fun _ _ => .pure trivial
  exact insertEvent_within fun _ => logs_other (by simp)

theorem retryRecovery_within (session : Session) :
    Within ((Write.retryRecovery session).permit env) (retryRecovery env session)
      (fun _ _ => True) db := by
  unfold retryRecovery
  refine .execution fun x _ => ?_
  refine .updateSession nofun (fun s hs => ⟨session, rfl, Db.id_of_session? hs⟩) ?_
  refine .require fun _ => .session fun updated _ => ?_
  refine .when (fun _ => insertEvent_within fun _ => logs_inert (inert_noticeEvent _)) fun _ _ => ?_
  exact .insertEvent (logs_other (by simp)) (.pure trivial)

/-! ## `services/reconciler.rs` -/

open Reconciler

theorem repairRootOutcome_within (session : Session) (executionOpen : Bool) :
    Within ((Write.repairRootOutcome session executionOpen).permit env)
      (repairRootOutcome env session executionOpen) (fun _ _ => True) db := by
  unfold repairRootOutcome
  refine .execution fun x _ => .session fun s hs => .require fun hopen => .read ?_
  refine .bind (Q := fun _ db' => db' = db) ?_ ?_
  · unfold derivedIf
    refine .read ?_
    split
    · exact .ofOption fun _ _ => .pure rfl
    · exact .pure rfl
  · rintro execOutcome _ - rfl
    refine .updateSession nofun (fun t ht => ?_) ?_
    · rw [hs] at ht
      obtain rfl := Option.some.inj ht
      exact ⟨session, executionOpen, rfl, Db.id_of_session? hs, by
        by_contra hne; exact hopen (.inl hne)⟩
    · refine .forSome (fun _ _ => ?_) fun _ _ => .pure trivial
      exact writeExecutionTerminal_within _ _ _
        (.inr (.inr (.inl ⟨session, executionOpen, rfl, rfl⟩)))

theorem repairChildOutcome_within (session : Session) :
    Within ((Write.repairChildOutcome session).permit env) (repairChildOutcome session)
      (fun _ _ => True) db := by
  unfold repairChildOutcome
  refine .execution fun x _ => .session fun current hc => ?_
  refine .when (fun _ => .read ?_) fun _ _ => .pure trivial
  refine .updateSession nofun (fun s hs => ⟨session, rfl, ?_⟩) (.pure trivial)
  rw [Db.id_of_session? hs, Db.id_of_session? hc]

theorem repairDesired_within (session : Session) :
    Within ((Write.repairDesired session).permit env) (repairDesired env session)
      (fun _ _ => True) db := by
  unfold repairDesired
  refine .execution fun x _ => .session fun current _ => .when (fun _ => ?_) fun _ _ => .pure trivial
  refine .updateSession nofun (fun s hs => ⟨session, rfl, Db.id_of_session? hs⟩) ?_
  refine .when_last fun _ => .execution fun x _ => .when_last fun _ => .read (.ofOption fun _ _ => ?_)
  exact writeExecutionTerminal_within _ _ _ (.inr (.inr (.inr (.inl ⟨session, rfl, rfl⟩))))

theorem repairExecution_within (session : Session) :
    Within ((Write.repairExecution session).permit env) (repairExecution env session)
      (fun _ _ => True) db := by
  unfold repairExecution
  refine .execution fun x _ => .session fun root _ => .require fun _ => .read (.ofOption fun _ _ => ?_)
  refine .bind (writeExecutionTerminal_within _ _ _ ?_) fun _ _ _ _ => .pure trivial
  exact .inr (.inr (.inr (.inr (.inl ⟨session, rfl, rfl⟩))))

theorem repairCommand_within (session : Session) :
    Within ((Write.repairCommand session).permit env) (repairCommand session)
      (fun _ _ => True) db := by
  unfold repairCommand
  refine .execution fun x _ => ?_
  refine .updateSession nofun (fun s hs => ⟨session, rfl, Db.id_of_session? hs⟩) ?_
  exact .require fun _ => .pure trivial

theorem repairExecutionForTerminalRoot_within (root : SessionId) (executionId : ExecutionId) :
    Within ((Write.repairExecutionForTerminalRoot root executionId).permit env)
      (repairExecutionForTerminalRoot env root executionId) (fun _ _ => True) db := by
  unfold repairExecutionForTerminalRoot
  refine .execution fun x _ => .session fun txRoot _ => .when (fun _ => ?_) fun _ _ => .pure trivial
  refine .execution fun x _ => .when_last fun _ => .read (.ofOption fun _ _ => ?_)
  exact writeExecutionTerminal_within _ _ _ (.inr (.inr (.inr (.inr (.inr ⟨root, rfl⟩)))))

theorem mem_of_nextTask {choice : Nat} {id : SessionId} {row : TaskRow}
    (h : nextTask db choice id = some row) : row ∈ db.taskQueue.rows ∧ row.sessionId = id :=
  Db.mem_tasksOf.mp (firstBy_eq_some h).1

/-- The row the queue hands out is the session's, under its id. -/
theorem sessionId_of_nextTask {choice : Nat} {id : SessionId} {row t : TaskRow}
    (h : nextTask db choice id = some row) (ht : t ∈ db.taskQueue.rows) (hid : t.id = row.id) :
    t.sessionId = id := by
  obtain ⟨hrow, hsession⟩ := mem_of_nextTask h
  rw [db.taskQueue.eq_of_key_eq ht hrow hid, hsession]

theorem issueAssign_within (session : Session) (resume : Bool) (worker : Option WorkerId) :
    Within ((Write.issueAssign session resume worker).permit env)
      (issueAssign env session resume worker) (fun _ _ => True) db := by
  unfold issueAssign
  refine .execution fun x _ => .agent fun a _ => .execution fun x _ => .require fun _ => .read ?_
  refine .forSome (fun row hrow => .deleteTask_last fun t ht hid => ?_) fun _ _ => ?_
  · exact .inl ⟨session, resume, worker, rfl, sessionId_of_nextTask hrow ht hid⟩
  · refine .require fun _ => ?_
    refine .updateSession nofun (fun s hs => ⟨session, resume, rfl, Db.id_of_session? hs, rfl⟩) ?_
    refine .require fun _ => .when (fun _ => ?_) fun _ _ => .pure trivial
    exact .updateExecution trivial (.pure trivial)

theorem issueFeedTurn_within (session : Session) :
    Within ((Write.issueFeedTurn session).permit env) (issueFeedTurn env session)
      (fun _ _ => True) db := by
  unfold issueFeedTurn
  refine .execution fun x _ => .execution fun x _ => .require fun _ => .read (.ofOption fun row hrow => ?_)
  refine .deleteTask (fun t ht hid => .inr ⟨session, rfl, sessionId_of_nextTask hrow ht hid⟩) ?_
  refine .updateSession nofun (fun s hs => ⟨session, rfl, Db.id_of_session? hs, rfl, rfl⟩) ?_
  refine .require fun _ => .when (fun _ => ?_) fun _ _ => .pure trivial
  exact .updateExecution trivial (.pure trivial)

theorem issueStopTurn_within (session : Session) :
    Within ((Write.issueStopTurn session).permit env) (issueStopTurn env session)
      (fun _ _ => True) db := by
  unfold issueStopTurn
  refine .execution fun x _ => ?_
  refine .updateSession nofun (fun s hs => ⟨session, rfl, Db.id_of_session? hs, rfl, rfl⟩) ?_
  exact .require fun _ => .pure trivial

theorem issueCancel_within (session : Session) :
    Within ((Write.issueCancel session).permit env) (issueCancel env session)
      (fun _ _ => True) db := by
  unfold issueCancel
  refine .execution fun x _ => ?_
  refine .updateSession nofun (fun s hs => ⟨session, rfl, Db.id_of_session? hs, rfl, rfl⟩) ?_
  exact .require fun _ => .pure trivial

theorem notifyParent_within (finalized session : Session) (desiredBy : DesiredBy)
    (parentId : SessionId) (e : ρ) (hid : session.id = finalized.id) :
    Within ((Write.finalize finalized).permit env) (notifyParent env session desiredBy parentId e)
      (fun _ _ => True) db := by
  unfold notifyParent
  refine .execution fun x _ => .read (.when_last fun _ => .forSome_last fun parent hparent => ?_)
  refine .when_last fun _ => ?_
  have hmark : ∀ s, db.session? session.id = some s →
      ((Write.finalize finalized).permit env).update s (.markParentNotified desiredBy) :=
    fun s hs => ⟨finalized, rfl, (Db.id_of_session? hs).trans hid⟩
  refine .updateSession nofun hmark (.when_last fun _ => ?_)
  apply enqueueResumed_within
  · -- marking the child does not touch what its parent is desired to do
    intro s hs hstop
    obtain ⟨t, ht, rfl | ⟨-, rfl⟩⟩ := Db.session?_of_updateSession hmark hs
    · exact Option.some.inj (hparent.symm.trans ht) ▸ hstop
    · obtain rfl := Option.some.inj (hparent.symm.trans ht)
      unfold SessionUpdate.apply at hstop
      split at hstop
      · exact hstop
      · exact hstop
  · exact fun _ => insertEvent_within fun _ => logs_inert (inert_notificationEvent _ _)

/-- Nothing `finalize` does takes a terminated session back. -/
theorem terminate_of_finalize {finalized s s' : Session}
    (h : Db.RowSteps ((Write.finalize finalized).permit env) s s') (hs : s.desired = .terminate) :
    s'.desired = .terminate := by
  refine h.keeps (I := fun s => s.desired = .terminate) hs fun s u hu hs => ?_
  unfold SessionUpdate.apply
  split
  · rename_i hm
    cases u <;> simp_all [Write.permit, Write.updates, SessionUpdate.set, SessionUpdate.matches]
  · exact hs

theorem finalize_within (session : Session) :
    Within ((Write.finalize session).permit env) (finalize env session) (fun _ _ => True) db := by
  unfold finalize
  refine .execution fun x _ => .read (.forSome (fun current hcurrent => ?_) fun _ _ => .pure trivial)
  have hid := Db.id_of_session? hcurrent
  refine .when_last fun hterminate => ?_
  refine .deleteTasks (fun s hs => ⟨session, rfl, (Db.id_of_session? hs).trans hid, ?_⟩) ?_
  · rw [hid] at hs
    exact Option.some.inj (hcurrent.symm.trans hs) ▸ hterminate
  · refine .bind (Q := fun _ _ => True) ?_ fun _ db' hsteps _ => .when_last fun _ => ?_
    · unfold notifyParentOfCrash
      refine .forSome_last fun desiredBy _ => .forSome_last fun parentId _ => .when_last fun _ => ?_
      exact notifyParent_within session current desiredBy parentId _ hid
    · refine .updateSession nofun (fun s hs => ⟨session, rfl, (Db.id_of_session? hs).trans hid, ?_⟩)
        (.pure trivial)
      rw [hid] at hs
      obtain ⟨s', hs', hrow⟩ := hsteps.session_stays (by rintro _ _ ⟨_, h, -⟩; cases h)
        ((Db.session?_deleteTasks db current.id session.id).trans hcurrent)
      exact Option.some.inj (hs'.symm.trans hs) ▸ terminate_of_finalize hrow hterminate

/-! ## `services/execution.rs` -/

open Creation

theorem createExecution_within (new : NewExecution) :
    Within ((Write.createExecution new).permit env) (createExecution env new)
      (fun _ _ => True) db := by
  unfold createExecution
  refine .read (.ofOption fun executions hins => ?_)
  refine .step rfl (.insertExecution (P := (Write.createExecution new).permit env) hins
    ⟨new, rfl, rfl, rfl, rfl, rfl⟩) ?_
  refine .forSome (fun ceiling _ => insertEvent_within fun _ => logs_inert ?_) fun _ _ => .pure trivial
  exact inert_of_data rfl (by decide) (by decide) (by decide)

theorem createSession_within (executionId : ExecutionId) (agentId : AgentId)
    (cwd worktreePath baseCommitSha : Option String) (sandboxPolicy : String) :
    Within ((Write.createSession executionId agentId cwd worktreePath baseCommitSha
        sandboxPolicy).permit env)
      (createSession env executionId agentId cwd worktreePath baseCommitSha sandboxPolicy)
      (fun _ _ => True) db := by
  unfold createSession
  refine .insertSession ?_ fun _ _ => .pure trivial
  exact ⟨_, _, _, _, _, _, _, _, rfl, .inl ⟨rfl, rfl⟩⟩

theorem insertLocked_within (executionId : ExecutionId) (sessionId : Option SessionId)
    (eventType : EventType) (payload : Json) :
    Within ((Write.insertLocked executionId sessionId eventType payload).permit env)
      (insertLocked env executionId sessionId eventType payload) (fun _ _ => True) db := by
  unfold insertLocked
  refine .execution fun x _ => .insertEvent ⟨absurd rfl, fun h => .inr (.inr (.inr ?_))⟩ (.pure trivial)
  obtain rfl : eventType = .platform := h
  exact ⟨executionId, sessionId, rfl⟩

theorem insertExecutionAgents_within (executionId : ExecutionId) (agentIds : List AgentId) :
    Within ((Write.insertExecutionAgents executionId agentIds).permit env)
      (insertExecutionAgents executionId agentIds) (fun _ _ => True) db :=
  .step rfl (.agents db.agents _) (.pure trivial)

theorem pushTask_within (executionId : ExecutionId) (sessionId : SessionId) (payload : Json) :
    Within ((Write.pushTask executionId sessionId payload).permit env)
      (pushTask env executionId sessionId payload) (fun _ _ => True) db := by
  unfold pushTask
  refine .insertTask (fun s hs => ⟨rfl, .inr (.inl ?_)⟩) (.pure trivial)
  exact ⟨executionId, payload, by rw [Db.id_of_session? hs]⟩

theorem createWithWidthGuard_within (executionId : ExecutionId) (agentId : AgentId)
    (parentId : SessionId) (cwd : Option String) (active : Nat) (maxWidth : Int) (sandboxPolicy : String) :
    Within ((Write.createWithWidthGuard executionId agentId parentId cwd active maxWidth
        sandboxPolicy).permit env)
      (createWithWidthGuard env executionId agentId parentId cwd active maxWidth sandboxPolicy)
      (fun _ _ => True) db := by
  unfold createWithWidthGuard
  refine .require fun _ => .insertSession ?_ fun _ _ => .pure trivial
  exact ⟨_, _, _, _, _, _, _, _, rfl, .inr (.inl ⟨_, _, _, rfl, rfl, rfl⟩)⟩

theorem delegate_within (executionId : ExecutionId) (parentId childId : SessionId)
    (agentName parentName prompt : String) (taskPayload : Json) :
    Within ((Write.delegate executionId parentId childId agentName parentName prompt
        taskPayload).permit env)
      (delegate env executionId parentId childId agentName parentName prompt taskPayload)
      (fun _ _ => True) db := by
  unfold delegate
  refine .execution fun x _ => .execution fun x _ => .require fun _ => .session fun parent _ => ?_
  refine .require fun _ => .insertEvent (logs_inert ?_) (.insertEvent (logs_other (by simp)) ?_)
  · exact inert_of_data rfl (by decide) (by decide) (by decide)
  · refine .insertTask (fun s hs => ⟨rfl, .inr (.inr (.inl ?_))⟩) (.pure trivial)
    have hid : s.id = childId := Db.id_of_session? hs
    exact ⟨executionId, parentId, agentName, parentName, prompt, taskPayload, by rw [hid]⟩

theorem deleteSession_within (id : SessionId) :
    Within ((Write.deleteSession id).permit env) (deleteSession id) (fun _ _ => True) db := by
  unfold deleteSession
  refine .read (.require fun _ => ?_)
  exact .step rfl (.deleteSessions (P := (Write.deleteSession id).permit env) ⟨id, rfl, rfl⟩)
    (.pure trivial)

/-! ## `api/sessions.rs` and `api/escalate.rs` -/

open SessionsApi

theorem recover_within (session : Session) (clearAgentSessionId : Bool) (message : Option String) :
    Within ((Write.recover session clearAgentSessionId message).permit env)
      (SessionsApi.recover env session clearAgentSessionId message) (fun _ _ => True) db := by
  unfold SessionsApi.recover
  refine .execution fun x _ => .when (fun _ => ?_) fun db' _ => .agent fun a _ => .require fun _ => ?_
  · exact .execution fun x _ => .require fun _ => .read .require_last
  · refine .updateSession nofun (fun s hs => ⟨session, message, rfl, Db.id_of_session? hs⟩) ?_
    refine .require fun haffected => .forSome (fun text _ => ?_) fun _ _ => ?_
    · refine .insertTask_last fun s hs => ⟨rfl, .inl ?_⟩
      obtain ⟨t, -, -, rfl⟩ := Db.session?_of_affects haffected hs
      simp [SessionUpdate.set]
    · refine .bind (Q := fun _ _ => True) ?_ fun reopened _ _ _ => ?_
      · unfold reopenIf
        split
        · rename_i hroot
          refine .execution fun x _ => .when (fun _ => ?_) fun _ _ => .pure trivial
          refine .updateExecution ?_ (.pure trivial)
          exact ⟨session, clearAgentSessionId, message, rfl, rfl, by simpa using hroot⟩
        · exact .pure trivial
      · refine .insertEvent (logs_other (by simp)) (.when (fun _ => ?_) fun _ _ => .pure trivial)
        exact insertEvent_within fun _ => logs_other (by simp)

theorem clearWorktreePath_within (id : SessionId) :
    Within ((Write.clearWorktreePath id).permit env) (clearWorktreePath id) (fun _ _ => True) db :=
  .updateSession nofun (fun _ _ => trivial) (.pure trivial)

theorem escalate_within (executionId : ExecutionId) (sessionId : SessionId) (importance : String)
    (questions : List Json) :
    Within ((Write.escalate executionId sessionId importance questions).permit env)
      (escalate env executionId sessionId importance questions) (fun _ _ => True) db := by
  unfold escalate
  refine .execution fun x _ => .insertEvent ⟨absurd rfl, fun _ => .inr (.inr (.inl ?_))⟩ (.pure trivial)
  exact ⟨sessionId, importance, questions, rfl, rfl, rfl⟩

theorem dismiss_within (escalation : Escalation) :
    Within ((Write.dismiss escalation).permit env) (dismiss env escalation)
      (fun _ _ => True) db := by
  unfold dismiss
  refine .execution fun x _ => .read (.forSome (fun _ _ => .rollback) fun _ _ => ?_)
  refine .execution fun x _ => .require fun _ => .insertEvent
    ⟨absurd rfl, fun _ => .inr (.inl (.inr ?_))⟩ (.pure trivial)
  exact ⟨escalation, rfl, rfl, rfl, rfl⟩

/-- Moving the SDK session leaves every session desired to do the same. -/
theorem transferAgentSession_within (old : Session) (parentId : SessionId) (resumable : Bool)
    (parts : List Json) (oldId newId : SessionId) (held : Option String) (e : ρ) :
    Within ((Write.continueFrom old parentId resumable parts).permit env)
      (transferAgentSession oldId newId held e) (fun _ db' => db.SameDesired db') db := by
  unfold transferAgentSession
  cases held with
  | none => exact .pure (Db.SameDesired.refl db)
  | some agentSessionId =>
      refine .updateSession nofun (fun _ _ => ⟨_, _, _, _, rfl⟩)
        (.updateSession nofun (fun _ _ => ⟨_, _, _, _, rfl⟩) ?_)
      have htaken : db.SameDesired (db.updateSession newId (.takeAgentSession agentSessionId)) :=
        Db.sameDesired_updateSession db fun _ => rfl
      unfold Within
      rw [wp_require]
      refine ⟨fun _ => ⟨.refl, htaken.trans ?_⟩, fun _ => trivial⟩
      exact Db.sameDesired_updateSession _ fun _ => rfl

theorem continueFrom_within (old : Session) (parentId : SessionId) (resumable : Bool)
    (parts : List Json) :
    Within ((Write.continueFrom old parentId resumable parts).permit env)
      (continueFrom env old parentId resumable parts) (fun _ _ => True) db := by
  unfold continueFrom
  refine .execution fun x _ => .session fun recheck _ => .require fun _ => .execution fun x _ => ?_
  refine .require fun _ => .session fun parent hparent => .require fun _ => .agent fun a _ => ?_
  refine .require fun _ => .insertSession ?_ fun sessions hins => ?_
  · exact ⟨_, _, _, _, _, _, _, _, rfl, .inr (.inr ⟨_, _, _, _, rfl, rfl, rfl, rfl⟩)⟩
  refine .bind (Q := fun _ db' => Db.SameDesired { db with sessions } db') ?_ fun _ db₁ _ h₁ => ?_
  · unfold Tx.when
    split
    · refine .updateSession nofun (fun _ _ => trivial) (.pure ?_)
      exact Db.sameDesired_updateSession _ fun _ => rfl
    · exact .pure (Db.SameDesired.refl _)
  refine .bind (Q := fun _ db' => Db.SameDesired db₁ db') ?_ fun _ db₂ _ h₂ => ?_
  · unfold Tx.when
    split
    · exact transferAgentSession_within _ _ _ _ _ _ _ _
    · exact .pure (Db.SameDesired.refl _)
  -- what the inserted row and the parent are desired to do, up to here
  have hfound : ∀ j s, db₂.session? j = some s →
      ∃ t, (if j = env.uuid then some (newSession env.uuid old.executionId old.agentId
        (some parentId) old.cwd old.worktreePath old.baseCommitSha env.slug (some old.id)
        old.sandboxPolicy env.now) else db.session? j) = some t ∧ t.desired = s.desired := by
    intro j s hs
    obtain ⟨t, ht, hts⟩ := (h₁.trans h₂) j s hs
    exact ⟨t, (Table.find?_insert? hins j).symm.trans ht, hts⟩
  have hnew : parentId ≠ env.uuid := by
    rintro rfl
    have hnone : db.session? env.uuid = none := (Table.insert?_eq_some hins).1
    rw [hnone] at hparent
    cases hparent
  refine .insertEvent (logs_other (by simp)) (.insertTask (fun s hs => ⟨rfl, .inl ?_⟩) ?_)
  · obtain ⟨t, ht, hts⟩ := hfound env.uuid s hs
    rw [if_pos rfl] at ht
    obtain rfl := Option.some.inj ht
    rw [← hts]; simp [newSession]
  have hrest : ∀ db', Within ((Write.continueFrom old parentId resumable parts).permit env)
      (do
        let _ ← DbTx.insertEvent old.executionId (some parentId) .platform
          (continuedData old.id env.uuid) env.now (.error (dbError "insert platform event"))
        pure (.ok env.uuid) :
          DbTx (Except SchedulerError SessionId) (Except SchedulerError SessionId))
      (fun _ _ => True) db' :=
    fun db' => .insertEvent (logs_inert (inert_of_no_parts rfl)) (.pure trivial)
  cases hswallow : env.swallow with
  | false =>
      apply enqueueResumed_within
      · intro s hs hstop
        obtain ⟨t, ht, hts⟩ := hfound parentId s hs
        rw [if_neg hnew] at ht
        obtain rfl := Option.some.inj (hparent.symm.trans ht)
        exact ⟨hts.trans hstop, rfl⟩
      · exact hrest
  | true =>
      refine .when (fun h => absurd h.2 (by simp)) fun _ _ => ?_
      refine .insertTask (fun s hs => ⟨rfl, .inr (.inr (.inr ?_))⟩) (hrest _)
      exact ⟨old, resumable, parts, by rw [Db.id_of_session? hs], hswallow⟩

/-! ## `api/handlers/worker_sync.rs` -/

open WorkerSync

theorem insertTurnMessage_within (hw : w.numbers) (executionId : ExecutionId) (sessionId : SessionId)
    (message : Option Int × Json) (e : ρ) :
    Within (w.permit env) (insertTurnMessage env executionId sessionId message e)
      (fun _ _ => True) db := by
  unfold insertTurnMessage
  split
  · exact .insertEventDedup (logs_numbered hw (by simp)) fun _ _ _ => .pure trivial
  · exact insertEvent_within fun _ => logs_other (by simp)

theorem processTurnResult_within (hw : w.numbers) (executionId : ExecutionId) (session : Session)
    (result : TurnResult) (e : ρ) :
    Within (w.permit env) (processTurnResult env executionId session result e)
      (fun _ _ => True) db := by
  unfold processTurnResult
  refine .bind (.forM fun m _ db => insertTurnMessage_within hw executionId session.id m e)
    fun _ _ _ _ => .forSome_last fun error _ => ?_
  exact insertEvent_within fun _ => logs_inert (inert_of_no_parts rfl)

theorem completeTurn_within (executionId : ExecutionId) (session child : Session)
    (notifyParent : Option SessionId) (e : ρ) :
    Within (w.permit env) (completeTurn env executionId session child notifyParent e)
      (fun _ _ => True) db := by
  unfold completeTurn
  refine .read (.when_last fun _ => ?_)
  cases notifyParent with
  | none =>
      refine .when_last fun _ => .insertEvent (logs_inert (inert_turnCompleteEvent _)) ?_
      exact .updateExecution trivial (.pure trivial)
  | some parentId =>
      refine .forSome_last fun parent hparent => ?_
      unfold notifyParentOfTurn
      apply enqueueResumed_within
      · intro s hs hstop
        have hp : db.session? parentId = some parent := by
          unfold notifiableParent at hparent
          split at hparent
          · split at hparent
            · exact (Option.filter_eq_some_iff.mp hparent).1
            · cases hparent
          · cases hparent
        exact Option.some.inj (hp.symm.trans hs) ▸ (by simpa using hstop)
      · exact fun _ => insertEvent_within fun _ => logs_inert (inert_turnCompleteEvent _)

theorem session?_of_sessionByToken {token : String} {row : Session}
    (h : sessionByToken db token = some row) :
    db.session? row.id = some row ∧ row.commandToken = some token :=
  ⟨Db.session?_of_mem (List.mem_of_find?_eq_some h), by simpa using List.find?_some h⟩

theorem processCommandAck_within (executionId : ExecutionId) (request : SyncRequest)
    (held : Option Session) (notify : Bool) (parent : Option SessionId) (token : String)
    (htoken : request.commandAck = some token) :
    Within ((Write.resultTx executionId request held notify parent).permit env)
      (processCommandAck request.workerId token : DbTx ρ AckResult) (fun _ _ => True) db := by
  unfold processCommandAck
  refine .read ?_
  split
  · exact .pure trivial
  · rename_i row hrow
    have hsession := (session?_of_sessionByToken hrow).1
    split
    · exact .pure trivial
    · rename_i hworker
      refine .updateSession (by intro; split <;> nofun) (fun s hs => ?_) (.pure trivial)
      obtain rfl := Option.some.inj (hsession.symm.trans hs)
      have howner : row.workerId = some request.workerId := by simpa using hworker
      split
      · rename_i hcancel
        rw [Bool.and_eq_true] at hcancel
        exact ⟨executionId, request, held, notify, parent, rfl, htoken, howner, hcancel.2⟩
      · exact ⟨executionId, request, held, notify, parent, rfl, htoken, howner⟩

theorem resultTx_within (executionId : ExecutionId) (request : SyncRequest)
    (held : Option Session) (shouldNotify : Bool) (notifyParent : Option SessionId) :
    Within ((Write.resultTx executionId request held shouldNotify notifyParent).permit env)
      (resultTx env executionId request held shouldNotify notifyParent) (fun _ _ => True) db := by
  unfold resultTx
  refine .execution fun x _ => .read (.bind (Q := fun _ _ => True) ?_ fun child _ _ _ => ?_)
  · unfold applyTurnResult
    refine .read ?_
    split
    · split
      · split
        · exact .bind (processTurnResult_within (.inr ⟨_, _, _, _, _, rfl⟩) _ _ _ _) fun _ _ _ _ => .pure trivial
        · exact .pure trivial
      · exact .pure trivial
    · exact .pure trivial
  · refine .when (fun _ => ?_) fun _ _ => ?_
    · exact .forSome_last fun s _ => .forSome_last fun c _ => completeTurn_within _ _ _ _ _
    · cases htoken : request.commandAck with
      | none => exact .pure trivial
      | some token =>
          refine .bind (m := processCommandAck request.workerId token) (Q := fun _ _ => True) ?_
            fun _ _ _ _ => .pure trivial
          exact processCommandAck_within executionId request held shouldNotify notifyParent token htoken

theorem updateAgentSessionId_within (id : SessionId) (agentSessionId : String)
    (worker : WorkerId) :
    Within ((Write.updateAgentSessionId id agentSessionId worker).permit env)
      (updateAgentSessionId id agentSessionId worker) (fun _ _ => True) db := by
  refine .updateSession nofun (fun s hs => ?_) (.require fun _ => .pure trivial)
  show Write.updateAgentSessionId id agentSessionId worker = _
  rw [Db.id_of_session? hs]

theorem workerEvent_within (executionId : ExecutionId) (sessionId : SessionId) (worker : WorkerId)
    (msgSeq : Int) (payload : Json) :
    Within ((Write.workerEvent executionId sessionId worker msgSeq payload).permit env)
      (workerEvent env executionId sessionId worker msgSeq payload) (fun _ _ => True) db := by
  unfold workerEvent
  refine .execution fun x _ => .session fun s _ => .require fun _ => ?_
  exact .insertEventDedup (logs_numbered (.inl ⟨_, _, _, _, _, rfl⟩) (by simp)) fun _ _ _ => .pure trivial

theorem putAgent_within (agent : Agent) :
    Within ((Write.putAgent agent).permit env) (AgentBeacon.putAgent agent) (fun _ _ => True) db :=
  .read (.ofOption fun agents _ => .step rfl (.agents agents db.executionAgents) (.pure trivial))

/-! ## Every transaction -/

/-- A transaction's reply and the database it leaves. -/
def DbTransaction.run (t : DbTransaction) (env : Env) (db : Db) : t.Reply × Db :=
  match env.fault with
  | some fault => (t.failed fault, db)
  | none => Tx.commit (t.body env) db

section Post

variable {α : Type}

/-- **What holds of a reply and the database left** holds when the database fails the transaction,
and when its body commits or rolls back. -/
theorem scheduling_post {m : Env → DbTx (Except SchedulerError α) (Except SchedulerError α)}
    {P : Except SchedulerError α → Db → Prop}
    (hfault : ∀ message retryable, P (.error (.database message retryable)) db)
    (hbody : Tx.wp (m env) P (fun e => P e db) db) :
    P ((DbTransaction.scheduling m).run env db).1 ((DbTransaction.scheduling m).run env db).2 := by
  unfold DbTransaction.run
  split
  · exact hfault _ _
  · exact Tx.commit_post hbody

theorem rejecting_post {m : Env → DbTx (Except Rejected α) (Except Rejected α)}
    {P : Except Rejected α → Db → Prop}
    (hfault : ∀ message, P (.error (.invalidTransition message)) db)
    (hbody : Tx.wp (m env) P (fun e => P e db) db) :
    P ((DbTransaction.rejecting m).run env db).1 ((DbTransaction.rejecting m).run env db).2 := by
  unfold DbTransaction.run
  split
  · exact hfault _
  · exact Tx.commit_post hbody

end Post

/-- **No transaction does more than its permit says.** -/
theorem Write.steps (w : Write) (env : Env) (db : Db) :
    Db.Steps (w.permit env) db (w.run env db).2 := by
  unfold Write.run
  split
  · exact .refl
  · refine Tx.commit_rel .refl (Tx.wp_mono (?_ : Within (w.permit env) (w.transaction.body env)
      (fun _ _ => True) db) (fun _ _ h => h.1) fun _ h => h)
    cases w with
    | createExecution new => exact createExecution_within new
    | createSession => exact createSession_within _ _ _ _ _ _
    | insertLocked => exact insertLocked_within _ _ _ _
    | insertExecutionAgents => exact insertExecutionAgents_within _ _
    | pushTask => exact pushTask_within _ _ _
    | createWithWidthGuard => exact createWithWidthGuard_within _ _ _ _ _ _ _
    | delegate => exact delegate_within _ _ _ _ _ _ _
    | deleteSession id => exact deleteSession_within id
    | setDesiredTerminate => exact setDesiredTerminate_within _ _ _
    | setDesiredStop => exact setDesiredStop_within _ _ _
    | setDesiredRun => exact setDesiredRun_within _ _
    | sendMessage => exact sendMessage_within _ _
    | setExecutorState => exact setExecutorState_within _ _ _ _
    | terminateFailed => exact terminateFailed_within _ _ _
    | detectCrash => exact detectCrash_within _ _ _
    | retryRecovery => exact retryRecovery_within _
    | repairRootOutcome => exact repairRootOutcome_within _ _
    | repairChildOutcome => exact repairChildOutcome_within _
    | repairDesired => exact repairDesired_within _
    | repairExecution => exact repairExecution_within _
    | repairCommand => exact repairCommand_within _
    | repairExecutionForTerminalRoot => exact repairExecutionForTerminalRoot_within _ _
    | issueAssign => exact issueAssign_within _ _ _
    | issueFeedTurn => exact issueFeedTurn_within _
    | issueStopTurn => exact issueStopTurn_within _
    | issueCancel => exact issueCancel_within _
    | finalize => exact finalize_within _
    | continueFrom => exact continueFrom_within _ _ _ _
    | recover => exact recover_within _ _ _
    | clearWorktreePath => exact clearWorktreePath_within _
    | escalate => exact escalate_within _ _ _ _
    | dismiss => exact dismiss_within _
    | resultTx => exact resultTx_within _ _ _ _ _
    | updateAgentSessionId => exact updateAgentSessionId_within _ _ _
    | workerEvent => exact workerEvent_within _ _ _ _ _
    | putAgent => exact putAgent_within _

end AgentBeacon
