import AgentBeacon.System.Numbers

/-!
# `System.Additions` — what the transactions of a sync add

The log and the queue only grow in the transactions behind a worker's sync. What one of them adds, other
than records of state changes, is determined by the row it finds: nothing, or the messages whose numbers
are free, the error of the turn, and the notification of its end.
-/

namespace AgentBeacon
open Relational Transaction Interleave Transition WorkerSync FirstWins

/-- No message, error or platform event is new, and no task. -/
def AddsNothing (db db' : Db) : Prop :=
  (∀ row ∈ db'.events.rows, row.eventType ≠ .stateChange → row ∈ db.events.rows) ∧
    ∀ t ∈ db'.taskQueue.rows, t ∈ db.taskQueue.rows

/-- Rows are appended to the log and the queue, and nothing but state changes exactly if `quiet`. -/
def Appended (db db' : Db) (quiet : Prop) : Prop :=
  ∃ events tasks, db'.events.rows = db.events.rows ++ events ∧
    db'.taskQueue.rows = db.taskQueue.rows ++ tasks ∧
    (((∀ row ∈ events, row.eventType = .stateChange) ∧ tasks = []) ↔ quiet)

namespace Appended

variable {db db' db'' : Db} {quiet quiet' : Prop}

theorem of_same (hevents : db'.events = db.events) (htasks : db'.taskQueue = db.taskQueue) :
    Appended db db' True := by
  refine ⟨[], [], ?_, ?_, ?_⟩
  · rw [hevents, List.append_nil]
  · rw [htasks, List.append_nil]
  · exact iff_of_true ⟨nofun, rfl⟩ trivial

theorem refl : Appended db db True := of_same rfl rfl

theorem trans (h : Appended db db' quiet) (h' : Appended db' db'' quiet') :
    Appended db db'' (quiet ∧ quiet') := by
  obtain ⟨events, tasks, hevents, htasks, hquiet⟩ := h
  obtain ⟨events', tasks', hevents', htasks', hquiet'⟩ := h'
  refine ⟨events ++ events', tasks ++ tasks', ?_, ?_, ?_⟩
  · rw [hevents', hevents, List.append_assoc]
  · rw [htasks', htasks, List.append_assoc]
  · rw [← hquiet, ← hquiet', List.append_eq_nil_iff]
    constructor
    · rintro ⟨hall, hnil, hnil'⟩
      refine ⟨⟨fun row hrow => ?_, hnil⟩, fun row hrow => ?_, hnil'⟩
      · exact hall row (List.mem_append_left _ hrow)
      · exact hall row (List.mem_append_right _ hrow)
    · rintro ⟨⟨hleft, hnil⟩, hright, hnil'⟩
      refine ⟨fun row hrow => ?_, hnil, hnil'⟩
      rcases List.mem_append.mp hrow with hrow | hrow
      · exact hleft row hrow
      · exact hright row hrow

theorem congr (h : Appended db db' quiet) (hiff : quiet ↔ quiet') : Appended db db' quiet' := by
  obtain ⟨events, tasks, hevents, htasks, hquiet⟩ := h
  exact ⟨events, tasks, hevents, htasks, hquiet.trans hiff⟩

/-- An appended row is a new one. -/
theorem notMem_of_appended {ρ : Type} {key : ρ → Nat} {table table' : AutoTable ρ key} {rows : List ρ}
    (h : table'.rows = table.rows ++ rows) {row : ρ} (hrow : row ∈ rows) : row ∉ table.rows := by
  intro hold
  have hascending := table'.ascending
  rw [h, List.map_append, List.pairwise_append] at hascending
  exact lt_irrefl _ (hascending.2.2 _ (List.mem_map_of_mem hold) _ (List.mem_map_of_mem hrow))

theorem addsNothing_iff (h : Appended db db' quiet) : AddsNothing db db' ↔ quiet := by
  obtain ⟨events, tasks, hevents, htasks, hquiet⟩ := h
  rw [← hquiet]
  unfold AddsNothing
  rw [hevents, htasks]
  constructor
  · rintro ⟨hlog, hqueue⟩
    refine ⟨fun row hrow => ?_, List.eq_nil_iff_forall_not_mem.mpr fun t ht => ?_⟩
    · by_contra htype
      exact notMem_of_appended hevents hrow (hlog row (List.mem_append_right _ hrow) htype)
    · exact notMem_of_appended htasks ht (hqueue t (List.mem_append_right _ ht))
  · rintro ⟨hall, rfl⟩
    refine ⟨fun row hrow htype => ?_, fun t ht => ?_⟩
    · rcases List.mem_append.mp hrow with hold | hnew
      · exact hold
      · exact absurd (hall row hnew) htype
    · rwa [List.append_nil] at ht

theorem pushEvent (executionId : ExecutionId) (id : Option SessionId) (type : EventType) (payload : Json)
    (seq : Option Int) (now : Timestamp) :
    Appended db (db.pushEvent executionId id type payload seq now) (type = .stateChange) := by
  refine ⟨[⟨db.events.next, executionId, id, type, payload, seq, now⟩], [], rfl, (List.append_nil _).symm, ?_⟩
  simp

theorem pushTask (executionId : ExecutionId) (id : SessionId) (payload : Json) (source : Option TaskSource)
    (now : Timestamp) : Appended db (db.pushTask executionId id payload source now) False := by
  refine ⟨[], [⟨db.taskQueue.next, executionId, id, payload, now, source⟩], (List.append_nil _).symm, rfl, ?_⟩
  simp

end Appended

/-- The same of a transaction that leaves the sessions and executions alone so far. -/
structure Logged (db db' : Db) (quiet : Prop) : Prop where
  appended : Appended db db' quiet
  sessions : db'.sessions = db.sessions
  executions : db'.executions = db.executions

namespace Logged

variable {db db' db'' : Db} {quiet quiet' : Prop}

theorem refl : Logged db db True := ⟨.refl, rfl, rfl⟩

theorem trans (h : Logged db db' quiet) (h' : Logged db' db'' quiet') :
    Logged db db'' (quiet ∧ quiet') :=
  ⟨h.appended.trans h'.appended, h'.sessions.trans h.sessions, h'.executions.trans h.executions⟩

theorem congr (h : Logged db db' quiet) (hiff : quiet ↔ quiet') : Logged db db' quiet' :=
  ⟨h.appended.congr hiff, h.sessions, h.executions⟩

end Logged

/-! ## Messages and errors -/

/-- The message is stored already, under its number. -/
def Taken (db : Db) (id : SessionId) (message : Option Int × Json) : Prop :=
  ∃ seq ∈ message.1, seq ∈ (numbered db id).map Prod.fst

section Spec

variable {ρ : Type} {db : Db} {E : ρ → Prop} {e : ρ}

theorem wp_insertEvent_logged {executionId : ExecutionId} {id : Option SessionId} {type : EventType}
    {payload : Json} {now : Timestamp} (hE : E e) :
    Tx.wp (DbTx.insertEvent executionId id type payload now e)
      (fun _ db' => Logged db db' (type = .stateChange)) E db := by
  rw [DbTx.wp_insertEvent]
  exact ⟨fun _ => ⟨.pushEvent _ _ _ _ _ _, rfl, rfl⟩, fun _ => hE⟩

/-- A message is added unless its number is taken. -/
theorem wp_insertTurnMessage_logged {env : Env} {executionId : ExecutionId} {sessionId : SessionId}
    {message : Option Int × Json} (hE : E e) :
    Tx.wp (insertTurnMessage env executionId sessionId message e)
      (fun _ db' => Logged db db' (Taken db sessionId message)) E db := by
  obtain ⟨seq, payload⟩ := message
  cases seq with
  | some seq =>
      show Tx.wp (DbTx.insertEventDedup executionId sessionId .message payload seq env.now e >>= fun _ =>
        pure ()) _ E db
      unfold DbTx.insertEventDedup
      rw [Tx.wp_bind]
      refine Tx.seq_read (Tx.seq_require (fun _ => ?_) fun _ => hE)
      rw [Tx.wp_ite]
      refine ⟨fun htaken => ?_, fun hfree => ?_⟩
      · refine Logged.refl.congr (iff_of_true trivial ?_)
        exact ⟨seq, rfl, mem_keys_numbered.mpr htaken⟩
      · refine Tx.seq_require (fun _ => Tx.seq_write ?_) fun _ => hE
        refine Logged.congr ⟨.pushEvent _ _ _ _ _ _, rfl, rfl⟩ (iff_of_false (by decide) ?_)
        rintro ⟨_, ⟨⟩, htaken⟩
        exact hfree (mem_keys_numbered.mp htaken)
  | none =>
      refine Tx.seq (wp_insertEvent_logged hE) fun _ db' hdb' => ?_
      refine hdb'.congr (iff_of_false (by decide) ?_)
      rintro ⟨_, ⟨⟩, -⟩

/-- The messages of a turn add nothing if all are stored already. -/
theorem wp_insertTurnMessages_logged {env : Env} {executionId : ExecutionId} {sessionId : SessionId}
    {messages : List (Option Int × Json)} (hE : E e) :
    Tx.wp (messages.forM fun message => insertTurnMessage env executionId sessionId message e)
      (fun _ db' => Logged db db' (∀ message ∈ messages, Taken db sessionId message)) E db := by
  induction messages generalizing db with
  | nil => exact Logged.refl.congr (iff_of_true trivial nofun)
  | cons message messages ih =>
      show Tx.wp (insertTurnMessage env executionId sessionId message e >>= fun _ =>
        messages.forM fun message => insertTurnMessage env executionId sessionId message e) _ E db
      refine Tx.seq (Tx.wp_mono (Tx.wp_and (wp_insertTurnMessage_logged hE)
        (wp_insertTurnMessage hE)) (fun _ _ h => h) fun _ h => h.1) fun _ db₁ hdb₁ => ?_
      obtain ⟨hlogged, hstored⟩ := hdb₁
      refine Tx.wp_mono ih (fun _ db' hdb' => (hlogged.trans hdb').congr ?_) fun _ h => h
      rw [List.forall_mem_cons]
      refine and_congr_right fun htaken => ?_
      -- the first message is stored already, so that the numbers are as they were
      have hsame : numbered db₁ sessionId = numbered db sessionId := by
        obtain ⟨seq, hseq, hmem⟩ := htaken
        obtain ⟨_, payload⟩ := message
        obtain rfl := hseq
        rw [hstored sessionId, if_pos rfl]
        exact offer_of_mem hmem
      unfold Taken
      rw [hsame]

theorem wp_processTurnResult_logged {env : Env} {executionId : ExecutionId} {session : Session}
    {result : TurnResult} (hE : E e) :
    Tx.wp (processTurnResult env executionId session result e) (fun _ db' => Logged db db'
      ((∀ message ∈ result.messages, Taken db session.id message) ∧ result.error = none)) E db := by
  unfold processTurnResult
  refine Tx.seq (wp_insertTurnMessages_logged hE) fun _ db₁ hdb₁ => ?_
  rw [Tx.wp_forSome]
  refine ⟨fun error herror => ?_, fun hnone => ?_⟩
  · refine Tx.seq (wp_insertEvent_logged hE) fun _ db' hdb' => (hdb₁.trans hdb').congr ?_
    rw [herror]
    exact and_congr_right fun _ => iff_of_false (by decide) nofun
  · exact hdb₁.congr (iff_of_eq (by rw [hnone, eq_self, and_true]))

/-! ## The notification of a turn's end -/

/-- The end of a turn is notified: the row still runs, and it is a root's, or its parent can be told. -/
def Notifies (db : Db) (session row : Session) (parent : Option SessionId) : Prop :=
  row.desired = .run ∧ row.outcome = none ∧
    match parent with
    | some parentId => (notifiableParent db row parentId).isSome = true
    | none => session.parentSessionId = none

theorem wp_completeTurn_appended {env : Env} {executionId : ExecutionId} {session row : Session}
    {parent : Option SessionId} (hE : E e) :
    Tx.wp (completeTurn env executionId session row parent e)
      (fun _ db' => Appended db db' (¬Notifies db session row parent)) E db := by
  unfold completeTurn
  refine Tx.seq_read ?_
  rw [Tx.wp_when]
  refine ⟨fun hopen => ?_, fun hclosed => ?_⟩
  · cases parent with
    | none =>
        simp only
        rw [Tx.wp_when]
        refine ⟨fun hroot => ?_, fun hchild => ?_⟩
        · refine Tx.seq (wp_insertEvent_logged hE) fun _ db' hdb' => ?_
          refine hdb'.appended.congr (iff_of_false (by decide) fun hno => hno ⟨hopen.1, ?_, ?_⟩)
          · exact Option.isNone_iff_eq_none.mp hopen.2
          · exact Option.isNone_iff_eq_none.mp hroot
        · refine Appended.refl.congr (iff_of_true trivial fun hnotifies => hchild ?_)
          exact Option.isNone_iff_eq_none.mpr hnotifies.2.2
    | some parentId =>
        simp only
        rw [Tx.wp_forSome]
        refine ⟨fun parent hparent => ?_, fun hnone => ?_⟩
        · have hnotifies : Notifies db session row (some parentId) :=
            ⟨hopen.1, Option.isNone_iff_eq_none.mp hopen.2, Option.isSome_of_eq_some hparent⟩
          unfold notifyParentOfTurn
          refine Tx.seq (Q := fun _ db' => Appended db db' True) ?_ fun _ db₁ hdb₁ => ?_
          · rw [Tx.wp_when]
            refine ⟨fun _ => ?_, fun _ => .refl⟩
            unfold resumeStopped
            rw [Tx.wp_bind, DbTx.wp_updateSession, Tx.wp_when]
            refine ⟨fun _ => ?_, fun _ => .of_same rfl rfl⟩
            refine Tx.seq (wp_insertEvent_logged hE) fun _ db' hdb' => ?_
            have hresumed : Appended db (db.updateSession parentId (.resume .systemTurnCompleteNotify)) True :=
              .of_same rfl rfl
            exact (hresumed.trans hdb'.appended).congr (iff_of_true ⟨trivial, rfl⟩ trivial)
          · rw [Tx.wp_bind, DbTx.wp_insertTask]
            refine ⟨fun _ => ?_, fun _ => hE⟩
            refine Tx.seq (wp_insertEvent_logged hE) fun _ db' hdb' => ?_
            refine ((hdb₁.trans (.pushTask _ _ _ _ _)).trans hdb'.appended).congr ?_
            exact iff_of_false (fun h => h.1.2) fun hno => hno hnotifies
        · refine Appended.refl.congr (iff_of_true trivial fun hnotifies => ?_)
          have hsome : (notifiableParent db row parentId).isSome = true := hnotifies.2.2
          rw [hnone] at hsome
          cases hsome
  · refine Appended.refl.congr (iff_of_true trivial fun hnotifies => hclosed ?_)
    exact ⟨hnotifies.1, Option.isNone_iff_eq_none.mpr hnotifies.2.1⟩

theorem wp_processCommandAck_appended {worker : WorkerId} {token : String} :
    Tx.wp (processCommandAck worker token : DbTx ρ AckResult)
      (fun _ db' => Appended db db' True) E db := by
  unfold processCommandAck
  refine Tx.seq_read ?_
  split
  · exact .refl
  · split
    · exact .refl
    · exact Appended.of_same rfl rfl

/-! ## The transactions -/

/-- What a result transaction finds when it adds nothing: the worker does not own the session, or all
messages are stored already, the turn had no error, and its end is not notified. -/
def ResultAbsorbed (db : Db) (request : SyncRequest) (held : Option Session) (notify : Bool)
    (parent : Option SessionId) : Prop :=
  ∀ result ∈ request.turnResult, ∀ session ∈ held, ∀ row ∈ db.session? result.sessionId,
    row.workerId = some request.workerId →
      (∀ message ∈ result.messages, Taken db result.sessionId message) ∧ result.error = none ∧
        ¬(notify = true ∧ Notifies db session row parent)

/-- What the step of the turn result adds, and the row it returns. -/
theorem wp_applyTurnResult_logged {env : Env} {executionId : ExecutionId} {request : SyncRequest}
    {held : Option Session} (hE : E e) :
    Tx.wp (applyTurnResult env executionId request.workerId request.turnResult held e)
      (fun child db' => ((∃ result ∈ request.turnResult, ∃ session ∈ held,
          ∃ row ∈ db.session? result.sessionId, row.workerId = some request.workerId ∧ child = some row ∧
            Logged db db' ((∀ message ∈ result.messages, Taken db result.sessionId message) ∧
              result.error = none)) ∨
        (child = none ∧ db' = db ∧ ∀ result ∈ request.turnResult, ∀ session ∈ held,
          ∀ row ∈ db.session? result.sessionId, row.workerId ≠ some request.workerId))) E db := by
  unfold applyTurnResult
  refine Tx.seq_read ?_
  cases hresult : request.turnResult with
  | none =>
      refine .inr ⟨rfl, rfl, ?_⟩
      intro result hresult'
      cases hresult'
  | some result =>
      cases held with
      | none =>
          refine .inr ⟨rfl, rfl, ?_⟩
          intro _ _ session hsession
          cases hsession
      | some session =>
          simp only
          cases hs : db.session? result.sessionId with
          | none =>
              refine .inr ⟨rfl, rfl, ?_⟩
              rintro _ ⟨⟩ _ - row hrow
              rw [hs] at hrow
              cases hrow
          | some s =>
              simp only
              by_cases howner : s.workerId = some request.workerId
              · rw [if_pos howner]
                refine Tx.seq (wp_processTurnResult_logged hE) fun _ db' hdb' => .inl ?_
                rw [Db.id_of_session? hs] at hdb'
                exact ⟨result, rfl, session, rfl, s, hs, howner, rfl, hdb'⟩
              · rw [if_neg howner]
                refine .inr ⟨rfl, rfl, ?_⟩
                rintro _ ⟨⟩ _ - row hrow
                obtain rfl := Option.some.inj (hs.symm.trans hrow)
                exact howner

end Spec

section Spec

variable {db : Db}

theorem notifies_congr {db db' : Db} (hsessions : db'.sessions = db.sessions)
    (hexecutions : db'.executions = db.executions) (session row : Session) (parent : Option SessionId) :
    Notifies db' session row parent ↔ Notifies db session row parent := by
  have hparent : ∀ parentId, notifiableParent db' row parentId = notifiableParent db row parentId := by
    intro parentId
    unfold notifiableParent Db.execution? Db.session?
    rw [hsessions, hexecutions]
  cases parent with
  | none => exact Iff.rfl
  | some parentId =>
      unfold Notifies
      simp only [hparent]

/-- **What a result transaction adds**, unless it fails. -/
theorem resultTx_appended (executionId : ExecutionId) (request : SyncRequest) (held : Option Session)
    (notify : Bool) (parent : Option SessionId) (env : Env) :
    let run := (Write.resultTx executionId request held notify parent).run env db
    (run.1.isOk = true ∧ Appended db run.2 (ResultAbsorbed db request held notify parent)) ∨
      (run.1.isOk = false ∧ run.2 = db) := by
  refine scheduling_post (m := fun env => resultTx env executionId request held notify parent)
    (P := fun r db' => (r.isOk = true ∧ Appended db db' (ResultAbsorbed db request held notify parent)) ∨
      (r.isOk = false ∧ db' = db)) (fun _ _ => .inr ⟨rfl, rfl⟩) ?_
  unfold resultTx
  have hfails : ((.error (dbError "result transaction failed") : Except SchedulerError ResultTx).isOk = true ∧
      Appended db db (ResultAbsorbed db request held notify parent)) ∨
      ((.error (dbError "result transaction failed") : Except SchedulerError ResultTx).isOk = false ∧
        db = db) := .inr ⟨rfl, rfl⟩
  refine DbTx.seq_execution (fun _ _ => Tx.seq_read ?_) fun _ => hfails
  refine Tx.seq (wp_applyTurnResult_logged hfails) fun child db₁ hdb₁ => ?_
  refine Tx.seq (Q := fun _ db' => Appended db db' (ResultAbsorbed db request held notify parent)) ?_
    fun _ db₂ hdb₂ => ?_
  · rcases hdb₁ with ⟨result, hresult, session, hsession, row, hrow, howner, rfl, hlogged⟩ |
      ⟨rfl, rfl, hforeign⟩
    · obtain rfl := hsession
      have habsorbed : ResultAbsorbed db request (some session) notify parent ↔
          ((∀ message ∈ result.messages, Taken db result.sessionId message) ∧ result.error = none) ∧
            ¬(notify = true ∧ Notifies db session row parent) := by
        constructor
        · intro h
          obtain ⟨htaken, herror, hquiet⟩ := h result hresult session rfl row hrow howner
          exact ⟨⟨htaken, herror⟩, hquiet⟩
        · rintro ⟨⟨htaken, herror⟩, hquiet⟩ result' hresult' _ ⟨⟩ row' hrow' -
          obtain rfl := Option.some.inj (hresult.symm.trans hresult')
          obtain rfl := Option.some.inj (hrow.symm.trans hrow')
          exact ⟨htaken, herror, hquiet⟩
      rw [Tx.wp_when]
      refine ⟨fun hnotify => ?_, fun hno => ?_⟩
      · rw [Option.isSome_some, if_pos rfl, Tx.wp_forSome]
        refine ⟨fun _ hs => ?_, nofun⟩
        obtain rfl := Option.some.inj hs
        rw [Tx.wp_forSome]
        refine ⟨fun _ hc => ?_, nofun⟩
        obtain rfl := Option.some.inj hc
        refine Tx.wp_mono (wp_completeTurn_appended hfails) (fun _ db' hdb' => ?_) fun _ h => h
        refine (hlogged.appended.trans hdb').congr ?_
        rw [habsorbed, notifies_congr hlogged.sessions hlogged.executions]
        exact and_congr_right fun _ => not_congr (iff_and_self.mpr fun _ => hnotify)
      · refine hlogged.appended.congr ?_
        rw [habsorbed]
        exact (and_iff_left fun hboth => hno hboth.1).symm
    · have habsorbed : ResultAbsorbed db₁ request held notify parent :=
        fun result hresult session hsession row hrow howner =>
          absurd howner (hforeign result hresult session hsession row hrow)
      rw [Tx.wp_when]
      refine ⟨fun _ => ?_, fun _ => Appended.refl.congr (iff_of_true trivial habsorbed)⟩
      exact Appended.refl.congr (iff_of_true trivial habsorbed)
  · cases request.commandAck with
    | none => exact .inl ⟨rfl, hdb₂⟩
    | some token =>
        refine Tx.seq wp_processCommandAck_appended fun _ db' hdb' => ?_
        exact .inl ⟨rfl, (hdb₂.trans hdb').congr (and_iff_left trivial)⟩

/-- What a report of a state finds when it adds nothing: it is no crash, or no payload is under way. -/
def ReportAbsorbed (db : Db) (id : SessionId) (state : ExState) : Prop :=
  ¬(state = .crashed ∧ ∃ row ∈ db.session? id, row.commandHasPayload = true)

/-- The statement of a report and the record of the new state add nothing. -/
theorem wp_reported_appended {db₀ db : Db} {quiet : Prop} {id : SessionId} {executionId : ExecutionId}
    {u : SessionUpdate} {c : Prop} [Decidable c] {payload : Json} {now : Timestamp}
    {e e' : Except Rejected Unit} {E : Except Rejected Unit → Prop} (h : Appended db₀ db quiet) (hE : E e)
    (hE' : E e') :
    Tx.wp (do
        let affected ← DbTx.updateSession id u
        Tx.require affected e
        Tx.when c do
          let _ ← DbTx.insertEvent executionId (some id) .stateChange payload now e'
        pure (.ok ()) : DbTx (Except Rejected Unit) (Except Rejected Unit))
      (fun r db' => r.isOk = true ∧ Appended db₀ db' quiet) E db := by
  refine DbTx.seq_updateSession (fun row hrow hm => ?_) fun _ => hE
  have hupdated : Appended db₀ (db.updateSession id u) quiet :=
    (h.trans (.of_same rfl rfl)).congr (and_iff_left trivial)
  refine Tx.seq_when (fun _ => ?_) fun _ => ⟨rfl, hupdated⟩
  refine Tx.seq (wp_insertEvent_logged hE') fun _ db' hdb' => ⟨rfl, ?_⟩
  exact (hupdated.trans hdb'.appended).congr (and_iff_left rfl)

/-- **What a report of a state adds**, unless it is refused. -/
theorem setExecutorState_appended (session : Session) (state : ExState) (worker : WorkerId)
    (crashMeta : Option CrashMeta) (env : Env) :
    let run := (Write.setExecutorState session state worker crashMeta).run env db
    (run.1.isOk = true ∧ Appended db run.2 (ReportAbsorbed db session.id state)) ∨
      (run.1.isOk = false ∧ run.2 = db) := by
  refine rejecting_post (m := fun env => Transition.setExecutorState env session state worker crashMeta)
    (P := fun r db' => (r.isOk = true ∧ Appended db db' (ReportAbsorbed db session.id state)) ∨
      (r.isOk = false ∧ db' = db)) (fun _ => .inr ⟨rfl, rfl⟩) ?_
  unfold Transition.setExecutorState
  refine DbTx.seq_execution (fun _ _ => ?_) fun _ => .inr ⟨rfl, rfl⟩
  refine DbTx.seq_session (fun current hcurrent => ?_) fun _ => .inr ⟨rfl, rfl⟩
  have hother : state ≠ .crashed → Appended db db (ReportAbsorbed db session.id state) := fun hstate =>
    Appended.refl.congr (iff_of_true trivial fun hcrash => hstate hcrash.1)
  cases state with
  | crashed =>
      refine Tx.seq (Q := fun _ db' => Appended db db' (ReportAbsorbed db session.id .crashed)) ?_
        fun _ db₁ hdb₁ => ?_
      · rw [Tx.wp_when]
        refine ⟨fun hpayload => ?_, fun hno => ?_⟩
        · refine Tx.seq (wp_insertEvent_logged (.inr ⟨rfl, rfl⟩)) fun _ db' hdb' => ?_
          refine hdb'.appended.congr (iff_of_false (by decide) fun habsorbed => ?_)
          exact habsorbed ⟨rfl, current, hcurrent, hpayload⟩
        · refine Appended.refl.congr (iff_of_true trivial ?_)
          rintro ⟨-, row, hrow, hpayload⟩
          obtain rfl := Option.some.inj (hcurrent.symm.trans hrow)
          exact hno hpayload
      · exact Tx.wp_mono (wp_reported_appended hdb₁ (E := fun r => r.isOk = false ∧ db = db)
          ⟨rfl, rfl⟩ ⟨rfl, rfl⟩) (fun _ _ h => .inl h) fun _ h => .inr h
  | idle =>
      exact Tx.wp_mono (wp_reported_appended (hother (by decide))
        (E := fun r => r.isOk = false ∧ db = db) ⟨rfl, rfl⟩ ⟨rfl, rfl⟩) (fun _ _ h => .inl h) fun _ h => .inr h
  | running =>
      exact Tx.wp_mono (wp_reported_appended (hother (by decide))
        (E := fun r => r.isOk = false ∧ db = db) ⟨rfl, rfl⟩ ⟨rfl, rfl⟩) (fun _ _ h => .inl h) fun _ h => .inr h
  | unassigned =>
      refine DbTx.seq_updateSession (fun row hrow hm => .inl ⟨rfl, ?_⟩) fun _ => .inr ⟨rfl, rfl⟩
      exact ((hother (by decide)).trans (.of_same rfl rfl)).congr (and_iff_left trivial)

/-- The SDK session id of a report adds nothing. -/
theorem updateAgentSessionId_adds (id : SessionId) (agentSessionId : String) (worker : WorkerId)
    (env : Env) : AddsNothing db ((Write.updateAgentSessionId id agentSessionId worker).run env db).2 := by
  refine scheduling_post (m := fun _ => updateAgentSessionId id agentSessionId worker)
    (P := fun _ db' => AddsNothing db db') (fun _ _ => Appended.refl.addsNothing_iff.mpr trivial) ?_
  unfold updateAgentSessionId
  rw [Tx.wp_bind, DbTx.wp_updateSession]
  refine Tx.seq_require (fun _ => ?_) fun _ => Appended.refl.addsNothing_iff.mpr trivial
  have hsame : Appended db (db.updateSession id (.setAgentSessionId agentSessionId worker)) True :=
    .of_same rfl rfl
  exact hsame.addsNothing_iff.mpr trivial

end Spec

end AgentBeacon
