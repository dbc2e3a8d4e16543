import Mathlib.Data.List.Pairwise
import AgentBeacon.Lib.FirstWins
import AgentBeacon.System.Reports

/-!
# `System.Numbers` — the numbered messages of a session

What stands in the log of a session's numbered messages changes only by the requests that carry such
messages: each is stored unless its number is taken. Nothing else stores one, and none goes while the
session is there.
-/

namespace AgentBeacon
open Relational Transaction Interleave Transition WorkerSync FirstWins

/-! ## The numbered messages of the log -/

/-- The row as a numbered message of the session. -/
def numberedRow (id : SessionId) (row : EventRow) : Option (Int × Json) :=
  if row.sessionId = some id then row.msgSeq.map fun seq => (seq, row.payload) else none

/-- The numbered messages of a session, as they were stored. -/
def numbered (db : Db) (id : SessionId) : List (Int × Json) :=
  db.events.rows.filterMap (numberedRow id)

/-- The messages of a turn that carry a number. -/
def numberedMessages (messages : List (Option Int × Json)) : List (Int × Json) :=
  messages.filterMap fun message => message.1.map fun seq => (seq, message.2)

section Numbered

variable {db db' : Db} {id : SessionId}

theorem numberedRow_eq_some {row : EventRow} {seq : Int} {payload : Json} :
    numberedRow id row = some (seq, payload) ↔
      row.sessionId = some id ∧ row.msgSeq = some seq ∧ row.payload = payload := by
  unfold numberedRow
  by_cases h : row.sessionId = some id
  · rw [if_pos h, Option.map_eq_some_iff]
    constructor
    · rintro ⟨seq', hseq, heq⟩
      obtain ⟨rfl, hpayload⟩ := Prod.mk.inj heq
      exact ⟨h, hseq, hpayload⟩
    · rintro ⟨-, hseq, rfl⟩
      exact ⟨seq, hseq, rfl⟩
  · rw [if_neg h]
    exact ⟨nofun, fun h' => absurd h'.1 h⟩

theorem mem_numbered {seq : Int} {payload : Json} :
    (seq, payload) ∈ numbered db id ↔ ∃ row ∈ db.events.rows,
      row.sessionId = some id ∧ row.msgSeq = some seq ∧ row.payload = payload := by
  rw [numbered, List.mem_filterMap]
  exact exists_congr fun row => and_congr_right fun _ => numberedRow_eq_some

/-- The number is taken, as the statement that stores a message asks. -/
theorem mem_keys_numbered {seq : Int} : seq ∈ (numbered db id).map Prod.fst ↔
    (db.events.rows.any fun e => e.sessionId = some id ∧ e.msgSeq = some seq) = true := by
  rw [List.mem_map, List.any_eq_true]
  constructor
  · rintro ⟨⟨seq', payload⟩, hmem, rfl⟩
    obtain ⟨row, hrow, hid, hseq, -⟩ := mem_numbered.mp hmem
    exact ⟨row, hrow, decide_eq_true ⟨hid, hseq⟩⟩
  · rintro ⟨row, hrow, htaken⟩
    obtain ⟨hid, hseq⟩ := of_decide_eq_true htaken
    exact ⟨(seq, row.payload), mem_numbered.mpr ⟨row, hrow, hid, hseq, rfl⟩, rfl⟩

theorem numbered_pushEvent (executionId : ExecutionId) (j : Option SessionId) (type : EventType)
    (payload : Json) (seq : Option Int) (now : Timestamp) :
    numbered (db.pushEvent executionId j type payload seq now) id = numbered db id ++
      (numberedRow id ⟨db.events.next, executionId, j, type, payload, seq, now⟩).toList := by
  unfold numbered
  rw [Db.pushEvent, AutoTable.rows_push, List.filterMap_append]
  cases h : numberedRow id ⟨db.events.next, executionId, j, type, payload, seq, now⟩ with
  | none => rw [List.filterMap_cons_none h]; rfl
  | some m => rw [List.filterMap_cons_some h]; rfl

/-- A row without a number is no numbered message. -/
theorem numberedRow_none {row : EventRow} (h : row.msgSeq = none) : numberedRow id row = none := by
  unfold numberedRow
  rw [h]
  exact ite_self _

/-- The messages of the sessions that stay are kept by a deletion. -/
theorem numbered_deleteSessions {ids : List SessionId} (h : id ∉ ids) :
    numbered (db.deleteSessions ids) id = numbered db id := by
  show (db.events.rows.filter _).filterMap (numberedRow id) = _
  rw [List.filterMap_filter]
  refine List.filterMap_congr fun row _ => ?_
  by_cases hid : row.sessionId = some id
  · rw [if_pos (by simp [hid, h])]
  · have hnone : numberedRow id row = none := if_neg hid
    rw [hnone, ite_self]

/-- With a session its messages go. -/
theorem numbered_deleteSessions_of_mem {ids : List SessionId} (h : id ∈ ids) :
    numbered (db.deleteSessions ids) id = [] := by
  show (db.events.rows.filter _).filterMap (numberedRow id) = _
  rw [List.filterMap_eq_nil_iff]
  intro row hrow
  refine if_neg fun hid => ?_
  have hkept := (List.mem_filter.mp hrow).2
  simp [hid, h] at hkept

/-- **Statements that log no number leave the numbered messages alone.** -/
theorem Db.Steps.numbered {P : Permit} (h : Db.Steps P db db')
    (hno : ∀ db ids, ¬P.delete db ids) (hlog : ∀ row, P.log row → row.msgSeq = none) (id : SessionId) :
    numbered db' id = AgentBeacon.numbered db id := by
  refine h.keeps (I := fun db' => AgentBeacon.numbered db' id = AgentBeacon.numbered db id) rfl ?_
  intro db₁ db₂ hstep ih
  cases hstep with
  | @pushEvent executionId j type payload seq now hl =>
      rw [numbered_pushEvent, numberedRow_none (hlog _ hl), ih]
      exact List.append_nil _
  | deleteSessions hd => exact absurd hd (hno _ _)
  | _ => exact ih

end Numbered

/-! ## Storing a message -/

section Spec

variable {ρ : Type} {db : Db}

/-- `insert_with_dedup_in_tx` offers the message. -/
theorem wp_insertEventDedup {executionId : ExecutionId} {sessionId : SessionId} {type : EventType}
    {payload : Json} {seq : Int} {now : Timestamp} {e : ρ} {E : ρ → Prop} (hE : E e) :
    Tx.wp (DbTx.insertEventDedup executionId sessionId type payload seq now e)
      (fun _ db' => ∀ id, numbered db' id =
        if id = sessionId then offer (numbered db id) (seq, payload) else numbered db id) E db := by
  unfold DbTx.insertEventDedup
  refine Tx.seq_read (Tx.seq_require (fun _ => ?_) fun _ => hE)
  rw [Tx.wp_ite]
  refine ⟨fun htaken => ?_, fun hfree => ?_⟩
  · intro id
    by_cases hid : id = sessionId
    · subst hid
      rw [if_pos rfl, offer_of_mem (mem_keys_numbered.mpr htaken)]
    · rw [if_neg hid]
  · refine Tx.seq_require (fun _ => Tx.seq_write ?_) fun _ => hE
    intro id
    rw [numbered_pushEvent]
    by_cases hid : id = sessionId
    · subst hid
      rw [if_pos rfl, offer_of_notMem fun hmem => hfree (mem_keys_numbered.mp hmem)]
      rw [numberedRow_eq_some.mpr ⟨rfl, rfl, rfl⟩]
      rfl
    · have hnone : numberedRow id ⟨db.events.next, executionId, some sessionId, type, payload, some seq,
          now⟩ = none := if_neg fun h => hid (Option.some.inj h).symm
      rw [if_neg hid, hnone]
      exact List.append_nil _

/-- An event without a number. -/
theorem wp_insertEvent_numbered {executionId : ExecutionId} {j : Option SessionId} {type : EventType}
    {payload : Json} {now : Timestamp} {e : ρ} {E : ρ → Prop} (hE : E e) :
    Tx.wp (DbTx.insertEvent executionId j type payload now e)
      (fun _ db' => ∀ id, numbered db' id = numbered db id) E db := by
  rw [DbTx.wp_insertEvent]
  refine ⟨fun _ id => ?_, fun _ => hE⟩
  rw [numbered_pushEvent, numberedRow_none rfl]
  exact List.append_nil _

theorem wp_insertTurnMessage {env : Env} {executionId : ExecutionId} {sessionId : SessionId}
    {message : Option Int × Json} {e : ρ} {E : ρ → Prop} (hE : E e) :
    Tx.wp (insertTurnMessage env executionId sessionId message e)
      (fun _ db' => ∀ id, numbered db' id =
        if id = sessionId then offers (numbered db id) (numberedMessages [message]) else numbered db id)
      E db := by
  obtain ⟨seq, payload⟩ := message
  cases seq with
  | some seq =>
      refine Tx.seq (wp_insertEventDedup hE) fun _ db' hdb' => ?_
      exact hdb'
  | none =>
      refine Tx.seq (wp_insertEvent_numbered hE) fun _ db' hdb' => ?_
      intro id
      show numbered db' id = _
      rw [hdb' id]
      exact (ite_self _).symm

/-- The messages of a turn are offered in their order. -/
theorem wp_insertTurnMessages {env : Env} {executionId : ExecutionId} {sessionId : SessionId}
    {messages : List (Option Int × Json)} {e : ρ} {E : ρ → Prop} (hE : E e) :
    Tx.wp (messages.forM fun message => insertTurnMessage env executionId sessionId message e)
      (fun _ db' => ∀ id, numbered db' id =
        if id = sessionId then offers (numbered db id) (numberedMessages messages) else numbered db id)
      E db := by
  induction messages generalizing db with
  | nil => exact fun id => (ite_self _).symm
  | cons message messages ih =>
      show Tx.wp (insertTurnMessage env executionId sessionId message e >>= fun _ =>
        messages.forM fun message => insertTurnMessage env executionId sessionId message e) _ E db
      refine Tx.seq (wp_insertTurnMessage hE) fun _ db₁ hdb₁ => ?_
      refine Tx.wp_mono ih (fun _ db' hdb' id => ?_) fun _ he => he
      rw [hdb' id, hdb₁ id]
      by_cases hid : id = sessionId
      · rw [if_pos hid, if_pos hid, if_pos hid, ← offers_append, numberedMessages, numberedMessages,
          numberedMessages, ← List.filterMap_append]
        rfl
      · rw [if_neg hid, if_neg hid, if_neg hid]

theorem wp_processTurnResult {env : Env} {executionId : ExecutionId} {session : Session}
    {result : TurnResult} {e : ρ} {E : ρ → Prop} (hE : E e) :
    Tx.wp (processTurnResult env executionId session result e) (fun _ db' => ∀ id, numbered db' id =
      if id = session.id then offers (numbered db id) (numberedMessages result.messages)
      else numbered db id) E db := by
  unfold processTurnResult
  refine Tx.seq (wp_insertTurnMessages hE) fun _ db₁ hdb₁ => ?_
  rw [Tx.wp_forSome]
  refine ⟨fun error _ => ?_, fun _ => hdb₁⟩
  refine Tx.seq (wp_insertEvent_numbered hE) fun _ db' hdb' id => ?_
  rw [hdb' id]
  exact hdb₁ id

theorem wp_completeTurn_numbered {env : Env} {executionId : ExecutionId} {session child : Session}
    {parent : Option SessionId} {e : ρ} {E : ρ → Prop} (hE : E e) :
    Tx.wp (completeTurn env executionId session child parent e)
      (fun _ db' => ∀ id, numbered db' id = numbered db id) E db := by
  unfold completeTurn
  refine Tx.seq_read ?_
  rw [Tx.wp_when]
  refine ⟨fun _ => ?_, fun _ _ => rfl⟩
  cases parent with
  | none =>
      simp only
      rw [Tx.wp_when]
      refine ⟨fun _ => ?_, fun _ _ => rfl⟩
      exact Tx.seq (wp_insertEvent_numbered hE) fun _ db' hdb' => hdb'
  | some parentId =>
      simp only
      rw [Tx.wp_forSome]
      refine ⟨fun parent _ => ?_, fun _ _ => rfl⟩
      unfold notifyParentOfTurn
      -- waking the parent, then the task and the event
      refine Tx.seq (Q := fun _ db' => ∀ id, numbered db' id = numbered db id) ?_ fun _ db₁ hdb₁ => ?_
      · rw [Tx.wp_when]
        refine ⟨fun _ => ?_, fun _ _ => rfl⟩
        unfold resumeStopped
        rw [Tx.wp_bind, DbTx.wp_updateSession, Tx.wp_when]
        refine ⟨fun _ => ?_, fun _ _ => rfl⟩
        exact Tx.seq (wp_insertEvent_numbered hE) fun _ db' hdb' => hdb'
      · rw [Tx.wp_bind, DbTx.wp_insertTask]
        refine ⟨fun _ => ?_, fun _ => hE⟩
        refine Tx.seq (wp_insertEvent_numbered hE) fun _ db' hdb' id => ?_
        exact (hdb' id).trans (hdb₁ id)

theorem wp_processCommandAck_numbered {worker : WorkerId} {token : String} {E : ρ → Prop} :
    Tx.wp (processCommandAck worker token : DbTx ρ AckResult)
      (fun _ db' => ∀ id, numbered db' id = numbered db id) E db := by
  unfold processCommandAck
  refine Tx.seq_read ?_
  split
  · exact fun _ => rfl
  · split
    · exact fun _ => rfl
    · exact fun _ => rfl

/-! ## The requests that carry messages -/

/-- The worker owns the session. -/
def Owned (db : Db) (id : SessionId) (worker : WorkerId) : Prop :=
  ∃ s ∈ db.session? id, s.workerId = some worker

instance (id : SessionId) (worker : WorkerId) : Decidable (Owned db id worker) :=
  inferInstanceAs (Decidable (∃ s ∈ db.session? id, s.workerId = some worker))

/-- The messages of the session that a result transaction stores, unless it fails: those of the turn
result, when the worker owns the session, before the transaction and in it. -/
def carriedByResult (db : Db) (id : SessionId) (request : SyncRequest) (held : Option Session) :
    List (Int × Json) :=
  match request.turnResult, held with
  | some result, some _ =>
      if result.sessionId = id ∧ Owned db id request.workerId then numberedMessages result.messages else []
  | _, _ => []

theorem wp_applyTurnResult {env : Env} {executionId : ExecutionId} {request : SyncRequest}
    {held : Option Session} {e : ρ} {E : ρ → Prop} (hE : E e) :
    Tx.wp (applyTurnResult env executionId request.workerId request.turnResult held e)
      (fun _ db' => ∀ id, numbered db' id =
        offers (numbered db id) (carriedByResult db id request held)) E db := by
  unfold applyTurnResult carriedByResult
  refine Tx.seq_read ?_
  cases hresult : request.turnResult with
  | none => exact fun _ => rfl
  | some result =>
      cases held with
      | none => exact fun _ => rfl
      | some session =>
          simp only
          cases hs : db.session? result.sessionId with
          | none =>
              intro id
              rw [if_neg]
              · rfl
              · rintro ⟨rfl, s, hs', -⟩
                rw [hs] at hs'
                cases hs'
          | some s =>
              have hid : s.id = result.sessionId := Db.id_of_session? hs
              simp only
              by_cases howner : s.workerId = some request.workerId
              · rw [if_pos howner]
                refine Tx.seq (wp_processTurnResult hE) fun _ db' hdb' id => ?_
                rw [hdb' id, hid]
                by_cases heq : id = result.sessionId
                · subst heq
                  rw [if_pos rfl, if_pos ⟨rfl, s, hs, howner⟩]
                · rw [if_neg heq, if_neg fun h => heq h.1.symm]
                  rfl
              · rw [if_neg howner]
                intro id
                rw [if_neg]
                · rfl
                · rintro ⟨rfl, s', hs', howner'⟩
                  obtain rfl := Option.some.inj (hs.symm.trans hs')
                  exact howner howner'

end Spec

/-- The messages of the session that a transaction stores, unless their numbers are taken. -/
def Write.carried (env : Env) (db : Db) (id : SessionId) : Write → List (Int × Json)
  | .workerEvent executionId sessionId worker seq payload =>
      if sessionId = id ∧ Owned db id worker ∧
        ((Write.workerEvent executionId sessionId worker seq payload).run env db).1.isOk
      then [(seq, payload)] else []
  | .resultTx executionId request held notify parent =>
      if ((Write.resultTx executionId request held notify parent).run env db).1.isOk
      then carriedByResult db id request held else []
  | _ => []

section Spec

variable {db : Db}

/-- **The result transaction offers the messages it carries**, or fails. -/
theorem resultTx_numbered (executionId : ExecutionId) (request : SyncRequest) (held : Option Session)
    (notify : Bool) (parent : Option SessionId) (env : Env) (id : SessionId) :
    let w := Write.resultTx executionId request held notify parent
    numbered (w.run env db).2 id = offers (numbered db id) (w.carried env db id) := by
  have hspec : (((Write.resultTx executionId request held notify parent).run env db).1.isOk = true ∧
      numbered ((Write.resultTx executionId request held notify parent).run env db).2 id =
        offers (numbered db id) (carriedByResult db id request held)) ∨
      (((Write.resultTx executionId request held notify parent).run env db).1.isOk = false ∧
        ((Write.resultTx executionId request held notify parent).run env db).2 = db) := by
    refine scheduling_post (m := fun env => resultTx env executionId request held notify parent)
      (P := fun r db' => (r.isOk = true ∧ numbered db' id =
        offers (numbered db id) (carriedByResult db id request held)) ∨ (r.isOk = false ∧ db' = db))
      (fun _ _ => .inr ⟨rfl, rfl⟩) ?_
    unfold resultTx
    have hfails : ((.error (dbError "result transaction failed") : Except SchedulerError ResultTx).isOk = true ∧
        numbered db id = offers (numbered db id) (carriedByResult db id request held)) ∨
        ((.error (dbError "result transaction failed") : Except SchedulerError ResultTx).isOk = false ∧
          db = db) := .inr ⟨rfl, rfl⟩
    refine DbTx.seq_execution (fun _ _ => Tx.seq_read ?_) fun _ => hfails
    refine Tx.seq (wp_applyTurnResult hfails) fun child db₁ hdb₁ => ?_
    refine Tx.seq (Q := fun _ db' => ∀ id, numbered db' id = numbered db₁ id) ?_ fun _ db₂ hdb₂ => ?_
    · rw [Tx.wp_when]
      refine ⟨fun _ => ?_, fun _ _ => rfl⟩
      rw [Tx.wp_forSome]
      refine ⟨fun s _ => ?_, fun _ _ => rfl⟩
      rw [Tx.wp_forSome]
      exact ⟨fun c _ => wp_completeTurn_numbered hfails, fun _ _ => rfl⟩
    · have hstored : numbered db₂ id = offers (numbered db id) (carriedByResult db id request held) :=
        (hdb₂ id).trans (hdb₁ id)
      cases request.commandAck with
      | none => exact .inl ⟨rfl, hstored⟩
      | some token =>
          refine Tx.seq wp_processCommandAck_numbered fun _ db' hdb' => ?_
          exact .inl ⟨rfl, (hdb' id).trans hstored⟩
  intro w
  rcases hspec with ⟨hok, hstored⟩ | ⟨hfailed, hsame⟩
  · rw [hstored, Write.carried, if_pos hok]
  · rw [hsame, Write.carried, if_neg (by simp [hfailed])]
    rfl

theorem workerEvent_numbered (executionId : ExecutionId) (sessionId : SessionId) (worker : WorkerId)
    (seq : Int) (payload : Json) (env : Env) (id : SessionId) :
    let w := Write.workerEvent executionId sessionId worker seq payload
    numbered (w.run env db).2 id = offers (numbered db id) (w.carried env db id) := by
  have hspec : (((Write.workerEvent executionId sessionId worker seq payload).run env db).1.isOk = true ∧
      numbered ((Write.workerEvent executionId sessionId worker seq payload).run env db).2 id =
        if sessionId = id ∧ Owned db id worker then offer (numbered db id) (seq, payload)
        else numbered db id) ∨
      (((Write.workerEvent executionId sessionId worker seq payload).run env db).1.isOk = false ∧
        ((Write.workerEvent executionId sessionId worker seq payload).run env db).2 = db) := by
    refine scheduling_post (m := fun env => WorkerSync.workerEvent env executionId sessionId worker seq payload)
      (P := fun r db' => (r.isOk = true ∧ numbered db' id =
        if sessionId = id ∧ Owned db id worker then offer (numbered db id) (seq, payload)
        else numbered db id) ∨ (r.isOk = false ∧ db' = db)) (fun _ _ => .inr ⟨rfl, rfl⟩) ?_
    unfold WorkerSync.workerEvent
    refine DbTx.seq_execution (fun _ _ => ?_) fun _ => .inr ⟨rfl, rfl⟩
    refine DbTx.seq_session (fun s hs => ?_) fun hnone => .inl ⟨rfl, ?_⟩
    · refine Tx.seq_require (fun howner => ?_) fun hforeign => .inl ⟨rfl, ?_⟩
      · refine Tx.seq (wp_insertEventDedup (.inr ⟨rfl, rfl⟩)) fun _ db' hdb' => .inl ⟨rfl, ?_⟩
        rw [hdb' id]
        by_cases heq : id = sessionId
        · subst heq
          rw [if_pos rfl, if_pos ⟨rfl, s, hs, howner⟩]
        · rw [if_neg heq, if_neg fun h => heq h.1.symm]
      · rw [if_neg]
        rintro ⟨rfl, s', hs', howner⟩
        obtain rfl := Option.some.inj (hs.symm.trans hs')
        exact hforeign howner
    · rw [if_neg]
      rintro ⟨rfl, s, hs, -⟩
      rw [hnone] at hs
      cases hs
  intro w
  rcases hspec with ⟨hok, hstored⟩ | ⟨hfailed, hsame⟩
  · rw [hstored, Write.carried]
    by_cases howner : sessionId = id ∧ Owned db id worker
    · rw [if_pos howner, if_pos ⟨howner.1, howner.2, hok⟩]
      rfl
    · rw [if_neg howner, if_neg fun h => howner ⟨h.1, h.2.1⟩]
      rfl
  · rw [hsame, Write.carried, if_neg (by simp [hfailed])]
    rfl

end Spec

/-! ## A call, and what follows it -/

/-- The numbered messages of the session that a call stores, unless their numbers are taken. -/
def carried (id : SessionId) (e : Event scheduler) : List (Int × Json) :=
  match (e.op : Op) with
  | .write w => w.carried (envOf e) (before e) id
  | _ => []

/-- The messages of the session that a history carries, in the order in which they came. -/
def carriedIn (history : History) (id : SessionId) : List (Int × Json) :=
  history.reverse.flatMap (carried id)

theorem Write.carried_of_not_numbers {w : Write} (h : ¬w.numbers) (env : Env) (db : Db)
    (id : SessionId) : w.carried env db id = [] := by
  cases w with
  | workerEvent => exact absurd (.inl ⟨_, _, _, _, _, rfl⟩) h
  | resultTx => exact absurd (.inr ⟨_, _, _, _, _, rfl⟩) h
  | _ => rfl

/-- **A transaction stores the numbered messages it carries and no others**, unless it deletes
sessions. -/
theorem Write.numbered_run {w : Write} (hdel : ∀ id, w ≠ .deleteSession id) (env : Env) (db : Db)
    (id : SessionId) :
    numbered (w.run env db).2 id = offers (numbered db id) (w.carried env db id) := by
  by_cases hnumbers : w.numbers
  · rcases hnumbers with ⟨_, _, _, _, _, rfl⟩ | ⟨_, _, _, _, _, rfl⟩
    · exact workerEvent_numbered _ _ _ _ _ _ _
    · exact resultTx_numbered _ _ _ _ _ _ _
  · rw [Write.carried_of_not_numbers hnumbers, offers_nil]
    refine (w.steps env db).numbered (not_delete hdel) (fun row hlog => ?_) id
    by_contra hseq
    exact hnumbers (hlog.1 hseq)

/-- What a call does to a session's numbered messages: it stores those it carries, or deletes the
session with all of them. -/
theorem numbered_after (e : Event scheduler) (id : SessionId) :
    (numbered (after e) id = offers (numbered (before e) id) (carried id e) ∧
      ((before e).session? id ≠ none → (after e).session? id ≠ none)) ∨
    ((after e).session? id = none ∧ numbered (after e) id = []) := by
  obtain ⟨caller, op, input, pre⟩ := e
  cases op with
  | write w =>
      by_cases hdel : ∃ id', w = .deleteSession id'
      · obtain ⟨id', rfl⟩ := hdel
        rcases deleteSession_effect id' input (Store.db pre) with hsame | ⟨n, hgone⟩
        · refine .inl ⟨congrArg (numbered · id) hsame, fun hthere => ?_⟩
          exact (congrArg (Db.session? · id) hsame).trans_ne hthere
        · have hafter : after ⟨caller, Op.write (.deleteSession id'), input, pre⟩ =
              (Store.db pre).deleteSessions ((Store.db pre).subtree n [id']) := hgone
          rw [hafter, Db.session?_deleteSessions]
          by_cases hmem : id ∈ (Store.db pre).subtree n [id']
          · exact .inr ⟨if_pos hmem, numbered_deleteSessions_of_mem hmem⟩
          · refine .inl ⟨numbered_deleteSessions hmem, fun hthere => ?_⟩
            rw [if_neg hmem]
            exact hthere
      · have hno : ∀ id', w ≠ .deleteSession id' := fun id' hw => hdel ⟨id', hw⟩
        refine .inl ⟨Write.numbered_run hno input _ id, fun hthere => ?_⟩
        obtain ⟨s, hs⟩ := Option.ne_none_iff_exists'.mp hthere
        obtain ⟨s', hs', -⟩ := (w.steps input (Store.db pre)).session_stays (not_delete hno) hs
        exact hs'.trans_ne (Option.some_ne_none s')
  | _ => exact .inl ⟨rfl, fun hthere => hthere⟩

/-- What a call carries is for a session that is there. -/
theorem carried_eq_nil {e : Event scheduler} {id : SessionId} (h : (before e).session? id = none) :
    carried id e = [] := by
  have hforeign : ∀ worker, ¬Owned (before e) id worker := by
    rintro worker ⟨s, hs, -⟩
    rw [h] at hs
    cases hs
  unfold carried
  split
  · rename_i w _
    unfold Write.carried
    split
    · exact if_neg fun hcarries => hforeign _ hcarries.2.1
    · rw [ite_eq_right_iff]
      intro _
      unfold carriedByResult
      split
      · exact if_neg fun hcarries => hforeign _ hcarries.2
      · rfl
    · rfl
  · rfl

/-- A session that is there and had been drawn before a call was there before it. -/
theorem Reachable.session_before {e : Event scheduler} {history : History}
    (h : Reachable (e :: history)) {id : SessionId} (hdrawn : id ∈ drawnIn history)
    (hstays : (after e).session? id ≠ none) : (current history).session? id ≠ none := by
  obtain ⟨-, hbefore, hfresh⟩ := h.of_cons
  rcases call_effect e with ⟨w, hw, hsteps⟩ | hsame
  · obtain ⟨s', hs'⟩ := Option.ne_none_iff_exists'.mp hstays
    have hid : s'.id = id := Db.id_of_session? hs'
    rcases hsteps.descends (Db.mem_of_session? hs') with ⟨s, hs, -⟩ | ⟨row, hrow, hrow'⟩
    · rw [hid, hbefore] at hs
      rw [hs]
      exact Option.some_ne_none s
    · -- a session that the call inserts has an id that no session had
      obtain ⟨_, _, _, _, _, _, _, _, rfl, -⟩ := hrow
      have huuid : (envOf e).uuid = id := hrow'.identity.1.symm.trans hid
      exact absurd (huuid ▸ hdrawn) (hfresh w hw)
  · rw [hsame, hbefore] at hstays
    exact hstays

/-- A session that a call found has been drawn. -/
theorem Reachable.drawn_of_found {e : Event scheduler} {history : History}
    (h : Reachable (e :: history)) {id : SessionId} (hfound : (before e).session? id ≠ none) :
    id ∈ drawnIn (e :: history) := by
  obtain ⟨hr, hbefore, -⟩ := h.of_cons
  obtain ⟨s, hs⟩ := Option.ne_none_iff_exists'.mp hfound
  rw [hbefore] at hs
  have hmem := (hr.drawn s (Db.mem_of_session? hs)).1
  rw [Db.id_of_session? hs] at hmem
  exact h.drawn_cons.1 hmem

/-- What has been drawn stays drawn. -/
theorem Reachable.drawn_later {start later : History} (h : Reachable (later ++ start)) {id : String}
    (hid : id ∈ drawnIn start) : id ∈ drawnIn (later ++ start) := by
  induction later with
  | nil => exact hid
  | cons e later ih => exact h.drawn_cons.1 (ih h.of_cons.1)

/-- A session that is there and had been drawn at some point was there at that point. -/
theorem Reachable.session_earlier {start later : History} (h : Reachable (later ++ start))
    {id : SessionId} (hdrawn : id ∈ drawnIn start)
    (hstays : (current (later ++ start)).session? id ≠ none) : (current start).session? id ≠ none := by
  induction later with
  | nil => exact hstays
  | cons e later ih =>
      have hr : Reachable (later ++ start) := h.of_cons.1
      exact ih hr (h.session_before (hr.drawn_later hdrawn) hstays)

/-- **What is stored of a session's numbered messages**: what was stored, and then what has been carried,
as long as the session is there. -/
theorem Reachable.numbered_of_session {start later : History} (h : Reachable (later ++ start))
    {id : SessionId} (hstart : (current start).session? id ≠ none)
    (hstays : (current (later ++ start)).session? id ≠ none) :
    numbered (current (later ++ start)) id =
      offers (numbered (current start) id) (carriedIn later id) := by
  have hdrawn : id ∈ drawnIn start := by
    obtain ⟨s, hs⟩ := Option.ne_none_iff_exists'.mp hstart
    have hr : Reachable start := Trace.of_suffix h (List.suffix_append _ _)
    have hmem := (hr.drawn s (Db.mem_of_session? hs)).1
    rwa [Db.id_of_session? hs] at hmem
  induction later with
  | nil => rfl
  | cons e later ih =>
      obtain ⟨hr, hbefore, -⟩ : Reachable (later ++ start) ∧ before e = current (later ++ start) ∧ _ := h.of_cons
      have hprev := ih hr (h.session_before (hr.drawn_later hdrawn) hstays)
      have hcarried : carriedIn (e :: later) id = carriedIn later id ++ carried id e := by
        rw [carriedIn, carriedIn, List.reverse_cons, List.flatMap_append]
        rw [List.flatMap_cons, List.flatMap_nil, List.append_nil]
      rw [hcarried, offers_append, ← hprev, ← hbefore]
      rcases numbered_after e id with ⟨hstored, -⟩ | ⟨hgone, -⟩
      · exact hstored
      · exact absurd hgone hstays

/-- **A number is stored once for a session.** -/
theorem Reachable.numbers_nodup {history : History} (h : Reachable history) (id : SessionId) :
    ((numbered (current history) id).map Prod.fst).Nodup := by
  induction history with
  | nil => exact List.nodup_nil
  | cons e history ih =>
      obtain ⟨hr, hbefore, -⟩ := h.of_cons
      have hprev := ih hr
      rw [← hbefore] at hprev
      rw [current_cons]
      rcases numbered_after e id with ⟨hstored, -⟩ | ⟨-, hnil⟩
      · rw [hstored]
        exact nodup_offers hprev
      · rw [hnil]
        exact List.nodup_nil

/-- **Without its session no message stands in the log.** -/
theorem Reachable.numbered_of_no_session {history : History} (h : Reachable history) {id : SessionId}
    (hgone : (current history).session? id = none) : numbered (current history) id = [] := by
  induction history with
  | nil => rfl
  | cons e history ih =>
      obtain ⟨hr, hbefore, -⟩ := h.of_cons
      rw [current_cons] at hgone ⊢
      rcases numbered_after e id with ⟨hstored, hstays⟩ | ⟨-, hnil⟩
      · have hbefore_gone : (before e).session? id = none := by
          by_contra hthere
          exact hstays hthere hgone
        rw [hstored, carried_eq_nil hbefore_gone, hbefore, ih hr (hbefore ▸ hbefore_gone), offers_nil]
      · exact hnil

/-- One row of the log carries the message. -/
def StoredOnce (db : Db) (id : SessionId) (message : Int × Json) : Prop :=
  ∃! row, row ∈ db.events.rows ∧ row.sessionId = some id ∧ row.msgSeq = some message.1 ∧
    row.payload = message.2

theorem Reachable.storedOnce_iff {history : History} (h : Reachable history) {id : SessionId}
    {message : Int × Json} :
    StoredOnce (current history) id message ↔ message ∈ numbered (current history) id := by
  obtain ⟨seq, payload⟩ := message
  rw [mem_numbered]
  constructor
  · rintro ⟨row, hrow, -⟩
    exact ⟨row, hrow⟩
  · rintro ⟨row, hrow, hcarries⟩
    refine ⟨row, ⟨hrow, hcarries⟩, ?_⟩
    rintro row' ⟨hrow', hcarries'⟩
    -- two rows under one number would give two of its entries
    have hnodup : (numbered (current history) id).Nodup := (h.numbers_nodup id).of_map
    have hpair := List.pairwise_filterMap.mp hnodup
    by_contra hne
    have hentry : numberedRow id row = some (seq, payload) := numberedRow_eq_some.mpr hcarries
    have hentry' : numberedRow id row' = some (seq, payload) := numberedRow_eq_some.mpr hcarries'
    have : Std.Symm fun row row' => ∀ m, numberedRow id row = some m →
        ∀ m', numberedRow id row' = some m' → m ≠ m' :=
      ⟨fun _ _ h m hm m' hm' => (h m' hm' m hm).symm⟩
    exact hpair.forall hrow hrow' (Ne.symm hne) _ hentry _ hentry' rfl

end AgentBeacon
