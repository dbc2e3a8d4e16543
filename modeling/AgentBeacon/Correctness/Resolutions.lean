import AgentBeacon.Correctness.Decisions
import AgentBeacon.Correctness.MarkerCodec

/-!
# `Correctness.Resolutions` — a decision is resolved once

An answer and a dismissal look for a marker of their escalation in the transaction that is to write one,
under the lock of its execution. Whatever else runs, the first to get there writes the marker, and whoever
comes later is told which marker that was.
-/

namespace AgentBeacon
open Relational Transaction Interleave Transition Resolution Reconciler SessionsApi

/-! ## Requests and what they learn -/

/-- The event is a marker that resolves the escalation. -/
def Resolves (escalation : Escalation) (row : EventRow) : Prop :=
  row.executionId = escalation.executionId ∧ row.eventType = .platform ∧
    candidatesFor escalation row ≠ []

/-- The transaction is to resolve the escalation: it answers it, or dismisses it. -/
def Write.resolving (w : Write) (escalation : Escalation) : Prop :=
  (∃ session args text, w = .sendMessage session args ∧ args.resolution = some ⟨escalation, text⟩) ∨
    w = .dismiss escalation

/-- What the request behind such a transaction learns. -/
inductive Verdict where
  | won
  | lost (winner : ResolutionCandidate)
  | expired
  | failed
  deriving DecidableEq

def verdictOfAnswer : Except Rejected Nat → Verdict
  | .ok _ => .won
  | .error (.alreadyResolved winner) => .lost winner
  | .error .decisionExpired => .expired
  | .error _ => .failed

def verdictOfDismissal : Except SchedulerError Nat → Verdict
  | .ok _ => .won
  | .error (.problem (.decisionAlreadyResolved winner)) => .lost winner
  | .error (.problem .decisionExpired) => .expired
  | .error _ => .failed

def Write.verdict (w : Write) (env : Env) (db : Db) : Option Verdict :=
  match w with
  | .sendMessage session args => some (verdictOfAnswer ((Write.sendMessage session args).run env db).1)
  | .dismiss escalation => some (verdictOfDismissal ((Write.dismiss escalation).run env db).1)
  | _ => none

/-- The execution of the escalation has ended, or is to. -/
def Db.decisionExpired (db : Db) (escalation : Escalation) : Bool :=
  (db.execution? escalation.executionId).any executionEnded

/-- How a request is refused that the database does not fail. -/
def refusal (db : Db) (escalation : Escalation) : Verdict :=
  match findMarkerForEscalation db escalation with
  | some winner => .lost winner
  | none => if db.decisionExpired escalation then .expired else .failed

theorem refusal_of_marker {db : Db} {escalation : Escalation} {winner : ResolutionCandidate}
    (h : findMarkerForEscalation db escalation = some winner) : refusal db escalation = .lost winner := by
  rw [refusal, h]

theorem refusal_of_none {db : Db} {escalation : Escalation}
    (h : findMarkerForEscalation db escalation = none) :
    refusal db escalation = if db.decisionExpired escalation then .expired else .failed := by
  rw [refusal, h]

/-! ## The two transactions -/

/-- The marker row of an answer, and the message row it names. -/
def answerMarker (env : Env) (session : Session) (marker : ResolutionMarker) (messageId id : Nat) :
    EventRow :=
  ⟨id, session.executionId, some marker.escalation.sessionId, .platform,
    markerPayload marker.escalation.data.batchId (some (marker.escalation.id : Int)) messageId
      (rfc3339 env.now) marker.answerText false, none, env.now⟩

/-- The message row of an answer. -/
def answerMessage (env : Env) (session : Session) (args : SendMessageArgs) (id : Nat) : EventRow :=
  ⟨id, session.executionId, some session.id, .message, messageEventPayload args.payload, none, env.now⟩

/-- The queued task of an answer. -/
def answerTask (env : Env) (session : Session) (args : SendMessageArgs) (id : Nat) : TaskRow :=
  ⟨id, session.executionId, session.id, args.payload, env.now, none⟩

/-- The marker row of a dismissal. -/
def dismissMarker (env : Env) (escalation : Escalation) (id : Nat) : EventRow :=
  ⟨id, escalation.executionId, some escalation.sessionId, .platform,
    dismissPayload escalation.data.batchId escalation.id, none, env.now⟩

/-- What an answer that wins leaves: the task, the message, the marker that names it, and at most a
delivery signal. -/
structure AnswerCommitted (env : Env) (session : Session) (args : SendMessageArgs)
    (marker : ResolutionMarker) (db db' : Db) : Prop where
  fits : db.events.next + 1 ≤ maxRowId
  tasks : db'.taskQueue.rows = db.taskQueue.rows ++ [answerTask env session args db.taskQueue.next]
  events : ∃ delivered, db'.events.rows = db.events.rows ++
    [answerMessage env session args db.events.next,
      answerMarker env session marker db.events.next (db.events.next + 1)] ++ delivered ∧
    ∀ row ∈ delivered, row.payload = .obj [("type", .str "message_delivered")]

section Transactions

variable {env : Env} {db : Db} {escalation : Escalation}

/-- The three writes. -/
theorem answerCommitted_of_writes (env : Env) (session : Session) (args : SendMessageArgs)
    (marker : ResolutionMarker) {db' : Db} (htasks : db'.taskQueue = db.taskQueue)
    (hevents : db'.events = db.events)
    (hfits : db.events.next + 1 ≤ maxRowId) :
    AnswerCommitted env session args marker db
      (((db'.pushTask session.executionId session.id args.payload none env.now).pushEvent
        session.executionId (some session.id) .message (messageEventPayload args.payload) none
          env.now).pushEvent session.executionId (some marker.escalation.sessionId) .platform
            (markerPayload marker.escalation.data.batchId (some (marker.escalation.id : Int))
              db'.events.next (rfc3339 env.now) marker.answerText false) none env.now) where
  fits := hfits
  tasks := by
    rw [← htasks]
    rfl
  events := by
    refine ⟨[], ?_, fun _ hrow => absurd hrow List.not_mem_nil⟩
    rw [← hevents, List.append_nil]
    show (db'.events.rows ++ [_]) ++ [_] = _
    rw [List.append_assoc]
    rfl

/-- The delivery signal is no more than that. -/
theorem AnswerCommitted.signal {session : Session} {args : SendMessageArgs} {marker : ResolutionMarker}
    {db' : Db} (h : AnswerCommitted env session args marker db db') {executionId : ExecutionId}
    {id : Option SessionId} {type : EventType} {now : Timestamp} :
    AnswerCommitted env session args marker db
      (db'.pushEvent executionId id type (.obj [("type", .str "message_delivered")]) none now) where
  fits := h.fits
  tasks := h.tasks
  events := by
    obtain ⟨delivered, hrows, hpayloads⟩ := h.events
    let signal : EventRow := ⟨db'.events.next, executionId, id, type,
      .obj [("type", .str "message_delivered")], none, now⟩
    refine ⟨delivered ++ [signal], ?_, fun row hrow => ?_⟩
    · show db'.events.rows ++ [signal] = _
      rw [hrows, List.append_assoc]
    · rcases List.mem_append.mp hrow with hold | hnew
      · exact hpayloads row hold
      · rw [List.mem_singleton.mp hnew]

/-- **What an answer does**: it wins if there is no marker and the execution goes on, and else it is
refused accordingly. -/
theorem sendMessage_spec (env : Env) {session : Session} {args : SendMessageArgs} {marker : ResolutionMarker}
    (hmarker : args.resolution = some marker) (hexec : marker.escalation.executionId = session.executionId)
    (hx : db.execution? session.executionId ≠ none) (hs : db.session? session.id ≠ none) :
    Tx.wp (sendMessage env session args)
      (fun reply db' => reply = .ok db.events.next ∧ findMarkerForEscalation db marker.escalation = none ∧
        db.decisionExpired marker.escalation = false ∧ AnswerCommitted env session args marker db db')
      (fun reply => verdictOfAnswer reply = refusal db marker.escalation) db := by
  unfold sendMessage
  rw [hmarker]
  refine DbTx.seq_execution (fun _ _ => ?_) fun hno => absurd hno hx
  refine DbTx.seq_session (fun row _ => ?_) fun hno => absurd hno hs
  refine DbTx.seq_execution (fun x hx => ?_) fun hno => absurd hno hx
  refine Tx.seq_read ?_
  have hended : db.decisionExpired marker.escalation = executionEnded x := by
    rw [Db.decisionExpired, hexec, hx, Option.any_some]
  rw [Tx.wp_bind, Tx.wp_forSome]
  refine ⟨fun marker' hmarker' => ?_, fun hno => absurd hno (Option.some_ne_none _)⟩
  obtain rfl := Option.some.inj hmarker'
  refine Tx.seq_require (fun _ => ?_) fun hno => absurd hexec hno
  rw [Tx.wp_forSome]
  refine ⟨fun winner hwinner => (refusal_of_marker hwinner).symm, fun hnone => ?_⟩
  have hrefusal := refusal_of_none hnone
  rw [hended] at hrefusal
  refine Tx.seq_require (fun hlive => ?_) fun hover => ?_
  · have hgoes : executionEnded x = false := by simpa [executionEnded] using hlive
    rw [hgoes, if_neg Bool.false_ne_true] at hrefusal
    have hwin := hended.trans hgoes
    clear hended
    refine Tx.seq_require (fun _ => ?_) fun _ => hrefusal.symm
    have hfailed : ∀ reason, verdictOfAnswer (invalid reason) = refusal db marker.escalation :=
      fun _ => hrefusal.symm
    -- resuming the session touches neither the queue nor the log
    refine Tx.seq (Q := fun _ db' => db'.taskQueue = db.taskQueue ∧ db'.events = db.events) ?_ ?_
    · rw [Tx.wp_when]
      exact ⟨fun _ => ⟨rfl, rfl⟩, fun _ => ⟨rfl, rfl⟩⟩
    rintro - db' ⟨htasks, hevents⟩
    rw [Tx.wp_bind, DbTx.wp_insertTask]
    refine ⟨fun _ => ?_, fun _ => hfailed _⟩
    rw [Tx.wp_bind, DbTx.wp_insertEvent]
    refine ⟨fun _ => ?_, fun _ => hfailed _⟩
    rw [Tx.wp_bind, Tx.wp_forSome]
    refine ⟨fun marker' hmarker' => ?_, fun hno => absurd hno (Option.some_ne_none _)⟩
    obtain rfl := Option.some.inj hmarker'
    refine Tx.seq_require (fun _ => ?_) fun _ => hfailed _
    rw [Tx.wp_bind, DbTx.wp_insertEvent]
    refine ⟨fun hfits => ?_, fun _ => hfailed _⟩
    rw [Tx.wp_pure]
    refine Tx.seq (Q := fun _ db' => AnswerCommitted env session args marker db db') ?_ ?_
    · -- the delivery signal comes after the marker
      have hroom : db.events.next + 1 ≤ maxRowId := by
        rw [← hevents]
        exact hfits.2
      have hcommitted := answerCommitted_of_writes env session args marker htasks hevents hroom
      rw [Tx.wp_when]
      refine ⟨fun _ => ?_, fun _ => hcommitted⟩
      rw [Tx.wp_bind, DbTx.wp_insertEvent]
      exact ⟨fun _ => hcommitted.signal, fun _ => hfailed _⟩
    · rintro - db'' hcommitted
      rw [Tx.wp_bind, Tx.wp_when]
      have hid : db'.events.next = db.events.next := by rw [hevents]
      exact ⟨fun _ => ⟨congrArg Except.ok hid, hnone, hwin, hcommitted.fits, hcommitted.tasks, hcommitted.events⟩,
        fun _ => ⟨congrArg Except.ok hid, hnone, hwin, hcommitted⟩⟩
  · have hends : executionEnded x = true := by
      unfold executionEnded
      simpa using not_not.mp hover
    rw [hrefusal, hends, if_pos rfl]
    rfl

/-- **What a dismissal does**, likewise. -/
theorem dismiss_spec (env : Env) (hx : db.execution? escalation.executionId ≠ none) :
    Tx.wp (SessionsApi.dismiss env escalation)
      (fun reply db' => reply = .ok db.events.next ∧ findMarkerForEscalation db escalation = none ∧
        db.decisionExpired escalation = false ∧ db.events.next ≤ maxRowId ∧
        db'.events.rows = db.events.rows ++ [dismissMarker env escalation db.events.next])
      (fun reply => verdictOfDismissal reply = refusal db escalation) db := by
  unfold SessionsApi.dismiss
  refine DbTx.seq_execution (fun _ _ => ?_) fun hno => absurd hno hx
  refine Tx.seq_read ?_
  rw [Tx.wp_bind, Tx.wp_forSome]
  refine ⟨fun winner hwinner => (refusal_of_marker hwinner).symm, fun hnone => ?_⟩
  have hrefusal := refusal_of_none hnone
  refine DbTx.seq_execution (fun x hx => ?_) fun hno => absurd hno hx
  have hended : db.decisionExpired escalation = executionEnded x := by
    rw [Db.decisionExpired, hx, Option.any_some]
  rw [hended] at hrefusal
  refine Tx.seq_require (fun hlive => ?_) fun hover => ?_
  · have hgoes : executionEnded x = false := Bool.eq_false_iff.mpr hlive
    rw [hgoes, if_neg Bool.false_ne_true] at hrefusal
    rw [Tx.wp_bind, DbTx.wp_insertEvent]
    refine ⟨fun hfits => ⟨rfl, hnone, hended.trans hgoes, hfits.2, rfl⟩, fun _ => hrefusal.symm⟩
  · rw [hrefusal, if_pos (not_not.mp hover)]
    rfl

end Transactions

/-! ## What the markers read as -/

section Reading

variable {env : Env} {escalation : Escalation}

theorem isId_of_drawn {n : Nat} (hpos : 0 < n) (hmax : n ≤ maxRowId) : IsId (n : Int) := by
  unfold IsId maxI64
  unfold maxRowId at hmax
  omega

theorem one_part {payload written part : Json} (h : payload = written)
    (hwritten : written.get "parts" = some (.arr [part])) :
    ∃ part, payload.get "parts" = some (.arr [part]) := ⟨part, h ▸ hwritten⟩

/-- Of the parts of a written marker, at most one candidate is for the escalation. -/
theorem candidatesFor_single {row : EventRow} {part : Json} (hp : row.payload.get "parts" = some (.arr [part]))
    (h : candidatesFor escalation row ≠ []) : ∃ c, candidatesFor escalation row = [c] := by
  have hlength : (candidatesFor escalation row).length ≤ 1 := by
    unfold candidatesFor
    split
    · exact Nat.zero_le _
    · split
      · exact Nat.zero_le _
      · rename_i parts hparts
        rw [parts_of_single hp hparts, resolutionCandidates_one, List.length_map]
        refine (List.length_filter_le _ _).trans ?_
        cases candidateOfPart (row.id : Int) 0 part <;> simp
  cases hc : candidatesFor escalation row with
  | nil => exact absurd hc h
  | cons c rest =>
      rw [hc, List.length_cons] at hlength
      exact ⟨c, congrArg (c :: ·) (List.length_eq_zero_iff.mp (by omega))⟩

/-- A candidate for the escalation, as the only one of its row. -/
theorem candidatesFor_of_part (escalation : Escalation) (row : EventRow) {part : Json}
    {c : ResolutionCandidate} (hsession : row.sessionId = some escalation.sessionId)
    (hparts : parseParts row.payload = some [part])
    (hc : candidateOfPart (row.id : Int) 0 part = some c)
    (hnames : c.escalationEventId = some (escalation.id : Int)) :
    ∃ c', candidatesFor escalation row = [c'] ∧ c'.kind = c.kind ∧
      c'.embeddedResolvedEventId = c.embeddedResolvedEventId := by
  unfold candidatesFor
  rw [if_neg (not_not.mpr hsession), hparts]
  simp only [resolutionCandidates_one, hc, Option.toList_some, List.filter_cons, hnames, decide_true,
    if_true, List.filter_nil, List.map_cons, List.map_nil, List.cons.injEq, and_true, exists_eq_left']
  obtain ⟨kind, _⟩ := c
  cases kind <;> exact ⟨rfl, rfl⟩

/-- The marker is an answer, and names the message. -/
def NamesMessage (escalation : Escalation) (row : EventRow) (messageId : Nat) : Prop :=
  ∃ c, candidatesFor escalation row = [c] ∧ c.kind = .answer ∧
    c.embeddedResolvedEventId = some (messageId : Int)

/-- An answer's marker names its message. -/
theorem namesMessage_answerMarker {session : Session} {marker : ResolutionMarker} {messageId id : Nat}
    (hescalation : IsId (marker.escalation.id : Int)) (hmessage : IsId (messageId : Int)) :
    NamesMessage marker.escalation (answerMarker env session marker messageId id) messageId := by
  have hnamed : escalationEventId (markerData marker.escalation.data.batchId
      (some (marker.escalation.id : Int)) messageId (rfc3339 env.now) marker.answerText false) =
      some (marker.escalation.id : Int) := hescalation.positiveMember rfl
  have hembedded : embeddedResolvedEventId (markerData marker.escalation.data.batchId
      (some (marker.escalation.id : Int)) messageId (rfc3339 env.now) marker.answerText false) =
      some (messageId : Int) := hmessage.positiveMember rfl
  have hcandidate : ∃ c, candidateOfPart (id : Int) 0 (Json.dataPart (markerData
      marker.escalation.data.batchId (some (marker.escalation.id : Int)) messageId (rfc3339 env.now)
      marker.answerText false)) = some c ∧ c.kind = .answer ∧
      c.escalationEventId = some (marker.escalation.id : Int) ∧
      c.embeddedResolvedEventId = some (messageId : Int) :=
    ⟨_, rfl, rfl, hnamed, hembedded⟩
  obtain ⟨c, hc, hkind, hnames, hid⟩ := hcandidate
  obtain ⟨c', hread, hkind', hid'⟩ := candidatesFor_of_part marker.escalation
    (answerMarker env session marker messageId id) rfl rfl hc hnames
  exact ⟨c', hread, hkind'.trans hkind, hid'.trans hid⟩

/-- A dismissal's marker resolves its escalation. -/
theorem candidatesFor_dismissMarker (env : Env) (id : Nat) (hescalation : IsId (escalation.id : Int)) :
    ∃ c, candidatesFor escalation (dismissMarker env escalation id) = [c] ∧ c.kind = .dismiss := by
  have hnamed : escalationEventId (.obj [("type", .str dismissType),
      ("batch_id", .str escalation.data.batchId), ("escalation_event_id", .int escalation.id)]) =
      some (escalation.id : Int) := hescalation.positiveMember rfl
  have hcandidate : ∃ c, candidateOfPart (id : Int) 0 (Json.dataPart (.obj [("type", .str dismissType),
      ("batch_id", .str escalation.data.batchId), ("escalation_event_id", .int escalation.id)])) =
      some c ∧ c.kind = .dismiss ∧ c.escalationEventId = some (escalation.id : Int) :=
    ⟨_, rfl, rfl, hnamed⟩
  obtain ⟨c, hc, hkind, hnames⟩ := hcandidate
  obtain ⟨c', hread, hkind', -⟩ := candidatesFor_of_part escalation
    (dismissMarker env escalation id) rfl rfl hc hnames
  exact ⟨c', hread, hkind'.trans hkind⟩

end Reading

/-! ## Escalations of a run -/

/-- The same escalation, as far as markers tell. -/
def SameDecision (a b : Escalation) : Prop :=
  a.id = b.id ∧ a.sessionId = b.sessionId ∧ a.executionId = b.executionId

theorem SameDecision.candidatesFor {a b : Escalation} (h : SameDecision a b) (row : EventRow) :
    candidatesFor a row = candidatesFor b row := by
  obtain ⟨hid, hsession, -⟩ := h
  rw [Resolution.candidatesFor, Resolution.candidatesFor, hid, hsession]

theorem SameDecision.resolves {a b : Escalation} (h : SameDecision a b) {row : EventRow} :
    Resolves a row ↔ Resolves b row := by
  rw [Resolves, Resolves, h.candidatesFor, h.2.2]

section Runs

variable {history earlier : History} {e : Event scheduler} {escalation : Escalation} {row : EventRow}

/-- The execution of a known escalation is still there. -/
theorem execution_of_known (h : Trace disciplined history) (hknown : Known history escalation) :
    (current history).execution? escalation.executionId ≠ none := by
  obtain ⟨s, hs, hexec, -⟩ := root_of_known h hknown
  exact hexec ▸ (reachable_of_trace h).hasExecutions s (Db.mem_of_session? hs)

/-- What an answer has to go on. -/
theorem session_of_answer (h : Trace disciplined history) {session : Session}
    (hseen : Seen history session) (hknown : Known history escalation)
    (hsession : escalation.sessionId = session.id) :
    escalation.executionId = session.executionId ∧ (current history).session? session.id ≠ none := by
  obtain ⟨s, hs, hexec, -⟩ := root_of_known h hknown
  rw [hsession] at hs
  have hsame := (reachable_of_trace h).identity hseen (Db.mem_of_session? hs) (Db.id_of_session? hs)
  exact ⟨hexec.symm.trans hsame.1, by rw [hs]; exact Option.some_ne_none _⟩

/-- A marker that is committed is found. -/
theorem marker_found (h : Trace disciplined history) (hrow : row ∈ (current history).events.rows)
    (hresolves : Resolves escalation row) :
    findMarkerForEscalation (current history) escalation ≠ none := by
  obtain ⟨hexec, hplatform, hcandidates⟩ := hresolves
  obtain ⟨-, parts, hparts, c, hc, hnames⟩ := candidatesFor_ne_nil.mp hcandidates
  have hlater := (platform_row_names h hrow hplatform hparts hc hnames).2
  intro hnone
  refine hcandidates (bestMarker_eq_none.mp hnone row (List.mem_filter.mpr ⟨hrow, ?_⟩))
  exact decide_eq_true ⟨hexec, hplatform, Int.ofNat_lt.mp hlater⟩

/-- What is found is a candidate of a committed marker. -/
theorem marker_of_found {db : Db} {winner : ResolutionCandidate}
    (h : findMarkerForEscalation db escalation = some winner) :
    ∃ row ∈ db.events.rows, Resolves escalation row ∧ winner ∈ candidatesFor escalation row := by
  rcases mem_of_foldl_better h with hnone | hmem
  · cases hnone
  · obtain ⟨row, hrow, hwinner⟩ := List.mem_flatMap.mp hmem
    obtain ⟨hmem, hfilter⟩ := List.mem_filter.mp hrow
    obtain ⟨hexec, hplatform, -⟩ := of_decide_eq_true hfilter
    exact ⟨row, hmem, ⟨hexec, hplatform, List.ne_nil_of_mem hwinner⟩, hwinner⟩

/-! ## One call -/

/-- The call was refused: nothing changed, and it learnt why. -/
def Refused (escalation : Escalation) (w : Write) (e : Event scheduler) : Prop :=
  after e = before e ∧ w.verdict (envOf e) (before e) =
    some (if (envOf e).fault.isSome then .failed else refusal (before e) escalation)

/-- **An answer wins with all its rows, or is refused and leaves none.** -/
theorem answer_call (h : Trace disciplined (e :: earlier)) {session : Session} {args : SendMessageArgs}
    {marker : ResolutionMarker} (hop : e.op = Op.write (.sendMessage session args))
    (hmarker : args.resolution = some marker) :
    (((Write.sendMessage session args).run (envOf e) (before e)).1 =
        (.ok (before e).events.next : Except Rejected Nat) ∧
      findMarkerForEscalation (before e) marker.escalation = none ∧
      (before e).decisionExpired marker.escalation = false ∧
      AnswerCommitted (envOf e) session args marker (before e) (after e)) ∨
    Refused marker.escalation (.sendMessage session args) e := by
  obtain ⟨ht, hproper, -⟩ := h.of_cons
  have hbefore := (reachable_of_trace h).of_cons.2.1
  obtain ⟨hseen, hresolution⟩ : Proper e.caller earlier (.sendMessage session args) := hproper _ hop
  obtain ⟨hknown, hsession⟩ := hresolution marker hmarker
  obtain ⟨hexec, hs⟩ := session_of_answer ht hseen hknown hsession
  have hx := execution_of_known ht hknown
  rw [hexec] at hx
  rw [Refused, after_write hop, Write.verdict]
  unfold Write.run
  cases (envOf e).fault with
  | some fault => exact .inr ⟨rfl, rfl⟩
  | none =>
      rw [← hbefore] at hx hs
      rcases Tx.commit_cases (sendMessage_spec (envOf e) hmarker hexec hx hs) with
        ⟨hreply, hnone, hlive, hcommitted⟩ | ⟨hreply, hsame⟩
      · exact .inl ⟨hreply, hnone, hlive, hcommitted⟩
      · exact .inr ⟨hsame, congrArg some hreply⟩

/-- **So does a dismissal.** -/
theorem dismiss_call (h : Trace disciplined (e :: earlier)) (hop : e.op = Op.write (.dismiss escalation)) :
    (((Write.dismiss escalation).run (envOf e) (before e)).1 =
        (.ok (before e).events.next : Except SchedulerError Nat) ∧
      findMarkerForEscalation (before e) escalation = none ∧
      (before e).decisionExpired escalation = false ∧ (before e).events.next ≤ maxRowId ∧
      (after e).events.rows = (before e).events.rows ++
        [dismissMarker (envOf e) escalation (before e).events.next]) ∨
    Refused escalation (.dismiss escalation) e := by
  obtain ⟨ht, hproper, -⟩ := h.of_cons
  have hbefore := (reachable_of_trace h).of_cons.2.1
  have hknown : Proper e.caller earlier (.dismiss escalation) := hproper _ hop
  have hx := execution_of_known ht hknown
  rw [Refused, after_write hop, Write.verdict]
  unfold Write.run
  cases (envOf e).fault with
  | some fault => exact .inr ⟨rfl, rfl⟩
  | none =>
      rw [← hbefore] at hx
      rcases Tx.commit_cases (dismiss_spec (envOf e) hx) with hwon | ⟨hreply, hsame⟩
      · exact .inl hwon
      · exact .inr ⟨hsame, congrArg some hreply⟩

/-- Of what an answer commits, only its marker resolves anything. -/
theorem AnswerCommitted.new_marker {env : Env} {session : Session} {args : SendMessageArgs}
    {marker : ResolutionMarker} {db db' : Db} (h : AnswerCommitted env session args marker db db')
    (hrow : row ∈ db'.events.rows) (hnew : row ∉ db.events.rows) (hresolves : Resolves escalation row) :
    row = answerMarker env session marker db.events.next (db.events.next + 1) := by
  obtain ⟨delivered, hrows, hpayloads⟩ := h.events
  obtain ⟨-, hplatform, hcandidates⟩ := hresolves
  rw [hrows, List.append_assoc] at hrow
  rcases List.mem_append.mp hrow with hold | hrow
  · exact absurd hold hnew
  rcases List.mem_append.mp hrow with hwritten | hdelivered
  · rcases List.mem_pair.mp hwritten with rfl | rfl
    · cases hplatform
    · rfl
  · obtain ⟨-, parts, hparts, c, hc, -⟩ := candidatesFor_ne_nil.mp hcandidates
    have hinert : Inert row.payload := by
      rw [hpayloads row hdelivered]
      exact inert_of_no_parts rfl
    rw [hinert.2 parts _ hparts] at hc
    cases hc

/-- A known escalation's id is one that markers can name. -/
theorem isId_of_known (h : Trace disciplined history) (hknown : Known history escalation)
    (hfits : (current history).events.next ≤ maxRowId) : IsId (escalation.id : Int) := by
  have hdrawn := hknown.bounded h
  obtain ⟨e, he, row, hrow, hescalation⟩ := hknown
  obtain ⟨earlier, hsuffix, hr⟩ := (reachable_of_trace h).of_mem he
  rw [hr.of_cons.2.1] at hrow
  have hpos := (hr.of_cons.1.recorded_bounds.2 row (recorded_of_mem hrow)).1
  rw [← id_of_asEscalation hescalation] at hpos
  exact isId_of_drawn hpos (by omega)

/-- The marker that an answer commits names the message that it commits. -/
theorem AnswerCommitted.names (h : Trace disciplined (e :: earlier)) {session : Session}
    {args : SendMessageArgs} {marker : ResolutionMarker} (hknown : Known earlier marker.escalation)
    (hcommitted : AnswerCommitted (envOf e) session args marker (before e) (after e)) :
    NamesMessage marker.escalation (answerMarker (envOf e) session marker (before e).events.next
      ((before e).events.next + 1)) (before e).events.next := by
  obtain ⟨hr, hbefore, -⟩ := (reachable_of_trace h).of_cons
  have hfits := Nat.le_of_succ_le hcommitted.fits
  rw [hbefore] at hfits ⊢
  exact namesMessage_answerMarker (isId_of_known h.of_cons.1 hknown hfits)
    (isId_of_drawn hr.recorded_bounds.1 hfits)

/-- The call committed one marker of the escalation. -/
def CommitsMarker (escalation : Escalation) (e : Event scheduler) : Prop :=
  ∃ row ∈ (after e).events.rows, row ∉ (before e).events.rows ∧ Resolves escalation row ∧
    ∀ row' ∈ (after e).events.rows, row' ∉ (before e).events.rows → Resolves escalation row' → row' = row

/-- **A request to resolve an escalation finds no marker and commits one, or is refused.** -/
theorem resolving_call (h : Trace disciplined (e :: earlier)) {w : Write} (hop : e.op = Op.write w)
    (hw : w.resolving escalation) :
    (w.verdict (envOf e) (before e) = some .won ∧
      findMarkerForEscalation (before e) escalation = none ∧
      (before e).decisionExpired escalation = false ∧ CommitsMarker escalation e) ∨ Refused escalation w e := by
  obtain ⟨ht, hproper, -⟩ := h.of_cons
  have hbefore := (reachable_of_trace h).of_cons.2.1
  have hfresh : ∀ (row : EventRow), (before e).events.next ≤ row.id → row ∉ (before e).events.rows :=
    fun row hid hmem => absurd ((before e).events.bounded row hmem) (Nat.not_lt.mpr hid)
  rcases hw with ⟨session, args, text, rfl, hmarker⟩ | rfl
  · obtain ⟨-, hresolution⟩ : Proper e.caller earlier (.sendMessage session args) := hproper _ hop
    obtain ⟨hknown, hsession⟩ := hresolution _ hmarker
    rcases answer_call h hop hmarker with ⟨hreply, hnone, hlive, hcommitted⟩ | hrefused
    · refine .inl ⟨congrArg (some ∘ verdictOfAnswer) hreply, hnone, hlive, ?_⟩
      obtain ⟨c, hread, -, -⟩ := hcommitted.names h hknown
      obtain ⟨delivered, hrows, -⟩ := hcommitted.events
      refine ⟨_, ?_, hfresh _ (Nat.le_succ _), ⟨?_, rfl, ?_⟩, fun row' hrow' hnew hresolves =>
        hcommitted.new_marker hrow' hnew hresolves⟩
      · rw [hrows]
        simp
      · exact (session_of_answer ht (hproper _ hop).1 hknown hsession).1.symm
      · rw [hread]
        exact List.cons_ne_nil _ _
    · exact .inr hrefused
  · have hknown : Known earlier escalation := hproper _ hop
    rcases dismiss_call h hop with ⟨hreply, hnone, hlive, hfits, hrows⟩ | hrefused
    · refine .inl ⟨congrArg (some ∘ verdictOfDismissal) hreply, hnone, hlive, ?_⟩
      have hid := isId_of_known ht hknown (hbefore ▸ hfits)
      obtain ⟨c, hread, -⟩ := candidatesFor_dismissMarker (envOf e) (before e).events.next hid
      refine ⟨dismissMarker (envOf e) escalation (before e).events.next, ?_, hfresh _ (Nat.le_refl _),
        ⟨rfl, rfl, ?_⟩, fun row' hrow' hnew _ => ?_⟩
      · rw [hrows]
        simp
      · rw [hread]
        exact List.cons_ne_nil _ _
      · rw [hrows] at hrow'
        rcases List.mem_append.mp hrow' with hold | hadded
        · exact absurd hold hnew
        · exact List.mem_singleton.mp hadded
    · exact .inr hrefused

/-- **Only such a request commits a marker.** -/
theorem marker_origin (h : Trace disciplined (e :: earlier)) (hnew : row ∉ (current earlier).events.rows)
    (hrow : row ∈ (after e).events.rows) (hresolves : Resolves escalation row) :
    (∃ w decision, e.op = Op.write w ∧ w.resolving decision ∧ SameDecision decision escalation ∧
      Known earlier decision) ∧ ∃ part, row.payload.get "parts" = some (.arr [part]) := by
  obtain ⟨ht, hproper, -⟩ := h.of_cons
  obtain ⟨hexec, hplatform, hcandidates⟩ := hresolves
  obtain ⟨hsession, parts, hparts, c, hc, hnames⟩ := candidatesFor_ne_nil.mp hcandidates
  rcases (reachable_of_trace h).call_logged.2 row hrow with hold | ⟨-, w, hop, hlog⟩
  · exact absurd hold hnew
  have hwproper := hproper w hop
  rcases hlog.2 hplatform with hinert | hmarks | hescalates | ⟨executionId, sessionId, hw⟩
  · rw [hinert.2 parts _ hparts] at hc
    cases hc
  · rcases hmarks with
      ⟨session, args, marker, messageId, resolvedAt, rfl, hmarker, hexec', hsession', hpayload⟩ |
      ⟨decision, rfl, hexec', hsession', hpayload⟩
    · obtain ⟨hseen, hresolution⟩ := hwproper
      obtain ⟨hknown, hown⟩ := hresolution marker hmarker
      refine ⟨⟨_, marker.escalation, hop, .inl ⟨session, args, marker.answerText, rfl, hmarker⟩,
        ⟨?_, Option.some.inj (hsession'.symm.trans hsession), ?_⟩, hknown⟩, one_part hpayload rfl⟩
      · rw [hpayload] at hparts
        exact (Int.ofNat_inj.mp (markerPayload_names.2 parts _ hparts c hc _ hnames)).symm
      · exact (session_of_answer ht hseen hknown hown).1.trans (hexec'.symm.trans hexec)
    · refine ⟨⟨_, decision, hop, .inr rfl, ⟨?_, Option.some.inj (hsession'.symm.trans hsession),
        hexec'.symm.trans hexec⟩, hwproper⟩, one_part hpayload rfl⟩
      rw [hpayload] at hparts
      exact (Int.ofNat_inj.mp (dismissPayload_names.2 parts _ hparts c hc _ hnames)).symm
  · obtain ⟨sessionId, importance, questions, -, -, hpayload⟩ := hescalates
    rw [hpayload] at hparts
    rw [escalateEvent_noMarker parts _ hparts] at hc
    cases hc
  · rw [hw] at hwproper
    obtain ⟨text, htext⟩ := hwproper.1 rfl
    rw [htext] at hparts
    rw [(inert_noticeEvent text).2 parts _ hparts] at hc
    cases hc

/-! ## Whole runs -/

/-- A row of the log was added by some call. -/
theorem exists_added (hrow : row ∈ (current history).events.rows) :
    ∃ e earlier, (e :: earlier) <:+ history ∧ row ∉ (current earlier).events.rows ∧
      row ∈ (after e).events.rows := by
  induction history with
  | nil => cases hrow
  | cons e history ih =>
      by_cases hold : row ∈ (current history).events.rows
      · obtain ⟨e', earlier, hsuffix, hadded⟩ := ih hold
        exact ⟨e', earlier, hsuffix.trans (List.suffix_cons _ _), hadded⟩
      · exact ⟨e, history, List.suffix_refl _, hold, hrow⟩

/-- Where a marker is committed, no request commits another. -/
theorem Refused.of_marker (h : Trace disciplined (e :: earlier)) {w : Write} (hop : e.op = Op.write w)
    (hw : w.resolving escalation) (hrow : row ∈ (current earlier).events.rows)
    (hresolves : Resolves escalation row) : Refused escalation w e := by
  rcases resolving_call h hop hw with ⟨-, hnone, -⟩ | hrefused
  · rw [(reachable_of_trace h).of_cons.2.1] at hnone
    exact absurd hnone (marker_found h.of_cons.1 hrow hresolves)
  · exact hrefused

/-- No call adds a marker to one that was there. -/
theorem not_added (h : Trace disciplined (e :: earlier)) {row' : EventRow}
    (hrow : row ∈ (current earlier).events.rows) (hresolves : Resolves escalation row)
    (hrow' : row' ∈ (after e).events.rows) (hresolves' : Resolves escalation row') :
    row' ∈ (current earlier).events.rows := by
  by_contra hnew
  obtain ⟨⟨w, decision, hop, hw, hsame, -⟩, -⟩ := marker_origin h hnew hrow' hresolves'
  have hunchanged := (Refused.of_marker h hop hw hrow (hsame.resolves.mpr hresolves)).1
  rw [hunchanged, (reachable_of_trace h).of_cons.2.1] at hrow'
  exact hnew hrow'

/-- **At most one marker is committed.** -/
theorem marker_unique (h : Trace disciplined history) {row' : EventRow}
    (hrow : row ∈ (current history).events.rows) (hrow' : row' ∈ (current history).events.rows)
    (hresolves : Resolves escalation row) (hresolves' : Resolves escalation row') : row = row' := by
  induction history with
  | nil => cases hrow
  | cons e earlier ih =>
      have hbefore := (reachable_of_trace h).of_cons.2.1
      by_cases hold : row ∈ (current earlier).events.rows
      · exact ih h.of_cons.1 hold (not_added h hold hresolves hrow' hresolves')
      by_cases hold' : row' ∈ (current earlier).events.rows
      · exact absurd (not_added h hold' hresolves' hrow hresolves) hold
      -- both are of this call
      obtain ⟨⟨w, decision, hop, hw, hsame, -⟩, -⟩ := marker_origin h hold hrow hresolves
      rw [← hbefore] at hold hold'
      rcases resolving_call h hop hw with ⟨-, -, -, marker, -, -, -, honly⟩ | hrefused
      · have hfirst := honly row hrow hold (hsame.resolves.mpr hresolves)
        exact hfirst.trans (honly row' hrow' hold' (hsame.resolves.mpr hresolves')).symm
      · rw [current_cons, hrefused.1] at hrow
        exact absurd hrow hold

/-- **A committed marker stays.** -/
theorem marker_stays (h : Trace disciplined history) (hrecorded : Recorded history row)
    (hresolves : Resolves escalation row) : row ∈ (current history).events.rows := by
  obtain ⟨past, ⟨later, rfl⟩, hrow⟩ := hrecorded
  have ht := h.of_suffix (List.suffix_append later past)
  obtain ⟨e, earlier, hsuffix, hnew, hadded⟩ := exists_added hrow
  obtain ⟨⟨w, decision, hop, hw, hsame, hknown⟩, -⟩ := marker_origin (ht.of_suffix hsuffix) hnew hadded hresolves
  have hknown' : Known past decision := hknown.mono ((List.suffix_cons e earlier).trans hsuffix)
  obtain ⟨s, hs, -, hroot⟩ := root_of_known ht hknown'
  have hid := Db.id_of_session? hs
  refine root_events_stay h (hid.symm ▸ hs) hroot hrow ?_
  rw [(candidatesFor_ne_nil.mp (hsame.resolves.mpr hresolves).2.2).1, hid]

/-- A committed marker has one candidate. -/
theorem candidatesFor_marker (h : Trace disciplined history) (hrow : row ∈ (current history).events.rows)
    (hresolves : Resolves escalation row) : ∃ c, candidatesFor escalation row = [c] := by
  obtain ⟨e, earlier, hsuffix, hnew, hadded⟩ := exists_added hrow
  obtain ⟨-, part, hpart⟩ := marker_origin (h.of_suffix hsuffix) hnew hadded hresolves
  exact candidatesFor_single hpart hresolves.2.2

/-- **What a request finds is the candidate of the committed marker.** -/
theorem found_iff (h : Trace disciplined history) {winner : ResolutionCandidate} :
    findMarkerForEscalation (current history) escalation = some winner ↔
      ∃ row ∈ (current history).events.rows, Resolves escalation row ∧
        candidatesFor escalation row = [winner] := by
  constructor
  · intro hfound
    obtain ⟨row, hrow, hresolves, hmem⟩ := marker_of_found hfound
    obtain ⟨c, hc⟩ := candidatesFor_marker h hrow hresolves
    rw [hc, List.mem_singleton] at hmem
    exact ⟨row, hrow, hresolves, hmem ▸ hc⟩
  · rintro ⟨row, hrow, hresolves, hwinner⟩
    obtain ⟨c, hc⟩ := Option.ne_none_iff_exists'.mp (marker_found h hrow hresolves)
    obtain ⟨row', hrow', hresolves', hmem⟩ := marker_of_found hc
    obtain rfl := marker_unique h hrow hrow' hresolves hresolves'
    rw [hwinner, List.mem_singleton] at hmem
    rw [hc, hmem]

end Runs

/-- How a call to resolve the escalation ends: the database fails it; a marker was committed, and the
request learns which; the execution had ended; the request is refused for another reason, or it commits
the marker. -/
inductive Ends (escalation : Escalation) (w : Write) (e : Event scheduler) : Prop where
  | failed (fault : (envOf e).fault.isSome = true) (unchanged : after e = before e)
      (told : w.verdict (envOf e) (before e) = some .failed)
  | lost (row : EventRow) (winner : ResolutionCandidate) (committed : row ∈ (before e).events.rows)
      (resolves : Resolves escalation row) (reads : candidatesFor escalation row = [winner])
      (unchanged : after e = before e)
      (told : w.verdict (envOf e) (before e) = some (.lost winner))
  | expired (unresolved : ∀ row ∈ (before e).events.rows, ¬Resolves escalation row)
      (ended : (before e).decisionExpired escalation = true) (unchanged : after e = before e)
      (told : w.verdict (envOf e) (before e) = some .expired)
  | refused (unresolved : ∀ row ∈ (before e).events.rows, ¬Resolves escalation row)
      (live : (before e).decisionExpired escalation = false) (unchanged : after e = before e)
      (told : w.verdict (envOf e) (before e) = some .failed)
  | won (unresolved : ∀ row ∈ (before e).events.rows, ¬Resolves escalation row)
      (live : (before e).decisionExpired escalation = false) (commits : CommitsMarker escalation e)
      (told : w.verdict (envOf e) (before e) = some .won)

section Whole

variable {history earlier : History} {e : Event scheduler} {escalation : Escalation} {row : EventRow}

/-- Every request ends in one of these ways. -/
theorem resolving_ends (h : Trace disciplined (e :: earlier)) {w : Write} (hop : e.op = Op.write w)
    (hw : w.resolving escalation) : Ends escalation w e := by
  have hbefore := (reachable_of_trace h).of_cons.2.1
  have hunresolved (hnone : findMarkerForEscalation (before e) escalation = none) :
      ∀ row ∈ (before e).events.rows, ¬Resolves escalation row := by
    intro row hrow hresolves
    rw [hbefore] at hrow hnone
    exact marker_found h.of_cons.1 hrow hresolves hnone
  rcases resolving_call h hop hw with ⟨htold, hnone, hlive, hcommits⟩ | ⟨hsame, htold⟩
  · exact .won (hunresolved hnone) hlive hcommits htold
  · cases hfault : (envOf e).fault.isSome with
    | true =>
        rw [hfault, if_pos rfl] at htold
        exact .failed hfault hsame htold
    | false =>
        rw [hfault, if_neg Bool.false_ne_true] at htold
        cases hfound : findMarkerForEscalation (before e) escalation with
        | some winner =>
            rw [refusal_of_marker hfound] at htold
            rw [hbefore] at hfound
            obtain ⟨row, hrow, hresolves, hreads⟩ := (found_iff h.of_cons.1).mp hfound
            exact .lost row winner (hbefore ▸ hrow) hresolves hreads hsame htold
        | none =>
            rw [refusal_of_none hfound] at htold
            cases hended : (before e).decisionExpired escalation with
            | true =>
                rw [hended, if_pos rfl] at htold
                exact .expired (hunresolved hfound) hended hsame htold
            | false =>
                rw [hended, if_neg Bool.false_ne_true] at htold
                exact .refused (hunresolved hfound) hended hsame htold

/-- The call is an answer that committed `row` as its marker, and the message that the marker names. -/
def Answers (escalation : Escalation) (row : EventRow) (e : Event scheduler) : Prop :=
  ∃ session args marker, e.op = Op.write (.sendMessage session args) ∧ args.resolution = some marker ∧
    SameDecision marker.escalation escalation ∧
    AnswerCommitted (envOf e) session args marker (before e) (after e) ∧
    row = answerMarker (envOf e) session marker (before e).events.next ((before e).events.next + 1) ∧
    NamesMessage escalation row (before e).events.next

/-- **Behind every answer's marker there is an answer that was committed whole.** -/
theorem exists_answer (h : Trace disciplined history) (hrecorded : Recorded history row)
    (hresolves : Resolves escalation row)
    (hanswer : ∃ c ∈ candidatesFor escalation row, c.kind = .answer) :
    ∃ e ∈ history, Answers escalation row e := by
  obtain ⟨e, earlier, hsuffix, hnew, hadded⟩ := exists_added (marker_stays h hrecorded hresolves)
  have ht := h.of_suffix hsuffix
  obtain ⟨hr, hbefore, -⟩ := (reachable_of_trace ht).of_cons
  obtain ⟨⟨w, decision, hop, hw, hsame, hknown⟩, -⟩ := marker_origin ht hnew hadded hresolves
  refine ⟨e, hsuffix.subset List.mem_cons_self, ?_⟩
  rw [← hbefore] at hnew
  rcases hw with ⟨session, args, text, rfl, hmarker⟩ | rfl
  · rcases answer_call ht hop hmarker with ⟨-, -, -, hcommitted⟩ | hrefused
    · have hrow := hcommitted.new_marker hadded hnew hresolves
      obtain ⟨c, hread, hkind, hid⟩ := hcommitted.names ht hknown
      rw [← hrow, hsame.candidatesFor] at hread
      exact ⟨session, args, _, hop, hmarker, hsame, hcommitted, hrow, c, hread, hkind, hid⟩
    · exact absurd (hrefused.1 ▸ hadded) hnew
  · -- a dismissal's marker is no answer
    rcases dismiss_call ht hop with ⟨-, -, -, hfits, hrows⟩ | hrefused
    · rw [hrows] at hadded
      rcases List.mem_append.mp hadded with hold | hmarker
      · exact absurd hold hnew
      · obtain rfl := List.mem_singleton.mp hmarker
        rw [hbefore] at hfits
        obtain ⟨c, hread, hkind⟩ := candidatesFor_dismissMarker (envOf e)
          (before e).events.next (isId_of_known ht.of_cons.1 hknown hfits)
        obtain ⟨c', hc', hkind'⟩ := hanswer
        rw [← hsame.candidatesFor, hread, List.mem_singleton] at hc'
        rw [hc', hkind] at hkind'
        cases hkind'
    · exact absurd (hrefused.1 ▸ hadded) hnew

end Whole

/-- **Whoever resolves an escalation first wins, once.** In every run: at most one marker of an escalation
is ever committed, and it stays; every other request learns of exactly that marker, or that the execution
had ended; an answer commits its task, its message and a marker that names the message, or nothing; and
every answer's marker was committed so. -/
theorem first_resolution_wins {pool : List (Nat × Request Unit)} {history : History}
    (h : SchedulerRun pool history) (escalation : Escalation) :
    (∀ row row', Recorded history row → Recorded history row' → Resolves escalation row →
      Resolves escalation row' → row = row' ∧ row ∈ (current history).events.rows) ∧
    (∀ e ∈ history, ∀ w, e.op = Op.write w → w.resolving escalation → Ends escalation w e) ∧
    (∀ e ∈ history, ∀ session args marker, e.op = Op.write (.sendMessage session args) →
      args.resolution = some marker →
      AnswerCommitted (envOf e) session args marker (before e) (after e) ∨ after e = before e) ∧
    ∀ row, Recorded history row → Resolves escalation row →
      (∃ c ∈ candidatesFor escalation row, c.kind = .answer) → ∃ e ∈ history, Answers escalation row e := by
  have ht := h.disciplined
  refine ⟨fun row row' hrow hrow' hresolves hresolves' => ?_, fun e he w hop hw => ?_,
    fun e he session args marker hop hmarker => ?_, fun row hrow hresolves hanswer => ?_⟩
  · have hmem := marker_stays ht hrow hresolves
    exact ⟨marker_unique ht hmem (marker_stays ht hrow' hresolves') hresolves hresolves', hmem⟩
  · obtain ⟨earlier, hsuffix, -⟩ := (reachable_of_trace ht).of_mem he
    exact resolving_ends (ht.of_suffix hsuffix) hop hw
  · obtain ⟨earlier, hsuffix, -⟩ := (reachable_of_trace ht).of_mem he
    rcases answer_call (ht.of_suffix hsuffix) hop hmarker with ⟨-, -, -, hcommitted⟩ | hrefused
    · exact .inl hcommitted
    · exact .inr hrefused.1
  · exact exists_answer ht hrow hresolves hanswer

/-- What the request behind a call learns, if it is to resolve an escalation. -/
def verdictOf (e : Event scheduler) : Option Verdict :=
  match (e.op : Op) with
  | .write w => w.verdict (envOf e) (before e)
  | _ => none

/-- The lead raises a decision; a dismissal has looked it up when an answer overtakes it. -/
def overtaken : List (Choice (Nat × Route) Env) :=
  let question : Json := .obj [("question", .str "which?")]
  let answer : List Json := [.textPart "yes", .dataPart (.obj [("type", .str answerType),
    ("escalation_event_id", .str "3")])]
  opening ++ alone 3 "e" (.escalate "r" "blocking" [question]) 4 ++
    [.spawn 4 (0, .dismiss "3" none), .step 0 (calm 4 "")] ++
    beside 5 "f" (.postMessage "r" answer none) 5 ++ [.step 0 (calm 6 "g")]

/-- The answer wins, and the dismissal learns what it was. -/
theorem first_resolution_wins_overtaken :
    ((historyOf overtaken).take 2).map verdictOf =
      [some (.lost { kind := .answer, batchId := "e3", escalationEventId := some 3, orderKey := ⟨4, 5, 0⟩,
                     answerText := some "yes", resolvedAtRaw := some "1970-01-01T00:00:05Z",
                     embeddedResolvedEventId := some 4, truncated := false }), some .won] ∧
    ∀ escalation row row', Recorded (historyOf overtaken) row → Recorded (historyOf overtaken) row' →
      Resolves escalation row → Resolves escalation row' →
      row = row' ∧ row ∈ (current (historyOf overtaken)).events.rows := by
  refine ⟨by decide +kernel, fun escalation => ?_⟩
  obtain ⟨pool, hrun⟩ := historyOf_run overtaken
  exact (first_resolution_wins hrun escalation).1

end AgentBeacon
