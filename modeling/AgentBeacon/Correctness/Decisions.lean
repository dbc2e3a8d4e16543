import AgentBeacon.Api.Decisions
import AgentBeacon.System.Decisions

/-!
# `Correctness.Decisions` — the decision feed and the decision detail agree

The feed scans the platform events of the active executions once and collects the identities that markers
name; the detail looks above one escalation for a marker of it. Both find the same, because whatever
names an escalation was logged after it, in its session, and is no escalation itself.
-/

namespace AgentBeacon
open Relational Transaction Interleave Resolution DecisionsApi

/-! ## The stored log of a run -/

/-- A row that resolves nothing by name: a marker of before the upgrade that recorded escalation ids, or
one that the upgrade filled in. -/
def Unnamed (row : StoredEvent) : Prop :=
  ∀ payload ∈ row.payload, escalationData payload = none ∧
    ∀ parts, parseParts payload = some parts → ∀ c ∈ resolutionCandidates parts row.id,
      c.escalationEventId = none

/-- The stored log of a database: its events, and among them rows that cannot be decoded, rows of other
types, and platform events that resolve nothing by name. -/
structure LogOf (db : Db) (log : EventLog) : Prop where
  logged : ∀ event ∈ db.events.rows, event.stored ∈ log.rows
  others : ∀ row ∈ log.rows, row.eventType = .platform →
    (∃ event ∈ db.events.rows, row = event.stored) ∨ Unnamed row

/-- The markers that the upgrade filled in name no escalation. -/
theorem unnamed_markerPayload {row : StoredEvent} {batchId : String} {resolved : Int}
    {resolvedAt : String} {text : Option String} {truncated : Bool}
    (h : row.payload = some (markerPayload batchId none resolved resolvedAt text truncated)) :
    Unnamed row := by
  intro payload hpayload
  obtain rfl := Option.some.inj (h.symm.trans hpayload)
  have hparts : (markerPayload batchId none resolved resolvedAt text truncated).get "parts" =
      some (.arr [Json.dataPart (markerData batchId none resolved resolvedAt text truncated)]) := rfl
  refine ⟨?_, fun parts hparse c hc => ?_⟩
  · unfold escalationData parseRoleAndParts
    cases parseParts (markerPayload batchId none resolved resolvedAt text truncated) with
    | none => rfl
    | some parts => rfl
  · rw [named_of_candidate (candidates_of_data hparts hparse hc)]
    cases text <;> cases truncated <;> rfl

/-- A row that cannot be decoded resolves nothing. -/
theorem unnamed_undecodable {row : StoredEvent} (h : row.payload = none) : Unnamed row := by
  intro payload hpayload
  rw [h] at hpayload
  cases hpayload

/-! ## What the scan collects -/

section Scan

variable {scan : PendingScan} {windows : List WindowEvent} {window : WindowEvent}

/-- An event of the scan adds itself, if it is an escalation. -/
theorem mem_visit_escalations {escalation : Escalation} (hplatform : window.event.eventType = .platform) :
    escalation ∈ (scan.visit window).escalations ↔ escalation ∈ scan.escalations ∨
      window.sessionCoherent = true ∧ asEscalation window.event = some escalation := by
  obtain ⟨event, coherent⟩ := window
  have hread : asEscalation event = event.sessionId.bind fun sessionId =>
      (escalationData event.payload).bind fun data => some
        { id := event.id, executionId := event.executionId, sessionId, createdAt := event.createdAt, data } :=
    if_neg (not_not.mpr hplatform)
  rw [hread]
  unfold PendingScan.visit
  cases coherent with
  | false => simp
  | true =>
      cases event.sessionId with
      | none => simp
      | some sessionId =>
          cases escalationData event.payload with
          | none => cases parseParts event.payload <;> simp
          | some data => simp [eq_comm]

/-- And else the targets of its markers. -/
theorem mem_visit_resolved {target : MarkerTarget} :
    target ∈ (scan.visit window).resolved ↔ target ∈ scan.resolved ∨
      window.sessionCoherent = true ∧ escalationData window.event.payload = none ∧
        ∃ sessionId ∈ window.event.sessionId, ∃ parts, parseParts window.event.payload = some parts ∧
          target ∈ targetsOf window.event sessionId parts := by
  obtain ⟨event, coherent⟩ := window
  unfold PendingScan.visit
  cases coherent with
  | false => simp
  | true =>
      cases event.sessionId with
      | none => simp
      | some sessionId =>
          cases escalationData event.payload with
          | none => cases parseParts event.payload <;> simp
          | some data => simp

/-- The escalations of the whole scan. -/
theorem mem_escalations {escalation : Escalation}
    (hplatform : ∀ window ∈ windows, window.event.eventType = .platform) :
    escalation ∈ (windows.foldl PendingScan.visit scan).escalations ↔ escalation ∈ scan.escalations ∨
      ∃ window ∈ windows, window.sessionCoherent = true ∧ asEscalation window.event = some escalation := by
  induction windows generalizing scan with
  | nil => simp
  | cons window windows ih =>
      rw [List.foldl_cons, ih fun w hw => hplatform w (List.mem_cons_of_mem _ hw),
        mem_visit_escalations (hplatform window List.mem_cons_self), List.exists_mem_cons_iff, or_assoc]

/-- What the whole scan finds resolved. -/
theorem mem_resolved {target : MarkerTarget} :
    target ∈ (windows.foldl PendingScan.visit scan).resolved ↔ target ∈ scan.resolved ∨
      ∃ window ∈ windows, window.sessionCoherent = true ∧ escalationData window.event.payload = none ∧
        ∃ sessionId ∈ window.event.sessionId, ∃ parts, parseParts window.event.payload = some parts ∧
          target ∈ targetsOf window.event sessionId parts := by
  induction windows generalizing scan with
  | nil => simp
  | cons window windows ih =>
      rw [List.foldl_cons, ih, mem_visit_resolved, List.exists_mem_cons_iff, or_assoc]

end Scan

/-! ## What the detail finds -/

/-- No marker is found if and only if no event has a candidate for the escalation. -/
theorem bestMarker_eq_none {events : List EventRow} {escalation : Escalation} :
    bestMarker events escalation = none ↔ ∀ event ∈ events, candidatesFor escalation event = [] := by
  unfold bestMarker
  rw [foldl_better_eq_none, and_iff_right rfl, List.flatMap_eq_nil_iff]

/-- An event has a candidate for the escalation: it is one of its session, and a candidate names it. -/
theorem candidatesFor_ne_nil {escalation : Escalation} {event : EventRow} :
    candidatesFor escalation event ≠ [] ↔ event.sessionId = some escalation.sessionId ∧
      ∃ parts, parseParts event.payload = some parts ∧ ∃ c ∈ resolutionCandidates parts event.id,
        c.escalationEventId = some (escalation.id : Int) := by
  unfold candidatesFor
  by_cases hsession : event.sessionId = some escalation.sessionId
  · rw [if_neg (not_not.mpr hsession)]
    cases hparts : parseParts event.payload with
    | none => simp
    | some parts => simp [hsession, List.filter_eq_nil_iff]
  · rw [if_pos hsession]
    exact iff_of_false (fun h => h rfl) fun h => hsession h.1

/-! ## The rows of the log -/

theorem stored_injective {a b : EventRow} (h : a.stored = b.stored) : a = b := by
  have hparse := congrArg parseEventRow h
  rw [parseEventRow_stored, parseEventRow_stored] at hparse
  exact Option.some.inj hparse

section Rows

variable {history : History} {log : EventLog} {event : EventRow} {escalation : Escalation}

/-- A decoded platform event that resolves something by name, or is an escalation, was logged in the run. -/
theorem LogOf.of_named (hlog : LogOf (current history) log) (hrow : event.stored ∈ log.rows)
    (hplatform : event.eventType = .platform) (h : ¬Unnamed event.stored) :
    event ∈ (current history).events.rows := by
  rcases hlog.others event.stored hrow hplatform with ⟨event', hevent', hsame⟩ | hunnamed
  · exact stored_injective hsame ▸ hevent'
  · exact absurd hunnamed h

/-- An escalation of the log was logged in the run. -/
theorem LogOf.raised (hlog : LogOf (current history) log) (hrow : event.stored ∈ log.rows)
    (hescalation : asEscalation event = some escalation) : event ∈ (current history).events.rows := by
  obtain ⟨hplatform, -, hdata, -⟩ := asEscalation_eq_some hescalation
  refine hlog.of_named hrow hplatform fun hunnamed => ?_
  have hnone := (hunnamed event.payload rfl).1
  rw [hdata] at hnone
  cases hnone

/-- And so was whatever names an escalation: it is a later event, and no escalation. -/
theorem LogOf.marker (hlog : LogOf (current history) log) (h : Trace disciplined history)
    (hrow : event.stored ∈ log.rows) (hplatform : event.eventType = .platform) {parts : List Json}
    (hparts : parseParts event.payload = some parts) {c : ResolutionCandidate}
    (hc : c ∈ resolutionCandidates parts event.id) {m : Int} (hm : c.escalationEventId = some m) :
    escalationData event.payload = none ∧ m < event.id := by
  refine platform_row_names h (hlog.of_named hrow hplatform fun hunnamed => ?_) hplatform hparts hc hm
  have hnone := (hunnamed event.payload rfl).2 parts hparts c hc
  rw [hm] at hnone
  cases hnone

/-- The escalation's session is one of its execution. -/
theorem LogOf.coherent (hlog : LogOf (current history) log) (h : Trace disciplined history)
    (hrow : event.stored ∈ log.rows) (hescalation : asEscalation event = some escalation) {other : EventRow}
    (hsession : other.sessionId = some escalation.sessionId)
    (hexec : other.executionId = escalation.executionId) :
    sessionCoherent (current history) other = true := by
  obtain ⟨s, hs, hsexec, -⟩ := escalation_root h (hlog.raised hrow hescalation) hescalation
  unfold sessionCoherent
  rw [hsession, Option.any_some, hs, Option.any_some, hexec]
  exact decide_eq_true hsexec

end Rows

/-! ## The scan and the lookup -/

theorem mem_listPlatformEvents {db : Db} {log : EventLog} {ids : List ExecutionId} {window : WindowEvent} :
    window ∈ listPlatformEventsForExecutions db log ids ↔ window.event.stored ∈ log.rows ∧
      window.event.executionId ∈ ids ∧ window.event.eventType = .platform ∧
        window.sessionCoherent = sessionCoherent db window.event := by
  unfold listPlatformEventsForExecutions
  constructor
  · intro h
    obtain ⟨event, hevent, rfl⟩ := List.mem_map.mp h
    obtain ⟨hrow, hfilter⟩ := List.mem_filter.mp (mem_decoded.mp hevent)
    obtain ⟨hid, hplatform⟩ := of_decide_eq_true hfilter
    exact ⟨hrow, hid, hplatform, rfl⟩
  · rintro ⟨hrow, hid, hplatform, hcoherent⟩
    refine List.mem_map.mpr ⟨window.event, mem_decoded.mpr (List.mem_filter.mpr ⟨hrow, ?_⟩), ?_⟩
    · exact decide_eq_true ⟨hid, hplatform⟩
    · rw [← hcoherent]

/-- A target that an event names. -/
theorem mem_targetsOf {event : EventRow} {sessionId : SessionId} {parts : List Json} {target : MarkerTarget} :
    target ∈ targetsOf event sessionId parts ↔ target.executionId = event.executionId ∧
      target.sessionId = sessionId ∧ ∃ c ∈ resolutionCandidates parts event.id,
        c.escalationEventId = some target.escalationEventId := by
  obtain ⟨id, executionId, session⟩ := target
  unfold targetsOf
  simp only [List.mem_filterMap, Option.map_eq_some_iff, MarkerTarget.mk.injEq]
  constructor
  · rintro ⟨c, hc, n, hn, rfl, rfl, rfl⟩
    exact ⟨rfl, rfl, c, hc, hn⟩
  · rintro ⟨rfl, rfl, c, hc, hn⟩
    exact ⟨c, hc, id, hn, rfl, rfl, rfl⟩

section Agreement

variable {history : History} {log : EventLog} {ids : List ExecutionId} {row : EventRow}
  {escalation : Escalation}

/-- **The scan resolves what the lookup finds a marker of.** -/
theorem isResolved_iff (h : Trace disciplined history) (hlog : LogOf (current history) log)
    (hactive : escalation.executionId ∈ ids) (hrow : row.stored ∈ log.rows)
    (hescalation : asEscalation row = some escalation) :
    (scanPending (current history) log ids).isResolved escalation = true ↔
      findMarkerForEscalation log escalation ≠ none := by
  unfold PendingScan.isResolved scanPending findMarkerForEscalation
  rw [decide_eq_true_iff, mem_resolved, Ne, bestMarker_eq_none]
  constructor
  · rintro (hnil | ⟨⟨event, coherent⟩, hwindow, -, -, sessionId, hsession, parts, hparts, htarget⟩) hnone
    · cases hnil
    · -- the marker stands above the escalation
      obtain ⟨hstored, -, hplatform, -⟩ := mem_listPlatformEvents.mp hwindow
      obtain ⟨hexec, rfl, c, hc, hnames⟩ := mem_targetsOf.mp htarget
      obtain ⟨-, hlater⟩ := hlog.marker h hstored hplatform hparts hc hnames
      have hmem : event ∈ decoded (log.rows.filter fun row => row.executionId = escalation.executionId ∧
          row.eventType = .platform ∧ escalation.id < row.id) := by
        refine mem_decoded.mpr (List.mem_filter.mpr ⟨hstored, decide_eq_true ⟨hexec.symm, hplatform, ?_⟩⟩)
        exact Int.ofNat_lt.mp hlater
      exact candidatesFor_ne_nil.mpr ⟨hsession, parts, hparts, c, hc, hnames⟩ (hnone event hmem)
  · intro hfound
    push Not at hfound
    obtain ⟨event, hmem, hcandidates⟩ := hfound
    obtain ⟨hstored, hfilter⟩ := List.mem_filter.mp (mem_decoded.mp hmem)
    obtain ⟨hexec, hplatform, -⟩ := of_decide_eq_true hfilter
    obtain ⟨hsession, parts, hparts, c, hc, hnames⟩ := candidatesFor_ne_nil.mp hcandidates
    obtain ⟨hno, -⟩ := hlog.marker h hstored hplatform hparts hc hnames
    -- it is scanned, for its session is the escalation's
    refine Or.inr ⟨⟨event, sessionCoherent (current history) event⟩,
      mem_listPlatformEvents.mpr ⟨hstored, ?_, hplatform, rfl⟩, ?_, hno, escalation.sessionId, hsession, parts, hparts,
      mem_targetsOf.mpr ⟨hexec.symm, rfl, c, hc, hnames⟩⟩
    · show event.executionId ∈ ids
      rw [show event.executionId = escalation.executionId from hexec]
      exact hactive
    · exact hlog.coherent h hrow hescalation hsession hexec

/-- The scan lists an escalation of a scanned execution that is not resolved. -/
theorem listed_iff (h : Trace disciplined history) (hlog : LogOf (current history) log)
    (hactive : escalation.executionId ∈ ids) (hrow : row.stored ∈ log.rows)
    (hescalation : asEscalation row = some escalation) :
    escalation.id ∈ (scanPending (current history) log ids).pendingIds ↔
      (scanPending (current history) log ids).isResolved escalation = false := by
  have hplatforms : ∀ window ∈ listPlatformEventsForExecutions (current history) log ids,
      window.event.eventType = .platform := fun window hw => (mem_listPlatformEvents.mp hw).2.2.1
  unfold PendingScan.pendingIds
  rw [List.mem_map]
  constructor
  · rintro ⟨escalation', hmem, hid⟩
    obtain ⟨hscanned, hopen⟩ := List.mem_filter.mp hmem
    unfold scanPending at hscanned
    rcases (mem_escalations hplatforms).mp hscanned with hnil | ⟨window, hwindow, -, hread⟩
    · cases hnil
    · -- one id is one row, so it is this escalation
      have hstored := (mem_listPlatformEvents.mp hwindow).1
      have hsame : window.event.stored.id = row.stored.id :=
        (id_of_asEscalation hread).symm.trans (hid.trans (id_of_asEscalation hescalation))
      obtain hevent := stored_injective (log.ascending.unique hstored hrow hsame)
      rw [hevent, hescalation] at hread
      obtain rfl := Option.some.inj hread
      simpa using hopen
  · intro hopen
    obtain ⟨hplatform, hsession, -, -, hexec⟩ := asEscalation_eq_some hescalation
    refine ⟨escalation, List.mem_filter.mpr ⟨?_, by rw [hopen]; rfl⟩, rfl⟩
    unfold scanPending
    refine (mem_escalations hplatforms).mpr
      (Or.inr ⟨⟨row, sessionCoherent (current history) row⟩, ?_, ?_, hescalation⟩)
    · exact mem_listPlatformEvents.mpr ⟨hrow, hexec.symm ▸ hactive, hplatform, rfl⟩
    · exact hlog.coherent h hrow hescalation hsession hexec

/-- The executions of the marks are the active ones. -/
theorem ids_of_marks (db : Db) (filter : Option ExecutionId) :
    (listActiveWithPlatformMark db filter).map ActiveExecutionMark.id = activeExecutions db filter := by
  unfold listActiveWithPlatformMark activeExecutions
  rw [List.filter_map, List.map_map, List.filter_map]
  rfl

/-- The feed's briefs are those of the pending ids. -/
theorem mem_pendingDecisions {db : Db} {filter : Option ExecutionId} {id : Nat} :
    (∃ brief ∈ pendingDecisions db log filter, brief.eventId = id) ↔
      id ∈ (scanPending db log (activeExecutions db filter)).pendingIds := by
  unfold pendingDecisions pendingBody
  rw [ids_of_marks]
  constructor
  · rintro ⟨brief, hbrief, rfl⟩
    obtain ⟨escalation, hmem, rfl⟩ := List.mem_map.mp hbrief
    exact of_decide_eq_true (List.mem_filter.mp hmem).2
  · intro hid
    obtain ⟨escalation, hmem, rfl⟩ := List.mem_map.mp hid
    have hscanned := (List.mem_filter.mp hmem).1
    exact ⟨_, List.mem_map.mpr ⟨escalation, List.mem_filter.mpr ⟨hscanned, decide_eq_true hid⟩, rfl⟩, rfl⟩

/-- An active execution is scanned, unless the request asks for another. -/
theorem mem_activeExecutions {db : Db} {filter : Option ExecutionId} {x : Execution}
    (hx : x ∈ db.executions.rows) (hactive : executionActive x = true)
    (hfilter : ∀ wanted ∈ filter, x.id = wanted) : x.id ∈ activeExecutions db filter := by
  unfold activeExecutions
  refine List.mem_filter.mpr ⟨List.mem_map.mpr ⟨x, List.mem_filter.mpr ⟨hx, hactive⟩, rfl⟩, ?_⟩
  cases filter with
  | none => rfl
  | some wanted => exact decide_eq_true (hfilter wanted rfl)

/-- The escalation that the detail reads is the one with the id. -/
theorem getEscalation_eq (hrow : row.stored ∈ log.rows) (hescalation : asEscalation row = some escalation) :
    DecisionsApi.getEscalation log escalation.id = some escalation := by
  have hid := id_of_asEscalation hescalation
  have hfind : (log.rows.find? fun r => (r.id : Int) = (escalation.id : Int)) = some row.stored := by
    cases hfound : log.rows.find? fun r => (r.id : Int) = (escalation.id : Int) with
    | none =>
        have hne := List.find?_eq_none.mp hfound row.stored hrow
        exact absurd (decide_eq_true (congrArg Int.ofNat hid.symm)) hne
    | some r =>
        have hkey : (r.id : Int) = escalation.id := of_decide_eq_true (List.find?_some hfound :)
        exact congrArg some (log.ascending.unique (List.mem_of_find?_eq_some hfound) hrow
          ((Int.ofNat_inj.mp hkey).trans hid))
  unfold DecisionsApi.getEscalation
  rw [hfind]
  exact hescalation

/-- A brief of an active execution is pending if and only if it has no marker. -/
theorem status_buildBrief {marker : Option ResolutionCandidate} {title : Option String} :
    (buildBrief escalation marker title false).status = "pending" ↔ marker = none := by
  cases marker with
  | none => exact iff_of_true rfl rfl
  | some cand =>
      refine iff_of_false (fun h => ?_) (Option.some_ne_none _)
      unfold buildBrief at h
      cases hkind : cand.kind <;> simp [hkind] at h

/-- The detail of an escalation of an active execution shows the marker that the lookup finds. -/
theorem getDecision_eq {db : Db} {x : Execution} (hx : db.execution? escalation.executionId = some x)
    (hactive : executionActive x = true) (hrow : row.stored ∈ log.rows)
    (hescalation : asEscalation row = some escalation) {text : String}
    (htext : parseI64 text = some (escalation.id : Int)) :
    getDecision db log text =
      .ok (buildBrief escalation (findMarkerForEscalation log escalation) x.title false) := by
  have hterminal : (x.outcome.isSome || decide (x.desired = .terminate)) = false := by
    unfold executionActive at hactive
    cases houtcome : x.outcome <;> simp_all
  unfold getDecision
  simp only [htext, getEscalation_eq hrow hescalation, hx, hterminal]
  rfl

/-- **The feed and the detail agree.** In every state of every interleaving of the scheduler, whatever
else the stored log holds that resolves nothing by name, for every escalation of an active execution:
the feed lists it if and only if no marker of it is found, which is if and only if its detail reports
it as pending. -/
theorem feed_agrees_with_detail {pool : List (Nat × Request Unit)} {history : History}
    (h : SchedulerRun pool history) {log : EventLog} (hlog : LogOf (current history) log)
    {row : EventRow} (hrow : row ∈ decoded log.rows) {escalation : Escalation}
    (hescalation : asEscalation row = some escalation) {x : Execution}
    (hx : (current history).execution? escalation.executionId = some x)
    (hactive : executionActive x = true) {filter : Option ExecutionId}
    (hfilter : ∀ wanted ∈ filter, escalation.executionId = wanted) {text : String}
    (htext : parseI64 text = some (escalation.id : Int)) :
    ((∃ brief ∈ pendingDecisions (current history) log filter, brief.eventId = escalation.id) ↔
      findMarkerForEscalation log escalation = none) ∧
    (findMarkerForEscalation log escalation = none ↔
      ∃ brief, getDecision (current history) log text = .ok brief ∧ brief.eventId = escalation.id ∧
        brief.status = "pending") := by
  have htrace := h.disciplined
  rw [mem_decoded] at hrow
  have hid : x.id = escalation.executionId := Db.id_of_execution? hx
  have hscanned : escalation.executionId ∈ activeExecutions (current history) filter := by
    rw [← hid] at hfilter ⊢
    exact mem_activeExecutions (Table.mem_of_find? hx) hactive hfilter
  constructor
  · rw [mem_pendingDecisions, listed_iff htrace hlog hscanned hrow hescalation]
    have hresolved := isResolved_iff htrace hlog hscanned hrow hescalation
    rw [← Bool.not_eq_true, hresolved, Ne, not_not]
  · rw [getDecision_eq hx hactive hrow hescalation htext]
    constructor
    · intro hnone
      exact ⟨_, rfl, rfl, status_buildBrief.mpr hnone⟩
    · rintro ⟨brief, hbrief, -, hstatus⟩
      obtain rfl := Except.ok.inj hbrief
      exact status_buildBrief.mp hstatus

end Agreement

/-- The lead raises a decision, the user dismisses it, and the lead raises it again. -/
def raisedTwice : List (Choice (Nat × Route) Env) :=
  let question : Json := .obj [("question", .str "which?")]
  opening ++ alone 3 "e" (.escalate "r" "blocking" [question]) 4 ++ alone 4 "f" (.dismiss "3" none) 2 ++
    alone 5 "g" (.escalate "r" "blocking" [question]) 4

/-- Its log, with a row that cannot be decoded and a marker that the upgrade filled in. -/
def raisedTwiceLog : EventLog where
  rows := (current (historyOf raisedTwice)).events.rows.map EventRow.stored ++
    [⟨6, "x", some "r", .platform, none, none, 5⟩,
     ⟨7, "x", some "r", .platform, some (markerPayload "e3" none 1 "then" none false), none, 5⟩]
  ascending := by decide +kernel
  keys := by decide +kernel

/-- The log is one of that run. -/
theorem raisedTwice_logOf : LogOf (current (historyOf raisedTwice)) raisedTwiceLog := by
  constructor
  · intro event hevent
    exact List.mem_append_left _ (List.mem_map_of_mem hevent)
  · intro stored hstored _
    rcases List.mem_append.mp hstored with hrun | hold
    · obtain ⟨event, hevent, rfl⟩ := List.mem_map.mp hrun
      exact Or.inl ⟨event, hevent, rfl⟩
    · right
      rcases List.mem_pair.mp hold with rfl | rfl
      · exact unnamed_undecodable rfl
      · exact unnamed_markerPayload rfl

/-- The decision that the lead raised again is in the feed, and its detail says that it is pending. -/
theorem feed_agrees_with_detail_raised :
    (∃ brief ∈ pendingDecisions (current (historyOf raisedTwice)) raisedTwiceLog (some "x"),
      brief.eventId = 5) ∧
    ∃ brief, getDecision (current (historyOf raisedTwice)) raisedTwiceLog "5" = .ok brief ∧
      brief.eventId = 5 ∧ brief.status = "pending" := by
  obtain ⟨pool, hrun⟩ := historyOf_run raisedTwice
  obtain ⟨row, hrow⟩ := Option.isSome_iff_exists.mp
    (by decide +kernel : (decoded raisedTwiceLog.rows)[4]?.isSome = true)
  obtain ⟨escalation, hescalation⟩ := Option.isSome_iff_exists.mp
    (by decide +kernel : ((decoded raisedTwiceLog.rows)[4]?.bind asEscalation).isSome = true)
  obtain ⟨x, hx⟩ := Option.isSome_iff_exists.mp
    (by decide +kernel : ((current (historyOf raisedTwice)).execution? "x").isSome = true)
  have hactive : ((current (historyOf raisedTwice)).execution? "x").all executionActive = true := by
    decide +kernel
  have hread : ((decoded raisedTwiceLog.rows)[4]?.bind asEscalation).map (fun e => (e.id, e.executionId)) =
      some (5, "x") := by decide +kernel
  have hnone : (((decoded raisedTwiceLog.rows)[4]?.bind asEscalation).bind
      (findMarkerForEscalation raisedTwiceLog)) = none := by decide +kernel
  rw [hescalation] at hread hnone
  obtain ⟨hid, hexec⟩ := Prod.mk.inj (Option.some.inj hread)
  rw [hrow, Option.bind_some] at hescalation
  rw [hx, Option.all_some] at hactive
  rw [← hexec] at hx
  have hfilter : ∀ wanted ∈ some "x", escalation.executionId = wanted :=
    fun wanted hwanted => hexec.trans (Option.some.inj hwanted)
  have htext : parseI64 "5" = some (escalation.id : Int) := by
    rw [hid]
    decide +kernel
  have hagree := feed_agrees_with_detail hrun raisedTwice_logOf (List.mem_of_getElem? hrow) hescalation hx
    hactive hfilter htext
  rw [hid] at hagree
  exact ⟨hagree.1.mpr hnone, hagree.2.mp hnone⟩

end AgentBeacon
