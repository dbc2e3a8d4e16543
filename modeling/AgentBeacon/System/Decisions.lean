import AgentBeacon.System.Log

/-!
# `System.Decisions` — where escalations and markers come from

Every platform event of a run was logged by one call. If it is an escalation, an agent raised it, for a
root of its execution; if it names an escalation, it was written to resolve that escalation, which was
logged before it.
-/

namespace AgentBeacon
open Relational Transaction Interleave Transition Resolution

/-! ## What a row reads as -/

theorem asEscalation_eq_some {row : EventRow} {escalation : Escalation}
    (h : asEscalation row = some escalation) :
    row.eventType = .platform ∧ row.sessionId = some escalation.sessionId ∧
      escalationData row.payload = some escalation.data ∧ row.id = escalation.id ∧
      row.executionId = escalation.executionId := by
  unfold asEscalation at h
  split at h
  · cases h
  · rename_i hplatform
    obtain ⟨sessionId, hsession, h⟩ := Option.bind_eq_some_iff.mp h
    obtain ⟨data, hdata, h⟩ := Option.bind_eq_some_iff.mp h
    obtain rfl := Option.some.inj h
    exact ⟨not_not.mp hplatform, hsession, hdata, rfl, rfl⟩

theorem id_of_asEscalation {row : EventRow} {escalation : Escalation}
    (h : asEscalation row = some escalation) : escalation.id = row.id :=
  (asEscalation_eq_some h).2.2.2.1.symm

/-! ## What the written payloads read back as -/

theorem candidates_of_data {payload data : Json} {n : Int}
    (hp : payload.get "parts" = some (.arr [Json.dataPart data])) {parts : List Json}
    (h : parseParts payload = some parts) {c : ResolutionCandidate}
    (hc : c ∈ resolutionCandidates parts n) : candidateOfPart n 0 (Json.dataPart data) = some c := by
  rw [parts_of_single hp h] at hc
  unfold resolutionCandidates at hc
  split at hc
  · cases hc
  · simpa [List.zipIdx_cons] using hc

/-- A candidate names the escalation that its part names. -/
theorem named_of_candidate {data : Json} {n : Int} {ordinal : Nat} {c : ResolutionCandidate}
    (h : candidateOfPart n ordinal (Json.dataPart data) = some c) :
    c.escalationEventId = escalationEventId data := by
  have hdata : partData (Json.dataPart data) = some data := rfl
  unfold candidateOfPart at h
  rw [hdata, Option.bind_eq_bind, Option.bind_some] at h
  obtain ⟨batch, -, h⟩ := Option.bind_eq_some_iff.mp h
  obtain ⟨batchId, -, h⟩ := Option.bind_eq_some_iff.mp h
  split at h
  · rw [← Option.some.inj h]
  · split at h
    · rw [← Option.some.inj h]
    · cases h

theorem asI64_eq_some {n m : Int} (h : (Json.int n).asI64 = some m) : m = n := by
  simp only [Json.asI64] at h
  split at h
  · exact (Option.some.inj h).symm
  · cases h

/-- A member read as a positive number is that number. -/
theorem positiveMember_eq {data : Json} {key : String} {n m : Int} (hget : data.get key = some (.int n))
    (h : positiveMember data key = some m) : m = n := by
  unfold positiveMember at h
  rw [hget, Option.bind_some] at h
  exact asI64_eq_some (Option.filter_eq_some_iff.mp h).1

/-- An answer's marker names its escalation, or none, and is no escalation. -/
theorem markerPayload_names {batchId : String} {id resolved : Int} {resolvedAt : String}
    {text : Option String} {truncated : Bool} :
    escalationData (markerPayload batchId (some id) resolved resolvedAt text truncated) = none ∧
    ∀ parts n, parseParts (markerPayload batchId (some id) resolved resolvedAt text truncated) = some parts →
      ∀ c ∈ resolutionCandidates parts n, ∀ m, c.escalationEventId = some m → m = id := by
  have hparts : (markerPayload batchId (some id) resolved resolvedAt text truncated).get "parts" =
      some (.arr [Json.dataPart (markerData batchId (some id) resolved resolvedAt text truncated)]) := rfl
  refine ⟨?_, fun parts n hparse c hc m hm => ?_⟩
  · unfold escalationData parseRoleAndParts
    cases hparse : parseParts (markerPayload batchId (some id) resolved resolvedAt text truncated) with
    | none => rfl
    | some parts => rfl
  · have hnamed := named_of_candidate (candidates_of_data hparts hparse hc)
    rw [hm] at hnamed
    exact positiveMember_eq (n := id) rfl hnamed.symm

/-- A dismissal names its escalation, or none, and is no escalation. -/
theorem dismissPayload_names {batchId : String} {id : Int} :
    escalationData (dismissPayload batchId id) = none ∧
    ∀ parts n, parseParts (dismissPayload batchId id) = some parts →
      ∀ c ∈ resolutionCandidates parts n, ∀ m, c.escalationEventId = some m → m = id := by
  have hparts : (dismissPayload batchId id).get "parts" = some (.arr [Json.dataPart (.obj
      [("type", .str dismissType), ("batch_id", .str batchId), ("escalation_event_id", .int id)])]) := rfl
  refine ⟨?_, fun parts n hparse c hc m hm => ?_⟩
  · unfold escalationData parseRoleAndParts
    cases hparse : parseParts (dismissPayload batchId id) with
    | none => rfl
    | some parts => rfl
  · have hnamed := named_of_candidate (candidates_of_data hparts hparse hc)
    rw [hm] at hnamed
    exact positiveMember_eq (n := id) rfl hnamed.symm

/-- An escalation is no marker. -/
theorem escalateEvent_noMarker {batchId importance : String} {questions : List Json} :
    NoMarker (SessionsApi.escalateEvent batchId importance questions) :=
  noMarker_of_data rfl (by decide) (by decide)

/-! ## Who logged a row -/

/-- The row was logged by the transaction `w`, after `earlier`, with proper arguments. -/
structure LoggedBy (history : History) (row : EventRow) (e : Event scheduler) (earlier : History)
    (w : Write) : Prop where
  suffix : (e :: earlier) <:+ history
  op : e.op = Op.write w
  log : (w.permit (envOf e)).log row
  fresh : (current earlier).events.next ≤ row.id
  trace : Trace disciplined earlier
  proper : Proper e.caller earlier w

/-- **Every row of the log was logged by one call.** -/
theorem exists_loggedBy {history : History} (h : Trace disciplined history) {row : EventRow}
    (hrow : row ∈ (current history).events.rows) : ∃ e earlier w, LoggedBy history row e earlier w := by
  induction history with
  | nil => cases hrow
  | cons e history ih =>
      obtain ⟨ht, hproper, -⟩ := h.of_cons
      rcases (reachable_of_trace h).call_logged.2 row hrow with hold | ⟨hfresh, w, hop, hlog⟩
      · obtain ⟨e', earlier, w, hlogged⟩ := ih ht hold
        exact ⟨e', earlier, w, { hlogged with suffix := hlogged.suffix.trans (List.suffix_cons _ _) }⟩
      · exact ⟨e, history, w, List.suffix_refl _, hop, hlog, hfresh, ht, hproper w hop⟩

/-- An escalation that has been logged has an id that has been drawn. -/
theorem Known.bounded {history : History} (h : Trace disciplined history) {escalation : Escalation}
    (hknown : Known history escalation) : escalation.id < (current history).events.next := by
  obtain ⟨e, he, row, hrow, hescalation⟩ := hknown
  have hreach := reachable_of_trace h
  obtain ⟨earlier, hsuffix, hr⟩ := hreach.of_mem he
  have hrecorded : Recorded history row :=
    ⟨earlier, (List.suffix_cons e earlier).trans hsuffix, hr.of_cons.2.1 ▸ hrow⟩
  rw [id_of_asEscalation hescalation]
  exact (hreach.recorded_bounds.2 row hrecorded).2

section Rows

variable {history : History} {row : EventRow}

/-- **A platform event that names an escalation was written to resolve it**: it is no escalation itself,
and the one it names was logged before it. -/
theorem platform_row_names (h : Trace disciplined history) (hrow : row ∈ (current history).events.rows)
    (hplatform : row.eventType = .platform) {parts : List Json}
    (hparts : parseParts row.payload = some parts) {n : Int} {c : ResolutionCandidate}
    (hc : c ∈ resolutionCandidates parts n) {m : Int} (hm : c.escalationEventId = some m) :
    escalationData row.payload = none ∧ m < row.id := by
  obtain ⟨e, earlier, w, hlogged⟩ := exists_loggedBy h hrow
  -- whatever it resolves had been logged when it was written
  have hresolves : ∀ escalation : Escalation, Known earlier escalation → m = escalation.id → m < row.id := by
    intro escalation hknown hid
    have hdrawn := hknown.bounded hlogged.trace
    have hfresh := hlogged.fresh
    omega
  have hproper := hlogged.proper
  rcases hlogged.log.2 hplatform with hinert | hmarks | hescalates | ⟨executionId, sessionId, hw⟩
  · rw [hinert.2 parts n hparts] at hc
    cases hc
  · rcases hmarks with ⟨session, args, marker, messageId, resolvedAt, rfl, hmarker, -, -, hpayload⟩ |
      ⟨escalation, rfl, -, -, hpayload⟩
    · rw [hpayload] at hparts ⊢
      refine ⟨markerPayload_names.1, hresolves marker.escalation (hproper.2 marker hmarker).1 ?_⟩
      exact markerPayload_names.2 parts n hparts c hc m hm
    · rw [hpayload] at hparts ⊢
      refine ⟨dismissPayload_names.1, hresolves escalation hproper ?_⟩
      exact dismissPayload_names.2 parts n hparts c hc m hm
  · obtain ⟨sessionId, importance, questions, -, -, hpayload⟩ := hescalates
    rw [hpayload] at hparts
    rw [escalateEvent_noMarker parts n hparts] at hc
    cases hc
  · rw [hw] at hproper
    obtain ⟨text, htext⟩ := hproper.1 rfl
    rw [htext] at hparts
    rw [(inert_noticeEvent text).2 parts n hparts] at hc
    cases hc

/-- **An escalation belongs to a root of its execution**, which is still there. -/
theorem escalation_root (h : Trace disciplined history) (hrow : row ∈ (current history).events.rows)
    {escalation : Escalation} (hescalation : asEscalation row = some escalation) :
    ∃ s, (current history).session? escalation.sessionId = some s ∧
      s.executionId = escalation.executionId ∧ s.parentSessionId = none := by
  obtain ⟨hplatform, hsession, hdata, -, hexec⟩ := asEscalation_eq_some hescalation
  obtain ⟨e, earlier, w, hlogged⟩ := exists_loggedBy h hrow
  have hproper := hlogged.proper
  have hno : escalationData row.payload ≠ none := hdata ▸ Option.some_ne_none _
  rcases hlogged.log.2 hplatform with hinert | hmarks | hescalates | ⟨executionId, sessionId, hw⟩
  · exact absurd hinert.1 hno
  · rcases hmarks with ⟨session, args, marker, messageId, resolvedAt, rfl, -, -, -, hpayload⟩ |
      ⟨escalation, rfl, -, -, hpayload⟩
    · exact absurd (hpayload ▸ markerPayload_names.1) hno
    · exact absurd (hpayload ▸ dismissPayload_names.1) hno
  · obtain ⟨sessionId, importance, questions, rfl, hid, -⟩ := hescalates
    obtain ⟨s, hseen, rfl, hsexec, hroot⟩ := hproper
    have hsame : s.id = escalation.sessionId := Option.some.inj (hid.symm.trans hsession)
    have hseen' : Seen history s :=
      hseen.mono ((List.suffix_cons e earlier).trans hlogged.suffix)
    obtain ⟨s', hs', hroot'⟩ := root_stays h hseen' hroot
    refine ⟨s', hsame ▸ hs', ?_, hroot'⟩
    have hidentity := (reachable_of_trace h).identity hseen' (Db.mem_of_session? hs') (Db.id_of_session? hs')
    exact hidentity.1.trans (hsexec.trans hexec)
  · rw [hw] at hproper
    obtain ⟨text, htext⟩ := hproper.1 rfl
    exact absurd (htext ▸ (inert_noticeEvent text).1) hno

/-- The session of an escalation that was logged is a root of its execution. -/
theorem root_of_known (h : Trace disciplined history) {escalation : Escalation}
    (hknown : Known history escalation) :
    ∃ s, (current history).session? escalation.sessionId = some s ∧
      s.executionId = escalation.executionId ∧ s.parentSessionId = none := by
  obtain ⟨e, he, row, hrow, hescalation⟩ := hknown
  obtain ⟨earlier, hsuffix, ht, -⟩ := Trace.of_mem h he
  have hr : Reachable (e :: earlier) := (reachable_of_trace h).of_suffix hsuffix
  obtain ⟨-, hbefore, -⟩ := hr.of_cons
  obtain ⟨s, hs, hexec, hroot⟩ := escalation_root ht (hbefore ▸ hrow) hescalation
  have hseen : Seen history s := ⟨e, he, hbefore ▸ Db.mem_of_session? hs⟩
  obtain ⟨s', hs', hroot'⟩ := root_stays h hseen hroot
  have hidentity := (reachable_of_trace h).identity hseen (Db.mem_of_session? hs') (Db.id_of_session? hs')
  exact ⟨s', Db.id_of_session? hs ▸ hs', hidentity.1.trans hexec, hroot'⟩

end Rows

end AgentBeacon
