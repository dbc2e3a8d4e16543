import AgentBeacon.Payloads

/-!
# `Correctness.MarkerCodec` — markers are read as they were written

A marker goes into the database as text and is read by functions that were written apart from the one that
writes it. Here the two are put together, through the text.
-/

namespace AgentBeacon
namespace Resolution

/-- The largest `i64`. -/
def maxI64 : Int := 9223372036854775807

/-- An id of a row. -/
def IsId (n : Int) : Prop := 0 < n ∧ n ≤ maxI64

theorem IsId.positiveMember {n : Int} (h : IsId n) {data : Json} {key : String}
    (hget : data.get key = some (.int n)) : positiveMember data key = some n := by
  have hrange : -9223372036854775808 ≤ n ∧ n ≤ 9223372036854775807 := by
    have hlow := h.1
    have hhigh := h.2
    unfold maxI64 at hhigh
    omega
  simp [Resolution.positiveMember, hget, Json.asI64, hrange, h.1]

/-- One part is never too many answers. -/
theorem resolutionCandidates_one (part : Json) (ownEventId : Int) :
    resolutionCandidates [part] ownEventId = (candidateOfPart ownEventId 0 part).toList := by
  have hone : ¬ 1 < answerPartCount [part] := by
    have hle : answerPartCount [part] ≤ [part].length := List.countP_le_length
    rw [List.length_singleton] at hle
    omega
  rw [resolutionCandidates, if_neg hone]
  cases h : candidateOfPart ownEventId 0 part with
  | none => simp [h]
  | some c => simp [h]

/-! ## The text of a marker -/

section Text

variable (batchId resolvedAt : String) (escalation : Option Int) (messageId : Int) (text : Option String)
  (truncated : Bool)

/-- The members of the marker data, in the order of their keys. -/
def markerMembers : List (String × Json) :=
  (text.map fun t => ("answer_text", Json.str t)).toList ++ [("batch_id", .str batchId)] ++
    (escalation.map fun id => ("escalation_event_id", Json.int id)).toList ++
    [("resolved_at", .str resolvedAt), ("resolved_event_id", .int messageId)] ++
    (if truncated then [("truncated", .bool true)] else []) ++ [("type", .str answerType)]

theorem normal_markerPayload :
    (markerPayload batchId escalation messageId resolvedAt text truncated).normal =
      .obj [("parts", .arr [Json.dataPart (.obj
        (markerMembers batchId resolvedAt escalation messageId text truncated))])] := by
  cases escalation <;> cases text <;> cases truncated <;>
    simp [markerPayload, markerData, markerMembers, Json.dataPart, Json.normal, Json.normalItems,
      Json.normalMembers, Json.mapOf, Json.insertMember, List.cons_lt_cons_iff]

/-- The marker as it is read. -/
def readMarker : Json :=
  .obj [("parts", .arr [Json.dataPart (.obj
    (markerMembers batchId resolvedAt escalation messageId text truncated))])]

theorem normal_readMarker :
    (readMarker batchId resolvedAt escalation messageId text truncated).normal =
      readMarker batchId resolvedAt escalation messageId text truncated := by
  cases escalation <;> cases text <;> cases truncated <;>
    simp [readMarker, markerMembers, Json.dataPart, Json.normal, Json.normalItems,
      Json.normalMembers, Json.mapOf, Json.insertMember, List.cons_lt_cons_iff]

/-- The fields of a marker. -/
theorem get_marker :
    let data := Json.obj (markerMembers batchId resolvedAt escalation messageId text truncated)
    data.get "type" = some (.str answerType) ∧ data.get "batch_id" = some (.str batchId) ∧
    data.get "escalation_event_id" = escalation.map Json.int ∧
    data.get "resolved_event_id" = some (.int messageId) ∧
    data.get "resolved_at" = some (.str resolvedAt) ∧
    data.get "answer_text" = text.map Json.str ∧
    data.get "truncated" = if truncated then some (.bool true) else none := by
  cases escalation <;> cases text <;> cases truncated <;> simp [markerMembers, List.lookup_cons]

variable {escalation} {messageId}

theorem fromStr_marker (hescalation : ∀ id ∈ escalation, IsId id) (hmessage : IsId messageId) :
    Json.fromStr (stored (markerPayload batchId escalation messageId resolvedAt text truncated)) =
      some (readMarker batchId resolvedAt escalation messageId text truncated) := by
  have hinteger {n : Int} (h : IsId n) : -9223372036854775808 ≤ n ∧ n ≤ 18446744073709551615 := by
    have hlow := h.1
    have hhigh := h.2
    unfold maxI64 at hhigh
    omega
  have hint : Json.Integral (readMarker batchId resolvedAt escalation messageId text truncated) := by
    have hm := hinteger hmessage
    cases escalation with
    | none =>
        cases text <;> cases truncated <;>
          simp [readMarker, markerMembers, Json.dataPart, Json.Integral, Json.IntegralItems,
            Json.IntegralMembers, hm]
    | some id =>
        have hid := hinteger (hescalation id rfl)
        cases text <;> cases truncated <;>
          simp [readMarker, markerMembers, Json.dataPart, Json.Integral, Json.IntegralItems,
            Json.IntegralMembers, hm, hid]
  have hnesting : Json.nesting (readMarker batchId resolvedAt escalation messageId text truncated) < 128 := by
    cases escalation <;> cases text <;> cases truncated <;>
      simp [readMarker, markerMembers, Json.dataPart, Json.nesting, Json.nestingItems, Json.nestingMembers]
  have hread := Json.fromStr_serialize hint hnesting
  rw [normal_readMarker] at hread
  rw [stored, normal_markerPayload]
  exact hread

theorem partsOfText_marker (hescalation : ∀ id ∈ escalation, IsId id) (hmessage : IsId messageId) :
    partsOfText (stored (markerPayload batchId escalation messageId resolvedAt text truncated)) =
      some [Json.dataPart (.obj (markerMembers batchId resolvedAt escalation messageId text truncated))] := by
  rw [partsOfText, fromStr_marker batchId resolvedAt text truncated hescalation hmessage]
  rfl

/-- **A marker is read as one answer, with everything that was written.** -/
theorem candidates_marker (hescalation : ∀ id ∈ escalation, IsId id) (hmessage : IsId messageId)
    (htext : ∀ t ∈ text, t ≠ "") (ownEventId : Int) :
    resolutionCandidates
      [Json.dataPart (.obj (markerMembers batchId resolvedAt escalation messageId text truncated))]
      ownEventId =
    [{ kind := .answer, batchId := batchId, escalationEventId := escalation
       orderKey := ⟨messageId, ownEventId, 0⟩, answerText := text, resolvedAtRaw := some resolvedAt
       embeddedResolvedEventId := some messageId, truncated := truncated }] := by
  obtain ⟨htype, hbatch, hid, hevent, hat, hanswer, htruncated⟩ :=
    get_marker batchId resolvedAt escalation messageId text truncated
  generalize markerMembers batchId resolvedAt escalation messageId text truncated = members at *
  have hembedded : embeddedResolvedEventId (.obj members) = some messageId := hmessage.positiveMember hevent
  have hnamed : escalationEventId (.obj members) = escalation := by
    cases escalation with
    | none => simp [escalationEventId, positiveMember, hid]
    | some id => exact (hescalation id rfl).positiveMember hid
  have hkept : (text.filter fun s => s ≠ "") = text := by
    cases text with
    | none => rfl
    | some t =>
        have ht := htext t rfl
        simp [ht]
  have hanswerText : (((Json.obj members).get "answer_text").bind Json.asStr).filter (fun s => s ≠ "") = text := by
    rw [hanswer]
    cases text with
    | none => rfl
    | some t => exact hkept
  have hflag : ((((Json.obj members).get "truncated").bind Json.asBool)).getD false = truncated := by
    rw [htruncated]
    cases truncated <;> rfl
  have hdata : partData (Json.dataPart (.obj members)) = some (.obj members) := rfl
  have hdataType : dataType (.obj members) = some answerType := by rw [dataType, htype]; rfl
  have hcandidate : candidateOfPart ownEventId 0 (Json.dataPart (.obj members)) = some
      { kind := .answer, batchId := batchId, escalationEventId := escalation
        orderKey := ⟨messageId, ownEventId, 0⟩, answerText := text, resolvedAtRaw := some resolvedAt
        embeddedResolvedEventId := some messageId, truncated := truncated } := by
    unfold candidateOfPart
    simp only [hdata, Option.bind_eq_bind, Option.bind_some, hbatch, Json.asStr, hdataType, if_true,
      hembedded, hnamed, hat, hflag, Option.getD_some]
    rw [hanswerText]
    rfl
  rw [resolutionCandidates_one, hcandidate]
  rfl

end Text

/-! ## The text of a dismissal -/

section Dismissal

variable (batchId : String) {escalation : Int}

/-- The dismissal data, in the order of the keys. -/
def dismissalData (escalation : Int) : Json :=
  .obj [("batch_id", .str batchId), ("escalation_event_id", .int escalation), ("type", .str dismissType)]

theorem fromStr_dismissal (hescalation : IsId escalation) :
    Json.fromStr (stored (dismissPayload batchId escalation)) =
      some (.obj [("parts", .arr [Json.dataPart (dismissalData batchId escalation)]),
        ("role", .str roleUser)]) := by
  have hnormal : (dismissPayload batchId escalation).normal =
      .obj [("parts", .arr [Json.dataPart (dismissalData batchId escalation)]), ("role", .str roleUser)] := by
    simp [dismissPayload, dismissalData, Json.dataPart, Json.normal, Json.normalItems, Json.normalMembers,
      Json.mapOf, Json.insertMember, List.cons_lt_cons_iff]
  have hlow := hescalation.1
  have hhigh := hescalation.2
  unfold maxI64 at hhigh
  have hinteger : -9223372036854775808 ≤ escalation ∧ escalation ≤ 18446744073709551615 := by omega
  rw [stored, hnormal, Json.fromStr_serialize]
  · simp [dismissalData, Json.dataPart, Json.normal, Json.normalItems, Json.normalMembers, Json.mapOf,
      Json.insertMember, List.cons_lt_cons_iff]
  · simp [dismissalData, Json.dataPart, Json.Integral, Json.IntegralItems, Json.IntegralMembers, hinteger]
  · simp [dismissalData, Json.dataPart, Json.nesting, Json.nestingItems, Json.nestingMembers]

/-- **A dismissal is read as one dismissal.** -/
theorem candidates_dismissal (hescalation : IsId escalation) (ownEventId : Int) :
    resolutionCandidates [Json.dataPart (dismissalData batchId escalation)] ownEventId =
    [{ kind := .dismiss, batchId := batchId, escalationEventId := some escalation
       orderKey := ⟨ownEventId, ownEventId, 0⟩, answerText := none, resolvedAtRaw := none
       embeddedResolvedEventId := none, truncated := false }] := by
  have hget : (dismissalData batchId escalation).get "escalation_event_id" = some (.int escalation) := by
    simp [dismissalData, List.lookup_cons]
  have hbatch : (dismissalData batchId escalation).get "batch_id" = some (.str batchId) := rfl
  have htype : dataType (dismissalData batchId escalation) = some dismissType := rfl
  have hnot : (some dismissType : Option String) ≠ some answerType := by decide
  have hdata : partData (Json.dataPart (dismissalData batchId escalation)) =
      some (dismissalData batchId escalation) := rfl
  have hnamed : escalationEventId (dismissalData batchId escalation) = some escalation :=
    hescalation.positiveMember hget
  have hcandidate : candidateOfPart ownEventId 0 (Json.dataPart (dismissalData batchId escalation)) = some
      { kind := .dismiss, batchId := batchId, escalationEventId := some escalation
        orderKey := ⟨ownEventId, ownEventId, 0⟩, answerText := none, resolvedAtRaw := none
        embeddedResolvedEventId := none, truncated := false } := by
    unfold candidateOfPart
    simp only [hdata, Option.bind_eq_bind, Option.bind_some, hbatch, Json.asStr, htype, if_neg hnot, if_true,
      hnamed]
    rfl
  rw [resolutionCandidates_one, hcandidate]
  rfl

end Dismissal

/-! ## Any payload -/

theorem positiveMember_pos {data : Json} {key : String} {n : Int} (h : positiveMember data key = some n) :
    0 < n := by
  unfold positiveMember at h
  simpa using (Option.filter_eq_some_iff.mp h).2

/-- The ids that a candidate carries are positive. -/
theorem candidate_positive {ownEventId : Int} {ordinal : Nat} {part : Json} {c : ResolutionCandidate}
    (h : candidateOfPart ownEventId ordinal part = some c) :
    (∀ id, c.escalationEventId = some id → 0 < id) ∧ ∀ id, c.embeddedResolvedEventId = some id → 0 < id := by
  unfold candidateOfPart at h
  simp only [Option.bind_eq_bind, Option.bind_eq_some_iff] at h
  obtain ⟨data, -, batch, -, batchId, -, h⟩ := h
  split at h
  · cases h
    exact ⟨fun id hid => positiveMember_pos hid, fun id hid => positiveMember_pos hid⟩
  · split at h
    · cases h
      exact ⟨fun id hid => positiveMember_pos hid, fun id hid => by cases hid⟩
    · cases h

theorem candidates_positive {parts : List Json} {ownEventId : Int} {c : ResolutionCandidate}
    (h : c ∈ resolutionCandidates parts ownEventId) :
    (∀ id, c.escalationEventId = some id → 0 < id) ∧ ∀ id, c.embeddedResolvedEventId = some id → 0 < id := by
  unfold resolutionCandidates at h
  split at h
  · cases h
  · obtain ⟨⟨part, ordinal⟩, -, hc⟩ := List.mem_filterMap.mp h
    exact candidate_positive hc

end Resolution

open Resolution

/-- **The marker codec.** Every marker and every dismissal is read from its text as the one candidate that
was written, and as no escalation; and whatever the text of a payload, its candidates carry positive ids or
none, and two answers in it leave no candidate. -/
theorem marker_codec (batchId : String) (escalation : Int) (hescalation : IsId escalation) (ownEventId : Int) :
    (∀ (named : Option Int) (messageId : Int) (resolvedAt : String) (text : Option String) (truncated : Bool),
      (∀ id ∈ named, IsId id) → IsId messageId → (∀ t ∈ text, t ≠ "") →
      let marker := stored (markerPayload batchId named messageId resolvedAt text truncated)
      ((partsOfText marker).map fun parts => resolutionCandidates parts ownEventId) = some
        [{ kind := .answer, batchId := batchId, escalationEventId := named
           orderKey := ⟨messageId, ownEventId, 0⟩, answerText := text, resolvedAtRaw := some resolvedAt
           embeddedResolvedEventId := some messageId, truncated := truncated }] ∧
      (escalationOfText marker).isNone ∧ escalatePartsOfText marker = []) ∧
    (((partsOfText (stored (dismissPayload batchId escalation))).map fun parts =>
      resolutionCandidates parts ownEventId) = some
        [{ kind := .dismiss, batchId := batchId, escalationEventId := some escalation
           orderKey := ⟨ownEventId, ownEventId, 0⟩, answerText := none, resolvedAtRaw := none
           embeddedResolvedEventId := none, truncated := false }] ∧
      (escalationOfText (stored (dismissPayload batchId escalation))).isNone ∧
      escalatePartsOfText (stored (dismissPayload batchId escalation)) = []) ∧
    ∀ (payload : String) (parts : List Json), partsOfText payload = some parts →
      (∀ c ∈ resolutionCandidates parts ownEventId, (∀ id, c.escalationEventId = some id → 0 < id) ∧
        ∀ id, c.embeddedResolvedEventId = some id → 0 < id) ∧
      (2 ≤ parts.countP (fun part => partDataType part = some answerType) →
        resolutionCandidates parts ownEventId = []) := by
  refine ⟨?_, ?_, ?_⟩
  · intro named messageId resolvedAt text truncated hnamed hmessage htext
    have hread := fromStr_marker batchId resolvedAt text truncated hnamed hmessage
    refine ⟨?_, ?_, ?_⟩
    · rw [partsOfText_marker batchId resolvedAt text truncated hnamed hmessage, Option.map_some,
        candidates_marker batchId resolvedAt text truncated hnamed hmessage htext]
    · rw [escalationOfText, hread]
      rfl
    · rw [escalatePartsOfText, hread]
      rfl
  · have hread := fromStr_dismissal batchId hescalation
    refine ⟨?_, ?_, ?_⟩
    · have hparts : partsOfText (stored (dismissPayload batchId escalation)) =
          some [Json.dataPart (dismissalData batchId escalation)] := by
        rw [partsOfText, hread]
        rfl
      rw [hparts, Option.map_some, candidates_dismissal batchId hescalation]
    · rw [escalationOfText, hread]
      rfl
    · rw [escalatePartsOfText, hread]
      rfl
  · intro payload parts _
    refine ⟨fun c hc => candidates_positive hc, fun htwo => ?_⟩
    have hmany : 1 < answerPartCount parts := htwo
    rw [resolutionCandidates, if_pos hmany]

/-- A marker whose texts need every kind of escape. -/
theorem marker_codec_quotes : IsId 7 ∧ ∀ ownEventId : Int,
    ((partsOfText (stored (dismissPayload "say \"\\\n\" é" 7))).map fun parts =>
      (resolutionCandidates parts ownEventId).map ResolutionCandidate.batchId) = some ["say \"\\\n\" é"] := by
  have hid : IsId 7 := ⟨by decide, by decide⟩
  refine ⟨hid, fun ownEventId => ?_⟩
  have hcandidates := (marker_codec "say \"\\\n\" é" 7 hid ownEventId).2.1.1
  obtain ⟨parts, hparts, hc⟩ := Option.map_eq_some_iff.mp hcandidates
  rw [hparts, Option.map_some, hc]
  rfl

end AgentBeacon
