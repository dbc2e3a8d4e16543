import AgentBeacon.Db.Schema
import Mathlib.Algebra.GroupWithZero.Nat

/-!
# `Resolution` — escalations and the markers that resolve them

An escalation is a platform event of the agent; an answer or a dismissal is recorded by a marker, a
later platform event of the same session that names the escalation's event id. This module writes
markers and reads them back (`resolution.rs`, and `best_marker` of `db/events.rs`).
-/

namespace AgentBeacon

/-! ## Timestamps as text -/

/-- A decimal of at least `width` digits. -/
def padded (width n : Nat) : String :=
  let digits := (Nat.toDigits 10 n)
  String.ofList (List.replicate (width - digits.length) '0' ++ digits)

/-- `to_rfc3339_opts(SecondsFormat::Secs, true)`, the civil date by the usual era arithmetic. -/
def rfc3339 (t : Timestamp) : String :=
  let days := t / 86400 + 719468
  let dayOfEra := days % 146097
  let yearOfEra := (dayOfEra - dayOfEra / 1460 + dayOfEra / 36524 - dayOfEra / 146096) / 365
  let dayOfYear := dayOfEra - (365 * yearOfEra + yearOfEra / 4 - yearOfEra / 100)
  let shifted := (5 * dayOfYear + 2) / 153
  let day := dayOfYear - (153 * shifted + 2) / 5 + 1
  let month := if shifted < 10 then shifted + 3 else shifted - 9
  let year := yearOfEra + days / 146097 * 400 + if month ≤ 2 then 1 else 0
  let second := t % 86400
  padded 4 year ++ "-" ++ padded 2 month ++ "-" ++ padded 2 day ++ "T" ++
    padded 2 (second / 3600) ++ ":" ++ padded 2 (second / 60 % 60) ++ ":" ++
    padded 2 (second % 60) ++ "Z"

namespace Resolution

def roleAgent : String := "ROLE_AGENT"
def roleUser : String := "ROLE_USER"
def escalateType : String := "escalate"
def answerType : String := "question_answer"
def dismissType : String := "question_dismiss"
def senderType : String := "sender"

/-! ## Reading parts -/

/-- `p.get("data").is_none_or(|d| d.is_object())` of an object part. -/
def partDomainValid (part : Json) : Bool :=
  part.isObject && match part.get "data" with
    | some data => data.isObject
    | none => true

/-- Every part is an object and every `data` member is one. -/
def partsDomainValid (parts : List Json) : Bool := parts.all partDomainValid

/-- The top-level `parts` array of a payload, if present and domain-valid. -/
def parseParts (payload : Json) : Option (List Json) := do
  let parts ← (← payload.get "parts").asArray
  if partsDomainValid parts then some parts else none

/-- The top-level `role` and the domain-valid `parts` of a payload. -/
def parseRoleAndParts (payload : Json) : Option (Option String × List Json) := do
  let parts ← parseParts payload
  some ((payload.get "role").bind Json.asStr, parts)

def partData (part : Json) : Option Json := part.get "data"

def dataType (data : Json) : Option String := (data.get "type").bind Json.asStr

def partDataType (part : Json) : Option String := (partData part).bind dataType

/-- A positive integer member within the `i64` range. -/
def positiveMember (data : Json) (key : String) : Option Int :=
  ((data.get key).bind Json.asI64).filter fun n => 0 < n

def embeddedResolvedEventId (data : Json) : Option Int := positiveMember data "resolved_event_id"

def escalationEventId (data : Json) : Option Int := positiveMember data "escalation_event_id"

/-- The first text part's text, unless empty. -/
def answerTextFromParts (parts : List Json) : Option String :=
  (parts.findSome? fun p => (p.get "text").bind Json.asStr).filter fun s => s ≠ ""

def hasSenderPart (parts : List Json) : Bool :=
  parts.any fun p => partDataType p = some senderType

def answerPartCount (parts : List Json) : Nat :=
  parts.countP fun p => partDataType p = some answerType

/-! ## Escalations -/

structure EscalationData where
  batchId : String
  importance : String
  questions : List Json

/-- The escalation batch among the parts: the first part of the escalation type, provided every
part before it carries data. -/
def escalationOfParts : List Json → Option EscalationData
  | [] => none
  | part :: rest => do
      -- a part without data ends the search
      let data ← partData part
      if dataType data = some escalateType then
        let batchId ← (← data.get "batch_id").asStr
        let questions := (((data.get "questions").bind Json.asArray)).getD []
        if questions.isEmpty then none
        else some {
          batchId
          importance := (((data.get "importance").bind Json.asStr)).getD "blocking"
          questions }
      else escalationOfParts rest

/-- The escalation batch carried by a platform payload. -/
def escalationData (payload : Json) : Option EscalationData := do
  let (role, parts) ← parseRoleAndParts payload
  if role = some roleAgent then escalationOfParts parts else none

/-- An escalation event, resolved by its primary key. -/
structure Escalation where
  id : Nat
  executionId : ExecutionId
  sessionId : SessionId
  createdAt : Timestamp
  data : EscalationData

def asEscalation (event : EventRow) : Option Escalation := do
  if event.eventType ≠ .platform then none
  else
    let sessionId ← event.sessionId
    let data ← escalationData event.payload
    some { id := event.id, executionId := event.executionId, sessionId,
           createdAt := event.createdAt, data }

/-! ## Resolution candidates -/

/-- Comparison is lexicographic over the fields. -/
structure OrderKey where
  primaryId : Int
  ownEventId : Int
  partOrdinal : Int
  deriving DecidableEq, Repr

def OrderKey.lt (a b : OrderKey) : Bool :=
  a.primaryId < b.primaryId || (a.primaryId = b.primaryId &&
    (a.ownEventId < b.ownEventId || (a.ownEventId = b.ownEventId &&
      a.partOrdinal < b.partOrdinal)))

inductive ResolutionKind where
  | answer | dismiss
  deriving DecidableEq, Repr

/-- One validated resolution candidate of a platform event. -/
structure ResolutionCandidate where
  kind : ResolutionKind
  batchId : String
  escalationEventId : Option Int
  orderKey : OrderKey
  answerText : Option String
  resolvedAtRaw : Option String
  embeddedResolvedEventId : Option Int
  truncated : Bool
  deriving DecidableEq, Repr

/-- The candidate of one part, if it carries one. -/
def candidateOfPart (ownEventId : Int) (ordinal : Nat) (part : Json) :
    Option ResolutionCandidate := do
  let data ← partData part
  let batchId ← (← data.get "batch_id").asStr
  if dataType data = some answerType then
    let embedded := embeddedResolvedEventId data
    some {
      kind := .answer
      batchId
      escalationEventId := escalationEventId data
      orderKey := ⟨embedded.getD ownEventId, ownEventId, ordinal⟩
      answerText := ((data.get "answer_text").bind Json.asStr).filter fun s => s ≠ ""
      resolvedAtRaw := (data.get "resolved_at").bind Json.asStr
      embeddedResolvedEventId := embedded
      truncated := (((data.get "truncated").bind Json.asBool)).getD false }
  -- a dismissal has only its own row
  else if dataType data = some dismissType then
    some {
      kind := .dismiss
      batchId
      escalationEventId := escalationEventId data
      orderKey := ⟨ownEventId, ownEventId, ordinal⟩
      answerText := none
      resolvedAtRaw := none
      embeddedResolvedEventId := none
      truncated := false }
  else none

/-- The answers and dismissals of a platform event's parts. -/
def resolutionCandidates (parts : List Json) (ownEventId : Int) : List ResolutionCandidate :=
  -- an event with two answers counts for none
  if 1 < answerPartCount parts then []
  else parts.zipIdx.filterMap fun (part, ordinal) => candidateOfPart ownEventId ordinal part

/-- The candidates of one event for one escalation; a dismissal is resolved when it was recorded. -/
def candidatesFor (escalation : Escalation) (event : EventRow) : List ResolutionCandidate :=
  if event.sessionId ≠ some escalation.sessionId then []
  else match parseParts event.payload with
    | none => []
    | some parts =>
        ((resolutionCandidates parts event.id).filter fun c =>
            c.escalationEventId = some (escalation.id : Int)).map fun c =>
          match c.kind with
          | .answer => c
          | .dismiss => { c with resolvedAtRaw := some (rfc3339 event.createdAt) }

/-- One step of the minimum search: an earlier candidate is only replaced by a smaller key. -/
def better (best : Option ResolutionCandidate) (c : ResolutionCandidate) :
    Option ResolutionCandidate :=
  match best with
  | none => some c
  | some b => if c.orderKey.lt b.orderKey then some c else some b

/-- The winning candidate among the events. -/
def bestMarker (events : List EventRow) (escalation : Escalation) : Option ResolutionCandidate :=
  (events.flatMap (candidatesFor escalation)).foldl better none

/-! ### The minimum search -/

theorem OrderKey.lt_irrefl (a : OrderKey) : a.lt a = false := by
  simp [OrderKey.lt]

theorem OrderKey.not_lt_trans {a b c : OrderKey} (hab : a.lt b = false) (hbc : b.lt c = false) : a.lt c = false := by
  simp only [OrderKey.lt, Bool.or_eq_false_iff, Bool.and_eq_false_iff, decide_eq_false_iff_not] at *
  omega

theorem OrderKey.eq_of_not_lt {a b : OrderKey} (hab : a.lt b = false) (hba : b.lt a = false) : a = b := by
  obtain ⟨p, e, o⟩ := a
  obtain ⟨p', e', o'⟩ := b
  simp only [OrderKey.lt, Bool.or_eq_false_iff, Bool.and_eq_false_iff, decide_eq_false_iff_not] at *
  simp only [OrderKey.mk.injEq]
  omega

/-- A minimum search finds something if there is something. -/
theorem foldl_better_eq_none {candidates : List ResolutionCandidate} {best : Option ResolutionCandidate} :
    candidates.foldl better best = none ↔ best = none ∧ candidates = [] := by
  induction candidates generalizing best with
  | nil => simp
  | cons c candidates ih =>
      rw [List.foldl_cons, ih]
      refine iff_of_false (fun h => ?_) fun h => (List.cons_ne_nil _ _) h.2
      cases best with
      | none => exact Option.some_ne_none _ h.1
      | some b =>
          have hsome := h.1
          cases hlt : c.orderKey.lt b.orderKey <;> simp [better, hlt] at hsome

/-- The minimum search finds one of the candidates. -/
theorem mem_of_foldl_better {candidates : List ResolutionCandidate} {best : Option ResolutionCandidate}
    {winner : ResolutionCandidate} (h : candidates.foldl better best = some winner) :
    best = some winner ∨ winner ∈ candidates := by
  induction candidates generalizing best with
  | nil => exact .inl h
  | cons c candidates ih =>
      rcases ih h with hbest | hmem
      · have hcases : better best c = some c ∨ better best c = best := by
          unfold better
          cases best with
          | none => exact .inl rfl
          | some b =>
              by_cases hlt : c.orderKey.lt b.orderKey = true
              · exact .inl (if_pos hlt)
              · exact .inr (if_neg hlt)
        rcases hcases with hc | hkept
        · rw [hc] at hbest
          exact .inr (Option.some.inj hbest ▸ List.mem_cons_self)
        · exact .inl (hkept ▸ hbest)
      · exact .inr (List.mem_cons_of_mem _ hmem)

/-- What a step keeps has no larger key than what it compared. -/
theorem better_least (best : Option ResolutionCandidate) (c : ResolutionCandidate) :
    ∃ kept, better best c = some kept ∧ c.orderKey.lt kept.orderKey = false ∧
      ∀ b ∈ best, b.orderKey.lt kept.orderKey = false := by
  cases best with
  | none => exact ⟨c, rfl, OrderKey.lt_irrefl _, fun b hb => (by cases hb)⟩
  | some b =>
      cases hlt : c.orderKey.lt b.orderKey with
      | true =>
          refine ⟨c, by simp [better, hlt], OrderKey.lt_irrefl _, fun b' hb' => ?_⟩
          obtain rfl := Option.some.inj hb'
          simp only [OrderKey.lt, Bool.or_eq_true, Bool.and_eq_true, decide_eq_true_eq, Bool.or_eq_false_iff,
            Bool.and_eq_false_iff, decide_eq_false_iff_not] at hlt ⊢
          omega
      | false =>
          refine ⟨b, by simp [better, hlt], hlt, fun b' hb' => ?_⟩
          obtain rfl := Option.some.inj hb'
          exact OrderKey.lt_irrefl _

/-- **What is found has the smallest key.** -/
theorem foldl_better_least {candidates : List ResolutionCandidate} {best : Option ResolutionCandidate}
    {winner : ResolutionCandidate} (h : candidates.foldl better best = some winner) :
    (∀ b ∈ best, b.orderKey.lt winner.orderKey = false) ∧
      ∀ c ∈ candidates, c.orderKey.lt winner.orderKey = false := by
  induction candidates generalizing best with
  | nil =>
      refine ⟨fun b hb => ?_, fun c hc => (by cases hc)⟩
      rw [List.foldl_nil, Option.mem_def.mp hb] at h
      exact Option.some.inj h ▸ OrderKey.lt_irrefl _
  | cons c candidates ih =>
      obtain ⟨kept, hkept, hc, hbest⟩ := better_least best c
      obtain ⟨hwinner, hrest⟩ := ih h
      have hleast := hwinner kept hkept
      refine ⟨fun b hb => OrderKey.not_lt_trans (hbest b hb) hleast, fun c' hc' => ?_⟩
      rcases List.mem_cons.mp hc' with rfl | hc'
      · exact OrderKey.not_lt_trans hc hleast
      · exact hrest c' hc'

/-! ## Writing markers -/

/-- The marker `data` object. -/
def markerData (batchId : String) (escalationEventId : Option Int) (resolvedEventId : Int)
    (resolvedAt : String) (answerText : Option String) (truncated : Bool) : Json :=
  .obj ([("type", .str answerType), ("batch_id", .str batchId),
         ("resolved_event_id", .int resolvedEventId), ("resolved_at", .str resolvedAt)] ++
        (escalationEventId.map fun id => ("escalation_event_id", Json.int id)).toList ++
        (answerText.map fun text => ("answer_text", Json.str text)).toList ++
        if truncated then [("truncated", .bool true)] else [])

/-- The marker event payload: one data part, no role. -/
def markerPayload (batchId : String) (escalationEventId : Option Int) (resolvedEventId : Int)
    (resolvedAt : String) (answerText : Option String) (truncated : Bool) : Json :=
  .obj [("parts", .arr [Json.dataPart
    (markerData batchId escalationEventId resolvedEventId resolvedAt answerText truncated)])]

/-- The dismissal marker event payload. -/
def dismissPayload (batchId : String) (escalationEventId : Int) : Json :=
  .obj [("role", .str roleUser), ("parts", .arr [Json.dataPart (.obj
    [("type", .str dismissType), ("batch_id", .str batchId),
     ("escalation_event_id", .int escalationEventId)])])]

/-! ## The size of a marker -/

def markerSerializedCapBytes : Nat := 96 * 1024

/-- The serialized width of one character inside a JSON string. -/
def charEscapedWidth (c : Char) : Nat :=
  if c ∈ ['"', '\\', '\n', '\r', '\t', '\x08', '\x0c'] then 2
  -- the other control characters are written with four hexadecimal digits
  else if c.toNat < 0x20 then 6
  else c.utf8Size

/-- The serialized length of a string, without its quotes. -/
def escapedLen (s : String) : Nat := (s.toList.map charEscapedWidth).sum

/-- The loop of `i64_digits`: `m` without its last digit, one digit more, while there are two. It runs at
most `m` times. -/
def countDigits : Nat → Nat → Nat → Nat
  | 0, _, d => d
  | fuel + 1, m, d => if 10 ≤ m then countDigits fuel (m / 10) (d + 1) else d

/-- The length of an integer's decimal. -/
def i64Digits (n : Int) : Nat := (if n < 0 then 1 else 0) + countDigits n.natAbs n.natAbs 1

/-- The serialized length of a marker. -/
def serializedMarkerBytes (batchId : String) (escalationEventId : Option Int)
    (resolvedEventId : Int) (resolvedAt : String) (answerText : Option String)
    (truncated : Bool) : Nat :=
  99 + escapedLen batchId + i64Digits resolvedEventId + escapedLen resolvedAt +
    (match escalationEventId with | some id => 23 + i64Digits id | none => 0) +
    (match answerText with | some a => 17 + escapedLen a | none => 0) +
    if truncated then 17 else 0

/-- The size of a marker of maximal ids, for an answer not yet recorded. -/
def reservedEnvelopeBytes (answerText : Option String) : Nat :=
  serializedMarkerBytes "00000000-0000-0000-0000-000000000000" (some 9223372036854775807)
    9223372036854775807 "9999-12-31T23:59:59Z" answerText false

def reservedEnvelopeExceedsCap (answerText : Option String) : Bool :=
  markerSerializedCapBytes < reservedEnvelopeBytes answerText

/-! ## Fitting an answer into a marker -/

def reservedTimestamp : String := "9999-12-31T23:59:59Z"

/-- The envelope alone exceeds the cap. -/
def envelopeOnlyExceedsCap (batchId : String) (resolvedEventId : Int) (resolvedAt : String) : Bool :=
  markerSerializedCapBytes < serializedMarkerBytes batchId none resolvedEventId resolvedAt none false

/-- A source of the backfill has no marker that fits the cap. -/
def sourceYieldsNoMarker (batchId : String) (sourceEventId : Int) (answerText : Option String) : Bool :=
  if envelopeOnlyExceedsCap batchId sourceEventId reservedTimestamp then true
  -- the answer whole, else at least the marker that says it is cut
  else if serializedMarkerBytes batchId none sourceEventId reservedTimestamp
      (answerText.filter fun s => s ≠ "") false ≤ markerSerializedCapBytes then false
  else markerSerializedCapBytes <
    serializedMarkerBytes batchId none sourceEventId reservedTimestamp none true

/-- The loop of `fit_answer_text`: the characters before the first that does not fit the budget. -/
def fitPrefix (budget : Int) : Int → List Char → List Char
  | _, [] => []
  | acc, c :: cs =>
      if budget < acc + charEscapedWidth c then [] else c :: fitPrefix budget (acc + charEscapedWidth c) cs

/-- `Some(s)`, unless `s` is empty. -/
def nonEmpty (s : String) : Option String := if s = "" then none else some s

/-- What is kept of an answer whose marker does not fit: `fixed` is the size of the marker without it. -/
def cutAnswer (fixed : Nat) (answerText : String) : Option String :=
  nonEmpty (String.ofList (fitPrefix ((markerSerializedCapBytes : Int) - fixed) 0 answerText.toList))

/-- `fit_answer_text`: what a backfilled marker keeps of an answer, and whether something is missing. -/
def fitAnswerText (batchId : String) (escalationEventId : Option Int) (resolvedEventId : Int)
    (resolvedAt answerText : String) : Option String × Bool :=
  if serializedMarkerBytes batchId escalationEventId resolvedEventId resolvedAt (nonEmpty answerText) false ≤
      markerSerializedCapBytes then (nonEmpty answerText, false)
  else (cutAnswer (serializedMarkerBytes batchId escalationEventId resolvedEventId resolvedAt (some "") true)
    answerText, true)

/-! ## Validating a live answer -/

/-- `s.parse::<i64>()`: an optional sign and decimal digits, within range. -/
def parseI64 (s : String) : Option Int :=
  let digits (cs : List Char) : Option Nat :=
    if cs.isEmpty || !cs.all Char.isDigit then none
    else some (cs.foldl (fun n c => 10 * n + (c.toNat - '0'.toNat)) 0)
  let value : Option Int := match s.toList with
    | '-' :: cs => (digits cs).map fun n => -(n : Int)
    | '+' :: cs => (digits cs).map fun n => (n : Int)
    | cs => (digits cs).map fun n => (n : Int)
  value.bind fun n => (Json.int n).asI64

inductive AnswerValidation where
  | notAnAnswer
  | valid (escalationEventId : Int) (answerText : Option String)
  | multipleParts
  | missingEscalationEventId
  | senderPresent
  | malformedParts

/-- The escalation a `question_answer` part names, as a decimal string. -/
def namedEscalation (part : Json) : Option Int := do
  let data ← partData part
  if dataType data = some answerType then
    ((((data.get "escalation_event_id").bind Json.asStr).bind parseI64)).filter fun n => 0 < n
  else none

/-- Validate an inbound message's parts for the live answer route. -/
def validateLiveAnswer (parts : List Json) : AnswerValidation :=
  if answerPartCount parts = 0 then .notAnAnswer
  else if 1 < answerPartCount parts then .multipleParts
  else if !partsDomainValid parts then .malformedParts
  else match parts.findSome? namedEscalation with
    | none => .missingEscalationEventId
    | some escalationEventId =>
        -- only the user answers, and the user names no sender
        if hasSenderPart parts then .senderPresent
        else .valid escalationEventId (answerTextFromParts parts)

end Resolution

end AgentBeacon
