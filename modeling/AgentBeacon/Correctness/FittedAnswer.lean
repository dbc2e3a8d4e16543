import AgentBeacon.Correctness.MarkerSize
import AgentBeacon.System.Effects

/-!
# `Correctness.FittedAnswer` — answers are cut as little as possible, and markers fit

The backfill cuts an answer at the first character that does not fit any more. The live route does not cut: it
refuses an answer that would not fit together with the longest ids there are.
-/

namespace AgentBeacon
open Json Resolution Transaction Transition

/-- The marker is within the cap. -/
def MarkerFits (batchId : String) (escalationEventId : Option Int) (resolvedEventId : Int) (resolvedAt : String)
    (answerText : Option String) (truncated : Bool) : Prop :=
  (markerPayload batchId escalationEventId resolvedEventId resolvedAt answerText truncated).serializedLength ≤
    markerSerializedCapBytes

theorem markerFits_iff {batchId : String} {escalationEventId : Option Int} {resolvedEventId : Int} {resolvedAt : String}
    {answerText : Option String} {truncated : Bool} :
    MarkerFits batchId escalationEventId resolvedEventId resolvedAt answerText truncated ↔
      serializedMarkerBytes batchId escalationEventId resolvedEventId resolvedAt answerText truncated ≤
        markerSerializedCapBytes := by
  unfold MarkerFits
  have hexact := serializedLength_markerData batchId escalationEventId resolvedEventId resolvedAt answerText
    truncated
  rw [markerPayload, serializedLength_envelope, hexact]

/-! ## The longest prefix -/

/-- The width of some characters. -/
def escapedWidth (cs : List Char) : Nat := (cs.map charEscapedWidth).sum

theorem escapedWidth_cons (c : Char) (cs : List Char) :
    escapedWidth (c :: cs) = charEscapedWidth c + escapedWidth cs := by
  simp [escapedWidth]

theorem fitPrefix_prefix (budget acc : Int) (cs : List Char) : fitPrefix budget acc cs <+: cs := by
  induction cs generalizing acc with
  | nil => exact List.prefix_refl _
  | cons c cs ih =>
      unfold fitPrefix
      split
      · exact List.nil_prefix
      · obtain ⟨rest, hrest⟩ := ih (acc + charEscapedWidth c)
        exact ⟨rest, by rw [List.cons_append, hrest]⟩

/-- What is kept fits, unless nothing is kept. -/
theorem fitPrefix_fits (budget acc : Int) (cs : List Char) (h : fitPrefix budget acc cs ≠ []) :
    acc + escapedWidth (fitPrefix budget acc cs) ≤ budget := by
  induction cs generalizing acc with
  | nil => exact absurd rfl h
  | cons c cs ih =>
      unfold fitPrefix at h ⊢
      split
      · rename_i hover
        rw [if_pos hover] at h
        exact absurd rfl h
      · rename_i hfits
        rw [escapedWidth_cons]
        by_cases hrest : fitPrefix budget (acc + charEscapedWidth c) cs = []
        · rw [hrest]
          simp only [escapedWidth, List.map_nil, List.sum_nil]
          omega
        · have hle := ih _ hrest
          omega

/-- **No longer prefix fits.** -/
theorem length_le_fitPrefix (budget acc : Int) (cs : List Char) {qs : List Char} (hinitial : qs <+: cs)
    (hfits : acc + escapedWidth qs ≤ budget) : qs.length ≤ (fitPrefix budget acc cs).length := by
  induction cs generalizing acc qs with
  | nil =>
      obtain rfl := List.prefix_nil.mp hinitial
      exact Nat.zero_le _
  | cons c cs ih =>
      cases qs with
      | nil => exact Nat.zero_le _
      | cons q qs =>
          obtain ⟨rfl, hrest⟩ := List.cons_prefix_cons.mp hinitial
          rw [escapedWidth_cons] at hfits
          unfold fitPrefix
          have hc : ¬budget < acc + charEscapedWidth q := by omega
          rw [if_neg hc, List.length_cons, List.length_cons]
          have hle := ih (acc + charEscapedWidth q) hrest (by omega)
          omega

/-- A marker whose answer is cut is as long as one without an answer and its characters. -/
theorem serializedMarkerBytes_cut (batchId : String) (escalationEventId : Option Int) (resolvedEventId : Int)
    (resolvedAt text : String) :
    serializedMarkerBytes batchId escalationEventId resolvedEventId resolvedAt (some text) true =
      serializedMarkerBytes batchId escalationEventId resolvedEventId resolvedAt (some "") true +
        escapedWidth text.toList := by
  have hempty : escapedLen "" = 0 := rfl
  have htext : escapedLen text = escapedWidth text.toList := rfl
  unfold serializedMarkerBytes
  simp only [hempty, htext]
  omega

/-- What `fit_answer_text` keeps of an answer, as the reader of a marker sees it. -/
structure CutMaximally (batchId : String) (escalationEventId : Option Int) (resolvedEventId : Int)
    (resolvedAt answerText : String) (result : Option String × Bool) : Prop where
  /-- If the marker of the whole answer fits, the answer is whole; an empty answer is none. -/
  whole : MarkerFits batchId escalationEventId resolvedEventId resolvedAt
    (nonEmpty answerText) false → result = (nonEmpty answerText, false)
  /-- Otherwise the marker says that it is cut, -/
  flagged : ¬MarkerFits batchId escalationEventId resolvedEventId resolvedAt
    (nonEmpty answerText) false → result.2 = true
  /-- what it keeps is a prefix with which it fits, -/
  fits : result.2 = true → ∀ text, result.1 = some text → text ≠ "" ∧ text.toList <+: answerText.toList ∧
    MarkerFits batchId escalationEventId resolvedEventId resolvedAt (some text) true
  /-- and no longer prefix does; if it keeps nothing, no prefix does. -/
  longest : result.2 = true → ∀ text : String, text ≠ "" → text.toList <+: answerText.toList →
    MarkerFits batchId escalationEventId resolvedEventId resolvedAt (some text) true →
      ∃ kept, result.1 = some kept ∧ text.length ≤ kept.length

/-- **`fit_answer_text` cuts as little as possible.** -/
theorem fitAnswerText_cutMaximally (batchId : String) (escalationEventId : Option Int) (resolvedEventId : Int)
    (resolvedAt answerText : String) :
    CutMaximally batchId escalationEventId resolvedEventId resolvedAt answerText
      (fitAnswerText batchId escalationEventId resolvedEventId resolvedAt answerText) := by
  unfold fitAnswerText
  split
  · rename_i hfits
    refine ⟨fun _ => rfl, fun hno => absurd (markerFits_iff.mpr hfits) hno, ?_, ?_⟩
    · intro hflag
      cases hflag
    · intro hflag
      cases hflag
  · rename_i hover
    have hcut := serializedMarkerBytes_cut batchId escalationEventId resolvedEventId resolvedAt
    have hlist : ∀ cs : List Char, (String.ofList cs).toList = cs := fun cs => String.toList_ofList
    refine ⟨fun hfits => absurd (markerFits_iff.mp hfits) hover, fun _ => rfl, fun _ text htext => ?_,
      fun _ text hne hinitial hfits => ?_⟩
    · simp only [cutAnswer, nonEmpty] at htext
      split at htext
      · cases htext
      · rename_i hkept
        obtain rfl := Option.some.inj htext
        refine ⟨hkept, ?_, ?_⟩
        · rw [hlist]
          exact fitPrefix_prefix _ _ _
        · rw [markerFits_iff, hcut, hlist]
          have hnonempty : fitPrefix ((markerSerializedCapBytes : Int) - serializedMarkerBytes batchId
              escalationEventId resolvedEventId resolvedAt (some "") true) 0 answerText.toList ≠ [] := by
            intro hnil
            exact hkept (by rw [hnil])
          have hle := fitPrefix_fits _ _ _ hnonempty
          omega
    · rw [markerFits_iff, hcut] at hfits
      have hle := length_le_fitPrefix ((markerSerializedCapBytes : Int) - serializedMarkerBytes batchId
        escalationEventId resolvedEventId resolvedAt (some "") true) 0 answerText.toList hinitial (by omega)
      refine ⟨_, if_neg fun hnil => ?_, ?_⟩
      · have hempty : fitPrefix ((markerSerializedCapBytes : Int) - serializedMarkerBytes batchId
            escalationEventId resolvedEventId resolvedAt (some "") true) 0 answerText.toList = [] := by
          rw [← hlist (fitPrefix _ _ _), hnil]
          rfl
        rw [hempty] at hle
        have hlength : text.toList = [] := List.length_eq_zero_iff.mp (Nat.le_zero.mp hle)
        exact hne (String.toList_eq_nil_iff.mp hlength)
      · rw [← String.length_toList, ← String.length_toList, hlist]
        exact hle

/-! ## The backfill -/

/-- Characters that stand for themselves in JSON and take one byte, as in timestamps and UUIDs. -/
def Plain (s : String) : Prop := ∀ c ∈ s.toList, charEscapedWidth c = 1

instance (s : String) : Decidable (Plain s) :=
  List.decidableBAll (fun c => charEscapedWidth c = 1) s.toList

theorem escapedLen_plain {s : String} (h : Plain s) : escapedLen s = s.length := by
  unfold escapedLen
  rw [List.map_congr_left h, List.map_const', List.sum_replicate, String.length_toList]
  simp

theorem escapedLen_reserved : escapedLen reservedTimestamp = 20 := by decide

/-- What the backfill makes of an answer that may be missing. -/
def backfilledText (batchId : String) (sourceEventId : Int) (createdAt : String) :
    Option String → Option String × Bool
  | some text => fitAnswerText batchId none sourceEventId createdAt text
  | none => (none, false)

/-- The size of a marker depends on the length of its timestamp only. -/
theorem serializedMarkerBytes_at {at_ : String} (hplain : Plain at_) (hlength : at_.length = 20)
    (batchId : String) (escalationEventId : Option Int) (resolvedEventId : Int) (answerText : Option String)
    (truncated : Bool) :
    serializedMarkerBytes batchId escalationEventId resolvedEventId at_ answerText truncated =
      serializedMarkerBytes batchId escalationEventId resolvedEventId reservedTimestamp answerText truncated := by
  unfold serializedMarkerBytes
  rw [escapedLen_plain hplain, hlength, escapedLen_reserved]

/-- **A source that has a marker has one that fits.** -/
theorem backfilled_fits {batchId : String} {sourceEventId : Int} {createdAt : String} {answer : Option String}
    (hplain : Plain createdAt) (hlength : createdAt.length = 20)
    (hsource : sourceYieldsNoMarker batchId sourceEventId answer = false) :
    MarkerFits batchId none sourceEventId createdAt (backfilledText batchId sourceEventId createdAt answer).1
      (backfilledText batchId sourceEventId createdAt answer).2 := by
  have hat := serializedMarkerBytes_at hplain hlength batchId none sourceEventId
  unfold sourceYieldsNoMarker at hsource
  split at hsource
  · cases hsource
  · rename_i henvelope
    have hbare : serializedMarkerBytes batchId none sourceEventId reservedTimestamp none false ≤
        markerSerializedCapBytes := by
      unfold envelopeOnlyExceedsCap at henvelope
      simpa using henvelope
    cases answer with
    | none =>
        rw [markerFits_iff]
        show serializedMarkerBytes batchId none sourceEventId createdAt none false ≤ _
        rw [hat]
        exact hbare
    | some text =>
        have hcut := fitAnswerText_cutMaximally batchId none sourceEventId createdAt text
        show MarkerFits batchId none sourceEventId createdAt (fitAnswerText batchId none sourceEventId createdAt
          text).1 (fitAnswerText batchId none sourceEventId createdAt text).2
        by_cases hwhole : MarkerFits batchId none sourceEventId createdAt
            (nonEmpty text) false
        · rw [hcut.whole hwhole]
          exact hwhole
        · have hflag := hcut.flagged hwhole
          rw [hflag]
          cases hkept : (fitAnswerText batchId none sourceEventId createdAt text).1 with
          | some kept => exact (hcut.fits hflag kept hkept).2.2
          | none =>
              rw [markerFits_iff, hat] at hwhole ⊢
              have hfilter : (some text).filter (fun s => s ≠ "") = nonEmpty text := by
                unfold nonEmpty
                by_cases hempty : text = ""
                · simp [hempty]
                · simp [hempty]
              rw [hfilter] at hsource
              rw [if_neg hwhole] at hsource
              simpa using hsource

/-! ## The live route -/

/-- Nothing an `i64` can be is longer than its largest value, but a negative number. -/
theorem i64Digits_le {n : Int} (hnonneg : 0 ≤ n) (hmax : n ≤ maxRowId) : i64Digits n ≤ 19 := by
  have hdigits := countDigits_eq 1 (Nat.le_refl n.natAbs)
  have hlength : (Nat.toDigits 10 n.natAbs).length ≤ 19 := by
    rw [Nat.length_toDigits_le_iff (by decide) (by decide)]
    have hbound : maxRowId < 10 ^ 19 := by decide
    omega
  unfold i64Digits
  rw [if_neg (by omega)]
  omega

/-- **What is reserved is enough.** -/
theorem reserved_suffices {batchId resolvedAt : String} {escalationId eventId : Int} {answerText : Option String}
    (hbatch : Plain batchId) (hbatchLength : batchId.length = 36) (hat : Plain resolvedAt)
    (hatLength : resolvedAt.length = 20) (hescalation : 0 ≤ escalationId ∧ escalationId ≤ maxRowId)
    (hevent : 0 ≤ eventId ∧ eventId ≤ maxRowId) (haccepted : reservedEnvelopeExceedsCap answerText = false) :
    MarkerFits batchId (some escalationId) eventId resolvedAt answerText false := by
  have hreserved : reservedEnvelopeBytes answerText ≤ markerSerializedCapBytes := by
    unfold reservedEnvelopeExceedsCap at haccepted
    simpa using haccepted
  have huuid : escapedLen "00000000-0000-0000-0000-000000000000" = 36 := by decide
  have htime : escapedLen "9999-12-31T23:59:59Z" = 20 := by decide
  have hlongest : i64Digits 9223372036854775807 = 19 := by decide
  have hdigits := i64Digits_le hescalation.1 hescalation.2
  have hdigits' := i64Digits_le hevent.1 hevent.2
  rw [markerFits_iff]
  refine Nat.le_trans ?_ hreserved
  unfold reservedEnvelopeBytes serializedMarkerBytes
  rw [escapedLen_plain hbatch, hbatchLength, escapedLen_plain hat, hatLength]
  simp only [huuid, htime, hlongest]
  omega

theorem plain_append {s t : String} (hs : Plain s) (ht : Plain t) : Plain (s ++ t) := by
  intro c hc
  rw [String.toList_append, List.mem_append] at hc
  exact hc.elim (hs c) (ht c)

theorem plain_padded (width n : Nat) : Plain (padded width n) := by
  have hdigit : ∀ c : Char, c.isDigit = true → charEscapedWidth c = 1 := by
    intro c hc
    simp only [Char.isDigit, Bool.and_eq_true, decide_eq_true_eq] at hc
    have hlow : 48 ≤ c.toNat := UInt32.le_iff_toNat_le.mp hc.1
    have hhigh : c.toNat ≤ 57 := UInt32.le_iff_toNat_le.mp hc.2
    have hshort : c ∉ ['"', '\\', '\n', '\r', '\t', '\x08', '\x0c'] := by
      intro hmem
      simp only [List.mem_cons, List.not_mem_nil, or_false] at hmem
      rcases hmem with rfl | rfl | rfl | rfl | rfl | rfl | rfl <;> simp at hlow hhigh
    unfold charEscapedWidth
    rw [if_neg hshort, if_neg (by omega)]
    exact utf8Size_of_lt (by omega)
  intro c hc
  unfold padded at hc
  rw [String.toList_ofList, List.mem_append] at hc
  rcases hc with hpad | hdigits
  · rw [List.eq_of_mem_replicate hpad]
    decide
  · exact hdigit c (Nat.isDigit_of_mem_toDigits (by decide) (by decide) hdigits)

/-- The scheduler's own timestamps need no escape. -/
theorem plain_rfc3339 (t : Timestamp) : Plain (rfc3339 t) := by
  have hdash : Plain "-" := by decide
  have htee : Plain "T" := by decide
  have hcolon : Plain ":" := by decide
  have hzone : Plain "Z" := by decide
  unfold rfc3339
  refine plain_append (plain_append (plain_append (plain_append (plain_append (plain_append (plain_append
    (plain_append (plain_append (plain_append (plain_append ?_ hdash) ?_) hdash) ?_) htee) ?_) hcolon) ?_)
    hcolon) ?_) hzone
  · exact plain_padded _ _
  · exact plain_padded _ _
  · exact plain_padded _ _
  · exact plain_padded _ _
  · exact plain_padded _ _
  · exact plain_padded _ _

/-- Every platform event that is new is within the cap. -/
def NewWithinCap (db db' : Db) : Prop :=
  ∀ row ∈ db'.events.rows, row ∈ db.events.rows ∨
    (row.eventType = .platform → row.payload.serializedLength ≤ markerSerializedCapBytes)

theorem NewWithinCap.pushEvent {db db' : Db} (h : NewWithinCap db db') {executionId : ExecutionId}
    {id : Option SessionId} {eventType : EventType} {payload : Json} {msgSeq : Option Int} {now : Timestamp}
    (hnew : eventType = .platform → payload.serializedLength ≤ markerSerializedCapBytes) :
    NewWithinCap db (db'.pushEvent executionId id eventType payload msgSeq now) := by
  intro row hrow
  rcases List.mem_append.mp hrow with hold | hrow
  · exact h row hold
  · rw [List.mem_singleton.mp hrow]
    exact .inr hnew

theorem delivered_within_cap :
    (obj [("type", str "message_delivered")]).serializedLength ≤ markerSerializedCapBytes := by
  rw [serializedLength_eq]
  decide

/-- **The marker of an accepted answer is within the cap**, whatever the transaction finds. -/
theorem sendMessage_within_cap {env : Env} {db : Db} {session : Session} {args : SendMessageArgs}
    (haccepted : ∀ marker, args.resolution = some marker → reservedEnvelopeExceedsCap marker.answerText = false ∧
      Plain marker.escalation.data.batchId ∧ marker.escalation.data.batchId.length = 36 ∧
      marker.escalation.id ≤ maxRowId)
    (hyear : (rfc3339 env.now).length = 20) :
    NewWithinCap db ((Write.sendMessage session args).run env db).2 := by
  have hsame : NewWithinCap db db := fun row hrow => .inl hrow
  refine rejecting_post (m := fun env => Transition.sendMessage env session args)
    (P := fun _ db' => NewWithinCap db db') (fun _ => hsame) ?_
  unfold Transition.sendMessage
  refine DbTx.seq_execution (fun _ _ => ?_) fun _ => hsame
  refine DbTx.seq_session (fun s _ => ?_) fun _ => hsame
  refine DbTx.seq_execution (fun x _ => ?_) fun _ => hsame
  refine Tx.seq_read ?_
  refine Tx.seq (Q := fun _ db' => db = db') ?_ ?_
  · cases args.resolution with
    | none => exact rfl
    | some marker =>
        refine Tx.seq_require (fun _ => ?_) fun _ => hsame
        cases findMarkerForEscalation db marker.escalation with
        | none => exact rfl
        | some existing => exact hsame
  · rintro _ _ rfl
    refine Tx.seq_require (fun _ => ?_) fun _ => hsame
    refine Tx.seq_require (fun _ => ?_) fun _ => hsame
    refine Tx.seq (Q := fun _ db' => NewWithinCap db db') ?_ fun _ db₁ h₁ => ?_
    · rw [Tx.wp_when]
      exact ⟨fun _ => hsame, fun _ => hsame⟩
    · refine Tx.seq (Q := fun _ db' => NewWithinCap db db') ?_ fun _ db₂ h₂ => ?_
      · rw [DbTx.wp_insertTask]
        exact ⟨fun _ => h₁, fun _ => hsame⟩
      · refine Tx.seq (Q := fun eventId db' => NewWithinCap db db' ∧ eventId ≤ maxRowId) ?_ ?_
        · rw [DbTx.wp_insertEvent]
          refine ⟨fun hroom => ⟨h₂.pushEvent fun hplatform => ?_, hroom.2⟩, fun _ => hsame⟩
          cases hplatform
        · rintro eventId db₃ ⟨h₃, hid⟩
          refine Tx.seq (Q := fun _ db' => NewWithinCap db db') ?_ fun _ db₄ h₄ => ?_
          · cases hresolution : args.resolution with
            | none => exact h₃
            | some marker =>
                obtain ⟨hanswer, hbatch, hlength, hescalation⟩ := haccepted marker hresolution
                refine Tx.seq_require (fun _ => ?_) fun _ => hsame
                rw [Tx.wp_bind, DbTx.wp_insertEvent]
                refine ⟨fun _ => h₃.pushEvent fun _ => ?_, fun _ => hsame⟩
                exact reserved_suffices hbatch hlength (plain_rfc3339 env.now) hyear ⟨by omega, by omega⟩
                  ⟨by omega, by omega⟩ hanswer
          · refine Tx.seq (Q := fun _ db' => NewWithinCap db db') ?_ fun _ db₅ h₅ => ?_
            · rw [Tx.wp_when]
              refine ⟨fun _ => ?_, fun _ => h₄⟩
              rw [Tx.wp_bind, DbTx.wp_insertEvent]
              exact ⟨fun _ => h₄.pushEvent fun _ => delivered_within_cap, fun _ => hsame⟩
            · refine Tx.seq (Q := fun _ db' => NewWithinCap db db') ?_ fun _ db₆ h₆ => h₆
              rw [Tx.wp_when]
              exact ⟨fun _ => h₅, fun _ => h₅⟩

/-! ## Answers -/

/-- **Answers are cut as little as possible, and never too little.** What `fit_answer_text` keeps is the whole
answer if its marker fits, and else the longest prefix with which it does; the marker that the backfill builds
of a source that yields one fits; and so does the marker that is written with an answer the live route has
accepted, for every escalation with a UUID. -/
theorem answers_fit :
    (∀ batchId escalationEventId resolvedEventId resolvedAt answerText,
      CutMaximally batchId escalationEventId resolvedEventId resolvedAt answerText
        (fitAnswerText batchId escalationEventId resolvedEventId resolvedAt answerText)) ∧
    (∀ batchId sourceEventId createdAt answer, Plain createdAt → createdAt.length = 20 →
      sourceYieldsNoMarker batchId sourceEventId answer = false →
      MarkerFits batchId none sourceEventId createdAt (backfilledText batchId sourceEventId createdAt answer).1
        (backfilledText batchId sourceEventId createdAt answer).2) ∧
    ∀ env db session args,
      (∀ marker, args.resolution = some marker → reservedEnvelopeExceedsCap marker.answerText = false ∧
        Plain marker.escalation.data.batchId ∧ marker.escalation.data.batchId.length = 36 ∧
        marker.escalation.id ≤ maxRowId) →
      (rfc3339 env.now).length = 20 →
      ∀ row ∈ ((Write.sendMessage session args).run env db).2.events.rows, row ∈ db.events.rows ∨
        (row.eventType = .platform → row.payload.serializedLength ≤ markerSerializedCapBytes) := by
  refine ⟨fun batchId escalationEventId resolvedEventId resolvedAt answerText => ?_,
    fun batchId sourceEventId createdAt answer hplain hlength hsource => ?_,
    fun env db session args haccepted hyear => ?_⟩
  · exact fitAnswerText_cutMaximally batchId escalationEventId resolvedEventId resolvedAt answerText
  · exact backfilled_fits hplain hlength hsource
  · exact sendMessage_within_cap haccepted hyear

/-- An answer of as many bytes. -/
def answerOf (length : Nat) : String := String.ofList (List.replicate length 'a')

theorem escapedLen_answerOf (length : Nat) : escapedLen (answerOf length) = length := by
  have hplain : Plain (answerOf length) := by
    intro c hc
    unfold answerOf at hc
    rw [String.toList_ofList] at hc
    rw [List.eq_of_mem_replicate hc]
    decide
  rw [escapedLen_plain hplain, answerOf, String.length_ofList, List.length_replicate]

theorem backfilledText_long {answer : String} (hlong : markerSerializedCapBytes < escapedLen answer) :
    sourceYieldsNoMarker "batch" 7 (some answer) = false ∧
      (backfilledText "batch" 7 "2026-01-01T00:00:00Z" (some answer)).2 = true := by
  have hexceeds : ¬serializedMarkerBytes "batch" none 7 "2026-01-01T00:00:00Z" (some answer) false ≤
      markerSerializedCapBytes := by
    unfold serializedMarkerBytes
    dsimp only
    omega
  have hnonempty : nonEmpty answer = some answer := by
    refine if_neg fun hempty => hexceeds ?_
    rw [hempty]
    decide
  constructor
  · unfold sourceYieldsNoMarker
    rw [if_neg (by decide)]
    split
    · rfl
    · decide
  · unfold backfilledText fitAnswerText
    dsimp only
    rw [hnonempty, if_neg hexceeds]

/-- A source whose answer is too long for a marker. -/
theorem answers_fit_cut :
    (backfilledText "batch" 7 "2026-01-01T00:00:00Z" (some (answerOf 100000))).2 = true ∧
    MarkerFits "batch" none 7 "2026-01-01T00:00:00Z"
      (backfilledText "batch" 7 "2026-01-01T00:00:00Z" (some (answerOf 100000))).1
      (backfilledText "batch" 7 "2026-01-01T00:00:00Z" (some (answerOf 100000))).2 ∧
    CutMaximally "batch" none 7 "2026-01-01T00:00:00Z" (answerOf 100000)
      (backfilledText "batch" 7 "2026-01-01T00:00:00Z" (some (answerOf 100000))) := by
  have hlong : markerSerializedCapBytes < escapedLen (answerOf 100000) := by
    rw [escapedLen_answerOf]
    decide
  obtain ⟨hsource, hcut⟩ := backfilledText_long hlong
  exact ⟨hcut, answers_fit.2.1 "batch" 7 "2026-01-01T00:00:00Z" (some (answerOf 100000)) (by decide) (by decide)
    hsource, answers_fit.1 "batch" none 7 "2026-01-01T00:00:00Z" (answerOf 100000)⟩

end AgentBeacon
