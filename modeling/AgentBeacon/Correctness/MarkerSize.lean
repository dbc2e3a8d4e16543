import AgentBeacon.Resolution
import AgentBeacon.Serialize

/-!
# `Correctness.MarkerSize` — the size of a marker, and what fits into one

The size of a marker is computed field by field, before the marker is built. The caps of the live route and
of the backfill rest on it.
-/

namespace AgentBeacon
open Json Resolution

/-! ## Strings and numbers -/

/-- An ASCII character takes one byte. -/
theorem utf8Size_of_lt {c : Char} (h : c.toNat < 0x80) : c.utf8Size = 1 := by
  rw [Char.utf8Size_eq_one_iff]
  have hval : c.val.toNat < 0x80 := h
  exact UInt32.le_iff_toNat_le.mpr (by simpa using Nat.le_of_lt_succ hval)

theorem utf8Size_hexDigit {n : Nat} (h : n < 16) : (hexDigit n).utf8Size = 1 := by
  have hall : ∀ n < 16, (hexDigit n).utf8Size = 1 := by decide
  exact hall n h

/-- **One character, escaped.** -/
theorem utf8Length_escapeChar (c : Char) : utf8Length (escapeChar c) = charEscapedWidth c := by
  by_cases hshort : c ∈ ['"', '\\', '\n', '\r', '\t', '\x08', '\x0c']
  · simp only [List.mem_cons, List.not_mem_nil, or_false] at hshort
    rcases hshort with rfl | rfl | rfl | rfl | rfl | rfl | rfl
    · rfl
    · rfl
    · rfl
    · rfl
    · rfl
    · rfl
    · rfl
  · have hwidth : charEscapedWidth c = if c.toNat < 0x20 then 6 else c.utf8Size := if_neg hshort
    simp only [List.mem_cons, List.not_mem_nil, or_false, not_or] at hshort
    obtain ⟨hquote, hslash, hline, hreturn, htab, hback, hfeed⟩ := hshort
    rw [hwidth]
    unfold escapeChar
    rw [if_neg hquote, if_neg hslash, if_neg hback, if_neg htab, if_neg hline, if_neg hfeed, if_neg hreturn]
    split
    · rename_i hcontrol
      have hhigh := utf8Size_hexDigit (n := c.toNat / 16) (by omega)
      have hlow := utf8Size_hexDigit (n := c.toNat % 16) (by omega)
      rw [utf8Length_cons, utf8Length_cons, utf8Length_cons, utf8Length_cons, utf8Length_cons, utf8Length_cons,
        hhigh, hlow]
      rfl
    · simp

theorem utf8Length_flatMap_escapeChar (cs : List Char) :
    utf8Length (cs.flatMap escapeChar) = (cs.map charEscapedWidth).sum := by
  induction cs with
  | nil => rfl
  | cons c cs ih => simp [List.flatMap_cons, utf8Length_escapeChar, ih]

/-- **A string with its quotes.** -/
theorem utf8Length_quoted (s : String) : utf8Length (quoted s) = escapedLen s + 2 := by
  have hquote : Char.utf8Size '"' = 1 := rfl
  simp [quoted, escapedLen, utf8Length_flatMap_escapeChar, hquote]
  omega

theorem serializedLength_str (s : String) : (str s).serializedLength = escapedLen s + 2 := by
  rw [serializedLength_eq]
  exact utf8Length_quoted s

/-- The loop counts the digits that are left. -/
theorem countDigits_eq {fuel m : Nat} (d : Nat) (h : m ≤ fuel) :
    countDigits fuel m d + 1 = d + (Nat.toDigits 10 m).length := by
  induction fuel generalizing m d with
  | zero =>
      obtain rfl : m = 0 := Nat.le_zero.mp h
      rw [Nat.toDigits_zero]
      rfl
  | succ fuel ih =>
      unfold countDigits
      by_cases hm : 10 ≤ m
      · have hdiv : m / 10 ≤ fuel := by omega
        rw [if_pos hm, ih (d + 1) hdiv, Nat.toDigits_of_base_le (by decide) hm, List.length_append]
        simp
        omega
      · rw [if_neg hm, Nat.toDigits_of_lt_base (by omega)]
        rfl

theorem utf8Length_toDigits (n : Nat) : utf8Length (Nat.toDigits 10 n) = (Nat.toDigits 10 n).length := by
  have hall : ∀ cs : List Char, (∀ c ∈ cs, c.isDigit = true) → utf8Length cs = cs.length := by
    intro cs hcs
    induction cs with
    | nil => rfl
    | cons c cs ih =>
        have hc := hcs c List.mem_cons_self
        have hsize : c.utf8Size = 1 := by
          refine utf8Size_of_lt ?_
          simp only [Char.isDigit, Bool.and_eq_true, decide_eq_true_eq] at hc
          have hle : c.toNat ≤ 57 := UInt32.le_iff_toNat_le.mp hc.2
          omega
        rw [utf8Length_cons, hsize, ih fun c hc => hcs c (List.mem_cons_of_mem _ hc), List.length_cons]
        omega
  exact hall _ fun c hc => Nat.isDigit_of_mem_toDigits (by decide) (by decide) hc

/-- **An integer in decimal.** -/
theorem serializedLength_int (n : Int) : (int n).serializedLength = i64Digits n := by
  have hdigits := countDigits_eq 1 (Nat.le_refl n.natAbs)
  have hminus : Char.utf8Size '-' = 1 := rfl
  rw [serializedLength_eq]
  show utf8Length (decimal n) = _
  unfold decimal i64Digits
  rw [utf8Length_append, utf8Length_toDigits]
  split
  · simp [hminus]
    omega
  · simp
    omega

/-! ## Markers -/

/-- The envelope around the data of a marker. -/
theorem serializedLength_envelope (data : Json) :
    (obj [("parts", arr [Json.dataPart data])]).serializedLength = 21 + data.serializedLength := by
  have hparts : utf8Length (quoted "parts") = 7 := by decide
  have hdata : utf8Length (quoted "data") = 6 := by decide
  have hobj := serializedLength_obj [("parts", arr [Json.dataPart data])]
  have harr := serializedLength_arr [Json.dataPart data]
  have hpart : (Json.dataPart data).serializedLength + 1 = 2 + (2 + 6 + data.serializedLength) := by
    have h := serializedLength_obj [("data", data)]
    simp only [List.map_cons, List.map_nil, List.sum_cons, List.sum_nil, hdata] at h
    exact h
  simp only [List.map_cons, List.map_nil, List.sum_cons, List.sum_nil, hparts, reduceCtorEq, if_false] at hobj harr
  omega

/-- **The data of a marker.** -/
theorem serializedLength_markerData (batchId : String) (escalationEventId : Option Int) (resolvedEventId : Int)
    (resolvedAt : String) (answerText : Option String) (truncated : Bool) :
    21 + (markerData batchId escalationEventId resolvedEventId resolvedAt answerText truncated).serializedLength =
      serializedMarkerBytes batchId escalationEventId resolvedEventId resolvedAt answerText truncated := by
  have htype : utf8Length (quoted "type") = 6 := by decide
  have hkind : (str answerType).serializedLength = 17 := by
    rw [serializedLength_str]
    decide
  have hbatch : utf8Length (quoted "batch_id") = 10 := by decide
  have hevent : utf8Length (quoted "resolved_event_id") = 19 := by decide
  have hat : utf8Length (quoted "resolved_at") = 13 := by decide
  have hescalation : utf8Length (quoted "escalation_event_id") = 21 := by decide
  have hanswer : utf8Length (quoted "answer_text") = 13 := by decide
  have htruncated : utf8Length (quoted "truncated") = 11 := by decide
  have htrue : (bool true).serializedLength = 4 := by
    rw [serializedLength_eq]
    rfl
  unfold markerData serializedMarkerBytes
  have hlength := serializedLength_obj ([("type", str answerType), ("batch_id", str batchId),
    ("resolved_event_id", int resolvedEventId), ("resolved_at", str resolvedAt)] ++
    (escalationEventId.map fun id => ("escalation_event_id", int id)).toList ++
    (answerText.map fun text => ("answer_text", str text)).toList ++
    if truncated then [("truncated", bool true)] else [])
  -- each optional member adds its own length
  cases escalationEventId <;> cases answerText <;> cases truncated <;>
    simp [htype, hkind, hbatch, hevent, hat, hescalation, hanswer, htruncated, htrue, serializedLength_str,
      serializedLength_int] at hlength ⊢ <;>
    omega

/-- **The size of a marker is exact.** For every batch, ids, time, answer and flag, it is the length of the
marker's compact serialization, in whatever order that writes the members of the data. -/
theorem serialized_marker_bytes_exact (batchId : String) (escalationEventId : Option Int) (resolvedEventId : Int)
    (resolvedAt : String) (answerText : Option String) (truncated : Bool) :
    (markerPayload batchId escalationEventId resolvedEventId resolvedAt answerText truncated).serializedLength =
      serializedMarkerBytes batchId escalationEventId resolvedEventId resolvedAt answerText truncated ∧
    ∀ members members' : List (String × Json),
      markerData batchId escalationEventId resolvedEventId resolvedAt answerText truncated = .obj members →
      members'.Perm members →
      (Json.obj [("parts", .arr [Json.dataPart (.obj members')])]).serializedLength =
        serializedMarkerBytes batchId escalationEventId resolvedEventId resolvedAt answerText truncated := by
  have hdata := serializedLength_markerData batchId escalationEventId resolvedEventId resolvedAt answerText
    truncated
  constructor
  · rw [← hdata]
    exact serializedLength_envelope _
  · intro members members' hmembers hperm
    rw [serializedLength_envelope, serializedLength_perm hperm, ← hmembers]
    exact hdata

/-- A marker with its members in alphabetical order, as it is written. -/
theorem serialized_marker_bytes_exact_sorted :
    (Json.obj [("parts", .arr [Json.dataPart (.obj [("answer_text", .str "a\n"), ("batch_id", .str "b"),
      ("resolved_at", .str "t"), ("resolved_event_id", .int 7), ("truncated", .bool true),
      ("type", .str answerType)])])]).serializedLength =
      serializedMarkerBytes "b" none 7 "t" (some "a\n") true :=
  (serialized_marker_bytes_exact "b" none 7 "t" (some "a\n") true).2 _ _ rfl (by decide)

end AgentBeacon
