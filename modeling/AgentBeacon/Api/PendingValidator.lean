import AgentBeacon.Api.Decisions
import AgentBeacon.Lib.Separated
import Mathlib.Data.Set.Insert

/-!
# `Api.PendingValidator` — the entity tag of the pending decisions

The validator of a pending-decisions response is a digest of one line per active execution: its id, its
state, and the highest id of its platform events (`validated`). It is read before the log is scanned; a client that
presents it again gets no body.
-/

namespace AgentBeacon

/-- `executions.desired`, as it is stored. -/
def ExecutionDesired.text : ExecutionDesired → String
  | .run => "run"
  | .terminate => "terminate"

namespace DecisionsApi

/-- The line of one execution, its fields joined by unit separators. -/
def markTuple (mark : ActiveExecutionMark) : String :=
  mark.id ++ "\u001f" ++ (mark.outcome.map Outcome.asStr).getD "" ++ "\u001f" ++ mark.desired.text ++ "\u001f" ++
    toString (mark.platformMax.getD 0)

/-- The text that is hashed: the lines in order, a record separator behind each. -/
def validated (marks : List ActiveExecutionMark) : String :=
  String.join (((marks.map markTuple).mergeSort fun a b => a ≤ b).map fun tuple => tuple ++ "\u001e")

/-- `pending_validator`. `sha256` is the digest of a text, in hexadecimal. -/
def pendingValidator (sha256 : String → String) (marks : List ActiveExecutionMark) : String :=
  "\"" ++ sha256 (validated marks) ++ "\""

/-- `pending_decisions` for a client that presents a validator: `none` is 304. The marks are read from
one database, the log from another. -/
def pendingResponse (sha256 : String → String) (marked scanned : Db) (log : EventLog)
    (executionFilter : Option ExecutionId) (presented : Option String) :
    String × Option (List DecisionBrief) :=
  let marks := listActiveWithPlatformMark marked executionFilter
  let etag := pendingValidator sha256 marks
  if presented = some etag then (etag, none)
  else (etag, some (pendingBody scanned log marks))

/-! ## What the text tells -/

section Validated

variable {mark mark' : ActiveExecutionMark} {marks marks' : List ActiveExecutionMark}

/-- The separators: control characters, which no field but the id could hold. -/
def unitSeparator : Char := '\x1f'
def recordSeparator : Char := '\x1e'

theorem markTuple_toList (mark : ActiveExecutionMark) :
    (markTuple mark).toList = mark.id.toList ++ unitSeparator ::
      (((mark.outcome.map Outcome.asStr).getD "").toList ++ unitSeparator ::
        (mark.desired.text.toList ++ unitSeparator :: Nat.toDigits 10 (mark.platformMax.getD 0))) := by
  simp [markTuple, unitSeparator, Nat.toString_eq_repr, Nat.repr]

theorem digits_printable {n : Nat} {c : Char} (h : c.isDigit = false) : c ∉ Nat.toDigits 10 n := by
  intro hmem
  rw [Nat.isDigit_of_mem_toDigits (by decide) (by decide) hmem] at h
  cases h

theorem desired_printable (desired : ExecutionDesired) :
    unitSeparator ∉ desired.text.toList ∧ recordSeparator ∉ desired.text.toList := by
  cases desired <;> decide

theorem outcome_printable (outcome : Option Outcome) :
    unitSeparator ∉ ((outcome.map Outcome.asStr).getD "").toList ∧
      recordSeparator ∉ ((outcome.map Outcome.asStr).getD "").toList := by
  rcases outcome with - | outcome
  · decide
  · cases outcome <;> decide

/-- A line tells the id and the mark. -/
theorem mark_of_markTuple (h : markTuple mark = markTuple mark') :
    mark.id = mark'.id ∧ mark.platformMax.getD 0 = mark'.platformMax.getD 0 := by
  have htext := congrArg String.toList h
  rw [markTuple_toList, markTuple_toList] at htext
  have hdigits : ∀ n, unitSeparator ∉ Nat.toDigits 10 n := fun n => digits_printable rfl
  -- from the right, where no field holds a separator
  simp only [← List.cons_append, ← List.append_assoc] at htext
  obtain ⟨hfront, hmax⟩ := Separated.split_last (hdigits _) (hdigits _) htext
  obtain ⟨hfront, -⟩ := Separated.split_last (desired_printable _).1 (desired_printable _).1 hfront
  obtain ⟨hid, -⟩ := Separated.split_last (outcome_printable _).1 (outcome_printable _).1 hfront
  refine ⟨String.toList_inj.mp hid, ?_⟩
  have hvalue := congrArg (fun digits => Nat.ofDigitChars 10 digits 0) hmax
  simpa only [Nat.ofDigitChars_ten_toDigits] using hvalue

theorem markTuple_noRecord (hid : recordSeparator ∉ mark.id.toList) :
    recordSeparator ∉ (markTuple mark).toList := by
  have hunit : recordSeparator ≠ unitSeparator := by decide
  have hdigits : ∀ n, recordSeparator ∉ Nat.toDigits 10 n := fun n => digits_printable rfl
  simp only [markTuple_toList, List.mem_append, List.mem_cons, not_or]
  exact ⟨hid, hunit, (outcome_printable _).2, hunit, (desired_printable _).2, hunit, hdigits _⟩

theorem validated_toList (marks : List ActiveExecutionMark) :
    (validated marks).toList =
      (((marks.map markTuple).mergeSort fun a b => a ≤ b).map String.toList).flatMap
        fun text => text ++ [recordSeparator] := by
  unfold validated
  induction (marks.map markTuple).mergeSort fun a b => a ≤ b with
  | nil => rfl
  | cons tuple tuples ih =>
      rw [List.map_cons, String.join_cons, String.toList_append, ih, String.toList_append]
      rfl

/-- **The text tells the lines**, if no id holds a record separator. -/
theorem tuples_of_validated (hids : ∀ mark ∈ marks, recordSeparator ∉ mark.id.toList)
    (hids' : ∀ mark ∈ marks', recordSeparator ∉ mark.id.toList) (h : validated marks = validated marks') :
    (marks.map markTuple).Perm (marks'.map markTuple) := by
  have hnone : ∀ {marks : List ActiveExecutionMark}, (∀ mark ∈ marks, recordSeparator ∉ mark.id.toList) →
      ∀ text ∈ ((marks.map markTuple).mergeSort fun a b => a ≤ b).map String.toList, recordSeparator ∉ text := by
    intro marks hids text htext
    obtain ⟨tuple, htuple, rfl⟩ := List.mem_map.mp htext
    obtain ⟨mark, hmark, rfl⟩ := List.mem_map.mp (List.mem_mergeSort.mp htuple)
    exact markTuple_noRecord (hids mark hmark)
  have htext := congrArg String.toList h
  rw [validated_toList, validated_toList] at htext
  have htexts := Separated.texts_of_terminated (hnone hids) (hnone hids') htext
  have hsorted := List.map_injective_iff.mpr (fun _ _ => String.toList_inj.mp) htexts
  have hto := List.mergeSort_perm (marks.map markTuple) fun a b => a ≤ b
  have hfrom := List.mergeSort_perm (marks'.map markTuple) fun a b => a ≤ b
  rw [hsorted] at hto
  exact hto.symm.trans hfrom

/-- What is hashed is between quotes. -/
theorem validated_of_validator {sha256 : String → String}
    (hcollision : Set.InjOn sha256 {validated marks, validated marks'})
    (h : pendingValidator sha256 marks = pendingValidator sha256 marks') :
    validated marks = validated marks' := by
  unfold pendingValidator at h
  refine hcollision (Set.mem_insert _ _) (Set.mem_insert_of_mem _ rfl) ?_
  simpa using h

end Validated

end DecisionsApi

end AgentBeacon
