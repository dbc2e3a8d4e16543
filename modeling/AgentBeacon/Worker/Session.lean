import AgentBeacon.Json
import Mathlib.Data.List.Induction
import Mathlib.Tactic.Common

/-!
# `Worker.Session` — how a worker numbers the messages of a run

The part of `run_session` that counts: a run starts with the number that its Assign brought, every
output of the executor counts on, and what is not ephemeral goes into the turn's messages, which the
sync at the end of the turn takes along.
-/

namespace AgentBeacon
namespace Worker

/-- An event of the executor. -/
inductive AgentEvent where
  | message (output : Json) (ephemeral : Bool)
  | turnComplete (output : Option Json)
  | processDied

/-- The counter, the messages of the turn, and what has been handed to the two ways of delivery: the
posts of single messages and the messages of turn results. -/
structure RunState where
  msgSeq : Int
  turnMessages : List (Int × Json)
  posted : List (Int × Json × Bool)
  reported : List (List (Int × Json))

namespace RunState

/-- `run_session` after an Assign. -/
def start (nextMsgSeq : Int) : RunState := ⟨nextMsgSeq, [], [], []⟩

/-- The `event_rx` branch of the loop. -/
def handle (run : RunState) : AgentEvent → RunState
  | .message output ephemeral =>
      let msgSeq := run.msgSeq + 1
      { run with
        msgSeq
        turnMessages :=
          if ephemeral then run.turnMessages else run.turnMessages ++ [(msgSeq, output)]
        posted := run.posted ++ [(msgSeq, output, ephemeral)] }
  | .turnComplete output =>
      match run.turnMessages, output with
      | [], some output => { run with
          msgSeq := run.msgSeq + 1
          reported := run.reported ++ [[(run.msgSeq + 1, output)]] }
      | messages, _ => { run with turnMessages := [], reported := run.reported ++ [messages] }
  | .processDied =>
      { run with turnMessages := [], reported := run.reported ++ [run.turnMessages] }

/-- The messages of the run so far that are to be stored. -/
def messages (run : RunState) : List (Int × Json) := run.reported.flatten ++ run.turnMessages

/-- What one event does: the counter counts on, and at most the message under the new number is added. -/
theorem handle_messages (run : RunState) (event : AgentEvent) :
    (run.msgSeq ≤ (run.handle event).msgSeq ∧ (run.handle event).messages = run.messages) ∨
      ((run.handle event).msgSeq = run.msgSeq + 1 ∧
        ∃ output, (run.handle event).messages = run.messages ++ [(run.msgSeq + 1, output)]) := by
  obtain ⟨msgSeq, turnMessages, posted, reported⟩ := run
  cases event with
  | message output ephemeral =>
      cases ephemeral with
      | true => exact .inl ⟨by simp only [handle]; omega, rfl⟩
      | false =>
          refine .inr ⟨rfl, output, ?_⟩
          show reported.flatten ++ (turnMessages ++ _) = reported.flatten ++ turnMessages ++ _
          exact (List.append_assoc _ _ _).symm
  | turnComplete output =>
      cases turnMessages with
      | nil =>
          cases output with
          | none =>
              refine .inl ⟨Int.le_refl _, ?_⟩
              simp only [handle, messages, List.flatten_append, List.flatten_cons, List.flatten_nil,
                List.append_nil]
          | some output =>
              refine .inr ⟨rfl, output, ?_⟩
              simp only [handle, messages, List.flatten_append, List.flatten_cons, List.flatten_nil,
                List.append_nil]
      | cons message turnMessages =>
          refine .inl ⟨Int.le_refl _, ?_⟩
          simp only [handle, messages, List.flatten_append, List.flatten_cons, List.flatten_nil,
            List.append_nil]
  | processDied =>
      refine .inl ⟨Int.le_refl _, ?_⟩
      simp only [handle, messages, List.flatten_append, List.flatten_cons, List.flatten_nil,
        List.append_nil]

/-- The state after a list of events. -/
def after (nextMsgSeq : Int) (events : List AgentEvent) : RunState :=
  events.foldl handle (start nextMsgSeq)

theorem after_concat (n : Int) (events : List AgentEvent) (event : AgentEvent) :
    after n (events ++ [event]) = (after n events).handle event := by
  rw [after, List.foldl_append]
  rfl

/-- **The numbers of a run** grow, from above the number that the Assign brought. -/
theorem after_numbers (n : Int) (events : List AgentEvent) :
    n ≤ (after n events).msgSeq ∧ ((after n events).messages.map Prod.fst).Pairwise (· < ·) ∧
      ∀ m ∈ (after n events).messages, n < m.1 ∧ m.1 ≤ (after n events).msgSeq := by
  induction events using List.reverseRecOn with
  | nil => exact ⟨Int.le_refl _, List.Pairwise.nil, nofun⟩
  | append_singleton events event ih =>
      obtain ⟨hcount, hgrows, hbounds⟩ := ih
      rw [after_concat]
      rcases handle_messages (after n events) event with ⟨hle, hsame⟩ | ⟨hnext, output, hadded⟩
      · rw [hsame]
        refine ⟨Int.le_trans hcount hle, hgrows, fun m hm => ?_⟩
        exact ⟨(hbounds m hm).1, Int.le_trans (hbounds m hm).2 hle⟩
      · rw [hadded, hnext]
        refine ⟨by omega, ?_, fun m hm => ?_⟩
        · rw [List.map_append, List.pairwise_append]
          refine ⟨hgrows, List.pairwise_singleton _ _, fun k hk l hl => ?_⟩
          obtain ⟨m, hm, rfl⟩ := List.mem_map.mp hk
          have hle := (hbounds m hm).2
          rw [List.mem_singleton.mp hl]
          show m.1 < _ + 1
          omega
        · rcases List.mem_append.mp hm with hold | hnew
          · have := hbounds m hold
            omega
          · rw [List.mem_singleton.mp hnew]
            show n < _ + 1 ∧ _ + 1 ≤ _
            omega

/-- As many outputs as one likes: a run reaches every number above the one it starts from. -/
theorem exists_number (n k : Int) (h : n < k) : ∃ events, ∃ m ∈ (after n events).messages, m.1 = k := by
  have hreach : ∀ count : Nat,
      (after n (List.replicate count (.message .null false))).msgSeq = n + count := by
    intro count
    induction count with
    | zero => simp [after, start]
    | succ count ih =>
        rw [List.replicate_succ', after_concat, handle, ih]
        show n + count + 1 = n + (count + 1 : Nat)
        omega
  refine ⟨List.replicate (k - n - 1).toNat (.message .null false) ++ [.message .null false], ?_⟩
  refine ⟨(k, .null), ?_, rfl⟩
  rw [after_concat]
  refine List.mem_append_right _ (List.mem_append_right _ ?_)
  rw [hreach]
  have hk : n + ((k - n - 1).toNat : Int) + 1 = k := by omega
  rw [hk]
  exact List.mem_singleton_self _

end RunState

/-- The messages of a run: those that its turn results take along, and those of the current turn. -/
def runMessages (nextMsgSeq : Int) (events : List AgentEvent) : List (Int × Json) :=
  (RunState.after nextMsgSeq events).messages

end Worker
end AgentBeacon
