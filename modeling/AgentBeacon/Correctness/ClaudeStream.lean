import AgentBeacon.Worker.ClaudeStream

/-!
# `Correctness.ClaudeStream` — nothing the assistant says is put out twice, or too late

Blocks are buffered, so what has come in is what has been settled, put out or dropped, and then what is buffered
(`Query.Kept`). What is put out beside the buffer, the results of tools and the result of a turn, comes when nothing is
buffered.
-/

namespace AgentBeacon
namespace Executors.Claude
open Sdk (typeField)
open Query

/-! ## Reading the log -/

/-- The blocks that a message of the SDK brings. -/
def blocksOf (msg : Json) : List Json := if typeField msg = "assistant" then assistantContent msg else []

/-- The blocks that have come in. -/
def said : List Entry → List Json
  | .got msg :: log => said log ++ blocksOf msg
  | _ :: log => said log
  | [] => []

/-- The blocks that have been put out as messages, or dropped. -/
def settled : List Entry → List Json
  | .flushed content :: log | .dropped content :: log => settled log ++ content
  | _ :: log => settled log
  | [] => []

/-- The text of the last message of a turn. -/
def lastText : List Entry → Option String
  | .flushed content :: _ => some (textOf content)
  | .started :: _ | .attempted :: _ | .finished :: _ | .resulted _ _ _ :: _ => none
  | _ :: log => lastText log
  | [] => none

/-- What is buffered is given up here: a result has come in that is not one of success, a start or an attempt begins,
or the attempts of a query are over, however they have ended. -/
def GivesUp : List Entry → Prop
  | .got msg :: _ => typeField msg = "result" ∧ isSuccess msg = false
  | .started :: _ | .attempted :: _ | .finished :: _ => True
  | _ => False

/-- What is put out, or dropped, on top of a log is what it should be. -/
structure Proper (log : List Entry) (entry : Entry) : Prop where
  tools : ∀ content, entry = .toolResults content → settled log = said log
  result : ∀ msg result event, entry = .resulted msg result event →
    settled log = said log ∧ result = resultText msg (lastText log)
  dropped : ∀ content, entry = .dropped content → content ≠ [] → GivesUp log

/-- Every entry is. -/
def AllProper : List Entry → Prop
  | [] => True
  | entry :: log => Proper log entry ∧ AllProper log

theorem AllProper.of_split {newer older : List Entry} {entry : Entry} (h : AllProper (newer ++ entry :: older)) :
    Proper older entry := by
  induction newer with
  | nil => exact h.1
  | cons first newer ih => exact ih h.2

/-! ## What is kept -/

namespace Query

/-- What has come in has been settled or is buffered, but for what is about to be buffered. -/
structure Kept (owed : List Json) (q : Query) : Prop where
  blocks : said q.log = settled q.log ++ q.pendingAssistant.getD [] ++ owed
  text : q.lastFinalOutput = lastText q.log
  proper : AllProper q.log

variable {q : Query} {owed : List Json}

theorem proper_told (log : List Entry) (event : Event) : Proper log (.told event) where
  tools := fun _ h => by cases h
  result := fun _ _ _ h => by cases h
  dropped := fun _ h => by cases h

theorem Kept.told (h : q.Kept owed) (event : Event) : (q.note (.told event)).Kept owed where
  blocks := h.blocks
  text := h.text
  proper := ⟨proper_told q.log event, h.proper⟩

theorem Kept.tell (h : q.Kept owed) (content : List Json) (ephemeral : Bool) : (q.tell content ephemeral).Kept owed :=
  h.told _

/-- **What is buffered is put out.** -/
theorem Kept.flush (h : q.Kept []) :
    q.flushPendingAssistant.Kept [] ∧ q.flushPendingAssistant.pendingAssistant = none := by
  unfold flushPendingAssistant
  cases hpending : q.pendingAssistant with
  | none => exact ⟨h, hpending⟩
  | some content =>
      have hblocks := h.blocks
      rw [hpending] at hblocks
      refine ⟨⟨?_, rfl, ⟨?_, ?_, ?_⟩, h.proper⟩, rfl⟩
      · show said q.log = settled q.log ++ content ++ [] ++ []
        simpa using hblocks
      · intro _ hentry
        cases hentry
      · intro _ _ _ hentry
        cases hentry
      · intro _ hentry
        cases hentry

/-- **What is buffered is dropped**, where it is given up. -/
theorem Kept.drop (h : q.Kept []) (hend : q.pendingAssistant.getD [] ≠ [] → GivesUp q.log) :
    q.dropPending.Kept [] where
  blocks := by
    show said q.log = settled q.log ++ q.pendingAssistant.getD [] ++ [] ++ []
    simpa using h.blocks
  text := h.text
  proper := by
    refine ⟨⟨?_, ?_, ?_⟩, h.proper⟩
    · intro _ hentry
      cases hentry
    · intro _ _ _ hentry
      cases hentry
    · intro content hentry
      cases hentry
      exact hend

theorem Kept.settled_eq (h : q.Kept []) (hnone : q.pendingAssistant = none) : settled q.log = said q.log := by
  rw [h.blocks, hnone]
  simp

/-! ## The messages -/

theorem Kept.handleSystem (h : q.Kept []) (msg : Json) : (q.handleSystem msg).Kept [] := by
  unfold Query.handleSystem
  dsimp only
  split
  · exact Kept.told (q := { q with currentSessionId := msg.get "session_id" }) ⟨h.blocks, h.text, h.proper⟩ _
  split
  · exact h.tell _ _
  · exact h.tell _ _

theorem Kept.handleAssistant {msg : Json} (h : q.Kept (assistantContent msg)) : (q.handleAssistant msg).Kept [] := by
  have hbuffer : ∀ {q : Query}, q.Kept (assistantContent msg) →
      Kept [] { q with pendingAssistant := some (q.pendingAssistant.getD [] ++ assistantContent msg) } := by
    intro q h
    refine ⟨?_, h.text, h.proper⟩
    show said q.log = settled q.log ++ (q.pendingAssistant.getD [] ++ assistantContent msg) ++ []
    rw [h.blocks, List.append_nil, List.append_assoc]
  have hfirst : Kept [] { (if assistantError msg then q.tell [.obj [("data", msg)]] false else q) with
      pendingAssistant := some ((if assistantError msg then q.tell [.obj [("data", msg)]] false
        else q).pendingAssistant.getD [] ++ assistantContent msg) } := by
    apply hbuffer
    split
    · exact h.tell _ _
    · exact h
  unfold Query.handleAssistant
  dsimp only
  split
  · exact hfirst.flush.1
  · exact hfirst

/-- **The results of tools** come behind all that has come in before. -/
theorem Kept.handleUser (h : q.Kept []) (msg : Json) : (q.handleUser msg).Kept [] := by
  unfold Query.handleUser
  split
  · exact h
  · obtain ⟨hflushed, hnone⟩ := h.flush
    refine ⟨hflushed.blocks, hflushed.text, ⟨fun _ _ => hflushed.settled_eq hnone, ?_, ?_⟩, hflushed.proper⟩
    · intro _ _ _ hentry
      cases hentry
    · intro _ hentry
      cases hentry

/-- **A result** comes behind all that has come in before, with its own text or that of the last message of the turn. -/
theorem Kept.handleResult (h : q.Kept []) {msg : Json} (hlog : isSuccess msg = false → GivesUp q.log) :
    (q.handleResult msg).Kept [] := by
  -- complete content is put out, the rest is dropped
  have hdropped : (if isSuccess msg ∧ q.pendingAssistant.getD [] ≠ [] then q.flushPendingAssistant
      else q).dropPending.Kept [] := by
    split
    · obtain ⟨hflushed, hnone⟩ := h.flush
      refine hflushed.drop fun hne => ?_
      rw [hnone] at hne
      exact absurd rfl hne
    · rename_i hnot
      refine h.drop fun hne => hlog ?_
      cases hsuccess : isSuccess msg with
      | false => rfl
      | true => exact absurd ⟨hsuccess, hne⟩ hnot
  unfold Query.handleResult
  dsimp only
  generalize (if isSuccess msg ∧ q.pendingAssistant.getD [] ≠ [] then q.flushPendingAssistant else q) = flushed
    at hdropped
  have hsettled : settled flushed.dropPending.log = said flushed.dropPending.log := hdropped.settled_eq rfl
  generalize flushed.dropPending = dropped at hdropped hsettled
  have hproper : ∀ event log, settled log = said log → dropped.lastFinalOutput = lastText log →
      Proper log (.resulted msg (resultText msg dropped.lastFinalOutput) event) := by
    intro event log hlog htext
    refine ⟨?_, ?_, ?_⟩
    · intro _ hentry
      cases hentry
    · intro _ _ _ hentry
      cases hentry
      exact ⟨hlog, by rw [htext]⟩
    · intro _ hentry
      cases hentry
  split
  · exact ⟨hdropped.blocks, rfl, hproper _ _ hsettled hdropped.text, proper_told _ _, hdropped.proper⟩
  · exact ⟨hdropped.blocks, rfl, hproper _ _ hsettled hdropped.text, hdropped.proper⟩

theorem Kept.handleDelta (h : q.Kept []) (delta : Json) : (q.handleDelta delta).Kept [] := by
  unfold Query.handleDelta
  dsimp only
  split
  · exact h.tell _ _
  split
  · exact h.tell _ _
  split
  · exact h.tell _ _
  · exact h

theorem Kept.handleStreamEvent (h : q.Kept []) (msg : Json) : (q.handleStreamEvent msg).Kept [] := by
  unfold Query.handleStreamEvent
  split
  · exact h
  dsimp only
  split
  · exact h.handleDelta _
  split
  · exact h.flush.1
  · exact h.tell _ _

/-- **A message of the SDK** keeps the blocks that it brings. -/
theorem Kept.handleMessage {msg : Json} (h : q.Kept (blocksOf msg))
    (hlog : typeField msg = "result" → isSuccess msg = false → GivesUp q.log) : (q.handleMessage msg).Kept [] := by
  -- only an assistant message owes blocks
  by_cases hassistant : typeField msg = "assistant"
  · have hblocks : blocksOf msg = assistantContent msg := by
      unfold blocksOf
      rw [if_pos hassistant]
    rw [hblocks] at h
    have hmessage : q.handleMessage msg = q.handleAssistant msg := by
      unfold Query.handleMessage
      simp [hassistant]
    rw [hmessage]
    exact h.handleAssistant
  · have hblocks : blocksOf msg = [] := by
      unfold blocksOf
      rw [if_neg hassistant]
    rw [hblocks] at h
    unfold Query.handleMessage
    dsimp only
    split
    · exact h.handleSystem msg
    split
    · exact h.handleUser msg
    split
    · rename_i hresult
      exact h.handleResult (hlog hresult)
    split
    · exact h.handleStreamEvent msg
    · exact h.tell _ _

/-! ## The loop -/

theorem Kept.clear (h : q.Kept []) (hlog : GivesUp q.log) (htext : lastText q.log = none) : q.clear.Kept [] := by
  have hdropped := h.drop fun _ => hlog
  exact ⟨hdropped.blocks, htext.symm, hdropped.proper⟩

/-- An end of what was being said. -/
def IsEnd : Entry → Prop
  | .started | .attempted | .finished => True
  | _ => False

theorem Kept.ended (h : q.Kept []) {entry : Entry} (hend : IsEnd entry) (currentSessionId : Option Json) :
    Kept [] { q.note entry with currentSessionId := currentSessionId }.clear := by
  have hproper : Proper q.log entry := by
    refine ⟨?_, ?_, ?_⟩ <;> intros <;> subst entry <;> exact hend.elim
  have hsaid : said (entry :: q.log) = said q.log ∧ settled (entry :: q.log) = settled q.log ∧
      lastText (entry :: q.log) = none ∧ GivesUp (entry :: q.log) := by
    cases entry <;> first
      | exact hend.elim
      | exact ⟨rfl, rfl, rfl, trivial⟩
  obtain ⟨hsaid, hsettled, htext, hlog⟩ := hsaid
  refine ⟨?_, ?_, ?_, ?_, h.proper⟩
  · show said (entry :: q.log) = settled (entry :: q.log) ++ q.pendingAssistant.getD [] ++ [] ++ []
    rw [hsaid, hsettled]
    simpa using h.blocks
  · exact htext.symm
  · refine ⟨?_, ?_, ?_⟩
    · intro _ hentry
      cases hentry
    · intro _ _ _ hentry
      cases hentry
    · exact fun _ _ _ => hlog
  · exact hproper

theorem Kept.handleError (h : q.Kept []) (error : Option QueryError) : (q.handleError error).Kept [] := by
  cases error with
  | none => exact h
  | some error =>
      cases error with
      | aborted stoppedByUser => exact h.told _
      | failed text => exact h.told _

/-- **What happens** keeps it. -/
theorem Kept.step (h : q.Kept []) (input : Input) : (q.step input).Kept [] := by
  cases input with
  | start => exact h.ended (show IsEnd .started from trivial) none
  | attempt => exact h.ended (show IsEnd .attempted from trivial) q.currentSessionId
  | calledOff stoppedByUser => exact h.told _
  | finished error =>
      have hended := h.ended (show IsEnd .finished from trivial) q.currentSessionId
      exact hended.handleError error
  | message msg =>
      have hgot : (q.note (.got msg)).Kept (blocksOf msg) := by
        refine ⟨?_, h.text, ⟨?_, ?_, ?_⟩, h.proper⟩
        · show said q.log ++ blocksOf msg = settled q.log ++ q.pendingAssistant.getD [] ++ blocksOf msg
          rw [h.blocks, List.append_nil]
        · intro _ hentry
          cases hentry
        · intro _ _ _ hentry
          cases hentry
        · intro _ hentry
          cases hentry
      exact hgot.handleMessage fun htype hsuccess => ⟨htype, hsuccess⟩

theorem kept_after (inputs : List Input) : (after inputs).Kept [] := by
  unfold after
  have hfresh : fresh.Kept [] := ⟨rfl, rfl, trivial⟩
  generalize fresh = q at hfresh
  induction inputs generalizing q with
  | nil => exact hfresh
  | cons input inputs ih =>
      rw [List.foldl_cons]
      apply ih
      exact hfresh.step input

end Query

/-- **The assistant's blocks are put out once, in order.** In every run of the loop, the blocks that have come in are
those that have been put out or dropped, and then those that are buffered. The results of tools are put out when no
block that came before is buffered any more, and so is the result of a turn, with its own text or else that of the last
message of the turn. Blocks are dropped only at a result that is not one of success, where a start or an attempt begins,
and where the attempts of a query are over, be it without an error. -/
theorem claude_stream_conserved (inputs : List Input) :
    said (Query.after inputs).log =
        settled (Query.after inputs).log ++ (Query.after inputs).pendingAssistant.getD [] ∧
      ∀ newer entry older, (Query.after inputs).log = newer ++ entry :: older →
        (∀ content, entry = .toolResults content → settled older = said older) ∧
          (∀ msg result event, entry = .resulted msg result event →
            settled older = said older ∧ result = resultText msg (lastText older)) ∧
          ∀ content, entry = .dropped content → content ≠ [] → GivesUp older := by
  have h := kept_after inputs
  refine ⟨by simpa using h.blocks, fun newer entry older hlog => ?_⟩
  have hproper : Proper older entry := AllProper.of_split (hlog ▸ h.proper)
  exact ⟨hproper.tools, hproper.result, hproper.dropped⟩

end Executors.Claude
end AgentBeacon
