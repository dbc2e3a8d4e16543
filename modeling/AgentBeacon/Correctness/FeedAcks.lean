import AgentBeacon.Worker.Loop
import Mathlib.Data.List.Infix

/-!
# `Correctness.FeedAcks` — a `feed_turn` is acknowledged for its own prompt

An `Accepted` acknowledges the `feed_turn` that waits, whichever prompt it is for. If none comes for an earlier prompt
while a later `feed_turn` waits, a token is acknowledged only after its own prompt was accepted.
-/

namespace AgentBeacon
namespace Executors.Loop

/-- The token that an entry acknowledges. -/
def Entry.ack : Entry → Option String
  | .requested request => request.commandAck
  | _ => none

def CommandAction.isFeedTurn : CommandAction → Bool
  | .feedTurn _ => true
  | _ => false

/-- The token is that of another command, or its prompt was handed over and accepted. -/
def Accounted (log : List Entry) (token : String) : Prop :=
  (∃ action, .received token action ∈ log ∧ action.isFeedTurn = false) ∨
    ∃ n, .handed n (some token) ∈ log ∧ .emitted (.accepted n) ∈ log

/-- The prompt that an event is for. -/
def Emission.prompt? : Emission → Option Nat
  | .accepted prompt => some prompt
  | .event _ => none

/-- No `Accepted` for an earlier prompt is taken while a `feed_turn` waits. -/
def InTurn (s : Session) : Pick → Prop
  | .event _ => ∀ n ∈ s.events.head?.bind Emission.prompt?, s.pendingFeedToken ≠ none → n + 1 = s.nextPrompt
  | _ => True

instance (s : Session) (pick : Pick) : Decidable (InTurn s pick) :=
  match pick with
  | .event _ => inferInstanceAs (Decidable (∀ n ∈ s.events.head?.bind Emission.prompt?,
      s.pendingFeedToken ≠ none → n + 1 = s.nextPrompt))
  | .emit _ | .closed | .poll _ | .escalation | .silence => isTrue trivial

/-- Every acknowledgement made or about to be made is accounted for. -/
structure Accounts (s : Session) : Prop where
  acks : ∀ before e, before ++ [e] <+: s.log → ∀ token ∈ e.ack, Accounted before token
  last : ∀ token ∈ s.lastAck, Accounted s.log token
  stop : ∀ token ∈ s.pendingStopToken, Accounted s.log token
  feed : ∀ token ∈ s.pendingFeedToken, ∃ n, n + 1 = s.nextPrompt ∧ .handed n (some token) ∈ s.log
  events : ∀ n, .accepted n ∈ s.events → .emitted (.accepted n) ∈ s.log

theorem Accounted.mono {log more : List Entry} {token : String} (h : Accounted log token) :
    Accounted (log ++ more) token := by
  obtain ⟨action, hreceived, hother⟩ | ⟨n, hhanded, haccepted⟩ := h
  · exact .inl ⟨action, List.mem_append_left _ hreceived, hother⟩
  · exact .inr ⟨n, List.mem_append_left _ hhanded, List.mem_append_left _ haccepted⟩

theorem no_ack {P : String → Prop} (token : String) (h : token ∈ (none : Option String)) : P token := by
  cases h

namespace Accounts

open AgentBeacon.Executors.Loop.Session

variable {s s' : Session}

theorem begin (initialToken : String) (agentSessionId : Option String) (nextMsgSeq : Int) :
    Accounts (.begin initialToken agentSessionId nextMsgSeq) := by
  refine ⟨fun before e hprefix token htoken => ?_, fun token htoken => ?_, no_ack, no_ack, fun _ hn => by cases hn⟩
  · have hmem : e ∈ [Entry.received initialToken .assign, .handed 0 none] :=
      hprefix.subset (List.mem_append_right _ (List.mem_singleton_self e))
    simp only [List.mem_cons, List.not_mem_nil, or_false] at hmem
    obtain rfl | rfl := hmem
    · cases htoken
    · cases htoken
  · obtain rfl := Option.mem_some_iff.mp htoken
    exact .inl ⟨.assign, List.mem_cons_self .., rfl⟩

/-- An entry whose acknowledgement, if any, is accounted for. -/
theorem record (h : Accounts s) {e : Entry} (he : ∀ token ∈ e.ack, Accounted s.log token) : Accounts (s.record e) where
  acks before e' hprefix token htoken := by
    -- the new entry, or one of the old ones with what stood before it
    obtain hwhole | hold := List.prefix_concat_iff.mp hprefix
    · obtain ⟨rfl, hlast⟩ := List.append_inj' hwhole rfl
      obtain rfl := List.singleton_injective hlast
      exact he token htoken
    · exact h.acks before e' hold token htoken
  last token htoken := (h.last token htoken).mono
  stop token htoken := (h.stop token htoken).mono
  feed token htoken := by
    obtain ⟨n, hn, hhanded⟩ := h.feed token htoken
    exact ⟨n, hn, List.mem_append_left _ hhanded⟩
  events n hn := List.mem_append_left _ (h.events n hn)

/-- What happens to the acknowledgements that are about to be made; nothing else matters. -/
theorem update (h : Accounts s) (hlog : s'.log = s.log) (hlast : ∀ token ∈ s'.lastAck, Accounted s.log token)
    (hstop : ∀ token ∈ s'.pendingStopToken, Accounted s.log token)
    (hfeed : ∀ token ∈ s'.pendingFeedToken, token ∈ s.pendingFeedToken) (hnext : s'.nextPrompt = s.nextPrompt)
    (hevents : s'.events = s.events) : Accounts s' where
  acks := by rw [hlog]; exact h.acks
  last := by rw [hlog]; exact hlast
  stop := by rw [hlog]; exact hstop
  feed token htoken := by rw [hlog, hnext]; exact h.feed token (hfeed token htoken)
  events := by rw [hlog, hevents]; exact h.events

/-- Other variables. -/
theorem other (h : Accounts s) (hlog : s'.log = s.log) (hlast : s'.lastAck = s.lastAck)
    (hstop : s'.pendingStopToken = s.pendingStopToken) (hfeed : s'.pendingFeedToken = s.pendingFeedToken)
    (hnext : s'.nextPrompt = s.nextPrompt) (hevents : s'.events = s.events) : Accounts s' := by
  refine h.update hlog ?_ ?_ ?_ hnext hevents
  · rw [hlast]
    exact h.last
  · rw [hstop]
    exact h.stop
  · rw [hfeed]
    exact fun _ htoken => htoken

/-! ## Commands -/

theorem handleCommand (h : Accounts s) {token : String} {action : CommandAction}
    (hreceived : .received token action ∈ s.log) : Accounts (s.handleCommand token action) := by
  cases action with
  | feedTurn payload =>
      -- its token waits for the prompt that is handed over with it
      unfold Session.handleCommand
      dsimp only
      split
      · exact h
      split
      · refine ⟨fun before e hprefix t ht => ?_, fun t ht => (h.last t ht).mono, fun t ht => (h.stop t ht).mono,
          fun t ht => ?_, fun n hn => List.mem_append_left _ (h.events n hn)⟩
        · exact (h.record (e := .handed s.nextPrompt (some token)) no_ack).acks before e hprefix t ht
        · obtain rfl := Option.mem_some_iff.mp ht
          exact ⟨s.nextPrompt, rfl, List.mem_append_right _ (List.mem_singleton_self _)⟩
      · exact h
  | stopTurn =>
      have hother : Accounted s.log token := .inl ⟨.stopTurn, hreceived, rfl⟩
      unfold Session.handleCommand
      dsimp only
      split
      · have hstopping : Accounts { s with pendingFeedToken := none, pendingStopToken := some token } := by
          refine h.update rfl h.last (fun t ht => ?_) no_ack rfl rfl
          obtain rfl := Option.mem_some_iff.mp ht
          exact hother
        exact hstopping.record (e := .told .stopTurn) no_ack
      · refine h.update rfl (fun t ht => ?_) h.stop no_ack rfl rfl
        obtain rfl := Option.mem_some_iff.mp ht
        exact hother
  | cancel =>
      have hcanceling : Accounts { s with
          pendingFeedToken := none, pendingStopToken := none, lastAck := some token, cancelAckPending := true } := by
        refine h.update rfl (fun t ht => ?_) no_ack no_ack rfl rfl
        obtain rfl := Option.mem_some_iff.mp ht
        exact .inl ⟨.cancel, hreceived, rfl⟩
      exact hcanceling.record (e := .told .cancel) no_ack
  | assign => exact h

theorem received (h : Accounts s) (token : String) (action : CommandAction) :
    Accounts ((s.record (.received token action)).handleCommand token action) :=
  handleCommand (h.record (e := .received token action) no_ack) (List.mem_append_right _ (List.mem_singleton_self _))

theorem command (h : Accounts s) (token : String) (action : CommandAction) : Accounts (s.command token action) := by
  unfold Session.command
  dsimp only
  split
  · exact (h.received token action).other rfl rfl rfl rfl rfl rfl
  · exact h.received token action

/-! ## Requests -/

theorem startLongPoll (h : Accounts s) (report : Option ExecutorReport) {ack : Option String}
    (hack : ∀ token ∈ ack, Accounted s.log token) : Accounts (s.startLongPoll report ack) := by
  have hpolling : Accounts { s with poll := some ⟨report, none, ack⟩ } := h.other rfl rfl rfl rfl rfl rfl
  exact hpolling.record (e := .requested ⟨report, none, ack⟩) hack

theorem pollAgain (h : Accounts s) : Accounts s.pollAgain := by
  refine h.startLongPoll _ fun token htoken => ?_
  unfold ackForPoll at htoken
  split at htoken
  · cases htoken
  · exact h.last token htoken

theorem takeAck (h : Accounts s) : Accounts s.takeAck.1 ∧ (∀ token ∈ s.takeAck.2, Accounted s.takeAck.1.log token) := by
  unfold Session.takeAck
  split
  · exact ⟨h.update rfl no_ack h.stop (fun _ ht => ht) rfl rfl, h.last⟩
  split
  · rename_i token hpending
    refine ⟨h.update rfl h.last no_ack (fun _ ht => ht) rfl rfl, fun t ht => ?_⟩
    obtain rfl := Option.mem_some_iff.mp ht
    exact h.stop _ hpending
  · exact ⟨h.update rfl no_ack h.stop (fun _ ht => ht) rfl rfl, h.last⟩

/-- The report of a turn's end, or of the process's. -/
theorem reported (h : Accounts s) (report : Option ExecutorReport) (result : Option TurnReport) :
    Accounts (s.takeAck.1.record (.requested ⟨report, result, s.takeAck.2⟩)) :=
  h.takeAck.1.record (e := .requested ⟨report, result, s.takeAck.2⟩) h.takeAck.2

theorem stopped (h : Accounts s) : Accounts (s.record (.told .stop)).leave :=
  (h.record (e := .told .stop) no_ack).other rfl rfl rfl rfl rfl rfl

/-! ## Events -/

theorem turnReported (h : Accounts s) (settled : Bool) (response : SyncResponse) :
    Accounts (s.turnReported settled response) := by
  cases response with
  | noAction =>
      unfold Session.turnReported
      dsimp only
      split
      · exact h.other rfl rfl rfl rfl rfl rfl
      · have hcleared : Accounts { s with cancelAckPending := false, escalation := none } :=
          h.other rfl rfl rfl rfl rfl rfl
        exact (hcleared.startLongPoll none h.last).other rfl rfl rfl rfl rfl rfl
  | command token action =>
      unfold Session.turnReported
      dsimp only
      split
      · exact h.other rfl rfl rfl rfl rfl rfl
      · have hcleared : Accounts { s with cancelAckPending := false, escalation := none } :=
          h.other rfl rfl rfl rfl rfl rfl
        have hhandled := hcleared.received token action
        generalize (Session.record { s with cancelAckPending := false, escalation := none }
          (.received token action)).handleCommand token action = handled at hhandled
        have harmed : ∀ armed : Session, Accounts armed → Accounts { armed.startLongPoll none
            (if armed.pendingStopToken ≠ none ∨ armed.pendingFeedToken ≠ none then none else armed.lastAck) with
            silence := !settled } := by
          intro armed harmed
          refine (harmed.startLongPoll none fun t ht => ?_).other rfl rfl rfl rfl rfl rfl
          split at ht
          · cases ht
          · exact harmed.last t ht
        split
        · exact harmed _ (hhandled.other rfl rfl rfl rfl rfl rfl)
        · exact harmed _ hhandled

theorem handleTurnComplete (h : Accounts s) (result : TurnResult) (settled : Bool) (reply : Reply) :
    Accounts (s.handleTurnComplete result settled reply) := by
  have htaken : ∀ t : Session, Accounts t → Accounts (t.takeMessages result.output).1 := by
    intro t ht
    unfold takeMessages
    split
    · exact ht.other rfl rfl rfl rfl rfl rfl
    · exact ht.other rfl rfl rfl rfl rfl rfl
  have hknown : Accounts { s with
      silence := false, agentSessionId := result.agentSessionId.or s.agentSessionId } :=
    h.other rfl rfl rfl rfl rfl rfl
  have htook := htaken _ hknown
  unfold Session.handleTurnComplete
  generalize takeMessages { s with
    silence := false, agentSessionId := result.agentSessionId.or s.agentSessionId } result.output = taken at htook
  obtain ⟨taken, messages⟩ := taken
  have hended : Accounts { taken with poll := none, executorRunning := taken.executorRunning && !settled } :=
    htook.other rfl rfl rfl rfl rfl rfl
  cases reply with
  | ok response => exact turnReported (hended.reported _ _) settled response
  | error e => exact stopped (hended.reported _ _)

theorem handleInit (h : Accounts s) (sessionId : String) : Accounts (s.handleInit sessionId) := by
  have hknown : Accounts { s with silence := false, agentSessionId := some sessionId, executorRunning := true } :=
    h.other rfl rfl rfl rfl rfl rfl
  unfold Session.handleInit
  dsimp only
  split
  · exact hknown.startLongPoll _ h.last
  · exact hknown

/-- **The `Accepted` of the prompt that was handed over last.** -/
theorem handleAccepted (h : Accounts s) {n : Nat} (hemitted : .emitted (.accepted n) ∈ s.log)
    (hown : s.pendingFeedToken ≠ none → n + 1 = s.nextPrompt) (reply : Reply) :
    Accounts (s.handleAccepted reply) := by
  unfold Session.handleAccepted
  dsimp only
  split
  · exact h.other rfl rfl rfl rfl rfl rfl
  rename_i feedToken hpending
  -- the prompt of the waiting token is the last one handed over, so it is the one accepted
  have haccounted : Accounted s.log feedToken := by
    obtain ⟨m, hm, hhanded⟩ := h.feed feedToken hpending
    have hn := hown (by rw [show s.pendingFeedToken = some feedToken from hpending]; exact Option.some_ne_none _)
    obtain rfl : m = n := by omega
    exact .inr ⟨m, hhanded, hemitted⟩
  have hacked : Accounts (Session.record { s with silence := false, pendingFeedToken := none, poll := none }
      (.requested ⟨some (Session.report { s with silence := false } "running"), none, some feedToken⟩)) := by
    have hheard : Accounts { s with silence := false, pendingFeedToken := none, poll := none } :=
      h.update rfl h.last h.stop no_ack rfl rfl
    refine hheard.record (e := .requested ⟨_, none, some feedToken⟩) fun t ht => ?_
    obtain rfl := Option.mem_some_iff.mp ht
    exact haccounted
  split
  · exact (hacked.command _ _).pollAgain
  · exact hacked.pollAgain
  · refine pollAgain (hacked.update rfl (fun t ht => ?_) hacked.stop (fun _ ht => ht) rfl rfl)
    obtain rfl := Option.mem_some_iff.mp ht
    exact haccounted.mono

theorem handleProcessDied (h : Accounts s) (error : String) (agentSessionId : Option String) :
    Accounts (s.handleProcessDied error agentSessionId) := by
  have hknown : Accounts { s with
      silence := false, agentSessionId := agentSessionId.or s.agentSessionId, pendingFeedToken := none,
      turnMessages := [] } :=
    h.update rfl h.last h.stop no_ack rfl rfl
  exact (hknown.reported _ _).other rfl rfl rfl rfl rfl rfl

theorem handlePoll (h : Accounts s) (reply : Reply) : Accounts (s.handlePoll reply) := by
  have hanswered : Accounts { s with poll := none } := h.other rfl rfl rfl rfl rfl rfl
  -- an answered poll has delivered the acknowledgement, unless a cancellation still waits for it
  have hforgotten : Accounts (if ({ s with poll := none } : Session).cancelAckPending then { s with poll := none }
      else { s with poll := none, lastAck := none }) := by
    split
    · exact hanswered
    · exact h.update rfl no_ack h.stop (fun _ ht => ht) rfl rfl
  unfold Session.handlePoll
  dsimp only
  split
  · exact (hforgotten.command _ _).pollAgain
  · exact hforgotten.pollAgain
  · exact hanswered.pollAgain

theorem handleClosed (h : Accounts s) : Accounts s.handleClosed := by
  unfold Session.handleClosed
  dsimp only
  split
  · rename_i ack hack
    refine (h.record (e := .requested ⟨none, none, some ack⟩) fun t ht => ?_).other rfl rfl rfl rfl rfl rfl
    obtain rfl := Option.mem_some_iff.mp ht
    split at hack
    · exact h.last _ hack
    · obtain hstop | ⟨-, hlast⟩ := Option.or_eq_some_iff.mp hack
      · exact h.stop _ hstop
      · exact h.last _ hlast
  · exact h.other rfl rfl rfl rfl rfl rfl

theorem handleEvent (h : Accounts s) {emission : Emission} (reply : Reply)
    (hemitted : ∀ n, emission = .accepted n → .emitted (.accepted n) ∈ s.log)
    (hown : ∀ n, emission = .accepted n → s.pendingFeedToken ≠ none → n + 1 = s.nextPrompt) :
    Accounts (s.handleEvent reply emission) := by
  cases emission with
  | accepted n => exact h.handleAccepted (hemitted n rfl) (hown n rfl) reply
  | event event =>
      cases event with
      | init sessionId => exact h.handleInit sessionId
      | message output ephemeral => exact h.other rfl rfl rfl rfl rfl rfl
      | turnComplete result settled => exact h.handleTurnComplete result settled reply
      | processDied error agentSessionId => exact h.handleProcessDied error agentSessionId

/-! ## The loop -/

/-- **One pick.** -/
theorem handlePick (h : Accounts s) {pick : Pick} (hpick : InTurn s pick) : Accounts (s.handlePick pick) := by
  cases pick with
  | emit emission =>
      unfold Session.handlePick
      dsimp only
      split
      · have hrecorded := h.record (e := .emitted emission) no_ack
        refine ⟨hrecorded.acks, hrecorded.last, hrecorded.stop, hrecorded.feed, fun n hn => ?_⟩
        obtain hold | hnew := List.mem_append.mp hn
        · exact hrecorded.events n hold
        · rw [List.mem_singleton.mp hnew]
          exact List.mem_append_right _ (List.mem_singleton_self _)
      · exact h
  | event reply =>
      unfold Session.handlePick
      dsimp only
      split
      · rename_i emission events hevents
        have hrest : Accounts { s with events } := by
          refine ⟨h.acks, h.last, h.stop, h.feed, fun n hn => h.events n ?_⟩
          rw [hevents]
          exact List.mem_cons_of_mem _ hn
        refine hrest.handleEvent reply (fun n hn => h.events n ?_) fun n hn => hpick n ?_
        · rw [hevents, hn]
          exact List.mem_cons_self ..
        · rw [hevents, hn]
          rfl
      · exact h
  | closed =>
      unfold Session.handlePick
      dsimp only
      split
      · exact h.handleClosed
      · exact h
  | poll reply =>
      unfold Session.handlePick
      dsimp only
      split
      · exact h.handlePoll reply
      · exact h
  | escalation =>
      unfold Session.handlePick
      dsimp only
      split
      · unfold handleEscalation
        split
        · have harmed : Accounts { s with escalation := some 1 } := h.other rfl rfl rfl rfl rfl rfl
          exact harmed.record (e := .signalled "SIGINT") no_ack
        · have harmed : Accounts { s with escalation := none } := h.other rfl rfl rfl rfl rfl rfl
          exact harmed.record (e := .signalled "SIGKILL") no_ack
      · exact h
  | silence =>
      unfold Session.handlePick
      dsimp only
      split
      · have hheard : Accounts { s with silence := false } := h.other rfl rfl rfl rfl rfl rfl
        exact hheard.record (e := .signalled "SIGKILL") no_ack
      · exact h

theorem iterate (h : Accounts s) {pick : Pick} (hpick : InTurn s pick) : Accounts (s.iterate pick) := by
  unfold Session.iterate
  split
  · exact h.handlePick hpick
  · exact h

end Accounts

/-- **A `feed_turn` is acknowledged for its own prompt.** In a run in which no `Accepted` for an earlier prompt is taken
while a later `feed_turn` waits: a token that the worker acknowledges is that of another command, or the executor
has accepted the prompt that the `feed_turn` with this token carried. -/
theorem feed_turn_acked_for_own (initialToken : String) (agentSessionId : Option String) (nextMsgSeq : Int)
    (picks : List Pick) (h : Along Session.iterate InTurn (.begin initialToken agentSessionId nextMsgSeq) picks)
    (before : List Entry) (request : SyncRequest) (after : List Entry) (token : String)
    (hlog : (Session.run initialToken agentSessionId nextMsgSeq picks).log = before ++ .requested request :: after)
    (htoken : request.commandAck = some token)
    (hfeed : ∀ action, .received token action ∈ before → action.isFeedTurn = true) :
    ∃ n, .handed n (some token) ∈ before ∧ .emitted (.accepted n) ∈ before := by
  have hrun := h.invariant (I := Accounts) (fun _ _ hs hpick => hs.iterate hpick) (.begin _ _ _)
  have hprefix : before ++ [.requested request] <+: (Session.run initialToken agentSessionId nextMsgSeq picks).log :=
    ⟨after, by rw [hlog, List.append_assoc, List.singleton_append]⟩
  obtain ⟨action, hreceived, hother⟩ | haccepted := hrun.acks before _ hprefix token htoken
  · rw [hfeed action hreceived] at hother
    cases hother
  · exact haccepted

/-! ## A prompt that is accepted in turn, and one that is not -/

def follow : Json := .obj [("message", .obj [("parts", .arr [])])]

/-- The starting prompt is accepted, a `feed_turn` comes, and its prompt is accepted. -/
def inTurn : List Pick :=
  [.emit (.event (.init "s")), .event (.ok .noAction), .emit (.accepted 0), .event (.ok .noAction),
    .poll (.ok (.command "f" (.feedTurn follow))), .emit (.accepted 1), .event (.ok .noAction)]

theorem feed_turn_acked_for_own_inTurn : ∃ before request after,
    (Session.run "a" none 0 inTurn).log = before ++ .requested request :: after ∧ request.commandAck = some "f" ∧
      ∃ n, .handed n (some "f") ∈ before ∧ .emitted (.accepted n) ∈ before := by
  have hlog : (Session.run "a" none 0 inTurn).log = [.received "a" .assign, .handed 0 none,
      .emitted (.event (.init "s")), .requested ⟨some ⟨"running", some "s"⟩, none, some "a"⟩, .emitted (.accepted 0),
      .received "f" (.feedTurn follow), .handed 1 (some "f"), .requested ⟨some ⟨"running", some "s"⟩, none, none⟩,
      .emitted (.accepted 1)] ++ .requested ⟨some ⟨"running", some "s"⟩, none, some "f"⟩ ::
      [.requested ⟨some ⟨"running", some "s"⟩, none, none⟩] := by decide +kernel
  refine ⟨_, _, _, hlog, rfl, feed_turn_acked_for_own "a" none 0 inTurn ?_ _ _ _ "f" hlog rfl fun action h => ?_⟩
  · exact ⟨by decide +kernel, by decide +kernel, by decide +kernel, by decide +kernel, by decide +kernel,
      by decide +kernel, by decide +kernel, trivial⟩
  · simp only [List.mem_cons, List.not_mem_nil, or_false, Entry.received.injEq, reduceCtorEq, false_or] at h
    obtain ⟨hf, -⟩ | ⟨-, rfl⟩ := h
    · exact absurd hf (by decide)
    · rfl

/-- The `feed_turn` comes before the starting prompt is accepted. -/
def tooEarly : List Pick :=
  [.emit (.event (.init "s")), .event (.ok .noAction), .poll (.ok (.command "f" (.feedTurn follow))),
    .emit (.accepted 0), .event (.ok .noAction)]

theorem starting_prompt_acks_feed_turn : ∃ before request after,
    (Session.run "a" none 0 tooEarly).log = before ++ .requested request :: after ∧ request.commandAck = some "f" ∧
      (∀ action, .received "f" action ∈ before → action.isFeedTurn = true) ∧
      ∀ n, .handed n (some "f") ∈ before → .emitted (.accepted n) ∉ before := by
  have hlog : (Session.run "a" none 0 tooEarly).log = [.received "a" .assign, .handed 0 none,
      .emitted (.event (.init "s")), .requested ⟨some ⟨"running", some "s"⟩, none, some "a"⟩,
      .received "f" (.feedTurn follow), .handed 1 (some "f"), .requested ⟨some ⟨"running", some "s"⟩, none, none⟩,
      .emitted (.accepted 0)] ++ .requested ⟨some ⟨"running", some "s"⟩, none, some "f"⟩ ::
      [.requested ⟨some ⟨"running", some "s"⟩, none, none⟩] := by decide +kernel
  refine ⟨_, _, _, hlog, rfl, fun action h => ?_, fun n hhanded haccepted => ?_⟩
  · simp only [List.mem_cons, List.not_mem_nil, or_false, Entry.received.injEq, reduceCtorEq, false_or] at h
    obtain ⟨hf, -⟩ | ⟨-, rfl⟩ := h
    · exact absurd hf (by decide)
    · rfl
  · simp only [List.mem_cons, List.not_mem_nil, or_false, Entry.handed.injEq, Entry.emitted.injEq,
      Emission.accepted.injEq, reduceCtorEq, false_or] at hhanded haccepted
    obtain ⟨-, hf⟩ | ⟨rfl, -⟩ := hhanded
    · cases hf
    · cases haccepted

end Executors.Loop
end AgentBeacon
