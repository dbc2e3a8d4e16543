import AgentBeacon.Worker.Acp

/-!
# `Correctness.AcpRefusals` — what the ACP executor says of a prompt it does not send

A `TurnComplete` under no request id is the end of a turn that was never opened. The state before a step and what the
step is given decide whether there is one, and there is at most one.
-/

namespace AgentBeacon
namespace Executors.Acp

namespace Entry

/-- The end of a turn that was never opened. -/
def unlabelled : Entry → Bool
  | .turnComplete none _ => true
  | _ => false

def isStart : Entry → Bool
  | .took (.start _) => true
  | _ => false

end Entry

/-- What is said of a `Start` that comes while a turn is open. -/
def refused (config : Config) : Entry := .turnComplete none (failure config "Start received while prompt in progress")

namespace Task

/-- A turn is not opened: of a `Start` while another is open, or that cannot be read or written; of a prompt that
cannot be written, at once or when its turn in the queue comes; and of a `Cancel` when there is none to cancel. -/
def refuses (t : Task) : Pick → Bool
  | .command (.start payload) written =>
      t.running && (!t.phase.isIdle || !(acpContent payload).isOk || !written.isOk)
  | .command (.prompt _) written => t.running && t.phase.isIdle && !written.isOk
  | .command .cancel _ => t.running && t.phase.isIdle
  | .message (.response resp) written =>
      t.running && t.phase.requestId? = some resp.id && !t.phase.isCancelling && !t.pendingPrompts.isEmpty &&
        !written.isOk
  | _ => false

/-- The refusals of a run. -/
def refusals (config : Config) : Task → List Pick → Nat
  | _, [] => 0
  | t, pick :: picks => (t.refuses pick).toNat + refusals config (iterate config t pick) picks

end Task

/-- What a step logs: one end of a turn never opened for a refusal, and none else; and a `Start` comes first and is
followed by something, while a turn is open by the refusal. -/
structure Says (config : Config) (t : Task) (pick : Pick) (more : List Entry) : Prop where
  unlabelled : more.countP Entry.unlabelled = (t.refuses pick).toNat
  later : ∀ e ∈ more.tail, e.isStart = false
  answered : (∃ e ∈ more.head?, e.isStart = true) → more.tail ≠ [] ∧
    (t.phase.isIdle = false → more.tail.head? = some (refused config))

namespace Task

variable {config : Config} {t : Task}

/-- A step that is no `Start`: only the number of ends is left to check. -/
theorem says_other {pick : Pick} {e : Entry} {more : List Entry} (hfirst : e.isStart = false)
    (hmore : ∀ e ∈ more, e.isStart = false)
    (hcount : (e :: more).countP Entry.unlabelled = (t.refuses pick).toNat) : Says config t pick (e :: more) := by
  refine ⟨hcount, hmore, ?_⟩
  rintro ⟨e', he', hstart⟩
  obtain rfl : e = e' := Option.some.inj he'
  rw [hfirst] at hstart
  cases hstart

/-- A `Start`: it is answered, by a refusal if a turn is open. -/
theorem says_start {payload : Json} {written : Except String Unit} {e : Entry} {more : List Entry}
    (hmore : ∀ e' ∈ e :: more, e'.isStart = false) (hbusy : t.phase.isIdle = false → e = refused config)
    (hcount : (e :: more).countP Entry.unlabelled = (t.refuses (.command (.start payload) written)).toNat) :
    Says config t (.command (.start payload) written) (.took (.start payload) :: e :: more) := by
  refine ⟨?_, hmore, fun _ => ⟨List.cons_ne_nil _ _, fun hopen => congrArg some (hbusy hopen)⟩⟩
  rw [List.countP_cons_of_neg (by simp [Entry.unlabelled])]
  exact hcount

theorem sendPrompt_says (t : Task) (config : Config) (number : Nat) (prompt : List Json) (what : String)
    (written : Except String Unit) :
    ∃ e more, (t.sendPrompt config number prompt what written).log = t.log ++ e :: more ∧
      (∀ e' ∈ e :: more, e'.isStart = false) ∧ (e :: more).countP Entry.unlabelled = (!written.isOk).toNat := by
  cases written with
  | error err => exact ⟨.turnComplete none _, [], rfl, by simp [Entry.isStart], rfl⟩
  | ok _ =>
      exact ⟨.prompted t.nextRequest number prompt, [.accepted number], List.append_assoc _ [_] [_],
        by simp [Entry.isStart], rfl⟩

/-- **A `Start`**, and what is said of it. -/
theorem handleStart_says (hrunning : t.running = true) (payload : Json) (written : Except String Unit) :
    ∃ more, (t.handleCommand config (.start payload) written).log = t.log ++ more ∧
      Says config t (.command (.start payload) written) more := by
  have hrefused : ∀ error, (t.phase.isIdle = false → error = "Start received while prompt in progress") →
      (t.refuses (.command (.start payload) written)) = true →
      Says config t (.command (.start payload) written)
        [.took (.start payload), .turnComplete none (failure config error)] := by
    intro error hbusy hrefuses
    refine says_start (by simp [Entry.isStart]) (fun hopen => by rw [hbusy hopen]; rfl) ?_
    rw [hrefuses]
    rfl
  unfold handleCommand handleStart
  dsimp only
  split
  · rename_i hidle
    have hopen : t.phase.isIdle = true := hidle
    split
    · rename_i e hcontent
      refine ⟨_, List.append_assoc _ [_] [_], hrefused e (fun hbusy => ?_) ?_⟩
      · rw [hopen] at hbusy
        cases hbusy
      · rw [refuses, hrunning, hcontent, show (Except.error e : Except String (List Json)).isOk = false from rfl]
        simp
    · rename_i prompt hcontent
      obtain ⟨e, more, hlog, hmore, hcount⟩ := sendPrompt_says
        { t.record (.took (.start payload)) with nextPrompt := t.nextPrompt + 1 } config t.nextPrompt prompt
        "failed to send prompt" written
      refine ⟨.took (.start payload) :: e :: more, hlog.trans (List.append_assoc _ [_] _),
        says_start hmore (fun hbusy => ?_) ?_⟩
      · rw [hopen] at hbusy
        cases hbusy
      · rw [hcount, refuses, hrunning, hopen, hcontent]
        rfl
  · rename_i hbusy
    have hopen : t.phase.isIdle = false := Bool.eq_false_iff.mpr hbusy
    refine ⟨_, List.append_assoc _ [_] [_], hrefused _ (fun _ => rfl) ?_⟩
    rw [refuses, hrunning, hopen]
    rfl

/-- **A prompt.** -/
theorem handlePrompt_says (hrunning : t.running = true) (parts : List Json) (written : Except String Unit) :
    ∃ more, (t.handleCommand config (.prompt parts) written).log = t.log ++ more ∧
      Says config t (.command (.prompt parts) written) more := by
  unfold handleCommand handlePrompt translateParts
  dsimp only
  split
  · rename_i hidle
    have hopen : t.phase.isIdle = true := hidle
    obtain ⟨e, more, hlog, hmore, hcount⟩ := sendPrompt_says
      { t.record (.took (.prompt parts)) with nextPrompt := t.nextPrompt + 1 } config t.nextPrompt
      (parts.filterMap translatePart) "failed to send prompt" written
    refine ⟨.took (.prompt parts) :: e :: more, hlog.trans (List.append_assoc _ [_] _), says_other rfl hmore ?_⟩
    rw [List.countP_cons_of_neg (by simp [Entry.unlabelled]), hcount, refuses, hrunning, hopen]
    rfl
  · rename_i hbusy
    have hopen : t.phase.isIdle = false := Bool.eq_false_iff.mpr hbusy
    refine ⟨[.took (.prompt parts)], rfl, says_other rfl nofun ?_⟩
    rw [refuses, hrunning, hopen]
    rfl

/-- **A response**: the queue goes on after it. -/
theorem handleResponse_says (hrunning : t.running = true) (resp : RpcResponse) (written : Except String Unit) :
    ∃ more, ((t.record (.received (.response resp))).handleMessage config (.response resp) written).log =
        t.log ++ more ∧ Says config t (.message (.response resp) written) more := by
  unfold handleMessage
  dsimp only
  split
  · rename_i hphase
    have hturn : t.phase.requestId? = some resp.id := hphase
    unfold handleResponse
    dsimp only
    split
    · rename_i hcancelling
      have hcancel : t.phase.isCancelling = true := hcancelling
      refine ⟨_, List.append_assoc _ [_] [_], says_other rfl (by simp [Entry.isStart]) ?_⟩
      rw [refuses, hcancel]
      simp [Entry.unlabelled]
    · rename_i hnot
      have hcancel : t.phase.isCancelling = false := Bool.eq_false_iff.mpr hnot
      unfold drainQueue
      split
      · rename_i hqueue
        have hnone : t.pendingPrompts = [] := hqueue
        refine ⟨_, List.append_assoc _ [_] [_], says_other rfl (by simp [Entry.isStart]) ?_⟩
        rw [refuses, hnone]
        simp [Entry.unlabelled]
      · rename_i number parts rest hqueue
        have hsome : t.pendingPrompts = (number, parts) :: rest := hqueue
        unfold translateParts
        dsimp only
        obtain ⟨e, more, hlog, hmore, hcount⟩ := sendPrompt_says
          { record { t.record (.received (.response resp)) with phase := .idle }
              (.turnComplete (some resp.id) (buildTurnResult config resp t.phase.history)) with
            pendingPrompts := rest }
          config number (parts.filterMap translatePart) "failed to send queued prompt" written
        refine ⟨.received (.response resp) ::
          .turnComplete (some resp.id) (buildTurnResult config resp t.phase.history) :: e :: more, hlog.trans ?_,
          says_other rfl (fun e' he' => ?_) ?_⟩
        · show ((t.log ++ [_]) ++ [_]) ++ _ = _
          rw [List.append_assoc, List.append_assoc]
          rfl
        · obtain rfl | he' := List.mem_cons.mp he'
          · rfl
          · exact hmore e' he'
        · rw [List.countP_cons_of_neg (by simp [Entry.unlabelled]),
            List.countP_cons_of_neg (by simp [Entry.unlabelled]), hcount, refuses, hrunning, hturn, hcancel, hsome]
          simp
  · rename_i hphase
    have hother : ¬t.phase.requestId? = some resp.id := hphase
    refine ⟨[.received (.response resp)], rfl, says_other rfl nofun ?_⟩
    rw [refuses, decide_eq_false hother]
    simp [Entry.unlabelled]

/-- **The other messages** end no turn but the open one. -/
theorem handleMessage_says {msg : RpcMessage} (written : Except String Unit) (h : ∀ resp, msg ≠ .response resp) :
    ∃ more, ((t.record (.received msg)).handleMessage config msg written).log = t.log ++ more ∧
      Says config t (.message msg written) more := by
  have hnone : t.refuses (.message msg written) = false := by
    cases msg with
    | response resp => exact absurd rfl (h resp)
    | _ => rfl
  have hsame : ∃ more, (t.record (.received msg)).log = t.log ++ more ∧ Says config t (.message msg written) more :=
    ⟨[.received msg], rfl, says_other rfl nofun (by rw [hnone]; rfl)⟩
  have hone : ∀ e : Entry, e.isStart = false → e.unlabelled = false →
      ∃ more, (t.log ++ [.received msg]) ++ [e] = t.log ++ more ∧ Says config t (.message msg written) more := by
    intro e hstart hlabelled
    refine ⟨[.received msg, e], List.append_assoc _ _ _, says_other rfl (by simpa using hstart) ?_⟩
    rw [hnone, List.countP_cons_of_neg (by simp [Entry.unlabelled]), List.countP_singleton, hlabelled]
    rfl
  unfold handleMessage
  cases msg with
  | response resp => exact absurd rfl (h resp)
  | notification method params =>
      dsimp only
      split
      · unfold handleUpdate
        split
        · exact hsame
        · split
          · exact hsame
          · exact hone (.message _) rfl rfl
      · exact hsame
  | request id method params =>
      dsimp only
      unfold handleRequest
      split
      · split
        · exact hone (.told _) rfl rfl
        · split
          · exact hsame
          · exact hone (.told _) rfl rfl
      · exact hone (.told _) rfl rfl
  | parseError text =>
      dsimp only
      split
      · exact hsame
      · exact hone (.turnComplete (some _) _) rfl rfl

/-- **What one step says.** -/
theorem iterate_says (hrunning : t.running = true) (config : Config) (pick : Pick) :
    ∃ more, (iterate config t pick).log = t.log ++ more ∧ Says config t pick more := by
  have hone : ∀ {pick : Pick} {e : Entry}, e.isStart = false → e.unlabelled.toNat = (t.refuses pick).toNat →
      Says config t pick [e] := by
    intro pick e hstart hcount
    refine says_other hstart nofun ?_
    rw [← hcount, List.countP_singleton]
    cases e.unlabelled <;> rfl
  unfold iterate
  rw [if_pos hrunning]
  cases pick with
  | message msg written =>
      dsimp only
      cases msg with
      | response resp => exact handleResponse_says hrunning resp written
      | _ => exact handleMessage_says written nofun
  | exited exitInfo => exact ⟨[.died _], rfl, hone rfl rfl⟩
  | command command written =>
      dsimp only
      cases command with
      | start payload => exact handleStart_says hrunning payload written
      | prompt parts => exact handlePrompt_says hrunning parts written
      | cancel =>
          unfold handleCommand handleCancel
          dsimp only
          split
          · rename_i hphase
            have hbusy : t.phase = _ := hphase
            refine ⟨[.took .cancel, .told _], List.append_assoc _ [_] [_], says_other rfl (by simp [Entry.isStart]) ?_⟩
            rw [refuses, hbusy]
            simp [Entry.unlabelled, PromptPhase.isIdle]
          · rename_i hphase
            have hidle : t.phase = .idle := hphase
            refine ⟨[.took .cancel, .turnComplete none _], List.append_assoc _ [_] [_],
              says_other rfl (by simp [Entry.isStart]) ?_⟩
            rw [refuses, hidle, hrunning]
            rfl
          · rename_i hphase
            have hbusy : t.phase = _ := hphase
            refine ⟨[.took .cancel], rfl, says_other rfl nofun ?_⟩
            rw [refuses, hbusy]
            simp [Entry.unlabelled, PromptPhase.isIdle]
      | stopTurn =>
          unfold handleCommand handleStopTurn
          dsimp only
          split
          · exact ⟨[.took .stopTurn, .told _], List.append_assoc _ [_] [_],
              says_other rfl (by simp [Entry.isStart]) rfl⟩
          · exact ⟨[.took .stopTurn], rfl, hone rfl rfl⟩
      | stop => exact ⟨[.took .stop], rfl, hone rfl rfl⟩
  | closed => exact ⟨[.closed], rfl, hone rfl rfl⟩
  | graceOver =>
      dsimp only
      split
      · exact ⟨[.graceOver, .turnComplete (some _) _], List.append_assoc _ [_] [_],
          says_other rfl (by simp [Entry.isStart]) rfl⟩
      · exact ⟨[], (List.append_nil _).symm, rfl, nofun, fun hstart => by obtain ⟨e, he, -⟩ := hstart; cases he⟩
  | stalled seconds =>
      dsimp only
      split
      · exact ⟨[.died _], rfl, hone rfl rfl⟩
      · exact ⟨[], (List.append_nil _).symm, rfl, nofun, fun hstart => by obtain ⟨e, he, -⟩ := hstart; cases he⟩

theorem iterate_ended (h : t.running = false) (config : Config) (pick : Pick) : iterate config t pick = t := by
  unfold iterate
  rw [h]
  rfl

theorem refuses_ended (h : t.running = false) (pick : Pick) : t.refuses pick = false := by
  unfold refuses
  rw [h]
  split <;> rfl

/-- **Over a run** the ends of turns never opened are as many as the refusals. -/
theorem unlabelled_run (config : Config) (t : Task) (picks : List Pick) :
    (picks.foldl (iterate config) t).log.countP Entry.unlabelled =
      t.log.countP Entry.unlabelled + refusals config t picks := by
  induction picks generalizing t with
  | nil => rfl
  | cons pick picks ih =>
      rw [List.foldl_cons, ih, refusals, ← Nat.add_assoc]
      cases hrunning : t.running with
      | true =>
          obtain ⟨more, hlog, hsays⟩ := iterate_says hrunning config pick
          rw [hlog, List.countP_append, hsays.unlabelled]
      | false => rw [iterate_ended hrunning, refuses_ended hrunning, Bool.toNat_false, Nat.add_zero]

end Task

end Executors.Acp
end AgentBeacon
