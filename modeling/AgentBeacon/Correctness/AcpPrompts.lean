import AgentBeacon.Correctness.AcpRefusals
import Mathlib.Data.List.Chain
import Mathlib.Data.List.Range
import Mathlib.Data.List.Sublists

/-!
# `Correctness.AcpPrompts` — the ACP executor has one prompt out at a time

A step leaves the open turn as it is, opens one for a prompt, closes the open one, or closes it and opens the next.
What is logged can therefore be followed with the open turn alone, which is the phase's. A turn is also closed when
the agent does not answer it: by a malformed line, or when a cancelled one is not answered in time.
-/

namespace AgentBeacon
namespace Executors.Acp

/-! ## Following the log -/

namespace Entry

/-- The id of a prompt that is sent. -/
def opens : Entry → Option Nat
  | .prompted requestId _ _ => some requestId
  | _ => none

/-- Its number. -/
def sends : Entry → Option Nat
  | .prompted _ number _ => some number
  | _ => none

/-- The id of the prompt whose turn is complete. -/
def closes : Entry → Option Nat
  | .turnComplete turn _ => turn
  | _ => none

/-- Nothing is sent and no turn is complete. -/
def Plain (e : Entry) : Prop := e.opens = none ∧ e.sends = none ∧ e.closes = none

/-- The process died, or the task was told to end. -/
def ends : Entry → Bool
  | .died _ | .closed | .took .stop => true
  | _ => false

/-- An end of the turn is for the agent's answer, or because there will be none. -/
def causes (e e' : Entry) : Prop :=
  ∀ id, e'.closes = some id → match e with
    | .received (.response resp) => resp.id = id
    | .received (.parseError _) | .graceOver => True
    | _ => False

end Entry

def prompted (log : List Entry) : List Nat := log.filterMap Entry.opens

def completed (log : List Entry) : List Nat := log.filterMap Entry.closes

def sent (log : List Entry) : List Nat := log.filterMap Entry.sends

def Task.waiting (t : Task) : List Nat := t.pendingPrompts.map Prod.fst

/-- The open turn after a part of the log, if no other is opened meanwhile and no other is closed. -/
def follow : Option Nat → List Entry → Option (Option Nat)
  | turn, [] => some turn
  | turn, e :: rest =>
      match e.opens, e.closes with
      | some id, _ => if turn = none then follow (some id) rest else none
      | none, some id => if turn = some id then follow none rest else none
      | none, none => follow turn rest

theorem follow_append (turn : Option Nat) (l l' : List Entry) :
    follow turn (l ++ l') = (follow turn l).bind fun turn' => follow turn' l' := by
  induction l generalizing turn with
  | nil => rfl
  | cons e l ih =>
      rw [List.cons_append, follow, follow]
      split
      · split
        · exact ih _
        · rfl
      · split
        · exact ih _
        · rfl
      · exact ih _

/-- **What is opened has been closed, but for the open turn.** -/
theorem prompted_eq {turn turn' : Option Nat} {l : List Entry} (h : follow turn l = some turn') :
    turn.toList ++ prompted l = completed l ++ turn'.toList := by
  induction l generalizing turn with
  | nil =>
      obtain rfl := Option.some.inj h
      exact List.append_nil _
  | cons e l ih =>
      rw [follow] at h
      unfold prompted completed
      rw [List.filterMap_cons, List.filterMap_cons]
      -- the entry opens a turn, closes the open one, or does neither
      split at h
      · rename_i id hopens
        have hcloses : e.closes = none := by
          cases e with
          | prompted => rfl
          | _ => cases hopens
        split at h
        · rename_i hnone
          rw [hopens, hcloses, hnone]
          exact ih h
        · cases h
      · rename_i id hopens hcloses
        split at h
        · rename_i hsome
          rw [hopens, hcloses, hsome]
          exact congrArg (id :: ·) (ih h)
        · cases h
      · rename_i hopens hcloses
        rw [hopens, hcloses]
        exact ih h

theorem follow_plain {turn : Option Nat} {l : List Entry} (h : ∀ e ∈ l, e.Plain) : follow turn l = some turn := by
  induction l with
  | nil => rfl
  | cons e l ih =>
      obtain ⟨hopens, -, hcloses⟩ := h e List.mem_cons_self
      rw [follow, hopens, hcloses]
      exact ih fun e' he' => h e' (List.mem_cons_of_mem _ he')

theorem follow_plain_cons {turn : Option Nat} {e : Entry} {l : List Entry} (h : e.Plain) :
    follow turn (e :: l) = follow turn l := by
  rw [follow, h.1, h.2.2]

theorem follow_closes (id : Nat) (result : TurnResult) (l : List Entry) :
    follow (some id) (.turnComplete (some id) result :: l) = follow none l :=
  if_pos rfl

theorem prompted_plain_cons {e : Entry} {l : List Entry} (h : e.Plain) : prompted (e :: l) = prompted l :=
  List.filterMap_cons_none h.1

theorem sent_plain_cons {e : Entry} {l : List Entry} (h : e.Plain) : sent (e :: l) = sent l :=
  List.filterMap_cons_none h.2.1

/-! ## What one step can do -/

/-- A step keeps the open turn, sends a prompt, closes the open turn, closes it and sends the next prompt, or ends
the task. Prompts are left waiting without a turn only if a write was broken. -/
inductive Moves (broken : Prop) (t t' : Task) : Prop where
  | keeps (more : List Entry) (log : t'.log = t.log ++ more) (plain : ∀ e ∈ more, e.Plain)
      (phase : t'.phase.requestId? = t.phase.requestId?) (requests : t.nextRequest ≤ t'.nextRequest)
      (prompts : t.nextPrompt ≤ t'.nextPrompt) (running : t'.running = true)
      (waits : t'.waiting = t.waiting ∨
        t'.waiting = t.waiting ++ [t.nextPrompt] ∧ t.phase.requestId? ≠ none ∧ t'.nextPrompt = t.nextPrompt + 1)
  | sends (e : Entry) (prompt : List Json)
      (log : t'.log = t.log ++ [e, .prompted t.nextRequest t.nextPrompt prompt, .accepted t.nextPrompt])
      (plain : e.Plain) (idle : t.phase.requestId? = none) (phase : t'.phase.requestId? = some t.nextRequest)
      (requests : t'.nextRequest = t.nextRequest + 1) (prompts : t'.nextPrompt = t.nextPrompt + 1)
      (running : t'.running = true) (waits : t'.waiting = t.waiting)
  | closes (e : Entry) (id : Nat) (result : TurnResult) (more : List Entry)
      (log : t'.log = t.log ++ e :: .turnComplete (some id) result :: more) (plain : e.Plain)
      (causes : e.causes (.turnComplete (some id) result)) (tail : ∀ e ∈ more, e.Plain)
      (phase : t.phase.requestId? = some id) (idle : t'.phase.requestId? = none)
      (requests : t.nextRequest ≤ t'.nextRequest) (prompts : t'.nextPrompt = t.nextPrompt) (running : t'.running = true)
      (waits : t'.waiting = [] ∨ broken ∧ t'.waiting = t.waiting.tail)
  | relays (e : Entry) (id : Nat) (result : TurnResult) (number : Nat) (prompt : List Json)
      (log : t'.log = t.log ++
        [e, .turnComplete (some id) result, .prompted t.nextRequest number prompt, .accepted number])
      (plain : e.Plain) (causes : e.causes (.turnComplete (some id) result)) (phase : t.phase.requestId? = some id)
      (next : t'.phase.requestId? = some t.nextRequest) (requests : t'.nextRequest = t.nextRequest + 1)
      (prompts : t'.nextPrompt = t.nextPrompt) (running : t'.running = true) (waits : t.waiting = number :: t'.waiting)
  | leaves (more : List Entry) (log : t'.log = t.log ++ more) (plain : ∀ e ∈ more, e.Plain)
      (requests : t'.nextRequest = t.nextRequest) (prompts : t'.nextPrompt = t.nextPrompt)
      (running : t'.running = false)
      (waits : t'.waiting = t.waiting) (last : t.phase.requestId? = none ∨ ∃ e ∈ more.getLast?, e.ends = true)

theorem plain_nil : ∀ e ∈ ([] : List Entry), e.Plain := fun _ he => absurd he List.not_mem_nil

theorem plain_one {e : Entry} (h : e.Plain) : ∀ e' ∈ [e], e'.Plain := fun e' he' => by
  rw [List.mem_singleton.mp he']
  exact h

theorem plain_two {e e' : Entry} (h : e.Plain) (h' : e'.Plain) : ∀ d ∈ [e, e'], d.Plain := fun d hd => by
  obtain rfl | hd := List.mem_cons.mp hd
  · exact h
  · exact plain_one h' d hd

theorem log_three (l : List Entry) (a b c : Entry) : ((l ++ [a]) ++ [b]) ++ [c] = l ++ [a, b, c] := by
  simp

theorem idle_iff {phase : PromptPhase} : phase.isIdle = true ↔ phase.requestId? = none := by
  cases phase <;> simp [PromptPhase.isIdle, PromptPhase.requestId?]

namespace Task

variable {broken : Prop}

/-- A prompt is handed over while no turn is open. -/
theorem sendPrompt_moves {t : Task} {e : Entry} (hrunning : t.running = true) (hidle : t.phase.requestId? = none)
    (hplain : e.Plain) (config : Config) (prompt : List Json) (what : String) (written : Except String Unit) :
    Moves broken t (sendPrompt { t.record e with nextPrompt := t.nextPrompt + 1 } config t.nextPrompt prompt what
      written) := by
  cases written with
  -- a broken write completes a turn that was never opened, under no id
  | error err =>
      refine .keeps [e, .turnComplete none _] (List.append_assoc _ _ _) (plain_two hplain ⟨rfl, rfl, rfl⟩) rfl
        (Nat.le_succ _) (Nat.le_succ _) hrunning (.inl rfl)
  | ok _ =>
      exact .sends e prompt (by simp [sendPrompt, record]) hplain hidle rfl rfl rfl hrunning rfl

theorem refuse_moves {t : Task} {e : Entry} (hrunning : t.running = true) (hplain : e.Plain) (config : Config)
    (error : String) : Moves broken t (refuse { t.record e with nextPrompt := t.nextPrompt + 1 } config error) :=
  .keeps [e, .turnComplete none _] (List.append_assoc _ _ _) (plain_two hplain ⟨rfl, rfl, rfl⟩) rfl le_rfl
    (Nat.le_succ _) hrunning (.inl rfl)

theorem handleStart_moves {t : Task} (hrunning : t.running = true) (config : Config) (payload : Json)
    (written : Except String Unit) :
    Moves broken t ((t.record (.took (.start payload))).handleStart config payload written) := by
  have htook : (Entry.took (.start payload)).Plain := ⟨rfl, rfl, rfl⟩
  unfold handleStart
  dsimp only
  split
  · rename_i hidle
    split
    · exact refuse_moves hrunning htook config _
    · exact sendPrompt_moves hrunning (idle_iff.mp hidle) htook config _ _ written
  · exact refuse_moves hrunning htook config _

theorem handlePrompt_moves {t : Task} (hrunning : t.running = true) (config : Config) (parts : List Json)
    (written : Except String Unit) :
    Moves broken t ((t.record (.took (.prompt parts))).handlePrompt config parts written) := by
  have htook : (Entry.took (.prompt parts)).Plain := ⟨rfl, rfl, rfl⟩
  unfold handlePrompt
  dsimp only
  split
  · rename_i hidle
    split
    · exact refuse_moves hrunning htook config _
    · exact sendPrompt_moves hrunning (idle_iff.mp hidle) htook config _ _ written
  -- while a turn is open the prompt waits
  · rename_i hbusy
    refine .keeps [.took (.prompt parts)] rfl (plain_one htook) rfl le_rfl (Nat.le_succ _) hrunning (.inr ⟨?_, ?_, rfl⟩)
    · exact List.map_append
    · exact fun hidle => hbusy (idle_iff.mpr hidle)

/-- The response to the open turn: the next prompt of the queue is sent, if it can be. -/
theorem handleResponse_moves {t : Task} (hrunning : t.running = true) (config : Config) (resp : RpcResponse)
    (hphase : t.phase.requestId? = some resp.id) (written : Except String Unit)
    (hbroken : ∀ e, written = .error e → broken) :
    Moves broken t ((t.record (.received (.response resp))).handleResponse config resp written) := by
  have hplain : (Entry.received (.response resp)).Plain := ⟨rfl, rfl, rfl⟩
  have hcauses : ∀ result, (Entry.received (.response resp)).causes (.turnComplete (some resp.id) result) :=
    fun _ _ hid => Option.some.inj hid
  have hended : ∀ {pending more}, pending = [] ∨ broken ∧ pending = t.pendingPrompts.tail →
      (∀ e ∈ more, Entry.Plain e) →
      ∀ {t' : Task} {result}, t.nextRequest ≤ t'.nextRequest → t'.nextPrompt = t.nextPrompt → t'.running = true →
        t'.phase = .idle → t'.pendingPrompts = pending →
        t'.log = t.log ++ .received (.response resp) :: .turnComplete (some resp.id) result :: more →
        Moves broken t t' := by
    intro pending more hpending hmore t' result hrequests hprompts hstill hidle hwaits hlog
    refine .closes _ resp.id result more hlog hplain (hcauses result) hmore hphase (by rw [hidle]; rfl) hrequests
      hprompts hstill ?_
    unfold waiting
    rw [hwaits]
    obtain rfl | ⟨hbroke, rfl⟩ := hpending
    · exact .inl rfl
    · exact .inr ⟨hbroke, List.map_tail⟩
  unfold handleResponse
  dsimp only
  split
  · exact hended (.inl rfl) plain_nil le_rfl rfl hrunning rfl rfl (List.append_assoc _ _ _)
  · unfold drainQueue
    split
    · rename_i hempty
      have hnone : t.pendingPrompts = [] := hempty
      exact hended (.inl rfl) plain_nil le_rfl rfl hrunning rfl hnone (List.append_assoc _ _ _)
    · rename_i number parts rest hqueue
      have hpending : t.pendingPrompts = (number, parts) :: rest := hqueue
      have hrest : rest = t.pendingPrompts.tail := by
        rw [hpending]
        rfl
      dsimp only
      split
      · rename_i e htranslate
        cases htranslate
      · cases written with
        | error err =>
            exact hended (.inr ⟨hbroken err rfl, hrest⟩) (plain_one (e := .turnComplete none _) ⟨rfl, rfl, rfl⟩)
              (Nat.le_succ _) rfl hrunning rfl
              rfl (log_three _ _ _ _)
        | ok _ =>
            refine .relays _ resp.id (buildTurnResult config resp t.phase.history) number _
              (by simp [sendPrompt, record]; rfl)
              hplain (hcauses _) hphase rfl rfl rfl hrunning ?_
            rw [waiting, hpending]
            rfl

theorem handleMessage_moves {t : Task} (hrunning : t.running = true) (config : Config) (msg : RpcMessage)
    (written : Except String Unit)
    (hbroken : ∀ resp e, msg = .response resp → written = .error e → t.phase.requestId? = some resp.id → broken) :
    Moves broken t ((t.record (.received msg)).handleMessage config msg written) := by
  have hplain : (Entry.received msg).Plain := ⟨rfl, rfl, rfl⟩
  have hsame : Moves broken t (t.record (.received msg)) :=
    .keeps [.received msg] rfl (plain_one hplain) rfl le_rfl le_rfl hrunning (.inl rfl)
  have htold : ∀ answer, Moves broken t ((t.record (.received msg)).record (.told answer)) := fun answer =>
    .keeps [.received msg, .told answer] (List.append_assoc _ _ _) (plain_two hplain ⟨rfl, rfl, rfl⟩) rfl le_rfl le_rfl
      hrunning (.inl rfl)
  unfold handleMessage
  cases msg with
  | response resp =>
      dsimp only
      split
      · rename_i hphase
        exact handleResponse_moves hrunning config resp hphase written fun e herror => hbroken resp e rfl herror hphase
      · exact hsame
  | notification method params =>
      dsimp only
      split
      · unfold handleUpdate
        split
        · exact hsame
        · split
          · exact hsame
          · refine .keeps [.received _, .message _] (List.append_assoc _ _ _) (plain_two hplain ⟨rfl, rfl, rfl⟩) ?_
              le_rfl
              le_rfl hrunning (.inl rfl)
            show (t.phase.withHistory _).requestId? = _
            cases t.phase <;> rfl
      · exact hsame
  | request id method params =>
      dsimp only
      unfold handleRequest
      split
      · split
        · exact htold _
        · split
          · exact hsame
          · exact htold _
      · exact htold _
  | parseError line =>
      dsimp only
      split
      · exact hsame
      · rename_i requestId hphase
        exact .closes _ requestId _ [] (List.append_assoc _ _ _) hplain (fun _ _ => trivial) plain_nil hphase rfl le_rfl
          rfl hrunning (.inl rfl)

/-- A cancel that the agent is told about. -/
theorem beginCancel_moves {t : Task} {command : AgentCommand} (hrunning : t.running = true) (config : Config) :
    Moves broken t { (t.record (.took command)).record (.told (sessionCancel config)) with
      phase := t.phase.beginCancel } := by
  refine .keeps [.took command, .told (sessionCancel config)] (List.append_assoc _ _ _)
    (plain_two ⟨rfl, rfl, rfl⟩ ⟨rfl, rfl, rfl⟩) ?_ le_rfl le_rfl hrunning (.inl rfl)
  show t.phase.beginCancel.requestId? = _
  cases t.phase <;> rfl

theorem handleCommand_moves {t : Task} (hrunning : t.running = true) (config : Config) (command : AgentCommand)
    (written : Except String Unit) : Moves broken t (t.handleCommand config command written) := by
  have hplain : (Entry.took command).Plain := ⟨rfl, rfl, rfl⟩
  have hsame : Moves broken t (t.record (.took command)) :=
    .keeps [.took command] rfl (plain_one hplain) rfl le_rfl le_rfl hrunning (.inl rfl)
  unfold handleCommand
  cases command with
  | start payload => exact handleStart_moves hrunning config payload written
  | prompt parts => exact handlePrompt_moves hrunning config parts written
  | cancel =>
      dsimp only
      unfold handleCancel
      split
      · exact beginCancel_moves hrunning config
      · rename_i hidle
        have hnone : t.phase = .idle := hidle
        refine .leaves [.took .cancel, .turnComplete none _] (List.append_assoc _ _ _)
          (plain_two hplain ⟨rfl, rfl, rfl⟩) rfl rfl rfl rfl (.inl ?_)
        rw [hnone]
        rfl
      · exact hsame
  | stopTurn =>
      dsimp only
      unfold handleStopTurn
      split
      · exact beginCancel_moves hrunning config
      · exact hsame
  | stop => exact .leaves [.took .stop] rfl (plain_one hplain) rfl rfl rfl rfl (.inr ⟨_, rfl, rfl⟩)

/-- The write of a queued prompt fails. -/
def BreaksOff (t : Task) (pick : Pick) : Prop :=
  ∃ resp e, pick = .message (.response resp) (.error e) ∧ t.phase.requestId? = some resp.id

/-- **What one step can do.** -/
theorem iterate_moves {t : Task} (hrunning : t.running = true) (config : Config) (pick : Pick) :
    Moves (t.BreaksOff pick) t (iterate config t pick) := by
  unfold iterate
  rw [if_pos hrunning]
  cases pick with
  | message msg written =>
      refine handleMessage_moves hrunning config msg written fun resp e hresp herror hphase => ⟨resp, e, ?_, hphase⟩
      rw [hresp, herror]
  | exited exitInfo =>
      exact .leaves [.died _] rfl (plain_one ⟨rfl, rfl, rfl⟩) rfl rfl rfl rfl (.inr ⟨_, rfl, rfl⟩)
  | command command written => exact handleCommand_moves hrunning config command written
  | closed => exact .leaves [.closed] rfl (plain_one ⟨rfl, rfl, rfl⟩) rfl rfl rfl rfl (.inr ⟨_, rfl, rfl⟩)
  | graceOver =>
      dsimp only
      split
      · rename_i requestId history hphase
        refine .closes .graceOver requestId _ [] (List.append_assoc _ _ _) ⟨rfl, rfl, rfl⟩ (fun _ _ => trivial)
          plain_nil
          ?_ rfl le_rfl rfl hrunning (.inl rfl)
        rw [hphase]
        rfl
      · exact .keeps [] (List.append_nil _).symm plain_nil rfl le_rfl le_rfl hrunning (.inl rfl)
  | stalled seconds =>
      dsimp only
      split
      · exact .leaves [.died _] rfl (plain_one ⟨rfl, rfl, rfl⟩) rfl rfl rfl rfl (.inr ⟨_, rfl, rfl⟩)
      · exact .keeps [] (List.append_nil _).symm plain_nil rfl le_rfl le_rfl hrunning (.inl rfl)

end Task

/-! ## Every run -/

theorem prompted_append (l l' : List Entry) : prompted (l ++ l') = prompted l ++ prompted l' := List.filterMap_append

theorem sent_append (l l' : List Entry) : sent (l ++ l') = sent l ++ sent l' := List.filterMap_append

theorem plain_lists {l : List Entry} (h : ∀ e ∈ l, e.Plain) : prompted l = [] ∧ sent l = [] :=
  ⟨List.filterMap_eq_nil_iff.mpr fun e he => (h e he).1, List.filterMap_eq_nil_iff.mpr fun e he => (h e he).2.1⟩

/-- What holds of the log in every state reached. -/
structure Tracked (t : Task) : Prop where
  turns : ∃ turn, follow none t.log = some turn ∧ (t.running = true → turn = t.phase.requestId?) ∧
    (t.running = false → turn = none ∨ ∃ e ∈ t.log.getLast?, e.ends = true)
  causes : t.log.IsChain Entry.causes
  ids : (prompted t.log).Pairwise (· < ·) ∧ ∀ id ∈ prompted t.log, id < t.nextRequest
  once : (sent t.log ++ t.waiting).Nodup ∧ ∀ n ∈ sent t.log ++ t.waiting, n < t.nextPrompt

theorem causes_of_open {e e' : Entry} (h : e'.closes = none) : e.causes e' := fun id hid => by
  rw [h] at hid
  cases hid

/-- Parts of the log that close no turn unasked. -/
theorem causes_append {l more : List Entry} (h : l.IsChain Entry.causes) (hmore : more.IsChain Entry.causes)
    (hhead : ∀ e ∈ more.head?, e.closes = none) : (l ++ more).IsChain Entry.causes :=
  h.append hmore fun _ _ e he => causes_of_open (hhead e he)

theorem plain_chain {l : List Entry} (h : ∀ e ∈ l, e.Plain) : l.IsChain Entry.causes :=
  (List.pairwise_of_forall_mem_list fun _ _ e' he' => causes_of_open (h e' he').2.2).isChain

theorem plain_head {l : List Entry} (h : ∀ e ∈ l, e.Plain) : ∀ e ∈ l.head?, e.closes = none :=
  fun e he => (h e (List.mem_of_mem_head? he)).2.2

/-- The end of a turn, and what comes after it. -/
theorem closes_chain {e e' : Entry} {more : List Entry} (hcauses : e.causes e') (hmore : more.IsChain Entry.causes)
    (hhead : ∀ d ∈ more.head?, d.closes = none) : (e :: e' :: more).IsChain Entry.causes :=
  (List.isChain_cons_cons.mpr ⟨hcauses, (List.isChain_singleton e').append hmore fun _ _ d hd =>
    causes_of_open (hhead d hd)⟩)

/-- A new id comes after those drawn before. -/
theorem ids_concat {l : List Entry} {next : Nat} (h : (prompted l).Pairwise (· < ·) ∧ ∀ id ∈ prompted l, id < next) :
    (prompted l ++ [next]).Pairwise (· < ·) ∧ ∀ id ∈ prompted l ++ [next], id < next + 1 := by
  refine ⟨List.pairwise_append.mpr ⟨h.1, List.pairwise_singleton _ _, fun id hid next' hnext => ?_⟩, fun id hid => ?_⟩
  · rw [List.mem_singleton.mp hnext]
    exact h.2 id hid
  · obtain hid | hid := List.mem_append.mp hid
    · exact (h.2 id hid).trans (Nat.lt_succ_self next)
    · rw [List.mem_singleton.mp hid]
      exact Nat.lt_succ_self next

/-- A new number in a list of those given out before. -/
theorem once_insert {l r : List Nat} {k : Nat} (h : (l ++ r).Nodup ∧ ∀ n ∈ l ++ r, n < k) :
    (l ++ k :: r).Nodup ∧ ∀ n ∈ l ++ k :: r, n < k + 1 := by
  have hperm : (l ++ k :: r).Perm (k :: (l ++ r)) := List.perm_middle
  refine ⟨hperm.nodup_iff.mpr (List.nodup_cons.mpr ⟨fun hmem => ?_, h.1⟩), fun n hn => ?_⟩
  · exact Nat.lt_irrefl k (h.2 k hmem)
  · obtain rfl | hn := List.mem_cons.mp (hperm.mem_iff.mp hn)
    · exact Nat.lt_succ_self n
    · exact (h.2 n hn).trans (Nat.lt_succ_self k)

/-- The requests that are prompted in one step: none, or the next one. -/
theorem Moves.prompted {broken : Prop} {t t' : Task} (h : Moves broken t t') :
    (prompted t'.log = prompted t.log ∧ t.nextRequest ≤ t'.nextRequest) ∨
      (prompted t'.log = prompted t.log ++ [t.nextRequest] ∧ t'.nextRequest = t.nextRequest + 1) := by
  cases h with
  | keeps more log plain phase requests =>
      refine .inl ⟨?_, requests⟩
      rw [log, prompted_append, (plain_lists plain).1, List.append_nil]
  | sends e prompt log plain idle phase requests =>
      refine .inr ⟨?_, requests⟩
      rw [log, prompted_append, prompted_plain_cons plain]
      rfl
  | closes e id result more log plain causes tail phase idle requests =>
      refine .inl ⟨?_, requests⟩
      rw [log, prompted_append, prompted_plain_cons plain]
      exact (congrArg _ (plain_lists tail).1).trans (List.append_nil _)
  | relays e id result number prompt log plain causes phase next requests =>
      refine .inr ⟨?_, requests⟩
      rw [log, prompted_append, prompted_plain_cons plain]
      rfl
  | leaves more log plain requests =>
      refine .inl ⟨?_, requests.ge⟩
      rw [log, prompted_append, (plain_lists plain).1, List.append_nil]

/-- The prompts that are sent and that wait: some may go in one step, or one is taken up. -/
theorem Moves.queue {broken : Prop} {t t' : Task} (h : Moves broken t t') :
    ((sent t'.log ++ t'.waiting).Sublist (sent t.log ++ t.waiting) ∧ t.nextPrompt ≤ t'.nextPrompt) ∨
      ∃ l r, sent t.log ++ t.waiting = l ++ r ∧ sent t'.log ++ t'.waiting = l ++ t.nextPrompt :: r ∧
        t'.nextPrompt = t.nextPrompt + 1 := by
  cases h with
  | keeps more log plain phase requests prompts running waits =>
      have hsent : sent t'.log = sent t.log := by
        rw [log, sent_append, (plain_lists plain).2, List.append_nil]
      rw [hsent]
      obtain hwaits | ⟨hwaits, -, hnext⟩ := waits
      · exact .inl ⟨by rw [hwaits], prompts⟩
      · refine .inr ⟨sent t.log ++ t.waiting, [], (List.append_nil _).symm, ?_, hnext⟩
        rw [hwaits, List.append_assoc]
  | sends e prompt log plain idle phase requests prompts running waits =>
      refine .inr ⟨sent t.log, t.waiting, rfl, ?_, prompts⟩
      rw [log, sent_append, sent_plain_cons plain, waits, List.append_assoc]
      rfl
  | closes e id result more log plain causes tail phase idle requests prompts running waits =>
      have hsent : sent t'.log = sent t.log := by
        rw [log, sent_append, sent_plain_cons plain]
        exact (congrArg _ (plain_lists tail).2).trans (List.append_nil _)
      have hwaits : t'.waiting.Sublist t.waiting := by
        obtain hnone | ⟨-, htail⟩ := waits
        · rw [hnone]
          exact List.nil_sublist _
        · rw [htail]
          exact List.tail_sublist _
      rw [hsent]
      exact .inl ⟨hwaits.append_left _, prompts.ge⟩
  | relays e id result number prompt log plain causes phase next requests prompts running waits =>
      refine .inl ⟨?_, prompts.ge⟩
      rw [log, sent_append, sent_plain_cons plain, waits, List.append_assoc]
      exact List.Sublist.refl _
  | leaves more log plain requests prompts running waits =>
      refine .inl ⟨?_, prompts.ge⟩
      rw [log, sent_append, (plain_lists plain).2, List.append_nil, waits]

/-- No turn is closed unasked in one step. -/
theorem Moves.causes {broken : Prop} {t t' : Task} (hstep : Moves broken t t') (h : t.log.IsChain Entry.causes) :
    t'.log.IsChain Entry.causes := by
  cases hstep with
  | keeps more log plain =>
      rw [log]
      exact causes_append h (plain_chain plain) (plain_head plain)
  | sends e prompt log plain =>
      rw [log]
      refine causes_append h ?_ fun d hd => ?_
      · refine (List.pairwise_of_forall_mem_list fun _ _ d hd => causes_of_open ?_).isChain
        simp only [List.mem_cons, List.not_mem_nil, or_false] at hd
        obtain rfl | rfl | rfl := hd
        · exact plain.2.2
        · rfl
        · rfl
      · obtain rfl : e = d := Option.some.inj hd
        exact plain.2.2
  | closes e id result more log plain causes tail =>
      rw [log]
      refine causes_append h (closes_chain causes (plain_chain tail) (plain_head tail)) fun d hd => ?_
      obtain rfl : e = d := Option.some.inj hd
      exact plain.2.2
  | relays e id result number prompt log plain causes =>
      rw [log]
      refine causes_append h (closes_chain causes ?_ fun d hd => ?_) fun d hd => ?_
      · exact List.isChain_cons_cons.mpr ⟨causes_of_open rfl, List.isChain_singleton _⟩
      · obtain rfl := Option.some.inj hd
        rfl
      · obtain rfl : e = d := Option.some.inj hd
        exact plain.2.2
  | leaves more log plain =>
      rw [log]
      exact causes_append h (plain_chain plain) (plain_head plain)

/-- The turn that the log leaves open is the one of the phase, in one step. -/
theorem Moves.turns {broken : Prop} {t t' : Task} (hstep : Moves broken t t')
    (hfollow : follow none t.log = some t.phase.requestId?) :
    ∃ turn, follow none t'.log = some turn ∧ (t'.running = true → turn = t'.phase.requestId?) ∧
      (t'.running = false → turn = none ∨ ∃ e ∈ t'.log.getLast?, e.ends = true) := by
  have hturn : ∀ {more}, t'.log = t.log ++ more → follow t.phase.requestId? more = some t'.phase.requestId? →
      t'.running = true → ∃ turn, follow none t'.log = some turn ∧ (t'.running = true → turn = t'.phase.requestId?) ∧
        (t'.running = false → turn = none ∨ ∃ e ∈ t'.log.getLast?, e.ends = true) := by
    intro more hlog hmore hstill
    refine ⟨t'.phase.requestId?, ?_, fun _ => rfl, fun hended => by rw [hstill] at hended; cases hended⟩
    rw [hlog, follow_append, hfollow]
    exact hmore
  cases hstep with
  | keeps more log plain phase requests prompts running =>
      exact hturn log (by rw [phase]; exact follow_plain plain) running
  | sends e prompt log plain idle phase requests prompts running =>
      refine hturn log ?_ running
      rw [idle, phase, follow_plain_cons plain]
      rfl
  | closes e id result more log plain causes tail phase idle requests prompts running =>
      refine hturn log ?_ running
      rw [phase, idle, follow_plain_cons plain, follow_closes]
      exact follow_plain tail
  | relays e id result number prompt log plain causes phase next requests prompts running =>
      refine hturn log ?_ running
      rw [phase, next, follow_plain_cons plain, follow_closes]
      rfl
  | leaves more log plain requests prompts running waits last =>
      refine ⟨t.phase.requestId?, ?_, fun hstill => (by rw [running] at hstill; cases hstill), fun _ => ?_⟩
      · rw [log, follow_append, hfollow]
        exact follow_plain plain
      · obtain hidle | ⟨e, he, hends⟩ := last
        · exact .inl hidle
        · refine .inr ⟨e, ?_, hends⟩
          rw [log, List.getLast?_append, he]
          rfl

/-- **One step** keeps the log in order. -/
theorem Tracked.step {broken : Prop} {t t' : Task} (h : Tracked t) (hrunning : t.running = true)
    (hstep : Moves broken t t') : Tracked t' := by
  obtain ⟨turn, hfollow, hphase, -⟩ := h.turns
  obtain rfl := hphase hrunning
  refine ⟨hstep.turns hfollow, hstep.causes h.causes, ?_, ?_⟩
  · obtain ⟨hsame, hle⟩ | ⟨hnext, hdrawn⟩ := hstep.prompted
    · rw [hsame]
      exact ⟨h.ids.1, fun id hid => (h.ids.2 id hid).trans_le hle⟩
    · rw [hnext, hdrawn]
      exact ids_concat h.ids
  · obtain ⟨hsub, hle⟩ | ⟨l, r, hbefore, hafter, hdrawn⟩ := hstep.queue
    · exact ⟨h.once.1.sublist hsub, fun n hn => (h.once.2 n (hsub.subset hn)).trans_le hle⟩
    · rw [hafter, hdrawn]
      exact once_insert (hbefore ▸ h.once)

/-- The write of a queued prompt does not fail while others wait behind it. -/
def Writable (t : Task) (pick : Pick) : Prop := t.BreaksOff pick → t.pendingPrompts.length ≤ 1

/-- Prompts are sent as they came, and none waits without a turn. -/
structure InOrder (t : Task) : Prop where
  idle : t.running = true → t.phase.requestId? = none → t.waiting = []
  sorted : (sent t.log ++ t.waiting).Pairwise (· < ·)

theorem sorted_concat {l : List Nat} {next : Nat} (h : l.Pairwise (· < ·)) (hlt : ∀ n ∈ l, n < next) :
    (l ++ [next]).Pairwise (· < ·) :=
  List.pairwise_append.mpr ⟨h, List.pairwise_singleton _ _, fun n hn m hm => by
    rw [List.mem_singleton.mp hm]
    exact hlt n hn⟩

/-- **One step** keeps them in order, if no write breaks off while prompts wait. -/
theorem InOrder.step {t t' : Task} {pick : Pick} (h : InOrder t) (htracked : Tracked t) (hrunning : t.running = true)
    (hstep : Moves (t.BreaksOff pick) t t') (hwritable : Writable t pick) : InOrder t' := by
  cases hstep with
  | keeps more log plain phase requests prompts running waits =>
      have hsent : sent t'.log = sent t.log := by
        rw [log, sent_append, (plain_lists plain).2, List.append_nil]
      obtain hwaits | ⟨hwaits, hbusy, -⟩ := waits
      · refine ⟨fun _ hidle => ?_, by rw [hsent, hwaits]; exact h.sorted⟩
        rw [hwaits]
        exact h.idle hrunning (phase ▸ hidle)
      · refine ⟨fun _ hidle => absurd (phase ▸ hidle) hbusy, ?_⟩
        rw [hsent, hwaits, ← List.append_assoc]
        exact sorted_concat h.sorted htracked.once.2
  | sends e prompt log plain idle phase requests prompts running waits =>
      have hnone := h.idle hrunning idle
      have hsent : sent t'.log = sent t.log ++ [t.nextPrompt] := by
        rw [log, sent_append, sent_plain_cons plain]
        rfl
      have hsorted := h.sorted
      have hlt := htracked.once.2
      rw [hnone, List.append_nil] at hsorted hlt
      refine ⟨fun _ _ => waits.trans hnone, ?_⟩
      rw [hsent, waits, hnone, List.append_nil]
      exact sorted_concat hsorted hlt
  | closes e id result more log plain causes tail phase idle requests prompts running waits =>
      have hsent : sent t'.log = sent t.log := by
        rw [log, sent_append, sent_plain_cons plain]
        exact (congrArg _ (plain_lists tail).2).trans (List.append_nil _)
      have hnone : t'.waiting = [] := by
        obtain hnone | ⟨hbroken, htail⟩ := waits
        · exact hnone
        · have hlen := hwritable hbroken
          rw [htail, ← List.length_eq_zero_iff, List.length_tail, Task.waiting, List.length_map]
          omega
      refine ⟨fun _ _ => hnone, ?_⟩
      rw [hsent, hnone, List.append_nil]
      exact h.sorted.sublist (List.sublist_append_left _ _)
  | relays e id result number prompt log plain causes phase next requests prompts running waits =>
      have hsent : sent t'.log = sent t.log ++ [number] := by
        rw [log, sent_append, sent_plain_cons plain]
        rfl
      refine ⟨fun _ hidle => ?_, ?_⟩
      · rw [next] at hidle
        cases hidle
      · rw [hsent, List.append_assoc, List.singleton_append, ← waits]
        exact h.sorted
  | leaves more log plain requests prompts running waits last =>
      refine ⟨fun hstill => ?_, ?_⟩
      · rw [running] at hstill
        cases hstill
      · rw [log, sent_append, (plain_lists plain).2, List.append_nil, waits]
        exact h.sorted

theorem tracked_new : Tracked Task.new :=
  ⟨⟨none, rfl, fun _ => rfl, nofun⟩, List.isChain_nil, ⟨List.Pairwise.nil, nofun⟩, List.nodup_nil, nofun⟩

theorem Tracked.iterate {t : Task} (h : Tracked t) (config : Config) (pick : Pick) :
    Tracked (Task.iterate config t pick) := by
  cases hrunning : t.running with
  | true => exact h.step hrunning (Task.iterate_moves hrunning config pick)
  | false =>
      unfold Task.iterate
      rw [hrunning]
      exact h

theorem tracked_run (config : Config) (picks : List Pick) : Tracked (Task.run config picks) := by
  unfold Task.run
  have hnew := tracked_new
  generalize Task.new = t at hnew
  induction picks generalizing t with
  | nil => exact hnew
  | cons pick picks ih => exact ih _ (hnew.iterate config pick)

theorem inOrder_run (config : Config) {picks : List Pick}
    (h : Along (Task.iterate config) Writable Task.new picks) : InOrder (Task.run config picks) := by
  have hnew : Tracked Task.new ∧ InOrder Task.new := ⟨tracked_new, fun _ _ => rfl, List.Pairwise.nil⟩
  refine (h.invariant (I := fun t => Tracked t ∧ InOrder t) (fun t pick hboth hwritable => ?_) hnew).2
  refine ⟨hboth.1.iterate config pick, ?_⟩
  cases hrunning : t.running with
  | true => exact hboth.2.step hboth.1 hrunning (Task.iterate_moves hrunning config pick) hwritable
  | false =>
      unfold Task.iterate
      rw [hrunning]
      exact hboth.2

/-- What answers a `Start` that comes while a turn is open follows it at once. -/
def AnswersStarts (config : Config) (log : List Entry) : Prop :=
  ∀ before payload after, log = before ++ .took (.start payload) :: after →
    after ≠ [] ∧ (prompted before ≠ completed before → after.head? = some (refused config))

/-- While the task runs, a turn is open in the log exactly if the phase says so. -/
theorem Tracked.open_iff {t : Task} (h : Tracked t) (hrunning : t.running = true) :
    prompted t.log ≠ completed t.log ↔ t.phase.isIdle = false := by
  obtain ⟨turn, hfollow, hphase, -⟩ := h.turns
  obtain rfl := hphase hrunning
  have heq := prompted_eq hfollow
  rw [Option.toList_none, List.nil_append] at heq
  rw [heq, ← Bool.not_eq_true, not_iff_not, idle_iff]
  cases t.phase.requestId? with
  | none => simp
  | some id => simp

/-- **One step**: what it says of a `Start` comes with it. -/
theorem AnswersStarts.iterate {config : Config} {t : Task} (h : AnswersStarts config t.log) (htracked : Tracked t)
    (pick : Pick) : AnswersStarts config (Task.iterate config t pick).log := by
  cases hrunning : t.running with
  | false =>
      rw [Task.iterate_ended hrunning]
      exact h
  | true =>
      obtain ⟨more, hlog, hsays⟩ := Task.iterate_says hrunning config pick
      rw [hlog]
      -- a `Start` among the new entries is the first of them
      have hfirst : ∀ {payload after}, more = .took (.start payload) :: after →
          after ≠ [] ∧ (prompted t.log ≠ completed t.log → after.head? = some (refused config)) := by
        rintro payload after rfl
        obtain ⟨hsome, hrefused⟩ := hsays.answered ⟨_, rfl, rfl⟩
        exact ⟨hsome, fun hopen => hrefused ((htracked.open_iff hrunning).mp hopen)⟩
      intro before payload after hsplit
      obtain ⟨rest, rfl, hmore⟩ | ⟨rest, hold, hafter⟩ := List.append_eq_append_iff.mp hsplit
      · cases rest with
        | nil =>
            rw [List.append_nil]
            exact hfirst hmore
        | cons e rest =>
            have hstart := hsays.later (.took (.start payload)) (by
              rw [hmore]
              exact List.mem_append_right _ List.mem_cons_self)
            cases hstart
      · cases rest with
        | nil =>
            rw [List.append_nil] at hold
            rw [← hold]
            exact hfirst hafter.symm
        | cons e rest =>
            rw [List.cons_append, List.cons.injEq] at hafter
            obtain ⟨rfl, rfl⟩ := hafter
            obtain ⟨hsome, hrefused⟩ := h before payload rest hold
            obtain ⟨e, rest, rfl⟩ := List.exists_cons_of_ne_nil hsome
            exact ⟨List.cons_ne_nil _ _, hrefused⟩

theorem answersStarts_run (config : Config) (picks : List Pick) :
    AnswersStarts config (Task.run config picks).log := by
  have hnew : Tracked Task.new ∧ AnswersStarts config Task.new.log :=
    ⟨tracked_new, fun before payload after hsplit => by simp [Task.new] at hsplit⟩
  unfold Task.run
  generalize Task.new = t at hnew
  induction picks generalizing t with
  | nil => exact hnew.2
  | cons pick picks ih => exact ih _ ⟨hnew.1.iterate config pick, hnew.2.iterate hnew.1 pick⟩

/-- **One prompt at a time.** In every run of the ACP executor: at every moment the turns that are complete are those
of the prompts sent so far in their order, all but at most the last; a turn is only completed for the agent's answer,
or given up for a malformed line or a cancel that is not answered in time; no id and no prompt is used twice; while
the task runs the turn that is not complete is the one it waits for, and it only ends without completing it when the
process died or it was told to end; a `Start` that comes while a turn is open is refused at once with an end of its
own, and ends under no id are otherwise only those of a turn that could not be opened and of a `Cancel` between
turns, one each; and unless a write fails while prompts wait, prompts are sent in the order they were handed over. -/
theorem acp_prompts_in_turn (config : Config) (picks : List Pick) :
    (∀ before after, (Task.run config picks).log = before ++ after →
        ∃ turn : Option Nat, prompted before = completed before ++ turn.toList) ∧
      (Task.run config picks).log.IsChain Entry.causes ∧
      (prompted (Task.run config picks).log).Nodup ∧
      (sent (Task.run config picks).log ++ (Task.run config picks).waiting).Nodup ∧
      ((Task.run config picks).running = true → prompted (Task.run config picks).log =
        completed (Task.run config picks).log ++ (Task.run config picks).phase.requestId?.toList) ∧
      ((Task.run config picks).running = false →
        prompted (Task.run config picks).log = completed (Task.run config picks).log ∨
          ∃ e ∈ (Task.run config picks).log.getLast?, e.ends = true) ∧
      AnswersStarts config (Task.run config picks).log ∧
      (Task.run config picks).log.countP Entry.unlabelled = Task.refusals config Task.new picks ∧
      (Along (Task.iterate config) Writable Task.new picks →
        (sent (Task.run config picks).log ++ (Task.run config picks).waiting).Pairwise (· < ·)) := by
  have h := tracked_run config picks
  obtain ⟨turn, hfollow, hstill, hended⟩ := h.turns
  refine ⟨fun before after hlog => ?_, h.causes, h.ids.1.imp Nat.ne_of_lt, h.once.1, fun hrunning => ?_,
    fun hrunning => ?_, answersStarts_run config picks, ?_,
    fun hwritable => (inOrder_run config hwritable).sorted⟩
  · rw [hlog, follow_append] at hfollow
    obtain ⟨turn', hbefore, -⟩ := Option.bind_eq_some_iff.mp hfollow
    exact ⟨turn', prompted_eq hbefore⟩
  · rw [← hstill hrunning]
    exact prompted_eq hfollow
  · obtain rfl | hlast := hended hrunning
    · have heq := prompted_eq hfollow
      rw [Option.toList_none, List.nil_append, List.append_nil] at heq
      exact .inl heq
    · exact .inr hlast
  · exact (Task.unlabelled_run config Task.new picks).trans (Nat.zero_add _)

/-! ## A turn that is given up -/

/-- The prompts the agent has not answered. -/
def outstanding (log : List Entry) : List Nat :=
  (prompted log).filter fun id => !log.any fun
    | .received (.response resp) => resp.id = id
    | _ => false

def somewhere : Config := ⟨"s", fun _ => ""⟩

/-- A turn is stopped, the agent does not answer in time, and the next prompt comes. -/
def givenUp : List Pick :=
  [.command (.prompt []) (.ok ()), .command .stopTurn (.ok ()), .graceOver, .command (.prompt []) (.ok ())]

theorem given_up_prompt_outstanding : outstanding (Task.run somewhere givenUp).log = [0, 1] ∧
    (Task.run somewhere givenUp).running = true := by
  decide +kernel

end Executors.Acp
end AgentBeacon
