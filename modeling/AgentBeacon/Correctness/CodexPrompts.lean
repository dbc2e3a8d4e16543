import AgentBeacon.Worker.Codex
import Mathlib.Data.List.Sublists
import Mathlib.Data.List.Range

/-!
# `Correctness.CodexPrompts` — the Codex executor keeps the prompts it accepted

An accepted prompt has been sent, or waits in the fallback input or among the deferred prompts. Every step of the
task moves prompts between these places, in the order they were accepted, and only the steps that end something
drop any: a `StopTurn` or `Cancel`, the death of the process, and the end of the task.
-/

namespace AgentBeacon
namespace Executors.Codex

/-! ## Where prompts are -/

/-- The app server took the request: it answered, and not with an error. -/
def Answer.taken : Answer → Bool
  | .response _ resp => (resp.get "error").isNone
  | _ => false

namespace Entry

/-- The prompts that an entry sends to the app server. A prompt that may not be steered is not sent. -/
def sends : Entry → List Nat
  | .asked request answer =>
      match request.carries with
      | .nothing => []
      | .own number => [number]
      | .steer number => if answer.taken then [number] else []
      | .waited numbers => numbers
  | _ => []

/-- Those among them that waited. -/
def leaves : Entry → List Nat
  | .asked request _ =>
      match request.carries with
      | .waited numbers => numbers
      | _ => []
  | _ => []

def accepts : Entry → List Nat
  | .accepted number => [number]
  | _ => []

/-- What may make prompts disappear. -/
def drops : Entry → Bool
  | .took .stopTurn | .took .cancel | .took .stop | .closed | .panicked | .event (.processDied _ _) => true
  | _ => false

/-- Nothing is sent and nothing accepted. -/
def Plain (e : Entry) : Prop := e.sends = [] ∧ e.leaves = [] ∧ e.accepts = []

theorem plain_of_drops {e : Entry} (h : e.drops = true) : e.Plain := by
  cases e with
  | asked => cases h
  | accepted => cases h
  | _ => exact ⟨rfl, rfl, rfl⟩

end Entry

def sent (log : List Entry) : List Nat := log.flatMap Entry.sends

def left (log : List Entry) : List Nat := log.flatMap Entry.leaves

def accepted (log : List Entry) : List Nat := log.flatMap Entry.accepts

/-- The prompts that wait, the next to leave first. A task that has ended holds none. -/
def Task.waiting (t : Task) : List Nat :=
  if t.running then (t.pendingFallbackInput.getD [] ++ t.deferredPrompts).map Deferred.number else []

/-- The numbers given out between two states. -/
def fresh (t t' : Task) : List Nat := List.range' t.nextPrompt (t'.nextPrompt - t.nextPrompt)

/-- What a part of the run logs, and what that means for the prompts. -/
structure Conserves (t : Task) (more : List Entry) (t' : Task) : Prop where
  log : t'.log = t.log ++ more
  next : t.nextPrompt ≤ t'.nextPrompt
  numbered : (accepted more).Sublist (fresh t t')
  once : ∀ n, (sent more).count n + t'.waiting.count n ≤ t.waiting.count n + (fresh t t').count n
  order : (left more ++ t'.waiting).Sublist (t.waiting ++ fresh t t')
  kept : (∀ e ∈ more, e.drops = false) →
    ∀ n, (sent more).count n + t'.waiting.count n = t.waiting.count n + (accepted more).count n

theorem fresh_trans {t t' t'' : Task} (h : t.nextPrompt ≤ t'.nextPrompt) (h' : t'.nextPrompt ≤ t''.nextPrompt) :
    fresh t t'' = fresh t t' ++ fresh t' t'' := by
  unfold fresh
  obtain ⟨a, ha⟩ := Nat.exists_eq_add_of_le h
  obtain ⟨b, hb⟩ := Nat.exists_eq_add_of_le h'
  rw [hb, ha, Nat.add_sub_cancel_left, Nat.add_sub_cancel_left, Nat.add_assoc, Nat.add_sub_cancel_left,
    List.range'_append_1]

theorem sent_append (l l' : List Entry) : sent (l ++ l') = sent l ++ sent l' := List.flatMap_append

theorem left_append (l l' : List Entry) : left (l ++ l') = left l ++ left l' := List.flatMap_append

theorem accepted_append (l l' : List Entry) : accepted (l ++ l') = accepted l ++ accepted l' := List.flatMap_append

namespace Conserves

variable {t t' t'' : Task} {more more' : List Entry}

/-- Parts of a run compose. -/
theorem trans (h : Conserves t more t') (h' : Conserves t' more' t'') : Conserves t (more ++ more') t'' where
  log := by rw [h'.log, h.log, List.append_assoc]
  next := h.next.trans h'.next
  numbered := by
    rw [accepted_append, fresh_trans h.next h'.next]
    exact h.numbered.append h'.numbered
  -- what waits in between cancels
  once n := by
    have hfirst := h.once n
    have hthen := h'.once n
    rw [sent_append, fresh_trans h.next h'.next, List.count_append, List.count_append]
    omega
  order := by
    rw [left_append, fresh_trans h.next h'.next, List.append_assoc, ← List.append_assoc t.waiting]
    refine (h'.order.append_left (left more)).trans ?_
    rw [← List.append_assoc]
    exact h.order.append_right _
  kept hclean n := by
    have hfirst := h.kept (fun e he => hclean e (List.mem_append_left _ he)) n
    have hthen := h'.kept (fun e he => hclean e (List.mem_append_right _ he)) n
    rw [sent_append, accepted_append, List.count_append, List.count_append]
    omega

theorem plain_lists (h : ∀ e ∈ more, e.Plain) : sent more = [] ∧ left more = [] ∧ accepted more = [] :=
  ⟨List.flatMap_eq_nil_iff.mpr fun e he => (h e he).1, List.flatMap_eq_nil_iff.mpr fun e he => (h e he).2.1,
    List.flatMap_eq_nil_iff.mpr fun e he => (h e he).2.2⟩

/-- Nothing happens to the prompts. -/
theorem same (hlog : t'.log = t.log ++ more) (hnext : t.nextPrompt ≤ t'.nextPrompt) (hwait : t'.waiting = t.waiting)
    (hplain : ∀ e ∈ more, e.Plain) : Conserves t more t' := by
  obtain ⟨hsent, hleft, haccepted⟩ := plain_lists hplain
  refine ⟨hlog, hnext, ?_, fun n => ?_, ?_, fun _ n => ?_⟩
  · rw [haccepted]
    exact List.nil_sublist _
  · rw [hsent, hwait, List.count_nil, Nat.zero_add]
    exact Nat.le_add_right _ _
  · rw [hleft, hwait]
    exact List.sublist_append_left _ _
  · rw [hsent, haccepted, hwait, List.count_nil, Nat.zero_add, Nat.add_zero]

/-- Some prompts may disappear. -/
theorem drop {e : Entry} (hlog : t'.log = t.log ++ [e]) (hnext : t.nextPrompt ≤ t'.nextPrompt)
    (hwait : t'.waiting.Sublist t.waiting) (hdrops : e.drops = true) : Conserves t [e] t' := by
  have hplain : ∀ e' ∈ [e], e'.Plain := by
    intro e' he'
    rw [List.mem_singleton.mp he']
    exact Entry.plain_of_drops hdrops
  obtain ⟨hsent, hleft, haccepted⟩ := plain_lists hplain
  refine ⟨hlog, hnext, ?_, fun n => ?_, ?_, fun hclean => ?_⟩
  · rw [haccepted]
    exact List.nil_sublist _
  · have hle := hwait.count_le n
    rw [hsent, List.count_nil, Nat.zero_add]
    exact hle.trans (Nat.le_add_right _ _)
  · rw [hleft]
    exact hwait.trans (List.sublist_append_left _ _)
  · rw [hclean e (List.mem_singleton_self e)] at hdrops
    cases hdrops

end Conserves

/-! ## What the messages of the process do -/

/-- At most one of the two queues is in use, and nothing waits or runs before there is a thread. -/
structure Sound (t : Task) : Prop where
  queued : t.pendingFallbackInput = none ∨ t.deferredPrompts = []
  threaded : t.threadId = none → t.activeTurnId = none ∧ t.fallbackInFlight = false ∧ t.deferredPrompts = [] ∧
    t.pendingFallbackInput = none

/-- A part of the run that accepts nothing. -/
def Keeps (t t' : Task) : Prop := ∃ more, Conserves t more t' ∧ accepted more = []

theorem Keeps.trans {t t' t'' : Task} (h : Keeps t t') (h' : Keeps t' t'') : Keeps t t'' := by
  obtain ⟨more, hmore, hnone⟩ := h
  obtain ⟨more', hmore', hnone'⟩ := h'
  exact ⟨more ++ more', hmore.trans hmore', by rw [accepted_append, hnone, hnone']; rfl⟩

theorem Keeps.same {t t' : Task} {more : List Entry} (hlog : t'.log = t.log ++ more)
    (hnext : t.nextPrompt ≤ t'.nextPrompt) (hwait : t'.waiting = t.waiting) (hplain : ∀ e ∈ more, e.Plain) :
    Keeps t t' :=
  ⟨more, .same hlog hnext hwait hplain, (Conserves.plain_lists hplain).2.2⟩

theorem Keeps.drop {t t' : Task} {e : Entry} (hlog : t'.log = t.log ++ [e]) (hnext : t.nextPrompt ≤ t'.nextPrompt)
    (hwait : t'.waiting.Sublist t.waiting) (hdrops : e.drops = true) : Keeps t t' := by
  refine ⟨[e], .drop hlog hnext hwait hdrops, ?_⟩
  have hplain := Entry.plain_of_drops hdrops
  rw [accepted, List.flatMap_singleton]
  exact hplain.2.2

theorem Keeps.refl (t : Task) : Keeps t t :=
  Keeps.same (List.append_nil _).symm le_rfl rfl fun _ he => absurd he List.not_mem_nil

/-- One entry that is neither a request nor an acceptance. -/
theorem Keeps.entry {t t' : Task} {e : Entry} (hlog : t'.log = t.log ++ [e]) (hnext : t.nextPrompt ≤ t'.nextPrompt)
    (hwait : t'.waiting = t.waiting) (hplain : e.Plain) : Keeps t t' := by
  refine Keeps.same hlog hnext hwait fun e' he' => ?_
  rw [List.mem_singleton.mp he']
  exact hplain

theorem plain_event (event : AgentEvent) : (Entry.event event).Plain := ⟨rfl, rfl, rfl⟩

theorem plain_told (message : Json) : (Entry.told message).Plain := ⟨rfl, rfl, rfl⟩

theorem keeps_tell (t : Task) (message : Json) : Keeps t (t.tell message) :=
  Keeps.entry rfl le_rfl rfl (plain_told message)

/-- The end of the task. -/
theorem keeps_leave (t : Task) (error : String) : Keeps t ((t.died error).cleanupStateTempFiles).leave :=
  Keeps.drop (e := .event (.processDied error t.threadId)) rfl le_rfl (List.nil_sublist _) rfl

theorem keeps_panic (t : Task) : Keeps t t.panic := Keeps.drop (e := .panicked) rfl le_rfl (List.nil_sublist _) rfl

theorem leave_sound {t : Task} (h : Sound t) (error : String) :
    Sound ((t.died error).cleanupStateTempFiles).leave :=
  ⟨h.queued, h.threaded⟩

namespace Task

/-- Deferred prompts are dropped. -/
theorem waiting_dropped {t t' : Task} (hrunning : t'.running = t.running)
    (hpending : t'.pendingFallbackInput = t.pendingFallbackInput) (hdeferred : t'.deferredPrompts = []) :
    t'.waiting.Sublist t.waiting := by
  unfold waiting
  rw [hrunning, hpending, hdeferred]
  split
  · exact ((List.Sublist.refl _).append (List.nil_sublist _)).map _
  · exact List.Sublist.refl _

/-- What waited when the turn ended still waits. -/
theorem queueFallback_waiting {t : Task} (h : t.pendingFallbackInput = none ∨ t.deferredPrompts = []) :
    t.queueFallback.waiting = t.waiting := by
  unfold queueFallback
  split
  -- the deferred prompts become the fallback input, in their order
  · rename_i hqueued
    obtain hnone | hempty := h
    · simp [waiting, hnone]
    · exact absurd hempty hqueued.1
  · rfl

theorem queueFallback_log (t : Task) : t.queueFallback.log = t.log := by
  unfold queueFallback
  split <;> rfl

theorem queueFallback_nextPrompt (t : Task) : t.queueFallback.nextPrompt = t.nextPrompt := by
  unfold queueFallback
  split <;> rfl

theorem queueFallback_threadId (t : Task) : t.queueFallback.threadId = t.threadId := by
  unfold queueFallback
  split <;> rfl

theorem queueFallback_sound {t : Task} (h : Sound t) : Sound t.queueFallback := by
  unfold queueFallback
  split
  · rename_i hqueued
    exact ⟨.inr rfl, fun hnone => absurd (h.threaded hnone).2.2.1 hqueued.1⟩
  · exact h

theorem handleTurnCompleted_keeps {t : Task} (h : Sound t) (msg : Json) :
    Keeps t (t.handleTurnCompleted msg) ∧ Sound (t.handleTurnCompleted msg) := by
  have hended : Sound (t.endTurn.emit (.turnComplete (turnResult t msg) t.endTurn.settled)) :=
    ⟨h.queued, fun hnone => ⟨rfl, (h.threaded hnone).2⟩⟩
  have hqueued := queueFallback_sound hended
  have hnext := queueFallback_nextPrompt (t.endTurn.emit (.turnComplete (turnResult t msg) t.endTurn.settled))
  refine ⟨?_, hqueued.queued, hqueued.threaded⟩
  exact Keeps.entry (queueFallback_log _) hnext.ge (queueFallback_waiting hended.queued) (plain_event _)

theorem handleNotification_keeps {t : Task} (h : Sound t) (msg : Json) (method : String) :
    Keeps t (t.handleNotification msg method) ∧ Sound (t.handleNotification msg method) := by
  unfold handleNotification
  split
  · exact handleTurnCompleted_keeps h msg
  split
  · split
    · refine ⟨Keeps.same (List.append_nil _).symm le_rfl rfl fun _ he => absurd he List.not_mem_nil, h.queued, ?_⟩
      rintro ⟨⟩
    · exact ⟨Keeps.refl t, h⟩
  split
  · split
    · exact ⟨Keeps.refl t, h⟩
    · exact ⟨Keeps.entry rfl le_rfl rfl (plain_event _), h.queued, h.threaded⟩
  split
  · exact ⟨Keeps.entry rfl le_rfl rfl (plain_event _), h.queued, h.threaded⟩
  · exact ⟨Keeps.entry rfl le_rfl rfl (plain_event _), h.queued, h.threaded⟩

theorem handleIncomingMessage_keeps {t : Task} (h : Sound t) (msg : Json) :
    Keeps t (t.handleIncomingMessage msg) ∧ Sound (t.handleIncomingMessage msg) := by
  unfold handleIncomingMessage
  split
  · exact ⟨Keeps.entry rfl le_rfl rfl (plain_told _), h.queued, h.threaded⟩
  · exact ⟨Keeps.refl t, h⟩
  · exact handleNotification_keeps h msg _
  · exact ⟨Keeps.refl t, h⟩

theorem queueFallback_running (t : Task) : t.queueFallback.running = t.running := by
  unfold queueFallback
  split <;> rfl

theorem handleIncomingMessage_running (t : Task) (msg : Json) :
    (t.handleIncomingMessage msg).running = t.running := by
  have hturn : (t.handleTurnCompleted msg).running = t.running := queueFallback_running _
  unfold handleIncomingMessage handleNotification
  split
  · rfl
  · rfl
  · split
    · exact hturn
    repeat' split
    all_goals rfl
  · rfl

theorem handleIncomingMessage_threadId {t : Task} (h : t.threadId ≠ none) (msg : Json) :
    (t.handleIncomingMessage msg).threadId ≠ none := by
  have hturn : (t.handleTurnCompleted msg).threadId = t.threadId := queueFallback_threadId _
  unfold handleIncomingMessage handleNotification
  split
  · exact h
  · exact h
  · split
    · rw [hturn]
      exact h
    repeat' split
    all_goals first | exact h | nofun
  · exact h

/-! ## The waits -/

theorem cancelWait_keeps {t : Task} (h : Sound t) (lines : List Line) :
    Keeps t (t.cancelWait lines) ∧ Sound (t.cancelWait lines) := by
  induction lines generalizing t with
  | nil => exact ⟨Keeps.refl t, h⟩
  | cons line lines ih =>
      cases line with
      | json msg =>
          rw [cancelWait]
          split
          · exact handleTurnCompleted_keeps h msg
          · obtain ⟨hkeeps, hsound⟩ := handleIncomingMessage_keeps h msg
            obtain ⟨hthen, hafter⟩ := ih hsound
            exact ⟨hkeeps.trans hthen, hafter⟩
      | malformed => exact ih h
      | blank => exact ih h
      | eof exitInfo => exact ⟨Keeps.refl t, h⟩
      | error e => exact ⟨Keeps.refl t, h⟩

theorem stopWait_keeps {t : Task} (h : Sound t) (hthread : t.threadId ≠ none) (lines : List Line) :
    Keeps t (t.stopWait lines) ∧ Sound (t.stopWait lines) := by
  induction lines generalizing t with
  -- nothing came before the wait was over: the task ends
  | nil => exact ⟨keeps_leave t _, leave_sound h _⟩
  | cons line lines ih =>
      cases line with
      | json msg =>
          rw [stopWait]
          split
          · dsimp only
            split
            · exact ⟨Keeps.entry rfl le_rfl rfl (plain_told _), h.queued, fun hnone => absurd hnone hthread⟩
            · exact ⟨Keeps.same (List.append_nil _).symm le_rfl rfl fun _ he => absurd he List.not_mem_nil, h.queued,
                fun hnone => absurd hnone hthread⟩
          · obtain ⟨hkeeps, hsound⟩ := handleIncomingMessage_keeps h msg
            obtain ⟨hthen, hafter⟩ := ih hsound (handleIncomingMessage_threadId hthread msg)
            exact ⟨hkeeps.trans hthen, hafter⟩
      | malformed => exact ih h hthread
      | blank => exact ih h hthread
      | eof exitInfo =>
          refine ⟨?_, h.queued, h.threaded⟩
          exact Keeps.same (List.append_nil _).symm le_rfl rfl fun _ he => absurd he List.not_mem_nil
      | error e => exact ⟨Keeps.refl t, h⟩

theorem handleCancel_keeps {t : Task} (h : Sound t) (lines : List Line) :
    Keeps t ((t.took .cancel).handleCancel lines) ∧ Sound ((t.took .cancel).handleCancel lines) := by
  unfold handleCancel
  generalize hdropped :
      cleanupDeferredTempFiles { t.took .cancel with cancelRequested := true, deferredPrompts := [] } =
    dropped
  have hkeeps : Keeps t dropped := by
    subst hdropped
    exact Keeps.drop (e := .took .cancel) rfl le_rfl (waiting_dropped rfl rfl rfl) rfl
  have hsound : Sound dropped := by
    subst hdropped
    exact ⟨.inr rfl, fun hnone => ⟨(h.threaded hnone).1, (h.threaded hnone).2.1, rfl, (h.threaded hnone).2.2.2⟩⟩
  dsimp only
  split
  · rename_i tid turnId _ _
    obtain ⟨hwaited, hafter⟩ := cancelWait_keeps (t := dropped.tell (interrupt tid turnId))
      ⟨hsound.queued, hsound.threaded⟩ lines
    exact ⟨((hkeeps.trans (keeps_tell dropped _)).trans hwaited).trans (keeps_leave _ _), leave_sound hafter _⟩
  · exact ⟨hkeeps.trans (keeps_leave _ _), leave_sound hsound _⟩

theorem handleStopTurn_keeps {t : Task} (h : Sound t) (lines : List Line) :
    Keeps t ((t.took .stopTurn).handleStopTurn lines) ∧ Sound ((t.took .stopTurn).handleStopTurn lines) := by
  unfold handleStopTurn
  generalize hdropped : ({ cleanupDeferredTempFiles { t.took .stopTurn with stopTurnRequested := true } with
    deferredPrompts := [] } : Task) = dropped
  have hkeeps : Keeps t dropped := by
    subst hdropped
    exact Keeps.drop (e := .took .stopTurn) rfl le_rfl (waiting_dropped rfl rfl rfl) rfl
  have hsound : Sound dropped := by
    subst hdropped
    exact ⟨.inr rfl, fun hnone => ⟨(h.threaded hnone).1, (h.threaded hnone).2.1, rfl, (h.threaded hnone).2.2.2⟩⟩
  dsimp only
  split
  · exact ⟨hkeeps.trans (keeps_tell dropped _), hsound.queued, hsound.threaded⟩
  · rename_i hthread _
    obtain ⟨hwaited, hafter⟩ := stopWait_keeps hsound (by rw [hthread]; nofun) lines
    exact ⟨hkeeps.trans hwaited, hafter⟩
  · exact ⟨hkeeps, hsound⟩

/-! ## Requests -/

/-- A request that carries nothing. -/
theorem ask_keeps (t : Task) {r : Request} (h : r.carries = .nothing) (answer : Answer) :
    Keeps t (t.ask r answer) := by
  have hplain : (Entry.asked r answer).Plain := by
    refine ⟨?_, ?_, rfl⟩
    · simp only [Entry.sends, h]
    · simp only [Entry.leaves, h]
  cases answer with
  | unsent e => exact Keeps.refl t
  | _ => exact Keeps.entry rfl le_rfl rfl hplain

theorem ask_sound {t : Task} (h : Sound t) (request : Request) (answer : Answer) : Sound (t.ask request answer) := by
  cases answer with
  | unsent e => exact h
  | _ => exact ⟨h.queued, h.threaded⟩

theorem ask_threadId (t : Task) (request : Request) (answer : Answer) :
    (t.ask request answer).threadId = t.threadId := by
  cases answer <;> rfl

theorem exchange_fst (t : Task) (request : Request) (answer : Answer) :
    (t.exchange request answer).1 = t.ask request answer := by
  unfold exchange
  cases answer with
  | response meanwhile resp => dsimp only; split <;> rfl
  | _ => rfl

/-! ## The waiting turn -/

/-- The prompts that waited are sent. -/
theorem keeps_waited {t t' : Task} {prompts : List Deferred} {request : Request} {answer : Answer}
    (hrunning : t.running = true) (hpending : t.pendingFallbackInput = some prompts)
    (hcarries : request.carries = .waited (prompts.map Deferred.number))
    (hlog : t'.log = t.log ++ [.asked request answer]) (hnext : t.nextPrompt ≤ t'.nextPrompt)
    (hwait : t'.waiting = t.deferredPrompts.map Deferred.number) : Keeps t t' := by
  have hsent : sent [.asked request answer] = prompts.map Deferred.number := by
    rw [sent, List.flatMap_singleton, Entry.sends, hcarries]
  have hleft : left [.asked request answer] = prompts.map Deferred.number := by
    rw [left, List.flatMap_singleton, Entry.leaves, hcarries]
  have hwaiting : t.waiting = prompts.map Deferred.number ++ t'.waiting := by
    rw [waiting, if_pos hrunning, hpending, Option.getD_some, List.map_append, hwait]
  refine ⟨[.asked request answer], ⟨hlog, hnext, List.nil_sublist _, fun n => ?_, ?_, fun _ n => ?_⟩, rfl⟩
  · rw [hsent, hwaiting, List.count_append]
    exact Nat.le_add_right _ _
  · rw [hleft, hwaiting]
    exact List.sublist_append_left _ _
  · rw [hsent, hwaiting, List.count_append]
    exact (Nat.add_zero _).symm

theorem startFallback_keeps {t : Task} (h : Sound t) (hrunning : t.running = true) (answer : Answer) :
    Keeps t (t.startFallback answer) ∧ Sound (t.startFallback answer) ∧
      (t.startFallback answer).pendingFallbackInput = none := by
  unfold startFallback
  split
  · rename_i hnone
    exact ⟨Keeps.refl t, h, hnone⟩
  · rename_i prompts hpending hthread
    rw [(h.threaded hthread).2.2.2] at hpending
    cases hpending
  · rename_i prompts tid hpending hthread
    dsimp only
    generalize hrequest : turnStart tid (combinedInput prompts) (.waited (prompts.map Deferred.number)) = request
    generalize htaken : ({ t with pendingFallbackInput := none } : Task) = taken
    have hsound : ∀ {t' : Task}, t'.pendingFallbackInput = none → t'.threadId = some tid → Sound t' :=
      fun hnone hsome => ⟨.inl hnone, fun hno => by rw [hsome] at hno; cases hno⟩
    have hasked : (∃ e, answer = .unsent e) ∨ Keeps t (taken.ask request answer) ∧
        (taken.ask request answer).pendingFallbackInput = none ∧ (taken.ask request answer).threadId = some tid := by
      subst htaken hrequest
      cases answer with
      | unsent e => exact .inl ⟨e, rfl⟩
      | _ => exact .inr ⟨keeps_waited hrunning hpending rfl rfl le_rfl (if_pos hrunning), rfl, hthread⟩
    obtain ⟨e, rfl⟩ | ⟨hkeeps, hnone, hsome⟩ := hasked
    · subst htaken
      refine ⟨?_, hsound rfl hthread, rfl⟩
      exact Keeps.drop (e := .event (.processDied _ _)) rfl le_rfl (List.nil_sublist _) rfl
    · have hgone : ∀ error, Keeps t (((taken.ask request answer).died error).cleanupStateTempFiles).leave ∧
          Sound (((taken.ask request answer).died error).cleanupStateTempFiles).leave ∧
          ((((taken.ask request answer).died error).cleanupStateTempFiles).leave).pendingFallbackInput = none :=
        fun error => ⟨hkeeps.trans (keeps_leave _ error), leave_sound (hsound hnone hsome) error, hnone⟩
      split
      · exact hgone _
      · exact hgone _
      · split
        · exact ⟨hkeeps.trans (keeps_panic _), hsound hnone hsome, hnone⟩
        · exact hgone _
      · exact hgone _
      · split
        · exact hgone _
        split
        · exact ⟨hkeeps, hsound hnone hsome, hnone⟩
        · split
          · refine ⟨hkeeps.trans ?_, hsound hnone hsome, hnone⟩
            exact Keeps.entry rfl le_rfl rfl (plain_told _)
          · refine ⟨hkeeps.trans ?_, hsound hnone hsome, hnone⟩
            exact Keeps.same (List.append_nil _).symm le_rfl rfl fun _ he => absurd he List.not_mem_nil

/-! ## The start -/

theorem doTurnStart_keeps {t : Task} (h : Sound t) (input : List Json) (answer : Answer) :
    Keeps t (t.doTurnStart input answer).1 ∧ Sound (t.doTurnStart input answer).1 := by
  unfold doTurnStart
  split
  · exact ⟨Keeps.refl t, h⟩
  · rename_i tid hthread
    have hfst := exchange_fst t (turnStart tid input .nothing) answer
    have hkeeps := ask_keeps t (r := turnStart tid input .nothing) rfl answer
    have hsound := ask_sound h (turnStart tid input .nothing) answer
    have hthread' := (ask_threadId t (turnStart tid input .nothing) answer).trans hthread
    rw [← hfst] at hkeeps hsound hthread'
    split
    · rename_i asked e hexchange
      rw [hexchange] at hkeeps hsound
      exact ⟨hkeeps, hsound⟩
    · rename_i asked resp hexchange
      rw [hexchange] at hkeeps hsound hthread'
      split
      · exact ⟨hkeeps, hsound⟩
      · refine ⟨hkeeps.trans ?_, hsound.queued, fun hno => ?_⟩
        swap
        · rw [show asked.threadId = none from hno] at hthread'
          cases hthread'
        exact Keeps.same (List.append_nil _).symm le_rfl rfl fun _ he => absurd he List.not_mem_nil

/-- A thread that is known, and its first turn. -/
theorem threaded_turn_keeps {t asked : Task} (hkeeps : Keeps t asked) (hsound : Sound asked) (tid : String)
    (input : List Json) (answer : Answer) :
    Keeps t (doTurnStart { asked with threadId := some tid } input answer).1 ∧
      Sound (doTurnStart { asked with threadId := some tid } input answer).1 := by
  have hset : Sound { asked with threadId := some tid } := ⟨hsound.queued, nofun⟩
  obtain ⟨hturn, hafter⟩ := doTurnStart_keeps hset input answer
  refine ⟨(hkeeps.trans ?_).trans hturn, hafter⟩
  exact Keeps.same (List.append_nil _).symm le_rfl rfl fun _ he => absurd he List.not_mem_nil

theorem doFreshStart_keeps {t : Task} (h : Sound t) (config : Config) (input : List Json) (thread turn : Answer) :
    Keeps t (t.doFreshStart config input thread turn).1 ∧ Sound (t.doFreshStart config input thread turn).1 := by
  unfold doFreshStart
  dsimp only
  generalize hrequest : ({ method := "thread/start", params := _, carries := .nothing } : Request) = request
  have hfst := exchange_fst t request thread
  have hkeeps := ask_keeps t (r := request) (by rw [← hrequest]) thread
  have hsound := ask_sound h request thread
  rw [← hfst] at hkeeps hsound
  split
  · rename_i asked e hexchange
    rw [hexchange] at hkeeps hsound
    exact ⟨hkeeps, hsound⟩
  · rename_i asked resp hexchange
    rw [hexchange] at hkeeps hsound
    split
    · exact ⟨hkeeps, hsound⟩
    · exact threaded_turn_keeps hkeeps hsound _ input turn

theorem doResume_keeps {t : Task} (h : Sound t) (resumeId : String) (input : List Json) (thread turn : Answer) :
    Keeps t (t.doResume resumeId input thread turn).1 ∧ Sound (t.doResume resumeId input thread turn).1 := by
  unfold doResume
  generalize hrequest : ({ method := "thread/resume", params := _, carries := .nothing } : Request) = request
  have hfst := exchange_fst t request thread
  have hkeeps := ask_keeps t (r := request) (by rw [← hrequest]) thread
  have hsound := ask_sound h request thread
  rw [← hfst] at hkeeps hsound
  split
  · rename_i asked e hexchange
    rw [hexchange] at hkeeps hsound
    exact ⟨hkeeps, hsound⟩
  · rename_i asked resp hexchange
    rw [hexchange] at hkeeps hsound
    exact threaded_turn_keeps hkeeps hsound _ input turn

theorem emitInit_keeps {t : Task} (h : Sound t) : Keeps t t.emitInit ∧ Sound t.emitInit := by
  unfold emitInit
  split
  · exact ⟨Keeps.entry rfl le_rfl rfl (plain_event _), h.queued, h.threaded⟩
  · exact ⟨Keeps.refl t, h⟩

/-- What is left of a start that failed. -/
theorem abandon_keeps {t tried : Task} (hkeeps : Keeps t tried) (hsound : Sound tried) (what : String) (draft : Draft)
    (failure : Failure) : Keeps t (tried.abandon what draft failure) ∧ Sound (tried.abandon what draft failure) := by
  cases failure with
  | error e =>
      refine ⟨hkeeps.trans ?_, hsound.queued, hsound.threaded⟩
      exact Keeps.drop (e := .event (.processDied _ _)) rfl le_rfl (List.nil_sublist _) rfl
  | panicked => exact ⟨hkeeps.trans (keeps_panic tried), hsound.queued, hsound.threaded⟩

/-- What comes of one that did not. -/
theorem started_keeps {t t' : Task} (hkeeps : Keeps t t') (hsound : Sound t') (files : List TempFile) :
    Keeps t { t'.emitInit with activeTurnTempFiles := files } ∧
      Sound { t'.emitInit with activeTurnTempFiles := files } := by
  obtain ⟨hinit, hafter⟩ := emitInit_keeps hsound
  refine ⟨(hkeeps.trans hinit).trans ?_, hafter.queued, hafter.threaded⟩
  exact Keeps.same (List.append_nil _).symm le_rfl rfl fun _ he => absurd he List.not_mem_nil

theorem handleStart_keeps {t : Task} (h : Sound t) (config : Config) (payload : Json) (attempt : Nat → Attempt)
    (thread turn : Answer) :
    Keeps t (t.handleStart config payload attempt thread turn) ∧
      Sound (t.handleStart config payload attempt thread turn) := by
  have hdrafted : ∀ draft, Keeps t (t.drafted draft) ∧ Sound (t.drafted draft) := fun draft =>
    ⟨Keeps.same (List.append_nil _).symm le_rfl rfl fun _ he => absurd he List.not_mem_nil, h.queued, h.threaded⟩
  unfold handleStart
  split
  · refine ⟨?_, h.queued, h.threaded⟩
    exact Keeps.drop (e := .event (.processDied _ _)) rfl le_rfl (List.nil_sublist _) rfl
  · split
    · refine ⟨?_, h.queued, h.threaded⟩
      exact Keeps.drop (e := .event (.processDied _ _)) rfl le_rfl (List.nil_sublist _) rfl
    · rename_i draft _
      obtain ⟨hkeeps, hsound⟩ := hdrafted draft
      split
      · rename_i resumeId _
        obtain ⟨htried, htriedSound⟩ := doResume_keeps hsound resumeId draft.input thread turn
        split
        · rename_i tried e hresume
          rw [hresume] at htried htriedSound
          exact abandon_keeps (hkeeps.trans htried) htriedSound _ draft e
        · rename_i started _ hresume
          rw [hresume] at htried htriedSound
          exact started_keeps (hkeeps.trans htried) htriedSound _
      · obtain ⟨htried, htriedSound⟩ := doFreshStart_keeps hsound config draft.input thread turn
        split
        · rename_i tried e hstart
          rw [hstart] at htried htriedSound
          exact abandon_keeps (hkeeps.trans htried) htriedSound _ draft e
        · rename_i started _ hstart
          rw [hstart] at htried htriedSound
          exact started_keeps (hkeeps.trans htried) htriedSound _

/-! ## Prompts -/

/-- A part of the run that accepts nothing, or drops nothing. -/
def Progress (t t' : Task) : Prop :=
  ∃ more, Conserves t more t' ∧ (accepted more = [] ∨ ∀ e ∈ more, e.drops = false)

theorem fresh_one {t t' : Task} (h : t'.nextPrompt = t.nextPrompt + 1) : fresh t t' = [t.nextPrompt] := by
  rw [fresh, h, Nat.add_sub_cancel_left]
  rfl

/-- The prompt at hand is not accepted, and nothing else happens. -/
theorem prompt_refused {t t' : Task} {l : List Entry} (hlog : t'.log = t.log ++ l)
    (hnext : t'.nextPrompt = t.nextPrompt + 1) (hwait : t'.waiting = t.waiting) (hsent : sent l = [])
    (hleft : left l = []) (haccepted : accepted l = []) : Progress t t' := by
  refine ⟨l, ⟨hlog, by omega, ?_, fun n => ?_, ?_, fun _ n => ?_⟩, .inl haccepted⟩
  · rw [haccepted]
    exact List.nil_sublist _
  · rw [hwait, hsent, List.count_nil, Nat.zero_add]
    exact Nat.le_add_right _ _
  · rw [hleft, hwait]
    exact List.sublist_append_left _ _
  · rw [hsent, haccepted, hwait, List.count_nil, Nat.zero_add, Nat.add_zero]

/-- The prompt at hand is lost when something ends, and with it others may be. -/
theorem prompt_lost {t t' : Task} {l : List Entry} (hlog : t'.log = t.log ++ l)
    (hnext : t'.nextPrompt = t.nextPrompt + 1) (hwait : t'.waiting.Sublist t.waiting)
    (hsent : sent l = [] ∨ sent l = [t.nextPrompt]) (hleft : left l = []) (haccepted : accepted l = [])
    (hdrops : ∃ e ∈ l, e.drops = true) : Progress t t' := by
  refine ⟨l, ⟨hlog, by omega, ?_, fun n => ?_, ?_, fun hclean n => ?_⟩, .inl haccepted⟩
  · rw [haccepted]
    exact List.nil_sublist _
  · have hle := hwait.count_le n
    rw [fresh_one hnext]
    obtain hnone | hone := hsent
    · rw [hnone, List.count_nil, Nat.zero_add]
      exact hle.trans (Nat.le_add_right _ _)
    · rw [hone, Nat.add_comm]
      exact Nat.add_le_add_right hle _
  · rw [hleft]
    exact hwait.trans (List.sublist_append_left _ _)
  · obtain ⟨e, he, hdrop⟩ := hdrops
    rw [hclean e he] at hdrop
    cases hdrop

/-- The prompt at hand is accepted, and sent. -/
theorem prompt_sent {t t' : Task} {l : List Entry} (hlog : t'.log = t.log ++ l)
    (hnext : t'.nextPrompt = t.nextPrompt + 1) (hwait : t'.waiting = t.waiting) (hsent : sent l = [t.nextPrompt])
    (hleft : left l = []) (haccepted : accepted l = [t.nextPrompt]) (hclean : ∀ e ∈ l, e.drops = false) :
    Progress t t' := by
  refine ⟨l, ⟨hlog, by omega, ?_, fun n => ?_, ?_, fun _ n => ?_⟩, .inr hclean⟩
  · rw [haccepted, fresh_one hnext]
  · rw [fresh_one hnext, hwait, hsent, Nat.add_comm]
  · rw [hleft, hwait]
    exact List.sublist_append_left _ _
  · rw [hsent, haccepted, hwait, Nat.add_comm]

/-- The prompt at hand is accepted, and waits. -/
theorem prompt_deferred {t t' : Task} {l : List Entry} (hlog : t'.log = t.log ++ l)
    (hnext : t'.nextPrompt = t.nextPrompt + 1) (hwait : t'.waiting = t.waiting ++ [t.nextPrompt])
    (hsent : sent l = []) (hleft : left l = []) (haccepted : accepted l = [t.nextPrompt])
    (hclean : ∀ e ∈ l, e.drops = false) : Progress t t' := by
  refine ⟨l, ⟨hlog, by omega, ?_, fun n => ?_, ?_, fun _ n => ?_⟩, .inr hclean⟩
  · rw [haccepted, fresh_one hnext]
  · rw [fresh_one hnext, hwait, hsent, List.count_append, List.count_nil, Nat.zero_add]
  · rw [hleft, hwait, fresh_one hnext, List.nil_append]
  · rw [hsent, haccepted, hwait, List.count_append, List.count_nil, Nat.zero_add]

/-- What a request changes: nothing when it cannot be written, the log and the queue else. -/
theorem ask_cases (t : Task) (request : Request) (answer : Answer) :
    (∃ e, answer = .unsent e ∧ t.ask request answer = t) ∨
      ∃ notifications, t.ask request answer =
        { t with log := t.log ++ [.asked request answer], notifications } := by
  cases answer with
  | unsent e => exact .inl ⟨e, rfl, rfl⟩
  | _ => exact .inr ⟨_, rfl⟩

theorem ask_waiting (t : Task) (request : Request) (answer : Answer) :
    (t.ask request answer).waiting = t.waiting := by
  cases answer <;> rfl

/-- A prompt's request fails, and something ends. -/
theorem ask_lost {t t' t'' : Task} {request : Request} {answer : Answer} {e : Entry} (hdrops : e.drops = true)
    (hlog' : t''.log = (t'.ask request answer).log ++ [e])
    (hnext' : t''.nextPrompt = (t'.ask request answer).nextPrompt) (hwait' : t''.waiting.Sublist t'.waiting)
    (hlog : t'.log = t.log) (hnext : t'.nextPrompt = t.nextPrompt + 1) (hwait : t'.waiting = t.waiting)
    (hleft : left [.asked request answer] = [])
    (hsent : sent [.asked request answer] = [] ∨ sent [.asked request answer] = [t.nextPrompt]) : Progress t t'' := by
  have hplain : ∀ e' ∈ [e], e'.Plain := fun e' he' => by
    rw [List.mem_singleton.mp he']
    exact Entry.plain_of_drops hdrops
  obtain ⟨hsends, hleaves, haccepts⟩ := Conserves.plain_lists hplain
  rw [hwait] at hwait'
  obtain ⟨error, -, hsame⟩ | ⟨notifications, hsame⟩ := ask_cases t' request answer
  · rw [hsame] at hlog' hnext'
    exact prompt_lost (by rw [hlog', hlog]) (hnext'.trans hnext) hwait' (.inl hsends) hleaves haccepts
      ⟨e, List.mem_singleton_self e, hdrops⟩
  · rw [hsame] at hlog' hnext'
    refine prompt_lost (l := [.asked request answer] ++ [e]) ?_ (hnext'.trans hnext) hwait' ?_ ?_ ?_
      ⟨e, List.mem_append_right _ (List.mem_singleton_self e), hdrops⟩
    · rw [hlog', hlog, List.append_assoc]
    · rw [sent_append, hsends, List.append_nil]
      exact hsent
    · rw [left_append, hleft, hleaves]
      rfl
    · rw [accepted_append, haccepts]
      rfl

theorem sent_own (request : Request) (answer : Answer) {n : Nat} (h : request.carries = .own n) :
    sent [.asked request answer] = [n] ∧ left [.asked request answer] = [] := by
  simp [sent, left, Entry.sends, Entry.leaves, h]

theorem sent_steer (request : Request) (answer : Answer) {n : Nat} (h : request.carries = .steer n) :
    sent [.asked request answer] = (if answer.taken then [n] else []) ∧ left [.asked request answer] = [] := by
  simp [sent, left, Entry.sends, Entry.leaves, h]

theorem sent_accepted (e : Entry) (n : Nat) : sent [e, .accepted n] = sent [e] := by
  simp [sent, Entry.sends]

theorem left_accepted (e : Entry) (n : Nat) : left [e, .accepted n] = left [e] := by
  simp [left, Entry.leaves]

theorem promptTurn_progress {t t' : Task} (h : Sound t') (hlog : t'.log = t.log)
    (hnext : t'.nextPrompt = t.nextPrompt + 1) (hwait : t'.waiting = t.waiting) (draft : Draft) (answer : Answer) :
    Progress t (t'.promptTurn t.nextPrompt draft answer) ∧ Sound (t'.promptTurn t.nextPrompt draft answer) := by
  unfold promptTurn
  split
  · refine ⟨?_, h.queued, h.threaded⟩
    refine prompt_lost (l := [.event (.processDied "Prompt received but no thread_id set" t'.threadId)]) ?_ hnext
      (hwait ▸ List.Sublist.refl _) (.inl rfl) rfl rfl ⟨_, List.mem_singleton_self _, rfl⟩
    exact congrArg (· ++ [_]) hlog
  · rename_i tid hthread
    dsimp only
    generalize hrequest : turnStart tid draft.input (.own t.nextPrompt) = request
    obtain ⟨hsent, hleft⟩ := sent_own request answer (n := t.nextPrompt) (by rw [← hrequest]; rfl)
    have hsound := ask_sound h request answer
    have hthread' := ask_threadId t' request answer
    have hask := ask_waiting t' request answer
    generalize hasked : t'.ask request answer = asked at hsound hthread' hask
    have hgone : ∀ error, Progress t ((asked.died error).cleanupTempFiles draft.tempFiles) ∧
        Sound ((asked.died error).cleanupTempFiles draft.tempFiles) := fun error => by
      refine ⟨?_, hsound.queued, hsound.threaded⟩
      subst hasked
      exact ask_lost (e := .event (.processDied error _)) rfl rfl rfl (hask ▸ List.Sublist.refl _) hlog hnext hwait
        hleft (.inr hsent)
    split
    · exact hgone _
    · exact hgone _
    · split
      · refine ⟨?_, hsound.queued, hsound.threaded⟩
        subst hasked
        exact ask_lost (e := .panicked) rfl rfl rfl (List.nil_sublist _) hlog hnext hwait hleft (.inr hsent)
      · exact hgone _
    · exact hgone _
    · rename_i meanwhile resp
      split
      · exact hgone _
      · refine ⟨?_, hsound.queued, fun hno => ?_⟩
        · subst hasked
          refine prompt_sent (l := [.asked request (.response meanwhile resp), .accepted t.nextPrompt]) ?_ hnext
            hwait ?_ ?_ ?_ ?_
          · show (t'.log ++ [_]) ++ [_] = _
            rw [hlog, List.append_assoc]
            rfl
          · exact (sent_accepted _ _).trans hsent
          · exact (left_accepted _ _).trans hleft
          · rfl
          · simp [Entry.drops]
        · have hnone : asked.threadId = none := hno
          rw [hthread', hthread] at hnone
          cases hnone

theorem promptSteer_progress {t t' : Task} (h : Sound t') (hthread : t'.threadId ≠ none) (hlog : t'.log = t.log)
    (hnext : t'.nextPrompt = t.nextPrompt + 1) (hwait : t'.waiting = t.waiting) (hrunning : t'.running = true)
    (hpending : t'.pendingFallbackInput = none) (draft : Draft) (answer : Answer) :
    Progress t (t'.promptSteer t.nextPrompt draft answer) ∧ Sound (t'.promptSteer t.nextPrompt draft answer) := by
  unfold promptSteer
  dsimp only
  generalize hrequest : turnSteer _ _ draft.input (.steer t.nextPrompt) = request
  obtain ⟨hsent, hleft⟩ := sent_steer request answer (n := t.nextPrompt) (by rw [← hrequest]; rfl)
  have hsound := ask_sound h request answer
  have hthread' : (t'.ask request answer).threadId ≠ none := by rwa [ask_threadId]
  have hask := ask_waiting t' request answer
  have hmaybe : sent [.asked request answer] = [] ∨ sent [.asked request answer] = [t.nextPrompt] := by
    rw [hsent]
    split
    · exact .inr rfl
    · exact .inl rfl
  generalize hasked : t'.ask request answer = asked at hsound hthread' hask
  have hgone : ∀ error, Progress t ((asked.died error).cleanupTempFiles draft.tempFiles) ∧
      Sound ((asked.died error).cleanupTempFiles draft.tempFiles) := fun error => by
    refine ⟨?_, hsound.queued, hsound.threaded⟩
    subst hasked
    exact ask_lost (e := .event (.processDied error _)) rfl rfl rfl (hask ▸ List.Sublist.refl _) hlog hnext hwait hleft
      hmaybe
  split
  · exact hgone _
  · exact hgone _
  · split
    · refine ⟨?_, hsound.queued, hsound.threaded⟩
      subst hasked
      exact ask_lost (e := .panicked) rfl rfl rfl (List.nil_sublist _) hlog hnext hwait hleft hmaybe
    · exact hgone _
  · exact hgone _
  · rename_i meanwhile resp
    have hanswered : asked.log = t.log ++ [.asked request (.response meanwhile resp)] := by
      rw [← hasked, ← hlog]
      rfl
    split
    · rename_i err herr
      have hnone : sent [.asked request (.response meanwhile resp)] = [] := by
        rw [hsent, if_neg]
        simp [Answer.taken, herr]
      split
      · refine ⟨?_, .inl ?_, fun hno => absurd hno hthread'⟩
        · subst hasked
          refine prompt_deferred (l := [.asked request (.response meanwhile resp), .accepted t.nextPrompt]) ?_ hnext
            ?_ ?_ ?_ ?_ ?_
          · show (t'.log ++ [_]) ++ [_] = _
            rw [hlog, List.append_assoc]
            rfl
          · rw [← hwait]
            show waiting { t' with deferredPrompts := t'.deferredPrompts ++ [⟨t.nextPrompt, _, _⟩] } = _
            simp [waiting, hrunning, hpending]
          · exact (sent_accepted _ _).trans hnone
          · exact (left_accepted _ _).trans hleft
          · rfl
          · simp [Entry.drops]
        · subst hasked
          exact hpending
      split
      · refine ⟨?_, hsound.queued, hsound.threaded⟩
        subst hasked
        exact prompt_refused hanswered hnext hwait hnone hleft rfl
      · exact hgone _
    · rename_i hno
      have hone : sent [.asked request (.response meanwhile resp)] = [t.nextPrompt] := by
        rw [hsent, if_pos]
        simp [Answer.taken, hno]
      refine ⟨?_, hsound.queued, hsound.threaded⟩
      subst hasked
      refine prompt_sent (l := [.asked request (.response meanwhile resp), .accepted t.nextPrompt]) ?_ hnext
        hwait ?_ ?_ ?_ ?_
      · show (t'.log ++ [_]) ++ [_] = _
        rw [hlog, List.append_assoc]
        rfl
      · exact (sent_accepted _ _).trans hone
      · exact (left_accepted _ _).trans hleft
      · rfl
      · simp [Entry.drops]

/-- **A prompt** is accepted when it is sent or starts to wait, and else is not accepted. -/
theorem handlePrompt_progress {t : Task} (h : Sound t) (hrunning : t.running = true)
    (hpending : t.pendingFallbackInput = none) (parts : List Json) (attempt : Nat → Attempt) (answer : Answer) :
    Progress t (t.handlePrompt parts attempt answer) ∧ Sound (t.handlePrompt parts attempt answer) := by
  unfold handlePrompt
  dsimp only
  split
  · refine ⟨?_, h.queued, h.threaded⟩
    exact prompt_refused (l := [.event _]) rfl rfl rfl rfl rfl rfl
  · rename_i draft _
    have hdrafted : Sound (Task.drafted { t with nextPrompt := t.nextPrompt + 1 } draft) := ⟨h.queued, h.threaded⟩
    split
    · rename_i hflight
      refine ⟨prompt_deferred (l := [.accepted t.nextPrompt]) rfl rfl ?_ rfl rfl rfl ?_, .inl hpending, ?_⟩
      · show waiting { t with deferredPrompts := t.deferredPrompts ++ [⟨t.nextPrompt, _, _⟩] } = _
        simp [waiting, hrunning, hpending]
      · simp [Entry.drops]
      · intro hno
        have hflying : t.fallbackInFlight = true := hflight
        rw [(h.threaded hno).2.1] at hflying
        cases hflying
    split
    · exact promptTurn_progress (t := t) hdrafted rfl rfl rfl draft answer
    · rename_i hactive
      refine promptSteer_progress (t := t) hdrafted (fun hno => hactive ?_) rfl rfl rfl hrunning hpending draft answer
      show t.activeTurnId.isNone = true
      rw [(h.threaded hno).1]
      rfl

/-! ## The loop -/

theorem progress_of_keeps {t t' : Task} (h : Keeps t t') : Relation.ReflTransGen Progress t t' := by
  obtain ⟨more, hmore, hnone⟩ := h
  exact .single ⟨more, hmore, .inl hnone⟩

theorem keeps_took (t : Task) (command : AgentCommand) : Keeps t (t.took command) :=
  Keeps.entry rfl le_rfl rfl ⟨rfl, rfl, rfl⟩

theorem handleLine_keeps {t : Task} (h : Sound t) (line : Line) :
    Keeps t (t.handleLine line) ∧ Sound (t.handleLine line) := by
  cases line with
  | json msg => exact handleIncomingMessage_keeps h msg
  | malformed => exact ⟨Keeps.refl t, h⟩
  | blank => exact ⟨Keeps.refl t, h⟩
  | eof exitInfo => exact ⟨keeps_leave t _, leave_sound h _⟩
  | error e => exact ⟨keeps_leave t _, leave_sound h _⟩

theorem handlePick_progress {t : Task} (h : Sound t) (hrunning : t.running = true)
    (hpending : t.pendingFallbackInput = none) (config : Config) (pick : Pick) :
    Relation.ReflTransGen Progress t (t.handlePick config pick) ∧ Sound (t.handlePick config pick) := by
  have htook : ∀ command, Sound (t.took command) := fun command => ⟨h.queued, h.threaded⟩
  cases pick with
  | line line =>
      obtain ⟨hkeeps, hsound⟩ := handleLine_keeps h line
      exact ⟨progress_of_keeps hkeeps, hsound⟩
  | start payload attempt thread turn =>
      obtain ⟨hkeeps, hsound⟩ := handleStart_keeps (htook (.start payload)) config payload attempt thread turn
      exact ⟨progress_of_keeps ((keeps_took t _).trans hkeeps), hsound⟩
  | prompt parts attempt answer =>
      obtain ⟨hprogress, hsound⟩ := handlePrompt_progress (htook (.prompt parts)) hrunning hpending parts attempt answer
      exact ⟨(progress_of_keeps (keeps_took t _)).tail hprogress, hsound⟩
  | cancel lines =>
      obtain ⟨hkeeps, hsound⟩ := handleCancel_keeps h lines
      exact ⟨progress_of_keeps hkeeps, hsound⟩
  | stopTurn lines =>
      obtain ⟨hkeeps, hsound⟩ := handleStopTurn_keeps h lines
      exact ⟨progress_of_keeps hkeeps, hsound⟩
  | stop =>
      refine ⟨progress_of_keeps ?_, h.queued, h.threaded⟩
      exact Keeps.drop (e := .took .stop) rfl le_rfl (List.nil_sublist _) rfl
  | closed =>
      refine ⟨progress_of_keeps ?_, h.queued, h.threaded⟩
      exact Keeps.drop (e := .closed) rfl le_rfl (List.nil_sublist _) rfl
  | stalled seconds =>
      simp only [handlePick]
      split
      · exact ⟨progress_of_keeps (keeps_leave t _), leave_sound h _⟩
      · exact ⟨.refl, h⟩

theorem iterate_progress {t : Task} (h : Sound t) (config : Config) (step : Answer × Pick) :
    Relation.ReflTransGen Progress t (iterate config t step) ∧ Sound (iterate config t step) := by
  unfold iterate
  split
  · rename_i hrunning
    obtain ⟨hkeeps, hsound, hnone⟩ := startFallback_keeps h hrunning step.1
    have hfallback := progress_of_keeps hkeeps
    dsimp only
    split
    · rename_i hstill
      unfold select
      split
      · rename_i msg rest _
        have hpopped : Keeps (t.startFallback step.1) { t.startFallback step.1 with notifications := rest } :=
          Keeps.same (List.append_nil _).symm le_rfl rfl fun _ he => absurd he List.not_mem_nil
        obtain ⟨hmessage, hafter⟩ := handleIncomingMessage_keeps
          (t := { t.startFallback step.1 with notifications := rest }) ⟨hsound.queued, hsound.threaded⟩ msg
        exact ⟨hfallback.trans (progress_of_keeps (hpopped.trans hmessage)), hafter⟩
      · obtain ⟨hend, hafter⟩ := handleLine_keeps hsound (.eof _)
        exact ⟨hfallback.trans (progress_of_keeps hend), hafter⟩
      · obtain ⟨hpick, hafter⟩ := handlePick_progress hsound hstill hnone config step.2
        exact ⟨hfallback.trans hpick, hafter⟩
    · exact ⟨hfallback, hsound⟩
  · exact ⟨.refl, h⟩

/-! ## Every run -/

/-- What holds of the prompts in every state reached. -/
structure Kept (t : Task) : Prop where
  conserves : Conserves new t.log t
  held : ∀ before n after, t.log = before ++ .accepted n :: after → (∀ e ∈ after, e.drops = false) →
    1 ≤ (sent t.log).count n + t.waiting.count n

theorem mem_accepted {log before after : List Entry} {n : Nat} (h : log = before ++ .accepted n :: after) :
    1 ≤ (accepted log).count n := by
  rw [List.one_le_count_iff, h, accepted_append]
  exact List.mem_append_right _ (List.mem_append_left _ (List.mem_singleton_self n))

/-- **One step** keeps it: what was accepted before is carried over, unless something ends; what is accepted is
kept. -/
theorem Kept.progress {t t' : Task} (h : Kept t) (hstep : Progress t t') : Kept t' := by
  obtain ⟨more, hmore, htidy⟩ := hstep
  refine ⟨by rw [hmore.log]; exact h.conserves.trans hmore, fun before n after hlog hclean => ?_⟩
  rw [hmore.log, sent_append, List.count_append]
  rw [hmore.log, List.append_eq_append_iff] at hlog
  have hnew : ∀ before', more = before' ++ .accepted n :: after →
      1 ≤ (sent t.log).count n + (sent more).count n + t'.waiting.count n := by
    intro before' hwithin
    have haccepted := mem_accepted hwithin
    obtain hnone | hkept := htidy
    · rw [hnone] at haccepted
      exact absurd haccepted (by simp)
    · have hcount := hmore.kept hkept n
      omega
  obtain ⟨rest, -, hwithin⟩ | ⟨rest, hold, hafter⟩ := hlog
  · exact hnew rest hwithin
  · cases rest with
    | nil => exact hnew [] hafter.symm
    | cons e rest =>
        rw [List.cons_append, List.cons.injEq] at hafter
        obtain ⟨rfl, rfl⟩ := hafter
        have hbefore := h.held before n rest hold fun e he => hclean e (List.mem_append_left _ he)
        have hcount := hmore.kept (fun e he => hclean e (List.mem_append_right _ he)) n
        omega

theorem Kept.steps {t t' : Task} (h : Kept t) (hsteps : Relation.ReflTransGen Progress t t') : Kept t' := by
  induction hsteps with
  | refl => exact h
  | tail _ hlast ih => exact ih.progress hlast

theorem kept_run (config : Config) (steps : List (Answer × Pick)) :
    Kept (run config steps) ∧ Sound (run config steps) := by
  have hnew : Kept new ∧ Sound new := by
    refine ⟨⟨.same rfl le_rfl rfl fun e he => absurd he List.not_mem_nil, fun before n after hlog => ?_⟩, .inl rfl,
      fun _ => ⟨rfl, rfl, rfl, rfl⟩⟩
    have hlen := congrArg List.length hlog
    rw [List.length_append] at hlen
    exact absurd hlen (by simp [new])
  unfold run
  generalize new = t at hnew
  induction steps generalizing t with
  | nil => exact hnew
  | cons step steps ih =>
      obtain ⟨hprogress, hsound⟩ := iterate_progress hnew.2 config step
      exact ih _ ⟨hnew.1.steps hprogress, hsound⟩

end Task

/-- **Accepted prompts are conserved.** In every state of every run: no prompt is in two places; a prompt that was
accepted has been sent or waits, unless since then a `StopTurn` or `Cancel` was taken, the process died, or the
task was told to end or panicked; numbers are given out in the order of acceptance; and the prompts that had to wait
have left in that order, and wait in it. -/
theorem prompts_conserved (config : Config) (steps : List (Answer × Pick)) :
    (∀ n, (sent (Task.run config steps).log ++ (Task.run config steps).waiting).count n ≤ 1) ∧
      (∀ before n after, (Task.run config steps).log = before ++ .accepted n :: after →
        (sent (Task.run config steps).log ++ (Task.run config steps).waiting).count n = 1 ∨
          ∃ e ∈ after, e.drops = true) ∧
      (accepted (Task.run config steps).log).Pairwise (· < ·) ∧
      (left (Task.run config steps).log ++ (Task.run config steps).waiting).Pairwise (· < ·) := by
  obtain ⟨h, -⟩ := Task.kept_run config steps
  generalize Task.run config steps = t at h
  have hsorted : (fresh Task.new t).Pairwise (· < ·) := List.pairwise_lt_range'
  have honce : ∀ n, (sent t.log ++ t.waiting).count n ≤ 1 := by
    intro n
    have hle := h.conserves.once n
    have hfresh := List.nodup_iff_count_le_one.mp (hsorted.imp Nat.ne_of_lt) n
    rw [List.count_append]
    have hnone : Task.new.waiting.count n = 0 := rfl
    omega
  refine ⟨honce, fun before n after hlog => ?_, hsorted.sublist h.conserves.numbered, hsorted.sublist h.conserves.order⟩
  by_cases hdrop : ∃ e ∈ after, e.drops = true
  · exact .inr hdrop
  · have hheld := h.held before n after hlog fun e he => by
      by_contra hdrops
      exact hdrop ⟨e, he, by simpa using hdrops⟩
    have hle := honce n
    rw [List.count_append] at hle ⊢
    exact .inl (by omega)

/-! ## A task that is told to end -/

def here : Config := ⟨"/work", "workspace-write"⟩

def attempts (_ : Nat) : Attempt := ⟨true, .whole, true⟩

/-- `{"result": {what: {"id": id}}}`. -/
def answerWith (what id : String) : Answer := .response [] (.obj [("result", .obj [(what, .obj [("id", .str id)])])])

def noSteering : Answer := .response [] (.obj [("error", .obj [("data", .obj [("activeTurnNotSteerable", .obj [])])])])

def emptyTask : Json := .obj [("message", .obj [("parts", .arr [])])]

/-- A prompt is deferred, and the task is told to end. -/
def endedEarly : List (Answer × Pick) :=
  [(.timedOut [], .start emptyTask attempts (answerWith "thread" "th") (answerWith "turn" "tu")),
    (.timedOut [], .prompt [] attempts noSteering), (.timedOut [], .stop)]

/-- What the prompts are said to disappear through. -/
def Entry.interrupts : Entry → Bool
  | .took .stopTurn | .took .cancel | .event (.processDied _ _) => true
  | _ => false

theorem ended_prompt_lost : ∃ before after, (Task.run here endedEarly).log = before ++ .accepted 0 :: after ∧
    (∀ e ∈ after, e.interrupts = false) ∧
    (sent (Task.run here endedEarly).log ++ (Task.run here endedEarly).waiting).count 0 = 0 := by
  refine ⟨(Task.run here endedEarly).log.take 6, [.took .stop], ?_, ?_, ?_⟩ <;> decide +kernel

end Executors.Codex
end AgentBeacon
