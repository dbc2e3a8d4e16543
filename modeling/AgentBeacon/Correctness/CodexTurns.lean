import AgentBeacon.Correctness.CodexPrompts
import Mathlib.Data.List.Chain

/-!
# `Correctness.CodexTurns` — a Codex turn that is not settled is followed by another

A turn's end is reported as not settled when prompts waited for it. Between two iterations of the loop the task is
calm, with nothing in flight, or has just reported such an end and holds the next turn's input; the next iteration
then starts that turn before anything else. A response that names no turn breaks this: the fallback stays in flight
with nothing to follow it.
-/

namespace AgentBeacon
namespace Executors.Codex

/-- The end of a turn that more is to follow. -/
def Entry.unsettled : Entry → Bool
  | .event (.turnComplete _ settled) => !settled
  | _ => false

/-- What follows it: the turn of the prompts that waited, or the death of the process. -/
def Entry.followsUp : Entry → Bool
  | .asked request _ =>
      match request.carries with
      | .waited numbers => request.method = "turn/start" && !numbers.isEmpty
      | _ => false
  | .event (.processDied _ _) => true
  | _ => false

/-- Every such end in the log is followed up by the next entry. -/
def FollowedUp (log : List Entry) : Prop := log.IsChain fun e e' => e.unsettled = true → e'.followsUp = true

/-- A fallback turn's answer, if it is no error, names the turn. -/
def NamesTurn (t : Task) (step : Answer × Pick) : Prop :=
  t.running = true → t.pendingFallbackInput ≠ none → ∀ meanwhile resp, step.1 = .response meanwhile resp →
    (resp.get "error").isSome = false → (turnIdOf resp).isSome = true

/-! ## Parts of the run that report no such end -/

/-- What is logged reports no end that is not settled. -/
def Quiet (t t' : Task) : Prop := ∃ more, t'.log = t.log ++ more ∧ ∀ e ∈ more, e.unsettled = false

namespace Quiet

variable {t t' t'' : Task}

theorem refl (t : Task) : Quiet t t := ⟨[], (List.append_nil _).symm, fun _ he => absurd he List.not_mem_nil⟩

theorem of_log (h : t'.log = t.log) : Quiet t t' :=
  ⟨[], by rw [h, List.append_nil], fun _ he => absurd he List.not_mem_nil⟩

theorem entry {e : Entry} (h : t'.log = t.log ++ [e]) (hquiet : e.unsettled = false) : Quiet t t' :=
  ⟨[e], h, fun e' he' => by rw [List.mem_singleton.mp he']; exact hquiet⟩

theorem trans (h : Quiet t t') (h' : Quiet t' t'') : Quiet t t'' := by
  obtain ⟨more, hlog, hmore⟩ := h
  obtain ⟨more', hlog', hmore'⟩ := h'
  refine ⟨more ++ more', by rw [hlog', hlog, List.append_assoc], fun e he => ?_⟩
  exact (List.mem_append.mp he).elim (hmore e) (hmore' e)

/-- Such a part leaves the log followed up. -/
theorem followedUp (h : Quiet t t') (hlog : FollowedUp t.log) (hlast : ∀ e ∈ t.log.getLast?, e.unsettled = false) :
    FollowedUp t'.log ∧ ∀ e ∈ t'.log.getLast?, e.unsettled = false := by
  obtain ⟨more, hsame, hmore⟩ := h
  have hchain : FollowedUp more := by
    refine (List.pairwise_of_forall_mem_list fun e he e' _ hunsettled => ?_).isChain
    rw [hmore e he] at hunsettled
    cases hunsettled
  rw [hsame]
  refine ⟨hlog.append hchain fun e he e' _ hunsettled => ?_, fun e he => ?_⟩
  · rw [hlast e he] at hunsettled
    cases hunsettled
  · rw [List.getLast?_append] at he
    cases hrest : more.getLast? with
    | none =>
        rw [hrest] at he
        exact hlast e he
    | some last =>
        rw [hrest] at he
        obtain rfl : last = e := Option.some.inj he
        exact hmore last (List.mem_of_getLast? hrest)

end Quiet

theorem quiet_ask (t : Task) (request : Request) (answer : Answer) : Quiet t (t.ask request answer) := by
  cases answer with
  | unsent e => exact Quiet.refl t
  | _ => exact Quiet.entry rfl rfl

theorem quiet_panic (t : Task) : Quiet t t.panic := Quiet.entry rfl rfl

theorem quiet_leave (t : Task) (error : String) : Quiet t ((t.died error).cleanupStateTempFiles).leave :=
  Quiet.entry rfl rfl

/-! ## Calm states -/

/-- Nothing is in flight, and nothing waits that a stop has been asked for. -/
structure Calm (t : Task) : Prop where
  flight : t.fallbackInFlight = false
  pending : t.pendingFallbackInput = none
  stopped : t.stopTurnRequested = true → t.deferredPrompts = []
  cancelled : t.cancelRequested = false

/-- An end that is not settled has just been reported, and the input of the next turn is at hand. -/
structure Poised (t : Task) : Prop where
  waits : ∃ prompts, t.pendingFallbackInput = some prompts ∧ prompts ≠ []
  deferred : t.deferredPrompts = []
  stopped : t.stopTurnRequested = false
  cancelled : t.cancelRequested = false
  thread : t.threadId ≠ none

/-- The log at the end of an iteration: all that is not settled is followed up, the last by what is at hand. -/
structure Followed (t : Task) : Prop where
  sound : Sound t
  chain : FollowedUp t.log
  calm : (∀ e ∈ t.log.getLast?, e.unsettled = false) → t.running = true → Calm t
  last : (∃ e ∈ t.log.getLast?, e.unsettled = true) → t.running = true ∧ Poised t

/-- Nothing waits at all. -/
structure Bare (t : Task) : Prop where
  flight : t.fallbackInFlight = false
  pending : t.pendingFallbackInput = none
  deferred : t.deferredPrompts = []

namespace Task

theorem queueFallback_bare {t : Task} (h : t.deferredPrompts = []) : t.queueFallback = t := by
  unfold queueFallback
  exact if_neg fun hqueued => hqueued.1 h

/-- With nothing waiting the end of a turn is settled. -/
theorem handleTurnCompleted_bare {t : Task} (h : Bare t) (msg : Json) :
    Quiet t (t.handleTurnCompleted msg) ∧ Bare (t.handleTurnCompleted msg) ∧
      (t.handleTurnCompleted msg).cancelRequested = t.cancelRequested := by
  have hsettled : t.endTurn.settled = true := by
    show (!t.fallbackInFlight && t.deferredPrompts.isEmpty) = true
    rw [h.flight, h.deferred]
    rfl
  have hsame := queueFallback_bare (t := t.endTurn.emit (.turnComplete (turnResult t msg) t.endTurn.settled)) h.deferred
  unfold handleTurnCompleted
  dsimp only
  rw [hsame]
  refine ⟨Quiet.entry rfl ?_, ⟨h.flight, h.pending, h.deferred⟩, rfl⟩
  show (!t.endTurn.settled) = false
  rw [hsettled]
  rfl

/-- Messages that do not end the turn report no end. -/
theorem handleNotification_other (t : Task) (msg : Json) {method : String} (h : method ≠ "turn/completed") :
    Quiet t (t.handleNotification msg method) ∧
      (t.handleNotification msg method).fallbackInFlight = t.fallbackInFlight ∧
      (t.handleNotification msg method).pendingFallbackInput = t.pendingFallbackInput ∧
      (t.handleNotification msg method).deferredPrompts = t.deferredPrompts ∧
      (t.handleNotification msg method).stopTurnRequested = t.stopTurnRequested ∧
      (t.handleNotification msg method).cancelRequested = t.cancelRequested ∧
      (t.handleNotification msg method).running = t.running := by
  unfold handleNotification
  rw [if_neg h]
  split
  · split
    · exact ⟨Quiet.of_log rfl, rfl, rfl, rfl, rfl, rfl, rfl⟩
    · exact ⟨Quiet.refl t, rfl, rfl, rfl, rfl, rfl, rfl⟩
  split
  · split
    · exact ⟨Quiet.refl t, rfl, rfl, rfl, rfl, rfl, rfl⟩
    · exact ⟨Quiet.entry rfl rfl, rfl, rfl, rfl, rfl, rfl, rfl⟩
  split
  · exact ⟨Quiet.entry rfl rfl, rfl, rfl, rfl, rfl, rfl, rfl⟩
  · exact ⟨Quiet.entry rfl rfl, rfl, rfl, rfl, rfl, rfl, rfl⟩

theorem handleIncomingMessage_bare {t : Task} (h : Bare t) (msg : Json) :
    Quiet t (t.handleIncomingMessage msg) ∧ Bare (t.handleIncomingMessage msg) ∧
      (t.handleIncomingMessage msg).cancelRequested = t.cancelRequested := by
  unfold handleIncomingMessage
  split
  · exact ⟨Quiet.entry rfl rfl, ⟨h.flight, h.pending, h.deferred⟩, rfl⟩
  · exact ⟨Quiet.refl t, h, rfl⟩
  · rename_i method _ _
    by_cases hmethod : method = "turn/completed"
    · unfold handleNotification
      rw [if_pos hmethod]
      exact handleTurnCompleted_bare h msg
    · obtain ⟨hquiet, hflight, hpending, hdeferred, -, hcancel, -⟩ := handleNotification_other t msg hmethod
      exact ⟨hquiet, ⟨hflight.trans h.flight, hpending.trans h.pending, hdeferred.trans h.deferred⟩, hcancel⟩
  · exact ⟨Quiet.refl t, h, rfl⟩

/-- What a message does in a calm state: the end of a turn that prompts waited for is the last thing reported. -/
theorem handleTurnCompleted_calm {t : Task} (hsound : Sound t) (h : Calm t) (msg : Json) :
    (Quiet t (t.handleTurnCompleted msg) ∧ Calm (t.handleTurnCompleted msg)) ∨
      ∃ e, (t.handleTurnCompleted msg).log = t.log ++ [e] ∧ e.unsettled = true ∧
        Poised (t.handleTurnCompleted msg) := by
  by_cases hnone : t.deferredPrompts = []
  · obtain ⟨hquiet, hbare, hcancel⟩ := handleTurnCompleted_bare ⟨h.flight, h.pending, hnone⟩ msg
    exact .inl ⟨hquiet, hbare.flight, hbare.pending, fun _ => hbare.deferred, hcancel.trans h.cancelled⟩
  · refine .inr ⟨.event (.turnComplete (turnResult t msg) t.endTurn.settled), queueFallback_log _, ?_, ?_⟩
    · show (!(!t.fallbackInFlight && t.deferredPrompts.isEmpty)) = true
      rw [List.isEmpty_eq_false_iff.mpr hnone, Bool.and_false]
      rfl
    · have hstop : t.stopTurnRequested = false := by
        cases hstop : t.stopTurnRequested with
        | false => rfl
        | true => exact absurd (h.stopped hstop) hnone
      have hqueued : t.deferredPrompts ≠ [] ∧ (!t.stopTurnRequested) = true ∧ (!t.cancelRequested) = true := by
        rw [hstop, h.cancelled]
        exact ⟨hnone, rfl, rfl⟩
      have hqueue : (t.endTurn.emit (.turnComplete (turnResult t msg) t.endTurn.settled)).queueFallback = _ :=
        if_pos hqueued
      unfold handleTurnCompleted
      dsimp only
      rw [hqueue]
      exact ⟨⟨t.deferredPrompts, rfl, hnone⟩, rfl, rfl, h.cancelled, fun hno => hnone (hsound.threaded hno).2.2.1⟩

theorem handleIncomingMessage_calm {t : Task} (hsound : Sound t) (h : Calm t) (msg : Json) :
    (Quiet t (t.handleIncomingMessage msg) ∧ Calm (t.handleIncomingMessage msg)) ∨
      ∃ e, (t.handleIncomingMessage msg).log = t.log ++ [e] ∧ e.unsettled = true ∧
        Poised (t.handleIncomingMessage msg) := by
  unfold handleIncomingMessage
  split
  · exact .inl ⟨Quiet.entry rfl rfl, h.flight, h.pending, h.stopped, h.cancelled⟩
  · exact .inl ⟨Quiet.refl t, h⟩
  · rename_i method _ _
    by_cases hmethod : method = "turn/completed"
    · unfold handleNotification
      rw [if_pos hmethod]
      exact handleTurnCompleted_calm hsound h msg
    · obtain ⟨hquiet, hflight, hpending, hdeferred, hstop, hcancel, -⟩ :=
        handleNotification_other t msg hmethod
      refine .inl ⟨hquiet, hflight.trans h.flight, hpending.trans h.pending, fun hstopped => ?_,
        hcancel.trans h.cancelled⟩
      exact hdeferred.trans (h.stopped (hstop ▸ hstopped))
  · exact .inl ⟨Quiet.refl t, h⟩

/-! ## Commands in calm states -/

/-- What a command leaves: no end is reported that is not settled, and a task that goes on is calm. -/
def Settles (t t' : Task) : Prop := Quiet t t' ∧ (t'.running = true → Calm t')

theorem settles_leave (t : Task) (error : String) : Settles t ((t.died error).cleanupStateTempFiles).leave :=
  ⟨quiet_leave t error, nofun⟩

theorem cancelWait_quiet {t : Task} (h : Bare t) (lines : List Line) : Quiet t (t.cancelWait lines) := by
  induction lines generalizing t with
  | nil => exact Quiet.refl t
  | cons line lines ih =>
      cases line with
      | json msg =>
          rw [cancelWait]
          split
          · exact (handleTurnCompleted_bare h msg).1
          · obtain ⟨hquiet, hbare, -⟩ := handleIncomingMessage_bare h msg
            exact hquiet.trans (ih hbare)
      | malformed => exact ih h
      | blank => exact ih h
      | eof exitInfo => exact Quiet.refl t
      | error e => exact Quiet.refl t

theorem handleCancel_settles {t : Task} (h : Calm t) (lines : List Line) : Settles t (t.handleCancel lines) := by
  unfold handleCancel
  generalize hdropped : cleanupDeferredTempFiles { t with cancelRequested := true, deferredPrompts := [] } = dropped
  have hquiet : Quiet t dropped := by
    subst hdropped
    exact Quiet.of_log rfl
  have hbare : Bare dropped := by
    subst hdropped
    exact ⟨h.flight, h.pending, rfl⟩
  dsimp only
  split
  · rename_i tid turnId _ _
    have hwait := cancelWait_quiet (t := dropped.tell (interrupt tid turnId))
      ⟨hbare.flight, hbare.pending, hbare.deferred⟩
      lines
    have htold : Quiet dropped (dropped.tell (interrupt tid turnId)) := Quiet.entry rfl rfl
    exact ⟨((hquiet.trans htold).trans hwait).trans (quiet_leave _ _), nofun⟩
  · exact ⟨hquiet.trans (quiet_leave _ _), nofun⟩

theorem stopWait_settles {t : Task} (h : Bare t) (hcancel : t.cancelRequested = false) (lines : List Line) :
    Settles t (t.stopWait lines) := by
  induction lines generalizing t with
  | nil => exact settles_leave t _
  | cons line lines ih =>
      cases line with
      | json msg =>
          rw [stopWait]
          split
          · dsimp only
            split
            · exact ⟨Quiet.entry rfl rfl, fun _ => ⟨rfl, h.pending, fun _ => h.deferred, hcancel⟩⟩
            · exact ⟨Quiet.of_log rfl, fun _ => ⟨rfl, h.pending, fun _ => h.deferred, hcancel⟩⟩
          · obtain ⟨hquiet, hbare, hsame⟩ := handleIncomingMessage_bare h msg
            obtain ⟨hthen, hafter⟩ := ih hbare (hsame.trans hcancel)
            exact ⟨hquiet.trans hthen, hafter⟩
      | malformed => exact ih h hcancel
      | blank => exact ih h hcancel
      | eof exitInfo => exact ⟨Quiet.refl t, fun _ => ⟨h.flight, h.pending, fun _ => h.deferred, hcancel⟩⟩
      | error e => exact ⟨Quiet.refl t, fun _ => ⟨h.flight, h.pending, fun _ => h.deferred, hcancel⟩⟩

theorem handleStopTurn_settles {t : Task} (h : Calm t) (lines : List Line) : Settles t (t.handleStopTurn lines) := by
  unfold handleStopTurn
  generalize hdropped : ({ cleanupDeferredTempFiles { t with stopTurnRequested := true } with
    deferredPrompts := [] } : Task) = dropped
  have hquiet : Quiet t dropped := by
    subst hdropped
    exact Quiet.of_log rfl
  have hbare : Bare dropped := by
    subst hdropped
    exact ⟨h.flight, h.pending, rfl⟩
  have hcancel : dropped.cancelRequested = false := by
    subst hdropped
    exact h.cancelled
  dsimp only
  split
  · exact ⟨hquiet.trans (Quiet.entry rfl rfl), fun _ => ⟨hbare.flight, hbare.pending, fun _ => hbare.deferred, hcancel⟩⟩
  · obtain ⟨hthen, hafter⟩ := stopWait_settles hbare hcancel lines
    exact ⟨hquiet.trans hthen, hafter⟩
  · exact ⟨hquiet, fun _ => ⟨hbare.flight, hbare.pending, fun _ => hbare.deferred, hcancel⟩⟩

theorem ask_calm {t : Task} (h : Calm t) (request : Request) (answer : Answer) : Calm (t.ask request answer) := by
  cases answer with
  | unsent e => exact h
  | _ => exact ⟨h.flight, h.pending, h.stopped, h.cancelled⟩

theorem exchange_calm {t : Task} (h : Calm t) (request : Request) (answer : Answer) :
    Quiet t (t.exchange request answer).1 ∧ Calm (t.exchange request answer).1 := by
  rw [exchange_fst]
  exact ⟨quiet_ask t request answer, ask_calm h request answer⟩

theorem doTurnStart_calm {t : Task} (h : Calm t) (input : List Json) (answer : Answer) :
    Quiet t (t.doTurnStart input answer).1 ∧ Calm (t.doTurnStart input answer).1 := by
  unfold doTurnStart
  split
  · exact ⟨Quiet.refl t, h⟩
  · rename_i tid _
    obtain ⟨hquiet, hcalm⟩ := exchange_calm h (turnStart tid input .nothing) answer
    split
    · rename_i hexchange
      rw [hexchange] at hquiet hcalm
      exact ⟨hquiet, hcalm⟩
    · rename_i hexchange
      rw [hexchange] at hquiet hcalm
      split
      · exact ⟨hquiet, hcalm⟩
      · exact ⟨hquiet.trans (Quiet.of_log rfl), rfl, hcalm.pending, hcalm.stopped, hcalm.cancelled⟩

theorem doResume_calm {t : Task} (h : Calm t) (resumeId : String) (input : List Json) (thread turn : Answer) :
    Quiet t (t.doResume resumeId input thread turn).1 ∧ Calm (t.doResume resumeId input thread turn).1 := by
  unfold doResume
  generalize ({ method := "thread/resume", params := _, carries := .nothing } : Request) = request
  obtain ⟨hquiet, hcalm⟩ := exchange_calm h request thread
  split
  · rename_i hexchange
    rw [hexchange] at hquiet hcalm
    exact ⟨hquiet, hcalm⟩
  · rename_i asked _ hexchange
    rw [hexchange] at hquiet hcalm
    obtain ⟨hturn, hafter⟩ := doTurnStart_calm (t := { asked with threadId := some resumeId })
      ⟨hcalm.flight, hcalm.pending, hcalm.stopped, hcalm.cancelled⟩ input turn
    exact ⟨(hquiet.trans (Quiet.of_log rfl)).trans hturn, hafter⟩

theorem doFreshStart_calm {t : Task} (h : Calm t) (config : Config) (input : List Json) (thread turn : Answer) :
    Quiet t (t.doFreshStart config input thread turn).1 ∧ Calm (t.doFreshStart config input thread turn).1 := by
  unfold doFreshStart
  dsimp only
  generalize ({ method := "thread/start", params := _, carries := .nothing } : Request) = request
  obtain ⟨hquiet, hcalm⟩ := exchange_calm h request thread
  split
  · rename_i hexchange
    rw [hexchange] at hquiet hcalm
    exact ⟨hquiet, hcalm⟩
  · rename_i asked _ hexchange
    rw [hexchange] at hquiet hcalm
    split
    · exact ⟨hquiet, hcalm⟩
    · rename_i tid _
      obtain ⟨hturn, hafter⟩ := doTurnStart_calm (t := { asked with threadId := some tid })
        ⟨hcalm.flight, hcalm.pending, hcalm.stopped, hcalm.cancelled⟩ input turn
      exact ⟨(hquiet.trans (Quiet.of_log rfl)).trans hturn, hafter⟩

theorem emitInit_calm {t : Task} (h : Calm t) : Quiet t t.emitInit ∧ Calm t.emitInit := by
  unfold emitInit
  split
  · exact ⟨Quiet.entry rfl rfl, h.flight, h.pending, h.stopped, h.cancelled⟩
  · exact ⟨Quiet.refl t, h⟩

theorem abandon_settles {t tried : Task} (hquiet : Quiet t tried) (what : String) (draft : Draft) (failure : Failure) :
    Settles t (tried.abandon what draft failure) := by
  cases failure with
  | error e => exact ⟨hquiet.trans (Quiet.entry rfl rfl), nofun⟩
  | panicked => exact ⟨hquiet.trans (quiet_panic tried), nofun⟩

theorem started_settles {t t' : Task} (hquiet : Quiet t t') (hcalm : Calm t') (files : List TempFile) :
    Settles t { t'.emitInit with activeTurnTempFiles := files } := by
  obtain ⟨hinit, hafter⟩ := emitInit_calm hcalm
  refine ⟨(hquiet.trans hinit).trans (Quiet.of_log rfl), fun _ => ?_⟩
  exact ⟨hafter.flight, hafter.pending, hafter.stopped, hafter.cancelled⟩

theorem handleStart_settles {t : Task} (h : Calm t) (config : Config) (payload : Json) (attempt : Nat → Attempt)
    (thread turn : Answer) : Settles t (t.handleStart config payload attempt thread turn) := by
  unfold handleStart
  split
  · exact ⟨Quiet.entry rfl rfl, nofun⟩
  · split
    · exact ⟨Quiet.entry rfl rfl, nofun⟩
    · rename_i draft _
      have hdrafted : Calm (t.drafted draft) := ⟨h.flight, h.pending, h.stopped, h.cancelled⟩
      have hquiet : Quiet t (t.drafted draft) := Quiet.of_log rfl
      split
      · rename_i resumeId _
        obtain ⟨htried, hcalm⟩ := doResume_calm hdrafted resumeId draft.input thread turn
        split
        · rename_i failure hresult
          rw [hresult] at htried
          exact abandon_settles (hquiet.trans htried) _ draft failure
        · rename_i hresult
          rw [hresult] at htried hcalm
          exact started_settles (hquiet.trans htried) hcalm _
      · obtain ⟨htried, hcalm⟩ := doFreshStart_calm hdrafted config draft.input thread turn
        split
        · rename_i failure hresult
          rw [hresult] at htried
          exact abandon_settles (hquiet.trans htried) _ draft failure
        · rename_i hresult
          rw [hresult] at htried hcalm
          exact started_settles (hquiet.trans htried) hcalm _

/-- A request for a prompt in vain. -/
theorem settles_died {t asked : Task} (hquiet : Quiet t asked) (hcalm : Calm asked) (error : String)
    (files : List TempFile) : Settles t ((asked.died error).cleanupTempFiles files) :=
  ⟨hquiet.trans (Quiet.entry rfl rfl), fun _ => ⟨hcalm.flight, hcalm.pending, hcalm.stopped, hcalm.cancelled⟩⟩

theorem promptTurn_settles {t : Task} (h : Calm t) (number : Nat) (draft : Draft) (answer : Answer) :
    Settles t (t.promptTurn number draft answer) := by
  unfold promptTurn
  split
  · exact settles_died (Quiet.refl t) h _ _
  · rename_i tid _
    dsimp only
    generalize turnStart tid draft.input (.own number) = request
    have hquiet := quiet_ask t request answer
    have hcalm := ask_calm h request answer
    generalize t.ask request answer = asked at hquiet hcalm
    split
    · exact settles_died hquiet hcalm _ _
    · exact settles_died hquiet hcalm _ _
    · split
      · exact ⟨hquiet.trans (quiet_panic asked), nofun⟩
      · exact settles_died hquiet hcalm _ _
    · exact settles_died hquiet hcalm _ _
    · split
      · exact settles_died hquiet hcalm _ _
      · exact ⟨hquiet.trans (Quiet.entry rfl rfl), fun _ => ⟨hcalm.flight, hcalm.pending, nofun, hcalm.cancelled⟩⟩

theorem promptSteer_settles {t : Task} (h : Calm t) (number : Nat) (draft : Draft) (answer : Answer) :
    Settles t (t.promptSteer number draft answer) := by
  unfold promptSteer
  dsimp only
  generalize turnSteer _ _ draft.input (.steer number) = request
  have hquiet := quiet_ask t request answer
  have hcalm := ask_calm h request answer
  generalize t.ask request answer = asked at hquiet hcalm
  split
  · exact settles_died hquiet hcalm _ _
  · exact settles_died hquiet hcalm _ _
  · split
    · exact ⟨hquiet.trans (quiet_panic asked), nofun⟩
    · exact settles_died hquiet hcalm _ _
  · exact settles_died hquiet hcalm _ _
  · split
    · split
      · -- prompts are only deferred while no stop is asked for
        rename_i hdeferrable
        refine ⟨hquiet.trans (Quiet.entry rfl rfl), fun _ => ⟨hcalm.flight, hcalm.pending, fun hstop => ?_,
          hcalm.cancelled⟩⟩
        have hstopped : asked.stopTurnRequested = true := hstop
        rw [hstopped] at hdeferrable
        cases hdeferrable.2
      split
      · exact ⟨hquiet.trans (Quiet.of_log rfl), fun _ =>
          ⟨hcalm.flight, hcalm.pending, hcalm.stopped, hcalm.cancelled⟩⟩
      · exact settles_died hquiet hcalm _ _
    · exact ⟨hquiet.trans (Quiet.entry rfl rfl), fun _ =>
        ⟨hcalm.flight, hcalm.pending, hcalm.stopped, hcalm.cancelled⟩⟩

theorem handlePrompt_settles {t : Task} (h : Calm t) (parts : List Json) (attempt : Nat → Attempt) (answer : Answer) :
    Settles t (t.handlePrompt parts attempt answer) := by
  unfold handlePrompt
  dsimp only
  split
  · exact ⟨Quiet.entry rfl rfl, fun _ => ⟨h.flight, h.pending, h.stopped, h.cancelled⟩⟩
  · rename_i draft _
    have hdrafted : Calm (Task.drafted { t with nextPrompt := t.nextPrompt + 1 } draft) :=
      ⟨h.flight, h.pending, h.stopped, h.cancelled⟩
    have hquiet : Quiet t (Task.drafted { t with nextPrompt := t.nextPrompt + 1 } draft) := Quiet.of_log rfl
    split
    · rename_i hflight
      have hflying : t.fallbackInFlight = true := hflight
      rw [h.flight] at hflying
      cases hflying
    split
    · obtain ⟨hthen, hafter⟩ := promptTurn_settles hdrafted t.nextPrompt draft answer
      exact ⟨hquiet.trans hthen, hafter⟩
    · obtain ⟨hthen, hafter⟩ := promptSteer_settles hdrafted t.nextPrompt draft answer
      exact ⟨hquiet.trans hthen, hafter⟩

theorem handlePick_calm {t : Task} (hsound : Sound t) (h : Calm t) (config : Config) (pick : Pick) :
    Settles t (t.handlePick config pick) ∨
      ∃ e, (t.handlePick config pick).log = t.log ++ [e] ∧ e.unsettled = true ∧ Poised (t.handlePick config pick) ∧
        (t.handlePick config pick).running = t.running := by
  have htook : ∀ command, Quiet t (t.took command) ∧ Calm (t.took command) := fun command =>
    ⟨Quiet.entry rfl rfl, h.flight, h.pending, h.stopped, h.cancelled⟩
  have hafter : ∀ {command t'}, Settles (t.took command) t' → Settles t t' := fun {command t'} hsettles =>
    ⟨(htook command).1.trans hsettles.1, hsettles.2⟩
  cases pick with
  | line line =>
      cases line with
      | json msg =>
          obtain ⟨hquiet, hcalm⟩ | ⟨e, hlog, hunsettled, hpoised⟩ := handleIncomingMessage_calm hsound h msg
          · exact .inl ⟨hquiet, fun _ => hcalm⟩
          · exact .inr ⟨e, hlog, hunsettled, hpoised, handleIncomingMessage_running t msg⟩
      | malformed => exact .inl ⟨Quiet.refl t, fun _ => h⟩
      | blank => exact .inl ⟨Quiet.refl t, fun _ => h⟩
      | eof exitInfo => exact .inl (settles_leave t _)
      | error e => exact .inl (settles_leave t _)
  | start payload attempt thread turn =>
      exact .inl (hafter (handleStart_settles (htook (.start payload)).2 config payload attempt thread turn))
  | prompt parts attempt answer =>
      exact .inl (hafter (handlePrompt_settles (htook (.prompt parts)).2 parts attempt answer))
  | cancel lines => exact .inl (hafter (handleCancel_settles (htook .cancel).2 lines))
  | stopTurn lines => exact .inl (hafter (handleStopTurn_settles (htook .stopTurn).2 lines))
  | stop => exact .inl ⟨Quiet.entry rfl rfl, nofun⟩
  | closed => exact .inl ⟨Quiet.entry rfl rfl, nofun⟩
  | stalled seconds =>
      simp only [handlePick]
      split
      · exact .inl (settles_leave t _)
      · exact .inl ⟨Quiet.refl t, fun _ => h⟩

/-! ## The loop -/

/-- **The turn at hand is started** before anything else, or the process dies. -/
theorem startFallback_poised {t : Task} (h : Poised t) {answer : Answer}
    (hnames : ∀ meanwhile resp, answer = .response meanwhile resp → (resp.get "error").isSome = false →
      (turnIdOf resp).isSome = true) :
    ∃ e t', t'.log = t.log ++ [e] ∧ e.followsUp = true ∧ Settles t' (t.startFallback answer) := by
  obtain ⟨prompts, hpending, hprompts⟩ := h.waits
  obtain ⟨tid, hthread⟩ := Option.ne_none_iff_exists'.mp h.thread
  have hnumbers : (prompts.map Deferred.number).isEmpty = false := by
    rw [List.isEmpty_map]
    exact List.isEmpty_eq_false_iff.mpr hprompts
  unfold startFallback
  rw [hpending, hthread]
  dsimp only
  generalize hrequest : turnStart tid (combinedInput prompts) (.waited (prompts.map Deferred.number)) = request
  have hfollows : ∀ answer, (Entry.asked request answer).followsUp = true := fun answer => by
    rw [← hrequest]
    show ("turn/start" = "turn/start" && !(prompts.map Deferred.number).isEmpty) = true
    rw [hnumbers]
    rfl
  cases answer with
  | unsent e =>
      exact ⟨.event (.processDied _ _), _, rfl, rfl, Quiet.refl _, nofun⟩
  | failed meanwhile e =>
      exact ⟨.asked request (.failed meanwhile e), _, rfl, hfollows _, settles_leave _ _⟩
  | malformed meanwhile line =>
      refine ⟨.asked request (.malformed meanwhile line),
        ask { t with pendingFallbackInput := none } request (.malformed meanwhile line), rfl, hfollows _, ?_⟩
      dsimp only
      split
      · exact ⟨quiet_panic _, nofun⟩
      · exact settles_leave _ _
  | timedOut meanwhile =>
      exact ⟨.asked request (.timedOut meanwhile), _, rfl, hfollows _, settles_leave _ _⟩
  | response meanwhile resp =>
      refine ⟨.asked request (.response meanwhile resp),
        ask { t with pendingFallbackInput := none } request (.response meanwhile resp), rfl, hfollows _, ?_⟩
      dsimp only
      split
      · exact settles_leave _ _
      · rename_i herror
        obtain ⟨turnId, hturn⟩ := Option.isSome_iff_exists.mp (hnames meanwhile resp rfl (by simpa using herror))
        rw [hturn]
        dsimp only
        split
        · exact ⟨Quiet.entry rfl rfl, fun _ => ⟨rfl, rfl, fun _ => h.deferred, h.cancelled⟩⟩
        · exact ⟨Quiet.of_log rfl, fun _ => ⟨rfl, rfl, fun _ => h.deferred, h.cancelled⟩⟩

theorem startFallback_calm {t : Task} (h : Calm t) (answer : Answer) : t.startFallback answer = t := by
  unfold startFallback
  rw [h.pending]

/-- The head of an iteration leaves the log followed up and the task calm. -/
theorem startFallback_followed {t : Task} (h : Followed t) (hrunning : t.running = true) {step : Answer × Pick}
    (hnames : NamesTurn t step) :
    FollowedUp (t.startFallback step.1).log ∧ (∀ e ∈ (t.startFallback step.1).log.getLast?, e.unsettled = false) ∧
      ((t.startFallback step.1).running = true → Calm (t.startFallback step.1)) := by
  by_cases hlast : ∃ e ∈ t.log.getLast?, e.unsettled = true
  · obtain ⟨-, hpoised⟩ := h.last hlast
    obtain ⟨prompts, hpending, -⟩ := hpoised.waits
    obtain ⟨e, t', hlog, hfollows, hquiet, hcalm⟩ := startFallback_poised hpoised
      (hnames hrunning (by rw [hpending]; nofun))
    have hplain : e.unsettled = false := by
      cases e with
      | event event =>
          cases event with
          | turnComplete => cases hfollows
          | _ => rfl
      | _ => rfl
    have hchain : FollowedUp t'.log := by
      rw [hlog]
      exact h.chain.append (List.isChain_singleton e) fun _ _ e' he' _ => by
        obtain rfl : e = e' := Option.some.inj he'
        exact hfollows
    obtain ⟨hafter, hnone⟩ := hquiet.followedUp hchain fun e' he' => by
      rw [hlog, List.getLast?_concat] at he'
      obtain rfl := Option.some.inj he'
      exact hplain
    exact ⟨hafter, hnone, hcalm⟩
  · have hnone : ∀ e ∈ t.log.getLast?, e.unsettled = false := fun e he => by
      by_contra hunsettled
      exact hlast ⟨e, he, by simpa using hunsettled⟩
    have hcalm := h.calm hnone hrunning
    rw [startFallback_calm hcalm]
    exact ⟨h.chain, hnone, fun _ => hcalm⟩

/-- **One step**: an end that is not settled is the last thing it reports, if at all. -/
theorem iterate_followed {t : Task} (h : Followed t) (config : Config) {step : Answer × Pick}
    (hnames : NamesTurn t step) : Followed (iterate config t step) := by
  have hsound := (iterate_progress h.sound config step).2
  revert hsound
  unfold iterate
  split
  · rename_i hrunning
    obtain ⟨hchain, hnone, hcalm⟩ := startFallback_followed h hrunning hnames
    have hstarted := (startFallback_keeps h.sound hrunning step.1).2.1
    generalize t.startFallback step.1 = started at hchain hnone hcalm hstarted
    have hquiet : ∀ {t' : Task}, Sound t' → Quiet started t' → (t'.running = true → Calm t') → Followed t' := by
      intro t' hsound' hquiet hcalm'
      obtain ⟨hafter, hlast⟩ := hquiet.followedUp hchain hnone
      refine ⟨hsound', hafter, fun _ => hcalm', ?_⟩
      rintro ⟨e, he, hunsettled⟩
      rw [hlast e he] at hunsettled
      cases hunsettled
    have hpoised : ∀ {t' : Task} {e : Entry}, Sound t' → t'.log = started.log ++ [e] → e.unsettled = true →
        t'.running = true → Poised t' → Followed t' := by
      intro t' e hsound' hlog hunsettled hrunning' hpoised
      refine ⟨hsound', ?_, fun hplain => ?_, fun _ => ⟨hrunning', hpoised⟩⟩
      · rw [hlog]
        refine hchain.append (List.isChain_singleton e) fun e' he' _ _ hunsettled' => ?_
        rw [hnone e' he'] at hunsettled'
        cases hunsettled'
      · rw [hlog, List.getLast?_concat] at hplain
        rw [hplain e rfl] at hunsettled
        cases hunsettled
    dsimp only
    split
    · rename_i hstill
      have hcalmNow := hcalm hstill
      unfold select
      split
      · rename_i msg rest _
        intro hsound
        have hmessage := handleIncomingMessage_calm (t := { started with notifications := rest })
          ⟨hstarted.queued, hstarted.threaded⟩
          ⟨hcalmNow.flight, hcalmNow.pending, hcalmNow.stopped, hcalmNow.cancelled⟩ msg
        obtain ⟨hkept, hafter⟩ | ⟨e, hlog, hunsettled, hafter⟩ := hmessage
        · exact hquiet hsound ((Quiet.of_log rfl).trans hkept) fun _ => hafter
        · exact hpoised hsound hlog hunsettled ((handleIncomingMessage_running _ msg).trans hstill) hafter
      · rename_i exitInfo _ _
        intro hsound
        have hend := settles_leave started ("Codex process died (" ++ exitInfo ++ ")")
        exact hquiet hsound hend.1 hend.2
      · intro hsound
        have hpick := handlePick_calm hstarted hcalmNow config step.2
        obtain ⟨hkept, hafter⟩ | ⟨e, hlog, hunsettled, hafter, hrun⟩ := hpick
        · exact hquiet hsound hkept hafter
        · exact hpoised hsound hlog hunsettled (hrun.trans hstill) hafter
    · rename_i hended
      exact fun hsound => hquiet hsound (Quiet.refl started) fun hstill => absurd hstill hended
  · exact fun _ => h

end Task

/-- **A turn that is not settled is followed by another.** In a run in which every fallback turn that is not refused
is named, the next thing after such an end is the turn of the prompts that waited, or the death of the process; and
where it is the last thing so far, the task goes on and has that turn's input at hand. -/
theorem unsettled_turn_followed (config : Config) (steps : List (Answer × Pick))
    (h : Along (Task.iterate config) NamesTurn Task.new steps) :
    FollowedUp (Task.run config steps).log ∧
      ((∃ e ∈ (Task.run config steps).log.getLast?, e.unsettled = true) → (Task.run config steps).running = true ∧
        ∃ prompts, (Task.run config steps).pendingFallbackInput = some prompts ∧ prompts ≠ []) := by
  have hnew : Followed Task.new :=
    ⟨⟨.inl rfl, fun _ => ⟨rfl, rfl, rfl, rfl⟩⟩, List.isChain_nil, fun _ _ => ⟨rfl, rfl, fun _ => rfl, rfl⟩,
      fun ⟨e, he, _⟩ => by cases he⟩
  have hrun := h.invariant (I := Followed) (fun _ _ hfollowed hnames => Task.iterate_followed hfollowed config hnames)
    hnew
  exact ⟨hrun.chain, fun hlast => ⟨(hrun.last hlast).1, (hrun.last hlast).2.waits⟩⟩

/-! ## A run that is followed up, and one that is not -/

def turnCompleted : Json := .obj [("method", .str "turn/completed")]

/-- A prompt waits for the end of the turn. -/
def endedTurn : List (Answer × Pick) :=
  [(.timedOut [], .start emptyTask attempts (answerWith "thread" "th") (answerWith "turn" "tu")),
    (.timedOut [], .prompt [] attempts noSteering), (.timedOut [], .line (.json turnCompleted))]

/-- The next turn is named, and ends too. -/
def followedTurn : List (Answer × Pick) :=
  endedTurn ++ [(answerWith "turn" "tv", .line (.json turnCompleted))]

theorem unsettled_turn_followed_named :
    ((Task.run here followedTurn).log.any Entry.unsettled) = true ∧ FollowedUp (Task.run here followedTurn).log := by
  have hidle : ∀ {t : Task} {step : Answer × Pick}, t.pendingFallbackInput = none → NamesTurn t step :=
    fun hnone _ hsome => absurd hnone hsome
  refine ⟨by decide +kernel, (unsettled_turn_followed here followedTurn
    ⟨hidle rfl, hidle rfl, hidle ?_, fun _ _ meanwhile resp hresp _ => ?_, trivial⟩).1⟩
  · decide +kernel
  · obtain ⟨-, rfl⟩ := Answer.response.inj hresp
    decide +kernel

/-- The next turn is not named; it ends, and then a prompt comes whose image cannot be read. -/
def unnamedTurn : List (Answer × Pick) :=
  endedTurn ++ [(.response [] (.obj [("result", .obj [])]), .line (.json turnCompleted)),
    (.timedOut [], .prompt [.obj [("raw", .str "?"), ("mediaType", .str "image/png")]] (fun _ => ⟨false, .whole, true⟩)
      (.timedOut []))]

theorem unnamed_turn_not_followed : ∃ before ended parts other,
    (Task.run here unnamedTurn).log = before ++ [.event (.turnComplete ended false), .took (.prompt parts),
      .event (.turnComplete other true)] ∧
      ∀ e ∈ (Task.run here unnamedTurn).log, e.interrupts = false := by
  refine ⟨(Task.run here unnamedTurn).log.dropLast.dropLast.dropLast, ⟨some "th", none, none, none⟩,
    [.obj [("raw", .str "?"), ("mediaType", .str "image/png")]],
    ⟨some "th", some "failed to prepare input: failed to decode base64 image data", some .executorFailed, none⟩, ?_, ?_⟩
  · decide +kernel
  · decide +kernel

end Executors.Codex
end AgentBeacon
