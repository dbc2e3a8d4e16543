import AgentBeacon.Correctness.CodexFiles
import AgentBeacon.Correctness.CodexTurns
import AgentBeacon.Correctness.AcpPrompts
import AgentBeacon.Worker.Sdk

/-!
# `Correctness.IdleStop` — stopping an executor that is idle

Between turns the ACP executor and the SDK executors ignore a `StopTurn`. The Codex executor waits for the answer to
a `turn/start`, whether or not one is on its way, and when none comes it shuts the process down.
-/

namespace AgentBeacon
namespace Executors

/-! ## Codex -/

namespace Codex

/-- What reports the end of a turn or of the process. -/
def Entry.reportsEnd : Entry → Bool
  | .event (.turnComplete _ _) | .event (.processDied _ _) => true
  | _ => false

/-- No turn is active, and none is being started; a command is what the loop takes next. -/
structure Idle (t : Task) : Prop where
  running : t.running = true
  active : t.activeTurnId = none
  flight : t.fallbackInFlight = false
  pending : t.pendingFallbackInput = none
  unread : t.notifications = []
  reading : t.ended = none

/-- The app server takes the prompt, or says of it only that the running turn cannot take it. -/
def welcomes (t : Task) : Answer → Bool
  | .response _ resp =>
      match resp.get "error" with
      | none => true
      | some err => t.activeTurnId.isSome && Task.notSteerable err
  | _ => false

/-- The next prompt is accepted, if it can be read and the app server has nothing against it; before there is a
thread, the next prompt is that of a `Start`, which gets its turn. -/
structure AcceptsNext (config : Config) (t : Task) : Prop where
  prompt : t.threadId ≠ none → ∀ first parts attempt answer draft,
    partsToCodexInput attempt t.nextFile parts = .ok draft → welcomes t answer = true →
      (Task.iterate config t (first, .prompt parts attempt answer)).running = true ∧
        ∃ more, (Task.iterate config t (first, .prompt parts attempt answer)).log = t.log ++ more ∧
          .accepted t.nextPrompt ∈ more
  start : t.threadId = none → ∀ first payload attempt thread turn, Starts t payload attempt thread turn →
    (Task.iterate config t (first, .start payload attempt thread turn)).running = true ∧
      (Task.iterate config t (first, .start payload attempt thread turn)).activeTurnId ≠ none

/-- A task is left alive and able to accept the next prompt, and no end is reported. -/
structure LeavesAlone (config : Config) (t t' : Task) : Prop where
  running : t'.running = true
  accepts : AcceptsNext config t'
  silent : ∃ more, t'.log = t.log ++ more ∧ more.any Entry.reportsEnd = false

/-- A message by which a turn is complete. -/
def endsTurn (msg : Json) : Bool := (msg.get "id").isNone && Task.isTurnCompleted msg

/-- The wait is over before it is too late: a line cannot be read, and until then no turn has ended, none was named,
and the output went on. -/
def cutShort : List Line → Bool
  | [] => false
  | .json msg :: lines => (Task.lateTurnId msg).isNone && !endsTurn msg && cutShort lines
  | .malformed :: lines | .blank :: lines => cutShort lines
  | .eof _ :: _ => false
  | .error _ :: _ => true

namespace Task

/-! ### The next prompt -/

theorem iterate_idle {t : Task} (hrunning : t.running = true) (hpending : t.pendingFallbackInput = none)
    (hunread : t.notifications = []) (hreading : t.ended = none) (config : Config) (first : Answer) (pick : Pick) :
    iterate config t (first, pick) = t.handlePick config pick := by
  have hstart : t.startFallback first = t := by
    unfold startFallback
    rw [hpending]
  unfold iterate
  dsimp only
  rw [if_pos hrunning, hstart, if_pos hrunning]
  unfold select
  rw [hunread, hreading]

/-- A turn that is started is active. -/
theorem doTurnStart_active {t : Task} {input : List Json} {answer : Answer}
    (h : (t.doTurnStart input answer).2 = .ok ()) : (t.doTurnStart input answer).1.activeTurnId ≠ none := by
  revert h
  unfold doTurnStart
  split
  · nofun
  · split
    · nofun
    · split
      · nofun
      · exact fun _ => nofun

theorem doResume_active {t : Task} {resumeId : String} {input : List Json} {thread turn : Answer}
    (h : (t.doResume resumeId input thread turn).2 = .ok ()) :
    (t.doResume resumeId input thread turn).1.activeTurnId ≠ none := by
  revert h
  unfold doResume
  split
  · nofun
  · exact doTurnStart_active

theorem doFreshStart_active {t : Task} {config : Config} {input : List Json} {thread turn : Answer}
    (h : (t.doFreshStart config input thread turn).2 = .ok ()) :
    (t.doFreshStart config input thread turn).1.activeTurnId ≠ none := by
  revert h
  unfold doFreshStart
  dsimp only
  split
  · nofun
  · split
    · nofun
    · exact doTurnStart_active

theorem emitInit_standing (t : Task) : t.emitInit.activeTurnId = t.activeTurnId ∧ t.emitInit.running = t.running := by
  unfold emitInit
  split <;> exact ⟨rfl, rfl⟩

/-- A `Start` that is answered gets its turn. -/
theorem handleStart_active {t : Task} (hrunning : t.running = true) (config : Config) {payload : Json}
    {attempt : Nat → Attempt} {thread turn : Answer} (h : Starts t payload attempt thread turn) :
    (t.handleStart config payload attempt thread turn).running = true ∧
      (t.handleStart config payload attempt thread turn).activeTurnId ≠ none := by
  obtain ⟨hanswered, parts, draft, hparts, hconvert⟩ := h
  unfold handleStart
  rw [hparts]
  dsimp only
  rw [hconvert]
  dsimp only
  split
  · rename_i resumeId hresume
    obtain ⟨hsame, hcomes⟩ := doResume_files (t.drafted draft) hresume draft.input thread turn
    have hdone := hcomes.done.mpr hanswered
    have hactive := doResume_active hdone
    split
    · rename_i hresult
      rw [hresult] at hdone
      cases hdone
    · rename_i started _ hresult
      rw [hresult] at hactive hsame
      obtain ⟨hsameActive, hsameRunning⟩ := emitInit_standing started
      exact ⟨hsameRunning.trans (hsame.running.trans hrunning), fun hnone => hactive (hsameActive.symm.trans hnone)⟩
  · rename_i hresume
    obtain ⟨hsame, hcomes⟩ := doFreshStart_files (t.drafted draft) hresume config draft.input thread turn
    have hdone := hcomes.done.mpr hanswered
    have hactive := doFreshStart_active hdone
    split
    · rename_i hresult
      rw [hresult] at hdone
      cases hdone
    · rename_i started _ hresult
      rw [hresult] at hactive hsame
      obtain ⟨hsameActive, hsameRunning⟩ := emitInit_standing started
      exact ⟨hsameRunning.trans (hsame.running.trans hrunning), fun hnone => hactive (hsameActive.symm.trans hnone)⟩

/-- With no turn, and none being started, a prompt gets a turn of its own. -/
theorem handlePrompt_own {t : Task} {parts : List Json} {attempt : Nat → Attempt} {draft : Draft}
    (hconvert : partsToCodexInput attempt t.nextFile parts = .ok draft) (hflight : t.fallbackInFlight = false)
    (hactive : t.activeTurnId = none) (answer : Answer) :
    t.handlePrompt parts attempt answer =
      (drafted { t with nextPrompt := t.nextPrompt + 1 } draft).promptTurn t.nextPrompt draft answer := by
  unfold handlePrompt
  dsimp only
  rw [hconvert]
  dsimp only
  split
  · rename_i hstarting
    have hflying : t.fallbackInFlight = true := hstarting
    rw [hflight] at hflying
    cases hflying
  split
  · rfl
  · rename_i hbusy
    exact absurd (show t.activeTurnId.isNone = true by rw [hactive]; rfl) hbusy

/-- While a turn is active, it is steered into that. -/
theorem handlePrompt_steer {t : Task} {parts : List Json} {attempt : Nat → Attempt} {draft : Draft} {turnId : String}
    (hconvert : partsToCodexInput attempt t.nextFile parts = .ok draft) (hflight : t.fallbackInFlight = false)
    (hactive : t.activeTurnId = some turnId) (answer : Answer) :
    t.handlePrompt parts attempt answer =
      (drafted { t with nextPrompt := t.nextPrompt + 1 } draft).promptSteer t.nextPrompt draft answer := by
  unfold handlePrompt
  dsimp only
  rw [hconvert]
  dsimp only
  split
  · rename_i hstarting
    have hflying : t.fallbackInFlight = true := hstarting
    rw [hflight] at hflying
    cases hflying
  split
  · rename_i hidle
    have hnone : t.activeTurnId.isNone = true := hidle
    rw [hactive] at hnone
    cases hnone
  · rfl

/-- A turn of its own that is not refused. -/
theorem promptTurn_accepts {t : Task} {tid : String} (hthread : t.threadId = some tid) (number : Nat) (draft : Draft)
    (meanwhile : List Json) {resp : Json} (h : resp.get "error" = none) :
    (t.promptTurn number draft (.response meanwhile resp)).running = t.running ∧
      ∃ request, (t.promptTurn number draft (.response meanwhile resp)).log =
        t.log ++ [.asked request (.response meanwhile resp), .accepted number] := by
  unfold promptTurn
  rw [hthread]
  dsimp only
  rw [h]
  exact ⟨rfl, _, List.append_assoc _ [_] [_]⟩

/-- A prompt that the running turn cannot take is dropped while that turn is being stopped. -/
theorem promptSteer_drops {t : Task} (hstop : t.stopTurnRequested = true) (number : Nat) (draft : Draft) :
    ∃ request, (t.promptSteer number draft noSteering).log = t.log ++ [.asked request noSteering] := by
  unfold promptSteer noSteering
  dsimp only
  split
  · rename_i err herror
    have hstopped : ∀ request answer, (t.ask request answer).stopTurnRequested = true := fun request answer => by
      cases answer <;> exact hstop
    split
    · rename_i hdeferrable
      rw [hstopped] at hdeferrable
      cases hdeferrable.2
    split
    · exact ⟨_, rfl⟩
    · rename_i hnot
      exact absurd (hstopped _ _) hnot
  · rename_i hnone
    cases hnone

/-- **An idle task accepts the next prompt**, also when a stop has been asked for. -/
theorem acceptsNext {t : Task} (h : Idle t) (config : Config) : AcceptsNext config t where
  prompt hthread first parts attempt answer draft hconvert hwelcome := by
    obtain ⟨tid, htid⟩ := Option.ne_none_iff_exists'.mp hthread
    rw [iterate_idle h.running h.pending h.unread h.reading]
    rw [show t.handlePick config (.prompt parts attempt answer) =
      handlePrompt (t.took (.prompt parts)) parts attempt answer from rfl,
      handlePrompt_own (t := t.took (.prompt parts)) hconvert h.flight h.active]
    cases answer with
    | response meanwhile resp =>
        have hnone : resp.get "error" = none := by
          cases herror : resp.get "error" with
          | none => rfl
          | some err =>
              rw [welcomes, h.active, herror] at hwelcome
              cases hwelcome
        obtain ⟨hrunning, request, hlog⟩ := promptTurn_accepts
          (t := drafted { t.took (.prompt parts) with nextPrompt := t.nextPrompt + 1 } draft) htid t.nextPrompt draft
          meanwhile hnone
        refine ⟨hrunning.trans h.running,
          [.took (.prompt parts), .asked request (.response meanwhile resp), .accepted t.nextPrompt],
          hlog.trans (List.append_assoc _ [_] _), ?_⟩
        simp
    | _ => cases hwelcome
  start _ first payload attempt thread turn hstarts := by
    rw [iterate_idle h.running h.pending h.unread h.reading]
    exact handleStart_active (t := t.took (.start payload)) h.running config hstarts

/-! ### The wait -/

/-- A message reports an end exactly if it is that of a turn. -/
theorem handleIncomingMessage_ends (t : Task) (msg : Json) :
    ∃ more, (t.handleIncomingMessage msg).log = t.log ++ more ∧ more.any Entry.reportsEnd = endsTurn msg := by
  unfold handleIncomingMessage endsTurn isTurnCompleted
  split
  · rename_i id method hid hmethod
    exact ⟨[.told _], rfl, by rw [hid]; rfl⟩
  · rename_i id hid hmethod
    exact ⟨[], (List.append_nil _).symm, by rw [hid]; rfl⟩
  · rename_i method hid hmethod
    rw [hid, hmethod]
    unfold handleNotification
    split
    · rename_i hcompleted
      refine ⟨[.event (.turnComplete (turnResult t msg) t.endTurn.settled)], queueFallback_log _, ?_⟩
      rw [hcompleted]
      rfl
    rename_i hother
    have hplain : (Option.isNone (none : Option Json) && decide (some method = some "turn/completed")) = false := by
      simp [hother]
    rw [hplain]
    split
    · split
      · exact ⟨[], (List.append_nil _).symm, rfl⟩
      · exact ⟨[], (List.append_nil _).symm, rfl⟩
    split
    · split
      · exact ⟨[], (List.append_nil _).symm, rfl⟩
      · exact ⟨[.event (.message _ _)], rfl, rfl⟩
    split
    · exact ⟨[.event (.message _ _)], rfl, rfl⟩
    · exact ⟨[.event (.message _ _)], rfl, rfl⟩
  · rename_i hid hmethod
    exact ⟨[], (List.append_nil _).symm, by rw [hid, hmethod]; rfl⟩

/-- Once there is a thread, a message that ends no turn changes nothing but the log. -/
theorem handleIncomingMessage_other {t : Task} {tid : String} (hthread : t.threadId = some tid) {msg : Json}
    (h : endsTurn msg = false) : ∃ log, t.handleIncomingMessage msg = { t with log } := by
  unfold endsTurn isTurnCompleted at h
  unfold handleIncomingMessage
  split
  · exact ⟨_, rfl⟩
  · exact ⟨t.log, rfl⟩
  · rename_i method hid hmethod
    rw [hid, hmethod] at h
    have hother : method ≠ "turn/completed" := by
      rintro rfl
      cases h
    unfold handleNotification
    rw [if_neg hother]
    split
    · split
      · rename_i hnone _
        rw [hthread] at hnone
        cases hnone
      · exact ⟨t.log, rfl⟩
    split
    · split
      · exact ⟨t.log, rfl⟩
      · exact ⟨_, rfl⟩
    split
    · exact ⟨_, rfl⟩
    · exact ⟨_, rfl⟩
  · exact ⟨t.log, rfl⟩

theorem stopWait_log (t : Task) (lines : List Line) : ∃ more, (t.stopWait lines).log = t.log ++ more := by
  induction lines generalizing t with
  | nil => exact ⟨[.event (.processDied _ _)], rfl⟩
  | cons line lines ih =>
      cases line with
      | json msg =>
          rw [stopWait]
          split
          · dsimp only
            split
            · exact ⟨[.told _], rfl⟩
            · exact ⟨[], (List.append_nil _).symm⟩
          · obtain ⟨more, hmore, -⟩ := handleIncomingMessage_ends t msg
            obtain ⟨more', hmore'⟩ := ih (t.handleIncomingMessage msg)
            exact ⟨more ++ more', by rw [hmore', hmore, List.append_assoc]⟩
      | malformed => exact ih t
      | blank => exact ih t
      | eof exitInfo => exact ⟨[], (List.append_nil _).symm⟩
      | error e => exact ⟨[], (List.append_nil _).symm⟩

/-- **A wait that is cut short** leaves the task as it was. -/
theorem stopWait_cutShort {t : Task} {tid : String} (hthread : t.threadId = some tid) {lines : List Line}
    (h : cutShort lines = true) :
    ∃ more, t.stopWait lines = { t with log := t.log ++ more } ∧ more.any Entry.reportsEnd = false := by
  induction lines generalizing t with
  | nil => cases h
  | cons line lines ih =>
      cases line with
      | json msg =>
          simp only [cutShort, Bool.and_eq_true, Bool.not_eq_true'] at h
          obtain ⟨⟨hlate, hends⟩, hrest⟩ := h
          obtain ⟨more, hmore, hsilent⟩ := handleIncomingMessage_ends t msg
          obtain ⟨log, hother⟩ := handleIncomingMessage_other hthread hends
          obtain rfl : log = t.log ++ more := by rw [← hmore, hother]
          obtain ⟨more', hwait, hsilent'⟩ := ih (t := { t with log := t.log ++ more }) hthread hrest
          refine ⟨more ++ more', ?_, by rw [List.any_append, hsilent, hsilent', hends]; rfl⟩
          rw [stopWait, Option.isNone_iff_eq_none.mp hlate]
          dsimp only
          rw [hother, hwait, List.append_assoc]
      | malformed => exact ih hthread h
      | blank => exact ih hthread h
      | eof exitInfo => cases h
      | error e => exact ⟨[], by rw [List.append_nil]; rfl, rfl⟩

/-- An empty prompt can always be read. -/
theorem emptyPrompt_reads (attempt : Nat → Attempt) (next : Nat) :
    partsToCodexInput attempt next [] = .ok ⟨[textInput ""], [], next, [], []⟩ := rfl

/-- When the end of the output was read, the next prompt is not. -/
theorem ended_refuses {t : Task} {config : Config} {exitInfo : String} (hrunning : t.running = true)
    (hpending : t.pendingFallbackInput = none) (hunread : t.notifications = []) (hended : t.ended = some exitInfo)
    (hthread : t.threadId ≠ none) : ¬AcceptsNext config t := by
  intro haccepts
  obtain ⟨halive, -⟩ := haccepts.prompt hthread (.timedOut []) [] attempts
    (.response [] (.obj [])) _ (emptyPrompt_reads _ _) rfl
  have hstart : t.startFallback (.timedOut []) = t := by
    unfold startFallback
    rw [hpending]
  unfold iterate at halive
  dsimp only at halive
  rw [if_pos hrunning, hstart, if_pos hrunning] at halive
  unfold select at halive
  rw [hunread, hended] at halive
  cases halive

/-- When a turn was named too late, a prompt that it cannot take is dropped. -/
theorem stopped_refuses {t : Task} {config : Config} {turnId : String} (hrunning : t.running = true)
    (hflight : t.fallbackInFlight = false) (hpending : t.pendingFallbackInput = none)
    (hunread : t.notifications = []) (hreading : t.ended = none) (hactive : t.activeTurnId = some turnId)
    (hstop : t.stopTurnRequested = true) (hthread : t.threadId ≠ none) : ¬AcceptsNext config t := by
  intro haccepts
  have hwelcome : welcomes t noSteering = true := by
    show (t.activeTurnId.isSome && true) = true
    rw [hactive]
    rfl
  obtain ⟨-, more, hmore, haccepted⟩ := haccepts.prompt hthread (.timedOut []) [] attempts
    noSteering _ (emptyPrompt_reads _ _) hwelcome
  rw [iterate_idle hrunning hpending hunread hreading, show t.handlePick config (.prompt [] attempts noSteering) =
    handlePrompt (t.took (.prompt [])) [] attempts noSteering from rfl,
    handlePrompt_steer (t := t.took (.prompt [])) (emptyPrompt_reads _ _) hflight hactive] at hmore
  obtain ⟨request, hsteer⟩ := promptSteer_drops
    (t := drafted { t.took (.prompt []) with nextPrompt := t.nextPrompt + 1 } _) hstop t.nextPrompt
    ⟨[textInput ""], [], t.nextFile, [], []⟩
  have hlog : t.log ++ more = t.log ++ [.took (.prompt []), .asked request noSteering] := by
    rw [← hmore]
    exact hsteer.trans (List.append_assoc _ [_] [_])
  rw [List.append_cancel_left_eq] at hlog
  rw [hlog] at haccepted
  simp at haccepted

/-- **A wait that is not cut short** does harm. -/
theorem stopWait_harms {t : Task} (config : Config) (h : Idle t) {tid : String} (hthread : t.threadId = some tid)
    (hstop : t.stopTurnRequested = true) {lines : List Line} (hlong : cutShort lines = false) :
    ¬LeavesAlone config t (t.stopWait lines) := by
  have hsome : t.threadId ≠ none := by
    rw [hthread]
    nofun
  induction lines generalizing t with
  | nil => exact fun hleaves => by cases hleaves.running
  | cons line lines ih =>
      cases line with
      | json msg =>
          rw [stopWait]
          cases hlate : lateTurnId msg with
          | some turnId =>
              dsimp only
              intro hleaves
              split at hleaves
              · rename_i tid' _
                exact stopped_refuses
                  (t := tell { t with activeTurnId := some turnId, fallbackInFlight := false } (interrupt tid' turnId))
                  h.running rfl h.pending h.unread h.reading rfl hstop hsome hleaves.accepts
              · rename_i hnone
                exact hsome hnone
          | none =>
              dsimp only
              intro hleaves
              obtain ⟨more, hmore, hsilent⟩ := handleIncomingMessage_ends t msg
              obtain ⟨more', hmore'⟩ := stopWait_log (t.handleIncomingMessage msg) lines
              obtain ⟨whole, hwhole, hquiet⟩ := hleaves.silent
              obtain rfl : whole = more ++ more' := by
                rw [hmore', hmore, List.append_assoc, List.append_cancel_left_eq] at hwhole
                exact hwhole.symm
              rw [List.any_append, Bool.or_eq_false_iff] at hquiet
              have hends : endsTurn msg = false := hsilent.symm.trans hquiet.1
              obtain ⟨log, hother⟩ := handleIncomingMessage_other hthread hends
              have hrest : cutShort lines = false := by
                rw [cutShort, hlate, hends] at hlong
                exact hlong
              rw [hother] at hleaves hmore'
              exact ih (t := { t with log }) ⟨h.running, h.active, h.flight, h.pending, h.unread, h.reading⟩ hthread
                hstop hrest hsome ⟨hleaves.running, hleaves.accepts, more', hmore', hquiet.2⟩
      | malformed => exact ih h hthread hstop hlong hsome
      | blank => exact ih h hthread hstop hlong hsome
      | eof exitInfo =>
          exact fun hleaves => ended_refuses (t := { t with ended := some exitInfo }) h.running h.pending h.unread rfl
            hsome hleaves.accepts
      | error e => cases hlong

/-- **A `StopTurn` between turns.** -/
theorem handleStopTurn_leavesAlone {t : Task} (config : Config) (h : Idle t) (lines : List Line) :
    LeavesAlone config t (t.handlePick config (.stopTurn lines)) ↔ t.threadId = none ∨ cutShort lines = true := by
  show LeavesAlone config t ((t.took .stopTurn).handleStopTurn lines) ↔ _
  unfold handleStopTurn
  generalize hdropped : ({ cleanupDeferredTempFiles { t.took .stopTurn with stopTurnRequested := true } with
    deferredPrompts := [] } : Task) = dropped
  have hidle : Idle dropped := by
    subst hdropped
    exact ⟨h.running, h.active, h.flight, h.pending, h.unread, h.reading⟩
  have hstop : dropped.stopTurnRequested = true := by
    subst hdropped
    rfl
  have hlog : dropped.log = t.log ++ [.took .stopTurn] := by
    subst hdropped
    rfl
  have hthread : dropped.threadId = t.threadId := by
    subst hdropped
    rfl
  dsimp only
  rw [hidle.active, ← hthread]
  cases hsome : dropped.threadId with
  | none => exact iff_of_true ⟨hidle.running, acceptsNext hidle config, _, hlog, rfl⟩ (.inl rfl)
  | some tid =>
      dsimp only
      cases hlines : cutShort lines with
      | true =>
          refine iff_of_true ?_ (.inr rfl)
          obtain ⟨more, hwait, hsilent⟩ := stopWait_cutShort hsome hlines
          rw [hwait]
          have hstill : Idle { dropped with log := dropped.log ++ more } :=
            ⟨hidle.running, hidle.active, hidle.flight, hidle.pending, hidle.unread, hidle.reading⟩
          refine ⟨hidle.running, acceptsNext hstill config, .took .stopTurn :: more, ?_, hsilent⟩
          show dropped.log ++ more = _
          rw [hlog, List.append_assoc]
          rfl
      | false =>
          refine iff_of_false (fun hleaves => ?_) (by simp)
          refine stopWait_harms config hidle hsome hstop hlines ⟨hleaves.running, hleaves.accepts, ?_⟩
          obtain ⟨more, hmore⟩ := stopWait_log dropped lines
          obtain ⟨whole, hwhole, hquiet⟩ := hleaves.silent
          refine ⟨more, hmore, ?_⟩
          rw [hmore, hlog, List.append_assoc, List.append_cancel_left_eq] at hwhole
          rw [← hwhole] at hquiet
          exact hquiet

end Task
end Codex

/-! ## Every kind -/

/-- An executor of any kind; with Codex, what its process writes during a wait. -/
inductive Situation where
  | acp (config : Acp.Config) (t : Acp.Task)
  | codex (config : Codex.Config) (t : Codex.Task) (lines : List Codex.Line)
  | sdk (kind : Sdk.SdkKind) (bridge : Sdk.Bridge) (adapter : Sdk.Adapter)

namespace Situation

/-- No turn is active or starting. -/
def Idle : Situation → Prop
  | acp _ t => t.running = true ∧ t.phase = .idle
  | codex _ t _ => Codex.Idle t
  | sdk _ bridge adapter => bridge.running = true ∧ adapter.Idle

/-- A `StopTurn` leaves the executor alive and able to accept the next prompt, and reports no end. -/
def Harmless : Situation → Prop
  | acp config t =>
      ∃ more, (t.handleCommand config .stopTurn (.ok ())).log = t.log ++ more ∧
        (∀ e ∈ more, e.closes = none ∧ ∀ turn result, e ≠ .turnComplete turn result) ∧ (∀ error, .died error ∉ more) ∧
        (t.handleCommand config .stopTurn (.ok ())).running = true ∧
        ∀ parts, .accepted t.nextPrompt ∈
          ((t.handleCommand config .stopTurn (.ok ())).handleCommand config (.prompt parts) (.ok ())).log
  | codex config t lines => Codex.LeavesAlone config t (t.handlePick config (.stopTurn lines))
  | sdk kind bridge adapter =>
      bridge.handleStopTurn.running = true ∧ bridge.handleStopTurn.events = bridge.events ∧
        (bridge.handleStopTurn.started, bridge.handleStopTurn.pendingPrompts) =
        (bridge.started, bridge.pendingPrompts) ∧
        ∀ parts, .prompt parts ∈ ((adapter.stopTurn kind).takePrompt kind parts).commandQueue ∧
          (adapter.stopTurn kind).commandQueue = adapter.commandQueue ∧
          (adapter.stopTurn kind).pendingStopTurn = adapter.pendingStopTurn ∧
          (adapter.stopTurn kind).aborts = adapter.aborts

/-- There is no thread yet, or the wait is cut short. -/
def Spared : Situation → Prop
  | codex _ t lines => t.threadId = none ∨ Codex.cutShort lines = true
  | _ => True

end Situation

/-- **When stopping an idle executor is harmless**: always with ACP and the SDK executors; with Codex as long as there
is no thread, or when a line that cannot be read cuts the wait short. -/
theorem stop_harmless_iff (s : Situation) (h : s.Idle) : s.Harmless ↔ s.Spared := by
  cases s with
  | acp config t =>
      obtain ⟨hrunning, hidle⟩ := h
      refine iff_of_true ⟨[.took .stopTurn], ?_, ?_, ?_, ?_, fun parts => ?_⟩ trivial
      · unfold Acp.Task.handleCommand Acp.Task.handleStopTurn
        dsimp only
        rw [show (t.record (.took .stopTurn)).phase = .idle from hidle]
        rfl
      · intro e he
        rw [List.mem_singleton.mp he]
        exact ⟨rfl, nofun⟩
      · simp
      · unfold Acp.Task.handleCommand Acp.Task.handleStopTurn
        dsimp only
        rw [show (t.record (.took .stopTurn)).phase = .idle from hidle]
        exact hrunning
      · have hstop : t.handleCommand config .stopTurn (.ok ()) = t.record (.took .stopTurn) := by
          unfold Acp.Task.handleCommand Acp.Task.handleStopTurn
          dsimp only
          rw [show (t.record (.took .stopTurn)).phase = .idle from hidle]
        rw [hstop]
        unfold Acp.Task.handleCommand Acp.Task.handlePrompt
        dsimp only
        rw [if_pos]
        · exact List.mem_append_right _ (List.mem_singleton_self _)
        · show t.phase.isIdle = true
          rw [hidle]
          rfl
  | codex config t lines => exact Codex.Task.handleStopTurn_leavesAlone config h lines
  | sdk kind bridge adapter =>
      obtain ⟨hrunning, hidle⟩ := h
      refine iff_of_true ⟨hrunning, rfl, rfl, fun parts => ?_⟩ trivial
      rw [Sdk.Adapter.stopTurn_idle hidle]
      refine ⟨?_, rfl, rfl, rfl⟩
      unfold Sdk.Adapter.takePrompt
      rw [if_neg]
      · exact List.mem_append_right _ (List.mem_singleton_self _)
      · rintro ⟨-, hflight, -⟩
        cases hidle.1.symm.trans hflight

namespace Codex

/-- A prompt has waited for the end of a turn, had a turn of its own, and that has ended too. -/
def betweenTurns : Task := Task.run here (followedTurn ++ [(.timedOut [], .line (.json turnCompleted))])

/-- What comes during the wait: messages, and a line that is not UTF-8. -/
def garbled : List Line :=
  [.json (.obj [("method", .str "contextCompacted")]), .blank, .error "stream did not contain valid UTF-8"]

end Codex

/-- The same stop does no harm when a line cannot be read, and harms when nothing or the end of the output comes. -/
theorem stop_harmless_iff_between :
    ((Situation.codex Codex.here Codex.betweenTurns Codex.garbled).Harmless ∧ Codex.betweenTurns.threadId = some "th") ∧
      ¬(Situation.codex Codex.here Codex.betweenTurns []).Harmless ∧
      ¬(Situation.codex Codex.here Codex.betweenTurns [.blank, .eof "exit code: 1"]).Harmless := by
  have hidle : Codex.Idle Codex.betweenTurns := by
    refine ⟨?_, ?_, ?_, ?_, ?_, ?_⟩ <;> decide +kernel
  have hthread : Codex.betweenTurns.threadId = some "th" := by decide +kernel
  refine ⟨⟨(stop_harmless_iff (.codex _ _ Codex.garbled) hidle).mpr (.inr (by decide +kernel)), hthread⟩, ?_, ?_⟩
  · rw [stop_harmless_iff (.codex _ _ []) hidle]
    rintro (hnone | hcut)
    · rw [hthread] at hnone
      cases hnone
    · cases hcut
  · rw [stop_harmless_iff (.codex _ _ _) hidle]
    rintro (hnone | hcut)
    · rw [hthread] at hnone
      cases hnone
    · cases hcut

namespace Codex

/-- A turn has ended, and a stop comes. -/
def stoppedLate : List (Answer × Pick) :=
  [(.timedOut [], .start emptyTask attempts (answerWith "thread" "th") (answerWith "turn" "tu")),
    (.timedOut [], .line (.json turnCompleted)), (.timedOut [], .stopTurn [])]

theorem stopped_late_dies :
    ((Task.run here (stoppedLate.take 2)).running = true ∧ (Task.run here (stoppedLate.take 2)).activeTurnId = none ∧
      (Task.run here (stoppedLate.take 2)).fallbackInFlight = false ∧
      (Task.run here (stoppedLate.take 2)).pendingFallbackInput = none) ∧
    (Task.run here stoppedLate).running = false ∧
    .event (.processDied "StopTurn escalated: turn/start hung" (some "th")) ∈ (Task.run here stoppedLate).log := by
  decide +kernel

end Codex
end Executors
end AgentBeacon
