import AgentBeacon.Worker.SdkTask

/-!
# `Correctness.SdkTask` — what the task of an SDK executor conveys

The log of the task says what it took in and what it gave out. A prompt is taken in once, and the task tries to write it
once, after the process has been initialized; one that cannot be written is lost. And whatever the process says of a
turn, or a start that cannot be read, is one completed turn for the worker. Each iteration appends a few entries, so
each of these is kept step by step (`Task.Kept`).
-/

namespace AgentBeacon
namespace Executors.Sdk

/-! ## Reading the log -/

/-- The prompt that was taken. -/
def promptTaken : Entry → Option (List Json)
  | .took (.prompt parts) => some parts
  | _ => none

/-- The prompt that the task has tried to write. -/
def promptTried : Entry → Option (List Json)
  | .line (.prompt parts) _ => some parts
  | _ => none

/-- The prompt that was given to the process. -/
def promptGiven : Entry → Option (List Json)
  | .line (.prompt parts) true => some parts
  | _ => none

/-- The prompt that could not be written. -/
def promptLost : Entry → Option (List Json)
  | .line (.prompt parts) false => some parts
  | _ => none

/-- The completed turn that was sent. -/
def turnSent : Entry → Option TurnResult
  | .sent (.turnComplete result _) => some result
  | _ => none

def isInit : Entry → Bool
  | .sent (.init _) => true
  | _ => false

def isDied : Entry → Bool
  | .sent (.processDied _ _) => true
  | _ => false

/-- The session that an event names, and the turn that it or a command ends, in a session. -/
def endOf (cfg : TaskConfig) (agentSessionId : Option String) : Entry → Option String × Option TurnResult
  | .got event =>
      if typeField event = "init" then ((initSession event).or agentSessionId, none)
      else if typeField event = "result" then
        match ResultEvent.ofJson event with
        | some result =>
            let agentSessionId := result.sessionId.or agentSessionId
            (agentSessionId, some (mapResultToTurn cfg.kind result agentSessionId))
        | none => (agentSessionId, some ⟨agentSessionId,
            some ("malformed result event: " ++ cfg.serdeError event), some .executorFailed, none⟩)
      else if typeField event = "error" then
        (agentSessionId, some ⟨agentSessionId, some ((errorMessage event).getD
          ("malformed error event: " ++ cfg.serdeError event)), some .executorFailed, none⟩)
      else (agentSessionId, none)
  | .took (.start taskPayload) =>
      match extractParts taskPayload with
      | .ok _ => (agentSessionId, none)
      | .error e =>
          if ((taskPayload.get "resumeSessionId").bind Json.asStr).isSome then (agentSessionId, none)
          else (agentSessionId,
            some ⟨agentSessionId, some ("bad task payload: " ++ e), some .executorFailed, none⟩)
  | _ => (agentSessionId, none)

/-- The session of the agent, and the turns that have ended, by what was taken in. -/
def endsFrom (cfg : TaskConfig) (agentSessionId : Option String) : List Entry → Option String × List TurnResult
  | [] => (agentSessionId, [])
  | entry :: log =>
      let rest := endsFrom cfg (endOf cfg agentSessionId entry).1 log
      (rest.1, (endOf cfg agentSessionId entry).2.toList ++ rest.2)

/-- Whether a turn is active after an entry. -/
def activates (active : Bool) : Entry → Bool
  | .took (.start _) | .took (.prompt _) | .sent (.init _) => true
  | .sent (.turnComplete _ _) => false
  | _ => active

theorem endsFrom_append (cfg : TaskConfig) (agentSessionId : Option String) (log entries : List Entry) :
    endsFrom cfg agentSessionId (log ++ entries) =
      ((endsFrom cfg (endsFrom cfg agentSessionId log).1 entries).1,
        (endsFrom cfg agentSessionId log).2 ++ (endsFrom cfg (endsFrom cfg agentSessionId log).1 entries).2) := by
  induction log generalizing agentSessionId with
  | nil => rfl
  | cons entry log ih =>
      rw [List.cons_append, endsFrom, ih, endsFrom, List.append_assoc]

/-! ## What is kept -/

namespace Task

/-- What the log says of the locals. -/
structure Kept (cfg : TaskConfig) (t : Task) : Prop where
  prompts : t.log.filterMap promptTaken = t.log.filterMap promptTried ++ t.pendingPrompts
  buffered : t.started = true → t.pendingPrompts = []
  unstarted : t.started = false → t.log.filterMap promptTried = []
  started : t.started = t.log.any isInit
  turns : endsFrom cfg none t.log = (t.agentSessionId, t.log.filterMap turnSent)
  active : t.turnActive = t.log.foldl activates true
  alive : t.running = true → t.log.any isDied = false
  last : t.log.dropLast.any isDied = false

variable {cfg : TaskConfig} {t t' : Task} {entries : List Entry}

theorem kept_fresh (cfg : TaskConfig) (now : Nat) : (fresh now).Kept cfg where
  prompts := rfl
  buffered := fun _ => rfl
  unstarted := fun _ => rfl
  started := rfl
  turns := rfl
  active := rfl
  alive := fun _ => rfl
  last := rfl

/-- What the entries of an iteration say of the changes to the locals. -/
structure Conveys (cfg : TaskConfig) (t t' : Task) (entries : List Entry) : Prop where
  log : t'.log = t.log ++ entries
  prompts : t.pendingPrompts ++ entries.filterMap promptTaken = entries.filterMap promptTried ++ t'.pendingPrompts
  buffered : t'.started = true → t'.pendingPrompts = []
  unstarted : t'.started = false → entries.filterMap promptTried = []
  started : t'.started = (t.started || entries.any isInit)
  turns : endsFrom cfg t.agentSessionId entries = (t'.agentSessionId, entries.filterMap turnSent)
  active : t'.turnActive = entries.foldl activates t.turnActive
  alive : t'.running = true → entries.any isDied = false
  last : entries.dropLast.any isDied = false

/-- **An iteration that conveys its changes keeps what the log says.** -/
theorem Kept.append (h : t.Kept cfg) (hrunning : t.running = true) (hconveys : Conveys cfg t t' entries) :
    t'.Kept cfg where
  prompts := by
    rw [hconveys.log, List.filterMap_append, List.filterMap_append, h.prompts, List.append_assoc, hconveys.prompts,
      List.append_assoc]
  buffered := hconveys.buffered
  unstarted := fun hnot => by
    have hbefore : t.started = false := by
      cases hstarted : t.started with
      | false => rfl
      | true =>
          rw [hconveys.started, hstarted] at hnot
          cases hnot
    rw [hconveys.log, List.filterMap_append, h.unstarted hbefore, hconveys.unstarted hnot]
    rfl
  started := by
    rw [hconveys.log, List.any_append, ← h.started]
    exact hconveys.started
  turns := by
    rw [hconveys.log, endsFrom_append, h.turns, hconveys.turns, List.filterMap_append]
  active := by
    rw [hconveys.log, List.foldl_append, ← h.active]
    exact hconveys.active
  alive := fun hrunning' => by
    rw [hconveys.log, List.any_append, h.alive hrunning, hconveys.alive hrunning']
    rfl
  last := by
    rw [hconveys.log]
    cases hentries : entries with
    | nil =>
        rw [List.append_nil]
        exact h.last
    | cons entry rest =>
        rw [List.dropLast_append_of_ne_nil (List.cons_ne_nil entry rest), List.any_append, h.alive hrunning, ← hentries,
          hconveys.last]
        rfl

/-! ## The handlers -/

/-- The lines of buffered prompts. -/
def linesOf (prompts : List (List Json × Nat)) (written : Nat → Bool) : List Entry :=
  prompts.map fun p => .line (.prompt p.1) (written p.2)

theorem log_flush (prompts : List (List Json × Nat)) (written : Nat → Bool) (t : Task) :
    prompts.foldl (fun t p => t.writeCommand (.prompt p.1) (written p.2)) t =
      { t with log := t.log ++ linesOf prompts written } := by
  induction prompts generalizing t with
  | nil => simp [linesOf]
  | cons p prompts ih =>
      rw [List.foldl_cons, ih]
      simp [linesOf, writeCommand, note]

/-- They are the lines of their prompts, and nothing else. -/
theorem linesOf_spec (cfg : TaskConfig) (prompts : List (List Json × Nat)) (written : Nat → Bool) :
    (linesOf prompts written).filterMap promptTaken = [] ∧
    (linesOf prompts written).filterMap promptTried = prompts.map Prod.fst ∧
    (linesOf prompts written).filterMap turnSent = [] ∧
    (linesOf prompts written).any isInit = false ∧ (linesOf prompts written).any isDied = false ∧
    (∀ s, endsFrom cfg s (linesOf prompts written) = (s, [])) ∧
    ∀ active, (linesOf prompts written).foldl activates active = active := by
  induction prompts with
  | nil => exact ⟨rfl, rfl, rfl, rfl, rfl, fun _ => rfl, fun _ => rfl⟩
  | cons p prompts ih =>
      obtain ⟨htaken, hlines, hturns, hinit, hdied, hends, hactive⟩ := ih
      rw [show linesOf (p :: prompts) written = .line (.prompt p.1) (written p.2) :: linesOf prompts written from rfl]
      refine ⟨htaken, congrArg (p.1 :: ·) hlines, hturns, hinit, hdied, fun s => ?_, fun active => hactive active⟩
      rw [endsFrom, show endOf cfg s (.line (.prompt p.1) (written p.2)) = (s, none) from rfl, hends]
      rfl

theorem any_dropLast {entries : List Entry} (h : entries.any isDied = false) : entries.dropLast.any isDied = false := by
  rw [List.any_eq_false] at h ⊢
  exact fun entry hentry => h entry (List.dropLast_subset entries hentry)

/-- The entries of an iteration that takes no prompt, tries to write none, and initializes nothing. -/
theorem Conveys.plain (h : t.Kept cfg) (hlog : t'.log = t.log ++ entries)
    (hpending : t'.pendingPrompts = t.pendingPrompts) (hstarted : t'.started = t.started)
    (htaken : entries.filterMap promptTaken = []) (hlines : entries.filterMap promptTried = [])
    (hinit : entries.any isInit = false)
    (hturns : endsFrom cfg t.agentSessionId entries = (t'.agentSessionId, entries.filterMap turnSent))
    (hactive : t'.turnActive = entries.foldl activates t.turnActive)
    (halive : t'.running = true → entries.any isDied = false) (hlast : entries.dropLast.any isDied = false) :
    Conveys cfg t t' entries where
  log := hlog
  prompts := by rw [htaken, hlines, hpending, List.append_nil, List.nil_append]
  buffered := fun hyes => hpending.trans (h.buffered (hstarted ▸ hyes))
  unstarted := fun _ => hlines
  started := by rw [hstarted, hinit, Bool.or_false]
  turns := hturns
  active := hactive
  alive := halive
  last := hlast

theorem conveys_init (h : t.Kept cfg) {event : Json} (htype : typeField event = "init") (now : Nat)
    (written : Nat → Bool) : ∃ entries, Conveys cfg t
      ({ t.note (.got event) with lastActivity := now }.handleInit event written) entries := by
  unfold handleInit
  cases hsession : initSession event with
  | none =>
      have hend : endOf cfg t.agentSessionId (.got event) = (t.agentSessionId, none) := by
        simp [endOf, htype, hsession]
      refine ⟨[.got event], .plain h rfl rfl rfl rfl rfl rfl ?_ rfl (fun _ => rfl) rfl⟩
      rw [endsFrom, hend]
      rfl
  | some session =>
      have hend : endOf cfg t.agentSessionId (.got event) = (some session, none) := by
        simp [endOf, htype, hsession]
      obtain ⟨htaken, hlines, hturns, hinit, hdied, hends, hactive⟩ := linesOf_spec cfg t.pendingPrompts.zipIdx written
      refine ⟨[.got event, .sent (.init session)] ++ linesOf t.pendingPrompts.zipIdx written, ?_⟩
      dsimp only
      rw [log_flush]
      refine ⟨?_, ?_, fun _ => rfl, fun hnot => ?_, ?_, ?_, ?_, fun _ => hdied, any_dropLast hdied⟩
      · simp [send, note]
      · rw [List.filterMap_append, List.filterMap_append, htaken, hlines, List.zipIdx_map_fst]
        show t.pendingPrompts ++ ([] ++ []) = [] ++ t.pendingPrompts ++ []
        simp
      · cases hnot
      · exact (Bool.or_true _).symm
      · rw [endsFrom_append, List.filterMap_append, hturns, endsFrom, hend, endsFrom]
        rw [show endOf cfg (some session) (.sent (.init session)) = (some session, none) from rfl, endsFrom, hends]
        rfl
      · exact (hactive true).symm

theorem conveys_message (h : t.Kept cfg) {event : Json} (htype : typeField event = "message") (now : Nat) :
    ∃ entries, Conveys cfg t ({ t.note (.got event) with lastActivity := now }.handleMessage event) entries := by
  have hend : endOf cfg t.agentSessionId (.got event) = (t.agentSessionId, none) := by
    simp [endOf, htype]
  have hgot : Conveys cfg t { t.note (.got event) with lastActivity := now } [.got event] := by
    refine .plain h rfl rfl rfl rfl rfl rfl ?_ rfl (fun _ => rfl) rfl
    rw [endsFrom, hend]
    rfl
  unfold handleMessage
  split
  · split
    · rename_i content ephemeral hmessage found output houtput
      refine ⟨[.got event, .sent (.message output (ephemeral.getD false))], .plain h ?_ rfl rfl rfl rfl rfl ?_ rfl
        (fun _ => rfl) rfl⟩
      · simp [send, note]
      · rw [endsFrom, hend]
        rfl
    · exact ⟨_, hgot⟩
  · exact ⟨_, hgot⟩

theorem conveys_result (h : t.Kept cfg) {event : Json} (htype : typeField event = "result") (now : Nat) :
    ∃ entries, Conveys cfg t ({ t.note (.got event) with lastActivity := now }.handleResult cfg event) entries := by
  have hne : typeField event ≠ "init" := by
    rw [htype]
    decide
  unfold handleResult
  cases hresult : ResultEvent.ofJson event with
  | some result =>
      have hend : endOf cfg t.agentSessionId (.got event) = (result.sessionId.or t.agentSessionId,
          some (mapResultToTurn cfg.kind result (result.sessionId.or t.agentSessionId))) := by
        simp [endOf, htype, hresult]
      refine ⟨[.got event, .sent (.turnComplete (mapResultToTurn cfg.kind result
        (result.sessionId.or t.agentSessionId)) true)], .plain h ?_ rfl rfl rfl rfl rfl ?_ rfl (fun _ => rfl) rfl⟩
      · simp [send, note]
      · rw [endsFrom, hend]
        rfl
  | none =>
      have hend : endOf cfg t.agentSessionId (.got event) = (t.agentSessionId, some ⟨t.agentSessionId,
          some ("malformed result event: " ++ cfg.serdeError event), some .executorFailed, none⟩) := by
        simp [endOf, htype, hresult]
      refine ⟨[.got event, .sent (.turnComplete ⟨t.agentSessionId,
        some ("malformed result event: " ++ cfg.serdeError event), some .executorFailed, none⟩ true)],
        .plain h ?_ rfl rfl rfl rfl rfl ?_ rfl (fun _ => rfl) rfl⟩
      · simp [failTurn, send, note]
      · rw [endsFrom, hend]
        rfl

theorem conveys_error (h : t.Kept cfg) {event : Json} (htype : typeField event = "error") (now : Nat) :
    ∃ entries, Conveys cfg t ({ t.note (.got event) with lastActivity := now }.handleError cfg event) entries := by
  have hend : endOf cfg t.agentSessionId (.got event) = (t.agentSessionId, some ⟨t.agentSessionId,
      some ((errorMessage event).getD ("malformed error event: " ++ cfg.serdeError event)), some .executorFailed,
        none⟩) := by
    simp [endOf, htype]
  refine ⟨[.got event, .sent (.turnComplete ⟨t.agentSessionId, some ((errorMessage event).getD
    ("malformed error event: " ++ cfg.serdeError event)), some .executorFailed, none⟩ true)],
    .plain h ?_ rfl rfl rfl rfl rfl ?_ rfl (fun _ => rfl) rfl⟩
  · simp [handleError, failTurn, send, note]
  · rw [endsFrom, hend]
    rfl

/-- **An event of the process.** -/
theorem conveys_event (h : t.Kept cfg) (event : Json) (now : Nat) (written : Nat → Bool) : ∃ entries, Conveys cfg t
    ({ t.note (.got event) with lastActivity := now }.handleEvent cfg event written) entries := by
  unfold handleEvent
  dsimp only
  split
  · rename_i htype
    exact conveys_init h htype now written
  rename_i hinit
  split
  · rename_i htype
    exact conveys_message h htype now
  split
  · rename_i htype
    exact conveys_result h htype now
  rename_i hresult
  split
  · rename_i htype
    exact conveys_error h htype now
  rename_i herror
  -- nothing else says anything of a turn
  have hend : endOf cfg t.agentSessionId (.got event) = (t.agentSessionId, none) := by
    simp [endOf, hinit, hresult, herror]
  split
  · refine ⟨[.got event, .accepted], .plain h ?_ rfl rfl rfl rfl rfl ?_ rfl (fun _ => rfl) rfl⟩
    · simp [note]
    · rw [endsFrom, hend]
      rfl
  · refine ⟨[.got event], .plain h rfl rfl rfl rfl rfl rfl ?_ rfl (fun _ => rfl) rfl⟩
    rw [endsFrom, hend]
    rfl

theorem promptTried_start (parts : List Json) (resume : Option String) (written : Bool) :
    promptTried (.line (cfg.buildStartCommand parts resume) written) = none := by
  unfold TaskConfig.buildStartCommand
  cases cfg.parsedConfig <;> rfl

/-- A start whose line is written, or is not, after which the process is given up. -/
theorem conveys_started (h : t.Kept cfg) {taskPayload : Json} (now : Nat) (parts : List Json) (resume : Option String)
    (written : Bool) (hend : endOf cfg t.agentSessionId (.took (.start taskPayload)) = (t.agentSessionId, none)) :
    (∃ entries, Conveys cfg t ({ t.note (.took (.start taskPayload)) with
      turnActive := true, lastActivity := now }.writeCommand (cfg.buildStartCommand parts resume) written) entries) ∧
    ∀ error, ∃ entries, Conveys cfg t (({ t.note (.took (.start taskPayload)) with
      turnActive := true, lastActivity := now }.writeCommand (cfg.buildStartCommand parts resume) written).die error)
        entries := by
  have hline := @promptTried_start cfg parts resume written
  constructor
  · refine ⟨[.took (.start taskPayload), .line (cfg.buildStartCommand parts resume) written],
      .plain h ?_ rfl rfl rfl ?_ rfl ?_ rfl (fun _ => rfl) rfl⟩
    · simp [writeCommand, note]
    · rw [List.filterMap_cons_none rfl, List.filterMap_cons_none hline]
      rfl
    · rw [endsFrom, hend]
      rfl
  · intro error
    refine ⟨[.took (.start taskPayload), .line (cfg.buildStartCommand parts resume) written,
      .sent (.processDied error none)], .plain h ?_ rfl rfl rfl ?_ rfl ?_ rfl (fun hrunning => ?_) rfl⟩
    · simp [die, send, writeCommand, note]
    · rw [List.filterMap_cons_none rfl, List.filterMap_cons_none hline]
      rfl
    · rw [endsFrom, hend]
      rfl
    · cases hrunning

theorem conveys_start (h : t.Kept cfg) (taskPayload : Json) (now : Nat) (writeError : Option String) :
    ∃ entries, Conveys cfg t ({ t.note (.took (.start taskPayload)) with
      turnActive := true, lastActivity := now }.handleStart cfg taskPayload writeError) entries := by
  unfold handleStart
  dsimp only
  cases hparts : extractParts taskPayload with
  | ok parts =>
      have hend : endOf cfg t.agentSessionId (.took (.start taskPayload)) = (t.agentSessionId, none) := by
        simp [endOf, hparts]
      obtain ⟨hwrote, hdied⟩ := conveys_started h now parts ((taskPayload.get "resumeSessionId").bind Json.asStr)
        writeError.isNone hend
      cases writeError with
      | none => exact hwrote
      | some e => exact hdied _
  | error e =>
      dsimp only
      split
      · rename_i hresume
        have hend : endOf cfg t.agentSessionId (.took (.start taskPayload)) = (t.agentSessionId, none) := by
          simp [endOf, hparts, hresume]
        obtain ⟨hwrote, hdied⟩ := conveys_started h now [] ((taskPayload.get "resumeSessionId").bind Json.asStr)
          writeError.isNone hend
        cases writeError with
        | none => exact hwrote
        | some e => exact hdied _
      · rename_i hresume
        have hend : endOf cfg t.agentSessionId (.took (.start taskPayload)) = (t.agentSessionId,
            some ⟨t.agentSessionId, some ("bad task payload: " ++ e), some .executorFailed, none⟩) := by
          simp [endOf, hparts, hresume]
        refine ⟨[.took (.start taskPayload), .sent (.turnComplete ⟨t.agentSessionId,
          some ("bad task payload: " ++ e), some .executorFailed, none⟩ true)],
          .plain h ?_ rfl rfl rfl rfl rfl ?_ rfl (fun _ => rfl) rfl⟩
        · simp [failTurn, send, note]
        · rw [endsFrom, hend]
          rfl

/-- The task tries to write a prompt at once, or lets it wait until the process has been initialized. -/
theorem conveys_prompt (h : t.Kept cfg) (parts : List Json) (now : Nat) (written : Bool) :
    ∃ entries, Conveys cfg t ({ t.note (.took (.prompt parts)) with
      turnActive := true, lastActivity := now }.handlePrompt parts written) entries := by
  unfold handlePrompt
  split
  · rename_i hstarted
    have hstarted : t.started = true := hstarted
    have hempty := h.buffered hstarted
    refine ⟨[.took (.prompt parts), .line (.prompt parts) written], ?_, ?_, fun _ => hempty, fun hnot => ?_, ?_, rfl,
      rfl, fun _ => rfl, rfl⟩
    · simp [writeCommand, note]
    · show t.pendingPrompts ++ [parts] = [parts] ++ t.pendingPrompts
      rw [hempty]
      rfl
    · exact Bool.noConfusion (hstarted.symm.trans hnot)
    · exact (Bool.or_false _).symm
  · rename_i hnot
    refine ⟨[.took (.prompt parts)], rfl, rfl, fun hyes => absurd hyes hnot, fun _ => rfl, ?_, rfl, rfl, fun _ => rfl,
      rfl⟩
    exact (Bool.or_false _).symm

/-- **A command of the worker.** -/
theorem conveys_command (h : t.Kept cfg) (command : AgentCommand) (now : Nat) (writeError : Option String) :
    ∃ entries, Conveys cfg t (t.handleCommand cfg now command writeError) entries := by
  cases command with
  | start taskPayload => exact conveys_start h taskPayload now writeError
  | prompt parts => exact conveys_prompt h parts now writeError.isNone
  | cancel =>
      refine ⟨[.took .cancel, .line .cancel writeError.isNone],
        .plain h ?_ rfl rfl rfl rfl rfl rfl rfl (fun _ => rfl) rfl⟩
      simp [handleCommand, writeCommand, note]
  | stopTurn =>
      refine ⟨[.took .stopTurn, .line .stopTurn writeError.isNone],
        .plain h ?_ rfl rfl rfl rfl rfl rfl rfl (fun _ => rfl) rfl⟩
      simp [handleCommand, writeCommand, note]
  | stop =>
      refine ⟨[.took .stop, .line .stop writeError.isNone], .plain h ?_ rfl rfl rfl rfl rfl rfl rfl (fun _ => rfl) rfl⟩
      simp [handleCommand, writeCommand, note]

/-! ## Runs -/

theorem Kept.died (h : t.Kept cfg) (hrunning : t.running = true) (error : String) : (t.die error).Kept cfg := by
  have hconveys : Conveys cfg t (t.die error) [.sent (.processDied error none)] := by
    refine .plain h rfl rfl rfl rfl rfl rfl rfl rfl (fun hyes => ?_) rfl
    cases hyes
  exact h.append hrunning hconveys

theorem Kept.iterate (h : t.Kept cfg) (pick : Pick) : (t.iterate cfg pick).Kept cfg := by
  unfold Task.iterate
  cases hrunning : t.running with
  | false => exact h
  | true =>
      cases pick with
      | event now event written =>
          obtain ⟨entries, hconveys⟩ := conveys_event h event now written
          exact h.append hrunning hconveys
      | exited exitInfo => exact h.died hrunning _
      | command now command writeError =>
          obtain ⟨entries, hconveys⟩ := conveys_command h command now writeError
          exact h.append hrunning hconveys
      | closed =>
          have hconveys : Conveys cfg t { t with running := false } [] := by
            refine .plain h ?_ rfl rfl rfl rfl rfl rfl rfl (fun _ => rfl) rfl
            exact (List.append_nil _).symm
          exact h.append hrunning hconveys
      | timer now =>
          have hdue : (if t.turnActive ∧ t.lastActivity + cfg.inactivityTimeout ≤ now then
              t.die ("executor stalled: no output for " ++ toString (cfg.inactivityTimeout / 1000) ++ "s")
            else t).Kept cfg := by
            split
            · exact h.died hrunning _
            · exact h
          exact hdue

theorem kept_after (cfg : TaskConfig) (now : Nat) (picks : List Pick) : (after cfg now picks).Kept cfg := by
  unfold after
  generalize hfresh : fresh now = first
  have h : first.Kept cfg := hfresh ▸ kept_fresh cfg now
  clear hfresh
  induction picks generalizing first with
  | nil => exact h
  | cons pick picks ih => exact ih (first.iterate cfg pick) (h.iterate pick)

/-- What was tried was given or lost. -/
theorem prompts_tried (log : List Entry) :
    (log.filterMap promptGiven).Sublist (log.filterMap promptTried) ∧
    (log.filterMap promptTried).Perm (log.filterMap promptGiven ++ log.filterMap promptLost) := by
  induction log with
  | nil => exact ⟨.slnil, .refl _⟩
  | cons entry log ih =>
      obtain ⟨hgiven, hfate⟩ := ih
      have hother : promptTried entry = none → promptGiven entry = none → promptLost entry = none →
          ((entry :: log).filterMap promptGiven).Sublist ((entry :: log).filterMap promptTried) ∧
          ((entry :: log).filterMap promptTried).Perm
            ((entry :: log).filterMap promptGiven ++ (entry :: log).filterMap promptLost) := by
        intro htried hg hl
        rw [List.filterMap_cons_none htried, List.filterMap_cons_none hg, List.filterMap_cons_none hl]
        exact ⟨hgiven, hfate⟩
      cases entry with
      | line command written =>
          cases command with
          | prompt parts =>
              cases written with
              | true => exact ⟨hgiven.cons_cons parts, hfate.cons parts⟩
              | false => exact ⟨hgiven.cons parts, (hfate.cons parts).trans List.perm_middle.symm⟩
          | _ => exact hother rfl rfl rfl
      | _ => exact hother rfl rfl rfl

/-- **Prompts are conserved.** Whatever the process, the worker and the timer do, in any order, and whichever writes
fail: the prompts that the task has taken are the ones it has tried to write, in the same order and each of them once,
followed by the ones that wait. A prompt that it has tried to write was given to the process or its write failed, and
such a prompt is lost; the given ones are in order. No write is tried before the process has been initialized, and no
prompt waits afterwards. -/
theorem sdk_prompts_conserved (cfg : TaskConfig) (now : Nat) (picks : List Pick) :
    (after cfg now picks).log.filterMap promptTaken =
      (after cfg now picks).log.filterMap promptTried ++ (after cfg now picks).pendingPrompts ∧
    ((after cfg now picks).log.filterMap promptGiven).Sublist ((after cfg now picks).log.filterMap promptTried) ∧
    ((after cfg now picks).log.filterMap promptTried).Perm
      ((after cfg now picks).log.filterMap promptGiven ++ (after cfg now picks).log.filterMap promptLost) ∧
    ((after cfg now picks).log.any isInit = false → (after cfg now picks).log.filterMap promptTried = []) ∧
    ((after cfg now picks).log.any isInit = true → (after cfg now picks).pendingPrompts = []) := by
  have h := kept_after cfg now picks
  rw [← h.started]
  exact ⟨h.prompts, (prompts_tried _).1, (prompts_tried _).2, h.unstarted, h.buffered⟩

/-- **Every turn that ends is reported once.** Whatever the process, the worker and the timer do: the completed turns
that the task has sent are those of the results and the errors of the process, readable or not, and of the starts that
cannot be read, in their order, each in the session that had been named last. A turn counts as active from a start, a
prompt or an initialization until the next completed one; while none is, the timer does nothing. That the process has
died is sent once at most, as the last entry of all, and only when the loop ends. -/
theorem sdk_turns_reported (cfg : TaskConfig) (now : Nat) (picks : List Pick) :
    (after cfg now picks).log.filterMap turnSent = (endsFrom cfg none (after cfg now picks).log).2 ∧
    (after cfg now picks).agentSessionId = (endsFrom cfg none (after cfg now picks).log).1 ∧
    ((after cfg now picks).log.foldl activates true = false →
      ∀ later, (after cfg now picks).iterate cfg (.timer later) = after cfg now picks) ∧
    (after cfg now picks).log.dropLast.any isDied = false ∧
    ((after cfg now picks).log.any isDied = true → ∀ pick,
      (after cfg now picks).iterate cfg pick = after cfg now picks) := by
  have h := kept_after cfg now picks
  generalize after cfg now picks = t at h
  refine ⟨(congrArg Prod.snd h.turns).symm, (congrArg Prod.fst h.turns).symm, fun hidle later => ?_, h.last,
    fun hdied pick => ?_⟩
  · rw [← h.active] at hidle
    simp [iterate, hidle]
  · have hended : t.running = false := by
      cases hrunning : t.running with
      | false => rfl
      | true =>
          rw [h.alive hrunning] at hdied
          cases hdied
    simp [iterate, hended]

end Task

end Executors.Sdk
end AgentBeacon
