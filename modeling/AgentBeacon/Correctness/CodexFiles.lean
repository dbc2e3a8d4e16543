import AgentBeacon.Correctness.CodexPrompts

/-!
# `Correctness.CodexFiles` — the input files of the Codex executor

Images of a prompt are written to files, whose paths travel with the prompt. The invariant is that every file on
disk is listed for the active turn or for a deferred prompt; every end of the task that cleans up then deletes all.
Not every step keeps it: a `Cancel` forgets the deferred prompts first, a new turn may overwrite the active turn's
list, a conversion may fail when some files are written, a `Start` that fails looks only at its own files, and a
panic looks at none. A file that cannot be removed stays in any case.
-/

namespace AgentBeacon
namespace Executors.Codex

namespace Task

def deferredFiles (t : Task) : List TempFile := t.deferredPrompts.flatMap Deferred.tempFiles

end Task

/-- Every file on disk is referenced by the state. -/
def Referenced (t : Task) : Prop := ∀ file ∈ t.disk, file ∈ t.activeTurnTempFiles ∨ file ∈ t.deferredFiles

/-- A conversion that fails has written no file, and what one writes can be removed. -/
def CleanConversion (attempt : Nat → Attempt) (next : Nat) (parts : List Json) : Prop :=
  match partsToCodexInput attempt next parts with
  | .error (_, draft) => draft.created = [] ∧ draft.stuck = []
  | .ok draft => draft.stuck = []

/-- A conversion that writes no file. -/
def WritesNothing (attempt : Nat → Attempt) (next : Nat) (parts : List Json) : Prop :=
  ∀ draft, partsToCodexInput attempt next parts = .ok draft → draft.created = []

/-- An answer that is no error. -/
def Answer.value : Answer → Option Json
  | .response _ resp => if (resp.get "error").isSome then none else some resp
  | _ => none

/-- The answer is a line on which the task panics. -/
def Answer.panics : Answer → Bool
  | .malformed _ line => (lineHead line).isNone
  | _ => false

/-- The answer that a `Start` needs first: a thread, the one to resume or a new one. -/
def threadAnswered (taskPayload : Json) (thread : Answer) : Bool :=
  thread.value.any fun resp =>
    ((taskPayload.get "resumeSessionId").bind Json.asStr).isSome || (threadIdOf resp).isSome

/-- The answers that a `Start` needs: a thread and a turn. -/
def startAnswered (taskPayload : Json) (thread turn : Answer) : Bool :=
  threadAnswered taskPayload thread && turn.value.any fun resp => (turnIdOf resp).isSome

/-- A `Start` that panics at one of its answers. -/
def startPanics (taskPayload : Json) (thread turn : Answer) : Bool :=
  thread.panics || threadAnswered taskPayload thread && turn.panics

/-- A `Start` whose payload and images can be read, and that is answered. -/
def Starts (t : Task) (taskPayload : Json) (attempt : Nat → Attempt) (thread turn : Answer) : Prop :=
  startAnswered taskPayload thread turn = true ∧
    ∃ parts draft, extractParts taskPayload = .ok parts ∧ partsToCodexInput attempt t.nextFile parts = .ok draft

/-- The steps that lose no file. A `Start` may only fail when there are no files, and like a prompt that gets a turn
of its own only succeed when the files there are belong to deferred prompts; a `Cancel` may only come when none do;
and the task may only panic when there are no files at all. -/
def Careful (t : Task) : Pick → Prop
  | .start payload attempt thread turn =>
      (∀ parts, extractParts payload = .ok parts → CleanConversion attempt t.nextFile parts ∧
        (startPanics payload thread turn = true → WritesNothing attempt t.nextFile parts)) ∧
        (Starts t payload attempt thread turn → ∀ file ∈ t.disk, file ∈ t.deferredFiles) ∧
        (¬Starts t payload attempt thread turn → t.disk = [])
  | .prompt parts attempt answer =>
      CleanConversion attempt t.nextFile parts ∧
        (t.fallbackInFlight = false → t.activeTurnId = none → answer.taken = true →
          ∀ file ∈ t.disk, file ∈ t.deferredFiles) ∧
        (t.fallbackInFlight = false → answer.panics = true → t.disk = [] ∧ WritesNothing attempt t.nextFile parts)
  | .cancel _ => ∀ file ∈ t.disk, file ∈ t.activeTurnTempFiles
  | _ => True

/-- A step that loses no file: the turn that waited may only end in a panic when there are none, and the pick only
matters if no message read earlier, nor the end of the output, comes first. -/
def CarefulStep (t : Task) (step : Answer × Pick) : Prop :=
  (t.pendingFallbackInput ≠ none → step.1.panics = true → t.disk = []) ∧
    ((t.startFallback step.1).running = true → (t.startFallback step.1).notifications = [] →
      (t.startFallback step.1).ended = none → Careful (t.startFallback step.1) step.2)

/-- The files of a conversion that succeeds are those it created. -/
theorem partsToCodexInput_created {attempt : Nat → Attempt} {next : Nat} {parts : List Json} {draft : Draft}
    (h : partsToCodexInput attempt next parts = .ok draft) : draft.created = draft.tempFiles := by
  have hloop : ∀ (parts : List Json) (start done : Draft), start.created = start.tempFiles →
      parts.foldlM (addPart attempt) start = .ok done → done.created = done.tempFiles := by
    intro parts
    induction parts with
    | nil =>
        intro start done hstart hdone
        obtain rfl : start = done := Except.ok.inj hdone
        exact hstart
    | cons part parts ih =>
        intro start done hstart hdone
        rw [List.foldlM_cons] at hdone
        cases hadd : addPart attempt start part with
        | error e =>
            rw [hadd] at hdone
            cases hdone
        | ok middle =>
            rw [hadd] at hdone
            refine ih middle done ?_ hdone
            unfold addPart at hadd
            dsimp only at hadd
            repeat' split at hadd
            all_goals first
              | cases hadd; done
              | obtain rfl := Except.ok.inj hadd
                first
                  | exact hstart
                  | exact congrArg (· ++ [_]) hstart
  unfold partsToCodexInput at h
  split at h
  · cases h
  · rename_i done hdone
    have hcreated := hloop parts _ done rfl hdone
    split at h
    · obtain rfl := Except.ok.inj h
      exact hcreated
    · obtain rfl := Except.ok.inj h
      exact hcreated

/-! ## Messages -/

/-- Every file on disk is referenced by the state, and can be removed. -/
structure Listed (t : Task) : Prop where
  referenced : Referenced t
  removable : t.stuck = []

/-- Nothing happens to the files. -/
structure SameFiles (t t' : Task) : Prop where
  disk : t'.disk = t.disk
  stuck : t'.stuck = t.stuck
  active : t'.activeTurnTempFiles = t.activeTurnTempFiles
  deferred : t'.deferredPrompts = t.deferredPrompts
  running : t'.running = t.running

theorem SameFiles.trans {t t' t'' : Task} (h : SameFiles t t') (h' : SameFiles t' t'') : SameFiles t t'' :=
  ⟨h'.disk.trans h.disk, h'.stuck.trans h.stuck, h'.active.trans h.active, h'.deferred.trans h.deferred,
    h'.running.trans h.running⟩

theorem SameFiles.listed {t t' : Task} (h : SameFiles t t') (hlisted : Listed t) : Listed t' := by
  refine ⟨?_, h.stuck.trans hlisted.removable⟩
  unfold Referenced Task.deferredFiles
  rw [h.disk, h.active, h.deferred]
  exact hlisted.referenced

/-- With nothing stuck, what is left are the other files. -/
theorem mem_cleanup {t : Task} (h : t.stuck = []) {files : List TempFile} {file : TempFile} :
    file ∈ (t.cleanupTempFiles files).disk ↔ file ∈ t.disk ∧ file ∉ files := by
  simp [Task.cleanupTempFiles, h]

/-- **When all that is listed is deleted, nothing is left.** -/
theorem Listed.cleanupState {t : Task} (h : Listed t) : t.cleanupStateTempFiles.disk = [] := by
  refine List.eq_nil_iff_forall_not_mem.mpr fun file hfile => ?_
  obtain ⟨hdisk, hkept⟩ := (mem_cleanup h.removable).mp hfile
  exact hkept (List.mem_append.mpr (h.referenced file hdisk))

theorem died_sameFiles (t : Task) (error : String) : SameFiles t (t.died error) := ⟨rfl, rfl, rfl, rfl, rfl⟩

/-- In a task that goes on every file is listed, and one that has ended has none. -/
def Tidy (t : Task) : Prop := Listed t ∧ (t.running = false → t.disk = [])

theorem Tidy.of_running {t : Task} (h : Listed t) (hrunning : t.running = true) : Tidy t :=
  ⟨h, fun hended => by rw [hrunning] at hended; cases hended⟩

theorem tidy_of_empty {t : Task} (h : t.disk = []) (hstuck : t.stuck = []) : Tidy t :=
  ⟨⟨fun file hfile => absurd hfile (by rw [h]; exact List.not_mem_nil), hstuck⟩, fun _ => h⟩

theorem tidy_leave {t : Task} (h : Listed t) (error : String) :
    Tidy ((t.died error).cleanupStateTempFiles).leave :=
  tidy_of_empty (Listed.cleanupState (t := t.died error) ((died_sameFiles t error).listed h)) h.removable

/-- A panic leaves nothing only where there was nothing. -/
theorem tidy_panic {t t' : Task} (hsame : SameFiles t t') (h : Listed t) (hempty : t.disk = []) : Tidy t'.panic :=
  tidy_of_empty (hsame.disk.trans hempty) (hsame.stuck.trans h.removable)

theorem Answer.panics_malformed {meanwhile : List Json} {line : String} (h : lineHead line = none) :
    (Answer.malformed meanwhile line).panics = true := by
  rw [Answer.panics, h]
  rfl

namespace Task

theorem queueFallback_listed {t : Task} (h : ∀ file ∈ t.disk, file ∈ t.deferredFiles) (hstuck : t.stuck = []) :
    Listed t.queueFallback ∧ t.queueFallback.running = t.running := by
  unfold queueFallback
  split
  · exact ⟨⟨fun file hfile => .inl (h file hfile), hstuck⟩, rfl⟩
  · exact ⟨⟨fun file hfile => .inr (h file hfile), hstuck⟩, rfl⟩

theorem handleTurnCompleted_listed {t : Task} (h : Listed t) (msg : Json) :
    Listed (t.handleTurnCompleted msg) ∧ (t.handleTurnCompleted msg).running = t.running := by
  have hleft : ∀ file ∈ t.endTurn.disk, file ∈ t.deferredFiles := fun file hfile => by
    -- what is left on disk was not the turn's
    obtain ⟨hold, hkept⟩ := (mem_cleanup h.removable).mp hfile
    exact (h.referenced file hold).resolve_left hkept
  obtain ⟨hlisted, hrunning⟩ := queueFallback_listed
    (t := t.endTurn.emit (.turnComplete (turnResult t msg) t.endTurn.settled)) hleft h.removable
  exact ⟨⟨hlisted.referenced, hlisted.removable⟩, hrunning⟩

theorem handleNotification_listed {t : Task} (h : Listed t) (msg : Json) (method : String) :
    Listed (t.handleNotification msg method) ∧ (t.handleNotification msg method).running = t.running := by
  unfold handleNotification
  split
  · exact handleTurnCompleted_listed h msg
  split
  · split
    · exact ⟨⟨h.referenced, h.removable⟩, rfl⟩
    · exact ⟨⟨h.referenced, h.removable⟩, rfl⟩
  split
  · split
    · exact ⟨⟨h.referenced, h.removable⟩, rfl⟩
    · exact ⟨⟨h.referenced, h.removable⟩, rfl⟩
  split
  · exact ⟨⟨h.referenced, h.removable⟩, rfl⟩
  · exact ⟨⟨h.referenced, h.removable⟩, rfl⟩

theorem handleIncomingMessage_listed {t : Task} (h : Listed t) (msg : Json) :
    Listed (t.handleIncomingMessage msg) ∧ (t.handleIncomingMessage msg).running = t.running := by
  unfold handleIncomingMessage
  split
  · exact ⟨⟨h.referenced, h.removable⟩, rfl⟩
  · exact ⟨⟨h.referenced, h.removable⟩, rfl⟩
  · exact handleNotification_listed h msg _
  · exact ⟨⟨h.referenced, h.removable⟩, rfl⟩

/-! ## Requests and starts -/

theorem ask_sameFiles (t : Task) (request : Request) (answer : Answer) : SameFiles t (t.ask request answer) := by
  cases answer <;> exact ⟨rfl, rfl, rfl, rfl, rfl⟩

theorem exchange_sameFiles (t : Task) (request : Request) (answer : Answer) :
    SameFiles t (t.exchange request answer).1 := by
  rw [exchange_fst]
  exact ask_sameFiles t request answer

/-- A request is taken exactly if it is answered without an error. -/
theorem exchange_snd (t : Task) (request : Request) (answer : Answer) :
    (∃ resp, answer.value = some resp ∧ (t.exchange request answer).2 = .ok resp) ∨
      answer.value = none ∧ ∃ failure, (t.exchange request answer).2 = .error failure ∧
        (failure = .panicked → answer.panics = true) := by
  unfold exchange Answer.value
  cases answer with
  | response meanwhile resp =>
      dsimp only
      split
      · exact .inr ⟨rfl, _, rfl, nofun⟩
      · exact .inl ⟨resp, rfl, rfl⟩
  | malformed meanwhile line =>
      refine .inr ⟨rfl, _, rfl, fun hpanicked => ?_⟩
      rw [Answer.panics]
      by_contra hwhole
      rw [if_neg hwhole] at hpanicked
      cases hpanicked
  | _ => exact .inr ⟨rfl, _, rfl, nofun⟩

/-- What a start comes to is a matter of the answers alone. -/
structure ComesOf (result : Except Failure Unit) (answered panics : Bool) : Prop where
  done : result = .ok () ↔ answered = true
  panicked : result = .error .panicked → panics = true

/-- Whether a turn is started depends on the answer alone, if there is a thread. -/
theorem doTurnStart_files {t : Task} {tid : String} (hthread : t.threadId = some tid) (input : List Json)
    (answer : Answer) :
    SameFiles t (t.doTurnStart input answer).1 ∧
      ComesOf (t.doTurnStart input answer).2 (answer.value.any fun resp => (turnIdOf resp).isSome) answer.panics := by
  have hsame := exchange_sameFiles t (turnStart tid input .nothing) answer
  have hsnd := exchange_snd t (turnStart tid input .nothing) answer
  unfold doTurnStart
  rw [hthread]
  dsimp only
  cases hexchange : t.exchange (turnStart tid input .nothing) answer with
  | mk asked result =>
      rw [hexchange] at hsame hsnd
      obtain ⟨resp, hvalue, hresult⟩ | ⟨hvalue, failure, hresult, hpanics⟩ := hsnd
      · obtain rfl : result = .ok resp := hresult
        rw [hvalue]
        dsimp only
        cases hturn : turnIdOf resp with
        | none => exact ⟨hsame, by simp [hturn], nofun⟩
        | some turnId => exact ⟨hsame.trans ⟨rfl, rfl, rfl, rfl, rfl⟩, by simp [hturn], nofun⟩
      · obtain rfl : result = .error failure := hresult
        rw [hvalue]
        exact ⟨hsame, by simp, fun hresult => hpanics (Except.error.inj hresult)⟩

/-- The same once the thread is known. -/
theorem threaded_turn_files {t asked : Task} {payload : Json} {thread : Answer} (hsame : SameFiles t asked)
    (hanswered : threadAnswered payload thread = true) (tid : String) (input : List Json) (turn : Answer) :
    SameFiles t (doTurnStart { asked with threadId := some tid } input turn).1 ∧
      ComesOf (doTurnStart { asked with threadId := some tid } input turn).2 (startAnswered payload thread turn)
        (startPanics payload thread turn) := by
  have hset : SameFiles asked { asked with threadId := some tid } := ⟨rfl, rfl, rfl, rfl, rfl⟩
  obtain ⟨hturn, hdone, hpanicked⟩ := doTurnStart_files (t := { asked with threadId := some tid }) rfl input turn
  refine ⟨(hsame.trans hset).trans hturn, ?_, fun hresult => ?_⟩
  · rw [hdone, startAnswered, hanswered, Bool.true_and]
  · rw [startPanics, hanswered, hpanicked hresult]
    simp

/-- No thread, and so no start. -/
theorem unthreaded_files {t asked : Task} {payload : Json} {thread : Answer} (hsame : SameFiles t asked)
    (hanswered : threadAnswered payload thread = false) {failure : Failure}
    (hpanics : failure = .panicked → thread.panics = true) (turn : Answer) :
    SameFiles t asked ∧
      ComesOf (.error failure) (startAnswered payload thread turn) (startPanics payload thread turn) := by
  refine ⟨hsame, ?_, fun hresult => ?_⟩
  · simp [startAnswered, hanswered]
  · simp [startPanics, hpanics (Except.error.inj hresult)]

/-- A thread that is resumed: whether the turn is started depends on the answers alone. -/
theorem doResume_files (t : Task) {payload : Json} {resumeId : String}
    (hresume : (payload.get "resumeSessionId").bind Json.asStr = some resumeId) (input : List Json)
    (thread turn : Answer) :
    SameFiles t (t.doResume resumeId input thread turn).1 ∧
      ComesOf (t.doResume resumeId input thread turn).2 (startAnswered payload thread turn)
        (startPanics payload thread turn) := by
  unfold doResume
  generalize hrequest : ({ method := "thread/resume", params := _, carries := .nothing } : Request) = request
  have hsame := exchange_sameFiles t request thread
  have hsnd := exchange_snd t request thread
  cases hexchange : t.exchange request thread with
  | mk asked result =>
      rw [hexchange] at hsame hsnd
      obtain ⟨resp, hvalue, hresult⟩ | ⟨hvalue, failure, hresult, hpanics⟩ := hsnd
      · obtain rfl : result = .ok resp := hresult
        exact threaded_turn_files hsame (by simp [threadAnswered, hvalue, hresume]) resumeId input turn
      · obtain rfl : result = .error failure := hresult
        exact unthreaded_files hsame (by simp [threadAnswered, hvalue]) hpanics turn

/-- The same for a new thread. -/
theorem doFreshStart_files (t : Task) {payload : Json}
    (hresume : (payload.get "resumeSessionId").bind Json.asStr = none)
    (config : Config) (input : List Json) (thread turn : Answer) :
    SameFiles t (t.doFreshStart config input thread turn).1 ∧
      ComesOf (t.doFreshStart config input thread turn).2 (startAnswered payload thread turn)
        (startPanics payload thread turn) := by
  unfold doFreshStart
  dsimp only
  generalize hrequest : ({ method := "thread/start", params := _, carries := .nothing } : Request) = request
  have hsame := exchange_sameFiles t request thread
  have hsnd := exchange_snd t request thread
  cases hexchange : t.exchange request thread with
  | mk asked result =>
      rw [hexchange] at hsame hsnd
      obtain ⟨resp, hvalue, hresult⟩ | ⟨hvalue, failure, hresult, hpanics⟩ := hsnd
      · obtain rfl : result = .ok resp := hresult
        dsimp only
        cases htid : threadIdOf resp with
        | none =>
            exact unthreaded_files hsame (by simp [threadAnswered, hvalue, hresume, htid])
              (fun hpanicked => by cases hpanicked) turn
        | some tid => exact threaded_turn_files hsame (by simp [threadAnswered, hvalue, htid]) tid input turn
      · obtain rfl : result = .error failure := hresult
        exact unthreaded_files hsame (by simp [threadAnswered, hvalue]) hpanics turn

theorem emitInit_sameFiles (t : Task) : SameFiles t t.emitInit := by
  unfold emitInit
  split <;> exact ⟨rfl, rfl, rfl, rfl, rfl⟩

/-- The files of a conversion come on top. -/
theorem mem_drafted {t : Task} {draft : Draft} (hcreated : draft.created = draft.tempFiles) {file : TempFile}
    (hfile : file ∈ (t.drafted draft).disk) : file ∈ t.disk ∨ file ∈ draft.tempFiles := by
  rw [← hcreated]
  exact List.mem_append.mp hfile

/-- A conversion that writes no file, and one whose files can be removed. -/
theorem drafted_disk {t : Task} {draft : Draft} (hcreated : draft.created = []) : (t.drafted draft).disk = t.disk := by
  rw [drafted, hcreated, List.append_nil]

theorem drafted_stuck {t : Task} {draft : Draft} (hstuck : t.stuck = []) (hnone : draft.stuck = []) :
    (t.drafted draft).stuck = [] := by
  rw [drafted, hstuck, hnone]
  rfl

/-- A failed start deletes its own files: nothing is left if there was nothing. -/
theorem tidy_abandoned {t tried : Task} {draft : Draft} (hcreated : draft.created = draft.tempFiles)
    (hsame : SameFiles (t.drafted draft) tried) (hstuck : (t.drafted draft).stuck = []) (hempty : t.disk = [])
    {failure : Failure} (hpanics : failure = .panicked → draft.created = []) (what : String) :
    Tidy (tried.abandon what draft failure) := by
  have hremovable : tried.stuck = [] := hsame.stuck.trans hstuck
  cases failure with
  | error e =>
      refine tidy_of_empty (List.eq_nil_iff_forall_not_mem.mpr fun file hfile => ?_) hremovable
      obtain ⟨htried, hkept⟩ := (mem_cleanup (t := tried.died (what ++ ": " ++ e)) hremovable).mp hfile
      have hdisk : file ∈ (t.drafted draft).disk := hsame.disk ▸ htried
      obtain hold | hnew := mem_drafted hcreated hdisk
      · rw [hempty] at hold
        cases hold
      · exact hkept hnew
  | panicked =>
      refine tidy_of_empty ?_ hremovable
      show tried.disk = []
      rw [hsame.disk, drafted_disk (hpanics rfl), hempty]

/-- A start that succeeds lists its files for the active turn. -/
theorem tidy_started {t started : Task} {draft : Draft} (hcreated : draft.created = draft.tempFiles)
    (hsame : SameFiles (t.drafted draft) started) (hstuck : (t.drafted draft).stuck = [])
    (hdeferred : ∀ file ∈ t.disk, file ∈ t.deferredFiles)
    (hrunning : t.running = true) : Tidy { started.emitInit with activeTurnTempFiles := draft.tempFiles } := by
  have hinit := hsame.trans (emitInit_sameFiles started)
  refine Tidy.of_running ⟨fun file hfile => ?_, hinit.stuck.trans hstuck⟩ (hinit.running.trans hrunning)
  have hdisk : file ∈ (t.drafted draft).disk := hinit.disk ▸ hfile
  obtain hold | hnew := mem_drafted hcreated hdisk
  · refine .inr ?_
    show file ∈ started.emitInit.deferredPrompts.flatMap Deferred.tempFiles
    rw [hinit.deferred]
    exact hdeferred file hold
  · exact .inl hnew

/-- What a start comes to, given what its requests come to. -/
theorem tidy_start {t tried : Task} {draft : Draft} {result : Except Failure Unit} {answered panics : Bool}
    (hcomes : ComesOf result answered panics) (hcreated : draft.created = draft.tempFiles)
    (hsame : SameFiles (t.drafted draft) tried) (hstuck : (t.drafted draft).stuck = [])
    (hstarts : answered = true → ∀ file ∈ t.disk, file ∈ t.deferredFiles)
    (hfails : answered = false → t.disk = []) (hpanics : panics = true → draft.created = [])
    (hrunning : t.running = true) (what : String) :
    (∀ failure, result = .error failure → Tidy (tried.abandon what draft failure)) ∧
      (result = .ok () → Tidy { tried.emitInit with activeTurnTempFiles := draft.tempFiles }) := by
  refine ⟨fun failure hresult => ?_, fun hresult => ?_⟩
  · have hnot : answered = false := by
      by_contra hanswered
      rw [hcomes.done.mpr (by simpa using hanswered)] at hresult
      cases hresult
    exact tidy_abandoned hcreated hsame hstuck (hfails hnot)
      (fun hpanicked => hpanics (hcomes.panicked (by rw [hresult, hpanicked]))) what
  · exact tidy_started hcreated hsame hstuck (hstarts (hcomes.done.mp hresult)) hrunning

/-- **A `Start`.** -/
theorem handleStart_tidy {t : Task} (hrunning : t.running = true) (hstuck : t.stuck = []) (config : Config)
    (payload : Json) (attempt : Nat → Attempt) (thread turn : Answer)
    (h : Careful t (.start payload attempt thread turn)) :
    Tidy (t.handleStart config payload attempt thread turn) := by
  obtain ⟨hconverts, hstarts, hfails⟩ := h
  unfold handleStart
  split
  · rename_i e hparts
    refine tidy_of_empty (hfails ?_) hstuck
    rintro ⟨-, parts, -, hread, -⟩
    rw [hparts] at hread
    cases hread
  · rename_i parts hparts
    obtain ⟨hclean, hwrites⟩ := hconverts parts hparts
    unfold CleanConversion at hclean
    split
    · rename_i e draft hconvert
      have hempty : t.disk = [] := by
        refine hfails ?_
        rintro ⟨-, parts', draft', hread, hconverted⟩
        rw [hparts] at hread
        obtain rfl := Except.ok.inj hread
        rw [hconvert] at hconverted
        cases hconverted
      rw [hconvert] at hclean
      refine tidy_of_empty ?_ (drafted_stuck hstuck hclean.2)
      show (t.drafted draft).disk = []
      rw [drafted_disk hclean.1, hempty]
    · rename_i draft hconvert
      rw [hconvert] at hclean
      have hcreated := partsToCodexInput_created hconvert
      have hremovable := drafted_stuck hstuck hclean
      have hanswered : Starts t payload attempt thread turn ↔ startAnswered payload thread turn = true :=
        ⟨And.left, fun hanswered => ⟨hanswered, parts, draft, hparts, hconvert⟩⟩
      have hfailed : startAnswered payload thread turn = false → t.disk = [] := fun hnot =>
        hfails fun hstart => by
          rw [hanswered.mp hstart] at hnot
          cases hnot
      split
      · rename_i resumeId hresume
        obtain ⟨hsame, hcomes⟩ := doResume_files (t.drafted draft) hresume draft.input thread turn
        obtain ⟨hgone, hstarted⟩ := tidy_start hcomes hcreated hsame hremovable (fun h => hstarts (hanswered.mpr h))
          hfailed (fun h => hwrites h draft hconvert) hrunning "Codex resume failed"
        split
        · rename_i tried failure hresult
          rw [hresult] at hgone
          exact hgone failure rfl
        · rename_i started _ hresult
          rw [hresult] at hstarted
          exact hstarted rfl
      · rename_i hresume
        obtain ⟨hsame, hcomes⟩ := doFreshStart_files (t.drafted draft) hresume config draft.input thread turn
        obtain ⟨hgone, hstarted⟩ := tidy_start hcomes hcreated hsame hremovable (fun h => hstarts (hanswered.mpr h))
          hfailed (fun h => hwrites h draft hconvert) hrunning "Codex start failed"
        split
        · rename_i tried failure hresult
          rw [hresult] at hgone
          exact hgone failure rfl
        · rename_i started _ hresult
          rw [hresult] at hstarted
          exact hstarted rfl

/-! ## Prompts -/

/-- A prompt whose images are on disk, and nothing else happened to the files. -/
structure Prepared (t : Task) (draft : Draft) (t' : Task) : Prop where
  listed : Listed t
  running : t.running = true
  created : draft.created = draft.tempFiles
  removable : (t.drafted draft).stuck = []
  same : SameFiles (t.drafted draft) t'

namespace Prepared

variable {t t' t'' : Task} {draft : Draft}

theorem trans (h : Prepared t draft t') (h' : SameFiles t' t'') : Prepared t draft t'' :=
  ⟨h.listed, h.running, h.created, h.removable, h.same.trans h'⟩

/-- A file on disk was listed before, or is the prompt's. -/
theorem mem (h : Prepared t draft t') {file : TempFile} (hfile : file ∈ t'.disk) :
    (file ∈ t'.activeTurnTempFiles ∨ file ∈ t'.deferredFiles) ∨ file ∈ draft.tempFiles := by
  have hdisk : file ∈ (t.drafted draft).disk := h.same.disk ▸ hfile
  obtain hold | hnew := mem_drafted h.created hdisk
  · refine .inl ?_
    rw [deferredFiles, h.same.active, h.same.deferred]
    exact h.listed.referenced file hold
  · exact .inr hnew

/-- The files are listed again: every one of the prompt's has its place in a list, and every list is kept. -/
theorem tidy (h : Prepared t draft t') (hdisk : t''.disk = t'.disk) (hstuck : t''.stuck = t'.stuck)
    (hrunning : t''.running = t'.running)
    (hkept : ∀ file, (file ∈ t'.activeTurnTempFiles ∨ file ∈ t'.deferredFiles) ∨ file ∈ draft.tempFiles →
      file ∈ t''.activeTurnTempFiles ∨ file ∈ t''.deferredFiles) : Tidy t'' :=
  Tidy.of_running ⟨fun file hfile => hkept file (h.mem (hdisk ▸ hfile)),
    hstuck.trans (h.same.stuck.trans h.removable)⟩ (hrunning.trans (h.same.running.trans h.running))

/-- A prompt's files are deleted again. -/
theorem withdrawn (h : Prepared t draft t') : Tidy (t'.cleanupTempFiles draft.tempFiles) := by
  have hremovable : t'.stuck = [] := h.same.stuck.trans h.removable
  refine Tidy.of_running ⟨fun file hfile => ?_, hremovable⟩ (h.same.running.trans h.running)
  obtain ⟨hdisk, hkept⟩ := (mem_cleanup hremovable).mp hfile
  exact (h.mem hdisk).resolve_right hkept

/-- A prompt's files are listed with the prompt. -/
theorem deferred (h : Prepared t draft t') (number : Nat) : Tidy (t'.defer number draft) := by
  refine h.tidy rfl rfl rfl fun file hfile => ?_
  show file ∈ t'.activeTurnTempFiles ∨
    file ∈ (t'.deferredPrompts ++ [(⟨number, draft.input, draft.tempFiles⟩ : Deferred)]).flatMap Deferred.tempFiles
  rw [List.flatMap_append, List.mem_append]
  obtain (hactive | hdeferred) | hnew := hfile
  · exact .inl hactive
  · exact .inr (.inl hdeferred)
  · refine .inr (.inr ?_)
    simpa using hnew

/-- A panic forgets the prompt's files too. -/
theorem panicked (h : Prepared t draft t') (hempty : t.disk = []) (hnone : draft.created = []) : Tidy t'.panic := by
  refine tidy_of_empty ?_ (h.same.stuck.trans h.removable)
  show t'.disk = []
  rw [h.same.disk, drafted_disk hnone, hempty]

end Prepared

/-- **A prompt with a turn of its own**: its files replace the active turn's. -/
theorem promptTurn_tidy {t t' : Task} {draft : Draft} (hprepared : Prepared t draft t') (number : Nat)
    (answer : Answer) (h : answer.taken = true → ∀ file ∈ t.disk, file ∈ t.deferredFiles)
    (hpanics : answer.panics = true → t.disk = [] ∧ draft.created = []) :
    Tidy (t'.promptTurn number draft answer) := by
  unfold promptTurn
  split
  · exact (hprepared.trans (died_sameFiles t' _)).withdrawn
  · rename_i tid hthread
    dsimp only
    generalize turnStart tid draft.input (.own number) = request
    have hasked := hprepared.trans (ask_sameFiles t' request answer)
    generalize t'.ask request answer = asked at hasked
    have hgone : ∀ error, Tidy ((asked.died error).cleanupTempFiles draft.tempFiles) := fun error =>
      (hasked.trans (died_sameFiles asked error)).withdrawn
    split
    · exact hgone _
    · exact hgone _
    · split
      · rename_i hcut
        obtain ⟨hempty, hnone⟩ := hpanics (Answer.panics_malformed hcut)
        exact hasked.panicked hempty hnone
      · exact hgone _
    · exact hgone _
    · rename_i meanwhile resp
      split
      · exact hgone _
      · rename_i herror
        have htaken : (Answer.response meanwhile resp).taken = true := by
          simpa [Answer.taken] using herror
        have hsame := hasked.same
        refine Tidy.of_running ⟨fun file hfile => ?_, hsame.stuck.trans hasked.removable⟩
          (hsame.running.trans hasked.running)
        have hdisk : file ∈ (t.drafted draft).disk := hsame.disk ▸ hfile
        obtain hold | hnew := mem_drafted hasked.created hdisk
        · refine .inr ?_
          show file ∈ asked.deferredPrompts.flatMap Deferred.tempFiles
          rw [hsame.deferred]
          exact h htaken file hold
        · exact .inl hnew

/-- **A prompt for the running turn**: its files are added to the turn's, listed with the prompt, or deleted. -/
theorem promptSteer_tidy {t t' : Task} {draft : Draft} (hprepared : Prepared t draft t') (number : Nat)
    (answer : Answer) (hpanics : answer.panics = true → t.disk = [] ∧ draft.created = []) :
    Tidy (t'.promptSteer number draft answer) := by
  unfold promptSteer
  dsimp only
  generalize turnSteer _ _ draft.input (.steer number) = request
  have hasked := hprepared.trans (ask_sameFiles t' request answer)
  generalize t'.ask request answer = asked at hasked
  have hgone : ∀ error, Tidy ((asked.died error).cleanupTempFiles draft.tempFiles) := fun error =>
    (hasked.trans (died_sameFiles asked error)).withdrawn
  split
  · exact hgone _
  · exact hgone _
  · split
    · rename_i hcut
      obtain ⟨hempty, hnone⟩ := hpanics (Answer.panics_malformed hcut)
      exact hasked.panicked hempty hnone
    · exact hgone _
  · exact hgone _
  · split
    · split
      · exact hasked.deferred number
      split
      · exact hasked.withdrawn
      · exact hgone _
    · refine hasked.tidy rfl rfl rfl fun file hfile => ?_
      show file ∈ asked.activeTurnTempFiles ++ draft.tempFiles ∨ file ∈ asked.deferredFiles
      rw [List.mem_append]
      obtain (hactive | hdeferred) | hnew := hfile
      · exact .inl (.inl hactive)
      · exact .inr hdeferred
      · exact .inl (.inr hnew)

theorem handlePrompt_tidy {t : Task} (hlisted : Listed t) (hrunning : t.running = true) (parts : List Json)
    (attempt : Nat → Attempt) (answer : Answer) (h : Careful t (.prompt parts attempt answer)) :
    Tidy (t.handlePrompt parts attempt answer) := by
  obtain ⟨hclean, hown, hpanics⟩ := h
  unfold CleanConversion at hclean
  unfold handlePrompt
  dsimp only
  split
  · rename_i e draft hconvert
    rw [hconvert] at hclean
    have hstuck := drafted_stuck hlisted.removable hclean.2
    refine Tidy.of_running ⟨fun file hfile => ?_, hstuck⟩ hrunning
    have hdisk : file ∈ (t.drafted draft).disk := hfile
    rw [drafted_disk hclean.1] at hdisk
    exact hlisted.referenced file hdisk
  · rename_i draft hconvert
    rw [hconvert] at hclean
    have hprepared : Prepared t draft (Task.drafted { t with nextPrompt := t.nextPrompt + 1 } draft) :=
      ⟨hlisted, hrunning, partsToCodexInput_created hconvert, drafted_stuck hlisted.removable hclean,
        rfl, rfl, rfl, rfl, rfl⟩
    split
    · exact hprepared.deferred t.nextPrompt
    rename_i hflight
    have hnotFlying : t.fallbackInFlight = false := by
      have hnot : ¬t.fallbackInFlight = true := hflight
      simpa using hnot
    have hempty : answer.panics = true → t.disk = [] ∧ draft.created = [] := fun hpanic =>
      ⟨(hpanics hnotFlying hpanic).1, (hpanics hnotFlying hpanic).2 draft hconvert⟩
    split
    · rename_i hactive
      have hidle : t.activeTurnId = none := by
        have hnone : t.activeTurnId.isNone = true := hactive
        simpa using hnone
      exact promptTurn_tidy hprepared t.nextPrompt answer (hown hnotFlying hidle) hempty
    · exact promptSteer_tidy hprepared t.nextPrompt answer hempty

/-! ## The other commands -/

theorem cancelWait_listed {t : Task} (h : Listed t) (lines : List Line) : Listed (t.cancelWait lines) := by
  induction lines generalizing t with
  | nil => exact h
  | cons line lines ih =>
      cases line with
      | json msg =>
          rw [cancelWait]
          split
          · exact (handleTurnCompleted_listed h msg).1
          · exact ih (handleIncomingMessage_listed h msg).1
      | malformed => exact ih h
      | blank => exact ih h
      | eof exitInfo => exact h
      | error e => exact h

/-- **A `Cancel`** that finds no file of a deferred prompt. -/
theorem handleCancel_tidy {t : Task} (hstuck : t.stuck = []) (lines : List Line) (h : Careful t (.cancel lines)) :
    Tidy (t.handleCancel lines) := by
  unfold handleCancel
  generalize hdropped : cleanupDeferredTempFiles { t with cancelRequested := true, deferredPrompts := [] } = dropped
  have hlisted : Listed dropped := by
    subst hdropped
    exact ⟨fun file hfile => .inl (h file (List.mem_filter.mp hfile).1), hstuck⟩
  dsimp only
  split
  · exact tidy_leave (cancelWait_listed (t := dropped.tell _) ⟨hlisted.referenced, hlisted.removable⟩ lines) _
  · exact tidy_leave hlisted _

theorem stopWait_tidy {t : Task} (h : Listed t) (hrunning : t.running = true) (lines : List Line) :
    Tidy (t.stopWait lines) := by
  induction lines generalizing t with
  | nil => exact tidy_leave h _
  | cons line lines ih =>
      cases line with
      | json msg =>
          rw [stopWait]
          split
          · dsimp only
            split
            · exact Tidy.of_running ⟨h.referenced, h.removable⟩ hrunning
            · exact Tidy.of_running ⟨h.referenced, h.removable⟩ hrunning
          · obtain ⟨hafter, hstill⟩ := handleIncomingMessage_listed h msg
            exact ih hafter (hstill.trans hrunning)
      | malformed => exact ih h hrunning
      | blank => exact ih h hrunning
      | eof exitInfo => exact Tidy.of_running ⟨h.referenced, h.removable⟩ hrunning
      | error e => exact Tidy.of_running h hrunning

theorem handleStopTurn_tidy {t : Task} (h : Listed t) (hrunning : t.running = true) (lines : List Line) :
    Tidy (t.handleStopTurn lines) := by
  unfold handleStopTurn
  generalize hdropped : ({ cleanupDeferredTempFiles { t with stopTurnRequested := true } with
    deferredPrompts := [] } : Task) = dropped
  have hlisted : Listed dropped := by
    subst hdropped
    refine ⟨fun file hfile => .inl ?_, h.removable⟩
    have hremovable : ({ t with stopTurnRequested := true } : Task).stuck = [] := h.removable
    obtain ⟨hdisk, hkept⟩ := (mem_cleanup hremovable).mp hfile
    exact (h.referenced file hdisk).resolve_right hkept
  have hstill : dropped.running = true := by
    rw [← hdropped]
    exact hrunning
  dsimp only
  split
  · exact Tidy.of_running ⟨hlisted.referenced, hlisted.removable⟩ hstill
  · exact stopWait_tidy hlisted hstill lines
  · exact Tidy.of_running hlisted hstill

/-! ## The loop -/

theorem startFallback_tidy {t : Task} (h : Listed t) (hrunning : t.running = true) (answer : Answer)
    (hpanics : t.pendingFallbackInput ≠ none → answer.panics = true → t.disk = []) :
    Tidy (t.startFallback answer) := by
  unfold startFallback
  split
  · exact Tidy.of_running h hrunning
  · exact Tidy.of_running ⟨h.referenced, h.removable⟩ hrunning
  · rename_i prompts tid hpending _
    dsimp only
    generalize turnStart tid (combinedInput prompts) (.waited (prompts.map Deferred.number)) = request
    have htaken : SameFiles t { t with pendingFallbackInput := none } := ⟨rfl, rfl, rfl, rfl, rfl⟩
    have hasked := htaken.trans (ask_sameFiles { t with pendingFallbackInput := none } request answer)
    generalize ask { t with pendingFallbackInput := none } request answer = asked at hasked
    have hlisted := hasked.listed h
    have hstill := hasked.running.trans hrunning
    split
    · exact tidy_leave hlisted _
    · exact tidy_leave hlisted _
    · split
      · rename_i hcut
        exact tidy_panic hasked h (hpanics (by rw [hpending]; nofun) (Answer.panics_malformed hcut))
      · exact tidy_leave hlisted _
    · exact tidy_leave hlisted _
    · split
      · exact tidy_leave hlisted _
      split
      · exact Tidy.of_running hlisted hstill
      · split
        · exact Tidy.of_running ⟨hlisted.referenced, hlisted.removable⟩ hstill
        · exact Tidy.of_running ⟨hlisted.referenced, hlisted.removable⟩ hstill

theorem handlePick_tidy {t : Task} (h : Listed t) (hrunning : t.running = true) (config : Config) {pick : Pick}
    (hcareful : Careful t pick) : Tidy (t.handlePick config pick) := by
  cases pick with
  | line line =>
      cases line with
      | json msg =>
          obtain ⟨hafter, hstill⟩ := handleIncomingMessage_listed h msg
          exact Tidy.of_running hafter (hstill.trans hrunning)
      | malformed => exact Tidy.of_running h hrunning
      | blank => exact Tidy.of_running h hrunning
      | eof exitInfo => exact tidy_leave h _
      | error e => exact tidy_leave h _
  | start payload attempt thread turn =>
      exact handleStart_tidy (t := t.took _) hrunning h.removable config payload attempt thread turn hcareful
  | prompt parts attempt answer => 
      exact handlePrompt_tidy (t := t.took _) ⟨h.referenced, h.removable⟩ hrunning parts attempt answer hcareful
  | cancel lines => exact handleCancel_tidy (t := t.took _) h.removable lines hcareful
  | stopTurn lines => exact handleStopTurn_tidy (t := t.took _) ⟨h.referenced, h.removable⟩ hrunning lines
  | stop => exact tidy_of_empty (Listed.cleanupState (t := t.took _) ⟨h.referenced, h.removable⟩) h.removable
  | closed =>
      exact tidy_of_empty (Listed.cleanupState (t := { t with log := _ }) ⟨h.referenced, h.removable⟩) h.removable
  | stalled seconds =>
      simp only [handlePick]
      split
      · exact tidy_leave h _
      · exact Tidy.of_running h hrunning

/-- **One step** keeps the files tidy, if it is a careful one. -/
theorem iterate_tidy {t : Task} (h : Tidy t) (config : Config) {step : Answer × Pick} (hcareful : CarefulStep t step) :
    Tidy (iterate config t step) := by
  unfold iterate
  split
  · rename_i hrunning
    obtain ⟨hpanics, hpicks⟩ := hcareful
    have hstarted := startFallback_tidy h.1 hrunning step.1 hpanics
    generalize t.startFallback step.1 = started at hstarted hpicks
    dsimp only
    split
    · rename_i hstill
      unfold select
      split
      · rename_i msg rest _
        obtain ⟨hafter, hkept⟩ := handleIncomingMessage_listed (t := { started with notifications := rest })
          ⟨hstarted.1.referenced, hstarted.1.removable⟩ msg
        exact Tidy.of_running hafter (hkept.trans hstill)
      · exact tidy_leave hstarted.1 _
      · rename_i hnone hopen
        exact handlePick_tidy hstarted.1 hstill config (hpicks hstill hnone hopen)
    · exact hstarted
  · exact h

end Task

def image : Json := .obj [("raw", .str "aGk="), ("mediaType", .str "image/png")]

def taken : Answer := .response [] (.obj [("result", .obj [])])

/-- An image for the running turn, and the end of the task. -/
def steeredImage : List (Answer × Pick) :=
  [(.timedOut [], .start emptyTask attempts (answerWith "thread" "th") (answerWith "turn" "tu")),
    (.timedOut [], .prompt [image] attempts taken), (.timedOut [], .stop)]

/-- An image for a turn that takes no steering, and a `Cancel`. -/
def cancelledImage : List (Answer × Pick) :=
  [(.timedOut [], .start emptyTask attempts (answerWith "thread" "th") (answerWith "turn" "tu")),
    (.timedOut [], .prompt [image] attempts noSteering), (.timedOut [], .cancel [])]

end Executors.Codex
end AgentBeacon
