import AgentBeacon.Worker.CopilotTurns

/-!
# `Correctness.CopilotTurns` — every turn of the Copilot executor has one result

The variables of the process say of the log what the main loop needs to know: whether a turn is stopped or aborted, what
the assistant has said last, what is buffered and what is queued (`LogKept`). What a step notes keeps that, entry by
entry, and where the main loop awaits says whether a turn is open (`Script.Kept`).
-/

namespace AgentBeacon
namespace Executors.Copilot
open Sdk (TurnState)
open Script

/-! ## Reading the log -/

/-- The blocks that an event brings. -/
def blocksOf : SessionEvent → List Json
  | .message content => [textBlock content]
  | .toolStart toolCallId toolName arguments => [toolUse toolCallId toolName arguments]
  | .toolComplete toolCallId success contents errorMessage content =>
      [toolResult toolCallId success contents errorMessage content]
  | .reasoning content => [thinkingBlock content]
  | _ => []

/-- The blocks that have come in. -/
def said : List Entry → List Json
  | .got event :: log => said log ++ blocksOf event
  | _ :: log => said log
  | [] => []

/-- The blocks that have been put out as messages, or dropped. -/
def settled : List Entry → List Json
  | .put content :: log | .dropped content :: log => settled log ++ content
  | _ :: log => settled log
  | [] => []

/-- The starts and prompts that have been queued. -/
def queuedTurns : List Entry → List Command
  | .queued command :: log => queuedTurns log ++ [command].filter Command.isTurn
  | _ :: log => queuedTurns log
  | [] => []

/-- The starts and prompts that the main loop has taken, or that a stop has discarded. -/
def leftQueue : List Entry → List Command
  | .taken command :: log => leftQueue log ++ [command].filter Command.isTurn
  | .discarded commands :: log => leftQueue log ++ commands
  | _ :: log => leftQueue log
  | [] => []

/-- A turn has begun and not ended. -/
def isOpen : List Entry → Bool
  | .began _ :: _ => true
  | .failed _ :: _ | .ended _ :: _ | .crashed :: _ => false
  | _ :: log => isOpen log
  | [] => false

/-- A stop waits for the next turn. -/
def stopWaits : List Entry → Bool
  | .stopKept :: _ => true
  | .began _ :: _ | .ended _ :: _ => false
  | _ :: log => stopWaits log
  | [] => false

/-- The turn has been stopped, or a stop waited for it. -/
def stopSince : List Entry → Bool
  | .stopped :: _ => true
  | .began _ :: log => stopWaits log
  | .ended _ :: _ | .crashed :: _ => false
  | _ :: log => stopSince log
  | [] => false

/-- The turn has been stopped or cancelled, or a stop waited for it. -/
def abortSince : List Entry → Bool
  | .stopped :: _ | .cancelled :: _ => true
  | .began _ :: log => stopWaits log
  | .ended _ :: _ => false
  | _ :: log => abortSince log
  | [] => false

/-- The last message of the assistant in a turn. -/
def lastText : List Entry → Option String
  | .got (.message content) :: _ => some content
  | .began _ :: _ => none
  | _ :: log => lastText log
  | [] => none

/-- The promise of `waitForIdle`, settled by the first of an idle session and a fatal error since the turn began. -/
def idleOf : List Entry → IdlePromise
  | .began _ :: _ => .pending
  | .got .idle :: log => if let .pending := idleOf log then .resolved else idleOf log
  | .got (.error errorType message) :: log =>
      if errorType ∈ fatalErrorTypes then if let .pending := idleOf log then .rejected message else idleOf log
      else idleOf log
  | _ :: log => idleOf log
  | [] => .pending

/-- What the SDK has answered to the prompt of a turn, if it has: the first answer since the turn began. -/
def sendAnswer : List Entry → Option (Option String)
  | .answered error _ :: log => (sendAnswer log).or (some error)
  | .began _ :: _ => none
  | _ :: log => sendAnswer log
  | [] => none

/-- Why the attachments of a prompt cannot be written, now. -/
def unsendableNow : List Entry → Option String
  | .woken unsendable :: _ | .answered _ unsendable :: _ => unsendable
  | _ :: log => unsendableNow log
  | [] => none

/-- The error that awaiting the promise throws. -/
def IdlePromise.fatalError : IdlePromise → Option String
  | .rejected message => some ("Error: " ++ message)
  | _ => none

/-- The fatal error of a turn: its prompt could not be sent, or the session has failed before it was idle. -/
def fatalSince (log : List Entry) : Option String := (sendAnswer log).join.or (idleOf log).fatalError

theorem idleOf_idle_first {log : List Entry} (h : idleOf log = .pending) : idleOf (.got .idle :: log) = .resolved := by
  unfold idleOf
  rw [h]

theorem idleOf_idle_later {log : List Entry} (h : idleOf log ≠ .pending) : idleOf (.got .idle :: log) = idleOf log := by
  rw [idleOf]
  split
  · rename_i hpending
    exact absurd hpending h
  · rfl

theorem idleOf_error_first {log : List Entry} {errorType message : String} (hfatal : errorType ∈ fatalErrorTypes)
    (h : idleOf log = .pending) : idleOf (.got (.error errorType message) :: log) = .rejected message := by
  rw [idleOf, if_pos hfatal, h]

theorem idleOf_error_later {log : List Entry} {errorType message : String} (hfatal : errorType ∈ fatalErrorTypes)
    (h : idleOf log ≠ .pending) : idleOf (.got (.error errorType message) :: log) = idleOf log := by
  rw [idleOf, if_pos hfatal]
  split
  · rename_i hpending
    exact absurd hpending h
  · rfl

theorem idleOf_error_harmless {log : List Entry} {errorType message : String} (h : errorType ∉ fatalErrorTypes) :
    idleOf (.got (.error errorType message) :: log) = idleOf log := by
  rw [idleOf, if_neg h]

/-- The fatal error of a turn whose prompt has been sent is the one its promise is rejected with. -/
theorem fatalSince_of {log : List Entry} {idle : IdlePromise} (hidle : idleOf log = idle)
    (hsend : sendAnswer log = some none) : fatalSince log = idle.fatalError := by
  unfold fatalSince
  rw [hidle, hsend]
  rfl

/-- Only the first answer is the one to the prompt. -/
theorem sendAnswer_later {log : List Entry} {error error' unsendable : Option String}
    (h : sendAnswer log = some error) : sendAnswer (.answered error' unsendable :: log) = some error := by
  rw [sendAnswer, h, Option.some_or]

/-- A turn has just begun. -/
def JustBegun : List Entry → Prop
  | .began _ :: _ => True
  | _ => False

/-- A session has just been opened. -/
def JustOpened : List Entry → Prop
  | .told .init :: _ => True
  | _ => False

/-- A stop, or a cancel between turns, has just happened, or a stopped turn has just ended. -/
def Halted : List Entry → Prop
  | .stopped :: _ | .shutDown :: _ => True
  | .ended result :: _ => result.subtype = "stopped_by_user"
  | _ => False

/-- What may be on top of a log. -/
def Proper (log : List Entry) : Entry → Prop
  | .began _ => isOpen log = false
  | .failed error => JustBegun log ∧ unsendableNow log = some error
  | .ended result => isOpen log = true ∧ settled log = said log ∧
      result = turnResult (stopSince log) (abortSince log) (lastText log) (fatalSince log)
  | .crashed => isOpen log = true ∧ ∃ message, idleOf log = .rejected message
  | .dropped _ => JustOpened log
  | .discarded _ => Halted log
  | _ => True

def AllProper : List Entry → Prop
  | [] => True
  | entry :: log => Proper log entry ∧ AllProper log

theorem AllProper.of_split {newer older : List Entry} {entry : Entry} (h : AllProper (newer ++ entry :: older)) :
    Proper older entry := by
  induction newer with
  | nil => exact h.1
  | cons first newer ih => exact ih h.2

/-! ## What the variables say of the log -/

structure LogKept (log : List Entry) (pendingBlocks : List Json) (commandQueue : List Command)
    (stoppedByUser aborted pendingStopTurn : Bool) (lastAssistantContent : Option String) (turn : Bool) : Prop where
  blocks : said log = settled log ++ pendingBlocks
  queue : queuedTurns log = leftQueue log ++ commandQueue.filter Command.isTurn
  isOpen : isOpen log = turn
  stopped : stopSince log = stoppedByUser
  aborted : abortSince log = aborted
  waits : stopWaits log = pendingStopTurn
  text : lastText log = lastAssistantContent
  proper : AllProper log

namespace LogKept

variable {log : List Entry} {blocks : List Json} {queue : List Command} {stopped aborted waits turn : Bool}
  {text : Option String}

theorem told (h : LogKept log blocks queue stopped aborted waits text turn) (event : Told) :
    LogKept (.told event :: log) blocks queue stopped aborted waits text turn :=
  ⟨h.blocks, h.queue, h.isOpen, h.stopped, h.aborted, h.waits, h.text, trivial, h.proper⟩

theorem steered (h : LogKept log blocks queue stopped aborted waits text turn) (parts : List Json) (sendable : Bool) :
    LogKept (.steered parts sendable :: log) blocks queue stopped aborted waits text turn :=
  ⟨h.blocks, h.queue, h.isOpen, h.stopped, h.aborted, h.waits, h.text, trivial, h.proper⟩

/-- An event brings its blocks. -/
theorem got (h : LogKept log blocks queue stopped aborted waits text turn) (event : SessionEvent) :
    LogKept (.got event :: log) (blocks ++ blocksOf event) queue stopped aborted waits (lastText (.got event :: log))
      turn where
  blocks := by
    show said log ++ blocksOf event = settled log ++ (blocks ++ blocksOf event)
    rw [h.blocks, List.append_assoc]
  queue := h.queue
  isOpen := h.isOpen
  stopped := h.stopped
  aborted := h.aborted
  waits := h.waits
  text := rfl
  proper := ⟨trivial, h.proper⟩

/-- **A part of what is buffered is put out**, the first part. -/
theorem put (first rest : List Json) (h : LogKept log (first ++ rest) queue stopped aborted waits text turn) :
    LogKept (.put first :: log) rest queue stopped aborted waits text turn where
  blocks := by
    show said log = settled log ++ first ++ rest
    rw [h.blocks, List.append_assoc]
  queue := h.queue
  isOpen := h.isOpen
  stopped := h.stopped
  aborted := h.aborted
  waits := h.waits
  text := h.text
  proper := ⟨trivial, h.proper⟩

theorem dropped (h : LogKept log blocks queue stopped aborted waits text turn) (hopened : JustOpened log) :
    LogKept (.dropped blocks :: log) [] queue stopped aborted waits text turn where
  blocks := by
    show said log = settled log ++ blocks ++ []
    rw [h.blocks, List.append_nil]
  queue := h.queue
  isOpen := h.isOpen
  stopped := h.stopped
  aborted := h.aborted
  waits := h.waits
  text := h.text
  proper := ⟨hopened, h.proper⟩

theorem queued (h : LogKept log blocks queue stopped aborted waits text turn) (command : Command) :
    LogKept (.queued command :: log) blocks (queue ++ [command]) stopped aborted waits text turn where
  blocks := h.blocks
  queue := by
    show queuedTurns log ++ [command].filter Command.isTurn =
      leftQueue log ++ (queue ++ [command]).filter Command.isTurn
    rw [h.queue, List.filter_append, List.append_assoc]
  isOpen := h.isOpen
  stopped := h.stopped
  aborted := h.aborted
  waits := h.waits
  text := h.text
  proper := ⟨trivial, h.proper⟩

theorem taken {command : Command} (h : LogKept log blocks (command :: queue) stopped aborted waits text turn) :
    LogKept (.taken command :: log) blocks queue stopped aborted waits text turn where
  blocks := h.blocks
  queue := by
    show queuedTurns log = leftQueue log ++ [command].filter Command.isTurn ++ queue.filter Command.isTurn
    rw [h.queue, List.append_assoc, ← List.filter_append]
    rfl
  isOpen := h.isOpen
  stopped := h.stopped
  aborted := h.aborted
  waits := h.waits
  text := h.text
  proper := ⟨trivial, h.proper⟩

/-- **Starts and prompts are discarded**; nothing of them is left in the queue. -/
theorem discarded (h : LogKept log blocks queue stopped aborted waits text turn) (hhalted : Halted log) :
    LogKept (.discarded (queue.filter Command.isTurn) :: log) blocks (queue.filter fun command => !command.isTurn)
      stopped aborted waits text turn where
  blocks := h.blocks
  queue := by
    have hnone : (queue.filter fun command => !command.isTurn).filter Command.isTurn = [] := by
      rw [List.filter_filter, List.filter_eq_nil_iff]
      intro command _
      cases command.isTurn <;> simp
    show queuedTurns log = leftQueue log ++ queue.filter Command.isTurn ++ _
    rw [hnone, List.append_nil, h.queue]
  isOpen := h.isOpen
  stopped := h.stopped
  aborted := h.aborted
  waits := h.waits
  text := h.text
  proper := ⟨hhalted, h.proper⟩

theorem cancel (h : LogKept log blocks queue stopped aborted waits text turn) :
    LogKept (.cancelled :: log) blocks queue stopped true waits text turn :=
  ⟨h.blocks, h.queue, h.isOpen, h.stopped, rfl, h.waits, h.text, trivial, h.proper⟩

theorem stop (h : LogKept log blocks queue stopped aborted waits text turn) :
    LogKept (.stopped :: log) blocks queue true true waits text turn :=
  ⟨h.blocks, h.queue, h.isOpen, rfl, rfl, h.waits, h.text, trivial, h.proper⟩

theorem stopKept (h : LogKept log blocks queue stopped aborted waits text turn) :
    LogKept (.stopKept :: log) blocks queue stopped aborted true text turn :=
  ⟨h.blocks, h.queue, h.isOpen, h.stopped, h.aborted, rfl, h.text, trivial, h.proper⟩

theorem shutDown (h : LogKept log blocks queue stopped aborted waits text turn) :
    LogKept (.shutDown :: log) blocks queue stopped aborted waits text turn :=
  ⟨h.blocks, h.queue, h.isOpen, h.stopped, h.aborted, h.waits, h.text, trivial, h.proper⟩

/-- **A turn begins**, stopped already if a stop waits for it. -/
theorem began (h : LogKept log blocks queue stopped aborted waits text false) (parts : List Json) :
    LogKept (.began parts :: log) blocks queue waits waits false none true :=
  ⟨h.blocks, h.queue, rfl, h.waits, h.waits, rfl, rfl, h.isOpen, h.proper⟩

theorem failed (h : LogKept log blocks queue stopped aborted waits text true) {error : String} (hbegun : JustBegun log)
    (herror : unsendableNow log = some error) :
    LogKept (.failed error :: log) blocks queue stopped aborted waits text false :=
  ⟨h.blocks, h.queue, rfl, h.stopped, h.aborted, h.waits, h.text, ⟨hbegun, herror⟩, h.proper⟩

theorem woken (h : LogKept log blocks queue stopped aborted waits text turn) (unsendable : Option String) :
    LogKept (.woken unsendable :: log) blocks queue stopped aborted waits text turn :=
  ⟨h.blocks, h.queue, h.isOpen, h.stopped, h.aborted, h.waits, h.text, trivial, h.proper⟩

theorem answered (h : LogKept log blocks queue stopped aborted waits text turn) (error unsendable : Option String) :
    LogKept (.answered error unsendable :: log) blocks queue stopped aborted waits text turn :=
  ⟨h.blocks, h.queue, h.isOpen, h.stopped, h.aborted, h.waits, h.text, trivial, h.proper⟩

theorem crashed (h : LogKept log blocks queue stopped aborted waits text true) {message : String}
    (hidle : idleOf log = .rejected message) :
    LogKept (.crashed :: log) blocks queue false aborted waits text false :=
  ⟨h.blocks, h.queue, rfl, rfl, h.aborted, h.waits, h.text, ⟨h.isOpen, message, hidle⟩, h.proper⟩

/-- **A turn ends** when nothing is buffered. -/
theorem ended (h : LogKept log [] queue stopped aborted waits text true) {fatalError : Option String}
    (hfatal : fatalSince log = fatalError) :
    LogKept (.ended (turnResult stopped aborted text fatalError) :: log) [] queue false false false text false where
  blocks := h.blocks
  queue := h.queue
  isOpen := rfl
  stopped := rfl
  aborted := rfl
  waits := rfl
  text := h.text
  proper := by
    refine ⟨⟨h.isOpen, ?_, ?_⟩, h.proper⟩
    · have hblocks := h.blocks
      rw [List.append_nil] at hblocks
      exact hblocks.symm
    · rw [h.stopped, h.aborted, h.text, hfatal]

end LogKept

/-! ## Where the main loop awaits -/

/-- It awaits the end of a turn. -/
def Awaiting.inTurn : Awaiting → Bool
  | .sending _ | .idling _ => true
  | _ => false

/-- It awaits something of a session. -/
def Awaiting.inSession : Awaiting → Bool
  | .sending _ | .idling _ | .prompts | .disconnecting => true
  | _ => false

/-- The promise awaited is the one of the events since the turn began, and the prompt has been accepted, or there is no
answer yet. -/
def Awaiting.Promised (log : List Entry) : Awaiting → Prop
  | .sending idle => idleOf log = idle ∧ sendAnswer log = none
  | .idling idle => idleOf log = idle ∧ sendAnswer log = some none
  | _ => True

theorem Awaiting.Promised.of_eq {awaiting : Awaiting} {log log' : List Entry} (h : awaiting.Promised log)
    (hidle : idleOf log' = idleOf log) (hsend : sendAnswer log' = sendAnswer log) : awaiting.Promised log' := by
  unfold Awaiting.Promised at *
  rw [hidle, hsend]
  exact h

namespace Script

/-- The variables say of the log what they should, in a turn or not. -/
def Logged (s : Script) (turn : Bool) : Prop :=
  LogKept s.log s.pendingBlocks s.commandQueue s.stoppedByUser s.aborted s.pendingStopTurn s.lastAssistantContent turn

def Promised (s : Script) : Prop := s.awaiting.Promised s.log

/-- The variables are those of the place where the main loop awaits. -/
structure Kept (s : Script) : Prop where
  logged : s.Logged s.awaiting.inTurn
  session : s.currentSession = s.awaiting.inSession
  state : s.awaiting.inSession = true → (s.turnState != .idle) = s.awaiting.inTurn
  rest : s.awaiting.inTurn = false → s.stoppedByUser = false
  promised : s.Promised

variable {s : Script} {turn : Bool}

theorem Logged.flush (h : s.Logged turn) :
    s.flushPendingBlocks.Logged turn ∧ s.flushPendingBlocks.pendingBlocks = [] := by
  unfold flushPendingBlocks
  split
  · rename_i hempty
    exact ⟨h, List.isEmpty_iff.mp hempty⟩
  · refine ⟨LogKept.put s.pendingBlocks [] ?_, rfl⟩
    rw [List.append_nil]
    exact h

/-- A flush changes what is buffered, and the log. -/
theorem flush_frame (s : Script) : ∃ log, s.flushPendingBlocks = { s with log := log, pendingBlocks := [] } := by
  unfold flushPendingBlocks
  split
  · rename_i hempty
    refine ⟨s.log, ?_⟩
    rw [← List.isEmpty_iff.mp hempty]
  · exact ⟨_, rfl⟩

theorem flush_promise (s : Script) : idleOf s.flushPendingBlocks.log = idleOf s.log ∧
    sendAnswer s.flushPendingBlocks.log = sendAnswer s.log := by
  unfold flushPendingBlocks
  split
  · exact ⟨rfl, rfl⟩
  · exact ⟨rfl, rfl⟩

/-- **A turn ends with its result.** -/
theorem Logged.emit (h : s.Logged true) {fatalError : Option String} (hfatal : fatalSince s.log = fatalError) :
    (s.emitTurnResult s.lastAssistantContent fatalError).Logged false := by
  obtain ⟨hflushed, hempty⟩ := h.flush
  have hsame : fatalSince s.flushPendingBlocks.log = fatalError := by
    obtain ⟨hidle, hsend⟩ := flush_promise s
    unfold fatalSince at hfatal ⊢
    rw [hidle, hsend]
    exact hfatal
  obtain ⟨log, hframe⟩ := flush_frame s
  unfold emitTurnResult
  dsimp only
  rw [hframe] at hflushed hsame ⊢
  have hended := LogKept.ended hflushed hsame
  cases hstopped : s.stoppedByUser with
  | false =>
      rw [hstopped] at hended
      exact hended
  | true =>
      rw [hstopped] at hended
      have hhalted : Halted (.ended (turnResult true s.aborted s.lastAssistantContent fatalError) :: log) := rfl
      exact hended.discarded hhalted

/-- What the end of a turn leaves alone. -/
theorem emit_frame (s : Script) (last fatalError : Option String) :
    ∃ log queue, s.emitTurnResult last fatalError = { s with
      log := log, commandQueue := queue, pendingBlocks := [], stoppedByUser := false, pendingStopTurn := false,
      aborted := false } := by
  obtain ⟨log, hframe⟩ := flush_frame s
  unfold emitTurnResult
  dsimp only
  rw [hframe]
  split
  · exact ⟨_, _, rfl⟩
  · exact ⟨_, _, rfl⟩

/-- **The end of a turn** of a session. -/
theorem Kept.endTurn (h : s.Logged true) (hsession : s.currentSession = true) {fatalError : Option String}
    (hfatal : fatalSince s.log = fatalError) : (s.endTurn fatalError).Kept := by
  have hended : (s.endTurn fatalError).Logged false :=
    Logged.emit (s := { s with turnState := .idle, awaiting := .prompts }) h hfatal
  obtain ⟨log, queue, hframe⟩ :=
    emit_frame { s with turnState := .idle, awaiting := .prompts } s.lastAssistantContent fatalError
  unfold Script.endTurn at hended ⊢
  rw [hframe] at hended ⊢
  exact ⟨hended, hsession, fun _ => rfl, fun _ => rfl, trivial⟩

theorem Kept.giveUp (h : s.Logged false) (hstopped : s.stoppedByUser = false) (error : Option String) :
    (s.giveUp error).Kept :=
  ⟨h, rfl, fun hnot => Bool.noConfusion hnot, fun _ => hstopped, trivial⟩

/-- **A turn**: it is stopped at once if a stop waits for it, it fails, or it is sent. -/
theorem Kept.runTurn (h : s.Logged false) (hsession : s.currentSession = true) (hstopped : s.stoppedByUser = false)
    (parts : List Json) {unsendable : Option String} (hnow : unsendableNow s.log = unsendable) :
    (s.runTurn parts unsendable).Kept := by
  have hbegan := LogKept.began h parts
  unfold Script.runTurn
  dsimp only
  cases hwaits : s.pendingStopTurn with
  | true =>
      -- the flags that it sets are the ones that the log calls for
      rw [hwaits] at hbegan
      exact Kept.endTurn (s := { s.note (.began parts) with
        aborted := true, stoppedByUser := true, pendingStopTurn := false, lastAssistantContent := none,
        turnState := .idle, awaiting := .prompts }) hbegan hsession rfl
  | false =>
      rw [hwaits] at hbegan
      rw [if_neg Bool.false_ne_true]
      have hlogged : LogKept (.began parts :: s.log) s.pendingBlocks s.commandQueue s.stoppedByUser false
          s.pendingStopTurn none true := by
        rw [hstopped, hwaits]
        exact hbegan
      cases unsendable with
      | some error =>
          apply Kept.giveUp
          · exact hlogged.failed trivial hnow
          · exact hstopped
      | none => exact ⟨hlogged, hsession, fun _ => rfl, fun hnot => Bool.noConfusion hnot, rfl, rfl⟩

theorem Kept.openSession (h : s.Logged false) (hstopped : s.stoppedByUser = false) (parts : List Json)
    {unsendable : Option String} (hnow : unsendableNow s.log = unsendable) : (s.openSession parts unsendable).Kept := by
  have htold := LogKept.told h .init
  unfold Script.openSession
  apply Kept.runTurn
  · exact htold.dropped trivial
  · rfl
  · exact hstopped
  · exact hnow

/-! ## The main loop -/

theorem Kept.finish (h : s.Logged false) (hsession : s.currentSession = false) (hstopped : s.stoppedByUser = false) :
    s.finish.Kept := by
  unfold Script.finish
  dsimp only
  split
  · exact ⟨LogKept.told h .shutdown, hsession, fun hnot => Bool.noConfusion hnot, fun _ => hstopped, trivial⟩
  · exact ⟨h, hsession, fun hnot => Bool.noConfusion hnot, fun _ => hstopped, trivial⟩

theorem Kept.afterSession (h : s.Logged false) (hsession : s.currentSession = false)
    (hstopped : s.stoppedByUser = false) (error : Option String) : (s.afterSession error).Kept := by
  unfold Script.afterSession
  cases error with
  | none =>
      dsimp only
      split
      · exact Kept.finish h hsession hstopped
      · exact ⟨h, hsession, fun hnot => Bool.noConfusion hnot, fun _ => hstopped, trivial⟩
  | some error =>
      have htold := LogKept.told h (.error error)
      dsimp only
      split
      · exact Kept.finish (s := s.tell (.error error)) htold hsession hstopped
      · exact ⟨htold, hsession, fun hnot => Bool.noConfusion hnot, fun _ => hstopped, trivial⟩

/-- **A command of the queue**, taken by the main loop or by the loop of a session. -/
theorem Kept.handleCommand (h : s.Kept) (command : Command) {unsendable : Option String}
    (hnow : unsendableNow s.log = unsendable) : (s.handleCommand command unsendable).Kept := by
  obtain ⟨hlogged, hsession, hstate, hrest, hpromised⟩ := h
  unfold Script.handleCommand
  split
  · rename_i hawaiting
    rw [hawaiting] at hlogged hsession hrest
    have hstopped := hrest rfl
    split
    · exact Kept.finish hlogged hsession hstopped
    · exact Kept.finish hlogged hsession hstopped
    · exact ⟨hlogged, hsession, fun hnot => Bool.noConfusion hnot, fun _ => hstopped, trivial⟩
    · exact ⟨by rw [hawaiting]; exact hlogged, by rw [hawaiting]; exact hsession, hstate, fun _ => hstopped, hpromised⟩
  · rename_i hawaiting
    have hidle := hstate
    rw [hawaiting] at hlogged hsession hrest hidle
    have hstopped := hrest rfl
    split
    · exact ⟨hlogged, hsession, hidle, fun _ => hstopped, trivial⟩
    · exact ⟨hlogged, hsession, hidle, fun _ => hstopped, trivial⟩
    · exact ⟨LogKept.told hlogged _, hsession, hidle, fun _ => hstopped, trivial⟩
    · exact Kept.runTurn hlogged hsession hstopped _ hnow
    · exact ⟨by rw [hawaiting]; exact hlogged, by rw [hawaiting]; exact hsession, hstate, fun _ => hstopped, hpromised⟩
  · exact ⟨hlogged, hsession, hstate, hrest, hpromised⟩

theorem Kept.wake (h : s.Kept) {unsendable : Option String} (hnow : unsendableNow s.log = unsendable) :
    (s.wake unsendable).Kept := by
  have htaken : ∀ command rest, s.commandQueue = command :: rest →
      Kept { s.note (.taken command) with commandQueue := rest } := by
    intro command rest hqueue
    have hlogged := h.logged
    unfold Logged at hlogged
    rw [hqueue] at hlogged
    exact ⟨hlogged.taken, h.session, h.state, h.rest, h.promised⟩
  unfold Script.wake
  split
  · rename_i hqueue
    exact (htaken _ _ hqueue).handleCommand _ hnow
  · rename_i hqueue
    exact (htaken _ _ hqueue).handleCommand _ hnow
  · exact h

/-- **What is awaited of the SDK.** -/
theorem Kept.settle (h : s.Kept) (error unsendable : Option String) :
    ((s.note (.answered error unsendable)).settle error unsendable).Kept := by
  obtain ⟨hlogged, hsession, hstate, hrest, hpromised⟩ := h
  have hanswered := LogKept.answered hlogged error unsendable
  unfold Promised Awaiting.Promised at hpromised
  unfold Script.settle
  split
  · rename_i hawaiting
    rw [show s.awaiting = _ from hawaiting] at hanswered hsession hrest
    cases error with
    | some error => exact Kept.afterSession (s := s.note _) hanswered hsession (hrest rfl) _
    | none => exact ⟨hanswered, hsession, fun hnot => Bool.noConfusion hnot, fun _ => hrest rfl, trivial⟩
  · rename_i hawaiting
    rw [show s.awaiting = _ from hawaiting] at hanswered hsession hrest
    cases error with
    | some error => exact Kept.giveUp (s := s.note _) hanswered (hrest rfl) _
    | none => exact Kept.openSession (s := s.note _) hanswered (hrest rfl) _ rfl
  · rename_i idle hawaiting
    rw [show s.awaiting = _ from hawaiting] at hanswered hsession hstate hpromised
    -- the answer to the prompt
    have hsent : sendAnswer (.answered error unsendable :: s.log) = some error := by
      rw [sendAnswer, hpromised.2, Option.none_or]
    cases error with
    | some error =>
        apply Kept.endTurn (s := s.note _) hanswered hsession
        unfold fatalSince
        rw [show sendAnswer (s.note _).log = _ from hsent]
        rfl
    | none =>
        exact ⟨hanswered.told .accepted, hsession, hstate, fun hnot => Bool.noConfusion hnot, hpromised.1, hsent⟩
  · rename_i hawaiting
    rw [show s.awaiting = _ from hawaiting] at hanswered hsession hpromised
    have hsent : sendAnswer (.answered error unsendable :: s.log) = some none := sendAnswer_later hpromised.2
    have hidle : idleOf (.answered error unsendable :: s.log) = _ := hpromised.1
    exact Kept.endTurn (s := s.note _) hanswered hsession (fatalSince_of hidle hsent)
  · rename_i message hawaiting
    rw [show s.awaiting = _ from hawaiting] at hanswered hsession hpromised
    have hsent : sendAnswer (.answered error unsendable :: s.log) = some none := sendAnswer_later hpromised.2
    have hidle : idleOf (.answered error unsendable :: s.log) = _ := hpromised.1
    exact Kept.endTurn (s := s.note _) hanswered hsession (fatalSince_of hidle hsent)
  · rename_i hawaiting
    rw [show s.awaiting = _ from hawaiting] at hanswered hrest
    exact Kept.giveUp (s := s.note _) hanswered (hrest rfl) none
  · rename_i hawaiting
    rw [show s.awaiting = _ from hawaiting] at hanswered hsession hrest
    exact Kept.afterSession (s := s.note _) hanswered hsession (hrest rfl) _
  · rename_i hsending _ _ _ _
    refine ⟨hanswered, hsession, hstate, hrest, ?_⟩
    show s.awaiting.Promised (.answered error unsendable :: s.log)
    unfold Awaiting.Promised
    split
    · rename_i idle hawaiting
      exact absurd hawaiting (hsending idle)
    · rename_i idle hawaiting
      rw [hawaiting] at hpromised
      exact ⟨hpromised.1, sendAnswer_later hpromised.2⟩
    · trivial

/-! ## Events and lines -/

theorem Kept.flush (h : s.Kept) : s.flushPendingBlocks.Kept := by
  have hflushed := h.logged.flush.1
  obtain ⟨log, hframe⟩ := flush_frame s
  have hpromise := flush_promise s
  rw [hframe] at hflushed hpromise ⊢
  exact ⟨hflushed, h.session, h.state, h.rest, h.promised.of_eq hpromise.1 hpromise.2⟩

theorem Kept.tell (h : s.Kept) (event : Told) : (s.tell event).Kept :=
  ⟨LogKept.told h.logged event, h.session, h.state, h.rest, h.promised⟩

/-- **An event that settles the promise**, if none has settled it before. -/
theorem Kept.settleIdle (h : s.Kept) {event : SessionEvent} {idle : IdlePromise}
    (hlogged : (s.note (.got event)).Logged s.awaiting.inTurn)
    (hfirst : idleOf s.log = .pending → idleOf (.got event :: s.log) = idle)
    (hlater : idleOf s.log ≠ .pending → idleOf (.got event :: s.log) = idleOf s.log)
    (hsend : sendAnswer (.got event :: s.log) = sendAnswer s.log) : ((s.note (.got event)).settleIdle idle).Kept := by
  obtain ⟨-, hsession, hstate, hrest, hpromised⟩ := h
  unfold Promised Awaiting.Promised at hpromised
  unfold Script.settleIdle
  split
  · rename_i hawaiting
    rw [show s.awaiting = .sending .pending from hawaiting] at hlogged hsession hstate hrest hpromised
    exact ⟨hlogged, hsession, hstate, hrest, hfirst hpromised.1, hsend.trans hpromised.2⟩
  · rename_i hawaiting
    rw [show s.awaiting = .idling .pending from hawaiting] at hlogged hsession hstate hrest hpromised
    exact ⟨hlogged, hsession, hstate, hrest, hfirst hpromised.1, hsend.trans hpromised.2⟩
  · rename_i hsending hidling
    refine ⟨hlogged, hsession, hstate, hrest, ?_⟩
    -- whatever it has been settled with stays
    have hkept : ∀ promise, s.awaiting = .sending promise ∨ s.awaiting = .idling promise → idleOf s.log = promise →
        idleOf (.got event :: s.log) = promise := by
      intro promise hawaiting hpromise
      have hsettled : idleOf s.log ≠ .pending := by
        intro hpending
        have hpromise : promise = .pending := hpromise.symm.trans hpending
        rw [hpromise] at hawaiting
        exact hawaiting.elim hsending hidling
      exact (hlater hsettled).trans hpromise
    show s.awaiting.Promised (.got event :: s.log)
    unfold Awaiting.Promised
    split
    · rename_i promise hawaiting
      rw [hawaiting] at hpromised
      exact ⟨hkept promise (.inl hawaiting) hpromised.1, hsend.trans hpromised.2⟩
    · rename_i promise hawaiting
      rw [hawaiting] at hpromised
      exact ⟨hkept promise (.inr hawaiting) hpromised.1, hsend.trans hpromised.2⟩
    · trivial

/-- **An event of the session.** -/
theorem Kept.handleEvent (h : s.Kept) (event : SessionEvent) : (s.handleEvent event).Kept := by
  have hgot := LogKept.got h.logged event
  -- an event without blocks leaves the variables as they are
  have hplain : blocksOf event = [] → lastText (.got event :: s.log) = lastText s.log →
      (s.note (.got event)).Logged s.awaiting.inTurn := by
    intro hnone htext
    rw [hnone, htext, List.append_nil, h.logged.text] at hgot
    exact hgot
  cases event with
  | message content =>
      apply Kept.flush
      exact ⟨hgot, h.session, h.state, h.rest, h.promised⟩
  | toolStart toolCallId toolName arguments =>
      have htext : lastText (.got (.toolStart toolCallId toolName arguments) :: s.log) = s.lastAssistantContent :=
        h.logged.text
      rw [htext] at hgot
      exact ⟨hgot, h.session, h.state, h.rest, h.promised⟩
  | toolComplete toolCallId success contents errorMessage content =>
      have htext : lastText (.got (.toolComplete toolCallId success contents errorMessage content) :: s.log) =
        s.lastAssistantContent := h.logged.text
      rw [htext] at hgot
      exact ⟨hgot, h.session, h.state, h.rest, h.promised⟩
  | reasoning content =>
      have hflushed : LogKept (s.note (.got (.reasoning content))).flushPendingBlocks.log [thinkingBlock content]
          s.commandQueue s.stoppedByUser s.aborted s.pendingStopTurn s.lastAssistantContent s.awaiting.inTurn := by
        have htext : lastText (.got (.reasoning content) :: s.log) = s.lastAssistantContent := h.logged.text
        rw [htext] at hgot
        -- what was buffered before is put out first, the thought behind it
        unfold flushPendingBlocks
        split
        · rename_i hempty
          have hempty : s.pendingBlocks = [] := List.isEmpty_iff.mp hempty
          rw [hempty] at hgot
          exact hgot
        · exact LogKept.put s.pendingBlocks [thinkingBlock content] hgot
      obtain ⟨log, hframe⟩ := flush_frame (s.note (.got (.reasoning content)))
      have hput := LogKept.put [thinkingBlock content] [] hflushed
      unfold Script.handleEvent
      dsimp only
      rw [hframe] at hput ⊢
      have hpromise := flush_promise (s.note (.got (.reasoning content)))
      rw [hframe] at hpromise
      exact ⟨hput, h.session, h.state, h.rest, h.promised.of_eq hpromise.1 hpromise.2⟩
  | reasoningDelta deltaContent =>
      have hnoted : (s.note (.got (.reasoningDelta deltaContent))).Kept :=
        ⟨hplain rfl rfl, h.session, h.state, h.rest, h.promised⟩
      have hflushed := hnoted.flush
      cases deltaContent with
      | some text => exact hflushed.tell _
      | none => exact hflushed
  | messageDelta deltaContent =>
      have hnoted : (s.note (.got (.messageDelta deltaContent))).Kept :=
        ⟨hplain rfl rfl, h.session, h.state, h.rest, h.promised⟩
      cases deltaContent with
      | some text => exact hnoted.tell _
      | none => exact hnoted
  | idle =>
      apply h.settleIdle
      · exact hplain rfl rfl
      · exact idleOf_idle_first
      · exact idleOf_idle_later
      · rfl
  | error errorType message =>
      unfold Script.handleEvent
      dsimp only
      split
      · rename_i hfatal
        apply h.settleIdle
        · exact hplain rfl rfl
        · exact idleOf_error_first hfatal
        · exact idleOf_error_later hfatal
        · rfl
      · rename_i hharmless
        exact ⟨hplain rfl rfl, h.session, h.state, h.rest, h.promised.of_eq (idleOf_error_harmless hharmless) rfl⟩

/-- A turn is active where the main loop awaits its end. -/
theorem Kept.isActive (h : s.Kept) : s.isActive = s.awaiting.inTurn := by
  unfold Script.isActive
  rw [h.session]
  cases hin : s.awaiting.inSession with
  | true =>
      rw [Bool.true_and]
      exact h.state hin
  | false =>
      rw [Bool.false_and]
      cases hawaiting : s.awaiting <;> rw [hawaiting] at hin <;> first
        | rfl
        | exact Bool.noConfusion hin

theorem Kept.enqueue (h : s.Kept) (command : Command) : (s.enqueue command).Kept :=
  ⟨LogKept.queued h.logged command, h.session, h.state, h.rest, h.promised⟩

/-- **A line.** -/
theorem Kept.handleLine (h : s.Kept) (line : Line) (sendable : Bool) : (s.handleLine line sendable).Kept := by
  have hactive := h.isActive
  unfold Script.handleLine
  split
  · split
    · exact ⟨LogKept.cancel h.logged, h.session, h.state, h.rest, h.promised⟩
    · apply Kept.enqueue
      exact ⟨(LogKept.shutDown h.logged).discarded trivial, h.session, h.state, h.rest, h.promised⟩
  · split
    · rename_i hyes
      rw [hactive] at hyes
      -- only a turn that is awaited can be stopped by the user
      refine ⟨(LogKept.stop h.logged).discarded trivial, h.session, h.state, fun hnot => ?_, h.promised⟩
      exact Bool.noConfusion (hyes.symm.trans hnot)
    split
    · exact ⟨LogKept.stopKept h.logged, h.session, h.state, h.rest, h.promised⟩
    · exact h
  · rename_i parts
    split
    · have hsteered : (s.note (.steered parts sendable)).Kept :=
        ⟨LogKept.steered h.logged parts sendable, h.session, h.state, h.rest, h.promised⟩
      dsimp only
      split
      · exact hsteered.tell .accepted
      · exact hsteered
    · exact h.enqueue _
  · exact h.enqueue _

/-! ## Runs -/

/-- **The process dies** of a fatal error while the prompt of the turn is being sent. -/
theorem Kept.crash (h : s.Kept) : s.crash.Kept := by
  have hpromised := h.promised
  have hlogged := h.logged
  unfold Script.crash
  split
  · rename_i message hawaiting
    unfold Promised Awaiting.Promised at hpromised
    rw [hawaiting] at hlogged hpromised
    exact ⟨hlogged.crashed hpromised.1, rfl, fun hnot => Bool.noConfusion hnot, fun _ => rfl, trivial⟩
  · exact h

theorem Kept.step (h : s.Kept) (input : Input) : (s.step input).Kept := by
  unfold Script.step
  split
  · exact h
  cases input with
  | line line sendable => exact h.handleLine line sendable
  | event event =>
      dsimp only
      split
      · exact h.handleEvent event
      · exact h
  | wake unsendable =>
      have hwoken : (s.note (.woken unsendable)).Kept :=
        ⟨LogKept.woken h.logged unsendable, h.session, h.state, h.rest, h.promised⟩
      exact hwoken.wake rfl
  | settle error unsendable => exact h.settle error unsendable
  | crash => exact h.crash

theorem kept_after (inputs : List Input) : (after inputs).Kept := by
  unfold after
  have hfresh : fresh.Kept := ⟨⟨rfl, rfl, rfl, rfl, rfl, rfl, rfl, trivial⟩, rfl, fun _ => rfl, fun _ => rfl, trivial⟩
  generalize fresh = s at hfresh
  induction inputs generalizing s with
  | nil => exact hfresh
  | cons input inputs ih =>
      rw [List.foldl_cons]
      apply ih
      exact hfresh.step input

end Script

/-- **Every turn that is sent has one result, behind all that it said.** Whatever lines, events and answers come in
while the main loop awaits: the blocks of the session are put out once and in order, and what has not been put out yet
is buffered; the starts and prompts that are queued are taken or discarded once and in order. A turn begins only when
none is open, and one is open just while the main loop awaits its end. A turn ends with nothing buffered, and with the
result that the stops, the cancels, the last message, the answer to its prompt and the promise since its beginning call
for; or it fails where it begins, when its attachments cannot be written, or the process dies of a fatal error. Blocks
are dropped only when a session is opened; starts and prompts are discarded only on a stop, on a cancel between turns,
and behind the result of a stopped turn. -/
theorem copilot_turns_kept (inputs : List Input) :
    said (Script.after inputs).log = settled (Script.after inputs).log ++ (Script.after inputs).pendingBlocks ∧
      queuedTurns (Script.after inputs).log =
        leftQueue (Script.after inputs).log ++ (Script.after inputs).commandQueue.filter Command.isTurn ∧
      isOpen (Script.after inputs).log = (Script.after inputs).awaiting.inTurn ∧
      ∀ newer entry older, (Script.after inputs).log = newer ++ entry :: older → Proper older entry := by
  have h := (kept_after inputs).logged
  refine ⟨h.blocks, h.queue, h.isOpen, fun newer entry older hlog => ?_⟩
  exact AllProper.of_split (hlog ▸ h.proper)

end Executors.Copilot
end AgentBeacon
