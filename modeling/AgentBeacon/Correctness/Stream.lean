import AgentBeacon.Correctness.Paging
import AgentBeacon.Events.Stream

/-!
# `Correctness.Stream` — stream and history join without a gap

What a stream has sent is always the decodable rows between its position and the last id it has
passed. Writers only append to an execution's rows, so neither a write between two reads nor a
wake-up for a row already sent changes that; and the pages below the position are those rows of the
log that the stream leaves out.
-/

namespace AgentBeacon
open Keyset

/-! ## Up to the first terminal event -/

/-- The events up to and with the first terminal one. -/
def upToTerminal : List EventRow → List EventRow
  | [] => []
  | e :: rest => if isTerminalEvent e then [e] else e :: upToTerminal rest

/-- No event is terminal. -/
def NoTerminal (events : List EventRow) : Prop := ∀ e ∈ events, isTerminalEvent e = false

theorem upToTerminal_of_noTerminal {events : List EventRow} (h : NoTerminal events) :
    upToTerminal events = events := by
  induction events with
  | nil => rfl
  | cons e rest ih =>
      have hhead : isTerminalEvent e = false := h e List.mem_cons_self
      have hrest : NoTerminal rest := fun a ha => h a (List.mem_cons_of_mem _ ha)
      rw [upToTerminal, hhead, if_neg Bool.false_ne_true, ih hrest]

theorem upToTerminal_append {events rest : List EventRow} (h : NoTerminal events) :
    upToTerminal (events ++ rest) = events ++ upToTerminal rest := by
  induction events with
  | nil => rfl
  | cons e events ih =>
      have hhead : isTerminalEvent e = false := h e List.mem_cons_self
      have hrest : NoTerminal events := fun a ha => h a (List.mem_cons_of_mem _ ha)
      rw [List.cons_append, upToTerminal, hhead, if_neg Bool.false_ne_true, ih hrest,
        List.cons_append]

/-- Once there is a terminal event, what follows does not matter. -/
theorem upToTerminal_append_of_terminal {events rest : List EventRow} (h : ¬NoTerminal events) :
    upToTerminal (events ++ rest) = upToTerminal events := by
  induction events with
  | nil => exact absurd (fun _ he => nomatch he) h
  | cons e events ih =>
      rw [List.cons_append, upToTerminal, upToTerminal]
      by_cases he : isTerminalEvent e = true
      · rw [if_pos he, if_pos he]
      · rw [if_neg he, if_neg he, ih]
        intro hno
        refine h fun a ha => ?_
        rcases List.mem_cons.mp ha with rfl | ha
        · simpa using he
        · exact hno a ha

theorem upToTerminal_mono {events events' : List EventRow} (h : events <+: events') :
    upToTerminal events <+: upToTerminal events' := by
  obtain ⟨rest, rfl⟩ := h
  by_cases hno : NoTerminal events
  · rw [upToTerminal_append hno, upToTerminal_of_noTerminal hno]
    exact List.prefix_append _ _
  · rw [upToTerminal_append_of_terminal hno]

/-- A terminal event can only be the last of them. -/
theorem eq_of_prefix_upToTerminal {sent events : List EventRow} (h : sent <+: upToTerminal events)
    (hterminal : ¬NoTerminal sent) : sent = upToTerminal events := by
  induction events generalizing sent with
  | nil => exact List.prefix_nil.mp h
  | cons e rest ih =>
      cases sent with
      | nil => exact absurd (fun _ he => (nomatch he)) hterminal
      | cons a sent =>
          unfold upToTerminal at h ⊢
          by_cases he : isTerminalEvent e = true
          · rw [if_pos he] at h ⊢
            obtain ⟨rfl, hnil⟩ := List.cons_prefix_cons.mp h
            rw [List.prefix_nil.mp hnil]
          · rw [if_neg he] at h ⊢
            obtain ⟨rfl, hrest⟩ := List.cons_prefix_cons.mp h
            rw [ih hrest]
            intro hno
            refine hterminal fun b hb => ?_
            rcases List.mem_cons.mp hb with rfl | hb
            · simpa using he
            · exact hno b hb

/-- **The loop over a batch sends it up to its first terminal event.** -/
theorem deliver_spec (events : List EventRow) (last : Nat) :
    (deliver last events).1 = upToTerminal events ∧
      ((deliver last events).2.2 = false ↔ NoTerminal events) ∧
      ((deliver last events).2.1 = last ∨ ∃ e ∈ events, (deliver last events).2.1 = e.id) := by
  induction events generalizing last with
  | nil => exact ⟨rfl, ⟨fun _ _ he => (nomatch he), fun _ => rfl⟩, .inl rfl⟩
  | cons e rest ih =>
      obtain ⟨hsent, hended, hlast⟩ := ih e.id
      unfold deliver upToTerminal
      by_cases he : isTerminalEvent e = true
      · rw [if_pos he, if_pos he]
        refine ⟨rfl, ⟨fun h => (nomatch h), fun h => ?_⟩, .inr ⟨e, List.mem_cons_self, rfl⟩⟩
        rw [h e List.mem_cons_self] at he
        cases he
      · rw [if_neg he, if_neg he]
        have hiff : NoTerminal rest ↔ NoTerminal (e :: rest) := by
          constructor
          · intro h a ha
            rcases List.mem_cons.mp ha with rfl | ha
            · simpa using he
            · exact h a ha
          · intro h a ha
            exact h a (List.mem_cons_of_mem _ ha)
        refine ⟨congrArg (e :: ·) hsent, hended.trans hiff, ?_⟩
        rcases hlast with hlast | ⟨a, ha, hlast⟩
        · exact .inr ⟨e, List.mem_cons_self, hlast⟩
        · exact .inr ⟨a, List.mem_cons_of_mem _ ha, hlast⟩

/-! ## The rows above an id -/

namespace EventLog

variable {log log' : EventLog} {executionId : ExecutionId}

/-- The decodable rows of an execution above an id. -/
def above (log : EventLog) (executionId : ExecutionId) (id : Nat) : List EventRow :=
  decoded (log.windowAfter (.execution executionId) id)

theorem windowAfter_eq (log : EventLog) (scope : Scope) (id : Nat) :
    log.windowAfter scope id = Keyset.above StoredEvent.id id (log.of scope) := by
  unfold windowAfter Keyset.above
  refine List.filter_congr fun row _ => ?_
  simp

theorem Extends.trans {log'' : EventLog} (h : log.Extends log') (h' : log'.Extends log'') :
    log.Extends log'' := fun x => (h x).trans (h' x)

theorem Extends.windowAfter (h : log.Extends log') (executionId : ExecutionId) (id : Nat) :
    log.windowAfter (.execution executionId) id <+: log'.windowAfter (.execution executionId) id :=
  (h executionId).filter _

theorem Extends.above (h : log.Extends log') (executionId : ExecutionId) (id : Nat) :
    log.above executionId id <+: log'.above executionId id :=
  (h.windowAfter executionId id).filterMap _

end EventLog

/-! ## The invariant of a stream -/

/-- The rows that the next read scans. -/
def Stream.nextPage (s : Stream) (log : EventLog) : List StoredEvent :=
  (log.windowAfter (.execution s.executionId) s.lastSentId).take eventsMaxPage.toNat

/-- How a stream with position `P` stands to the log. -/
inductive Caught (P : Nat) (log : EventLog) (s : Stream) : Prop where
  /-- It is open, and has sent what is decodable of the rows from its position to the last id. -/
  | live (scanned : List StoredEvent) (hphase : s.phase ≠ .closed)
      (hscanned : log.windowAfter (.execution s.executionId) P =
        scanned ++ log.windowAfter (.execution s.executionId) s.lastSentId)
      (hsent : s.streamed = decoded scanned) (hno : NoTerminal (decoded scanned))
      (hlast : s.lastSentId = P ∨
        P ≤ s.lastSentId ∧ ∃ row ∈ log.of (.execution s.executionId), row.id = s.lastSentId)
  /-- A terminal event has ended it. -/
  | ended (hphase : s.phase = .closed) (hterminal : ¬NoTerminal (log.above s.executionId P))
      (hsent : s.streamed = upToTerminal (log.above s.executionId P))
  /-- It has been closed early. -/
  | cut (hphase : s.phase = .closed)
      (hsent : s.streamed <+: upToTerminal (log.above s.executionId P))

namespace Caught

variable {P : Nat} {log log' : EventLog} {s : Stream}

/-- **What has been sent is a prefix of what is to be sent.** -/
theorem sent_prefix (h : Caught P log s) :
    s.streamed <+: upToTerminal (log.above s.executionId P) := by
  cases h with
  | live scanned hphase hscanned hsent hno hlast =>
      rw [EventLog.above, hscanned, decoded_append, upToTerminal_append hno, hsent]
      exact List.prefix_append _ _
  | ended hphase hterminal hsent => rw [hsent]
  | cut hphase hsent => exact hsent

/-- A stream that is closed in between has sent a prefix. -/
theorem close (h : Caught P log s) {s' : Stream} (hid : s'.executionId = s.executionId)
    (hphase : s'.phase = .closed) (hsent : s'.streamed = s.streamed) : Caught P log s' := by
  refine .cut hphase ?_
  rw [hsent, hid]
  exact h.sent_prefix

/-- Waking a stream sends no stored event. -/
theorem wake (h : Caught P log s) (hopen : s.phase ≠ .closed) {s' : Stream}
    (hid : s'.executionId = s.executionId) (hlast' : s'.lastSentId = s.lastSentId)
    (hphase : s'.phase ≠ .closed) (hsent' : s'.streamed = s.streamed) : Caught P log s' := by
  cases h with
  | live scanned _ hscanned hsent hno hlast =>
      refine .live scanned hphase ?_ (hsent'.trans hsent) hno ?_
      · rw [hid, hlast']
        exact hscanned
      · rw [hid, hlast']
        exact hlast
  | ended hclosed => exact absurd hclosed hopen
  | cut hclosed => exact absurd hclosed hopen

/-- **Writes between two reads change nothing of what has been sent.** -/
theorem write (h : Caught P log s) (hext : log.Extends log') : Caught P log' s := by
  cases h with
  | live scanned hphase hscanned hsent hno hlast =>
      refine .live scanned hphase ?_ hsent hno ?_
      · -- what is appended lies above the last id passed, so above the position as well
        rcases hlast with hlast | ⟨hle, row, hrow, hid⟩
        · have hnil : scanned = [] := by
            rw [hlast] at hscanned
            exact List.self_eq_append_left.mp hscanned
          rw [hnil, hlast, List.nil_append]
        · obtain ⟨more, hmore⟩ := hext s.executionId
          have hasc := log'.of_ascending (.execution s.executionId)
          rw [← hmore] at hasc
          rw [EventLog.windowAfter_eq, EventLog.windowAfter_eq] at hscanned ⊢
          rw [← hmore, above_append hasc hrow (hid ▸ hle), above_append hasc hrow (le_of_eq hid.symm),
            hscanned, List.append_assoc]
      · rcases hlast with hlast | ⟨hle, row, hrow, hid⟩
        · exact .inl hlast
        · exact .inr ⟨hle, row, (hext s.executionId).subset hrow, hid⟩
  | ended hphase hterminal hsent =>
      obtain ⟨more, hmore⟩ := hext.above s.executionId P
      refine .ended hphase (fun hno => hterminal fun e he => hno e ?_) ?_
      · rw [← hmore]
        exact List.mem_append_left _ he
      · rw [hsent, ← hmore, upToTerminal_append_of_terminal hterminal]
  | cut hphase hsent =>
      exact .cut hphase (hsent.trans (upToTerminal_mono (hext.above s.executionId P)))

theorem streamed_append (s : Stream) (events : List EventRow) :
    (s.sent ++ events.map Frame.event).filterMap Frame.stored = s.streamed ++ events := by
  have hevents : (events.map Frame.event).filterMap Frame.stored = events := by
    rw [List.filterMap_map]
    exact List.filterMap_some
  rw [List.filterMap_append, hevents]
  rfl

/-- The highest id of an ascending batch is that of its last row. -/
theorem highestId_append {rows : List StoredEvent} {row : StoredEvent}
    (h : Ascending StoredEvent.id (rows ++ [row])) :
    (collectScan (rows ++ [row])).highestId = some row.id := by
  show ((rows ++ [row]).map StoredEvent.id).max? = some row.id
  rw [List.max?_eq_some_iff]
  refine ⟨by simp, fun id hid => ?_⟩
  obtain ⟨a, ha, rfl⟩ := List.mem_map.mp hid
  rcases List.mem_append.mp ha with ha | ha
  · exact le_of_lt ((List.pairwise_append.mp h).2.2 a ha row (List.mem_singleton_self _))
  · rw [List.mem_singleton.mp ha]

/-- The window of an id and the page the inner loop reads of it. -/
theorem passed {scope : Scope} {last passedId n : Nat} (hn : 0 < n)
    (hlast : passedId = last ∨ ∃ e ∈ decoded ((log.windowAfter scope last).take n), passedId = e.id) :
    let highest := (collectScan ((log.windowAfter scope last).take n)).highestId
    let next := max passedId (highest.getD passedId)
    log.windowAfter scope next = (log.windowAfter scope last).drop n ∧
      (next = last ∨ last ≤ next ∧ ∃ row ∈ log.of scope, row.id = next) := by
  intro highest next
  have hasc := log.windowAfter_ascending scope last
  rcases List.eq_nil_or_concat ((log.windowAfter scope last).take n) with hnil | ⟨front, row, hpage⟩
  · -- an empty page is an empty window
    have hwindow : log.windowAfter scope last = [] := by
      rcases List.take_eq_nil_iff.mp hnil with h0 | h
      · omega
      · exact h
    have hsame : passedId = last := by
      rcases hlast with h | ⟨e, he, -⟩
      · exact h
      · rw [hnil] at he
        cases he
    have hnext : next = last := by
      show max passedId ((collectScan _).highestId.getD passedId) = last
      rw [hnil, hsame]
      exact max_self last
    rw [hnext, hwindow]
    exact ⟨List.drop_nil.symm, .inl rfl⟩
  · rw [List.concat_eq_append] at hpage
    have hsplit : log.windowAfter scope last = front ++ row :: (log.windowAfter scope last).drop n := by
      rw [List.append_cons, ← hpage, List.take_append_drop]
    have hrow : row ∈ log.windowAfter scope last := by
      rw [hsplit]
      simp
    have hascPage : Ascending StoredEvent.id (front ++ [row]) := by
      rw [← hpage]
      exact hasc.sublist (List.take_sublist _ _)
    have hmem := List.mem_filter.mp hrow
    have hlt : last < row.id := Int.ofNat_lt.mp (of_decide_eq_true hmem.2)
    have hle : passedId ≤ row.id := by
      rcases hlast with h | ⟨e, he, h⟩
      · omega
      · have hstored := mem_decoded.mp he
        rw [hpage] at hstored
        rw [h]
        rcases List.mem_append.mp hstored with hfront | hself
        · exact le_of_lt ((List.pairwise_append.mp hascPage).2.2 _ hfront row (List.mem_singleton_self _))
        · exact le_of_eq (congrArg StoredEvent.id (List.mem_singleton.mp hself))
    have hnext : next = row.id := by
      show max passedId ((collectScan _).highestId.getD passedId) = row.id
      rw [hpage, highestId_append hascPage]
      exact max_eq_right hle
    rw [hnext]
    exact ⟨EventLog.windowAfter_of_split hsplit, .inr ⟨by omega, row, hmem.1, rfl⟩⟩

/-- What is decodable of a log above the position: what has been passed, and what is above that. -/
theorem above_split {scanned rest : List StoredEvent} {x : ExecutionId}
    (h : log.windowAfter (.execution x) P = scanned ++ rest) :
    log.above x P = decoded scanned ++ decoded rest := by
  rw [EventLog.above, h, decoded_append]

/-- A read adds to what has been sent. -/
theorem read_sent (s : Stream) (log : EventLog) : ∃ more, (s.read log).sent = s.sent ++ more := by
  refine ⟨(deliver s.lastSentId (decoded (s.nextPage log))).1.map Frame.event, ?_⟩
  show (if (deliver s.lastSentId (decoded (s.nextPage log))).2.2 = true then _ else _ : Stream).sent = _
  split <;> rfl

/-- A page with a terminal event ends the stream there. -/
theorem read_ended (h : ¬NoTerminal (decoded (s.nextPage log))) :
    (s.read log).phase = .closed ∧ (s.read log).executionId = s.executionId ∧
      (s.read log).streamed = s.streamed ++ upToTerminal (decoded (s.nextPage log)) := by
  obtain ⟨hdelivered, hended, -⟩ := deliver_spec (decoded (s.nextPage log)) s.lastSentId
  have htrue : (deliver s.lastSentId (decoded (s.nextPage log))).2.2 = true := by
    by_contra hfalse
    exact h (hended.mp (by simpa using hfalse))
  have hread : s.read log = { s with
      lastSentId := (deliver s.lastSentId (decoded (s.nextPage log))).2.1
      phase := .closed
      sent := s.sent ++ (deliver s.lastSentId (decoded (s.nextPage log))).1.map Frame.event } := by
    show (if (deliver s.lastSentId (decoded (s.nextPage log))).2.2 = true then _ else _) = _
    rw [if_pos htrue]
    rfl
  rw [hread]
  refine ⟨rfl, rfl, ?_⟩
  rw [← hdelivered]
  exact streamed_append s _

/-- A page without one is sent whole, and the stream goes on above its last row. -/
theorem read_passed (h : NoTerminal (decoded (s.nextPage log))) :
    (s.read log).executionId = s.executionId ∧
      (s.read log).streamed = s.streamed ++ decoded (s.nextPage log) ∧
      (s.read log).phase =
        (if (s.nextPage log).length < eventsMaxPage.toNat then .waiting else .reading) ∧
      log.windowAfter (.execution s.executionId) (s.read log).lastSentId =
        (log.windowAfter (.execution s.executionId) s.lastSentId).drop eventsMaxPage.toNat ∧
      ((s.read log).lastSentId = s.lastSentId ∨ s.lastSentId ≤ (s.read log).lastSentId ∧
        ∃ row ∈ log.of (.execution s.executionId), row.id = (s.read log).lastSentId) := by
  obtain ⟨hdelivered, hended, hpassed⟩ := deliver_spec (decoded (s.nextPage log)) s.lastSentId
  have hread : s.read log = { s with
      lastSentId := max (deliver s.lastSentId (decoded (s.nextPage log))).2.1
        ((collectScan (s.nextPage log)).highestId.getD (deliver s.lastSentId (decoded (s.nextPage log))).2.1)
      phase := if ((s.nextPage log).map StoredEvent.id).length < eventsMaxPage.toNat then .waiting
        else .reading
      sent := s.sent ++ (deliver s.lastSentId (decoded (s.nextPage log))).1.map Frame.event } := by
    show (if (deliver s.lastSentId (decoded (s.nextPage log))).2.2 = true then _ else _) = _
    rw [hended.mpr h, if_neg Bool.false_ne_true]
    rfl
  rw [hread]
  refine ⟨rfl, ?_, ?_, passed (by decide) hpassed⟩
  · have hall := hdelivered.trans (upToTerminal_of_noTerminal h)
    exact (streamed_append s _).trans (congrArg (s.streamed ++ ·) hall)
  · rw [List.length_map]

theorem read_executionId : (s.read log).executionId = s.executionId := by
  by_cases h : NoTerminal (decoded (s.nextPage log))
  · exact (read_passed h).1
  · exact (read_ended h).2.1

/-- **One page of the inner loop.** The stream stays caught up; when it leaves the loop, it has sent
everything there is to send; when it does not, it has passed the rows of a whole page. -/
theorem read (h : Caught P log s) (hreading : s.phase = .reading) : Caught P log (s.read log) ∧
    ((s.read log).phase ≠ .reading →
      (s.read log).streamed = upToTerminal (log.above s.executionId P)) ∧
    ((s.read log).phase = .reading →
      (log.windowAfter (.execution s.executionId) (s.read log).lastSentId).length <
        (log.windowAfter (.execution s.executionId) s.lastSentId).length) := by
  cases h with
  | ended hclosed => exact absurd (hreading.symm.trans hclosed) (by decide)
  | cut hclosed => exact absurd (hreading.symm.trans hclosed) (by decide)
  | live scanned hphase hscanned hsent hno hlast =>
      have hsplit := List.take_append_drop eventsMaxPage.toNat
        (log.windowAfter (.execution s.executionId) s.lastSentId)
      have habove : log.above s.executionId P =
          decoded scanned ++ (decoded (s.nextPage log) ++ decoded
            ((log.windowAfter (.execution s.executionId) s.lastSentId).drop eventsMaxPage.toNat)) := by
        rw [← decoded_append, Stream.nextPage, hsplit]
        exact above_split hscanned
      by_cases hpage : NoTerminal (decoded (s.nextPage log))
      · obtain ⟨hid, hstreamed, hphase', hrest, hnext⟩ := read_passed hpage
        have hboth : NoTerminal (decoded (scanned ++ s.nextPage log)) := by
          rw [decoded_append]
          intro e he
          exact (List.mem_append.mp he).elim (hno e) (hpage e)
        have hsent' : (s.read log).streamed = decoded (scanned ++ s.nextPage log) := by
          rw [hstreamed, hsent, decoded_append]
        refine ⟨.live (scanned ++ s.nextPage log) ?_ ?_ hsent' hboth ?_, ?_, ?_⟩
        · rw [hphase']
          split <;> exact nofun
        · rw [hid, hscanned, hrest, List.append_assoc, Stream.nextPage, hsplit]
        · rw [hid]
          rcases hnext with hsame | ⟨hle, hrow⟩
          · rw [hsame]
            exact hlast
          · refine .inr ⟨?_, hrow⟩
            rcases hlast with hlast | ⟨hP, -⟩
            · omega
            · omega
        · intro hleft
          -- a short page is the last one
          have hshort : (s.nextPage log).length < eventsMaxPage.toNat := by
            by_contra hfull
            rw [hphase', if_neg hfull] at hleft
            exact hleft rfl
          have hnone : (log.windowAfter (.execution s.executionId) s.lastSentId).drop
              eventsMaxPage.toNat = [] := by
            rw [Stream.nextPage, List.length_take] at hshort
            rw [List.drop_eq_nil_iff]
            omega
          rw [habove, hnone, show decoded [] = [] from rfl, List.append_nil, ← decoded_append,
            upToTerminal_of_noTerminal hboth, hsent']
        · intro hstay
          have hfull : ¬(s.nextPage log).length < eventsMaxPage.toNat := by
            intro hshort
            rw [hphase', if_pos hshort] at hstay
            cases hstay
          have hpos : 0 < eventsMaxPage.toNat := by decide
          rw [Stream.nextPage, List.length_take] at hfull
          rw [hrest, List.length_drop]
          omega
      · obtain ⟨hclosed, hid, hstreamed⟩ := read_ended hpage
        have hterminal : ¬NoTerminal (log.above s.executionId P) := by
          intro hall
          refine hpage fun e he => hall e ?_
          rw [habove]
          exact List.mem_append_right _ (List.mem_append_left _ he)
        have hall : (s.read log).streamed = upToTerminal (log.above s.executionId P) := by
          rw [habove, upToTerminal_append hno, upToTerminal_append_of_terminal hpage, hstreamed, hsent]
        refine ⟨.ended hclosed (hid ▸ hterminal) (hid ▸ hall), fun _ => hall, fun hstay => ?_⟩
        rw [hclosed] at hstay
        cases hstay

/-- **A stream keeps caught up** with whatever is written, whenever it is woken and whenever it reads. -/
theorem of_run {log₀ : EventLog} {x : ExecutionId} {now : EventLog × Stream}
    (h : StreamRun log₀ x now) :
    now.2.executionId = x ∧ Caught ((log₀.maxIdForExecution x).getD 0) now.1 now.2 := by
  induction h with
  | opened =>
      refine ⟨rfl, .live [] nofun rfl rfl (fun _ he => (nomatch he)) (.inl rfl)⟩
  | step h hs ih =>
      obtain ⟨hid, hcaught⟩ := ih
      cases hs with
      | write hext => exact ⟨hid, hcaught.write hext⟩
      | @notified log s notification hphase =>
          have hopen : s.phase ≠ .closed := fun hc => by simp [hphase] at hc
          by_cases hother : notification.executionId ≠ s.executionId
          · have hsame : s.notify notification = s := if_pos hother
            rw [hsame]
            exact ⟨hid, hcaught⟩
          · have hwoken : s.notify notification = { s with
                phase := .reading
                sent := s.sent ++ (notification.ephemeral.map Frame.ephemeral).toList } := if_neg hother
            rw [hwoken]
            refine ⟨hid, hcaught.wake hopen rfl rfl nofun ?_⟩
            show List.filterMap _ (s.sent ++ _) = _
            rw [List.filterMap_append]
            cases notification.ephemeral with
            | none => exact List.append_nil _
            | some payload => exact List.append_nil _
      | tick hphase =>
          exact ⟨hid, hcaught.wake (fun hc => by simp [hphase] at hc) rfl rfl nofun rfl⟩
      | hangUp hphase => exact ⟨hid, hcaught.close rfl rfl rfl⟩
      | @read log s hphase =>
          exact ⟨read_executionId.trans hid, (hcaught.read hphase).1⟩
      | @readFailed log s hphase =>
          refine ⟨hid, hcaught.close rfl rfl ?_⟩
          show List.filterMap _ (s.sent ++ [.protocolError]) = _
          rw [List.filterMap_append]
          exact List.append_nil _

/-- **The inner loop ends** on any log, with everything sent. -/
theorem reads_out (h : Caught P log s) (hreading : s.phase = .reading) :
    ∃ n, (((·.read log)^[n]) s).phase ≠ .reading ∧
      (((·.read log)^[n]) s).streamed = upToTerminal (log.above s.executionId P) := by
  generalize hlen : (log.windowAfter (.execution s.executionId) s.lastSentId).length = len
  induction len using Nat.strong_induction_on generalizing s with
  | _ len ih =>
      obtain ⟨hcaught, hleft, hstay⟩ := h.read hreading
      have hid : (s.read log).executionId = s.executionId := read_executionId
      by_cases hphase : (s.read log).phase = .reading
      · have hlt := hstay hphase
        rw [hlen, ← hid] at hlt
        obtain ⟨n, hn, hsent⟩ := ih _ hlt hcaught hphase rfl
        exact ⟨n + 1, hn, hsent.trans (by rw [hid])⟩
      · exact ⟨1, hphase, hleft hphase⟩

/-- A terminal event that has been sent is the last thing sent. -/
theorem terminal_sent (h : Caught P log s) (hterminal : ¬NoTerminal s.streamed) :
    s.phase = .closed ∧ s.streamed = upToTerminal (log.above s.executionId P) := by
  have hall := eq_of_prefix_upToTerminal h.sent_prefix hterminal
  cases h with
  | live scanned _ _ hsent hno => exact absurd (hsent ▸ hno) hterminal
  | ended hphase => exact ⟨hphase, hall⟩
  | cut hphase => exact ⟨hphase, hall⟩

end Caught

/-! ## The pages below the position -/

section History

variable {ν : Type} {render : EventRow → ν} {log log' : EventLog} {x : ExecutionId}
variable {query : EventPageQuery} {limit : Int}

/-- A page backwards depends on its window alone. -/
theorem page_before_congr {scope : Scope} {cursor : Option Int}
    (h : query.resolve = .ok (.before cursor, limit))
    (hwindow : log'.windowBefore scope cursor = log.windowBefore scope cursor) :
    log'.page render scope query = log.page render scope query := by
  unfold EventLog.page
  rw [h]
  show Except.ok _ = Except.ok _
  rw [EventLog.scan, EventLog.scan, EventLog.listBefore, EventLog.listBefore, hwindow]

/-- What is written later does not show below a cursor within the log. -/
theorem windowBefore_extends (hext : log.Extends log') {row : StoredEvent}
    (hrow : row ∈ log.of (.execution x)) {cursor : Int} (hcursor : cursor ≤ row.id + 1) :
    log'.windowBefore (.execution x) (some cursor) = log.windowBefore (.execution x) (some cursor) := by
  obtain ⟨more, hmore⟩ := hext x
  have hasc := log'.of_ascending (.execution x)
  rw [← hmore] at hasc
  have hnone : more.filter (fun row => decide ((row.id : Int) < cursor)) = [] := by
    rw [List.filter_eq_nil_iff]
    intro b hb hlt
    have hgt : row.id < b.id := (List.pairwise_append.mp hasc).2.2 row hrow b hb
    have hbelow : (b.id : Int) < cursor := of_decide_eq_true hlt
    omega
  show (log'.of (.execution x)).filter _ = (log.of (.execution x)).filter _
  rw [← hmore, List.filter_append, hnone, List.append_nil]

/-- **Pages below a position do not see the log grow.** -/
theorem walk_of_growing {pages : List (PageV1 ν)}
    (hwalk : GrowingWalk render log (.execution x) query pages) {row : StoredEvent}
    (hrow : row ∈ log.of (.execution x)) {cursor : Int}
    (h : query.resolve = .ok (.before (some cursor), limit)) (hcursor : cursor ≤ row.id + 1) :
    Walk render log (.execution x) query pages := by
  induction hwalk generalizing cursor with
  | last hgrown hpage hend =>
      rw [page_before_congr h (windowBefore_extends hgrown hrow hcursor)] at hpage
      exact .last hpage hend
  | more hgrown hpage hmore hnext _ ih =>
      rw [page_before_congr h (windowBefore_extends hgrown hrow hcursor)] at hpage
      obtain ⟨next, hmem, hid, hresolve, -⟩ := (page_eq_ok h hpage).next hmore
      obtain rfl := Option.some.inj (hnext.symm.trans hid)
      have hlt : (next.id : Int) < cursor :=
        of_decide_eq_true (List.mem_filter.mp (List.mem_reverse.mp hmem)).2
      exact .more hpage hmore hnext (ih hresolve (by omega))

/-- A request whose page was served was accepted. -/
theorem resolve_of_page {scope : Scope} {page : PageV1 ν}
    (h : log.page render scope query = .ok page) :
    ∃ window limit, query.resolve = .ok (window, limit) := by
  unfold EventLog.page at h
  cases hresolve : query.resolve with
  | error e =>
      rw [hresolve] at h
      cases h
  | ok asked => exact ⟨asked.1, asked.2, rfl⟩

theorem resolve_of_growing {scope : Scope} {pages : List (PageV1 ν)}
    (h : GrowingWalk render log scope query pages) :
    ∃ window limit, query.resolve = .ok (window, limit) := by
  cases h with
  | last _ hpage => exact resolve_of_page hpage
  | more _ hpage => exact resolve_of_page hpage

/-- The highest id of an execution, and that there is none. -/
theorem maxId_some {P : Nat} (h : log.maxIdForExecution x = some P) :
    (∃ row ∈ log.of (.execution x), row.id = P) ∧ ∀ row ∈ log.of (.execution x), row.id ≤ P := by
  obtain ⟨hmem, hmax⟩ := List.max?_eq_some_iff.mp h
  refine ⟨List.mem_map.mp hmem, fun row hrow => hmax _ (List.mem_map_of_mem hrow)⟩

theorem maxId_none (h : log.maxIdForExecution x = none) : log.of (.execution x) = [] :=
  List.map_eq_nil_iff.mp (List.max?_eq_none_iff.mp h)

/-- **The log above the position is what came after the opening.** -/
theorem decoded_eq_append_above (hext : log.Extends log') :
    decoded (log'.of (.execution x)) =
      decoded (log.of (.execution x)) ++ log'.above x ((log.maxIdForExecution x).getD 0) := by
  obtain ⟨more, hmore⟩ := hext x
  have hasc := log'.of_ascending (.execution x)
  have habove : log'.windowAfter (.execution x) ((log.maxIdForExecution x).getD 0) = more := by
    rw [EventLog.windowAfter_eq, ← hmore]
    rw [← hmore] at hasc
    cases hmax : log.maxIdForExecution x with
    | none =>
        rw [maxId_none hmax, List.nil_append, above, List.filter_eq_self]
        intro row hrow
        have hmem : row ∈ log'.of (.execution x) := by
          rw [← hmore]
          exact List.mem_append_right _ hrow
        exact decide_eq_true (log'.of_keys hmem).1
    | some P =>
        obtain ⟨⟨row, hrow, hid⟩, hmax⟩ := maxId_some hmax
        have hnone : above StoredEvent.id P (log.of (.execution x)) = [] := by
          rw [above, List.filter_eq_nil_iff]
          intro a ha hlt
          exact absurd (of_decide_eq_true hlt) (not_lt.mpr (hmax a ha))
        rw [Option.getD_some, above_append hasc hrow (le_of_eq hid.symm), hnone, List.nil_append]
  rw [EventLog.above, habove, ← decoded_append, hmore]

/-- **Backwards from `history_before`** a client reads the log as it was at the opening. -/
theorem history_read {pages : List (PageV1 EventRow)} {before : Nat} {qlimit : Option Int}
    (hbefore : historyBefore (log.maxIdForExecution x) = some before)
    (hwalk : GrowingWalk id log (.execution x)
      { before := some (toString before), after := none, limit := qlimit } pages) :
    (pages.flatMap fun page => page.items.reverse).reverse = decoded (log.of (.execution x)) := by
  obtain ⟨P, hmax, hP⟩ : ∃ P, log.maxIdForExecution x = some P ∧ P < maxRowId ∧ P + 1 = before := by
    cases hmax : log.maxIdForExecution x with
    | none =>
        rw [hmax] at hbefore
        cases hbefore
    | some P =>
        rw [hmax] at hbefore
        by_cases hlt : P < maxRowId
        · refine ⟨P, rfl, hlt, ?_⟩
          simpa [historyBefore, hlt] using hbefore
        · simp [historyBefore, hlt] at hbefore
  obtain ⟨hlt, rfl⟩ := hP
  obtain ⟨⟨row, hrow, hid⟩, hle⟩ := maxId_some hmax
  obtain ⟨window, limit, hresolve⟩ := resolve_of_growing hwalk
  have hwindow : window = .before (some ((P + 1 : Nat) : Int)) := by
    obtain ⟨-, hwindow, -⟩ := EventPageQuery.resolve_eq_ok hresolve
    have hparse : parseCursor (toString (P + 1)) = .ok ((P + 1 : Nat) : Int) :=
      parseCursor_toString ⟨Nat.succ_pos P, hlt⟩
    simp only [EventPageQuery.window] at hwindow
    rw [hparse] at hwindow
    exact (Except.ok.inj hwindow).symm
  subst hwindow
  have hreads := walk_reads (walk_of_growing hwalk hrow hresolve (by omega)) hresolve
  have hall : log.windowBefore (.execution x) (some ((P + 1 : Nat) : Int)) = log.of (.execution x) := by
    show (log.of (.execution x)).filter _ = _
    rw [List.filter_eq_self]
    intro a ha
    have hbound := hle a ha
    exact decide_eq_true (by omega)
  rw [EventWindow.rows, hall, List.map_id, decoded_reverse] at hreads
  have hflat : pages.flatMap (fun page => page.items.reverse) =
      (decoded (log.of (.execution x))).reverse := hreads
  rw [hflat, List.reverse_reverse]

end History

/-! ## The join -/

/-- The log only grows behind a stream, and the first frame stays the position. -/
theorem opened_of_run {log₀ : EventLog} {x : ExecutionId} {now : EventLog × Stream}
    (h : StreamRun log₀ x now) : log₀.Extends now.1 ∧
      now.2.sent.head? = some (.position (log₀.maxIdForExecution x)
        (historyBefore (log₀.maxIdForExecution x))) := by
  induction h with
  | opened => exact ⟨fun _ => List.prefix_refl _, rfl⟩
  | step h hs ih =>
      obtain ⟨hext, hhead⟩ := ih
      cases hs with
      | write hgrown => exact ⟨hext.trans hgrown, hhead⟩
      | @notified log s notification hphase =>
          refine ⟨hext, ?_⟩
          show (s.notify notification).sent.head? = _
          unfold Stream.notify
          split
          · exact hhead
          · exact List.head?_append.trans (by rw [hhead]; rfl)
      | tick => exact ⟨hext, hhead⟩
      | hangUp => exact ⟨hext, hhead⟩
      | @read log s hphase =>
          refine ⟨hext, ?_⟩
          obtain ⟨more, hmore⟩ := Caught.read_sent s log
          show (s.read log).sent.head? = _
          rw [hmore, List.head?_append, hhead]
          rfl
      | readFailed =>
          refine ⟨hext, ?_⟩
          exact List.head?_append.trans (by rw [hhead]; rfl)

/-- **Stream and history join without a gap.** In every run of writers, wake-ups and reads after the
opening: the stream has announced the highest id `P` of that moment, and what it has sent since is a
prefix of the decodable rows above `P` up to the first terminal event; a terminal event ends it with
all of these sent; and its reading loop, let run, sends all there is. The log is what it was at the
opening followed by the rows above `P`, and a client that pages backwards from `history_before`,
however the log grows meanwhile, reads exactly the former. -/
theorem stream_joins_history {log₀ log : EventLog} {x : ExecutionId} {s : Stream}
    (h : StreamRun log₀ x (log, s)) :
    let position := log₀.maxIdForExecution x
    let after := log.above x (position.getD 0)
    s.sent.head? = some (.position position (historyBefore position)) ∧
    s.streamed <+: upToTerminal after ∧
    (¬NoTerminal s.streamed → s.phase = .closed ∧ s.streamed = upToTerminal after) ∧
    (s.phase = .reading → ∃ n, (((·.read log)^[n]) s).phase ≠ .reading ∧
      (((·.read log)^[n]) s).streamed = upToTerminal after) ∧
    decoded (log.of (.execution x)) = decoded (log₀.of (.execution x)) ++ after ∧
    (position = none → decoded (log₀.of (.execution x)) = []) ∧
    ∀ before limit pages, historyBefore position = some before →
      GrowingWalk id log₀ (.execution x)
        { before := some (toString before), after := none, limit := limit } pages →
      (pages.flatMap fun page => page.items.reverse).reverse ++ after =
        decoded (log.of (.execution x)) := by
  intro position after
  obtain ⟨hext, hhead⟩ := opened_of_run h
  obtain ⟨hid, hcaught⟩ := Caught.of_run h
  have hx : s.executionId = x := hid
  have hjoin := decoded_eq_append_above (x := x) hext
  subst hx
  refine ⟨hhead, hcaught.sent_prefix, hcaught.terminal_sent, hcaught.reads_out, hjoin, ?_, ?_⟩
  · intro hnone
    rw [maxId_none hnone]
    rfl
  · intro before limit pages hbefore hwalk
    rw [history_read hbefore hwalk]
    exact hjoin.symm

/-- The log of `mendedLog` before its third event. -/
def mendingLog : EventLog where
  rows := mendedLog.rows.take 2
  ascending := by decide
  keys := by decide

/-- A stream opened at the second event and read after the third. -/
def mendedStream : Stream :=
  ({ openStream mendingLog "x" with phase := .reading } : Stream).read mendedLog

theorem mendedStream_run : StreamRun mendingLog "x" (mendedLog, mendedStream) := by
  have hext : mendingLog.Extends mendedLog := fun _ => (List.take_prefix 2 _).filter _
  exact .step (.step (.step .opened (.write hext)) (.tick rfl)) (.read rfl)

/-- It has announced 2 and sent the third event; with the first, that is all that decodes. -/
theorem stream_joins_history_mended :
    mendedStream.sent.head? = some (.position (some 2) (some 3)) ∧
      mendedStream.streamed.map EventRow.id = [3] ∧
      decoded (mendedLog.of (.execution "x")) =
        decoded (mendingLog.of (.execution "x")) ++ mendedLog.above "x" 2 := by
  obtain ⟨hhead, -, -, -, hjoin, -⟩ := stream_joins_history mendedStream_run
  exact ⟨hhead, rfl, hjoin⟩

end AgentBeacon
