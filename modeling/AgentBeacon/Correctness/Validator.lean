import AgentBeacon.Api.PendingValidator
import AgentBeacon.Correctness.Assignment
import AgentBeacon.Correctness.Decisions
import Mathlib.Data.List.Sort

/-!
# `Correctness.Validator` — a representation that is not modified is the current one

What a pending-decisions response lists is determined by the escalations of the active executions, by the
titles of these, which never change, and by the events that name the escalations. None of these rows is ever
deleted, for they are rows of root sessions; and one that is logged after the marks were read has an id
above every mark. So where the marks of two moments agree, the scans between them find the same rows.
-/

namespace AgentBeacon
open Relational Transaction Interleave Resolution DecisionsApi

/-! ## What a mark says -/

section Marks

variable {db db' : Db} {filter filter' : Option ExecutionId} {mark : ActiveExecutionMark}

theorem mem_marks : mark ∈ listActiveWithPlatformMark db filter →
    ∃ x, db.execution? mark.id = some x ∧ mark.title = x.title ∧ mark.platformMax = platformMax db mark.id := by
  intro h
  obtain ⟨hmap, -⟩ := List.mem_filter.mp h
  obtain ⟨x, hx, rfl⟩ := List.mem_map.mp hmap
  exact ⟨x, Table.find?_of_mem (List.mem_filter.mp hx).1, rfl, rfl⟩

/-- A listed execution is shown with its title. -/
theorem titleOf_marks {id : ExecutionId}
    (hid : id ∈ (listActiveWithPlatformMark db filter).map ActiveExecutionMark.id) :
    ∃ x, db.execution? id = some x ∧ titleOf (listActiveWithPlatformMark db filter) id = x.title := by
  obtain ⟨mark, hmark, rfl⟩ := List.mem_map.mp hid
  unfold titleOf
  cases hfound : (listActiveWithPlatformMark db filter).find? fun m => m.id = mark.id with
  | none => exact absurd (decide_eq_true rfl) (List.find?_eq_none.mp hfound mark hmark)
  | some found =>
      have hsame : found.id = mark.id := of_decide_eq_true (List.find?_some hfound :)
      obtain ⟨x, hx, htitle, -⟩ := mem_marks (List.mem_of_find?_eq_some hfound)
      exact ⟨x, hsame ▸ hx, htitle⟩

/-- The ids of the executions are as `uuid` makes them, without control characters. -/
def PlainIds (db : Db) : Prop := ∀ x ∈ db.executions.rows, recordSeparator ∉ x.id.toList

theorem PlainIds.marks (h : PlainIds db) :
    ∀ mark ∈ listActiveWithPlatformMark db filter, recordSeparator ∉ mark.id.toList := by
  intro mark hmark
  obtain ⟨x, hx, -⟩ := mem_marks hmark
  exact Db.id_of_execution? hx ▸ h x (Db.mem_of_execution? hx)

/-- **Equal texts list the same executions, each with the same high-water mark.** -/
theorem marks_of_validated (hids : PlainIds db) (hids' : PlainIds db')
    (h : validated (listActiveWithPlatformMark db filter) = validated (listActiveWithPlatformMark db' filter'))
    {id : ExecutionId} (hid : id ∈ (listActiveWithPlatformMark db filter).map ActiveExecutionMark.id) :
    id ∈ (listActiveWithPlatformMark db' filter').map ActiveExecutionMark.id ∧
      (platformMax db id).getD 0 = (platformMax db' id).getD 0 := by
  obtain ⟨mark, hmark, rfl⟩ := List.mem_map.mp hid
  have htuple := (tuples_of_validated hids.marks hids'.marks h).subset (List.mem_map_of_mem hmark)
  obtain ⟨mark', hmark', hline⟩ := List.mem_map.mp htuple
  obtain ⟨hsame, hmax⟩ := mark_of_markTuple hline
  refine ⟨hsame ▸ List.mem_map_of_mem hmark', ?_⟩
  obtain ⟨-, -, -, hread⟩ := mem_marks hmark
  obtain ⟨-, -, -, hread'⟩ := mem_marks hmark'
  rw [← hread, ← hmax, hread', hsame]

/-- The mark of an execution is not below its platform events, and it is the id of one. -/
theorem platformMax_bounds {row : EventRow} (hrow : row ∈ db.events.rows)
    (hplatform : row.eventType = .platform) :
    row.id ≤ (platformMax db row.executionId).getD 0 := by
  have hmem : row.id ∈ (db.events.rows.filter fun e => e.executionId = row.executionId ∧
      e.eventType = .platform).map EventRow.id :=
    List.mem_map_of_mem (List.mem_filter.mpr ⟨hrow, decide_eq_true ⟨rfl, hplatform⟩⟩)
  cases hmax : platformMax db row.executionId with
  | none =>
      rw [List.max?_eq_none_iff.mp hmax] at hmem
      cases hmem
  | some n => exact (List.max?_eq_some_iff.mp hmax).2 row.id hmem

theorem platformMax_lt (db : Db) (id : ExecutionId) (hnext : 0 < db.events.next) :
    (platformMax db id).getD 0 < db.events.next := by
  cases hmax : platformMax db id with
  | none => exact hnext
  | some n =>
      obtain ⟨row, hrow, rfl⟩ := List.mem_map.mp (List.max?_mem hmax)
      exact db.events.bounded row (List.mem_filter.mp hrow).1

end Marks

/-! ## What the log keeps -/

section Log

variable {history : History}

/-- A row of a later log was there, or was logged after everything that was. -/
theorem logged_later {later : History} (h : Reachable (later ++ history)) {row : EventRow}
    (hrow : row ∈ (current (later ++ history)).events.rows) :
    row ∈ (current history).events.rows ∨ (current history).events.next ≤ row.id := by
  suffices hall : (current history).events.next ≤ (current (later ++ history)).events.next ∧
      ∀ row ∈ (current (later ++ history)).events.rows,
        row ∈ (current history).events.rows ∨ (current history).events.next ≤ row.id from
    hall.2 row hrow
  clear hrow row
  induction later with
  | nil => exact ⟨Nat.le_refl _, fun row hrow => .inl hrow⟩
  | cons e later ih =>
      obtain ⟨hnext, hrows⟩ := ih h.of_cons.1
      obtain ⟨hnext', hrows'⟩ := h.call_logged
      refine ⟨Nat.le_trans hnext hnext', fun row hrow => ?_⟩
      rcases hrows' row hrow with hold | ⟨hfresh, -⟩
      · exact hrows row hold
      · exact .inr (Nat.le_trans hnext hfresh)

theorem next_mono {later : History} (h : Reachable (later ++ history)) :
    (current history).events.next ≤ (current (later ++ history)).events.next := by
  induction later with
  | nil => exact Nat.le_refl _
  | cons e later ih => exact Nat.le_trans (ih h.of_cons.1) h.call_logged.1

/-- An execution is there later, with its title. -/
theorem execution_stays_later {later : History} (h : Reachable (later ++ history)) {id : ExecutionId} {x : Execution}
    (hx : (current history).execution? id = some x) :
    ∃ x', (current (later ++ history)).execution? id = some x' ∧ x'.title = x.title := by
  induction later with
  | nil => exact ⟨x, hx, rfl⟩
  | cons e later ih =>
      obtain ⟨hr, hbefore, -⟩ := h.of_cons
      obtain ⟨x₀, hx₀, htitle⟩ := ih hr
      have hx₀ : (before e).execution? id = some x₀ := hbefore ▸ hx₀
      rcases call_effect e with ⟨w, -, hsteps⟩ | hsame
      · obtain ⟨x', hx', -, htitle'⟩ := hsteps.execution_stays hx₀
        exact ⟨x', hx', htitle'.trans htitle⟩
      · rw [List.cons_append, current_cons, hsame]
        exact ⟨x₀, hx₀, htitle⟩

/-- The ids of an earlier state are among those of a later one. -/
theorem PlainIds.earlier {later : History} (h : Reachable (later ++ history))
    (hids : PlainIds (current (later ++ history))) : PlainIds (current history) := by
  intro x hx
  obtain ⟨x', hx', -⟩ := execution_stays_later h (Table.find?_of_mem hx)
  exact Db.id_of_execution? hx' ▸ hids x' (Db.mem_of_execution? hx')

/-- The event tells the scan something: it is an escalation, or names one. -/
def Telling (row : EventRow) : Prop :=
  (∃ escalation, asEscalation row = some escalation) ∨
    ∃ parts, parseParts row.payload = some parts ∧
      ∃ c ∈ resolutionCandidates parts row.id, c.escalationEventId ≠ none

/-- **An event that tells something belongs to a root of its execution.** -/
theorem root_of_telling (h : Trace disciplined history) {row : EventRow}
    (hrow : row ∈ (current history).events.rows) (hplatform : row.eventType = .platform)
    (htelling : Telling row) :
    ∃ s, row.sessionId = some s.id ∧ (current history).session? s.id = some s ∧
      s.executionId = row.executionId ∧ s.parentSessionId = none := by
  rcases htelling with ⟨escalation, hescalation⟩ | ⟨parts, hparts, c, hc, hnames⟩
  · obtain ⟨-, hsession, -, -, hexec⟩ := asEscalation_eq_some hescalation
    obtain ⟨s, hs, hsexec, hroot⟩ := escalation_root h hrow hescalation
    have hid := Db.id_of_session? hs
    exact ⟨s, hid ▸ hsession, hid ▸ hs, hsexec.trans hexec.symm, hroot⟩
  · obtain ⟨e, earlier, w, hlogged⟩ := exists_loggedBy h hrow
    have hsuffix : earlier <:+ history := (List.suffix_cons e earlier).trans hlogged.suffix
    have hproper := hlogged.proper
    -- it was written to resolve an escalation, in the escalation's session
    have hresolving : ∀ escalation, Known earlier escalation →
        row.sessionId = some escalation.sessionId →
        (∀ s, (current history).session? escalation.sessionId = some s →
          s.executionId = escalation.executionId → s.executionId = row.executionId) →
        ∃ s, row.sessionId = some s.id ∧ (current history).session? s.id = some s ∧
          s.executionId = row.executionId ∧ s.parentSessionId = none := by
      intro escalation hknown hsession hexec
      obtain ⟨e₀, he₀, hlog⟩ := hknown
      obtain ⟨s, hs, hsexec, hroot⟩ := root_of_known h ⟨e₀, hsuffix.subset he₀, hlog⟩
      have hid := Db.id_of_session? hs
      exact ⟨s, hid ▸ hsession, hid ▸ hs, hexec s hs hsexec, hroot⟩
    rcases hlogged.log.2 hplatform with hinert | hmarks | hescalates | ⟨executionId, sessionId, hw⟩
    · rw [hinert.2 parts _ hparts] at hc
      cases hc
    · rcases hmarks with
        ⟨session, args, marker, messageId, resolvedAt, rfl, hmarker, hexec, hsession, -⟩ |
        ⟨escalation, rfl, hexec, hsession, -⟩
      · obtain ⟨hknown, hid⟩ := hproper.2 marker hmarker
        refine hresolving marker.escalation hknown hsession fun s hs _ => ?_
        have hseen : Seen history session := hproper.1.mono hsuffix
        have hsid : s.id = session.id := (Db.id_of_session? hs).trans hid
        have hsame := (reachable_of_trace h).identity hseen (Db.mem_of_session? hs) hsid
        exact hsame.1.trans hexec.symm
      · exact hresolving escalation hproper hsession fun s _ hsexec => hsexec.trans hexec.symm
    · obtain ⟨sessionId, importance, questions, -, -, hpayload⟩ := hescalates
      rw [hpayload] at hparts
      rw [escalateEvent_noMarker parts _ hparts] at hc
      cases hc
    · rw [hw] at hproper
      obtain ⟨text, htext⟩ := hproper.1 rfl
      rw [htext] at hparts
      rw [(inert_noticeEvent text).2 parts _ hparts] at hc
      cases hc

/-- The scan takes the session of such an event for one of its execution. -/
theorem coherent_of_telling (h : Trace disciplined history) {row : EventRow}
    (hrow : row ∈ (current history).events.rows) (hplatform : row.eventType = .platform)
    (htelling : Telling row) : sessionCoherent (current history) row = true := by
  obtain ⟨s, hid, hs, hexec, -⟩ := root_of_telling h hrow hplatform htelling
  unfold sessionCoherent
  rw [hid, Option.any_some, hs, Option.any_some]
  exact decide_eq_true hexec

/-- **It stays in the log.** -/
theorem telling_stays {later : History} (h : Trace disciplined (later ++ history)) {row : EventRow}
    (hrow : row ∈ (current history).events.rows) (hplatform : row.eventType = .platform)
    (htelling : Telling row) : row ∈ (current (later ++ history)).events.rows := by
  have hearlier : Trace disciplined history := h.of_suffix (List.suffix_append later history)
  obtain ⟨s, hid, hs, -, hroot⟩ := root_of_telling hearlier hrow hplatform htelling
  exact root_events_stay h hs hroot hrow hid

end Log

/-! ## What a scan finds -/

section Scan

variable {windows : List WindowEvent} {scan : PendingScan}

/-- The escalations of a scan, in the order of the events. -/
theorem escalations_eq (hplatform : ∀ window ∈ windows, window.event.eventType = .platform) :
    (windows.foldl PendingScan.visit scan).escalations = scan.escalations ++
      windows.filterMap fun window =>
        if window.sessionCoherent then asEscalation window.event else none := by
  induction windows generalizing scan with
  | nil => simp
  | cons window windows ih =>
      rw [List.foldl_cons, ih fun w hw => hplatform w (List.mem_cons_of_mem _ hw), List.filterMap_cons]
      have hread : asEscalation window.event = window.event.sessionId.bind fun sessionId =>
          (escalationData window.event.payload).bind fun data => some
            { id := window.event.id, executionId := window.event.executionId, sessionId,
              createdAt := window.event.createdAt, data } :=
        if_neg (not_not.mpr (hplatform window List.mem_cons_self))
      unfold PendingScan.visit
      rw [hread]
      cases window.sessionCoherent with
      | false => simp
      | true =>
          cases window.event.sessionId with
          | none => simp
          | some sessionId =>
              cases escalationData window.event.payload with
              | none => cases parseParts window.event.payload <;> simp
              | some data => simp

end Scan

/-- The log as it is stored. -/
def Mirrors (db : Db) (log : EventLog) : Prop := log.rows = db.events.rows.map EventRow.stored

section Body

variable {db : Db} {log : EventLog} {ids : List ExecutionId}

/-- The windows of a mirrored log. -/
theorem windows_of_mirrors (hlog : Mirrors db log) :
    listPlatformEventsForExecutions db log ids =
      (db.events.rows.filter fun row => row.executionId ∈ ids ∧ row.eventType = .platform).map
        fun event => ⟨event, sessionCoherent db event⟩ := by
  unfold listPlatformEventsForExecutions
  rw [hlog, List.filter_map, decoded, List.filterMap_map]
  congr 1
  exact List.filterMap_some

theorem platform_of_windows (hlog : Mirrors db log) :
    ∀ window ∈ listPlatformEventsForExecutions db log ids, window.event.eventType = .platform := by
  intro window hwindow
  rw [windows_of_mirrors hlog] at hwindow
  obtain ⟨row, hrow, rfl⟩ := List.mem_map.mp hwindow
  exact (of_decide_eq_true (List.mem_filter.mp hrow).2).2

/-- The escalations a scan finds are in ascending order of their ids. -/
theorem escalations_ascending (ids : List ExecutionId) (hlog : Mirrors db log) :
    (scanPending db log ids).escalations.Pairwise fun a b => a.id < b.id := by
  unfold scanPending
  rw [escalations_eq (platform_of_windows hlog), List.nil_append, windows_of_mirrors hlog,
    List.filterMap_map, List.pairwise_filterMap]
  have hrows : db.events.rows.Pairwise fun a b => a.id < b.id :=
    List.pairwise_map.mp db.events.ascending
  refine (hrows.filter _).imp fun {a b} hab x hx y hy => ?_
  have hid : ∀ {row : EventRow} {escalation : Escalation},
      (if sessionCoherent db row then asEscalation row else none) = some escalation →
        escalation.id = row.id := by
    intro row escalation h
    split at h
    · exact id_of_asEscalation h
    · cases h
  rw [hid hx, hid hy]
  exact hab

theorem mem_windows (hlog : Mirrors db log) {window : WindowEvent} :
    window ∈ listPlatformEventsForExecutions db log ids ↔ ∃ row ∈ db.events.rows,
      row.executionId ∈ ids ∧ row.eventType = .platform ∧
        window = ⟨row, sessionCoherent db row⟩ := by
  rw [windows_of_mirrors hlog, List.mem_map]
  constructor
  · rintro ⟨row, hrow, rfl⟩
    obtain ⟨hmem, hfilter⟩ := List.mem_filter.mp hrow
    obtain ⟨hid, hplatform⟩ := of_decide_eq_true hfilter
    exact ⟨row, hmem, hid, hplatform, rfl⟩
  · rintro ⟨row, hmem, hid, hplatform, rfl⟩
    exact ⟨row, List.mem_filter.mpr ⟨hmem, decide_eq_true ⟨hid, hplatform⟩⟩, rfl⟩

theorem mem_scanned_escalations (hlog : Mirrors db log) {escalation : Escalation} :
    escalation ∈ (scanPending db log ids).escalations ↔ ∃ row ∈ db.events.rows,
      row.executionId ∈ ids ∧ row.eventType = .platform ∧ sessionCoherent db row = true ∧
        asEscalation row = some escalation := by
  unfold scanPending
  rw [mem_escalations (platform_of_windows hlog)]
  constructor
  · rintro (hnil | ⟨window, hwindow, hcoherent, hread⟩)
    · cases hnil
    · obtain ⟨row, hmem, hid, hplatform, rfl⟩ := (mem_windows hlog).mp hwindow
      exact ⟨row, hmem, hid, hplatform, hcoherent, hread⟩
  · rintro ⟨row, hmem, hid, hplatform, hcoherent, hread⟩
    exact .inr ⟨_, (mem_windows hlog).mpr ⟨row, hmem, hid, hplatform, rfl⟩, hcoherent, hread⟩

theorem mem_scanned_resolved (hlog : Mirrors db log) {target : MarkerTarget} :
    target ∈ (scanPending db log ids).resolved ↔ ∃ row ∈ db.events.rows,
      row.executionId ∈ ids ∧ row.eventType = .platform ∧ sessionCoherent db row = true ∧
        escalationData row.payload = none ∧ ∃ sessionId ∈ row.sessionId, ∃ parts,
          parseParts row.payload = some parts ∧ target ∈ targetsOf row sessionId parts := by
  unfold scanPending
  rw [mem_resolved]
  constructor
  · rintro (hnil | ⟨window, hwindow, hcoherent, hread⟩)
    · cases hnil
    · obtain ⟨row, hmem, hid, hplatform, rfl⟩ := (mem_windows hlog).mp hwindow
      exact ⟨row, hmem, hid, hplatform, hcoherent, hread⟩
  · rintro ⟨row, hmem, hid, hplatform, hcoherent, hread⟩
    exact .inr ⟨_, (mem_windows hlog).mpr ⟨row, hmem, hid, hplatform, rfl⟩, hcoherent, hread⟩

end Body

/-- The databases tell a scan of the executions the same. -/
def TellsSame (db db' : Db) (ids ids' : List ExecutionId) : Prop :=
  ∀ row, row.eventType = .platform → Telling row →
    (row ∈ db.events.rows ∧ row.executionId ∈ ids ∧ sessionCoherent db row = true ↔
      row ∈ db'.events.rows ∧ row.executionId ∈ ids' ∧ sessionCoherent db' row = true)

/-- **Scans that are told the same list the same**, with the same titles. -/
theorem pendingBody_congr {db db' : Db} {log log' : EventLog} {marks marks' : List ActiveExecutionMark}
    (hlog : Mirrors db log) (hlog' : Mirrors db' log')
    (h : TellsSame db db' (marks.map ActiveExecutionMark.id) (marks'.map ActiveExecutionMark.id))
    (htitles : ∀ id ∈ marks.map ActiveExecutionMark.id, titleOf marks id = titleOf marks' id) :
    pendingBody db log marks = pendingBody db' log' marks' := by
  generalize hids : marks.map ActiveExecutionMark.id = ids at h htitles
  generalize hids' : marks'.map ActiveExecutionMark.id = ids' at h
  have hescalation : ∀ escalation, escalation ∈ (scanPending db log ids).escalations ↔
      escalation ∈ (scanPending db' log' ids').escalations := by
    intro escalation
    rw [mem_scanned_escalations hlog, mem_scanned_escalations hlog']
    constructor
    · rintro ⟨row, hmem, hid, hplatform, hcoherent, hread⟩
      obtain ⟨hmem', hid', hcoherent'⟩ :=
        (h row hplatform (.inl ⟨escalation, hread⟩)).mp ⟨hmem, hid, hcoherent⟩
      exact ⟨row, hmem', hid', hplatform, hcoherent', hread⟩
    · rintro ⟨row, hmem, hid, hplatform, hcoherent, hread⟩
      obtain ⟨hmem', hid', hcoherent'⟩ :=
        (h row hplatform (.inl ⟨escalation, hread⟩)).mpr ⟨hmem, hid, hcoherent⟩
      exact ⟨row, hmem', hid', hplatform, hcoherent', hread⟩
  have hlist : (scanPending db log ids).escalations = (scanPending db' log' ids').escalations := by
    have hasc := escalations_ascending ids hlog
    have hasc' := escalations_ascending ids' hlog'
    have hnodup := hasc.imp fun {a b : Escalation} (hab : a.id < b.id) =>
      show a ≠ b from fun heq => Nat.lt_irrefl _ (heq ▸ hab)
    have hnodup' := hasc'.imp fun {a b : Escalation} (hab : a.id < b.id) =>
      show a ≠ b from fun heq => Nat.lt_irrefl _ (heq ▸ hab)
    exact ((List.perm_ext_iff_of_nodup hnodup hnodup').mpr hescalation).eq_of_pairwise
      (fun a b _ _ hab hba => absurd hab (Nat.lt_asymm hba)) hasc hasc'
  have htold : ∀ {row : EventRow} {sessionId : SessionId} {parts : List Json} {target : MarkerTarget},
      parseParts row.payload = some parts → target ∈ targetsOf row sessionId parts → Telling row := by
    intro row sessionId parts target hparts htarget
    obtain ⟨-, -, c, hc, hnames⟩ := mem_targetsOf.mp htarget
    exact .inr ⟨parts, hparts, c, hc, by simp [hnames]⟩
  have hresolved : ∀ target, target ∈ (scanPending db log ids).resolved ↔
      target ∈ (scanPending db' log' ids').resolved := by
    intro target
    rw [mem_scanned_resolved hlog, mem_scanned_resolved hlog']
    constructor
    · rintro ⟨row, hmem, hid, hplatform, hcoherent, hno, sessionId, hsession, parts, hparts, htarget⟩
      obtain ⟨hmem', hid', hcoherent'⟩ :=
        (h row hplatform (htold hparts htarget)).mp ⟨hmem, hid, hcoherent⟩
      exact ⟨row, hmem', hid', hplatform, hcoherent', hno, sessionId, hsession, parts, hparts, htarget⟩
    · rintro ⟨row, hmem, hid, hplatform, hcoherent, hno, sessionId, hsession, parts, hparts, htarget⟩
      obtain ⟨hmem', hid', hcoherent'⟩ :=
        (h row hplatform (htold hparts htarget)).mpr ⟨hmem, hid, hcoherent⟩
      exact ⟨row, hmem', hid', hplatform, hcoherent', hno, sessionId, hsession, parts, hparts, htarget⟩
  have hpending : (scanPending db log ids).pendingIds = (scanPending db' log' ids').pendingIds := by
    unfold PendingScan.pendingIds
    rw [hlist]
    congr 1
    refine List.filter_congr fun escalation _ => ?_
    unfold PendingScan.isResolved
    rw [decide_eq_decide.mpr (hresolved _)]
  unfold pendingBody
  simp only [hids, hids', hlist, hpending]
  refine List.map_congr_left fun escalation hescalated => ?_
  have hscanned := (List.mem_filter.mp hescalated).1
  rw [← hlist, mem_scanned_escalations hlog] at hscanned
  obtain ⟨row, -, hid, -, -, hread⟩ := hscanned
  rw [htitles escalation.executionId ((asEscalation_eq_some hread).2.2.2.2 ▸ hid)]

/-! ## The validator -/

/-- **The marks vouch for the scan.** Whatever ran between the reading of the marks and the scan, and
between the scan and the second reading: if the marks agree, the scan was told what one would be told
now. -/
theorem tellsSame_of_marks {marked between since : History}
    (h : Trace disciplined (since ++ (between ++ marked))) {ids ids' : List ExecutionId}
    (hids : ∀ id, id ∈ ids ↔ id ∈ ids')
    (hmax : ∀ id ∈ ids, (platformMax (current marked) id).getD 0 =
      (platformMax (current (since ++ (between ++ marked))) id).getD 0) :
    TellsSame (current (between ++ marked)) (current (since ++ (between ++ marked))) ids ids' := by
  have hr := reachable_of_trace h
  have hscan : Trace disciplined (between ++ marked) :=
    h.of_suffix (List.suffix_append since (between ++ marked))
  have hrscan := reachable_of_trace hscan
  have hrmarked : Reachable marked := hrscan.of_suffix (List.suffix_append between marked)
  intro row hplatform htelling
  constructor
  · rintro ⟨hmem, hid, -⟩
    have hmem' := telling_stays h hmem hplatform htelling
    exact ⟨hmem', (hids _).mp hid, coherent_of_telling h hmem' hplatform htelling⟩
  · rintro ⟨hmem, hid, -⟩
    have hid' := (hids _).mpr hid
    -- it is not above the mark, so it was logged before the mark was read
    have hle := platformMax_bounds hmem hplatform
    rw [← hmax _ hid'] at hle
    have hlt := platformMax_lt (current marked) row.executionId hrmarked.recorded_bounds.1
    have hnext := next_mono hrscan
    have hmem' : row ∈ (current (between ++ marked)).events.rows := by
      rcases logged_later hr hmem with hold | hfresh
      · exact hold
      · omega
    exact ⟨hmem', hid', coherent_of_telling hscan hmem' hplatform htelling⟩

/-- Marks that hash alike vouch for the list, titles and all. -/
theorem pendingBody_of_validated {marked between since : History}
    (h : Trace disciplined (since ++ (between ++ marked)))
    (hids : PlainIds (current (since ++ (between ++ marked)))) {log log' : EventLog}
    (hlog : Mirrors (current (between ++ marked)) log)
    (hlog' : Mirrors (current (since ++ (between ++ marked))) log') {filter filter' : Option ExecutionId}
    (hsame : validated (listActiveWithPlatformMark (current marked) filter) =
      validated (listActiveWithPlatformMark (current (since ++ (between ++ marked))) filter')) :
    pendingBody (current (between ++ marked)) log (listActiveWithPlatformMark (current marked) filter) =
      pendingBody (current (since ++ (between ++ marked))) log'
        (listActiveWithPlatformMark (current (since ++ (between ++ marked))) filter') := by
  have hr : Reachable ((since ++ between) ++ marked) := by
    rw [List.append_assoc]
    exact reachable_of_trace h
  have hidsMarked : PlainIds (current marked) := PlainIds.earlier hr (by rw [List.append_assoc]; exact hids)
  refine pendingBody_congr hlog hlog' (tellsSame_of_marks h (fun id => ?_) fun id hid => ?_) fun id hid => ?_
  · exact ⟨fun hid => (marks_of_validated hidsMarked hids hsame hid).1,
      fun hid => (marks_of_validated hids hidsMarked hsame.symm hid).1⟩
  · exact (marks_of_validated hidsMarked hids hsame hid).2
  · obtain ⟨x, hx, htitle⟩ := titleOf_marks hid
    obtain ⟨x', hx', htitle'⟩ := titleOf_marks (marks_of_validated hidsMarked hids hsame hid).1
    obtain ⟨x'', hx'', hkept⟩ := execution_stays_later hr hx
    rw [List.append_assoc, hx'] at hx''
    rw [htitle, htitle', ← hkept, Option.some.inj hx'']

/-- **The entity tag is sound.** In a run of the scheduler, a client asks for the pending decisions: the
marks are read at one moment and the log is scanned at a later one. If the client presents the validator
it got with that body at any later moment and is told that nothing was modified, then its body is what a
scan at that moment would list, provided that the two texts hashed do not collide. -/
theorem pending_etag_sound {sha256 : String → String} {pool : List (Nat × Request Unit)}
    {marked between since : History} (h : SchedulerRun pool (since ++ (between ++ marked)))
    (hids : PlainIds (current (since ++ (between ++ marked))))
    {log log' : EventLog} (hlog : Mirrors (current (between ++ marked)) log)
    (hlog' : Mirrors (current (since ++ (between ++ marked))) log')
    {filter filter' : Option ExecutionId}
    (hcollision : Set.InjOn sha256 {validated (listActiveWithPlatformMark (current marked) filter),
      validated (listActiveWithPlatformMark (current (since ++ (between ++ marked))) filter')})
    {presented : Option String} {etag etag' : String} {body : List DecisionBrief}
    (hfirst : pendingResponse sha256 (current marked) (current (between ++ marked)) log filter presented =
      (etag, some body))
    (hsecond : pendingResponse sha256 (current (since ++ (between ++ marked)))
      (current (since ++ (between ++ marked))) log' filter' (some etag) = (etag', none)) :
    body = pendingDecisions (current (since ++ (between ++ marked))) log' filter' := by
  have hbody : etag = pendingValidator sha256 (listActiveWithPlatformMark (current marked) filter) ∧
      body = pendingBody (current (between ++ marked)) log
        (listActiveWithPlatformMark (current marked) filter) := by
    unfold pendingResponse at hfirst
    dsimp only at hfirst
    split at hfirst
    · cases (Prod.mk.inj hfirst).2
    · obtain ⟨hetag, hsome⟩ := Prod.mk.inj hfirst
      exact ⟨hetag.symm, (Option.some.inj hsome).symm⟩
  have hmatched : etag = pendingValidator sha256
      (listActiveWithPlatformMark (current (since ++ (between ++ marked))) filter') := by
    unfold pendingResponse at hsecond
    dsimp only at hsecond
    split at hsecond
    · rename_i hpresented
      exact Option.some.inj hpresented
    · cases (Prod.mk.inj hsecond).2
  have hsame := validated_of_validator hcollision (hbody.1.symm.trans hmatched)
  rw [hbody.2]
  exact pendingBody_of_validated h.disciplined hids hlog hlog' hsame

/-- The lead raises a decision; then a worker is assigned to it. -/
def raisedAndAssigned : List (Choice (Nat × Route) Env) :=
  opening ++ alone 3 "e" (.escalate "r" "blocking" [.obj [("question", .str "which?")]]) 4 ++
    alone 4 "m" (syncOf "w" none) 7

def assignedHistory : History := historyOf raisedAndAssigned

/-- The log when it is scanned: one call after the marks were read, two before the end. -/
def scannedLog : EventLog where
  rows := (current (assignedHistory.drop 2)).events.rows.map EventRow.stored
  ascending := by decide +kernel
  keys := by decide +kernel

def assignedLog : EventLog where
  rows := (current assignedHistory).events.rows.map EventRow.stored
  ascending := by decide +kernel
  keys := by decide +kernel

/-- A checksum, in place of a digest. -/
def checksum (text : String) : String := toString (text.toList.foldl (fun n c => (31 * n + c.toNat) % 65521) 7)

/-- The body that was scanned before the assignment is the one of the state after it. -/
theorem pending_etag_sound_assigned :
    pendingBody (current (assignedHistory.drop 2)) scannedLog
      (listActiveWithPlatformMark (current (assignedHistory.drop 3)) none) =
    pendingDecisions (current assignedHistory) assignedLog (some "x") := by
  obtain ⟨pool, hrun⟩ := historyOf_run raisedAndAssigned
  have hscan : (assignedHistory.drop 2).take 1 ++ assignedHistory.drop 3 = assignedHistory.drop 2 := by
    rw [show assignedHistory.drop 3 = (assignedHistory.drop 2).drop 1 by rw [List.drop_drop],
      List.take_append_drop]
  have hsplit : assignedHistory.take 2 ++ ((assignedHistory.drop 2).take 1 ++ assignedHistory.drop 3) =
      assignedHistory := by
    rw [hscan, List.take_append_drop]
  have hmarks : listActiveWithPlatformMark (current (assignedHistory.drop 3)) none =
      listActiveWithPlatformMark (current assignedHistory) (some "x") := by decide +kernel
  have hids : PlainIds (current (assignedHistory.take 2 ++
      ((assignedHistory.drop 2).take 1 ++ assignedHistory.drop 3))) := by
    rw [hsplit]
    have hplain : ∀ x ∈ (current assignedHistory).executions.rows, recordSeparator ∉ x.id.toList := by
      decide +kernel
    exact hplain
  have hrun' : SchedulerRun pool (assignedHistory.take 2 ++
      ((assignedHistory.drop 2).take 1 ++ assignedHistory.drop 3)) := by
    rw [hsplit]
    exact hrun
  have hlog : Mirrors (current ((assignedHistory.drop 2).take 1 ++ assignedHistory.drop 3))
      scannedLog := by
    rw [hscan]
    rfl
  have hlog' : Mirrors (current (assignedHistory.take 2 ++
      ((assignedHistory.drop 2).take 1 ++ assignedHistory.drop 3))) assignedLog := by
    rw [hsplit]
    rfl
  have hcollision : Set.InjOn checksum
      {validated (listActiveWithPlatformMark (current (assignedHistory.drop 3)) none),
        validated (listActiveWithPlatformMark (current (assignedHistory.take 2 ++
          ((assignedHistory.drop 2).take 1 ++ assignedHistory.drop 3))) (some "x"))} := by
    rw [hsplit, hmarks, Set.pair_eq_singleton]
    exact Set.injOn_singleton _ _
  have hfirst : pendingResponse checksum (current (assignedHistory.drop 3))
      (current ((assignedHistory.drop 2).take 1 ++ assignedHistory.drop 3)) scannedLog none none =
      (pendingValidator checksum (listActiveWithPlatformMark (current (assignedHistory.drop 3)) none),
        some (pendingBody (current ((assignedHistory.drop 2).take 1 ++ assignedHistory.drop 3)) scannedLog
          (listActiveWithPlatformMark (current (assignedHistory.drop 3)) none))) := rfl
  have hsecond : pendingResponse checksum
      (current (assignedHistory.take 2 ++
        ((assignedHistory.drop 2).take 1 ++ assignedHistory.drop 3)))
      (current (assignedHistory.take 2 ++
        ((assignedHistory.drop 2).take 1 ++ assignedHistory.drop 3))) assignedLog (some "x")
      (some (pendingValidator checksum
        (listActiveWithPlatformMark (current (assignedHistory.drop 3)) none))) =
      (pendingValidator checksum (listActiveWithPlatformMark (current assignedHistory) (some "x")), none) := by
    rw [hsplit]
    unfold pendingResponse
    rw [hmarks]
    exact if_pos rfl
  have hsound := pending_etag_sound hrun' hids hlog hlog' hcollision hfirst hsecond
  rw [hsplit, hscan] at hsound
  exact hsound

end AgentBeacon
