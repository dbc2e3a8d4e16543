import AgentBeacon.Correctness.PendingList
import AgentBeacon.Correctness.ResolvedDecisions
import AgentBeacon.Web.History

/-!
# `Correctness.PastDecisions` — the history that a client has walked

A walk asks for each page below the last row of the one before, while the scheduler logs events and decisions are
resolved. A page covers the rows between its cursor and the next one (`Covers`), whatever is pending when it is read;
so the pages of a walk, read at moments of their own, follow one another without a gap and without an overlap.
-/

namespace AgentBeacon.Web
open DecisionsApi Resolution Relational Transaction Interleave

/-! ## One page -/

/-- The row stands below the cursor. -/
def Below (cursor : Option Int) (id : Nat) : Prop := ∀ n ∈ cursor, (id : Int) < n

section Pages

variable {logs : History → EventLog} {began now : History} {row : EventRow} {escalation : Escalation}
  {cursor : Option Int}

/-- The rows that a page may list. -/
theorem Logged.mem_lane (h : Logged logs now) {stored : StoredEvent} : stored ∈ (logs now).lane cursor ↔
    ∃ row ∈ (current now).events.rows, row.eventType = .platform ∧ Below cursor row.id ∧ stored = row.stored := by
  have hrows : (logs now).rows = (current now).events.rows.map EventRow.stored := h.here
  have hplatform : stored ∈ (logs now).rows.filter (fun row => row.eventType = .platform) ↔
      ∃ row ∈ (current now).events.rows, row.eventType = .platform ∧ stored = row.stored := by
    rw [hrows, List.mem_filter, List.mem_map]
    constructor
    · rintro ⟨⟨row, hrow, rfl⟩, htype⟩
      exact ⟨row, hrow, of_decide_eq_true htype, rfl⟩
    · rintro ⟨row, hrow, htype, rfl⟩
      exact ⟨⟨row, hrow, rfl⟩, decide_eq_true htype⟩
  unfold EventLog.lane
  rw [List.mem_reverse]
  cases cursor with
  | none =>
      refine hplatform.trans ⟨fun ⟨row, hrow, htype, hstored⟩ => ?_, fun ⟨row, hrow, htype, _, hstored⟩ => ?_⟩
      · exact ⟨row, hrow, htype, fun n hn => (by cases hn), hstored⟩
      · exact ⟨row, hrow, htype, hstored⟩
  | some n =>
      unfold EventLog.platformBelow
      rw [List.mem_filter, hplatform]
      constructor
      · rintro ⟨⟨row, hrow, htype, rfl⟩, hbelow⟩
        refine ⟨row, hrow, htype, fun m hm => ?_, rfl⟩
        obtain rfl := Option.some.inj hm
        exact of_decide_eq_true hbelow
      · rintro ⟨row, hrow, htype, hbelow, rfl⟩
        exact ⟨⟨row, hrow, htype, rfl⟩, decide_eq_true (hbelow n rfl)⟩

theorem lane_descending (log : EventLog) : (log.lane cursor).Pairwise fun a b => b.id < a.id :=
  List.pairwise_reverse.mpr (lane_ascending cursor)

/-- A stored event is listed as its escalation, unless that is pending. -/
theorem picked_stored (pending : List Nat) (htype : row.eventType = .platform) :
    picked pending row.stored = (asEscalation row).filter fun e => e.id ∉ pending :=
  picked_of_platform htype

theorem id_of_picked {pending : List Nat} {stored : StoredEvent} (h : picked pending stored = some escalation) :
    escalation.id = stored.id := by
  obtain ⟨event, hparse, hlisted⟩ := Option.bind_eq_some_iff.mp h
  unfold listedAs at hlisted
  obtain ⟨session, -, hlisted⟩ := Option.bind_eq_some_iff.mp hlisted
  obtain ⟨data, -, hlisted⟩ := Option.bind_eq_some_iff.mp hlisted
  split at hlisted
  · cases hlisted
  · rw [← Option.some.inj hlisted]
    exact id_of_parse hparse

/-- A row of the lane stands below the cursor. -/
theorem mem_lane_iff {log : EventLog} {stored : StoredEvent} : stored ∈ log.lane cursor ↔
    stored ∈ log.rows ∧ stored.eventType = .platform ∧ Below cursor stored.id := by
  unfold EventLog.lane
  rw [List.mem_reverse]
  cases cursor with
  | none =>
      refine List.mem_filter.trans ⟨fun ⟨hrow, htype⟩ => ?_, fun ⟨hrow, htype, _⟩ => ⟨hrow, decide_eq_true htype⟩⟩
      exact ⟨hrow, of_decide_eq_true htype, fun n hn => (by cases hn)⟩
  | some n =>
      unfold EventLog.platformBelow
      rw [List.mem_filter, List.mem_filter, decide_eq_true_iff, decide_eq_true_iff, and_assoc]
      exact and_congr_right fun _ => and_congr_right fun _ =>
        ⟨fun hbelow m hm => Option.some.inj hm ▸ hbelow, fun hbelow => hbelow n rfl⟩

/-! ### Through several logs -/

/-- What a walk has looked at that reads each chunk from a log of its own: rows of these logs, downwards, and as far
as it has come every row that is in all of them. -/
structure Inspects (chunks : Nat → EventLog) (cursor : Option Int) (seen : List StoredEvent) (final : Progress) :
    Prop where
  read : ∀ stored ∈ seen, ∃ i, stored ∈ (chunks i).lane cursor
  descending : seen.Pairwise fun a b => b.id < a.id
  kept : ∀ stored, (∀ i, stored ∈ (chunks i).lane cursor) → stored ∈ seen ∨
    final.exhausted = false ∧ ∀ last ∈ seen.getLast?, stored.id < last.id

/-- One chunk. -/
theorem Inspects.chunk {chunks : Nat → EventLog} {init rest : List StoredEvent} {last : StoredEvent} {final : Progress}
    (hlane : (chunks 0).lane cursor = init ++ last :: rest) (hrest : rest = [] ∨ final.exhausted = false) :
    Inspects chunks cursor (init ++ [last]) final := by
  have hlane' : (chunks 0).lane cursor = (init ++ [last]) ++ rest := by simpa using hlane
  have hdescending : ((chunks 0).lane cursor).Pairwise fun a b => b.id < a.id := lane_descending (chunks 0)
  rw [hlane'] at hdescending
  obtain ⟨hseen, -, hbetween⟩ := List.pairwise_append.mp hdescending
  refine ⟨fun stored hstored => ⟨0, hlane' ▸ List.mem_append_left rest hstored⟩, hseen, fun stored hkept => ?_⟩
  have hin := hkept 0
  rw [hlane'] at hin
  rcases List.mem_append.mp hin with hfound | hleft
  · exact .inl hfound
  · refine .inr ⟨hrest.resolve_left (List.ne_nil_of_mem hleft), fun l hl => ?_⟩
    rw [List.getLast?_concat] at hl
    obtain rfl := Option.some.inj hl
    exact hbetween last (by simp) stored hleft

/-- The chunks below it. -/
theorem Inspects.onward {chunks : Nat → EventLog} {init rest seen : List StoredEvent} {last : StoredEvent}
    {final : Progress} (hlane : (chunks 0).lane cursor = init ++ last :: rest)
    (h : Inspects (fun i => chunks (i + 1)) (some (last.id : Int)) seen final) :
    Inspects chunks cursor (init ++ [last] ++ seen) final := by
  have hlane' : (chunks 0).lane cursor = (init ++ [last]) ++ rest := by simpa using hlane
  have hdescending : ((chunks 0).lane cursor).Pairwise fun a b => b.id < a.id := lane_descending (chunks 0)
  rw [hlane'] at hdescending
  obtain ⟨hfront, -, hbetween⟩ := List.pairwise_append.mp hdescending
  have hlast : Below cursor last.id := (mem_lane_iff.mp (hlane ▸ List.mem_append_right init List.mem_cons_self)).2.2
  have hunder : ∀ stored ∈ seen, stored.id < last.id := fun stored hstored => by
    obtain ⟨i, hin⟩ := h.read stored hstored
    exact Int.ofNat_lt.mp ((mem_lane_iff.mp hin).2.2 _ rfl)
  have habove : ∀ stored ∈ init ++ [last], last.id ≤ stored.id := fun stored hstored => by
    rcases List.mem_append.mp hstored with hinit | hsame
    · exact Nat.le_of_lt ((List.pairwise_append.mp hfront).2.2 _ hinit _ List.mem_cons_self)
    · exact Nat.le_of_eq (congrArg StoredEvent.id (List.mem_singleton.mp hsame)).symm
  refine ⟨fun stored hstored => ?_, List.pairwise_append.mpr ⟨hfront, h.descending, fun a ha b hb => ?_⟩,
    fun stored hkept => ?_⟩
  · rcases List.mem_append.mp hstored with hold | hnew
    · exact ⟨0, hlane' ▸ List.mem_append_left rest hold⟩
    · obtain ⟨i, hin⟩ := h.read stored hnew
      obtain ⟨hrow, htype, hbelow⟩ := mem_lane_iff.mp hin
      refine ⟨i + 1, mem_lane_iff.mpr ⟨hrow, htype, fun n hn => ?_⟩⟩
      exact Int.lt_trans (hbelow _ rfl) (hlast n hn)
  · exact Nat.lt_of_lt_of_le (hunder b hb) (habove a ha)
  · have hin := hkept 0
    rw [hlane'] at hin
    rcases List.mem_append.mp hin with hfound | hleft
    · exact .inl (List.mem_append_left seen hfound)
    · have hlower : stored.id < last.id := hbetween last (by simp) stored hleft
      have hkept' : ∀ i, stored ∈ (chunks (i + 1)).lane (some (last.id : Int)) := fun i => by
        obtain ⟨hrow, htype, -⟩ := mem_lane_iff.mp (hkept (i + 1))
        refine mem_lane_iff.mpr ⟨hrow, htype, fun n hn => ?_⟩
        obtain rfl := Option.some.inj hn
        exact Int.ofNat_lt.mpr hlower
      rcases h.kept stored hkept' with hfound | ⟨hopen, hbelow⟩
      · exact .inl (List.mem_append_right _ hfound)
      · refine .inr ⟨hopen, fun l hl => ?_⟩
        rcases List.eq_nil_or_concat seen with rfl | ⟨front, lowest, hconcat⟩
        · rw [List.append_nil, List.getLast?_concat] at hl
          exact Option.some.inj hl ▸ hlower
        · obtain rfl : seen = front ++ [lowest] := by simpa using hconcat
          rw [← List.append_assoc, List.getLast?_concat] at hl
          exact hbelow l (by rw [List.getLast?_concat]; exact hl)

/-- **A walk inspects the logs of its chunks**; a walk that has inspected nothing has come to the end. -/
theorem walkChunks_inspects (chunks : Nat → EventLog) (pending : List Nat) (limit : Int) {chunk : Nat}
    (hchunk : 0 < chunk) (n : Nat) (cursor : Option Int) (start : Progress) (hstart : start.exhausted = false) :
    ∃ seen, Stops pending seen start (walkChunks chunk pending limit chunks n cursor start) ∧
      Inspects chunks cursor seen (walkChunks chunk pending limit chunks n cursor start) ∧
      (0 < n → seen = [] → (walkChunks chunk pending limit chunks n cursor start).exhausted = true) := by
  induction n generalizing chunks cursor start with
  | zero =>
      refine ⟨[], Stops.refl start, ⟨fun _ h => (by cases h), .nil, fun _ _ => .inr ⟨hstart, fun _ h => by cases h⟩⟩,
        fun h => absurd h (Nat.lt_irrefl 0)⟩
  | succ n ih =>
      rcases walkChunks_chunk chunks pending limit hchunk n cursor start hstart with
        ⟨hempty, hend⟩ | ⟨init, last, rest, progress, hlane, hstops, hopen, hend | ⟨hrest, hend⟩ | hend⟩
      · rw [hend]
        refine ⟨[], ⟨by simp, by simp⟩, ⟨fun _ h => (by cases h), .nil, fun stored hkept => ?_⟩, fun _ _ => rfl⟩
        have hin := hkept 0
        rw [hempty] at hin
        cases hin
      · rw [hend]
        exact ⟨init ++ [last], hstops, .chunk hlane (.inr hopen), fun _ hnil => absurd hnil (by simp)⟩
      · rw [hend]
        exact ⟨init ++ [last], ⟨hstops.found, hstops.lowest⟩, .chunk hlane (.inl hrest),
          fun _ hnil => absurd hnil (by simp)⟩
      · rw [hend]
        obtain ⟨seen, hstops', hinspects, -⟩ :=
          ih (fun i => chunks (i + 1)) (some (last.id : Int)) progress hopen
        exact ⟨init ++ [last] ++ seen, hstops.trans hstops', hinspects.onward hlane,
          fun _ hnil => absurd hnil (by simp)⟩

/-! ### What a page says -/

/-- What is logged stays in the log. -/
theorem Logged.stays {earlier : History} (h : Logged logs now) (hsuffix : earlier <:+ now)
    (hrow : row ∈ (current earlier).events.rows) (hescalation : asEscalation row = some escalation) :
    row ∈ (current now).events.rows := by
  obtain ⟨since, rfl⟩ := hsuffix
  exact telling_stays h.trace hrow (asEscalation_eq_some hescalation).1 (.inl ⟨escalation, hescalation⟩)

theorem Logged.mem_log (h : Logged logs now) (hrow : row ∈ (current now).events.rows) :
    row ∈ decoded (logs now).rows := by
  rw [mem_decoded, show (logs now).rows = (current now).events.rows.map EventRow.stored from h.here]
  exact List.mem_map_of_mem hrow

theorem Logged.of_mem_log (h : Logged logs now) (hrow : row ∈ decoded (logs now).rows) :
    row ∈ (current now).events.rows := by
  rw [mem_decoded, show (logs now).rows = (current now).events.rows.map EventRow.stored from h.here] at hrow
  obtain ⟨row', hrow', hsame⟩ := List.mem_map.mp hrow
  exact stored_injective hsame ▸ hrow'

/-- **What a scan finds pending was pending** when the active executions were read, if it was in the log then. -/
theorem Logged.pending_before {active : History} (h : Logged logs now) (hactive : active <:+ now)
    (hrow : row ∈ (current active).events.rows) (hescalation : asEscalation row = some escalation)
    (hpending : escalation.id ∈ pendingScanned (current active) (current now) (logs now)) :
    escalation.id ∈ pendingNow (current active) (logs active) := by
  have hearlier := h.of_suffix hactive
  have hplatform := (asEscalation_eq_some hescalation).1
  rw [mem_pendingScanned (h.mem_log (h.stays hactive hrow hescalation)) hescalation] at hpending
  unfold pendingNow
  rw [mem_pendingScanned (hearlier.mem_log hrow) hescalation]
  refine ⟨hpending.1, coherent_of_telling hearlier.trace hrow hplatform (.inl ⟨escalation, hescalation⟩), ?_⟩
  rintro ⟨marker, hmarker, hresolves, hno⟩
  -- a marker stays, so the scan would have found it
  obtain ⟨since, rfl⟩ := hactive
  have hstays := telling_stays h.trace (hearlier.of_mem_log hmarker) hresolves.2.1 (telling_of_resolves hresolves)
  exact hpending.2.2 ⟨marker, h.mem_log hstays, hresolves, hno⟩

/-- The title of a logged decision's execution is found, and is that of any later moment. -/
theorem Logged.summary_later {earlier : History} (h : Logged logs now) (hsuffix : earlier <:+ now)
    (hrow : row ∈ (current earlier).events.rows) (hescalation : asEscalation row = some escalation) :
    summary (current earlier) escalation = summary (current now) escalation := by
  have hearlier := h.of_suffix hsuffix
  obtain ⟨s, hs, hexec, -⟩ := escalation_root hearlier.trace hrow hescalation
  obtain ⟨x, hx⟩ := Option.ne_none_iff_exists'.mp
    ((reachable_of_trace hearlier.trace).hasExecutions s (Db.mem_of_session? hs))
  obtain ⟨later, rfl⟩ := hsuffix
  obtain ⟨x', hx', htitle⟩ := execution_stays_later (reachable_of_trace h.trace) hx
  rw [hexec] at hx hx'
  unfold summary
  rw [hx, hx', Option.bind_some, Option.bind_some, htitle]

/-- What a page that is read between two moments says about the rows below its cursor. -/
structure Covers (logs : History → EventLog) (began now : History) (cursor : Option Int)
    (page : PageV1 DecisionSummary) (found : List Escalation) : Prop where
  items : page.items = found.map (summary (current now))
  descending : found.Pairwise fun a b => b.id < a.id
  below : ∀ e ∈ found, Below cursor e.id
  logged : ∀ e ∈ found, ∃ row ∈ (current now).events.rows, asEscalation row = some e
  next : page.hasMore = true → ∃ last : Nat, page.nextCursor = some (toString last) ∧ 0 < last ∧ last ≤ maxRowId ∧
    Below cursor last ∧ ∀ e ∈ found, last ≤ e.id
  complete : ∀ row ∈ (current began).events.rows, ∀ e, asEscalation row = some e → Below cursor e.id →
    e ∈ found ∨ (∃ moment, began <:+ moment ∧ moment <:+ now ∧ e.id ∈ pendingNow (current moment) (logs moment)) ∨
      page.hasMore = true ∧ ∀ last : Nat, page.nextCursor = some (toString last) → e.id < last

end Pages

/-! ### A page of several moments -/

section Moments

variable {logs : History → EventLog} {started now : History} {cursor : Option Int}

namespace PageMoments

variable (moments : PageMoments started now)

theorem chunks_since (n : Nat) : moments.scanned <:+ moments.chunks n := by
  induction n with
  | zero => exact moments.walk
  | succ n ih => exact ih.trans (moments.onward n)

theorem active_chunks (n : Nat) : moments.active <:+ moments.chunks n := moments.scan.trans (moments.chunks_since n)

theorem active_after : moments.active <:+ moments.activeAfter := (moments.active_chunks 0).trans (moments.walked 0)

theorem after_now : moments.activeAfter <:+ now :=
  moments.rescan.trans (moments.named.trans (moments.ends.trans moments.past))

theorem chunks_now (n : Nat) : moments.chunks n <:+ now := (moments.walked n).trans moments.after_now

end PageMoments

/-- A row that a walk has inspected, and what it is listed as. -/
theorem Logged.of_picked (h : Logged logs now) {chunks : Nat → History} (hchunks : ∀ i, chunks i <:+ now)
    {pending : List Nat} {seen : List StoredEvent}
    (hread : ∀ stored ∈ seen, ∃ i, stored ∈ (logs (chunks i)).lane cursor)
    {escalation : Escalation} (hpicked : escalation ∈ seen.filterMap (picked pending)) :
    ∃ i, ∃ row ∈ (current (chunks i)).events.rows, row.stored ∈ seen ∧ Below cursor row.id ∧
      asEscalation row = some escalation ∧ escalation.id ∉ pending := by
  obtain ⟨stored, hstored, hpick⟩ := List.mem_filterMap.mp hpicked
  obtain ⟨i, hin⟩ := hread stored hstored
  obtain ⟨row, hrow, htype, hbelow, rfl⟩ := (h.of_suffix (hchunks i)).mem_lane.mp hin
  rw [picked_stored _ htype, Option.filter_eq_some_iff] at hpick
  exact ⟨i, row, hrow, hstored, hbelow, hpick.1, by simpa using hpick.2⟩

/-- Where a page ends that says there is more: at the last row inspected. -/
theorem next_of_hasMore {reads : ResolvedReads} {progress : Progress} {seen : List StoredEvent} {pending : List Nat}
    (hstops : Stops pending seen ⟨[], none, false⟩ progress) (hmore : (resolvedPage reads progress).hasMore = true) :
    ∃ init last, seen = init ++ [last] ∧ (resolvedPage reads progress).nextCursor = some (toString last.id) := by
  have hlowest : progress.lowestInspected = seen.getLast?.map StoredEvent.id := by
    rw [hstops.lowest]
    simp
  rcases List.eq_nil_or_concat seen with rfl | ⟨init, last, hconcat⟩
  · have hnone : hasMoreBelow reads.below progress = true := hmore
    unfold hasMoreBelow at hnone
    rw [show progress.lowestInspected = none from hlowest] at hnone
    cases hnone
  · obtain rfl : seen = init ++ [last] := by simpa using hconcat
    rw [List.getLast?_concat] at hlowest
    refine ⟨init, last, rfl, ?_⟩
    show (if hasMoreBelow reads.below progress then progress.lowestInspected.map toString else none) = _
    rw [if_pos (show hasMoreBelow reads.below progress = true from hmore), hlowest]
    rfl

/-- A row below the last one inspected makes for another page. -/
theorem hasMore_of_below {reads : ResolvedReads} {progress : Progress} {init : List StoredEvent}
    {last stored : StoredEvent} {pending : List Nat}
    (hstops : Stops pending (init ++ [last]) ⟨[], none, false⟩ progress)
    (hopen : progress.exhausted = false) (hrow : stored ∈ reads.below.rows) (htype : stored.eventType = .platform)
    (hbelow : stored.id < last.id) : (resolvedPage reads progress).hasMore = true := by
  have hlowest : progress.lowestInspected = some last.id := by
    rw [hstops.lowest]
    simp
  have hin : stored ∈ reads.below.lane (some (last.id : Int)) := mem_lane_iff.mpr ⟨hrow, htype, fun n hn => by
    obtain rfl := Option.some.inj hn
    exact Int.ofNat_lt.mpr hbelow⟩
  show hasMoreBelow reads.below progress = true
  unfold hasMoreBelow
  rw [hlowest, hopen]
  show (!(reads.below.platformBelow (some (last.id : Int))).isEmpty) = true
  rw [Bool.not_eq_true', List.isEmpty_eq_false_iff]
  exact List.ne_nil_of_mem (List.mem_reverse.mp hin)

/-- What a request leaves out is pending at one of its moments, or below the last row that it has inspected. -/
theorem Logged.listed_or (h : Logged logs now) (moments : PageMoments started now) {pending pending' : List Nat}
    (hpending : pendingScanned (current moments.active) (current moments.scanned) (logs moments.scanned) = pending)
    (hpending' : pendingScanned (current moments.activeAfter) (current moments.scannedAfter)
      (logs moments.scannedAfter) = pending') {seen : List StoredEvent} {progress : Progress}
    (hstops : Stops pending seen ⟨[], none, false⟩ progress)
    (hinspects : Inspects (fun n => logs (moments.chunks n)) cursor seen progress)
    (hended : seen = [] → progress.exhausted = true) {row : EventRow}
    (hrow : row ∈ (current moments.active).events.rows) {e : Escalation} (hread : asEscalation row = some e)
    (hbelow : Below cursor e.id) :
    e ∈ (seen.filterMap (picked pending)).filter (fun e => e.id ∉ pending') ∨
      (∃ moment, moments.active <:+ moment ∧ moment <:+ now ∧ e.id ∈ pendingNow (current moment) (logs moment)) ∨
      (resolvedPage (moments.reads logs) progress).hasMore = true ∧ ∀ last : Nat,
        (resolvedPage (moments.reads logs) progress).nextCursor = some (toString last) → e.id < last := by
  have hchunks := moments.chunks_now
  have hlogged := fun i => h.of_suffix (hchunks i)
  have hthen : ∀ i, moments.active <:+ moments.chunks i := moments.active_chunks
  obtain ⟨htype, -⟩ := asEscalation_eq_some hread
  rw [id_of_asEscalation hread] at hbelow ⊢
  have hkept : ∀ i, row.stored ∈ (logs (moments.chunks i)).lane cursor := fun i =>
    (hlogged i).mem_lane.mpr ⟨row, (hlogged i).stays (hthen i) hrow hread, htype, hbelow, rfl⟩
  rcases hinspects.kept row.stored hkept with hin | ⟨hopen, hlower⟩
  · -- it was seen, so it is listed unless one of the scans found it pending
    by_cases hbefore : row.id ∈ pending
    · refine .inr (.inl ⟨moments.active, List.suffix_refl _, (hthen 0).trans (hchunks 0), ?_⟩)
      rw [← hpending, ← id_of_asEscalation hread] at hbefore
      rw [← id_of_asEscalation hread]
      have hscanned := h.of_suffix ((moments.chunks_since 0).trans (hchunks 0))
      exact hscanned.pending_before moments.scan hrow hread hbefore
    · by_cases hafter : row.id ∈ pending'
      · refine .inr (.inl ⟨moments.activeAfter, moments.active_after, moments.after_now, ?_⟩)
        rw [← hpending', ← id_of_asEscalation hread] at hafter
        rw [← id_of_asEscalation hread]
        have hscanned := h.of_suffix (moments.named.trans (moments.ends.trans moments.past))
        have hstays := (h.of_suffix moments.after_now).stays moments.active_after hrow hread
        exact hscanned.pending_before moments.rescan hstays hread hafter
      · refine .inl (List.mem_filter.mpr ⟨List.mem_filterMap.mpr ⟨row.stored, hin, ?_⟩, ?_⟩)
        · rw [picked_stored _ htype, hread, Option.filter_some, id_of_asEscalation hread]
          simp [hbefore]
        · simpa [id_of_asEscalation hread] using hafter
  · rcases List.eq_nil_or_concat seen with hnil | ⟨init, last, hconcat⟩
    · rw [hended hnil] at hopen
      cases hopen
    · obtain rfl : seen = init ++ [last] := by simpa using hconcat
      have hlower := hlower last (List.getLast?_concat ..)
      have hbelowLog : row.stored ∈ (logs moments.below).rows := by
        have hat := h.of_suffix moments.past
        refine mem_decoded.mp (hat.mem_log (hat.stays ?_ hrow hread))
        exact moments.active_after.trans (moments.rescan.trans (moments.named.trans moments.ends))
      have hmore : (resolvedPage (moments.reads logs) progress).hasMore = true :=
        hasMore_of_below hstops hopen hbelowLog htype hlower
      refine .inr (.inr ⟨hmore, fun n hn => ?_⟩)
      obtain ⟨init', last', hsame, hnext⟩ := next_of_hasMore hstops hmore
      have hlast : last = last' := (List.append_inj' hsame rfl).2 |> List.singleton_inj.mp
      have hcut : n = last'.id := Nat.repr_injective (Option.some.inj (hn.symm.trans hnext))
      rw [hcut, ← hlast]
      exact hlower

/-- **A page covers the rows between its cursor and the next**, whatever is written while it is read. -/
theorem Logged.covers (h : Logged logs now) (moments : PageMoments started now) {before : Option String}
    (hcursor : resolvedCursor before = .ok cursor) {budget : ScanBudget} {page : PageV1 DecisionSummary}
    (hpage : resolvedDecisionsFrom (moments.reads logs) budget before none = .ok page) :
    ∃ found, Covers logs moments.active now cursor page found := by
  have hchunks := moments.chunks_now
  generalize hpending : pendingScanned (current moments.active) (current moments.scanned)
    (logs moments.scanned) = pending
  generalize hpending' : pendingScanned (current moments.activeAfter) (current moments.scannedAfter)
    (logs moments.scannedAfter) = pending'
  have hwalk := walkChunks_inspects (fun n => logs (moments.chunks n)) pending decisionsResolvedDefaultPage
    budget.chunk_pos budget.chunks cursor ⟨[], none, false⟩ rfl
  have hanswer : resolvedDecisionsFrom (moments.reads logs) budget before none = .ok (resolvedPage (moments.reads logs)
      (walkChunks budget.chunk pending decisionsResolvedDefaultPage (fun n => logs (moments.chunks n)) budget.chunks
        cursor ⟨[], none, false⟩)) := by
    unfold resolvedDecisionsFrom
    rw [hcursor, ← hpending]
    rfl
  generalize walkChunks budget.chunk pending decisionsResolvedDefaultPage (fun n => logs (moments.chunks n))
    budget.chunks cursor ⟨[], none, false⟩ = progress at hwalk hanswer
  obtain rfl := Except.ok.inj (hanswer.symm.trans hpage)
  obtain ⟨seen, hstops, hinspects, hended⟩ := hwalk
  have hended := hended budget.chunks_pos
  have hfound : progress.found = seen.filterMap (picked pending) := by
    rw [hstops.found]
    rfl
  -- what is listed is the escalation of a row that was seen
  have hpicked : ∀ e ∈ (seen.filterMap (picked pending)).filter (fun e => e.id ∉ pending'),
      ∃ row ∈ (current now).events.rows, row.stored ∈ seen ∧ Below cursor row.id ∧ asEscalation row = some e := by
    intro e he
    obtain ⟨i, row, hrow, hin, hbelow, hread, -⟩ := h.of_picked hchunks hinspects.read (List.mem_filter.mp he).1
    exact ⟨row, h.stays (hchunks i) hrow hread, hin, hbelow, hread⟩
  refine ⟨(seen.filterMap (picked pending)).filter fun e => e.id ∉ pending', ?_, ?_, fun e he => ?_, fun e he => ?_,
    fun hmore => ?_, fun row hrow e hread hbelow => ?_⟩
  · show (progress.found.filter fun e => e.id ∉ pendingScanned (current moments.activeAfter)
      (current moments.scannedAfter) (logs moments.scannedAfter)).map (summary (current moments.titles)) = _
    rw [hpending', hfound]
    refine List.map_congr_left fun e he => ?_
    obtain ⟨i, row, hrow, -, -, hread, -⟩ := h.of_picked hchunks hinspects.read (List.mem_filter.mp he).1
    have htitles : moments.titles <:+ now := moments.ends.trans moments.past
    have hchunk : moments.chunks i <:+ moments.titles :=
      (moments.walked i).trans (moments.rescan.trans moments.named)
    exact h.summary_later htitles ((h.of_suffix htitles).stays hchunk hrow hread) hread
  · refine List.Pairwise.filter _ (List.pairwise_filterMap.mpr (hinspects.descending.imp ?_))
    intro a b hab x hx y hy
    rw [id_of_picked hx, id_of_picked hy]
    exact hab
  · obtain ⟨row, -, -, hbelow, hread⟩ := hpicked e he
    exact id_of_asEscalation hread ▸ hbelow
  · obtain ⟨row, hrow, -, -, hread⟩ := hpicked e he
    exact ⟨row, hrow, hread⟩
  · obtain ⟨init, last, rfl, hnext⟩ := next_of_hasMore hstops hmore
    obtain ⟨i, hlast⟩ := hinspects.read last (by simp)
    obtain ⟨hpos, hmax⟩ := keys_of_lane hlast
    refine ⟨last.id, hnext, hpos, hmax, (mem_lane_iff.mp hlast).2.2, fun e he => ?_⟩
    obtain ⟨row, -, hin, -, hread⟩ := hpicked e he
    rw [id_of_asEscalation hread]
    rcases List.mem_append.mp hin with hinit | hsame
    · exact Nat.le_of_lt ((List.pairwise_append.mp hinspects.descending).2.2 _ hinit _ List.mem_cons_self)
    · exact Nat.le_of_eq (congrArg StoredEvent.id (List.mem_singleton.mp hsame)).symm
  · exact h.listed_or moments hpending hpending' hstops hinspects hended hrow hread hbelow

end Moments

/-! ## Walks -/

section Walks

variable {sha256 : String → String} {logs : History → EventLog} {base began now : History}
  {view after : DecisionsView} {store : DecisionStore} {generation : Nat} {call : LoadCall}
  {page : PageV1 DecisionSummary} {shown : List Escalation}

/-- The calls for further pages: the newest one asks below the cursor of the list that is shown, or for a new walk. -/
structure Asking (logs : History → EventLog) (view : DecisionsView) : Prop where
  bounded : ∀ generation call, view.loads generation = some call → generation ≤ view.store.resolvedGeneration
  sent : ∀ generation call, view.loads generation = some call → call.started <:+ view.history
  newest : ∀ call, view.loads view.store.resolvedGeneration = some call →
    (call.reset = true ∨ view.store.pastDecisionsHasMore = true) ∧ call.before = view.store.before call.reset
  answered : ∀ generation call page, view.loads generation = some call → call.answer = some (.ok page) →
    ∃ moments : PageMoments call.started view.history,
      resolvedDecisionsFrom (moments.reads logs) scanBudget call.before none = .ok page

/-- What a walk shows that began at a moment: the rows of the log from its cursor on. -/
structure Walked (logs : History → EventLog) (began now : History) (store : DecisionStore)
    (shown : List Escalation) : Prop where
  list : store.resolvedHistory = shown.map fun e => mapResponseToSummary (summary (current now) e)
  descending : shown.Pairwise fun a b => b.id < a.id
  logged : ∀ e ∈ shown, ∃ row ∈ (current now).events.rows, asEscalation row = some e
  cursor : store.pastDecisionsHasMore = true → ∃ last : Nat, store.pastDecisionsCursor = some (toString last) ∧
    0 < last ∧ last ≤ maxRowId ∧ ∀ e ∈ shown, last ≤ e.id
  complete : ∀ row ∈ (current began).events.rows, ∀ e, asEscalation row = some e → e ∈ shown ∨
    (∃ moment, began <:+ moment ∧ moment <:+ now ∧ e.id ∈ pendingNow (current moment) (logs moment)) ∨
      store.pastDecisionsHasMore = true ∧
        ∀ last : Nat, store.pastDecisionsCursor = some (toString last) → e.id < last

theorem Walked.later {later : History} (h : Walked logs began now store shown) (hlogged : Logged logs later)
    (hlater : now <:+ later) : Walked logs began later store shown where
  list := h.list.trans <| List.map_congr_left fun e he => by
    obtain ⟨row, hrow, hread⟩ := h.logged e he
    rw [hlogged.summary_later hlater hrow hread]
  descending := h.descending
  logged := fun e he => by
    obtain ⟨row, hrow, hread⟩ := h.logged e he
    exact ⟨row, hlogged.stays hlater hrow hread, hread⟩
  cursor := h.cursor
  complete := fun row hrow e hread => by
    rcases h.complete row hrow e hread with hshown | ⟨moment, hsince, hpast, hpending⟩ | hmore
    · exact .inl hshown
    · exact .inr (.inl ⟨moment, hsince, hpast.trans hlater, hpending⟩)
    · exact .inr (.inr hmore)

/-- The first page of a walk. -/
theorem Walked.first {found : List Escalation} (h : Covers logs began now none page found)
    (hlist : store.resolvedHistory = page.items.map mapResponseToSummary)
    (hcursor : store.pastDecisionsCursor = page.nextCursor) (hmore : store.pastDecisionsHasMore = page.hasMore) :
    Walked logs began now store found where
  list := by
    rw [hlist, h.items, List.map_map]
    rfl
  descending := h.descending
  logged := h.logged
  cursor := fun hasMore => by
    obtain ⟨last, hnext, hpos, hmax, -, hlast⟩ := h.next (hmore ▸ hasMore)
    exact ⟨last, hcursor.trans hnext, hpos, hmax, hlast⟩
  complete := fun row hrow e hread => by
    rw [hcursor, hmore]
    exact h.complete row hrow e hread (fun n hn => by cases hn)

/-- **A further page goes on where the walk has stopped**, at whatever moment it is read. -/
theorem Walked.next {store' : DecisionStore} {last : Nat} {moment : History} {found : List Escalation}
    (hwalked : Walked logs began now store shown) (hlogged : Logged logs now) (hbegan : began <:+ moment)
    (hpast : moment <:+ now) (hat : store.pastDecisionsCursor = some (toString last)) (hlast : ∀ e ∈ shown, last ≤ e.id)
    (h : Covers logs moment now (some (last : Int)) page found)
    (hlist : store'.resolvedHistory = store.resolvedHistory ++ page.items.map mapResponseToSummary)
    (hcursor : store'.pastDecisionsCursor = page.nextCursor) (hmore : store'.pastDecisionsHasMore = page.hasMore) :
    Walked logs began now store' (shown ++ found) where
  list := by
    rw [hlist, h.items, hwalked.list, List.map_append, List.map_map]
    rfl
  descending := by
    refine List.pairwise_append.mpr ⟨hwalked.descending, h.descending, fun a ha b hb => ?_⟩
    have hbelow := h.below b hb last rfl
    have habove := hlast a ha
    omega
  logged := fun e he => by
    rcases List.mem_append.mp he with hshown | hfound
    · exact hwalked.logged e hshown
    · exact h.logged e hfound
  cursor := fun hasMore => by
    obtain ⟨next, hnext, hpos, hmax, hbelow, hfound⟩ := h.next (hmore ▸ hasMore)
    refine ⟨next, hcursor.trans hnext, hpos, hmax, fun e he => ?_⟩
    rcases List.mem_append.mp he with hshown | hin
    · have habove := hlast e hshown
      have hbelow := hbelow last rfl
      omega
    · exact hfound e hin
  complete := fun row hrow e hread => by
    rw [hcursor, hmore]
    rcases hwalked.complete row hrow e hread with hshown | hpending | ⟨-, hbelow⟩
    · exact .inl (List.mem_append_left found hshown)
    · exact .inr (.inl hpending)
    · have hbelow : Below (some (last : Int)) e.id := by
        intro n hn
        obtain rfl := Option.some.inj hn
        exact Int.ofNat_lt.mpr (hbelow last hat)
      have hstays := (hlogged.of_suffix hpast).stays hbegan hrow hread
      rcases h.complete row hstays e hread hbelow with hfound | hpending | hrest
      · exact .inl (List.mem_append_right shown hfound)
      · obtain ⟨at', hsince, hbefore, hpending⟩ := hpending
        exact .inr (.inl ⟨at', hbegan.trans hsince, hbefore, hpending⟩)
      · exact .inr (.inr hrest)

/-! ### What a page does to the store -/

theorem endLoad_stale (h : generation ≠ store.resolvedGeneration) (reset : Bool)
    (answer : Except Thrown (PageV1 DecisionSummary)) : store.endLoad reset generation answer = store := if_pos h

/-- A page that could not be read changes nothing but the error. -/
theorem endLoad_failed (reset : Bool) (error : Thrown) :
    (store.endLoad reset generation (.error error)).resolvedHistory = store.resolvedHistory ∧
    (store.endLoad reset generation (.error error)).pastDecisionsCursor = store.pastDecisionsCursor ∧
    (store.endLoad reset generation (.error error)).pastDecisionsHasMore = store.pastDecisionsHasMore ∧
    (store.endLoad reset generation (.error error)).resolvedGeneration = store.resolvedGeneration := by
  unfold DecisionStore.endLoad
  split
  · exact ⟨rfl, rfl, rfl, rfl⟩
  · dsimp only
    split <;> exact ⟨rfl, rfl, rfl, rfl⟩

theorem endLoad_page (reset : Bool) (page : PageV1 DecisionSummary) :
    store.endLoad reset store.resolvedGeneration (.ok page) = { store with
      pastDecisionsError := none
      resolvedHistory := if reset then page.items.map mapResponseToSummary
        else store.resolvedHistory ++ page.items.map mapResponseToSummary
      pastDecisionsCursor := page.nextCursor
      pastDecisionsHasMore := page.hasMore } := if_neg (not_not.mpr rfl)

theorem endLoad_generation (reset : Bool) (answer : Except Thrown (PageV1 DecisionSummary)) :
    (store.endLoad reset generation answer).resolvedGeneration = store.resolvedGeneration := by
  cases answer with
  | error error => exact (endLoad_failed reset error).2.2.2
  | ok page =>
      by_cases hnewest : generation = store.resolvedGeneration
      · rw [hnewest, endLoad_page]
      · rw [endLoad_stale hnewest]

/-- The refreshes leave the history alone. -/
theorem endRefresh_history (answer : Except Thrown PendingDecisionsResult) :
    (store.endRefresh generation answer).1.resolvedHistory = store.resolvedHistory ∧
    (store.endRefresh generation answer).1.pastDecisionsCursor = store.pastDecisionsCursor ∧
    (store.endRefresh generation answer).1.pastDecisionsHasMore = store.pastDecisionsHasMore ∧
    (store.endRefresh generation answer).1.resolvedGeneration = store.resolvedGeneration := by
  by_cases hnewest : generation = store.pendingGeneration
  · subst hnewest
    cases answer with
    | error error => rw [endRefresh_failed]; exact ⟨rfl, rfl, rfl, rfl⟩
    | ok result =>
        cases result with
        | notModified => rw [endRefresh_notModified]; exact ⟨rfl, rfl, rfl, rfl⟩
        | modified etag decisions => rw [endRefresh_modified]; exact ⟨rfl, rfl, rfl, rfl⟩
  · rw [endRefresh_stale hnewest]
    exact ⟨rfl, rfl, rfl, rfl⟩

/-- Nothing changes for the walks. -/
structure SameLoads (view after : DecisionsView) : Prop where
  history : after.history = view.history
  loads : after.loads = view.loads
  list : after.store.resolvedHistory = view.store.resolvedHistory
  cursor : after.store.pastDecisionsCursor = view.store.pastDecisionsCursor
  more : after.store.pastDecisionsHasMore = view.store.pastDecisionsHasMore
  generation : after.store.resolvedGeneration = view.store.resolvedGeneration

/-- A walk that began since a moment, and that the newest call goes on with, unless it begins another. -/
structure Walks (logs : History → EventLog) (base began : History) (view : DecisionsView) (shown : List Escalation) :
    Prop where
  since : base <:+ began
  past : began <:+ view.history
  walked : Walked logs began view.history view.store shown
  newest : ∀ call, view.loads view.store.resolvedGeneration = some call → began <:+ call.started

theorem Asking.congr (h : Asking logs view) (hsame : SameLoads view after) : Asking logs after := by
  obtain ⟨hhistory, hloads, -, hcursor, hmore, hgeneration⟩ := hsame
  refine ⟨?_, ?_, ?_, ?_⟩
  · rw [hloads, hgeneration]
    exact h.bounded
  · rw [hloads, hhistory]
    exact h.sent
  · unfold DecisionStore.before
    rw [hloads, hgeneration, hmore, hcursor]
    exact h.newest
  · rw [hloads, hhistory]
    exact h.answered

theorem Walked.congr {store' : DecisionStore} (h : Walked logs began now store shown)
    (hlist : store'.resolvedHistory = store.resolvedHistory)
    (hcursor : store'.pastDecisionsCursor = store.pastDecisionsCursor)
    (hmore : store'.pastDecisionsHasMore = store.pastDecisionsHasMore) : Walked logs began now store' shown := by
  refine ⟨hlist.trans h.list, h.descending, h.logged, ?_, ?_⟩
  · rw [hmore, hcursor]
    exact h.cursor
  · rw [hmore, hcursor]
    exact h.complete

theorem Walks.congr (h : Walks logs base began view shown) (hsame : SameLoads view after) :
    Walks logs base began after shown := by
  obtain ⟨hhistory, hloads, hlist, hcursor, hmore, hgeneration⟩ := hsame
  refine ⟨h.since, ?_, ?_, ?_⟩
  · rw [hhistory]
    exact h.past
  · rw [hhistory]
    exact h.walked.congr hlist hcursor hmore
  · rw [hloads, hgeneration]
    exact h.newest

/-! ### One step -/

/-- **The first page of a walk** shows the log of a moment since it was asked for. -/
theorem Asking.first (h : Asking logs view) (hlogged : Logged logs view.history)
    (hcall : view.loads view.store.resolvedGeneration = some call) (hreset : call.reset = true)
    (hanswer : call.answer = some (.ok page)) : ∃ began shown,
      Walks logs call.started began (view.arriveLoad view.store.resolvedGeneration call (.ok page)) shown := by
  obtain ⟨moments, hpage⟩ := h.answered _ _ _ hcall hanswer
  obtain ⟨-, hbefore⟩ := h.newest call hcall
  rw [hbefore, hreset] at hpage
  have hcursor : resolvedCursor none = .ok none := rfl
  obtain ⟨found, hcovers⟩ := hlogged.covers moments hcursor hpage
  refine ⟨moments.active, found, moments.sent, moments.active_after.trans moments.after_now, ?_,
    fun other hother => ?_⟩
  · refine Walked.first hcovers ?_ ?_ ?_
    · show (view.store.endLoad call.reset view.store.resolvedGeneration (.ok page)).resolvedHistory = _
      rw [endLoad_page, hreset]
      rfl
    · exact congrArg DecisionStore.pastDecisionsCursor (endLoad_page call.reset page)
    · exact congrArg DecisionStore.pastDecisionsHasMore (endLoad_page call.reset page)
  · rw [show (view.arriveLoad view.store.resolvedGeneration call (.ok page)).store.resolvedGeneration =
      view.store.resolvedGeneration from endLoad_generation call.reset (.ok page)] at hother
    have hnone : none = some other := (Function.update_self (f := view.loads) ..).symm.trans hother
    cases hnone

/-- **A further page** belongs to the walk that is shown. -/
theorem Asking.further (h : Asking logs view) (hlogged : Logged logs view.history)
    (hwalks : Walks logs base began view shown) (hcall : view.loads view.store.resolvedGeneration = some call)
    (hreset : call.reset = false) (hanswer : call.answer = some (.ok page)) : ∃ shown,
      Walks logs base began (view.arriveLoad view.store.resolvedGeneration call (.ok page)) shown := by
  obtain ⟨moments, hpage⟩ := h.answered _ _ _ hcall hanswer
  obtain ⟨hmore, hbefore⟩ := h.newest call hcall
  have hmore : view.store.pastDecisionsHasMore = true := hmore.resolve_left fun hyes => by
    rw [hreset] at hyes
    cases hyes
  obtain ⟨last, hat, hpos, hmax, hlast⟩ := hwalks.walked.cursor hmore
  have hasked : call.before = some (toString last) := by
    rw [hbefore, hreset]
    exact hat
  have hcursor : resolvedCursor (some (toString last)) = .ok (some (last : Int)) := by
    unfold resolvedCursor
    simp only [parseCursor_toString ⟨hpos, hmax⟩, Except.map]
  rw [hasked] at hpage
  obtain ⟨found, hcovers⟩ := hlogged.covers moments hcursor hpage
  refine ⟨shown ++ found, hwalks.since, hwalks.past, ?_, fun other hother => ?_⟩
  · refine hwalks.walked.next hlogged ((hwalks.newest call hcall).trans moments.sent)
      (moments.active_after.trans moments.after_now) hat hlast hcovers ?_ ?_ ?_
    · show (view.store.endLoad call.reset view.store.resolvedGeneration (.ok page)).resolvedHistory = _
      rw [endLoad_page, hreset]
      rfl
    · exact congrArg DecisionStore.pastDecisionsCursor (endLoad_page call.reset page)
    · exact congrArg DecisionStore.pastDecisionsHasMore (endLoad_page call.reset page)
  · rw [show (view.arriveLoad view.store.resolvedGeneration call (.ok page)).store.resolvedGeneration =
      view.store.resolvedGeneration from endLoad_generation call.reset (.ok page)] at hother
    have hnone : none = some other := (Function.update_self (f := view.loads) ..).symm.trans hother
    cases hnone

theorem Asking.start : Asking logs (.start : DecisionsView) where
  bounded := fun _ _ hcall => by cases hcall
  sent := fun _ _ hcall => by cases hcall
  newest := fun _ hcall => by cases hcall
  answered := fun _ _ _ hcall => by cases hcall

/-- What the calls were before one of them was answered. -/
theorem update_answerLoad {answer : Except Thrown (PageV1 DecisionSummary)}
    (hcall : view.loads generation = some call) {other : Nat} {found : LoadCall}
    (hfound : (view.answerLoad generation call answer).loads other = some found) : ∃ before,
      view.loads other = some before ∧ found.reset = before.reset ∧ found.before = before.before ∧
        found.started = before.started ∧
        (found.answer = before.answer ∨ other = generation ∧ found.answer = some answer) := by
  by_cases hother : other = generation
  · subst hother
    have hself : some { call with answer := some answer } = some found :=
      (Function.update_self (f := view.loads) ..).symm.trans hfound
    obtain rfl := Option.some.inj hself
    exact ⟨call, hcall, rfl, rfl, rfl, .inr ⟨rfl, rfl⟩⟩
  · exact ⟨found, (Function.update_of_ne (f := view.loads) hother ..).symm.trans hfound, rfl, rfl, rfl, .inl rfl⟩

theorem Asking.answer (h : Asking logs view) (hcall : view.loads generation = some call)
    {answer : Except Thrown (PageV1 DecisionSummary)} (hanswer : ∀ page, answer = .ok page →
      ∃ moments : PageMoments call.started view.history,
        resolvedDecisionsFrom (moments.reads logs) scanBudget call.before none = .ok page) :
    Asking logs (view.answerLoad generation call answer) where
  bounded := fun other found hfound => by
    obtain ⟨before, hbefore, -⟩ := update_answerLoad hcall hfound
    exact h.bounded other before hbefore
  sent := fun other found hfound => by
    obtain ⟨before, hbefore, -, -, hstarted, -⟩ := update_answerLoad hcall hfound
    exact hstarted ▸ h.sent other before hbefore
  newest := fun found hfound => by
    obtain ⟨before, hbefore, hreset, hcursor, -⟩ := update_answerLoad hcall hfound
    rw [hreset, hcursor]
    exact h.newest before hbefore
  answered := fun other found page hfound hpage => by
    obtain ⟨before, hbefore, -, hcursor, hstarted, hkept | ⟨rfl, hnew⟩⟩ := update_answerLoad hcall hfound
    · rw [hcursor, hstarted]
      exact h.answered other before page hbefore (hkept ▸ hpage)
    · obtain rfl := Option.some.inj (hbefore.symm.trans hcall)
      rw [hcursor, hstarted]
      exact hanswer page (Option.some.inj (hnew.symm.trans hpage))

/-- The calls once another is sent. -/
theorem update_load {reset : Bool} {other : Nat} {found : LoadCall}
    (hfound : (view.load reset).loads other = some found) :
    other = view.store.resolvedGeneration + 1 ∧ found = ⟨reset, view.store.before reset, view.history, none⟩ ∨
      view.loads other = some found := by
  by_cases hother : other = view.store.resolvedGeneration + 1
  · subst hother
    have hself := (Function.update_self (view.store.resolvedGeneration + 1) _ view.loads).symm.trans hfound
    exact .inl ⟨rfl, (Option.some.inj hself).symm⟩
  · exact .inr ((Function.update_of_ne hother ..).symm.trans hfound)

theorem Asking.load (h : Asking logs view) {reset : Bool}
    (hmore : reset = true ∨ view.store.pastDecisionsHasMore = true) : Asking logs (view.load reset) where
  bounded := fun other found hfound => by
    rcases update_load hfound with ⟨rfl, -⟩ | hold
    · exact Nat.le_refl _
    · exact Nat.le_succ_of_le (h.bounded other found hold)
  sent := fun other found hfound => by
    rcases update_load hfound with ⟨-, rfl⟩ | hold
    · exact List.suffix_refl _
    · exact h.sent other found hold
  newest := fun found hfound => by
    rcases update_load hfound with ⟨-, rfl⟩ | hold
    · exact ⟨hmore, rfl⟩
    · exact absurd (h.bounded _ found hold) (Nat.not_succ_le_self _)
  answered := fun other found page hfound hpage => by
    rcases update_load hfound with ⟨-, rfl⟩ | hold
    · cases hpage
    · exact h.answered other found page hold hpage

/-- The calls once the answer of one has arrived. -/
theorem update_arriveLoad {answer : Except Thrown (PageV1 DecisionSummary)} {other : Nat} {found : LoadCall}
    (hfound : (view.arriveLoad generation call answer).loads other = some found) :
    other ≠ generation ∧ view.loads other = some found := by
  by_cases hother : other = generation
  · subst hother
    have hnone : none = some found := (Function.update_self (f := view.loads) ..).symm.trans hfound
    cases hnone
  · exact ⟨hother, (Function.update_of_ne hother ..).symm.trans hfound⟩

theorem Asking.arrive (h : Asking logs view) {answer : Except Thrown (PageV1 DecisionSummary)} :
    Asking logs (view.arriveLoad generation call answer) := by
  have hgeneration : (view.arriveLoad generation call answer).store.resolvedGeneration =
      view.store.resolvedGeneration := endLoad_generation call.reset answer
  refine ⟨fun other found hfound => ?_, fun other found hfound => ?_, fun found hfound => ?_,
    fun other found page hfound hpage => ?_⟩
  · exact (h.bounded other found (update_arriveLoad hfound).2).trans_eq hgeneration.symm
  · exact h.sent other found (update_arriveLoad hfound).2
  · rw [hgeneration] at hfound
    obtain ⟨hother, hold⟩ := update_arriveLoad hfound
    show _ ∧ found.before = (view.store.endLoad call.reset generation answer).before found.reset
    rw [show (view.arriveLoad generation call answer).store = view.store from endLoad_stale (Ne.symm hother) _ _,
      endLoad_stale (Ne.symm hother)]
    exact h.newest found hold
  · exact h.answered other found page (update_arriveLoad hfound).2 hpage

theorem Asking.later (h : Asking logs view) (hlater : view.history <:+ now) :
    Asking logs { view with history := now } where
  bounded := h.bounded
  sent := fun generation call hcall => (h.sent generation call hcall).trans hlater
  newest := h.newest
  answered := fun generation call page hcall hpage => by
    obtain ⟨moments, hread⟩ := h.answered generation call page hcall hpage
    exact ⟨{ moments with past := moments.past.trans hlater }, hread⟩

theorem Walks.later (h : Walks logs base began view shown) (hlogged : Logged logs now) (hlater : view.history <:+ now) :
    Walks logs base began { view with history := now } shown where
  since := h.since
  past := h.past.trans hlater
  walked := h.walked.later hlogged hlater
  newest := h.newest

/-- What a step does to the walks: nothing, whatever the scheduler logs and the refreshes do, or one of three things. -/
theorem DecisionsStep.loads_cases (hstep : DecisionsStep sha256 logs view after) :
    SameLoads { view with history := after.history } after ∨
      (∃ reset, (reset = true ∨ view.store.pastDecisionsHasMore = true) ∧ after = view.load reset) ∨
      (∃ generation call answer, view.loads generation = some call ∧ after = view.answerLoad generation call answer ∧
        ∀ page, answer = .ok page → ∃ moments : PageMoments call.started view.history,
          resolvedDecisionsFrom (moments.reads logs) scanBudget call.before none = .ok page) ∨
      ∃ generation call answer, view.loads generation = some call ∧ call.answer = some answer ∧
        after = view.arriveLoad generation call answer := by
  cases hstep with
  | @arrive generation call answer hcall hanswer =>
      have hsame : (view.store.endRefresh generation answer).1.resolvedHistory = _ ∧ _ := endRefresh_history answer
      obtain ⟨hlist, hcursor, hmore, hgeneration⟩ := hsame
      exact .inl ⟨rfl, rfl, hlist, hcursor, hmore, hgeneration⟩
  | load reset hmore => exact .inr (.inl ⟨reset, hmore, rfl⟩)
  | answerLoad hcall hwaits moments hpage =>
      refine .inr (.inr (.inl ⟨_, _, _, hcall, rfl, fun page hsame => ⟨moments, ?_⟩⟩))
      exact Except.ok.inj hsame ▸ hpage
  | failLoad error hcall hwaits => exact .inr (.inr (.inl ⟨_, _, _, hcall, rfl, fun page hsame => by cases hsame⟩))
  | arriveLoad hcall hanswer => exact .inr (.inr (.inr ⟨_, _, _, hcall, hanswer, rfl⟩))
  | _ => exact .inl ⟨rfl, rfl, rfl, rfl, rfl, rfl⟩

theorem Asking.step (h : Asking logs view) (hstep : DecisionsStep sha256 logs view after) : Asking logs after := by
  rcases hstep.loads_cases with hsame | ⟨reset, hmore, rfl⟩ | ⟨generation, call, answer, hcall, rfl, hpage⟩ |
    ⟨generation, call, answer, hcall, hanswer, rfl⟩
  · exact (h.later hstep.grows).congr hsame
  · exact h.load hmore
  · exact h.answer hcall hpage
  · exact h.arrive

/-- **A walk goes on, or another one takes its place.** -/
theorem Walks.step (hwalks : Walks logs base began view shown) (h : Asking logs view)
    (hlogged : Logged logs after.history) (hstep : DecisionsStep sha256 logs view after) :
    ∃ began shown, Walks logs base began after shown := by
  rcases hstep.loads_cases with hsame | ⟨reset, hmore, rfl⟩ | ⟨generation, call, answer, hcall, rfl, hpage⟩ |
    ⟨generation, call, answer, hcall, hanswer, rfl⟩
  · exact ⟨began, shown, (hwalks.later hlogged hstep.grows).congr hsame⟩
  · refine ⟨began, shown, hwalks.since, hwalks.past, hwalks.walked.congr rfl rfl rfl, fun found hfound => ?_⟩
    rcases update_load hfound with ⟨-, rfl⟩ | hold
    · exact hwalks.past
    · exact absurd (h.bounded _ found hold) (Nat.not_succ_le_self _)
  · refine ⟨began, shown, { hwalks with newest := fun found hfound => ?_ }⟩
    obtain ⟨before, hbefore, -, -, hstarted, -⟩ := update_answerLoad hcall hfound
    exact hstarted ▸ hwalks.newest before hbefore
  · by_cases hnewest : generation = view.store.resolvedGeneration
    · subst hnewest
      cases answer with
      | error error =>
          have hsame : (view.store.endLoad call.reset view.store.resolvedGeneration
            (.error error)).resolvedHistory = _ ∧ _ := endLoad_failed call.reset error
          obtain ⟨hlist, hcursor, hmore, hgeneration⟩ := hsame
          refine ⟨began, shown, hwalks.since, hwalks.past, hwalks.walked.congr hlist hcursor hmore,
            fun found hfound => ?_⟩
          exact absurd (hgeneration : _ = _) (update_arriveLoad hfound).1
      | ok page =>
          cases hreset : call.reset with
          | true =>
              obtain ⟨began', shown', hfirst⟩ := h.first hlogged hcall hreset hanswer
              have hsince := (hwalks.since.trans (hwalks.newest call hcall)).trans hfirst.since
              exact ⟨began', shown', { hfirst with since := hsince }⟩
          | false =>
              obtain ⟨shown', hfurther⟩ := h.further hlogged hwalks hcall hreset hanswer
              exact ⟨began, shown', hfurther⟩
    · refine ⟨began, shown, ?_⟩
      unfold DecisionsView.arriveLoad
      rw [endLoad_stale hnewest]
      refine { hwalks with newest := fun found hfound => ?_ }
      exact hwalks.newest found ((Function.update_of_ne (Ne.symm hnewest) ..).symm.trans hfound)

/-! ### Whole runs -/

theorem DecisionsRun.asking (hrun : DecisionsRun sha256 logs view after) (h : Asking logs view) :
    Asking logs after := by
  induction hrun with
  | refl => exact h
  | step _ hstep ih => exact ih.step hstep

theorem DecisionsRun.walks (hrun : DecisionsRun sha256 logs view after) (h : Asking logs view)
    (hlogged : Logged logs after.history) (hwalks : ∃ began shown, Walks logs base began view shown) :
    ∃ began shown, Walks logs base began after shown := by
  induction hrun with
  | refl => exact hwalks
  | step hrun hstep ih =>
      obtain ⟨began, shown, hbefore⟩ := ih (hlogged.of_suffix hstep.grows)
      exact hbefore.step (hrun.asking h) hlogged hstep

/-- What is shown of the decisions that were fetched. -/
theorem pastDecisions_eq {f : Escalation → PastDecision} {fetched : List Escalation}
    (hid : ∀ e, (f e).eventId = toString e.id) (h : store.resolvedHistory = fetched.map f) :
    store.pastDecisions = (fetched.filter fun e =>
      e.id ∉ store.pendingDecisions.map DecisionBatch.eventId).map f := by
  unfold DecisionStore.pastDecisions
  rw [h, List.filter_map]
  congr 1
  refine List.filter_congr fun e _ => decide_eq_decide.mpr (not_congr ?_)
  show (f e).eventId ∈ _ ↔ _
  rw [hid, List.mem_map, List.mem_map]
  exact exists_congr fun p => and_congr_right fun _ => ⟨fun hsame => Nat.repr_injective hsame, congrArg toString⟩

/-- **The history has no gap and no duplicate.** Pages are asked for while others wait, dropped or failed, and the
queries of each are made at moments of their own, while the scheduler logs events and decisions are resolved. Once the
first page of a walk has been applied, what has been fetched is always a walk that began since that page was asked for:
decisions of the log, the newest first and none twice; none below its cursor. What is shown is what has been fetched and
is not in the pending list; and of the decisions that were in the log when the walk began, one of the two lists holds
all those that are not below the cursor, if there is one, nor were pending at some moment since. -/
theorem past_decisions_walked {pool : List (Nat × Request Unit)} {now : DecisionsView}
    (hscheduler : SchedulerRun pool now.history)
    (hlogs : ∀ moment, moment <:+ now.history → Mirrors (current moment) (logs moment))
    (hbefore : DecisionsRun sha256 logs .start view) (hcall : view.loads view.store.resolvedGeneration = some call)
    (hreset : call.reset = true) (hanswer : call.answer = some (.ok page))
    (hafter : DecisionsRun sha256 logs (view.arriveLoad view.store.resolvedGeneration call (.ok page)) now) :
    ∃ (began : History) (fetched : List Escalation), call.started <:+ began ∧ began <:+ now.history ∧
      now.store.resolvedHistory =
        fetched.map (fun e => mapResponseToSummary (summary (current now.history) e)) ∧
      now.store.pastDecisions =
        (fetched.filter fun e => e.id ∉ now.store.pendingDecisions.map DecisionBatch.eventId).map
          (fun e => mapResponseToSummary (summary (current now.history) e)) ∧
      (fetched.Pairwise fun a b => b.id < a.id) ∧ (now.store.resolvedHistory.map PastDecision.eventId).Nodup ∧
      (now.store.pastDecisions.map PastDecision.eventId).Nodup ∧
      (∀ e ∈ fetched, ∃ row ∈ (current now.history).events.rows, asEscalation row = some e) ∧
      (now.store.pastDecisionsHasMore = true → ∃ last : Nat, now.store.pastDecisionsCursor = some (toString last) ∧
        ∀ e ∈ fetched, last ≤ e.id) ∧
      ∀ row ∈ (current began).events.rows, ∀ e, asEscalation row = some e →
        toString e.id ∈ now.store.pastDecisions.map PastDecision.eventId ∨
        e.id ∈ now.store.pendingDecisions.map DecisionBatch.eventId ∨
        (∃ moment, began <:+ moment ∧ moment <:+ now.history ∧ e.id ∈ pendingNow (current moment) (logs moment)) ∨
        now.store.pastDecisionsHasMore = true ∧
          ∀ last : Nat, now.store.pastDecisionsCursor = some (toString last) → e.id < last := by
  have hlogged : Logged logs now.history := ⟨hscheduler.disciplined, hlogs⟩
  have hasking := hbefore.asking .start
  have hfirst := hasking.first (hlogged.of_suffix hafter.grows) hcall hreset hanswer
  obtain ⟨began, fetched, hwalks⟩ := hafter.walks hasking.arrive hlogged hfirst
  obtain ⟨hlist, hdescending, hin, hcursor, hcomplete⟩ := hwalks.walked
  have hshown := pastDecisions_eq (fun _ => rfl) hlist
  have hnodup : (now.store.resolvedHistory.map PastDecision.eventId).Nodup := by
    rw [hlist, List.map_map]
    refine List.pairwise_map.mpr (hdescending.imp fun {a b} hab heq => ?_)
    exact Nat.ne_of_gt hab (Nat.repr_injective heq)
  refine ⟨began, fetched, hwalks.since, hwalks.past, hlist, hshown, hdescending, hnodup,
    hnodup.sublist (List.filter_sublist.map _), hin, fun hmore => ?_, fun row hrow e hread => ?_⟩
  · obtain ⟨last, hat, -, -, hlast⟩ := hcursor hmore
    exact ⟨last, hat, hlast⟩
  · rcases hcomplete row hrow e hread with hfetched | hrest
    · by_cases hheld : e.id ∈ now.store.pendingDecisions.map DecisionBatch.eventId
      · exact .inr (.inl hheld)
      · refine .inl ?_
        rw [hshown, List.map_map]
        exact List.mem_map.mpr ⟨e, List.mem_filter.mpr ⟨hfetched, decide_eq_true hheld⟩, rfl⟩
    · exact .inr (.inr hrest)

end Walks

/-- The client once a decision has been raised: it asks for the pending list, and then for the first page. -/
def unread : DecisionsView := { DecisionsView.start with history := (historyOf raisedTwice).drop 6 }

def listing (moment : History) (etag : Option String) : PendingDecisionsResult :=
  pendingResult (pendingResponse checksum (current moment) (current moment) (storedLog moment) none etag)

def reading : DecisionsView :=
  { ((unread.refresh.answer 1 ⟨none, unread.history, none⟩ (.ok (listing unread.history none))).arrive 1
      (.ok (listing unread.history none))).load true with history := historyOf raisedTwice }

/-- The decision is dismissed before the active executions are read, and raised again before the first chunk is. -/
def readingMoments : PageMoments unread.history (historyOf raisedTwice) where
  active := (historyOf raisedTwice).drop 4
  scanned := (historyOf raisedTwice).drop 4
  chunks := fun _ => historyOf raisedTwice
  activeAfter := historyOf raisedTwice
  scannedAfter := historyOf raisedTwice
  titles := historyOf raisedTwice
  below := historyOf raisedTwice
  sent := by
    rw [show unread.history = ((historyOf raisedTwice).drop 4).drop 2 by rw [List.drop_drop]; rfl]
    exact List.drop_suffix ..
  scan := List.suffix_refl _
  walk := List.drop_suffix ..
  onward := fun _ => List.suffix_refl _
  walked := fun _ => List.suffix_refl _
  rescan := List.suffix_refl _
  named := List.suffix_refl _
  ends := List.suffix_refl _
  past := List.suffix_refl _

/-- The second scan leaves the one out that was raised again. -/
def firstPage : PageV1 DecisionSummary :=
  resolvedPage (readingMoments.reads storedLog)
    (walkChunks scanBudget.chunk
      (pendingScanned (current readingMoments.active) (current readingMoments.scanned)
        (storedLog readingMoments.scanned))
      decisionsResolvedDefaultPage (fun n => storedLog (readingMoments.chunks n)) scanBudget.chunks none
      { found := [], lowestInspected := none, exhausted := false })

def haveRead : DecisionsView :=
  (reading.answerLoad 1 ⟨true, none, unread.history, none⟩ (.ok firstPage)).arriveLoad 1
    ⟨true, none, unread.history, some (.ok firstPage)⟩ (.ok firstPage)

/-- It shows the decision as resolved once the pending list has been refreshed. -/
theorem past_decisions_walked_raised : ∃ now : DecisionsView, now.history = historyOf raisedTwice ∧
    (now.store.pastDecisions.map PastDecision.eventId).Nodup ∧
    haveRead.store.pendingDecisions.map DecisionBatch.eventId = [3] ∧
    now.store.pastDecisions.map PastDecision.eventId = ["3"] ∧
    now.store.pendingDecisions.map DecisionBatch.eventId = [5] := by
  obtain ⟨pool, hscheduler⟩ := historyOf_run raisedTwice
  have hlogs := mirrors_storedLog (reachable_of_trace hscheduler.disciplined) (by decide +kernel)
  have hunread : DecisionsRun checksum storedLog .start unread :=
    .step .refl (served_to (@List.nil_suffix _ ((historyOf raisedTwice).drop 6)))
  have hlisting : unread.refresh.refreshes 1 = some ⟨none, unread.history, none⟩ := rfl
  have hlisted := ((hunread.step (.refresh false rfl)).step (.answer hlisting rfl (List.suffix_refl _)
    (List.suffix_refl _))).step (.arrive (Function.update_self ..) rfl)
  have hreading : DecisionsRun checksum storedLog .start reading :=
    (hlisted.step (.load true (.inl rfl))).step (served_to (List.drop_suffix 6 (historyOf raisedTwice)))
  have hcall : reading.loads 1 = some ⟨true, none, unread.history, none⟩ := rfl
  have hpage : resolvedDecisionsFrom (readingMoments.reads storedLog) scanBudget none none = .ok firstPage := rfl
  have hread := hreading.step (.answerLoad hcall rfl readingMoments hpage)
  have hrefreshed : DecisionsRun checksum storedLog haveRead haveRead.refresh := .step .refl (.refresh false rfl)
  have hagain : haveRead.refresh.refreshes 2 = some ⟨haveRead.store.pendingEtag, historyOf raisedTwice, none⟩ := rfl
  have hafter := (hrefreshed.step (.answer hagain rfl (List.suffix_refl _) (List.suffix_refl _))).step
    (.arrive (Function.update_self ..) rfl)
  obtain ⟨began, fetched, -, -, -, -, -, -, hnodup, -⟩ :=
    past_decisions_walked hscheduler hlogs hread rfl rfl rfl hafter
  refine ⟨_, rfl, hnodup, ?_⟩
  decide +kernel

end AgentBeacon.Web
