import AgentBeacon.Api.ResolvedDecisions
import AgentBeacon.Api.Sessions
import AgentBeacon.Correctness.Resolutions

/-!
# `Correctness.ResolvedDecisions` — the history is complete

A request looks at the rows of the platform lane from its cursor downwards and stops at some row: the
page is full, the budget is spent, or the lane has ended. Whatever the reason, it has looked at a prefix
of what was left (`Stops`), lists what that prefix holds, and its cursor is the last row of it, so that
the next request goes on with the rest. Following the cursors therefore reads the lane once.
-/

namespace AgentBeacon
open Resolution Keyset DecisionsApi

variable {db : Db} {log : EventLog} {budget : ScanBudget} {pending : List Nat} {limit : Int}

/-! ## The lane, read downwards -/

/-- The rows that are left at a cursor, the newest first. -/
def EventLog.lane (log : EventLog) (cursor : Option Int) : List StoredEvent :=
  (log.platformBelow cursor).reverse

/-- What a row is listed as. -/
def picked (pending : List Nat) (row : StoredEvent) : Option Escalation :=
  (parseEventRow row).bind (listedAs pending)

theorem lane_ascending (cursor : Option Int) :
    Ascending StoredEvent.id (log.platformBelow cursor) := by
  cases cursor with
  | none => exact log.ascending.filter _
  | some cursor => exact (log.ascending.filter _).filter _

/-- **Below a row of the lane stands the rest of it.** -/
theorem lane_of_split {cursor : Option Int} {seen rest : List StoredEvent} {row : StoredEvent}
    (h : log.lane cursor = seen ++ row :: rest) : log.lane (some (row.id : Int)) = rest := by
  have hasc := EventLog.ascending_of_ids (log.ascending.filter fun row => row.eventType = .platform)
  have hwindow : log.platformBelow cursor = rest.reverse ++ row :: seen.reverse := by
    have hrev := congrArg List.reverse h
    rw [EventLog.lane, List.reverse_reverse] at hrev
    simpa using hrev
  have hrest : log.platformBelow (some (row.id : Int)) = rest.reverse := by
    cases cursor with
    | none =>
        have hrows : log.rows.filter (fun row => row.eventType = .platform) =
            rest.reverse ++ row :: seen.reverse := hwindow
        show below (fun row : StoredEvent => (row.id : Int)) row.id
          (log.rows.filter fun row => row.eventType = .platform) = rest.reverse
        rw [hrows] at hasc ⊢
        exact below_split hasc
    | some cursor => exact below_of_window hasc hwindow
  rw [EventLog.lane, hrest, List.reverse_reverse]

theorem keys_of_lane {cursor : Option Int} {row : StoredEvent} (h : row ∈ log.lane cursor) :
    0 < row.id ∧ row.id ≤ maxRowId := by
  have hrow := List.mem_reverse.mp h
  cases cursor with
  | none => exact log.keys row (List.mem_filter.mp hrow).1
  | some cursor => exact log.keys row (List.mem_filter.mp (List.mem_filter.mp hrow).1).1

/-- No id is read twice. -/
theorem nodup_of_lane (cursor : Option Int) (chunk : Nat) :
    (((log.lane cursor).take chunk).map StoredEvent.id).Nodup := by
  have hasc : ((log.platformBelow cursor).map StoredEvent.id).Nodup := by
    refine List.Pairwise.map _ (fun a b hab => ?_) (lane_ascending cursor)
    exact Nat.ne_of_lt hab
  refine List.Nodup.sublist (List.Sublist.map _ (List.take_sublist _ _)) ?_
  rw [EventLog.lane, List.map_reverse]
  exact List.nodup_reverse.mpr hasc

/-- The decoded rows of a chunk, looked up by id. -/
theorem find_decoded {rows : List StoredEvent} (hnodup : (rows.map StoredEvent.id).Nodup)
    {row : StoredEvent} (hrow : row ∈ rows) :
    (decoded rows).find? (fun e => e.id = row.id) = parseEventRow row := by
  cases hparse : parseEventRow row with
  | some event =>
      have hmem : event ∈ decoded rows := List.mem_filterMap.mpr ⟨row, hrow, hparse⟩
      have hid := id_of_parse hparse
      have hsome : ((decoded rows).find? fun e => e.id = row.id).isSome := by
        rw [List.find?_isSome]
        exact ⟨event, hmem, by simp [hid]⟩
      obtain ⟨found, hfound⟩ := Option.isSome_iff_exists.mp hsome
      have hfid : found.id = row.id := by simpa using List.find?_some hfound
      have hstored := mem_decoded.mp (List.mem_of_find?_eq_some hfound)
      have hsame : found.stored = event.stored :=
        List.inj_on_of_nodup_map hnodup hstored (mem_decoded.mp hmem) (hfid.trans hid.symm)
      rw [hfound]
      exact congrArg some (Option.some.inj (by
        rw [← parseEventRow_stored found, hsame, parseEventRow_stored]))
  | none =>
      rw [List.find?_eq_none]
      intro event hmem hid
      have hstored := mem_decoded.mp hmem
      have hkey : event.id = row.id := by simpa using hid
      have hsame : event.stored = row := List.inj_on_of_nodup_map hnodup hstored hrow hkey
      rw [← hsame, parseEventRow_stored] at hparse
      cases hparse

/-! ## Where a walk stops -/

/-- A walk over `rows` that began with `start` has looked at `seen` and at nothing else. -/
structure Stops (pending : List Nat) (seen : List StoredEvent) (start final : Progress) : Prop where
  found : final.found = start.found ++ seen.filterMap (picked pending)
  lowest : final.lowestInspected = (seen.getLast?.map StoredEvent.id).or start.lowestInspected

theorem Stops.refl (start : Progress) : Stops pending [] start start := ⟨by simp, by simp⟩

theorem Stops.trans {seen seen' : List StoredEvent} {start mid final : Progress}
    (h : Stops pending seen start mid) (h' : Stops pending seen' mid final) :
    Stops pending (seen ++ seen') start final := by
  constructor
  · rw [h'.found, h.found, List.filterMap_append, List.append_assoc]
  · rw [h'.lowest, h.lowest]
    cases seen' with
    | nil => simp
    | cons row rest =>
        obtain ⟨last, hlast⟩ := Option.isSome_iff_exists.mp
          (List.getLast?_isSome.mpr (List.cons_ne_nil row rest))
        simp [List.getLast?_append, hlast]

/-- **A chunk is inspected up to some row**; without its page being full, to its end. -/
theorem inspectChunk_stops (lookup : Nat → Option EventRow) (pending : List Nat) (limit : Int)
    {rows : List StoredEvent}
    (hlookup : ∀ row ∈ rows, lookup row.id = parseEventRow row) (start : Progress) :
    ∃ seen rest, rows = seen ++ rest ∧ (rows ≠ [] → seen ≠ []) ∧
      (inspectChunk lookup pending limit (rows.map StoredEvent.id) start).2 = seen.length ∧
      Stops pending seen start
        (inspectChunk lookup pending limit (rows.map StoredEvent.id) start).1 ∧
      (inspectChunk lookup pending limit (rows.map StoredEvent.id) start).1.exhausted =
        start.exhausted := by
  induction rows generalizing start with
  | nil => exact ⟨[], [], rfl, id, rfl, Stops.refl start, rfl⟩
  | cons row rows ih =>
      have ih := ih fun row' hrow' => hlookup row' (List.mem_cons_of_mem row hrow')
      have hrow : (lookup row.id).bind (listedAs pending) = picked pending row := by
        rw [hlookup row List.mem_cons_self]
        rfl
      simp only [List.map_cons, inspectChunk, hrow]
      cases hpick : picked pending row with
      | none =>
          obtain ⟨seen, rest, hsplit, -, hlen, hstops, hex⟩ :=
            ih { start with lowestInspected := some row.id }
          refine ⟨row :: seen, rest, by rw [hsplit]; rfl, by simp, ?_, ?_, hex⟩
          · simp only [hlen, List.length_cons]
          · have hone : Stops pending [row] start { start with lowestInspected := some row.id } :=
              ⟨by simp [hpick], by simp⟩
            exact hone.trans hstops
      | some escalation =>
          have hone : Stops pending [row] start { start with
              lowestInspected := some row.id, found := start.found ++ [escalation] } :=
            ⟨by simp [hpick], by simp⟩
          simp only
          split
          · exact ⟨[row], rows, rfl, by simp, rfl, hone, rfl⟩
          · obtain ⟨seen, rest, hsplit, -, hlen, hstops, hex⟩ := ih { start with
              lowestInspected := some row.id, found := start.found ++ [escalation] }
            refine ⟨row :: seen, rest, by rw [hsplit]; rfl, by simp, ?_, hone.trans hstops, hex⟩
            simp only [hlen, List.length_cons]

/-- **One chunk**: the lane has ended, or a front of it is inspected, after which the walk stops, finds
that this was all of it, or goes on below the last row. -/
theorem walkChunks_chunk (logs : Nat → EventLog) (pending : List Nat) (limit : Int) {chunk : Nat}
    (hchunk : 0 < chunk) (n : Nat) (cursor : Option Int) (start : Progress) (hstart : start.exhausted = false) :
    (logs 0).lane cursor = [] ∧
        walkChunks chunk pending limit logs (n + 1) cursor start = { start with exhausted := true } ∨
      ∃ init last rest progress, (logs 0).lane cursor = init ++ last :: rest ∧
        Stops pending (init ++ [last]) start progress ∧ progress.exhausted = false ∧
        (walkChunks chunk pending limit logs (n + 1) cursor start = progress ∨
          rest = [] ∧ walkChunks chunk pending limit logs (n + 1) cursor start = { progress with exhausted := true } ∨
          walkChunks chunk pending limit logs (n + 1) cursor start =
            walkChunks chunk pending limit (fun i => logs (i + 1)) n (some (last.id : Int)) progress) := by
  generalize hlog : logs 0 = log
  have hids : (log.scanPlatformDescending cursor chunk).ids =
      ((log.lane cursor).take chunk).map StoredEvent.id := rfl
  have hevents : (log.scanPlatformDescending cursor chunk).events =
      decoded ((log.lane cursor).take chunk) := rfl
  have hscanned : (log.scanPlatformDescending cursor chunk).scanned =
      ((log.lane cursor).take chunk).length := by
    rw [EventScan.scanned, hids, List.length_map]
  rw [walkChunks]
  simp only [hlog, hscanned, hids, hevents]
  by_cases hnone : ((log.lane cursor).take chunk).length = 0
  · -- nothing is left
    rw [if_pos hnone]
    rw [List.length_take] at hnone
    exact .inl ⟨List.eq_nil_of_length_eq_zero (by omega), rfl⟩
  · rw [if_neg hnone]
    obtain ⟨seen, rest, hsplit, hseen, hlen, hstops, hex⟩ := inspectChunk_stops
      (fun id => (decoded ((log.lane cursor).take chunk)).find? fun e => e.id = id) pending limit
      (fun row hrow => find_decoded (nodup_of_lane cursor chunk) hrow) start
    have hne : (log.lane cursor).take chunk ≠ [] := by
      intro hnil
      rw [hnil] at hnone
      exact hnone rfl
    have hlane : log.lane cursor = seen ++ (rest ++ (log.lane cursor).drop chunk) := by
      rw [← List.append_assoc, ← hsplit, List.take_append_drop]
    generalize inspectChunk _ pending limit _ start = inspected at hlen hstops hex
    obtain ⟨init, last, rfl⟩ : ∃ init last, seen = init ++ [last] := by
      rcases List.eq_nil_or_concat seen with hnil | ⟨init, last, hconcat⟩
      · exact absurd hnil (hseen hne)
      · exact ⟨init, last, by simpa using hconcat⟩
    refine .inr ⟨init, last, rest ++ (log.lane cursor).drop chunk, inspected.1, by simpa using hlane, hstops,
      hex.trans hstart, ?_⟩
    by_cases hpart : inspected.2 < ((log.lane cursor).take chunk).length
    · -- the page was full within the chunk
      exact .inl (if_pos hpart)
    · rw [if_neg hpart]
      have hrest : rest = [] := by
        have htake := congrArg List.length hsplit
        rw [List.length_append] at htake
        exact List.eq_nil_of_length_eq_zero (by omega)
      by_cases hshort : ((log.lane cursor).take chunk).length < chunk
      · -- a short chunk is the end of the lane
        rw [if_pos hshort]
        rw [List.length_take] at hshort
        exact .inr (.inl ⟨by rw [hrest, List.drop_eq_nil_of_le (by omega)]; rfl, rfl⟩)
      · rw [if_neg hshort]
        by_cases hfull : limit ≤ inspected.1.found.length
        · exact .inl (if_pos hfull)
        · -- on with the rest of the lane, below the last row of the chunk
          rw [if_neg hfull]
          have hlowest : inspected.1.lowestInspected.map (fun id => (id : Int)) = some (last.id : Int) := by
            rw [hstops.lowest]
            simp
          rw [hlowest]
          exact .inr (.inr rfl)

/-- **A request looks at the rows from its cursor down to some row**: at one at least, if there is one
and there is a budget; and it only takes the lane for exhausted when it has seen all of it. -/
theorem walkChunks_stops (log : EventLog) (pending : List Nat) (limit : Int) {chunk : Nat}
    (hchunk : 0 < chunk) (n : Nat) (cursor : Option Int) (start : Progress) (hstart : start.exhausted = false) :
    ∃ seen rest, log.lane cursor = seen ++ rest ∧ (0 < n → log.lane cursor ≠ [] → seen ≠ []) ∧
      Stops pending seen start (walkChunks chunk pending limit (fun _ => log) n cursor start) ∧
      ((walkChunks chunk pending limit (fun _ => log) n cursor start).exhausted = true → rest = []) := by
  induction n generalizing cursor start with
  | zero =>
      refine ⟨[], log.lane cursor, rfl, fun h => absurd h (Nat.lt_irrefl 0), Stops.refl start, ?_⟩
      intro hex
      rw [walkChunks, hstart] at hex
      cases hex
  | succ n ih =>
      rcases walkChunks_chunk (fun _ => log) pending limit hchunk n cursor start hstart with
        ⟨hempty, hend⟩ | ⟨init, last, rest, progress, hlane, hstops, hopen, hend | ⟨hrest, hend⟩ | hend⟩
      · rw [hend]
        exact ⟨[], [], hempty, fun _ hne => absurd hempty hne, ⟨by simp, by simp⟩, fun _ => rfl⟩
      · rw [hend]
        refine ⟨init ++ [last], rest, by simpa using hlane, fun _ _ => by simp, hstops, fun h => ?_⟩
        rw [hopen] at h
        cases h
      · rw [hend]
        exact ⟨init ++ [last], rest, by simpa using hlane, fun _ _ => by simp, ⟨hstops.found, hstops.lowest⟩,
          fun _ => hrest⟩
      · rw [hend]
        obtain ⟨seen', rest', hsplit', -, hstops', hrest'⟩ := ih (some (last.id : Int)) progress hopen
        rw [lane_of_split hlane] at hsplit'
        refine ⟨init ++ [last] ++ seen', rest', ?_, fun _ _ => by simp, hstops.trans hstops', hrest'⟩
        rw [List.append_assoc, List.append_assoc, List.singleton_append, ← hsplit']
        exact hlane

/-! ## One page -/

/-- What an answered request leaves for the next: its page lists what it has looked at, and it says
that there is more exactly when there is. -/
structure Lists (db : Db) (log : EventLog) (seen rest : List StoredEvent)
    (page : PageV1 DecisionSummary) : Prop where
  items : page.items = (seen.filterMap (picked (pendingNow db log))).map (summary db)
  more : page.hasMore = true ↔ rest ≠ []
  cursor : page.hasMore = true → ∃ init row, seen = init ++ [row] ∧
    page.nextCursor = some (toString row.id)

/-- What is listed is not pending. -/
theorem filter_picked (pending : List Nat) (rows : List StoredEvent) :
    (rows.filterMap (picked pending)).filter (fun e => e.id ∉ pending) =
      rows.filterMap (picked pending) := by
  rw [List.filter_eq_self]
  intro escalation hmem
  obtain ⟨row, -, hpick⟩ := List.mem_filterMap.mp hmem
  obtain ⟨event, -, hlisted⟩ := Option.bind_eq_some_iff.mp hpick
  unfold listedAs at hlisted
  obtain ⟨sessionId, -, hlisted⟩ := Option.bind_eq_some_iff.mp hlisted
  obtain ⟨data, -, hlisted⟩ := Option.bind_eq_some_iff.mp hlisted
  split at hlisted
  · cases hlisted
  · rename_i hnot
    rw [← Option.some.inj hlisted]
    simpa using hnot

/-- **Every accepted request lists a prefix of what is left.** -/
theorem page_lists (db : Db) (log : EventLog) (budget : ScanBudget) {before : Option String}
    {limit : Option Int} {n : Int} {cursor : Option Int} (hlimit : resolvedLimit limit = .ok n)
    (hcursor : resolvedCursor before = .ok cursor) :
    ∃ page seen rest, resolvedDecisions db log budget before limit = .ok page ∧
      log.lane cursor = seen ++ rest ∧ Lists db log seen rest page := by
  obtain ⟨seen, rest, hsplit, hseen, hstops, hend⟩ := walkChunks_stops log (pendingNow db log) n
    budget.chunk_pos budget.chunks cursor
    { found := [], lowestInspected := none, exhausted := false } rfl
  have hseen := hseen budget.chunks_pos
  unfold resolvedDecisions resolvedDecisionsFrom
  rw [hlimit, hcursor]
  simp only [bind, Except.bind, pure, Except.pure]
  change ∃ page seen rest, Except.ok (resolvedPage (.still db log)
    (walkChunks budget.chunk (pendingNow db log) n (fun _ => log) budget.chunks cursor _)) = Except.ok page ∧ _
  generalize walkChunks budget.chunk (pendingNow db log) n (fun _ => log) budget.chunks cursor _ = progress
    at hstops hend ⊢
  refine ⟨_, seen, rest, rfl, hsplit, ?_⟩
  have hitems : (progress.found.filter fun e => e.id ∉ pendingNow db log) =
      seen.filterMap (picked (pendingNow db log)) := by
    rw [hstops.found, List.nil_append, filter_picked]
  rcases List.eq_nil_or_concat seen with rfl | ⟨init, row, hconcat⟩
  · -- nothing was left
    have hrest : rest = [] := by
      by_contra hne
      have hlane : log.lane cursor ≠ [] := by
        rw [hsplit]
        exact hne
      exact hseen hlane rfl
    have hlowest : progress.lowestInspected = none := hstops.lowest
    unfold resolvedPage hasMoreBelow
    simp only [hlowest]
    exact ⟨congrArg (List.map (summary db)) hitems, by simp [hrest], by simp⟩
  · have hconcat : seen = init ++ [row] := by simpa using hconcat
    have hlowest : progress.lowestInspected = some row.id := by
      rw [hstops.lowest, hconcat]
      simp
    have hbelow : log.lane (some (row.id : Int)) = rest := by
      have hlane : log.lane cursor = init ++ row :: rest := by
        rw [hsplit, hconcat, List.append_assoc]
        rfl
      exact lane_of_split hlane
    have hexist : log.platformRowsExistBelow (row.id : Int) = true ↔ rest ≠ [] := by
      rw [← hbelow]
      simp [EventLog.platformRowsExistBelow, EventLog.lane]
    unfold resolvedPage hasMoreBelow
    simp only [hlowest]
    by_cases hex : progress.exhausted = true
    · simp only [hex, if_true]
      exact ⟨congrArg (List.map (summary db)) hitems, by simp [hend hex], by simp⟩
    · simp only [hex]
      refine ⟨congrArg (List.map (summary db)) hitems, hexist, fun hmore => ⟨init, row, hconcat, ?_⟩⟩
      have hmore : (ResolvedReads.still db log).below.platformRowsExistBelow (row.id : Int) = true := hmore
      simp [hmore]

/-! ## Whole walks -/

theorem resolvedCursor_toString {row : StoredEvent} (h : 0 < row.id ∧ row.id ≤ maxRowId) :
    resolvedCursor (some (toString row.id)) = .ok (some (row.id : Int)) := by
  unfold resolvedCursor
  simp only [parseCursor_toString h, Except.map]

/-- **A walk ends**: each page leaves fewer rows. -/
theorem follows_exists (db : Db) (log : EventLog) (budget : ScanBudget) {limits : Nat → Option Int}
    (hlimits : ∀ i, ∃ n, resolvedLimit (limits i) = .ok n) {before : Option String}
    {cursor : Option Int} (hcursor : resolvedCursor before = .ok cursor) :
    ∃ pages, Follows db log budget limits before pages := by
  generalize hlen : (log.lane cursor).length = len
  induction len using Nat.strong_induction_on generalizing limits before cursor with
  | _ len ih =>
      obtain ⟨n, hlimit⟩ := hlimits 0
      obtain ⟨page, seen, rest, hpage, hsplit, hlists⟩ := page_lists db log budget hlimit hcursor
      by_cases hmore : page.hasMore = true
      · obtain ⟨init, row, rfl, hnext⟩ := hlists.cursor hmore
        have hlane : log.lane cursor = init ++ row :: rest := by
          rw [hsplit, List.append_assoc]
          rfl
        have hrow : row ∈ log.lane cursor := by rw [hlane]; simp
        have hbelow := lane_of_split hlane
        have hshorter : rest.length < len := by
          rw [← hlen, hlane, List.length_append, List.length_cons]
          omega
        obtain ⟨pages, hpages⟩ := ih rest.length hshorter (fun i => hlimits (i + 1))
          (resolvedCursor_toString (keys_of_lane hrow)) (congrArg List.length hbelow)
        exact ⟨page :: pages, .more hpage hmore hnext hpages⟩
      · exact ⟨[page], .last hpage (by simpa using hmore)⟩

/-- **A walk lists what is left at its start**, in the order of the lane. -/
theorem follows_lists {limits : Nat → Option Int} {before : Option String}
    {pages : List (PageV1 DecisionSummary)} (h : Follows db log budget limits before pages)
    (hlimits : ∀ i, ∃ n, resolvedLimit (limits i) = .ok n) {cursor : Option Int}
    (hcursor : resolvedCursor before = .ok cursor) :
    pages.flatMap PageV1.items =
      ((log.lane cursor).filterMap (picked (pendingNow db log))).map (summary db) := by
  induction h generalizing cursor with
  | @last limits before page hpage hend =>
      obtain ⟨n, hlimit⟩ := hlimits 0
      obtain ⟨page', seen, rest, hpage', hsplit, hlists⟩ := page_lists db log budget hlimit hcursor
      obtain rfl : page' = page := Except.ok.inj (hpage'.symm.trans hpage)
      have hrest : rest = [] := by
        by_contra hne
        rw [hlists.more.mpr hne] at hend
        cases hend
      rw [List.flatMap_cons, List.flatMap_nil, List.append_nil, hlists.items, hsplit, hrest,
        List.append_nil]
  | @more limits before page text pages hpage hmore hnext hrest ih =>
      obtain ⟨n, hlimit⟩ := hlimits 0
      obtain ⟨page', seen, rest, hpage', hsplit, hlists⟩ := page_lists db log budget hlimit hcursor
      obtain rfl : page' = page := Except.ok.inj (hpage'.symm.trans hpage)
      obtain ⟨init, row, rfl, htext⟩ := hlists.cursor hmore
      obtain rfl : text = toString row.id := Option.some.inj (hnext.symm.trans htext)
      have hlane : log.lane cursor = init ++ row :: rest := by
        rw [hsplit, List.append_assoc]
        rfl
      have hrow : row ∈ log.lane cursor := by rw [hlane]; simp
      have hread := ih (fun i => hlimits (i + 1)) (resolvedCursor_toString (keys_of_lane hrow))
      rw [List.flatMap_cons, hread, hlists.items, lane_of_split hlane, hsplit, ← List.map_append,
        ← List.filterMap_append]

/-- The escalations of the log that are not pending, the newest first. -/
def resolvedHistory (db : Db) (log : EventLog) : List Escalation :=
  ((decoded log.rows).filterMap asEscalation).reverse.filter fun e => e.id ∉ pendingNow db log

theorem mem_resolvedHistory {escalation : Escalation} :
    escalation ∈ resolvedHistory db log ↔
      (∃ event ∈ decoded log.rows, asEscalation event = some escalation) ∧
        escalation.id ∉ pendingNow db log := by
  simp [resolvedHistory, List.mem_filter, List.mem_filterMap]

/-- A row of the platform lane is listed as its escalation, unless that is pending. -/
theorem picked_of_platform {row : StoredEvent} (hplatform : row.eventType = .platform) :
    picked pending row =
      ((parseEventRow row).bind asEscalation).filter fun e => e.id ∉ pending := by
  cases hparse : parseEventRow row with
  | none => simp [picked, hparse]
  | some event =>
      obtain rfl := stored_of_parse hparse
      have hevent : event.eventType = .platform := hplatform
      simp only [picked, parseEventRow_stored, Option.bind_some, listedAs, asEscalation, hevent,
        ne_eq, not_true_eq_false, if_false]
      cases event.sessionId with
      | none => rfl
      | some sessionId =>
          cases escalationData event.payload with
          | none => rfl
          | some data => by_cases hpending : event.id ∈ pending <;> simp [Option.filter, hpending]

/-- **The whole lane lists the history.** -/
theorem lane_lists (db : Db) (log : EventLog) :
    (log.lane none).filterMap (picked (pendingNow db log)) = resolvedHistory db log := by
  have hrow : ∀ row : StoredEvent,
      (if row.eventType = .platform then picked (pendingNow db log) row else none) =
        ((parseEventRow row).bind asEscalation).filter fun e => e.id ∉ pendingNow db log := by
    intro row
    split
    · rename_i hplatform
      exact picked_of_platform hplatform
    · rename_i hother
      cases hparse : parseEventRow row with
      | none => rfl
      | some event =>
          obtain rfl := stored_of_parse hparse
          have hevent : event.eventType ≠ .platform := hother
          simp [asEscalation, hevent]
  have hlane : (log.rows.filter fun row => row.eventType = .platform).filterMap
      (picked (pendingNow db log)) =
        ((decoded log.rows).filterMap asEscalation).filter fun e => e.id ∉ pendingNow db log := by
    rw [List.filterMap_filter, decoded, List.filterMap_filterMap, List.filter_filterMap]
    refine List.filterMap_congr fun row _ => ?_
    simpa using hrow row
  show (log.rows.filter fun row => row.eventType = .platform).reverse.filterMap _ = _
  rw [List.filterMap_reverse, hlane, resolvedHistory, List.filter_reverse]

/-- The history is in descending order of the ids. -/
theorem resolvedHistory_descending (db : Db) (log : EventLog) :
    (resolvedHistory db log).Pairwise fun a b => b.id < a.id := by
  refine List.Pairwise.filter _ (List.pairwise_reverse.mpr ?_)
  rw [decoded, List.filterMap_filterMap, List.pairwise_filterMap]
  refine log.ascending.imp fun {a b} hab x hx y hy => ?_
  have hid : ∀ {row : StoredEvent} {e : Escalation},
      (parseEventRow row).bind asEscalation = some e → e.id = row.id := by
    intro row e h
    obtain ⟨event, hparse, hescalation⟩ := Option.bind_eq_some_iff.mp h
    unfold asEscalation at hescalation
    split at hescalation
    · cases hescalation
    · obtain ⟨sessionId, -, hescalation⟩ := Option.bind_eq_some_iff.mp hescalation
      obtain ⟨data, -, hescalation⟩ := Option.bind_eq_some_iff.mp hescalation
      rw [← Option.some.inj hescalation]
      exact id_of_parse hparse
  rw [hid hx, hid hy]
  exact hab

/-! ### Who is in it -/

section Pending

variable {event : EventRow} {escalation : Escalation} {ids : List ExecutionId}

theorem activeExecutions_all {id : ExecutionId} : id ∈ activeExecutions db none ↔
    ∃ x, db.execution? id = some x ∧ executionActive x = true := by
  constructor
  · intro hid
    obtain ⟨x, hx, rfl⟩ := List.mem_map.mp (List.mem_filter.mp hid).1
    obtain ⟨hrow, hopen⟩ := List.mem_filter.mp hx
    exact ⟨x, Relational.Table.find?_of_mem hrow, hopen⟩
  · rintro ⟨x, hx, hopen⟩
    exact Db.id_of_execution? hx ▸ mem_activeExecutions (Db.mem_of_execution? hx) hopen
      fun _ hnone => (by cases hnone)

/-- A scan finds an escalation of its executions under its id, if the session is one of the execution. -/
theorem scanned_iff (hevent : event ∈ decoded log.rows) (hread : asEscalation event = some escalation)
    {scanned : Escalation} :
    scanned ∈ (scanPending db log ids).escalations ∧ scanned.id = escalation.id ↔
      scanned = escalation ∧ escalation.executionId ∈ ids ∧ sessionCoherent db event = true := by
  obtain ⟨hplatform, -, -, -, hexec⟩ := asEscalation_eq_some hread
  unfold scanPending
  rw [mem_escalations fun window hw => (mem_listPlatformEvents.mp hw).2.2.1]
  constructor
  · rintro ⟨hnil | ⟨window, hwindow, hcoherent, hreads⟩, hid⟩
    · cases hnil
    · -- one id is one row
      obtain ⟨hstored, hin, -, hlooked⟩ := mem_listPlatformEvents.mp hwindow
      have hkey : window.event.stored.id = event.stored.id :=
        (id_of_asEscalation hreads).symm.trans (hid.trans (id_of_asEscalation hread))
      have hsame := stored_injective (log.ascending.unique hstored (mem_decoded.mp hevent) hkey)
      rw [hsame] at hin hlooked hreads
      exact ⟨Option.some.inj (hreads.symm.trans hread), hexec ▸ hin, hlooked ▸ hcoherent⟩
  · rintro ⟨rfl, hin, hcoherent⟩
    exact ⟨.inr ⟨⟨event, sessionCoherent db event⟩, mem_listPlatformEvents.mpr
      ⟨mem_decoded.mp hevent, hexec.symm ▸ hin, hplatform, rfl⟩, hcoherent, hread⟩, rfl⟩

/-- And finds it resolved, if an event that is no escalation resolves it. -/
theorem isResolved_scan (hread : asEscalation event = some escalation) (hin : escalation.executionId ∈ ids)
    (hcoherent : sessionCoherent db event = true) :
    (scanPending db log ids).isResolved escalation = true ↔
      ∃ marker ∈ decoded log.rows, Resolves escalation marker ∧ escalationData marker.payload = none := by
  obtain ⟨-, hsession, -, -, hexec⟩ := asEscalation_eq_some hread
  unfold PendingScan.isResolved scanPending
  rw [decide_eq_true_iff, mem_resolved]
  constructor
  · rintro (hnil | ⟨⟨marker, coherent⟩, hwindow, -, hno, sessionId, hsid, parts, hparts, htarget⟩)
    · cases hnil
    · obtain ⟨hstored, -, hplatform, -⟩ := mem_listPlatformEvents.mp hwindow
      obtain ⟨hmexec, rfl, c, hc, hnames⟩ := mem_targetsOf.mp htarget
      exact ⟨marker, mem_decoded.mpr hstored, ⟨hmexec.symm, hplatform,
        candidatesFor_ne_nil.mpr ⟨hsid, parts, hparts, c, hc, hnames⟩⟩, hno⟩
  · rintro ⟨marker, hmarker, ⟨hmexec, hplatform, hcandidates⟩, hno⟩
    obtain ⟨hsid, parts, hparts, c, hc, hnames⟩ := candidatesFor_ne_nil.mp hcandidates
    have hmcoherent : sessionCoherent db marker = true := by
      unfold sessionCoherent at hcoherent ⊢
      rw [hsid, hmexec, ← hsession, ← hexec]
      exact hcoherent
    have hmin : marker.executionId ∈ ids := hmexec.symm ▸ hin
    exact .inr ⟨⟨marker, sessionCoherent db marker⟩, mem_listPlatformEvents.mpr
      ⟨mem_decoded.mp hmarker, hmin, hplatform, rfl⟩, hmcoherent, hno, escalation.sessionId, hsid, parts, hparts,
      mem_targetsOf.mpr ⟨hmexec.symm, rfl, c, hc, hnames⟩⟩

/-- **What is found pending**: the execution was active, the session is one of it, and nothing in the log that is
scanned resolves the escalation. -/
theorem mem_pendingScanned {active : Db} (hevent : event ∈ decoded log.rows)
    (hread : asEscalation event = some escalation) :
    escalation.id ∈ pendingScanned active db log ↔
      (∃ x, active.execution? escalation.executionId = some x ∧ executionActive x = true) ∧
        sessionCoherent db event = true ∧
        ¬∃ marker ∈ decoded log.rows, Resolves escalation marker ∧ escalationData marker.payload = none := by
  rw [← activeExecutions_all]
  unfold pendingScanned PendingScan.pendingIds
  rw [List.mem_map]
  constructor
  · rintro ⟨scanned, hscanned, hid⟩
    obtain ⟨hmem, hopen⟩ := List.mem_filter.mp hscanned
    obtain ⟨rfl, hin, hcoherent⟩ := (scanned_iff hevent hread).mp ⟨hmem, hid⟩
    refine ⟨hin, hcoherent, fun hmarked => ?_⟩
    rw [(isResolved_scan hread hin hcoherent).mpr hmarked] at hopen
    cases hopen
  · rintro ⟨hin, hcoherent, hnone⟩
    obtain ⟨hmem, -⟩ := (scanned_iff hevent hread).mpr ⟨rfl, hin, hcoherent⟩
    refine ⟨escalation, List.mem_filter.mpr ⟨hmem, ?_⟩, rfl⟩
    rw [Bool.eq_false_iff.mpr (mt (isResolved_scan hread hin hcoherent).mp hnone)]
    rfl

end Pending

/-- **The history of the resolved decisions is complete.** On any log, whatever the rows of a chunk and
the chunks of a request: following the cursors from the start, with any limit that is accepted at each
request, ends after finitely many requests; and the pages, one after the other, list every escalation
that is not pending, and nothing else, in strictly descending order of the ids: those whose execution is
not active, those of a session that is none of the execution, and those that an event of the log resolves. -/
theorem resolved_history_complete (db : Db) (log : EventLog) (budget : ScanBudget)
    {limits : Nat → Option Int} (hlimits : ∀ i, ∃ n, resolvedLimit (limits i) = .ok n) :
    (∃ pages, Follows db log budget limits none pages) ∧
    (∀ pages, Follows db log budget limits none pages →
      pages.flatMap PageV1.items = (resolvedHistory db log).map (summary db)) ∧
    ((resolvedHistory db log).Pairwise fun a b => b.id < a.id) ∧
    (∀ escalation, escalation ∈ resolvedHistory db log ↔
      (∃ event ∈ decoded log.rows, asEscalation event = some escalation) ∧
        escalation.id ∉ pendingNow db log) ∧
    ∀ event ∈ decoded log.rows, ∀ escalation, asEscalation event = some escalation →
      (escalation ∈ resolvedHistory db log ↔
        ¬(∃ x, db.execution? escalation.executionId = some x ∧ executionActive x = true) ∨
          sessionCoherent db event = false ∨
          ∃ marker ∈ decoded log.rows, Resolves escalation marker ∧ escalationData marker.payload = none) := by
  refine ⟨follows_exists db log budget hlimits rfl, fun pages hpages => ?_,
    resolvedHistory_descending db log, fun _ => mem_resolvedHistory, fun event hevent escalation hread => ?_⟩
  · rw [follows_lists hpages hlimits rfl, lane_lists]
  · rw [mem_resolvedHistory, and_iff_right ⟨event, hevent, hread⟩, pendingNow, mem_pendingScanned hevent hread,
      not_and_or, not_and_or, not_not, Bool.not_eq_true]

/-- Two escalations whose execution is gone, with an undecodable row and a message between them. -/
def sparseLog : EventLog where
  rows := [⟨1, "x", some "r", .platform, some (SessionsApi.escalateEvent "b1" "blocking" [.null]), none, 0⟩,
    ⟨2, "x", some "r", .platform, none, none, 0⟩,
    ⟨3, "x", some "r", .message, some .null, none, 0⟩,
    ⟨4, "x", some "r", .platform, some (SessionsApi.escalateEvent "b2" "fyi" [.null]), none, 0⟩]
  ascending := by decide
  keys := by decide

theorem resolved_history_complete_sparse :
    (resolvedHistory .empty sparseLog).map Escalation.id = [4, 1] ∧
    ∃ pages, Follows .empty sparseLog ⟨1, 1, by decide, by decide⟩ (fun _ => some 1) none pages :=
  ⟨by decide, (resolved_history_complete .empty sparseLog ⟨1, 1, by decide, by decide⟩
    fun _ => ⟨1, rfl⟩).1⟩

end AgentBeacon
