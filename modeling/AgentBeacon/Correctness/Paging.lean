import AgentBeacon.Events.Paging

/-!
# `Correctness.Paging` — following the cursors reads the log once

A page covers the `limit` rows of its window next to the cursor, decodable or not, and the window of
its own cursor is exactly what these leave. From this one step it follows, by induction on the rows
left, that a client that follows the cursors reads every decodable row of the window once, in order.
-/

namespace AgentBeacon
open Keyset

variable {ν : Type} {render : EventRow → ν}

/-! ## One page -/

/-- The probe is left out of the page, whether it decodes or not. -/
theorem decoded_without_probe {probe : StoredEvent} {rows : List StoredEvent}
    (hne : ∀ a ∈ rows, a.id ≠ probe.id) :
    (decoded rows).filter (fun e => decide (some e.id ≠ some probe.id)) = decoded rows ∧
      (decoded [probe]).filter (fun e => decide (some e.id ≠ some probe.id)) = [] := by
  constructor
  · rw [List.filter_eq_self]
    intro e he
    have hid : e.id ≠ probe.id := hne e.stored (mem_decoded.mp he)
    simpa using hid
  · rw [List.filter_eq_nil_iff]
    intro e he
    have hstored : e.stored = probe := List.mem_singleton.mp (mem_decoded.mp he)
    have hid : e.id = probe.id := congrArg StoredEvent.id hstored
    simp [hid]

/-- A window of at most `limit` rows is one page. -/
theorem eventPage_all {rows : List StoredEvent} {limit : Int} {window : EventWindow}
    (hlen : (rows.length : Int) ≤ limit) :
    eventPage render (collectScan rows) limit window =
      { items := (decoded rows).map render, nextCursor := none, hasMore := false } := by
  have hmore : ¬limit < ((collectScan rows).ids.length : Int) := by
    simpa [collectScan] using hlen
  have hkeep : (decoded rows).filter (fun e => decide (some e.id ≠ none)) = decoded rows := by
    rw [List.filter_eq_self]
    intro e _
    simp
  simp only [eventPage, hmore, decide_false, Bool.false_eq_true, if_false, Option.map_none]
  show PageV1.mk ((List.filter _ (decoded rows)).map render) none false = _
  rw [hkeep]

/-- Backwards, the lowest scanned row is the probe and the next one the cursor. -/
theorem eventPage_before {probe row : StoredEvent} {rest : List StoredEvent} {limit : Int}
    {cursor : Option Int} (hlen : limit < ((probe :: row :: rest).length : Int))
    (hne : ∀ a ∈ row :: rest, a.id ≠ probe.id) :
    eventPage render (collectScan (probe :: row :: rest)) limit (.before cursor) =
      { items := (decoded (row :: rest)).map render, nextCursor := some (toString row.id),
        hasMore := true } := by
  have hmore : limit < ((collectScan (probe :: row :: rest)).ids.length : Int) := by
    simpa [collectScan] using hlen
  obtain ⟨hkeep, hdrop⟩ := decoded_without_probe hne
  have hsplit : decoded (probe :: row :: rest) = decoded [probe] ++ decoded (row :: rest) :=
    decoded_append [probe] (row :: rest)
  simp only [eventPage, hmore, decide_true, if_true]
  show PageV1.mk ((List.filter (fun e => decide (some e.id ≠ some probe.id))
    (decoded (probe :: row :: rest))).map render) (some (toString row.id)) true = _
  rw [hsplit, List.filter_append, hdrop, hkeep, List.nil_append]

/-- Forwards, the highest scanned row is the probe and the one before it the cursor. -/
theorem eventPage_after {probe row : StoredEvent} {rest : List StoredEvent} {limit : Int}
    {cursor : Int} (hlen : limit < ((rest ++ [row] ++ [probe]).length : Int))
    (hne : ∀ a ∈ rest ++ [row], a.id ≠ probe.id) :
    eventPage render (collectScan (rest ++ [row] ++ [probe])) limit (.after cursor) =
      { items := (decoded (rest ++ [row])).map render, nextCursor := some (toString row.id),
        hasMore := true } := by
  have hmore : limit < ((collectScan (rest ++ [row] ++ [probe])).ids.length : Int) := by
    simpa [collectScan] using hlen
  obtain ⟨hkeep, hdrop⟩ := decoded_without_probe hne
  have hids : (collectScan (rest ++ [row] ++ [probe])).ids =
      rest.map StoredEvent.id ++ [row.id, probe.id] := by simp [collectScan]
  have hlast : (rest.map StoredEvent.id ++ [row.id, probe.id]).getLast? = some probe.id := by simp
  have hcursor : (rest.map StoredEvent.id ++ [row.id, probe.id])[
      (rest.map StoredEvent.id ++ [row.id, probe.id]).length - 2]? = some row.id := by
    rw [List.getElem?_append_right (by simp)]
    simp
  rw [hids] at hmore
  simp only [eventPage, hids, hmore, decide_true, if_true, hlast, hcursor, Option.map_some]
  show PageV1.mk ((List.filter (fun e => decide (some e.id ≠ some probe.id))
    (decoded (rest ++ [row] ++ [probe]))).map render) (some (toString row.id)) true = _
  rw [decoded_append, List.filter_append, hdrop, hkeep, List.append_nil]

section Coverage

variable {log : EventLog} {scope : Scope} {query : EventPageQuery} {window : EventWindow} {limit : Int}

/-- What a page covers of its window, and what it leaves for the next. -/
structure Covers (render : EventRow → ν) (log : EventLog) (scope : Scope) (query : EventPageQuery)
    (window : EventWindow) (limit : Int) (page : PageV1 ν) : Prop where
  items : window.inOrder page.items =
    (decoded ((window.rows log scope).take limit.toNat)).map render
  more : page.hasMore = true ↔ limit < ((window.rows log scope).length : Int)
  next : page.hasMore = true → ∃ row ∈ window.rows log scope,
    page.nextCursor = some (toString row.id) ∧
    (query.follow (toString row.id)).resolve = .ok (window.next row.id, limit) ∧
    (window.next row.id).rows log scope = (window.rows log scope).drop limit.toNat

/-- The window fits one page. -/
theorem covers_all {page : PageV1 ν} (hpage : page =
      { items := (window.inOrder (decoded (window.rows log scope))).map render, nextCursor := none,
        hasMore := false }) (hlen : ((window.rows log scope).length : Int) ≤ limit) :
    Covers render log scope query window limit page := by
  subst hpage
  refine ⟨?_, ?_, fun h => nomatch h⟩
  · rw [List.take_of_length_le (by omega)]
    cases window with
    | before cursor =>
        show ((decoded _).reverse.map render).reverse = _
        rw [List.map_reverse, List.reverse_reverse]
    | after cursor => rfl
  · constructor
    · intro h
      cases h
    · intro h
      omega

/-- A page of the rows before a cursor. -/
theorem covers_before (render : EventRow → ν) (log : EventLog) (scope : Scope) {n : Nat} (hn : 1 ≤ n)
    {cursor : Option Int} (h : query.resolve = .ok (.before cursor, (n : Int))) :
    Covers render log scope query (.before cursor) n
      (eventPage render (log.scan scope (n + 1) (.before cursor)) n (.before cursor)) := by
  have hscan : log.scan scope (n + 1) (.before cursor) =
      collectScan ((log.windowBefore scope cursor).reverse.take (n + 1)).reverse := by
    rw [EventLog.scan, EventLog.listBefore, reversed_collectScan]
  rw [hscan]
  by_cases hlen : (log.windowBefore scope cursor).length ≤ n
  · rw [reverse_take_reverse_of_le (by omega), eventPage_all (by omega)]
    refine covers_all ?_ (by simpa [EventWindow.rows] using hlen)
    simp [EventWindow.inOrder, EventWindow.rows, decoded_reverse]
  · obtain ⟨front, probe, page, hrows, hlength⟩ := last_rows (not_le.mp hlen)
    obtain ⟨row, rest, rfl⟩ : ∃ row rest, page = row :: rest := by
      cases page with
      | nil =>
          have : n = 0 := hlength.symm
          omega
      | cons row rest => exact ⟨row, rest, rfl⟩
    have hasc := log.windowBefore_ascending scope cursor
    rw [hrows] at hasc
    have hne : ∀ a ∈ row :: rest, a.id ≠ probe.id := fun a ha =>
      (Nat.ne_of_lt (hasc.split.2 a ha)).symm
    have hrow : row ∈ log.windowBefore scope cursor := by rw [hrows]; simp
    have hsplit : log.windowBefore scope cursor = (front ++ [probe]) ++ row :: rest := by
      rw [hrows]
      simp
    have hrest : log.windowBefore scope (some row.id) = front ++ [probe] :=
      EventLog.windowBefore_of_split hsplit
    have hread : (EventWindow.before cursor).rows log scope =
        (row :: rest).reverse ++ (front ++ [probe]).reverse := by
      show (log.windowBefore scope cursor).reverse = _
      rw [hrows]
      simp
    have hlenrev : (row :: rest).reverse.length = n := by simpa using hlength
    have hlt : (n : Int) < ((probe :: row :: rest).length : Int) := by
      rw [List.length_cons, hlength]
      omega
    rw [hrows, reverse_take_reverse hlength, eventPage_before hlt hne]
    refine ⟨?_, ?_, fun _ => ⟨row, List.mem_reverse.mpr hrow, rfl, ?_, ?_⟩⟩
    · rw [hread, Int.toNat_natCast, ← hlenrev, List.take_left']
      · show ((decoded (row :: rest)).map render).reverse = _
        rw [decoded_reverse, List.map_reverse]
      · rfl
    · rw [hread]
      simp at hlength ⊢
      omega
    · exact EventPageQuery.resolve_follow h (EventLog.keys_of_windowBefore hrow)
    · rw [hread, Int.toNat_natCast, ← hlenrev, List.drop_left']
      · show (log.windowBefore scope (some row.id)).reverse = _
        rw [hrest]
      · rfl

/-- A page of the rows after a cursor. -/
theorem covers_after (render : EventRow → ν) (log : EventLog) (scope : Scope) {n : Nat} (hn : 1 ≤ n) {cursor : Int}
    (h : query.resolve = .ok (.after cursor, (n : Int))) :
    Covers render log scope query (.after cursor) n
      (eventPage render (log.scan scope (n + 1) (.after cursor)) n (.after cursor)) := by
  have hscan : log.scan scope (n + 1) (.after cursor) =
      collectScan ((log.windowAfter scope cursor).take (n + 1)) := rfl
  rw [hscan]
  by_cases hlen : (log.windowAfter scope cursor).length ≤ n
  · rw [List.take_of_length_le (by omega), eventPage_all (by omega)]
    exact covers_all rfl (by simpa [EventWindow.rows] using hlen)
  · obtain ⟨page, probe, back, hrows, hlength⟩ := first_rows (not_le.mp hlen)
    obtain ⟨rest, row, rfl⟩ : ∃ rest row, page = rest ++ [row] := by
      rcases List.eq_nil_or_concat page with rfl | ⟨rest, row, rfl⟩
      · have : n = 0 := hlength.symm
        omega
      · exact ⟨rest, row, by simp⟩
    have hasc := log.windowAfter_ascending scope cursor
    rw [hrows] at hasc
    have hne : ∀ a ∈ rest ++ [row], a.id ≠ probe.id := fun a ha =>
      Nat.ne_of_lt (hasc.split.1 a ha)
    have hrow : row ∈ log.windowAfter scope cursor := by rw [hrows]; simp
    have hsplit : log.windowAfter scope cursor = rest ++ row :: (probe :: back) := by
      rw [hrows]
      simp
    have hrest : log.windowAfter scope row.id = probe :: back :=
      EventLog.windowAfter_of_split hsplit
    have hread : (EventWindow.after cursor).rows log scope = (rest ++ [row]) ++ probe :: back :=
      hrows
    have hlt : (n : Int) < ((rest ++ [row] ++ [probe]).length : Int) := by
      rw [List.length_append, hlength, List.length_singleton]
      omega
    rw [hrows, take_append hlength, eventPage_after hlt hne]
    refine ⟨?_, ?_, fun _ => ⟨row, hrow, rfl, ?_, ?_⟩⟩
    · rw [hread, Int.toNat_natCast, ← hlength, List.take_left']
      · rfl
      · rfl
    · rw [hread]
      simp at hlength ⊢
      omega
    · exact EventPageQuery.resolve_follow h (EventLog.keys_of_windowAfter hrow)
    · rw [hread, Int.toNat_natCast, ← hlength, List.drop_left']
      · exact hrest
      · rfl

/-- **A page covers the `limit` rows next to its cursor, and its own cursor stands for the rest.** -/
theorem page_covers (render : EventRow → ν) (log : EventLog) (scope : Scope)
    (h : query.resolve = .ok (window, limit)) :
    ∃ page, log.page render scope query = .ok page ∧
      Covers render log scope query window limit page := by
  have hpos : 1 ≤ limit := EventPageQuery.limit_pos h
  obtain ⟨n, rfl⟩ : ∃ n : Nat, limit = n := ⟨limit.toNat, by omega⟩
  have hn : ((n : Int) + 1).toNat = n + 1 := by omega
  have hpage : log.page render scope query =
      .ok (eventPage render (log.scan scope (n + 1) window) n window) := by
    unfold EventLog.page
    rw [h, ← hn]
    rfl
  have hone : 1 ≤ n := Int.ofNat_le.mp hpos
  refine ⟨_, hpage, ?_⟩
  cases window with
  | before cursor => exact covers_before render log scope hone h
  | after cursor => exact covers_after render log scope hone h

/-! ## Whole walks -/

theorem page_eq_ok (h : query.resolve = .ok (window, limit)) {page : PageV1 ν}
    (hpage : log.page render scope query = .ok page) :
    Covers render log scope query window limit page := by
  obtain ⟨page', hpage', hcovers⟩ := page_covers render log scope h
  have hsame : page' = page := Except.ok.inj (hpage'.symm.trans hpage)
  exact hsame ▸ hcovers

/-- **A walk ends**: each page leaves fewer rows. -/
theorem walk_exists (h : query.resolve = .ok (window, limit)) :
    ∃ pages, Walk render log scope query pages := by
  generalize hlen : (window.rows log scope).length = len
  induction len using Nat.strong_induction_on generalizing query window with
  | _ len ih =>
      obtain ⟨page, hpage, hcovers⟩ := page_covers render log scope h
      by_cases hmore : page.hasMore = true
      · obtain ⟨row, -, hcursor, hresolve, hrest⟩ := hcovers.next hmore
        have hpos : 1 ≤ limit := EventPageQuery.limit_pos h
        have hlimit : limit < (len : Int) := hlen ▸ hcovers.more.mp hmore
        obtain ⟨pages, hpages⟩ := ih ((window.next row.id).rows log scope).length
          (by rw [hrest, List.length_drop]; omega) hresolve rfl
        exact ⟨page :: pages, .more hpage hmore hcursor hpages⟩
      · exact ⟨[page], .last hpage (by simpa using hmore)⟩

/-- **A walk reads the window**: every decodable row once, in the order of reading. -/
theorem walk_reads {pages : List (PageV1 ν)} (hwalk : Walk render log scope query pages)
    (h : query.resolve = .ok (window, limit)) :
    pages.flatMap (fun page => window.inOrder page.items) =
      (decoded (window.rows log scope)).map render := by
  induction hwalk generalizing window with
  | @last query page hpage hend =>
      have hcovers := page_eq_ok h hpage
      have hlen : ((window.rows log scope).length : Int) ≤ limit := by
        by_contra hlt
        exact Bool.false_ne_true (hend.symm.trans (hcovers.more.mpr (not_le.mp hlt)))
      rw [List.flatMap_cons, List.flatMap_nil, List.append_nil, hcovers.items,
        List.take_of_length_le (by omega)]
  | @more query page cursor pages hpage hmore hcursor hrest ih =>
      have hcovers := page_eq_ok h hpage
      obtain ⟨row, -, hid, hresolve, hrows⟩ := hcovers.next hmore
      obtain rfl : cursor = toString row.id := Option.some.inj (hcursor.symm.trans hid)
      have hread := ih hresolve
      simp only [EventWindow.inOrder_next] at hread
      rw [List.flatMap_cons, hread, hcovers.items, hrows, ← List.map_append, ← decoded_append,
        List.take_append_drop]

/-- **Event paging loses and repeats nothing.** Whatever the log, the scope, the start and the page
limit of an accepted request: following the cursors ends; it yields every decodable row of the window
once, in the order of reading (backwards descending, forwards ascending); and a page says there is
more exactly when the window holds a row beyond the `limit` rows of the page, which is then what the
window of its cursor holds. -/
theorem events_paged_once (h : query.resolve = .ok (window, limit)) :
    (∃ pages, Walk render log scope query pages) ∧
    (∀ pages, Walk render log scope query pages →
      pages.flatMap (fun page => window.inOrder page.items) =
        (decoded (window.rows log scope)).map render) ∧
    ∀ page, log.page render scope query = .ok page →
      (page.hasMore = true ↔ limit < ((window.rows log scope).length : Int)) ∧
      (page.hasMore = true ↔ ∃ cursor window', page.nextCursor = some cursor ∧
        (query.follow cursor).resolve = .ok (window', limit) ∧ window'.rows log scope ≠ [] ∧
        window'.rows log scope = (window.rows log scope).drop limit.toNat) := by
  refine ⟨walk_exists h, fun pages hwalk => walk_reads hwalk h, fun page hpage => ?_⟩
  have hcovers := page_eq_ok h hpage
  have hpos : 1 ≤ limit := EventPageQuery.limit_pos h
  refine ⟨hcovers.more, fun hmore => ?_, fun hnext => ?_⟩
  · obtain ⟨row, -, hcursor, hresolve, hrows⟩ := hcovers.next hmore
    have hlen := hcovers.more.mp hmore
    refine ⟨_, _, hcursor, hresolve, ?_, hrows⟩
    rw [hrows, ne_eq, List.drop_eq_nil_iff]
    omega
  · obtain ⟨cursor, window', -, -, hne, hrows⟩ := hnext
    rw [hrows, ne_eq, List.drop_eq_nil_iff] at hne
    exact hcovers.more.mpr (by omega)

end Coverage

/-- Three events of an execution, the middle one undecodable. -/
def mendedLog : EventLog where
  rows := [1, 2, 3].map fun id => ⟨id, "x", none, .platform, if id = 2 then none else some .null, none, 0⟩
  ascending := by decide
  keys := by decide

/-- Backwards with one row a page: the page of the undecodable row is empty and says there is more. -/
theorem events_paged_once_mended : (∃ pages, Walk EventRow.id mendedLog (.execution "x")
      { before := none, after := none, limit := some 1 } pages) ∧
    (∀ pages, Walk EventRow.id mendedLog (.execution "x")
      { before := none, after := none, limit := some 1 } pages →
      pages.flatMap (fun page => (EventWindow.before none).inOrder page.items) = [3, 1]) := by
  have h : (EventPageQuery.mk none none (some 1)).resolve = .ok (.before none, 1) := rfl
  obtain ⟨hexists, hreads, -⟩ := @events_paged_once _ EventRow.id mendedLog (.execution "x") _ _ _ h
  exact ⟨hexists, hreads⟩

end AgentBeacon
