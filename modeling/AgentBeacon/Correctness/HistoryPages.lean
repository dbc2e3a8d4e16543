import AgentBeacon.Correctness.Paging
import AgentBeacon.Web.History

/-!
# `Correctness.HistoryPages` — what a client reads is a stretch of the log

A page holds the last rows below its cursor (`IsPage`); what several pages give, read backwards from a cursor, is a
stretch of the log that ends in front of the cursor and begins at the first page with a wanted row, or with the log
(`fetchLoop_reads`). `Anchored.merge_segment` puts such a stretch where it belongs, if it reaches a cached row or no
cached row stands before it (`Joins`).
-/

namespace AgentBeacon.Web
open Keyset

/-! ## The session's log as the client sees it -/

/-- Stored rows as they are shown. -/
def view (rows : List StoredEvent) : List Event := (decoded rows).map Event.of

@[simp] theorem view_append (rows rows' : List StoredEvent) : view (rows ++ rows') = view rows ++ view rows' := by
  unfold view
  rw [decoded_append, List.map_append]

/-- A session's log. -/
def sessionRows (session : SessionId) (log : EventLog) : List Event := view (log.of (.session session))

def position (e : Event) : Nat := e.row.id

theorem mem_view {rows : List StoredEvent} {e : Event} (h : e ∈ view rows) :
    e.id = toString (position e) ∧ e.row.stored ∈ rows := by
  obtain ⟨row, hrow, rfl⟩ := List.mem_map.mp h
  exact ⟨rfl, mem_decoded.mp hrow⟩

theorem view_ascending {rows : List StoredEvent} (h : Ascending StoredEvent.id rows) :
    Ascending position (view rows) := by
  unfold view decoded Ascending
  rw [List.pairwise_map, List.pairwise_filterMap]
  refine h.imp fun {a b} hlt e he e' he' => ?_
  show e.id < e'.id
  rw [id_of_parse he, id_of_parse he']
  exact hlt

section Log

variable {session : SessionId} {log log' : EventLog} {cursor : Option Int}

theorem sessionRows_ascending (session : SessionId) (log : EventLog) :
    Ascending position (sessionRows session log) := view_ascending (log.of_ascending _)

/-- Ids are unique. -/
theorem sessionRows_nodup (session : SessionId) (log : EventLog) :
    ((sessionRows session log).map Event.id).Nodup := by
  unfold List.Nodup
  rw [List.pairwise_map]
  refine (sessionRows_ascending session log).imp_of_mem fun {a b} ha hb hlt heq => ?_
  rw [(mem_view ha).1, (mem_view hb).1] at heq
  exact (Nat.ne_of_lt hlt) (Nat.repr_injective heq)

/-- A row of the log is told by its id. -/
theorem eq_of_id {e e' : Event} (he : e ∈ sessionRows session log) (he' : e' ∈ sessionRows session log)
    (h : e.id = e'.id) : e = e' := by
  rw [(mem_view he).1, (mem_view he').1] at h
  exact (sessionRows_ascending session log).unique he he' (Nat.repr_injective h)

theorem of_grown (h : log.rows <+: log'.rows) (scope : Scope) : log.of scope <+: log'.of scope := h.filter _

theorem sessionRows_grown (session : SessionId) (h : log.rows <+: log'.rows) :
    sessionRows session log <+: sessionRows session log' := by
  obtain ⟨more, hmore⟩ := of_grown h (.session session)
  exact ⟨view more, by rw [sessionRows, sessionRows, ← hmore, view_append]⟩

/-- The rows below a key come first. -/
theorem below_first {rows : List StoredEvent} (h : Ascending StoredEvent.id rows) (c : Int) :
    ∃ rest, rows = (rows.filter fun row => (row.id : Int) < c) ++ rest ∧ ∀ r ∈ rest, c ≤ r.id := by
  induction rows with
  | nil => exact ⟨[], rfl, fun r hr => nomatch hr⟩
  | cons r rows ih =>
      obtain ⟨hr, hrows⟩ := List.pairwise_cons.mp h
      by_cases hlt : (r.id : Int) < c
      · obtain ⟨rest, hrest, hge⟩ := ih hrows
        refine ⟨rest, ?_, hge⟩
        rw [List.filter_cons, if_pos (decide_eq_true hlt), List.cons_append, ← hrest]
      · have hnone : ((r :: rows).filter fun row => decide ((row.id : Int) < c)) = [] := by
          rw [List.filter_eq_nil_iff]
          intro a ha
          rcases List.mem_cons.mp ha with rfl | ha
          · simpa using hlt
          · have := hr a ha
            simp only [decide_eq_true_eq, not_lt]
            omega
        refine ⟨r :: rows, by rw [hnone, List.nil_append], fun a ha => ?_⟩
        rcases List.mem_cons.mp ha with rfl | ha
        · omega
        · have := hr a ha
          omega

/-- **The rows below a cursor are the first of the log.** -/
theorem windowBefore_first (log : EventLog) (scope : Scope) (cursor : Option Int) :
    ∃ rest, log.of scope = log.windowBefore scope cursor ++ rest ∧
      ∀ r ∈ rest, ∀ c, cursor = some c → c ≤ r.id := by
  cases cursor with
  | none => exact ⟨[], (List.append_nil _).symm, fun r hr => nomatch hr⟩
  | some c =>
      obtain ⟨rest, hrest, hge⟩ := below_first (log.of_ascending scope) c
      exact ⟨rest, hrest, fun r hr c' hc' => Option.some.inj hc' ▸ hge r hr⟩

/-- Nothing is added below a row of the log. -/
theorem windowBefore_grown (h : log.rows <+: log'.rows) {scope : Scope} {row : StoredEvent}
    (hrow : row ∈ log.of scope) :
    log'.windowBefore scope (some row.id) = log.windowBefore scope (some row.id) := by
  obtain ⟨more, hmore⟩ := of_grown h scope
  have hasc := log'.of_ascending scope
  rw [← hmore] at hasc
  have hnone : (more.filter fun r => decide ((r.id : Int) < row.id)) = [] := by
    rw [List.filter_eq_nil_iff]
    intro r hr
    have hlt := (List.pairwise_append.mp hasc).2.2 row hrow r hr
    simp only [decide_eq_true_eq, not_lt]
    omega
  show (log'.of scope).filter _ = (log.of scope).filter _
  rw [← hmore, List.filter_append, hnone, List.append_nil]

/-- Below a row of the log, a longer log is the same. -/
theorem mem_of_grown (h : log.rows <+: log'.rows) {row : StoredEvent} (hrow : row ∈ log.of (.session session))
    {e : Event} (he : e ∈ sessionRows session log') (hlt : position e < row.id) :
    e ∈ sessionRows session log := by
  obtain ⟨more, hmore⟩ := of_grown h (.session session)
  have hasc := log'.of_ascending (.session session)
  rw [sessionRows, ← hmore, view_append] at he
  rcases List.mem_append.mp he with he | he
  · exact he
  · rw [← hmore] at hasc
    have hless := (List.pairwise_append.mp hasc).2.2 row hrow _ (mem_view he).2
    exact absurd hlt (Nat.lt_asymm hless)

/-! ## One page -/

/-- A request for the rows below a cursor. -/
def Resolves (before : Option String) (limit : Int) (cursor : Option Int) : Prop :=
  (EventPageQuery.mk before none (some limit)).resolve = .ok (.before cursor, limit)

variable {before : Option String} {limit : Int}

theorem resolves_none (h : 1 ≤ limit ∧ limit ≤ eventsMaxPage) : Resolves none limit none := by
  have hlimit : pageLimit (some limit) = .ok limit := if_pos h
  simp [Resolves, EventPageQuery.resolve, EventPageQuery.window, hlimit, bind, Except.bind, pure, Except.pure]

theorem resolves_some (h : 1 ≤ limit ∧ limit ≤ eventsMaxPage) {id : Nat} (hid : 0 < id ∧ id ≤ maxRowId) :
    Resolves (some (toString id)) limit (some id) :=
  EventPageQuery.resolve_follow (resolves_none h) hid

/-- What a page of the rows below a cursor is: their last ones, and a cursor for what stands before these. -/
structure IsPage (session : SessionId) (log : EventLog) (limit : Int) (cursor : Option Int)
    (front back : List StoredEvent) (page : PageV1 Event) : Prop where
  split : log.windowBefore (.session session) cursor = front ++ back
  items : page.items = view back
  last : page.hasMore = false → front = []
  next : page.hasMore = true → ∃ row ∈ log.of (.session session), page.nextCursor = some (toString row.id) ∧
    Resolves page.nextCursor limit (some row.id) ∧ log.windowBefore (.session session) (some row.id) = front ∧
    front.length < (log.windowBefore (.session session) cursor).length ∧ row ∈ back

theorem readPage_eq (session : SessionId) (log : EventLog) (h : Resolves before limit cursor) :
    ∃ page front back, readPage log session before limit = .ok page ∧
      IsPage session log limit cursor front back page := by
  obtain ⟨page, hpage, hcovers⟩ := page_covers Event.of log (.session session) h
  have hpos : 1 ≤ limit := EventPageQuery.limit_pos h
  generalize hrows : log.windowBefore (.session session) cursor = rows at hcovers
  have hread : (EventWindow.before cursor).rows log (.session session) = rows.reverse := by
    rw [← hrows]
    rfl
  obtain ⟨hitems, hmore, hnext⟩ := hcovers
  rw [hread] at hitems hmore hnext
  refine ⟨page, (rows.reverse.drop limit.toNat).reverse, (rows.reverse.take limit.toNat).reverse, hpage, ?_, ?_, ?_, ?_⟩
  · rw [hrows, ← List.reverse_append, List.take_append_drop, List.reverse_reverse]
  · have hrev : page.items.reverse = (decoded (rows.reverse.take limit.toNat)).map Event.of := hitems
    rw [view, decoded_reverse, List.map_reverse, ← hrev, List.reverse_reverse]
  · intro hend
    have hlen : ¬limit < (rows.reverse.length : Int) := by
      rw [← hmore, hend]
      exact Bool.false_ne_true
    rw [List.drop_of_length_le (by omega), List.reverse_nil]
  · intro hhas
    have hlen := hmore.mp hhas
    obtain ⟨row, hrow, hcursor, hresolve, hbefore⟩ := hnext hhas
    have hfront : log.windowBefore (.session session) (some row.id) = (rows.reverse.drop limit.toNat).reverse := by
      have := congrArg List.reverse hbefore
      rwa [EventWindow.next, EventWindow.rows, List.reverse_reverse] at this
    have hmem : row ∈ rows := List.mem_reverse.mp hrow
    have hof : row ∈ log.of (.session session) := by
      obtain ⟨rest, hrest, -⟩ := windowBefore_first log (.session session) cursor
      rw [hrest, hrows]
      exact List.mem_append_left _ hmem
    refine ⟨row, hof, hcursor, hcursor ▸ hresolve, hfront, ?_, ?_⟩
    · rw [hrows, List.length_reverse, List.length_drop]
      rw [List.length_reverse] at hlen ⊢
      omega
    · rcases List.mem_append.mp ((List.take_append_drop limit.toNat rows.reverse).symm ▸ hrow) with h | h
      · exact List.mem_reverse.mpr h
      · -- a row does not stand below its own id
        have hself : row ∈ log.windowBefore (.session session) (some row.id) := by
          rw [hfront]
          exact List.mem_reverse.mpr h
        have hlt := (List.mem_filter.mp hself).2
        simp at hlt

/-- No row of a page stands below the cursor that it leaves. -/
theorem IsPage.cursor_le {front back : List StoredEvent} {page : PageV1 Event}
    (h : IsPage session log limit cursor front back page) {row : StoredEvent}
    (hfront : log.windowBefore (.session session) (some row.id) = front) {e : Event} (he : e ∈ view back) :
    row.id ≤ position e := by
  have hstored : e.row.stored ∈ back := (mem_view he).2
  by_contra hlt
  have hbefore : e.row.stored ∈ front := by
    rw [← hfront]
    refine List.mem_filter.mpr ⟨?_, decide_eq_true (Int.ofNat_lt.mpr (not_le.mp hlt))⟩
    obtain ⟨rest, hrest, -⟩ := windowBefore_first log (.session session) cursor
    rw [hrest, h.split]
    exact List.mem_append_left _ (List.mem_append_right _ hstored)
  have hasc := log.windowBefore_ascending (.session session) cursor
  rw [h.split] at hasc
  exact Nat.lt_irrefl _ ((List.pairwise_append.mp hasc).2.2 _ hbefore _ hstored)

end Log

/-! ## Several pages -/

/-- Nothing is taken out of the log, and nothing out of the cache. -/
structure Grows (a b : World) : Prop where
  log : a.log.rows <+: b.log.rows
  rows : a.rows.Sublist b.rows

namespace Grows

theorem refl (a : World) : Grows a a := ⟨List.prefix_rfl, List.Sublist.refl _⟩

theorem trans {a b c : World} (h : Grows a b) (h' : Grows b c) : Grows a c :=
  ⟨h.log.trans h'.log, h.rows.trans h'.rows⟩

/-- From one moment to a later one. -/
theorem of_le {w : Nat → World} (h : ∀ n, Grows (w n) (w (n + 1))) {i j : Nat} (hle : i ≤ j) : Grows (w i) (w j) := by
  induction hle with
  | refl => exact .refl _
  | step _ ih => exact ih.trans (h _)

end Grows

/-- Rows of a log that were read backwards from a cursor, to its beginning or to a row of `stopAt`. -/
structure Paged (session : SessionId) (log : EventLog) (cursor : Option Int) (stopAt : List String)
    (front seg : List StoredEvent) : Prop where
  split : log.windowBefore (.session session) cursor = front ++ seg
  stop : front = [] ∨ ∃ e ∈ view seg, e.id ∈ stopAt

section Loop

variable {w : Nat → World} {limit : Int} {before : Option String} {cursor : Option Int}

/-- **What the loop reads.** It cannot fail, and it ends once it may go on for every row there is. -/
theorem fetchLoop_reads (session : SessionId) (stopAt : List String) (fuel now : Nat)
    (hgrows : ∀ n, Grows (w n) (w (n + 1))) (hresolves : Resolves before limit cursor) (pages : List (List Event)) :
    (((w (now + 1)).log.windowBefore (.session session) cursor).length < fuel →
      fetchLoop w session stopAt limit fuel now before pages ≠ none) ∧
    ∀ out, fetchLoop w session stopAt limit fuel now before pages = some out →
      ∃ later front seg, out = .ok (later, view seg ++ pages.flatten) ∧ now + 2 ≤ later ∧
        Paged session (w (now + 1)).log cursor stopAt front seg := by
  induction fuel generalizing now before cursor pages with
  | zero => exact ⟨fun h => absurd h (Nat.not_lt_zero _), fun out h => nomatch h⟩
  | succ fuel ih =>
      obtain ⟨page, front, back, hread, hpage⟩ := readPage_eq session (w (now + 1)).log hresolves
      have hflat : (page.items :: pages).flatten = view back ++ pages.flatten := by
        rw [List.flatten_cons, hpage.items]
      rw [fetchLoop, hread]
      dsimp only
      by_cases hend : (!page.hasMore || page.nextCursor.isNone) = true
      · rw [if_pos hend, hflat]
        have hlast : page.hasMore = false := by
          cases hmore : page.hasMore with
          | false => rfl
          | true =>
              obtain ⟨row, -, hcursor, -⟩ := hpage.next hmore
              rw [hmore, hcursor] at hend
              cases hend
        refine ⟨fun _ h => (nomatch h), fun out hout => ?_⟩
        exact ⟨now + 2, front, back, (Option.some.inj hout).symm, Nat.le_refl _, hpage.split,
          .inl (hpage.last hlast)⟩
      · rw [if_neg hend]
        by_cases hstop : (!stopAt.isEmpty && page.items.any fun e => stopAt.contains e.id) = true
        · rw [if_pos hstop, hflat]
          refine ⟨fun _ h => (nomatch h), fun out hout => ?_⟩
          obtain ⟨e, he, hid⟩ := List.any_eq_true.mp (Bool.and_eq_true_iff.mp hstop).2
          rw [hpage.items] at he
          exact ⟨now + 2, front, back, (Option.some.inj hout).symm, Nat.le_refl _, hpage.split,
            .inr ⟨e, he, List.contains_iff_mem.mp hid⟩⟩
        · rw [if_neg hstop]
          have hmore : page.hasMore = true := by
            cases hmore : page.hasMore with
            | true => rfl
            | false =>
                rw [hmore] at hend
                exact absurd rfl hend
          obtain ⟨row, hrow, -, hnext, hfront, hshort, -⟩ := hpage.next hmore
          -- the next page is answered from a longer log, but nothing was added below the cursor
          have hsame : (w (now + 2 + 1)).log.windowBefore (.session session) (some row.id) = front := by
            rw [windowBefore_grown (Grows.of_le hgrows (show now + 1 ≤ now + 2 + 1 by omega)).log hrow, hfront]
          obtain ⟨hends, hreads⟩ := @ih page.nextCursor (some row.id) (now + 2) hnext (page.items :: pages)
          rw [hsame] at hends
          refine ⟨fun hfuel => hends (by omega), fun out hout => ?_⟩
          obtain ⟨later, front', seg, rfl, hle, hsplit, hstops⟩ := hreads out hout
          rw [hsame] at hsplit
          refine ⟨later, front', seg ++ back, ?_, by omega, ?_, ?_⟩
          · rw [hflat, view_append, List.append_assoc]
          · rw [hpage.split, hsplit, List.append_assoc]
          · refine hstops.imp_right fun ⟨e, he, hid⟩ => ⟨e, ?_, hid⟩
            rw [view_append]
            exact List.mem_append_left _ he

end Loop

/-! ## Where rows belong -/

section Merge

variable {session : SessionId} {world : World} {rows : List Event}

/-- Rows that the merge puts where they belong: a stretch of the log that reaches a cached row, or has none
before it. -/
def Joins (session : SessionId) (world : World) (rows : List Event) : Prop :=
  ∃ before after, sessionRows session world.log = before ++ rows ++ after ∧
    (rows = [] ∨ (∃ e ∈ world.rows, e ∈ rows) ∨ ∀ e ∈ world.rows, e ∉ before)

/-- **The merge leaves rows of the log in their order**, all that were cached and all that were read. -/
theorem Joins.merged (h : Joins session world rows) (hcached : world.rows.Sublist (sessionRows session world.log)) :
    (world.merged rows).rows.Sublist (sessionRows session world.log) ∧
      world.rows.Sublist (world.merged rows).rows ∧
      ∀ e, e ∈ (world.merged rows).rows ↔ e ∈ world.rows ∨ e ∈ rows := by
  obtain ⟨before, after, hsplit, hmeet⟩ := h
  exact Anchored.merge_segment (sessionRows_nodup session world.log) hsplit hcached hmeet

/-- What was read of a log is a stretch of it later on. -/
theorem segment_later {log log' : EventLog} (h : log.rows <+: log'.rows) {cursor : Option Int}
    {front seg : List StoredEvent} (hsplit : log.windowBefore (.session session) cursor = front ++ seg) :
    ∃ after, sessionRows session log' = view front ++ view seg ++ after := by
  obtain ⟨rest, hrest, -⟩ := windowBefore_first log (.session session) cursor
  obtain ⟨more, hmore⟩ := sessionRows_grown session h
  refine ⟨view rest ++ more, ?_⟩
  rw [← hmore, sessionRows, hrest, hsplit]
  simp only [view_append, List.append_assoc]

end Merge

end AgentBeacon.Web
