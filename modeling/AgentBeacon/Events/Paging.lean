import AgentBeacon.Error
import AgentBeacon.Events.Log

/-!
# `Events.Paging` — bounded reads of the event log

`GET …/events`: a window of the log, fetched with one row more than the page holds (the *probe*), and
the cursor of the next page. A page covers the rows next to its cursor whether they decode or not, so
following the cursors passes every row of the window once.
-/

namespace AgentBeacon
open Keyset Resolution

/-! ## The request -/

def eventsDefaultPage : Int := 100
def eventsMaxPage : Int := 500

/-- `EventWindow`. -/
inductive EventWindow where
  | before (cursor : Option Int)
  | after (cursor : Int)

/-- `EventPageQuery`. -/
structure EventPageQuery where
  before : Option String
  after : Option String
  limit : Option Int

def invalidQuery {α : Type} (detail : String) : Except SchedulerError α :=
  .error (.problem (.requestInvalid detail))

/-- A positive event id. -/
def parseCursor (value : String) : Except SchedulerError Int :=
  match (parseI64 value).filter fun v => 0 < v with
  | some v => .ok v
  | none => invalidQuery "cursor is not a valid event id"

/-- The page size. -/
def pageLimit : Option Int → Except SchedulerError Int
  | none => .ok eventsDefaultPage
  | some n =>
      if 1 ≤ n ∧ n ≤ eventsMaxPage then .ok n
      else invalidQuery "limit must be between 1 and the advertised maximum"

namespace EventPageQuery

/-- The window asked for. -/
def window (query : EventPageQuery) : Except SchedulerError EventWindow :=
  match query.before, query.after with
  | some before, _ => (parseCursor before).map fun id => .before (some id)
  | none, some after => (parseCursor after).map .after
  | none, none => .ok (.before none)

/-- `EventPageQuery::resolve`. -/
def resolve (query : EventPageQuery) : Except SchedulerError (EventWindow × Int) :=
  if query.before.isSome ∧ query.after.isSome then
    invalidQuery "before and after cannot be combined"
  else do
    let window ← query.window
    let limit ← pageLimit query.limit
    return (window, limit)

/-- The request for the next page. -/
def follow (query : EventPageQuery) (cursor : String) : EventPageQuery :=
  if query.after.isSome then { query with after := some cursor }
  else { query with before := some cursor }

end EventPageQuery

/-! ## The page -/

/-- `PageV1`. -/
structure PageV1 (ν : Type) where
  items : List ν
  nextCursor : Option String
  hasMore : Bool

section Page

variable {ν : Type} (render : EventRow → ν)

/-- `event_page`: the scan is ascending and was taken with `limit + 1` rows. `render` is
`EventV1::from`. -/
def eventPage (scan : EventScan) (limit : Int) (window : EventWindow) : PageV1 ν :=
  let hasMore : Bool := limit < scan.ids.length
  let (probe, nextCursor) :=
    if hasMore then
      match window with
      | .before _ => (scan.ids.head?, scan.ids[1]?)
      | .after _ => (scan.ids.getLast?, scan.ids[scan.ids.length - 2]?)
    else (none, none)
  { items := (scan.events.filter fun e => some e.id ≠ probe).map render
    nextCursor := nextCursor.map toString
    hasMore }

/-- The scan behind a page. -/
def EventLog.scan (log : EventLog) (scope : Scope) (limit : Nat) : EventWindow → EventScan
  | .before before => log.listBefore scope before limit
  | .after after => log.listAfter scope after limit

/-- `execution_events` and `session_events`, once the execution or session is known to exist. -/
def EventLog.page (log : EventLog) (scope : Scope) (query : EventPageQuery) :
    Except SchedulerError (PageV1 ν) := do
  let (window, limit) ← query.resolve
  return eventPage render (log.scan scope (limit + 1).toNat window) limit window

/-- A client that follows the cursors until there is no more. -/
inductive Walk (log : EventLog) (scope : Scope) : EventPageQuery → List (PageV1 ν) → Prop where
  | last {query : EventPageQuery} {page : PageV1 ν} (h : log.page render scope query = .ok page)
      (hend : page.hasMore = false) : Walk log scope query [page]
  | more {query : EventPageQuery} {page : PageV1 ν} {cursor : String} {pages : List (PageV1 ν)}
      (h : log.page render scope query = .ok page) (hmore : page.hasMore = true)
      (hcursor : page.nextCursor = some cursor) (hrest : Walk log scope (query.follow cursor) pages) :
      Walk log scope query (page :: pages)

end Page

/-! ## What a window holds, in the order a client reads it -/

namespace EventWindow

/-- The rows of a window, the nearest to the cursor first. -/
def rows (log : EventLog) (scope : Scope) : EventWindow → List StoredEvent
  | before cursor => (log.windowBefore scope cursor).reverse
  | after cursor => log.windowAfter scope cursor

/-- The items of a page in that order; a page itself is ascending. -/
def inOrder {α : Type} (items : List α) : EventWindow → List α
  | before _ => items.reverse
  | after _ => items

/-- The window of the next page. -/
def next (id : Nat) : EventWindow → EventWindow
  | before _ => before (some id)
  | after _ => after id

theorem inOrder_next {α : Type} (items : List α) (id : Nat) (window : EventWindow) :
    (window.next id).inOrder items = window.inOrder items := by
  cases window <;> rfl

end EventWindow

/-! ## Cursors -/

/-- **A cursor is read back as the id it was written from.** -/
theorem parseCursor_toString {id : Nat} (h : 0 < id ∧ id ≤ maxRowId) :
    parseCursor (toString id) = .ok (id : Int) := by
  have hne : Nat.toDigits 10 id ≠ [] := Nat.toDigits_ne_nil
  have hdigits : ∀ c ∈ Nat.toDigits 10 id, c.isDigit = true := fun c hc =>
    Nat.isDigit_of_mem_toDigits (by decide) (by decide) hc
  have hvalue : (Nat.toDigits 10 id).foldl (fun n c => 10 * n + (c.toNat - '0'.toNat)) 0 = id :=
    Nat.ofDigitChars_ten_toDigits
  have hrange : (Json.int (id : Int)).asI64 = some (id : Int) := by
    have hle : (id : Int) ≤ 9223372036854775807 := by
      have := h.2
      unfold maxRowId at this
      omega
    show (if _ then _ else _) = _
    rw [if_pos ⟨by omega, hle⟩]
  have hparse : parseI64 (toString id) = some (id : Int) := by
    have hlist : (toString id).toList = Nat.toDigits 10 id := Nat.toList_repr
    unfold parseI64
    rw [hlist]
    generalize Nat.toDigits 10 id = digits at hne hdigits hvalue
    -- the first character is a digit, so it is no sign
    match digits, hne, hdigits, hvalue with
    | c :: cs, _, hdigits, hvalue =>
        have hall : (c :: cs).all Char.isDigit = true := List.all_eq_true.mpr hdigits
        have hminus : c ≠ '-' := by
          rintro rfl
          exact absurd (hdigits '-' (by simp)) (by decide)
        have hplus : c ≠ '+' := by
          rintro rfl
          exact absurd (hdigits '+' (by simp)) (by decide)
        split
        · rename_i heq
          exact absurd (List.cons.inj heq).1 hminus
        · rename_i heq
          exact absurd (List.cons.inj heq).1 hplus
        · simp only [List.isEmpty_cons, hall, Bool.not_true, Bool.or_self, Bool.false_eq_true,
            if_false, hvalue]
          exact hrange
  unfold parseCursor
  rw [hparse, Option.filter_some, if_pos (by simpa using h.1)]

namespace EventPageQuery

variable {query : EventPageQuery} {window : EventWindow} {limit : Int}

/-- What an accepted request asks for. -/
theorem resolve_eq_ok (h : query.resolve = .ok (window, limit)) :
    ¬(query.before.isSome = true ∧ query.after.isSome = true) ∧ query.window = .ok window ∧
      pageLimit query.limit = .ok limit := by
  unfold resolve at h
  by_cases hboth : query.before.isSome = true ∧ query.after.isSome = true
  · rw [if_pos hboth] at h
    cases h
  · rw [if_neg hboth] at h
    refine ⟨hboth, ?_⟩
    cases hw : query.window with
    | error e => rw [hw] at h; cases h
    | ok w =>
        cases hl : pageLimit query.limit with
        | error e => rw [hw, hl] at h; cases h
        | ok l =>
            rw [hw, hl] at h
            obtain ⟨rfl, rfl⟩ := Prod.mk.inj (Except.ok.inj h)
            exact ⟨rfl, rfl⟩

theorem limit_pos (h : query.resolve = .ok (window, limit)) : 1 ≤ limit := by
  obtain ⟨-, -, hlimit⟩ := resolve_eq_ok h
  unfold pageLimit at hlimit
  split at hlimit
  · obtain rfl := Except.ok.inj hlimit
    decide
  · split at hlimit
    · rename_i hrange
      obtain rfl := Except.ok.inj hlimit
      exact hrange.1
    · cases hlimit

/-- **Following a cursor asks for the next window**, with the same limit. -/
theorem resolve_follow (h : query.resolve = .ok (window, limit)) {id : Nat}
    (hid : 0 < id ∧ id ≤ maxRowId) :
    (query.follow (toString id)).resolve = .ok (window.next id, limit) := by
  obtain ⟨hboth, hwindow, hlimit⟩ := resolve_eq_ok h
  have hcursor := parseCursor_toString hid
  generalize toString id = text at hcursor ⊢
  obtain ⟨before, after, qlimit⟩ := query
  cases after with
  | some after =>
      cases before with
      | some before => simp at hboth
      | none =>
          cases hp : parseCursor after with
          | error e => simp [EventPageQuery.window, hp, Except.map] at hwindow
          | ok id' =>
              have hw : window = .after id' := by
                simpa [EventPageQuery.window, hp, Except.map] using hwindow.symm
              subst hw
              simp [follow, resolve, EventPageQuery.window, hcursor, hlimit, Except.map,
                EventWindow.next, bind, Except.bind, pure, Except.pure]
  | none =>
      have hw : ∃ cursor, window = .before cursor := by
        cases before with
        | none =>
            refine ⟨none, ?_⟩
            simpa [EventPageQuery.window] using hwindow.symm
        | some before =>
            cases hp : parseCursor before with
            | error e => simp [EventPageQuery.window, hp, Except.map] at hwindow
            | ok id' =>
                refine ⟨some id', ?_⟩
                simpa [EventPageQuery.window, hp, Except.map] using hwindow.symm
      obtain ⟨cursor, rfl⟩ := hw
      simp [follow, resolve, EventPageQuery.window, hcursor, hlimit, Except.map, EventWindow.next,
        bind, Except.bind, pure, Except.pure]

end EventPageQuery

end AgentBeacon
