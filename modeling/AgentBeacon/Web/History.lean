import AgentBeacon.Events.Stream
import AgentBeacon.Lib.Anchored
import Std.Data.String.ToNat

/-!
# `Web.History` — reading pages of a session's history into the client's cache

The client holds a part of a session's log, its *cache*, to which rows of the event stream are added behind,
and reads the rest in pages. Between two of its steps everything else may go on: rows are appended to the
log, rows are cached, the list's head is held and released. A read is therefore taken along a sequence of
`World`s, one for each moment: a page is answered from the log of one moment and looked at in a later one.
-/

namespace AgentBeacon.Web
open Keyset

/-! ## Rows and pages -/

/-- A row as the client has it: its id is text, and compared for equality only. -/
structure Event where
  id : String
  row : EventRow

/-- `EventV1::from`, as far as the merge reads it. -/
def Event.of (row : EventRow) : Event := ⟨toString row.id, row⟩

/-- `mergeAnchored`. -/
def mergeAnchored (cached : Option (List Event)) (window : List Event) : List Event :=
  Anchored.merge Event.id (cached.getD []) window

/-- Bounds of a window, and whether any row has ever been recorded for it. -/
structure WindowRecord where
  oldestCursor : Option String
  hasMore : Bool
  empty : Bool

/-- `readPage`: the rows before an id, or the newest ones. -/
def readPage (log : EventLog) (session : SessionId) (before : Option String) (limit : Int) :
    Except SchedulerError (PageV1 Event) :=
  log.page Event.of (.session session) { before, after := none, limit := some limit }

/-- What there is at one moment: the server's log, and what the client has of one session. -/
structure World where
  log : EventLog
  /-- `getQueryData` of the session's rows. -/
  cache : Option (List Event)
  /-- Is there a `getQueryState`? -/
  built : Bool
  generation : Nat
  bounds : Option WindowRecord
  tailHeld : Bool
  /-- What `opts.isCurrent` says. -/
  isCurrent : Bool

namespace World

/-- The rows cached. -/
def rows (world : World) : List Event := world.cache.getD []

/-- `cachedIds`. -/
def cachedIds (world : World) : List String := world.rows.map Event.id

/-- `windowBounds`: the cursor of the next older page, and whether there is one. -/
def windowBounds (world : World) : Option String × Bool :=
  match world.bounds with
  | some record => (record.oldestCursor, record.hasMore)
  | none => (none, true)

/-- `seedBounds`. -/
def seedBounds (world : World) (page : PageV1 Event) : World :=
  let seeded : World := { world with bounds := some ⟨page.nextCursor, page.hasMore, page.items.isEmpty⟩ }
  match world.bounds with
  | some current => if current.empty && !current.hasMore && page.hasMore then seeded else world
  | none => seeded

/-- `commitNewestWindow`. -/
def commitNewestWindow (world : World) (page : PageV1 Event) (captured : Nat) : World :=
  if world.generation ≠ captured then world else world.seedBounds page

/-- `advanceOldest`. -/
def advanceOldest (world : World) (page : PageV1 Event) : World :=
  match world.bounds with
  | some current =>
      if current.hasMore then
        { world with bounds := some ⟨page.nextCursor, current.hasMore && page.hasMore,
            current.empty && page.items.isEmpty⟩ }
      else world
  | none => world

/-- `setQueryData` with the merge of some rows. -/
def merged (rows : List Event) (world : World) : World :=
  { world with cache := some (mergeAnchored world.cache rows), built := true }

section Frames

variable (world : World) (page : PageV1 Event)

/-- Recording an edge writes nothing but bounds: the page's, if any. -/
theorem seedBounds_eq : ∃ bounds, world.seedBounds page = { world with bounds } ∧
    (bounds = world.bounds ∨ { world with bounds }.windowBounds = (page.nextCursor, page.hasMore)) := by
  unfold seedBounds
  split
  · split
    · exact ⟨_, rfl, .inr rfl⟩
    · exact ⟨world.bounds, rfl, .inl rfl⟩
  · exact ⟨_, rfl, .inr rfl⟩

theorem commitNewestWindow_eq (captured : Nat) : ∃ bounds,
    world.commitNewestWindow page captured = { world with bounds } ∧
    (bounds = world.bounds ∨ { world with bounds }.windowBounds = (page.nextCursor, page.hasMore)) := by
  unfold commitNewestWindow
  split
  · exact ⟨world.bounds, rfl, .inl rfl⟩
  · exact world.seedBounds_eq page

theorem advanceOldest_eq : ∃ bounds, world.advanceOldest page = { world with bounds } := by
  unfold advanceOldest
  split
  · split
    · exact ⟨_, rfl⟩
    · exact ⟨world.bounds, rfl⟩
  · exact ⟨world.bounds, rfl⟩

@[simp] theorem rows_merged (rows : List Event) :
    (world.merged rows).rows = Anchored.merge Event.id world.rows rows := rfl

end Frames

end World

/-! ## Paging backwards -/

section Reads

variable (w : Nat → World) (session : SessionId)

/-- The loop of `fetchSessionHistory`. A page is asked for at `now`, answered from the log of the moment
after, and looked at in the next one. `pages` holds the pages read so far. -/
def fetchLoop (stopAt : List String) (limit : Int) :
    Nat → Nat → Option String → List (List Event) → Option (Except SchedulerError (Nat × List Event))
  | 0, _, _, _ => none
  | fuel + 1, now, before, pages =>
      match readPage (w (now + 1)).log session before limit with
      | .error e => some (.error e)
      | .ok page =>
          let pages := page.items :: pages
          if !page.hasMore || page.nextCursor.isNone then some (.ok (now + 2, pages.flatten))
          else if !stopAt.isEmpty && page.items.any fun e => stopAt.contains e.id then
            some (.ok (now + 2, pages.flatten))
          else fetchLoop stopAt limit fuel (now + 2) page.nextCursor pages

/-- `fetchSessionHistory`: the moment it is done, and the rows read, oldest first. -/
def fetchSessionHistory (fuel now : Nat) (before : Option String) (stopAt : List String) (limit : Int) :
    Option (Except SchedulerError (Nat × List Event)) :=
  fetchLoop w session stopAt limit fuel now before []

/-! ## Refetching the history -/

/-- What a splice hands to `commitRows`, and the page whose edge it records. -/
structure Commit where
  page : Option (PageV1 Event)
  rows : List Event

/-- Is a read that began at `start` still wanted? -/
def wanted (start now : Nat) : Bool :=
  (w now).generation = (w start).generation && (w now).isCurrent

/-- What is committed once the rows are there. -/
def concluded (start : Nat) (commit : Commit) (now : Nat) : Nat × Option Commit :=
  (now, if wanted w start now then some commit else none)

/-- `spliceSessionHistory`, begun at `start`, up to `commitRows`: the moment that is reached, and what is
committed. A read of the newest page may be one that is under way; `newest` is the moment whose log it
shows. -/
def spliceSessionHistory (limit : Int) (fuel start newest : Nat) (historyBefore : Option String) :
    Option (Except SchedulerError (Nat × Option Commit)) :=
  if (w start).rows ≠ [] then
    (fetchSessionHistory w session fuel start historyBefore (w start).cachedIds limit).map fun read =>
      read.map fun (now, window) => concluded w start ⟨none, window⟩ now
  else
    match readPage (w newest).log session none limit with
    | .error e => some (.error e)
    | .ok page =>
        let now := start + 2
        if !wanted w start now then some (.ok (now, none))
        else if (w now).rows ≠ [] then
          (fetchSessionHistory w session fuel now none (w now).cachedIds limit).map fun read =>
            read.map fun (now', joined) => concluded w start ⟨none, joined⟩ now'
        else some (.ok (now, some ⟨some page, page.items⟩))

/-- `commitRows` writes at once, or when the list that holds its head releases it. -/
def WritesAt (now later : Nat) : Prop :=
  if (w now).tailHeld then
    now < later ∧ (w later).tailHeld = false ∧ ∀ k, now ≤ k → k < later → (w k).tailHeld = true
  else later = now

/-- The write of `commitRows`, asked again whether it is wanted. -/
def writeRows (start : Nat) (rows : List Event) (later : Nat) (world : World) : World :=
  if !wanted w start later then world
  else if !world.built then world
  else world.merged rows

/-- What a splice leaves when its rows are written. -/
def left (start : Nat) (commit : Commit) (later : Nat) : World :=
  writeRows w start commit.rows later <|
    match commit.page with
    | some page => (w later).commitNewestWindow page (w start).generation
    | none => w later

end Reads

/-! ## The page before the window's oldest row -/

/-- `fetchOlderPage`, called at `now`: its page is answered from the log of `reading` and written at
`answered`. -/
def fetchOlderPage (session : SessionId) (limit : Int) (now reading answered : World) :
    Except SchedulerError World :=
  let (oldestCursor, hasMore) := now.windowBounds
  if !hasMore || oldestCursor.isNone then .ok answered
  else
    match readPage reading.log session oldestCursor limit with
    | .error e => .error e
    | .ok page =>
        if answered.generation ≠ now.generation then .ok answered
        else .ok ((answered.merged page.items).advanceOldest page)

end AgentBeacon.Web
