import AgentBeacon.Db.Statements
import AgentBeacon.Lib.Keyset
import Mathlib.Data.Int.Order.Basic

/-!
# `Events.Log` — the `events` table as it is read

Readers see the table as rows in the order of their ids. A row whose payload column is no text is
scanned but not decoded; text that is no JSON is served, and read, as that text.
-/

namespace AgentBeacon
open Keyset

/-- A row of `events` as stored; the payload is `none` when the column holds no text. -/
structure StoredEvent where
  id : Nat
  executionId : ExecutionId
  sessionId : Option SessionId
  eventType : EventType
  payload : Option Json
  msgSeq : Option Int
  createdAt : Timestamp

/-- `parse_event_row`. -/
def parseEventRow (row : StoredEvent) : Option EventRow := do
  let payload ← row.payload
  some { id := row.id, executionId := row.executionId, sessionId := row.sessionId,
         eventType := row.eventType, payload, msgSeq := row.msgSeq, createdAt := row.createdAt }

/-- A decodable row, as stored. -/
def EventRow.stored (event : EventRow) : StoredEvent where
  id := event.id
  executionId := event.executionId
  sessionId := event.sessionId
  eventType := event.eventType
  payload := some event.payload
  msgSeq := event.msgSeq
  createdAt := event.createdAt

@[simp] theorem parseEventRow_stored (event : EventRow) : parseEventRow event.stored = some event := rfl

theorem id_of_parse {row : StoredEvent} {event : EventRow} (h : parseEventRow row = some event) :
    event.id = row.id := by
  obtain ⟨payload, -, hrow⟩ := Option.bind_eq_some_iff.mp h
  exact (congrArg EventRow.id (Option.some.inj hrow)).symm

theorem stored_of_parse {row : StoredEvent} {event : EventRow} (h : parseEventRow row = some event) :
    row = event.stored := by
  obtain ⟨payload, hpayload, hrow⟩ := Option.bind_eq_some_iff.mp h
  obtain rfl := Option.some.inj hrow
  cases row
  simp_all [EventRow.stored]

/-- The decodable rows. -/
def decoded (rows : List StoredEvent) : List EventRow := rows.filterMap parseEventRow

@[simp] theorem decoded_nil : decoded [] = [] := rfl

@[simp] theorem decoded_append (rows rows' : List StoredEvent) :
    decoded (rows ++ rows') = decoded rows ++ decoded rows' := List.filterMap_append

theorem decoded_reverse (rows : List StoredEvent) : decoded rows.reverse = (decoded rows).reverse :=
  List.filterMap_reverse

theorem mem_decoded {rows : List StoredEvent} {event : EventRow} :
    event ∈ decoded rows ↔ event.stored ∈ rows := by
  constructor
  · intro h
    obtain ⟨row, hrow, hparse⟩ := List.mem_filterMap.mp h
    exact stored_of_parse hparse ▸ hrow
  · intro h
    exact List.mem_filterMap.mpr ⟨_, h, parseEventRow_stored event⟩

/-- The table: rows in the order of their ids, which are positive `i64`s. -/
structure EventLog where
  rows : List StoredEvent
  ascending : Ascending StoredEvent.id rows
  keys : ∀ r ∈ rows, 0 < r.id ∧ r.id ≤ maxRowId

/-- The rows a read is about: those of an execution, or of a session. -/
inductive Scope where
  | execution (id : ExecutionId)
  | session (id : SessionId)

/-- `WHERE execution_id = ?`, or `WHERE session_id = ?`. -/
def Scope.covers (row : StoredEvent) : Scope → Bool
  | execution id => row.executionId = id
  | session id => row.sessionId = some id

/-- The rows of a scope, `ORDER BY id`. -/
def EventLog.of (log : EventLog) (scope : Scope) : List StoredEvent :=
  log.rows.filter fun row => scope.covers row

theorem EventLog.of_ascending (log : EventLog) (scope : Scope) :
    Ascending StoredEvent.id (log.of scope) := log.ascending.filter _

theorem EventLog.of_keys {log : EventLog} {scope : Scope} {row : StoredEvent} (h : row ∈ log.of scope) :
    0 < row.id ∧ row.id ≤ maxRowId := log.keys row (List.mem_filter.mp h).1

/-! ## Scans -/

/-- `EventScan`: the rows that decoded, and the ids of every row scanned. -/
structure EventScan where
  events : List EventRow
  ids : List Nat

namespace EventScan

def scanned (scan : EventScan) : Nat := scan.ids.length

def highestId (scan : EventScan) : Option Nat := scan.ids.max?

/-- Reverse both the decoded rows and the scanned ids. -/
def reversed (scan : EventScan) : EventScan := ⟨scan.events.reverse, scan.ids.reverse⟩

end EventScan

/-- `collect_scan`. -/
def collectScan (rows : List StoredEvent) : EventScan := ⟨decoded rows, rows.map StoredEvent.id⟩

theorem reversed_collectScan (rows : List StoredEvent) :
    (collectScan rows).reversed = collectScan rows.reverse := by
  simp [EventScan.reversed, collectScan, decoded_reverse]

namespace EventLog

variable (log : EventLog) (scope : Scope)

/-- The rows below a cursor; every row without one. -/
def windowBefore : Option Int → List StoredEvent
  | some before => (log.of scope).filter fun row => (row.id : Int) < before
  | none => log.of scope

/-- The rows above a cursor. -/
def windowAfter (after : Int) : List StoredEvent :=
  (log.of scope).filter fun row => after < (row.id : Int)

/-- `list_by_execution_before` and `list_by_session_before`: the `limit` rows immediately below
`before`, ascending by id. -/
def listBefore (before : Option Int) (limit : Nat) : EventScan :=
  (collectScan ((log.windowBefore scope before).reverse.take limit)).reversed

/-- `list_by_execution_after` and `list_by_session_after`: the `limit` rows immediately above
`after`, ascending by id. -/
def listAfter (after : Int) (limit : Nat) : EventScan :=
  collectScan ((log.windowAfter scope after).take limit)

/-- `max_id_for_execution`. -/
def maxIdForExecution (executionId : ExecutionId) : Option Nat :=
  ((log.of (.execution executionId)).map StoredEvent.id).max?

/-! ## Windows -/

variable {log scope}

theorem ascending_of_ids {rows : List StoredEvent} (h : Ascending StoredEvent.id rows) :
    Ascending (fun row : StoredEvent => (row.id : Int)) rows :=
  h.imp fun hlt => Int.ofNat_lt.mpr hlt

/-- A window that ends in `row :: page` continues, below `row`, with what stands before it. -/
theorem windowBefore_of_split {before : Option Int} {front page : List StoredEvent} {row : StoredEvent}
    (h : log.windowBefore scope before = front ++ row :: page) :
    log.windowBefore scope (some row.id) = front := by
  have hasc := ascending_of_ids (log.of_ascending scope)
  cases before with
  | none =>
      have hrows : log.of scope = front ++ row :: page := h
      show below (fun row : StoredEvent => (row.id : Int)) row.id (log.of scope) = front
      rw [hrows] at hasc ⊢
      exact below_split hasc
  | some before => exact below_of_window hasc h

/-- A window that begins with `page ++ [row]` continues, above `row`, with what stands behind it. -/
theorem windowAfter_of_split {after : Int} {page back : List StoredEvent} {row : StoredEvent}
    (h : log.windowAfter scope after = page ++ row :: back) :
    log.windowAfter scope row.id = back :=
  above_of_window (ascending_of_ids (log.of_ascending scope)) h

theorem keys_of_windowBefore {before : Option Int} {row : StoredEvent}
    (h : row ∈ log.windowBefore scope before) : 0 < row.id ∧ row.id ≤ maxRowId := by
  cases before with
  | none => exact EventLog.of_keys h
  | some before => exact EventLog.of_keys (List.mem_filter.mp h).1

theorem keys_of_windowAfter {after : Int} {row : StoredEvent}
    (h : row ∈ log.windowAfter scope after) : 0 < row.id ∧ row.id ≤ maxRowId :=
  EventLog.of_keys (List.mem_filter.mp h).1

variable (log scope)

theorem windowBefore_ascending (before : Option Int) :
    Ascending StoredEvent.id (log.windowBefore scope before) := by
  cases before with
  | none => exact log.of_ascending scope
  | some before => exact (log.of_ascending scope).filter _

theorem windowAfter_ascending (after : Int) :
    Ascending StoredEvent.id (log.windowAfter scope after) := (log.of_ascending scope).filter _

end EventLog

end AgentBeacon
