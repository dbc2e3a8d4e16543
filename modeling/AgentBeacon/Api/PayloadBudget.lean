import AgentBeacon.Serialize
import AgentBeacon.Resolution
import Mathlib.Data.List.Sort

/-!
# `Api.PayloadBudget` — serving oversized event payloads

`payload_budget` of `api/types.rs`: base64 attachments are emptied, strings are cut, until the payload fits. A
payload that cannot be made to fit is served as it is.
-/

namespace AgentBeacon

def eventStringLeafMaxBytes : Nat := 16 * 1024

def eventPayloadBudgetBytes : Nat := 64 * 1024

namespace PayloadBudget
open Json

/-- Bound on ceiling recomputations. -/
def maxPasses : Nat := 32

/-- Leaves this size or smaller are never shortened. -/
def leafProtectionFloorBytes : Nat := 256

inductive Seg where
  | key (k : String)
  | index (i : Nat)
  deriving DecidableEq, Repr

abbrev Path := List Seg

def formatSeg (out : String) : Seg → String
  | .key k => if out = "" then out ++ k else out ++ "." ++ k
  | .index i => out ++ ("[" ++ toString i ++ "]")

def formatPath (path : Path) : String := path.foldl formatSeg ""

/-- The attachment paths, whose values are base64 and must never be cut. -/
def isAttachment : Path → Bool
  | [.key parts, .index _, .key raw] => parts = "parts" ∧ raw = "raw"
  | [.key content, .index _, .key source, .key data] =>
      content = "content" ∧ source = "source" ∧ data = "data"
  | _ => false

mutual

/-- The strings of a value below `path`, with their lengths. -/
def collect (path : Path) : Json → List (Path × Nat)
  | .str s => [(path, s.utf8ByteSize)]
  | .arr items => collectItems path 0 items
  | .obj members => collectMembers path members
  | _ => []

def collectItems (path : Path) (i : Nat) : List Json → List (Path × Nat)
  | [] => []
  | item :: items => collect (path ++ [.index i]) item ++ collectItems path (i + 1) items

def collectMembers (path : Path) : List (String × Json) → List (Path × Nat)
  | [] => []
  | (k, item) :: members => collect (path ++ [.key k]) item ++ collectMembers path members

end

/-- `at_mut`, read. -/
def atPath : Path → Json → Option Json
  | [], v => some v
  | .key k :: path, .obj members => (members.lookup k).bind (atPath path)
  | .index i :: path, .arr items => items[i]?.bind (atPath path)
  | _, _ => none

/-- `*at_mut(…) = new`, where there is something. -/
def setAt : Path → Json → Json → Json
  | [], new, _ => new
  | .key k :: path, new, .obj members =>
      .obj (members.map fun m => if m.1 = k then (m.1, setAt path new m.2) else m)
  | .index i :: path, new, .arr items => .arr (items.modify i (setAt path new))
  | _, _, v => v

/-- The loop of `shared_ceiling` over the lengths that are left, in ascending order; `last` is the length before
them. -/
def ceilingLoop (allowed : Nat) : List Nat → Nat → Nat → Nat
  | [], _, last => last
  | len :: rest, below, _ =>
      if allowed < below then 0
      -- also where the share is as long as the next length
      else if (allowed - below) / (rest.length + 1) ≤ len then (allowed - below) / (rest.length + 1)
      else ceilingLoop allowed rest (below + len) len

/-- The largest ceiling for each leaf whose retained total stays within `allowed`. -/
def sharedCeiling (lengths : List (Path × Nat)) (allowed : Nat) : Nat :=
  ceilingLoop allowed ((lengths.map Prod.snd).mergeSort) 0 0

/-- The characters before the first that does not end within `target` bytes. -/
def cutChars : Nat → List Char → List Char
  | _, [] => []
  | target, c :: cs => if c.utf8Size ≤ target then c :: cutChars (target - c.utf8Size) cs else []

/-- The longest prefix of `s` not exceeding `target` bytes that ends on a character boundary. -/
def cut (s : String) (target : Nat) : String :=
  if s.utf8ByteSize ≤ target then s else String.ofList (cutChars target s.toList)

/-- The first loop of `apply`: the attachments are emptied. -/
def emptyAttachments : List (Path × Nat) → Json → Json × List String
  | [], v => (v, [])
  | (path, len) :: leaves, v =>
      if 0 < len ∧ isAttachment path ∧ (atPath path v).isSome then
        ((emptyAttachments leaves (setAt path (.str "") v)).1,
          formatPath path :: (emptyAttachments leaves (setAt path (.str "") v)).2)
      else emptyAttachments leaves v

/-- The string at a path. -/
def textAt (path : Path) (v : Json) : Option String := (atPath path v).bind asStr

/-- The second loop of `apply`: no leaf is longer than a leaf may be. -/
def capLeaves : List (Path × Nat) → Json → List (Path × Nat) × Json
  | [], v => ([], v)
  | (path, len) :: lengths, v =>
      match (if eventStringLeafMaxBytes < len then textAt path v else none) with
      | some text =>
          ((path, (cut text eventStringLeafMaxBytes).utf8ByteSize) ::
            (capLeaves lengths (setAt path (.str (cut text eventStringLeafMaxBytes)) v)).1,
            (capLeaves lengths (setAt path (.str (cut text eventStringLeafMaxBytes)) v)).2)
      | none => ((path, len) :: (capLeaves lengths v).1, (capLeaves lengths v).2)

/-- What a pass over the leaves makes of them, of the payload, and whether any leaf got shorter. -/
structure Shortened where
  lengths : List (Path × Nat)
  payload : Json
  any : Bool

/-- What a pass has found, with a leaf before the others. -/
def Shortened.behind (rest : Shortened) (path : Path) (len : Nat) (shorter : Bool) : Shortened :=
  ⟨(path, len) :: rest.lengths, rest.payload, shorter || rest.any⟩

/-- Cut every leaf above the ceiling. -/
def shorten (ceiling : Nat) : List (Path × Nat) → Json → Shortened
  | [], v => ⟨[], v, false⟩
  | (path, len) :: lengths, v =>
      if len ≤ ceiling then (shorten ceiling lengths v).behind path len false
      else match textAt path v with
        | none => (shorten ceiling lengths v).behind path 0 false
        | some text =>
            (shorten ceiling lengths (setAt path (.str (cut text ceiling)) v)).behind path
              (cut text ceiling).utf8ByteSize ((cut text ceiling).utf8ByteSize < len)

/-- The string at a path, emptied. -/
def emptyAt (path : Path) (v : Json) : Json := if (atPath path v).isSome then setAt path (.str "") v else v

/-- Empty every leaf. -/
def emptyLeaves : List (Path × Nat) → Json → List (Path × Nat) × Json
  | [], v => ([], v)
  | (path, len) :: lengths, v =>
      if len = 0 then ((path, len) :: (emptyLeaves lengths v).1, (emptyLeaves lengths v).2)
      else ((path, 0) :: (emptyLeaves lengths (emptyAt path v)).1, (emptyLeaves lengths (emptyAt path v)).2)

/-- How the pass loop ends: the payload fits, nothing is left to shorten, or the passes are used up. -/
inductive LoopEnd where
  | fits (payload : Json)
  | nothingLeft
  | usedUp

/-- The bytes the leaves retain. -/
def retained (lengths : List (Path × Nat)) : Nat := (lengths.map Prod.snd).sum

/-- The ceiling of a pass over a payload of `size` bytes. -/
def passCeiling (lengths : List (Path × Nat)) (size : Nat) : Nat :=
  sharedCeiling lengths (retained lengths - (size - eventPayloadBudgetBytes))

/-- The end of a pass: if no leaf got shorter, all are emptied. -/
def Shortened.settle (pass : Shortened) : List (Path × Nat) × Json :=
  if pass.any then (pass.lengths, pass.payload) else emptyLeaves pass.lengths pass.payload

/-- The pass loop. -/
def passes : Nat → List (Path × Nat) → Json → LoopEnd
  | 0, _, _ => .usedUp
  | n + 1, lengths, v =>
      if v.serializedLength ≤ eventPayloadBudgetBytes then .fits v
      else if retained lengths = 0 then .nothingLeft
      else passes n (shorten (passCeiling lengths v.serializedLength) lengths v).settle.1
        (shorten (passCeiling lengths v.serializedLength) lengths v).settle.2

/-- The result of shortening one payload. -/
structure Outcome where
  payload : Json
  omittedPaths : List String
  /-- The served payload differs from the stored one. -/
  changed : Bool
  /-- The serialized size of the served payload. -/
  finalSize : Nat

/-- The leaves that may be shortened. -/
def candidates (leaves : List (Path × Nat)) : List (Path × Nat) :=
  leaves.filter fun l => !isAttachment l.1 && leafProtectionFloorBytes < l.2

/-- The leaves and the payload before the first pass. -/
def prepared (payload : Json) : List (Path × Nat) × Json :=
  capLeaves (candidates (collect [] payload)) (emptyAttachments (collect [] payload) payload).1

/-- The pass loop on a payload. -/
def loopEnd (payload : Json) : LoopEnd := passes maxPasses (prepared payload).1 (prepared payload).2

/-- `apply`. -/
def apply (payload : Json) : Outcome :=
  match loopEnd payload with
  | .fits served =>
      { payload := served
        omittedPaths := (emptyAttachments (collect [] payload) payload).2
        changed := served ≠ payload
        finalSize := served.serializedLength }
  | _ => { payload, omittedPaths := [], changed := false, finalSize := payload.serializedLength }

end PayloadBudget

/-! ## The served record -/

/-- A row of `events`, with the text of its payload column. -/
structure RawEvent where
  id : Int
  executionId : String
  sessionId : Option String
  eventType : String
  payload : String
  msgSeq : Option Int
  createdAt : String

structure EventV1 where
  id : String
  executionId : String
  sessionId : Option String
  eventType : String
  payload : Json
  truncated : Option Bool
  byteSize : Option Nat
  omittedPaths : Option (List String)
  msgSeq : Option Int
  createdAt : String

/-- `parts[0].data.type`. -/
def firstDataType (payload : Json) : Option String :=
  (((((payload.get "parts").bind Json.asArray).bind fun parts => parts[0]?).bind fun part =>
    part.get "data").bind fun data => data.get "type").bind Json.asStr

/-- `surfaced_event_type`. -/
def surfacedEventType (stored : String) (payload : Json) : String :=
  if stored ≠ "platform" then stored
  else if firstDataType payload = some Resolution.escalateType then Resolution.escalateType
  else stored

/-- A record whose payload is served exactly as stored; `parse` is `serde_json::from_str`. -/
def EventV1.full (parse : String → Option Json) (e : RawEvent) : EventV1 :=
  { id := toString e.id, executionId := e.executionId, sessionId := e.sessionId
    eventType := surfacedEventType e.eventType ((parse e.payload).getD (.str e.payload))
    payload := (parse e.payload).getD (.str e.payload)
    truncated := none, byteSize := none, omittedPaths := none
    msgSeq := e.msgSeq, createdAt := e.createdAt }

/-- The record with the outcome of shortening its payload. -/
def EventV1.withOutcome (record : EventV1) (storedLength : Nat) (outcome : PayloadBudget.Outcome) : EventV1 :=
  { record with
    payload := outcome.payload
    truncated := if outcome.changed ∨ eventPayloadBudgetBytes < outcome.finalSize then some true
      else record.truncated
    byteSize := if outcome.changed ∨ eventPayloadBudgetBytes < outcome.finalSize then some storedLength
      else record.byteSize
    omittedPaths := if outcome.omittedPaths ≠ [] then some outcome.omittedPaths else record.omittedPaths }

/-- `EventV1::from`. -/
def EventV1.ofEvent (parse : String → Option Json) (e : RawEvent) : EventV1 :=
  if e.payload.utf8ByteSize ≤ eventPayloadBudgetBytes then EventV1.full parse e
  else (EventV1.full parse e).withOutcome e.payload.utf8ByteSize
    (PayloadBudget.apply (EventV1.full parse e).payload)

end AgentBeacon
