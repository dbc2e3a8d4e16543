import AgentBeacon.Deserialize
import AgentBeacon.Lib.Canonical
import AgentBeacon.Network.Entry
import Mathlib.Data.Char
import Mathlib.Data.List.Lex

/-!
# `Network.Ceiling` — the network ceiling of an execution

A ceiling has three forms (`services/network_policy/ceiling.rs`): the object that is authored, the two columns
in which it is stored, and the object that is sent.
-/

namespace AgentBeacon
namespace Network

inductive Mode where
  | none | allowlist | egress
  deriving DecidableEq, Repr

namespace Mode

def asStr : Mode → String
  | none => "none"
  | allowlist => "allowlist"
  | egress => "egress"

def parse (s : String) : Option Mode :=
  if s = "none" then some none
  else if s = "allowlist" then some allowlist
  else if s = "egress" then some egress
  else Option.none

@[simp] theorem parse_asStr (m : Mode) : parse m.asStr = some m := by
  cases m <;> decide

theorem asStr_of_parse {s : String} {m : Mode} (h : parse s = some m) : m.asStr = s := by
  unfold parse at h
  split at h
  · next hs =>
      cases h
      exact hs.symm
  · split at h
    · next hs =>
        cases h
        exact hs.symm
    · split at h
      · next hs =>
          cases h
          exact hs.symm
      · cases h

end Mode

structure Policy where
  mode : Mode
  entries : List Entry
  deriving DecidableEq

inductive Ceiling where
  | unsandboxed
  | sandboxed (policy : Policy)
  deriving DecidableEq

/-- `CeilingError`. -/
structure CeilingError where
  detail : String
  entries : List EntryError

def CeilingError.shape (detail : String) : CeilingError := ⟨detail, []⟩

variable (outside : Outside)

/-! ## Authored entries -/

/-- One entry of `parse_authored_entries`. -/
def checkEntry (text : String) : Except EntryError Entry :=
  match Entry.parse outside text.toList with
  | .error e => .error e
  | .ok entry =>
      match checkAuthorable entry with
      | .ok () => .ok entry
      | .error reason => .error ⟨text.toList, reason⟩

/-- The loop: the entries that are accepted and those that are refused. -/
def readEntries (shape : String) : List Json → Except CeilingError (List Entry × List EntryError)
  | [] => .ok ([], [])
  | value :: raw =>
      match value.asStr with
      | none => .error (.shape shape)
      | some text =>
          match readEntries shape raw with
          | .error e => .error e
          | .ok (entries, refused) =>
              match checkEntry outside text with
              | .ok entry => .ok (entry :: entries, refused)
              | .error e => .ok (entries, e :: refused)

/-- `canonical_order`: by the text of the entries. -/
def canonicalOrder (entries : List Entry) : List Entry :=
  Canonical.canonical (fun e => e.show outside) entries

/-- `parse_authored_entries`. -/
def parseAuthoredEntries (raw : List Json) (shape : String) : Except CeilingError (List Entry) :=
  match readEntries outside shape raw with
  | .error e => .error e
  | .ok (entries, refused) =>
      if refused ≠ [] then
        .error { detail := if refused.length = 1 then "1 network entry is invalid"
                           else s!"{refused.length} network entries are invalid"
                 entries := refused }
      else .ok (canonicalOrder outside entries)

def entriesShape : String := "network.entries must be an array of strings"

/-- `parse_sandboxed`. -/
def parseSandboxed (members : List (String × Json)) : Except CeilingError Policy :=
  match members.find? fun m => m.1 ∉ ["kind", "mode", "entries"] with
  | some (key, _) => .error (.shape s!"unknown network field: {key}")
  | none =>
      match ((members.lookup "mode").bind Json.asStr).bind Mode.parse with
      | none => .error (.shape "network.mode must be one of none, allowlist, egress")
      | some mode =>
          let raw : Except CeilingError (List Json) :=
            match members.lookup "entries" with
            | none =>
                if mode = .allowlist then .error (.shape "allowlist requires entries") else .ok []
            | some (.arr items) => .ok items
            | some _ => .error (.shape entriesShape)
          match raw with
          | .error e => .error e
          | .ok raw =>
              if mode = .none ∧ raw ≠ [] then .error (.shape "mode none takes no entries")
              else
                match parseAuthoredEntries outside raw entriesShape with
                | .error e => .error e
                | .ok entries => .ok ⟨mode, entries⟩

def kindShape : String := "network.kind must be \"unsandboxed\" or \"sandboxed\""

namespace Ceiling

/-- `Ceiling::parse_authored`. -/
def parseAuthored (value : Json) : Except CeilingError Ceiling :=
  match value with
  | .obj members =>
      match members.lookup "kind" with
      | none => .error (.shape "network.kind is required")
      | some (.str kind) =>
          if kind = "unsandboxed" then
            if 1 < members.length then
              .error (.shape "a network of kind unsandboxed takes no other fields")
            else .ok .unsandboxed
          else if kind = "sandboxed" then (parseSandboxed outside members).map .sandboxed
          else .error (.shape kindShape)
      | some _ => .error (.shape kindShape)
  | _ => .error (.shape "network must be an object with a kind")

/-- The texts of the entries. -/
def texts (entries : List Entry) : List String := entries.map fun e => String.ofList (e.show outside)

/-- `Ceiling::to_wire`. -/
def toWire : Ceiling → Json
  | unsandboxed => .obj [("kind", .str "unsandboxed")]
  | sandboxed p => .obj [("kind", .str "sandboxed"), ("mode", .str p.mode.asStr),
      ("entries", .arr ((texts outside p.entries).map .str))]

/-- `serde_json::to_string` of a list of strings. -/
def textOfStrings (strings : List String) : String := (Json.arr (strings.map .str)).serialize

/-- `Ceiling::to_columns`. -/
def toColumns : Ceiling → String × String
  | unsandboxed => ("unsandboxed", "[]")
  | sandboxed p => (p.mode.asStr, textOfStrings (texts outside p.entries))

/-- The error of `from_columns`. -/
def malformed (mode entries : String) : String :=
  s!"malformed ceiling in DB: mode {outside.debug mode.toList}, entries {outside.debug entries.toList}"

/-- The loop of `from_columns`. -/
def parseStored : List String → Option (List Entry)
  | [] => some []
  | text :: rest =>
      match Entry.parse outside text.toList with
      | .error _ => none
      | .ok entry =>
          if String.ofList (entry.show outside) ≠ text ∨ (checkAuthorable entry).toBool = false then none
          else (parseStored rest).map (entry :: ·)

/-- `Ceiling::from_columns`. -/
def fromColumns (mode entries : String) : Except String Ceiling :=
  match Json.stringsOfText entries with
  | none => .error (malformed outside mode entries)
  | some texts =>
      if mode = "unsandboxed" then
        if texts = [] then .ok .unsandboxed else .error (malformed outside mode entries)
      else
        match Mode.parse mode with
        | none => .error (malformed outside mode entries)
        | some m =>
            match parseStored outside texts with
            | none => .error (malformed outside mode entries)
            | some parsed =>
                if canonicalOrder outside parsed ≠ parsed ∨ m = .none ∧ parsed ≠ [] then
                  .error (malformed outside mode entries)
                else .ok (.sandboxed ⟨m, parsed⟩)

end Ceiling

end Network
end AgentBeacon
