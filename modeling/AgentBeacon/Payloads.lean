import AgentBeacon.Deserialize
import AgentBeacon.Resolution

/-!
# `Payloads` — payloads as text

The payload columns hold text. This module writes a payload as the text that is stored, and reads the stored
text as `resolution.rs` does: by parsing it and looking at the parts of the value.
-/

namespace AgentBeacon
namespace Resolution

/-- `Value::to_string` of a payload. -/
def stored (payload : Json) : String := payload.normal.serialize

/-- `EscalatePart`. -/
structure EscalatePart where
  batchId : String
  partOrdinal : Nat
  deriving DecidableEq, Repr

/-- `top_role` of the value. -/
def topRole (payload : Json) : Option String := (payload.get "role").bind Json.asStr

/-- The escalation that one part carries. -/
def escalatePart (ordinal : Nat) (part : Json) : Option EscalatePart := do
  let data ← partData part
  if dataType data = some escalateType then
    let batchId ← (← data.get "batch_id").asStr
    some { batchId, partOrdinal := ordinal }
  else none

/-- `escalate_parts` of the value. -/
def escalateParts (payload : Json) : List EscalatePart :=
  if topRole payload ≠ some roleAgent then []
  else match parseParts payload with
    | none => []
    | some parts => parts.zipIdx.filterMap fun (part, ordinal) => escalatePart ordinal part

/-! ## Reading the text -/

/-- `parse_parts`. -/
def partsOfText (payload : String) : Option (List Json) := (Json.fromStr payload).bind parseParts

/-- `escalation_data`. -/
def escalationOfText (payload : String) : Option EscalationData := (Json.fromStr payload).bind escalationData

/-- `escalate_parts`. -/
def escalatePartsOfText (payload : String) : List EscalatePart :=
  match Json.fromStr payload with
  | none => []
  | some value => escalateParts value

end Resolution
end AgentBeacon
