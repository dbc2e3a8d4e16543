import Mathlib.Data.Int.Notation

/-!
# `Json` — the payload values of `serde_json`

Payload columns hold the serialized text of a JSON value and are only ever read by parsing them
back, so a payload is modelled by its value. Only integers are numbers the scheduler looks at;
any other number keeps its literal.
-/

namespace AgentBeacon

/-- A `serde_json::Value`. -/
inductive Json where
  | null
  | bool (b : Bool)
  | int (n : Int)
  | number (literal : String)
  | str (s : String)
  | arr (items : List Json)
  | obj (members : List (String × Json))

namespace Json

/-- `Value::get` with a key: objects only. -/
def get : Json → String → Option Json
  | obj members, key => members.lookup key
  | _, _ => none

def isObject : Json → Bool
  | obj _ => true
  | _ => false

def asStr : Json → Option String
  | str s => some s
  | _ => none

def asBool : Json → Option Bool
  | bool b => some b
  | _ => none

def asArray : Json → Option (List Json)
  | arr items => some items
  | _ => none

/-- `Number::as_i64`: integers outside the `i64` range have none. -/
def asI64 : Json → Option Int
  | int n => if -9223372036854775808 ≤ n ∧ n ≤ 9223372036854775807 then some n else none
  | _ => none

@[simp] theorem get_obj (members : List (String × Json)) (key : String) :
    (obj members).get key = members.lookup key := rfl

/-- `json!({"text": …})`, a text part. -/
def textPart (text : String) : Json := obj [("text", str text)]

/-- `json!({"data": …})`, a data part. -/
def dataPart (data : Json) : Json := obj [("data", data)]

/-! ## Comparing values -/

mutual

/-- Whether two values are the same, by their structure. -/
def same : Json → Json → Bool
  | null, null => true
  | bool b, bool c => b = c
  | int n, int m => n = m
  | number l, number m => l = m
  | str s, str t => s = t
  | arr items, arr items' => sameItems items items'
  | obj members, obj members' => sameMembers members members'
  | _, _ => false

def sameItems : List Json → List Json → Bool
  | [], [] => true
  | item :: items, item' :: items' => same item item' && sameItems items items'
  | _, _ => false

def sameMembers : List (String × Json) → List (String × Json) → Bool
  | [], [] => true
  | (key, value) :: members, (key', value') :: members' =>
      (key = key' && same value value') && sameMembers members members'
  | _, _ => false

end

mutual

theorem same_iff : ∀ a b : Json, same a b = true ↔ a = b
  | a, b => by
    cases a with
    | arr items =>
      cases b with
      | arr items' => rw [same, sameItems_iff items items', arr.injEq]
      | _ => exact iff_of_false (by unfold same; nofun) nofun
    | obj members =>
      cases b with
      | obj members' => rw [same, sameMembers_iff members members', obj.injEq]
      | _ => exact iff_of_false (by unfold same; nofun) nofun
    | _ => cases b <;> simp [same]

theorem sameItems_iff : ∀ l m : List Json, sameItems l m = true ↔ l = m
  | [], [] => by simp [sameItems]
  | [], _ :: _ => by simp [sameItems]
  | _ :: _, [] => by simp [sameItems]
  | item :: items, item' :: items' => by
    rw [sameItems, Bool.and_eq_true, same_iff item item', sameItems_iff items items', List.cons.injEq]

theorem sameMembers_iff : ∀ l m : List (String × Json), sameMembers l m = true ↔ l = m
  | [], [] => by simp [sameMembers]
  | [], _ :: _ => by simp [sameMembers]
  | _ :: _, [] => by simp [sameMembers]
  | (key, value) :: members, (key', value') :: members' => by
    rw [sameMembers, Bool.and_eq_true, Bool.and_eq_true, same_iff value value',
      sameMembers_iff members members', decide_eq_true_iff, List.cons.injEq, Prod.mk.injEq]

end

instance : DecidableEq Json := fun a b => decidable_of_iff _ (same_iff a b)

end Json

/-- `char::is_whitespace`. -/
def isWhitespace (c : Char) : Bool :=
  (9 ≤ c.toNat && c.toNat ≤ 13) || c.toNat = 0x20 || c.toNat = 0x85 || c.toNat = 0xA0 ||
  c.toNat = 0x1680 || (0x2000 ≤ c.toNat && c.toNat ≤ 0x200A) || c.toNat = 0x2028 ||
  c.toNat = 0x2029 || c.toNat = 0x202F || c.toNat = 0x205F || c.toNat = 0x3000

end AgentBeacon
