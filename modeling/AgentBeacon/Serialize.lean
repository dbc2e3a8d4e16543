import AgentBeacon.Json
import Mathlib.Algebra.BigOperators.Group.List.Basic
import Mathlib.Algebra.GroupWithZero.Nat

/-!
# `Serialize` — the compact text of a JSON value

`serde_json::to_string`: no white space, integers in decimal, every other number as its literal, and in
strings an escape for the quote, the backslash and the control characters. Its length is counted in bytes of
UTF-8, as the caps and budgets of the scheduler count it.
-/

namespace AgentBeacon

/-- The length in UTF-8. -/
def utf8Length (cs : List Char) : Nat := (cs.map Char.utf8Size).sum

@[simp] theorem utf8Length_nil : utf8Length [] = 0 := rfl

@[simp] theorem utf8Length_cons (c : Char) (cs : List Char) :
    utf8Length (c :: cs) = c.utf8Size + utf8Length cs := by
  simp [utf8Length]

@[simp] theorem utf8Length_append (cs ds : List Char) :
    utf8Length (cs ++ ds) = utf8Length cs + utf8Length ds := by
  simp [utf8Length]

theorem utf8ByteSize_ofList (cs : List Char) : (String.ofList cs).utf8ByteSize = utf8Length cs := by
  induction cs with
  | nil => rfl
  | cons c cs ih =>
      rw [← List.singleton_append, String.ofList_append, String.utf8ByteSize_append, ih]
      simp [utf8Length, String.utf8ByteSize_singleton]

namespace Json

/-- A hexadecimal digit, as `ESCAPE` is formatted. -/
def hexDigit (n : Nat) : Char := if n < 10 then Char.ofNat (48 + n) else Char.ofNat (87 + n)

/-- `format_escaped_str_contents`, one character. -/
def escapeChar (c : Char) : List Char :=
  if c = '"' then ['\\', '"']
  else if c = '\\' then ['\\', '\\']
  else if c = '\x08' then ['\\', 'b']
  else if c = '\t' then ['\\', 't']
  else if c = '\n' then ['\\', 'n']
  else if c = '\x0c' then ['\\', 'f']
  else if c = '\r' then ['\\', 'r']
  else if c.toNat < 0x20 then ['\\', 'u', '0', '0', hexDigit (c.toNat / 16), hexDigit (c.toNat % 16)]
  else [c]

/-- A string with its quotes. -/
def quoted (s : String) : List Char := '"' :: (s.toList.flatMap escapeChar ++ ['"'])

/-- An integer in decimal. -/
def decimal (n : Int) : List Char := (if n < 0 then ['-'] else []) ++ Nat.toDigits 10 n.natAbs

mutual

/-- The characters of the compact serialization. -/
def compact : Json → List Char
  | null => ['n', 'u', 'l', 'l']
  | bool true => ['t', 'r', 'u', 'e']
  | bool false => ['f', 'a', 'l', 's', 'e']
  | int n => decimal n
  | number literal => literal.toList
  | str s => quoted s
  | arr items => '[' :: ((compactItems items).tail ++ [']'])
  | obj members => '{' :: ((compactMembers members).tail ++ ['}'])

/-- The items, each behind a comma. -/
def compactItems : List Json → List Char
  | [] => []
  | item :: items => ',' :: (compact item ++ compactItems items)

/-- The members, each behind a comma. -/
def compactMembers : List (String × Json) → List Char
  | [] => []
  | (key, value) :: members => ',' :: (quoted key ++ ':' :: (compact value ++ compactMembers members))

end

/-- `serde_json::to_string`. -/
def serialize (v : Json) : String := String.ofList v.compact

/-- The length of the serialization, in bytes. -/
def serializedLength (v : Json) : Nat := v.serialize.utf8ByteSize

theorem serializedLength_eq (v : Json) : v.serializedLength = utf8Length v.compact := utf8ByteSize_ofList _

/-! ## Lengths -/

/-- The length of an item behind its comma. -/
theorem utf8Length_compactItems (items : List Json) :
    utf8Length (compactItems items) = (items.map fun item => 1 + item.serializedLength).sum := by
  induction items with
  | nil => rfl
  | cons item items ih =>
      have hcomma : Char.utf8Size ',' = 1 := rfl
      simp [compactItems, ih, hcomma, serializedLength_eq]
      omega

theorem utf8Length_compactMembers (members : List (String × Json)) :
    utf8Length (compactMembers members) =
      (members.map fun m => 2 + utf8Length (quoted m.1) + m.2.serializedLength).sum := by
  induction members with
  | nil => rfl
  | cons m members ih =>
      obtain ⟨key, value⟩ := m
      have hcomma : Char.utf8Size ',' = 1 := rfl
      have hcolon : Char.utf8Size ':' = 1 := rfl
      simp [compactMembers, ih, hcomma, hcolon, serializedLength_eq]
      omega

/-- The first comma is not written. -/
theorem serializedLength_arr (items : List Json) :
    (arr items).serializedLength + (if items = [] then 0 else 1) =
      2 + (items.map fun item => 1 + item.serializedLength).sum := by
  have hopen : Char.utf8Size '[' = 1 := rfl
  have hclose : Char.utf8Size ']' = 1 := rfl
  have hcomma : Char.utf8Size ',' = 1 := rfl
  rw [← utf8Length_compactItems, serializedLength_eq]
  cases items with
  | nil => rfl
  | cons item items =>
      simp [compact, compactItems, hopen, hclose, hcomma]
      omega

theorem serializedLength_obj (members : List (String × Json)) :
    (obj members).serializedLength + (if members = [] then 0 else 1) =
      2 + (members.map fun m => 2 + utf8Length (quoted m.1) + m.2.serializedLength).sum := by
  have hopen : Char.utf8Size '\x7b' = 1 := rfl
  have hclose : Char.utf8Size '\x7d' = 1 := rfl
  have hcomma : Char.utf8Size ',' = 1 := rfl
  rw [← utf8Length_compactMembers, serializedLength_eq]
  cases members with
  | nil => rfl
  | cons m members =>
      obtain ⟨key, value⟩ := m
      simp [compact, compactMembers, hopen, hclose, hcomma]
      omega

/-- **The order of the members does not change the length.** -/
theorem serializedLength_perm {members members' : List (String × Json)} (h : members.Perm members') :
    (obj members).serializedLength = (obj members').serializedLength := by
  have hsum := (h.map fun m => 2 + utf8Length (quoted m.1) + m.2.serializedLength).sum_eq
  have hl := serializedLength_obj members
  have hr := serializedLength_obj members'
  have hempty : members = [] ↔ members' = [] := ⟨fun hnil => (hnil ▸ h).nil_eq.symm, fun hnil => (hnil ▸ h).eq_nil⟩
  simp only [hempty] at hl
  omega

end Json

end AgentBeacon
