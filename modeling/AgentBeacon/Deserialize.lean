import AgentBeacon.Serialize

/-!
# `Deserialize` — reading the text of a JSON value

`serde_json::from_str` into a `Value`: white space between the tokens, escapes in strings, and at most 127
nested arrays and objects. A `Map` is a `BTreeMap`: its members stand in the order of their keys, and of a key
that occurs again the last value stays. Of numbers only the integers of 64 bits are read, any other keeps its
literal.
-/

namespace AgentBeacon
namespace Json

/-! ## Tokens -/

def isSpace (c : Char) : Bool := c = ' ' || c = '\n' || c = '\t' || c = '\r'

/-- `parse_whitespace`. -/
def skipSpace (text : List Char) : List Char := text.dropWhile isSpace

/-- The text behind a word. -/
def expect (word text : List Char) : Option (List Char) :=
  if word <+: text then some (text.drop word.length) else none

def hexValue (c : Char) : Option Nat :=
  if 48 ≤ c.toNat ∧ c.toNat ≤ 57 then some (c.toNat - 48)
  else if 97 ≤ c.toNat ∧ c.toNat ≤ 102 then some (c.toNat - 87)
  else if 65 ≤ c.toNat ∧ c.toNat ≤ 70 then some (c.toNat - 55)
  else none

/-- `decode_hex_escape`. -/
def readHex : List Char → Option (Nat × List Char)
  | a :: b :: c :: d :: rest => do
      some ((← hexValue a) * 4096 + (← hexValue b) * 256 + (← hexValue c) * 16 + (← hexValue d), rest)
  | _ => none

/-- `parse_unicode_escape`: a leading surrogate takes a trailing one behind it. -/
def readUnicode (text : List Char) : Option (Char × List Char) := do
  let (n, rest) ← readHex text
  if 0xDC00 ≤ n ∧ n ≤ 0xDFFF then none
  else if 0xD800 ≤ n ∧ n ≤ 0xDBFF then do
    let (m, rest) ← readHex (← expect ['\\', 'u'] rest)
    if 0xDC00 ≤ m ∧ m ≤ 0xDFFF then
      some (Char.ofNat ((n - 0xD800) * 0x400 + (m - 0xDC00) + 0x10000), rest)
    else none
  else some (Char.ofNat n, rest)

/-- `parse_escape`. -/
def readEscape : List Char → Option (Char × List Char)
  | [] => none
  | c :: rest =>
      if c = '"' ∨ c = '\\' ∨ c = '/' then some (c, rest)
      else if c = 'b' then some ('\x08', rest)
      else if c = 'f' then some ('\x0c', rest)
      else if c = 'n' then some ('\n', rest)
      else if c = 'r' then some ('\r', rest)
      else if c = 't' then some ('\t', rest)
      else if c = 'u' then readUnicode rest
      else none

/-- `parse_str`, behind the opening quote. -/
def readString : Nat → List Char → Option (List Char × List Char)
  | 0, _ => none
  | _ + 1, [] => none
  | fuel + 1, c :: rest =>
      if c = '"' then some ([], rest)
      else if c = '\\' then
        (readEscape rest).bind fun (c, rest) => (readString fuel rest).map fun (s, rest) => (c :: s, rest)
      else if c.toNat < 0x20 then none
      else (readString fuel rest).map fun (s, rest) => (c :: s, rest)

/-- The digits in front. -/
def digitsOf (text : List Char) : List Char := text.takeWhile Char.isDigit

def behindDigits (text : List Char) : List Char := text.dropWhile Char.isDigit

/-- The fraction of a number, if it has one. -/
def readFraction (text : List Char) : Option (List Char × List Char) :=
  if text.head? = some '.' then
    if digitsOf text.tail = [] then none
    else some ('.' :: digitsOf text.tail, behindDigits text.tail)
  else some ([], text)

/-- The exponent of a number, if it has one. -/
def readExponent (text : List Char) : Option (List Char × List Char) :=
  match text with
  | [] => some ([], text)
  | e :: rest =>
      if e = 'e' ∨ e = 'E' then
        let sign := rest.takeWhile fun c => c = '+' || c = '-'
        let rest := rest.drop sign.length
        if 1 < sign.length ∨ digitsOf rest = [] then none
        else some (e :: (sign ++ digitsOf rest), behindDigits rest)
      else some ([], text)

/-- An integer that fits `i64` or `u64`, and else the literal. -/
def numberOf (negative : Bool) (digits exponent : List Char) : Json :=
  let n := Nat.ofDigitChars 10 digits 0
  if exponent = [] ∧ (if negative then 0 < n ∧ n ≤ 9223372036854775808 else n ≤ 18446744073709551615) then
    .int (if negative then -n else n)
  else .number (String.ofList ((if negative then ['-'] else []) ++ digits ++ exponent))

/-- `parse_any_number`. -/
def readNumber (text : List Char) : Option (Json × List Char) := do
  let negative := text.head? = some '-'
  let rest := if negative then text.tail else text
  let digits := digitsOf rest
  if digits = [] ∨ digits.head? = some '0' ∧ digits ≠ ['0'] then none
  else
    let (fraction, rest) ← readFraction (behindDigits rest)
    let (exponent, rest) ← readExponent rest
    some (numberOf negative digits (fraction ++ exponent), rest)

/-! ## Values -/

/-- `BTreeMap::insert`. -/
def insertMember (key : String) (value : Json) : List (String × Json) → List (String × Json)
  | [] => [(key, value)]
  | (k, v) :: members =>
      if key = k then (k, value) :: members
      else if key.toList < k.toList then (key, value) :: (k, v) :: members
      else (k, v) :: insertMember key value members

/-- The `Map` of the members read. -/
def mapOf (members : List (String × Json)) : List (String × Json) :=
  members.foldl (fun acc m => insertMember m.1 m.2 acc) []

mutual

/-- A value, white space allowed before it; the first argument bounds the steps, the second the nesting. -/
def readValue : Nat → Nat → List Char → Option (Json × List Char)
  | 0, _, _ => none
  | fuel + 1, depth, text =>
      match skipSpace text with
      | [] => none
      | c :: rest =>
          if c = 'n' then (expect ['u', 'l', 'l'] rest).map fun rest => (null, rest)
          else if c = 't' then (expect ['r', 'u', 'e'] rest).map fun rest => (bool true, rest)
          else if c = 'f' then (expect ['a', 'l', 's', 'e'] rest).map fun rest => (bool false, rest)
          else if c = '"' then
            (readString rest.length rest).map fun (s, rest) => (str (String.ofList s), rest)
          else if c = '[' then
            if depth ≤ 1 then none
            else if (skipSpace rest).head? = some ']' then some (arr [], (skipSpace rest).tail)
            else (readItems fuel (depth - 1) rest).map fun (items, rest) => (arr items, rest)
          else if c = '\x7b' then
            if depth ≤ 1 then none
            else if (skipSpace rest).head? = some '\x7d' then some (obj [], (skipSpace rest).tail)
            else (readMembers fuel (depth - 1) rest).map fun (members, rest) => (obj (mapOf members), rest)
          else readNumber (c :: rest)

/-- The items of an array and its end. -/
def readItems : Nat → Nat → List Char → Option (List Json × List Char)
  | 0, _, _ => none
  | fuel + 1, depth, text => do
      let (item, rest) ← readValue fuel depth text
      if (skipSpace rest).head? = some ',' then do
        let (items, rest) ← readItems fuel depth (skipSpace rest).tail
        some (item :: items, rest)
      else if (skipSpace rest).head? = some ']' then some ([item], (skipSpace rest).tail)
      else none

/-- The members of an object and its end. -/
def readMembers : Nat → Nat → List Char → Option (List (String × Json) × List Char)
  | 0, _, _ => none
  | fuel + 1, depth, text => do
      let opening ← expect ['"'] (skipSpace text)
      let (key, rest) ← readString opening.length opening
      let behind ← expect [':'] (skipSpace rest)
      let (value, rest) ← readValue fuel depth behind
      if (skipSpace rest).head? = some ',' then do
        let (members, rest) ← readMembers fuel depth (skipSpace rest).tail
        some ((String.ofList key, value) :: members, rest)
      else if (skipSpace rest).head? = some '\x7d' then
        some ([(String.ofList key, value)], (skipSpace rest).tail)
      else none

end

/-- `serde_json::from_str`. -/
def fromStr (text : String) : Option Json := do
  let (v, rest) ← readValue (text.toList.length + 1) 128 text.toList
  if skipSpace rest = [] then some v else none

/-- `serde_json::from_str` into a `Vec<String>`. -/
def stringsOfText (text : String) : Option (List String) :=
  (fromStr text).bind fun v => v.asArray.bind fun items => items.mapM asStr

/-! ## Values that are read back -/

mutual

/-- The value as `Value` holds it, with its objects in the order of their keys. -/
def normal : Json → Json
  | arr items => arr (normalItems items)
  | obj members => obj (mapOf (normalMembers members))
  | v => v

def normalItems : List Json → List Json
  | [] => []
  | item :: items => normal item :: normalItems items

def normalMembers : List (String × Json) → List (String × Json)
  | [] => []
  | (key, value) :: members => (key, normal value) :: normalMembers members

end

mutual

/-- Every number in the value is an integer of 64 bits. -/
def Integral : Json → Prop
  | int n => -9223372036854775808 ≤ n ∧ n ≤ 18446744073709551615
  | number _ => False
  | arr items => IntegralItems items
  | obj members => IntegralMembers members
  | _ => True

def IntegralItems : List Json → Prop
  | [] => True
  | item :: items => Integral item ∧ IntegralItems items

def IntegralMembers : List (String × Json) → Prop
  | [] => True
  | (_, value) :: members => Integral value ∧ IntegralMembers members

end

mutual

/-- How many arrays and objects are nested. -/
def nesting : Json → Nat
  | arr items => 1 + nestingItems items
  | obj members => 1 + nestingMembers members
  | _ => 0

def nestingItems : List Json → Nat
  | [] => 0
  | item :: items => max (nesting item) (nestingItems items)

def nestingMembers : List (String × Json) → Nat
  | [] => 0
  | (_, value) :: members => max (nesting value) (nestingMembers members)

end

/-! ## Strings -/

theorem hexValue_hexDigit {n : Nat} (h : n < 16) : hexValue (hexDigit n) = some n := by
  have hall : ∀ n < 16, hexValue (hexDigit n) = some n := by decide
  exact hall n h

theorem readHex_control {c : Char} (h : c.toNat < 0x20) (rest : List Char) :
    readHex ('0' :: '0' :: hexDigit (c.toNat / 16) :: hexDigit (c.toNat % 16) :: rest) =
      some (c.toNat, rest) := by
  have hzero : hexValue '0' = some 0 := rfl
  have hhigh := hexValue_hexDigit (n := c.toNat / 16) (by omega)
  have hlow := hexValue_hexDigit (n := c.toNat % 16) (by omega)
  have hvalue : c.toNat / 16 * 16 + c.toNat % 16 = c.toNat := by omega
  simp [readHex, hzero, hhigh, hlow, hvalue]

theorem readEscape_control {c : Char} (h : c.toNat < 0x20) (rest : List Char) :
    readEscape ('u' :: '0' :: '0' :: hexDigit (c.toNat / 16) :: hexDigit (c.toNat % 16) :: rest) =
      some (c, rest) := by
  have hlow : ¬ (0xDC00 ≤ c.toNat ∧ c.toNat ≤ 0xDFFF) := by omega
  have hhigh : ¬ (0xD800 ≤ c.toNat ∧ c.toNat ≤ 0xDBFF) := by omega
  simp [readEscape, readUnicode, readHex_control h, hlow, hhigh]

/-- The escape of a character is read as the character. -/
theorem readString_escapeChar (c : Char) (fuel : Nat) (text : List Char) :
    readString (fuel + 1) (escapeChar c ++ text) =
      (readString fuel text).map fun (s, rest) => (c :: s, rest) := by
  unfold escapeChar
  split
  · next h => simp [readString, readEscape, h]
  split
  · next h => simp [readString, readEscape, h]
  split
  · next h => simp [readString, readEscape, h]
  split
  · next h => simp [readString, readEscape, h]
  split
  · next h => simp [readString, readEscape, h]
  split
  · next h => simp [readString, readEscape, h]
  split
  · next h => simp [readString, readEscape, h]
  split
  · next h => simp [readString, readEscape_control h]
  · next hquote hslash _ _ _ _ _ hcontrol => simp [readString, hquote, hslash, hcontrol]

/-- **A string is read as it was written.** -/
theorem readString_quoted (s rest : List Char) {fuel : Nat} (h : s.length < fuel) :
    readString fuel (s.flatMap escapeChar ++ '"' :: rest) = some (s, rest) := by
  induction s generalizing fuel with
  | nil =>
      obtain ⟨fuel, rfl⟩ := Nat.exists_eq_add_one_of_ne_zero (by omega : fuel ≠ 0)
      rfl
  | cons c s ih =>
      obtain ⟨fuel, rfl⟩ := Nat.exists_eq_add_one_of_ne_zero (by simp at h; omega : fuel ≠ 0)
      have hs : s.length < fuel := by simpa using h
      rw [List.flatMap_cons, List.append_assoc, readString_escapeChar, ih hs]
      rfl

theorem length_le_escaped (s : List Char) : s.length ≤ (s.flatMap escapeChar).length := by
  induction s with
  | nil => exact Nat.le_refl _
  | cons c s ih =>
      have hone : 1 ≤ (escapeChar c).length := by
        unfold escapeChar
        repeat' split
        all_goals simp
      rw [List.flatMap_cons, List.length_append, List.length_cons]
      omega

/-! ## Numbers -/

/-- What may stand behind a number without being read as a part of it. -/
def Delimited (rest : List Char) : Prop :=
  ∀ c, rest.head? = some c → c.isDigit = false ∧ c ≠ '.' ∧ c ≠ 'e' ∧ c ≠ 'E'

theorem head_toDigits (n : Nat) (h : 0 < n) : (Nat.toDigits 10 n).head? ≠ some '0' := by
  induction n using Nat.strongRecOn with
  | ind n ih =>
      rw [Nat.toDigits_eq_if (by decide)]
      split
      · next hlt =>
          have hall : ∀ n < 10, 0 < n → some n.digitChar ≠ some '0' := by decide
          exact hall n hlt h
      · next hge =>
          rw [List.head?_append_of_ne_nil _ Nat.toDigits_ne_nil]
          exact ih (n / 10) (by omega) (by omega)

theorem digitsOf_toDigits (n : Nat) {rest : List Char} (h : Delimited rest) :
    digitsOf (Nat.toDigits 10 n ++ rest) = Nat.toDigits 10 n ∧
      behindDigits (Nat.toDigits 10 n ++ rest) = rest := by
  have hdigits : ∀ c ∈ Nat.toDigits 10 n, c.isDigit = true := fun c hc =>
    Nat.isDigit_of_mem_toDigits (by decide) (by decide) hc
  have hrest : digitsOf rest = [] ∧ behindDigits rest = rest := by
    cases rest with
    | nil => exact ⟨rfl, rfl⟩
    | cons c rest =>
        have hc := (h c rfl).1
        simp [digitsOf, behindDigits, hc]
  constructor
  · unfold digitsOf at *
    rw [List.takeWhile_append_of_pos hdigits, hrest.1, List.append_nil]
  · unfold behindDigits at *
    rw [List.dropWhile_append_of_pos hdigits, hrest.2]

/-- **An integer of 64 bits is read as it was written.** -/
theorem readNumber_decimal {n : Int} (hlow : -9223372036854775808 ≤ n) (hhigh : n ≤ 18446744073709551615)
    {rest : List Char} (h : Delimited rest) : readNumber (decimal n ++ rest) = some (int n, rest) := by
  obtain ⟨hdigits, hbehind⟩ := digitsOf_toDigits n.natAbs h
  have hne : Nat.toDigits 10 n.natAbs ≠ [] := Nat.toDigits_ne_nil
  have hvalue : Nat.ofDigitChars 10 (Nat.toDigits 10 n.natAbs) 0 = n.natAbs := Nat.ofDigitChars_ten_toDigits
  have hzero : ¬ (Nat.toDigits 10 n.natAbs = [] ∨
      (Nat.toDigits 10 n.natAbs).head? = some '0' ∧ Nat.toDigits 10 n.natAbs ≠ ['0']) := by
    rintro (hnil | ⟨hhead, hnot⟩)
    · exact hne hnil
    · by_cases hn : n.natAbs = 0
      · exact hnot (by rw [hn]; rfl)
      · exact head_toDigits n.natAbs (by omega) hhead
  have hfraction : readFraction rest = some ([], rest) := by
    unfold readFraction
    rw [if_neg fun hdot => (h '.' hdot).2.1 rfl]
  have hexponent : readExponent rest = some ([], rest) := by
    unfold readExponent
    cases rest with
    | nil => rfl
    | cons c rest =>
        have hc := (h c rfl).2.2
        simp [hc.1, hc.2]
  by_cases hneg : n < 0
  · have htext : decimal n ++ rest = '-' :: (Nat.toDigits 10 n.natAbs ++ rest) := by
      simp [decimal, hneg]
    have hfit : 0 < n.natAbs ∧ n.natAbs ≤ 9223372036854775808 := by omega
    have hback : -(n.natAbs : Int) = n := by omega
    generalize n.natAbs = m at hdigits hbehind hne hvalue hzero htext hfit hback
    rw [htext]
    unfold readNumber
    simp only [List.head?_cons, decide_true, if_true, List.tail_cons, hdigits, hbehind, if_neg hzero]
    simp [hfraction, hexponent, numberOf, hvalue, hfit, hback]
  · have htext : decimal n ++ rest = Nat.toDigits 10 n.natAbs ++ rest := by
      simp [decimal, hneg]
    have hhead : (Nat.toDigits 10 n.natAbs ++ rest).head? ≠ some '-' := by
      obtain ⟨d, ds, hd⟩ := List.exists_cons_of_ne_nil hne
      have hdigit : d.isDigit = true :=
        Nat.isDigit_of_mem_toDigits (by decide) (by decide) (hd ▸ List.mem_cons_self)
      rw [hd]
      simp only [List.cons_append, List.head?_cons, ne_eq, Option.some.injEq]
      rintro rfl
      exact absurd hdigit (by decide)
    have hfit : n.natAbs ≤ 18446744073709551615 := by omega
    have hback : (n.natAbs : Int) = n := by omega
    generalize n.natAbs = m at hdigits hbehind hne hvalue hzero htext hhead hfit hback
    rw [htext]
    unfold readNumber
    simp only [hhead, decide_false, if_false, hdigits, hbehind, if_neg hzero]
    simp [hfraction, hexponent, numberOf, hvalue, hfit, hback]

/-! ## Values -/

theorem skipSpace_cons {c : Char} (h : isSpace c = false) (text : List Char) :
    skipSpace (c :: text) = c :: text := by
  simp [skipSpace, h]

theorem expect_cons (c : Char) (text : List Char) : expect [c] (c :: text) = some text := by
  simp [expect]

theorem delimited_nil : Delimited [] := by
  intro c hc
  cases hc

theorem delimited_cons {c : Char} (h : c = ',' ∨ c = ']' ∨ c = '\x7d') (rest : List Char) :
    Delimited (c :: rest) := by
  intro d hd
  obtain rfl : c = d := by simpa using hd
  rcases h with rfl | rfl | rfl <;> decide

theorem decimal_starts {n : Int} {c : Char} {text : List Char} (h : decimal n = c :: text) :
    c = '-' ∨ c.isDigit = true := by
  unfold decimal at h
  split at h
  · exact .inl (List.cons.inj h).1.symm
  · have hmem : c ∈ Nat.toDigits 10 n.natAbs := by
      rw [List.nil_append] at h
      rw [h]
      exact List.mem_cons_self
    exact .inr (Nat.isDigit_of_mem_toDigits (by decide) (by decide) hmem)

/-- A number begins no other value. -/
theorem number_starts {c : Char} (h : c = '-' ∨ c.isDigit = true) :
    c ≠ 'n' ∧ c ≠ 't' ∧ c ≠ 'f' ∧ c ≠ '"' ∧ c ≠ '[' ∧ c ≠ '\x7b' := by
  refine ⟨?_, ?_, ?_, ?_, ?_, ?_⟩ <;> (rintro rfl; exact absurd h (by decide))

/-- No text of a value begins with white space or with the end of an array. -/
theorem compact_starts {v : Json} (h : Integral v) :
    ∃ c text, v.compact = c :: text ∧ isSpace c = false ∧ c ≠ ']' ∧ c ≠ '\x7d' := by
  cases v with
  | int n =>
      have hdigit (m : Nat) : ∃ d ds, Nat.toDigits 10 m = d :: ds ∧ d.isDigit = true := by
        obtain ⟨d, ds, hd⟩ := List.exists_cons_of_ne_nil (Nat.toDigits_ne_nil (n := m) (b := 10))
        exact ⟨d, ds, hd, Nat.isDigit_of_mem_toDigits (by decide) (by decide) (hd ▸ List.mem_cons_self)⟩
      by_cases hneg : n < 0
      · exact ⟨'-', Nat.toDigits 10 n.natAbs, by simp [compact, decimal, hneg], by decide⟩
      · obtain ⟨d, ds, hd, hisdigit⟩ := hdigit n.natAbs
        refine ⟨d, ds, by simp [compact, decimal, hneg, hd], ?_, ?_, ?_⟩
        · rw [isSpace, ← Bool.not_eq_true]
          intro hspace
          simp only [Bool.or_eq_true, decide_eq_true_eq] at hspace
          rcases hspace with ((rfl | rfl) | rfl) | rfl <;> exact absurd hisdigit (by decide)
        · rintro rfl
          exact absurd hisdigit (by decide)
        · rintro rfl
          exact absurd hisdigit (by decide)
  | number _ => exact h.elim
  | null => exact ⟨_, _, rfl, by decide⟩
  | bool b => cases b <;> exact ⟨_, _, rfl, by decide⟩
  | str s => exact ⟨_, _, rfl, by decide⟩
  | arr items => exact ⟨_, _, rfl, by decide⟩
  | obj members => exact ⟨_, _, rfl, by decide⟩

mutual

/-- By induction on the value: its text is read as the value, up to the order of the members. -/
theorem readValue_compact : ∀ (v : Json) (fuel depth : Nat) {rest : List Char}, Integral v →
    nesting v < depth → v.compact.length ≤ fuel → Delimited rest →
    readValue fuel depth (v.compact ++ rest) = some (normal v, rest)
  | v, fuel, depth, rest, hint, hdepth, hfuel, hrest => by
    obtain ⟨c, text, hstarts, hspace, -, -⟩ := compact_starts hint
    obtain ⟨fuel, rfl⟩ : ∃ n, fuel = n + 1 := by
      rw [hstarts, List.length_cons] at hfuel
      exact ⟨fuel - 1, by omega⟩
    cases v with
    | null => simp [compact, readValue, skipSpace, isSpace, expect, normal]
    | bool b => cases b <;> simp [compact, readValue, skipSpace, isSpace, expect, normal]
    | number _ => exact hint.elim
    | int n =>
      have hnumber := readNumber_decimal hint.1 hint.2 hrest
      replace hstarts : decimal n = c :: text := hstarts
      have hword : c ≠ 'n' ∧ c ≠ 't' ∧ c ≠ 'f' ∧ c ≠ '"' ∧ c ≠ '[' ∧ c ≠ '\x7b' :=
        number_starts (decimal_starts hstarts)
      rw [hstarts, List.cons_append] at hnumber
      rw [compact, hstarts, List.cons_append]
      rw [readValue, skipSpace_cons hspace]
      simp [hword, hnumber, normal]
    | str s =>
      have hs : s.toList.length < (s.toList.flatMap escapeChar ++ '"' :: rest).length := by
        have hle := length_le_escaped s.toList
        rw [List.length_append, List.length_cons]
        omega
      have hstring := readString_quoted s.toList rest hs
      rw [compact, quoted, List.cons_append, List.append_assoc, List.singleton_append, readValue,
        skipSpace_cons (by decide)]
      simp only [Char.reduceEq, if_false, if_true, hstring, Option.map_some, String.ofList_toList, normal]
    | arr items =>
      have hopen : ¬ depth ≤ 1 := by
        rw [nesting] at hdepth
        omega
      rw [compact, List.cons_append, List.append_assoc, List.singleton_append, readValue,
        skipSpace_cons (by decide)]
      cases items with
      | nil => simp [compactItems, hopen, skipSpace, isSpace, normal, normalItems]
      | cons item items =>
        have hne : item :: items ≠ [] := List.cons_ne_nil _ _
        have hnesting : nestingItems (item :: items) < depth - 1 := by
          rw [nesting] at hdepth
          omega
        have hlength : (compactItems (item :: items)).length ≤ fuel := by
          rw [compact, List.length_cons, List.length_append, List.length_tail, List.length_singleton] at hfuel
          rw [compactItems, List.length_cons] at hfuel ⊢
          omega
        have hitems := readItems_compact (item :: items) fuel (depth - 1) hne hint hnesting hlength rest
        have hfirst : (skipSpace ((compactItems (item :: items)).tail ++ ']' :: rest)).head? ≠ some ']' := by
          obtain ⟨d, ds, hd, hdspace, hdclose, -⟩ := compact_starts hint.1
          rw [compactItems, List.tail_cons, hd, List.cons_append, List.cons_append, skipSpace_cons hdspace]
          simpa using hdclose
        simp [hopen, hfirst, hitems, normal]
    | obj members =>
      have hopen : ¬ depth ≤ 1 := by
        rw [nesting] at hdepth
        omega
      rw [compact, List.cons_append, List.append_assoc, List.singleton_append, readValue,
        skipSpace_cons (by decide)]
      cases members with
      | nil => simp [compactMembers, hopen, skipSpace, isSpace, normal, normalMembers, mapOf]
      | cons m members =>
        have hne : m :: members ≠ [] := List.cons_ne_nil _ _
        have hnesting : nestingMembers (m :: members) < depth - 1 := by
          rw [nesting] at hdepth
          omega
        have hlength : (compactMembers (m :: members)).length ≤ fuel := by
          rw [compact, List.length_cons, List.length_append, List.length_tail, List.length_singleton] at hfuel
          rw [compactMembers, List.length_cons] at hfuel ⊢
          omega
        have hmembers := readMembers_compact (m :: members) fuel (depth - 1) hne hint hnesting hlength rest
        have hfirst : (skipSpace ((compactMembers (m :: members)).tail ++ '\x7d' :: rest)).head? ≠
            some '\x7d' := by
          rw [compactMembers, List.tail_cons, quoted, List.cons_append, List.cons_append,
            skipSpace_cons (by decide)]
          simp
        simp [hopen, hfirst, hmembers, normal]

theorem readItems_compact : ∀ (items : List Json) (fuel depth : Nat), items ≠ [] → IntegralItems items →
    nestingItems items < depth → (compactItems items).length ≤ fuel → ∀ rest : List Char,
    readItems fuel depth ((compactItems items).tail ++ ']' :: rest) = some (normalItems items, rest)
  | [], _, _, hne, _, _, _, _ => absurd rfl hne
  | item :: items, fuel, depth, _, hint, hdepth, hfuel, rest => by
    obtain ⟨fuel, rfl⟩ : ∃ n, fuel = n + 1 := by
      rw [compactItems, List.length_cons] at hfuel
      exact ⟨fuel - 1, by omega⟩
    rw [compactItems, List.length_cons, List.length_append] at hfuel
    rw [nestingItems] at hdepth
    rw [compactItems, List.tail_cons, List.append_assoc, readItems]
    cases items with
    | nil =>
      have hvalue := readValue_compact item fuel depth hint.1 (by omega) (by omega)
        (delimited_cons (.inr (.inl rfl)) rest)
      rw [compactItems, List.nil_append, hvalue]
      simp [skipSpace, isSpace, normalItems]
    | cons item' items =>
      have hmore := readItems_compact (item' :: items) fuel depth (List.cons_ne_nil _ _) hint.2
        (by omega) (by omega) rest
      rw [compactItems, List.tail_cons] at hmore
      have hvalue := readValue_compact item fuel depth hint.1 (by omega) (by omega)
        (delimited_cons (.inl rfl) (compact item' ++ compactItems items ++ ']' :: rest))
      rw [compactItems, List.cons_append, hvalue]
      simp only [Option.bind_eq_bind, Option.bind_some, skipSpace_cons (by decide : isSpace ',' = false),
        List.head?_cons, if_true, List.tail_cons, hmore]
      rfl

theorem readMembers_compact : ∀ (members : List (String × Json)) (fuel depth : Nat), members ≠ [] →
    IntegralMembers members → nestingMembers members < depth → (compactMembers members).length ≤ fuel →
    ∀ rest : List Char, readMembers fuel depth ((compactMembers members).tail ++ '\x7d' :: rest) =
      some (normalMembers members, rest)
  | [], _, _, hne, _, _, _, _ => absurd rfl hne
  | (key, value) :: members, fuel, depth, _, hint, hdepth, hfuel, rest => by
    obtain ⟨fuel, rfl⟩ : ∃ n, fuel = n + 1 := by
      rw [compactMembers, List.length_cons] at hfuel
      exact ⟨fuel - 1, by omega⟩
    rw [compactMembers, List.length_cons, List.length_append, List.length_cons, List.length_append] at hfuel
    rw [nestingMembers] at hdepth
    have hs : key.toList.length < (key.toList.flatMap escapeChar ++ '"' :: ':' :: (compact value ++
        (compactMembers members ++ '\x7d' :: rest))).length := by
      have hle := length_le_escaped key.toList
      rw [List.length_append, List.length_cons]
      omega
    have hkey := readString_quoted key.toList (':' :: (compact value ++ (compactMembers members ++ '\x7d' :: rest))) hs
    have hquote : isSpace '"' = false := by decide
    have hcolon : isSpace ':' = false := by decide
    rw [compactMembers, List.tail_cons, quoted, readMembers]
    simp only [List.cons_append, List.append_assoc, List.nil_append, skipSpace_cons hquote]
    rw [expect_cons]
    simp only [Option.bind_eq_bind, Option.bind_some, hkey, skipSpace_cons hcolon, expect_cons]
    cases members with
    | nil =>
      have hvalue := readValue_compact value fuel depth hint.1 (by omega) (by omega)
        (delimited_cons (.inr (.inr rfl)) rest)
      rw [compactMembers, List.nil_append, hvalue]
      simp [skipSpace, isSpace, normalMembers]
    | cons m members =>
      have hmore := readMembers_compact (m :: members) fuel depth (List.cons_ne_nil _ _) hint.2
        (by omega) (by omega) rest
      have hcomma : compactMembers (m :: members) = ',' :: (compactMembers (m :: members)).tail := rfl
      have hvalue := readValue_compact value fuel depth hint.1 (by omega) (by omega)
        (delimited_cons (.inl rfl) ((compactMembers (m :: members)).tail ++ '\x7d' :: rest))
      rw [hcomma, List.cons_append, hvalue]
      simp only [Option.bind_some, skipSpace_cons (by decide : isSpace ',' = false), List.head?_cons,
        if_true, List.tail_cons, hmore, String.ofList_toList]
      rfl

end

/-- **A value is read back from its text.** -/
theorem fromStr_serialize {v : Json} (hint : Integral v) (hnesting : nesting v < 128) :
    fromStr v.serialize = some (normal v) := by
  have hvalue := readValue_compact v (v.compact.length + 1) 128 hint hnesting (by omega) delimited_nil
  rw [List.append_nil] at hvalue
  unfold fromStr serialize
  rw [String.toList_ofList, hvalue]
  rfl

end Json
end AgentBeacon
