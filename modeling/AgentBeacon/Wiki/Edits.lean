import AgentBeacon.Lib.Matching
import AgentBeacon.Serialize
import AgentBeacon.Wiki.Pages

/-!
# `Wiki.Edits` — the edits of a patch request

`apply_edits` of `api/wiki.rs` replaces in the text of a page what the edits name, one edit after the other.
It searches in strings and, for the second match, in bytes; a slice of a string that does not end between
characters panics, which the outer `Option` of the functions here stands for.
-/

namespace AgentBeacon
open Matching

/-! ## Strings as bytes -/

/-- `str::as_bytes`. -/
def asBytes (text : List Char) : List UInt8 := text.flatMap String.utf8EncodeChar

/-- `str::find`: the position in bytes. -/
def findStr (pattern text : List Char) : Option Nat := findBy Char.utf8Size pattern text

/-- `memchr::memmem::find`. -/
def memmemFind (haystack needle : List UInt8) : Option Nat := findBy (fun _ => 1) needle haystack

/-- `<[u8]>::get` from a position on. -/
def bytesFrom (bytes : List UInt8) (n : Nat) : Option (List UInt8) :=
  if n ≤ bytes.length then some (bytes.drop n) else none

/-- `&text[..n]` and `&text[n..]`. -/
def sliceAt : Nat → List Char → Option (List Char × List Char)
  | 0, text => some ([], text)
  | _ + 1, [] => none
  | n + 1, c :: text =>
      if c.utf8Size ≤ n + 1 then (sliceAt (n + 1 - c.utf8Size) text).map fun (u, v) => (c :: u, v)
      else none

/-! ## Edits -/

/-- `PatchEdit`. -/
structure PatchEdit where
  oldString : String
  newString : String
  replaceAll : Bool

/-- The body of the loop. -/
def applyEdit (current : List Char) (edit : PatchEdit) : Option (Except BodyEditReason (List Char)) :=
  if edit.replaceAll then
    if (findStr edit.oldString.toList current).isNone then some (.error .notFound)
    else some (.ok (replaceAll edit.oldString.toList edit.newString.toList 0 current))
  else
    match findStr edit.oldString.toList current with
    | none => some (.error .notFound)
    | some pos =>
        if ((bytesFrom (asBytes current) (pos + 1)).bind fun slice =>
            memmemFind slice (asBytes edit.oldString.toList)).isSome then
          some (.error .multipleMatches)
        else do
          let (before, _) ← sliceAt pos current
          let (_, after) ← sliceAt (pos + utf8Length edit.oldString.toList) current
          some (.ok (before ++ edit.newString.toList ++ after))

/-- The loop, from an index on, and the check behind it. -/
def applyEditsFrom (i : Nat) (current : List Char) :
    List PatchEdit → Option (Except BodyEditFailure (List Char))
  | [] => some (if current = [] then .error ⟨none, .emptyResult⟩ else .ok current)
  | edit :: edits =>
      match applyEdit current edit with
      | none => none
      | some (.error reason) => some (.error ⟨some i, reason⟩)
      | some (.ok next) => applyEditsFrom (i + 1) next edits

/-- `apply_edits`. -/
def applyEdits (body : String) (edits : List PatchEdit) : Option (Except BodyEditFailure String) :=
  (applyEditsFrom 0 body.toList edits).map fun r => r.map String.ofList

/-! ## Matches and bytes -/

theorem utf8_synchronized : Synchronized String.utf8EncodeChar (fun b => b.IsUTF8FirstByte) where
  starts c := by
    obtain ⟨b, bs, hb⟩ := List.exists_cons_of_ne_nil (String.utf8EncodeChar_ne_nil (c := c))
    have hfirst (i : Nat) (hi : i < (b :: bs).length) : (b :: bs)[i].IsUTF8FirstByte ↔ i = 0 := by
      simp only [← hb]
      exact UInt8.isUTF8FirstByte_getElem_utf8EncodeChar
    refine ⟨b, bs, hb, (hfirst 0 (by simp)).mpr rfl, fun c hc hcfirst => ?_⟩
    obtain ⟨i, hi, rfl⟩ := List.mem_iff_getElem.mp hc
    have hzero := (hfirst (i + 1) (by simpa using hi)).mp hcfirst
    omega
  prefixFree c c' h := by
    obtain ⟨rest, hrest⟩ := h
    have hc := ByteArray.utf8DecodeChar?_utf8EncodeChar_append (b := rest.toByteArray) (c := c)
    have hc' := ByteArray.utf8DecodeChar?_utf8EncodeChar_append (b := ByteArray.empty) (c := c')
    rw [← List.toByteArray_append, hrest] at hc
    rw [ByteArray.append_empty] at hc'
    exact Option.some.inj (hc.symm.trans hc')

theorem length_asBytes (text : List Char) : (asBytes text).length = utf8Length text := by
  induction text with
  | nil => rfl
  | cons c text ih => simpa [asBytes] using ih

theorem asBytes_append (u v : List Char) : asBytes (u ++ v) = asBytes u ++ asBytes v := by
  simp [asBytes]

/-- A slice between characters. -/
theorem sliceAt_append (u v : List Char) : sliceAt (utf8Length u) (u ++ v) = some (u, v) := by
  induction u with
  | nil => cases v <;> rfl
  | cons c u ih =>
      have hpos := c.utf8Size_pos
      obtain ⟨n, hn⟩ : ∃ n, utf8Length (c :: u) = n + 1 := ⟨c.utf8Size + utf8Length u - 1, by simp; omega⟩
      have hle : c.utf8Size ≤ n + 1 := by
        rw [← hn]
        simp
      have hrest : n + 1 - c.utf8Size = utf8Length u := by
        rw [← hn]
        simp
      rw [hn, List.cons_append, sliceAt, if_pos hle, hrest, ih]
      rfl

/-- **The second search sees every further match**, also one that overlaps the first. -/
theorem second_match {old u v : List Char} (hleft : Leftmost old (u ++ (old ++ v)) u) :
    ((bytesFrom (asBytes (u ++ (old ++ v))) (utf8Length u + 1)).bind fun slice =>
        memmemFind slice (asBytes old)).isSome = true ↔
      ∃ u' v', u ++ (old ++ v) = u' ++ (old ++ v') ∧ u' ≠ u := by
  generalize htext : u ++ (old ++ v) = text at hleft ⊢
  constructor
  · intro h
    unfold bytesFrom at h
    split at h
    · next hlen =>
        obtain ⟨x, y, hxy⟩ := findBy_isSome.mp h
        have hbytes : asBytes text =
            (asBytes text).take (utf8Length u + 1) ++ x ++ (asBytes old ++ y) := by
          rw [List.append_assoc, ← List.append_assoc x, hxy, List.take_append_drop]
        by_cases hold : old = []
        · -- the empty text matches at the end, too
          subst hold
          refine ⟨text, [], by simp, fun hu => ?_⟩
          rw [length_asBytes, hu] at hlen
          omega
        · obtain ⟨u', v', hu'v', hu', -⟩ := utf8_synchronized.occurrence hold hbytes
          refine ⟨u', v', hu'v', fun heq => ?_⟩
          have hlength := congrArg List.length hu'
          rw [List.length_append, List.length_take, Nat.min_eq_left hlen] at hlength
          have hu := length_asBytes u
          rw [heq] at hlength
          unfold asBytes at hu
          omega
    · cases h
  · rintro ⟨u', v', heq, hne⟩
    have hle := hleft u' v' heq
    -- the further match leaves at least one character before it
    obtain ⟨c, w, rfl⟩ : ∃ c w, u' = u ++ c :: w := by
      rcases List.append_eq_append_iff.mp (htext.trans heq) with ⟨w, hw, -⟩ | ⟨w, hw, -⟩
      · cases w with
        | nil => exact absurd (by simpa using hw) hne
        | cons c w => exact ⟨c, w, hw⟩
      · have hlength := congrArg List.length hw
        rw [List.length_append] at hlength
        have hw : w = [] := List.length_eq_zero_iff.mp (by omega)
        subst hw
        exact absurd (by simpa using hw.symm) hne
    have hpos := c.utf8Size_pos
    have hbytes : asBytes text = asBytes (u ++ c :: w) ++ (asBytes old ++ asBytes v') := by
      rw [heq, asBytes_append (u ++ c :: w), asBytes_append old]
    have hfit : utf8Length u + 1 ≤ (asBytes (u ++ c :: w)).length := by
      rw [length_asBytes, utf8Length_append, utf8Length_cons]
      omega
    have hlen : utf8Length u + 1 ≤ (asBytes text).length := by
      rw [hbytes, List.length_append]
      omega
    unfold bytesFrom
    rw [if_pos hlen]
    refine findBy_isSome.mpr ⟨(asBytes (u ++ c :: w)).drop (utf8Length u + 1), asBytes v', ?_⟩
    rw [hbytes, List.drop_append_of_le_length hfit, List.append_assoc]

end AgentBeacon
