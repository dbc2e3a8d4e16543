import AgentBeacon.Correctness.EntryCodec
import AgentBeacon.Network.Ceiling

/-!
# `Correctness.CeilingCodec` — the three forms of a ceiling

A ceiling that was authored is read back from its columns and from the object that is sent. The columns are read
strictly but for the spelling of the JSON in the second one: the list of entries may be written with white space
or escapes, which are lost when the ceiling is written again.
-/

namespace AgentBeacon
namespace Network

variable {outside : Outside}

/-! ## Authored entries -/

/-- What the parser makes of an authored value. -/
def entryOf (outside : Outside) (value : Json) : Option Entry :=
  value.asStr.bind fun text => (checkEntry outside text).toOption

/-- An entry that an author may write: it is read from its text, and it is not the loopback. -/
structure Authored (outside : Outside) (e : Entry) : Prop where
  parsed : Entry.parse outside (e.show outside) = .ok e
  authorable : checkAuthorable e = .ok ()

theorem checkEntry_iff {text : String} {e : Entry} : checkEntry outside text = .ok e ↔
    Entry.parse outside text.toList = .ok e ∧ checkAuthorable e = .ok () := by
  unfold checkEntry
  split
  · next herror =>
      rw [herror]
      constructor
      · intro h
        cases h
      · rintro ⟨h, -⟩
        cases h
  · next entry hparse =>
      rw [hparse]
      split
      · next hchecked =>
          constructor
          · intro h
            cases h
            exact ⟨rfl, hchecked⟩
          · rintro ⟨h, -⟩
            exact h
      · next hrefused =>
          constructor
          · intro h
            cases h
          · rintro ⟨h, hchecked⟩
            cases h
            rw [hrefused] at hchecked
            cases hchecked

theorem Authored.entryOf_eq {e : Entry} (h : Authored outside e) :
    entryOf outside (.str (String.ofList (e.show outside))) = some e := by
  have hcheck : checkEntry outside (String.ofList (e.show outside)) = .ok e := by
    rw [checkEntry_iff, String.toList_ofList]
    exact ⟨h.parsed, h.authorable⟩
  simp [entryOf, Json.asStr, hcheck, Except.toOption]

theorem authored_of_entryOf (hlawful : outside.Lawful) {value : Json} {e : Entry}
    (h : entryOf outside value = some e) : Authored outside e := by
  obtain ⟨text, -, hcheck⟩ := Option.bind_eq_some_iff.mp h
  have hok : checkEntry outside text = .ok e := by
    cases hresult : checkEntry outside text with
    | error _ =>
        rw [hresult] at hcheck
        cases hcheck
    | ok e' =>
        rw [hresult] at hcheck
        rw [Option.some.inj hcheck]
  obtain ⟨hparse, hauthorable⟩ := checkEntry_iff.mp hok
  exact ⟨parse_show hlawful hparse, hauthorable⟩

/-- By induction on the list: it is accepted when every value of it is. -/
theorem readEntries_iff {shape : String} {raw : List Json} {entries : List Entry} :
    readEntries outside shape raw = .ok (entries, []) ↔
      (∀ v ∈ raw, (entryOf outside v).isSome) ∧ entries = raw.filterMap (entryOf outside) := by
  induction raw generalizing entries with
  | nil =>
      constructor
      · intro h
        cases h
        exact ⟨fun v hv => absurd hv List.not_mem_nil, rfl⟩
      · rintro ⟨-, rfl⟩
        rfl
  | cons value raw ih =>
      unfold readEntries
      cases hvalue : value.asStr with
      | none =>
          have hnone : entryOf outside value = none := by simp [entryOf, hvalue]
          constructor
          · intro h
            cases h
          · rintro ⟨hall, -⟩
            have hsome := hall value List.mem_cons_self
            rw [hnone] at hsome
            cases hsome
      | some text =>
          dsimp only
          cases hread : readEntries outside shape raw with
          | error e =>
              dsimp only
              constructor
              · intro h
                cases h
              · rintro ⟨hall, -⟩
                have hrest := ih.mpr ⟨fun v hv => hall v (List.mem_cons_of_mem _ hv), rfl⟩
                rw [hread] at hrest
                cases hrest
          | ok read =>
              obtain ⟨read, refused⟩ := read
              dsimp only
              cases hcheck : checkEntry outside text with
              | error e =>
                  have hnone : entryOf outside value = none := by
                    simp [entryOf, hvalue, hcheck, Except.toOption]
                  constructor
                  · intro h
                    cases h
                  · rintro ⟨hall, -⟩
                    have hsome := hall value List.mem_cons_self
                    rw [hnone] at hsome
                    cases hsome
              | ok entry =>
                  have hentry : entryOf outside value = some entry := by
                    simp [entryOf, hvalue, hcheck, Except.toOption]
                  rw [List.filterMap_cons_some hentry]
                  constructor
                  · intro h
                    cases h
                    obtain ⟨hall, hrest⟩ := ih.mp hread
                    refine ⟨fun v hv => ?_, by rw [← hrest]⟩
                    rcases List.mem_cons.mp hv with rfl | hv
                    · rw [hentry]
                      rfl
                    · exact hall v hv
                  · rintro ⟨hall, rfl⟩
                    have hrest := ih.mpr ⟨fun v hv => hall v (List.mem_cons_of_mem _ hv), rfl⟩
                    rw [hread] at hrest
                    cases hrest
                    rfl

theorem parseAuthoredEntries_iff {shape : String} {raw : List Json} {entries : List Entry} :
    parseAuthoredEntries outside raw shape = .ok entries ↔
      (∀ v ∈ raw, (entryOf outside v).isSome) ∧
      entries = canonicalOrder outside (raw.filterMap (entryOf outside)) := by
  unfold parseAuthoredEntries
  cases hread : readEntries outside shape raw with
  | error e =>
      constructor
      · intro h
        cases h
      · rintro ⟨hall, -⟩
        have hok : readEntries outside shape raw = .ok (_, []) := readEntries_iff.mpr ⟨hall, rfl⟩
        rw [hread] at hok
        cases hok
  | ok read =>
      obtain ⟨read, refused⟩ := read
      dsimp only
      split
      · next hrefused =>
          constructor
          · intro h
            cases h
          · rintro ⟨hall, -⟩
            have hok : readEntries outside shape raw = .ok (_, []) := readEntries_iff.mpr ⟨hall, rfl⟩
            rw [hread] at hok
            cases hok
            exact absurd rfl hrefused
      · next hrefused =>
          obtain rfl : refused = [] := not_not.mp hrefused
          obtain ⟨hall, rfl⟩ := readEntries_iff.mp hread
          constructor
          · intro h
            cases h
            exact ⟨hall, rfl⟩
          · rintro ⟨-, rfl⟩
            rfl

/-- Entries with one text are one entry. -/
theorem show_injective {entries : List Entry} (h : ∀ e ∈ entries, Authored outside e) :
    ∀ a ∈ entries, ∀ b ∈ entries, a.show outside = b.show outside → a = b := by
  intro a ha b hb heq
  have hparsed := (h a ha).parsed
  rw [heq, (h b hb).parsed] at hparsed
  exact (Except.ok.inj hparsed).symm

/-- Only which values are in the list matters. -/
theorem parseAuthoredEntries_congr (hlawful : outside.Lawful) {raw raw' : List Json} (shape : String)
    (hmem : ∀ v, v ∈ raw ↔ v ∈ raw') (entries : List Entry) :
    parseAuthoredEntries outside raw shape = .ok entries ↔
      parseAuthoredEntries outside raw' shape = .ok entries := by
  have hauthored : ∀ e ∈ raw.filterMap (entryOf outside), Authored outside e := by
    intro e he
    obtain ⟨v, -, hv⟩ := List.mem_filterMap.mp he
    exact authored_of_entryOf hlawful hv
  have hsame : canonicalOrder outside (raw.filterMap (entryOf outside)) =
      canonicalOrder outside (raw'.filterMap (entryOf outside)) := by
    refine Canonical.canonical_congr (show_injective hauthored) fun e => ?_
    simp only [List.mem_filterMap, hmem]
  rw [parseAuthoredEntries_iff, parseAuthoredEntries_iff, hsame]
  simp only [hmem]

/-! ## Policies -/

/-- A policy that was authored. -/
structure Policy.Valid (outside : Outside) (p : Policy) : Prop where
  authored : ∀ e ∈ p.entries, Authored outside e
  ascending : Keyset.Ascending (fun e => e.show outside) p.entries
  empty : p.mode = .none → p.entries = []

theorem parseSandboxed_valid (hlawful : outside.Lawful) {members : List (String × Json)} {p : Policy}
    (h : parseSandboxed outside members = .ok p) : p.Valid outside := by
  unfold parseSandboxed at h
  split at h
  · cases h
  · split at h
    · cases h
    · next mode hmode =>
        dsimp only at h
        split at h
        · cases h
        · next raw hraw =>
            split at h
            · cases h
            · next hempty =>
                split at h
                · cases h
                · next entries hentries =>
                    cases h
                    obtain ⟨-, rfl⟩ := parseAuthoredEntries_iff.mp hentries
                    have hauthored : ∀ e ∈ raw.filterMap (entryOf outside), Authored outside e := by
                      intro e he
                      obtain ⟨v, -, hv⟩ := List.mem_filterMap.mp he
                      exact authored_of_entryOf hlawful hv
                    have hmem (e : Entry) : e ∈ canonicalOrder outside (raw.filterMap (entryOf outside)) ↔
                        e ∈ raw.filterMap (entryOf outside) :=
                      Canonical.mem_canonical (show_injective hauthored)
                    refine ⟨fun e he => hauthored e ((hmem e).mp he), Canonical.ascending_canonical _,
                      fun hnone => ?_⟩
                    have hnil : raw = [] := by
                      by_contra hne
                      exact hempty ⟨hnone, hne⟩
                    subst hnil
                    exact Canonical.canonical_of_ascending List.Pairwise.nil

namespace Policy.Valid

variable {p : Policy}

theorem canonicalOrder_eq (h : p.Valid outside) : canonicalOrder outside p.entries = p.entries :=
  Canonical.canonical_of_ascending h.ascending

/-- The texts of the entries are authored again. -/
theorem parseAuthoredEntries_eq (h : p.Valid outside) (shape : String) :
    parseAuthoredEntries outside ((Ceiling.texts outside p.entries).map .str) shape = .ok p.entries := by
  have hread : ∀ entries : List Entry, (∀ e ∈ entries, Authored outside e) →
      (∀ v ∈ (Ceiling.texts outside entries).map Json.str, (entryOf outside v).isSome) ∧
      ((Ceiling.texts outside entries).map Json.str).filterMap (entryOf outside) = entries := by
    intro entries
    induction entries with
    | nil =>
        intro _
        exact ⟨fun v hv => absurd hv List.not_mem_nil, rfl⟩
    | cons e entries ih =>
        intro hall
        have hentry := (hall e List.mem_cons_self).entryOf_eq
        obtain ⟨hsome, hsame⟩ := ih fun e he => hall e (List.mem_cons_of_mem _ he)
        constructor
        · intro v hv
          rcases List.mem_cons.mp hv with rfl | hv
          · rw [hentry]
            rfl
          · exact hsome v hv
        · rw [Ceiling.texts, List.map_cons, List.map_cons, List.filterMap_cons_some hentry]
          exact congrArg (e :: ·) hsame
  obtain ⟨hsome, hsame⟩ := hread p.entries h.authored
  rw [parseAuthoredEntries_iff, hsame, h.canonicalOrder_eq]
  exact ⟨hsome, rfl⟩

/-- By induction on the entries: each is stored as its text. -/
theorem parseStored_eq {entries : List Entry} (h : ∀ e ∈ entries, Authored outside e) :
    Ceiling.parseStored outside (Ceiling.texts outside entries) = some entries := by
  induction entries with
  | nil => rfl
  | cons e entries ih =>
      have he := h e List.mem_cons_self
      have hrest := ih fun e' he' => h e' (List.mem_cons_of_mem _ he')
      unfold Ceiling.texts at hrest ⊢
      rw [List.map_cons, Ceiling.parseStored, String.toList_ofList, he.parsed]
      simp [he.authorable, Except.toBool, hrest]

end Policy.Valid

/-! ## The stored list -/

theorem integralItems_strings (strings : List String) : Json.IntegralItems (strings.map .str) := by
  induction strings with
  | nil => exact trivial
  | cons s strings ih => exact ⟨trivial, ih⟩

theorem nestingItems_strings (strings : List String) : Json.nestingItems (strings.map .str) = 0 := by
  induction strings with
  | nil => rfl
  | cons s strings ih => simpa [Json.nestingItems, Json.nesting] using ih

theorem normalItems_strings (strings : List String) :
    Json.normalItems (strings.map .str) = strings.map .str := by
  induction strings with
  | nil => rfl
  | cons s strings ih => simpa [Json.normalItems, Json.normal] using ih

theorem mapM_asStr (strings : List String) : (strings.map Json.str).mapM Json.asStr = some strings := by
  induction strings with
  | nil => rfl
  | cons s strings ih => simp [List.mapM_cons, Json.asStr, ih]

/-- **A list of strings is read from its text.** -/
theorem stringsOfText_textOfStrings (strings : List String) :
    Json.stringsOfText (Ceiling.textOfStrings strings) = some strings := by
  have hnesting : Json.nesting (.arr (strings.map .str)) < 128 := by
    rw [Json.nesting, nestingItems_strings]
    decide
  have hread := Json.fromStr_serialize (v := .arr (strings.map .str)) (integralItems_strings strings) hnesting
  rw [Json.normal, normalItems_strings] at hread
  unfold Json.stringsOfText Ceiling.textOfStrings
  rw [hread]
  exact mapM_asStr strings

/-! ## Reading the columns -/

theorem fromColumns_toColumns {c : Ceiling} (h : ∀ p, c = .sandboxed p → p.Valid outside) :
    Ceiling.fromColumns outside (c.toColumns outside).1 (c.toColumns outside).2 = .ok c := by
  cases c with
  | unsandboxed =>
      have hnil : Ceiling.textOfStrings [] = "[]" := by decide
      have hread := stringsOfText_textOfStrings []
      rw [hnil] at hread
      unfold Ceiling.fromColumns Ceiling.toColumns
      simp only [hread]
      rfl
  | sandboxed p =>
      have hvalid := h p rfl
      have hmode : p.mode.asStr ≠ "unsandboxed" := by cases p.mode <;> decide
      have hgood : ¬ (canonicalOrder outside p.entries ≠ p.entries ∨ p.mode = .none ∧ p.entries ≠ []) := by
        rintro (hne | ⟨hnone, hne⟩)
        · exact hne hvalid.canonicalOrder_eq
        · exact hne (hvalid.empty hnone)
      unfold Ceiling.fromColumns Ceiling.toColumns
      simp only [stringsOfText_textOfStrings, if_neg hmode, Mode.parse_asStr,
        Policy.Valid.parseStored_eq hvalid.authored]
      rw [if_neg hgood]

theorem texts_of_parseStored {strings : List String} {parsed : List Entry}
    (h : Ceiling.parseStored outside strings = some parsed) : Ceiling.texts outside parsed = strings := by
  induction strings generalizing parsed with
  | nil =>
      cases h
      rfl
  | cons text strings ih =>
      unfold Ceiling.parseStored at h
      split at h
      · cases h
      · next entry _ =>
          split at h
          · cases h
          · next hsame =>
              obtain ⟨rest, hrest, rfl⟩ := Option.map_eq_some_iff.mp h
              have htext : String.ofList (entry.show outside) = text := by
                by_contra hne
                exact hsame (.inl hne)
              rw [Ceiling.texts, List.map_cons, htext]
              exact congrArg (text :: ·) (ih hrest)

/-- What the columns hold, once they are read. -/
theorem toColumns_of_fromColumns {mode entries : String} {c : Ceiling}
    (h : Ceiling.fromColumns outside mode entries = .ok c) :
    ∃ strings, Json.stringsOfText entries = some strings ∧
      c.toColumns outside = (mode, Ceiling.textOfStrings strings) := by
  unfold Ceiling.fromColumns at h
  split at h
  · cases h
  · next strings hstrings =>
      refine ⟨strings, hstrings, ?_⟩
      split at h
      · next hmode =>
          split at h
          · next hnil =>
              cases h
              rw [hmode, hnil]
              rfl
          · cases h
      · split at h
        · cases h
        · next m hm =>
            split at h
            · cases h
            · next parsed hparsed =>
                split at h
                · cases h
                · cases h
                  rw [Ceiling.toColumns, Mode.asStr_of_parse hm, texts_of_parseStored hparsed]

/-! ## Authoring what is sent -/

theorem parseAuthored_toWire {c : Ceiling} (h : ∀ p, c = .sandboxed p → p.Valid outside) :
    Ceiling.parseAuthored outside (c.toWire outside) = .ok c := by
  cases c with
  | unsandboxed => rfl
  | sandboxed p =>
      have hvalid := h p rfl
      have hentries := hvalid.parseAuthoredEntries_eq entriesShape
      have hempty : ¬ (p.mode = .none ∧ ¬ Ceiling.texts outside p.entries = []) := by
        rintro ⟨hnone, hne⟩
        rw [hvalid.empty hnone] at hne
        exact hne rfl
      have hkind : ("sandboxed" : String) ≠ "unsandboxed" := by decide
      unfold Ceiling.parseAuthored Ceiling.toWire
      simp only [List.lookup_cons_self, if_neg hkind, if_true]
      unfold parseSandboxed
      simp only [List.lookup_cons]
      simp [Json.asStr, hempty, hentries, Except.map]

theorem parseAuthored_valid (hlawful : outside.Lawful) {value : Json} {c : Ceiling}
    (h : Ceiling.parseAuthored outside value = .ok c) : ∀ p, c = .sandboxed p → p.Valid outside := by
  rintro p rfl
  unfold Ceiling.parseAuthored at h
  split at h
  · split at h
    · cases h
    · split at h
      · split at h <;> cases h
      · split at h
        · obtain ⟨policy, hpolicy, heq⟩ := of_map_ok h
          cases heq
          exact parseSandboxed_valid hlawful hpolicy
        · cases h
    · cases h
  · cases h

/-! ## The order of the authored list -/

/-- The object with another list of entries. -/
def withEntries (front back : List (String × Json)) (raw : List Json) : Json :=
  .obj (front ++ ("entries", .arr raw) :: back)

theorem lookup_withEntries {front back : List (String × Json)} {key : String} (h : key ≠ "entries")
    (v w : Json) : (front ++ ("entries", v) :: back).lookup key = (front ++ ("entries", w) :: back).lookup key := by
  have hkey : (key == "entries") = false := by simpa using h
  simp [List.lookup_append, List.lookup_cons, hkey]

/-- The list of the object, unless another member of the same name stands before it. -/
theorem lookup_entries {front back : List (String × Json)} (h : front.lookup "entries" = none) (v : Json) :
    (front ++ ("entries", v) :: back).lookup "entries" = some v := by
  simp [List.lookup_append, h]

theorem parseSandboxed_congr (hlawful : outside.Lawful) (front back : List (String × Json))
    {raw raw' : List Json} (hmem : ∀ v, v ∈ raw ↔ v ∈ raw') {p : Policy}
    (h : parseSandboxed outside (front ++ ("entries", .arr raw) :: back) = .ok p) :
    parseSandboxed outside (front ++ ("entries", .arr raw') :: back) = .ok p := by
  have hmode : (front ++ ("entries", Json.arr raw) :: back).lookup "mode" =
      (front ++ ("entries", Json.arr raw') :: back).lookup "mode" := lookup_withEntries (by decide) _ _
  have hfind : (front ++ ("entries", Json.arr raw) :: back).find? (fun m => m.1 ∉ ["kind", "mode", "entries"]) =
      (front ++ ("entries", Json.arr raw') :: back).find? (fun m => m.1 ∉ ["kind", "mode", "entries"]) := by
    simp [List.find?_append]
  have hempty : raw = [] ↔ raw' = [] := by
    rw [List.eq_nil_iff_forall_not_mem, List.eq_nil_iff_forall_not_mem]
    simp only [hmem]
  unfold parseSandboxed at h ⊢
  rw [← hfind, ← hmode]
  split at h
  · cases h
  · split at h
    · cases h
    · dsimp only at h ⊢
      cases hfront : front.lookup "entries" with
      | some v =>
          have hsame (w : Json) : (front ++ ("entries", w) :: back).lookup "entries" = some v := by
            simp [List.lookup_append, hfront]
          rw [hsame] at h ⊢
          exact h
      | none =>
          rw [lookup_entries hfront] at h ⊢
          dsimp only at h ⊢
          split at h
          · cases h
          · next hgood =>
              have hgood' : ¬ (_ ∧ raw' ≠ []) := fun hbad => hgood ⟨hbad.1, fun hnil => hbad.2 (hempty.mp hnil)⟩
              rw [if_neg hgood']
              split at h
              · cases h
              · next entries hentries =>
                  rw [(parseAuthoredEntries_congr hlawful entriesShape hmem entries).mp hentries]
                  exact h

/-- **The order and the repetition of the authored entries do not matter.** -/
theorem parseAuthored_congr (hlawful : outside.Lawful) (front back : List (String × Json)) {raw raw' : List Json}
    (hmem : ∀ v, v ∈ raw ↔ v ∈ raw') {c : Ceiling}
    (h : Ceiling.parseAuthored outside (withEntries front back raw) = .ok c) :
    Ceiling.parseAuthored outside (withEntries front back raw') = .ok c := by
  have hkind : (front ++ ("entries", Json.arr raw) :: back).lookup "kind" =
      (front ++ ("entries", Json.arr raw') :: back).lookup "kind" := lookup_withEntries (by decide) _ _
  have hlength : (front ++ ("entries", Json.arr raw) :: back).length =
      (front ++ ("entries", Json.arr raw') :: back).length := by simp
  unfold Ceiling.parseAuthored withEntries at *
  dsimp only at h ⊢
  rw [← hkind, ← hlength]
  split at h
  · cases h
  · split at h
    · next hunsandboxed =>
        rw [if_pos hunsandboxed]
        exact h
    · next hother =>
        rw [if_neg hother]
        split at h
        · next hsandboxed =>
            rw [if_pos hsandboxed]
            obtain ⟨p, hp, rfl⟩ := of_map_ok h
            rw [parseSandboxed_congr hlawful front back hmem hp]
            rfl
        · cases h
  · cases h

/-- **The ceiling codecs round-trip.** A ceiling that was authored is read back from its columns and from the
object that is sent, and the order and repetition of the authored entries do not change it. -/
theorem ceiling_codecs (outside : Outside) (hlawful : outside.Lawful) (value : Json) (c : Ceiling)
    (h : Ceiling.parseAuthored outside value = .ok c) :
    Ceiling.fromColumns outside (c.toColumns outside).1 (c.toColumns outside).2 = .ok c ∧
    Ceiling.parseAuthored outside (c.toWire outside) = .ok c ∧
    ∀ (front back : List (String × Json)) (raw raw' : List Json), value = withEntries front back raw →
      (∀ v, v ∈ raw ↔ v ∈ raw') → Ceiling.parseAuthored outside (withEntries front back raw') = .ok c := by
  have hvalid := parseAuthored_valid hlawful h
  refine ⟨fromColumns_toColumns hvalid, parseAuthored_toWire hvalid, ?_⟩
  rintro front back raw raw' rfl hmem
  exact parseAuthored_congr hlawful front back hmem h

/-- An allowlist of one entry. -/
def allowlisted : Ceiling :=
  .sandboxed ⟨.allowlist, [⟨.name ['b'], ⟨443, 443, by decide, by decide, by decide⟩⟩]⟩

theorem allowlisted_valid : ∀ p, allowlisted = .sandboxed p → p.Valid plain := by
  rintro p hp
  cases hp
  refine ⟨fun e he => ?_, List.pairwise_singleton _ _, fun hnone => by cases hnone⟩
  obtain rfl := List.mem_singleton.mp he
  exact ⟨rfl, rfl⟩

theorem ceiling_codecs_allowlisted :
    Ceiling.fromColumns plain (allowlisted.toColumns plain).1 (allowlisted.toColumns plain).2 = .ok allowlisted ∧
    Ceiling.parseAuthored plain (withEntries [("kind", .str "sandboxed"), ("mode", .str "allowlist")] []
      [.str "b:443", .str "b:443"]) = .ok allowlisted := by
  have hwire : allowlisted.toWire plain =
      withEntries [("kind", .str "sandboxed"), ("mode", .str "allowlist")] [] [.str "b:443"] := rfl
  have hcodecs := ceiling_codecs plain plain_lawful _ _ (parseAuthored_toWire allowlisted_valid)
  exact ⟨hcodecs.1, hcodecs.2.2 _ _ _ _ hwire fun v => by simp⟩

/-! ## Strictness -/

/-- **What is lost of a stored ceiling.** Columns that are read as a ceiling are the columns of that ceiling
exactly when the second one is the compact text of the list that it holds; every other deviation, in the order
of the entries, their repetition or their spelling, is an error. -/
theorem columns_strict (outside : Outside) (mode entries : String) (c : Ceiling)
    (h : Ceiling.fromColumns outside mode entries = .ok c) :
    c.toColumns outside = (mode, entries) ↔
      ∀ strings, Json.stringsOfText entries = some strings → entries = Ceiling.textOfStrings strings := by
  obtain ⟨strings, hstrings, hcolumns⟩ := toColumns_of_fromColumns h
  rw [hcolumns, Prod.mk.injEq]
  constructor
  · rintro ⟨-, htext⟩ strings' hstrings'
    rw [hstrings] at hstrings'
    cases hstrings'
    exact htext.symm
  · intro hcompact
    exact ⟨rfl, (hcompact strings hstrings).symm⟩

/-- A space in the list is read over. -/
theorem fromColumns_spaced :
    Ceiling.fromColumns plain "none" "[ ]" = .ok (.sandboxed ⟨.none, []⟩) := by
  have hread : Json.stringsOfText "[ ]" = some [] := by decide +kernel
  have horder : canonicalOrder plain [] = [] := Canonical.canonical_of_ascending List.Pairwise.nil
  unfold Ceiling.fromColumns
  simp only [hread]
  rw [if_neg (by decide)]
  exact if_neg (by simp [horder])

/-- The space is not written again. -/
theorem columns_spaced : Ceiling.fromColumns plain "none" "[ ]" = .ok (.sandboxed ⟨.none, []⟩) ∧
    Ceiling.toColumns plain (.sandboxed ⟨.none, []⟩) ≠ ("none", "[ ]") :=
  ⟨fromColumns_spaced, by decide⟩

theorem columns_strict_spaced : Ceiling.toColumns plain (.sandboxed ⟨.none, []⟩) = ("none", "[ ]") ↔
    ∀ strings, Json.stringsOfText "[ ]" = some strings → "[ ]" = Ceiling.textOfStrings strings :=
  columns_strict plain "none" "[ ]" (.sandboxed ⟨.none, []⟩) fromColumns_spaced

end Network
end AgentBeacon
