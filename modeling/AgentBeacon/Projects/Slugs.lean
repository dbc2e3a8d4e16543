import AgentBeacon.Serialize
import AgentBeacon.Error
import Mathlib.Data.List.Induction

/-!
# `Projects.Slugs` — slugs and the ids of projects

The texts of `db/projects.rs`: which ones have the shape of an id, which ones are slugs, and the slug that is
derived from a name. Texts are lists of characters; the expressions are read from left to right.
-/

namespace AgentBeacon
namespace Projects

/-- `SLUG_MAX_LEN`. -/
def slugMaxLen : Nat := 200

/-- Groups of that many characters, with a `-` between two of them. -/
def matchesGroups (digit : Char → Bool) : List Nat → List Char → Bool
  | [], s => s = []
  | [n], s => s.length = n && s.all digit
  | n :: m :: rest, s =>
      (s.take n).length = n && (s.take n).all digit && (s.drop n).head? = some '-' &&
        matchesGroups digit (m :: rest) (s.drop (n + 1))

def isHexDigit (c : Char) : Bool :=
  c.isDigit || ('a' ≤ c && c ≤ 'f') || ('A' ≤ c && c ≤ 'F')

/-- `is_uuid_shaped`: `UUID_RE`. -/
def isUuidShaped (value : List Char) : Bool := matchesGroups isHexDigit [8, 4, 4, 4, 12] value

/-- `Uuid::to_string`: lower case, with hyphens. -/
def IsUuid (value : List Char) : Prop :=
  matchesGroups (fun c => c.isDigit || ('a' ≤ c && c ≤ 'f')) [8, 4, 4, 4, 12] value = true

instance (value : List Char) : Decidable (IsUuid value) := inferInstanceAs (Decidable (_ = true))

/-- `[a-z0-9]`. -/
def slugChar (c : Char) : Bool := c.isDigit || ('a' ≤ c && c ≤ 'z')

/-- One character of `SLUG_RE`. The state tells whether the last one belongs to a group. -/
def slugStep : Option Bool → Char → Option Bool
  | none, _ => none
  | some inside, c => if slugChar c then some true else if c = '-' && inside then some false else none

/-- `SLUG_RE`. -/
def slugShaped (s : List Char) : Bool := s.foldl slugStep (some false) = some true

/-- `str::trim`. -/
def trimText (s : List Char) : List Char :=
  ((s.dropWhile isWhitespace).reverse.dropWhile isWhitespace).reverse

/-- `validate_slug`. -/
def validateSlug (slug : List Char) : Except SchedulerError (List Char) :=
  let normalized := trimText slug
  if normalized = [] || slugMaxLen < utf8Length normalized then
    .error (.validationFailed s!"slug must be 1-{slugMaxLen} characters")
  else if !slugShaped normalized then
    .error (.validationFailed ("slug must contain only lowercase letters, numbers, and hyphens " ++
      "(no leading/trailing/consecutive hyphens)"))
  else .ok normalized

/-- The body of the loop of `derive_slug`: the slug and `pending_separator`. -/
def deriveStep (acc : List Char × Bool) (c : Char) : List Char × Bool :=
  if c.isAlphanum then
    ((if acc.2 && acc.1 ≠ [] then acc.1 ++ ['-'] else acc.1) ++ [c.toLower], false)
  else (acc.1, true)

/-- `trim_end_matches('-')`. -/
def trimHyphens (s : List Char) : List Char := (s.reverse.dropWhile (· = '-')).reverse

def isAscii (s : List Char) : Bool := s.all fun c => c.toNat < 128

/-- `derive_slug`. -/
def deriveSlug (name ownId : List Char) : List Char :=
  if !isAscii name then ownId
  else
    let slug := trimHyphens ((name.foldl deriveStep ([], false)).1.take slugMaxLen)
    if slug = [] || isUuidShaped slug then ownId else slug

/-! ## The shapes -/

theorem matchesGroups_mono {p q : Char → Bool} (h : ∀ c, p c = true → q c = true) (ns : List Nat)
    (s : List Char) (hs : matchesGroups p ns s = true) : matchesGroups q ns s = true := by
  induction ns generalizing s with
  | nil => exact hs
  | cons n rest ih =>
      cases rest with
      | nil =>
          simp only [matchesGroups, Bool.and_eq_true, decide_eq_true_iff, List.all_eq_true] at hs ⊢
          exact ⟨hs.1, fun c hc => h c (hs.2 c hc)⟩
      | cons m rest =>
          simp only [matchesGroups, Bool.and_eq_true, decide_eq_true_iff, List.all_eq_true] at hs ⊢
          obtain ⟨⟨⟨hlength, hdigits⟩, hhyphen⟩, hrest⟩ := hs
          exact ⟨⟨⟨hlength, fun c hc => h c (hdigits c hc)⟩, hhyphen⟩, ih _ hrest⟩

theorem IsUuid.shaped {s : List Char} (h : IsUuid s) : isUuidShaped s = true := by
  refine matchesGroups_mono ?_ _ s h
  intro c hc
  unfold isHexDigit
  rw [hc, Bool.true_or]

theorem foldl_slugStep_group {s : List Char} (inside : Bool) (h : ∀ c ∈ s, slugChar c = true) (hs : s ≠ []) :
    s.foldl slugStep (some inside) = some true := by
  induction s generalizing inside with
  | nil => exact absurd rfl hs
  | cons c rest ih =>
      have hc := h c List.mem_cons_self
      rw [List.foldl_cons, slugStep, if_pos hc]
      cases rest with
      | nil => rfl
      | cons d rest => exact ih true (fun x hx => h x (List.mem_cons_of_mem _ hx)) (by simp)

theorem foldl_slugStep_groups {digit : Char → Bool} (hdigit : ∀ c, digit c = true → slugChar c = true)
    {ns : List Nat} (hns : ∀ n ∈ ns, 0 < n) (hne : ns ≠ []) {s : List Char}
    (h : matchesGroups digit ns s = true) : s.foldl slugStep (some false) = some true := by
  induction ns generalizing s with
  | nil => exact absurd rfl hne
  | cons n rest ih =>
      have hn := hns n List.mem_cons_self
      cases rest with
      | nil =>
          simp only [matchesGroups, Bool.and_eq_true, decide_eq_true_iff, List.all_eq_true] at h
          refine foldl_slugStep_group false (fun c hc => hdigit c (h.2 c hc)) ?_
          rintro rfl
          have hlength := h.1
          simp only [List.length_nil] at hlength
          omega
      | cons m rest =>
          simp only [matchesGroups, Bool.and_eq_true, decide_eq_true_iff, List.all_eq_true] at h
          obtain ⟨⟨⟨hlength, hdigits⟩, hhyphen⟩, hrest⟩ := h
          have hback := ih (fun k hk => hns k (List.mem_cons_of_mem _ hk)) (by simp) hrest
          have hgroup : (s.take n).foldl slugStep (some false) = some true := by
            refine foldl_slugStep_group false (fun c hc => hdigit c (hdigits c hc)) ?_
            intro hnil
            rw [hnil, List.length_nil] at hlength
            omega
          have hdrop : s.drop n = '-' :: s.drop (n + 1) := by
            cases hs : s.drop n with
            | nil =>
                rw [hs] at hhyphen
                cases hhyphen
            | cons c behind =>
                rw [hs] at hhyphen
                cases hhyphen
                rw [← List.tail_drop, hs, List.tail_cons]
          rw [← List.take_append_drop n s, List.foldl_append, hgroup, hdrop]
          exact hback

theorem hex_slugChar (c : Char) (h : (c.isDigit || ('a' ≤ c && c ≤ 'f')) = true) : slugChar c = true := by
  unfold slugChar
  rw [Bool.or_eq_true] at h ⊢
  obtain hdigit | hletter := h
  · exact .inl hdigit
  · right
    simp only [Bool.and_eq_true, decide_eq_true_iff] at hletter ⊢
    exact ⟨hletter.1, Char.le_trans hletter.2 (by decide : 'f' ≤ 'z')⟩

theorem IsUuid.slugShaped {s : List Char} (h : IsUuid s) : slugShaped s = true := by
  unfold Projects.slugShaped
  rw [decide_eq_true_iff]
  exact foldl_slugStep_groups hex_slugChar (by decide) (by simp) h

/-! ## Prefixes of slugs -/

/-- A character that a slug may hold. -/
def SlugText (c : Char) : Prop := slugChar c = true ∨ c = '-'

theorem slugText_range {c : Char} (h : SlugText c) : 45 ≤ c.toNat ∧ c.toNat ≤ 122 := by
  obtain h | rfl := h
  · simp only [slugChar, Char.isDigit, Bool.or_eq_true, Bool.and_eq_true, decide_eq_true_iff] at h
    change (48 ≤ c.toNat ∧ c.toNat ≤ 57) ∨ (97 ≤ c.toNat ∧ c.toNat ≤ 122) at h
    omega
  · decide

theorem slugText_visible {c : Char} (h : SlugText c) : isWhitespace c = false := by
  obtain ⟨hlow, hhigh⟩ := slugText_range h
  simp only [isWhitespace, Bool.or_eq_false_iff, Bool.and_eq_false_iff, decide_eq_false_iff_not]
  omega

theorem slugText_size {c : Char} (h : SlugText c) : c.utf8Size = 1 := by
  obtain ⟨-, hhigh⟩ := slugText_range h
  have hsmall : c.val ≤ 127 := by
    rw [UInt32.le_iff_toNat_le]
    exact Nat.le_trans hhigh (by decide)
  exact if_pos hsmall

/-- Read so far without a failure. -/
def Readable (s : List Char) : Prop := s.foldl slugStep (some false) ≠ none

theorem foldl_slugStep_append (s : List Char) (c : Char) :
    (s ++ [c]).foldl slugStep (some false) = slugStep (s.foldl slugStep (some false)) c := by
  rw [List.foldl_append]
  rfl

theorem Readable.init {s : List Char} {c : Char} (h : Readable (s ++ [c])) : Readable s := by
  intro hnone
  apply h
  rw [foldl_slugStep_append, hnone]
  rfl

theorem Readable.last {s : List Char} {c : Char} (h : Readable (s ++ [c])) : SlugText c := by
  unfold Readable at h
  rw [foldl_slugStep_append] at h
  cases hs : s.foldl slugStep (some false) with
  | none =>
      rw [hs] at h
      exact absurd rfl h
  | some inside =>
      rw [hs] at h
      simp only [slugStep] at h
      by_cases hc : slugChar c = true
      · exact .inl hc
      · rw [if_neg hc] at h
        split at h
        · next hhyphen =>
            simp only [Bool.and_eq_true, decide_eq_true_iff] at hhyphen
            exact .inr hhyphen.1
        · exact absurd rfl h

theorem Readable.text {s : List Char} (h : Readable s) : ∀ c ∈ s, SlugText c := by
  induction s using List.reverseRecOn with
  | nil => simp
  | append_singleton s c ih =>
      intro d hd
      obtain hd | hd := List.mem_append.mp hd
      · exact ih h.init d hd
      · rw [List.mem_singleton.mp hd]
        exact h.last

theorem Readable.take {s : List Char} (h : Readable s) (n : Nat) : Readable (s.take n) := by
  intro hnone
  apply h
  rw [← List.take_append_drop n s, List.foldl_append, hnone]
  generalize s.drop n = behind
  induction behind with
  | nil => rfl
  | cons c rest ih => exact ih

theorem readable_of_slugShaped {s : List Char} (h : slugShaped s = true) : Readable s := by
  unfold slugShaped at h
  rw [decide_eq_true_iff] at h
  unfold Readable
  rw [h]
  simp

theorem trimHyphens_append (s : List Char) (c : Char) :
    trimHyphens (s ++ [c]) = if c = '-' then trimHyphens s else s ++ [c] := by
  unfold trimHyphens
  rw [List.reverse_append, List.reverse_singleton, List.singleton_append, List.dropWhile_cons]
  by_cases hc : c = '-' <;> simp [hc]

theorem trimHyphens_within (s : List Char) : trimHyphens s <+: s := by
  unfold trimHyphens
  have hsuffix := List.dropWhile_suffix (l := s.reverse) (fun c => decide (c = '-'))
  rw [← List.reverse_prefix, List.reverse_reverse] at hsuffix
  exact hsuffix

/-- Without the hyphens at its end what was read is empty, or a slug. -/
theorem Readable.trimmed {s : List Char} (h : Readable s) :
    trimHyphens s = [] ∨ slugShaped (trimHyphens s) = true := by
  induction s using List.reverseRecOn with
  | nil => exact .inl rfl
  | append_singleton s c ih =>
      rw [trimHyphens_append]
      split
      · exact ih h.init
      · next hc =>
          right
          obtain hslug | hhyphen := h.last
          · unfold slugShaped
            rw [decide_eq_true_iff, foldl_slugStep_append]
            cases hs : s.foldl slugStep (some false) with
            | none => exact absurd hs h.init
            | some inside =>
                simp only [slugStep]
                rw [if_pos hslug]
          · exact absurd hhyphen hc

/-! ## Derived slugs -/

theorem toLower_slugChar {c : Char} (hascii : c.toNat < 128) (h : c.isAlphanum = true) :
    slugChar c.toLower = true := by
  have hall : ∀ n : Fin 128, (Char.ofNat n).isAlphanum = true → slugChar (Char.ofNat n).toLower = true := by
    decide +kernel
  have hc := hall ⟨c.toNat, hascii⟩
  simp only [Char.ofNat_toNat] at hc
  exact hc h

theorem deriveStep_slug {acc : List Char × Bool} {c : Char} (hascii : c.toNat < 128)
    (h : acc.1 = [] ∨ slugShaped acc.1 = true) :
    (deriveStep acc c).1 = [] ∨ slugShaped (deriveStep acc c).1 = true := by
  unfold deriveStep
  split
  · next halnum =>
      right
      have hlower := toLower_slugChar hascii halnum
      unfold slugShaped at h ⊢
      simp only [decide_eq_true_iff] at h ⊢
      split
      · next hseparator =>
          -- the separator stands behind a group
          simp only [Bool.and_eq_true, decide_eq_true_iff] at hseparator
          have hgroup := h.resolve_left hseparator.2
          have hhyphen : slugChar '-' = false := by decide
          rw [foldl_slugStep_append, foldl_slugStep_append, hgroup]
          simp [slugStep, hlower, hhyphen]
      · rw [foldl_slugStep_append]
        obtain hnil | hgroup := h
        · rw [hnil]
          simp [slugStep, hlower]
        · rw [hgroup]
          simp [slugStep, hlower]
  · exact h

/-- What the loop of `derive_slug` has built is empty, or a slug. -/
theorem foldl_deriveStep_slug {name : List Char} (hascii : isAscii name = true) (acc : List Char × Bool)
    (h : acc.1 = [] ∨ slugShaped acc.1 = true) :
    (name.foldl deriveStep acc).1 = [] ∨ slugShaped (name.foldl deriveStep acc).1 = true := by
  induction name generalizing acc with
  | nil => exact h
  | cons c rest ih =>
      simp only [isAscii, List.all_cons, Bool.and_eq_true, decide_eq_true_iff] at hascii
      exact ih hascii.2 _ (deriveStep_slug hascii.1 h)

/-- A derived slug is the project's own id, or a slug without the shape of an id. -/
theorem deriveSlug_cases (name ownId : List Char) :
    deriveSlug name ownId = ownId ∨
      (slugShaped (deriveSlug name ownId) = true ∧ (deriveSlug name ownId).length ≤ slugMaxLen ∧
        isUuidShaped (deriveSlug name ownId) = false) := by
  unfold deriveSlug
  split
  · exact .inl rfl
  · next hascii =>
    simp only [Bool.not_eq_true', Bool.not_eq_false] at hascii
    dsimp only
    split
    · exact .inl rfl
    · next hslug =>
        right
        simp only [Bool.or_eq_true, decide_eq_true_iff, not_or, Bool.not_eq_true] at hslug
        have hread : Readable ((name.foldl deriveStep ([], false)).1.take slugMaxLen) := by
          obtain hnil | hshaped := foldl_deriveStep_slug hascii ([], false) (.inl rfl)
          · rw [hnil]
            simp [Readable]
          · exact (readable_of_slugShaped hshaped).take _
        refine ⟨hread.trimmed.resolve_left hslug.1, ?_, hslug.2⟩
        exact Nat.le_trans (trimHyphens_within _).length_le (List.length_take_le _ _)

/-! ## Validation -/

theorem trimText_eq {s : List Char} (h : ∀ c ∈ s, isWhitespace c = false) : trimText s = s := by
  have hdrop : ∀ t : List Char, (∀ c ∈ t, isWhitespace c = false) → t.dropWhile isWhitespace = t := by
    intro t ht
    cases t with
    | nil => rfl
    | cons c rest => rw [List.dropWhile_cons, if_neg (by simp [ht c List.mem_cons_self])]
  unfold trimText
  rw [hdrop s h, hdrop s.reverse (fun c hc => h c (List.mem_reverse.mp hc)), List.reverse_reverse]

theorem utf8Length_eq_length {s : List Char} (h : ∀ c ∈ s, SlugText c) : utf8Length s = s.length := by
  induction s with
  | nil => rfl
  | cons c rest ih =>
      rw [utf8Length_cons, slugText_size (h c List.mem_cons_self), ih fun d hd => h d (List.mem_cons_of_mem _ hd),
        List.length_cons]
      omega

/-- A text that is valid as it stands. -/
def ValidSlug (s : List Char) : Prop := validateSlug s = .ok s

theorem validSlug_of_shaped {s : List Char} (h : slugShaped s = true) (hlength : s.length ≤ slugMaxLen) :
    ValidSlug s := by
  have htext := (readable_of_slugShaped h).text
  have hne : s ≠ [] := by
    rintro rfl
    cases h
  unfold ValidSlug validateSlug
  rw [trimText_eq fun c hc => slugText_visible (htext c hc)]
  simp only [utf8Length_eq_length htext, h]
  rw [if_neg]
  · rfl
  · simp [hne, hlength]

theorem IsUuid.length {s : List Char} (h : IsUuid s) : s.length = 36 := by
  simp only [IsUuid, matchesGroups, Bool.and_eq_true, decide_eq_true_iff, List.length_drop, List.length_take] at h
  omega

theorem IsUuid.valid {s : List Char} (h : IsUuid s) : ValidSlug s := by
  refine validSlug_of_shaped h.slugShaped ?_
  rw [h.length]
  decide

theorem validateSlug_ok {slug s : List Char} (h : validateSlug slug = .ok s) :
    slugShaped s = true ∧ utf8Length s ≤ slugMaxLen := by
  unfold validateSlug at h
  dsimp only at h
  split at h
  · cases h
  · next hlength =>
      split at h
      · cases h
      · next hshaped =>
          cases h
          simp only [Bool.or_eq_true, decide_eq_true_iff, not_or] at hlength
          simp only [Bool.not_eq_true', Bool.not_eq_false] at hshaped
          exact ⟨hshaped, Nat.le_of_not_lt hlength.2⟩

/-- What `validate_slug` returns is valid. -/
theorem validateSlug_valid {slug s : List Char} (h : validateSlug slug = .ok s) : ValidSlug s := by
  obtain ⟨hshaped, hlength⟩ := validateSlug_ok h
  rw [utf8Length_eq_length (readable_of_slugShaped hshaped).text] at hlength
  exact validSlug_of_shaped hshaped hlength

/-- Every derived slug is valid. -/
theorem deriveSlug_valid (name : List Char) {ownId : List Char} (h : IsUuid ownId) :
    ValidSlug (deriveSlug name ownId) := by
  obtain hown | ⟨hshaped, hlength, -⟩ := deriveSlug_cases name ownId
  · rw [hown]
    exact h.valid
  · exact validSlug_of_shaped hshaped hlength

/-- A derived slug has the shape of an id only as the project's own id. -/
theorem deriveSlug_uuid {name ownId : List Char} (h : isUuidShaped (deriveSlug name ownId) = true) :
    deriveSlug name ownId = ownId := by
  obtain hown | ⟨-, -, hshape⟩ := deriveSlug_cases name ownId
  · exact hown
  · rw [h] at hshape
    cases hshape

end Projects
end AgentBeacon
