import Mathlib.Data.List.Perm.Basic
import Mathlib.Data.List.Nodup
import Mathlib.Logic.Relation

/-!
# `Lib.Versions` — documents with numbered versions

A store keeps the current version of each document, under a number, and an archive of the versions that
it has replaced. Replacing archives the version at hand and counts on. The file says what the archive
then is: of every document the versions before the current one, each once, as they were.
-/

namespace Versions

variable {Doc Content : Type}

/-- An archived version. -/
structure Version (Doc Content : Type) where
  doc : Doc
  number : Nat
  content : Content

/-- The current versions and the archive. -/
structure Store (Doc Content : Type) where
  current : Doc → Option (Nat × Content)
  archive : List (Version Doc Content)

variable {s s' s'' : Store Doc Content} {d : Doc} {k : Nat} {c : Content}

/-- Nothing is written. -/
structure Keeps (s s' : Store Doc Content) : Prop where
  current : ∀ d, s'.current d = s.current d
  archive : s'.archive = s.archive

/-- `d` gets its first version. -/
structure Creates (s s' : Store Doc Content) (d : Doc) (c : Content) : Prop where
  fresh : s.current d = none
  now : s'.current d = some (1, c)
  other : ∀ e, e ≠ d → s'.current e = s.current e
  archive : s'.archive = s.archive

/-- The version `k` of `d` is replaced. -/
structure Replaces (s s' : Store Doc Content) (d : Doc) (k : Nat) (c : Content) : Prop where
  before : s.current d = some (k, c)
  now : ∃ c', s'.current d = some (k + 1, c')
  other : ∀ e, e ≠ d → s'.current e = s.current e
  archive : s'.archive = s.archive ++ [⟨d, k, c⟩]

/-- What may happen to a store. -/
inductive Edit (s s' : Store Doc Content) : Prop where
  | keeps (h : Keeps s s')
  | creates {d : Doc} {c : Content} (h : Creates s s' d c)
  | replaces {d : Doc} {k : Nat} {c : Content} (h : Replaces s s' d k c)

/-! ## The archive of each document -/

/-- The archived versions of `d`. -/
def Store.versionsOf [DecidableEq Doc] (s : Store Doc Content) (d : Doc) : List (Version Doc Content) :=
  s.archive.filter fun v => v.doc = d

/-- The archive has of every document the numbers before the current one, each once. -/
structure Chained [DecidableEq Doc] (s : Store Doc Content) : Prop where
  positive : ∀ d k c, s.current d = some (k, c) → 1 ≤ k
  numbers : ∀ d k c, s.current d = some (k, c) →
    ((s.versionsOf d).map Version.number).Perm (List.range' 1 (k - 1))
  docs : ∀ v ∈ s.archive, ∃ kc, s.current v.doc = some kc

section Chained

variable [DecidableEq Doc]

theorem chained_of_empty (hcurrent : ∀ d, s.current d = none) (harchive : s.archive = []) : Chained s := by
  refine ⟨fun d k c h => ?_, fun d k c h => ?_, fun v hv => ?_⟩
  · rw [hcurrent d] at h
    cases h
  · rw [hcurrent d] at h
    cases h
  · rw [harchive] at hv
    cases hv

theorem Keeps.chained (h : Keeps s s') (hs : Chained s) : Chained s' := by
  refine ⟨fun d k c hd => ?_, fun d k c hd => ?_, fun v hv => ?_⟩
  · rw [h.current] at hd
    exact hs.positive d k c hd
  · rw [h.current] at hd
    rw [Store.versionsOf, h.archive]
    exact hs.numbers d k c hd
  · rw [h.archive] at hv
    rw [h.current]
    exact hs.docs v hv

theorem Creates.chained (h : Creates s s' d c) (hs : Chained s) : Chained s' := by
  -- a document that is not there has no archive
  have hnone : s.versionsOf d = [] := by
    rw [Store.versionsOf, List.filter_eq_nil_iff]
    intro v hv hdoc
    obtain ⟨kc, hkc⟩ := hs.docs v hv
    rw [of_decide_eq_true hdoc, h.fresh] at hkc
    cases hkc
  refine ⟨fun e k c' he => ?_, fun e k c' he => ?_, fun v hv => ?_⟩
  · by_cases hed : e = d
    · rw [hed, h.now] at he
      obtain ⟨rfl, -⟩ := Prod.mk.inj (Option.some.inj he)
      exact Nat.le_refl 1
    · rw [h.other e hed] at he
      exact hs.positive e k c' he
  · rw [Store.versionsOf, h.archive]
    by_cases hed : e = d
    · rw [hed, h.now] at he
      obtain ⟨rfl, -⟩ := Prod.mk.inj (Option.some.inj he)
      have hnil : (s.archive.filter fun v => v.doc = e) = [] := by
        rw [hed]
        exact hnone
      rw [hnil]
      exact List.Perm.refl _
    · rw [h.other e hed] at he
      exact hs.numbers e k c' he
  · rw [h.archive] at hv
    by_cases hed : v.doc = d
    · exact ⟨_, hed ▸ h.now⟩
    · rw [h.other v.doc hed]
      exact hs.docs v hv

theorem Replaces.chained (h : Replaces s s' d k c) (hs : Chained s) : Chained s' := by
  obtain ⟨c', hnow⟩ := h.now
  refine ⟨fun e k' c'' he => ?_, fun e k' c'' he => ?_, fun v hv => ?_⟩
  · by_cases hed : e = d
    · rw [hed, hnow] at he
      obtain ⟨rfl, -⟩ := Prod.mk.inj (Option.some.inj he)
      omega
    · rw [h.other e hed] at he
      exact hs.positive e k' c'' he
  · rw [Store.versionsOf, h.archive, List.filter_append, List.map_append]
    by_cases hed : e = d
    · rw [hed, hnow] at he
      obtain ⟨rfl, -⟩ := Prod.mk.inj (Option.some.inj he)
      have hpos := hs.positive d k c h.before
      have hnumbers := hs.numbers d k c h.before
      have hrange : List.range' 1 (k + 1 - 1) = List.range' 1 (k - 1) ++ [k] := by
        rw [show k + 1 - 1 = (k - 1) + 1 by omega, List.range'_concat]
        congr 2
        omega
      rw [hrange, hed]
      refine List.Perm.append hnumbers ?_
      simp
    · rw [h.other e hed] at he
      have hnone : ([⟨d, k, c⟩] : List (Version Doc Content)).filter (fun v => v.doc = e) = [] := by
        simp [Ne.symm hed]
      rw [hnone, List.map_nil, List.append_nil]
      exact hs.numbers e k' c'' he
  · rw [h.archive] at hv
    by_cases hed : v.doc = d
    · exact ⟨_, hed ▸ hnow⟩
    · rw [h.other v.doc hed]
      rcases List.mem_append.mp hv with hv | hv
      · exact hs.docs v hv
      · rw [List.mem_singleton.mp hv] at hed
        exact absurd rfl hed

/-- **Every edit keeps the archive complete.** -/
theorem Edit.chained (h : Edit s s') (hs : Chained s) : Chained s' := by
  cases h with
  | keeps h => exact h.chained hs
  | creates h => exact h.chained hs
  | replaces h => exact h.chained hs

/-- A number is archived once, so it determines the version. -/
theorem Chained.version_unique (hs : Chained s) {v w : Version Doc Content} (hv : v ∈ s.archive)
    (hw : w ∈ s.archive) (hdoc : v.doc = w.doc) (hnumber : v.number = w.number) : v = w := by
  obtain ⟨⟨k, c⟩, hcurrent⟩ := hs.docs w hw
  have hnodup : ((s.versionsOf w.doc).map Version.number).Nodup :=
    (hs.numbers w.doc k c hcurrent).nodup_iff.mpr List.nodup_range'
  refine List.inj_on_of_nodup_map hnodup ?_ ?_ hnumber
  · exact List.mem_filter.mpr ⟨hv, decide_eq_true hdoc⟩
  · exact List.mem_filter.mpr ⟨hw, decide_eq_true rfl⟩

end Chained

/-! ## What becomes of a version -/

/-- `s'` comes after `s`: what was current still is, or is archived, and the archive has only grown. -/
structure Follows (s s' : Store Doc Content) : Prop where
  current : ∀ d k c, s.current d = some (k, c) → s'.current d = some (k, c) ∨
    ⟨d, k, c⟩ ∈ s'.archive ∧ ∃ k' c', s'.current d = some (k', c') ∧ k < k'
  archive : s.archive ⊆ s'.archive

theorem Follows.refl (s : Store Doc Content) : Follows s s :=
  ⟨fun _ _ _ h => .inl h, fun _ h => h⟩

theorem Follows.trans (h : Follows s s') (h' : Follows s' s'') : Follows s s'' := by
  refine ⟨fun d k c hd => ?_, fun v hv => h'.archive (h.archive hv)⟩
  rcases h.current d k c hd with hsame | ⟨hin, k', c', hd', hlt⟩
  · exact h'.current d k c hsame
  · right
    refine ⟨h'.archive hin, ?_⟩
    rcases h'.current d k' c' hd' with hsame' | ⟨-, k'', c'', hd'', hlt'⟩
    · exact ⟨k', c', hsame', hlt⟩
    · exact ⟨k'', c'', hd'', Nat.lt_trans hlt hlt'⟩

theorem Edit.follows (h : Edit s s') : Follows s s' := by
  cases h with
  | keeps h =>
      refine ⟨fun d k c hd => .inl ?_, ?_⟩
      · rw [h.current, hd]
      · rw [h.archive]
        exact fun _ hv => hv
  | @creates d₀ c₀ h =>
      refine ⟨fun d k c hd => .inl ?_, ?_⟩
      · have hne : d ≠ d₀ := by
          rintro rfl
          rw [h.fresh] at hd
          cases hd
        rw [h.other d hne, hd]
      · rw [h.archive]
        exact fun _ hv => hv
  | @replaces d₀ k₀ c₀ h =>
      obtain ⟨c', hnow⟩ := h.now
      refine ⟨fun d k c hd => ?_, ?_⟩
      · by_cases hdd : d = d₀
        · rw [hdd, h.before] at hd
          obtain ⟨rfl, rfl⟩ := Prod.mk.inj (Option.some.inj hd)
          right
          refine ⟨?_, k₀ + 1, c', hdd ▸ hnow, Nat.lt_succ_self _⟩
          rw [h.archive, hdd]
          exact List.mem_append_right _ (List.mem_singleton_self _)
        · left
          rw [h.other d hdd, hd]
      · rw [h.archive]
        exact fun _ hv => List.mem_append_left _ hv

/-- **A number is replaced once**: after it was, the document is past it. -/
theorem Replaces.past (h : Replaces s s' d k c) (hlater : Follows s' s'') {k' : Nat} {c' : Content}
    (hcurrent : s''.current d = some (k', c')) : k < k' := by
  obtain ⟨c₁, hnow⟩ := h.now
  rcases hlater.current d (k + 1) c₁ hnow with hsame | ⟨-, k₂, c₂, h₂, hlt⟩
  · rw [hsame] at hcurrent
    obtain ⟨rfl, -⟩ := Prod.mk.inj (Option.some.inj hcurrent)
    exact Nat.lt_succ_self k
  · rw [h₂] at hcurrent
    obtain ⟨rfl, -⟩ := Prod.mk.inj (Option.some.inj hcurrent)
    omega

end Versions
