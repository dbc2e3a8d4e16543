import Mathlib.Algebra.BigOperators.Group.List.Basic
import Mathlib.Algebra.GroupWithZero.Nat
import Mathlib.Order.Bounds.Basic

/-!
# `Lib.Capping` — sharing an amount under a ceiling

Lengths are cut to a ceiling: what is kept of them grows with the ceiling by one for each length above it. So the
greatest ceiling that stays within an amount is the one that the next step would exceed.
-/

namespace Capping

/-- What a ceiling keeps of the lengths together. -/
def capped (c : Nat) (lens : List Nat) : Nat := (lens.map (min · c)).sum

/-- How many lengths are above a ceiling. -/
def above (c : Nat) (lens : List Nat) : Nat := lens.countP (c < ·)

/-- How many lengths reach a ceiling. -/
def reaching (c : Nat) (lens : List Nat) : Nat := lens.countP (c ≤ ·)

variable {c d : Nat} {lens lens' : List Nat}

theorem capped_cons (c len : Nat) (lens : List Nat) : capped c (len :: lens) = min len c + capped c lens := by
  simp [capped]

theorem capped_append (c : Nat) (lens lens' : List Nat) :
    capped c (lens ++ lens') = capped c lens + capped c lens' := by
  simp [capped]

theorem reaching_append (c : Nat) (lens lens' : List Nat) :
    reaching c (lens ++ lens') = reaching c lens + reaching c lens' := List.countP_append

theorem capped_perm (c : Nat) (h : lens.Perm lens') : capped c lens = capped c lens' := (h.map _).sum_eq

theorem above_perm (c : Nat) (h : lens.Perm lens') : above c lens = above c lens' := h.countP_eq _

theorem reaching_perm (c : Nat) (h : lens.Perm lens') : reaching c lens = reaching c lens' := h.countP_eq _

theorem capped_mono (h : c ≤ d) (lens : List Nat) : capped c lens ≤ capped d lens := by
  induction lens with
  | nil => exact Nat.le_refl _
  | cons len lens ih =>
      rw [capped_cons, capped_cons]
      omega

theorem capped_le_sum (c : Nat) (lens : List Nat) : capped c lens ≤ lens.sum := by
  induction lens with
  | nil => exact Nat.le_refl _
  | cons len lens ih =>
      rw [capped_cons, List.sum_cons]
      omega

/-- Where no length is above the ceiling, all is kept. -/
theorem capped_of_le (h : ∀ len ∈ lens, len ≤ c) : capped c lens = lens.sum := by
  unfold capped
  rw [List.map_congr_left fun len hlen => Nat.min_eq_left (h len hlen), List.map_id']

/-- Where every length reaches the ceiling, it is kept of each. -/
theorem capped_of_ge (h : ∀ len ∈ lens, c ≤ len) : capped c lens = lens.length * c := by
  unfold capped
  rw [List.map_congr_left fun len hlen => Nat.min_eq_right (h len hlen), List.map_const',
    List.sum_replicate_nat]

/-- Lengths below the ceiling, and behind them those that reach it. -/
theorem capped_split (hlow : ∀ len ∈ lens, len ≤ c) (hhigh : ∀ len ∈ lens', c ≤ len) :
    capped c (lens ++ lens') = lens.sum + lens'.length * c := by
  rw [capped_append, capped_of_le hlow, capped_of_ge hhigh]

theorem reaching_split (hlow : ∀ len ∈ lens, len < c) (hhigh : ∀ len ∈ lens', c ≤ len) :
    reaching c (lens ++ lens') = lens'.length := by
  have hnone : reaching c lens = 0 := List.countP_eq_zero.mpr fun len hlen => by
    have := hlow len hlen
    simpa using this
  have hall : reaching c lens' = lens'.length :=
    List.countP_eq_length.mpr fun len hlen => decide_eq_true (hhigh len hlen)
  rw [reaching_append, hnone, hall, Nat.zero_add]

/-- **The next ceiling** keeps one more of each length above this one. -/
theorem capped_succ (c : Nat) (lens : List Nat) : capped (c + 1) lens = capped c lens + above c lens := by
  induction lens with
  | nil => rfl
  | cons len lens ih =>
      unfold above at ih ⊢
      rw [capped_cons, capped_cons, ih, List.countP_cons]
      by_cases h : c < len
      · rw [if_pos (decide_eq_true h)]
        omega
      · rw [if_neg (by simpa using h)]
        omega

/-- Unless some length is the ceiling, the lengths that reach it are above it. -/
theorem above_of_notMem (h : c ∉ lens) : above c lens = reaching c lens := by
  refine List.countP_congr fun len hlen => ?_
  have hne : len ≠ c := fun heq => h (heq ▸ hlen)
  rw [decide_eq_true_iff, decide_eq_true_iff]
  omega

/-- **The greatest ceiling** within an amount is the one that the next exceeds. -/
theorem isGreatest_iff {allowed : Nat} :
    IsGreatest {c | capped c lens ≤ allowed} c ↔ capped c lens ≤ allowed ∧ allowed < capped (c + 1) lens := by
  constructor
  · rintro ⟨hwithin, hgreatest⟩
    refine ⟨hwithin, Nat.lt_of_not_le fun hnext => ?_⟩
    have : c + 1 ≤ c := hgreatest hnext
    omega
  · rintro ⟨hwithin, hnext⟩
    refine ⟨hwithin, fun d hd => ?_⟩
    by_contra hbeyond
    have hbehind : c + 1 ≤ d := Nat.lt_of_not_le hbeyond
    have hmono := capped_mono hbehind lens
    have hd : capped d lens ≤ allowed := hd
    omega

end Capping
