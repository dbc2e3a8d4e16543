import AgentBeacon.Lib.Keyset
import Mathlib.Data.List.Sort
import Mathlib.Data.List.Perm.Basic

/-!
# `Lib.Canonical` — one list for a set of values

A list sorted by a key, of which every key is kept once. Where values with the same key are the same, the list
depends only on which values there are.
-/

namespace Canonical

open Keyset

variable {α κ : Type} [LinearOrder κ] (key : α → κ)

/-- Of neighbours with the same key the first stays; the argument is the key before. -/
def dropFrom (k : κ) : List α → List α
  | [] => []
  | b :: l => if key b = k then dropFrom k l else b :: dropFrom (key b) l

def dropRepeated : List α → List α
  | [] => []
  | a :: l => a :: dropFrom key (key a) l

/-- Sorted by the key, and every key once. -/
def canonical (l : List α) : List α := dropRepeated key (l.mergeSort fun a b => key a ≤ key b)

variable {key} {l l' : List α} {a : α} {k : κ}

theorem ascending_dropFrom (hsorted : l.Pairwise fun a b => key a ≤ key b) (hk : ∀ b ∈ l, k ≤ key b) :
    Ascending key (dropFrom key k l) ∧ ∀ b ∈ dropFrom key k l, k < key b := by
  induction l generalizing k with
  | nil => exact ⟨List.Pairwise.nil, fun b hb => by cases hb⟩
  | cons b l ih =>
      obtain ⟨hb, hl⟩ := List.pairwise_cons.mp hsorted
      have hbk := hk b List.mem_cons_self
      rw [dropFrom]
      split
      · exact ih hl fun c hc => hk c (List.mem_cons_of_mem _ hc)
      · next hne =>
          obtain ⟨hasc, hlow⟩ := ih hl hb
          have hlt : k < key b := lt_of_le_of_ne hbk (Ne.symm hne)
          refine ⟨List.pairwise_cons.mpr ⟨hlow, hasc⟩, fun c hc => ?_⟩
          rcases List.mem_cons.mp hc with rfl | hc
          · exact hlt
          · exact hlt.trans (hlow c hc)

theorem mem_of_mem_dropFrom (h : a ∈ dropFrom key k l) : a ∈ l := by
  induction l generalizing k with
  | nil => cases h
  | cons b l ih =>
      rw [dropFrom] at h
      split at h
      · exact List.mem_cons_of_mem _ (ih h)
      · rcases List.mem_cons.mp h with rfl | h
        · exact List.mem_cons_self
        · exact List.mem_cons_of_mem _ (ih h)

/-- Every key stays. -/
theorem key_of_mem (h : a ∈ l) : key a = k ∨ ∃ b ∈ dropFrom key k l, key b = key a := by
  induction l generalizing k with
  | nil => cases h
  | cons b l ih =>
      rw [dropFrom]
      split
      · next hb =>
          rcases List.mem_cons.mp h with rfl | h
          · exact .inl hb
          · exact ih h
      · right
        rcases List.mem_cons.mp h with rfl | h
        · exact ⟨a, List.mem_cons_self, rfl⟩
        · rcases ih (k := key b) h with heq | ⟨c, hc, heq⟩
          · exact ⟨b, List.mem_cons_self, heq.symm⟩
          · exact ⟨c, List.mem_cons_of_mem _ hc, heq⟩

theorem sorted_mergeSort (key : α → κ) (l : List α) :
    (l.mergeSort fun a b => key a ≤ key b).Pairwise fun a b => key a ≤ key b := by
  have hsorted : (l.mergeSort fun a b => decide (key a ≤ key b)).Pairwise
      fun a b => decide (key a ≤ key b) = true := by
    refine List.pairwise_mergeSort (fun a b c hab hbc => ?_) (fun a b => ?_) l
    · simp only [decide_eq_true_eq] at *
      exact hab.trans hbc
    · simpa using le_total (key a) (key b)
  simpa using hsorted

/-- **The list is in strict order.** -/
theorem ascending_canonical (l : List α) : Ascending key (canonical key l) := by
  have hsorted := sorted_mergeSort key l
  unfold canonical
  cases hm : l.mergeSort fun a b => key a ≤ key b with
  | nil => exact List.Pairwise.nil
  | cons a m =>
      rw [hm] at hsorted
      obtain ⟨ha, hm⟩ := List.pairwise_cons.mp hsorted
      obtain ⟨hasc, hlow⟩ := ascending_dropFrom hm ha
      exact List.pairwise_cons.mpr ⟨hlow, hasc⟩

/-- **The list has the values it was made of.** -/
theorem mem_canonical (hkey : ∀ a ∈ l, ∀ b ∈ l, key a = key b → a = b) : a ∈ canonical key l ↔ a ∈ l := by
  have hmem (b : α) : b ∈ (l.mergeSort fun a b => key a ≤ key b) ↔ b ∈ l := List.mem_mergeSort
  unfold canonical
  cases hm : l.mergeSort fun a b => key a ≤ key b with
  | nil =>
      rw [hm] at hmem
      rw [dropRepeated, hmem]
  | cons c m =>
      rw [hm] at hmem
      rw [← hmem, dropRepeated]
      constructor
      · intro h
        rcases List.mem_cons.mp h with rfl | h
        · exact List.mem_cons_self
        · exact List.mem_cons_of_mem _ (mem_of_mem_dropFrom h)
      · intro h
        have hsame {b : α} (hb : b ∈ c :: m) (heq : key b = key a) : b = a :=
          hkey b ((hmem b).mp hb) a ((hmem a).mp h) heq
        rcases List.mem_cons.mp h with rfl | ha
        · exact List.mem_cons_self
        · have hkept : key a = key c ∨ ∃ b ∈ dropFrom key (key c) m, key b = key a := key_of_mem ha
          rcases hkept with heq | ⟨b, hb, heq⟩
          · rw [← hsame List.mem_cons_self heq.symm]
            exact List.mem_cons_self
          · rw [← hsame (List.mem_cons_of_mem _ (mem_of_mem_dropFrom hb)) heq]
            exact List.mem_cons_of_mem _ hb

theorem nodup_of_ascending (h : Ascending key l) : l.Nodup :=
  List.Pairwise.imp (fun hlt heq => absurd (congrArg key heq) (ne_of_lt hlt)) h

/-- **Two lists in strict order with the same values are the same.** -/
theorem eq_of_ascending (h : Ascending key l) (h' : Ascending key l') (hmem : ∀ a, a ∈ l ↔ a ∈ l') :
    l = l' := by
  have hperm : l.Perm l' := (List.perm_ext_iff_of_nodup (nodup_of_ascending h) (nodup_of_ascending h')).mpr hmem
  exact hperm.eq_of_pairwise (fun a b _ _ hab hba => absurd hba (lt_asymm hab)) h h'

/-- The order and the repetition of the values do not matter. -/
theorem canonical_congr (hkey : ∀ a ∈ l, ∀ b ∈ l, key a = key b → a = b) (hmem : ∀ a, a ∈ l ↔ a ∈ l') :
    canonical key l = canonical key l' := by
  have hkey' : ∀ a ∈ l', ∀ b ∈ l', key a = key b → a = b := fun a ha b hb =>
    hkey a ((hmem a).mpr ha) b ((hmem b).mpr hb)
  refine eq_of_ascending (ascending_canonical l) (ascending_canonical l') fun a => ?_
  rw [mem_canonical hkey, mem_canonical hkey', hmem]

/-- A list in strict order stays. -/
theorem canonical_of_ascending (h : Ascending key l) : canonical key l = l := by
  have hkey : ∀ a ∈ l, ∀ b ∈ l, key a = key b → a = b := fun a ha b hb heq => h.unique ha hb heq
  exact eq_of_ascending (ascending_canonical l) h fun a => mem_canonical hkey

end Canonical
