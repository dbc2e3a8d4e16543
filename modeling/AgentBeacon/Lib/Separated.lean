import Mathlib.Data.List.Basic

/-!
# `Lib.Separated` — texts between separators

Texts that are written one behind another, with a separator between two of them or behind each, can be read back as long
as the separator is in none of them.
-/

namespace Separated

variable {α : Type} {sep : α} {a b x y : List α}

/-- The first text is what stands before the first separator. -/
theorem split_first (ha : sep ∉ a) (hb : sep ∉ b) (h : a ++ sep :: x = b ++ sep :: y) : a = b ∧ x = y := by
  rcases List.append_eq_append_iff.mp h with ⟨c, rfl, hc⟩ | ⟨c, rfl, hc⟩
  · cases c with
    | nil => exact ⟨(List.append_nil a).symm, (List.cons.inj hc).2⟩
    | cons d c =>
        obtain ⟨rfl, -⟩ := List.cons.inj hc
        exact absurd (List.mem_append_right a List.mem_cons_self) hb
  · cases c with
    | nil => exact ⟨List.append_nil b, ((List.cons.inj hc).2).symm⟩
    | cons d c =>
        obtain ⟨rfl, -⟩ := List.cons.inj hc
        exact absurd (List.mem_append_right b List.mem_cons_self) ha

/-- The last text is what stands behind the last separator. -/
theorem split_last (hx : sep ∉ x) (hy : sep ∉ y) (h : a ++ sep :: x = b ++ sep :: y) : a = b ∧ x = y := by
  have hreverse : x.reverse ++ sep :: a.reverse = y.reverse ++ sep :: b.reverse := by
    have htexts := congrArg List.reverse h
    simpa [List.reverse_append] using htexts
  obtain ⟨hlast, hfront⟩ := split_first (by simpa using hx) (by simpa using hy) hreverse
  exact ⟨List.reverse_injective hfront, List.reverse_injective hlast⟩

/-- **Texts with a separator behind each are told apart.** -/
theorem texts_of_terminated {texts texts' : List (List α)} (h : ∀ text ∈ texts, sep ∉ text)
    (h' : ∀ text ∈ texts', sep ∉ text)
    (heq : texts.flatMap (fun text => text ++ [sep]) = texts'.flatMap fun text => text ++ [sep]) :
    texts = texts' := by
  induction texts generalizing texts' with
  | nil =>
      cases texts' with
      | nil => rfl
      | cons text' texts' => simp at heq
  | cons text texts ih =>
      cases texts' with
      | nil => simp at heq
      | cons text' texts' =>
          rw [List.flatMap_cons, List.flatMap_cons, List.append_assoc, List.append_assoc] at heq
          obtain ⟨rfl, hrest⟩ := split_first (h text List.mem_cons_self) (h' text' List.mem_cons_self) heq
          rw [ih (fun t ht => h t (List.mem_cons_of_mem _ ht)) (fun t ht => h' t (List.mem_cons_of_mem _ ht)) hrest]

end Separated
