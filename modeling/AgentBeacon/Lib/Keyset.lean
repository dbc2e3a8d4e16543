import Mathlib.Order.Lattice
import Mathlib.Data.List.Infix

/-!
# `Lib.Keyset` — reading an ordered table by key

A table whose rows stand in ascending order of a key is read in windows: the rows below a key, or
above one. The one fact everything rests on is that the key of a row splits the table at that row
(`below_split`, `above_split`); the rest says what a page of at most `n` rows and the key at its end
leave for the next page.
-/

namespace Keyset

variable {ρ κ : Type} [LinearOrder κ] (key : ρ → κ)

/-- Rows in strictly ascending order of their keys. -/
def Ascending (rows : List ρ) : Prop := rows.Pairwise fun a b => key a < key b

instance (rows : List ρ) : Decidable (Ascending key rows) :=
  inferInstanceAs (Decidable (rows.Pairwise fun a b => key a < key b))

/-- The rows with a key below `c`. -/
def below (c : κ) (rows : List ρ) : List ρ := rows.filter fun r => key r < c

/-- The rows with a key above `c`. -/
def above (c : κ) (rows : List ρ) : List ρ := rows.filter fun r => c < key r

variable {key} {rows front back : List ρ} {r : ρ} {c : κ}

theorem mem_below : r ∈ below key c rows ↔ r ∈ rows ∧ key r < c := by
  simp [below, List.mem_filter]

theorem mem_above : r ∈ above key c rows ↔ r ∈ rows ∧ c < key r := by
  simp [above, List.mem_filter]

theorem Ascending.below (h : Ascending key rows) : Ascending key (below key c rows) :=
  h.sublist List.filter_sublist

theorem Ascending.above (h : Ascending key rows) : Ascending key (above key c rows) :=
  h.sublist List.filter_sublist

theorem Ascending.filter (h : Ascending key rows) (p : ρ → Bool) : Ascending key (rows.filter p) :=
  h.sublist List.filter_sublist

/-- What stands before a row has a smaller key, what stands behind it a greater one. -/
theorem Ascending.split (h : Ascending key (front ++ r :: back)) :
    (∀ a ∈ front, key a < key r) ∧ ∀ b ∈ back, key r < key b := by
  obtain ⟨-, hback, hcross⟩ := List.pairwise_append.mp h
  constructor
  · intro a ha
    exact hcross a ha r List.mem_cons_self
  · intro b hb
    exact (List.pairwise_cons.mp hback).1 b hb

/-- Two rows with one key are one row. -/
theorem Ascending.unique (h : Ascending key rows) {a b : ρ} (ha : a ∈ rows) (hb : b ∈ rows)
    (hkey : key a = key b) : a = b := by
  obtain ⟨front, back, rfl⟩ := List.append_of_mem ha
  rcases List.mem_append.mp hb with hfront | hrest
  · exact absurd hkey.symm (h.split.1 b hfront).ne
  · rcases List.mem_cons.mp hrest with rfl | hback
    · rfl
    · exact absurd hkey (h.split.2 b hback).ne

/-- **The rows below a row's key are the rows before it.** -/
theorem below_split (h : Ascending key (front ++ r :: back)) :
    below key (key r) (front ++ r :: back) = front := by
  obtain ⟨hfront, hback⟩ := h.split
  have hself : ¬key r < key r := lt_irrefl _
  have hkeep : front.filter (fun a => decide (key a < key r)) = front := by
    rw [List.filter_eq_self]
    intro a ha
    exact decide_eq_true (hfront a ha)
  have hdrop : back.filter (fun b => decide (key b < key r)) = [] := by
    rw [List.filter_eq_nil_iff]
    intro b hb
    simpa using le_of_lt (hback b hb)
  rw [below, List.filter_append, hkeep, List.filter_cons, if_neg (by simp), hdrop, List.append_nil]

/-- **The rows above a row's key are the rows behind it.** -/
theorem above_split (h : Ascending key (front ++ r :: back)) :
    above key (key r) (front ++ r :: back) = back := by
  obtain ⟨hfront, hback⟩ := h.split
  have hdrop : front.filter (fun a => decide (key r < key a)) = [] := by
    rw [List.filter_eq_nil_iff]
    intro a ha
    simpa using le_of_lt (hfront a ha)
  have hkeep : back.filter (fun b => decide (key r < key b)) = back := by
    rw [List.filter_eq_self]
    intro b hb
    exact decide_eq_true (hback b hb)
  rw [above, List.filter_append, hdrop, List.filter_cons, if_neg (by simp), hkeep, List.nil_append]

theorem below_below {d : κ} (h : c ≤ d) : below key c (below key d rows) = below key c rows := by
  rw [below, below, below, List.filter_filter]
  refine List.filter_congr fun a _ => ?_
  by_cases ha : key a < c
  · simp [ha, lt_of_lt_of_le ha h]
  · simp [ha]

theorem above_above {d : κ} (h : d ≤ c) : above key c (above key d rows) = above key c rows := by
  rw [above, above, above, List.filter_filter]
  refine List.filter_congr fun a _ => ?_
  by_cases ha : c < key a
  · simp [ha, lt_of_le_of_lt h ha]
  · simp [ha]

/-- A window below `c` that ends `r :: back` continues, below `r`, with what stands before `r`. -/
theorem below_of_window (h : Ascending key rows) (hw : below key c rows = front ++ r :: back) :
    below key (key r) rows = front := by
  have hr : r ∈ below key c rows := by rw [hw]; simp
  have hle : key r ≤ c := le_of_lt (mem_below.mp hr).2
  rw [← below_below hle, hw]
  exact below_split (hw ▸ h.below)

/-- A window above `c` that begins `front ++ [r]` continues, above `r`, with what stands behind it. -/
theorem above_of_window (h : Ascending key rows) (hw : above key c rows = front ++ r :: back) :
    above key (key r) rows = back := by
  have hr : r ∈ above key c rows := by rw [hw]; simp
  have hle : c ≤ key r := le_of_lt (mem_above.mp hr).2
  rw [← above_above hle, hw]
  exact above_split (hw ▸ h.above)

/-- What `back` adds above a key no greater than one of `rows` is all of `back`. -/
theorem above_append (h : Ascending key (rows ++ back)) (hr : r ∈ rows) (hc : c ≤ key r) :
    above key c (rows ++ back) = above key c rows ++ back := by
  have hall : back.filter (fun b => decide (c < key b)) = back := by
    rw [List.filter_eq_self]
    intro b hb
    exact decide_eq_true (lt_of_le_of_lt hc ((List.pairwise_append.mp h).2.2 r hr b hb))
  rw [above, List.filter_append, hall]
  rfl

/-! ## The last `n` rows and the first `n` rows -/

/-- More than `n` rows: the last `n` of them, the row before these, and the rest. -/
theorem last_rows {n : Nat} (h : n < rows.length) :
    ∃ front probe page, rows = front ++ probe :: page ∧ page.length = n := by
  have hlt : rows.length - (n + 1) < rows.length := by omega
  refine ⟨rows.take (rows.length - (n + 1)), rows[rows.length - (n + 1)],
    rows.drop (rows.length - (n + 1) + 1), ?_, ?_⟩
  · rw [← List.drop_eq_getElem_cons hlt]
    exact (List.take_append_drop _ _).symm
  · rw [List.length_drop]
    omega

/-- More than `n` rows: the first `n` of them, the row behind these, and the rest. -/
theorem first_rows {n : Nat} (h : n < rows.length) :
    ∃ page probe back, rows = page ++ probe :: back ∧ page.length = n := by
  refine ⟨rows.take n, rows[n], rows.drop (n + 1), ?_, ?_⟩
  · rw [← List.drop_eq_getElem_cons h]
    exact (List.take_append_drop _ _).symm
  · rw [List.length_take]
    omega

/-- `ORDER BY key DESC LIMIT n + 1`, put back in ascending order. -/
theorem reverse_take_reverse {n : Nat} {page : List ρ} (hn : page.length = n) :
    ((front ++ r :: page).reverse.take (n + 1)).reverse = r :: page := by
  have hlen : (r :: page).reverse.length = n + 1 := by simp [hn]
  rw [List.reverse_append, ← hlen, List.take_left', List.reverse_reverse]
  rfl

theorem reverse_take_reverse_of_le {n : Nat} (h : rows.length ≤ n) :
    (rows.reverse.take n).reverse = rows := by
  rw [List.take_of_length_le (by simpa using h), List.reverse_reverse]

/-- `ORDER BY key ASC LIMIT n + 1`. -/
theorem take_append {n : Nat} {page : List ρ} (hn : page.length = n) :
    (page ++ r :: back).take (n + 1) = page ++ [r] := by
  rw [List.take_append, hn, List.take_of_length_le (by omega)]
  simp

end Keyset
