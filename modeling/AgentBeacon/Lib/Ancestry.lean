import Mathlib.Data.Option.Basic

/-!
# `Lib.Ancestry` — how far a member of a forest is from its root

A forest is given by what it says of each key: not a member, a root, or a child of another key.
`Distance` counts the parents above a member. The distance of a member never changes while the
forest keeps its parents and no link of it breaks, whatever members come and go around it.
-/

namespace Ancestry

variable {κ : Type}

/-- The parents of a forest: `none` for what is not a member, `some none` for a root. -/
abbrev Parents (κ : Type) := κ → Option (Option κ)

/-- The number of parents above a member. -/
inductive Distance (parents : Parents κ) : κ → Nat → Prop where
  | root {k : κ} (h : parents k = some none) : Distance parents k 0
  | child {k p : κ} {n : Nat} (h : parents k = some (some p)) (hp : Distance parents p n) :
      Distance parents k (n + 1)

/-- The parent of a member is a member. -/
def Linked (parents : Parents κ) : Prop :=
  ∀ k p, parents k = some (some p) → parents p ≠ none

/-- What is a member of both forests has the same parent in both. -/
def Agree (parents parents' : Parents κ) : Prop :=
  ∀ k o o', parents k = some o → parents' k = some o' → o' = o

namespace Distance

variable {parents parents' : Parents κ} {k p : κ} {n m : Nat}

theorem member (h : Distance parents k n) : parents k ≠ none := by
  cases h with
  | root h => simp [h]
  | child h _ => simp [h]

/-- The distance of a child is one more than its parent's. -/
theorem of_child (h : Distance parents k n) (hp : parents k = some (some p)) :
    ∃ m, n = m + 1 ∧ Distance parents p m := by
  cases h with
  | root hroot =>
      rw [hroot] at hp
      cases hp
  | @child _ q m hq hdist =>
      rw [hq] at hp
      obtain rfl : q = p := by simpa using hp
      exact ⟨m, rfl, hdist⟩

/-- **A member has one distance.** -/
theorem unique (h : Distance parents k n) (h' : Distance parents k m) : n = m := by
  induction h generalizing m with
  | root hroot =>
      cases h' with
      | root => rfl
      | child hp _ => simp [hroot] at hp
  | child hp _ ih =>
      obtain ⟨m', rfl, hdist⟩ := h'.of_child hp
      rw [ih hdist]

/-- **The distance of a member stays** as long as it is one, in forests that agree on the parents. -/
theorem carry (h : Distance parents k n) (hagree : Agree parents parents') (hlinked : Linked parents')
    (hmember : parents' k ≠ none) : Distance parents' k n := by
  induction h with
  | @root k hroot =>
      obtain ⟨o, ho⟩ := Option.ne_none_iff_exists'.mp hmember
      obtain rfl := hagree k none o hroot ho
      exact .root ho
  | @child k p n hp _ ih =>
      obtain ⟨o, ho⟩ := Option.ne_none_iff_exists'.mp hmember
      obtain rfl := hagree k (some p) o hp ho
      exact .child ho (ih (hlinked k p ho))

end Distance

end Ancestry
