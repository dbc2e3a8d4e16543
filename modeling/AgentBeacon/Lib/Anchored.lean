import AgentBeacon.Lib.Keyset
import Mathlib.Data.List.Nodup

/-!
# `Lib.Anchored` — merging a stretch of a sequence into a part of it

A reader holds some of the elements of a sequence, in its order, and has read a stretch of it. To put the
stretch where it belongs it compares keys for equality only: `merge` looks for the first element it holds
that the stretch holds too. That is enough (`merge_segment`) as soon as the two share an element, or nothing
held stands before the stretch.
-/

namespace Anchored

variable {ρ κ : Type} [DecidableEq κ] (key : ρ → κ)

/-- Is there an element of this key? -/
def holds (window : List ρ) (r : ρ) : Bool := (window.map key).contains (key r)

/-- What a stretch does not hold of some elements. -/
def outside (window rows : List ρ) : List ρ := rows.filter fun r => !holds key window r

/-- A stretch in the place of the first element held that it holds too; in front if there is none. -/
def merge (cached window : List ρ) : List ρ :=
  match cached.findIdx? (holds key window) with
  | none => window ++ outside key window cached
  | some anchor =>
      outside key window (cached.take anchor) ++ window ++ outside key window (cached.drop anchor)

variable {key} {rows front shared back window cached before after : List ρ} {r : ρ}

theorem holds_iff : holds key window r = true ↔ ∃ e ∈ window, key e = key r := by
  unfold holds
  rw [List.contains_iff_mem, List.mem_map]

theorem outside_of_none (h : ∀ r ∈ rows, holds key window r = false) : outside key window rows = rows := by
  rw [outside, List.filter_eq_self]
  intro r hr
  rw [h r hr, Bool.not_false]

theorem outside_of_all (h : ∀ r ∈ rows, holds key window r = true) : outside key window rows = [] := by
  rw [outside, List.filter_eq_nil_iff]
  intro r hr
  rw [h r hr, Bool.not_true]
  exact Bool.false_ne_true

/-- Nothing shared: the stretch comes first. -/
theorem merge_of_none (h : ∀ r ∈ cached, holds key window r = false) :
    merge key cached window = window ++ cached := by
  have hnone : cached.findIdx? (holds key window) = none := List.findIdx?_eq_none_iff.mpr h
  unfold merge
  rw [hnone, outside_of_none h]

@[simp] theorem merge_nil : merge key cached [] = cached := merge_of_none fun _ _ => rfl

/-- **The stretch takes the place of what is shared.** -/
theorem merge_eq (hfront : ∀ r ∈ front, holds key window r = false) (hshared : ∀ r ∈ shared, holds key window r = true)
    (hback : ∀ r ∈ back, holds key window r = false) (hmeet : shared ≠ [] ∨ front = []) :
    merge key (front ++ shared ++ back) window = front ++ window ++ back := by
  cases shared with
  | nil =>
      obtain rfl : front = [] := hmeet.resolve_left fun h => h rfl
      simpa using merge_of_none hback
  | cons s shared =>
      have hanchor : (front ++ (s :: shared) ++ back).findIdx? (holds key window) = some front.length := by
        rw [List.append_assoc, List.findIdx?_append, List.findIdx?_eq_none_iff.mpr hfront, List.cons_append,
          List.findIdx?_cons, if_pos (hshared s List.mem_cons_self)]
        simp
      unfold merge
      rw [hanchor]
      show outside key window (List.take _ _) ++ window ++ outside key window (List.drop _ _) = _
      rw [List.append_assoc front, List.take_left, List.drop_left, outside_of_none hfront]
      congr 1
      unfold outside
      rw [List.filter_append]
      show outside key window (s :: shared) ++ outside key window back = back
      rw [outside_of_all hshared, outside_of_none hback, List.nil_append]

/-- **A stretch of the sequence is merged in its order**: nothing is lost, and the stretch is all that comes
in. -/
theorem merge_segment (hnodup : (rows.map key).Nodup) (hrows : rows = before ++ window ++ after)
    (hcached : cached.Sublist rows)
    (hmeet : window = [] ∨ (∃ r ∈ cached, r ∈ window) ∨ ∀ r ∈ cached, r ∉ before) :
    (merge key cached window).Sublist rows ∧ cached.Sublist (merge key cached window) ∧
      ∀ r, r ∈ merge key cached window ↔ r ∈ cached ∨ r ∈ window := by
  subst hrows
  obtain ⟨cached', back, rfl, hcached', hback⟩ := List.sublist_append_iff.mp hcached
  obtain ⟨front, shared, rfl, hfront, hshared⟩ := List.sublist_append_iff.mp hcached'
  simp only [List.map_append, List.nodup_append] at hnodup
  obtain ⟨⟨-, -, hfirst⟩, -, hlast⟩ := hnodup
  by_cases hempty : window = []
  · subst hempty
    rw [merge_nil]
    exact ⟨hcached, List.Sublist.refl _, fun r => by simp⟩
  have houtside : ∀ r ∈ front, holds key window r = false := by
    intro r hr
    rw [Bool.eq_false_iff, ne_eq, holds_iff]
    rintro ⟨e, he, heq⟩
    exact hfirst (key r) (List.mem_map_of_mem (hfront.subset hr)) (key e) (List.mem_map_of_mem he) heq.symm
  have hinside : ∀ r ∈ shared, holds key window r = true := fun r hr =>
    holds_iff.mpr ⟨r, hshared.subset hr, rfl⟩
  have hbehind : ∀ r ∈ back, holds key window r = false := by
    intro r hr
    rw [Bool.eq_false_iff, ne_eq, holds_iff]
    rintro ⟨e, he, heq⟩
    exact hlast (key e) (List.mem_append_right _ (List.mem_map_of_mem he)) (key r)
      (List.mem_map_of_mem (hback.subset hr)) heq
  have hplace : shared ≠ [] ∨ front = [] := by
    rcases hmeet.resolve_left hempty with ⟨r, hr, hwindow⟩ | hnone
    · left
      have hheld : holds key window r = true := holds_iff.mpr ⟨r, hwindow, rfl⟩
      rcases List.mem_append.mp hr with hr | hr
      · rcases List.mem_append.mp hr with hr | hr
        · exact absurd (hheld.symm.trans (houtside r hr)) Bool.noConfusion
        · exact List.ne_nil_of_mem hr
      · exact absurd (hheld.symm.trans (hbehind r hr)) Bool.noConfusion
    · right
      rw [List.eq_nil_iff_forall_not_mem]
      intro r hr
      exact hnone r (List.mem_append_left _ (List.mem_append_left _ hr)) (hfront.subset hr)
  rw [merge_eq houtside hinside hbehind hplace]
  refine ⟨(hfront.append (List.Sublist.refl _)).append hback,
    ((List.Sublist.refl _).append hshared).append (List.Sublist.refl _), fun r => ?_⟩
  simp only [List.mem_append]
  constructor
  · rintro ((h | h) | h)
    · exact .inl (.inl (.inl h))
    · exact .inr h
    · exact .inl (.inr h)
  · rintro (((h | h) | h) | h)
    · exact .inl (.inl h)
    · exact .inl (.inr (hshared.subset h))
    · exact .inr h
    · exact .inl (.inr h)

end Anchored
