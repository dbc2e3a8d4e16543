import Mathlib.Data.List.Nodup
import Mathlib.Data.List.Infix
import Mathlib.Data.List.Perm.Subperm

/-!
# `Lib.Climb` — from a node up to its root

Nodes are found by their keys and name the key of the node above, if any. `Climb` is the way from a key up to a
root. There is at most one, it repeats nothing, and it is no longer than there are nodes; so whoever follows
the links needs no more steps than that.
-/

namespace Upward

variable {κ ν : Type} {find : κ → Option ν} {up : ν → Option κ} {f : ν → κ}

/-- The nodes from a key up to a root, the root last. -/
inductive Climb (find : κ → Option ν) (up : ν → Option κ) : κ → List ν → Prop where
  | root {k : κ} {n : ν} (h : find k = some n) (hup : up n = none) : Climb find up k [n]
  | step {k p : κ} {n : ν} {path : List ν} (h : find k = some n) (hup : up n = some p)
      (hpath : Climb find up p path) : Climb find up k (n :: path)

namespace Climb

variable {k p : κ} {path path' : List ν}

theorem ne_nil (h : Climb find up k path) : path ≠ [] := by
  cases h with
  | root _ _ => exact List.cons_ne_nil _ _
  | step _ _ _ => exact List.cons_ne_nil _ _

/-- The first node is the one under the key. -/
theorem found (h : Climb find up k path) : ∃ n rest, path = n :: rest ∧ find k = some n := by
  cases h with
  | @root _ n h _ => exact ⟨n, [], rfl, h⟩
  | @step _ _ n rest h _ _ => exact ⟨n, rest, rfl, h⟩

/-- **There is one way up.** -/
theorem unique (h : Climb find up k path) (h' : Climb find up k path') : path' = path := by
  induction h generalizing path' with
  | @root k n hfind hup =>
      cases h' with
      | @root _ n' hfind' _ =>
          rw [hfind] at hfind'
          rw [Option.some.inj hfind']
      | @step _ p n' rest hfind' hup' _ =>
          rw [hfind] at hfind'
          rw [← Option.some.inj hfind', hup] at hup'
          cases hup'
  | @step k p n rest hfind hup _ ih =>
      cases h' with
      | @root _ n' hfind' hup' =>
          rw [hfind] at hfind'
          rw [← Option.some.inj hfind', hup] at hup'
          cases hup'
      | @step _ p' n' rest' hfind' hup' hrest' =>
          rw [hfind] at hfind'
          obtain rfl := Option.some.inj hfind'
          rw [hup] at hup'
          obtain rfl := Option.some.inj hup'
          rw [ih hrest']

/-- From a node on the way up, the rest of the way is its own. -/
theorem suffix (hkey : ∀ k n, find k = some n → f n = k) (h : Climb find up k path) {n : ν} (hn : n ∈ path) :
    ∃ rest, Climb find up (f n) rest ∧ rest <:+ path := by
  induction h with
  | @root k m hfind hup =>
      obtain rfl := List.mem_singleton.mp hn
      rw [hkey k n hfind]
      exact ⟨_, .root hfind hup, List.suffix_refl _⟩
  | @step k p m rest hfind hup hrest ih =>
      rcases List.mem_cons.mp hn with rfl | hmem
      · rw [hkey k n hfind]
        exact ⟨_, .step hfind hup hrest, List.suffix_refl _⟩
      · obtain ⟨tail, htail, hsuffix⟩ := ih hmem
        exact ⟨tail, htail, hsuffix.trans (List.suffix_cons _ _)⟩

/-- **Nothing is repeated** on the way to a root. -/
theorem nodup (hkey : ∀ k n, find k = some n → f n = k) (h : Climb find up k path) :
    (path.map f).Nodup := by
  induction h with
  | @root k n hfind hup => exact List.nodup_singleton _
  | @step k p n rest hfind hup hrest ih =>
      rw [List.map_cons, List.nodup_cons]
      refine ⟨fun hmem => ?_, ih⟩
      -- else the way up from there would be longer than itself
      obtain ⟨m, hm, hsame⟩ := List.mem_map.mp hmem
      obtain ⟨tail, htail, hsuffix⟩ := hrest.suffix hkey hm
      rw [hsame, hkey k n hfind] at htail
      have hwhole := (Climb.step hfind hup hrest).unique htail
      have hle := hsuffix.length_le
      rw [hwhole, List.length_cons] at hle
      omega

/-- Each node of the way is found under its key. -/
theorem found_of_mem (hkey : ∀ k n, find k = some n → f n = k) (h : Climb find up k path) {n : ν} (hn : n ∈ path) :
    find (f n) = some n := by
  induction h with
  | @root k m hfind _ =>
      obtain rfl := List.mem_singleton.mp hn
      rw [hkey k n hfind, hfind]
  | @step k p m rest hfind _ _ ih =>
      rcases List.mem_cons.mp hn with rfl | hmem
      · rw [hkey k n hfind, hfind]
      · exact ih hmem

/-- The way is no longer than a list of all nodes. -/
theorem length_le (hkey : ∀ k n, find k = some n → f n = k) {nodes : List ν}
    (hnodes : ∀ k n, find k = some n → n ∈ nodes) (h : Climb find up k path) : path.length ≤ nodes.length := by
  have hsub : path.map f ⊆ nodes.map f := by
    intro k hk
    obtain ⟨n, hn, rfl⟩ := List.mem_map.mp hk
    exact List.mem_map_of_mem (hnodes _ n (h.found_of_mem hkey hn))
  have hle := ((h.nodup hkey).subperm hsub).length_le
  rwa [List.length_map, List.length_map] at hle

/-- **What nodes are called identifies them**, if it does so among the roots and below each node. -/
theorem inj_of_names {ω : Type} {name : ν → ω} (hkey : ∀ k n, find k = some n → f n = k)
    (hnames : ∀ n m, find (f n) = some n → find (f m) = some m → up n = up m → name n = name m → f n = f m)
    {k' : κ} (h : Climb find up k path) (h' : Climb find up k' path') (hsame : path.map name = path'.map name) :
    k = k' := by
  have hfound : ∀ {k n}, find k = some n → find (f n) = some n := by
    intro k n hfind
    rw [hkey k n hfind, hfind]
  induction h generalizing k' path' with
  | @root k n hfind hup =>
      cases h' with
      | @root _ n' hfind' hup' =>
          rw [← hkey k n hfind, ← hkey k' n' hfind']
          exact hnames n n' (hfound hfind) (hfound hfind') (hup.trans hup'.symm) (List.head_eq_of_cons_eq hsame)
      | @step _ p' n' rest' _ _ hrest' =>
          have hempty := (List.tail_eq_of_cons_eq hsame).symm
          exact absurd (List.map_eq_nil_iff.mp hempty) hrest'.ne_nil
  | @step k p n rest hfind hup hrest ih =>
      cases h' with
      | @root _ n' _ _ =>
          have hempty := List.tail_eq_of_cons_eq hsame
          exact absurd (List.map_eq_nil_iff.mp hempty) hrest.ne_nil
      | @step _ p' n' rest' hfind' hup' hrest' =>
          obtain rfl : p = p' := ih hrest' (List.tail_eq_of_cons_eq hsame)
          rw [← hkey k n hfind, ← hkey k' n' hfind']
          exact hnames n n' (hfound hfind) (hfound hfind') (hup.trans hup'.symm) (List.head_eq_of_cons_eq hsame)

end Climb

end Upward
