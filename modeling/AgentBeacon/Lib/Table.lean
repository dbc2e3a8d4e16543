import Mathlib.Data.List.Nodup

/-!
# `Lib.Table` — relational tables with a primary key

A table is the list of its rows in insertion order together with the fact that no two rows share a
key. Two kinds are provided:

* `Table` — the key is chosen by the writer; an insert that would repeat a key fails.
* `AutoTable` — the key is drawn by the table itself (`AUTOINCREMENT`), so rows stand in key order
  and a key is never drawn twice, not even after its row was deleted.

The statements a program issues against a table (`find?`, `modify`, `insert?`, `delete`, `push`,
`deleteWhere`) keep these facts by construction; the lemmas below describe them by what `find?` and
membership see afterwards.
-/

namespace Relational

/-! ## Tables keyed by the writer -/

/-- Rows in insertion order; `key` is the primary key. -/
structure Table (κ ρ : Type) (key : ρ → κ) where
  rows : List ρ
  nodup : (rows.map key).Nodup

namespace Table

variable {κ ρ : Type} {key : ρ → κ}

/-- The table without rows. -/
def empty : Table κ ρ key := ⟨[], by simp⟩

/-- Keys identify rows. -/
theorem eq_of_key_eq (t : Table κ ρ key) {r r' : ρ} (h : r ∈ t.rows) (h' : r' ∈ t.rows)
    (hk : key r = key r') : r = r' :=
  List.inj_on_of_nodup_map t.nodup h h' hk

variable [DecidableEq κ]

/-- `SELECT … WHERE key = k`. -/
def find? (t : Table κ ρ key) (k : κ) : Option ρ := t.rows.find? fun r => key r = k

/-- `UPDATE … WHERE key = k`; the assignment must not touch the key. -/
def modify (t : Table κ ρ key) (k : κ) (f : ρ → ρ) (hf : ∀ r, key (f r) = key r) :
    Table κ ρ key where
  rows := t.rows.map fun r => if key r = k then f r else r
  nodup := by
    have hmap : (t.rows.map fun r => if key r = k then f r else r).map key = t.rows.map key := by
      rw [List.map_map]
      refine List.map_congr_left fun r _ => ?_
      show key (if key r = k then f r else r) = key r
      split
      · exact hf r
      · rfl
    rw [hmap]; exact t.nodup

/-- `INSERT`; `none` when the key is taken. -/
def insert? (t : Table κ ρ key) (r : ρ) : Option (Table κ ρ key) :=
  if h : key r ∈ t.rows.map key then none
  else some ⟨t.rows ++ [r], by
    rw [List.map_append, List.nodup_append]
    refine ⟨t.nodup, by simp, fun a ha b hb => ?_⟩
    rw [List.map_singleton, List.mem_singleton] at hb
    exact fun he => h (hb ▸ he ▸ ha)⟩

/-- `DELETE … WHERE p`. -/
def deleteWhere (t : Table κ ρ key) (p : ρ → Bool) : Table κ ρ key :=
  ⟨t.rows.filter fun r => !p r, t.nodup.sublist (List.filter_sublist.map key)⟩

/-- `UPDATE … WHERE p`; the assignment must not touch the key. -/
def updateWhere (t : Table κ ρ key) (p : ρ → Bool) (f : ρ → ρ) (hf : ∀ r, key (f r) = key r) :
    Table κ ρ key where
  rows := t.rows.map fun r => if p r then f r else r
  nodup := by
    have hmap : (t.rows.map fun r => if p r then f r else r).map key = t.rows.map key := by
      rw [List.map_map]
      refine List.map_congr_left fun r _ => ?_
      show key (if p r then f r else r) = key r
      split
      · exact hf r
      · rfl
    rw [hmap]; exact t.nodup

@[simp] theorem find?_empty (k : κ) : (empty : Table κ ρ key).find? k = none := rfl

theorem key_of_find? {t : Table κ ρ key} {k : κ} {r : ρ} (h : t.find? k = some r) : key r = k := by
  simpa using List.find?_some h

theorem mem_of_find? {t : Table κ ρ key} {k : κ} {r : ρ} (h : t.find? k = some r) : r ∈ t.rows :=
  List.mem_of_find?_eq_some h

/-- **A row is found under its key.** -/
theorem find?_of_mem {t : Table κ ρ key} {r : ρ} (h : r ∈ t.rows) : t.find? (key r) = some r := by
  cases hf : t.find? (key r) with
  | none =>
      rw [find?, List.find?_eq_none] at hf
      exact absurd (by simp) (hf r h)
  | some r' =>
      exact congrArg some (t.eq_of_key_eq (mem_of_find? hf) h (key_of_find? hf))

theorem find?_eq_some {t : Table κ ρ key} {k : κ} {r : ρ} :
    t.find? k = some r ↔ r ∈ t.rows ∧ key r = k := by
  constructor
  · intro h; exact ⟨mem_of_find? h, key_of_find? h⟩
  · rintro ⟨hm, rfl⟩; exact find?_of_mem hm

theorem find?_eq_none {t : Table κ ρ key} {k : κ} :
    t.find? k = none ↔ ∀ r ∈ t.rows, key r ≠ k := by
  simp [find?, List.find?_eq_none]

/-- **What an `UPDATE` by key leaves under each key.** -/
theorem find?_modify (t : Table κ ρ key) (k j : κ) (f : ρ → ρ) (hf : ∀ r, key (f r) = key r) :
    (t.modify k f hf).find? j = if j = k then (t.find? k).map f else t.find? j := by
  by_cases hj : j = k
  · subst hj
    rw [if_pos rfl]
    cases h : t.find? j with
    | none =>
        rw [find?_eq_none] at h
        refine find?_eq_none.mpr fun r hr => ?_
        obtain ⟨r₀, hr₀, rfl⟩ := List.mem_map.mp hr
        simp [h r₀ hr₀]
    | some r =>
        obtain ⟨hm, hk⟩ := find?_eq_some.mp h
        refine find?_eq_some.mpr ⟨List.mem_map.mpr ⟨r, hm, by simp [hk]⟩, ?_⟩
        rw [hf, hk]
  · rw [if_neg hj]
    cases h : t.find? j with
    | none =>
        rw [find?_eq_none] at h
        refine find?_eq_none.mpr fun r hr => ?_
        obtain ⟨r₀, hr₀, rfl⟩ := List.mem_map.mp hr
        split
        · rw [hf]; exact h r₀ hr₀
        · exact h r₀ hr₀
    | some r =>
        obtain ⟨hm, hk⟩ := find?_eq_some.mp h
        have hne : ¬ key r = k := fun he => hj (hk ▸ he)
        exact find?_eq_some.mpr ⟨List.mem_map.mpr ⟨r, hm, by simp [hne]⟩, hk⟩

/-- An insert fails exactly if the key is taken. -/
theorem insert?_eq_none {t : Table κ ρ key} {r : ρ} : t.insert? r = none ↔ t.find? (key r) ≠ none := by
  rw [Ne, find?_eq_none]
  unfold insert?
  split
  · rename_i htaken
    simpa using htaken
  · rename_i hfree
    simpa using hfree


theorem insert?_eq_some {t t' : Table κ ρ key} {r : ρ} (h : t.insert? r = some t') :
    t.find? (key r) = none ∧ t'.rows = t.rows ++ [r] := by
  unfold insert? at h
  split at h
  · cases h
  · rename_i hk
    cases h
    refine ⟨find?_eq_none.mpr fun r' hr' he => hk ?_, rfl⟩
    exact List.mem_map.mpr ⟨r', hr', he⟩

/-- **What an `INSERT` leaves under each key.** -/
theorem find?_insert? {t t' : Table κ ρ key} {r : ρ} (h : t.insert? r = some t') (j : κ) :
    t'.find? j = if j = key r then some r else t.find? j := by
  obtain ⟨hnone, hrows⟩ := insert?_eq_some h
  by_cases hj : j = key r
  · subst hj
    rw [if_pos rfl]
    exact find?_eq_some.mpr ⟨by simp [hrows], rfl⟩
  · rw [if_neg hj, find?, find?, hrows, List.find?_append]
    cases hf : List.find? (fun r => decide (key r = j)) t.rows with
    | some r' => rfl
    | none =>
        have hkr : ¬ key r = j := fun he => hj he.symm
        simp [hkr]

omit [DecidableEq κ] in
theorem mem_deleteWhere {t : Table κ ρ key} {p : ρ → Bool} {r : ρ} :
    r ∈ (t.deleteWhere p).rows ↔ r ∈ t.rows ∧ p r = false := by
  simp [deleteWhere, List.mem_filter]

omit [DecidableEq κ] in
theorem mem_updateWhere {t : Table κ ρ key} {p : ρ → Bool} {f : ρ → ρ}
    {hf : ∀ r, key (f r) = key r} {r : ρ} :
    r ∈ (t.updateWhere p f hf).rows ↔ ∃ r₀ ∈ t.rows, (if p r₀ then f r₀ else r₀) = r :=
  List.mem_map

/-- **What an `UPDATE` leaves under each key.** -/
theorem find?_updateWhere (t : Table κ ρ key) (p : ρ → Bool) (f : ρ → ρ)
    (hf : ∀ r, key (f r) = key r) (j : κ) :
    (t.updateWhere p f hf).find? j = (t.find? j).map fun r => if p r then f r else r := by
  have hkey : ∀ r, key (if p r then f r else r) = key r := fun r => by
    split
    · exact hf r
    · rfl
  show (t.rows.map fun r => if p r then f r else r).find? (fun r => key r = j) = _
  have hsame : ((fun r => decide (key r = j)) ∘ fun r => if p r then f r else r) =
      fun r => decide (key r = j) := by
    funext r
    simp [hkey]
  rw [List.find?_map, hsame]
  rfl

/-- **What a `DELETE` leaves under each key.** -/
theorem find?_deleteWhere (t : Table κ ρ key) (p : ρ → Bool) (j : κ) :
    (t.deleteWhere p).find? j = (t.find? j).filter fun r => !p r := by
  cases h : t.find? j with
  | none =>
      rw [find?_eq_none] at h
      exact find?_eq_none.mpr fun r hr => h r (mem_deleteWhere.mp hr).1
  | some r =>
      obtain ⟨hm, hk⟩ := find?_eq_some.mp h
      cases hp : p r with
      | false =>
          rw [Option.filter_some, if_pos (by simp [hp])]
          exact find?_eq_some.mpr ⟨mem_deleteWhere.mpr ⟨hm, hp⟩, hk⟩
      | true =>
          rw [Option.filter_some, if_neg (by simp [hp])]
          refine find?_eq_none.mpr fun r' hr' he => ?_
          obtain ⟨hm', hp'⟩ := mem_deleteWhere.mp hr'
          have hrr : r' = r := t.eq_of_key_eq hm' hm (he.trans hk.symm)
          rw [hrr, hp] at hp'
          cases hp'

end Table

/-! ## Tables that draw their own key -/

/-- Rows in the order of the key the table drew for them; `next` is the key it draws next. -/
structure AutoTable (ρ : Type) (key : ρ → Nat) where
  rows : List ρ
  next : Nat
  ascending : (rows.map key).Pairwise (· < ·)
  bounded : ∀ r ∈ rows, key r < next

namespace AutoTable

variable {ρ : Type} {key : ρ → Nat}

/-- The table without rows; keys are drawn from `1` on. -/
def empty : AutoTable ρ key := ⟨[], 1, by simp, by simp⟩

/-- `INSERT … RETURNING key`. -/
def push (t : AutoTable ρ key) (mk : Nat → ρ) (hmk : ∀ n, key (mk n) = n) : AutoTable ρ key where
  rows := t.rows ++ [mk t.next]
  next := t.next + 1
  ascending := by
    rw [List.map_append, List.pairwise_append]
    refine ⟨t.ascending, by simp, fun a ha b hb => ?_⟩
    obtain ⟨r, hr, rfl⟩ := List.mem_map.mp ha
    rw [List.map_singleton, List.mem_singleton, hmk] at hb
    exact hb ▸ t.bounded r hr
  bounded := by
    intro r hr
    rcases List.mem_append.mp hr with h | h
    · exact Nat.lt_succ_of_lt (t.bounded r h)
    · rw [List.mem_singleton] at h
      subst h
      rw [hmk]; exact Nat.lt_succ_self _

/-- `DELETE … WHERE p`; the keys of deleted rows stay drawn. -/
def deleteWhere (t : AutoTable ρ key) (p : ρ → Bool) : AutoTable ρ key where
  rows := t.rows.filter fun r => !p r
  next := t.next
  ascending := t.ascending.sublist (List.filter_sublist.map key)
  bounded := fun r hr => t.bounded r (List.mem_filter.mp hr).1

@[simp] theorem rows_push (t : AutoTable ρ key) (mk : Nat → ρ) (hmk : ∀ n, key (mk n) = n) :
    (t.push mk hmk).rows = t.rows ++ [mk t.next] := rfl

@[simp] theorem next_push (t : AutoTable ρ key) (mk : Nat → ρ) (hmk : ∀ n, key (mk n) = n) :
    (t.push mk hmk).next = t.next + 1 := rfl

@[simp] theorem rows_empty : (empty : AutoTable ρ key).rows = [] := rfl

@[simp] theorem rows_deleteWhere (t : AutoTable ρ key) (p : ρ → Bool) :
    (t.deleteWhere p).rows = t.rows.filter fun r => !p r := rfl

@[simp] theorem next_deleteWhere (t : AutoTable ρ key) (p : ρ → Bool) :
    (t.deleteWhere p).next = t.next := rfl

/-- Keys identify rows. -/
theorem eq_of_key_eq (t : AutoTable ρ key) {r r' : ρ} (h : r ∈ t.rows) (h' : r' ∈ t.rows)
    (hk : key r = key r') : r = r' :=
  List.inj_on_of_nodup_map (t.ascending.imp fun hlt => Nat.ne_of_lt hlt) h h' hk

end AutoTable

/-! ## `ORDER BY … LIMIT 1`

An `ORDER BY` leaves the order of rows that are equal under it open, so which of the least rows a
`LIMIT 1` returns is the engine's choice. -/

section FirstBy

variable {ρ : Type} (rank : ρ → Nat)

/-- The rows no other row precedes. -/
def leastBy (rows : List ρ) : List ρ := rows.filter fun r => rows.all fun r' => rank r ≤ rank r'

/-- `SELECT … ORDER BY rank LIMIT 1`; `choice` settles ties. -/
def firstBy (choice : Nat) (rows : List ρ) : Option ρ :=
  (leastBy rank rows)[choice % (leastBy rank rows).length]?

variable {rank}

theorem mem_leastBy {rows : List ρ} {r : ρ} :
    r ∈ leastBy rank rows ↔ r ∈ rows ∧ ∀ r' ∈ rows, rank r ≤ rank r' := by
  simp [leastBy, List.mem_filter]

/-- The row returned is a row, and none precedes it. -/
theorem firstBy_eq_some {choice : Nat} {rows : List ρ} {r : ρ}
    (h : firstBy rank choice rows = some r) : r ∈ rows ∧ ∀ r' ∈ rows, rank r ≤ rank r' :=
  mem_leastBy.mp (List.mem_of_getElem? h)

/-- A nonempty table has a least row. -/
theorem leastBy_ne_nil {rows : List ρ} (h : rows ≠ []) : leastBy rank rows ≠ [] := by
  obtain ⟨r, hr, hmin⟩ : ∃ r ∈ rows, ∀ r' ∈ rows, rank r ≤ rank r' := by
    induction rows with
    | nil => exact absurd rfl h
    | cons a rows ih =>
        by_cases hnil : rows = []
        · exact ⟨a, by simp, by simp [hnil]⟩
        · obtain ⟨r, hr, hmin⟩ := ih hnil
          by_cases hle : rank a ≤ rank r
          · refine ⟨a, by simp, fun r' hr' => ?_⟩
            rcases List.mem_cons.mp hr' with rfl | hr'
            · exact Nat.le_refl _
            · exact Nat.le_trans hle (hmin r' hr')
          · refine ⟨r, by simp [hr], fun r' hr' => ?_⟩
            rcases List.mem_cons.mp hr' with rfl | hr'
            · omega
            · exact hmin r' hr'
  exact List.ne_nil_of_mem (mem_leastBy.mpr ⟨hr, hmin⟩)

/-- **`LIMIT 1` finds a row exactly when there is one.** -/
theorem firstBy_eq_none {choice : Nat} {rows : List ρ} :
    firstBy rank choice rows = none ↔ rows = [] := by
  constructor
  · intro h
    by_contra hne
    have hpos : 0 < (leastBy rank rows).length := List.length_pos_of_ne_nil (leastBy_ne_nil hne)
    have hlt := Nat.mod_lt choice hpos
    rw [firstBy, List.getElem?_eq_none_iff] at h
    omega
  · rintro rfl; rfl

/-- Every least row is returned under some choice. -/
theorem exists_firstBy {rows : List ρ} {r : ρ} (hr : r ∈ rows)
    (hmin : ∀ r' ∈ rows, rank r ≤ rank r') : ∃ choice, firstBy rank choice rows = some r := by
  obtain ⟨n, hn, he⟩ := List.getElem_of_mem (mem_leastBy.mpr ⟨hr, hmin⟩)
  refine ⟨n, ?_⟩
  rw [firstBy, Nat.mod_eq_of_lt hn, List.getElem?_eq_getElem hn, he]

end FirstBy

end Relational
