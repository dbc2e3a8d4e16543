import Mathlib.Data.List.Pairwise

/-!
# `Lib.Replica` — a replica that is written after the fact

A primary holds one value or none for each key. Its updates are committed one after the other, and each
is later written to the replica with the value that it left, in whatever order the writes come. Where
updates of one key never leave the same value twice, the replica ends up with the values of the primary
exactly when of each key the last update is written last.
-/

namespace Replica

variable {Key Value : Type}

/-- An update of a key: which one it is, and what it leaves. -/
structure Update (Key Value : Type) where
  number : Nat
  key : Key
  value : Option Value

section
variable [DecidableEq Key]

/-- The last of some updates, the newest first, of a key. -/
def last (updates : List (Update Key Value)) (key : Key) : Option (Update Key Value) :=
  updates.find? fun u => u.key = key

/-- What updates leave under a key, if it held `start` before. -/
def valueAfter (start : Key → Option Value) (updates : List (Update Key Value)) (key : Key) : Option Value :=
  match last updates key with
  | some u => u.value
  | none => start key

/-- Of every key, the update that is committed last is written last. -/
def LastWritten (commits writes : List (Update Key Value)) : Prop :=
  ∀ key, (last writes key).map Update.number = (last commits key).map Update.number

end

/-- A later update has another number, and of the same key another value. -/
def Differs (later earlier : Update Key Value) : Prop :=
  earlier.number < later.number ∧ (earlier.key = later.key → earlier.value ≠ later.value)

/-- The number tells an update. -/
theorem eq_of_number {commits : List (Update Key Value)} {u v : Update Key Value}
    (hdiffers : commits.Pairwise Differs) (hu : u ∈ commits)
    (hv : v ∈ commits) (h : u.number = v.number) : u = v := by
  induction commits with
  | nil => cases hu
  | cons c commits ih =>
      obtain ⟨hhead, htail⟩ := List.pairwise_cons.mp hdiffers
      rcases List.mem_cons.mp hu with hu | hu <;> rcases List.mem_cons.mp hv with hv | hv
      · rw [hu, hv]
      · have hlt := (hhead v hv).1
        rw [← hu] at hlt
        omega
      · have hlt := (hhead u hu).1
        rw [← hv] at hlt
        omega
      · exact ih htail hu hv

variable [DecidableEq Key] {start : Key → Option Value} {updates commits writes : List (Update Key Value)}
  {u v : Update Key Value} {key : Key}

theorem key_of_last (h : last updates key = some u) : u.key = key := by
  have hfound := List.find?_some
    (show updates.find? (fun u => decide (u.key = key)) = some u from h)
  exact of_decide_eq_true hfound

theorem mem_of_last (h : last updates key = some u) : u ∈ updates := List.mem_of_find?_eq_some h

theorem last_eq_none : last updates key = none ↔ ∀ u ∈ updates, u.key ≠ key := by
  rw [last, List.find?_eq_none]
  simp

@[simp] theorem last_cons_self : last (u :: updates) u.key = some u :=
  List.find?_cons_of_pos (decide_eq_true rfl)

theorem last_cons_of_ne (h : key ≠ u.key) : last (u :: updates) key = last updates key := by
  have hother : ¬(decide (u.key = key) = true) := fun heq => h (of_decide_eq_true heq).symm
  exact List.find?_cons_of_neg hother

@[simp] theorem valueAfter_cons_self : valueAfter start (u :: updates) u.key = u.value := by
  rw [valueAfter, last_cons_self]

theorem valueAfter_cons_of_ne (h : key ≠ u.key) :
    valueAfter start (u :: updates) key = valueAfter start updates key := by
  rw [valueAfter, valueAfter, last_cons_of_ne h]

/-- The last update of a key left another value than every other one of it. -/
theorem value_ne_last (hdiffers : commits.Pairwise Differs) (hlast : last commits key = some v)
    (hu : u ∈ commits) (hkey : u.key = key) (hne : u ≠ v) : u.value ≠ v.value := by
  induction commits with
  | nil => cases hu
  | cons c commits ih =>
      obtain ⟨hhead, htail⟩ := List.pairwise_cons.mp hdiffers
      by_cases hc : key = c.key
      · subst hc
        rw [last_cons_self] at hlast
        obtain rfl := Option.some.inj hlast
        rcases List.mem_cons.mp hu with heq | hu
        · exact absurd heq hne
        · exact (hhead u hu).2 hkey
      · rw [last_cons_of_ne hc] at hlast
        rcases List.mem_cons.mp hu with heq | hu
        · rw [heq] at hkey
          exact absurd hkey.symm hc
        · exact ih htail hlast hu

/-- **Once every update is written, the replica is the primary exactly when of every key the last one
was written last.** -/
theorem valueAfter_eq_iff (start : Key → Option Value) (hdiffers : commits.Pairwise Differs)
    (hsound : ∀ u ∈ writes, u ∈ commits)
    (hcomplete : ∀ u ∈ commits, u ∈ writes) :
    (∀ key, valueAfter start writes key = valueAfter start commits key) ↔ LastWritten commits writes := by
  refine forall_congr' fun key => ?_
  unfold valueAfter
  cases hcommit : last commits key with
  | none =>
      have hnone : last writes key = none :=
        last_eq_none.mpr fun u hu => last_eq_none.mp hcommit u (hsound u hu)
      rw [hnone]
      exact ⟨fun _ => rfl, fun _ => rfl⟩
  | some v =>
      cases hwrite : last writes key with
      | none =>
          have hv := hcomplete v (mem_of_last hcommit)
          exact absurd (key_of_last hcommit) (last_eq_none.mp hwrite v hv)
      | some u =>
          have hu := hsound u (mem_of_last hwrite)
          have hv := mem_of_last hcommit
          constructor
          · intro hvalue
            by_contra hnumber
            have hne : u ≠ v := fun heq => hnumber (by rw [heq])
            exact value_ne_last hdiffers hcommit hu (key_of_last hwrite) hne hvalue
          · intro hnumber
            rw [eq_of_number hdiffers hu hv (Option.some.inj hnumber)]

end Replica
