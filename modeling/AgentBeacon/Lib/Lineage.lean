import Mathlib.Logic.Relation

/-!
# `Lib.Lineage` — groups whose fate follows their leader's

Work that is organised in groups, abstractly: every member belongs to a group, a member without a
parent leads its group, members end with an outcome and a group has a life of its own. A system may
judge members that lead nothing as it likes; it settles a leader and its group in one step, so that
the group's life `Fits` the leader's outcome. A group without a leader is still `Fresh`.

`Agrees` is what this discipline achieves, `Step.agrees` the invariant rule, `Steps.agrees` the run
rule.
-/

namespace Lineage

variable {G M O L : Type}

/-- A member: its group, its parent, its outcome. -/
structure Node (G M O : Type) where
  group : G
  parent : Option M
  outcome : Option O

/-- The members and the groups there are. -/
structure Forest (G M O L : Type) where
  member : M → Option (Node G M O)
  life : G → Option L

namespace Forest

variable [DecidableEq G] [DecidableEq M]

def setMember (f : Forest G M O L) (m : M) (n : Node G M O) : Forest G M O L :=
  { f with member := fun j => if j = m then some n else f.member j }

def setLife (f : Forest G M O L) (g : G) (l : L) : Forest G M O L :=
  { f with life := fun j => if j = g then some l else f.life j }

def remove (f : Forest G M O L) (ms : List M) : Forest G M O L :=
  { f with member := fun j => if j ∈ ms then none else f.member j }

/-- The group has no leader. -/
def Leaderless (f : Forest G M O L) (g : G) : Prop :=
  ∀ m n, f.member m = some n → n.group = g → n.parent ≠ none

end Forest

open Forest

/-! ## Members and groups after a change -/

theorem member_setMember [DecidableEq M] {f : Forest G M O L} {m j : M} {n n' : Node G M O}
    (h : (f.setMember m n).member j = some n') :
    (j = m ∧ n' = n) ∨ (j ≠ m ∧ f.member j = some n') := by
  simp only [setMember] at h
  split at h
  · rename_i hj; exact .inl ⟨hj, (Option.some.inj h).symm⟩
  · rename_i hj; exact .inr ⟨hj, h⟩

theorem life_setLife [DecidableEq G] {f : Forest G M O L} {g j : G} {l l' : L} (h : (f.setLife g l).life j = some l') :
    (j = g ∧ l' = l) ∨ (j ≠ g ∧ f.life j = some l') := by
  simp only [setLife] at h
  split at h
  · rename_i hj; exact .inl ⟨hj, (Option.some.inj h).symm⟩
  · rename_i hj; exact .inr ⟨hj, h⟩

/-- A member replaced by one of the same place leads as before. -/
theorem leaderless_setMember [DecidableEq M] {f : Forest G M O L} {m : M} {g g' : G} {p : Option M} {o o' : Option O}
    (hm : f.member m = some ⟨g, p, o⟩) (h : (f.setMember m ⟨g, p, o'⟩).Leaderless g') :
    f.Leaderless g' := by
  intro j n hj hg
  by_cases hjm : j = m
  · subst hjm
    obtain rfl := Option.some.inj (hm.symm.trans hj)
    exact h j ⟨g, p, o'⟩ (by simp [setMember]) hg
  · exact h j n (by simpa [setMember, hjm] using hj) hg

/-! ## The discipline and its invariant -/

/-- Every member has a group, every group at most one leader, whose outcome its life fits; a group
without a leader is fresh. -/
structure Agrees (Fits : L → Option O → Prop) (Fresh : L → Prop) (f : Forest G M O L) : Prop where
  owned : ∀ m n, f.member m = some n → f.life n.group ≠ none
  fits : ∀ m n, f.member m = some n → n.parent = none → ∀ l, f.life n.group = some l →
    Fits l n.outcome
  fresh : ∀ g l, f.life g = some l → f.Leaderless g → Fresh l
  single : ∀ m n m' n', f.member m = some n → f.member m' = some n' → n.parent = none →
    n'.parent = none → n.group = n'.group → m = m'

variable [DecidableEq G] [DecidableEq M]

/-- What a system that settles leaders and groups together does in one step. -/
inductive Step (Fits : L → Option O → Prop) (Fresh : L → Prop) (f : Forest G M O L) :
    Forest G M O L → Prop where
  | launch {g : G} {l : L} (hg : f.life g = none) (hl : Fresh l) : Step Fits Fresh f (f.setLife g l)
  | lead {m : M} {g : G} (hm : f.member m = none) (hg : f.life g ≠ none) (hno : f.Leaderless g) :
      Step Fits Fresh f (f.setMember m ⟨g, none, none⟩)
  | join {m : M} {g : G} {p : M} (hm : f.member m = none) (hg : f.life g ≠ none) :
      Step Fits Fresh f (f.setMember m ⟨g, some p, none⟩)
  | leave {ms : List M} (h : ∀ m ∈ ms, ∀ n, f.member m = some n → n.parent ≠ none) :
      Step Fits Fresh f (f.remove ms)
  | judge {m : M} {g : G} {p : M} {o o' : Option O} (hm : f.member m = some ⟨g, some p, o⟩) :
      Step Fits Fresh f (f.setMember m ⟨g, some p, o'⟩)
  | settle {m : M} {g : G} {o o' : Option O} {l : L} (hm : f.member m = some ⟨g, none, o⟩)
      (hl : Fits l o') : Step Fits Fresh f ((f.setMember m ⟨g, none, o'⟩).setLife g l)

/-- A sequence of steps. -/
abbrev Steps (Fits : L → Option O → Prop) (Fresh : L → Prop) :
    Forest G M O L → Forest G M O L → Prop := Relation.ReflTransGen (Step Fits Fresh)

variable {Fits : L → Option O → Prop} {Fresh : L → Prop} {f f' : Forest G M O L}

/-- A group that begins has no member. -/
theorem Agrees.launch {g : G} {l : L} (h : Agrees Fits Fresh f) (hg : f.life g = none) (hl : Fresh l) :
    Agrees Fits Fresh (f.setLife g l) := by
  refine ⟨fun m n hm => ?_, fun m n hm hp l' hl' => ?_, fun g' l' hl' hno => ?_, h.single⟩
  · simp only [setLife]
    split
    · exact Option.some_ne_none _
    · exact h.owned m n hm
  · rcases life_setLife hl' with ⟨hgroup, -⟩ | ⟨-, hl'⟩
    · exact absurd (hgroup ▸ hg) (h.owned m n hm)
    · exact h.fits m n hm hp l' hl'
  · rcases life_setLife hl' with ⟨-, rfl⟩ | ⟨-, hl'⟩
    · exact hl
    · exact h.fresh g' l' hl' hno

/-- A leader of a group that has none. -/
theorem Agrees.lead {m : M} {g : G} (h : Agrees Fits Fresh f) (hnew : ∀ l, Fresh l → Fits l none)
    (hm : f.member m = none) (hg : f.life g ≠ none) (hno : f.Leaderless g) :
    Agrees Fits Fresh (f.setMember m ⟨g, none, none⟩) := by
  refine ⟨fun j n hj => ?_, fun j n hj hp l hl => ?_, fun g' l hl hno' => ?_,
    fun j n j' n' hj hj' hp hp' hgroup => ?_⟩
  · rcases member_setMember hj with ⟨-, rfl⟩ | ⟨-, hj⟩
    · exact hg
    · exact h.owned j n hj
  · rcases member_setMember hj with ⟨-, rfl⟩ | ⟨-, hj⟩
    · exact hnew l (h.fresh g l hl hno)
    · exact h.fits j n hj hp l hl
  · refine h.fresh g' l hl fun j n hj hg' => hno' j n ?_ hg'
    by_cases hjm : j = m
    · subst hjm; rw [hm] at hj; cases hj
    · simpa [setMember, hjm] using hj
  · rcases member_setMember hj with ⟨rfl, rfl⟩ | ⟨-, h₁⟩ <;>
      rcases member_setMember hj' with ⟨rfl, rfl⟩ | ⟨-, h₂⟩
    · rfl
    · exact absurd hp' (hno j' n' h₂ hgroup.symm)
    · exact absurd hp (hno j n h₁ hgroup)
    · exact h.single j n j' n' h₁ h₂ hp hp' hgroup

/-- A member that does not lead. -/
theorem Agrees.join {m : M} {g : G} {p : M} (h : Agrees Fits Fresh f) (hm : f.member m = none) (hg : f.life g ≠ none) :
    Agrees Fits Fresh (f.setMember m ⟨g, some p, none⟩) := by
  refine ⟨fun j n hj => ?_, fun j n hj hp l hl => ?_, fun g' l hl hno' => ?_,
    fun j n j' n' hj hj' hp hp' hgroup => ?_⟩
  · rcases member_setMember hj with ⟨-, rfl⟩ | ⟨-, hj⟩
    · exact hg
    · exact h.owned j n hj
  · rcases member_setMember hj with ⟨-, rfl⟩ | ⟨-, hj⟩
    · cases hp
    · exact h.fits j n hj hp l hl
  · refine h.fresh g' l hl fun j n hj hg' => hno' j n ?_ hg'
    by_cases hjm : j = m
    · subst hjm; rw [hm] at hj; cases hj
    · simpa [setMember, hjm] using hj
  · rcases member_setMember hj with ⟨-, rfl⟩ | ⟨-, hj⟩
    · cases hp
    rcases member_setMember hj' with ⟨-, rfl⟩ | ⟨-, hj'⟩
    · cases hp'
    exact h.single j n j' n' hj hj' hp hp' hgroup

/-- Members leave that do not lead. -/
theorem Agrees.leave {ms : List M} (h : Agrees Fits Fresh f)
    (hms : ∀ m ∈ ms, ∀ n, f.member m = some n → n.parent ≠ none) :
    Agrees Fits Fresh (f.remove ms) := by
  have hback : ∀ {j n}, (f.remove ms).member j = some n → j ∉ ms ∧ f.member j = some n := by
    intro j n hj
    simp only [remove] at hj
    split at hj
    · cases hj
    · rename_i hno; exact ⟨hno, hj⟩
  refine ⟨fun j n hj => h.owned j n (hback hj).2, fun j n hj => h.fits j n (hback hj).2,
    fun g' l hl hno' => h.fresh g' l hl fun j n hj hg' hp => ?_,
    fun j n j' n' hj hj' => h.single j n j' n' (hback hj).2 (hback hj').2⟩
  have hstays : j ∉ ms := fun hmem => hms j hmem n hj hp
  exact hno' j n (by simpa [remove, hstays] using hj) hg' hp

/-- The outcome of a member that does not lead. -/
theorem Agrees.judge {m : M} {g : G} {p : M} {o o' : Option O} (h : Agrees Fits Fresh f)
    (hm : f.member m = some ⟨g, some p, o⟩) :
    Agrees Fits Fresh (f.setMember m ⟨g, some p, o'⟩) := by
  refine ⟨fun j n hj => ?_, fun j n hj hp l hl => ?_,
    fun g' l hl hno' => h.fresh g' l hl (leaderless_setMember hm hno'),
    fun j n j' n' hj hj' hp hp' hgroup => ?_⟩
  · rcases member_setMember hj with ⟨-, rfl⟩ | ⟨-, hj⟩
    · exact (h.owned m ⟨g, some p, o⟩ hm :)
    · exact h.owned j n hj
  · rcases member_setMember hj with ⟨-, rfl⟩ | ⟨-, hj⟩
    · cases hp
    · exact h.fits j n hj hp l hl
  · rcases member_setMember hj with ⟨-, rfl⟩ | ⟨-, hj⟩
    · cases hp
    rcases member_setMember hj' with ⟨-, rfl⟩ | ⟨-, hj'⟩
    · cases hp'
    exact h.single j n j' n' hj hj' hp hp' hgroup

/-- The outcome of a leader, with the life of its group. -/
theorem Agrees.settle {m : M} {g : G} {o o' : Option O} {l : L} (h : Agrees Fits Fresh f)
    (hm : f.member m = some ⟨g, none, o⟩) (hl : Fits l o') :
    Agrees Fits Fresh ((f.setMember m ⟨g, none, o'⟩).setLife g l) := by
  refine ⟨fun j n hj => ?_, fun j n hj hp l' hl' => ?_, fun g' l' hl' hno' => ?_,
    fun j n j' n' hj hj' hp hp' hgroup => ?_⟩
  · simp only [setLife]
    split
    · exact Option.some_ne_none _
    · rename_i hne
      rcases member_setMember hj with ⟨-, rfl⟩ | ⟨-, hj⟩
      · exact absurd rfl hne
      · exact h.owned j n hj
  · rcases member_setMember hj with ⟨-, rfl⟩ | ⟨hne, hj⟩
    · rcases life_setLife hl' with ⟨-, rfl⟩ | ⟨hne, -⟩
      · exact hl
      · exact absurd rfl hne
    · rcases life_setLife hl' with ⟨hgroup, -⟩ | ⟨-, hl'⟩
      · exact absurd (h.single j n m _ hj hm hp rfl hgroup) hne
      · exact h.fits j n hj hp l' hl'
  · rcases life_setLife hl' with ⟨rfl, -⟩ | ⟨-, hl'⟩
    · exact absurd rfl (hno' m ⟨g', none, o'⟩ (by simp [setLife, setMember]) rfl)
    · exact h.fresh g' l' hl' (leaderless_setMember hm hno')
  · have hsame : ∀ {j n}, (f.setMember m ⟨g, none, o'⟩).member j = some n → n.parent = none →
        ∃ n₀, f.member j = some n₀ ∧ n₀.parent = none ∧ n₀.group = n.group := by
      intro j n hj hp
      rcases member_setMember hj with ⟨rfl, rfl⟩ | ⟨-, hj⟩
      · exact ⟨_, hm, rfl, rfl⟩
      · exact ⟨n, hj, hp, rfl⟩
    obtain ⟨n₀, hj₀, hp₀, hg₀⟩ := hsame hj hp
    obtain ⟨n₁, hj₁, hp₁, hg₁⟩ := hsame hj' hp'
    exact h.single j n₀ j' n₁ hj₀ hj₁ hp₀ hp₁ (hg₀.trans (hgroup.trans hg₁.symm))

/-- **One step.** -/
theorem Step.agrees (hnew : ∀ l, Fresh l → Fits l none) (hs : Step Fits Fresh f f')
    (h : Agrees Fits Fresh f) : Agrees Fits Fresh f' := by
  cases hs with
  | launch hg hl => exact h.launch hg hl
  | lead hm hg hno => exact h.lead hnew hm hg hno
  | join hm hg => exact h.join hm hg
  | leave hms => exact h.leave hms
  | judge hm => exact h.judge hm
  | settle hm hl => exact h.settle hm hl

/-- **A whole run.** -/
theorem Steps.agrees (hnew : ∀ l, Fresh l → Fits l none) (hs : Steps Fits Fresh f f')
    (h : Agrees Fits Fresh f) : Agrees Fits Fresh f' := by
  induction hs with
  | refl => exact h
  | tail _ hstep ih => exact hstep.agrees hnew ih

end Lineage
