import Mathlib.Order.Basic

/-!
# `Lib.Sharing` — rights that groups hand on

Owners put items into groups; the members of a group get a right to the items that other members have
put there, at the level of their own membership. The file says how the rights of one state relate to
those of another when groups lose members or items (*shrinking*), when one membership is added, and
when one membership changes its level.
-/

namespace Sharing

variable {Owner Item Group Level : Type}

/-- Who takes part, who owns which item, who is a member where, and what is in which group. -/
structure Groups (Owner Item Group Level : Type) where
  active : Owner → Prop
  owns : Owner → Item → Prop
  member : Group → Owner → Level → Prop
  holds : Group → Item → Prop
  owner_unique : ∀ p q g, owns p g → owns q g → p = q

namespace Groups

variable (s s' : Groups Owner Item Group Level) (levels : Level → Prop)

/-- `p` has a right to `g` through the group `t`, at one of the levels. -/
def Linked (t : Group) (p : Owner) (g : Item) : Prop :=
  ∃ o, s.owns o g ∧ o ≠ p ∧ s.active p ∧ s.active o ∧ (∃ ℓ, levels ℓ ∧ s.member t p ℓ) ∧
    (∃ ℓ, s.member t o ℓ) ∧ s.holds t g

/-- `p` has a right to `g`. -/
def Right (p : Owner) (g : Item) : Prop := ∃ t, s.Linked levels t p g

/-- `p` has a right to `g` through a group other than `t`. -/
def RightBut (t : Group) (p : Owner) (g : Item) : Prop := ∃ u, u ≠ t ∧ s.Linked levels u p g

/-- Someone has a right in `s'` that they did not have in `s`. -/
def Gains : Prop := ∃ p g, ¬s.Right levels p g ∧ s'.Right levels p g

/-! ## Shrinking -/

/-- `s` has lost participants, items, members or contents against `s'`. -/
structure Within : Prop where
  active : ∀ p, s.active p → s'.active p
  owns : ∀ p g, s.owns p g → s'.owns p g
  member : ∀ t p ℓ, s.member t p ℓ → s'.member t p ℓ
  holds : ∀ t p g, s.owns p g → s.holds t g → s'.holds t g

variable {s s' levels}

theorem Within.refl (s : Groups Owner Item Group Level) : s.Within s :=
  ⟨fun _ h => h, fun _ _ h => h, fun _ _ _ h => h, fun _ _ _ _ h => h⟩

theorem Within.linked (h : s.Within s') {t : Group} {p : Owner} {g : Item}
    (hl : s.Linked levels t p g) : s'.Linked levels t p g := by
  obtain ⟨o, howns, hne, hp, ho, ⟨ℓ, hℓ, hmem⟩, ⟨ℓ', hmem'⟩, hholds⟩ := hl
  exact ⟨o, h.owns o g howns, hne, h.active p hp, h.active o ho, ⟨ℓ, hℓ, h.member t p ℓ hmem⟩,
    ⟨ℓ', h.member t o ℓ' hmem'⟩, h.holds t o g howns hholds⟩

theorem Within.right (h : s.Within s') {p : Owner} {g : Item} (hr : s.Right levels p g) :
    s'.Right levels p g := by
  obtain ⟨t, ht⟩ := hr
  exact ⟨t, h.linked ht⟩

/-- The members of a group that see what `o` puts into it: `o` is a member, and there is another. -/
def Seen (s : Groups Owner Item Group Level) (t : Group) (o : Owner) : Prop :=
  s.active o ∧ (∃ ℓ, s.member t o ℓ) ∧ ∃ p, p ≠ o ∧ s.active p ∧ ∃ ℓ, s.member t p ℓ

/-- **Nobody gains by what nobody sees**: memberships have only been lost, and what is in a group that
was not is in one that nobody else sees. -/
theorem no_gain_of_unseen (hactive : ∀ p, s'.active p → s.active p)
    (hmember : ∀ t p ℓ, s'.member t p ℓ → s.member t p ℓ)
    (hnew : ∀ t o g, s'.owns o g → s'.holds t g → s.owns o g ∧ s.holds t g ∨ ¬s'.Seen t o) :
    ¬Gains s s' levels := by
  rintro ⟨p, g, hbefore, t, o, howns, hne, hp, ho, ⟨ℓ, hℓ, hmem⟩, ⟨ℓ', hmem'⟩, hholds⟩
  rcases hnew t o g howns hholds with ⟨howns₀, hholds₀⟩ | hunseen
  · exact hbefore ⟨t, o, howns₀, hne, hactive p hp, hactive o ho, ⟨ℓ, hℓ, hmember t p ℓ hmem⟩,
      ⟨ℓ', hmember t o ℓ' hmem'⟩, hholds₀⟩
  · exact hunseen ⟨ho, ⟨ℓ', hmem'⟩, p, Ne.symm hne, hp, ℓ, hmem⟩

/-- **Nobody gains by a loss.** -/
theorem Within.no_gain (h : s'.Within s) : ¬Gains s s' levels :=
  no_gain_of_unseen h.active h.member fun t o g howns hholds =>
    .inl ⟨h.owns o g howns, h.holds t o g howns hholds⟩

/-! ## One membership more -/

/-- `s'` is `s` with `j` a member of `t` at the level `ℓ`. -/
structure Admits (s s' : Groups Owner Item Group Level) (t : Group) (j : Owner) (ℓ : Level) : Prop where
  active : ∀ p, s'.active p ↔ s.active p
  owns : ∀ p g, s'.owns p g ↔ s.owns p g
  member : ∀ u p ℓ', s'.member u p ℓ' ↔ s.member u p ℓ' ∨ u = t ∧ p = j ∧ ℓ' = ℓ
  holds : ∀ u g, s'.holds u g ↔ s.holds u g
  fresh : ∀ ℓ', ¬s.member t j ℓ'

section Admits

variable {t : Group} {j : Owner} {ℓ : Level}

theorem Admits.within (h : Admits s s' t j ℓ) : s.Within s' where
  active p hp := (h.active p).mpr hp
  owns p g ho := (h.owns p g).mpr ho
  member u p ℓ' hm := (h.member u p ℓ').mpr (.inl hm)
  holds u _ g _ hg := (h.holds u g).mpr hg

/-- An item that a member other than the joiner has put into the group. -/
def Inbound (s : Groups Owner Item Group Level) (t : Group) (j : Owner) (g : Item) : Prop :=
  ∃ o, s.owns o g ∧ o ≠ j ∧ s.active o ∧ (∃ ℓ, s.member t o ℓ) ∧ s.holds t g

/-- An item of the joiner that is in the group. -/
def Outbound (s : Groups Owner Item Group Level) (t : Group) (j : Owner) (g : Item) : Prop :=
  s.owns j g ∧ s.holds t g

/-- A member of the group at one of the levels, other than the joiner. -/
def Incumbent (s : Groups Owner Item Group Level) (levels : Level → Prop) (t : Group) (j m : Owner) :
    Prop := m ≠ j ∧ s.active m ∧ ∃ ℓ, levels ℓ ∧ s.member t m ℓ

/-- **Who gains by an admission**: the joiner, where the level grants it, what members have put into
the group; and the members of that level what the joiner has put there. -/
theorem Admits.gains_iff (h : Admits s s' t j ℓ) (hj : s.active j) :
    Gains s s' levels ↔
      (levels ℓ ∧ ∃ g, s.Inbound t j g ∧ ¬s.RightBut levels t j g) ∨
      ∃ m g, s.Incumbent levels t j m ∧ s.Outbound t j g ∧ ¬s.RightBut levels t m g := by
  constructor
  · rintro ⟨p, g, hbefore, u, o, howns, hne, hp, ho, ⟨ℓ₁, hℓ₁, hmem⟩, ⟨ℓ₂, hmem'⟩, hholds⟩
    rw [h.owns] at howns
    rw [h.active] at hp ho
    rw [h.holds] at hholds
    have hbut : ¬s.RightBut levels t p g := fun ⟨v, _, hv⟩ => hbefore ⟨v, hv⟩
    rcases (h.member u p ℓ₁).mp hmem with hold | ⟨rfl, rfl, rfl⟩
    · rcases (h.member u o ℓ₂).mp hmem' with hold' | ⟨rfl, rfl, rfl⟩
      · exact absurd ⟨u, o, howns, hne, hp, ho, ⟨ℓ₁, hℓ₁, hold⟩, ⟨ℓ₂, hold'⟩, hholds⟩ hbefore
      · exact .inr ⟨p, g, ⟨Ne.symm hne, hp, ℓ₁, hℓ₁, hold⟩, ⟨howns, hholds⟩, hbut⟩
    · rcases (h.member u o ℓ₂).mp hmem' with hold' | ⟨-, rfl, -⟩
      · exact .inl ⟨hℓ₁, g, ⟨o, howns, hne, ho, ⟨ℓ₂, hold'⟩, hholds⟩, hbut⟩
      · exact absurd rfl hne
  · rintro (⟨hℓ, g, ⟨o, howns, hne, ho, ⟨ℓ₂, hmem⟩, hholds⟩, hbut⟩ |
      ⟨m, g, ⟨hne, hm, ℓ₁, hℓ₁, hmem⟩, ⟨howns, hholds⟩, hbut⟩)
    · refine ⟨j, g, ?_, t, o, (h.owns o g).mpr howns, hne, (h.active j).mpr hj, (h.active o).mpr ho,
        ⟨ℓ, hℓ, (h.member t j ℓ).mpr (.inr ⟨rfl, rfl, rfl⟩)⟩,
        ⟨ℓ₂, (h.member t o ℓ₂).mpr (.inl hmem)⟩, (h.holds t g).mpr hholds⟩
      -- the joiner was no member, so what it could reach it reached through another group
      rintro ⟨u, hu⟩
      refine hbut ⟨u, ?_, hu⟩
      rintro rfl
      obtain ⟨-, -, -, -, -, ⟨ℓ', -, hj'⟩, -⟩ := hu
      exact h.fresh ℓ' hj'
    · refine ⟨m, g, ?_, t, j, (h.owns j g).mpr howns, Ne.symm hne, (h.active m).mpr hm,
        (h.active j).mpr hj, ⟨ℓ₁, hℓ₁, (h.member t m ℓ₁).mpr (.inl hmem)⟩,
        ⟨ℓ, (h.member t j ℓ).mpr (.inr ⟨rfl, rfl, rfl⟩)⟩, (h.holds t g).mpr hholds⟩
      rintro ⟨u, hu⟩
      refine hbut ⟨u, ?_, hu⟩
      rintro rfl
      obtain ⟨o, howns', -, -, -, -, ⟨ℓ', hj'⟩, -⟩ := hu
      obtain rfl := s.owner_unique _ _ _ howns' howns
      exact h.fresh ℓ' hj'

end Admits

/-! ## One membership at another level -/

/-- `s'` is `s` with `j`'s membership of `t` at the level `ℓ`. -/
structure Relevels (s s' : Groups Owner Item Group Level) (t : Group) (j : Owner) (ℓ : Level) : Prop where
  active : ∀ p, s'.active p ↔ s.active p
  owns : ∀ p g, s'.owns p g ↔ s.owns p g
  other : ∀ u p ℓ', ¬(u = t ∧ p = j) → (s'.member u p ℓ' ↔ s.member u p ℓ')
  self : ∀ ℓ', s'.member t j ℓ' ↔ (∃ ℓ₀, s.member t j ℓ₀) ∧ ℓ' = ℓ
  holds : ∀ u g, s'.holds u g ↔ s.holds u g

section Relevels

variable {t : Group} {j : Owner} {ℓ : Level}

/-- Who is a member, at whatever level, stays the same. -/
theorem Relevels.member_iff (h : Relevels s s' t j ℓ) (u : Group) (p : Owner) :
    (∃ ℓ', s'.member u p ℓ') ↔ ∃ ℓ', s.member u p ℓ' := by
  by_cases hsame : u = t ∧ p = j
  · obtain ⟨rfl, rfl⟩ := hsame
    constructor
    · rintro ⟨ℓ', hm⟩
      exact ((h.self ℓ').mp hm).1
    · intro hm
      exact ⟨ℓ, (h.self ℓ).mpr ⟨hm, rfl⟩⟩
  · exact exists_congr fun ℓ' => h.other u p ℓ' hsame

/-- **Who gains by a change of level**: the member itself, where the new level grants what the old
one did not. -/
theorem Relevels.gains_iff (h : Relevels s s' t j ℓ) (hj : s.active j)
    (hmem : ∃ ℓ₀, s.member t j ℓ₀) (hold : ∀ ℓ₀, s.member t j ℓ₀ → ¬levels ℓ₀) :
    Gains s s' levels ↔ levels ℓ ∧ ∃ g, s.Inbound t j g ∧ ¬s.RightBut levels t j g := by
  constructor
  · rintro ⟨p, g, hbefore, u, o, howns, hne, hp, ho, ⟨ℓ₁, hℓ₁, hmem₁⟩, hmem₂, hholds⟩
    rw [h.owns] at howns
    rw [h.active] at hp ho
    rw [h.holds] at hholds
    rw [h.member_iff] at hmem₂
    by_cases hsame : u = t ∧ p = j
    · obtain ⟨rfl, rfl⟩ := hsame
      obtain ⟨-, rfl⟩ := (h.self ℓ₁).mp hmem₁
      exact ⟨hℓ₁, g, ⟨o, howns, hne, ho, hmem₂, hholds⟩, fun ⟨v, _, hv⟩ => hbefore ⟨v, hv⟩⟩
    · rw [h.other u p ℓ₁ hsame] at hmem₁
      exact absurd ⟨u, o, howns, hne, hp, ho, ⟨ℓ₁, hℓ₁, hmem₁⟩, hmem₂, hholds⟩ hbefore
  · rintro ⟨hℓ, g, ⟨o, howns, hne, ho, hmem₂, hholds⟩, hbut⟩
    refine ⟨j, g, ?_, t, o, (h.owns o g).mpr howns, hne, (h.active j).mpr hj, (h.active o).mpr ho,
      ⟨ℓ, hℓ, (h.self ℓ).mpr ⟨hmem, rfl⟩⟩, (h.member_iff t o).mpr hmem₂, (h.holds t g).mpr hholds⟩
    rintro ⟨u, hu⟩
    refine hbut ⟨u, ?_, hu⟩
    rintro rfl
    obtain ⟨-, -, -, -, -, ⟨ℓ₀, hℓ₀, hj₀⟩, -⟩ := hu
    exact hold ℓ₀ hj₀ hℓ₀

/-- A level that grants nothing new is no gain. -/
theorem Relevels.no_gain (h : Relevels s s' t j ℓ)
    (hold : levels ℓ → ∃ ℓ₀, levels ℓ₀ ∧ s.member t j ℓ₀) : ¬Gains s s' levels := by
  rintro ⟨p, g, hbefore, u, o, howns, hne, hp, ho, ⟨ℓ₁, hℓ₁, hmem₁⟩, hmem₂, hholds⟩
  rw [h.owns] at howns
  rw [h.active] at hp ho
  rw [h.holds] at hholds
  rw [h.member_iff] at hmem₂
  refine hbefore ⟨u, o, howns, hne, hp, ho, ?_, hmem₂, hholds⟩
  by_cases hsame : u = t ∧ p = j
  · obtain ⟨rfl, rfl⟩ := hsame
    obtain ⟨-, rfl⟩ := (h.self ℓ₁).mp hmem₁
    exact hold hℓ₁
  · exact ⟨ℓ₁, hℓ₁, (h.other u p ℓ₁ hsame).mp hmem₁⟩

end Relevels

/-! ## Quiet groups -/

/-- Seen from the group `t`, nothing has come between `s` and `s'`: what is in it was, and who is a
member was at the same level. -/
structure Quiet (t : Group) (s s' : Groups Owner Item Group Level) : Prop where
  active : ∀ p, s'.active p → s.active p
  holds : ∀ o g, s'.owns o g → s'.holds t g → s.owns o g ∧ s.holds t g
  member : ∀ p ℓ, s'.member t p ℓ → s.member t p ℓ

section Quiet

variable {t : Group} {j m o : Owner} {g : Item}

theorem Quiet.refl (t : Group) (s : Groups Owner Item Group Level) : Quiet t s s :=
  ⟨fun _ h => h, fun _ _ h h' => ⟨h, h'⟩, fun _ _ h => h⟩

theorem Within.quiet (h : s'.Within s) (t : Group) : Quiet t s s' :=
  ⟨h.active, fun o g howns hholds => ⟨h.owns o g howns, h.holds t o g howns hholds⟩, h.member t⟩

theorem Quiet.inbound (h : Quiet t s s') (hg : s'.Inbound t j g) : s.Inbound t j g := by
  obtain ⟨o, howns, hne, ho, ⟨ℓ, hmem⟩, hholds⟩ := hg
  obtain ⟨howns₀, hholds₀⟩ := h.holds o g howns hholds
  exact ⟨o, howns₀, hne, h.active o ho, ⟨ℓ, h.member o ℓ hmem⟩, hholds₀⟩

theorem Quiet.outbound (h : Quiet t s s') (hg : s'.Outbound t j g) : s.Outbound t j g :=
  h.holds j g hg.1 hg.2

theorem Quiet.incumbent (h : Quiet t s s') (hm : s'.Incumbent levels t j m) :
    s.Incumbent levels t j m := by
  obtain ⟨hne, ha, ℓ, hℓ, hmem⟩ := hm
  exact ⟨hne, h.active m ha, ℓ, hℓ, h.member m ℓ hmem⟩

theorem Quiet.seen (h : Quiet t s s') (hs : s'.Seen t o) : s.Seen t o := by
  obtain ⟨ho, ⟨ℓ, hmem⟩, p, hne, hp, ℓ', hmem'⟩ := hs
  exact ⟨h.active o ho, ⟨ℓ, h.member o ℓ hmem⟩, p, hne, h.active p hp, ℓ', h.member p ℓ' hmem'⟩

end Quiet

/-- A change of membership in another group. -/
theorem Admits.quiet {t u : Group} {j : Owner} {ℓ : Level} (h : Admits s s' u j ℓ) (hne : t ≠ u) :
    Quiet t s s' where
  active p hp := (h.active p).mp hp
  holds o g howns hholds := ⟨(h.owns o g).mp howns, (h.holds t g).mp hholds⟩
  member p ℓ' hm := ((h.member t p ℓ').mp hm).resolve_right fun hsame => hne hsame.1

theorem Relevels.quiet {t u : Group} {j : Owner} {ℓ : Level} (h : Relevels s s' u j ℓ) (hne : t ≠ u) :
    Quiet t s s' where
  active p hp := (h.active p).mp hp
  holds o g howns hholds := ⟨(h.owns o g).mp howns, (h.holds t g).mp hholds⟩
  member p ℓ' hm := (h.other t p ℓ' fun hsame => hne hsame.1).mp hm

/-- `s'` is `s` with items of `o` put into the groups `ts`. -/
structure Publishes (s s' : Groups Owner Item Group Level) (o : Owner) (ts : Group → Prop) : Prop where
  active : ∀ p, s'.active p → s.active p
  member : ∀ t p ℓ, s'.member t p ℓ → s.member t p ℓ
  holds : ∀ t p g, s'.owns p g → s'.holds t g → s.owns p g ∧ s.holds t g ∨ p = o ∧ ts t

theorem Within.publishes (h : s'.Within s) (o : Owner) (ts : Group → Prop) : Publishes s s' o ts :=
  ⟨h.active, h.member, fun t p g howns hholds => .inl ⟨h.owns p g howns, h.holds t p g howns hholds⟩⟩

theorem Publishes.quiet {t : Group} {o : Owner} {ts : Group → Prop} (h : Publishes s s' o ts)
    (ht : ¬ts t) : Quiet t s s' where
  active := h.active
  holds p g howns hholds := (h.holds t p g howns hholds).resolve_right fun hnew => ht hnew.2
  member := h.member t

/-- **Nobody gains by a publication that nobody sees.** -/
theorem Publishes.no_gain {o : Owner} {ts : Group → Prop} (h : Publishes s s' o ts)
    (hunseen : ∀ t, ts t → ¬s.Seen t o) : ¬Gains s s' levels := by
  refine no_gain_of_unseen h.active h.member fun t p g howns hholds => ?_
  rcases h.holds t p g howns hholds with hold | ⟨rfl, ht⟩
  · exact .inl hold
  · refine .inr fun hseen => hunseen t ht ?_
    obtain ⟨ho, ⟨ℓ, hmem⟩, q, hne, hq, ℓ', hmem'⟩ := hseen
    exact ⟨h.active p ho, ⟨ℓ, h.member t p ℓ hmem⟩, q, hne, h.active q hq, ℓ', h.member t q ℓ' hmem'⟩

end Groups

end Sharing
