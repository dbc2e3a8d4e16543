import Mathlib.Data.List.Infix
import Mathlib.Algebra.BigOperators.Group.List.Basic
import Mathlib.Algebra.GroupWithZero.Nat

/-!
# `Lib.Matching` — finding and replacing a text in a text

Searching and replacing over an arbitrary alphabet, and codes that write a letter as several units. In a
synchronized code the first unit of a letter tells itself apart from the others, so an occurrence of an
encoded pattern in an encoded text stands where the pattern stands in the text.
-/

namespace Matching

variable {α β : Type}

/-! ## Synchronized codes -/

/-- Each letter begins with its only first unit, and no letter is the beginning of another. -/
structure Synchronized (enc : α → List β) (first : β → Prop) : Prop where
  starts : ∀ a, ∃ b bs, enc a = b :: bs ∧ first b ∧ ∀ c ∈ bs, ¬ first c
  prefixFree : ∀ a a', enc a <+: enc a' → a = a'

namespace Synchronized

variable {enc : α → List β} {first : β → Prop}

theorem ne_nil (h : Synchronized enc first) (a : α) : enc a ≠ [] := by
  obtain ⟨b, bs, hb, -, -⟩ := h.starts a
  simp [hb]

/-- An encoded pattern in front of an encoded text is the pattern in front of the text. -/
theorem front (h : Synchronized enc first) {p text : List α} {rest : List β}
    (heq : text.flatMap enc = p.flatMap enc ++ rest) : ∃ v, text = p ++ v ∧ v.flatMap enc = rest := by
  induction p generalizing text with
  | nil => exact ⟨text, rfl, by simpa using heq⟩
  | cons q p ih =>
      cases text with
      | nil =>
          have hq := h.ne_nil q
          simp [hq] at heq
      | cons a text =>
          rw [List.flatMap_cons, List.flatMap_cons, List.append_assoc] at heq
          -- one of the two first letters begins the other
          have haq : a = q := by
            rcases List.append_eq_append_iff.mp heq with ⟨_, hq, -⟩ | ⟨_, ha, -⟩
            · exact h.prefixFree a q ⟨_, hq.symm⟩
            · exact (h.prefixFree q a ⟨_, ha.symm⟩).symm
          subst haq
          obtain ⟨v, rfl, hv⟩ := ih (List.append_cancel_left heq)
          exact ⟨v, rfl, hv⟩

/-- A first unit in an encoded text begins a letter of the text. -/
theorem boundary (h : Synchronized enc first) {text : List α} {a rest : List β} {b : β} (hb : first b)
    (heq : text.flatMap enc = a ++ b :: rest) :
    ∃ u v, text = u ++ v ∧ u.flatMap enc = a ∧ v.flatMap enc = b :: rest := by
  induction text generalizing a with
  | nil => simp at heq
  | cons c text ih =>
      have hsplit := heq
      rw [List.flatMap_cons] at hsplit
      rcases List.append_eq_append_iff.mp hsplit with ⟨a', ha, htext⟩ | ⟨c', hc, hrest⟩
      · obtain ⟨u, v, rfl, hu, hv⟩ := ih htext
        exact ⟨c :: u, v, rfl, by rw [List.flatMap_cons, hu, ha], hv⟩
      · cases a with
        | nil => exact ⟨[], c :: text, rfl, rfl, heq⟩
        | cons x a =>
            cases c' with
            | nil => exact ⟨[c], text, rfl, by simpa using hc, by simpa using hrest.symm⟩
            | cons y c' =>
                -- the unit would stand inside the letter `c`
                obtain ⟨z, bs, hz, -, hbs⟩ := h.starts c
                have hby : b = y := by simpa using (List.cons.inj hrest).1
                have hmem : b ∈ bs := by
                  have htail : bs = a ++ y :: c' := (List.cons.inj (hz.symm.trans hc)).2
                  simp [htail, hby]
                exact absurd hb (hbs b hmem)

/-- **An occurrence among the units is an occurrence among the letters.** -/
theorem occurrence (h : Synchronized enc first) {text p : List α} {a rest : List β} (hp : p ≠ [])
    (heq : text.flatMap enc = a ++ (p.flatMap enc ++ rest)) :
    ∃ u v, text = u ++ (p ++ v) ∧ u.flatMap enc = a ∧ v.flatMap enc = rest := by
  obtain ⟨q, p', rfl⟩ := List.exists_cons_of_ne_nil hp
  obtain ⟨b, bs, hq, hb, -⟩ := h.starts q
  have hfront : (q :: p').flatMap enc ++ rest = b :: (bs ++ p'.flatMap enc ++ rest) := by
    simp [hq]
  rw [hfront] at heq
  obtain ⟨u, w, rfl, hu, hw⟩ := h.boundary hb heq
  rw [← hfront] at hw
  obtain ⟨v, rfl, hv⟩ := h.front hw
  exact ⟨u, v, rfl, hu, hv⟩

end Synchronized

/-! ## The first match -/

variable [DecidableEq α]

/-- The weight of what stands before the first match. -/
def findBy (w : α → Nat) (needle : List α) : List α → Option Nat
  | [] => if needle = [] then some 0 else none
  | c :: text => if needle <+: c :: text then some 0 else (findBy w needle text).map (w c + ·)

/-- No match stands further left. -/
def Leftmost (needle text u : List α) : Prop :=
  ∀ u' v', text = u' ++ (needle ++ v') → u.length ≤ u'.length

omit [DecidableEq α] in
theorem match_of_tail {needle text : List α} {c : α} (hfront : ¬ needle <+: c :: text)
    (h : needle <:+: c :: text) : needle <:+: text :=
  (List.infix_cons_iff.mp h).resolve_left hfront

theorem findBy_eq_none {w : α → Nat} {needle text : List α} (h : findBy w needle text = none) :
    ¬ needle <:+: text := by
  induction text with
  | nil =>
      intro hmatch
      rw [findBy, if_pos (List.eq_nil_of_infix_nil hmatch)] at h
      cases h
  | cons c text ih =>
      intro hmatch
      rw [findBy] at h
      split at h
      · cases h
      · next hfront => exact ih (Option.map_eq_none_iff.mp h) (match_of_tail hfront hmatch)

theorem findBy_eq_some {w : α → Nat} {needle text : List α} {n : Nat} (h : findBy w needle text = some n) :
    ∃ u v, text = u ++ (needle ++ v) ∧ (u.map w).sum = n ∧ Leftmost needle text u := by
  induction text generalizing n with
  | nil =>
      rw [findBy] at h
      split at h
      · next hnil =>
          subst hnil
          exact ⟨[], [], rfl, by simpa using h, fun _ _ _ => Nat.zero_le _⟩
      · cases h
  | cons c text ih =>
      rw [findBy] at h
      split at h
      · next hfront =>
          obtain ⟨v, hv⟩ := hfront
          exact ⟨[], v, hv.symm, by simpa using h, fun _ _ _ => Nat.zero_le _⟩
      · next hfront =>
          obtain ⟨m, hm, rfl⟩ := Option.map_eq_some_iff.mp h
          obtain ⟨u, v, rfl, rfl, hleft⟩ := ih hm
          refine ⟨c :: u, v, rfl, by simp, fun u' v' heq => ?_⟩
          cases u' with
          | nil => exact absurd ⟨v', heq.symm⟩ hfront
          | cons c' u' =>
              have htail := (List.cons.inj heq).2
              have hle := hleft u' v' htail
              simp only [List.length_cons]
              omega

theorem findBy_isSome {w : α → Nat} {needle text : List α} :
    (findBy w needle text).isSome = true ↔ needle <:+: text := by
  constructor
  · intro h
    obtain ⟨n, hn⟩ := Option.isSome_iff_exists.mp h
    obtain ⟨u, v, htext, -, -⟩ := findBy_eq_some hn
    exact ⟨u, v, by rw [htext, List.append_assoc]⟩
  · intro h
    by_contra hnone
    exact findBy_eq_none (Option.not_isSome_iff_eq_none.mp hnone) h

/-! ## Replacing every match -/

/-- Every match replaced, from left to right and without overlap; the empty text matches before each letter
and at the end. -/
inductive ReplacedAll (old new : List α) : List α → List α → Prop where
  | done {t : List α} (hold : old ≠ []) (habsent : ¬ old <:+: t) : ReplacedAll old new t t
  | next {u v v' : List α} (hold : old ≠ []) (hleft : Leftmost old (u ++ (old ++ v)) u)
      (hrest : ReplacedAll old new v v') : ReplacedAll old new (u ++ (old ++ v)) (u ++ (new ++ v'))
  | between {t : List α} (hold : old = []) : ReplacedAll old new t (new ++ t.flatMap fun c => c :: new)

/-- The replacing loop; the first argument counts the letters of a match already replaced. -/
def replaceAll (old new : List α) : Nat → List α → List α
  | _, [] => if old = [] then new else []
  | skip + 1, _ :: text => replaceAll old new skip text
  | 0, c :: text =>
      if old = [] then new ++ c :: replaceAll old new 0 text
      else if old <+: c :: text then new ++ replaceAll old new (old.length - 1) text
      else c :: replaceAll old new 0 text

theorem replaceAll_empty (new t : List α) :
    replaceAll [] new 0 t = new ++ t.flatMap fun c => c :: new := by
  induction t with
  | nil => simp [replaceAll]
  | cons c t ih => simp [replaceAll, ih]

theorem replaceAll_absent {old new t : List α} (hold : old ≠ []) (h : ¬ old <:+: t) :
    replaceAll old new 0 t = t := by
  induction t with
  | nil => simp [replaceAll, hold]
  | cons c t ih =>
      have hfront : ¬ old <+: c :: t := fun hp => h hp.isInfix
      have htail : ¬ old <:+: t := fun hi => h (List.infix_cons hi)
      simp [replaceAll, hold, hfront, ih htail]

theorem replaceAll_skip (old new x v : List α) :
    replaceAll old new x.length (x ++ v) = replaceAll old new 0 v := by
  induction x with
  | nil => rfl
  | cons c x ih => simpa [replaceAll] using ih

theorem replaceAll_next {old new u v : List α} (hold : old ≠ [])
    (hleft : Leftmost old (u ++ (old ++ v)) u) :
    replaceAll old new 0 (u ++ (old ++ v)) = u ++ (new ++ replaceAll old new 0 v) := by
  induction u with
  | nil =>
      obtain ⟨o, os, rfl⟩ := List.exists_cons_of_ne_nil hold
      have hskip := replaceAll_skip (o :: os) new os v
      simp only [List.nil_append, List.cons_append, replaceAll, List.length_cons, Nat.add_sub_cancel, hskip]
      rw [if_neg (List.cons_ne_nil o os), if_pos ⟨v, rfl⟩]
  | cons c u ih =>
      have hfront : ¬ old <+: c :: (u ++ (old ++ v)) := by
        rintro ⟨rest, hrest⟩
        have hle := hleft [] rest hrest.symm
        simp at hle
      have htail : Leftmost old (u ++ (old ++ v)) u := by
        intro u' v' heq
        have hle := hleft (c :: u') v' (by rw [List.cons_append, heq, List.cons_append])
        simpa using hle
      simp only [List.cons_append, replaceAll]
      rw [if_neg hold, if_neg hfront, ih htail]

/-- **The loop replaces every match.** -/
theorem replacedAll_iff {old new t r : List α} :
    ReplacedAll old new t r ↔ r = replaceAll old new 0 t := by
  constructor
  · intro h
    induction h with
    | done hold habsent => exact (replaceAll_absent hold habsent).symm
    | next hold hleft _ ih => rw [replaceAll_next hold hleft, ← ih]
    | between hold => rw [hold, replaceAll_empty]
  · rintro rfl
    by_cases hold : old = []
    · rw [hold, replaceAll_empty]
      exact .between rfl
    · -- the text behind a match is shorter
      induction hn : t.length using Nat.strong_induction_on generalizing t with
      | _ n ih =>
        cases hfind : findBy (fun _ => 1) old t with
        | none =>
            have habsent := findBy_eq_none hfind
            rw [replaceAll_absent hold habsent]
            exact .done hold habsent
        | some k =>
            obtain ⟨u, v, rfl, -, hleft⟩ := findBy_eq_some hfind
            rw [replaceAll_next hold hleft]
            have hpos := List.length_pos_iff.mpr hold
            have hshort : v.length < n := by
              rw [← hn]
              simp only [List.length_append]
              omega
            exact .next hold hleft (ih v.length hshort rfl)

end Matching
