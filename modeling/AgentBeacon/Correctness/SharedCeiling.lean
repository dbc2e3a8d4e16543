import AgentBeacon.Api.PayloadBudget
import AgentBeacon.Lib.Capping

/-!
# `Correctness.SharedCeiling` — how good the shared ceiling is

`shared_ceiling` walks up the lengths. At each it shares what is left evenly among the lengths that remain, and stops
if the share is not longer than the next of them. Where it is just as long, the walk stops too early: that length is
kept whole, and the remainder of the division may still hold a byte for each longer one.
-/

namespace AgentBeacon.PayloadBudget
open Capping

/-! ## The walk over the lengths -/

/-- What is allowed holds one byte more than a length for each length that reaches it: the walk goes past it. -/
def Passed (allowed : Nat) (lens : List Nat) (len : Nat) : Prop := capped len lens + reaching len lens ≤ allowed

/-- How the walk ends: it has passed what is below the ceiling, and if anything is cut, then what is allowed does not
hold a byte more for each length that reaches the ceiling. -/
structure Ends (allowed : Nat) (lens : List Nat) (c : Nat) : Prop where
  passed : ∀ len ∈ lens, len < c → Passed allowed lens len
  within : capped c lens ≤ allowed
  share : (∃ len ∈ lens, c < len) → allowed < capped c lens + reaching c lens

/-- Where the walk is: the lengths before are passed, and the share of the others is longer than they are. -/
structure Walking (allowed : Nat) (before rest : List Nat) : Prop where
  sorted : (before ++ rest).Pairwise (· ≤ ·)
  below : before.sum ≤ allowed
  shares : ∀ len ∈ before, before.sum + rest.length * (len + 1) ≤ allowed
  passed : ∀ len ∈ before, Passed allowed (before ++ rest) len

namespace Walking

variable {allowed len : Nat} {before rest : List Nat}

theorem before_le (h : Walking allowed before (len :: rest)) : ∀ l ∈ before, l ≤ len :=
  fun l hl => (List.pairwise_append.mp h.sorted).2.2 l hl len List.mem_cons_self

theorem le_rest (h : Walking allowed before (len :: rest)) : ∀ l ∈ len :: rest, len ≤ l := by
  intro l hl
  obtain rfl | hrest := List.mem_cons.mp hl
  · exact Nat.le_refl _
  · exact (List.pairwise_cons.mp (List.pairwise_append.mp h.sorted).2.1).1 l hrest

/-- **The walk stops** at a share that is not longer than the next length. -/
theorem stops (h : Walking allowed before (len :: rest)) (hstop : (allowed - before.sum) / (rest.length + 1) ≤ len) :
    Ends allowed (before ++ len :: rest) ((allowed - before.sum) / (rest.length + 1)) := by
  have hbelow := h.below
  have hlow : ∀ l ∈ before, l < (allowed - before.sum) / (rest.length + 1) := by
    intro l hl
    have hshares := h.shares l hl
    rw [List.length_cons] at hshares
    have hmul : (l + 1) * (rest.length + 1) ≤ allowed - before.sum := by
      rw [Nat.mul_comm]
      omega
    exact (Nat.le_div_iff_mul_le (Nat.succ_pos _)).mpr hmul
  have hhigh : ∀ l ∈ len :: rest, (allowed - before.sum) / (rest.length + 1) ≤ l :=
    fun l hl => hstop.trans (h.le_rest l hl)
  have hcapped := capped_split (fun l hl => (hlow l hl).le) hhigh
  have hreaching := reaching_split hlow hhigh
  have hdiv := Nat.mul_div_le (allowed - before.sum) (rest.length + 1)
  have hnext := Nat.lt_mul_div_succ (allowed - before.sum) (Nat.succ_pos rest.length)
  rw [List.length_cons] at hcapped hreaching
  rw [Nat.succ_eq_add_one, Nat.mul_succ] at hnext
  refine ⟨fun l hl hlt => ?_, ?_, fun _ => ?_⟩
  · obtain hbefore | hrest := List.mem_append.mp hl
    · exact h.passed l hbefore
    · exact absurd (hhigh l hrest) (Nat.not_le_of_lt hlt)
  · omega
  · omega

/-- **The walk goes past** a length that is shorter than the share. -/
theorem goes (h : Walking allowed before (len :: rest)) (hgo : len < (allowed - before.sum) / (rest.length + 1)) :
    Walking allowed (before ++ [len]) rest := by
  have hbelow := h.below
  have hshare : before.sum + (rest.length + 1) * (len + 1) ≤ allowed := by
    have hmul : (len + 1) * (rest.length + 1) ≤ allowed - before.sum :=
      (Nat.le_div_iff_mul_le (Nat.succ_pos _)).mp hgo
    rw [Nat.mul_comm] at hmul
    omega
  have hlist : before ++ [len] ++ rest = before ++ len :: rest := List.append_cons before len rest ▸ rfl
  have hsum : (before ++ [len]).sum = before.sum + len := by simp
  rw [Nat.succ_mul] at hshare
  refine ⟨hlist ▸ h.sorted, ?_, fun l hl => ?_, fun l hl => ?_⟩
  · rw [hsum]
    omega
  · have hle : l ≤ len := by
      obtain hbefore | hsame := List.mem_append.mp hl
      · exact h.before_le l hbefore
      · exact (List.mem_singleton.mp hsame).le
    have hmul : rest.length * (l + 1) ≤ rest.length * (len + 1) := Nat.mul_le_mul_left _ (Nat.succ_le_succ hle)
    rw [hsum]
    omega
  · rw [hlist]
    -- of equal lengths, the first is the one that is compared
    by_cases hbefore : l ∈ before
    · exact h.passed l hbefore
    obtain rfl : l = len := by simpa [hbefore] using hl
    have hlow : ∀ l' ∈ before, l' < l := fun l' hl' =>
      Nat.lt_of_le_of_ne (h.before_le l' hl') fun heq => hbefore (heq ▸ hl')
    unfold Passed
    rw [capped_split (fun l' hl' => (hlow l' hl').le) h.le_rest, reaching_split hlow h.le_rest, List.length_cons,
      Nat.succ_mul]
    rw [Nat.mul_succ] at hshare
    omega

end Walking

/-- **How the loop ends**, by induction on the lengths that are left. -/
theorem ceilingLoop_ends {allowed : Nat} {before rest : List Nat} (last : Nat) (h : Walking allowed before rest)
    (hlast : ∀ len ∈ before, len ≤ last) :
    Ends allowed (before ++ rest) (ceilingLoop allowed rest before.sum last) := by
  induction rest generalizing before last with
  | nil =>
      unfold ceilingLoop
      rw [List.append_nil]
      refine ⟨fun len hlen _ => ?_, (capped_le_sum _ _).trans h.below, fun ⟨len, hlen, hlt⟩ => ?_⟩
      · have hpassed := h.passed len hlen
        rwa [List.append_nil] at hpassed
      · exact absurd (hlast len hlen) (Nat.not_le_of_lt hlt)
  | cons len rest ih =>
      unfold ceilingLoop
      rw [if_neg (Nat.not_lt_of_le h.below)]
      split
      · rename_i hstop
        exact h.stops hstop
      · rename_i hgo
        have hrest := ih len (h.goes (Nat.lt_of_not_le hgo)) fun l hl => ?_
        · rw [List.sum_append, List.sum_singleton, List.append_assoc] at hrest
          exact hrest
        · obtain hbefore | hsame := List.mem_append.mp hl
          · exact h.before_le l hbefore
          · exact (List.mem_singleton.mp hsame).le

/-- **How the shared ceiling comes out.** -/
theorem sharedCeiling_ends (lengths : List (Path × Nat)) (allowed : Nat) :
    Ends allowed (lengths.map Prod.snd).mergeSort (sharedCeiling lengths allowed) := by
  have hsorted : (lengths.map Prod.snd).mergeSort.Pairwise fun a b => decide (a ≤ b) = true :=
    List.pairwise_mergeSort (by simpa using fun _ _ _ => Nat.le_trans) (by simpa using Nat.le_total) _
  have hstart : Walking allowed [] (lengths.map Prod.snd).mergeSort := by
    refine ⟨hsorted.imp of_decide_eq_true, Nat.zero_le allowed, fun _ h => ?_, fun _ h => ?_⟩
    · cases h
    · cases h
  exact ceilingLoop_ends 0 hstart fun _ h => by cases h

/-! ## When it is the best one -/

variable {lengths : List (Path × Nat)} {allowed : Nat}

/-- What a ceiling keeps of the leaves together. -/
def keptAt (lengths : List (Path × Nat)) (c : Nat) : Nat := (lengths.map fun l => min l.2 c).sum

/-- Nothing is cut if nothing needs to be; else it is the largest ceiling that keeps no more than what is allowed. -/
def IsBestCeiling (lengths : List (Path × Nat)) (allowed c : Nat) : Prop :=
  (retained lengths ≤ allowed → ∀ l ∈ lengths, l.2 ≤ c) ∧
    (allowed < retained lengths → IsGreatest {c | keptAt lengths c ≤ allowed} c)

/-- Some leaf is as long as the even share: what is allowed holds one byte more than its length for each longer leaf
(and there is one), but not for each leaf that is at least as long. -/
def SharesALength (lengths : List (Path × Nat)) (allowed : Nat) : Prop :=
  ∃ l ∈ lengths, (∃ longer ∈ lengths, l.2 < longer.2) ∧
    keptAt lengths l.2 + (lengths.countP fun other => l.2 < other.2) ≤ allowed ∧
    allowed < keptAt lengths l.2 + lengths.countP fun other => l.2 ≤ other.2

theorem keptAt_eq (lengths : List (Path × Nat)) (c : Nat) :
    keptAt lengths c = capped c (lengths.map Prod.snd).mergeSort := by
  rw [capped_perm c (List.mergeSort_perm _ _)]
  unfold keptAt capped
  rw [List.map_map]
  rfl

theorem retained_eq (lengths : List (Path × Nat)) : retained lengths = (lengths.map Prod.snd).mergeSort.sum :=
  (List.mergeSort_perm _ _).sum_eq.symm

theorem mem_sorted {len : Nat} : len ∈ (lengths.map Prod.snd).mergeSort ↔ ∃ l ∈ lengths, l.2 = len := by
  rw [List.mem_mergeSort, List.mem_map]

theorem isBestCeiling_iff {c : Nat} : IsBestCeiling lengths allowed c ↔
    ((lengths.map Prod.snd).mergeSort.sum ≤ allowed → ∀ len ∈ (lengths.map Prod.snd).mergeSort, len ≤ c) ∧
      (allowed < (lengths.map Prod.snd).mergeSort.sum →
        IsGreatest {c | capped c (lengths.map Prod.snd).mergeSort ≤ allowed} c) := by
  unfold IsBestCeiling
  simp only [retained_eq, keptAt_eq, mem_sorted, forall_exists_index, and_imp, forall_apply_eq_imp_iff₂]

theorem longer_eq (len : Nat) :
    (lengths.countP fun other => len < other.2) = above len (lengths.map Prod.snd).mergeSort := by
  rw [above_perm len (List.mergeSort_perm _ _), above, List.countP_map]
  rfl

theorem atLeast_eq (len : Nat) :
    (lengths.countP fun other => len ≤ other.2) = reaching len (lengths.map Prod.snd).mergeSort := by
  rw [reaching_perm len (List.mergeSort_perm _ _), reaching, List.countP_map]
  rfl

theorem sharesALength_iff : SharesALength lengths allowed ↔
    ∃ len ∈ (lengths.map Prod.snd).mergeSort, (∃ longer ∈ (lengths.map Prod.snd).mergeSort, len < longer) ∧
      capped len (lengths.map Prod.snd).mergeSort + above len (lengths.map Prod.snd).mergeSort ≤ allowed ∧
        ¬Passed allowed (lengths.map Prod.snd).mergeSort len := by
  unfold SharesALength Passed
  simp only [keptAt_eq, longer_eq, atLeast_eq, List.mem_mergeSort, List.mem_map, exists_exists_and_eq_and, Nat.not_le]

/-- A walk that has ended is at the best ceiling, unless it has stopped at a length of the even share. -/
theorem Ends.best_iff {lens : List Nat} {c : Nat} (h : Ends allowed lens c) :
    ((lens.sum ≤ allowed → ∀ len ∈ lens, len ≤ c) ∧
      (allowed < lens.sum → IsGreatest {c | capped c lens ≤ allowed} c)) ↔
      ¬∃ len ∈ lens, (∃ longer ∈ lens, len < longer) ∧ capped len lens + above len lens ≤ allowed ∧
        ¬Passed allowed lens len := by
  constructor
  · rintro ⟨hwhole, hgreatest⟩ ⟨len, hlen, ⟨longer, hlonger, hlt⟩, hfits, hpassed⟩
    have hle : c ≤ len := Nat.le_of_not_lt fun hbelow => hpassed (h.passed len hlen hbelow)
    rw [← capped_succ] at hfits
    by_cases hsum : lens.sum ≤ allowed
    · have := hwhole hsum longer hlonger
      omega
    · have hnext : c + 1 ≤ c := (hgreatest (Nat.lt_of_not_le hsum)).2
        ((capped_mono (Nat.succ_le_succ hle) lens).trans hfits)
      omega
  · intro hnone
    by_cases hcut : ∃ len ∈ lens, c < len
    · -- something is cut: a byte more for each length above the ceiling is too much
      have hshare := h.share hcut
      have hnext : allowed < capped (c + 1) lens := by
        rw [capped_succ]
        refine Nat.lt_of_not_le fun hfits => ?_
        by_cases hmem : c ∈ lens
        · exact hnone ⟨c, hmem, hcut, hfits, Nat.not_le_of_lt hshare⟩
        · rw [above_of_notMem hmem] at hfits
          omega
      have hsum := capped_le_sum (c + 1) lens
      exact ⟨fun hall => by omega, fun _ => isGreatest_iff.mpr ⟨h.within, hnext⟩⟩
    · have hall : ∀ len ∈ lens, len ≤ c := fun len hlen => Nat.le_of_not_lt fun hlt => hcut ⟨len, hlen, hlt⟩
      have hwithin := h.within
      rw [capped_of_le hall] at hwithin
      exact ⟨fun _ => hall, fun hsum => by omega⟩

/-- **The shared ceiling is the best one exactly if no leaf that is not the longest is as long as the even share**,
with enough left over for a byte for each longer leaf. -/
theorem sharedCeiling_best_iff (lengths : List (Path × Nat)) (allowed : Nat) :
    IsBestCeiling lengths allowed (sharedCeiling lengths allowed) ↔ ¬SharesALength lengths allowed := by
  rw [isBestCeiling_iff, sharesALength_iff]
  exact (sharedCeiling_ends lengths allowed).best_iff

/-- Leaves of a payload: one of 10900 bytes and five of 16384. -/
def sixLeaves : List (Path × Nat) := (10900 :: List.replicate 5 16384).zipIdx.map fun l => ([.index l.2], l.1)

/-- 65405 bytes are 10900 for each of them and 5 more: one more for each longer leaf, that the ceiling gives away. -/
theorem sharedCeiling_not_best :
    ¬∀ (lengths : List (Path × Nat)) (allowed : Nat),
      IsBestCeiling lengths allowed (sharedCeiling lengths allowed) := by
  intro hall
  have hgreatest := (hall sixLeaves 65405).2 (by decide)
  have hnext : 10901 ≤ sharedCeiling sixLeaves 65405 := hgreatest.2 (show keptAt sixLeaves 10901 ≤ 65405 by decide)
  unfold sharedCeiling at hnext
  rw [List.mergeSort_of_pairwise (by decide)] at hnext
  revert hnext
  decide

end AgentBeacon.PayloadBudget
