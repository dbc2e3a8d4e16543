import AgentBeacon.Slugs

/-!
# `Correctness.FreshSlugs` — when a generated slug is new

A slug that an attempt gives is new. The counter behind the attempts is the number of siblings, and nobody looks
whether a sibling has that name; it is new as long as no sibling goes (`named_nodup`).
-/

namespace AgentBeacon
namespace Slugs

variable {existing : List String} {draws : Nat → WordPair}

/-! ## The attempts -/

/-- **How the attempts end**, by induction on those that are left. -/
theorem attemptsFrom_cases (existing : List String) (draws : Nat → WordPair) (number left : Nat) :
    (∃ slug, attemptsFrom existing draws number left = some slug ∧ slug ∉ existing ∧
      ∃ i < left, slug = (draws (number + i)).slug) ∨
    attemptsFrom existing draws number left = none ∧ ∀ i < left, (draws (number + i)).slug ∈ existing := by
  induction left generalizing number with
  | zero => exact .inr ⟨rfl, fun i hi => absurd hi (Nat.not_lt_zero i)⟩
  | succ left ih =>
      unfold attemptsFrom
      by_cases htaken : (draws number).slug ∈ existing
      · rw [if_pos (List.contains_iff_mem.mpr htaken)]
        obtain ⟨slug, hslug, hnew, i, hi, hdrawn⟩ | ⟨hnone, hall⟩ := ih (number + 1)
        · exact .inl ⟨slug, hslug, hnew, i + 1, Nat.succ_lt_succ hi, by rw [hdrawn, Nat.add_right_comm, Nat.add_assoc]⟩
        · refine .inr ⟨hnone, fun i hi => ?_⟩
          cases i with
          | zero => exact htaken
          | succ i =>
              have hbehind := hall i (Nat.lt_of_succ_lt_succ hi)
              rwa [Nat.add_right_comm, Nat.add_assoc] at hbehind
      · rw [if_neg fun h => htaken (List.contains_iff_mem.mp h)]
        exact .inl ⟨_, rfl, htaken, 0, Nat.succ_pos left, rfl⟩

/-- **What a slug is**: a pair of an attempt that no sibling has, or a pair with a counter after all attempts found
a sibling's. -/
theorem generateSlug_cases (existing : List String) (draws : Nat → WordPair) :
    (generateSlug existing draws ∉ existing ∧ ∃ i < maxAttempts, generateSlug existing draws = (draws i).slug ∧
      (draws i).slug ∉ existing) ∨
    (generateSlug existing draws = (draws maxAttempts).counted existing.length ∧
      ∀ i < maxAttempts, (draws i).slug ∈ existing) := by
  unfold generateSlug
  obtain ⟨slug, hslug, hnew, i, hi, hdrawn⟩ | ⟨hnone, hall⟩ := attemptsFrom_cases existing draws 0 maxAttempts
  · rw [hslug]
    rw [Nat.zero_add] at hdrawn
    exact .inl ⟨hnew, i, hi, hdrawn, hdrawn ▸ hnew⟩
  · rw [hnone]
    refine .inr ⟨rfl, fun i hi => ?_⟩
    have htaken := hall i hi
    rwa [Nat.zero_add] at htaken

/-! ## New slugs -/

/-- **A slug is new exactly if an attempt finds a new pair, or the pair behind them is new with its counter**. So a
list is safe from every draw exactly if it has no pair, or no pair with its own length as the counter. -/
theorem generateSlug_fresh_iff (existing : List String) :
    (∀ draws, generateSlug existing draws ∉ existing ↔
      (∃ i < maxAttempts, (draws i).slug ∉ existing) ∨ (draws maxAttempts).counted existing.length ∉ existing) ∧
    ((∀ draws, generateSlug existing draws ∉ existing) ↔
      (∀ p : WordPair, p.slug ∉ existing) ∨ ∀ p : WordPair, p.counted existing.length ∉ existing) := by
  have hfresh : ∀ draws, generateSlug existing draws ∉ existing ↔
      (∃ i < maxAttempts, (draws i).slug ∉ existing) ∨
        (draws maxAttempts).counted existing.length ∉ existing := by
    intro draws
    obtain ⟨hnew, i, hi, -, hpair⟩ | ⟨hslug, hall⟩ := generateSlug_cases existing draws
    · exact iff_of_true hnew (.inl ⟨i, hi, hpair⟩)
    · rw [hslug]
      constructor
      · exact .inr
      · rintro (⟨i, hi, hpair⟩ | hcounted)
        · exact absurd (hall i hi) hpair
        · exact hcounted
  refine ⟨hfresh, fun hall => ?_, fun hsafe draws => (hfresh draws).mpr ?_⟩
  · by_contra hunsafe
    rw [not_or] at hunsafe
    obtain ⟨⟨p, hp⟩, ⟨q, hq⟩⟩ := hunsafe.imp not_forall.mp not_forall.mp
    -- every attempt draws the pair that is taken
    have hfails := (hfresh fun i => if i < maxAttempts then p else q).mp (hall _)
    obtain ⟨i, hi, hpair⟩ | hcounted := hfails
    · rw [if_pos hi] at hpair
      exact hp hpair
    · rw [if_neg (Nat.lt_irrefl _)] at hcounted
      exact hq hcounted
  · exact hsafe.imp (fun hpairs => ⟨0, by decide, hpairs _⟩) fun hcounted => hcounted _

/-- Two siblings, of which one is named with the number of both. -/
theorem generateSlug_taken : ¬∀ (existing : List String) (draws : Nat → WordPair),
    generateSlug existing draws ∉ existing := by
  intro hall
  exact hall ["bold-arch", "bold-arch-2"] (fun _ => ⟨⟨0, by decide⟩, ⟨0, by decide⟩⟩) (by decide)

/-! ## Names that are never taken back -/

/-- The text behind the last dash. -/
def lastWord (s : String) : List Char := (s.toList.reverse.takeWhile (· ≠ '-')).reverse

theorem lastWord_append (s t : String) (h : '-' ∉ t.toList) : lastWord (s ++ "-" ++ t) = t.toList := by
  have hall : ∀ c ∈ t.toList.reverse, decide (c ≠ '-') = true := fun c hc =>
    decide_eq_true fun heq => h (heq ▸ List.mem_reverse.mp hc)
  unfold lastWord
  rw [String.toList_append, String.toList_append, List.reverse_append, List.takeWhile_append_of_pos hall]
  simp

theorem lastWord_slug (p : WordPair) : lastWord p.slug = (nouns.get p.noun).toList := by
  have hplain : ∀ noun ∈ nouns, '-' ∉ noun.toList := by decide
  exact lastWord_append _ _ (hplain _ (List.get_mem _ _))

theorem lastWord_counted (p : WordPair) (n : Nat) : lastWord (p.counted n) = Nat.toDigits 10 n := by
  have hdigits : (toString n).toList = Nat.toDigits 10 n := Nat.toList_repr
  unfold WordPair.counted
  rw [lastWord_append, hdigits]
  rw [hdigits]
  intro hmem
  exact absurd (Nat.isDigit_of_mem_toDigits (by decide) (by decide) hmem) (by decide)

/-- A counter is read off a slug. -/
theorem counted_inj {p q : WordPair} {n m : Nat} (h : p.counted n = q.counted m) : n = m := by
  have hdigits : Nat.toDigits 10 n = Nat.toDigits 10 m := by
    rw [← lastWord_counted p n, h, lastWord_counted]
  rw [← Nat.ofDigitChars_ten_toDigits (n := n), hdigits, Nat.ofDigitChars_ten_toDigits]

/-- No pair is a pair with a counter. -/
theorem counted_ne_slug (p q : WordPair) (n : Nat) : p.counted n ≠ q.slug := by
  intro h
  have hword : Nat.toDigits 10 n = (nouns.get q.noun).toList := by
    rw [← lastWord_counted p n, h, lastWord_slug]
  have hletters : ∀ noun ∈ nouns, (noun.toList.all fun c => !c.isDigit) = true := by decide
  obtain ⟨c, hc⟩ := List.exists_mem_of_ne_nil _ (Nat.toDigits_ne_nil (n := n) (b := 10))
  have hdigit := Nat.isDigit_of_mem_toDigits (by decide) (by decide) hc
  have hletter := List.all_eq_true.mp (hletters _ (List.get_mem _ _)) c (hword ▸ hc)
  rw [hdigit] at hletter
  cases hletter

/-- The slugs of siblings that were named one after another. -/
def named (draws : Nat → Nat → WordPair) : Nat → List String
  | 0 => []
  | n + 1 => named draws n ++ [generateSlug (named draws n) (draws n)]

/-- Slugs that the next counter is not among: pairs, and pairs with a counter below their number. -/
def Below (existing : List String) : Prop :=
  ∀ slug ∈ existing, ∃ p : WordPair, slug = p.slug ∨ ∃ n < existing.length, slug = p.counted n

theorem Below.counted_notMem (h : Below existing) (p : WordPair) : p.counted existing.length ∉ existing := by
  intro hmem
  obtain ⟨q, hpair | ⟨n, hn, hcounted⟩⟩ := h _ hmem
  · exact counted_ne_slug p q _ hpair
  · exact absurd (counted_inj hcounted).symm (Nat.ne_of_lt hn)

/-- One more sibling. -/
theorem Below.named (h : Below existing) (draws : Nat → WordPair) :
    Below (existing ++ [generateSlug existing draws]) := by
  intro slug hslug
  rw [List.length_append, List.length_singleton]
  obtain hold | hnew := List.mem_append.mp hslug
  · obtain ⟨p, hpair | ⟨n, hn, hcounted⟩⟩ := h slug hold
    · exact ⟨p, .inl hpair⟩
    · exact ⟨p, .inr ⟨n, Nat.lt_succ_of_lt hn, hcounted⟩⟩
  · rw [List.mem_singleton.mp hnew]
    obtain ⟨-, i, -, hpair, -⟩ | ⟨hcounted, -⟩ := generateSlug_cases existing draws
    · exact ⟨draws i, .inl hpair⟩
    · exact ⟨draws maxAttempts, .inr ⟨existing.length, Nat.lt_succ_self _, hcounted⟩⟩

theorem Below.fresh (h : Below existing) (draws : Nat → WordPair) : generateSlug existing draws ∉ existing := by
  obtain ⟨hnew, -⟩ | ⟨hcounted, -⟩ := generateSlug_cases existing draws
  · exact hnew
  · rw [hcounted]
    exact h.counted_notMem _

/-- **Siblings that stay have different names**, whatever is drawn. -/
theorem named_nodup (draws : Nat → Nat → WordPair) (n : Nat) : (named draws n).Nodup := by
  have hall : Below (named draws n) ∧ (named draws n).Nodup := by
    induction n with
    | zero => exact ⟨fun _ h => (nomatch h), List.nodup_nil⟩
    | succ n ih =>
        obtain ⟨hbelow, hnodup⟩ := ih
        refine ⟨hbelow.named (draws n), ?_⟩
        unfold named
        refine List.nodup_append.mpr ⟨hnodup, List.pairwise_singleton _ _, fun slug hslug new hnew heq => ?_⟩
        rw [heq, List.mem_singleton.mp hnew] at hslug
        exact hbelow.fresh (draws n) hslug
  exact hall.2

end Slugs
end AgentBeacon
