import AgentBeacon.Api.Leaves
import Mathlib.Algebra.Order.BigOperators.Group.List
import Mathlib.Algebra.Order.Group.Nat

/-!
# `Correctness.Truncation` — what shortening a payload preserves

Every loop of `apply` replaces strings, of paths it knows, by prefixes of them. One pass at the shared ceiling
brings the payload within the budget or leaves nothing to shorten: the ceiling is computed for the bytes of the
strings, and a byte that is cut shortens the serialization by one byte at least.
-/

namespace AgentBeacon.PayloadBudget
open Json Resolution

/-! ## Cutting a string -/

theorem cutChars_prefix (target : Nat) (cs : List Char) : cutChars target cs <+: cs := by
  induction cs generalizing target with
  | nil => exact List.prefix_rfl
  | cons c cs ih =>
      unfold cutChars
      split
      · exact List.prefix_cons_inj c |>.mpr (ih _)
      · exact List.nil_prefix

theorem utf8Length_cutChars_le (target : Nat) (cs : List Char) : utf8Length (cutChars target cs) ≤ target := by
  induction cs generalizing target with
  | nil => exact Nat.zero_le target
  | cons c cs ih =>
      unfold cutChars
      split
      · have hrest := ih (target - c.utf8Size)
        rw [utf8Length_cons]
        omega
      · exact Nat.zero_le target

theorem utf8Length_toList (s : String) : utf8Length s.toList = s.utf8ByteSize := by
  rw [← utf8ByteSize_ofList, String.ofList_toList]

/-- **What is cut is a prefix**, ending on a character boundary. -/
theorem cut_initial (s : String) (target : Nat) : (cut s target).toList <+: s.toList := by
  unfold cut
  split
  · exact List.prefix_rfl
  · rw [String.toList_ofList]
    exact cutChars_prefix target s.toList

theorem utf8ByteSize_cut_le (s : String) (target : Nat) : (cut s target).utf8ByteSize ≤ target := by
  unfold cut
  split
  · assumption
  · rw [utf8ByteSize_ofList]
    exact utf8Length_cutChars_le target s.toList

theorem cut_of_le {s : String} {target : Nat} (h : s.utf8ByteSize ≤ target) : cut s target = s := if_pos h

theorem eq_empty_of_utf8ByteSize {s : String} (h : s.utf8ByteSize = 0) : s = "" :=
  String.utf8ByteSize_eq_zero_iff.mp h

theorem cut_zero (s : String) : cut s 0 = "" :=
  eq_empty_of_utf8ByteSize (Nat.le_zero.mp (utf8ByteSize_cut_le s 0))

/-! ## A byte that is cut is a byte of the serialization -/

theorem utf8Size_le_charEscapedWidth (c : Char) : c.utf8Size ≤ charEscapedWidth c := by
  unfold charEscapedWidth
  split
  · rename_i hmem
    simp only [List.mem_cons, List.not_mem_nil, or_false] at hmem
    rcases hmem with rfl | rfl | rfl | rfl | rfl | rfl | rfl <;> decide
  · have hmax := c.utf8Size_le_four
    split
    · omega
    · exact Nat.le_refl _

/-- **A prefix saves at least as many bytes in the serialization as in the string.** -/
theorem escapedLen_prefix {s t : String} (h : s.toList <+: t.toList) :
    escapedLen s + t.utf8ByteSize ≤ escapedLen t + s.utf8ByteSize := by
  obtain ⟨rest, hrest⟩ := h
  have hwider : ∀ cs : List Char, utf8Length cs ≤ (cs.map charEscapedWidth).sum := by
    intro cs
    induction cs with
    | nil => exact Nat.le_refl 0
    | cons c cs ih =>
        have hc := utf8Size_le_charEscapedWidth c
        rw [utf8Length_cons, List.map_cons, List.sum_cons]
        omega
  have hcut := hwider rest
  have hescaped : escapedLen t = escapedLen s + (rest.map charEscapedWidth).sum := by
    unfold escapedLen
    rw [← hrest, List.map_append, List.sum_append]
  have hbytes : t.utf8ByteSize = s.utf8ByteSize + utf8Length rest := by
    rw [← utf8Length_toList t, ← hrest, utf8Length_append, utf8Length_toList]
  omega

theorem utf8ByteSize_le_of_initial {s t : String} (h : s.toList <+: t.toList) : s.utf8ByteSize ≤ t.utf8ByteSize := by
  obtain ⟨rest, hrest⟩ := h
  rw [← utf8Length_toList t, ← hrest, utf8Length_append, utf8Length_toList]
  exact Nat.le_add_right _ _

/-- What the strings of a list take, after one of them is replaced. -/
theorem escapedTotal_writing {ls : List (Path × String)} {path : Path} {t : String} (s : String)
    (hnodup : (ls.map Prod.fst).Nodup) (ht : (path, t) ∈ ls) :
    escapedTotal (ls.map fun l => (l.1, writing path s l.1 l.2)) + escapedLen t =
      escapedTotal ls + escapedLen s := by
  induction ls with
  | nil => simp at ht
  | cons l ls ih =>
      rw [List.map_cons, List.nodup_cons] at hnodup
      rcases List.mem_cons.mp ht with rfl | htail
      · have hrest : (ls.map fun l => (l.1, writing path s l.1 l.2)) = ls := by
          conv_rhs => rw [← List.map_id ls]
          refine List.map_congr_left fun l hl => ?_
          have hne : l.1 ≠ path := by
            intro heq
            exact hnodup.1 (List.mem_map.mpr ⟨l, hl, heq⟩)
          simp [writing, hne]
        simp only [List.map_cons, hrest]
        simp [escapedTotal, writing]
        omega
      · have hne : l.1 ≠ path := by
          intro heq
          exact hnodup.1 (heq ▸ List.mem_map.mpr ⟨(path, t), htail, rfl⟩)
        have hls := ih hnodup.2 htail
        simp only [escapedTotal, List.map_cons, List.sum_cons, writing, if_neg hne] at hls ⊢
        omega

/-- **Replacing one string by a prefix saves in the serialization what it saves in the string.** -/
theorem serializedLength_writing {v : Json} {path : Path} {s t : String} (hkeyed : Keyed v)
    (ht : (path, t) ∈ leaves v) (h : s.toList <+: t.toList) :
    (mapLeaves v (writing path s)).serializedLength + t.utf8ByteSize ≤ v.serializedLength + s.utf8ByteSize := by
  have htotal := serializedLength_mapLeaves v (writing path s)
  have hwritten := escapedTotal_writing s (nodup_leaves v hkeyed) ht
  have hinitial := escapedLen_prefix h
  rw [leaves_mapLeaves] at htotal
  omega

/-- **Shorter strings make a shorter serialization.** -/
theorem serializedLength_mono {v : Json} {f g : Path → String → String}
    (h : ∀ l ∈ leaves v, (f l.1 l.2).toList <+: (g l.1 l.2).toList) :
    (mapLeaves v f).serializedLength ≤ (mapLeaves v g).serializedLength := by
  have hf := serializedLength_mapLeaves v f
  have hg := serializedLength_mapLeaves v g
  have hsum : escapedTotal (leaves (mapLeaves v f)) ≤ escapedTotal (leaves (mapLeaves v g)) := by
    rw [leaves_mapLeaves, leaves_mapLeaves]
    simp only [escapedTotal, List.map_map]
    refine List.sum_le_sum fun l hl => ?_
    have hbytes := utf8ByteSize_le_of_initial (h l hl)
    have hescaped := escapedLen_prefix (h l hl)
    simp only [Function.comp]
    omega
  omega

/-! ## The shared ceiling -/

theorem sum_min_le (c : Nat) (lens : List Nat) : (lens.map (min · c)).sum ≤ lens.length * c := by
  induction lens with
  | nil => simp
  | cons len lens ih =>
      have hmin : min len c ≤ c := Nat.min_le_right len c
      rw [List.map_cons, List.sum_cons, List.length_cons, Nat.succ_mul]
      omega

/-- **The lengths at the ceiling stay within what is allowed**, if not all of them are. -/
theorem ceilingLoop_spec {allowed below : Nat} (last : Nat) (lens : List Nat) (hbelow : below ≤ allowed)
    (h : allowed < below + lens.sum) :
    below + (lens.map (min · (ceilingLoop allowed lens below last))).sum ≤ allowed := by
  induction lens generalizing below last with
  | nil =>
      rw [List.sum_nil] at h
      omega
  | cons len rest ih =>
      have hdiv := Nat.mul_div_le (allowed - below) (rest.length + 1)
      unfold ceilingLoop
      rw [if_neg (by omega)]
      split
      · have hshare := sum_min_le ((allowed - below) / (rest.length + 1)) (len :: rest)
        rw [List.length_cons] at hshare
        omega
      · -- the ceiling is above this length, which is retained whole
        rename_i hceiling
        have hone : (allowed - below) / (rest.length + 1) ≤
            (rest.length + 1) * ((allowed - below) / (rest.length + 1)) :=
          Nat.le_mul_of_pos_left _ (Nat.succ_pos _)
        have hnext : allowed < below + len + rest.sum := by
          rw [List.sum_cons] at h
          omega
        have hrest := ih len (by omega) hnext
        have hmin := Nat.min_le_left len (ceilingLoop allowed rest (below + len) len)
        rw [List.map_cons, List.sum_cons]
        omega

theorem sharedCeiling_spec {lengths : List (Path × Nat)} {allowed : Nat} (h : allowed < retained lengths) :
    (lengths.map fun l => min l.2 (sharedCeiling lengths allowed)).sum ≤ allowed := by
  have hperm := List.mergeSort_perm (lengths.map Prod.snd) (· ≤ ·)
  have hsorted := ceilingLoop_spec 0 (lengths.map Prod.snd).mergeSort (Nat.zero_le allowed)
    (by rw [hperm.sum_eq]; simpa [retained] using h)
  rw [Nat.zero_add, (hperm.map _).sum_eq, List.map_map] at hsorted
  exact hsorted

theorem sharedCeiling_zero (lengths : List (Path × Nat)) : sharedCeiling lengths 0 = 0 := by
  unfold sharedCeiling
  cases (lengths.map Prod.snd).mergeSort with
  | nil => rfl
  | cons len rest => simp [ceilingLoop]

/-! ## The loops replace strings -/

/-- Replace the strings of some paths. -/
def replacing (paths : List Path) (r : String → String) (p : Path) (s : String) : String :=
  if p ∈ paths then r s else s

/-- The lengths a loop works on are those of strings of the payload, each once. -/
structure Accurate (lengths : List (Path × Nat)) (v : Json) : Prop where
  keyed : Keyed v
  nodup : (lengths.map Prod.fst).Nodup
  found : ∀ l ∈ lengths, ∃ t, (l.1, t) ∈ leaves v ∧ t.utf8ByteSize = l.2

theorem Accurate.tail {l : Path × Nat} {lengths : List (Path × Nat)} {v : Json} (h : Accurate (l :: lengths) v) :
    Accurate lengths v where
  keyed := h.keyed
  nodup := (List.nodup_cons.mp h.nodup).2
  found := fun m hm => h.found m (List.mem_cons_of_mem _ hm)

/-- Two strings at one path are one string. -/
theorem leaf_unique {v : Json} (hkeyed : Keyed v) {p : Path} {s t : String} (hs : (p, s) ∈ leaves v)
    (ht : (p, t) ∈ leaves v) : s = t := by
  have hat := atPath_of_mem hkeyed hs
  rw [atPath_of_mem hkeyed ht] at hat
  exact (Json.str.inj (Option.some.inj hat)).symm

/-- After writing at another path, the rest of the lengths are still accurate. -/
theorem Accurate.write {path : Path} {len : Nat} {lengths : List (Path × Nat)} {v : Json}
    (h : Accurate ((path, len) :: lengths) v) (s : String) : Accurate lengths (mapLeaves v (writing path s)) where
  keyed := keyed_mapLeaves v _ h.keyed
  nodup := h.tail.nodup
  found := by
    intro l hl
    obtain ⟨t, ht, hlen⟩ := h.tail.found l hl
    refine ⟨t, ?_, hlen⟩
    rw [leaves_mapLeaves]
    refine List.mem_map.mpr ⟨(l.1, t), ht, ?_⟩
    have hne : l.1 ≠ path := by
      intro heq
      exact (List.nodup_cons.mp h.nodup).1 (heq ▸ List.mem_map.mpr ⟨l, hl, rfl⟩)
    simp [writing, hne]

/-- **Writing at one path, then replacing at others, is replacing at all of them.** -/
theorem mapLeaves_replacing_cons {v : Json} {path : Path} {t : String} {paths : List Path} {r : String → String}
    (hkeyed : Keyed v) (ht : (path, t) ∈ leaves v) (hnew : path ∉ paths) :
    mapLeaves (mapLeaves v (writing path (r t))) (replacing paths r) = mapLeaves v (replacing (path :: paths) r) := by
  rw [mapLeaves_mapLeaves]
  refine mapLeaves_congr v ?_
  rintro ⟨p, s⟩ hl
  by_cases heq : p = path
  · subst heq
    have hs : s = t := leaf_unique hkeyed hl ht
    simp [replacing, writing, hnew, hs]
  · simp [replacing, writing, heq]

/-- Writing what is there changes nothing. -/
theorem mapLeaves_writing_self {v : Json} {path : Path} {t : String} (hkeyed : Keyed v) (ht : (path, t) ∈ leaves v) :
    mapLeaves v (writing path t) = v := by
  rw [mapLeaves_congr v (g := fun _ s => s), mapLeaves_id]
  rintro ⟨p, s⟩ hl
  by_cases heq : p = path
  · subst heq
    have hs : s = t := leaf_unique hkeyed hl ht
    simp [writing, hs]
  · simp [writing, heq]

theorem textAt_of_mem {v : Json} {path : Path} {t : String} (hkeyed : Keyed v) (ht : (path, t) ∈ leaves v) :
    textAt path v = some t := by
  unfold textAt
  rw [atPath_of_mem hkeyed ht]
  rfl

theorem retained_cons (path : Path) (len : Nat) (lengths : List (Path × Nat)) :
    retained ((path, len) :: lengths) = len + retained lengths := by
  simp [retained]

/-- What a loop makes of the lengths and of the payload: the strings at the paths are replaced, their lengths
with them, and a loop that cuts saves in the serialization what it saves in the strings. -/
structure Replaced (r : String → String) (lengths : List (Path × Nat)) (v : Json) (lengths' : List (Path × Nat))
    (v' : Json) : Prop where
  payload : v' = mapLeaves v (replacing (lengths.map Prod.fst) r)
  paths : lengths'.map Prod.fst = lengths.map Prod.fst
  found : ∀ l ∈ lengths', ∃ t, (l.1, t) ∈ leaves v ∧ (r t).utf8ByteSize = l.2
  saved : (∀ s, (r s).toList <+: s.toList) →
    v'.serializedLength + retained lengths ≤ v.serializedLength + retained lengths'
  bounded : ∀ bound : Nat → Nat, (∀ s, (r s).utf8ByteSize ≤ bound s.utf8ByteSize) →
    retained lengths' ≤ (lengths.map fun l => bound l.2).sum

theorem Replaced.nil (r : String → String) (v : Json) : Replaced r [] v [] v where
  payload := (mapLeaves_id v).symm
  paths := rfl
  found := by simp
  saved := fun _ => Nat.le_refl _
  bounded := fun _ _ => Nat.le_refl _

/-- One step of a loop. -/
theorem Replaced.cons {r : String → String} {path : Path} {len : Nat} {t : String}
    {lengths lengths' : List (Path × Nat)} {v v' : Json} (h : Accurate ((path, len) :: lengths) v)
    (ht : (path, t) ∈ leaves v) (hlen : t.utf8ByteSize = len)
    (hrest : Replaced r lengths (mapLeaves v (writing path (r t))) lengths' v') :
    Replaced r ((path, len) :: lengths) v ((path, (r t).utf8ByteSize) :: lengths') v' where
  payload := by
    rw [hrest.payload]
    exact mapLeaves_replacing_cons h.keyed ht (List.nodup_cons.mp h.nodup).1
  paths := by simp [hrest.paths]
  found := by
    intro l hl
    rcases List.mem_cons.mp hl with rfl | htail
    · exact ⟨t, ht, rfl⟩
    · obtain ⟨s, hs, hsize⟩ := hrest.found l htail
      have hpath : l.1 ∈ lengths.map Prod.fst := hrest.paths ▸ List.mem_map.mpr ⟨l, htail, rfl⟩
      have hne : l.1 ≠ path := by
        intro heq
        exact (List.nodup_cons.mp h.nodup).1 (heq ▸ hpath)
      rw [leaves_mapLeaves] at hs
      obtain ⟨⟨p, u⟩, hu, heq⟩ := List.mem_map.mp hs
      obtain ⟨rfl, rfl⟩ := Prod.mk.inj heq
      refine ⟨u, hu, ?_⟩
      simpa [writing, hne] using hsize
  saved := by
    intro hcuts
    have htail := hrest.saved hcuts
    have hwrite := serializedLength_writing h.keyed ht (hcuts t)
    rw [retained_cons, retained_cons]
    omega
  bounded := by
    intro bound hbound
    have htail := hrest.bounded bound hbound
    have hhead := hbound t
    rw [hlen] at hhead
    rw [retained_cons, List.map_cons, List.sum_cons]
    exact Nat.add_le_add hhead htail

/-- A step that leaves its string alone. -/
theorem Replaced.skip {r : String → String} {path : Path} {len : Nat} {t : String}
    {lengths lengths' : List (Path × Nat)} {v v' : Json} (h : Accurate ((path, len) :: lengths) v)
    (ht : (path, t) ∈ leaves v) (hlen : t.utf8ByteSize = len) (hsame : r t = t)
    (hrest : Replaced r lengths v lengths' v') :
    Replaced r ((path, len) :: lengths) v ((path, len) :: lengths') v' := by
  have hself : mapLeaves v (writing path (r t)) = v := by
    rw [hsame]
    exact mapLeaves_writing_self h.keyed ht
  have hcons := Replaced.cons h ht hlen (hself.symm ▸ hrest)
  rw [hsame, hlen] at hcons
  exact hcons

/-- The lengths are accurate again. -/
theorem Replaced.accurate {r : String → String} {lengths lengths' : List (Path × Nat)} {v v' : Json}
    (h : Accurate lengths v) (hreplaced : Replaced r lengths v lengths' v') : Accurate lengths' v' where
  keyed := hreplaced.payload ▸ keyed_mapLeaves v _ h.keyed
  nodup := hreplaced.paths ▸ h.nodup
  found := by
    intro l hl
    obtain ⟨t, ht, hlen⟩ := hreplaced.found l hl
    have hpath : l.1 ∈ lengths.map Prod.fst := hreplaced.paths ▸ List.mem_map.mpr ⟨l, hl, rfl⟩
    refine ⟨r t, ?_, hlen⟩
    rw [hreplaced.payload, leaves_mapLeaves]
    exact List.mem_map.mpr ⟨(l.1, t), ht, by simp only [replacing, if_pos hpath]⟩

/-- **The second loop** cuts every leaf to the longest a leaf may be. -/
theorem capLeaves_spec {lengths : List (Path × Nat)} {v : Json} (h : Accurate lengths v) :
    Replaced (cut · eventStringLeafMaxBytes) lengths v (capLeaves lengths v).1 (capLeaves lengths v).2 := by
  induction lengths generalizing v with
  | nil => exact Replaced.nil _ v
  | cons l lengths ih =>
      obtain ⟨path, len⟩ := l
      obtain ⟨t, ht, hlen⟩ := h.found (path, len) List.mem_cons_self
      by_cases hlong : eventStringLeafMaxBytes < len
      · simp only [capLeaves, if_pos hlong, textAt_of_mem h.keyed ht]
        rw [setAt_of_mem h.keyed ht]
        exact Replaced.cons h ht hlen (ih (h.write _))
      · simp only [capLeaves, if_neg hlong]
        have hle : t.utf8ByteSize ≤ eventStringLeafMaxBytes := by
          simp only at hlen
          omega
        exact Replaced.skip h ht hlen (cut_of_le hle) (ih h.tail)

/-- **A pass** cuts every leaf to the ceiling. -/
theorem shorten_spec (ceiling : Nat) {lengths : List (Path × Nat)} {v : Json} (h : Accurate lengths v) :
    Replaced (cut · ceiling) lengths v (shorten ceiling lengths v).lengths (shorten ceiling lengths v).payload := by
  induction lengths generalizing v with
  | nil => exact Replaced.nil _ v
  | cons l lengths ih =>
      obtain ⟨path, len⟩ := l
      obtain ⟨t, ht, hlen⟩ := h.found (path, len) List.mem_cons_self
      by_cases hshort : len ≤ ceiling
      · simp only [shorten, if_pos hshort, Shortened.behind]
        exact Replaced.skip h ht hlen (cut_of_le (hlen ▸ hshort)) (ih h.tail)
      · simp only [shorten, if_neg hshort, textAt_of_mem h.keyed ht, Shortened.behind]
        rw [setAt_of_mem h.keyed ht]
        exact Replaced.cons h ht hlen (ih (h.write _))

/-- A pass shortens something if a leaf is above the ceiling. -/
theorem shorten_any {ceiling : Nat} {lengths : List (Path × Nat)} {v : Json} (h : Accurate lengths v)
    {l : Path × Nat} (hl : l ∈ lengths) (hlong : ceiling < l.2) : (shorten ceiling lengths v).any = true := by
  induction lengths generalizing v with
  | nil => simp at hl
  | cons first lengths ih =>
      obtain ⟨path, len⟩ := first
      obtain ⟨t, ht, hlen⟩ := h.found (path, len) List.mem_cons_self
      by_cases hshort : len ≤ ceiling
      · have hne : l ≠ (path, len) := by
          rintro rfl
          exact Nat.not_lt.mpr hshort hlong
        have htail := ih h.tail ((List.mem_cons.mp hl).resolve_left hne)
        simp [shorten, if_pos hshort, Shortened.behind, htail]
      · have hcut := utf8ByteSize_cut_le t ceiling
        have hless : (cut t ceiling).utf8ByteSize < len := by omega
        simp [shorten, if_neg hshort, textAt_of_mem h.keyed ht, Shortened.behind, hless]

/-- The leaves the first loop empties. -/
def filledAttachment (l : Path × Nat) : Bool := decide (0 < l.2) && isAttachment l.1

/-- **The first loop** empties the attachments, and names them. -/
theorem emptyAttachments_spec {lengths : List (Path × Nat)} {v : Json} (h : Accurate lengths v) :
    (emptyAttachments lengths v).1 =
        mapLeaves v (replacing ((lengths.filter filledAttachment).map Prod.fst) fun _ => "") ∧
      (emptyAttachments lengths v).2 = (lengths.filter filledAttachment).map fun l => formatPath l.1 := by
  induction lengths generalizing v with
  | nil => exact ⟨(mapLeaves_id v).symm, rfl⟩
  | cons l lengths ih =>
      obtain ⟨path, len⟩ := l
      obtain ⟨t, ht, hlen⟩ := h.found (path, len) List.mem_cons_self
      have hat := atPath_of_mem h.keyed ht
      by_cases hfilled : 0 < len ∧ isAttachment path = true
      · have hnew : path ∉ (lengths.filter filledAttachment).map Prod.fst := by
          intro hmem
          obtain ⟨m, hm, hpath⟩ := List.mem_map.mp hmem
          exact (List.nodup_cons.mp h.nodup).1 (List.mem_map.mpr ⟨m, (List.mem_filter.mp hm).1, hpath⟩)
        have hpick : filledAttachment (path, len) = true := by simp [filledAttachment, hfilled]
        obtain ⟨hpayload, hnames⟩ := ih (h.write "")
        have hreplaced := mapLeaves_replacing_cons (r := fun _ => "") h.keyed ht hnew
        simp only [emptyAttachments, hfilled, hat, Option.isSome_some, and_self, if_true, List.filter_cons, hpick,
          List.map_cons]
        rw [setAt_of_mem h.keyed ht]
        exact ⟨hpayload.trans hreplaced, congrArg (formatPath path :: ·) hnames⟩
      · have hskip : ¬ (0 < len ∧ isAttachment path = true ∧ (atPath path v).isSome = true) :=
          fun hall => hfilled ⟨hall.1, hall.2.1⟩
        have hpick : filledAttachment (path, len) = false := by simpa [filledAttachment] using hfilled
        simp only [emptyAttachments, if_neg hskip, List.filter_cons, hpick, Bool.false_eq_true, if_false]
        exact ih h.tail

/-! ## One pass is enough -/

theorem utf8ByteSize_cut_le_min (s : String) (target : Nat) :
    (cut s target).utf8ByteSize ≤ min s.utf8ByteSize target :=
  Nat.le_min.mpr ⟨utf8ByteSize_le_of_initial (cut_initial s target), utf8ByteSize_cut_le s target⟩

/-- If less is allowed than is retained, a leaf is above the ceiling. -/
theorem exists_above (lengths : List (Path × Nat)) (ceiling : Nat)
    (h : (lengths.map fun l => min l.2 ceiling).sum < retained lengths) : ∃ l ∈ lengths, ceiling < l.2 := by
  by_contra hnone
  have hall : ∀ l ∈ lengths, l.2 ≤ ceiling := by
    intro l hl
    by_contra hlong
    exact hnone ⟨l, hl, Nat.lt_of_not_le hlong⟩
  have hsame : (lengths.map fun l => min l.2 ceiling) = lengths.map Prod.snd :=
    List.map_congr_left fun l hl => Nat.min_eq_left (hall l hl)
  rw [hsame] at h
  exact Nat.lt_irrefl _ h

/-- The pass of a payload that is over the budget. -/
abbrev passOf (lengths : List (Path × Nat)) (v : Json) : Shortened :=
  shorten (passCeiling lengths v.serializedLength) lengths v

/-- **A pass brings the payload within the budget**, if the leaves are long enough to make up for what it is
over; else it empties them. In both cases it shortens something. -/
theorem pass_spec {lengths : List (Path × Nat)} {v : Json} (h : Accurate lengths v)
    (hover : eventPayloadBudgetBytes < v.serializedLength) (hfilled : retained lengths ≠ 0) :
    (passOf lengths v).any = true ∧
      ((passOf lengths v).payload.serializedLength ≤ eventPayloadBudgetBytes ∨
        passCeiling lengths v.serializedLength = 0) := by
  have hpass := shorten_spec (passCeiling lengths v.serializedLength) h
  have hceiling : (lengths.map fun l => min l.2 (passCeiling lengths v.serializedLength)).sum ≤
      retained lengths - (v.serializedLength - eventPayloadBudgetBytes) := sharedCeiling_spec (by omega)
  obtain ⟨l, hl, hlong⟩ := exists_above lengths
    (passCeiling lengths v.serializedLength) (by omega)
  refine ⟨shorten_any h hl hlong, ?_⟩
  by_cases henough : v.serializedLength - eventPayloadBudgetBytes ≤ retained lengths
  · have hretained : retained (passOf lengths v).lengths ≤ _ :=
      hpass.bounded (min · (passCeiling lengths v.serializedLength)) fun s => utf8ByteSize_cut_le_min s _
    have hsaved : (passOf lengths v).payload.serializedLength + retained lengths ≤
        v.serializedLength + retained (passOf lengths v).lengths := hpass.saved fun s => cut_initial s _
    exact .inl (by omega)
  · refine .inr ?_
    have hnone : retained lengths - (v.serializedLength - eventPayloadBudgetBytes) = 0 := by omega
    unfold passCeiling
    rw [hnone]
    exact sharedCeiling_zero lengths

/-- The payload with the strings of some paths emptied. -/
abbrev emptiedAt (paths : List Path) (v : Json) : Json := mapLeaves v (replacing paths fun _ => "")

theorem eq_emptiedAt_of_retained {lengths : List (Path × Nat)} {v : Json} (h : Accurate lengths v)
    (hempty : retained lengths = 0) : emptiedAt (lengths.map Prod.fst) v = v := by
  rw [emptiedAt, mapLeaves_congr v (g := fun _ s => s), mapLeaves_id]
  rintro ⟨p, s⟩ hs
  by_cases hmem : p ∈ lengths.map Prod.fst
  · obtain ⟨l, hl, rfl⟩ := List.mem_map.mp hmem
    obtain ⟨t, ht, hlen⟩ := h.found l hl
    have hst : s = t := leaf_unique h.keyed hs ht
    have hzero : l.2 = 0 := List.sum_eq_zero_iff.mp hempty l.2 (List.mem_map.mpr ⟨l, hl, rfl⟩)
    have hblank : s = "" := eq_empty_of_utf8ByteSize (by rw [hst, hlen, hzero])
    simp [replacing, hmem, hblank]
  · simp [replacing, hmem]

/-- **The pass loop ends in its first or second pass**: the payload fits, or nothing is left to shorten and it
does not fit with every leaf emptied. -/
theorem passes_spec {lengths : List (Path × Nat)} {v : Json} (h : Accurate lengths v) (n : Nat) :
    (∃ r : String → String, (∀ s, (r s).toList <+: s.toList) ∧
        passes (n + 2) lengths v = .fits (mapLeaves v (replacing (lengths.map Prod.fst) r)) ∧
        (mapLeaves v (replacing (lengths.map Prod.fst) r)).serializedLength ≤ eventPayloadBudgetBytes) ∨
      (passes (n + 2) lengths v = .nothingLeft ∧
        eventPayloadBudgetBytes < (emptiedAt (lengths.map Prod.fst) v).serializedLength) := by
  by_cases hfits : v.serializedLength ≤ eventPayloadBudgetBytes
  · have hsame : mapLeaves v (replacing (lengths.map Prod.fst) id) = v := by
      rw [mapLeaves_congr v (g := fun _ s => s), mapLeaves_id]
      intro l _
      simp [replacing]
    refine .inl ⟨id, fun s => List.prefix_rfl, ?_, by rwa [hsame]⟩
    rw [hsame, passes, if_pos hfits]
  · by_cases hempty : retained lengths = 0
    · refine .inr ⟨?_, ?_⟩
      · rw [passes, if_neg hfits, if_pos hempty]
      · rw [eq_emptiedAt_of_retained h hempty]
        exact Nat.lt_of_not_le hfits
    · obtain ⟨hany, hend⟩ := pass_spec h (Nat.lt_of_not_le hfits) hempty
      have hpass := shorten_spec (passCeiling lengths v.serializedLength) h
      have hsettle : (passOf lengths v).settle = ((passOf lengths v).lengths, (passOf lengths v).payload) := by
        unfold Shortened.settle
        rw [if_pos hany]
      have hstep : passes (n + 2) lengths v = passes (n + 1) (passOf lengths v).lengths (passOf lengths v).payload := by
        rw [passes, if_neg hfits, if_neg hempty, hsettle]
      by_cases hsecond : (passOf lengths v).payload.serializedLength ≤ eventPayloadBudgetBytes
      · refine .inl ⟨(cut · (passCeiling lengths v.serializedLength)), fun s => cut_initial s _, ?_, ?_⟩
        · rw [hstep, passes, if_pos hsecond, ← hpass.payload]
        · rw [← hpass.payload]
          exact hsecond
      · have hzero := hend.resolve_left hsecond
        have hnone : retained (passOf lengths v).lengths = 0 := by
          have hbounded := hpass.bounded (fun _ => 0) fun s => by
            rw [hzero]
            exact utf8ByteSize_cut_le s 0
          simpa using hbounded
        have hemptied : (passOf lengths v).payload = emptiedAt (lengths.map Prod.fst) v := by
          rw [hpass.payload, hzero]
          simp only [cut_zero]
        refine .inr ⟨?_, ?_⟩
        · rw [hstep, passes, if_neg hsecond, if_pos hnone]
        · rw [← hemptied]
          exact Nat.lt_of_not_le hsecond

/-! ## The whole of it -/

/-- The payload with its attachments emptied and its other strings replaced, those above the protection floor. -/
def shortenedBy (r : String → String) (p : Path) (s : String) : String :=
  if isAttachment p then "" else if leafProtectionFloorBytes < s.utf8ByteSize then r s else s

/-- The payload with every string emptied that may be. -/
def emptied (payload : Json) : Json := mapLeaves payload (shortenedBy fun _ => "")

theorem collect_root (payload : Json) :
    collect [] payload = (leaves payload).map fun l => (l.1, l.2.utf8ByteSize) := collect_eq [] payload

theorem accurate_collect {payload : Json} (hkeyed : Keyed payload) : Accurate (collect [] payload) payload where
  keyed := hkeyed
  nodup := by
    rw [collect_root, List.map_map]
    exact nodup_leaves payload hkeyed
  found := by
    intro l hl
    rw [collect_root] at hl
    obtain ⟨⟨p, t⟩, ht, rfl⟩ := List.mem_map.mp hl
    exact ⟨t, ht, rfl⟩

/-- The paths of the candidates are those of the strings that may be cut. -/
theorem mem_candidates {payload : Json} (hkeyed : Keyed payload) {p : Path} {s : String}
    (hs : (p, s) ∈ leaves payload) :
    p ∈ (candidates (collect [] payload)).map Prod.fst ↔
      isAttachment p = false ∧ leafProtectionFloorBytes < s.utf8ByteSize := by
  rw [collect_root]
  constructor
  · intro hp
    obtain ⟨l, hl, rfl⟩ := List.mem_map.mp hp
    obtain ⟨hmem, hpick⟩ := List.mem_filter.mp hl
    obtain ⟨⟨q, t⟩, ht, rfl⟩ := List.mem_map.mp hmem
    have hst : s = t := leaf_unique hkeyed hs ht
    simpa [hst] using hpick
  · rintro ⟨hplain, hlong⟩
    refine List.mem_map.mpr ⟨(p, s.utf8ByteSize), List.mem_filter.mpr ⟨List.mem_map.mpr ⟨(p, s), hs, rfl⟩, ?_⟩, rfl⟩
    simp [hplain, hlong]

/-- The paths of the attachments that are emptied. -/
theorem mem_filled {payload : Json} (hkeyed : Keyed payload) {p : Path} {s : String} (hs : (p, s) ∈ leaves payload) :
    p ∈ ((collect [] payload).filter filledAttachment).map Prod.fst ↔ isAttachment p = true ∧ s ≠ "" := by
  have hblank : s ≠ "" ↔ 0 < s.utf8ByteSize := by
    rw [Nat.pos_iff_ne_zero, ne_eq, ne_eq, String.utf8ByteSize_eq_zero_iff]
  rw [collect_root, hblank]
  constructor
  · intro hp
    obtain ⟨l, hl, rfl⟩ := List.mem_map.mp hp
    obtain ⟨hmem, hpick⟩ := List.mem_filter.mp hl
    obtain ⟨⟨q, t⟩, ht, rfl⟩ := List.mem_map.mp hmem
    have hst : s = t := leaf_unique hkeyed hs ht
    have hboth : 0 < t.utf8ByteSize ∧ isAttachment q = true := by simpa [filledAttachment] using hpick
    exact ⟨hboth.2, hst ▸ hboth.1⟩
  · rintro ⟨hattachment, hlong⟩
    refine List.mem_map.mpr ⟨(p, s.utf8ByteSize), List.mem_filter.mpr ⟨List.mem_map.mpr ⟨(p, s), hs, rfl⟩, ?_⟩, rfl⟩
    simp [filledAttachment, hattachment, hlong]

/-- **Before the first pass** the attachments are empty and the other strings cut to the longest one may be;
what the passes replace is what may be cut. -/
theorem prepared_spec {payload : Json} (hkeyed : Keyed payload) :
    Accurate (prepared payload).1 (prepared payload).2 ∧
      ∀ r : String → String, mapLeaves (prepared payload).2 (replacing ((prepared payload).1.map Prod.fst) r) =
        mapLeaves payload (shortenedBy fun s => r (cut s eventStringLeafMaxBytes)) := by
  obtain ⟨hattachments, _⟩ := emptyAttachments_spec (accurate_collect hkeyed)
  have hcandidates : Accurate (candidates (collect [] payload)) (emptyAttachments (collect [] payload) payload).1 := by
    rw [hattachments]
    refine ⟨keyed_mapLeaves payload _ hkeyed, ?_, ?_⟩
    · exact ((List.filter_sublist).map Prod.fst).nodup (accurate_collect hkeyed).nodup
    · intro l hl
      obtain ⟨hmem, hpick⟩ := List.mem_filter.mp hl
      obtain ⟨t, ht, hlen⟩ := (accurate_collect hkeyed).found l hmem
      have hplain : isAttachment l.1 = false := (by simpa using hpick : isAttachment l.1 = false ∧ _).1
      have hout : l.1 ∉ ((collect [] payload).filter filledAttachment).map Prod.fst := by
        rw [mem_filled hkeyed ht, hplain]
        simp
      refine ⟨t, ?_, hlen⟩
      rw [leaves_mapLeaves]
      exact List.mem_map.mpr ⟨(l.1, t), ht, by simp only [replacing, if_neg hout]⟩
  have hcapped := capLeaves_spec hcandidates
  refine ⟨hcapped.accurate hcandidates, fun r => ?_⟩
  show mapLeaves (capLeaves _ _).2 (replacing ((capLeaves _ _).1.map Prod.fst) r) = _
  rw [hcapped.paths, hcapped.payload, hattachments, mapLeaves_mapLeaves, mapLeaves_mapLeaves]
  refine mapLeaves_congr payload ?_
  rintro ⟨p, s⟩ hs
  have hin := mem_candidates hkeyed hs
  have hfilled := mem_filled hkeyed hs
  by_cases hattachment : isAttachment p = true
  · have hout : p ∉ (candidates (collect [] payload)).map Prod.fst := by
      rw [hin, hattachment]
      simp
    by_cases hblank : s = ""
    · simp [replacing, shortenedBy, hout, hattachment, hblank]
    · have hmem := hfilled.mpr ⟨hattachment, hblank⟩
      simp only [replacing, if_neg hout, if_pos hmem, shortenedBy, if_pos hattachment]
  · have hplain : isAttachment p = false := by simpa using hattachment
    have hout : p ∉ ((collect [] payload).filter filledAttachment).map Prod.fst := by
      rw [hfilled]
      exact fun h => hattachment h.1
    by_cases hlong : leafProtectionFloorBytes < s.utf8ByteSize
    · have hmem := hin.mpr ⟨hplain, hlong⟩
      simp only [replacing, if_neg hout, if_pos hmem, shortenedBy, if_neg hattachment, if_pos hlong]
    · have hshort : p ∉ (candidates (collect [] payload)).map Prod.fst := by
        rw [hin]
        exact fun h => hlong h.2
      simp only [replacing, if_neg hout, if_neg hshort, shortenedBy, if_neg hattachment, if_neg hlong]

/-- **How the loop ends**: with a payload that fits, whose strings are prefixes, or with one that does not fit
with every string emptied. The passes are never used up. -/
theorem loopEnd_spec {payload : Json} (hkeyed : Keyed payload) :
    (∃ r : String → String, (∀ s, (r s).toList <+: s.toList) ∧
        (∀ s, (r s).utf8ByteSize ≤ eventStringLeafMaxBytes) ∧
        loopEnd payload = .fits (mapLeaves payload (shortenedBy r)) ∧
        (mapLeaves payload (shortenedBy r)).serializedLength ≤ eventPayloadBudgetBytes) ∨
      (loopEnd payload = .nothingLeft ∧ eventPayloadBudgetBytes < (emptied payload).serializedLength) := by
  obtain ⟨haccurate, hreplace⟩ := prepared_spec hkeyed
  rcases passes_spec haccurate 30 with ⟨r, hinitial, hend, hfits⟩ | ⟨hend, hover⟩
  · rw [hreplace r] at hend hfits
    refine .inl ⟨fun s => r (cut s eventStringLeafMaxBytes), ?_, ?_, hend, hfits⟩
    · exact fun s => (hinitial _).trans (cut_initial s _)
    · intro s
      exact (utf8ByteSize_le_of_initial (hinitial _)).trans (utf8ByteSize_cut_le s _)
  · rw [emptiedAt, hreplace] at hover
    exact .inr ⟨hend, hover⟩

theorem apply_fits {payload served : Json} (h : loopEnd payload = .fits served) :
    apply payload = ⟨served, (emptyAttachments (collect [] payload) payload).2, served ≠ payload,
      served.serializedLength⟩ := by
  simp only [apply, h]

theorem apply_unfit {payload : Json} (h : loopEnd payload = .nothingLeft) :
    apply payload = ⟨payload, [], false, payload.serializedLength⟩ := by
  simp only [apply, h]

/-- The emptied payload is the shortest. -/
theorem emptied_le (payload : Json) (f : Path → String → String)
    (h : ∀ l ∈ leaves payload, ¬ isAttachment l.1 → l.2.utf8ByteSize ≤ leafProtectionFloorBytes → f l.1 l.2 = l.2) :
    (emptied payload).serializedLength ≤ (mapLeaves payload f).serializedLength := by
  refine serializedLength_mono ?_
  rintro ⟨p, s⟩ hs
  by_cases hattachment : isAttachment p = true
  · simp [shortenedBy, hattachment]
  · by_cases hlong : leafProtectionFloorBytes < s.utf8ByteSize
    · simp [shortenedBy, hlong]
    · have hkept := h (p, s) hs hattachment (Nat.le_of_not_lt hlong)
      simp only at hkept
      rw [hkept]
      simp [shortenedBy, hattachment, hlong]

/-- **What was served is served as it is.** -/
theorem apply_served {payload : Json} (hkeyed : Keyed payload) {r : String → String}
    (hsize : ∀ s, (r s).utf8ByteSize ≤ eventStringLeafMaxBytes)
    (hfits : (mapLeaves payload (shortenedBy r)).serializedLength ≤ eventPayloadBudgetBytes) :
    apply (mapLeaves payload (shortenedBy r)) =
      ⟨mapLeaves payload (shortenedBy r), [], false, (mapLeaves payload (shortenedBy r)).serializedLength⟩ := by
  have hserved : Keyed (mapLeaves payload (shortenedBy r)) := keyed_mapLeaves payload _ hkeyed
  have hlong : ∀ l ∈ leaves (mapLeaves payload (shortenedBy r)),
      (isAttachment l.1 = true → l.2 = "") ∧ l.2.utf8ByteSize ≤ eventStringLeafMaxBytes := by
    intro l hl
    rw [leaves_mapLeaves] at hl
    obtain ⟨⟨p, s⟩, _, rfl⟩ := List.mem_map.mp hl
    simp only [shortenedBy]
    split
    · exact ⟨fun _ => rfl, Nat.zero_le _⟩
    · rename_i hplain
      refine ⟨fun h => absurd h hplain, ?_⟩
      split
      · exact hsize s
      · rename_i hshort
        have hfloor : leafProtectionFloorBytes ≤ eventStringLeafMaxBytes := by decide
        omega
  -- the attachments are empty already
  have hnone : (collect [] (mapLeaves payload (shortenedBy r))).filter filledAttachment = [] := by
    rw [List.filter_eq_nil_iff, collect_root]
    intro l hl
    obtain ⟨⟨p, s⟩, hs, rfl⟩ := List.mem_map.mp hl
    intro hfilled
    simp only [filledAttachment, Bool.and_eq_true, decide_eq_true_eq] at hfilled
    have hblank : s = "" := (hlong (p, s) hs).1 hfilled.2
    rw [hblank] at hfilled
    exact Nat.lt_irrefl 0 hfilled.1
  obtain ⟨_, hnames⟩ := emptyAttachments_spec (accurate_collect hserved)
  rw [hnone] at hnames
  obtain ⟨haccurate, hreplace⟩ := prepared_spec hserved
  have hprepared : (prepared (mapLeaves payload (shortenedBy r))).2 = mapLeaves payload (shortenedBy r) := by
    have hsame := hreplace id
    have hid : mapLeaves (prepared (mapLeaves payload (shortenedBy r))).2
        (replacing ((prepared (mapLeaves payload (shortenedBy r))).1.map Prod.fst) id) =
          (prepared (mapLeaves payload (shortenedBy r))).2 := by
      rw [mapLeaves_congr _ (g := fun _ s => s), mapLeaves_id]
      intro l _
      simp [replacing]
    rw [hid] at hsame
    rw [hsame, mapLeaves_congr _ (g := fun _ s => s), mapLeaves_id]
    intro l hl
    obtain ⟨hblank, hle⟩ := hlong l hl
    by_cases hattachment : isAttachment l.1 = true
    · simp [shortenedBy, hattachment, hblank hattachment]
    · simp [shortenedBy, hattachment, cut_of_le hle]
  have hend : loopEnd (mapLeaves payload (shortenedBy r)) = .fits (mapLeaves payload (shortenedBy r)) := by
    show passes (31 + 1) _ _ = _
    rw [passes, hprepared, if_pos hfits]
  rw [apply_fits hend, hnames]
  simp

/-! ## The structure is preserved -/

/-- `parts[i].raw` or `content[i].source.data`, at the root. -/
def Attachment (p : Path) : Prop :=
  (∃ i, p = [.key "parts", .index i, .key "raw"]) ∨
    ∃ i, p = [.key "content", .index i, .key "source", .key "data"]

theorem isAttachment_iff (p : Path) : isAttachment p = true ↔ Attachment p := by
  constructor
  · intro h
    unfold isAttachment at h
    split at h
    · simp only [decide_eq_true_eq] at h
      obtain ⟨rfl, rfl⟩ := h
      exact .inl ⟨_, rfl⟩
    · simp only [decide_eq_true_eq] at h
      obtain ⟨rfl, rfl, rfl⟩ := h
      exact .inr ⟨_, rfl⟩
    · cases h
  · rintro (⟨i, rfl⟩ | ⟨i, rfl⟩) <;> rfl

/-- How the strings of a payload may be shortened: to prefixes, an attachment to nothing, a short string not
at all. -/
structure Shortening (payload : Json) (f : Path → String → String) : Prop where
  cuts : ∀ l ∈ leaves payload, (f l.1 l.2).toList <+: l.2.toList
  empties : ∀ l ∈ leaves payload, Attachment l.1 → f l.1 l.2 = ""
  keeps : ∀ l ∈ leaves payload, ¬ Attachment l.1 → l.2.utf8ByteSize ≤ 256 → f l.1 l.2 = l.2

theorem shortening_shortenedBy {payload : Json} {r : String → String} (h : ∀ s, (r s).toList <+: s.toList) :
    Shortening payload (shortenedBy r) where
  cuts := by
    rintro ⟨p, s⟩ _
    unfold shortenedBy
    split
    · exact List.nil_prefix
    · split
      · exact h s
      · exact List.prefix_rfl
  empties := fun l _ hl => if_pos ((isAttachment_iff l.1).mpr hl)
  keeps := by
    rintro ⟨p, s⟩ _ hp hs
    have hplain : ¬ isAttachment p = true := fun h => hp ((isAttachment_iff p).mp h)
    have hshort : ¬ leafProtectionFloorBytes < s.utf8ByteSize := Nat.not_lt.mpr hs
    simp only [shortenedBy, if_neg hplain, if_neg hshort]

/-- Indices are written in decimal. -/
theorem repr_toList_inj {i j : Nat} (h : i.repr.toList = j.repr.toList) : i = j := by
  rw [Nat.toList_repr, Nat.toList_repr] at h
  have hdigits := congrArg (Nat.ofDigitChars 10 · 0) h
  simpa using hdigits

theorem formatPath_parts (i : Nat) : (formatPath [.key "parts", .index i, .key "raw"]).toList =
    "parts[".toList ++ (i.repr.toList ++ "].raw".toList) := by
  simp [formatPath, formatSeg]

theorem formatPath_content (i : Nat) :
    (formatPath [.key "content", .index i, .key "source", .key "data"]).toList =
      "content[".toList ++ (i.repr.toList ++ "].source.data".toList) := by
  simp [formatPath, formatSeg]

/-- **No two attachments have one name.** -/
theorem formatPath_inj {p q : Path} (hp : Attachment p) (hq : Attachment q) (h : formatPath p = formatPath q) :
    p = q := by
  have hlist := congrArg String.toList h
  rcases hp with ⟨i, rfl⟩ | ⟨i, rfl⟩ <;> rcases hq with ⟨j, rfl⟩ | ⟨j, rfl⟩
  · rw [formatPath_parts, formatPath_parts] at hlist
    have hij : i = j := repr_toList_inj (List.append_cancel_right (List.append_cancel_left hlist))
    rw [hij]
  · rw [formatPath_parts, formatPath_content] at hlist
    simp at hlist
  · rw [formatPath_parts, formatPath_content] at hlist
    simp at hlist
  · rw [formatPath_content, formatPath_content] at hlist
    have hij : i = j := repr_toList_inj (List.append_cancel_right (List.append_cancel_left hlist))
    rw [hij]

/-- The paths that are named. -/
theorem omitted_spec {payload : Json} (hkeyed : Keyed payload) :
    (emptyAttachments (collect [] payload) payload).2.Nodup ∧
      ∀ name, name ∈ (emptyAttachments (collect [] payload) payload).2 ↔
        ∃ l ∈ leaves payload, Attachment l.1 ∧ l.2 ≠ "" ∧ name = formatPath l.1 := by
  obtain ⟨_, hnames⟩ := emptyAttachments_spec (accurate_collect hkeyed)
  have hmem : ∀ l ∈ (collect [] payload).filter filledAttachment, ∃ t, (l.1, t) ∈ leaves payload ∧
      Attachment l.1 ∧ t ≠ "" := by
    intro l hl
    obtain ⟨t, ht, _⟩ := (accurate_collect hkeyed).found l (List.mem_filter.mp hl).1
    have hfilled := (mem_filled hkeyed ht).mp (List.mem_map.mpr ⟨l, hl, rfl⟩)
    exact ⟨t, ht, (isAttachment_iff _).mp hfilled.1, hfilled.2⟩
  have hpaths := ((List.filter_sublist (p := filledAttachment)).map Prod.fst).nodup (accurate_collect hkeyed).nodup
  rw [hnames]
  refine ⟨?_, fun name => ?_⟩
  · refine List.Nodup.map_on ?_ (List.Nodup.of_map _ hpaths)
    intro l hl m hm heq
    obtain ⟨s, hs, hattachment, _⟩ := hmem l hl
    obtain ⟨t, ht, hattachment', _⟩ := hmem m hm
    have hpath := formatPath_inj hattachment hattachment' heq
    exact List.inj_on_of_nodup_map hpaths hl hm hpath
  · constructor
    · intro hname
      obtain ⟨l, hl, rfl⟩ := List.mem_map.mp hname
      obtain ⟨t, ht, hattachment, hfilled⟩ := hmem l hl
      exact ⟨(l.1, t), ht, hattachment, hfilled, rfl⟩
    · rintro ⟨⟨p, t⟩, ht, hattachment, hfilled, rfl⟩
      have hp := (mem_filled hkeyed ht).mpr ⟨(isAttachment_iff p).mpr hattachment, hfilled⟩
      obtain ⟨l, hl, heq⟩ := List.mem_map.mp hp
      exact List.mem_map.mpr ⟨l, hl, congrArg formatPath heq⟩

/-- **A payload keeps its structure.** Either it is served with its strings shortened, the attachments emptied
and named, each once, or no shortening fits and it is served as it is. A record that is not served as stored
says so. -/
theorem payload_structure {payload : Json} (hkeyed : Keyed payload) :
    ((∃ f, Shortening payload f ∧ (apply payload).payload = mapLeaves payload f ∧
          (apply payload).payload.serializedLength ≤ eventPayloadBudgetBytes ∧
          (apply payload).omittedPaths.Nodup ∧
          ∀ name, name ∈ (apply payload).omittedPaths ↔
            ∃ l ∈ leaves payload, Attachment l.1 ∧ l.2 ≠ "" ∧ name = formatPath l.1) ∨
        (∀ f, Shortening payload f → eventPayloadBudgetBytes < (mapLeaves payload f).serializedLength) ∧
          (apply payload).payload = payload ∧ (apply payload).omittedPaths = [] ∧
          (apply payload).changed = false) ∧
      ∀ (parse : String → Option Json) (e : RawEvent), (EventV1.full parse e).payload = payload →
        (EventV1.ofEvent parse e).payload ≠ payload → (EventV1.ofEvent parse e).truncated = some true := by
  refine ⟨?_, ?_⟩
  · rcases loopEnd_spec hkeyed with ⟨r, hinitial, _, hend, hfits⟩ | ⟨hend, hover⟩
    · rw [apply_fits hend]
      exact .inl ⟨shortenedBy r, shortening_shortenedBy hinitial, rfl, hfits, omitted_spec hkeyed⟩
    · rw [apply_unfit hend]
      refine .inr ⟨fun f hf => ?_, rfl, rfl, rfl⟩
      have hle := emptied_le _ f fun l hl hplain hshort =>
        hf.keeps l hl (fun h => hplain ((isAttachment_iff l.1).mpr h)) hshort
      omega
  · intro parse e hstored hne
    unfold EventV1.ofEvent at hne ⊢
    split at hne
    · exact absurd hstored hne
    · rename_i hlong
      rw [if_neg hlong, hstored]
      rw [hstored] at hne
      have hchanged : (apply payload).changed = true := by
        rcases loopEnd_spec hkeyed with ⟨r, _, _, hend, _⟩ | ⟨hend, _⟩
        · rw [apply_fits hend] at hne ⊢
          exact decide_eq_true hne
        · rw [apply_unfit hend] at hne
          exact absurd rfl hne
      simp [EventV1.withOutcome, hchanged]

/-- A text of `n` bytes. -/
def longString (n : Nat) : String := String.ofList (List.replicate n 'a')

theorem utf8ByteSize_longString (n : Nat) : (longString n).utf8ByteSize = n := by
  have ha : Char.utf8Size 'a' = 1 := rfl
  rw [longString, utf8ByteSize_ofList, utf8Length, List.map_replicate, List.sum_replicate_nat, ha, Nat.mul_one]

theorem escapedLen_longString (n : Nat) : escapedLen (longString n) = n := by
  have ha : charEscapedWidth 'a' = 1 := by decide
  rw [longString, escapedLen, String.toList_ofList, List.map_replicate, List.sum_replicate_nat, ha, Nat.mul_one]

theorem keyed_textPart (text : String) : Keyed (Json.textPart text) := ⟨List.nodup_singleton _, trivial, trivial⟩

theorem serializedLength_textPart (text : String) :
    (Json.textPart text).serializedLength = escapedLen text + 11 := by
  have hobj := serializedLength_obj [("text", .str text)]
  have hkey : utf8Length (quoted "text") = 6 := by decide
  simp only [List.map_cons, List.map_nil, List.sum_cons, List.sum_nil, serializedLength_str, hkey, reduceCtorEq,
    if_false] at hobj
  unfold Json.textPart
  omega

theorem emptied_textPart {text : String} (h : leafProtectionFloorBytes < text.utf8ByteSize) :
    emptied (Json.textPart text) = Json.textPart "" := by
  show Json.obj [("text", .str (shortenedBy (fun _ => "") [.key "text"] text))] = _
  simp [shortenedBy, isAttachment, h, Json.textPart]

theorem emptied_longText :
    (emptied (Json.textPart (longString 70000))).serializedLength ≤ eventPayloadBudgetBytes := by
  have hlong : leafProtectionFloorBytes < (longString 70000).utf8ByteSize := by
    rw [utf8ByteSize_longString]
    decide
  rw [emptied_textPart hlong]
  decide

theorem lt_longText : eventPayloadBudgetBytes < (Json.textPart (longString 70000)).serializedLength := by
  rw [serializedLength_textPart, escapedLen_longString]
  decide

/-- A payload over the budget that can be shortened is. -/
theorem apply_ne {payload : Json} (hkeyed : Keyed payload)
    (hover : eventPayloadBudgetBytes < payload.serializedLength)
    (hfits : (emptied payload).serializedLength ≤ eventPayloadBudgetBytes) : (apply payload).payload ≠ payload := by
  rcases loopEnd_spec hkeyed with ⟨r, _, _, hend, hserved⟩ | ⟨_, hunfit⟩
  · rw [apply_fits hend]
    intro heq
    simp only at heq
    rw [heq] at hserved
    omega
  · omega

theorem payload_ofEvent_ne {parse : String → Option Json} {e : RawEvent} {payload : Json} (hkeyed : Keyed payload)
    (hstored : (EventV1.full parse e).payload = payload) (hlong : eventPayloadBudgetBytes < e.payload.utf8ByteSize)
    (hover : eventPayloadBudgetBytes < payload.serializedLength)
    (hfits : (emptied payload).serializedLength ≤ eventPayloadBudgetBytes) :
    (EventV1.ofEvent parse e).payload ≠ payload := by
  have hne := apply_ne hkeyed hover hfits
  simpa [EventV1.ofEvent, EventV1.withOutcome, Nat.not_le.mpr hlong, hstored] using hne

theorem payload_structure_longText :
    (EventV1.ofEvent (fun _ => some (Json.textPart (longString 70000)))
      ⟨1, "e", none, "message", (Json.textPart (longString 70000)).serialize, none, "2026-01-01 00:00:00"⟩).truncated =
        some true := by
  refine (payload_structure (keyed_textPart (longString 70000))).2 _ _ rfl ?_
  exact payload_ofEvent_ne (keyed_textPart (longString 70000)) rfl lt_longText lt_longText emptied_longText

/-! ## The budget is met -/

/-- **The budget is met whenever it can be**, in the pass loop because the payload fits; and what is served is
served as it is the next time. -/
theorem budget_met {payload : Json} (hkeyed : Keyed payload) :
    ((apply payload).payload.serializedLength ≤ eventPayloadBudgetBytes ↔
        (emptied payload).serializedLength ≤ eventPayloadBudgetBytes) ∧
      ((emptied payload).serializedLength ≤ eventPayloadBudgetBytes →
        loopEnd payload = .fits (apply payload).payload) ∧
      (apply (apply payload).payload).payload = (apply payload).payload ∧
      (apply (apply payload).payload).omittedPaths = [] ∧ (apply (apply payload).payload).changed = false := by
  rcases loopEnd_spec hkeyed with ⟨r, hinitial, hsize, hend, hfits⟩ | ⟨hend, hover⟩
  · have hkept : ∀ l ∈ leaves payload, ¬ isAttachment l.1 → l.2.utf8ByteSize ≤ leafProtectionFloorBytes →
        shortenedBy r l.1 l.2 = l.2 := by
      intro l _ hplain hshort
      simp only [shortenedBy, if_neg hplain, if_neg (Nat.not_lt.mpr hshort)]
    have hle := emptied_le _ (shortenedBy r) hkept
    have happly := apply_fits hend
    have hsecond := apply_served hkeyed hsize hfits
    rw [happly]
    refine ⟨⟨fun _ => hle.trans hfits, fun _ => hfits⟩, fun _ => hend, ?_⟩
    simp only [hsecond, and_self]
  · rw [apply_unfit hend]
    have hstored := emptied_le payload (fun _ s => s) fun _ _ _ _ => rfl
    rw [mapLeaves_id] at hstored
    refine ⟨⟨fun h => ?_, fun h => ?_⟩, fun h => ?_, ?_⟩
    · simp only at h
      omega
    · omega
    · omega
    · simp only [apply_unfit hend, and_self]

theorem budget_met_longText :
    loopEnd (Json.textPart (longString 70000)) = .fits (apply (Json.textPart (longString 70000))).payload :=
  (budget_met (keyed_textPart (longString 70000))).2.1 emptied_longText

end AgentBeacon.PayloadBudget
