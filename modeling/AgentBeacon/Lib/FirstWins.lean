import Mathlib.Data.List.Nodup

/-!
# `Lib.FirstWins` — a store that keeps the first of each key

Items come with a key; an item whose key is taken is dropped. However the items arrive, duplicated and
in whatever order, the store then holds of each key what was offered first under it, once.
-/

namespace FirstWins

variable {Key Item : Type} [DecidableEq Key]

/-- An item is stored, unless its key is taken. -/
def offer (stored : List (Key × Item)) (item : Key × Item) : List (Key × Item) :=
  if item.1 ∈ stored.map Prod.fst then stored else stored ++ [item]

/-- Items are offered one after the other. -/
def offers (stored items : List (Key × Item)) : List (Key × Item) := items.foldl offer stored

/-- What stands first under a key. -/
def first (items : List (Key × Item)) (key : Key) : Option (Key × Item) :=
  items.find? fun item => item.1 = key

variable {stored items items' : List (Key × Item)} {item : Key × Item} {key : Key}

@[simp] theorem offers_nil : offers stored [] = stored := rfl

@[simp] theorem offers_cons : offers stored (item :: items) = offers (offer stored item) items := rfl

theorem offers_append : offers stored (items ++ items') = offers (offers stored items) items' :=
  List.foldl_append

/-- A repeated item changes nothing. -/
theorem offer_of_mem (h : item.1 ∈ stored.map Prod.fst) : offer stored item = stored := if_pos h

theorem offer_of_notMem (h : item.1 ∉ stored.map Prod.fst) : offer stored item = stored ++ [item] :=
  if_neg h

theorem first_eq_none : first items key = none ↔ key ∉ items.map Prod.fst := by
  rw [first, List.find?_eq_none, List.mem_map]
  constructor
  · rintro h ⟨item, hitem, rfl⟩
    exact h item hitem (decide_eq_true rfl)
  · intro h item hitem heq
    exact h ⟨item, hitem, of_decide_eq_true heq⟩

theorem key_of_first (h : first items key = some item) : item.1 = key := by
  have hfound := List.find?_some (show items.find? (fun item => decide (item.1 = key)) = some item from h)
  exact of_decide_eq_true hfound

/-- A key that is not taken is looked for among what comes after. -/
theorem first_append_of_notMem (h : key ∉ stored.map Prod.fst) :
    first (stored ++ items) key = first items key := by
  have hnone := first_eq_none.mpr h
  unfold first at hnone ⊢
  rw [List.find?_append, hnone, Option.none_or]

/-- What is stored under a key is what stood there, or else the item offered under it. -/
theorem first_offer : first (offer stored item) key = first (stored ++ [item]) key := by
  by_cases h : item.1 ∈ stored.map Prod.fst
  · rw [offer_of_mem h, first, first, List.find?_append]
    cases hfirst : stored.find? fun item => item.1 = key with
    | some item' => rfl
    | none =>
        -- the key is taken by a stored item, so it is not the one that is looked for
        have hother : item.1 ≠ key := fun heq => (first_eq_none.mp hfirst) (heq ▸ h)
        rw [Option.none_or, List.find?_cons_of_neg (by simpa using hother), List.find?_nil]
  · rw [offer_of_notMem h]

/-- **The first offer under a key wins**, and what was stored before comes first. -/
theorem first_offers : first (offers stored items) key = first (stored ++ items) key := by
  induction items generalizing stored with
  | nil => rw [offers_nil, List.append_nil]
  | cons item items ih =>
      rw [offers_cons, ih]
      have hoffer : first (offer stored item) key = first (stored ++ [item]) key := first_offer
      unfold first at hoffer ⊢
      rw [List.find?_append, hoffer, ← List.find?_append, List.append_assoc]
      rfl

/-! ## Each key once -/

theorem nodup_offer (h : (stored.map Prod.fst).Nodup) : ((offer stored item).map Prod.fst).Nodup := by
  by_cases hmem : item.1 ∈ stored.map Prod.fst
  · rw [offer_of_mem hmem]
    exact h
  · rw [offer_of_notMem hmem, List.map_append, List.map_cons, List.map_nil]
    refine h.append (List.nodup_singleton _) fun key hkey hsingle => ?_
    exact hmem (List.mem_singleton.mp hsingle ▸ hkey)

/-- **No key is stored twice.** -/
theorem nodup_offers (h : (stored.map Prod.fst).Nodup) : ((offers stored items).map Prod.fst).Nodup := by
  induction items generalizing stored with
  | nil => exact h
  | cons item items ih => exact ih (nodup_offer h)

/-- In a store without repeated keys an item is what stands under its key. -/
theorem mem_iff_first (h : (stored.map Prod.fst).Nodup) :
    item ∈ stored ↔ first stored item.1 = some item := by
  constructor
  · intro hmem
    cases hfirst : first stored item.1 with
    | none => exact absurd (List.mem_map_of_mem hmem) (first_eq_none.mp hfirst)
    | some item' =>
        have hmem' : item' ∈ stored := List.mem_of_find?_eq_some hfirst
        rw [List.inj_on_of_nodup_map h hmem' hmem (key_of_first hfirst)]
  · intro hfirst
    exact List.mem_of_find?_eq_some hfirst

/-- **An item is stored after it has been offered** if and only if no other item came first under its
key. -/
theorem mem_offers_iff (h : (stored.map Prod.fst).Nodup) :
    item ∈ offers stored items ↔ first (stored ++ items) item.1 = some item := by
  rw [mem_iff_first (nodup_offers h), first_offers]

end FirstWins
