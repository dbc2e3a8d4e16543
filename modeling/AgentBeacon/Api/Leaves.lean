import AgentBeacon.Api.PayloadBudget
import AgentBeacon.Correctness.MarkerSize

/-!
# `Api.Leaves` — the strings of a payload, by their paths

Shortening a payload changes strings and nothing else. `mapLeaves` says so by its type of argument; writing
at the path of a string is one such change, and the length of the payload is that of its strings and of the rest.
-/

namespace AgentBeacon.PayloadBudget
open Json

mutual

/-- The value with every string replaced, given its path. -/
def mapLeaves : Json → (Path → String → String) → Json
  | .str s, f => .str (f [] s)
  | .arr items, f => .arr (mapItems items 0 f)
  | .obj members, f => .obj (mapMembers members f)
  | .null, _ => .null
  | .bool b, _ => .bool b
  | .int n, _ => .int n
  | .number literal, _ => .number literal

def mapItems : List Json → Nat → (Path → String → String) → List Json
  | [], _, _ => []
  | item :: items, i, f => mapLeaves item (fun p => f (.index i :: p)) :: mapItems items (i + 1) f

def mapMembers : List (String × Json) → (Path → String → String) → List (String × Json)
  | [], _ => []
  | (k, item) :: members, f => (k, mapLeaves item fun p => f (.key k :: p)) :: mapMembers members f

end

mutual

/-- The strings of a value with their paths. -/
def leaves : Json → List (Path × String)
  | .str s => [([], s)]
  | .arr items => leavesItems 0 items
  | .obj members => leavesMembers members
  | _ => []

def leavesItems (i : Nat) : List Json → List (Path × String)
  | [] => []
  | item :: items => (leaves item).map (fun l => (.index i :: l.1, l.2)) ++ leavesItems (i + 1) items

def leavesMembers : List (String × Json) → List (Path × String)
  | [] => []
  | (k, item) :: members => (leaves item).map (fun l => (.key k :: l.1, l.2)) ++ leavesMembers members

end

mutual

/-- No object has two members of one key, as `serde_json::Map` has it. -/
def Keyed : Json → Prop
  | .arr items => KeyedItems items
  | .obj members => (members.map Prod.fst).Nodup ∧ KeyedMembers members
  | _ => True

def KeyedItems : List Json → Prop
  | [] => True
  | item :: items => Keyed item ∧ KeyedItems items

def KeyedMembers : List (String × Json) → Prop
  | [] => True
  | (_, item) :: members => Keyed item ∧ KeyedMembers members

end

/-! ## Replacing strings -/

mutual

/-- Two ways of replacing that agree on the strings of a value make the same of it. -/
theorem mapLeaves_congr : ∀ (v : Json) {f g : Path → String → String},
    (∀ l ∈ leaves v, f l.1 l.2 = g l.1 l.2) → mapLeaves v f = mapLeaves v g
  | .str s, f, g, h => by
      have hs := h ([], s) (by simp [leaves])
      simp only [mapLeaves]
      exact congrArg Json.str hs
  | .arr items, f, g, h => by
      simp only [mapLeaves]
      rw [mapItems_congr items 0 h]
  | .obj members, f, g, h => by
      simp only [mapLeaves]
      rw [mapMembers_congr members h]
  | .null, _, _, _ => rfl
  | .bool _, _, _, _ => rfl
  | .int _, _, _, _ => rfl
  | .number _, _, _, _ => rfl

theorem mapItems_congr : ∀ (items : List Json) (i : Nat) {f g : Path → String → String},
    (∀ l ∈ leavesItems i items, f l.1 l.2 = g l.1 l.2) → mapItems items i f = mapItems items i g
  | [], _, _, _, _ => rfl
  | item :: items, i, f, g, h => by
      have hitem : mapLeaves item (fun p => f (.index i :: p)) = mapLeaves item fun p => g (.index i :: p) :=
        mapLeaves_congr item fun l hl => h (.index i :: l.1, l.2)
          (List.mem_append_left _ (List.mem_map.mpr ⟨l, hl, rfl⟩))
      simp only [mapItems]
      rw [hitem, mapItems_congr items (i + 1) fun l hl => h l (List.mem_append_right _ hl)]

theorem mapMembers_congr : ∀ (members : List (String × Json)) {f g : Path → String → String},
    (∀ l ∈ leavesMembers members, f l.1 l.2 = g l.1 l.2) → mapMembers members f = mapMembers members g
  | [], _, _, _ => rfl
  | (k, item) :: members, f, g, h => by
      have hitem : mapLeaves item (fun p => f (.key k :: p)) = mapLeaves item fun p => g (.key k :: p) :=
        mapLeaves_congr item fun l hl => h (.key k :: l.1, l.2)
          (List.mem_append_left _ (List.mem_map.mpr ⟨l, hl, rfl⟩))
      simp only [mapMembers]
      rw [hitem, mapMembers_congr members fun l hl => h l (List.mem_append_right _ hl)]

end

mutual

theorem mapLeaves_id : ∀ v : Json, mapLeaves v (fun _ s => s) = v
  | .str _ => rfl
  | .arr items => by rw [mapLeaves, mapItems_id items 0]
  | .obj members => by rw [mapLeaves, mapMembers_id members]
  | .null => rfl
  | .bool _ => rfl
  | .int _ => rfl
  | .number _ => rfl

theorem mapItems_id : ∀ (items : List Json) (i : Nat), mapItems items i (fun _ s => s) = items
  | [], _ => rfl
  | item :: items, i => by rw [mapItems, mapLeaves_id item, mapItems_id items (i + 1)]

theorem mapMembers_id : ∀ members : List (String × Json), mapMembers members (fun _ s => s) = members
  | [] => rfl
  | (k, item) :: members => by rw [mapMembers, mapLeaves_id item, mapMembers_id members]

end

mutual

/-- **Replacing twice is replacing once.** -/
theorem mapLeaves_mapLeaves : ∀ (v : Json) (f g : Path → String → String),
    mapLeaves (mapLeaves v f) g = mapLeaves v fun p s => g p (f p s)
  | .str _, _, _ => rfl
  | .arr items, f, g => by
      simp only [mapLeaves]
      rw [mapItems_mapItems items 0 f g]
  | .obj members, f, g => by
      simp only [mapLeaves]
      rw [mapMembers_mapMembers members f g]
  | .null, _, _ => rfl
  | .bool _, _, _ => rfl
  | .int _, _, _ => rfl
  | .number _, _, _ => rfl

theorem mapItems_mapItems : ∀ (items : List Json) (i : Nat) (f g : Path → String → String),
    mapItems (mapItems items i f) i g = mapItems items i fun p s => g p (f p s)
  | [], _, _, _ => rfl
  | item :: items, i, f, g => by
      simp only [mapItems]
      rw [mapLeaves_mapLeaves item, mapItems_mapItems items (i + 1) f g]

theorem mapMembers_mapMembers : ∀ (members : List (String × Json)) (f g : Path → String → String),
    mapMembers (mapMembers members f) g = mapMembers members fun p s => g p (f p s)
  | [], _, _ => rfl
  | (k, item) :: members, f, g => by
      simp only [mapMembers]
      rw [mapLeaves_mapLeaves item, mapMembers_mapMembers members f g]

end

mutual

/-- **The strings after replacing.** -/
theorem leaves_mapLeaves : ∀ (v : Json) (f : Path → String → String),
    leaves (mapLeaves v f) = (leaves v).map fun l => (l.1, f l.1 l.2)
  | .str _, _ => rfl
  | .arr items, f => by
      simp only [mapLeaves, leaves]
      exact leavesItems_mapItems items 0 f
  | .obj members, f => by
      simp only [mapLeaves, leaves]
      exact leavesMembers_mapMembers members f
  | .null, _ => rfl
  | .bool _, _ => rfl
  | .int _, _ => rfl
  | .number _, _ => rfl

theorem leavesItems_mapItems : ∀ (items : List Json) (i : Nat) (f : Path → String → String),
    leavesItems i (mapItems items i f) = (leavesItems i items).map fun l => (l.1, f l.1 l.2)
  | [], _, _ => rfl
  | item :: items, i, f => by
      simp only [mapItems, leavesItems]
      rw [leaves_mapLeaves item, leavesItems_mapItems items (i + 1) f, List.map_append, List.map_map, List.map_map]
      rfl

theorem leavesMembers_mapMembers : ∀ (members : List (String × Json)) (f : Path → String → String),
    leavesMembers (mapMembers members f) = (leavesMembers members).map fun l => (l.1, f l.1 l.2)
  | [], _ => rfl
  | (k, item) :: members, f => by
      simp only [mapMembers, leavesMembers]
      rw [leaves_mapLeaves item, leavesMembers_mapMembers members f, List.map_append, List.map_map, List.map_map]
      rfl

end

theorem keys_mapMembers (members : List (String × Json)) (f : Path → String → String) :
    (mapMembers members f).map Prod.fst = members.map Prod.fst := by
  induction members with
  | nil => rfl
  | cons m members ih =>
      obtain ⟨k, item⟩ := m
      simp [mapMembers, ih]

mutual

theorem keyed_mapLeaves : ∀ (v : Json) (f : Path → String → String), Keyed v → Keyed (mapLeaves v f)
  | .str _, _, _ => trivial
  | .arr items, f, h => keyedItems_mapItems items 0 f h
  | .obj members, f, h => ⟨by rw [keys_mapMembers]; exact h.1, keyedMembers_mapMembers members f h.2⟩
  | .null, _, _ => trivial
  | .bool _, _, _ => trivial
  | .int _, _, _ => trivial
  | .number _, _, _ => trivial

theorem keyedItems_mapItems : ∀ (items : List Json) (i : Nat) (f : Path → String → String),
    KeyedItems items → KeyedItems (mapItems items i f)
  | [], _, _, _ => trivial
  | item :: items, i, f, h => ⟨keyed_mapLeaves item _ h.1, keyedItems_mapItems items (i + 1) f h.2⟩

theorem keyedMembers_mapMembers : ∀ (members : List (String × Json)) (f : Path → String → String),
    KeyedMembers members → KeyedMembers (mapMembers members f)
  | [], _, _ => trivial
  | (_, item) :: members, f, h => ⟨keyed_mapLeaves item _ h.1, keyedMembers_mapMembers members f h.2⟩

end

/-! ## Paths -/

theorem index_of_mem_leavesItems {items : List Json} {i : Nat} {l : Path × String} (h : l ∈ leavesItems i items) :
    ∃ j p, i ≤ j ∧ l.1 = .index j :: p := by
  induction items generalizing i with
  | nil => simp [leavesItems] at h
  | cons item items ih =>
      simp only [leavesItems, List.mem_append, List.mem_map] at h
      rcases h with ⟨leaf, _, rfl⟩ | htail
      · exact ⟨i, leaf.1, Nat.le_refl i, rfl⟩
      · obtain ⟨j, p, hle, hp⟩ := ih htail
        exact ⟨j, p, by omega, hp⟩

theorem key_of_mem_leavesMembers {members : List (String × Json)} {l : Path × String}
    (h : l ∈ leavesMembers members) : ∃ k p, k ∈ members.map Prod.fst ∧ l.1 = .key k :: p := by
  induction members with
  | nil => simp [leavesMembers] at h
  | cons m members ih =>
      obtain ⟨key, item⟩ := m
      simp only [leavesMembers, List.mem_append, List.mem_map] at h
      rcases h with ⟨leaf, _, rfl⟩ | htail
      · exact ⟨key, leaf.1, by simp, rfl⟩
      · obtain ⟨k, p, hk, hp⟩ := ih htail
        exact ⟨k, p, List.mem_cons_of_mem _ hk, hp⟩

/-- Paths stay different behind one segment. -/
theorem nodup_behind (seg : Seg) {ls : List (Path × String)} (h : (ls.map Prod.fst).Nodup) :
    ((ls.map fun l => (seg :: l.1, l.2)).map Prod.fst).Nodup := by
  have hmap : (ls.map fun l => (seg :: l.1, l.2)).map Prod.fst = (ls.map Prod.fst).map (seg :: ·) := by
    simp [List.map_map, Function.comp_def]
  rw [hmap]
  exact h.map fun p q hpq => (List.cons.inj hpq).2

mutual

/-- **No two strings have one path.** -/
theorem nodup_leaves : ∀ v : Json, Keyed v → ((leaves v).map Prod.fst).Nodup
  | .str _, _ => by simp [leaves]
  | .arr items, h => nodup_leavesItems items 0 h
  | .obj members, h => nodup_leavesMembers members h.1 h.2
  | .null, _ => List.nodup_nil
  | .bool _, _ => List.nodup_nil
  | .int _, _ => List.nodup_nil
  | .number _, _ => List.nodup_nil

theorem nodup_leavesItems : ∀ (items : List Json) (i : Nat), KeyedItems items →
    ((leavesItems i items).map Prod.fst).Nodup
  | [], _, _ => List.nodup_nil
  | item :: items, i, h => by
      have hitem := nodup_behind (.index i) (nodup_leaves item h.1)
      have hitems := nodup_leavesItems items (i + 1) h.2
      rw [leavesItems, List.map_append]
      refine List.nodup_append.mpr ⟨hitem, hitems, ?_⟩
      intro p hp q hq heq
      obtain ⟨l, hl, rfl⟩ := List.mem_map.mp hp
      obtain ⟨leaf, _, rfl⟩ := List.mem_map.mp hl
      obtain ⟨m, hm, rfl⟩ := List.mem_map.mp hq
      obtain ⟨j, tail, hle, hj⟩ := index_of_mem_leavesItems hm
      -- the paths of the others begin with a later index
      rw [hj] at heq
      have : i = j := by simpa using (List.cons.inj heq).1
      omega

theorem nodup_leavesMembers : ∀ members : List (String × Json), (members.map Prod.fst).Nodup →
    KeyedMembers members → ((leavesMembers members).map Prod.fst).Nodup
  | [], _, _ => List.nodup_nil
  | (key, item) :: members, hkeys, h => by
      rw [List.map_cons, List.nodup_cons] at hkeys
      have hitem := nodup_behind (.key key) (nodup_leaves item h.1)
      have hmembers := nodup_leavesMembers members hkeys.2 h.2
      rw [leavesMembers, List.map_append]
      refine List.nodup_append.mpr ⟨hitem, hmembers, ?_⟩
      intro p hp q hq heq
      obtain ⟨l, hl, rfl⟩ := List.mem_map.mp hp
      obtain ⟨leaf, _, rfl⟩ := List.mem_map.mp hl
      obtain ⟨m, hm, rfl⟩ := List.mem_map.mp hq
      obtain ⟨k, tail, hk, hm'⟩ := key_of_mem_leavesMembers hm
      -- the paths of the others begin with another key
      rw [hm'] at heq
      have hkey : key = k := by simpa using (List.cons.inj heq).1
      exact hkeys.1 (hkey ▸ hk)

end

mutual

/-- **The strings that are collected**, with their lengths. -/
theorem collect_eq : ∀ (path : Path) (v : Json),
    collect path v = (leaves v).map fun l => (path ++ l.1, l.2.utf8ByteSize)
  | path, .str s => by simp [collect, leaves]
  | path, .arr items => by
      rw [collect, leaves]
      exact collectItems_eq path 0 items
  | path, .obj members => by
      rw [collect, leaves]
      exact collectMembers_eq path members
  | _, .null => rfl
  | _, .bool _ => rfl
  | _, .int _ => rfl
  | _, .number _ => rfl

theorem collectItems_eq : ∀ (path : Path) (i : Nat) (items : List Json),
    collectItems path i items = (leavesItems i items).map fun l => (path ++ l.1, l.2.utf8ByteSize)
  | _, _, [] => rfl
  | path, i, item :: items => by
      rw [collectItems, leavesItems, collect_eq (path ++ [Seg.index i]) item, collectItems_eq path (i + 1) items,
        List.map_append, List.map_map]
      simp [Function.comp_def]

theorem collectMembers_eq : ∀ (path : Path) (members : List (String × Json)),
    collectMembers path members = (leavesMembers members).map fun l => (path ++ l.1, l.2.utf8ByteSize)
  | _, [] => rfl
  | path, (key, item) :: members => by
      rw [collectMembers, leavesMembers, collect_eq (path ++ [Seg.key key]) item, collectMembers_eq path members,
        List.map_append, List.map_map]
      simp [Function.comp_def]

end

/-! ## Reading and writing at a path -/

theorem keyed_of_mem_items {items : List Json} {item : Json} (h : KeyedItems items) (hmem : item ∈ items) :
    Keyed item := by
  induction items with
  | nil => simp at hmem
  | cons first items ih =>
      rcases List.mem_cons.mp hmem with rfl | htail
      · exact h.1
      · exact ih h.2 htail

theorem keyed_of_mem_members {members : List (String × Json)} {m : String × Json} (h : KeyedMembers members)
    (hmem : m ∈ members) : Keyed m.2 := by
  induction members with
  | nil => simp at hmem
  | cons first members ih =>
      rcases List.mem_cons.mp hmem with rfl | htail
      · exact h.1
      · exact ih h.2 htail

theorem mem_leavesItems {items : List Json} {i : Nat} {l : Path × String} (h : l ∈ leavesItems i items) :
    ∃ j item leaf, items[j]? = some item ∧ leaf ∈ leaves item ∧ l = (.index (i + j) :: leaf.1, leaf.2) := by
  induction items generalizing i with
  | nil => simp [leavesItems] at h
  | cons item items ih =>
      simp only [leavesItems, List.mem_append, List.mem_map] at h
      rcases h with ⟨leaf, hleaf, rfl⟩ | htail
      · exact ⟨0, item, leaf, rfl, hleaf, rfl⟩
      · obtain ⟨j, item', leaf, hj, hleaf, rfl⟩ := ih htail
        refine ⟨j + 1, item', leaf, by simpa using hj, hleaf, ?_⟩
        rw [Nat.add_assoc, Nat.add_comm 1 j]

theorem mem_leavesMembers {members : List (String × Json)} {l : Path × String} (h : l ∈ leavesMembers members) :
    ∃ m leaf, m ∈ members ∧ leaf ∈ leaves m.2 ∧ l = (.key m.1 :: leaf.1, leaf.2) := by
  induction members with
  | nil => simp [leavesMembers] at h
  | cons m members ih =>
      obtain ⟨key, item⟩ := m
      simp only [leavesMembers, List.mem_append, List.mem_map] at h
      rcases h with ⟨leaf, hleaf, rfl⟩ | htail
      · exact ⟨(key, item), leaf, List.mem_cons_self, hleaf, rfl⟩
      · obtain ⟨m', leaf, hm, hleaf, rfl⟩ := ih htail
        exact ⟨m', leaf, List.mem_cons_of_mem _ hm, hleaf, rfl⟩

theorem lookup_of_mem {members : List (String × Json)} (hkeys : (members.map Prod.fst).Nodup) {m : String × Json}
    (hmem : m ∈ members) : members.lookup m.1 = some m.2 := by
  induction members with
  | nil => simp at hmem
  | cons first members ih =>
      obtain ⟨key, item⟩ := first
      rw [List.map_cons, List.nodup_cons] at hkeys
      rcases List.mem_cons.mp hmem with rfl | htail
      · simp
      · have hne : m.1 ≠ key := by
          intro heq
          exact hkeys.1 (heq ▸ List.mem_map.mpr ⟨m, htail, rfl⟩)
        rw [List.lookup_cons, beq_eq_false_iff_ne.mpr hne]
        exact ih hkeys.2 htail

/-- **The string at its path.** -/
theorem atPath_of_mem {p : Path} {t : String} {v : Json} (hkeyed : Keyed v) (h : (p, t) ∈ leaves v) :
    atPath p v = some (.str t) := by
  induction p generalizing v with
  | nil =>
      cases v with
      | str s =>
          have hs : t = s := by simpa [leaves] using h
          rw [hs]
          rfl
      | arr items =>
          obtain ⟨j, item, leaf, _, _, heq⟩ := mem_leavesItems h
          simp at heq
      | obj members =>
          obtain ⟨m, leaf, _, _, heq⟩ := mem_leavesMembers h
          simp at heq
      | _ => simp [leaves] at h
  | cons seg p ih =>
      cases v with
      | str s => simp [leaves] at h
      | arr items =>
          obtain ⟨j, item, leaf, hj, hleaf, heq⟩ := mem_leavesItems h
          simp only [Nat.zero_add, Prod.mk.injEq, List.cons.injEq] at heq
          obtain ⟨⟨rfl, rfl⟩, rfl⟩ := heq
          have hitem := keyed_of_mem_items hkeyed (List.mem_of_getElem? hj)
          show items[j]?.bind (atPath leaf.1) = _
          rw [hj]
          exact ih hitem hleaf
      | obj members =>
          obtain ⟨m, leaf, hm, hleaf, heq⟩ := mem_leavesMembers h
          simp only [Prod.mk.injEq, List.cons.injEq] at heq
          obtain ⟨⟨rfl, rfl⟩, rfl⟩ := heq
          show (members.lookup m.1).bind (atPath leaf.1) = _
          rw [lookup_of_mem hkeyed.1 hm]
          exact ih (keyed_of_mem_members hkeyed.2 hm) hleaf
      | _ => simp [leaves] at h

/-- Replace the string at one path. -/
def writing (p : Path) (s : String) (q : Path) (t : String) : String := if q = p then s else t

theorem mapLeaves_writing_ne {seg seg' : Seg} (hne : seg' ≠ seg) (p : Path) (s : String) (v : Json) :
    mapLeaves v (fun q => writing (seg :: p) s (seg' :: q)) = v := by
  rw [mapLeaves_congr v (g := fun _ t => t), mapLeaves_id]
  intro l _
  exact if_neg fun heq => hne (List.cons.inj heq).1

theorem mapLeaves_writing_same (seg : Seg) (p : Path) (s : String) (v : Json) :
    mapLeaves v (fun q => writing (seg :: p) s (seg :: q)) = mapLeaves v (writing p s) := by
  refine mapLeaves_congr v fun l _ => ?_
  simp [writing]

theorem mapMembers_eq (members : List (String × Json)) (f : Path → String → String) :
    mapMembers members f = members.map fun m => (m.1, mapLeaves m.2 fun p => f (.key m.1 :: p)) := by
  induction members with
  | nil => rfl
  | cons m members ih =>
      obtain ⟨key, item⟩ := m
      simp [mapMembers, ih]

theorem getElem?_mapItems (items : List Json) (i : Nat) (f : Path → String → String) (j : Nat) :
    (mapItems items i f)[j]? = items[j]?.map fun item => mapLeaves item fun p => f (.index (i + j) :: p) := by
  induction items generalizing i j with
  | nil => simp [mapItems]
  | cons item items ih =>
      cases j with
      | zero => simp [mapItems]
      | succ j =>
          have hij : i + 1 + j = i + (j + 1) := by omega
          simp [mapItems, ih, hij]

/-- **Writing at the path of a string replaces that string.** -/
theorem setAt_of_mem {p : Path} {t : String} {v : Json} (hkeyed : Keyed v) (h : (p, t) ∈ leaves v) (s : String) :
    setAt p (.str s) v = mapLeaves v (writing p s) := by
  induction p generalizing v with
  | nil =>
      cases v with
      | str s' => simp [setAt, mapLeaves, writing]
      | arr items =>
          obtain ⟨j, item, leaf, _, _, heq⟩ := mem_leavesItems h
          simp at heq
      | obj members =>
          obtain ⟨m, leaf, _, _, heq⟩ := mem_leavesMembers h
          simp at heq
      | _ => simp [leaves] at h
  | cons seg p ih =>
      cases v with
      | str s' => simp [leaves] at h
      | arr items =>
          obtain ⟨j, item, leaf, hj, hleaf, heq⟩ := mem_leavesItems h
          simp only [Nat.zero_add, Prod.mk.injEq, List.cons.injEq] at heq
          obtain ⟨⟨rfl, rfl⟩, rfl⟩ := heq
          have hitem := keyed_of_mem_items hkeyed (List.mem_of_getElem? hj)
          simp only [setAt, mapLeaves]
          refine congrArg Json.arr (List.ext_getElem? fun i => ?_)
          rw [List.getElem?_modify, getElem?_mapItems, Nat.zero_add]
          by_cases hi : j = i
          · subst hi
            simp only [hj, Option.map_some, if_true, Option.map_eq_map, Option.some.injEq]
            rw [mapLeaves_writing_same]
            exact ih hitem hleaf
          · have hne : Seg.index i ≠ .index j := by simpa using Ne.symm hi
            cases items[i]? with
            | none => rfl
            | some other => simp [hi, mapLeaves_writing_ne hne]
      | obj members =>
          obtain ⟨m, leaf, hm, hleaf, heq⟩ := mem_leavesMembers h
          simp only [Prod.mk.injEq, List.cons.injEq] at heq
          obtain ⟨⟨rfl, rfl⟩, rfl⟩ := heq
          -- the keys are different, so only the member itself is written
          simp only [setAt, mapLeaves, mapMembers_eq]
          refine congrArg Json.obj (List.map_congr_left fun n hn => ?_)
          by_cases hkey : n.1 = m.1
          · have hsame : n.2 = m.2 := by
              have hn' := lookup_of_mem hkeyed.1 hn
              rw [hkey, lookup_of_mem hkeyed.1 hm] at hn'
              exact (Option.some.inj hn').symm
            rw [if_pos hkey, hkey, mapLeaves_writing_same, hsame]
            exact congrArg (Prod.mk m.1) (ih (keyed_of_mem_members hkeyed.2 hm) hleaf)
          · have hne : Seg.key n.1 ≠ .key m.1 := by simpa using hkey
            rw [if_neg hkey, mapLeaves_writing_ne hne]
      | _ => simp [leaves] at h

/-! ## Lengths -/

/-- What the strings take in the serialization, their quotes apart. -/
def escapedTotal (ls : List (Path × String)) : Nat := (ls.map fun l => Resolution.escapedLen l.2).sum

theorem escapedTotal_append (ls ms : List (Path × String)) :
    escapedTotal (ls ++ ms) = escapedTotal ls + escapedTotal ms := by
  simp [escapedTotal]

theorem escapedTotal_behind (seg : Seg) (ls : List (Path × String)) :
    escapedTotal (ls.map fun l => (seg :: l.1, l.2)) = escapedTotal ls := by
  simp [escapedTotal, List.map_map, Function.comp_def]

mutual

/-- **The length of a value is that of its strings and of the rest**, which replacing does not change. -/
theorem serializedLength_mapLeaves : ∀ (v : Json) (f : Path → String → String),
    (mapLeaves v f).serializedLength + escapedTotal (leaves v) =
      v.serializedLength + escapedTotal (leaves (mapLeaves v f))
  | .str s, f => by
      simp only [mapLeaves, leaves, serializedLength_str, escapedTotal, List.map_cons, List.map_nil, List.sum_cons,
        List.sum_nil]
      omega
  | .arr items, f => by
      have hitems := sum_mapItems items 0 f
      have hleft := serializedLength_arr (mapItems items 0 f)
      have hright := serializedLength_arr items
      have hnil : mapItems items 0 f = [] ↔ items = [] := by cases items <;> simp [mapItems]
      simp only [hnil] at hleft
      simp only [mapLeaves, leaves]
      omega
  | .obj members, f => by
      have hmembers := sum_mapMembers members f
      have hleft := serializedLength_obj (mapMembers members f)
      have hright := serializedLength_obj members
      have hnil : mapMembers members f = [] ↔ members = [] := by cases members <;> simp [mapMembers]
      simp only [hnil] at hleft
      simp only [mapLeaves, leaves]
      omega
  | .null, _ => rfl
  | .bool _, _ => rfl
  | .int _, _ => rfl
  | .number _, _ => rfl

theorem sum_mapItems : ∀ (items : List Json) (i : Nat) (f : Path → String → String),
    ((mapItems items i f).map fun item => 1 + item.serializedLength).sum + escapedTotal (leavesItems i items) =
      (items.map fun item => 1 + item.serializedLength).sum + escapedTotal (leavesItems i (mapItems items i f))
  | [], _, _ => rfl
  | item :: items, i, f => by
      have hitem := serializedLength_mapLeaves item fun p => f (.index i :: p)
      have hitems := sum_mapItems items (i + 1) f
      simp only [mapItems, leavesItems, escapedTotal_append, escapedTotal_behind, List.map_cons, List.sum_cons]
      omega

theorem sum_mapMembers : ∀ (members : List (String × Json)) (f : Path → String → String),
    ((mapMembers members f).map fun m => 2 + utf8Length (quoted m.1) + m.2.serializedLength).sum +
        escapedTotal (leavesMembers members) =
      (members.map fun m => 2 + utf8Length (quoted m.1) + m.2.serializedLength).sum +
        escapedTotal (leavesMembers (mapMembers members f))
  | [], _ => rfl
  | (key, item) :: members, f => by
      have hitem := serializedLength_mapLeaves item fun p => f (.key key :: p)
      have hmembers := sum_mapMembers members f
      simp only [mapMembers, leavesMembers, escapedTotal_append, escapedTotal_behind, List.map_cons, List.sum_cons]
      omega

end

end AgentBeacon.PayloadBudget
