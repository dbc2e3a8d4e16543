import AgentBeacon.Projects.Slugs
import Mathlib.Data.List.Nodup

/-!
# `Projects.Store` — the table of projects

The statements of `db/projects.rs`, each over the rows as it finds them, and the backfill of migration 26.
A deleted project keeps its row; the index `idx_projects_slug_active` is over the others.
-/

namespace AgentBeacon
namespace Projects

/-- A row of `projects`. -/
structure Project where
  id : List Char
  name : List Char
  slug : Option (List Char)
  path : List Char
  settings : List Char
  deleted : Bool
  deriving DecidableEq

/-- Two rows that the unique index does not allow together. -/
def SlugsClash (p q : Project) : Prop :=
  p.deleted = false ∧ q.deleted = false ∧ p.slug.isSome = true ∧ p.slug = q.slug

instance (p q : Project) : Decidable (SlugsClash p q) := inferInstanceAs (Decidable (_ ∧ _ ∧ _ ∧ _))

/-- The primary key and the unique index. -/
def Accepted (rows : List Project) : Prop :=
  rows.Pairwise fun p q => p.id ≠ q.id ∧ ¬SlugsClash p q

instance (rows : List Project) : Decidable (Accepted rows) :=
  inferInstanceAs (Decidable (rows.Pairwise fun p q => p.id ≠ q.id ∧ ¬SlugsClash p q))

/-- A write leaves its rows, or nothing where a key is taken. -/
def write (rows : List Project) : Option (List Project) :=
  if Accepted rows then some rows else none

/-! ## Statements -/

variable (rows : List Project)

/-- The `INSERT` of `create`. -/
def insertProject (p : Project) : Option (List Project) := write (rows ++ [p])

/-- `resolve`: the rows with the id come first. -/
def resolve? (idOrSlug : List Char) : Option Project :=
  (rows.find? fun p => !p.deleted && p.id = idOrSlug).or
    (rows.find? fun p => !p.deleted && p.slug = some idOrSlug)

/-- `get_by_id`. -/
def getById? (id : List Char) : Option Project := rows.find? fun p => p.id = id && !p.deleted

/-- `slug_taken`. -/
def slugTaken (slug : List Char) (excludeId : Option (List Char)) : Bool :=
  rows.any fun p => p.slug = some slug && !p.deleted && excludeId != some p.id

/-- `count_by_path`. -/
def countByPath (path : List Char) : Nat := rows.countP fun p => p.path = path && !p.deleted

/-- What `update` sets. -/
structure Changes where
  name : Option (List Char)
  path : Option (List Char)
  settings : Option (List Char)
  slug : Option (List Char)

/-- The columns that are set. -/
def Changes.apply (c : Changes) (p : Project) : Project :=
  { p with
    name := c.name.getD p.name
    slug := c.slug.or p.slug
    path := c.path.getD p.path
    settings := c.settings.getD p.settings }

/-- The `UPDATE` of `update`. -/
def updateProject (id : List Char) (c : Changes) : Option (List Project) :=
  write (rows.map fun p => if p.id = id && !p.deleted then c.apply p else p)

/-- The `UPDATE` of `soft_delete`. -/
def softDelete (id : List Char) : Option (List Project) :=
  write (rows.map fun p => if p.id = id && !p.deleted then { p with deleted := true } else p)

/-- The rows that an `UPDATE` of an active project matches. -/
def affected (id : List Char) : Nat := rows.countP fun p => p.id = id && !p.deleted

/-! ## The backfill -/

/-- The slugs of `taken` behind the first loop of `backfill_slugs`. -/
def takenSlugs : List (List Char) := rows.filterMap Project.slug

/-- `pending`: the ids of the slugless projects, each with its candidate. -/
def pendingSlugs : List (List Char × List Char) :=
  (rows.filter fun p => p.slug.isNone).map fun p => (p.id, deriveSlug p.name p.id)

/-- The `UPDATE` of `backfill_slugs`. -/
def setSlug (slug id : List Char) : Option (List Project) :=
  write (rows.map fun p => if p.id = id then { p with slug := some slug } else p)

/-- The last loop of `backfill_slugs`, with `counts` and the slugs taken so far. -/
def fillSlugs (counts : List Char → Nat) : List (List Char) → List (List Char × List Char) → List Project →
    Option (List Project)
  | _, [], rows => some rows
  | taken, (id, candidate) :: pending, rows =>
      let slug := if counts candidate = 1 && !taken.contains candidate then candidate else id
      (setSlug rows slug id).bind (fillSlugs counts (slug :: taken) pending)

/-- `backfill_slugs`, over the rows in the order in which they are read. With the rows it leaves comes how
many were filled. -/
def backfillSlugs (read rows : List Project) : Option (Nat × List Project) :=
  let pending := pendingSlugs read
  (fillSlugs (fun candidate => (pending.map Prod.snd).count candidate) (takenSlugs read) pending rows).map
    fun rows => (pending.length, rows)

/-! ## Rows that may stand together -/

variable {rows}

theorem write_some {rows' : List Project} (h : write rows = some rows') : rows' = rows ∧ Accepted rows := by
  unfold write at h
  split at h
  · next haccepted =>
      cases h
      exact ⟨rfl, haccepted⟩
  · cases h

theorem write_accepted (h : Accepted rows) : write rows = some rows := if_pos h

theorem SlugsClash.symm {p q : Project} (h : SlugsClash p q) : SlugsClash q p := by
  obtain ⟨hp, hq, hsome, heq⟩ := h
  exact ⟨hq, hp, heq ▸ hsome, heq.symm⟩

/-- Rows with different ids and slugs, told element by element. -/
theorem accepted_iff : Accepted rows ↔ (rows.map Project.id).Nodup ∧
    ∀ p ∈ rows, ∀ q ∈ rows, p.id ≠ q.id → ¬SlugsClash p q := by
  constructor
  · intro h
    refine ⟨?_, ?_⟩
    · rw [List.Nodup, List.pairwise_map]
      exact h.imp fun hpq => hpq.1
    · intro p hp q hq hne
      refine List.Pairwise.forall_of_forall_of_flip (R := fun p q => p.id ≠ q.id → ¬SlugsClash p q) ?_ ?_ ?_ hp hq hne
      · intro r _ hr
        exact absurd rfl hr
      · exact h.imp fun hpq _ => hpq.2
      · exact h.imp fun hpq _ hclash => hpq.2 hclash.symm
  · rintro ⟨hids, hslugs⟩
    have hnodup : rows.Nodup := hids.of_map _
    refine hnodup.pairwise_of_forall_ne ?_
    intro p hp q hq hne
    have hid : p.id ≠ q.id := by
      intro heq
      exact hne (List.inj_on_of_nodup_map hids hp hq heq)
    exact ⟨hid, hslugs p hp q hq hid⟩

theorem Accepted.same_of_id (h : Accepted rows) {p q : Project} (hp : p ∈ rows) (hq : q ∈ rows)
    (hid : p.id = q.id) : p = q :=
  List.inj_on_of_nodup_map (accepted_iff.mp h).1 hp hq hid

end Projects
end AgentBeacon
