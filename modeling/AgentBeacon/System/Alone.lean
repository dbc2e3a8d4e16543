import AgentBeacon.Lib.Alone
import AgentBeacon.System.Reconcile
import Mathlib.Data.Fintype.EquivFin

/-!
# `System.Alone` — requests that no other request interferes with

A read of a request that runs alone finds the database as the request left it; and when no database operation
fails, it is answered.
-/

namespace AgentBeacon
open Interleave

/-- No database operation fails. -/
def Faultless (env : Env) (_ : Store) : Prop := env.fault = none

/-- **A read that does not fail.** -/
theorem always_query {α β : Type} {may : Env → Store → Prop} (hmay : ∀ env store, may env store → env.fault = none)
    {f : Env → Db → α} {k : Except SchedulerError α → Request β} {Q : β → Store → Prop} {store : Store}
    (h : ∀ env, Always (M := scheduler) may (k (.ok (f env store.db))) Q store) :
    Always (M := scheduler) may (query f >>= k) Q store := by
  refine ⟨⟨⟨0, "", "", 0, none, false⟩, rfl⟩, fun env _ hgood => ?_⟩
  have hreply : (Op.exec (.read fun env store => f env (Store.db store)) env store).1 =
      (.ok (f env store.db) : Except SchedulerError α) := by
    unfold Op.exec
    dsimp only
    rw [hmay env store hgood]
  show Always (M := scheduler) may (k (Op.exec (.read fun env store => f env (Store.db store)) env store).1) Q store
  rw [hreply]
  exact h env

/-- The same in a handler. -/
theorem always_attempt_query {α β : Type} {may : Env → Store → Prop}
    (hmay : ∀ env store, may env store → env.fault = none) {f : Env → Db → α} {k : α → Handler β}
    {Q : Except SchedulerError β → Store → Prop} {store : Store}
    (h : ∀ env, Always (M := scheduler) may (k (f env store.db)).run Q store) :
    Always (M := scheduler) may (attempt (query f) >>= k).run Q store :=
  always_query (k := ExceptT.bindCont k) hmay h

/-- A session that is there is found. -/
theorem always_getSession {β : Type} {may : Env → Store → Prop} (hmay : ∀ env store, may env store → env.fault = none)
    {id : SessionId} {s : Session} {k : Session → Handler β} {Q : Except SchedulerError β → Store → Prop}
    {store : Store} (hs : store.db.session? id = some s) (h : Always (M := scheduler) may (k s).run Q store) :
    Always (M := scheduler) may (attempt (getSession id) >>= k).run Q store := by
  show Always (M := scheduler) may (query (fun _ db => db.session? id) >>= fun row =>
    ExceptT.bindCont k (orNotFound ("session not found: " ++ id) row)) Q store
  refine always_query hmay fun _ => ?_
  rw [hs]
  exact h

/-- A session that is there, in its execution, is looked up. -/
theorem always_lookup {β : Type} {may : Env → Store → Prop} (hmay : ∀ env store, may env store → env.fault = none)
    {id : SessionId} {row : Session} {k : Except Rejected Session → Request β} {Q : β → Store → Prop}
    {store : Store} (hrow : store.db.session? id = some row)
    (h : Always (M := scheduler) may (k (.ok row)) Q store) :
    Always (M := scheduler) may (lookup row.executionId id >>= k) Q store := by
  show Always (M := scheduler) may (query (fun _ db => db.session? id) >>= _) Q store
  refine always_query hmay fun _ => ?_
  rw [hrow]
  show Always (M := scheduler) may (k (if row.executionId = row.executionId then .ok row else .error .notFound)) Q
    store
  rw [if_pos rfl]
  exact h

/-- A transaction: some identifier has not been drawn yet. -/
theorem always_issue {α : Type} {may : Env → Store → Prop} {w : Write} {k : w.transaction.Reply → Request α}
    {Q : α → Store → Prop} {store : Store}
    (h : ∀ env store', may env store → store'.db = (w.run env store.db).2 →
      Always (M := scheduler) may (k (w.run env store.db).1) Q store') :
    Always (M := scheduler) may (issue w >>= k) Q store := by
  refine ⟨?_, fun env _ hmay => h env _ hmay rfl⟩
  obtain ⟨uuid, hfresh⟩ := Infinite.exists_notMem_finset store.drawn.toFinset
  exact ⟨⟨0, uuid, "", 0, none, false⟩, decide_eq_true fun hmem => hfresh (List.mem_toFinset.mpr hmem)⟩

end AgentBeacon
