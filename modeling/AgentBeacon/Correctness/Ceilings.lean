import AgentBeacon.Correctness.CeilingCodec
import AgentBeacon.Services.Ceiling
import Mathlib.Data.List.Chain

/-!
# `Correctness.Ceilings` — the changes of a ceiling form a chain

A change reads the stored ceiling and writes the new one with its event under the lock of the execution. So the
last event of an execution always has the stored ceiling, and the next one goes on from there.
-/

namespace AgentBeacon
namespace Network
open Transaction Interleave Relational Tx

variable {outside : Outside} {env : CeilingEnv} {db db' : CeilingDb}

/-! ## Events -/

/-- The changes that some events record for an execution. -/
def changesIn (events : List CeilingEvent) (id : String) : List CeilingChange :=
  (events.filter fun e => e.executionId = id).filterMap changeOf

theorem changesIn_append (events : List CeilingEvent) (e : CeilingEvent) (id : String) :
    changesIn (events ++ [e]) id = changesIn events id ++ if e.executionId = id then (changeOf e).toList else [] := by
  unfold changesIn
  rw [List.filter_append, List.filterMap_append]
  by_cases h : e.executionId = id
  · rw [List.filter_cons_of_pos (by simpa using h), if_pos h]
    cases hchange : changeOf e <;> simp [hchange]
  · rw [List.filter_cons_of_neg (by simpa using h), if_neg h]
    rfl

/-- What a `ceiling_changed` event records. -/
theorem changeOf_payload (eventId : Int) (id : String) (ceiling : Ceiling) (previous : Option Ceiling)
    (changedBy changedAt : String) :
    changeOf ⟨eventId, id, "platform", ceilingChangedPayload outside id ceiling previous changedBy changedAt⟩ =
      some ⟨(previous.map fun c => c.toWire outside).getD .null, ceiling.toWire outside⟩ := by
  simp [changeOf, ceilingChangedPayload, Json.get, Json.asArray, Json.asStr, List.lookup_cons]

/-! ## The transactions -/

theorem wp_statement (s : Statement) (what : String) {Q : Unit → CeilingDb → Prop} :
    wp (statement env s what) Q (fun _ => True) db ↔ (env.fails s = false → Q () db) := by
  simp [statement]

theorem wp_selectExecution (id missing : String) {Q : CeilingRow → CeilingDb → Prop} :
    wp (selectExecution id missing) Q (fun _ => True) db ↔
      ∀ r, db.executions.find? (fun r => r.id = id) = some r → Q r db := by
  simp [selectExecution]

theorem wp_readCeiling (exec : CeilingRow) {Q : Ceiling → CeilingDb → Prop} :
    wp (readCeiling outside exec) Q (fun _ => True) db ↔
      ∀ c, Ceiling.fromColumns outside exec.ceilingMode exec.ceilingEntries = .ok c → Q c db := by
  unfold readCeiling
  cases hread : Ceiling.fromColumns outside exec.ceilingMode exec.ceilingEntries with
  | ok c => simp
  | error message => simp

/-- The event that a transaction has written for the ceiling it finds stored. -/
structure Announced (outside : Outside) (env : CeilingEnv) (id : String) (previous : Option Ceiling)
    (executions : List CeilingRow) (events events' : List CeilingEvent) : Prop where
  intro ::
  written : ∃ r ceiling changedBy changedAt, executions.find? (fun r => r.id = id) = some r ∧
    Ceiling.fromColumns outside r.ceilingMode r.ceilingEntries = .ok ceiling ∧
    events' = events ++
      [⟨env.eventId, id, "platform", ceilingChangedPayload outside id ceiling previous changedBy changedAt⟩]

theorem writeCeilingChanged_wp (id : String) (previous : Option Ceiling) :
    wp (writeCeilingChanged outside env id previous)
      (fun _ db' => db'.executions = db.executions ∧
        Announced outside env id previous db.executions db.events db'.events) (fun _ => True) db := by
  simp only [writeCeilingChanged, insertEvent, wp_bind, wp_statement, wp_selectExecution, wp_readCeiling,
    wp_ofOption, wp_write]
  intro _ r hr ceiling hceiling
  refine ⟨?_, fun _ => trivial⟩
  intro changedAt _ _
  exact ⟨trivial, ⟨r, ceiling, _, changedAt, hr, hceiling, rfl⟩⟩

/-- The row that `create_in_tx` inserts. -/
def launchRow (outside : Outside) (env : CeilingEnv) (id : String) (ceiling : Ceiling) : CeilingRow :=
  ⟨id, .run, none, (ceiling.toColumns outside).1, (ceiling.toColumns outside).2, some "user", some env.now⟩

theorem createExecution_wp (id : String) (ceiling : Ceiling) :
    wp (createExecution outside env id ceiling)
      (fun _ db' => (∀ r ∈ db.executions, r.id ≠ id) ∧
        db'.executions = db.executions ++ [launchRow outside env id ceiling] ∧
        (ceiling = .unsandboxed → db'.events = db.events) ∧
        (ceiling ≠ .unsandboxed →
          Announced outside env id none db'.executions db.events db'.events)) (fun _ => True) db := by
  simp only [createExecution, createInTx, wp_bind, wp_statement, wp_read, wp_require, wp_write, wp_when]
  intro _ _
  refine ⟨?_, fun _ => trivial⟩
  intro hnew _
  constructor
  · intro hsandboxed
    refine wp_mono (writeCeilingChanged_wp id none) ?_ fun _ _ => trivial
    rintro _ db' ⟨hexecutions, hannounced⟩
    refine ⟨hnew, hexecutions, fun h => absurd h hsandboxed, ?_⟩
    intro _
    rw [hexecutions]
    exact hannounced
  · intro hunsandboxed
    have hceiling := not_not.mp hunsandboxed
    exact ⟨hnew, rfl, fun _ => trivial, fun h => absurd hceiling h⟩

/-- The rows behind the `UPDATE` of `set_ceiling`. -/
def updatedRows (outside : Outside) (env : CeilingEnv) (id : String) (ceiling : Ceiling)
    (executions : List CeilingRow) : List CeilingRow :=
  executions.map fun r => if Changeable id r then r.withCeiling outside env ceiling else r

theorem setCeiling_wp (id : String) (ceiling : Ceiling) :
    wp (setCeiling outside env id ceiling)
      (fun changed db' => (changed = false → db' = db) ∧ (changed = true →
        ∃ exec current, db.executions.find? (fun r => r.id = id) = some exec ∧ Changeable id exec ∧
          Ceiling.fromColumns outside exec.ceilingMode exec.ceilingEntries = .ok current ∧
          current ≠ .unsandboxed ∧ db'.executions = updatedRows outside env id ceiling db.executions ∧
          Announced outside env id (some current) db'.executions db.events db'.events)) (fun _ => True) db := by
  simp only [setCeiling, updateCeiling, beginExecutionTx, wp_bind, wp_statement, wp_selectExecution,
    wp_readCeiling, wp_read, wp_require, wp_write, wp_ite, wp_pure]
  intro _ _ _ _ _ exec hexec
  refine ⟨?_, fun _ => trivial⟩
  intro hlive current hcurrent
  refine ⟨?_, fun _ => trivial⟩
  intro hsandboxed
  constructor
  · intro _
    simp
  · intro _ _
    refine ⟨?_, fun _ => trivial⟩
    intro _
    refine wp_mono (writeCeilingChanged_wp id (some current)) ?_ fun _ _ => trivial
    rintro _ db' ⟨hexecutions, hannounced⟩
    refine ⟨by simp, fun _ => ⟨exec, current, hexec, ?_, hcurrent, hsandboxed, hexecutions, ?_⟩⟩
    · obtain ⟨hdesired, houtcome⟩ := not_or.mp hlive
      refine ⟨by simpa using List.find?_some hexec, ?_, by simpa using houtcome⟩
      cases hd : exec.desired with
      | run => rfl
      | terminate => exact absurd hd hdesired
    · rw [hexecutions]
      exact hannounced

theorem settleExecution_wp (id : String) (desired : ExecutionDesired) (outcome : Option Outcome) :
    wp (settleExecution env id desired outcome)
      (fun _ db' => db'.executions = (db.executions.map fun r => if r.id = id then { r with desired, outcome } else r) ∧
        db'.events = db.events) (fun _ => True) db := by
  simp only [settleExecution, beginExecutionTx, wp_bind, wp_statement, wp_selectExecution, wp_write, wp_pure]
  intros
  exact ⟨trivial, trivial⟩

theorem insertEvent_wp (executionId eventType : String) (payload : Json) :
    wp (insertEvent env executionId eventType payload)
      (fun _ db' => db'.executions = db.executions ∧
        db'.events = db.events ++ [⟨env.eventId, executionId, eventType, payload⟩]) (fun _ => True) db := by
  simp only [insertEvent, wp_bind, wp_statement, wp_write]
  intro _
  exact ⟨trivial, trivial⟩

/-- A transaction leaves the state that its body promises, or none of its writes. -/
theorem commitTx_cases {α : Type} {body : CeilingTx α} {Q : α → CeilingDb → Prop}
    (h : wp body Q (fun _ => True) db) :
    (commitTx env body db).2 = db ∨
      ∃ a, Q a (commitTx env body db).2 ∧ ∀ b, (commitTx env body db).1 = .ok b → b = a := by
  unfold commitTx
  unfold wp at h
  cases hbody : body db with
  | error e => exact .inl rfl
  | ok result =>
      obtain ⟨a, written⟩ := result
      rw [hbody] at h
      cases env.commit with
      | none =>
          refine .inr ⟨a, h, ?_⟩
          rintro b hb
          cases hb
          rfl
      | some fault =>
          cases fault with
          | refused => exact .inl rfl
          | lost =>
              refine .inr ⟨a, h, ?_⟩
              rintro b hb
              cases hb

/-! ## The chain -/

/-- What the events of an execution record, from the ceiling given at creation to the stored one. -/
def Recorded (outside : Outside) (changes : List CeilingChange) (stored : Ceiling) : Ceiling → Prop
  | .unsandboxed => stored = .unsandboxed ∧ changes = []
  | .sandboxed policy => stored ≠ .unsandboxed ∧
      changes.head? = some ⟨.null, (Ceiling.sandboxed policy).toWire outside⟩ ∧
      changes.IsChain (fun a b => b.previous = a.ceiling) ∧
      changes.getLast?.map CeilingChange.ceiling = some (stored.toWire outside)

/-- A ceiling whose policy, if it has one, was authored. -/
def Ceiling.Proper (outside : Outside) (c : Ceiling) : Prop := ∀ p, c = .sandboxed p → p.Valid outside

theorem recorded_launch {c : Ceiling} (h : c ≠ .unsandboxed) :
    Recorded outside [⟨.null, c.toWire outside⟩] c c := by
  cases c with
  | unsandboxed => exact absurd rfl h
  | sandboxed policy => exact ⟨h, rfl, List.isChain_singleton _, rfl⟩

/-- A change goes on from the stored ceiling. -/
theorem Recorded.change {changes : List CeilingChange} {c current ceiling : Ceiling}
    (h : Recorded outside changes current c) (hcurrent : current ≠ .unsandboxed) (hceiling : ceiling ≠ .unsandboxed) :
    Recorded outside (changes ++ [⟨current.toWire outside, ceiling.toWire outside⟩]) ceiling c := by
  cases c with
  | unsandboxed => exact absurd h.1 hcurrent
  | sandboxed policy =>
      obtain ⟨-, hhead, hchain, hlast⟩ := h
      refine ⟨hceiling, ?_, ?_, ?_⟩
      · rw [List.head?_append, hhead]
        rfl
      · rw [List.isChain_append]
        refine ⟨hchain, List.isChain_singleton _, ?_⟩
        intro a ha b hb
        rw [Option.mem_def] at ha hb
        cases hb
        rw [ha] at hlast
        exact (Option.some.inj hlast).symm
      · simp

/-- The columns of the row are those of the ceiling. -/
def Stores (outside : Outside) (r : CeilingRow) (c : Ceiling) : Prop :=
  c.Proper outside ∧ r.ceilingMode = (c.toColumns outside).1 ∧ r.ceilingEntries = (c.toColumns outside).2

theorem Stores.read {r : CeilingRow} {c : Ceiling} (h : Stores outside r c) :
    Ceiling.fromColumns outside r.ceilingMode r.ceilingEntries = .ok c := by
  rw [h.2.1, h.2.2]
  exact fromColumns_toColumns h.1

/-- The tables, given the ceilings with which executions were created. -/
structure Chained (outside : Outside) (created : String → Ceiling → Prop) (db : CeilingDb) : Prop where
  ids : (db.executions.map CeilingRow.id).Nodup
  ordered : db.events.Pairwise fun a b => a.executionId = b.executionId → a.id < b.id
  known : ∀ e ∈ db.events, changeOf e ≠ none → ∃ r ∈ db.executions, r.id = e.executionId
  rows : ∀ r ∈ db.executions, ∃ c stored, created r.id c ∧ Stores outside r stored ∧
    Recorded outside (changesIn db.events r.id) stored c

variable {created created' : String → Ceiling → Prop}

theorem Chained.mono (h : Chained outside created db) (hcreated : ∀ id c, created id c → created' id c) :
    Chained outside created' db where
  ids := h.ids
  ordered := h.ordered
  known := h.known
  rows := by
    intro r hr
    obtain ⟨c, stored, hc, hstored, hrecorded⟩ := h.rows r hr
    exact ⟨c, stored, hcreated _ _ hc, hstored, hrecorded⟩

/-- A new event is behind those of its execution. -/
theorem ordered_append {events : List CeilingEvent} {e : CeilingEvent}
    (h : events.Pairwise fun a b => a.executionId = b.executionId → a.id < b.id)
    (he : ∀ a ∈ events, a.executionId = e.executionId → a.id < e.id) :
    (events ++ [e]).Pairwise fun a b => a.executionId = b.executionId → a.id < b.id := by
  rw [List.pairwise_append]
  refine ⟨h, List.pairwise_singleton _ _, ?_⟩
  intro a ha b hb
  rw [List.mem_singleton.mp hb]
  exact he a ha

theorem FreshId.behind {op : CeilingOp} {id : String} (h : FreshId op env db) (hop : op.locks = some id) :
    ∀ a ∈ db.events, a.executionId = id → a.id < env.eventId := by
  rintro a ha rfl
  exact (h a ha).2 hop

/-- A row that is the first with its id is the only one. -/
theorem find_of_mem {executions : List CeilingRow} (hids : (executions.map CeilingRow.id).Nodup) {r : CeilingRow}
    (hr : r ∈ executions) : executions.find? (fun q => q.id = r.id) = some r := by
  cases hfind : executions.find? (fun q => q.id = r.id) with
  | none =>
      have hnone := List.find?_eq_none.mp hfind r hr
      simp at hnone
  | some q =>
      have hid : q.id = r.id := by simpa using List.find?_some hfind
      rw [List.inj_on_of_nodup_map hids (List.mem_of_find?_eq_some hfind) hr hid]

/-- Rows that change in other columns, with their events. -/
theorem Chained.settle (h : Chained outside created db) {id : String} {desired : ExecutionDesired}
    {outcome : Option Outcome}
    (hexecutions : db'.executions = db.executions.map fun r => if r.id = id then { r with desired, outcome } else r)
    (hevents : db'.events = db.events) : Chained outside created db' := by
  have hid : ∀ r : CeilingRow, (if r.id = id then { r with desired, outcome } else r).id = r.id := by
    intro r
    split <;> rfl
  refine ⟨?_, ?_, ?_, ?_⟩
  · rw [hexecutions, List.map_map]
    have hsame : (CeilingRow.id ∘ fun r => if r.id = id then { r with desired, outcome } else r) =
        CeilingRow.id := funext hid
    rw [hsame]
    exact h.ids
  · rw [hevents]
    exact h.ordered
  · rw [hevents, hexecutions]
    intro e he hchange
    obtain ⟨r, hr, hre⟩ := h.known e he hchange
    exact ⟨_, List.mem_map_of_mem hr, (hid r).trans hre⟩
  · rw [hevents, hexecutions]
    intro r' hr'
    obtain ⟨r, hr, rfl⟩ := List.mem_map.mp hr'
    obtain ⟨c, stored, hc, hstored, hrecorded⟩ := h.rows r hr
    rw [hid]
    refine ⟨c, stored, hc, ⟨hstored.1, ?_, ?_⟩, hrecorded⟩
    · rw [← hstored.2.1]
      split <;> rfl
    · rw [← hstored.2.2]
      split <;> rfl

theorem Chained.record (h : Chained outside created db) {e : CeilingEvent} (hother : changeOf e = none)
    (he : ∀ a ∈ db.events, a.executionId = e.executionId → a.id < e.id)
    (hexecutions : db'.executions = db.executions) (hevents : db'.events = db.events ++ [e]) :
    Chained outside created db' := by
  refine ⟨?_, ?_, ?_, ?_⟩
  · rw [hexecutions]
    exact h.ids
  · rw [hevents]
    exact ordered_append h.ordered he
  · rw [hevents, hexecutions]
    intro a ha hchange
    obtain ha | ha := List.mem_append.mp ha
    · exact h.known a ha hchange
    · rw [List.mem_singleton.mp ha] at hchange
      exact absurd hother hchange
  · rw [hevents, hexecutions]
    intro r hr
    obtain ⟨c, stored, hc, hstored, hrecorded⟩ := h.rows r hr
    refine ⟨c, stored, hc, hstored, ?_⟩
    rw [changesIn_append, hother]
    simpa using hrecorded

theorem Chained.create (h : Chained outside created db) {id : String} {ceiling : Ceiling}
    (hproper : ceiling.Proper outside) (hcreated : created id ceiling)
    (hfresh : ∀ a ∈ db.events, a.executionId = id → a.id < env.eventId) (hnew : ∀ r ∈ db.executions, r.id ≠ id)
    (hexecutions : db'.executions = db.executions ++ [launchRow outside env id ceiling])
    (hquiet : ceiling = .unsandboxed → db'.events = db.events)
    (hloud : ceiling ≠ .unsandboxed → Announced outside env id none db'.executions db.events db'.events) :
    Chained outside created db' := by
  have hids : (db'.executions.map CeilingRow.id).Nodup := by
    rw [hexecutions, List.map_append]
    refine h.ids.append (List.nodup_singleton _) ?_
    intro i hi hi'
    obtain ⟨r, hr, rfl⟩ := List.mem_map.mp hi
    exact hnew r hr (List.mem_singleton.mp hi')
  have hmem : launchRow outside env id ceiling ∈ db'.executions := by
    rw [hexecutions]
    simp
  have hstores : Stores outside (launchRow outside env id ceiling) ceiling := ⟨hproper, rfl, rfl⟩
  have hnone : changesIn db.events id = [] := by
    unfold changesIn
    rw [List.filterMap_eq_nil_iff]
    intro e he
    obtain ⟨he, hid⟩ := List.mem_filter.mp he
    by_contra hchange
    obtain ⟨r, hr, hrid⟩ := h.known e he hchange
    exact hnew r hr (hrid.trans (of_decide_eq_true hid))
  -- the events: none for an unsandboxed execution, the launch event for a sandboxed one
  obtain ⟨hordered, hknown, hold, hlaunch⟩ :
      (db'.events.Pairwise fun a b => a.executionId = b.executionId → a.id < b.id) ∧
      (∀ e ∈ db'.events, changeOf e ≠ none → e ∈ db.events ∨ e.executionId = id) ∧
      (∀ r ∈ db.executions, changesIn db'.events r.id = changesIn db.events r.id) ∧
      Recorded outside (changesIn db'.events id) ceiling ceiling := by
    by_cases hsandboxed : ceiling = .unsandboxed
    · rw [hquiet hsandboxed]
      refine ⟨h.ordered, fun e he _ => .inl he, fun r _ => rfl, ?_⟩
      rw [hnone, hsandboxed]
      exact ⟨rfl, rfl⟩
    · obtain ⟨r, stored, changedBy, changedAt, hfind, hread, hevents⟩ := (hloud hsandboxed).written
      have hfound := find_of_mem hids hmem
      have hrow : launchRow outside env id ceiling = r := Option.some.inj (hfound.symm.trans hfind)
      rw [← hrow, hstores.read] at hread
      cases hread
      rw [hevents]
      refine ⟨ordered_append h.ordered hfresh, ?_, ?_, ?_⟩
      · intro e he _
        obtain he | he := List.mem_append.mp he
        · exact .inl he
        · rw [List.mem_singleton.mp he]
          exact .inr rfl
      · intro q hq
        rw [changesIn_append, if_neg fun heq => hnew q hq heq.symm, List.append_nil]
      · rw [changesIn_append, hnone, if_pos rfl, changeOf_payload]
        exact recorded_launch hsandboxed
  refine ⟨hids, hordered, ?_, ?_⟩
  · intro e he hchange
    obtain he | he := hknown e he hchange
    · obtain ⟨r, hr, hre⟩ := h.known e he hchange
      exact ⟨r, by rw [hexecutions]; exact List.mem_append_left _ hr, hre⟩
    · exact ⟨_, hmem, he.symm⟩
  · intro r hr
    rw [hexecutions] at hr
    obtain hr | hr := List.mem_append.mp hr
    · obtain ⟨c, stored, hc, hstored, hrecorded⟩ := h.rows r hr
      refine ⟨c, stored, hc, hstored, ?_⟩
      rw [hold r hr]
      exact hrecorded
    · rw [List.mem_singleton.mp hr]
      exact ⟨ceiling, ceiling, hcreated, hstores, hlaunch⟩

theorem Chained.set (h : Chained outside created db) {id : String} {ceiling current : Ceiling} {exec : CeilingRow}
    (hproper : ceiling.Proper outside) (hceiling : ceiling ≠ .unsandboxed)
    (hfresh : ∀ a ∈ db.events, a.executionId = id → a.id < env.eventId)
    (hexec : db.executions.find? (fun r => r.id = id) = some exec) (hlive : Changeable id exec)
    (hcurrent : Ceiling.fromColumns outside exec.ceilingMode exec.ceilingEntries = .ok current)
    (hsandboxed : current ≠ .unsandboxed)
    (hexecutions : db'.executions = updatedRows outside env id ceiling db.executions)
    (hannounced : Announced outside env id (some current) db'.executions db.events db'.events) :
    Chained outside created db' := by
  have hexecmem := List.mem_of_find?_eq_some hexec
  have hid : ∀ r : CeilingRow,
      (if Changeable id r then r.withCeiling outside env ceiling else r).id = r.id := by
    intro r
    split <;> rfl
  have hids : (db'.executions.map CeilingRow.id).Nodup := by
    rw [hexecutions]
    unfold updatedRows
    rw [List.map_map]
    have hsame : (CeilingRow.id ∘ fun r => if Changeable id r then r.withCeiling outside env ceiling else r) =
        CeilingRow.id := funext hid
    rw [hsame]
    exact h.ids
  have hstores : Stores outside (exec.withCeiling outside env ceiling) ceiling := ⟨hproper, rfl, rfl⟩
  have hmem : exec.withCeiling outside env ceiling ∈ db'.executions := by
    rw [hexecutions]
    refine List.mem_map.mpr ⟨exec, hexecmem, ?_⟩
    rw [if_pos hlive]
  obtain ⟨r, stored, changedBy, changedAt, hfind, hread, hevents⟩ := hannounced.written
  have hfound := find_of_mem hids hmem
  have hexecid : (exec.withCeiling outside env ceiling).id = id := hlive.1
  rw [hexecid] at hfound
  have hrow : exec.withCeiling outside env ceiling = r := Option.some.inj (hfound.symm.trans hfind)
  rw [← hrow, hstores.read] at hread
  cases hread
  refine ⟨hids, ?_, ?_, ?_⟩
  · rw [hevents]
    exact ordered_append h.ordered hfresh
  · rw [hevents]
    intro e he hchange
    obtain he | he := List.mem_append.mp he
    · obtain ⟨q, hq, hqe⟩ := h.known e he hchange
      refine ⟨if Changeable id q then q.withCeiling outside env ceiling else q, ?_, (hid q).trans hqe⟩
      rw [hexecutions]
      exact List.mem_map_of_mem hq
    · rw [List.mem_singleton.mp he]
      exact ⟨_, hmem, hexecid⟩
  · rw [hevents, hexecutions]
    intro r' hr'
    obtain ⟨q, hq, rfl⟩ := List.mem_map.mp hr'
    obtain ⟨c, stored, hc, hstored, hrecorded⟩ := h.rows q hq
    rw [hid, changesIn_append]
    by_cases hqid : q.id = id
    · -- the execution of the change: its stored ceiling was the one that the change found
      have hqexec : q = exec := List.inj_on_of_nodup_map h.ids hq hexecmem (hqid.trans hlive.1.symm)
      rw [hqexec] at hc hstored hrecorded ⊢
      rw [hstored.read] at hcurrent
      cases hcurrent
      rw [if_pos hlive, if_pos hlive.1.symm, changeOf_payload]
      exact ⟨c, ceiling, hc, hstores, hrecorded.change hsandboxed hceiling⟩
    · have hother : ¬Changeable id q := fun hchangeable => hqid hchangeable.1
      rw [if_neg hother, if_neg fun heq => hqid heq.symm, List.append_nil]
      exact ⟨c, stored, hc, hstored, hrecorded⟩

/-! ## Runs -/

/-- What a request may do: it stores authored ceilings only, and changes one to a sandboxed one only. -/
def CeilingOp.Proper (outside : Outside) : CeilingOp → Prop
  | create _ ceiling => ceiling.Proper outside
  | set _ ceiling => ceiling.Proper outside ∧ ceiling ≠ .unsandboxed
  | record executionId eventType payload => ∀ id, changeOf ⟨id, executionId, eventType, payload⟩ = none
  | _ => True

theorem perform_careful {P : CeilingOp → Prop} {α : Type} {op : CeilingOp}
    {k : CeilingAnswer op → CeilingHandler outside α} (hop : P op)
    (hk : ∀ a, Careful (M := ceilings outside) P (k a)) :
    Careful (M := ceilings outside) P (perform outside op k) := by
  refine Careful.call hop ?_
  intro env db _
  exact Careful.check fun a _ => hk a

theorem authored_proper (hlawful : outside.Lawful) {value : Json} {c : Ceiling}
    (h : authored outside value = .ok c) : c.Proper outside := by
  unfold authored at h
  cases hparse : Ceiling.parseAuthored outside value with
  | error e =>
      rw [hparse] at h
      cases h
  | ok ceiling =>
      rw [hparse] at h
      cases h
      exact parseAuthored_valid hlawful hparse

theorem launchCeiling_proper (hlawful : outside.Lawful) {network : Option Json} {c : Ceiling}
    (h : launchCeiling outside network = .ok c) : c.Proper outside := by
  unfold launchCeiling at h
  split at h
  · cases h
    intro p hp
    cases hp
  · cases h
  · exact authored_proper hlawful h

theorem patchCeiling_proper (hlawful : outside.Lawful) {body : Json} {c : Ceiling}
    (h : patchCeiling outside body = .ok c) : c.Proper outside ∧ c ≠ .unsandboxed := by
  unfold patchCeiling at h
  split at h
  · split at h
    · cases h
    · split at h
      · cases h
      · cases h
      · split at h
        · cases h
        · cases h
        · next policy hpolicy =>
            cases h
            refine ⟨authored_proper hlawful hpolicy, ?_⟩
            intro hne
            cases hne
  · cases h

theorem CeilingRequest.careful (hlawful : outside.Lawful) (req : CeilingRequest) :
    Careful (M := ceilings outside) (CeilingOp.Proper outside) (req.body outside) := by
  cases req with
  | create id network =>
      refine Careful.bind ?_ fun _ => Careful.ret ()
      refine Careful.check ?_
      intro ceiling hceiling
      exact perform_careful (launchCeiling_proper hlawful hceiling) fun _ => Careful.ret _
  | patch id body =>
      refine Careful.bind ?_ fun _ => Careful.ret ()
      refine perform_careful (by exact trivial) ?_
      intro agent
      split
      · exact Careful.ret _
      · refine Careful.check ?_
        intro ceiling hceiling
        exact perform_careful (patchCeiling_proper hlawful hceiling) fun _ => Careful.ret _
  | settle id desired outcome =>
      refine Careful.call (by exact trivial) ?_
      intro _ _ _
      exact Careful.ret ()
  | record executionId eventType payload other =>
      refine Careful.call other ?_
      intro _ _ _
      exact Careful.ret ()

/-- The execution was created with that ceiling. -/
def CreatedIn (outside : Outside) (tr : List (Event (ceilings outside))) (id : String) (c : Ceiling) : Prop :=
  ∃ e ∈ tr, e.op = CeilingOp.create id c ∧ (∀ r ∈ CeilingDb.executions e.pre, r.id ≠ id) ∧
    ∃ r ∈ CeilingDb.executions e.post, r.id = id

theorem CreatedIn.cons {tr : List (Event (ceilings outside))} {id : String} {c : Ceiling}
    (h : CreatedIn outside tr id c) (e : Event (ceilings outside)) : CreatedIn outside (e :: tr) id c := by
  obtain ⟨e', he', hcreated⟩ := h
  exact ⟨e', List.mem_cons_of_mem _ he', hcreated⟩

/-- **A proper step keeps the chains.** -/
theorem exec_chained {op : CeilingOp} (h : Chained outside created db) (hop : op.Proper outside)
    (hfresh : FreshId op env db)
    (hcreated : ∀ id c, op = .create id c → (∀ r ∈ db.executions, r.id ≠ id) →
      (∃ r ∈ (execCeiling outside op env db).2.executions, r.id = id) → created id c) :
    Chained outside created (execCeiling outside op env db).2 := by
  cases op with
  | bearer => exact h
  | create id ceiling =>
      obtain hsame | ⟨_, ⟨hnew, hexecutions, hquiet, hloud⟩, -⟩ :=
        commitTx_cases (createExecution_wp id ceiling)
      · rw [execCeiling, hsame]
        exact h
      · have hlaunched : created id ceiling := by
          refine hcreated id ceiling rfl hnew ?_
          rw [execCeiling, hexecutions]
          exact ⟨launchRow outside env id ceiling, by simp, rfl⟩
        exact h.create hop hlaunched (hfresh.behind rfl) hnew hexecutions hquiet hloud
  | set id ceiling =>
      obtain hsame | ⟨changed, ⟨hfalse, htrue⟩, -⟩ := commitTx_cases (setCeiling_wp id ceiling)
      · rw [execCeiling, hsame]
        exact h
      · cases changed with
        | false =>
            rw [execCeiling, hfalse rfl]
            exact h
        | true =>
            obtain ⟨exec, current, hexec, hlive, hcurrent, hsandboxed, hexecutions, hannounced⟩ := htrue rfl
            exact h.set hop.1 hop.2 (hfresh.behind rfl) hexec hlive hcurrent hsandboxed hexecutions hannounced
  | settle id desired outcome =>
      obtain hsame | ⟨_, ⟨hexecutions, hevents⟩, -⟩ := commitTx_cases (settleExecution_wp id desired outcome)
      · rw [execCeiling, hsame]
        exact h
      · exact h.settle hexecutions hevents
  | record executionId eventType payload =>
      obtain hsame | ⟨_, ⟨hexecutions, hevents⟩, -⟩ :=
        commitTx_cases (insertEvent_wp executionId eventType payload)
      · rw [execCeiling, hsame]
        exact h
      · exact h.record (hop env.eventId) (hfresh.behind rfl) hexecutions hevents

/-- **At every point of every interleaving the recorded changes lead to the stored ceiling.** -/
theorem run_chained (hlawful : outside.Lawful) {pool : List (Nat × Prog (ceilings outside) Unit)}
    {tr : List (Event (ceilings outside))} (h : Run (CeilingRequest.body outside) pool tr) :
    Chained outside (CreatedIn outside tr) ((ceilings outside).now tr) := by
  have htrace := h.careful (CeilingRequest.careful hlawful)
  refine htrace.invariantOn
    (I := fun tr => Chained outside (CreatedIn outside tr) ((ceilings outside).now tr)) ?_ ?_
  · constructor
    · exact List.nodup_nil
    · exact List.Pairwise.nil
    · intro e he
      cases he
    · intro r hr
      cases hr
  · intro tr me op env _ hop hadmits hchained
    have hfresh : FreshId op env ((ceilings outside).now tr) := by
      simpa only [ceilings, decide_eq_true_iff] using hadmits
    have hlater : Chained outside (CreatedIn outside ((ceilings outside).event me op env tr :: tr))
        ((ceilings outside).now tr) := hchained.mono fun id c hc => hc.cons _
    refine exec_chained hlater hop hfresh ?_
    rintro id c rfl hnew hpresent
    exact ⟨_, List.mem_cons_self, rfl, hnew, hpresent⟩

/-- The changes of an execution in the order of the ids of their events. -/
def changesById (db : CeilingDb) (id : String) : List CeilingChange :=
  ((db.events.filter fun e => e.executionId = id).mergeSort fun a b => a.id ≤ b.id).filterMap changeOf

theorem Chained.changesById_eq (h : Chained outside created db) (id : String) :
    changesById db id = changesIn db.events id := by
  unfold changesById changesIn
  rw [List.mergeSort_of_pairwise]
  have hsame : (db.events.filter fun e => e.executionId = id).Pairwise fun a b =>
      a.executionId = b.executionId → a.id < b.id := h.ordered.sublist List.filter_sublist
  refine hsame.imp_of_mem ?_
  intro a b ha hb hab
  have hida := of_decide_eq_true (List.mem_filter.mp ha).2
  have hidb := of_decide_eq_true (List.mem_filter.mp hb).2
  exact decide_eq_true (Int.le_of_lt (hab (hida.trans hidb.symm)))

/-- Unless its answer is lost, a transaction that left something succeeded. -/
theorem commitTx_unlost {α : Type} (body : CeilingTx α) (hcommit : env.commit ≠ some .lost) :
    (commitTx env body db).2 = db ∨
      ∃ a, (commitTx env body db).1 = .ok a ∧ body db = .ok (a, (commitTx env body db).2) := by
  unfold commitTx
  cases hbody : body db with
  | error e => exact .inl rfl
  | ok result =>
      cases hfault : env.commit with
      | none => exact .inr ⟨result.1, rfl, rfl⟩
      | some fault =>
          cases fault with
          | refused => exact .inl rfl
          | lost => exact absurd hfault hcommit

/-- An update that is refused, or finds the ceiling equal, writes nothing. -/
theorem set_refused {id : String} {ceiling : Ceiling}
    (h : ∀ changed, (execCeiling outside (.set id ceiling) env db).1 = .ok changed → changed = false)
    (hcommit : env.commit ≠ some .lost) : (execCeiling outside (.set id ceiling) env db).2 = db := by
  obtain hsame | ⟨changed, hreply, hbody⟩ := commitTx_unlost (setCeiling outside env id ceiling) hcommit
  · exact hsame
  · have hwp : wp (setCeiling outside env id ceiling) _ _ db := setCeiling_wp id ceiling
    unfold wp at hwp
    rw [hbody] at hwp
    exact hwp.1 (h changed hreply)

/-- In every interleaving the `ceiling_changed` events of an execution, in the order of their ids, lead from the
ceiling given at creation to the stored one; a refused update writes nothing. -/
theorem ceiling_changes_chain (outside : Outside) (hlawful : outside.Lawful)
    {pool : List (Nat × Prog (ceilings outside) Unit)} {tr : List (Event (ceilings outside))}
    (h : Run (CeilingRequest.body outside) pool tr) :
    (∀ r ∈ CeilingDb.executions ((ceilings outside).now tr), ∃ c stored, CreatedIn outside tr r.id c ∧
      Ceiling.fromColumns outside r.ceilingMode r.ceilingEntries = .ok stored ∧
      Recorded outside (changesById ((ceilings outside).now tr) r.id) stored c) ∧
    ∀ (id : String) (ceiling : Ceiling) (env : CeilingEnv),
      (∀ changed, (execCeiling outside (.set id ceiling) env ((ceilings outside).now tr)).1 = .ok changed →
        changed = false) →
      env.commit ≠ some .lost →
      (execCeiling outside (.set id ceiling) env ((ceilings outside).now tr)).2 = (ceilings outside).now tr := by
  have hchained := run_chained hlawful h
  constructor
  · intro r hr
    obtain ⟨c, stored, hc, hstored, hrecorded⟩ := hchained.rows r hr
    refine ⟨c, stored, hc, hstored.read, ?_⟩
    rw [hchained.changesById_eq]
    exact hrecorded
  · intro id ceiling env hrefused hcommit
    exact set_refused hrefused hcommit

def networkOf (mode : String) : Json := .obj [("kind", .str "sandboxed"), ("mode", .str mode)]

def sampleEnv (eventId : Int) : CeilingEnv := ⟨"2026-01-01T00:00:00+00:00", eventId, false, fun _ => false, none⟩

/-- An execution is created without network, and is given all of it. -/
def sampleChange : List (Event (ceilings plain)) :=
  played (CeilingRequest.body plain)
    [.spawn 0 (.create "e" (some (networkOf "none"))), .step 0 (sampleEnv 1),
      .spawn 1 (.patch "e" (.obj [("network", networkOf "egress")])), .step 1 (sampleEnv 2), .step 1 (sampleEnv 2)]

theorem ceiling_changes_chain_sample :
    (CeilingDb.executions ((ceilings plain).now sampleChange)).map (fun r => (r.id, r.ceilingMode)) =
      [("e", "egress")] ∧
    ∀ r ∈ CeilingDb.executions ((ceilings plain).now sampleChange), ∃ c stored, CreatedIn plain sampleChange r.id c ∧
      Ceiling.fromColumns plain r.ceilingMode r.ceilingEntries = .ok stored ∧
      Recorded plain (changesById ((ceilings plain).now sampleChange) r.id) stored c := by
  obtain ⟨pool, hrun⟩ : ∃ pool, Run (CeilingRequest.body plain) pool sampleChange := play_run _ _
  exact ⟨by decide +kernel, (ceiling_changes_chain plain plain_lawful hrun).1⟩

/-- The first event records the launch, and has no previous ceiling. -/
theorem launch_without_previous :
    ∃ pool, Run (CeilingRequest.body plain) pool sampleChange ∧
      (launchCeiling plain (some (networkOf "none"))).toOption = some (.sandboxed ⟨.none, []⟩) ∧
      (changesById ((ceilings plain).now sampleChange) "e").map CeilingChange.previous =
        [.null, (Ceiling.sandboxed ⟨.none, []⟩).toWire plain] ∧
      (Ceiling.sandboxed ⟨.none, []⟩).toWire plain ≠ .null := by
  obtain ⟨pool, hrun⟩ : ∃ pool, Run (CeilingRequest.body plain) pool sampleChange := play_run _ _
  refine ⟨pool, hrun, ?_, ?_, ?_⟩
  · decide +kernel
  · rw [(run_chained plain_lawful hrun).changesById_eq]
    decide +kernel
  · decide

end Network
end AgentBeacon
