import AgentBeacon.Correctness.Ceilings
import AgentBeacon.System.History

/-!
# `Correctness.CeilingTables` — the tables of the ceilings are those of the scheduler

`Services.Ceiling` has the columns of `executions` and `events` that a ceiling is about, `Db.Schema` those that the
rest of the scheduler is about. Both are views of the same tables: whatever a transaction of the scheduler does to
the columns they share is a sequence of the ceilings' own steps.
-/

namespace AgentBeacon
open Relational Transaction Interleave Tx

/-- `events.event_type`, as it is stored. -/
def EventType.asStr : EventType → String
  | .message => "message"
  | .stateChange => "state_change"
  | .platform => "platform"

/-- The events of executions; those of a session go with it. -/
def Db.executionEvents (db : Db) : List EventRow := db.events.rows.filter fun e => e.sessionId.isNone

namespace Network

variable {outside : Outside} {c : CeilingDb} {db db' : Db}

/-! ## The shared columns -/

/-- The columns of an execution that both tables have. -/
abbrev Shared := ExecutionId × ExecutionDesired × Option Outcome

def CeilingRow.shared (r : CeilingRow) : Shared := (r.id, r.desired, r.outcome)

def sharedOf (x : Execution) : Shared := (x.id, x.desired, x.outcome)

/-- An event as the ceilings have it. -/
def ceilingEvent (e : EventRow) : CeilingEvent := ⟨e.id, e.executionId, e.eventType.asStr, e.payload⟩

/-- The two views agree. -/
structure Reflects (c : CeilingDb) (db : Db) : Prop where
  executions : c.executions.map CeilingRow.shared = db.executions.rows.map sharedOf
  events : c.events = db.executionEvents.map ceilingEvent

/-- Nothing fails, and the next id of the table is drawn. -/
def calmly (db : Db) (now : Timestamp) : CeilingEnv := ⟨rfc3339 now, db.events.next, false, fun _ => false, none⟩

namespace Reflects

theorem same (h : Reflects c db) (hexecutions : db'.executions = db.executions)
    (hevents : db'.executionEvents = db.executionEvents) : Reflects c db' := by
  constructor
  · rw [hexecutions]
    exact h.executions
  · rw [hevents]
    exact h.events

/-- An execution is in both or in neither. -/
theorem mem_ids (h : Reflects c db) (id : ExecutionId) :
    (∃ r ∈ c.executions, r.id = id) ↔ ∃ x ∈ db.executions.rows, x.id = id := by
  have hids : c.executions.map CeilingRow.id = db.executions.rows.map Execution.id := by
    have hfst := congrArg (List.map Prod.fst) h.executions
    rwa [List.map_map, List.map_map] at hfst
  rw [← List.mem_map, ← List.mem_map, hids]

theorem fresh (h : Reflects c db) (op : CeilingOp) (now : Timestamp) : FreshId op (calmly db now) c := by
  intro e he
  rw [h.events] at he
  obtain ⟨row, hrow, rfl⟩ := List.mem_map.mp he
  have hless : row.id < db.events.next := db.events.bounded row (List.mem_filter.mp hrow).1
  have hbehind : (row.id : Int) < db.events.next := by exact_mod_cast hless
  exact ⟨ne_of_lt hbehind, fun _ => hbehind⟩

end Reflects

/-! ## The steps of the ceilings -/

/-- A step of the ceilings: an execution is created or changes its state, or an event is written. -/
inductive CeilingStep (outside : Outside) (c : CeilingDb) : CeilingDb → Prop where
  | create {id : String} {ceiling : Ceiling} {env : CeilingEnv} {c' : CeilingDb} (hproper : ceiling.Proper outside)
      (hfresh : FreshId (.create id ceiling) env c)
      (h : execCeiling outside (.create id ceiling) env c = (.ok (), c')) : CeilingStep outside c c'
  | settle {id : String} {desired : ExecutionDesired} {outcome : Option Outcome} {env : CeilingEnv} {c' : CeilingDb}
      (hfresh : FreshId (.settle id desired outcome) env c)
      (h : execCeiling outside (.settle id desired outcome) env c = (.ok (), c')) : CeilingStep outside c c'
  | record {executionId eventType : String} {payload : Json} {env : CeilingEnv} {c' : CeilingDb}
      (hfresh : FreshId (.record executionId eventType payload) env c)
      (h : execCeiling outside (.record executionId eventType payload) env c = (.ok (), c')) :
      CeilingStep outside c c'

abbrev CeilingSteps (outside : Outside) : CeilingDb → CeilingDb → Prop :=
  Relation.ReflTransGen (CeilingStep outside)

/-- A transaction of which no statement fails commits what its body promises. -/
theorem commitTx_calmly (db : Db) (now : Timestamp) {α : Type} {body : CeilingTx α} {Q : α → CeilingDb → Prop}
    (h : wp body Q (fun _ => False) c) : ∃ a c', commitTx (calmly db now) body c = (.ok a, c') ∧ Q a c' := by
  unfold wp at h
  unfold commitTx
  cases hbody : body c with
  | error e =>
      rw [hbody] at h
      exact h.elim
  | ok result =>
      rw [hbody] at h
      exact ⟨result.1, result.2, rfl, h⟩

theorem wp_statement_calmly (now : Timestamp) (s : Statement) (what : String) {Q : Unit → CeilingDb → Prop}
    {E : ChangeError → Prop} : wp (statement (calmly db now) s what) Q E c ↔ Q () c := by
  unfold statement
  rw [wp_require]
  exact ⟨fun h => h.1 rfl, fun h => ⟨fun _ => h, fun hno => absurd rfl hno⟩⟩

theorem find_of_exists {id : String} (h : ∃ r ∈ c.executions, r.id = id) :
    ∃ r, c.executions.find? (fun r => r.id = id) = some r := by
  obtain ⟨r, hr, hid⟩ := h
  exact Option.isSome_iff_exists.mp (List.find?_isSome.mpr ⟨r, hr, decide_eq_true hid⟩)

/-- The rows behind the `UPDATE` of a transition. -/
def settledRows (executions : List CeilingRow) (id : String) (desired : ExecutionDesired)
    (outcome : Option Outcome) : List CeilingRow :=
  executions.map fun r => if r.id = id then { r with desired, outcome } else r

theorem settle_calmly {id : String} (hthere : ∃ r ∈ c.executions, r.id = id) (desired : ExecutionDesired)
    (outcome : Option Outcome) (now : Timestamp) :
    execCeiling outside (.settle id desired outcome) (calmly db now) c =
      (.ok (), { c with executions := settledRows c.executions id desired outcome }) := by
  obtain ⟨r, hr⟩ := find_of_exists hthere
  have hbody : wp (settleExecution (calmly db now) id desired outcome)
      (fun _ c' => c' = { c with executions := settledRows c.executions id desired outcome }) (fun _ => False) c := by
    simp only [settleExecution, beginExecutionTx, selectExecution, wp_bind, wp_statement_calmly, wp_read,
      wp_ofOption, wp_write, hr]
    exact ⟨fun _ _ => rfl, by simp⟩
  obtain ⟨_, c', hcommit, rfl⟩ := commitTx_calmly db now hbody
  exact hcommit

theorem record_calmly (executionId eventType : String) (payload : Json) (now : Timestamp) :
    execCeiling outside (.record executionId eventType payload) (calmly db now) c =
      (.ok (), { c with events := c.events ++ [⟨db.events.next, executionId, eventType, payload⟩] }) := by
  have hbody : wp (insertEvent (calmly db now) executionId eventType payload)
      (fun _ c' => c' = { c with events := c.events ++ [⟨db.events.next, executionId, eventType, payload⟩] })
      (fun _ => False) c := by
    simp only [insertEvent, wp_bind, wp_statement_calmly, wp_write]
    rfl
  obtain ⟨_, c', hcommit, rfl⟩ := commitTx_calmly db now hbody
  exact hcommit

/-- The event of a launch: none for an unsandboxed execution. -/
def launchEvents (outside : Outside) (db : Db) (id : String) (ceiling : Ceiling) (now : Timestamp) :
    List CeilingEvent :=
  if ceiling = .unsandboxed then [] else
    [⟨db.events.next, id, "platform", ceilingChangedPayload outside id ceiling none "user" (rfc3339 now)⟩]

theorem create_calmly (db : Db) {id : String} {ceiling : Ceiling} (hproper : ceiling.Proper outside)
    (hnew : ∀ r ∈ c.executions, r.id ≠ id) (now : Timestamp) :
    execCeiling outside (.create id ceiling) (calmly db now) c =
      (.ok (), ⟨c.executions ++ [launchRow outside (calmly db now) id ceiling],
        c.events ++ launchEvents outside db id ceiling now⟩) := by
  have hfind : (c.executions ++ [launchRow outside (calmly db now) id ceiling]).find? (fun r => r.id = id) =
      some (launchRow outside (calmly db now) id ceiling) := by
    rw [List.find?_append, List.find?_eq_none.mpr fun r hr => by simpa using hnew r hr]
    simp [launchRow]
  have hbody : wp (createExecution outside (calmly db now) id ceiling) (fun _ c' => c' =
      ⟨c.executions ++ [launchRow outside (calmly db now) id ceiling],
        c.events ++ launchEvents outside db id ceiling now⟩) (fun _ => False) c := by
    simp only [createExecution, createInTx, wp_bind, wp_statement_calmly, wp_read, wp_require, wp_write, wp_when]
    refine ⟨fun _ => ⟨fun hsandboxed => ?_, fun hunsandboxed => ?_⟩, fun hno => absurd hnew hno⟩
    · -- the row that was just written is read again
      simp only [writeCeilingChanged, insertEvent, selectExecution, wp_bind, wp_statement_calmly, wp_read,
        wp_ofOption, wp_write]
      refine ⟨fun r hr => ?_, fun hnone => by cases hfind.symm.trans hnone⟩
      obtain rfl := Option.some.inj (hfind.symm.trans hr)
      have hread : readCeiling outside (launchRow outside (calmly db now) id ceiling) = pure ceiling := by
        unfold readCeiling launchRow
        rw [fromColumns_toColumns hproper]
      rw [hread, wp_pure]
      refine ⟨fun at_ hat => ?_, fun hnone => by cases hnone⟩
      obtain rfl := Option.some.inj hat
      rw [launchEvents, if_neg hsandboxed]
      rfl
    · rw [launchEvents, if_pos (not_not.mp hunsandboxed), List.append_nil]
      rfl
  obtain ⟨_, c', hcommit, rfl⟩ := commitTx_calmly db now hbody
  exact hcommit

/-! ## The statements of the scheduler -/

theorem sharedOf_apply {x : Execution} {u : ExecutionUpdate} {row : Execution} (hx : x = row) :
    sharedOf (u.apply x) = (x.id, (u.apply row).desired, (u.apply row).outcome) := by
  subst hx
  unfold sharedOf
  rw [u.apply_id]

/-- **An update of an execution is a transition of it**, or finds no row. -/
theorem Reflects.updateExecution (h : Reflects c db) (id : ExecutionId) (u : ExecutionUpdate) :
    ∃ c', CeilingSteps outside c c' ∧ Reflects c' (db.updateExecution id u) := by
  cases hrow : db.execution? id with
  | none =>
      have hmissing : ∀ x ∈ db.executions.rows, x.id ≠ id := Table.find?_eq_none.mp hrow
      -- the `UPDATE` finds no row
      refine ⟨c, .refl, ?_, h.events⟩
      rw [h.executions]
      show _ = (db.executions.rows.map _).map sharedOf
      rw [List.map_map]
      refine List.map_congr_left fun x hx => ?_
      rw [Function.comp_apply, if_neg (hmissing x hx)]
  | some row =>
      obtain ⟨hmem, hid⟩ := Table.find?_eq_some.mp hrow
      have hthere := (h.mem_ids id).mpr ⟨row, hmem, hid⟩
      refine ⟨_, .single (.settle (h.fresh _ 0)
        (settle_calmly hthere (u.apply row).desired (u.apply row).outcome 0)), ?_, h.events⟩
      -- on the shared columns both are the same function of the row
      let g : Shared → Shared := fun s =>
        if s.1 = id then (s.1, (u.apply row).desired, (u.apply row).outcome) else s
      have hleft : (settledRows c.executions id (u.apply row).desired (u.apply row).outcome).map CeilingRow.shared =
          (c.executions.map CeilingRow.shared).map g := by
        unfold settledRows
        rw [List.map_map, List.map_map]
        refine List.map_congr_left fun r _ => ?_
        by_cases hr : r.id = id
        · simp [g, CeilingRow.shared, hr]
        · simp [g, CeilingRow.shared, hr]
      have hright : (db.updateExecution id u).executions.rows.map sharedOf =
          (db.executions.rows.map sharedOf).map g := by
        show (db.executions.rows.map _).map sharedOf = _
        rw [List.map_map, List.map_map]
        refine List.map_congr_left fun x hx => ?_
        by_cases hxid : x.id = id
        · have hsame : x = row := db.executions.eq_of_key_eq hx hmem (hxid.trans hid.symm)
          simp only [Function.comp_apply, if_pos hxid, g]
          rw [sharedOf_apply hsame, if_pos]
          · rfl
          · exact hxid
        · simp [g, sharedOf, hxid]
      rw [hleft, hright, h.executions]

theorem executionEvents_deleteSessions (ids : List SessionId) :
    (db.deleteSessions ids).executionEvents = db.executionEvents := by
  show (db.events.rows.filter _).filter _ = _
  rw [List.filter_filter]
  refine List.filter_congr fun row _ => ?_
  cases hid : row.sessionId with
  | none => simp [hid]
  | some id => simp [hid]

theorem executionEvents_pushEvent (executionId : ExecutionId) (id : Option SessionId) (type : EventType)
    (payload : Json) (seq : Option Int) (now : Timestamp) :
    (db.pushEvent executionId id type payload seq now).executionEvents = db.executionEvents ++
      if id.isNone then [⟨db.events.next, executionId, id, type, payload, seq, now⟩] else [] := by
  show (db.events.rows ++ [_]).filter _ = _
  rw [List.filter_append, List.filter_singleton]
  cases id <;> rfl

theorem Reflects.pushEvent (h : Reflects c db) (executionId : ExecutionId) (id : Option SessionId) (type : EventType)
    (payload : Json) (seq : Option Int) (now : Timestamp) :
    ∃ c', CeilingSteps outside c c' ∧ Reflects c' (db.pushEvent executionId id type payload seq now) := by
  cases id with
  | some id =>
      refine ⟨c, .refl, h.same rfl ?_⟩
      rw [executionEvents_pushEvent]
      exact List.append_nil _
  | none =>
      refine ⟨_, .single (.record (h.fresh _ 0) (record_calmly executionId type.asStr payload 0)), h.executions, ?_⟩
      rw [executionEvents_pushEvent, List.map_append, h.events]
      rfl

/-- **A statement that creates no execution** is a step of the ceilings, or none. -/
theorem Reflects.step {P : Permit} (hP : ∀ row, ¬P.insertExecution row) (h : Reflects c db) (hstep : db.Step P db') :
    ∃ c', CeilingSteps outside c c' ∧ Reflects c' db' := by
  cases hstep with
  | updateExecution => exact h.updateExecution _ _
  | pushEvent => exact h.pushEvent _ _ _ _ _ _
  | insertExecution _ hi => exact absurd hi (hP _)
  | deleteSessions => exact ⟨c, .refl, h.same rfl (executionEvents_deleteSessions _)⟩
  | _ => exact ⟨c, .refl, h.same rfl rfl⟩

theorem Reflects.steps {P : Permit} (hP : ∀ row, ¬P.insertExecution row) (h : Reflects c db)
    (hsteps : db.Steps P db') : ∃ c', CeilingSteps outside c c' ∧ Reflects c' db' := by
  induction hsteps with
  | refl => exact ⟨c, .refl, h⟩
  | tail _ hstep ih =>
      obtain ⟨c₁, hc₁, h₁⟩ := ih
      obtain ⟨c₂, hc₂, h₂⟩ := h₁.step hP hstep
      exact ⟨c₂, hc₁.trans hc₂, h₂⟩

/-! ## The creation of an execution -/

/-- What the scheduler is told of a ceiling. -/
def Ceiling.launched (outside : Outside) (ceiling : Ceiling) : Option Json :=
  if ceiling = .unsandboxed then none else some (ceiling.toWire outside)

/-- **The two models of the transaction that creates an execution agree.** -/
theorem Reflects.createExecution (h : Reflects c db) {new : Creation.NewExecution} {ceiling : Ceiling}
    (hproper : ceiling.Proper outside) (hnew : new.ceiling = ceiling.launched outside) (env : Env) :
    ∃ c', CeilingSteps outside c c' ∧ Reflects c' ((Write.createExecution new).run env db).2 := by
  refine scheduling_post (m := fun env => Creation.createExecution env new)
    (P := fun _ db' => ∃ c', CeilingSteps outside c c' ∧ Reflects c' db') (fun _ _ => ⟨c, .refl, h⟩) ?_
  unfold Creation.createExecution
  simp only [wp_bind, wp_read, wp_ofOption, wp_write, wp_forSome, wp_pure, DbTx.wp_insertEvent]
  refine ⟨fun executions ht => ?_, fun _ => ⟨c, .refl, h⟩⟩
  obtain ⟨habsent, hinserted⟩ := Table.insert?_eq_some ht
  have hfresh : ∀ r ∈ c.executions, r.id ≠ env.uuid := by
    intro r hr hid
    obtain ⟨x, hx, hxid⟩ := (h.mem_ids env.uuid).mp ⟨r, hr, hid⟩
    exact Table.find?_eq_none.mp habsent x hx hxid
  have hstep := CeilingStep.create hproper (h.fresh _ env.now) (create_calmly db hproper hfresh env.now)
  have hrows : (c.executions ++ [launchRow outside (calmly db env.now) env.uuid ceiling]).map CeilingRow.shared =
      executions.rows.map sharedOf := by
    rw [List.map_append, h.executions, hinserted, List.map_append]
    rfl
  refine ⟨fun wire hwire => ⟨fun _ => ⟨_, .single hstep, hrows, ?_⟩, fun _ => ⟨c, .refl, h⟩⟩, fun hnone =>
    ⟨_, .single hstep, hrows, ?_⟩⟩
  · unfold Ceiling.launched at hnew
    split at hnew
    · rw [hwire] at hnew
      cases hnew
    · rename_i hsandboxed
      obtain rfl := Option.some.inj (hwire.symm.trans hnew)
      rw [executionEvents_pushEvent, List.map_append, launchEvents, if_neg hsandboxed, h.events]
      rfl
  · unfold Ceiling.launched at hnew
    split at hnew
    · rename_i hunsandboxed
      rw [launchEvents, if_pos hunsandboxed, List.append_nil]
      exact h.events
    · rw [hnone] at hnew
      cases hnew

/-! ## Runs -/

/-- **As the ceilings see it, a run of the scheduler is one of theirs**, when executions are launched with authored
ceilings. -/
theorem reflects_run [Start scheduler] {history : History} (h : Reachable history) (hc : Reflects c (current []))
    (hlaunch : ∀ e ∈ history, ∀ new, e.op = Op.write (.createExecution new) →
      ∃ ceiling : Ceiling, ceiling.Proper outside ∧ new.ceiling = ceiling.launched outside) :
    ∃ c', CeilingSteps outside c c' ∧ Reflects c' (current history) := by
  induction history with
  | nil => exact ⟨c, .refl, hc⟩
  | cons e history ih =>
      obtain ⟨c₁, hc₁, h₁⟩ := ih h.of_cons.1 fun e he => hlaunch e (List.mem_cons_of_mem _ he)
      rw [← h.of_cons.2.1] at h₁
      rw [current_cons]
      have hcall : ∃ c', CeilingSteps outside c₁ c' ∧ Reflects c' (after e) := by
        rcases call_effect e with ⟨w, hw, hsteps⟩ | hsame
        · by_cases hcreate : ∃ new, w = .createExecution new
          · obtain ⟨new, rfl⟩ := hcreate
            obtain ⟨ceiling, hproper, hnew⟩ := hlaunch e List.mem_cons_self new hw
            rw [after_write hw]
            exact h₁.createExecution hproper hnew _
          · refine h₁.steps (fun row hins => ?_) hsteps
            obtain ⟨new, hw', -⟩ := hins
            exact hcreate ⟨new, hw'⟩
        · rw [hsame]
          exact ⟨c₁, .refl, h₁⟩
      obtain ⟨c₂, hc₂, h₂⟩ := hcall
      exact ⟨c₂, hc₁.trans hc₂, h₂⟩

end Network
end AgentBeacon
