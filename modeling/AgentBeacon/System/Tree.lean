import AgentBeacon.Correctness.Outcome
import AgentBeacon.Lib.Lineage
import AgentBeacon.System.Serving

/-!
# `System.Tree` — the scheduler's database as groups with leaders

An execution is a group, its sessions are the members, its root leads it. `Db.forest` forgets
everything else; each transaction of a disciplined history is then a sequence of steps of
`Lib.Lineage`: most change nothing or a child, and those that end or reopen a root settle the root
and its execution together.
-/

namespace AgentBeacon
open Relational Transaction Interleave Lineage

/-! ## The abstraction -/

def Session.node (s : Session) : Node ExecutionId SessionId Outcome :=
  ⟨s.executionId, s.parentSessionId, s.outcome⟩

/-- What the agreement is about: what an execution is desired to do, and its outcome. -/
abbrev Life := ExecutionDesired × Option Outcome

def Execution.life (x : Execution) : Life := (x.desired, x.outcome)

/-- The sessions with their places and outcomes, and the executions. -/
def Db.forest (db : Db) : Forest ExecutionId SessionId Outcome Life where
  member j := (db.session? j).map Session.node
  life j := (db.execution? j).map Execution.life

/-- An execution is open as long as its root, and its outcome says what the root's says. -/
def Fits (l : Life) (root : Option Outcome) : Prop :=
  (l.2 = none ↔ l.1 = .run) ∧ (l.2 = none ↔ root = none) ∧
  (l.2 = some .failed ↔ root = some .failed) ∧ (l.2 = some .completed → root = some .completed)

def FreshLife (l : Life) : Prop := l = (.run, none)

theorem fits_of_fresh (l : Life) (h : FreshLife l) : Fits l none := by
  subst h
  simp [Fits]

/-! ## What the statements do to it -/

namespace Db

variable {db : Db}

/-- An update that leaves the outcome alone. -/
theorem forest_updateSession_same {id : SessionId} {u : SessionUpdate}
    (h : ∀ s, db.session? id = some s → (u.apply s).outcome = s.outcome) :
    (db.updateSession id u).forest = db.forest := by
  unfold forest
  congr 1
  funext j
  rw [session?_updateSession]
  by_cases hj : j = id
  · subst hj
    cases hs : db.session? j with
    | none => simp
    | some s =>
        obtain ⟨-, hexec, hparent, -⟩ := u.apply_identity s
        simp [Session.node, hexec, hparent, h s hs]
  · simp [hj]

/-- An update that matched. -/
theorem forest_updateSession {id : SessionId} {u : SessionUpdate} {s : Session}
    (hs : db.session? id = some s) (hm : u.matches s = true) :
    (db.updateSession id u).forest = db.forest.setMember id (u.set s).node := by
  unfold forest Forest.setMember
  congr 1
  funext j
  rw [session?_updateSession]
  by_cases hj : j = id
  · simp [hj, hs, SessionUpdate.apply_of_matches hm]
  · simp [hj]

theorem forest_updateExecution_same {id : ExecutionId} {u : ExecutionUpdate}
    (h : ∀ x, db.execution? id = some x → (u.apply x).life = x.life) :
    (db.updateExecution id u).forest = db.forest := by
  unfold forest
  congr 1
  funext j
  rw [execution?_updateExecution]
  by_cases hj : j = id
  · subst hj
    cases hx : db.execution? j with
    | none => simp
    | some x => simp [h x hx]
  · simp [hj]

theorem forest_updateExecution {id : ExecutionId} {u : ExecutionUpdate} {x : Execution}
    (hx : db.execution? id = some x) (hm : u.matches x = true) :
    (db.updateExecution id u).forest = db.forest.setLife id (u.set x).life := by
  unfold forest Forest.setLife
  congr 1
  funext j
  rw [execution?_updateExecution]
  by_cases hj : j = id
  · simp [hj, hx, ExecutionUpdate.apply, hm]
  · simp [hj]

theorem forest_insertSession {row : Session} {sessions : Sessions}
    (ht : db.sessions.insert? row = some sessions) :
    forest { db with sessions } = db.forest.setMember row.id row.node := by
  unfold forest Forest.setMember
  congr 1
  funext j
  show (sessions.find? j).map Session.node = _
  rw [Table.find?_insert? ht]
  split <;> rfl

theorem forest_insertExecution {row : Execution} {executions : Executions}
    (ht : db.executions.insert? row = some executions) :
    forest { db with executions } = db.forest.setLife row.id row.life := by
  unfold forest Forest.setLife
  congr 1
  funext j
  show (executions.find? j).map Execution.life = _
  rw [Table.find?_insert? ht]
  split <;> rfl

theorem forest_deleteSessions (ids : List SessionId) :
    (db.deleteSessions ids).forest = db.forest.remove ids := by
  unfold forest Forest.remove
  congr 1
  funext j
  rw [session?_deleteSessions]
  split <;> rfl

end Db

/-! ## Transactions that settle nothing -/

/-- The transactions that end or reopen a session or an execution, or mean to repair one. -/
def Write.settles : Write → Prop
  | .setDesiredTerminate _ _ _ | .terminateFailed _ _ _ | .repairRootOutcome _ _
  | .repairDesired _ | .repairExecution _ | .repairExecutionForTerminalRoot _ _
  | .recover _ _ _ => True
  | _ => False

section Quiet

variable {w : Write} {env : Env}

theorem outcome_of_quiet {s : Session} {u : SessionUpdate} (hw : ¬w.settles) (hs : Settled s)
    (hu : w.updates env s u) : (u.apply s).outcome = s.outcome := by
  unfold SessionUpdate.apply
  split
  · rename_i hm
    cases u with
    | terminate | terminateFailed | repairRootOutcome | recover =>
        first
          | (obtain ⟨_, _, rfl, -⟩ := hu; exact absurd trivial hw)
          | (obtain ⟨_, rfl, -⟩ := hu; exact absurd trivial hw)
    | repairChildOutcome outcome state =>
        -- a settled session that is to terminate has its outcome
        simp only [SessionUpdate.matches, Bool.and_eq_true, decide_eq_true_eq,
          Option.isNone_iff_eq_none] at hm
        exact absurd (hs.mpr hm.1.2) (by simp [hm.1.1])
    | _ => rfl
  · rfl

theorem life_of_quiet {id : ExecutionId} {u : ExecutionUpdate} (hw : ¬w.settles)
    (hu : w.updatesExecution id u) (x : Execution) : (u.apply x).life = x.life := by
  cases u with
  | touchLastActivity now => rfl
  | recover =>
      obtain ⟨_, _, _, rfl, -⟩ := hu
      exact absurd trivial hw
  | terminal outcome now =>
      rcases hu with ⟨_, _, _, rfl, -⟩ | ⟨_, _, _, rfl, -⟩ | ⟨_, _, rfl, -⟩ | ⟨_, rfl, -⟩ |
        ⟨_, rfl, -⟩ | ⟨_, rfl⟩ <;> exact absurd trivial hw

/-- What the creation of a root and the deletion of a child go on: no other root has been created in
the execution, and the child is no root. -/
structure Clear (w : Write) (env : Env) (db : Db) : Prop where
  created : ∀ executionId agentId cwd worktreePath baseCommitSha sandboxPolicy,
    w = .createSession executionId agentId cwd worktreePath baseCommitSha sandboxPolicy →
    ∀ s ∈ db.sessions.rows, s.executionId = executionId → s.parentSessionId = none → s.id = env.uuid
  deleted : ∀ id, w = .deleteSession id → ∀ s ∈ db.sessions.rows, s.id = id →
    s.parentSessionId ≠ none

theorem Clear.step {db db' : Db} (h : Clear w env db) (hs : Db.Step (w.permit env) db db') :
    Clear w env db' := by
  refine ⟨fun executionId agentId cwd worktreePath baseCommitSha sandboxPolicy hw s' hs' hexec hparent => ?_,
    fun id hw s' hs' hid => ?_⟩
  · rcases hs.descends hs' with
      ⟨s, hrow, hsteps⟩ | ⟨row, hins, hsteps⟩
    · rw [hsteps.identity.1]
      exact h.created _ _ _ _ _ _ hw s (Db.mem_of_session? hrow)
        (hsteps.identity.2.1.symm.trans hexec) (hsteps.identity.2.2.1.symm.trans hparent)
    · obtain ⟨_, _, _, _, _, _, _, _, rfl, -⟩ := hins
      exact hsteps.identity.1
  · rcases hs.descends hs' with
      ⟨s, hrow, hsteps⟩ | ⟨row, hins, hsteps⟩
    · rw [hsteps.identity.2.2.1]
      exact h.deleted id hw s (Db.mem_of_session? hrow) (hsteps.identity.1.symm.trans hid)
    · obtain ⟨_, _, _, _, _, _, _, _, -, ⟨h, -⟩ | ⟨_, _, _, h, -⟩ | ⟨_, _, _, _, h, -⟩⟩ := hins <;>
        (rw [hw] at h; cases h)

/-- What lies below a session has a parent. -/
theorem mem_subtree {db : Db} {n : Nat} {ids : List SessionId} {id : SessionId}
    (h : id ∈ db.subtree n ids) : id ∈ ids ∨ ∃ s ∈ db.sessions.rows, s.id = id ∧
      s.parentSessionId ≠ none := by
  induction n generalizing ids with
  | zero => exact .inl h
  | succ n ih =>
      rcases ih h with h | h
      · rcases List.mem_append.mp h with h | h
        · exact .inl h
        · obtain ⟨s, hs, rfl⟩ := List.mem_map.mp h
          obtain ⟨hmem, hp⟩ := List.mem_filter.mp hs
          refine .inr ⟨s, hmem, rfl, fun hnone => ?_⟩
          simp [hnone] at hp
      · exact .inr h

/-- **A statement of a transaction that settles nothing.** -/
theorem quiet_step {db db' : Db} (hw : ¬w.settles) (h : Db.Step (w.permit env) db db')
    (hsettled : ∀ s ∈ db.sessions.rows, Settled s) (hclear : Clear w env db) :
    Lineage.Steps Fits FreshLife db.forest db'.forest := by
  have hupdated : ∀ {id u}, (∀ s, db.session? id = some s → w.updates env s u) →
      Lineage.Steps Fits FreshLife db.forest (db.updateSession id u).forest := by
    intro id u hu
    rw [Db.forest_updateSession_same fun s hs =>
      outcome_of_quiet hw (hsettled s (Db.mem_of_session? hs)) (hu s hs)]
  cases h with
  | updateSession hu _ => exact hupdated hu
  | stopSession hu => exact hupdated hu
  | updateExecution hu =>
      rw [Db.forest_updateExecution_same fun x _ => life_of_quiet hw hu x]
  | @insertSession row sessions ht hexec hparent hi =>
      rw [Db.forest_insertSession ht]
      have hnew : db.session? row.id = none := (Table.insert?_eq_some ht).1
      have hm : db.forest.member row.id = none := by simp [Db.forest, hnew]
      have hg : db.forest.life row.executionId ≠ none := by simpa [Db.forest] using hexec
      obtain ⟨executionId, _, parent, _, _, _, _, _, rfl, hins⟩ := hi
      cases parent with
      | some p => exact .single (.join hm hg)
      | none =>
          refine .single (.lead hm hg fun j n hj hgroup hroot => ?_)
          obtain ⟨s, hs, rfl⟩ := Option.map_eq_some_iff.mp hj
          rcases hins with ⟨hcreate, -⟩ | ⟨_, _, _, -, hp, -⟩ | ⟨_, _, _, _, -, -, hp, -⟩
          · have hid := hclear.created _ _ _ _ _ _ hcreate s (Db.mem_of_session? hs) hgroup hroot
            rw [← Db.id_of_session? hs, hid] at hs
            exact Option.some_ne_none _ (hs.symm.trans hnew)
          · cases hp
          · cases hp
  | @insertExecution row executions ht hi =>
      rw [Db.forest_insertExecution ht]
      obtain ⟨new, -, -, hrun, hopen⟩ := hi
      refine .single (.launch ?_ ?_)
      · have hnew : db.execution? row.id = none := (Table.insert?_eq_some ht).1
        simp [Db.forest, hnew]
      · simp [FreshLife, Execution.life, hrun, hopen]
  | @deleteSessions ids hd =>
      rw [Db.forest_deleteSessions]
      obtain ⟨id, hdelete, rfl⟩ := hd
      refine .single (.leave fun j hj n hn => ?_)
      obtain ⟨s, hs, rfl⟩ := Option.map_eq_some_iff.mp hn
      rcases mem_subtree hj with hroot | ⟨s', hs', hid, hparent⟩
      · refine hclear.deleted id hdelete s (Db.mem_of_session? hs) ?_
        rw [Db.id_of_session? hs]
        exact List.mem_singleton.mp hroot
      · have hrow := Db.session?_of_mem hs'
        rw [hid, hs] at hrow
        obtain rfl := Option.some.inj hrow
        exact hparent
  | pushTask hs hp => exact .refl
  | deleteTasks hd => exact .refl
  | deleteTask hd => exact .refl
  | pushEvent hl => exact .refl
  | agents a b => exact .refl

/-- **A whole transaction that settles nothing.** -/
theorem quiet_steps {db db' : Db} (hw : ¬w.settles) (h : Db.Steps (w.permit env) db db')
    (hsettled : ∀ s ∈ db.sessions.rows, Settled s) (hclear : Clear w env db) :
    Lineage.Steps Fits FreshLife db.forest db'.forest := by
  refine (h.keeps (I := fun db₁ => (∀ s ∈ db₁.sessions.rows, Settled s) ∧ Clear w env db₁ ∧
    Lineage.Steps Fits FreshLife db.forest db₁.forest) ⟨hsettled, hclear, .refl⟩ ?_).2.2
  rintro db₁ db₂ hs ⟨hsettled₁, hclear₁, hsteps⟩
  refine ⟨fun s' hs' => ?_, hclear₁.step hs, hsteps.trans (quiet_step hw hs hsettled₁ hclear₁)⟩
  rcases hs.descends hs' with
    ⟨s, hrow, hr⟩ | ⟨row, hins, hr⟩
  · exact hr.keeps (hsettled₁ s (Db.mem_of_session? hrow)) fun s u hu hs => hs.update hu
  · obtain ⟨_, _, _, _, _, _, _, _, rfl, -⟩ := hins
    exact hr.keeps (settled_newSession _ _ _ _ _ _ _ _ _ _ _) fun s u hu hs => hs.update hu

end Quiet

/-! ## What the shared statements leave of it -/

section Bodies

open Transition

variable {ρ : Type} {db : Db} {env : Env}

theorem insertEvent_forest {executionId : ExecutionId} {id : Option SessionId}
    {eventType : EventType} {payload : Json} {now : Timestamp} {e : ρ} :
    Tx.wp (DbTx.insertEvent executionId id eventType payload now e)
      (fun _ db' => db'.forest = db.forest) (fun _ => True) db := by
  rw [DbTx.wp_insertEvent]
  exact ⟨fun _ => rfl, fun _ => trivial⟩

theorem insertTask_forest {executionId : ExecutionId} {id : SessionId} {payload : Json}
    {source : Option TaskSource} {now : Timestamp} {e : ρ} :
    Tx.wp (DbTx.insertTask executionId id payload source now e)
      (fun _ db' => db'.forest = db.forest) (fun _ => True) db := by
  rw [DbTx.wp_insertTask]
  exact ⟨fun _ => rfl, fun _ => trivial⟩

theorem resumeStopped_forest {executionId : ExecutionId} {id : SessionId} {desiredBy : DesiredBy}
    {e : ρ} : Tx.wp (resumeStopped env executionId id desiredBy e)
      (fun _ db' => db'.forest = db.forest) (fun _ => True) db := by
  have hsame : (db.updateSession id (.resume desiredBy)).forest = db.forest :=
    Db.forest_updateSession_same fun s _ => by
      unfold SessionUpdate.apply
      split <;> rfl
  unfold resumeStopped
  rw [Tx.wp_bind, DbTx.wp_updateSession, Tx.wp_when]
  refine ⟨fun _ => Tx.seq insertEvent_forest fun _ _ h => h.trans hsame, fun _ => hsame⟩

theorem writeParentNotification_forest {α : Type} {session : Session} {parentId : SessionId}
    {type : Notification} :
    Tx.wp (writeParentNotification env session parentId type : DbTx (Except Rejected α) Unit)
      (fun _ db' => db'.forest = db.forest) (fun _ => True) db := by
  unfold writeParentNotification
  refine DbTx.seq_execution (fun x _ => ?_) fun _ => trivial
  rw [Tx.wp_when]
  refine ⟨fun _ => DbTx.seq_session (fun parent _ => ?_) fun _ => trivial, fun _ => rfl⟩
  rw [Tx.wp_when]
  refine ⟨fun _ => ?_, fun _ => rfl⟩
  refine Tx.seq (Q := fun _ db' => db'.forest = db.forest) ?_ fun _ db₁ h₁ => ?_
  · rw [Tx.wp_when]
    exact ⟨fun _ => resumeStopped_forest, fun _ => rfl⟩
  · exact Tx.seq insertTask_forest fun _ db₂ h₂ => Tx.seq insertEvent_forest fun _ _ h₃ =>
      h₃.trans (h₂.trans h₁)

/-- An open execution is ended. -/
theorem forest_terminal {id : ExecutionId} {outcome : Outcome} {now : Timestamp}
    (h : db.forest.life id = some (.run, none)) :
    (db.updateExecution id (.terminal outcome now)).forest =
      db.forest.setLife id (.terminate, some outcome) := by
  obtain ⟨x, hx, hlife⟩ := Option.map_eq_some_iff.mp h
  have hopen : x.outcome = none := congrArg Prod.snd hlife
  exact Db.forest_updateExecution hx (by simp [ExecutionUpdate.matches, hopen])

/-- One that has ended stays as it is. -/
theorem forest_terminal_ended {id : ExecutionId} {outcome : Outcome} {now : Timestamp}
    (h : ∀ l, db.forest.life id = some l → l.2 ≠ none) :
    (db.updateExecution id (.terminal outcome now)).forest = db.forest := by
  refine Db.forest_updateExecution_same fun x hx => ?_
  have hended : x.outcome ≠ none := h x.life (by simp [Db.forest, hx])
  unfold ExecutionUpdate.apply
  rw [if_neg]
  simpa [ExecutionUpdate.matches] using hended

theorem writeExecutionTerminal_forest {executionId : ExecutionId} {outcome : Outcome} {e : ρ} :
    Tx.wp (writeExecutionTerminal env executionId outcome e)
      (fun _ db' => db'.forest = (db.updateExecution executionId (.terminal outcome env.now)).forest)
      (fun _ => True) db := by
  unfold writeExecutionTerminal
  rw [Tx.wp_bind, DbTx.wp_updateExecution, Tx.wp_when]
  exact ⟨fun _ => Tx.seq insertEvent_forest fun _ _ h => h, fun _ => rfl⟩

end Bodies

/-! ## Transactions that settle a session -/

section Settling

open Transition

variable {db : Db} {env : Env}

theorem unnotifiedPass_ne_failed {sessions : List Session} :
    unnotifiedPass db sessions ≠ some .failed := by
  induction sessions with
  | nil => simp [unnotifiedPass]
  | cons s rest ih =>
      unfold unnotifiedPass
      split
      · split
        · split
          · exact nofun
          · split
            · exact nofun
            · exact ih
        · exact ih
      · exact ih

/-- Quiet in the execution's eyes is quiet in the session's own. -/
theorem isQuiescent_of_quiescentSlice {s : Session} {pending : Nat}
    (h : quiescentSlice s pending = true) : isQuiescent s pending = true := by
  simp only [quiescentSlice, Bool.and_eq_true, Bool.or_eq_true, decide_eq_true_eq,
    Option.isNone_iff_eq_none] at h
  obtain ⟨⟨hstate, hpending⟩, htoken⟩ := h
  have hno : ¬(0 < pending ∨ s.commandToken.isSome = true) := by simp [hpending, htoken]
  unfold isQuiescent
  rw [if_neg hno]
  rcases hstate with (hidle | hfresh) | hstopped
  · simp [hidle]
  · simp [hfresh.1.1, hfresh.1.2]
  · simp [hstopped.1, hstopped.2]

theorem sessionOutcome_ne_failed (s : Session) (pending : Nat) :
    sessionOutcome s pending ≠ .failed := by
  unfold sessionOutcome
  split <;> exact nofun

/-- **The outcome derived for an execution whose root is about to end** is no failure, and says
completed only if the root's own will. -/
theorem derived_fits (hagrees : Agrees Fits FreshLife db.forest) {root : Session}
    (hroot : root ∈ db.sessions.rows) (hparent : root.parentSessionId = none)
    (hlive : root.outcome = none) {outcome : Outcome}
    (h : deriveExecutionOutcome db root.executionId = some outcome) :
    Fits (.terminate, some outcome) (some (sessionOutcome root (db.pendingTurns root.id))) := by
  have hmem : root ∈ db.sessionsOf root.executionId := by simp [Db.sessionsOf, hroot]
  unfold deriveExecutionOutcome at h
  rw [if_neg ?_] at h
  · have hne := sessionOutcome_ne_failed root (db.pendingTurns root.id)
    have hderived : outcome ≠ .failed := by
      rintro rfl
      split at h
      · cases h
      · split at h
        · cases h
        · exact unnotifiedPass_ne_failed h
    refine ⟨by simp, by simp, by simp [hderived, hne], fun hcompleted => ?_⟩
    obtain rfl := Option.some.inj hcompleted
    split at h
    · cases h
    · split at h
      · cases h
      · rename_i hquiet
        have hslice : quiescentSlice root (db.pendingTurns root.id) = true := by
          by_contra hno
          exact hquiet (List.any_eq_true.mpr ⟨root, hmem, by simpa [hlive] using hno⟩)
        unfold sessionOutcome
        rw [if_pos (isQuiescent_of_quiescentSlice hslice)]
  · -- the only root of the execution is live
    intro hany
    obtain ⟨s, hs, hfailed⟩ := List.any_eq_true.mp hany
    simp only [Bool.and_eq_true, Option.isNone_iff_eq_none, decide_eq_true_eq] at hfailed
    obtain ⟨hsmem, hgroup⟩ := List.mem_filter.mp hs
    have hid : s.id = root.id := hagrees.single s.id s.node root.id root.node
      (by simp [Db.forest, Db.session?_of_mem hsmem]) (by simp [Db.forest, Db.session?_of_mem hroot])
      hfailed.1 hparent (by simpa [Session.node] using hgroup)
    rw [db.sessions.eq_of_key_eq hsmem hroot hid, hlive] at hfailed
    cases hfailed.2

/-- The row of a session as a member. -/
theorem member_of_row {id : SessionId} {row : Session} (h : db.session? id = some row) :
    db.forest.member id = some row.node := by
  simp [Db.forest, h]

/-- A live root's execution is open. -/
theorem life_of_live_root (hagrees : Agrees Fits FreshLife db.forest) {root : Session}
    (hroot : db.session? root.id = some root) (hparent : root.parentSessionId = none)
    (hlive : root.outcome = none) : db.forest.life root.executionId = some (.run, none) := by
  have hmember := member_of_row hroot
  obtain ⟨l, hl⟩ := Option.ne_none_iff_exists'.mp (hagrees.owned _ _ hmember)
  obtain ⟨hrun, hopen, -⟩ := hagrees.fits _ _ hmember hparent l hl
  have hnone : l.2 = none := hopen.mpr hlive
  have hl' : l = (.run, none) := Prod.ext (hrun.mp hnone) hnone
  rw [← hl', ← hl]
  rfl

/-- The outcome of a session that has just been set, as a change of the forest. -/
theorem forest_judged {id : SessionId} {u : SessionUpdate} {row : Session}
    (hrow : db.session? id = some row) (hm : u.matches row = true) {outcome : Option Outcome}
    (ho : (u.set row).outcome = outcome) :
    (db.updateSession id u).forest = db.forest.setMember id
      ⟨row.executionId, row.parentSessionId, outcome⟩ := by
  rw [Db.forest_updateSession hrow hm]
  obtain ⟨-, hexec, hparent, -⟩ := u.set_identity row
  simp [Session.node, hexec, hparent, ho]

/-- A session with a parent is judged. -/
theorem steps_of_child {id : SessionId} {u : SessionUpdate} {row : Session}
    (hrow : db.session? id = some row) (hm : u.matches row = true)
    (hchild : row.parentSessionId ≠ none) :
    Lineage.Steps Fits FreshLife db.forest (db.updateSession id u).forest := by
  rw [forest_judged hrow hm rfl]
  obtain ⟨p, hp⟩ := Option.ne_none_iff_exists'.mp hchild
  have hmember := member_of_row hrow
  simp only [Session.node, hp] at hmember
  rw [hp]
  exact .single (.judge hmember)

/-- A root is settled with its execution. -/
theorem steps_of_root {id : SessionId} {row : Session} (hrow : db.session? id = some row)
    (hroot : row.parentSessionId = none) {outcome : Option Outcome} {l : Life}
    (hfits : Fits l outcome) :
    Lineage.Steps Fits FreshLife db.forest
      ((db.forest.setMember id ⟨row.executionId, row.parentSessionId, outcome⟩).setLife
        row.executionId l) := by
  have hmember := member_of_row hrow
  simp only [Session.node, hroot] at hmember
  rw [hroot]
  exact .single (.settle hmember hfits)

theorem outcome_of_live {s : Session} (h : Settled s) (hlive : s.desired ≠ .terminate) :
    s.outcome = none := by
  cases ho : s.outcome with
  | none => rfl
  | some o => exact absurd (h.mp (by simp [ho])) hlive

/-- **`set_desired`, to terminate.** -/
theorem setDesiredTerminate_steps {session : Session} {desiredBy : DesiredBy}
    {parent : Option SessionId} (hagrees : Agrees Fits FreshLife db.forest)
    (hsettled : ∀ s ∈ db.sessions.rows, Settled s)
    (hsnap : ∀ row, db.session? session.id = some row → SameIdentity session row) :
    Lineage.Steps Fits FreshLife db.forest
      ((Write.setDesiredTerminate session desiredBy parent).run env db).2.forest := by
  refine rejecting_post (m := fun env => setDesiredTerminate env session desiredBy parent)
    (P := fun _ db' => Lineage.Steps Fits FreshLife db.forest db'.forest) (fun _ => .refl) ?_
  unfold setDesiredTerminate
  refine DbTx.seq_execution (fun _ _ => ?_) fun _ => .refl
  refine DbTx.seq_session (fun row hrow => ?_) fun _ => .refl
  refine Tx.seq_require (fun hlive => Tx.seq_read ?_) fun _ => .refl
  obtain ⟨hexec, hparent, -⟩ := hsnap row hrow
  have hopen := outcome_of_live (hsettled row (Db.mem_of_session? hrow)) hlive
  refine Tx.seq_of (fun _ => .refl) derivedIf_wp ?_
  rintro derived db' ⟨hsame, hchild, hroot⟩
  subst hsame
  refine DbTx.seq_updateSession (fun row' hrow' hm => ?_) fun _ => .refl
  obtain rfl : row = row' := Option.some.inj (hrow.symm.trans hrow')
  have hjudged := forest_judged hrow hm rfl
  refine Tx.seq_of (fun _ => .refl) insertEvent_forest fun _ db₁ h₁ => ?_
  refine Tx.seq_of (Q := fun _ db₂ => db₂.forest = db₁.forest) (fun _ => .refl) ?_ fun _ db₂ h₂ => ?_
  · rw [Tx.wp_forSome]
    exact ⟨fun _ _ => writeParentNotification_forest, fun _ => rfl⟩
  have hforest : db₂.forest = _ := h₂.trans (h₁.trans hjudged)
  cases hp : row.parentSessionId with
  | some p =>
      rw [hchild (by simp [← hparent, hp])]
      show Lineage.Steps Fits FreshLife _ db₂.forest
      rw [h₂, h₁]
      exact steps_of_child hrow hm (by simp [hp])
  | none =>
      obtain ⟨outcome, rfl, hderived⟩ := hroot (by simp [← hparent, hp])
      refine Tx.seq_of (fun _ => .refl) writeExecutionTerminal_forest fun _ db₃ h₃ => ?_
      show Lineage.Steps Fits FreshLife _ db₃.forest
      have hid := Db.id_of_session? hrow
      have hlife := life_of_live_root hagrees (by rw [hid]; exact hrow) hp hopen
      rw [h₃, forest_terminal (by rw [hforest]; rw [← hexec]; exact hlife), hforest, ← hexec]
      refine steps_of_root hrow hp ?_
      rw [← hexec] at hderived
      rw [← hid]
      exact derived_fits hagrees (Db.mem_of_session? hrow) hp hopen hderived

/-- **`terminate_failed`.** -/
theorem terminateFailed_steps {session : Session} {desiredBy : DesiredBy} {requireCrashed : Bool}
    (hagrees : Agrees Fits FreshLife db.forest) (hsettled : ∀ s ∈ db.sessions.rows, Settled s)
    (hsnap : ∀ row, db.session? session.id = some row → SameIdentity session row) :
    Lineage.Steps Fits FreshLife db.forest
      ((Write.terminateFailed session desiredBy requireCrashed).run env db).2.forest := by
  refine rejecting_post (m := fun env => terminateFailed env session desiredBy requireCrashed)
    (P := fun _ db' => Lineage.Steps Fits FreshLife db.forest db'.forest) (fun _ => .refl) ?_
  unfold terminateFailed
  refine DbTx.seq_execution (fun _ _ => ?_) fun _ => .refl
  refine DbTx.seq_updateSession (fun row hrow hm => ?_) fun _ => .refl
  obtain ⟨hexec, hparent, -⟩ := hsnap row hrow
  have hlive : row.desired ≠ .terminate := by
    simp only [SessionUpdate.matches, Bool.and_eq_true, decide_eq_true_eq] at hm
    exact hm.1
  have hopen := outcome_of_live (hsettled row (Db.mem_of_session? hrow)) hlive
  refine Tx.seq_of (fun _ => .refl) insertEvent_forest fun _ db₁ h₁ => ?_
  have hforest : db₁.forest = _ := h₁.trans (forest_judged hrow hm rfl)
  refine Tx.seq_when (fun hroot => ?_) fun hchild => ?_
  · have hp : row.parentSessionId = none := by rw [hparent]; simpa using hroot
    refine Tx.wp_mono writeExecutionTerminal_forest (fun _ db₂ h₂ => ?_) fun _ _ => .refl
    show Lineage.Steps Fits FreshLife _ db₂.forest
    have hlife := life_of_live_root hagrees (by rw [Db.id_of_session? hrow]; exact hrow) hp hopen
    rw [h₂, forest_terminal (by rw [hforest, ← hexec]; exact hlife), hforest, ← hexec]
    exact steps_of_root hrow hp (by simp [Fits, SessionUpdate.set])
  · show Lineage.Steps Fits FreshLife _ db₁.forest
    rw [h₁]
    exact steps_of_child hrow hm (by rw [hparent]; simpa using hchild)

/-- The root's row as the execution's leader, when its snapshot is given by id and execution. -/
theorem ended_life (hagrees : Agrees Fits FreshLife db.forest) {root : Session}
    (hroot : db.session? root.id = some root) (hparent : root.parentSessionId = none)
    (hended : root.outcome ≠ none) :
    ∀ l, db.forest.life root.executionId = some l → l.2 ≠ none := fun l hl hopen =>
  hended ((hagrees.fits _ _ (member_of_row hroot) hparent l hl).2.1.mp hopen)

/-- **The repair of a root's outcome** finds nothing to repair. -/
theorem repairRootOutcome_steps {session : Session} {executionOpen : Bool}
    (hsettled : ∀ s ∈ db.sessions.rows, Settled s) :
    Lineage.Steps Fits FreshLife db.forest
      ((Write.repairRootOutcome session executionOpen).run env db).2.forest := by
  refine scheduling_post (m := fun env => Reconciler.repairRootOutcome env session executionOpen)
    (P := fun _ db' => Lineage.Steps Fits FreshLife db.forest db'.forest) (fun _ _ => .refl) ?_
  unfold Reconciler.repairRootOutcome
  refine DbTx.seq_execution (fun _ _ => ?_) fun _ => .refl
  refine DbTx.seq_session (fun row hrow => ?_) fun _ => .refl
  refine Tx.seq_require (fun hbroken => ?_) fun _ => .refl
  rw [not_or, not_not] at hbroken
  exact absurd ((hsettled row (Db.mem_of_session? hrow)).mpr hbroken.1) hbroken.2

/-- **The repair of `desired`** finds nothing to repair. -/
theorem repairDesired_steps {session : Session} (hsettled : ∀ s ∈ db.sessions.rows, Settled s) :
    Lineage.Steps Fits FreshLife db.forest
      ((Write.repairDesired session).run env db).2.forest := by
  refine scheduling_post (m := fun env => Reconciler.repairDesired env session)
    (P := fun _ db' => Lineage.Steps Fits FreshLife db.forest db'.forest) (fun _ _ => .refl) ?_
  unfold Reconciler.repairDesired
  refine DbTx.seq_execution (fun _ _ => ?_) fun _ => .refl
  refine DbTx.seq_session (fun row hrow => ?_) fun _ => .refl
  refine Tx.seq_when (fun hbroken => ?_) fun _ => .refl
  rw [not_or] at hbroken
  have hended : row.outcome.isSome = true := by
    cases ho : row.outcome with
    | none => simp [ho] at hbroken
    | some o => rfl
  exact absurd ((hsettled row (Db.mem_of_session? hrow)).mp hended) hbroken.2

/-- **The repair of an execution** finds it ended, as its root has. -/
theorem repairExecution_steps {session : Session} (hagrees : Agrees Fits FreshLife db.forest)
    (hsnap : ∀ row, db.session? session.id = some row → SameIdentity session row)
    (hroot : session.parentSessionId = none) :
    Lineage.Steps Fits FreshLife db.forest
      ((Write.repairExecution session).run env db).2.forest := by
  refine scheduling_post (m := fun env => Reconciler.repairExecution env session)
    (P := fun _ db' => Lineage.Steps Fits FreshLife db.forest db'.forest) (fun _ _ => .refl) ?_
  unfold Reconciler.repairExecution
  refine DbTx.seq_execution (fun _ _ => ?_) fun _ => .refl
  refine DbTx.seq_session (fun row hrow => ?_) fun _ => .refl
  refine Tx.seq_require (fun hended => Tx.seq_read ?_) fun _ => .refl
  refine Tx.seq_ofOption (fun outcome _ => ?_) fun _ => .refl
  obtain ⟨hexec, hparent, -⟩ := hsnap row hrow
  refine Tx.seq_of (fun _ => .refl) writeExecutionTerminal_forest fun _ db₁ h₁ => ?_
  show Lineage.Steps Fits FreshLife _ db₁.forest
  rw [h₁, forest_terminal_ended]
  rw [← hexec]
  refine ended_life hagrees (by rw [Db.id_of_session? hrow]; exact hrow) (hparent.trans hroot) ?_
  rw [← Option.isSome_iff_ne_none]
  exact hended

/-- **`repair_execution_for_terminal_root`** likewise. -/
theorem repairExecutionForTerminalRoot_steps {root : SessionId} {executionId : ExecutionId}
    (hagrees : Agrees Fits FreshLife db.forest)
    (hsnap : ∀ row, db.session? root = some row →
      row.executionId = executionId ∧ row.parentSessionId = none) :
    Lineage.Steps Fits FreshLife db.forest
      ((Write.repairExecutionForTerminalRoot root executionId).run env db).2.forest := by
  refine scheduling_post (m := fun env => Reconciler.repairExecutionForTerminalRoot env root executionId)
    (P := fun _ db' => Lineage.Steps Fits FreshLife db.forest db'.forest) (fun _ _ => .refl) ?_
  unfold Reconciler.repairExecutionForTerminalRoot
  refine DbTx.seq_execution (fun _ _ => ?_) fun _ => .refl
  refine DbTx.seq_session (fun row hrow => ?_) fun _ => .refl
  obtain ⟨hexec, hparent⟩ := hsnap row hrow
  refine Tx.seq_when (fun hended => ?_) fun _ => .refl
  refine DbTx.seq_execution (fun x _ => ?_) fun _ => .refl
  rw [Tx.wp_when]
  refine ⟨fun _ => Tx.seq_read (Tx.seq_ofOption (fun outcome _ => ?_) fun _ => .refl), fun _ => .refl⟩
  refine Tx.wp_mono writeExecutionTerminal_forest (fun _ db₁ h₁ => ?_) fun _ _ => .refl
  show Lineage.Steps Fits FreshLife _ db₁.forest
  rw [h₁, forest_terminal_ended]
  rw [← hexec]
  refine ended_life hagrees (by rw [Db.id_of_session? hrow]; exact hrow) hparent fun hnone => ?_
  exact hended (.inl (by simp [hnone]))

/-- An execution that has ended is reopened. -/
theorem recoverExecution_forest {ρ : Type} {executionId : ExecutionId} {e : ρ} :
    Tx.wp (SessionsApi.recoverExecution executionId e) (fun _ db' =>
      (∀ l, db.forest.life executionId = some l → l.2 ≠ none) →
        db'.forest = db.forest.setLife executionId (.run, none)) (fun _ => True) db := by
  unfold SessionsApi.recoverExecution
  refine DbTx.seq_execution (fun x hx => ?_) fun _ => trivial
  refine Tx.seq_when (fun hended => ?_) fun hno hended => ?_
  · rw [Tx.wp_bind, DbTx.wp_updateExecution]
    exact fun _ => Db.forest_updateExecution hx (by
      simpa [Reconciler.executionEnded, ExecutionUpdate.matches] using hended)
  · have hx' : x.outcome ≠ none := hended x.life (by simp [Db.forest, hx])
    exact absurd (by simp [Reconciler.executionEnded, Option.isSome_iff_ne_none.mpr hx']) hno

/-- **`recover_session_handler`.** -/
theorem recover_steps {session : Session} {clearAgentSessionId : Bool} {message : Option String}
    (hagrees : Agrees Fits FreshLife db.forest)
    (hsnap : ∀ row, db.session? session.id = some row → SameIdentity session row) :
    Lineage.Steps Fits FreshLife db.forest
      ((Write.recover session clearAgentSessionId message).run env db).2.forest := by
  refine scheduling_post (m := fun env => SessionsApi.recover env session clearAgentSessionId message)
    (P := fun _ db' => Lineage.Steps Fits FreshLife db.forest db'.forest) (fun _ _ => .refl) ?_
  unfold SessionsApi.recover
  refine DbTx.seq_execution (fun _ _ => ?_) fun _ => .refl
  refine Tx.seq (Q := fun _ db' => db' = db) ?_ ?_
  · rw [Tx.wp_when]
    refine ⟨fun _ => ?_, fun _ => rfl⟩
    unfold SessionsApi.recheckChild
    refine DbTx.seq_execution (fun x _ => ?_) fun _ => .refl
    refine Tx.seq_require (fun _ => Tx.seq_read ?_) fun _ => .refl
    rw [Tx.wp_require]
    exact ⟨fun _ => rfl, fun _ => .refl⟩
  intro _ db' hsame
  rw [hsame]
  refine DbTx.seq_agent (fun agent _ => ?_) fun _ => .refl
  refine Tx.seq_require (fun _ => ?_) fun _ => .refl
  refine DbTx.seq_updateSession (fun row hrow hm => ?_) fun _ => .refl
  obtain ⟨hexec, hparent, -⟩ := hsnap row hrow
  refine Tx.seq_of (Q := fun _ db₁ => db₁.forest = (db.updateSession session.id
    (.recover clearAgentSessionId)).forest) (fun _ => .refl) ?_ fun _ db₁ h₁ => ?_
  · rw [Tx.wp_forSome]
    exact ⟨fun _ _ => insertTask_forest, fun _ => rfl⟩
  have hforest : db₁.forest = _ := h₁.trans (forest_judged hrow hm rfl)
  refine Tx.seq_of (Q := fun _ db₂ => Lineage.Steps Fits FreshLife db.forest db₂.forest)
    (fun _ => .refl) ?_ fun recovered db₂ h₂ => ?_
  · unfold SessionsApi.reopenIf
    cases hp : row.parentSessionId with
    | some p =>
        rw [if_neg (by simp [← hparent, hp])]
        show Lineage.Steps Fits FreshLife _ db₁.forest
        rw [h₁]
        exact steps_of_child hrow hm (by simp [hp])
    | none =>
        rw [if_pos (by simp [← hparent, hp])]
        refine Tx.wp_mono recoverExecution_forest (fun _ db₂ h₂ => ?_) fun _ _ => trivial
        have hfailed : row.outcome = some .failed := by simpa [SessionUpdate.matches] using hm
        have hended := ended_life hagrees (by rw [Db.id_of_session? hrow]; exact hrow) hp
          (by simp [hfailed])
        rw [h₂ (by rw [hforest, ← hexec]; exact hended), hforest, ← hexec]
        exact steps_of_root hrow hp (by simp [Fits, SessionUpdate.set, SessionUpdate.clearCommand])
  · refine Tx.seq_of (fun _ => .refl) insertEvent_forest fun _ db₃ h₃ => ?_
    refine Tx.seq_of (Q := fun _ db₄ => db₄.forest = db₃.forest) (fun _ => .refl) ?_ fun _ db₄ h₄ => ?_
    · rw [Tx.wp_when]
      exact ⟨fun _ => Tx.seq insertEvent_forest fun _ _ h => h, fun _ => rfl⟩
    · show Lineage.Steps Fits FreshLife _ db₄.forest
      rw [h₄, h₃]
      exact h₂

end Settling

/-! ## Every call -/

/-- A delegated session is no root. -/
theorem Reachable.parent_of_delegated {history : History} (h : Reachable history) {id : SessionId}
    (hdel : Delegated history id) : ∀ s ∈ (current history).sessions.rows, s.id = id →
      s.parentSessionId ≠ none := by
  induction history with
  | nil => intro s hs; cases hs
  | cons e history ih =>
      obtain ⟨hr, hbefore, hfresh⟩ := h.of_cons
      obtain ⟨e₀, he₀, huuid, hcreated⟩ := hdel
      intro s' hs' hid
      rcases call_effect e with ⟨w, hw, hsteps⟩ | hsame
      · rcases hsteps.descends hs' with ⟨s, hs, hrow⟩ | ⟨row, hrow', hrow⟩
        · rw [hbefore] at hs
          have hsid : s.id = id := hrow.identity.1.symm.trans hid
          rw [hrow.identity.2.2.1]
          rcases List.mem_cons.mp he₀ with rfl | he₀
          · exact absurd (hr.drawn s (Db.mem_of_session? hs)).1 (by rw [hsid, ← huuid]; exact hfresh w hw)
          · exact ih hr ⟨e₀, he₀, huuid, hcreated⟩ s (Db.mem_of_session? hs) hsid
        · obtain ⟨_, _, parent, _, _, _, _, _, rfl, hins⟩ := hrow'
          have hsid : (envOf e).uuid = id := hrow.identity.1.symm.trans hid
          obtain ⟨_, _, _, _, _, _, _, hop⟩ := hcreated
          have hsame : e₀ = e := h.uuid_unique he₀ List.mem_cons_self hop hw (huuid.trans hsid.symm)
          subst hsame
          obtain rfl : w = _ := Op.write.inj (hw.symm.trans hop)
          rw [hrow.identity.2.2.1]
          rcases hins with ⟨h, -⟩ | ⟨_, _, _, -, rfl, -⟩ | ⟨_, _, _, _, h, -⟩
          · cases h
          · exact Option.some_ne_none _
          · cases h
      · rw [current_cons, hsame, hbefore] at hs'
        rcases List.mem_cons.mp he₀ with rfl | he₀
        · obtain ⟨_, _, _, _, _, _, _, hop⟩ := hcreated
          have hdrawn := (hr.drawn s' hs').1
          rw [hid, ← huuid] at hdrawn
          exact absurd hdrawn (hfresh _ hop)
        · exact ih hr ⟨e₀, he₀, huuid, hcreated⟩ s' hs' hid

/-- The snapshot of a call agrees on identity with the row the call meets. -/
theorem Reachable.snapshot {history : History} (h : Reachable history) {session : Session}
    (hseen : Seen history session) :
    ∀ row, (current history).session? session.id = some row → SameIdentity session row :=
  fun _ hrow => h.identity hseen (Db.mem_of_session? hrow) (Db.id_of_session? hrow)

/-- **Every call of a disciplined history is a sequence of steps on the forest.** -/
theorem call_steps {e : Event scheduler} {history : History} (h : Trace disciplined (e :: history))
    (hagrees : Agrees Fits FreshLife (current history).forest) :
    Lineage.Steps Fits FreshLife (current history).forest (after e).forest := by
  have hreach := reachable_of_trace h
  obtain ⟨hr, hbefore, -⟩ := hreach.of_cons
  obtain ⟨-, hproper, -⟩ := h.of_cons
  have hsettled := hr.settled
  rcases call_effect e with ⟨w, hw, hsteps⟩ | hsame
  · have hok := hproper w hw
    rw [hbefore] at hsteps
    rw [after_write hw, hbefore]
    cases w with
    | setDesiredTerminate session desiredBy parent =>
        exact setDesiredTerminate_steps hagrees hsettled (hr.snapshot hok.1)
    | terminateFailed session desiredBy requireCrashed =>
        exact terminateFailed_steps hagrees hsettled (hr.snapshot hok)
    | repairRootOutcome session executionOpen => exact repairRootOutcome_steps hsettled
    | repairDesired session => exact repairDesired_steps hsettled
    | repairExecution session => exact repairExecution_steps hagrees (hr.snapshot hok.1) hok.2
    | repairExecutionForTerminalRoot root executionId =>
        obtain ⟨s, hseen, rfl, hexec, hroot⟩ := hok
        refine repairExecutionForTerminalRoot_steps hagrees fun row hrow => ?_
        obtain ⟨hsame, hparent, -⟩ := hr.snapshot hseen row hrow
        exact ⟨hsame.trans hexec, hparent.trans hroot⟩
    | recover session clear message => exact recover_steps hagrees (hr.snapshot hok)
    | createSession executionId =>
        refine quiet_steps ?_ (Write.steps _ _ _) hsettled ⟨?_, fun _ => nofun⟩
        · exact fun hw => hw
        intro executionId' _ _ _ _ _ hsame s hs hexec hroot
        obtain ⟨rfl, -⟩ := Write.createSession.inj hsame
        exact absurd hroot (hok.2 s hs hexec)
    | deleteSession id =>
        refine quiet_steps ?_ (Write.steps _ _ _) hsettled ⟨fun _ _ _ _ _ _ => nofun, ?_⟩
        · exact fun hw => hw
        intro id' hsame
        obtain rfl := Write.deleteSession.inj hsame
        exact hr.parent_of_delegated hok
    | _ =>
        refine quiet_steps ?_ (Write.steps _ _ _) hsettled ⟨fun _ _ _ _ _ _ => nofun, fun _ => nofun⟩
        exact fun hw => hw
  · rw [hsame, hbefore]

/-- **In every state of a disciplined history, executions and their roots agree.** -/
theorem forest_agrees {history : History} (h : Trace disciplined history) :
    Agrees Fits FreshLife (current history).forest := by
  induction history with
  | nil => exact ⟨fun _ _ => nofun, fun _ _ => nofun, fun _ _ => nofun, fun _ _ _ _ => nofun⟩
  | cons e history ih =>
      exact Lineage.Steps.agrees fits_of_fresh (call_steps h (ih h.of_cons.1)) (ih h.of_cons.1)

end AgentBeacon
