import AgentBeacon.Correctness.Outcome
import AgentBeacon.System.Continuation
import AgentBeacon.System.Serving

/-!
# `Correctness.Width` — how many live children a session has

The width of an execution is checked where a child is delegated, in the statement that inserts it; nothing
keeps two such statements from counting before either inserts. Two other transactions make a child live: a
continuation inserts one, a recovery takes an outcome back. Neither counts. In a run in which each of these
finds room, and the counts of the others are still right, no session ever has more live children than its
execution allows; in a run in which one does not, a session may.
-/

namespace AgentBeacon
open Relational Interleave Transaction

/-! ## What never changes -/

/-- Two rows of one execution that have been seen have the same limits. -/
theorem Reachable.limits_of_seen {history : History} (h : Reachable history) {x x' : Execution}
    (hseen : SeenExecution history x) (hx' : (current history).execution? x.id = some x') :
    x'.limits = x.limits := by
  obtain ⟨x'', hx'', hlimits, -⟩ := h.execution_of_seen hseen
  rw [hx'] at hx''
  rw [Option.some.inj hx'']
  exact hlimits

/-- The parent of a session has been seen, in the session's execution. -/
theorem parent_seen {history : History} (h : Trace disciplined history) {c : Session}
    (hc : Seen history c ∨ c ∈ (current history).sessions.rows) {id : SessionId}
    (hid : c.parentSessionId = some id) :
    ∃ p, Seen history p ∧ p.id = id ∧ p.executionId = c.executionId := by
  induction history generalizing c with
  | nil =>
      rcases hc with ⟨e, he, -⟩ | hc
      · cases he
      · cases hc
  | cons e history ih =>
      obtain ⟨ht, hproper, -, -⟩ := h.of_cons
      obtain ⟨-, hbefore, -⟩ := (reachable_of_trace h).of_cons
      have hprev : ∀ c, Seen history c ∨ c ∈ (before e).sessions.rows →
          c.parentSessionId = some id →
            ∃ p, Seen (e :: history) p ∧ p.id = id ∧ p.executionId = c.executionId := by
        intro c hc hid
        obtain ⟨p, hp, hrest⟩ := ih ht (hbefore ▸ hc) hid
        exact ⟨p, hp.mono (List.suffix_cons e history), hrest⟩
      rcases hc with ⟨e', he', hrow⟩ | hc
      · rcases List.mem_cons.mp he' with rfl | he'
        · exact hprev c (.inr hrow) hid
        · exact hprev c (.inl ⟨e', he', hrow⟩) hid
      rcases call_effect e with ⟨w, hw, hsteps⟩ | hsame
      · rcases hsteps.descends hc with ⟨c₀, hc₀, hrow⟩ | ⟨row, hrow', hrow⟩
        · rw [hrow.identity.2.1]
          exact hprev c₀ (.inr (Db.mem_of_session? hc₀)) (hrow.identity.2.2.1.symm.trans hid)
        · obtain ⟨executionId, _, parent, _, _, _, _, _, rfl, hins⟩ := hrow'
          have hexec : c.executionId = executionId := hrow.identity.2.1
          have hparent : parent = some id := hrow.identity.2.2.1.symm.trans hid
          rw [hexec]
          rcases hins with ⟨-, rfl⟩ | ⟨parentId, active, maxWidth, rfl, rfl, -⟩ |
            ⟨old, parentId, _, _, rfl, rfl, rfl, -⟩
          · cases hparent
          · -- the caller has read the parent
            obtain ⟨⟨⟨p, hp, hpid, hpexec⟩, -⟩, -⟩ := hproper _ hw
            exact ⟨p, hp.mono (List.suffix_cons e history), hpid.trans (Option.some.inj hparent), hpexec⟩
          · -- the caller has read a child of the parent
            obtain ⟨hold, hchild⟩ := hproper _ hw
            exact hprev old (.inl hold) (hchild.trans hparent)
      · rw [current_cons, hsame] at hc
        exact hprev c (.inr hc) hid

/-- Two children of one session are of one execution. -/
theorem execution_of_siblings {history : History} (h : Trace disciplined history) {c d : Session}
    (hc : c ∈ (current history).sessions.rows) (hd : d ∈ (current history).sessions.rows)
    {id : SessionId} (hcp : c.parentSessionId = some id) (hdp : d.parentSessionId = some id) :
    c.executionId = d.executionId := by
  obtain ⟨p, hp, hpid, hpc⟩ := parent_seen h (.inr hc) hcp
  obtain ⟨q, hq, hqid, hqd⟩ := parent_seen h (.inr hd) hdp
  have hsame := (reachable_of_trace h).seen_identity hp hq (hqid.trans hpid.symm)
  rw [← hpc, ← hqd]
  exact hsame.1.symm

/-! ## Live children -/

/-- The live children of a session, by their ids. -/
def Db.liveIds (db : Db) (parentId : SessionId) : List SessionId :=
  ((db.childrenOf parentId).filter fun s => s.outcome.isNone).map Session.id

theorem Db.length_liveIds (db : Db) (parentId : SessionId) :
    (db.liveIds parentId).length = db.liveChildren parentId := by
  simp [Db.liveIds, Db.liveChildren, List.countP_eq_length_filter]

theorem Db.nodup_liveIds (db : Db) (parentId : SessionId) : (db.liveIds parentId).Nodup :=
  db.sessions.nodup.sublist
    (List.Sublist.map _ (List.filter_sublist.trans List.filter_sublist))

theorem Db.mem_liveIds {db : Db} {parentId id : SessionId} :
    id ∈ db.liveIds parentId ↔
      ∃ s ∈ db.sessions.rows, s.id = id ∧ s.parentSessionId = some parentId ∧ s.outcome = none := by
  simp only [Db.liveIds, Db.childrenOf, List.mem_map, List.mem_filter, decide_eq_true_eq,
    Option.isNone_iff_eq_none]
  constructor
  · rintro ⟨s, ⟨⟨hs, hp⟩, ho⟩, hid⟩
    exact ⟨s, hs, hid, hp, ho⟩
  · rintro ⟨s, hs, hid, hp, ho⟩
    exact ⟨s, ⟨⟨hs, hp⟩, ho⟩, hid⟩

/-- No more live children than before. -/
theorem Db.liveChildren_le {db db' : Db} {parentId : SessionId}
    (h : db'.liveIds parentId ⊆ db.liveIds parentId) :
    db'.liveChildren parentId ≤ db.liveChildren parentId := by
  rw [← length_liveIds, ← length_liveIds]
  exact (db'.nodup_liveIds parentId).length_le_of_subset h

/-- At most one live child more than before. -/
theorem Db.liveChildren_le_succ {db db' : Db} {parentId id : SessionId}
    (h : db'.liveIds parentId ⊆ id :: db.liveIds parentId) :
    db'.liveChildren parentId ≤ db.liveChildren parentId + 1 := by
  rw [← length_liveIds, ← length_liveIds]
  exact (db'.nodup_liveIds parentId).length_le_of_subset h

/-! ## Who becomes a live child -/

/-- What became of an ended session in a transaction: it has still ended, or it was recovered. -/
theorem ended_or_recovered {w : Write} {env : Env} {s s' : Session}
    (h : Db.RowSteps (w.permit env) s s') (hs : Settled s) (hended : s.outcome.isSome) :
    s'.outcome.isSome ∨ ∃ session clearAgentSessionId message,
      w = .recover session clearAgentSessionId message ∧ s'.id = session.id := by
  refine (h.keeps (I := fun t => Settled t ∧ (t.outcome.isSome ∨
    ∃ session clearAgentSessionId message,
      w = .recover session clearAgentSessionId message ∧ t.id = session.id))
    ⟨hs, .inl hended⟩ fun t u hu ht => ⟨ht.1.update hu, ?_⟩).2
  rcases ht.2 with hended | ⟨session, clear, message, hw, hid⟩
  · unfold SessionUpdate.apply
    split
    · rename_i hm
      have hterminate : t.desired = .terminate := ht.1.mp hended
      cases u with
      | recover clear =>
          obtain ⟨session, message, hw, hid⟩ := hu
          exact .inr ⟨session, clear, message, hw, hid⟩
      | _ => simp_all [SessionUpdate.set, SessionUpdate.clearCommand, SessionUpdate.issue,
          SessionUpdate.matches]
    · exact .inl hended
  · exact .inr ⟨session, clear, message, hw, (u.apply_identity t).1.trans hid⟩

/-- The session a transaction may make a live child. -/
def newcomer (w : Write) (env : Env) : SessionId :=
  match w with
  | .recover session _ _ => session.id
  | _ => env.uuid

/-- Why a child of `parentId`, of the given execution, is live after a transaction and was not before. -/
inductive Joins (w : Write) (db : Db) (parentId : SessionId) (executionId : ExecutionId) : Prop where
  | delegated (agentId : AgentId) (cwd : Option String) (active : Nat) (maxWidth : Int) (sandboxPolicy : String)
      (hw : w = .createWithWidthGuard executionId agentId parentId cwd active maxWidth sandboxPolicy)
      (hroom : (active : Int) < maxWidth)
  | continued (old : Session) (resumable : Bool) (parts : List Json)
      (hw : w = .continueFrom old parentId resumable parts) (hexec : old.executionId = executionId)
      (h : Continues db old parentId)
  | recovered (session : Session) (clearAgentSessionId : Bool) (message : Option String)
      (hw : w = .recover session clearAgentSessionId message)
      (hexec : session.executionId = executionId) (hparent : session.parentSessionId = some parentId)
      (h : Recovers db session)

/-- **A new live child was delegated, continued or recovered**, and it is the only one. -/
theorem joins_of_new {e : Event scheduler} {history : History} (h : Trace disciplined (e :: history))
    {c' : Session} (hc' : c' ∈ (after e).sessions.rows) {parentId : SessionId}
    (hparent : c'.parentSessionId = some parentId) (hlive : c'.outcome = none)
    (hnew : c'.id ∉ (before e).liveIds parentId) :
    ∃ w, e.op = Op.write w ∧ c'.id = newcomer w (envOf e) ∧
      Joins w (before e) parentId c'.executionId := by
  obtain ⟨ht, hproper, -, -⟩ := h.of_cons
  obtain ⟨hr, hbefore, -⟩ := (reachable_of_trace h).of_cons
  have hchanged : after e ≠ before e := by
    intro hsame
    rw [hsame] at hc'
    exact hnew (Db.mem_liveIds.mpr ⟨c', hc', rfl, hparent, hlive⟩)
  rcases call_effect e with ⟨w, hw, hsteps⟩ | hsame
  · refine ⟨w, hw, ?_⟩
    have hrun := after_write hw
    rcases hsteps.descends hc' with ⟨c, hc, hrow⟩ | ⟨row, hrow', hrow⟩
    · -- it was there, and had ended: it has been recovered
      obtain ⟨hid, hexec, hcparent, -⟩ := hrow.identity
      have hmem := Db.mem_of_session? hc
      have hended : c.outcome.isSome := by
        by_contra hnone
        refine hnew (Db.mem_liveIds.mpr ⟨c, hmem, hid.symm, hcparent.symm.trans hparent, ?_⟩)
        simpa using hnone
      rcases ended_or_recovered hrow (hr.settled c (hbefore ▸ hmem)) hended with hstill |
        ⟨session, clear, message, rfl, hsid⟩
      · rw [hlive] at hstill
        cases hstill
      · have hseen : Seen history session := hproper _ hw
        have hsame := hr.identity hseen (hbefore ▸ hmem) (hid.symm.trans hsid)
        refine ⟨hsid, .recovered session clear message rfl ?_ ?_ ?_⟩
        · exact hsame.1.symm.trans hexec.symm
        · exact hsame.2.1.symm.trans (hcparent.symm.trans hparent)
        · rcases recover_guard (envOf e) session clear message (before e) with hno | hyes
          · exact absurd (hrun.trans hno) hchanged
          · exact hyes
    · obtain ⟨executionId, agentId, parent, cwd, _, _, _, sandboxPolicy, rfl, hins⟩ := hrow'
      have hid : c'.id = (envOf e).uuid := hrow.identity.1
      have hexec : c'.executionId = executionId := hrow.identity.2.1
      have hp : parent = some parentId := hrow.identity.2.2.1.symm.trans hparent
      rcases hins with ⟨-, rfl⟩ | ⟨parentId', active, maxWidth, rfl, rfl, -⟩ |
        ⟨old, parentId', resumable, parts, rfl, rfl, rfl, -⟩
      · cases hp
      · obtain rfl := Option.some.inj hp
        refine ⟨hid, ?_⟩
        rw [hexec]
        refine .delegated agentId cwd active maxWidth sandboxPolicy rfl ?_
        rcases createWithWidthGuard_guard (envOf e) executionId agentId parentId' cwd active maxWidth
          sandboxPolicy (before e) with hno | hyes
        · exact absurd (hrun.trans hno) hchanged
        · exact hyes
      · obtain rfl := Option.some.inj hp
        refine ⟨hid, .continued old resumable parts rfl hexec.symm ?_⟩
        rcases continueFrom_spec (envOf e) old parentId' resumable parts (before e) with hno | hyes
        · exact absurd (hrun.trans hno) hchanged
        · exact hyes.1
  · exact absurd hsame hchanged

/-! ## The limit -/

/-- The session has fewer live children than the execution allows. -/
def HasRoom (db : Db) (executionId : ExecutionId) (parentId : SessionId) : Prop :=
  ∀ x ∈ db.execution? executionId, (db.liveChildren parentId : Int) < x.maxWidth

instance (db : Db) (executionId : ExecutionId) (parentId : SessionId) :
    Decidable (HasRoom db executionId parentId) :=
  inferInstanceAs (Decidable (∀ x ∈ db.execution? executionId,
    (db.liveChildren parentId : Int) < x.maxWidth))

/-- The execution and the parent under which a call may make a child live without counting: it
continues a child, or recovers one, and its rechecks pass. -/
def joinsUncounted (e : Event scheduler) : Option (ExecutionId × SessionId) :=
  match (e.op : Op) with
  | .write (.continueFrom old parentId _ _) =>
      if Continues (before e) old parentId then some (old.executionId, parentId) else none
  | .write (.recover session _ _) =>
      if Recovers (before e) session then
        session.parentSessionId.map fun parentId => (session.executionId, parentId)
      else none
  | _ => none

/-- A continuation or a recovery that goes through finds room under the parent. -/
def FindsRoom (e : Event scheduler) : Prop :=
  ∀ place ∈ joinsUncounted e, HasRoom (before e) place.1 place.2

instance (e : Event scheduler) : Decidable (FindsRoom e) :=
  inferInstanceAs (Decidable (∀ place ∈ joinsUncounted e, HasRoom (before e) place.1 place.2))

/-- The parent of a guarded insert and what its statement has counted there, if that leaves room. -/
def guardedCount (e : Event scheduler) : Option (SessionId × Nat) :=
  match (e.op : Op) with
  | .write (.createWithWidthGuard _ _ parentId _ active maxWidth _) =>
      if (active : Int) < maxWidth then some (parentId, active) else none
  | _ => none

/-- A guarded insert finds no more live children than its statement has counted. -/
def CountCurrent (e : Event scheduler) : Prop :=
  ∀ count ∈ guardedCount e, (before e).liveChildren count.1 ≤ count.2

instance (e : Event scheduler) : Decidable (CountCurrent e) :=
  inferInstanceAs (Decidable (∀ count ∈ guardedCount e, (before e).liveChildren count.1 ≤ count.2))

/-- No session with a live child has more of them than the child's execution allows. -/
def WithinWidth (db : Db) : Prop :=
  ∀ c ∈ db.sessions.rows, c.outcome = none → ∀ parentId, c.parentSessionId = some parentId →
    ∀ x, db.execution? c.executionId = some x → (db.liveChildren parentId : Int) ≤ x.maxWidth

/-- What a new live child found: room, in the execution as it is after the transaction. -/
theorem room_of_joins {e : Event scheduler} {history : History} (h : Trace disciplined (e :: history))
    (hroom : FindsRoom e) (hcurrent : CountCurrent e) {w : Write} (hw : e.op = Op.write w) {parentId : SessionId}
    {executionId : ExecutionId} (hjoins : Joins w (before e) parentId executionId) {x : Execution}
    (hx : (after e).execution? executionId = some x) :
    ((before e).liveChildren parentId : Int) < x.maxWidth := by
  have hr := reachable_of_trace h
  obtain ⟨ht, hproper, -, -⟩ := h.of_cons
  obtain ⟨hearlier, hbefore, -⟩ := hr.of_cons
  -- an execution that has been seen is as wide as the one there now
  have hwidth : ∀ x₀, SeenExecution (e :: history) x₀ → x₀.id = executionId →
      x₀.maxWidth = x.maxWidth := by
    intro x₀ hseen hid
    have hthere : (current (e :: history)).execution? x₀.id = some x := by
      rw [current_cons, hid]
      exact hx
    have hlimits := hr.limits_of_seen hseen hthere
    exact (congrArg Prod.snd hlimits).symm
  have hfound : ∀ x₀, (before e).execution? executionId = some x₀ →
      ((before e).liveChildren parentId : Int) < x₀.maxWidth →
        ((before e).liveChildren parentId : Int) < x.maxWidth := by
    intro x₀ hx₀ hlt
    rw [← hwidth x₀ ⟨e, List.mem_cons_self, Db.mem_of_execution? hx₀⟩ (Db.id_of_execution? hx₀)]
    exact hlt
  obtain ⟨caller, op, input, pre⟩ := e
  obtain rfl : op = Op.write w := hw
  cases hjoins with
  | delegated agentId cwd active maxWidth sandboxPolicy hdelegate hlt =>
      subst hdelegate
      obtain ⟨⟨-, x₀, hseen, hid, hmax⟩, -⟩ := hproper _ rfl
      rw [← hwidth x₀ (hseen.mono (List.suffix_cons _ history)) hid, hmax]
      have hle := hcurrent (parentId, active) (if_pos hlt)
      dsimp only at hle
      omega
  | continued old resumable parts hcontinue hexec hcontinues =>
      subst hcontinue
      subst hexec
      obtain ⟨x₀, hx₀, -⟩ := hcontinues.2.1
      exact hfound x₀ hx₀ (hroom (old.executionId, parentId) (if_pos hcontinues) x₀ hx₀)
  | recovered session clear message hrecover hexec hparent hrecovers =>
      subst hrecover
      subst hexec
      obtain ⟨⟨x₀, hx₀, -⟩, -⟩ := hrecovers.2.2 (by simp [hparent])
      have hjoins : joinsUncounted ⟨caller, .write (.recover session clear message), input, pre⟩ =
          some (session.executionId, parentId) := by
        show (if _ then _ else none) = _
        rw [if_pos hrecovers, hparent]
        rfl
      exact hfound x₀ hx₀ (hroom _ hjoins x₀ hx₀)

/-- **What one call keeps.** -/
theorem WithinWidth.call {e : Event scheduler} {history : History}
    (h : Trace disciplined (e :: history)) (hroom : FindsRoom e) (hcurrent : CountCurrent e)
    (hwithin : WithinWidth (current history)) : WithinWidth (after e) := by
  have hr := reachable_of_trace h
  obtain ⟨hearlier, hbefore, -⟩ := hr.of_cons
  intro c' hc' hlive parentId hparent x' hx'
  by_cases hsub : (after e).liveIds parentId ⊆ (before e).liveIds parentId
  · -- no new one: the child was live before, and its execution is as wide as it was
    obtain ⟨c, hc, hid, hcparent, hclive⟩ := Db.mem_liveIds.mp
      (hsub (Db.mem_liveIds.mpr ⟨c', hc', rfl, hparent, hlive⟩))
    have hexec : c'.executionId = c.executionId :=
      (hr.identity ⟨e, List.mem_cons_self, hc⟩ hc' hid.symm).1
    obtain ⟨x, hx⟩ := Option.ne_none_iff_exists'.mp (hearlier.hasExecutions c (hbefore ▸ hc))
    obtain ⟨x'', hx'', hlimits, -⟩ := hr.execution_of_seen (x := x)
      ⟨e, List.mem_cons_self, hbefore ▸ Db.mem_of_execution? hx⟩
    have hwidth : x''.maxWidth = x.maxWidth := congrArg Prod.snd hlimits
    have hsame : x'' = x' := by
      rw [Db.id_of_execution? hx, current_cons, ← hexec, hx'] at hx''
      exact (Option.some.inj hx'').symm
    have hbound := hwithin c (hbefore ▸ hc) hclive parentId hcparent x hx
    have hle := Db.liveChildren_le hsub
    rw [hbefore] at hle
    rw [← hsame, hwidth]
    omega
  · -- one new one: it has found room
    obtain ⟨id, hid, hnot⟩ : ∃ id ∈ (after e).liveIds parentId, id ∉ (before e).liveIds parentId := by
      simpa [List.subset_def] using hsub
    obtain ⟨d, hd, rfl, hdparent, hdlive⟩ := Db.mem_liveIds.mp hid
    obtain ⟨w, hw, hnew, hjoins⟩ := joins_of_new h hd hdparent hdlive hnot
    have hexec : c'.executionId = d.executionId := execution_of_siblings h hc' hd hparent hdparent
    have hlt := room_of_joins h hroom hcurrent hw hjoins (hexec ▸ hx')
    have hone : (after e).liveIds parentId ⊆ newcomer w (envOf e) :: (before e).liveIds parentId := by
      intro id' hid'
      by_cases hold : id' ∈ (before e).liveIds parentId
      · exact List.mem_cons_of_mem _ hold
      · obtain ⟨d', hd', rfl, hdparent', hdlive'⟩ := Db.mem_liveIds.mp hid'
        obtain ⟨w', hw', hnew', -⟩ := joins_of_new h hd' hdparent' hdlive' hold
        obtain rfl : w = w' := Op.write.inj (hw.symm.trans hw')
        rw [hnew']
        exact List.mem_cons_self
    have hle := Db.liveChildren_le_succ hone
    omega

/-- The width of an execution is positive. -/
theorem maxWidth_pos {history : History} (h : Trace disciplined history) :
    ∀ id x, (current history).execution? id = some x → 0 < x.maxWidth := by
  refine keeps_of_trace (I := fun db => ∀ id x, db.execution? id = some x → 0 < x.maxWidth) h
    (fun id x hx => by cases hx) fun me earlier w env db db' hproper hstep hdb => ?_
  cases hstep with
  | @updateExecution i u _ =>
      intro id x hx
      rw [Db.execution?_updateExecution] at hx
      split at hx
      · obtain ⟨x₀, hx₀, rfl⟩ := Option.map_eq_some_iff.mp hx
        have hlimits : (u.apply x₀).maxWidth = x₀.maxWidth := congrArg Prod.snd (u.apply_keeps x₀).1
        rw [hlimits]
        exact hdb _ x₀ hx₀
      · exact hdb id x hx
  | @insertExecution row executions ht hi =>
      intro id x hx
      have hfind : executions.find? id = some x := hx
      rw [Table.find?_insert? ht] at hfind
      split at hfind
      · obtain ⟨new, rfl, -, -, -, hwidth⟩ := hi
        have hpos : 1 ≤ new.maxWidth := hproper _ rfl
        rw [← Option.some.inj hfind, hwidth]
        omega
      · exact hdb id x hfind
  | _ => exact hdb

/-- A run whose continuations and recoveries find room, and whose counts are right, stays within the width. -/
theorem withinWidth_of_trace {history : History} (h : Trace disciplined history)
    (hroom : ∀ e ∈ history, FindsRoom e) (hcurrent : ∀ e ∈ history, CountCurrent e) :
    WithinWidth (current history) := by
  induction history with
  | nil =>
      intro c hc
      cases hc
  | cons e history ih =>
      have hprev := ih h.of_cons.1 (fun e' he' => hroom e' (List.mem_cons_of_mem e he'))
        fun e' he' => hcurrent e' (List.mem_cons_of_mem e he')
      exact hprev.call h (hroom e List.mem_cons_self) (hcurrent e List.mem_cons_self)

/-- **The width limit.** In every run of the scheduler in which every continuation and every recovery of
a child that goes through finds fewer live children under the parent than the execution allows, and every
guarded insert finds no more of them than its statement has counted, no session ever has more live children
than that. -/
theorem width_limit {pool : List (Nat × Request Unit)} {history : History}
    (h : SchedulerRun pool history) (hroom : ∀ e ∈ history, FindsRoom e)
    (hcurrent : ∀ e ∈ history, CountCurrent e) :
    ∀ s ∈ (current history).sessions.rows, ∀ x ∈ (current history).execution? s.executionId,
      ((current history).liveChildren s.id : Int) ≤ x.maxWidth := by
  intro s hs x hx
  have ht := h.disciplined
  have hpos := maxWidth_pos ht s.executionId x hx
  by_cases hnone : (current history).liveIds s.id = []
  · have hzero : (current history).liveChildren s.id = 0 := by
      rw [← Db.length_liveIds, hnone]
      rfl
    omega
  · obtain ⟨id, hid⟩ := List.exists_mem_of_ne_nil _ hnone
    obtain ⟨c, hc, -, hparent, hlive⟩ := Db.mem_liveIds.mp hid
    -- a live child is of the execution of its parent
    obtain ⟨p, hseen, hpid, hpexec⟩ := parent_seen ht (.inr hc) hparent
    have hexec : s.executionId = c.executionId :=
      ((reachable_of_trace ht).identity hseen hs hpid.symm).1.trans hpexec
    exact withinWidth_of_trace ht hroom hcurrent c hc hlive s.id hparent x (hexec ▸ hx)

/-! ## Runs -/

/-- An execution in which every session may have one live child. -/
def narrowRequest : NewExecutionRequest :=
  { firstRequest with new := { firstRequest.new with maxWidth := 1 } }

/-- Its root delegates, and the user terminates the child. -/
def oneEnded : List (Choice (Nat × Route) Env) :=
  [.spawn 0 (0, .putAgent leadAgent), .step 0 (calm 1 "t0"), .drop 0,
   .spawn 1 (0, .createExecution narrowRequest), .step 0 (calm 1 ""), .step 0 (calm 1 "x"),
   .step 0 (calm 1 "r"), .step 0 (calm 1 "t1"), .step 0 (calm 1 "t2"), .step 0 (calm 1 "t3"),
   .step 0 (calm 1 ""), .step 0 (calm 1 "t4"), .drop 0] ++
    alone 2 "c" (.delegate "r" "lead" "work" none) 11 ++ alone 3 "d" (.terminateSession "c8") 6

/-- The user continues the child that has ended, and the root has no other. -/
theorem width_limit_continued :
    (∃ s ∈ (current (historyOf (oneEnded ++ alone 5 "f" (.continueFrom "c8" [.textPart "again"])
        5))).sessions.rows, s.continuedFromSessionId.isSome = true) ∧
    ∀ s ∈ (current (historyOf
    (oneEnded ++ alone 5 "f" (.continueFrom "c8" [.textPart "again"]) 5))).sessions.rows,
    ∀ x ∈ (current (historyOf
      (oneEnded ++ alone 5 "f" (.continueFrom "c8" [.textPart "again"]) 5))).execution? s.executionId,
    ((current (historyOf (oneEnded ++ alone 5 "f" (.continueFrom "c8" [.textPart "again"])
      5))).liveChildren s.id : Int) ≤ x.maxWidth := by
  obtain ⟨pool, hrun⟩ := historyOf_run
    (oneEnded ++ alone 5 "f" (.continueFrom "c8" [.textPart "again"]) 5)
  exact ⟨by decide +kernel, width_limit hrun (by decide +kernel) (by decide +kernel)⟩

/-- **A continuation takes no account of the width.** The root has delegated again; now the child that
had ended is continued. -/
theorem continuation_exceeds_width : ∃ pool history, SchedulerRun pool history ∧
    ∃ s ∈ (current history).sessions.rows, ∃ x ∈ (current history).execution? s.executionId,
      x.maxWidth < ((current history).liveChildren s.id : Int) := by
  obtain ⟨pool, hrun⟩ := historyOf_run (oneEnded ++
    alone 4 "e" (.delegate "r" "lead" "more" none) 11 ++
    alone 5 "f" (.continueFrom "c8" [.textPart "again"]) 5)
  exact ⟨pool, _, hrun, by decide +kernel⟩

/-- **Two delegations that overlap exceed it as well.** Both have counted before either inserts. -/
theorem overlapping_delegations_exceed_width : ∃ pool history, SchedulerRun pool history ∧
    (∀ e ∈ history, joinsUncounted e = none) ∧
    ∃ s ∈ (current history).sessions.rows, ∃ x ∈ (current history).execution? s.executionId,
      x.maxWidth < ((current history).liveChildren s.id : Int) := by
  obtain ⟨pool, hrun⟩ := historyOf_run (oneEnded ++
    .spawn 4 (0, .delegate "r" "lead" "more" none) ::
      ((List.range 8).map fun i => .step 0 (calm 4 ("e" ++ toString i))) ++
    beside 5 "f" (.delegate "r" "lead" "again" none) 11 ++ [.step 0 (calm 6 "e8")])
  exact ⟨pool, _, hrun, by decide +kernel⟩

end AgentBeacon
