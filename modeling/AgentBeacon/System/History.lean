import AgentBeacon.System.Effects
import AgentBeacon.System.Routes

/-!
# `System.History` — histories of the scheduler, and what holds in all of them

`Reachable` is the weakest notion of a history: any operations, with any arguments, in any order. A
run of the scheduler (`SchedulerRun`) is reachable, so whatever is shown here of reachable histories
holds however stale the rows are that a request acts on. Histories start from the empty database where
nothing else is said; a section with a `Start` is about those from any store. Here also stand the facts
about identity that everything else rests on: an identifier is drawn once, and a row's place in the tree
is fixed.
-/

namespace AgentBeacon
open Relational Interleave

/-! ## The databases of a history -/

/-- The database a call found. -/
def before (e : Event scheduler) : Db := Store.db e.pre

/-- The database a call left. -/
def after (e : Event scheduler) : Db := Store.db e.post

/-- What the environment decided for a call. -/
def envOf (e : Event scheduler) : Env := e.input

section

variable [Start scheduler]

/-- The database after a history. -/
def current (history : History) : Db := Store.db (scheduler.now history)

/-- The identifiers drawn in a history. -/
def drawnIn (history : History) : List String := Store.drawn (scheduler.now history)

@[simp] theorem current_cons (e : Event scheduler) (history : History) :
    current (e :: history) = after e := rfl

end

@[simp] theorem current_nil : current [] = .empty := rfl

theorem after_write {e : Event scheduler} {w : Write} (h : e.op = Op.write w) :
    after e = (w.run (envOf e) (before e)).2 := by
  obtain ⟨caller, op, input, pre⟩ := e
  obtain rfl : op = Op.write w := h
  rfl

/-- **Every call is a transaction within its permit, or leaves the database alone.** -/
theorem call_effect (e : Event scheduler) :
    (∃ w, e.op = Op.write w ∧ Db.Steps (w.permit (envOf e)) (before e) (after e)) ∨
      after e = before e := by
  obtain ⟨caller, op, input, pre⟩ := e
  cases op with
  | write w => exact .inl ⟨w, rfl, w.steps input (Store.db pre)⟩
  | read query => exact .inr rfl
  | inspect look => exact .inr rfl
  | heartbeat worker => exact .inr rfl
  | startUp => exact .inr rfl
  | stall => exact .inr rfl

/-- A store that histories may start from: the identifiers in its tables count as drawn, and its sessions
have executions. -/
class Grounded [Start scheduler] : Prop where
  drawn : ∀ s ∈ (current []).sessions.rows,
    s.id ∈ drawnIn [] ∧ ∀ token, s.commandToken = some token → token ∈ drawnIn []
  hasExecutions : Db.HasExecutions (current [])

instance : Grounded where
  drawn _ hs := by cases hs
  hasExecutions _ hs := by cases hs

/-! ## Reachable histories -/

section Reachable

variable [Start scheduler]

/-- Any operations with any arguments, in any order. -/
def Reachable (history : History) : Prop := Trace (fun _ _ _ => True) history

/-- **The runs of the scheduler are reachable.** -/
theorem SchedulerRun.reachable {pool : List (Nat × Request Unit)} {history : History}
    (h : SchedulerRun pool history) : Reachable history :=
  (Run.trace (G := fun _ _ _ => True) (fun _ _ _ _ => Safe.unrestricted) h).1

/-- A disciplined history is reachable. -/
theorem reachable_of_trace {G : Discipline scheduler} {history : History}
    (h : Trace G history) : Reachable history := h.weaken fun _ _ _ _ _ => trivial

/-- What the statements of the allowed transactions keep holds of every database reached. -/
theorem keeps_of_trace {G : Discipline scheduler} {I : Db → Prop} {history : History}
    (h : Trace G history) (hinit : I (current []))
    (hstep : ∀ me earlier (w : Write) env db db', G me earlier (Op.write w) →
      Db.Step (w.permit env) db db' → I db → I db') : I (current history) := by
  induction h with
  | start => exact hinit
  | @step tr me op i h hG hi ih =>
      rcases call_effect (scheduler.event me op i tr) with ⟨w, hw, hs⟩ | hsame
      · obtain rfl : op = Op.write w := hw
        exact hs.keeps ih fun db db' => hstep me tr w _ db db' hG
      · rw [current_cons, hsame]; exact ih

end Reachable

/-- The same for a property of single rows, in histories from the empty database. -/
theorem rows_of_trace {G : Discipline scheduler} {I : Session → Prop} {history : History}
    (h : Trace G history) (hinsert : ∀ (w : Write) env row, w.inserts env row → I row)
    (hupdate : ∀ me earlier (w : Write) env s u, G me earlier (Op.write w) → w.updates env s u →
      I s → I (u.apply s)) : ∀ s ∈ (current history).sessions.rows, I s := by
  induction h with
  | start => intro s hs; cases hs
  | @step tr me op i h hG hi ih =>
      intro s' hs'
      rcases call_effect (scheduler.event me op i tr) with ⟨w, hw, hsteps⟩ | hsame
      · obtain rfl : op = Op.write w := hw
        have hkeep : ∀ s u, w.updates i s u → I s → I (u.apply s) := fun s u => hupdate me tr w i s u hG
        rcases hsteps.descends hs' with ⟨s, hs, hrow⟩ | ⟨row, hrow', hrow⟩
        · exact hrow.keeps (ih s (Db.mem_of_session? hs)) hkeep
        · exact hrow.keeps (hinsert w _ row hrow') hkeep
      · rw [current_cons, hsame] at hs'
        exact ih s' hs'

namespace Reachable

variable {history : History}

/-- **Invariants of single rows.** What inserted rows satisfy and permitted updates keep holds of
every session of every state reached from the empty database. -/
theorem rows {I : Session → Prop} (h : Reachable history)
    (hinsert : ∀ (w : Write) env row, w.inserts env row → I row)
    (hupdate : ∀ (w : Write) env s u, w.updates env s u → I s → I (u.apply s)) :
    ∀ s ∈ (current history).sessions.rows, I s :=
  rows_of_trace h hinsert fun _ _ w env s u _ => hupdate w env s u

section Started

variable [Start scheduler]

/-- What every permitted statement keeps holds of every reachable database. -/
theorem keeps {I : Db → Prop} (h : Reachable history) (hinit : I (current []))
    (hstep : ∀ (w : Write) env db db', Db.Step (w.permit env) db db' → I db → I db') :
    I (current history) :=
  keeps_of_trace h hinit fun _ _ w env db db' _ => hstep w env db db'

/-- A call of a reachable history found what the calls before it left; a transaction drew an
identifier that had not been drawn. -/
theorem of_cons {e : Event scheduler} (h : Reachable (e :: history)) :
    Reachable history ∧ before e = current history ∧
      ∀ w, e.op = Op.write w → (envOf e).uuid ∉ drawnIn history := by
  obtain ⟨hr, -, hadmits, hpre⟩ := Trace.of_cons h
  refine ⟨hr, by rw [before, hpre]; rfl, fun w hw => ?_⟩
  obtain ⟨caller, op, input, pre⟩ := e
  obtain rfl : op = Op.write w := hw
  obtain rfl : pre = scheduler.now history := hpre
  exact of_decide_eq_true hadmits

/-- The point of a history at which a call was made. -/
theorem of_mem {e : Event scheduler} (h : Reachable history) (he : e ∈ history) :
    ∃ earlier, (e :: earlier) <:+ history ∧ Reachable (e :: earlier) := by
  obtain ⟨earlier, hs, -⟩ := Trace.of_mem h he
  exact ⟨earlier, hs, h.of_suffix hs⟩

end Started

/-! ## Identifiers -/

/-- Only a transaction draws an identifier, and it keeps those drawn. -/
theorem drawn_exec (op : Op) (env : Env) (store : Store) :
    store.drawn ⊆ (op.exec env store).2.drawn ∧
      ∀ w, op = .write w → env.uuid ∈ (op.exec env store).2.drawn := by
  cases op with
  | write w => exact ⟨List.subset_cons_self _ _, fun _ _ => List.mem_cons_self⟩
  | _ => exact ⟨fun _ h => h, fun w hw => nomatch hw⟩

/-- The token a permitted update leaves is the row's, none, or the identifier just drawn. -/
theorem token_of_update {w : Write} {env : Env} {s : Session} {u : SessionUpdate}
    (hu : w.updates env s u) {token : String} (h : (u.apply s).commandToken = some token) :
    s.commandToken = some token ∨ token = env.uuid := by
  unfold SessionUpdate.apply at h
  split at h
  · cases u with
    | assign | feedTurn | stopTurn | cancel =>
        obtain rfl := Option.some.inj h
        first
          | (obtain ⟨_, _, _, _, rfl⟩ := hu; exact .inr rfl)
          | (obtain ⟨_, _, _, rfl, _⟩ := hu; exact .inr rfl)
    | _ => first | exact .inl h | cases h
  · exact .inl h

section Identifiers

variable [Start scheduler]

theorem drawn_cons {e : Event scheduler} (h : Reachable (e :: history)) :
    drawnIn history ⊆ drawnIn (e :: history) ∧
      ∀ w, e.op = Op.write w → (envOf e).uuid ∈ drawnIn (e :: history) := by
  obtain ⟨-, -, -, hpre⟩ := Trace.of_cons h
  have hexec := drawn_exec e.op e.input e.pre
  rw [show drawnIn history = Store.drawn e.pre by rw [hpre]; rfl]
  exact hexec

/-- A transaction of the history drew its identifier. -/
theorem uuid_drawn (h : Reachable history) {e : Event scheduler} (he : e ∈ history) {w : Write}
    (hw : e.op = Op.write w) : (envOf e).uuid ∈ drawnIn history := by
  induction history with
  | nil => cases he
  | cons e₀ history ih =>
      rcases List.mem_cons.mp he with rfl | he
      · exact h.drawn_cons.2 w hw
      · exact h.drawn_cons.1 (ih h.of_cons.1 he)

/-- **Two transactions that drew one identifier are one.** -/
theorem uuid_unique (h : Reachable history) {e e' : Event scheduler} (he : e ∈ history)
    (he' : e' ∈ history) {w w' : Write} (hw : e.op = Op.write w) (hw' : e'.op = Op.write w')
    (huuid : (envOf e).uuid = (envOf e').uuid) : e = e' := by
  induction history with
  | nil => cases he
  | cons e₀ history ih =>
      obtain ⟨hr, -, hdraw⟩ := h.of_cons
      rcases List.mem_cons.mp he with rfl | h₁ <;> rcases List.mem_cons.mp he' with rfl | h₂
      · rfl
      · exact absurd (huuid ▸ hr.uuid_drawn h₂ hw') (hdraw w hw)
      · exact absurd (huuid ▸ hr.uuid_drawn h₁ hw) (hdraw w' hw')
      · exact ih hr h₁ h₂

end Identifiers

section Grounded

variable [Start scheduler] [Grounded]

/-- **Every session id and every command token in the database has been drawn.** -/
theorem drawn (h : Reachable history) : ∀ s ∈ (current history).sessions.rows,
    s.id ∈ drawnIn history ∧ ∀ token, s.commandToken = some token → token ∈ drawnIn history := by
  induction history with
  | nil => exact Grounded.drawn
  | cons e history ih =>
      obtain ⟨hr, hbefore, -⟩ := h.of_cons
      obtain ⟨hmono, hfresh⟩ := h.drawn_cons
      intro s' hs'
      rcases call_effect e with ⟨w, hw, hsteps⟩ | hsame
      · have hrow : ∀ {s}, Db.RowSteps (w.permit (envOf e)) s s' →
            (∀ token, s.commandToken = some token → token ∈ drawnIn history ∨
              token = (envOf e).uuid) →
            ∀ token, s'.commandToken = some token → token ∈ drawnIn history ∨
              token = (envOf e).uuid := by
          intro s hrow hs
          refine hrow.keeps (I := fun s => ∀ token, s.commandToken = some token →
            token ∈ drawnIn history ∨ token = (envOf e).uuid) hs fun s u hu ih token ht => ?_
          exact (token_of_update hu ht).elim (ih token) .inr
        have hdrawn : ∀ token, token ∈ drawnIn history ∨ token = (envOf e).uuid →
            token ∈ drawnIn (e :: history) := by
          rintro token (ht | rfl)
          · exact hmono ht
          · exact hfresh w hw
        rcases hsteps.descends hs' with ⟨s, hs, hsteps⟩ | ⟨row, hrow', hsteps⟩
        · rw [hbefore] at hs
          obtain ⟨hid, htoken⟩ := ih hr s (Db.mem_of_session? hs)
          exact ⟨hmono (hsteps.identity.1 ▸ hid),
            fun token ht => hdrawn token (hrow hsteps (fun t ht => .inl (htoken t ht)) token ht)⟩
        · obtain ⟨_, _, _, _, _, _, _, _, rfl, -⟩ := hrow'
          refine ⟨?_, fun token ht => hdrawn token (hrow hsteps nofun token ht)⟩
          rw [hsteps.identity.1]
          exact hfresh w hw
      · rw [current_cons, hsame, hbefore] at hs'
        obtain ⟨hid, htoken⟩ := ih hr s' hs'
        exact ⟨hmono hid, fun token ht => hmono (htoken token ht)⟩

/-- A session's execution exists. -/
theorem hasExecutions (h : Reachable history) : Db.HasExecutions (current history) :=
  h.keeps Grounded.hasExecutions fun _ _ _ _ hstep hdb => hstep.hasExecutions hdb

end Grounded

end Reachable

/-! ## Runs that can be computed -/

section Computed

variable [Start scheduler]

/-- The history the decisions `choices` lead to. -/
def historyOf (choices : List (Choice (Nat × Route) Env)) : History :=
  played (M := scheduler) (fun r : Nat × Route => serve r.1 r.2) choices

/-- **It is the history of a run.** -/
theorem historyOf_run (choices : List (Choice (Nat × Route) Env)) :
    ∃ pool, SchedulerRun pool (historyOf choices) :=
  play_run (M := scheduler) _ choices

theorem historyOf_reachable (choices : List (Choice (Nat × Route) Env)) :
    Reachable (historyOf choices) := by
  obtain ⟨pool, hrun⟩ := historyOf_run choices
  exact hrun.reachable

end Computed

/-- An operation at a time at which nothing fails; `uuid` is what it draws, if it draws. -/
def calm (now : Timestamp) (uuid : String) : Env :=
  { now, uuid, slug := uuid, choice := 0, fault := none, swallow := false }

/-- An agent, and an execution of it: the request has been served, its root session is `"r"`. -/
def leadAgent : Agent :=
  { id := "a", name := "lead", agentType := .claudeSdk, enabled := true, deleted := false }

def firstRequest : NewExecutionRequest where
  agentId := "a"
  agentIds := ["a"]
  parts := [.textPart "hello"]
  new := { projectId := none, title := none, maxDepth := 2, maxWidth := 5, sandboxPolicy := "", ceiling := none }
  cwd := none
  worktreePath := none
  baseCommitSha := none

def opening : List (Choice (Nat × Route) Env) :=
  [.spawn 0 (0, .putAgent leadAgent), .step 0 (calm 1 "t0"), .drop 0,
   .spawn 1 (0, .createExecution firstRequest), .step 0 (calm 1 ""), .step 0 (calm 1 "x"),
   .step 0 (calm 1 "r"), .step 0 (calm 1 "t1"), .step 0 (calm 1 "t2"), .step 0 (calm 1 "t3"),
   .step 0 (calm 1 ""), .step 0 (calm 1 "t4"), .drop 0]

/-- Some steps of the request in slot `1`, with fresh identifiers `tag0`, `tag1`, …. -/
def stepsAt (now : Timestamp) (tag : String) (count : Nat) : List (Choice (Nat × Route) Env) :=
  (List.range count).map fun i => .step 1 (calm now (tag ++ toString i))

/-- A request served alone: its first `count` steps. -/
def alone (now : Timestamp) (tag : String) (route : Route) (count : Nat) :
    List (Choice (Nat × Route) Env) :=
  .spawn now (0, route) :: ((List.range count).map fun i => .step 0 (calm now (tag ++ toString i))) ++
    [.drop 0]

/-- A request served beside the one in slot `0`: its first `count` steps. -/
def beside (now : Timestamp) (tag : String) (route : Route) (count : Nat) :
    List (Choice (Nat × Route) Env) :=
  .spawn now (1, route) :: stepsAt now tag count ++ [.drop 1]

/-- A history in three parts: a call, what came after it and what came before. -/
theorem history_split {history : History} {count : Nat} {e : Event scheduler}
    (h : history[count]? = some e) :
    history = history.take count ++ e :: history.drop (count + 1) := by
  obtain ⟨hlt, rfl⟩ := List.getElem?_eq_some_iff.mp h
  rw [List.getElem_cons_drop, List.take_append_drop]

/-! ## Snapshots -/

/-- Some call of the history found exactly this row. -/
def Seen (history : History) (s : Session) : Prop :=
  ∃ e ∈ history, s ∈ (before e).sessions.rows

/-- The columns of a row that never change. -/
def SameIdentity (s s' : Session) : Prop :=
  s'.executionId = s.executionId ∧ s'.parentSessionId = s.parentSessionId ∧ s'.agentId = s.agentId

theorem SameIdentity.trans {s s' s'' : Session} (h : SameIdentity s s')
    (h' : SameIdentity s' s'') : SameIdentity s s'' :=
  ⟨h'.1.trans h.1, h'.2.1.trans h.2.1, h'.2.2.trans h.2.2⟩

theorem SameIdentity.symm {s s' : Session} (h : SameIdentity s s') : SameIdentity s' s :=
  ⟨h.1.symm, h.2.1.symm, h.2.2.symm⟩

theorem Seen.mono {history history' : History} {s : Session} (h : Seen history s)
    (hs : history <:+ history') : Seen history' s := by
  obtain ⟨e, he, hrow⟩ := h
  exact ⟨e, hs.subset he, hrow⟩

namespace Reachable

variable [Start scheduler] [Grounded] {history : History}

theorem seen_drawn (h : Reachable history) {s : Session} (hs : Seen history s) :
    s.id ∈ drawnIn history := by
  induction history with
  | nil => obtain ⟨e, he, -⟩ := hs; cases he
  | cons e history ih =>
      obtain ⟨hr, hbefore, -⟩ := h.of_cons
      obtain ⟨e', he', hrow⟩ := hs
      rcases List.mem_cons.mp he' with rfl | he'
      · rw [hbefore] at hrow
        exact h.drawn_cons.1 (hr.drawn s hrow).1
      · exact h.drawn_cons.1 (ih hr ⟨e', he', hrow⟩)

/-- **A snapshot and the row now under its id agree on the row's identity.** An id is drawn once, so
a row that was deleted never comes back as another. -/
theorem identity (h : Reachable history) {s s' : Session} (hs : Seen history s)
    (hs' : s' ∈ (current history).sessions.rows) (hid : s'.id = s.id) : SameIdentity s s' := by
  induction history generalizing s' with
  | nil => obtain ⟨e, he, -⟩ := hs; cases he
  | cons e history ih =>
      obtain ⟨hr, hbefore, hdraw⟩ := h.of_cons
      -- the row before the call, and that the snapshot agrees with it
      have hprev : s.id ∈ drawnIn history ∧ ∀ t ∈ (current history).sessions.rows,
          t.id = s.id → SameIdentity s t := by
        obtain ⟨e', he', hrow⟩ := hs
        rcases List.mem_cons.mp he' with rfl | he'
        · rw [hbefore] at hrow
          refine ⟨(hr.drawn s hrow).1, fun t ht htid => ?_⟩
          rw [(current history).sessions.eq_of_key_eq ht hrow htid]
          exact ⟨rfl, rfl, rfl⟩
        · exact ⟨hr.seen_drawn ⟨e', he', hrow⟩, fun t ht htid => ih hr ⟨e', he', hrow⟩ ht htid⟩
      rcases call_effect e with ⟨w, hw, hsteps⟩ | hsame
      · rcases hsteps.descends hs' with ⟨t, ht, hsteps⟩ | ⟨row, hrow, hsteps⟩
        · rw [hbefore] at ht
          have hsame := hprev.2 t (Db.mem_of_session? ht) ((Db.id_of_session? ht).trans hid)
          exact hsame.trans hsteps.identity.2
        · obtain ⟨_, _, _, _, _, _, _, _, rfl, -⟩ := hrow
          have huuid : (envOf e).uuid = s.id := hsteps.identity.1.symm.trans hid
          exact absurd (huuid ▸ hprev.1) (hdraw w hw)
      · rw [current_cons, hsame, hbefore] at hs'
        exact hprev.2 s' hs' hid

/-- Two snapshots of one session agree on its identity. -/
theorem seen_identity (h : Reachable history) {s s' : Session} (hs : Seen history s)
    (hs' : Seen history s') (hid : s'.id = s.id) : SameIdentity s s' := by
  induction history with
  | nil => obtain ⟨e, he, -⟩ := hs; cases he
  | cons e history ih =>
      obtain ⟨hr, hbefore, -⟩ := h.of_cons
      obtain ⟨e₁, he₁, hrow₁⟩ := hs
      obtain ⟨e₂, he₂, hrow₂⟩ := hs'
      rcases List.mem_cons.mp he₁ with rfl | h₁ <;> rcases List.mem_cons.mp he₂ with rfl | h₂
      · rw [(before _).sessions.eq_of_key_eq hrow₂ hrow₁ hid]
        exact ⟨rfl, rfl, rfl⟩
      · rw [hbefore] at hrow₁
        exact (hr.identity ⟨e₂, h₂, hrow₂⟩ hrow₁ hid.symm).symm
      · rw [hbefore] at hrow₂
        exact hr.identity ⟨e₁, h₁, hrow₁⟩ hrow₂ hid
      · exact ih hr ⟨e₁, h₁, hrow₁⟩ ⟨e₂, h₂, hrow₂⟩

end Reachable

/-- Some call found the session's row with the property and left it without. -/
def LosesAt (history : History) (id : SessionId) (I : Session → Prop) : Prop :=
  ∃ e earlier, (e :: earlier) <:+ history ∧ ∃ r r', (before e).session? id = some r ∧
    (after e).session? id = some r' ∧ I r ∧ ¬I r'

theorem LosesAt.cons {history : History} {id : SessionId} {I : Session → Prop} (h : LosesAt history id I)
    (e : Event scheduler) : LosesAt (e :: history) id I := by
  obtain ⟨e₀, earlier, hs, hrow⟩ := h
  exact ⟨e₀, earlier, hs.trans (List.suffix_cons _ _), hrow⟩

namespace Reachable

variable [Start scheduler] [Grounded] {history : History}

/-- What a snapshot had, the row has still, unless a call took it away. -/
theorem still_or_loses (h : Reachable history) {I : Session → Prop} {s t : Session} (hs : Seen history s)
    (hI : I s) (ht : t ∈ (current history).sessions.rows) (hid : t.id = s.id) :
    I t ∨ LosesAt history s.id I := by
  induction history generalizing t with
  | nil => obtain ⟨e, he, -⟩ := hs; cases he
  | cons e history ih =>
      obtain ⟨hr, hbefore, hdraw⟩ := h.of_cons
      have hprev : s.id ∈ drawnIn history ∧ ∀ r ∈ (current history).sessions.rows, r.id = s.id →
          I r ∨ LosesAt history s.id I := by
        obtain ⟨e', he', hrow⟩ := hs
        rcases List.mem_cons.mp he' with rfl | he'
        · rw [hbefore] at hrow
          refine ⟨(hr.drawn s hrow).1, fun r hmem hrid => .inl ?_⟩
          rw [(current history).sessions.eq_of_key_eq hmem hrow hrid]
          exact hI
        · exact ⟨hr.seen_drawn ⟨e', he', hrow⟩, fun r hmem hrid => ih hr ⟨e', he', hrow⟩ hmem hrid⟩
      rcases call_effect e with ⟨w, hw, hsteps⟩ | hsame
      · rcases hsteps.descends ht with ⟨r, hrow, -⟩ | ⟨row, hins, hrow⟩
        · rw [hid] at hrow
          have hthere : r ∈ (current history).sessions.rows := hbefore ▸ Db.mem_of_session? hrow
          rcases hprev.2 r hthere (Db.id_of_session? hrow) with hstill | hlost
          · by_cases hI' : I t
            · exact .inl hI'
            · refine .inr ⟨e, history, List.suffix_refl _, r, t, hrow, ?_, hstill, hI'⟩
              rw [← hid]
              exact Db.session?_of_mem ht
          · exact .inr (hlost.cons e)
        · obtain ⟨_, _, _, _, _, _, _, _, rfl, -⟩ := hins
          have huuid : (envOf e).uuid = s.id := hrow.identity.1.symm.trans hid
          exact absurd (huuid ▸ hprev.1) (hdraw w hw)
      · rw [current_cons, hsame, hbefore] at ht
        exact (hprev.2 t ht hid).imp_right fun hlost => hlost.cons e

/-- **Between two snapshots that differ in a property a call took it away or gave it.** -/
theorem turns_of_seen (h : Reachable history) {I : Session → Prop} {s s' : Session} (hs : Seen history s)
    (hs' : Seen history s') (hid : s'.id = s.id) (hI : I s) (hI' : ¬I s') :
    LosesAt history s.id I ∨ LosesAt history s.id fun t => ¬I t := by
  induction history with
  | nil => obtain ⟨e, he, -⟩ := hs; cases he
  | cons e history ih =>
      obtain ⟨hr, hbefore, -⟩ := h.of_cons
      obtain ⟨e₁, he₁, hrow₁⟩ := hs
      obtain ⟨e₂, he₂, hrow₂⟩ := hs'
      rcases List.mem_cons.mp he₁ with rfl | h₁ <;> rcases List.mem_cons.mp he₂ with rfl | h₂
      · rw [(before _).sessions.eq_of_key_eq hrow₂ hrow₁ hid] at hI'
        exact absurd hI hI'
      · rw [hbefore] at hrow₁
        rcases hr.still_or_loses (I := fun t => ¬I t) ⟨e₂, h₂, hrow₂⟩ hI' hrow₁ hid.symm with hno | hlost
        · exact absurd hI hno
        · rw [hid] at hlost
          exact .inr (hlost.cons _)
      · rw [hbefore] at hrow₂
        rcases hr.still_or_loses ⟨e₁, h₁, hrow₁⟩ hI hrow₂ hid with hstill | hlost
        · exact absurd hstill hI'
        · exact .inl (hlost.cons _)
      · exact (ih hr ⟨e₁, h₁, hrow₁⟩ ⟨e₂, h₂, hrow₂⟩).imp (fun hlost => hlost.cons e) fun hlost => hlost.cons e

end Reachable

end AgentBeacon
