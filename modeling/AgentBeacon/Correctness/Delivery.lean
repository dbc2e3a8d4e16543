import AgentBeacon.Correctness.Assignment
import AgentBeacon.Correctness.Columns

/-!
# `Correctness.Delivery` — in which order queued messages are handed out

The rows of the queue are numbered in the order in which they are committed, but a row is taken by the time
at which it was queued. That is the order of the numbers as long as the first row of a session is earlier than
all the others.
-/

namespace AgentBeacon
open Relational Transaction Interleave Reconciler

/-! ## The next row of a session -/

/-- The row that was committed first was queued before all the others. -/
def FirstIsEarliest (tasks : List TaskRow) : Prop :=
  ∀ first ∈ tasks.head?, ∀ t ∈ tasks.tail, first.queuedAt < t.queuedAt

instance (tasks : List TaskRow) : Decidable (FirstIsEarliest tasks) :=
  inferInstanceAs (Decidable (∀ first ∈ tasks.head?, ∀ t ∈ tasks.tail, first.queuedAt < t.queuedAt))

/-- The rows of a session stand in the order in which they were committed. -/
theorem first_lt_rest {db : Db} {id : SessionId} {first : TaskRow} {rest : List TaskRow}
    (h : db.tasksOf id = first :: rest) : ∀ t ∈ rest, first.id < t.id := by
  have hascending : (db.tasksOf id).Pairwise fun t t' => t.id < t'.id := by
    have hrows := List.pairwise_map.mp db.taskQueue.ascending
    exact hrows.sublist List.filter_sublist
  rw [h] at hascending
  exact (List.pairwise_cons.mp hascending).1

/-- **The first row of a session is the next, whatever the database makes of ties, if and only if it is
earlier than all the others.** -/
theorem next_is_first_iff (db : Db) (id : SessionId) :
    (∀ choice, nextTask db choice id = (db.tasksOf id).head?) ↔ FirstIsEarliest (db.tasksOf id) := by
  unfold nextTask FirstIsEarliest
  cases htasks : db.tasksOf id with
  | nil =>
      constructor
      · intro _ first hfirst
        cases hfirst
      · intro _ choice
        exact firstBy_eq_none.mpr rfl
  | cons first rest =>
      simp only [List.head?_cons, Option.mem_def, Option.some.injEq, forall_eq', List.tail_cons]
      constructor
      · intro hnext t ht
        have hleast := (firstBy_eq_some (hnext 0)).2
        by_contra hlate
        -- a row that is no later is as good a choice
        obtain ⟨choice, hchoice⟩ := exists_firstBy (List.mem_cons_of_mem first ht) fun r hr =>
          Nat.le_trans (Nat.not_lt.mp hlate) (hleast r hr)
        have hsame : first = t := Option.some.inj ((hnext choice).symm.trans hchoice)
        have hlt := first_lt_rest htasks t ht
        rw [hsame] at hlt
        exact Nat.lt_irrefl _ hlt
      · intro hearliest choice
        cases hnext : firstBy TaskRow.queuedAt choice (first :: rest) with
        | none => cases firstBy_eq_none.mp hnext
        | some t =>
            obtain ⟨hmem, hleast⟩ := firstBy_eq_some hnext
            rcases List.mem_cons.mp hmem with hfirst | hrest
            · rw [hfirst]
            · have hle := hleast first List.mem_cons_self
              exact absurd (hearliest t hrest) (Nat.not_lt.mpr hle)

/-! ## What a call takes -/

/-- The session whose work a call asks for. -/
def asksFor (e : Event scheduler) : Option SessionId :=
  match (e.op : Op) with
  | .write (.issueAssign session _ _) => some session.id
  | .write (.issueFeedTurn session) => some session.id
  | _ => none

/-- The row is in the queue. -/
def queued (db : Db) (t : TaskRow) : Bool :=
  db.taskQueue.rows.any fun t' => t'.id = t.id ∧ t'.sessionId = t.sessionId

/-- The row that a call takes from the queue of the session whose work it asks for. -/
def taken (e : Event scheduler) : Option TaskRow :=
  (asksFor e).bind fun id => ((before e).tasksOf id).find? fun t => !queued (after e) t

/-- Of two messages that waited for one session, the one committed first was handed out first. -/
def InOrder : History → Prop
  | [] => True
  | e :: earlier => (∀ t' ∈ taken e, ∀ e₁ ∈ earlier, ∀ t ∈ taken e₁, t'.sessionId = t.sessionId →
      queued (before e₁) t' = true → t'.id ≠ t.id → t.id < t'.id) ∧ InOrder earlier

instance decidableInOrder : ∀ history, Decidable (InOrder history)
  | [] => inferInstanceAs (Decidable True)
  | e :: earlier =>
      have := decidableInOrder earlier
      inferInstanceAs (Decidable ((∀ t' ∈ taken e, ∀ e₁ ∈ earlier, ∀ t ∈ taken e₁,
        t'.sessionId = t.sessionId → queued (before e₁) t' = true → t'.id ≠ t.id → t.id < t'.id) ∧
        InOrder earlier))

/-- When work is asked for, the first row of the session is earlier than all the others. -/
def ClockAgrees (e : Event scheduler) : Prop :=
  ∀ id ∈ asksFor e, FirstIsEarliest ((before e).tasksOf id)

instance (e : Event scheduler) : Decidable (ClockAgrees e) :=
  inferInstanceAs (Decidable (∀ id ∈ asksFor e, FirstIsEarliest ((before e).tasksOf id)))

theorem asksFor_cases {e : Event scheduler} {id : SessionId} (h : asksFor e = some id) :
    ∃ session : Session, session.id = id ∧ AsksForWork e session := by
  unfold asksFor at h
  split at h
  · rename_i session resume worker hop
    exact ⟨session, Option.some.inj h, .inl ⟨resume, worker, hop⟩⟩
  · rename_i session hop
    exact ⟨session, Option.some.inj h, .inr hop⟩
  · cases h

/-- A call that asks for work leaves everything, or takes the next row of the session. -/
theorem asked_effect {e : Event scheduler} {session : Session} (h : AsksForWork e session) :
    after e = before e ∨
      Popped (before e) (after e) (nextTask (before e) (envOf e).choice session.id) := by
  rcases h with ⟨resume, worker, hop⟩ | hop
  · rcases issueAssign_spec (envOf e) session resume worker (before e) with ⟨-, hsame⟩ | hissued
    · exact .inl ((after_write hop).trans hsame)
    · obtain ⟨task, action, -, -, hissued⟩ := hissued
      rw [after_write hop, hissued.popped]
      exact .inr hissued.queue_popped
  · rcases issueFeedTurn_spec (envOf e) session (before e) with ⟨-, hsame⟩ | hissued
    · exact .inl ((after_write hop).trans hsame)
    · obtain ⟨task, action, -, -, hissued⟩ := hissued
      rw [after_write hop, hissued.popped]
      exact .inr hissued.queue_popped

/-- **What a call takes is the next row of the session.** -/
theorem taken_next {e : Event scheduler} {t : TaskRow} (h : taken e = some t) :
    ∃ id, asksFor e = some id ∧ nextTask (before e) (envOf e).choice id = some t := by
  obtain ⟨id, hid, hfind⟩ := Option.bind_eq_some_iff.mp h
  refine ⟨id, hid, ?_⟩
  obtain ⟨session, rfl, hasks⟩ := asksFor_cases hid
  have hmem := (Db.mem_tasksOf.mp (List.mem_of_find?_eq_some hfind)).1
  have hgone : t ∉ (after e).taskQueue.rows := by
    intro hstays
    have hno := List.find?_some hfind
    have hqueued : queued (after e) t = true := List.any_eq_true.mpr ⟨t, hstays, decide_eq_true ⟨rfl, rfl⟩⟩
    rw [hqueued] at hno
    cases hno
  rcases asked_effect hasks with hsame | hpopped
  · rw [hsame] at hgone
    exact absurd hmem hgone
  · exact (hpopped.1 t hmem).mp hgone

/-- **A call takes the message that was committed first**, if the clock agrees. -/
theorem taken_first {e : Event scheduler} (hclock : ClockAgrees e) {t : TaskRow} (h : taken e = some t) :
    ∀ t' ∈ (before e).taskQueue.rows, t'.sessionId = t.sessionId → t'.id ≠ t.id → t.id < t'.id := by
  obtain ⟨id, hid, hnext⟩ := taken_next h
  intro t' ht' hsession hne
  have hown := (nextTask_mem hnext).2
  have hmem : t' ∈ (before e).tasksOf id := Db.mem_tasksOf.mpr ⟨ht', hsession.trans hown⟩
  rw [(next_is_first_iff (before e) id).mpr (hclock id hid)] at hnext
  cases htasks : (before e).tasksOf id with
  | nil =>
      rw [htasks] at hmem
      cases hmem
  | cons first rest =>
      rw [htasks] at hnext hmem
      obtain rfl := Option.some.inj hnext
      rcases List.mem_cons.mp hmem with hfirst | hrest
      · rw [hfirst] at hne
        exact absurd rfl hne
      · exact first_lt_rest htasks t' hrest

theorem inOrder_of_clock {history : History} (hclock : ∀ e ∈ history, ClockAgrees e) : InOrder history := by
  induction history with
  | nil => trivial
  | cons e history ih =>
      have hearlier : ∀ e ∈ history, ClockAgrees e := fun e he => hclock e (List.mem_cons_of_mem _ he)
      refine ⟨fun t' _ e₁ he₁ t ht hsession hqueued hne => ?_, ih hearlier⟩
      obtain ⟨row, hrow, hsame⟩ := List.any_eq_true.mp hqueued
      obtain ⟨hid, hown⟩ := of_decide_eq_true hsame
      rw [← hid] at hne ⊢
      exact taken_first (hearlier e₁ he₁) ht row hrow (hown.trans hsession) hne

/-- **Messages are handed out in the order in which they were committed.** In every history, and so in every
run of the scheduler, in which the first message of a session was queued earlier than its others whenever its
work is asked for, two messages that waited together are handed out in the order of their commits. And
whatever the database makes of equal times, a call is sure to find the first message first only in this case. -/
theorem messages_in_order (history : History) :
    ((∀ e ∈ history, ClockAgrees e) → InOrder history) ∧
    ∀ e ∈ history, ∀ id ∈ asksFor e,
      (∀ choice, nextTask (before e) choice id = ((before e).tasksOf id).head?) ↔
        FirstIsEarliest ((before e).tasksOf id) :=
  ⟨inOrder_of_clock, fun e _ id _ => next_is_first_iff (before e) id⟩

/-! ## Runs -/

/-- A second message is queued for the first root, at some time; then a worker is assigned the one and is fed
the other. `choice` is what the database makes of equal times. -/
def twoMessages (time : Timestamp) (choice : Nat) : List (Choice (Nat × Route) Env) :=
  opening ++ alone time "b" (.postMessage "r" [.textPart "more"] none) 4 ++
    [.spawn 3 (0, syncOf "w" none)] ++
    ((List.range 6).map fun i => .step 0 (calm 3 ("c" ++ toString i))) ++
    [.step 0 { calm 3 "t" with choice }, .drop 0] ++ alone 4 "d" (runningSync "t") 11

theorem messages_in_order_later :
    ((historyOf (twoMessages 2 1)).filterMap taken).map TaskRow.id = [2, 1] ∧
      InOrder (historyOf (twoMessages 2 1)) := by
  have hclock : ∀ e ∈ historyOf (twoMessages 2 1), ClockAgrees e := by decide +kernel
  exact ⟨by decide +kernel, (messages_in_order _).1 hclock⟩

/-- **Messages of one second are handed out in any order.** -/
theorem messages_out_of_order : ¬∀ pool history, SchedulerRun pool history → InOrder history := by
  intro hclaim
  obtain ⟨pool, hrun⟩ := historyOf_run (twoMessages 1 1)
  have hswapped : ¬InOrder (historyOf (twoMessages 1 1)) := by decide +kernel
  exact hswapped (hclaim pool _ hrun)

end AgentBeacon
