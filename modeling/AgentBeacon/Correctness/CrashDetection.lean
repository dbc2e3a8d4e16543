import AgentBeacon.Correctness.Columns

/-!
# `Correctness.CrashDetection` — which run a detected crash hits

A time-out and a silent worker are judged on a row that was read before; the transaction that follows
looks only whether the session has some worker or some command. So it leaves the session alone exactly if
its `UPDATE` finds neither, and hits the run it was decided on exactly if it finds that run; any other run
it finds it hits as well.
-/

namespace AgentBeacon
open Relational Interleave

/-- What a crash is detected of: the row that the caller has read. -/
def crashDecided (e : Event scheduler) : Option Session :=
  match (e.op : Op) with
  | .write (.detectCrash _ decidedOn _) => some decidedOn
  | _ => none

/-- The transaction that follows a decision commits, if its `UPDATE` finds this row: nothing fails it, and the
log has room for the event of a session that had not crashed. -/
def GoesThrough (e : Event scheduler) (s : Session) : Prop :=
  (envOf e).fault = none ∧ (s.executorState ≠ .crashed → (before e).events.next ≤ maxRowId)

/-- The row holds no run: there is neither a worker nor a command to take away. -/
def Unheld (s : Session) : Prop :=
  s.workerId = none ∧ s.commandToken = none

/-- The row is in the run that the snapshot showed: under the same worker, under the same command. -/
def SameRun (decidedOn s : Session) : Prop :=
  s.workerId = decidedOn.workerId ∧ s.commandToken = decidedOn.commandToken

/-- If the call detects a crash and changes the session, then that is still owned by the same worker under the
same command as when the crash was decided. -/
def HitsDecided (e : Event scheduler) : Prop :=
  ∀ decidedOn ∈ crashDecided e,
    (after e).session? decidedOn.id ≠ (before e).session? decidedOn.id →
      ∃ s ∈ (before e).session? decidedOn.id, SameRun decidedOn s

/-- Whenever the `UPDATE` of a detected crash finds a run and goes through, that is the run of the decision. -/
def FindsDecided (e : Event scheduler) : Prop :=
  ∀ decidedOn ∈ crashDecided e, ∀ s ∈ (before e).session? decidedOn.id,
    GoesThrough e s → Unheld s ∨ SameRun decidedOn s

instance (e : Event scheduler) (s : Session) : Decidable (GoesThrough e s) :=
  inferInstanceAs (Decidable (_ ∧ (_ → _)))

instance (s : Session) : Decidable (Unheld s) := inferInstanceAs (Decidable (_ ∧ _))

instance (s s' : Session) : Decidable (SameRun s s') := inferInstanceAs (Decidable (_ ∧ _))

instance (e : Event scheduler) : Decidable (HitsDecided e) :=
  inferInstanceAs (Decidable (∀ decidedOn ∈ crashDecided e, _ → _))

instance (e : Event scheduler) : Decidable (FindsDecided e) :=
  inferInstanceAs (Decidable (∀ decidedOn ∈ crashDecided e, ∀ s ∈ (before e).session? decidedOn.id, _ → _))

/-- A call that detects a crash runs `detect_crash` on a row of the session it was decided on. -/
theorem op_of_crashDecided {e : Event scheduler} {decidedOn : Session} (h : crashDecided e = some decidedOn) :
    ∃ session noticed, e.op = Op.write (.detectCrash session decidedOn noticed) := by
  obtain ⟨caller, op, input, pre⟩ := e
  cases (op : Op) with
  | write w =>
      cases w with
      | detectCrash session decidedOn' noticed =>
          obtain rfl := Option.some.inj h
          exact ⟨session, noticed, rfl⟩
      | _ => cases h
  | _ => cases h

theorem held_iff {s : Session} : s.workerId.isSome = true ∨ s.commandToken.isSome = true ↔ ¬Unheld s := by
  unfold Unheld
  cases s.workerId <;> cases s.commandToken <;> simp

/-- A row with a worker or a command is changed by the `UPDATE`: both are gone afterwards. -/
theorem set_detectCrash_ne {s : Session} (h : ¬Unheld s) : SessionUpdate.detectCrash.set s ≠ s := by
  intro hsame
  refine h ⟨?_, ?_⟩
  · rw [← hsame]
    rfl
  · rw [← hsame]
    rfl

/-- **One detection.** The transaction changes the session exactly if its `UPDATE` finds a worker or a command
and it commits. -/
theorem detectCrash_changes_iff {e : Event scheduler} {history : History}
    (h : Trace disciplined (e :: history)) {decidedOn : Session} (hdecided : crashDecided e = some decidedOn) :
    (after e).session? decidedOn.id ≠ (before e).session? decidedOn.id ↔
      ∃ s ∈ (before e).session? decidedOn.id, GoesThrough e s ∧ ¬Unheld s := by
  obtain ⟨session, noticed, hop⟩ := op_of_crashDecided hdecided
  obtain ⟨hr, hbefore, -⟩ := (reachable_of_trace h).of_cons
  obtain ⟨hseen, -, hid, -⟩ := h.of_cons.2.1 _ hop
  -- the transaction is made for the execution that the row it meets is in
  have hmeets : ∀ row, (before e).session? session.id = some row →
      row.executionId = session.executionId ∧ ∃ x, (before e).execution? session.executionId = some x := by
    rw [hbefore]
    intro row hrow
    obtain ⟨hexec, -⟩ := hr.snapshot hseen row hrow
    exact ⟨hexec, Option.ne_none_iff_exists'.mp (hexec ▸ hr.hasExecutions row (Db.mem_of_session? hrow))⟩
  have hok : ∀ row, (before e).session? session.id = some row →
      ((((Write.detectCrash session decidedOn noticed).run (envOf e) (before e)).1 : Except Rejected Unit) =
        .ok () ↔ GoesThrough e row ∧ ¬Unheld row) := by
    intro row hrow
    obtain ⟨hexec, x, hx⟩ := hmeets row hrow
    rw [detectCrash_ok_iff hx hrow hexec, held_iff]
    exact ⟨fun ⟨hf, hheld, hroom⟩ => ⟨⟨hf, hroom⟩, hheld⟩, fun ⟨⟨hf, hroom⟩, hheld⟩ => ⟨hf, hheld, hroom⟩⟩
  rw [after_write hop, ← hid]
  rcases detectCrash_spec (envOf e) session decidedOn noticed (before e) with
    ⟨hrefused, hkept⟩ | ⟨hdone, row, hrow, hheld, hsessions, -⟩
  · rw [hkept]
    refine ⟨fun hne => absurd rfl hne, fun ⟨row, hrow, hcommits⟩ => ?_⟩
    exact absurd ((hok row hrow).mpr hcommits) hrefused
  · refine ⟨fun _ => ⟨row, hrow, (hok row hrow).mp hdone⟩, fun _ hsame => ?_⟩
    have hset : ((before e).updateSession session.id .detectCrash).session? session.id =
        (before e).session? session.id := by
      rw [← hsame, Db.session?, Db.session?, hsessions]
    rw [Db.session?_updateSession, if_pos rfl, hrow, Option.map_some] at hset
    refine set_detectCrash_ne (held_iff.mp hheld) ?_
    rw [← SessionUpdate.apply_of_matches (by simpa [SessionUpdate.matches] using hheld)]
    exact Option.some.inj hset

/-- So it hits the decided run exactly under the condition on the row that its `UPDATE` finds. -/
theorem hitsDecided_iff {e : Event scheduler} {history : History} (h : Trace disciplined (e :: history)) :
    HitsDecided e ↔ FindsDecided e := by
  unfold HitsDecided FindsDecided
  refine forall₂_congr fun decidedOn hdecided => ?_
  rw [detectCrash_changes_iff h hdecided]
  constructor
  · intro hhits s hs hcommits
    by_cases hheld : Unheld s
    · exact .inl hheld
    · obtain ⟨s', hs', hrun⟩ := hhits ⟨s, hs, hcommits, hheld⟩
      obtain rfl := Option.some.inj (Option.mem_def.mp hs |>.symm.trans hs')
      exact .inr hrun
  · rintro hfinds ⟨s, hs, hcommits, hheld⟩
    exact ⟨s, hs, (hfinds s hs hcommits).resolve_left hheld⟩

/-- **A detected crash hits the run it was decided on** exactly if its `UPDATE` finds that run, or neither a
worker nor a command, or does not go through. In every run of the scheduler, the transactions that follow the
decisions all change a session only under the worker and the command of the decision exactly if each of them
finds the session's row so. -/
theorem crash_hits_decided {pool : List (Nat × Request Unit)} {history : History}
    (h : SchedulerRun pool history) :
    (∀ e ∈ history, HitsDecided e) ↔ ∀ e ∈ history, FindsDecided e := by
  have hcall : ∀ e ∈ history, (HitsDecided e ↔ FindsDecided e) := by
    intro e he
    obtain ⟨earlier, hsuffix, -⟩ := Trace.of_mem h.disciplined he
    exact hitsDecided_iff (h.disciplined.of_suffix hsuffix)
  exact forall₂_congr hcall

/-! ## Runs -/

/-- The root is assigned to `"w"`, which is not heard of again; the tick detects it. -/
def silentWorker : List (Choice (Nat × Route) Env) :=
  claimed ++ [.drop 0] ++ alone 100 "c" (.tick deployed) 6

theorem crash_hits_decided_silent :
    (∃ e ∈ historyOf silentWorker, (crashDecided e).isSome = true ∧ after e ≠ before e) ∧
      ∀ e ∈ historyOf silentWorker, HitsDecided e := by
  obtain ⟨pool, hrun⟩ := historyOf_run silentWorker
  have hfinds : ∀ e ∈ historyOf silentWorker, FindsDecided e := by decide +kernel
  have hlost : ∃ e ∈ historyOf silentWorker, (crashDecided e).isSome = true ∧
      (after e).session? "r" ≠ (before e).session? "r" := by decide +kernel
  obtain ⟨e, he, hdecided, hne⟩ := hlost
  exact ⟨⟨e, he, hdecided, fun hsame => hne (by rw [hsame])⟩, (crash_hits_decided hrun).mpr hfinds⟩

/-- The tick has decided that the worker is gone. Before it says so, the worker acknowledges its command. -/
def lateAck : List (Choice (Nat × Route) Env) :=
  claimed ++ [.drop 0, .spawn 100 (0, .tick deployed)] ++
    ((List.range 5).map fun i => .step 0 (calm 100 ("c" ++ toString i))) ++
    beside 101 "d" (syncOf "w" (some "t5")) 8 ++ [.step 0 (calm 102 "e")]

/-- **The session of the acknowledged command is crashed.** -/
theorem crash_hits_acknowledged : ¬∀ pool history, SchedulerRun pool history →
    ∀ e ∈ history, HitsDecided e := by
  intro hclaim
  obtain ⟨pool, hrun⟩ := historyOf_run lateAck
  have hmissed : ¬∀ e ∈ historyOf lateAck, HitsDecided e := by decide +kernel
  exact hmissed (hclaim pool _ hrun)

end AgentBeacon
