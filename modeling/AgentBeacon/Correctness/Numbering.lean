import AgentBeacon.Correctness.Assignment
import AgentBeacon.System.Numbers
import AgentBeacon.Worker.Session

/-!
# `Correctness.Numbering` — which messages of a run are stored

A run numbers its messages from the number that its Assign read off the log. The log knows only what
has been stored by then: a message of an earlier run that comes later, under a number that is given
out again, takes the place of the message of the later run.
-/

namespace AgentBeacon
open Relational Transaction Interleave Transition Reconciler FirstWins Worker

/-- The number a command makes its run start from. -/
def CommandAction.nextMsgSeq : CommandAction → Option Int
  | .assign _ _ _ _ _ _ _ nextMsgSeq => some nextMsgSeq
  | .feedTurn _ _ | .stopTurn _ | .cancel _ => none

/-- The number an assignment reads, and `0` when its query fails. -/
theorem issueAssign_nextMsgSeq (env : Env) (session : Session) (resume : Bool) (worker : Option WorkerId)
    (db : Db) {token : String} {action : CommandAction}
    (h : (Write.issueAssign session resume worker).command env db = some (token, action)) :
    action.nextMsgSeq = some (if env.swallow then 0 else nextMsgSeq db session.id) := by
  suffices hspec : ∀ token action, (Write.issueAssign session resume worker).command env db = some (token, action) →
      action.nextMsgSeq = some (if env.swallow then 0 else nextMsgSeq db session.id) from hspec token action h
  refine scheduling_post (m := fun env => Reconciler.issueAssign env session resume worker)
    (P := fun r _ => ∀ token action, handedOut r = some (token, action) →
      action.nextMsgSeq = some (if env.swallow then 0 else nextMsgSeq db session.id))
    (fun _ _ => nofun) ?_
  unfold Reconciler.issueAssign
  refine DbTx.seq_execution (fun _ _ => ?_) fun _ => nofun
  refine DbTx.seq_agent (fun _ _ => ?_) fun _ => nofun
  refine DbTx.seq_execution (fun x hx => ?_) fun _ => nofun
  refine Tx.seq_require (fun halive => ?_) fun _ => nofun
  refine Tx.seq_read ?_
  refine Tx.seq (Q := fun _ _ => True) ?_ fun _ db₁ _ => ?_
  · cases nextTask db env.choice session.id <;> trivial
  refine Tx.seq_require (fun _ => ?_) fun _ => nofun
  refine DbTx.seq_updateSession (fun row hrow hm => ?_) fun _ => nofun
  refine Tx.seq (Q := fun _ _ => True) ?_ fun _ db₂ _ => ?_
  · rw [Tx.wp_when]
    exact ⟨fun _ => trivial, fun _ => trivial⟩
  · rintro token action ⟨rfl, rfl⟩
    rfl

/-- The session a call assigns, and the number its run starts from. -/
def assigns (e : Event scheduler) : Option (SessionId × Int) :=
  match (e.op : Op) with
  | .write (.issueAssign session _ _) =>
      (commandOf e).bind fun command => command.2.nextMsgSeq.map fun n => (session.id, n)
  | _ => none

/-- What an assignment found and read. -/
theorem assigns_spec {e : Event scheduler} {id : SessionId} {n : Int} (h : assigns e = some (id, n)) :
    (before e).session? id ≠ none ∧ carried id e = [] ∧
      n = if (envOf e).swallow then 0 else nextMsgSeq (before e) id := by
  unfold assigns at h
  split at h
  · rename_i session resume worker hop
    obtain ⟨⟨token, action⟩, hcommand, hread⟩ := Option.bind_eq_some_iff.mp h
    obtain ⟨n', hn', heq⟩ := Option.map_eq_some_iff.mp hread
    obtain ⟨rfl, rfl⟩ := Prod.mk.inj heq
    have hissued := (commandOf_write hop).symm.trans hcommand
    refine ⟨?_, ?_, ?_⟩
    · rcases issueAssign_spec (envOf e) session resume worker (before e) with hnone | hsome
      · rw [hnone.1] at hissued
        cases hissued
      · obtain ⟨task, action', -, -, hissued⟩ := hsome
        obtain ⟨row, hrow, -⟩ := hissued.row
        rw [hrow]
        exact Option.some_ne_none row
    · unfold carried
      rw [hop]
      rfl
    · have hspec := issueAssign_nextMsgSeq (envOf e) session resume worker (before e) hissued
      exact Option.some.inj (hn'.symm.trans hspec)
  · cases h

/-- What is stored has a number below the next one. -/
theorem lt_nextMsgSeq {db : Db} {id : SessionId} {m : Int × Json} (h : m ∈ numbered db id) :
    m.1 < nextMsgSeq db id := by
  have hseqs : db.events.rows.filterMap (fun e => if e.sessionId = some id then e.msgSeq else none) =
      (numbered db id).map Prod.fst := by
    rw [numbered, List.map_filterMap]
    refine List.filterMap_congr fun row _ => ?_
    unfold numberedRow
    by_cases hid : row.sessionId = some id
    · rw [if_pos hid, if_pos hid]
      cases row.msgSeq <;> rfl
    · rw [if_neg hid, if_neg hid]
      rfl
  unfold nextMsgSeq
  simp only [hseqs]
  have hmem : m.1 ∈ (numbered db id).map Prod.fst := List.mem_map_of_mem h
  cases hmax : ((numbered db id).map Prod.fst).max? with
  | none =>
      rw [List.max?_eq_none_iff] at hmax
      rw [hmax] at hmem
      cases hmem
  | some n =>
      have hle := (List.max?_eq_some_iff.mp hmax).2 m.1 hmem
      show m.1 < n + 1
      omega

/-- What may stand in the way of a run's messages: what is carried after the assignment, and, if the
query for the number failed, what had been stored before. -/
def rivals (assign : Event scheduler) (later : History) (id : SessionId) : List (Int × Json) :=
  (if (envOf assign).swallow then numbered (before assign) id else []) ++ carriedIn later id

/-- **Which messages of a run are stored.** In every run of the scheduler and for every assignment in it:

* of the worker's run on it, a message is stored exactly once exactly when the session is still there
  and no other message has come first under its number, neither after the assignment nor, if the
  assignment could not read the numbers that were given out, before it;
* its numbers stay clear of those of an earlier run, whatever it puts out, exactly when the number it
  starts from reaches up to the earlier run's: the next after the greatest that is stored by then. -/
theorem messages_stored_once_iff {pool : List (Nat × Request Unit)} {start later : History}
    {assign : Event scheduler} (hrun : SchedulerRun pool (later ++ assign :: start)) {id : SessionId}
    {n : Int} (hassigns : assigns assign = some (id, n)) :
    (∀ events, ∀ m ∈ runMessages n events,
      StoredOnce (current (later ++ assign :: start)) id m ↔
        (current (later ++ assign :: start)).session? id ≠ none ∧
          first (rivals assign later id) m.1 = some m) ∧
    ∀ n₀ earlier, (∀ events, ∀ m ∈ runMessages n events, ∀ m₀ ∈ runMessages n₀ earlier, m.1 ≠ m₀.1) ↔
      ∀ m₀ ∈ runMessages n₀ earlier,
        m₀.1 ≤ if (envOf assign).swallow then 0 else nextMsgSeq (before assign) id := by
  have hreach := hrun.reachable
  have hassigned : Reachable (assign :: start) := Trace.of_suffix hreach (List.suffix_append _ _)
  obtain ⟨hfound, hnone, hstart⟩ := assigns_spec hassigns
  constructor
  · intro events m hm
    have hgreater : n < m.1 := ((RunState.after_numbers n events).2.2 m hm).1
    rw [hreach.storedOnce_iff]
    by_cases hthere : (current (later ++ assign :: start)).session? id = none
    · -- with the session its events went
      rw [hreach.numbered_of_no_session hthere]
      exact ⟨nofun, fun hboth => absurd hthere hboth.1⟩
    · have hdrawn : id ∈ drawnIn (assign :: start) := hassigned.drawn_of_found hfound
      have hexists : (current (assign :: start)).session? id ≠ none := hreach.session_earlier hdrawn hthere
      have hassign : numbered (current (assign :: start)) id = numbered (before assign) id := by
        rcases numbered_after assign id with ⟨hstored, -⟩ | ⟨hgone, -⟩
        · rw [current_cons, hstored, hnone, offers_nil]
        · exact absurd hgone hexists
      rw [hreach.numbered_of_session hexists hthere, hassign,
        mem_offers_iff (hassign ▸ hassigned.numbers_nodup id)]
      have hrivals : first (numbered (before assign) id ++ carriedIn later id) m.1 =
          first (rivals assign later id) m.1 := by
        unfold rivals
        cases hswallow : (envOf assign).swallow with
        | true => rfl
        | false =>
            -- the numbers that were stored are below the one the run starts from
            refine first_append_of_notMem fun hmem => ?_
            obtain ⟨m', hm', hsame⟩ := List.mem_map.mp hmem
            have hlt := lt_nextMsgSeq hm'
            rw [hswallow] at hstart
            simp only [Bool.false_eq_true, if_false] at hstart
            omega
      rw [hrivals]
      exact (and_iff_right hthere).symm
  · intro n₀ earlier
    rw [← hstart]
    constructor
    · intro hclear m₀ hm₀
      by_contra hgreater
      obtain ⟨events, m, hm, hnumber⟩ := RunState.exists_number n m₀.1 (by omega)
      exact hclear events m hm m₀ hm₀ hnumber
    · intro hbound events m hm m₀ hm₀ hsame
      have hgreater := ((RunState.after_numbers n events).2.2 m hm).1
      have hle := hbound m₀ hm₀
      omega

/-- The worker `"w"` has the first execution's root and is restarted under its id. Its crash is detected,
the session is recovered, and `"w"` is assigned it again. -/
def reassigned : List (Choice (Nat × Route) Env) :=
  claimed ++ [.spawn 3 (1, .postMessage "r" [.obj [("text", .str "more")]] none)] ++ stepsAt 3 "p" 4 ++
    [.drop 1, .spawn 100 (1, .tick { heartbeatTimeoutSecs := 30, longPollTimeoutSecs := 0 })] ++
    stepsAt 100 "a" 6 ++ [.drop 1, .spawn 101 (1, syncOf "w" none)] ++ stepsAt 101 "b" 13 ++
    [.drop 1, .spawn 102 (1, syncOf "w" none)] ++ stepsAt 102 "c" 7

/-- The worker posts the first message of its second run. -/
def postedPromptly : List (Choice (Nat × Route) Env) :=
  reassigned ++ [.drop 1, .spawn 103 (1, .workerEvent "w" "r" 1 (.str "new") false)] ++ stepsAt 103 "d" 2

/-- Before it, the first message of its first run comes, which was on its way all the time. -/
def postedLate : List (Choice (Nat × Route) Env) :=
  reassigned ++ [.drop 1, .spawn 103 (1, .workerEvent "w" "r" 1 (.str "late") false)] ++ stepsAt 103 "d" 2 ++
    [.drop 1, .spawn 104 (1, .workerEvent "w" "r" 1 (.str "new") false)] ++ stepsAt 104 "e" 2

theorem messages_stored_once_iff_prompt :
    StoredOnce (current (historyOf postedPromptly)) "r" (1, .str "new") := by
  obtain ⟨pool, hrun⟩ := historyOf_run postedPromptly
  obtain ⟨assign, hassign⟩ := Option.isSome_iff_exists.mp
    (by decide +kernel : (historyOf postedPromptly)[2]?.isSome = true)
  have hassigns : ((historyOf postedPromptly)[2]?.bind assigns) = some ("r", 0) := by decide +kernel
  have hfirst : ((historyOf postedPromptly)[2]?.map fun assign =>
      first (rivals assign ((historyOf postedPromptly).take 2) "r") 1) = some (some (1, .str "new")) := by
    decide +kernel
  have hthere : ((current (historyOf postedPromptly)).session? "r").isSome = true := by decide +kernel
  rw [hassign] at hassigns hfirst
  rw [history_split hassign] at hrun hthere ⊢
  refine ((messages_stored_once_iff hrun hassigns).1 [.message (.str "new") false] _
    (List.mem_singleton_self _)).mpr ⟨?_, Option.some.inj hfirst⟩
  exact Option.isSome_iff_ne_none.mp hthere

/-- **A late message takes the place of a new one**: it comes after the session was assigned again, and
when the first message of the second run comes, its number is taken. -/
theorem late_message_drops_new : ∃ pool start later first assign,
    SchedulerRun pool (later ++ assign :: start) ∧ first ∈ start ∧ assigns first = some ("r", 0) ∧
    assigns assign = some ("r", 0) ∧
    runMessages 0 [.message (.str "late") false] = [(1, .str "late")] ∧
    runMessages 0 [.message (.str "new") false] = [(1, .str "new")] ∧
    carriedIn later "r" = [(1, .str "late"), (1, .str "new")] ∧
    ¬StoredOnce (current (later ++ assign :: start)) "r" (1, .str "new") := by
  obtain ⟨pool, hrun⟩ := historyOf_run postedLate
  obtain ⟨assign, hassign⟩ := Option.isSome_iff_exists.mp
    (by decide +kernel : (historyOf postedLate)[4]?.isSome = true)
  have hassigns : ((historyOf postedLate)[4]?.bind assigns) = some ("r", 0) := by decide +kernel
  have hfirst : ∃ first ∈ (historyOf postedLate).drop 5, assigns first = some ("r", 0) := by decide +kernel
  have hcarried : carriedIn ((historyOf postedLate).take 4) "r" = [(1, .str "late"), (1, .str "new")] := by
    decide +kernel
  have hstored : numbered (current (historyOf postedLate)) "r" = [(1, .str "late")] := by
    decide +kernel
  obtain ⟨first, hmem, hnumber⟩ := hfirst
  rw [hassign] at hassigns
  have hlost : ¬StoredOnce (current (historyOf postedLate)) "r" (1, .str "new") := by
    rw [hrun.reachable.storedOnce_iff, hstored]
    decide
  rw [history_split hassign] at hrun hlost
  exact ⟨pool, _, _, first, assign, hrun, hmem, hnumber, hassigns, rfl, rfl, hcarried, hlost⟩

end AgentBeacon
