import AgentBeacon.Web.Live

/-!
# `Correctness.Batcher` — each row is classified once and written once

Whatever the deliveries, the frames, the timers and the flushes, and whatever the cache holds at each of them: a row is
new exactly once, unless the cache held it when its session was first seen; the rows written and those that still wait
are the new ones, in the order of their delivery; few wait, and never without a frame and a timer to flush them.
-/

namespace AgentBeacon.Web

/-! ## Runs of a batcher -/

/-- What is asked of a batcher; at a delivery, `existing` is what the cache then holds. -/
inductive BatcherStep where
  | enqueue (existing : SessionId → Option (List Event)) (event : Event)
  | frame
  | timeout
  | flush

/-- A batcher, the calls of `appendNew` it has made, and the rows it has called new. -/
structure BatcherRun where
  batcher : SSEBatcher
  calls : List AppendCall
  firsts : List Event

namespace BatcherRun

def start : BatcherRun := ⟨.fresh, [], []⟩

def flushed (run : BatcherRun) : SSEBatcher × List AppendCall → BatcherRun
  | (batcher, calls) => { run with batcher, calls := run.calls ++ calls }

def step (sizeCap : Nat) (run : BatcherRun) : BatcherStep → BatcherRun
  | .enqueue existing event =>
      let (isNew, left) := run.batcher.enqueue sizeCap existing event
      { run.flushed left with firsts := run.firsts ++ if isNew then [event] else [] }
  | .frame => run.flushed run.batcher.frame
  | .timeout => run.flushed run.batcher.timeout
  | .flush => run.flushed run.batcher.flush

/-- A batcher's life. -/
def after (sizeCap : Nat) (steps : List BatcherStep) : BatcherRun := steps.foldl (step sizeCap) start

end BatcherRun

/-- The rows given to a session, in their order. -/
def rowsFor (session : SessionId) (calls : List AppendCall) : List Event :=
  (calls.filter fun call => decide (call.1 = session)).flatMap Prod.snd

@[simp] theorem rowsFor_nil (session : SessionId) : rowsFor session [] = [] := rfl

@[simp] theorem rowsFor_append (session : SessionId) (calls calls' : List AppendCall) :
    rowsFor session (calls ++ calls') = rowsFor session calls ++ rowsFor session calls' := by
  unfold rowsFor
  rw [List.filter_append, List.flatMap_append]

theorem rowsFor_cons (session : SessionId) (call : AppendCall) (calls : List AppendCall) :
    rowsFor session (call :: calls) = (if call.1 = session then call.2 else []) ++ rowsFor session calls := by
  unfold rowsFor
  rw [List.filter_cons]
  by_cases h : call.1 = session
  · simp [h]
  · simp [h]

/-- All rows given. -/
def allRows (calls : List AppendCall) : List Event := calls.flatMap Prod.snd

theorem rowsFor_subset {session : SessionId} {calls : List AppendCall} :
    ∀ e ∈ rowsFor session calls, e ∈ allRows calls := by
  intro e he
  obtain ⟨call, hcall, he⟩ := List.mem_flatMap.mp he
  exact List.mem_flatMap.mpr ⟨call, (List.mem_filter.mp hcall).1, he⟩

namespace SSEBatcher

section Push

variable (key : SessionId) (event : Event) {pending : List AppendCall}

theorem push_keys : ∀ pending : List AppendCall, ∀ k, k ∈ (push key event pending).map Prod.fst ↔
    k = key ∨ k ∈ pending.map Prod.fst
  | [], k => by simp [push]
  | (key', bucket) :: rest, k => by
      unfold push
      split
      · rename_i h
        simp [h]
      · have ih := push_keys rest k
        simp only [List.map_cons, List.mem_cons, ih]
        constructor
        · rintro (h | h | h)
          · exact .inr (.inl h)
          · exact .inl h
          · exact .inr (.inr h)
        · rintro (h | h | h)
          · exact .inr (.inl h)
          · exact .inl h
          · exact .inr (.inr h)

theorem push_nodup : ∀ {pending : List AppendCall}, (pending.map Prod.fst).Nodup →
    ((push key event pending).map Prod.fst).Nodup
  | [], _ => by simp [push]
  | (key', bucket) :: rest, h => by
      obtain ⟨hnot, hrest⟩ := List.nodup_cons.mp h
      unfold push
      split
      · exact List.nodup_cons.mpr ⟨hnot, hrest⟩
      · rename_i hne
        refine List.nodup_cons.mpr ⟨?_, push_nodup hrest⟩
        rw [push_keys]
        rintro (heq | hmem)
        · exact hne heq
        · exact hnot hmem

theorem rowsFor_of_not_mem {session : SessionId} (h : session ∉ pending.map Prod.fst) :
    rowsFor session pending = [] := by
  unfold rowsFor
  rw [List.filter_eq_nil_iff.mpr, List.flatMap_nil]
  intro call hcall heq
  exact h (List.mem_map.mpr ⟨call, hcall, of_decide_eq_true heq⟩)

/-- The event comes last in its session's bucket, and no other bucket changes. -/
theorem rowsFor_push (session : SessionId) : ∀ {pending : List AppendCall}, (pending.map Prod.fst).Nodup →
    rowsFor session (push key event pending) = rowsFor session pending ++ if key = session then [event] else []
  | [], _ => by
      unfold push
      rw [rowsFor_cons, rowsFor_nil]
      simp
  | (key', bucket) :: rest, h => by
      obtain ⟨hnot, hrest⟩ := List.nodup_cons.mp h
      unfold push
      split
      · rename_i heq
        rw [rowsFor_cons, rowsFor_cons]
        dsimp only
        by_cases hs : key' = session
        · have hnone : rowsFor session rest = [] := rowsFor_of_not_mem (hs ▸ hnot)
          rw [if_pos hs, if_pos hs, if_pos (heq.symm.trans hs), hnone, List.append_nil, List.append_nil]
        · rw [if_neg hs, if_neg hs, if_neg fun hk => hs (heq.trans hk), List.append_nil]
      · rw [rowsFor_cons, rowsFor_cons, rowsFor_push session hrest, List.append_assoc]

theorem allRows_push : ∀ pending : List AppendCall,
    (allRows (push key event pending)).length = (allRows pending).length + 1
  | [] => by simp [push, allRows]
  | (key', bucket) :: rest => by
      have ih := allRows_push rest
      unfold push
      unfold allRows at ih ⊢
      split
      · simp only [List.flatMap_cons, List.length_append, List.length_cons, List.length_nil]
        omega
      · simp only [List.flatMap_cons, List.length_append, ih]
        omega

end Push

/-- What holds of a batcher between two of its steps. -/
structure Sound (sizeCap : Nat) (batcher : SSEBatcher) : Prop where
  keys : (batcher.pending.map Prod.fst).Nodup
  count : batcher.pendingCount = (allRows batcher.pending).length
  below : batcher.pendingCount < sizeCap
  asked : batcher.pendingCount ≠ 0 → batcher.raf = true ∧ batcher.timer = true

theorem Sound.fresh {sizeCap : Nat} (hcap : 0 < sizeCap) : Sound sizeCap .fresh :=
  ⟨List.nodup_nil, rfl, hcap, fun h => absurd rfl h⟩

/-- A flush leaves nothing that waits, gives what waited, and keeps what was seen. -/
structure Flushed (batcher : SSEBatcher) (left : SSEBatcher × List AppendCall) : Prop where
  keys : (left.1.pending.map Prod.fst).Nodup
  count : left.1.pendingCount = 0
  none : allRows left.1.pending = []
  calls : ∀ session, rowsFor session left.2 = rowsFor session batcher.pending
  seen : left.1.seen = batcher.seen

theorem flush_flushed {batcher : SSEBatcher} (hkeys : (batcher.pending.map Prod.fst).Nodup)
    (hcount : batcher.pendingCount = (allRows batcher.pending).length) : Flushed batcher batcher.flush := by
  unfold flush cancel
  dsimp only
  split
  · rename_i hzero
    have hnone : allRows batcher.pending = [] := List.eq_nil_of_length_eq_zero (hcount.symm.trans hzero)
    refine ⟨hkeys, hzero, hnone, fun session => ?_, rfl⟩
    symm
    rw [rowsFor_nil, List.eq_nil_iff_forall_not_mem]
    intro e he
    have := rowsFor_subset e he
    rw [hnone] at this
    cases this
  · exact ⟨List.nodup_nil, rfl, rfl, fun _ => rfl, rfl⟩

theorem Flushed.sound {sizeCap : Nat} (hcap : 0 < sizeCap) {batcher : SSEBatcher} {left : SSEBatcher × List AppendCall}
    (h : Flushed batcher left) : Sound sizeCap left.1 :=
  ⟨h.keys, by rw [h.count, h.none]; rfl, h.count ▸ hcap, fun hne => absurd h.count hne⟩

theorem Flushed.pending {batcher : SSEBatcher} {left : SSEBatcher × List AppendCall} (h : Flushed batcher left)
    (session : SessionId) : rowsFor session left.1.pending = [] := by
  rw [List.eq_nil_iff_forall_not_mem]
  intro e he
  have := rowsFor_subset e he
  rw [h.none] at this
  cases this

/-- What a step that may flush gives and keeps. -/
structure Keeps (sizeCap : Nat) (batcher : SSEBatcher) (left : SSEBatcher × List AppendCall)
    (more : SessionId → List Event) : Prop where
  sound : Sound sizeCap left.1
  order : ∀ session, rowsFor session left.2 ++ rowsFor session left.1.pending =
    rowsFor session batcher.pending ++ more session

theorem Flushed.keeps {sizeCap : Nat} (hcap : 0 < sizeCap) {batcher : SSEBatcher}
    {left : SSEBatcher × List AppendCall} (h : Flushed batcher left) : Keeps sizeCap batcher left fun _ => [] :=
  ⟨h.sound hcap, fun session => by rw [h.calls, h.pending]⟩

variable {sizeCap : Nat} {batcher : SSEBatcher}

theorem Sound.flush (hcap : 0 < sizeCap) (h : Sound sizeCap batcher) :
    Keeps sizeCap batcher batcher.flush (fun _ => []) ∧ batcher.flush.1.seen = batcher.seen :=
  have hflushed := flush_flushed h.keys h.count
  ⟨hflushed.keeps hcap, hflushed.seen⟩

theorem Sound.frame (hcap : 0 < sizeCap) (h : Sound sizeCap batcher) :
    Keeps sizeCap batcher batcher.frame (fun _ => []) ∧ batcher.frame.1.seen = batcher.seen := by
  unfold SSEBatcher.frame
  split
  · have hflushed : Flushed { batcher with raf := false } _ := flush_flushed h.keys h.count
    exact ⟨⟨hflushed.sound hcap, (hflushed.keeps hcap).order⟩, hflushed.seen⟩
  · exact ⟨⟨h, fun session => by simp⟩, rfl⟩

theorem Sound.timeout (hcap : 0 < sizeCap) (h : Sound sizeCap batcher) :
    Keeps sizeCap batcher batcher.timeout (fun _ => []) ∧ batcher.timeout.1.seen = batcher.seen := by
  unfold SSEBatcher.timeout
  split
  · have hflushed : Flushed { batcher with timer := false } _ := flush_flushed h.keys h.count
    exact ⟨⟨hflushed.sound hcap, (hflushed.keeps hcap).order⟩, hflushed.seen⟩
  · exact ⟨⟨h, fun session => by simp⟩, rfl⟩

/-- The new row of a delivery, in its session. -/
def newRow (isNew : Bool) (event : Event) (session : SessionId) : List Event :=
  if isNew ∧ event.row.sessionId = some session then [event] else []

/-- **A delivery** classifies its row by the ids of its session, records its id, and a new row of a session waits
behind the others, or is written with them. -/
theorem Sound.enqueue (hcap : 0 < sizeCap) (h : Sound sizeCap batcher) (existing : SessionId → Option (List Event))
    (event : Event) (isNew : Bool) (left : SSEBatcher × List AppendCall)
    (hstep : batcher.enqueue sizeCap existing event = (isNew, left)) :
    isNew = !(batcher.idsFor existing event.row.sessionId).contains event.id ∧
    left.1.seen = Function.update batcher.seen event.row.sessionId (some
      (batcher.idsFor existing event.row.sessionId ++ if isNew then [event.id] else [])) ∧
    Keeps sizeCap batcher left (newRow isNew event) := by
  unfold SSEBatcher.enqueue at hstep
  dsimp only at hstep
  split at hstep
  · rename_i hseen
    obtain ⟨rfl, rfl⟩ := Prod.mk.inj hstep
    refine ⟨by rw [hseen]; rfl, by simp, ⟨⟨h.keys, h.count, h.below, h.asked⟩, fun session => ?_⟩⟩
    simp [newRow]
  · rename_i hnew
    have hisNew : (!(batcher.idsFor existing event.row.sessionId).contains event.id) = true := by
      simpa using hnew
    split at hstep
    · rename_i hkey
      obtain ⟨rfl, rfl⟩ := Prod.mk.inj hstep
      refine ⟨hisNew.symm, by simp [hkey], ⟨⟨h.keys, h.count, h.below, h.asked⟩, fun session => ?_⟩⟩
      simp [newRow, hkey]
    · rename_i session hkey
      have hpushed : ∀ s, rowsFor s (push session event batcher.pending) =
          rowsFor s batcher.pending ++ newRow true event s := by
        intro s
        rw [rowsFor_push session event s h.keys]
        congr 1
        unfold newRow
        rw [hkey]
        simp
      have hkeys := push_nodup session event h.keys
      have hcount : batcher.pendingCount + 1 = (allRows (push session event batcher.pending)).length := by
        rw [allRows_push, h.count]
      split at hstep
      · obtain ⟨rfl, rfl⟩ := Prod.mk.inj hstep
        have hflushed : Flushed { batcher with
          seen := Function.update batcher.seen (some session)
            (some (batcher.idsFor existing event.row.sessionId ++ [event.id]))
          pending := push session event batcher.pending
          pendingCount := batcher.pendingCount + 1 } _ := flush_flushed hkeys hcount
        rw [hkey] at hflushed ⊢
        refine ⟨(hkey ▸ hisNew).symm, by simpa using hflushed.seen, ⟨hflushed.sound hcap, fun s => ?_⟩⟩
        rw [hflushed.calls, hflushed.pending, List.append_nil]
        exact hpushed s
      · rename_i hfew
        obtain ⟨rfl, rfl⟩ := Prod.mk.inj hstep
        refine ⟨hisNew.symm, by simp [hkey, request], ⟨⟨hkeys, hcount, ?_, fun _ => ⟨rfl, rfl⟩⟩, hpushed⟩⟩
        exact Nat.lt_of_not_le hfew

end SSEBatcher

/-! ## Whole runs -/

/-- The ids that the cache held when a session was first seen. -/
def seedOf (key : Option SessionId) : List BatcherStep → Option (List String)
  | [] => none
  | .enqueue existing event :: steps =>
      if event.row.sessionId = key then some ((key.elim [] fun session => (existing session).getD []).map Event.id)
      else seedOf key steps
  | _ :: steps => seedOf key steps

/-- The rows of a session among the steps, however often they are delivered. -/
def deliveredTo (key : Option SessionId) : List BatcherStep → List Event
  | [] => []
  | .enqueue _ event :: steps =>
      if event.row.sessionId = key then event :: deliveredTo key steps else deliveredTo key steps
  | _ :: steps => deliveredTo key steps

theorem seedOf_append (key : Option SessionId) (step : BatcherStep) : ∀ steps : List BatcherStep,
    seedOf key (steps ++ [step]) = (seedOf key steps).or (seedOf key [step])
  | [] => by simp [seedOf]
  | .enqueue existing event :: steps => by
      rw [List.cons_append, seedOf, seedOf]
      split
      · rfl
      · exact seedOf_append key step steps
  | .frame :: steps => seedOf_append key step steps
  | .timeout :: steps => seedOf_append key step steps
  | .flush :: steps => seedOf_append key step steps

theorem deliveredTo_append (key : Option SessionId) (step : BatcherStep) : ∀ steps : List BatcherStep,
    deliveredTo key (steps ++ [step]) = deliveredTo key steps ++ deliveredTo key [step]
  | [] => rfl
  | .enqueue existing event :: steps => by
      rw [List.cons_append, deliveredTo, deliveredTo, deliveredTo_append key step steps]
      split
      · rfl
      · rfl
  | .frame :: steps => deliveredTo_append key step steps
  | .timeout :: steps => deliveredTo_append key step steps
  | .flush :: steps => deliveredTo_append key step steps

namespace BatcherRun

/-- The new rows of a session. -/
def newTo (run : BatcherRun) (key : Option SessionId) : List Event :=
  run.firsts.filter fun e => decide (e.row.sessionId = key)

/-- What holds after some steps: each row delivered so far has been classified once. -/
structure Classified (sizeCap : Nat) (steps : List BatcherStep) (run : BatcherRun) : Prop where
  sound : run.batcher.Sound sizeCap
  order : ∀ session, rowsFor session run.calls ++ rowsFor session run.batcher.pending = run.newTo (some session)
  /-- The ids seen are those of the cache at first, and of the new rows. -/
  seen : ∀ key, run.batcher.seen key = (seedOf key steps).map (· ++ (run.newTo key).map Event.id)
  unseen : ∀ key, seedOf key steps = none → run.newTo key = []
  /-- No new row was known to the cache, or new before. -/
  distinct : ∀ key, ((run.newTo key).map Event.id).Nodup ∧
    ∀ seed, seedOf key steps = some seed → ∀ e ∈ run.newTo key, e.id ∉ seed
  /-- Every row delivered is new at first, unless the cache held it. -/
  delivered : ∀ key, ∀ e ∈ deliveredTo key steps, ∃ seed, seedOf key steps = some seed ∧
    (e.id ∈ seed ∨ e.id ∈ (run.newTo key).map Event.id)

theorem Classified.start {sizeCap : Nat} (hcap : 0 < sizeCap) : Classified sizeCap [] start :=
  ⟨.fresh hcap, fun _ => rfl, fun _ => rfl, fun _ _ => rfl, fun _ => ⟨List.nodup_nil, fun _ h => nomatch h⟩,
    fun _ _ h => nomatch h⟩

variable {sizeCap : Nat} {steps : List BatcherStep} {run : BatcherRun}

/-- A flush, however it comes about. -/
theorem Classified.flushed (h : Classified sizeCap steps run) {step : BatcherStep} {left : SSEBatcher × List AppendCall}
    (hkeeps : SSEBatcher.Keeps sizeCap run.batcher left fun _ => []) (hseen : left.1.seen = run.batcher.seen)
    (hseed : ∀ key, seedOf key (steps ++ [step]) = seedOf key steps)
    (hrows : ∀ key, deliveredTo key (steps ++ [step]) = deliveredTo key steps) :
    Classified sizeCap (steps ++ [step]) (run.flushed left) := by
  refine ⟨hkeeps.sound, fun session => ?_, fun key => ?_, fun key => ?_, fun key => ?_, fun key e he => ?_⟩
  · show rowsFor session (run.calls ++ left.2) ++ rowsFor session left.1.pending = run.newTo (some session)
    rw [rowsFor_append, List.append_assoc, hkeeps.order, List.append_nil, h.order]
  · rw [hseed]
    exact (congrFun hseen key).trans (h.seen key)
  · rw [hseed]
    exact h.unseen key
  · rw [hseed]
    exact h.distinct key
  · rw [hseed]
    rw [hrows] at he
    exact h.delivered key e he

/-- The ids compared with at a delivery. -/
theorem Classified.idsFor (h : Classified sizeCap steps run) (existing : SessionId → Option (List Event))
    (event : Event) :
    ∃ seed, seedOf event.row.sessionId (steps ++ [.enqueue existing event]) = some seed ∧
      run.batcher.idsFor existing event.row.sessionId = seed ++ (run.newTo event.row.sessionId).map Event.id ∧
      (seedOf event.row.sessionId steps = some seed ∨ run.newTo event.row.sessionId = []) := by
  have hseen := h.seen event.row.sessionId
  unfold SSEBatcher.idsFor
  rw [seedOf_append, hseen]
  cases hseed : seedOf event.row.sessionId steps with
  | some seed => exact ⟨seed, rfl, rfl, .inl rfl⟩
  | none =>
      have hempty := h.unseen _ hseed
      refine ⟨_, by rw [seedOf, if_pos rfl]; rfl, ?_, .inr hempty⟩
      rw [hempty]
      cases event.row.sessionId with
      | none => rfl
      | some session => simp

/-- The new rows after a delivery. -/
theorem newTo_append (run : BatcherRun) (left : SSEBatcher × List AppendCall) (isNew : Bool) (event : Event)
    (key : Option SessionId) :
    newTo { run.flushed left with firsts := run.firsts ++ if isNew then [event] else [] } key =
      run.newTo key ++ if isNew ∧ event.row.sessionId = key then [event] else [] := by
  show List.filter _ (run.firsts ++ _) = List.filter _ run.firsts ++ _
  rw [List.filter_append]
  congr 1
  cases isNew with
  | false => simp
  | true =>
      by_cases hkey : event.row.sessionId = key
      · simp [hkey]
      · simp [hkey]

/-- What a delivery finds: the ids that the cache held of its session at first, and whether its row is new. -/
structure Finds (run : BatcherRun) (steps : List BatcherStep) (existing : SessionId → Option (List Event))
    (event : Event) (isNew : Bool) (seed : List String) : Prop where
  held : seedOf event.row.sessionId (steps ++ [.enqueue existing event]) = some seed
  before : seedOf event.row.sessionId steps = some seed ∨ run.newTo event.row.sessionId = []
  first : isNew = true ↔ event.id ∉ seed ∧ event.id ∉ (run.newTo event.row.sessionId).map Event.id
  /-- Another session's first ids are what they were. -/
  other : ∀ key, event.row.sessionId ≠ key → seedOf key (steps ++ [.enqueue existing event]) = seedOf key steps

variable {existing : SessionId → Option (List Event)} {event : Event} {isNew : Bool} {seed : List String}

theorem Classified.finds (h : Classified sizeCap steps run)
    (hnew : isNew = !(run.batcher.idsFor existing event.row.sessionId).contains event.id) :
    ∃ seed, Finds run steps existing event isNew seed ∧
      run.batcher.idsFor existing event.row.sessionId = seed ++ (run.newTo event.row.sessionId).map Event.id := by
  obtain ⟨seed, hseed, hids, hbefore⟩ := h.idsFor existing event
  refine ⟨seed, ⟨hseed, hbefore, ?_, fun key hne => ?_⟩, hids⟩
  · rw [hnew, hids]
    simp
  · rw [seedOf_append, seedOf, if_neg hne, seedOf]
    cases seedOf key steps with
    | none => rfl
    | some _ => rfl

/-- The rows that are new once the delivery is through. -/
def newAfter (run : BatcherRun) (event : Event) (isNew : Bool) (key : Option SessionId) : List Event :=
  run.newTo key ++ if isNew ∧ event.row.sessionId = key then [event] else []

theorem newAfter_other {key : Option SessionId} (hne : event.row.sessionId ≠ key) :
    run.newAfter event isNew key = run.newTo key := by
  simp [newAfter, hne]

theorem newAfter_own : run.newAfter event isNew event.row.sessionId =
    run.newTo event.row.sessionId ++ if isNew then [event] else [] := by
  simp [newAfter]

/-- The cache did not hold the rows that were new already. -/
theorem Finds.unheld (hfinds : Finds run steps existing event isNew seed) (h : Classified sizeCap steps run) :
    ∀ e ∈ run.newTo event.row.sessionId, e.id ∉ seed := by
  intro e he
  rcases hfinds.before with hsome | hempty
  · exact (h.distinct event.row.sessionId).2 seed hsome e he
  · rw [hempty] at he
    cases he

theorem Finds.distinct (hfinds : Finds run steps existing event isNew seed) (h : Classified sizeCap steps run)
    (key : Option SessionId) :
    ((run.newAfter event isNew key).map Event.id).Nodup ∧
      ∀ seed', seedOf key (steps ++ [.enqueue existing event]) = some seed' →
        ∀ e ∈ run.newAfter event isNew key, e.id ∉ seed' := by
  by_cases hkey : event.row.sessionId = key
  · subst hkey
    rw [hfinds.held, newAfter_own]
    cases hisNew : isNew with
    | false =>
        simp only [Bool.false_eq_true, if_false, List.append_nil]
        refine ⟨(h.distinct event.row.sessionId).1, fun seed' hseed' => ?_⟩
        obtain rfl := Option.some.inj hseed'
        exact hfinds.unheld h
    | true =>
        obtain ⟨hnotseed, hnotnew⟩ := hfinds.first.mp hisNew
        rw [if_pos rfl, List.map_append]
        refine ⟨List.nodup_append.mpr ⟨(h.distinct event.row.sessionId).1, List.nodup_singleton _, ?_⟩,
          fun seed' hseed' e he => ?_⟩
        · intro id hid id' hid' heq
          obtain rfl := List.mem_singleton.mp hid'
          exact hnotnew (heq ▸ hid)
        · obtain rfl := Option.some.inj hseed'
          rcases List.mem_append.mp he with he | he
          · exact hfinds.unheld h e he
          · obtain rfl := List.mem_singleton.mp he
            exact hnotseed
  · rw [newAfter_other hkey, hfinds.other key hkey]
    exact h.distinct key

theorem Finds.delivered (hfinds : Finds run steps existing event isNew seed) (h : Classified sizeCap steps run)
    (key : Option SessionId) : ∀ e ∈ deliveredTo key (steps ++ [.enqueue existing event]),
    ∃ seed', seedOf key (steps ++ [.enqueue existing event]) = some seed' ∧
      (e.id ∈ seed' ∨ e.id ∈ (run.newAfter event isNew key).map Event.id) := by
  intro e he
  rw [deliveredTo_append] at he
  by_cases hkey : event.row.sessionId = key
  · subst hkey
    refine ⟨seed, hfinds.held, ?_⟩
    rw [newAfter_own, List.map_append, List.mem_append]
    rcases List.mem_append.mp he with he | he
    · -- a row delivered before
      obtain ⟨seed', hseed', hmem⟩ := h.delivered _ e he
      have hseed := hfinds.held
      rw [seedOf_append, hseed'] at hseed
      obtain rfl := Option.some.inj hseed
      exact hmem.imp_right .inl
    · have he : e = event := by
        rw [deliveredTo, if_pos rfl] at he
        exact List.mem_singleton.mp he
      subst he
      by_cases hisNew : isNew = true
      · exact .inr (.inr (by simp [hisNew]))
      · rcases not_and_or.mp fun hnot => hisNew (hfinds.first.mpr hnot) with hheld | hknown
        · exact .inl (not_not.mp hheld)
        · exact .inr (.inl (not_not.mp hknown))
  · have hnone : deliveredTo key [.enqueue existing event] = [] := by rw [deliveredTo, if_neg hkey, deliveredTo]
    rw [hnone, List.append_nil] at he
    rw [newAfter_other hkey, hfinds.other key hkey]
    exact h.delivered key e he

/-- **A delivery keeps what holds.** -/
theorem Classified.delivers (hcap : 0 < sizeCap) (h : Classified sizeCap steps run)
    (existing : SessionId → Option (List Event)) (event : Event) :
    Classified sizeCap (steps ++ [.enqueue existing event]) (run.step sizeCap (.enqueue existing event)) := by
  generalize hstep : run.batcher.enqueue sizeCap existing event = out
  obtain ⟨isNew, left⟩ := out
  obtain ⟨hnew, hseen, hkeeps⟩ := h.sound.enqueue hcap existing event isNew left hstep
  obtain ⟨seed, hfinds, hids⟩ := h.finds hnew
  have hrun : run.step sizeCap (.enqueue existing event) =
      { run.flushed left with firsts := run.firsts ++ if isNew then [event] else [] } := by
    unfold step
    dsimp only
    rw [hstep]
  have hafter : ∀ key, newTo (run.step sizeCap (.enqueue existing event)) key = run.newAfter event isNew key := by
    intro key
    rw [hrun]
    exact newTo_append run left isNew event key
  refine ⟨?_, fun session => ?_, fun key => ?_, fun key hnone => ?_, fun key => ?_, fun key => ?_⟩
  · rw [hrun]
    exact hkeeps.sound
  · rw [hafter, hrun]
    show rowsFor session (run.calls ++ left.2) ++ rowsFor session left.1.pending = _
    rw [rowsFor_append, List.append_assoc, hkeeps.order, ← List.append_assoc, h.order]
    rfl
  · rw [hafter, hrun]
    show left.1.seen key = _
    rw [hseen]
    by_cases hkey : event.row.sessionId = key
    · subst hkey
      rw [Function.update_self, hids, hfinds.held, Option.map_some, newAfter_own]
      congr 1
      rw [List.append_assoc, List.map_append]
      cases isNew with
      | false => simp
      | true => simp
    · rw [Function.update_of_ne (Ne.symm hkey), hfinds.other key hkey, newAfter_other hkey]
      exact h.seen key
  · rw [hafter]
    by_cases hkey : event.row.sessionId = key
    · subst hkey
      rw [hfinds.held] at hnone
      cases hnone
    · rw [hfinds.other key hkey] at hnone
      rw [newAfter_other hkey]
      exact h.unseen key hnone
  · rw [hafter]
    exact hfinds.distinct h key
  · rw [hafter]
    exact hfinds.delivered h key

theorem Classified.step (hcap : 0 < sizeCap) (h : Classified sizeCap steps run) : ∀ step : BatcherStep,
    Classified sizeCap (steps ++ [step]) (run.step sizeCap step)
  | .enqueue existing event => h.delivers hcap existing event
  | .frame =>
      have hframe := h.sound.frame hcap
      h.flushed hframe.1 hframe.2 (fun key => by rw [seedOf_append]; simp [seedOf])
        fun key => by rw [deliveredTo_append]; simp [deliveredTo]
  | .timeout =>
      have htimeout := h.sound.timeout hcap
      h.flushed htimeout.1 htimeout.2 (fun key => by rw [seedOf_append]; simp [seedOf])
        fun key => by rw [deliveredTo_append]; simp [deliveredTo]
  | .flush =>
      have hflush := h.sound.flush hcap
      h.flushed hflush.1 hflush.2 (fun key => by rw [seedOf_append]; simp [seedOf])
        fun key => by rw [deliveredTo_append]; simp [deliveredTo]

theorem Classified.after (hcap : 0 < sizeCap) (steps : List BatcherStep) :
    Classified sizeCap steps (after sizeCap steps) := by
  induction steps using List.reverseRecOn with
  | nil => exact .start hcap
  | append_singleton steps step ih =>
      show Classified sizeCap (steps ++ [step]) (List.foldl _ _ (steps ++ [step]))
      rw [List.foldl_append]
      exact ih.step hcap step

end BatcherRun

/-- **Each row is classified once and written once.** Whatever is delivered, in whatever order and however often,
whatever the cache holds each time, and whenever a frame, a timer or a lost stream flushes: the rows written to a
session, followed by those that still wait, are exactly its new rows, in the order of their delivery; no row is new
twice, none is new that the cache held when the session was first seen, and every other row delivered is new once;
fewer rows wait than the cap, and as long as one waits a frame and a timer are asked for. -/
theorem batcher_exactly_once (sizeCap : Nat) (hcap : 0 < sizeCap) (steps : List BatcherStep) :
    (∀ session, rowsFor session (BatcherRun.after sizeCap steps).calls ++
      rowsFor session (BatcherRun.after sizeCap steps).batcher.pending =
        (BatcherRun.after sizeCap steps).newTo (some session)) ∧
    (∀ key, (((BatcherRun.after sizeCap steps).newTo key).map Event.id).Nodup ∧
      (∀ seed, seedOf key steps = some seed → ∀ e ∈ (BatcherRun.after sizeCap steps).newTo key, e.id ∉ seed) ∧
      ∀ e ∈ deliveredTo key steps, ∃ seed, seedOf key steps = some seed ∧
        (e.id ∈ seed ∨ e.id ∈ ((BatcherRun.after sizeCap steps).newTo key).map Event.id)) ∧
    (allRows (BatcherRun.after sizeCap steps).batcher.pending).length < sizeCap ∧
    (allRows (BatcherRun.after sizeCap steps).batcher.pending ≠ [] →
      (BatcherRun.after sizeCap steps).batcher.raf = true ∧ (BatcherRun.after sizeCap steps).batcher.timer = true) := by
  have h := BatcherRun.Classified.after hcap steps
  refine ⟨h.order, fun key => ⟨(h.distinct key).1, (h.distinct key).2, h.delivered key⟩, ?_, fun hne => ?_⟩
  · exact h.sound.count ▸ h.sound.below
  · refine h.sound.asked fun hzero => hne (List.eq_nil_of_length_eq_zero ?_)
    exact h.sound.count.symm.trans hzero

def streamedRow (id : Nat) : Event := Event.of ⟨id, "x", some "s", .platform, .null, none, 0⟩

/-- Two rows of one session; the first one is delivered again after a frame. -/
def redelivered : List BatcherStep :=
  [.enqueue (fun _ => none) (streamedRow 1), .frame, .enqueue (fun _ => none) (streamedRow 1),
    .enqueue (fun _ => none) (streamedRow 2)]

theorem batcher_exactly_once_redelivered :
    rowsFor "s" (BatcherRun.after 500 redelivered).calls ++
      rowsFor "s" (BatcherRun.after 500 redelivered).batcher.pending = [streamedRow 1, streamedRow 2] :=
  (batcher_exactly_once 500 (by decide) redelivered).1 "s"

end AgentBeacon.Web
