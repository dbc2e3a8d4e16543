import AgentBeacon.Correctness.HistoryPages
import AgentBeacon.Web.Live
import Mathlib.Data.List.Sort

/-!
# `Correctness.LiveLane` — the way of a session's rows into its window

A session's window holds rows of its log. Rows that the stream has delivered wait in a line: those deferred behind the
held head come first, then those of the batcher. A line is in order (`Lane`) if what is still to come, in it or from
the stream, stands behind every cached row, or is cached already. Each write of the cache keeps the line in order, and
loses nothing (`Carries`).
-/

namespace AgentBeacon.Web
open Keyset

/-- Rows in the order of a log, all of them its rows, are a part of it. -/
theorem sublist_of_ascending {rows log : List Event} (hrows : Ascending position rows) (hlog : Ascending position log)
    (h : ∀ e ∈ rows, e ∈ log) : rows.Sublist log := by
  have : Std.Antisymm fun a b : Event => position a < position b :=
    ⟨fun a b hab hba => absurd hba (Nat.lt_asymm hab)⟩
  have hnodup : rows.Nodup := hrows.imp fun {a b} hlt (heq : a = b) => Nat.lt_irrefl _ (heq ▸ hlt)
  exact List.sublist_of_subperm_of_pairwise (List.subperm_of_subset hnodup h) hrows hlog

/-- The rows of the log that a list of writes will append. -/
def deferredRows : List TailWrite → List Event
  | [] => []
  | .live rows :: writes => rows ++ deferredRows writes
  | .merge _ _ _ :: writes => deferredRows writes

@[simp] theorem deferredRows_append : ∀ writes writes' : List TailWrite,
    deferredRows (writes ++ writes') = deferredRows writes ++ deferredRows writes'
  | [], _ => rfl
  | .live rows :: writes, writes' => by
      rw [List.cons_append, deferredRows, deferredRows, deferredRows_append writes writes', List.append_assoc]
  | .merge _ _ _ :: writes, writes' => by
      rw [List.cons_append, deferredRows, deferredRows, deferredRows_append writes writes']

namespace SessionCache

/-- The rows of the window. -/
def rows (cache : SessionCache) : List Event := (cache.getQueryData .window).getD []

variable (cache : SessionCache) (key : CacheKey) (events : List Event)

@[simp] theorem getQueryData_set : (cache.setQueryData key events).getQueryData key = some events := by
  simp [getQueryData, setQueryData]

@[simp] theorem rows_set : (cache.setQueryData .window events).rows = events := by simp [rows]

@[simp] theorem rows_set_full : (cache.setQueryData .full events).rows = cache.rows := by
  simp [rows, getQueryData, setQueryData]

@[simp] theorem heldLiveEvents_set : (cache.setQueryData key events).heldLiveEvents = cache.heldLiveEvents := rfl

theorem getQueryData_of_rows {cache : SessionCache} (h : cache.rows ≠ []) :
    cache.getQueryData .window = some cache.rows := by
  unfold rows at h ⊢
  cases hdata : cache.getQueryData .window with
  | none =>
      rw [hdata] at h
      exact absurd rfl h
  | some rows => rfl

end SessionCache

/-- Rows that are merged where they belong, now and later: a stretch of the log that reaches back to a cached row, or
to the beginning of the log. -/
def Stretch (log cached rows : List Event) : Prop :=
  ∃ before after, log = before ++ rows ++ after ∧ (rows = [] ∨ before = [] ∨ ∃ e ∈ cached, e ∈ rows)

theorem Stretch.grown {log log' cached cached' rows : List Event} (h : Stretch log cached rows) (hlog : log <+: log')
    (hcached : ∀ e ∈ cached, e ∈ cached') : Stretch log' cached' rows := by
  obtain ⟨before, after, rfl, hmeet⟩ := h
  obtain ⟨more, rfl⟩ := hlog
  refine ⟨before, after ++ more, by rw [List.append_assoc], ?_⟩
  exact hmeet.imp_right (Or.imp_right fun ⟨e, he, hrow⟩ => ⟨e, hcached e he, hrow⟩)

/-- Rows that are merged where they belong now. -/
def Meets (log cached rows : List Event) : Prop :=
  ∃ before after, log = before ++ rows ++ after ∧
    (rows = [] ∨ (∃ e ∈ cached, e ∈ rows) ∨ ∀ e ∈ cached, e ∉ before)

theorem Stretch.meets {log cached rows : List Event} (h : Stretch log cached rows) : Meets log cached rows := by
  obtain ⟨before, after, hlog, hmeet⟩ := h
  refine ⟨before, after, hlog, ?_⟩
  rcases hmeet with hempty | hbefore | hshared
  · exact .inl hempty
  · refine .inr (.inr fun e _ hin => ?_)
    rw [hbefore] at hin
    cases hin
  · exact .inr (.inl hshared)

/-! ## Lists of rows -/

section Rows

variable {log cached rows : List Event} {due : Event → Prop}

/-- Rows of a log, in its order and without gap where more are due: what is due stands behind them all, or is one of
them. -/
structure Fits (log cached : List Event) (due : Event → Prop) : Prop where
  rows : cached ≠ []
  ordered : cached.Sublist log
  behind : ∀ e ∈ log, due e → ∀ o ∈ cached, position e < position o → e ∈ cached

/-- A log, as far as the merges look at it. -/
structure IsLog (log : List Event) : Prop where
  ascending : Ascending position log
  nodup : (log.map Event.id).Nodup

theorem IsLog.eq_of_id (h : IsLog log) {e e' : Event} (he : e ∈ log) (he' : e' ∈ log) (hid : e.id = e'.id) : e = e' :=
  List.inj_on_of_nodup_map h.nodup he he' hid

theorem isLog_sessionRows (session : SessionId) (log : EventLog) : IsLog (sessionRows session log) :=
  ⟨sessionRows_ascending session log, sessionRows_nodup session log⟩

/-- The rows that are not cached. -/
def lacking (cached events : List Event) : List Event :=
  events.filter fun e => !(cached.map Event.id).contains e.id

theorem IsLog.mem_lacking (h : IsLog log) (hcached : cached.Sublist log) {events : List Event}
    (hevents : events.Sublist log) {e : Event} : e ∈ lacking cached events ↔ e ∈ events ∧ e ∉ cached := by
  unfold lacking
  rw [List.mem_filter]
  refine and_congr_right fun he => ?_
  rw [Bool.not_eq_true', Bool.eq_false_iff, ne_eq, List.contains_iff_mem, not_iff_not, List.mem_map]
  constructor
  · rintro ⟨o, ho, hid⟩
    exact h.eq_of_id (hcached.subset ho) (hevents.subset he) hid ▸ ho
  · intro hin
    exact ⟨e, hin, rfl⟩

/-- **Rows that were due are appended in order.** The rows still due stand behind them. -/
theorem Fits.append (hlog : IsLog log) (h : Fits log cached due) {events : List Event} (hevents : events.Sublist log)
    (hdue : ∀ e ∈ events, due e) {due' : Event → Prop} (hrest : ∀ e ∈ log, due' e → due e)
    (hbehind : ∀ e ∈ log, due' e → ∀ v ∈ events, position v < position e) :
    Fits log (cached ++ lacking cached events) due' := by
  have hmem := fun e => @IsLog.mem_lacking log cached hlog h.ordered events hevents e
  refine ⟨fun hnil => h.rows (List.append_eq_nil_iff.mp hnil).1, ?_, fun e he hdue' o ho hlt => ?_⟩
  · refine sublist_of_ascending (List.pairwise_append.mpr ⟨hlog.ascending.sublist h.ordered, ?_, ?_⟩) hlog.ascending ?_
    · exact (hlog.ascending.sublist hevents).filter _
    · intro o ho v hv
      obtain ⟨hv, hnot⟩ := (hmem v).mp hv
      have hge : ¬position v < position o := fun hlt => hnot (h.behind v (hevents.subset hv) (hdue v hv) o ho hlt)
      have hne : position o ≠ position v := by
        intro heq
        exact hnot (hlog.ascending.unique (h.ordered.subset ho) (hevents.subset hv) heq ▸ ho)
      omega
    · intro e he
      rcases List.mem_append.mp he with he | he
      · exact h.ordered.subset he
      · exact hevents.subset ((hmem e).mp he).1
  · rcases List.mem_append.mp ho with ho | ho
    · exact List.mem_append_left _ (h.behind e he (hrest e he hdue') o ho hlt)
    · have := hbehind e he hdue' o ((hmem o).mp ho).1
      omega

/-- **A stretch of the log is merged in order**, and what is due is still due behind it. -/
theorem Fits.merge (hlog : IsLog log) (h : Fits log cached due) (hmeets : Meets log cached rows) :
    Fits log (mergeAnchored (some cached) rows) due ∧ cached.Sublist (mergeAnchored (some cached) rows) := by
  obtain ⟨before, after, hsplit, hmeet⟩ := hmeets
  obtain ⟨hordered, hkept, hmem⟩ := Anchored.merge_segment hlog.nodup hsplit h.ordered hmeet
  refine ⟨⟨?_, hordered, fun e he hdue o ho hlt => ?_⟩, hkept⟩
  · intro hnil
    exact h.rows (List.sublist_nil.mp (hnil ▸ hkept))
  · show e ∈ Anchored.merge Event.id cached rows
    rw [hmem]
    rcases (hmem o).mp ho with ho | ho
    · exact .inl (h.behind e he hdue o ho hlt)
    · have hasc := hlog.ascending
      rw [hsplit] at hasc he
      obtain ⟨hfront, -, hback⟩ := List.pairwise_append.mp hasc
      obtain ⟨-, -, hbefore⟩ := List.pairwise_append.mp hfront
      rcases List.mem_append.mp he with he | he
      · rcases List.mem_append.mp he with he | he
        · -- before the stretch: a cached row stands behind it
          left
          have hlogged : e ∈ log := hsplit ▸ List.mem_append_left _ (List.mem_append_left _ he)
          rcases hmeet with hempty | ⟨x, hx, hshared⟩ | hnone
          · rw [hempty] at ho
            cases ho
          · exact h.behind e hlogged hdue x hx (hbefore e he x hshared)
          · obtain ⟨x, hx⟩ := List.exists_mem_of_ne_nil _ h.rows
            have hin := h.ordered.subset hx
            rw [hsplit] at hin
            rcases List.mem_append.mp hin with hin | hin
            · rcases List.mem_append.mp hin with hin | hin
              · exact absurd hin (hnone x hx)
              · exact h.behind e hlogged hdue x hx (hbefore e he x hin)
            · exact h.behind e hlogged hdue x hx (hback e (List.mem_append_left _ he) x hin)
        · exact .inr he
      · have := hback o (List.mem_append_right _ ho) e he
        omega

end Rows

/-! ## The line of a session -/

/-- Nothing is lost from a step of a cache to a later one: neither a cached row nor one that waits. -/
structure Carries (cache : SessionCache) (waiting : List Event) (cache' : SessionCache) (waiting' : List Event) :
    Prop where
  rows : cache.rows.Sublist cache'.rows
  waiting : ∀ e ∈ waiting, e ∈ cache'.rows ∨ e ∈ waiting'

namespace Carries

variable {a b c : SessionCache} {u v w : List Event}

theorem refl (a : SessionCache) (u : List Event) : Carries a u a u := ⟨List.Sublist.refl _, fun _ he => .inr he⟩

theorem trans (h : Carries a u b v) (h' : Carries b v c w) : Carries a u c w :=
  ⟨h.rows.trans h'.rows, fun e he => (h.waiting e he).elim (fun hrow => .inl (h'.rows.subset hrow)) (h'.waiting e)⟩

end Carries

/-- A window and its line: the writes that are deferred, and the rows that come after them. -/
structure Lane (log : List Event) (cursor : Nat) (writes : List TailWrite) (pending : List Event)
    (cache : SessionCache) : Prop where
  fits : Fits log cache.rows fun e => e ∈ deferredRows writes ++ pending ∨ cursor < position e
  waiting : (deferredRows writes ++ pending).Sublist log
  come : ∀ e ∈ deferredRows writes ++ pending, position e ≤ cursor
  merges : ∀ rows wanted, .merge .window rows wanted ∈ writes → Stretch log cache.rows rows
  /-- Of the live events held, the last is cached, if there are any. -/
  held : ∀ e, cache.heldLiveEvents.getLast? = some e → e.id ∈ cache.cachedIds .window

namespace Lane

variable {log : List Event} {cursor : Nat} {writes : List TailWrite} {pending events : List Event}
  {cache cache' : SessionCache}

/-- Which cache it is that has these rows and live events does not matter. -/
theorem congr (h : Lane log cursor writes pending cache) (hquery : cache'.query = cache.query)
    (hheld : cache'.heldLive = cache.heldLive) : Lane log cursor writes pending cache' := by
  cases cache
  cases cache'
  obtain rfl := hquery
  obtain rfl := hheld
  exact ⟨h.fits, h.waiting, h.come, h.merges, h.held⟩

theorem held_mono (hheld : cache'.heldLiveEvents = cache.heldLiveEvents) (hrows : cache.rows.Sublist cache'.rows)
    (h : ∀ e, cache.heldLiveEvents.getLast? = some e → e.id ∈ cache.cachedIds .window) :
    ∀ e, cache'.heldLiveEvents.getLast? = some e → e.id ∈ cache'.cachedIds .window := by
  intro e he
  rw [hheld] at he
  exact (hrows.map Event.id).subset (h e he)

theorem merges_mono (hrows : cache.rows.Sublist cache'.rows) {writes' : List TailWrite}
    (hwrites : ∀ write ∈ writes', write ∈ writes)
    (h : ∀ rows wanted, .merge .window rows wanted ∈ writes → Stretch log cache.rows rows) :
    ∀ rows wanted, .merge .window rows wanted ∈ writes' → Stretch log cache'.rows rows :=
  fun rows wanted hin => (h rows wanted (hwrites _ hin)).grown List.prefix_rfl hrows.subset

/-- A write of the full history leaves the line as it is. -/
theorem set_full (h : Lane log cursor writes pending cache) (rows : List Event) :
    Lane log cursor writes pending (cache.setQueryData .full rows) := by
  have hsame : (cache.setQueryData .full rows).rows = cache.rows := cache.rows_set_full rows
  refine ⟨hsame ▸ h.fits, h.waiting, h.come, ?_, ?_⟩
  · rw [hsame]
    exact h.merges
  · exact held_mono rfl (hsame ▸ List.Sublist.refl _) h.held

end Lane

/-! ## Writes -/

section Writes

variable {log : List Event} {cursor : Nat} {writes : List TailWrite} {pending events : List Event}
  {cache : SessionCache}

theorem appendTo_window (h : cache.rows ≠ []) :
    cache.appendTo events .window = cache.setQueryData .window (cache.rows ++ lacking cache.rows events) := by
  unfold SessionCache.appendTo
  rw [SessionCache.getQueryData_of_rows h]
  rfl

theorem appendTo_full (cache : SessionCache) (events : List Event) :
    cache.appendTo events .full = cache ∨ ∃ rows, cache.appendTo events .full = cache.setQueryData .full rows := by
  unfold SessionCache.appendTo
  split
  · exact .inr ⟨_, rfl⟩
  · exact .inl rfl

/-- Live events that are held come last, or there are too many. -/
theorem holdLiveEvents_eq (events : List Event) (cache : SessionCache) :
    (cache.holdLiveEvents events).query = cache.query ∧
      ((cache.holdLiveEvents events).heldLiveEvents = cache.heldLiveEvents ++ events ∨
        (cache.holdLiveEvents events).heldLiveEvents = []) := by
  unfold SessionCache.holdLiveEvents
  dsimp only
  split
  · exact ⟨rfl, .inr rfl⟩
  · exact ⟨rfl, .inl rfl⟩

/-- What `appendLiveRows` leaves of a window with rows, and of the live events held. -/
theorem appendLiveRows_eq (h : cache.rows ≠ []) (events : List Event) :
    (cache.appendLiveRows events).rows = cache.rows ++ lacking cache.rows events ∧
      ((cache.appendLiveRows events).heldLiveEvents = cache.heldLiveEvents ∨
        (cache.appendLiveRows events).heldLiveEvents = cache.heldLiveEvents ++ events ∨
        (cache.appendLiveRows events).heldLiveEvents = []) ∧
      (cache.appendLiveRows events).tailHeld = cache.tailHeld ∧
      (cache.appendLiveRows events).deferred = cache.deferred := by
  unfold SessionCache.appendLiveRows
  dsimp only
  -- the cache with the live events held, or as it was
  generalize hmid : (if (!(cache.getQueryData .window).isSome && !(cache.getQueryData .full).isSome ||
    cache.building .window || cache.building .full) = true then cache.holdLiveEvents events else cache) = mid
  have hrows : mid.rows = cache.rows ∧ (mid.heldLiveEvents = cache.heldLiveEvents ∨
      mid.heldLiveEvents = cache.heldLiveEvents ++ events ∨ mid.heldLiveEvents = []) ∧
      mid.tailHeld = cache.tailHeld ∧ mid.deferred = cache.deferred := by
    rw [← hmid]
    split
    · obtain ⟨hquery, hheld⟩ := holdLiveEvents_eq events cache
      refine ⟨?_, .inr hheld, ?_⟩
      · unfold SessionCache.rows SessionCache.getQueryData
        rw [hquery]
      · unfold SessionCache.holdLiveEvents
        dsimp only
        split
        · exact ⟨rfl, rfl⟩
        · exact ⟨rfl, rfl⟩
    · exact ⟨rfl, .inl rfl, rfl, rfl⟩
  obtain ⟨hrows, hheld, htail, hdeferred⟩ := hrows
  rw [appendTo_window (hrows ▸ h), hrows]
  rcases appendTo_full (mid.setQueryData .window (cache.rows ++ lacking cache.rows events)) events with
    hsame | ⟨rows, hfull⟩
  · rw [hsame]
    exact ⟨SessionCache.rows_set _ _, hheld, htail, hdeferred⟩
  · rw [hfull]
    refine ⟨?_, hheld, htail, hdeferred⟩
    rw [SessionCache.rows_set_full, SessionCache.rows_set]

/-- **Rows at the head of the line are appended.** -/
theorem Lane.live (hlog : IsLog log) (h : Lane log cursor (.live events :: writes) pending cache) :
    Lane log cursor writes pending (cache.appendLiveRows events) ∧
      Carries cache (deferredRows (.live events :: writes) ++ pending) (cache.appendLiveRows events)
        (deferredRows writes ++ pending) := by
  obtain ⟨hrows, hheld, -, -⟩ := appendLiveRows_eq h.fits.rows events
  have hline : deferredRows (.live events :: writes) ++ pending = events ++ (deferredRows writes ++ pending) := by
    rw [deferredRows, List.append_assoc]
  have hfits := h.fits
  have hwaiting := h.waiting
  have hcome := h.come
  rw [hline] at hwaiting hcome
  simp only [hline] at hfits
  have hevents : events.Sublist log := (List.sublist_append_left _ _).trans hwaiting
  have hasc := hlog.ascending.sublist hwaiting
  obtain ⟨-, -, hfirst⟩ := List.pairwise_append.mp hasc
  have hmem := fun e => @IsLog.mem_lacking log cache.rows hlog hfits.ordered events hevents e
  have hsub : cache.rows.Sublist (cache.appendLiveRows events).rows := by
    rw [hrows]
    exact List.sublist_append_left _ _
  have hall : ∀ e ∈ events, e ∈ (cache.appendLiveRows events).rows := by
    intro e he
    rw [hrows]
    by_cases hin : e ∈ cache.rows
    · exact List.mem_append_left _ hin
    · exact List.mem_append_right _ ((hmem e).mpr ⟨he, hin⟩)
  refine ⟨⟨?_, (List.sublist_append_right _ _).trans hwaiting,
    fun e he => hcome e (List.mem_append_right _ he), ?_, ?_⟩, hsub, fun e he => ?_⟩
  · rw [hrows]
    refine hfits.append hlog hevents (fun e he => .inl (List.mem_append_left _ he)) ?_ ?_
    · intro e _ hdue
      exact hdue.imp_left (List.mem_append_right _)
    · rintro e - (hin | hlater) v hv
      · exact hfirst v hv e hin
      · exact Nat.lt_of_le_of_lt (hcome v (List.mem_append_left _ hv)) hlater
  · exact Lane.merges_mono hsub (fun write hin => List.mem_cons_of_mem _ hin) h.merges
  · intro e he
    rcases hheld with hsame | hadded | hnone
    · exact Lane.held_mono hsame hsub h.held e he
    · rw [hadded, List.getLast?_append] at he
      cases hlast : events.getLast? with
      | none =>
          rw [hlast, Option.none_or] at he
          exact (hsub.map Event.id).subset (h.held e he)
      | some last =>
          rw [hlast, Option.some_or] at he
          obtain rfl := Option.some.inj he
          exact List.mem_map_of_mem (hall _ (List.mem_of_getLast? hlast))
    · rw [hnone] at he
      cases he
  · rw [hline] at he
    rcases List.mem_append.mp he with he | he
    · exact .inl (hall e he)
    · exact .inr he

/-- **Rows that were read are merged.** -/
theorem Lane.merged (hlog : IsLog log) (h : Lane log cursor writes pending cache) {rows : List Event}
    (hmeets : Meets log cache.rows rows) :
    Lane log cursor writes pending
        (cache.setQueryData .window (mergeAnchored (cache.getQueryData .window) rows)) ∧
      Carries cache (deferredRows writes ++ pending)
        (cache.setQueryData .window (mergeAnchored (cache.getQueryData .window) rows))
        (deferredRows writes ++ pending) := by
  obtain ⟨hfits, hkept⟩ := h.fits.merge hlog hmeets
  rw [SessionCache.getQueryData_of_rows h.fits.rows]
  generalize hleft : cache.setQueryData .window (mergeAnchored (some cache.rows) rows) = left
  have hrows : left.rows = mergeAnchored (some cache.rows) rows := hleft ▸ SessionCache.rows_set _ _
  have hheld : left.heldLiveEvents = cache.heldLiveEvents := hleft ▸ rfl
  have hsub : cache.rows.Sublist left.rows := hrows ▸ hkept
  refine ⟨⟨hrows ▸ hfits, h.waiting, h.come, ?_, ?_⟩, hsub, fun e he => .inr he⟩
  · exact Lane.merges_mono hsub (fun _ hin => hin) h.merges
  · exact Lane.held_mono hheld hsub h.held

/-- **One deferred write.** -/
theorem Lane.write (hlog : IsLog log) {write : TailWrite} (h : Lane log cursor (write :: writes) pending cache)
    (now : Nat) : Lane log cursor writes pending (cache.write now write) ∧
      Carries cache (deferredRows (write :: writes) ++ pending) (cache.write now write)
        (deferredRows writes ++ pending) := by
  cases write with
  | live events => exact h.live hlog
  | merge key rows stillWanted =>
      have hrest : Lane log cursor writes pending cache :=
        ⟨h.fits, h.waiting, h.come, fun rows wanted hin => h.merges rows wanted (List.mem_cons_of_mem _ hin), h.held⟩
      have hsame : Carries cache (deferredRows writes ++ pending) cache (deferredRows writes ++ pending) := .refl _ _
      unfold SessionCache.write
      dsimp only
      split
      · exact ⟨hrest, hsame⟩
      · split
        · exact ⟨hrest, hsame⟩
        · cases key with
          | window => exact hrest.merged hlog (h.merges rows stillWanted List.mem_cons_self).meets
          | full =>
              refine ⟨hrest.set_full _, ?_, fun e he => .inr he⟩
              rw [SessionCache.rows_set_full]

/-- **The writes deferred**, one after the other. -/
theorem Lane.released (hlog : IsLog log) (now : Nat) : ∀ {writes : List TailWrite} {cache : SessionCache},
    Lane log cursor writes pending cache →
      Lane log cursor [] pending (writes.foldl (SessionCache.write now) cache) ∧
      Carries cache (deferredRows writes ++ pending) (writes.foldl (SessionCache.write now) cache) pending
  | [], cache, h => ⟨h, .refl _ _⟩
  | write :: writes, cache, h => by
      obtain ⟨hlane, hcarries⟩ := h.write hlog now
      obtain ⟨hlane', hcarries'⟩ := Lane.released hlog now hlane
      exact ⟨hlane', hcarries.trans hcarries'⟩

end Writes

end AgentBeacon.Web
