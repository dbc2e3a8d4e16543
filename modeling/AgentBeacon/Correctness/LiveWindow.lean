import AgentBeacon.Correctness.Batcher
import AgentBeacon.Correctness.LiveLane

/-!
# `Correctness.LiveWindow` — a cached window while the stream is live

The stream, the reads and the list that holds its head all write to the window of a session, each in its own time. From
a window with rows on, whatever the order of their steps: the window stays in the order of the log, what it holds stays
in it, and a row that the stream delivers gets there.
-/

namespace AgentBeacon.Web
open Keyset

/-! ## Reads that are stored -/

theorem lastVisible_of_last {visible : String → Bool} : ∀ {holds : List Event} {e : Event},
    holds.getLast? = some e → visible e.id = true → ∃ anchor, lastVisible visible holds = some anchor ∧
      anchor + 1 = holds.length
  | [], _, h, _ => nomatch h
  | [e'], e, h, hvisible => by
      obtain rfl : e' = e := Option.some.inj h
      exact ⟨0, by simp [lastVisible, hvisible], rfl⟩
  | e' :: e'' :: holds, e, h, hvisible => by
      rw [List.getLast?_cons_cons] at h
      obtain ⟨anchor, hanchor, hlength⟩ := lastVisible_of_last h hvisible
      refine ⟨anchor + 1, ?_, by rw [List.length_cons, ← hlength]⟩
      rw [lastVisible, hanchor]

/-- Rows in front of the anchor are left out, and so are visible ones. -/
theorem trailingFrom_none {visible skip : String → Bool} {anchor : Nat} : ∀ (holds : List Event) (index : Nat)
    (seen : List String), (∀ e, holds.getLast? = some e → visible e.id = true) → index + holds.length ≤ anchor + 1 →
      trailingFrom visible (some anchor) skip index seen holds = []
  | [], _, _, _, _ => rfl
  | [e], index, seen, hlast, _ => by
      unfold trailingFrom
      rw [hlast e rfl]
      simp [trailingFrom]
  | e :: e' :: holds, index, seen, hlast, hlength => by
      have hlt : index < anchor := by
        simp only [List.length_cons] at hlength
        omega
      have hrest : trailingFrom visible (some anchor) skip (index + 1) seen (e' :: holds) = [] := by
        refine trailingFrom_none (e' :: holds) (index + 1) seen (fun o ho => hlast o ?_) ?_
        · rw [List.getLast?_cons_cons]
          exact ho
        · simp only [List.length_cons] at hlength ⊢
          omega
      rw [trailingFrom]
      simp only [hlt, decide_true, Bool.or_true, if_true]
      exact hrest

/-- **A read is stored as it is** if the last of the rows held is known to the cache. -/
theorem appendHeld_of_last (events holds : List Event) (incorporated heldBefore : List String)
    (h : ∀ e, holds.getLast? = some e → e.id ∈ incorporated) :
    appendHeld events holds incorporated heldBefore = events := by
  unfold appendHeld
  dsimp only
  cases hlast : holds.getLast? with
  | none =>
      obtain rfl := List.getLast?_eq_none_iff.mp hlast
      exact List.append_nil _
  | some e =>
      have hvisible : ((events.map Event.id).contains e.id || incorporated.contains e.id) = true := by
        rw [List.contains_iff_mem.mpr (h e hlast), Bool.or_true]
      obtain ⟨anchor, hanchor, hlength⟩ := @lastVisible_of_last
        (fun id => (events.map Event.id).contains id || incorporated.contains id) holds e hlast hvisible
      rw [hanchor, trailingFrom_none holds 0 [] ?_ (by omega), List.append_nil]
      intro o ho
      rw [hlast] at ho
      obtain rfl := Option.some.inj ho
      exact hvisible

/-! ## A session's cache -/

/-- A window whose line is what is deferred and what the batcher has; nothing is deferred behind a head that is not
held. -/
structure Tended (log : List Event) (cursor : Nat) (pending : List Event) (cache : SessionCache) : Prop where
  lane : Lane log cursor cache.deferred pending cache
  free : cache.tailHeld = false → cache.deferred = []

/-- The rows of a session that have been delivered and not written. -/
def lineOf (cache : SessionCache) (pending : List Event) : List Event := deferredRows cache.deferred ++ pending

section Tended

variable {log : List Event} {cursor : Nat} {pending events : List Event} {cache : SessionCache}

/-- **A batch of the batcher** is written or deferred. -/
theorem Tended.appendNew (hlog : IsLog log) (h : Tended log cursor (events ++ pending) cache) :
    Tended log cursor pending (cache.appendNew events) ∧
      Carries cache (lineOf cache (events ++ pending)) (cache.appendNew events)
        (lineOf (cache.appendNew events) pending) := by
  unfold SessionCache.appendNew lineOf
  split
  · rename_i hheld
    have hline : deferredRows (cache.deferred ++ [.live events]) ++ pending =
        deferredRows cache.deferred ++ (events ++ pending) := by simp [deferredRows]
    have hlane := h.lane
    refine ⟨⟨⟨?_, ?_, ?_, ?_, hlane.held⟩, fun hfree => ?_⟩, List.Sublist.refl _, fun e he => .inr ?_⟩
    · show Fits log cache.rows fun e => e ∈ deferredRows (cache.deferred ++ [.live events]) ++ pending ∨ _
      simp only [hline]
      exact hlane.fits
    · show (deferredRows (cache.deferred ++ [.live events]) ++ pending).Sublist log
      rw [hline]
      exact hlane.waiting
    · show ∀ e ∈ deferredRows (cache.deferred ++ [.live events]) ++ pending, _
      rw [hline]
      exact hlane.come
    · intro rows wanted hin
      rcases List.mem_append.mp hin with hin | hin
      · exact hlane.merges rows wanted hin
      · cases List.mem_singleton.mp hin
    · rw [hheld] at hfree
      cases hfree
    · show e ∈ deferredRows (cache.deferred ++ [.live events]) ++ pending
      rw [hline]
      exact he
  · rename_i hheld
    have hfree := h.free (Bool.eq_false_iff.mpr hheld)
    have hlane : Lane log cursor [.live events] pending cache := by
      have hempty := hfree ▸ h.lane
      have hline : deferredRows [.live events] ++ pending = events ++ pending := by simp [deferredRows]
      refine ⟨?_, hline ▸ hempty.waiting, hline ▸ hempty.come, fun rows wanted hin => ?_, hempty.held⟩
      · simp only [hline]
        exact hempty.fits
      · cases List.mem_singleton.mp hin
    obtain ⟨hleft, hcarries⟩ := hlane.live hlog
    obtain ⟨-, -, -, hdeferred⟩ := appendLiveRows_eq h.lane.fits.rows events
    rw [hdeferred, hfree]
    refine ⟨⟨?_, fun _ => hdeferred.trans hfree⟩, hcarries.rows, fun e he => hcarries.waiting e ?_⟩
    · rw [hdeferred, hfree]
      exact hleft
    · simpa [deferredRows] using he

/-- The batches of a flush, one after the other. -/
theorem Tended.batches (hlog : IsLog log) : ∀ {batches : List (List Event)} {cache : SessionCache},
    Tended log cursor (batches.flatten ++ pending) cache →
      Tended log cursor pending (batches.foldl (fun cache events => cache.appendNew events) cache) ∧
      Carries cache (lineOf cache (batches.flatten ++ pending))
        (batches.foldl (fun cache events => cache.appendNew events) cache)
        (lineOf (batches.foldl (fun cache events => cache.appendNew events) cache) pending)
  | [], cache, h => ⟨h, .refl _ _⟩
  | events :: batches, cache, h => by
      rw [List.flatten_cons, List.append_assoc] at h ⊢
      obtain ⟨htended, hcarries⟩ := h.appendNew hlog
      obtain ⟨htended', hcarries'⟩ := Tended.batches hlog htended
      exact ⟨htended', hcarries.trans hcarries'⟩

/-- A write leaves the fence as it is. -/
theorem write_fence (now : Nat) (hrows : cache.rows ≠ []) (write : TailWrite) :
    (cache.write now write).tailHeld = cache.tailHeld ∧ (cache.write now write).deferred = cache.deferred := by
  cases write with
  | live events =>
      obtain ⟨-, -, hheld, hdeferred⟩ := appendLiveRows_eq hrows events
      exact ⟨hheld, hdeferred⟩
  | merge key rows stillWanted =>
      unfold SessionCache.write
      dsimp only
      split
      · exact ⟨rfl, rfl⟩
      · split
        · exact ⟨rfl, rfl⟩
        · exact ⟨rfl, rfl⟩

theorem writes_fence (hlog : IsLog log) (now : Nat) : ∀ {writes : List TailWrite} {cache : SessionCache},
    Lane log cursor writes pending cache →
      (writes.foldl (SessionCache.write now) cache).tailHeld = cache.tailHeld ∧
      (writes.foldl (SessionCache.write now) cache).deferred = cache.deferred
  | [], _, _ => ⟨rfl, rfl⟩
  | write :: writes, cache, h => by
      obtain ⟨hheld, hdeferred⟩ := write_fence now h.fits.rows write
      obtain ⟨hheld', hdeferred'⟩ := writes_fence hlog now (h.write hlog now).1
      exact ⟨hheld'.trans hheld, hdeferred'.trans hdeferred⟩

/-- **The head is released**, and what was deferred is written. -/
theorem Tended.releaseTail (hlog : IsLog log) (h : Tended log cursor pending cache) (now : Nat) :
    Tended log cursor pending (cache.releaseTail now) ∧
      Carries cache (lineOf cache pending) (cache.releaseTail now) (lineOf (cache.releaseTail now) pending) := by
  unfold SessionCache.releaseTail
  split
  · exact ⟨h, .refl _ _⟩
  · have hopen : Lane log cursor cache.deferred pending { cache with tailHeld := false, deferred := [] } :=
      h.lane.congr rfl rfl
    obtain ⟨hlane, hcarries⟩ := hopen.released hlog now
    obtain ⟨-, hdeferred⟩ := writes_fence hlog now hopen
    unfold lineOf
    rw [hdeferred]
    exact ⟨⟨hdeferred.symm ▸ hlane, fun _ => hdeferred⟩, hcarries.rows, hcarries.waiting⟩

/-- A merge that is deferred comes last. -/
theorem Tended.defer (h : Tended log cursor pending cache) (hheld : cache.tailHeld = true) {key : CacheKey}
    {rows : List Event} (stillWanted : Nat → Bool) (hstretch : key = .window → Stretch log cache.rows rows) :
    Tended log cursor pending { cache with deferred := cache.deferred ++ [.merge key rows stillWanted] } ∧
      Carries cache (lineOf cache pending)
        { cache with deferred := cache.deferred ++ [.merge key rows stillWanted] }
        (lineOf { cache with deferred := cache.deferred ++ [.merge key rows stillWanted] } pending) := by
  have hline : deferredRows (cache.deferred ++ [.merge key rows stillWanted]) = deferredRows cache.deferred := by
    simp [deferredRows]
  unfold lineOf
  dsimp only
  rw [hline]
  refine ⟨⟨⟨?_, ?_, ?_, fun rows' wanted' hin => ?_, h.lane.held⟩, fun hfree => ?_⟩, List.Sublist.refl _,
    fun e he => .inr he⟩
  · show Fits log cache.rows fun e => e ∈ deferredRows (cache.deferred ++ [.merge key rows stillWanted]) ++ pending ∨ _
    rw [hline]
    exact h.lane.fits
  · show (deferredRows (cache.deferred ++ [.merge key rows stillWanted]) ++ pending).Sublist log
    rw [hline]
    exact h.lane.waiting
  · show ∀ e ∈ deferredRows (cache.deferred ++ [.merge key rows stillWanted]) ++ pending, _
    rw [hline]
    exact h.lane.come
  · rcases List.mem_append.mp hin with hin | hin
    · exact h.lane.merges rows' wanted' hin
    · obtain ⟨rfl, rfl, -⟩ := TailWrite.merge.inj (List.mem_singleton.mp hin)
      exact hstretch rfl
  · rw [hheld] at hfree
    cases hfree

/-- A merge that is written at once. -/
theorem Tended.merges (hlog : IsLog log) (h : Tended log cursor pending cache) {key : CacheKey} {rows : List Event}
    (hmeets : key = .window → Meets log cache.rows rows) :
    Tended log cursor pending (cache.setQueryData key (mergeAnchored (cache.getQueryData key) rows)) ∧
      Carries cache (lineOf cache pending) (cache.setQueryData key (mergeAnchored (cache.getQueryData key) rows))
        (lineOf (cache.setQueryData key (mergeAnchored (cache.getQueryData key) rows)) pending) := by
  cases key with
  | window =>
      obtain ⟨hlane, hcarries⟩ := h.lane.merged hlog (hmeets rfl)
      exact ⟨⟨hlane, h.free⟩, hcarries⟩
  | full =>
      refine ⟨⟨h.lane.set_full _, h.free⟩, ?_, fun e he => .inr he⟩
      rw [SessionCache.rows_set_full]

/-- **Rows that were read are committed.** -/
theorem Tended.commitRows (hlog : IsLog log) (h : Tended log cursor pending cache) {key : CacheKey} {rows : List Event}
    (hstretch : key = .window → Stretch log cache.rows rows) (now : Nat) (stillWanted : Nat → Bool) :
    Tended log cursor pending (cache.commitRows now key rows stillWanted) ∧
      Carries cache (lineOf cache pending) (cache.commitRows now key rows stillWanted)
        (lineOf (cache.commitRows now key rows stillWanted) pending) := by
  unfold SessionCache.commitRows
  split
  · rename_i hheld
    exact h.defer hheld stillWanted hstretch
  · unfold SessionCache.write
    dsimp only
    split
    · exact ⟨h, .refl _ _⟩
    · split
      · exact ⟨h, .refl _ _⟩
      · exact h.merges hlog fun hkey => (hstretch hkey).meets

/-- **A read is stored.** -/
theorem Tended.store (hlog : IsLog log) (h : Tended log cursor pending cache) {key : CacheKey} {fetched : List Event}
    (hstretch : key = .window → Stretch log cache.rows fetched) (heldBefore : List String) :
    Tended log cursor pending (cache.store key fetched heldBefore) ∧
      Carries cache (lineOf cache pending) (cache.store key fetched heldBefore)
        (lineOf (cache.store key fetched heldBefore) pending) := by
  unfold SessionCache.store SessionCache.reconcileHistory
  have hsame : key = .window →
      appendHeld fetched cache.heldLiveEvents (cache.cachedIds key) heldBefore = fetched := by
    rintro rfl
    exact appendHeld_of_last _ _ _ _ h.lane.held
  split
  · rename_i hheld
    exact h.defer (Bool.and_eq_true_iff.mp hheld).2 (fun _ => true) fun hkey => (hsame hkey).symm ▸ hstretch hkey
  · exact h.merges hlog fun hkey => (hsame hkey).symm ▸ (hstretch hkey).meets

end Tended

/-! ## The client -/

section Client

variable {log : List Event} {cursor : Nat} {session : SessionId} {client : Client}

/-- What a session's cache gets from the batcher's calls. -/
theorem batched_session (left : SSEBatcher × List AppendCall) (session : SessionId) : ∀ client : Client,
    (client.batched left).sessions session = ((left.2.filter fun call => decide (call.1 = session)).map Prod.snd).foldl
      (fun cache events => cache.appendNew events) (client.sessions session) ∧
    (client.batched left).batcher = left.1 := by
  obtain ⟨batcher, calls⟩ := left
  have hcalls : ∀ (calls : List AppendCall) (client : Client),
      (calls.foldl (fun client call => client.modify call.1 (·.appendNew call.2)) client).sessions session =
        ((calls.filter fun call => decide (call.1 = session)).map Prod.snd).foldl
          (fun cache events => cache.appendNew events) (client.sessions session) ∧
      (calls.foldl (fun client call => client.modify call.1 (·.appendNew call.2)) client).batcher = client.batcher := by
    intro calls
    induction calls with
    | nil => exact fun client => ⟨rfl, rfl⟩
    | cons call calls ih =>
        intro client
        rw [List.foldl_cons]
        obtain ⟨hsession, hbatcher⟩ := ih (client.modify call.1 (·.appendNew call.2))
        refine ⟨hsession.trans ?_, hbatcher⟩
        rw [List.filter_cons]
        by_cases hcall : call.1 = session
        · subst hcall
          simp [Client.modify]
        · simp [Client.modify, hcall, Function.update_of_ne (Ne.symm hcall)]
  intro client
  exact hcalls calls { client with batcher }

theorem modify_self (session : SessionId) (f : SessionCache → SessionCache) (client : Client) :
    (client.modify session f).sessions session = f (client.sessions session) := Function.update_self ..

theorem modify_of_ne {session other : SessionId} (h : session ≠ other) (f : SessionCache → SessionCache)
    (client : Client) : (client.modify other f).sessions session = client.sessions session :=
  Function.update_of_ne h ..

/-- **What the batcher gives is written or deferred.** -/
theorem Tended.batched (hlog : IsLog log) (left : SSEBatcher × List AppendCall)
    (h : Tended log cursor (rowsFor session left.2 ++ rowsFor session left.1.pending) (client.sessions session)) :
    Tended log cursor (rowsFor session left.1.pending) ((client.batched left).sessions session) ∧
      Carries (client.sessions session)
        (lineOf (client.sessions session) (rowsFor session left.2 ++ rowsFor session left.1.pending))
        ((client.batched left).sessions session)
        (lineOf ((client.batched left).sessions session) (rowsFor session left.1.pending)) := by
  rw [(batched_session left session client).1]
  have hrows : rowsFor session left.2 =
      ((left.2.filter fun call => decide (call.1 = session)).map Prod.snd).flatten := List.flatMap_def ..
  rw [hrows] at h ⊢
  exact h.batches hlog

end Client

/-! ## Runs -/

/-- The log, how far the stream has come with a session's rows, and the client. -/
structure LiveView where
  log : EventLog
  cursor : Nat
  client : Client

namespace LiveView

variable (view : LiveView) (session : SessionId)

def cache : SessionCache := view.client.sessions session

/-- The rows delivered and not yet written. -/
def waiting : List Event := lineOf (view.cache session) (rowsFor session view.client.batcher.pending)

end LiveView

/-- Rows that `fetchSessionHistory` has read, from a cursor down to the rows cached when it was called. -/
def Fetched (session : SessionId) (view : LiveView) (rows : List Event) : Prop :=
  ∃ (log : EventLog) (cached : List Event) (cursor : Option Int) (front seg : List StoredEvent),
    log.rows <+: view.log.rows ∧ (∀ e ∈ cached, e ∈ (view.cache session).rows) ∧
    Paged session log cursor (cached.map Event.id) front seg ∧ rows = Web.view seg

/-- What is fetched can be merged, now and later. -/
theorem Fetched.stretch {session : SessionId} {view : LiveView} {rows : List Event}
    (hordered : (view.cache session).rows.Sublist (sessionRows session view.log)) (h : Fetched session view rows) :
    Stretch (sessionRows session view.log) (view.cache session).rows rows := by
  obtain ⟨log, cached, cursor, front, seg, hlog, hcached, hpaged, rfl⟩ := h
  obtain ⟨after, hafter⟩ := segment_later hlog hpaged.split
  refine ⟨_, after, hafter, .inr ?_⟩
  rcases hpaged.stop with hfront | ⟨e, he, hid⟩
  · left
    rw [hfront]
    rfl
  · obtain ⟨o, ho, heq⟩ := List.mem_map.mp hid
    have hin : e ∈ sessionRows session view.log := by
      rw [hafter]
      exact List.mem_append_left _ (List.mem_append_right _ he)
    have hsame := eq_of_id (hordered.subset (hcached o ho)) hin heq
    exact .inr ⟨o, hcached o ho, hsame ▸ he⟩

/-- What the client may do besides: it is not given a new row of the session, and what is written to the session's
window was fetched, or is an older page that none of the cached rows stands before. -/
def Allowed (session : SessionId) (view : LiveView) : ClientStep → Prop
  | .deliver event => event.row.sessionId = some session →
      event.id ∈ view.client.batcher.idsFor view.client.getExisting (some session)
  | .commit other .window rows _ => other = session → Fetched session view rows
  | .store other .window fetched _ => other = session → Fetched session view fetched
  | .prepend other rows => other = session → Meets (sessionRows session view.log) (view.cache session).rows rows
  | _ => True

/-- A step, with the row of the session that the stream delivers in it. -/
inductive LiveStep (session : SessionId) : LiveView → List Event → LiveView → Prop
  | logged {view : LiveView} (log : EventLog) (h : view.log.rows <+: log.rows) :
      LiveStep session view [] { view with log }
  /-- A stream that is connected anew begins further on. -/
  | connected {view : LiveView} (cursor : Nat) (h : view.cursor ≤ cursor) :
      LiveStep session view [] { view with cursor }
  /-- The stream delivers the next row of the session. -/
  | delivered {view : LiveView} (event : Event) (hrow : event ∈ sessionRows session view.log)
      (hkey : event.row.sessionId = some session) (hafter : view.cursor < position event)
      (hnext : ∀ e ∈ sessionRows session view.log, view.cursor < position e → position event ≤ position e) :
      LiveStep session view [event]
        { view with client := view.client.step (.deliver event), cursor := position event }
  | acts {view : LiveView} (act : ClientStep) (h : Allowed session view act) :
      LiveStep session view [] { view with client := view.client.step act }

/-- Some steps, with the rows of the session that the stream delivers in them. -/
inductive LiveRun (session : SessionId) (view : LiveView) : List Event → LiveView → Prop
  | refl : LiveRun session view [] view
  | step {rows more : List Event} {a b : LiveView} (hrun : LiveRun session view rows a)
      (hstep : LiveStep session a more b) : LiveRun session view (rows ++ more) b

/-- A window with rows, while the stream is live. -/
structure Warm (session : SessionId) (view : LiveView) : Prop where
  tended : Tended (sessionRows session view.log) view.cursor (rowsFor session view.client.batcher.pending)
    (view.cache session)
  /-- What the batcher has seen of the session is in the window, or behind the stream. -/
  seen : ∀ ids, view.client.batcher.seen (some session) = some ids → ∀ id ∈ ids,
    ∃ e ∈ sessionRows session view.log, e.id = id ∧ (e ∈ (view.cache session).rows ∨ position e ≤ view.cursor)
  batcher : view.client.batcher.Sound Client.sizeCap

section Steps

variable {session : SessionId} {a b : LiveView}

/-- The line stays in order when the log grows and the stream goes on. -/
theorem Lane.grown {log log' : List Event} {cursor cursor' : Nat} {writes : List TailWrite} {pending : List Event}
    {cache : SessionCache} (hlog' : IsLog log') (h : Lane log cursor writes pending cache) (hlog : log <+: log')
    (hcursor : cursor ≤ cursor') : Lane log' cursor' writes pending cache := by
  refine ⟨⟨h.fits.rows, h.fits.ordered.trans hlog.sublist, fun e he hdue o ho hlt => ?_⟩, h.waiting.trans hlog.sublist,
    fun e he => (h.come e he).trans hcursor, fun rows wanted hin => (h.merges rows wanted hin).grown hlog fun _ => id,
    h.held⟩
  have holog := h.fits.ordered.subset ho
  by_cases hin : e ∈ log
  · exact h.fits.behind e hin (hdue.imp_right (Nat.lt_of_le_of_lt hcursor)) o ho hlt
  · obtain ⟨more, rfl⟩ := hlog
    have hmore : e ∈ more := (List.mem_append.mp he).resolve_left hin
    have := (List.pairwise_append.mp hlog'.ascending).2.2 o holog e hmore
    omega

theorem Tended.grown {log log' : List Event} {cursor cursor' : Nat} {pending : List Event} {cache : SessionCache}
    (hlog' : IsLog log') (h : Tended log cursor pending cache) (hlog : log <+: log') (hcursor : cursor ≤ cursor') :
    Tended log' cursor' pending cache :=
  ⟨h.lane.grown hlog' hlog hcursor, h.free⟩

/-- The ids a row of the session is compared with. -/
theorem Warm.idsFor (h : Warm session a) : ∀ id ∈ a.client.batcher.idsFor a.client.getExisting (some session),
    ∃ e ∈ sessionRows session a.log, e.id = id ∧ (e ∈ (a.cache session).rows ∨ position e ≤ a.cursor) := by
  intro id hid
  unfold SSEBatcher.idsFor at hid
  split at hid
  · rename_i ids hseen
    exact h.seen ids hseen id hid
  · obtain ⟨e, he, rfl⟩ := List.mem_map.mp hid
    exact ⟨e, h.tended.lane.fits.ordered.subset he, rfl, .inl he⟩

/-- **The next row takes its place** at the end of the line, unless the window has it. -/
theorem Tended.arrive {log : List Event} {cursor : Nat} {pending : List Event} {cache : SessionCache} {e : Event}
    (hlog : IsLog log) (h : Tended log cursor pending cache) (he : e ∈ log) (hafter : cursor < position e) :
    Tended log (position e) (pending ++ [e]) cache := by
  have hline : deferredRows cache.deferred ++ (pending ++ [e]) = (deferredRows cache.deferred ++ pending) ++ [e] := by
    rw [List.append_assoc]
  refine ⟨⟨⟨h.lane.fits.rows, h.lane.fits.ordered, fun e' he' hdue o ho hlt => ?_⟩, ?_, ?_, h.lane.merges, h.lane.held⟩,
    h.free⟩
  · refine h.lane.fits.behind e' he' ?_ o ho hlt
    rw [hline] at hdue
    rcases hdue with hin | hlater
    · rcases List.mem_append.mp hin with hin | hin
      · exact .inl hin
      · obtain rfl := List.mem_singleton.mp hin
        exact .inr hafter
    · exact .inr (Nat.lt_trans hafter hlater)
  · rw [hline]
    refine sublist_of_ascending (List.pairwise_append.mpr ⟨hlog.ascending.sublist h.lane.waiting,
      List.pairwise_singleton .., ?_⟩) hlog.ascending ?_
    · intro v hv e' he'
      obtain rfl := List.mem_singleton.mp he'
      exact Nat.lt_of_le_of_lt (h.lane.come v hv) hafter
    · intro v hv
      rcases List.mem_append.mp hv with hv | hv
      · exact h.lane.waiting.subset hv
      · exact List.mem_singleton.mp hv ▸ he
  · rw [hline]
    intro v hv
    rcases List.mem_append.mp hv with hv | hv
    · exact Nat.le_of_lt (Nat.lt_of_le_of_lt (h.lane.come v hv) hafter)
    · exact Nat.le_of_eq (congrArg position (List.mem_singleton.mp hv))

/-- A step of the client, as it is seen from the session: a change of its cache by itself. -/
theorem Warm.changed (h : Warm session a) (client : Client) {f : SessionCache → SessionCache}
    (hbatcher : client.batcher = a.client.batcher) (hcache : client.sessions session = f (a.cache session))
    (htended : Tended (sessionRows session a.log) a.cursor (rowsFor session a.client.batcher.pending)
      (f (a.cache session)))
    (hcarries : Carries (a.cache session) (a.waiting session) (f (a.cache session))
      (lineOf (f (a.cache session)) (rowsFor session a.client.batcher.pending))) :
    Warm session { a with client } ∧
      Carries (a.cache session) (a.waiting session) (LiveView.cache { a with client } session)
        (LiveView.waiting { a with client } session) := by
  have hwaiting : LiveView.waiting { a with client } session =
      lineOf (f (a.cache session)) (rowsFor session a.client.batcher.pending) := by
    show lineOf (client.sessions session) (rowsFor session client.batcher.pending) = _
    rw [hbatcher, hcache]
  refine ⟨⟨?_, fun ids hids id hid => ?_, ?_⟩, ?_⟩
  · show Tended _ _ (rowsFor session client.batcher.pending) (client.sessions session)
    rw [hbatcher, hcache]
    exact htended
  · obtain ⟨e, he, hid, hin⟩ := h.seen ids (hbatcher ▸ hids) id hid
    refine ⟨e, he, hid, hin.imp_left fun hin => ?_⟩
    show e ∈ (client.sessions session).rows
    rw [hcache]
    exact hcarries.rows.subset hin
  · show client.batcher.Sound _
    rw [hbatcher]
    exact h.batcher
  · rw [hwaiting]
    show Carries _ _ (client.sessions session) _
    rw [hcache]
    exact hcarries

/-- **A step of the batcher**, seen from the session. -/
theorem Warm.batched {left : SSEBatcher × List AppendCall} {more : SessionId → List Event} {cursor : Nat}
    (hkeeps : SSEBatcher.Keeps Client.sizeCap a.client.batcher left more)
    (htended : Tended (sessionRows session a.log) cursor (rowsFor session a.client.batcher.pending ++ more session)
      (a.cache session))
    (hseen : ∀ ids, left.1.seen (some session) = some ids → ∀ id ∈ ids, ∃ e ∈ sessionRows session a.log, e.id = id ∧
      (e ∈ (a.cache session).rows ∨ position e ≤ cursor)) :
    Warm session { a with client := { a.client.batched left with now := a.client.now + 1 }, cursor } ∧
      Carries (a.cache session) (lineOf (a.cache session) (rowsFor session a.client.batcher.pending ++ more session))
        ((a.client.batched left).sessions session)
        (lineOf ((a.client.batched left).sessions session)
          (rowsFor session (a.client.batched left).batcher.pending)) := by
  have hlog := isLog_sessionRows session a.log
  have hbatcher := (batched_session left session a.client).2
  rw [← hkeeps.order session] at htended ⊢
  obtain ⟨hleft, hcarries⟩ := htended.batched hlog left
  rw [hbatcher]
  refine ⟨⟨?_, fun ids hids id hid => ?_, ?_⟩, hcarries⟩
  · show Tended _ _ (rowsFor session (a.client.batched left).batcher.pending) ((a.client.batched left).sessions session)
    rw [hbatcher]
    exact hleft
  · obtain ⟨e, he, heq, hin⟩ := hseen ids (by rw [← hbatcher]; exact hids) id hid
    exact ⟨e, he, heq, hin.imp_left fun hin => hcarries.rows.subset hin⟩
  · show (a.client.batched left).batcher.Sound _
    rw [hbatcher]
    exact hkeeps.sound

/-- A step of the batcher that is given no new row of the session. -/
theorem Warm.flushes (h : Warm session a) {left : SSEBatcher × List AppendCall} {more : SessionId → List Event}
    (hkeeps : SSEBatcher.Keeps Client.sizeCap a.client.batcher left more) (hmore : more session = [])
    (hseen : ∀ ids, left.1.seen (some session) = some ids → ∀ id ∈ ids, ∃ e ∈ sessionRows session a.log, e.id = id ∧
      (e ∈ (a.cache session).rows ∨ position e ≤ a.cursor)) :
    Warm session { a with client := { a.client.batched left with now := a.client.now + 1 } } ∧
      Carries (a.cache session) (a.waiting session)
        ((a.client.batched left).sessions session)
        (lineOf ((a.client.batched left).sessions session)
          (rowsFor session (a.client.batched left).batcher.pending)) := by
  have htended : Tended (sessionRows session a.log) a.cursor
      (rowsFor session a.client.batcher.pending ++ more session) (a.cache session) := by
    rw [hmore, List.append_nil]
    exact h.tended
  obtain ⟨hwarm, hcarries⟩ := Warm.batched hkeeps htended hseen
  rw [hmore, List.append_nil] at hcarries
  exact ⟨hwarm, hcarries⟩

/-- **The next row of the session is delivered.** -/
theorem Warm.delivered (h : Warm session a) {event : Event} (hrow : event ∈ sessionRows session a.log)
    (hkey : event.row.sessionId = some session) (hafter : a.cursor < position event) :
    Warm session { a with client := a.client.step (.deliver event), cursor := position event } ∧
      Carries (a.cache session) (a.waiting session) ((a.client.step (.deliver event)).sessions session)
        (lineOf ((a.client.step (.deliver event)).sessions session)
          (rowsFor session (a.client.step (.deliver event)).batcher.pending)) ∧
      (event ∈ ((a.client.step (.deliver event)).sessions session).rows ∨
        event ∈ lineOf ((a.client.step (.deliver event)).sessions session)
          (rowsFor session (a.client.step (.deliver event)).batcher.pending)) := by
  have hlog := isLog_sessionRows session a.log
  generalize hout : a.client.batcher.enqueue Client.sizeCap a.client.getExisting event = out
  obtain ⟨isNew, left⟩ := out
  obtain ⟨hnew, hseen, hkeeps⟩ := h.batcher.enqueue (by decide) _ event isNew left hout
  have hstep : a.client.step (.deliver event) = { a.client.batched left with now := a.client.now + 1 } := by
    unfold Client.step Client.perform
    dsimp only
    rw [hout]
  rw [hkey] at hnew hseen
  have hknown : ∀ ids, left.1.seen (some session) = some ids → ∀ id ∈ ids, ∃ e ∈ sessionRows session a.log,
      e.id = id ∧ (e ∈ (a.cache session).rows ∨ position e ≤ position event) := by
    intro ids hids id hid
    rw [hseen, Function.update_self] at hids
    obtain rfl := Option.some.inj hids
    rcases List.mem_append.mp hid with hid | hid
    · obtain ⟨e, he, heq, hin⟩ := h.idsFor id hid
      exact ⟨e, he, heq, hin.imp_right fun hle => hle.trans (Nat.le_of_lt hafter)⟩
    · have hid : id = event.id := by
        split at hid
        · exact List.mem_singleton.mp hid
        · cases hid
      exact ⟨event, hrow, hid.symm, .inr (Nat.le_refl _)⟩
  rw [hstep]
  cases isNew with
  | true =>
      have hmore : SSEBatcher.newRow true event session = [event] := if_pos ⟨rfl, hkey⟩
      have htended := h.tended.arrive hlog hrow hafter
      rw [← hmore] at htended
      obtain ⟨hwarm, hcarries⟩ := Warm.batched hkeeps htended hknown
      rw [hmore] at hcarries
      have hline : lineOf (a.cache session) (rowsFor session a.client.batcher.pending ++ [event]) =
          a.waiting session ++ [event] := (List.append_assoc ..).symm
      rw [hline] at hcarries
      refine ⟨hwarm, ⟨hcarries.rows, fun e he => hcarries.waiting e (List.mem_append_left _ he)⟩, ?_⟩
      exact hcarries.waiting event (List.mem_append_right _ (List.mem_singleton.mpr rfl))
  | false =>
      have hmore : SSEBatcher.newRow false event session = [] := if_neg fun hand => Bool.false_ne_true hand.1
      have htended := h.tended.grown hlog List.prefix_rfl (Nat.le_of_lt hafter)
      have htended' : Tended (sessionRows session a.log) (position event)
          (rowsFor session a.client.batcher.pending ++ SSEBatcher.newRow false event session) (a.cache session) := by
        rw [hmore, List.append_nil]
        exact htended
      obtain ⟨hwarm, hcarries⟩ := Warm.batched hkeeps htended' hknown
      rw [hmore, List.append_nil] at hcarries
      refine ⟨hwarm, hcarries, .inl (hcarries.rows.subset ?_)⟩
      -- the batcher knows the row, and the stream had not come to it: so it is cached
      have hid : event.id ∈ a.client.batcher.idsFor a.client.getExisting (some session) := by
        rw [← List.contains_iff_mem]
        simpa using hnew.symm
      obtain ⟨e, he, heq, hin⟩ := h.idsFor _ hid
      obtain rfl := hlog.eq_of_id he hrow heq
      exact hin.resolve_right (Nat.not_le.mpr hafter)

/-- **What the client does besides** keeps the window. -/
theorem Warm.acts (h : Warm session a) {act : ClientStep} (hallowed : Allowed session a act) :
    Warm session { a with client := a.client.step act } ∧
      Carries (a.cache session) (a.waiting session) ((a.client.step act).sessions session)
        (lineOf ((a.client.step act).sessions session) (rowsFor session (a.client.step act).batcher.pending)) := by
  have hlog := isLog_sessionRows session a.log
  -- a step on another session's cache, and one on this session's
  have hmodify : ∀ (other : SessionId) (f : SessionCache → SessionCache), (other = session →
      Tended (sessionRows session a.log) a.cursor (rowsFor session a.client.batcher.pending) (f (a.cache session)) ∧
      Carries (a.cache session) (a.waiting session) (f (a.cache session))
        (lineOf (f (a.cache session)) (rowsFor session a.client.batcher.pending))) →
      Warm session { a with client := { a.client.modify other f with now := a.client.now + 1 } } ∧
      Carries (a.cache session) (a.waiting session) ((a.client.modify other f).sessions session)
        (lineOf ((a.client.modify other f).sessions session) (rowsFor session a.client.batcher.pending)) := by
    intro other f hf
    by_cases hother : other = session
    · subst hother
      obtain ⟨htended, hcarries⟩ := hf rfl
      exact h.changed { a.client.modify other f with now := a.client.now + 1 } rfl (modify_self other f a.client)
        htended hcarries
    · exact h.changed (f := id) { a.client.modify other f with now := a.client.now + 1 } rfl
        (modify_of_ne (Ne.symm hother) f a.client) h.tended (.refl _ _)
  cases act with
  | deliver event =>
      generalize hout : a.client.batcher.enqueue Client.sizeCap a.client.getExisting event = out
      obtain ⟨isNew, left⟩ := out
      obtain ⟨hnew, hseen, hkeeps⟩ := h.batcher.enqueue (by decide) _ event isNew left hout
      have hstep : a.client.step (.deliver event) = { a.client.batched left with now := a.client.now + 1 } := by
        unfold Client.step Client.perform
        dsimp only
        rw [hout]
      rw [hstep]
      by_cases hkey : event.row.sessionId = some session
      · have hid := List.contains_iff_mem.mpr (hallowed hkey)
        rw [hkey] at hnew hseen
        rw [hid] at hnew
        obtain rfl : isNew = false := hnew
        refine h.flushes hkeeps (if_neg fun hand => Bool.false_ne_true hand.1) fun ids hids => ?_
        rw [hseen, Function.update_self] at hids
        obtain rfl := Option.some.inj hids
        simpa using h.idsFor
      · refine h.flushes hkeeps (if_neg fun hand => hkey hand.2) fun ids hids => ?_
        rw [hseen, Function.update_of_ne (Ne.symm hkey)] at hids
        exact h.seen ids hids
  | frame =>
      obtain ⟨hkeeps, hseen⟩ := h.batcher.frame (by decide)
      exact h.flushes hkeeps rfl fun ids hids => h.seen ids (hseen ▸ hids)
  | timeout =>
      obtain ⟨hkeeps, hseen⟩ := h.batcher.timeout (by decide)
      exact h.flushes hkeeps rfl fun ids hids => h.seen ids (hseen ▸ hids)
  | flush =>
      obtain ⟨hkeeps, hseen⟩ := h.batcher.flush (by decide)
      exact h.flushes hkeeps rfl fun ids hids => h.seen ids (hseen ▸ hids)
  | dispose =>
      obtain ⟨hkeeps, -⟩ := h.batcher.flush (by decide)
      have hzero := (SSEBatcher.flush_flushed h.batcher.keys h.batcher.count).count
      have hdisposed : SSEBatcher.Keeps Client.sizeCap a.client.batcher a.client.batcher.dispose fun _ => [] :=
        ⟨⟨hkeeps.sound.keys, hkeeps.sound.count, hkeeps.sound.below, fun hne => absurd hzero hne⟩, hkeeps.order⟩
      refine h.flushes hdisposed rfl fun ids hids => ?_
      cases hids
  | hold other => exact hmodify other _ fun _ => ⟨⟨h.tended.lane.congr rfl rfl, fun hfree => Bool.noConfusion hfree⟩,
      List.Sublist.refl _, fun e he => .inr he⟩
  | release other => exact hmodify other _ fun _ => h.tended.releaseTail hlog _
  | releaseAll =>
      obtain ⟨htended, hcarries⟩ := h.tended.releaseTail hlog a.client.now
      exact h.changed (f := SessionCache.releaseTail a.client.now) (a.client.step .releaseAll) rfl rfl htended hcarries
  | commit other key rows stillWanted =>
      refine hmodify other _ fun hother => h.tended.commitRows hlog ?_ _ _
      rintro rfl
      exact Fetched.stretch h.tended.lane.fits.ordered (hallowed hother)
  | store other key fetched heldBefore =>
      refine hmodify other _ fun hother => h.tended.store hlog ?_ _
      rintro rfl
      exact Fetched.stretch h.tended.lane.fits.ordered (hallowed hother)
  | prepend other rows => exact hmodify other _ fun hother => h.tended.merges hlog fun _ => hallowed hother

/-- **Each step** keeps the window and its line in order and loses nothing; the row it delivers is in one of them. -/
theorem Warm.step (h : Warm session a) {rows : List Event} (hstep : LiveStep session a rows b) :
    Warm session b ∧ Carries (a.cache session) (a.waiting session) (b.cache session) (b.waiting session) ∧
      ∀ e ∈ rows, e ∈ (b.cache session).rows ∨ e ∈ b.waiting session := by
  cases hstep with
  | logged log hgrown =>
      have hrows := sessionRows_grown session hgrown
      refine ⟨⟨h.tended.grown (isLog_sessionRows _ _) hrows (Nat.le_refl _), fun ids hids id hid => ?_, h.batcher⟩,
        .refl _ _, fun e he => nomatch he⟩
      obtain ⟨e, he, hin⟩ := h.seen ids hids id hid
      exact ⟨e, hrows.subset he, hin⟩
  | connected cursor hcursor =>
      refine ⟨⟨h.tended.grown (isLog_sessionRows _ _) List.prefix_rfl hcursor, fun ids hids id hid => ?_, h.batcher⟩,
        .refl _ _, fun e he => nomatch he⟩
      obtain ⟨e, he, heq, hin⟩ := h.seen ids hids id hid
      exact ⟨e, he, heq, hin.imp_right fun hle => hle.trans hcursor⟩
  | delivered event hrow hkey hafter hnext =>
      obtain ⟨hwarm, hcarries, hgot⟩ := h.delivered hrow hkey hafter
      refine ⟨hwarm, hcarries, fun e he => ?_⟩
      obtain rfl := List.mem_singleton.mp he
      exact hgot
  | acts act hallowed =>
      obtain ⟨hwarm, hcarries⟩ := h.acts hallowed
      exact ⟨hwarm, hcarries, fun e he => nomatch he⟩

/-- **Every run** from such a window. -/
theorem Warm.run (h : Warm session a) {rows : List Event} (hrun : LiveRun session a rows b) :
    Warm session b ∧ Carries (a.cache session) (a.waiting session) (b.cache session) (b.waiting session) ∧
      ∀ e ∈ rows, e ∈ (b.cache session).rows ∨ e ∈ b.waiting session := by
  induction hrun with
  | refl => exact ⟨h, .refl _ _, fun e he => nomatch he⟩
  | step _ hstep ih =>
      obtain ⟨hwarm, hcarries, hgot⟩ := ih
      obtain ⟨hwarm', hcarries', hgot'⟩ := hwarm.step hstep
      refine ⟨hwarm', hcarries.trans hcarries', fun e he => ?_⟩
      rcases List.mem_append.mp he with he | he
      · exact (hgot e he).elim (fun hin => .inl (hcarries'.rows.subset hin)) (hcarries'.waiting e)
      · exact hgot' e he

/-! ## Nothing waits for ever -/

theorem appendNew_tailHeld (events : List Event) (cache : SessionCache) :
    (cache.appendNew events).tailHeld = cache.tailHeld := by
  have hhold : (cache.holdLiveEvents events).tailHeld = cache.tailHeld := by
    unfold SessionCache.holdLiveEvents
    dsimp only
    split
    · rfl
    · rfl
  have happend : ∀ (key : CacheKey) (cache : SessionCache), (cache.appendTo events key).tailHeld = cache.tailHeld := by
    intro key cache
    unfold SessionCache.appendTo
    split
    · rfl
    · rfl
  unfold SessionCache.appendNew
  split
  · rfl
  · unfold SessionCache.appendLiveRows
    dsimp only
    rw [happend, happend]
    split
    · exact hhold
    · rfl

theorem batches_tailHeld : ∀ (batches : List (List Event)) (cache : SessionCache),
    (batches.foldl (fun cache events => cache.appendNew events) cache).tailHeld = cache.tailHeld
  | [], _ => rfl
  | events :: batches, cache => (batches_tailHeld batches _).trans (appendNew_tailHeld events cache)

/-- **A frame writes what waits**, unless the head is held. -/
theorem Warm.frame (h : Warm session a) (hfree : (a.cache session).tailHeld = false) :
    ∀ e ∈ a.waiting session, e ∈ ((a.client.step .frame).sessions session).rows := by
  obtain ⟨hwarm, hcarries⟩ := h.acts (show Allowed session a .frame from trivial)
  have hsession := (batched_session a.client.batcher.frame session a.client).1
  have hbatcher := (batched_session a.client.batcher.frame session a.client).2
  have hheld : ((a.client.step .frame).sessions session).tailHeld = false := by
    show ((a.client.batched a.client.batcher.frame).sessions session).tailHeld = false
    rw [hsession, batches_tailHeld]
    exact hfree
  have hnone : rowsFor session a.client.batcher.frame.1.pending = [] := by
    unfold SSEBatcher.frame
    split
    · have hflushed : SSEBatcher.Flushed { a.client.batcher with raf := false } _ :=
        SSEBatcher.flush_flushed h.batcher.keys h.batcher.count
      exact hflushed.pending session
    · rename_i hraf
      have hzero : a.client.batcher.pendingCount = 0 := by
        by_contra hne
        exact hraf (h.batcher.asked hne).1
      rw [List.eq_nil_iff_forall_not_mem]
      intro e he
      have hempty := List.eq_nil_of_length_eq_zero (h.batcher.count.symm.trans hzero)
      have hin := rowsFor_subset e he
      rw [hempty] at hin
      cases hin
  intro e he
  refine (hcarries.waiting e he).resolve_right fun hin => ?_
  have hdeferred := hwarm.tended.free hheld
  unfold lineOf at hin
  rw [show ((a.client.step .frame).sessions session).deferred = [] from hdeferred] at hin
  have hpending : rowsFor session (a.client.step .frame).batcher.pending = [] := by
    show rowsFor session (a.client.batched a.client.batcher.frame).batcher.pending = []
    rw [hbatcher, hnone]
  rw [hpending] at hin
  cases hin

/-- **A live window is kept.** From a session's window with rows on, whatever the order in which the log grows, rows of
any session are delivered, frames and timers come, streams are lost and connected anew, the list holds its head and
releases it, and reads are committed, stored or prepended: the window's rows are rows of the log, in its order and
without a duplicate; none that was cached is lost; every row of the session that the stream delivers is in the window
or waits; as long as one waits, the head is held or a flush is on its way; and a frame, once the head is free, puts them
all into the window. -/
theorem live_window_kept (h : Warm session a) {rows : List Event} (hrun : LiveRun session a rows b) :
    (b.cache session).rows.Sublist (sessionRows session b.log) ∧
    ((b.cache session).rows.map Event.id).Nodup ∧
    (a.cache session).rows.Sublist (b.cache session).rows ∧
    (∀ e ∈ a.waiting session ++ rows, e ∈ (b.cache session).rows ∨ e ∈ b.waiting session) ∧
    (b.waiting session ≠ [] → (b.cache session).tailHeld = true ∨
      b.client.batcher.raf = true ∧ b.client.batcher.timer = true) ∧
    ((b.cache session).tailHeld = false →
      ∀ e ∈ a.waiting session ++ rows, e ∈ ((b.client.step .frame).sessions session).rows) := by
  obtain ⟨hwarm, hcarries, hgot⟩ := h.run hrun
  have hlog := isLog_sessionRows session b.log
  have hordered := hwarm.tended.lane.fits.ordered
  have hall : ∀ e ∈ a.waiting session ++ rows, e ∈ (b.cache session).rows ∨ e ∈ b.waiting session := by
    intro e he
    exact (List.mem_append.mp he).elim (hcarries.waiting e) (hgot e)
  refine ⟨hordered, hlog.nodup.sublist (hordered.map _), hcarries.rows, hall, fun hwaits => ?_, fun hfree e he => ?_⟩
  · cases hheld : (b.cache session).tailHeld with
    | true => exact .inl rfl
    | false =>
        right
        refine hwarm.batcher.asked fun hzero => hwaits ?_
        have hempty := List.eq_nil_of_length_eq_zero (hwarm.batcher.count.symm.trans hzero)
        unfold LiveView.waiting lineOf
        rw [hwarm.tended.free hheld, List.eq_nil_iff_forall_not_mem]
        intro e he
        have hin := rowsFor_subset e he
        rw [hempty] at hin
        cases hin
  · rcases hall e he with hin | hin
    · exact (hwarm.acts (show Allowed session b .frame from trivial)).2.rows.subset hin
    · exact hwarm.frame hfree e hin

end Steps

/-! A log of two rows; the window has the first one, and the stream delivers the second. -/

def streamedLog : EventLog where
  rows := [1, 2].map fun id => ⟨id, "x", some "s", .platform, some .null, none, 0⟩
  ascending := by decide
  keys := by decide

def beforeSecond : LiveView where
  log := streamedLog
  cursor := 1
  client :=
    { batcher := .fresh
      sessions := fun _ =>
        { query := fun _ => some (some [streamedRow 1])
          tailHeld := false
          deferred := []
          heldLive := none
          releases := 0 }
      now := 0 }

theorem sessionRows_streamedLog : sessionRows "s" streamedLog = [streamedRow 1, streamedRow 2] := rfl

theorem beforeSecond_warm : Warm "s" beforeSecond := by
  refine ⟨⟨⟨⟨List.cons_ne_nil _ _, ?_, ?_⟩, List.nil_sublist _, fun e he => (nomatch he),
    fun _ _ hin => (nomatch hin), fun e he => (nomatch he)⟩, fun _ => rfl⟩, fun ids hids => (nomatch hids),
    .fresh (by decide)⟩
  · rw [show beforeSecond.log = streamedLog from rfl, sessionRows_streamedLog]
    exact .cons_cons _ (List.nil_sublist _)
  · intro e he _ o ho hlt
    rw [show beforeSecond.log = streamedLog from rfl, sessionRows_streamedLog] at he
    obtain rfl : o = streamedRow 1 := List.mem_singleton.mp ho
    rcases List.mem_cons.mp he with rfl | he
    · exact List.mem_cons_self
    · obtain rfl := List.mem_singleton.mp he
      exact absurd hlt (by decide)

theorem live_window_kept_second :
    streamedRow 2 ∈ (((beforeSecond.client.step (.deliver (streamedRow 2))).step .frame).sessions "s").rows := by
  have hrun : LiveRun "s" beforeSecond ([] ++ [streamedRow 2]) _ := .step .refl (.delivered (streamedRow 2) (by
    rw [show beforeSecond.log = streamedLog from rfl, sessionRows_streamedLog]
    exact List.mem_cons_of_mem _ List.mem_cons_self) rfl (by decide) fun e he hlt => by
      rw [show beforeSecond.log = streamedLog from rfl, sessionRows_streamedLog] at he
      rcases List.mem_cons.mp he with rfl | he
      · exact absurd hlt (by decide)
      · obtain rfl := List.mem_singleton.mp he
        exact Nat.le_refl _)
  exact (live_window_kept beforeSecond_warm hrun).2.2.2.2.2 rfl _ (List.mem_append_right _ List.mem_cons_self)

end AgentBeacon.Web
