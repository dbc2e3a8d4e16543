import AgentBeacon.Web.Sse
import Mathlib.Tactic.Common

/-!
# `Correctness.Sse` — one source, and never none for good without a word

Whatever happens to a connection, in whatever order: at most one source is open. While the connection is not closed,
there is a source that is not closed, or a timer is set that opens the next one. Once it is closed, nothing is open,
no timer is set, and nothing is called any more.
-/

namespace AgentBeacon.Web

/-- Every `onPermanentFallback` is followed by `onDisconnected` at once. -/
inductive Answered : List Callback → Prop
  | nil : Answered []
  | call {calls : List Callback} {callback : Callback} (h : Answered calls) (hother : callback ≠ .permanentFallback) :
      Answered (calls ++ [callback])
  | fallBack {calls : List Callback} (h : Answered calls) : Answered (calls ++ [.permanentFallback] ++ [.disconnected])

/-- What holds of a connection between two of its steps. -/
structure Connection.Sound (c : Connection) : Prop where
  current : ∀ i state, c.sources[i]? = some state → state ≠ .closed → c.source = some i
  closed : c.closed = true → c.timers = [] ∧ ∀ state ∈ c.sources, state = .closed
  waits : c.closed = false → c.inBackoff = true → c.source = none ∧ backoffThreshold ≤ c.consecutiveErrors ∧
    ∃ timer, c.timers = [timer] ∧ timer.kind = .backoff ∧ timer.delay = c.delay ∧ c.backoffTimer = some timer.id
  live : c.closed = false → c.inBackoff = false →
    (∃ i state, c.source = some i ∧ c.sources[i]? = some state ∧ state ≠ .closed) ∧
    (c.timers = [] ∨ ∃ timer, c.timers = [timer] ∧ timer.kind = .disconnect ∧ c.disconnectTimer = some timer.id)
  errors : c.closed = false → c.consecutiveErrors < maxConsecutiveErrors
  fatal : c.fatal = true → c.closed = true
  answered : Answered c.calls

namespace Connection.Sound

variable {c c' : Connection}

/-- A connection that is closed. -/
theorem of_closed (hclosed : c.closed = true) (htimers : c.timers = [])
    (hsources : ∀ state ∈ c.sources, state = .closed) (hcalls : Answered c.calls) : c.Sound := by
  have hopen : ¬c.closed = false := by
    rw [hclosed]
    exact Bool.noConfusion
  exact ⟨fun i state hi hlive => absurd (hsources state (List.mem_of_getElem? hi)) hlive, fun _ => ⟨htimers, hsources⟩,
    fun h => absurd h hopen, fun h => absurd h hopen, fun h => absurd h hopen, fun _ => hclosed, hcalls⟩

/-- The current source is the only one to close. -/
theorem closedSources (h : c.Sound) : ∀ state ∈ c.closedSources, state = .closed := by
  intro state hstate
  unfold Connection.closedSources at hstate
  by_contra hlive
  split at hstate
  · rename_i i hsource
    obtain ⟨j, hj⟩ := List.mem_iff_getElem?.mp hstate
    rw [List.getElem?_set] at hj
    split at hj
    · split at hj
      · exact hlive (Option.some.inj hj).symm
      · cases hj
    · rename_i hne
      have hcurrent := h.current j state hj hlive
      rw [hsource] at hcurrent
      exact hne (Option.some.inj hcurrent)
  · rename_i hsource
    obtain ⟨j, hj⟩ := List.mem_iff_getElem?.mp hstate
    have hcurrent := h.current j state hj hlive
    rw [hsource] at hcurrent
    cases hcurrent

/-- With a source that is open, the connection is neither closed nor in backoff. -/
theorem of_source (h : c.Sound) {i : Nat} {state : ReadyState} (hi : c.sources[i]? = some state)
    (hlive : state ≠ .closed) : c.closed = false ∧ c.inBackoff = false ∧ c.source = some i := by
  have hsource := h.current i state hi hlive
  have hopen : c.closed = false := by
    cases hclosed : c.closed with
    | false => rfl
    | true => exact absurd ((h.closed hclosed).2 state (List.mem_of_getElem? hi)) hlive
  refine ⟨hopen, ?_, hsource⟩
  cases hback : c.inBackoff with
  | false => rfl
  | true =>
      have hnone := (h.waits hopen hback).1
      rw [hsource] at hnone
      cases hnone

/-- No timer is left when the one for a disconnect is cleared. -/
theorem cleared (h : c.Sound) (hopen : c.closed = false) (hback : c.inBackoff = false) :
    (c.timers.filter fun timer => decide (some timer.id ≠ c.disconnectTimer)) = [] := by
  rcases (h.live hopen hback).2 with hnone | ⟨timer, hone, -, hid⟩
  · rw [hnone]
    rfl
  · rw [hone, hid]
    simp

/-- A connection whose source is open, whatever state it goes to. -/
theorem of_open (h : c.Sound) {i : Nat} (hsource : c.source = some i) (hopen : c.closed = false)
    (hback : c.inBackoff = false) (hsame : c'.source = c.source ∧ c'.closed = c.closed ∧ c'.inBackoff = c.inBackoff ∧
      c'.fatal = c.fatal) (state : ReadyState) (hsources : c'.sources = c.sources.set i state ∨ c'.sources = c.sources)
    (hlive : state ≠ .closed)
    (htimers : c'.timers = [] ∨ ∃ timer, c'.timers = [timer] ∧ timer.kind = .disconnect ∧
      c'.disconnectTimer = some timer.id)
    (herrors : c'.consecutiveErrors < maxConsecutiveErrors) (hcalls : Answered c'.calls) : c'.Sound := by
  obtain ⟨hs, hc, hb, hf⟩ := hsame
  have hnot : ∀ {p : Prop}, c'.closed = true → p := by
    intro p hclosed
    rw [hc, hopen] at hclosed
    cases hclosed
  obtain ⟨j, old, hj, hold, holdlive⟩ := (h.live hopen hback).1
  obtain rfl := Option.some.inj (hsource.symm.trans hj)
  refine ⟨fun k s hk hslive => ?_, fun hclosed => hnot hclosed, fun _ hback' => ?_, fun _ _ => ⟨?_, htimers⟩,
    fun _ => herrors, fun hfatal => ?_, hcalls⟩
  · rw [hs]
    rcases hsources with hset | hkeep
    · rw [hset, List.getElem?_set] at hk
      split at hk
      · rename_i heq
        rw [← heq, hsource]
      · exact h.current k s hk hslive
    · rw [hkeep] at hk
      exact h.current k s hk hslive
  · rw [hb, hback] at hback'
    cases hback'
  · rcases hsources with hset | hkeep
    · refine ⟨i, state, hs.trans hsource, ?_, hlive⟩
      rw [hset, List.getElem?_set, if_pos rfl, if_pos (List.getElem?_eq_some_iff.mp hold).1]
    · exact ⟨i, old, hs.trans hsource, hkeep ▸ hold, holdlive⟩
  · rw [hf] at hfatal
    have hclosed := h.fatal hfatal
    rw [hopen] at hclosed
    cases hclosed

/-- **The next source is made.** -/
theorem createSource (hopen : c.closed = false) (hsources : ∀ state ∈ c.sources, state = .closed)
    (htimers : c.timers = []) (herrors : c.consecutiveErrors < maxConsecutiveErrors) (hfatal : c.fatal = false)
    (hcalls : Answered c.calls) : c.createSource.Sound := by
  unfold Connection.createSource
  rw [if_neg (by rw [hopen]; exact Bool.noConfusion)]
  refine ⟨fun k s hk hlive => ?_, fun hclosed => ?_, fun _ hback => (nomatch hback), fun _ _ => ⟨?_, .inl htimers⟩,
    fun _ => herrors, fun hf => ?_, hcalls⟩
  · have hk : (c.sources ++ [ReadyState.connecting])[k]? = some s := hk
    rw [List.getElem?_append] at hk
    split at hk
    · exact absurd (hsources s (List.mem_of_getElem? hk)) hlive
    · have hlt := (List.getElem?_eq_some_iff.mp hk).1
      simp only [List.length_singleton] at hlt
      exact congrArg some (by omega)
  · rw [show c.closed = true from hclosed] at hopen
    cases hopen
  · exact ⟨c.sources.length, .connecting, rfl, by simp, ReadyState.noConfusion⟩
  · rw [show c.fatal = true from hf] at hfatal
    cases hfatal

theorem fatal_false (h : c.Sound) (hopen : c.closed = false) : c.fatal = false := by
  cases hf : c.fatal with
  | false => rfl
  | true =>
      rw [h.fatal hf] at hopen
      cases hopen

theorem connect : Connection.connect.Sound :=
  createSource rfl (fun _ h => nomatch h) rfl (by decide) rfl .nil

/-- What is called, and what is called at last, when a connection stops. -/
theorem fallBack (hclosed : c.closed = true) (htimers : c.timers = [])
    (hsources : ∀ state ∈ c.sources, state = .closed) (hcalls : Answered c.calls) : c.fallBack.Sound :=
  of_closed hclosed htimers hsources (.fallBack hcalls)

/-! ## The steps -/

/-- A step of an open source that changes neither the sources nor the timers. -/
theorem of_message (h : c.Sound) {i : Nat} {state : ReadyState} (hi : c.sources[i]? = some state)
    (hlive : state ≠ .closed) {calls : List Callback} (hcalls : Answered calls) :
    Connection.Sound { c with consecutiveErrors := 0, calls } := by
  obtain ⟨hopen, hback, hsource⟩ := h.of_source hi hlive
  exact h.of_open hsource hopen hback ⟨rfl, rfl, rfl, rfl⟩ .opened (.inr rfl) ReadyState.noConfusion
    (h.live hopen hback).2 (show (0 : Nat) < maxConsecutiveErrors by decide) hcalls

theorem onopen (h : c.Sound) {i : Nat} (hi : c.sources[i]? = some .connecting) :
    (Connection.onopen { c with sources := c.sources.set i .opened }).Sound := by
  obtain ⟨hopen, hback, hsource⟩ := h.of_source hi ReadyState.noConfusion
  unfold Connection.onopen
  rw [if_neg (by rw [h.fatal_false hopen]; exact Bool.noConfusion)]
  exact h.of_open hsource hopen hback ⟨rfl, rfl, rfl, rfl⟩ _ (.inl rfl) ReadyState.noConfusion
    (.inl (h.cleared hopen hback)) (show (0 : Nat) < maxConsecutiveErrors by decide)
    (h.answered.call Callback.noConfusion)

theorem onmessage (h : c.Sound) {i : Nat} (hi : c.sources[i]? = some .opened) (event : Option StreamedEvent) :
    (c.onmessage event).Sound := by
  obtain ⟨hopen, hback, -⟩ := h.of_source hi ReadyState.noConfusion
  unfold Connection.onmessage
  dsimp only
  cases event with
  | none => exact h.of_message hi ReadyState.noConfusion h.answered
  | some event =>
      dsimp only
      split
      · refine of_closed rfl ?_ h.closedSources ((h.answered.call Callback.noConfusion).call Callback.noConfusion)
        exact h.cleared hopen hback
      · exact h.of_message hi ReadyState.noConfusion (h.answered.call Callback.noConfusion)

theorem onposition (h : c.Sound) {i : Nat} (hi : c.sources[i]? = some .opened) (parsed : Bool) :
    (c.onposition parsed).Sound := by
  unfold Connection.onposition
  dsimp only
  split
  · exact h.of_message hi ReadyState.noConfusion (h.answered.call Callback.noConfusion)
  · exact h.of_message hi ReadyState.noConfusion h.answered

theorem onephemeral (h : c.Sound) {i : Nat} (hi : c.sources[i]? = some .opened) (parsed : Bool) :
    (c.onephemeral parsed).Sound := by
  unfold Connection.onephemeral
  dsimp only
  split
  · exact h.of_message hi ReadyState.noConfusion (h.answered.call Callback.noConfusion)
  · exact h.of_message hi ReadyState.noConfusion h.answered

theorem onprotocolError (h : c.Sound) {i : Nat} (hi : c.sources[i]? = some .opened) (parsed : Bool) :
    (c.onprotocolError parsed).Sound := by
  obtain ⟨hopen, hback, -⟩ := h.of_source hi ReadyState.noConfusion
  unfold Connection.onprotocolError
  dsimp only
  cases parsed with
  | true => exact fallBack rfl (h.cleared hopen hback) h.closedSources (h.answered.call Callback.noConfusion)
  | false => exact fallBack rfl (h.cleared hopen hback) h.closedSources h.answered

/-- The connection whose source has failed and is trying again. -/
theorem retried (h : c.Sound) {i : Nat} {state : ReadyState} (hi : c.sources[i]? = some state)
    (hlive : state ≠ .closed) :
    Connection.Sound { c with sources := c.sources.set i .connecting } := by
  obtain ⟨hopen, hback, hsource⟩ := h.of_source hi hlive
  exact h.of_open hsource hopen hback ⟨rfl, rfl, rfl, rfl⟩ _ (.inl rfl) ReadyState.noConfusion (h.live hopen hback).2
    (h.errors hopen) h.answered

/-- A transient error, whose source tries again. -/
theorem onerror_transient (h : c.Sound) {i : Nat} (hi : c.sources[i]? = some .connecting) : c.onerror.Sound := by
  obtain ⟨hopen, hback, hsource⟩ := h.of_source hi ReadyState.noConfusion
  have hnotclosed : c.sourceClosed = false := by
    unfold Connection.sourceClosed
    rw [hsource]
    dsimp only
    rw [hi]
    rfl
  unfold Connection.onerror
  rw [if_neg (by rw [hopen]; exact Bool.noConfusion), if_neg (by rw [hnotclosed]; exact Bool.noConfusion)]
  dsimp only
  -- the connection once the timer for the disconnect is set
  generalize hd : (if c.connected = true then
    (({ c with connected := false } : Connection).clearTimeout c.disconnectTimer).setDisconnectTimer else c) = d
  have hparts : d.sources = c.sources ∧ d.source = c.source ∧ d.closed = c.closed ∧ d.inBackoff = c.inBackoff ∧
      d.fatal = c.fatal ∧ d.calls = c.calls ∧ d.consecutiveErrors = c.consecutiveErrors ∧
      (d.timers = [] ∨ ∃ timer, d.timers = [timer] ∧ timer.kind = .disconnect ∧ d.disconnectTimer = some timer.id) := by
    rw [← hd]
    split
    · refine ⟨rfl, rfl, rfl, rfl, rfl, rfl, rfl, .inr ⟨⟨c.nextTimer, .disconnect, 2000⟩, ?_, rfl, rfl⟩⟩
      show (c.timers.filter fun timer => decide (some timer.id ≠ c.disconnectTimer)) ++ _ = _
      rw [h.cleared hopen hback, List.nil_append]
      rfl
    · exact ⟨rfl, rfl, rfl, rfl, rfl, rfl, rfl, (h.live hopen hback).2⟩
  obtain ⟨hsources, hcurrent, hclosed, hbackoff, hfatal, hcalls, herrors, htimers⟩ := hparts
  have hcleared : (d.timers.filter fun timer => decide (some timer.id ≠ d.disconnectTimer)) = [] := by
    rcases htimers with hnone | ⟨timer, hone, -, hid⟩
    · rw [hnone]
      rfl
    · rw [hone, hid]
      simp
  have hall : ∀ state ∈ d.closedSources, state = .closed := by
    unfold Connection.closedSources
    rw [hsources, hcurrent]
    exact h.closedSources
  split
  · exact fallBack rfl hcleared hall (hcalls ▸ h.answered)
  · rename_i hfew
    split
    · rename_i hmany
      refine ⟨fun k s hk hlive => absurd (hall s (List.mem_of_getElem? hk)) hlive, fun hc => ?_,
        fun _ _ => ⟨rfl, hmany, ⟨d.nextTimer, .backoff, _⟩, ?_, rfl, rfl, rfl⟩, fun _ hb => (nomatch hb),
        fun _ => Nat.lt_of_not_le hfew, fun hf => ?_, ?_⟩
      · rw [show d.closed = true from hc] at hclosed
        rw [hopen] at hclosed
        cases hclosed
      · show (d.timers.filter fun timer => decide (some timer.id ≠ d.disconnectTimer)) ++ _ = _
        rw [hcleared, List.nil_append]
        rfl
      · rw [show d.fatal = true from hf, h.fatal_false hopen] at hfatal
        cases hfatal
      · have hanswered : Answered d.calls := hcalls ▸ h.answered
        exact (hanswered.call Callback.noConfusion).call Callback.noConfusion
    · refine h.of_open hsource hopen hback ⟨hcurrent, hclosed, hbackoff, hfatal⟩ .opened (.inr hsources)
        ReadyState.noConfusion htimers (Nat.lt_of_not_le hfew) (hcalls ▸ h.answered)

theorem onerror (h : c.Sound) {i : Nat} {state : ReadyState} (hi : c.sources[i]? = some state)
    (hlive : state ≠ .closed) (ended : Bool) :
    (Connection.onerror { c with sources := c.sources.set i (if ended then .closed else .connecting) }).Sound := by
  obtain ⟨hopen, hback, hsource⟩ := h.of_source hi hlive
  have hlt := (List.getElem?_eq_some_iff.mp hi).1
  cases ended with
  | false =>
      refine onerror_transient (h.retried hi hlive) (i := i) ?_
      show (c.sources.set i .connecting)[i]? = _
      rw [List.getElem?_set, if_pos rfl, if_pos hlt]
  | true =>
      have hended : Connection.sourceClosed { c with sources := c.sources.set i .closed } = true := by
        unfold Connection.sourceClosed
        rw [show Connection.source { c with sources := c.sources.set i .closed } = some i from hsource]
        dsimp only
        rw [List.getElem?_set, if_pos rfl, if_pos hlt]
        rfl
      unfold Connection.onerror
      rw [if_pos rfl, if_neg (by rw [show Connection.closed _ = false from hopen]; exact Bool.noConfusion),
        if_pos hended]
      refine fallBack rfl (h.cleared hopen hback) (fun s hs => ?_) h.answered
      have hs : s ∈ Connection.closedSources { c with sources := c.sources.set i .closed } := hs
      unfold Connection.closedSources at hs
      rw [show Connection.source { c with sources := c.sources.set i .closed } = some i from hsource] at hs
      dsimp only at hs
      rw [List.set_set] at hs
      refine h.closedSources s ?_
      unfold Connection.closedSources
      rw [hsource]
      exact hs

/-- Between two sources all of them are closed. -/
theorem all_closed (h : c.Sound) (hnone : c.source = none) : ∀ state ∈ c.sources, state = .closed := by
  intro state hstate
  by_contra hlive
  obtain ⟨i, hi⟩ := List.mem_iff_getElem?.mp hstate
  have hcurrent := h.current i state hi hlive
  rw [hnone] at hcurrent
  cases hcurrent

theorem timerFires (h : c.Sound) {timer : Timer} (htimer : timer ∈ c.timers) : (c.timerFires timer).Sound := by
  have hopen : c.closed = false := by
    cases hclosed : c.closed with
    | false => rfl
    | true =>
        rw [(h.closed hclosed).1] at htimer
        cases htimer
  unfold Connection.timerFires
  dsimp only
  cases hback : c.inBackoff with
  | true =>
      obtain ⟨hnone, -, t, hone, hkind, -, -⟩ := h.waits hopen hback
      obtain rfl := List.mem_singleton.mp (hone ▸ htimer)
      rw [hkind]
      refine createSource hopen (h.all_closed hnone) ?_ (h.errors hopen) (h.fatal_false hopen) h.answered
      show c.timers.filter _ = []
      rw [hone]
      simp
  | false =>
      obtain ⟨⟨i, state, hsource, hi, hlive⟩, htimers⟩ := h.live hopen hback
      rcases htimers with hnone | ⟨t, hone, hkind, -⟩
      · rw [hnone] at htimer
        cases htimer
      · obtain rfl := List.mem_singleton.mp (hone ▸ htimer)
        rw [hkind]
        refine h.of_open hsource hopen hback ⟨rfl, rfl, hback.symm, rfl⟩ .opened (.inr rfl) ReadyState.noConfusion
          (.inl ?_) (h.errors hopen) (h.answered.call Callback.noConfusion)
        show c.timers.filter _ = []
        rw [hone]
        simp

theorem handleVisibility (h : c.Sound) (visible : Bool) : (c.handleVisibility visible).Sound := by
  unfold Connection.handleVisibility
  split
  · rename_i hresumes
    obtain ⟨hshown, hopen⟩ := Bool.and_eq_true_iff.mp hresumes
    have hopen : c.closed = false := by simpa using hopen
    obtain ⟨hnone, -, t, hone, -, -, hid⟩ := h.waits hopen (Bool.and_eq_true_iff.mp hshown).2
    refine createSource hopen (h.all_closed hnone) ?_ (h.errors hopen) (h.fatal_false hopen) h.answered
    show c.timers.filter _ = []
    rw [hone, hid]
    simp
  · exact h

/-- Both timers are cleared. -/
theorem cleared_both (h : c.Sound) : ((c.timers.filter fun timer => decide (some timer.id ≠ c.disconnectTimer)).filter
    fun timer => decide (some timer.id ≠ c.backoffTimer)) = [] := by
  cases hclosed : c.closed with
  | true =>
      rw [(h.closed hclosed).1]
      rfl
  | false =>
      cases hback : c.inBackoff with
      | true =>
          obtain ⟨-, -, t, hone, -, -, hid⟩ := h.waits hclosed hback
          rw [hone, hid, List.filter_comm]
          simp
      | false =>
          rw [h.cleared hclosed hback]
          rfl

theorem close (h : c.Sound) : c.close.Sound := of_closed rfl h.cleared_both h.closedSources h.answered

theorem reconnect (h : c.Sound) : c.reconnect.Sound :=
  createSource rfl h.closedSources h.cleared_both (show (0 : Nat) < maxConsecutiveErrors by decide) rfl h.answered

/-- **Every step** keeps what holds. -/
theorem step (h : c.Sound) {input : SseInput} (hstep : SseStep c input c') : c'.Sound := by
  cases hstep with
  | onopen hi => exact h.onopen hi
  | onmessage event hi => exact h.onmessage hi event
  | position parsed hi => exact h.onposition hi parsed
  | protocolError parsed hi => exact h.onprotocolError hi parsed
  | ephemeral parsed hi => exact h.onephemeral hi parsed
  | onerror ended hi hlive => exact h.onerror hi hlive ended
  | timerFires htimer => exact h.timerFires htimer
  | visibilitychange visible => exact h.handleVisibility visible
  | close => exact h.close
  | reconnect => exact h.reconnect

end Connection.Sound

theorem SseRun.sound {inputs : List SseInput} {c : Connection} (hrun : SseRun inputs c) : c.Sound := by
  induction hrun with
  | connect => exact .connect
  | step _ hstep ih => exact ih.step hstep

/-- **A connection has one source, and is given up only with a word.** Whatever happens to a connection, in whatever
order: at most one of the sources ever made is open. As long as the connection is not closed, either its source is not
closed, or one timer is set that makes the next one, after at most half a minute and twice as long for each error in a
row, of which there are fewer than eight. Once it is closed, all sources are closed and no timer is set, and no step but
`reconnect` opens or calls anything. Every `onPermanentFallback` is directly followed by `onDisconnected`. -/
theorem sse_connection_kept {inputs : List SseInput} {c : Connection} (hrun : SseRun inputs c) :
    (∀ (i j : Nat) (a b : ReadyState), c.sources[i]? = some a → a ≠ .closed → c.sources[j]? = some b → b ≠ .closed →
      i = j) ∧
    (c.closed = false → c.consecutiveErrors < maxConsecutiveErrors ∧
      ((∃ (i : Nat) (state : ReadyState), c.sources[i]? = some state ∧ state ≠ .closed) ∨
        ∃ timer, c.timers = [timer] ∧ timer.kind = .backoff ∧ timer.delay ≤ maxBackoffMs ∧
          timer.delay = min (2 ^ (c.consecutiveErrors - 2) * 1000) maxBackoffMs)) ∧
    (c.closed = true → c.timers = [] ∧ (∀ state ∈ c.sources, state = .closed) ∧
      ∀ input c', SseStep c input c' → input ≠ .reconnect →
        c'.closed = true ∧ c'.calls = c.calls ∧ ∀ state ∈ c'.sources, state = .closed) ∧
    Answered c.calls := by
  have h := hrun.sound
  refine ⟨fun i j a b hi ha hj hb => ?_, fun hopen => ⟨h.errors hopen, ?_⟩, fun hclosed => ?_, h.answered⟩
  · exact Option.some.inj ((h.current i a hi ha).symm.trans (h.current j b hj hb))
  · cases hback : c.inBackoff with
    | true =>
        obtain ⟨-, hmany, timer, hone, hkind, hdelay, -⟩ := h.waits hopen hback
        have hexp : c.consecutiveErrors - backoffThreshold + 1 = c.consecutiveErrors - 2 := by
          unfold backoffThreshold at hmany ⊢
          omega
        refine .inr ⟨timer, hone, hkind, hdelay ▸ Nat.min_le_right .., ?_⟩
        rw [hdelay, Connection.delay, hexp]
    | false =>
        obtain ⟨i, state, -, hi, hlive⟩ := (h.live hopen hback).1
        exact .inl ⟨i, state, hi, hlive⟩
  · obtain ⟨htimers, hsources⟩ := h.closed hclosed
    -- no source is left to fire an event
    have hdead : ∀ {i : Nat} {state : ReadyState}, c.sources[i]? = some state → state = .closed :=
      fun hi => hsources _ (List.mem_of_getElem? hi)
    refine ⟨htimers, hsources, fun input c' hstep hinput => ?_⟩
    have hsound := h.step hstep
    cases hstep with
    | onopen hi => cases hdead hi
    | onmessage event hi => cases hdead hi
    | position parsed hi => cases hdead hi
    | protocolError parsed hi => cases hdead hi
    | ephemeral parsed hi => cases hdead hi
    | onerror ended hi hlive => exact absurd (hdead hi) hlive
    | timerFires htimer =>
        rw [htimers] at htimer
        cases htimer
    | visibilitychange visible =>
        have hsame : c.handleVisibility visible = c := by
          unfold Connection.handleVisibility
          rw [hclosed]
          simp
        rw [hsame]
        exact ⟨hclosed, rfl, hsources⟩
    | close => exact ⟨rfl, rfl, h.close.closed rfl |>.2⟩
    | reconnect => exact absurd rfl hinput

/-- A source that fails, and a caller that closes the connection. -/
theorem sse_connection_kept_close : ∃ c, SseRun [.onerror 0 false, .close] c ∧ c.timers = [] ∧
    ∀ state ∈ c.sources, state = .closed := by
  have hrun : SseRun ([.onerror 0 false] ++ [.close]) _ :=
    .step (.step .connect (@SseStep.onerror _ 0 .connecting false rfl ReadyState.noConfusion)) .close
  obtain ⟨htimers, hsources, -⟩ := (sse_connection_kept hrun).2.2.1 rfl
  exact ⟨_, hrun, htimers, hsources⟩

end AgentBeacon.Web
