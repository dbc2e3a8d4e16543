import AgentBeacon.Correctness.HistoryPages

/-!
# `Correctness.Splice` — a splice of the history

What a splice has read when it commits is one of three things (`Reads`), and each joins the cache, now and whenever
it is written. So the list that is left keeps what was cached and has no gap from the oldest row of the cached range
up to the position of the stream.
-/

namespace AgentBeacon.Web
open Keyset

/-! ## The splice -/

/-- A cache that is as it should be: its rows are rows of the log, in their order; where there are rows there
is a query; and a list that holds its head has rows, for it is held when rows are put in front. -/
structure Sound (session : SessionId) (world : World) : Prop where
  ordered : world.rows.Sublist (sessionRows session world.log)
  built : world.rows ≠ [] → world.built = true
  held : world.tailHeld = true → world.rows ≠ []

/-- What goes on around a read. -/
structure Surroundings (session : SessionId) (w : Nat → World) : Prop where
  sound : ∀ n, Sound session (w n)
  grows : ∀ n, Grows (w n) (w (n + 1))

/-- A gap-free range of the log at or below `P`, and rows above it. -/
structure CachedAs (session : SessionId) (P : Nat) (world : World) (range live : List Event) : Prop where
  rows : world.rows = range ++ live
  gapfree : range <:+: sessionRows session world.log
  below : ∀ e ∈ range, position e ≤ P
  above : ∀ e ∈ live, P < position e

/-- The text of `history_before`. -/
def historyText (P : Nat) : Option String := (historyBefore (some P)).map toString

/-- The cursor it stands for. -/
def historyCursor (P : Nat) : Option Int := (historyBefore (some P)).map Nat.cast

theorem resolves_history {limit : Int} (h : 1 ≤ limit ∧ limit ≤ eventsMaxPage) (P : Nat) :
    Resolves (historyText P) limit (historyCursor P) := by
  unfold historyText historyCursor historyBefore
  by_cases hP : P < maxRowId
  · have hsome : ((some P).bind fun id => if id < maxRowId then some (id + 1) else none) = some (P + 1) := if_pos hP
    rw [hsome]
    exact resolves_some h ⟨Nat.succ_pos P, hP⟩
  · have hnone : ((some P).bind fun id => if id < maxRowId then some (id + 1) else none) = none := if_neg hP
    rw [hnone]
    exact resolves_none h

/-- **Below `history_before` stand the rows up to `P`.** -/
theorem mem_history {session : SessionId} {log : EventLog} {P : Nat} {e : Event} :
    e ∈ view (log.windowBefore (.session session) (historyCursor P)) ↔
      e ∈ sessionRows session log ∧ position e ≤ P := by
  have hview : ∀ {rows : List StoredEvent}, e ∈ view rows ↔ e.row.stored ∈ rows ∧ e.id = toString (position e) := by
    intro rows
    constructor
    · intro h
      exact ⟨(mem_view h).2, (mem_view h).1⟩
    · rintro ⟨h, hid⟩
      refine List.mem_map.mpr ⟨e.row, mem_decoded.mpr h, ?_⟩
      cases e
      exact congrArg (fun id => Event.mk id _) hid.symm
  rw [hview, sessionRows, hview]
  by_cases hP : P < maxRowId
  · have hcursor : historyCursor P = some ((P + 1 : Nat) : Int) := by
      unfold historyCursor historyBefore
      rw [Option.bind_some, if_pos hP]
      rfl
    rw [hcursor]
    show e.row.stored ∈ List.filter _ _ ∧ _ ↔ _
    rw [List.mem_filter, decide_eq_true_eq]
    have hid : e.row.stored.id = position e := rfl
    rw [hid]
    constructor
    · rintro ⟨⟨h, hlt⟩, htext⟩
      exact ⟨⟨h, htext⟩, by omega⟩
    · rintro ⟨⟨h, htext⟩, hle⟩
      exact ⟨⟨h, by omega⟩, htext⟩
  · have hcursor : historyCursor P = none := by
      unfold historyCursor historyBefore
      rw [Option.bind_some, if_neg hP]
      rfl
    rw [hcursor]
    constructor
    · rintro ⟨h, htext⟩
      have hkey : position e ≤ maxRowId := (EventLog.of_keys (show e.row.stored ∈ log.of _ from h)).2
      exact ⟨⟨h, htext⟩, by omega⟩
    · rintro ⟨⟨h, htext⟩, -⟩
      exact ⟨h, htext⟩

section Splice

variable {w : Nat → World} {session : SessionId} {limit : Int} {fuel start newest P : Nat}

/-- What a splice has read when it commits. -/
inductive Reads (session : SessionId) (limit : Int) (w : Nat → World) (start newest P now : Nat)
    (commit : Commit) : Prop
  /-- From `history_before` down to the rows it began with. -/
  | established {front seg : List StoredEvent} (hstart : (w start).rows ≠ []) (hpage : commit.page = none)
      (hrows : commit.rows = view seg)
      (hread : Paged session (w (start + 1)).log (historyCursor P) (w start).cachedIds front seg)
  /-- From the newest end down to the rows that came in the meantime. -/
  | joined {front seg : List StoredEvent} (hstart : (w start).rows = []) (hpage : commit.page = none)
      (hrows : commit.rows = view seg) (hnow : start + 4 ≤ now)
      (hread : Paged session (w (start + 3)).log none (w (start + 2)).cachedIds front seg)
  /-- The newest page, and no rows that it could join. -/
  | cold {front seg : List StoredEvent} {page : PageV1 Event} (hstart : (w start).rows = [])
      (hnow : (w now).rows = []) (hle : start + 2 ≤ now) (hpage : commit.page = some page)
      (hrows : commit.rows = page.items) (hread : IsPage session (w newest).log limit none front seg page)

/-- **What the splice commits.** It cannot fail, and it comes to its commit. -/
theorem splice_reads (start newest P : Nat) (henv : Surroundings session w)
    (hlimit : 1 ≤ limit ∧ limit ≤ eventsMaxPage) :
    (∃ fuel, spliceSessionHistory w session limit fuel start newest (historyText P) ≠ none) ∧
    ∀ fuel out, spliceSessionHistory w session limit fuel start newest (historyText P) = some out →
      ∃ now commit, out = .ok (concluded w start commit now) ∧ start + 2 ≤ now ∧
        (wanted w start now = true → Reads session limit w start newest P now commit) := by
  unfold spliceSessionHistory
  by_cases hrows : (w start).rows ≠ []
  · simp only [if_pos hrows]
    have hloop := fun fuel => fetchLoop_reads session (w start).cachedIds fuel start henv.grows
      (resolves_history hlimit P) []
    constructor
    · have hends := (hloop _).1 (Nat.lt_succ_self _)
      exact ⟨_, fun hnone => hends (Option.map_eq_none_iff.mp hnone)⟩
    · intro fuel out hout
      obtain ⟨read, hread, rfl⟩ := Option.map_eq_some_iff.mp hout
      obtain ⟨later, front, seg, rfl, hle, hpaged⟩ := (hloop fuel).2 read hread
      exact ⟨later, _, rfl, hle, fun _ => .established hrows rfl (List.append_nil _) hpaged⟩
  · simp only [if_neg hrows]
    have hstart : (w start).rows = [] := not_not.mp hrows
    obtain ⟨page, front, back, hread, hpage⟩ :=
      readPage_eq session (w newest).log (resolves_none hlimit)
    rw [hread]
    dsimp only
    by_cases hwanted : (!wanted w start (start + 2)) = true
    · simp only [if_pos hwanted]
      have hnot : wanted w start (start + 2) = false := by simpa using hwanted
      refine ⟨⟨0, fun h => (nomatch h)⟩, fun fuel out hout => ?_⟩
      refine ⟨start + 2, ⟨none, []⟩, ?_, Nat.le_refl _, fun h => absurd (hnot.symm.trans h) Bool.false_ne_true⟩
      rw [concluded, hnot]
      exact (Option.some.inj hout).symm
    · simp only [if_neg hwanted]
      have hstill : wanted w start (start + 2) = true := by simpa using hwanted
      by_cases hjoin : (w (start + 2)).rows ≠ []
      · simp only [if_pos hjoin]
        have hloop := fun fuel => fetchLoop_reads session (w (start + 2)).cachedIds fuel (start + 2) henv.grows
          (resolves_none hlimit) []
        constructor
        · have hends := (hloop _).1 (Nat.lt_succ_self _)
          exact ⟨_, fun hnone => hends (Option.map_eq_none_iff.mp hnone)⟩
        · intro fuel out hout
          obtain ⟨read, hread, rfl⟩ := Option.map_eq_some_iff.mp hout
          obtain ⟨later, front', seg, rfl, hle, hpaged⟩ := (hloop fuel).2 read hread
          exact ⟨later, _, rfl, by omega, fun _ => .joined hstart rfl (List.append_nil _) (by omega) hpaged⟩
      · simp only [if_neg hjoin]
        refine ⟨⟨0, fun h => (nomatch h)⟩, fun fuel out hout => ?_⟩
        refine ⟨start + 2, ⟨some page, page.items⟩, ?_, Nat.le_refl _, fun _ => ?_⟩
        · rw [concluded, hstill]
          exact (Option.some.inj hout).symm
        · exact .cold hstart (not_not.mp hjoin) (Nat.le_refl _) rfl rfl hpage

/-- A cached row that was read is one of the rows read, as long as the log only grows. -/
theorem shared_row (henv : Surroundings session w) {i j : Nat} {rows : List Event} {e : Event}
    (hij : i ≤ j) (he : e ∈ rows) (hrows : ∃ before after, sessionRows session (w j).log = before ++ rows ++ after)
    (hid : e.id ∈ (w i).cachedIds) : e ∈ (w i).rows := by
  obtain ⟨e', he', heq⟩ := List.mem_map.mp hid
  obtain ⟨before, after, hsplit⟩ := hrows
  have hmem : e ∈ sessionRows session (w j).log := by
    rw [hsplit]
    exact List.mem_append_left _ (List.mem_append_right _ he)
  have hmem' : e' ∈ sessionRows session (w j).log :=
    (sessionRows_grown session (Grows.of_le henv.grows hij).log).subset ((henv.sound i).ordered.subset he')
  exact eq_of_id hmem' hmem heq ▸ he'

/-- **What a splice has read joins the cache**, when it is committed and at any later moment it is written. -/
theorem Reads.joins (henv : Surroundings session w) (hnewest : newest ≤ start + 1) {now later : Nat}
    {commit : Commit} (h : Reads session limit w start newest P now commit) (hnow : start + 2 ≤ now)
    (hwrites : WritesAt w now later) : Joins session (w later) commit.rows ∧ now ≤ later := by
  have hlater : now ≤ later := by
    unfold WritesAt at hwrites
    split at hwrites
    · exact Nat.le_of_lt hwrites.1
    · exact Nat.le_of_eq hwrites.symm
  refine ⟨?_, hlater⟩
  -- a stretch that was read with `stopAt` the rows of an earlier moment
  have hpaged : ∀ {i k : Nat} {cursor : Option Int} {front seg : List StoredEvent}, i ≤ later → k ≤ later →
      Paged session (w k).log cursor (w i).cachedIds front seg → Joins session (w later) (view seg) := by
    intro i k cursor front seg hi hk hread
    obtain ⟨after, hafter⟩ := segment_later (Grows.of_le henv.grows hk).log hread.split
    refine ⟨view front, after, hafter, .inr ?_⟩
    rcases hread.stop with rfl | ⟨e, he, hid⟩
    · right
      intro e _ he
      cases he
    · left
      have hrow := shared_row henv hi he ⟨_, _, hafter⟩ hid
      exact ⟨e, (Grows.of_le henv.grows hi).rows.subset hrow, he⟩
  cases h with
  | established hstart hpage hrows hread =>
      rw [hrows]
      exact hpaged (by omega) (by omega) hread
  | joined hstart hpage hrows hnow' hread =>
      rw [hrows]
      exact hpaged (by omega) (by omega) hread
  | @cold front seg page hstart hempty hle hpage hrows hread =>
      -- nothing is cached, so nothing holds the head and the write is made at once
      have hsame : later = now := by
        unfold WritesAt at hwrites
        split at hwrites
        · rename_i hheld
          exact absurd hempty ((henv.sound now).held hheld)
        · exact hwrites
      subst hsame
      obtain ⟨after, hafter⟩ := segment_later (Grows.of_le henv.grows (show newest ≤ later by omega)).log hread.split
      rw [hrows, hread.items]
      refine ⟨view front, after, hafter, .inr (.inr fun e he => ?_)⟩
      rw [hempty] at he
      cases he

/-- The list a splice leaves. -/
theorem rows_left {commit : Commit} {later : Nat} (hwanted : wanted w start later = true) :
    (left w start commit later).rows =
      if (w later).built then Anchored.merge Event.id (w later).rows commit.rows else (w later).rows := by
  have hwrite : ∀ {world : World}, world.rows = (w later).rows → world.built = (w later).built →
      (writeRows w start commit.rows later world).rows =
        if (w later).built then Anchored.merge Event.id (w later).rows commit.rows else (w later).rows := by
    intro world hrows hbuilt
    rw [writeRows, hwanted, hbuilt]
    cases (w later).built with
    | true => exact congrArg (Anchored.merge Event.id · commit.rows) hrows
    | false => exact hrows
  unfold left
  cases commit.page with
  | none => exact hwrite rfl rfl
  | some page =>
      obtain ⟨bounds, hbounds, -⟩ := (w later).commitNewestWindow_eq page (w start).generation
      dsimp only
      rw [hbounds]
      exact hwrite rfl rfl

/-- It leaves the log as it is, and the window's edge, unless it records that of a page. -/
theorem left_frame (w : Nat → World) (start later : Nat) (commit : Commit) :
    (left w start commit later).log = (w later).log ∧
    ((left w start commit later).windowBounds = (w later).windowBounds ∨
      ∃ page, commit.page = some page ∧
        (left w start commit later).windowBounds = (page.nextCursor, page.hasMore)) := by
  have hwrite : ∀ world : World, (writeRows w start commit.rows later world).log = world.log ∧
      (writeRows w start commit.rows later world).windowBounds = world.windowBounds := by
    intro world
    unfold writeRows
    split
    · exact ⟨rfl, rfl⟩
    · split
      · exact ⟨rfl, rfl⟩
      · exact ⟨rfl, rfl⟩
  unfold left
  rw [(hwrite _).1, (hwrite _).2]
  cases hpage : commit.page with
  | none => exact ⟨rfl, .inl rfl⟩
  | some page =>
      obtain ⟨bounds, hbounds, hedge⟩ := (w later).commitNewestWindow_eq page (w start).generation
      dsimp only
      rw [hbounds]
      refine ⟨rfl, ?_⟩
      rcases hedge with rfl | hedge
      · exact .inl rfl
      · exact .inr ⟨page, rfl, hedge⟩

/-- In an ascending list, what stands between two rows of a stretch is of the stretch. -/
theorem mem_of_between {rows range : List Event} (h : Ascending position rows) (hrange : range <:+: rows)
    {e a b : Event} (he : e ∈ rows) (ha : a ∈ range) (hb : b ∈ range) (hae : position a ≤ position e)
    (heb : position e ≤ position b) : e ∈ range := by
  obtain ⟨front, back, rfl⟩ := hrange
  obtain ⟨hleft, -, hback⟩ := List.pairwise_append.mp h
  rcases List.mem_append.mp he with he | he
  · rcases List.mem_append.mp he with he | he
    · have hlt := (List.pairwise_append.mp hleft).2.2 e he a ha
      omega
    · exact he
  · have hlt := hback b (List.mem_append_right _ hb) e he
    omega

/-- What is read from a row of it on is all there is below the cursor. -/
theorem mem_of_behind {log : EventLog} {cursor : Option Int} {front seg : List StoredEvent}
    (hsplit : log.windowBefore (.session session) cursor = front ++ seg) {e a : Event}
    (he : e ∈ view (log.windowBefore (.session session) cursor)) (ha : a ∈ view seg)
    (hae : position a ≤ position e) : e ∈ view seg := by
  have hasc := view_ascending (log.windowBefore_ascending (.session session) cursor)
  rw [hsplit, view_append] at hasc he
  rcases List.mem_append.mp he with he | he
  · have hlt := (List.pairwise_append.mp hasc).2.2 e he a ha
    omega
  · exact he

variable {range live : List Event}

/-- **The list a splice leaves**: in the order of the log, with all that was cached, and without a gap from the
oldest row of the range up to `P`. -/
theorem left_exact (henv : Surroundings session w) (hnewest : newest ≤ start + 1)
    (hcached : CachedAs session P (w start) range live) {now later : Nat} {commit : Commit}
    (hreads : Reads session limit w start newest P now commit) (hnow : start + 2 ≤ now)
    (hwrites : WritesAt w now later) (hwanted : wanted w start later = true) :
    (left w start commit later).rows.Sublist (sessionRows session (w later).log) ∧
      (w later).rows.Sublist (left w start commit later).rows ∧
      ((w later).rows ≠ [] → ∀ e ∈ commit.rows, e ∈ (left w start commit later).rows) ∧
      (∀ e ∈ (left w start commit later).rows, e ∈ (w later).rows ∨ e ∈ commit.rows) ∧
      ∀ e ∈ sessionRows session (w start).log, position e ≤ P → (∃ o ∈ range, position o ≤ position e) →
        e ∈ (left w start commit later).rows := by
  obtain ⟨hjoins, hle⟩ := hreads.joins henv hnewest hnow hwrites
  obtain ⟨hordered, hkept, hmem⟩ := hjoins.merged (henv.sound later).ordered
  rw [World.rows_merged] at hordered hkept hmem
  have hrange : ∀ e ∈ range, e ∈ (w start).rows := fun e he => by
    rw [hcached.rows]
    exact List.mem_append_left _ he
  have hgrown : ∀ {e}, e ∈ (w start).rows → e ∈ (w later).rows := fun he =>
    (Grows.of_le henv.grows (show start ≤ later by omega)).rows.subset he
  rw [rows_left hwanted]
  cases hbuilt : (w later).built with
  | false =>
      have hempty : (w later).rows = [] := by
        by_contra hne
        exact Bool.false_ne_true (hbuilt.symm.trans ((henv.sound later).built hne))
      refine ⟨(henv.sound later).ordered, List.Sublist.refl _, fun hne => absurd hempty hne, fun e he => .inl he, ?_⟩
      rintro e - - ⟨o, ho, -⟩
      have := hgrown (hrange o ho)
      rw [hempty] at this
      cases this
  | true =>
      refine ⟨hordered, hkept, fun _ e he => (hmem e).mpr (.inr he), fun e he => (hmem e).mp he, ?_⟩
      rintro e he hP ⟨o, ho, hoe⟩
      have hstart : (w start).rows ≠ [] := List.ne_nil_of_mem (hrange o ho)
      cases hreads with
      | @established front seg _ _ hrows hread =>
          have hread' : e ∈ view ((w (start + 1)).log.windowBefore (.session session) (historyCursor P)) :=
            mem_history.mpr ⟨(sessionRows_grown session (henv.grows start).log).subset he, hP⟩
          refine (hmem e).mpr ?_
          rw [hrows]
          rcases hread.stop with rfl | ⟨s, hs, hid⟩
          · right
            rw [hread.split] at hread'
            exact hread'
          · -- the row that ended the reading is one of the range
            obtain ⟨after, hafter⟩ := segment_later List.prefix_rfl hread.split
            have hcachedRow := shared_row henv (Nat.le_succ start) hs ⟨_, _, hafter⟩ hid
            have hsP : position s ≤ P := by
              have hwindow : s ∈ view ((w (start + 1)).log.windowBefore (.session session) (historyCursor P)) := by
                rw [hread.split, view_append]
                exact List.mem_append_right _ hs
              exact (mem_history.mp hwindow).2
            have hsrange : s ∈ range := by
              rw [hcached.rows] at hcachedRow
              refine (List.mem_append.mp hcachedRow).resolve_right fun hlive => ?_
              have := hcached.above s hlive
              omega
            rcases Nat.le_total (position s) (position e) with hse | hes
            · exact .inr (mem_of_behind hread.split hread' hs hse)
            · left
              have hbetween := mem_of_between (sessionRows_ascending session _) hcached.gapfree he ho hsrange hoe hes
              exact hgrown (hrange e hbetween)
      | joined hempty => exact absurd hempty hstart
      | cold hempty => exact absurd hempty hstart

end Splice

end AgentBeacon.Web
