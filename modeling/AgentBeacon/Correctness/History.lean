import AgentBeacon.Correctness.Splice

/-!
# `Correctness.History` — the client's history is the log's

Older pages are read below the cursor of the window. They join the cache as long as the cached rows below the cursor
leave no gap up to it (`Reaches`). That holds of a range with the cursor of its oldest row, and a splice, an older
page and the rows of the stream keep it.
-/

namespace AgentBeacon.Web
open Keyset

/-! ## Older pages -/

section Older

variable {session : SessionId} {limit : Int} {a b u v r s : World}

/-- A cache without a gap up to the cursor of the next older page, if there is one. -/
structure Reaches (session : SessionId) (world : World) : Prop where
  ordered : world.rows.Sublist (sessionRows session world.log)
  edge : ∀ text, world.windowBounds = (some text, true) → ∃ row ∈ world.log.of (.session session),
    text = toString row.id ∧ ∀ e ∈ sessionRows session world.log, position e < row.id →
      (∃ o ∈ world.rows, position o ≤ position e) → e ∈ world.rows

/-- Rows are appended to the log, and rows of the stream to the cache. None of these stands below the cursor. -/
structure Arrives (session : SessionId) (a b : World) : Prop where
  log : a.log.rows <+: b.log.rows
  rows : ∃ more, b.rows = a.rows ++ more ∧
    ∀ e ∈ more, ∀ id : Nat, a.windowBounds = (some (toString id), true) → id ≤ position e
  ordered : b.rows.Sublist (sessionRows session b.log)
  generation : b.generation = a.generation
  bounds : b.bounds = a.bounds

theorem Arrives.windowBounds (h : Arrives session a b) : b.windowBounds = a.windowBounds := by
  unfold World.windowBounds
  rw [h.bounds]

/-- **What arrives leaves no gap below the cursor.** -/
theorem Reaches.arrives (ha : Reaches session a) (h : Arrives session a b) : Reaches session b := by
  refine ⟨h.ordered, fun text htext => ?_⟩
  rw [h.windowBounds] at htext
  obtain ⟨row, hrow, rfl, hgap⟩ := ha.edge text htext
  obtain ⟨more, hmore, habove⟩ := h.rows
  refine ⟨row, (of_grown h.log _).subset hrow, rfl, fun e he hlt ⟨o, ho, hoe⟩ => ?_⟩
  rw [hmore] at ho ⊢
  rcases List.mem_append.mp ho with ho | ho
  · exact List.mem_append_left _ (hgap e (mem_of_grown h.log hrow he hlt) hlt ⟨o, ho, hoe⟩)
  · have hge := habove o ho row.id htext
    omega

/-- The bounds that an older page leaves. -/
theorem windowBounds_advanced {world : World} {text : String} (h : world.windowBounds = (some text, true))
    (rows : List Event) (page : PageV1 Event) :
    ((world.merged rows).advanceOldest page).windowBounds = (page.nextCursor, page.hasMore) := by
  unfold World.windowBounds at h
  unfold World.advanceOldest World.merged
  cases hbounds : world.bounds with
  | none =>
      rw [hbounds] at h
      cases h
  | some record =>
      rw [hbounds] at h
      have hmore : record.hasMore = true := (Prod.mk.inj h).2
      dsimp only
      rw [if_pos hmore, hmore]
      rfl

/-- What was read below the cursor joins the cache. -/
theorem Reaches.joins (h : Reaches session s) {text : String} (hedge : s.windowBounds = (some text, true))
    {row : StoredEvent} (htext : text = toString row.id) {log : EventLog} (hlog : log.rows <+: s.log.rows)
    {front back : List StoredEvent} (hsplit : log.windowBefore (.session session) (some row.id) = front ++ back) :
    Joins session s (view back) := by
  obtain ⟨after, hafter⟩ := segment_later hlog hsplit
  refine ⟨view front, after, hafter, ?_⟩
  obtain ⟨row', hrow', hid, hgap⟩ := h.edge text hedge
  have hsame : row'.id = row.id := Nat.repr_injective (hid.symm.trans htext)
  rcases List.eq_nil_or_concat (view back) with hempty | ⟨init, e, hlast⟩
  · exact .inl hempty
  right
  have he : e ∈ view back := by
    rw [hlast]
    simp
  by_cases hmeet : ∃ o ∈ s.rows, o ∈ view front
  · obtain ⟨o, ho, hfront⟩ := hmeet
    left
    have hasc := sessionRows_ascending session s.log
    rw [hafter] at hasc
    have hlt : position o < position e :=
      (List.pairwise_append.mp (List.pairwise_append.mp hasc).1).2.2 o hfront e he
    have hmem : e ∈ sessionRows session s.log := by
      rw [hafter]
      exact List.mem_append_left _ (List.mem_append_right _ he)
    have hbelow : position e < row.id := by
      have hstored : e.row.stored ∈ log.windowBefore (.session session) (some row.id) := by
        rw [hsplit]
        exact List.mem_append_right _ (mem_view he).2
      have := of_decide_eq_true (List.mem_filter.mp hstored).2
      exact Int.ofNat_lt.mp this
    exact ⟨e, hgap e hmem (hsame ▸ hbelow) ⟨o, ho, Nat.le_of_lt hlt⟩, he⟩
  · right
    intro o ho hfront
    exact hmeet ⟨o, ho, hfront⟩

/-- **One older page**: it comes in whole, and nothing else does. -/
theorem older_call (hlimit : 1 ≤ limit ∧ limit ≤ eventsMaxPage) (hu : Reaches session u)
    (hr : Arrives session u r) (hs : Arrives session r s) :
    ∃ v, fetchOlderPage session limit u r s = .ok v ∧ Reaches session v ∧ s.rows.Sublist v.rows ∧
      ((∀ text, u.windowBounds ≠ (some text, true)) → v = s) ∧
      ∀ text, u.windowBounds = (some text, true) → ∃ page, readPage r.log session (some text) limit = .ok page ∧
        (∀ e, e ∈ v.rows ↔ e ∈ s.rows ∨ e ∈ page.items) ∧
        ((∀ e ∈ s.rows, e ∉ page.items) → v.rows = page.items ++ s.rows) := by
  have hsreaches := (hu.arrives hr).arrives hs
  by_cases hedge : ∃ text, u.windowBounds = (some text, true)
  · obtain ⟨text, hedge⟩ := hedge
    have hsedge : s.windowBounds = (some text, true) := by rw [hs.windowBounds, hr.windowBounds, hedge]
    obtain ⟨row, hrow, htext, -⟩ := hu.edge text hedge
    have hresolves : Resolves (some text) limit (some row.id) := by
      rw [htext]
      exact resolves_some hlimit (EventLog.of_keys hrow)
    obtain ⟨page, front, back, hread, hpage⟩ := readPage_eq session r.log hresolves
    have hjoins := hsreaches.joins hsedge htext hs.log hpage.split
    rw [← hpage.items] at hjoins
    obtain ⟨hordered, hkept, hmem⟩ := hjoins.merged hs.ordered
    obtain ⟨bounds, hbounds⟩ := (s.merged page.items).advanceOldest_eq page
    have hrows : ((s.merged page.items).advanceOldest page).rows = (s.merged page.items).rows := by
      rw [hbounds]
      rfl
    have hlog : ((s.merged page.items).advanceOldest page).log = s.log := by
      rw [hbounds]
      rfl
    refine ⟨(s.merged page.items).advanceOldest page, ?_, ⟨?_, ?_⟩, ?_, fun hnone => absurd hedge (hnone text), ?_⟩
    · have hgen : ¬s.generation ≠ u.generation := not_not.mpr (hs.generation.trans hr.generation)
      unfold fetchOlderPage
      rw [hedge]
      dsimp only
      rw [if_neg (by simp), hread]
      dsimp only
      rw [if_neg hgen]
    · rw [hrows, hlog]
      exact hordered
    · intro text' htext'
      rw [windowBounds_advanced hsedge] at htext'
      obtain ⟨hcursor, hmore⟩ := Prod.mk.inj htext'
      obtain ⟨row', hrow', hnext, -, hfront, -, hback⟩ := hpage.next hmore
      rw [hrows, hlog]
      refine ⟨row', (of_grown hs.log _).subset hrow', Option.some.inj (hcursor.symm.trans hnext), ?_⟩
      rintro e he hlt ⟨o, ho, hoe⟩
      have hbelow : (row'.id : Int) < row.id := by
        have hin : row' ∈ r.log.windowBefore (.session session) (some row.id) := by
          rw [hpage.split]
          exact List.mem_append_right _ hback
        exact of_decide_eq_true (List.mem_filter.mp hin).2
      rcases (hmem o).mp ho with ho | ho
      · obtain ⟨row₀, -, hid₀, hgap⟩ := hsreaches.edge text hsedge
        have hsame : row₀.id = row.id := Nat.repr_injective (hid₀.symm.trans htext)
        exact (hmem e).mpr (.inl (hgap e he (by omega) ⟨o, ho, hoe⟩))
      · rw [hpage.items] at ho
        have hge := hpage.cursor_le hfront ho
        omega
    · rw [hrows]
      exact hkept
    · intro text' htext'
      obtain rfl : text' = text := Option.some.inj (Prod.mk.inj (htext'.symm.trans hedge)).1
      refine ⟨page, hread, fun e => hrows ▸ hmem e, fun hnone => ?_⟩
      rw [hrows, World.rows_merged, Anchored.merge_of_none]
      intro e he
      rw [Bool.eq_false_iff, ne_eq, Anchored.holds_iff]
      rintro ⟨e', he', heq⟩
      have hmem' : e' ∈ sessionRows session s.log := hordered.subset ((hmem e').mpr (.inr he'))
      have hsame := eq_of_id hmem' (hs.ordered.subset he) heq
      exact hnone e he (hsame ▸ he')
  · refine ⟨s, ?_, hsreaches, List.Sublist.refl _, fun _ => rfl, fun text htext => absurd ⟨text, htext⟩ hedge⟩
    unfold fetchOlderPage
    generalize hbounds : u.windowBounds = bounds at hedge
    obtain ⟨cursor, more⟩ := bounds
    dsimp only
    cases cursor with
    | none => rw [if_pos (by simp)]
    | some text =>
        cases more with
        | false => rw [if_pos (by simp)]
        | true => exact absurd ⟨text, rfl⟩ hedge

/-- A sequence of calls of `fetchOlderPage`, with rows arriving in between. -/
inductive OlderRun (session : SessionId) (limit : Int) : World → World → Prop
  | refl (u : World) : OlderRun session limit u u
  | arrives {u a b : World} (hrun : OlderRun session limit u a) (h : Arrives session a b) : OlderRun session limit u b
  | older {u a r s v : World} (hrun : OlderRun session limit u a) (hr : Arrives session a r) (hs : Arrives session r s)
      (h : fetchOlderPage session limit a r s = .ok v) : OlderRun session limit u v

/-- **Every sequence of calls** keeps a cache that reaches its cursor. -/
theorem OlderRun.reaches (hlimit : 1 ≤ limit ∧ limit ≤ eventsMaxPage) (hu : Reaches session u)
    (hrun : OlderRun session limit u v) : Reaches session v := by
  induction hrun with
  | refl => exact hu
  | arrives _ h ih => exact ih.arrives h
  | older _ hr hs h ih =>
      obtain ⟨v, hv, hreaches, -⟩ := older_call hlimit ih hr hs
      rw [h] at hv
      exact Except.ok.inj hv ▸ hreaches

end Older

/-! ## The list as a whole -/

section Exact

variable {w : Nat → World} {session : SessionId} {limit : Int} {start newest P : Nat} {range live : List Event}

/-- A list in the order of the log, without duplicates. -/
structure InLogOrder (session : SessionId) (world : World) : Prop where
  ordered : world.rows.Sublist (sessionRows session world.log)
  ascending : Ascending position world.rows
  nodup : (world.rows.map Event.id).Nodup

theorem InLogOrder.of_sublist {world : World} (h : world.rows.Sublist (sessionRows session world.log)) :
    InLogOrder session world :=
  ⟨h, (sessionRows_ascending session world.log).sublist h, (sessionRows_nodup session world.log).sublist (h.map _)⟩

/-- The cursor of the next older page, while there is one, is that of the oldest row of the range. -/
def Windowed (world : World) (range : List Event) : Prop :=
  ∀ text, world.windowBounds = (some text, true) → ∃ o, range.head? = some o ∧ text = o.id

/-- **A range reaches back to its oldest row.** -/
theorem Windowed.reaches {world : World} (hordered : world.rows.Sublist (sessionRows session world.log))
    (hcached : CachedAs session P world range live) (h : Windowed world range) : Reaches session world := by
  refine ⟨hordered, fun text htext => ?_⟩
  obtain ⟨o, ho, rfl⟩ := h text htext
  obtain ⟨rest, rfl⟩ : ∃ rest, range = o :: rest := ⟨_, List.eq_cons_of_mem_head? ho⟩
  have hmem : o ∈ sessionRows session world.log := hcached.gapfree.subset List.mem_cons_self
  refine ⟨o.row.stored, (mem_view hmem).2, (mem_view hmem).1, ?_⟩
  -- no cached row stands below the oldest one of the range
  rintro e - hlt ⟨o', ho', hle⟩
  exfalso
  have hge : position o ≤ position o' := by
    rw [hcached.rows] at ho'
    rcases List.mem_append.mp ho' with ho' | ho'
    · rcases List.mem_cons.mp ho' with rfl | ho'
      · exact Nat.le_refl _
      · have hasc := (sessionRows_ascending session world.log).sublist hcached.gapfree.sublist
        exact Nat.le_of_lt ((List.pairwise_cons.mp hasc).1 o' ho')
    · have := hcached.above o' ho'
      have := hcached.below o List.mem_cons_self
      omega
  have hid : o.row.stored.id = position o := rfl
  rw [hid] at hlt
  omega

/-- **The list a splice leaves reaches back to the cursor**, if meanwhile rows only arrived. -/
theorem left_reaches (henv : Surroundings session w) (hnewest : newest ≤ start + 1)
    (hcached : CachedAs session P (w start) range live) (hwindow : Windowed (w start) range) {now later : Nat}
    {commit : Commit} (hreads : Reads session limit w start newest P now commit) (hnow : start + 2 ≤ now)
    (hwrites : WritesAt w now later) (hwanted : wanted w start later = true)
    (harrives : Arrives session (w start) (w later)) : Reaches session (left w start commit later) := by
  obtain ⟨hordered, hkept, hall, hmem, -⟩ := left_exact henv hnewest hcached hreads hnow hwrites hwanted
  obtain ⟨-, hle⟩ := hreads.joins henv hnewest hnow hwrites
  obtain ⟨hlog, hbounds⟩ := left_frame w start later commit
  have hlater := (hwindow.reaches (henv.sound start).ordered hcached).arrives harrives
  refine ⟨hlog ▸ hordered, fun text htext => ?_⟩
  rw [hlog]
  -- where nothing was cached, there is no cursor to begin with
  have hnoedge : (w start).rows = [] → (w later).windowBounds ≠ (some text, true) := by
    intro hempty hedge
    rw [harrives.windowBounds] at hedge
    obtain ⟨o, ho, -⟩ := hwindow text hedge
    have hin : o ∈ (w start).rows := by
      rw [hcached.rows]
      exact List.mem_append_left _ (List.mem_of_mem_head? ho)
    rw [hempty] at hin
    cases hin
  cases hreads with
  | @established front seg hstart hpage hrows hread =>
      have hedge : (w later).windowBounds = (some text, true) := by
        rcases hbounds with hsame | ⟨page, hsome, -⟩
        · exact hsame ▸ htext
        · rw [hpage] at hsome
          cases hsome
      obtain ⟨row, hrow, hid, hgap⟩ := hlater.edge text hedge
      refine ⟨row, hrow, hid, fun e he hlt ⟨o, ho, hoe⟩ => ?_⟩
      rcases hmem o ho with ho | ho
      · exact hkept.subset (hgap e he hlt ⟨o, ho, hoe⟩)
      · -- the cursor is the oldest row of the range, at or below `P`
        obtain ⟨first, hfirst, htextFirst⟩ := hwindow text (harrives.windowBounds ▸ hedge)
        have hfirstMem : first ∈ range := List.mem_of_mem_head? hfirst
        have hfirstLog : first ∈ sessionRows session (w start).log := hcached.gapfree.subset hfirstMem
        have hrowId : row.id = position first :=
          Nat.repr_injective (hid.symm.trans (htextFirst.trans (mem_view hfirstLog).1))
        have hP := hcached.below first hfirstMem
        have hread' : e ∈ view ((w (start + 1)).log.windowBefore (.session session) (historyCursor P)) := by
          refine mem_history.mpr ⟨(sessionRows_grown session (henv.grows start).log).subset ?_, by omega⟩
          have hfirstLt : position e < position first := hrowId ▸ hlt
          exact mem_of_grown harrives.log (mem_view hfirstLog).2 he hfirstLt
        have hne : (w later).rows ≠ [] := by
          have hfirstRow : first ∈ (w start).rows := by
            rw [hcached.rows]
            exact List.mem_append_left _ hfirstMem
          exact List.ne_nil_of_mem ((Grows.of_le henv.grows (show start ≤ later by omega)).rows.subset hfirstRow)
        rw [hrows] at ho
        have hseg := mem_of_behind hread.split hread' ho hoe
        exact hall hne e (hrows ▸ hseg)
  | @joined front seg hstart hpage hrows _ hread =>
      rcases hbounds with hsame | ⟨page, hsome, -⟩
      · exact absurd (hsame ▸ htext) (hnoedge hstart)
      · rw [hpage] at hsome
        cases hsome
  | @cold front seg page hstart hempty _ hpage hrows hread =>
      rcases hbounds with hsame | ⟨page', hsome, hedge⟩
      · exact absurd (hsame ▸ htext) (hnoedge hstart)
      · rw [hpage] at hsome
        obtain rfl := Option.some.inj hsome
        rw [hedge] at htext
        obtain ⟨hcursor, hmore⟩ := Prod.mk.inj htext
        obtain ⟨row, hrow, hnext, -, hfront, -⟩ := hread.next hmore
        refine ⟨row, (of_grown (Grows.of_le henv.grows (show newest ≤ later by omega)).log _).subset hrow,
          Option.some.inj (hcursor.symm.trans hnext), fun e he hlt ⟨o, ho, hoe⟩ => ?_⟩
        exfalso
        rcases hmem o ho with ho | ho
        · have hsame : later = now := by
            unfold WritesAt at hwrites
            split at hwrites
            · rename_i hheld
              exact absurd hempty ((henv.sound now).held hheld)
            · exact hwrites
          rw [hsame, hempty] at ho
          cases ho
        · rw [hrows, hread.items] at ho
          have := hread.cursor_le hfront ho
          omega

/-- **The client's history merge is exact.** Whatever the log, whatever a cache of a gap-free range at or below `P`
and of rows above it, whatever the page limit, and whatever goes on in the log and the cache meanwhile: the splice
from `history_before` ends without an error, and commits if it is still wanted; the list it then leaves is in the
order of the log, has no duplicate, and holds all rows cached before and every row from the oldest one of the range
up to `P`. From that list, and from every other one that reaches back to the cursor of its window, any sequence of
calls of `fetchOlderPage` keeps the order, repeats nothing, and each of them adds the rows of the next older page
and no other. -/
theorem history_merge_exact (henv : Surroundings session w) (hlimit : 1 ≤ limit ∧ limit ≤ eventsMaxPage)
    (hnewest : newest ≤ start + 1) (hcached : CachedAs session P (w start) range live) :
    (∃ fuel, spliceSessionHistory w session limit fuel start newest (historyText P) ≠ none) ∧
    (∀ fuel out, spliceSessionHistory w session limit fuel start newest (historyText P) = some out →
      ∃ now commit, out = .ok (concluded w start commit now) ∧ (wanted w start now = true →
        ∀ later, WritesAt w now later → wanted w start later = true →
          InLogOrder session (left w start commit later) ∧
          (∀ e ∈ (w start).rows, e ∈ (left w start commit later).rows) ∧
          (∀ e ∈ sessionRows session (w start).log, position e ≤ P → (∃ o ∈ range, position o ≤ position e) →
            e ∈ (left w start commit later).rows) ∧
          (Windowed (w start) range → Arrives session (w start) (w later) →
            Reaches session (left w start commit later)))) ∧
    (Windowed (w start) range → Reaches session (w start)) ∧
    ∀ u v, Reaches session u → OlderRun session limit u v → InLogOrder session v ∧
      ∀ r s, Arrives session v r → Arrives session r s → ∃ v', fetchOlderPage session limit v r s = .ok v' ∧
        InLogOrder session v' ∧ s.rows.Sublist v'.rows ∧
        ((∀ text, v.windowBounds ≠ (some text, true)) → v' = s) ∧
        ∀ text, v.windowBounds = (some text, true) → ∃ page, readPage r.log session (some text) limit = .ok page ∧
          (∀ e, e ∈ v'.rows ↔ e ∈ s.rows ∨ e ∈ page.items) ∧
          ((∀ e ∈ s.rows, e ∉ page.items) → v'.rows = page.items ++ s.rows) := by
  obtain ⟨hends, hreads⟩ := splice_reads start newest P henv hlimit
  refine ⟨hends, fun fuel out hout => ?_, fun hwindow => ?_, fun u v hu hrun => ?_⟩
  · obtain ⟨now, commit, rfl, hnow, hread⟩ := hreads fuel out hout
    refine ⟨now, commit, rfl, fun hwanted later hwrites hstill => ?_⟩
    have hread := hread hwanted
    obtain ⟨-, hle⟩ := hread.joins henv hnewest hnow hwrites
    obtain ⟨hordered, hkept, -, -, hcovered⟩ := left_exact henv hnewest hcached hread hnow hwrites hstill
    rw [← (left_frame w start later commit).1] at hordered
    refine ⟨.of_sublist hordered, fun e he => ?_, hcovered, fun hwindow harrives => ?_⟩
    · exact hkept.subset ((Grows.of_le henv.grows (show start ≤ later by omega)).rows.subset he)
    · exact left_reaches henv hnewest hcached hwindow hread hnow hwrites hstill harrives
  · exact hwindow.reaches (henv.sound start).ordered hcached
  · have hv := hrun.reaches hlimit hu
    refine ⟨.of_sublist hv.ordered, fun r s hr hs => ?_⟩
    obtain ⟨v', hcall, hreaches, hkept, hnone, hpage⟩ := older_call hlimit hv hr hs
    exact ⟨v', hcall, .of_sublist hreaches.ordered, hkept, hnone, hpage⟩

end Exact

/-! A log of three rows, of which the client has the second as a range and the third as a live row. -/

def threeRows : EventLog where
  rows := [1, 2, 3].map fun id => ⟨id, "x", some "s", .platform, some .null, none, 0⟩
  ascending := by decide
  keys := by decide

def shownRow (id : Nat) : Event := Event.of ⟨id, "x", some "s", .platform, .null, none, 0⟩

def cachedTail : World where
  log := threeRows
  cache := some [shownRow 2, shownRow 3]
  built := true
  generation := 0
  bounds := some ⟨some "2", true, false⟩
  tailHeld := false
  isCurrent := true

theorem sessionRows_threeRows : sessionRows "s" threeRows = [shownRow 1, shownRow 2, shownRow 3] := rfl

/-- A splice from the second row on, with one row a page. -/
theorem history_merge_exact_cachedTail : (∃ fuel,
    spliceSessionHistory (fun _ => cachedTail) "s" 1 fuel 0 1 (historyText 2) ≠ none) ∧
    Reaches "s" cachedTail := by
  have hordered : cachedTail.rows.Sublist (sessionRows "s" threeRows) := by
    rw [sessionRows_threeRows]
    exact .cons _ (List.Sublist.refl _)
  have henv : Surroundings "s" fun _ => cachedTail :=
    ⟨fun _ => ⟨hordered, fun _ => rfl, fun h => nomatch h⟩, fun _ => .refl _⟩
  have hcached : CachedAs "s" 2 cachedTail [shownRow 2] [shownRow 3] := by
    refine ⟨rfl, ⟨[shownRow 1], [shownRow 3], rfl⟩, ?_, ?_⟩
    · intro e he
      obtain rfl := List.mem_singleton.mp he
      exact Nat.le_refl _
    · intro e he
      obtain rfl := List.mem_singleton.mp he
      exact Nat.lt_succ_self _
  obtain ⟨hends, -, hreaches, -⟩ := @history_merge_exact (fun _ => cachedTail) "s" 1 0 1 2 _ _ henv (by decide)
    (Nat.le_refl _) hcached
  refine ⟨hends, hreaches fun text htext => ?_⟩
  exact ⟨shownRow 2, rfl, (Option.some.inj (Prod.mk.inj htext).1).symm⟩

end AgentBeacon.Web
