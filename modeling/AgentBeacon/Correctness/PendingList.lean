import AgentBeacon.Correctness.Resolutions
import AgentBeacon.Correctness.Validator
import AgentBeacon.Web.Decisions
import Mathlib.Data.List.Infix

/-!
# `Correctness.PendingList` — the pending list is a moment of the scheduler

Refreshes overlap, and each is answered from some moment since it was sent. Only the newest one is applied, and its
validator is that of the list it would replace; so a list that is not modified is one of a later moment as well, and no
list is followed by one of an earlier moment (`Shows`).
-/

namespace AgentBeacon.Web
open DecisionsApi Resolution Relational Transaction Interleave

/-! ## The list of a moment -/

/-- The executions that are scanned for marks read at a moment. -/
def activeAt (marked : History) : List ExecutionId :=
  (listActiveWithPlatformMark (current marked) none).map ActiveExecutionMark.id

/-- What is shown of a response whose marks are read at one moment, and whose log is scanned at another. -/
def listedAt (logs : History → EventLog) (marked scanned : History) : List DecisionBatch :=
  ((pendingBody (current scanned) (logs scanned) (listActiveWithPlatformMark (current marked) none)).map
    mapResponseToBatch).reverse

/-- The scheduler runs, and its events are stored. -/
structure Logged (logs : History → EventLog) (now : History) : Prop where
  trace : Trace disciplined now
  mirrors : ∀ moment, moment <:+ now → Mirrors (current moment) (logs moment)

section Moments

variable {logs : History → EventLog} {base marked scanned again now : History} {row marker : EventRow}
  {escalation : Escalation}

theorem Logged.of_suffix (h : Logged logs now) (hsuffix : again <:+ now) : Logged logs again :=
  ⟨h.trace.of_suffix hsuffix, fun moment hmoment => h.mirrors moment (hmoment.trans hsuffix)⟩

theorem Logged.here (h : Logged logs now) : Mirrors (current now) (logs now) := h.mirrors now (List.suffix_refl now)

/-- The ids of its executions are plain, and no two of the texts that it hashes collide. -/
structure Hashed (sha256 : String → String) (logs : History → EventLog) (now : History) : Prop
    extends Logged logs now where
  ids : PlainIds (current now)
  apart : Set.InjOn sha256
    {text | ∃ moment, moment <:+ now ∧ text = validated (listActiveWithPlatformMark (current moment) none)}

theorem Hashed.of_suffix {sha256 : String → String} (h : Hashed sha256 logs now) (hsuffix : again <:+ now) :
    Hashed sha256 logs again where
  toLogged := h.toLogged.of_suffix hsuffix
  ids := by
    obtain ⟨later, rfl⟩ := hsuffix
    exact h.ids.earlier (reachable_of_trace h.trace)
  apart := h.apart.mono fun text htext => by
    obtain ⟨moment, hmoment, hread⟩ := htext
    exact ⟨moment, hmoment.trans hsuffix, hread⟩

/-- **The same validator vouches for the list.** -/
theorem Hashed.listedAt_eq {sha256 : String → String} (h : Hashed sha256 logs again) (hscan : marked <:+ scanned)
    (hagain : scanned <:+ again)
    (hsame : pendingValidator sha256 (listActiveWithPlatformMark (current marked) none) =
      pendingValidator sha256 (listActiveWithPlatformMark (current again) none)) :
    listedAt logs marked scanned = listedAt logs again again := by
  have hmarked := hscan.trans hagain
  have hcollision : Set.InjOn sha256 {validated (listActiveWithPlatformMark (current marked) none),
      validated (listActiveWithPlatformMark (current again) none)} := by
    refine h.apart.mono fun text htext => ?_
    rcases htext with rfl | rfl
    · exact ⟨marked, hmarked, rfl⟩
    · exact ⟨again, List.suffix_refl _, rfl⟩
  have htexts := validated_of_validator hcollision hsame
  obtain ⟨between, rfl⟩ := hscan
  obtain ⟨since, rfl⟩ := hagain
  unfold listedAt
  rw [pendingBody_of_validated h.trace h.ids (h.mirrors _ (List.suffix_append since _)) h.here htexts]

/-- A stored log of an undisturbed scheduler. -/
theorem logOf_of_mirrors {db : Db} {log : EventLog} (h : Mirrors db log) : LogOf db log := by
  have hrows : log.rows = db.events.rows.map EventRow.stored := h
  refine ⟨fun event hevent => ?_, fun row hrow _ => .inl ?_⟩
  · rw [hrows]
    exact List.mem_map_of_mem hevent
  · rw [hrows] at hrow
    obtain ⟨event, hevent, rfl⟩ := List.mem_map.mp hrow
    exact ⟨event, hevent, rfl⟩

theorem telling_of_resolves (hresolves : Resolves escalation marker) : Telling marker := by
  obtain ⟨-, parts, hparts, c, hc, hnames⟩ := candidatesFor_ne_nil.mp hresolves.2.2
  exact .inr ⟨parts, hparts, c, hc, hnames ▸ Option.some_ne_none _⟩

/-- The lookup in the stored log finds a marker exactly if there is one. -/
theorem Logged.found_iff (h : Logged logs now) :
    DecisionsApi.findMarkerForEscalation (logs now) escalation ≠ none ↔
      ∃ marker ∈ (current now).events.rows, Resolves escalation marker := by
  have hrows : (logs now).rows = (current now).events.rows.map EventRow.stored := h.here
  unfold DecisionsApi.findMarkerForEscalation
  rw [Ne, bestMarker_eq_none]
  push Not
  constructor
  · rintro ⟨event, hmem, hcandidates⟩
    obtain ⟨hstored, hfilter⟩ := List.mem_filter.mp (mem_decoded.mp hmem)
    obtain ⟨hexec, hplatform, -⟩ := of_decide_eq_true hfilter
    rw [hrows] at hstored
    obtain ⟨event', hevent', hsame⟩ := List.mem_map.mp hstored
    exact ⟨event, stored_injective hsame ▸ hevent', hexec, hplatform, hcandidates⟩
  · rintro ⟨marker, hmarker, hexec, hplatform, hcandidates⟩
    obtain ⟨-, parts, hparts, c, hc, hnames⟩ := candidatesFor_ne_nil.mp hcandidates
    have hlater := (platform_row_names h.trace hmarker hplatform hparts hc hnames).2
    refine ⟨marker, mem_decoded.mpr (List.mem_filter.mpr ⟨?_, decide_eq_true ⟨hexec, hplatform, ?_⟩⟩), hcandidates⟩
    · rw [hrows]
      exact List.mem_map_of_mem hmarker
    · exact Int.ofNat_lt.mp hlater

/-- A body lists the pending ids. -/
theorem mem_pendingBody {db : Db} {log : EventLog} {marks : List ActiveExecutionMark} {id : Nat} :
    id ∈ (pendingBody db log marks).map DecisionBrief.eventId ↔
      id ∈ (scanPending db log (marks.map ActiveExecutionMark.id)).pendingIds := by
  unfold pendingBody
  rw [List.mem_map]
  constructor
  · rintro ⟨brief, hbrief, rfl⟩
    obtain ⟨escalation, hmem, rfl⟩ := List.mem_map.mp hbrief
    exact of_decide_eq_true (List.mem_filter.mp hmem).2
  · intro hid
    obtain ⟨escalation, hmem, rfl⟩ := List.mem_map.mp hid
    have hscanned := (List.mem_filter.mp hmem).1
    exact ⟨_, List.mem_map.mpr ⟨escalation, List.mem_filter.mpr ⟨hscanned, decide_eq_true hid⟩, rfl⟩, rfl⟩

theorem eventIds_listedAt :
    (listedAt logs marked scanned).map DecisionBatch.eventId =
      ((pendingBody (current scanned) (logs scanned) (listActiveWithPlatformMark (current marked) none)).map
        DecisionBrief.eventId).reverse := by
  unfold listedAt
  rw [List.map_reverse, List.map_map]
  rfl

/-- The newest decision is shown first, and none twice. -/
theorem Logged.listedAt_descending (h : Logged logs scanned) :
    ((listedAt logs marked scanned).map DecisionBatch.eventId).Pairwise fun a b => b < a := by
  rw [eventIds_listedAt, List.pairwise_reverse]
  unfold pendingBody
  rw [List.map_map, List.pairwise_map]
  exact (escalations_ascending (activeAt marked) h.here).filter _

/-- **What the list of a moment shows**: of the decisions of the executions that were active, those without a marker. -/
theorem Logged.mem_listedAt (h : Logged logs scanned) (hrow : row ∈ (current scanned).events.rows)
    (hescalation : asEscalation row = some escalation) :
    escalation.id ∈ (listedAt logs marked scanned).map DecisionBatch.eventId ↔
      escalation.executionId ∈ activeAt marked ∧
        ∀ marker ∈ (current scanned).events.rows, ¬Resolves escalation marker := by
  have hlog := logOf_of_mirrors h.here
  have hstored : row.stored ∈ (logs scanned).rows := hlog.logged row hrow
  rw [eventIds_listedAt, List.mem_reverse, mem_pendingBody]
  have hopen : escalation.executionId ∈ activeAt marked →
      (escalation.id ∈ (scanPending (current scanned) (logs scanned) (activeAt marked)).pendingIds ↔
        ∀ marker ∈ (current scanned).events.rows, ¬Resolves escalation marker) := by
    intro hactive
    rw [listed_iff h.trace hlog hactive hstored hescalation, ← Bool.not_eq_true,
      isResolved_iff h.trace hlog hactive hstored hescalation, h.found_iff]
    push Not
    rfl
  refine ⟨fun hlisted => ?_, fun ⟨hactive, hnone⟩ => (hopen hactive).mpr hnone⟩
  have hactive : escalation.executionId ∈ activeAt marked := by
    obtain ⟨scannedOne, hmem, hid⟩ := List.mem_map.mp hlisted
    obtain ⟨row', hrow', hin, -, -, hread⟩ := (mem_scanned_escalations h.here).mp (List.mem_filter.mp hmem).1
    -- one id is one row
    have hsame : row'.id = row.id :=
      (id_of_asEscalation hread).symm.trans (hid.trans (id_of_asEscalation hescalation))
    obtain rfl := stored_injective ((logs scanned).ascending.unique (hlog.logged row' hrow') hstored hsame)
    obtain ⟨-, -, -, -, hexec⟩ := asEscalation_eq_some hescalation
    exact hexec ▸ hin
  exact ⟨hactive, (hopen hactive).mp hlisted⟩

/-- **What had a marker is not listed later.** -/
theorem Logged.notMem_listedAt (h : Logged logs scanned) (hbase : base <:+ scanned)
    (hrow : row ∈ (current base).events.rows) (hescalation : asEscalation row = some escalation)
    (hmarker : marker ∈ (current base).events.rows) (hresolves : Resolves escalation marker) :
    escalation.id ∉ (listedAt logs marked scanned).map DecisionBatch.eventId := by
  obtain ⟨since, rfl⟩ := hbase
  obtain ⟨hplatform, -⟩ := asEscalation_eq_some hescalation
  have hstays := telling_stays h.trace hrow hplatform (.inl ⟨escalation, hescalation⟩)
  have hmarker' := telling_stays h.trace hmarker hresolves.2.1 (telling_of_resolves hresolves)
  rw [h.mem_listedAt hstays hescalation]
  exact fun hlisted => hlisted.2 marker hmarker' hresolves

end Moments

/-! ## Refreshes -/

section Refreshes

variable {sha256 : String → String} {logs : History → EventLog} {base : History}
  {view next : DecisionsView} {generation : Nat} {call : RefreshCall}

/-! ### What a refresh does to the store -/

section EndRefresh

variable {store : DecisionStore} {answer : Except Thrown PendingDecisionsResult}

theorem endRefresh_stale (h : generation ≠ store.pendingGeneration) :
    store.endRefresh generation answer = (store, .stale) := by
  unfold DecisionStore.endRefresh DecisionStore.applyRefresh
  cases answer <;> simp [h]

theorem endRefresh_failed (error : Thrown) : store.endRefresh store.pendingGeneration (.error error) =
    ({ store with refreshInFlight := false }, .failed error) := by
  simp [DecisionStore.endRefresh, DecisionStore.applyRefresh]

theorem endRefresh_notModified : store.endRefresh store.pendingGeneration (.ok .notModified) =
    ({ store with refreshInFlight := false }, .applied) := by
  simp [DecisionStore.endRefresh, DecisionStore.applyRefresh]

theorem endRefresh_modified (etag : Option String) (decisions : List DecisionBrief) :
    store.endRefresh store.pendingGeneration (.ok (.modified etag decisions)) =
      ({ store with
          pendingEtag := etag, pendingDecisions := (decisions.map mapResponseToBatch).reverse
          refreshInFlight := false }, .applied) := by
  simp [DecisionStore.endRefresh, DecisionStore.applyRefresh, DecisionStore.setDecisionsFromResponse]

/-- The generation stays, and the gate is opened by the newest request alone. -/
theorem endRefresh_kept : (store.endRefresh generation answer).1.pendingGeneration = store.pendingGeneration ∧
    (store.endRefresh generation answer).1.refreshInFlight =
      if generation = store.pendingGeneration then false else store.refreshInFlight := by
  by_cases hnewest : generation = store.pendingGeneration
  · subst hnewest
    rw [if_pos rfl]
    cases answer with
    | error error => rw [endRefresh_failed]; exact ⟨rfl, rfl⟩
    | ok result =>
        cases result with
        | notModified => rw [endRefresh_notModified]; exact ⟨rfl, rfl⟩
        | modified etag decisions => rw [endRefresh_modified]; exact ⟨rfl, rfl⟩
  · rw [endRefresh_stale hnewest, if_neg hnewest]
    exact ⟨rfl, rfl⟩

/-- A refresh is applied only if it is the newest, and was answered. -/
theorem newest_of_applied (h : (store.endRefresh generation answer).2 = .applied) :
    generation = store.pendingGeneration ∧ ∃ result, answer = .ok result := by
  by_cases hnewest : generation = store.pendingGeneration
  · subst hnewest
    cases answer with
    | error error =>
        rw [endRefresh_failed] at h
        cases h
    | ok result => exact ⟨rfl, result, rfl⟩
  · rw [endRefresh_stale hnewest] at h
    cases h

theorem etag_of_not_applied (h : (store.endRefresh generation answer).2 ≠ .applied) :
    (store.endRefresh generation answer).1.pendingEtag = store.pendingEtag := by
  by_cases hnewest : generation = store.pendingGeneration
  · subst hnewest
    cases answer with
    | error error => rw [endRefresh_failed]
    | ok result =>
        cases result with
        | notModified => rw [endRefresh_notModified]
        | modified etag decisions => exact absurd (congrArg Prod.snd (endRefresh_modified etag decisions)) h
  · rw [endRefresh_stale hnewest]

theorem endLoad_same (reset : Bool) (answer : Except Thrown (PageV1 DecisionSummary)) :
    (store.endLoad reset generation answer).pendingDecisions = store.pendingDecisions ∧
    (store.endLoad reset generation answer).pendingEtag = store.pendingEtag ∧
    (store.endLoad reset generation answer).pendingGeneration = store.pendingGeneration ∧
    (store.endLoad reset generation answer).refreshInFlight = store.refreshInFlight := by
  unfold DecisionStore.endLoad
  split
  · exact ⟨rfl, rfl, rfl, rfl⟩
  · cases answer with
    | error error =>
        dsimp only
        split <;> exact ⟨rfl, rfl, rfl, rfl⟩
    | ok page => exact ⟨rfl, rfl, rfl, rfl⟩

end EndRefresh

/-! ### What is kept -/

/-- The list that is shown is one of moments since a moment, and the newest call was sent after them. -/
structure Shows (sha256 : String → String) (logs : History → EventLog) (base marked scanned : History)
    (view : DecisionsView) : Prop where
  since : base <:+ marked
  order : marked <:+ scanned
  past : scanned <:+ view.history
  etag : view.store.pendingEtag = some (pendingValidator sha256 (listActiveWithPlatformMark (current marked) none))
  list : view.store.pendingDecisions = listedAt logs marked scanned
  newest : ∀ call, view.refreshes view.store.pendingGeneration = some call → scanned <:+ call.started

/-- Nothing is shown yet, or a list of some moment. -/
def Shown (sha256 : String → String) (logs : History → EventLog) (view : DecisionsView) : Prop :=
  view.store.pendingEtag = none ∨ ∃ marked scanned, Shows sha256 logs [] marked scanned view

/-- Nothing changes for the refreshes. -/
structure SameRefreshes (view next : DecisionsView) : Prop where
  history : next.history = view.history
  refreshes : next.refreshes = view.refreshes
  list : next.store.pendingDecisions = view.store.pendingDecisions
  etag : next.store.pendingEtag = view.store.pendingEtag
  generation : next.store.pendingGeneration = view.store.pendingGeneration
  gate : next.store.refreshInFlight = view.store.refreshInFlight

theorem sameRefreshes_loads (reset : Bool) (answer : Except Thrown (PageV1 DecisionSummary))
    (loads : Nat → Option LoadCall) : SameRefreshes view
      { view with store := view.store.endLoad reset generation answer, loads } := by
  have hsame : (view.store.endLoad reset generation answer).pendingDecisions = _ ∧ _ := endLoad_same reset answer
  obtain ⟨hlist, hetag, hgeneration, hgate⟩ := hsame
  exact ⟨rfl, rfl, hlist, hetag, hgeneration, hgate⟩

theorem Shows.congr {marked scanned : History} (h : Shows sha256 logs base marked scanned view)
    (hsame : SameRefreshes view next) : Shows sha256 logs base marked scanned next := by
  obtain ⟨hhistory, hrefreshes, hlist, hetag, hgeneration, -⟩ := hsame
  refine ⟨h.since, h.order, ?_, hetag.trans h.etag, hlist.trans h.list, ?_⟩
  · rw [hhistory]
    exact h.past
  · rw [hrefreshes, hgeneration]
    exact h.newest

/-- What the calls were before one of them was answered. -/
theorem update_answer {answer : Except Thrown PendingDecisionsResult}
    (hcall : view.refreshes generation = some call) {other : Nat} {found : RefreshCall}
    (hfound : Function.update view.refreshes generation (some { call with answer := some answer }) other =
      some found) : ∃ before, view.refreshes other = some before ∧ found.etag = before.etag ∧
        found.started = before.started ∧
        (found.answer = before.answer ∨ other = generation ∧ found.answer = some answer) := by
  by_cases hother : other = generation
  · subst hother
    rw [Function.update_self] at hfound
    obtain rfl := Option.some.inj hfound
    exact ⟨call, hcall, rfl, rfl, .inr ⟨rfl, rfl⟩⟩
  · rw [Function.update_of_ne hother] at hfound
    exact ⟨found, hfound, rfl, rfl, .inl rfl⟩

/-- The calls, as long as their answers have not arrived: they are of distinct generations, and the newest one has sent
the validator of the list that is shown. An answer is one of the scheduler, of moments since the call was sent. -/
structure Attended (sha256 : String → String) (logs : History → EventLog) (view : DecisionsView) : Prop where
  bounded : ∀ generation call, view.refreshes generation = some call → generation ≤ view.store.pendingGeneration
  sent : ∀ generation call, view.refreshes generation = some call → call.started <:+ view.history
  newest : ∀ call, view.refreshes view.store.pendingGeneration = some call → call.etag = view.store.pendingEtag
  answered : ∀ generation call result, view.refreshes generation = some call → call.answer = some (.ok result) →
    ∃ marked scanned, call.started <:+ marked ∧ marked <:+ scanned ∧ scanned <:+ view.history ∧
      result = pendingResult (pendingResponse sha256 (current marked) (current scanned) (logs scanned) none call.etag)
  gate : view.store.refreshInFlight = true ↔ ∃ call, view.refreshes view.store.pendingGeneration = some call

theorem Attended.congr (h : Attended sha256 logs view) (hsame : SameRefreshes view next) :
    Attended sha256 logs next := by
  obtain ⟨hhistory, hrefreshes, -, hetag, hgeneration, hgate⟩ := hsame
  refine ⟨?_, ?_, ?_, ?_, ?_⟩
  · rw [hrefreshes, hgeneration]
    exact h.bounded
  · rw [hrefreshes, hhistory]
    exact h.sent
  · rw [hrefreshes, hgeneration, hetag]
    exact h.newest
  · rw [hrefreshes, hhistory]
    exact h.answered
  · rw [hrefreshes, hgeneration, hgate]
    exact h.gate

/-! ### One step -/

/-- **An applied refresh shows a list of a moment since it was sent.** -/
theorem Attended.applies (h : Attended sha256 logs view) (hlogged : Hashed sha256 logs view.history)
    (hshown : Shown sha256 logs view)
    (hcall : view.refreshes view.store.pendingGeneration = some call) {result : PendingDecisionsResult}
    (hanswer : call.answer = some (.ok result)) : ∃ marked scanned,
      Shows sha256 logs call.started marked scanned (view.arrive view.store.pendingGeneration (.ok result)) := by
  obtain ⟨marked, scanned, hsince, horder, hpast, rfl⟩ := h.answered _ _ _ hcall hanswer
  have hetag := h.newest call hcall
  -- its generation is answered, so that no call of it waits
  have hgone : ∀ {store : DecisionStore}, store.pendingGeneration = view.store.pendingGeneration →
      ∀ other, Function.update view.refreshes view.store.pendingGeneration none store.pendingGeneration =
        some other → scanned <:+ other.started ∧ marked <:+ other.started := by
    intro store hsame other hother
    rw [hsame, Function.update_self] at hother
    cases hother
  unfold pendingResponse
  by_cases hpresented : call.etag =
      some (pendingValidator sha256 (listActiveWithPlatformMark (current marked) none))
  · simp only [hpresented, if_true, pendingResult]
    unfold DecisionsView.arrive
    rw [endRefresh_notModified]
    rcases hshown with hnone | ⟨markedBefore, scannedBefore, hshows⟩
    · rw [hetag, hnone] at hpresented
      cases hpresented
    · have hbefore := hshows.newest call hcall
      have hsame := Option.some.inj (hshows.etag.symm.trans (hetag.symm.trans hpresented))
      have hagain := (hlogged.of_suffix (horder.trans hpast)).listedAt_eq hshows.order
        (hbefore.trans hsince) hsame
      exact ⟨marked, marked, hsince, List.suffix_refl _, horder.trans hpast, hetag.symm.trans hpresented,
        hshows.list.trans hagain, fun other hother => (hgone rfl other hother).2⟩
  · simp only [if_neg hpresented, pendingResult]
    unfold DecisionsView.arrive
    rw [endRefresh_modified]
    exact ⟨marked, scanned, hsince, horder, hpast, rfl, rfl, fun other hother => (hgone rfl other hother).1⟩

theorem Attended.start : Attended sha256 logs (.start : DecisionsView) where
  bounded := fun _ _ hcall => by cases hcall
  sent := fun _ _ hcall => by cases hcall
  newest := fun _ hcall => by cases hcall
  answered := fun _ _ _ hcall => by cases hcall
  gate := by
    refine iff_of_false Bool.false_ne_true ?_
    rintro ⟨call, hcall⟩
    cases hcall

theorem Attended.answer (h : Attended sha256 logs view) (hcall : view.refreshes generation = some call)
    {answer : Except Thrown PendingDecisionsResult}
    (hanswer : ∀ result, answer = .ok result → ∃ marked scanned, call.started <:+ marked ∧ marked <:+ scanned ∧
      scanned <:+ view.history ∧ result =
        pendingResult (pendingResponse sha256 (current marked) (current scanned) (logs scanned) none call.etag)) :
    Attended sha256 logs (view.answer generation call answer) where
  bounded := fun other found hfound => by
    obtain ⟨before, hbefore, -⟩ := update_answer hcall hfound
    exact h.bounded other before hbefore
  sent := fun other found hfound => by
    obtain ⟨before, hbefore, -, hstarted, -⟩ := update_answer hcall hfound
    exact hstarted ▸ h.sent other before hbefore
  newest := fun found hfound => by
    obtain ⟨before, hbefore, hetag, -⟩ := update_answer hcall hfound
    exact hetag.trans (h.newest before hbefore)
  answered := fun other found result hfound hresult => by
    obtain ⟨before, hbefore, hetag, hstarted, hkept | ⟨rfl, hnew⟩⟩ := update_answer hcall hfound
    · rw [hetag, hstarted]
      exact h.answered other before result hbefore (hkept ▸ hresult)
    · obtain rfl := Option.some.inj (hbefore.symm.trans hcall)
      rw [hetag, hstarted]
      exact hanswer result (Option.some.inj (hnew.symm.trans hresult))
  gate := by
    refine h.gate.trans ⟨fun ⟨before, hbefore⟩ => ?_, fun ⟨found, hfound⟩ => ?_⟩
    · by_cases hgeneration : view.store.pendingGeneration = generation
      · exact ⟨_, by
          show Function.update _ _ _ view.store.pendingGeneration = _
          rw [hgeneration, Function.update_self]⟩
      · exact ⟨before, (Function.update_of_ne hgeneration ..).trans hbefore⟩
    · obtain ⟨before, hbefore, -⟩ := update_answer hcall hfound
      exact ⟨before, hbefore⟩

theorem Attended.refresh (h : Attended sha256 logs view) : Attended sha256 logs view.refresh := by
  have hcalls : ∀ other found, view.refresh.refreshes other = some found →
      other = view.store.pendingGeneration + 1 ∧ found = ⟨view.store.pendingEtag, view.history, none⟩ ∨
        view.refreshes other = some found := by
    intro other found hfound
    by_cases hother : other = view.store.pendingGeneration + 1
    · subst hother
      have hself := (Function.update_self (view.store.pendingGeneration + 1) _ view.refreshes).symm.trans hfound
      exact .inl ⟨rfl, (Option.some.inj hself).symm⟩
    · exact .inr ((Function.update_of_ne hother ..).symm.trans hfound)
  have hnew : view.refresh.refreshes view.refresh.store.pendingGeneration =
      some ⟨view.store.pendingEtag, view.history, none⟩ := Function.update_self ..
  refine ⟨fun other found hfound => ?_, fun other found hfound => ?_, fun found hfound => ?_,
    fun other found result hfound hresult => ?_, iff_of_true rfl ⟨_, hnew⟩⟩
  · rcases hcalls other found hfound with ⟨rfl, -⟩ | hold
    · exact Nat.le_refl _
    · exact Nat.le_succ_of_le (h.bounded other found hold)
  · rcases hcalls other found hfound with ⟨-, rfl⟩ | hold
    · exact List.suffix_refl _
    · exact h.sent other found hold
  · obtain rfl := Option.some.inj (hnew.symm.trans hfound)
    rfl
  · rcases hcalls other found hfound with ⟨-, rfl⟩ | hold
    · cases hresult
    · exact h.answered other found result hold hresult

theorem Attended.arrive (h : Attended sha256 logs view) {answer : Except Thrown PendingDecisionsResult} :
    Attended sha256 logs (view.arrive generation answer) := by
  have hkept : (view.store.endRefresh generation answer).1.pendingGeneration = _ ∧ _ := endRefresh_kept
  obtain ⟨hgeneration, hgate⟩ := hkept
  have hcalls : ∀ other found, (view.arrive generation answer).refreshes other = some found →
      other ≠ generation ∧ view.refreshes other = some found := by
    intro other found hfound
    by_cases hother : other = generation
    · subst hother
      have hnone : none = some found := (Function.update_self (f := view.refreshes) ..).symm.trans hfound
      cases hnone
    · exact ⟨hother, (Function.update_of_ne hother ..).symm.trans hfound⟩
  have hstore : (view.arrive generation answer).store.pendingGeneration = view.store.pendingGeneration := hgeneration
  refine ⟨fun other found hfound => ?_, fun other found hfound => ?_, fun found hfound => ?_,
    fun other found result hfound hresult => ?_, ?_⟩
  · exact (h.bounded other found (hcalls other found hfound).2).trans_eq hstore.symm
  · exact h.sent other found (hcalls other found hfound).2
  · rw [hstore] at hfound
    obtain ⟨hother, hold⟩ := hcalls _ found hfound
    show _ = (view.store.endRefresh generation answer).1.pendingEtag
    rw [endRefresh_stale (Ne.symm hother)]
    exact h.newest found hold
  · exact h.answered other found result (hcalls other found hfound).2 hresult
  · show (view.store.endRefresh generation answer).1.refreshInFlight = true ↔ _
    rw [hgate, hstore]
    by_cases hnewest : generation = view.store.pendingGeneration
    · rw [if_pos hnewest]
      refine iff_of_false Bool.false_ne_true fun ⟨found, hfound⟩ => ?_
      exact (hcalls _ found hfound).1 hnewest.symm
    · rw [if_neg hnewest, h.gate]
      refine ⟨fun ⟨found, hold⟩ => ⟨found, ?_⟩, fun ⟨found, hfound⟩ => ⟨found, (hcalls _ found hfound).2⟩⟩
      exact (Function.update_of_ne (Ne.symm hnewest) ..).trans hold

/-- The history of the scheduler only grows. -/
theorem DecisionsStep.grows (hstep : DecisionsStep sha256 logs view next) : view.history <:+ next.history := by
  cases hstep with
  | served later => exact List.suffix_append later view.history
  | _ => exact List.suffix_refl _

theorem Attended.step (h : Attended sha256 logs view) (hstep : DecisionsStep sha256 logs view next) :
    Attended sha256 logs next := by
  cases hstep with
  | served later =>
      refine ⟨h.bounded, fun generation call hcall => ?_, h.newest, fun generation call result hcall hresult => ?_,
        h.gate⟩
      · exact (h.sent generation call hcall).trans (List.suffix_append later view.history)
      · obtain ⟨marked, scanned, hsince, horder, hpast, hresult⟩ := h.answered generation call result hcall hresult
        exact ⟨marked, scanned, hsince, horder, hpast.trans (List.suffix_append later view.history), hresult⟩
  | refresh => exact h.refresh
  | @answer generation call marked hcall hwaits hsent hmarked =>
      refine h.answer hcall fun result hresult => ?_
      exact ⟨marked, view.history, hsent, hmarked, List.suffix_refl _, (Except.ok.inj hresult).symm⟩
  | fail error hcall hwaits => exact h.answer hcall fun result hresult => by cases hresult
  | arrive => exact h.arrive
  | load => exact h.congr ⟨rfl, rfl, rfl, rfl, rfl, rfl⟩
  | answerLoad => exact h.congr ⟨rfl, rfl, rfl, rfl, rfl, rfl⟩
  | failLoad => exact h.congr ⟨rfl, rfl, rfl, rfl, rfl, rfl⟩
  | arriveLoad => exact h.congr (sameRefreshes_loads _ _ _)

/-- **No list is followed by one of an earlier moment.** -/
theorem Shows.step {marked scanned : History} (hshows : Shows sha256 logs base marked scanned view)
    (h : Attended sha256 logs view) (hlogged : Hashed sha256 logs next.history)
    (hstep : DecisionsStep sha256 logs view next) :
    ∃ marked scanned, Shows sha256 logs base marked scanned next := by
  have hany : Shown sha256 logs view := .inr ⟨marked, scanned, { hshows with since := List.nil_suffix }⟩
  -- an answer does not change when its call was sent
  have hanswer : ∀ {generation : Nat} {call : RefreshCall} (answer : Except Thrown PendingDecisionsResult),
      view.refreshes generation = some call →
        Shows sha256 logs base marked scanned (view.answer generation call answer) := by
    intro generation call answer hcall
    refine { hshows with newest := fun found hfound => ?_ }
    obtain ⟨before, hbefore, -, hstarted, -⟩ := update_answer hcall hfound
    exact hstarted ▸ hshows.newest before hbefore
  cases hstep with
  | served later =>
      exact ⟨marked, scanned, { hshows with past := hshows.past.trans (List.suffix_append later view.history) }⟩
  | refresh =>
      refine ⟨marked, scanned, { hshows with newest := fun found hfound => ?_ }⟩
      obtain rfl := Option.some.inj ((Function.update_self (f := view.refreshes) ..).symm.trans hfound)
      exact hshows.past
  | answer hcall => exact ⟨marked, scanned, hanswer _ hcall⟩
  | fail error hcall => exact ⟨marked, scanned, hanswer _ hcall⟩
  | @arrive generation call answer hcall hgiven =>
      by_cases hnewest : generation = view.store.pendingGeneration
      · subst hnewest
        cases answer with
        | error error =>
            refine ⟨marked, scanned, ?_⟩
            unfold DecisionsView.arrive
            rw [endRefresh_failed]
            refine { hshows with newest := fun found hfound => ?_ }
            have hnone : none = some found := (Function.update_self (f := view.refreshes) ..).symm.trans hfound
            cases hnone
        | ok result =>
            obtain ⟨marked', scanned', hshows'⟩ := h.applies hlogged hany hcall hgiven
            have hsent := hshows.newest call hcall
            exact ⟨marked', scanned', { hshows' with
              since := (hshows.since.trans (hshows.order.trans hsent)).trans hshows'.since }⟩
      · refine ⟨marked, scanned, ?_⟩
        unfold DecisionsView.arrive
        rw [endRefresh_stale hnewest]
        refine { hshows with newest := fun found hfound => ?_ }
        exact hshows.newest found ((Function.update_of_ne (Ne.symm hnewest) ..).symm.trans hfound)
  | load => exact ⟨marked, scanned, hshows.congr ⟨rfl, rfl, rfl, rfl, rfl, rfl⟩⟩
  | answerLoad => exact ⟨marked, scanned, hshows.congr ⟨rfl, rfl, rfl, rfl, rfl, rfl⟩⟩
  | failLoad => exact ⟨marked, scanned, hshows.congr ⟨rfl, rfl, rfl, rfl, rfl, rfl⟩⟩
  | arriveLoad => exact ⟨marked, scanned, hshows.congr (sameRefreshes_loads _ _ _)⟩

theorem Shown.step (hshown : Shown sha256 logs view) (h : Attended sha256 logs view)
    (hlogged : Hashed sha256 logs next.history)
    (hstep : DecisionsStep sha256 logs view next) : Shown sha256 logs next := by
  rcases hshown with hnone | ⟨marked, scanned, hshows⟩
  · cases hstep with
    | @arrive generation call answer hcall hgiven =>
        by_cases happlied : (view.store.endRefresh generation answer).2 = .applied
        · obtain ⟨rfl, result, rfl⟩ := newest_of_applied happlied
          obtain ⟨marked, scanned, hshows⟩ := h.applies hlogged (.inl hnone) hcall hgiven
          exact .inr ⟨marked, scanned, { hshows with since := List.nil_suffix }⟩
        · exact .inl ((etag_of_not_applied happlied).trans hnone)
    | arriveLoad => exact .inl ((endLoad_same _ _).2.1.trans hnone)
    | _ => exact .inl hnone
  · obtain ⟨marked, scanned, hshows⟩ := hshows.step h hlogged hstep
    exact .inr ⟨marked, scanned, hshows⟩

/-! ### Whole runs -/

theorem DecisionsRun.grows (hrun : DecisionsRun sha256 logs view next) : view.history <:+ next.history := by
  induction hrun with
  | refl => exact List.suffix_refl _
  | step _ hstep ih => exact ih.trans hstep.grows

theorem DecisionsRun.attended (hrun : DecisionsRun sha256 logs view next) (h : Attended sha256 logs view) :
    Attended sha256 logs next := by
  induction hrun with
  | refl => exact h
  | step _ hstep ih => exact ih.step hstep

theorem DecisionsRun.shown (hrun : DecisionsRun sha256 logs view next) (h : Attended sha256 logs view)
    (hlogged : Hashed sha256 logs next.history) (hshown : Shown sha256 logs view) :
    Shown sha256 logs next := by
  induction hrun with
  | refl => exact hshown
  | step hrun hstep ih => exact (ih (hlogged.of_suffix hstep.grows)).step (hrun.attended h) hlogged hstep

theorem DecisionsRun.shows (hrun : DecisionsRun sha256 logs view next) (h : Attended sha256 logs view)
    (hlogged : Hashed sha256 logs next.history)
    (hshows : ∃ marked scanned, Shows sha256 logs base marked scanned view) :
    ∃ marked scanned, Shows sha256 logs base marked scanned next := by
  induction hrun with
  | refl => exact hshows
  | step hrun hstep ih =>
      obtain ⟨marked, scanned, hbefore⟩ := ih (hlogged.of_suffix hstep.grows)
      exact hbefore.step (hrun.attended h) hlogged hstep

end Refreshes

/-- The events of a history, as they are stored. -/
def storedLog (moment : History) : EventLog where
  rows := ((current moment).events.rows.filter fun row => 0 < row.id ∧ row.id ≤ maxRowId).map EventRow.stored
  ascending := by
    refine List.pairwise_map.mpr (List.Pairwise.filter _ ?_)
    exact List.pairwise_map.mp (current moment).events.ascending
  keys := fun row hrow => by
    obtain ⟨event, hevent, rfl⟩ := List.mem_map.mp hrow
    exact of_decide_eq_true (List.mem_filter.mp hevent).2

/-- As long as the ids last, every event is stored. -/
theorem mirrors_storedLog {now : History} (h : Reachable now) (hroom : (current now).events.next ≤ maxRowId) :
    ∀ moment, moment <:+ now → Mirrors (current moment) (storedLog moment) := by
  rintro moment ⟨later, rfl⟩
  have hmoment : Reachable moment := h.of_suffix (List.suffix_append later moment)
  refine congrArg (List.map EventRow.stored) (List.filter_eq_self.mpr fun row hrow => decide_eq_true ?_)
  obtain ⟨hfirst, hlast⟩ := hmoment.recorded_bounds.2 row (recorded_of_mem hrow)
  have hnext := next_mono h
  omega

/-- The scheduler goes on to a later moment. -/
theorem served_to {sha256 : String → String} {logs : History → EventLog} {view : DecisionsView} {moment : History}
    (h : view.history <:+ moment) : DecisionsStep sha256 logs view { view with history := moment } := by
  obtain ⟨later, rfl⟩ := h
  exact .served later

/-- The client once a decision has been raised, before it asks. -/
def unasked : DecisionsView := { DecisionsView.start with history := assignedHistory.drop 3 }

/-- It asks, and the log is scanned while the execution is assigned. -/
def askedOnce : DecisionsView := { unasked.refresh with history := assignedHistory.drop 2 }

def firstAnswer : PendingDecisionsResult :=
  pendingResult (pendingResponse checksum (current (assignedHistory.drop 3)) (current (assignedHistory.drop 2))
    (storedLog (assignedHistory.drop 2)) none none)

/-- Once that has been assigned it asks again, with the validator it has got. -/
def askedTwice : DecisionsView :=
  { (askedOnce.answer 1 ⟨none, assignedHistory.drop 3, none⟩ (.ok firstAnswer)).arrive 1 (.ok firstAnswer) with
    history := assignedHistory }.refresh

end AgentBeacon.Web
