import AgentBeacon.System.Tree

/-!
# `System.Log` — the event log over a whole history

An event is logged once, under an id that is never drawn again, and the events of a root session are
never deleted. An escalation is only ever recorded by the transaction that escalates, for the root of
its execution.
-/

namespace AgentBeacon
open Relational Transaction Interleave Transition Resolution

/-! ## What has been recorded -/

/-- The event stands in the log, or did at an earlier point of the history. -/
def Recorded (history : History) (row : EventRow) : Prop :=
  ∃ earlier, earlier <:+ history ∧ row ∈ (current earlier).events.rows

theorem recorded_of_mem {history : History} {row : EventRow}
    (h : row ∈ (current history).events.rows) : Recorded history row :=
  ⟨history, List.suffix_refl _, h⟩

theorem Recorded.mono {history history' : History} {row : EventRow} (h : Recorded history row)
    (hs : history <:+ history') : Recorded history' row := by
  obtain ⟨earlier, hsuffix, hrow⟩ := h
  exact ⟨earlier, hsuffix.trans hs, hrow⟩

theorem recorded_cons {e : Event scheduler} {history : History} {row : EventRow} :
    Recorded (e :: history) row ↔ row ∈ (after e).events.rows ∨ Recorded history row := by
  constructor
  · rintro ⟨earlier, hs, hrow⟩
    rcases List.suffix_cons_iff.mp hs with rfl | hs
    · exact .inl hrow
    · exact .inr ⟨earlier, hs, hrow⟩
  · rintro (hrow | hrow)
    · exact recorded_of_mem hrow
    · exact hrow.mono (List.suffix_cons _ _)

namespace Reachable

variable {history : History}

/-- What one call adds to the log. -/
theorem call_logged [Start scheduler] {e : Event scheduler} (h : Reachable (e :: history)) :
    (current history).events.next ≤ (after e).events.next ∧ ∀ row ∈ (after e).events.rows,
      row ∈ (current history).events.rows ∨ (current history).events.next ≤ row.id ∧
        ∃ w, e.op = Op.write w ∧ (w.permit (envOf e)).log row := by
  obtain ⟨-, hbefore, -⟩ := h.of_cons
  rcases call_effect e with ⟨w, hw, hsteps⟩ | hsame
  · rw [hbefore] at hsteps
    obtain ⟨hnext, hrows⟩ := hsteps.logged
    exact ⟨hnext, fun row hrow => (hrows row hrow).imp_right fun ⟨hid, hlog⟩ => ⟨hid, w, hw, hlog⟩⟩
  · rw [hsame, hbefore]
    exact ⟨Nat.le_refl _, fun row hrow => .inl hrow⟩

/-- Ids are drawn from `1` on, and every recorded id has been drawn. -/
theorem recorded_bounds (h : Reachable history) : 1 ≤ (current history).events.next ∧
    ∀ row, Recorded history row → 1 ≤ row.id ∧ row.id < (current history).events.next := by
  induction history with
  | nil =>
      refine ⟨Nat.le_refl _, fun row hrow => ?_⟩
      obtain ⟨earlier, hs, hmem⟩ := hrow
      rw [List.suffix_nil.mp hs] at hmem
      cases hmem
  | cons e history ih =>
      obtain ⟨hfirst, hrows⟩ := ih h.of_cons.1
      obtain ⟨hnext, hnew⟩ := h.call_logged
      refine ⟨hfirst.trans hnext, fun row hrow => ?_⟩
      rcases recorded_cons.mp hrow with hrow | hrow
      · refine ⟨?_, (after e).events.bounded row hrow⟩
        rcases hnew row hrow with hold | ⟨hid, -⟩
        · exact (hrows row (recorded_of_mem hold)).1
        · exact hfirst.trans hid
      · exact ⟨(hrows row hrow).1, (hrows row hrow).2.trans_le hnext⟩

end Reachable

/-! ## What a call does to a root -/

/-- A deletion takes a session and what lies below it, or nothing. -/
theorem deleteSession_effect (id : SessionId) (env : Env) (db : Db) :
    ((Write.deleteSession id).run env db).2 = db ∨
      ∃ n, ((Write.deleteSession id).run env db).2 = db.deleteSessions (db.subtree n [id]) := by
  refine scheduling_post (m := fun _ => Creation.deleteSession id)
    (P := fun _ db' => db' = db ∨ ∃ n, db' = db.deleteSessions (db.subtree n [id]))
    (fun _ _ => .inl rfl) ?_
  unfold Creation.deleteSession
  refine Tx.seq_read (Tx.seq_require (fun _ => ?_) fun _ => .inl rfl)
  exact Tx.seq_write (.inr ⟨_, rfl⟩)

/-- Only `deleteSession` deletes. -/
theorem not_delete {w : Write} {env : Env} (h : ∀ id, w ≠ .deleteSession id) (db : Db)
    (ids : List SessionId) : ¬(w.permit env).delete db ids := fun ⟨id, hw, _⟩ => h id hw

section Roots

variable {e : Event scheduler} {history : History}

/-- **A call deletes no root**: its row is updated at most, and its events stay. -/
theorem call_root_stays (h : Trace disciplined (e :: history)) {id : SessionId} {s : Session}
    (hs : (current history).session? id = some s) (hroot : s.parentSessionId = none) :
    (∃ s', (after e).session? id = some s' ∧ s'.parentSessionId = none) ∧
      ∀ row ∈ (current history).events.rows, row.sessionId = some id →
        row ∈ (after e).events.rows := by
  have hreach := reachable_of_trace h
  obtain ⟨hr, hbefore, -⟩ := hreach.of_cons
  rcases call_effect e with ⟨w, hw, hsteps⟩ | hsame
  · by_cases hdel : ∃ id', w = .deleteSession id'
    · obtain ⟨id', rfl⟩ := hdel
      have hproper : Delegated history id' := h.of_cons.2.1 _ hw
      rw [after_write hw, hbefore]
      rcases deleteSession_effect id' (envOf e) (current history) with hsame | ⟨n, hgone⟩
      · rw [hsame]
        exact ⟨⟨s, hs, hroot⟩, fun row hrow _ => hrow⟩
      · -- the root is neither the delegated session nor below it
        have hout : id ∉ (current history).subtree n [id'] := by
          intro hmem
          rcases mem_subtree hmem with hself | ⟨s', hs', hid, hparent⟩
          · refine hr.parent_of_delegated hproper s (Db.mem_of_session? hs) ?_ hroot
            rw [Db.id_of_session? hs]
            exact List.mem_singleton.mp hself
          · have hrow := Db.session?_of_mem hs'
            rw [hid, hs] at hrow
            exact hparent ((Option.some.inj hrow) ▸ hroot)
        rw [hgone]
        refine ⟨⟨s, ?_, hroot⟩, fun row hrow hid => ?_⟩
        · rw [Db.session?_deleteSessions, if_neg hout]; exact hs
        · exact List.mem_filter.mpr ⟨hrow, by simp [hid, hout]⟩
    · have hno : ∀ db ids, ¬(w.permit (envOf e)).delete db ids :=
        not_delete fun id' hdelete => hdel ⟨id', hdelete⟩
      rw [hbefore] at hsteps
      obtain ⟨s', hs', hrow⟩ := hsteps.session_stays hno hs
      exact ⟨⟨s', hs', hrow.identity.2.2.1.trans hroot⟩, fun row hrow _ => hsteps.event_stays hno hrow⟩
  · rw [hsame, hbefore]
    exact ⟨⟨s, hs, hroot⟩, fun row hrow _ => hrow⟩

/-- **A root that has been seen is still there.** -/
theorem root_stays (h : Trace disciplined history) {s : Session} (hs : Seen history s)
    (hroot : s.parentSessionId = none) :
    ∃ s', (current history).session? s.id = some s' ∧ s'.parentSessionId = none := by
  induction history with
  | nil => obtain ⟨e, he, -⟩ := hs; cases he
  | cons e history ih =>
      obtain ⟨-, hbefore, -⟩ := (reachable_of_trace h).of_cons
      have hprev : ∃ s', (current history).session? s.id = some s' ∧ s'.parentSessionId = none := by
        obtain ⟨e', he', hrow⟩ := hs
        rcases List.mem_cons.mp he' with rfl | he'
        · rw [hbefore] at hrow
          exact ⟨s, Db.session?_of_mem hrow, hroot⟩
        · exact ih h.of_cons.1 ⟨e', he', hrow⟩
      obtain ⟨s', hs', hroot'⟩ := hprev
      exact (call_root_stays h hs' hroot').1

/-- **The events of a root stay**, whatever is called after them. -/
theorem root_events_stay {later : History} (h : Trace disciplined (later ++ history)) {s : Session}
    (hs : (current history).session? s.id = some s) (hroot : s.parentSessionId = none) {row : EventRow}
    (hrow : row ∈ (current history).events.rows) (hid : row.sessionId = some s.id) :
    row ∈ (current (later ++ history)).events.rows := by
  suffices hall : (∃ s', (current (later ++ history)).session? s.id = some s' ∧
      s'.parentSessionId = none) ∧ row ∈ (current (later ++ history)).events.rows from hall.2
  induction later with
  | nil => exact ⟨⟨s, hs, hroot⟩, hrow⟩
  | cons e later ih =>
      obtain ⟨⟨s', hs', hroot'⟩, hmem⟩ := ih h.of_cons.1
      obtain ⟨hstays, hevents⟩ := call_root_stays h hs' hroot'
      exact ⟨hstays, hevents row hmem hid⟩

end Roots

end AgentBeacon
