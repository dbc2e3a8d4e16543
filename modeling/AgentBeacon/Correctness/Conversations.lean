import AgentBeacon.Correctness.Columns
import AgentBeacon.System.Continuation

/-!
# `Correctness.Conversations` — one owner per SDK conversation

A conversation comes to a session by a run of its executor, or from the session it continues; it leaves
with the continuation. As long as what is written, a reported conversation or one to resume, is one that
the session has not handed on, no two sessions hold the same. But a report is only asked who its worker is, and an
assignment resumes what its caller has read: either may bring back a conversation that has moved on.
-/

namespace AgentBeacon
open Relational Transaction Interleave

/-! ## What a call does with conversations -/

/-- The assignment that a call makes: of which session, and which conversation it is to resume. -/
def assigned (e : Event scheduler) : Option (SessionId × Option String) :=
  match (e.op : Op) with
  | .write (.issueAssign session resume _) =>
      if ((after e).session? session.id).any fun s => s.commandToken = some (envOf e).uuid then
        some (session.id, if resume then session.agentSessionId else none)
      else none
  | _ => none

/-- The conversation that a call sets as a worker has reported it. -/
def reported (e : Event scheduler) : Option (SessionId × String) :=
  match (e.op : Op) with
  | .write (.updateAgentSessionId id agentSessionId workerId) =>
      if ((before e).session? id).any fun s => s.workerId = some workerId then
        some (id, agentSessionId)
      else none
  | _ => none

/-- A conversation that goes from a session to the one that continues it. -/
structure Transfer where
  holder : SessionId
  heir : SessionId
  conversation : String

/-- The conversation that a call hands on. -/
def handedOn (e : Event scheduler) : Option Transfer :=
  match (e.op : Op) with
  | .write (.continueFrom old _ resumable _) =>
      if (before e).session? (envOf e).uuid = none ∧ (after e).session? (envOf e).uuid ≠ none ∧ resumable then
        ((before e).session? old.id).bind fun row => row.agentSessionId.map fun conversation =>
          { holder := old.id, heir := (envOf e).uuid, conversation }
      else none
  | _ => none

section Executors

-- the conversation of the run that an assignment starts, by its token, if nothing is to be resumed
variable (fresh : String → String)

/-- The run that a call starts: the session, and the conversation its executor will report. -/
def startedBy (e : Event scheduler) : Option (SessionId × String) :=
  (assigned e).map fun run => (run.1, run.2.getD (fresh (envOf e).uuid))

/-- The session has run the conversation or continued its holder, and has not handed it on since. -/
def Retains : History → SessionId → String → Prop
  | [], _, _ => False
  | e :: earlier, id, conversation =>
      startedBy fresh e = some (id, conversation) ∨
      (∃ t ∈ handedOn e, t.heir = id ∧ t.conversation = conversation) ∨
      Retains earlier id conversation ∧ ∀ t ∈ handedOn e, ¬(t.holder = id ∧ t.conversation = conversation)

instance decidableRetains : ∀ history id conversation, Decidable (Retains fresh history id conversation)
  | [], _, _ => inferInstanceAs (Decidable False)
  | _ :: earlier, id, conversation =>
      have := decidableRetains earlier id conversation
      inferInstanceAs (Decidable (_ ∨ _ ∨ _ ∧ _))

/-- Every conversation that is reported is that of a run of the session. -/
def Honest : History → Prop
  | [] => True
  | e :: earlier =>
      (∀ report ∈ reported e, ∃ run ∈ earlier, startedBy fresh run = some report) ∧ Honest earlier

instance decidableHonest : ∀ history, Decidable (Honest fresh history)
  | [] => inferInstanceAs (Decidable True)
  | _ :: earlier =>
      have := decidableHonest earlier
      inferInstanceAs (Decidable (_ ∧ _))

/-- Every conversation that is reported or to be resumed is one that the session has not handed on. -/
def InTurn : History → Prop
  | [] => True
  | e :: earlier =>
      (∀ report ∈ reported e, Retains fresh earlier report.1 report.2) ∧
      (∀ run ∈ assigned e, ∀ conversation ∈ run.2, Retains fresh earlier run.1 conversation) ∧
      InTurn earlier

instance decidableInTurn : ∀ history, Decidable (InTurn fresh history)
  | [] => inferInstanceAs (Decidable True)
  | _ :: earlier =>
      have := decidableInTurn earlier
      inferInstanceAs (Decidable (_ ∧ _ ∧ _))

end Executors

/-! ## Rows -/

/-- Only a report and a continuation give a session a conversation. -/
theorem SessionUpdate.apply_agentSessionId (u : SessionUpdate) (s : Session) :
    (u.apply s).agentSessionId = s.agentSessionId ∨ (u.apply s).agentSessionId = none ∨
      (∃ conversation, u = .takeAgentSession conversation) ∨
      ∃ conversation worker, u = .setAgentSessionId conversation worker ∧ s.workerId = some worker ∧
        (u.apply s).agentSessionId = some conversation := by
  unfold apply
  split
  · rename_i hmatches
    cases u with
    | takeAgentSession c => exact .inr (.inr (.inl ⟨c, rfl⟩))
    | dropAgentSession c => exact .inr (.inl rfl)
    | setAgentSessionId c worker =>
        exact .inr (.inr (.inr ⟨c, worker, rfl, of_decide_eq_true hmatches, rfl⟩))
    | recover clear =>
        cases clear with
        | true => exact .inr (.inl rfl)
        | false => exact .inl rfl
    | _ => exact .inl rfl
  · exact .inl rfl

/-- Where a row has its conversation from, if the transaction is no continuation. -/
theorem Db.RowSteps.agentSessionId {w : Write} {env : Env} {s s' : Session}
    (h : Db.RowSteps (w.permit env) s s')
    (hno : ∀ old parentId resumable parts, w ≠ .continueFrom old parentId resumable parts)
    {conversation : String} (hheld : s'.agentSessionId = some conversation) :
    s.agentSessionId = some conversation ∨
      ∃ worker, w = .updateAgentSessionId s.id conversation worker ∧ s.workerId = some worker := by
  have hkept : s'.id = s.id ∧
      ((∃ id c worker, w = .updateAgentSessionId id c worker) → s'.workerId = s.workerId) ∧
      (s'.agentSessionId = some conversation → s.agentSessionId = some conversation ∨
        ∃ worker, w = .updateAgentSessionId s.id conversation worker ∧ s.workerId = some worker) := by
    refine h.keeps (I := fun t => t.id = s.id ∧
      ((∃ id c worker, w = .updateAgentSessionId id c worker) → t.workerId = s.workerId) ∧
      (t.agentSessionId = some conversation → s.agentSessionId = some conversation ∨
        ∃ worker, w = .updateAgentSessionId s.id conversation worker ∧ s.workerId = some worker))
      ⟨rfl, fun _ => rfl, .inl⟩ fun t u hu ht => ?_
    obtain ⟨hid, hworker, hold⟩ := ht
    refine ⟨(u.apply_identity t).1.trans hid, fun hreport => ?_, fun hnow => ?_⟩
    · obtain ⟨id, c, worker, rfl⟩ := hreport
      rw [← hworker ⟨id, c, worker, rfl⟩]
      unfold SessionUpdate.apply
      split
      · cases u <;> first
          | rfl
          | (simp [Write.permit, Write.updates] at hu)
      · rfl
    · rcases u.apply_agentSessionId t with hsame | hnone | ⟨c, rfl⟩ | ⟨c, worker, rfl, howned, hset⟩
      · exact hold (hsame.symm.trans hnow)
      · rw [hnone] at hnow
        cases hnow
      · obtain ⟨old, parentId, resumable, parts, hw⟩ := hu
        exact absurd hw (hno old parentId resumable parts)
      · obtain rfl := Option.some.inj (hset.symm.trans hnow)
        have hw : w = .updateAgentSessionId t.id c worker := hu
        right
        refine ⟨worker, by rw [← hid]; exact hw, ?_⟩
        rw [← hworker ⟨_, _, _, hw⟩]
        exact howned
  exact hkept.2.2 hheld

/-! ## Who has which conversation -/

variable {fresh : String → String} {history : History} {e : Event scheduler} {id id' : SessionId}
  {conversation : String}

theorem handedOn_of_same (h : after e = before e) : handedOn e = none := by
  unfold handedOn
  split
  · rw [h]
    exact if_neg fun hnew => hnew.2.1 hnew.1
  · rfl

theorem handedOn_of_not_continue {w : Write} (hw : e.op = Op.write w)
    (hno : ∀ old parentId resumable parts, w ≠ .continueFrom old parentId resumable parts) :
    handedOn e = none := by
  unfold handedOn
  split
  · rename_i old parentId resumable parts hop
    obtain rfl := Op.write.inj (hw.symm.trans hop)
    exact absurd rfl (hno old parentId resumable parts)
  · rfl

/-- What a continuation makes of the conversations. -/
theorem retains_of_continuation {old : Session} {parentId : SessionId} {resumable : Bool}
    {parts : List Json} (hw : e.op = Op.write (.continueFrom old parentId resumable parts))
    (hprev : ∀ s ∈ (before e).sessions.rows, s.agentSessionId = some conversation →
      Retains fresh history s.id conversation)
    {s : Session} (hs : s ∈ (after e).sessions.rows) (hheld : s.agentSessionId = some conversation) :
    Retains fresh (e :: history) s.id conversation := by
  obtain ⟨caller, op, input, pre⟩ := e
  obtain rfl : op = Op.write (.continueFrom old parentId resumable parts) := hw
  rcases continueFrom_spec input old parentId resumable parts (Store.db pre) with
    hsame | ⟨-, hfresh, row, hrow, hholdings⟩
  · have hdb : after ⟨caller, .write (.continueFrom old parentId resumable parts), input, pre⟩ =
        before ⟨caller, .write (.continueFrom old parentId resumable parts), input, pre⟩ := hsame
    rw [hdb] at hs
    refine .inr (.inr ⟨hprev s hs hheld, ?_⟩)
    rw [handedOn_of_same hdb]
    simp
  · have hnow : (after ⟨caller, .write (.continueFrom old parentId resumable parts), input,
        pre⟩).holdings s.id = handedOver (Store.db pre) old row input.uuid resumable s.id :=
      congrFun hholdings s.id
    rw [Db.holdings_of_session? (Db.session?_of_mem hs)] at hnow
    have hnew : input.uuid ≠ old.id := by
      intro heq
      rw [heq, hrow] at hfresh
      cases hfresh
    unfold handedOver at hnow
    by_cases hheir : s.id = input.uuid
    · rw [if_pos hheir] at hnow
      have hgiven : s.agentSessionId = if resumable then row.agentSessionId else none :=
        congrArg Holdings.agentSessionId (Option.some.inj hnow)
      cases resumable with
      | false =>
          rw [hheld] at hgiven
          cases hgiven
      | true =>
          have hrowHeld : row.agentSessionId = some conversation := hgiven.symm.trans hheld
          refine .inr (.inl ⟨⟨old.id, input.uuid, conversation⟩, ?_, hheir.symm, rfl⟩)
          have hinserted : (after ⟨caller, .write (.continueFrom old parentId true parts), input,
              pre⟩).session? input.uuid ≠ none := by
            rw [← hheir, Db.session?_of_mem hs]
            simp
          show (if _ then _ else none) = _
          rw [if_pos ⟨hfresh, hinserted, rfl⟩]
          show ((Store.db pre).session? old.id).bind _ = _
          rw [hrow, Option.bind_some, hrowHeld]
          rfl
    · rw [if_neg hheir] at hnow
      by_cases hold : s.id = old.id
      · rw [if_pos hold] at hnow
        have hgiven : s.agentSessionId = if resumable then none else row.agentSessionId :=
          congrArg Holdings.agentSessionId (Option.some.inj hnow)
        cases resumable with
        | true =>
            rw [hheld] at hgiven
            cases hgiven
        | false =>
            have hrowHeld : row.agentSessionId = some conversation := hgiven.symm.trans hheld
            refine .inr (.inr ⟨?_, ?_⟩)
            · have hretained := hprev row (Db.mem_of_session? hrow) hrowHeld
              rw [Db.id_of_session? hrow, ← hold] at hretained
              exact hretained
            · intro t ht
              have hnone : handedOn ⟨caller, .write (.continueFrom old parentId false parts), input,
                  pre⟩ = none := if_neg (by simp)
              rw [hnone] at ht
              cases ht
      · rw [if_neg hold] at hnow
        obtain ⟨s₀, hs₀, hsame⟩ := Option.map_eq_some_iff.mp hnow.symm
        have hheld₀ : s₀.agentSessionId = some conversation :=
          (congrArg Holdings.agentSessionId hsame).trans hheld
        refine .inr (.inr ⟨?_, ?_⟩)
        · have hretained := hprev s₀ (Db.mem_of_session? hs₀) hheld₀
          rw [Db.id_of_session? hs₀] at hretained
          exact hretained
        · rintro t ht ⟨hholder, -⟩
          have hthis : t.holder = old.id := by
            have hmem : (if _ then _ else none) = some t := ht
            split at hmem
            · obtain ⟨row', -, hmap⟩ := Option.bind_eq_some_iff.mp hmem
              obtain ⟨c, -, rfl⟩ := Option.map_eq_some_iff.mp hmap
              rfl
            · cases hmem
          exact hold (hholder.symm.trans hthis)

/-- **Every session retains the conversation of its row.** -/
theorem retains_of_row (h : Reachable history) (hturn : InTurn fresh history) :
    ∀ s ∈ (current history).sessions.rows, s.agentSessionId = some conversation →
      Retains fresh history s.id conversation := by
  induction history with
  | nil =>
      intro s hs
      cases hs
  | cons e history ih =>
      obtain ⟨hearlier, hbefore, -⟩ := h.of_cons
      obtain ⟨hreported, -, hturn'⟩ := hturn
      have hprev := ih hearlier hturn'
      rw [← hbefore] at hprev
      intro s hs hheld
      have hkept : ∀ id, handedOn e = none → Retains fresh history id conversation →
          Retains fresh (e :: history) id conversation := by
        intro id hnone hretained
        refine .inr (.inr ⟨hretained, ?_⟩)
        rw [hnone]
        simp
      rcases call_effect e with ⟨w, hw, hsteps⟩ | hsame
      · by_cases hcontinue : ∃ old parentId resumable parts, w = .continueFrom old parentId resumable parts
        · obtain ⟨old, parentId, resumable, parts, rfl⟩ := hcontinue
          exact retains_of_continuation hw hprev hs hheld
        · have hno : ∀ old parentId resumable parts, w ≠ .continueFrom old parentId resumable parts :=
            fun old parentId resumable parts heq => hcontinue ⟨old, parentId, resumable, parts, heq⟩
          rcases hsteps.descends hs with ⟨s₀, hs₀, hrow⟩ | ⟨row, hinserted, hrow⟩
          · have hid : s.id = s₀.id := hrow.identity.1
            rw [hid]
            refine hkept s₀.id (handedOn_of_not_continue hw hno) ?_
            rcases hrow.agentSessionId hno hheld with hold | ⟨worker, rfl, howned⟩
            · exact hprev s₀ (Db.mem_of_session? hs₀) hold
            · refine hreported (s₀.id, conversation) ?_
              have hfound : ((before e).session? s₀.id).any fun s => s.workerId = some worker := by
                rw [← hid, hs₀]
                exact decide_eq_true howned
              unfold reported
              rw [hw]
              exact if_pos hfound
          · -- a session is inserted without a conversation
            rcases hrow.agentSessionId hno hheld with hold | ⟨worker, rfl, -⟩
            · obtain ⟨_, _, _, _, _, _, _, _, rfl, -⟩ := hinserted
              cases hold
            · obtain ⟨_, _, _, _, _, _, _, _, -, hins⟩ := hinserted
              simp at hins
      · have hrow : s ∈ (before e).sessions.rows := hsame ▸ hs
        exact hkept s.id (handedOn_of_same hsame) (hprev s hrow hheld)

/-- Where a session has a conversation from: it had it and has not handed it on, it is the heir of one that had it, or
its run is new. -/
theorem retains_cons (h : Reachable (e :: history)) (hturn : InTurn fresh (e :: history))
    (hretains : Retains fresh (e :: history) id conversation) :
    (Retains fresh history id conversation ∧
        ∀ t ∈ handedOn e, ¬(t.holder = id ∧ t.conversation = conversation)) ∨
      (∃ t ∈ handedOn e, t.heir = id ∧ t.conversation = conversation ∧
        Retains fresh history t.holder conversation) ∨
      (∃ w, e.op = Op.write w) ∧ assigned e = some (id, none) ∧
        conversation = fresh (envOf e).uuid := by
  obtain ⟨hearlier, hbefore, -⟩ := h.of_cons
  obtain ⟨-, hresumed, hturn'⟩ := hturn
  rcases hretains with hstarted | ⟨t, ht, rfl, rfl⟩ | hkept
  · obtain ⟨⟨id₀, resumes⟩, hassigned, hrun⟩ := Option.map_eq_some_iff.mp hstarted
    obtain ⟨rfl, rfl⟩ := Prod.mk.inj hrun
    have hop : ∃ session resume worker, e.op = Op.write (.issueAssign session resume worker) := by
      unfold assigned at hassigned
      split at hassigned
      · rename_i session resume worker hop
        exact ⟨session, resume, worker, hop⟩
      · cases hassigned
    obtain ⟨session, resume, worker, hop⟩ := hop
    cases resumes with
    | none => exact .inr (.inr ⟨⟨_, hop⟩, hassigned, rfl⟩)
    | some c =>
        refine .inl ⟨hresumed _ hassigned c rfl, ?_⟩
        rw [handedOn_of_not_continue hop (by simp)]
        simp
  · refine .inr (.inl ⟨t, ht, rfl, rfl, ?_⟩)
    -- what is handed on is what the row of the holder names
    have hrow : ∃ row, (before e).session? t.holder = some row ∧
        row.agentSessionId = some t.conversation := by
      unfold handedOn at ht
      split at ht
      · split at ht
        · obtain ⟨row, hrow, hmap⟩ := Option.bind_eq_some_iff.mp ht
          obtain ⟨c, hc, rfl⟩ := Option.map_eq_some_iff.mp hmap
          exact ⟨row, hrow, hc⟩
        · cases ht
      · cases ht
    obtain ⟨row, hrow, hheld⟩ := hrow
    rw [hbefore] at hrow
    have hretained := retains_of_row hearlier hturn' row (Db.mem_of_session? hrow) hheld
    rw [Db.id_of_session? hrow] at hretained
    exact hretained
  · exact .inl hkept

/-- Every conversation is that of a run whose token has been drawn. -/
theorem drawn_of_retains (h : Reachable history) (hturn : InTurn fresh history)
    (hretains : Retains fresh history id conversation) :
    ∃ token ∈ drawnIn history, conversation = fresh token := by
  induction history generalizing id with
  | nil => exact hretains.elim
  | cons e history ih =>
      obtain ⟨hmono, hdraws⟩ := h.drawn_cons
      have hold : ∀ id, Retains fresh history id conversation →
          ∃ token ∈ drawnIn (e :: history), conversation = fresh token := by
        intro id hretained
        obtain ⟨token, htoken, heq⟩ := ih h.of_cons.1 hturn.2.2 hretained
        exact ⟨token, hmono htoken, heq⟩
      rcases retains_cons h hturn hretains with ⟨hkept, -⟩ | ⟨t, -, -, -, hholder⟩ | ⟨⟨w, hw⟩, -, hnew⟩
      · exact hold id hkept
      · exact hold t.holder hholder
      · exact ⟨(envOf e).uuid, hdraws w hw, hnew⟩

/-- **A conversation is retained by one session.** -/
theorem retains_unique (hfresh : Function.Injective fresh) (h : Reachable history)
    (hturn : InTurn fresh history) (hretains : Retains fresh history id conversation)
    (hretains' : Retains fresh history id' conversation) : id = id' := by
  induction history generalizing id id' with
  | nil => exact hretains.elim
  | cons e history ih =>
      obtain ⟨hearlier, -, hundrawn⟩ := h.of_cons
      have hone : ∀ {id id'}, Retains fresh history id conversation →
          Retains fresh history id' conversation → id = id' := ih hearlier hturn.2.2
      -- a new run has a conversation that nobody had
      have hnew : ∀ {id}, (∃ w, e.op = Op.write w) → conversation = fresh (envOf e).uuid →
          ¬Retains fresh history id conversation := by
        rintro id ⟨w, hw⟩ heq hretained
        obtain ⟨token, htoken, heq'⟩ := drawn_of_retains hearlier hturn.2.2 hretained
        have hsame : token = (envOf e).uuid := hfresh (heq'.symm.trans heq)
        exact hundrawn w hw (hsame ▸ htoken)
      rcases retains_cons h hturn hretains with
        ⟨hkept, hnot⟩ | ⟨t, ht, rfl, rfl, hholder⟩ | ⟨hw, hassigned, heq⟩
      · rcases retains_cons h hturn hretains' with
          ⟨hkept', -⟩ | ⟨t, ht, -, hconversation, hholder⟩ | ⟨hw, -, heq⟩
        · exact hone hkept hkept'
        · exact absurd ⟨hone hholder hkept, hconversation⟩ (hnot t ht)
        · exact absurd hkept (hnew hw heq)
      · rcases retains_cons h hturn hretains' with
          ⟨hkept', hnot⟩ | ⟨t', ht', hheir, -, -⟩ | ⟨hw, -, heq⟩
        · exact absurd ⟨hone hholder hkept', rfl⟩ (hnot t ht)
        · obtain rfl := Option.some.inj (ht.symm.trans ht')
          exact hheir
        · exact absurd hholder (hnew hw heq)
      · rcases retains_cons h hturn hretains' with
          ⟨hkept', -⟩ | ⟨t, -, -, -, hholder⟩ | ⟨-, hassigned', -⟩
        · exact absurd hkept' (hnew hw heq)
        · exact absurd hholder (hnew hw heq)
        · exact congrArg Prod.fst (Option.some.inj (hassigned.symm.trans hassigned'))

/-- No two sessions that can be assigned hold one conversation. -/
def OneConversation (db : Db) : Prop :=
  ∀ s ∈ db.sessions.rows, ∀ s' ∈ db.sessions.rows, ∀ conversation ∈ s.agentSessionId,
    s.outcome = none → s'.outcome = none → s'.agentSessionId = some conversation → s.id = s'.id

instance (db : Db) : Decidable (OneConversation db) :=
  inferInstanceAs (Decidable (∀ s ∈ db.sessions.rows, ∀ s' ∈ db.sessions.rows,
    ∀ conversation ∈ s.agentSessionId, _))

/-- **One owner per SDK conversation.** Executors report distinct conversations for distinct fresh runs. In
every run of the scheduler in which every conversation that a worker's report sets, and every one that an
assignment resumes, is one that the session has not handed on, no two sessions that can be assigned
hold one conversation. -/
theorem one_owner_per_conversation (hfresh : Function.Injective fresh)
    {pool : List (Nat × Request Unit)} (h : SchedulerRun pool history) (hturn : InTurn fresh history) :
    OneConversation (current history) := by
  have hr := reachable_of_trace h.disciplined
  intro s hs s' hs' conversation hheld _ _ hheld'
  exact retains_unique hfresh hr hturn (retains_of_row hr hturn s hs hheld)
    (retains_of_row hr hturn s' hs' hheld')

/-! ## Runs -/

def reportConversation (worker : WorkerId) (id : SessionId) (state conversation : String) : Route :=
  .workerSync deployed
    { workerId := worker, executorReport := some ⟨id, state, some conversation⟩, turnResult := none
      commandAck := none }

/-- A child is assigned to `"w"`. A report of its conversation is delayed; another one, that it has
crashed, is not. The child has failed and is finalized, the user continues it, then recovers it, and `"w"` is
assigned to it again. -/
def continuedAndRecovered : List (Choice (Nat × Route) Env) :=
  opening ++ alone 3 "c" (.delegate "r" "lead" "work" none) 11 ++ alone 4 "v" (syncOf "v" none) 7 ++
    alone 5 "w" (syncOf "w" none) 7 ++
    [.spawn 6 (0, reportConversation "w" "c8" "running" "w6"), .step 0 (calm 6 "x0")] ++
    beside 7 "y" (reportConversation "w" "c8" "crashed" "w6") 5 ++ beside 8 "d" (.tick deployed) 17 ++
    beside 9 "e" (.tick deployed) 11 ++ beside 10 "f" (.continueFrom "c8" [.textPart "again"]) 5 ++
    beside 11 "g" (.recover "c8" (some "go")) 4 ++ beside 12 "h" (syncOf "w" none) 7

/-- So far the continuation alone has the conversation. -/
theorem one_owner_per_conversation_continued :
    OneConversation (current (historyOf continuedAndRecovered)) := by
  obtain ⟨pool, hrun⟩ := historyOf_run continuedAndRecovered
  have hturn : InTurn id (historyOf continuedAndRecovered) := by decide +kernel
  exact one_owner_per_conversation Function.injective_id hrun hturn

/-- **A delayed report gives a conversation a second owner.** The report of the first run is applied now:
its worker is the one of the session. -/
theorem late_report_shares_conversation : ¬∀ fresh : String → String, Function.Injective fresh →
    ∀ pool history, SchedulerRun pool history → Honest fresh history →
      OneConversation (current history) := by
  intro hclaim
  obtain ⟨pool, hrun⟩ := historyOf_run
    (continuedAndRecovered ++ [.step 0 (calm 13 "z0"), .step 0 (calm 13 "z1")])
  have hhonest : Honest id (historyOf (continuedAndRecovered ++
      [.step 0 (calm 13 "z0"), .step 0 (calm 13 "z1")])) := by decide +kernel
  have hshared : ¬OneConversation (current (historyOf (continuedAndRecovered ++
      [.step 0 (calm 13 "z0"), .step 0 (calm 13 "z1")]))) := by decide +kernel
  exact hshared (hclaim id Function.injective_id pool _ hrun hhonest)

end AgentBeacon
