import AgentBeacon.Lib.Interleave

/-!
# `Lib.Calls` — what one request calls, and what it returns

`Interleave.Run` tells what many requests do together and drops what they return. Here one request is
looked at by itself: `Returns` relates a request to the calls it made, oldest first, and to what it
returned. The states the calls found are those of whatever else was called in between; `Between` says
what that may have done. `served` computes the calls of a request that is served alone.
-/

namespace Interleave

universe u

variable {M : Machine.{u}} {α β : Type}

/-- The request made these calls and returned `a`. -/
inductive Returns : Prog M α → List (Event M) → α → Prop where
  | ret (a : α) : Returns (.ret a) [] a
  | call {e : Event M} {k : M.Reply e.op → Prog M α} {calls : List (Event M)} {a : α}
      (h : Returns (k e.reply) calls a) : Returns (.call e.op k) (e :: calls) a

/-- The first call of a request, and the rest. -/
theorem Returns.of_call {op : M.Op} {k : M.Reply op → Prog M α} {calls : List (Event M)} {a : α}
    (h : Returns (.call op k) calls a) :
    ∃ caller input pre rest, calls = ⟨caller, op, input, pre⟩ :: rest ∧
      Returns (k (M.exec op input pre).1) rest a := by
  cases h with
  | @call e k rest a h => exact ⟨e.caller, e.input, e.pre, rest, rfl, h⟩

/-- A request that goes on after another: the calls of the first come first. -/
theorem Returns.of_bind {p : Prog M α} {f : α → Prog M β} {calls : List (Event M)} {b : β}
    (h : Returns (p >>= f) calls b) :
    ∃ a first rest, calls = first ++ rest ∧ Returns p first a ∧ Returns (f a) rest b := by
  induction p generalizing calls with
  | ret a => exact ⟨a, [], calls, rfl, .ret a, h⟩
  | call op k ih =>
      rw [Prog.call_bind] at h
      cases h with
      | @call e _ calls _ h =>
          obtain ⟨a, first, rest, rfl, hp, hf⟩ := ih _ h
          exact ⟨a, e :: first, rest, rfl, .call hp, hf⟩

/-- Every call the request may make satisfies `P`. -/
def Only (P : M.Op → Prop) : Prog M α → Prop
  | .ret _ => True
  | .call op k => P op ∧ ∀ r, Only P (k r)

namespace Only

variable {P : M.Op → Prop}

theorem bind {p : Prog M α} {f : α → Prog M β} (hp : Only P p) (hf : ∀ a, Only P (f a)) :
    Only P (p >>= f) := by
  induction p with
  | ret a => exact hf a
  | call op k ih => exact ⟨hp.1, fun r => ih r (hp.2 r)⟩

/-- What every call may be, the calls made are. -/
theorem of_returns {p : Prog M α} {calls : List (Event M)} {a : α} (hp : Only P p)
    (h : Returns p calls a) : ∀ e ∈ calls, P e.op := by
  induction h with
  | ret a =>
      intro e he
      cases he
  | @call e k calls a _ ih =>
      intro e' he'
      rcases List.mem_cons.mp he' with rfl | he'
      · exact hp.1
      · exact ih (hp.2 _) e' he'

end Only

/-! ## What happens in between -/

/-- Whatever else was called between the calls took the state one left to the state the next one found
by `R`. -/
def Between (R : M.State → M.State → Prop) : List (Event M) → Prop
  | [] => True
  | e :: calls => (∀ e' ∈ calls.head?, R e.post e'.pre) ∧ Between R calls

/-- The state after some calls that found `start`. -/
def lastState (start : M.State) (calls : List (Event M)) : M.State :=
  (calls.getLast?.map Event.post).getD start

variable {R R' : M.State → M.State → Prop}

theorem lastState_cons_cons (start : M.State) (e e' : Event M) (calls : List (Event M)) :
    lastState start (e :: e' :: calls) = lastState start (e' :: calls) := by
  simp [lastState, List.getLast?_cons_cons]

namespace Between

theorem mono {calls : List (Event M)} (h : Between R calls) (hR : ∀ s s', R s s' → R' s s') :
    Between R' calls := by
  induction calls with
  | nil => trivial
  | cons e calls ih => exact ⟨fun e' he' => hR _ _ (h.1 e' he'), ih h.2⟩

/-- What one call established, the later calls keep and nothing in between breaks holds in the end. -/
theorem keeps {I : M.State → Prop} (hR : ∀ s s', R s s' → I s → I s') {e : Event M}
    {calls : List (Event M)} (h : Between R (e :: calls)) (start : M.State) (hI : I e.post)
    (hstep : ∀ e' ∈ calls, I e'.pre → I e'.post) : I (lastState start (e :: calls)) := by
  induction calls generalizing e with
  | nil => exact hI
  | cons e' calls ih =>
      have hpre : I e'.pre := hR _ _ (h.1 e' rfl) hI
      have hpost : I e'.post := hstep e' List.mem_cons_self hpre
      rw [lastState_cons_cons]
      exact ih h.2 hpost fun e'' he'' => hstep e'' (List.mem_cons_of_mem _ he'')

/-- The same from any of the calls on. -/
theorem keeps_of_mem {I : M.State → Prop} (hR : ∀ s s', R s s' → I s → I s') {calls : List (Event M)}
    (h : Between R calls) (start : M.State) {e : Event M} (he : e ∈ calls) (hI : I e.post)
    (hstep : ∀ e' ∈ calls, I e'.pre → I e'.post) : I (lastState start calls) := by
  induction calls with
  | nil => cases he
  | cons e₀ calls ih =>
      rcases List.mem_cons.mp he with rfl | he'
      · exact h.keeps hR start hI fun e' he' => hstep e' (List.mem_cons_of_mem _ he')
      · cases calls with
        | nil => cases he'
        | cons e₁ calls =>
            rw [lastState_cons_cons]
            exact ih h.2 he' fun e' he' => hstep e' (List.mem_cons_of_mem _ he')

end Between

/-! ## Serving a request alone -/

/-- Serve a request from a state, with these decisions of the environment: its calls and what it
returned, if the decisions suffice. -/
def served : Prog M α → List M.Input → M.State → Option (List (Event M) × α)
  | .ret a, _, _ => some ([], a)
  | .call _ _, [], _ => none
  | .call op k, i :: inputs, s =>
      (served (k (M.exec op i s).1) inputs (M.exec op i s).2).map
        fun r => (⟨0, op, i, s⟩ :: r.1, r.2)

/-- **The calls computed are calls of the request**, with nothing in between. -/
theorem served_returns {p : Prog M α} {inputs : List M.Input} {s : M.State}
    {calls : List (Event M)} {a : α} (h : served p inputs s = some (calls, a)) :
    Returns p calls a ∧ Between Eq calls ∧ ∀ e ∈ calls.head?, e.pre = s := by
  induction inputs generalizing p s calls with
  | nil =>
      cases p with
      | ret b =>
          obtain ⟨rfl, rfl⟩ : [] = calls ∧ b = a := by simpa [served] using h
          exact ⟨.ret b, trivial, fun e he => by cases he⟩
      | call op k => cases h
  | cons i inputs ih =>
      cases p with
      | ret b =>
          obtain ⟨rfl, rfl⟩ : [] = calls ∧ b = a := by simpa [served] using h
          exact ⟨.ret b, trivial, fun e he => by cases he⟩
      | call op k =>
          obtain ⟨⟨rest, b⟩, hrest, heq⟩ := Option.map_eq_some_iff.mp h
          obtain ⟨rfl, rfl⟩ := Prod.mk.inj heq
          obtain ⟨hreturns, hchain, hhead⟩ := ih hrest
          have hcall : Returns (.call op k) ((⟨0, op, i, s⟩ : Event M) :: rest) b :=
            .call (e := ⟨0, op, i, s⟩) hreturns
          refine ⟨hcall, ⟨fun e he => (hhead e he).symm, hchain⟩, fun e he => ?_⟩
          obtain rfl := Option.some.inj he
          rfl

end Interleave
