import Mathlib.Data.List.Infix
import Mathlib.Data.List.Nodup

/-!
# `Lib.Interleave` — requests that interleave over one store

A service answers requests concurrently. Every request is a program whose only effects are calls of
atomic operations on one store; between two calls of a request any other request may call. This
module gives the execution model and the two reasoning rules every client of it needs:

* `Machine` — the operations, what the environment contributes to a call, and what a call does;
* `Prog` — a request, a free monad over the operations;
* `Run` — an interleaving: a pool of named requests in progress and the calls made so far;
* `Trace` — the calls alone, each allowed by a *discipline* on what was called before it;
* `Safe` — a request keeps a discipline whatever is called around it (rely–guarantee), and
  `Run.trace`: if every request is safe, every interleaving keeps the discipline;
* `play` — an executable scheduler whose interleavings are runs (`play_run`).

Traces are lists of events, newest first.
-/

namespace Interleave

universe u

/-- A store and its atomic operations. `Input` is what the environment decides for one call (the
clock, a generated identifier, a failure); `admits` says which inputs it may decide on. -/
structure Machine where
  Op : Type u
  Reply : Op → Type
  Input : Type
  State : Type
  init : State
  admits : Op → Input → State → Bool
  exec : (op : Op) → Input → State → Reply op × State

/-- The state that the traces of a section start from: the initial one, where nothing else is said. -/
class Start (M : Machine.{u}) where
  state : M.State

instance (priority := low) (M : Machine.{u}) : Start M := ⟨M.init⟩

/-! ## Programs -/

/-- A request: it returns, or calls an operation and continues with the reply. -/
inductive Prog (M : Machine.{u}) (α : Type) : Type u where
  | ret (a : α)
  | call (op : M.Op) (k : M.Reply op → Prog M α)

namespace Prog

variable {M : Machine.{u}} {α β : Type}

/-- Run `p`, then continue with what it returned. -/
def bind : Prog M α → (α → Prog M β) → Prog M β
  | .ret a, f => f a
  | .call op k, f => .call op fun r => (k r).bind f

instance : Monad (Prog M) where
  pure := .ret
  bind := bind

/-- Call one operation. -/
def perform (op : M.Op) : Prog M (M.Reply op) := .call op .ret

@[simp] theorem pure_eq (a : α) : (pure a : Prog M α) = .ret a := rfl

@[simp] theorem ret_bind (a : α) (f : α → Prog M β) : (Prog.ret a >>= f) = f a := rfl

@[simp] theorem call_bind (op : M.Op) (k : M.Reply op → Prog M α) (f : α → Prog M β) :
    (Prog.call op k >>= f) = .call op fun r => k r >>= f := rfl

@[simp] theorem perform_bind (op : M.Op) (f : M.Reply op → Prog M β) :
    (perform op >>= f) = .call op f := rfl

theorem bind_assoc {γ : Type} (p : Prog M α) (f : α → Prog M β) (g : β → Prog M γ) :
    (p >>= f) >>= g = p >>= fun a => f a >>= g := by
  induction p with
  | ret a => rfl
  | call op k ih => exact congrArg (Prog.call op) (funext ih)

end Prog

/-! ## Events and the current state -/

/-- One call: who made it, the operation, the environment's input, the state it found. -/
structure Event (M : Machine.{u}) where
  caller : Nat
  op : M.Op
  input : M.Input
  pre : M.State

namespace Event

variable {M : Machine.{u}}

/-- What the call answered. -/
def reply (e : Event M) : M.Reply e.op := (M.exec e.op e.input e.pre).1

/-- The state the call left. -/
def post (e : Event M) : M.State := (M.exec e.op e.input e.pre).2

end Event

namespace Machine

variable (M : Machine.{u}) [Start M]

/-- The state after a trace. -/
def now : List (Event M) → M.State
  | [] => Start.state
  | e :: _ => e.post

/-- The next event of a trace when `me` calls `op` with input `i`. -/
def event (me : Nat) (op : M.Op) (i : M.Input) (tr : List (Event M)) : Event M :=
  ⟨me, op, i, M.now tr⟩

@[simp] theorem now_nil : M.now [] = Start.state := rfl

@[simp] theorem now_cons (e : Event M) (tr : List (Event M)) : M.now (e :: tr) = e.post := rfl

@[simp] theorem event_caller (me : Nat) (op : M.Op) (i : M.Input) (tr : List (Event M)) :
    (M.event me op i tr).caller = me := rfl

@[simp] theorem event_op (me : Nat) (op : M.Op) (i : M.Input) (tr : List (Event M)) :
    (M.event me op i tr).op = op := rfl

@[simp] theorem event_input (me : Nat) (op : M.Op) (i : M.Input) (tr : List (Event M)) :
    (M.event me op i tr).input = i := rfl

@[simp] theorem event_pre (me : Nat) (op : M.Op) (i : M.Input) (tr : List (Event M)) :
    (M.event me op i tr).pre = M.now tr := rfl

end Machine

variable {M : Machine.{u}} [Start M]

/-! ## Traces under a discipline -/

/-- What a request may call after a trace. -/
abbrev Discipline (M : Machine.{u}) := Nat → List (Event M) → M.Op → Prop

/-- The traces whose every call was allowed by `G` when it was made. -/
inductive Trace (G : Discipline M) : List (Event M) → Prop where
  | start : Trace G []
  | step {tr : List (Event M)} {me : Nat} {op : M.Op} {i : M.Input} (h : Trace G tr)
      (hG : G me tr op) (hi : M.admits op i (M.now tr) = true) : Trace G (M.event me op i tr :: tr)

namespace Trace

variable {G : Discipline M}

/-- Every earlier point of a trace is a trace. -/
theorem of_suffix {tr tr' : List (Event M)} (h : Trace G tr') (hs : tr <:+ tr') : Trace G tr := by
  induction h with
  | start => rw [List.suffix_nil.mp hs]; exact .start
  | @step tr₁ me op i h₁ hG hi ih =>
      rcases List.suffix_cons_iff.mp hs with rfl | hs'
      · exact .step h₁ hG hi
      · exact ih hs'

/-- **Every event of a trace was a call the discipline allowed.** -/
theorem of_cons {e : Event M} {tr : List (Event M)} (h : Trace G (e :: tr)) :
    Trace G tr ∧ G e.caller tr e.op ∧ M.admits e.op e.input e.pre = true ∧ e.pre = M.now tr := by
  cases h with
  | step h hG hi => exact ⟨h, hG, hi, rfl⟩

/-- The point of the trace at which an event happened. -/
theorem of_mem {e : Event M} {tr : List (Event M)} (h : Trace G tr) (he : e ∈ tr) :
    ∃ tr₀, (e :: tr₀) <:+ tr ∧ Trace G tr₀ ∧ G e.caller tr₀ e.op ∧
      M.admits e.op e.input e.pre = true ∧ e.pre = M.now tr₀ := by
  obtain ⟨later, tr₀, rfl⟩ := List.append_of_mem he
  have hs : (e :: tr₀) <:+ later ++ e :: tr₀ := List.suffix_append later _
  obtain ⟨h₀, hG, hi, hpre⟩ := (h.of_suffix hs).of_cons
  exact ⟨tr₀, hs, h₀, hG, hi, hpre⟩

/-- **Invariants of the trace.** What holds initially and survives every allowed call holds of every
trace. -/
theorem invariantOn {I : List (Event M) → Prop} (hinit : I [])
    (hstep : ∀ tr me op i, Trace G tr → G me tr op → M.admits op i (M.now tr) = true →
      I tr → I (M.event me op i tr :: tr))
    {tr : List (Event M)} (h : Trace G tr) : I tr := by
  induction h with
  | start => exact hinit
  | step h hG hi ih => exact hstep _ _ _ _ h hG hi ih

/-- **Invariants of the state.** -/
theorem invariant {I : M.State → Prop} (hinit : I Start.state)
    (hstep : ∀ tr me op i, Trace G tr → G me tr op → M.admits op i (M.now tr) = true →
      I (M.now tr) → I (M.exec op i (M.now tr)).2)
    {tr : List (Event M)} (h : Trace G tr) : I (M.now tr) :=
  h.invariantOn (I := fun tr => I (M.now tr)) hinit hstep

/-- A discipline may be replaced by a weaker one. -/
theorem weaken {G' : Discipline M} (hw : ∀ me tr op, Trace G tr → G me tr op → G' me tr op)
    {tr : List (Event M)} (h : Trace G tr) : Trace G' tr := by
  induction h with
  | start => exact .start
  | step h hG hi ih => exact .step ih (hw _ _ _ h hG) hi

end Trace

/-- `tr'` continues `tr`, every call allowed. -/
def Later (G : Discipline M) (tr tr' : List (Event M)) : Prop := tr <:+ tr' ∧ Trace G tr'

namespace Later

variable {G : Discipline M} {tr tr' tr'' : List (Event M)}

theorem refl (h : Trace G tr) : Later G tr tr := ⟨List.suffix_refl tr, h⟩

theorem trans (h : Later G tr tr') (h' : Later G tr' tr'') : Later G tr tr'' :=
  ⟨h.1.trans h'.1, h'.2⟩

theorem cons {e : Event M} (h : Trace G (e :: tr)) : Later G tr (e :: tr) :=
  ⟨List.suffix_cons _ _, h⟩

end Later

/-- `tr'` continues `tr` by calls of requests other than `me`, every call allowed. -/
def Around (G : Discipline M) (me : Nat) (tr tr' : List (Event M)) : Prop :=
  (∃ calls, tr' = calls ++ tr ∧ ∀ e ∈ calls, e.caller ≠ me) ∧ Trace G tr'

namespace Around

variable {G : Discipline M} {me : Nat} {tr tr' tr'' : List (Event M)}

theorem refl (h : Trace G tr) : Around G me tr tr := ⟨⟨[], rfl, by simp⟩, h⟩

theorem later (h : Around G me tr tr') : Later G tr tr' := by
  obtain ⟨⟨calls, rfl, -⟩, ht⟩ := h
  exact ⟨List.suffix_append _ _, ht⟩

theorem trans (h : Around G me tr tr') (h' : Around G me tr' tr'') : Around G me tr tr'' := by
  obtain ⟨⟨calls, rfl, hc⟩, -⟩ := h
  obtain ⟨⟨calls', rfl, hc'⟩, ht⟩ := h'
  refine ⟨⟨calls' ++ calls, by simp, fun e he => ?_⟩, ht⟩
  rcases List.mem_append.mp he with he | he
  · exact hc' e he
  · exact hc e he

theorem step {e : Event M} (h : Trace G (e :: tr)) (he : e.caller ≠ me) :
    Around G me tr (e :: tr) := ⟨⟨[e], rfl, by simpa using he⟩, h⟩

/-- **What holds now and survives the calls of others holds after them.** -/
theorem keeps {I : List (Event M) → Prop} (h : Around G me tr tr') (hI : I tr)
    (hstep : ∀ tr e, Trace G (e :: tr) → e.caller ≠ me → I tr → I (e :: tr)) : I tr' := by
  obtain ⟨⟨calls, rfl, hc⟩, ht⟩ := h
  induction calls with
  | nil => exact hI
  | cons e calls ih =>
      exact hstep _ e ht (hc e (by simp)) (ih (fun e he => hc e (by simp [he])) ht.of_cons.1)

end Around

/-! ## Safe programs -/

/-- `Safe G me p Q tr`: started by `me` at `tr` and with any allowed calls of others around its own,
`p` makes only calls that `G` allows, and what it returns satisfies `Q` when it returns. -/
def Safe (G : Discipline M) (me : Nat) {α : Type} :
    Prog M α → (List (Event M) → α → Prop) → List (Event M) → Prop
  | .ret a, Q, tr => ∀ tr', Around G me tr tr' → Q tr' a
  | .call op k, Q, tr => ∀ tr', Around G me tr tr' → G me tr' op ∧
      ∀ i, M.admits op i (M.now tr') = true →
        Safe G me (k (M.exec op i (M.now tr')).1) Q (M.event me op i tr' :: tr')

namespace Safe

variable {G : Discipline M} {me : Nat} {α β : Type} {tr : List (Event M)}

theorem ret {a : α} {Q : List (Event M) → α → Prop} (h : ∀ tr', Around G me tr tr' → Q tr' a) :
    Safe G me (.ret a) Q tr := h

/-- A call is safe if it is allowed and the rest is safe after every reply. -/
theorem call {op : M.Op} {k : M.Reply op → Prog M α} {Q : List (Event M) → α → Prop}
    (hG : ∀ tr', Around G me tr tr' → G me tr' op)
    (hk : ∀ tr' i, Around G me tr tr' → Trace G (M.event me op i tr' :: tr') →
      Safe G me (k (M.exec op i (M.now tr')).1) Q (M.event me op i tr' :: tr')) :
    Safe G me (.call op k) Q tr := fun tr' hl =>
  ⟨hG tr' hl, fun i hi => hk tr' i hl (.step hl.2 (hG tr' hl) hi)⟩

/-- Every program keeps a discipline that allows everything. -/
theorem unrestricted {p : Prog M α} :
    Safe (fun _ _ _ => True) me p (fun _ _ => True) tr := by
  induction p generalizing tr with
  | ret a => exact fun _ _ => trivial
  | call op k ih => exact fun _ _ => ⟨trivial, fun i _ => ih _⟩

/-- Where no allowed continuation exists, nothing is asked of a program. -/
theorem of_not_trace {p : Prog M α} {Q : List (Event M) → α → Prop} (h : ¬ Trace G tr) :
    Safe G me p Q tr := by
  have hno : ∀ tr', ¬ Around G me tr tr' := fun tr' hl => h (hl.2.of_suffix hl.later.1)
  cases p with
  | ret a => exact fun tr' hl => absurd hl (hno tr')
  | call op k => exact fun tr' hl => absurd hl (hno tr')

/-- Safety survives the calls of others. -/
theorem around {p : Prog M α} {Q : List (Event M) → α → Prop} {tr' : List (Event M)}
    (h : Safe G me p Q tr) (hl : Around G me tr tr') : Safe G me p Q tr' := by
  cases p with
  | ret a => exact fun tr'' hl' => h tr'' (hl.trans hl')
  | call op k => exact fun tr'' hl' => h tr'' (hl.trans hl')

/-- A weaker promise about the result. -/
theorem mono {p : Prog M α} {Q R : List (Event M) → α → Prop} (h : Safe G me p Q tr)
    (hQR : ∀ tr' a, Later G tr tr' → Q tr' a → R tr' a) : Safe G me p R tr := by
  induction p generalizing tr with
  | ret a => exact fun tr' hl => hQR tr' a hl.later (h tr' hl)
  | call op k ih =>
      intro tr' hl
      obtain ⟨hG, hk⟩ := h tr' hl
      refine ⟨hG, fun i hi => ih _ (hk i hi) fun tr'' a hl' hq => hQR tr'' a ?_ hq⟩
      exact hl.later.trans ((Later.cons (.step hl.2 hG hi)).trans hl')

/-- **Sequencing.** -/
theorem bind {p : Prog M α} {f : α → Prog M β} {Q : List (Event M) → α → Prop}
    {R : List (Event M) → β → Prop} (h : Safe G me p Q tr)
    (hf : ∀ tr' a, Later G tr tr' → Q tr' a → Safe G me (f a) R tr') :
    Safe G me (p >>= f) R tr := by
  induction p generalizing tr with
  -- nothing was called since, so the second part starts where the first did
  | ret a =>
      by_cases ht : Trace G tr
      · exact hf tr a (Later.refl ht) (h tr (Around.refl ht))
      · exact of_not_trace ht
  | call op k ih =>
      intro tr' hl
      obtain ⟨hG, hk⟩ := h tr' hl
      refine ⟨hG, fun i hi => ih _ (hk i hi) fun tr'' a hl' hq => hf tr'' a ?_ hq⟩
      exact hl.later.trans ((Later.cons (.step hl.2 hG hi)).trans hl')

/-- A choice between two programs. -/
theorem ite {c : Prop} [Decidable c] {p q : Prog M α} {Q : List (Event M) → α → Prop}
    (hp : c → Safe G me p Q tr) (hq : ¬c → Safe G me q Q tr) :
    Safe G me (if c then p else q) Q tr := by
  split
  · rename_i hc; exact hp hc
  · rename_i hc; exact hq hc

/-- A pure step after a program. -/
theorem map {p : Prog M α} {g : α → β} {Q : List (Event M) → α → Prop} (h : Safe G me p Q tr) :
    Safe G me (p >>= fun a => .ret (g a)) (fun tr b => ∃ a, b = g a ∧ Q tr a) tr := by
  induction p generalizing tr with
  | ret a => exact fun tr' hl => ⟨a, rfl, h tr' hl⟩
  | call op k ih =>
      intro tr' hl
      obtain ⟨hG, hk⟩ := h tr' hl
      exact ⟨hG, fun i hi => ih _ (hk i hi)⟩

/-- One call, as a program of its own. -/
theorem perform {op : M.Op} {Q : List (Event M) → M.Reply op → Prop}
    (hG : ∀ tr', Around G me tr tr' → G me tr' op)
    (hQ : ∀ tr' i tr'', Around G me tr tr' → Around G me (M.event me op i tr' :: tr') tr'' →
      Q tr'' (M.exec op i (M.now tr')).1) : Safe G me (Prog.perform op) Q tr :=
  call hG fun tr' i hl _ => ret fun tr'' hl' => hQ tr' i tr'' hl hl'

/-- **Loops.** A loop over a list is safe when its body is, for every element. -/
theorem forM {l : List β} {f : β → Prog M Unit}
    (h : ∀ b ∈ l, ∀ tr', Later G tr tr' → Safe G me (f b) (fun _ _ => True) tr') :
    Safe G me (l.forM f) (fun _ _ => True) tr := by
  induction l generalizing tr with
  | nil => exact ret fun _ _ => trivial
  | cons b l ih =>
      by_cases ht : Trace G tr
      · refine bind (h b (by simp) tr (Later.refl ht)) fun tr' _ hl _ => ?_
        exact ih fun c hc tr'' hl' => h c (by simp [hc]) tr'' (hl.trans hl')
      · exact of_not_trace ht

end Safe

/-! ## Runs: pools of requests in progress -/

/-- The interleavings of requests. A pool grows by a new request under a name no request in progress
has, a request in progress makes its next call, or a request is dropped (its client hangs up, the
process is restarted). -/
inductive Run {R : Type} (body : R → Prog M Unit) :
    List (Nat × Prog M Unit) → List (Event M) → Prop where
  | start : Run body [] []
  | spawn {pool : List (Nat × Prog M Unit)} {tr : List (Event M)} (me : Nat) (r : R)
      (h : Run body pool tr) (hme : me ∉ pool.map Prod.fst) : Run body (pool ++ [(me, body r)]) tr
  | step {before after : List (Nat × Prog M Unit)} {tr : List (Event M)} {me : Nat} {op : M.Op}
      {k : M.Reply op → Prog M Unit} (i : M.Input)
      (h : Run body (before ++ (me, .call op k) :: after) tr)
      (hi : M.admits op i (M.now tr) = true) :
      Run body (before ++ (me, k (M.exec op i (M.now tr)).1) :: after) (M.event me op i tr :: tr)
  | drop {before after : List (Nat × Prog M Unit)} {p : Nat × Prog M Unit} {tr : List (Event M)}
      (h : Run body (before ++ p :: after) tr) : Run body (before ++ after) tr

namespace Run

variable {R : Type} {body : R → Prog M Unit}

/-- The requests in progress have different names. -/
theorem nodup {pool : List (Nat × Prog M Unit)} {tr : List (Event M)} (h : Run body pool tr) :
    (pool.map Prod.fst).Nodup := by
  induction h with
  | start => exact List.nodup_nil
  | spawn me r h hme ih =>
      rw [List.map_append, List.map_singleton]
      exact ih.append (List.nodup_singleton _) (by simpa using hme)
  | step i h hi ih => simpa using ih
  | drop h ih =>
      refine ih.sublist ?_
      simp

/-- **Every interleaving of safe requests keeps the discipline.** -/
theorem trace {G : Discipline M}
    (hsafe : ∀ r me tr, Trace G tr → Safe G me (body r) (fun _ _ => True) tr)
    {pool : List (Nat × Prog M Unit)} {tr : List (Event M)} (h : Run body pool tr) :
    Trace G tr ∧ ∀ p ∈ pool, Safe G p.1 p.2 (fun _ _ => True) tr := by
  induction h with
  | start => exact ⟨.start, by simp⟩
  | @spawn pool tr me r h hme ih =>
      refine ⟨ih.1, fun p hp => ?_⟩
      rcases List.mem_append.mp hp with hp | hp
      · exact ih.2 p hp
      · rw [List.mem_singleton.mp hp]; exact hsafe r me tr ih.1
  | @step before after tr me op k i h hi ih =>
      obtain ⟨ht, hp⟩ := ih
      -- the caller goes on, to the others the call is one around theirs
      obtain ⟨hG, hk⟩ := hp (me, .call op k) (by simp) tr (Around.refl ht)
      have ht' : Trace G (M.event me op i tr :: tr) := .step ht hG hi
      have hnodup := h.nodup
      rw [List.map_append, List.map_cons, List.nodup_middle, List.nodup_cons, List.mem_append]
        at hnodup
      have hothers : ∀ p ∈ before ++ after, p.1 ≠ me := by
        intro p hmem he
        rcases List.mem_append.mp hmem with hb | ha
        · exact hnodup.1 (.inl (List.mem_map.mpr ⟨p, hb, he⟩))
        · exact hnodup.1 (.inr (List.mem_map.mpr ⟨p, ha, he⟩))
      have hkeep : ∀ p ∈ before ++ after, Safe G p.1 p.2 (fun _ _ => True)
          (M.event me op i tr :: tr) := fun p hmem =>
        (hp p (by rcases List.mem_append.mp hmem with hb | ha <;> simp [*])).around
          (Around.step ht' (hothers p hmem).symm)
      refine ⟨ht', fun p hmem => ?_⟩
      rcases List.mem_append.mp hmem with hb | ha
      · exact hkeep p (by simp [hb])
      · rcases List.mem_cons.mp ha with rfl | ha
        · exact hk i hi
        · exact hkeep p (by simp [ha])
  | drop h ih =>
      exact ⟨ih.1, fun p hp => ih.2 p (by
        rcases List.mem_append.mp hp with hb | ha
        · simp [hb]
        · simp [ha])⟩

/-- Every earlier point of a run was itself reached by a run. -/
theorem of_suffix {pool : List (Nat × Prog M Unit)} {tr tr₀ : List (Event M)}
    (h : Run body pool tr) (hs : tr₀ <:+ tr) : ∃ pool₀, Run body pool₀ tr₀ := by
  induction h with
  | start => rw [List.suffix_nil.mp hs]; exact ⟨[], .start⟩
  | spawn me r h hme ih => exact ih hs
  | step i h hi ih =>
      rcases List.suffix_cons_iff.mp hs with rfl | hs'
      · exact ⟨_, .step i h hi⟩
      · exact ih hs'
  | drop h ih => exact ih hs

end Run

/-! ## An executable scheduler -/

/-- One decision of the scheduler: start a request under a name, let the `n`-th request in progress
make its next call, drop the `n`-th. -/
inductive Choice (R I : Type) where
  | spawn (me : Nat) (r : R)
  | step (n : Nat) (i : I)
  | drop (n : Nat)

/-- Follow the scheduler's decisions from a pool and a trace; `none` when one is not possible. -/
def playFrom {R : Type} (body : R → Prog M Unit) :
    List (Choice R M.Input) → List (Nat × Prog M Unit) → List (Event M) →
      Option (List (Nat × Prog M Unit) × List (Event M))
  | [], pool, tr => some (pool, tr)
  | .spawn me r :: cs, pool, tr =>
      if me ∉ pool.map Prod.fst then playFrom body cs (pool ++ [(me, body r)]) tr else none
  | .step n i :: cs, pool, tr =>
      match pool.drop n with
      | (me, .call op k) :: after =>
          if M.admits op i (M.now tr) then
            playFrom body cs (pool.take n ++ (me, k (M.exec op i (M.now tr)).1) :: after)
              (M.event me op i tr :: tr)
          else none
      | _ => none
  | .drop n :: cs, pool, tr =>
      match pool.drop n with
      | _ :: after => playFrom body cs (pool.take n ++ after) tr
      | [] => none

/-- Follow the scheduler's decisions from the start. -/
def play {R : Type} (body : R → Prog M Unit) (cs : List (Choice R M.Input)) :
    Option (List (Nat × Prog M Unit) × List (Event M)) := playFrom body cs [] []

theorem playFrom_run {R : Type} {body : R → Prog M Unit} {cs : List (Choice R M.Input)}
    {pool pool' : List (Nat × Prog M Unit)} {tr tr' : List (Event M)} (h : Run body pool tr)
    (hp : playFrom body cs pool tr = some (pool', tr')) : Run body pool' tr' := by
  induction cs generalizing pool tr with
  | nil => cases hp; exact h
  | cons c cs ih =>
      cases c with
      | spawn me r =>
          unfold playFrom at hp
          split at hp
          · rename_i hme
            exact ih (.spawn me r h hme) hp
          · cases hp
      | step n i =>
          unfold playFrom at hp
          split at hp
          · rename_i me op k after hd
            split at hp
            · rename_i hi
              rw [← List.take_append_drop n pool, hd] at h
              exact ih (.step i h hi) hp
            · cases hp
          · cases hp
      | drop n =>
          unfold playFrom at hp
          split at hp
          · rename_i p after hd
            rw [← List.take_append_drop n pool, hd] at h
            exact ih (.drop h) hp
          · cases hp

/-- The trace the scheduler's decisions produce. -/
def played {R : Type} (body : R → Prog M Unit) (cs : List (Choice R M.Input)) : List (Event M) :=
  ((play body cs).map Prod.snd).getD []

/-- **The scheduler's interleavings are runs.** -/
theorem play_run {R : Type} (body : R → Prog M Unit) (cs : List (Choice R M.Input)) :
    ∃ pool, Run body pool (played body cs) := by
  unfold played
  cases h : play body cs with
  | none => exact ⟨[], .start⟩
  | some res =>
      obtain ⟨pool, tr⟩ := res
      exact ⟨pool, playFrom_run .start h⟩

end Interleave
