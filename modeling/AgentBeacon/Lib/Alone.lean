import AgentBeacon.Lib.Interleave

/-!
# `Lib.Alone` — a request that nobody interferes with

What a request does when it runs alone, from a state and with whatever the environment decides. `Always` is the
weakest precondition over all such runs; it also asks that the request is never stuck. A `Way` is an order of
states that an invariant is kept along; requests whose calls all go forward in it go forward as a whole.
-/

namespace Interleave

universe u

variable {M : Machine.{u}} {α β : Type}

/-- Run alone from `s`, the request is never stuck, and every run whose inputs the environment may decide on
ends with `Q`. -/
def Always (may : M.Input → M.State → Prop) : Prog M α → (α → M.State → Prop) → M.State → Prop
  | .ret a, Q, s => Q a s
  | .call op k, Q, s => (∃ i, M.admits op i s = true) ∧ ∀ i, M.admits op i s = true → may i s →
      Always may (k (M.exec op i s).1) Q (M.exec op i s).2

namespace Always

variable {may : M.Input → M.State → Prop} {Q Q' : α → M.State → Prop} {s : M.State}

/-- **Sequencing.** -/
theorem bind_iff {R : β → M.State → Prop} (p : Prog M α) (f : α → Prog M β) :
    Always may (p >>= f) R s ↔ Always may p (fun a s' => Always may (f a) R s') s := by
  induction p generalizing s with
  | ret a => exact Iff.rfl
  | call op k ih =>
      refine and_congr_right fun _ => forall_congr' fun i => ?_
      exact imp_congr_right fun _ => imp_congr_right fun _ => ih _

theorem mono {p : Prog M α} (h : Always may p Q s) (hQ : ∀ a s', Q a s' → Q' a s') : Always may p Q' s := by
  induction p generalizing s with
  | ret a => exact hQ a s h
  | call op k ih => exact ⟨h.1, fun i hadmits hi => ih _ (h.2 i hadmits hi)⟩

theorem and {p : Prog M α} (h : Always may p Q s) (h' : Always may p Q' s) :
    Always may p (fun a s' => Q a s' ∧ Q' a s') s := by
  induction p generalizing s with
  | ret a => exact ⟨h, h'⟩
  | call op k ih => exact ⟨h.1, fun i hadmits hi => ih _ (h.2 i hadmits hi) (h'.2 i hadmits hi)⟩

theorem bind {R : β → M.State → Prop} {p : Prog M α} {f : α → Prog M β} (h : Always may p Q s)
    (hf : ∀ a s', Q a s' → Always may (f a) R s') : Always may (p >>= f) R s :=
  (bind_iff p f).mpr (h.mono hf)

end Always

/-- The run in which the environment decides the same each time, as long as it may. -/
def steady (may : M.Input → M.State → Prop) [∀ i s, Decidable (may i s)] (i : M.Input) :
    Prog M α → M.State → Option (α × M.State)
  | .ret a, s => some (a, s)
  | .call op k, s =>
      if M.admits op i s = true ∧ may i s then steady may i (k (M.exec op i s).1) (M.exec op i s).2 else none

section Steady

variable {may : M.Input → M.State → Prop} [∀ i s, Decidable (may i s)] {i : M.Input} {Q : α → M.State → Prop}
  {s s' : M.State}

/-- **It is one of the runs.** -/
theorem Always.of_steady {p : Prog M α} {a : α} (h : Always may p Q s) (hrun : steady may i p s = some (a, s')) :
    Q a s' := by
  induction p generalizing s with
  | ret a =>
      cases hrun
      exact h
  | call op k ih =>
      unfold steady at hrun
      split at hrun
      · rename_i hmay
        exact ih _ (h.2 i hmay.1 hmay.2) hrun
      · cases hrun

theorem steady_bind (p : Prog M α) (f : α → Prog M β) (s : M.State) :
    steady may i (p >>= f) s = (steady may i p s).bind fun r => steady may i (f r.1) r.2 := by
  induction p generalizing s with
  | ret a => rfl
  | call op k ih =>
      simp only [Prog.call_bind, steady]
      split
      · exact ih _ _
      · rfl

/-- What changes nothing once changes nothing in a loop. -/
theorem steady_forM {f : β → Prog M PUnit} {l : List β} (h : ∀ b ∈ l, steady may i (f b) s = some (⟨⟩, s)) :
    steady may i (l.forM f) s = some (⟨⟩, s) := by
  induction l with
  | nil => rfl
  | cons b l ih =>
      show steady may i (f b >>= fun _ => l.forM f) s = _
      rw [steady_bind, h b List.mem_cons_self]
      exact ih fun c hc => h c (List.mem_cons_of_mem b hc)

end Steady

/-! ## Going forward -/

/-- An order of states, and what holds of all that lie ahead. -/
structure Way (M : Machine.{u}) where
  may : M.Input → M.State → Prop
  holds : M.State → Prop
  ahead : M.State → M.State → Prop
  refl : ∀ s, ahead s s
  trans : ∀ {s s' s''}, ahead s s' → ahead s' s'' → ahead s s''
  keeps : ∀ {s s'}, holds s → ahead s s' → holds s'

namespace Way

variable (W : Way M)

/-- Run alone, the request ends ahead of where it began. -/
def Goes (p : Prog M α) : Prop := ∀ s, W.holds s → Always W.may p (fun _ s' => W.ahead s s') s

variable {W}

theorem Goes.ret (a : α) : W.Goes (.ret a : Prog M α) := fun s _ => W.refl s

/-- **Sequencing.** -/
theorem Goes.bind {p : Prog M α} {f : α → Prog M β} (hp : W.Goes p) (hf : ∀ a, W.Goes (f a)) :
    W.Goes (p >>= f) := by
  intro s hs
  refine Always.bind (hp s hs) ?_
  intro a s' hahead
  exact (hf a s' (W.keeps hs hahead)).mono fun _ _ hahead' => W.trans hahead hahead'

theorem Goes.perform {op : M.Op} (hadmits : ∀ s, ∃ i, M.admits op i s = true)
    (hop : ∀ i s, W.holds s → W.ahead s (M.exec op i s).2) : W.Goes (Prog.perform op) :=
  fun s hs => ⟨hadmits s, fun i _ _ => hop i s hs⟩

theorem Goes.ite {c : Prop} [Decidable c] {p p' : Prog M α} (h : c → W.Goes p) (h' : ¬c → W.Goes p') :
    W.Goes (if c then p else p') := by
  split
  · next hc => exact h hc
  · next hc => exact h' hc

/-- **Loops.** -/
theorem Goes.forM {f : β → Prog M PUnit} (hf : ∀ b, W.Goes (f b)) (l : List β) : W.Goes (l.forM f) := by
  induction l with
  | nil => exact .ret _
  | cons b l ih => exact .bind (hf b) fun _ => ih

section Goals

variable {Q : M.State → Prop}

/-- What all states ahead keep is kept. -/
theorem Goes.keeps {p : Prog M α} {s : M.State} (hp : W.Goes p) (hs : W.holds s)
    (hkept : ∀ {s s'}, Q s → W.ahead s s' → Q s') (h : Q s) : Always W.may p (fun _ s' => Q s') s :=
  (hp s hs).mono fun _ _ hahead => hkept h hahead

/-- A goal that the first part reaches. -/
theorem Goes.reached {p : Prog M α} {f : α → Prog M β} {s : M.State} (hp : W.Goes p) (hs : W.holds s)
    (hkept : ∀ {s s'}, Q s → W.ahead s s' → Q s') (h : Always W.may p (fun _ s' => Q s') s) (hf : ∀ a, W.Goes (f a)) :
    Always W.may (p >>= f) (fun _ s' => Q s') s := by
  refine Always.bind ((hp s hs).and h) ?_
  rintro a s' ⟨hahead, hreached⟩
  exact (hf a).keeps (W.keeps hs hahead) hkept hreached

/-- A goal that the second part reaches, from every state ahead. -/
theorem Goes.reaches {p : Prog M α} {f : α → Prog M β} {s : M.State} (hp : W.Goes p) (hs : W.holds s)
    (hf : ∀ a s', W.holds s' → W.ahead s s' → Always W.may (f a) (fun _ s'' => Q s'') s') :
    Always W.may (p >>= f) (fun _ s' => Q s') s :=
  Always.bind (hp s hs) fun a s' hahead => hf a s' (W.keeps hs hahead) hahead

/-- **A loop reaches the goal of one of its steps.** -/
theorem reaches_forM {f : β → Prog M PUnit} (hf : ∀ b, W.Goes (f b)) (hkept : ∀ {s s'}, Q s → W.ahead s s' → Q s')
    {start : M.State} {l : List β} {b : β} (hb : b ∈ l)
    (h : ∀ s, W.holds s → W.ahead start s → Always W.may (f b) (fun _ s' => Q s') s) {s : M.State} (hs : W.holds s)
    (hahead : W.ahead start s) : Always W.may (l.forM f) (fun _ s' => Q s') s := by
  induction l generalizing s with
  | nil => cases hb
  | cons b' l ih =>
      obtain rfl | hrest := List.mem_cons.mp hb
      · exact (hf b).reached hs hkept (h s hs hahead) fun _ => Goes.forM hf l
      · exact (hf b').reaches hs fun _ s' hs' hahead' => ih hrest hs' (W.trans hahead hahead')

end Goals

end Way

end Interleave
