import Mathlib.Tactic.TypeStar

/-!
# `Lib.Tx` — transactions that commit or roll back

A transaction body reads and writes a state and either commits with a reply or rolls back with one;
a rolled-back body leaves no trace of its writes. `Tx.wp` is the weakest precondition of a body: a
promise `Q` about a commit (its result and the state it leaves) and a promise `E` about the reply
of a rollback. The `wp_*` lemmas turn the precondition of a body into plain logic, one connective
per statement, so that `simp` can execute a body symbolically.
-/

namespace Transaction

/-- A transaction body over states `σ` that rolls back with an `ε`. -/
def Tx (σ ε α : Type) : Type := σ → Except ε (α × σ)

namespace Tx

variable {σ ε α β : Type}

/-- Run two statements one after the other; a rollback skips the second. -/
def andThen (m : Tx σ ε α) (f : α → Tx σ ε β) : Tx σ ε β := fun s =>
  match m s with
  | .ok (a, s') => f a s'
  | .error e => .error e

instance : Monad (Tx σ ε) where
  pure a := fun s => .ok (a, s)
  bind := andThen

/-- Read the state. -/
def read : Tx σ ε σ := fun s => .ok (s, s)

/-- Write the state. -/
def write (f : σ → σ) : Tx σ ε Unit := fun s => .ok ((), f s)

/-- Undo everything and reply `e`. -/
def rollback (e : ε) : Tx σ ε α := fun _ => .error e

/-- Roll back with `e` unless `c`. -/
def require (c : Prop) [Decidable c] (e : ε) : Tx σ ε Unit := if c then pure () else rollback e

/-- The value of an option; roll back with `e` when there is none. -/
def ofOption (o : Option α) (e : ε) : Tx σ ε α :=
  match o with
  | some a => pure a
  | none => rollback e

/-- A statement issued only if `c`. -/
def when (c : Prop) [Decidable c] (m : Tx σ ε Unit) : Tx σ ε Unit := if c then m else pure ()

/-- A statement issued for the value of an option, if there is one. -/
def forSome (o : Option α) (f : α → Tx σ ε Unit) : Tx σ ε Unit :=
  match o with
  | some a => f a
  | none => pure ()

/-- Run a body from a state: its reply and the state afterwards. -/
def commit (m : Tx σ ε ε) (s : σ) : ε × σ :=
  match m s with
  | .ok (a, s') => (a, s')
  | .error e => (e, s)

/-! ## Weakest preconditions -/

/-- A commit satisfies `Q`, a rollback's reply satisfies `E`. -/
def wp (m : Tx σ ε α) (Q : α → σ → Prop) (E : ε → Prop) (s : σ) : Prop :=
  match m s with
  | .ok (a, s') => Q a s'
  | .error e => E e

variable {Q : α → σ → Prop} {R : β → σ → Prop} {E : ε → Prop} {s : σ}

@[simp] theorem wp_pure (a : α) : wp (pure a : Tx σ ε α) Q E s ↔ Q a s := Iff.rfl

@[simp] theorem wp_bind (m : Tx σ ε α) (f : α → Tx σ ε β) :
    wp (m >>= f) R E s ↔ wp m (fun a s' => wp (f a) R E s') E s := by
  show wp (andThen m f) R E s ↔ _
  unfold wp andThen
  cases m s with
  | ok r => rfl
  | error e => rfl

@[simp] theorem wp_read {R : σ → σ → Prop} : wp (read : Tx σ ε σ) R E s ↔ R s s := Iff.rfl

@[simp] theorem wp_write (f : σ → σ) {R : Unit → σ → Prop} :
    wp (write f : Tx σ ε Unit) R E s ↔ R () (f s) := Iff.rfl

@[simp] theorem wp_rollback (e : ε) : wp (rollback e : Tx σ ε α) Q E s ↔ E e := Iff.rfl

@[simp] theorem wp_require (c : Prop) [Decidable c] (e : ε) {R : Unit → σ → Prop} :
    wp (require c e : Tx σ ε Unit) R E s ↔ (c → R () s) ∧ (¬c → E e) := by
  unfold require
  split
  · rename_i hc; simp [hc]
  · rename_i hc; simp [hc]

@[simp] theorem wp_ofOption (o : Option α) (e : ε) :
    wp (ofOption o e : Tx σ ε α) Q E s ↔ (∀ a, o = some a → Q a s) ∧ (o = none → E e) := by
  cases o with
  | none => simp [ofOption]
  | some a => simp [ofOption]

@[simp] theorem wp_ite (c : Prop) [Decidable c] (m m' : Tx σ ε α) :
    wp (if c then m else m') Q E s ↔ (c → wp m Q E s) ∧ (¬c → wp m' Q E s) := by
  split
  · rename_i hc; simp [hc]
  · rename_i hc; simp [hc]

@[simp] theorem wp_when (c : Prop) [Decidable c] (m : Tx σ ε Unit) {R : Unit → σ → Prop} :
    wp (when c m) R E s ↔ (c → wp m R E s) ∧ (¬c → R () s) := by
  unfold when
  split
  · rename_i hc; simp [hc]
  · rename_i hc; simp [hc]

@[simp] theorem wp_forSome (o : Option α) (f : α → Tx σ ε Unit) {R : Unit → σ → Prop} :
    wp (forSome o f) R E s ↔ (∀ a, o = some a → wp (f a) R E s) ∧ (o = none → R () s) := by
  cases o with
  | none => simp [forSome]
  | some a => simp [forSome]

/-- **Consequence.** -/
theorem wp_mono {m : Tx σ ε α} {Q Q' : α → σ → Prop} {E E' : ε → Prop} (h : wp m Q E s)
    (hQ : ∀ a s', Q a s' → Q' a s') (hE : ∀ e, E e → E' e) : wp m Q' E' s := by
  unfold wp at *
  split
  · rename_i a s' hm; rw [hm] at h; exact hQ _ _ h
  · rename_i e hm; rw [hm] at h; exact hE _ h

/-- Nothing promised, nothing to show. -/
theorem wp_true (m : Tx σ ε α) (s : σ) : wp m (fun _ _ => True) (fun _ => True) s := by
  unfold wp
  split <;> trivial

theorem wp_and {m : Tx σ ε α} {Q Q' : α → σ → Prop} {E E' : ε → Prop} (h : wp m Q E s)
    (h' : wp m Q' E' s) : wp m (fun a s' => Q a s' ∧ Q' a s') (fun e => E e ∧ E' e) s := by
  unfold wp at *
  split
  · rename_i a s' hm; rw [hm] at h h'; exact ⟨h, h'⟩
  · rename_i e hm; rw [hm] at h h'; exact ⟨h, h'⟩

/-! ## One statement, then the rest of a body -/

/-- What the first part promises is all the rest may use. -/
theorem seq {m : Tx σ ε α} {f : α → Tx σ ε β} (h : wp m Q E s)
    (hf : ∀ a s', Q a s' → wp (f a) R E s') : wp (m >>= f) R E s := by
  rw [wp_bind]; exact wp_mono h hf fun _ he => he

/-- The same when it does not matter how the first part fails. -/
theorem seq_of {m : Tx σ ε α} {f : α → Tx σ ε β} (hE : ∀ e, E e) (h : wp m Q (fun _ => True) s)
    (hf : ∀ a s', Q a s' → wp (f a) R E s') : wp (m >>= f) R E s :=
  seq (wp_mono h (fun _ _ hq => hq) fun e _ => hE e) hf

theorem seq_read {f : σ → Tx σ ε β} (h : wp (f s) R E s) : wp (read >>= f) R E s := by
  rw [wp_bind, wp_read]; exact h

theorem seq_write {g : σ → σ} {f : Unit → Tx σ ε β} (h : wp (f ()) R E (g s)) :
    wp (write g >>= f) R E s := by
  rw [wp_bind, wp_write]; exact h

theorem seq_require {c : Prop} [Decidable c] {e : ε} {f : Unit → Tx σ ε β}
    (h : c → wp (f ()) R E s) (he : ¬c → E e) : wp (require c e >>= f) R E s := by
  rw [wp_bind, wp_require]; exact ⟨h, he⟩

theorem seq_ofOption {o : Option α} {e : ε} {f : α → Tx σ ε β}
    (h : ∀ a, o = some a → wp (f a) R E s) (he : o = none → E e) :
    wp (ofOption o e >>= f) R E s := by
  rw [wp_bind, wp_ofOption]; exact ⟨h, he⟩

/-- Both ways a conditional statement can leave the state. -/
theorem seq_when {c : Prop} [Decidable c] {m : Tx σ ε Unit} {f : Unit → Tx σ ε β}
    (h : c → wp m (fun _ s' => wp (f ()) R E s') E s) (h' : ¬c → wp (f ()) R E s) :
    wp (when c m >>= f) R E s := by
  rw [wp_bind, wp_when]; exact ⟨h, h'⟩

theorem seq_forSome {o : Option α} {m : α → Tx σ ε Unit} {f : Unit → Tx σ ε β}
    (h : ∀ a, o = some a → wp (m a) (fun _ s' => wp (f ()) R E s') E s)
    (h' : o = none → wp (f ()) R E s) : wp (forSome o m >>= f) R E s := by
  rw [wp_bind, wp_forSome]; exact ⟨h, h'⟩

/-! ## From bodies to transactions -/

/-- **A committed transaction kept its promise; a rolled-back one changed nothing.** -/
theorem commit_cases {m : Tx σ ε ε} {Q : ε → σ → Prop} (h : wp m Q E s) :
    Q (commit m s).1 (commit m s).2 ∨ E (commit m s).1 ∧ (commit m s).2 = s := by
  unfold wp at h
  unfold commit
  split at h
  · rename_i a s' hm; rw [hm]; exact .inl h
  · rename_i e hm; rw [hm]; exact .inr ⟨h, rfl⟩

/-- What holds of the reply and the state of a commit, and of a rollback's reply and the state as it
was, holds of the transaction. -/
theorem commit_post {m : Tx σ ε ε} {P : ε → σ → Prop} (h : wp m P (fun e => P e s) s) :
    P (commit m s).1 (commit m s).2 := by
  rcases commit_cases h with h | ⟨h, hsame⟩
  · exact h
  · rw [hsame]; exact h

/-- A state predicate that every commit re-establishes survives the transaction. -/
theorem commit_keeps {m : Tx σ ε ε} {I : σ → Prop} (hs : I s)
    (h : wp m (fun _ s' => I s') (fun _ => True) s) : I (commit m s).2 := by
  rcases commit_cases h with h | ⟨-, h⟩
  · exact h
  · rw [h]; exact hs

/-- The same for a relation between the states before and after. -/
theorem commit_rel {m : Tx σ ε ε} {R : σ → σ → Prop} (hrefl : R s s)
    (h : wp m (fun _ s' => R s s') (fun _ => True) s) : R s (commit m s).2 :=
  commit_keeps (I := R s) hrefl h

end Tx

end Transaction
