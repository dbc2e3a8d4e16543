import AgentBeacon.Lib.Interleave

/-!
# `Lib.Careful` — requests that call only certain operations

The simplest discipline of `Lib.Interleave` asks for something of each call alone, not of what was called before
it. A program is *careful* when its calls have it whatever the replies are; then every interleaving of careful
programs is a trace of such calls. With it come programs that stop at the first error.
-/

namespace Interleave

variable {M : Machine} {α β ε : Type} {P : M.Op → Prop}

/-- Every call of the program satisfies `P`, whatever runs in between. -/
def Careful (P : M.Op → Prop) (p : Prog M α) : Prop :=
  ∀ me tr, Safe (fun _ _ op => P op) me p (fun _ _ => True) tr

/-- Continue unless a check or a call failed. -/
def Prog.check (a : Except ε α) (k : α → Prog M (Except ε β)) : Prog M (Except ε β) :=
  match a with
  | .error e => .ret (.error e)
  | .ok a => k a

namespace Careful

theorem ret (a : α) : Careful P (.ret a : Prog M α) :=
  fun _ _ => Safe.ret fun _ _ => trivial

theorem call {op : M.Op} {k : M.Reply op → Prog M α} (hop : P op)
    (hk : ∀ i s, M.admits op i s = true → Careful P (k (M.exec op i s).1)) : Careful P (.call op k) := by
  intro me tr
  refine Safe.call (fun _ _ => hop) ?_
  intro tr' i _ htrace
  have hadmits := htrace.of_cons.2.2.1
  exact hk i _ hadmits me _

theorem check {a : Except ε α} {k : α → Prog M (Except ε β)} (hk : ∀ b, a = .ok b → Careful P (k b)) :
    Careful P (Prog.check a k) := by
  cases a with
  | error e => exact ret _
  | ok a => exact hk a rfl

theorem bind {p : Prog M α} {f : α → Prog M β} (hp : Careful P p) (hf : ∀ a, Careful P (f a)) :
    Careful P (p >>= f) := by
  intro me tr
  refine Safe.bind (hp me tr) ?_
  intro tr' a _ _
  exact hf a me tr'

end Careful

/-- **Careful requests make careful calls in every interleaving.** -/
theorem Run.careful {R : Type} {body : R → Prog M Unit} (hbody : ∀ r, Careful P (body r))
    {pool : List (Nat × Prog M Unit)} {tr : List (Event M)} (h : Run body pool tr) :
    Trace (fun _ _ op => P op) tr :=
  (Run.trace (fun r me tr _ => hbody r me tr) h).1

end Interleave
