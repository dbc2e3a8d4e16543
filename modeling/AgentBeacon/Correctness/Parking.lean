import AgentBeacon.Lib.Climb
import AgentBeacon.System.Routes

/-!
# `Correctness.Parking` — which sessions a restart parks

`classify_ancestry` walks up from a session through rows that a crashed scheduler left behind. Whatever these
are, the walk ends by itself, before it runs out of the steps it allows itself; and it finds nothing wrong exactly
when the way up is sound.
-/

namespace AgentBeacon
open Upward

/-- The node under an id. -/
def nodeAt (nodes : List Session) (id : SessionId) : Option Session := nodes.find? fun n => n.id = id

/-- The way up from a session that a restart trusts: it ends at a root, stays inside the execution, repeats no
node, and nobody above the session has terminated or is to. -/
structure SoundAncestry (nodes : List Session) (start : SessionId) (path : List Session) : Prop where
  climb : Climb (nodeAt nodes) Session.parentSessionId start path
  within : ∀ n ∈ path, ∀ m ∈ path, n.executionId = m.executionId
  distinct : (path.map Session.id).Nodup
  live : ∀ n ∈ path.tail, n.desired ≠ .terminate ∧ n.outcome = none

section Walk

variable {nodes : List Session} {start current : SessionId} {path : List Session}

theorem id_of_nodeAt (k : SessionId) (n : Session) (h : nodeAt nodes k = some n) : n.id = k :=
  by
  have hfound := List.find?_some (show nodes.find? (fun n => n.id = k) = some n from h)
  exact of_decide_eq_true hfound

theorem mem_of_nodeAt (k : SessionId) (n : Session) (h : nodeAt nodes k = some n) : n ∈ nodes :=
  List.mem_of_find?_eq_some h

/-- One step of the walk. -/
theorem classifyFrom_succ (steps : Nat) (visited : List SessionId) :
    classifyFrom nodes start (steps + 1) visited current =
      match nodeAt nodes current with
      | none => .corrupt
      | some node =>
          if node.id ∈ visited then .corrupt
          else if current ≠ start ∧ (node.desired = .terminate ∨ node.outcome.isSome) then .terminating
          else
            match node.parentSessionId with
            | none => .clean
            | some parentId =>
                match nodeAt nodes parentId with
                | none => .corrupt
                | some parent =>
                    if parent.executionId ≠ node.executionId then .corrupt
                    else classifyFrom nodes start steps (node.id :: visited) parentId := rfl

/-- What the walk asks of the nodes from `current` on. -/
structure Passes (nodes : List Session) (start : SessionId) (visited : List SessionId) (current : SessionId)
    (path : List Session) : Prop where
  climb : Climb (nodeAt nodes) Session.parentSessionId current path
  fresh : ∀ n ∈ path, n.id ∉ visited
  within : ∀ n ∈ path, ∀ m ∈ path, n.executionId = m.executionId
  live : ∀ n ∈ path, n.id ≠ start → n.desired ≠ .terminate ∧ n.outcome = none

namespace Passes

variable {visited : List SessionId} {node : Session}

/-- The way that ends here. -/
theorem root (hnode : nodeAt nodes current = some node) (hup : node.parentSessionId = none)
    (hseen : node.id ∉ visited) (hlive : node.id ≠ start → node.desired ≠ .terminate ∧ node.outcome = none) :
    Passes nodes start visited current [node] := by
  refine ⟨.root hnode hup, fun n hn => ?_, fun n hn m hm => ?_, fun n hn => ?_⟩
  · rw [List.mem_singleton.mp hn]
    exact hseen
  · rw [List.mem_singleton.mp hn, List.mem_singleton.mp hm]
  · rw [List.mem_singleton.mp hn]
    exact hlive

/-- A way up from the parent, seen from the child. -/
theorem step {parent : Session} {parentId : SessionId} {rest : List Session}
    (hnode : nodeAt nodes current = some node) (hup : node.parentSessionId = some parentId)
    (hparent : nodeAt nodes parentId = some parent) (hexec : parent.executionId = node.executionId)
    (hseen : node.id ∉ visited) (hlive : node.id ≠ start → node.desired ≠ .terminate ∧ node.outcome = none)
    (hrest : Passes nodes start (node.id :: visited) parentId rest) :
    Passes nodes start visited current (node :: rest) := by
  obtain ⟨n, tail, rfl, hfound⟩ := hrest.climb.found
  rw [hparent] at hfound
  obtain rfl := Option.some.inj hfound
  have hsame : ∀ m ∈ parent :: tail, m.executionId = node.executionId := fun m hm =>
    (hrest.within m hm _ List.mem_cons_self).trans hexec
  refine ⟨.step hnode hup hrest.climb, fun m hm => ?_, fun m hm m' hm' => ?_, fun m hm => ?_⟩
  · rcases List.mem_cons.mp hm with rfl | hm
    · exact hseen
    · exact fun hmem => hrest.fresh m hm (List.mem_cons_of_mem _ hmem)
  · rcases List.mem_cons.mp hm with rfl | habove
    · rcases List.mem_cons.mp hm' with rfl | habove'
      · rfl
      · exact (hsame m' habove').symm
    · rcases List.mem_cons.mp hm' with rfl | habove'
      · exact hsame m habove
      · exact hrest.within m habove m' habove'
  · rcases List.mem_cons.mp hm with rfl | hm
    · exact hlive
    · exact hrest.live m hm

/-- What holds of a way up that passes, at its first node. -/
theorem first {path : List Session} (hnode : nodeAt nodes current = some node)
    (h : Passes nodes start visited current path) :
    node.id ∉ visited ∧ (node.id ≠ start → node.desired ≠ .terminate ∧ node.outcome = none) := by
  obtain ⟨n, rest, rfl, hfound⟩ := h.climb.found
  rw [hnode] at hfound
  obtain rfl := Option.some.inj hfound
  exact ⟨h.fresh node List.mem_cons_self, h.live node List.mem_cons_self⟩

/-- The rest of a way up that passes, behind a node with a parent. -/
theorem rest {path : List Session} {parentId : SessionId} (hnode : nodeAt nodes current = some node)
    (hup : node.parentSessionId = some parentId) (h : Passes nodes start visited current path) :
    ∃ parent rest, path = node :: rest ∧ nodeAt nodes parentId = some parent ∧
      parent.executionId = node.executionId ∧ Passes nodes start (node.id :: visited) parentId rest := by
  have hnodup := h.climb.nodup (f := Session.id) id_of_nodeAt
  obtain ⟨hclimb, hfresh, hwithin, hlive⟩ := h
  cases hclimb with
  | @root _ n hfound hroot =>
      rw [hnode] at hfound
      obtain rfl := Option.some.inj hfound
      rw [hup] at hroot
      cases hroot
  | @step _ p n rest hfound hup' hrest =>
      rw [hnode] at hfound
      obtain rfl := Option.some.inj hfound
      rw [hup] at hup'
      obtain rfl := Option.some.inj hup'
      obtain ⟨parent, tail, rfl, hparent⟩ := hrest.found
      rw [List.map_cons, List.nodup_cons] at hnodup
      refine ⟨parent, _, rfl, hparent, ?_, hrest, fun m hm hmem => ?_, fun m hm m' hm' => ?_, fun m hm => ?_⟩
      · exact hwithin _ (List.mem_cons_of_mem _ List.mem_cons_self) _ List.mem_cons_self
      · rcases List.mem_cons.mp hmem with hsame | hmem
        · exact hnodup.1 (hsame ▸ List.mem_map_of_mem hm)
        · exact hfresh m (List.mem_cons_of_mem _ hm) hmem
      · exact hwithin m (List.mem_cons_of_mem _ hm) m' (List.mem_cons_of_mem _ hm')
      · exact hlive m (List.mem_cons_of_mem _ hm)

end Passes

/-- **The walk is clean exactly if** there is a way up that passes, short enough for the steps that are left. -/
theorem classifyFrom_clean (steps : Nat) (visited : List SessionId) :
    classifyFrom nodes start steps visited current = .clean ↔
      ∃ path, Passes nodes start visited current path ∧ path.length ≤ steps := by
  induction steps generalizing visited current with
  | zero =>
      refine ⟨fun h => (by cases h), ?_⟩
      rintro ⟨path, hpasses, hlength⟩
      exact absurd (List.length_eq_zero_iff.mp (Nat.le_zero.mp hlength)) hpasses.climb.ne_nil
  | succ steps ih =>
      rw [classifyFrom_succ]
      cases hnode : nodeAt nodes current with
      | none =>
          refine ⟨fun h => (by cases h), ?_⟩
          rintro ⟨path, hpasses, -⟩
          obtain ⟨n, rest, rfl, hfound⟩ := hpasses.climb.found
          rw [hnode] at hfound
          cases hfound
      | some node =>
          have hid := id_of_nodeAt current node hnode
          dsimp only
          by_cases hseen : node.id ∈ visited
          · rw [if_pos hseen]
            refine ⟨fun h => (by cases h), ?_⟩
            rintro ⟨path, hpasses, -⟩
            exact absurd hseen (hpasses.first hnode).1
          rw [if_neg hseen]
          by_cases hended : current ≠ start ∧ (node.desired = .terminate ∨ node.outcome.isSome)
          · rw [if_pos hended]
            refine ⟨fun h => (by cases h), ?_⟩
            rintro ⟨path, hpasses, -⟩
            obtain ⟨hlive, hopen⟩ := (hpasses.first hnode).2 (by rw [hid]; exact hended.1)
            rcases hended.2 with hdoomed | hover
            · exact absurd hdoomed hlive
            · rw [hopen] at hover
              cases hover
          rw [if_neg hended]
          have hlive : node.id ≠ start → node.desired ≠ .terminate ∧ node.outcome = none := by
            intro hother
            rw [hid] at hother
            refine ⟨fun hdoomed => hended ⟨hother, .inl hdoomed⟩, ?_⟩
            cases hout : node.outcome with
            | none => rfl
            | some o => exact absurd ⟨hother, .inr (by rw [hout]; rfl)⟩ hended
          cases hup : node.parentSessionId with
          | none => exact ⟨fun _ => ⟨[node], .root hnode hup hseen hlive, by simp⟩, fun _ => rfl⟩
          | some parentId =>
              dsimp only
              cases hparent : nodeAt nodes parentId with
              | none =>
                  refine ⟨fun h => (by cases h), ?_⟩
                  rintro ⟨path, hpasses, -⟩
                  obtain ⟨parent, -, -, hfound, -⟩ := hpasses.rest hnode hup
                  rw [hparent] at hfound
                  cases hfound
              | some parent =>
                  dsimp only
                  by_cases hforeign : parent.executionId ≠ node.executionId
                  · rw [if_pos hforeign]
                    refine ⟨fun h => (by cases h), ?_⟩
                    rintro ⟨path, hpasses, -⟩
                    obtain ⟨parent', -, -, hfound, hexec, -⟩ := hpasses.rest hnode hup
                    rw [hparent] at hfound
                    obtain rfl := Option.some.inj hfound
                    exact absurd hexec hforeign
                  rw [if_neg hforeign, ih]
                  constructor
                  · rintro ⟨rest, hpasses, hlength⟩
                    refine ⟨_, .step hnode hup hparent (not_not.mp hforeign) hseen hlive hpasses, ?_⟩
                    rw [List.length_cons]
                    omega
                  · rintro ⟨path, hpasses, hlength⟩
                    obtain ⟨parent', rest, rfl, -, -, hrest⟩ := hpasses.rest hnode hup
                    rw [List.length_cons] at hlength
                    exact ⟨rest, hrest, by omega⟩

/-- Seen from the start, what the walk asks is that the way up is sound. -/
theorem passes_iff_sound : Passes nodes start [] start path ↔ SoundAncestry nodes start path := by
  constructor
  · intro h
    have hnodup := h.climb.nodup (f := Session.id) id_of_nodeAt
    refine ⟨h.climb, h.within, hnodup, fun n hn => h.live n (List.mem_of_mem_tail hn) ?_⟩
    obtain ⟨m, rest, rfl, hfound⟩ := h.climb.found
    rw [List.map_cons, List.nodup_cons, id_of_nodeAt start m hfound] at hnodup
    intro hsame
    exact hnodup.1 (hsame ▸ List.mem_map_of_mem hn)
  · intro h
    refine ⟨h.climb, fun _ _ => List.not_mem_nil, h.within, fun n hn hother => ?_⟩
    obtain ⟨m, rest, rfl, hfound⟩ := h.climb.found
    rcases List.mem_cons.mp hn with rfl | hrest
    · exact absurd (id_of_nodeAt start n hfound) hother
    · exact h.live n hrest

/-- **The walk ends by itself**: more steps than there are nodes change nothing. -/
theorem classifyFrom_stable {steps : Nat} (visited : List SessionId) (hnodup : visited.Nodup)
    (hsub : ∀ id ∈ visited, id ∈ nodes.map Session.id) (hsteps : nodes.length < steps + visited.length) (more : Nat) :
    classifyFrom nodes start (steps + more) visited current = classifyFrom nodes start steps visited current := by
  induction steps generalizing visited current with
  | zero =>
      have hle := (hnodup.subperm hsub).length_le
      rw [List.length_map] at hle
      omega
  | succ steps ih =>
      rw [show steps + 1 + more = (steps + more) + 1 from by omega, classifyFrom_succ, classifyFrom_succ]
      cases hnode : nodeAt nodes current with
      | none => rfl
      | some node =>
          dsimp only
          split
          · rfl
          · next hseen =>
              split
              · rfl
              · cases node.parentSessionId with
                | none => rfl
                | some parentId =>
                    dsimp only
                    cases nodeAt nodes parentId with
                    | none => rfl
                    | some parent =>
                        dsimp only
                        split
                        · rfl
                        · refine ih (node.id :: visited) (List.nodup_cons.mpr ⟨hseen, hnodup⟩) ?_ ?_
                          · intro id hid
                            rcases List.mem_cons.mp hid with rfl | hid
                            · exact List.mem_map_of_mem (mem_of_nodeAt _ _ hnode)
                            · exact hsub id hid
                          · rw [List.length_cons]
                            omega

end Walk

/-- **A restart classifies every graph**: the walk ends, whatever the rows are, and its verdict is clean exactly when
the way up from the session is sound. -/
theorem classifyAncestry_classifies (nodes : List Session) (start : SessionId) :
    (∀ steps, nodes.length < steps →
      classifyFrom nodes start steps [] start = classifyAncestry nodes start) ∧
    (classifyAncestry nodes start = .clean ↔ ∃ path, SoundAncestry nodes start path) := by
  constructor
  · intro steps hsteps
    obtain ⟨more, rfl⟩ := Nat.exists_eq_add_of_lt hsteps
    rw [show nodes.length + more + 1 = (nodes.length + 1) + more from by omega]
    exact classifyFrom_stable [] List.nodup_nil (fun _ h => absurd h List.not_mem_nil) (by simp) more
  · rw [classifyAncestry, classifyFrom_clean]
    constructor
    · rintro ⟨path, hpasses, -⟩
      exact ⟨path, passes_iff_sound.mp hpasses⟩
    · rintro ⟨path, hsound⟩
      refine ⟨path, passes_iff_sound.mpr hsound, ?_⟩
      have hle := hsound.climb.length_le (f := Session.id) id_of_nodeAt mem_of_nodeAt
      omega

end AgentBeacon
