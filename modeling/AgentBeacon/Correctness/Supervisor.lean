import AgentBeacon.System.Supervisor
import Mathlib.Data.List.Nodup
import Mathlib.Data.List.Perm.Subperm
import Mathlib.Tactic.Common

/-!
# `Correctness.Supervisor` — no worker is lost, and few survive

Whatever the order of the steps, no more workers are tracked than allowed, a running worker is tracked or in the hands
of one call, and `kill_worker` kills its worker, once. A shutdown leaves at most one worker running: one whose
`spawn_worker` had read the flag before it was set, and added it after the workers were read.
-/

namespace AgentBeacon.Supervision

/-! ## Processes -/

/-- Nothing but a spawn makes a process run; what is reaped stays reaped, and no process changes its id. -/
structure Fades (before after : WorkerId → Option WorkerProcess) : Prop where
  running : ∀ worker process, after worker = some process → process.status = .running →
    ∃ earlier, before worker = some earlier ∧ earlier.status = .running ∧ earlier.pid = process.pid
  kept : ∀ worker process, before worker = some process → ∃ later, after worker = some later ∧
    later.pid = process.pid ∧ (process.status = .reaped → later.status = .reaped)
  same : ∀ worker process, after worker = some process → ∃ earlier, before worker = some earlier ∧
    earlier.pid = process.pid ∧ (earlier.status = .reaped → process.status = .reaped)

theorem Fades.refl (processes : WorkerId → Option WorkerProcess) : Fades processes processes :=
  ⟨fun _ process h hrunning => ⟨process, h, hrunning, rfl⟩, fun _ process h => ⟨process, h, rfl, id⟩,
    fun _ process h => ⟨process, h, rfl, id⟩⟩

/-- One process changes: it may die or be reaped. -/
theorem Fades.update {processes : WorkerId → Option WorkerProcess} {worker : WorkerId} {process later : WorkerProcess}
    (h : processes worker = some process) (hpid : later.pid = process.pid)
    (hrunning : later.status = .running → process.status = .running)
    (hreaped : process.status = .reaped → later.status = .reaped) :
    Fades processes (Function.update processes worker (some later)) := by
  refine ⟨fun w q hq hrun => ?_, fun w q hq => ?_, fun w q hq => ?_⟩
  · by_cases hw : w = worker
    · subst hw
      rw [Function.update_self] at hq
      obtain rfl := Option.some.inj hq
      exact ⟨process, h, hrunning hrun, hpid.symm⟩
    · rw [Function.update_of_ne hw] at hq
      exact ⟨q, hq, hrun, rfl⟩
  · by_cases hw : w = worker
    · subst hw
      rw [h] at hq
      obtain rfl := Option.some.inj hq
      exact ⟨later, Function.update_self .., hpid, hreaped⟩
    · exact ⟨q, (Function.update_of_ne hw ..).trans hq, rfl, id⟩
  · by_cases hw : w = worker
    · subst hw
      rw [Function.update_self] at hq
      obtain rfl := Option.some.inj hq
      exact ⟨process, h, hpid.symm, hreaped⟩
    · rw [Function.update_of_ne hw] at hq
      exact ⟨q, hq, rfl, id⟩

/-- A signal kills the running processes that have the id. -/
theorem Fades.sigkill (sup : Supervisor) (pid : Pid) : Fades sup.processes (sup.sigkill pid).processes := by
  have hmap : ∀ w, (sup.sigkill pid).processes w = (sup.processes w).map (WorkerProcess.hit pid) := fun _ => rfl
  refine ⟨fun w q hq hrun => ?_, fun w q hq => ?_, fun w q hq => ?_⟩
  · rw [hmap] at hq
    obtain ⟨p, hp, rfl⟩ := Option.map_eq_some_iff.mp hq
    exact ⟨p, hp, (p.hit_running pid |>.mp hrun).1, (p.hit_pid pid).symm⟩
  · refine ⟨q.hit pid, by rw [hmap, hq, Option.map_some], q.hit_pid pid, (q.hit_reaped pid).mpr⟩
  · rw [hmap] at hq
    obtain ⟨p, hp, rfl⟩ := Option.map_eq_some_iff.mp hq
    exact ⟨p, hp, (p.hit_pid pid).symm, (p.hit_reaped pid).mpr⟩

theorem not_running_setProcess {sup : Supervisor} {worker : WorkerId} {process : WorkerProcess}
    (h : process.status ≠ .running) : ¬(sup.setProcess worker process).Running worker := by
  rintro ⟨later, hlater, hrunning⟩
  have hself : (sup.setProcess worker process).processes worker = some process := Function.update_self ..
  rw [hself] at hlater
  obtain rfl := Option.some.inj hlater
  exact h hrunning

/-- A process that has the id does not run any more. -/
theorem not_running_of_sigkill {sup : Supervisor} {worker : WorkerId} {process : WorkerProcess}
    (h : sup.processes worker = some process) : ¬(sup.sigkill process.pid).Running worker := by
  rintro ⟨later, hlater, hrunning⟩
  have hmap : (sup.sigkill process.pid).processes worker = some (process.hit process.pid) := by
    show (sup.processes worker).map _ = _
    rw [h, Option.map_some]
  rw [hmap] at hlater
  obtain rfl := Option.some.inj hlater
  exact ((process.hit_running process.pid).mp hrunning).2 rfl

/-! ## The lists of workers -/

/-- An entry is taken out. -/
theorem perm_of_mem {entries : List WorkerEntry} (hnodup : (entries.map Prod.fst).Nodup) {worker : WorkerId} {pid : Pid}
    (h : (worker, pid) ∈ entries) :
    entries.Perm ((worker, pid) :: entries.filter fun entry => decide (entry.1 ≠ worker)) := by
  induction entries with
  | nil => cases h
  | cons entry entries ih =>
      obtain ⟨hnot, hrest⟩ := List.nodup_cons.mp hnodup
      rcases List.mem_cons.mp h with rfl | hmem
      · have hkeep : entries.filter (fun entry => decide (entry.1 ≠ worker)) = entries := by
          rw [List.filter_eq_self]
          intro other hother
          refine decide_eq_true fun heq => hnot ?_
          exact List.mem_map.mpr ⟨other, hother, heq⟩
        rw [List.filter_cons, if_neg (by simp), hkeep]
      · have hne : entry.1 ≠ worker := fun heq => hnot (heq ▸ List.mem_map_of_mem (f := Prod.fst) hmem)
        rw [List.filter_cons, if_pos (decide_eq_true hne)]
        exact ((ih hrest hmem).cons entry).trans (List.Perm.swap ..)

namespace Supervisor

/-- The workers that are tracked, or being killed. -/
def entries (sup : Supervisor) : List WorkerEntry := sup.workers ++ sup.kills

/-- All workers that a call of `kill_worker` can have been told of, or will be. -/
def listed (sup : Supervisor) : List WorkerId := sup.entries.map Prod.fst ++ sup.confirmed

end Supervisor

/-! ## What holds in every state -/

/-- What holds in every state. -/
structure Sound (maxWorkers : Option Nat) (sup : Supervisor) : Prop where
  entry : ∀ entry ∈ sup.entries, ∃ process, sup.processes entry.1 = some process ∧ process.pid = entry.2
  once : sup.listed.Nodup
  known : ∀ worker ∈ sup.confirmed, sup.processes worker ≠ none
  dead : ∀ worker ∈ sup.confirmed, ¬sup.Running worker
  pids : ∀ worker other pid, sup.Has worker pid → sup.Has other pid → worker = other
  spawner : ∀ worker, sup.spawning = some (.spawned worker) → sup.processes worker ≠ none ∧ worker ∉ sup.listed
  owners : ∀ worker process, sup.processes worker = some process →
    (process.owner = .exited ∨ process.owner = .unlisting) → process.status = .reaped
  kept : (∀ pidsAndIds, sup.shutdown ≠ .done pidsAndIds) → ∀ worker, sup.Running worker →
    worker ∈ sup.entries.map Prod.fst ∨ sup.spawning = some (.spawned worker)
  room : ∀ max, maxWorkers = some max → sup.workers.length ≤ max ∧
    (sup.spawning = some .counted ∨ (∃ worker, sup.spawning = some (.spawned worker)) → sup.workers.length < max)

theorem Sound.start (maxWorkers : Option Nat) : Sound maxWorkers .start := by
  refine ⟨fun e he => (nomatch he), List.nodup_nil, fun w hw => (nomatch hw), fun w hw => (nomatch hw),
    ?_, ?_, ?_, ?_, ?_⟩
  · rintro w w' pid ⟨q, hq, -⟩
    cases hq
  · intro w h
    cases h
  · intro w q hq
    cases hq
  · rintro - w ⟨q, hq, -⟩
    cases hq
  · intro max _
    refine ⟨Nat.zero_le _, ?_⟩
    rintro (h | ⟨w, h⟩)
    · cases h
    · cases h

section Sound

variable {maxWorkers : Option Nat} {sup sup' : Supervisor}

theorem Fades.of_running (h : Fades sup.processes sup'.processes) {worker : WorkerId} (hrun : sup'.Running worker) :
    sup.Running worker := by
  obtain ⟨q, hq, hrunning⟩ := hrun
  obtain ⟨p, hp, hrunning, -⟩ := h.running worker q hq hrunning
  exact ⟨p, hp, hrunning⟩

theorem Fades.of_has (h : Fades sup.processes sup'.processes) {worker : WorkerId} {pid : Pid}
    (hhas : sup'.Has worker pid) : sup.Has worker pid := by
  obtain ⟨q, hq, hpid, hlive⟩ := hhas
  obtain ⟨p, hp, hsame, hreaped⟩ := h.same worker q hq
  exact ⟨p, hp, hsame.trans hpid, fun hr => hlive (hreaped hr)⟩

theorem Fades.ne_none (h : Fades sup.processes sup'.processes) {worker : WorkerId} (hne : sup.processes worker ≠ none) :
    sup'.processes worker ≠ none := by
  obtain ⟨p, hp⟩ := Option.ne_none_iff_exists'.mp hne
  obtain ⟨q, hq, -⟩ := h.kept worker p hp
  rw [hq]
  exact Option.some_ne_none q

/-- **Processes that only fade** change nothing. -/
theorem Sound.fades (h : Sound maxWorkers sup) {processes : WorkerId → Option WorkerProcess}
    (hfades : Fades sup.processes processes)
    (howners : ∀ worker process, processes worker = some process →
      (process.owner = .exited ∨ process.owner = .unlisting) → process.status = .reaped) :
    Sound maxWorkers { sup with processes } := by
  have hfades' : Fades sup.processes { sup with processes }.processes := hfades
  refine ⟨fun e he => ?_, h.once, fun w hw => hfades'.ne_none (h.known w hw),
    fun w hw hrun => h.dead w hw (hfades'.of_running hrun),
    fun w w' pid hw hw' => h.pids w w' pid (hfades'.of_has hw) (hfades'.of_has hw'),
    fun w hw => ⟨hfades'.ne_none (h.spawner w hw).1, (h.spawner w hw).2⟩, howners,
    fun hopen w hrun => h.kept hopen w (hfades'.of_running hrun), h.room⟩
  obtain ⟨p, hp, hpid⟩ := h.entry e he
  obtain ⟨q, hq, hsame, -⟩ := hfades.kept e.1 p hp
  exact ⟨q, hq, hsame.trans hpid⟩

/-- The call that holds the lock goes on, and has spawned nothing. -/
theorem Sound.goes (h : Sound maxWorkers sup) (hold : ∀ worker, sup.spawning ≠ some (.spawned worker))
    {stage : Option SpawnStage} (hnew : ∀ worker, stage ≠ some (.spawned worker))
    (hcounted : stage = some .counted → ∀ max, maxWorkers = some max → sup.workers.length < max) :
    Sound maxWorkers { sup with spawning := stage } := by
  refine ⟨h.entry, h.once, h.known, h.dead, h.pids, fun w hw => absurd hw (hnew w), h.owners, fun hopen w hrun => ?_,
    fun max hmax => ⟨(h.room max hmax).1, ?_⟩⟩
  · exact (h.kept hopen w hrun).imp_right fun hspawned => absurd hspawned (hold w)
  · rintro (hstage | ⟨w, hw⟩)
    · exact hcounted hstage max hmax
    · exact absurd hw (hnew w)

/-- A change of the shutdown that does not end it, or ends it with no worker tracked. -/
theorem Sound.stage (h : Sound maxWorkers sup) (stage : ShutdownStage) (flag : Bool)
    (hopen : ∀ pidsAndIds, sup.shutdown ≠ .done pidsAndIds) :
    Sound maxWorkers { sup with shutdown := stage, shuttingDown := flag } :=
  ⟨h.entry, h.once, h.known, h.dead, h.pids, h.spawner, h.owners, fun _ => h.kept hopen, h.room⟩

/-- **A worker is spawned.** -/
theorem Sound.spawn (h : Sound maxWorkers sup) {worker : WorkerId} {pid : Pid} (hstage : sup.spawning = some .counted)
    (hdrawn : sup.processes worker = none) (hpid : ∀ other, ¬sup.Has other pid) :
    Sound maxWorkers { sup.setProcess worker ⟨pid, .running, .spawner⟩ with spawning := some (.spawned worker) } := by
  have hother : ∀ {w : WorkerId}, w ≠ worker →
      (sup.setProcess worker ⟨pid, .running, .spawner⟩).processes w = sup.processes w :=
    fun hne => Function.update_of_ne hne ..
  have hself : (sup.setProcess worker ⟨pid, .running, .spawner⟩).processes worker = some ⟨pid, .running, .spawner⟩ :=
    Function.update_self ..
  have hne : ∀ {w : WorkerId}, sup.processes w ≠ none → w ≠ worker := by
    rintro w hw rfl
    exact hw hdrawn
  have hlisted : worker ∉ sup.listed := by
    intro hin
    rcases List.mem_append.mp hin with hin | hin
    · obtain ⟨e, he, rfl⟩ := List.mem_map.mp hin
      obtain ⟨p, hp, -⟩ := h.entry e he
      rw [hdrawn] at hp
      cases hp
    · exact h.known worker hin hdrawn
  refine ⟨fun e he => ?_, h.once, fun w hw => ?_, fun w hw => ?_, ?_, fun w hw => ?_, fun w q hq howner => ?_,
    fun hopen w hrun => ?_, fun max hmax => ⟨(h.room max hmax).1, fun _ => (h.room max hmax).2 (.inl hstage)⟩⟩
  · obtain ⟨p, hp, hsame⟩ := h.entry e he
    exact ⟨p, (hother (hne (by rw [hp]; exact Option.some_ne_none p))).trans hp, hsame⟩
  · show (sup.setProcess worker _).processes w ≠ none
    rw [hother (hne (h.known w hw))]
    exact h.known w hw
  · rintro ⟨q, hq, hrunning⟩
    exact h.dead w hw ⟨q, (hother (hne (h.known w hw))).symm.trans hq, hrunning⟩
  · -- the new process id is nobody else's
    rintro w w' p ⟨q, hq, rfl, hlive⟩ ⟨q', hq', hsame, hlive'⟩
    by_cases hw : w = worker
    · by_cases hw' : w' = worker
      · rw [hw, hw']
      · subst hw
        rw [hself] at hq
        obtain rfl := Option.some.inj hq
        exact absurd ⟨q', (hother hw').symm.trans hq', hsame, hlive'⟩ (hpid w')
    · by_cases hw' : w' = worker
      · subst hw'
        rw [hself] at hq'
        obtain rfl := Option.some.inj hq'
        exact absurd ⟨q, (hother hw).symm.trans hq, hsame.symm, hlive⟩ (hpid w)
      · exact h.pids w w' q.pid ⟨q, (hother hw).symm.trans hq, rfl, hlive⟩
          ⟨q', (hother hw').symm.trans hq', hsame, hlive'⟩
  · obtain rfl : worker = w := SpawnStage.spawned.inj (Option.some.inj hw)
    refine ⟨?_, hlisted⟩
    show (sup.setProcess worker _).processes worker ≠ none
    rw [hself]
    exact Option.some_ne_none _
  · by_cases hw : w = worker
    · subst hw
      rw [hself] at hq
      obtain rfl := Option.some.inj hq
      rcases howner with howner | howner
      · cases howner
      · cases howner
    · exact h.owners w q ((hother hw).symm.trans hq) howner
  · by_cases hw : w = worker
    · exact .inr (by rw [hw])
    · obtain ⟨q, hq, hrunning⟩ := hrun
      rcases h.kept hopen w ⟨q, (hother hw).symm.trans hq, hrunning⟩ with hin | hspawned
      · exact .inl hin
      · rw [hstage] at hspawned
        cases hspawned

/-- The worker spawned is tracked from now on. -/
theorem Sound.insert (h : Sound maxWorkers sup) {worker : WorkerId} {process : WorkerProcess}
    (hstage : sup.spawning = some (.spawned worker)) (hprocess : sup.processes worker = some process) :
    Sound maxWorkers { sup with
      workers := sup.workers ++ [(worker, process.pid)], spawning := some (.inserted worker) } := by
  obtain ⟨-, hlisted⟩ := h.spawner worker hstage
  have hperm : ((sup.workers ++ [(worker, process.pid)]) ++ sup.kills).Perm ((worker, process.pid) :: sup.entries) := by
    rw [List.append_assoc]
    exact List.perm_middle
  refine ⟨fun e he => ?_, ?_, h.known, h.dead, h.pids, fun w hw => (nomatch hw), h.owners, fun hopen w hrun => .inl ?_,
    fun max hmax => ⟨?_, ?_⟩⟩
  · rcases List.mem_cons.mp (hperm.subset he) with rfl | he
    · exact ⟨process, hprocess, rfl⟩
    · exact h.entry e he
  · have hcons : (worker :: sup.listed).Nodup := List.nodup_cons.mpr ⟨hlisted, h.once⟩
    exact (((hperm.map Prod.fst).append_right sup.confirmed).nodup_iff).mpr hcons
  · refine (hperm.map Prod.fst).symm.subset ?_
    rcases h.kept hopen w hrun with hin | hspawned
    · exact List.mem_cons_of_mem _ hin
    · obtain rfl := SpawnStage.spawned.inj (Option.some.inj (hstage.symm.trans hspawned))
      exact List.mem_cons_self
  · have := (h.room max hmax).2 (.inr ⟨worker, hstage⟩)
    simp only [List.length_append, List.length_singleton]
    omega
  · rintro (hcounted | ⟨w, hw⟩)
    · cases hcounted
    · cases hw

/-- What is tracked and what is being killed, after `workers.remove`. -/
theorem Sound.perm_remove (h : Sound maxWorkers sup) {worker : WorkerId} {pid : Pid}
    (hin : (worker, pid) ∈ sup.workers) :
    ((sup.unlisted worker).workers ++ (sup.kills ++ [(worker, pid)])).Perm sup.entries := by
  have hnodup : (sup.workers.map Prod.fst).Nodup := by
    have honce := h.once
    unfold Supervisor.listed Supervisor.entries at honce
    rw [List.map_append, List.append_assoc] at honce
    exact (List.nodup_append.mp honce).1
  have hworkers := (perm_of_mem hnodup hin).append_right sup.kills
  refine List.Perm.trans ?_ hworkers.symm
  rw [← List.append_assoc]
  exact List.perm_append_singleton _ _

/-- **`kill_worker` takes its entry.** -/
theorem Sound.remove (h : Sound maxWorkers sup) {worker : WorkerId} {pid : Pid} (hin : (worker, pid) ∈ sup.workers) :
    Sound maxWorkers { sup.unlisted worker with kills := sup.kills ++ [(worker, pid)] } := by
  have hperm := h.perm_remove hin
  have hlisted := (hperm.map Prod.fst).append_right sup.confirmed
  refine ⟨fun e he => h.entry e (hperm.subset he), hlisted.nodup_iff.mpr h.once, h.known, h.dead, h.pids,
    fun w hw => ⟨(h.spawner w hw).1, fun hmem => (h.spawner w hw).2 (hlisted.subset hmem)⟩, h.owners,
    fun hopen w hrun => (h.kept hopen w hrun).imp_left fun hmem => (hperm.map Prod.fst).symm.subset hmem,
    fun max hmax => ?_⟩
  have hle : (sup.unlisted worker).workers.length ≤ sup.workers.length := List.length_filter_le ..
  obtain ⟨hmost, hfewer⟩ := h.room max hmax
  exact ⟨Nat.le_trans hle hmost, fun hstage => Nat.lt_of_le_of_lt hle (hfewer hstage)⟩

/-- What is being killed, after a signal. -/
theorem Sound.perm_signal (h : Sound maxWorkers sup) {worker : WorkerId} {pid : Pid}
    (hin : (worker, pid) ∈ sup.kills) :
    sup.entries.Perm ((worker, pid) :: (sup.workers ++ sup.kills.filter fun entry => decide (entry.1 ≠ worker))) := by
  have hnodup : (sup.kills.map Prod.fst).Nodup := by
    have honce := h.once
    unfold Supervisor.listed Supervisor.entries at honce
    rw [List.map_append] at honce
    exact (List.nodup_append.mp (List.nodup_append.mp honce).1).2.1
  exact ((perm_of_mem hnodup hin).append_left sup.workers).trans List.perm_middle

/-- **`kill_worker` sends its signal**, and its worker does not run any more. -/
theorem Sound.signal (h : Sound maxWorkers sup) {worker : WorkerId} {pid : Pid} (hin : (worker, pid) ∈ sup.kills) :
    Sound maxWorkers { sup.sigkill pid with
      kills := sup.kills.filter fun entry => decide (entry.1 ≠ worker), confirmed := sup.confirmed ++ [worker] } ∧
      ¬(sup.sigkill pid).Running worker := by
  have hperm := h.perm_signal hin
  have hfades := Fades.sigkill sup pid
  obtain ⟨process, hprocess, hpid⟩ := h.entry _ (List.mem_append_right _ hin)
  obtain rfl : process.pid = pid := hpid
  have hdead : ¬(sup.sigkill process.pid).Running worker := not_running_of_sigkill hprocess
  have hfaded : Sound maxWorkers (sup.sigkill process.pid) := h.fades hfades fun w q hq howner => by
    obtain ⟨p, hp, rfl⟩ := Option.map_eq_some_iff.mp hq
    rw [p.hit_owner] at howner
    exact (p.hit_reaped _).mpr (h.owners w p hp howner)
  have hlisted : sup.listed.Perm
      ((sup.workers ++ sup.kills.filter fun entry => decide (entry.1 ≠ worker)).map Prod.fst ++
        (sup.confirmed ++ [worker])) := by
    refine ((hperm.map Prod.fst).append_right sup.confirmed).trans ?_
    rw [← List.append_assoc]
    exact (List.perm_append_singleton _ _).symm
  refine ⟨⟨fun e he => hfaded.entry e (hperm.symm.subset (List.mem_cons_of_mem _ he)), hlisted.nodup_iff.mp h.once,
    fun w hw => ?_, fun w hw => ?_, hfaded.pids, fun w hw => ?_, hfaded.owners, fun hopen w hrun => ?_, h.room⟩, hdead⟩
  · rcases List.mem_append.mp hw with hw | hw
    · exact hfaded.known w hw
    · obtain rfl := List.mem_singleton.mp hw
      exact hfades.ne_none (by rw [hprocess]; exact Option.some_ne_none _)
  · rcases List.mem_append.mp hw with hw | hw
    · exact hfaded.dead w hw
    · obtain rfl := List.mem_singleton.mp hw
      exact hdead
  · exact ⟨(hfaded.spawner w hw).1, fun hmem => (h.spawner w hw).2 (hlisted.symm.subset hmem)⟩
  · refine (hfaded.kept hopen w hrun).imp_left fun hmem => ?_
    refine (List.mem_cons.mp ((hperm.map Prod.fst).subset hmem)).resolve_left ?_
    rintro rfl
    exact hdead hrun

/-- A worker that is not running is taken out. -/
theorem Sound.unlisted (h : Sound maxWorkers sup) {worker : WorkerId} (hdead : ¬sup.Running worker) :
    Sound maxWorkers (sup.unlisted worker) := by
  have hsub : ((sup.unlisted worker).workers ++ sup.kills).Sublist sup.entries :=
    List.filter_sublist.append (List.Sublist.refl _)
  have hlisted := (hsub.map Prod.fst).append (List.Sublist.refl sup.confirmed)
  refine ⟨fun e he => h.entry e (hsub.subset he), h.once.sublist hlisted, h.known, h.dead, h.pids,
    fun w hw => ⟨(h.spawner w hw).1, fun hmem => (h.spawner w hw).2 (hlisted.subset hmem)⟩, h.owners,
    fun hopen w hrun => (h.kept hopen w hrun).imp_left fun hmem => ?_, fun max hmax => ?_⟩
  · obtain ⟨e, he, rfl⟩ := List.mem_map.mp hmem
    refine List.mem_map_of_mem ?_
    rcases List.mem_append.mp he with he | he
    · refine List.mem_append_left _ (List.mem_filter.mpr ⟨he, decide_eq_true ?_⟩)
      rintro rfl
      exact hdead hrun
    · exact List.mem_append_right _ he
  · have hle : (sup.unlisted worker).workers.length ≤ sup.workers.length := List.length_filter_le ..
    obtain ⟨hmost, hfewer⟩ := h.room max hmax
    exact ⟨Nat.le_trans hle hmost, fun hstage => Nat.lt_of_le_of_lt hle (hfewer hstage)⟩

/-- The end of `shutdown`. -/
theorem Sound.cleared (h : Sound maxWorkers sup) (pidsAndIds : List WorkerEntry) :
    Sound maxWorkers (sup.cleared pidsAndIds) := by
  have hsub : ((sup.cleared pidsAndIds).workers ++ sup.kills).Sublist sup.entries := List.sublist_append_right _ _
  have hlisted := (hsub.map Prod.fst).append (List.Sublist.refl sup.confirmed)
  refine ⟨fun e he => h.entry e (hsub.subset he), h.once.sublist hlisted, h.known, h.dead, h.pids,
    fun w hw => ⟨(h.spawner w hw).1, fun hmem => (h.spawner w hw).2 (hlisted.subset hmem)⟩, h.owners,
    fun hopen => absurd rfl (hopen pidsAndIds), fun max hmax => ⟨Nat.zero_le _, fun hstage => ?_⟩⟩
  exact Nat.lt_of_le_of_lt (Nat.zero_le _) ((h.room max hmax).2 hstage)

/-- A process that changes by itself or in the hands of its owner. -/
theorem Sound.update (h : Sound maxWorkers sup) {worker : WorkerId} {process later : WorkerProcess}
    (hprocess : sup.processes worker = some process) (hpid : later.pid = process.pid)
    (hrunning : later.status = .running → process.status = .running)
    (hreaped : process.status = .reaped → later.status = .reaped)
    (howner : later.owner = .exited ∨ later.owner = .unlisting → later.status = .reaped) :
    Sound maxWorkers (sup.setProcess worker later) := by
  refine h.fades (.update hprocess hpid hrunning hreaped) fun w q hq hexited => ?_
  by_cases hw : w = worker
  · subst hw
    rw [Function.update_self] at hq
    obtain rfl := Option.some.inj hq
    exact howner hexited
  · rw [Function.update_of_ne hw] at hq
    exact h.owners w q hq hexited

/-- **Every step** keeps what holds. -/
theorem Sound.step (h : Sound maxWorkers sup) {act : SupervisorStep} (hstep : Step maxWorkers sup act sup') :
    Sound maxWorkers sup' := by
  cases hstep with
  | lock hfree =>
      exact h.goes (fun w hw => by rw [hfree] at hw; cases hw) (fun w hw => nomatch hw) (fun hc => nomatch hc)
  | readShuttingDown hlocked =>
      refine h.goes (fun w hw => by rw [hlocked] at hw; cases hw) (fun w hw => ?_) fun hc => ?_
      · split at hw
        · cases hw
        · cases hw
      · split at hc
        · cases hc
        · cases hc
  | readCount hadmitted =>
      refine h.goes (fun w hw => by rw [hadmitted] at hw; cases hw) (fun w hw => ?_) fun hc max hmax => ?_
      · split at hw
        · cases hw
        · cases hw
      · split at hc
        · cases hc
        · rename_i hfull
          subst hmax
          unfold Supervisor.full at hfull
          exact Nat.lt_of_not_le fun hle => hfull (decide_eq_true hle)
  | spawn hstage hdrawn hpid => exact h.spawn hstage hdrawn hpid
  | spawnFails hstage =>
      exact h.goes (fun w hw => by rw [hstage] at hw; cases hw) (fun w hw => nomatch hw) (fun hc => nomatch hc)
  | @pipeMissing worker process hstage hprocess =>
      have hkilled : Sound maxWorkers (sup.setProcess worker { process.killed with owner := .dropped }) :=
        h.update hprocess process.killed_pid (fun hrun => absurd hrun process.killed_not_running)
          (fun hr => WorkerProcess.killed_reaped.mpr hr)
          (fun howner => howner.elim OwnerStage.noConfusion OwnerStage.noConfusion)
      have hdead : ¬(sup.setProcess worker { process.killed with owner := .dropped }).Running worker :=
        not_running_setProcess process.killed_not_running
      refine ⟨hkilled.entry, hkilled.once, hkilled.known, hkilled.dead, hkilled.pids, fun w hw => (nomatch hw),
        hkilled.owners, fun hopen w hrun => ?_, fun max hmax => ⟨(h.room max hmax).1, ?_⟩⟩
      · refine (hkilled.kept hopen w hrun).imp_right fun hspawned => ?_
        obtain rfl := SpawnStage.spawned.inj (Option.some.inj (hstage.symm.trans hspawned))
        exact absurd hrun hdead
      · rintro (hcounted | ⟨w, hw⟩)
        · cases hcounted
        · cases hw
  | insert hstage hprocess => exact h.insert hstage hprocess
  | @unlock worker process hstage hprocess =>
      have hwaiting : Sound maxWorkers (sup.setProcess worker { process with owner := .waiting }) :=
        h.update hprocess rfl id id (fun howner => howner.elim OwnerStage.noConfusion OwnerStage.noConfusion)
      exact hwaiting.goes (fun w hw => nomatch hstage.symm.trans hw) (fun w hw => nomatch hw) (fun hc => nomatch hc)
  | remove hin => exact h.remove hin
  | signal hin => exact (h.signal hin).1
  | @exit worker process hprocess hrunning =>
      refine h.update hprocess rfl (fun _ => hrunning) (fun hr => ?_) fun howner => ?_
      · rw [hrunning] at hr
        cases hr
      · have hreaped := h.owners worker process hprocess howner
        rw [hrunning] at hreaped
        cases hreaped
  | reap hprocess hzombie howner =>
      exact h.update hprocess rfl (fun hrun => nomatch hrun) (fun _ => rfl) fun _ => rfl
  | @monitorReads worker process hprocess hexited =>
      exact h.update hprocess rfl id id fun _ => h.owners worker process hprocess (.inl hexited)
  | @monitorRemoves worker process hprocess hunlisting =>
      have hreaped := h.owners worker process hprocess (.inr hunlisting)
      have hover : Sound maxWorkers (sup.setProcess worker { process with owner := .over }) :=
        h.update hprocess rfl id id fun _ => hreaped
      refine hover.unlisted (not_running_setProcess ?_)
      rw [hreaped]
      exact ProcessStatus.noConfusion
  | shutdown hstage => exact h.stage _ _ fun l hl => nomatch hstage.symm.trans hl
  | snapshot hstage => exact h.stage _ _ fun l hl => nomatch hstage.symm.trans hl
  | polledNone hstage => exact h.cleared _
  | polledDead hstage hdead => exact h.stage _ _ fun l hl => nomatch hstage.symm.trans hl
  | polledAlive hstage => exact h.stage _ _ fun l hl => nomatch hstage.symm.trans hl
  | killedAll hstage => exact h.cleared _
  | @killNext pidsAndIds rest entry hstage =>
      have hfaded : Sound maxWorkers (sup.sigkill entry.2) := by
        refine h.fades (Fades.sigkill sup entry.2) fun w q hq howner => ?_
        obtain ⟨p, hp, rfl⟩ := Option.map_eq_some_iff.mp hq
        rw [p.hit_owner] at howner
        exact (p.hit_reaped entry.2).mpr (h.owners w p hp howner)
      exact hfaded.stage _ _ fun l hl => nomatch hstage.symm.trans hl

theorem Sound.run (h : Sound maxWorkers sup) {steps : List SupervisorStep} (hrun : Run maxWorkers sup steps sup') :
    Sound maxWorkers sup' := by
  induction hrun with
  | refl => exact h
  | step _ hstep ih => exact ih.step hstep

end Sound

/-! ## After the workers are read for the shutdown -/

/-- The workers that were read, and those the loop has still to go through. -/
def ShutdownStage.loop : ShutdownStage → Option (List WorkerEntry × List WorkerEntry)
  | .notCalled => none
  | .flagged => none
  | .polling pidsAndIds rest => some (pidsAndIds, rest)
  | .killing pidsAndIds rest => some (pidsAndIds, rest)
  | .done pidsAndIds => some (pidsAndIds, [])

namespace Supervisor

/-- A worker that runs, was not read, and that no call is about to kill. -/
def Late (sup : Supervisor) (pidsAndIds : List WorkerEntry) (worker : WorkerId) : Prop :=
  sup.Running worker ∧ worker ∉ pidsAndIds.map Prod.fst ∧ worker ∉ sup.kills.map Prod.fst

/-- A call of `spawn_worker` has read the flag, and not yet spawned. -/
def Passed (sup : Supervisor) : Prop := sup.spawning = some .admitted ∨ sup.spawning = some .counted

end Supervisor

/-- What holds from then on. `admitted`: a call of `spawn_worker` had read the flag and not added its worker. -/
structure Past (admitted : Prop) (pidsAndIds : List WorkerEntry) (sup : Supervisor) : Prop where
  flag : sup.shuttingDown = true
  read : ∀ entry ∈ pidsAndIds, ∃ process, sup.processes entry.1 = some process ∧ process.pid = entry.2
  stage : ∃ rest, sup.shutdown.loop = some (pidsAndIds, rest) ∧
    ∀ entry ∈ pidsAndIds, entry ∉ rest → ¬sup.Running entry.1
  one : ∀ worker other, sup.Late pidsAndIds worker → sup.Late pidsAndIds other → worker = other
  next : sup.Passed → ∀ worker, ¬sup.Late pidsAndIds worker
  none : ¬admitted → ¬sup.Passed ∧ ∀ worker, ¬sup.Late pidsAndIds worker

section Past

variable {maxWorkers : Option Nat} {admitted : Prop} {pidsAndIds : List WorkerEntry} {sup sup' : Supervisor}

/-- **The workers are read.** Those that run and are not tracked are in the hands of one call. -/
theorem Past.snapshot (h : Sound maxWorkers sup) (hstage : sup.shutdown = .flagged) (hflag : sup.shuttingDown = true)
    (hadmitted : sup.Passed ∨ (∃ worker, sup.spawning = some (.spawned worker)) → admitted) :
    Past admitted sup.workers { sup with shutdown := .polling sup.workers sup.workers } := by
  have hlate : ∀ w, Supervisor.Late { sup with shutdown := .polling sup.workers sup.workers } sup.workers w →
      sup.spawning = some (.spawned w) := by
    rintro w ⟨hrun, hworkers, hkills⟩
    refine (h.kept (fun l hl => nomatch hstage.symm.trans hl) w hrun).resolve_left fun hmem => ?_
    rw [Supervisor.entries, List.map_append] at hmem
    exact (List.mem_append.mp hmem).elim hworkers hkills
  refine ⟨hflag, fun e he => h.entry e (List.mem_append_left _ he), ⟨sup.workers, rfl, fun e he hnot => absurd he hnot⟩,
    fun w w' hw hw' => ?_, fun hpassed w hw => ?_, fun hnone => ⟨fun hpassed => hnone (hadmitted (.inl hpassed)),
      fun w hw => hnone (hadmitted (.inr ⟨w, hlate w hw⟩))⟩⟩
  · exact SpawnStage.spawned.inj (Option.some.inj ((hlate w hw).symm.trans (hlate w' hw')))
  · rcases hpassed with hpassed | hpassed
    · exact nomatch (show sup.spawning = some .admitted from hpassed).symm.trans (hlate w hw)
    · exact nomatch (show sup.spawning = some .counted from hpassed).symm.trans (hlate w hw)

/-- A step in which processes only fade. -/
theorem Past.fades (h : Past admitted pidsAndIds sup) (hfades : Fades sup.processes sup'.processes)
    (hflag : sup'.shuttingDown = sup.shuttingDown)
    (hstage : ∃ rest, sup'.shutdown.loop = some (pidsAndIds, rest) ∧
      ∀ entry ∈ pidsAndIds, entry ∉ rest → ¬sup'.Running entry.1)
    (hkills : ∀ worker ∈ sup.kills.map Prod.fst, worker ∈ sup'.kills.map Prod.fst ∨ ¬sup'.Running worker)
    (hpassed : sup'.Passed → sup.Passed) : Past admitted pidsAndIds sup' := by
  have hlate : ∀ w, sup'.Late pidsAndIds w → sup.Late pidsAndIds w := by
    rintro w ⟨hrun, hread, hnot⟩
    exact ⟨hfades.of_running hrun, hread, fun hmem => (hkills w hmem).elim hnot fun hdead => hdead hrun⟩
  refine ⟨hflag.trans h.flag, fun e he => ?_, hstage, fun w w' hw hw' => h.one w w' (hlate w hw) (hlate w' hw'),
    fun hnext w hw => h.next (hpassed hnext) w (hlate w hw), fun hnone => ?_⟩
  · obtain ⟨p, hp, hpid⟩ := h.read e he
    obtain ⟨q, hq, hsame, -⟩ := hfades.kept e.1 p hp
    exact ⟨q, hq, hsame.trans hpid⟩
  · obtain ⟨hnot, hnolate⟩ := h.none hnone
    exact ⟨fun hnext => hnot (hpassed hnext), fun w hw => hnolate w (hlate w hw)⟩

/-- A step that does not concern the loop. -/
theorem Past.beside (h : Past admitted pidsAndIds sup) (hfades : Fades sup.processes sup'.processes)
    (hflag : sup'.shuttingDown = sup.shuttingDown) (hstage : sup'.shutdown = sup.shutdown)
    (hkills : ∀ worker ∈ sup.kills.map Prod.fst, worker ∈ sup'.kills.map Prod.fst ∨ ¬sup'.Running worker)
    (hpassed : sup'.Passed → sup.Passed) : Past admitted pidsAndIds sup' := by
  refine h.fades hfades hflag ?_ hkills hpassed
  obtain ⟨rest, hloop, hdead⟩ := h.stage
  exact ⟨rest, hstage ▸ hloop, fun e he hnot hrun => hdead e he hnot (hfades.of_running hrun)⟩

/-- The loop goes on with the workers that were read. -/
theorem Past.loop (h : Past admitted pidsAndIds sup) {l r : List WorkerEntry} (hl : sup.shutdown.loop = some (l, r)) :
    l = pidsAndIds ∧ ∀ e ∈ pidsAndIds, e ∉ r → ¬sup.Running e.1 := by
  obtain ⟨rest', hrest', hdead⟩ := h.stage
  obtain ⟨rfl, rfl⟩ := Prod.mk.inj (Option.some.inj (hl.symm.trans hrest'))
  exact ⟨rfl, hdead⟩

/-- A process is spawned: it is the one that is late. -/
theorem Past.spawn (h : Past admitted pidsAndIds sup) {worker : WorkerId} {pid : Pid}
    (hstage : sup.spawning = some .counted) (hdrawn : sup.processes worker = Option.none) :
    Past admitted pidsAndIds { sup.setProcess worker ⟨pid, .running, .spawner⟩ with
      spawning := some (.spawned worker) } := by
  have hnolate := h.next (.inr hstage)
  have hother : ∀ {w : WorkerId}, w ≠ worker →
      (sup.setProcess worker ⟨pid, .running, .spawner⟩).processes w = sup.processes w :=
    fun hne => Function.update_of_ne hne ..
  have hread : ∀ e ∈ pidsAndIds, e.1 ≠ worker := by
    rintro e he heq
    obtain ⟨p, hp, -⟩ := h.read e he
    rw [heq, hdrawn] at hp
    cases hp
  have hlate : ∀ w, Supervisor.Late { sup.setProcess worker ⟨pid, .running, .spawner⟩ with
      spawning := some (.spawned worker) } pidsAndIds w → w = worker := by
    rintro w ⟨⟨q, hq, hrun⟩, hnot⟩
    by_contra hne
    exact hnolate w ⟨⟨q, (hother hne).symm.trans hq, hrun⟩, hnot⟩
  refine ⟨h.flag, fun e he => ?_, ?_, fun w w' hw hw' => (hlate w hw).trans (hlate w' hw').symm, fun hp => ?_,
    fun hnone => absurd (Or.inr hstage) (h.none hnone).1⟩
  · obtain ⟨p, hp, hsame⟩ := h.read e he
    exact ⟨p, (hother (hread e he)).trans hp, hsame⟩
  · obtain ⟨rest, hrest, hdead⟩ := h.stage
    refine ⟨rest, hrest, fun e he hnot => ?_⟩
    rintro ⟨q, hq, hrun⟩
    exact hdead e he hnot ⟨q, (hother (hread e he)).symm.trans hq, hrun⟩
  · exact hp.elim (fun h => nomatch h) (fun h => nomatch h)

/-- A poll finds the next worker dead. -/
theorem Past.polledDead (h : Past admitted pidsAndIds sup) {l rest : List WorkerEntry} {entry : WorkerEntry}
    (hstage : sup.shutdown = .polling l (entry :: rest)) (hdead : ∀ worker, ¬sup.Has worker entry.2) :
    Past admitted pidsAndIds { sup with shutdown := .polling l rest } := by
  obtain ⟨rfl, hpast⟩ := h.loop (l := l) (r := entry :: rest) (by rw [hstage]; rfl)
  refine h.fades (.refl _) rfl ⟨rest, rfl, fun e he hnot => ?_⟩ (fun w hw => .inl hw) id
  by_cases heq : e = entry
  · -- no process has the id, so the worker's is reaped
    rintro ⟨q, hq, hrun⟩
    obtain ⟨p, hp, hpid⟩ := h.read e he
    obtain rfl := Option.some.inj (hp.symm.trans hq)
    refine hdead e.1 ⟨p, hp, heq ▸ hpid, ?_⟩
    rw [hrun]
    exact ProcessStatus.noConfusion
  · exact hpast e he fun hmem => (List.mem_cons.mp hmem).elim heq hnot

/-- The next worker is killed. -/
theorem Past.killNext (h : Past admitted pidsAndIds sup) {l rest : List WorkerEntry} {entry : WorkerEntry}
    (hstage : sup.shutdown = .killing l (entry :: rest)) :
    Past admitted pidsAndIds { sup.sigkill entry.2 with shutdown := .killing l rest } := by
  obtain ⟨rfl, hpast⟩ := h.loop (l := l) (r := entry :: rest) (by rw [hstage]; rfl)
  have hfades := Fades.sigkill sup entry.2
  have hnext : ∀ e ∈ l, e ∉ rest → ¬(sup.sigkill entry.2).Running e.1 := by
    intro e he hnot
    by_cases heq : e = entry
    · obtain ⟨p, hp, hpid⟩ := h.read e he
      rw [← heq, ← hpid]
      exact not_running_of_sigkill hp
    · exact fun hrun => hpast e he (fun hmem => (List.mem_cons.mp hmem).elim heq hnot) (hfades.of_running hrun)
  exact h.fades hfades rfl ⟨rest, rfl, hnext⟩ (fun w hw => .inl hw) id

/-- **Every step** after the workers are read. -/
theorem Past.step (h : Past admitted pidsAndIds sup) (hsound : Sound maxWorkers sup) {act : SupervisorStep}
    (hstep : Step maxWorkers sup act sup') : Past admitted pidsAndIds sup' := by
  have hsame : Fades sup.processes sup.processes := .refl _
  cases hstep with
  | lock hfree =>
      exact h.beside hsame rfl rfl (fun w hw => .inl hw) fun hp => hp.elim (fun h => nomatch h) (fun h => nomatch h)
  | readShuttingDown hlocked =>
      refine h.beside hsame rfl rfl (fun w hw => .inl hw) fun hp => ?_
      unfold Supervisor.Passed at hp
      dsimp only at hp
      rw [if_pos h.flag] at hp
      exact hp.elim (fun h => nomatch h) (fun h => nomatch h)
  | readCount hadmitted => exact h.beside hsame rfl rfl (fun w hw => .inl hw) fun _ => .inl hadmitted
  | spawn hstage hdrawn hpid => exact h.spawn hstage hdrawn
  | spawnFails hstage =>
      exact h.beside hsame rfl rfl (fun w hw => .inl hw) fun hp => hp.elim (fun h => nomatch h) (fun h => nomatch h)
  | @pipeMissing worker process hstage hprocess =>
      refine h.beside (.update hprocess process.killed_pid (fun hrun => absurd hrun process.killed_not_running)
        fun hr => WorkerProcess.killed_reaped.mpr hr) rfl rfl (fun w hw => .inl hw) fun hp => ?_
      exact hp.elim (fun h => nomatch h) (fun h => nomatch h)
  | insert hstage hprocess =>
      exact h.beside hsame rfl rfl (fun w hw => .inl hw) fun hp => hp.elim (fun h => nomatch h) (fun h => nomatch h)
  | unlock hstage hprocess =>
      refine h.beside (.update hprocess rfl id id) rfl rfl (fun w hw => .inl hw) fun hp => ?_
      exact hp.elim (fun h => nomatch h) (fun h => nomatch h)
  | remove hin =>
      refine h.beside hsame rfl rfl (fun w hw => .inl ?_) id
      rw [List.map_append]
      exact List.mem_append_left _ hw
  | @signal worker pid hin =>
      refine h.beside (.sigkill sup pid) rfl rfl (fun w hw => ?_) id
      by_cases hw' : w = worker
      · exact .inr (hw' ▸ (hsound.signal hin).2)
      · obtain ⟨e, he, rfl⟩ := List.mem_map.mp hw
        exact .inl (List.mem_map_of_mem (List.mem_filter.mpr ⟨he, decide_eq_true hw'⟩))
  | exit hprocess hrunning =>
      refine h.beside (.update hprocess rfl (fun _ => hrunning) fun hr => ?_) rfl rfl (fun w hw => .inl hw) id
      rw [hrunning] at hr
      cases hr
  | reap hprocess hzombie howner =>
      exact h.beside (.update hprocess rfl (fun hrun => nomatch hrun) fun _ => rfl) rfl rfl (fun w hw => .inl hw) id
  | monitorReads hprocess hexited =>
      exact h.beside (.update hprocess rfl id id) rfl rfl (fun w hw => .inl hw) id
  | monitorRemoves hprocess hunlisting =>
      exact h.beside (.update hprocess rfl id id) rfl rfl (fun w hw => .inl hw) id
  | shutdown hstage =>
      obtain ⟨rest, hrest, -⟩ := h.stage
      rw [hstage] at hrest
      cases hrest
  | snapshot hstage =>
      obtain ⟨rest, hrest, -⟩ := h.stage
      rw [hstage] at hrest
      cases hrest
  | @polledNone l late hstage =>
      obtain ⟨rfl, hdead⟩ := h.loop (l := l) (r := []) (by rw [hstage]; rfl)
      exact h.fades hsame rfl ⟨[], rfl, hdead⟩ (fun w hw => .inl hw) id
  | polledDead hstage hdead => exact h.polledDead hstage hdead
  | @polledAlive l rest entry late hstage =>
      obtain ⟨rfl, hpast⟩ := h.loop (l := l) (r := entry :: rest) (by rw [hstage]; rfl)
      refine h.fades hsame rfl ⟨l, ?_, fun e he hnot => absurd he hnot⟩ (fun w hw => .inl hw) id
      cases late with
      | true => rfl
      | false => rfl
  | @killedAll l hstage =>
      obtain ⟨rfl, hdead⟩ := h.loop (l := l) (r := []) (by rw [hstage]; rfl)
      exact h.fades hsame rfl ⟨[], rfl, hdead⟩ (fun w hw => .inl hw) id
  | killNext hstage => exact h.killNext hstage

theorem Past.run (h : Past admitted pidsAndIds sup) (hsound : Sound maxWorkers sup) {steps : List SupervisorStep}
    (hrun : Run maxWorkers sup steps sup') : Past admitted pidsAndIds sup' := by
  induction hrun with
  | refl => exact h
  | step hrun hstep ih => exact ih.step (hsound.run hrun) hstep

end Past

/-! ## Whole runs -/

/-- The worker that a step kills for `kill_worker`. -/
def SupervisorStep.kills : SupervisorStep → Option WorkerId
  | .signal worker => some worker
  | _ => none

section Runs

variable {maxWorkers : Option Nat} {sup sup' : Supervisor} {steps : List SupervisorStep}

/-- `Confirmed` is what a signal leads to. -/
theorem Run.confirmed (hrun : Run maxWorkers sup steps sup') :
    sup'.confirmed = sup.confirmed ++ steps.filterMap SupervisorStep.kills := by
  induction hrun with
  | refl => exact (List.append_nil _).symm
  | @step s' s'' steps act _ hstep ih =>
      rw [List.filterMap_append, ← List.append_assoc, ← ih]
      cases hstep with
      | signal hin => rfl
      | _ => exact (List.append_nil _).symm

/-- The flag is set as soon as the shutdown begins. -/
theorem Run.flag (hrun : Run maxWorkers sup steps sup') (h : sup.shutdown ≠ .notCalled → sup.shuttingDown = true) :
    sup'.shutdown ≠ .notCalled → sup'.shuttingDown = true := by
  induction hrun with
  | refl => exact h
  | step _ hstep ih =>
      intro hcalled
      cases hstep with
      | shutdown _ => rfl
      | snapshot hstage => exact ih (hstage ▸ ShutdownStage.noConfusion)
      | polledNone hstage => exact ih (hstage ▸ ShutdownStage.noConfusion)
      | polledDead hstage _ => exact ih (hstage ▸ ShutdownStage.noConfusion)
      | polledAlive hstage => exact ih (hstage ▸ ShutdownStage.noConfusion)
      | killedAll hstage => exact ih (hstage ▸ ShutdownStage.noConfusion)
      | killNext hstage => exact ih (hstage ▸ ShutdownStage.noConfusion)
      | _ => exact ih hcalled

/-- **No more workers than allowed, and none is lost.** Whatever the order in which calls of `spawn_worker` and
`kill_worker`, the monitors, the exits of workers and a shutdown take their steps: at most `max_workers` workers are
tracked; until the shutdown has ended, every worker that runs is tracked, or is in the hands of the one call that is
spawning it, or of a call that is about to kill it; so at most `max_workers` workers run, and those about to be
killed. -/
theorem workers_bounded (hrun : Run maxWorkers .start steps sup) :
    (∀ max, maxWorkers = some max → sup.workers.length ≤ max) ∧
    ((∀ pidsAndIds, sup.shutdown ≠ .done pidsAndIds) →
      (∀ worker, sup.Running worker → worker ∈ sup.workers.map Prod.fst ∨ worker ∈ sup.kills.map Prod.fst ∨
        sup.spawning = some (.spawned worker)) ∧
      ∀ max, maxWorkers = some max → ∀ running : List WorkerId, running.Nodup →
        (∀ worker ∈ running, sup.Running worker) → running.length ≤ max + sup.kills.length) := by
  have h := (Sound.start maxWorkers).run hrun
  refine ⟨fun max hmax => (h.room max hmax).1, fun hopen => ⟨fun w hrun => ?_, fun max hmax running hnodup hall => ?_⟩⟩
  · rcases h.kept hopen w hrun with hin | hspawned
    · rw [Supervisor.entries, List.map_append] at hin
      exact (List.mem_append.mp hin).imp_right .inl
    · exact .inr (.inr hspawned)
  · obtain ⟨hmost, hfewer⟩ := h.room max hmax
    have hlength : (sup.entries.map Prod.fst).length = sup.workers.length + sup.kills.length := by
      rw [List.length_map, Supervisor.entries, List.length_append]
    by_cases hspawned : ∃ worker, sup.spawning = some (.spawned worker)
    · obtain ⟨worker, hworker⟩ := hspawned
      have hsub : running ⊆ worker :: sup.entries.map Prod.fst := by
        intro w hw
        rcases h.kept hopen w (hall w hw) with hin | hspawned
        · exact List.mem_cons_of_mem _ hin
        · obtain rfl := SpawnStage.spawned.inj (Option.some.inj (hworker.symm.trans hspawned))
          exact List.mem_cons_self
      have hle := (List.subperm_of_subset hnodup hsub).length_le
      have hlt := hfewer (.inr ⟨worker, hworker⟩)
      rw [List.length_cons, hlength] at hle
      omega
    · have hsub : running ⊆ sup.entries.map Prod.fst := fun w hw =>
        (h.kept hopen w (hall w hw)).resolve_right fun hs => hspawned ⟨w, hs⟩
      have hle := (List.subperm_of_subset hnodup hsub).length_le
      omega

/-- **`kill_worker` kills its worker, once.** Whatever the order of the steps: no worker is killed twice, and one that
was killed does not run. A signal leaves its worker dead, and strikes another one only if its own worker had already
been reaped, and the other one been given the process id. -/
theorem kill_worker_kills (hrun : Run maxWorkers .start steps sup) :
    (steps.filterMap SupervisorStep.kills).Nodup ∧
    (∀ worker, .signal worker ∈ steps → ¬sup.Running worker) ∧
    ∀ worker after, Step maxWorkers sup (.signal worker) after → ¬after.Running worker ∧
      ∀ other, other ≠ worker → sup.Running other → ¬after.Running other →
        ∃ process, sup.processes worker = some process ∧ process.status = .reaped ∧ sup.Has other process.pid := by
  have h := (Sound.start maxWorkers).run hrun
  have hconfirmed : sup.confirmed = steps.filterMap SupervisorStep.kills := hrun.confirmed
  refine ⟨?_, fun w hw => ?_, fun w after hstep => ?_⟩
  · rw [← hconfirmed]
    exact (List.nodup_append.mp h.once).2.1
  · refine h.dead w ?_
    rw [hconfirmed]
    exact List.mem_filterMap.mpr ⟨_, hw, rfl⟩
  · cases hstep with
    | @signal _ pid hin =>
        obtain ⟨p, hp, hpid⟩ := h.entry _ (List.mem_append_right _ hin)
        refine ⟨(h.signal hin).2, fun other hne hrunning hstruck => ?_⟩
        obtain ⟨q, hq, hrun⟩ := hrunning
        have hhit : q.pid = pid := by
          by_contra hother
          refine hstruck ⟨q.hit pid, ?_, (q.hit_running pid).mpr ⟨hrun, hother⟩⟩
          show (sup.processes other).map _ = _
          rw [hq, Option.map_some]
        have hhas : sup.Has other p.pid := ⟨q, hq, hhit.trans hpid.symm, by rw [hrun]; exact ProcessStatus.noConfusion⟩
        refine ⟨p, hp, ?_, hhas⟩
        by_contra hlive
        exact hne (h.pids other w p.pid hhas ⟨p, hp, rfl, hlive⟩)

/-- **A shutdown leaves at most one worker.** Once the workers have been read and the loop of `shutdown` has ended,
whatever went on in between and whatever goes on afterwards: none of the workers read runs; of the others at most one
runs that no call is about to kill; and there is none, unless a call of `spawn_worker` had already found the flag not
set when the workers were read, and not added its worker. -/
theorem shutdown_leaves_one {read : Supervisor} (hrun : Run maxWorkers .start steps sup)
    (hread : Step maxWorkers sup .snapshot read) {steps' : List SupervisorStep} {later : Supervisor}
    (hrun' : Run maxWorkers read steps' later) {pidsAndIds : List WorkerEntry}
    (hdone : later.shutdown = .done pidsAndIds) :
    (∀ entry ∈ sup.workers, ¬later.Running entry.1) ∧
    (∀ worker other, later.Running worker → worker ∉ later.kills.map Prod.fst → later.Running other →
      other ∉ later.kills.map Prod.fst → worker = other) ∧
    (¬(sup.Passed ∨ ∃ worker, sup.spawning = some (.spawned worker)) →
      ∀ worker, later.Running worker → worker ∈ later.kills.map Prod.fst) := by
  have h := (Sound.start maxWorkers).run hrun
  cases hread with
  | snapshot hstage =>
      have hflag : sup.shuttingDown = true := hrun.flag (fun hne => absurd rfl hne) (hstage ▸ ShutdownStage.noConfusion)
      have hpast := (Past.snapshot h hstage hflag id).run (h.step (.snapshot hstage)) hrun'
      obtain ⟨rest, hloop, hdead⟩ := hpast.stage
      rw [hdone] at hloop
      obtain ⟨-, rfl⟩ := Prod.mk.inj (Option.some.inj hloop)
      have hgone : ∀ entry ∈ sup.workers, ¬later.Running entry.1 := fun e he => hdead e he fun hin => nomatch hin
      have hlate : ∀ worker, later.Running worker → worker ∉ later.kills.map Prod.fst →
          later.Late sup.workers worker := by
        refine fun w hrunning hnot => ⟨hrunning, fun hin => ?_, hnot⟩
        obtain ⟨e, he, rfl⟩ := List.mem_map.mp hin
        exact hgone e he hrunning
      refine ⟨hgone, fun w w' hw hnot hw' hnot' => hpast.one w w' (hlate w hw hnot) (hlate w' hw' hnot'), ?_⟩
      intro hnone w hw
      by_contra hnot
      exact (hpast.none hnone).2 w (hlate w hw hnot)

end Runs

/-! One worker is spawned; and one is spawned while the shutdown is going on. -/

theorem spawnsOne : Run (some 1) .start [.lock, .readShuttingDown, .readCount, .spawn 7 100, .insert]
    { Supervisor.start with
      workers := [(7, 100)]
      spawning := some (.inserted 7)
      processes := Function.update Supervisor.start.processes 7 (some ⟨100, .running, .spawner⟩) } := by
  have hself : ∀ p : WorkerProcess, Function.update Supervisor.start.processes 7 (some p) 7 = some p :=
    fun p => Function.update_self ..
  exact .step (.step (.step (.step (.step (.refl _) (.lock rfl)) (.readShuttingDown rfl)) (.readCount rfl))
    (.spawn rfl rfl fun other hhas => by
      obtain ⟨q, hq, -⟩ := hhas
      cases hq)) (@Step.insert _ _ 7 ⟨100, .running, .spawner⟩ rfl (hself _))

theorem workers_bounded_one : ∃ sup : Supervisor, sup.Running 7 ∧ sup.workers = [(7, 100)] ∧ sup.workers.length ≤ 1 :=
  ⟨_, ⟨⟨100, .running, .spawner⟩, rfl, rfl⟩, rfl, (workers_bounded spawnsOne).1 1 rfl⟩

theorem kill_worker_kills_one : ∃ sup : Supervisor, (7, 100) ∈ sup.kills ∧
    ∀ after, Step (some 1) sup (.signal 7) after → ¬after.Running 7 :=
  ⟨_, List.mem_singleton.mpr rfl, fun after hstep =>
    ((kill_worker_kills (.step spawnsOne (@Step.remove _ _ 7 100 (List.mem_singleton.mpr rfl)))).2.2 7 after hstep).1⟩

theorem shutdown_leaves_one_late : ∃ later : Supervisor, later.shutdown = .done [] ∧ later.Running 7 ∧
    ∀ other, later.Running other → other ∉ later.kills.map Prod.fst → other = 7 := by
  have hself : ∀ p : WorkerProcess, Function.update Supervisor.start.processes 7 (some p) 7 = some p :=
    fun p => Function.update_self ..
  have hbefore : Run (some 1) .start [.lock, .readShuttingDown, .shutdown]
      { Supervisor.start with spawning := some .admitted, shuttingDown := true, shutdown := .flagged } :=
    .step (.step (.step (.refl _) (.lock rfl)) (.readShuttingDown rfl)) (.shutdown rfl)
  have hafter : Run (some 1)
      { Supervisor.start with spawning := some .admitted, shuttingDown := true, shutdown := .polling [] [] }
      [.poll false, .readCount, .spawn 7 100]
      { Supervisor.start with
        spawning := some (.spawned 7), shuttingDown := true, shutdown := .done []
        processes := Function.update Supervisor.start.processes 7 (some ⟨100, .running, .spawner⟩) } :=
    .step (.step (.step (.refl _) (.polledNone rfl)) (.readCount rfl)) (.spawn rfl rfl fun other hhas => by
      obtain ⟨q, hq, -⟩ := hhas
      cases hq)
  have hrunning : Supervisor.Running { Supervisor.start with
      spawning := some (.spawned 7), shuttingDown := true, shutdown := .done []
      processes := Function.update Supervisor.start.processes 7 (some ⟨100, .running, .spawner⟩) } 7 :=
    ⟨_, hself _, rfl⟩
  refine ⟨_, rfl, hrunning, fun other hother hnot => ?_⟩
  exact (shutdown_leaves_one hbefore (.snapshot rfl) hafter rfl).2.1 other 7 hother hnot hrunning fun hin => nomatch hin

end AgentBeacon.Supervision
