import Mathlib.Logic.Function.Basic

/-!
# `System.Supervisor` — the worker processes of a scheduler

Calls of `spawn_worker` and `kill_worker`, the monitors of the workers and the shutdown run at the same time, and a
worker may exit at any moment. A step is what one of them does between two points at which another may go on: it takes
or releases a lock, reads or writes what a lock guards, or makes a system call. The operating system gives a process
id to a new process as soon as the last process that had it is reaped.
-/

namespace AgentBeacon.Supervision

/-- Worker ids are drawn at random; none is drawn twice. -/
abbrev WorkerId := Nat

abbrev Pid := Nat

inductive ProcessStatus where
  | running
  /-- Dead, and not waited for. -/
  | zombie
  | reaped
  deriving DecidableEq, Repr

/-- Where the owner of a `Child` is: at first the call that spawned it, then `monitor_worker`. -/
inductive OwnerStage where
  /-- Held by `spawn_worker`. -/
  | spawner
  /-- Dropped by `spawn_worker` on an error. -/
  | dropped
  /-- `child.wait()`. -/
  | waiting
  /-- The child has exited. -/
  | exited
  /-- `shutting_down` was read, and is not set. -/
  | unlisting
  | over
  deriving DecidableEq, Repr

structure WorkerProcess where
  pid : Pid
  status : ProcessStatus
  owner : OwnerStage
  deriving DecidableEq, Repr

namespace WorkerProcess

/-- A process is killed, if it is running. -/
def killed (process : WorkerProcess) : WorkerProcess :=
  if process.status = .running then { process with status := .zombie } else process

/-- What a signal to a process id does to a process. -/
def hit (pid : Pid) (process : WorkerProcess) : WorkerProcess :=
  if process.pid = pid then process.killed else process

@[simp] theorem killed_pid (process : WorkerProcess) : process.killed.pid = process.pid := by
  unfold killed
  split
  · rfl
  · rfl

@[simp] theorem killed_owner (process : WorkerProcess) : process.killed.owner = process.owner := by
  unfold killed
  split
  · rfl
  · rfl

theorem killed_not_running (process : WorkerProcess) : process.killed.status ≠ .running := by
  unfold killed
  split
  · exact ProcessStatus.noConfusion
  · assumption

theorem killed_reaped {process : WorkerProcess} : process.killed.status = .reaped ↔ process.status = .reaped := by
  unfold killed
  split
  · rename_i h
    rw [h]
    exact ⟨ProcessStatus.noConfusion, ProcessStatus.noConfusion⟩
  · exact Iff.rfl

variable (pid : Pid) (process : WorkerProcess)

@[simp] theorem hit_pid : (process.hit pid).pid = process.pid := by
  unfold hit
  split
  · exact process.killed_pid
  · rfl

@[simp] theorem hit_owner : (process.hit pid).owner = process.owner := by
  unfold hit
  split
  · exact process.killed_owner
  · rfl

theorem hit_reaped : (process.hit pid).status = .reaped ↔ process.status = .reaped := by
  unfold hit
  split
  · exact killed_reaped
  · exact Iff.rfl

theorem hit_running : (process.hit pid).status = .running ↔ process.status = .running ∧ process.pid ≠ pid := by
  unfold hit
  split
  · rename_i h
    exact ⟨fun hrun => absurd hrun process.killed_not_running, fun hand => absurd h hand.2⟩
  · rename_i h
    exact ⟨fun hrun => ⟨hrun, h⟩, And.left⟩

end WorkerProcess

/-- Where the call of `spawn_worker` is that holds `spawn_lock`. -/
inductive SpawnStage where
  | locked
  /-- `shutting_down` was not set. -/
  | admitted
  /-- There were fewer workers than `max_workers`. -/
  | counted
  | spawned (worker : WorkerId)
  | inserted (worker : WorkerId)
  deriving DecidableEq, Repr

/-- An entry of `workers`. -/
abbrev WorkerEntry := WorkerId × Pid

/-- Where `shutdown` is. A loop over `pids_and_ids` has the rest of it still to go. -/
inductive ShutdownStage where
  | notCalled
  | flagged
  | polling (pidsAndIds rest : List WorkerEntry)
  | killing (pidsAndIds rest : List WorkerEntry)
  | done (pidsAndIds : List WorkerEntry)
  deriving DecidableEq, Repr

structure Supervisor where
  workers : List WorkerEntry
  shuttingDown : Bool
  /-- `spawn_lock`. -/
  spawning : Option SpawnStage
  /-- Calls of `kill_worker` that have removed their entry and not yet sent the signal. -/
  kills : List WorkerEntry
  /-- The workers for which `kill_worker` has said `Confirmed`. -/
  confirmed : List WorkerId
  shutdown : ShutdownStage
  processes : WorkerId → Option WorkerProcess

inductive SupervisorStep where
  | lock
  | readShuttingDown
  | readCount
  /-- `cmd.spawn()`: the id drawn, and the process id given. -/
  | spawn (worker : WorkerId) (pid : Pid)
  /-- `cmd.spawn()` fails. -/
  | spawnFails
  /-- A pipe of the child is missing, and the child is dropped. -/
  | pipeMissing
  | insert
  /-- The monitor is started, and the lock released. -/
  | unlock
  /-- `kill_worker` removes the entry. -/
  | remove (worker : WorkerId)
  /-- `kill_worker` sends its signal. -/
  | signal (worker : WorkerId)
  /-- A worker exits. -/
  | exit (worker : WorkerId)
  /-- The owner of a dead child reaps it. -/
  | reap (worker : WorkerId)
  /-- `monitor_worker` reads `shutting_down`. -/
  | monitorReads (worker : WorkerId)
  /-- `monitor_worker` removes the entry. -/
  | monitorRemoves (worker : WorkerId)
  /-- `shutdown` sets the flag. -/
  | shutdown
  /-- `shutdown` reads the workers, and asks them to terminate. -/
  | snapshot
  /-- `shutdown` looks whether the next process is alive; if it is, and the deadline is over, the loop is left. -/
  | poll (late : Bool)
  /-- `shutdown` kills the next process if it is alive. -/
  | killNext
  deriving DecidableEq, Repr

namespace Supervisor

def start : Supervisor where
  workers := []
  shuttingDown := false
  spawning := none
  kills := []
  confirmed := []
  shutdown := .notCalled
  processes := fun _ => none

variable (sup : Supervisor)

/-- Is this worker's process running? -/
def Running (worker : WorkerId) : Prop := ∃ process, sup.processes worker = some process ∧ process.status = .running

/-- Does this worker's process have this id? It has one until it is reaped. -/
def Has (worker : WorkerId) (pid : Pid) : Prop :=
  ∃ process, sup.processes worker = some process ∧ process.pid = pid ∧ process.status ≠ .reaped

/-- `kill` of the process that has the id, if it is running. -/
def sigkill (pid : Pid) : Supervisor :=
  { sup with processes := fun worker => (sup.processes worker).map (WorkerProcess.hit pid) }

/-- A process changes. -/
def setProcess (worker : WorkerId) (process : WorkerProcess) : Supervisor :=
  { sup with processes := Function.update sup.processes worker (some process) }

/-- Are there `max_workers` already? -/
def full (maxWorkers : Option Nat) : Bool :=
  match maxWorkers with
  | some max => decide (sup.workers.length ≥ max)
  | none => false

/-- `workers.remove`. -/
def unlisted (worker : WorkerId) : Supervisor :=
  { sup with workers := sup.workers.filter fun entry => decide (entry.1 ≠ worker) }

/-- `workers.clear()`, at the end of `shutdown`. -/
def cleared (pidsAndIds : List WorkerEntry) : Supervisor :=
  { sup with workers := [], shutdown := .done pidsAndIds }

end Supervisor

/-- What a step does, and when it is possible. -/
inductive Step (maxWorkers : Option Nat) (sup : Supervisor) : SupervisorStep → Supervisor → Prop
  | lock (h : sup.spawning = none) : Step maxWorkers sup .lock { sup with spawning := some .locked }
  | readShuttingDown (h : sup.spawning = some .locked) :
      Step maxWorkers sup .readShuttingDown
        { sup with spawning := if sup.shuttingDown then none else some .admitted }
  | readCount (h : sup.spawning = some .admitted) :
      Step maxWorkers sup .readCount { sup with spawning := if sup.full maxWorkers then none else some .counted }
  | spawn {worker : WorkerId} {pid : Pid} (h : sup.spawning = some .counted) (hdrawn : sup.processes worker = none)
      (hpid : ∀ other, ¬sup.Has other pid) :
      Step maxWorkers sup (.spawn worker pid)
        { sup.setProcess worker ⟨pid, .running, .spawner⟩ with spawning := some (.spawned worker) }
  | spawnFails (h : sup.spawning = some .counted) :
      Step maxWorkers sup .spawnFails { sup with spawning := none }
  | pipeMissing {worker : WorkerId} {process : WorkerProcess} (h : sup.spawning = some (.spawned worker))
      (hprocess : sup.processes worker = some process) :
      Step maxWorkers sup .pipeMissing
        { sup.setProcess worker { process.killed with owner := .dropped } with spawning := none }
  | insert {worker : WorkerId} {process : WorkerProcess} (h : sup.spawning = some (.spawned worker))
      (hprocess : sup.processes worker = some process) :
      Step maxWorkers sup .insert { sup with
        workers := sup.workers ++ [(worker, process.pid)], spawning := some (.inserted worker) }
  | unlock {worker : WorkerId} {process : WorkerProcess} (h : sup.spawning = some (.inserted worker))
      (hprocess : sup.processes worker = some process) :
      Step maxWorkers sup .unlock { sup.setProcess worker { process with owner := .waiting } with spawning := none }
  | remove {worker : WorkerId} {pid : Pid} (h : (worker, pid) ∈ sup.workers) :
      Step maxWorkers sup (.remove worker) { sup.unlisted worker with kills := sup.kills ++ [(worker, pid)] }
  | signal {worker : WorkerId} {pid : Pid} (h : (worker, pid) ∈ sup.kills) :
      Step maxWorkers sup (.signal worker) { sup.sigkill pid with
        kills := sup.kills.filter fun entry => decide (entry.1 ≠ worker), confirmed := sup.confirmed ++ [worker] }
  | exit {worker : WorkerId} {process : WorkerProcess} (hprocess : sup.processes worker = some process)
      (h : process.status = .running) :
      Step maxWorkers sup (.exit worker) (sup.setProcess worker { process with status := .zombie })
  | reap {worker : WorkerId} {process : WorkerProcess} (hprocess : sup.processes worker = some process)
      (h : process.status = .zombie) (howner : process.owner = .waiting ∨ process.owner = .dropped) :
      Step maxWorkers sup (.reap worker) (sup.setProcess worker { process with
        status := .reaped, owner := if process.owner = .waiting then .exited else .over })
  | monitorReads {worker : WorkerId} {process : WorkerProcess} (hprocess : sup.processes worker = some process)
      (h : process.owner = .exited) :
      Step maxWorkers sup (.monitorReads worker)
        (sup.setProcess worker { process with owner := if sup.shuttingDown then .over else .unlisting })
  | monitorRemoves {worker : WorkerId} {process : WorkerProcess} (hprocess : sup.processes worker = some process)
      (h : process.owner = .unlisting) :
      Step maxWorkers sup (.monitorRemoves worker)
        ((sup.setProcess worker { process with owner := .over }).unlisted worker)
  | shutdown (h : sup.shutdown = .notCalled) :
      Step maxWorkers sup .shutdown { sup with shuttingDown := true, shutdown := .flagged }
  | snapshot (h : sup.shutdown = .flagged) :
      Step maxWorkers sup .snapshot { sup with shutdown := .polling sup.workers sup.workers }
  | polledNone {pidsAndIds : List WorkerEntry} {late : Bool} (h : sup.shutdown = .polling pidsAndIds []) :
      Step maxWorkers sup (.poll late) (sup.cleared pidsAndIds)
  | polledDead {pidsAndIds rest : List WorkerEntry} {entry : WorkerEntry} {late : Bool}
      (h : sup.shutdown = .polling pidsAndIds (entry :: rest)) (hdead : ∀ worker, ¬sup.Has worker entry.2) :
      Step maxWorkers sup (.poll late) { sup with shutdown := .polling pidsAndIds rest }
  /-- Some process has the id: the worker, or one that was given it later, maybe of another program. -/
  | polledAlive {pidsAndIds rest : List WorkerEntry} {entry : WorkerEntry} {late : Bool}
      (h : sup.shutdown = .polling pidsAndIds (entry :: rest)) :
      Step maxWorkers sup (.poll late)
        { sup with shutdown := if late then .killing pidsAndIds pidsAndIds else .polling pidsAndIds pidsAndIds }
  | killedAll {pidsAndIds : List WorkerEntry} (h : sup.shutdown = .killing pidsAndIds []) :
      Step maxWorkers sup .killNext (sup.cleared pidsAndIds)
  | killNext {pidsAndIds rest : List WorkerEntry} {entry : WorkerEntry}
      (h : sup.shutdown = .killing pidsAndIds (entry :: rest)) :
      Step maxWorkers sup .killNext { sup.sigkill entry.2 with shutdown := .killing pidsAndIds rest }

/-- Some steps. -/
inductive Run (maxWorkers : Option Nat) : Supervisor → List SupervisorStep → Supervisor → Prop
  | refl (sup : Supervisor) : Run maxWorkers sup [] sup
  | step {sup sup' sup'' : Supervisor} {steps : List SupervisorStep} {act : SupervisorStep}
      (hrun : Run maxWorkers sup steps sup') (hstep : Step maxWorkers sup' act sup'') :
      Run maxWorkers sup (steps ++ [act]) sup''

end AgentBeacon.Supervision
