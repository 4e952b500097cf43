import OpenSwoole.Os.ProcessPool

/-!
# `Manager::start`

The loop of the manager process, `src/server/manager.cc`, with its signal handler
`Manager::signal_handler`.  The handler and the workers may act between any two steps of the loop.  There
are no user workers and no timer, and the server is not shut down.

The fields `atAccept`, `terms` and `exited` are records of a run: the workers that were alive when the
last reload was accepted and that it is for, the processes that `SIGTERM` was sent to and the pids that
`wait` has returned since.

* `Manager.step`   one step.
-/

namespace OSW

open Os

structure Manager where
  reloadAsync : Bool
  /-- `workers[i].pid` -/
  workers : List Nat
  /-- `gs->task_workers.workers[i].pid` -/
  taskWorkers : List Nat
  /-- `gs->task_workers.map_` -/
  taskMap : WorkerMap
  reloading : Bool
  reloadAllWorker : Bool
  reloadTaskWorker : Bool
  reloadInit : Bool
  readMessage : Bool
  reloadWorkerI : Nat
  reloadWorkerNum : Nat
  reloadWorkerPid : Nat
  /-- `reload_workers[i].pid` -/
  reloadWorkers : List Nat
  /-- the numbers of the workers that have sent a `WorkerStopMessage` -/
  messageBox : List Nat
  procs : Procs
  pc : Pc
  atAccept : List Nat
  terms : List Nat
  exited : List Nat

namespace Manager

def start (reloadAsync : Bool) (workers taskWorkers : List Nat) : Manager where
  reloadAsync := reloadAsync
  workers := workers
  taskWorkers := taskWorkers
  taskMap := Pool.mapOf taskWorkers
  reloading := false
  reloadAllWorker := false
  reloadTaskWorker := false
  reloadInit := false
  readMessage := false
  reloadWorkerI := 0
  reloadWorkerNum := 0
  reloadWorkerPid := 0
  reloadWorkers := []
  messageBox := []
  procs := fun pid => if pid ∈ workers ++ taskWorkers then .running else .gone
  pc := .enter
  atAccept := []
  terms := []
  exited := []

/-- `fork` returns the pid of the new worker; `none` where it fails, or there is no `fork` -/
inductive ManagerEvent where
  | sigusr1
  | sigusr2
  | sigio
  | otherSignal
  | push (workerId : Nat)
  | exits (pid : Nat)
  | enterWait
  | reap (pid : Nat)
  | pop (new : Option Nat)
  | popped
  | handle (new newTask : Option Nat)
  | kill (res : KillRes)

section
variable (s : Manager)

/-- the processes of a list that have not been waited for -/
def alive (pids : List Nat) : List Nat := pids.filter fun pid => s.procs pid ≠ .gone

/-- a reload is accepted, for the processes `pids` -/
def accept (pids : List Nat) : Manager :=
  { s with reloading := true, atAccept := s.alive pids, terms := [], exited := [] }

/-- `Manager::signal_handler` for `SIGUSR1` (all workers) and `SIGUSR2` (task workers) -/
def signalHandler (all : Bool) : Manager :=
  if s.reloading = true then { s with pc := s.pc.interrupt }
  else if all = true then
    { s.accept (s.workers ++ s.taskWorkers) with reloadAllWorker := true, pc := s.pc.interrupt }
  else { s.accept s.taskWorkers with reloadTaskWorker := true, pc := s.pc.interrupt }

/-- `wait_process` returns the child `pid` -/
def reap (pid : Nat) : Manager :=
  { s with procs := s.procs.reap pid, pc := .woke (some pid), exited := s.exited ++ [pid] }

/-- a new event worker `i` -/
def spawnEventWorker (i new : Nat) : Manager :=
  { s with workers := s.workers.set i new, procs := s.procs.fork new }

/-- the parent in `ProcessPool::spawn`, for the task worker `i` -/
def spawnTaskWorker (i new : Nat) : Manager :=
  let old := s.taskWorkers.getD i 0
  let map := if old = 0 then s.taskMap else s.taskMap.erase old
  { s with
    taskWorkers := s.taskWorkers.set i new
    taskMap := map.emplace new i
    procs := s.procs.fork new }

/-- one message: the sender is replaced, unless `fork` fails -/
def pop (workerId : Nat) (rest : List Nat) (new : Option Nat) : Option Manager :=
  let s := { s with messageBox := rest }
  match new with
  | none => some s
  | some new =>
    if s.procs.Fresh new then
      if s.workers.length ≤ workerId then some (s.spawnTaskWorker (workerId - s.workers.length) new)
      else some (s.spawnEventWorker workerId new)
    else none

def popped (ret : Option Nat) : Option Manager :=
  if s.readMessage = true ∧ s.messageBox ≠ [] then none
  else some { s with readMessage := false, pc := .body ret }

/-- the snapshot for a reload of all workers; with `reload_async` all event workers are sent `SIGTERM`,
which reaches those that are there -/
def initAll : Manager :=
  { s with
    reloadInit := true
    reloadWorkers := s.workers ++ s.taskWorkers
    reloadWorkerNum := s.workers.length + s.taskWorkers.length
    reloadAllWorker := false
    terms := if s.reloadAsync = true then s.terms ++ s.alive s.workers else s.terms
    reloadWorkerI := if s.reloadAsync = true then s.workers.length else 0 }

/-- the snapshot for a reload of the task workers -/
def initTask : Manager :=
  { s with
    reloadInit := true
    reloadWorkers := s.taskWorkers ++ s.reloadWorkers.drop s.taskWorkers.length
    reloadWorkerNum := s.taskWorkers.length
    reloadTaskWorker := false
    reloadWorkerI := 0 }

/-- `exit_status.get_pid() < 0` -/
def interrupted : Manager :=
  if s.reloading = false then { s with pc := .enter }
  else if s.reloadAllWorker = true then
    { (if s.reloadInit = true then s else s.initAll) with pc := .kill }
  else if s.reloadTaskWorker = true then
    if s.taskWorkers = [] then { s with reloading := false, pc := .enter }
    else { (if s.reloadInit = true then s else s.initTask) with pc := .kill }
  else { s with pc := .enter }

/-- `fork` is called until it succeeds; the pids of event workers differ, so one is replaced at most -/
def replaceEvent (pid : Nat) (new : Option Nat) : Option Manager :=
  match s.workers.findIdx? (· == pid), new with
  | none, none => some s
  | some i, some new => if s.procs.Fresh new then some (s.spawnEventWorker i new) else none
  | _, _ => none

/-- the task worker with the pid `pid` is replaced, unless `fork` fails -/
def replaceTask (pid : Nat) (new : Option Nat) : Option Manager :=
  match s.taskMap pid, new with
  | _, none => some s
  | some i, some new => if s.procs.Fresh new then some (s.spawnTaskWorker i new) else none
  | none, some _ => none

/-- the child `pid` has exited -/
def collected (pid : Nat) (new newTask : Option Nat) : Option Manager := do
  let s ← s.replaceEvent pid new
  let s ← s.replaceTask pid newTask
  some { s with
    reloadWorkerI :=
      if pid = s.reloadWorkerPid ∧ s.reloading = true then s.reloadWorkerI + 1 else s.reloadWorkerI
    pc := .kill }

def target : Nat := s.reloadWorkers.getD s.reloadWorkerI 0

def killWorker (res : KillRes) : Option Manager :=
  if s.reloading = false then some { s with pc := .enter }
  else if s.reloadWorkerNum ≤ s.reloadWorkerI then
    some { s with
      reloadWorkerPid := 0, reloadWorkerI := 0, reloadInit := false, reloading := false, pc := .enter }
  else if s.procs.Kills s.target res then
    let s := { s with
      reloadWorkerPid := s.target
      terms := if res = KillRes.ok then s.terms ++ [s.target] else s.terms }
    if res = .echild ∨ res = .esrch then some { s with reloadWorkerI := s.reloadWorkerI + 1 }
    else some { s with pc := .enter }
  else none

end

def step (e : ManagerEvent) (s : Manager) : Option Manager :=
  match e with
  | .sigusr1 => some (s.signalHandler true)
  | .sigusr2 => some (s.signalHandler false)
  | .sigio => some { s with readMessage := true, pc := s.pc.interrupt }
  | .otherSignal => some { s with pc := s.pc.interrupt }
  | .push workerId =>
    if workerId < s.workers.length + s.taskWorkers.length then
      some { s with messageBox := s.messageBox ++ [workerId] }
    else none
  | .exits pid => if s.procs pid = .running then some { s with procs := s.procs.exits pid } else none
  | .enterWait => if s.pc = .enter then some { s with pc := .wait } else none
  | .reap pid => if s.pc = .wait ∧ s.procs pid = .zombie then some (s.reap pid) else none
  | .pop new =>
    match s.pc, s.readMessage, s.messageBox with
    | .woke _, true, workerId :: rest => s.pop workerId rest new
    | _, _, _ => none
  | .popped =>
    match s.pc with
    | .woke ret => s.popped ret
    | _ => none
  | .handle new newTask =>
    match s.pc with
    | .body none => some s.interrupted
    | .body (some pid) => s.collected pid new newTask
    | _ => none
  | .kill res => if s.pc = .kill then s.killWorker res else none

end Manager

end OSW
