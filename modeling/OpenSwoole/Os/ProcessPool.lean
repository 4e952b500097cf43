import OpenSwoole.Os.Processes

/-!
# `ProcessPool::wait`

The master loop of a process pool, `src/os/process_pool.cc`, with the signal handler
`pool_signal_handler` of `ext-src/openswoole_process_pool.cc`.  The handler and the workers may act
between any two steps of the loop.  `max_wait_time` is zero, as the pool of the extension leaves it, and
the pool is not shut down.

The fields `log`, `terms`, `ever`, `atStart` and `exited` are records of a run: the targets of all
`SIGTERM`s and of those of the last reload, the pids that workers had, the workers at the last reload
request and the pids that `wait` has returned since.

* `PoolEvent`   the steps of the loop and what happens around it;
* `Pool.step`   one step.
-/

namespace OSW.Os

abbrev WorkerMap := Nat → Option Nat

def WorkerMap.erase (map : WorkerMap) (pid : Nat) : WorkerMap := Function.update map pid none

/-- `emplace` leaves an entry as it is -/
def WorkerMap.emplace (map : WorkerMap) (pid i : Nat) : WorkerMap :=
  if map pid = none then Function.update map pid (some i) else map

structure Pool where
  /-- `workers[i].pid` -/
  pids : List Nat
  map : WorkerMap
  /-- `reload_workers[i].pid` -/
  reloadWorkers : List Nat
  reloadWorkerI : Nat
  reloadWorkerPid : Nat
  reloading : Bool
  reloadInit : Bool
  readMessage : Bool
  messageBox : List Nat
  procs : Procs
  pc : Pc
  log : List Nat
  terms : List Nat
  ever : List Nat
  atStart : List Nat
  exited : List Nat

namespace Pool

/-- `map_` when the workers have started -/
def mapOf (pids : List Nat) : WorkerMap := fun pid => pids.findIdx? (· == pid)

/-- the pool when `wait` is called: `reload_workers` is zeroed -/
def start (pids : List Nat) : Pool where
  pids := pids
  map := mapOf pids
  reloadWorkers := List.replicate pids.length 0
  reloadWorkerI := 0
  reloadWorkerPid := 0
  reloading := false
  reloadInit := false
  readMessage := false
  messageBox := []
  procs := fun pid => if pid ∈ pids then .running else .gone
  pc := .enter
  log := []
  terms := []
  ever := pids
  atStart := []
  exited := []

inductive PoolEvent where
  | request
  | push (pid : Nat)
  | sigio
  | otherSignal
  | exits (pid : Nat)
  | enterWait
  | reap (pid : Nat)
  | pop (new : Option Nat)
  | popped
  | handle (new : Option Nat)
  | kill (res : KillRes)

section
variable (s : Pool)

/-- `pool_signal_handler` for `SIGUSR1` and `SIGUSR2` -/
def request : Pool :=
  { s with
    reloading := true
    reloadInit := false
    pc := s.pc.interrupt
    terms := []
    atStart := s.pids
    exited := [] }

/-- `pool_signal_handler` for `SIGIO` -/
def sigio : Pool := { s with readMessage := true, pc := s.pc.interrupt }

/-- `wait_process` returns the child `pid` -/
def reap (pid : Nat) : Pool :=
  { s with procs := s.procs.reap pid, pc := .woke (some pid), exited := s.exited ++ [pid] }

/-- the parent in `ProcessPool::spawn`, for the worker `i` -/
def spawn (i new : Nat) : Pool :=
  let old := s.pids.getD i 0
  let map := if old = 0 then s.map else s.map.erase old
  { s with
    pids := s.pids.set i new
    map := map.emplace new i
    procs := s.procs.fork new
    ever := s.ever ++ [new] }

def erase (pid : Nat) : Pool := { s with map := s.map.erase pid }

/-- one message: the sender is replaced; `fork` may fail -/
def pop (pid : Nat) (rest : List Nat) (new : Option Nat) : Option Pool :=
  let s := { s with messageBox := rest }
  match s.map pid, new with
  | none, none => some s
  | none, some _ => none
  | some _, none => some { s with pc := .returned }
  | some i, some new => if s.procs.Fresh new then some ((s.spawn i new).erase pid) else none

def popped (ret : Option Nat) : Option Pool :=
  if s.readMessage = true ∧ s.messageBox ≠ [] then none
  else some { s with readMessage := false, pc := .body ret }

/-- `exit_status.get_pid() < 0` -/
def interrupted : Pool :=
  if s.reloading = false then { s with pc := .enter }
  else if s.reloadInit = false then { s with reloadInit := true, reloadWorkers := s.pids, pc := .kill }
  else { s with pc := .kill }

/-- the worker `i` with the pid `pid` has exited, and `new` takes its place -/
def restart (pid i new : Nat) : Pool :=
  { (s.spawn i new).erase pid with
    reloadWorkerI := if pid = s.reloadWorkerPid then s.reloadWorkerI + 1 else s.reloadWorkerI
    pc := .kill }

/-- the child `pid` has exited: it is replaced; `fork` may fail -/
def collected (pid : Nat) (new : Option Nat) : Option Pool :=
  match s.map pid, new with
  | none, none => some { s with pc := .enter }
  | none, some _ => none
  | some _, none => some { s with pc := .returned }
  | some i, some new => if s.procs.Fresh new then some (s.restart pid i new) else none

def target : Nat := s.reloadWorkers.getD s.reloadWorkerI 0

def killWorker (res : KillRes) : Option Pool :=
  if s.reloading = false then some { s with pc := .enter }
  else if s.pids.length ≤ s.reloadWorkerI then
    some { s with
      reloading := false, reloadInit := false, reloadWorkerPid := 0, reloadWorkerI := 0, pc := .enter }
  else if s.procs.Kills s.target res then
    let s := { s with
      reloadWorkerPid := s.target
      log := s.log ++ [s.target]
      terms := s.terms ++ [s.target] }
    if res = .echild then some { s with reloadWorkerI := s.reloadWorkerI + 1 } else some { s with pc := .enter }
  else none

end

def step (e : PoolEvent) (s : Pool) : Option Pool :=
  match e with
  | .request => some s.request
  | .push pid => some { s with messageBox := s.messageBox ++ [pid] }
  | .sigio => some s.sigio
  | .otherSignal => some { s with pc := s.pc.interrupt }
  | .exits pid => if s.procs pid = .running then some { s with procs := s.procs.exits pid } else none
  | .enterWait => if s.pc = .enter then some { s with pc := .wait } else none
  | .reap pid => if s.pc = .wait ∧ s.procs pid = .zombie then some (s.reap pid) else none
  | .pop new =>
    match s.pc, s.readMessage, s.messageBox with
    | .woke _, true, pid :: rest => s.pop pid rest new
    | _, _, _ => none
  | .popped =>
    match s.pc with
    | .woke ret => s.popped ret
    | _ => none
  | .handle new =>
    match s.pc with
    | .body none => some s.interrupted
    | .body (some pid) => s.collected pid new
    | _ => none
  | .kill res => if s.pc = .kill then s.killWorker res else none

end Pool

end OSW.Os
