import Mathlib.Data.Fintype.Basic
import OpenSwoole.Lib.Machine

/-!
# File locks for coroutines

`src/coroutine/file_lock.cc` for one file.  `openswoole_coroutine_flock` runs `flock` in another thread
and suspends the coroutine, so that a call of the wrappers is cut there: other coroutines go on
before `flock` has returned.  A coroutine keeps the address of the manager over both suspensions.
Each coroutine has a descriptor of its own; `held` is the lock the kernel has given to it.

* `LockManager`, `FlockCall`, `FileLock`   the manager, a call under way, the whole state;
* `FileLock.step`   a coroutine calls a wrapper, or the `flock` of a call returns.
-/

namespace OSW.Coroutine
open Function

/-- `LOCK_EX` and `LOCK_SH` -/
inductive LockMode where
  | ex
  | sh
  deriving DecidableEq

structure LockManager (κ : Type) where
  lockEx : Bool := false
  lockSh : Bool := false
  queue : List κ := []

/-- a suspended call: `waiting` in `yield`, the others in `flock`; `next` is the coroutine taken from the queue
-/
inductive FlockCall (κ : Type) where
  | waiting (lm : Nat) (mode : LockMode)
  | locking (lm : Nat) (mode : LockMode)
  | unlocking (next : Option κ)
  deriving DecidableEq

structure FileLock (κ : Type) where
  /-- the entry of `lock_pool`, with its number -/
  pool : Option (Nat × LockManager κ)
  /-- managers made so far -/
  made : Nat
  calls : κ → Option (FlockCall κ)
  held : κ → Option LockMode
  /-- a deleted manager was written to -/
  wild : Bool

inductive FlockOp where
  | lock (mode : LockMode)
  | unlock
  | lockNb (mode : LockMode)
  /-- `LOCK_UN | LOCK_NB` -/
  | unlockNb

inductive FlockAct (κ : Type) where
  /-- a coroutine calls a wrapper; `ok` is the answer of a `flock` with `LOCK_NB` -/
  | call (co : κ) (op : FlockOp) (ok : Bool)
  /-- the `flock` of a suspended call returns -/
  | done (co : κ) (ok : Bool)

namespace LockManager
variable {κ : Type}

def flag (lm : LockManager κ) : LockMode → Bool
  | .ex => lm.lockEx
  | .sh => lm.lockSh

def setFlag (lm : LockManager κ) (mode : LockMode) (b : Bool) : LockManager κ :=
  match mode with
  | .ex => { lm with lockEx := b }
  | .sh => { lm with lockSh := b }

/-- the tests in front of `flock` -/
def busy (lm : LockManager κ) : LockMode → Bool
  | .ex => lm.lockEx || lm.lockSh
  | .sh => lm.lockEx

end LockManager

namespace FileLock
variable {κ : Type} [DecidableEq κ]

def init : FileLock κ := ⟨none, 0, fun _ => none, fun _ => none, false⟩

section
variable (s : FileLock κ)

def setCall (co : κ) (call : Option (FlockCall κ)) : FileLock κ :=
  { s with calls := update s.calls co call }

def setHeld (co : κ) (mode : Option LockMode) : FileLock κ := { s with held := update s.held co mode }

def getManager : (Nat × LockManager κ) × FileLock κ :=
  match s.pool with
  | some p => (p, s)
  | none => ((s.made, {}), { s with pool := some (s.made, {}), made := s.made + 1 })

/-- `lm->lock_ex = b` or `lm->lock_sh = b` -/
def setFlag (lm : Nat) (mode : LockMode) (b : Bool) : FileLock κ :=
  match s.pool with
  | some (n, m) => if n = lm then { s with pool := some (n, m.setFlag mode b) } else { s with wild := true }
  | none => { s with wild := true }

/-- the part of `lock_ex` and `lock_sh` behind the test -/
def startLock (co : κ) (lm : Nat) (mode : LockMode) : FileLock κ :=
  (s.setFlag lm mode true).setCall co (some (.locking lm mode))

end

section
variable (s : FileLock κ) (co : κ)

/-- `lock_ex` and `lock_sh` -/
def lock (mode : LockMode) : FileLock κ :=
  match s.getManager with
  | ((n, lm), s) =>
    if lm.busy mode then
      { s with pool := some (n, { lm with queue := lm.queue ++ [co] }) }.setCall co (some (.waiting n mode))
    else s.startLock co n mode

/-- `lock_release` up to `flock` -/
def release : FileLock κ :=
  match s.pool with
  | none => s.setCall co (some (.unlocking none))
  | some (n, lm) =>
    match lm.queue with
    | [] => { s with pool := none }.setCall co (some (.unlocking none))
    | next :: queue =>
      { s with pool := some (n, { lm with queue := queue }) }.setCall co (some (.unlocking (some next)))

/-- `lock_nb` for `LOCK_EX` and `LOCK_SH` -/
def lockNb (mode : LockMode) (ok : Bool) : FileLock κ :=
  match s.getManager with
  | ((n, lm), s) =>
    if lm.busy mode then s
    else if ok then { s with pool := some (n, lm.setFlag mode true) }.setHeld co (some mode)
    else s

/-- `lock_nb` for `LOCK_UN`: what is not `LOCK_EX` sets `lock_sh` -/
def unlockNb (ok : Bool) : FileLock κ :=
  match s.getManager with
  | ((n, lm), s) => if ok then { s with pool := some (n, lm.setFlag .sh true) }.setHeld co none else s

/-- `co->resume()` at the end of `lock_release`: the coroutine goes on behind its `yield` -/
def resume : FileLock κ :=
  match s.calls co with
  | some (.waiting lm mode) => s.startLock co lm mode
  | _ => s

def locked (lm : Nat) (mode : LockMode) (ok : Bool) : FileLock κ :=
  if ok then (s.setHeld co (some mode)).setCall co none
  else (s.setFlag lm mode false).setCall co none

def unlocked (next : Option κ) (ok : Bool) : FileLock κ :=
  let s := if ok then s.setHeld co none else s
  let s := s.setCall co none
  match next with
  | none => s
  | some next => s.resume next

def Permits (mode : LockMode) : Prop := ∀ c, c ≠ co → s.held c ≠ some .ex ∧ (mode = .ex → s.held c = none)

end

instance [Fintype κ] (s : FileLock κ) (co : κ) (mode : LockMode) : Decidable (s.Permits co mode) :=
  inferInstanceAs (Decidable (∀ _, _))

variable [Fintype κ]

def call (s : FileLock κ) (co : κ) (op : FlockOp) (ok : Bool) : Option (FileLock κ) :=
  match op with
  | .lock mode => some (s.lock co mode)
  | .unlock => some (s.release co)
  | .lockNb mode => if ok = true → s.Permits co mode then some (s.lockNb co mode ok) else none
  | .unlockNb => some (s.unlockNb co ok)

def done (s : FileLock κ) (co : κ) (ok : Bool) : Option (FileLock κ) :=
  match s.calls co with
  | some (.locking lm mode) => if ok = true → s.Permits co mode then some (s.locked co lm mode ok) else none
  | some (.unlocking next) => some (s.unlocked co next ok)
  | _ => none

def step (a : FlockAct κ) (s : FileLock κ) : Option (FileLock κ) :=
  match a with
  | .call co op ok => if s.calls co = none then s.call co op ok else none
  | .done co ok => s.done co ok

end FileLock

end OSW.Coroutine
