import Mathlib.Tactic.Common

/-!
# Child processes, and loops that wait for them

What the manager of worker processes sees of the operating system: `fork`, `wait` and `kill`.  A child
that has ended stays in the process table until `wait` returns its pid; after that the pid may be given
to another process.

* `ProcState`   a pid is not a child, a running child, or one that `wait` has not returned yet.
-/

namespace OSW.Os
open Function

inductive ProcState where
  | gone
  | running
  | zombie
  deriving DecidableEq

abbrev Procs := Nat → ProcState

def Procs.exits (procs : Procs) (pid : Nat) : Procs := update procs pid .zombie

def Procs.reap (procs : Procs) (pid : Nat) : Procs := update procs pid .gone

def Procs.fork (procs : Procs) (pid : Nat) : Procs := update procs pid .running

section
variable {procs : Procs} {pid q : Nat}

lemma Procs.update_eq_gone {v : ProcState} (hv : v ≠ .gone) :
    update procs pid v q = .gone ↔ q ≠ pid ∧ procs q = .gone := by
  by_cases he : q = pid
  · rw [he, update_self]
    exact ⟨fun h => absurd h hv, fun h => absurd rfl h.1⟩
  · rw [update_of_ne he]
    exact ⟨fun h => ⟨he, h⟩, And.right⟩

lemma Procs.exits_eq_gone : procs.exits pid q = .gone ↔ q ≠ pid ∧ procs q = .gone := update_eq_gone nofun

lemma Procs.fork_eq_gone : procs.fork pid q = .gone ↔ q ≠ pid ∧ procs q = .gone := update_eq_gone nofun

lemma Procs.reap_eq_gone : procs.reap pid q = .gone ↔ q = pid ∨ procs q = .gone := by
  by_cases he : q = pid
  · rw [he, Procs.reap, update_self]
    exact ⟨fun _ => .inl rfl, fun _ => rfl⟩
  · rw [Procs.reap, update_of_ne he]
    exact ⟨.inr, fun h => h.resolve_left he⟩

end

def Procs.Fresh (procs : Procs) (pid : Nat) : Prop := 0 < pid ∧ procs pid = .gone

instance (procs : Procs) (pid : Nat) : Decidable (procs.Fresh pid) := inferInstanceAs (Decidable (_ ∧ _))

/-- `errno` of a failed `kill` is one of the two that the loops look at, or another -/
inductive KillRes where
  | ok
  | echild
  | esrch
  | other
  deriving DecidableEq

/-- what `kill` may return for `pid`: children can be signalled, ended or not, and `0` stands for the
process group of the caller -/
def Procs.Kills (procs : Procs) (pid : Nat) (res : KillRes) : Prop :=
  procs pid ≠ .gone ∨ pid = 0 → res = .ok

instance (procs : Procs) (pid : Nat) (res : KillRes) : Decidable (procs.Kills pid res) :=
  inferInstanceAs (Decidable (_ ∨ _ → _))

/-- a loop around `wait`: in front of it, in it, behind it with its result (`none` is `-1`), behind the
handling of messages, at the label `_kill_worker`, and left -/
inductive Pc where
  | enter
  | wait
  | woke (ret : Option Nat)
  | body (ret : Option Nat)
  | kill
  | returned
  deriving DecidableEq

/-- a signal interrupts `wait` -/
def Pc.interrupt : Pc → Pc
  | .wait => .woke none
  | pc => pc

/-- the pid that `wait` has returned and that is not handled yet -/
def Pc.ret : Pc → Option Nat
  | .woke ret | .body ret => ret
  | _ => none

end OSW.Os
