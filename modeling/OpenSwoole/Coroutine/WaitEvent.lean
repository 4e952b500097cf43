import Mathlib.Algebra.Group.Nat.Defs
import OpenSwoole.Lib.Machine

/-!
# `System::wait_event`

`System::wait_event` and the class `EventWaiter` of `src/coroutine/system.cc`, for one coroutine that waits
again and again.  A round of the event loop runs the callbacks of the descriptors, then the timers, then the
deferred tasks; the coroutine itself and those that cancel it run within these callbacks, in any part of a
round.  A readiness callback defers the resume, while the timer and a cancellation resume at once.

A waiter lives in the frame of its call; `number` counts the calls.  `resumes` and `stale` are records: the
calls that `co->resume()` was called for, and whether a waiter was used after its call.

* `WaitLoop.Once`   the invariant: a deferred task belongs to the waiter of the current call;
* `resumed_exactly_once`   **every wait is resumed once**, when neither the timer nor a cancellation comes
    between a readiness callback and the deferred task.
-/

namespace OSW.Coroutine
open Option Machine List

inductive LoopPhase where
  | io
  | timers
  | deferTasks
  deriving DecidableEq

/-- `enum openswoole_event_type`, as far as it is reported -/
inductive EventType where
  | read
  | write
  | error

def EventType.code : EventType → Nat
  | .read => 2^9
  | .write => 2^10
  | .error => 2^11

inductive WaitError where
  | timedOut
  | canceled

/-- `struct EventWaiter`; `timer` tells that the pointer is set -/
structure EventWaiter where
  number : Nat
  events : Nat
  timer : Bool
  revents : Nat
  error : Option WaitError

def EventWaiter.result (w : EventWaiter) : Except WaitError Nat :=
  match w.error with
  | some error => .error error
  | none =>
    if w.revents &&& EventType.error.code = 0 then .ok w.revents
    else .ok ((w.revents ^^^ EventType.error.code) ||| w.events)

structure WaitLoop where
  phase : LoopPhase
  /-- the waiter of the call that has not returned -/
  waiter : Option EventWaiter
  calls : Nat
  /-- `reactor->defer_tasks`: the numbers of the waiters -/
  deferred : List Nat
  results : List (Except WaitError Nat)
  resumes : List Nat
  stale : Bool

inductive WaitAct where
  /-- `wait_event` is called, with a time limit or without -/
  | call (events : Nat) (timer : Bool)
  | ready (event : EventType)
  | expire
  | cancel
  | runDeferred
  /-- the next part of the round -/
  | next

namespace WaitLoop

def start : WaitLoop := ⟨.io, none, 0, [], [], [], false⟩

section
variable (s : WaitLoop)

/-- `co->resume()` for the wait `i`: the call that the coroutine is in goes on, and returns -/
def resume (i : Nat) : WaitLoop :=
  match s.waiter with
  | some w => { s with waiter := none, results := s.results ++ [w.result], resumes := s.resumes ++ [i] }
  | none => { s with resumes := s.resumes ++ [i] }

def callback (w : EventWaiter) (event : EventType) : WaitLoop :=
  { s with
    deferred := if w.revents = 0 then s.deferred ++ [w.number] else s.deferred
    waiter := some { w with revents := w.revents ||| event.code } }

def expire (w : EventWaiter) : WaitLoop :=
  { s with waiter := some { w with timer := false, error := some .timedOut } }.resume w.number

def cancel (w : EventWaiter) : WaitLoop :=
  { s with waiter := some { w with error := some .canceled } }.resume w.number

/-- the deferred task of the waiter `i` reads `waiter->co` -/
def runDeferred (i : Nat) (rest : List Nat) : WaitLoop :=
  { s with deferred := rest, stale := s.stale || s.waiter.map EventWaiter.number != some i }.resume i

/-- a round ends when its deferred tasks have run -/
def next : Option WaitLoop :=
  match s.phase with
  | .io => some { s with phase := .timers }
  | .timers => some { s with phase := .deferTasks }
  | .deferTasks => if s.deferred = [] then some { s with phase := .io } else none

end

def step (act : WaitAct) (s : WaitLoop) : Option WaitLoop :=
  match act, s.waiter with
  | .call events timer, none =>
    some { s with waiter := some ⟨s.calls, events, timer, 0, none⟩, calls := s.calls + 1 }
  | .ready event, some w => if s.phase = .io then some (s.callback w event) else none
  | .expire, some w => if s.phase = .timers ∧ w.timer then some (s.expire w) else none
  | .cancel, some w => some (s.cancel w)
  | .runDeferred, _ =>
    match s.deferred with
    | i :: rest => if s.phase = .deferTasks then some (s.runDeferred i rest) else none
    | [] => none
  | .next, _ => s.next
  | _, _ => none

def returned (s : WaitLoop) : Nat :=
  match s.waiter with
  | some w => w.number
  | none => s.calls

def taskOf : Option EventWaiter → List Nat
  | some w => if w.revents = 0 then [] else [w.number]
  | none => []

structure Once (s : WaitLoop) : Prop where
  fresh : s.stale = false
  number : ∀ w, s.waiter = some w → w.number + 1 = s.calls
  task : s.deferred = taskOf s.waiter
  resumes : s.resumes = range s.returned

/-- neither the timer nor a cancellation comes while the resume is deferred -/
def Careful : WaitAct → WaitLoop → Prop
  | .expire, s | .cancel, s => s.deferred = []
  | _, _ => True

instance (act : WaitAct) (s : WaitLoop) : Decidable (Careful act s) := by
  cases act <;> dsimp only [Careful] <;> infer_instance

variable {s s' : WaitLoop} {w : EventWaiter}

lemma Once.resume (hs : s.Once) (hw : s.waiter = some w) (w' : EventWaiter) {rest : List Nat} {stale : Bool}
    (hstale : stale = false) (hrest : rest = []) :
    (WaitLoop.resume { s with waiter := some w', deferred := rest, stale } w.number).Once := by
  refine ⟨hstale, fun w hw => absurd hw.symm (some_ne_none _), hrest, ?_⟩
  show s.resumes ++ [w.number] = range s.calls
  rw [hs.resumes, returned, hw, ← hs.number w hw, range_succ]

lemma callback_revents (w : EventWaiter) (event : EventType) : w.revents ||| event.code ≠ 0 := by
  intro h
  have hcode := (Nat.or_eq_zero_iff.1 h).2
  cases event <;> cases hcode

lemma Once.callback (hs : s.Once) (hw : s.waiter = some w) (event : EventType) : (s.callback w event).Once := by
  obtain ⟨hfresh, hnumber, htask, hresumes⟩ := hs
  rw [hw] at htask
  rw [returned, hw] at hresumes
  refine ⟨hfresh, fun w' hw' => ?_, ?_, hresumes⟩
  · cases hw'
    exact hnumber w hw
  · -- the first callback defers the task, the others find it there
    have hnew : taskOf (s.callback w event).waiter = [w.number] := if_neg (callback_revents w event)
    show (if w.revents = 0 then s.deferred ++ [w.number] else s.deferred) = _
    rw [htask, hnew]
    by_cases hzero : w.revents = 0
    · rw [if_pos hzero, show taskOf (some w) = [] from if_pos hzero]
      rfl
    · rw [if_neg hzero]
      exact if_neg hzero

lemma Once.waiter_of_deferred (hs : s.Once) {i : Nat} {rest : List Nat} (h : s.deferred = i :: rest) :
    ∃ w, s.waiter = some w ∧ w.number = i ∧ rest = [] := by
  have htask := hs.task
  rw [h] at htask
  cases hw : s.waiter with
  | none =>
    rw [hw] at htask
    cases htask
  | some w =>
    rw [hw] at htask
    by_cases hzero : w.revents = 0
    · cases htask.trans (if_pos hzero)
    · obtain ⟨hi, hrest⟩ := cons.inj (htask.trans (if_neg hzero))
      exact ⟨w, rfl, hi.symm, hrest⟩

lemma Once.next (hs : s.Once) (h : s.next = some s') : s'.Once := by
  obtain ⟨hfresh, hnumber, htask, hresumes⟩ := hs
  unfold WaitLoop.next at h
  split at h
  · exact some.inj h ▸ ⟨hfresh, hnumber, htask, hresumes⟩
  · exact some.inj h ▸ ⟨hfresh, hnumber, htask, hresumes⟩
  · obtain ⟨-, rfl⟩ := ite_some_none_eq_some.1 h
    exact ⟨hfresh, hnumber, htask, hresumes⟩

lemma Once.step {act : WaitAct} (hcond : Careful act s) (hs : s.Once) (h : WaitLoop.step act s = some s') :
    s'.Once := by
  unfold WaitLoop.step at h
  split at h
  · next events timer hw =>
    cases h
    obtain ⟨hfresh, hnumber, htask, hresumes⟩ := hs
    rw [hw] at htask
    rw [returned, hw] at hresumes
    exact ⟨hfresh, fun w hw => by rw [← some.inj hw], htask, hresumes⟩
  · next event w hw =>
    obtain ⟨-, rfl⟩ := ite_some_none_eq_some.1 h
    exact hs.callback hw event
  · next w hw =>
    obtain ⟨-, rfl⟩ := ite_some_none_eq_some.1 h
    exact hs.resume hw _ hs.fresh hcond
  · next w hw =>
    cases h
    exact hs.resume hw _ hs.fresh hcond
  · split at h
    · next i rest hdeferred =>
      obtain ⟨-, h⟩ := ite_none_right_eq_some.1 h
      obtain ⟨w, hw, rfl, hrest⟩ := hs.waiter_of_deferred hdeferred
      cases h
      have hstale : (s.stale || s.waiter.map EventWaiter.number != some w.number) = false := by
        rw [hs.fresh, hw]
        simp
      have honce := hs.resume hw w hstale hrest
      rw [← hw] at honce
      exact honce
    · cases h
  · exact hs.next h
  · cases h

theorem resumed_exactly_once (acts : List WaitAct) (hacts : Along WaitLoop.step Careful acts start)
    (s : WaitLoop) (hs : iter WaitLoop.step acts start = some s) :
    s.stale = false ∧ s.resumes = range s.returned ∧
      ∀ s', s.phase = .deferTasks → WaitLoop.step .next s = some s' →
        ∀ w, s'.waiter = some w → w.revents = 0 := by
  have honce : s.Once := iter_keeps (fun act s s' hcond hs h => hs.step hcond h) acts hacts
    ⟨rfl, fun w hw => absurd hw.symm (some_ne_none _), rfl, rfl⟩ hs
  refine ⟨honce.fresh, honce.resumes, fun s' hphase hstep w hw => ?_⟩
  have hnext : s.next = some s' := hstep
  rw [WaitLoop.next, hphase] at hnext
  obtain ⟨hempty, hnext⟩ := ite_none_right_eq_some.1 hnext
  have htask := honce.task
  rw [← some.inj hnext] at hw
  rw [hempty, show s.waiter = some w from hw] at htask
  by_contra hne
  exact absurd (htask.trans (if_neg hne)) (cons_ne_nil _ _).symm

/-- a wait that ends with readiness in the second round, and one that is cancelled -/
theorem resumed_exactly_once_two : ∃ s, iter WaitLoop.step
        [.call 512 true, .next, .next, .next, .ready .read, .ready .error, .next, .next,
          .runDeferred, .call 512 false,
          .cancel] start = some s ∧ s.stale = false ∧ s.resumes = range s.returned := by
  refine exists_of_map (fun s => s.returned) (show _ = some 2 by decide) fun s hs _ => ?_
  obtain ⟨hstale, hresumes, -⟩ := resumed_exactly_once _ (by decide) s hs
  exact ⟨hstale, hresumes⟩

/-- the timer resumes the coroutine, and then the deferred task does so again -/
theorem resumed_after_timeout :
    (iter WaitLoop.step [.call 512 true, .ready .read, .next, .expire, .next, .runDeferred] start).map
      (fun s => (s.resumes, s.returned, s.stale)) = some ([0, 0], 1, true) := by
  decide

end WaitLoop

end OSW.Coroutine
