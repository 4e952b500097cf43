import Mathlib.Data.List.Nodup
import OpenSwoole.Lib.Machine
import OpenSwoole.Lib.PartialMap

/-!
# Calls in a thread pool

`coroutine::async` and `System::getaddrinfo` of `src/coroutine/system.cc`, with the thread pool of
`src/os/async_thread.cc`.  A coroutine puts a copy of its event into the queue and is suspended in `yield_ex`.
A worker takes the event, tests the flag `canceled`, runs the handler and writes the address of the event to a
pipe; the event loop reads it there, resumes the coroutine and deletes the event.  A timeout or a cancellation
resumes the coroutine as well, which then sets the flag and returns.

There may be any number of calls and workers; `waiting` tells that a call has not returned, so that its frame
is there.  The field `stale` records whether a frame was used after that, or a deleted event.  The pipe takes
what is written to it.

* `AsyncPool.step`   a step of a coroutine, a worker or the event loop;
* `AsyncPool.Safe`   the invariant: a frame is there while a handler runs on it.
-/

namespace OSW.Os
open Function PartialMap Option Machine List

/-- what lives in the frame of a call -/
inductive FrameField where
  /-- the `AsyncLambdaTask` of `async` -/
  | task
  /-- the `GetaddrinfoRequest` of `getaddrinfo` -/
  | request
  /-- the `result_buffer` of `getaddrinfo` -/
  | resultBuffer

/-- `async_lambda_handler` and `handler_getaddrinfo` -/
inductive AsyncHandler where
  | lambda
  | getaddrinfo

def AsyncHandler.uses : AsyncHandler → FrameField → Bool
  | .lambda, .task | .getaddrinfo, .request | .getaddrinfo, .resultBuffer => true
  | _, _ => false

/-- `async_lambda_callback` reads the task, `async_task_completed` nothing of the frame -/
def AsyncHandler.callbackReads : AsyncHandler → Bool
  | .lambda => true
  | .getaddrinfo => false

/-- in the queue; taken from it; in the handler; behind it; in the pipe -/
inductive AsyncPhase where
  | queued
  | taken
  | running
  | handled
  | posted
  deriving DecidableEq

structure AsyncEvent where
  handler : AsyncHandler
  canceled : Bool
  phase : AsyncPhase

structure AsyncPool where
  queue : List Nat
  events : Nat → Option AsyncEvent
  pipe : List Nat
  waiting : Nat → Bool
  calls : Nat
  results : List (Nat × Bool)
  stale : Bool

inductive AsyncStep where
  | call (handler : AsyncHandler)
  /-- a timeout or a cancellation -/
  | giveUp (i : Nat)
  | take
  | test (i : Nat)
  | access (i : Nat) (field : FrameField)
  | finish (i : Nat)
  | post (i : Nat)
  | complete

namespace AsyncPool

def start : AsyncPool := ⟨[], fun _ => none, [], fun _ => false, 0, [], false⟩

section
variable (s : AsyncPool)

def setEvent (i : Nat) (event : Option AsyncEvent) : AsyncPool :=
  { s with events := update s.events i event }

/-- `ThreadPool::dispatch`, and the suspension -/
def call (handler : AsyncHandler) : AsyncPool :=
  { s with
    queue := s.queue ++ [s.calls]
    events := update s.events s.calls (some ⟨handler, false, .queued⟩)
    waiting := update s.waiting s.calls true
    calls := s.calls + 1 }

def leave (i : Nat) (result : Bool) : AsyncPool :=
  { s with waiting := update s.waiting i false, results := s.results ++ [(i, result)] }

/-- `yield_ex` has returned false: `_ev->canceled = true` -/
def giveUp (i : Nat) : AsyncPool :=
  match s.events i with
  | some event => (s.setEvent i (some { event with canceled := true })).leave i false
  | none => { s with stale := true }.leave i false

/-- a worker goes on with the event `i`, which is in the phase `phase` -/
def worker (i : Nat) (phase : AsyncPhase) (f : AsyncEvent → AsyncPool) : Option AsyncPool :=
  match s.events i with
  | some event => if event.phase = phase then some (f event) else none
  | none => none

/-- one address that `AsyncThreads::callback` has read -/
def complete (i : Nat) : AsyncPool :=
  match s.events i with
  | some event =>
    if event.canceled then s.setEvent i none
    else
      ({ s with stale := s.stale || (event.handler.callbackReads && !s.waiting i) }.leave i true).setEvent i none
  | none => { s with stale := true }

def take : Option AsyncPool :=
  match s.queue with
  | i :: rest => s.worker i .queued fun event =>
      { s with queue := rest }.setEvent i (some { event with phase := .taken })
  | [] => none

def readPipe : Option AsyncPool :=
  match s.pipe with
  | i :: rest => some ({ s with pipe := rest }.complete i)
  | [] => none

end

def step : AsyncStep → AsyncPool → Option AsyncPool
  | .call handler, s => some (s.call handler)
  | .giveUp i, s => if s.waiting i then some (s.giveUp i) else none
  | .take, s => s.take
  | .test i, s =>
    s.worker i .taken fun event =>
      s.setEvent i (some { event with phase := if event.canceled then .handled else .running })
  | .access i field, s =>
    s.worker i .running fun event => { s with stale := s.stale || (event.handler.uses field && !s.waiting i) }
  | .finish i, s => s.worker i .running fun event => s.setEvent i (some { event with phase := .handled })
  | .post i, s =>
    s.worker i .handled fun event =>
      { s with pipe := s.pipe ++ [i] }.setEvent i (some { event with phase := .posted })
  | .complete, s => s.readPipe

def Careful : AsyncStep → AsyncPool → Prop
  | .giveUp i, s => (s.events i).map AsyncEvent.phase ≠ some .running
  | _, _ => True

instance (e : AsyncStep) (s : AsyncPool) : Decidable (Careful e s) := by
  cases e <;> dsimp only [Careful] <;> infer_instance

def FrameThere (waiting : Bool) (event : AsyncEvent) : Prop :=
  (event.canceled = false ↔ waiting = true) ∧ (event.phase = .running → waiting = true)

structure Safe (s : AsyncPool) : Prop where
  fresh : s.stale = false
  frame : ∀ i event, s.events i = some event → FrameThere (s.waiting i) event
  waiting : ∀ i, s.waiting i = true → s.events i ≠ none
  bound : ∀ i, s.calls ≤ i → s.events i = none
  posted : ∀ i ∈ s.pipe, ∃ event, s.events i = some event ∧ event.phase = .posted
  nodup : s.pipe.Nodup

variable {s s' : AsyncPool} {i : Nat} {event : AsyncEvent}

lemma worker_eq_some {phase : AsyncPhase} {f : AsyncEvent → AsyncPool} (h : s.worker i phase f = some s') :
    ∃ event, s.events i = some event ∧ event.phase = phase ∧ f event = s' := by
  unfold worker at h
  split at h
  · next event hevent =>
    obtain ⟨hphase, h⟩ := ite_none_right_eq_some.1 h
    exact ⟨event, hevent, hphase, some.inj h⟩
  · cases h

lemma Safe.call (hs : s.Safe) (handler : AsyncHandler) : (s.call handler).Safe := by
  have hnew := hs.bound s.calls le_rfl
  have hpipe : ∀ i ∈ s.pipe, i ≠ s.calls := by
    rintro i hi rfl
    obtain ⟨event, hevent, -⟩ := hs.posted _ hi
    exact some_ne_none _ (hevent.symm.trans hnew)
  refine ⟨hs.fresh, fun i event hevent => ?_, fun i hi => ?_, fun i hi => ?_, fun i hi => ?_, hs.nodup⟩
  · show FrameThere (update s.waiting s.calls true i) event
    rcases update_some_eq_some.1 hevent with ⟨rfl, rfl⟩ | ⟨hne, hevent⟩
    · rw [update_self]
      exact ⟨iff_of_true rfl rfl, fun _ => rfl⟩
    · rw [update_of_ne hne]
      exact hs.frame i event hevent
  · show update s.events s.calls _ i ≠ none
    by_cases he : i = s.calls
    · rw [he, update_self]
      exact some_ne_none _
    · rw [update_of_ne he]
      exact hs.waiting i ((update_of_ne he _ _).symm.trans hi)
  · have hlt : s.calls < i := hi
    exact (update_of_ne (ne_of_gt hlt) _ _).trans (hs.bound i (le_of_lt hlt))
  · obtain ⟨event, hevent, hphase⟩ := hs.posted i hi
    exact ⟨event, (update_of_ne (hpipe i hi) _ _).trans hevent, hphase⟩

section
variable (hs : s.Safe) (hevent : s.events i = some event)
include hs hevent

lemma Safe.setEvent (event' : AsyncEvent) (waits : Bool) (hframe : FrameThere waits event')
    (hposted : event.phase = .posted → event'.phase = .posted) (results : List (Nat × Bool)) :
    Safe { s with events := update s.events i (some event'), waiting := update s.waiting i waits, results } := by
  refine ⟨hs.fresh, fun k e he => ?_, fun k hk => ?_, fun k hk => ?_, fun k hk => ?_, hs.nodup⟩
  · show FrameThere (update s.waiting i waits k) e
    rcases update_some_eq_some.1 he with ⟨rfl, rfl⟩ | ⟨hne, he⟩
    · rw [update_self]
      exact hframe
    · rw [update_of_ne hne]
      exact hs.frame k e he
  · show update s.events i _ k ≠ none
    by_cases he : k = i
    · rw [he, update_self]
      exact some_ne_none _
    · rw [update_of_ne he]
      exact hs.waiting k ((update_of_ne he _ _).symm.trans hk)
  · have hnone := hs.bound k hk
    refine (update_of_ne ?_ _ _).trans hnone
    rintro rfl
    exact some_ne_none _ (hevent.symm.trans hnone)
  · obtain ⟨e, he, hphase⟩ := hs.posted k hk
    by_cases hki : k = i
    · rw [hki] at he ⊢
      rw [← some.inj (hevent.symm.trans he)] at hphase
      exact ⟨event', update_self .., hposted hphase⟩
    · exact ⟨e, (update_of_ne hki _ _).trans he, hphase⟩

lemma Safe.setPhase (hphase : event.phase ≠ .posted) (phase : AsyncPhase)
    (hrun : phase = .running → s.waiting i = true) : (s.setEvent i (some { event with phase })).Safe := by
  have h := hs.setEvent hevent { event with phase } (s.waiting i) ⟨(hs.frame i event hevent).1, hrun⟩
    (fun hposted => absurd hposted hphase) s.results
  rw [update_eq_self] at h
  exact h

lemma Safe.post (hphase : event.phase = .handled) :
    ({ s with pipe := s.pipe ++ [i] }.setEvent i (some { event with phase := .posted })).Safe := by
  have hne : event.phase ≠ .posted := by rw [hphase]; exact AsyncPhase.noConfusion
  have hset := hs.setPhase hevent hne .posted AsyncPhase.noConfusion
  have hpipe : i ∉ s.pipe := by
    intro hi
    obtain ⟨event', hevent', hposted⟩ := hs.posted i hi
    rw [some.inj (hevent.symm.trans hevent')] at hne
    exact hne hposted
  refine { hset with posted := fun k hk => ?_, nodup := ?_ }
  · rcases mem_append.1 hk with hk | hk
    · exact hset.posted k hk
    · rw [mem_singleton.1 hk]
      exact ⟨_, update_self .., rfl⟩
  · rw [← concat_eq_append]
    exact hs.nodup.concat hpipe

end

lemma Safe.giveUp (hs : s.Safe) (hi : s.waiting i = true)
    (hcond : (s.events i).map AsyncEvent.phase ≠ some .running) : (s.giveUp i).Safe := by
  obtain ⟨event, hevent⟩ := ne_none_iff_exists'.1 (hs.waiting i hi)
  rw [hevent] at hcond
  have hrun : event.phase ≠ .running := fun he => hcond (congrArg some he)
  have heq : s.giveUp i = (s.setEvent i (some { event with canceled := true })).leave i false := by
    rw [AsyncPool.giveUp, hevent]
  rw [heq]
  exact hs.setEvent hevent { event with canceled := true } false
    ⟨iff_of_false Bool.noConfusion Bool.noConfusion, fun h => absurd h hrun⟩ id _

lemma Safe.delete (hs : s.Safe) {rest : List Nat} (hpipe : s.pipe = i :: rest) {results : List (Nat × Bool)}
    {waiting : Nat → Bool} (hwaiting : waiting = update s.waiting i false) {stale : Bool}
      (hstale : stale = false) :
    Safe ⟨s.queue, update s.events i none, rest, waiting, s.calls, results, stale⟩ := by
  subst hwaiting
  have hnodup := hs.nodup
  rw [hpipe] at hnodup
  refine ⟨hstale, fun k event hevent => ?_, fun k hk => ?_, fun k hk => ?_, fun k hk => ?_, hnodup.of_cons⟩
  · obtain ⟨hne, hevent⟩ := update_none_eq_some.1 hevent
    dsimp only
    rw [update_of_ne hne]
    exact hs.frame k event hevent
  · dsimp only at hk ⊢
    by_cases he : k = i
    · rw [he, update_self] at hk
      cases hk
    · rw [update_of_ne he] at hk ⊢
      exact hs.waiting k hk
  · show update s.events i none k = none
    by_cases he : k = i
    · rw [he, update_self]
    · rw [update_of_ne he]
      exact hs.bound k hk
  · have hne : k ≠ i := fun he => hnodup.notMem (he ▸ hk)
    obtain ⟨event, hevent, hposted⟩ := hs.posted k (hpipe ▸ mem_cons_of_mem _ hk)
    exact ⟨event, (update_of_ne hne _ _).trans hevent, hposted⟩

lemma Safe.complete (hs : s.Safe) {rest : List Nat} (hpipe : s.pipe = i :: rest) :
    (AsyncPool.complete { s with pipe := rest } i).Safe := by
  obtain ⟨event, hevent, -⟩ := hs.posted i (hpipe ▸ mem_cons_self)
  have hframe := (hs.frame i event hevent).1
  unfold AsyncPool.complete
  simp only [hevent]
  by_cases hcanceled : event.canceled = true
  · -- the call has returned before
    have hgone : s.waiting i = false := by
      refine Bool.eq_false_iff.2 fun hi => ?_
      rw [hframe.2 hi] at hcanceled
      exact Bool.false_ne_true hcanceled
    rw [if_pos hcanceled]
    exact hs.delete hpipe (update_eq_self_iff.2 hgone.symm).symm hs.fresh
  · have hi := hframe.1 (Bool.eq_false_iff.2 hcanceled)
    rw [if_neg hcanceled]
    have hstale : (s.stale || (event.handler.callbackReads && !s.waiting i)) = false := by
      rw [hs.fresh, hi, Bool.not_true, Bool.and_false]
      rfl
    exact hs.delete hpipe rfl hstale

lemma Safe.step {e : AsyncStep} (hcond : Careful e s) (hs : s.Safe) (h : AsyncPool.step e s = some s') :
    s'.Safe := by
  cases e with
  | call handler => exact some.inj h ▸ hs.call handler
  | giveUp i =>
    obtain ⟨hi, rfl⟩ := ite_some_none_eq_some.1 h
    exact hs.giveUp hi hcond
  | take =>
    have htake : s.take = some s' := h
    unfold AsyncPool.take at htake
    split at htake
    · next i rest hqueue =>
      obtain ⟨event, hevent, hphase, rfl⟩ := worker_eq_some htake
      have hset := hs.setPhase hevent (by rw [hphase]; exact AsyncPhase.noConfusion) .taken
        AsyncPhase.noConfusion
      exact { hset with }
    · cases htake
  | test i =>
    obtain ⟨event, hevent, hphase, rfl⟩ := worker_eq_some h
    refine hs.setPhase hevent (by rw [hphase]; exact AsyncPhase.noConfusion) _ fun hrun => ?_
    -- the handler starts when the flag is not set
    by_cases hcanceled : event.canceled = true
    · rw [if_pos hcanceled] at hrun
      exact AsyncPhase.noConfusion hrun
    · exact (hs.frame i event hevent).1.1 (Bool.eq_false_iff.2 hcanceled)
  | access i field =>
    obtain ⟨event, hevent, hphase, rfl⟩ := worker_eq_some h
    have hi := (hs.frame i event hevent).2 hphase
    have hstale : (s.stale || (event.handler.uses field && !s.waiting i)) = false := by
      rw [hs.fresh, hi, Bool.not_true, Bool.and_false]
      rfl
    exact { hs with fresh := hstale }
  | finish i =>
    obtain ⟨event, hevent, hphase, rfl⟩ := worker_eq_some h
    exact hs.setPhase hevent (by rw [hphase]; exact AsyncPhase.noConfusion) _ AsyncPhase.noConfusion
  | post i =>
    obtain ⟨event, hevent, hphase, rfl⟩ := worker_eq_some h
    exact hs.post hevent hphase
  | complete =>
    have hread : s.readPipe = some s' := h
    unfold readPipe at hread
    split at hread
    · next i rest hpipe => exact some.inj hread ▸ hs.complete hpipe
    · cases hread

/-- **No frame is used after its call has returned**, as long as no call gives up while its handler runs. -/
theorem frames_outlive_handlers (steps : List AsyncStep) (hsteps : Along AsyncPool.step Careful steps start)
    (s : AsyncPool) (hs : iter AsyncPool.step steps start = some s) :
    s.stale = false ∧ ∀ i event, s.events i = some event → event.phase = .running → s.waiting i = true := by
  have hsafe : s.Safe := by
    refine iter_keeps (fun e s s' hcond hs h => hs.step hcond h) steps hsteps ⟨rfl, ?_, ?_, ?_, ?_, ?_⟩ hs
    · exact fun i event hevent => absurd hevent.symm (some_ne_none _)
    · exact nofun
    · exact fun i _ => rfl
    · exact nofun
    · exact nodup_nil
  exact ⟨hsafe.fresh, fun i event hevent => (hsafe.frame i event hevent).2⟩

/-- one call gives up before its handler starts, the other one gets its result -/
def twoAsync : List AsyncStep :=
  [.call .lambda, .call .getaddrinfo, .take, .giveUp 0, .test 0, .take, .test 1,
    .access 1 .request, .access 1 .resultBuffer, .post 0, .finish 1, .complete, .post 1, .complete]

theorem frames_outlive_handlers_two : ∃ s, iter AsyncPool.step twoAsync start = some s ∧
    s.results = [(0, false), (1, true)] ∧ s.stale = false := by
  refine exists_of_map (fun s => s.results) (show _ = some [(0, false), (1, true)] by decide +kernel)
    fun s hs hresults => ?_
  exact ⟨hresults, (frames_outlive_handlers twoAsync (by decide +kernel) s hs).1⟩

/-- the time is up while the function runs in the worker: the call returns, and the worker goes on with its task
-/
theorem handler_outlives_frame :
    (iter AsyncPool.step [.call .lambda, .take, .test 0, .giveUp 0, .access 0 .task] start).map
        (fun s => (s.results, s.stale)) = some ([(0, false)], true) ∧
      (iter AsyncPool.step
        [.call .getaddrinfo, .take, .test 0, .access 0 .request, .giveUp 0, .access 0 .resultBuffer] start).map
        (fun s => (s.results, s.stale)) = some ([(0, false)], true) :=
  ⟨by decide +kernel, by decide +kernel⟩

end AsyncPool

end OSW.Os
