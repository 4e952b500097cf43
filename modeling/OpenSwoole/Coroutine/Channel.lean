import OpenSwoole.Lib.Machine

/-!
# Coroutine channels and selectors

`src/coroutine/channel.cc` and `src/coroutine/selector.cc`.  `resume` switches to the woken coroutine at
once and comes back when that one yields or ends, so the running coroutines form a stack.  A frame of the
stack is a coroutine and the place where it goes on: in user code, behind a `yield`, or inside `push`,
`pop` or `close` at a `resume`.  With an empty stack the scheduler has control; timers fire only there.

A suspended coroutine has an entry in `waits`, the call it yielded in.  The wait queues of a channel hold
coroutine numbers.  `pushed`, `popped` and `underflow` of a channel are records: the values that went in and
out, and whether `front()` was called on an empty queue.

* `Channel`, `Wait`, `Code`, `Sched`   channels, suspended calls, places, and the whole state;
* `Op`, `Sched.step`   what the running coroutine or the scheduler does next; `tick` lets the running
    coroutine go on inside the channel code.
-/

namespace OSW.Coroutine
open Function

inductive Opcode where
  | producer
  | consumer
  deriving DecidableEq

def errorTimeout : Int := -1
def errorClosed : Int := -2
def errorCanceled : Int := -3

/-- `class Channel`; `queue` are `producer_queue` and `consumer_queue` -/
structure Channel (α : Type) where
  capacity : Nat
  closed : Bool
  error : Int
  data : List α
  queue : Opcode → List Nat
  pushed : List α
  popped : List α
  underflow : Bool

/-- the call in which a coroutine is suspended; `timed` when it has a timer -/
inductive Wait (α : Type) where
  | pop (ch : Nat) (timed : Bool)
  | push (ch : Nat) (v : α) (timed : Bool)
  | select (pulls pushes : List Nat) (timed : Bool)
  | other

inductive Code (α : Type) where
  | user
  /-- behind the `yield` of a call, with the error of a timeout or a cancellation -/
  | woken (w : Wait α) (err : Option Int)
  /-- at the notification of a waiting coroutine, at the end of `pop` or `push` -/
  | notify (ch : Nat) (type : Opcode)
  /-- in one of the two loops of `close` -/
  | closing (ch : Nat) (type : Opcode)

structure Frame (α : Type) where
  co : Nat
  code : Code α

/-- the state; `selected` are the results of the last `select` of every coroutine -/
structure Sched (α : Type) where
  chans : Nat → Channel α
  waits : Nat → Option (Wait α)
  stack : List (Frame α)
  selected : Nat → List Nat × List Nat

inductive Op (α : Type) where
  | tick
  | pop (ch : Nat) (timed : Bool)
  | push (ch : Nat) (v : α) (timed : Bool)
  | close (ch : Nat)
  | select (pulls pushes : List Nat) (timed : Bool)
  /-- cancel a coroutine that waits in `pop` or `push` -/
  | cancel (co : Nat)
  /-- yield for a reason that is not a channel -/
  | suspend
  | exit
  /-- start a coroutine, or resume one that is suspended for another reason -/
  | enter (co : Nat)
  /-- the timer of a coroutine fires -/
  | timeout (co : Nat)

variable {α : Type}

namespace Channel

def make (capacity : Nat) : Channel α :=
  { capacity, closed := false, error := 0, data := [], queue := fun _ => [], pushed := [],
    popped := [], underflow := false }

variable (c : Channel α)

def isEmpty : Bool := c.data.isEmpty

def isFull : Bool := decide (c.data.length = c.capacity)

/-- `data_queue.front()` and `data_queue.pop()` -/
def popFront : Channel α :=
  match c.data with
  | [] => { c with underflow := true }
  | v :: data => { c with data, popped := c.popped ++ [v] }

def pushBack (v : α) : Channel α := { c with data := c.data ++ [v], pushed := c.pushed ++ [v] }

def setQueue (t : Opcode) (q : List Nat) : Channel α := { c with queue := update c.queue t q }

/-- `consumer_remove` and `producer_remove` -/
def remove (t : Opcode) (co : Nat) : Channel α := c.setQueue t ((c.queue t).filter (· ≠ co))

def append (t : Opcode) (co : Nat) : Channel α := c.setQueue t (c.queue t ++ [co])

def isReady : Bool := decide (c.error > 0) || (c.closed && c.isEmpty) || !c.isEmpty

end Channel

namespace Sched

def init (capacity : Nat → Nat) : Sched α :=
  { chans := fun ch => .make (capacity ch), waits := fun _ => none, stack := [],
    selected := fun _ => ([], []) }

section
variable (s : Sched α)

def setChan (ch : Nat) (c : Channel α) : Sched α := { s with chans := update s.chans ch c }

def setError (ch : Nat) (e : Int) : Sched α := s.setChan ch { s.chans ch with error := e }

def setWait (co : Nat) (w : Option (Wait α)) : Sched α := { s with waits := update s.waits co w }

def setStack (stack : List (Frame α)) : Sched α := { s with stack }

def resume (co : Nat) (err : Option Int) (stack : List (Frame α)) : Sched α :=
  s.setStack (⟨co, .woken ((s.waits co).getD .other) err⟩ :: stack)

def yield (ch : Nat) (t : Opcode) (co : Nat) (w : Wait α) (rest : List (Frame α)) : Sched α :=
  ((s.setChan ch ((s.chans ch).append t co)).setWait co (some w)).setStack rest

/-- wake the first coroutine of a queue, on top of `stack` -/
def notify (ch : Nat) (t : Opcode) (stack : List (Frame α)) : Option (Sched α) :=
  match (s.chans ch).queue t with
  | [] => none
  | co :: q => some ((s.setChan ch ((s.chans ch).setQueue t q)).resume co none stack)

/-! ## `pop` and `push` -/

/-- `pop` from `data_queue.front()` on -/
def popData (ch co : Nat) (rest : List (Frame α)) : Sched α :=
  (s.setChan ch (s.chans ch).popFront).setStack (⟨co, .notify ch .producer⟩ :: rest)

/-- `push` from `data_queue.push` on -/
def pushData (ch : Nat) (v : α) (co : Nat) (rest : List (Frame α)) : Sched α :=
  (s.setChan ch ((s.chans ch).pushBack v)).setStack (⟨co, .notify ch .consumer⟩ :: rest)

def pop (ch : Nat) (timed : Bool) (co : Nat) (rest : List (Frame α)) : Sched α :=
  let c := s.chans ch
  if c.closed && c.isEmpty then s.setError ch errorClosed
  else if c.isEmpty || !(c.queue .consumer).isEmpty then s.yield ch .consumer co (.pop ch timed) rest
  else s.popData ch co rest

def push (ch : Nat) (v : α) (timed : Bool) (co : Nat) (rest : List (Frame α)) : Sched α :=
  let c := s.chans ch
  if c.closed then s.setError ch errorClosed
  else if c.isFull || !(c.queue .producer).isEmpty then
    s.yield ch .producer co (.push ch v timed) rest
  else s.pushData ch v co rest

end

/-! ## `select` -/

/-- the channels of `select` whose queues of a type are used -/
def listed (pulls pushes : List Nat) : Opcode → List Nat
  | .producer => pushes
  | .consumer => pulls

section
variable (s : Sched α)

def onListed (pulls pushes : List Nat) (f : List Nat → Nat → List Nat) : Sched α :=
  { s with chans := fun ch =>
      { s.chans ch with queue := fun t => f ((s.chans ch).queue t) ((listed pulls pushes t).count ch) } }

section
variable (co : Nat) (pulls pushes : List Nat)

/-- a coroutine is put into a queue once for every time the channel is listed -/
def addWaiting : Sched α :=
  s.onListed pulls pushes fun q n => q ++ List.replicate n co

def removeWaiting : Sched α :=
  s.onListed pulls pushes fun q n => if n = 0 then q else q.filter (· ≠ co)

def allWaiting : Bool := (pulls ++ pushes).all fun ch => !(s.chans ch).isReady

/-- the indices that `select` returns; those of `push_chans` go to `pull_ready` as well -/
def ready : List Nat × List Nat :=
  let indices := fun chs : List Nat =>
    (List.range chs.length).filter fun i => (chs[i]?).any fun ch => (s.chans ch).isReady
  (indices pulls ++ indices pushes, [])

/-- `select` from `remove_waiting` on -/
def selectEnd : Sched α :=
  let s := s.removeWaiting co pulls pushes
  { s with selected := update s.selected co (s.ready pulls pushes) }

end

def select (pulls pushes : List Nat) (timed : Bool) (co : Nat) (rest : List (Frame α)) : Sched α :=
  if pulls.isEmpty && pushes.isEmpty then { s with selected := update s.selected co ([], []) }
  else if s.allWaiting pulls pushes then
    ((s.addWaiting co pulls pushes).setWait co (some (.select pulls pushes timed))).setStack rest
  else s.selectEnd co pulls pushes

/-! ## steps -/

/-- a coroutine goes on behind its `yield` -/
def wake (co : Nat) (rest : List (Frame α)) (err : Option Int) : Wait α → Sched α
  | .pop ch _ =>
    match err with
    | some e => (s.setError ch e).setStack (⟨co, .user⟩ :: rest)
    | none =>
      if (s.chans ch).closed && (s.chans ch).isEmpty then
        (s.setError ch errorClosed).setStack (⟨co, .user⟩ :: rest)
      else s.popData ch co rest
  | .push ch v _ =>
    match err with
    | some e => (s.setError ch e).setStack (⟨co, .user⟩ :: rest)
    | none =>
      if (s.chans ch).closed then (s.setError ch errorClosed).setStack (⟨co, .user⟩ :: rest)
      else s.pushData ch v co rest
  | .select pulls pushes _ => (s.selectEnd co pulls pushes).setStack (⟨co, .user⟩ :: rest)
  | .other => s.setStack (⟨co, .user⟩ :: rest)

def tick : Sched α :=
  match s.stack with
  | ⟨co, .woken w err⟩ :: rest => (s.setWait co none).wake co rest err w
  | ⟨co, .notify ch t⟩ :: rest =>
    -- nothing is left to do in `pop` or `push` behind the `resume`
    (s.notify ch t (⟨co, .user⟩ :: rest)).getD (s.setStack (⟨co, .user⟩ :: rest))
  | ⟨co, .closing ch .producer⟩ :: rest =>
    (s.notify ch .producer s.stack).getD (s.setStack (⟨co, .closing ch .consumer⟩ :: rest))
  | ⟨co, .closing ch .consumer⟩ :: rest =>
    (s.notify ch .consumer s.stack).getD (s.setStack (⟨co, .user⟩ :: rest))
  | _ => s

def close (ch co : Nat) (rest : List (Frame α)) : Sched α :=
  if (s.chans ch).closed then s
  else (s.setChan ch { s.chans ch with closed := true }).setStack (⟨co, .closing ch .producer⟩ :: rest)

/-- take a coroutine out of the queue in which its call waits, and resume it with an error -/
def interrupt (co : Nat) (e : Int) : Sched α :=
  match s.waits co with
  | some (.pop ch _) => (s.setChan ch ((s.chans ch).remove .consumer co)).resume co (some e) s.stack
  | some (.push ch _ _) => (s.setChan ch ((s.chans ch).remove .producer co)).resume co (some e) s.stack
  | _ => s

end

def isTimed : Wait α → Bool
  | .pop _ timed | .push _ _ timed | .select _ _ timed => timed
  | .other => false

/-- `Channel::timer_callback` and `Selector::timer_callback` -/
def timeout (s : Sched α) (co : Nat) : Sched α :=
  match s.waits co with
  | some w =>
    if isTimed w then
      match w with
      | .select _ _ _ => s.resume co (some errorTimeout) s.stack
      | _ => s.interrupt co errorTimeout
    else s
  | none => s

/-- a coroutine that does not run and does not wait in a channel -/
def enter (s : Sched α) (co : Nat) : Sched α :=
  if co ∈ s.stack.map Frame.co then s
  else
    match s.waits co with
    | none => s.setStack (⟨co, .user⟩ :: s.stack)
    | some .other => s.resume co none s.stack
    | some _ => s

def act (s : Sched α) (co : Nat) (rest : List (Frame α)) : Op α → Sched α
  | .pop ch timed => s.pop ch timed co rest
  | .push ch v timed => s.push ch v timed co rest
  | .close ch => s.close ch co rest
  | .select pulls pushes timed => s.select pulls pushes timed co rest
  | .cancel co' => s.interrupt co' errorCanceled
  | .suspend => (s.setWait co (some .other)).setStack rest
  | .exit => s.setStack rest
  | .enter co' => s.enter co'
  | _ => s

/-- one step; what is not possible in a state changes nothing -/
def step (op : Op α) (s : Sched α) : Sched α :=
  match op, s.stack with
  | .tick, _ => s.tick
  | .enter co, [] => s.enter co
  | .timeout co, [] => s.timeout co
  | op, ⟨co, .user⟩ :: rest => s.act co rest op
  | _, _ => s

def run (ops : List (Op α)) (s : Sched α) : Sched α := ops.foldl (fun s op => step op s) s

end Sched

end OSW.Coroutine
