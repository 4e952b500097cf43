import OpenSwoole.Core.Heap
import OpenSwoole.Core.Integers
import OpenSwoole.Lib.Machine

/-!
# Timers

`src/core/timer.cc`, `include/openswoole_timer.h` and `src/os/timer.cc`.  A timer node stands in a map
by its id and in a heap by its deadline.  `select` runs the callbacks of the nodes that are due; a
callback is code of the user and may call every operation but `select`.

The clock is an input: the reading of `get_relative_msec`, in milliseconds since the start, and `-1`
when it fails.  A signed addition that overflows wraps around.  The caller's fields of a node (`type`,
`data`, `callback`, `destructor`) are left out.

* `Loop`, `step`   the machine: between two steps it is idle or inside a callback.
-/

namespace OSW.Core
open Function

structure TimerNode where
  id : Int
  execMsec : Int
  interval : Int
  round : Nat
  removed : Bool
  /-- `0` is `nullptr` -/
  heapNode : Nat

/-- which function `set` is: the one of `init_reactor` or `SystemTimer_set` -/
inductive TimerMode where
  | reactor
  | system
deriving Repr

/-- `class Timer` with the memory its nodes live in; `alarm` is when `setitimer` will raise `SIGALRM` -/
structure Timer where
  heap : Heap
  map : Int → Option Nat
  tnodes : Nat → TimerNode
  live : Nat → Bool
  fresh : Nat
  round : Nat
  nextId : Int
  currentId : Int
  nextMsec : Int
  mode : TimerMode
  timeoutMsec : Int
  alarm : Option Int

namespace Timer

def new (mode : TimerMode) : Timer :=
  { heap := Heap.new 1024 .minHeap, map := fun _ => none, tnodes := fun _ => ⟨0, 0, 0, 0, false, 0⟩,
    live := fun _ => false, fresh := 1, round := 0, nextId := 1, currentId := -1, nextMsec := -1,
    mode := mode, timeoutMsec := -1, alarm := none }

/-- `setitimer` at the time `clock`: it refuses negative seconds, and the interval `0` disarms -/
def setitimer (alarm : Option Int) (clock sec msec : Int) : Option Int :=
  if sec < 0 then alarm
  else if sec = 0 ∧ msec = 0 then none
  else some (clock + sec * 1000 + msec)

/-- `SystemTimer_set`; `sec` and `msec` are `int`s -/
def systemTimerSet (alarm : Option Int) (clock nextMsec : Int) : Option Int :=
  if nextMsec > 0 then setitimer alarm clock (int32 (nextMsec / 1000)) (int32 (nextMsec % 1000))
  else none

/-- `set`, called at the time `clock` -/
def set (t : Timer) (clock execMsec : Int) : Timer :=
  match t.mode with
  | .reactor => { t with timeoutMsec := execMsec }
  | .system => { t with alarm := systemTimerSet t.alarm clock execMsec }

def arm (t : Timer) (now msec : Int) : Timer :=
  if t.nextMsec < 0 ∨ t.nextMsec > msec then { t.set now msec with nextMsec := msec } else t

/-- `tnode->id = _next_id++`, which starts again after an overflow -/
def takeId (t : Timer) : Int × Timer :=
  if t.nextId < 0 then (1, { t with nextId := 2 })
  else (t.nextId, { t with nextId := int64 (t.nextId + 1) })

/-- `map.emplace` keeps what is there -/
def emplace (map : Int → Option Nat) (id : Int) (tnode : Nat) : Int → Option Nat :=
  if map id = none then update map id (some tnode) else map

section
variable (t : Timer)

def insert (tnode : TimerNode) : Timer :=
  { t with
    map := emplace t.map tnode.id t.fresh, tnodes := update t.tnodes t.fresh tnode,
    live := update t.live t.fresh true, fresh := t.fresh + 1 }

/-- `room` is the answer of `osw_realloc` in `Heap::push` -/
def add (now msec : Int) (persistent room : Bool) : Option Nat × Timer :=
  if msec ≤ 0 then (none, t)
  else if now < 0 then (none, t)
  else
    let execMsec := int64 (now + msec)
    let (id, t) := (t.arm now msec).takeId
    match t.heap.push (uint64 execMsec) t.fresh room with
    | (none, _) => (none, t)
    | (some heapNode, heap) =>
      (some t.fresh, { t with heap := heap }.insert
          { id := id, execMsec := execMsec, interval := if persistent then msec else 0,
            round := t.round, removed := false, heapNode := heapNode })

def get (id : Int) : Option Nat := t.map id

/-- erase from the map, take out of the heap, `delete` -/
def erase (tnode : Nat) : Timer :=
  { t with
    map := update t.map (t.tnodes tnode).id none,
    heap := if (t.tnodes tnode).heapNode ≠ 0 then t.heap.remove (t.tnodes tnode).heapNode else t.heap,
    live := update t.live tnode false }

def markRemoved (tnode : Nat) : Timer :=
  { t with tnodes := update t.tnodes tnode { t.tnodes tnode with removed := true } }

/-- the node whose callback is running is only marked -/
def remove : Option Nat → Bool × Timer
  | none => (false, t)
  | some tnode =>
    if (t.tnodes tnode).removed then (false, t)
    else if t.currentId > 0 ∧ (t.tnodes tnode).id = t.currentId then (true, t.markRemoved tnode)
    else if t.map (t.tnodes tnode).id = none then (false, t)
    else (true, t.erase tnode)

def setExec (tnode : Nat) (execMsec : Int) : Timer :=
  { t with tnodes := update t.tnodes tnode { t.tnodes tnode with execMsec := execMsec } }

def update (tnode : Nat) : Timer :=
  { t with
    heap := t.heap.changePriority (uint64 (t.tnodes tnode).execMsec) (t.tnodes tnode).heapNode }

def delay (now : Int) (tnode : Nat) (delayMs : Int) : Timer :=
  (t.setExec tnode (int64 ((if now < 0 then (t.tnodes tnode).execMsec else now) + delayMs))).update tnode

/-! ## the parts of `select` -/

/-- the head of the loop: the heap node and the timer node to run, or leave the loop -/
def selectTop (now : Int) : Option (Nat × Nat) :=
  match t.heap.top with
  | none => none
  | some tmp =>
    let tnode := (t.heap.mem tmp).data
    if (t.tnodes tnode).execMsec > now ∨ (t.tnodes tnode).round = t.round then none
    else some (tmp, tnode)

end

/-- `while (exec_msec <= now_msec) exec_msec += interval`; `none` when the fuel runs out -/
def catchUp (now interval : Int) : Nat → Int → Option Int
  | 0, _ => none
  | n + 1, execMsec =>
    if execMsec ≤ now then catchUp now interval n (int64 (execMsec + interval)) else some execMsec

/-- `heap.pop(); map.erase(tnode->id); delete tnode` -/
def popNode (t : Timer) (tnode : Nat) : Timer :=
  { t with
    heap := t.heap.pop.2, map := Function.update t.map (t.tnodes tnode).id none,
    live := Function.update t.live tnode false }

/-- the persistent node goes back into the heap with its next deadline -/
def rearm (t : Timer) (tmp tnode : Nat) (execMsec : Int) : Timer :=
  { t.setExec tnode execMsec with heap := t.heap.changePriority (uint64 execMsec) tmp }

/-- what follows a callback; after `2^64` rounds of `catchUp` the deadline has come back, and the loop never ends
-/
def afterCallback (t : Timer) (now : Int) (tmp tnode : Nat) : Option Timer :=
  let t := { t with currentId := -1 }
  if (t.tnodes tnode).interval > 0 ∧ (t.tnodes tnode).removed = false then
    (catchUp now (t.tnodes tnode).interval (2^64) (t.tnodes tnode).execMsec).map (t.rearm tmp tnode)
  else some (t.popNode tnode)

/-- what follows the loop, at the time `clock` -/
def selectEnd (t : Timer) (now clock : Int) : Timer :=
  let nextMsec :=
    match t.heap.top with
    | none => -1
    | some tmp =>
      let nextMsec := int64 ((t.tnodes (t.heap.mem tmp).data).execMsec - now)
      if nextMsec ≤ 0 then 1 else nextMsec
  { t.set clock nextMsec with nextMsec := nextMsec, round := (t.round + 1) % 2^64 }

/-! ## the machine -/

/-- what a user may call, from outside and from a callback -/
inductive Call where
  | add (now msec : Int) (persistent room : Bool)
  | remove (id : Int)
  | delay (now id delayMs : Int)
  | update (id : Int)
deriving Repr

inductive Event where
  | registered (tnode : Nat) (now msec : Int)
  | removed (tnode : Nat)
  | ran (tnode : Nat) (now : Int)
deriving DecidableEq

/-- the locals of `select` while a callback runs; a node marked as removed is not called -/
structure Frame where
  now : Int
  tmp : Nat
  tnode : Nat
  called : Bool
deriving DecidableEq

structure Loop where
  timer : Timer
  frame : Option Frame
  events : List Event

inductive Act where
  | call (c : Call)
  | select (now : Int)
  | ret (clock : Int)

namespace Loop

def start (mode : TimerMode) : Loop := ⟨new mode, none, []⟩

def inUser (s : Loop) : Prop := ∀ f, s.frame = some f → f.called = true

instance (s : Loop) : Decidable s.inUser := inferInstanceAs (Decidable (∀ _, _))

section
variable (s : Loop)

def add (now msec : Int) (persistent room : Bool) : Loop :=
  match s.timer.add now msec persistent room with
  | (none, t) => { s with timer := t }
  | (some tnode, t) => { s with timer := t, events := s.events ++ [.registered tnode now msec] }

def remove (id : Int) : Loop :=
  match s.timer.get id with
  | none => s
  | some tnode =>
    match s.timer.remove (some tnode) with
    | (false, t) => { s with timer := t }
    | (true, t) => { s with timer := t, events := s.events ++ [.removed tnode] }

def delay (now id delayMs : Int) : Loop :=
  match s.timer.get id with
  | none => s
  | some tnode => { s with timer := s.timer.delay now tnode delayMs }

def update (id : Int) : Loop :=
  match s.timer.get id with
  | none => s
  | some tnode => { s with timer := s.timer.update tnode }

def call : Call → Loop
  | .add now msec persistent room => s.add now msec persistent room
  | .remove id => s.remove id
  | .delay now id delayMs => s.delay now id delayMs
  | .update id => s.update id

/-- the callback of the node starts, unless the node is marked -/
def enter (now : Int) (tmp tnode : Nat) : Loop :=
  let called := !(s.timer.tnodes tnode).removed
  { timer := { s.timer with currentId := (s.timer.tnodes tnode).id },
    frame := some ⟨now, tmp, tnode, called⟩,
    events := if called then s.events ++ [.ran tnode now] else s.events }

/-- from the head of the loop to the next callback or out of `select` -/
def head (now clock : Int) : Loop :=
  match s.timer.selectTop now with
  | none => { s with timer := s.timer.selectEnd now clock, frame := none }
  | some (tmp, tnode) => s.enter now tmp tnode

end

/-- a call of user code, a call of `select` while idle, the return of the running callback -/
def step : Act → Loop → Option Loop
  | .call c, s => if s.inUser then some (s.call c) else none
  | .select now, s =>
    match s.frame with
    | none => some (if now < 0 then s else s.head now now)
    | some _ => none
  | .ret clock, s =>
    match s.frame with
    | none => none
    | some f =>
      (s.timer.afterCallback f.now f.tmp f.tnode).map fun t => { s with timer := t }.head f.now clock

/-- what one callback does: its calls, and the time at which it returns -/
structure Callback where
  calls : List Call
  clock : Int

def Callback.acts (c : Callback) : List Act := c.calls.map .call ++ [.ret c.clock]

/-- the callbacks of a `select`, in the order in which they run; `none` when there is one more -/
def callbacks : List Callback → Loop → Option Loop
  | [], s => if s.frame = none then some s else none
  | c :: cs, s =>
    if s.frame = none then some s
    else (Machine.iter step c.acts s).bind (callbacks cs)

/-- **one call of `select`** -/
def select (s : Loop) (now : Int) (cs : List Callback) : Option Loop :=
  (step (.select now) s).bind (callbacks cs)

end Loop

end Timer

end OSW.Core
