import Mathlib.Tactic.Common

/-!
# Registration of a socket

`ReactorEpoll::add`, `set` and `del` of `src/reactor/epoll.cc` and `Reactor::add_write_event` of
`include/openswoole_reactor.h`.  The field `interest` is the kernel's: what `epoll_ctl` has registered for the
descriptor.  `EPOLL_CTL_ADD` fails for a descriptor that is registered and `EPOLL_CTL_MOD` for one that is not;
other errors of `epoll_ctl` are left out.

* `Registration.add`, `set`, `del`, `addWriteEvent`   the code, with whether it returns `OSW_OK`;
* `Consistent`   the fields of the socket say what the kernel has: it is `gone`, or `on` with some events.
-/

namespace OSW

/-- the bits `OSW_EVENT_READ` and `OSW_EVENT_WRITE` -/
structure Events where
  read : Bool
  write : Bool

/-- `events` and `removed` of a socket, and what the kernel watches its descriptor for -/
structure Registration where
  events : Events
  removed : Bool
  interest : Option Events

namespace Registration

def gone : Registration := ⟨⟨false, false⟩, true, none⟩

def on (events : Events) : Registration := ⟨events, false, some events⟩

section
variable (r : Registration)

def add (events : Events) : Bool × Registration :=
  if r.interest.isSome then (false, r) else (true, on events)

def set (events : Events) : Bool × Registration :=
  if r.interest.isSome then (true, { r with events := events, interest := some events }) else (false, r)

/-- a descriptor that the kernel does not know is `ENOENT`, which is taken for success -/
def del : Bool × Registration := if r.removed then (false, r) else (true, gone)

def addWriteEvent : Bool × Registration :=
  if r.events.read then
    { r with events := { r.events with write := true } }.set { r.events with write := true }
  else r.add ⟨false, true⟩

def reading : Bool := r.interest.any Events.read

inductive Consistent : Registration → Prop
  | gone : Consistent gone
  | on (events : Events) (h : events.read = true ∨ events.write = true) : Consistent (on events)

@[simp] lemma removed_on (e : Events) : (on e).removed = false := rfl

/-- what `send_to_connection` does at its end: a write event, unless there is one -/
def wantWrite : Registration := if r.events.write then r else r.addWriteEvent.2

end

lemma wantWrite_on {e : Events} (h : e.read = true ∨ e.write = true) : (on e).wantWrite = on ⟨e.read, true⟩ := by
  obtain ⟨read, write⟩ := e
  cases write with
  | true => rfl
  | false =>
    obtain rfl : read = true := h.resolve_right Bool.false_ne_true
    rfl

lemma Consistent.wantWrite {r : Registration} (h : r.Consistent) :
    r.wantWrite.Consistent ∧ r.wantWrite.reading = r.reading ∧ r.wantWrite.removed = false := by
  cases h with
  | gone => exact ⟨.on _ (.inr rfl), rfl, rfl⟩
  | on e he =>
    rw [wantWrite_on he]
    exact ⟨.on _ (.inr rfl), rfl, rfl⟩

lemma Consistent.eq_on {r : Registration} (h : r.Consistent) (hr : r.removed = false) :
    ∃ e : Events, r = .on e ∧ (e.read = true ∨ e.write = true) := by
  cases h with
  | gone => cases hr
  | on e he => exact ⟨e, rfl, he⟩

end Registration

end OSW
