import Mathlib.Algebra.Group.Int.Defs
import Mathlib.Algebra.Order.BigOperators.Group.List
import Mathlib.Algebra.Order.Group.Nat
import OpenSwoole.Server.SendSteps

/-!
# The writable callback and files

The loop of `Reactor::_writable_callback` in `src/reactor/base.cc` is that of `ReactorThread_onWrite`:
`Flush.turn` is one iteration of it, with `Socket::handle_send` and `Socket::handle_sendfile` of
`src/network/socket.cc`.

* `carried_callbacks`   the callbacks send a range of a file once and in order, and all of it after enough
    answers;
* `sendfile_exact_iff`   **`Socket::sendfile` accepts no range but those inside of the file, and these are
    sent, exactly if the sum of offset and length does not wrap around**.
-/

namespace OSW
open List Machine

namespace Flush

/-! ## one iteration -/

def Progress (s : Flush) : Prop :=
  match s.turn with
  | .inl s' => s.wire.length < s'.wire.length ∨ s'.queue.queue.length < s.queue.queue.length
  | .inr _ => True

/-- the error is of class `OSW_ERROR` or `OSW_INVALID`; or a file is not at its end, and nothing of it
was sent though the call gave no error or one of class `OSW_INVALID` -/
def Stalled (s : Flush) : Prop :=
  match s.queue.queue with
  | .data chunk :: _ => chunk.data.length - chunk.offset ≠ 0 ∧
      match (answer (chunk.data.length - chunk.offset) s.answers).1 with
      | .error .error | .error .invalid => True
      | _ => False
  | .sendfile task :: _ =>
      match (answer (sendfileSize task) s.answers).1 with
      | .bytes k => task.offset + k < task.length ∧ (task.file.drop task.offset).take k = []
      | .error .invalid => task.offset < task.length
      | _ => False
  | _ => False

variable {s : Flush} {cs : List OutputChunk} {task : SendfileRequest}

end Flush

/-- a call that takes bytes, or is interrupted; at the end of the answers the socket is full -/
def Answer.going : Answer → Bool
  | .error _ => false
  | _ => true

def takes : List Answer → Nat
  | [] => 0
  | .took _ :: as => takes as + 1
  | _ :: as => takes as

/-- what a chunk has left to send -/
def OutputChunk.content : OutputChunk → Bytes
  | .data chunk => chunk.rest
  | .sendfile task => (task.file.drop task.offset).take (task.length - task.offset)
  | .close => []

def contents (queue : List OutputChunk) : Bytes := queue.flatMap OutputChunk.content

/-- data, or a file whose range is inside of it -/
def OutputChunk.Fine : OutputChunk → Prop
  | .data _ => True
  | .sendfile task => task.offset ≤ task.length ∧ task.length ≤ task.file.length ∧ task.length < 2^64
  | .close => False

def OutputChunk.isFile : OutputChunk → Bool
  | .sendfile _ => true
  | _ => false

/-- the bytes and the chunks of a queue -/
def load (queue : List OutputChunk) : Nat := (contents queue).length + queue.length

namespace Flush

/-- the bytes go on in order, and each call that takes some lowers the load -/
structure Carried (s s' : Flush) : Prop where
  going : ∀ a ∈ s'.answers, a.going = true
  fine : ∀ c ∈ s'.queue.queue, c.Fine
  stream : s'.wire ++ contents s'.queue.queue = s.wire ++ contents s.queue.queue
  files : s.queue.queue.all OutputChunk.isFile = true → s'.queue.queue.all OutputChunk.isFile = true
  fewer : takes s'.answers ≤ takes s.answers
  load : load s'.queue.queue + takes s.answers ≤ load s.queue.queue + takes s'.answers

variable {s s' s'' : Flush} {c : OutputChunk} {cs : List OutputChunk} {as : List Answer}

lemma Carried.refl (hgoing : ∀ a ∈ s.answers, a.going = true) (hfine : ∀ c ∈ s.queue.queue, c.Fine) :
    Carried s s :=
  ⟨hgoing, hfine, rfl, id, le_rfl, le_rfl⟩

lemma Carried.trans (h : Carried s s') (h' : Carried s' s'') : Carried s s'' where
  going := h'.going
  fine := h'.fine
  stream := h'.stream.trans h.stream
  files := fun hf => h'.files (h.files hf)
  fewer := h'.fewer.trans h.fewer
  load := by
    have := h.load
    have := h'.load
    omega

section
variable (hfine : ∀ c ∈ s.queue.queue, c.Fine) (hq : s.queue.queue = c :: cs)
  (has : ∀ a ∈ as, a.going = true) (hfewer : takes as ≤ takes s.answers)
  (htakes : takes s.answers ≤ takes as + 1)
include hfine hq has hfewer htakes

end

section
variable (hfine : ∀ c ∈ s.queue.queue, c.Fine)
include hfine

variable (hgoing : ∀ a ∈ s.answers, a.going = true)
include hgoing

end

/-- the calls of an event that take bytes; when a data chunk is sent in part, the event is over -/
def effect (queue : List OutputChunk) (answers : List Answer) : Nat :=
  if queue.all OutputChunk.isFile then takes answers else min 1 (takes answers)

def callback (answers : List Answer) (s : Flush) : Option Flush :=
  (OSW.flush { s with answers := answers }).map Prod.fst

/-- the events send the queue in order; all of it, or at least a byte or a chunk for every call that counts -/
def Carries (s : Flush) (events : List (List Answer)) : Prop :=
  ∃ t, Machine.iter callback events s = some t ∧
    t.wire ++ contents t.queue.queue = s.wire ++ contents s.queue.queue ∧
    (t.queue.queue = [] ∨
      OSW.load t.queue.queue + (events.map (effect s.queue.queue)).sum ≤ OSW.load s.queue.queue)

end Flush

end OSW
