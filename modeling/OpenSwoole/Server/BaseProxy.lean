import Mathlib.Data.List.Range
import OpenSwoole.Core.Integers
import OpenSwoole.Lib.Keyed
import OpenSwoole.Server.PipeMessage

/-!
# Proxied responses in BASE mode

In BASE mode a worker that answers a session of another worker sends the data through the pipe of that worker,
the owner: `BaseFactory::finish` of `src/server/base.cc` cuts it into messages, and `ReactorProcess_onPipeRead`
of `src/server/reactor_process.cc` puts them together in `output_buffer`, by the number of the sender.  A sender
whose pipe is full keeps messages in a buffer of its own.  It may die at any time, and its successor has the same
number.

`passed` and `reported` are records: what the workers have passed on, and the responses whose `finish` has
returned true.
-/

namespace OSW
open Function Keyed Machine Option

/-- a message with its header; `isEnd` is `PROXY_END` -/
structure ProxyMessage where
  fd : Nat
  reactorId : Int
  isEnd : Bool
  data : Bytes
  deriving DecidableEq

structure ProxyResponse where
  owner : Nat
  sender : Nat
  session : Nat
  payload : Bytes

/-- from whom to whom -/
def ProxyResponse.lane (r : ProxyResponse) : Nat × Nat := (r.owner, r.sender)

/-- `BaseFactory::finish` under way: `offset` bytes are sent -/
structure Proxying where
  owner : Nat
  session : Nat
  payload : Bytes
  offset : Nat

/-- the worker that `session->reactor_id` names; the field has eight bits -/
def Proxying.worker (p : Proxying) : Nat := p.owner % 2^8

/-- the next message of the loop; `reactor_id` of the header is an `int16_t` -/
def Proxying.message (p : Proxying) (sender : Nat) : ProxyMessage :=
  let sendN := p.payload.length - p.offset
  let len := if sendN > ipcBufferSize then ipcBufferSize else sendN
  ⟨p.session, toSigned 16 sender, !decide (sendN > ipcBufferSize), (p.payload.drop p.offset).take len⟩

structure ProxyRun where
  busy : Nat → Option Proxying
  /-- the messages in the memory of a sender -/
  queue : Nat × Nat → List ProxyMessage
  /-- the messages in the pipe of a worker -/
  pipe : Nat → List ProxyMessage
  /-- `OpenSwooleWG.output_buffer` of a worker -/
  outputBuffer : Nat × Nat → Bytes
  passed : List ProxyResponse
  reported : List ProxyResponse

inductive ProxyEvent where
  | respond (sender owner session : Nat) (payload : Bytes)
  /-- one `send_async`; `ok` tells that it does not fail -/
  | send (sender : Nat) (ok : Bool)
  /-- the kernel takes a message of the sender -/
  | flush (worker sender : Nat)
  | read (worker : Nat)
  /-- a worker dies and is restarted -/
  | die (worker : Nat)

/-- what happens without the code that sends responses -/
def ProxyEvent.Transport : ProxyEvent → Prop
  | .flush .. | .read _ => True
  | _ => False

namespace ProxyRun

def start : ProxyRun := ⟨fun _ => none, fun _ => [], fun _ => [], fun _ => [], [], []⟩

/-- a message is sent; behind the last one `finish` returns true -/
def sent (s : ProxyRun) (i : Nat) (p : Proxying) : ProxyRun :=
  let message := p.message i
  let queue := update s.queue (p.worker, i) (s.queue (p.worker, i) ++ [message])
  if message.isEnd then
    { s with
      queue, busy := update s.busy i none, reported := s.reported ++ [⟨p.owner, i, p.session, p.payload⟩] }
  else { s with queue, busy := update s.busy i (some { p with offset := p.offset + ipcBufferSize }) }

/-- a send of a sender that is in `finish` -/
def send (s : ProxyRun) (i : Nat) (ok : Bool) : Option ProxyRun :=
  match s.busy i with
  | some p => if ok then some (s.sent i p) else some { s with busy := update s.busy i none }
  | none => none

def flush (s : ProxyRun) (o i : Nat) : Option ProxyRun :=
  match s.queue (o, i) with
  | message :: rest =>
    some { s with queue := update s.queue (o, i) rest, pipe := update s.pipe o (s.pipe o ++ [message]) }
  | [] => none

/-- `ReactorProcess_onPipeRead` of the worker `o` for `PROXY_START` and `PROXY_END` -/
def onPipeRead (allWorkerNum : Nat) (s : ProxyRun) (o : Nat) (message : ProxyMessage) : ProxyRun :=
  if message.reactorId < 0 ∨ toSigned 16 allWorkerNum ≤ message.reactorId then s
  else
    let i := message.reactorId.toNat
    let outputBuffer := s.outputBuffer (o, i) ++ message.data
    if message.isEnd then
      { s with
        passed := s.passed ++ [⟨o, i, message.fd, outputBuffer⟩]
        outputBuffer := update s.outputBuffer (o, i) [] }
    else { s with outputBuffer := update s.outputBuffer (o, i) outputBuffer }

def read (allWorkerNum : Nat) (s : ProxyRun) (o : Nat) : Option ProxyRun :=
  match s.pipe o with
  | message :: rest => some ({ s with pipe := update s.pipe o rest }.onPipeRead allWorkerNum o message)
  | [] => none

def die (s : ProxyRun) (w : Nat) : ProxyRun :=
  { s with
    busy := update s.busy w none
    queue := fun k => if k.2 = w then [] else s.queue k
    outputBuffer := fun k => if k.1 = w then [] else s.outputBuffer k }

def step (allWorkerNum : Nat) : ProxyEvent → ProxyRun → Option ProxyRun
  | .respond i o session payload, s =>
    if i < allWorkerNum ∧ o < allWorkerNum ∧ payload ≠ [] ∧ o % 2^8 ≠ i ∧ (s.busy i).isNone then
      some { s with busy := update s.busy i (some ⟨o, session, payload, 0⟩) }
    else none
  | .send i ok, s => s.send i ok
  | .flush o i, s => s.flush o i
  | .read o, s => s.read allWorkerNum o
  | .die w, s => if w < allWorkerNum then some (s.die w) else none

/-- nothing of a response of the sender is sent yet -/
def AtStart (s : ProxyRun) (i : Nat) : Prop := ∀ p ∈ s.busy i, p.offset = 0

/-- a worker that dies holds no message -/
def Idle (allWorkerNum : Nat) (s : ProxyRun) (w : Nat) : Prop :=
  ∀ k < allWorkerNum, s.queue (k, w) = [] ∧ s.outputBuffer (w, k) = []

def Drained (allWorkerNum : Nat) (s : ProxyRun) (o : Nat) : Prop :=
  s.pipe o = [] ∧ ∀ i < allWorkerNum, s.queue (o, i) = []

/-- a send fails, or a worker dies, only where nothing of a response is under way -/
def Careful (allWorkerNum : Nat) : ProxyEvent → ProxyRun → Prop
  | .send i false, s => s.AtStart i
  | .die w, s => s.AtStart w ∧ s.Idle allWorkerNum w
  | _, _ => True

end ProxyRun

/-! ## one sender and one owner -/

/-- what a worker makes of messages, with a buffer that holds something: what it passes on, and what is left in
the buffer -/
def decode : List ProxyMessage → Bytes → List (Nat × Bytes) × Bytes
  | [], buffer => ([], buffer)
  | message :: rest, buffer =>
    if message.isEnd then ((message.fd, buffer ++ message.data) :: (decode rest []).1, (decode rest []).2)
    else decode rest (buffer ++ message.data)

lemma decode_append (a b : List ProxyMessage) (buffer : Bytes) : decode (a ++ b) buffer =
      ((decode a buffer).1 ++ (decode b (decode a buffer).2).1, (decode b (decode a buffer).2).2) := by
  induction a generalizing buffer with
  | nil => rfl
  | cons message a ih =>
    rw [List.cons_append, decode, decode]
    split
    · rw [ih]
      rfl
    · rw [ih]

/-- what there is of a sender at an owner: messages, buffer, the response under way, and the records -/
@[ext]
structure Lane where
  pipe : List ProxyMessage
  queue : List ProxyMessage
  buffer : Bytes
  busy : Option Proxying
  passed : List ProxyResponse
  reported : List ProxyResponse

def part : Option Proxying → Bytes
  | some p => p.payload.take p.offset
  | none => []

namespace Lane

def coming (l : Lane) : List (Nat × Bytes) × Bytes := decode (l.pipe ++ l.queue) l.buffer

/-- what was reported is passed on, or on its way; what is left is the beginning of the response under way -/
structure Sound (k : Nat × Nat) (l : Lane) : Prop where
  queue : ∀ m ∈ l.queue, m.reactorId = k.2
  offset : ∀ p ∈ l.busy, p.offset < p.payload.length
  rest : l.coming.2 = part l.busy
  passed : l.passed ++ l.coming.1.map (fun r => ⟨k.1, k.2, r.1, r.2⟩) = l.reported

variable {k : Nat × Nat} {l : Lane}

lemma Sound.begin (h : l.Sound k) (hbusy : l.busy = none) {owner session : Nat} {payload : Bytes}
    (hpayload : payload ≠ []) : Sound k { l with busy := some ⟨owner, session, payload, 0⟩ } := by
  refine ⟨h.queue, ?_, ?_, h.passed⟩
  · intro p hp
    cases hp
    exact List.length_pos_of_ne_nil hpayload
  · have hrest := h.rest
    rw [hbusy] at hrest
    exact hrest

lemma Sound.abort (h : l.Sound k) (hstart : ∀ p ∈ l.busy, p.offset = 0) : Sound k { l with busy := none } := by
  refine ⟨h.queue, fun p hp => absurd hp.symm (some_ne_none _), h.rest.trans ?_, h.passed⟩
  cases hbusy : l.busy with
  | none => rfl
  | some p =>
    show p.payload.take p.offset = []
    rw [hstart p hbusy, List.take_zero]

lemma coming_snoc (l : Lane) (m : ProxyMessage) (busy : Option Proxying) (reported : List ProxyResponse) :
    coming { l with queue := l.queue ++ [m], busy, reported } =
      (l.coming.1 ++ (decode [m] l.coming.2).1, (decode [m] l.coming.2).2) := by
  unfold coming
  rw [← List.append_assoc, decode_append]

lemma Sound.queue_snoc (h : l.Sound k) (hk : k.2 < 2^15) (p : Proxying) :
    ∀ m ∈ l.queue ++ [p.message k.2], m.reactorId = k.2 := by
  intro m hm
  rcases List.mem_append.1 hm with hm | hm
  · exact h.queue m hm
  · rw [List.mem_singleton.1 hm]
    exact toSigned_of_lt hk

variable {p : Proxying} {m : ProxyMessage} {rest : List ProxyMessage}

variable (h : l.Sound k)
include h

lemma Sound.more (hk : k.2 < 2^15) (hbusy : l.busy = some p)
    (hmore : p.payload.length - p.offset > ipcBufferSize) :
    (p.message k.2).isEnd = false ∧ Sound k { l with
        queue := l.queue ++ [p.message k.2], busy := some { p with offset := p.offset + ipcBufferSize } } := by
  have hmessage : p.message k.2 =
    ⟨p.session, toSigned 16 k.2, false, (p.payload.drop p.offset).take ipcBufferSize⟩ := by
    unfold Proxying.message
    simp only [if_pos hmore, decide_eq_true hmore, Bool.not_true]
  have hrest := h.rest
  rw [hbusy] at hrest
  have hdecode : decode [p.message k.2] l.coming.2 = ([], p.payload.take (p.offset + ipcBufferSize)) := by
    rw [hmessage, hrest, List.take_add]
    rfl
  refine ⟨by rw [hmessage], h.queue_snoc hk p, ?_, ?_, ?_⟩
  · intro q hq
    cases hq
    show p.offset + ipcBufferSize < p.payload.length
    omega
  · rw [coming_snoc, hdecode]
    rfl
  · rw [coming_snoc, hdecode, List.append_nil]
    exact h.passed

lemma Sound.last (hk : k.2 < 2^15) (hbusy : l.busy = some p)
    (hlast : ¬ p.payload.length - p.offset > ipcBufferSize) :
    (p.message k.2).isEnd = true ∧ Sound k { l with
        queue := l.queue ++ [p.message k.2], busy := none, reported := l.reported ++
          [⟨k.1, k.2, p.session, p.payload⟩] } := by
  have hmessage : p.message k.2 = ⟨p.session, toSigned 16 k.2, true, p.payload.drop p.offset⟩ := by
    unfold Proxying.message
    simp only [if_neg hlast, decide_eq_false hlast, Bool.not_false]
    rw [List.take_of_length_le (le_of_eq List.length_drop)]
  have hrest := h.rest
  rw [hbusy] at hrest
  have hdecode : decode [p.message k.2] l.coming.2 = ([(p.session, p.payload)], []) := by
    rw [hmessage, hrest]
    show ([(p.session, p.payload.take p.offset ++ p.payload.drop p.offset)], []) = _
    rw [List.take_append_drop]
  refine ⟨by rw [hmessage], h.queue_snoc hk p, fun q hq => absurd hq.symm (some_ne_none _), ?_, ?_⟩
  · rw [coming_snoc, hdecode]
    rfl
  · rw [coming_snoc, hdecode, List.map_append, ← List.append_assoc, ← h.passed]
    rfl

lemma Sound.flush (hqueue : l.queue = m :: rest) :
    m.reactorId = k.2 ∧ Sound k { l with pipe := l.pipe ++ [m], queue := rest } := by
  have hcoming : coming { l with pipe := l.pipe ++ [m], queue := rest } = l.coming := by
    unfold coming
    rw [hqueue, List.append_assoc]
    rfl
  refine ⟨h.queue m (hqueue ▸ List.mem_cons_self), ?_, h.offset, ?_, ?_⟩
  · exact fun m' hm' => h.queue m' (hqueue ▸ List.mem_cons_of_mem _ hm')
  · rw [hcoming]
    exact h.rest
  · rw [hcoming]
    exact h.passed

lemma Sound.readMore (hpipe : l.pipe = m :: rest) (hend : m.isEnd = false) :
    Sound k { l with pipe := rest, buffer := l.buffer ++ m.data } := by
  have hcoming : coming { l with pipe := rest, buffer := l.buffer ++ m.data } = l.coming := by
    unfold coming
    rw [hpipe, List.cons_append, decode, if_neg (ne_true_of_eq_false hend)]
  refine ⟨h.queue, h.offset, ?_, ?_⟩
  · rw [hcoming]
    exact h.rest
  · rw [hcoming]
    exact h.passed

lemma Sound.readLast (hpipe : l.pipe = m :: rest) (hend : m.isEnd = true) :
    Sound k { l with pipe := rest, buffer := [], passed := l.passed ++
      [⟨k.1, k.2, m.fd, l.buffer ++ m.data⟩] } := by
  have hcoming : l.coming =
      ((m.fd, l.buffer ++ m.data) :: (decode (rest ++ l.queue) []).1, (decode (rest ++ l.queue) []).2) := by
    unfold coming
    rw [hpipe, List.cons_append, decode, if_pos hend]
  have hrest := h.rest
  have hpassed := h.passed
  rw [hcoming] at hrest hpassed
  refine ⟨h.queue, h.offset, hrest, ?_⟩
  rw [← hpassed]
  rw [List.append_assoc]
  rfl

end Lane

/-! ## all of them -/

namespace ProxyRun

def lane (s : ProxyRun) (k : Nat × Nat) : Lane where
  pipe := own ProxyMessage.reactorId (k.2 : Int) (s.pipe k.1)
  queue := s.queue k
  buffer := s.outputBuffer k
  busy := (s.busy k.2).filter fun p => p.worker = k.1
  passed := own ProxyResponse.lane k s.passed
  reported := own ProxyResponse.lane k s.reported

/-- every lane is sound, and there are no others than those of the workers -/
structure Sound (allWorkerNum : Nat) (s : ProxyRun) : Prop where
  lanes : ∀ k, (s.lane k).Sound k
  busy : ∀ i, ∀ p ∈ s.busy i, i < allWorkerNum ∧ p.owner < allWorkerNum
  queue : ∀ k, s.queue k ≠ [] → k.1 < allWorkerNum ∧ k.2 < allWorkerNum
  pipe : ∀ o, ∀ m ∈ s.pipe o, ∃ i < allWorkerNum, m.reactorId = (i : Int)
  buffer : ∀ k, s.outputBuffer k ≠ [] → k.2 < allWorkerNum

variable {allWorkerNum o i : Nat} {s s' : ProxyRun} {p : Proxying}

variable {k : Nat × Nat} {busy : Option Proxying} {message : ProxyMessage} {e : ProxyEvent} {t : ProxyRun}

lemma lanes_of {l : Lane} (hs : ∀ k, (s.lane k).Sound k) (hl : l.Sound k) (hself : s'.lane k = l)
    (hne : ∀ k', k' ≠ k → s'.lane k' = s.lane k') : ∀ k, (s'.lane k).Sound k := by
  intro k'
  by_cases hk : k' = k
  · rw [hk, hself]
    exact hl
  · rw [hne k' hk]
    exact hs k'

lemma lane_busy (h : s.busy i = some p) : (s.lane (p.worker, i)).busy = some p := by
  show (s.busy i).filter _ = some p
  rw [h, filter_some, if_pos (decide_eq_true rfl)]

lemma lane_update_busy (w : Nat) (hk : k ≠ (w, i)) (hold : ∀ p ∈ s.busy i, p.worker = w)
    (hnew : ∀ p ∈ busy, p.worker = w) :
    (update s.busy i busy k.2).filter (fun p => p.worker = k.1) =
      (s.busy k.2).filter (fun p => p.worker = k.1) := by
  by_cases hi : k.2 = i
  · have hw : k.1 ≠ w := fun hw => hk (Prod.ext hw hi)
    have hnone : ∀ b : Option Proxying, (∀ p ∈ b, p.worker = w) → b.filter (fun p => p.worker = k.1) = none := by
      intro b hb
      rw [filter_eq_none_iff]
      intro p hp
      rw [decide_eq_true_iff, hb p hp]
      exact hw.symm
    rw [hi, update_self, hnone busy hnew, hnone _ hold]
  · rw [update_of_ne hi]

lemma filter_worker {w : Nat} (h : ∀ p ∈ busy, p.worker = w) :
    busy.filter (fun p => p.worker = w) = busy := by
  cases busy with
  | none => rfl
  | some p => rw [filter_some, if_pos (decide_eq_true (h p rfl))]

section
variable (hs : s.Sound allWorkerNum)
include hs

lemma Sound.put (w : Nat) (busy : Option Proxying) (messages : List ProxyMessage) (more : List ProxyResponse)
    (hold : ∀ p ∈ s.busy i, p.worker = w) (hnew : ∀ p ∈ busy, p.worker = w)
    (hbound : ∀ p ∈ busy, i < allWorkerNum ∧ p.owner < allWorkerNum)
    (hmessages : messages ≠ [] → w < allWorkerNum ∧ i < allWorkerNum) (hmore : ∀ r ∈ more, r.lane = (w, i))
    (hl : Lane.Sound (w, i)
      { s.lane (w, i) with
        queue := s.queue (w, i) ++ messages, busy, reported := own ProxyResponse.lane (w, i) s.reported ++
          more }) :
    Sound allWorkerNum { s with
      queue := update s.queue (w, i) (s.queue (w, i) ++ messages)
      busy := update s.busy i busy
      reported := s.reported ++ more } := by
  refine ⟨lanes_of hs.lanes hl ?_ ?_, ?_, ?_, hs.pipe, hs.buffer⟩
  · have hown : own ProxyResponse.lane (w, i) more = more :=
      List.filter_eq_self.2 fun r hr => decide_eq_true (hmore r hr)
    have hbusy : (update s.busy i busy i).filter (fun p => p.worker = w) = busy := by
      rw [update_self, filter_worker hnew]
    exact Lane.ext rfl (update_self ..) rfl hbusy rfl ((own_append ..).trans (congrArg _ hown))
  · intro k hk
    have hown : own ProxyResponse.lane k (s.reported ++ more) = own ProxyResponse.lane k s.reported := by
      rw [own_append, own_eq_nil (fun r hr => (hmore r hr).trans_ne hk.symm), List.append_nil]
    exact Lane.ext rfl (update_of_ne hk ..) rfl (lane_update_busy w hk hold hnew) rfl hown
  · exact (forall_update_iff s.busy fun j b => ∀ p ∈ b, j < allWorkerNum ∧ p.owner < allWorkerNum).2
      ⟨hbound, fun j _ => hs.busy j⟩
  · refine (forall_update_iff s.queue fun k q => q ≠ [] → k.1 < allWorkerNum ∧ k.2 < allWorkerNum).2
      ⟨fun hne => ?_, fun k _ => hs.queue k⟩
    by_cases hq : s.queue (w, i) = []
    · rw [hq, List.nil_append] at hne
      exact hmessages hne
    · exact hs.queue (w, i) hq

lemma Sound.setBusy (w : Nat) (busy : Option Proxying) (hold : ∀ p ∈ s.busy i, p.worker = w)
    (hnew : ∀ p ∈ busy, p.worker = w) (hbound : ∀ p ∈ busy, i < allWorkerNum ∧ p.owner < allWorkerNum)
    (hl : Lane.Sound (w, i) { s.lane (w, i) with busy }) :
    Sound allWorkerNum { s with busy := update s.busy i busy } := by
  have h := hs.put w busy [] [] hold hnew hbound (absurd rfl) (nofun) (by
    rw [List.append_nil, List.append_nil]
    exact hl)
  rw [List.append_nil, List.append_nil, update_eq_self] at h
  exact h

lemma Sound.abort (hstart : s.AtStart i) : Sound allWorkerNum { s with busy := update s.busy i none } := by
  cases hbusy : s.busy i with
  | none =>
    rw [← hbusy, update_eq_self]
    exact hs
  | some p =>
    have hlane := lane_busy hbusy
    refine hs.setBusy p.worker none ?_ (fun _ h => absurd h.symm (some_ne_none _))
      (fun _ h => absurd h.symm (some_ne_none _)) ((hs.lanes (p.worker, i)).abort ?_)
    · intro q hq
      rw [some.inj (hbusy.symm.trans hq)]
    · intro q hq
      exact hstart q (hbusy.trans (hlane.symm.trans hq))

lemma Sound.sent (hnum : allWorkerNum ≤ 2^8) (hp : s.busy i = some p) : (s.sent i p).Sound allWorkerNum := by
  have hbound := hs.busy i p hp
  have hworker : p.worker = p.owner := Nat.mod_eq_of_lt (by omega)
  have hold : ∀ q ∈ s.busy i, q.worker = p.worker := by
    intro q hq
    rw [some.inj (hp.symm.trans hq)]
  have hlane := hs.lanes (p.worker, i)
  have hi : i < 2^15 := by omega
  unfold ProxyRun.sent
  by_cases hmore : p.payload.length - p.offset > ipcBufferSize
  · obtain ⟨hend, hl⟩ := hlane.more hi (lane_busy hp) hmore
    rw [if_neg (ne_true_of_eq_false hend)]
    have h := hs.put p.worker (some { p with offset := p.offset + ipcBufferSize }) [p.message i] [] hold
      (fun q hq => some.inj hq ▸ rfl) (fun q hq => some.inj hq ▸ hbound)
      (fun _ => ⟨hworker ▸ hbound.2, hbound.1⟩) (nofun) (by
        rw [List.append_nil]
        exact hl)
    rw [List.append_nil] at h
    exact h
  · obtain ⟨hend, hl⟩ := hlane.last hi (lane_busy hp) hmore
    rw [if_pos hend]
    rw [← hworker]
    refine hs.put p.worker none [p.message i] [⟨p.worker, i, p.session, p.payload⟩] hold
      (fun q hq => absurd hq.symm (some_ne_none _)) (fun q hq => absurd hq.symm (some_ne_none _))
      (fun _ => ⟨hworker ▸ hbound.2, hbound.1⟩) ?_ hl
    intro r hr
    rw [List.mem_singleton.1 hr]
    rfl

end

lemma reactorId_ne (hid : message.reactorId = (i : Int)) (hk : k ≠ (o, i)) (ho : k.1 = o) :
    message.reactorId ≠ (k.2 : Int) := by
  rw [hid]
  exact fun hi => hk (Prod.ext ho (Int.ofNat.inj hi).symm)

lemma Sound.flush (hs : s.Sound allWorkerNum) (h : s.flush o i = some s') : s'.Sound allWorkerNum := by
  unfold ProxyRun.flush at h
  split at h
  · rename_i message rest hqueue
    cases h
    obtain ⟨hid, hl⟩ := (hs.lanes (o, i)).flush hqueue
    have hbound := hs.queue (o, i) (hqueue ▸ List.cons_ne_nil _ _)
    refine ⟨lanes_of hs.lanes hl ?_ ?_, hs.busy, ?_, ?_, hs.buffer⟩
    · have hown : own ProxyMessage.reactorId (i : Int) (update s.pipe o (s.pipe o ++ [message]) o) =
          own ProxyMessage.reactorId (i : Int) (s.pipe o) ++ [message] := by
        rw [update_self, ← hid, own_snoc_self]
      exact Lane.ext hown (update_self ..) rfl rfl rfl rfl
    · intro k hk
      have hown : own ProxyMessage.reactorId (k.2 : Int) (update s.pipe o (s.pipe o ++ [message]) k.1) =
          own ProxyMessage.reactorId (k.2 : Int) (s.pipe k.1) := by
        by_cases ho : k.1 = o
        · rw [ho, update_self, own_snoc_ne (reactorId_ne hid hk ho)]
        · rw [update_of_ne ho]
      exact Lane.ext hown (update_of_ne hk ..) rfl rfl rfl rfl
    · exact (forall_update_iff s.queue fun k q => q ≠ [] → k.1 < allWorkerNum ∧ k.2 < allWorkerNum).2
        ⟨fun _ => hbound, fun k _ => hs.queue k⟩
    · refine (forall_update_iff s.pipe fun _ ms => ∀ m ∈ ms, ∃ j < allWorkerNum, m.reactorId = (j : Int)).2
        ⟨fun m hm => ?_, fun o _ => hs.pipe o⟩
      rcases List.mem_append.1 hm with hm | hm
      · exact hs.pipe o m hm
      · rw [List.mem_singleton.1 hm]
        exact ⟨i, hbound.2, hid⟩
  · cases h

lemma onPipeRead_eq (hnum : allWorkerNum ≤ 2^8) (hi : i < allWorkerNum)
    (hid : message.reactorId = (i : Int)) :
    s.onPipeRead allWorkerNum o message = if message.isEnd then
        { s with
          passed := s.passed ++ [⟨o, i, message.fd, s.outputBuffer (o, i) ++ message.data⟩]
          outputBuffer := update s.outputBuffer (o, i) [] }
      else { s with outputBuffer := update s.outputBuffer (o, i) (s.outputBuffer (o, i) ++ message.data) } := by
  have hvalid : ¬ (message.reactorId < 0 ∨ toSigned 16 allWorkerNum ≤ message.reactorId) := by
    rw [hid, toSigned_of_lt (by omega)]
    omega
  unfold ProxyRun.onPipeRead
  rw [if_neg hvalid, hid]
  rfl

section
variable (hs : s.Sound allWorkerNum)
include hs

lemma Sound.read (hnum : allWorkerNum ≤ 2^8) (h : s.read allWorkerNum o = some s') :
    s'.Sound allWorkerNum := by
  unfold ProxyRun.read at h
  split at h
  · rename_i message rest hpipe
    obtain ⟨i, hi, hid⟩ := hs.pipe o message (hpipe ▸ List.mem_cons_self)
    rw [← some.inj h, onPipeRead_eq hnum hi hid]
    have hlane : (s.lane (o, i)).pipe = message :: own ProxyMessage.reactorId (i : Int) rest := by
      have h := own_cons_self ProxyMessage.reactorId message rest
      rw [hid, ← hpipe] at h
      exact h
    have hrest : ∀ k, k ≠ (o, i) → own ProxyMessage.reactorId (k.2 : Int) (update s.pipe o rest k.1) =
          own ProxyMessage.reactorId (k.2 : Int) (s.pipe k.1) := by
      intro k hk
      by_cases ho : k.1 = o
      · rw [ho, update_self, hpipe, own_cons_ne (reactorId_ne hid hk ho)]
      · rw [update_of_ne ho]
    have hpipes : ∀ o', ∀ m ∈ update s.pipe o rest o', ∃ j < allWorkerNum, m.reactorId = (j : Int) :=
      (forall_update_iff s.pipe fun _ ms => ∀ m ∈ ms, ∃ j < allWorkerNum, m.reactorId = (j : Int)).2
        ⟨fun m hm => hs.pipe o m (hpipe ▸ List.mem_cons_of_mem _ hm), fun o' _ => hs.pipe o'⟩
    have hbuffers : ∀ (buffer : Bytes) (k : Nat × Nat), update s.outputBuffer (o, i) buffer k ≠ [] →
      k.2 < allWorkerNum :=
      fun buffer => (forall_update_iff s.outputBuffer fun k b => b ≠ [] → k.2 < allWorkerNum).2
        ⟨fun _ => hi, fun k _ => hs.buffer k⟩
    have hself : own ProxyMessage.reactorId (i : Int) (update s.pipe o rest o) =
        own ProxyMessage.reactorId (i : Int) rest :=
      congrArg _ (update_self ..)
    split
    · rename_i hend
      have hpassed := own_snoc_self ProxyResponse.lane
        ⟨o, i, message.fd, s.outputBuffer (o, i) ++ message.data⟩ s.passed
      refine ⟨lanes_of hs.lanes ((hs.lanes (o, i)).readLast hlane hend) ?_ ?_, hs.busy,
        hs.queue, hpipes, hbuffers _⟩
      · exact Lane.ext hself rfl (update_self ..) rfl hpassed rfl
      · intro k hk
        have hlane : ProxyResponse.lane ⟨o, i, message.fd, s.outputBuffer (o, i) ++ message.data⟩ ≠ k :=
          Ne.symm hk
        exact Lane.ext (hrest k hk) rfl (update_of_ne hk ..) rfl (own_snoc_ne hlane s.passed) rfl
    · rename_i hend
      refine ⟨lanes_of hs.lanes ((hs.lanes (o, i)).readMore hlane (Bool.not_eq_true _ ▸ hend)) ?_ ?_,
        hs.busy, hs.queue, hpipes, hbuffers _⟩
      · exact Lane.ext hself rfl (update_self ..) rfl rfl rfl
      · exact fun k hk => Lane.ext (hrest k hk) rfl (update_of_ne hk ..) rfl rfl rfl
  · cases h

lemma Sound.die_eq (h : s.Idle allWorkerNum i) :
    s.die i = { s with busy := update s.busy i none } := by
  have hqueue : (fun k => if k.2 = i then [] else s.queue k) = s.queue := by
    funext k
    by_cases hk : k.2 = i
    · rw [if_pos hk]
      by_contra hne
      have hlt := (hs.queue k (Ne.symm hne)).1
      exact hne (hk ▸ (h k.1 hlt).1).symm
    · rw [if_neg hk]
  have hbuffer : (fun k => if k.1 = i then [] else s.outputBuffer k) = s.outputBuffer := by
    funext k
    by_cases hk : k.1 = i
    · rw [if_pos hk]
      by_contra hne
      exact hne (hk ▸ (h k.2 (hs.buffer k (Ne.symm hne))).2).symm
    · rw [if_neg hk]
  unfold die
  rw [hqueue, hbuffer]

lemma Sound.step (hnum : allWorkerNum ≤ 2^8)
    (he : Careful allWorkerNum e s) (h : ProxyRun.step allWorkerNum e s = some s') :
    s'.Sound allWorkerNum := by
  cases e with
  | respond i o session payload =>
    obtain ⟨⟨hi, ho, hpayload, _, hbusy⟩, hs'⟩ := ite_none_right_eq_some.1 h
    have hnone := isNone_iff_eq_none.1 hbusy
    cases hs'
    refine hs.setBusy (o % 2^8) _ ?_ ?_ ?_ ((hs.lanes (o % 2^8, i)).begin ?_ hpayload)
    · exact fun p hp => absurd (hnone.symm.trans hp).symm (some_ne_none _)
    · exact fun p hp => some.inj hp ▸ rfl
    · exact fun p hp => some.inj hp ▸ ⟨hi, ho⟩
    · show (s.busy i).filter _ = none
      rw [hnone]
      rfl
  | send i ok =>
    change s.send i ok = some s' at h
    unfold ProxyRun.send at h
    split at h
    · rename_i p hp
      cases ok with
      | true => exact some.inj h ▸ hs.sent hnum hp
      | false => exact some.inj h ▸ hs.abort he
    · cases h
  | flush o i => exact hs.flush h
  | read o => exact hs.read hnum h
  | die w =>
    obtain ⟨_, hs'⟩ := ite_none_right_eq_some.1 h
    rw [← some.inj hs', hs.die_eq he.2]
    exact hs.abort he.1

end

lemma sound_start : start.Sound allWorkerNum where
  lanes _ := ⟨nofun, fun _ hp => absurd hp.symm (some_ne_none _), rfl, rfl⟩
  busy _ _ hp := absurd hp.symm (some_ne_none _)
  queue _ h := absurd rfl h
  pipe _ _ hm := absurd hm List.not_mem_nil
  buffer _ h := absurd rfl h

/-! ## what is under way arrives -/

/-- a state to which the transport leads, with the same responses reported, and no more messages in memory -/
structure Later (allWorkerNum : Nat) (s t : ProxyRun) : Prop where
  sound : t.Sound allWorkerNum
  reported : t.reported = s.reported
  queue : ∀ k, s.queue k = [] → t.queue k = []
  reach : ∃ events, (∀ e ∈ events, ProxyEvent.Transport e) ∧ iter (ProxyRun.step allWorkerNum) events s = some t

lemma Later.refl (hs : s.Sound allWorkerNum) : Later allWorkerNum s s := ⟨hs, rfl, fun _ => id, [], nofun, rfl⟩

lemma Later.trans {u : ProxyRun} (h : Later allWorkerNum s t) (h' : Later allWorkerNum t u) :
    Later allWorkerNum s u := by
  obtain ⟨events, he, ht⟩ := h.reach
  obtain ⟨events', he', hu⟩ := h'.reach
  refine ⟨h'.sound, h'.reported.trans h.reported, fun k hk => h'.queue k (h.queue k hk), events ++ events',
    List.forall_mem_append.2 ⟨he, he'⟩, ?_⟩
  rw [iter_append, ht]
  exact hu

lemma later_flush (hs : s.Sound allWorkerNum) (h : s.flush o i = some t) :
    Later allWorkerNum s t ∧ (t.queue (o, i)).length < (s.queue (o, i)).length := by
  have hsound := hs.flush h
  have hreach : ∃ events, (∀ e ∈ events, ProxyEvent.Transport e) ∧
      iter (ProxyRun.step allWorkerNum) events s = some t :=
    ⟨[.flush o i], List.forall_mem_singleton.2 trivial, bind_eq_some_iff.2 ⟨t, h, rfl⟩⟩
  unfold ProxyRun.flush at h
  split at h
  · rename_i message rest hhead
    have ht := some.inj h
    rw [← ht] at hsound hreach ⊢
    refine ⟨⟨hsound, rfl, fun k hk => ?_, hreach⟩, ?_⟩
    · have hne : k ≠ (o, i) := fun he => absurd (hhead.symm.trans (he ▸ hk)) (List.cons_ne_nil _ _)
      exact (update_of_ne hne ..).trans hk
    · show (update s.queue (o, i) rest (o, i)).length < (s.queue (o, i)).length
      rw [update_self, hhead]
      exact Nat.lt_succ_self _
  · cases h

lemma later_read (hnum : allWorkerNum ≤ 2^8) (hs : s.Sound allWorkerNum)
    (h : s.read allWorkerNum o = some t) :
    Later allWorkerNum s t ∧ (t.pipe o).length < (s.pipe o).length := by
  have hsound := hs.read hnum h
  suffices hframe : t.reported = s.reported ∧ t.queue = s.queue ∧ (t.pipe o).length < (s.pipe o).length from
    ⟨⟨hsound, hframe.1, fun k hk => hframe.2.1 ▸ hk, [.read o], List.forall_mem_singleton.2 trivial,
      bind_eq_some_iff.2 ⟨t, h, rfl⟩⟩, hframe.2.2⟩
  unfold ProxyRun.read at h
  split at h
  · rename_i message rest hpipe
    have hlt : (update s.pipe o rest o).length < (s.pipe o).length := by
      rw [update_self, hpipe]
      exact Nat.lt_succ_self _
    obtain ⟨j, hj, hid⟩ := hs.pipe o message (hpipe ▸ List.mem_cons_self)
    rw [← some.inj h, onPipeRead_eq hnum hj hid]
    split
    · exact ⟨rfl, rfl, hlt⟩
    · exact ⟨rfl, rfl, hlt⟩
  · cases h

lemma flush_eq_none (h : s.flush o i = none) : s.queue (o, i) = [] := by
  unfold ProxyRun.flush at h
  split at h
  · cases h
  · assumption

lemma read_eq_none (h : s.read allWorkerNum o = none) : s.pipe o = [] := by
  unfold ProxyRun.read at h
  split at h
  · cases h
  · assumption

lemma exists_rest (hs : s.Sound allWorkerNum) (μ : ProxyRun → Nat)
    (hstep : ∀ u u', u.Sound allWorkerNum → ProxyRun.step allWorkerNum e u = some u' →
      Later allWorkerNum u u' ∧ μ u' < μ u) :
    ∃ t, Later allWorkerNum s t ∧ ProxyRun.step allWorkerNum e t = none := by
  have hlater : ∀ u u', Later allWorkerNum s u → ProxyRun.step allWorkerNum e u = some u' →
      Later allWorkerNum s u' ∧ μ u' < μ u := by
    intro u u' hu h
    obtain ⟨hu', hlt⟩ := hstep u u' hu.sound h
    exact ⟨hu.trans hu', hlt⟩
  obtain ⟨-, t, -, ht, hnone⟩ := iter_rests μ hlater (.refl hs)
  exact ⟨t, ht, hnone⟩

lemma exists_flushed (hs : s.Sound allWorkerNum) (o m : Nat) :
    ∃ t, Later allWorkerNum s t ∧ ∀ i < m, t.queue (o, i) = [] := by
  induction m with
  | zero => exact ⟨s, .refl hs, fun i hi => absurd hi (by omega)⟩
  | succ m ih =>
    obtain ⟨t, ht, hempty⟩ := ih
    obtain ⟨u, hu, hnone⟩ := exists_rest (e := .flush o m) ht.sound _ fun _ _ => later_flush
    refine ⟨u, ht.trans hu, ?_⟩
    intro i hi
    by_cases he : i = m
    · rw [he]
      exact flush_eq_none hnone
    · exact hu.queue (o, i) (hempty i (by omega))

lemma exists_drained (hnum : allWorkerNum ≤ 2^8) (hs : s.Sound allWorkerNum) (o : Nat) :
    ∃ t, Later allWorkerNum s t ∧ t.Drained allWorkerNum o := by
  obtain ⟨t, ht, hempty⟩ := exists_flushed hs o allWorkerNum
  obtain ⟨u, hu, hnone⟩ := exists_rest (e := .read o) ht.sound _ fun _ _ => later_read hnum
  exact ⟨u, ht.trans hu, read_eq_none hnone, fun i hi => hu.queue (o, i) (hempty i hi)⟩

/-! ## results -/

lemma Sound.eq_reported (hs : s.Sound allWorkerNum) (h : s.Drained allWorkerNum o) (i : Nat) :
    own ProxyResponse.lane (o, i) s.passed = own ProxyResponse.lane (o, i) s.reported := by
  have hpassed := (hs.lanes (o, i)).passed
  have hqueue : s.queue (o, i) = [] := by
    by_contra hne
    exact hne (h.2 i (hs.queue (o, i) hne).2)
  have hcoming : (s.lane (o, i)).coming.1 = [] := by
    show (decode (own _ _ (s.pipe o) ++ s.queue (o, i)) _).1 = []
    rw [h.1, hqueue]
    rfl
  rw [hcoming, List.map_nil, List.append_nil] at hpassed
  exact hpassed

/-- **Proxied responses are neither mixed nor lost**, when a send fails or a worker dies only where nothing of a
response is under way. -/
theorem proxied_exactly (hnum : allWorkerNum ≤ 2^8) {events : List ProxyEvent} {s : ProxyRun}
    (hevents : Along (ProxyRun.step allWorkerNum) (Careful allWorkerNum) events start)
    (hrun : iter (ProxyRun.step allWorkerNum) events start = some s) (o : Nat) :
    (∀ i, own ProxyResponse.lane (o, i) s.passed <+: own ProxyResponse.lane (o, i) s.reported) ∧
      (s.Drained allWorkerNum o → ∀ i, own ProxyResponse.lane (o, i) s.passed =
        own ProxyResponse.lane (o, i) s.reported) ∧
      ∃ more t, (∀ e ∈ more, ProxyEvent.Transport e) ∧ iter (ProxyRun.step allWorkerNum) more s = some t ∧
        t.reported = s.reported ∧ ∀ i, own ProxyResponse.lane (o, i) t.passed =
          own ProxyResponse.lane (o, i) s.reported := by
  have hs : s.Sound allWorkerNum := iter_keeps (fun _ _ _ he hs h => hs.step hnum he h)
    events hevents sound_start hrun
  obtain ⟨t, hlater, hdrained⟩ := exists_drained hnum hs o
  obtain ⟨more, htransport, ht⟩ := hlater.reach
  refine ⟨fun i => ⟨_, (hs.lanes (o, i)).passed⟩, fun h i => hs.eq_reported h i,
    more, t, htransport, ht, hlater.reported, ?_⟩
  intro i
  rw [← hlater.reported]
  exact hlater.sound.eq_reported hdrained i

section
variable {a b : Bytes} (ha : a.length = ipcBufferSize)
include ha

lemma message_second (hlen : b.length ≤ ipcBufferSize) (sender : Nat) :
    Proxying.message ⟨0, 7, a ++ b, ipcBufferSize⟩ sender = ⟨7, toSigned 16 sender, true, b⟩ := by
  have hrest : (a ++ b).length - ipcBufferSize = b.length := by
    rw [List.length_append]
    omega
  have hshort : ¬ b.length > ipcBufferSize := not_lt.2 hlen
  unfold Proxying.message
  simp only [hrest, if_neg hshort, decide_eq_false hshort]
  rw [← ha, List.drop_left, List.take_length]
  rfl

variable (hb : b ≠ [])
include hb

lemma message_first (sender : Nat) :
    Proxying.message ⟨0, 7, a ++ b, 0⟩ sender = ⟨7, toSigned 16 sender, false, a⟩ := by
  have hlong : (a ++ b).length - 0 > ipcBufferSize := by
    have := List.length_pos_of_ne_nil hb
    rw [List.length_append]
    omega
  unfold Proxying.message
  simp only [if_pos hlong, decide_eq_true hlong]
  rw [List.drop_zero, ← ha, List.take_left]
  rfl

/-- a response of another worker between the two messages of one -/
def interleaved (payload : Bytes) : List ProxyEvent :=
  [.respond 1 0 7 payload, .respond 2 0 8 [3], .send 1 true, .send 2 true, .flush 0 1,
    .flush 0 2, .read 0, .send 1 true]

lemma interleaved_run (hlen : b.length ≤ ipcBufferSize) :
    (iter (ProxyRun.step 3) (interleaved (a ++ b)) start).map ProxyRun.reported =
      some [⟨0, 2, 8, [3]⟩, ⟨0, 1, 7, a ++ b⟩] := by
  have hlast : Proxying.message ⟨0, 8, [3], 0⟩ 2 = ⟨8, toSigned 16 2, true, [3]⟩ := by decide +kernel
  have h16 : toSigned 16 1 = 1 ∧ toSigned 16 2 = 2 ∧ toSigned 16 3 = 3 := by decide
  simp [interleaved, iter, ProxyRun.step, start, ProxyRun.send, sent,
    message_first ha hb, message_second ha hlen,
    hlast, ProxyRun.flush, ProxyRun.read, onPipeRead, Proxying.worker, hb, h16]

lemma leftover : (iter (ProxyRun.step 2)
      [.respond 1 0 7 (a ++ b), .send 1 true, .send 1 false, .respond 1 0 8 [3],
        .send 1 true, .flush 0 1, .flush 0 1, .read 0, .read 0] start).map (fun s => (s.passed, s.reported)) =
      some ([⟨0, 1, 8, a ++ [3]⟩], [⟨0, 1, 8, [3]⟩]) := by
  have hlast : Proxying.message ⟨0, 8, [3], 0⟩ 1 = ⟨8, toSigned 16 1, true, [3]⟩ := by decide +kernel
  have h16 : toSigned 16 1 = 1 := by decide
  have h16' : toSigned 16 2 = 2 := by decide
  simp [iter, ProxyRun.step, start, ProxyRun.send, sent, message_first ha hb, hlast,
    ProxyRun.flush, ProxyRun.read, onPipeRead, Proxying.worker, hb, h16, h16']

end

theorem proxied_exactly_two :
    ∃ s, iter (ProxyRun.step 3) (interleaved (List.replicate ipcBufferSize 1 ++ [2])) start = some s ∧
      ∃ more t, (∀ e ∈ more, ProxyEvent.Transport e) ∧ iter (ProxyRun.step 3) more s = some t ∧
        own ProxyResponse.lane (0, 1) t.passed = [⟨0, 1, 7, List.replicate ipcBufferSize 1 ++ [2]⟩] := by
  refine exists_of_map _ (interleaved_run List.length_replicate (List.cons_ne_nil _ _) (by decide))
    fun s hs hreported => ?_
  obtain ⟨-, -, more, t, hmore, ht, -, hpassed⟩ :=
    proxied_exactly (by decide) (by simp [interleaved, Along, Careful]) hs 0
  refine ⟨more, t, hmore, ht, ?_⟩
  rw [hpassed 1, hreported]
  rfl

/-- **A response that was given up goes to another session.** -/
theorem leftover_delivered : (iter (ProxyRun.step 2)
      [.respond 1 0 7 (List.replicate ipcBufferSize 1 ++ [2]), .send 1 true, .send 1 false, .respond 1 0 8 [3],
        .send 1 true, .flush 0 1, .flush 0 1, .read 0, .read 0] start).map (fun s => (s.passed, s.reported)) =
      some ([⟨0, 1, 8, List.replicate ipcBufferSize 1 ++ [3]⟩], [⟨0, 1, 8, [3]⟩]) :=
  leftover List.length_replicate (List.cons_ne_nil _ _)

end ProxyRun

end OSW
