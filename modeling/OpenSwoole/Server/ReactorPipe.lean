import OpenSwoole.Lib.Machine
import OpenSwoole.Server.PipeMessage

/-!
# The pipes from the workers to the reactor threads

`ProcessFactory::finish` of `src/server/process.cc` sends a response from a worker, and
`ReactorThread_onPipeRead` of `src/server/reactor_thread.cc` puts its chunks together.  A worker is in at
most one call of `process_send_packet`; the call is cut at its `_send`s, so that anything may happen
between two chunks.  An accepted datagram first stands in the output queue of the worker process
(`openswoole_event_writev`) and is then flushed to the pipe; a worker that dies loses the queue.

Worker numbers are the `uint16_t server_fd` of the header, and a pipe is named by the descriptor the
reactor reads, taken to be below `2^16`.  The number of a response travels with its datagrams as a record
of the run.

* `Sending.result`   what it does with the result; `sendAll_eq` connects it to `processSendPacket`;
* `PipeServer.step`   one step of a worker or of a reactor thread.
-/

namespace OSW
open Function

abbrev WorkerId := UInt16
abbrev PipeFd := UInt16

/-! ## sending -/

/-- types of datagrams that are not responses: `OSW_SERVER_EVENT_INCOMING`, `_SHUTDOWN` and
`_CLOSE_FORCE` -/
inductive Control where
  | incoming
  | shutdown
  | closeForce

/-- a datagram to a reactor thread, with the fields `fd` and `server_fd` of its header, and the number
of its response -/
structure RespDatagram where
  info : DataHead
  type : Option Control
  fd : Nat
  serverFd : WorkerId
  data : Bytes
  resp : Nat

/-- `process_send_packet` before a `_send`; `direct` until `_ipc_use_chunk` -/
structure Sending where
  resp : Nat
  pipe : PipeFd
  fd : Nat
  serverFd : WorkerId
  direct : Bool
  info : DataHead
  maxLength : Nat
  data : Bytes

/-- the next `_send`, or the end of the call -/
inductive SendOutcome where
  | again (s : Sending)
  | returns (ok : Bool)

def SendOutcome.sending : SendOutcome → Option Sending
  | .again s => some s
  | .returns _ => none

namespace Sending

section
variable (s : Sending)

def loop : SendOutcome := if 0 < s.data.length then .again s else .returns true

def isLast : Bool := decide (s.data.length ≤ s.maxLength)

def chunkInfo : DataHead := { s.info with isEnd := s.info.isEnd || s.isLast }

def copyN : Nat := if s.isLast then s.data.length else s.maxLength

/-- the head and the bytes of the next `_send` -/
def packet : Datagram := if s.direct then ⟨s.info, s.data⟩ else ⟨s.chunkInfo, s.data.take s.copyN⟩

def datagram : RespDatagram :=
  { info := s.packet.info, type := none, fd := s.fd, serverFd := s.serverFd, data := s.packet.data,
    resp := s.resp }

def result : SendRes → SendOutcome
  | .ok =>
    if s.direct then .returns true
    else { s with info := { s.chunkInfo with isBegin := false }, data := s.data.drop s.copyN }.loop
  | .enobufs =>
    if s.direct then
      { s with direct := false, maxLength := ipcBufferSize, info := chunkHead s.info.msgId s.info.len }.loop
    else if bufferSizeStd < s.maxLength then
      .again { s with maxLength := ipcBufferSize, info := s.chunkInfo }
    else .returns false
  | .failed => .returns false

end

/-- `process_send_packet` up to its first `_send` -/
def start (ipcMax msgId resp : Nat) (pipe : PipeFd) (fd : Nat) (serverFd : WorkerId)
    (data : Bytes) : Sending :=
  let maxLength := ipcMax - dataHeadSize
  let direct := decide (data.length ≤ maxLength)
  { resp, pipe, fd, serverFd, direct,
    info := if direct then ⟨msgId, data.length, false, false, false⟩ else chunkHead msgId data.length,
    maxLength, data }

end Sending

/-- the rest of the call, with the results of its `_send`s -/
def SendOutcome.sendAll (results : Nat → SendRes) : Nat → Nat → SendOutcome → Option (Bool × List Datagram)
  | _, _, .returns ok => some (ok, [])
  | 0, _, .again _ => none
  | fuel + 1, i, .again s =>
    (sendAll results fuel (i + 1) (s.result (results i))).map fun r =>
      (r.1, if results i = .ok then s.packet :: r.2 else r.2)

variable {results : Nat → SendRes} {fuel i : Nat} {s : Sending} {r : Bool × List Datagram}

lemma sendAll_again (h : (s.result (results i)).sendAll results fuel (i + 1) = some r) :
    (SendOutcome.again s).sendAll results (fuel + 1) i =
      some (r.1, if results i = .ok then s.packet :: r.2 else r.2) := by
  rw [SendOutcome.sendAll, h, Option.map_some]

lemma sendAll_loop (hd : s.direct = false)
    (h : sendChunks results fuel i s.maxLength s.info s.data = some r) :
    s.loop.sendAll results fuel i = some r := by
  induction fuel generalizing i s r with
  | zero => cases h
  | succ fuel ih =>
    unfold Sending.loop
    by_cases hpos : 0 < s.data.length
    · rw [if_pos hpos]
      cases hr : results i with
      | failed =>
        rw [sendChunks_failed fuel hr hpos] at h
        cases h
        rw [sendAll_again (r := (false, [])) (by rw [hr]; unfold Sending.result; cases fuel <;> rfl), hr]
        rfl
      | enobufs =>
        rw [sendChunks_enobufs fuel hr hpos] at h
        have hres : (s.result .enobufs).sendAll results fuel (i + 1) = some r := by
          unfold Sending.result
          simp only
          rw [if_neg (by rw [hd]; decide)]
          by_cases hlarge : bufferSizeStd < s.maxLength
          · rw [if_pos hlarge] at h ⊢
            have := ih (s := { s with maxLength := ipcBufferSize, info := s.chunkInfo }) hd h
            rwa [Sending.loop, if_pos hpos] at this
          · rw [if_neg hlarge] at h ⊢
            cases h
            cases fuel <;> rfl
        rw [sendAll_again (r := r) (by rw [hr]; exact hres), hr]
        rfl
      | ok =>
        rw [sendChunks, if_pos hpos, hr] at h
        obtain ⟨t, ht, rfl⟩ := Option.map_eq_some_iff.1 h
        have hres : (s.result .ok).sendAll results fuel (i + 1) = some t := by
          unfold Sending.result
          rw [if_neg (by rw [hd]; decide)]
          exact ih (s := { s with info := { s.chunkInfo with isBegin := false },
                                  data := s.data.drop s.copyN }) hd ht
        rw [sendAll_again (r := t) (by rw [hr]; exact hres), hr, Sending.packet, hd]
        rfl
    · rw [if_neg hpos]
      have hnil : s.data = [] := List.length_eq_zero_iff.1 (by omega)
      rw [hnil] at h
      cases h
      rfl

lemma sendAll_eq {ipcMax msgId : Nat} {data : Bytes} (resp : Nat) (pipe : PipeFd) (fd : Nat)
    (serverFd : WorkerId) (h : processSendPacket ipcMax msgId results data = some r) :
    ∃ fuel, (SendOutcome.again (Sending.start ipcMax msgId resp pipe fd serverFd data)).sendAll
      results fuel 0 = some r := by
  unfold processSendPacket at h
  by_cases hle : data.length ≤ ipcMax - dataHeadSize
  · rw [if_pos hle] at h
    cases hr : results 0 with
    | ok =>
      rw [hr] at h
      cases h
      refine ⟨1, ?_⟩
      rw [sendAll_again (r := (true, [])), hr]
      · simp [Sending.packet, Sending.start, hle]
      · simp [Sending.result, Sending.start, hle, hr, SendOutcome.sendAll]
    | enobufs =>
      rw [hr] at h
      refine ⟨data.length + 4, ?_⟩
      rw [sendAll_again (r := r), hr]
      · rfl
      · rw [hr]
        simp only [Sending.start, decide_eq_true hle, if_true]
        exact sendAll_loop rfl h
    | failed =>
      rw [hr] at h
      cases h
      refine ⟨1, ?_⟩
      rw [sendAll_again (r := (false, [])), hr]
      · rfl
      · simp [Sending.result, hr, SendOutcome.sendAll]
  · rw [if_neg hle] at h
    have hchunks : sendChunks results (data.length + 3) 0
        (Sending.start ipcMax msgId resp pipe fd serverFd data).maxLength
        (Sending.start ipcMax msgId resp pipe fd serverFd data).info data = some r := by
      simp only [Sending.start, hle, decide_false, Bool.false_eq_true, if_false]
      exact h
    have hloop := sendAll_loop (s := Sending.start ipcMax msgId resp pipe fd serverFd data)
      (by simp [Sending.start, hle]) hchunks
    refine ⟨data.length + 3, ?_⟩
    rwa [Sending.loop, if_pos] at hloop
    show 0 < data.length
    omega

/-! ## workers, pipes and reactor threads -/

/-- the settings that the code reads; `masterFd` is the reactor's end of a worker's pipe -/
structure PipeConfig where
  ipcMaxSize : Nat
  outputBufferSize : Nat
  reactorNum : Nat
  reactorPipeNum : Nat
  masterFd : Nat → PipeFd
  thread : PipeFd → Nat

/-- `get_reactor_thread_pipe` -/
def PipeConfig.pipe (c : PipeConfig) (sessionId reactorId : Nat) : PipeFd :=
  c.masterFd (reactorId + sessionId % c.reactorPipeNum * c.reactorNum)

/-- a response: the worker that sends it, the pipe it goes to, its session and its bytes -/
structure Response where
  worker : WorkerId
  pipe : PipeFd
  session : Nat
  payload : Bytes

/-- a call of `send_to_connection`, with the number of the response that the last datagram belongs to -/
structure Delivery where
  resp : Nat
  session : Nat
  payload : Bytes

/-- `outBuffer` are the output queues of the worker processes, `sendBuffers` those of the reactor
threads; `responses` and `delivered` are records of the run -/
structure PipeServer where
  workers : WorkerId → Option Sending
  outBuffer : WorkerId → PipeFd → List RespDatagram
  pipes : PipeFd → List RespDatagram
  sendBuffers : Nat → Nat → Option Bytes
  responses : List Response
  delivered : List Delivery

inductive PipeOp where
  /-- a worker calls `finish` -/
  | finish (worker : WorkerId) (session reactorId : Nat) (payload : Bytes)
  /-- the `_send` of a worker has a result -/
  | result (worker : WorkerId) (r : SendRes)
  /-- the kernel takes a datagram from the output queue of a worker -/
  | flush (worker : WorkerId) (pipe : PipeFd)
  /-- a worker dies and is started again with the same number -/
  | die (worker : WorkerId)
  /-- a datagram that is not a response -/
  | control (worker : WorkerId) (session reactorId : Nat) (type : Control)
  /-- a reactor thread reads a datagram -/
  | read (pipe : PipeFd)

/-- `(ev->fd << 16) + worker_id` -/
def pipeKey (pipe : PipeFd) (worker : WorkerId) : Nat := pipe.toNat * 2^16 + worker.toNat

namespace PipeServer

def init : PipeServer :=
  { workers := fun _ => none, outBuffer := fun _ _ => [], pipes := fun _ => [],
    sendBuffers := fun _ _ => none, responses := [], delivered := [] }

def enqueue (s : PipeServer) (w : WorkerId) (p : PipeFd) (d : RespDatagram) : PipeServer :=
  { s with outBuffer := update s.outBuffer w (update (s.outBuffer w) p (s.outBuffer w p ++ [d])) }

def setWorker (s : PipeServer) (w : WorkerId) (snd : Option Sending) : PipeServer :=
  { s with workers := update s.workers w snd }

/-- `finish`, up to the first `_send`; a worker that is in a call does nothing else -/
def finish (c : PipeConfig) (s : PipeServer) (w : WorkerId) (session reactorId : Nat)
    (payload : Bytes) : PipeServer :=
  match s.workers w with
  | some _ => s
  | none =>
    if c.outputBufferSize % 2^32 < payload.length then s
    else
      let pipe := c.pipe session reactorId
      let resp := s.responses.length
      let snd := .start c.ipcMaxSize (resp % 2^64) resp pipe session w payload
      { s.setWorker w (some snd) with
        responses := s.responses ++ [⟨w, pipe, session, payload⟩] }

section
variable (s : PipeServer)

def result (w : WorkerId) (r : SendRes) : PipeServer :=
  match s.workers w with
  | none => s
  | some snd =>
    let s := if r = .ok then s.enqueue w snd.pipe snd.datagram else s
    s.setWorker w (snd.result r).sending

def flush (w : WorkerId) (p : PipeFd) : PipeServer :=
  match s.outBuffer w p with
  | [] => s
  | d :: ds =>
    { s with outBuffer := update s.outBuffer w (update (s.outBuffer w) p ds),
             pipes := update s.pipes p (s.pipes p ++ [d]) }

def die (w : WorkerId) : PipeServer :=
  { s.setWorker w none with outBuffer := update s.outBuffer w fun _ => [] }

def setBuffer (thread key : Nat) (b : Option Bytes) : PipeServer :=
  { s with sendBuffers := update s.sendBuffers thread (update (s.sendBuffers thread) key b) }

def deliver (d : RespDatagram) (len : Nat) (data : Bytes) : PipeServer :=
  { s with delivered := s.delivered ++ [⟨d.resp, d.fd, data.take len⟩] }

end

def readChunk (c : PipeConfig) (s : PipeServer) (p : PipeFd) (d : RespDatagram) (data : Bytes) :
    PipeServer :=
  let key := pipeKey p d.serverFd
  let package := (s.sendBuffers (c.thread p) key).getD [] ++ data
  -- wait more data
  if d.info.isEnd then
    (s.deliver d (package.length % 2^32) package).setBuffer (c.thread p) key none
  else s.setBuffer (c.thread p) key (some package)

/-- `ReactorThread_onPipeRead`, one datagram; `read` cuts it at `ipc_max_size` -/
def read (c : PipeConfig) (s : PipeServer) (p : PipeFd) : PipeServer :=
  match s.pipes p with
  | [] => s
  | d :: ds =>
    let s := { s with pipes := update s.pipes p ds }
    let data := d.data.take (c.ipcMaxSize - dataHeadSize)
    if d.info.isChunk then s.readChunk c p d data
    else
      match d.type with
      | some _ => s
      | none => s.deliver d d.info.len data

def step (c : PipeConfig) : PipeOp → PipeServer → PipeServer
  | .finish w session reactorId payload, s => s.finish c w session reactorId payload
  | .result w r, s => s.result w r
  | .flush w p, s => s.flush w p
  | .die w, s => s.die w
  | .control w session reactorId type, s =>
    s.enqueue w (c.pipe session reactorId) ⟨⟨0, 0, false, false, false⟩, some type, session, w, [], 0⟩
  | .read p, s => s.read c p

def run (c : PipeConfig) (ops : List PipeOp) (s : PipeServer) : PipeServer :=
  ops.foldl (fun s op => step c op s) s

end PipeServer

end OSW
