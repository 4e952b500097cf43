import OpenSwoole.Reactor.Epoll
import OpenSwoole.Reactor.Write

/-!
# Sending to a connection

`Server::send_to_connection` of `src/server/master.cc` and `ReactorThread_onWrite` of
`src/server/reactor_thread.cc`, with `Socket::sendfile`, `handle_send` and `handle_sendfile` of
`src/network/socket.cc`, for one connection.  Its output queue holds data, files and requests to close.  The
answers of the kernel to the successive `send` and `sendfile` calls are a list, as in `Reactor.Write`.

A descriptor is taken out of the reactor without errors.  TLS, timers and the error codes that are left for the
caller are left out; `close_notify` is never set.  The fields `wire` and `notified` are records: the bytes that
the kernel has taken, and the events that were sent to the worker.

* `OutConn.sendToConnection`   the code; `none` where `assert(size > 0)` of `Buffer::append` fails.
-/

namespace OSW

def sendBufferSize : Nat := 65536
def sendfileChunkSize : Nat := 65536

/-! ## output queues -/

/-- `length` is where the part to send ends, modulo 2^64 -/
structure SendfileRequest where
  file : Bytes
  offset : Nat
  length : Nat
  deriving DecidableEq

/-- `TYPE_DATA`, `TYPE_SENDFILE` and `TYPE_CLOSE` -/
inductive OutputChunk where
  | data (chunk : BufferChunk)
  | sendfile (task : SendfileRequest)
  | close
  deriving DecidableEq

def OutputChunk.size : OutputChunk → Nat
  | .data chunk => chunk.size
  | _ => 0

def OutputChunk.rest : OutputChunk → Bytes
  | .data chunk => chunk.rest
  | _ => []

structure OutputQueue where
  totalLength : Nat
  queue : List OutputChunk

namespace OutputQueue

def empty : OutputQueue := ⟨0, []⟩

def length (q : OutputQueue) : Nat := q.totalLength

def pop (q : OutputQueue) : OutputQueue :=
  match q.queue with
  | [] => q
  | c :: cs => ⟨(q.totalLength + 2^32 - c.size % 2^32) % 2^32, cs⟩

def alloc (q : OutputQueue) (c : OutputChunk) : OutputQueue := { q with queue := q.queue ++ [c] }

/-- the chunks of `Buffer::append` -/
def cut (data : Bytes) : Buffer := (Buffer.make sendBufferSize).append data

def append (q : OutputQueue) (data : Bytes) : OutputQueue :=
  ⟨(q.totalLength + (cut data).totalLength) % 2^32, q.queue ++ (cut data).queue.map .data⟩

end OutputQueue

/-! ## the loop of the writable callback -/

structure Flush where
  wire : Bytes
  queue : OutputQueue
  answers : List Answer

inductive FlushEnd where
  | stopped
  | closeChunk
  | closeEvent

namespace Flush

def advance (s : Flush) (sent : Bytes) (c : OutputChunk) (answers : List Answer) : Flush :=
  ⟨s.wire ++ sent, { s.queue with queue := c :: s.queue.queue.tail }, answers⟩

def popped (s : Flush) (sent : Bytes) (answers : List Answer) : Flush := ⟨s.wire ++ sent, s.queue.pop, answers⟩

def handleSend (s : Flush) (chunk : BufferChunk) : Flush ⊕ (Flush × FlushEnd) :=
  let sendn := chunk.data.length - chunk.offset
  if sendn = 0 then .inl (s.popped [] s.answers)
  else
    match answer sendn s.answers with
    | (.bytes k, as) =>
      if k = sendn then .inl (s.popped chunk.rest as)
      else .inr (s.advance (chunk.rest.take k) (.data { chunk with offset := chunk.offset + k }) as, .stopped)
    | (.error .wait, as) => .inr ({ s with answers := as }, .stopped)
    | (.error .close, as) => .inr ({ s with answers := as }, .closeEvent)
    | (.error _, as) => .inl { s with answers := as }

/-- what `sendfile` is asked for, up to the end of the file -/
def sendfileSize (task : SendfileRequest) : Nat :=
  min (min sendfileChunkSize ((task.length + 2^64 - task.offset) % 2^64)) (task.file.length - task.offset)

/-- the end of `Socket::handle_sendfile`: `k` bytes more of the file are on the wire -/
def filed (s : Flush) (task : SendfileRequest) (k : Nat) (answers : List Answer) : Flush :=
  let sent := (task.file.drop task.offset).take k
  if task.length ≤ task.offset + k then s.popped sent answers
  else s.advance sent (.sendfile { task with offset := task.offset + k }) answers

/-- `Socket::handle_sendfile`; what it makes of 0 bytes sent depends on an old `errno`, so that every answer may
follow then -/
def handleSendfile (s : Flush) (task : SendfileRequest) : Flush ⊕ (Flush × FlushEnd) :=
  match answer (sendfileSize task) s.answers with
  | (.bytes k, as) => .inl (s.filed task k as)
  -- the rest of the file is given up
  | (.error .error, as) => .inl (s.popped [] as)
  | (.error .wait, as) => .inr ({ s with answers := as }, .stopped)
  | (.error .close, as) => .inr ({ s with answers := as }, .closeEvent)
  | (.error .invalid, as) => .inl (s.filed task 0 as)

def turn (s : Flush) : Flush ⊕ (Flush × FlushEnd) :=
  match s.queue.queue with
  | [] => .inr (s, .stopped)
  | .close :: _ => .inr (s, .closeChunk)
  | .sendfile task :: _ => s.handleSendfile task
  | .data chunk :: _ => s.handleSend chunk

end Flush

def flush (s : Flush) : Option (Flush × FlushEnd) :=
  Machine.run Flush.turn (s.queue.queue.length + s.answers.length + 1) s

/-! ## connections -/

inductive OutEvent where
  | bufferFull
  | bufferEmpty
  deriving DecidableEq

/-- the server and its port; the callbacks are set or not -/
structure OutConfig where
  base : Bool
  disableNotify : Bool
  onBufferFull : Bool
  onBufferEmpty : Bool
  bufferHighWatermark : Nat
  bufferLowWatermark : Nat

def OutConfig.quiet : OutConfig := ⟨false, false, false, false, 0, 0⟩

/-- fields of the connection, from `reg` on of its socket, and the records -/
structure OutConn where
  active : Bool
  closing : Bool
  closed : Bool
  closeQueued : Bool
  closeReset : Bool
  closeForce : Bool
  peerClosed : Bool
  overflow : Bool
  highWatermark : Bool
  reg : Registration
  bufferSize : Nat
  directSend : Bool
  outBuffer : Option OutputQueue
  wire : Bytes
  notified : List OutEvent

/-- a file as `Socket::sendfile` finds it -/
inductive FileState where
  | missing
  | noStat
  | content (bytes : Bytes)
  deriving DecidableEq

/-- requests to `send_to_connection`: `OSW_SERVER_EVENT_RECV_DATA`, `_SEND_FILE`, `_CLOSE`, `_PAUSE_RECV` and
`_RESUME_RECV` -/
inductive SendRequest where
  | data (bytes : Bytes)
  | sendfile (file : FileState) (offset : Int) (length : Nat)
  | close
  | pauseRecv
  | resumeRecv
  deriving DecidableEq

namespace OutConn

/-- a connection as `connection_incoming` leaves it, without delayed receive -/
def opened (bufferSize : Nat) (directSend : Bool) : OutConn where
  active := true
  closing := false
  closed := false
  closeQueued := false
  closeReset := false
  closeForce := false
  peerClosed := false
  overflow := false
  highWatermark := false
  reg := .on ⟨true, false⟩
  bufferSize := bufferSize
  directSend := directSend
  outBuffer := none
  wire := []
  notified := []

section
variable (s : OutConn)

/-- `Server::close_connection`: the connection is cleared and the socket freed -/
def release : OutConn where
  active := false
  closing := false
  closed := false
  closeQueued := false
  closeReset := false
  closeForce := false
  peerClosed := false
  overflow := false
  highWatermark := false
  reg := .gone
  bufferSize := s.bufferSize
  directSend := s.directSend
  outBuffer := none
  wire := s.wire
  notified := s.notified

def queue : List OutputChunk := s.outBuffer.elim [] OutputQueue.queue

def queueEmpty : Bool := s.queue.isEmpty

def queueLength : Nat := s.outBuffer.elim 0 OutputQueue.length

/-- `new Buffer(OSW_SEND_BUFFER_SIZE)`, unless there is one -/
def makeBuffer : OutConn := { s with outBuffer := some (s.outBuffer.getD .empty) }

def alloc (c : OutputChunk) : OutConn := { s with outBuffer := s.outBuffer.map (·.alloc c) }

def append (data : Bytes) : OutConn := { s with outBuffer := s.outBuffer.map (·.append data) }

def takeBytes (bs : Bytes) : OutConn := { s with wire := s.wire ++ bs }

/-- `if (!isset_writable_event()) add_write_event` -/
def wantWrite : OutConn := { s with reg := s.reg.wantWrite }

end

def retval : Bool → Int
  | true => 0
  | false => -1

def pauseRecv (s : OutConn) : Int × OutConn :=
  if s.reg.removed || !s.reg.events.read then (0, s)
  else if s.reg.events.write then
    (retval (s.reg.set ⟨false, true⟩).1, { s with reg := (s.reg.set ⟨false, true⟩).2 })
  else (retval s.reg.del.1, { s with reg := s.reg.del.2 })

def resumeRecv (s : OutConn) : Int × OutConn :=
  if !s.reg.removed || s.reg.events.read then (0, s)
  else if s.reg.events.write then
    (retval (s.reg.set ⟨true, true⟩).1, { s with reg := (s.reg.set ⟨true, true⟩).2 })
  else (retval (s.reg.add ⟨true, false⟩).1, { s with reg := (s.reg.add ⟨true, false⟩).2 })

/-- `Socket::sendfile`; a file that cannot be opened and a bad range return `OSW_OK` -/
def sendfile (s : OutConn) (file : FileState) (offset : Int) (length : Nat) : Int × OutConn :=
  match file with
  | .missing => (0, s)
  | .noStat => (-1, s)
  | .content bytes =>
    if bytes.length = 0 then (-1, s)
    else
      let s := s.makeBuffer
      let upto := (length + offset.toNat) % 2^64
      if offset < 0 ∨ upto > bytes.length then (0, s)
      else (0, s.alloc (.sendfile ⟨bytes, offset.toNat, if length = 0 then bytes.length else upto⟩))

section
variable (c : OutConfig) (s : OutConn)

/-- data is queued: `overflow` and, where nobody is told about a full buffer, `high_watermark` -/
def overflowed : OutConn :=
  if s.bufferSize ≤ s.queueLength then
    { s with overflow := true, highWatermark := s.highWatermark || (c.onBufferEmpty && !c.onBufferFull) }
  else s

def notifyFull : OutConn :=
  if c.onBufferFull && !s.highWatermark && decide (c.bufferHighWatermark ≤ s.queueLength) then
    { s with notified := s.notified ++ [.bufferFull], highWatermark := true }
  else s

def enqueue (data : Bytes) : OutConn := (((s.makeBuffer.overflowed c).append data).notifyFull c).wantWrite

/-- from `_buffer_send` on, for data -/
def bufferSend (data : Bytes) : Option (Int × OutConn) :=
  -- `return false`, which is `OSW_OK`
  if s.peerClosed then some (0, s.makeBuffer)
  else if data = [] then none
  else some (0, s.enqueue c data)

/-- data: what the kernel does not take at once is queued -/
def sendData (data : Bytes) (answers : List Answer) : Option (Int × OutConn) :=
  if s.queueEmpty && s.directSend then
    match (answer data.length answers).1 with
    | .bytes k =>
      if k = data.length then some (0, s.takeBytes data)
      else (s.takeBytes (data.take k)).bufferSend c (data.drop k)
    | .error _ => s.bufferSend c data
  else s.bufferSend c data

end

def sendClose (s : OutConn) : OutConn :=
  if s.closeReset || s.closeForce || s.peerClosed then s.release
  else if s.queueEmpty then s.release
  else { s.alloc .close with closeQueued := true }.wantWrite

/-- `OSW_SERVER_EVENT_SEND_FILE`; `return false` is `OSW_OK` -/
def sendFile (s : OutConn) (file : FileState) (offset : Int) (length : Nat) : OutConn :=
  let s := if s.queueEmpty then s.makeBuffer else s
  let r := s.sendfile file offset length
  if r.1 < 0 then r.2 else r.2.wantWrite

/-- `Server::send_to_connection` behind its checks of the connection -/
def handleRequest (c : OutConfig) (s : OutConn) (answers : List Answer) : SendRequest → Option (Int × OutConn)
  | .data bytes => s.sendData c bytes answers
  | .sendfile file offset length => some (0, s.sendFile file offset length)
  | .close => some (0, s.sendClose)
  | .pauseRecv => some s.pauseRecv
  | .resumeRecv => some s.resumeRecv

def sendToConnection (c : OutConfig) (s : OutConn) (req : SendRequest) (answers : List Answer) :
    Option (Int × OutConn) :=
  if s.active = false then some (-1, s)
  else if c.base && s.overflow then some (-1, s)
  else s.handleRequest c answers req

/-! ## the writable callback -/

/-- the flags behind the loop of `ReactorThread_onWrite` -/
def lowered (c : OutConfig) (s : OutConn) : OutConn :=
  let s := { s with overflow := s.overflow && !decide (s.queueLength < s.bufferSize) }
  if c.onBufferEmpty && s.highWatermark && decide (s.queueLength ≤ c.bufferLowWatermark) then
    { s with highWatermark := false, notified := s.notified ++ [.bufferEmpty] }
  else s

def unwatch (s : OutConn) : OutConn :=
  if !s.peerClosed && !s.reg.removed && s.queueEmpty then { s with reg := (s.reg.set ⟨true, false⟩).2 } else s

def flushed (c : OutConfig) (s : OutConn) (r : Flush × FlushEnd) : Bool × OutConn :=
  let s := { s with wire := r.1.wire, outBuffer := some r.1.queue }
  match r.2 with
  | .stopped => (false, (s.lowered c).unwatch)
  | .closeChunk => (false, s.release)
  | .closeEvent => (true, s)

/-- `ReactorThread_onWrite`; the first component tells that the close event is triggered -/
def onWrite (c : OutConfig) (s : OutConn) (answers : List Answer) : Option (Bool × OutConn) :=
  if s.active = false then some (false, s)
  else if c.disableNotify && s.closeForce then some (false, s.release)
  else
    match s.outBuffer with
    | none => some (false, (s.lowered c).unwatch)
    | some q => (flush ⟨s.wire, q, answers⟩).map (s.flushed c)

end OutConn

end OSW
