import Mathlib.Algebra.GroupWithZero.Nat
import OpenSwoole.Server.Sessions

/-!
# Closing a session

`ProcessFactory::end`, `finish` and `dispatch` of `src/server/process.cc`, run by the workers, and the
reactor's side of it: `ReactorThread_onClose`, `ReactorThread_onPipeRead` and `ReactorThread_onWrite` of
`src/server/reactor_thread.cc`, `Server::send_to_connection` and `Server::get_timeout_callback` of
`src/server/master.cc`.  `connection_list` is shared memory: `end` keeps the address of the connection
over the callback, and the reactor may clear the connection, and put a new one there, in between.  A
call of `end` is cut before `closing` is set, before the callback returns and before `finish`, so that
anything may happen there; `calls` are the calls under way, one for each thread.

Packets of different processes come in any order.  What the kernel and the user's `dispatch_func` answer
is part of a step.  An `epoll_ctl` that takes a socket out of the reactor succeeds.  Responses over stream
sockets and TLS are left out; data packets are their lengths.

* `Closing.begin`, `enter`, `leave`, `finish`   the parts of `end`;
* `Closing.step`   one step of a worker, of the reactor or of the heartbeat thread.
-/

namespace OSW
open Function

/-- packets to a reactor thread; the types are `OSW_SERVER_EVENT_RECV_DATA`, `_CLOSE`, `_CLOSE_FORCE` -/
inductive ClosePacket where
  | data (id : Int) (len : Nat)
  | close (id : Int)
  | closeForce (id : Int)
  deriving DecidableEq

/-- chunks of an output queue: bytes, of which those before `offset` are sent, or `BufferChunk::TYPE_CLOSE` -/
inductive OutChunk where
  | data (len offset : Nat)
  | close
  deriving DecidableEq

def OutChunk.len : OutChunk → Nat
  | .data len _ => len
  | .close => 0

/-- the fields `removed` and `out_buffer` of a socket -/
structure SessionSocket where
  removed : Bool := true
  outBuffer : List OutChunk := []

/-- `Buffer::length()`: a chunk counts in full until it is popped -/
def SessionSocket.queued (k : SessionSocket) : Nat := (k.outBuffer.map OutChunk.len).sum

inductive EndPhase where
  | decided
  | calling
  | marked
  deriving DecidableEq

/-- a call of `end` with its local variables `session_id` and `conn` -/
structure EndCall where
  id : Int
  conn : Nat
  phase : EndPhase

structure CloseConfig where
  maxConnection : Nat
  workerNum : Nat
  hashDispatch : Bool
  disableNotify : Bool
  bufferSize : Nat
  outputBufferSize : Nat

structure Closing where
  tables : SessionTables
  sockets : Nat → SessionSocket
  toReactor : List ClosePacket
  toWorker : List (Nat × Int)
  calls : Nat → Option EndCall
  /-- the sessions whose `onClose` callback was called -/
  callbacks : List Int

namespace Closing

def start (first : Int) : Closing := ⟨.new first 0 0, fun _ => {}, [], [], fun _ => none, []⟩

def conn (s : Closing) (fd : Nat) : Connection := s.tables.connectionList fd

def setConn (s : Closing) (fd : Nat) (conn : Connection) : Closing :=
  { s with tables := s.tables.setConnection fd conn }

def setSocket (s : Closing) (fd : Nat) (socket : SessionSocket) : Closing :=
  { s with sockets := update s.sockets fd socket }

def setCall (s : Closing) (thread : Nat) (call : Option EndCall) : Closing :=
  { s with calls := update s.calls thread call }

variable (c : CloseConfig)

def verify (s : Closing) (id : Int) : Option Nat := s.tables.getConnectionVerify c.maxConnection id

/-! ## the reactor -/

/-- `Server::close_connection`; `Reactor::_close` frees the socket -/
def release (fd : Nat) (s : Closing) : Closing :=
  { s with tables := s.tables.closeConnection c.maxConnection fd }.setSocket fd {}

section
variable (fd : Nat) (target : Option Nat) (s : Closing)

/-- `ProcessFactory::dispatch` of a close event; `target` is the answer of `schedule_worker` -/
def dispatchClose : Closing :=
  match target with
  | none => s
  | some worker =>
    if (s.conn fd).active = false then s
    -- server active close, discard data
    else if (s.conn fd).closed && !(s.conn fd).closeForce then s
    else { s with toWorker := s.toWorker ++ [(worker, (s.conn fd).sessionId)] }

def onClose : Closing :=
  if (s.conn fd).active = false then s
  else if c.disableNotify then s.release c fd
  -- `reactor->del` fails for a socket that was taken out before
  else if (s.sockets fd).removed then s
  else
    let s := s.setSocket fd { s.sockets fd with removed := true }
    if (s.conn fd).closeQueued then s.release c fd
    else (s.setConn fd { s.conn fd with peerClosed := true }).dispatchClose fd target

/-- `close_force` is set and the close event triggered -/
def force : Closing := (s.setConn fd { s.conn fd with closeForce := true }).onClose c fd target

/-- the timer of `get_timeout_callback`, for a connection that was idle and is not protected -/
def timeout : Closing :=
  if (s.conn fd).active = false then s
  else if c.disableNotify || (s.conn fd).closed || (s.conn fd).closeForce then s.release c fd
  else s.force c fd target

end

/-- `OSW_SERVER_EVENT_CLOSE_FORCE` in `ReactorThread_onPipeRead` -/
def closeForced (id : Int) (target : Option Nat) (s : Closing) : Closing :=
  match s.verify c id with
  | none => s
  | some fd =>
    if c.disableNotify || (s.conn fd).closeForce then s.release c fd
    else s.force c fd target

/-- the buffered part of `send_to_connection` for data -/
def appendData (fd len : Nat) (s : Closing) : Closing :=
  if (s.conn fd).peerClosed then s
  else
    let full := c.bufferSize ≤ (s.sockets fd).queued
    (s.setConn fd { s.conn fd with overflow := (s.conn fd).overflow || full }).setSocket fd
      { s.sockets fd with outBuffer := (s.sockets fd).outBuffer ++ [.data len 0] }

/-- `Server::send_to_connection` of data; `sent` bytes are taken by a direct send -/
def sendData (id : Int) (len sent : Nat) (s : Closing) : Closing :=
  match s.verify c id with
  | none => s
  | some fd =>
    if (s.sockets fd).outBuffer = [] then
      if len ≤ sent then s else s.appendData c fd (len - sent)
    else s.appendData c fd len

/-- `Server::send_to_connection` of `OSW_SERVER_EVENT_CLOSE` -/
def sendClose (id : Int) (s : Closing) : Closing :=
  match s.verify c id with
  | none => s
  | some fd =>
    if (s.conn fd).closeReset || (s.conn fd).closeForce || (s.conn fd).peerClosed then s.release c fd
    else if (s.sockets fd).outBuffer = [] then s.release c fd
    else
      (s.setConn fd { s.conn fd with closeQueued := true }).setSocket fd
        { s.sockets fd with outBuffer := (s.sockets fd).outBuffer ++ [.close] }

def receive (packet : ClosePacket) (sent : Nat) (target : Option Nat) (s : Closing) : Closing :=
  match packet with
  | .data id len => s.sendData c id len sent
  | .close id => s.sendClose c id
  | .closeForce id => s.closeForced c id target

/-- one turn of the loop of `ReactorThread_onWrite`; `sent` is what the kernel takes of the chunk,
`none` an error that closes the connection -/
def onWrite (fd : Nat) (sent : Option Nat) (target : Option Nat) (s : Closing) : Closing :=
  if (s.conn fd).active = false then s
  else if c.disableNotify && (s.conn fd).closeForce then s.release c fd
  else
    match (s.sockets fd).outBuffer with
    | [] => s
    | .close :: _ => s.release c fd
    | .data len offset :: rest =>
      match sent with
      | none => s.onClose c fd target
      | some n =>
        s.setSocket fd { s.sockets fd with
          outBuffer := if len ≤ offset + n then rest else .data len (offset + n) :: rest }

/-- the end of `ReactorThread_onWrite` -/
def written (fd : Nat) (s : Closing) : Closing :=
  if (s.conn fd).active && decide ((s.sockets fd).queued < c.bufferSize) then
    s.setConn fd { s.conn fd with overflow := false }
  else s

/-! ## the workers -/

/-- the label `_close` of `end`, up to the decision -/
def decideClose (thread : Nat) (id : Int) (fd : Nat) (s : Closing) : Closing :=
  if (s.conn fd).closeForce then s.setCall thread (some ⟨id, fd, .decided⟩)
  else if (s.conn fd).closing then s
  else if (s.conn fd).closed then s
  else s.setCall thread (some ⟨id, fd, .decided⟩)

/-- a call of `end` up to the decision; `self` is `none` for a process that is not a worker -/
def begin (thread : Nat) (self : Option Nat) (bound : Nat) (id : Int) (reset actively : Bool)
    (s : Closing) : Closing :=
  match s.verify c id with
  | none => s
  | some fd =>
    let s := s.setConn fd { s.conn fd with
      closeReset := (s.conn fd).closeReset || reset
      closeActively := (s.conn fd).closeActively || actively }
    if (s.conn fd).closeActively then
      if c.hashDispatch then
        if self ≠ some bound then { s with toWorker := s.toWorker ++ [(bound, id)] }
        else s.decideClose thread id fd
      else if self = none then { s with toWorker := s.toWorker ++ [(fd % c.workerNum, id)] }
      else s.decideClose thread id fd
    else s.decideClose thread id fd

/-- `closing = 1` and the callback -/
def enter (thread : Nat) (call : EndCall) (s : Closing) : Closing :=
  { (s.setConn call.conn { s.conn call.conn with closing := true }).setCall thread
      (some { call with phase := .calling }) with callbacks := s.callbacks ++ [call.id] }

def leave (thread : Nat) (call : EndCall) (s : Closing) : Closing :=
  (s.setConn call.conn { s.conn call.conn with closing := false, closed := true }).setCall thread
    (some { call with phase := .marked })

/-- `ProcessFactory::finish` of the close packet -/
def finishClose (id : Int) (s : Closing) : Closing :=
  match s.verify c id with
  | none => s
  | some fd => if (s.conn fd).overflow then s else { s with toReactor := s.toReactor ++ [.close id] }

/-- `ProcessFactory::finish` of data -/
def finishData (id : Int) (len : Nat) (s : Closing) : Closing :=
  if len > c.outputBufferSize then s
  else
    match s.verify c id with
    | none => s
    | some fd =>
      if (s.conn fd).closed || (s.conn fd).peerClosed then s
      else if (s.conn fd).overflow then s
      else { s with toReactor := s.toReactor ++ [.data id len] }

end Closing

/-! ## steps -/

inductive CloseAct where
  /-- the kernel gives a descriptor to a new connection -/
  | accept (fd : Nat)
  /-- the socket is put into the reactor or taken out: incoming connections, pause and resume -/
  | register (fd : Nat) (removed : Bool)
  /-- the peer closes, or an error is found on the socket -/
  | peer (fd : Nat) (target : Option Nat)
  | timeout (fd : Nat) (target : Option Nat)
  /-- the heartbeat thread sends `OSW_SERVER_EVENT_CLOSE_FORCE` -/
  | heartbeat (fd : Nat)
  | receive (i : Nat) (sent : Nat) (target : Option Nat)
  | write (fd : Nat) (sent : Option Nat) (target : Option Nat)
  | written (fd : Nat)
  /-- `Server::close` -/
  | close (thread : Nat) (self : Option Nat) (bound : Nat) (id : Int) (reset : Bool)
  /-- a worker takes a close event -/
  | take (i thread bound : Nat)
  /-- `heartbeat(true)` of a worker, before it closes the session -/
  | mark (fd : Nat)
  | enter (thread : Nat)
  | leave (thread : Nat)
  | finish (thread : Nat)
  | send (id : Int) (len : Nat)

namespace Closing

variable (c : CloseConfig)

def accept (fd : Nat) (s : Closing) : Option Closing :=
  if 1 ≤ fd ∧ fd < c.maxConnection ∧ (s.conn fd).active = false then
    some ({ s with tables := (s.tables.addConnection c.maxConnection fd).2 }.setSocket fd {})
  else none

def callIn (s : Closing) (thread : Nat) (phase : EndPhase) : Option EndCall :=
  (s.calls thread).filter fun call => call.phase = phase

def step (a : CloseAct) (s : Closing) : Option Closing :=
  match a with
  | .accept fd => s.accept c fd
  | .register fd removed =>
    if (s.conn fd).active then some (s.setSocket fd { s.sockets fd with removed := removed }) else none
  | .peer fd target => some (s.onClose c fd target)
  | .timeout fd target => some (s.timeout c fd target)
  | .heartbeat fd =>
    if (s.conn fd).active then
      some { s with toReactor := s.toReactor ++ [.closeForce (s.conn fd).sessionId] }
    else none
  | .receive i sent target =>
    s.toReactor[i]?.map fun packet =>
      { s with toReactor := s.toReactor.eraseIdx i }.receive c packet sent target
  | .write fd sent target => some (s.onWrite c fd sent target)
  | .written fd => some (s.written c fd)
  | .close thread self bound id reset =>
    if s.calls thread = none then some (s.begin c thread self bound id reset true) else none
  | .take i thread bound =>
    if s.calls thread = none then
      s.toWorker[i]?.map fun event =>
        { s with toWorker := s.toWorker.eraseIdx i }.begin c thread (some event.1) bound event.2 false false
    else none
  | .mark fd =>
    if (s.conn fd).active then some (s.setConn fd { s.conn fd with closeForce := true }) else none
  | .enter thread => (s.callIn thread .decided).map fun call => s.enter thread call
  | .leave thread => (s.callIn thread .calling).map fun call => s.leave thread call
  | .finish thread =>
    (s.callIn thread .marked).map fun call => (s.setCall thread none).finishClose c call.id
  | .send id len => some (s.finishData c id len)

end Closing

end OSW
