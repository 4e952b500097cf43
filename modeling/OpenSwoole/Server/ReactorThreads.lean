import Mathlib.Algebra.Group.Nat.Defs
import OpenSwoole.Lib.Machine

/-!
# The reactor thread that owns a connection

In process mode a descriptor belongs to the reactor thread `fd % reactor_num`.  Three places compute with
that: `Server::add_connection` of `src/server/master.cc` stores the number of the thread,
`get_reactor_thread_pipe` of `include/openswoole_server.h` picks the pipe of a worker for a message to
the thread, and `ReactorThread_init` of `src/server/reactor_thread.cc` decides which pipes a thread
reads.  The handlers of the threads assert that they are the owner.

The variables have the widths of the source: `reactor_pipe_num` and the parameter of `get_worker` are
`uint16_t`, and a `ReactorId` is a `uint8_t`.  What the handlers do with a socket besides their
assertions is an input of the run.  Ids of sessions are given out in increasing order.

* `OwnerRun.step`   accepting, sending to a thread and the handlers of the threads.
-/

namespace OSW
open Function List Option Machine

/-! ## numbers of workers and threads -/

structure ThreadNums where
  workerNum : Nat
  reactorNum : Nat
  /-- task workers and user workers, which are numbered after the event workers -/
  otherNum : Nat
  one_le : 1 ≤ reactorNum
  le : reactorNum ≤ workerNum

namespace ThreadNums

section
variable (c : ThreadNums)

/-- `create_reactor_threads`; a `uint16_t` -/
def reactorPipeNum : Nat := c.workerNum / c.reactorNum % 2^16

/-- `get_worker`; the number is passed as a `uint16_t` -/
def getWorker (workerId : Nat) : Option Nat :=
  if workerId % 2^16 < c.workerNum + c.otherNum then some (workerId % 2^16) else none

/-- the worker whose pipe is taken; `none` is a division by zero or a null pointer -/
def getReactorThreadPipe (sessionId reactorId : Nat) : Option Nat :=
  if c.reactorPipeNum = 0 then none
  else
    let pipeIndex := sessionId % c.reactorPipeNum
    c.getWorker (reactorId + pipeIndex * c.reactorNum)

/-- the reactor id that `add_connection` stores; a `uint8_t` -/
def reactorId (fd : Nat) : Nat := fd % c.reactorNum % 2^8

/-- a `ReactorId` is large enough, `reactor_pipe_num` is not 0, and the numbers that `get_worker` is given fit a
`uint16_t`, or keep their thread when they are cut -/
def Fits : Prop :=
  c.reactorNum ≤ 2^8 ∧ c.reactorPipeNum ≠ 0 ∧ (c.reactorNum * c.reactorPipeNum ≤ 2^16 ∨ c.reactorNum ∣ 2^16)

end

instance (c : ThreadNums) : Decidable c.Fits := inferInstanceAs (Decidable (_ ∧ _))

end ThreadNums

/-- the pipes in the reactor of a thread, by their workers -/
structure ReactorThread where
  pipes : List Nat := []
  notifyPipe : Option Nat := none
  pipeNum : Nat := 0

/-- the body of the loop over the workers in `ReactorThread_init` -/
def ThreadNums.addPipe (c : ThreadNums) (reactorId : Nat) (thread : ReactorThread) (i : Nat) : ReactorThread :=
  if i % c.reactorNum ≠ reactorId then thread
  else
    { pipes := thread.pipes ++ [i]
      notifyPipe := if thread.notifyPipe = none then some i else thread.notifyPipe
      pipeNum := thread.pipeNum + 1 }

def ThreadNums.reactorThreadInit (c : ThreadNums) (reactorId : Nat) : ReactorThread :=
  (range c.workerNum).foldl (c.addPipe reactorId) {}

section
variable (c : ThreadNums)

lemma ThreadNums.foldl_addPipe (reactorId : Nat) (l : List Nat) (thread : ReactorThread) :
    (l.foldl (c.addPipe reactorId) thread).pipes =
      thread.pipes ++ l.filter fun i => i % c.reactorNum = reactorId := by
  induction l generalizing thread with
  | nil => exact (append_nil _).symm
  | cons i l ih =>
    rw [foldl_cons, ih, filter_cons, addPipe]
    by_cases hi : i % c.reactorNum = reactorId
    · rw [if_neg (not_not.2 hi), if_pos (decide_eq_true hi), append_assoc]
      rfl
    · rw [if_pos hi, if_neg (by simpa using hi)]

lemma ThreadNums.mem_pipes {reactorId i : Nat} :
    i ∈ (c.reactorThreadInit reactorId).pipes ↔ i < c.workerNum ∧ i % c.reactorNum = reactorId := by
  rw [reactorThreadInit, foldl_addPipe]
  rw [nil_append, mem_filter, mem_range, decide_eq_true_iff]

/-- the pipe that is taken belongs to a worker, and the thread reads it -/
def ThreadNums.RightPipes : Prop :=
  ∀ fd sessionId, ∃ i, c.getReactorThreadPipe sessionId (fd % c.reactorNum) = some i ∧ i < c.workerNum ∧
    i ∈ (c.reactorThreadInit (fd % c.reactorNum)).pipes

variable {c}

lemma ThreadNums.getReactorThreadPipe_eq (hpipes : c.reactorPipeNum ≠ 0) (sessionId reactorId : Nat) :
    c.getReactorThreadPipe sessionId reactorId =
      c.getWorker (reactorId + sessionId % c.reactorPipeNum * c.reactorNum) :=
  if_neg hpipes

lemma ThreadNums.Fits.rightPipes (h : c.Fits) : c.RightPipes := by
  obtain ⟨-, hpipes, hcut⟩ := h
  intro fd sessionId
  have hr : 0 < c.reactorNum := c.one_le
  have hround : sessionId % c.reactorPipeNum + 1 ≤ c.reactorPipeNum := Nat.mod_lt _ (Nat.pos_of_ne_zero hpipes)
  generalize hx : fd % c.reactorNum + sessionId % c.reactorPipeNum * c.reactorNum = x
  have hthread : x % c.reactorNum = fd % c.reactorNum := by
    rw [← hx, Nat.add_mul_mod_self_right, Nat.mod_mod]
  have hlt : x < c.reactorNum * c.reactorPipeNum :=
    calc x < (sessionId % c.reactorPipeNum + 1) * c.reactorNum := by
          rw [← hx, Nat.succ_mul, add_comm]
          exact Nat.add_lt_add_left (Nat.mod_lt _ hr) _
      _ ≤ c.reactorPipeNum * c.reactorNum := Nat.mul_le_mul_right _ hround
      _ = c.reactorNum * c.reactorPipeNum := Nat.mul_comm _ _
  -- there are `worker_num / reactor_num` whole rounds of pipes, or fewer
  have hworker : x < c.workerNum :=
    calc x < c.reactorNum * c.reactorPipeNum := hlt
      _ ≤ c.reactorNum * (c.workerNum / c.reactorNum) := Nat.mul_le_mul_left _ (Nat.mod_le _ _)
      _ ≤ c.workerNum := Nat.mul_div_le _ _
  have hcutLt : x % 2^16 < c.workerNum := Nat.lt_of_le_of_lt (Nat.mod_le _ _) hworker
  refine ⟨x % 2^16, ?_, hcutLt, c.mem_pipes.2 ⟨hcutLt, ?_⟩⟩
  · rw [getReactorThreadPipe_eq hpipes, hx, getWorker, if_pos (by omega)]
  · rcases hcut with hle | hdvd
    · rw [Nat.mod_eq_of_lt (Nat.lt_of_lt_of_le hlt hle), hthread]
    · rw [Nat.mod_mod_of_dvd _ hdvd, hthread]

/-- the number `2^16` is cut to 0, which is of another thread -/
lemma ThreadNums.RightPipes.fits (h : c.RightPipes) :
    c.reactorPipeNum ≠ 0 ∧ (c.reactorNum * c.reactorPipeNum ≤ 2^16 ∨ c.reactorNum ∣ 2^16) := by
  have hpipes : c.reactorPipeNum ≠ 0 := by
    intro hzero
    obtain ⟨i, hi, -⟩ := h 0 0
    rw [getReactorThreadPipe, if_pos hzero] at hi
    cases hi
  refine ⟨hpipes, or_iff_not_imp_left.2 fun hmany => ?_⟩
  have hround : 2^16 / c.reactorNum < c.reactorPipeNum := Nat.div_lt_of_lt_mul (not_le.1 hmany)
  obtain ⟨i, hi, -, hmem⟩ := h (2^16) (2^16 / c.reactorNum)
  rw [getReactorThreadPipe_eq hpipes, Nat.mod_eq_of_lt hround, mul_comm, Nat.mod_add_div] at hi
  obtain ⟨-, hi⟩ := ite_none_right_eq_some.1 hi
  have hthread := (c.mem_pipes.1 hmem).2
  rw [← some.inj hi, Nat.mod_self, Nat.zero_mod] at hthread
  exact Nat.dvd_of_mod_eq_zero hthread.symm

end

/-! ## runs -/

/-- `OSW_SERVER_EVENT_INCOMING`, `OSW_SERVER_EVENT_CLOSE_FORCE`, and what goes to `send_to_connection` -/
inductive ThreadMsg where
  | incoming (id : Nat)
  | closeForce (id : Nat)
  | response (id : Nat)

def ThreadMsg.session : ThreadMsg → Nat
  | .incoming id | .closeForce id | .response id => id

/-- what a handler does with the socket: nothing, put it into the reactor, take it out, or
`Server::close_connection` -/
inductive SocketUse where
  | keep
  | watch
  | unwatch
  | close
  deriving DecidableEq

structure OwnedConn where
  sessionId : Nat
  reactorId : Nat

/-- `failed` is a record: an assertion has failed, or there was no pipe for a message -/
structure OwnerRun where
  sessionRound : Nat
  conn : Nat → Option OwnedConn
  /-- `session->fd` -/
  sessionFd : Nat → Option Nat
  pipes : Nat → List ThreadMsg
  watched : Nat → List Nat
  failed : Bool

inductive OwnerEvent where
  /-- the master accepts a connection, which gets a session id -/
  | accept (fd id : Nat)
  /-- a worker, or the heartbeat thread, sends to the session `id` -/
  | send (msg : ThreadMsg)
  /-- a thread reads from the pipe of a worker -/
  | read (thread worker : Nat) (use : SocketUse)
  /-- `ReactorThread_onWrite` or `ReactorThread_onClose` -/
  | ready (thread fd : Nat) (use : SocketUse)

namespace OwnerRun

def start : OwnerRun where
  sessionRound := 0
  conn := fun _ => none
  sessionFd := fun _ => none
  pipes := fun _ => []
  watched := fun _ => []
  failed := false

variable (c : ThreadNums)

section
variable (s : OwnerRun)

def push (reactorId : Nat) (msg : ThreadMsg) : OwnerRun :=
  match c.getReactorThreadPipe msg.session reactorId with
  | none => { s with failed := true }
  | some i => { s with pipes := update s.pipes i (s.pipes i ++ [msg]) }

def lookup (id : Nat) : Option (Nat × OwnedConn) := do
  let fd ← s.sessionFd id
  let conn ← s.conn fd
  if conn.sessionId = id then some (fd, conn) else none

def accept (fd id : Nat) : OwnerRun :=
  let conn : OwnedConn := ⟨id, c.reactorId fd⟩
  let s := { s with
    sessionRound := id
    conn := update s.conn fd (some conn)
    sessionFd := update s.sessionFd id (some fd)
    watched := update s.watched fd [] }
  s.push c conn.reactorId (.incoming id)

def useSocket (thread fd : Nat) : SocketUse → OwnerRun
  | .keep => s
  | .watch => { s with watched := update s.watched fd (thread :: s.watched fd) }
  | .unwatch => { s with watched := update s.watched fd ((s.watched fd).filter (· ≠ thread)) }
  | .close =>
    { s with
      conn := update s.conn fd none
      sessionFd := fun id => if s.sessionFd id = some fd then none else s.sessionFd id
      watched := update s.watched fd [] }

/-- `assert(fd % serv->reactor_num == reactor->id)`, and then the rest of the handler -/
def owned (thread fd : Nat) (use : SocketUse) : OwnerRun :=
  if fd % c.reactorNum = thread then s.useSocket thread fd use else { s with failed := true }

/-- `ReactorThread_onPipeRead`; a connection that is closed by force without a notification is not
asserted to be owned -/
def onPipeRead (thread : Nat) (use : SocketUse) (msg : ThreadMsg) : OwnerRun :=
  match s.lookup msg.session, msg with
  | none, _ => s
  | some (fd, _), .incoming _ => s.useSocket thread fd use
  | some (fd, _), .closeForce _ => if use = .close then s.useSocket thread fd use else s.owned c thread fd use
  | some (fd, _), .response _ => s.owned c thread fd use

end

def step : OwnerEvent → OwnerRun → Option OwnerRun
  | .accept fd id, s => if s.conn fd = none ∧ s.sessionRound < id then some (s.accept c fd id) else none
  | .send msg, s =>
    match s.lookup msg.session with
    | none => some s
    | some (_, conn) => some (s.push c conn.reactorId msg)
  | .read thread worker use, s =>
    match s.pipes worker with
    | [] => none
    | msg :: rest =>
      if thread < c.reactorNum ∧ worker ∈ (c.reactorThreadInit thread).pipes then
        some ({ s with pipes := update s.pipes worker rest }.onPipeRead c thread use msg)
      else none
  | .ready thread fd use, s => if thread ∈ s.watched fd then some (s.owned c thread fd use) else none

/-- a message may stand in the pipe of the worker `i` -/
def InPipe (s : OwnerRun) (i : Nat) (msg : ThreadMsg) : Prop :=
  msg.session ≤ s.sessionRound ∧
    ∀ fd, s.sessionFd msg.session = some fd → i % c.reactorNum = fd % c.reactorNum

/-- everything about a descriptor is in the thread that owns it -/
structure Owned (s : OwnerRun) : Prop where
  failed : s.failed = false
  conn : ∀ fd conn, s.conn fd = some conn → conn.reactorId = fd % c.reactorNum
  session : ∀ id fd, s.sessionFd id = some fd → id ≤ s.sessionRound
  pipes : ∀ i, ∀ msg ∈ s.pipes i, s.InPipe c i msg
  watched : ∀ fd, ∀ thread ∈ s.watched fd, thread = fd % c.reactorNum

variable {c} {s s' : OwnerRun}

variable {id fd thread : Nat} {msg : ThreadMsg}

lemma lookup_eq {conn : OwnedConn} (h : s.lookup id = some (fd, conn)) :
    s.sessionFd id = some fd ∧ s.conn fd = some conn := by
  obtain ⟨fd', hfd, h⟩ := bind_eq_some_iff.1 h
  obtain ⟨conn', hconn, h⟩ := bind_eq_some_iff.1 h
  obtain ⟨-, h⟩ := ite_none_right_eq_some.1 h
  obtain ⟨rfl, rfl⟩ := Prod.mk.inj (some.inj h)
  exact ⟨hfd, hconn⟩

section
variable (h : s.Owned c)
include h

lemma Owned.setPipe {i : Nat} {l : List ThreadMsg} (hl : ∀ msg ∈ l, s.InPipe c i msg) :
    { s with pipes := update s.pipes i l }.Owned c :=
  { h with
    pipes := (forall_update_iff s.pipes fun j l => ∀ msg ∈ l, s.InPipe c j msg).2 ⟨hl, fun j _ => h.pipes j⟩ }

lemma Owned.setWatched {l : List Nat} (hl : ∀ thread ∈ l, thread = fd % c.reactorNum) :
    { s with watched := update s.watched fd l }.Owned c :=
  { h with
      watched := (forall_update_iff s.watched fun fd l => ∀ thread ∈ l, thread = fd % c.reactorNum).2
        ⟨hl, fun fd _ => h.watched fd⟩ }

lemma Owned.push (hc : c.Fits) (hfd : s.sessionFd msg.session = some fd) :
    (s.push c (fd % c.reactorNum) msg).Owned c := by
  obtain ⟨i, hi, -, hmem⟩ := hc.rightPipes fd msg.session
  unfold OwnerRun.push
  rw [hi]
  refine h.setPipe fun m hm => ?_
  rcases mem_append.1 hm with hm | hm
  · exact h.pipes i m hm
  · obtain rfl := mem_singleton.1 hm
    refine ⟨h.session _ _ hfd, fun fd' hfd' => ?_⟩
    rw [(c.mem_pipes.1 hmem).2, some.inj (hfd.symm.trans hfd')]

lemma Owned.close (thread fd : Nat) : (s.useSocket thread fd .close).Owned c := by
  have hleft : ∀ id fd', (if s.sessionFd id = some fd then none else s.sessionFd id) = some fd' →
      s.sessionFd id = some fd' := by
    intro id fd' he
    split at he
    · cases he
    · exact he
  refine Owned.setWatched (s := { s with
      conn := update s.conn fd none
      sessionFd := fun id => if s.sessionFd id = some fd then none else s.sessionFd id })
    ⟨h.failed, ?_, fun id fd' he => h.session id fd' (hleft id fd' he),
      fun i m hm => ⟨(h.pipes i m hm).1, fun fd' he => (h.pipes i m hm).2 fd' (hleft _ fd' he)⟩, h.watched⟩
    nofun
  exact (forall_update_iff s.conn fun fd x => ∀ conn, x = some conn → conn.reactorId = fd % c.reactorNum).2
    ⟨fun conn he => absurd he.symm (some_ne_none _), fun fd _ => h.conn fd⟩

lemma Owned.useSocket (hown : thread = fd % c.reactorNum) (use : SocketUse) :
    (s.useSocket thread fd use).Owned c := by
  cases use with
  | keep => exact h
  | watch =>
    refine h.setWatched fun t ht => ?_
    rcases mem_cons.1 ht with ht | ht
    · exact ht.trans hown
    · exact h.watched fd t ht
  | unwatch => exact h.setWatched fun t ht => h.watched fd t (mem_filter.1 ht).1
  | close => exact h.close thread fd

lemma Owned.owned (hown : thread = fd % c.reactorNum) (use : SocketUse) : (s.owned c thread fd use).Owned c := by
  rw [OwnerRun.owned, if_pos hown.symm]
  exact h.useSocket hown use

lemma Owned.onPipeRead (hown : ∀ fd, s.sessionFd msg.session = some fd → thread = fd % c.reactorNum)
    (use : SocketUse) : (s.onPipeRead c thread use msg).Owned c := by
  unfold OwnerRun.onPipeRead
  split
  · exact h
  · next hl => exact h.useSocket (hown _ (lookup_eq hl).1) use
  · next hl =>
    split
    · exact h.useSocket (hown _ (lookup_eq hl).1) use
    · exact h.owned (hown _ (lookup_eq hl).1) use
  · next hl => exact h.owned (hown _ (lookup_eq hl).1) use

lemma Owned.accept (hc : c.Fits) (hid : s.sessionRound < id) : (s.accept c fd id).Owned c := by
  have hreactor : c.reactorId fd = fd % c.reactorNum :=
    Nat.mod_eq_of_lt (lt_of_lt_of_le (Nat.mod_lt _ c.one_le) hc.1)
  unfold OwnerRun.accept
  rw [hreactor]
  refine Owned.push (Owned.setWatched (s := { s with
      sessionRound := id
      conn := update s.conn fd (some ⟨id, fd % c.reactorNum⟩)
      sessionFd := update s.sessionFd id (some fd) })
    ⟨h.failed, ?_, ?_, fun i m hm => ?_, h.watched⟩ fun _ ht => absurd ht not_mem_nil) hc (update_self ..)
  · exact (forall_update_iff s.conn fun fd x => ∀ conn, x = some conn → conn.reactorId = fd % c.reactorNum).2
      ⟨fun conn he => some.inj he ▸ rfl, fun fd _ => h.conn fd⟩
  · exact (forall_update_iff s.sessionFd fun id' x => ∀ fd, x = some fd → id' ≤ id).2
      ⟨fun _ _ => le_rfl, fun id' _ fd' he =>
        le_of_lt (lt_of_le_of_lt (h.session id' fd' he) hid)⟩
  · obtain ⟨hle, hown⟩ := h.pipes i m hm
    have hlt : m.session < id := lt_of_le_of_lt hle hid
    refine ⟨le_of_lt hlt, fun fd' he => hown fd' ?_⟩
    exact (update_of_ne (ne_of_lt hlt) (some fd) s.sessionFd).symm.trans he

end

lemma Owned.step (hc : c.Fits) (e : OwnerEvent) (s s' : OwnerRun) (h : s.Owned c) (he : step c e s = some s') :
    s'.Owned c := by
  cases e with
  | accept fd id =>
    obtain ⟨⟨-, hid⟩, he⟩ := ite_none_right_eq_some.1 he
    exact some.inj he ▸ h.accept hc hid
  | send msg =>
    dsimp only [OwnerRun.step] at he
    split at he
    · exact some.inj he ▸ h
    · next fd conn hl =>
      obtain ⟨hfd, hconn⟩ := lookup_eq hl
      rw [← some.inj he, h.conn fd conn hconn]
      exact h.push hc hfd
  | read thread worker use =>
    dsimp only [OwnerRun.step] at he
    split at he
    · cases he
    · next msg rest hp =>
      obtain ⟨⟨-, hmem⟩, he⟩ := ite_none_right_eq_some.1 he
      have hmsgs : ∀ m ∈ msg :: rest, s.InPipe c worker m := hp ▸ h.pipes worker
      cases he
      refine Owned.onPipeRead (h.setPipe fun m hm => hmsgs m (mem_cons_of_mem _ hm)) (fun fd hfd => ?_) use
      exact (c.mem_pipes.1 hmem).2.symm.trans ((hmsgs msg mem_cons_self).2 fd hfd)
  | ready thread fd use =>
    obtain ⟨hmem, rfl⟩ := ite_some_none_eq_some.1 he
    exact h.owned (h.watched fd thread hmem) use

end OwnerRun

end OSW
