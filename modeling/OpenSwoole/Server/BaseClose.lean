import OpenSwoole.Server.SendSteps

/-!
# Closing a connection in BASE mode

`ReactorProcess_onClose` and `ReactorProcess_onTimeout` of `src/server/reactor_process.cc`,
`BaseFactory::notify` and `BaseFactory::end` of `src/server/base.cc`, and the method `heartbeat` of
`ext-src/openswoole_server.cc`, for one connection of the worker that owns it, with `onClose` set and without
TLS.  Everything happens in one thread, but the `onClose` callback is code of the user and may send, pause,
resume and close itself, so `end` is cut in two where it calls it.

The callbacks for full and empty buffers do nothing.

* `BaseConn.endSession`, `leave`   `BaseFactory::end` up to the callback, and behind it;
* `close_called_once`   **the callback is called once before the connection is released**, when no
    heartbeat timeout comes before it while the socket is out of the reactor, the callback of a timeout
    does not close the session, and `heartbeat` does not find the session closed.
-/

namespace OSW
open Option Machine List

structure BaseConn where
  conn : OutConn
  running : Nat
  calls : Nat

inductive BaseAct where
  /-- the peer closes the connection, or reading fails -/
  | peerClose
  | timeout
  | writable (answers : List Answer)
  | serverClose (reset : Bool)
  /-- the method `heartbeat`, for a connection without a heartbeat -/
  | heartbeat
  | request (req : SendRequest) (answers : List Answer)
  /-- the callback returns -/
  | leave

namespace BaseConn

def opened (bufferSize : Nat) (directSend : Bool) : BaseConn := ⟨.opened bufferSize directSend, 0, 0⟩

def release (s : BaseConn) : BaseConn := { s with conn := s.conn.release }

/-- `_do_close`: the callback is called -/
def enter (s : BaseConn) : BaseConn :=
  { conn := { s.conn with closing := true }, running := s.running + 1, calls := s.calls + 1 }

def endSession (reset : Bool) (s : BaseConn) : BaseConn :=
  if s.conn.active = false then s
  else
    let s := { s with conn := { s.conn with closeReset := s.conn.closeReset || reset } }
    if s.conn.closeForce then s.enter
    else if s.conn.closing then s
    else if s.conn.closed then s
    else s.enter

/-- `BaseFactory::end` behind the callback; the socket is gone where the connection was released in the meantime
-/
def leave (s : BaseConn) : BaseConn :=
  let s := { s with conn := { s.conn with closing := false, closed := true }, running := s.running - 1 }
  if s.conn.active = false then s
  else if s.conn.queueEmpty || s.conn.peerClosed || s.conn.closeForce then s.release
  else { s with conn := { s.conn.alloc .close with closeQueued := true } }

/-- `BaseFactory::notify` of the close event -/
def notifyClose (s : BaseConn) : BaseConn :=
  if s.conn.active = false then s else if s.conn.closed then s else s.endSession false

def onClose (s : BaseConn) : BaseConn :=
  if s.conn.active = false then s
  else if s.conn.reg.removed then s.release
  else if s.conn.reg.del.1 then
    let s := { s with conn := { s.conn with reg := s.conn.reg.del.2 } }
    if s.conn.closeQueued then s.release else s.notifyClose
  else s

/-- `ReactorProcess_onTimeout` for a connection without a heartbeat -/
def onTimeout (c : OutConfig) (s : BaseConn) : BaseConn :=
  if c.disableNotify || s.conn.closeForce then s.release
  else { s with conn := { s.conn with closeForce := true } }.onClose

/-- the method `heartbeat` that closes the connection -/
def heartbeat (s : BaseConn) : BaseConn := { s with conn := { s.conn with closeForce := true } }.endSession false

/-- events of the loop come between callbacks, and those of the reactor for sockets in it; the timer and the
method `heartbeat` look at active connections -/
def step (c : OutConfig) : BaseAct → BaseConn → Option BaseConn
  | .peerClose, s => if s.running = 0 ∧ s.conn.reg.removed = false then some s.onClose else none
  | .timeout, s => if s.running = 0 ∧ s.conn.active = true then some (s.onTimeout c) else none
  | .writable answers, s =>
    if s.running = 0 ∧ s.conn.reg.removed = false then
      (s.conn.onWrite c answers).map fun r =>
        if r.1 then { s with conn := r.2 }.onClose else { s with conn := r.2 }
    else none
  | .serverClose reset, s => some (s.endSession reset)
  | .heartbeat, s => if s.conn.active = true then some s.heartbeat else none
  | .request req answers, s =>
    if req = .close then none
    else (s.conn.sendToConnection c req answers).map fun r => { s with conn := r.2 }
  | .leave, s => if s.running = 0 then none else some s.leave

/-- no timeout before the callback while the socket is out of the reactor, no close in the callback of a timeout,
and `heartbeat` finds sessions that are not closed -/
def careful : BaseAct → BaseConn → Bool
  | .timeout, s => !s.conn.reg.removed || s.conn.closed
  | .serverClose _, s => s.running == 0 || !s.conn.closeForce
  | .heartbeat, s => !s.conn.closing && !s.conn.closed
  | _, _ => true

structure Shows (s : BaseConn) (closing closed queued : Bool) (running calls : Nat) : Prop where
  active : s.conn.active = true
  closing : s.conn.closing = closing
  closed : s.conn.closed = closed
  queued : s.conn.closeQueued = queued
  running : s.running = running
  calls : s.calls = calls

/-- before the callback, in it, with a request to close in the queue, and released -/
inductive Phase : BaseConn → Prop
  | fresh {s : BaseConn} (h : s.Shows false false false 0 0) (force : s.conn.closeForce = false)
      (noClose : .close ∉ s.conn.queue) : Phase s
  | calling {s : BaseConn} (h : s.Shows true false false 1 1) (noClose : .close ∉ s.conn.queue) : Phase s
  | queued {s : BaseConn} (h : s.Shows false true true 0 1) (force : s.conn.closeForce = false) : Phase s
  | released {s : BaseConn} (inactive : s.conn.active = false) (running : s.running = 0) (calls : s.calls = 1) :
      Phase s

variable {c : OutConfig} {s s' : BaseConn}

lemma Phase.congr (h : Phase s) {t : OutConn} (ha : t.active = s.conn.active) (hc : t.closing = s.conn.closing)
    (hd : t.closed = s.conn.closed) (hq : t.closeQueued = s.conn.closeQueued)
      (hf : t.closeForce = s.conn.closeForce)
    (hclose : .close ∈ t.queue ↔ .close ∈ s.conn.queue) : Phase { s with conn := t } := by
  have hshows : ∀ {closing closed queued running calls}, s.Shows closing closed queued running calls →
      Shows { s with conn := t } closing closed queued running calls := fun h =>
    ⟨ha.trans h.active, hc.trans h.closing, hd.trans h.closed, hq.trans h.queued, h.running, h.calls⟩
  cases h with
  | fresh h force noClose => exact .fresh (hshows h) (hf.trans force) (mt hclose.1 noClose)
  | calling h noClose => exact .calling (hshows h) (mt hclose.1 noClose)
  | queued h force => exact .queued (hshows h) (hf.trans force)
  | released inactive running calls => exact .released (ha.trans inactive) running calls

lemma Phase.of_same (h : Phase s) {t : OutConn} (hsame : OutConn.SameSocket s.conn t)
    (hclose : .close ∈ t.queue ↔ .close ∈ s.conn.queue) : Phase { s with conn := t } :=
  h.congr hsame.active hsame.closing hsame.closed hsame.closeQueued hsame.closeForce hclose

lemma Shows.endSession (h : s.Shows false false false 0 0) (noClose : .close ∉ s.conn.queue) (reset : Bool) :
    Phase (s.endSession reset) := by
  have henter : s.endSession reset =
      enter { s with conn := { s.conn with closeReset := s.conn.closeReset || reset } } := by
    simp only [BaseConn.endSession, h.active, h.closing, h.closed, Bool.true_eq_false,
      Bool.false_eq_true, if_false, ite_self]
  rw [henter]
  exact .calling ⟨h.active, rfl, h.closed, h.queued, congrArg (· + 1) h.running,
    congrArg (· + 1) h.calls⟩ noClose

lemma Phase.endSession (h : Phase s) (reset : Bool) (hcareful : careful (.serverClose reset) s = true) :
    Phase (s.endSession reset) := by
  have hstays : s.conn.active = true → s.conn.closeForce = false →
      (s.conn.closing = true ∨ s.conn.closed = true) → Phase (s.endSession reset) := by
    intro active force hclosing
    have hsame : s.endSession reset =
        { s with conn := { s.conn with closeReset := s.conn.closeReset || reset } } := by
      unfold BaseConn.endSession
      rw [if_neg (ne_false_of_eq_true active)]
      rw [if_neg (ne_true_of_eq_false force)]
      rcases hclosing with hc | hc
      · rw [if_pos hc]
      · rw [if_pos hc, ite_self]
    rw [hsame]
    exact h.congr rfl rfl rfl rfl rfl Iff.rfl
  cases h with
  | fresh h force noClose => exact h.endSession noClose reset
  | calling h noClose =>
    refine hstays h.active ?_ (.inl h.closing)
    simpa [careful, h.running] using hcareful
  | queued h force => exact hstays h.active force (.inr h.closed)
  | released inactive running calls =>
    unfold BaseConn.endSession
    rw [if_pos inactive]
    exact .released inactive running calls

lemma del_of_in (hin : s.conn.reg.removed = false) : s.conn.reg.del.1 = true := by
  unfold Registration.del
  rw [hin]
  rfl

lemma Shows.onClose (h : s.Shows false false false 0 0) (noClose : .close ∉ s.conn.queue)
    (hin : s.conn.reg.removed = false) : Phase s.onClose := by
  have hend : s.onClose = { s with conn := { s.conn with reg := s.conn.reg.del.2 } }.endSession false := by
    simp only [BaseConn.onClose, notifyClose, h.active, hin, del_of_in hin, h.queued,
      h.closed, Bool.true_eq_false, Bool.false_eq_true, if_false, if_true]
  rw [hend]
  apply Shows.endSession
  · exact ⟨h.active, h.closing, h.closed, h.queued, h.running, h.calls⟩
  · exact noClose

lemma Shows.released (h : s.Shows false true true 0 1) : Phase s.onClose := by
  have hrelease : s.onClose.conn.active = false ∧ s.onClose.running = s.running ∧ s.onClose.calls = s.calls := by
    unfold BaseConn.onClose
    rw [if_neg (ne_false_of_eq_true h.active)]
    cases hr : s.conn.reg.removed with
    | true => exact ⟨rfl, rfl, rfl⟩
    | false =>
      rw [if_neg Bool.false_ne_true, if_pos (del_of_in hr), if_pos h.queued]
      exact ⟨rfl, rfl, rfl⟩
  exact .released hrelease.1 (hrelease.2.1.trans h.running) (hrelease.2.2.trans h.calls)

section
variable (h : Phase s)
include h

lemma Phase.onClose (hrun : s.running = 0) (hin : s.conn.reg.removed = false) : Phase s.onClose := by
  cases h with
  | fresh h force noClose => exact h.onClose noClose hin
  | calling h noClose => cases hrun.symm.trans h.running
  | queued h force => exact h.released
  | released inactive running calls =>
    unfold BaseConn.onClose
    rw [if_pos inactive]
    exact .released inactive running calls

lemma Phase.onTimeout (hnotify : c.disableNotify = false) (hrun : s.running = 0)
    (hactive : s.conn.active = true) (hcareful : careful .timeout s = true) : Phase (s.onTimeout c) := by
  have hclose : s.conn.closeForce = false → s.onTimeout c = { s with conn.closeForce := true }.onClose := by
    intro force
    unfold BaseConn.onTimeout
    rw [hnotify, force, Bool.or_self, if_neg Bool.false_ne_true]
  cases h with
  | fresh h force noClose =>
    have hin : s.conn.reg.removed = false := by simpa [careful, h.closed] using hcareful
    rw [hclose force]
    exact Shows.onClose ⟨h.active, h.closing, h.closed, h.queued, h.running, h.calls⟩ noClose hin
  | calling h noClose => cases hrun.symm.trans h.running
  | queued h force =>
    rw [hclose force]
    exact Shows.released ⟨h.active, h.closing, h.closed, h.queued, h.running, h.calls⟩
  | released inactive running calls => cases inactive.symm.trans hactive

lemma Phase.heartbeat (hactive : s.conn.active = true) (hcareful : careful .heartbeat s = true) :
    Phase s.heartbeat := by
  simp only [careful, Bool.and_eq_true, Bool.not_eq_true'] at hcareful
  cases h with
  | fresh h force noClose =>
    apply Shows.endSession
    · exact ⟨h.active, h.closing, h.closed, h.queued, h.running, h.calls⟩
    · exact noClose
  | calling h noClose => cases hcareful.1.symm.trans h.closing
  | queued h force => cases hcareful.2.symm.trans h.closed
  | released inactive running calls => cases inactive.symm.trans hactive

lemma Phase.leave (hrun : s.running ≠ 0) : Phase s.leave := by
  cases h with
  | fresh h force noClose | queued h force => exact absurd h.running hrun
  | released inactive running calls => exact absurd running hrun
  | calling h noClose =>
    have hdone : s.running - 1 = 0 := by rw [h.running]
    unfold BaseConn.leave
    rw [if_neg (ne_false_of_eq_true h.active)]
    split
    · exact .released rfl hdone h.calls
    case isFalse hgo =>
      simp only [Bool.or_eq_true, not_or, Bool.not_eq_true] at hgo
      exact .queued ⟨h.active, rfl, rfl, rfl, hdone, h.calls⟩ hgo.2

lemma Phase.writes {answers : List Answer} {r : Bool × OutConn} (hrun : s.running = 0)
    (hin : s.conn.reg.removed = false) (hwrites : OutConn.Writes c s.conn answers r) :
    Phase (if r.1 then { s with conn := r.2 }.onClose else { s with conn := r.2 }) := by
  have hlower : ∀ t : OutConn, OutConn.SameSocket s.conn t → (.close ∈ t.queue ↔ .close ∈ s.conn.queue) →
      Phase { s with conn := (t.lowered c).unwatch } := by
    intro t hsame hclose
    obtain ⟨hsame₁, hbuffer₁, -⟩ := OutConn.lowered_same c t
    obtain ⟨hsame₂, hbuffer₂, -⟩ := OutConn.unwatch_same (t.lowered c)
    refine h.of_same (hsame.trans (hsame₁.trans hsame₂)) ?_
    rw [OutConn.queue, hbuffer₂, hbuffer₁]
    exact hclose
  have hflush : ∀ {q f}, s.conn.outBuffer = some q → Flush.Keeps ⟨s.conn.wire, q, answers⟩ f →
      OutConn.SameSocket s.conn (s.conn.withFlush f) ∧
        (.close ∈ (s.conn.withFlush f).queue ↔ .close ∈ s.conn.queue) := by
    intro q f hq hk
    refine ⟨OutConn.withFlush_same .., ?_⟩
    rw [OutConn.queue, OutConn.queue, hq]
    exact hk.close
  cases hwrites with
  | idle hq => exact hlower s.conn (.refl _) Iff.rfl
  | stopped q f hq hk =>
    obtain ⟨hsame, hclose⟩ := hflush hq hk
    exact hlower _ hsame hclose
  | closed q f hq hk hhead =>
    obtain ⟨-, hclose⟩ := hflush hq hk
    obtain ⟨rest, hrest⟩ := head?_eq_some_iff.1 hhead
    have hmem : .close ∈ s.conn.queue :=
      hclose.1 (show .close ∈ f.queue.queue by rw [hrest]; exact mem_cons_self)
    -- a request to close is in the queue only behind the callback
    cases h with
    | fresh h force noClose | calling h noClose => exact absurd hmem noClose
    | queued h force => exact .released rfl h.running h.calls
    | released inactive running calls => exact .released rfl running calls
  | event q f hq hk =>
    obtain ⟨hsame, hclose⟩ := hflush hq hk
    exact (h.of_same hsame hclose).onClose hrun hin

lemma Phase.onWrite {answers : List Answer} {r : Bool × OutConn} (hrun : s.running = 0)
    (hin : s.conn.reg.removed = false) (hr : s.conn.onWrite c answers = some r) :
    Phase (if r.1 then { s with conn := r.2 }.onClose else { s with conn := r.2 }) := by
  have hopen : s.conn.active = true → s.conn.closeForce = false →
      Phase (if r.1 then { s with conn := r.2 }.onClose else { s with conn := r.2 }) := by
    intro active force
    obtain ⟨r', hr', hwrites⟩ := OutConn.onWrite_cases c active force answers
    obtain rfl := some.inj (hr.symm.trans hr')
    exact h.writes hrun hin hwrites
  cases h with
  | fresh h force noClose | queued h force => exact hopen h.active force
  | calling h noClose => cases hrun.symm.trans h.running
  | released inactive running calls =>
    unfold OutConn.onWrite at hr
    rw [if_pos inactive] at hr
    cases hr
    exact .released inactive running calls

lemma Phase.step (hnotify : c.disableNotify = false) {act : BaseAct} (hcareful : careful act s = true)
    (hstep : step c act s = some s') : Phase s' := by
  cases act with
  | peerClose =>
    obtain ⟨⟨hrun, hin⟩, hstep⟩ := ite_none_right_eq_some.1 hstep
    exact some.inj hstep ▸ h.onClose hrun hin
  | timeout =>
    obtain ⟨⟨hrun, hactive⟩, hstep⟩ := ite_none_right_eq_some.1 hstep
    exact some.inj hstep ▸ h.onTimeout hnotify hrun hactive hcareful
  | writable answers =>
    obtain ⟨⟨hrun, hin⟩, hstep⟩ := ite_none_right_eq_some.1 hstep
    obtain ⟨r, hr, rfl⟩ := map_eq_some_iff.1 hstep
    exact h.onWrite hrun hin hr
  | serverClose reset => exact some.inj hstep ▸ h.endSession reset hcareful
  | heartbeat =>
    obtain ⟨hactive, rfl⟩ := ite_some_none_eq_some.1 hstep
    exact h.heartbeat hactive hcareful
  | request req answers =>
    obtain ⟨hreq, hstep⟩ := ite_none_left_eq_some.1 hstep
    obtain ⟨r, hr, rfl⟩ := map_eq_some_iff.1 hstep
    obtain ⟨hsame, hclose⟩ := OutConn.request_same hreq hr
    exact h.of_same hsame hclose
  | leave =>
    obtain ⟨hrun, hstep⟩ := ite_none_left_eq_some.1 hstep
    exact some.inj hstep ▸ h.leave hrun

end

theorem close_called_once (c : OutConfig) (hnotify : c.disableNotify = false)
    (bufferSize : Nat) (directSend : Bool) (acts : List BaseAct)
    (hacts : Along (step c) (fun act s => careful act s = true) acts (opened bufferSize directSend))
    (s : BaseConn) (hs : iter (step c) acts (opened bufferSize directSend) = some s) :
    s.calls ≤ 1 ∧ (s.conn.active = false → s.calls = 1 ∧ s.running = 0) := by
  have hphase : Phase s := by
    refine iter_keeps (fun act s s' hcareful h hstep => h.step hnotify hcareful hstep) acts hacts ?_ hs
    exact .fresh ⟨rfl, rfl, rfl, rfl, rfl, rfl⟩ rfl not_mem_nil
  cases hphase with
  | fresh h force noClose =>
    exact ⟨by rw [h.calls]; exact Nat.zero_le 1, fun hd => absurd (hd.symm.trans h.active) Bool.false_ne_true⟩
  | calling h noClose | queued h force =>
    exact ⟨le_of_eq h.calls, fun hd => absurd (hd.symm.trans h.active) Bool.false_ne_true⟩
  | released inactive running calls => exact ⟨le_of_eq calls, fun _ => ⟨calls, running⟩⟩

/-- output is queued, the peer closes the connection, the callback closes it again, and a later send wakes the
socket -/
def closedTwice : List BaseAct :=
  [.request (.data [1, 2]) [], .peerClose, .serverClose false, .leave,
    .request (.data [3]) [], .writable [.took 7]]

theorem close_called_once_queued : ∃ s, iter (step { OutConfig.quiet with base := true }) closedTwice
    (opened 8 true) = some s ∧ s.conn.active = false ∧ s.calls = 1 := by
  refine exists_of_map (fun s => s.conn.active) (show _ = some false by decide +kernel) fun s hs hactive => ?_
  obtain ⟨-, hcalls⟩ := close_called_once _ rfl 8 true closedTwice (by decide +kernel) s hs
  exact ⟨hactive, (hcalls hactive).1⟩

def outcome (acts : List BaseAct) : Option (Bool × Nat) :=
  (iter (step { OutConfig.quiet with base := true }) acts (opened 8 true)).map fun s => (s.conn.active, s.calls)

/-- the heartbeat timeout releases a paused connection without a call; and two callbacks are called again -/
theorem paused_timeout : outcome [.request .pauseRecv [], .timeout] = some (false, 0) ∧
      outcome [.timeout, .serverClose false, .leave, .leave] = some (false, 2) ∧
      outcome [.request (.data [1, 2]) [], .serverClose false, .leave, .heartbeat, .leave] =
        some (false, 2) := by
  decide +kernel

end BaseConn

end OSW
