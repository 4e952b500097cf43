import OpenSwoole.Server.SendSteps

/-!
# Pausing and resuming

`OSW_SERVER_EVENT_PAUSE_RECV` and `OSW_SERVER_EVENT_RESUME_RECV` of `Server::send_to_connection`, between sends
of data and writable callbacks, on one open connection.  The code tells from the events of the socket and from
`removed` whether input is watched; sends and writable callbacks change both.

* `RecvRun.effective`   when a step leaves the socket as the last command wants it, by the answers and the queue;
* `pause_resume_effective`   this is exact, after every run;
* `resume_ignored`   a resume between a send and the writable callback, and a callback that undoes a
    pause.
-/

namespace OSW
open Option Machine

inductive RecvAct where
  | pause
  | resume
  | send (data : Bytes) (answers : List Answer)
  | writable (answers : List Answer)

structure RecvRun where
  conn : OutConn
  wanted : Bool

namespace RecvRun

def opened (bufferSize : Nat) (directSend : Bool) : RecvRun := ⟨.opened bufferSize directSend, true⟩

/-- a command or callback; callbacks come for sockets in the reactor, and a close event ends the run -/
def step (c : OutConfig) : RecvAct → RecvRun → Option RecvRun
  | .pause, s => (s.conn.sendToConnection c .pauseRecv []).map fun r => ⟨r.2, false⟩
  | .resume, s => (s.conn.sendToConnection c .resumeRecv []).map fun r => ⟨r.2, true⟩
  | .send data answers, s => (s.conn.sendToConnection c (.data data) answers).map fun r => { s with conn := r.2 }
  | .writable answers, s =>
    if s.conn.reg.removed then none
    else
      match s.conn.onWrite c answers with
      | some (false, conn) => some { s with conn := conn }
      | _ => none

/-- what the chunks of a queue have left to send -/
def leftover (queue : List OutputChunk) : List Nat := (queue.map fun c => c.rest.length).filter (0 < ·)

/-- the kernel takes pieces of these sizes, each at once, with interruptions and errors that are passed over -/
def takes : List Nat → List Answer → Bool
  | [], _ => true
  | _ :: _, [] => false
  | size :: sizes, .took k :: as => decide (size ≤ k + 1) && takes sizes as
  | _ :: _, .error .wait :: _ | _ :: _, .error .close :: _ => false
  | size :: sizes, _ :: as => takes (size :: sizes) as

/-- commands are refused in BASE mode after an overflow, a resume is ignored while the socket is in the reactor,
and a callback that has emptied the queue asks for input -/
def effective (c : OutConfig) : RecvAct → RecvRun → Bool
  | .pause, s => !s.conn.reg.reading || !(c.base && s.conn.overflow)
  | .resume, s => s.conn.reg.reading || (s.conn.reg.removed && !(c.base && s.conn.overflow))
  | .send _ _, _ => true
  | .writable answers, s => s.wanted || !takes (leftover s.conn.queue) answers

structure Ready (s : RecvRun) : Prop where
  conn : s.conn.Open
  plain : ∀ task, .sendfile task ∉ s.conn.queue
  reg : s.conn.reg.Consistent
  wanted : s.conn.reg.reading = s.wanted

variable {c : OutConfig} {s s' : RecvRun} {answers : List Answer}

variable {t t' : OutConn} {data : Bytes}

lemma sends_reg (hopen : t.Open) (hreg : t.reg.Consistent) (h : OutConn.Sends c t data t') :
    t'.reg.Consistent ∧ t'.reg.reading = t.reg.reading := by
  cases h with
  | direct hq => exact ⟨hreg, rfl⟩
  | refused k hk hpeer => cases hopen.peerClosed.symm.trans hpeer
  | queued k hk hq hpeer =>
    rw [OutConn.enqueue_reg]
    obtain ⟨hcons, hread, -⟩ := hreg.wantWrite
    exact ⟨hcons, hread⟩

lemma unwatch_reading (hopen : t.Open) (hreg : t.reg.Consistent) (hin : t.reg.removed = false) :
    (t.lowered c).unwatch.reg.Consistent ∧
      (t.lowered c).unwatch.reg.reading = (t.reg.reading || (t.lowered c).unwatch.queueEmpty) := by
  obtain ⟨hsame, hbuffer, hreg₁, -⟩ := OutConn.lowered_same c t
  obtain ⟨-, hbuffer', -⟩ := OutConn.unwatch_same (t.lowered c)
  have hempty : (t.lowered c).queueEmpty = (t.lowered c).unwatch.queueEmpty := by
    rw [OutConn.queueEmpty, OutConn.queueEmpty, OutConn.queue, OutConn.queue, hbuffer']
  obtain ⟨e, he, hne⟩ := hreg.eq_on hin
  have hreg₂ := OutConn.unwatch_reg (hsame.peerClosed.trans hopen.peerClosed) (hreg₁.trans he)
  rw [hreg₂, ← hempty, he]
  cases (t.lowered c).queueEmpty with
  | true => exact ⟨.on _ (.inl rfl), (Bool.or_true _).symm⟩
  | false => exact ⟨.on _ hne, (Bool.or_false _).symm⟩

/-! ## the queue that a callback empties -/

lemma takes_nil (answers : List Answer) : takes [] answers = true := by cases answers <;> rfl

lemma takes_answer (size : Nat) (sizes : List Nat) (answers : List Answer) :
    takes (size :: sizes) answers = match answer size answers with
      | (.bytes k, as) => decide (k = size) && takes sizes as
      | (.error .wait, _) | (.error .close, _) => false
      | (.error _, as) => takes (size :: sizes) as := by
  induction answers with
  | nil => rfl
  | cons a as ih =>
    cases a with
    | took k =>
      have hmin : min (k + 1) size = size ↔ size ≤ k + 1 := by omega
      simp only [takes, answer, hmin]
    | intr => exact ih
    | error e => cases e <;> rfl

lemma leftover_data (d : BufferChunk) (cs : List OutputChunk) : leftover (.data d :: cs) =
      if d.data.length - d.offset = 0 then leftover cs else (d.data.length - d.offset) :: leftover cs := by
  have hlen : (OutputChunk.data d).rest.length = d.data.length - d.offset := List.length_drop
  rw [leftover, List.map_cons, hlen]
  by_cases hz : d.data.length - d.offset = 0
  · rw [if_pos hz, List.filter_cons_of_neg (by rw [hz]; decide)]
    rfl
  · rw [if_neg hz, List.filter_cons_of_pos (by exact decide_eq_true (pos_of_ne_zero hz))]
    rfl

lemma turn_takes {f : Flush} (hplain : f.queue.Plain) (hclose : .close ∉ f.queue.queue) :
    (∃ f', f.turn = .inl f' ∧
      takes (leftover f'.queue.queue) f'.answers = takes (leftover f.queue.queue) f.answers) ∨
      ∃ r, f.turn = .inr r ∧
        (r.2 = .stopped → r.1.queue.queue.isEmpty = takes (leftover f.queue.queue) f.answers) := by
  cases hq : f.queue.queue with
  | nil =>
    refine .inr ⟨(f, .stopped), ?_, fun _ => by rw [hq]; exact (takes_nil _).symm⟩
    unfold Flush.turn
    rw [hq]
  | cons chunk cs =>
    cases chunk with
    | sendfile task => exact absurd (hq ▸ List.mem_cons_self) (hplain task)
    | close => exact absurd (hq ▸ List.mem_cons_self) hclose
    | data d =>
      have hturn : f.turn = f.handleSend d := by
        unfold Flush.turn
        rw [hq]
      have hpop : f.queue.pop.queue = cs := by rw [OutputQueue.pop_cons hq]
      unfold Flush.handleSend at hturn
      rw [leftover_data]
      by_cases hz : d.data.length - d.offset = 0
      · rw [if_pos hz] at hturn ⊢
        exact .inl ⟨_, hturn, by rw [← hpop]; rfl⟩
      rw [if_neg hz] at hturn ⊢
      rw [takes_answer]
      cases ha : answer (d.data.length - d.offset) f.answers with
      | mk r as =>
        rw [ha] at hturn
        cases r with
        | bytes k =>
          dsimp only at hturn ⊢
          by_cases hk : k = d.data.length - d.offset
          · rw [if_pos hk] at hturn
            refine .inl ⟨_, hturn, ?_⟩
            rw [decide_eq_true hk, Bool.true_and, ← hpop]
            rfl
          · rw [if_neg hk] at hturn
            exact .inr ⟨_, hturn, fun _ => by rw [decide_eq_false hk]; rfl⟩
        | error e =>
          cases e with
          | wait => exact .inr ⟨_, hturn, fun _ => by dsimp only; rw [hq]; rfl⟩
          | close => exact .inr ⟨_, hturn, FlushEnd.noConfusion⟩
          | error | invalid => exact .inl ⟨_, hturn, by dsimp only; rw [hq, leftover_data, if_neg hz]⟩

lemma flush_takes {f f' : Flush} (hplain : f.queue.Plain) (hclose : .close ∉ f.queue.queue)
    (h : flush f = some (f', .stopped)) : f'.queue.queue.isEmpty = takes (leftover f.queue.queue) f.answers := by
  have hrun : ∃ r, flush f = some r ∧
      (r.2 = .stopped → r.1.queue.queue.isEmpty = takes (leftover f.queue.queue) f.answers) := by
    refine run_spec (I := fun t => Flush.Keeps f t ∧
      takes (leftover t.queue.queue) t.answers = takes (leftover f.queue.queue) f.answers)
      (μ := Flush.measure) ?_ ⟨.refl f, rfl⟩ (Nat.lt_succ_self _)
    rintro t ⟨hk, ht⟩
    rcases turn_takes (hk.plain hplain) (fun hmem => hclose (hk.close.1 hmem)) with ⟨t', he, ht'⟩ | ⟨r, he, hr⟩
    · rcases t.turns with ⟨t'', he', hk', hlt⟩ | ⟨r, he', -⟩
      · obtain rfl := Sum.inl.inj (he.symm.trans he')
        exact .inl ⟨t', he, ⟨hk.trans hk', ht'.trans ht⟩, hlt⟩
      · cases he.symm.trans he'
    · exact .inr ⟨r, he, fun hstop => (hr hstop).trans ht⟩
  obtain ⟨r, hr, hempty⟩ := hrun
  obtain rfl := some.inj (hr.symm.trans h)
  exact hempty rfl

lemma lowered_queue (c : OutConfig) (t : OutConn) : (t.lowered c).unwatch.queue = t.queue := by
  obtain ⟨-, hbuffer, -⟩ := OutConn.lowered_same c t
  obtain ⟨-, hbuffer', -⟩ := OutConn.unwatch_same (t.lowered c)
  rw [OutConn.queue, OutConn.queue, hbuffer', hbuffer]

lemma onWrite_takes (hopen : t.Open) (hplain : ∀ task, .sendfile task ∉ t.queue)
    (h : t.onWrite c answers = some (false, t')) : t'.queueEmpty = takes (leftover t.queue) answers := by
  unfold OutConn.onWrite at h
  rw [if_neg (ne_false_of_eq_true hopen.active), if_neg (by rw [hopen.closeForce, Bool.and_false]; nofun)] at h
  cases hq : t.outBuffer with
  | none =>
    rw [hq] at h
    cases h
    rw [OutConn.queueEmpty, lowered_queue, OutConn.queue, hq]
    exact (takes_nil _).symm
  | some q =>
    have hqueue : t.queue = q.queue := by rw [OutConn.queue, hq]; rfl
    rw [hq] at h
    obtain ⟨⟨f, e⟩, hf, he⟩ := map_eq_some_iff.1 h
    have hclose : .close ∉ q.queue := hqueue ▸ hopen.noClose
    cases e with
    | stopped =>
      cases he
      rw [OutConn.queueEmpty, lowered_queue, hqueue]
      exact flush_takes (f := ⟨t.wire, q, answers⟩) (fun task => hqueue ▸ hplain task) hclose hf
    | closeChunk =>
      obtain ⟨r, hr, hk, hend⟩ := flush_spec ⟨t.wire, q, answers⟩
      obtain rfl := some.inj (hf.symm.trans hr)
      exact absurd (hk.close.1 (List.mem_of_head? (hend rfl))) hclose
    | closeEvent => cases he

lemma flushes_reg (h : OutConn.Flushes t answers t') : t'.reg = t.reg := by
  cases h with
  | idle _ | loop q f _ _ => rfl

lemma flushes_plain (ht : ∀ task, .sendfile task ∉ t.queue) (h : OutConn.Flushes t answers t') :
    ∀ task, .sendfile task ∉ t'.queue := by
  cases h with
  | idle _ => exact ht
  | loop q f hq hk =>
    refine hk.plain fun task => ?_
    have := ht task
    rwa [OutConn.queue, hq] at this

lemma sends_plain (hopen : t.Open) (ht : ∀ task, .sendfile task ∉ t.queue) (h : OutConn.Sends c t data t') :
    ∀ task, .sendfile task ∉ t'.queue := by
  cases h with
  | direct hq => exact ht
  | refused k hk hpeer => cases hopen.peerClosed.symm.trans hpeer
  | queued k hk hq hpeer =>
    intro task hmem
    rw [OutConn.enqueue_queue] at hmem
    rcases List.mem_append.1 hmem with hmem | hmem
    · exact ht task hmem
    · obtain ⟨d, -, he⟩ := List.mem_map.1 hmem
      cases he

lemma pauseRecv_reg (hreg : t.reg.Consistent) :
    ∃ r : Registration, t.pauseRecv.2 = { t with reg := r } ∧ r.Consistent ∧ r.reading = false := by
  unfold OutConn.pauseRecv
  generalize ht : t.reg = reg at hreg
  cases hreg with
  | gone => exact ⟨t.reg, rfl, ht ▸ .gone, by rw [ht]; rfl⟩
  | on e he =>
    obtain ⟨read, write⟩ := e
    cases read with
    | false => exact ⟨t.reg, rfl, ht ▸ .on _ he, by rw [ht]; rfl⟩
    | true =>
      cases write with
      | true => exact ⟨_, rfl, .on ⟨false, true⟩ (.inr rfl), rfl⟩
      | false => exact ⟨_, rfl, .gone, rfl⟩

lemma resumeRecv_reg (hreg : t.reg.Consistent) :
    ∃ r : Registration, t.resumeRecv.2 = { t with reg := r } ∧ r.Consistent ∧
      r.reading = (t.reg.reading || t.reg.removed) := by
  unfold OutConn.resumeRecv
  generalize ht : t.reg = reg at hreg
  cases hreg with
  | gone => exact ⟨_, rfl, .on ⟨true, false⟩ (.inl rfl), rfl⟩
  | on e he => exact ⟨t.reg, rfl, ht ▸ .on e he, by rw [ht, Registration.removed_on, Bool.or_false]⟩

lemma open_reg (ht : t.Open) (r : Registration) : OutConn.Open { t with reg := r } := { ht with }

/-- what a command or callback leaves: the socket is as the last command wants it exactly when `effective` -/
structure Leaves (c : OutConfig) (act : RecvAct) (s s' : RecvRun) : Prop where
  conn : s'.conn.Open
  plain : ∀ task, .sendfile task ∉ s'.conn.queue
  reg : s'.conn.reg.Consistent
  wanted : s'.conn.reg.reading = s'.wanted ↔ effective c act s = true

section
variable (hs : s.Ready)
include hs

lemma Ready.pause (h : step c .pause s = some s') : Leaves c .pause s s' := by
  rw [RecvRun.step, hs.conn.sendToConnection] at h
  cases hover : (c.base && s.conn.overflow) with
  | true =>
    rw [hover] at h
    cases h
    refine ⟨hs.conn, hs.plain, hs.reg, ?_⟩
    simp [effective, hover]
  | false =>
    rw [hover] at h
    cases h
    obtain ⟨r, hr, hcons, hread⟩ := pauseRecv_reg hs.reg
    dsimp only
    rw [hr]
    refine ⟨open_reg hs.conn r, hs.plain, hcons, iff_of_true hread ?_⟩
    simp [effective, hover]

lemma Ready.resume (h : step c .resume s = some s') : Leaves c .resume s s' := by
  rw [RecvRun.step, hs.conn.sendToConnection] at h
  cases hover : (c.base && s.conn.overflow) with
  | true =>
    rw [hover] at h
    cases h
    refine ⟨hs.conn, hs.plain, hs.reg, ?_⟩
    simp [effective, hover]
  | false =>
    rw [hover] at h
    cases h
    obtain ⟨r, hr, hcons, hread⟩ := resumeRecv_reg hs.reg
    dsimp only
    rw [hr]
    refine ⟨open_reg hs.conn r, hs.plain, hcons, ?_⟩
    simp [effective, hover, hread]

lemma Ready.send (h : step c (.send data answers) s = some s') :
    Leaves c (.send data answers) s s' := by
  rw [RecvRun.step, hs.conn.sendToConnection] at h
  cases hover : (c.base && s.conn.overflow) with
  | true =>
    rw [hover] at h
    cases h
    exact ⟨hs.conn, hs.plain, hs.reg, iff_of_true hs.wanted rfl⟩
  | false =>
    rw [hover] at h
    obtain ⟨r, hr, rfl⟩ := map_eq_some_iff.1 h
    have hsends := OutConn.sends_of_sendData hr
    obtain ⟨hcons, hread⟩ := sends_reg hs.conn hs.reg hsends
    exact ⟨hs.conn.sends hsends, sends_plain hs.conn hs.plain hsends, hcons,
      iff_of_true (hread.trans hs.wanted) rfl⟩

lemma Ready.writable (h : step c (.writable answers) s = some s') :
    Leaves c (.writable answers) s s' := by
  obtain ⟨hin, h⟩ := ite_none_left_eq_some.1 h
  generalize hw : s.conn.onWrite c answers = w at h
  rcases w with _ | ⟨_ | _, conn⟩
  · cases h
  · cases h
    obtain ⟨t, hflush, hopen, rfl⟩ := hs.conn.writable hw
    have hreg := flushes_reg hflush
    obtain ⟨hcons, hread⟩ := unwatch_reading (c := c) hopen (hreg ▸ hs.reg) (hreg ▸ eq_false_of_ne_true hin)
    refine ⟨hopen.lowered c, ?_, hcons, ?_⟩
    · rw [lowered_queue]
      exact flushes_plain hs.plain hflush
    · dsimp only [effective]
      rw [hread, hreg, hs.wanted, ← onWrite_takes hs.conn hs.plain hw]
      cases s.wanted <;> simp
  · cases h

lemma Ready.step {act : RecvAct} (h : step c act s = some s') : Leaves c act s s' := by
  cases act with
  | pause => exact hs.pause h
  | resume => exact hs.resume h
  | send data answers => exact hs.send h
  | writable answers => exact hs.writable h

end

/-- **Pausing and resuming**: the socket is registered as the last command says exactly if commands are
effective. -/
theorem pause_resume_effective (c : OutConfig) (bufferSize : Nat) (directSend : Bool) (acts : List RecvAct)
    (hacts : Along (RecvRun.step c) (fun act s => effective c act s = true) acts (opened bufferSize directSend))
    (s : RecvRun) (hs : iter (RecvRun.step c) acts (opened bufferSize directSend) = some s) :
    s.conn.reg.reading = s.wanted ∧
      ∀ act s', RecvRun.step c act s = some s' →
        (s'.conn.reg.reading = s'.wanted ↔ effective c act s = true) := by
  have hready : s.Ready := by
    refine iter_keeps ?_ acts hacts ⟨OutConn.open_opened .., nofun, .on _ (.inl rfl), rfl⟩ hs
    intro act s s' hact hs h
    have hleft := hs.step h
    exact ⟨hleft.conn, hleft.plain, hleft.reg, hleft.wanted.2 hact⟩
  exact ⟨hready.wanted, fun act s' h => (hready.step h).wanted⟩

def pauseFirst : List RecvAct := [.send [1, 2] [.took 7], .pause, .resume, .send [3, 4] [], .writable [.took 7]]

theorem pause_resume_first : ∃ s, iter (RecvRun.step .quiet) pauseFirst (opened 2 true) = some s ∧
    s.conn.wire = [1, 2, 3, 4] ∧ s.conn.reg.reading = s.wanted := by
  refine exists_of_map (fun s => s.conn.wire) (show _ = some [1, 2, 3, 4] by decide +kernel) fun s hs hwire => ?_
  obtain ⟨hread, -⟩ := pause_resume_effective .quiet 2 true pauseFirst (by decide +kernel) s hs
  exact ⟨hwire, hread⟩

def registered (c : OutConfig) (acts : List RecvAct) : Option (Bool × Bool) :=
  (iter (RecvRun.step c) acts (opened 1 true)).map fun s => (s.conn.reg.reading, s.wanted)

/-- a resume is ignored while the socket is in the reactor for output; a pause behind an overflow is refused -/
theorem resume_ignored : registered .quiet [.send [1, 2] [], .pause, .resume] = some (false, true) ∧
      registered .quiet [.send [1, 2] [], .pause, .writable [.took 7]] = some (true, false) ∧
      registered { OutConfig.quiet with base := true } [.send [1, 2] [], .send [3] [], .pause] =
        some (true, false) := by
  decide +kernel

end RecvRun

end OSW
