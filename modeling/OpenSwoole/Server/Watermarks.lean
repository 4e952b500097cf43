import OpenSwoole.Server.SendSteps

/-!
# Events for full and empty buffers

`OSW_SERVER_EVENT_BUFFER_FULL` of `Server::send_to_connection` and `OSW_SERVER_EVENT_BUFFER_EMPTY` of
`ReactorThread_onWrite`, for sends of data and writable callbacks on one open connection.  One flag,
`high_watermark`, serves both: it is set with the first event, or together with `overflow` where nobody asks for
the first event, and cleared with the second.

* `MarkRun.reached`, `owed`   records: the queue has come to the high watermark, the `overflow` flag was
    set, and since then no callback has found the queue at or below the low watermark;
* `second_full_missing`   a full buffer is reported once without `onBufferEmpty`, and an overflow is
    forgotten where the high watermark is above the buffer size.
-/

namespace OSW
open Option Machine

inductive MarkAct where
  | send (data : Bytes) (answers : List Answer)
  | writable (answers : List Answer)

def OutConn.held (s : OutConn) : Nat := s.outBuffer.elim 0 OutputQueue.sizes

structure MarkRun where
  conn : OutConn
  reached : Bool
  owed : Bool

namespace MarkRun

def opened (bufferSize : Nat) (directSend : Bool) : MarkRun := ⟨.opened bufferSize directSend, false, false⟩

def grown (s : MarkRun) (conn : OutConn) : Bool := conn.queue ≠ s.conn.queue

/-- a send has left the connection `conn` -/
def sent (c : OutConfig) (s : MarkRun) (conn : OutConn) : MarkRun where
  conn := conn
  reached := s.reached || (s.grown conn && decide (c.bufferHighWatermark ≤ conn.held))
  owed := s.owed || (s.grown conn && conn.overflow)

/-- a writable callback has left the connection `conn` -/
def written (c : OutConfig) (s : MarkRun) (conn : OutConn) : MarkRun where
  conn := conn
  reached := s.reached && !decide (conn.held ≤ c.bufferLowWatermark)
  owed := s.owed && !decide (conn.held ≤ c.bufferLowWatermark)

def step (c : OutConfig) : MarkAct → MarkRun → Option MarkRun
  | .send data answers, s => (s.conn.sendToConnection c (.data data) answers).map fun r => s.sent c r.2
  | .writable answers, s =>
    match s.conn.onWrite c answers with
    | some (false, conn) => some (s.written c conn)
    | _ => none

def Notified (e : OutEvent) (s s' : MarkRun) : Prop := s'.conn.notified = s.conn.notified ++ [e]

/-- the queue stays below 4 GiB, so that `total_length` does not wrap -/
def Small (c : OutConfig) (act : MarkAct) (s : MarkRun) : Prop :=
  ∀ s', step c act s = some s' → s'.conn.held < 2^32

instance (c : OutConfig) (act : MarkAct) (s : MarkRun) : Decidable (Small c act s) :=
  decidable_of_iff ((step c act s).all fun s' => decide (s'.conn.held < 2^32)) (by simp [Small, all_eq_true])

end MarkRun

/-! ## what a send and a callback do to the flags -/

namespace OutConn
variable {c : OutConfig} {s : OutConn} {data : Bytes}

/-- `total_length` is right -/
structure Counted (s : OutConn) : Prop where
  whole : ∀ q, s.outBuffer = some q → q.Whole
  small : s.held < 2^32

lemma Counted.queueLength (hs : s.Counted) : s.queueLength = s.held := by
  have hsmall := hs.small
  unfold OutConn.queueLength held at *
  cases hq : s.outBuffer with
  | none => rfl
  | some q =>
    rw [hq] at hsmall
    show q.totalLength = q.sizes
    rw [(hs.whole q hq).total]
    exact Nat.mod_eq_of_lt hsmall

lemma queueLength_makeBuffer (s : OutConn) : s.makeBuffer.queueLength = s.queueLength := by
  unfold makeBuffer queueLength
  cases s.outBuffer <;> rfl

lemma enqueue_held (c : OutConfig) (s : OutConn) (data : Bytes) :
    (s.enqueue c data).held = s.held + (OutputQueue.cut data).sizes := by
  unfold held
  rw [enqueue_outBuffer]
  show ((s.outBuffer.getD .empty).append data).sizes = _
  rw [OutputQueue.sizes_append]
  cases s.outBuffer <;> rfl

lemma enqueue_whole (hs : ∀ q, s.outBuffer = some q → q.Whole) (c : OutConfig) (data : Bytes) :
    ∀ q, (s.enqueue c data).outBuffer = some q → q.Whole := by
  intro q hq
  rw [enqueue_outBuffer] at hq
  cases hq
  refine OutputQueue.Whole.append ?_ data
  cases hb : s.outBuffer with
  | none => exact ⟨nofun, rfl⟩
  | some q => exact hs q hb

lemma enqueue_grows (c : OutConfig) (s : OutConn) (hdata : data ≠ []) : (s.enqueue c data).queue ≠ s.queue := by
  rw [enqueue_queue]
  intro h
  have hnil : (OutputQueue.cut data).queue = [] := List.map_eq_nil_iff.1 (List.append_right_eq_self.1 h)
  have hcut := (OutputQueue.cut_spec data).1
  rw [hnil] at hcut
  exact hdata hcut.symm

lemma enqueue_overflow (c : OutConfig) (s : OutConn) (data : Bytes) :
    (s.enqueue c data).overflow = (s.overflow || decide (s.bufferSize ≤ s.queueLength)) := by
  have hnotify : ∀ t : OutConn, (t.notifyFull c).overflow = t.overflow := by
    intro t
    unfold notifyFull
    split <;> rfl
  show (((s.makeBuffer.overflowed c).append data).notifyFull c).overflow = _
  rw [hnotify]
  unfold overflowed
  rw [queueLength_makeBuffer]
  show (if s.bufferSize ≤ s.queueLength then _ else _ : OutConn).overflow = _
  split
  case isTrue h => rw [decide_eq_true h, Bool.or_true]
  case isFalse h => rw [decide_eq_false h, Bool.or_false]; rfl

lemma enqueue_full (hfull : c.onBufferFull = true) (s : OutConn) (data : Bytes) :
    (s.enqueue c data).highWatermark =
        (s.highWatermark || decide (c.bufferHighWatermark ≤ (s.enqueue c data).queueLength)) ∧
      (s.highWatermark = false → c.bufferHighWatermark ≤ (s.enqueue c data).queueLength →
        (s.enqueue c data).notified = s.notified ++ [.bufferFull]) := by
  have hover : (s.makeBuffer.overflowed c).highWatermark = s.highWatermark := by
    unfold overflowed
    rw [hfull, Bool.not_true, Bool.and_false, Bool.or_false]
    split <;> rfl
  obtain ⟨-, -, -, -, hnote⟩ := overflowed_same c s.makeBuffer
  have hlen : (s.enqueue c data).queueLength = ((s.makeBuffer.overflowed c).append data).queueLength := by
    obtain ⟨-, hbuffer, -⟩ := notifyFull_same c ((s.makeBuffer.overflowed c).append data)
    show (((s.makeBuffer.overflowed c).append data).notifyFull c).queueLength = _
    rw [queueLength, hbuffer, queueLength]
  rw [hlen]
  show (((s.makeBuffer.overflowed c).append data).notifyFull c).highWatermark = _ ∧
    (_ → _ → (((s.makeBuffer.overflowed c).append data).notifyFull c).notified = _)
  have hmark : ((s.makeBuffer.overflowed c).append data).highWatermark = s.highWatermark := hover
  have hnote : ((s.makeBuffer.overflowed c).append data).notified = s.notified := hnote
  generalize (s.makeBuffer.overflowed c).append data = t at hmark hnote ⊢
  rw [← hmark, ← hnote]
  unfold notifyFull
  rw [hfull, Bool.true_and]
  split
  case isTrue h =>
    obtain ⟨-, hle⟩ := Bool.and_eq_true_iff.1 h
    exact ⟨by rw [hle, Bool.or_true], fun _ _ => rfl⟩
  case isFalse h =>
    refine ⟨?_, fun hlow hle => absurd ?_ h⟩
    · cases hm : t.highWatermark with
      | true => rfl
      | false =>
        rw [hm, Bool.not_false, Bool.true_and] at h
        rw [Bool.false_or, eq_false_of_ne_true h]
    · rw [hlow, decide_eq_true hle]
      rfl

lemma enqueue_unreported (hfull : c.onBufferFull = false) (hempty : c.onBufferEmpty = true) (s : OutConn)
    (data : Bytes) :
    (s.enqueue c data).highWatermark = (s.highWatermark || decide (s.bufferSize ≤ s.queueLength)) := by
  show (((s.makeBuffer.overflowed c).append data).notifyFull c).highWatermark = _
  unfold notifyFull
  unfold overflowed
  rw [queueLength_makeBuffer, hfull, hempty]
  show (if s.bufferSize ≤ s.queueLength then _ else _ : OutConn).highWatermark = _
  split
  case isTrue h => rw [decide_eq_true h]; rfl
  case isFalse h => rw [decide_eq_false h, Bool.or_false]; rfl

lemma lowered_flags (c : OutConfig) (s : OutConn) :
    (s.lowered c).overflow = (s.overflow && !decide (s.queueLength < s.bufferSize)) ∧
      (c.onBufferEmpty = true → s.queueLength ≤ c.bufferLowWatermark → (s.lowered c).highWatermark = false ∧
        (s.highWatermark = true → (s.lowered c).notified = s.notified ++ [.bufferEmpty])) ∧
      (¬ s.queueLength ≤ c.bufferLowWatermark → (s.lowered c).highWatermark = s.highWatermark) := by
  unfold lowered
  dsimp only
  split
  case isTrue h =>
    simp only [Bool.and_eq_true, decide_eq_true_eq] at h
    exact ⟨rfl, fun _ _ => ⟨rfl, fun _ => rfl⟩, fun hlow => absurd h.2 hlow⟩
  case isFalse h =>
    refine ⟨rfl, fun hempty hlow => ?_, fun _ => rfl⟩
    have hmark : s.highWatermark = false := by
      rw [hempty, Bool.true_and] at h
      cases hm : s.highWatermark with
      | false => rfl
      | true =>
        rw [hm, Bool.true_and] at h
        exact absurd (decide_eq_true hlow) h
    exact ⟨hmark, fun h => absurd (hmark.symm.trans h) Bool.false_ne_true⟩

lemma Flushes.counted {answers : List Answer} {t : OutConn} (hs : s.Counted) (h : Flushes s answers t) :
    t.Counted ∧ t.overflow = s.overflow ∧ t.highWatermark = s.highWatermark ∧ t.notified = s.notified ∧
      t.bufferSize = s.bufferSize := by
  cases h with
  | idle hq => exact ⟨hs, rfl, rfl, rfl, rfl⟩
  | loop q f hq hk =>
    refine ⟨⟨fun q' hq' => some.inj hq' ▸ hk.whole (hs.whole q hq), ?_⟩, rfl, rfl, rfl, rfl⟩
    have hsmall := hs.small
    unfold held at hsmall
    rw [hq] at hsmall
    exact lt_of_le_of_lt hk.sizes hsmall

end OutConn

/-! ## runs -/

namespace MarkRun
variable {c : OutConfig} {s s' : MarkRun} {n : Nat}

/-- an open connection with socket buffer size `n`, and what its flags say -/
structure Marked (c : OutConfig) (n : Nat) (s : MarkRun) : Prop where
  conn : s.conn.Open
  counted : s.conn.Counted
  bufferSize : s.conn.bufferSize = n
  overflow : s.conn.overflow = true → n ≤ s.conn.held
  reached : c.onBufferFull = true → c.onBufferEmpty = true → s.conn.highWatermark = s.reached
  owed : c.onBufferEmpty = true → (c.onBufferFull = true → c.bufferHighWatermark ≤ n) → s.owed = true →
    s.conn.highWatermark = true

lemma Marked.unqueued (hs : s.Marked c n) (bs : Bytes) :
    (s.sent c (s.conn.takeBytes bs)).Marked c n ∧ s.grown (s.conn.takeBytes bs) = false := by
  have hgrown : s.grown (s.conn.takeBytes bs) = false := decide_eq_false fun h => h rfl
  have hreached : (s.sent c (s.conn.takeBytes bs)).reached = s.reached := by
    show (s.reached || (s.grown _ && _)) = _
    rw [hgrown, Bool.false_and, Bool.or_false]
  have howed : (s.sent c (s.conn.takeBytes bs)).owed = s.owed := by
    show (s.owed || (s.grown _ && _)) = _
    rw [hgrown, Bool.false_and, Bool.or_false]
  refine ⟨⟨hs.conn.takeBytes bs, ⟨hs.counted.whole, hs.counted.small⟩, hs.bufferSize, hs.overflow, ?_, ?_⟩,
    hgrown⟩
  · rw [hreached]
    exact hs.reached
  · rw [howed]
    exact hs.owed

variable {data : Bytes} {t : OutConn} {answers : List Answer}

section
variable (hs : s.Marked c n)
include hs

lemma Marked.queued (bs : Bytes) (hdata : data ≠ [])
    (hsmall : ((s.conn.takeBytes bs).enqueue c data).held < 2^32) :
    (s.sent c ((s.conn.takeBytes bs).enqueue c data)).Marked c n ∧
      (c.onBufferFull = true → c.onBufferEmpty = true → s.reached = false →
        c.bufferHighWatermark ≤ ((s.conn.takeBytes bs).enqueue c data).held →
        Notified .bufferFull s (s.sent c ((s.conn.takeBytes bs).enqueue c data))) := by
  have hlen : (s.conn.takeBytes bs).queueLength = s.conn.held := hs.counted.queueLength
  have hover := OutConn.enqueue_overflow c (s.conn.takeBytes bs) data
  have hsize : ((s.conn.takeBytes bs).enqueue c data).bufferSize = n :=
    (OutConn.enqueue_same ..).bufferSize.trans hs.bufferSize
  have hgrow : s.conn.held ≤ ((s.conn.takeBytes bs).enqueue c data).held := by
    rw [OutConn.enqueue_held]
    exact Nat.le_add_right ..
  have hcounted : ((s.conn.takeBytes bs).enqueue c data).Counted :=
    ⟨OutConn.enqueue_whole (s := s.conn.takeBytes bs) hs.counted.whole c data, hsmall⟩
  have hgrown : s.grown ((s.conn.takeBytes bs).enqueue c data) = true :=
    decide_eq_true (OutConn.enqueue_grows c (s.conn.takeBytes bs) hdata)
  -- an overflow that is noticed: the queue was as long as the buffer
  have hlong : ((s.conn.takeBytes bs).enqueue c data).overflow = true → n ≤ s.conn.held := by
    intro h
    rw [hover, Bool.or_eq_true, decide_eq_true_eq, hlen] at h
    rcases h with h | h
    · exact hs.overflow h
    · exact hs.bufferSize ▸ h
  have hfullSpec := fun hfull => OutConn.enqueue_full (c := c) hfull (s.conn.takeBytes bs) data
  rw [hcounted.queueLength] at hfullSpec
  refine ⟨⟨(hs.conn.takeBytes bs).enqueue c data, hcounted, hsize, fun h => ?_, fun hfull hempty => ?_,
    fun hempty hle ho => ?_⟩, fun hfull hempty hreached hhigh => ?_⟩
  · exact le_trans (hlong h) hgrow
  · show _ = (s.reached || (s.grown _ && decide (c.bufferHighWatermark ≤ _)))
    rw [hgrown, Bool.true_and, ← hs.reached hfull hempty]
    exact (hfullSpec hfull).1
  · have ho : (s.owed || (s.grown ((s.conn.takeBytes bs).enqueue c data) &&
        ((s.conn.takeBytes bs).enqueue c data).overflow)) = true := ho
    rw [hgrown, Bool.true_and, Bool.or_eq_true] at ho
    show ((s.conn.takeBytes bs).enqueue c data).highWatermark = true
    cases hfull : c.onBufferFull with
    | true =>
      rw [(hfullSpec hfull).1]
      rcases ho with ho | ho
      · rw [show (s.conn.takeBytes bs).highWatermark = true from hs.owed hempty hle ho, Bool.true_or]
      · rw [decide_eq_true (le_trans (hle hfull) (le_trans (hlong ho) hgrow)), Bool.or_true]
    | false =>
      rw [OutConn.enqueue_unreported hfull hempty, hlen]
      rcases ho with ho | ho
      · rw [show (s.conn.takeBytes bs).highWatermark = true from hs.owed hempty hle ho, Bool.true_or]
      · have hle : (s.conn.takeBytes bs).bufferSize ≤ s.conn.held :=
          le_trans (le_of_eq hs.bufferSize) (hlong ho)
        rw [decide_eq_true hle, Bool.or_true]
  · exact (hfullSpec hfull).2 ((hs.reached hfull hempty).trans hreached) hhigh

/-- **sends**: a queue that comes to the high watermark is reported -/
theorem Marked.send (h : OutConn.Sends c s.conn data t) (hsmall : t.held < 2^32) : (s.sent c t).Marked c n ∧
      (c.onBufferFull = true → c.onBufferEmpty = true → s.reached = false → s.grown t = true →
        c.bufferHighWatermark ≤ t.held → Notified .bufferFull s (s.sent c t)) := by
  cases h with
  | direct hq =>
    obtain ⟨hmarked, hgrown⟩ := hs.unqueued data
    exact ⟨hmarked, fun _ _ _ h => absurd (hgrown.symm.trans h) Bool.false_ne_true⟩
  | refused k hk hpeer => cases hs.conn.peerClosed.symm.trans hpeer
  | queued k hk hq hpeer =>
    have hne : data.drop k ≠ [] := fun he => Nat.not_le_of_lt hk (List.drop_eq_nil_iff.1 he)
    obtain ⟨hmarked, hfull⟩ := hs.queued (data.take k) hne hsmall
    exact ⟨hmarked, fun h₁ h₂ h₃ _ h₄ => hfull h₁ h₂ h₃ h₄⟩

/-- **callbacks**: an overflow that is over is reported -/
theorem Marked.writable (h : s.conn.onWrite c answers = some (false, t)) : (s.written c t).Marked c n ∧
      (c.onBufferEmpty = true → (c.onBufferFull = true → c.bufferHighWatermark ≤ n) → s.owed = true →
        t.held ≤ c.bufferLowWatermark → Notified .bufferEmpty s (s.written c t)) := by
  obtain ⟨u, hflush, hopen, rfl⟩ := hs.conn.writable h
  obtain ⟨hcounted, hover, hmark, hnote, hsize⟩ := hflush.counted hs.counted
  obtain ⟨hsame, hbuffer, -, -⟩ := OutConn.lowered_same c u
  obtain ⟨hsame', hbuffer', -, hmark', hnote', hover'⟩ := OutConn.unwatch_same (u.lowered c)
  obtain ⟨hover₁, hlow₁, hhigh₁⟩ := OutConn.lowered_flags c u
  rw [hcounted.queueLength] at hover₁ hlow₁ hhigh₁
  have hheld : (u.lowered c).unwatch.held = u.held := by rw [OutConn.held, hbuffer', hbuffer, OutConn.held]
  have hcount : (u.lowered c).unwatch.Counted :=
    ⟨fun q hq => hcounted.whole q (hbuffer ▸ hbuffer' ▸ hq), hheld ▸ hcounted.small⟩
  have hn : u.bufferSize = n := hsize.trans hs.bufferSize
  refine ⟨⟨hopen.lowered c, hcount, ?_, fun h => ?_, fun hfull hempty => ?_, fun hempty hle ho => ?_⟩,
    fun hempty hle ho hlow => ?_⟩
  · exact hsame'.bufferSize.trans (hsame.bufferSize.trans hn)
  · show n ≤ (u.lowered c).unwatch.held
    rw [hheld]
    have h : (u.lowered c).unwatch.overflow = true := h
    rw [hover', hover₁, hn] at h
    simp only [Bool.and_eq_true, Bool.not_eq_true', decide_eq_false_iff_not, not_lt] at h
    exact h.2
  · show (u.lowered c).unwatch.highWatermark = (s.reached && !decide (_ ≤ c.bufferLowWatermark))
    rw [hmark', hheld, ← hs.reached hfull hempty, ← hmark]
    by_cases hlow : u.held ≤ c.bufferLowWatermark
    · rw [(hlow₁ hempty hlow).1, decide_eq_true hlow, Bool.not_true, Bool.and_false]
    · rw [hhigh₁ hlow, decide_eq_false hlow, Bool.not_false, Bool.and_true]
  · have ho : (s.owed && !decide ((u.lowered c).unwatch.held ≤ c.bufferLowWatermark)) = true := ho
    rw [hheld, Bool.and_eq_true, Bool.not_eq_true', decide_eq_false_iff_not] at ho
    show (u.lowered c).unwatch.highWatermark = true
    rw [hmark', hhigh₁ ho.2, hmark]
    exact hs.owed hempty hle ho.1
  · show (u.lowered c).unwatch.notified = s.conn.notified ++ [.bufferEmpty]
    rw [hnote', (hlow₁ hempty (hheld ▸ hlow)).2 (hmark.trans (hs.owed hempty hle ho)), hnote]

lemma Marked.send_step (h : step c (.send data answers) s = some s') (hsmall : Small c (.send data answers) s) :
    s'.Marked c n ∧
      (c.onBufferFull = true → c.onBufferEmpty = true → s.reached = false → s.grown s'.conn = true →
        c.bufferHighWatermark ≤ s'.conn.held → Notified .bufferFull s s') := by
  have hsmall := hsmall s' h
  rw [step, hs.conn.sendToConnection] at h
  obtain ⟨r, hr, rfl⟩ := map_eq_some_iff.1 h
  split at hr
  · -- refused in BASE mode
    cases hr
    obtain ⟨hmarked, hgrown⟩ := hs.unqueued []
    rw [OutConn.takeBytes_nil] at hmarked hgrown
    exact ⟨hmarked, fun _ _ _ h => absurd (hgrown.symm.trans h) Bool.false_ne_true⟩
  · exact hs.send (OutConn.sends_of_sendData hr) hsmall

lemma Marked.writable_step (h : step c (.writable answers) s = some s') : s'.Marked c n ∧
      (c.onBufferEmpty = true → (c.onBufferFull = true → c.bufferHighWatermark ≤ n) → s.owed = true →
        s'.conn.held ≤ c.bufferLowWatermark → Notified .bufferEmpty s s') := by
  rw [step] at h
  generalize hw : s.conn.onWrite c answers = w at h
  rcases w with _ | ⟨_ | _, t⟩
  · cases h
  · exact some.inj h ▸ hs.writable hw
  · cases h

end

lemma marked_opened (c : OutConfig) (n : Nat) (directSend : Bool) : (opened n directSend).Marked c n where
  conn := OutConn.open_opened ..
  counted := ⟨fun _ hq => absurd hq.symm (some_ne_none _), Nat.two_pow_pos 32⟩
  bufferSize := rfl
  overflow := nofun
  reached := fun _ _ => rfl
  owed := nofun

/-- **The events for full and empty buffers are complete.** -/
theorem watermarks_complete (c : OutConfig) (bufferSize : Nat) (directSend : Bool) (acts : List MarkAct)
    (hacts : Along (step c) (Small c) acts (opened bufferSize directSend)) (s : MarkRun)
    (hs : iter (step c) acts (opened bufferSize directSend) = some s) :
    (c.onBufferFull = true → c.onBufferEmpty = true →
      ∀ data answers s', step c (.send data answers) s = some s' → Small c (.send data answers) s →
        s.reached = false → s.grown s'.conn = true → c.bufferHighWatermark ≤ s'.conn.held →
        Notified .bufferFull s s') ∧
      (c.onBufferEmpty = true → (c.onBufferFull = true → c.bufferHighWatermark ≤ bufferSize) →
        ∀ answers s', step c (.writable answers) s = some s' → s.owed = true →
          s'.conn.held ≤ c.bufferLowWatermark → Notified .bufferEmpty s s') := by
  have hmarked : s.Marked c bufferSize := by
    refine iter_keeps ?_ acts hacts (marked_opened c bufferSize directSend) hs
    intro act s s' hsmall hs h
    cases act with
    | send data answers => exact (hs.send_step h hsmall).1
    | writable answers => exact (hs.writable_step h).1
  refine ⟨fun hfull hempty data answers s' h hsmall hr hg hh => ?_, fun hempty hle answers s' h ho hl => ?_⟩
  · exact (hmarked.send_step h hsmall).2 hfull hempty hr hg hh
  · exact (hmarked.writable_step h).2 hempty hle ho hl

/-- process mode with the high watermark at `high` and the low one at 1 -/
def marks (full empty : Bool) (high : Nat) : OutConfig := ⟨false, false, full, empty, high, 1⟩

/-- five bytes come to the watermark at 4, and the sixth byte overflows a buffer of 4 -/
theorem watermarks_complete_both :
    (∃ s, step (marks true true 4) (.send [1, 2, 3, 4, 5] []) (opened 4 true) = some s ∧
      Notified .bufferFull (opened 4 true) s) ∧
    ∃ s s', iter (step (marks true true 4)) [.send [1, 2, 3, 4, 5] [], .send [6] []] (opened 4 true) = some s ∧
      step (marks true true 4) (.writable [.took 7, .took 7]) s = some s' ∧ Notified .bufferEmpty s s' := by
  constructor
  · have hrun : (step (marks true true 4) (.send [1, 2, 3, 4, 5] []) (opened 4 true)).map
        (fun s => ((opened 4 true).grown s.conn, s.conn.held)) = some (true, 5) := by
      decide +kernel
    obtain ⟨s, hs, hstate⟩ := map_eq_some_iff.1 hrun
    obtain ⟨hgrown, hheld⟩ := Prod.mk.inj hstate
    obtain ⟨hfull, -⟩ := watermarks_complete (marks true true 4) 4 true [] trivial (opened 4 true) rfl
    exact ⟨s, hs, hfull rfl rfl _ _ s hs (by decide +kernel) rfl hgrown (by rw [hheld]; decide)⟩
  · have hrun : ((iter (step (marks true true 4)) [.send [1, 2, 3, 4, 5] [], .send [6] []]
        (opened 4 true)).bind fun s => (step (marks true true 4) (.writable [.took 7, .took 7]) s).map fun s' =>
          (s.owed, s'.conn.held)) = some (true, 0) := by
      decide +kernel
    obtain ⟨s, hs, hnext⟩ := bind_eq_some_iff.1 hrun
    obtain ⟨s', hs', hstate⟩ := map_eq_some_iff.1 hnext
    obtain ⟨howed, hheld⟩ := Prod.mk.inj hstate
    obtain ⟨-, hempty⟩ := watermarks_complete (marks true true 4) 4 true _ (by decide +kernel) s hs
    exact ⟨s, s', hs, hs', hempty rfl (fun _ => le_refl 4) _ s' hs' howed (by rw [hheld]; decide)⟩

def record (c : OutConfig) (bufferSize : Nat) (acts : List MarkAct) :
    Option (Bool × Bool × Nat × List OutEvent) :=
  (iter (step c) acts (opened bufferSize true)).map fun s => (s.reached, s.owed, s.conn.held, s.conn.notified)

theorem second_full_missing :
    (record (marks true false 4) 8 [.send [1, 2, 3, 4, 5] [], .writable [.took 7]] =
        some (false, false, 0, [.bufferFull]) ∧
      record (marks true false 4) 8 [.send [1, 2, 3, 4, 5] [], .writable [.took 7], .send [1, 2, 3, 4, 5] []] =
        some (true, false, 5, [.bufferFull])) ∧
    (record (marks true true 9) 2 [.send [1, 2, 3] [], .send [4] []] = some (false, true, 4, []) ∧
      record (marks true true 9) 2 [.send [1, 2, 3] [], .send [4] [], .writable [.took 7, .took 7]] =
        some (false, false, 0, [])) := by
  refine ⟨⟨?_, ?_⟩, ?_, ?_⟩ <;> decide +kernel

end MarkRun

end OSW
