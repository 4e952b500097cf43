import Mathlib.Data.List.TakeWhile
import OpenSwoole.Server.SendToConnection

/-!
# Steps of sending

What `send_to_connection` and the writable callback do to the output queue of a connection.

* `OutputQueue.Whole`   chunks of data are full, and `total_length` counts them, modulo 2^32;
* `flush_spec`   **the loop ends, and keeps the byte stream**;
* `sendData_cases`, `sends_of_sendData`   the ways a send of data can go;
* `Open`   connections that nobody has asked to close.
-/

namespace OSW
open List Option

/-! ## the bytes of a queue -/

namespace OutputQueue

/-- the bytes in front of the first request to close -/
def unsent (chunks : List OutputChunk) : Bytes := (chunks.takeWhile (· ≠ .close)).flatMap OutputChunk.rest

def sizes (q : OutputQueue) : Nat := (q.queue.map OutputChunk.size).sum

structure Whole (q : OutputQueue) : Prop where
  full : ∀ c, OutputChunk.data c ∈ q.queue → c.data.length = c.size ∧ c.offset ≤ c.size
  total : q.totalLength = q.sizes % 2^32

def Plain (q : OutputQueue) : Prop := ∀ task, OutputChunk.sendfile task ∉ q.queue

@[simp] lemma unsent_nil : unsent [] = [] := rfl

@[simp] lemma unsent_close (cs : List OutputChunk) : unsent (.close :: cs) = [] := by simp [unsent]

@[simp] lemma unsent_data (c : BufferChunk) (cs : List OutputChunk) :
    unsent (.data c :: cs) = c.rest ++ unsent cs := by
  simp [unsent, OutputChunk.rest]

variable {cs : List OutputChunk} {q : OutputQueue} {c : OutputChunk}

lemma unsent_append_of_close (h : .close ∈ cs) (cs' : List OutputChunk) :
    unsent (cs ++ cs') = unsent cs := by
  induction cs with
  | nil => cases h
  | cons c cs ih =>
    by_cases hc : c = .close
    · simp [hc]
    · have hcs := ih ((mem_cons.1 h).resolve_left (Ne.symm hc))
      unfold unsent at hcs ⊢
      simp only [cons_append, takeWhile_cons, hc, ne_eq, not_false_eq_true, decide_true, if_true,
        flatMap_cons, hcs]

lemma unsent_append_close (cs : List OutputChunk) : unsent (cs ++ [.close]) = unsent cs := by
  induction cs with
  | nil => simp
  | cons c cs ih =>
    by_cases hc : c = .close
    · simp [hc]
    · unfold unsent at ih ⊢
      simp only [cons_append, takeWhile_cons, hc, ne_eq, not_false_eq_true, decide_true, if_true,
        flatMap_cons, ih]

lemma unsent_append_data (h : .close ∉ cs) (chunks : List BufferChunk) :
    unsent (cs ++ chunks.map .data) = unsent cs ++ chunks.flatMap BufferChunk.rest := by
  have hall : ∀ c ∈ cs, decide (c ≠ OutputChunk.close) = true := fun c hc => decide_eq_true fun he => h (he ▸ hc)
  have hdata : ∀ c ∈ chunks.map OutputChunk.data, decide (c ≠ OutputChunk.close) = true := by
    intro c hc
    obtain ⟨d, -, rfl⟩ := mem_map.1 hc
    rfl
  unfold unsent
  rw [takeWhile_append_of_pos hall, takeWhile_eq_self_iff.2 hdata, takeWhile_eq_self_iff.2 hall,
    flatMap_append, flatMap_map]
  rfl

lemma cut_spec (data : Bytes) : (cut data).queue.flatMap BufferChunk.rest = data ∧ (cut data).Whole := by
  obtain ⟨hp, hw, -⟩ := (Buffer.make sendBufferSize).append_spec data
  exact ⟨hp, hw (Buffer.make_whole _)⟩

lemma sizes_append (q : OutputQueue) (data : Bytes) : (q.append data).sizes = q.sizes + (cut data).sizes := by
  simp only [sizes, append, map_append, List.sum_append, List.map_map, Buffer.sizes]
  rfl

lemma Whole.append (h : q.Whole) (data : Bytes) : (q.append data).Whole := by
  obtain ⟨-, hw⟩ := cut_spec data
  refine ⟨fun c hc => ?_, ?_⟩
  · rcases mem_append.1 hc with hc | hc
    · exact h.full c hc
    · obtain ⟨d, hd, he⟩ := mem_map.1 hc
      obtain rfl := OutputChunk.data.inj he
      exact hw.full d hd
  · rw [sizes_append]
    show (q.totalLength + (cut data).totalLength) % 2^32 = _
    rw [h.total, hw.total, ← Nat.add_mod]

lemma pop_cons (hq : q.queue = c :: cs) :
    q.pop = ⟨(q.totalLength + 2^32 - c.size % 2^32) % 2^32, cs⟩ := by
  unfold pop
  rw [hq]

lemma Whole.pop (h : q.Whole) (hq : q.queue = c :: cs) : q.pop.Whole := by
  rw [pop_cons hq]
  refine ⟨fun d hd => h.full d (hq ▸ mem_cons_of_mem _ hd), ?_⟩
  have ht := h.total
  rw [sizes, hq, map_cons, sum_cons] at ht
  show (q.totalLength + 2^32 - c.size % 2^32) % 2^32 = (cs.map OutputChunk.size).sum % 2^32
  omega

lemma Whole.advance (h : q.Whole) {c : BufferChunk} (hq : q.queue = .data c :: cs) {k : Nat}
    (hk : k ≤ c.data.length - c.offset) :
    Whole { q with queue := .data { c with offset := c.offset + k } :: cs } := by
  refine ⟨fun d hd => ?_, ?_⟩
  · rcases mem_cons.1 hd with he | hd
    · obtain rfl := OutputChunk.data.inj he
      obtain ⟨hlen, hoff⟩ := h.full c (hq ▸ mem_cons_self)
      refine ⟨hlen, ?_⟩
      show c.offset + k ≤ c.size
      omega
    · exact h.full d (hq ▸ mem_cons_of_mem _ hd)
  · have ht := h.total
    rw [sizes, hq] at ht
    exact ht

end OutputQueue

/-! ## what the loop keeps -/

namespace Flush
open OutputQueue

structure Keeps (s s' : Flush) : Prop where
  whole : s.queue.Whole → s'.queue.Whole
  sizes : s'.queue.sizes ≤ s.queue.sizes
  plain : s.queue.Plain → s'.queue.Plain
  close : .close ∈ s'.queue.queue ↔ .close ∈ s.queue.queue
  stream : s.queue.Plain → s'.wire ++ unsent s'.queue.queue = s.wire ++ unsent s.queue.queue

lemma Keeps.refl (s : Flush) : Keeps s s := ⟨id, le_rfl, id, Iff.rfl, fun _ => rfl⟩

variable {s : Flush} {cs : List OutputChunk} {task : SendfileRequest}

lemma Keeps.trans {s' s'' : Flush} (h : Keeps s s') (h' : Keeps s' s'') : Keeps s s'' where
  whole := fun hw => h'.whole (h.whole hw)
  sizes := le_trans h'.sizes h.sizes
  plain := fun hp => h'.plain (h.plain hp)
  close := h'.close.trans h.close
  stream := fun hp => (h'.stream (h.plain hp)).trans (h.stream hp)

/-- every turn takes a chunk off the queue or uses an answer -/
def measure (s : Flush) : Nat := s.queue.queue.length + s.answers.length

section
lemma keeps_answers (s : Flush) (as : List Answer) : Keeps s { s with answers := as } :=
  ⟨id, le_rfl, id, Iff.rfl, fun _ => rfl⟩

variable {c : OutputChunk}

lemma keeps_popped (hq : s.queue.queue = c :: cs) (hc : c ≠ .close) {sent : Bytes}
    (hsent : ∀ d, c = .data d → sent = d.rest) (as : List Answer) : Keeps s (s.popped sent as) := by
  have hpop : (s.popped sent as).queue = s.queue.pop := rfl
  have htail : (s.popped sent as).queue.queue = cs := by rw [hpop, pop_cons hq]
  refine ⟨fun hw => hw.pop hq, ?_, fun hp task ht => hp task ?_, ?_, fun hp => ?_⟩
  · rw [sizes, sizes, htail, hq]
    exact Nat.le_add_left ..
  · rw [hq]
    exact mem_cons_of_mem _ (htail ▸ ht)
  · rw [htail, hq, mem_cons]
    exact (or_iff_right (Ne.symm hc)).symm
  · rw [htail, hq]
    cases c with
    | data d =>
      rw [unsent_data, ← append_assoc, ← hsent d rfl]
      rfl
    | sendfile task => exact absurd (hq ▸ mem_cons_self) (hp task)
    | close => exact absurd rfl hc

lemma keeps_advance_data {c : BufferChunk} (hq : s.queue.queue = .data c :: cs) {k : Nat}
    (hk : k ≤ c.data.length - c.offset) (as : List Answer) :
    Keeps s (s.advance (c.rest.take k) (.data { c with offset := c.offset + k }) as) := by
  have htail : (s.advance (c.rest.take k) (.data { c with offset := c.offset + k }) as).queue =
      { s.queue with queue := .data { c with offset := c.offset + k } :: cs } := by
    rw [advance, hq]
    rfl
  refine ⟨fun hw => ?_, ?_, fun hp task ht => hp task ?_, ?_, fun _ => ?_⟩
  · rw [htail]
    exact hw.advance hq hk
  · rw [htail, sizes, sizes, hq]
    exact le_rfl
  · rw [htail] at ht
    rw [hq]
    exact mem_cons_of_mem _ ((mem_cons.1 ht).resolve_left (by simp))
  · rw [htail, hq]
    simp
  · rw [htail, hq, unsent_data, unsent_data]
    show s.wire ++ c.rest.take k ++ (c.data.drop (c.offset + k) ++ _) = _
    rw [← drop_drop, append_assoc, ← append_assoc (c.rest.take k)]
    show _ ++ (c.rest.take k ++ c.rest.drop k ++ _) = _
    rw [take_append_drop]

lemma keeps_advance_sendfile {task : SendfileRequest} (hq : s.queue.queue = .sendfile task :: cs) (sent : Bytes)
    (task' : SendfileRequest) (as : List Answer) : Keeps s (s.advance sent (.sendfile task') as) := by
  have htail : (s.advance sent (.sendfile task') as).queue =
      { s.queue with queue := .sendfile task' :: cs } := by
    rw [advance, hq]
    rfl
  have hmem : ∀ hp : s.queue.Plain, False := fun hp => hp task (hq ▸ mem_cons_self)
  refine ⟨fun hw => ⟨fun d hd => hw.full d ?_, ?_⟩, ?_, fun hp => (hmem hp).elim, ?_, fun hp => (hmem hp).elim⟩
  · rw [htail] at hd
    rw [hq]
    exact mem_cons_of_mem _ ((mem_cons.1 hd).resolve_left (by simp))
  · have ht := hw.total
    rw [htail, sizes]
    rw [sizes, hq] at ht
    exact ht
  · rw [htail, sizes, sizes, hq]
    exact le_rfl
  · rw [htail, hq]
    simp

lemma measure_popped (hq : s.queue.queue = c :: cs) (sent : Bytes) {as : List Answer}
    (has : as.length ≤ s.answers.length) : (s.popped sent as).measure < s.measure := by
  show s.queue.pop.queue.length + as.length < s.queue.queue.length + s.answers.length
  rw [pop_cons hq, hq, length_cons]
  dsimp only
  omega

end

/-- what a turn does, and how the loop ends -/
def Turns (s : Flush) : Prop :=
  (∃ s', s.turn = .inl s' ∧ Keeps s s' ∧ s'.measure < s.measure) ∨
    ∃ r, s.turn = .inr r ∧ Keeps s r.1 ∧ (r.2 = .closeChunk → r.1.queue.queue.head? = some .close)

lemma turns_handleSend {c : BufferChunk} (hq : s.queue.queue = .data c :: cs) : s.Turns := by
  have hturn : s.turn = s.handleSend c := by
    unfold turn
    rw [hq]
  have hstop : ∀ {s' : Flush}, Keeps s s' → s.turn = .inr (s', .stopped) → s.Turns :=
    fun hk he => .inr ⟨_, he, hk, nofun⟩
  unfold handleSend at hturn
  by_cases hz : c.data.length - c.offset = 0
  · rw [if_pos hz] at hturn
    have hrest : [] = c.rest := (drop_eq_nil_of_le (by omega)).symm
    refine .inl ⟨_, hturn, keeps_popped hq (by simp) ?_ _, measure_popped hq _ le_rfl⟩
    intro d hd
    rw [← OutputChunk.data.inj hd]
    exact hrest
  rw [if_neg hz] at hturn
  have hshort := answer_shorter (c.data.length - c.offset) s.answers
  cases ha : answer (c.data.length - c.offset) s.answers with
  | mk r as =>
    rw [ha] at hturn hshort
    cases r with
    | bytes k =>
      dsimp only at hturn
      have hlt : as.length < s.answers.length := hshort.resolve_left Sent.noConfusion
      by_cases hk : k = c.data.length - c.offset
      · rw [if_pos hk] at hturn
        refine .inl ⟨_, hturn, keeps_popped hq (by simp) ?_ _, measure_popped hq _ (le_of_lt hlt)⟩
        exact fun d hd => OutputChunk.data.inj hd ▸ rfl
      · rw [if_neg hk] at hturn
        have hle := answer_le (show (answer (c.data.length - c.offset) s.answers).1 = .bytes k by rw [ha])
        exact hstop (keeps_advance_data hq hle _) hturn
    | error e =>
      cases e with
      | wait => exact hstop (keeps_answers s as) hturn
      | close => exact .inr ⟨_, hturn, keeps_answers s as, FlushEnd.noConfusion⟩
      | error | invalid =>
        have hlt : as.length < s.answers.length := hshort.resolve_left (by simp)
        exact .inl ⟨_, hturn, keeps_answers s as, Nat.add_lt_add_left hlt _⟩

lemma keeps_filed (hq : s.queue.queue = .sendfile task :: cs) (k : Nat) {as : List Answer}
    (has : as.length < s.answers.length) :
    Keeps s (s.filed task k as) ∧ (s.filed task k as).measure < s.measure := by
  unfold filed
  split
  · exact ⟨keeps_popped hq (by simp) nofun _, measure_popped hq _ (le_of_lt has)⟩
  · refine ⟨keeps_advance_sendfile hq .., ?_⟩
    show (_ :: s.queue.queue.tail).length + as.length < s.queue.queue.length + s.answers.length
    rw [hq]
    exact Nat.add_lt_add_left has _

lemma turns_handleSendfile (hq : s.queue.queue = .sendfile task :: cs) : s.Turns := by
  have hturn : s.turn = s.handleSendfile task := by
    unfold turn
    rw [hq]
  unfold handleSendfile at hturn
  have hshort := answer_shorter (sendfileSize task) s.answers
  cases ha : answer (sendfileSize task) s.answers with
  | mk r as =>
    rw [ha] at hturn hshort
    cases r with
    | bytes k =>
      obtain ⟨hk, hlt⟩ := keeps_filed hq k (hshort.resolve_left Sent.noConfusion)
      exact .inl ⟨_, hturn, hk, hlt⟩
    | error e =>
      cases e with
      | wait | close => exact .inr ⟨_, hturn, keeps_answers s as, FlushEnd.noConfusion⟩
      | error =>
        have hlt : as.length < s.answers.length := hshort.resolve_left (by simp)
        exact .inl ⟨_, hturn, keeps_popped hq (by simp) nofun _, measure_popped hq _ (le_of_lt hlt)⟩
      | invalid =>
        obtain ⟨hk, hlt⟩ := keeps_filed hq 0 (hshort.resolve_left (by simp))
        exact .inl ⟨_, hturn, hk, hlt⟩

lemma turns (s : Flush) : s.Turns := by
  cases hq : s.queue.queue with
  | nil =>
    refine .inr ⟨(s, .stopped), ?_, .refl s, FlushEnd.noConfusion⟩
    unfold turn
    rw [hq]
  | cons c cs =>
    cases c with
    | data c => exact turns_handleSend hq
    | sendfile task => exact turns_handleSendfile hq
    | close =>
      refine .inr ⟨(s, .closeChunk), ?_, .refl s, fun _ => by rw [hq]; rfl⟩
      unfold turn
      rw [hq]

end Flush

lemma flush_spec (s : Flush) :
    ∃ r, flush s = some r ∧ Flush.Keeps s r.1 ∧ (r.2 = .closeChunk → r.1.queue.queue.head? = some .close) := by
  refine Machine.run_spec (I := fun t => Flush.Keeps s t) (μ := Flush.measure) ?_ (Flush.Keeps.refl s)
    (Nat.lt_succ_self _)
  intro t ht
  rcases t.turns with ⟨t', he, hk, hlt⟩ | ⟨r, he, hk, hend⟩
  · exact .inl ⟨t', he, ht.trans hk, hlt⟩
  · exact .inr ⟨r, he, ht.trans hk, hend⟩

/-! ## what a send does -/

namespace OutConn
variable {c : OutConfig} {s s' : OutConn} {data : Bytes} {answers : List Answer}

structure SameSocket (s s' : OutConn) : Prop where
  active : s'.active = s.active
  closing : s'.closing = s.closing
  closed : s'.closed = s.closed
  closeQueued : s'.closeQueued = s.closeQueued
  closeReset : s'.closeReset = s.closeReset
  closeForce : s'.closeForce = s.closeForce
  peerClosed : s'.peerClosed = s.peerClosed
  bufferSize : s'.bufferSize = s.bufferSize

lemma SameSocket.update (s : OutConn) (outBuffer : Option OutputQueue) (overflow highWatermark : Bool)
    (reg : Registration) (wire : Bytes) (notified : List OutEvent) :
    SameSocket s { s with outBuffer, overflow, highWatermark, reg, wire, notified } :=
  ⟨rfl, rfl, rfl, rfl, rfl, rfl, rfl, rfl⟩

lemma SameSocket.refl (s : OutConn) : SameSocket s s := .update ..

lemma takeBytes_same (s : OutConn) (bs : Bytes) : SameSocket s (s.takeBytes bs) := .update ..

lemma makeBuffer_same (s : OutConn) : SameSocket s s.makeBuffer := .update ..

lemma SameSocket.trans {s'' : OutConn} (h : SameSocket s s') (h' : SameSocket s' s'') : SameSocket s s'' :=
  ⟨h'.active.trans h.active, h'.closing.trans h.closing, h'.closed.trans h.closed,
    h'.closeQueued.trans h.closeQueued, h'.closeReset.trans h.closeReset, h'.closeForce.trans h.closeForce,
    h'.peerClosed.trans h.peerClosed, h'.bufferSize.trans h.bufferSize⟩

section
variable (c) (s)

lemma overflowed_same :
    SameSocket s (s.overflowed c) ∧ (s.overflowed c).outBuffer = s.outBuffer ∧ (s.overflowed c).reg = s.reg ∧
      (s.overflowed c).wire = s.wire ∧ (s.overflowed c).notified = s.notified := by
  unfold overflowed
  split
  · exact ⟨.update .., rfl, rfl, rfl, rfl⟩
  · exact ⟨.refl s, rfl, rfl, rfl, rfl⟩

lemma notifyFull_same :
    SameSocket s (s.notifyFull c) ∧ (s.notifyFull c).outBuffer = s.outBuffer ∧ (s.notifyFull c).reg = s.reg ∧
      (s.notifyFull c).wire = s.wire := by
  unfold notifyFull
  split
  · exact ⟨.update .., rfl, rfl, rfl⟩
  · exact ⟨.refl s, rfl, rfl, rfl⟩

lemma enqueue_same (data : Bytes) : SameSocket s (s.enqueue c data) := by
  have h₁ := (overflowed_same c s.makeBuffer).1
  have h₂ := (notifyFull_same c ((s.makeBuffer.overflowed c).append data)).1
  have happend : SameSocket (s.makeBuffer.overflowed c) ((s.makeBuffer.overflowed c).append data) :=
    .update ..
  exact (((makeBuffer_same s).trans h₁).trans happend).trans (h₂.trans (.update ..))

lemma enqueue_outBuffer (data : Bytes) :
    (s.enqueue c data).outBuffer = some ((s.outBuffer.getD .empty).append data) := by
  obtain ⟨-, h₁, -⟩ := overflowed_same c s.makeBuffer
  obtain ⟨-, h₂, -⟩ := notifyFull_same c ((s.makeBuffer.overflowed c).append data)
  show (((s.makeBuffer.overflowed c).append data).notifyFull c).outBuffer = _
  rw [h₂]
  show (s.makeBuffer.overflowed c).outBuffer.map _ = _
  rw [h₁]
  rfl

lemma enqueue_reg (data : Bytes) : (s.enqueue c data).reg = s.reg.wantWrite := by
  obtain ⟨-, -, h₁, -⟩ := overflowed_same c s.makeBuffer
  obtain ⟨-, -, h₂, -⟩ := notifyFull_same c ((s.makeBuffer.overflowed c).append data)
  show (((s.makeBuffer.overflowed c).append data).notifyFull c).reg.wantWrite = _
  rw [h₂]
  show (s.makeBuffer.overflowed c).reg.wantWrite = _
  rw [h₁]
  rfl

lemma enqueue_wire (data : Bytes) : (s.enqueue c data).wire = s.wire := by
  obtain ⟨-, -, -, h₁, -⟩ := overflowed_same c s.makeBuffer
  obtain ⟨-, -, -, h₂⟩ := notifyFull_same c ((s.makeBuffer.overflowed c).append data)
  exact h₂.trans h₁

end

lemma queue_getD (s : OutConn) : (s.outBuffer.getD .empty).queue = s.queue := by
  unfold queue
  cases s.outBuffer <;> rfl

lemma enqueue_queue (c : OutConfig) (s : OutConn) (data : Bytes) :
    (s.enqueue c data).queue = s.queue ++ (OutputQueue.cut data).queue.map .data := by
  rw [queue, enqueue_outBuffer, ← queue_getD]
  rfl

lemma queueEmpty_iff : s.queueEmpty = true ↔ s.queue = [] := isEmpty_iff

@[simp] lemma takeBytes_nil (s : OutConn) : s.takeBytes [] = s := by rw [takeBytes, append_nil]

/-- data is sent at once, or refused, or what the kernel has not taken is queued -/
inductive Sends (c : OutConfig) (s : OutConn) (data : Bytes) : OutConn → Prop
  | direct (h : s.queue = []) : Sends c s data (s.takeBytes data)
  | refused (k : Nat) (hk : k = 0 ∨ k < data.length) (h : s.peerClosed = true) :
      Sends c s data (s.takeBytes (data.take k)).makeBuffer
  | queued (k : Nat) (hk : k < data.length) (h : k ≠ 0 → s.queue = []) (hpeer : s.peerClosed = false) :
      Sends c s data ((s.takeBytes (data.take k)).enqueue c (data.drop k))

lemma bufferSend_sends (c : OutConfig) (s : OutConn) {k : Nat} (hk : k < data.length)
    (h : k ≠ 0 → s.queue = []) :
    ∃ s', (s.takeBytes (data.take k)).bufferSend c (data.drop k) = some (0, s') ∧ Sends c s data s' := by
  unfold bufferSend
  cases hpeer : s.peerClosed with
  | true => exact ⟨_, if_pos hpeer, .refused k (.inr hk) hpeer⟩
  | false =>
    have hne : data.drop k ≠ [] := by
      intro he
      have := congrArg length he
      rw [length_drop, length_nil] at this
      omega
    have hf : ¬ (s.takeBytes (data.take k)).peerClosed = true :=
      fun he => Bool.false_ne_true (hpeer.symm.trans he)
    rw [if_neg hf, if_neg hne]
    exact ⟨_, rfl, .queued k hk h hpeer⟩

lemma sendData_cases (c : OutConfig) (s : OutConn) (hdata : data ≠ []) (answers : List Answer) :
    ∃ s', s.sendData c data answers = some (0, s') ∧ Sends c s data s' := by
  have hpos : 0 < data.length := length_pos_iff.2 hdata
  have hall : ∃ s', s.bufferSend c data = some (0, s') ∧ Sends c s data s' := by
    have h := bufferSend_sends c s hpos (fun h => absurd rfl h)
    rwa [drop_zero, take_zero, takeBytes_nil] at h
  unfold sendData
  by_cases hdirect : (s.queueEmpty && s.directSend) = true
  · rw [if_pos hdirect]
    have hq : s.queue = [] := queueEmpty_iff.1 (Bool.and_eq_true_iff.1 hdirect).1
    cases ha : (answer data.length answers).1 with
    | bytes k =>
      dsimp only
      by_cases hk : k = data.length
      · rw [if_pos hk]
        exact ⟨_, rfl, .direct hq⟩
      · rw [if_neg hk]
        exact bufferSend_sends c s (lt_of_le_of_ne (answer_le ha) hk) fun _ => hq
    | error e => exact hall
  · rw [if_neg hdirect]
    exact hall

variable {r : Int × OutConn}

lemma sends_of_sendData (h : s.sendData c data answers = some r) : Sends c s data r.2 := by
  by_cases hdata : data = []
  · have hall : ∀ {r}, s.bufferSend c [] = some r → Sends c s [] r.2 := by
      intro r h
      unfold bufferSend at h
      split at h
      case isTrue hpeer =>
        have hrefused : Sends c s [] _ := .refused 0 (.inl rfl) hpeer
        rw [take_nil, takeBytes_nil] at hrefused
        exact some.inj h ▸ hrefused
      case isFalse => exact absurd h.symm (some_ne_none _)
    subst hdata
    unfold sendData at h
    split at h
    case isTrue hdirect =>
      have hq : s.queue = [] := queueEmpty_iff.1 (Bool.and_eq_true_iff.1 hdirect).1
      cases ha : (answer ([] : Bytes).length answers).1 with
      | bytes k =>
        rw [ha] at h
        obtain rfl : k = 0 := Nat.le_zero.1 (answer_le ha)
        exact some.inj h ▸ .direct hq
      | error e =>
        rw [ha] at h
        exact hall h
    case isFalse => exact hall h
  · obtain ⟨s', hs', hsends⟩ := sendData_cases c s hdata answers
    exact some.inj (hs'.symm.trans h) ▸ hsends

lemma queue_makeBuffer (s : OutConn) : s.makeBuffer.queue = s.queue := queue_getD s

lemma close_notMem_cut (data : Bytes) : .close ∉ (OutputQueue.cut data).queue.map OutputChunk.data := by
  intro h
  obtain ⟨d, -, he⟩ := mem_map.1 h
  exact OutputChunk.noConfusion he

lemma Sends.same (h : Sends c s data s') : SameSocket s s' ∧ (.close ∈ s'.queue ↔ .close ∈ s.queue) := by
  cases h with
  | direct hq => exact ⟨.update .., Iff.rfl⟩
  | refused k hk hpeer =>
    refine ⟨.update .., ?_⟩
    rw [queue_makeBuffer]
    exact Iff.rfl
  | queued k hk hq hpeer =>
    refine ⟨(takeBytes_same ..).trans (enqueue_same ..), ?_⟩
    rw [enqueue_queue, mem_append]
    exact or_iff_left (close_notMem_cut _)

lemma sendfile_same (s : OutConn) (file : FileState) (offset : Int) (length : Nat) :
    SameSocket s (s.sendfile file offset length).2 ∧
      (.close ∈ (s.sendfile file offset length).2.queue ↔ .close ∈ s.queue) := by
  cases file with
  | missing | noStat => exact ⟨.refl s, Iff.rfl⟩
  | content bytes =>
    unfold sendfile
    dsimp only
    split
    · exact ⟨.refl s, Iff.rfl⟩
    · split
      · refine ⟨makeBuffer_same s, ?_⟩
        rw [queue_makeBuffer]
      · refine ⟨.update .., ?_⟩
        rw [← queue_getD s]
        show .close ∈ (s.outBuffer.getD .empty).queue ++ [_] ↔ _
        rw [mem_append]
        exact or_iff_left fun h => OutputChunk.noConfusion (mem_singleton.1 h)

lemma sendFile_same (s : OutConn) (file : FileState) (offset : Int) (length : Nat) :
    SameSocket s (s.sendFile file offset length) ∧
      (.close ∈ (s.sendFile file offset length).queue ↔ .close ∈ s.queue) := by
  have hfirst : ∀ t : OutConn, SameSocket t (if t.queueEmpty then t.makeBuffer else t) ∧
      (if t.queueEmpty then t.makeBuffer else t).queue = t.queue := by
    intro t
    split
    · exact ⟨.update .., queue_makeBuffer t⟩
    · exact ⟨.refl t, rfl⟩
  obtain ⟨hsame, hqueue⟩ := hfirst s
  obtain ⟨hsame', hclose⟩ := sendfile_same (if s.queueEmpty then s.makeBuffer else s) file offset length
  rw [hqueue] at hclose
  unfold sendFile
  dsimp only
  generalize (if s.queueEmpty = true then s.makeBuffer else s) = t at hsame hsame' hclose ⊢
  split
  · exact ⟨hsame.trans hsame', hclose⟩
  · exact ⟨(hsame.trans hsame').trans (.update ..), hclose⟩

lemma pauseRecv_same (s : OutConn) : SameSocket s s.pauseRecv.2 ∧ s.pauseRecv.2.queue = s.queue := by
  unfold pauseRecv
  split
  · exact ⟨.refl s, rfl⟩
  · split <;> exact ⟨.update .., rfl⟩

lemma resumeRecv_same (s : OutConn) : SameSocket s s.resumeRecv.2 ∧ s.resumeRecv.2.queue = s.queue := by
  unfold resumeRecv
  split
  · exact ⟨.refl s, rfl⟩
  · split <;> exact ⟨.update .., rfl⟩

lemma request_same {req : SendRequest} (hreq : req ≠ .close) (h : s.sendToConnection c req answers = some r) :
    SameSocket s r.2 ∧ (.close ∈ r.2.queue ↔ .close ∈ s.queue) := by
  unfold sendToConnection at h
  split at h
  · exact some.inj h ▸ ⟨.refl s, Iff.rfl⟩
  split at h
  · exact some.inj h ▸ ⟨.refl s, Iff.rfl⟩
  cases req with
  | data bytes => exact (sends_of_sendData h).same
  | sendfile file offset length => exact some.inj h ▸ sendFile_same s file offset length
  | close => exact absurd rfl hreq
  | pauseRecv =>
    obtain ⟨hsame, hqueue⟩ := pauseRecv_same s
    exact some.inj h ▸ ⟨hsame, by rw [hqueue]⟩
  | resumeRecv =>
    obtain ⟨hsame, hqueue⟩ := resumeRecv_same s
    exact some.inj h ▸ ⟨hsame, by rw [hqueue]⟩

/-! ## what the writable callback does -/

lemma lowered_same (c : OutConfig) (s : OutConn) :
    SameSocket s (s.lowered c) ∧ (s.lowered c).outBuffer = s.outBuffer ∧ (s.lowered c).reg = s.reg ∧
      (s.lowered c).wire = s.wire := by
  unfold lowered
  dsimp only
  split
  · exact ⟨.update .., rfl, rfl, rfl⟩
  · exact ⟨.update .., rfl, rfl, rfl⟩

lemma unwatch_same (s : OutConn) :
    SameSocket s s.unwatch ∧ s.unwatch.outBuffer = s.outBuffer ∧ s.unwatch.wire = s.wire ∧
      s.unwatch.highWatermark = s.highWatermark ∧ s.unwatch.notified = s.notified ∧
      s.unwatch.overflow = s.overflow := by
  unfold unwatch
  split
  · exact ⟨.update .., rfl, rfl, rfl, rfl, rfl⟩
  · exact ⟨.refl s, rfl, rfl, rfl, rfl, rfl⟩

lemma unwatch_reg (hpeer : s.peerClosed = false) {e : Events} (hreg : s.reg = .on e) :
    s.unwatch.reg = .on (if s.queueEmpty = true then ⟨true, false⟩ else e) := by
  unfold unwatch
  rw [hpeer, hreg]
  cases s.queueEmpty with
  | true => rfl
  | false => exact hreg

def withFlush (s : OutConn) (f : Flush) : OutConn := { s with wire := f.wire, outBuffer := some f.queue }

lemma withFlush_same (s : OutConn) (f : Flush) : SameSocket s (s.withFlush f) := .update ..

/-- there is nothing to write, the loop is left, it finds a request to close, or the close event is triggered -/
inductive Writes (c : OutConfig) (s : OutConn) (answers : List Answer) : Bool × OutConn → Prop
  | idle (h : s.outBuffer = none) : Writes c s answers (false, (s.lowered c).unwatch)
  | stopped (q : OutputQueue) (f : Flush) (hq : s.outBuffer = some q) (hk : Flush.Keeps ⟨s.wire, q, answers⟩ f) :
      Writes c s answers (false, ((s.withFlush f).lowered c).unwatch)
  | closed (q : OutputQueue) (f : Flush) (hq : s.outBuffer = some q) (hk : Flush.Keeps ⟨s.wire, q, answers⟩ f)
      (hclose : f.queue.queue.head? = some .close) : Writes c s answers (false, (s.withFlush f).release)
  | event (q : OutputQueue) (f : Flush) (hq : s.outBuffer = some q) (hk : Flush.Keeps ⟨s.wire, q, answers⟩ f) :
      Writes c s answers (true, s.withFlush f)

lemma onWrite_cases (c : OutConfig) (hactive : s.active = true) (hforce : s.closeForce = false)
    (answers : List Answer) : ∃ r, s.onWrite c answers = some r ∧ Writes c s answers r := by
  unfold onWrite
  rw [if_neg (ne_false_of_eq_true hactive), if_neg (by rw [hforce, Bool.and_false]; exact Bool.noConfusion)]
  cases hq : s.outBuffer with
  | none => exact ⟨_, rfl, .idle hq⟩
  | some q =>
    obtain ⟨⟨f, e⟩, he, hk, hend⟩ := flush_spec ⟨s.wire, q, answers⟩
    dsimp only
    rw [he]
    cases e with
    | stopped => exact ⟨_, rfl, .stopped q f hq hk⟩
    | closeChunk => exact ⟨_, rfl, .closed q f hq hk (hend rfl)⟩
    | closeEvent => exact ⟨_, rfl, .event q f hq hk⟩

/-! ## open connections -/

structure Open (s : OutConn) : Prop where
  active : s.active = true
  closeForce : s.closeForce = false
  peerClosed : s.peerClosed = false
  noClose : .close ∉ s.queue

lemma open_opened (bufferSize : Nat) (directSend : Bool) : Open (opened bufferSize directSend) :=
  ⟨rfl, rfl, rfl, not_mem_nil⟩

variable (hs : Open s)
include hs

lemma Open.of_same (h : SameSocket s s') (hclose : .close ∉ s'.queue) : Open s' :=
  ⟨h.active.trans hs.active, h.closeForce.trans hs.closeForce, h.peerClosed.trans hs.peerClosed, hclose⟩

lemma Open.sendToConnection (c : OutConfig) (req : SendRequest) (answers : List Answer) :
    s.sendToConnection c req answers =
      if (c.base && s.overflow) = true then some (-1, s) else s.handleRequest c answers req := by
  rw [OutConn.sendToConnection, if_neg (ne_false_of_eq_true hs.active)]

lemma Open.enqueue (c : OutConfig) (data : Bytes) : Open (s.enqueue c data) := by
  refine hs.of_same (enqueue_same ..) ?_
  rw [enqueue_queue, mem_append, not_or]
  exact ⟨hs.noClose, close_notMem_cut data⟩

lemma Open.takeBytes (bs : Bytes) : Open (s.takeBytes bs) := { hs with }

lemma Open.sends (h : Sends c s data s') : Open s' := by
  cases h with
  | direct hq => exact hs.takeBytes data
  | refused k hk hpeer => cases hs.peerClosed.symm.trans hpeer
  | queued k hk hq hpeer => exact (hs.takeBytes _).enqueue c _

lemma Open.withFlush {q : OutputQueue} (hq : s.outBuffer = some q) {f : Flush}
    (hk : Flush.Keeps ⟨s.wire, q, answers⟩ f) : Open (s.withFlush f) := by
  refine hs.of_same (withFlush_same s f) fun hmem => hs.noClose ?_
  rw [queue, hq]
  exact hk.close.1 hmem

lemma Open.lowered (c : OutConfig) : Open (s.lowered c).unwatch := by
  obtain ⟨hsame, hbuffer, -⟩ := lowered_same c s
  obtain ⟨hsame', hbuffer', -⟩ := unwatch_same (s.lowered c)
  refine hs.of_same (hsame.trans hsame') ?_
  rw [queue, hbuffer', hbuffer]
  exact hs.noClose

/-- there was nothing to write, or the loop has run -/
inductive Flushes (s : OutConn) (answers : List Answer) : OutConn → Prop
  | idle (h : s.outBuffer = none) : Flushes s answers s
  | loop (q : OutputQueue) (f : Flush) (hq : s.outBuffer = some q) (hk : Flush.Keeps ⟨s.wire, q, answers⟩ f) :
      Flushes s answers (s.withFlush f)

lemma Open.writable (h : s.onWrite c answers = some (false, s')) :
    ∃ t, Flushes s answers t ∧ Open t ∧ s' = (t.lowered c).unwatch := by
  obtain ⟨r, hr, hwrites⟩ := onWrite_cases c hs.active hs.closeForce answers
  generalize he : (false, s') = r' at h
  obtain rfl := some.inj (hr.symm.trans h)
  cases hwrites with
  | idle hq => exact ⟨s, .idle hq, hs, (Prod.mk.inj he).2⟩
  | stopped q f hq hk => exact ⟨_, .loop q f hq hk, hs.withFlush hq hk, (Prod.mk.inj he).2⟩
  | closed q f hq hk hclose =>
    obtain ⟨rest, hrest⟩ := head?_eq_some_iff.1 hclose
    refine absurd ?_ (hs.withFlush hq hk).noClose
    show .close ∈ f.queue.queue
    rw [hrest]
    exact mem_cons_self
  | event q f hq hk => cases (Prod.mk.inj he).1

end OutConn

end OSW
