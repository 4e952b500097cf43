import Mathlib.Algebra.Order.BigOperators.Group.List
import Mathlib.Algebra.Order.Group.Nat
import OpenSwoole.Server.SendSteps

/-!
# A close behind data

A connection of process mode gets data and one request to close (`OSW_SERVER_EVENT_CLOSE` of
`Server::send_to_connection`); writable callbacks come at any time.  Where the queue is not empty, the request to
close goes behind the data.

* `SendAct.step`   one call; a triggered close event (a fatal error of the socket) is outside;
* `drain_closes`   a socket that takes everything gets to the request.
-/

namespace OSW
open List Option Machine

inductive SendAct where
  | send (data : Bytes) (answers : List Answer)
  | close
  | writable (answers : List Answer)

namespace SendAct

def payload : SendAct → Bytes
  | .send data _ => data
  | _ => []

def Data : SendAct → Prop
  | .send data _ => data ≠ []
  | .close => False
  | .writable _ => True

def step (c : OutConfig) : SendAct → OutConn → Option OutConn
  | .send data answers, s => (s.sendToConnection c (.data data) answers).map Prod.snd
  | .close, s => (s.sendToConnection c .close []).map Prod.snd
  | .writable answers, s =>
    match s.onWrite c answers with
    | some (false, s') => some s'
    | _ => none

end SendAct

namespace OutConn
open OutputQueue
variable {c : OutConfig} {s s' : OutConn} {sent : Bytes} {closing : Bool}

/-- an open connection with data: `sent` is on the wire or to be sent -/
structure Sending (sent : Bytes) (closing : Bool) (s : OutConn) : Prop where
  active : s.active = true
  closeReset : s.closeReset = false
  closeForce : s.closeForce = false
  peerClosed : s.peerClosed = false
  plain : ∀ task, .sendfile task ∉ s.queue
  close : .close ∈ s.queue ↔ closing = true
  stream : s.wire ++ unsent s.queue = sent

structure Delivered (sent : Bytes) (closing : Bool) (s : OutConn) : Prop where
  requested : closing = true
  inactive : s.active = false
  wire : s.wire = sent

section
variable (hs : Sending sent closing s)
include hs

lemma Sending.of_same (h : SameSocket s s') {sent' : Bytes} {closing' : Bool}
    (hplain : ∀ task, .sendfile task ∉ s'.queue) (hclose : .close ∈ s'.queue ↔ closing' = true)
    (hstream : s'.wire ++ unsent s'.queue = sent') : Sending sent' closing' s' :=
  ⟨h.active.trans hs.active, h.closeReset.trans hs.closeReset, h.closeForce.trans hs.closeForce,
    h.peerClosed.trans hs.peerClosed, hplain, hclose, hstream⟩

lemma Sending.enqueue (data : Bytes) :
    Sending (sent ++ if closing = true then [] else data) closing (s.enqueue c data) := by
  have hdata : ∀ oc ∈ (cut data).queue.map OutputChunk.data, oc ≠ .close ∧ ∀ task, oc ≠ .sendfile task := by
    intro oc hoc
    obtain ⟨d, -, rfl⟩ := mem_map.1 hoc
    exact ⟨OutputChunk.noConfusion, fun _ => OutputChunk.noConfusion⟩
  refine hs.of_same (enqueue_same c s data) ?_ ?_ ?_
  · intro task htask
    rw [enqueue_queue] at htask
    rcases mem_append.1 htask with h | h
    · exact hs.plain task h
    · exact (hdata _ h).2 task rfl
  · rw [enqueue_queue, mem_append, hs.close]
    exact or_iff_left fun h => (hdata _ h).1 rfl
  · rw [enqueue_queue, enqueue_wire]
    cases closing with
    | true => rw [unsent_append_of_close (hs.close.2 rfl), hs.stream, if_pos rfl, append_nil]
    | false =>
      have hnone : .close ∉ s.queue := fun h => Bool.false_ne_true (hs.close.1 h)
      rw [unsent_append_data hnone, (cut_spec data).1, ← append_assoc, hs.stream, if_neg Bool.false_ne_true]

lemma Sending.takeBytes (hq : s.queue = []) (bs : Bytes) :
    Sending (sent ++ bs) closing (s.takeBytes bs) := by
  have hwire : s.wire = sent := by
    have := hs.stream
    rwa [hq, unsent_nil, append_nil] at this
  refine hs.of_same (takeBytes_same s bs) hs.plain hs.close ?_
  show s.wire ++ bs ++ unsent s.queue = _
  rw [hq, unsent_nil, append_nil, hwire]

end

lemma Sending.queue_ne_nil (hs : Sending sent true s) : s.queue ≠ [] := ne_nil_of_mem (hs.close.2 rfl)

lemma Sending.send (hs : Sending sent closing s) {data : Bytes} (h : Sends c s data s') :
    Sending (sent ++ if closing = true then [] else data) closing s' := by
  have hfirst : s.queue = [] → closing = false := by
    intro hq
    cases closing with
    | true => exact absurd hq hs.queue_ne_nil
    | false => rfl
  cases h with
  | direct hq => exact hfirst hq ▸ hs.takeBytes hq data
  | refused k hk hpeer => cases hs.peerClosed.symm.trans hpeer
  | queued k hk hq hpeer =>
    by_cases hzero : k = 0
    · rw [hzero, take_zero, takeBytes_nil]
      exact hs.enqueue data
    · -- a part is sent at once: the queue was empty
      have hclosing := hfirst (hq hzero)
      have h := (hs.takeBytes (hq hzero) (data.take k)).enqueue (c := c) (data.drop k)
      rw [hclosing, if_neg Bool.false_ne_true, append_assoc, take_append_drop] at h
      rw [hclosing]
      exact h

lemma Sending.sendClose (hs : Sending sent false s) :
    Sending sent true s.sendClose ∨ Delivered sent true s.sendClose := by
  unfold OutConn.sendClose
  rw [hs.closeReset, hs.closeForce, hs.peerClosed, Bool.or_self, Bool.or_self, if_neg Bool.false_ne_true]
  by_cases hq : s.queueEmpty = true
  · rw [if_pos hq]
    have hwire := hs.stream
    rw [queueEmpty_iff.1 hq, unsent_nil, append_nil] at hwire
    exact .inr ⟨rfl, rfl, hwire⟩
  · rw [if_neg hq]
    have hqueue : (s.alloc .close).queue = s.queue ++ [.close] := by
      cases hb : s.outBuffer with
      | none => exact absurd (queueEmpty_iff.2 (by rw [queue, hb]; rfl)) hq
      | some q =>
        rw [queue, alloc, queue, hb]
        rfl
    refine .inl { hs with plain := ?_, close := ?_, stream := ?_ }
    · intro task htask
      rcases mem_append.1 (hqueue ▸ htask) with h | h
      · exact hs.plain task h
      · exact OutputChunk.noConfusion (mem_singleton.1 h)
    · show .close ∈ (s.alloc .close).queue ↔ _
      rw [hqueue]
      exact iff_of_true (mem_append_right _ mem_cons_self) rfl
    · show s.wire ++ unsent (s.alloc .close).queue = sent
      rw [hqueue, unsent_append_close, hs.stream]

section
variable (hs : Sending sent closing s)
include hs

lemma Sending.withFlush {q : OutputQueue} (hq : s.outBuffer = some q)
    {answers : List Answer} {f : Flush} (hk : Flush.Keeps ⟨s.wire, q, answers⟩ f) :
    Sending sent closing (s.withFlush f) := by
  have hqueue : s.queue = q.queue := by
    rw [queue, hq]
    rfl
  have hplain : q.Plain := fun task => hqueue ▸ hs.plain task
  refine hs.of_same (withFlush_same s f) (hk.plain hplain) (hk.close.trans (hqueue ▸ hs.close)) ?_
  exact (hk.stream hplain).trans (hqueue ▸ hs.stream)

lemma Sending.lowered : Sending sent closing (s.lowered c).unwatch := by
  obtain ⟨hsame, hbuffer, -, hwire⟩ := lowered_same c s
  obtain ⟨hsame', hbuffer', hwire', -⟩ := unwatch_same (s.lowered c)
  have hqueue : (s.lowered c).unwatch.queue = s.queue := by rw [queue, hbuffer', hbuffer, queue]
  refine hs.of_same (hsame.trans hsame') ?_ ?_ ?_
  · rw [hqueue]
    exact hs.plain
  · rw [hqueue]
    exact hs.close
  · rw [hqueue, hwire', hwire]
    exact hs.stream

lemma Sending.writable {answers : List Answer} {e : Bool}
    (h : Writes c s answers (e, s')) (he : e = false) : Sending sent closing s' ∨ Delivered sent closing s' := by
  cases h with
  | idle hq => exact .inl hs.lowered
  | stopped q f hq hk => exact .inl (hs.withFlush hq hk).lowered
  | closed q f hq hk hclose =>
    have hf := hs.withFlush hq hk
    obtain ⟨rest, hrest⟩ := head?_eq_some_iff.1 hclose
    have hqueue : (s.withFlush f).queue = .close :: rest := hrest
    have hwire := hf.stream
    rw [hqueue, unsent_close, append_nil] at hwire
    exact .inr ⟨hf.close.1 (hqueue ▸ mem_cons_self), rfl, hwire⟩
  | event q f hq hk => cases he

end

/-! ## runs -/

lemma step_inactive (c : OutConfig) (hs : s.active = false) (d : SendAct) : d.step c s = some s := by
  cases d with
  | writable answers => simp only [SendAct.step, onWrite, if_pos hs]
  | _ => simp only [SendAct.step, sendToConnection, if_pos hs, map_some]

lemma Sending.step (hbase : c.base = false) (hs : Sending sent closing s) {d : SendAct} (hd : d.Data)
    (h : d.step c s = some s') :
    Sending (sent ++ if closing = true then [] else d.payload) closing s' ∨ Delivered sent closing s' := by
  have hactive : ¬ s.active = false := by rw [hs.active]; exact Bool.noConfusion
  cases d with
  | send data answers =>
    obtain ⟨t, ht, hsends⟩ := sendData_cases c s hd answers
    have hsend : s.sendToConnection c (.data data) answers = some (0, t) := by
      rw [sendToConnection, if_neg hactive, hbase]
      exact ht
    rw [SendAct.step, hsend] at h
    exact .inl (some.inj h ▸ hs.send hsends)
  | close => exact hd.elim
  | writable answers =>
    obtain ⟨⟨e, t⟩, ht, hwrites⟩ := onWrite_cases c hs.active hs.closeForce answers
    rw [SendAct.step, ht] at h
    have hpayload : (sent ++ if closing = true then [] else (SendAct.writable answers).payload) = sent := by
      show (sent ++ if closing = true then [] else []) = sent
      rw [ite_self, append_nil]
    rw [hpayload]
    cases e with
    | true => cases h
    | false => exact some.inj h ▸ hs.writable hwrites rfl

lemma Sending.before (hbase : c.base = false) (ds : List SendAct) (hds : ∀ d ∈ ds, d.Data)
    (hs : Sending sent false s) (h : iter (SendAct.step c) ds s = some s') :
    Sending (sent ++ ds.flatMap SendAct.payload) false s' := by
  induction ds generalizing s sent with
  | nil =>
    rw [flatMap_nil, append_nil]
    exact some.inj h ▸ hs
  | cons d ds ih =>
    obtain ⟨t, ht, hrest⟩ := bind_eq_some_iff.1 h
    rcases hs.step hbase (hds d mem_cons_self) ht with hsend | hdone
    · rw [flatMap_cons, ← append_assoc]
      exact ih (fun d' hd' => hds d' (mem_cons_of_mem _ hd')) hsend hrest
    · cases hdone.requested

lemma Sending.after (hbase : c.base = false) {d : SendAct} (hd : d.Data)
    (hs : Sending sent true s ∨ Delivered sent true s) (h : d.step c s = some s') :
    Sending sent true s' ∨ Delivered sent true s' := by
  rcases hs with hs | hs
  · have := hs.step hbase hd h
    rwa [if_pos rfl, append_nil] at this
  · rw [step_inactive c hs.inactive] at h
    exact .inr (some.inj h ▸ hs)

end OutConn

/-! ## draining -/

/-- every answer takes a whole chunk, and there are as many as chunks -/
structure Flush.Drains (m : Nat) (s : Flush) : Prop where
  plain : s.queue.Plain
  close : .close ∈ s.queue.queue
  small : ∀ oc ∈ s.queue.queue, oc.rest.length ≤ m + 1
  takes : ∀ a ∈ s.answers, a = .took m
  enough : s.queue.queue.length ≤ s.answers.length

lemma Flush.Drains.popped {m : Nat} {s : Flush} (hs : s.Drains m) {d : BufferChunk} {cs : List OutputChunk}
    (hq : s.queue.queue = .data d :: cs) (bytes : Bytes) {as : List Answer} (has : ∀ a ∈ as, a ∈ s.answers)
    (hlen : s.answers.length ≤ as.length + 1) : (s.popped bytes as).Drains m := by
  have hpop : (s.popped bytes as).queue.queue = cs := by
    show s.queue.pop.queue = cs
    rw [OutputQueue.pop_cons hq]
  have hmem : ∀ oc ∈ cs, oc ∈ s.queue.queue := fun oc h => hq ▸ mem_cons_of_mem _ h
  refine ⟨fun task h => hs.plain task (hmem _ (hpop ▸ h)), ?_, fun oc h => hs.small oc (hmem oc (hpop ▸ h)),
    fun a h => hs.takes a (has a h), ?_⟩
  · have hclose := hs.close
    rw [hq] at hclose
    rw [hpop]
    exact (mem_cons.1 hclose).resolve_left OutputChunk.noConfusion
  · have henough := hs.enough
    rw [hq, length_cons] at henough
    rw [hpop]
    show cs.length ≤ as.length
    omega

lemma Flush.Drains.turn {m : Nat} {s : Flush} (hs : s.Drains m) :
    Steps Flush.turn (Flush.Drains m) Flush.measure (fun r => r.2 = .closeChunk) s := by
  cases hq : s.queue.queue with
  | nil => exact absurd hs.close (hq ▸ not_mem_nil)
  | cons oc cs =>
    cases oc with
    | sendfile task => exact absurd (hq ▸ mem_cons_self) (hs.plain task)
    | close =>
      refine .inr ⟨(s, .closeChunk), ?_, rfl⟩
      unfold Flush.turn
      rw [hq]
    | data d =>
      have hturn : s.turn = s.handleSend d := by
        unfold Flush.turn
        rw [hq]
      unfold Flush.handleSend at hturn
      by_cases hz : d.data.length - d.offset = 0
      · rw [if_pos hz] at hturn
        exact .inl ⟨_, hturn, hs.popped hq _ (fun _ h => h) (Nat.le_succ _), Flush.measure_popped hq _ le_rfl⟩
      · rw [if_neg hz] at hturn
        cases has : s.answers with
        | nil =>
          have := hs.enough
          rw [hq, has] at this
          exact absurd this (Nat.not_succ_le_zero _)
        | cons a as =>
          obtain rfl : a = .took m := hs.takes a (has ▸ mem_cons_self)
          have hsmall := hs.small (.data d) (hq ▸ mem_cons_self)
          rw [OutputChunk.rest, BufferChunk.rest, length_drop] at hsmall
          have hmin : min (m + 1) (d.data.length - d.offset) = d.data.length - d.offset := min_eq_right hsmall
          rw [has, answer, hmin] at hturn
          dsimp only at hturn
          rw [if_pos rfl] at hturn
          refine .inl ⟨_, hturn, hs.popped hq _ (fun a h => has ▸ mem_cons_of_mem _ h) ?_, ?_⟩
          · rw [has, length_cons]
          · exact Flush.measure_popped hq _ (by rw [has]; exact Nat.le_succ _)

namespace OutConn
open OutputQueue
variable {c : OutConfig} {s : OutConn} {sent : Bytes}

lemma Sending.drain_closes (hs : Sending sent true s) :
    ∃ answers t, (SendAct.writable answers).step c s = some t ∧ Delivered sent true t := by
  cases hb : s.outBuffer with
  | none => exact absurd (by rw [queue, hb]; rfl) hs.queue_ne_nil
  | some q =>
    have hqueue : s.queue = q.queue := by
      rw [queue, hb]
      rfl
    -- one answer for each chunk, and each takes as much as all of them hold
    let m := (q.queue.map fun oc => oc.rest.length).sum
    let answers := replicate q.queue.length (Answer.took m)
    have hdrains : Flush.Drains m ⟨s.wire, q, answers⟩ := by
      refine ⟨fun task => hqueue ▸ hs.plain task, hqueue ▸ hs.close.2 rfl, fun oc hoc => ?_,
        fun a ha => eq_of_mem_replicate ha, by rw [length_replicate]⟩
      exact Nat.le_succ_of_le (le_sum_of_mem (mem_map_of_mem hoc))
    obtain ⟨⟨f, e⟩, hf, hend⟩ : ∃ r, flush ⟨s.wire, q, answers⟩ = some r ∧ r.2 = .closeChunk :=
      run_spec (fun t ht => Flush.Drains.turn ht) hdrains (Nat.lt_succ_self _)
    obtain rfl : e = .closeChunk := hend
    have hwrite : s.onWrite c answers = some (false, (s.withFlush f).release) := by
      unfold onWrite
      rw [if_neg (ne_false_of_eq_true hs.active),
        if_neg (by rw [hs.closeForce, Bool.and_false]; exact Bool.noConfusion), hb]
      show (flush ⟨s.wire, q, answers⟩).map _ = _
      rw [hf]
      rfl
    have hstep : (SendAct.writable answers).step c s = some (s.withFlush f).release := by
      rw [SendAct.step, hwrite]
    refine ⟨answers, _, hstep, ?_⟩
    obtain ⟨r, hr, hwrites⟩ := onWrite_cases c hs.active hs.closeForce answers
    obtain rfl := some.inj (hr.symm.trans hwrite)
    rcases hs.writable hwrites rfl with h | h
    · cases h.active
    · exact h

/-- **A close delivers everything that was sent before it.** -/
theorem close_delivers (hbase : c.base = false) (bufferSize : Nat) (directSend : Bool)
    (before after : List SendAct) (hbefore : ∀ d ∈ before, d.Data) (hafter : ∀ d ∈ after, d.Data) (s : OutConn)
    (hs : iter (SendAct.step c) (before ++ .close :: after) (opened bufferSize directSend) = some s) :
    (s.active = false → s.wire = before.flatMap SendAct.payload) ∧
      (s.active = true → ∃ answers t, (SendAct.writable answers).step c s = some t ∧ t.active = false ∧
        t.wire = before.flatMap SendAct.payload) := by
  rw [iter_append] at hs
  obtain ⟨s₁, hs₁, hs⟩ := bind_eq_some_iff.1 hs
  obtain ⟨s₂, hs₂, hs⟩ := bind_eq_some_iff.1 hs
  have hopened : Sending [] false (opened bufferSize directSend) :=
    ⟨rfl, rfl, rfl, rfl, fun _ => not_mem_nil, iff_of_false not_mem_nil Bool.false_ne_true, rfl⟩
  have h₁ := hopened.before hbase before hbefore hs₁
  have h₂ : s₂ = s₁.sendClose := by
    have hactive : ¬ s₁.active = false := by rw [h₁.active]; exact Bool.noConfusion
    rw [SendAct.step, sendToConnection, if_neg hactive, hbase, Bool.false_and, if_neg Bool.false_ne_true] at hs₂
    exact (some.inj hs₂).symm
  have hdone : Sending (before.flatMap SendAct.payload) true s ∨
      Delivered (before.flatMap SendAct.payload) true s := by
    refine iter_keeps (C := fun d _ => d.Data) (J := fun s => Sending _ true s ∨ Delivered _ true s)
      (fun d s s' hd hs h => Sending.after hbase hd hs h) after ?_ (h₂ ▸ h₁.sendClose) hs
    exact along_of_forall hafter _
  rcases hdone with hdone | hdone
  · refine ⟨fun h => absurd (hdone.active.symm.trans h) Bool.noConfusion, fun _ => ?_⟩
    obtain ⟨answers, t, ht, hclosed⟩ := hdone.drain_closes (c := c)
    exact ⟨answers, t, ht, hclosed.inactive, hclosed.wire⟩
  · exact ⟨fun _ => hdone.wire, fun h => absurd (hdone.inactive.symm.trans h) Bool.false_ne_true⟩

/-- one byte is sent at once, two are queued, and the close request comes before they are sent -/
theorem close_delivers_queued : ∃ s, iter (SendAct.step .quiet)
    ([.send [1, 2, 3] [.took 0]] ++ .close :: [.send [9] [], .writable [.took 0], .writable [.took 7]])
      (opened 2 true) = some s ∧ s.active = false ∧ s.wire = [1, 2, 3] := by
  refine exists_of_map (fun s => s.active) (show _ = some false by decide +kernel) fun s hs hactive => ?_
  obtain ⟨hwire, -⟩ := close_delivers rfl 2 true [.send [1, 2, 3] [.took 0]] _ (by simp [SendAct.Data])
    (by simp [SendAct.Data]) s hs
  exact ⟨hactive, hwire hactive⟩

end OutConn

end OSW
