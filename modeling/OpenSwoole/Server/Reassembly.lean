import Mathlib.Data.List.Nodup
import OpenSwoole.Server.WorkerPipe

/-!
# Chunked messages are put together again

* `chunkDatagrams`   the datagrams of a message: `BEGIN` on the first, `END` on the last, and the length
    of the whole message in every header;
* `iter_receive_chunks`   a worker takes them one after the other and delivers the message;
* `Worker.restrict`   what concerns one message; a datagram of another message does not change it.
-/

namespace OSW
open Machine Keyed List Function

def chunkDatagrams (msgId len : Nat) : Bool → List Bytes → List Datagram
  | _, [] => []
  | isBegin, [c] => [⟨⟨msgId, len, true, isBegin, true⟩, c⟩]
  | isBegin, c :: cs => ⟨⟨msgId, len, true, isBegin, false⟩, c⟩ :: chunkDatagrams msgId len false cs

/-! ## one message -/

section
variable {ipcMax msgId len : Nat} {w : Worker} {b : OswString}

lemma readvLen_eq {d : Datagram} (hc : d.data.length ≤ ipcMax - dataHeadSize)
    (hlen : b.length + d.data.length ≤ d.info.len) (hlt : d.info.len < 2^32) :
    readvLen ipcMax d b = d.data.length := by
  have h : d.info.len + 2^64 - b.length = (d.info.len - b.length) + 2^64 := by omega
  unfold readvLen
  dsimp only
  omega

def Worker.completed (w : Worker) (msgId : Nat) (data : Bytes) (writes : List PipeWrite) : Worker where
  buffers := update w.buffers msgId none
  delivered := w.delivered ++ [(msgId, data)]
  writes := w.writes ++ writes

def Worker.stored (w : Worker) (msgId : Nat) (b : OswString) (c : Bytes) : Worker :=
  { w with
    buffers := update w.buffers msgId (some (b.append c))
    writes := w.writes ++ [⟨msgId, b.length, c.length, b.size⟩] }

lemma receive_chunk {isBegin isEnd : Bool} {c : Bytes}
    (hb : w.getWorkerBuffer ⟨msgId, len, true, isBegin, isEnd⟩ = some b)
    (hc : c.length ≤ ipcMax - dataHeadSize) (hlen : b.length + c.length ≤ len) (hlt : len < 2^32) :
    w.receive ipcMax ⟨⟨msgId, len, true, isBegin, isEnd⟩, c⟩ =
      some (if isEnd then w.completed msgId (b.str ++ c) [⟨msgId, b.length, c.length, b.size⟩]
        else w.stored msgId b c) := by
  have hn : readvLen ipcMax ⟨⟨msgId, len, true, isBegin, isEnd⟩, c⟩ b = c.length := readvLen_eq hc hlen hlt
  unfold Worker.receive
  rw [hb]
  simp only [Option.map_some, Worker.append, hn, take_length]
  cases isEnd with
  | false => rfl
  | true => simp only [Worker.acceptTask, Worker.completed, if_true, update_idem]

lemma Worker.stored_completed (w : Worker) (b : OswString) (c data : Bytes) (writes : List PipeWrite) :
    (w.stored msgId b c).completed msgId data writes =
      w.completed msgId data (⟨msgId, b.length, c.length, b.size⟩ :: writes) := by
  simp only [Worker.stored, Worker.completed, update_idem, append_assoc, singleton_append]

lemma iter_receive_chunks (isBegin : Bool) {cs : List Bytes} (hne : cs ≠ [])
    (hfit : ∀ c ∈ cs, c.length ≤ ipcMax - dataHeadSize) (hlt : len < 2^32)
    (hlen : b.length + cs.flatten.length = len) (hsize : len ≤ b.size)
    (hb : ∀ isEnd, w.getWorkerBuffer ⟨msgId, len, true, isBegin, isEnd⟩ = some b) :
    ∃ writes, iter (Worker.receive ipcMax) (chunkDatagrams msgId len isBegin cs) w =
        some (w.completed msgId (b.str ++ cs.flatten) writes) ∧
      ∀ x ∈ writes, x.msgId = msgId ∧ x.InBounds := by
  induction cs generalizing w b isBegin with
  | nil => exact absurd rfl hne
  | cons c cs ih =>
    have hc := hfit c mem_cons_self
    rw [flatten_cons, length_append] at hlen
    have hin : b.length + c.length ≤ b.size := by omega
    cases cs with
    | nil =>
      refine ⟨[⟨msgId, b.length, c.length, b.size⟩], ?_, ?_⟩
      · show (w.receive ipcMax ⟨⟨msgId, len, true, isBegin, true⟩, c⟩).bind some = _
        rw [receive_chunk (hb true) hc (by omega) hlt, flatten_cons, flatten_nil, append_nil]
        rfl
      · intro x hx
        rw [mem_singleton.1 hx]
        exact ⟨rfl, hin⟩
    | cons c' cs =>
      have hb' (isEnd : Bool) : (w.stored msgId b c).getWorkerBuffer
          ⟨msgId, len, true, false, isEnd⟩ = some (b.append c) := by
        simp [Worker.getWorkerBuffer, Worker.stored]
      have hlen' : (b.append c).length = b.length + c.length := length_append
      obtain ⟨writes, hrun, hw⟩ := ih false (cons_ne_nil c' cs)
        (fun x hx => hfit x (mem_cons_of_mem c hx)) (by omega)
        (show len ≤ (b.append c).size from hsize) hb'
      refine ⟨⟨msgId, b.length, c.length, b.size⟩ :: writes, ?_, ?_⟩
      · show (w.receive ipcMax ⟨⟨msgId, len, true, isBegin, false⟩, c⟩).bind
          (iter _ (chunkDatagrams msgId len false (c' :: cs))) = _
        rw [receive_chunk (hb false) hc (by omega) hlt]
        refine hrun.trans ?_
        rw [Worker.stored_completed]
        simp only [OswString.append, flatten_cons, append_assoc]
      · intro x hx
        rcases mem_cons.1 hx with rfl | hx
        · exact ⟨rfl, hin⟩
        · exact hw x hx

end

/-- a message whose chunks fit into a datagram and whose length fits into its header -/
structure ChunkedMessage (ipcMax : Nat) where
  msgId : Nat
  chunks : List Bytes
  ne : chunks ≠ []
  fits : ∀ c ∈ chunks, c.length ≤ ipcMax - dataHeadSize
  small : chunks.flatten.length < 2^32

namespace ChunkedMessage
variable {ipcMax : Nat}

variable (m : ChunkedMessage ipcMax)

def payload : Bytes := m.chunks.flatten

def datagrams : List Datagram :=
  chunkDatagrams m.msgId m.payload.length true m.chunks

lemma iter_receive {w : Worker} (hw : w.buffers m.msgId = none) :
    ∃ writes, iter (Worker.receive ipcMax) m.datagrams w = some (w.completed m.msgId m.payload writes) ∧
      ∀ x ∈ writes, x.msgId = m.msgId ∧ x.InBounds := by
  apply iter_receive_chunks true m.ne m.fits m.small (b := makeString m.payload.length)
  · exact zero_add _
  · exact le_memAlignedSize _
  · intro isEnd
    unfold Worker.getWorkerBuffer
    rw [hw]
    rfl

end ChunkedMessage

/-! ## several messages -/

def Worker.restrict (msgId : Nat) (w : Worker) : Worker where
  buffers k := if k = msgId then w.buffers k else none
  delivered := w.delivered.filter fun x => x.1 = msgId
  writes := w.writes.filter fun x => x.msgId = msgId

section
variable {ipcMax k : Nat} {w : Worker}

lemma restrict_getWorkerBuffer (info : DataHead) :
    (w.restrict info.msgId).getWorkerBuffer info = w.getWorkerBuffer info := by
  unfold Worker.getWorkerBuffer Worker.restrict
  dsimp only
  rw [if_pos rfl]

lemma restrict_append_self (d : Datagram) (b : OswString) : (w.append ipcMax d b).restrict d.info.msgId =
      (w.restrict d.info.msgId).append ipcMax d b := by
  unfold Worker.restrict Worker.append
  rw [Worker.mk.injEq]
  refine ⟨?_, rfl, by simp⟩
  funext j
  by_cases hj : j = d.info.msgId
  · simp [hj]
  · simp [hj]

lemma restrict_append_ne (d : Datagram) (b : OswString) (h : d.info.msgId ≠ k) :
    (w.append ipcMax d b).restrict k = w.restrict k := by
  unfold Worker.restrict Worker.append
  rw [Worker.mk.injEq]
  refine ⟨?_, rfl, by simp [h]⟩
  funext j
  by_cases hj : j = k
  · simp [hj, h.symm]
  · simp [hj]

lemma restrict_acceptTask_self (info : DataHead) (data : Bytes) :
    (w.acceptTask info data).restrict info.msgId = (w.restrict info.msgId).acceptTask info data := by
  unfold Worker.restrict Worker.acceptTask
  rw [Worker.mk.injEq]
  refine ⟨?_, by simp, rfl⟩
  funext j
  by_cases hj : j = info.msgId <;> cases info.isEnd <;> simp [hj]

lemma restrict_acceptTask_ne (info : DataHead) (data : Bytes) (h : info.msgId ≠ k) :
    (w.acceptTask info data).restrict k = w.restrict k := by
  unfold Worker.restrict Worker.acceptTask
  rw [Worker.mk.injEq]
  refine ⟨?_, by simp [h], rfl⟩
  funext j
  by_cases hj : j = k <;> cases info.isEnd <;> simp [hj, h.symm]

/-- **A datagram concerns its own message only.** -/
theorem receive_local (ipcMax : Nat) : Local (fun d : Datagram => d.info.msgId) (Worker.receive ipcMax)
      (Worker.receive ipcMax) Worker.restrict := by
  intro d w x h
  obtain ⟨hc, rfl⟩ | ⟨b, hc, hb, he⟩ := receive_cases h
  · refine ⟨w.acceptTask d.info ((d.data.take (ipcMax - dataHeadSize)).take d.info.len), ?_,
      restrict_acceptTask_self _ _, fun k hk => restrict_acceptTask_ne _ _ hk⟩
    simp only [Worker.receive, hc, Bool.false_eq_true, if_false]
  · have hr : w.receive ipcMax d = some (if d.info.isEnd then
        (w.append ipcMax d b).acceptTask d.info (b.str ++ d.data.take (readvLen ipcMax d b))
        else w.append ipcMax d b) := by
      rw [restrict_getWorkerBuffer] at hb
      simp only [Worker.receive, hc, hb, if_true, Option.map_some]
    obtain ⟨he, rfl⟩ | ⟨he, rfl⟩ := he <;> rw [he] at hr
    · exact ⟨_, hr, restrict_append_self d b, fun k hk => restrict_append_ne d b hk⟩
    · refine ⟨_, hr, ?_, fun k hk => ?_⟩
      · rw [if_pos rfl, restrict_acceptTask_self, restrict_append_self]
      · rw [if_pos rfl, restrict_acceptTask_ne _ _ hk, restrict_append_ne _ _ hk]

lemma restrict_completed_buffers {v : Worker} {msgId : Nat} {data : Bytes}
    {writes : List PipeWrite} (h : v.restrict msgId = (w.restrict msgId).completed msgId data writes) :
    v.buffers msgId = none := by
  have := congrFun (congrArg Worker.buffers h) msgId
  simpa [Worker.restrict, Worker.completed] using this

end

/-- an interleaving of the datagrams of messages with distinct `msg_id` -/
structure Interleaved {ipcMax : Nat} (ms : List (ChunkedMessage ipcMax)) (ds : List Datagram) : Prop where
  distinct : (ms.map (·.msgId)).Nodup
  known : ∀ d ∈ ds, ∃ m ∈ ms, m.msgId = d.info.msgId
  order : ∀ m ∈ ms, own (fun d : Datagram => d.info.msgId) m.msgId ds = m.datagrams

section
variable {ipcMax : Nat} {ms : List (ChunkedMessage ipcMax)} {ds : List Datagram} {w : Worker}

/-- what the datagrams of one `msg_id` do -/
def Reassembled (ms : List (ChunkedMessage ipcMax)) (w : Worker) (k : Nat) (x : Worker) : Prop :=
  (∃ m ∈ ms, m.msgId = k ∧ ∃ writes, x = (w.restrict k).completed k m.payload writes ∧
    ∀ y ∈ writes, y.InBounds) ∨ ((∀ m ∈ ms, m.msgId ≠ k) ∧ x = w.restrict k)

lemma Interleaved.iter_own (h : Interleaved ms ds) (hw : ∀ m ∈ ms, w.buffers m.msgId = none) (k : Nat) :
    ∃ x, iter (Worker.receive ipcMax) (own (fun d : Datagram => d.info.msgId) k ds)
      (w.restrict k) = some x ∧ Reassembled ms w k x := by
  by_cases hk : ∃ m ∈ ms, m.msgId = k
  · obtain ⟨m, hm, rfl⟩ := hk
    have hnone : (w.restrict m.msgId).buffers m.msgId = none := by simpa [Worker.restrict] using hw m hm
    obtain ⟨writes, hrun, hin⟩ := m.iter_receive hnone
    rw [h.order m hm]
    exact ⟨_, hrun, .inl ⟨m, hm, rfl, writes, rfl, fun y hy => (hin y hy).2⟩⟩
  · have hne : ∀ m ∈ ms, m.msgId ≠ k := fun m hm he => hk ⟨m, hm, he⟩
    rw [own_eq_nil fun d hd he => by
      obtain ⟨m, hm, hmd⟩ := h.known d hd
      exact hne m hm (hmd.trans he)]
    exact ⟨_, rfl, .inr ⟨hne, rfl⟩⟩

/-- **Interleaved chunk streams are reassembled independently.** -/
theorem workerOnPipeReceive_interleaved {calls : List PipeCall} (h : Interleaved ms (arrivals calls))
    (hw : ∀ m ∈ ms, w.buffers m.msgId = none) {n : Nat} (hn : (arrivals calls).length ≤ n) :
    ∃ v, servePipe ipcMax (calls ++ replicate n .quiet) ⟨w, []⟩ = ⟨v, []⟩ ∧
      (∀ m ∈ ms, v.buffers m.msgId = none ∧ v.delivered.filter (fun x => x.1 = m.msgId) =
          w.delivered.filter (fun x => x.1 = m.msgId) ++ [(m.msgId, m.payload)]) ∧
      (∀ k, (∀ m ∈ ms, m.msgId ≠ k) →
        v.delivered.filter (fun x => x.1 = k) = w.delivered.filter (fun x => x.1 = k)) ∧
      ∀ x ∈ v.writes, x ∈ w.writes ∨ x.InBounds := by
  choose t hrun ht using h.iter_own hw
  obtain ⟨v, hv, hproj⟩ := iter_of_proj (receive_local ipcMax) (arrivals calls) hrun
  refine ⟨v, servePipe_drain (p := ⟨w, []⟩) calls hv hn, ?_, ?_, ?_⟩
  · intro m hm
    obtain ⟨m', hm', hid, writes, hx, -⟩ | ⟨hne, -⟩ := ht m.msgId
    · obtain rfl : m' = m := inj_on_of_nodup_map h.distinct hm' hm hid
      rw [← hproj] at hx
      exact ⟨restrict_completed_buffers hx, congrArg Worker.delivered hx⟩
    · exact absurd rfl (hne m hm)
  · intro k hk
    obtain ⟨m, hm, hid, -⟩ | ⟨-, hx⟩ := ht k
    · exact absurd hid (hk m hm)
    · rw [← hproj] at hx
      exact congrArg Worker.delivered hx
  · intro x hx
    have hmem : x ∈ (v.restrict x.msgId).writes := by simpa [Worker.restrict] using hx
    have hold : x ∈ (w.restrict x.msgId).writes → x ∈ w.writes := fun hr => (mem_filter.1 hr).1
    rw [hproj] at hmem
    obtain ⟨m, -, -, writes, he, hin⟩ | ⟨-, he⟩ := ht x.msgId <;> rw [he] at hmem
    · exact (mem_append.1 hmem).imp hold (hin x)
    · exact .inl (hold hmem)

end

def twoChunks (msgId : Nat) (a b : UInt8) : ChunkedMessage 8192 where
  msgId := msgId
  chunks := [[a], [b]]
  ne := cons_ne_nil _ _
  fits := by simp [dataHeadSize]
  small := by simp

/-- the chunks of two messages, one message between the chunks of the other, before one call -/
def nestedCall : PipeCall where
  arrived := (twoChunks 1 10 11).datagrams.take 1 ++ (twoChunks 2 20 21).datagrams ++
    (twoChunks 1 10 11).datagrams.drop 1
  fault _ := none

theorem workerOnPipeReceive_interleaved_two :
    Interleaved [twoChunks 1 10 11, twoChunks 2 20 21] (arrivals [nestedCall]) ∧
    ∃ v, servePipe 8192 ([nestedCall] ++ replicate 4 .quiet) ⟨.fresh, []⟩ = ⟨v, []⟩ ∧
      (∀ m ∈ [twoChunks 1 10 11, twoChunks 2 20 21], v.buffers m.msgId = none ∧
        v.delivered.filter (fun x => x.1 = m.msgId) =
          Worker.fresh.delivered.filter (fun x => x.1 = m.msgId) ++ [(m.msgId, m.payload)]) ∧
      (∀ k, (∀ m ∈ [twoChunks 1 10 11, twoChunks 2 20 21], m.msgId ≠ k) →
        v.delivered.filter (fun x => x.1 = k) = Worker.fresh.delivered.filter (fun x => x.1 = k)) ∧
      ∀ x ∈ v.writes, x ∈ Worker.fresh.writes ∨ x.InBounds := by
  have h : Interleaved [twoChunks 1 10 11, twoChunks 2 20 21] (arrivals [nestedCall]) := by
    refine ⟨by decide, by decide, ?_⟩
    intro m hm
    rcases mem_cons.1 hm with rfl | hm
    · rfl
    · rw [mem_singleton.1 hm]
      rfl
  exact ⟨h, workerOnPipeReceive_interleaved h (fun _ _ => rfl) (le_refl 4)⟩

end OSW
