import OpenSwoole.Lib.Keyed
import OpenSwoole.Network.Socket
import OpenSwoole.Server.PipeMessage

/-!
# Receiving from a worker pipe

`Worker_onPipeReceive` of `src/server/worker.cc` and `Server::get_worker_buffer`.  A worker keeps one
buffer for each message of which a first chunk has come in; a call takes datagrams from the pipe
until a message is complete, the pipe is empty, or 32 chunks have been read.

The fields `delivered` and `writes` of a worker are records of its run: what `accept_task` was handed
and where `readv` wrote.

* `servePipe`   calls one after the other, with the datagrams that come in between;
* `servePipe_drain`   a worker that can take every datagram ends with an empty pipe.
-/

namespace OSW
open Machine List Option Function

/-- where `readv` was told to write the data of a chunk, and how much came -/
structure PipeWrite where
  msgId : Nat
  length : Nat
  n : Nat
  size : Nat

def PipeWrite.InBounds (x : PipeWrite) : Prop := x.length + x.n ≤ x.size

structure Worker where
  /-- `worker_buffers` -/
  buffers : Nat → Option OswString
  delivered : List (Nat × Bytes)
  writes : List PipeWrite

def Worker.fresh : Worker := ⟨fun _ => none, [], []⟩

def workerMaxRecvChunkCount : Nat := 32

/-- `Server::get_worker_buffer`; a buffer it has made is stored with the data by `Worker.append` -/
def Worker.getWorkerBuffer (w : Worker) (info : DataHead) : Option OswString :=
  match w.buffers info.msgId with
  | none => if info.isBegin then some (makeString info.len) else none
  | some b => some b

/-- the bytes `readv` puts into the buffer; what does not fit in the second `iovec` is cut off -/
def readvLen (ipcMax : Nat) (d : Datagram) (b : OswString) : Nat :=
  let remainLen := (d.info.len + 2^64 - b.length) % 2^64
  min (min (ipcMax - dataHeadSize) remainLen) d.data.length

def OswString.append (b : OswString) (data : Bytes) : OswString := { b with str := b.str ++ data }

/-- `readv` into the buffer of the chunk -/
def Worker.append (ipcMax : Nat) (w : Worker) (d : Datagram) (b : OswString) : Worker :=
  let n := readvLen ipcMax d b
  { w with
    buffers := update w.buffers d.info.msgId (some (b.append (d.data.take n)))
    writes := w.writes ++ [⟨d.info.msgId, b.length, n, b.size⟩] }

/-- `accept_task`, which always returns `OSW_OK`, then `worker_buffers.erase` for a last chunk -/
def Worker.acceptTask (w : Worker) (info : DataHead) (data : Bytes) : Worker :=
  { w with
    delivered := w.delivered ++ [(info.msgId, data)]
    buffers := if info.isEnd then update w.buffers info.msgId none else w.buffers }

/-- what a datagram does; `get_packet` reads the worker buffer of a chunked message, or the datagram -/
def Worker.receive (ipcMax : Nat) (d : Datagram) (w : Worker) : Option Worker :=
  if d.info.isChunk then
    (w.getWorkerBuffer d.info).map fun b =>
      let w' := w.append ipcMax d b
      if d.info.isEnd then
        w'.acceptTask d.info (b.str ++ d.data.take (readvLen ipcMax d b))
      else w'
  else
    some (w.acceptTask d.info ((d.data.take (ipcMax - dataHeadSize)).take d.info.len))

def Datagram.isTask (d : Datagram) : Bool := !d.info.isChunk || d.info.isEnd

inductive PipeRet where
  | ok
  | err

/-- the loop `_read_from_pipe`; `fault k` is the error of the `recv` that peeks after `k` chunks -/
def readFromPipe (ipcMax : Nat) (fault : Nat → Option CatchError) :
    Nat → Worker → List Datagram → PipeRet × Worker × List Datagram
  | count, w, [] =>
    match fault count with
    | none => (.ok, w, [])
    | some e => (if e = .wait then .ok else .err, w, [])
  | count, w, d :: q =>
    match fault count with
    | some e => (if e = .wait then .ok else .err, w, d :: q)
    | none =>
      match w.receive ipcMax d with
      -- "abnormal pipeline data": the datagram has only been peeked at
      | none => (.ok, w, d :: q)
      | some w' =>
        if d.isTask then (.ok, w', q)
        else if workerMaxRecvChunkCount ≤ count + 1 then (.ok, w', q)
        else readFromPipe ipcMax fault (count + 1) w' q

def workerOnPipeReceive (ipcMax : Nat) (fault : Nat → Option CatchError) (w : Worker)
    (q : List Datagram) : PipeRet × Worker × List Datagram :=
  readFromPipe ipcMax fault 0 w q

structure PipeCall where
  arrived : List Datagram
  fault : Nat → Option CatchError

def PipeCall.quiet : PipeCall := ⟨[], fun _ => none⟩

structure WorkerPipe where
  worker : Worker
  queue : List Datagram

def WorkerPipe.call (ipcMax : Nat) (p : WorkerPipe) (c : PipeCall) : WorkerPipe :=
  let r := workerOnPipeReceive ipcMax c.fault p.worker (p.queue ++ c.arrived)
  ⟨r.2.1, r.2.2⟩

def servePipe (ipcMax : Nat) (calls : List PipeCall) (p : WorkerPipe) : WorkerPipe :=
  calls.foldl (WorkerPipe.call ipcMax) p

def arrivals (calls : List PipeCall) : List Datagram := calls.flatMap (·.arrived)

/-! ## one call -/

section
variable (ipcMax : Nat) (fault : Nat → Option CatchError)

lemma readFromPipe_takes (count : Nat) (w : Worker) (q : List Datagram) :
    ∃ taken, q = taken ++ (readFromPipe ipcMax fault count w q).2.2 ∧ iter (Worker.receive ipcMax) taken w =
        some (readFromPipe ipcMax fault count w q).2.1 := by
  induction q generalizing count w with
  | nil => refine ⟨[], ?_, ?_⟩ <;> unfold readFromPipe <;> cases fault count <;> rfl
  | cons d q ih =>
    unfold readFromPipe
    cases fault count with
    | some e => exact ⟨[], rfl, rfl⟩
    | none =>
      cases hr : w.receive ipcMax d with
      | none => exact ⟨[], rfl, rfl⟩
      | some w' =>
        have hone (ds : List Datagram) : iter (Worker.receive ipcMax) (d :: ds) w =
            iter (Worker.receive ipcMax) ds w' := by
          show (w.receive ipcMax d).bind _ = _
          rw [hr]
          rfl
        dsimp only
        split
        · exact ⟨[d], rfl, hone []⟩
        split
        · exact ⟨[d], rfl, hone []⟩
        obtain ⟨taken, hq, ht⟩ := ih (count + 1) w'
        exact ⟨d :: taken, congrArg (d :: ·) hq, (hone taken).trans ht⟩

variable {ipcMax fault}

lemma readFromPipe_progress {count : Nat} {w w' : Worker} {d : Datagram} (q : List Datagram)
    (hf : fault count = none) (hr : w.receive ipcMax d = some w') :
    (readFromPipe ipcMax fault count w (d :: q)).2.2.length ≤ q.length := by
  unfold readFromPipe
  rw [hf, hr]
  dsimp only
  split
  · exact le_rfl
  split
  · exact le_rfl
  obtain ⟨taken, hq, -⟩ := readFromPipe_takes ipcMax fault (count + 1) w' q
  have := congrArg length hq
  rw [length_append] at this
  omega

end

/-! ## runs of calls -/

section
variable (ipcMax : Nat)

lemma WorkerPipe.call_takes (p : WorkerPipe) (c : PipeCall) :
    ∃ taken, p.queue ++ c.arrived = taken ++ (p.call ipcMax c).queue ∧
      iter (Worker.receive ipcMax) taken p.worker = some (p.call ipcMax c).worker :=
  readFromPipe_takes ipcMax c.fault 0 p.worker (p.queue ++ c.arrived)

lemma WorkerPipe.call_iter (p : WorkerPipe) (c : PipeCall) (rest : List Datagram) :
    iter (Worker.receive ipcMax) ((p.call ipcMax c).queue ++ rest) (p.call ipcMax c).worker =
      iter (Worker.receive ipcMax) (p.queue ++ c.arrived ++ rest) p.worker := by
  obtain ⟨taken, hq, ht⟩ := p.call_takes ipcMax c
  rw [hq, append_assoc, iter_append _ taken, ht]
  rfl

lemma servePipe_iter (calls : List PipeCall) (p : WorkerPipe) (rest : List Datagram) :
    iter (Worker.receive ipcMax) ((servePipe ipcMax calls p).queue ++ rest)
        (servePipe ipcMax calls p).worker =
      iter (Worker.receive ipcMax) (p.queue ++ arrivals calls ++ rest) p.worker := by
  induction calls generalizing p with
  | nil =>
    show _ = iter _ (p.queue ++ [] ++ rest) _
    rw [append_nil]
    rfl
  | cons c calls ih =>
    refine (ih (p.call ipcMax c)).trans ?_
    show _ = iter _ (p.queue ++ (c.arrived ++ arrivals calls) ++ rest) _
    rw [append_assoc, p.call_iter ipcMax c]
    simp only [append_assoc]

lemma servePipe_iter_of_arrivals {calls : List PipeCall} (h : ∀ c ∈ calls, c.arrived = []) (p : WorkerPipe) :
    iter (Worker.receive ipcMax) (servePipe ipcMax calls p).queue (servePipe ipcMax calls p).worker =
      iter (Worker.receive ipcMax) p.queue p.worker := by
  have hs := servePipe_iter ipcMax calls p []
  rw [show arrivals calls = [] from flatMap_eq_nil_iff.2 h] at hs
  simpa only [append_nil] using hs

lemma servePipe_length (calls : List PipeCall) (p : WorkerPipe) :
    (servePipe ipcMax calls p).queue.length ≤ (p.queue ++ arrivals calls).length := by
  induction calls generalizing p with
  | nil => exact le_of_eq (by rw [show arrivals [] = [] from rfl, append_nil]; rfl)
  | cons c calls ih =>
    obtain ⟨taken, hq, -⟩ := p.call_takes ipcMax c
    have h1 := congrArg length hq
    have h2 := ih (p.call ipcMax c)
    change (servePipe ipcMax calls (p.call ipcMax c)).queue.length ≤
      (p.queue ++ (c.arrived ++ arrivals calls)).length
    simp only [length_append] at h1 h2 ⊢
    omega

variable {ipcMax}

variable {p : WorkerPipe} {v : Worker}

lemma call_quiet_length (h : iter (Worker.receive ipcMax) p.queue p.worker = some v) :
    (p.call ipcMax .quiet).queue.length ≤ p.queue.length - 1 := by
  obtain ⟨w, q⟩ := p
  show (readFromPipe ipcMax (fun _ => none) 0 w (q ++ [])).2.2.length ≤ q.length - 1
  rw [append_nil]
  cases q with
  | nil => exact le_rfl
  | cons d q =>
    obtain ⟨w', hr, -⟩ := bind_eq_some_iff.1 h
    exact readFromPipe_progress q rfl hr

lemma servePipe_quiet (n : Nat) (h : iter (Worker.receive ipcMax) p.queue p.worker = some v)
    (hn : p.queue.length ≤ n) : servePipe ipcMax (replicate n .quiet) p = ⟨v, []⟩ := by
  induction n generalizing p with
  | zero =>
    obtain ⟨w, q⟩ := p
    obtain rfl : q = [] := length_eq_zero_iff.1 (Nat.le_zero.1 hn)
    cases h
    rfl
  | succ n ih =>
    have hlen := call_quiet_length h
    apply ih
    · have := p.call_iter ipcMax .quiet []
      simp only [PipeCall.quiet, append_nil] at this
      exact this.trans h
    · omega

lemma calls_quiet (n : Nat) : ∀ c ∈ replicate n PipeCall.quiet, c.arrived = [] := by
  intro c hc
  rw [eq_of_mem_replicate hc]
  rfl

lemma servePipe_drain (calls : List PipeCall)
    (h : iter (Worker.receive ipcMax) (p.queue ++ arrivals calls) p.worker = some v) {n : Nat}
    (hn : (p.queue ++ arrivals calls).length ≤ n) :
    servePipe ipcMax (calls ++ replicate n .quiet) p = ⟨v, []⟩ := by
  have hs := servePipe_iter ipcMax calls p []
  rw [append_nil, append_nil] at hs
  unfold servePipe
  rw [foldl_append]
  exact servePipe_quiet n (hs.trans h) (le_trans (servePipe_length ipcMax calls p) hn)

end

/-! ## orphans -/

def Worker.known (w : Worker) (msgId : Nat) : Bool := (w.buffers msgId).isSome

def knownAfter (known : Nat → Bool) (info : DataHead) : Nat → Bool :=
  if info.isEnd then update known info.msgId false
  else if info.isChunk then update known info.msgId true
  else known

/-- every chunk of the queue belongs to a message that is known and has not ended -/
def orphanFree : (Nat → Bool) → List Datagram → Bool
  | _, [] => true
  | known, d :: q =>
    (!d.info.isChunk || d.info.isBegin || known d.info.msgId) && orphanFree (knownAfter known d.info) q

section
variable {ipcMax : Nat} {d : Datagram} {w w' : Worker}

lemma receive_isSome (ipcMax : Nat) (d : Datagram) (w : Worker) : (w.receive ipcMax d).isSome =
      (!d.info.isChunk || d.info.isBegin || w.known d.info.msgId) := by
  unfold Worker.receive Worker.getWorkerBuffer Worker.known
  cases d.info.isChunk <;> cases d.info.isBegin <;> cases w.buffers d.info.msgId <;> rfl

lemma receive_cases (h : w.receive ipcMax d = some w') : (d.info.isChunk = false ∧
      w' = w.acceptTask d.info ((d.data.take (ipcMax - dataHeadSize)).take d.info.len)) ∨
    ∃ b, d.info.isChunk = true ∧ w.getWorkerBuffer d.info = some b ∧
      ((d.info.isEnd = false ∧ w' = w.append ipcMax d b) ∨
        (d.info.isEnd = true ∧ w' = (w.append ipcMax d b).acceptTask d.info
          (b.str ++ d.data.take (readvLen ipcMax d b)))) := by
  unfold Worker.receive at h
  cases hc : d.info.isChunk with
  | false =>
    rw [hc] at h
    exact .inl ⟨rfl, (some.inj h).symm⟩
  | true =>
    rw [hc] at h
    obtain ⟨b, hb, rfl⟩ := map_eq_some_iff.1 h
    refine .inr ⟨b, rfl, hb, ?_⟩
    cases d.info.isEnd with
    | false => exact .inl ⟨rfl, rfl⟩
    | true => exact .inr ⟨rfl, rfl⟩

lemma append_known (ipcMax : Nat) (w : Worker) (d : Datagram) (b : OswString) :
    (w.append ipcMax d b).known = update w.known d.info.msgId true := by
  funext k
  by_cases hk : k = d.info.msgId
  · subst hk
    simp [Worker.known, Worker.append]
  · simp [Worker.known, Worker.append, hk]

lemma acceptTask_known (w : Worker) (info : DataHead) (data : Bytes) : (w.acceptTask info data).known =
      if info.isEnd then update w.known info.msgId false else w.known := by
  funext k
  unfold Worker.acceptTask Worker.known
  cases info.isEnd with
  | false => rfl
  | true =>
    by_cases hk : k = info.msgId
    · subst hk
      simp
    · simp [hk]

lemma receive_known (h : w.receive ipcMax d = some w') : w'.known = knownAfter w.known d.info := by
  unfold knownAfter
  obtain ⟨hc, rfl⟩ | ⟨b, hc, -, ⟨he, rfl⟩ | ⟨he, rfl⟩⟩ := receive_cases h
  · rw [acceptTask_known, hc]
    rfl
  · rw [append_known, he, hc]
    rfl
  · rw [acceptTask_known, append_known, he, if_pos rfl, if_pos rfl, update_idem]

lemma receive_delivered (h : w.receive ipcMax d = some w') : w'.delivered.map Prod.fst =
      w.delivered.map Prod.fst ++ ([d].filter Datagram.isTask).map (·.info.msgId) := by
  obtain ⟨hc, rfl⟩ | ⟨b, hc, -, ⟨he, rfl⟩ | ⟨he, rfl⟩⟩ := receive_cases h
  · simp [Worker.acceptTask, Datagram.isTask, hc]
  · simp [Worker.append, Datagram.isTask, hc, he]
  · simp [Worker.append, Worker.acceptTask, Datagram.isTask, he]

lemma iter_receive_isSome (ipcMax : Nat) (w : Worker) (q : List Datagram) :
    (iter (Worker.receive ipcMax) q w).isSome = orphanFree w.known q := by
  induction q generalizing w with
  | nil => rfl
  | cons d q ih =>
    unfold orphanFree
    rw [← receive_isSome ipcMax]
    show ((w.receive ipcMax d).bind _).isSome = _
    cases hr : w.receive ipcMax d with
    | none => rfl
    | some w' =>
      rw [← receive_known hr, ← ih]
      rfl

lemma iter_receive_delivered {v : Worker} (q : List Datagram)
    (h : iter (Worker.receive ipcMax) q w = some v) :
    v.delivered.map Prod.fst =
      w.delivered.map Prod.fst ++ (q.filter Datagram.isTask).map (·.info.msgId) := by
  induction q generalizing w with
  | nil =>
    cases h
    simp
  | cons d q ih =>
    obtain ⟨w', hr, ht⟩ := bind_eq_some_iff.1 h
    rw [ih ht, receive_delivered hr, append_assoc, ← map_append, ← filter_append]
    rfl

end

/-- **A worker pipe never gets stuck exactly when no chunk in it is an orphan.** -/
theorem workerOnPipeReceive_progress_iff (ipcMax : Nat) (p : WorkerPipe) :
    ((∀ calls : List PipeCall, (∀ c ∈ calls, c.arrived = []) →
        ∀ fault : Nat → Option CatchError, (∀ k, fault k ≠ some .wait) →
        (servePipe ipcMax calls p).queue ≠ [] →
          (workerOnPipeReceive ipcMax fault (servePipe ipcMax calls p).worker
              (servePipe ipcMax calls p).queue).2.2.length <
            (servePipe ipcMax calls p).queue.length ∨
          (workerOnPipeReceive ipcMax fault (servePipe ipcMax calls p).worker
              (servePipe ipcMax calls p).queue).1 = .err) ∧
      ∃ n, (servePipe ipcMax (replicate n .quiet) p).queue = [] ∧
        (servePipe ipcMax (replicate n .quiet) p).worker.delivered.map Prod.fst =
          p.worker.delivered.map Prod.fst ++ (p.queue.filter Datagram.isTask).map (·.info.msgId)) ↔
    orphanFree p.worker.known p.queue = true := by
  rw [← iter_receive_isSome ipcMax, isSome_iff_exists]
  constructor
  · rintro ⟨-, n, hq, -⟩
    have hs := servePipe_iter_of_arrivals ipcMax (calls_quiet n) p
    rw [hq] at hs
    exact ⟨_, hs.symm⟩
  · rintro ⟨v, hv⟩
    constructor
    · intro calls hcalls fault hfault hne
      have hs := (servePipe_iter_of_arrivals ipcMax hcalls p).trans hv
      obtain ⟨d, q, hq⟩ := exists_cons_of_ne_nil hne
      rw [hq] at hs ⊢
      obtain ⟨w', hr, -⟩ := bind_eq_some_iff.1 hs
      cases hf : fault 0 with
      | none => exact .inl (Nat.lt_succ_of_le (readFromPipe_progress q hf hr))
      | some e =>
        right
        unfold workerOnPipeReceive readFromPipe
        rw [hf]
        exact if_neg fun (he : e = .wait) => hfault 0 (he ▸ hf)
    · refine ⟨p.queue.length, ?_⟩
      rw [servePipe_quiet _ hv le_rfl]
      exact ⟨rfl, iter_receive_delivered p.queue hv⟩

/-- the second chunk of a message of 8153 bytes, and a message of one byte behind it -/
def leftBehind : List Datagram := [⟨⟨7, 8153, true, false, true⟩, [0]⟩, ⟨⟨8, 1, false, false, false⟩, [1]⟩]

/-- the worker was replaced between two chunks: the new one returns `OSW_OK` from every call, and the queue stays
-/
theorem workerOnPipeReceive_stuck :
    (processSendPacket 8192 7 (fun _ => .ok) (replicate 8153 0)).map (fun r => r.2.tail) =
      some (leftBehind.take 1) ∧
    (workerOnPipeReceive 8192 (fun _ => none) .fresh leftBehind).1 = .ok ∧
    ∀ n, servePipe 8192 (replicate n .quiet) ⟨.fresh, leftBehind⟩ = ⟨.fresh, leftBehind⟩ := by
  refine ⟨?_, rfl, fun n => ?_⟩
  · have hlen : (replicate 8153 (0 : UInt8)).length = 8153 := length_replicate
    simp only [processSendPacket, hlen]
    rw [sendChunks_ok_more 8155 rfl (by rw [hlen]; decide), drop_replicate]
    rfl
  · induction n with
    | zero => rfl
    | succ n ih => exact ih

end OSW
