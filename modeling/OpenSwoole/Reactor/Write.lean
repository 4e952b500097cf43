import OpenSwoole.Memory.Buffer
import OpenSwoole.Network.Socket

/-!
# Writing to a non-blocking socket

`write_func`, `_write`, `_writev` and `_writable_callback` of `src/reactor/base.cc` with
`Socket::handle_send`.  A call first tries to send directly; what the kernel does not take goes to the
output queue, and the writable callback sends from there.

The answers of the kernel to the successive `send` and `writev` calls are a list; at its end every call
gets `EAGAIN`.  The fields `wire` and `accepted` of a socket are records of its run: the bytes the
kernel has taken, and the data of the calls that returned success.

* `Stream`   what has been sent and what is queued is what was accepted.
-/

namespace OSW
open List Machine Option

/-- the kernel's answer: it takes up to `k + 1` bytes, or there is an error of a class -/
inductive Answer where
  | took (k : Nat)
  | intr
  | error (e : CatchError)

inductive Sent where
  | bytes (k : Nat)
  | error (e : CatchError)

/-- a `send` or `writev` of `n` bytes; it is repeated after `EINTR` -/
def answer (n : Nat) : List Answer → Sent × List Answer
  | [] => (.error .wait, [])
  | .intr :: as => answer n as
  | .took k :: as => (.bytes (min (k + 1) n), as)
  | .error e :: as => (.error e, as)

def socketBufferSize : Nat := 8388608

structure OutSocket where
  bufferSize : Nat
  chunkSize : Nat
  dontwait : Bool
  ssl : Bool
  sslSend : Bool
  outBuffer : Option Buffer
  /-- `close_wait`: the close event has been triggered -/
  closed : Bool
  wire : Bytes
  accepted : Bytes

namespace OutSocket

def make (bufferSize chunkSize : Nat) (dontwait ssl sslSend : Bool) : OutSocket :=
  ⟨bufferSize, chunkSize, dontwait, ssl, sslSend, none, false, [], []⟩

section
variable (s : OutSocket)

def queueEmpty : Bool := s.outBuffer.elim true Buffer.empty

def takeBytes (bs : Bytes) : OutSocket := { s with wire := s.wire ++ bs }

/-- from `_alloc_buffer` on: a queue is there, and the rest goes into it unless it is too long -/
def appendBuffer (append : Buffer → Option Buffer) : Option (Int × OutSocket) :=
  let buffer := s.outBuffer.getD (Buffer.make s.chunkSize)
  if s.bufferSize < buffer.length ∧ s.dontwait then some (-1, s)
  else (append buffer).map fun b => (0, { s with outBuffer := some b })

/-- `write_func` once `buffer_size` is set; `append k` appends what is behind the first `k` bytes -/
def writeSized (data : Bytes) (append : Nat → Buffer → Option Buffer) (answers : List Answer) :
    Option (Int × OutSocket) :=
  if s.bufferSize < data.length % 2^32 then some (-1, s)
  else if s.queueEmpty then
    if s.sslSend then s.appendBuffer (append 0)
    else
      match (answer data.length answers).1 with
      | .bytes k =>
        if k = data.length then some (k, s.takeBytes data)
        else (s.takeBytes (data.take k)).appendBuffer (append k)
      | .error .wait => s.appendBuffer (append 0)
      | .error _ => some (-1, s)
  else s.appendBuffer (append 0)

def writeFunc (data : Bytes) (append : Nat → Buffer → Option Buffer) (answers : List Answer) :
    Option (Int × OutSocket) :=
  writeSized { s with bufferSize := if s.bufferSize = 0 then socketBufferSize else s.bufferSize } data
    append answers

end

/-- the `append_fn` of `_write`; the size is a `uint32_t`, and not 0 -/
def appendData (data : Bytes) (offset : Nat) (b : Buffer) : Option Buffer :=
  let size := (data.length - offset) % 2^32
  if size = 0 then none else some (b.append ((data.drop offset).take size))

def write (s : OutSocket) (data : Bytes) (answers : List Answer) : Option (Int × OutSocket) :=
  s.writeFunc data (appendData data) answers

def writev (s : OutSocket) (iov : List Bytes) (answers : List Answer) : Option (Int × OutSocket) :=
  if s.ssl then some (-1, s)
  else s.writeFunc iov.flatten (fun offset b => b.appendIov iov offset) answers

/-- one turn of the loop of `_writable_callback`, with `handle_send` -/
def writableStep (s : OutSocket × List Answer) : (OutSocket × List Answer) ⊕ OutSocket :=
  match s.1.outBuffer with
  | none => .inr s.1
  | some b =>
    match b.queue with
    | [] => .inr s.1
    | c :: cs =>
      if c.data.length - c.offset = 0 then .inl ({ s.1 with outBuffer := some b.pop }, s.2)
      else
        match answer (c.data.length - c.offset) s.2 with
        | (.bytes k, as) =>
          let s' := s.1.takeBytes (c.rest.take k)
          if k = c.data.length - c.offset then .inl ({ s' with outBuffer := some b.pop }, as)
          else .inr { s' with
            outBuffer := some { b with queue := { c with offset := c.offset + k } :: cs } }
        | (.error .wait, _) => .inr s.1
        | (.error .close, _) => .inr { s.1 with closed := true }
        | (.error _, as) => .inl (s.1, as)

def writable (s : OutSocket) (answers : List Answer) : Option OutSocket :=
  run writableStep ((s.outBuffer.elim 0 fun b => b.queue.length) + answers.length + 1) (s, answers)

end OutSocket

/-! ## runs -/

inductive WriteOp where
  | write (data : Bytes) (answers : List Answer)
  | writev (iov : List Bytes) (answers : List Answer)
  | writable (answers : List Answer)

def OutSocket.accept (data : Bytes) (r : Int × OutSocket) : OutSocket :=
  if 0 ≤ r.1 then { r.2 with accepted := r.2.accepted ++ data } else r.2

def OutSocket.step (op : WriteOp) (s : OutSocket) : Option OutSocket :=
  if s.closed then some s
  else
    match op with
    | .write data answers => (s.write data answers).map (accept data)
    | .writev iov answers => (s.writev iov answers).map (accept iov.flatten)
    | .writable answers => s.writable answers

def OutSocket.run (ops : List WriteOp) (s : OutSocket) : Option OutSocket := iter OutSocket.step ops s

/-! ## the byte stream -/

def OutSocket.unsent (s : OutSocket) : Bytes := s.outBuffer.elim [] Buffer.pending

structure Stream (s : OutSocket) : Prop where
  bytes : s.wire ++ s.unsent = s.accepted
  whole : ∀ b, s.outBuffer = some b → b.Whole

/-- `append k` puts what is behind the first `k` bytes at the end of a queue -/
def Appends (data : Bytes) (append : Nat → Buffer → Option Buffer) (k : Nat) : Prop :=
  ∀ b : Buffer, b.Whole → ∃ b', append k b = some b' ∧ b'.pending = b.pending ++ data.drop k ∧ b'.Whole

namespace OutSocket
variable {s : OutSocket} {data : Bytes} {append : Nat → Buffer → Option Buffer} {k : Nat}

lemma unsent_of_empty (h : s.queueEmpty = true) : s.unsent = [] := by
  unfold unsent
  unfold queueEmpty at h
  cases hb : s.outBuffer with
  | none => rfl
  | some b =>
    rw [hb] at h
    show b.queue.flatMap _ = []
    rw [isEmpty_iff.1 (show b.queue.isEmpty = true from h), flatMap_nil]

section
variable (hw : ∀ b, s.outBuffer = some b → b.Whole)
include hw

lemma getD_buffer : (s.outBuffer.getD (Buffer.make s.chunkSize)).Whole ∧
      (s.outBuffer.getD (Buffer.make s.chunkSize)).pending = s.unsent := by
  unfold unsent
  cases hb : s.outBuffer with
  | none => exact ⟨Buffer.make_whole _, rfl⟩
  | some b => exact ⟨hw b hb, rfl⟩

lemma length_of_empty (h : s.queueEmpty = true) : (s.outBuffer.getD (Buffer.make s.chunkSize)).length = 0 := by
  unfold queueEmpty at h
  cases hb : s.outBuffer with
  | none => rfl
  | some b =>
    rw [hb] at h
    show b.totalLength = 0
    have hq : b.queue = [] := isEmpty_iff.1 (show b.queue.isEmpty = true from h)
    rw [(hw b hb).total, Buffer.sizes, hq]
    rfl

lemma appendBuffer_spec (ha : Appends data append k) :
    (s.queueEmpty = false ∧ s.appendBuffer (append k) = some (-1, s)) ∨
    ∃ b, s.appendBuffer (append k) = some (0, { s with outBuffer := some b }) ∧ b.Whole ∧
      b.pending = s.unsent ++ data.drop k := by
  obtain ⟨hbw, hbp⟩ := getD_buffer hw
  obtain ⟨b', he, hp, hw'⟩ := ha _ hbw
  unfold appendBuffer
  by_cases hfull : s.bufferSize < (s.outBuffer.getD (Buffer.make s.chunkSize)).length ∧ s.dontwait
  · rw [if_pos hfull]
    refine .inl ⟨?_, rfl⟩
    cases hq : s.queueEmpty with
    | false => rfl
    | true =>
      have := length_of_empty hw hq
      omega
  · rw [if_neg hfull, he]
    exact .inr ⟨b', rfl, hw', by rw [hp, hbp]⟩

lemma appendBuffer_stream {acc : Bytes} (ha : Appends data append k)
    (hbytes : s.wire ++ s.unsent = acc ++ data.take k) (hacc : s.accepted = acc)
    (hk : s.queueEmpty = false → k = 0) : ∃ r, s.appendBuffer (append k) = some r ∧ Stream (accept data r) := by
  rcases appendBuffer_spec hw ha with ⟨hq, he⟩ | ⟨b, he, hbw, hbp⟩
  · refine ⟨_, he, ?_, hw⟩
    rw [hk hq, take_zero, append_nil] at hbytes
    show s.wire ++ s.unsent = s.accepted
    rw [hbytes, hacc]
  · refine ⟨_, he, ?_, ?_⟩
    · show s.wire ++ b.pending = s.accepted ++ data
      rw [hbp, ← append_assoc, hbytes, hacc, append_assoc, take_append_drop]
    · intro b' hb'
      cases hb'
      exact hbw

end

variable {answers : List Answer}

variable (h : Stream s) (h0 : Appends data append 0)
  (hpart : ∀ k, s.queueEmpty = true → s.sslSend = false → (answer data.length answers).1 = .bytes k →
    k ≠ data.length → Appends data append k)
include h h0 hpart

lemma writeSized_stream : ∃ r, s.writeSized data append answers = some r ∧ Stream (accept data r) := by
  have hzero : s.wire ++ s.unsent = s.accepted ++ data.take 0 := by
    rw [take_zero, append_nil]
    exact h.bytes
  have hqueue := appendBuffer_stream h.whole h0 hzero rfl fun _ => rfl
  unfold writeSized
  by_cases hbig : s.bufferSize < data.length % 2^32
  · rw [if_pos hbig]
    exact ⟨_, rfl, h⟩
  rw [if_neg hbig]
  by_cases hempty : s.queueEmpty = true
  · rw [if_pos hempty]
    by_cases hsend : s.sslSend = true
    · rw [if_pos hsend]
      exact hqueue
    rw [if_neg hsend]
    cases ha : (answer data.length answers).1 with
    | bytes k =>
      dsimp only
      have hun := unsent_of_empty hempty
      have hsent : s.wire = s.accepted := by rw [← h.bytes, hun, append_nil]
      by_cases hk : k = data.length
      · rw [if_pos hk]
        refine ⟨_, rfl, ?_⟩
        unfold accept
        refine ⟨?_, h.whole⟩
        show s.wire ++ data ++ s.unsent = s.accepted ++ data
        rw [hun, append_nil, hsent]
      · rw [if_neg hk]
        have hap := hpart k hempty (Bool.eq_false_iff.2 hsend) ha hk
        have hsent' : (s.takeBytes (data.take k)).wire ++ (s.takeBytes (data.take k)).unsent =
            s.accepted ++ data.take k := by
          show s.wire ++ data.take k ++ s.unsent = _
          rw [hun, append_nil, hsent]
        refine appendBuffer_stream h.whole hap hsent' rfl fun hf => ?_
        rw [show (s.takeBytes (data.take k)).queueEmpty = s.queueEmpty from rfl, hempty] at hf
        cases hf
    | error e =>
      cases e with
      | wait => exact hqueue
      | close | error | invalid => exact ⟨_, rfl, h⟩
  · rw [if_neg hempty]
    exact hqueue

lemma writeFunc_stream : ∃ r, s.writeFunc data append answers = some r ∧ Stream (accept data r) :=
  writeSized_stream ⟨h.bytes, h.whole⟩ h0 hpart

end OutSocket

variable {k : Nat} {data : Bytes} {s : OutSocket} {r : Int × OutSocket} {answers : List Answer}
  {b : Buffer} {c : BufferChunk} {cs : List BufferChunk}

lemma answer_le {n : Nat} {as : List Answer} (h : (answer n as).1 = .bytes k) : k ≤ n := by
  induction as with
  | nil => exact nomatch h
  | cons a as ih =>
    cases a with
    | took j =>
      cases h
      exact min_le_right _ _
    | intr => exact ih h
    | error e => exact nomatch h

lemma answer_shorter (n : Nat) (as : List Answer) :
    (answer n as).1 = .error .wait ∨ (answer n as).2.length < as.length := by
  induction as with
  | nil => exact .inl rfl
  | cons a as ih =>
    cases a with
    | took j | error e => exact .inr (Nat.lt_succ_self _)
    | intr => exact ih.imp id Nat.lt_succ_of_lt

lemma appendData_appends (hlen : data.length < 2^32) (hk : k < data.length) :
    Appends data (OutSocket.appendData data) k := by
  intro b hb
  have hmod : (data.length - k) % 2^32 = data.length - k := Nat.mod_eq_of_lt (by omega)
  obtain ⟨hp, hw, -⟩ := b.append_spec (data.drop k)
  refine ⟨b.append (data.drop k), ?_, hp, hw hb⟩
  unfold OutSocket.appendData
  rw [hmod, if_neg (by omega), take_of_length_le (le_of_eq length_drop)]

lemma OutSocket.write_stream (h : Stream s) (hne : data ≠ []) (hlen : data.length < 2^32)
    (answers : List Answer) : ∃ r, s.write data answers = some r ∧ Stream (accept data r) :=
  writeFunc_stream h (appendData_appends hlen (length_pos_iff.2 hne))
    (fun _ _ _ ha hk => appendData_appends hlen (lt_of_le_of_ne (answer_le ha) hk))

lemma OutSocket.appendBuffer_accepted {append : Buffer → Option Buffer}
    (h : s.appendBuffer append = some r) : r.2.accepted = s.accepted := by
  unfold appendBuffer at h
  dsimp only at h
  split at h
  · exact some.inj h ▸ rfl
  · obtain ⟨b, -, rfl⟩ := map_eq_some_iff.1 h
    rfl

lemma OutSocket.writeSized_accepted {append : Nat → Buffer → Option Buffer}
    (h : s.writeSized data append answers = some r) : r.2.accepted = s.accepted := by
  unfold writeSized at h
  split at h
  · exact some.inj h ▸ rfl
  · split at h
    · split at h
      · exact appendBuffer_accepted h
      · split at h
        · split at h
          · exact some.inj h ▸ rfl
          · exact (appendBuffer_accepted h).trans rfl
        · exact appendBuffer_accepted h
        · exact some.inj h ▸ rfl
    · exact appendBuffer_accepted h

lemma OutSocket.write_accepted (h : s.write data answers = some r) : r.2.accepted = s.accepted :=
  (writeSized_accepted h).trans rfl

lemma appendIov_appends {iov : List Bytes} (hnil : iov ≠ []) (hne : ∀ e ∈ iov, e ≠ []) :
    Appends iov.flatten (fun offset b => b.appendIov iov offset) 0 := by
  intro b hb
  obtain ⟨b', he, hd⟩ := b.appendIov_spec hnil hne
  exact ⟨b', he, hd.pending, hd.whole hb⟩

/-! ## the writable callback -/

/-- every turn takes a chunk off the queue or uses an answer -/
def writableMeasure (s : OutSocket × List Answer) : Nat :=
  (s.1.outBuffer.elim 0 fun b => b.queue.length) + s.2.length

section
variable (h : Stream s) (hb : s.outBuffer = some b) (hq : b.queue = c :: cs)
include h hb hq

lemma Stream.pop {bs : Bytes} (hbs : bs = c.rest) : Stream { s.takeBytes bs with outBuffer := some b.pop } := by
  refine ⟨?_, fun b' hb' => ?_⟩
  · have hbytes := h.bytes
    unfold OutSocket.unsent at hbytes
    rw [hb] at hbytes
    show s.wire ++ bs ++ b.pop.pending = s.accepted
    rw [← hbytes, hbs, append_assoc, ← Buffer.pop_pending hq]
    rfl
  · cases hb'
    exact Buffer.pop_whole (h.whole b hb)

lemma Stream.some_sent (hk : k ≤ c.data.length - c.offset) : Stream { s.takeBytes (c.rest.take k) with
      outBuffer := some { b with queue := { c with offset := c.offset + k } :: cs } } := by
  have hw := h.whole b hb
  refine ⟨?_, fun b' hb' => ?_⟩
  · have hbytes := h.bytes
    unfold OutSocket.unsent at hbytes
    rw [hb] at hbytes
    have hp : b.pending = c.rest ++ cs.flatMap BufferChunk.rest := by
      unfold Buffer.pending
      rw [hq, flatMap_cons]
    show s.wire ++ c.rest.take k ++ (c.data.drop (c.offset + k) ++ cs.flatMap BufferChunk.rest) = s.accepted
    rw [← hbytes, show (some b).elim [] Buffer.pending = b.pending from rfl, hp, ← drop_drop,
      append_assoc, ← append_assoc (c.rest.take k)]
    show _ ++ (c.rest.take k ++ c.rest.drop k ++ _) = _
    rw [take_append_drop]
  · cases hb'
    refine ⟨fun x hx => ?_, ?_⟩
    · rcases mem_cons.1 hx with rfl | hx
      · obtain ⟨h1, h2⟩ := hw.full c (by rw [hq]; exact mem_cons_self)
        refine ⟨h1, ?_⟩
        show c.offset + k ≤ c.size
        omega
      · exact hw.full x (by rw [hq]; exact mem_cons_of_mem _ hx)
    · have ht := hw.total
      unfold Buffer.sizes at ht
      rw [hq] at ht
      exact ht

end

lemma writableStep_stream (s : OutSocket × List Answer) (h : Stream s.1) :
    Steps OutSocket.writableStep (fun s => Stream s.1) writableMeasure Stream s := by
  obtain ⟨s, as⟩ := s
  unfold Steps OutSocket.writableStep
  cases hb : s.outBuffer with
  | none => exact .inr ⟨s, rfl, h⟩
  | some b =>
    dsimp only
    cases hq : b.queue with
    | nil => exact .inr ⟨s, rfl, h⟩
    | cons c cs =>
      dsimp only
      have hpoplen : b.pop.queue.length + 1 = b.queue.length := by
        unfold Buffer.pop
        rw [hq]
        rfl
      by_cases hz : c.data.length - c.offset = 0
      · rw [if_pos hz]
        have hrest : [] = c.rest := (drop_eq_nil_of_le (by omega)).symm
        have hs : { s with outBuffer := some b.pop } = { s.takeBytes [] with outBuffer := some b.pop } := by
          unfold OutSocket.takeBytes
          rw [append_nil]
        refine .inl ⟨_, rfl, ?_, ?_⟩
        · rw [hs]
          exact h.pop hb hq hrest
        · unfold writableMeasure
          rw [hb]
          show b.pop.queue.length + as.length < b.queue.length + as.length
          omega
      rw [if_neg hz]
      have hshort := answer_shorter (c.data.length - c.offset) as
      cases ha : answer (c.data.length - c.offset) as with
      | mk r rest =>
        rw [ha] at hshort
        cases r with
        | bytes k =>
          dsimp only
          have hlt : rest.length < as.length := hshort.resolve_left nofun
          by_cases hk : k = c.data.length - c.offset
          · rw [if_pos hk]
            refine .inl ⟨_, rfl, ?_, ?_⟩
            · refine h.pop hb hq ?_
              rw [hk, take_of_length_le]
              exact Nat.le_of_eq length_drop
            · unfold writableMeasure
              rw [hb]
              show b.pop.queue.length + rest.length < b.queue.length + as.length
              omega
          · rw [if_neg hk]
            have hle := answer_le (show (answer (c.data.length - c.offset) as).1 = .bytes k by rw [ha])
            exact .inr ⟨_, rfl, h.some_sent hb hq hle⟩
        | error e =>
          cases e with
          | wait => exact .inr ⟨_, rfl, h⟩
          | close => exact .inr ⟨_, rfl, ⟨h.bytes, h.whole⟩⟩
          | error | invalid =>
            have hlt : rest.length < as.length := hshort.resolve_left nofun
            exact .inl ⟨_, rfl, h, Nat.add_lt_add_left hlt _⟩

lemma writable_stream (h : Stream s) (as : List Answer) : ∃ s', s.writable as = some s' ∧ Stream s' :=
  run_spec (I := fun s => Stream s.1) writableStep_stream (s := (s, as)) h (Nat.lt_succ_self _)

/-! ## every run -/

def WriteOp.WellFormed : WriteOp → Prop
  | .write data _ => data ≠ [] ∧ data.length < 2^32
  | .writev iov _ => iov ≠ [] ∧ ∀ e ∈ iov, e ≠ []
  | .writable _ => True

/-- The call is no `writev` that the kernel takes in part. -/
def WriteOp.NotPartial : WriteOp → OutSocket → Prop
  | .writev iov as, s => s.queueEmpty = true → ∀ k, (answer iov.flatten.length as).1 = .bytes k →
      k = iov.flatten.length
  | _, _ => True

lemma step_stream {op : WriteOp} (hop : op.WellFormed) (hp : op.NotPartial s) (h : Stream s) :
    ∃ s', OutSocket.step op s = some s' ∧ Stream s' := by
  unfold OutSocket.step
  by_cases hcl : s.closed = true
  · rw [if_pos hcl]
    exact ⟨s, rfl, h⟩
  rw [if_neg hcl]
  cases op with
  | write data as =>
    obtain ⟨hne, hlen⟩ := hop
    obtain ⟨r, he, hr⟩ := OutSocket.write_stream h hne hlen as
    refine ⟨_, ?_, hr⟩
    show (s.write data as).map _ = _
    rw [he]
    rfl
  | writev iov as =>
    obtain ⟨hnil, hne⟩ := hop
    obtain ⟨r, he, hr⟩ : ∃ r, s.writev iov as = some r ∧ Stream (OutSocket.accept iov.flatten r) := by
      unfold OutSocket.writev
      by_cases hssl : s.ssl = true
      · rw [if_pos hssl]
        exact ⟨_, rfl, h⟩
      · rw [if_neg hssl]
        exact OutSocket.writeFunc_stream h (appendIov_appends hnil hne)
          (fun k hq _ ha hk => absurd (hp hq k ha) hk)
    refine ⟨_, ?_, hr⟩
    show (s.writev iov as).map _ = _
    rw [he]
    rfl
  | writable as => exact writable_stream h as

lemma make_stream (bufferSize chunkSize : Nat) (dontwait ssl sslSend : Bool) :
    Stream (.make bufferSize chunkSize dontwait ssl sslSend) :=
  ⟨rfl, nofun⟩

def WriteOp.Plain : WriteOp → Prop
  | .writev _ _ => False
  | op => op.WellFormed

lemma plain_stream (op : WriteOp) (s : OutSocket) (hop : op.Plain) (h : Stream s) :
    ∃ s', OutSocket.step op s = some s' ∧ Stream s' := by
  cases op with
  | write data as => exact step_stream hop trivial h
  | writev iov as => exact hop.elim
  | writable as => exact step_stream trivial trivial h

/-- **Plain writes keep the byte stream.** -/
theorem write_keeps_stream (bufferSize chunkSize : Nat) (dontwait ssl sslSend : Bool)
    (ops : List WriteOp) (hops : ∀ op ∈ ops, op.Plain) :
    ∃ s, OutSocket.run ops (.make bufferSize chunkSize dontwait ssl sslSend) = some s ∧
      s.wire <+: s.accepted ∧ (s.queueEmpty = true → s.wire = s.accepted) := by
  obtain ⟨s, hrun, h⟩ := iter_spec plain_stream ops hops
    (make_stream bufferSize chunkSize dontwait ssl sslSend)
  refine ⟨s, hrun, ⟨s.unsent, h.bytes⟩, fun hq => ?_⟩
  rw [← h.bytes, OutSocket.unsent_of_empty hq, append_nil]

/-- five bytes in chunks of two, of which the kernel takes one, then three -/
theorem write_keeps_stream_five :
    ∃ s, OutSocket.run [.write [1, 2, 3, 4, 5] [.took 0], .writable [.took 2, .took 0]]
        (.make 0 2 false false false) = some s ∧
      s.wire <+: s.accepted ∧ (s.queueEmpty = true → s.wire = s.accepted) := by
  refine write_keeps_stream 0 2 false false false _ fun op hop => ?_
  rcases mem_cons.1 hop with rfl | hop
  · exact ⟨cons_ne_nil _ _, by decide⟩
  · rw [mem_singleton.1 hop]
    trivial

/-- **Vectored writes keep the byte stream when the kernel takes each of them whole or not at all.** -/
theorem writev_keeps_stream (bufferSize chunkSize : Nat) (dontwait ssl sslSend : Bool) (ops : List WriteOp)
    (hops : Along OutSocket.step (fun op s => op.WellFormed ∧ op.NotPartial s) ops
      (.make bufferSize chunkSize dontwait ssl sslSend)) :
    ∃ s, OutSocket.run ops (.make bufferSize chunkSize dontwait ssl sslSend) = some s ∧
      s.wire <+: s.accepted ∧ s.unsent.length = s.accepted.length - s.wire.length ∧
      ∀ b, s.outBuffer = some b → s.unsent.length < 2^32 →
        (∀ c ∈ b.queue, c.offset = 0) → b.length = s.accepted.length - s.wire.length := by
  obtain ⟨s, hrun, h⟩ := iter_along (fun op s hop hs => step_stream hop.1 hop.2 hs) ops hops
    (make_stream bufferSize chunkSize dontwait ssl sslSend)
  have hlen : s.unsent.length = s.accepted.length - s.wire.length := by
    rw [← h.bytes, length_append]
    omega
  refine ⟨s, hrun, ⟨s.unsent, h.bytes⟩, hlen, fun b hb hlt hoff => ?_⟩
  have hun : s.unsent = b.pending := by
    unfold OutSocket.unsent
    rw [hb]
    rfl
  have hsum : (b.queue.map BufferChunk.offset).sum = 0 := by
    refine List.sum_eq_zero_iff_forall_eq_nat.mpr fun x hx => ?_
    obtain ⟨c, hc, rfl⟩ := List.mem_map.mp hx
    exact hoff c hc
  have hw := h.whole b hb
  show b.totalLength = _
  rw [hw.total, hw.sizes_eq, hsum, add_zero, ← hun, Nat.mod_eq_of_lt hlt, hlen]

/-- three bytes in two entries, queued in chunks of two -/
theorem writev_keeps_stream_three :
    ∃ s, OutSocket.run [.writev [[1, 2], [3]] [.error .wait], .writable [.took 1]]
        (.make 0 2 false false false) = some s ∧
      s.wire <+: s.accepted ∧ s.unsent.length = s.accepted.length - s.wire.length ∧
      ∀ b, s.outBuffer = some b → s.unsent.length < 2^32 →
        (∀ c ∈ b.queue, c.offset = 0) → b.length = s.accepted.length - s.wire.length := by
  refine writev_keeps_stream 0 2 false false false _ ⟨⟨⟨cons_ne_nil _ _, ?_⟩, ?_⟩, fun s' _ =>
    ⟨⟨trivial, trivial⟩, fun _ _ => trivial⟩⟩
  · decide
  · exact nofun

/-- The kernel takes one byte of `123 4`: the queue gets the whole of both entries, and the byte is sent
twice. -/
theorem writev_repeats :
    ∃ s, OutSocket.run [.writev [[1, 2, 3], [4]] [.took 0], .writable [.took 9, .took 9]]
        (.make 0 0 false false false) = some s ∧
      s.wire = [1, 1, 2, 3, 4] ∧ s.accepted = [1, 2, 3, 4] ∧ ¬ s.wire <+: s.accepted := by
  refine ⟨_, rfl, rfl, rfl, ?_⟩
  decide

end OSW
