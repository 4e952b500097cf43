import Mathlib.Algebra.GroupWithZero.Nat
import Mathlib.Data.List.GetD
import OpenSwoole.Core.OswString
import OpenSwoole.Lib.Machine

/-!
# The output queue of a socket

`src/memory/buffer.cc`.  A queue of chunks of bytes; a chunk is sent from its `offset` on.

* `Buffer.append`   `append(data, size)`: the data is cut into chunks of `chunk_size` bytes;
* `Buffer.appendIov`   `append(iov, iovcnt, offset)`: the loop over entries and chunks, with the `offset`
    of a partial `writev`;
* `Buffer.pending`   what is still to be sent;
* `Buffer.Whole`   every chunk is full and `total_length` counts the chunks, modulo 2^32;
* `appendIov_spec`   without an offset the entries are appended, in order.
-/

namespace OSW
open List Machine

/-- a chunk of type `TYPE_DATA`; `data` has `length` bytes -/
structure BufferChunk where
  data : Bytes
  size : Nat
  offset : Nat
  deriving DecidableEq

def BufferChunk.rest (c : BufferChunk) : Bytes := c.data.drop c.offset

structure Buffer where
  chunkSize : Nat
  totalLength : Nat
  queue : List BufferChunk
  chunk_pos : 0 < chunkSize

namespace Buffer

/-- the constructor: a chunk size of 0 is `INT_MAX` -/
def make (chunkSize : Nat) : Buffer where
  chunkSize := if chunkSize = 0 then 2^31 - 1 else chunkSize
  totalLength := 0
  queue := []
  chunk_pos := by
    split
    · decide
    · omega

section
variable (b : Buffer)

def length : Nat := b.totalLength

def empty : Bool := b.queue.isEmpty

def pop : Buffer :=
  match b.queue with
  | [] => b
  | c :: cs => { b with queue := cs, totalLength := (b.totalLength + 2^32 - c.size % 2^32) % 2^32 }

def enqueue (c : BufferChunk) : Buffer := { b with queue := b.queue ++ [c] }

def count (n : Nat) : Buffer := { b with totalLength := (b.totalLength + n) % 2^32 }

/-- the size of the next chunk, `_length >= chunk_size ? chunk_size : _length` -/
def nextSize (length : Nat) : Nat := if b.chunkSize ≤ length then b.chunkSize else length

end

lemma nextSize_le (b : Buffer) (length : Nat) : b.nextSize length ≤ length := by
  unfold nextSize
  split <;> omega

lemma nextSize_pos (b : Buffer) {length : Nat} (h : 0 < length) : 0 < b.nextSize length := by
  have := b.chunk_pos
  unfold nextSize
  split <;> omega

def append (b : Buffer) : Bytes → Buffer
  | [] => b
  | x :: xs =>
    let n := b.nextSize (x :: xs).length
    append ((b.count n).enqueue ⟨(x :: xs).take n, n, 0⟩) ((x :: xs).drop n)
termination_by data => data.length
decreasing_by
  have := b.nextSize_pos (show 0 < (x :: xs).length from Nat.succ_pos _)
  rw [length_drop]
  simp only [length_cons] at this ⊢
  omega

/-! ## vectored append -/

/-- the locals of `append(iov, iovcnt, offset)`; `pos` is the memory from the pointer to the end of its entry -/
structure IovCursor where
  buffer : Buffer
  chunk : Option BufferChunk
  length : Nat
  offset : Nat
  i : Nat
  pos : Bytes
  iovRemainLen : Nat

/-- the lower half of the loop: copy into a chunk, then go to the next entry or forward in this one -/
def iovCopy (iov : List Bytes) (s : IovCursor) (chunk : BufferChunk) : IovCursor ⊕ Buffer :=
  let n := min s.iovRemainLen (chunk.size - chunk.data.length)
  let chunk := { chunk with data := chunk.data ++ s.pos.take n }
  let buffer := s.buffer.count n
  if s.iovRemainLen - n = 0 then
    if s.i + 1 = iov.length then .inr (buffer.enqueue chunk)
    else .inl { s with
      buffer := buffer
      chunk := some chunk
      length := s.length - n
      i := s.i + 1
      pos := iov.getD (s.i + 1) []
      iovRemainLen := (iov.getD (s.i + 1) []).length }
  else .inl { s with
    buffer := buffer
    chunk := some chunk
    length := s.length - n
    pos := s.pos.drop n
    iovRemainLen := s.iovRemainLen - n }

def iovAlloc (s : IovCursor) : BufferChunk := ⟨[], s.buffer.nextSize s.length, 0⟩

def iovStep (iov : List Bytes) (s : IovCursor) : IovCursor ⊕ Buffer :=
  match s.chunk with
  | some chunk =>
    if chunk.size = chunk.data.length then .inl { s with buffer := s.buffer.enqueue chunk, chunk := none }
    else iovCopy iov s chunk
  | none =>
    if 0 < s.offset then
      -- an entry that has been sent is skipped; `pos` and `iov_remain_len` stay
      if (iov.getD s.i []).length ≤ s.offset then
        .inl { s with offset := s.offset - (iov.getD s.i []).length, i := s.i + 1 }
      -- `offset = 0; pos += offset; iov_remain_len -= offset;`
      else iovCopy iov { s with offset := 0 } (iovAlloc s)
    else iovCopy iov s (iovAlloc s)

def iovStart (b : Buffer) (iov : List Bytes) (offset : Nat) : IovCursor :=
  ⟨b, none, iov.flatten.length, offset, 0, iov.headD [], (iov.headD []).length⟩

def appendIov (b : Buffer) (iov : List Bytes) (offset : Nat) : Option Buffer :=
  run (iovStep iov) (2 * iov.flatten.length + iov.length + 2) (iovStart b iov offset)

/-! ## the bytes of a queue -/

def pending (b : Buffer) : Bytes := b.queue.flatMap BufferChunk.rest

def sizes (b : Buffer) : Nat := (b.queue.map BufferChunk.size).sum

structure Whole (b : Buffer) : Prop where
  full : ∀ c ∈ b.queue, c.data.length = c.size ∧ c.offset ≤ c.size
  total : b.totalLength = b.sizes % 2^32

lemma make_whole (chunkSize : Nat) : (make chunkSize).Whole := ⟨nofun, rfl⟩

@[simp] lemma count_pending (b : Buffer) (n : Nat) : (b.count n).pending = b.pending := rfl

lemma enqueue_pending (b : Buffer) (c : BufferChunk) : (b.enqueue c).pending = b.pending ++ c.rest := by
  show (b.queue ++ [c]).flatMap _ = _
  rw [flatMap_append, flatMap_singleton]
  rfl

lemma enqueue_sizes (b : Buffer) (c : BufferChunk) : (b.enqueue c).sizes = b.sizes + c.size := by
  show ((b.queue ++ [c]).map _).sum = _
  rw [map_append, sum_append]
  rfl

lemma Whole.enqueue {b : Buffer} (h : b.Whole) {c : BufferChunk}
    (hc : c.data.length = c.size ∧ c.offset ≤ c.size) :
    ((b.count c.size).enqueue c).Whole := by
  refine ⟨fun x hx => ?_, ?_⟩
  · rcases mem_append.1 hx with hx | hx
    · exact h.full x hx
    · rw [mem_singleton.1 hx]
      exact hc
  · rw [enqueue_sizes]
    show (b.totalLength + c.size) % 2^32 = (b.sizes + c.size) % 2^32
    rw [h.total]
    omega

/-! ## appending -/

lemma append_spec (b : Buffer) (data : Bytes) :
    (b.append data).pending = b.pending ++ data ∧ (b.Whole → (b.append data).Whole) ∧
      (b.append data).chunkSize = b.chunkSize := by
  induction b, data using append.induct with
  | case1 b =>
    rw [append, append_nil]
    exact ⟨rfl, id, rfl⟩
  | case2 b x xs n ih =>
    rw [append]
    obtain ⟨hp, hw, hs⟩ := ih
    have hn : n ≤ (x :: xs).length := b.nextSize_le _
    have hlen : ((x :: xs).take n).length = n := length_take_of_le hn
    refine ⟨?_, fun h => hw (h.enqueue (c := ⟨(x :: xs).take n, n, 0⟩) ⟨hlen, Nat.zero_le _⟩), hs⟩
    rw [hp, enqueue_pending, append_assoc]
    show b.pending ++ ((x :: xs).take n ++ (x :: xs).drop n) = _
    rw [take_append_drop]

/-- inside the loop, without an offset: `b` with `iov` appended is what is there and what is left -/
structure IovGood (b : Buffer) (iov : List Bytes) (s : IovCursor) : Prop where
  offset : s.offset = 0
  lt : s.i < iov.length
  remain : s.iovRemainLen = s.pos.length
  pos : 0 < s.pos.length
  length : s.length = s.pos.length + (iov.drop (s.i + 1)).flatten.length
  bytes : s.buffer.pending ++ (s.chunk.elim [] BufferChunk.data) ++ s.pos ++
    (iov.drop (s.i + 1)).flatten = b.pending ++ iov.flatten
  chunk : ∀ c, s.chunk = some c → c.offset = 0 ∧ c.data.length ≤ c.size ∧ c.size - c.data.length ≤ s.length
  full : b.Whole → ∀ c ∈ s.buffer.queue, c.data.length = c.size ∧ c.offset ≤ c.size
  total : b.Whole → s.buffer.totalLength =
    (s.buffer.sizes + (s.chunk.elim [] BufferChunk.data).length) % 2^32
  size : s.buffer.chunkSize = b.chunkSize

structure IovDone (b : Buffer) (iov : List Bytes) (b' : Buffer) : Prop where
  pending : b'.pending = b.pending ++ iov.flatten
  whole : b.Whole → b'.Whole
  size : b'.chunkSize = b.chunkSize

/-- every turn copies a byte or closes a full chunk -/
def iovMeasure (s : IovCursor) : Nat := 2 * s.length + if s.chunk.isSome then 1 else 0

section
variable {b : Buffer} {iov : List Bytes} {s : IovCursor} {c : BufferChunk}

lemma drop_succ_flatten {i : Nat} (hi : i < iov.length) :
    (iov.drop i).flatten = iov.getD i [] ++ (iov.drop (i + 1)).flatten := by
  rw [drop_eq_getElem_cons hi, flatten_cons, getD_eq_getElem _ _ hi]

lemma IovGood.copied (h : IovGood b iov { s with chunk := some c }) {n : Nat}
    (hn : n ≤ s.pos.length) (hb : b.Whole) :
    (s.buffer.count n).totalLength =
      ((s.buffer.count n).sizes + (c.data ++ s.pos.take n).length) % 2^32 := by
  have ht : s.buffer.totalLength = (s.buffer.sizes + c.data.length) % 2^32 := h.total hb
  rw [length_append, length_take_of_le hn]
  show (s.buffer.totalLength + n) % 2^32 = (s.buffer.sizes + (c.data.length + n)) % 2^32
  omega

lemma IovGood.held (h : IovGood b iov { s with chunk := some c }) :
    s.length = s.pos.length + (iov.drop (s.i + 1)).flatten.length ∧
      s.buffer.pending ++ c.data ++ s.pos ++ (iov.drop (s.i + 1)).flatten = b.pending ++ iov.flatten :=
  ⟨h.length, h.bytes⟩

lemma iovCopy_last (h : IovGood b iov { s with chunk := some c }) {n : Nat}
    (hn : n = s.pos.length) (hroom : n ≤ c.size - c.data.length) (hi : s.i + 1 = iov.length) :
    IovDone b iov ((s.buffer.count n).enqueue { c with data := c.data ++ s.pos.take n }) := by
  obtain ⟨hco, hcl, hcr⟩ := h.chunk c rfl
  obtain ⟨hlen, hbytes⟩ := h.held
  rw [hi, drop_length, flatten_nil, length_nil] at hlen
  rw [hi, drop_length, flatten_nil, append_nil] at hbytes
  have hfull : (c.data ++ s.pos.take n).length = c.size := by
    rw [length_append, length_take_of_le (le_of_eq hn)]
    dsimp only at hcr
    omega
  refine ⟨?_, fun hb => ⟨fun x hx => ?_, ?_⟩, h.size⟩
  · rw [enqueue_pending, count_pending, ← hbytes, hn, take_length]
    show _ ++ (c.data ++ s.pos).drop c.offset = _
    rw [hco, drop_zero, append_assoc]
  · rcases mem_append.1 hx with hx | hx
    · exact h.full hb x hx
    · rw [mem_singleton.1 hx]
      refine ⟨hfull, ?_⟩
      rw [hco]
      exact Nat.zero_le _
  · rw [enqueue_sizes]
    rw [← hfull]
    exact h.copied (le_of_eq hn) hb

lemma iovCopy_spec (hne : ∀ e ∈ iov, e ≠ []) (h : IovGood b iov { s with chunk := some c })
    (hc : c.data.length < c.size) :
    (∃ s', iovCopy iov s c = .inl s' ∧ IovGood b iov s' ∧ iovMeasure s' < 2 * s.length) ∨
    ∃ b', iovCopy iov s c = .inr b' ∧ IovDone b iov b' := by
  obtain ⟨hco, hcl, hcr⟩ := h.chunk c rfl
  have hremain : s.iovRemainLen = s.pos.length := h.remain
  have hpos : 0 < s.pos.length := h.pos
  obtain ⟨hlen, hbytes⟩ := h.held
  dsimp only at hcr
  unfold iovCopy
  rw [hremain]
  generalize hn : min s.pos.length (c.size - c.data.length) = n
  have hn1 : 0 < n ∧ n ≤ s.pos.length ∧ n ≤ c.size - c.data.length := by omega
  have hdata : (c.data ++ s.pos.take n).length = c.data.length + n := by
    rw [length_append, length_take_of_le hn1.2.1]
  by_cases hz : s.pos.length - n = 0
  · rw [if_pos hz]
    have hnp : n = s.pos.length := by omega
    by_cases hi : s.i + 1 = iov.length
    · rw [if_pos hi]
      exact .inr ⟨_, rfl, iovCopy_last h hnp hn1.2.2 hi⟩
    · rw [if_neg hi]
      have hlt : s.i + 1 < iov.length := by
        have : s.i < iov.length := h.lt
        omega
      have hnext := drop_succ_flatten hlt
      have hnextlen := congrArg List.length hnext
      rw [length_append] at hnextlen
      refine .inl ⟨_, rfl, ⟨h.offset, hlt, rfl, ?_, ?_, ?_, ?_, h.full, h.copied hn1.2.1, h.size⟩, ?_⟩
      · refine length_pos_of_ne_nil (hne _ ?_)
        rw [getD_eq_getElem _ _ hlt]
        exact getElem_mem hlt
      · dsimp only
        omega
      · rw [← hbytes, hnext]
        show s.buffer.pending ++ (c.data ++ s.pos.take n) ++ _ ++ _ = _
        rw [hnp, take_length]
        simp only [append_assoc]
      · intro x hx
        cases hx
        refine ⟨hco, ?_, ?_⟩
        · dsimp only
          omega
        · dsimp only
          omega
      · show 2 * (s.length - n) + 1 < 2 * s.length
        omega
  · rw [if_neg hz]
    have hpl : (s.pos.drop n).length = s.pos.length - n := length_drop
    refine .inl ⟨_, rfl, ⟨h.offset, h.lt, hpl.symm, ?_, ?_, ?_, ?_, h.full, h.copied hn1.2.1, h.size⟩, ?_⟩
    · dsimp only
      omega
    · dsimp only
      omega
    · rw [← hbytes]
      show s.buffer.pending ++ (c.data ++ s.pos.take n) ++ s.pos.drop n ++ _ = _
      have := take_append_drop n s.pos
      rw [← append_assoc s.buffer.pending, append_assoc _ (s.pos.take n), this]
    · intro x hx
      cases hx
      refine ⟨hco, ?_, ?_⟩
      · dsimp only
        omega
      · dsimp only
        omega
    · show 2 * (s.length - n) + 1 < 2 * s.length
      omega

lemma iovStep_spec (hne : ∀ e ∈ iov, e ≠ []) (h : IovGood b iov s) :
    Steps (iovStep iov) (IovGood b iov) iovMeasure (IovDone b iov) s := by
  unfold Steps iovStep
  cases hs : s.chunk with
  | some c =>
    obtain ⟨hco, hcl, hcr⟩ := h.chunk c hs
    have hself : s = { s with chunk := some c } := by rw [← hs]
    by_cases hfull : c.size = c.data.length
    · dsimp only
      rw [if_pos hfull]
      have hbytes := h.bytes
      rw [hs] at hbytes
      refine .inl ⟨_, rfl, { h with bytes := ?_, chunk := ?_, full := ?_, total := ?_ }, ?_⟩
      · rw [← hbytes, enqueue_pending]
        show s.buffer.pending ++ c.data.drop c.offset ++ [] ++ s.pos ++ _ = _
        rw [hco, drop_zero, append_nil]
        rfl
      · exact nofun
      · intro hb x hx
        rcases mem_append.1 hx with hx | hx
        · exact h.full hb x hx
        · rw [mem_singleton.1 hx, hco]
          exact ⟨hfull.symm, Nat.zero_le _⟩
      · intro hb
        have ht := h.total hb
        rw [hs] at ht
        rw [enqueue_sizes, hfull]
        exact ht
      · unfold iovMeasure
        rw [hs]
        show 2 * s.length + 0 < 2 * s.length + 1
        omega
    · dsimp only
      rw [if_neg hfull]
      have hcopy := iovCopy_spec hne (hself ▸ h) (show c.data.length < c.size by omega)
      refine hcopy.imp (fun ⟨s', he, hg, hm⟩ => ⟨s', he, hg, ?_⟩) id
      unfold iovMeasure at hm ⊢
      omega
  | none =>
    have hoff : ¬ 0 < s.offset := by
      rw [h.offset]
      omega
    rw [if_neg hoff]
    have hpos : 0 < s.length := by
      have := h.pos
      have := h.length
      omega
    have hbytes := h.bytes
    rw [hs] at hbytes
    have ht := h.total
    rw [hs] at ht
    have hgood : IovGood b iov { s with chunk := some (iovAlloc s) } := by
      refine { h with bytes := hbytes, chunk := ?_, total := ht }
      intro x hx
      cases hx
      exact ⟨rfl, Nat.zero_le _, s.buffer.nextSize_le _⟩
    refine (iovCopy_spec hne hgood (s.buffer.nextSize_pos hpos)).imp
      (fun ⟨s', he, hg, hm⟩ => ⟨s', he, hg, ?_⟩) id
    unfold iovMeasure at hm ⊢
    omega

lemma appendIov_spec (b : Buffer) (hnil : iov ≠ []) (hne : ∀ e ∈ iov, e ≠ []) :
    ∃ b', b.appendIov iov 0 = some b' ∧ IovDone b iov b' := by
  refine run_spec (fun s hs => iovStep_spec hne hs) ?_ ?_
  · obtain ⟨e, es, rfl⟩ := exists_cons_of_ne_nil hnil
    refine ⟨rfl, Nat.zero_lt_succ _, rfl, ?_, ?_, ?_, nofun, fun hb => hb.full, fun hb => hb.total, rfl⟩
    · exact length_pos_of_ne_nil (hne e mem_cons_self)
    · show (e :: es).flatten.length = e.length + es.flatten.length
      rw [flatten_cons, length_append]
    · show b.pending ++ [] ++ e ++ es.flatten = b.pending ++ (e :: es).flatten
      rw [append_nil, append_assoc, flatten_cons]
  · show 2 * iov.flatten.length + 0 < _
    omega

end

lemma Whole.sizes_eq {b : Buffer} (h : b.Whole) :
    b.sizes = b.pending.length + (b.queue.map BufferChunk.offset).sum := by
  have hfull := h.full
  unfold sizes pending
  generalize b.queue = q at hfull ⊢
  induction q with
  | nil => rfl
  | cons c cs ih =>
    obtain ⟨h1, h2⟩ := hfull c mem_cons_self
    have hrest : c.rest.length = c.data.length - c.offset := length_drop
    have ih' := ih fun x hx => hfull x (mem_cons_of_mem _ hx)
    rw [map_cons, sum_cons, flatMap_cons, length_append, map_cons, sum_cons]
    omega

/-! ## taking a chunk off the queue -/

lemma pop_pending {b : Buffer} {c : BufferChunk} {cs : List BufferChunk} (h : b.queue = c :: cs) :
    b.pending = c.rest ++ b.pop.pending := by
  unfold pending pop
  rw [h]
  rfl

lemma pop_whole {b : Buffer} (hb : b.Whole) : b.pop.Whole := by
  cases h : b.queue with
  | nil =>
    unfold pop
    rw [h]
    exact hb
  | cons c cs =>
    have hsizes : b.sizes = c.size + (cs.map BufferChunk.size).sum := by
      unfold sizes
      rw [h, map_cons, sum_cons]
    have htotal := hb.total
    unfold pop
    rw [h]
    refine ⟨fun x hx => hb.full x (by rw [h]; exact mem_cons_of_mem _ hx), ?_⟩
    show (b.totalLength + 2^32 - c.size % 2^32) % 2^32 = (cs.map BufferChunk.size).sum % 2^32
    omega

end Buffer

end OSW
