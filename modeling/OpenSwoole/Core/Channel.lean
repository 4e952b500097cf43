import Mathlib.Data.List.GetD
import OpenSwoole.Core.Integers
import OpenSwoole.Lib.Machine
import OpenSwoole.Lib.Ring

/-!
# The ring channel

`src/core/channel.cc`: messages of different lengths, each behind an `int` with its length, in one
block of memory.  `push` and `pop` are `in` and `out` between a lock and an unlock.  A failed
`assert` is `none`.  Addresses are relative to `mem`; the memory behind it has
`size + maxlen + sizeof(ChannelSlice)` bytes.

* `History.step`   one call, with the messages accepted and returned so far and every write together with
    the messages it must leave alone;
* `channel_fifo`   **every run is a first-in first-out queue** as long as no message is longer than
    `INT_MAX - 4` and `num` stays below `INT_MAX`.
-/

namespace OSW.Core
open List Machine

/-! ## memory -/

/-- `memcpy` to `a` -/
def store (mem : Int → UInt8) (a : Int) (bs : Bytes) : Int → UInt8 := fun i =>
  if a ≤ i ∧ i < a + bs.length then bs.getD (i - a).toNat 0 else mem i

def load (mem : Int → UInt8) (a : Int) (n : Nat) : Bytes := (range n).map fun k : Nat => mem (a + k)

lemma load_store (mem : Int → UInt8) (a : Int) (bs : Bytes) : load (store mem a bs) a bs.length = bs := by
  refine ext_getElem (by simp [load]) fun k h1 h2 => ?_
  have hk : a ≤ a + (k : Int) ∧ a + (k : Int) < a + bs.length := by omega
  have hsub : (a + (k : Int) - a).toNat = k := by omega
  simp only [load, getElem_map, getElem_range, store, if_pos hk, hsub]
  exact getD_eq_getElem bs 0 h2

lemma load_store_of_apart {mem : Int → UInt8} {a b : Int} {bs : Bytes} {n : Nat}
    (h : b + n ≤ a ∨ a + bs.length ≤ b) : load (store mem a bs) b n = load mem b n := by
  refine map_congr_left fun k hk => ?_
  have hk := mem_range.1 hk
  exact if_neg (by omega)

lemma load_append (mem : Int → UInt8) (a : Int) (m n : Nat) :
    load mem a (m + n) = load mem a m ++ load mem (a + m) n := by
  unfold load
  rw [range_add, map_append, map_map]
  refine congrArg _ (map_congr_left fun k _ => ?_)
  show mem (a + ((m + k : Nat) : Int)) = mem (a + m + k)
  rw [Int.natCast_add, add_assoc]

/-! ## the channel -/

/-- `struct Channel`; `num` and `maxlen` are `int`s, `bytes` and `size` are `size_t`s -/
structure Channel where
  head : Int
  tail : Int
  size : Nat
  headTag : Int
  tailTag : Int
  num : Int
  bytes : Nat
  maxlen : Int
  mem : Int → UInt8

/-- `sizeof(ChannelSlice)`, the size of its `length` -/
def sliceSize : Nat := 4

namespace Channel

/-- `make`, when the allocation succeeds -/
def make (size maxlen : Nat) : Option Channel :=
  if maxlen ≤ size then
    some { head := 0, tail := 0, size, headTag := 0, tailTag := 0, num := 0, bytes := 0,
           maxlen := int32 maxlen, mem := fun _ => 0 }
  else none

def empty (c : Channel) : Bool := decide (c.num = 0)

/-- `full`; the second test is in `size_t` -/
def full (c : Channel) : Bool :=
  decide (c.head = c.tail ∧ c.tailTag ≠ c.headTag) ||
    decide (((c.bytes : Int) + sliceSize * c.num) % 2^64 = c.size)

def offSize (c : Channel) : Int := toSigned 64 c.size

def slice (data : Bytes) : Bytes := leBytes sliceSize data.length ++ data

variable (c : Channel)

/-- count a message and copy it to `item` -/
def fill (item : Int) (data : Bytes) : Channel :=
  { c with num := int32 (c.num + 1), bytes := (c.bytes + data.length) % 2^64,
           mem := store c.mem item (slice data) }

/-- `push`: the channel afterwards and whether the message was accepted -/
def push (data : Bytes) : Option (Channel × Bool) :=
  if (data.length : Int) ≤ c.maxlen then
    if c.full then some (c, false)
    else
      let msize := int32 (sliceSize + data.length)
      if c.tail < c.head then
        -- no enough memory space
        if c.head - c.tail < msize then some (c, false)
        else some ({ c with tail := c.tail + msize }.fill c.tail data, true)
      else if c.offSize ≤ c.tail + msize then
        some ({ c with tail := 0, tailTag := 1 - c.tailTag }.fill c.tail data, true)
      else some ({ c with tail := c.tail + msize }.fill c.tail data, true)
  else none

def itemLength : Int := toSigned 32 (le (load c.mem c.head sliceSize))

def advance : Channel :=
  let head := c.head + (c.itemLength + sliceSize)
  let c' := { c with num := int32 (c.num - 1), bytes := ((c.bytes - c.itemLength) % 2^64).toNat }
  if c.offSize ≤ head then { c' with head := 0, headTag := 1 - c.headTag } else { c' with head }

/-- `pop`; a negative length would be a `memcpy` of almost the whole address space -/
def pop (bufferLength : Int) : Option (Channel × Option Bytes) :=
  if c.empty then some (c, none)
  else if c.itemLength ≤ bufferLength ∧ 0 ≤ c.itemLength then
    some (c.advance, some (load c.mem (c.head + sliceSize) c.itemLength.toNat))
  else none

end Channel

/-! ## runs -/

structure Region where
  addr : Int
  size : Nat

def region (a : Int) (data : Bytes) : Region := ⟨a, sliceSize + data.length⟩

def Region.Apart (r t : Region) : Prop := r.addr + r.size ≤ t.addr ∨ t.addr + t.size ≤ r.addr

/-- a copy into the ring, and where the messages not yet popped are at that time -/
structure Write where
  region : Region
  live : List Region

inductive Op where
  | push (data : Bytes)
  | pop (bufferLength : Int)

/-- a channel, the messages accepted, returned and in between, and its writes -/
structure History where
  chan : Channel
  pushed : List Bytes
  popped : List Bytes
  live : List Region
  writes : List Write

def History.start (c : Channel) : History :=
  { chan := c, pushed := [], popped := [], live := [], writes := [] }

def History.push (h : History) (data : Bytes) : Option History :=
  (h.chan.push data).map fun r =>
    if r.2 then
      { h with chan := r.1, pushed := h.pushed ++ [data], live := h.live ++ [region h.chan.tail data],
               writes := h.writes ++ [⟨region h.chan.tail data, h.live⟩] }
    else { h with chan := r.1 }

def History.pop (h : History) (bufferLength : Int) : Option History :=
  (h.chan.pop bufferLength).map fun r =>
    match r.2 with
    | some data => { h with chan := r.1, popped := h.popped ++ [data], live := h.live.tail }
    | none => { h with chan := r.1 }

def History.step : Op → History → Option History
  | .push data, h => h.push data
  | .pop bufferLength, h => h.pop bufferLength

def History.run (ops : List Op) (h : History) : Option History := iter History.step ops h

/-- messages have between `1` and `maxlen` bytes, and the buffer of a `pop` can take any of them -/
def Op.WellFormed (maxlen : Nat) : Op → Prop
  | .push data => 1 ≤ data.length ∧ data.length ≤ maxlen
  | .pop bufferLength => maxlen ≤ bufferLength

instance (maxlen : Nat) (op : Op) : Decidable (op.WellFormed maxlen) := by
  cases op <;> dsimp only [Op.WellFormed] <;> infer_instance

/-- the header and the message fit into an `int`, and so does the number of messages with it -/
def Op.InRange : Op → History → Prop
  | .push data, h => data.length ≤ 2^31 - 5 ∧ h.chan.num < 2^31 - 1
  | .pop _, _ => True

instance (op : Op) (h : History) : Decidable (op.InRange h) := by
  cases op <;> dsimp only [Op.InRange] <;> infer_instance

/-! ## the messages in a channel -/

def sliceLen (data : Bytes) : Nat := sliceSize + data.length

lemma length_slice (data : Bytes) : (Channel.slice data).length = sliceLen data := by
  unfold Channel.slice sliceLen
  rw [length_append, length_leBytes]

lemma sum_sliceLen (q : List (Int × Bytes)) :
    (q.map fun m => sliceLen m.2).sum = (q.map fun m => m.2.length).sum + sliceSize * q.length := by
  induction q with
  | nil => rfl
  | cons m q ih =>
    simp only [map_cons, sum_cons, length_cons, Nat.mul_succ]
    rw [ih]
    unfold sliceLen
    omega

/-- the messages `q`, with their addresses, are what `c` holds -/
structure Queued (size maxlen : Nat) (c : Channel) (q : List (Int × Bytes)) : Prop where
  size_eq : c.size = size
  maxlen_eq : c.maxlen = maxlen
  shape : Ring.Shape sliceLen (max size 1 : Nat) c.head c.tail (decide (c.tailTag ≠ c.headTag)) q
  headTag : c.headTag = 0 ∨ c.headTag = 1
  tailTag : c.tailTag = 0 ∨ c.tailTag = 1
  stored : ∀ m ∈ q, load c.mem m.1 (sliceLen m.2) = Channel.slice m.2
  lengths : ∀ m ∈ q, 1 ≤ m.2.length ∧ m.2.length ≤ maxlen ∧ m.2.length ≤ 2^31 - 5
  num : c.num = q.length
  few : q.length < 2^31
  bytes : c.bytes = (q.map fun m => m.2.length).sum

/-- a message that `push` may be called with -/
structure Fits (maxlen : Nat) (c : Channel) (data : Bytes) : Prop where
  pos : 1 ≤ data.length
  le : data.length ≤ maxlen
  short : data.length ≤ 2^31 - 5
  few : c.num < 2^31 - 1

section

variable {size maxlen : Nat} {c : Channel} {q : List (Int × Bytes)}

lemma Queued.make (hmax : maxlen < 2^31) (hmake : Channel.make size maxlen = some c) :
    Queued size maxlen c [] := by
  unfold Channel.make at hmake
  have hlen : int32 maxlen = maxlen := int32_of_lt (by omega) (by omega)
  have hshape : Ring.Shape sliceLen (max size 1 : Nat) 0 0 false [] := .flat le_rfl rfl (by omega)
  by_cases hle : maxlen ≤ size
  · rw [if_pos hle, Option.some.injEq] at hmake
    subst hmake
    exact { size_eq := rfl, maxlen_eq := by dsimp only; exact hlen,
            shape := hshape, headTag := .inl rfl, tailTag := .inl rfl,
              stored := by simp, lengths := by simp, num := rfl,
            few := by simp, bytes := rfl }
  · rw [if_neg hle] at hmake
    cases hmake

section
variable (h : Queued size maxlen c q) (hmem : size + maxlen + sliceSize < 2^63)
include h hmem

lemma Queued.offSize_eq (hpos : 1 ≤ size) : c.offSize = (max size 1 : Nat) := by
  unfold Channel.offSize
  rw [h.size_eq, toSigned_of_lt (by omega)]
  omega

lemma Queued.fill (hle : maxlen ≤ size) {data : Bytes} (hd : Fits maxlen c data) (tail tailTag : Int)
    (happ : ∀ m ∈ q, m.1 + sliceLen m.2 ≤ c.tail ∨ c.tail + sliceLen data ≤ m.1)
    (hshape : Ring.Shape sliceLen (max size 1 : Nat) c.head tail
      (decide (tailTag ≠ c.headTag)) (q ++ [(c.tail, data)]))
    (htag : tailTag = 0 ∨ tailTag = 1) :
    Queued size maxlen ({ c with tail, tailTag }.fill c.tail data) (q ++ [(c.tail, data)]) := by
  obtain ⟨h1, h2, h3, hnum⟩ := hd
  have hlen : ∀ m ∈ q ++ [(c.tail, data)],
      1 ≤ m.2.length ∧ m.2.length ≤ maxlen ∧ m.2.length ≤ 2^31 - 5 := by
    intro m hm
    rcases mem_append.1 hm with hm | hm
    · exact h.lengths m hm
    · rw [mem_singleton.1 hm]
      exact ⟨h1, h2, h3⟩
  have hq := h.num
  have hsum := hshape.sum_lt (M := sliceSize + maxlen) fun m hm => by
    have := (hlen m hm).2.1
    unfold sliceLen
    omega
  rw [sum_sliceLen, map_append, sum_append] at hsum
  have hsum' : (q.map fun m => m.2.length).sum + data.length < 2^64 := by omega
  refine { size_eq := h.size_eq, maxlen_eq := h.maxlen_eq, shape := hshape, headTag := h.headTag,
           tailTag := htag, stored := ?_, lengths := hlen, num := ?_, few := ?_, bytes := ?_ }
  · intro m hm
    show load (store c.mem c.tail (Channel.slice data)) m.1 (sliceLen m.2) = _
    rcases mem_append.1 hm with hm | hm
    · rw [load_store_of_apart (by rw [length_slice]; exact happ m hm)]
      exact h.stored m hm
    · rw [mem_singleton.1 hm, ← length_slice]
      exact load_store _ _ _
  · show int32 (c.num + 1) = _
    rw [length_append, int32_of_lt (by omega) (by omega), hq]
    rfl
  · rw [length_append]
    show q.length + 1 < 2^31
    omega
  · show (c.bytes + data.length) % 2^64 = _
    rw [h.bytes, Nat.mod_eq_of_lt hsum', map_append, sum_append]
    rfl

lemma Queued.push (hle : maxlen ≤ size) {data : Bytes} (hd : Fits maxlen c data) :
    c.push data = some (c, false) ∨
      ∃ c', c.push data = some (c', true) ∧ Queued size maxlen c' (q ++ [(c.tail, data)]) ∧
        ∀ m ∈ q, m.1 + sliceLen m.2 ≤ c.tail ∨ c.tail + sliceLen data ≤ m.1 := by
  have hfill := h.fill hmem hle hd
  obtain ⟨h1, h2, h3, hnum⟩ := hd
  have hmsize : int32 ((sliceSize : Int) + data.length) = sliceLen data := by
    unfold sliceLen sliceSize
    rw [int32_of_lt (by omega) (by omega)]
    omega
  have hb := h.shape.bounds
  unfold Channel.push
  rw [if_pos (by rw [h.maxlen_eq]; omega)]
  simp only [hmsize, h.offSize_eq hmem (by omega)]
  by_cases hfull : c.full = true
  · rw [if_pos hfull]
    exact .inl rfl
  rw [if_neg hfull]
  by_cases hlt : c.tail < c.head
  · rw [if_pos hlt]
    have hw : decide (c.tailTag ≠ c.headTag) = true := by
      by_contra hw
      have := hb.2.2.2.2.2 (Bool.eq_false_iff.2 hw)
      omega
    by_cases hroom : c.head - c.tail < sliceLen data
    · rw [if_pos hroom]
      exact .inl rfl
    · rw [if_neg hroom]
      have happ : ∀ m ∈ q, m.1 + sliceLen m.2 ≤ c.tail ∨ c.tail + sliceLen data ≤ m.1 :=
        fun m hm => h.shape.apart (fun _ => by omega) hm
      have hs := hw ▸ h.shape
      exact .inr ⟨_, rfl, hfill _ _ happ (hw ▸ hs.push_wrapped (by omega)) h.tailTag, happ⟩
  · rw [if_neg hlt]
    -- head and tail at the same place with different tags is a full ring
    have hw : decide (c.tailTag ≠ c.headTag) = false := by
      by_contra hw
      have htag : c.tailTag ≠ c.headTag := by simpa using hw
      have := hb.2.2.2.2.1 (by simpa using htag)
      refine hfull ?_
      unfold Channel.full
      rw [Bool.or_eq_true]
      exact .inl (decide_eq_true ⟨by omega, htag⟩)
    have happ : ∀ m ∈ q, m.1 + sliceLen m.2 ≤ c.tail ∨ c.tail + sliceLen data ≤ m.1 :=
      fun m hm => h.shape.apart (fun ht => Bool.noConfusion (hw.symm.trans ht)) hm
    have hs := hw ▸ h.shape
    have htag : c.tailTag = c.headTag := by simpa using hw
    by_cases hend : ((max size 1 : Nat) : Int) ≤ c.tail + sliceLen data
    · rw [if_pos hend]
      have hflip : decide (1 - c.tailTag ≠ c.headTag) = true := by exact decide_eq_true (by omega)
      exact .inr ⟨_, rfl, hfill _ _ happ (hflip ▸ hs.push_wrap hend) (by have := h.tailTag; omega), happ⟩
    · rw [if_neg hend]
      exact .inr ⟨_, rfl, hfill _ _ happ (hw ▸ hs.push_flat (by omega)) h.tailTag, happ⟩

end

lemma Queued.item {m : Int × Bytes} (h : Queued size maxlen c (m :: q)) :
    c.itemLength = m.2.length ∧ load c.mem (c.head + sliceSize) m.2.length = m.2 := by
  have hhead := h.shape.pop.1
  have hst := h.stored m mem_cons_self
  have hlen := (h.lengths m mem_cons_self).2.2
  unfold sliceLen at hst
  rw [load_append, hhead] at hst
  obtain ⟨h1, h2⟩ := append_inj hst (by simp [load, length_leBytes])
  refine ⟨?_, h2⟩
  unfold Channel.itemLength
  rw [h1, le_leBytes, Nat.mod_eq_of_lt (by unfold sliceSize; omega), toSigned_of_lt (by omega)]

lemma Queued.advance {m : Int × Bytes} (h : Queued size maxlen c (m :: q))
    (hmem : size + maxlen + sliceSize < 2^63) (hle : maxlen ≤ size) :
    Queued size maxlen c.advance q := by
  obtain ⟨hhead, hon, hwrap⟩ := h.shape.pop
  have hlen := h.lengths m mem_cons_self
  have hnum : int32 (c.num - 1) = q.length := by
    have := h.num
    have := h.few
    rw [length_cons] at *
    rw [int32_of_lt (by omega) (by omega)]
    omega
  have hbytes : ((c.bytes - (m.2.length : Int)) % 2^64).toNat = (q.map fun m => m.2.length).sum := by
    have hb := h.bytes
    have hsum := h.shape.sum_lt (M := sliceSize + maxlen) fun x hx => by
      have := (h.lengths x hx).2.1
      unfold sliceLen
      omega
    rw [sum_sliceLen] at hsum
    rw [map_cons, sum_cons] at hb hsum
    omega
  have hnext : c.head + ((m.2.length : Int) + sliceSize) = c.head + sliceLen m.2 := by
    unfold sliceLen
    omega
  have hq : ∀ x ∈ q, x ∈ m :: q := fun x hx => mem_cons_of_mem _ hx
  have hfew : q.length < 2^31 := Nat.lt_of_succ_lt h.few
  unfold Channel.advance
  simp only [h.item.1, h.offSize_eq hmem (by omega), hnext]
  by_cases hend : ((max size 1 : Nat) : Int) ≤ c.head + sliceLen m.2
  · rw [if_pos hend]
    obtain ⟨hw, hs⟩ := hwrap hend
    have htag : c.tailTag ≠ c.headTag := by simpa using hw
    have hflip : decide (c.tailTag ≠ 1 - c.headTag) = false := by
      have h1 := h.headTag
      have h2 := h.tailTag
      exact decide_eq_false (by omega)
    exact { size_eq := h.size_eq, maxlen_eq := h.maxlen_eq, shape := hflip ▸ hs,
            headTag := by have := h.headTag; dsimp only; omega, tailTag := h.tailTag,
            stored := fun x hx => h.stored x (hq x hx),
            lengths := fun x hx => h.lengths x (hq x hx), num := hnum, few := hfew,
            bytes := hbytes }
  · rw [if_neg hend]
    exact { size_eq := h.size_eq, maxlen_eq := h.maxlen_eq, shape := hon (by omega),
            headTag := h.headTag, tailTag := h.tailTag,
            stored := fun x hx => h.stored x (hq x hx),
            lengths := fun x hx => h.lengths x (hq x hx), num := hnum, few := hfew,
            bytes := hbytes }

lemma Queued.pop (h : Queued size maxlen c q) (hmem : size + maxlen + sliceSize < 2^63)
    (hle : maxlen ≤ size) {bufferLength : Int} (hb : maxlen ≤ bufferLength) :
    (q = [] ∧ c.pop bufferLength = some (c, none)) ∨
      ∃ m q', q = m :: q' ∧ c.pop bufferLength = some (c.advance, some m.2) ∧
        Queued size maxlen c.advance q' := by
  unfold Channel.pop Channel.empty
  cases q with
  | nil =>
    have hnum : c.num = 0 := h.num
    rw [if_pos (decide_eq_true hnum)]
    exact .inl ⟨rfl, rfl⟩
  | cons m q =>
    have hnum := h.num
    have hlen := h.lengths m mem_cons_self
    rw [length_cons] at hnum
    rw [if_neg (by rw [decide_eq_true_eq]; omega), h.item.1, if_pos ⟨by omega, by omega⟩,
      Int.toNat_natCast, h.item.2]
    exact .inr ⟨m, q, rfl, rfl, h.advance hmem hle⟩

end

/-! ## whole runs -/

/-- a write inside the memory of the ring that leaves the messages in it alone -/
def Write.Safe (size maxlen : Nat) (w : Write) : Prop :=
  0 ≤ w.region.addr ∧ w.region.addr + w.region.size ≤ (size + maxlen + sliceSize : Nat) ∧
    ∀ r ∈ w.live, r.Apart w.region

/-- the messages `queued` are those between the accepted and the returned ones, `num` and `bytes`
count them, and no write did harm -/
structure History.Fifo (size maxlen : Nat) (h : History) (queued : List Bytes) : Prop where
  order : h.pushed = h.popped ++ queued
  live : h.live.map Region.size = queued.map sliceLen
  num : h.chan.num = queued.length
  bytes : h.chan.bytes = (queued.map length).sum
  writes : ∀ w ∈ h.writes, w.Safe size maxlen

def History.Good (size maxlen : Nat) (h : History) : Prop :=
  ∃ q, Queued size maxlen h.chan q ∧ h.pushed = h.popped ++ q.map (·.2) ∧
    (h.live = q.map fun m => region m.1 m.2) ∧ ∀ w ∈ h.writes, w.Safe size maxlen

section

variable {size maxlen : Nat} {h : History}

lemma History.Good.fifo (hg : h.Good size maxlen) : ∃ queued, h.Fifo size maxlen queued := by
  obtain ⟨q, hq, hp, hl, hw⟩ := hg
  refine ⟨q.map (·.2), hp, ?_, ?_, ?_, hw⟩
  · rw [hl, map_map, map_map]
    rfl
  · rw [hq.num, length_map]
  · rw [hq.bytes, map_map]
    rfl

variable (hg : h.Good size maxlen) (hmem : size + maxlen + sliceSize < 2^63) (hle : maxlen ≤ size)
include hg hmem hle

lemma History.Good.push {data : Bytes} (hd : Fits maxlen h.chan data) :
    ∃ h', h.push data = some h' ∧ h'.Good size maxlen := by
  obtain ⟨q, hq, hp, hl, hw⟩ := hg
  unfold History.push
  rcases hq.push hmem hle hd with he | ⟨c', he, hq', happ⟩
  · rw [he]
    exact ⟨_, rfl, q, hq, hp, hl, hw⟩
  · rw [he]
    refine ⟨_, rfl, q ++ [(h.chan.tail, data)], hq', ?_, ?_, ?_⟩
    · rw [hp, map_append, append_assoc]
      rfl
    · rw [hl, map_append]
      rfl
    · intro w hmem'
      rcases mem_append.1 hmem' with hmem' | hmem'
      · exact hw w hmem'
      · obtain rfl := mem_singleton.1 hmem'
        have hb := hq.shape.bounds
        obtain ⟨h1, h2, _, _⟩ := hd
        refine ⟨hb.2.2.1, ?_, ?_⟩
        · show h.chan.tail + (sliceSize + data.length : Nat) ≤ _
          omega
        · intro r hr
          rw [hl] at hr
          obtain ⟨m, hm, rfl⟩ := mem_map.1 hr
          exact happ m hm

lemma History.Good.pop {bufferLength : Int} (hb : maxlen ≤ bufferLength) :
    ∃ h', h.pop bufferLength = some h' ∧ h'.Good size maxlen := by
  obtain ⟨q, hq, hp, hl, hw⟩ := hg
  unfold History.pop
  rcases hq.pop hmem hle hb with ⟨-, he⟩ | ⟨m, q', rfl, he, hq'⟩
  · rw [he]
    exact ⟨_, rfl, q, hq, hp, hl, hw⟩
  · rw [he]
    refine ⟨_, rfl, q', hq', ?_, ?_, hw⟩
    · rw [hp, append_assoc]
      rfl
    · rw [hl]
      rfl

end

lemma Channel.push_long {c : Channel} (hmake : Channel.make (2^31 - 1) (2^31 - 1) = some c)
    {data : Bytes} (hd : data.length = 2^31 - 1) :
    ∃ c', c.push data = some (c', true) ∧ c'.head = 0 ∧ c'.tail = -2147483645 ∧ c'.num = 1 ∧
      c'.bytes = 2^31 - 1 ∧ c'.size = 2^31 - 1 ∧ c'.maxlen = 2^31 - 1 := by
  rw [Channel.make, if_pos le_rfl, Option.some.injEq] at hmake
  subst hmake
  unfold Channel.push
  rw [hd]
  refine ⟨_, rfl, rfl, rfl, rfl, ?_, rfl, rfl⟩
  show (0 + data.length) % 2^64 = 2^31 - 1
  omega

lemma Channel.push_before {c : Channel} (h1 : c.head = 0) (h2 : c.tail = -2147483645)
    (h3 : c.num = 1) (h4 : c.bytes = 2^31 - 1) (h5 : c.size = 2^31 - 1) (h6 : c.maxlen = 2^31 - 1) :
    ∃ c', c.push [1] = some (c', true) := by
  have hfull : c.full = false := by
    unfold Channel.full
    rw [h1, h2, h3, h4, h5, Bool.or_eq_false_iff]
    exact ⟨decide_eq_false fun h => absurd h.1 (by decide), by decide⟩
  unfold Channel.push
  rw [h6, hfull, h1, h2]
  exact ⟨_, rfl⟩

/-- **Every run of a ring channel is a queue**, and no write meets a message in the ring. -/
theorem channel_fifo {size maxlen : Nat} {c : Channel} (hmax : maxlen < 2^31)
    (hmem : size + maxlen + sliceSize < 2^63) (hmake : Channel.make size maxlen = some c) (ops : List Op)
    (hops : Along History.step (fun op h => op.WellFormed maxlen ∧ op.InRange h) ops (History.start c)) :
    ∃ h queued, (History.start c).run ops = some h ∧ h.Fifo size maxlen queued := by
  have hle : maxlen ≤ size := by
    by_contra hle
    rw [Channel.make, if_neg hle] at hmake
    cases hmake
  have hstart : (History.start c).Good size maxlen := ⟨[], Queued.make hmax hmake, rfl, rfl, nofun⟩
  obtain ⟨h, hrun, hg⟩ := iter_along (J := History.Good size maxlen) (fun op h hop hg => by
    cases op with
    | push data => exact hg.push hmem hle ⟨hop.1.1, hop.1.2, hop.2.1, hop.2.2⟩
    | pop bufferLength => exact hg.pop hmem hle hop.1) ops hops hstart
  obtain ⟨queued, hf⟩ := hg.fifo
  exact ⟨h, queued, hrun, hf⟩

/-- a message of three bytes in a ring of eight bytes, and one behind it that runs past the end -/
theorem channel_fifo_two : ∃ c, Channel.make 8 3 = some c ∧
      ∃ h queued, (History.start c).run [.push [1, 2, 3], .push [4, 5], .pop 3, .push [6]] = some h ∧
        h.Fifo 8 3 queued :=
  ⟨_, rfl, channel_fifo (by decide) (by decide) rfl _ (by decide)⟩

/-- A message of `INT_MAX` bytes in a channel for such messages: the next write is before the memory. -/
theorem channel_long_message : ∃ c, Channel.make (2^31 - 1) (2^31 - 1) = some c ∧
      ∃ h, (History.start c).run [.push (replicate (2^31 - 1) 0), .push [1]] = some h ∧
        ∃ w ∈ h.writes, w.region.addr < 0 := by
  generalize hd : replicate (2^31 - 1) (0 : UInt8) = data
  have hlen : data.length = 2^31 - 1 := by rw [← hd, length_replicate]
  obtain ⟨c, hmake⟩ : ∃ c, Channel.make (2^31 - 1) (2^31 - 1) = some c := by exact ⟨_, rfl⟩
  obtain ⟨c1, he1, h1, h2, h3, h4, h5, h6⟩ := Channel.push_long hmake hlen
  obtain ⟨c2, he2⟩ := Channel.push_before h1 h2 h3 h4 h5 h6
  refine ⟨c, hmake, ?_⟩
  unfold History.run
  simp only [Machine.iter, History.step, History.push, History.start, he1, he2, Option.map_some,
    Option.bind_some, if_true, Option.some.injEq, exists_eq_left']
  refine ⟨_, mem_append_right _ mem_cons_self, ?_⟩
  show c1.tail < 0
  rw [h2]
  decide

end OSW.Core
