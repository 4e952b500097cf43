import OpenSwoole.Lib.Reads
import OpenSwoole.Protocol.WebSocketFrames

/-!
# Encoding, decoding and the length of a WebSocket frame

`mask`, `encode` and the memory accesses of `decode` in `src/protocol/websocket.cc`.  `mask` works
on words of eight bytes, and on single bytes behind the last whole word; the host is
little-endian, as the bit fields of the frame header are.  `decode` is not given the end of the
frame: it derives the length again from the header, `decodeReads` is what it reads for that.

* `mask_eq`, `mask_bytewise`   the word loop masks byte by byte, and in memory only the buffer;
* `decodeReads_within`   `decode` reads and unmasks exactly the frame that the header announces;
* `encode_str`   what `encode` appends, and `isFrame_encode`: it is a frame.
-/

namespace OSW
namespace Websocket

open Reads List Option Function

/-! ## masking -/

def maskWords (maskKey64 : Nat) : Nat → Bytes → Bytes
  | 0, _ => []
  | n + 1, data => leBytes 8 (le (data.take 8) ^^^ maskKey64) ++ maskWords maskKey64 n (data.drop 8)

def mask (data maskKey : Bytes) : Bytes :=
  let n := data.length / 8
  let maskKey64 := le maskKey <<< 32 ||| le maskKey
  maskWords maskKey64 n data ++
    (data.drop (n * 8)).mapIdx fun i b => b ^^^ maskKey.getD ((n * 8 + i) % maskLen) 0

lemma maskBytes_append {key a b : Bytes} (ha : a.length % maskLen = 0) :
    maskBytes key (a ++ b) = maskBytes key a ++ maskBytes key b := by
  unfold maskBytes
  rw [mapIdx_append]
  congr 1
  refine congrArg (fun g => b.mapIdx g) ?_
  funext i x
  rw [Nat.add_mod, ha, add_zero, Nat.mod_mod]

section
variable {key : Bytes} (hk : key.length = maskLen)
include hk

lemma maskKey64_eq : le key <<< 32 ||| le key = le (key ++ key) := by
  have hlt : le key < 2^32 := by
    have := le_lt key
    rwa [hk] at this
  rw [Nat.shiftLeft_eq, mul_comm, ← Nat.two_pow_add_eq_or_of_lt hlt, le_append, hk, add_comm]
  rfl

lemma twice_getElem? {i : Nat} (hi : i < 8) : (key ++ key)[i]? = some (key.getD (i % maskLen) 0) := by
  have hget : ∀ j, j < maskLen → key[j]? = some (key.getD j 0) := by
    intro j hj
    rw [getD_eq_getElem?_getD, getElem?_eq_getElem (by omega), getD_some]
  unfold maskLen at hk hget ⊢
  by_cases h4 : i < 4
  · rw [getElem?_append_left (by omega), Nat.mod_eq_of_lt h4, hget i h4]
  · rw [getElem?_append_right (by omega), hk, hget _ (by omega), show i % 4 = i - 4 by omega]

lemma maskWord_eq {w : Bytes} (hw : w.length = 8) :
    leBytes 8 (le w ^^^ (le key <<< 32 ||| le key)) = maskBytes key w := by
  have hkk : (key ++ key).length = 8 := by
    rw [length_append, hk]
    rfl
  have hlen : (zipWith (· ^^^ ·) w (key ++ key)).length = 8 := by
    rw [length_zipWith, hw, hkk]
    rfl
  rw [maskKey64_eq hk, ← le_xor (hw.trans hkk.symm), ← hlen, leBytes_le]
  refine ext_getElem? fun i => ?_
  unfold maskBytes
  rw [getElem?_zipWith, getElem?_mapIdx]
  by_cases hi : i < 8
  · rw [twice_getElem? hk hi]
    cases w[i]? with
    | none | some b => rfl
  · rw [getElem?_eq_none (by omega : w.length ≤ i)]
    rfl

lemma maskWords_eq (n : Nat) {data : Bytes} (hn : n * 8 ≤ data.length) :
    maskWords (le key <<< 32 ||| le key) n data = maskBytes key (data.take (n * 8)) := by
  induction n generalizing data with
  | zero => rfl
  | succ n ih =>
    have hw : (data.take 8).length = 8 := by
      rw [length_take]
      omega
    have hsplit : data.take ((n + 1) * 8) = data.take 8 ++ (data.drop 8).take (n * 8) := by
      rw [Nat.succ_mul, add_comm, take_add]
    unfold maskWords
    rw [maskWord_eq hk hw, ih (by rw [length_drop]; omega), hsplit,
      @maskBytes_append key _ _ (by rw [hw]; rfl)]

lemma mask_eq (data : Bytes) : mask data key = maskBytes key data := by
  have hn : data.length / 8 * 8 ≤ data.length := Nat.div_mul_le_self _ _
  have hlen : (data.take (data.length / 8 * 8)).length = data.length / 8 * 8 := by
    rw [length_take, min_eq_left hn]
  have hmod : (data.take (data.length / 8 * 8)).length % maskLen = 0 := by
    rw [hlen]
    show data.length / 8 * 8 % 4 = 0
    omega
  have hsplit := @maskBytes_append key _ (data.drop (data.length / 8 * 8)) hmod
  rw [take_append_drop] at hsplit
  unfold mask
  simp only
  rw [maskWords_eq hk _ hn, hsplit]
  congr 1
  refine congrArg (fun g => (data.drop (data.length / 8 * 8)).mapIdx g) ?_
  funext i b
  rw [Nat.add_mod, show data.length / 8 * 8 % maskLen = 0 from by rw [← hlen]; exact hmod, zero_add,
    Nat.mod_mod]

end

/-! ## masking in place

`mask` on the memory of the process: the words and then the bytes of the buffer are replaced one
after the other. -/

section
variable (mem : Nat → UInt8)

def wordAt (p : Nat) : Bytes := (range 8).map fun i => mem (p + i)

def storeWord (p : Nat) (word : Bytes) : Nat → UInt8 := fun j =>
  if p ≤ j ∧ j < p + 8 then word.getD (j - p) 0 else mem j

def maskAt (data len : Nat) (maskKey : Bytes) : Nat → UInt8 :=
  let n := len / 8
  let maskKey64 := le maskKey <<< 32 ||| le maskKey
  let words := (range n).foldl (fun mem i =>
    storeWord mem (data + 8 * i) (leBytes 8 (le (wordAt mem (data + 8 * i)) ^^^ maskKey64))) mem
  (range' (n * 8) (len - n * 8)).foldl (fun mem i =>
    update mem (data + i) (mem (data + i) ^^^ maskKey.getD (i % maskLen) 0)) words

/-- the memory with the first `len` bytes of the buffer masked -/
def maskedTo (data len : Nat) (key : Bytes) : Nat → UInt8 := fun j =>
  if data ≤ j ∧ j < data + len then mem j ^^^ key.getD ((j - data) % maskLen) 0 else mem j

end

section
variable (mem : Nat → UInt8) (data : Nat) {key : Bytes}

lemma maskedTo_zero : maskedTo mem data 0 key = mem := funext fun _ => if_neg (by omega)

lemma maskedTo_word (hk : key.length = maskLen) (k : Nat) : let m := maskedTo mem data (8 * k) key
    storeWord m (data + 8 * k) (leBytes 8 (le (wordAt m (data + 8 * k)) ^^^ (le key <<< 32 ||| le key))) =
      maskedTo mem data (8 * (k + 1)) key := by
  intro m
  have hm : ∀ j, data + 8 * k ≤ j → m j = mem j := fun j hj => if_neg (by omega)
  have hword : (wordAt m (data + 8 * k)).length = 8 := rfl
  rw [maskWord_eq hk hword]
  funext j
  unfold storeWord
  by_cases hj : data + 8 * k ≤ j ∧ j < data + 8 * k + 8
  · obtain ⟨i, rfl⟩ := Nat.exists_eq_add_of_le hj.1
    have hi : i < 8 := by omega
    rw [if_pos hj, maskedTo, if_pos (by omega), getD_eq_getElem?_getD, maskBytes, getElem?_mapIdx, wordAt,
      getElem?_map, Nat.add_sub_cancel_left, getElem?_range hi]
    show m (data + 8 * k + i) ^^^ _ = _
    rw [hm _ hj.1, show (data + 8 * k + i - data) % maskLen = i % maskLen by unfold maskLen; omega]
  · rw [if_neg hj]
    refine ite_congr (propext (by omega)) (fun _ => rfl) fun _ => rfl

lemma maskedTo_byte (k : Nat) : update (maskedTo mem data k key) (data + k)
        (maskedTo mem data k key (data + k) ^^^ key.getD (k % maskLen) 0) =
      maskedTo mem data (k + 1) key := by
  funext j
  by_cases hj : j = data + k
  · subst hj
    rw [update_self, maskedTo, maskedTo, if_neg (by omega), if_pos (by omega), Nat.add_sub_cancel_left]
  · rw [update_of_ne hj]
    exact ite_congr (propext (by omega)) (fun _ => rfl) fun _ => rfl

lemma maskAt_eq (hk : key.length = maskLen) (len : Nat) :
    maskAt mem data len key = maskedTo mem data len key := by
  have hwords : ∀ n, (range n).foldl (fun mem i => storeWord mem (data + 8 * i)
      (leBytes 8 (le (wordAt mem (data + 8 * i)) ^^^ (le key <<< 32 ||| le key)))) mem =
      maskedTo mem data (8 * n) key := by
    intro n
    induction n with
    | zero => exact (maskedTo_zero mem data).symm
    | succ n ih => rw [range_succ, foldl_concat, ih, maskedTo_word mem data hk]
  have hbytes : ∀ a n, (range' a n).foldl (fun mem i =>
      update mem (data + i) (mem (data + i) ^^^ key.getD (i % maskLen) 0))
      (maskedTo mem data a key) = maskedTo mem data (a + n) key := by
    intro a n
    induction n with
    | zero => rfl
    | succ n ih => rw [range'_concat, foldl_concat, ih, Nat.one_mul, maskedTo_byte]; rfl
  simp only [maskAt]
  rw [hwords, Nat.mul_comm 8, hbytes, Nat.add_sub_cancel' (Nat.div_mul_le_self len 8)]

/-- For every buffer and every key the routine masks byte `i` with key byte `i mod 4`, changes
nothing outside the buffer, and applied twice restores the memory. -/
theorem mask_bytewise (hk : key.length = maskLen) (len : Nat) :
    (∀ i < len, maskAt mem data len key (data + i) = mem (data + i) ^^^ key.getD (i % 4) 0) ∧
      (∀ j, ¬ (data ≤ j ∧ j < data + len) → maskAt mem data len key j = mem j) ∧
      maskAt (maskAt mem data len key) data len key = mem := by
  rw [maskAt_eq _ _ hk, maskAt_eq _ _ hk]
  refine ⟨fun i hi => ?_, fun j hj => if_neg hj, funext fun j => ?_⟩
  · rw [maskedTo, if_pos (by omega), Nat.add_sub_cancel_left]
    rfl
  · unfold maskedTo
    by_cases hj : data ≤ j ∧ j < data + len
    · rw [if_pos hj, if_pos hj, UInt8.xor_assoc, UInt8.xor_self, UInt8.xor_zero]
    · rw [if_neg hj, if_neg hj]

theorem mask_bytewise_thirteen : maskAt (fun j => UInt8.ofNat j) 3 13 [1, 2, 3, 4] 15 = 15 ^^^ 1 ∧
      maskAt (maskAt (fun j => UInt8.ofNat j) 3 13 [1, 2, 3, 4]) 3 13 [1, 2, 3, 4] =
        fun j => UInt8.ofNat j :=
  have h := @mask_bytewise (fun j => UInt8.ofNat j) 3 [1, 2, 3, 4] rfl 13
  ⟨h.1 12 (by decide), h.2.2⟩

end

/-! ## what `decode` reads -/

/-- the fields of a `Frame` after `decode`; `payload` is an offset, `none` the null pointer, and
`unmasked` what `mask` has written there -/
structure Frame where
  header : Header
  headerLength : Nat
  payloadLength : Nat
  payload : Option Nat
  unmasked : Bytes

def readLength (b : Nat) : Reads UInt8 Nat :=
  if b % 128 = 0x7e then do
    let ext ← take headerLen 2
    pure (be ext)
  else if 0x7e < b % 128 then do
    let ext ← take headerLen 8
    pure (be ext)
  else pure (b % 128)

/-- `decode`, with the data at offset 0 -/
def decodeReads : Reads UInt8 Frame := do
  let b0 ← get 0
  let b1 ← get 1
  let header := Header.ofBytes b0.toNat b1.toNat
  let payloadLength ← readLength b1.toNat
  let headerLength := headerLen + extLen b1.toNat
  if payloadLength = 0 then pure ⟨header, headerLength, 0, none, []⟩
  else if header.mask then do
    let maskKey ← take headerLength maskLen
    let data ← take (headerLength + maskLen) payloadLength
    pure ⟨header, headerLength + maskLen, payloadLength, some (headerLength + maskLen), mask data maskKey⟩
  else pure ⟨header, headerLength, payloadLength, some headerLength, []⟩

def Frame.written (f : Frame) (data : Bytes) : Bytes :=
  match f.payload with
  | none => data
  | some o => if f.header.mask then data.take o ++ (f.unmasked ++ data.drop (o + f.payloadLength)) else data

section
variable {buf : Bytes} {n : Nat} (rest : Nat → UInt8)

lemma readLength_within (b : Nat) (m : Nat → UInt8) : Within m (headerLen + extLen b) (readLength b) := by
  unfold readLength extLen ext16Length ext64Length
  by_cases h16 : b % 128 = 0x7e
  · rw [if_pos h16, if_pos h16]
    simp only [within_bind, within_take, within_pure, and_true, le_refl]
  · rw [if_neg h16, if_neg h16]
    by_cases h64 : b % 128 = 0x7f
    · rw [if_pos h64, if_pos (by omega)]
      simp only [within_bind, within_take, within_pure, and_true, le_refl]
    · rw [if_neg h64, if_neg (by omega)]
      exact within_pure _

lemma readLength_memory {b : Nat} (hb : headerLen + extLen b ≤ buf.length) :
    value (readLength b) (memory buf rest) = payloadSize b buf := by
  unfold readLength payloadSize
  by_cases h16 : b % 128 = 0x7e
  · have he : extLen b = 2 := if_pos h16
    rw [he] at hb ⊢
    rw [if_pos h16, if_neg (by decide), value_bind, take_memory _ _ hb]
    rfl
  · by_cases h64 : b % 128 = 0x7f
    · have he : extLen b = 8 := by
        unfold extLen ext16Length ext64Length
        rw [if_neg h16, if_pos h64]
      rw [he] at hb ⊢
      rw [if_neg h16, if_pos (by omega), if_neg (by decide), value_bind, take_memory _ _ hb]
      rfl
    · have he : extLen b = 0 := by
        unfold extLen ext16Length ext64Length
        rw [if_neg h16, if_neg h64]
      rw [if_neg h16, if_neg (by omega), if_pos he]
      rfl

lemma decodeReads_cases (m : Nat → UInt8) {bound : Nat} {header : Header} {headerLength : Nat}
    (hheader : Header.ofBytes (m 0).toNat (m 1).toNat = header)
    (hlength : headerLen + extLen (m 1).toNat = headerLength)
    (hpayload : value (readLength (m 1).toNat) m = n) (hbound : headerLength ≤ bound) :
    (n = 0 → Within m bound decodeReads ∧ value decodeReads m = ⟨header, headerLength, 0, none, []⟩) ∧
    (n ≠ 0 → header.mask = false → Within m bound decodeReads ∧
      value decodeReads m = ⟨header, headerLength, n, some headerLength, []⟩) ∧
    (n ≠ 0 → header.mask = true → headerLength + maskLen + n ≤ bound → Within m bound decodeReads ∧
      value decodeReads m = ⟨header, headerLength + maskLen, n, some (headerLength + maskLen),
        mask (value (take (headerLength + maskLen) n) m) (value (take headerLength maskLen) m)⟩) := by
  have hread : Within m bound (readLength (m 1).toNat) := by
    intro r hr
    have := readLength_within (m 1).toNat m r hr
    unfold Span.Below at this ⊢
    omega
  have h2 : 2 ≤ bound := by
    unfold headerLen at hlength
    omega
  refine ⟨fun hn => ?_, fun hn hm => ?_, fun hn hm hle => ?_⟩
  · unfold decodeReads
    simp only [within_bind, within_get, value_bind, value_get, hpayload, hheader, hlength, if_pos hn, hread,
      within_pure, value_pure, and_true]
    omega
  · unfold decodeReads
    simp only [within_bind, within_get, value_bind, value_get, hpayload, hheader, hlength, if_neg hn, hm,
      Bool.false_eq_true, if_false, hread, within_pure, value_pure, and_true]
    omega
  · unfold decodeReads
    simp only [within_bind, within_get, within_take, value_bind, value_get, hpayload,
      hheader, hlength, if_neg hn, hm, if_true, hread, within_pure, value_pure, and_true, true_and]
    omega

lemma memory_head (h : frameLen buf = some n) :
    memory buf rest 0 = buf.getD 0 0 ∧ memory buf rest 1 = buf.getD 1 0 ∧
      value (readLength (memory buf rest 1).toNat) (memory buf rest) = payloadSize (buf.getD 1 0).toNat buf := by
  obtain ⟨h2, hh, -⟩ := frameLen_eq_some h
  unfold headerSize at hh
  unfold headerLen at h2
  have h1 : memory buf rest 1 = buf.getD 1 0 := memory_eq_getD _ _ (by omega) 0
  refine ⟨memory_eq_getD _ _ (by omega) 0, h1, ?_⟩
  rw [h1]
  exact readLength_memory rest (by omega)

def headerAt (buf : Bytes) : Header := Header.ofBytes (buf.getD 0 0).toNat (buf.getD 1 0).toNat

lemma headerSize_eq (buf : Bytes) : headerSize (buf.getD 1 0).toNat =
    headerLen + extLen (buf.getD 1 0).toNat + if (headerAt buf).mask then maskLen else 0 := by
  unfold headerSize headerAt Header.ofBytes
  simp only [decide_eq_true_eq]

lemma decodeReads_frame (h : frameLen buf = some n) :
    (payloadSize (buf.getD 1 0).toNat buf = 0 → Within (memory buf rest) n decodeReads ∧
      value decodeReads (memory buf rest) = ⟨headerAt buf,
        headerLen + extLen (buf.getD 1 0).toNat, 0, none, []⟩) ∧
    (payloadSize (buf.getD 1 0).toNat buf ≠ 0 → (headerAt buf).mask = false →
      Within (memory buf rest) n decodeReads ∧
      value decodeReads (memory buf rest) = ⟨headerAt buf, headerSize (buf.getD 1 0).toNat,
        payloadSize (buf.getD 1 0).toNat buf, some (headerSize (buf.getD 1 0).toNat), []⟩) ∧
    (payloadSize (buf.getD 1 0).toNat buf ≠ 0 → (headerAt buf).mask = true →
      Within (memory buf rest) n decodeReads ∧
      value decodeReads (memory buf rest) = ⟨headerAt buf, headerSize (buf.getD 1 0).toNat,
        payloadSize (buf.getD 1 0).toNat buf, some (headerSize (buf.getD 1 0).toNat),
        mask (value (take (headerSize (buf.getD 1 0).toNat) (payloadSize (buf.getD 1 0).toNat buf))
          (memory buf rest))
          (value (take (headerLen + extLen (buf.getD 1 0).toNat) maskLen) (memory buf rest))⟩) := by
  obtain ⟨h0, h1, hpayload⟩ := memory_head rest h
  obtain ⟨-, -, rfl⟩ := frameLen_eq_some h
  have hsize := headerSize_eq buf
  obtain ⟨hempty, hplain, hmasked⟩ := @decodeReads_cases _ (memory buf rest)
    (headerSize (buf.getD 1 0).toNat + payloadSize (buf.getD 1 0).toNat buf) (headerAt buf) _
    (congrArg₂ (fun a b : UInt8 => Header.ofBytes a.toNat b.toNat) h0 h1)
    (congrArg (fun b : UInt8 => headerLen + extLen b.toNat) h1) hpayload (by omega)
  refine ⟨hempty, fun hn hm => ?_, fun hn hm => ?_⟩
  · rw [hm] at hsize
    rw [hsize] at hplain ⊢
    exact hplain hn hm
  · rw [hm] at hsize
    rw [hsize] at hmasked ⊢
    exact hmasked hn hm le_rfl

lemma decodeReads_within (h : frameLen buf = some n) : Within (memory buf rest) n decodeReads ∧
      ∀ o, (value decodeReads (memory buf rest)).payload = some o →
        o + (value decodeReads (memory buf rest)).payloadLength = n := by
  obtain ⟨hempty, hplain, hmasked⟩ := decodeReads_frame rest h
  obtain ⟨-, -, rfl⟩ := frameLen_eq_some h
  by_cases hn : payloadSize (buf.getD 1 0).toNat buf = 0
  · obtain ⟨hw, hv⟩ := hempty hn
    rw [hv]
    exact ⟨hw, nofun⟩
  cases hm : (headerAt buf).mask with
  | false =>
    obtain ⟨hw, hv⟩ := hplain hn hm
    rw [hv]
    exact ⟨hw, fun o ho => by rw [← some.inj ho]⟩
  | true =>
    obtain ⟨hw, hv⟩ := hmasked hn hm
    rw [hv]
    exact ⟨hw, fun o ho => by rw [← some.inj ho]⟩

theorem decode_reads (h : frameLen buf = some n) (hn : n ≤ buf.length) :
    decode buf = some ((value decodeReads (memory buf rest)).header,
      (value decodeReads (memory buf rest)).payloadLength,
      (value decodeReads (memory buf rest)).written buf) := by
  obtain ⟨hempty, hplain, hmasked⟩ := decodeReads_frame rest h
  obtain ⟨-, hhead, rfl⟩ := frameLen_eq_some h
  have hsize := headerSize_eq buf
  have hheader : Header.ofBytes (buf.getD 0 0).toNat (buf.getD 1 0).toNat = headerAt buf := rfl
  unfold decode
  simp only [hheader]
  rw [if_neg (by omega)]
  by_cases hz : payloadSize (buf.getD 1 0).toNat buf = 0
  · rw [if_pos hz, (hempty hz).2]
    rfl
  rw [if_neg hz]
  cases hm : (headerAt buf).mask with
  | false =>
    rw [if_neg Bool.false_ne_true, if_neg (by omega), (hplain hz hm).2]
    unfold Frame.written
    simp only [hm, Bool.false_eq_true, if_false]
  | true =>
    rw [hm, if_pos rfl] at hsize
    have hkey : ((buf.drop (headerLen + extLen (buf.getD 1 0).toNat)).take maskLen).length = maskLen := by
      rw [length_take, length_drop]
      omega
    rw [if_pos rfl, if_neg (by omega), (hmasked hz hm).2]
    unfold Frame.written
    simp only [hm, if_true]
    rw [take_memory _ _ (by omega), take_memory _ _ (by omega), mask_eq hkey, hsize]

end

theorem decode_reads_masked : decode [129, 130, 1, 2, 3, 4, 5, 6] =
    some ((value decodeReads (memory [129, 130, 1, 2, 3, 4, 5, 6] fun _ => 0)).header, 2,
      [129, 130, 1, 2, 3, 4, 4, 4]) :=
  decode_reads (fun _ => 0) (show frameLen [129, 130, 1, 2, 3, 4, 5, 6] = some 8 from rfl) (by decide)

/-! ## the length of a frame -/

/-- `get_package_length` as it is called: the parameter `length` is a `uint32_t` -/
def packageLength (buf : Bytes) : Int := (getPackageLength (buf.take (buf.length % 2^32))).1

lemma two_le_headerSize (b : Nat) : 2 ≤ headerSize b := by
  unfold headerSize headerLen
  omega

lemma payloadSize_lt (b : Nat) (buf : Bytes) : payloadSize b buf < 2^64 := by
  unfold payloadSize
  split
  · omega
  · have hext : extLen b ≤ 8 := by
      unfold extLen
      split
      · decide
      · split <;> decide
    have hlt := be_take_lt (buf.drop headerLen) (extLen b)
    have hle := Nat.pow_le_pow_right (show 0 < 256 by decide) hext
    exact lt_of_lt_of_le hlt hle

lemma frameLen_take {buf : Bytes} {k : Nat} (hk : k ≤ buf.length) :
    frameLen (buf.take k) = if headerSize (buf.getD 1 0).toNat ≤ k then
      some (headerSize (buf.getD 1 0).toNat + payloadSize (buf.getD 1 0).toNat buf) else none := by
  have hlen : (buf.take k).length = k := by rw [length_take, min_eq_left hk]
  have h2 := two_le_headerSize (buf.getD 1 0).toNat
  cases hf : frameLen (buf.take k) with
  | none =>
    rw [if_neg]
    intro hle
    have hb : (buf.take k).getD 1 0 = buf.getD 1 0 := by
      rw [getD_eq_getElem?_getD, getD_eq_getElem?_getD, getElem?_take_of_lt (by omega)]
    unfold frameLen at hf
    simp only [hb] at hf
    rw [if_neg (by unfold headerLen; omega)] at hf
    cases hf
  | some n =>
    have hstable := frameLen_stable _ (buf.drop k) _ hf
    rw [take_append_drop] at hstable
    obtain ⟨h2', hh, -⟩ := frameLen_eq_some hf
    obtain ⟨-, -, rfl⟩ := frameLen_eq_some hstable
    have hb : (buf.take k).getD 1 0 = buf.getD 1 0 := by
      unfold headerLen at h2'
      rw [getD_eq_getElem?_getD, getD_eq_getElem?_getD, getElem?_take_of_lt (by omega)]
    rw [hb, hlen] at hh
    rw [if_pos hh]

lemma getPackageLength_frameLen (buf : Bytes) :
    (getPackageLength buf).1 = (frameLen buf).elim 0 (fun n => toSigned 64 n) := by
  rw [getPackageLength_fst]
  unfold frameLen
  simp only
  split <;> rfl

lemma getPackageLength_take {buf : Bytes} {k : Nat} (hk : k ≤ buf.length) :
    (getPackageLength (buf.take k)).1 = if headerSize (buf.getD 1 0).toNat ≤ k then
      toSigned 64 (headerSize (buf.getD 1 0).toNat + payloadSize (buf.getD 1 0).toNat buf) else 0 := by
  rw [getPackageLength_frameLen, frameLen_take hk]
  split <;> rfl

/-- **Lengths are exact and decoding stays inside the frame**, exactly if the length of the frame is at most
`2^64`. -/
theorem lengths_exact_iff (buf : Bytes) (rest : Nat → UInt8) (packageMaxLength : Nat) :
    (∀ L : Nat, packageLength buf = L → 0 < L →
      L = headerSize (buf.getD 1 0).toNat + payloadSize (buf.getD 1 0).toNat buf ∧
      (L ≤ packageMaxLength → L ≤ buf.length → Within (memory buf rest) L decodeReads ∧
        ∀ o, (value decodeReads (memory buf rest)).payload = some o →
          o + (value decodeReads (memory buf rest)).payloadLength ≤ L)) ↔
    (headerSize (buf.getD 1 0).toNat ≤ buf.length % 2^32 →
      headerSize (buf.getD 1 0).toNat + payloadSize (buf.getD 1 0).toNat buf ≤ 2^64) := by
  have hk : buf.length % 2^32 ≤ buf.length := Nat.mod_le _ _
  have hlen : packageLength buf = _ := getPackageLength_take hk
  have hframe := frameLen_take hk
  have hpay := payloadSize_lt (buf.getD 1 0).toNat buf
  generalize hn : headerSize (buf.getD 1 0).toNat + payloadSize (buf.getD 1 0).toNat buf = n at *
  by_cases hh : headerSize (buf.getD 1 0).toNat ≤ buf.length % 2^32
  · rw [if_pos hh] at hlen hframe
    constructor
    · intro hall _
      by_contra hgt
      -- the sum is cut to the few bytes behind `2^64`
      have hcut : toSigned 64 n = ((n - 2^64 : Nat) : Int) := by
        unfold toSigned
        omega
      have := (hall (n - 2^64) (hlen.trans hcut) (by omega)).1
      omega
    · intro hle L hL hpos
      have hexact : L = n := by
        rw [hlen] at hL
        unfold toSigned at hL
        split at hL <;> omega
      subst hexact
      have hbuf : frameLen buf = some L := by
        have := frameLen_stable _ (buf.drop (buf.length % 2^32)) _ hframe
        rwa [take_append_drop] at this
      obtain ⟨hw, hs⟩ := decodeReads_within rest hbuf
      exact ⟨rfl, fun _ _ => ⟨hw, fun o ho => le_of_eq (hs o ho)⟩⟩
  · refine ⟨fun _ h => absurd h hh, fun _ L hL hpos => ?_⟩
    omega

/-- an unmasked frame that announces `2^64 - 1` bytes has nine of them: its length field ends behind
them -/
theorem lengths_exact_wraps : packageLength (0x82 :: 127 :: replicate 8 255) = 9 ∧
    (9 : Nat) ≠ headerSize 127 + payloadSize 127 (0x82 :: 127 :: replicate 8 255) ∧
    ¬ Within (memory (0x82 :: 127 :: replicate 8 255) fun _ => 0) 9 decodeReads := by
  decide

/-! ## encoding -/

def hasFlag (flags : UInt8) (bit : Nat) : Bool := flags.toNat.testBit bit

/-- `FLAG_FIN`, `FLAG_RSV1`, `FLAG_MASK` and `FLAG_ENCODE_HEADER_ONLY` are `1 << bit` -/
def flagFin : Nat := 0
def flagRsv1 : Nat := 2
def flagMask : Nat := 5
def flagEncodeHeaderOnly : Nat := 6

def maskData : Bytes := [50, 53, 56, 69]

/-- the bytes `frame_header` of `encode`; `OPCODE` has four bits -/
def frameHeader (length opcode : Nat) (flags : UInt8) : Bytes :=
  let b0 := opcode % 16 + 64 * (hasFlag flags flagRsv1).toNat + 128 * (hasFlag flags flagFin).toNat
  let b1 := 128 * (hasFlag flags flagMask).toNat
  if length < 126 then [UInt8.ofNat b0, UInt8.ofNat (length + b1)]
  else if length < 65536 then UInt8.ofNat b0 :: UInt8.ofNat (ext16Length + b1) :: beBytes 2 length
  else UInt8.ofNat b0 :: UInt8.ofNat (ext64Length + b1) :: beBytes 8 length

def encode (buffer : OswString) (data : Bytes) (opcode : Nat) (flags : UInt8) : Bool × OswString :=
  let buffer := buffer.appendBytes (frameHeader data.length opcode flags)
  if hasFlag flags flagMask then
    let buffer := buffer.appendBytes maskData
    if hasFlag flags flagEncodeHeaderOnly then (false, buffer)
    else if 0 < data.length then
      let offset := buffer.length
      let buffer := buffer.appendBytes data
      -- masked in place
      (true, { buffer with str := buffer.str.take offset ++ mask (buffer.str.drop offset) maskData })
    else (true, buffer)
  else if 0 < data.length ∧ hasFlag flags flagEncodeHeaderOnly = false then (true, buffer.appendBytes data)
  else (true, buffer)

def frameBody (data : Bytes) (flags : UInt8) : Bytes :=
  (if hasFlag flags flagMask then maskData else []) ++ if hasFlag flags flagEncodeHeaderOnly then []
    else if hasFlag flags flagMask then maskBytes maskData data else data

section
variable {b : OswString}

variable (hb : b.length ≤ b.size) (data : Bytes)
include hb data

lemma appendBytes_str : (b.appendBytes data).str = b.str ++ data := by
  unfold OswString.appendBytes
  split
  · unfold OswString.reserve
    split
    · have hnil : b.str = [] := length_eq_zero_iff.1 (show b.length = 0 by omega)
      rw [hnil]
      rfl
    · rfl
  · rfl

lemma appendBytes_fits : (b.appendBytes data).length ≤ (b.appendBytes data).size := by
  have hlen : (b.appendBytes data).length = b.length + data.length := by
    show (b.appendBytes data).str.length = _
    rw [appendBytes_str hb, length_append]
    rfl
  have hsize : b.length + data.length ≤ (b.appendBytes data).size := by
    unfold OswString.appendBytes
    split
    · unfold OswString.reserve
      split
      · exact le_memAlignedSize _
      · exact le_memAlignedSize _
    · show _ ≤ b.size
      omega
  omega

lemma encode_str (opcode : Nat) (flags : UInt8) : (encode b data opcode flags).2.str =
      b.str ++ (frameHeader data.length opcode flags ++ frameBody data flags) := by
  have hh := appendBytes_str hb (frameHeader data.length opcode flags)
  have hhfit := appendBytes_fits hb (frameHeader data.length opcode flags)
  have hm := appendBytes_str hhfit maskData
  have hmfit := appendBytes_fits hhfit maskData
  have hnil : ∀ h : ¬ 0 < data.length, data = [] := fun h => length_eq_zero_iff.1 (by omega)
  unfold encode frameBody
  cases hmask : hasFlag flags flagMask with
  | true =>
    cases honly : hasFlag flags flagEncodeHeaderOnly with
    | true =>
      simp only [if_true]
      rw [hm, hh, append_nil, append_assoc]
    | false =>
      simp only [Bool.false_eq_true, if_true, if_false]
      split
      · have hd := appendBytes_str hmfit data
        rw [hd, OswString.length, take_left, drop_left, mask_eq rfl, hm, hh]
        simp only [append_assoc]
      · rename_i hz
        rw [hm, hh, hnil hz]
        simp only [append_assoc]
        rfl
  | false =>
    cases honly : hasFlag flags flagEncodeHeaderOnly with
    | true =>
      simp only [Bool.false_eq_true, Bool.true_eq_false, and_false, if_true, if_false]
      rw [hh, append_nil, append_nil]
    | false =>
      simp only [Bool.false_eq_true, and_true, if_false, nil_append]
      split
      · rw [appendBytes_str hhfit, hh, append_assoc]
      · rename_i hz
        rw [hh, hnil hz, append_nil]

end

/-- the frame that `encode` appends -/
def wireFrame (data : Bytes) (opcode : Nat) (flags : UInt8) : WireFrame where
  opcode := .ofCode (opcode % 16)
  rsv3 := false
  rsv2 := false
  rsv1 := hasFlag flags flagRsv1
  fin := hasFlag flags flagFin
  key := if hasFlag flags flagMask then some maskData else none
  payload := data

lemma code_ofCode (n : Nat) : (Opcode.ofCode n).code = n := by
  unfold Opcode.ofCode
  split <;> rfl

section
variable (data : Bytes) (opcode : Nat) (flags : UInt8)

lemma isSome_key : (wireFrame data opcode flags).key.isSome = hasFlag flags flagMask := by
  unfold wireFrame
  cases hasFlag flags flagMask <;> rfl

lemma byte0_wireFrame : (wireFrame data opcode flags).byte0 =
    opcode % 16 + 64 * (hasFlag flags flagRsv1).toNat + 128 * (hasFlag flags flagFin).toNat := by
  unfold WireFrame.byte0 wireFrame
  simp only [code_ofCode, Bool.toNat_false, Nat.mul_zero, add_zero]

lemma frameBody_eq (honly : hasFlag flags flagEncodeHeaderOnly = false) :
    frameBody data flags = (wireFrame data opcode flags).key.getD [] ++
      (wireFrame data opcode flags).masked := by
  unfold frameBody WireFrame.masked wireFrame
  rw [honly]
  cases hasFlag flags flagMask <;> rfl

lemma frameHeader_eq (hlen : data.length < 2^64) :
    ∃ l ext, IsLength data.length l ext ∧ frameHeader data.length opcode flags =
      UInt8.ofNat (wireFrame data opcode flags).byte0 ::
        UInt8.ofNat (l + 128 * (wireFrame data opcode flags).key.isSome.toNat) :: ext := by
  rw [byte0_wireFrame, isSome_key]
  unfold frameHeader
  split
  · exact ⟨data.length, [], .inl ⟨rfl, by assumption, rfl⟩, rfl⟩
  split
  · refine ⟨_, _, .inr (.inl ⟨rfl, by omega, length_beBytes _ _, ?_⟩), rfl⟩
    rw [be_beBytes]
    exact Nat.mod_eq_of_lt (by omega)
  · refine ⟨_, _, .inr (.inr ⟨rfl, by omega, length_beBytes _ _, ?_⟩), rfl⟩
    rw [be_beBytes]
    exact Nat.mod_eq_of_lt hlen

lemma isFrame_encode (honly : hasFlag flags flagEncodeHeaderOnly = false) (hlen : data.length < 2^64) :
    IsFrame (wireFrame data opcode flags) (frameHeader data.length opcode flags ++ frameBody data flags) := by
  obtain ⟨l, ext, hl, he⟩ := frameHeader_eq data opcode flags hlen
  have hcode : (wireFrame data opcode flags).opcode.code = opcode % 16 := code_ofCode _
  refine ⟨?_, ?_, ?_, l, ext, hl, ?_⟩
  · rw [hcode]
    exact Nat.mod_lt _ (by decide)
  · rw [hcode]
    rfl
  · intro key hkey
    unfold wireFrame at hkey
    revert hkey
    cases hasFlag flags flagMask with
    | true =>
      intro hkey
      cases hkey
      rfl
    | false => exact nofun
  · rw [he, frameBody_eq data opcode flags honly]
    rfl

end

lemma IsFrame.frameLen {f : WireFrame} {data : Bytes} (h : IsFrame f data) :
    data.length = headerSize (data.getD 1 0).toNat + payloadSize (data.getD 1 0).toNat data := by
  obtain ⟨hcode, hop, hkey, l, ext, hlen, rfl⟩ := h
  have hhead := hasHead_frame hcode hop hlen (f.key.getD [] ++ f.masked)
  rw [cons_append, cons_append] at hhead
  rw [headerSize_eq, headerAt, hhead.header, hhead.length, hhead.payload]
  have hmask : f.header.mask = f.key.isSome := rfl
  have hmlen : f.masked.length = f.payload.length := by
    unfold WireFrame.masked
    split
    · rfl
    · exact maskBytes_length _ _
  rw [hmask]
  cases hk : f.key with
  | none =>
    simp only [length_cons, length_append, hmlen, getD_none, length_nil, isSome_none,
      Bool.false_eq_true, if_false]
    omega
  | some key =>
    have := hkey key (by rw [hk]; rfl)
    simp only [length_cons, length_append, getD_some, isSome_some, if_true]
    omega

/-- **`encode` and `decode` are inverse**, and no proper prefix of a frame is reported complete. -/
theorem encode_decode (b : OswString) (hb : b.length ≤ b.size) (data : Bytes) (opcode : Nat) (hop : opcode < 16)
    (flags : UInt8) (honly : hasFlag flags flagEncodeHeaderOnly = false)
    (hobj : (frameHeader data.length opcode flags ++ frameBody data flags).length < 2^63) :
    ∃ frame, (encode b data opcode flags).2.str = b.str ++ frame ∧
      (packageLength frame = frame.length ↔ headerSize (frame.getD 1 0).toNat ≤ frame.length % 2^32) ∧
      (∀ k < frame.length, ¬ (0 < packageLength (frame.take k) ∧ packageLength (frame.take k) ≤ k)) ∧
      ∃ data', decode frame = some (⟨.ofCode opcode, false, false, hasFlag flags flagRsv1, hasFlag flags flagFin,
          hasFlag flags flagMask⟩, data.length, data') ∧ data'.drop (frame.length - data.length) = data := by
  have hdata : data.length < 2^64 := by
    have hle : data.length ≤ (frameHeader data.length opcode flags ++ frameBody data flags).length := by
      unfold frameBody
      rw [honly]
      simp only [length_append, Bool.false_eq_true, if_false]
      cases hasFlag flags flagMask with
      | true => simp only [if_true, maskBytes_length]; omega
      | false => simp only [Bool.false_eq_true, if_false]; omega
    omega
  have hframe := isFrame_encode data opcode flags honly hdata
  have hstr := encode_str hb data opcode flags
  generalize frameHeader data.length opcode flags ++ frameBody data flags = frame at *
  have hlen := hframe.frameLen
  have hcut : ∀ k ≤ frame.length, packageLength (frame.take k) =
      if headerSize (frame.getD 1 0).toNat ≤ k % 2^32 then (frame.length : Int) else 0 := by
    intro k hk
    have hmod := Nat.mod_le k (2^32)
    unfold packageLength
    rw [length_take, min_eq_left hk, take_take, min_eq_left hmod,
      getPackageLength_take (by omega), ← hlen, toSigned_of_lt hobj]
  refine ⟨frame, hstr, ?_, fun k hk => ?_, ?_⟩
  · have hself := hcut frame.length le_rfl
    rw [take_length] at hself
    rw [hself]
    split
    · simp only [true_iff]
      assumption
    · constructor
      · omega
      · intro h0
        contradiction
  · rw [hcut k (le_of_lt hk)]
    split <;> omega
  · obtain ⟨n, data', hd, hn, -, hdrop, -⟩ := decode_frame hframe
    have hheader : (wireFrame data opcode flags).header = ⟨.ofCode opcode, false, false, hasFlag flags flagRsv1,
        hasFlag flags flagFin, hasFlag flags flagMask⟩ := by
      unfold WireFrame.header
      rw [isSome_key]
      unfold wireFrame
      rw [Nat.mod_eq_of_lt hop]
    have hpayload : (wireFrame data opcode flags).payload = data := rfl
    rw [hheader] at hd
    rw [hpayload] at hn hdrop
    refine ⟨data', hd, ?_⟩
    rw [show frame.length - data.length = n by omega]
    exact hdrop

/-- a masked text frame of one byte, behind one byte of a buffer -/
theorem encode_decode_one : ∃ frame, (encode ⟨[7], 8, 0⟩ [65] 1 33).2.str = [7] ++ frame ∧
      (packageLength frame = frame.length ↔ headerSize (frame.getD 1 0).toNat ≤ frame.length % 2^32) ∧
      (∀ k < frame.length, ¬ (0 < packageLength (frame.take k) ∧ packageLength (frame.take k) ≤ k)) ∧
      ∃ data', decode frame = some (⟨.text, false, false, false, true, true⟩, 1, data') ∧
        data'.drop (frame.length - 1) = [65] :=
  encode_decode ⟨[7], 8, 0⟩ (by decide) [65] 1 (by decide) 33 (by decide) (by decide)

lemma packageLength_long {data : Bytes} (hd : data.length = 2^32 - 10) :
    (frameHeader data.length 2 1 ++ frameBody data 1).length = 2^32 ∧
      packageLength (frameHeader data.length 2 1 ++ frameBody data 1) = 0 := by
  have hbody : frameBody data 1 = data := by rfl
  have hlen : (frameHeader data.length 2 1 ++ frameBody data 1).length = 2^32 := by
    rw [hbody, length_append, hd]
    rfl
  refine ⟨hlen, ?_⟩
  unfold packageLength
  rw [hlen, Nat.mod_self, getPackageLength_take (Nat.zero_le _), if_neg]
  exact not_le.2 (lt_of_lt_of_le Nat.zero_lt_two (two_le_headerSize _))

/-- a frame of `2^32` bytes has no length by `get_package_length` -/
theorem encode_long_frame : ∃ frame, (encode ⟨[], 0, 0⟩ (replicate (2^32 - 10) 0) 2 1).2.str = frame ∧
    frame.length = 2^32 ∧ packageLength frame ≠ frame.length := by
  obtain ⟨hlen, hzero⟩ := packageLength_long (length_replicate (n := 2^32 - 10) (a := (0 : UInt8)))
  refine ⟨_, encode_str (b := ⟨[], 0, 0⟩) le_rfl _ 2 1, ?_, ?_⟩
  · rw [nil_append]
    exact hlen
  · rw [nil_append, hzero, hlen]
    decide

end Websocket
end OSW
