import Mathlib.Tactic.Ring
import OpenSwoole.Core.Integers

/-!
# `mqtt::get_package_length`

`src/protocol/mqtt.cc`.  `data` is the memory from the start of the package on, of which `size` bytes have
been received.

* `Mqtt.Encodes`   a remaining length on the wire: seven bits a byte, least first.
-/

namespace OSW.Mqtt
open List Option

/-- `OSW_MQTT_MAX_LENGTH_SIZE` -/
def maxLengthSize : Nat := 4

/-- the loop: `count` bytes of the length field have been read, `left` more can be -/
def lengthLoop (data : Nat → UInt8) (received : Nat) : (left count length mul : Nat) → Int
  | left, count, length, mul =>
    let byte := (data (count + 1)).toNat
    let length := length + (byte &&& 127) * mul
    if byte &&& 128 = 0 then (length + (count + 1) + 1 : Nat)
    else
      match left with
      | 0 => -1
      | left + 1 =>
        if received ≤ count + 1 then 0 else lengthLoop data received left (count + 1) length (mul * 128)

/-- `size - 1` is a `uint32_t` -/
def getPackageLength (data : Nat → UInt8) (size : Nat) : Int :=
  if (size + (2^32 - 1)) % 2^32 < 1 then 0
  else lengthLoop data ((size + (2^32 - 1)) % 2^32) (maxLengthSize - 1) 0 0 1

inductive Encodes : Bytes → Nat → Prop
  | last {b : UInt8} (h : b.toNat < 128) : Encodes [b] b.toNat
  | more {b : UInt8} {bs : Bytes} {n : Nat} (h : 128 ≤ b.toNat) (hs : Encodes bs n) :
    Encodes (b :: bs) (b.toNat - 128 + 128 * n)

lemma Encodes.lt_pow {bs : Bytes} {n : Nat} (h : Encodes bs n) : n < 128 ^ bs.length := by
  induction h with
  | last hb => exact hb
  | @more b bs n hb hs ih =>
    have hlt := b.toNat_lt
    rw [length_cons]
    omega

lemma Encodes.length_pos {bs : Bytes} {n : Nat} (h : Encodes bs n) : 0 < bs.length := by
  cases h <;> exact Nat.succ_pos _

lemma and_127 (b : UInt8) : b.toNat &&& 127 = b.toNat % 128 := Nat.and_two_pow_sub_one_eq_mod _ 7

lemma and_128 (b : UInt8) : b.toNat &&& 128 = 0 ↔ b.toNat < 128 := by
  have h : ∀ n < 256, n &&& 128 = 0 ↔ n < 128 := by decide +kernel
  exact h _ b.toNat_lt

section
variable {data : Nat → UInt8} {received left count length mul n : Nat}

lemma lengthLoop_last (h : (data (count + 1)).toNat < 128) :
    lengthLoop data received left count length mul =
      (length + (data (count + 1)).toNat * mul + (count + 1) + 1 : Nat) := by
  rw [lengthLoop.eq_def]
  simp only [(and_128 _).2 h, and_127, Nat.mod_eq_of_lt h, if_true]

lemma lengthLoop_more (h : 128 ≤ (data (count + 1)).toNat) :
    lengthLoop data received (left + 1) count length mul = if received ≤ count + 1 then 0 else
      lengthLoop data received left (count + 1) (length + ((data (count + 1)).toNat - 128) * mul)
        (mul * 128) := by
  have hlt := (data (count + 1)).toNat_lt
  have hmod : (data (count + 1)).toNat % 128 = (data (count + 1)).toNat - 128 := by omega
  rw [lengthLoop.eq_def]
  simp only [(and_128 _).not.2 (not_lt.2 h), and_127, hmod, if_false]

lemma lengthLoop_full (h : 128 ≤ (data (count + 1)).toNat) :
    lengthLoop data received 0 count length mul = -1 := by
  rw [lengthLoop.eq_def]
  simp only [(and_128 _).not.2 (not_lt.2 h), if_false]

/-- the length field from byte `count` on -/
lemma lengthLoop_eq {bs : Bytes} (h : Encodes bs n) (hleft : bs.length ≤ left + 1) (hcount : count < received)
    (hdata : ∀ i < bs.length, count + i < received → some (data (count + i + 1)) = bs[i]?) :
    lengthLoop data received left count length mul =
      (if received < count + bs.length then 0 else length + n * mul + (count + bs.length) + 1 : Nat) := by
  induction h generalizing left count length mul with
  | @last b hb =>
    have h0 : data (count + 1) = b := some.inj (hdata 0 one_pos hcount)
    rw [lengthLoop_last (by rw [h0]; exact hb), h0, length_singleton, if_neg (by omega)]
  | @more b bs n hb hs ih =>
    have h0 : data (count + 1) = b := some.inj (hdata 0 (Nat.succ_pos _) hcount)
    have hpos := hs.length_pos
    rw [length_cons] at hleft ⊢
    obtain ⟨left, rfl⟩ : ∃ k, left = k + 1 := ⟨left - 1, by omega⟩
    rw [lengthLoop_more (by rw [h0]; exact hb), h0]
    by_cases hrec : received ≤ count + 1
    · rw [if_pos hrec, if_pos (by omega)]
      rfl
    have hrest : ∀ i < bs.length, count + 1 + i < received → some (data (count + 1 + i + 1)) = bs[i]? := by
      intro i hi hlt
      have := hdata (i + 1) (Nat.succ_lt_succ hi) (by omega)
      rwa [← add_assoc, add_right_comm count i 1] at this
    have hsum : length + (b.toNat - 128) * mul + n * (mul * 128) + (count + 1 + bs.length) + 1 =
        length + (b.toNat - 128 + 128 * n) * mul + (count + (bs.length + 1)) + 1 := by
      ring
    rw [if_neg hrec, ih (by omega) (by omega) hrest, hsum, add_assoc count, add_comm 1]

end

/-- the first `size` bytes of the memory are those of the packet -/
def Received (data : Nat → UInt8) (packet : Bytes) (size : Nat) : Prop := ∀ i < size, some (data i) = packet[i]?

lemma getPackageLength_pos {data : Nat → UInt8} {size : Nat} (h0 : 0 < size) (h : size < 2^32) :
    getPackageLength data size = if size = 1 then 0 else lengthLoop data (size - 1) 3 0 0 1 := by
  have hmod : (size + (2^32 - 1)) % 2^32 = size - 1 := by omega
  have hiff : size - 1 < 1 ↔ size = 1 := by omega
  simp only [getPackageLength, hmod, hiff, maxLengthSize]

/-- **The length of a packet is known exactly when its length field is there**, whatever stands behind the bytes
received; a length field of more than four bytes is an error as soon as four are there. -/
theorem package_length_exact :
    (∀ t bs payload n data size, Encodes bs n → bs.length ≤ 4 → payload.length = n → 0 < size →
      size ≤ (t :: (bs ++ payload)).length → Received data (t :: (bs ++ payload)) size →
      getPackageLength data size = if size < 1 + bs.length then 0 else ((t :: (bs ++ payload)).length : Int)) ∧
    ∀ t b₁ b₂ b₃ b₄ rest data size, (∀ b ∈ [b₁, b₂, b₃, b₄], 128 ≤ b.toNat) → 5 ≤ size → size < 2^32 →
      Received data (t :: b₁ :: b₂ :: b₃ :: b₄ :: rest) size → getPackageLength data size = -1 := by
  constructor
  · intro t bs payload n data size h hbs hp h0 hsize hdata
    have hlen : (t :: (bs ++ payload)).length = 1 + bs.length + n := by
      simp only [length_cons, length_append]
      omega
    have hn : n < 128 ^ 4 := lt_of_lt_of_le h.lt_pow (Nat.pow_le_pow_right (by decide) hbs)
    have hpos := h.length_pos
    have hfield : ∀ i < bs.length, 0 + i < size - 1 → some (data (0 + i + 1)) = bs[i]? := by
      intro i hi hlt
      rw [zero_add, hdata (i + 1) (by omega), getElem?_cons_succ, getElem?_append_left hi]
    rw [getPackageLength_pos h0 (by omega)]
    by_cases hone : size = 1
    · rw [if_pos hone, if_pos (by omega)]
    · rw [lengthLoop_eq h hbs (by omega) hfield]
      split <;> split <;> omega
  · intro t b₁ b₂ b₃ b₄ rest data size hb h5 hsize hdata
    have h1 := some.inj (hdata 1 (by omega))
    have h2 := some.inj (hdata 2 (by omega))
    have h3 := some.inj (hdata 3 (by omega))
    have h4 := some.inj (hdata 4 (by omega))
    rw [getPackageLength_pos (by omega) hsize, if_neg (by omega)]
    rw [lengthLoop_more (by rw [h1]; exact hb b₁ (by simp)), if_neg (by omega),
      lengthLoop_more (by rw [h2]; exact hb b₂ (by simp)), if_neg (by omega),
      lengthLoop_more (by rw [h3]; exact hb b₃ (by simp)), if_neg (by omega),
      lengthLoop_full (by rw [h4]; exact hb b₄ (by simp))]

/-- a packet with three bytes behind its length, of which five have been received -/
theorem package_length_exact_five : Encodes [3] 3 ∧
    getPackageLength (fun i => [48, 3, 0, 1, 97].getD i 0) 5 = 5 := by
  have h : Encodes [3] 3 := .last (by decide)
  exact ⟨h, package_length_exact.1 48 [3] [0, 1, 97] 3 _ 5 h (by decide) rfl
    (by decide) (by decide) (by unfold Received; decide)⟩

/-- with nothing received `size - 1` is `2^32 - 1`, and the memory behind is taken for the length -/
theorem package_length_empty : getPackageLength (fun _ => 0) 0 = 2 := by decide

end OSW.Mqtt
