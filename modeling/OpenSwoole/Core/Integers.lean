import Mathlib.Algebra.Group.Int.Defs
import OpenSwoole.Core.OswString

/-!
# Machine integers in memory

* `leBytes`, `beBytes`   the bytes of a number, least first and least last.
-/

namespace OSW
open List

/-- unsigned little-endian number -/
def le : Bytes → Nat
  | [] => 0
  | b :: bs => b.toNat + 256 * le bs

/-- unsigned big-endian number -/
def be (bs : Bytes) : Nat := le bs.reverse

def leBytes : Nat → Nat → Bytes
  | 0, _ => []
  | k + 1, n => UInt8.ofNat n :: leBytes k (n / 256)

/-- the `k` low bytes of a number, least last: network byte order -/
def beBytes (k n : Nat) : Bytes := (leBytes k n).reverse

/-- two's complement of `w` bits -/
def toSigned (w n : Nat) : Int := if n % 2^w < 2^(w - 1) then (n % 2^w : Nat) else (n % 2^w : Nat) - 2^w

lemma le_lt (bs : Bytes) : le bs < 256 ^ bs.length := by
  induction bs with
  | nil => exact Nat.one_pos
  | cons b bs ih =>
    have hb := b.toNat_lt
    show b.toNat + 256 * le bs < 256 ^ (bs.length + 1)
    omega

lemma le_take_lt (data : Bytes) (k : Nat) : le (data.take k) < 256 ^ k :=
  Nat.lt_of_lt_of_le (le_lt _) (Nat.pow_le_pow_right (by decide) (length_take_le k data))

lemma be_take_lt (data : Bytes) (k : Nat) : be (data.take k) < 256 ^ k := by
  refine Nat.lt_of_lt_of_le (le_lt _) (Nat.pow_le_pow_right (by decide) ?_)
  rw [length_reverse]
  exact length_take_le k data

lemma le_replicate_zero (k : Nat) : le (replicate k 0) = 0 := by
  induction k with
  | zero => rfl
  | succ k ih =>
    show (0 : UInt8).toNat + 256 * le (replicate k 0) = 0
    rw [ih]
    rfl

lemma length_leBytes (k n : Nat) : (leBytes k n).length = k := by
  induction k generalizing n with
  | zero => rfl
  | succ k ih => exact congrArg (· + 1) (ih _)

lemma le_leBytes (k n : Nat) : le (leBytes k n) = n % 256 ^ k := by
  induction k generalizing n with
  | zero => exact (Nat.mod_one n).symm
  | succ k ih =>
    have hb : (UInt8.ofNat n).toNat = n % 256 := UInt8.toNat_ofNat'
    show (UInt8.ofNat n).toNat + 256 * le (leBytes k (n / 256)) = n % 256 ^ (k + 1)
    rw [ih, hb, pow_succ, mul_comm (256 ^ k), Nat.mod_mul]

lemma length_beBytes (k n : Nat) : (beBytes k n).length = k := length_reverse.trans (length_leBytes k n)

lemma be_beBytes (k n : Nat) : be (beBytes k n) = n % 256 ^ k := by
  rw [be, beBytes, reverse_reverse, le_leBytes]

lemma leBytes_le (bs : Bytes) : leBytes bs.length (le bs) = bs := by
  induction bs with
  | nil => rfl
  | cons b bs ih =>
    have hb := b.toNat_lt
    show UInt8.ofNat (b.toNat + 256 * le bs) :: leBytes bs.length ((b.toNat + 256 * le bs) / 256) = b :: bs
    rw [show (b.toNat + 256 * le bs) / 256 = le bs by omega]
    congr 1
    apply UInt8.toNat.inj
    rw [UInt8.toNat_ofNat']
    omega

lemma le_append (a b : Bytes) : le (a ++ b) = le a + 256 ^ a.length * le b := by
  induction a with
  | nil =>
    show le b = 0 + 1 * le b
    omega
  | cons x a ih =>
    show x.toNat + 256 * le (a ++ b) = x.toNat + 256 * le a + 256 ^ (a.length + 1) * le b
    rw [ih, pow_succ, Nat.mul_add, mul_comm (256 ^ a.length) 256, mul_assoc, add_assoc]

lemma le_xor {a b : Bytes} (h : a.length = b.length) : le (zipWith (· ^^^ ·) a b) = le a ^^^ le b := by
  induction a generalizing b with
  | nil =>
    cases b with
    | nil => rfl
    | cons y b => cases h
  | cons x a ih =>
    cases b with
    | nil => cases h
    | cons y b =>
      have hx : x.toNat < 2^8 := x.toNat_lt
      have hy : y.toNat < 2^8 := y.toNat_lt
      have hxy : (x ^^^ y).toNat < 2^8 := (x ^^^ y).toNat_lt
      show (x ^^^ y).toNat + 256 * le (zipWith (· ^^^ ·) a b) =
        (x.toNat + 256 * le a) ^^^ (y.toNat + 256 * le b)
      rw [ih (Nat.succ.inj h), add_comm, add_comm x.toNat, add_comm y.toNat]
      refine Nat.eq_of_testBit_eq fun i => ?_
      rw [Nat.testBit_xor, Nat.testBit_two_pow_mul_add _ hxy, Nat.testBit_two_pow_mul_add _ hx,
        Nat.testBit_two_pow_mul_add _ hy, UInt8.toNat_xor, Nat.testBit_xor, Nat.testBit_xor]
      split <;> rfl

lemma toSigned_lt (w n : Nat) : toSigned w n < 2^(w - 1) := by
  have hpos : (0 : Int) < 2^(w - 1) := by exact_mod_cast Nat.two_pow_pos (w - 1)
  have hlt : n % 2^w < 2^w := Nat.mod_lt _ (Nat.two_pow_pos w)
  unfold toSigned
  by_cases h : n % 2^w < 2^(w - 1)
  · rw [if_pos h]
    exact_mod_cast h
  · have : ((n % 2^w : Nat) : Int) < 2^w := by exact_mod_cast hlt
    omega

lemma toSigned_of_lt {w n : Nat} (h : n < 2^(w - 1)) : toSigned w n = n := by
  have hle : 2^(w - 1) ≤ 2^w := Nat.pow_le_pow_right (by decide) (Nat.sub_le w 1)
  unfold toSigned
  rw [Nat.mod_eq_of_lt (Nat.lt_of_lt_of_le h hle), if_pos h]

lemma toSigned_neg {w n : Nat} (h1 : 2^(w - 1) ≤ n) (h2 : n < 2^w) : toSigned w n < 0 := by
  have : (n : Int) < 2^w := by exact_mod_cast h2
  unfold toSigned
  rw [Nat.mod_eq_of_lt h2]
  omega

/-! ## values of variables -/

namespace Core

/-- the value of an `int` -/
def int32 (n : Int) : Int := Int.bmod n (2^32)

/-- the value of an `int64_t` or `long` -/
def int64 (n : Int) : Int := Int.bmod n (2^64)

/-- the value of a `uint64_t` -/
def uint64 (n : Int) : Nat := (n % 2^64).toNat

lemma int32_of_lt {n : Int} (h1 : -2^31 ≤ n) (h2 : n < 2^31) : int32 n = n :=
  Int.bmod_eq_of_le (by omega) (by omega)

lemma int64_of_lt {n : Int} (h1 : -2^63 ≤ n) (h2 : n < 2^63) : int64 n = n :=
  Int.bmod_eq_of_le (by omega) (by omega)

lemma int64_lt (n : Int) : int64 n < 2^63 := by
  have := Int.bmod_lt (x := n) (m := 2^64) (by decide)
  unfold int64
  omega

lemma uint64_of_nonneg {n : Int} (h1 : 0 ≤ n) (h2 : n < 2^64) : uint64 n = n.toNat := by
  unfold uint64
  rw [Int.emod_eq_of_lt h1 h2]

end Core

end OSW
