import OpenSwoole.Core.Integers
import OpenSwoole.Network.Socket

/-!
# Package protocols: configuration and the default length function

`include/openswoole_protocol.h` and `Protocol::default_length_func` of `src/protocol/base.cc`.
A length function gets the bytes received so far and returns the package length (negative:
error, `0`: not known yet) together with the value it leaves in `real_header_length`.  The host is
little-endian.

* `Protocol`   the fields of the configuration that the receive functions read, with the ranges of their C
    types.
-/

namespace OSW
open List

/-! ## length fields -/

/-- `package_length_type`: the codes of `pack()`; `none` stands for every other character -/
inductive LengthType where
  | c | C | s | S | n | v | l | L | N | V
  | none
  deriving DecidableEq

def typeSize : LengthType → Nat
  | .c | .C => 1
  | .s | .S | .n | .v => 2
  | .l | .L | .N | .V => 4
  | .none => 0

/-- `openswoole_unpack`: the field at the head of `data` as an `int32_t` -/
def unpack (t : LengthType) (data : Bytes) : Int :=
  match t with
  | .c => toSigned 8 (le (data.take 1))
  | .C => le (data.take 1)
  | .s => toSigned 16 (le (data.take 2))
  | .S => le (data.take 2)
  | .n => be (data.take 2)
  | .v => le (data.take 2)
  | .l | .L => toSigned 32 (le (data.take 4))
  | .N => toSigned 32 (be (data.take 4))
  | .V | .none => toSigned 32 (le (data.take 4))

lemma unpack_lt (t : LengthType) (data : Bytes) : unpack t data < 2^31 := by
  have h1 := le_take_lt data 1
  have h2 := le_take_lt data 2
  have h3 := be_take_lt data 2
  have h8 : toSigned 8 (le (data.take 1)) < 2^7 := toSigned_lt _ _
  have h16 : toSigned 16 (le (data.take 2)) < 2^15 := toSigned_lt _ _
  have hle : toSigned 32 (le (data.take 4)) < 2^31 := toSigned_lt _ _
  have hbe : toSigned 32 (be (data.take 4)) < 2^31 := toSigned_lt _ _
  cases t <;> simp only [unpack] <;> omega

lemma unpack_replicate_zero (t : LengthType) (k : Nat) : unpack t (replicate k 0) = 0 := by
  have h : ∀ j, le ((replicate k 0).take j) = 0 := by
    intro j
    rw [take_replicate]
    exact le_replicate_zero _
  have h' : ∀ j, be ((replicate k 0).take j) = 0 := by
    intro j
    rw [take_replicate]
    unfold be
    rw [reverse_replicate]
    exact le_replicate_zero _
  cases t <;> simp only [unpack, h, h'] <;> rfl

/-! ## configuration -/

structure Protocol where
  splitByEof : Bool
  packageEof : Bytes
  packageLengthType : LengthType
  packageLengthSize : Nat
  packageLengthOffset : Nat
  packageBodyOffset : Nat
  packageMaxLength : Nat
  eof_le : packageEof.length ≤ dataEofMaxlen
  size_lt : packageLengthSize < 2^8
  offset_lt : packageLengthOffset < 2^16
  body_lt : packageBodyOffset < 2^16
  max_lt : packageMaxLength < 2^32

lemma noEof_le : ([] : Bytes).length ≤ dataEofMaxlen := Nat.zero_le _

-- the defaults of a port: a field of four bytes at 0, the body at 4, packages up to 2 MiB
lemma defaultSize_lt : 4 < 2^8 := by decide
lemma defaultOffset_lt : 0 < 2^16 := by decide
lemma defaultBody_lt : 4 < 2^16 := by decide
lemma defaultMax_lt : 2 * 1024 * 1024 < 2^32 := by decide

def Protocol.headerLen (p : Protocol) : Nat := p.packageLengthOffset + p.packageLengthSize

/-- a length function with its effect on `real_header_length` -/
abbrev LengthFunc := Bytes → Int × Nat

/-- the configuration of `open_length_check`: the size of the length field is that of its type -/
structure Protocol.LengthCheck (p : Protocol) : Prop where
  size_eq : p.packageLengthSize = typeSize p.packageLengthType
  type_ne : p.packageLengthType ≠ .none

lemma typeSize_pos {t : LengthType} (h : t ≠ .none) : 0 < typeSize t := by
  cases t <;> first | exact absurd rfl h | decide

lemma Protocol.LengthCheck.headerLen_pos {p : Protocol} (h : p.LengthCheck) : 0 < p.headerLen := by
  have h1 := h.size_eq
  have h2 := typeSize_pos h.type_ne
  unfold Protocol.headerLen
  omega

/-- `Protocol::default_length_func`; the sum of `uint16_t` and `int32_t` is an `int` -/
def defaultLengthFunc (p : Protocol) : LengthFunc := fun data =>
  if p.packageLengthSize = 0 then (-1, 0)
  else if data.length < p.headerLen then (0, p.headerLen % 2^16)
  else
    let bodyLength := unpack p.packageLengthType (data.drop p.packageLengthOffset)
    if bodyLength < 0 then (-1, 0)
    else (toSigned 32 (p.packageBodyOffset + bodyLength.toNat), 0)

variable {p : Protocol} {data : Bytes}

variable (hp : p.LengthCheck)
include hp

lemma defaultLengthFunc_short (hd : data.length < p.headerLen) :
    defaultLengthFunc p data = (0, p.headerLen % 2^16) := by
  have hs : p.packageLengthSize ≠ 0 := by
    have := typeSize_pos hp.type_ne
    have := hp.size_eq
    omega
  unfold defaultLengthFunc
  rw [if_neg hs, if_pos hd]

lemma defaultLengthFunc_full (hd : p.headerLen ≤ data.length) : defaultLengthFunc p data =
      if unpack p.packageLengthType (data.drop p.packageLengthOffset) < 0 then (-1, 0)
      else (toSigned 32 (p.packageBodyOffset +
        (unpack p.packageLengthType (data.drop p.packageLengthOffset)).toNat), 0) := by
  have hs : p.packageLengthSize ≠ 0 := by
    have := typeSize_pos hp.type_ne
    have := hp.size_eq
    omega
  unfold defaultLengthFunc
  rw [if_neg hs, if_neg (by omega)]

lemma defaultLengthFunc_zeros (hb : p.packageBodyOffset = 0) (k : Nat) :
    (defaultLengthFunc p (replicate k 0)).1 = 0 := by
  by_cases hd : (replicate k (0 : UInt8)).length < p.headerLen
  · rw [defaultLengthFunc_short hp hd]
  · rw [defaultLengthFunc_full hp (by omega), drop_replicate, unpack_replicate_zero, hb]
    rfl

lemma defaultLengthFunc_eq_zero (hb : 1 ≤ p.packageBodyOffset) (hz : (defaultLengthFunc p data).1 = 0) :
    data.length < p.headerLen := by
  by_contra hd
  have hlt := p.body_lt
  have hu := unpack_lt p.packageLengthType (data.drop p.packageLengthOffset)
  rw [defaultLengthFunc_full hp (by omega)] at hz
  by_cases hneg : unpack p.packageLengthType (data.drop p.packageLengthOffset) < 0
  · rw [if_pos hneg] at hz
    cases hz
  · unfold toSigned at hz
    split at hz <;> omega

end OSW
