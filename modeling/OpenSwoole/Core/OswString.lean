import Mathlib.Algebra.Group.Nat.Defs
import OpenSwoole.Lib.Search

/-!
# The byte buffer `String`

`src/core/string.cc` and `include/openswoole_string.h`, with the two searches of
`include/openswoole.h` that they use.  `OswString.str` holds the valid bytes only, so that the
field `length` of the source is `str.length`; `size` is the allocated size.

* `OswString.appendBytes`   `append(str, length)` with its `reserve`;
* `OswString.split`   `String::split`, the loop that hands every delimited piece to a handler.
-/

namespace OSW
open Framing List

abbrev Bytes := List UInt8

def dot : UInt8 := 46

lemma forall_byte {P : UInt8 → Prop} (h : ∀ n < 256, P (UInt8.ofNat n)) (c : UInt8) : P c := by
  have := h c.toNat c.toNat_lt
  rwa [UInt8.ofNat_toNat] at this

def bufferSizeStd : Nat := 8192
def bufferSizeBig : Nat := 65536
def dataEofMaxlen : Nat := 8

/-- `OSW_MEM_ALIGNED_SIZE`: the next multiple of `sizeof(unsigned long)` -/
def memAlignedSize (n : Nat) : Nat := (n + 7) / 8 * 8

lemma le_memAlignedSize (n : Nat) : n ≤ memAlignedSize n := by
  unfold memAlignedSize
  omega

/-- `openswoole_size_align`: a multiple of `pagesize` is moved on by a whole page -/
def sizeAlign (size pagesize : Nat) : Nat := size + (pagesize - size % pagesize)

/-! ## search -/

/-- `openswoole_strnstr`; both lengths are `uint32_t` -/
def strnstr (haystack : Bytes) (haystackLength : Nat) (needle : Bytes) : Option Nat :=
  let n := haystackLength % 2^32
  if needle.length ≤ n then
    (range (n - needle.length + 1)).find? fun i => decide ((haystack.drop i).take needle.length = needle)
  else none

lemma take_eq_iff_prefix {d xs : Bytes} : xs.take d.length = d ↔ d <+: xs := by
  constructor
  · intro h
    exact h ▸ take_prefix _ _
  · rintro ⟨t, rfl⟩
    exact take_left

lemma strnstr_eq_first {haystack needle : Bytes} (hd : needle ≠ []) (hlt : haystack.length < 2^32) :
    strnstr haystack haystack.length needle = first needle haystack := by
  unfold strnstr
  simp only [Nat.mod_eq_of_lt hlt]
  by_cases hle : needle.length ≤ haystack.length
  · rw [if_pos hle]
    cases hf : first needle haystack with
    | none =>
      rw [find?_eq_none]
      intro i _
      rw [decide_eq_true_eq, take_eq_iff_prefix]
      exact (first_eq_none_iff hd haystack).1 hf i
    | some i =>
      have hi := first_le hd hf
      obtain ⟨h1, h2⟩ := (first_eq_some_iff hd haystack i).1 hf
      rw [find?_range_eq_some]
      refine ⟨by rw [decide_eq_true_eq, take_eq_iff_prefix]; exact h1,
        by rw [mem_range]; omega, fun j hj => ?_⟩
      rw [Bool.not_eq_true', decide_eq_false_iff_not, take_eq_iff_prefix]
      exact h2 j hj
  · rw [if_neg hle]
    refine ((first_eq_none_iff hd haystack).2 (fun j hj => ?_)).symm
    have := prefix_drop_le hd hj
    omega

/-! ## the buffer -/

/-- a string whose `allocator` is set, as `alloc` leaves it -/
structure OswString where
  str : Bytes
  size : Nat
  offset : Nat

def makeString (size : Nat) : OswString := ⟨[], memAlignedSize size, 0⟩

namespace OswString

section
variable (b : OswString)

def length : Nat := b.str.length

/-- migrate data to head, `[offset, length - offset] -> [0, length - offset]` -/
def reduce (offset : Nat) : OswString :=
  if offset = 0 then b else { b with str := b.str.drop offset, offset := 0 }

lemma reduce_of_pos {offset : Nat} (h : 0 < offset) :
    b.reduce offset = { b with str := b.str.drop offset, offset := 0 } :=
  if_neg (Nat.ne_of_gt h)

def clear : OswString := { b with str := [], offset := 0 }

/-- `extend(new_size)`, with its `assert(new_size > size)`; the memory is aligned by `reserve` -/
def extend (newSize : Nat) : Option OswString :=
  if b.size < newSize then some { b with size := memAlignedSize newSize } else none

end

/-- the constructor `String(str, length)`: the memory is just large enough -/
def ofBytes (data : Bytes) : OswString := { makeString data.length with str := data }

/-- `reserve(new_size)`; a string without memory is allocated anew, which clears `offset` -/
def reserve (b : OswString) (newSize : Nat) : OswString :=
  if b.size = 0 then makeString newSize else { b with size := memAlignedSize newSize }

/-- `pop(init_size)`: the rest moves into new memory of the allocator -/
def pop (b : OswString) (initSize : Nat) : OswString :=
  let rest := b.str.drop b.offset
  ⟨rest, memAlignedSize (if rest.length = 0 then initSize else max rest.length initSize), 0⟩

def appendBytes (b : OswString) (data : Bytes) : OswString :=
  let b := if b.size < b.length + data.length then b.reserve (b.length + data.length) else b
  { b with str := b.str ++ data }

/-- the loop of `String::split`; `start` is the local `_offset`, `none` in the result is the
return value `-1` -/
def splitLoop {σ : Type} (delimiter : Bytes) (handler : σ → Bytes → Bool × σ) :
    Nat → OswString → Nat → σ → Option (Option Nat × OswString × σ)
  | 0, _, _, _ => none
  | fuel + 1, b, start, s =>
    match strnstr (b.str.drop b.offset) (b.length - b.offset) delimiter with
    | some p =>
      let n := p + delimiter.length
      let (ok, s') := handler s ((b.str.drop (b.offset - start)).take (n + start))
      if ok then splitLoop delimiter handler fuel { b with offset := b.offset + n } 0 s'
      else some (none, b, s')
    | none =>
      -- a part of the delimiter may be at the end of the data and the other part in the next recv
      let b' := if start = b.offset then { b with offset := b.length - delimiter.length } else b
      some (some (b.offset - start), b', s)

def split {σ : Type} (b : OswString) (delimiter : Bytes) (handler : σ → Bytes → Bool × σ) (s : σ) :
    Option (Option Nat × OswString × σ) :=
  splitLoop delimiter handler (b.length + 1) b b.offset s

variable {σ : Type} {delimiter : Bytes} {handler : σ → Bytes → Bool × σ} {fuel : Nat} {b : OswString}
  {start i : Nat} {s s' : σ}

lemma splitLoop_none (hf : strnstr (b.str.drop b.offset) (b.length - b.offset) delimiter = none) :
    splitLoop delimiter handler (fuel + 1) b start s = some (some (b.offset - start),
      if start = b.offset then { b with offset := b.length - delimiter.length } else b, s) := by
  simp only [splitLoop, hf]

lemma splitLoop_ok (hf : strnstr (b.str.drop b.offset) (b.length - b.offset) delimiter = some i)
    (hok : handler s ((b.str.drop (b.offset - start)).take (i + delimiter.length + start)) = (true, s')) :
    splitLoop delimiter handler (fuel + 1) b start s =
      splitLoop delimiter handler fuel { b with offset := b.offset + (i + delimiter.length) } 0 s' := by
  simp only [splitLoop, hf, hok, if_true]

end OswString

end OSW
