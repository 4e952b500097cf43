import Mathlib.Logic.Function.Iterate
import OpenSwoole.Core.OswString
import OpenSwoole.Lib.Machine

/-!
# Runs of `String` operations

The rest of `String`: `write`, `repeat`, the copy constructor and copy assignment.  The
strings of a program have numbers, and a string that was never allocated has no allocator; memory that
nobody wrote (`unset`) is an argument of the operations that show it.

* `StringOp`   the operations, with the copies between two strings;
* `StringOp.onLists`   the same operations on lists of bytes with an offset.
-/

namespace OSW
open Function Machine List

inductive StringEdit where
  | make (capacity : Nat)
  | append (data : Bytes)
  | write (offset : Nat) (data : Bytes) (unset : Nat → UInt8)
  | reserve (newSize : Nat)
  | reduce (offset : Nat)
  | pop (initSize : Nat)
  | repeat (data : Bytes) (n : Nat)
  | setOffset (offset : Nat)

inductive StringOp where
  | edit (i : Nat) (e : StringEdit)
  | copyConstruct (i src : Nat) (unset : Nat → UInt8)
  | copyAssign (i src : Nat) (unset : Nat → UInt8)

namespace OswString

/-- `pagesize` is `OpenSwooleG.pagesize` -/
def write (pagesize : Nat) (b : OswString) (offset : Nat) (data : Bytes) (unset : Nat → UInt8) : OswString :=
  let newLength := offset + data.length
  let b := if b.size < newLength then b.reserve (sizeAlign (newLength * 2) pagesize) else b
  { b with str := (b.str ++ (range (offset - b.length)).map unset).take offset ++ data ++
      b.str.drop newLength }

def «repeat» (b : OswString) (data : Bytes) (n : Nat) : OswString :=
  if n = 0 then b
  else if data.length = 1 then b.appendBytes (replicate n (data.headD 0))
  else (fun b : OswString => b.appendBytes data)^[n] b

/-- `memcpy(_str.str, str, _str.length)`: what the copy leaves in its source -/
def copied (src : OswString) (unset : Nat → UInt8) : OswString :=
  { src with str := (range src.length).map unset }

def copyOf (src : OswString) (unset : Nat → UInt8) : OswString :=
  { makeString src.size with str := (src.copied unset).str, offset := src.offset }

end OswString

/-- `allocator` tells whether the pointer is set -/
structure AllocString extends OswString where
  allocator : Bool

namespace AllocString

/-- `String()` -/
def default : AllocString := ⟨⟨[], 0, 0⟩, false⟩

/-- the first memory is made by `alloc`, which sets the allocator -/
def grown (b : AllocString) (s : OswString) : AllocString := ⟨s, b.allocator || decide (0 < s.size)⟩

/-- `none` is a call of `malloc` through a null pointer -/
def pop (b : AllocString) (initSize : Nat) : Option AllocString :=
  if b.allocator then some ⟨b.toOswString.pop initSize, b.allocator⟩ else none

def edit (pagesize : Nat) (b : AllocString) : StringEdit → Option AllocString
  | .make capacity => some ⟨makeString capacity, true⟩
  | .append data => some (b.grown (b.appendBytes data))
  | .write offset data unset => some (b.grown (b.write pagesize offset data unset))
  | .reserve newSize => some ⟨b.reserve newSize, true⟩
  | .reduce offset => some ⟨b.reduce offset, b.allocator⟩
  | .pop initSize => b.pop initSize
  | .repeat data n => some (b.grown (b.repeat data n))
  | .setOffset offset => some { b with offset := offset }

/-- the asserts of the source, no gap, no cut, no offset in a string without memory, an allocator for `pop` -/
def meets (b : AllocString) : StringEdit → Bool
  | .write offset _ _ => decide (offset ≤ b.length)
  | .reserve newSize => decide (b.length ≤ newSize ∧ 0 < newSize)
  | .reduce offset => decide (offset ≤ b.length)
  | .pop _ => decide (b.offset ≤ b.length ∧ b.allocator = true)
  | .setOffset offset => decide (b.size = 0 → offset = 0)
  | _ => true

end AllocString

def StringEdit.onList (v : Bytes × Nat) : StringEdit → Bytes × Nat
  | .make _ => ([], 0)
  | .append data => (v.1 ++ data, v.2)
  | .write offset data _ => (v.1.take offset ++ data ++ v.1.drop (offset + data.length), v.2)
  | .reserve _ => v
  | .reduce offset => if offset = 0 then v else (v.1.drop offset, 0)
  | .pop _ => (v.1.drop v.2, 0)
  | .repeat data n => (v.1 ++ (replicate n data).flatten, v.2)
  | .setOffset offset => (v.1, offset)

namespace StringOp

def onLists : StringOp → (Nat → Bytes × Nat) → Nat → Bytes × Nat
  | .edit i e, m => update m i (e.onList (m i))
  | .copyConstruct i src _, m | .copyAssign i src _, m => update m i (m src)

def copy (m : Nat → AllocString) (i src : Nat) (unset : Nat → UInt8) : Nat → AllocString :=
  update (update m src ⟨(m src).copied unset, (m src).allocator⟩) i ⟨(m src).copyOf unset, true⟩

def apply (pagesize : Nat) : StringOp → (Nat → AllocString) → Option (Nat → AllocString)
  | .edit i e, m => ((m i).edit pagesize e).map (update m i)
  | .copyConstruct i src unset, m => some (copy m i src unset)
  | .copyAssign i src unset, m => some (if i = src then m else copy m i src unset)

def meets (m : Nat → AllocString) : StringOp → Bool
  | .edit i e => (m i).meets e
  | .copyConstruct _ src _ => decide ((m src).length = 0)
  | .copyAssign i src _ => decide ((m src).length = 0 ∨ i = src)

end StringOp

/-- the strings of a program; each is at first `String()` -/
def strings (pagesize : Nat) (ops : List StringOp) : Option (Nat → AllocString) :=
  iter (StringOp.apply pagesize) ops fun _ => .default

def byteLists (ops : List StringOp) : Nat → Bytes × Nat :=
  ops.foldl (fun l op => op.onLists l) fun _ => ([], 0)

/-- the string holds the bytes, within its memory, at the offset -/
structure Holds (v : Bytes × Nat) (b : OswString) : Prop where
  str : b.str = v.1
  offset : b.offset = v.2
  fits : b.length ≤ b.size
  bare : b.size = 0 → b.offset = 0

namespace Holds

variable {v : Bytes × Nat} {b : OswString} {n m : Nat} {data : Bytes}

section
variable (h : Holds v b)
include h

lemma put (hd : data.length ≤ b.size) : Holds (data, v.2) { b with str := data } :=
  ⟨rfl, h.offset, hd, h.bare⟩

lemma reserve (hn : b.length ≤ n) (h0 : 0 < n) : Holds v (b.reserve n) ∧ n ≤ (b.reserve n).size := by
  have hle := le_memAlignedSize n
  unfold OswString.reserve
  split
  · rename_i hz
    have hfits := h.fits
    have hstr : b.str = [] := eq_nil_of_length_eq_zero (by unfold OswString.length at hfits; omega)
    refine ⟨⟨hstr.symm.trans h.str, ?_, Nat.zero_le _, fun _ => rfl⟩, hle⟩
    exact (h.bare hz).symm.trans h.offset
  · exact ⟨⟨h.str, h.offset, le_trans hn hle, fun hz => absurd hz (by simp only; omega)⟩, hle⟩

/-- room is made before bytes are put in -/
lemma room (hnm : n ≤ m) : Holds v (if b.size < n then b.reserve m else b) ∧
      n ≤ (if b.size < n then b.reserve m else b).size := by
  have hfits := h.fits
  split
  · obtain ⟨hr, hs⟩ := h.reserve (n := m) (by omega) (by omega)
    exact ⟨hr, by omega⟩
  · exact ⟨h, by omega⟩

lemma append (data : Bytes) : Holds (v.1 ++ data, v.2) (b.appendBytes data) := by
  obtain ⟨hr, hn⟩ := h.room (le_refl (b.length + data.length))
  rw [← hr.str]
  apply hr.put
  rwa [hr.str, ← h.str, length_append]

lemma write (pagesize : Nat) {offset : Nat} (hoff : offset ≤ b.length) (data : Bytes) (unset : Nat → UInt8) :
    Holds (v.1.take offset ++ data ++ v.1.drop (offset + data.length), v.2)
      (b.write pagesize offset data unset) := by
  have halign : offset + data.length ≤ sizeAlign ((offset + data.length) * 2) pagesize := by
    unfold sizeAlign
    omega
  obtain ⟨hr, hn⟩ := h.room halign
  have hlen : b.length = v.1.length := by rw [← h.str, OswString.length]
  have hfits := hr.fits
  unfold OswString.write
  unfold OswString.length at hfits ⊢
  simp only [hr.str, hlen] at hfits hoff ⊢
  rw [Nat.sub_eq_zero_of_le hoff, range_zero, map_nil, append_nil]
  apply hr.put
  simp only [length_append, length_take, length_drop]
  omega

lemma appends (data : Bytes) (n : Nat) : Holds (v.1 ++ (replicate n data).flatten, v.2)
      ((fun b : OswString => b.appendBytes data)^[n] b) := by
  induction n generalizing v b with
  | zero => simpa using h
  | succ n ih => simpa [replicate_succ] using ih (h.append data)

lemma repeats (data : Bytes) (n : Nat) : Holds (v.1 ++ (replicate n data).flatten, v.2) (b.repeat data n) := by
  unfold OswString.repeat
  split
  · simp_all
  · split
    · rename_i hlen
      obtain ⟨c, rfl⟩ := length_eq_one_iff.1 hlen
      simpa using h.append (replicate n c)
    · exact h.appends data n

lemma reduce (offset : Nat) : Holds (if offset = 0 then v else (v.1.drop offset, 0)) (b.reduce offset) := by
  unfold OswString.reduce
  split
  · exact h
  · refine ⟨by rw [← h.str], rfl, le_trans ?_ h.fits, fun _ => rfl⟩
    simp [OswString.length]

/-- nothing is copied: both strings are empty -/
lemma copy (h0 : b.length = 0) (unset : Nat → UInt8) : b.copied unset = b ∧ Holds v (b.copyOf unset) := by
  have hstr : b.str = [] := eq_nil_of_length_eq_zero h0
  have hc : b.copied unset = b := by simp [OswString.copied, h0, ← hstr]
  refine ⟨hc, ?_, h.offset, ?_, fun hz => h.bare ?_⟩
  · rw [← h.str, OswString.copyOf, hc]
  · simp [OswString.copyOf, OswString.length, hc, hstr]
  · have := le_memAlignedSize b.size
    simp only [OswString.copyOf, makeString] at hz
    omega

end

variable {b : AllocString}

lemma pop (h : Holds v b.toOswString) (halloc : b.allocator = true) (initSize : Nat) :
    ∃ b', b.pop initSize = some b' ∧ Holds (v.1.drop v.2, 0) b'.toOswString := by
  refine ⟨_, if_pos halloc, by rw [← h.str, ← h.offset]; rfl, rfl,
    le_trans ?_ (le_memAlignedSize _), fun _ => rfl⟩
  show (b.str.drop b.offset).length ≤ _
  split <;> omega

lemma edit (h : Holds v b.toOswString) (pagesize : Nat) (e : StringEdit) (hm : b.meets e = true) :
    ∃ b', b.edit pagesize e = some b' ∧ Holds (e.onList v) b'.toOswString := by
  cases e with
  | make capacity => exact ⟨_, rfl, rfl, rfl, Nat.zero_le _, fun _ => rfl⟩
  | append data => exact ⟨_, rfl, h.append data⟩
  | write offset data unset => exact ⟨_, rfl, h.write pagesize (of_decide_eq_true hm) data unset⟩
  | reserve newSize => exact ⟨_, rfl, (h.reserve (of_decide_eq_true hm).1 (of_decide_eq_true hm).2).1⟩
  | reduce offset => exact ⟨_, rfl, h.reduce offset⟩
  | pop initSize => exact h.pop (of_decide_eq_true hm).2 initSize
  | «repeat» data n => exact ⟨_, rfl, h.repeats data n⟩
  | setOffset offset => exact ⟨_, rfl, h.str, rfl, h.fits, of_decide_eq_true hm⟩

end Holds

variable {m : Nat → AllocString} {l : Nat → Bytes × Nat} (h : ∀ i, Holds (l i) (m i).toOswString)
include h

lemma update_holds (j : Nat) {v : Bytes × Nat} {b : AllocString} (hb : Holds v b.toOswString) (i : Nat) :
    Holds (update l j v i) (update m j b i).toOswString := by
  by_cases hi : i = j
  · simpa [hi] using hb
  · simpa [hi] using h i

lemma copy_holds (i : Nat) {src : Nat} (h0 : (m src).length = 0) (unset : Nat → UInt8) (k : Nat) :
    Holds (update l i (l src) k) (StringOp.copy m i src unset k).toOswString := by
  obtain ⟨hc, hcopy⟩ := (h src).copy h0 unset
  unfold StringOp.copy
  rw [hc, update_eq_self]
  exact update_holds h i (b := ⟨(m src).copyOf unset, true⟩) hcopy k

lemma apply_holds (pagesize : Nat) (op : StringOp) (hm : op.meets m = true) :
    ∃ m', op.apply pagesize m = some m' ∧ ∀ i, Holds (op.onLists l i) (m' i).toOswString := by
  cases op with
  | edit j e =>
    obtain ⟨b', he, hb'⟩ := (h j).edit pagesize e hm
    refine ⟨update m j b', ?_, update_holds h j hb'⟩
    rw [StringOp.apply, he, Option.map_some]
  | copyConstruct j src unset => exact ⟨_, rfl, copy_holds h j (of_decide_eq_true hm) unset⟩
  | copyAssign j src unset =>
    refine ⟨_, rfl, ?_⟩
    unfold StringOp.onLists
    by_cases hj : j = src
    · simpa [hj] using h
    · rw [if_neg hj]
      exact copy_holds h j ((of_decide_eq_true hm).resolve_right hj) unset

lemma iter_holds (pagesize : Nat) (ops : List StringOp)
    (hops : Along (StringOp.apply pagesize) (fun op m => op.meets m = true) ops m) :
    ∃ m', iter (StringOp.apply pagesize) ops m = some m' ∧
      ∀ i, Holds (ops.foldl (fun l op => op.onLists l) l i) (m' i).toOswString := by
  induction ops generalizing m l with
  | nil => exact ⟨m, rfl, h⟩
  | cons op ops ih =>
    obtain ⟨m1, he, h1⟩ := apply_holds h pagesize op hops.1
    obtain ⟨m', hm', h'⟩ := ih h1 (hops.2 m1 he)
    exact ⟨m', Option.bind_eq_some_iff.2 ⟨m1, he, hm'⟩, h'⟩

omit h

/-- **Strings are lists of bytes with an offset**, within their memory. -/
theorem strings_are_lists (pagesize : Nat) (ops : List StringOp)
    (hops : Along (StringOp.apply pagesize) (fun op m => op.meets m = true) ops fun _ => .default) :
    ∃ m, strings pagesize ops = some m ∧ ∀ i, (m i).str = (byteLists ops i).1 ∧
      (m i).offset = (byteLists ops i).2 ∧ (m i).length ≤ (m i).size := by
  have h0 : Holds ([], 0) AllocString.default.toOswString := ⟨rfl, rfl, le_rfl, fun _ => rfl⟩
  obtain ⟨m, hm, h⟩ := iter_holds (fun _ => h0) pagesize ops hops
  exact ⟨m, hm, fun i => ⟨(h i).str, (h i).offset, (h i).fits⟩⟩

/-- a string is written inside, grows at its end and gives its first byte away; then an empty one is copied -/
def editing : List StringOp :=
  [.edit 0 (.append [1, 2, 3]), .edit 0 (.write 1 [7] fun _ => 0),
    .edit 0 (.repeat [8, 9] 2), .edit 0 (.setOffset 1), .edit 0 (.pop 16), .copyAssign 2 1 fun _ => 5]

theorem strings_are_lists_write :
    (∃ m, strings 4096 editing = some m ∧ ∀ i, (m i).str = (byteLists editing i).1 ∧
      (m i).offset = (byteLists editing i).2 ∧ (m i).length ≤ (m i).size) ∧
    (byteLists editing 0).1 = [7, 3, 8, 9, 8, 9] :=
  ⟨strings_are_lists 4096 editing (by decide), by decide⟩

/-- the source of a copy is lost; and a string that was never allocated cannot `pop` -/
theorem copy_destroys :
    (strings 4096 [.edit 0 (.append [97]), .copyConstruct 1 0 fun _ => 0]).map (fun m => (m 0).str) = some [0] ∧
    (byteLists [.edit 0 (.append [97]), .copyConstruct 1 0 fun _ => 0] 0).1 = [97] ∧
    (strings 4096 [.edit 0 (.pop 16)]).isNone := by
  decide

end OSW
