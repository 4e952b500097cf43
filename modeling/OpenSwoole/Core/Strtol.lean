import OpenSwoole.Core.Integers

/-!
# Numbers in text

`strtol` and `strtoull` of the C library with base 10: white space, a sign, digits.  Without a digit
nothing is read.

* `numeral`   the parts of the text that are read;
* `numeral_decimal`   digits are read up to the first byte that is none.
-/

namespace OSW
open List

def isSpace (b : UInt8) : Bool := b == 32 || (9 ≤ b && b ≤ 13)

def isDigit (b : UInt8) : Bool := 48 ≤ b && b ≤ 57

def decimal (ds : Bytes) : Nat := ds.foldl (fun v d => v * 10 + (d.toNat - 48)) 0

/-- the length of an optional sign, and whether it is a minus -/
def signOf : Bytes → Nat × Bool
  | 45 :: _ => (1, true)
  | 43 :: _ => (1, false)
  | _ => (0, false)

structure Numeral where
  negative : Bool
  digits : Bytes
  /-- the bytes read, with white space and sign -/
  length : Nat

def numeral (s : Bytes) : Numeral :=
  let spaces := (s.takeWhile isSpace).length
  let sign := signOf (s.drop spaces)
  let ds := (s.drop (spaces + sign.1)).takeWhile isDigit
  if ds = [] then ⟨false, [], 0⟩ else ⟨sign.2, ds, spaces + sign.1 + ds.length⟩

/-- `strtol`; a value out of range is replaced by the nearest -/
def strtol (s : Bytes) : Int × Nat :=
  let m := numeral s
  (if m.negative then max (-decimal m.digits) (-2^63) else min (decimal m.digits) (2^63 - 1), m.length)

/-- `strtoull`; a value out of range is replaced by the largest, a minus negates modulo `2^64` -/
def strtoull (s : Bytes) : Nat :=
  let m := numeral s
  if 2^64 ≤ decimal m.digits then 2^64 - 1
  else if m.negative then (2^64 - decimal m.digits) % 2^64
  else decimal m.digits

/-- `ds` is a decimal representation of `n`, leading zeros allowed -/
structure IsDecimal (ds : Bytes) (n : Nat) : Prop where
  ne_nil : ds ≠ []
  digits : ∀ d ∈ ds, isDigit d = true
  value : decimal ds = n

lemma not_isSpace_of_isDigit {b : UInt8} (h : isDigit b = true) : isSpace b = false := by
  unfold isDigit at h
  unfold isSpace
  simp only [Bool.and_eq_true, decide_eq_true_eq, UInt8.le_iff_toNat_le, UInt8.reduceToNat] at h
  simp only [Bool.or_eq_false_iff, Bool.and_eq_false_iff, beq_eq_false_iff_ne, decide_eq_false_iff_not,
    UInt8.le_iff_toNat_le, UInt8.reduceToNat, ne_eq, ← UInt8.toNat_inj]
  omega

lemma takeWhile_digits {ds rest : Bytes} (hd : ∀ d ∈ ds, isDigit d = true)
    (hrest : ∀ b ∈ rest.head?, isDigit b = false) : (ds ++ rest).takeWhile isDigit = ds := by
  rw [takeWhile_append_of_pos hd]
  cases rest with
  | nil => rw [takeWhile_nil, append_nil]
  | cons b rest => rw [takeWhile_cons_of_neg (ne_true_of_eq_false (hrest b rfl)), append_nil]

variable {ws ds rest : Bytes} {n : Nat}

lemma signOf_digits (h : IsDecimal ds n) : signOf (ds ++ rest) = (0, false) := by
  obtain ⟨d, ds', rfl⟩ := exists_cons_of_ne_nil h.ne_nil
  have hdigit : isDigit d = true := h.digits d mem_cons_self
  unfold signOf
  split
  · rename_i he
    obtain ⟨rfl, -⟩ := cons.inj he
    cases hdigit
  · rename_i he
    obtain ⟨rfl, -⟩ := cons.inj he
    cases hdigit
  · rfl

lemma takeWhile_spaces (hws : ∀ b ∈ ws, isSpace b = true) (h : IsDecimal ds n) :
    (ws ++ (ds ++ rest)).takeWhile isSpace = ws := by
  obtain ⟨d, ds', rfl⟩ := exists_cons_of_ne_nil h.ne_nil
  have hdigit : isDigit d = true := h.digits d mem_cons_self
  have hspace : (d :: ds' ++ rest).takeWhile isSpace = [] :=
    takeWhile_cons_of_neg (ne_true_of_eq_false (not_isSpace_of_isDigit hdigit))
  rw [takeWhile_append_of_pos hws, hspace, append_nil]

lemma numeral_decimal (hws : ∀ b ∈ ws, isSpace b = true) (h : IsDecimal ds n)
    (hrest : ∀ b ∈ rest.head?, isDigit b = false) :
    numeral (ws ++ (ds ++ rest)) = ⟨false, ds, ws.length + ds.length⟩ := by
  unfold numeral
  simp only [takeWhile_spaces hws h, drop_left, signOf_digits h, add_zero,
    takeWhile_digits h.digits hrest, if_neg h.ne_nil]

lemma strtol_decimal (h : IsDecimal ds n) (hrest : ∀ b ∈ rest.head?, isDigit b = false) :
    strtol (ds ++ rest) = (min (n : Int) (2^63 - 1), ds.length) := by
  have hnum : numeral (ds ++ rest) = ⟨false, ds, 0 + ds.length⟩ := @numeral_decimal [] _ _ _ (nofun) h hrest
  unfold strtol
  simp only [hnum, h.value, Bool.false_eq_true, if_false, zero_add]

lemma strtoull_decimal (hws : ∀ b ∈ ws, isSpace b = true) (h : IsDecimal ds n)
    (hrest : ∀ b ∈ rest.head?, isDigit b = false) :
    strtoull (ws ++ (ds ++ rest)) = min n (2^64 - 1) := by
  unfold strtoull
  simp only [numeral_decimal hws h hrest, h.value, Bool.false_eq_true, if_false]
  split <;> omega

end OSW
