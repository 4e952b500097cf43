import OpenSwoole.Server.StaticHandler

/-!
# `url_encode`

`url_encode` of `src/protocol/http.cc`; `url_decode` is in the model of the static file handler.  The
encoder writes into `3 * len` bytes, and a byte behind them gives `none`.

* `urlEncode`   the loop and the zero behind its output;
* `IsEncoded`   unreserved characters and `%XX` escapes.
-/

namespace OSW
open List

def hexchars : Bytes := [48, 49, 50, 51, 52, 53, 54, 55, 56, 57, 65, 66, 67, 68, 69, 70]

/-- the test of the encoder; `char` is signed -/
def urlReserved (c : Int8) : Bool :=
  c < 48 && c != 45 && c != 46 || c < 65 && 57 < c || 90 < c && c < 97 && c != 95 || 122 < c && c != 126

def hexHigh (c : UInt8) : UInt8 := hexchars.getD (c >>> 4).toNat 0
def hexLow (c : UInt8) : UInt8 := hexchars.getD (c &&& 15).toNat 0

def urlEscape (c : UInt8) : Bytes := if urlReserved c.toInt8 then [37, hexHigh c, hexLow c] else [c]

/-- `ret[y++] = c` -/
def put (size : Nat) (ret : Bytes) (c : UInt8) : Option Bytes :=
  if ret.length < size then some (ret ++ [c]) else none

def urlEncode (x : Bytes) : Option Bytes :=
  (x.foldlM (fun ret c => (urlEscape c).foldlM (put (x.length * 3)) ret) []).bind fun ret =>
    (put (x.length * 3) ret 0).map fun _ => ret

/-- the unreserved characters of RFC 3986 -/
def unreserved (c : UInt8) : Bool :=
  isdigit c || isupper c || (97 ≤ c && c ≤ 122) || [45, 46, 95, 126].contains c

inductive IsEncoded : Bytes → Prop
  | nil : IsEncoded []
  | plain {c : UInt8} {rest : Bytes} (hc : unreserved c = true) (h : IsEncoded rest) : IsEncoded (c :: rest)
  | escape {a b : UInt8} {rest : Bytes} (ha : isxdigit a = true) (hb : isxdigit b = true) (h : IsEncoded rest) :
    IsEncoded (37 :: a :: b :: rest)

/-! ## bytes -/

lemma urlReserved_eq : ∀ c : UInt8, urlReserved c.toInt8 = !unreserved c :=
  forall_byte (by decide +kernel)

lemma unreserved_plain : ∀ c : UInt8, unreserved c = true → c ≠ 37 ∧ urlPlain c = c :=
  forall_byte (by decide +kernel)

lemma urlHtoi_hex : ∀ c : UInt8, isxdigit (hexHigh c) = true ∧ isxdigit (hexLow c) = true ∧
    urlHtoi (hexHigh c) (hexLow c) = c :=
  forall_byte (by decide +kernel)

lemma urlEscape_eq (c : UInt8) : urlEscape c = if unreserved c then [c] else [37, hexHigh c, hexLow c] := by
  rw [urlEscape, urlReserved_eq]
  cases unreserved c <;> rfl

lemma urlDecode_cons {c : UInt8} (hc : c ≠ 37) (rest : Bytes) :
    urlDecode (c :: rest) = urlPlain c :: urlDecode rest := by
  rcases rest with _ | ⟨a, _ | ⟨b, rest⟩⟩
  · rfl
  · rfl
  · exact if_neg fun h => hc h.1

lemma urlDecode_urlEscape (c : UInt8) (rest : Bytes) :
    urlDecode (urlEscape c ++ rest) = c :: urlDecode rest := by
  rw [urlEscape_eq]
  cases hc : unreserved c with
  | true =>
    obtain ⟨hne, hplain⟩ := unreserved_plain c hc
    exact (urlDecode_cons hne rest).trans (by rw [hplain])
  | false =>
    obtain ⟨ha, hb, hc⟩ := urlHtoi_hex c
    exact (if_pos ⟨rfl, ha, hb⟩).trans (by rw [hc]; rfl)

lemma IsEncoded.urlEscape {rest : Bytes} (c : UInt8) (h : IsEncoded rest) : IsEncoded (urlEscape c ++ rest) := by
  rw [urlEscape_eq]
  cases hc : unreserved c with
  | true => exact .plain hc h
  | false =>
    obtain ⟨ha, hb, -⟩ := urlHtoi_hex c
    exact .escape ha hb h

/-! ## the loop -/

lemma foldlM_put {size : Nat} (l ret : Bytes) (h : ret.length + l.length ≤ size) :
    l.foldlM (put size) ret = some (ret ++ l) := by
  induction l generalizing ret with
  | nil => simp
  | cons c l ih =>
    rw [length_cons] at h
    rw [foldlM_cons, put, if_pos (by omega)]
    exact (ih _ (by simp; omega)).trans (by simp)

lemma length_urlEscape (c : UInt8) : (urlEscape c).length = if unreserved c then 1 else 3 := by
  rw [urlEscape_eq]
  cases unreserved c <;> rfl

lemma urlEncode_loop {size : Nat} (x ret : Bytes) (h : ret.length + x.length * 3 ≤ size) :
    x.foldlM (fun ret c => (urlEscape c).foldlM (put size) ret) ret = some (ret ++ x.flatMap urlEscape) := by
  induction x generalizing ret with
  | nil => simp
  | cons c x ih =>
    have hc := length_urlEscape c
    have hle : (urlEscape c).length ≤ 3 := by split at hc <;> omega
    rw [length_cons] at h
    rw [foldlM_cons, foldlM_put _ _ (by omega)]
    exact (ih _ (by rw [length_append]; omega)).trans (by simp)

lemma length_flatMap_urlEscape (x : Bytes) :
    (x.flatMap urlEscape).length + 2 * x.countP unreserved = x.length * 3 := by
  induction x with
  | nil => rfl
  | cons c x ih =>
    rw [flatMap_cons, length_append, length_cons, length_urlEscape, countP_cons]
    split <;> omega

lemma isEncoded_flatMap (x : Bytes) : IsEncoded (x.flatMap urlEscape) := by
  induction x with
  | nil => exact .nil
  | cons c x ih => exact ih.urlEscape c

lemma urlDecode_flatMap (x : Bytes) : urlDecode (x.flatMap urlEscape) = x := by
  induction x with
  | nil => rfl
  | cons c x ih => rw [flatMap_cons, urlDecode_urlEscape, ih]

/-- **The encoder stays in its memory exactly if a byte is unreserved**; its output is then encoded, and is
decoded to what it was. -/
theorem url_round_trip_iff (x : Bytes) :
    (∃ y, urlEncode x = some y ∧ IsEncoded y ∧ urlDecode y = x) ↔ ∃ c ∈ x, unreserved c = true := by
  have hlen := length_flatMap_urlEscape x
  rw [urlEncode, urlEncode_loop x [] (by simp), nil_append, Option.bind_some, put, ← countP_pos_iff]
  constructor
  · rintro ⟨y, hy, -⟩
    by_contra hzero
    rw [if_neg (by omega)] at hy
    cases hy
  · intro hpos
    rw [if_pos (by omega)]
    exact ⟨_, rfl, isEncoded_flatMap x, urlDecode_flatMap x⟩

/-- a space is three characters, and the zero is written behind them -/
theorem urlEncode_space : urlEncode [32] = none := by decide

end OSW
