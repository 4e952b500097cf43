import OpenSwoole.Core.Integers

/-!
# Names in DNS packets

`domain_encode` and `domain_decode` of `src/network/dns.cc`.  Both rewrite a buffer in place: the bytes of
a name stay one behind where they are in the text, and the dots become the lengths of the labels.

* `domainEncode`, `domainDecode`   the code; `none` where a read or write is outside of the buffer;
* `wire`, `dotted`   the two forms of a list of labels;
* `domain_round_trip`   **`domain_encode` gives the wire form of every name, and `domain_decode` gives the
    name back**.
-/

namespace OSW.Dns
open List

/-- the scan for dots: `k` bytes are left, `pos` is where the length of the label goes -/
def encodeLoop : Nat → Nat → Nat → Bytes → Nat × Bytes
  | 0, _, pos, dest => (pos, dest)
  | k + 1, i, pos, dest =>
    if dest[i + 1]? = some dot then encodeLoop k (i + 1) (pos + (i - pos + 1)) (dest.set pos (i - pos).toUInt8)
    else encodeLoop k (i + 1) pos dest

/-- `domain_encode`: `n` bytes of `src` -/
def domainEncode (src : Bytes) (n : Nat) (dest : Bytes) : Option Bytes :=
  if src.length ≤ n ∨ dest.length < n + 3 ∨ src[n]? = some dot then none
  else
    let dest := dest.take 1 ++ src.take (n + 1) ++ dest.drop (n + 2)
    let (pos, dest) := encodeLoop (n + 1) 0 0 ((dest.set (n + 1) dot).set (n + 2) 0)
    some (dest.set pos 0)

def strlen (s : Bytes) : Nat := (s.takeWhile (· ≠ 0)).length

/-- the inner loop of `domain_decode` -/
def shift : Nat → Nat → Bytes → Option (Nat × Bytes)
  | 0, i, s => some (i, s)
  | k + 1, i, s =>
    match s[i + 1]? with
    | none => none
    | some b => shift k (i + 1) (s.set i b)

/-- a `char` as a `uint32_t` -/
def ofChar (b : UInt8) : Nat := if b.toNat < 128 then b.toNat else 2^32 - 256 + b.toNat

/-- the outer loop; the last dot becomes the end of the string -/
def decodeLoop : Nat → Nat → Bytes → Option Bytes
  | 0, _, _ => none
  | fuel + 1, i, s =>
    if i < strlen s then
      match shift (ofChar (s.getD i 0)) i s with
      | none => none
      | some (i, s) => decodeLoop fuel (i + 1) (s.set i dot)
    else if i = 0 then none else some (s.set (i - 1) 0)

def domainDecode (s : Bytes) : Option Bytes := decodeLoop (s.length + 1) 0 s

/-! ## labels -/

def wire (labels : List Bytes) : Bytes := labels.flatMap fun l => l.length.toUInt8 :: l

def dotted (labels : List Bytes) : Bytes := labels.flatMap fun l => l ++ [dot]

/-- 1 to 63 bytes other than dot and zero -/
structure IsLabel (l : Bytes) : Prop where
  pos : 0 < l.length
  le : l.length ≤ 63
  dot : dot ∉ l
  zero : 0 ∉ l

lemma length_wire (labels : List Bytes) :
    (wire labels).length = (dotted labels).length ∧ labels.length ≤ (wire labels).length := by
  induction labels with
  | nil => exact ⟨rfl, Nat.le_refl _⟩
  | cons l labels ih =>
    simp only [wire, dotted, flatMap_cons, length_append, length_cons, length_nil] at ih ⊢
    omega

variable {l p q r t : Bytes} {labels : List Bytes} {x : UInt8}

lemma getElem?_behind {b : UInt8} : (p ++ x :: (q ++ b :: r))[p.length + q.length + 1]? = some b := by
  rw [getElem?_append_right (by omega), show p.length + q.length + 1 - p.length = q.length + 1 by omega,
    getElem?_cons_succ, getElem?_append_right (Nat.le_refl _), Nat.sub_self, getElem?_cons_zero]

lemma encodeLoop_label (h : dot ∉ l) (k : Nat) :
    encodeLoop (l.length + k) (p.length + q.length) p.length (p ++ x :: (q ++ (l ++ r))) =
      encodeLoop k (p.length + q.length + l.length) p.length (p ++ x :: (q ++ (l ++ r))) := by
  induction l generalizing q with
  | nil => simp
  | cons b l ih =>
    rw [mem_cons, not_or] at h
    have hb : (p ++ x :: (q ++ (b :: l ++ r)))[p.length + q.length + 1]? = some b := getElem?_behind
    rw [length_cons, Nat.add_right_comm, encodeLoop, if_neg (by rw [hb]; simpa using Ne.symm h.1)]
    have := ih (q := q ++ [b]) h.2
    simp only [length_append, length_singleton, append_assoc, singleton_append, ← add_assoc] at this
    rw [cons_append, this]
    congr 1
    omega

/-- the labels behind `p` are taken one after the other -/
lemma encodeLoop_labels (h : ∀ l ∈ labels, dot ∉ l) : ∃ y, encodeLoop (dotted labels).length p.length p.length
    (p ++ x :: (dotted labels ++ t)) = (p.length + (dotted labels).length, p ++ (wire labels ++ y :: t)) := by
  induction labels generalizing p x with
  | nil => exact ⟨x, rfl⟩
  | cons l labels ih =>
    obtain ⟨y, hy⟩ := ih (p := p ++ l.length.toUInt8 :: l) (x := dot) fun l' hl' => h l' (mem_cons_of_mem _ hl')
    refine ⟨y, ?_⟩
    have hlabel := encodeLoop_label (p := p) (q := []) (x := x) (r := dot :: (dotted labels ++ t))
      (h l mem_cons_self) ((dotted labels).length + 1)
    have hd : dotted (l :: labels) = l ++ dot :: dotted labels := by simp [dotted]
    have hw : wire (l :: labels) = l.length.toUInt8 :: l ++ wire labels := by simp [wire]
    have hdot : (p ++ x :: (l ++ dot :: (dotted labels ++ t)))[p.length + l.length + 1]? = some dot :=
      getElem?_behind
    simp only [nil_append, length_nil, add_zero] at hlabel
    rw [hd, hw, length_append, length_cons, append_assoc, cons_append, hlabel, encodeLoop, if_pos hdot,
      Nat.add_sub_cancel_left, set_append_right _ _ (Nat.le_refl _), Nat.sub_self, set_cons_zero]
    simp only [length_append, length_cons, append_assoc, cons_append, ← add_assoc] at hy ⊢
    rw [hy]
    congr 1
    omega

lemma shift_label : ∃ y, shift l.length p.length (p ++ x :: (l ++ r)) =
    some (p.length + l.length, p ++ (l ++ y :: r)) := by
  induction l generalizing p x with
  | nil => exact ⟨x, rfl⟩
  | cons b l ih =>
    obtain ⟨y, hy⟩ := ih (p := p ++ [b]) (x := b)
    refine ⟨y, ?_⟩
    have hb : (p ++ x :: (b :: l ++ r))[p.length + 1]? = some b := by simp
    rw [length_cons, shift, hb]
    simp only [set_append_right _ _ (Nat.le_refl _), Nat.sub_self, set_cons_zero]
    simp only [length_append, length_singleton, append_assoc, singleton_append] at hy
    rw [cons_append, hy]
    congr 2
    omega

lemma takeWhile_append_zero (h : 0 ∉ p) : (p ++ 0 :: t).takeWhile (· ≠ 0) = p := by
  rw [takeWhile_append_of_pos fun b hb => ?_]
  · simp
  · exact decide_eq_true fun h0 : b = 0 => h (h0 ▸ hb)

lemma strlen_append_zero (h : 0 ∉ p) : strlen (p ++ 0 :: t) = p.length :=
  congrArg length (takeWhile_append_zero h)

lemma ofChar_length (h : l.length ≤ 63) : ofChar l.length.toUInt8 = l.length := by
  have : (l.length.toUInt8).toNat = l.length := UInt8.toNat_ofNat_of_lt' (Nat.lt_of_le_of_lt h (by decide))
  rw [ofChar, this, if_pos (by omega)]

lemma zero_notMem_wire (h : ∀ l ∈ labels, IsLabel l) : 0 ∉ wire labels := by
  intro h0
  obtain ⟨l, hl, h0⟩ := mem_flatMap.1 h0
  rcases mem_cons.1 h0 with h0 | h0
  · have := ofChar_length (h l hl).le
    rw [← h0] at this
    exact absurd (h l hl).pos (by rw [← this]; decide)
  · exact (h l hl).zero h0

/-- the labels behind `p`, a text that ends with a dot -/
lemma decodeLoop_labels (h : ∀ l ∈ labels, IsLabel l) (hpre : 0 ∉ p) (hne : p ++ dotted labels ≠ [])
    {n : Nat} (hfuel : labels.length < n) : decodeLoop n p.length (p ++ (wire labels ++ 0 :: t)) =
      some ((p ++ dotted labels).dropLast ++ 0 :: 0 :: t) := by
  induction labels generalizing p n with
  | nil =>
    obtain ⟨n, rfl⟩ : ∃ k, n = k + 1 := ⟨n - 1, by omega⟩
    obtain ⟨text, b, hb⟩ := (eq_nil_or_concat p).resolve_left (by simpa [dotted] using hne)
    have hlen : p.length = text.length + 1 := by simp [hb]
    rw [decodeLoop, wire, flatMap_nil, nil_append, strlen_append_zero hpre,
      if_neg (Nat.lt_irrefl _), if_neg (by omega)]
    simp [hb, dotted]
  | cons l labels ih =>
    obtain ⟨n, rfl⟩ : ∃ k, n = k + 1 := ⟨n - 1, by omega⟩
    have hl := h l mem_cons_self
    have hlabels : ∀ l' ∈ labels, IsLabel l' := fun l' hl' => h l' (mem_cons_of_mem _ hl')
    have hw : wire (l :: labels) = l.length.toUInt8 :: (l ++ wire labels) := by simp [wire]
    have hd : p ++ dotted (l :: labels) = (p ++ (l ++ [dot])) ++ dotted labels := by simp [dotted]
    have hlong : p.length < strlen (p ++ (wire (l :: labels) ++ 0 :: t)) := by
      rw [← append_assoc, strlen_append_zero (by simp [hpre, zero_notMem_wire h]), hw]
      simp
    have hget : (p ++ (wire (l :: labels) ++ 0 :: t)).getD p.length 0 = l.length.toUInt8 := by simp [hw]
    obtain ⟨y, hy⟩ := shift_label (p := p) (l := l) (x := l.length.toUInt8) (r := wire labels ++ 0 :: t)
    have hnext := ih (p := p ++ (l ++ [dot])) hlabels
      (by simp only [mem_append, mem_singleton, not_or]; exact ⟨hpre, hl.zero, by decide⟩) (by simp) (n := n)
      (by rw [length_cons] at hfuel; omega)
    rw [decodeLoop, if_pos hlong, hget, ofChar_length hl.le, hw, cons_append, append_assoc, hy, hd, ← hnext]
    simp [add_assoc]

/-! ## names -/

def text (labels : List Bytes) : Bytes := (dotted labels).dropLast

lemma text_append_dot (h : labels ≠ []) : text labels ++ [dot] = dotted labels := by
  obtain ⟨ls, l, rfl⟩ := (eq_nil_or_concat labels).resolve_left h
  simp [text, dotted]

theorem domain_round_trip (labels : List Bytes) (hne : labels ≠ [])
    (h : ∀ l ∈ labels, IsLabel l) (more dest : Bytes) (hdest : (text labels).length + 3 ≤ dest.length) :
    ∃ out back, domainEncode (text labels ++ 0 :: more) (text labels).length dest = some out ∧
      wire labels ++ [0] <+: out ∧ domainDecode out = some back ∧ back.takeWhile (· ≠ 0) = text labels := by
  have hdot := text_append_dot hne
  have hzero : 0 ∉ text labels := fun h0 => by
    obtain ⟨l, hl, h0⟩ := mem_flatMap.1 (hdot ▸ mem_append_left [dot] h0)
    rcases mem_append.1 h0 with h0 | h0
    · exact (h l hl).zero h0
    · exact absurd (mem_singleton.1 h0) (by decide)
  obtain ⟨d, e, t, hfirst, hlast⟩ : ∃ d e t, dest.take 1 = [d] ∧
      dest.drop ((text labels).length + 2) = e :: t := by
    obtain ⟨d, dest', rfl⟩ := exists_cons_of_length_pos (l := dest) (by omega)
    obtain ⟨e, t, he⟩ := exists_cons_of_length_pos (l := (d :: dest').drop ((text labels).length + 2))
      (by rw [length_drop]; omega)
    exact ⟨d, e, t, rfl, he⟩
  obtain ⟨y, hy⟩ := encodeLoop_labels (p := []) (x := d) (t := 0 :: t) fun l hl => (h l hl).dot
  refine ⟨wire labels ++ 0 :: 0 :: t, (dotted labels).dropLast ++ 0 :: 0 :: 0 :: t,
    ?_, ⟨0 :: t, by simp⟩, ?_, ?_⟩
  · have hcopy : (text labels ++ 0 :: more).take ((text labels).length + 1) = text labels ++ [0] := by
      simp [take_append, take_of_length_le]
    have hstart : ((([d] ++ (text labels ++ [0]) ++ e :: t).set ((text labels).length + 1) dot).set
        ((text labels).length + 2) 0) = d :: (dotted labels ++ 0 :: t) := by
      rw [← hdot]
      simp [set_append_right]
    have hlen : (text labels).length + 1 = (dotted labels).length := by simp [← hdot]
    unfold domainEncode
    rw [if_neg (by simp; exact ⟨by omega, by decide⟩), hfirst, hlast, hcopy]
    dsimp only
    rw [hstart, hlen]
    simp only [length_nil, nil_append, zero_add] at hy
    rw [hy, ← (length_wire labels).1]
    simp
  · exact decodeLoop_labels (p := []) h nofun (by rw [nil_append, ← hdot]; simp)
      (by have := (length_wire labels).2; simp only [length_append]; omega)
  · exact takeWhile_append_zero hzero

theorem domain_round_trip_two : ∃ out back, domainEncode (text [[97, 98], [99]] ++ 0 :: []) 4
    (replicate 7 1) = some out ∧ wire [[97, 98], [99]] ++ [0] <+: out ∧ domainDecode out = some back ∧
      back.takeWhile (· ≠ 0) = [97, 98, 46, 99] :=
  domain_round_trip [[97, 98], [99]] (by decide) (by
    intro l hl
    rcases mem_pair.1 hl with rfl | rfl <;> exact ⟨by decide, by decide, by decide, by decide⟩)
      [] (replicate 7 1) (by decide)

end OSW.Dns
