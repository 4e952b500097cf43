import Mathlib.Algebra.GroupWithZero.Nat
import OpenSwoole.Core.Integers
import OpenSwoole.Lib.Machine

/-!
# `IOVector`

The entries of a vectored transfer, `src/network/socket.cc`.  An entry is the memory it describes;
`iterator` has the entries that are left, `remain_count` of them.  `update_iterator` is called with the
result of each `readv` or `writev`.

* `IOVector.updateIterator`   the code; `none` is `abort`;
* `locate_spec`   the entry in which a transfer ends.
-/

namespace OSW
open List Machine

structure IOVector where
  iov : List Bytes
  iterator : List Bytes
  index : Nat
  offsetBytes : Nat
  deriving DecidableEq

namespace IOVector

def make (iov : List Bytes) : IOVector := ⟨iov, iov, 0, 0⟩

/-- the loop: the entry `i` that reaches `n` bytes, and `_offset_bytes` -/
def locate (n : Nat) : List Bytes → Nat → Nat → Option (Nat × Nat)
  | [], _, _ => none
  | e :: es, i, total =>
    if n ≤ total + e.length then some (i, e.length - (total + e.length - n))
    else locate n es (i + 1) (total + e.length)

/-- the body of the loop at the entry `i` -/
def advance (v : IOVector) (i offset : Nat) : IOVector :=
  let before := if 0 < i then 0 else v.offsetBytes
  if some offset = v.iterator[i]?.map length then
    { v with iterator := v.iterator.drop (i + 1), index := v.index + (i + 1), offsetBytes := before }
  else
    { v with
      iterator := (v.iterator.drop i).modifyHead (drop offset)
      index := v.index + i
      offsetBytes := before + offset }

def updateIterator (n : Int) (v : IOVector) : Option IOVector :=
  if n ≤ 0 ∨ v.iterator = [] then some v
  else (locate n.toNat v.iterator 0 0).map fun r => v.advance r.1 r.2

def transferred (ns : List Int) : Nat := (ns.map Int.toNat).sum

/-- the entries from `index` on, the first one without `offset_bytes` bytes, are left at byte `t` -/
structure At (v : IOVector) (t : Nat) : Prop where
  left : v.iterator = (v.iov.drop v.index).modifyHead (drop v.offsetBytes)
  inside : ∀ e ∈ (v.iov.drop v.index).head?, v.offsetBytes ≤ e.length
  done : v.iov.drop v.index = [] → v.offsetBytes = 0
  position : t = (v.iov.take v.index).flatten.length + v.offsetBytes

/-- the transfer does not end where the first entry ends, if that entry was begun before -/
def Fresh (n : Int) (v : IOVector) : Prop := v.offsetBytes = 0 ∨ v.iterator.head?.map length ≠ some n.toNat

instance (n : Int) (v : IOVector) : Decidable (Fresh n v) := inferInstanceAs (Decidable (_ ∨ _))

section
variable {v : IOVector} {n t : Nat}

lemma locate_spec (es : List Bytes) (i : Nat) {total : Nat} (hn : total < n)
    (hle : n ≤ total + es.flatten.length) :
    ∃ before e after o, es = before ++ e :: after ∧ locate n es i total = some (i + before.length, o) ∧
      0 < o ∧ o ≤ e.length ∧ n = total + before.flatten.length + o := by
  induction es generalizing i total with
  | nil => simp at hle; omega
  | cons e es ih =>
    unfold locate
    split
    · exact ⟨[], e, es, _, rfl, rfl, by omega, by omega, by simp; omega⟩
    · rename_i hlt
      simp only [flatten_cons, length_append] at hle
      obtain ⟨before, e', after, o, rfl, hloc, h0, ho, hsum⟩ := ih (i + 1) (Nat.lt_of_not_le hlt) (by omega)
      refine ⟨e :: before, e', after, o, rfl, ?_, h0, ho, ?_⟩
      · rw [hloc, length_cons, Nat.add_right_comm, add_assoc]
      · simp only [flatten_cons, length_append]
        omega

lemma At.make (iov : List Bytes) : (make iov).At 0 := by
  refine ⟨?_, by simp [IOVector.make], fun _ => rfl, rfl⟩
  cases iov <;> rfl

lemma At.flatten (h : v.At t) : v.iterator.flatten = v.iov.flatten.drop t := by
  have hsplit := congrArg List.flatten (take_append_drop v.index v.iov)
  rw [flatten_append] at hsplit
  rw [← hsplit, h.left, h.position, drop_append, drop_of_length_le (Nat.le_add_right _ _), nil_append,
    Nat.add_sub_cancel_left]
  cases hrest : v.iov.drop v.index with
  | nil => simp
  | cons e es =>
    have hle := h.inside e (by simp [hrest])
    simp [drop_append_of_le_length hle]

lemma at_passed (v : IOVector) {v' : IOVector} (passed rest : List Bytes) (hiov : v'.iov = v.iov)
    (hdrop : v.iov.drop v.index = passed ++ rest) (hindex : v'.index = v.index + passed.length)
    (hleft : v'.iterator = rest.modifyHead (drop v'.offsetBytes))
    (hin : ∀ e ∈ rest.head?, v'.offsetBytes ≤ e.length) (hend : rest = [] → v'.offsetBytes = 0)
    (ht : t = (v.iov.take v.index).flatten.length + passed.flatten.length + v'.offsetBytes) : v'.At t := by
  have hrest : v'.iov.drop v'.index = rest := by rw [hiov, hindex, ← drop_drop, hdrop, drop_left]
  refine ⟨by rw [hrest, hleft], by rwa [hrest], by rwa [hrest], ?_⟩
  rw [ht, hiov, hindex, take_add, hdrop, take_left, flatten_append, length_append]

lemma advance_eq {before after : List Bytes} {e : Bytes} (hit : v.iterator = before ++ e :: after) (o : Nat) :
    v.advance before.length o = if o = e.length then
        { v with
          iterator := after
          index := v.index + (before.length + 1)
          offsetBytes := if before = [] then v.offsetBytes else 0 }
      else
        { v with
          iterator := e.drop o :: after
          index := v.index + before.length
          offsetBytes := (if before = [] then v.offsetBytes else 0) + o } := by
  cases before <;> simp [advance, hit]

/-- **one transfer** that ends inside of the entries left -/
theorem At.update (h : v.At t) (hn : 0 < n) (hle : n ≤ v.iterator.flatten.length) (hf : Fresh n v) :
    ∃ v', updateIterator n v = some v' ∧ v'.At (t + n) ∧ v'.iov = v.iov := by
  obtain ⟨before, e, after, o, hit, hloc, hpos, ho, hsum⟩ := locate_spec v.iterator 0 hn (by rwa [zero_add])
  have hstep : updateIterator n v = some (v.advance before.length o) := by
    unfold updateIterator
    rw [if_neg (by simp [hit]; omega), Int.toNat_natCast, hloc, zero_add]
    rfl
  rw [advance_eq hit] at hstep
  have hleft := h.left
  have ht := h.position
  cases hdrop : v.iov.drop v.index with
  | nil => simp [hit, hdrop] at hleft
  | cons r rest =>
    have hr := h.inside r (by simp [hdrop])
    rw [hdrop, hit] at hleft
    cases before with
    | nil =>
      obtain ⟨rfl, rfl⟩ := cons.inj hleft
      simp only [flatten_nil, length_nil, if_true] at hstep hsum
      by_cases hend : o = (r.drop v.offsetBytes).length
      · -- the end of the entry: only a fresh transfer leaves `offset_bytes` right
        have hzero : v.offsetBytes = 0 := hf.resolve_right fun hne => hne (by simp [hit, hsum, hend])
        rw [if_pos hend] at hstep
        refine ⟨_, hstep, at_passed v [r] after rfl hdrop rfl ?_ ?_ (fun _ => hzero) ?_, rfl⟩
        · cases after <;> simp [hzero]
        · simp [hzero]
        · simp only [flatten_cons, flatten_nil, append_nil, length_drop, hzero] at hend ⊢
          omega
      · rw [if_neg hend] at hstep
        rw [length_drop] at ho hend
        refine ⟨_, hstep, at_passed v [] (r :: after) rfl hdrop rfl ?_ ?_ (by simp) ?_, rfl⟩
        · simp [drop_drop]
        · simp
          omega
        · simp only [flatten_nil, length_nil]
          omega
    | cons b bs =>
      obtain ⟨rfl, rfl⟩ := cons.inj hleft
      simp only [reduceCtorEq, if_false, flatten_cons, length_append, length_drop] at hstep hsum
      by_cases hend : o = e.length
      · rw [if_pos hend] at hstep
        refine ⟨_, hstep, at_passed v (r :: bs ++ [e]) after rfl (by simpa using hdrop) (by simp) ?_ (by simp)
          (by simp) ?_, rfl⟩
        · cases after <;> simp
        · simp only [flatten_append, flatten_cons, flatten_nil, length_append, append_nil]
          omega
      · rw [if_neg hend] at hstep
        refine ⟨_, hstep, at_passed v (r :: bs) (e :: after) rfl hdrop rfl (by simp)
          (by simpa using ho) (by simp) ?_, rfl⟩
        simp only [flatten_cons, length_append]
        omega

lemma At.run {ns : List Int} (h : v.At t) (hle : t + transferred ns ≤ v.iov.flatten.length)
    (hf : Along updateIterator Fresh ns v) :
    ∃ v', iter updateIterator ns v = some v' ∧ v'.At (t + transferred ns) ∧ v'.iov = v.iov := by
  induction ns generalizing v t with
  | nil => exact ⟨v, rfl, h, rfl⟩
  | cons n ns ih =>
    have hsum : t + transferred (n :: ns) = t + n.toNat + transferred ns := by simp [transferred, add_assoc]
    rw [hsum] at hle ⊢
    obtain ⟨hn, hrest⟩ := hf
    obtain ⟨v₁, hv₁, h₁, hiov⟩ : ∃ v', updateIterator n v = some v' ∧ v'.At (t + n.toNat) ∧ v'.iov = v.iov := by
      by_cases hpos : 0 < n
      · obtain ⟨n, rfl⟩ := Int.eq_ofNat_of_zero_le (le_of_lt hpos)
        apply h.update (Int.natCast_pos.1 hpos) _ hn
        rw [h.flatten, length_drop]
        omega
      · have hn0 := not_lt.1 hpos
        refine ⟨v, if_pos (.inl hn0), ?_, rfl⟩
        rwa [Int.toNat_of_nonpos hn0]
    obtain ⟨v', hv', h', hiov'⟩ := ih h₁ (by rwa [hiov]) (hrest v₁ hv₁)
    refine ⟨v', ?_, h', hiov'.trans hiov⟩
    rw [Machine.iter, hv₁]
    exact hv'

end

/-- **The position is exact** when every transfer was fresh. -/
theorem updateIterator_tracks (iov : List Bytes) (ns : List Int) (hT : transferred ns ≤ iov.flatten.length)
    (hf : Along updateIterator Fresh ns (make iov)) :
    ∃ v, iter updateIterator ns (make iov) = some v ∧
      v.iterator.flatten = iov.flatten.drop (transferred ns) ∧
      transferred ns = (iov.take v.index).flatten.length + v.offsetBytes := by
  obtain ⟨v, hv, hat, hiov⟩ := (At.make iov).run (by rwa [zero_add]) hf
  rw [zero_add] at hat
  refine ⟨v, hv, ?_, ?_⟩
  · simpa [hiov, make] using hat.flatten
  · have hpos := hat.position
    rwa [hiov] at hpos

theorem updateIterator_tracks_two :
    ∃ v, iter updateIterator [2, 4] (make [[1, 2, 3], [4, 5], [6, 7]]) = some v ∧ v.iterator.flatten = [7] ∧
      6 = (([[1, 2, 3], [4, 5], [6, 7]] : List Bytes).take v.index).flatten.length + v.offsetBytes :=
  updateIterator_tracks [[1, 2, 3], [4, 5], [6, 7]] [2, 4] (by decide) (by decide)

/-- `offset_bytes` keeps the 2 bytes of the first transfer: the position reads as byte 7 instead of byte 5 -/
theorem updateIterator_stale_offset : transferred [2, 3] = 5 ∧
      iter updateIterator [2, 3] (make [[1, 2, 3, 4, 5], [6, 7, 8, 9, 10]]) =
        some ⟨[[1, 2, 3, 4, 5], [6, 7, 8, 9, 10]], [[6, 7, 8, 9, 10]], 1, 2⟩ := by
  decide

end IOVector

end OSW
