import OpenSwoole.Lib.Framing

/-!
# The first occurrence of a delimiter

`first d xs` is the position of the leftmost occurrence of `d` in `xs`.  A search may be resumed
at a later position when the earlier ones are known to be free of `d` (`Clean`), and
`eofLen d`, the length up to and including the first delimiter, is a length function in the sense
of `Framing`: the leftmost non-overlapping split at `d` is `frames (eofLen d)`.

* `first_append`   an occurrence that was found stays the first one;
* `eofLen_stable`   `eofLen d` is stable.
-/

namespace Framing
open List Option

variable {α : Type} [DecidableEq α]

/-- position of the leftmost occurrence of `d` -/
def first (d : List α) : List α → Option Nat
  | [] => none
  | x :: xs => if d.isPrefixOf (x :: xs) then some 0 else (first d xs).map (· + 1)

variable {d xs : List α} {j i o : Nat}

omit [DecidableEq α] in
lemma prefix_drop_append {ys : List α} (h : j + d.length ≤ xs.length) :
    d <+: (xs ++ ys).drop j ↔ d <+: xs.drop j := by
  rw [drop_append_of_le_length (by omega)]
  constructor
  · intro hp
    have hle : d.length ≤ (xs.drop j).length := by rw [length_drop]; omega
    exact prefix_of_prefix_length_le hp (prefix_append _ _) hle
  · intro hp
    exact hp.trans (prefix_append _ _)

omit [DecidableEq α] in
lemma prefix_drop_le (hd : d ≠ []) (h : d <+: xs.drop j) : j + d.length ≤ xs.length := by
  have h1 := h.length_le
  have h2 := length_pos_of_ne_nil hd
  rw [length_drop] at h1
  omega

lemma first_eq_none_iff (hd : d ≠ []) (xs : List α) : first d xs = none ↔ ∀ j, ¬ d <+: xs.drop j := by
  induction xs with
  | nil =>
    refine ⟨fun _ j hj => ?_, fun _ => rfl⟩
    have h1 := prefix_drop_le hd hj
    have h2 := length_pos_of_ne_nil hd
    rw [length_nil] at h1
    omega
  | cons x xs ih =>
    unfold first
    by_cases hp : d.isPrefixOf (x :: xs) = true
    · rw [if_pos hp]
      refine ⟨nofun, fun h => ?_⟩
      exact absurd (List.isPrefixOf_iff_prefix.1 hp) (h 0)
    · rw [if_neg hp, map_eq_none_iff, ih]
      constructor
      · intro h j
        cases j with
        | zero => exact fun hp' => hp (List.isPrefixOf_iff_prefix.2 hp')
        | succ j => exact h j
      · intro h j
        exact h (j + 1)

lemma first_eq_some_iff (hd : d ≠ []) (xs : List α) (i : Nat) :
    first d xs = some i ↔ d <+: xs.drop i ∧ ∀ j < i, ¬ d <+: xs.drop j := by
  induction xs generalizing i with
  | nil =>
    refine ⟨fun h => absurd h (by simp [first]), fun h => ?_⟩
    have h1 := prefix_drop_le hd h.1
    have h2 := length_pos_of_ne_nil hd
    rw [length_nil] at h1
    omega
  | cons x xs ih =>
    unfold first
    by_cases hp : d.isPrefixOf (x :: xs) = true
    · rw [if_pos hp]
      constructor
      · intro h
        obtain rfl : 0 = i := some.inj h
        exact ⟨List.isPrefixOf_iff_prefix.mp hp, fun j hj => absurd hj (Nat.not_lt_zero j)⟩
      · intro h
        cases i with
        | zero => rfl
        | succ i => exact absurd (List.isPrefixOf_iff_prefix.1 hp) (h.2 0 (Nat.succ_pos i))
    · rw [if_neg hp, map_eq_some_iff]
      constructor
      · rintro ⟨k, hk, rfl⟩
        obtain ⟨h1, h2⟩ := (ih k).1 hk
        refine ⟨h1, fun j hj => ?_⟩
        cases j with
        | zero => exact fun hp' => hp (List.isPrefixOf_iff_prefix.2 hp')
        | succ j => exact h2 j (by omega)
      · rintro ⟨h1, h2⟩
        cases i with
        | zero => exact absurd (List.isPrefixOf_iff_prefix.2 h1) hp
        | succ i => exact ⟨i, (ih i).2 ⟨h1, fun j hj => h2 (j + 1) (by omega)⟩, rfl⟩

lemma first_le (hd : d ≠ []) (h : first d xs = some i) : i + d.length ≤ xs.length :=
  prefix_drop_le hd ((first_eq_some_iff hd xs i).1 h).1

lemma first_append (hd : d ≠ []) (h : first d xs = some i) (ys : List α) :
    first d (xs ++ ys) = some i := by
  have hle := first_le hd h
  obtain ⟨h1, h2⟩ := (first_eq_some_iff hd xs i).1 h
  refine (first_eq_some_iff hd _ i).2 ⟨(prefix_drop_append hle).2 h1, fun j hj => ?_⟩
  rw [prefix_drop_append (by omega)]
  exact h2 j hj

/-! ## resuming a search -/

/-- no occurrence of `d` starts before position `o` -/
def Clean (d xs : List α) (o : Nat) : Prop := ∀ j < o, ¬ d <+: xs.drop j

omit [DecidableEq α] in
lemma Clean.mono {o' : Nat} (h : Clean d xs o) (ho : o' ≤ o) : Clean d xs o' := fun j hj => h j (by omega)

/-- a search that starts behind clean positions finds the first occurrence of all -/
lemma first_resume (hd : d ≠ []) (h : Clean d xs o) : first d xs = (first d (xs.drop o)).map (· + o) := by
  cases hf : first d (xs.drop o) with
  | none =>
    rw [first_eq_none_iff hd] at hf
    refine (first_eq_none_iff hd xs).2 (fun j => ?_)
    by_cases hj : j < o
    · exact h j hj
    · have := hf (j - o)
      rw [drop_drop] at this
      rwa [show o + (j - o) = j by omega] at this
  | some i =>
    rw [first_eq_some_iff hd] at hf
    refine (first_eq_some_iff hd xs (i + o)).2 ⟨?_, fun j hj => ?_⟩
    · have := hf.1
      rwa [drop_drop, Nat.add_comm] at this
    · by_cases hjo : j < o
      · exact h j hjo
      · have := hf.2 (j - o) (by omega)
        rw [drop_drop] at this
        rwa [show o + (j - o) = j by omega] at this

/-- after a failed search only the last `d.length - 1` positions can still start an occurrence -/
lemma clean_append (hd : d ≠ []) (h : first d xs = none) (ys : List α) :
    Clean d (xs ++ ys) (xs.length - d.length) := by
  intro j hj
  rw [prefix_drop_append (by omega)]
  exact (first_eq_none_iff hd xs).1 h j

/-! ## the split at a delimiter -/

/-- length of the first piece, its delimiter included -/
def eofLen (d : List α) (xs : List α) : Option Nat := (first d xs).map (· + d.length)

lemma eofLen_stable (hd : d ≠ []) : Stable (eofLen d) := by
  intro xs ys n h
  obtain ⟨i, hi, rfl⟩ := map_eq_some_iff.1 h
  unfold eofLen
  rw [first_append hd hi]
  rfl

lemma eofLen_complete (hd : d ≠ []) (h : first d xs = some i) :
    Complete (eofLen d) xs (i + d.length) := by
  have h1 := first_le hd h
  have h2 := length_pos_of_ne_nil hd
  refine ⟨?_, by omega, h1⟩
  unfold eofLen
  rw [h]
  rfl

lemma eofLen_not_complete (h : first d xs = none) (n : Nat) : ¬ Complete (eofLen d) xs n := by
  rintro ⟨h1, _⟩
  unfold eofLen at h1
  rw [h] at h1
  cases h1

end Framing
