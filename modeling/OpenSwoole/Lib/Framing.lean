import Mathlib.Data.List.Basic

/-!
# Framing a stream by a length function

A length function `len` reads the length of the first frame off the symbols received so far;
`none` means that it cannot be told yet.  `frames len xs` cuts `xs` greedily into complete frames
and an incomplete tail.

* `Stable len`   once told, a length does not change when more symbols arrive;
* `frames_append`   framing may be done piece by piece: the tail of the first piece is put before the
    second.
-/

namespace Framing
open List

variable {α : Type}

/-- a length that has been told is not changed by later symbols -/
def Stable (len : List α → Option Nat) : Prop := ∀ xs ys n, len xs = some n → len (xs ++ ys) = some n

/-- the first frame of `xs` is complete and has `n` symbols -/
def Complete (len : List α → Option Nat) (xs : List α) (n : Nat) : Prop :=
  len xs = some n ∧ 0 < n ∧ n ≤ xs.length

/-- the complete frames at the head of a stream, and what is left of it -/
def frames (len : List α → Option Nat) (xs : List α) : List (List α) × List α :=
  match len xs with
  | none => ([], xs)
  | some n =>
    if _h : 0 < n ∧ n ≤ xs.length then
      (xs.take n :: (frames len (xs.drop n)).1, (frames len (xs.drop n)).2)
    else ([], xs)
termination_by xs.length
decreasing_by all_goals (rw [length_drop]; omega)

variable {len : List α → Option Nat}

variable {xs rcvd cur ys : List α} {n : Nat} {out : List (List α)}

lemma frames_step (h : Complete len xs n) :
    frames len xs = (xs.take n :: (frames len (xs.drop n)).1, (frames len (xs.drop n)).2) := by
  obtain ⟨hl, hn⟩ := h
  rw [frames, hl]
  simp only [hn, and_self, dif_pos]

lemma frames_stop (h : ∀ n, ¬ Complete len xs n) : frames len xs = ([], xs) := by
  rw [frames]
  cases hl : len xs with
  | none => rfl
  | some n =>
    have hn : ¬ (0 < n ∧ n ≤ xs.length) := fun hn => h n ⟨hl, hn⟩
    simp only [hn, dif_neg, not_false_eq_true]

section
variable (len)

lemma frames_cases (xs : List α) : (∃ n, Complete len xs n) ∨ ∀ n, ¬ Complete len xs n := by
  by_cases h : ∃ n, Complete len xs n
  · exact .inl h
  · exact .inr (fun n hn => h ⟨n, hn⟩)

lemma frames_induction {P : List α → Prop} (stop : ∀ xs, (∀ n, ¬ Complete len xs n) → P xs)
    (step : ∀ xs n, Complete len xs n → P (xs.drop n) → P xs) (xs : List α) : P xs := by
  induction hk : xs.length using Nat.strongRecOn generalizing xs with
  | ind k ih =>
    rcases frames_cases len xs with ⟨n, hn⟩ | hs
    · refine step xs n hn (ih (xs.drop n).length ?_ _ rfl)
      have h1 := hn.2.1
      have h2 := hn.2.2
      rw [length_drop]
      omega
    · exact stop xs hs

lemma frames_flatten (xs : List α) : (frames len xs).1.flatten ++ (frames len xs).2 = xs := by
  induction xs using frames_induction len with
  | stop xs h => rw [frames_stop h]; rfl
  | step xs n h ih =>
    rw [frames_step h]
    show (xs.take n ++ (frames len (xs.drop n)).1.flatten) ++ _ = _
    rw [append_assoc, ih, take_append_drop]

lemma frames_tail (xs : List α) : ∀ n, ¬ Complete len (frames len xs).2 n := by
  induction xs using frames_induction len with
  | stop xs h => rw [frames_stop h]; exact h
  | step xs n h ih => rw [frames_step h]; exact ih

end

lemma Complete.append (hs : Stable len) (h : Complete len xs n) (ys : List α) :
    Complete len (xs ++ ys) n := by
  refine ⟨hs xs ys n h.1, h.2.1, ?_⟩
  have := h.2.2
  rw [length_append]
  omega

lemma frames_append (hs : Stable len) (xs ys : List α) :
    frames len (xs ++ ys) = ((frames len xs).1 ++ (frames len ((frames len xs).2 ++ ys)).1,
      (frames len ((frames len xs).2 ++ ys)).2) := by
  induction xs using frames_induction len with
  | stop xs h => rw [frames_stop h]; rfl
  | step xs n h ih =>
    have hle := h.2.2
    rw [frames_step (h.append hs ys), frames_step h, take_append_of_le_length hle,
      drop_append_of_le_length hle, ih]
    rfl

/-! ## the receiver's invariant -/

/-- of the stream `rcvd` the frames `out` have been delivered and `cur` is still to be parsed -/
def Parsed (len : List α → Option Nat) (rcvd : List α) (out : List (List α)) (cur : List α) : Prop :=
  frames len rcvd = (out ++ (frames len cur).1, (frames len cur).2)

lemma Parsed.recv (hs : Stable len) (h : Parsed len rcvd out cur) (ys : List α) :
    Parsed len (rcvd ++ ys) out (cur ++ ys) := by
  unfold Parsed at h ⊢
  rw [frames_append hs rcvd, frames_append hs cur, h, append_assoc]

lemma Parsed.deliver (h : Parsed len rcvd out cur) (hc : Complete len cur n) :
    Parsed len rcvd (out ++ [cur.take n]) (cur.drop n) := by
  unfold Parsed at h ⊢
  rw [h, frames_step hc, append_assoc]
  rfl

lemma Parsed.final (h : Parsed len rcvd out cur) (hc : ∀ n, ¬ Complete len cur n) :
    frames len rcvd = (out, cur) := by
  rw [h, frames_stop hc, append_nil]

lemma Parsed.of_frames (h : frames len rcvd = (out, cur)) : Parsed len rcvd out cur := by
  have hc : frames len cur = ([], cur) := by
    have := frames_stop (frames_tail len rcvd)
    rwa [h] at this
  unfold Parsed
  rw [h, hc, append_nil]

/-! ## frame boundaries -/

/-- `ys` is left of `xs` after some complete frames -/
inductive Boundary (len : List α → Option Nat) : List α → List α → Prop
  | refl (xs : List α) : Boundary len xs xs
  | next {xs ys : List α} {n : Nat} : Boundary len xs ys → Complete len ys n → Boundary len xs (ys.drop n)

lemma Boundary.append (hs : Stable len) (h : Boundary len xs ys) (zs : List α) :
    Boundary len (xs ++ zs) (ys ++ zs) := by
  induction h with
  | refl => exact .refl _
  | next _ hc ih =>
    rw [← drop_append_of_le_length hc.2.2]
    exact ih.next (hc.append hs zs)

lemma Boundary.single (hl : len xs = some xs.length) (h : Boundary len xs ys) : ys = xs ∨ ys = [] := by
  induction h with
  | refl => exact .inl rfl
  | next _ hc ih =>
    rcases ih with rfl | rfl
    · have hn := hc.1
      rw [hl] at hn
      cases hn
      exact .inr drop_length
    · exact absurd hc.2.1 (Nat.not_lt.mpr hc.2.2)

lemma Boundary.deliver (hs : Stable len) {rest : List α} (h : Boundary len xs (cur ++ rest))
    (hc : Complete len cur n) : Boundary len xs (cur.drop n ++ rest) := by
  have := h.next (hc.append hs rest)
  rwa [drop_append_of_le_length hc.2.2] at this

end Framing
