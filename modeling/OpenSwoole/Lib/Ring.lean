import Mathlib.Algebra.BigOperators.Group.List.Basic
import Mathlib.Algebra.GroupWithZero.Nat

/-!
# Rings with an overflow area

Items of different sizes are put one after the other into a store of `cap` cells.  An item starts
below `cap` and may run past it; the next one then starts at `0` again.

* `Shape.pop`, `push_flat`, `push_wrap`, `push_wrapped`   what adding and removing an item do.
-/

namespace Ring
open List

variable {α : Type} (size : α → Nat) (cap : Int)

/-- the items of `q`, with their addresses, lie one after the other from `a` to `e` -/
def Laid : Int → List (Int × α) → Int → Prop
  | a, [], e => a = e
  | a, m :: q, e => m.1 = a ∧ a < cap ∧ Laid (a + size m.2) q e

variable {size cap}

variable {a e head tail : Int} {q : List (Int × α)} {m : Int × α} {M : Nat} {x : α} {w : Bool}

section
variable (h : Laid size cap a q e)
include h

lemma Laid.snoc (he : e < cap) (x : α) : Laid size cap a (q ++ [(e, x)]) (e + size x) := by
  induction q generalizing a with
  | nil =>
    obtain rfl : a = e := h
    exact ⟨rfl, he, rfl⟩
  | cons m q ih => exact ⟨h.1, h.2.1, ih h.2.2⟩

lemma Laid.le : a ≤ e := by
  induction q generalizing a with
  | nil => exact Int.le_of_eq h
  | cons m q ih =>
    have := ih h.2.2
    omega

lemma Laid.mem (hm : m ∈ q) : a ≤ m.1 ∧ m.1 + size m.2 ≤ e := by
  induction q generalizing a with
  | nil => cases hm
  | cons x q ih =>
    have hle := Laid.le h.2.2
    rcases mem_cons.1 hm with rfl | hm
    · have := h.1
      omega
    · have := ih h.2.2 hm
      omega

lemma Laid.sum : e = a + ((q.map fun m => size m.2).sum : Nat) := by
  induction q generalizing a with
  | nil =>
    obtain rfl : a = e := h
    simp
  | cons m q ih =>
    have := ih h.2.2
    rw [map_cons, sum_cons]
    omega

lemma Laid.end_lt (ha : a < cap) (hM : ∀ m ∈ q, size m.2 ≤ M) : e < cap + M := by
  induction q generalizing a with
  | nil =>
    obtain rfl : a = e := h
    omega
  | cons m q ih =>
    have hm := hM m mem_cons_self
    cases q with
    | nil =>
      have he : a + size m.2 = e := h.2.2
      omega
    | cons y q => exact ih h.2.2 h.2.2.2.1 (fun x hx => hM x (mem_cons_of_mem _ hx))

end

variable (size cap)

/-- the items of a ring with the given head and tail, oldest first; the flag tells whether the tail
has started again at `0` and the head has not -/
inductive Shape (head tail : Int) : Bool → List (Int × α) → Prop
  | flat {q : List (Int × α)} (h0 : 0 ≤ head) (hq : Laid size cap head q tail) (ht : tail < cap) :
      Shape head tail false q
  | wrapped {q r : List (Int × α)} {e : Int} (h0 : 0 ≤ head) (hq : Laid size cap head q e)
      (he : cap ≤ e) (hr : Laid size cap 0 r tail) (hle : tail ≤ head) (hh : head < cap) :
      Shape head tail true (q ++ r)

variable {size cap}

lemma Shape.push_flat (h : Shape size cap head tail false q) (hx : tail + size x < cap) :
    Shape size cap head (tail + size x) false (q ++ [(tail, x)]) := by
  cases h with
  | flat h0 hq ht => exact .flat h0 (hq.snoc ht x) hx

lemma Shape.push_wrap (h : Shape size cap head tail false q) (hx : cap ≤ tail + size x) :
    Shape size cap head 0 true (q ++ [(tail, x)]) := by
  cases h with
  | flat h0 hq ht =>
    have hle := hq.le
    rw [← append_nil (q ++ _)]
    exact .wrapped h0 (hq.snoc ht x) hx rfl h0 (by omega)

lemma Shape.push_wrapped (h : Shape size cap head tail true q) (hx : tail + size x ≤ head) :
    Shape size cap head (tail + size x) true (q ++ [(tail, x)]) := by
  generalize hw : true = w at h
  cases h with
  | flat => cases hw
  | wrapped h0 hq he hr hle hh =>
    rw [append_assoc]
    exact .wrapped h0 hq he (hr.snoc (by omega) x) hx hh

/-- the oldest item is at the head; behind it the ring goes on, at `0` when the item reached `cap` -/
lemma Shape.pop (h : Shape size cap head tail w (m :: q)) :
    m.1 = head ∧ (head + size m.2 < cap → Shape size cap (head + size m.2) tail w q) ∧
      (cap ≤ head + size m.2 → w = true ∧ Shape size cap 0 tail false q) := by
  generalize hl : m :: q = l at h
  cases h with
  | flat h0 hq ht =>
    subst hl
    have hle := Laid.le hq.2.2
    exact ⟨hq.1, fun _ => .flat (by omega) hq.2.2 ht, fun hc => absurd hc (by omega)⟩
  | @wrapped q1 r e h0 hq he hr hle hh =>
    cases q1 with
    | nil =>
      obtain rfl : head = e := hq
      omega
    | cons y q1 =>
      obtain ⟨rfl, rfl⟩ : m = y ∧ q = q1 ++ r := by simpa using hl
      refine ⟨hq.1, fun hc => .wrapped (by omega) hq.2.2 he hr (by omega) hc, fun hc => ⟨rfl, ?_⟩⟩
      cases q1 with
      | nil => exact .flat (Int.le_refl 0) hr (by omega)
      | cons z q1 => exact absurd hq.2.2.2.1 (by omega)

variable (h : Shape size cap head tail w q)
include h

/-- an item behind the tail, below the head when the ring is wrapped, meets no item of the ring -/
lemma Shape.apart {n : Nat} (hn : w = true → tail + n ≤ head) (hm : m ∈ q) : m.1 + size m.2 ≤ tail ∨
    tail + n ≤ m.1 := by
  cases h with
  | flat h0 hq ht => exact .inl (hq.mem hm).2
  | wrapped h0 hq he hr hle hh =>
    rcases mem_append.1 hm with hm | hm
    · have := (hq.mem hm).1
      have := hn rfl
      exact .inr (by omega)
    · exact .inl (hr.mem hm).2

lemma Shape.bounds : 0 ≤ head ∧ head < cap ∧ 0 ≤ tail ∧ tail < cap ∧ (w = true → tail ≤ head) ∧
      (w = false → head ≤ tail) := by
  cases h with
  | flat h0 hq ht =>
    have := hq.le
    exact ⟨h0, by omega, by omega, ht, nofun, fun _ => this⟩
  | wrapped h0 hq he hr hle hh =>
    have := hr.le
    exact ⟨h0, hh, this, by omega, fun _ => hle, nofun⟩

lemma Shape.sum_lt (hM : ∀ m ∈ q, size m.2 ≤ M) : ((q.map fun m => size m.2).sum : Nat) < cap + M := by
  cases h with
  | flat h0 hq ht =>
    have := hq.sum
    omega
  | wrapped h0 hq he hr hle hh =>
    have h1 := hq.sum
    have h2 := hr.sum
    have h3 := hq.end_lt hh (fun m hm => hM m (mem_append_left _ hm))
    rw [map_append, sum_append]
    omega

end Ring
