import Mathlib.Data.List.Basic

/-!
# Computations that read a memory

A computation over a memory of cells gives a value, and leaves a list of the ranges that it has read, in
their order.  What it reads next may depend on what it has read.

* `Reads`   computations, with `pure` and `bind`, and `get` and `take` that read;
* `Within`   all that is read lies below a bound, with a rule for each of the four;
* `memory`, `take_memory`   a memory that begins with given cells, and what is read of them.
-/

/-- a range of a memory -/
structure Span where
  offset : Nat
  length : Nat
  deriving DecidableEq

def Span.Below (r : Span) (bound : Nat) : Prop := r.offset + r.length ≤ bound

instance (r : Span) (bound : Nat) : Decidable (r.Below bound) := inferInstanceAs (Decidable (_ ≤ _))

def Reads (β α : Type) : Type := (Nat → β) → α × List Span

namespace Reads
open List

variable {β α γ : Type}

instance : Monad (Reads β) where
  pure a := fun _ => (a, [])
  bind x f := fun m => ((f (x m).1 m).1, (x m).2 ++ (f (x m).1 m).2)

def get (offset : Nat) : Reads β β := fun m => (m offset, [⟨offset, 1⟩])

def take (offset length : Nat) : Reads β (List β) := fun m =>
  ((range length).map fun i => m (offset + i), [⟨offset, length⟩])

def value (x : Reads β α) (m : Nat → β) : α := (x m).1

def spans (x : Reads β α) (m : Nat → β) : List Span := (x m).2

@[simp] lemma value_pure (a : α) (m : Nat → β) : value (pure a : Reads β α) m = a := rfl

@[simp] lemma value_bind (x : Reads β α) (f : α → Reads β γ) (m : Nat → β) :
    value (x >>= f) m = value (f (value x m)) m := rfl

@[simp] lemma value_get (offset : Nat) (m : Nat → β) : value (get offset) m = m offset := rfl

/-! ## bounds -/

def Within (m : Nat → β) (bound : Nat) (x : Reads β α) : Prop := ∀ r ∈ spans x m, r.Below bound

instance (m : Nat → β) (bound : Nat) (x : Reads β α) : Decidable (Within m bound x) :=
  inferInstanceAs (Decidable (∀ r ∈ spans x m, _))

variable {m : Nat → β} {bound : Nat}

@[simp] lemma within_pure (a : α) : Within m bound (pure a : Reads β α) := by
  intro r hr
  cases hr

@[simp] lemma within_bind (x : Reads β α) (f : α → Reads β γ) :
    Within m bound (x >>= f) ↔ Within m bound x ∧ Within m bound (f (value x m)) :=
  forall_mem_append

@[simp] lemma within_get (offset : Nat) : Within m bound (get offset) ↔ offset + 1 ≤ bound :=
  forall_mem_singleton

@[simp] lemma within_take (offset length : Nat) : Within m bound (take offset length) ↔
    offset + length ≤ bound :=
  forall_mem_singleton

/-! ## what is read -/

def memory (cells : List β) (rest : Nat → β) (i : Nat) : β := cells[i]?.getD (rest (i - cells.length))

variable (cells : List β) (rest : Nat → β)
include cells rest

lemma getElem?_memory {i : Nat} (h : i < cells.length) : cells[i]? = some (memory cells rest i) := by
  rw [memory, getElem?_eq_getElem h, Option.getD_some]

lemma memory_eq_getD {i : Nat} (h : i < cells.length) (d : β) : memory cells rest i = cells.getD i d := by
  rw [getD_eq_getElem?_getD, getElem?_memory cells rest h, Option.getD_some]

lemma take_memory {offset length : Nat} (h : offset + length ≤ cells.length) :
    value (take offset length) (memory cells rest) = (cells.drop offset).take length := by
  apply ext_getElem?
  intro i
  show ((range length).map fun i => memory cells rest (offset + i))[i]? = _
  rw [getElem?_map, getElem?_take, getElem?_drop]
  by_cases hi : i < length
  · rw [getElem?_range hi, if_pos hi, getElem?_memory cells rest (by omega)]
    rfl
  · rw [if_neg hi, getElem?_eq_none (by simpa using hi)]
    rfl

end Reads
