import Mathlib.Logic.Function.Basic

/-!
# Partial maps

Functions into an `Option` that are changed at one place.

* `update_none_eq_some`   what is left when an entry is taken away;
* `update_some_eq_some`, `of_update_some`   what there is when an entry is set;
* `ne_of_some_of_none`   places with and without an entry differ.
-/

namespace PartialMap
open Function

variable {α β : Type} [DecidableEq α] {f : α → Option β} {a x : α} {v y : β}

lemma update_none_eq_some : update f a none x = some y ↔ x ≠ a ∧ f x = some y := by
  by_cases hx : x = a
  · rw [hx, update_self]
    exact iff_of_false (fun h => Option.some_ne_none _ h.symm) fun h => h.1 rfl
  · rw [update_of_ne hx]
    exact (and_iff_right hx).symm

lemma update_some_eq_some : update f a (some v) x = some y ↔ (x = a ∧ v = y) ∨ (x ≠ a ∧ f x = some y) := by
  by_cases hx : x = a
  · rw [hx, update_self, Option.some_inj]
    exact ⟨fun h => .inl ⟨rfl, h⟩, fun h => (h.resolve_right fun hne => hne.1 rfl).2⟩
  · rw [update_of_ne hx]
    exact ⟨fun h => .inr ⟨hx, h⟩, fun h => (h.resolve_left fun he => hx he.1).2⟩

lemma of_update_some (h : update f a (some v) x = some y) (hne : v ≠ y) : f x = some y :=
  ((update_some_eq_some.1 h).resolve_left fun he => hne he.2).2

omit [DecidableEq α] in
lemma ne_of_some_of_none (hx : f x = some y) (ha : f a = none) : x ≠ a := by
  rintro rfl
  cases hx.symm.trans ha

end PartialMap
