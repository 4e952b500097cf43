import Mathlib.Tactic.Common

/-!
# Linked lists in a heap

Nodes are values of a type `ρ`; a field of the nodes is a function `next : ρ → Option ρ`.

* `Path next l e`   following `next` from the first node of `l` visits `l` in order and ends at `e`;
* `Path.unlink`, `Path.setEnd`, `Path.update`   what an assignment to `next` does to a path;
* `find`   the loop that looks for a node along a path, with the node before it;
* `find_hit`, `find_off`   what it finds.

A doubly linked list is a path along `next` and, reversed, a path along `pre`.
-/

namespace Chain
open List Function

variable {ρ : Type}

/-- the first node of `l`, or what comes after it -/
def first : List ρ → Option ρ → Option ρ
  | [], e => e
  | x :: _, _ => some x

lemma first_append (a b : List ρ) (e : Option ρ) : first (a ++ b) e = first a (first b e) := by
  cases a <;> rfl

def Path (next : ρ → Option ρ) : List ρ → Option ρ → Prop
  | [], _ => True
  | x :: l, e => next x = first l e ∧ Path next l e

section
variable {next next' : ρ → Option ρ} {l a b : List ρ} {e e' : Option ρ} {x u s : ρ}

lemma path_append : Path next (a ++ b) e ↔ Path next a (first b e) ∧ Path next b e := by
  induction a with
  | nil => simp [Path]
  | cons x a ih =>
    show next x = first (a ++ b) e ∧ Path next (a ++ b) e ↔ _
    rw [first_append, ih, ← and_assoc]
    rfl

lemma path_singleton : Path next [x] e ↔ next x = e := by simp [Path, first]

lemma Path.congr (h : Path next l e) (heq : ∀ x ∈ l, next' x = next x) : Path next' l e := by
  induction l with
  | nil => trivial
  | cons x l ih =>
    refine ⟨(heq x mem_cons_self).trans h.1, ih h.2 fun y hy => heq y ?_⟩
    exact mem_cons_of_mem x hy

variable [DecidableEq ρ]

lemma Path.update (h : Path next l e) (hx : x ∉ l) (v : Option ρ) : Path (update next x v) l e := by
  apply h.congr
  intro y hy
  rw [update_of_ne]
  rintro rfl
  exact hx hy

lemma Path.setEnd (h : Path next (l ++ [x]) e) (hx : x ∉ l) (e' : Option ρ) :
    Path (Function.update next x e') (l ++ [x]) e' := by
  rw [path_append] at h ⊢
  exact ⟨h.1.update hx e', path_singleton.2 (update_self x e' next)⟩

lemma Path.unlink (h : Path next (a ++ u :: s :: b) e) (hn : (a ++ u :: s :: b).Nodup) :
    Path (Function.update next u (first b e)) (a ++ u :: b) e := by
  rw [path_append] at h ⊢
  obtain ⟨-, ⟨hu, hn'⟩, ha⟩ := (nodup_append.1 hn).imp_right (And.imp_left nodup_cons.1)
  have hub : u ∉ b := fun hb => hu (mem_cons_of_mem s hb)
  have hua : u ∉ a := fun hm => ha u hm u mem_cons_self rfl
  refine ⟨h.1.update hua _, update_self u _ next, h.2.2.2.update hub _⟩

end

/-! ## search along a path -/

inductive Found (ρ : Type) where
  | hit (prev : Option ρ) (x : ρ)
  | off (last : ρ)

def find (next : ρ → Option ρ) (p : ρ → Bool) : Nat → Option ρ → ρ → Option (Found ρ)
  | 0, _, _ => none
  | fuel + 1, prev, x =>
    if p x then some (.hit prev x)
    else
      match next x with
      | none => some (.off x)
      | some y => find next p fuel (some x) y

variable {next : ρ → Option ρ} {p : ρ → Bool} {a b : List ρ} {x r : ρ} {e prev : Option ρ} {fuel : Nat}

/-- the search comes to the node behind those that are not hit -/
lemma find_skip (k : Nat) (h : Path next (a ++ x :: b) e) (hr : first (a ++ x :: b) none = some r)
    (ha : ∀ y ∈ a, p y = false) :
    find next p (a.length + (k + 1)) prev r = find next p (k + 1) (a.getLast?.or prev) x := by
  induction a generalizing r prev with
  | nil =>
    cases hr
    rw [length_nil, Nat.zero_add]
    rfl
  | cons y a ih =>
    cases hr
    obtain ⟨z, hz⟩ : ∃ z, first (a ++ x :: b) none = some z := by cases a <;> exact ⟨_, rfl⟩
    have hnext : next y = some z := by
      rw [h.1, ← hz]
      cases a <;> rfl
    rw [length_cons, Nat.add_right_comm, find, if_neg (ne_true_of_eq_false (ha y mem_cons_self)), hnext]
    dsimp only
    rw [ih h.2 hz fun w hw => ha w (mem_cons_of_mem y hw)]
    cases a with
    | nil => rfl
    | cons w a => rw [getLast?_cons_cons]; rfl

lemma find_hit (h : Path next (a ++ x :: b) e) (hr : first (a ++ x :: b) none = some r)
    (ha : ∀ y ∈ a, p y = false) (hx : p x = true) (hfuel : a.length < fuel) :
    find next p fuel prev r = some (.hit (a.getLast?.or prev) x) := by
  obtain ⟨k, rfl⟩ := Nat.exists_eq_add_of_lt hfuel
  rw [Nat.add_assoc, find_skip k h hr ha]
  exact if_pos hx

lemma find_off (h : Path next (a ++ [x]) none) (hr : first (a ++ [x]) none = some r)
    (ha : ∀ y ∈ a ++ [x], p y = false) (hfuel : a.length < fuel) :
    find next p fuel prev r = some (.off x) := by
  obtain ⟨k, rfl⟩ := Nat.exists_eq_add_of_lt hfuel
  rw [Nat.add_assoc, find_skip k h hr fun y hy => ha y (mem_append_left _ hy), find,
    if_neg (ne_true_of_eq_false (ha x mem_concat_self)), (path_append.1 h).2.1]
  rfl

end Chain
