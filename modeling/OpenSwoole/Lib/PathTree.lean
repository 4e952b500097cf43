import Mathlib.Tactic.Common

/-!
# Paths in a tree of directories

A tree without links is a function from paths (lists of names, from the root on) to what is there.

* `Step`   a component of a path: stay, go up, go down to a name;
* `resolve`   the path a list of steps leads to, without looking at a tree;
* `Tree.walk`   the same in a tree, where every step starts at a directory and leads to something;
* `walk_eq_resolve`   a walk that succeeds ends at the resolved path;
* `Tree.full`   the tree where every path is a directory, in which every walk succeeds.
-/

namespace PathTree

variable {ν κ : Type}

inductive Step (ν : Type) where
  | here
  | up
  | name (x : ν)

/-- one step from `cur`; the root is its own parent -/
def move (cur : List ν) : Step ν → List ν
  | .here => cur
  | .up => cur.dropLast
  | .name x => cur ++ [x]

def resolve (cur : List ν) (steps : List (Step ν)) : List ν := steps.foldl move cur

/-- a tree: what is below a path is below a directory -/
structure Tree (ν : Type) {κ : Type} (dir : κ) where
  kind : List ν → Option κ
  root : kind [] = some dir
  parent : ∀ p x, (kind (p ++ [x])).isSome → kind p = some dir

namespace Tree
variable {dir : κ} [DecidableEq κ]

def walk (t : Tree ν dir) : List ν → List (Step ν) → Option (List ν)
  | cur, [] => some cur
  | cur, s :: steps =>
    if t.kind cur = some dir ∧ (t.kind (move cur s)).isSome then t.walk (move cur s) steps else none

lemma walk_eq_resolve {t : Tree ν dir} {cur p : List ν} {steps : List (Step ν)}
    (h : t.walk cur steps = some p) : p = resolve cur steps := by
  induction steps generalizing cur with
  | nil => exact (Option.some.inj h).symm
  | cons s steps ih =>
    unfold walk at h
    split at h
    · exact ih h
    · cases h

def full (dir : κ) : Tree ν dir where
  kind _ := some dir
  root := rfl
  parent _ _ _ := rfl

lemma walk_full (cur : List ν) (steps : List (Step ν)) :
    (full dir).walk cur steps = some (resolve cur steps) := by
  induction steps generalizing cur with
  | nil => rfl
  | cons s steps ih =>
    unfold walk
    rw [if_pos ⟨rfl, rfl⟩, ih]
    rfl

end Tree

end PathTree
