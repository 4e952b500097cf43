import OpenSwoole.Lib.Machine

/-!
# Runs with keys

Every input of a machine has a key and touches one component of the state, the one of its key.  An
interleaving of several input sequences then does to every component what its own sequence does
alone.

* `iter_of_proj`   when every component can handle its own inputs in order, the machine can handle the
    interleaving, and ends with the components the sequences end with.
-/

namespace Keyed
open Machine List

variable {ι σ τ κ : Type} [DecidableEq κ]

/-- the inputs of one key, in order -/
def own (key : ι → κ) (k : κ) (is : List ι) : List ι := is.filter fun i => key i = k

lemma own_cons_self (key : ι → κ) (i : ι) (is : List ι) :
    own key (key i) (i :: is) = i :: own key (key i) is := by
  simp [own]

variable {key : ι → κ} {k : κ} {i : ι}

lemma own_cons_ne (h : key i ≠ k) (is : List ι) : own key k (i :: is) = own key k is := by simp [own, h]

lemma own_append (key : ι → κ) (k : κ) (is js : List ι) : own key k (is ++ js) = own key k is ++ own key k js :=
  filter_append ..

lemma own_snoc_self (key : ι → κ) (i : ι) (is : List ι) :
    own key (key i) (is ++ [i]) = own key (key i) is ++ [i] := by
  rw [own_append, own_cons_self]
  rfl

lemma own_snoc_ne (h : key i ≠ k) (is : List ι) : own key k (is ++ [i]) = own key k is := by
  rw [own_append, own_cons_ne h]
  exact append_nil _

lemma own_eq_nil {is : List ι} (h : ∀ i ∈ is, key i ≠ k) : own key k is = [] := by
  simpa [own, filter_eq_nil_iff] using h

/-- `f` handles an input by the step `g` of the component `proj (key i)` -/
def Local (key : ι → κ) (f : ι → σ → Option σ) (g : ι → τ → Option τ) (proj : κ → σ → τ) : Prop :=
  ∀ i s x, g i (proj (key i) s) = some x →
    ∃ s', f i s = some s' ∧ proj (key i) s' = x ∧ ∀ k, key i ≠ k → proj k s' = proj k s

lemma iter_of_proj {f : ι → σ → Option σ} {g : ι → τ → Option τ} {proj : κ → σ → τ} (h : Local key f g proj)
    {t : κ → τ} (is : List ι) {s : σ} (hs : ∀ k, iter g (own key k is) (proj k s) = some (t k)) :
    ∃ s', iter f is s = some s' ∧ ∀ k, proj k s' = t k := by
  induction is generalizing s with
  | nil => exact ⟨s, rfl, fun k => Option.some.inj (hs k)⟩
  | cons i is ih =>
    have hi := hs (key i)
    rw [own_cons_self] at hi
    obtain ⟨x, hx, hrest⟩ := Option.bind_eq_some_iff.1 hi
    obtain ⟨s1, he, hown, hother⟩ := h i s x hx
    have hs1 : ∀ k, iter g (own key k is) (proj k s1) = some (t k) := by
      intro k
      by_cases hk : key i = k
      · rw [← hk, hown]
        exact hrest
      · rw [hother k hk, ← own_cons_ne hk is]
        exact hs k
    obtain ⟨s', hrun, ht⟩ := ih hs1
    refine ⟨s', ?_, ht⟩
    show (f i s).bind (iter f is) = some s'
    rw [he]
    exact hrun

end Keyed
