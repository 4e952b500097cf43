import Mathlib.Algebra.Order.Group.Nat
import Mathlib.Tactic.Common

/-!
# Step machines

A loop with labels and jumps is a step function `σ → σ ⊕ ρ`: go on with a state, or return.
`run step n` makes at most `n` steps.

* `run_spec`   an invariant kept by every step, a measure that every step lowers and a postcondition of
    every return: with enough fuel the machine returns and the postcondition holds;
* `run_throughout`   the same for runs whose states all meet a condition;
* `iter_spec`   a list of inputs handled one after the other, with an invariant that every input keeps;
* `iter_along`   the same for runs whose inputs all meet a condition on the state they find;
* `iter_keeps`, `iter_invariant`   the same for runs that are known to end;
* `foldl_spec`, `foldl_along`   the same for steps that always end.
-/

namespace Machine
open List Option

variable {σ ρ ι : Type}

def run (step : σ → σ ⊕ ρ) : Nat → σ → Option ρ
  | 0, _ => none
  | n + 1, s =>
    match step s with
    | .inl s' => run step n s'
    | .inr r => some r

lemma run_inl {step : σ → σ ⊕ ρ} {s s' : σ} (h : step s = .inl s') (n : Nat) :
    run step (n + 1) s = run step n s' := by
  simp only [run, h]

lemma run_inr {step : σ → σ ⊕ ρ} {s : σ} {r : ρ} (h : step s = .inr r) (n : Nat) :
    run step (n + 1) s = some r := by
  simp only [run, h]

lemma run_fixed {step : σ → σ ⊕ ρ} {s : σ} (h : step s = .inl s) (n : Nat) : run step n s = none := by
  induction n with
  | zero => rfl
  | succ n ih => rw [run_inl h, ih]

/-- what one step does to a state of the invariant -/
def Steps (step : σ → σ ⊕ ρ) (I : σ → Prop) (μ : σ → Nat) (Q : ρ → Prop) (s : σ) : Prop :=
  (∃ s', step s = .inl s' ∧ I s' ∧ μ s' < μ s) ∨ ∃ r, step s = .inr r ∧ Q r

/-- every state of the run meets the condition `C` -/
def Throughout (step : σ → σ ⊕ ρ) (C : σ → Prop) : Nat → σ → Prop
  | 0, _ => True
  | n + 1, s => C s ∧ ∀ s', step s = .inl s' → Throughout step C n s'

instance Throughout.decidable (step : σ → σ ⊕ ρ) (C : σ → Prop) [∀ s, Decidable (C s)] :
    (n : Nat) → (s : σ) → Decidable (Throughout step C n s)
  | 0, _ => .isTrue trivial
  | n + 1, s =>
    match h : step s with
    | .inr _ => decidable_of_iff (C s)
        ⟨fun hc => ⟨hc, fun _ he => absurd (he.symm.trans h) Sum.inl_ne_inr⟩, And.left⟩
    | .inl s' =>
      have := Throughout.decidable step C n s'
      decidable_of_iff (C s ∧ Throughout step C n s')
        ⟨fun hc => ⟨hc.1, fun _ he => Sum.inl.inj (h.symm.trans he) ▸ hc.2⟩, fun hc => ⟨hc.1, hc.2 s' h⟩⟩

lemma Throughout.imp {step : σ → σ ⊕ ρ} {C D : σ → Prop} (h : ∀ s, C s → D s) {n : Nat} {s : σ}
    (hc : Throughout step C n s) : Throughout step D n s := by
  induction n generalizing s with
  | zero => exact trivial
  | succ n ih => exact ⟨h s hc.1, fun s' he => ih (hc.2 s' he)⟩

lemma run_throughout {step : σ → σ ⊕ ρ} {I C : σ → Prop} {μ : σ → Nat} {Q : ρ → Prop}
    (h : ∀ s, I s → C s → Steps step I μ Q s) {n : Nat} {s : σ} (hc : Throughout step C n s) (hs : I s)
    (hn : μ s < n) : ∃ r, run step n s = some r ∧ Q r := by
  induction n generalizing s with
  | zero => exact absurd hn (Nat.not_lt_zero _)
  | succ n ih =>
    rcases h s hs hc.1 with ⟨s', he, hs', hlt⟩ | ⟨r, he, hr⟩
    · rw [run_inl he]
      exact ih (hc.2 s' he) hs' (by omega)
    · exact ⟨r, run_inr he n, hr⟩

lemma throughout_true (step : σ → σ ⊕ ρ) (n : Nat) (s : σ) : Throughout step (fun _ => True) n s := by
  induction n generalizing s with
  | zero => exact trivial
  | succ n ih => exact ⟨trivial, fun s' _ => ih s'⟩

lemma run_spec {step : σ → σ ⊕ ρ} {I : σ → Prop} {μ : σ → Nat} {Q : ρ → Prop}
    (h : ∀ s, I s → Steps step I μ Q s) {n : Nat} {s : σ} (hs : I s) (hn : μ s < n) :
    ∃ r, run step n s = some r ∧ Q r :=
  run_throughout (fun s hs _ => h s hs) (throughout_true step n s) hs hn

/-- handle inputs one after the other; `none` when one of them does not end -/
def iter (f : ι → σ → Option σ) : List ι → σ → Option σ
  | [], s => some s
  | i :: is, s => (f i s).bind (iter f is)

/-- a run that is known by a part of its last state -/
lemma exists_of_map {τ : Type} {o : Option σ} {P : σ → Prop} (part : σ → τ) {v : τ} (h : o.map part = some v)
    (hP : ∀ s, o = some s → part s = v → P s) : ∃ s, o = some s ∧ P s := by
  obtain ⟨s, hs, hv⟩ := map_eq_some_iff.1 h
  exact ⟨s, hs, hP s hs hv⟩

/-- every input of the run meets the condition `C` in the state it finds -/
def Along (f : ι → σ → Option σ) (C : ι → σ → Prop) : List ι → σ → Prop
  | [], _ => True
  | i :: is, s => C i s ∧ ∀ s', f i s = some s' → Along f C is s'

instance Along.decidable (f : ι → σ → Option σ) (C : ι → σ → Prop) [∀ i s, Decidable (C i s)] :
    (is : List ι) → (s : σ) → Decidable (Along f C is s)
  | [], _ => .isTrue trivial
  | i :: is, s =>
    have := Along.decidable f C is
    inferInstanceAs (Decidable (C i s ∧ ∀ s' ∈ f i s, Along f C is s'))

variable {f : ι → σ → Option σ} {g : ι → σ → σ} {A : ι → Prop} {C : ι → σ → Prop} {J : σ → Prop} {s t : σ}

lemma iter_along (h : ∀ i s, C i s → J s → ∃ s', f i s = some s' ∧ J s') (is : List ι)
    (hc : Along f C is s) (hs : J s) : ∃ s', iter f is s = some s' ∧ J s' := by
  induction is generalizing s with
  | nil => exact ⟨s, rfl, hs⟩
  | cons i is ih =>
    obtain ⟨s', he, hs'⟩ := h i s hc.1 hs
    obtain ⟨t, ht, hJ⟩ := ih (hc.2 s' he) hs'
    refine ⟨t, ?_, hJ⟩
    show (f i s).bind (iter f is) = some t
    rw [he]
    exact ht

lemma along_of_forall {is : List ι} (h : ∀ i ∈ is, A i) (s : σ) : Along f (fun i _ => A i) is s := by
  induction is generalizing s with
  | nil => exact trivial
  | cons i is ih => exact ⟨h i mem_cons_self, fun s' _ => ih (fun j hj => h j (mem_cons_of_mem _ hj)) s'⟩

lemma iter_spec (h : ∀ i s, A i → J s → ∃ s', f i s = some s' ∧ J s') (is : List ι)
    (his : ∀ i ∈ is, A i) (hs : J s) : ∃ s', iter f is s = some s' ∧ J s' :=
  iter_along h is (along_of_forall his s) hs

lemma iter_keeps (h : ∀ i s s', C i s → J s → f i s = some s' → J s') (is : List ι)
    (hc : Along f C is s) (hs : J s) (ht : iter f is s = some t) : J t := by
  induction is generalizing s with
  | nil => exact some.inj ht ▸ hs
  | cons i is ih =>
    obtain ⟨s', he, ht'⟩ := bind_eq_some_iff.1 ht
    exact ih (hc.2 s' he) (h i s s' hc.1 hs he) ht'

lemma iter_invariant (h : ∀ i s s', J s → f i s = some s' → J s') (is : List ι)
    (hs : J s) (ht : iter f is s = some t) : J t :=
  iter_keeps (C := fun _ _ => True) (fun i s s' _ => h i s s') is (along_of_forall (fun _ _ => trivial) s) hs ht

/-- runs whose inputs read a clock that does not go back; the invariant knows the last reading -/
lemma iter_clocked {τ : Type} [LE τ] {clock : ι → Option τ} {J : τ → σ → Prop}
    (h : ∀ i last s s', C i s → J last s → (∀ c, clock i = some c → last ≤ c) → f i s = some s' →
      J ((clock i).getD last) s')
    (is : List ι) {last : τ} (hc : Along f C is s) (hs : J last s)
    (hlast : ∀ c ∈ is.filterMap clock, last ≤ c) (hmono : (is.filterMap clock).Pairwise (· ≤ ·))
    (ht : iter f is s = some t) : ∃ last', J last' t := by
  induction is generalizing last s with
  | nil => exact ⟨last, some.inj ht ▸ hs⟩
  | cons i is ih =>
    obtain ⟨s', he, ht'⟩ := bind_eq_some_iff.1 ht
    have hread : ∀ c, clock i = some c → last ≤ c :=
      fun c hi => hlast c (mem_filterMap.2 ⟨i, mem_cons_self, hi⟩)
    have hrest : (∀ c ∈ is.filterMap clock, (clock i).getD last ≤ c) ∧
        (is.filterMap clock).Pairwise (· ≤ ·) := by
      cases hi : clock i with
      | none =>
        rw [filterMap_cons_none hi] at hlast hmono
        exact ⟨hlast, hmono⟩
      | some c =>
        rw [filterMap_cons_some hi] at hmono
        exact pairwise_cons.1 hmono
    exact ih (hc.2 s' he) (h i last s s' hc.1 hs hread he) hrest.1 hrest.2 ht'

lemma foldl_along (h : ∀ i s, C i s → J s → J (g i s)) (is : List ι)
    (hc : Along (fun i s => some (g i s)) C is s) (hs : J s) : J (is.foldl (fun s i => g i s) s) := by
  induction is generalizing s with
  | nil => exact hs
  | cons i is ih => exact ih (hc.2 _ rfl) (h i s hc.1 hs)

lemma foldl_spec (h : ∀ i s, A i → J s → J (g i s)) (is : List ι) (his : ∀ i ∈ is, A i)
    (hs : J s) : J (is.foldl (fun s i => g i s) s) :=
  foldl_along h is (along_of_forall his s) hs

/-- an input that lowers a measure, over and over until it is not possible -/
lemma iter_rests {i : ι} (μ : σ → Nat) (h : ∀ s s', J s → f i s = some s' → J s' ∧ μ s' < μ s) (hs : J s) :
    ∃ n t, iter f (replicate n i) s = some t ∧ J t ∧ f i t = none := by
  -- induction on a bound of the measure
  have hbound : ∀ m s, J s → μ s < m → ∃ n t, iter f (replicate n i) s = some t ∧ J t ∧ f i t = none := by
    intro m
    induction m with
    | zero => exact fun s _ hlt => absurd hlt (Nat.not_lt_zero _)
    | succ m ih =>
      intro s hs hlt
      cases he : f i s with
      | none => exact ⟨0, s, rfl, hs, he⟩
      | some s' =>
        obtain ⟨hs', hlower⟩ := h s s' hs he
        obtain ⟨n, t, ht, hJ, hnone⟩ := ih s' hs' (by omega)
        refine ⟨n + 1, t, ?_, hJ, hnone⟩
        show (f i s).bind _ = some t
        rw [he]
        exact ht
  exact hbound (μ s + 1) s hs (Nat.lt_succ_self _)

lemma iter_append (f : ι → σ → Option σ) (a b : List ι) (s : σ) :
    iter f (a ++ b) s = (iter f a s).bind (iter f b) := by
  induction a generalizing s with
  | nil => rfl
  | cons i a ih =>
    show (f i s).bind (iter f (a ++ b)) = ((f i s).bind (iter f a)).bind (iter f b)
    cases f i s with
    | none => rfl
    | some s' => exact ih s'

/-! ## walks -/

/-- from `s` to `t` along the list -/
def Walks (R : σ → ι → σ → Prop) : List ι → σ → σ → Prop
  | [], s, t => s = t
  | i :: is, s, t => ∃ u, R s i u ∧ Walks R is u t

variable {R : σ → ι → σ → Prop} {a b : List ι}

lemma walks_append : Walks R (a ++ b) s t ↔ ∃ u, Walks R a s u ∧ Walks R b u t := by
  induction a generalizing s with
  | nil => exact ⟨fun h => ⟨s, rfl, h⟩, fun ⟨u, hu, h⟩ => (show s = u from hu) ▸ h⟩
  | cons i a ih =>
    constructor
    · rintro ⟨v, hv, h⟩
      obtain ⟨u, hu, ht⟩ := ih.1 h
      exact ⟨u, ⟨v, hv, hu⟩, ht⟩
    · rintro ⟨u, ⟨v, hv, hu⟩, ht⟩
      exact ⟨v, hv, ih.2 ⟨u, hu, ht⟩⟩

lemma Walks.snoc {i : ι} {u : σ} (h : Walks R a s t) (hi : R t i u) : Walks R (a ++ [i]) s u :=
  walks_append.2 ⟨t, h, u, hi, rfl⟩

lemma Walks.mono {R' : σ → ι → σ → Prop} (hR : ∀ s i t, R s i t → R' s i t)
    (h : Walks R a s t) : Walks R' a s t := by
  induction a generalizing s with
  | nil => exact h
  | cons i a ih =>
    obtain ⟨u, hu, ht⟩ := h
    exact ⟨u, hR _ _ _ hu, ih ht⟩

lemma Walks.mem (h : Walks R a s t) {i : ι} (hi : i ∈ a) : ∃ u v, R u i v := by
  induction a generalizing s with
  | nil => cases hi
  | cons j a ih =>
    obtain ⟨u, hu, ht⟩ := h
    rcases mem_cons.1 hi with rfl | hi
    · exact ⟨s, u, hu⟩
    · exact ih ht hi

/-! ## histories -/

/-- every entry suits the entries before it -/
def Suits (P : List ι → ι → Prop) (l : List ι) : Prop := ∀ a e b, l = a ++ e :: b → P a e

lemma suits_nil (P : List ι → ι → Prop) : Suits P [] :=
  fun a _ _ h => absurd (congrArg length h) (by simp)

lemma Suits.snoc {P : List ι → ι → Prop} {l : List ι} (h : Suits P l) {e : ι} (he : P l e) :
    Suits P (l ++ [e]) := by
  intro a x b hl
  rcases append_eq_append_iff.1 hl with ⟨c, rfl, hc⟩ | ⟨c, rfl, hc⟩
  · cases c with
    | nil =>
      obtain ⟨rfl, -⟩ := cons.inj hc
      rw [append_nil]
      exact he
    | cons y c => exact absurd (congrArg length hc) (by simp)
  · cases c with
    | nil =>
      obtain ⟨rfl, -⟩ := cons.inj hc
      rw [append_nil] at he
      exact he
    | cons y c =>
      obtain ⟨rfl, -⟩ := cons.inj hc
      exact h a x c rfl

end Machine
