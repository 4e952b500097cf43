import Mathlib.Data.Nat.Find
import OpenSwoole.Lib.Machine

/-!
# Infinite runs of step machines

A machine that serves inputs for ever is a sequence of states, each reached from the one before by an
input.  Progress is stated over such sequences.

* `Behaviour`   an infinite run whose inputs all meet a condition;
* `exists_first`   the end of a phase, with all that comes before it.
-/

namespace Machine

variable {σ ι : Type}

structure Behaviour (f : ι → σ → Option σ) (C : ι → σ → Prop) (input : Nat → ι) (state : Nat → σ) :
    Prop where
  next : ∀ t, f (input t) (state t) = some (state (t + 1))
  meets : ∀ t, C (input t) (state t)

variable {f : ι → σ → Option σ} {C : ι → σ → Prop} {input : Nat → ι} {state : Nat → σ} {t : Nat}

lemma Behaviour.mono {C' : ι → σ → Prop} (h : Behaviour f C input state)
    (hC : ∀ i s, C i s → C' i s) : Behaviour f C' input state :=
  ⟨h.next, fun t => hC _ _ (h.meets t)⟩

lemma Behaviour.keeps (hb : Behaviour f C input state) {J : σ → Prop}
    (h : ∀ i s s', C i s → J s → f i s = some s' → J s') (h0 : J (state 0)) : ∀ t, J (state t) := by
  intro t
  induction t with
  | zero => exact h0
  | succ t ih => exact h _ _ _ (hb.meets t) ih (hb.next t)

/-! ## phases -/

variable {B : σ → Prop}

lemma exists_first (h : ∃ t' ≥ t, ¬ B (state t')) :
    ∃ t' ≥ t, ¬ B (state t') ∧ ∀ u, t ≤ u → u < t' → B (state u) := by
  classical
  have hspec := Nat.find_spec h
  refine ⟨Nat.find h, hspec.1, hspec.2, fun u hu hlt => ?_⟩
  by_contra hB
  exact Nat.find_min h hlt ⟨hu, hB⟩

/-- what holds between the start of a phase and every time up to its end -/
lemma follows_of_phase {R : σ → σ → Prop} {t' : Nat} (hrefl : R (state t) (state t))
    (hstep : ∀ u, B (state u) → R (state t) (state u) → R (state t) (state (u + 1))) (hle : t ≤ t')
    (hB : ∀ u, t ≤ u → u < t' → B (state u)) : R (state t) (state t') := by
  induction t', hle using Nat.le_induction with
  | base => exact hrefl
  | succ u hu ih =>
    exact hstep u (hB u hu (Nat.lt_succ_self u)) (ih fun v hv hlt => hB v hv (Nat.lt_succ_of_lt hlt))

/-- the phase `B` ends when, at a later time, it is over or the rank is lower -/
lemma ends_of_rank (μ : σ → Nat)
    (h : ∀ t, B (state t) → ∃ t' ≥ t, B (state t') → μ (state t') < μ (state t)) (t : Nat) :
    ∃ t' ≥ t, ¬ B (state t') := by
  -- induction on the rank at `t`
  induction hn : μ (state t) using Nat.strongRecOn generalizing t with
  | _ n ih =>
    by_cases hB : B (state t)
    · obtain ⟨u, hu, hlt⟩ := h t hB
      by_cases hBu : B (state u)
      · obtain ⟨t', ht', hend⟩ := ih _ (hn ▸ hlt hBu) u rfl
        exact ⟨t', le_trans hu ht', hend⟩
      · exact ⟨u, hu, hBu⟩
    · exact ⟨t, le_rfl, hB⟩

/-- the phase `B` ends when its turns pass: at rest it waits for the one whose turn it is, who was called
and then leaves, and turns do not come back -/
lemma ends_of_turns {α : Type} (queue : σ → List α) (turn : σ → Nat) (called left : σ → α → Prop)
    (rest : σ → Prop)
    (hlater : ∀ t t', t ≤ t' → (∀ u, t ≤ u → u ≤ t' → B (state u)) → queue (state t') = queue (state t) ∧
      turn (state t) ≤ turn (state t') ∧ ∀ q, left (state t) q → left (state t') q)
    (hwaits : ∀ t, B (state t) → rest (state t) → ∃ q, (queue (state t))[turn (state t)]? = some q ∧
      called (state t) q ∧ ¬ left (state t) q)
    (hrest : ∀ t, ∃ t' ≥ t, rest (state t'))
    (hleft : ∀ t q, called (state t) q → ∃ t' ≥ t, B (state t') → left (state t') q) (t : Nat) :
    ∃ t' ≥ t, ¬ B (state t') := by
  refine ends_of_rank (fun s => (queue s).length - turn s) (fun t _ => ?_) t
  by_cases hend : ∃ t' ≥ t, ¬ B (state t')
  · obtain ⟨t', ht', hB⟩ := hend
    exact ⟨t', ht', fun h => absurd h hB⟩
  · have hB : ∀ u, t ≤ u → B (state u) := fun u hu => by
      by_contra h
      exact hend ⟨u, hu, h⟩
    -- at rest `q` is waited for, leaves, and at the next rest another one is
    obtain ⟨t₁, ht₁, hr₁⟩ := hrest t
    obtain ⟨q, hq, hcalled, -⟩ := hwaits t₁ (hB t₁ ht₁) hr₁
    obtain ⟨t₂, ht₂, hq₂⟩ := hleft t₁ q hcalled
    obtain ⟨t₃, ht₃, hr₃⟩ := hrest t₂
    obtain ⟨q', hq', -, hnot⟩ := hwaits t₃ (hB t₃ (by omega)) hr₃
    obtain ⟨hqueue₁, hle₁, -⟩ := hlater t t₁ ht₁ fun u hu _ => hB u hu
    obtain ⟨hqueue₃, hle₃, -⟩ := hlater t₁ t₃ (by omega) fun u hu _ => hB u (by omega)
    obtain ⟨-, -, hkeep⟩ := hlater t₂ t₃ ht₃ fun u hu _ => hB u (by omega)
    have hne : turn (state t₃) ≠ turn (state t₁) := by
      intro he
      rw [he, hqueue₃, hq] at hq'
      exact hnot (Option.some.inj hq' ▸ hkeep q (hq₂ (hB t₂ (by omega))))
    have hlt : turn (state t₃) < (queue (state t₃)).length := (List.getElem?_eq_some_iff.1 hq').1
    refine ⟨t₃, by omega, fun _ => ?_⟩
    rw [hqueue₃, hqueue₁] at hlt ⊢
    omega

/-! ## lassos -/

variable (f : ι → σ → Option σ) (loop : List ι)

/-- a state with the inputs up to the next return to the loop's start -/
def lassoNext (i : ι) : σ × List ι → σ × List ι
  | (s, []) => ((f i s).getD s, loop)
  | (s, j :: rest) => ((f j s).getD s, rest)

/-- the inputs `pre`, then `i :: loop` again and again -/
def lassoAt (i : ι) (s : σ) (pre : List ι) : Nat → σ × List ι
  | 0 => (s, pre)
  | t + 1 => lassoNext f loop i (lassoAt i s pre t)

/-- what is left of the way to the loop's start -/
def OnLasso (C : ι → σ → Prop) (start : σ) (c : σ × List ι) : Prop :=
  iter f c.2 c.1 = some start ∧ Along f C c.2 c.1

variable {f loop} {C : ι → σ → Prop} {start : σ} {i : ι}

variable {s : σ} {pre : List ι}

lemma OnLasso.cons {j : ι} {rest : List ι} (h : OnLasso f C start (s, j :: rest)) :
    C j s ∧ f j s = some ((f j s).getD s) ∧ OnLasso f C start ((f j s).getD s, rest) := by
  obtain ⟨s', he, hrest⟩ := Option.bind_eq_some_iff.1 h.1
  have hget : (f j s).getD s = s' := by rw [he]; rfl
  rw [hget]
  exact ⟨h.2.1, he, hrest, h.2.2 s' he⟩

def lassoInput (i : ι) (c : σ × List ι) : ι := c.2.headD i

lemma OnLasso.next {c : σ × List ι} (hloop : OnLasso f C start (start, i :: loop))
    (h : OnLasso f C start c) : C (lassoInput i c) c.1 ∧
      f (lassoInput i c) c.1 = some (lassoNext f loop i c).1 ∧ OnLasso f C start (lassoNext f loop i c) := by
  obtain ⟨s, rest⟩ := c
  cases rest with
  | nil =>
    obtain rfl : s = start := Option.some.inj h.1
    exact hloop.cons
  | cons j rest => exact h.cons

lemma OnLasso.returns (n t : Nat) (hlen : (lassoAt f loop i s pre t).2.length = n)
    (h : ∀ t, OnLasso f C start (lassoAt f loop i s pre t)) :
    ∃ t' ≥ t, (lassoAt f loop i s pre t').1 = start := by
  induction n generalizing t with
  | zero =>
    have hnil := List.length_eq_zero_iff.1 hlen
    have hiter := (h t).1
    rw [hnil] at hiter
    exact ⟨t, le_rfl, Option.some.inj hiter⟩
  | succ n ih =>
    have hnext : (lassoAt f loop i s pre (t + 1)).2.length = n := by
      show (lassoNext f loop i (lassoAt f loop i s pre t)).2.length = n
      generalize lassoAt f loop i s pre t = c at hlen ⊢
      obtain ⟨s', rest⟩ := c
      cases rest with
      | nil => exact absurd hlen (Nat.succ_ne_zero n).symm
      | cons j rest => exact Nat.succ.inj hlen
    obtain ⟨t', ht', he⟩ := ih (t + 1) hnext
    exact ⟨t', by omega, he⟩

/-- a run into a loop goes on for ever, and comes back to the loop's start -/
lemma Behaviour.lasso (hpre : OnLasso f C start (s, pre)) (hloop : OnLasso f C start (start, i :: loop)) :
    Behaviour f C (fun t => lassoInput i (lassoAt f loop i s pre t)) (fun t => (lassoAt f loop i s pre t).1) ∧
      ∀ t, ∃ t' ≥ t, (lassoAt f loop i s pre t').1 = start := by
  have hon : ∀ t, OnLasso f C start (lassoAt f loop i s pre t) := by
    intro t
    induction t with
    | zero => exact hpre
    | succ t ih => exact (hloop.next ih).2.2
  exact ⟨⟨fun t => (hloop.next (hon t)).2.1, fun t => (hloop.next (hon t)).1⟩,
    fun t => OnLasso.returns _ t rfl hon⟩

end Machine
