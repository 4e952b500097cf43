import Mathlib.Tactic.Common

/-!
# Binary heaps with back-pointers

The slots `1 .. n - 1` of an array are a tree: the parent of slot `j` is slot `j / 2`.  Every member
knows its slot.  While a member moves, its slot is a hole; the neighbours of the hole step into it.

* `Ordered`   every parent may stand above its child;
* `Seated`   members and slots name each other.
-/

namespace BinHeap
open Function

variable {α : Type}

/-! ## the order -/

section order

-- `le x y`: `x` may stand above `y`
variable {le : α → α → Prop} {a : Nat → α} {n i : Nat} {x : α}

def Ordered (le : α → α → Prop) (a : Nat → α) (n : Nat) : Prop := ∀ j, 2 ≤ j → j < n → le (a (j / 2)) (a j)

/-- the pairs that do not touch slot `i` are in order, and so are its parent and its children -/
structure Around (le : α → α → Prop) (a : Nat → α) (n i : Nat) : Prop where
  off : ∀ j, 2 ≤ j → j < n → j ≠ i → j / 2 ≠ i → le (a (j / 2)) (a j)
  across : 2 ≤ i → ∀ c, c < n → c / 2 = i → le (a (i / 2)) (a c)

/-- slot `i` is free for `x`, which may stand above all that is below the slot -/
structure Rising (le : α → α → Prop) (a : Nat → α) (n i : Nat) (x : α) : Prop extends Around le a n i where
  below : ∀ c, c < n → c / 2 = i → le x (a c)

/-- slot `i` is free for `x`, above which its parent may stand -/
structure Sinking (le : α → α → Prop) (a : Nat → α) (n i : Nat) (x : α) : Prop extends Around le a n i where
  above : 2 ≤ i → le (a (i / 2)) x

lemma Ordered.root (h : Ordered le a n) (hrefl : ∀ x, le x x)
    (htrans : ∀ {x y z}, le x y → le y z → le x z) {j : Nat} (h1 : 1 ≤ j) (hj : j < n) :
    le (a 1) (a j) := by
  induction j using Nat.strongRecOn with
  | ind j ih =>
    by_cases hone : j = 1
    · rw [hone]
      exact hrefl _
    · exact htrans (ih (j / 2) (by omega) (by omega) (by omega)) (h j (by omega) hj)

lemma Ordered.mono (h : Ordered le a n) {m : Nat} (hm : m ≤ n) : Ordered le a m :=
  fun j h2 hj => h j h2 (by omega)

lemma Ordered.around (h : Ordered le a n) (htrans : ∀ {x y z}, le x y → le y z → le x z)
    (i : Nat) : Around le a n i where
  off := fun j h2 hj _ _ => h j h2 hj
  across := by
    intro h2 c hc hci
    have hc2 : 2 ≤ c := by omega
    have hlow := h c hc2 hc
    rw [hci] at hlow
    exact htrans (h i h2 (by omega)) hlow

lemma Around.congr {b : Nat → α} (h : Around le a n i) (hb : ∀ j, 1 ≤ j → j < n → j ≠ i → b j = a j) :
    Around le b n i where
  off := by
    intro j h2 hj hne hpne
    rw [hb j (by omega) hj hne, hb (j / 2) (by omega) (by omega) hpne]
    exact h.off j h2 hj hne hpne
  across := by
    intro h2 c hc hci
    rw [hb c (by omega) hc (by omega), hb (i / 2) (by omega) (by omega) (by omega)]
    exact h.across h2 c hc hci

lemma Rising.move (h : Rising le a n i x) (htrans : ∀ {x y z}, le x y → le y z → le x z)
    (h2 : 2 ≤ i) (hi : i < n) (hx : le x (a (i / 2))) :
    Rising le (update a i (a (i / 2))) n (i / 2) x := by
  -- the other child of the parent is below the parent, hence below `x`
  have hbelow : ∀ c, c < n → c / 2 = i / 2 → c ≠ i → le (a (i / 2)) (a c) := by
    intro c hc hci hne
    have := h.off c (by omega) hc hne (by omega)
    rwa [hci] at this
  refine ⟨⟨?_, ?_⟩, ?_⟩
  · intro j hj2 hj hne hpne
    have hji : j ≠ i := by
      intro he
      exact hpne (by rw [he])
    rw [update_of_ne hji]
    by_cases hp : j / 2 = i
    · rw [hp, update_self]
      exact h.across h2 j hj hp
    · rw [update_of_ne hp]
      exact h.off j hj2 hj hji hp
  · intro hp2 c hc hci
    have hup : le (a (i / 2 / 2)) (a (i / 2)) := h.off (i / 2) hp2 (by omega) (by omega) (by omega)
    rw [update_of_ne (show i / 2 / 2 ≠ i by omega)]
    by_cases hce : c = i
    · rw [hce, update_self]
      exact hup
    · rw [update_of_ne hce]
      exact htrans hup (hbelow c hc hci hce)
  · intro c hc hci
    by_cases hce : c = i
    · rw [hce, update_self]
      exact hx
    · rw [update_of_ne hce]
      exact htrans hx (hbelow c hc hci hce)

lemma Sinking.move (h : Sinking le a n i x) {c : Nat} (h1 : 1 ≤ i) (hc : c < n) (hci : c / 2 = i)
    (hmin : ∀ d, d < n → d / 2 = i → le (a c) (a d)) (hx : le (a c) x) :
    Sinking le (update a i (a c)) n c x := by
  refine ⟨⟨?_, ?_⟩, ?_⟩
  · intro j hj2 hj hne hpne
    by_cases hji : j = i
    · rw [hji, update_self, update_of_ne (show i / 2 ≠ i by omega)]
      exact h.across (by omega) c hc hci
    · rw [update_of_ne hji]
      by_cases hp : j / 2 = i
      · rw [hp, update_self]
        exact hmin j hj hp
      · rw [update_of_ne hp]
        exact h.off j hj2 hj hji hp
  · intro hc2 d hd hdc
    have hlow := h.off d (by omega) hd (by omega) (by omega)
    rw [hci, update_self, update_of_ne (show d ≠ i by omega)]
    rwa [hdc] at hlow
  · intro _
    rw [hci, update_self]
    exact hx

lemma Around.fill (h : Around le a n i) (hup : 2 ≤ i → le (a (i / 2)) x)
    (hdown : ∀ c, c < n → c / 2 = i → le x (a c)) : Ordered le (update a i x) n := by
  intro j h2 hj
  by_cases hji : j = i
  · rw [hji, update_self, update_of_ne (show i / 2 ≠ i by omega)]
    exact hup (by omega)
  · rw [update_of_ne hji]
    by_cases hp : j / 2 = i
    · rw [hp, update_self]
      exact hdown j hj hp
    · rw [update_of_ne hp]
      exact h.off j h2 hj hji hp

end order

/-! ## members and slots -/

section seats

variable {a : Nat → α} {pos : α → Nat} {M : α → Prop} {n i : Nat} {x : α}

structure Seated (a : Nat → α) (pos : α → Nat) (M : α → Prop) (n : Nat) : Prop where
  seat : ∀ j, 1 ≤ j → j < n → M (a j) ∧ pos (a j) = j
  pos : ∀ p, M p → 1 ≤ pos p ∧ pos p < n ∧ a (pos p) = p

/-- slot `i` is free for the member `x` -/
structure Moving (a : Nat → α) (pos : α → Nat) (M : α → Prop) (n i : Nat) (x : α) : Prop where
  hole : 1 ≤ i ∧ i < n
  mem : M x
  seat : ∀ j, 1 ≤ j → j < n → j ≠ i → M (a j) ∧ a j ≠ x ∧ pos (a j) = j
  pos : ∀ p, M p → p ≠ x → 1 ≤ pos p ∧ pos p < n ∧ pos p ≠ i ∧ a (pos p) = p

/-- what stands in the hole, and what its filler says, do not matter -/
lemma Moving.congr {b : Nat → α} {pos' : α → Nat} (h : Moving a pos M n i x)
    (hb : ∀ j, j ≠ i → b j = a j) (hpos : ∀ p, p ≠ x → pos' p = pos p) : Moving b pos' M n i x :=
  { h with
    seat := by
      intro j h1 hj hne
      obtain ⟨hm, hx, hp⟩ := h.seat j h1 hj hne
      rw [hb j hne, hpos _ hx]
      exact ⟨hm, hx, hp⟩
    pos := by
      intro p hp hne
      obtain ⟨p1, pn, pi, pa⟩ := h.pos p hp hne
      rw [hpos p hne, hb _ pi]
      exact ⟨p1, pn, pi, pa⟩ }

lemma Seated.inj (h : Seated a pos M n) {j k : Nat} (hj : 1 ≤ j ∧ j < n) (hk : 1 ≤ k ∧ k < n)
    (he : a j = a k) : j = k := by
  rw [← (h.seat j hj.1 hj.2).2, he]
  exact (h.seat k hk.1 hk.2).2

lemma Seated.moving (h : Seated a pos M n) (h1 : 1 ≤ i) (hi : i < n) : Moving a pos M n i (a i) where
  hole := ⟨h1, hi⟩
  mem := (h.seat i h1 hi).1
  seat := fun j hj1 hj hne =>
    ⟨(h.seat j hj1 hj).1, fun he => hne (h.inj ⟨hj1, hj⟩ ⟨h1, hi⟩ he), (h.seat j hj1 hj).2⟩
  pos := by
    intro p hp hne
    obtain ⟨p1, pn, pa⟩ := h.pos p hp
    refine ⟨p1, pn, ?_, pa⟩
    intro he
    rw [he] at pa
    exact hne pa.symm

lemma Seated.join (h : Seated a pos M n) (h1 : 1 ≤ n) (hx : ¬ M x) :
    Moving (update a n x) pos (fun p => M p ∨ p = x) (n + 1) n x where
  hole := ⟨h1, Nat.lt_succ_self n⟩
  mem := .inr rfl
  seat := by
    intro j hj1 hj hne
    obtain ⟨hm, hpos⟩ := h.seat j hj1 (by omega)
    rw [update_of_ne hne]
    refine ⟨.inl hm, ?_, hpos⟩
    intro he
    exact hx (he ▸ hm)
  pos := by
    intro p hp hne
    obtain ⟨p1, pn, pa⟩ := h.pos p (hp.resolve_right hne)
    rw [update_of_ne (show pos p ≠ n by omega)]
    exact ⟨p1, by omega, by omega, pa⟩

lemma Seated.replace (h : Seated a pos M (n + 1)) (h1 : 1 ≤ i) (hi : i < n) :
    Moving (update a i (a n)) pos (fun p => M p ∧ p ≠ a i) n i (a n) where
  hole := ⟨h1, hi⟩
  mem := ⟨(h.seat n (by omega) (by omega)).1,
    fun he => absurd (h.inj ⟨by omega, by omega⟩ ⟨h1, by omega⟩ he) (by omega)⟩
  seat := by
    intro j hj1 hj hne
    obtain ⟨hm, hpos⟩ := h.seat j hj1 (by omega)
    rw [update_of_ne hne]
    refine ⟨⟨hm, ?_⟩, ?_, hpos⟩
    · intro he
      exact hne (h.inj ⟨hj1, by omega⟩ ⟨h1, by omega⟩ he)
    · intro he
      exact absurd (h.inj ⟨hj1, by omega⟩ ⟨by omega, by omega⟩ he) (by omega)
  pos := by
    intro p hp hne
    obtain ⟨p1, pn, pa⟩ := h.pos p hp.1
    have hpi : pos p ≠ i := by
      intro he
      rw [he] at pa
      exact hp.2 pa.symm
    have hpl : pos p ≠ n := by
      intro he
      rw [he] at pa
      exact hne pa.symm
    rw [update_of_ne hpi]
    exact ⟨p1, by omega, hpi, pa⟩

lemma Seated.leave (h : Seated a pos M (n + 1)) (h1 : 1 ≤ n) :
    Seated a pos (fun p => M p ∧ p ≠ a n) n where
  seat := by
    intro j hj1 hj
    obtain ⟨hm, hpos⟩ := h.seat j hj1 (by omega)
    refine ⟨⟨hm, ?_⟩, hpos⟩
    intro he
    exact absurd (h.inj ⟨hj1, by omega⟩ ⟨h1, by omega⟩ he) (by omega)
  pos := by
    intro p hp
    obtain ⟨p1, pn, pa⟩ := h.pos p hp.1
    refine ⟨p1, ?_, pa⟩
    by_contra hlast
    rw [show pos p = n by omega] at pa
    exact hp.2 pa.symm

variable [DecidableEq α]

lemma Moving.move (h : Moving a pos M n i x) {j : Nat} (h1 : 1 ≤ j) (hj : j < n) (hne : j ≠ i) :
    Moving (update a i (a j)) (update pos (a j) i) M n j x := by
  obtain ⟨hm, hx, hpos⟩ := h.seat j h1 hj hne
  refine ⟨⟨h1, hj⟩, h.mem, ?_, ?_⟩
  · intro k hk1 hk hkj
    by_cases hki : k = i
    · rw [hki, update_self, update_self]
      exact ⟨hm, hx, rfl⟩
    · obtain ⟨km, kx, kpos⟩ := h.seat k hk1 hk hki
      have hkne : a k ≠ a j := by
        intro he
        rw [he, hpos] at kpos
        exact hkj kpos.symm
      rw [update_of_ne hki, update_of_ne hkne]
      exact ⟨km, kx, kpos⟩
  · intro p hp hpx
    by_cases hpj : p = a j
    · rw [hpj, update_self, update_self]
      exact ⟨h.hole.1, h.hole.2, Ne.symm hne, rfl⟩
    · obtain ⟨p1, pn, pi, pa⟩ := h.pos p hp hpx
      rw [update_of_ne hpj, update_of_ne pi]
      refine ⟨p1, pn, ?_, pa⟩
      intro he
      rw [he] at pa
      exact hpj pa.symm

lemma Moving.fill (h : Moving a pos M n i x) : Seated (update a i x) (update pos x i) M n := by
  refine ⟨?_, ?_⟩
  · intro j h1 hj
    by_cases hji : j = i
    · rw [hji, update_self, update_self]
      exact ⟨h.mem, rfl⟩
    · obtain ⟨hm, hx, hpos⟩ := h.seat j h1 hj hji
      rw [update_of_ne hji, update_of_ne hx]
      exact ⟨hm, hpos⟩
  · intro p hp
    by_cases hpx : p = x
    · rw [hpx, update_self, update_self]
      exact ⟨h.hole.1, h.hole.2, rfl⟩
    · obtain ⟨p1, pn, pi, pa⟩ := h.pos p hp hpx
      rw [update_of_ne hpx, update_of_ne pi]
      exact ⟨p1, pn, pa⟩

lemma Seated.outside (h : Seated a pos M n) {j : Nat} (hj : n ≤ j) (hx : ¬ M x) :
    Seated (update a j x) (update pos x j) M n where
  seat := by
    intro k hk1 hk
    obtain ⟨hm, hpos⟩ := h.seat k hk1 hk
    have hkx : a k ≠ x := fun he => hx (he ▸ hm)
    rw [update_of_ne (show k ≠ j by omega), update_of_ne hkx]
    exact ⟨hm, hpos⟩
  pos := by
    intro p hp
    obtain ⟨p1, pn, pa⟩ := h.pos p hp
    have hpx : p ≠ x := fun he => hx (he ▸ hp)
    rw [update_of_ne hpx, update_of_ne (show pos p ≠ j by omega)]
    exact ⟨p1, pn, pa⟩

end seats

end BinHeap
