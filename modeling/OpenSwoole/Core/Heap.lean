import Mathlib.Algebra.Group.Nat.Defs
import OpenSwoole.Lib.BinHeap

/-!
# The binary heap

`src/core/heap.cc`.  An array of pointers to nodes; slot `0` is not used.  The owner of a node holds a
pointer to it and may give it another priority or take it out, so a node knows its slot.

* `push`, `pop`, `changePriority`, `remove`   the operations, with the loops `bubbleUp` and
    `percolateDown`;
* `bubbleUpLoop_spec`, `percolateDownLoop_spec`   a loop started at a hole fills it: all members in their
    slots and in order, nothing else changed;
* `bubbleUpLoop_root`, `percolateDownLoop_root`   when the root stays.
-/

namespace OSW.Core
open Function

inductive HeapType where
  | minHeap
  | maxHeap
deriving Repr

structure HeapNode where
  priority : Nat
  position : Nat
  /-- the owner's pointer -/
  data : Nat

/-- the heap with the memory its nodes live in: `live` ones are allocated, and `new` takes the address `fresh`;
the array has `size` entries, and `overrun` records that one behind them was written -/
structure Heap where
  num : Nat
  size : Nat
  type : HeapType
  nodes : Nat → Nat
  mem : Nat → HeapNode
  live : Nat → Bool
  fresh : Nat
  overrun : Bool

namespace Heap

def new (n : Nat) (type : HeapType) : Heap :=
  { num := 1, size := (n + 1) % 2^32, type := type, nodes := fun _ => 0, mem := fun _ => ⟨0, 0, 0⟩,
    live := fun _ => false, fresh := 1, overrun := false }

def left (i : Nat) : Nat := i * 2 % 2^32

def parent (i : Nat) : Nat := i / 2

/-- must the first priority stand below the second -/
def compare (h : Heap) (a b : Nat) : Bool :=
  match h.type with
  | .minHeap => decide (b < a)
  | .maxHeap => decide (a < b)

def priority (h : Heap) (p : Nat) : Nat := (h.mem p).priority

/-- the child that goes first; `0` without children -/
def maxchild (h : Heap) (i : Nat) : Nat :=
  let childI := left i
  if h.num ≤ childI then 0
  else if (childI + 1) % 2^32 < h.num ∧
      h.compare (h.priority (h.nodes childI)) (h.priority (h.nodes (childI + 1))) = true then
    childI + 1
  else childI

/-- `nodes[i] = p; p->position = i` -/
def place (h : Heap) (i p : Nat) : Heap :=
  { h with nodes := update h.nodes i p, mem := update h.mem p { h.mem p with position := i } }

/-- the loop of `bubble_up`; `i` gets smaller in every round -/
def bubbleUpLoop (moving : Nat) : Nat → Nat → Heap → Heap
  | 0, i, h => h.place i moving
  | n + 1, i, h =>
    if 1 < i ∧ h.compare (h.priority (h.nodes (parent i))) (h.priority moving) = true then
      bubbleUpLoop moving n (parent i) (h.place i (h.nodes (parent i)))
    else h.place i moving

def bubbleUp (h : Heap) (i : Nat) : Heap := bubbleUpLoop (h.nodes i) i i h

/-- the loop of `percolate_down`; `i` grows in every round and stays below `num` -/
def percolateDownLoop (moving : Nat) : Nat → Nat → Heap → Heap
  | 0, i, h => h.place i moving
  | n + 1, i, h =>
    let childI := h.maxchild i
    if childI ≠ 0 ∧ h.compare (h.priority moving) (h.priority (h.nodes childI)) = true then
      percolateDownLoop moving n childI (h.place i (h.nodes childI))
    else h.place i moving

section
variable (h : Heap)

def percolateDown (i : Nat) : Heap := percolateDownLoop (h.nodes i) h.num i h

/-- `new HeapNode`, in the slot after the last one -/
def append (priority data : Nat) : Heap :=
  { h with
    num := (h.num + 1) % 2^32, nodes := update h.nodes h.num h.fresh,
    mem := update h.mem h.fresh ⟨priority, 0, data⟩, live := update h.live h.fresh true,
    fresh := h.fresh + 1, overrun := h.overrun || decide (h.size ≤ h.num) }

/-- `room` is the answer of `osw_realloc`; the new size is a `uint32_t`, and may be less than the old one -/
def push (priority data : Nat) (room : Bool) : Option Nat × Heap :=
  if h.num < h.size then (some h.fresh, (h.append priority data).bubbleUp h.num)
  else if room then
    let h := { h with size := h.size * 2 % 2^32 }
    (some h.fresh, (h.append priority data).bubbleUp h.num)
  else (none, h)

def setPriority (newPriority node : Nat) : Heap :=
  { h with mem := update h.mem node { h.mem node with priority := newPriority } }

def changePriority (newPriority node : Nat) : Heap :=
  let pos := (h.mem node).position
  let h' := h.setPriority newPriority node
  if h.compare (h.priority node) newPriority then h'.bubbleUp pos else h'.percolateDown pos

def delete (node : Nat) : Heap := { h with live := update h.live node false }

/-- the last node takes the slot `pos` -/
def replace (pos : Nat) : Heap :=
  { h with num := h.num - 1, nodes := update h.nodes pos (h.nodes (h.num - 1)) }

def remove (node : Nat) : Heap :=
  let pos := (h.mem node).position
  let h' := h.replace pos
  let h'' :=
    if h'.compare (h'.priority node) (h'.priority (h'.nodes pos)) then h'.bubbleUp pos
    else h'.percolateDown pos
  h''.delete node

def pop : Option Nat × Heap :=
  if h.num = 1 then (none, h)
  else
    let head := h.nodes 1
    (some (h.mem head).data, ((h.replace 1).percolateDown 1).delete head)

def top : Option Nat := if h.num = 1 then none else some (h.nodes 1)

/-! ## order and frame -/

def Above (p q : Nat) : Prop := h.compare (h.priority p) (h.priority q) = false

end

lemma compare_self (h : Heap) (a : Nat) : h.compare a a = false := by
  unfold compare
  cases h.type with
  | minHeap | maxHeap => exact decide_eq_false (Nat.lt_irrefl a)

variable {h h' : Heap} {a b p q i x : Nat} {M : Nat → Prop}

lemma compare_asymm (hab : h.compare a b = true) : h.compare b a = false := by
  unfold compare at *
  cases ht : h.type with
  | minHeap | maxHeap =>
    rw [ht] at hab
    exact decide_eq_false (Nat.lt_asymm (of_decide_eq_true hab))

lemma compare_trans {c : Nat} (hab : h.compare a b = false) (hbc : h.compare b c = false) :
    h.compare a c = false := by
  unfold compare at *
  cases ht : h.type with
  | minHeap | maxHeap =>
    rw [ht] at hab hbc
    have h1 := of_decide_eq_false hab
    have h2 := of_decide_eq_false hbc
    exact decide_eq_false (by omega)

lemma Above.refl (h : Heap) (p : Nat) : h.Above p p := compare_self h _

lemma Above.trans {r : Nat} (hpq : h.Above p q) (hqr : h.Above q r) : h.Above p r := compare_trans hpq hqr

lemma Above.of_compare (hc : h.compare (h.priority p) (h.priority q) = true) : h.Above q p :=
  compare_asymm hc

lemma Above.of_not_compare (hc : ¬ h.compare (h.priority p) (h.priority q) = true) : h.Above p q :=
  Bool.of_not_eq_true hc

def position (h : Heap) (p : Nat) : Nat := (h.mem p).position

def key (h : Heap) (p : Nat) : Nat × Nat := ((h.mem p).priority, (h.mem p).data)

/-- nodes moved to other slots, and nothing else happened -/
structure Shuffled (h h' : Heap) : Prop where
  num : h'.num = h.num
  size : h'.size = h.size
  type : h'.type = h.type
  live : h'.live = h.live
  fresh : h'.fresh = h.fresh
  overrun : h'.overrun = h.overrun
  key : h'.key = h.key

lemma Shuffled.trans {h'' : Heap} (h1 : Shuffled h h') (h2 : Shuffled h' h'') : Shuffled h h'' :=
  ⟨h2.num.trans h1.num, h2.size.trans h1.size, h2.type.trans h1.type, h2.live.trans h1.live,
    h2.fresh.trans h1.fresh, h2.overrun.trans h1.overrun, h2.key.trans h1.key⟩

lemma priority_of_key (hp : h'.key p = h.key p) : h'.priority p = h.priority p := congrArg Prod.fst hp

lemma Above.congr (ht : h'.type = h.type) (hp : h'.key p = h.key p) (hq : h'.key q = h.key q) :
    h'.Above p q ↔ h.Above p q := by
  unfold Above compare
  rw [ht, priority_of_key hp, priority_of_key hq]

lemma Shuffled.above (hs : Shuffled h h') : h'.Above = h.Above := by
  funext p q
  exact propext (Above.congr hs.type (congrFun hs.key p) (congrFun hs.key q))

lemma place_shuffled (h : Heap) (i p : Nat) : Shuffled h (h.place i p) := by
  refine ⟨rfl, rfl, rfl, rfl, rfl, rfl, ?_⟩
  funext q
  show ((update h.mem p { h.mem p with position := i } q).priority,
    (update h.mem p { h.mem p with position := i } q).data) = h.key q
  by_cases hq : q = p
  · rw [hq, update_self]
    rfl
  · rw [update_of_ne hq]
    rfl

lemma place_position (h : Heap) (i p : Nat) : (h.place i p).position = update h.position p i := by
  funext q
  show (update h.mem p { h.mem p with position := i } q).position = _
  by_cases hq : q = p
  · rw [hq, update_self, update_self]
  · rw [update_of_ne hq, update_of_ne hq]
    rfl

/-! ## the two loops -/

/-- the members `M` in their slots and in order -/
structure Sifted (h h' : Heap) (M : Nat → Prop) : Prop where
  shuffled : Shuffled h h'
  seated : BinHeap.Seated h'.nodes h'.position M h'.num
  ordered : BinHeap.Ordered h'.Above h'.nodes h'.num

lemma Sifted.after {h1 h2 : Heap} (hs : Shuffled h h1) (h12 : Sifted h1 h2 M) : Sifted h h2 M :=
  ⟨hs.trans h12.shuffled, h12.seated, h12.ordered⟩

lemma place_sifted (hm : BinHeap.Moving h.nodes h.position M h.num i x)
    (ho : BinHeap.Ordered h.Above (update h.nodes i x) h.num) : Sifted h (h.place i x) M := by
  have hs := place_shuffled h i x
  refine ⟨hs, ?_, ?_⟩
  · rw [place_position]
    exact hm.fill
  · rw [hs.above]
    exact ho

lemma bubbleUpLoop_spec (n i : Nat) (h : Heap) (hn : i ≤ n)
    (hm : BinHeap.Moving h.nodes h.position M h.num i x)
    (hr : BinHeap.Rising h.Above h.nodes h.num i x) : Sifted h (bubbleUpLoop x n i h) M := by
  induction n generalizing i h with
  | zero =>
    have := hm.hole.1
    omega
  | succ n ih =>
    unfold bubbleUpLoop
    by_cases hc : 1 < i ∧ h.compare (h.priority (h.nodes (parent i))) (h.priority x) = true
    · rw [if_pos hc]
      -- the parent steps into the hole
      have hs := place_shuffled h i (h.nodes (i / 2))
      have hi := hm.hole.2
      have hm' := hm.move (show 1 ≤ i / 2 by omega) (by omega) (by omega)
      have hx : h.Above x (h.nodes (i / 2)) := Above.of_compare hc.2
      have hr' := hr.move Above.trans (by omega) hi hx
      refine (ih (i / 2) (h.place i (h.nodes (i / 2))) (by omega) ?_ ?_).after hs
      · rw [place_position]
        exact hm'
      · rw [hs.above]
        exact hr'
    · rw [if_neg hc]
      refine place_sifted hm (hr.toAround.fill ?_ hr.below)
      intro h2
      exact Above.of_not_compare fun he => hc ⟨h2, he⟩

lemma maxchild_eq_zero (hi : i < 2^31) (h1 : 1 ≤ i) : h.maxchild i = 0 ↔ h.num ≤ i * 2 := by
  have hl : left i = i * 2 := Nat.mod_eq_of_lt (by omega)
  unfold maxchild
  simp only [hl]
  by_cases hn : h.num ≤ i * 2
  · rw [if_pos hn]
    exact iff_of_true rfl hn
  · rw [if_neg hn]
    refine iff_of_false ?_ hn
    split
    · omega
    · omega

lemma maxchild_spec (hi : i < 2^31) (hn : i * 2 < h.num) : h.maxchild i < h.num ∧ h.maxchild i / 2 = i ∧
      ∀ d, d < h.num → d / 2 = i → h.Above (h.nodes (h.maxchild i)) (h.nodes d) := by
  have hl : left i = i * 2 := Nat.mod_eq_of_lt (by omega)
  have hr : (i * 2 + 1) % 2^32 = i * 2 + 1 := Nat.mod_eq_of_lt (by omega)
  unfold maxchild
  simp only [hl, hr, if_neg (Nat.not_le.2 hn)]
  by_cases hc : i * 2 + 1 < h.num ∧
      h.compare (h.priority (h.nodes (i * 2))) (h.priority (h.nodes (i * 2 + 1))) = true
  · rw [if_pos hc]
    refine ⟨hc.1, by omega, ?_⟩
    intro d _ hdi
    rcases (show d = i * 2 ∨ d = i * 2 + 1 by omega) with rfl | rfl
    · exact Above.of_compare hc.2
    · exact Above.refl h _
  · rw [if_neg hc]
    refine ⟨hn, by omega, ?_⟩
    intro d hd hdi
    rcases (show d = i * 2 ∨ d = i * 2 + 1 by omega) with rfl | rfl
    · exact Above.refl h _
    · exact Above.of_not_compare fun he => hc ⟨hd, he⟩

lemma percolateDownLoop_spec (n i : Nat) (h : Heap) (hn : h.num ≤ i + n) (hnum : h.num ≤ 2^31)
    (hm : BinHeap.Moving h.nodes h.position M h.num i x)
    (hr : BinHeap.Sinking h.Above h.nodes h.num i x) : Sifted h (percolateDownLoop x n i h) M := by
  induction n generalizing i h with
  | zero =>
    have := hm.hole.2
    omega
  | succ n ih =>
    obtain ⟨h1, hi⟩ := hm.hole
    have hzero := maxchild_eq_zero (h := h) (show i < 2^31 by omega) h1
    by_cases hc : h.maxchild i ≠ 0 ∧ h.compare (h.priority x) (h.priority (h.nodes (h.maxchild i))) = true
    · -- the first child steps into the hole
      obtain ⟨hlt, hpar, hmin⟩ := maxchild_spec (h := h) (show i < 2^31 by omega)
        (Nat.lt_of_not_le fun hle => hc.1 (hzero.2 hle))
      show Sifted h (if _ then _ else _) M
      rw [if_pos hc]
      have hs := place_shuffled h i (h.nodes (h.maxchild i))
      have hm' := hm.move (show 1 ≤ h.maxchild i by omega) hlt (by omega)
      have hr' := hr.move h1 hlt hpar hmin (Above.of_compare hc.2)
      refine (ih (h.maxchild i) (h.place i (h.nodes (h.maxchild i))) ?_ hnum ?_ ?_).after hs
      · show h.num ≤ h.maxchild i + n
        omega
      · rw [place_position]
        exact hm'
      · rw [hs.above]
        exact hr'
    · show Sifted h (if _ then _ else _) M
      rw [if_neg hc]
      refine place_sifted hm (hr.toAround.fill hr.above ?_)
      intro c hcn hci
      obtain ⟨hlt, hpar, hmin⟩ := maxchild_spec (h := h) (show i < 2^31 by omega) (by omega)
      have hx : h.Above x (h.nodes (h.maxchild i)) := Above.of_not_compare fun he => hc ⟨by omega, he⟩
      exact hx.trans (hmin c hcn hci)

/-! ## the root -/

lemma bubbleUpLoop_root (n i : Nat) (h : Heap) (h2 : 2 ≤ i) (hx : h.Above (h.nodes 1) x) :
    (bubbleUpLoop x n i h).nodes 1 = h.nodes 1 := by
  have hkeep : ∀ p, (h.place i p).nodes 1 = h.nodes 1 :=
    fun p => update_of_ne (show (1 : Nat) ≠ i by omega) _ _
  induction n generalizing i h with
  | zero => exact hkeep x
  | succ n ih =>
    unfold bubbleUpLoop
    by_cases hc : 1 < i ∧ h.compare (h.priority (h.nodes (parent i))) (h.priority x) = true
    · rw [if_pos hc]
      have hp : parent i ≠ 1 := by
        intro he
        rw [he] at hc
        exact Bool.false_ne_true (hx.symm.trans hc.2)
      have hp2 : 2 ≤ parent i := by
        show 2 ≤ i / 2
        have : i / 2 ≠ 1 := hp
        omega
      have hs := place_shuffled h i (h.nodes (parent i))
      rw [ih (parent i) (h.place i (h.nodes (parent i))) hp2]
      · exact hkeep _
      · rw [hs.above, hkeep]
        exact hx
      · intro p
        exact update_of_ne (show (1 : Nat) ≠ parent i by omega) _ _
    · rw [if_neg hc]
      exact hkeep x

lemma percolateDownLoop_root (n i : Nat) (h : Heap) (hnum : h.num ≤ 2^31) (h2 : 2 ≤ i)
    (hi : i < 2^31) : (percolateDownLoop x n i h).nodes 1 = h.nodes 1 := by
  induction n generalizing i h with
  | zero => exact update_of_ne (show (1 : Nat) ≠ i by omega) _ _
  | succ n ih =>
    by_cases hc : h.maxchild i ≠ 0 ∧ h.compare (h.priority x) (h.priority (h.nodes (h.maxchild i))) = true
    · obtain ⟨hlt, hpar, -⟩ := maxchild_spec (h := h) hi
        (Nat.lt_of_not_le fun hle => hc.1 ((maxchild_eq_zero hi (by omega)).2 hle))
      show (if _ then _ else _ : Heap).nodes 1 = _
      rw [if_pos hc, ih (h.maxchild i) (h.place i (h.nodes (h.maxchild i))) hnum (by omega) (by omega)]
      exact update_of_ne (show (1 : Nat) ≠ i by omega) _ _
    · show (if _ then _ else _ : Heap).nodes 1 = _
      rw [if_neg hc]
      exact update_of_ne (show (1 : Nat) ≠ i by omega) _ _

end Heap

end OSW.Core
