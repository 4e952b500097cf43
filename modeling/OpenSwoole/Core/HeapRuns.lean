import OpenSwoole.Core.HeapOps
import OpenSwoole.Lib.Machine

/-!
# Runs of the heap

The owners of a heap push, pop, remove and change priorities in any order.  A node is named by its
address; what the heap holds is a map from nodes to priorities and data.

* `Implied`   what one operation with its answer makes of that map;
* `runs_implied`   in every run the heap is a heap with correct positions and holds what the operations
    imply, as long as no push meets `2^31` taken slots;
* `crowd_overruns`   the size of the array is a 32-bit number: at last doubling it shrinks the array.
-/

namespace OSW.Core
open Function Machine

inductive HeapOp where
  | push (priority data : Nat) (room : Bool)
  | pop
  | remove (node : Nat)
  | changePriority (newPriority node : Nat)

/-- the nodes with their priorities and data -/
abbrev Held := Nat → Option (Nat × Nat)

/-- may the first priority stand before the second -/
def HeapType.first : HeapType → Nat → Nat → Prop
  | .minHeap, a, b => a ≤ b
  | .maxHeap, a, b => b ≤ a

/-- the operation and its answer take the first map to the second -/
inductive Implied (type : HeapType) : Held → HeapOp × Option Nat → Held → Prop
  | pushed {m : Held} {priority data : Nat} {room : Bool} {p : Nat} (free : m p = none) :
    Implied type m (.push priority data room, some p) (update m p (some (priority, data)))
  | refused {m : Held} {priority data : Nat} : Implied type m (.push priority data false, none) m
  | empty {m : Held} (h : ∀ p, m p = none) : Implied type m (.pop, none) m
  | popped {m : Held} {p priority data : Nat} (held : m p = some (priority, data))
    (extreme : ∀ q k, m q = some k → type.first priority k.1) :
    Implied type m (.pop, some data) (update m p none)
  | removed {m : Held} {p : Nat} : Implied type m (.remove p, none) (update m p none)
  | changed {m : Held} {p newPriority : Nat} {k : Nat × Nat} (held : m p = some k) :
    Implied type m (.changePriority newPriority p, none) (update m p (some (newPriority, k.2)))

namespace Heap

def apply (h : Heap) : HeapOp → Option Nat × Heap
  | .push priority data room => h.push priority data room
  | .pop => h.pop
  | .remove node => (none, h.remove node)
  | .changePriority newPriority node => (none, h.changePriority newPriority node)

structure Run where
  heap : Heap
  log : List (HeapOp × Option Nat)

def Run.next (op : HeapOp) (r : Run) : Run := ⟨(r.heap.apply op).2, r.log ++ [(op, (r.heap.apply op).1)]⟩

def runs (n : Nat) (type : HeapType) (ops : List HeapOp) : Run :=
  ops.foldl (fun r op => r.next op) ⟨new n type, []⟩

/-- a node that is named is in the heap; a push finds fewer than `2^31` slots taken -/
def meets (h : Heap) : HeapOp → Bool
  | .push _ _ _ => decide (h.num < 2^31)
  | .pop => true
  | .remove node | .changePriority _ node => h.live node

def held (h : Heap) : Held := fun p => if h.live p = true then some (h.key p) else none

variable {h h' : Heap} {p q node : Nat} {k : Nat × Nat}

lemma held_eq_some (hk : h.held p = some k) : h.live p = true ∧ h.key p = k := by
  unfold held at hk
  split at hk <;> simp_all

lemma Above.first (ha : h.Above p q) : h.type.first (h.priority p) (h.priority q) := by
  unfold Above compare at ha
  unfold HeapType.first
  split at ha <;> simp_all

lemma Pushed.held {priority data : Nat} (hp : Pushed h h' priority data) :
    h'.held = update h.held h.fresh (some (priority, data)) := by
  funext p
  by_cases hpe : p = h.fresh <;> simp [Heap.held, hp.live, hp.key, hpe]

lemma Removed.held (hr : Removed h h' node) : h'.held = update h.held node none := by
  funext p
  by_cases hpe : p = node <;> simp [Heap.held, hr.live, hr.key, hpe]

lemma Rekeyed.held {newPriority : Nat} (hl : h.live node = true) (hr : Rekeyed h h' newPriority node) :
    h'.held = update h.held node (some (newPriority, (h.key node).2)) := by
  funext p
  by_cases hpe : p = node
  · simp [Heap.held, hr.live, hr.key, hpe, hl]
    rfl
  · simp [Heap.held, hr.live, hr.key, hpe]

/-- one operation: the heap stays well-formed and follows the map -/
lemma apply_implied (hw : h.Wf) (op : HeapOp) (hm : h.meets op = true) :
    (h.apply op).2.Wf ∧ (h.apply op).2.type = h.type ∧
      Implied h.type h.held (op, (h.apply op).1) (h.apply op).2.held := by
  cases op with
  | push priority data room =>
    rcases push_spec hw (of_decide_eq_true hm) priority data room with ⟨h', he, hp⟩ | ⟨rfl, he⟩
    · rw [apply, he]
      refine ⟨hp.wf, hp.type, ?_⟩
      rw [hp.held]
      exact .pushed (if_neg hw.not_live_fresh)
    · rw [apply, he]
      exact ⟨hw, rfl, .refused⟩
  | pop =>
    by_cases h1 : h.num = 1
    · rw [apply, pop, if_pos h1]
      refine ⟨hw, rfl, .empty fun p => if_neg fun hl => ?_⟩
      obtain ⟨hlow, hlt, -⟩ := hw.seated.pos p hl
      omega
    · have h2 : 2 ≤ h.num := by
        have := hw.num_pos
        omega
      obtain ⟨hans, hr⟩ := pop_spec hw h2
      rw [apply, hans]
      refine ⟨hr.wf, hr.type, ?_⟩
      rw [hr.held]
      refine .popped (if_pos (hw.live_nodes (le_refl 1) h2)) fun q k hk => ?_
      obtain ⟨hl, rfl⟩ := held_eq_some hk
      exact (hw.root_above hl).first
  | remove node =>
    have hr := remove_spec hw hm
    refine ⟨hr.wf, hr.type, ?_⟩
    show Implied _ _ _ (h.remove node).held
    rw [hr.held]
    exact .removed
  | changePriority newPriority node =>
    have hr := changePriority_spec hw hm newPriority
    refine ⟨hr.wf, hr.type, ?_⟩
    show Implied _ _ _ (h.changePriority newPriority node).held
    rw [hr.held hm]
    exact .changed (if_pos hm)

/-- **In every run the heap is in order, every node knows its slot, and it holds what the operations imply.** -/
theorem runs_implied (n : Nat) (type : HeapType) (ops : List HeapOp) (hn : n + 1 < 2^32)
    (hops : Along (fun op r => some (Run.next op r)) (fun op r => r.heap.meets op = true) ops
      ⟨new n type, []⟩) :
    (runs n type ops).heap.Wf ∧
      Walks (Implied type) (runs n type ops).log (fun _ => none) (runs n type ops).heap.held := by
  refine And.imp_right And.right (foldl_along (J := fun r : Run => r.heap.Wf ∧ r.heap.type = type ∧
    Walks (Implied type) r.log (fun _ => none) r.heap.held) ?_ ops hops ⟨new_wf hn type, rfl, rfl⟩)
  rintro op r hm ⟨hw, rfl, hwalk⟩
  obtain ⟨hw', ht, hi⟩ := apply_implied hw op hm
  exact ⟨hw', ht, hwalk.snoc hi⟩

theorem runs_implied_three :
    (runs 4 .minHeap [.push 5 50 true, .push 3 30 true, .changePriority 9 2, .pop]).heap.Wf :=
  (runs_implied 4 .minHeap _ (by decide) (by decide)).1

/-! ## too many nodes -/

theorem bubbleUpLoop_shuffled (x n i : Nat) (h : Heap) : Shuffled h (bubbleUpLoop x n i h) := by
  induction n generalizing i h with
  | zero => exact place_shuffled h i x
  | succ n ih =>
    unfold bubbleUpLoop
    split
    · exact (place_shuffled h i _).trans (ih _ _)
    · exact place_shuffled h i x

/-- the size of the array behind a push -/
def grown (h : Heap) : Nat := if h.num < h.size then h.size else h.size * 2 % 2^32

lemma push_shuffled (h : Heap) (priority data : Nat) :
    Shuffled ({ h with size := h.grown }.append priority data) (h.push priority data true).2 := by
  unfold push grown
  split <;> exact bubbleUpLoop_shuffled ..

def crowd (count : Nat) : Heap := (runs 1024 .minHeap (.replicate count (.push 0 0 true))).heap

lemma crowd_succ (count : Nat) : crowd (count + 1) = ((crowd count).push 0 0 true).2 := by
  rw [crowd, List.replicate_succ', runs, List.foldl_append]
  rfl

/-- the array doubles from 1025 entries on -/
lemma crowd_fills (count : Nat) (hcount : count < 1025 * 2^21) :
    (crowd count).num = count + 1 ∧ ∃ k ≤ 21, (crowd count).size = 1025 * 2^k ∧ count < 1025 * 2^k := by
  induction count with
  | zero => exact ⟨rfl, 0, by decide, rfl, by decide⟩
  | succ count ih =>
    obtain ⟨hnum, k, hk, hsize, hle⟩ := ih (by omega)
    have hs := push_shuffled (crowd count) 0 0
    rw [crowd_succ, hs.num, hs.size]
    refine ⟨?_, ?_⟩
    · show ((crowd count).num + 1) % 2^32 = _
      omega
    · show ∃ k ≤ 21, (crowd count).grown = _ ∧ _
      rw [grown, hnum, hsize]
      split
      · exact ⟨k, hk, rfl, by omega⟩
      · have hlt : 2^k < 2^21 := by omega
        have hk' : k + 1 ≤ 21 := (Nat.pow_lt_pow_iff_right (by decide)).1 hlt
        have hpow : 2^(k + 1) ≤ 2^21 := Nat.pow_le_pow_right (by decide) hk'
        refine ⟨k + 1, hk', ?_⟩
        omega

/-- the size wraps when `1025 * 2^21` slots are taken: the array shrinks, and the next slot is outside -/
theorem crowd_overruns : (crowd (1025 * 2^21)).num = 1025 * 2^21 + 1 ∧ (crowd (1025 * 2^21)).size = 2^22 ∧
    (crowd (1025 * 2^21)).overrun = true ∧ ¬ (crowd (1025 * 2^21)).Wf := by
  obtain ⟨last, hlast⟩ : ∃ n, 1025 * 2^21 = n + 1 := ⟨1025 * 2^21 - 1, by decide⟩
  obtain ⟨hnum, k, hk, hsize, hle⟩ := crowd_fills last (by omega)
  have hpow : 2^k = 2^21 := le_antisymm (Nat.pow_le_pow_right (by decide) hk) (by omega)
  have hgrown : (crowd last).grown = 2^22 := by
    rw [grown, if_neg (by omega), hsize, hpow]
    rfl
  rw [hlast, crowd_succ]
  have hs := push_shuffled (crowd last) 0 0
  have hover : ((crowd last).push 0 0 true).2.overrun = true := by
    refine hs.overrun.trans (Bool.or_eq_true_iff.2 (.inr (decide_eq_true ?_)))
    show (crowd last).grown ≤ (crowd last).num
    omega
  refine ⟨hs.num.trans ?_, hs.size.trans hgrown, hover,
    fun hw => Bool.false_ne_true (hw.inside.symm.trans hover)⟩
  show ((crowd last).num + 1) % 2^32 = _
  omega

end Heap

end OSW.Core
