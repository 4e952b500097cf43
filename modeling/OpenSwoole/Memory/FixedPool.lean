import Mathlib.Algebra.Group.Nat.Defs
import Mathlib.Data.List.Nodup
import OpenSwoole.Lib.Chain

/-!
# The pool of slices of one size

`src/memory/fixed_pool.cc`.  The slices form one doubly linked list: the idle slices first, then the
busy ones.  `alloc` takes the head and moves it to the tail, `free` moves a slice to the head.  A
slice is its number, and a field of the slices is a function.

* `FixedPool.init`, `alloc`, `free`   the code; `none` is the use of a null pointer;
* `FixedPool.Rep`   the list is the idle slices and then the busy ones;
* `alloc_idle`, `alloc_full`, `free_busy`   what the operations do to the two lists.
-/

namespace OSW
open Chain List Function

structure FixedPool where
  lock : Nat → Bool
  next : Nat → Option Nat
  pre : Nat → Option Nat
  head : Option Nat
  tail : Option Nat
  /-- a `uint32_t` -/
  sliceUse : Nat

namespace FixedPool

/-- one turn of the loop of `FixedPoolImpl::init`; `pre` is set to the next slice in memory, if there
is one -/
def initStep (sliceNum : Nat) (p : FixedPool) (slice : Nat) : FixedPool where
  lock := update p.lock slice false
  next := update p.next slice p.head
  pre :=
    update (match p.head with
        | some h => update p.pre h (some slice)
        | none => p.pre)
      slice (if slice + 1 < sliceNum then some (slice + 1) else none)
  head := some slice
  tail := if p.head.isSome then p.tail else some slice
  sliceUse := p.sliceUse

def empty : FixedPool := ⟨fun _ => false, fun _ => none, fun _ => none, none, none, 0⟩

def init (sliceNum : Nat) : FixedPool := (range sliceNum).foldl (initStep sliceNum) empty

section
variable (p : FixedPool)

/-- the head is locked and moved behind `last`; `nextSlice` becomes the head -/
def moveToTail (slice nextSlice last : Nat) : FixedPool where
  lock := update p.lock slice true
  next := update (update p.next last (some slice)) slice none
  pre := update (update p.pre nextSlice none) slice (some last)
  head := some nextSlice
  tail := some slice
  sliceUse := (p.sliceUse + 1) % 2^32

def alloc : Option (Option Nat × FixedPool) :=
  p.head.bind fun slice =>
    if p.lock slice = false then
      -- `slice->next->pre` and `tail->next` are written
      (p.next slice).bind fun nextSlice => p.tail.bind fun last =>
        some (some slice, p.moveToTail slice nextSlice last)
    else some (none, p)

def unlock (slice : Nat) : FixedPool :=
  { p with
    lock := update p.lock slice false
    sliceUse := if p.lock slice then (p.sliceUse + 2^32 - 1) % 2^32 else p.sliceUse }

/-- take the slice out, behind `before`: list tail, or middle -/
def unlink (slice before : Nat) : FixedPool :=
  match p.next slice with
  | none => { p with next := update p.next before none, tail := some before }
  | some after =>
    { p with
      next := update p.next before (some after)
      pre := update p.pre after (some before) }

def pushFront (slice : Nat) : Option FixedPool :=
  p.head.map fun h =>
    { p with
      pre := update (update p.pre slice none) h (some slice)
      next := update p.next slice (some h)
      head := some slice }

def free (slice : Nat) : Option FixedPool :=
  match p.pre slice with
  -- list head
  | none => some (p.unlock slice)
  | some before => ((p.unlock slice).unlink slice before).pushFront slice

end

/-! ## the list -/

structure Linked (p : FixedPool) (l : List Nat) : Prop where
  nodup : l.Nodup
  head : p.head = first l none
  tail : p.tail = first l.reverse none
  next : Path p.next l none
  pre : Path p.pre l.reverse none

variable {p : FixedPool} {s sliceNum : Nat} {l : List Nat}

lemma Linked.rotate (h : p.Linked (s :: l)) (hl : l ≠ []) (hlock : p.lock s = false) :
    ∃ p', p.alloc = some (some s, p') ∧ p'.Linked (l ++ [s]) ∧
      p'.lock = update p.lock s true ∧ p'.sliceUse = (p.sliceUse + 1) % 2^32 := by
  obtain ⟨hs, hn⟩ := nodup_cons.1 h.nodup
  obtain ⟨y, q, hyq⟩ := exists_cons_of_ne_nil hl
  obtain ⟨m, t, hmt⟩ : ∃ m t, l = m ++ [t] := ⟨_, _, (dropLast_concat_getLast hl).symm⟩
  have hrev : l.reverse = t :: m.reverse := by rw [hmt, reverse_append]; rfl
  have hrev' : l.reverse = q.reverse ++ [y] := by rw [hyq, reverse_cons]
  have hhead : p.head = some s := h.head
  have hnext : p.next s = some y := by rw [h.next.1, hyq]; rfl
  have htail : p.tail = some t := by rw [h.tail, reverse_cons, hrev]; rfl
  refine ⟨p.moveToTail s y t, ?_, ?_, rfl, rfl⟩
  · unfold alloc
    rw [hhead, Option.bind_some, if_pos hlock, hnext, htail]
    rfl
  refine ⟨?_, ?_, ?_, ?_, ?_⟩
  · rw [nodup_append]
    exact ⟨hn, nodup_singleton s, fun x hx z hz he => hs (mem_singleton.1 hz ▸ he ▸ hx)⟩
  · rw [first_append, hyq]
    rfl
  · rw [reverse_append]
    rfl
  · have htm : t ∉ m := by
      intro hm
      rw [hmt, nodup_append] at hn
      exact hn.2.2 t hm t mem_cons_self rfl
    have hp : Path p.next (m ++ [t]) none := hmt ▸ h.next.2
    show Path (update (update p.next t (some s)) s none) (l ++ [s]) none
    rw [path_append, path_singleton, update_self]
    refine ⟨?_, rfl⟩
    exact ((hmt ▸ hp.setEnd htm (some s) : Path _ l (some s))).update hs none
  · have hyq' : y ∉ q.reverse := by
      rw [hyq, nodup_cons] at hn
      rw [mem_reverse]
      exact hn.1
    have hp := h.pre
    rw [reverse_cons, path_append, hrev'] at hp
    rw [reverse_append]
    show Path (update (update p.pre y none) s (some t)) (s :: l.reverse) none
    refine ⟨by rw [update_self, hrev]; rfl, ?_⟩
    refine Path.update ?_ (fun hm => hs (mem_reverse.1 hm)) _
    rw [hrev']
    exact hp.1.setEnd hyq' none

lemma unlink_lock (p : FixedPool) (s u : Nat) : (p.unlink s u).lock = p.lock := by
  unfold FixedPool.unlink
  split <;> rfl

lemma unlink_sliceUse (p : FixedPool) (s u : Nat) : (p.unlink s u).sliceUse = p.sliceUse := by
  unfold FixedPool.unlink
  split <;> rfl

lemma Linked.unlink {a b : List Nat} {u : Nat} (h : p.Linked (a ++ u :: s :: b)) :
    (p.unlink s u).Linked (a ++ u :: b) := by
  have hn : (a ++ u :: b).Nodup := h.nodup.sublist
    ((Sublist.refl a).append ((sublist_cons_self s b).cons_cons u))
  have hhead : first (a ++ u :: s :: b) none = first (a ++ u :: b) none := by
    rw [first_append, first_append]
    rfl
  have hnext : p.next s = first b none := (path_append.1 h.next).2.2.1
  have hpath := h.next.unlink h.nodup
  have htail := h.tail
  have hpre := h.pre
  have hnodup := nodup_reverse.2 h.nodup
  cases b with
  | nil =>
    have hp : p.unlink s u = { p with next := update p.next u none, tail := some u } := by
      unfold FixedPool.unlink
      rw [hnext]
      rfl
    rw [hp]
    refine ⟨hn, h.head.trans hhead, ?_, hpath, ?_⟩
    · rw [reverse_append]
      rfl
    · rw [reverse_append] at hpre ⊢
      exact hpre.2
  | cons v b =>
    have hp : p.unlink s u = { p with
        next := update p.next u (some v)
        pre := update p.pre v (some u) } := by
      unfold FixedPool.unlink
      rw [hnext]
      rfl
    have hrev : (a ++ u :: s :: v :: b).reverse = b.reverse ++ v :: s :: u :: a.reverse := by simp
    have hrev' : (a ++ u :: v :: b).reverse = b.reverse ++ v :: u :: a.reverse := by simp
    rw [hrev] at htail hpre hnodup
    rw [hp]
    refine ⟨hn, h.head.trans hhead, ?_, hpath, ?_⟩
    · rw [hrev']
      refine htail.trans ?_
      rw [first_append, first_append]
      rfl
    · rw [hrev']
      exact hpre.unlink hnodup

lemma Linked.pushFront (h : p.Linked l) (hl : l ≠ []) (hs : s ∉ l) :
    ∃ p', p.pushFront s = some p' ∧ p'.Linked (s :: l) ∧ p'.lock = p.lock ∧ p'.sliceUse = p.sliceUse := by
  obtain ⟨y, q, rfl⟩ := exists_cons_of_ne_nil hl
  have hhead : p.head = some y := h.head
  obtain ⟨hyq, -⟩ := nodup_cons.1 h.nodup
  have hsy : s ≠ y := fun he => hs (he ▸ mem_cons_self)
  refine ⟨{ p with
      pre := update (update p.pre s none) y (some s)
      next := update p.next s (some y)
      head := some s }, ?_, ?_, rfl, rfl⟩
  · unfold FixedPool.pushFront
    rw [hhead]
    rfl
  refine ⟨nodup_cons.2 ⟨hs, h.nodup⟩, rfl, ?_, ?_, ?_⟩
  · rw [reverse_cons]
    refine h.tail.trans ?_
    rw [reverse_cons]
    cases q.reverse <;> rfl
  · exact ⟨update_self s _ _, h.next.update hs _⟩
  · have hpre := h.pre
    rw [reverse_cons] at hpre ⊢
    show Path (update (update p.pre s none) y (some s)) _ none
    rw [path_append, path_singleton, update_of_ne hsy, update_self]
    refine ⟨?_, rfl⟩
    rw [reverse_cons]
    refine (hpre.update ?_ none).setEnd ?_ (some s)
    · simpa [and_comm] using hs
    · rw [mem_reverse]
      exact hyq

/-! ## idle and busy slices -/

structure Rep (p : FixedPool) (idle busy : List Nat) : Prop where
  linked : p.Linked (idle ++ busy)
  idle_lock : ∀ s ∈ idle, p.lock s = false
  busy_lock : ∀ s ∈ busy, p.lock s = true
  use : p.sliceUse = busy.length % 2^32

section
variable {idle busy : List Nat}

lemma Rep.alloc_idle (h : p.Rep (s :: idle) busy) (hne : idle ++ busy ≠ []) :
    ∃ p', p.alloc = some (some s, p') ∧ p'.Rep idle (busy ++ [s]) := by
  obtain ⟨p', halloc, hlinked, hlock, huse⟩ := h.linked.rotate hne (h.idle_lock s mem_cons_self)
  obtain ⟨hs, -⟩ := nodup_cons.1 h.linked.nodup
  have hother : ∀ x ∈ idle ++ busy, p'.lock x = p.lock x := by
    intro x hx
    rw [hlock, update_of_ne]
    rintro rfl
    exact hs hx
  refine ⟨p', halloc, by rwa [← append_assoc], ?_, ?_, ?_⟩
  · intro x hx
    rw [hother x (mem_append_left busy hx)]
    exact h.idle_lock x (mem_cons_of_mem s hx)
  · intro x hx
    rcases mem_append.1 hx with hx | hx
    · rw [hother x (mem_append_right idle hx)]
      exact h.busy_lock x hx
    · rw [mem_singleton.1 hx, hlock, update_self]
  · rw [huse, h.use, length_append, Nat.mod_add_mod]
    rfl

lemma Rep.alloc_full (h : p.Rep [] busy) (hne : busy ≠ []) : p.alloc = some (none, p) := by
  obtain ⟨x, l, rfl⟩ := exists_cons_of_ne_nil hne
  have hhead : p.head = some x := h.linked.head
  unfold alloc
  rw [hhead, Option.bind_some, if_neg]
  rw [h.busy_lock x mem_cons_self]
  decide

lemma Rep.unlocked (h : p.Rep idle busy) (hs : s ∈ busy) {p' : FixedPool}
    (hlinked : p'.Linked (s :: idle ++ busy.erase s)) (hlock : p'.lock = (p.unlock s).lock)
    (huse : p'.sliceUse = (p.unlock s).sliceUse) : p'.Rep (s :: idle) (busy.erase s) := by
  have hother : ∀ x, x ≠ s → p'.lock x = p.lock x := by
    intro x hx
    rw [hlock]
    exact update_of_ne hx false p.lock
  refine ⟨hlinked, ?_, ?_, ?_⟩
  · intro x hx
    rcases mem_cons.1 hx with rfl | hmem
    · rw [hlock]
      exact update_self x false p.lock
    · rw [hother x]
      · exact h.idle_lock x hmem
      · rintro rfl
        exact (nodup_append.1 h.linked.nodup).2.2 x hmem x hs rfl
  · intro x hx
    have hbusy := (nodup_append.1 h.linked.nodup).2.1
    obtain ⟨hne, hmem⟩ := hbusy.mem_erase_iff.1 hx
    rw [hother x hne]
    exact h.busy_lock x hmem
  · have hpos := length_pos_of_mem hs
    rw [huse, FixedPool.unlock, if_pos (h.busy_lock s hs), h.use, length_erase_of_mem hs]
    dsimp only
    omega

lemma Rep.free_busy (h : p.Rep idle busy) (hs : s ∈ busy) :
    ∃ p', p.free s = some p' ∧ p'.Rep (s :: idle) (busy.erase s) := by
  obtain ⟨c, d, -, hbusy, herase⟩ := exists_erase_eq hs
  have hlinked : (p.unlock s).Linked (idle ++ busy) := { h.linked with }
  have hpre := h.linked.pre
  have hlist : idle ++ busy = (idle ++ c) ++ s :: d := by rw [hbusy, append_assoc]
  have hlist' : s :: idle ++ busy.erase s = s :: ((idle ++ c) ++ d) := by
    rw [herase, append_assoc]
    rfl
  rw [hlist] at hlinked hpre
  unfold FixedPool.free
  obtain ha | ⟨a, u, ha⟩ := eq_nil_or_concat' (idle ++ c)
  · -- the slice is the head of the list: it stays there
    rw [ha] at hlinked hpre hlist'
    rw [nil_append, reverse_cons, path_append, path_singleton] at hpre
    rw [hpre.2]
    exact ⟨_, rfl, h.unlocked hs (hlist' ▸ hlinked) rfl rfl⟩
  · have hs' : s ∉ a ++ u :: d := by
      have hn := hlinked.nodup
      rw [nodup_middle, ha, append_assoc] at hn
      exact (nodup_cons.1 hn).1
    rw [ha, append_assoc] at hlinked hpre hlist'
    have hrev : (a ++ ([u] ++ s :: d)).reverse = d.reverse ++ s :: u :: a.reverse := by simp
    rw [hrev] at hpre
    rw [(path_append.1 hpre).2.1]
    obtain ⟨p', hpush, hl, hlock, huse⟩ := hlinked.unlink.pushFront (by simp) hs'
    exact ⟨p', hpush, h.unlocked hs (hlist' ▸ hl) (hlock.trans (unlink_lock _ _ _))
      (huse.trans (unlink_sliceUse _ _ _))⟩

end

/-! ## the list of a new pool -/

/-- the list after the first `k` turns: every slice was put before the one ahead of it in memory -/
structure InitLinked (sliceNum k : Nat) (p : FixedPool) : Prop where
  head : p.head = first (range k).reverse none
  tail : p.tail = first (range k) none
  next : Path p.next (range k).reverse none
  pre : Path p.pre (range k) (if k < sliceNum then some k else none)
  lock : ∀ s, p.lock s = false
  use : p.sliceUse = 0

lemma InitLinked.step {k : Nat} (h : p.InitLinked sliceNum k) :
    (p.initStep sliceNum k).InitLinked sliceNum (k + 1) := by
  have hk : k ∉ range k := not_mem_range_self
  have hk' : k ∉ (range k).reverse := fun hm => hk (mem_reverse.1 hm)
  refine ⟨?_, ?_, ?_, ?_, ?_, h.use⟩
  · rw [range_succ, reverse_append]
    rfl
  · show (if p.head.isSome then p.tail else some k) = _
    rw [h.head, h.tail, range_succ, first_append]
    cases k with
    | zero => rfl
    | succ j =>
      rw [range_succ, reverse_append, first_append, first_append, first_append]
      rfl
  · rw [range_succ, reverse_append]
    exact ⟨(update_self k _ _).trans h.head, h.next.update hk' _⟩
  · rw [range_succ, path_append, path_singleton]
    refine ⟨Path.update ?_ hk _, update_self k _ _⟩
    rw [h.head]
    cases k with
    | zero => trivial
    | succ j =>
      have hpre := h.pre
      rw [range_succ] at hpre ⊢
      rw [reverse_append]
      exact hpre.setEnd not_mem_range_self (some (j + 1))
  · intro s
    show update p.lock k false s = false
    by_cases hs : s = k
    · rw [hs, update_self]
    · rw [update_of_ne hs]
      exact h.lock s

/-- **Every slice of a new pool is idle**, the last one in memory first. -/
theorem init_rep : (init sliceNum).Rep (range sliceNum).reverse [] := by
  have h : ∀ k ≤ sliceNum, ((range k).foldl (initStep sliceNum) empty).InitLinked sliceNum k := by
    intro k
    induction k with
    | zero => exact fun _ => ⟨rfl, rfl, trivial, trivial, fun _ => rfl, rfl⟩
    | succ k ih =>
      intro hk
      rw [range_succ, foldl_append]
      exact (ih (by omega)).step
  obtain ⟨hhead, htail, hnext, hpre, hlock, huse⟩ := h sliceNum (Nat.le_refl _)
  rw [if_neg (Nat.lt_irrefl _)] at hpre
  refine ⟨?_, fun s _ => hlock s, nofun, huse⟩
  rw [append_nil]
  refine ⟨nodup_reverse.mpr nodup_range, hhead, ?_, hnext, ?_⟩
  · rw [reverse_reverse]
    exact htail
  · rw [reverse_reverse]
    exact hpre

end FixedPool

end OSW
