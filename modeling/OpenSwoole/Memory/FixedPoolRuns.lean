import OpenSwoole.Core.OswString
import OpenSwoole.Lib.Machine
import OpenSwoole.Memory.FixedPool

/-!
# The slices of a pool in its memory

The constructors of `src/memory/fixed_pool.cc` and runs of `alloc` and `free`.  A slice is its number, and
`PoolLayout.offset` is where it begins in the block of memory.

* `PoolLayout.Fits`   two slices or more of the size asked for, and they fill the memory.
-/

namespace OSW
open List Machine

/-- what `init` finds in the implementation record; `block` is the memory with the record in front -/
structure PoolLayout where
  block : Nat
  size : Nat
  /-- the `slice_size` that the constructor was called with -/
  requested : Nat
  sliceSize : Nat
  sliceNum : Nat
  sliceNum_lt : sliceNum < 2^32

namespace PoolLayout

def implSize : Nat := 48

def sliceHeader : Nat := 24

def stride (l : PoolLayout) : Nat := sliceHeader + l.sliceSize

section
variable (l : PoolLayout)

/-- the loop of `init` makes one slice, and goes on while `cur < max` -/
def slices : Nat := (l.size - 1) / l.stride + 1

def offset (slice : Nat) : Nat := implSize + slice * l.stride

/-- the end of a slice for its caller, who uses as many bytes as were asked for -/
def sliceEnd (slice : Nat) : Nat := l.offset slice + sliceHeader + l.requested

def Apart (s t : Nat) : Prop := l.sliceEnd s ≤ l.offset t ∨ l.sliceEnd t ≤ l.offset s

def Inside (s : Nat) : Prop := l.sliceEnd s ≤ l.block

def Fits : Prop :=
  2 ≤ l.sliceNum ∧ l.size = l.sliceNum * l.stride ∧ implSize + l.size ≤ l.block ∧ l.requested ≤ l.sliceSize

end

instance (l : PoolLayout) : Decidable l.Fits := inferInstanceAs (Decidable (_ ∧ _))

variable {l : PoolLayout}

lemma lt_slices_iff (k : Nat) : k + 1 < l.slices ↔ (k + 1) * l.stride < l.size := by
  have hpos : 0 < l.stride := Nat.add_pos_left (by decide) _
  rw [slices, Nat.add_lt_add_iff_right, Nat.lt_iff_add_one_le, Nat.le_div_iff_mul_le hpos]
  have hone : 0 < (k + 1) * l.stride := Nat.mul_pos (Nat.succ_pos k) hpos
  omega

lemma Fits.slices (h : l.Fits) : l.slices = l.sliceNum := by
  obtain ⟨htwo, hsize, -⟩ := h
  have hlast := lt_slices_iff (l := l) (l.sliceNum - 1)
  have hprev := lt_slices_iff (l := l) (l.sliceNum - 2)
  rw [Nat.sub_add_cancel (by omega)] at hlast
  rw [show l.sliceNum - 2 + 1 = l.sliceNum - 1 by omega] at hprev
  have hpos : 0 < l.stride := Nat.add_pos_left (by decide) _
  have hlt : (l.sliceNum - 1) * l.stride < l.size := by
    rw [hsize]
    exact Nat.mul_lt_mul_of_pos_right (by omega) hpos
  omega

lemma Fits.sliceEnd_le (h : l.Fits) (s : Nat) : l.sliceEnd s ≤ implSize + (s + 1) * l.stride := by
  have hreq := h.2.2.2
  rw [Nat.succ_mul]
  unfold PoolLayout.sliceEnd offset stride
  omega

lemma Fits.inside (h : l.Fits) {s : Nat} (hs : s < l.sliceNum) : l.Inside s :=
  calc l.sliceEnd s ≤ implSize + (s + 1) * l.stride := h.sliceEnd_le s
    _ ≤ implSize + l.size := Nat.add_le_add_left (h.2.1 ▸ Nat.mul_le_mul_right _ hs) _
    _ ≤ l.block := h.2.2.1

lemma Fits.apart (h : l.Fits) {s t : Nat} (hne : s ≠ t) : l.Apart s t := by
  have hbefore : ∀ {s t : Nat}, s < t → l.sliceEnd s ≤ l.offset t := fun hlt =>
    Nat.le_trans (h.sliceEnd_le _) (Nat.add_le_add_left (Nat.mul_le_mul_right _ hlt) _)
  exact (Nat.lt_or_gt_of_ne hne).imp hbefore hbefore

end PoolLayout

structure PoolRun where
  pool : FixedPool
  held : List Nat

inductive PoolOp where
  | alloc
  | free (slice : Nat)

namespace PoolOp

/-- `none` is the use of a null pointer -/
def step : PoolOp → PoolRun → Option PoolRun
  | alloc, r => r.pool.alloc.map fun a => ⟨a.2, r.held ++ a.1.toList⟩
  | free slice, r => (r.pool.free slice).map fun p => ⟨p, r.held.erase slice⟩

/-- a pointer that is freed is one that was handed out -/
def Allowed : PoolOp → PoolRun → Prop
  | alloc, _ => True
  | free slice, r => slice ∈ r.held

instance (op : PoolOp) (r : PoolRun) : Decidable (op.Allowed r) := by
  cases op <;> dsimp only [PoolOp.Allowed] <;> infer_instance

end PoolOp

def PoolLayout.start (l : PoolLayout) : PoolRun := ⟨FixedPool.init l.slices, []⟩

namespace PoolRun

/-- the list has the idle slices first and then the slices held -/
structure Sound (l : PoolLayout) (r : PoolRun) : Prop where
  list : ∃ idle, r.pool.Rep idle r.held ∧ ∀ s ∈ idle ++ r.held, l.Inside s
  use : r.pool.sliceUse = r.held.length
  apart : r.held.Pairwise l.Apart
  null : (∃ p, r.pool.alloc = some (none, p)) ↔ r.held.length = l.sliceNum

variable {l : PoolLayout} {r : PoolRun} {op : PoolOp}

/-- all slices are in the list, once -/
def Complete (l : PoolLayout) (r : PoolRun) : Prop :=
  ∃ idle, r.pool.Rep idle r.held ∧ (idle ++ r.held).Perm (range l.sliceNum)

lemma alloc_cases (hl : l.Fits) {idle : List Nat} (hrep : r.pool.Rep idle r.held)
    (hperm : (idle ++ r.held).Perm (range l.sliceNum)) :
    (idle = [] ∧ r.held.length = l.sliceNum ∧ r.pool.alloc = some (none, r.pool)) ∨
      ∃ s rest p, idle = s :: rest ∧ r.held.length < l.sliceNum ∧ r.pool.alloc = some (some s, p) ∧
        p.Rep rest (r.held ++ [s]) := by
  have hlen := hperm.length_eq
  rw [length_append, length_range] at hlen
  have htwo := hl.1
  cases idle with
  | nil =>
    rw [length_nil, zero_add] at hlen
    refine .inl ⟨rfl, hlen, hrep.alloc_full ?_⟩
    apply ne_nil_of_length_pos
    omega
  | cons s rest =>
    rw [length_cons] at hlen
    obtain ⟨p, halloc, hp⟩ := hrep.alloc_idle (ne_nil_of_length_pos (by rw [length_append]; omega))
    exact .inr ⟨s, rest, p, rfl, by omega, halloc, hp⟩

lemma Complete.step (hl : l.Fits) (h : Complete l r) (hop : op.Allowed r) :
    ∃ r', op.step r = some r' ∧ Complete l r' := by
  obtain ⟨idle, hrep, hperm⟩ := h
  cases op with
  | alloc =>
    obtain ⟨rfl, -, halloc⟩ | ⟨s, rest, p, rfl, -, halloc, hp⟩ := alloc_cases hl hrep hperm
    · refine ⟨r, ?_, [], hrep, hperm⟩
      simp [PoolOp.step, halloc]
    · refine ⟨⟨p, r.held ++ [s]⟩, by simp [PoolOp.step, halloc], rest, hp, ?_⟩
      rw [← append_assoc]
      exact (perm_append_singleton s _).trans hperm
  | free s =>
    obtain ⟨p, hfree, hp⟩ := hrep.free_busy hop
    refine ⟨⟨p, r.held.erase s⟩, by simp [PoolOp.step, hfree], s :: idle, hp, Perm.trans ?_ hperm⟩
    exact perm_middle.symm.trans ((perm_cons_erase hop).symm.append_left idle)

lemma Complete.sound (hl : l.Fits) (h : Complete l r) : r.Sound l := by
  obtain ⟨idle, hrep, hperm⟩ := h
  have hlt : ∀ s ∈ idle ++ r.held, s < l.sliceNum := fun s hs => mem_range.1 (hperm.mem_iff.1 hs)
  have hlen := hperm.length_eq
  rw [length_append, length_range] at hlen
  have hnum := l.sliceNum_lt
  refine ⟨⟨idle, hrep, fun s hs => hl.inside (hlt s hs)⟩, ?_, ?_, ?_⟩
  · rw [hrep.use, Nat.mod_eq_of_lt (by omega)]
  · have hnodup := (nodup_append.1 hrep.linked.nodup).2.1
    exact hnodup.imp hl.apart
  · obtain ⟨-, hfull, halloc⟩ | ⟨s, rest, p, -, hroom, halloc, -⟩ := alloc_cases hl hrep hperm
    · exact ⟨fun _ => hfull, fun _ => ⟨_, halloc⟩⟩
    · simp [halloc, ne_of_lt hroom]

end PoolRun

end OSW
