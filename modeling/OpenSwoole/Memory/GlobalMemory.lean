import OpenSwoole.Core.OswString
import OpenSwoole.Lib.Machine

/-!
# The global memory

`src/memory/global_memory.cc`: blocks are cut from pages one behind the other and never given back.
Pages are numbered in the order they are mapped; the page in use is the last one.

* `GlobalMemory.alloc`   one allocation, which may start a page, or new pages in a forked process;
* `allocs_disjoint`   in every run the blocks lie in their pages, apart, and are zeroed, as long as no sum
    of `alloc` leaves 32 bits and a forked process gets its page.
-/

namespace OSW
open Machine List

/-- `OSW_MEM_ALIGNED_SIZE_EX(pagesize, OpenSwooleG.pagesize)`, stored in 32 bits; the pages of the system have
`2^bits` bytes -/
def pageAligned (bits n : Nat) : Nat := (n + (2^bits - 1)) / 2^bits * 2^bits % 2^32

lemma dvd_pageAligned (bits n : Nat) : 2^bits ∣ pageAligned bits n := by
  unfold pageAligned
  rcases le_total bits 32 with hle | hle
  · exact (Nat.dvd_mod_iff (Nat.pow_dvd_pow 2 hle)).2 (Nat.dvd_mul_left _ _)
  · rw [Nat.mod_eq_zero_of_dvd (Nat.dvd_trans (Nat.pow_dvd_pow 2 hle) (Nat.dvd_mul_left _ _))]
    exact Nat.dvd_zero _

lemma pageAligned_idem (bits n : Nat) : pageAligned bits (pageAligned bits n) = pageAligned bits n := by
  obtain ⟨k, hk⟩ := dvd_pageAligned bits n
  have hlt : pageAligned bits n < 2^32 := Nat.mod_lt _ (by decide)
  have hone : (2^bits - 1) / 2^bits = 0 := Nat.div_eq_of_lt (Nat.sub_lt (Nat.two_pow_pos bits) Nat.one_pos)
  rw [hk] at hlt ⊢
  rw [pageAligned, Nat.mul_add_div (Nat.two_pow_pos bits), hone, add_zero, mul_comm]
  exact Nat.mod_eq_of_lt hlt

abbrev PageBytes := Nat → Nat → UInt8

/-- a call of `alloc` with `getpid()`, `OpenSwooleG.pid`, whether a page is given to `GlobalMemoryImpl` and to
`new_page`, and what the pages hold -/
structure AllocCall where
  size : Nat
  pid : Nat
  globalPid : Nat
  implPage : Bool
  newPage : Bool
  bytes : PageBytes

/-- `overrun` is a `memset` that leaves the page -/
inductive AllocAnswer where
  | block (page offset : Nat) (bytes : PageBytes)
  | null
  | badAlloc
  | overrun

/-- header and aligned bytes, as `alloc_size` without its 32 bits -/
def AllocCall.need (r : AllocCall) : Nat := 8 + memAlignedSize r.size

def AllocCall.allocSize (r : AllocCall) : Nat := (8 + memAlignedSize r.size % 2^32) % 2^32

/-- `osw_memset_zero(block->memory, size)` -/
def AllocCall.zeroed (r : AllocCall) (page offset : Nat) : PageBytes := fun p i =>
  if p = page ∧ offset + 8 ≤ i ∧ i < offset + 8 + memAlignedSize r.size % 2^32 then 0 else r.bytes p i

structure GlobalMemory where
  shared : Bool
  /-- the logarithm of `OpenSwooleG.pagesize` -/
  pageBits : Nat
  pagesize : Nat
  pages : Nat
  allocOffset : Nat
  createPid : Nat

namespace GlobalMemory

def new (pageBits pagesize : Nat) (shared : Bool) (pid : Nat) : GlobalMemory :=
  ⟨shared, pageBits, pageAligned pageBits pagesize, 1, 0, pid⟩

def newPage (g : GlobalMemory) : GlobalMemory := { g with pages := g.pages + 1, allocOffset := 0 }

section
variable (g : GlobalMemory) (r : AllocCall)

def forked : Bool := g.shared && g.createPid != r.pid

/-- `new GlobalMemoryImpl(old_impl->pagesize, old_impl->shared)` -/
def newImpl : GlobalMemory :=
  { g.newPage with pagesize := pageAligned g.pageBits g.pagesize, createPid := r.globalPid }

def take : AllocAnswer × GlobalMemory :=
  (if g.pagesize < g.allocOffset + 8 + memAlignedSize r.size % 2^32 then .overrun
    else .block (g.pages - 1) g.allocOffset (r.zeroed (g.pages - 1) g.allocOffset),
    { g with allocOffset := (g.allocOffset + r.allocSize) % 2^32 })

def place : AllocAnswer × GlobalMemory :=
  if g.pagesize < (g.allocOffset + r.allocSize) % 2^32 then
    if r.newPage then g.newPage.take r else (.null, g)
  else g.take r

def alloc : AllocAnswer × GlobalMemory :=
  if g.pagesize < r.allocSize then (.null, g)
  else if g.forked r then
    if r.implPage then (g.newImpl r).place r else (.badAlloc, g)
  else g.place r

end

/-- the block is in its page with its header and its bytes are zero -/
def Fits (pagesize : Nat) : AllocCall × AllocAnswer → Prop
  | (r, .block page offset bytes) =>
    offset + 8 + r.size ≤ pagesize ∧ ∀ i < r.size, bytes page (offset + 8 + i) = 0
  | (_, .null) => True
  | (_, .badAlloc) | (_, .overrun) => False

def Apart : AllocCall × AllocAnswer → AllocCall × AllocAnswer → Prop
  | (r, .block page offset _), (r', .block page' offset' _) =>
    page = page' → offset + 8 + r.size ≤ offset' ∨ offset' + 8 + r'.size ≤ offset
  | _, _ => True

structure Run where
  memory : GlobalMemory
  log : List (AllocCall × AllocAnswer)

def Run.next (r : AllocCall) (s : Run) : Run := ⟨(s.memory.alloc r).2, s.log ++ [(r, (s.memory.alloc r).1)]⟩

def allocs (g : GlobalMemory) (calls : List AllocCall) : Run := calls.foldl (fun s r => s.next r) ⟨g, []⟩

/-- no sum leaves 32 bits, and a forked process gets its first page -/
def meets (g : GlobalMemory) (r : AllocCall) : Bool :=
  decide (r.need < 2^32 ∧ (r.need ≤ g.pagesize →
    g.allocOffset + r.need < 2^32 ∧ (g.forked r = true → r.implPage = true)))

/-- the block is behind the offset of the page in use -/
def Behind (g : GlobalMemory) : AllocCall × AllocAnswer → Prop
  | (r, .block page offset _) => page < g.pages ∧ (page + 1 = g.pages → offset + 8 + r.size ≤ g.allocOffset)
  | _ => True

/-- what an allocation keeps -/
structure Wf (bits n : Nat) (s : Run) : Prop where
  pageBits : s.memory.pageBits = bits
  pagesize : s.memory.pagesize = pageAligned bits n
  pages : 0 < s.memory.pages
  fits : ∀ e ∈ s.log, Fits (pageAligned bits n) e
  behind : ∀ e ∈ s.log, s.memory.Behind e
  apart : s.log.Pairwise Apart

variable {bits n : Nat} {g : GlobalMemory} {r : AllocCall} {log : List (AllocCall × AllocAnswer)}

section
variable (h : Wf bits n ⟨g, log⟩)
include h

lemma Wf.newPage : Wf bits n ⟨g.newPage, log⟩ := by
  refine ⟨h.pageBits, h.pagesize, Nat.succ_pos _, h.fits, fun e he => ?_, h.apart⟩
  have := h.behind e he
  unfold Behind at this ⊢
  split
  · simp only [GlobalMemory.newPage] at this ⊢
    omega
  · trivial

lemma Wf.newImpl (r : AllocCall) : Wf bits n ⟨g.newImpl r, log⟩ := by
  have hsize : pageAligned g.pageBits g.pagesize = pageAligned bits n := by
    rw [h.pageBits, h.pagesize, pageAligned_idem]
  exact ⟨h.pageBits, hsize, Nat.succ_pos _, h.fits, h.newPage.behind, h.apart⟩

lemma Wf.null : Wf bits n ⟨g, log ++ [(r, .null)]⟩ := by
  refine ⟨h.pageBits, h.pagesize, h.pages, ?_, ?_, ?_⟩
  · simpa [or_imp, forall_and, Fits] using h.fits
  · simpa [or_imp, forall_and, Behind] using h.behind
  · simpa [pairwise_append, Apart] using h.apart

end

lemma allocSize_eq (hr : r.need < 2^32) : r.allocSize = r.need := by
  unfold AllocCall.allocSize
  unfold AllocCall.need at hr ⊢
  omega

lemma Wf.take (h : Wf bits n ⟨g, log⟩) (hr : r.need < 2^32) (hfit : g.allocOffset + r.need ≤ g.pagesize) :
    Wf bits n ⟨(g.take r).2, log ++ [(r, (g.take r).1)]⟩ := by
  have hle := le_memAlignedSize r.size
  have hpage := h.pagesize
  have hpages := h.pages
  simp only at hpage hpages
  have hlt : pageAligned bits n < 2^32 := Nat.mod_lt _ (by decide)
  have hoff : (g.allocOffset + r.allocSize) % 2^32 = g.allocOffset + r.need := by
    rw [allocSize_eq hr, Nat.mod_eq_of_lt (by omega)]
  unfold AllocCall.need at hr hoff hfit
  have hanswer : (g.take r).1 = .block (g.pages - 1) g.allocOffset (r.zeroed (g.pages - 1) g.allocOffset) :=
    if_neg (by omega)
  rw [hanswer]
  refine ⟨h.pageBits, h.pagesize, hpages, ?_, ?_, ?_⟩
  · simp only [forall_mem_append, forall_mem_singleton]
    exact ⟨h.fits, by omega, fun i hi => if_pos ⟨rfl, by omega, by omega⟩⟩
  · simp only [forall_mem_append, forall_mem_singleton]
    refine ⟨fun e he => ?_, by simp only [GlobalMemory.take]; omega, fun _ => ?_⟩
    · have := h.behind e he
      unfold Behind at this ⊢
      split
      · simp only [GlobalMemory.take] at this ⊢
        omega
      · trivial
    · simp only [GlobalMemory.take]
      omega
  · refine pairwise_append.2 ⟨h.apart, pairwise_singleton _ _, fun e he e' he' => ?_⟩
    have := h.behind e he
    unfold Behind at this
    unfold Apart
    split <;> simp_all [GlobalMemory.take]
    omega

lemma Wf.place (h : Wf bits n ⟨g, log⟩) (hr : r.need ≤ g.pagesize) (hsum : g.allocOffset + r.need < 2^32) :
    Wf bits n ⟨(g.place r).2, log ++ [(r, (g.place r).1)]⟩ := by
  have hlt : r.need < 2^32 := by omega
  unfold GlobalMemory.place
  rw [allocSize_eq hlt]
  split
  · split
    · exact h.newPage.take hlt (by simpa [GlobalMemory.newPage] using hr)
    · exact h.null
  · exact h.take hlt (by omega)

lemma Wf.next {s : Run} (h : Wf bits n s) (hm : s.memory.meets r = true) : Wf bits n (s.next r) := by
  obtain ⟨hneed, hm⟩ := of_decide_eq_true hm
  unfold Run.next alloc
  rw [allocSize_eq hneed]
  split
  · exact h.null
  · rename_i hle
    obtain ⟨hsum, hfork⟩ := hm (by omega)
    split
    · rename_i hf
      rw [if_pos (hfork hf)]
      have hpage : (s.memory.newImpl r).pagesize = s.memory.pagesize :=
        (h.newImpl r).pagesize.trans h.pagesize.symm
      refine (h.newImpl r).place (by omega) ?_
      simpa [GlobalMemory.newImpl, GlobalMemory.newPage] using hneed
    · exact h.place (by omega) hsum

theorem allocs_disjoint (pageBits pagesize : Nat) (shared : Bool) (pid : Nat) (calls : List AllocCall)
    (hcalls : Along (fun r s => some (Run.next r s)) (fun r s => s.memory.meets r = true) calls
      ⟨new pageBits pagesize shared pid, []⟩) :
    (∀ e ∈ (allocs (new pageBits pagesize shared pid) calls).log, Fits (pageAligned pageBits pagesize) e) ∧
      (allocs (new pageBits pagesize shared pid) calls).log.Pairwise Apart := by
  have h : Wf pageBits pagesize (allocs (new pageBits pagesize shared pid) calls) := by
    refine foldl_along (fun r s hm h => h.next hm) calls hcalls ?_
    exact ⟨rfl, rfl, Nat.one_pos, by simp, by simp, Pairwise.nil⟩
  exact ⟨h.fits, h.apart⟩

def callOf (size : Nat) : AllocCall := ⟨size, 0, 0, true, true, fun _ _ => 1⟩

theorem allocs_disjoint_two : (allocs (new 12 4096 true 0) [callOf 4000, callOf 200]).memory.pages = 2 ∧
    (allocs (new 12 4096 true 0) [callOf 4000, callOf 200]).log.Pairwise Apart :=
  ⟨by decide, (allocs_disjoint 12 4096 true 0 [callOf 4000, callOf 200] (by decide)).2⟩

/-- the aligned size of `2^32 - 1` bytes is `0` in 32 bits -/
theorem alloc_wraps : ((new 12 4096 false 0).alloc (callOf (2^32 - 1))).1 =
      .block 0 0 ((callOf (2^32 - 1)).zeroed 0 0) ∧
    ¬ Fits (pageAligned 12 4096) (callOf (2^32 - 1), ((new 12 4096 false 0).alloc (callOf (2^32 - 1))).1) :=
  ⟨rfl, fun h => absurd h.1 (by decide)⟩

end GlobalMemory

end OSW
