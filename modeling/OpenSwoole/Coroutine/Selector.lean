import OpenSwoole.Coroutine.Channel

/-!
# What `Selector::select` reports

Behind `remove_waiting`, at once or after a suspension, `select` lists the channels that are ready.  One
test of readiness serves both directions, and both loops write to `pull_ready`.
-/

namespace OSW.Coroutine
open List Option

variable {α : Type}

namespace Channel

/-- `pop` does not wait -/
def pops (c : Channel α) : Bool := (c.closed && c.isEmpty) || !(c.isEmpty || !(c.queue .consumer).isEmpty)

/-- `push` does not wait -/
def pushes (c : Channel α) : Bool := c.closed || !(c.isFull || !(c.queue .producer).isEmpty)

/-- a coroutine besides `co` waits -/
def others (c : Channel α) (t : Opcode) (co : Nat) : Bool := (c.queue t).any (· ≠ co)

lemma isReady_of_pops {c : Channel α} (h : c.pops = true) : c.isReady = true := by
  unfold pops at h
  unfold isReady
  cases hc : c.closed <;> cases he : c.isEmpty <;> simp_all

end Channel

namespace Sched

lemma pop_waits_iff (s : Sched α) (ch : Nat) (timed : Bool) {co : Nat} (rest : List (Frame α))
    (h : s.waits co = none) : (s.pop ch timed co rest).waits co = none ↔ (s.chans ch).pops = true := by
  unfold pop Channel.pops
  dsimp only
  split
  · simp_all [setError, setChan]
  · split <;> simp_all [yield, popData, setStack, setWait, setChan]
    grind

lemma push_waits_iff (s : Sched α) (ch : Nat) (v : α) (timed : Bool) {co : Nat} (rest : List (Frame α))
    (h : s.waits co = none) : (s.push ch v timed co rest).waits co = none ↔ (s.chans ch).pushes = true := by
  unfold push Channel.pushes
  dsimp only
  split
  · simp_all [setError, setChan]
  · split <;> simp_all [yield, pushData, setStack, setWait, setChan]
    grind

def indices (s : Sched α) (f : Channel α → Bool) (chs : List Nat) : List Nat :=
  (range chs.length).filter fun i => (chs[i]?).any fun ch => f (s.chans ch)

variable {s : Sched α} {f g : Channel α → Bool} {chs : List Nat}

lemma mem_indices {i : Nat} : i ∈ s.indices f chs ↔ ∃ ch, chs[i]? = some ch ∧ f (s.chans ch) = true := by
  unfold indices
  rw [mem_filter, mem_range, Option.any_eq_true]
  exact ⟨fun h => h.2, fun ⟨ch, hch, hf⟩ => ⟨(List.getElem?_eq_some_iff.1 hch).1, ch, hch, hf⟩⟩

lemma indices_eq_nil : s.indices f chs = [] ↔ ∀ ch ∈ chs, f (s.chans ch) = false := by
  rw [eq_nil_iff_forall_not_mem]
  constructor
  · intro h ch hch
    obtain ⟨i, hi⟩ := mem_iff_getElem?.1 hch
    exact Bool.eq_false_iff.2 fun hf => h i (mem_indices.2 ⟨ch, hi, hf⟩)
  · intro h i hi
    obtain ⟨ch, hch, hf⟩ := mem_indices.1 hi
    exact absurd hf (ne_true_of_eq_false (h ch (mem_of_getElem? hch)))

lemma indices_eq (hfg : ∀ c, f c = true → g c = true) :
    s.indices g chs = s.indices f chs ↔ ∀ ch ∈ chs, g (s.chans ch) = true → f (s.chans ch) = true := by
  constructor
  · intro h ch hch hg
    obtain ⟨i, hi⟩ := mem_iff_getElem?.1 hch
    obtain ⟨ch', hi', hf⟩ := mem_indices.1 (h ▸ mem_indices.2 ⟨ch, hi, hg⟩)
    rwa [some.inj (hi.symm.trans hi')]
  · intro h
    refine filter_congr fun i hi => ?_
    rw [mem_range] at hi
    rw [getElem?_eq_getElem hi, Bool.eq_iff_iff]
    exact ⟨h _ (getElem_mem hi), hfg _⟩

/-- the tested channels are a part of the ready ones, so nothing can stand behind these -/
lemma indices_append_eq (hfg : ∀ c, f c = true → g c = true) (l : List Nat) :
    s.indices g chs ++ l = s.indices f chs ↔ s.indices g chs = s.indices f chs ∧ l = [] := by
  refine ⟨fun h => ?_, fun ⟨h, hl⟩ => by rw [h, hl, append_nil]⟩
  have hle : (s.indices f chs).length ≤ (s.indices g chs).length := by
    rw [indices, indices, ← countP_eq_length_filter, ← countP_eq_length_filter]
    refine countP_mono_left fun i _ hi => ?_
    rw [Option.any_eq_true] at hi ⊢
    exact hi.imp fun ch h => ⟨h.1, hfg _ h.2⟩
  have hlen := congrArg length h
  rw [length_append] at hlen
  have hl : l = [] := length_eq_zero_iff.1 (by omega)
  rw [hl, append_nil] at h
  exact ⟨h, hl⟩

lemma queue_selectEnd {pulls pushes : List Nat} {t : Opcode} {ch : Nat} (co : Nat)
    (h : ch ∈ listed pulls pushes t) : (((s.selectEnd co pulls pushes).chans ch).queue t).isEmpty =
      !(s.chans ch).others t co := by
  have hcount : (listed pulls pushes t).count ch ≠ 0 := ne_of_gt (count_pos_iff.2 h)
  show (if _ then _ else _ : List Nat).isEmpty = _
  rw [if_neg hcount, Channel.others, Bool.eq_iff_iff, List.isEmpty_iff, filter_eq_nil_iff]
  simp

/-- **What `select` reports is exact if and only if** every ready channel to pop from can be popped, and no
channel to push to is ready or can be pushed. -/
theorem select_exact_iff (s : Sched α) (co : Nat) (pulls pushes : List Nat) :
    (s.selectEnd co pulls pushes).selected co = ((s.selectEnd co pulls pushes).indices Channel.pops pulls,
          (s.selectEnd co pulls pushes).indices Channel.pushes pushes) ↔
      (∀ ch ∈ pulls, (s.chans ch).isReady = true → ((s.chans ch).closed && (s.chans ch).isEmpty) = true ∨
        (s.chans ch).isEmpty = false ∧ (s.chans ch).others .consumer co = false) ∧
      ∀ ch ∈ pushes, (s.chans ch).isReady = false ∧ (s.chans ch).closed = false ∧
        ((s.chans ch).isFull = true ∨ (s.chans ch).others .producer co = true) := by
  have hselected : (s.selectEnd co pulls pushes).selected co =
      ((s.selectEnd co pulls pushes).indices Channel.isReady pulls ++
        (s.selectEnd co pulls pushes).indices Channel.isReady pushes, []) := Function.update_self _ _ _
  rw [hselected, Prod.mk.injEq, indices_append_eq fun _ => Channel.isReady_of_pops,
    indices_eq fun _ => Channel.isReady_of_pops, indices_eq_nil, eq_comm (a := []), indices_eq_nil, and_assoc,
    ← forall₂_and]
  refine and_congr (forall₂_congr fun ch hch => imp_congr_right fun _ => ?_)
    (forall₂_congr fun ch hch => and_congr_right fun _ => ?_)
  · have hq := @queue_selectEnd α s pulls pushes .consumer ch co hch
    show ((s.chans ch).closed && (s.chans ch).isEmpty || !((s.chans ch).isEmpty || !_)) = true ↔ _
    rw [hq]
    simp
  · have hq := @queue_selectEnd α s pulls pushes .producer ch co hch
    show ((s.chans ch).closed || !((s.chans ch).isFull || !_)) = false ↔ _
    rw [hq]
    cases (s.chans ch).isFull <;> simp

/-- channel 1 can be pushed, and is not reported -/
theorem select_misses_push :
    (run [.enter 0, .push 0 5 false, .tick, .select [0] [1] false] (init (α := Nat) fun _ => 1)).selected 0 =
      ([0], []) ∧
    ((run [.enter 0, .push 0 5 false, .tick, .select [0] [1] false] (init (α := Nat) fun _ => 1)).chans
      1).pushes = true := by
  decide

end Sched

end OSW.Coroutine
