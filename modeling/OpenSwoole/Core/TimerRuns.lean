import OpenSwoole.Core.TimerInv

/-!
# Runs of the timers

* `Loop.Inv`   the invariant of the machine: map and heap are in step (`Good`), the node whose callback
    runs is there, and only that node can be marked as removed;
* `Safe`   there is room for a new node; and when the callback of a node that will go returns, the node is
    at the top of the heap;
* `timer_in_step`   **on every run of safe steps map and heap are in step, and after a callback exactly
    its own node goes**.
-/

namespace OSW.Core
open Option Function Machine

namespace Timer

structure Running (t : Timer) (f : Frame) : Prop where
  live : t.live f.tnode = true
  tmp : (t.tnodes f.tnode).heapNode = f.tmp
  current : t.currentId = (t.tnodes f.tnode).id

/-- does the node go when its callback returns -/
def Leaves (t : Timer) (tnode : Nat) : Prop :=
  (t.tnodes tnode).interval ≤ 0 ∨ (t.tnodes tnode).removed = true

instance (t : Timer) (tnode : Nat) : Decidable (t.Leaves tnode) := inferInstanceAs (Decidable (_ ∨ _))

namespace Loop

structure Inv (s : Loop) : Prop where
  good : s.timer.Good
  idle : s.frame = none → s.timer.currentId = -1
  running : ∀ f, s.frame = some f → Running s.timer f
  marked : ∀ p, s.timer.live p = true → (s.timer.tnodes p).removed = true →
    ∃ f, s.frame = some f ∧ f.tnode = p

lemma start_inv (mode : TimerMode) : (start mode).Inv where
  good := new_good mode
  idle := fun _ => rfl
  running := nofun
  marked := nofun

/-! ## calls -/

variable {s : Loop} {p : Nat}

lemma Inv.add (h : s.Inv) (hroom : s.timer.Room) (now msec : Int) (persistent room : Bool) :
    (s.add now msec persistent room).Inv := by
  unfold Loop.add
  rcases add_cases h.good hroom now msec persistent room with ⟨t, he, hr⟩ | ⟨-, -, t, he, ha⟩
  · rw [he]
    refine ⟨hr.good h.good hroom, ?_, ?_, ?_⟩
    · intro hf
      exact hr.currentId.trans (h.idle hf)
    · intro f hf
      obtain ⟨hl, ht, hc⟩ := h.running f hf
      refine ⟨?_, ?_, ?_⟩
      · rw [hr.same.live]
        exact hl
      · rw [hr.same.tnodes]
        exact ht
      · rw [hr.same.tnodes, hr.currentId]
        exact hc
    · intro p hp hm
      rw [hr.same.live] at hp
      rw [hr.same.tnodes] at hm
      exact h.marked p hp hm
  · rw [he]
    -- the nodes that were there are at other addresses
    have hold : ∀ p, s.timer.live p = true → t.live p = true ∧ t.tnodes p = s.timer.tnodes p := by
      intro p hp
      have hne := h.good.ne_fresh hp
      rw [ha.live, ha.tnodes, update_of_ne hne, update_of_ne hne]
      exact ⟨hp, rfl⟩
    refine ⟨ha.good, ?_, ?_, ?_⟩
    · intro hf
      exact ha.currentId.trans (h.idle hf)
    · intro f hf
      obtain ⟨hl, ht, hc⟩ := h.running f hf
      obtain ⟨hl', hn⟩ := hold _ hl
      refine ⟨hl', ?_, ?_⟩
      · rw [hn]
        exact ht
      · rw [hn, ha.currentId]
        exact hc
    · intro p hp hm
      rw [ha.live] at hp
      rw [ha.tnodes] at hm
      by_cases hpf : p = s.timer.fresh
      · rw [hpf, update_self] at hm
        cases hm
      · rw [update_of_ne hpf] at hp hm
        exact h.marked p hp hm

lemma add_frame (s : Loop) (now msec : Int) (persistent room : Bool) :
    (s.add now msec persistent room).frame = s.frame := by
  unfold Loop.add
  split
  · rfl
  · rfl

variable (h : s.Inv)
include h

lemma Inv.retime (hp : s.timer.live p = true) (exec : Int) :
    Inv { s with timer := s.timer.retime p exec } where
  good := h.good.retime hp exec
  idle := h.idle
  running := by
    intro f hf
    obtain ⟨hl, ht, hc⟩ := h.running f hf
    have hn := retime_tnodes s.timer p f.tnode exec
    refine ⟨hl, ?_, ?_⟩
    · rw [hn]
      exact ht
    · rw [hn]
      exact hc
  marked := by
    intro q hq hm
    rw [retime_tnodes] at hm
    exact h.marked q hq hm

lemma Inv.markRemoved {f : Frame} (hf : s.frame = some f) (es : List Event) :
    Inv { s with timer := s.timer.markRemoved f.tnode, events := es } where
  good := h.good.markRemoved f.tnode
  idle := h.idle
  running := by
    intro g hg
    obtain rfl : f = g := some.inj (hf.symm.trans hg)
    obtain ⟨hl, ht, hc⟩ := h.running f hf
    refine ⟨hl, ?_, ?_⟩
    · rw [markRemoved_tnodes]
      exact ht
    · rw [markRemoved_tnodes]
      exact hc
  marked := by
    intro q hq hm
    by_cases hqf : q = f.tnode
    · exact ⟨f, hf, hqf.symm⟩
    · rw [markRemoved_tnodes, if_neg hqf] at hm
      exact h.marked q hq hm

lemma Inv.erase (hp : s.timer.live p = true) (hne : (s.timer.tnodes p).id ≠ s.timer.currentId)
    (es : List Event) :
    Inv { s with timer := s.timer.erase p, events := es } where
  good := (h.good.erase hp).2
  idle := h.idle
  running := by
    intro f hf
    obtain ⟨hl, ht, hc⟩ := h.running f hf
    refine ⟨?_, ht, hc⟩
    have hfp : f.tnode ≠ p := by
      intro he
      rw [he] at hc
      exact hne hc.symm
    show Function.update s.timer.live p false f.tnode = true
    rw [update_of_ne hfp]
    exact hl
  marked := by
    intro q hq hm
    exact h.marked q (live_drop hq).2 hm

lemma Inv.current (hp : s.timer.live p = true) (hpos : 0 < s.timer.currentId)
    (hid : (s.timer.tnodes p).id = s.timer.currentId) : ∃ f, s.frame = some f ∧ f.tnode = p := by
  cases hf : s.frame with
  | none =>
    rw [h.idle hf] at hpos
    cases hpos
  | some f =>
    obtain ⟨hl, -, hc⟩ := h.running f hf
    exact ⟨f, rfl, h.good.id_inj hl hp (hc.symm.trans hid.symm)⟩

lemma Inv.remove_cases (id : Int) : s.remove id = s ∨ (∃ f, s.frame = some f ∧ s.remove id =
        { s with timer := s.timer.markRemoved f.tnode, events := s.events ++ [.removed f.tnode] }) ∨
      ∃ p, s.timer.live p = true ∧ (s.timer.tnodes p).id = id ∧ id ≠ s.timer.currentId ∧ s.remove id =
        { s with timer := s.timer.erase p, events := s.events ++ [.removed p] } := by
  unfold Loop.remove
  cases hm : s.timer.get id with
  | none => exact .inl rfl
  | some p =>
    obtain ⟨hl, hid⟩ := h.good.map id p hm
    rcases Timer.remove_cases h.good hm with ⟨-, he⟩ | ⟨-, hpos, hc, he⟩ | ⟨-, hne, he⟩
    · left
      simp only [he]
    · obtain ⟨f, hf, rfl⟩ := h.current hl hpos hc
      refine .inr (.inl ⟨f, hf, ?_⟩)
      simp only [he]
    · refine .inr (.inr ⟨p, hl, hid, hid ▸ hne, ?_⟩)
      simp only [he]

lemma Inv.remove (id : Int) : (s.remove id).Inv := by
  rcases h.remove_cases id with he | ⟨f, hf, he⟩ | ⟨p, hl, hid, hne, he⟩
  · rw [he]
    exact h
  · rw [he]
    exact h.markRemoved hf _
  · rw [he]
    exact h.erase hl (hid.symm ▸ hne) _

lemma Inv.call (c : Call)
    (hroom : ∀ now msec persistent room, c = .add now msec persistent room → s.timer.Room) : (s.call c).Inv := by
  cases c with
  | add now msec persistent room => exact h.add (hroom _ _ _ _ rfl) now msec persistent room
  | remove id => exact h.remove id
  | delay now id delayMs =>
    show (s.delay now id delayMs).Inv
    unfold Loop.delay
    cases hm : s.timer.get id with
    | none => exact h
    | some p => exact h.retime (h.good.map id p hm).1 _
  | update id =>
    show (s.update id).Inv
    unfold Loop.update
    cases hm : s.timer.get id with
    | none => exact h
    | some p =>
      show Inv { s with timer := s.timer.update p }
      rw [update_eq_retime]
      exact h.retime (h.good.map id p hm).1 _

end Loop

/-! ## the loop of `select` -/

/-- no callback runs and no node is marked -/
structure Between (t : Timer) : Prop where
  good : t.Good
  current : t.currentId = -1
  unmarked : ∀ p, t.live p = true → (t.tnodes p).removed = false

variable {t : Timer} {now : Int}

lemma top_eq (hg : t.Good) : t.heap.num = 1 ∧ t.heap.top = none ∨
      ∃ p, t.live p = true ∧ (t.tnodes p).heapNode = t.heap.nodes 1 ∧ 2 ≤ t.heap.num ∧
        t.heap.top = some (t.heap.nodes 1) ∧ (t.heap.mem (t.heap.nodes 1)).data = p := by
  have hpos := hg.heap.num_pos
  by_cases hn : t.heap.num = 1
  · exact .inl ⟨hn, if_pos hn⟩
  · obtain ⟨hl, hb⟩ := hg.back _ (hg.heap.live_nodes (le_refl 1) (by omega))
    exact .inr ⟨_, hl, hb, by omega, if_neg hn, rfl⟩

lemma selectTop_some (hg : t.Good) {tmp p : Nat} (h : t.selectTop now = some (tmp, p)) :
    t.live p = true ∧ (t.tnodes p).heapNode = tmp ∧ t.heap.nodes 1 = tmp ∧
      (t.tnodes p).execMsec ≤ now ∧ (t.tnodes p).round ≠ t.round := by
  unfold selectTop at h
  rcases top_eq hg with ⟨-, htop⟩ | ⟨q, hl, hq, -, htop, hd⟩
  · rw [htop] at h
    cases h
  · rw [htop] at h
    simp only [hd] at h
    by_cases hc : (t.tnodes q).execMsec > now ∨ (t.tnodes q).round = t.round
    · rw [if_pos hc] at h
      cases h
    · rw [if_neg hc] at h
      obtain ⟨rfl, rfl⟩ := Prod.mk.inj (some.inj h)
      exact ⟨hl, hq, rfl, by omega, fun he => hc (.inr he)⟩

lemma selectTop_none (hg : t.Good) (h : t.selectTop now = none) :
    t.heap.num = 1 ∨ ∃ p, t.live p = true ∧ (t.tnodes p).heapNode = t.heap.nodes 1 ∧
      (now < (t.tnodes p).execMsec ∨ (t.tnodes p).round = t.round) := by
  unfold selectTop at h
  rcases top_eq hg with ⟨hn, -⟩ | ⟨q, hl, hq, -, htop, hd⟩
  · exact .inl hn
  · rw [htop] at h
    simp only [hd] at h
    by_cases hc : (t.tnodes q).execMsec > now ∨ (t.tnodes q).round = t.round
    · exact .inr ⟨q, hl, hq, hc⟩
    · rw [if_neg hc] at h
      cases h

lemma selectEnd_same (t : Timer) (now clock : Int) : Same t (t.selectEnd now clock) := by
  have hs := set_same t clock
  exact ⟨(hs _).heap, (hs _).map, (hs _).tnodes, (hs _).live, (hs _).fresh⟩

lemma selectEnd_fields (t : Timer) (now clock : Int) :
    (t.selectEnd now clock).nextId = t.nextId ∧ (t.selectEnd now clock).currentId = t.currentId := by
  exact ⟨(set_fields t clock _).1, (set_fields t clock _).2.2.1⟩

lemma afterCallback_cases {t' : Timer} {f : Frame} (hr : Running t f)
    (h : t.afterCallback f.now f.tmp f.tnode = some t') :
    (¬ t.Leaves f.tnode ∧ ∃ exec, catchUp f.now (t.tnodes f.tnode).interval (2^64)
        (t.tnodes f.tnode).execMsec = some exec ∧
        t' = { t with currentId := -1 }.retime f.tnode exec) ∨
      t.Leaves f.tnode ∧ t' = { t with currentId := -1 }.popNode f.tnode := by
  unfold afterCallback at h
  by_cases hc : (t.tnodes f.tnode).interval > 0 ∧ (t.tnodes f.tnode).removed = false
  · have hstay : ¬ t.Leaves f.tnode := by
      rintro (hi | hm)
      · exact absurd hc.1 (by omega)
      · exact Bool.false_ne_true (hc.2.symm.trans hm)
    simp only [if_pos hc, map_eq_some_iff] at h
    obtain ⟨exec, he, rfl⟩ := h
    refine .inl ⟨hstay, exec, he, ?_⟩
    have := rearm_eq_retime { t with currentId := -1 } f.tnode exec
    rw [← this]
    rw [hr.tmp]
  · simp only [if_neg hc, some.injEq] at h
    refine .inr ⟨?_, h.symm⟩
    by_cases hi : (t.tnodes f.tnode).interval ≤ 0
    · exact .inl hi
    · exact .inr (Bool.of_not_eq_false fun hm => hc ⟨by omega, hm⟩)

lemma Good.setCurrent (hg : t.Good) (id : Int) : Good { t with currentId := id } :=
  hg.of_same ⟨rfl, rfl, rfl, rfl, rfl⟩ le_rfl hg.nextId.2

namespace Loop

variable {s s' : Loop} {a : Act}

lemma head_inv (h : Between s.timer) (now clock : Int) : (s.head now clock).Inv := by
  unfold head
  cases ht : s.timer.selectTop now with
  | none =>
    have hs := selectEnd_same s.timer now clock
    obtain ⟨hid, hc⟩ := selectEnd_fields s.timer now clock
    refine ⟨?_, fun _ => hc.trans h.current, nofun, ?_⟩
    · refine h.good.of_same hs (le_of_eq hid.symm) ?_
      rw [hid]
      exact h.good.nextId.2
    · intro p hp hm
      have hp' : (s.timer.selectEnd now clock).live p = true := hp
      have hm' : ((s.timer.selectEnd now clock).tnodes p).removed = true := hm
      rw [hs.live] at hp'
      rw [hs.tnodes, h.unmarked p hp'] at hm'
      cases hm'
  | some x =>
    obtain ⟨hl, hq, -⟩ := selectTop_some h.good (ht.trans (congrArg some (Prod.eta x).symm))
    refine ⟨h.good.setCurrent _, nofun, ?_, ?_⟩
    · intro f hf
      cases hf
      exact ⟨hl, hq, rfl⟩
    · intro p hp hm
      cases (h.unmarked p hp).symm.trans hm

lemma Inv.unmarked (h : s.Inv) {p : Nat} (hp : s.timer.live p = true)
    (hne : ∀ f, s.frame = some f → f.tnode ≠ p) : (s.timer.tnodes p).removed = false := by
  by_contra hm
  obtain ⟨f, hf, he⟩ := h.marked p hp (Bool.of_not_eq_false hm)
  exact hne f hf he

lemma Inv.between (h : s.Inv) (hf : s.frame = none) : Between s.timer :=
  ⟨h.good, h.idle hf, fun _ hp => h.unmarked hp fun _ hg => absurd (hf.symm.trans hg) (some_ne_none _).symm⟩

lemma Inv.after (h : s.Inv) {f : Frame} (hf : s.frame = some f)
    (htop : s.timer.Leaves f.tnode → s.timer.heap.nodes 1 = f.tmp) {t : Timer}
    (ht : s.timer.afterCallback f.now f.tmp f.tnode = some t) : Between t := by
  have hr := h.running f hf
  have hg := h.good.setCurrent (-1)
  have hother : ∀ p, s.timer.live p = true → p ≠ f.tnode → (s.timer.tnodes p).removed = false := by
    intro p hp hne
    refine h.unmarked hp fun g hg he => hne ?_
    rw [← he, some.inj (hf.symm.trans hg)]
  rcases afterCallback_cases hr ht with ⟨hstay, exec, -, rfl⟩ | ⟨hgo, rfl⟩
  · refine ⟨hg.retime hr.live exec, rfl, ?_⟩
    intro p hp
    rw [retime_tnodes]
    by_cases hpf : p = f.tnode
    · rw [hpf]
      exact Bool.of_not_eq_true fun hm => hstay (.inr hm)
    · exact hother p hp hpf
  · refine ⟨(hg.popNode hr.live ((htop hgo).trans hr.tmp.symm)).2, rfl, ?_⟩
    intro p hp
    obtain ⟨hpf, hp'⟩ := live_drop hp
    exact hother p hp' hpf

/-! ## runs -/

def Safe : Act → Loop → Prop
  | .call (.add _ _ _ _), s => s.timer.Room
  | .call _, _ | .select _, _ => True
  | .ret _, s => ∀ f, s.frame = some f → s.timer.Leaves f.tnode → s.timer.heap.nodes 1 = f.tmp

instance (a : Act) (s : Loop) : Decidable (Safe a s) := by
  unfold Safe
  split <;> infer_instance

lemma step_cases (h : step a s = some s') : (∃ c, a = .call c ∧ s.inUser ∧ s' = s.call c) ∨
      (∃ now, a = .select now ∧ s.frame = none ∧ (now < 0 ∧ s' = s ∨ 0 ≤ now ∧ s' = s.head now now)) ∨
      ∃ clock f t, a = .ret clock ∧ s.frame = some f ∧ s.timer.afterCallback f.now f.tmp f.tnode = some t ∧
        s' = { s with timer := t }.head f.now clock := by
  cases a with
  | call c =>
    have h' : (if s.inUser then some (s.call c) else none) = some s' := h
    by_cases hu : s.inUser
    · rw [if_pos hu] at h'
      exact .inl ⟨c, rfl, hu, (some.inj h').symm⟩
    · rw [if_neg hu] at h'
      cases h'
  | select now =>
    cases hf : s.frame with
    | some f =>
      simp only [step, hf] at h
      cases h
    | none =>
      simp only [step, hf, some.injEq] at h
      refine .inr (.inl ⟨now, rfl, rfl, ?_⟩)
      by_cases hn : now < 0
      · rw [if_pos hn] at h
        exact .inl ⟨hn, h.symm⟩
      · rw [if_neg hn] at h
        exact .inr ⟨by omega, h.symm⟩
  | ret clock =>
    cases hf : s.frame with
    | none =>
      simp only [step, hf] at h
      cases h
    | some f =>
      simp only [step, hf, map_eq_some_iff] at h
      obtain ⟨t, ht, rfl⟩ := h
      exact .inr (.inr ⟨clock, f, t, rfl, rfl, ht, rfl⟩)

lemma Inv.step (h : s.Inv) (hsafe : Safe a s) (hs : Loop.step a s = some s') : s'.Inv := by
  rcases step_cases hs with ⟨c, rfl, -, rfl⟩ | ⟨now, rfl, hf, ⟨-, rfl⟩ | ⟨-, rfl⟩⟩ |
    ⟨clock, f, t, rfl, hf, ht, rfl⟩
  · refine h.call c ?_
    intro now msec persistent room hc
    rw [hc] at hsafe
    exact hsafe
  · exact h
  · exact head_inv (h.between hf) now now
  · exact head_inv (h.after hf (hsafe f hf) ht) f.now clock

end Loop

/-! ## map and heap -/

/-- map and heap hold the same nodes, in step, and everything that can be reached is allocated -/
structure InStep (t : Timer) : Prop where
  same : ∀ p, (∃ id, t.map id = some p) ↔
    ∃ j, 1 ≤ j ∧ j < t.heap.num ∧ (t.heap.mem (t.heap.nodes j)).data = p
  position : ∀ j, 1 ≤ j → j < t.heap.num → (t.heap.mem (t.heap.nodes j)).position = j
  priority : ∀ j, 1 ≤ j → j < t.heap.num → (t.heap.mem (t.heap.nodes j)).priority
    = uint64 (t.tnodes (t.heap.mem (t.heap.nodes j)).data).execMsec
  mapAlive : ∀ id p, t.map id = some p → t.live p = true ∧ t.heap.live (t.tnodes p).heapNode = true
  heapAlive : ∀ j, 1 ≤ j → j < t.heap.num →
    t.heap.live (t.heap.nodes j) = true ∧ t.live (t.heap.mem (t.heap.nodes j)).data = true

lemma Good.inStep (hg : t.Good) : t.InStep where
  same := by
    intro p
    constructor
    · rintro ⟨id, hm⟩
      have hl := (hg.map id p hm).1
      obtain ⟨h1, hlt, hat⟩ := hg.heap.seated.pos _ (hg.out p hl).1
      refine ⟨_, h1, hlt, ?_⟩
      rw [hat]
      exact hg.data hl
    · rintro ⟨j, h1, hj, rfl⟩
      exact ⟨_, hg.node _ (hg.back _ (hg.heap.live_nodes h1 hj)).1⟩
  position := fun j h1 hj => (hg.heap.seated.seat j h1 hj).2
  priority := by
    intro j h1 hj
    obtain ⟨hl, hb⟩ := hg.back _ (hg.heap.live_nodes h1 hj)
    have := hg.priority hl
    rw [hb] at this
    exact this
  mapAlive := fun id p hm => ⟨(hg.map id p hm).1, (hg.out p (hg.map id p hm).1).1⟩
  heapAlive := fun j h1 hj => ⟨hg.heap.live_nodes h1 hj, (hg.back _ (hg.heap.live_nodes h1 hj)).1⟩

namespace Loop

lemma head_heap (s : Loop) (now clock : Int) : (s.head now clock).timer.heap = s.timer.heap := by
  unfold head
  cases s.timer.selectTop now with
  | none => exact (selectEnd_same s.timer now clock).heap
  | some x => rfl

lemma head_frame (s : Loop) (now clock : Int) : ∀ f, (s.head now clock).frame = some f → f.now = now := by
  intro f hf
  unfold head at hf
  cases hx : s.timer.selectTop now with
  | none =>
    rw [hx] at hf
    cases hf
  | some x =>
    rw [hx] at hf
    rw [← some.inj hf]

lemma Inv.ret_heap {s s' : Loop} (h : s.Inv) {f : Frame} (hf : s.frame = some f) {clock : Int}
    (hsafe : Safe (.ret clock) s) (hs : Loop.step (.ret clock) s = some s') :
    s'.timer.heap.live = if s.timer.Leaves f.tnode then Function.update s.timer.heap.live f.tmp false
      else s.timer.heap.live := by
  have hr := h.running f hf
  have hg := h.good.setCurrent (-1)
  obtain ⟨t, ht, rfl⟩ : ∃ t, s.timer.afterCallback f.now f.tmp f.tnode = some t ∧
      s' = { s with timer := t }.head f.now clock := by
    simpa only [Loop.step, hf, map_eq_some_iff, eq_comm (a := s')] using hs
  rw [head_heap]
  rcases afterCallback_cases hr ht with ⟨hstay, exec, -, rfl⟩ | ⟨hgo, rfl⟩
  · rw [if_neg hstay]
    have := (Heap.changePriority_spec hg.heap (hg.out _ hr.live).1 (uint64 exec)).live
    rw [← retime_heap] at this
    exact this
  · rw [if_pos hgo]
    have := (hg.popNode hr.live ((hsafe f hf hgo).trans hr.tmp.symm)).1.live
    rw [← hr.tmp]
    exact this

theorem timer_in_step (mode : TimerMode) (acts : List Act) (hsafe : Along step Safe acts (start mode))
    (s : Loop) (hs : iter step acts (start mode) = some s) :
    s.timer.InStep ∧
      (∀ f, s.frame = some f → s.timer.live f.tnode = true ∧ s.timer.heap.live f.tmp = true) ∧
      ∀ f clock s', s.frame = some f → Safe (.ret clock) s → step (.ret clock) s = some s' →
        s'.timer.heap.live = if s.timer.Leaves f.tnode then Function.update s.timer.heap.live f.tmp false
          else s.timer.heap.live := by
  have hinv : s.Inv := iter_keeps (J := Inv) (fun _ _ _ hc hj he => hj.step hc he) acts hsafe
    (start_inv mode) hs
  refine ⟨hinv.good.inStep, ?_, ?_⟩
  · intro f hf
    obtain ⟨hl, ht, -⟩ := hinv.running f hf
    refine ⟨hl, ?_⟩
    rw [← ht]
    exact (hinv.good.out _ hl).1
  · intro f clock s' hf hret hstep
    exact hinv.ret_heap hf hret hstep

theorem timer_in_step_six : ∃ s, iter step
        [.call (.add 0 10 false true), .call (.add 0 20 true true), .select 0, .select 25,
          .call (.remove 2), .ret 25] (start .reactor) = some s ∧ s.timer.InStep := by
  refine exists_of_map (fun s => s.timer.heap.num) (show _ = some 1 by decide) fun s hs _ => ?_
  exact (timer_in_step .reactor _ (by decide) s hs).1

/-- a timer moves itself back in its callback: its own node stays in the heap, freed -/
theorem delay_frees_other : ∃ s, iter step
        [.call (.add 0 10 false true), .call (.add 0 20 false true), .select 0, .select 15,
          .call (.delay 15 1 100), .ret 15] (start .reactor) = some s ∧
      s.timer.heap.num = 2 ∧ s.timer.live (s.timer.heap.mem (s.timer.heap.nodes 1)).data = false ∧
      ¬ s.timer.InStep := by
  refine exists_of_map (fun s => (s.timer.heap.num, s.timer.live (s.timer.heap.mem (s.timer.heap.nodes 1)).data))
    (show _ = some (2, false) by decide) fun s _ he => ?_
  obtain ⟨hn, hl⟩ := Prod.mk.inj he
  refine ⟨hn, hl, ?_⟩
  intro hin
  have := (hin.heapAlive 1 (le_refl 1) (by omega)).2
  exact Bool.false_ne_true (hl.symm.trans this)

end Loop

end Timer

end OSW.Core
