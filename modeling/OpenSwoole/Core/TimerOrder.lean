import OpenSwoole.Core.TimerRuns

/-!
# Deadlines and the heap

A deadline that did not overflow is its own priority, so the heap is ordered by deadlines.  A callback
that adds timers and removes timers leaves its own node at the top.

* `Bounded`   no deadline is negative;
* `Good.top_earliest`   the top of the heap has the earliest deadline;
* `Plain`   calls of `add` without overflow and at times that do not go back, calls of `remove`, and no
    calls of `delay` and `update`;
* `Calm`   deadlines are bounded, and the node whose callback runs is at the top and due;
* `Calm.step`   **a plain step is safe and keeps the machine calm**.
-/

namespace OSW.Core

namespace Timer

def Bounded (t : Timer) : Prop :=
  ∀ p, t.live p = true → 0 ≤ (t.tnodes p).execMsec ∧ (t.tnodes p).execMsec < 2^63

lemma uint64_le {a b : Int} (ha : 0 ≤ a ∧ a < 2^63) (hb : 0 ≤ b ∧ b < 2^63) :
    uint64 a ≤ uint64 b ↔ a ≤ b := by
  rw [uint64_of_nonneg ha.1 (by omega), uint64_of_nonneg hb.1 (by omega)]
  omega

variable {t t' : Timer} {p q : Nat} {now msec exec interval exec' : Int} {persistent : Bool}

lemma Good.compare_eq (hg : t.Good) (a b : Nat) : t.heap.compare a b = false ↔ a ≤ b := by
  unfold Heap.compare
  rw [hg.type]
  exact decide_eq_false_iff_not.trans not_lt

lemma Good.top_earliest (hg : t.Good) (hb : t.Bounded) (hp : t.live p = true)
    (htop : (t.tnodes p).heapNode = t.heap.nodes 1) (hq : t.live q = true) :
    (t.tnodes p).execMsec ≤ (t.tnodes q).execMsec := by
  have ha : t.heap.Above (t.heap.nodes 1) (t.tnodes q).heapNode := hg.heap.root_above (hg.out q hq).1
  have hle := (hg.compare_eq _ _).1 ha
  rw [← htop, hg.priority hp, hg.priority hq] at hle
  exact (uint64_le (hb p hp) (hb q hq)).1 hle

/-! ## the top stays -/

lemma Added.top (hg : t.Good) (hb : t.Bounded) (ha : Added t t' now msec persistent)
    (hp : t.live p = true) (htop : t.heap.nodes 1 = (t.tnodes p).heapNode) (h0 : 0 ≤ now + msec)
    (hlt : now + msec < 2^63) (hle : (t.tnodes p).execMsec ≤ now + msec) :
    t'.heap.nodes 1 = t.heap.nodes 1 := by
  obtain ⟨h1, hn, -⟩ := hg.heap.seated.pos _ (hg.out p hp).1
  refine ha.heap.root (by omega) ((hg.compare_eq _ _).2 ?_)
  rw [htop, hg.priority hp, int64_of_lt (by omega) hlt]
  exact (uint64_le (hb p hp) ⟨h0, hlt⟩).2 hle

lemma Good.erase_top (hg : t.Good) (hp : t.live p = true)
    (htop : t.heap.nodes 1 = (t.tnodes p).heapNode) (hq : t.live q = true) (hne : q ≠ p) :
    (t.erase q).heap.nodes 1 = t.heap.nodes 1 := by
  rw [(hg.erase hq).1]
  refine Heap.remove_root hg.heap (hg.out q hq).1 ?_
  rw [htop]
  intro he
  exact hne (hg.heapNode_inj hp hq he).symm

/-! ## the deadlines -/

lemma Added.bounded (hb : t.Bounded) (ha : Added t t' now msec persistent) (h0 : 0 ≤ now + msec)
    (hlt : now + msec < 2^63) : t'.Bounded := by
  intro p hp
  rw [ha.live] at hp
  rw [ha.tnodes]
  by_cases hpf : p = t.fresh
  · rw [hpf, Function.update_self]
    show 0 ≤ int64 (now + msec) ∧ int64 (now + msec) < 2^63
    rw [int64_of_lt (by omega) hlt]
    exact ⟨h0, hlt⟩
  · rw [Function.update_of_ne hpf] at hp ⊢
    exact hb p hp

lemma Bounded.of_fewer (hb : t.Bounded) (hf : Fewer t t') : t'.Bounded := by
  intro p hp
  obtain ⟨hl, r, he⟩ := hf p hp
  rw [he]
  exact hb p hl

/-! ## the next deadline -/

lemma catchUp_gt (n : Nat) (h : catchUp now interval n exec = some exec') : now < exec' := by
  induction n generalizing exec with
  | zero => cases h
  | succ n ih =>
    unfold catchUp at h
    by_cases hle : exec ≤ now
    · rw [if_pos hle] at h
      exact ih h
    · rw [if_neg hle] at h
      cases h
      omega

lemma catchUp_lt (n : Nat) (hlt : exec < 2^63) (h : catchUp now interval n exec = some exec') :
    exec' < 2^63 := by
  induction n generalizing exec with
  | zero => cases h
  | succ n ih =>
    unfold catchUp at h
    by_cases hle : exec ≤ now
    · rw [if_pos hle] at h
      exact ih (int64_lt _) h
    · rw [if_neg hle] at h
      exact Option.some.inj h ▸ hlt

lemma catchUp_least_aux (hi : 0 < interval) (hlt : now + interval < 2^63) (n : Nat)
    (h0 : 0 ≤ exec) (hle : exec ≤ now) (hn : (now - exec).toNat + 2 ≤ n) :
    ∃ k : Nat, 1 ≤ k ∧ exec + (k - 1) * interval ≤ now ∧ now < exec + k * interval ∧
      catchUp now interval n exec = some (exec + k * interval) := by
  induction n generalizing exec with
  | zero => omega
  | succ n ih =>
    have hstep : catchUp now interval (n + 1) exec = catchUp now interval n (exec + interval) := by
      show (if exec ≤ now then catchUp now interval n (int64 (exec + interval)) else some exec) = _
      rw [if_pos hle, int64_of_lt (by omega) (by omega)]
    rw [hstep]
    by_cases hle' : exec + interval ≤ now
    · obtain ⟨k, -, hprev, hnext, he⟩ := @ih (exec + interval) (by omega) hle' (by omega)
      have hk : exec + ((k + 1 : Nat) : Int) * interval = exec + interval + k * interval := by
        rw [Int.natCast_succ, Int.add_mul]
        omega
      have hk' : exec + (((k + 1 : Nat) : Int) - 1) * interval = exec + interval + (k - 1) * interval := by
        rw [Int.natCast_succ, Int.add_sub_cancel, Int.sub_mul]
        omega
      refine ⟨k + 1, by omega, ?_, ?_, ?_⟩
      · rw [hk']
        exact hprev
      · rw [hk]
        exact hnext
      · rw [hk]
        exact he
    · obtain ⟨m, rfl⟩ : ∃ m, n = m + 1 := ⟨n - 1, by omega⟩
      refine ⟨1, Nat.le_refl 1, ?_, ?_, ?_⟩
      · omega
      · omega
      · rw [Int.natCast_one, Int.one_mul]
        exact if_neg hle'

lemma catchUp_least (hi : 0 < interval) (hlt : now + interval < 2^63) (h0 : 0 ≤ exec) (hle : exec ≤ now) :
    ∃ k : Nat, 1 ≤ k ∧ catchUp now interval (2^64) exec = some (exec + k * interval) ∧
      now < exec + k * interval ∧ ∀ j : Nat, j < k → exec + j * interval ≤ now := by
  obtain ⟨k, hk, hprev, hnext, he⟩ := catchUp_least_aux hi hlt (2^64) h0 hle (by omega)
  refine ⟨k, hk, he, hnext, ?_⟩
  intro j hj
  have hmul : (j : Int) * interval ≤ ((k : Int) - 1) * interval :=
    Int.mul_le_mul_of_nonneg_right (by omega) (by omega)
  omega

/-! ## plain steps -/

def reading (now : Int) : Option Int := if 0 ≤ now then some now else none

lemma reading_nonneg {c : Int} (h : reading now = some c) : 0 ≤ c := by
  obtain ⟨h0, he⟩ := Option.ite_none_right_eq_some.1 h
  exact Option.some.inj he ▸ h0

lemma le_getD {last : Int} {o : Option Int} (hclock : ∀ c, o = some c → last ≤ c) : last ≤ o.getD last := by
  cases o with
  | none => exact le_rfl
  | some c => exact hclock c rfl

namespace Loop

def Plain : Act → Loop → Prop
  | .call (.add now msec _ _), s =>
    s.timer.Room ∧ now + msec < 2^63 ∧ ∀ f, s.frame = some f → 0 ≤ now → f.now ≤ now
  | .call (.remove _), _ => True
  | .call (.delay _ _ _), _ | .call (.update _), _ => False
  | .select _, _ | .ret _, _ => True

instance (a : Act) (s : Loop) : Decidable (Plain a s) := by
  rcases a with ⟨⟨⟩⟩ | _ | _ <;> dsimp only [Plain] <;> infer_instance

structure Calm (s : Loop) : Prop where
  inv : s.Inv
  bounded : s.timer.Bounded
  top : ∀ f, s.frame = some f → 0 ≤ f.now ∧ (s.timer.tnodes f.tnode).execMsec ≤ f.now ∧
    s.timer.heap.nodes 1 = f.tmp

lemma start_calm (mode : TimerMode) : (start mode).Calm where
  inv := start_inv mode
  bounded := nofun
  top := nofun

variable {s : Loop} {a : Act}

lemma Calm.safe (h : s.Calm) (hp : Plain a s) : Safe a s := by
  cases a with
  | call c =>
    cases c with
    | add now msec persistent room => exact hp.1
    | remove id | delay now id delayMs | update id => trivial
  | select now => trivial
  | ret clock => exact fun f hf _ => (h.top f hf).2.2

lemma Calm.add (h : s.Calm) {msec : Int} {persistent room : Bool}
    (hp : Plain (.call (.add now msec persistent room)) s) :
    (s.add now msec persistent room).Calm := by
  obtain ⟨hroom, hlt, hclock⟩ := hp
  have hinv := h.inv.add hroom now msec persistent room
  unfold Loop.add at hinv ⊢
  rcases add_cases h.inv.good hroom now msec persistent room with ⟨t, he, hr⟩ | ⟨hm, hn, t, he, ha⟩
  · rw [he] at hinv ⊢
    refine ⟨hinv, h.bounded.of_fewer hr.same.fewer, ?_⟩
    · intro f hf
      rw [hr.same.tnodes, hr.same.heap]
      exact h.top f hf
  · rw [he] at hinv ⊢
    refine ⟨hinv, ha.bounded h.bounded (by omega) hlt, ?_⟩
    intro f hf
    obtain ⟨h0, hle, htop⟩ := h.top f hf
    obtain ⟨hl, htmp, -⟩ := h.inv.running f hf
    have hge := hclock f hf hn
    have hne := h.inv.good.ne_fresh hl
    refine ⟨h0, ?_, ?_⟩
    · rw [ha.tnodes, Function.update_of_ne hne]
      exact hle
    · exact (ha.top h.inv.good h.bounded hl (htop.trans htmp.symm) (by omega) hlt (by omega)).trans htop

lemma Calm.remove (h : s.Calm) (id : Int) : (s.remove id).Calm := by
  have hinv := h.inv.remove id
  rcases h.inv.remove_cases id with he | ⟨f, hf, he⟩ | ⟨p, hl, hid, hne, he⟩
  · rw [he]
    exact h
  · rw [he] at hinv ⊢
    refine ⟨hinv, h.bounded.of_fewer (markRemoved_fewer _ _), ?_⟩
    intro g hg
    rw [markRemoved_tnodes]
    exact h.top g hg
  · rw [he] at hinv ⊢
    refine ⟨hinv, h.bounded.of_fewer (erase_fewer _ _), ?_⟩
    intro f hf
    obtain ⟨h0, hle, htop⟩ := h.top f hf
    obtain ⟨hlf, htmp, hc⟩ := h.inv.running f hf
    have hpf : p ≠ f.tnode := by
      intro hpf
      rw [hpf] at hid
      exact hne (hid.symm.trans hc.symm)
    exact ⟨h0, hle, (h.inv.good.erase_top hlf (htop.trans htmp.symm) hl hpf).trans htop⟩

lemma head_calm (h : Between s.timer) (hb : s.timer.Bounded) (h0 : 0 ≤ now) (clock : Int) :
    (s.head now clock).Calm := by
  have hinv := head_inv h now clock
  unfold head at hinv ⊢
  cases ht : s.timer.selectTop now with
  | none =>
    simp only [ht] at hinv
    exact ⟨hinv, hb.of_fewer (selectEnd_same s.timer now clock).fewer, nofun⟩
  | some x =>
    simp only [ht] at hinv
    obtain ⟨-, -, htop, hle, -⟩ := selectTop_some h.good (ht.trans (congrArg some (Prod.eta x).symm))
    refine ⟨hinv, hb, ?_⟩
    intro f hf
    cases hf
    exact ⟨h0, hle, htop⟩

lemma Calm.after_bounded (h : s.Calm) {f : Frame} (hf : s.frame = some f) {t : Timer}
    (ht : s.timer.afterCallback f.now f.tmp f.tnode = some t) : t.Bounded := by
  have hr := h.inv.running f hf
  have hb : Bounded { s.timer with currentId := -1 } := h.bounded
  rcases afterCallback_cases hr ht with ⟨-, exec, hc, rfl⟩ | ⟨-, rfl⟩
  · have hgt := catchUp_gt _ hc
    have hlt := catchUp_lt _ (h.bounded _ hr.live).2 hc
    have h0 := (h.top f hf).1
    intro q hq
    rw [retime_tnodes]
    by_cases hqp : q = f.tnode
    · rw [if_pos hqp]
      exact ⟨le_trans h0 (le_of_lt hgt), hlt⟩
    · rw [if_neg hqp]
      exact hb q hq
  · exact hb.of_fewer (popNode_fewer _ _)

lemma Calm.step {s' : Loop} (h : s.Calm) (hp : Plain a s) (hs : Loop.step a s = some s') : s'.Calm := by
  rcases step_cases hs with ⟨c, rfl, -, rfl⟩ | ⟨now, rfl, hf, ⟨-, rfl⟩ | ⟨h0, rfl⟩⟩ |
    ⟨clock, f, t, rfl, hf, ht, rfl⟩
  · cases c with
    | add now msec persistent room => exact h.add hp
    | remove id => exact h.remove id
    | delay now id delayMs | update id => exact hp.elim
  · exact h
  · exact head_calm (h.inv.between hf) h.bounded h0 now
  · exact head_calm (h.inv.after hf (h.safe hp f hf) ht) (h.after_bounded hf ht) (h.top f hf).1 clock

lemma iter_calm {mode : TimerMode} {acts : List Act}
    (hplain : Machine.Along Loop.step Plain acts (start mode))
    (hs : Machine.iter Loop.step acts (start mode) = some s) : s.Calm :=
  Machine.iter_keeps (J := Calm) (fun _ _ _ hp hj he => hj.step hp he) acts hplain (start_calm mode) hs

end Loop

end Timer

end OSW.Core
