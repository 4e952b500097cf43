import Mathlib.Data.List.Perm.Subperm
import OpenSwoole.Core.TimerProgress

/-!
# One call of `select`

* `callbacks_spec`   the callbacks of a call run one after the other, no more than there are timers.
-/

namespace OSW.Core
open List Option Machine

namespace Timer

namespace Loop

lemma Inside.block {s0 s : Loop} {now : Int} {fired : List Nat} {f : Frame} (h : Inside s0 now s fired f)
    (hb0 : Between s0.timer) (hbd0 : s0.timer.Bounded)
    (hpers : ∀ p, s0.timer.live p = true → now + (s0.timer.tnodes p).interval < 2^63) (calls : List Call)
    (clock : Int) (hq : Along step (Quiet now) (calls.map .call ++ [.ret clock]) s) :
    ∃ s1, iter step (calls.map .call ++ [.ret clock]) s = some (s1.head now clock) ∧
      Between s1.timer ∧ s1.timer.Bounded ∧ Progress s0 now s1 fired none := by
  induction calls generalizing s with
  | nil =>
    obtain ⟨t, ht, hb, hbd, hp⟩ := h.after hb0 hbd0 hpers
    refine ⟨{ s with timer := t }, ?_, hb, hbd, hp⟩
    show (step (.ret clock) s).bind (iter step []) = _
    simp only [step, h.frame, ht]
    rw [h.clock]
    rfl
  | cons c calls ih =>
    obtain ⟨s', he, h'⟩ := h.call hq.1
    obtain ⟨s1, hs1, hrest⟩ := ih h' (hq.2 s' he)
    refine ⟨s1, ?_, hrest⟩
    show (step (.call c) s).bind (iter step (calls.map .call ++ [.ret clock])) = _
    rw [he]
    exact hs1

lemma callbacks_idle (cs : List Callback) {s : Loop} (hf : s.frame = none) : callbacks cs s = some s := by
  cases cs with
  | nil | cons c cs => exact if_pos hf

def Left (s0 : Loop) (now : Int) (s' : Loop) (fired : List Nat) : Prop :=
  ∃ s clock, Progress s0 now s fired none ∧ Between s.timer ∧ s.timer.Bounded ∧
    s.timer.selectTop now = none ∧ s' = ⟨s.timer.selectEnd now clock, none, s.events⟩

end Loop

lemma Good.length_le {t : Timer} (hg : t.Good) {l : List Nat} (hd : l.Nodup)
    (hl : ∀ p ∈ l, t.live p = true) : l.length ≤ t.heap.num - 1 := by
  have hinj : (l.map fun p => t.heap.position (t.tnodes p).heapNode).Nodup := by
    refine hd.map_on ?_
    intro p hp q hq he
    have hat : ∀ r ∈ l, t.heap.nodes (t.heap.position (t.tnodes r).heapNode) = (t.tnodes r).heapNode :=
      fun r hr => (hg.heap.seated.pos _ (hg.out r (hl r hr)).1).2.2
    refine hg.heapNode_inj (hl p hp) (hl q hq) ?_
    rw [← hat p hp, ← hat q hq]
    exact congrArg t.heap.nodes he
  have hsub : (l.map fun p => t.heap.position (t.tnodes p).heapNode) ⊆ range' 1 (t.heap.num - 1) := by
    intro j hj
    obtain ⟨p, hp, rfl⟩ := mem_map.1 hj
    obtain ⟨h1, hlt, -⟩ := hg.heap.seated.pos _ (hg.out p (hl p hp)).1
    exact mem_range'_1.2 ⟨h1, by omega⟩
  have := (subperm_of_subset hinj hsub).length_le
  rwa [length_map, length_range'] at this

namespace Loop

lemma callbacks_spec {s0 : Loop} {now : Int} (h0 : 0 ≤ now) (hb0 : Between s0.timer) (hbd0 : s0.timer.Bounded)
    (hpers : ∀ p, s0.timer.live p = true → now + (s0.timer.tnodes p).interval < 2^63) (cs : List Callback)
    {s : Loop} {fired : List Nat} {f : Frame} (h : Inside s0 now s fired f)
    (hq : CallbacksAlong (Quiet now) cs s) (hlen : s0.timer.heap.num ≤ fired.length + cs.length) :
    ∃ s' fired', callbacks cs s = some s' ∧ Left s0 now s' fired' := by
  induction cs generalizing s fired f with
  | nil =>
    have hle := hb0.good.length_le h.progress.nodup fun p hp => (h.progress.due p hp).1
    have hpos := hb0.good.heap.num_pos
    simp only [length_nil] at hlen
    omega
  | cons c cs ih =>
    have hf : s.frame ≠ none := by
      rw [h.frame]
      exact some_ne_none f
    obtain ⟨hal, hnext⟩ := hq hf
    obtain ⟨s1, he, hb, hbd, hp⟩ := h.block hb0 hbd0 hpers c.calls c.clock hal
    have hrun : callbacks (c :: cs) s = callbacks cs (s1.head now c.clock) := by
      show (if s.frame = none then some s else _) = _
      rw [if_neg hf, show iter step c.acts s = _ from he]
      rfl
    rw [hrun]
    rcases head_progress hp hb hbd h0 c.clock with ⟨htop, hhead⟩ | ⟨g, p, hin⟩
    · refine ⟨s1.head now c.clock, fired, callbacks_idle cs ?_, s1, c.clock, hp, hb, hbd, htop, hhead⟩
      rw [hhead]
    · refine ih hin (hnext _ he) ?_
      rw [length_append, length_singleton]
      rw [length_cons] at hlen
      omega

/-! ## what one call does -/

/-- one call of `select` at the time `now` that ran the nodes `fired`, in this order -/
structure Selected (s s' : Loop) (now : Int) (fired : List Nat) : Prop where
  idle : s'.frame = none
  calm : s'.Calm
  ran : s'.ran = s.ran ++ fired.map fun p => (p, now)
  nodup : fired.Nodup
  order : fired.Pairwise fun a b => (s.timer.tnodes a).execMsec ≤ (s.timer.tnodes b).execMsec
  /-- only due nodes run, and none that a node of this round comes before -/
  due : ∀ p ∈ fired, s.timer.live p = true ∧ (s.timer.tnodes p).execMsec ≤ now ∧
    (s.timer.tnodes p).round ≠ s.timer.round ∧
    ∀ q, s.timer.live q = true → (s.timer.tnodes q).round = s.timer.round →
      (s.timer.tnodes p).execMsec ≤ (s.timer.tnodes q).execMsec
  /-- all due nodes run that come before every node of this round -/
  all : ∀ p, s.timer.live p = true → (s.timer.tnodes p).execMsec ≤ now →
    (∀ q, s.timer.live q = true → (s.timer.tnodes q).round = s.timer.round →
      (s.timer.tnodes p).execMsec < (s.timer.tnodes q).execMsec) → p ∈ fired
  oneShot : ∀ p ∈ fired, (s.timer.tnodes p).interval ≤ 0 → ∀ id, s'.timer.map id ≠ some p
  /-- a persistent node is there, unless its callback removed it, with its next deadline -/
  persistent : ∀ p ∈ fired, 0 < (s.timer.tnodes p).interval →
    (¬ s'.timer.live p = true → .removed p ∈ since s s') ∧
    (s'.timer.live p = true → ∃ k : Nat, 1 ≤ k ∧ (s'.timer.tnodes p).execMsec
        = (s.timer.tnodes p).execMsec + k * (s.timer.tnodes p).interval ∧
      now < (s'.timer.tnodes p).execMsec ∧
      ∀ j : Nat, j < k → (s.timer.tnodes p).execMsec + j * (s.timer.tnodes p).interval ≤ now)
  rest : ∀ p, s.timer.live p = true → p ∉ fired →
    s'.timer.live p = true ∧ s'.timer.tnodes p = s.timer.tnodes p
  next : (∀ p, ¬ s'.timer.live p = true) ∧ s'.timer.nextMsec = -1 ∨ ∃ p, s'.timer.live p = true ∧
      (∀ q, s'.timer.live q = true → (s'.timer.tnodes p).execMsec ≤ (s'.timer.tnodes q).execMsec) ∧
      s'.timer.nextMsec = max 1 ((s'.timer.tnodes p).execMsec - now)

end Loop

lemma selectEnd_nextMsec {t : Timer} (hg : t.Good) (hb : t.Bounded) {now : Int} (h0 : 0 ≤ now)
    (hnow : now < 2^63) (clock : Int) :
    (∀ p, ¬ t.live p = true) ∧ (t.selectEnd now clock).nextMsec = -1 ∨ ∃ p, t.live p = true ∧
        (∀ q, t.live q = true → (t.tnodes p).execMsec ≤ (t.tnodes q).execMsec) ∧
        (t.selectEnd now clock).nextMsec = max 1 ((t.tnodes p).execMsec - now) := by
  rcases top_eq hg with ⟨hn, htop⟩ | ⟨p, hl, hp, -, htop, hd⟩
  · refine .inl ⟨?_, ?_⟩
    · intro p hp
      obtain ⟨h1, hlt, -⟩ := hg.heap.seated.pos _ (hg.out p hp).1
      omega
    · unfold selectEnd
      rw [htop]
  · refine .inr ⟨p, hl, fun q hq => hg.top_earliest hb hl hp hq, ?_⟩
    have hbp := hb p hl
    unfold selectEnd
    rw [htop]
    show (if int64 ((t.tnodes (t.heap.mem (t.heap.nodes 1)).data).execMsec - now) ≤ 0 then 1
      else int64 ((t.tnodes (t.heap.mem (t.heap.nodes 1)).data).execMsec - now)) = _
    rw [hd, int64_of_lt (by omega) (by omega)]
    omega

namespace Loop

lemma Progress.held_back {s0 s : Loop} {now : Int} {fired : List Nat} (hp : Progress s0 now s fired none)
    (hb : Between s.timer) (hbd : s.timer.Bounded) (htop : s.timer.selectTop now = none) {q : Nat}
    (hq0 : s0.timer.live q = true) (hqf : q ∉ fired) (hle : (s0.timer.tnodes q).execMsec ≤ now) :
    ∃ b, s0.timer.live b = true ∧ (s0.timer.tnodes b).round = s0.timer.round ∧
      (s0.timer.tnodes b).execMsec ≤ (s0.timer.tnodes q).execMsec := by
  obtain ⟨hlq, hnq⟩ := hp.rest q hq0 hqf
  obtain ⟨j1, jn, -⟩ := hb.good.heap.seated.pos _ (hb.good.out q hlq).1
  rcases selectTop_none hb.good htop with hn | ⟨b, hlb, hbt, hor⟩
  · omega
  · have hearly := hb.good.top_earliest hbd hlb hbt hlq
    rw [hnq] at hearly
    have hround : (s.timer.tnodes b).round = s.timer.round := hor.resolve_left (by omega)
    have hb0 : s0.timer.live b = true := by
      by_contra hnb
      have := hp.new b hlb hnb
      omega
    -- a node that has run is due after `now`
    have hbf : b ∉ fired := by
      intro hbf
      obtain ⟨-, exec, hc, hn⟩ := hp.again b hbf (some_ne_none b).symm hlb
      have hgt := catchUp_gt _ hc
      rw [hn] at hearly
      exact absurd hearly (not_le.2 (lt_of_le_of_lt hle hgt))
    have hnb := (hp.rest b hb0 hbf).2
    rw [hnb] at hearly hround
    exact ⟨b, hb0, hround.trans hp.round, hearly⟩

lemma Left.selected {s0 s' : Loop} {now : Int} {fired : List Nat} (h : Left s0 now s' fired)
    (hbd0 : s0.timer.Bounded) (h0 : 0 ≤ now) (hnow : now < 2^63)
    (hpers : ∀ p, s0.timer.live p = true → now + (s0.timer.tnodes p).interval < 2^63) :
    Selected s0 s' now fired := by
  obtain ⟨s, clock, hp, hb, hbd, htop, rfl⟩ := h
  have hs := selectEnd_same s.timer now clock
  have hcalm : Calm ⟨s.timer.selectEnd now clock, none, s.events⟩ := by
    have := head_calm hb hbd h0 clock
    unfold head at this
    simpa only [htop] using this
  refine ⟨rfl, hcalm, hp.ran, hp.nodup, hp.order, ?_, ?_, ?_, ?_, ?_, ?_⟩
  · intro p hpf
    obtain ⟨h1, h2, h3, h4⟩ := hp.due p hpf
    refine ⟨h1, h2, h3, fun q hq hr => h4 q hq ?_⟩
    intro hqf
    exact (hp.due q hqf).2.2.1 hr
  · intro p hl0 hle hfirst
    by_contra hpf
    obtain ⟨b, hbl, hbr, hbe⟩ := hp.held_back hb hbd htop hl0 hpf hle
    exact absurd (hfirst b hbl hbr) (by omega)
  · intro p hpf hint id hm
    have hl : (s.timer.selectEnd now clock).live p = true := (hcalm.inv.good.map id p hm).1
    rw [hs.live] at hl
    exact absurd (hp.again p hpf (some_ne_none p).symm hl).1 (by omega)
  · intro p hpf hint
    rw [hs.live, hs.tnodes]
    refine ⟨fun hl => (hp.gone p hpf (some_ne_none p).symm hl).resolve_left (by omega), ?_⟩
    intro hl
    obtain ⟨-, exec, hc, hn⟩ := hp.again p hpf (some_ne_none p).symm hl
    obtain ⟨hl0, hle, -⟩ := hp.due p hpf
    obtain ⟨k, hk, he, hgt, hleast⟩ := catchUp_least hint (hpers p hl0) (hbd0 p hl0).1 hle
    rw [he] at hc
    rw [hn]
    refine ⟨k, hk, (some.inj hc).symm, ?_, hleast⟩
    cases hc
    exact hgt
  · intro p hl0 hpf
    rw [hs.live, hs.tnodes]
    exact hp.rest p hl0 hpf
  · rw [hs.live, hs.tnodes]
    exact selectEnd_nextMsec hb.good hbd h0 hnow clock

/-- **one call of `select` returns, and runs the timers that are due** -/
theorem select_runs_due {s : Loop} (h : s.Calm) (hidle : s.frame = none) (now : Int) (h0 : 0 ≤ now)
    (hnow : now < 2^63) (hpers : ∀ p, s.timer.live p = true → now + (s.timer.tnodes p).interval < 2^63)
    (cs : List Callback) (hlen : s.timer.heap.num - 1 ≤ cs.length)
    (hquiet : CallbacksAlong (Quiet now) cs (s.head now now)) :
    ∃ s' fired, s.select now cs = some s' ∧ Selected s s' now fired ∧
      ((∀ q, s.timer.live q = true → (s.timer.tnodes q).round = s.timer.round →
          now < (s.timer.tnodes q).execMsec) →
        ∀ p, p ∈ fired ↔ s.timer.live p = true ∧ (s.timer.tnodes p).execMsec ≤ now) := by
  have hb0 := h.inv.between hidle
  have hstep : s.select now cs = callbacks cs (s.head now now) := by
    unfold select
    simp only [step, hidle, if_neg (not_lt.2 h0)]
    rfl
  have hex : ∃ s' fired, callbacks cs (s.head now now) = some s' ∧ Left s now s' fired := by
    rcases head_progress (Progress.start hb0.good now) hb0 h.bounded h0 now with
      ⟨htop, hhead⟩ | ⟨f, p, hin⟩
    · refine ⟨s.head now now, [], callbacks_idle cs ?_, s, now, Progress.start hb0.good now, hb0,
        h.bounded, htop, hhead⟩
      rw [hhead]
    · refine callbacks_spec h0 hb0 h.bounded hpers cs hin hquiet ?_
      show s.timer.heap.num ≤ 1 + cs.length
      omega
  obtain ⟨s', fired, he, hleft⟩ := hex
  have hsel := hleft.selected h.bounded h0 hnow hpers
  refine ⟨s', fired, hstep.trans he, hsel, ?_⟩
  intro hold p
  constructor
  · intro hp
    exact ⟨(hsel.due p hp).1, (hsel.due p hp).2.1⟩
  · rintro ⟨hl, hle⟩
    refine hsel.all p hl hle fun q hq hr => ?_
    have := hold q hq hr
    omega

theorem select_runs_due_two :
    ∃ s s' fired, iter step [.call (.add 0 10 true true), .call (.add 0 20 false true), .select 0]
        (start .reactor) = some s ∧
      s.select 25 [⟨[.add 25 5 false true], 25⟩, ⟨[], 25⟩] = some s' ∧ Selected s s' 25 fired := by
  have hrun : (iter step
      [.call (.add 0 10 true true), .call (.add 0 20 false true), .select 0] (start .reactor)).map
        (fun s => (s.frame, s.timer.fresh, (s.timer.tnodes 1).interval, (s.timer.tnodes 2).interval,
          s.timer.heap.num, decide (s.timer.live 0 = true ∨
            ¬ CallbacksAlong (Quiet 25) [⟨[.add 25 5 false true], 25⟩, ⟨[], 25⟩] (s.head 25 25))))
      = some (none, 3, 10, 0, 3, false) := by
    decide +kernel
  obtain ⟨s, hs, he⟩ := map_eq_some_iff.1 hrun
  obtain ⟨hidle, hfresh, h1, h2, hnum, hquiet⟩ := by simpa only [Prod.mk.injEq] using he
  obtain ⟨hlive, hquiet⟩ := not_or.1 (of_decide_eq_false hquiet)
  have hcalm := iter_calm (by decide) hs
  have hpers : ∀ p, s.timer.live p = true → (25 : Int) + (s.timer.tnodes p).interval < 2^63 := by
    intro p hp
    have hlt := hcalm.inv.good.fresh p hp
    rcases (show p = 0 ∨ p = 1 ∨ p = 2 by omega) with rfl | rfl | rfl
    · exact absurd hp hlive
    · rw [h1]
      decide
    · rw [h2]
      decide
  obtain ⟨s', fired, hsel, hdone, -⟩ := select_runs_due hcalm hidle 25 (by decide) (by decide) hpers
    [⟨[.add 25 5 false true], 25⟩, ⟨[], 25⟩] (by rw [hnum]; decide) (not_not.1 hquiet)
  exact ⟨s, s', fired, hs, hsel, hdone⟩

/-- a timer that was added since the last `select` does not run, though it is due -/
theorem select_skips_new : (iter step [.call (.add 0 10 false true), .select 20] (start .reactor)).map
        (fun s => (s.ran, s.frame, s.timer.live 1, (s.timer.tnodes 1).execMsec))
      = some ([], none, true, 10) := by
  decide

end Loop

end Timer

end OSW.Core
