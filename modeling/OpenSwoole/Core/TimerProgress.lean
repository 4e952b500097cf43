import Mathlib.Data.List.Nodup
import OpenSwoole.Core.TimerOrder

/-!
# Progress of `select`

The callbacks of the call add timers or remove their own timer.

* `Inside`   inside a callback (`Inside.call`), and after it (`Inside.after`);
* `head_progress`   from the head of the loop to the next callback or out.
-/

namespace OSW.Core
open List Option Function Machine

namespace Timer

namespace Loop

/-- the callbacks that ran, with the time of their `select` -/
def ran (s : Loop) : List (Nat × Int) :=
  s.events.filterMap fun
    | .ran p now => some (p, now)
    | _ => none

def since (s0 s : Loop) : List Event := s.events.drop s0.events.length

/-- a callback that touches no other timer; its own times do not go back and do not overflow -/
def Quiet (now : Int) : Act → Loop → Prop
  | .call (.add clock msec _ _), s => s.timer.Room ∧ clock + msec < 2^63 ∧ (0 ≤ clock → now ≤ clock)
  | .call (.remove id), s => s.timer.map id = none ∨ id = s.timer.currentId
  | .call (.delay _ _ _), _ | .call (.update _), _ | .select _, _ => False
  | .ret _, _ => True

/-- everything the callbacks of a `select` do meets the condition `C` -/
def CallbacksAlong (C : Act → Loop → Prop) : List Callback → Loop → Prop
  | [], _ => True
  | c :: cs, s =>
    s.frame ≠ none → Along step C c.acts s ∧ ∀ s', iter step c.acts s = some s' → CallbacksAlong C cs s'

/-- the condition can be checked by running the callbacks -/
instance CallbacksAlong.decidable (C : Act → Loop → Prop) [∀ a s, Decidable (C a s)] :
    (cs : List Callback) → (s : Loop) → Decidable (CallbacksAlong C cs s)
  | [], _ => .isTrue trivial
  | c :: cs, s =>
    have := CallbacksAlong.decidable C cs
    inferInstanceAs (Decidable
      (s.frame ≠ none → Along step C c.acts s ∧ ∀ s' ∈ iter step c.acts s, CallbacksAlong C cs s'))

instance (now : Int) (a : Act) (s : Loop) : Decidable (Quiet now a s) := by
  rcases a with ⟨⟨⟩⟩ | _ | _ <;> dsimp only [Quiet] <;> infer_instance

/-! ## progress of the loop -/

/-- `fired` are the nodes that ran, in their order; `cur` is the one that is running -/
structure Progress (s0 : Loop) (now : Int) (s : Loop) (fired : List Nat) (cur : Option Nat) : Prop where
  round : s.timer.round = s0.timer.round
  old : ∀ p, s0.timer.live p = true → p < s.timer.fresh
  length : s0.events.length ≤ s.events.length
  ran : s.ran = s0.ran ++ fired.map fun p => (p, now)
  nodup : fired.Nodup
  order : fired.Pairwise fun a b => (s0.timer.tnodes a).execMsec ≤ (s0.timer.tnodes b).execMsec
  due : ∀ p ∈ fired, s0.timer.live p = true ∧ (s0.timer.tnodes p).execMsec ≤ now ∧
    (s0.timer.tnodes p).round ≠ s0.timer.round ∧
    ∀ q, s0.timer.live q = true → q ∉ fired → (s0.timer.tnodes p).execMsec ≤ (s0.timer.tnodes q).execMsec
  again : ∀ p ∈ fired, cur ≠ some p → s.timer.live p = true → 0 < (s0.timer.tnodes p).interval ∧
    ∃ exec, catchUp now (s0.timer.tnodes p).interval (2^64) (s0.timer.tnodes p).execMsec = some exec ∧
      s.timer.tnodes p = { s0.timer.tnodes p with execMsec := exec }
  gone : ∀ p ∈ fired, cur ≠ some p → ¬ s.timer.live p = true →
    (s0.timer.tnodes p).interval ≤ 0 ∨ .removed p ∈ since s0 s
  current : ∀ p, cur = some p → p ∈ fired ∧ s.timer.live p = true ∧
    s.timer.tnodes p = { s0.timer.tnodes p with removed := (s.timer.tnodes p).removed } ∧
    ((s.timer.tnodes p).removed = true → .removed p ∈ since s0 s)
  rest : ∀ p, s0.timer.live p = true → p ∉ fired →
    s.timer.live p = true ∧ s.timer.tnodes p = s0.timer.tnodes p
  new : ∀ p, s.timer.live p = true → ¬ s0.timer.live p = true → now < (s.timer.tnodes p).execMsec

variable {s0 s : Loop} {now : Int} {fired : List Nat} {cur : Option Nat} {t : Timer}
  {fr : Option Frame} {e : Event} {f : Frame} {q : Nat}

lemma Progress.start (hg : s0.timer.Good) (now : Int) : Progress s0 now s0 [] none where
  round := rfl
  old := hg.fresh
  length := le_rfl
  ran := (append_nil _).symm
  nodup := nodup_nil
  order := Pairwise.nil
  due := nofun
  again := nofun
  gone := nofun
  current := nofun
  rest := fun _ hp _ => ⟨hp, rfl⟩
  new := fun _ hp hn => absurd hp hn

lemma Progress.congr {s' : Loop} (h : Progress s0 now s fired cur) (hround : s'.timer.round = s.timer.round)
    (hfresh : s.timer.fresh ≤ s'.timer.fresh) (hran : s'.ran = s.ran)
    (hlen : s.events.length ≤ s'.events.length) (hev : ∀ e ∈ since s0 s, e ∈ since s0 s')
    (hold : ∀ p, p < s.timer.fresh → s'.timer.live p = s.timer.live p ∧ s'.timer.tnodes p = s.timer.tnodes p)
    (hnew : ∀ p, s.timer.fresh ≤ p → s'.timer.live p = true → now < (s'.timer.tnodes p).execMsec) :
    Progress s0 now s' fired cur :=
  { h with
    round := hround.trans h.round
    old := fun p hp => Nat.lt_of_lt_of_le (h.old p hp) hfresh
    length := Nat.le_trans h.length hlen
    ran := hran.trans h.ran
    again := by
      intro p hp hc hl
      obtain ⟨he, hn⟩ := hold p (h.old p (h.due p hp).1)
      rw [hn]
      rw [he] at hl
      exact h.again p hp hc hl
    gone := by
      intro p hp hc hl
      rw [(hold p (h.old p (h.due p hp).1)).1] at hl
      exact (h.gone p hp hc hl).imp_right (hev _)
    current := by
      intro p hc
      obtain ⟨hp, hl, hn, hm⟩ := h.current p hc
      obtain ⟨he, ht⟩ := hold p (h.old p (h.due p hp).1)
      rw [he, ht]
      exact ⟨hp, hl, hn, fun hr => hev _ (hm hr)⟩
    rest := by
      intro p hp hf
      obtain ⟨he, ht⟩ := hold p (h.old p hp)
      rw [he, ht]
      exact h.rest p hp hf
    new := by
      intro p hl hn
      by_cases hpf : p < s.timer.fresh
      · obtain ⟨he, ht⟩ := hold p hpf
        rw [he] at hl
        rw [ht]
        exact h.new p hl hn
      · exact hnew p (by omega) hl }

lemma length_le_append (l : List Event) (e : Event) : l.length ≤ (l ++ [e]).length := by
  rw [length_append]
  exact Nat.le_add_right _ _

section
variable (h : Progress s0 now s fired cur)
include h

lemma Progress.since_append_eq (t : Timer) (fr : Option Frame) (e : Event) : since s0 ⟨t, fr, s.events ++ [e]⟩ =
    since s0 s ++ [e] :=
  drop_append_of_le_length h.length

lemma Progress.since_append {x : Event} (hx : x ∈ since s0 s) : x ∈ since s0 ⟨t, fr, s.events ++ [e]⟩ := by
  rw [h.since_append_eq]
  exact mem_append_left _ hx

lemma Progress.mem_since_append : e ∈ since s0 ⟨t, fr, s.events ++ [e]⟩ := by
  rw [h.since_append_eq]
  exact mem_append_right _ mem_cons_self

/-! ## inside a callback -/

end

structure Inside (s0 : Loop) (now : Int) (s : Loop) (fired : List Nat) (f : Frame) : Prop where
  calm : s.Calm
  frame : s.frame = some f
  called : f.called = true
  clock : f.now = now
  progress : Progress s0 now s fired (some f.tnode)

lemma Quiet.plain (h : Inside s0 now s fired f) {a : Act} (hq : Quiet now a s) : Plain a s := by
  cases a with
  | call c =>
    cases c with
    | add clock msec persistent room =>
      refine ⟨hq.1, hq.2.1, ?_⟩
      intro g hg h0
      rw [← some.inj (h.frame.symm.trans hg), h.clock]
      exact hq.2.2 h0
    | remove id => trivial
    | delay clock id delayMs | update id => exact hq
  | select clock | ret clock => trivial

lemma ran_append (s : Loop) (t : Timer) (fr : Option Frame) (e : Event)
    (he : ∀ p now, e ≠ .ran p now) : ran ⟨t, fr, s.events ++ [e]⟩ = s.ran := by
  unfold ran
  rw [filterMap_append]
  cases e with
  | registered p now msec | removed p => exact append_nil _
  | ran p now => exact absurd rfl (he p now)

lemma Inside.add (h : Inside s0 now s fired f) {clock msec : Int} {persistent room : Bool}
    (hq : Quiet now (.call (.add clock msec persistent room)) s) :
    Inside s0 now (s.add clock msec persistent room) fired f := by
  have hg := h.calm.inv.good
  have hcalm := h.calm.add (Quiet.plain h hq)
  refine ⟨hcalm, (add_frame s clock msec persistent room).trans h.frame, h.called, h.clock, ?_⟩
  unfold Loop.add
  rcases add_cases hg hq.1 clock msec persistent room with ⟨t, he, hr⟩ | ⟨hm, hc, t, he, ha⟩
  · rw [he]
    refine h.progress.congr hr.round (le_of_eq hr.same.fresh.symm) rfl le_rfl
      (fun _ he => he) ?_ ?_
    · intro p _
      exact ⟨congrFun hr.same.live p, congrFun hr.same.tnodes p⟩
    · intro p hp hl
      have hl' : t.live p = true := hl
      rw [hr.same.live] at hl'
      exact absurd (hg.fresh p hl') (by omega)
  · rw [he]
    refine h.progress.congr ha.round ?_ (ran_append s t s.frame _ (by simp)) (length_le_append _ _)
      (fun _ he => h.progress.since_append he) ?_ ?_
    · rw [ha.fresh]
      omega
    · intro p hp
      have hne : p ≠ s.timer.fresh := by omega
      rw [ha.live, ha.tnodes, update_of_ne hne, update_of_ne hne]
      exact ⟨rfl, rfl⟩
    · intro p hp hl
      have hl' : t.live p = true := hl
      rw [ha.live] at hl'
      rw [ha.tnodes]
      by_cases hpf : p = s.timer.fresh
      · have hnow := hq.2.2 hc
        have hlt := hq.2.1
        rw [hpf, update_self]
        show now < int64 (clock + msec)
        rw [int64_of_lt (by omega) hlt]
        omega
      · rw [update_of_ne hpf] at hl'
        exact absurd (hg.fresh p hl') (by omega)

lemma Progress.mark (h : Progress s0 now s fired (some q)) :
    Progress s0 now { s with timer := s.timer.markRemoved q, events := s.events ++ [.removed q] }
      fired (some q) := by
  have hother : ∀ p, p ≠ q → (s.timer.markRemoved q).tnodes p = s.timer.tnodes p :=
    fun p hp => update_of_ne hp _ _
  have hself : (s.timer.markRemoved q).tnodes q = { s.timer.tnodes q with removed := true } :=
    update_self _ _ _
  obtain ⟨hqf, hql, hqn, -⟩ := h.current q rfl
  refine ⟨h.round, h.old, le_trans h.length (length_le_append _ _),
    (ran_append s _ s.frame _ (by simp)).trans h.ran, h.nodup, h.order, h.due, ?_, ?_, ?_, ?_, ?_⟩
  · intro p hp hc hl
    rw [hother p fun he => hc (he ▸ rfl)]
    exact h.again p hp hc hl
  · intro p hp hc hl
    exact (h.gone p hp hc hl).imp_right fun he => h.since_append he
  · intro p hc
    cases hc
    refine ⟨hqf, hql, ?_, fun _ => h.mem_since_append⟩
    rw [hself, hqn]
  · intro p hp hf
    rw [hother p fun he => hf (he ▸ hqf)]
    exact h.rest p hp hf
  · intro p hl hn
    rw [hother p fun he => hn (he ▸ (h.due q hqf).1)]
    exact h.new p hl hn

lemma Inside.remove (h : Inside s0 now s fired f) {id : Int}
    (hq : Quiet now (.call (.remove id)) s) : Inside s0 now (s.remove id) fired f := by
  have hcalm := h.calm.remove id
  rcases h.calm.inv.remove_cases id with he | ⟨g, hg, he⟩ | ⟨p, hl, hid, hne, -⟩
  · rw [he]
    exact h
  · obtain rfl : f = g := some.inj (h.frame.symm.trans hg)
    rw [he] at hcalm ⊢
    exact ⟨hcalm, h.frame, h.called, h.clock, h.progress.mark⟩
  · rcases hq with hnone | hcur
    · have := h.calm.inv.good.node p hl
      rw [hid, hnone] at this
      cases this
    · exact absurd hcur hne

lemma Inside.call (h : Inside s0 now s fired f) {c : Call} (hq : Quiet now (.call c) s) :
    ∃ s', step (.call c) s = some s' ∧ Inside s0 now s' fired f := by
  have huser : s.inUser := fun g hg => some.inj (h.frame.symm.trans hg) ▸ h.called
  refine ⟨s.call c, if_pos huser, ?_⟩
  cases c with
  | add clock msec persistent room => exact h.add hq
  | remove id => exact h.remove hq
  | delay clock id delayMs | update id => exact hq.elim

/-! ## from callback to callback -/

section
variable (h : Progress s0 now s fired none) (hb : Between s.timer) (hbd : s.timer.Bounded)
include h hb hbd

lemma Progress.enter {tmp p : Nat} (ht : s.timer.selectTop now = some (tmp, p)) :
    Progress s0 now (s.enter now tmp p) (fired ++ [p]) (some p) := by
  obtain ⟨hl, hq, htop, hle, hround⟩ := selectTop_some hb.good ht
  have hl0 : s0.timer.live p = true := by
    by_contra hn
    exact absurd (h.new p hl hn) (by omega)
  have hpf : p ∉ fired := by
    intro hp
    obtain ⟨-, exec, hc, hn⟩ := h.again p hp (some_ne_none p).symm hl
    have hgt := catchUp_gt _ hc
    rw [hn] at hle
    exact absurd hle (not_le.2 hgt)
  have hn := (h.rest p hl0 hpf).2
  have hfirst : ∀ q, s0.timer.live q = true → q ∉ fired →
      (s0.timer.tnodes p).execMsec ≤ (s0.timer.tnodes q).execMsec := by
    intro q hq0 hqf
    obtain ⟨hlq, hnq⟩ := h.rest q hq0 hqf
    have := hb.good.top_earliest hbd hl (hq.trans htop.symm) hlq
    rwa [hn, hnq] at this
  have hmem : ∀ {q}, q ∈ fired ++ [p] → q ∈ fired ∨ q = p :=
    fun hq => (mem_append.1 hq).imp_right mem_singleton.1
  have hold : ∀ {q}, q ∈ fired ++ [p] → some p ≠ some q → q ∈ fired :=
    fun hq hne => (hmem hq).resolve_right fun he => hne (congrArg some he.symm)
  have hev : s.enter now tmp p = ⟨{ s.timer with currentId := (s.timer.tnodes p).id },
      some ⟨now, tmp, p, true⟩, s.events ++ [.ran p now]⟩ := by
    unfold Loop.enter
    rw [hb.unmarked p hl]
    rfl
  rw [hev]
  refine ⟨h.round, h.old, le_trans h.length (length_le_append _ _), ?_, ?_, ?_, ?_, ?_, ?_, ?_, ?_,
    h.new⟩
  · show (s.events ++ [Event.ran p now]).filterMap _ = _
    rw [filterMap_append, map_append, ← append_assoc, ← h.ran]
    rfl
  · exact nodup_append.2 ⟨h.nodup, nodup_singleton p, fun a ha b hbm =>
      (mem_singleton.1 hbm) ▸ fun he => hpf (he ▸ ha)⟩
  · refine pairwise_append.2 ⟨h.order, pairwise_singleton _ _, ?_⟩
    intro a ha b hbm
    rw [mem_singleton.1 hbm]
    exact (h.due a ha).2.2.2 p hl0 hpf
  · intro q hq
    rcases hmem hq with hq | rfl
    · obtain ⟨h1, h2, h3, h4⟩ := h.due q hq
      exact ⟨h1, h2, h3, fun r hr hrf => h4 r hr fun hm => hrf (mem_append_left _ hm)⟩
    · refine ⟨hl0, hn ▸ hle, ?_, fun r hr hrf => hfirst r hr fun hm => hrf (mem_append_left _ hm)⟩
      rw [← hn, ← h.round]
      exact hround
  · intro q hq hc hlq
    exact h.again q (hold hq hc) (some_ne_none q).symm hlq
  · intro q hq hc hlq
    exact (h.gone q (hold hq hc) (some_ne_none q).symm hlq).imp_right fun he => h.since_append he
  · intro q hc
    cases hc
    have hm := hb.unmarked p hl
    refine ⟨mem_append_right _ mem_cons_self, hl, ?_, ?_⟩
    · rw [hn]
    · intro hr
      cases hm.symm.trans hr
  · intro q hq hqf
    exact h.rest q hq fun hm => hqf (mem_append_left _ hm)

lemma head_progress (h0 : 0 ≤ now) (clock : Int) : (s.timer.selectTop now = none ∧
      s.head now clock = ⟨s.timer.selectEnd now clock, none, s.events⟩) ∨
      ∃ f p, Inside s0 now (s.head now clock) (fired ++ [p]) f := by
  have hcalm := head_calm hb hbd h0 clock
  unfold head at hcalm ⊢
  cases ht : s.timer.selectTop now with
  | none => exact .inl ⟨rfl, rfl⟩
  | some x =>
    simp only [ht] at hcalm
    have hx := ht.trans (congrArg some (Prod.eta x).symm)
    have hl := (selectTop_some hb.good hx).1
    refine .inr ⟨⟨now, x.1, x.2, true⟩, x.2, hcalm, ?_, rfl, rfl, h.enter hb hbd hx⟩
    show some (Frame.mk now x.1 x.2 (!(s.timer.tnodes x.2).removed)) = _
    rw [hb.unmarked _ hl]
    rfl

end

lemma Progress.retime {exec : Int} (h : Progress s0 now s fired (some q))
    (hnode : s.timer.tnodes q = s0.timer.tnodes q) (hpos : 0 < (s0.timer.tnodes q).interval)
    (hc : catchUp now (s0.timer.tnodes q).interval (2^64) (s0.timer.tnodes q).execMsec = some exec) :
    Progress s0 now { s with timer := { s.timer with currentId := -1 }.retime q exec } fired none := by
  obtain ⟨hqf, hql, -, -⟩ := h.current q rfl
  have hother : ∀ p, p ≠ q → ({ s.timer with currentId := -1 }.retime q exec).tnodes p = s.timer.tnodes p :=
    fun p hp => retime_tnodes_ne _ exec hp
  refine { h with again := ?_, gone := ?_, current := nofun, rest := ?_, new := ?_ }
  · intro p hpm _ hlp
    by_cases hpq : p = q
    · rw [hpq]
      refine ⟨hpos, exec, hc, (retime_tnodes_self _ _ _).trans ?_⟩
      rw [hnode]
    · obtain ⟨h1, e, h2, h3⟩ := h.again p hpm (fun he => hpq (some.inj he).symm) hlp
      exact ⟨h1, e, h2, (hother p hpq).trans h3⟩
  · intro p hpm _ hlp
    have hpq : p ≠ q := fun he => hlp (he ▸ hql)
    exact h.gone p hpm (fun he => hpq (some.inj he).symm) hlp
  · intro p hp0 hpm
    have hpq : p ≠ q := fun he => hpm (he ▸ hqf)
    obtain ⟨h1, h2⟩ := h.rest p hp0 hpm
    exact ⟨h1, (hother p hpq).trans h2⟩
  · intro p hlp hnp
    have hpq : p ≠ q := fun he => hnp (he ▸ (h.due q hqf).1)
    rw [hother p hpq]
    exact h.new p hlp hnp

lemma Progress.popNode (h : Progress s0 now s fired (some q)) (hgo : s.timer.Leaves q) :
    Progress s0 now { s with timer := { s.timer with currentId := -1 }.popNode q } fired none := by
  obtain ⟨hqf, -, hqn, hqm⟩ := h.current q rfl
  have hstay : ∀ p, p ≠ q → s.timer.live p = true → Function.update s.timer.live q false p = true := by
    intro p hpq hl
    rwa [update_of_ne hpq]
  refine { h with again := ?_, gone := ?_, current := nofun, rest := ?_, new := ?_ }
  · intro p hpm _ hlp
    obtain ⟨hpq, hlp'⟩ := live_drop hlp
    exact h.again p hpm (fun he => hpq (some.inj he).symm) hlp'
  · intro p hpm _ hlp
    by_cases hpq : p = q
    · rw [hpq]
      refine hgo.imp (fun hi => ?_) hqm
      rwa [hqn] at hi
    · exact h.gone p hpm (fun he => hpq (some.inj he).symm) fun hl => hlp (hstay p hpq hl)
  · intro p hp0 hpm
    obtain ⟨h1, h2⟩ := h.rest p hp0 hpm
    exact ⟨hstay p (fun he => hpm (he ▸ hqf)) h1, h2⟩
  · intro p hlp hnp
    exact h.new p (live_drop hlp).2 hnp

lemma Inside.after (h : Inside s0 now s fired f) (hb0 : Between s0.timer) (hbd0 : s0.timer.Bounded)
    (hpers : ∀ p, s0.timer.live p = true → now + (s0.timer.tnodes p).interval < 2^63) :
    ∃ t, s.timer.afterCallback f.now f.tmp f.tnode = some t ∧ Between t ∧ t.Bounded ∧
      Progress s0 now { s with timer := t } fired none := by
  obtain ⟨hpf, -, hn, -⟩ := h.progress.current f.tnode rfl
  obtain ⟨hl0, hle0, -, -⟩ := h.progress.due f.tnode hpf
  have hint : (s.timer.tnodes f.tnode).interval = (s0.timer.tnodes f.tnode).interval := by rw [hn]
  have hexec : (s.timer.tnodes f.tnode).execMsec = (s0.timer.tnodes f.tnode).execMsec := by rw [hn]
  -- the loop of `catchUp` ends
  have hsome : ∃ t, s.timer.afterCallback f.now f.tmp f.tnode = some t := by
    unfold afterCallback
    by_cases hc : (s.timer.tnodes f.tnode).interval > 0 ∧ (s.timer.tnodes f.tnode).removed = false
    · obtain ⟨k, -, he, -⟩ := catchUp_least (hint ▸ hc.1) (hpers _ hl0) (hbd0 _ hl0).1 hle0
      simp only [if_pos hc, h.clock]
      rw [hint, hexec, he]
      exact ⟨_, rfl⟩
    · simp only [if_neg hc]
      exact ⟨_, rfl⟩
  obtain ⟨t, ht⟩ := hsome
  refine ⟨t, ht, h.calm.inv.after h.frame (fun _ => (h.calm.top f h.frame).2.2) ht,
    h.calm.after_bounded h.frame ht, ?_⟩
  rcases afterCallback_cases (h.calm.inv.running f h.frame) ht with ⟨hstay, exec, hc, rfl⟩ | ⟨hgo, rfl⟩
  · have hrem : (s.timer.tnodes f.tnode).removed = false := Bool.of_not_eq_true fun hm => hstay (.inr hm)
    have hnode : s.timer.tnodes f.tnode = s0.timer.tnodes f.tnode := by rw [hn, hrem, ← hb0.unmarked _ hl0]
    have hpos : 0 < (s.timer.tnodes f.tnode).interval := not_le.1 fun hi => hstay (.inl hi)
    rw [h.clock, hint, hexec] at hc
    exact h.progress.retime hnode (hint ▸ hpos) hc
  · exact h.progress.popNode hgo

end Loop

end Timer

end OSW.Core
