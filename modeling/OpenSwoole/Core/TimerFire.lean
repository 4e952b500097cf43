import OpenSwoole.Core.TimerOrder

/-!
# When callbacks run
-/

namespace OSW.Core
open List Function Machine

namespace Timer

/-- the history before a callback lets it run -/
def RanInTime (before : List Event) : Event → Prop
  | .ran p now =>
    (∃ clock msec, .registered p clock msec ∈ before) ∧
      (∀ clock msec, .registered p clock msec ∈ before → clock + msec ≤ now) ∧ .removed p ∉ before
  | _ => True

def Act.clock : Act → Option Int
  | .call (.add now _ _ _) | .select now => reading now
  | _ => none

lemma Act.clock_nonneg (a : Act) {c : Int} (h : a.clock = some c) : 0 ≤ c := by
  unfold Act.clock at h
  split at h
  · exact reading_nonneg h
  · exact reading_nonneg h
  · cases h

/-- `low` is a time before which no callback will run -/
structure Told (low : Int) (t : Timer) (events : List Event) : Prop where
  known : ∀ p, t.live p = true → ∃ clock msec, .registered p clock msec ∈ events
  due : ∀ p clock msec, t.live p = true → .registered p clock msec ∈ events →
    clock + msec ≤ (t.tnodes p).execMsec ∨ clock + msec ≤ low
  old : ∀ p clock msec, .registered p clock msec ∈ events → p < t.fresh
  removedOld : ∀ p, .removed p ∈ events → p < t.fresh
  gone : ∀ p, t.live p = true → .removed p ∈ events → (t.tnodes p).removed = true
  ran : Suits RanInTime events

variable {low now : Int} {t t' : Timer} {events : List Event}

section
variable (h : Told low t events)
include h

lemma Told.of_fewer (hfresh : t'.fresh = t.fresh)
    (hlive : ∀ p, t'.live p = true → t.live p = true ∧
      ((t.tnodes p).removed = true → (t'.tnodes p).removed = true) ∧
      ((t'.tnodes p).execMsec = (t.tnodes p).execMsec ∨ (t.tnodes p).execMsec ≤ low)) :
    Told low t' events where
  known := fun p hp => h.known p (hlive p hp).1
  due := by
    intro p clock msec hp hr
    obtain ⟨hl, -, he⟩ := hlive p hp
    have := h.due p clock msec hl hr
    omega
  old := by
    rw [hfresh]
    exact h.old
  removedOld := by
    rw [hfresh]
    exact h.removedOld
  gone := by
    intro p hp hr
    obtain ⟨hl, hm, -⟩ := hlive p hp
    exact hm (h.gone p hl hr)
  ran := h.ran

lemma Told.of_same (hs : Same t t') : Told low t' events := by
  refine h.of_fewer hs.fresh ?_
  intro p hp
  rw [hs.live] at hp
  rw [hs.tnodes]
  exact ⟨hp, id, .inl rfl⟩

lemma Told.mono {low' : Int} (hle : low ≤ low') : Told low' t events :=
  { h with due := fun p clock msec hp hr => (h.due p clock msec hp hr).imp_right fun hl => by omega }

lemma Told.add {msec : Int} {persistent : Bool} (ha : Added t t' now msec persistent)
    (h0 : -2^63 ≤ now + msec) (hlt : now + msec < 2^63) :
    Told low t' (events ++ [.registered t.fresh now msec]) := by
  have hmem : ∀ {e : Event} {events : List Event} {x : Event}, e ∈ events ++ [x] → e ∈ events ∨ e = x :=
    fun he => (mem_append.1 he).imp_right mem_singleton.1
  refine ⟨?_, ?_, ?_, ?_, ?_, h.ran.snoc trivial⟩
  · intro p hp
    rw [ha.live] at hp
    by_cases hpf : p = t.fresh
    · rw [hpf]
      exact ⟨now, msec, mem_append_right _ mem_cons_self⟩
    · rw [update_of_ne hpf] at hp
      obtain ⟨clock, m, hr⟩ := h.known p hp
      exact ⟨clock, m, mem_append_left _ hr⟩
  · intro p clock m hp hr
    rw [ha.live] at hp
    rw [ha.tnodes]
    by_cases hpf : p = t.fresh
    · rcases hmem hr with hr | hr
      · exact absurd (h.old p clock m hr) (by omega)
      · obtain ⟨-, rfl, rfl⟩ := Event.registered.inj hr
        rw [hpf, update_self]
        left
        exact le_of_eq (int64_of_lt h0 hlt).symm
    · rw [update_of_ne hpf] at hp ⊢
      rcases hmem hr with hr | hr
      · exact h.due p clock m hp hr
      · exact absurd (Event.registered.inj hr).1 hpf
  · intro p clock m hr
    rw [ha.fresh]
    rcases hmem hr with hr | hr
    · exact Nat.lt_succ_of_lt (h.old p clock m hr)
    · rw [(Event.registered.inj hr).1]
      exact Nat.lt_succ_self _
  · intro p hr
    rw [ha.fresh]
    rcases hmem hr with hr | hr
    · exact Nat.lt_succ_of_lt (h.removedOld p hr)
    · cases hr
  · intro p hp hr
    rw [ha.live] at hp
    rw [ha.tnodes]
    rcases hmem hr with hr | hr
    · have hpf : p ≠ t.fresh := ne_of_lt (h.removedOld p hr)
      rw [update_of_ne hpf] at hp ⊢
      exact h.gone p hp hr
    · cases hr

lemma Told.snoc {e : Event} (hreg : ∀ p clock msec, .registered p clock msec ≠ e)
    (hremoved : ∀ p, .removed p = e → p < t.fresh ∧ (t.live p = true → (t.tnodes p).removed = true))
    (hran : RanInTime events e) : Told low t (events ++ [e]) := by
  have hback : ∀ {p clock msec}, .registered p clock msec ∈ events ++ [e] → .registered p clock msec ∈ events :=
    fun hr => (mem_append.1 hr).resolve_right fun he => hreg _ _ _ (mem_singleton.1 he)
  refine ⟨?_, ?_, ?_, ?_, ?_, h.ran.snoc hran⟩
  · intro p hp
    obtain ⟨clock, msec, hr⟩ := h.known p hp
    exact ⟨clock, msec, mem_append_left _ hr⟩
  · exact fun p clock msec hp hr => h.due p clock msec hp (hback hr)
  · exact fun p clock msec hr => h.old p clock msec (hback hr)
  · intro p hr
    rcases mem_append.1 hr with hr | hr
    · exact h.removedOld p hr
    · exact (hremoved p (mem_singleton.1 hr)).1
  · intro p hp hr
    rcases mem_append.1 hr with hr | hr
    · exact h.gone p hp hr
    · exact (hremoved p (mem_singleton.1 hr)).2 hp

lemma Told.remove {q : Nat} (hold : q < t.fresh) (hfresh : t'.fresh = t.fresh)
    (hlive : ∀ p, t'.live p = true → t.live p = true ∧ (t'.tnodes p).execMsec = (t.tnodes p).execMsec ∧
      ((t'.tnodes p).removed = true ∨ p ≠ q ∧ (t'.tnodes p).removed = (t.tnodes p).removed)) :
    Told low t' (events ++ [.removed q]) := by
  have h' : Told low t' events := by
    refine h.of_fewer hfresh ?_
    intro p hp
    obtain ⟨hl, he, hm⟩ := hlive p hp
    exact ⟨hl, fun hr => hm.elim id fun hm => hm.2.trans hr, .inl he⟩
  refine h'.snoc nofun ?_ trivial
  intro p hpq
  obtain rfl := Event.removed.inj hpq
  exact ⟨hfresh ▸ hold, fun hp => (hlive p hp).2.2.resolve_right fun hm => hm.1 rfl⟩

end

lemma Told.run (h : Told now t events) {p : Nat} (hp : t.live p = true)
    (hexec : (t.tnodes p).execMsec ≤ now) (hm : (t.tnodes p).removed = false) :
    Told now t (events ++ [.ran p now]) := by
  refine h.snoc nofun nofun ⟨h.known p hp, ?_, ?_⟩
  · intro clock msec hr
    have := h.due p clock msec hp hr
    omega
  · intro hr
    exact Bool.false_ne_true (hm.symm.trans (h.gone p hp hr))

namespace Loop

/-- there is room, and the deadline does not overflow; `delay` and `update` are not called -/
def Fits : Act → Loop → Prop
  | .call (.add now msec _ _), s => s.timer.Room ∧ now + msec < 2^63
  | .call (.remove _), _ => True
  | .call (.delay _ _ _), _ | .call (.update _), _ => False
  | .select _, _ | .ret _, _ => True

instance (a : Act) (s : Loop) : Decidable (Fits a s) := by
  rcases a with ⟨⟨⟩⟩ | _ | _ <;> dsimp only [Fits] <;> infer_instance

/-- `last` is the last reading of the clock -/
structure Timely (low last : Int) (s : Loop) : Prop where
  calm : s.Calm
  told : Told low s.timer s.events
  low_le : low ≤ last
  frame : ∀ f, s.frame = some f → f.now = low

lemma start_timely (mode : TimerMode) : Timely 0 0 (start mode) where
  calm := start_calm mode
  told :=
    ⟨nofun, nofun, nofun, nofun, nofun, suits_nil _⟩
  low_le := le_rfl
  frame := nofun

variable {last : Int} {s : Loop} {a : Act}

lemma Timely.plain (h : Timely low last s) (hf : Fits a s)
    (hclock : ∀ c, a.clock = some c → last ≤ c) : Plain a s := by
  cases a with
  | call c =>
    cases c with
    | add now msec persistent room =>
      refine ⟨hf.1, hf.2, ?_⟩
      intro f hfr h0
      rw [h.frame f hfr]
      exact le_trans h.low_le (hclock now (if_pos h0))
    | remove id => trivial
    | delay now id delayMs | update id => exact hf
  | select now | ret clock => trivial

lemma Timely.add_told (h : Timely low last s) {msec : Int} {persistent room : Bool}
    (hf : Fits (.call (.add now msec persistent room)) s) :
    Told low (s.add now msec persistent room).timer (s.add now msec persistent room).events := by
  unfold Loop.add
  rcases add_cases h.calm.inv.good hf.1 now msec persistent room with
    ⟨t, he, hr⟩ | ⟨hm, hn, t, he, ha⟩
  · rw [he]
    exact h.told.of_same hr.same
  · rw [he]
    exact h.told.add ha (by omega) hf.2

lemma Timely.remove_told (h : Timely low last s) (id : Int) :
    Told low (s.remove id).timer (s.remove id).events := by
  rcases h.calm.inv.remove_cases id with he | ⟨f, hf, he⟩ | ⟨p, hl, -, -, he⟩
  · rw [he]
    exact h.told
  · rw [he]
    have hl := (h.calm.inv.running f hf).live
    refine h.told.remove (h.calm.inv.good.fresh _ hl) rfl ?_
    intro q hq
    show s.timer.live q = true ∧ (Function.update s.timer.tnodes f.tnode _ q).execMsec = _ ∧
      ((Function.update s.timer.tnodes f.tnode _ q).removed = true ∨ _ ∧
        (Function.update s.timer.tnodes f.tnode _ q).removed = _)
    by_cases hqf : q = f.tnode
    · rw [hqf, update_self]
      exact ⟨hl, rfl, .inl rfl⟩
    · rw [update_of_ne hqf]
      exact ⟨hq, rfl, .inr ⟨hqf, rfl⟩⟩
  · rw [he]
    refine h.told.remove (h.calm.inv.good.fresh _ hl) rfl ?_
    intro q hq
    obtain ⟨hqp, hq'⟩ := live_drop hq
    exact ⟨hq', rfl, .inr ⟨hqp, rfl⟩⟩

lemma head_told (h : Between s.timer) (ht : Told now s.timer s.events) (clock : Int) :
    Told now (s.head now clock).timer (s.head now clock).events := by
  unfold head
  cases hx : s.timer.selectTop now with
  | none => exact ht.of_same (selectEnd_same s.timer now clock)
  | some x =>
    obtain ⟨hl, -, -, hle, -⟩ := selectTop_some h.good (hx.trans (congrArg some (Prod.eta x).symm))
    have hm := h.unmarked _ hl
    have hrun := ht.run hl hle hm
    show Told now { s.timer with currentId := _ }
      (if (!(s.timer.tnodes x.2).removed) = true then s.events ++ [.ran x.2 now] else s.events)
    rw [hm]
    exact hrun.of_same ⟨rfl, rfl, rfl, rfl, rfl⟩

lemma Timely.after_told (h : Timely low last s) {f : Frame} (hf : s.frame = some f) {t : Timer}
    (ht : s.timer.afterCallback f.now f.tmp f.tnode = some t) : Told low t s.events := by
  have hle := (h.calm.top f hf).2.1
  rw [h.frame f hf] at hle
  rcases afterCallback_cases (h.calm.inv.running f hf) ht with ⟨-, exec, -, rfl⟩ | ⟨-, rfl⟩
  · refine h.told.of_fewer rfl ?_
    intro p hp
    rw [retime_tnodes]
    refine ⟨hp, id, ?_⟩
    by_cases hpf : p = f.tnode
    · rw [hpf]
      exact .inr hle
    · rw [if_neg hpf]
      exact .inl rfl
  · exact h.told.of_fewer rfl fun p hp => ⟨(live_drop hp).2, id, .inl rfl⟩

lemma Timely.step {s' : Loop} (h : Timely low last s) (hf : Fits a s)
    (hclock : ∀ c, a.clock = some c → last ≤ c) (hs : Loop.step a s = some s') :
    ∃ low', Timely low' (a.clock.getD last) s' := by
  have hcalm := h.calm.step (h.plain hf hclock) hs
  have hle := le_getD hclock
  have hlow := h.low_le
  rcases step_cases hs with ⟨c, rfl, -, rfl⟩ | ⟨now, rfl, hfr, ⟨-, rfl⟩ | ⟨h0, rfl⟩⟩ |
    ⟨clock, f, t, rfl, hfr, ht, rfl⟩
  · cases c with
    | add now msec persistent room =>
      refine ⟨low, hcalm, h.add_told hf, by omega, ?_⟩
      show ∀ f, (s.add now msec persistent room).frame = some f → f.now = low
      rw [add_frame]
      exact h.frame
    | remove id =>
      refine ⟨low, hcalm, h.remove_told id, by omega, ?_⟩
      intro f hfr
      refine h.frame f ?_
      rcases h.calm.inv.remove_cases id with he | ⟨g, -, he⟩ | ⟨p, -, -, -, he⟩
      · rwa [show s.call (.remove id) = s from he] at hfr
      · rwa [show s.call (.remove id) = _ from he] at hfr
      · rwa [show s.call (.remove id) = _ from he] at hfr
    | delay now id delayMs | update id => exact hf.elim
  · exact ⟨low, h.calm, h.told, by omega, h.frame⟩
  · have hread : (Act.select now).clock.getD last = now := by
      rw [show (Act.select now).clock = some now from if_pos h0]
      rfl
    exact ⟨now, hcalm, head_told (h.calm.inv.between hfr) (h.told.mono (by omega)) now,
      le_of_eq hread.symm, head_frame s now now⟩
  · have hnow := h.frame f hfr
    have hbetween := h.calm.inv.after hfr (h.calm.safe (a := .ret clock) trivial f hfr) ht
    have htold := h.after_told hfr ht
    rw [← hnow] at htold
    refine ⟨f.now, hcalm, head_told (s := { s with timer := t }) hbetween htold clock, ?_,
      head_frame _ f.now clock⟩
    omega

/-- **no callback runs before its time or after its timer was removed** -/
theorem never_early (mode : TimerMode) (acts : List Act) (hfits : Along step Fits acts (start mode))
    (hclock : (acts.filterMap Act.clock).Pairwise (· ≤ ·)) (s : Loop)
    (hs : iter step acts (start mode) = some s) (before after : List Event) (p : Nat)
    (now : Int) (he : s.events = before ++ .ran p now :: after) :
    (∃ clock msec, .registered p clock msec ∈ before) ∧
      (∀ clock msec, .registered p clock msec ∈ before → clock + msec ≤ now) ∧
      .removed p ∉ before := by
  have hfirst : ∀ c ∈ acts.filterMap Act.clock, 0 ≤ c := by
    intro c hc
    obtain ⟨a, -, ha⟩ := mem_filterMap.1 hc
    exact a.clock_nonneg ha
  obtain ⟨last, low, h⟩ := iter_clocked (J := fun last s => ∃ low, Timely low last s)
    (fun _ _ _ _ hf ⟨_, hj⟩ hread he => hj.step hf hread he) acts hfits ⟨0, start_timely mode⟩ hfirst
    hclock hs
  exact h.told.ran before (.ran p now) after he

theorem never_early_four : ∃ s, iter step
        [.call (.add 0 10 false true), .select 0, .select 12, .ret 12] (start .reactor) = some s ∧
      s.events = [.registered 1 0 10] ++ .ran 1 12 :: [] ∧ .removed 1 ∉ [Event.registered 1 0 10] := by
  refine exists_of_map Loop.events (show _ = some ([.registered 1 0 10] ++ .ran 1 12 :: []) by decide)
    fun s hs he => ?_
  exact ⟨he, (never_early .reactor _ (by decide) (by decide) s hs _ _ 1 12 he).2.2⟩

/-- the deadline of the longest delay overflows from the first millisecond on -/
theorem longest_delay_runs_at_once :
    (iter step [.call (.add 1 (2^63 - 1) false true), .select 1, .select 2, .ret 2]
      (start .reactor)).map Loop.events = some [.registered 1 1 (2^63 - 1), .ran 1 2] := by
  decide

end Loop

end Timer

end OSW.Core
