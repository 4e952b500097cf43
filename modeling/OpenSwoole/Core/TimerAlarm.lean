import OpenSwoole.Core.TimerSelect

/-!
# The armed alarm

Without a reactor `set` arms `setitimer`.  Whole operations follow one another, each at one time: the
callbacks of a `select` take no time.

* `Op`, `op`   calls of `add`, `remove` and `select`.
-/

namespace OSW.Core
open Option Function Machine

namespace Timer

/-- from this delay on the seconds of `SystemTimer_set` do not fit its `int` -/
def armLimit : Int := 2^31 * 1000

lemma systemTimerSet_eq (alarm : Option Int) (clock : Int) {m : Int} (h0 : 0 < m)
    (hlt : m < armLimit) : systemTimerSet alarm clock m = some (clock + m) := by
  have hlim : armLimit = 2147483648000 := rfl
  unfold systemTimerSet setitimer
  rw [if_pos h0, int32_of_lt (by omega) (by omega), int32_of_lt (by omega) (by omega),
    if_neg (by omega), if_neg (by omega)]
  congr 1
  omega

variable {t t' t0 : Timer} {last now msec : Int} {persistent : Bool}

/-- deadlines and intervals that `setitimer` can take from the time `last` on -/
def Near (last : Int) (t : Timer) : Prop :=
  ∀ p, t.live p = true → (t.tnodes p).execMsec < last + armLimit ∧ (t.tnodes p).interval < armLimit

lemma Near.add (h : Near last t) (ha : Added t t' now msec persistent) (h0 : 0 ≤ now + msec)
    (hlt : now + msec < 2^63) (hle : last ≤ now) (hm : msec < armLimit) : Near now t' := by
  intro p hp
  rw [ha.live] at hp
  rw [ha.tnodes]
  by_cases hpf : p = t.fresh
  · rw [hpf, update_self]
    show int64 (now + msec) < _ ∧ (if persistent = true then msec else 0) < armLimit
    rw [int64_of_lt (by omega) hlt]
    refine ⟨by omega, ?_⟩
    cases persistent with
    | true => exact hm
    | false => exact (by decide : (0 : Int) < armLimit)
  · rw [update_of_ne hpf] at hp ⊢
    obtain ⟨h1, h2⟩ := h p hp
    exact ⟨by omega, h2⟩

lemma Near.of_fewer (h : Near last t) (hf : Fewer t t') : Near last t' := by
  intro p hp
  obtain ⟨hl, r, he⟩ := hf p hp
  rw [he]
  exact h p hl

lemma Near.mono {last' : Int} (h : Near last t) (hle : last ≤ last') : Near last' t := by
  intro p hp
  obtain ⟨h1, h2⟩ := h p hp
  exact ⟨by omega, h2⟩

/-! ## inside `select` -/

/-- the nodes that are due at `now` are nodes of the state `t0` in which `select` was called -/
structure Late (t0 : Timer) (now : Int) (t : Timer) : Prop where
  mode : t.mode = .system
  round : t.round = t0.round
  new : ∀ p, t0.live p = true → (t0.tnodes p).round = t0.round → now ≤ (t0.tnodes p).execMsec
  late : ∀ p, t.live p = true → (t.tnodes p).execMsec ≤ now → t0.live p = true ∧
    (t.tnodes p).round = (t0.tnodes p).round ∧ (t.tnodes p).execMsec = (t0.tnodes p).execMsec
  near : Near now t

lemma Late.of_fewer (h : Late t0 now t) (hf : Fewer t t') (hmode : t'.mode = t.mode)
    (hround : t'.round = t.round) : Late t0 now t' where
  mode := hmode.trans h.mode
  round := hround.trans h.round
  new := h.new
  late := by
    intro p hp hle
    obtain ⟨hl, r, he⟩ := hf p hp
    rw [he] at hle ⊢
    exact h.late p hl hle
  near := h.near.of_fewer hf

lemma Late.add (h : Late t0 now t) (ha : Added t t' now msec persistent) (h0 : 0 ≤ now)
    (hm : 0 < msec) (hlt : now + msec < 2^63) (hlim : msec < armLimit) : Late t0 now t' where
  mode := ha.armed.1.trans h.mode
  round := ha.round.trans h.round
  new := h.new
  late := by
    intro p hp hle
    rw [ha.live] at hp
    rw [ha.tnodes] at hle ⊢
    by_cases hpf : p = t.fresh
    · rw [hpf, update_self] at hle
      have hle' : int64 (now + msec) ≤ now := hle
      rw [int64_of_lt (by omega) hlt] at hle'
      omega
    · rw [update_of_ne hpf] at hp hle ⊢
      exact h.late p hp hle
  near := h.near.add ha (by omega) hlt le_rfl hlim

lemma Late.retime (h : Late t0 now t) (p : Nat) {exec : Int} (hgt : now < exec)
    (hlt : exec < now + armLimit) : Late t0 now (t.retime p exec) :=
  { h with
    late := by
      intro q hq hle
      rw [retime_tnodes] at hle ⊢
      by_cases hqp : q = p
      · rw [if_pos hqp] at hle
        exact absurd hle (not_le.2 hgt)
      · rw [if_neg hqp] at hle ⊢
        exact h.late q hq hle
    near := by
      intro q hq
      rw [retime_tnodes]
      have hn := h.near q hq
      by_cases hqp : q = p
      · rw [if_pos hqp]
        exact ⟨hlt, hn.2⟩
      · rw [if_neg hqp]
        exact hn }

lemma selectEnd_alarm (hm : t.mode = .system) (now clock : Int) : (t.selectEnd now clock).alarm
      = systemTimerSet t.alarm clock (t.selectEnd now clock).nextMsec := by
  unfold selectEnd set
  simp only [hm]

def InTime (t : Timer) : Prop :=
  ∀ p, t.live p = true → ∃ a, t.alarm = some a ∧ a ≤ (t.tnodes p).execMsec + 1

/-- nothing is armed and there is no timer, or the armed interval began at the time `last` or before -/
def Ticks (last : Int) (t : Timer) : Prop :=
  (t.nextMsec < 0 ∧ ∀ p, ¬ t.live p = true) ∨ (0 < t.nextMsec ∧ ∃ a, t.alarm = some a ∧ a ≤ last + t.nextMsec)

lemma Ticks.mono {last' : Int} (h : Ticks last t) (hle : last ≤ last') : Ticks last' t :=
  h.imp_right fun ⟨hpos, a, ha, hle'⟩ => ⟨hpos, a, ha, by omega⟩

lemma Ticks.of_same (h : Ticks last t) (hnext : t'.nextMsec = t.nextMsec) (halarm : t'.alarm = t.alarm)
    (hlive : ∀ p, t'.live p = true → t.live p = true) : Ticks last t' := by
  unfold Ticks
  rw [hnext, halarm]
  exact h.imp_left fun ⟨hneg, hnone⟩ => ⟨hneg, fun p hp => hnone p (hlive p hp)⟩

lemma Late.selectEnd (h : Late t0 now t) (hg : t.Good) (hb : t.Bounded) (h0 : 0 ≤ now)
    (hnow : now < 2^63) (htop : t.selectTop now = none) :
    (t.selectEnd now now).InTime ∧ (t.selectEnd now now).Ticks now := by
  have hs := selectEnd_same t now now
  have halarm := selectEnd_alarm h.mode now now
  have hlim : armLimit = 2147483648000 := rfl
  unfold InTime Ticks
  rw [hs.live, hs.tnodes]
  rcases selectEnd_nextMsec hg hb h0 hnow now with ⟨hnone, hnext⟩ | ⟨p, hl, hfirst, hnext⟩
  · exact ⟨fun p hp => absurd hp (hnone p), .inl ⟨by rw [hnext]; decide, hnone⟩⟩
  · have hnear := (h.near p hl).1
    rw [hnext, systemTimerSet_eq _ _ (by omega) (by omega)] at halarm
    refine ⟨?_, .inr ⟨by omega, _, halarm, by omega⟩⟩
    intro q hq
    have hle := hfirst q hq
    refine ⟨_, halarm, ?_⟩
    by_cases hgt : now < (t.tnodes p).execMsec
    · omega
    · -- the top of the heap is due, so it is a new timer
      rcases selectTop_none hg htop with hn | ⟨b, hlb, hbt, hor⟩
      · obtain ⟨j1, jn, -⟩ := hg.heap.seated.pos _ (hg.out p hl).1
        omega
      · have hbp := hg.top_earliest hb hlb hbt hl
        have hround : (t.tnodes b).round = t.round := hor.resolve_left (by omega)
        obtain ⟨hl0, hr0, he0⟩ := h.late b hlb (by omega)
        have := h.new b hl0 (by rw [← hr0, hround, h.round])
        omega

/-! ## whole operations -/

/-- a call from outside -/
inductive Op where
  | add (now msec : Int) (persistent room : Bool)
  | remove (id : Int)
  | select (now : Int) (cs : List Loop.Callback)

def Op.clock : Op → Option Int
  | .add now _ _ _ => reading now
  | .remove _ => none
  | .select now _ => reading now

lemma Op.clock_nonneg (o : Op) {c : Int} (h : o.clock = some c) : 0 ≤ c := by
  unfold Op.clock at h
  split at h
  · exact reading_nonneg h
  · cases h
  · exact reading_nonneg h

/-- a delay below the armed interval is not above what is left of it, while there are timers -/
def Shortens (t : Timer) (now msec : Int) : Prop :=
  t.nextMsec > msec → ∀ p, p < t.fresh → t.live p = true → ∀ a, t.alarm = some a → msec ≤ a - now

instance (t : Timer) (now msec : Int) : Decidable (t.Shortens now msec) :=
  inferInstanceAs (Decidable (_ → _))

namespace Loop

def op : Op → Loop → Option Loop
  | .add now msec persistent room, s => some (s.add now msec persistent room)
  | .remove id, s => some (s.remove id)
  | .select now cs, s => s.select now cs

/-- a callback that takes no time: it adds timers of less than `armLimit` and removes timers -/
def Brisk (now : Int) : Act → Loop → Prop
  | .call (.add clock msec _ _), s => s.timer.Room ∧ msec < armLimit ∧ (0 ≤ clock → clock = now)
  | .call (.remove _), _ => True
  | .call (.delay _ _ _), _ | .call (.update _), _ | .select _, _ => False
  | .ret clock, _ => clock = now

instance (now : Int) (a : Act) (s : Loop) : Decidable (Brisk now a s) := by
  rcases a with ⟨⟨⟩⟩ | _ | _ <;> dsimp only [Brisk] <;> infer_instance

/-- the delays fit `SystemTimer_set`, a new timer does not lengthen the armed interval, and `select` finds no
timer overdue that was added since the last `select` -/
def Punctual : Op → Loop → Prop
  | .add now msec _ _, s =>
    s.timer.Room ∧ msec < armLimit ∧ now + armLimit ≤ 2^63 ∧
      (0 < msec → 0 ≤ now → s.timer.Shortens now msec)
  | .remove _, _ => True
  | .select now cs, s =>
    now + armLimit ≤ 2^63 ∧ (0 ≤ now → (∀ p, p < s.timer.fresh → s.timer.live p = true →
          (s.timer.tnodes p).round = s.timer.round → now ≤ (s.timer.tnodes p).execMsec) ∧
        CallbacksAlong (Brisk now) cs (s.head now now))

instance (o : Op) (s : Loop) : Decidable (Punctual o s) := by
  cases o <;> dsimp only [Punctual] <;> infer_instance

/-- between two operations, the last of which was at the time `last` -/
structure Armed (last : Int) (s : Loop) : Prop where
  calm : s.Calm
  idle : s.frame = none
  mode : s.timer.mode = .system
  ticks : s.timer.Ticks last
  inTime : s.timer.InTime
  near : Near last s.timer

lemma start_armed : Armed 0 (start .system) where
  calm := start_calm .system
  idle := rfl
  mode := rfl
  ticks := .inl ⟨by decide, nofun⟩
  inTime := nofun
  near := nofun

/-! ## `select` -/

/-- inside a callback of a `select` that was called in the state `t0` -/
structure Busy (t0 : Timer) (now : Int) (s : Loop) : Prop where
  calm : s.Calm
  busy : s.frame ≠ none
  clock : ∀ f, s.frame = some f → f.now = now
  late : Late t0 now s.timer

section select

variable {s : Loop}

lemma Brisk.plain (h : Busy t0 now s) (hnow : now + armLimit ≤ 2^63) {a : Act}
    (hb : Brisk now a s) : Plain a s := by
  have hlim : armLimit = 2147483648000 := rfl
  cases a with
  | call c =>
    cases c with
    | add clock msec persistent room =>
      obtain ⟨hroom, hm, hc⟩ := hb
      refine ⟨hroom, by omega, ?_⟩
      intro f hf hpos
      rw [h.clock f hf]
      exact le_of_eq (hc hpos).symm
    | remove id => trivial
    | delay clock id delayMs | update id => exact hb
  | select clock | ret clock => trivial

lemma Busy.add (h : Busy t0 now s) (h0 : 0 ≤ now) (hnow : now + armLimit ≤ 2^63)
    {clock msec : Int} {persistent room : Bool} (hb : Brisk now (.call (.add clock msec persistent room)) s) :
    Busy t0 now (s.add clock msec persistent room) := by
  have hcalm := h.calm.add (Brisk.plain h hnow hb)
  have hframe := add_frame s clock msec persistent room
  refine ⟨hcalm, hframe ▸ h.busy, hframe ▸ h.clock, ?_⟩
  unfold Loop.add
  rcases add_cases h.calm.inv.good hb.1 clock msec persistent room with ⟨t, he, hr⟩ | ⟨hm, hc, t, he, ha⟩
  · rw [he]
    exact h.late.of_fewer hr.same.fewer hr.armed.1 hr.round
  · rw [he]
    obtain rfl := hb.2.2 hc
    have hlt := hb.2.1
    exact h.late.add ha h0 hm (by omega) hb.2.1

lemma Busy.remove (h : Busy t0 now s) (id : Int) : Busy t0 now (s.remove id) := by
  have hcalm := h.calm.remove id
  rcases h.calm.inv.remove_cases id with he | ⟨f, hf, he⟩ | ⟨p, hl, -, -, he⟩
  · rw [he]
    exact h
  · rw [he] at hcalm ⊢
    exact ⟨hcalm, h.busy, h.clock, h.late.of_fewer (markRemoved_fewer _ _) rfl rfl⟩
  · rw [he] at hcalm ⊢
    exact ⟨hcalm, h.busy, h.clock, h.late.of_fewer (erase_fewer _ _) rfl rfl⟩

lemma head_busy (hb : Between s.timer) (hbd : s.timer.Bounded) (hl : Late t0 now s.timer)
    (h0 : 0 ≤ now) (hnow : now + armLimit ≤ 2^63) :
    Busy t0 now (s.head now now) ∨ Armed now (s.head now now) := by
  have hlim : armLimit = 2147483648000 := rfl
  have hcalm := head_calm hb hbd h0 now
  have hclock := head_frame s now now
  unfold head at hcalm hclock ⊢
  cases ht : s.timer.selectTop now with
  | none =>
    simp only [ht] at hcalm
    have hs := selectEnd_same s.timer now now
    obtain ⟨hin, harmed⟩ := hl.selectEnd hb.good hbd h0 (by omega) ht
    exact .inr ⟨hcalm, rfl, (set_fields s.timer now _).2.2.2.trans hl.mode, harmed, hin,
      hl.near.of_fewer hs.fewer⟩
  | some x =>
    simp only [ht] at hcalm hclock
    exact .inl ⟨hcalm, some_ne_none _, hclock, hl.of_fewer (setCurrent_fewer _ _) rfl rfl⟩

lemma Busy.after (h : Busy t0 now s) (hnow : now + armLimit ≤ 2^63) {f : Frame}
    (hf : s.frame = some f) {t : Timer} (ht : s.timer.afterCallback f.now f.tmp f.tnode = some t) :
    Late t0 now t := by
  have hr := h.calm.inv.running f hf
  obtain ⟨-, hle, -⟩ := h.calm.top f hf
  have hl : Late t0 now { s.timer with currentId := -1 } := h.late.of_fewer (setCurrent_fewer _ _) rfl rfl
  rw [h.clock f hf] at hle
  rcases afterCallback_cases hr ht with ⟨hstay, exec, hc, rfl⟩ | ⟨-, rfl⟩
  · have hpos : 0 < (s.timer.tnodes f.tnode).interval := not_le.1 fun hi => hstay (.inl hi)
    have hint := (h.late.near f.tnode hr.live).2
    obtain ⟨k, hk, he, hgt, hprev⟩ := catchUp_least hpos (show now + _ < 2^63 by omega)
      (h.calm.bounded _ hr.live).1 hle
    rw [h.clock f hf, he] at hc
    cases hc
    refine hl.retime f.tnode hgt ?_
    have hp := hprev (k - 1) (by omega)
    have hk' : ((k - 1 : Nat) : Int) = k - 1 := by omega
    rw [hk', Int.sub_mul, one_mul] at hp
    omega
  · exact hl.of_fewer (popNode_fewer _ _) rfl rfl

variable {s' : Loop}

lemma Busy.block (h : Busy t0 now s) (h0 : 0 ≤ now) (hnow : now + armLimit ≤ 2^63) (calls : List Call)
    (clock : Int) (hb : Along step (Brisk now) (calls.map .call ++ [.ret clock]) s)
    (hs : iter step (calls.map .call ++ [.ret clock]) s = some s') :
    Busy t0 now s' ∨ Armed now s' := by
  induction calls generalizing s with
  | nil =>
    obtain ⟨s1, hs1, he⟩ := bind_eq_some_iff.1 hs
    cases he
    obtain rfl : clock = now := hb.1
    obtain ⟨f, hf⟩ := ne_none_iff_exists'.1 h.busy
    simp only [step, hf, map_eq_some_iff] at hs1
    obtain ⟨t, ht, rfl⟩ := hs1
    have hbetween := h.calm.inv.after hf (fun _ => (h.calm.top f hf).2.2) ht
    rw [h.clock f hf]
    exact head_busy (s := { s with timer := t }) hbetween (h.calm.after_bounded hf ht)
      (h.after hnow hf ht) h0 hnow
  | cons c calls ih =>
    obtain ⟨s1, hs1, hrest⟩ := bind_eq_some_iff.1 hs
    have hs1' : s1 = s.call c := by
      have : (if s.inUser then some (s.call c) else none) = some s1 := hs1
      exact (ite_none_right_eq_some.1 this).2.symm |> some.inj
    refine ih (s := s1) ?_ (hb.2 s1 hs1) hrest
    rw [hs1']
    cases c with
    | add clk msec persistent room => exact h.add h0 hnow hb.1
    | remove id => exact h.remove id
    | delay clk id delayMs | update id => exact hb.1.elim

lemma callbacks_armed (h0 : 0 ≤ now) (hnow : now + armLimit ≤ 2^63) (cs : List Callback)
    (h : Busy t0 now s ∨ Armed now s) (hb : CallbacksAlong (Brisk now) cs s)
    (hs : callbacks cs s = some s') : Armed now s' := by
  induction cs generalizing s with
  | nil =>
    have hs' : (if s.frame = none then some s else none) = some s' := hs
    obtain ⟨hf, rfl⟩ := ite_some_none_eq_some.1 hs'
    exact h.resolve_left fun hbusy => hbusy.busy hf
  | cons c cs ih =>
    rcases h with h | h
    · obtain ⟨hal, hnext⟩ := hb h.busy
      have hs' : (if s.frame = none then some s else (iter step c.acts s).bind (callbacks cs))
          = some s' := hs
      rw [if_neg h.busy] at hs'
      obtain ⟨s1, hs1, hrest⟩ := bind_eq_some_iff.1 hs'
      exact ih (h.block h0 hnow c.calls c.clock hal hs1) (hnext s1 hs1) hrest
    · rw [callbacks_idle (c :: cs) h.idle] at hs
      exact some.inj hs ▸ h

end select

variable {s s' : Loop}

lemma Armed.select (h : Armed last s) {cs : List Callback} (hp : Punctual (.select now cs) s)
    (hle : ∀ c, reading now = some c → last ≤ c) (hs : s.select now cs = some s') :
    Armed ((reading now).getD last) s' := by
  obtain ⟨hlim, hrest⟩ := hp
  have hs' : (some (if now < 0 then s else s.head now now)).bind (callbacks cs) = some s' := by
    unfold Loop.select at hs
    simpa only [step, h.idle] using hs
  unfold reading at hle ⊢
  by_cases h0 : 0 ≤ now
  · obtain ⟨hnew, hal⟩ := hrest h0
    rw [if_neg (not_lt.2 h0)] at hs'
    have hlate : Late s.timer now s.timer :=
      ⟨h.mode, rfl, fun p hp => hnew p (h.calm.inv.good.fresh p hp) hp, fun p hp _ => ⟨hp, rfl, rfl⟩,
        h.near.mono (hle now (if_pos h0))⟩
    rw [if_pos h0]
    exact callbacks_armed h0 hlim cs
      (head_busy (h.calm.inv.between h.idle) h.calm.bounded hlate h0 hlim) hal hs'
  · rw [if_pos (not_le.1 h0), bind_some, callbacks_idle cs h.idle] at hs'
    rw [if_neg h0]
    exact some.inj hs' ▸ h

/-! ## `add` and `remove` -/

lemma arm_alarm {t : Timer} (hm : t.mode = .system) (now : Int) (h0 : 0 < msec) (hlt : msec < armLimit) :
    ((t.nextMsec < 0 ∨ t.nextMsec > msec) ∧ (t.arm now msec).alarm = some (now + msec) ∧
        (t.arm now msec).nextMsec = msec) ∨
      ¬ (t.nextMsec < 0 ∨ t.nextMsec > msec) ∧ t.arm now msec = t := by
  unfold arm
  by_cases hc : t.nextMsec < 0 ∨ t.nextMsec > msec
  · rw [if_pos hc]
    refine .inl ⟨hc, ?_, rfl⟩
    unfold set
    simp only [hm]
    exact systemTimerSet_eq _ _ h0 hlt
  · rw [if_neg hc]
    exact .inr ⟨hc, rfl⟩

lemma Armed.arm (h : Armed last s) (hm : 0 < msec) (hlt : msec < armLimit) (hle : last ≤ now)
    (hin : s.timer.Shortens now msec) :
    0 < (s.timer.arm now msec).nextMsec ∧ ∃ a, (s.timer.arm now msec).alarm = some a ∧
      a ≤ now + (s.timer.arm now msec).nextMsec ∧ a ≤ now + msec ∧
      ∀ p, s.timer.live p = true → a ≤ (s.timer.tnodes p).execMsec + 1 := by
  rcases arm_alarm h.mode now hm hlt with ⟨hc, ha, hnext⟩ | ⟨hc, he⟩
  · rw [hnext]
    refine ⟨hm, _, ha, le_rfl, le_rfl, fun p hp => ?_⟩
    -- a timer is there, so an interval is armed, and the new one ends before it
    obtain ⟨b, hb, hbp⟩ := h.inTime p hp
    obtain ⟨hpos, -⟩ := h.ticks.resolve_left fun hnone => hnone.2 p hp
    have := hin (by omega) p (h.calm.inv.good.fresh p hp) hp b hb
    omega
  · obtain ⟨hpos, a, ha, hsince⟩ := h.ticks.resolve_left fun hneg => hc (.inl hneg.1)
    rw [he]
    refine ⟨hpos, a, ha, by omega, by omega, fun p hp => ?_⟩
    obtain ⟨b, hb, hbp⟩ := h.inTime p hp
    rw [← some.inj (hb.symm.trans ha)]
    exact hbp

lemma Armed.add {persistent room : Bool} (h : Armed last s)
    (hp : Punctual (.add now msec persistent room) s) (hle : ∀ c, reading now = some c → last ≤ c) :
    Armed ((reading now).getD last) (s.add now msec persistent room) := by
  obtain ⟨hroom, hlt, hlim, hin⟩ := hp
  have hplain : Plain (.call (.add now msec persistent room)) s := by
    refine ⟨hroom, by omega, ?_⟩
    intro f hf
    cases h.idle.symm.trans hf
  have hcalm := h.calm.add hplain
  have hframe := (add_frame s now msec persistent room).trans h.idle
  have hlast := le_getD hle
  unfold Loop.add at hcalm hframe ⊢
  rcases add_cases h.calm.inv.good hroom now msec persistent room with
    ⟨t, he, hr⟩ | ⟨hm, h0, t, he, ha⟩
  · rw [he] at hcalm hframe ⊢
    have hnear : Near last t := h.near.of_fewer hr.same.fewer
    have hlive : ∀ p, t.live p = true → s.timer.live p = true := by
      rw [hr.same.live]
      exact fun _ => id
    rcases hr.armed.2 with ⟨h1, h2⟩ | ⟨hm, h0, h1, h2⟩
    · refine ⟨hcalm, hframe, hr.armed.1.trans h.mode,
        (h.ticks.of_same h2 h1 hlive).mono hlast, ?_, hnear.mono hlast⟩
      intro p hp
      rw [h1, hr.same.tnodes]
      exact h.inTime p (hlive p hp)
    · have hread : reading now = some now := if_pos h0
      obtain ⟨hpos, a, ha, hsince, -, hall⟩ := h.arm hm hlt (hle now hread) (hin hm h0)
      rw [hread] at hlast ⊢
      rw [← h2] at hpos hsince
      refine ⟨hcalm, hframe, hr.armed.1.trans h.mode, .inr ⟨hpos, a, h1.trans ha, hsince⟩, ?_, hnear.mono hlast⟩
      intro p hp
      refine ⟨a, h1.trans ha, ?_⟩
      rw [hr.same.tnodes]
      exact hall p (hlive p hp)
  · rw [he] at hcalm hframe ⊢
    have hread : reading now = some now := if_pos h0
    obtain ⟨hpos, a, halarm, hsince, hself, hall⟩ := h.arm hm hlt (hle now hread) (hin hm h0)
    have halarm' : t.alarm = some a := ha.armed.2.1.trans halarm
    have hnear := h.near.add ha (by omega) (by omega) (hle now hread) hlt
    rw [hread]
    rw [← ha.armed.2.2] at hpos hsince
    refine ⟨hcalm, hframe, ha.armed.1.trans h.mode, .inr ⟨hpos, a, halarm', hsince⟩, ?_, hnear⟩
    intro p hp
    have hp' : t.live p = true := hp
    refine ⟨a, halarm', ?_⟩
    rw [ha.live] at hp'
    rw [ha.tnodes]
    by_cases hpf : p = s.timer.fresh
    · rw [hpf, update_self]
      show a ≤ int64 (now + msec) + 1
      rw [int64_of_lt (by omega) (by omega)]
      omega
    · rw [update_of_ne hpf] at hp' ⊢
      exact hall p hp'

lemma Armed.remove (h : Armed last s) (id : Int) : Armed last (s.remove id) := by
  have hcalm := h.calm.remove id
  rcases h.calm.inv.remove_cases id with he | ⟨f, hf, -⟩ | ⟨p, hl, -, -, he⟩
  · rw [he]
    exact h
  · cases h.idle.symm.trans hf
  · rw [he] at hcalm ⊢
    refine ⟨hcalm, h.idle, h.mode, h.ticks.of_same rfl rfl fun q hq => (live_drop hq).2, ?_, ?_⟩
    · intro q hq
      exact h.inTime q (live_drop hq).2
    · exact h.near.of_fewer (erase_fewer _ _)

/-! ## runs -/

lemma Armed.op {o : Op} (h : Armed last s) (hp : Punctual o s)
    (hclock : ∀ c, o.clock = some c → last ≤ c) (hs : Loop.op o s = some s') :
    Armed (o.clock.getD last) s' := by
  cases o with
  | add now msec persistent room =>
    cases hs
    exact h.add hp hclock
  | remove id =>
    cases hs
    exact h.remove id
  | select now cs => exact h.select hp hclock hs

/-- **the alarm is at most one millisecond after the earliest deadline** -/
theorem alarm_in_time (ops : List Op) (hp : Along op Punctual ops (start .system))
    (hclock : (ops.filterMap Op.clock).Pairwise (· ≤ ·)) (s : Loop)
    (hs : iter op ops (start .system) = some s) (p : Nat) (hl : s.timer.live p = true) :
    ∃ a, s.timer.alarm = some a ∧ a ≤ (s.timer.tnodes p).execMsec + 1 := by
  have hfirst : ∀ c ∈ ops.filterMap Op.clock, 0 ≤ c := by
    intro c hc
    obtain ⟨o, -, ho⟩ := List.mem_filterMap.1 hc
    exact o.clock_nonneg ho
  obtain ⟨last, h⟩ := iter_clocked (J := Armed)
    (fun _ _ _ _ hc hj hread he => hj.op hc hread he) ops hp start_armed hfirst hclock hs
  exact h.inTime p hl

theorem alarm_in_time_four : ∃ s, iter op [.add 0 1000 false true, .add 0 600 true true, .select 600 [],
        .select 700 [⟨[], 700⟩]] (start .system) = some s ∧
      ∃ a, s.timer.alarm = some a ∧ a ≤ (s.timer.tnodes 1).execMsec + 1 := by
  refine exists_of_map (fun s => s.timer.live 1) (show _ = some true by decide +kernel) fun s hs hl => ?_
  exact alarm_in_time _ (by decide +kernel) (by decide) s hs 1 hl

/-- the armed interval has aged: a shorter delay arms an alarm after the earlier deadline -/
theorem add_arms_late : (iter op [.add 0 1000 false true, .add 500 600 false true] (start .system)).map
        (fun s => (s.timer.alarm, s.timer.live 1, (s.timer.tnodes 1).execMsec))
      = some (some 1100, true, 1000) := by
  decide

end Loop

end Timer

end OSW.Core
