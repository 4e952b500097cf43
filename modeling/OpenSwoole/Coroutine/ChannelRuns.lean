import OpenSwoole.Coroutine.Wakeups

/-!
# Runs of channels and selectors

Every step keeps `Good`, if a coroutine that a `pop` or `push` wakes is a `pop` or `push` itself, and if
no selector stands in the way of a call that could go on (`Sched.Allowed`).  Without selectors that is
always so.

* `Good.wake`, `Good.tick`, `Good.act`   steps inside the channel code and steps of user code;
* `channel_fifo_no_lost_wakeup`   **channels without selectors**: bounded queues, first in first out, and
    nobody waits who could go on;
* `selector_no_lost_wakeup`   **channels with selectors**, under the condition above.
-/

namespace OSW.Coroutine
open Function Machine List Option

variable {α : Type}

section

variable {N : Nat → Nat} {s : Sched α} {K rest : List (Frame α)} {slack : Nat → Opcode → Nat}
  {co ch : Nat} {t : Opcode} {w : Wait α} {code : Code α} {err : Option Int}

/-! ## resumed coroutines go on -/

lemma Almost.awake (h : Almost N s (⟨co, .woken w err⟩ :: rest) slack) (hout : ∀ ch t, co ∉ s.queues ch t) :
    Almost N (s.setWait co none) (⟨co, .user⟩ :: rest) slack := by
  refine { linked := h.linked.awake rfl (fun _ _ _ _ => rfl) hout, base := h.base, settled := ?_, closing := ?_ }
  · exact fun ch t hlt co' hm => h.settled_of_not_mem none (hout ch t) hlt hm
  · exact forall_mem_cons.2 ⟨nofun, (forall_mem_cons.1 h.closing).2⟩

lemma Almost.user (h : Almost N s (⟨co, .user⟩ :: rest) fun _ _ => 0) :
    Good N (s.setStack (⟨co, .user⟩ :: rest)) :=
  (h.setStack _).good_of_resting (forall_mem_cons.2 ⟨trivial, h.linked.frames⟩)

lemma Almost.of_stuck (h : Almost N s K slack) (hslack : ∀ ch' t', slack ch' t' ≤ one ch t ch' t')
    (hav : (s.chans ch).avail t = 0) : Almost N s K fun _ _ => 0 := by
  refine { h with settled := fun ch' t' hlt => h.settled ch' t' ?_ }
  by_cases hct : ch' = ch ∧ t' = t
  · obtain ⟨rfl, rfl⟩ := hct
    omega
  · have := hslack ch' t'
    rw [one_of_ne hct] at this
    omega

lemma slack_woken_le (hw : w.calls t ch = true) (err : Option Int) (ch' : Nat) (t' : Opcode) :
    (Code.woken w err).slack ch' t' ≤ one ch t ch' t' := by
  cases err with
  | some e => exact Nat.zero_le _
  | none =>
    by_cases hc : w.calls t' ch' = true
    · obtain ⟨rfl, rfl⟩ := Wait.calls_unique hw (.inl hc)
      rw [one_self]
      exact le_of_eq (if_pos hc)
    · exact le_trans (le_of_eq (if_neg hc)) (Nat.zero_le _)

variable {c : Channel α} {timed : Bool} {pulls pushes : List Nat}

lemma Channel.avail_consumer_eq_zero : c.avail .consumer = 0 ↔ c.isEmpty = true := by
  unfold Channel.avail Channel.isEmpty
  rw [isEmpty_iff_length_eq_zero]

lemma Good.awake (h : Good N s) (hs : s.stack = ⟨co, .woken w err⟩ :: rest) (hcalls : w.calls t ch = true) :
    Almost N (s.setWait co none) (⟨co, .user⟩ :: rest) (Code.woken w err).slack ∧
      (err = none → (s.chans ch).avail t = 0 → (s.chans ch).closed = true) := by
  have halm := h.almost
  rw [hs, Sched.top_eq hs] at halm
  refine ⟨halm.awake (halm.linked.not_mem_of_woken hcalls), ?_⟩
  rintro rfl
  refine h.ready ch t ?_
  rw [Sched.top_eq hs]
  exact lt_of_lt_of_eq Nat.one_pos (if_pos hcalls).symm

lemma Good.wake_pop (h : Good N s) (hs : s.stack = ⟨co, .woken (.pop ch timed) err⟩ :: rest) :
    Good N ((s.setWait co none).wake co rest err (.pop ch timed)) := by
  have hcalls : (Wait.pop ch timed : Wait α).calls .consumer ch = true := by simp [Wait.calls]
  obtain ⟨haw, hready⟩ := h.awake hs hcalls
  unfold Sched.wake
  cases err with
  | some e => exact (haw.setError ch e).user
  | none =>
    simp only
    have hslack := slack_woken_le hcalls none
    by_cases hcl : (((s.setWait co none).chans ch).closed && ((s.setWait co none).chans ch).isEmpty) = true
    · rw [if_pos hcl]
      have hav : (s.chans ch).avail .consumer = 0 :=
        Channel.avail_consumer_eq_zero.2 (Bool.and_eq_true_iff.1 hcl).2
      exact ((haw.of_stuck hslack hav).setError ch errorClosed).user
    · rw [if_neg hcl]
      refine haw.popData rfl hslack fun hnil => hcl ?_
      have hav : (s.chans ch).avail .consumer = 0 := congrArg length hnil
      exact Bool.and_eq_true_iff.2 ⟨hready rfl hav, Channel.avail_consumer_eq_zero.1 hav⟩

lemma Good.wake_push {v : α} (h : Good N s) (hs : s.stack = ⟨co, .woken (.push ch v timed) err⟩ :: rest) :
    Good N ((s.setWait co none).wake co rest err (.push ch v timed)) := by
  have hcalls : (Wait.push ch v timed).calls .producer ch = true := by simp [Wait.calls]
  obtain ⟨haw, hready⟩ := h.awake hs hcalls
  unfold Sched.wake
  cases err with
  | some e => exact (haw.setError ch e).user
  | none =>
    simp only
    have hslack := slack_woken_le hcalls none
    by_cases hcl : ((s.setWait co none).chans ch).closed = true
    · rw [if_pos hcl]
      exact ((haw.of_stuck hslack (if_pos hcl)).setError ch errorClosed).user
    · rw [if_neg hcl]
      exact haw.pushData rfl hslack (pos_of_ne_zero fun hav => hcl (hready rfl hav)) v

/-! ## selectors -/

lemma calls_select (pulls pushes : List Nat) (timed : Bool) (t : Opcode) (ch : Nat) :
    (Wait.select pulls pushes timed : Wait α).calls t ch = false := by
  cases t <;> rfl

lemma calls_other (t : Opcode) (ch : Nat) : (Wait.other : Wait α).calls t ch = false := by cases t <;> rfl

lemma Almost.selectEnd (h : Almost N s (⟨co, code⟩ :: rest) fun _ _ => 0) (pulls pushes : List Nat)
    (hin : ∀ ch t, co ∈ s.queues ch t → (Sched.listed pulls pushes t).count ch ≠ 0) :
    Almost N ((s.setWait co none).selectEnd co pulls pushes) (⟨co, .user⟩ :: rest) fun _ _ => 0 := by
  have hQ : ∀ ch t, ((s.setWait co none).selectEnd co pulls pushes).queues ch t =
      if (Sched.listed pulls pushes t).count ch = 0 then s.queues ch t
      else (s.queues ch t).filter (· ≠ co) := fun _ _ => rfl
  have hsub : ∀ ch t co', co' ∈ ((s.setWait co none).selectEnd co pulls pushes).queues ch t →
      co' ∈ s.queues ch t ∧ co' ≠ co := by
    intro ch t co' hm
    rw [hQ] at hm
    by_cases hn : (Sched.listed pulls pushes t).count ch = 0
    · rw [if_pos hn] at hm
      refine ⟨hm, ?_⟩
      rintro rfl
      exact hin ch t hm hn
    · rw [if_neg hn, mem_filter] at hm
      exact ⟨hm.1, of_decide_eq_true hm.2⟩
  refine { linked := h.linked.awake rfl ?_ fun ch t hm => (hsub ch t co hm).2 rfl, base := ?_,
           settled := ?_, closing := ?_ }
  · intro ch t co' hne
    rw [hQ]
    by_cases hn : (Sched.listed pulls pushes t).count ch = 0
    · rw [if_pos hn]
    · rw [if_neg hn, count_filter (by simpa using hne)]
  · intro ch
    have hb := h.base ch
    exact { hb with }
  · intro ch t hlt co' hm
    obtain ⟨hm', hne⟩ := hsub ch t co' hm
    show calls (update s.waits co none) co' t ch = false
    rw [calls_update_of_ne hne]
    exact h.settled ch t hlt co' hm'
  · exact forall_mem_cons.2 ⟨nofun, (forall_mem_cons.1 h.closing).2⟩

lemma Almost.select_yield (timed : Bool) (h : Almost N s (⟨co, code⟩ :: rest) fun _ _ => 0)
    (hcode : code.wait = none) :
    Good N (((s.addWaiting co pulls pushes).setWait co
      (some (.select pulls pushes timed))).setStack rest) := by
  have hidle : s.waits co = none := (h.linked.waiting _ mem_cons_self).trans hcode
  have hQ : ∀ ch t, (s.addWaiting co pulls pushes).queues ch t =
      s.queues ch t ++ replicate ((Sched.listed pulls pushes t).count ch) co := fun _ _ => rfl
  have hlinked : Linked (s.addWaiting co pulls pushes).queues
      (update s.waits co (some (.select pulls pushes timed))) rest := by
    refine h.linked.leave ?_ ?_ ?_
    · intro ch t co' hne
      rw [hQ, count_append, count_replicate, if_neg (by simpa using hne.symm)]
      rfl
    · intro ch t hm
      refine ⟨_, rfl, .inr (decide_eq_true ?_)⟩
      rcases mem_append.1 hm with hm | hm
      · exact absurd hm (h.linked.not_mem hidle ch t)
      · exact count_pos_iff.1 (pos_of_ne_zero (mem_replicate.1 hm).1)
    · intro ch t hcalls
      cases hcalls
  refine Almost.good_of_resting { linked := hlinked, base := ?_, settled := ?_, closing := ?_ }
    h.linked.frames
  · intro ch
    have hb := h.base ch
    exact { hb with }
  · intro ch t hlt co' hm
    show calls (update s.waits co _) co' t ch = false
    have hm' : co' ∈ (s.addWaiting co pulls pushes).queues ch t := hm
    rcases mem_append.1 hm' with hm' | hm'
    · exact h.settled_of_not_mem _ (h.linked.not_mem hidle ch t) hlt hm'
    · rw [(mem_replicate.1 hm').2, calls_update_self, any_some, calls_select]
  · exact (forall_mem_cons.1 h.closing).2

section
variable (h : Good N s)
include h

lemma Good.almost_of_woken (hs : s.stack = ⟨co, .woken w err⟩ :: rest) (hc : ∀ t ch, w.calls t ch = false) :
    Almost N s (⟨co, .woken w err⟩ :: rest) (fun _ _ => 0) ∧
      ∀ ch t, co ∈ s.queues ch t → w.lists t ch = true := by
  have halm := h.almost
  have hw : s.waits co = some w := halm.linked.waiting ⟨co, .woken w err⟩ (hs ▸ mem_cons_self)
  refine ⟨?_, fun ch t hm => ?_⟩
  · rw [← hs]
    refine halm.mono fun ch t => ?_
    rw [Sched.top_eq hs]
    cases err with
    | some e => exact le_rfl
    | none => exact le_of_eq (if_neg (by rw [hc]; decide))
  · obtain ⟨w', hw', hin⟩ := halm.linked.member ch t co hm
    obtain rfl := some.inj (hw'.symm.trans hw)
    rw [hc] at hin
    exact hin.resolve_left (by decide)

lemma Good.wake (hs : s.stack = ⟨co, .woken w err⟩ :: rest) :
    Good N ((s.setWait co none).wake co rest err w) := by
  cases w with
  | pop ch timed => exact h.wake_pop hs
  | push ch v timed => exact h.wake_push hs
  | select pulls pushes timed =>
    obtain ⟨halm, hin⟩ := h.almost_of_woken hs (calls_select pulls pushes timed)
    refine (halm.selectEnd pulls pushes fun ch t hm => ?_).user
    have hlisted : ch ∈ Sched.listed pulls pushes t := of_decide_eq_true (hin ch t hm)
    exact ne_of_gt (count_pos_iff.2 hlisted)
  | other =>
    obtain ⟨halm, hin⟩ := h.almost_of_woken hs calls_other
    exact (halm.awake fun ch t hm => Bool.noConfusion (hin ch t hm)).user

/-! ## steps inside the channel code -/

/-- the coroutine that is woken at the end of a `pop` or `push` is in a call itself, or nobody in its
queue is -/
def Sched.WakesCall (s : Sched α) : Code α → Prop
  | .notify ch t => 0 < (s.chans ch).avail t →
      (∀ co ∈ ((s.chans ch).queue t).head?, calls s.waits co t ch = true) ∨
        ∀ co ∈ (s.chans ch).queue t, calls s.waits co t ch = false
  | _ => True

def Sched.inUser (s : Sched α) : Bool :=
  match s.stack with
  | ⟨_, .user⟩ :: _ => true
  | _ => false

/-- a `pop` or `push` that could go on finds its queue empty, and no selector is woken while a call waits -/
def Sched.Allowed : Op α → Sched α → Prop
  | .pop ch _, s => s.inUser = true → 0 < (s.chans ch).avail .consumer → (s.chans ch).queue .consumer = []
  | .push ch _ _, s => s.inUser = true → 0 < (s.chans ch).avail .producer →
      (s.chans ch).queue .producer = []
  | .tick, s => s.WakesCall s.top
  | _, _ => True

instance (s : Sched α) (code : Code α) : Decidable (s.WakesCall code) := by
  cases code <;> dsimp only [Sched.WakesCall] <;> infer_instance

instance (op : Op α) (s : Sched α) : Decidable (Sched.Allowed op s) := by
  cases op <;> dsimp only [Sched.Allowed] <;> infer_instance

lemma Good.tick_notify (hs : s.stack = ⟨co, .notify ch t⟩ :: rest) (hallow : s.WakesCall (.notify ch t)) :
    Good N ((s.notify ch t (⟨co, .user⟩ :: rest)).getD (s.setStack (⟨co, .user⟩ :: rest))) := by
  have htop := Sched.top_eq hs
  have halm : Almost N s (⟨co, .user⟩ :: rest) (one ch t) := by
    have halm := h.almost
    rw [hs, htop] at halm
    exact { halm with
      linked := halm.linked.move rfl
      closing := forall_mem_cons.2 ⟨nofun, (forall_mem_cons.1 halm.closing).2⟩ }
  unfold Sched.notify
  cases hq : (s.chans ch).queue t with
  | nil =>
    refine Almost.user { halm with settled := fun ch' t' hlt => ?_ }
    by_cases hct : ch' = ch ∧ t' = t
    · obtain ⟨rfl, rfl⟩ := hct
      rw [hq]
      exact nofun
    · exact halm.settled ch' t' (by rw [one_of_ne hct]; exact hlt)
  | cons co' q =>
    refine halm.notify (forall_mem_cons.2 ⟨trivial, halm.linked.frames⟩) hq
      (fun _ _ => le_rfl) ?_ fun _ hav => ?_
    · refine h.ready ch t ?_
      rw [htop]
      exact lt_of_lt_of_eq Nat.one_pos (one_self ch t).symm
    · refine (hallow hav).imp_left fun hhead => hhead co' ?_
      rw [hq]
      rfl

lemma Good.tick_closing (code : Code α) (hs : s.stack = ⟨co, .closing ch t⟩ :: rest) (hcode : code.Resting)
    (hnext : ∀ ch' t', code = .closing ch' t' → ch' = ch) :
    Good N ((s.notify ch t (⟨co, .closing ch t⟩ :: rest)).getD (s.setStack (⟨co, code⟩ :: rest))) := by
  have halm := h.almost
  rw [Sched.top_eq hs, hs] at halm
  have hcl : (s.chans ch).closed = true := halm.closing _ mem_cons_self ch t rfl
  unfold Sched.notify
  cases hq : (s.chans ch).queue t with
  | nil =>
    have halm' : Almost N s (⟨co, code⟩ :: rest) fun _ _ => 0 := by
      refine { halm with
        linked := halm.linked.move hcode.wait
        closing := forall_mem_cons.2 ⟨fun ch' t' hc => ?_, (forall_mem_cons.1 halm.closing).2⟩ }
      rw [hnext ch' t' hc]
      exact hcl
    exact (halm'.setStack _).good_of_resting (forall_mem_cons.2 ⟨hcode, halm.linked.frames⟩)
  | cons co' q =>
    exact halm.notify (forall_mem_cons.2 ⟨trivial, halm.linked.frames⟩) hq
      (fun _ _ => Nat.zero_le _) (fun _ => hcl) fun hpos => absurd hpos (lt_irrefl 0)

lemma Good.tick (ha : Sched.Allowed .tick s) : Good N s.tick := by
  unfold Sched.tick
  cases hs : s.stack with
  | nil => exact h
  | cons f rest =>
    obtain ⟨co, code⟩ := f
    cases code with
    | user => exact h
    | woken w err => exact h.wake hs
    | notify ch t =>
      have hwakes : s.WakesCall s.top := ha
      rw [Sched.top_eq hs] at hwakes
      exact h.tick_notify hs hwakes
    | closing ch t =>
      cases t with
      | producer =>
        exact h.tick_closing (.closing ch .consumer) hs trivial fun ch' t' hc => by cases hc; rfl
      | consumer => exact h.tick_closing .user hs trivial nofun

/-! ## steps of user code -/

lemma Good.almost_user (hs : s.stack = ⟨co, .user⟩ :: rest) : Almost N s (⟨co, .user⟩ :: rest) fun _ _ => 0 := by
  have halm := h.almost
  unfold Sched.top at halm
  rw [hs] at halm
  exact halm

end

lemma Almost.good_user (h : Almost N s (⟨co, .user⟩ :: rest) fun _ _ => 0)
    (hs : s.stack = ⟨co, .user⟩ :: rest) : Good N s := by
  have hu := h.user
  rw [← hs] at hu
  exact hu

section
variable (h : Good N s) (hs : s.stack = ⟨co, .user⟩ :: rest)
include h hs

lemma Good.pop (timed : Bool) (ha : 0 < (s.chans ch).avail .consumer → (s.chans ch).queue .consumer = []) :
    Good N (s.pop ch timed co rest) := by
  have halm := h.almost_user hs
  unfold Sched.pop
  by_cases hcl : ((s.chans ch).closed && (s.chans ch).isEmpty) = true
  · rw [if_pos hcl]
    exact (halm.setError ch errorClosed).good_user hs
  rw [if_neg hcl]
  by_cases hwait : ((s.chans ch).isEmpty || !((s.chans ch).queue .consumer).isEmpty) = true
  · rw [if_pos hwait]
    refine halm.yield rfl (by simp [Wait.calls]) ?_
    rcases Bool.or_eq_true_iff.1 hwait with hempty | hq
    · exact Channel.avail_consumer_eq_zero.2 hempty
    · refine Nat.eq_zero_of_not_pos fun hpos => ?_
      rw [ha hpos] at hq
      cases hq
  · rw [if_neg hwait]
    refine halm.popData rfl (fun _ _ => Nat.zero_le _) fun hnil => hwait ?_
    rw [Bool.or_eq_true_iff, Channel.isEmpty, hnil]
    exact .inl rfl

lemma Good.push (v : α) (timed : Bool)
    (ha : 0 < (s.chans ch).avail .producer → (s.chans ch).queue .producer = []) :
    Good N (s.push ch v timed co rest) := by
  have halm := h.almost_user hs
  have hb := halm.base ch
  unfold Sched.push
  by_cases hcl : (s.chans ch).closed = true
  · rw [if_pos hcl]
    exact (halm.setError ch errorClosed).good_user hs
  rw [if_neg hcl]
  have hav : (s.chans ch).avail .producer = (s.chans ch).capacity - (s.chans ch).data.length := if_neg hcl
  by_cases hwait : ((s.chans ch).isFull || !((s.chans ch).queue .producer).isEmpty) = true
  · rw [if_pos hwait]
    refine halm.yield rfl (by simp [Wait.calls]) ?_
    rcases Bool.or_eq_true_iff.1 hwait with hfull | hq
    · have : (s.chans ch).data.length = (s.chans ch).capacity := of_decide_eq_true hfull
      omega
    · refine Nat.eq_zero_of_not_pos fun hpos => ?_
      rw [ha hpos] at hq
      cases hq
  · rw [if_neg hwait]
    refine halm.pushData rfl (fun _ _ => Nat.zero_le _) ?_ v
    have hne : (s.chans ch).data.length ≠ (s.chans ch).capacity := fun he =>
      hwait (Bool.or_eq_true_iff.2 (.inl (decide_eq_true he)))
    have := hb.bound
    omega

lemma Good.close (ch : Nat) : Good N (s.close ch co rest) := by
  have halm := h.almost_user hs
  unfold Sched.close
  by_cases hcl : (s.chans ch).closed = true
  · rw [if_pos hcl]
    exact h
  rw [if_neg hcl]
  have hb := halm.base ch
  have hlinked : Linked (s.setChan ch { s.chans ch with closed := true }).queues s.waits
      (⟨co, .closing ch .producer⟩ :: rest) := by
    rw [queues_setChan_same (c := { s.chans ch with closed := true }) rfl]
    exact halm.linked.move rfl
  refine ((halm.setChan (fun _ _ => 0) hlinked { hb with } ?_ (fun _ _ _ => le_rfl)
    (forall_mem_cons.2 ⟨?_, fun f hf ch' t =>
      halm.closed_setChan (fun _ => rfl) (mem_cons_of_mem _ hf)⟩)).setStack
      _).good_of_resting (forall_mem_cons.2 ⟨trivial, halm.linked.frames⟩)
  · intro t hlt
    cases t with
    | consumer => exact halm.settled ch .consumer hlt
    | producer => exact absurd hlt (lt_irrefl 0)
  · rintro _ _ ⟨⟩
    rw [chans_setChan_self]

end

lemma Sched.setWait_none (h : s.waits co = none) : s.setWait co none = s := by
  unfold Sched.setWait
  rw [← h, update_eq_self]

section
variable (h : Good N s)
include h

lemma Good.select (hs : s.stack = ⟨co, .user⟩ :: rest) (pulls pushes : List Nat) (timed : Bool) :
    Good N (s.select pulls pushes timed co rest) := by
  have halm := h.almost_user hs
  have hidle : s.waits co = none := halm.linked.waiting _ mem_cons_self
  unfold Sched.select
  by_cases hnil : (pulls.isEmpty && pushes.isEmpty) = true
  · rw [if_pos hnil]
    exact ⟨{ h.almost with }, h.ready⟩
  rw [if_neg hnil]
  by_cases hall : s.allWaiting pulls pushes = true
  · rw [if_pos hall]
    exact halm.select_yield timed rfl
  · rw [if_neg hall]
    have hend := halm.selectEnd pulls pushes fun ch t hm => absurd hm (halm.linked.not_mem hidle ch t)
    rw [Sched.setWait_none hidle] at hend
    exact hend.good_user hs

lemma Good.interrupt (halm : Almost N s s.stack fun _ _ => 0) (hK : ∀ f ∈ s.stack, f.code.Resting) (co : Nat)
    (e : Int) : Good N (s.interrupt co e) := by
  unfold Sched.interrupt
  split
  · rename_i ch timed hw
    exact halm.interrupted hK hw (by simp [Wait.calls]) e
  · rename_i ch v timed hw
    exact halm.interrupted hK hw (by simp [Wait.calls]) e
  · exact h

lemma Good.enter (halm : Almost N s s.stack fun _ _ => 0) (hK : ∀ f ∈ s.stack, f.code.Resting) (co : Nat) :
    Good N (s.enter co) := by
  unfold Sched.enter
  by_cases hrun : co ∈ s.stack.map Frame.co
  · rw [if_pos hrun]
    exact h
  rw [if_neg hrun]
  cases hw : s.waits co with
  | none =>
    have hL := halm.linked.come .user hK hrun hw (fun _ _ _ _ => rfl) (fun _ _ hm => hm)
      fun ch t hc => by rw [calls, hw] at hc; cases hc
    exact Almost.user { halm with linked := hL, closing := forall_mem_cons.2 ⟨nofun, halm.closing⟩ }
  | some w =>
    cases w with
    | other => exact halm.resume_other none hK hw fun ch t => calls_other t ch
    | pop | push | select => exact h

lemma Good.almost_idle (hs : s.stack = []) :
    (Almost N s s.stack fun _ _ => 0) ∧ ∀ f ∈ s.stack, f.code.Resting := by
  have halm := h.almost
  unfold Sched.top at halm
  rw [hs] at halm ⊢
  exact ⟨halm, nofun⟩

lemma Good.timeout (hs : s.stack = []) (co : Nat) : Good N (s.timeout co) := by
  obtain ⟨halm, hK⟩ := h.almost_idle hs
  unfold Sched.timeout
  cases hw : s.waits co with
  | none => exact h
  | some w =>
    simp only
    by_cases ht : Sched.isTimed w = true
    · rw [if_pos ht]
      cases w with
      | select pulls pushes timed =>
        exact halm.resume_other (some errorTimeout) hK hw fun ch t => calls_select _ _ _ t ch
      | pop ch timed | push ch v timed | other => exact h.interrupt halm hK co errorTimeout
    · rw [if_neg ht]
      exact h

end

lemma Almost.leave (h : Almost N s (⟨co, .user⟩ :: rest) fun _ _ => 0) {x : Option (Wait α)}
    (hx : ∀ w, x = some w → w = .other) : Good N ((s.setWait co x).setStack rest) := by
  have hidle : s.waits co = none := h.linked.waiting _ mem_cons_self
  have hcalls : ∀ t ch, x.any (·.calls t ch) = false := by
    intro t ch
    cases x with
    | none => rfl
    | some w =>
      obtain rfl := hx w rfl
      exact @calls_other α t ch
  have hL : Linked s.queues (update s.waits co x) rest :=
    h.linked.leave (fun _ _ _ _ => rfl) (fun ch t hm => absurd hm (h.linked.not_mem hidle ch t))
      fun ch t hc => by rw [hcalls] at hc; cases hc
  refine Almost.good_of_resting
    { linked := hL, base := h.base, settled := fun ch t hlt co' hm => ?_, closing := ?_ }
    h.linked.frames
  · exact h.settled_of_not_mem x (h.linked.not_mem hidle ch t) hlt hm
  · exact (forall_mem_cons.1 h.closing).2

lemma Good.act (h : Good N s) (hs : s.stack = ⟨co, .user⟩ :: rest) (op : Op α)
    (ha : Sched.Allowed op s) : Good N (s.act co rest op) := by
  have halm := h.almost_user hs
  have halm' : Almost N s s.stack fun _ _ => 0 := by
    rw [hs]
    exact halm
  have hK' : ∀ f ∈ s.stack, f.code.Resting := by
    rw [hs]
    exact forall_mem_cons.2 ⟨trivial, halm.linked.frames⟩
  have huser : s.inUser = true := by
    unfold Sched.inUser
    rw [hs]
  cases op with
  | tick => exact h
  | pop ch timed => exact h.pop hs timed (ha huser)
  | push ch v timed => exact h.push hs v timed (ha huser)
  | close ch => exact h.close hs ch
  | select pulls pushes timed => exact h.select hs pulls pushes timed
  | cancel co' => exact h.interrupt halm' hK' co' errorCanceled
  | suspend => exact halm.leave fun w hw => (some.inj hw).symm
  | exit =>
    have hleft := halm.leave (x := none) nofun
    rw [Sched.setWait_none (halm.linked.waiting _ mem_cons_self)] at hleft
    exact hleft
  | enter co' => exact h.enter halm' hK' co'
  | timeout co' => exact h

/-- **one step keeps the invariant** -/
theorem Good.step (op : Op α) (s : Sched α) (ha : Sched.Allowed op s) (h : Good N s) :
    Good N (Sched.step op s) := by
  cases hs : s.stack with
  | nil =>
    obtain ⟨halm, hK⟩ := h.almost_idle hs
    unfold Sched.step
    rw [hs]
    cases op with
    | tick => exact h.tick ha
    | enter co => exact h.enter halm hK co
    | timeout co => exact h.timeout hs co
    | _ => exact h
  | cons f rest =>
    obtain ⟨co, code⟩ := f
    unfold Sched.step
    rw [hs]
    cases code with
    | user =>
      cases op with
      | tick => exact h.tick ha
      | _ => exact h.act hs _ ha
    | _ =>
      cases op with
      | tick => exact h.tick ha
      | _ => exact h

lemma init_good (N : Nat → Nat) : Good N (Sched.init N : Sched α) := by
  refine Almost.good_of_resting { linked := ?_, base := fun ch => ⟨rfl, rfl, Nat.zero_le _, rfl⟩,
                                  settled := nofun, closing := nofun } nofun
  exact { frames := nofun, nodup := nodup_nil, waiting := nofun, member := nofun, counts := nofun }

/-! ## whole runs -/

/-- nobody waits in a `pop` on a channel that holds a value, or in a `push` on an open channel with room -/
def Sched.NoLostWakeup (s : Sched α) : Prop :=
  ∀ ch, ((s.chans ch).data ≠ [] → ∀ co timed, s.waits co ≠ some (.pop ch timed)) ∧
    ((s.chans ch).closed = false → (s.chans ch).data.length < (s.chans ch).capacity →
      ∀ co v timed, s.waits co ≠ some (.push ch v timed))

lemma Good.not_waiting (h : Good N s) (hs : s.stack = []) (hw : s.waits co = some w)
    (hc : w.calls t ch = true) : (s.chans ch).avail t = 0 := by
  refine Nat.eq_zero_of_not_pos fun hpos => ?_
  have hcalls : calls s.waits co t ch = true := (calls_of_some hw t ch).trans hc
  have hcount := h.almost.linked.counts ch t co hcalls
  rw [hs, if_neg (by simp)] at hcount
  have hm : co ∈ (s.chans ch).queue t := count_pos_iff.1 (lt_of_lt_of_eq Nat.one_pos hcount.symm)
  have hslack : s.top.slack ch t = 0 := by
    unfold Sched.top
    rw [hs]
    rfl
  have := h.almost.settled ch t (by rw [hslack]; exact hpos) co hm
  rw [hcalls] at this
  cases this

lemma Good.noLostWakeup (h : Good N s) (hs : s.stack = []) : s.NoLostWakeup := by
  intro ch
  constructor
  · intro hne co timed hw
    have hc : (Wait.pop ch timed : Wait α).calls .consumer ch = true := by simp [Wait.calls]
    have hav := h.not_waiting hs hw hc
    exact hne (length_eq_zero_iff.1 hav)
  · intro hopen hlt co v timed hw
    have hc : (Wait.push ch v timed).calls .producer ch = true := by simp [Wait.calls]
    have hav := h.not_waiting hs hw hc
    unfold Channel.avail at hav
    simp only at hav
    rw [if_neg (by rw [hopen]; decide)] at hav
    omega

end

/-! ## runs without selectors -/

def Op.Plain : Op α → Prop
  | .select _ _ _ => False
  | _ => True

instance (op : Op α) : Decidable op.Plain := by
  cases op <;> dsimp only [Op.Plain] <;> infer_instance

/-- no coroutine is suspended in a `select` -/
def Sched.NoSelector (s : Sched α) : Prop := ∀ co w, s.waits co = some w → ∀ t ch, w.lists t ch = false

section

variable {N : Nat → Nat} {s : Sched α} {rest : List (Frame α)} {co ch : Nat} {t : Opcode}

section
variable (h : s.NoSelector)
include h

lemma Sched.NoSelector.setWait (co : Nat) {x : Option (Wait α)}
    (hx : ∀ w, x = some w → ∀ t ch, w.lists t ch = false) : (s.setWait co x).NoSelector := by
  intro co' w hw
  have hw' : update s.waits co x co' = some w := hw
  by_cases he : co' = co
  · rw [he, update_self] at hw'
    exact hx w hw'
  · rw [update_of_ne he] at hw'
    exact h co' w hw'

lemma Sched.NoSelector.wake (co : Nat) (rest : List (Frame α)) (err : Option Int) (w : Wait α) :
    (s.wake co rest err w).NoSelector := by
  cases w with
  | pop ch timed | push ch v timed =>
    cases err with
    | some e => exact h
    | none =>
      unfold Sched.wake
      simp only
      split
      · exact h
      · exact h
  | select | other => exact h

lemma Sched.NoSelector.notify (ch : Nat) (t : Opcode) (K K' : List (Frame α)) :
    ((s.notify ch t K).getD (s.setStack K')).NoSelector := by
  unfold Sched.notify
  split
  · exact h
  · exact h

lemma Sched.NoSelector.tick : s.tick.NoSelector := by
  unfold Sched.tick
  split
  · exact (h.setWait (x := none) _ fun _ hw => by cases hw).wake _ _ _ _
  · exact h.notify _ _ _ _
  · exact h.notify _ _ _ _
  · exact h.notify _ _ _ _
  · exact h

lemma Sched.NoSelector.yield (rest : List (Frame α)) {w : Wait α} (hw : ∀ t ch, w.lists t ch = false) :
    (s.yield ch t co w rest).NoSelector :=
  Sched.NoSelector.setWait (s := s.setChan ch ((s.chans ch).append t co)) h co
    fun w' hw' => by cases hw'; exact hw

lemma Sched.NoSelector.interrupt (co : Nat) (e : Int) : (s.interrupt co e).NoSelector := by
  unfold Sched.interrupt
  split
  · exact h
  · exact h
  · exact h

lemma Sched.NoSelector.timeout (co : Nat) : (s.timeout co).NoSelector := by
  unfold Sched.timeout
  split
  · split
    · split
      · exact h
      · exact h.interrupt co errorTimeout
    · exact h
  · exact h

lemma Sched.NoSelector.enter (co : Nat) : (s.enter co).NoSelector := by
  unfold Sched.enter
  split
  · exact h
  · split
    · exact h
    · exact h
    · exact h

end

variable {op : Op α}

lemma Sched.NoSelector.act (h : s.NoSelector) (co : Nat) (rest : List (Frame α)) (hop : op.Plain) :
    (s.act co rest op).NoSelector := by
  cases op with
  | pop ch timed =>
    show (s.pop ch timed co rest).NoSelector
    unfold Sched.pop
    simp only
    split
    · exact h
    · split
      · exact h.yield rest fun t _ => by cases t <;> rfl
      · exact h
  | push ch v timed =>
    show (s.push ch v timed co rest).NoSelector
    unfold Sched.push
    simp only
    split
    · exact h
    · split
      · exact h.yield rest fun t _ => by cases t <;> rfl
      · exact h
  | close ch =>
    show (s.close ch co rest).NoSelector
    unfold Sched.close
    split
    · exact h
    · exact h
  | select => exact hop.elim
  | cancel co' => exact h.interrupt co' errorCanceled
  | suspend => exact h.setWait co fun w hw t _ => by cases hw; cases t <;> rfl
  | exit => exact h
  | enter co' => exact h.enter co'
  | tick | timeout => exact h

lemma Sched.NoSelector.step (h : s.NoSelector) (hop : op.Plain) : (Sched.step op s).NoSelector := by
  unfold Sched.step
  split
  · exact h.tick
  · exact h.enter _
  · exact h.timeout _
  · exact h.act _ _ hop
  · exact h

variable (h : Good N s) (hsel : s.NoSelector)
include h hsel

lemma Good.calls_of_mem (hm : co ∈ (s.chans ch).queue t) : calls s.waits co t ch = true := by
  obtain ⟨w, hw, hin⟩ := h.almost.linked.member ch t co hm
  rw [calls_of_some hw]
  exact hin.resolve_right fun hl => by rw [hsel co w hw t ch] at hl; cases hl

lemma Good.queue_eq_nil (hu : s.inUser = true) (hav : 0 < (s.chans ch).avail t) : (s.chans ch).queue t = [] := by
  refine eq_nil_iff_forall_not_mem.2 fun co hm => ?_
  have hslack : s.top.slack ch t = 0 := by
    unfold Sched.inUser at hu
    unfold Sched.top
    split at hu
    · rename_i hs
      rw [hs]
      rfl
    · cases hu
  have hfalse := h.almost.settled ch t (by rw [hslack]; exact hav) co hm
  rw [h.calls_of_mem hsel hm] at hfalse
  cases hfalse

lemma Good.allowed : Sched.Allowed op s := by
  cases op with
  | pop ch timed | push ch v timed => exact fun hu hav => h.queue_eq_nil hsel hu hav
  | tick =>
    show s.WakesCall s.top
    cases s.top with
    | notify ch t => exact fun _ => .inl fun co hco => h.calls_of_mem hsel (mem_of_mem_head? hco)
    | user | woken | closing => trivial
  | _ => trivial

end

theorem channel_fifo_no_lost_wakeup (capacity : Nat → Nat) (ops : List (Op α)) (hops : ∀ op ∈ ops, op.Plain) :
    (∀ ch, ((Sched.run ops (.init capacity)).chans ch).Base (capacity ch)) ∧
      ((Sched.run ops (.init capacity)).stack = [] → (Sched.run ops (.init capacity)).NoLostWakeup) := by
  have hstep : ∀ (op : Op α) (s : Sched α), op.Plain → Good capacity s ∧ s.NoSelector →
      Good capacity (Sched.step op s) ∧ (Sched.step op s).NoSelector :=
    fun op s hop h => ⟨h.1.step op s (h.1.allowed h.2), h.2.step hop⟩
  have h := foldl_spec hstep ops hops ⟨init_good capacity, nofun⟩
  exact ⟨h.1.almost.base, h.1.noLostWakeup⟩

/-- a `pop` that waits, and the `push` that wakes it -/
theorem channel_fifo_no_lost_wakeup_five :
    ∃ s : Sched Nat, s = Sched.run [.enter 1, .pop 0 false, .enter 2, .push 0 5 false, .tick, .tick,
        .tick, .exit, .exit] (.init fun _ => 1) ∧
      s.stack = [] ∧ (s.chans 0).popped = [5] ∧ (∀ ch, (s.chans ch).Base 1) ∧ s.NoLostWakeup := by
  have h := channel_fifo_no_lost_wakeup (fun _ => 1) ([.enter 1, .pop 0 false, .enter 2,
    .push 0 5 false, .tick, .tick, .tick, .exit, .exit] : List (Op Nat)) (by decide)
  exact ⟨_, rfl, rfl, rfl, h.1, h.2 rfl⟩

theorem selector_no_lost_wakeup (capacity : Nat → Nat) (ops : List (Op α))
    (hops : Along (fun op s => some (Sched.step op s)) Sched.Allowed ops (.init capacity))
    (hs : (Sched.run ops (.init capacity)).stack = []) :
    (Sched.run ops (.init capacity)).NoLostWakeup :=
  (foldl_along Good.step ops hops (init_good capacity)).noLostWakeup hs

/-- a selector alone in its queue is woken and takes the value -/
theorem selector_no_lost_wakeup_five :
    ∃ s : Sched Nat, s = Sched.run [.enter 1, .select [0] [] false, .enter 2, .push 0 5 false, .tick,
        .tick, .pop 0 false, .tick, .exit, .exit] (.init fun _ => 1) ∧
      s.stack = [] ∧ (s.chans 0).popped = [5] ∧ s.NoLostWakeup :=
  ⟨_, rfl, rfl, rfl, selector_no_lost_wakeup _ _ (by decide) rfl⟩

/-- the `push` wakes a selector in front of a `pop`; the channel holds the value, and the `pop` still waits -/
theorem selector_loses_wakeup :
    ∃ s : Sched Nat, s = Sched.run [.enter 1, .select [0] [] false, .enter 2, .pop 0 false, .enter 3,
        .push 0 5 false, .tick, .tick, .exit, .exit] (.init fun _ => 1) ∧
      s.stack = [] ∧ (s.chans 0).data = [5] ∧ s.waits 2 = some (.pop 0 false) ∧ ¬ s.NoLostWakeup :=
  ⟨_, rfl, rfl, rfl, rfl, fun h => (h 0).1 (cons_ne_nil _ _) 2 false rfl⟩

end OSW.Coroutine
