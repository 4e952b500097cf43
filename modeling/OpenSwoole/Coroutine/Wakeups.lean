import OpenSwoole.Coroutine.Channel

/-!
# No wakeup is lost

The queues of the channels, the suspended calls and the stack fit together (`Linked`); and a call that
could go on does not wait (`Good.settled`).  Between a change of the data and the coroutine that it wakes
there is one coroutine too many, the *slack* of the place where the running coroutine is.

* `Channel.avail`   how many calls of a type could go on;
* `Linked`   queues against suspended calls, with one lemma for each kind of change;
* `Almost`, `Good`   the invariant, with and without a coroutine that still has to be woken.
-/

namespace OSW.Coroutine
open Function Machine List

variable {α : Type}

/-! ## queues, calls and the stack -/

/-- a `pop` or `push` suspended in the queue `t` of channel `ch` -/
def Wait.calls : Wait α → Opcode → Nat → Bool
  | .pop ch' _, .consumer, ch | .push ch' _ _, .producer, ch => ch' == ch
  | _, _, _ => false

/-- a `select` that is in the queue `t` of channel `ch` -/
def Wait.lists : Wait α → Opcode → Nat → Bool
  | .select pulls pushes _, t, ch => decide (ch ∈ Sched.listed pulls pushes t)
  | _, _, _ => false

/-- the call a coroutine has not left yet -/
def Code.wait : Code α → Option (Wait α)
  | .woken w _ => some w
  | _ => none

/-- places at which a coroutine is while another one runs on top of it -/
def Code.Resting : Code α → Prop
  | .user | .closing _ _ => True
  | _ => False

lemma Code.Resting.wait {code : Code α} (h : code.Resting) : code.wait = none := by
  cases code with
  | user | closing => rfl
  | woken | notify => exact h.elim

lemma Wait.calls_unique {w : Wait α} {t t' : Opcode} {ch ch' : Nat} (h : w.calls t ch = true)
    (h' : w.calls t' ch' = true ∨ w.lists t' ch' = true) : t' = t ∧ ch' = ch := by
  cases w with
  | pop c _ | push c v _ => cases t <;> cases t' <;> simp_all [Wait.calls, Wait.lists]
  | select | other => cases t <;> exact absurd h (by simp [Wait.calls])

/-- all queues of all channels -/
abbrev Queues := Nat → Opcode → List Nat

def Queues.set (Q : Queues) (ch : Nat) (t : Opcode) (q : List Nat) : Queues := fun ch' t' =>
  if ch' = ch ∧ t' = t then q else Q ch' t'

/-- a coroutine is suspended in a call of type `t` on channel `ch` -/
def calls (W : Nat → Option (Wait α)) (co : Nat) (t : Opcode) (ch : Nat) : Bool := (W co).any (·.calls t ch)

/-- Queues hold suspended coroutines only.  A suspended `pop` or `push` is in its queue once, and not any
more when it has been resumed. -/
structure Linked (Q : Queues) (W : Nat → Option (Wait α)) (K : List (Frame α)) : Prop where
  frames : ∀ f ∈ K.tail, f.code.Resting
  nodup : (K.map Frame.co).Nodup
  waiting : ∀ f ∈ K, W f.co = f.code.wait
  member : ∀ ch t co, co ∈ Q ch t → ∃ w, W co = some w ∧ (w.calls t ch = true ∨ w.lists t ch = true)
  counts : ∀ ch t co, calls W co t ch = true → (Q ch t).count co = if co ∈ K.map Frame.co then 0 else 1

section

variable {Q : Queues} {W : Nat → Option (Wait α)} {K : List (Frame α)} {co ch : Nat} {t : Opcode}
  {w : Wait α} {code code' : Code α}

lemma calls_of_some (h : W co = some w) (t : Opcode) (ch : Nat) : calls W co t ch = w.calls t ch := by
  unfold calls
  rw [h, Option.any_some]

variable {co' : Nat} {rest : List (Frame α)} {Q' : Queues}

lemma calls_update_of_ne (h : co' ≠ co) (x : Option (Wait α)) (t : Opcode) (ch : Nat) :
    calls (update W co x) co' t ch = calls W co' t ch := by
  unfold calls
  rw [update_of_ne h]

lemma calls_update_self (x : Option (Wait α)) (t : Opcode) (ch : Nat) :
    calls (update W co x) co t ch = x.any (·.calls t ch) := by
  unfold calls
  rw [update_self]

lemma Queues.set_self (Q : Queues) (ch : Nat) (t : Opcode) (q : List Nat) : Q.set ch t q ch t = q :=
  if_pos ⟨rfl, rfl⟩

lemma Queues.set_of_ne {ch' : Nat} {t' : Opcode} (h : ¬ (ch' = ch ∧ t' = t)) (q : List Nat) :
    Q.set ch t q ch' t' = Q ch' t' :=
  if_neg h

lemma Queues.set_subset {q : List Nat} (h : ∀ co ∈ q, co ∈ Q ch t) (ch' : Nat) (t' : Opcode) (co : Nat)
    (hm : co ∈ Q.set ch t q ch' t') : co ∈ Q ch' t' := by
  by_cases hct : ch' = ch ∧ t' = t
  · obtain ⟨rfl, rfl⟩ := hct
    rw [Queues.set_self] at hm
    exact h co hm
  · rwa [Queues.set_of_ne hct] at hm

lemma Queues.count_set {q : List Nat} (h : ∀ co' ≠ co, q.count co' = (Q ch t).count co') (ch' : Nat)
    (t' : Opcode) (co' : Nat) (hne : co' ≠ co) : (Q.set ch t q ch' t').count co' = (Q ch' t').count co' := by
  by_cases hct : ch' = ch ∧ t' = t
  · obtain ⟨rfl, rfl⟩ := hct
    rw [Queues.set_self, h co' hne]
  · rw [Queues.set_of_ne hct]

lemma Linked.not_mem (h : Linked Q W K) (hw : W co = none) (ch : Nat) (t : Opcode) : co ∉ Q ch t := by
  intro hm
  obtain ⟨w, hw', -⟩ := h.member ch t co hm
  rw [hw] at hw'
  cases hw'

lemma Linked.not_running (h : Linked Q W K) (hK : ∀ f ∈ K, f.code.Resting) (hw : W co = some w) :
    co ∉ K.map Frame.co := by
  intro hm
  obtain ⟨f, hf, rfl⟩ := mem_map.1 hm
  have := h.waiting f hf
  rw [(hK f hf).wait, hw] at this
  cases this

lemma Linked.move (h : Linked Q W (⟨co, code⟩ :: rest)) (hc : code'.wait = code.wait) :
    Linked Q W (⟨co, code'⟩ :: rest) := by
  obtain ⟨hfirst, hrest⟩ := forall_mem_cons.1 h.waiting
  exact { h with waiting := forall_mem_cons.2 ⟨hfirst.trans hc.symm, hrest⟩ }

lemma if_mem_of_ne (h : co' ≠ co) (a b : Nat) :
    (if co' ∈ (Frame.mk co code :: rest).map Frame.co then a else b) =
      if co' ∈ rest.map Frame.co then a else b :=
  if_congr (mem_cons.trans (or_iff_right h)) rfl rfl

lemma Linked.leave (h : Linked Q W (⟨co, code⟩ :: rest)) {x : Option (Wait α)}
    (hother : ∀ ch t co', co' ≠ co → (Q' ch t).count co' = (Q ch t).count co')
    (hmem : ∀ ch t, co ∈ Q' ch t → ∃ w, x = some w ∧ (w.calls t ch = true ∨ w.lists t ch = true))
    (hcount : ∀ ch t, x.any (·.calls t ch) = true → (Q' ch t).count co = 1) :
    Linked Q' (update W co x) rest := by
  have hnd := h.nodup
  rw [map_cons, nodup_cons] at hnd
  have hne : ∀ f ∈ rest, f.co ≠ co := fun f hf he => hnd.1 (mem_map.2 ⟨f, hf, he⟩)
  refine { frames := fun f hf => h.frames f (mem_of_mem_tail hf), nodup := hnd.2, waiting := ?_,
           member := ?_, counts := ?_ }
  · intro f hf
    rw [update_of_ne (hne f hf)]
    exact h.waiting f (mem_cons_of_mem _ hf)
  · intro ch t co' hm
    by_cases he : co' = co
    · subst he
      rw [update_self]
      exact hmem ch t hm
    · rw [update_of_ne he]
      refine h.member ch t co' ?_
      rw [← count_pos_iff, ← hother ch t co' he]
      exact count_pos_iff.2 hm
  · intro ch t co' hcalls
    by_cases he : co' = co
    · subst he
      rw [calls_update_self] at hcalls
      rw [if_neg hnd.1]
      exact hcount ch t hcalls
    · rw [calls_update_of_ne he] at hcalls
      rw [hother ch t co' he, h.counts ch t co' hcalls, if_mem_of_ne he]

lemma Linked.come (h : Linked Q W K) (code : Code α) (hK : ∀ f ∈ K, f.code.Resting)
    (hco : co ∉ K.map Frame.co) (hcode : W co = code.wait)
    (hother : ∀ ch t co', co' ≠ co → (Q' ch t).count co' = (Q ch t).count co')
    (hmem : ∀ ch t, co ∈ Q' ch t → co ∈ Q ch t)
    (hcount : ∀ ch t, calls W co t ch = true → (Q' ch t).count co = 0) :
    Linked Q' W (⟨co, code⟩ :: K) := by
  refine { frames := hK, nodup := ?_, waiting := ?_, member := ?_, counts := ?_ }
  · rw [map_cons, nodup_cons]
    exact ⟨hco, h.nodup⟩
  · exact forall_mem_cons.2 ⟨hcode, h.waiting⟩
  · intro ch t co' hm
    refine h.member ch t co' ?_
    by_cases he : co' = co
    · subst he
      exact hmem ch t hm
    · rw [← count_pos_iff, ← hother ch t co' he]
      exact count_pos_iff.2 hm
  · intro ch t co' hcalls
    by_cases he : co' = co
    · subst he
      rw [hcount ch t hcalls, if_pos (mem_map.2 ⟨_, mem_cons_self, rfl⟩)]
    · rw [hother ch t co' he, h.counts ch t co' hcalls, if_mem_of_ne he]

lemma Linked.awake (h : Linked Q W (⟨co, code⟩ :: rest)) (hcode : code'.wait = none)
    (hother : ∀ ch t co', co' ≠ co → (Q' ch t).count co' = (Q ch t).count co')
    (hmem : ∀ ch t, co ∉ Q' ch t) : Linked Q' (update W co none) (⟨co, code'⟩ :: rest) := by
  have hleft := h.leave (x := none) hother (fun ch t hm => absurd hm (hmem ch t)) nofun
  have hnd := h.nodup
  rw [map_cons, nodup_cons] at hnd
  refine hleft.come code' h.frames hnd.1 ?_ (fun _ _ _ _ => rfl) (fun _ _ hm => hm) ?_
  · rw [update_self, hcode]
  · intro ch t hcalls
    rw [calls_update_self] at hcalls
    cases hcalls

lemma Linked.yield (h : Linked Q W (⟨co, code⟩ :: rest)) (hcode : code.wait = none)
    (hw : w.calls t ch = true) :
    Linked (Q.set ch t (Q ch t ++ [co])) (update W co (some w)) rest := by
  have hidle : W co = none := (h.waiting _ mem_cons_self).trans hcode
  refine h.leave (Queues.count_set fun co' hne => ?_) ?_ ?_
  · rw [count_append, count_singleton, if_neg (by simpa using hne.symm)]
    rfl
  · intro ch' t' hm
    refine ⟨w, rfl, .inl ?_⟩
    by_cases hct : ch' = ch ∧ t' = t
    · obtain ⟨rfl, rfl⟩ := hct
      exact hw
    · rw [Queues.set_of_ne hct] at hm
      exact absurd hm (h.not_mem hidle ch' t')
  · intro ch' t' hcalls
    obtain ⟨rfl, rfl⟩ := Wait.calls_unique hw (.inl hcalls)
    rw [Queues.set_self, count_append, count_eq_zero.2 (h.not_mem hidle _ _), count_singleton_self]

section
variable (h : Linked Q W K) (err : Option Int) (hK : ∀ f ∈ K, f.code.Resting)
include h err hK

lemma Linked.resume {q : List Nat} (hQ : Q ch t = co :: q) :
    ∃ w, W co = some w ∧ (w.calls t ch = true ∨ w.lists t ch = true) ∧
      Linked (Q.set ch t q) W (⟨co, .woken w err⟩ :: K) := by
  obtain ⟨w, hw, hin⟩ := h.member ch t co (hQ ▸ mem_cons_self)
  have hco := h.not_running hK hw
  refine ⟨w, hw, hin, h.come (.woken w err) hK hco hw (Queues.count_set fun co' hne => ?_)
    (fun ch' t' => Queues.set_subset (fun co' hm => ?_) ch' t' co) ?_⟩
  · rw [hQ, count_cons_of_ne hne.symm]
  · rw [hQ]
    exact mem_cons_of_mem _ hm
  · intro ch' t' hcalls
    have hone := h.counts ch' t' co hcalls
    rw [calls_of_some hw] at hcalls
    obtain ⟨rfl, rfl⟩ := Wait.calls_unique hcalls hin
    rw [if_neg hco, hQ, count_cons_self] at hone
    rw [Queues.set_self]
    omega

lemma Linked.interrupt (hw : W co = some w) (hc : w.calls t ch = true) :
    Linked (Q.set ch t ((Q ch t).filter (· ≠ co))) W (⟨co, .woken w err⟩ :: K) := by
  refine h.come (.woken w err) hK (h.not_running hK hw) hw (Queues.count_set fun co' hne => ?_)
    (fun ch' t' => Queues.set_subset (fun _ hm => (mem_filter.1 hm).1) ch' t' co) ?_
  · rw [count_filter (by simpa using hne)]
  · intro ch' t' hcalls
    rw [calls_of_some hw] at hcalls
    obtain ⟨rfl, rfl⟩ := Wait.calls_unique hcalls (.inl hc)
    rw [Queues.set_self, count_eq_zero]
    exact fun hm => absurd (mem_filter.1 hm).2 (by simp)

end

lemma Linked.not_mem_of_woken {err : Option Int} (h : Linked Q W (⟨co, .woken w err⟩ :: rest))
    (hc : w.calls t ch = true) (ch' : Nat) (t' : Opcode) : co ∉ Q ch' t' := by
  intro hm
  have hw : W co = some w := h.waiting _ mem_cons_self
  obtain ⟨w', hw', hin⟩ := h.member ch' t' co hm
  obtain rfl : w' = w := Option.some.inj (hw'.symm.trans hw)
  obtain ⟨rfl, rfl⟩ := Wait.calls_unique hc hin
  have hzero := h.counts ch' t' co ((calls_of_some hw _ _).trans hc)
  rw [if_pos (mem_map.2 ⟨_, mem_cons_self, rfl⟩), count_eq_zero] at hzero
  exact hzero hm

end

/-! ## calls that could go on -/

/-- how many calls of a type could go on: values for `pop`, free places of an open channel for `push` -/
def Channel.avail (c : Channel α) : Opcode → Nat
  | .consumer => c.data.length
  | .producer => if c.closed then 0 else c.capacity - c.data.length

/-- what went in is what came out and what is in the queue, which is not longer than the capacity -/
structure Channel.Base (n : Nat) (c : Channel α) : Prop where
  size : c.capacity = n
  order : c.pushed = c.popped ++ c.data
  bound : c.data.length ≤ c.capacity
  front : c.underflow = false

def one (ch : Nat) (t : Opcode) : Nat → Opcode → Nat := fun ch' t' => if ch' = ch ∧ t' = t then 1 else 0

/-- where a coroutine is about to be woken, or has been woken and has not acted -/
def Code.slack : Code α → Nat → Opcode → Nat
  | .notify ch t => one ch t
  | .woken w none => fun ch t => if w.calls t ch then 1 else 0
  | _ => fun _ _ => 0

def Sched.queues (s : Sched α) : Queues := fun ch t => (s.chans ch).queue t

def Sched.top (s : Sched α) : Code α :=
  match s.stack with
  | [] => .user
  | f :: _ => f.code

/-- the invariant for a stack and a slack -/
structure Almost (N : Nat → Nat) (s : Sched α) (K : List (Frame α)) (slack : Nat → Opcode → Nat) : Prop where
  linked : Linked s.queues s.waits K
  base : ∀ ch, (s.chans ch).Base (N ch)
  settled : ∀ ch t, slack ch t < (s.chans ch).avail t →
    ∀ co ∈ (s.chans ch).queue t, calls s.waits co t ch = false
  closing : ∀ f ∈ K, ∀ ch t, f.code = .closing ch t → (s.chans ch).closed = true

/-- the invariant: a call that could go on does not wait, except for the slack; a woken call can go on or the
channel is closed -/
structure Good (N : Nat → Nat) (s : Sched α) : Prop where
  almost : Almost N s s.stack s.top.slack
  ready : ∀ ch t, 0 < s.top.slack ch t → (s.chans ch).avail t = 0 → (s.chans ch).closed = true

variable {N : Nat → Nat} {s : Sched α} {K rest : List (Frame α)} {slack : Nat → Opcode → Nat}
  {co ch : Nat} {t : Opcode} {w : Wait α} {code : Code α}

lemma Sched.top_eq (hs : s.stack = ⟨co, code⟩ :: rest) : s.top = code := by
  unfold Sched.top
  rw [hs]

lemma Code.Resting.slack_eq (h : code.Resting) (ch : Nat) (t : Opcode) : code.slack ch t = 0 := by
  cases code with
  | user => rfl
  | closing => rfl
  | woken => exact h.elim
  | notify => exact h.elim

lemma one_self (ch : Nat) (t : Opcode) : one ch t ch t = 1 := if_pos ⟨rfl, rfl⟩

variable {ch' n : Nat} {t' : Opcode} {c : Channel α} {q : List Nat}

lemma one_of_ne (h : ¬ (ch' = ch ∧ t' = t)) : one ch t ch' t' = 0 := if_neg h

lemma of_one_pos (h : 0 < one ch t ch' t') : ch' = ch ∧ t' = t := by
  by_contra hne
  rw [one_of_ne hne] at h
  exact lt_irrefl 0 h

lemma Almost.mono (h : Almost N s K slack) {slack' : Nat → Opcode → Nat}
    (hle : ∀ ch t, slack ch t ≤ slack' ch t) : Almost N s K slack' :=
  { h with settled := fun ch t hlt => h.settled ch t (lt_of_le_of_lt (hle ch t) hlt) }

lemma Almost.good_of_resting (h : Almost N s s.stack fun _ _ => 0)
    (hK : ∀ f ∈ s.stack, f.code.Resting) : Good N s := by
  have htop : ∀ ch t, s.top.slack ch t = 0 := by
    intro ch t
    unfold Sched.top
    cases hs : s.stack with
    | nil => rfl
    | cons f K => exact (hK f (hs ▸ mem_cons_self)).slack_eq ch t
  refine ⟨h.mono fun _ _ => Nat.zero_le _, fun ch t hpos => ?_⟩
  rw [htop] at hpos
  exact absurd hpos (lt_irrefl 0)

lemma Almost.settled_of_not_mem (h : Almost N s K slack) (x : Option (Wait α)) (hco : co ∉ s.queues ch t)
    (hlt : slack ch t < (s.chans ch).avail t) {co' : Nat} (hm : co' ∈ s.queues ch t) :
    calls (update s.waits co x) co' t ch = false := by
  rw [calls_update_of_ne (ne_of_mem_of_not_mem hm hco)]
  exact h.settled ch t hlt co' hm

lemma Almost.setStack (h : Almost N s K slack) (K' : List (Frame α)) : Almost N (s.setStack K') K slack :=
  { h with }

lemma chans_setStack (s : Sched α) (K : List (Frame α)) : (s.setStack K).chans = s.chans := rfl

lemma chans_setChan_self (s : Sched α) (ch : Nat) (c : Channel α) : (s.setChan ch c).chans ch = c :=
  update_self _ _ _

lemma chans_setChan_of_ne (h : ch' ≠ ch) (c : Channel α) : (s.setChan ch c).chans ch' = s.chans ch' :=
  update_of_ne h _ _

lemma queues_setChan_same (h : c.queue = (s.chans ch).queue) : (s.setChan ch c).queues = s.queues := by
  funext ch' t
  unfold Sched.queues
  by_cases hch : ch' = ch
  · subst hch
    rw [chans_setChan_self, h]
  · rw [chans_setChan_of_ne hch]

lemma queues_setQueue (s : Sched α) (ch : Nat) (t : Opcode) (q : List Nat) :
    (s.setChan ch ((s.chans ch).setQueue t q)).queues = s.queues.set ch t q := by
  funext ch' t'
  unfold Sched.queues Queues.set
  by_cases hch : ch' = ch
  · subst hch
    rw [chans_setChan_self]
    by_cases ht : t' = t
    · subst ht
      rw [if_pos ⟨rfl, rfl⟩]
      exact update_self _ _ _
    · rw [if_neg fun h => ht h.2]
      exact update_of_ne ht _ _
  · rw [chans_setChan_of_ne hch, if_neg fun h => hch h.1]

lemma Almost.setChan (h : Almost N s K slack) (slack' : Nat → Opcode → Nat) {K' : List (Frame α)}
    (hL : Linked (s.setChan ch c).queues s.waits K') (hb : c.Base (N ch))
    (hs : ∀ t, slack' ch t < c.avail t → ∀ co ∈ c.queue t, calls s.waits co t ch = false)
    (hle : ∀ ch' t, ch' ≠ ch → slack ch' t ≤ slack' ch' t)
    (hc : ∀ f ∈ K', ∀ ch' t, f.code = .closing ch' t → ((s.setChan ch c).chans ch').closed = true) :
    Almost N (s.setChan ch c) K' slack' := by
  refine { linked := hL, base := fun ch' => ?_, settled := fun ch' t => ?_, closing := hc }
  · by_cases hch : ch' = ch
    · subst hch
      rw [chans_setChan_self]
      exact hb
    · rw [chans_setChan_of_ne hch]
      exact h.base ch'
  · by_cases hch : ch' = ch
    · subst hch
      rw [chans_setChan_self]
      exact hs t
    · rw [chans_setChan_of_ne hch]
      exact fun hlt => h.settled ch' t (lt_of_le_of_lt (hle ch' t hch) hlt)

lemma Almost.closed_setChan (h : Almost N s K slack)
    (hc : (s.chans ch).closed = true → c.closed = true) {f : Frame α} (hf : f ∈ K) {t : Opcode}
    (hcode : f.code = .closing ch' t) : ((s.setChan ch c).chans ch').closed = true := by
  have hcl := h.closing f hf ch' t hcode
  by_cases hch : ch' = ch
  · subst hch
    rw [chans_setChan_self]
    exact hc hcl
  · rw [chans_setChan_of_ne hch]
    exact hcl

lemma Almost.setError (h : Almost N s K slack) (ch : Nat) (e : Int) : Almost N (s.setError ch e) K slack := by
  have hb := h.base ch
  refine h.setChan slack ?_ { hb with } (h.settled ch) (fun _ _ _ => le_rfl)
    fun f hf ch' t hc => h.closed_setChan id hf hc
  rw [queues_setChan_same (c := { s.chans ch with error := e }) rfl]
  exact h.linked

/-! ## `pop` and `push` -/

lemma Channel.Base.popFront (h : c.Base n) (hne : c.data ≠ []) :
    c.popFront.Base n ∧ c.popFront.queue = c.queue ∧ c.popFront.closed = c.closed ∧
      c.popFront.avail .consumer + 1 = c.avail .consumer ∧
      c.popFront.avail .producer = if c.closed then 0 else c.avail .producer + 1 := by
  obtain ⟨v, data, hd⟩ := exists_cons_of_ne_nil hne
  have hbound := h.bound
  unfold Channel.popFront Channel.avail
  rw [hd] at hbound ⊢
  rw [length_cons] at hbound
  refine ⟨⟨h.size, ?_, by dsimp only; omega, h.front⟩, rfl, rfl, rfl, ?_⟩
  · rw [h.order, hd, append_assoc]
    rfl
  · cases c.closed with
    | true => rfl
    | false =>
      show c.capacity - data.length = c.capacity - (data.length + 1) + 1
      omega

lemma Channel.Base.pushBack (h : c.Base n) (hpos : 0 < c.avail .producer) (v : α) :
    (c.pushBack v).Base n ∧ (c.pushBack v).queue = c.queue ∧ (c.pushBack v).closed = c.closed ∧
      (c.pushBack v).avail .consumer = c.avail .consumer + 1 ∧
      (c.pushBack v).avail .producer + 1 = c.avail .producer := by
  unfold Channel.pushBack
  unfold Channel.avail at hpos ⊢
  cases hcl : c.closed with
  | true =>
    rw [hcl] at hpos
    exact absurd hpos (lt_irrefl 0)
  | false =>
    rw [hcl] at hpos
    have hlt : 0 < c.capacity - c.data.length := hpos
    refine ⟨⟨h.size, ?_, ?_, h.front⟩, rfl, rfl, ?_, ?_⟩
    · rw [h.order, append_assoc]
    · rw [length_append, length_singleton]
      show c.data.length + 1 ≤ c.capacity
      omega
    · rw [length_append, length_singleton]
    · rw [length_append, length_singleton]
      show c.capacity - (c.data.length + 1) + 1 = c.capacity - c.data.length
      omega

section
variable (h : Almost N s (⟨co, code⟩ :: rest) slack) (hcode : code.wait = none)
include h hcode

/-- a call of type `t` has gone on, and one of type `t'` is to be woken -/
lemma Almost.transfer (hle : ∀ ch' t', slack ch' t' ≤ one ch t ch' t') (ht : t' ≠ t) (hb : c.Base (N ch))
    (hq : c.queue = (s.chans ch).queue) (hcl : c.closed = (s.chans ch).closed)
    (hused : c.avail t + 1 = (s.chans ch).avail t) (hfreed : c.avail t' ≤ (s.chans ch).avail t' + 1)
    (hready : c.avail t' = 0 → c.closed = true) :
    Good N ((s.setChan ch c).setStack (⟨co, .notify ch t'⟩ :: rest)) := by
  have hlinked : Linked (s.setChan ch c).queues s.waits (⟨co, .notify ch t'⟩ :: rest) := by
    rw [queues_setChan_same hq]
    exact h.linked.move hcode.symm
  refine ⟨(h.setChan (one ch t') hlinked hb ?_ (fun ch' u hch => ?_) ?_).setStack _, ?_⟩
  · intro u hlt
    rw [hq]
    refine h.settled ch u ?_
    have hsl := hle ch u
    by_cases hu : u = t'
    · subst hu
      rw [one_of_ne fun he => ht he.2] at hsl
      rw [one_self] at hlt
      omega
    · obtain rfl : u = t := by cases u <;> cases t <;> cases t' <;> simp_all
      rw [one_self] at hsl
      omega
  · refine le_trans (hle ch' u) ?_
    rw [one_of_ne fun he => hch he.1]
    exact Nat.zero_le _
  · exact forall_mem_cons.2
      ⟨nofun, fun f hf ch' t hc => h.closed_setChan (fun hx => hcl.trans hx) (mem_cons_of_mem _ hf) hc⟩
  · intro ch' u hpos hav
    obtain ⟨rfl, rfl⟩ := of_one_pos hpos
    rw [chans_setStack, chans_setChan_self] at hav ⊢
    exact hready hav

lemma Almost.popData (hle : ∀ ch' t, slack ch' t ≤ one ch .consumer ch' t) (hne : (s.chans ch).data ≠ []) :
    Good N (s.popData ch co rest) := by
  obtain ⟨hb, hq, hcl, hcons, hprod⟩ := (h.base ch).popFront hne
  refine h.transfer hcode hle (by decide) hb hq hcl hcons ?_ fun hav => ?_
  · rw [hprod]
    split <;> omega
  · rw [hcl]
    by_contra hopen
    rw [hprod, if_neg hopen] at hav
    omega

lemma Almost.pushData (hle : ∀ ch' t, slack ch' t ≤ one ch .producer ch' t)
    (hpos : 0 < (s.chans ch).avail .producer) (v : α) : Good N (s.pushData ch v co rest) := by
  obtain ⟨hb, hq, hcl, hcons, hprod⟩ := (h.base ch).pushBack hpos v
  refine h.transfer hcode hle (by decide) hb hq hcl hprod (le_of_eq hcons) fun hav => ?_
  rw [hcons] at hav
  cases hav

end

lemma same_setQueue (hb : (s.chans ch').Base n) (ch : Nat) :
    ((s.setChan ch ((s.chans ch).setQueue t q)).chans ch').avail = (s.chans ch').avail ∧
      ((s.setChan ch ((s.chans ch).setQueue t q)).chans ch').closed = (s.chans ch').closed ∧
      ((s.setChan ch ((s.chans ch).setQueue t q)).chans ch').Base n := by
  by_cases hch : ch' = ch
  · subst hch
    rw [chans_setChan_self]
    exact ⟨rfl, rfl, hb.size, hb.order, hb.bound, hb.front⟩
  · rw [chans_setChan_of_ne hch]
    exact ⟨rfl, rfl, hb⟩

lemma Almost.yield (h : Almost N s (⟨co, code⟩ :: rest) fun _ _ => 0) (hcode : code.wait = none)
    (hw : w.calls t ch = true) (hav : (s.chans ch).avail t = 0) : Good N (s.yield ch t co w rest) := by
  have hidle : s.waits co = none := (h.linked.waiting _ mem_cons_self).trans hcode
  have hQ : (s.yield ch t co w rest).queues = s.queues.set ch t (s.queues ch t ++ [co]) :=
    queues_setQueue s ch t _
  have hsame := fun ch' => same_setQueue (t := t) (q := (s.chans ch).queue t ++ [co]) (h.base ch') ch
  refine Almost.good_of_resting ⟨hQ ▸ h.linked.yield hcode hw, fun ch' => (hsame ch').2.2, ?_, ?_⟩
    h.linked.frames
  · intro ch' t' hlt co' hm
    have hlt' : 0 < (s.chans ch').avail t' := (hsame ch').1 ▸ hlt
    have hm' : co' ∈ (s.yield ch t co w rest).queues ch' t' := hm
    by_cases hct : ch' = ch ∧ t' = t
    · obtain ⟨rfl, rfl⟩ := hct
      omega
    · rw [hQ, Queues.set_of_ne hct] at hm'
      exact h.settled_of_not_mem (some w) (h.linked.not_mem hidle ch' t') hlt' hm'
  · intro f hf ch' t' hc
    refine (hsame ch').2.1.trans ?_
    exact h.closing f (mem_cons_of_mem _ hf) ch' t' hc

/-! ## resumed coroutines -/

lemma resume_stack (hw : s.waits co = some w) (err : Option Int) (K : List (Frame α)) :
    (s.resume co err K).stack = ⟨co, .woken w err⟩ :: K := by
  show Frame.mk co (.woken ((s.waits co).getD .other) err) :: K = _
  rw [hw]
  rfl

lemma Almost.resumed {s' : Sched α} (h : Almost N s K slack) (err : Option Int)
    (hlinked : Linked s'.queues s.waits (⟨co, .woken w err⟩ :: K)) (hW : s'.waits = s.waits)
    (hS : s'.stack = ⟨co, .woken w err⟩ :: K)
    (hsame : ∀ ch, (s'.chans ch).avail = (s.chans ch).avail ∧
      (s'.chans ch).closed = (s.chans ch).closed ∧ (s'.chans ch).Base (N ch))
    (hQ : ∀ ch t co', co' ∈ (s'.chans ch).queue t → co' ∈ (s.chans ch).queue t)
    (hsettled : ∀ ch t, (Code.woken w err).slack ch t < slack ch t → 0 < (s.chans ch).avail t →
      ∀ co' ∈ (s'.chans ch).queue t, calls s.waits co' t ch = false)
    (hready : ∀ ch t, 0 < (Code.woken w err).slack ch t → (s.chans ch).avail t = 0 →
      (s.chans ch).closed = true) : Good N s' := by
  have htop := Sched.top_eq hS
  refine ⟨⟨?_, fun ch => (hsame ch).2.2, ?_, ?_⟩, ?_⟩
  · rw [hS, hW]
    exact hlinked
  · intro ch t hlt co' hm
    rw [htop, (hsame ch).1] at hlt
    rw [hW]
    by_cases hle : slack ch t ≤ (Code.woken w err).slack ch t
    · exact h.settled ch t (Nat.lt_of_le_of_lt hle hlt) co' (hQ ch t co' hm)
    · exact hsettled ch t (Nat.lt_of_not_le hle) (Nat.lt_of_le_of_lt (Nat.zero_le _) hlt) co' hm
  · intro f hf ch t hc
    rw [(hsame ch).2.1]
    rw [hS] at hf
    rcases mem_cons.1 hf with rfl | hf
    · cases hc
    · exact h.closing f hf ch t hc
  · intro ch t hpos hav
    rw [htop] at hpos
    rw [(hsame ch).1] at hav
    rw [(hsame ch).2.1]
    exact hready ch t hpos hav

lemma Almost.notify (h : Almost N s K slack) (hK : ∀ f ∈ K, f.code.Resting)
    (hq : (s.chans ch).queue t = co :: q) (hslack : ∀ ch' t', slack ch' t' ≤ one ch t ch' t')
    (hready : (s.chans ch).avail t = 0 → (s.chans ch).closed = true)
    (hallow : 0 < slack ch t → 0 < (s.chans ch).avail t → calls s.waits co t ch = true ∨
      ∀ co' ∈ (s.chans ch).queue t, calls s.waits co' t ch = false) :
    Good N ((s.setChan ch ((s.chans ch).setQueue t q)).resume co none K) := by
  obtain ⟨w, hw, hin, hL⟩ := h.linked.resume none hK hq
  have hQ : (s.setChan ch ((s.chans ch).setQueue t q)).queues = s.queues.set ch t q :=
    queues_setQueue s ch t q
  have hsub : ∀ ch' t' co', co' ∈ (s.setChan ch ((s.chans ch).setQueue t q)).queues ch' t' →
      co' ∈ s.queues ch' t' := by
    rw [hQ]
    refine Queues.set_subset fun co' hm => ?_
    rw [show s.queues ch t = co :: q from hq]
    exact mem_cons_of_mem _ hm
  refine h.resumed (w := w) none (by rw [← hQ] at hL; exact hL) rfl (resume_stack hw none K)
    (fun ch' => same_setQueue (h.base ch') ch) hsub ?_ ?_
  · intro ch' t' hlt hav co' hm
    have hpos := lt_of_lt_of_le (lt_of_le_of_lt (Nat.zero_le _) hlt) (hslack ch' t')
    obtain ⟨rfl, rfl⟩ := of_one_pos hpos
    rcases hallow (lt_of_le_of_lt (Nat.zero_le _) hlt) hav with hc | hc
    · have hle := hslack ch' t'
      have hone : (Code.woken w none).slack ch' t' = 1 := if_pos ((calls_of_some hw t' ch').symm.trans hc)
      rw [one_self] at hle
      omega
    · exact hc co' (hsub ch' t' co' hm)
  · intro ch' t' hpos
    have hc : w.calls t' ch' = true := by
      by_contra hc
      have hzero : (Code.woken w none).slack ch' t' = 0 := if_neg hc
      omega
    obtain ⟨rfl, rfl⟩ := Wait.calls_unique hc hin
    exact hready

lemma Almost.resume_other (h : Almost N s K fun _ _ => 0) (err : Option Int)
    (hK : ∀ f ∈ K, f.code.Resting) (hw : s.waits co = some w) (hc : ∀ ch t, w.calls t ch = false) :
    Good N (s.resume co err K) := by
  have hslack : ∀ ch t, (Code.woken w err).slack ch t = 0 := by
    intro ch t
    cases err with
    | none => exact if_neg (by rw [hc]; decide)
    | some e => rfl
  have hL := h.linked.come (.woken w err) hK (h.linked.not_running hK hw) hw
    (fun _ _ _ _ => rfl) (fun _ _ hm => hm) fun ch t hcalls => by
      rw [calls_of_some hw, hc] at hcalls
      cases hcalls
  refine h.resumed err hL rfl (resume_stack hw err K) (fun ch => ⟨rfl, rfl, h.base ch⟩)
    (fun _ _ _ hm => hm) ?_ ?_
  · intro ch t hlt
    exact absurd hlt (Nat.not_lt_zero _)
  · intro ch t hpos
    rw [hslack] at hpos
    exact absurd hpos (Nat.lt_irrefl 0)

lemma Almost.interrupted (h : Almost N s K fun _ _ => 0) (hK : ∀ f ∈ K, f.code.Resting)
    (hw : s.waits co = some w) (hc : w.calls t ch = true) (e : Int) :
    Good N ((s.setChan ch ((s.chans ch).remove t co)).resume co (some e) K) := by
  have hL := h.linked.interrupt (some e) hK hw hc
  have hQ : (s.setChan ch ((s.chans ch).remove t co)).queues =
      s.queues.set ch t ((s.queues ch t).filter (· ≠ co)) := queues_setQueue s ch t _
  refine h.resumed (w := w) (some e) (by rw [← hQ] at hL; exact hL) rfl (resume_stack hw (some e) K)
    (fun ch' => same_setQueue (h.base ch') ch) ?_ (fun _ _ hlt => absurd hlt (Nat.not_lt_zero _))
    (fun _ _ hpos => absurd hpos (Nat.lt_irrefl 0))
  intro ch' t' co' hm
  have hm' : co' ∈ (s.setChan ch ((s.chans ch).remove t co)).queues ch' t' := hm
  rw [hQ] at hm'
  exact Queues.set_subset (fun _ hm => (mem_filter.1 hm).1) ch' t' co' hm'

end OSW.Coroutine
