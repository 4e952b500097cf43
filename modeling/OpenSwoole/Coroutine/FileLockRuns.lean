import OpenSwoole.Coroutine.FileLock
import OpenSwoole.Lib.PartialMap

/-!
# Runs of the file lock manager

A coroutine has a claim to the lock when it holds it, while its `flock` for it is under way, and while it
releases the lock to a coroutine it has taken from the queue.
-/

set_option linter.unusedSectionVars false

namespace OSW.Coroutine
open Function PartialMap List Option Machine

/-! ## flags and claims -/

section
variable {κ : Type}

/-- the manager's flags and queue against the claims -/
structure LockManager.Agrees (lm : LockManager κ) (claim : κ → Option LockMode) : Prop where
  flag : ∀ mode, lm.flag mode = true ↔ ∃ c, claim c = some mode
  alone : ∀ c c' mode, claim c = some .ex → claim c' = some mode → c' = c
  waits : lm.queue ≠ [] → ∃ c mode, claim c = some mode

namespace LockManager
variable {lm : LockManager κ} {claim : κ → Option LockMode}

lemma flag_setFlag_self (lm : LockManager κ) (mode : LockMode) (b : Bool) :
    (lm.setFlag mode b).flag mode = b := by
  cases mode <;> rfl

variable {mode : LockMode} {co : κ}

lemma flag_setFlag_of_ne {mode' : LockMode} (h : mode' ≠ mode) (b : Bool) :
    (lm.setFlag mode b).flag mode' = lm.flag mode' := by
  cases mode <;> cases mode' <;> first | rfl | exact absurd rfl h

lemma queue_setFlag (lm : LockManager κ) (mode : LockMode) (b : Bool) :
    (lm.setFlag mode b).queue = lm.queue := by
  cases mode <;> rfl

lemma agrees_empty (h : ∀ c, claim c = none) : Agrees ({} : LockManager κ) claim where
  flag := by
    intro mode
    refine ⟨fun hf => ?_, fun ⟨c, hc⟩ => absurd (hc.symm.trans (h c)) (some_ne_none _)⟩
    cases mode <;> cases hf
  alone := fun c _ _ hc => by cases hc.symm.trans (h c)
  waits := fun hq => absurd rfl hq

lemma Agrees.claim_of_busy (h : lm.Agrees claim) (hb : lm.busy mode = true) :
    ∃ c mode, claim c = some mode := by
  have hflag : lm.flag .ex = true ∨ lm.flag .sh = true := by
    cases mode with
    | ex => exact (Bool.or_eq_true _ _).mp hb
    | sh => exact .inl hb
  rcases hflag with hf | hf
  · obtain ⟨c, hc⟩ := (h.flag .ex).1 hf
    exact ⟨c, .ex, hc⟩
  · obtain ⟨c, hc⟩ := (h.flag .sh).1 hf
    exact ⟨c, .sh, hc⟩

lemma Agrees.setQueue (h : lm.Agrees claim) (hco : claim co = some mode) (queue : List κ) :
    Agrees { lm with queue := queue } claim where
  flag := by
    intro mode
    cases mode with
    | ex => exact h.flag .ex
    | sh => exact h.flag .sh
  alone := h.alone
  waits := fun _ => ⟨co, mode, hco⟩

variable [DecidableEq κ]

lemma Agrees.grant (h : lm.Agrees claim) (hb : lm.busy mode = false) (hco : claim co = none) :
    Agrees (lm.setFlag mode true) (update claim co (some mode)) := by
  have hex : ∀ c, claim c ≠ some .ex := by
    intro c hc
    have hf := (h.flag .ex).2 ⟨c, hc⟩
    cases mode with
    | ex => exact Bool.false_ne_true (((Bool.or_eq_false_iff).1 hb).1 ▸ hf)
    | sh => exact Bool.false_ne_true (hb ▸ hf)
  have hsh : mode = .ex → ∀ c, claim c ≠ some .sh := by
    rintro rfl c hc
    have hf := (h.flag .sh).2 ⟨c, hc⟩
    exact Bool.false_ne_true (((Bool.or_eq_false_iff).1 hb).2 ▸ hf)
  refine ⟨?_, ?_, fun _ => ⟨co, mode, update_self _ _ _⟩⟩
  · intro mode'
    by_cases hm : mode' = mode
    · rw [hm, flag_setFlag_self]
      exact ⟨fun _ => ⟨co, update_self _ _ _⟩, fun _ => rfl⟩
    · rw [flag_setFlag_of_ne hm, h.flag mode']
      refine ⟨fun ⟨c, hc⟩ => ⟨c, ?_⟩, fun ⟨c, hc⟩ => ⟨c, ?_⟩⟩
      · rw [update_of_ne (ne_of_some_of_none hc hco)]
        exact hc
      · exact of_update_some hc (Ne.symm hm)
  · intro c c' mode' hc hc'
    rcases update_some_eq_some.1 hc with ⟨hcc, hm⟩ | ⟨-, hc⟩
    · rcases update_some_eq_some.1 hc' with ⟨hcc', -⟩ | ⟨-, hc'⟩
      · rw [hcc, hcc']
      · cases mode' with
        | ex => exact absurd hc' (hex c')
        | sh => exact absurd hc' (hsh hm c')
    · exact absurd hc (hex c)

lemma Agrees.giveUp (h : lm.Agrees claim) (hco : claim co = some mode)
    (honly : ∀ c, claim c = some mode → c = co) (hq : lm.queue = []) :
    Agrees (lm.setFlag mode false) (update claim co none) := by
  refine ⟨?_, ?_, ?_⟩
  · intro mode'
    by_cases hm : mode' = mode
    · rw [hm, flag_setFlag_self]
      refine ⟨nofun, fun ⟨c, hc⟩ => ?_⟩
      obtain ⟨hcc, hc⟩ := update_none_eq_some.1 hc
      exact absurd (honly c hc) hcc
    · rw [flag_setFlag_of_ne hm, h.flag mode']
      have hne : ∀ {c}, claim c = some mode' → c ≠ co :=
        fun hc he => hm (some.inj (hc.symm.trans (he ▸ hco)))
      exact ⟨fun ⟨c, hc⟩ => ⟨c, update_none_eq_some.2 ⟨hne hc, hc⟩⟩,
        fun ⟨c, hc⟩ => ⟨c, (update_none_eq_some.1 hc).2⟩⟩
  · intro c c' mode' hc hc'
    exact h.alone c c' mode' (update_none_eq_some.1 hc).2 (update_none_eq_some.1 hc').2
  · intro hne
    rw [queue_setFlag] at hne
    exact absurd hq hne

lemma Agrees.handOver (h : lm.Agrees claim) {next : κ} (hco : claim co = some .ex) :
    Agrees (lm.setFlag .ex true) (update (update claim co none) next (some .ex)) := by
  have hflag : lm.lockEx = true := (h.flag .ex).2 ⟨co, hco⟩
  have hsame : lm.setFlag .ex true = lm := by
    show { lm with lockEx := true } = lm
    rw [← hflag]
  have hclaim : ∀ c mode, update (update claim co none) next (some .ex) c = some mode ↔
      c = next ∧ mode = .ex := by
    intro c mode
    rw [update_some_eq_some, update_none_eq_some]
    constructor
    · rintro (⟨hn, he⟩ | ⟨-, hc, he⟩)
      · exact ⟨hn, he.symm⟩
      · exact absurd (h.alone co c mode hco he) hc
    · exact fun ⟨hn, he⟩ => .inl ⟨hn, he.symm⟩
  rw [hsame]
  refine ⟨?_, ?_, fun _ => ⟨next, .ex, update_self _ _ _⟩⟩
  · intro mode
    cases mode with
    | ex => exact ⟨fun _ => ⟨next, update_self _ _ _⟩, fun _ => hflag⟩
    | sh =>
      refine ⟨fun hf => ?_, fun ⟨c, hc⟩ => LockMode.noConfusion ((hclaim c .sh).1 hc).2⟩
      obtain ⟨c, hc⟩ := (h.flag .sh).1 hf
      have hcc := h.alone co c .sh hco hc
      rw [hcc, hco] at hc
      cases hc
  · intro c c' mode hc hc'
    rw [((hclaim c _).1 hc).1, ((hclaim c' _).1 hc').1]

end LockManager

end

/-! ## queue and calls -/

section
variable {κ : Type}

/-- the calls that are under way while the manager has the number `n` and the queue `q` -/
structure Links (n : Nat) (q : List κ) (calls : κ → Option (FlockCall κ)) (held : κ → Option LockMode) :
    Prop where
  nodup : q.Nodup
  queued : ∀ c ∈ q, ∃ mode, calls c = some (.waiting n mode)
  waiting : ∀ c k mode, calls c = some (.waiting k mode) → k = n ∧ held c = none ∧
    (c ∈ q ∨ ∃ r, calls r = some (.unlocking (some c)))
  locking : ∀ c k mode, calls c = some (.locking k mode) → k = n ∧ held c = none
  next : ∀ r c, calls r = some (.unlocking (some c)) → calls c = some (.waiting n .ex) ∧ c ∉ q

variable [DecidableEq κ] {n : Nat} {q : List κ} {calls : κ → Option (FlockCall κ)}
  {held : κ → Option LockMode} {co : κ}

/-- a call that the others do not count on -/
def Loose : Option (FlockCall κ) → Prop
  | some (.waiting _ _) | some (.unlocking (some _)) => False
  | _ => True

lemma Links.set (h : Links n q calls held) {old : Option (FlockCall κ)} (hco : calls co = old) (hold : Loose old)
    (mode : Option LockMode) {call : Option (FlockCall κ)}
    (hcall : call = none ∨ ∃ m, call = some (.locking n m) ∧ mode = none) :
    Links n q (update calls co call) (update held co mode) := by
  have hne : ∀ {c x}, calls c = some x → ¬ Loose (some x) → c ≠ co := by
    rintro c x hc hx rfl
    exact hx (hc.symm.trans hco ▸ hold)
  have hnew : ∀ {x}, call = some x → ∃ m, x = .locking n m ∧ mode = none := by
    intro x hx
    rcases hcall with rfl | ⟨m, rfl, hm⟩
    · cases hx
    · exact ⟨m, (some.inj hx).symm, hm⟩
  refine ⟨h.nodup, ?_, ?_, ?_, ?_⟩
  · intro c hc
    obtain ⟨m, hm⟩ := h.queued c hc
    rw [update_of_ne (hne hm id)]
    exact ⟨m, hm⟩
  · intro c k m hc
    by_cases hcc : c = co
    · rw [hcc, update_self] at hc
      obtain ⟨m', he, -⟩ := hnew hc
      cases he
    · rw [update_of_ne hcc] at hc ⊢
      obtain ⟨hk, hheld, hwhere⟩ := h.waiting c k m hc
      refine ⟨hk, hheld, hwhere.imp_right fun ⟨r, hr⟩ => ⟨r, ?_⟩⟩
      rw [update_of_ne (hne hr id)]
      exact hr
  · intro c k m hc
    by_cases hcc : c = co
    · rw [hcc, update_self] at hc ⊢
      obtain ⟨m', he, hm⟩ := hnew hc
      exact ⟨(FlockCall.locking.inj he).1, hm⟩
    · rw [update_of_ne hcc] at hc ⊢
      exact h.locking c k m hc
  · intro r c hrc
    by_cases hrr : r = co
    · rw [hrr, update_self] at hrc
      obtain ⟨m', he, -⟩ := hnew hrc
      cases he
    · rw [update_of_ne hrr] at hrc
      obtain ⟨hc, hm⟩ := h.next r c hrc
      rw [update_of_ne (hne hc id)]
      exact ⟨hc, hm⟩

lemma Links.enqueue (h : Links n q calls held) (hco : calls co = none) (hheld : held co = none)
    (mode : LockMode) : Links n (q ++ [co]) (update calls co (some (.waiting n mode))) held := by
  have hne : ∀ {c x}, calls c = some x → c ≠ co := fun hc => ne_of_some_of_none hc hco
  refine ⟨?_, ?_, ?_, ?_, ?_⟩
  · refine nodup_append.2 ⟨h.nodup, nodup_singleton _, ?_⟩
    rintro a ha b hb rfl
    obtain ⟨m, hm⟩ := h.queued a ha
    exact hne hm (mem_singleton.1 hb)
  · intro c hc
    by_cases hcc : c = co
    · rw [hcc, update_self]
      exact ⟨mode, rfl⟩
    · rw [update_of_ne hcc]
      exact h.queued c ((mem_append.1 hc).resolve_right fun hc => hcc (mem_singleton.1 hc))
  · intro c k m hc
    rcases update_some_eq_some.1 hc with ⟨hcc, he⟩ | ⟨-, hc⟩
    · refine ⟨(FlockCall.waiting.inj he).1.symm, hcc ▸ hheld, .inl ?_⟩
      exact mem_append_right _ (mem_singleton.2 hcc)
    · obtain ⟨hk, hheld, hm | ⟨r, hr⟩⟩ := h.waiting c k m hc
      · exact ⟨hk, hheld, .inl (mem_append_left _ hm)⟩
      · exact ⟨hk, hheld, .inr ⟨r, by rw [update_of_ne (hne hr)]; exact hr⟩⟩
  · exact fun c k m hc => h.locking c k m (of_update_some hc nofun)
  · intro r c hrc
    obtain ⟨hc, hm⟩ := h.next r c (of_update_some hrc nofun)
    rw [update_of_ne (hne hc)]
    refine ⟨hc, fun hmem => ?_⟩
    rcases mem_append.1 hmem with hmem | hmem
    · exact hm hmem
    · exact hne hc (mem_singleton.1 hmem)

variable {w : κ}

lemma Links.dequeue (h : Links n (w :: q) calls held) (hco : calls co = none)
    (hw : calls w = some (.waiting n .ex)) :
    Links n q (update calls co (some (.unlocking (some w)))) held := by
  obtain ⟨hwq, hnodup⟩ := nodup_cons.1 h.nodup
  have hne : ∀ {c x}, calls c = some x → c ≠ co := fun hc => ne_of_some_of_none hc hco
  refine ⟨hnodup, ?_, ?_, ?_, ?_⟩
  · intro c hc
    obtain ⟨m, hm⟩ := h.queued c (mem_cons_of_mem _ hc)
    rw [update_of_ne (hne hm)]
    exact ⟨m, hm⟩
  · intro c k m hc
    obtain ⟨hk, hheld, hmem | ⟨r, hr⟩⟩ := h.waiting c k m (of_update_some hc nofun)
    · rcases mem_cons.1 hmem with rfl | hmem
      · exact ⟨hk, hheld, .inr ⟨co, update_self _ _ _⟩⟩
      · exact ⟨hk, hheld, .inl hmem⟩
    · exact ⟨hk, hheld, .inr ⟨r, by rw [update_of_ne (hne hr)]; exact hr⟩⟩
  · exact fun c k m hc => h.locking c k m (of_update_some hc nofun)
  · intro r c hrc
    rcases update_some_eq_some.1 hrc with ⟨-, he⟩ | ⟨-, hrc⟩
    · obtain rfl := some.inj (FlockCall.unlocking.inj he)
      rw [update_of_ne (hne hw)]
      exact ⟨hw, hwq⟩
    · obtain ⟨hc, hm⟩ := h.next r c hrc
      rw [update_of_ne (hne hc)]
      exact ⟨hc, fun hmem => hm (mem_cons_of_mem _ hmem)⟩

lemma Links.handOver (h : Links n q calls held) (hco : calls co = some (.unlocking (some w)))
    (honly : ∀ r c, calls r = some (.unlocking (some c)) → r = co) :
    Links n q (update (update calls co none) w (some (.locking n .ex))) (update held co none) := by
  obtain ⟨hw, hwq⟩ := h.next co w hco
  have hwco : w ≠ co := by
    rintro rfl
    cases hw.symm.trans hco
  have hcall : ∀ {c}, c ≠ w → c ≠ co →
      update (update calls co none) w (some (.locking n .ex)) c = calls c := by
    intro c h1 h2
    rw [update_of_ne h1, update_of_ne h2]
  have hcases : ∀ {c x}, update (update calls co none) w (some (.locking n .ex)) c = some x →
      (c = w ∧ x = .locking n .ex) ∨ (c ≠ w ∧ c ≠ co ∧ calls c = some x) := by
    intro c x hc
    rw [update_some_eq_some, update_none_eq_some] at hc
    exact hc.imp_left fun ⟨h1, he⟩ => ⟨h1, he.symm⟩
  refine ⟨h.nodup, ?_, ?_, ?_, ?_⟩
  · intro c hc
    obtain ⟨m, hm⟩ := h.queued c hc
    refine ⟨m, ?_⟩
    rw [hcall (fun he => hwq (he ▸ hc)) (fun he => by cases (he ▸ hm).symm.trans hco)]
    exact hm
  · intro c k m hc
    rcases hcases hc with ⟨-, he⟩ | ⟨h1, h2, hc⟩
    · cases he
    · obtain ⟨hk, hheld, hmem | ⟨r, hr⟩⟩ := h.waiting c k m hc
      · rw [update_of_ne h2]
        exact ⟨hk, hheld, .inl hmem⟩
      · obtain rfl := honly r c hr
        rw [hco] at hr
        exact absurd (some.inj (FlockCall.unlocking.inj (some.inj hr))).symm h1
  · intro c k m hc
    rcases hcases hc with ⟨rfl, he⟩ | ⟨h1, h2, hc⟩
    · obtain ⟨rfl, rfl⟩ := FlockCall.locking.inj he
      rw [update_of_ne hwco]
      exact ⟨rfl, (h.waiting c k .ex hw).2.1⟩
    · rw [update_of_ne h2]
      exact h.locking c k m hc
  · intro r c hrc
    rcases hcases hrc with ⟨-, he⟩ | ⟨h1, h2, hr⟩
    · cases he
    · exact absurd (honly r c hr) h2

end

/-! ## the invariant -/

def FlockCall.isWaiting {κ : Type} : FlockCall κ → Bool
  | .waiting _ _ => true
  | _ => false

def FlockCall.waitsEx {κ : Type} : FlockCall κ → Bool
  | .waiting _ .ex => true
  | _ => false

namespace FileLock
variable {κ : Type}

def claimOf (call : Option (FlockCall κ)) (held : Option LockMode) : Option LockMode :=
  match call with
  | none => held
  | some (.waiting _ _) => none
  | some (.locking _ mode) => some mode
  | some (.unlocking none) => none
  | some (.unlocking (some _)) => some .ex

def claim (s : FileLock κ) (c : κ) : Option LockMode := claimOf (s.calls c) (s.held c)

structure Inv (s : FileLock κ) : Prop where
  tame : s.wild = false
  free : s.pool = none → ∀ c, s.claim c = none ∧ (s.calls c = none ∨ s.calls c = some (.unlocking none))
  managed : ∀ n lm, s.pool = some (n, lm) → lm.Agrees s.claim ∧ Links n lm.queue s.calls s.held

lemma Inv.of_managed {s : FileLock κ} {n : Nat} {lm : LockManager κ} (hw : s.wild = false)
    (hp : s.pool = some (n, lm)) (ha : lm.Agrees s.claim) (hl : Links n lm.queue s.calls s.held) :
    s.Inv := by
  refine ⟨hw, fun he => absurd (hp.symm.trans he) (some_ne_none _), ?_⟩
  intro n' lm' hp'
  obtain ⟨rfl, rfl⟩ := Prod.mk.inj (some.inj (hp.symm.trans hp'))
  exact ⟨ha, hl⟩

variable [DecidableEq κ] {s : FileLock κ} {co : κ} {n : Nat} {lm : LockManager κ}

lemma claim_of_calls {call : Option (FlockCall κ)} (h : s.calls co = call) :
    s.claim co = claimOf call (s.held co) :=
  congrArg (fun call => claimOf call (s.held co)) h

lemma claim_congr {s' : FileLock κ} (hcalls : s'.calls = s.calls) (hheld : s'.held = s.held) :
    s'.claim = s.claim := by
  unfold claim
  rw [hcalls, hheld]

lemma claim_update (calls : κ → Option (FlockCall κ)) (held : κ → Option LockMode) (co : κ)
    (call : Option (FlockCall κ)) (mode : Option LockMode) :
    (fun c => claimOf (update calls co call c) (update held co mode c)) =
      update (fun c => claimOf (calls c) (held c)) co (claimOf call mode) := by
  funext c
  by_cases hc : c = co
  · rw [hc, update_self, update_self, update_self]
  · rw [update_of_ne hc, update_of_ne hc, update_of_ne hc]

lemma claim_setCall (s : FileLock κ) (co : κ) (call : Option (FlockCall κ)) :
    (s.setCall co call).claim = update s.claim co (claimOf call (s.held co)) := by
  have := claim_update s.calls s.held co call (s.held co)
  rwa [update_eq_self] at this

lemma Inv.getManager (h : s.Inv) : ∃ n lm s', s.getManager = ((n, lm), s') ∧ s'.wild = false ∧
    s'.pool = some (n, lm) ∧ s'.calls = s.calls ∧ s'.held = s.held ∧ lm.Agrees s.claim ∧
    Links n lm.queue s.calls s.held := by
  unfold FileLock.getManager
  cases hp : s.pool with
  | some p => exact ⟨p.1, p.2, s, rfl, h.tame, hp, rfl, rfl, h.managed p.1 p.2 hp⟩
  | none =>
    have hfree := h.free hp
    refine ⟨s.made, {}, _, rfl, h.tame, rfl, rfl, rfl, LockManager.agrees_empty fun c => (hfree c).1, ?_⟩
    have hno : ∀ c x, s.calls c = some x → x = .unlocking none := by
      intro c x hc
      rcases (hfree c).2 with he | he
      · cases hc.symm.trans he
      · exact some.inj (hc.symm.trans he)
    refine ⟨nodup_nil, nofun, ?_, ?_, ?_⟩
    · intro c k m hc
      cases hno c _ hc
    · intro c k m hc
      cases hno c _ hc
    · intro r c hr
      cases hno r _ hr

lemma setFlag_eq (hp : s.pool = some (n, lm)) (mode : LockMode) (b : Bool) :
    s.setFlag n mode b = { s with pool := some (n, lm.setFlag mode b) } := by
  unfold FileLock.setFlag
  rw [hp]
  exact if_pos rfl

section
variable (h : s.Inv) (hco : s.calls co = none) (hheld : s.held co = none) (mode)
include h hco hheld

lemma Inv.lock : (s.lock co mode).Inv := by
  obtain ⟨n, lm, s', he, hw, hp, hcalls, hheld', ha, hl⟩ := h.getManager
  have hclaim : s.claim co = none := (claim_of_calls hco).trans hheld
  have hc' : s'.claim = s.claim := claim_congr hcalls hheld'
  unfold FileLock.lock
  rw [he]
  dsimp only
  by_cases hb : lm.busy mode = true
  · rw [if_pos hb]
    obtain ⟨c₀, m₀, hc₀⟩ := ha.claim_of_busy hb
    refine .of_managed hw rfl ?_ ?_
    · rw [claim_setCall]
      show LockManager.Agrees _ (update s'.claim co none)
      rw [hc', update_eq_self_iff.2 hclaim.symm]
      exact ha.setQueue hc₀ _
    · rw [hcalls, hheld']
      exact hl.enqueue hco hheld mode
  · rw [if_neg hb]
    unfold startLock
    rw [setFlag_eq hp]
    refine .of_managed hw rfl ?_ ?_
    · rw [claim_setCall]
      show LockManager.Agrees _ (update s'.claim co (some mode))
      rw [hc']
      exact ha.grant (Bool.of_not_eq_true hb) hclaim
    · have hsame : update s.held co none = s.held := update_eq_self_iff.2 hheld.symm
      have hset := hl.set hco trivial none (.inr ⟨mode, rfl, rfl⟩)
      rw [hsame] at hset
      rw [LockManager.queue_setFlag, hcalls, hheld']
      exact hset

lemma Inv.lockNb (ok : Bool) : (s.lockNb co mode ok).Inv := by
  obtain ⟨n, lm, s', he, hw, hp, hcalls, hheld', ha, hl⟩ := h.getManager
  have hclaim : s.claim co = none := (claim_of_calls hco).trans hheld
  have hc' : s'.claim = s.claim := claim_congr hcalls hheld'
  have hs' : s'.Inv := .of_managed hw hp (hc' ▸ ha) (by rw [hcalls, hheld']; exact hl)
  unfold FileLock.lockNb
  rw [he]
  dsimp only
  by_cases hb : lm.busy mode = true
  · rw [if_pos hb]
    exact hs'
  · rw [if_neg hb]
    cases ok with
    | false => exact hs'
    | true =>
      have hsame : update s.calls co none = s.calls := update_eq_self_iff.2 hco.symm
      have hset := hl.set hco trivial (some mode) (.inl rfl)
      have hupd := claim_update s.calls s.held co none (some mode)
      rw [hsame] at hset hupd
      refine .of_managed hw rfl ?_ ?_
      · show LockManager.Agrees _ (fun c => claimOf (s'.calls c) (update s'.held co (some mode) c))
        rw [hcalls, hheld', hupd]
        exact ha.grant (Bool.of_not_eq_true hb) hclaim
      · rw [LockManager.queue_setFlag, hcalls, hheld']
        exact hset

end

/-- nobody else holds the lock or is in `flock`, and the coroutine that waits first wants an exclusive lock, as
the one has that releases it -/
def Releases (s : FileLock κ) (co : κ) : Prop :=
  s.held co ≠ none ∧ (∀ c, c ≠ co → s.held c = none ∧ ∀ x ∈ s.calls c, x.isWaiting = true) ∧
    ∀ p ∈ s.pool, ∀ w ∈ p.2.queue.head?, s.held co = some .ex ∧ ∃ x ∈ s.calls w, x.waitsEx = true

variable {c w : κ} {k : Nat} {mode : LockMode}

lemma Releases.others (hr : s.Releases co) (hc : c ≠ co) :
    s.calls c = none ∨ ∃ n mode, s.calls c = some (.waiting n mode) := by
  have hall := (hr.2.1 c hc).2
  cases hx : s.calls c with
  | none => exact .inl rfl
  | some x =>
    have hw := hall x hx
    cases x with
    | waiting n mode => exact .inr ⟨n, mode, rfl⟩
    | locking n mode | unlocking next => cases hw

lemma Releases.next (hr : s.Releases co) (hp : s.pool = some (n, lm)) {queue : List κ}
    (hq : lm.queue = w :: queue) :
    s.held co = some .ex ∧ ∃ n, s.calls w = some (.waiting n .ex) := by
  obtain ⟨hex, x, hx, hw⟩ := hr.2.2 (n, lm) hp w (by rw [hq]; exact rfl)
  refine ⟨hex, ?_⟩
  cases x with
  | waiting n mode =>
    cases mode with
    | ex => exact ⟨n, hx⟩
    | sh => cases hw
  | locking n mode | unlocking next => cases hw

lemma Releases.claim (hr : s.Releases co) (hc : c ≠ co) : s.claim c = none := by
  have hheld := (hr.2.1 c hc).1
  unfold FileLock.claim
  rcases hr.others hc with hcall | ⟨n, mode, hcall⟩
  · rw [hcall, hheld]
    rfl
  · rw [hcall]
    rfl

lemma Inv.release (h : s.Inv) (hco : s.calls co = none) (hr : s.Releases co) : (s.release co).Inv := by
  have hclaim : s.claim co = s.held co := claim_of_calls hco
  unfold FileLock.release
  cases hp : s.pool with
  | none => exact absurd (hclaim.symm.trans (h.free hp co).1) hr.1
  | some p =>
    obtain ⟨n, lm⟩ := p
    obtain ⟨ha, hl⟩ := h.managed n lm hp
    dsimp only
    cases hq : lm.queue with
    | nil =>
      -- nobody waits: the manager is deleted
      refine ⟨h.tame, fun _ c => ?_, nofun⟩
      rw [claim_setCall]
      show update s.claim co none c = none ∧ (update s.calls co (some (.unlocking none)) c = none ∨
        update s.calls co (some (.unlocking none)) c = some (.unlocking none))
      by_cases hc : c = co
      · rw [hc, update_self, update_self]
        exact ⟨rfl, .inr rfl⟩
      · rw [update_of_ne hc, update_of_ne hc]
        refine ⟨hr.claim hc, .inl ?_⟩
        rcases hr.others hc with he | ⟨k, mode, he⟩
        · exact he
        · obtain ⟨-, -, hm | ⟨r, hrr⟩⟩ := hl.waiting c k mode he
          · rw [hq] at hm
            cases hm
          · by_cases hrc : r = co
            · rw [hrc, hco] at hrr
              cases hrr
            · rcases hr.others hrc with he' | ⟨k', mode', he'⟩
              · rw [he'] at hrr
                cases hrr
              · rw [he'] at hrr
                cases hrr
    | cons w queue =>
      obtain ⟨hex, k, hw⟩ := hr.next hp hq
      obtain ⟨rfl, -⟩ := hl.waiting w k .ex hw
      rw [hq] at hl
      refine .of_managed h.tame rfl ?_ (hl.dequeue hco hw)
      rw [claim_setCall]
      rw [update_eq_self_iff.2 (hclaim.trans hex).symm]
      exact ha.setQueue (hclaim.trans hex) queue

/-- Only the release of a lock goes on without a manager. -/
lemma Inv.pool (h : s.Inv) {x : FlockCall κ} (hco : s.calls co = some x) (hx : x ≠ .unlocking none) :
    ∃ n lm, s.pool = some (n, lm) ∧ lm.Agrees s.claim ∧ Links n lm.queue s.calls s.held := by
  cases hp : s.pool with
  | none =>
    rcases (h.free hp co).2 with he | he
    · cases hco.symm.trans he
    · exact absurd (some.inj (hco.symm.trans he)) hx
  | some p => exact ⟨p.1, p.2, rfl, h.managed p.1 p.2 hp⟩

section
variable (h : s.Inv) (hco : s.calls co = some (.locking k mode))
include h hco

lemma Inv.locking : ∃ lm, s.pool = some (k, lm) ∧ s.held co = none := by
  obtain ⟨n, lm, hp, -, hl⟩ := h.pool hco nofun
  obtain ⟨rfl, hheld⟩ := hl.locking co k mode hco
  exact ⟨lm, hp, hheld⟩

lemma Inv.locked : (s.locked co k mode true).Inv := by
  obtain ⟨lm, hp, -⟩ := h.locking hco
  obtain ⟨ha, hl⟩ := h.managed k lm hp
  have hclaim : s.claim co = some mode := claim_of_calls hco
  refine .of_managed h.tame hp ?_ ?_
  · show LockManager.Agrees _ (fun c => claimOf (update s.calls co none c) (update s.held co (some mode) c))
    rw [claim_update]
    rw [update_eq_self_iff.2 hclaim.symm]
    exact ha
  · exact hl.set hco trivial (some mode) (.inl rfl)

/-- the condition on a `flock` that fails: nobody waits, and nobody else has a shared claim -/
def Fails (s : FileLock κ) (co : κ) (mode : LockMode) : Prop :=
  (∀ p ∈ s.pool, p.2.queue = []) ∧ (mode = .sh → ∀ c, c ≠ co → s.claim c ≠ some .sh)

lemma Inv.refused (hf : s.Fails co mode) : (s.locked co k mode false).Inv := by
  obtain ⟨lm, hp, hheld⟩ := h.locking hco
  obtain ⟨ha, hl⟩ := h.managed k lm hp
  have hclaim : s.claim co = some mode := claim_of_calls hco
  have honly : ∀ c, s.claim c = some mode → c = co := by
    intro c hc
    cases mode with
    | ex => exact ha.alone co c .ex hclaim hc
    | sh => exact not_not.1 fun hne => hf.2 rfl c hne hc
  unfold FileLock.locked
  rw [if_neg Bool.false_ne_true, setFlag_eq hp]
  refine .of_managed h.tame rfl ?_ ?_
  · rw [claim_setCall]
    rw [hheld]
    exact ha.giveUp hclaim honly (hf.1 (k, lm) hp)
  · have hsame : update s.held co none = s.held := update_eq_self_iff.2 hheld.symm
    have hset := hl.set hco trivial none (.inl rfl)
    rw [hsame] at hset
    rw [LockManager.queue_setFlag]
    exact hset

end

lemma Inv.unlocked_none (h : s.Inv) (hco : s.calls co = some (.unlocking none)) :
    (s.unlocked co none true).Inv := by
  have hclaim : s.claim co = none := claim_of_calls hco
  have hc' : ((s.setHeld co none).setCall co none).claim = s.claim := by
    show (fun c => claimOf (update s.calls co none c) (update s.held co none c)) = _
    rw [claim_update]
    exact update_eq_self_iff.2 hclaim.symm
  cases hp : s.pool with
  | none =>
    refine ⟨h.tame, fun _ c => ⟨(congrFun hc' c).trans (h.free hp c).1, ?_⟩,
      fun n lm hp' => by cases hp'.symm.trans hp⟩
    show update s.calls co none c = none ∨ update s.calls co none c = some (.unlocking none)
    by_cases hc : c = co
    · rw [hc, update_self]
      exact .inl rfl
    · rw [update_of_ne hc]
      exact (h.free hp c).2
  | some p =>
    obtain ⟨ha, hl⟩ := h.managed p.1 p.2 hp
    refine .of_managed h.tame hp (hc' ▸ ha) ?_
    exact hl.set hco trivial none (.inl rfl)

lemma Inv.unlocked_some (h : s.Inv) (hco : s.calls co = some (.unlocking (some w))) :
    (s.unlocked co (some w) true).Inv := by
  obtain ⟨n, lm, hp, ha, hl⟩ := h.pool hco nofun
  have hclaim : ∀ r c, s.calls r = some (.unlocking (some c)) → s.claim r = some .ex :=
    fun r c hr => claim_of_calls hr
  obtain ⟨hw, -⟩ := hl.next co w hco
  have hwco : w ≠ co := by
    rintro rfl
    cases hw.symm.trans hco
  have hcw : ((s.setHeld co none).setCall co none).calls w = some (.waiting n .ex) := by
    show update s.calls co none w = _
    rw [update_of_ne hwco]
    exact hw
  have hun : s.unlocked co (some w) true = ((s.setHeld co none).setCall co none).startLock w n .ex := by
    show ((s.setHeld co none).setCall co none).resume w = _
    unfold resume
    rw [hcw]
  have hp' : ((s.setHeld co none).setCall co none).pool = some (n, lm) := hp
  rw [hun]
  unfold startLock
  rw [setFlag_eq hp']
  refine .of_managed h.tame rfl ?_ ?_
  · rw [claim_setCall]
    show LockManager.Agrees _ (update (fun c => claimOf (update s.calls co none c) (update s.held co none c)) w
      (some .ex))
    rw [claim_update]
    exact ha.handOver (hclaim co w hco)
  · exact hl.handOver hco fun r c hr => ha.alone co r .ex (hclaim co w hco) (hclaim r c hr)

/-! ## whole runs -/

/-- the calls whose `flock` may fail -/
def MayFail (s : FileLock κ) (co : κ) : FlockCall κ → Prop
  | .locking _ mode => s.Fails co mode
  | _ => False

/-- a coroutine asks for the lock when it has none, releases it as `Releases` says and never with `LOCK_NB`, and
`flock` fails as `Fails` says -/
def Careful (a : FlockAct κ) (s : FileLock κ) : Prop :=
  match a with
  | .call co (.lock _) _ | .call co (.lockNb _) _ => s.held co = none
  | .call co .unlock _ => s.Releases co
  | .call _ .unlockNb _ => False
  | .done _ true => True
  | .done co false => ∀ x ∈ s.calls co, s.MayFail co x

section
variable [Fintype κ]

instance (s : FileLock κ) (co : κ) : Decidable (s.Releases co) := inferInstanceAs (Decidable (_ ∧ _))

instance (s : FileLock κ) (co : κ) (mode : LockMode) : Decidable (s.Fails co mode) :=
  inferInstanceAs (Decidable (_ ∧ _))

instance (s : FileLock κ) (co : κ) (x : FlockCall κ) : Decidable (s.MayFail co x) := by
  cases x <;> dsimp only [FileLock.MayFail] <;> infer_instance

instance (a : FlockAct κ) (s : FileLock κ) : Decidable (Careful a s) := by
  unfold Careful
  split <;> infer_instance

lemma Inv.step (a : FlockAct κ) (s s' : FileLock κ) (ha : Careful a s) (h : s.Inv)
    (hs : s.step a = some s') : s'.Inv := by
  cases a with
  | call co op ok =>
    obtain ⟨hco, hs⟩ := ite_none_right_eq_some.1 hs
    cases op with
    | lock mode => exact some.inj hs ▸ h.lock hco ha mode
    | unlock => exact some.inj hs ▸ h.release hco ha
    | lockNb mode =>
      obtain ⟨-, rfl⟩ := ite_some_none_eq_some.1 hs
      exact h.lockNb hco ha mode ok
    | unlockNb => cases ha
  | done co ok =>
    have hd : s.done co ok = some s' := hs
    unfold done at hd
    cases hc : s.calls co with
    | none =>
      rw [hc] at hd
      cases hd
    | some x =>
      rw [hc] at hd
      cases x with
      | waiting n mode => cases hd
      | locking n mode =>
        obtain ⟨-, hd⟩ := ite_none_right_eq_some.1 hd
        cases ok with
        | true => exact some.inj hd ▸ h.locked hc
        | false => exact some.inj hd ▸ h.refused hc (ha _ hc)
      | unlocking next =>
        cases ok with
        | false => cases ha _ hc
        | true =>
          cases next with
          | none => exact some.inj hd ▸ h.unlocked_none hc
          | some w => exact some.inj hd ▸ h.unlocked_some hc

end

/-- `lock_ex` or `lock_sh` of the manager; without a manager both are down -/
def flag (s : FileLock κ) (mode : LockMode) : Bool :=
  match s.pool with
  | none => false
  | some (_, lm) => lm.flag mode

lemma Inv.flag_iff (h : s.Inv) (mode : LockMode) : s.flag mode = true ↔ ∃ c, s.claim c = some mode := by
  unfold flag
  cases hp : s.pool with
  | none => exact ⟨nofun, fun ⟨c, hc⟩ => by cases hc.symm.trans (h.free hp c).1⟩
  | some p => exact (h.managed p.1 p.2 hp).1.flag mode

lemma Inv.waits (h : s.Inv) (hc : s.calls c = some (.waiting k mode)) :
    ∃ c' mode', c' ≠ c ∧ s.claim c' = some mode' := by
  have hother : ∀ c' mode', s.claim c' = some mode' → c' ≠ c := by
    rintro c' mode' hc' rfl
    unfold claim at hc'
    rw [hc] at hc'
    cases hc'
  obtain ⟨n, lm, -, ha, hl⟩ := h.pool hc nofun
  rcases (hl.waiting c k mode hc).2.2 with hm | ⟨r, hr⟩
  · obtain ⟨c', mode', hc'⟩ := ha.waits (ne_nil_of_mem hm)
    exact ⟨c', mode', hother c' mode' hc', hc'⟩
  · have hr' : s.claim r = some .ex := claim_of_calls hr
    exact ⟨r, .ex, hother r .ex hr', hr'⟩

lemma claim_eq_held (hrest : ∀ c, ∀ x ∈ s.calls c, x.isWaiting = true) (h : s.Inv) (c : κ)
    (mode : LockMode) : s.claim c = some mode ↔ s.held c = some mode := by
  unfold claim
  cases hx : s.calls c with
  | none => exact Iff.rfl
  | some x =>
    have hw := hrest c x hx
    cases x with
    | waiting k m =>
      refine ⟨nofun, fun he => ?_⟩
      obtain ⟨n, lm, -, -, hl⟩ := h.pool hx nofun
      cases he.symm.trans (hl.waiting c k m hx).2.1
    | locking k m | unlocking next => cases hw

/-- **Flags and queue agree with the locks**, in every schedule whose steps meet `Careful`. -/
theorem flock_agrees [Fintype κ] (as : List (FlockAct κ)) (has : Along step Careful as init)
    (s : FileLock κ) (hs : iter step as init = some s) :
    s.wild = false ∧ (∀ mode, s.flag mode = true ↔ ∃ c, s.claim c = some mode) ∧
      (∀ c k mode, s.calls c = some (.waiting k mode) → ∃ c' mode', c' ≠ c ∧ s.claim c' = some mode') ∧
      ((∀ c, ∀ x ∈ s.calls c, x.isWaiting = true) →
        (∀ mode, s.flag mode = true ↔ ∃ c, s.held c = some mode) ∧
        ∀ c k mode, s.calls c = some (.waiting k mode) → ∃ c' mode', c' ≠ c ∧ s.held c' = some mode') := by
  have h : s.Inv := iter_keeps Inv.step as has ⟨rfl, fun _ _ => ⟨rfl, .inl rfl⟩, nofun⟩ hs
  refine ⟨h.tame, h.flag_iff, fun c k mode hc => h.waits hc, ?_⟩
  intro hrest
  have hheld := claim_eq_held hrest h
  refine ⟨?_, ?_⟩
  · intro mode
    rw [h.flag_iff mode]
    exact exists_congr fun c => hheld c mode
  · intro c k mode hc
    obtain ⟨c', mode', hne, hc'⟩ := h.waits hc
    exact ⟨c', mode', hne, (hheld c' mode').1 hc'⟩

/-- coroutine 0 locks, 1 waits and gets the lock from it, 2 waits for 1 -/
theorem flock_agrees_three : ∃ s : FileLock (Fin 3), iter step
        [.call 0 (.lock .ex) true, .done 0 true, .call 1 (.lock .ex) true, .call 0 .unlock true,
          .call 2 (.lock .sh) true, .done 0 true, .done 1 true] init = some s ∧
      s.flag .ex = true ∧ (∃ c, s.held c = some .ex) ∧ ∃ c' mode', c' ≠ 2 ∧ s.held c' = some mode' := by
  refine exists_of_map (fun s => (s.flag .ex, s.calls 0, s.calls 1, s.calls 2))
    (show _ = some (true, none, none, some (.waiting 0 .sh)) by decide +kernel) fun s hs hv => ?_
  obtain ⟨hflag, hrest⟩ := Prod.mk.inj hv
  obtain ⟨h0, hrest⟩ := Prod.mk.inj hrest
  obtain ⟨h1, h2⟩ := Prod.mk.inj hrest
  obtain ⟨-, -, -, hquiet⟩ := flock_agrees _ (by decide +kernel) s hs
  have hcalls : ∀ c, ∀ x ∈ s.calls c, x.isWaiting = true := by
    intro c x hx
    match c with
    | 0 => cases h0.symm.trans hx
    | 1 => cases h1.symm.trans hx
    | 2 =>
      obtain rfl := some.inj (h2.symm.trans hx)
      rfl
  obtain ⟨hagree, hwait⟩ := hquiet hcalls
  exact ⟨hflag, (hagree .ex).1 hflag, hwait 2 0 .sh h2⟩

/-- an exclusive lock becomes a shared one and `lock_ex` stays up; coroutine 2 waits behind a `flock` that failed
-/
theorem flock_disagrees : (iter step
      ([.call 0 (.lock .ex) true, .done 0 true, .call 1 (.lock .sh) true, .call 0 .unlock true,
        .done 0 true, .done 1 true] : List (FlockAct (Fin 3))) init).map
      (fun s => (s.flag .ex, s.held 0, s.held 1, s.held 2)) = some (true, none, some .sh, none) ∧
    (iter step ([.call 0 (.lock .ex) true, .done 0 true, .call 1 (.lock .ex) true, .call 2 (.lock .ex) true,
        .call 0 .unlock true, .done 0 true, .done 1 false] : List (FlockAct (Fin 3))) init).map
      (fun s => (s.calls 2, s.held 0, s.held 1, s.held 2)) =
      some (some (.waiting 0 .ex), none, none, none) := by
  decide +kernel

end FileLock

end OSW.Coroutine
