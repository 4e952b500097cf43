import OpenSwoole.Server.CloseSteps

/-!
# Close callbacks

`end` tests `closing` and `closed` before it calls the callback, unless the close is forced; and the
test and the mark are not one step.

* `Closing.Once`   the invariant: a session whose callback was called is closing, closed or gone;
* `closed_once`   **the callback of a session is called at most once**, as long as `end` finds the session
    open and neither closing nor closed when it sets `closing`.
-/

namespace OSW
open Function Machine List

namespace Closing

section
variable {c : CloseConfig} {s s' : Closing}

structure Once (c : CloseConfig) (s : Closing) : Prop where
  sound : s.Sound c
  nodup : s.callbacks.Nodup
  flagged : ∀ fd, (s.conn fd).active = true → (s.conn fd).sessionId ∈ s.callbacks →
    (s.conn fd).closing = true ∨ (s.conn fd).closed = true

section
variable (h : s.Once c)
include h

lemma Once.kept (hk : Kept s s') : s'.Once c := by
  refine ⟨h.sound.kept hk, hk.callbacks ▸ h.nodup, ?_⟩
  intro fd ha hm
  rw [(hk.conn fd).active] at ha
  rw [(hk.conn fd).sessionId, hk.callbacks] at hm
  rw [(hk.conn fd).closing, (hk.conn fd).closed]
  exact h.flagged fd ha hm

lemma Once.release {fd : Nat} (ha : (s.conn fd).active = true) : (s.release c fd).Once c := by
  refine ⟨h.sound.release ha, h.nodup, ?_⟩
  intro f hf hm
  obtain ⟨-, he⟩ := release_active hf
  rw [he] at hf hm ⊢
  exact h.flagged f hf hm

lemma Once.ends (he : Ends c s s') : s'.Once c := by
  rcases he with hk | ⟨s₁, fd, hk, ha, rfl⟩
  · exact h.kept hk
  · exact (h.kept hk).release ha

lemma Once.accept (hmax : c.maxConnection ≤ sessionListSize) (hroom : Room c s) {fd : Nat}
    (ha : s.accept c fd = some s') : s'.Once c := by
  obtain ⟨hsound, ⟨id, hid, hconn⟩, -, -, -, hcb⟩ := h.sound.accept hmax hroom ha
  refine ⟨hsound, hcb ▸ h.nodup, ?_⟩
  intro f hf hm
  rw [hconn] at hf hm ⊢
  rw [hcb] at hm
  split at hm
  · -- the id is new: no callback was called for it
    have := h.sound.callbacks id hm
    omega
  · rename_i hne
    rw [if_neg hne] at hf ⊢
    exact h.flagged f hf hm

def Fresh (s : Closing) (call : EndCall) : Prop :=
  (s.conn call.conn).active = true ∧ (s.conn call.conn).sessionId = call.id ∧
    (s.conn call.conn).closing = false ∧ (s.conn call.conn).closed = false

instance (s : Closing) (call : EndCall) : Decidable (s.Fresh call) := inferInstanceAs (Decidable (_ ∧ _))

lemma Once.enter {t : Nat} {call : EndCall} (hc : s.calls t = some call) (hfresh : s.Fresh call) :
    (s.enter t call).Once c := by
  obtain ⟨ha, hi, hclosing, hclosed⟩ := hfresh
  -- a session that is neither closing nor closed had no callback
  have hnew : call.id ∉ s.callbacks := by
    intro hm
    rcases h.flagged call.conn ha (hi ▸ hm) with hf | hf
    · exact Bool.false_ne_true (hclosing ▸ hf)
    · exact Bool.false_ne_true (hclosed ▸ hf)
  refine ⟨h.sound.enter hc, ?_, ?_⟩
  · refine nodup_append.2 ⟨h.nodup, nodup_singleton _, ?_⟩
    rintro x hx y hy rfl
    exact hnew (mem_singleton.1 hy ▸ hx)
  · intro fd hfd hm
    have hconn : (s.enter t call).conn fd =
        update s.tables.connectionList call.conn { s.conn call.conn with closing := true } fd := rfl
    rw [hconn] at hfd hm ⊢
    by_cases hf : fd = call.conn
    · rw [hf, update_self]
      exact .inl rfl
    · rw [update_of_ne hf] at hfd hm ⊢
      rcases mem_append.1 hm with hm | hm
      · exact h.flagged fd hfd hm
      · exact absurd (h.sound.conn_inj hfd ha ((mem_singleton.1 hm).trans hi.symm)) hf

lemma Once.leave {t : Nat} {call : EndCall} (hc : s.calls t = some call) : (s.leave t call).Once c := by
  refine ⟨h.sound.leave hc, h.nodup, ?_⟩
  intro fd hfd hm
  have hconn : (s.leave t call).conn fd = update s.tables.connectionList call.conn
      { s.conn call.conn with closing := false, closed := true } fd := rfl
  rw [hconn] at hfd hm ⊢
  by_cases hf : fd = call.conn
  · rw [hf, update_self]
    exact .inr rfl
  · rw [update_of_ne hf] at hfd hm ⊢
    exact h.flagged fd hfd hm

end

/-- a call of `end` that sets `closing` finds its session open, and neither closing nor closed -/
def EntersFresh (c : CloseConfig) (a : CloseAct) (s : Closing) : Prop :=
  match a with
  | .accept _ => Room c s
  | .enter t => ∀ call ∈ s.calls t, s.Fresh call
  | _ => True

instance (c : CloseConfig) (a : CloseAct) (s : Closing) : Decidable (EntersFresh c a s) := by
  cases a <;> dsimp only [EntersFresh] <;> infer_instance

lemma Once.step (hmax : c.maxConnection ≤ sessionListSize) (a : CloseAct) (s s' : Closing)
    (ha : EntersFresh c a s) (h : s.Once c) (hs : s.step c a = some s') : s'.Once c := by
  rcases step_cases hs with he | ⟨fd, rfl, he⟩ | ⟨i, sent, target, packet, rfl, -, rfl⟩ |
    ⟨t, call, rfl, hc, -, rfl⟩ | ⟨t, call, rfl, hc, -, rfl⟩ | ⟨t, call, rfl, hc, -, rfl⟩
  · exact h.ends he
  · exact h.accept hmax ha he
  · have herased : { s with toReactor := s.toReactor.eraseIdx i }.Once c :=
      ⟨h.sound.erased i, h.nodup, h.flagged⟩
    exact herased.ends (receive_ends c _ packet sent target)
  · exact h.enter hc (ha call hc)
  · exact h.leave hc
  · have hreturned : (s.setCall t none).Once c := ⟨h.sound.returned t, h.nodup, h.flagged⟩
    exact hreturned.kept (finishClose_kept c _ call.id)

theorem closed_once (c : CloseConfig) (hmax : c.maxConnection ≤ sessionListSize) (first : Int)
    (hfirst : 0 ≤ first) (as : List CloseAct) (has : Along (step c) (EntersFresh c) as (start first))
    (s : Closing) (hs : iter (step c) as (start first) = some s) (id : Int) : s.callbacks.count id ≤ 1 :=
  nodup_iff_count_le_one.1
    (iter_keeps (Once.step hmax) as has ⟨start_sound hfirst, nodup_nil, nofun⟩ hs).nodup id

end

/-- a client leaves, the worker takes the event and the packet reaches the reactor -/
theorem closed_once_peer : Along (step twoWorkers) (EntersFresh twoWorkers)
      [.accept 1, .register 1 false, .peer 1 (some 0), .take 0 0 0, .enter 0, .leave 0, .finish 0,
        .receive 0 0 none] (start 0) ∧
      ∀ s, iter (step twoWorkers)
        [.accept 1, .register 1 false, .peer 1 (some 0), .take 0 0 0, .enter 0, .leave 0, .finish 0,
          .receive 0 0 none] (start 0) = some s → ∀ id, s.callbacks.count id ≤ 1 := by
  refine ⟨by decide +kernel, fun s hs => ?_⟩
  exact closed_once twoWorkers (by decide) 0 (by decide) _ (by decide +kernel) s hs

/-- two workers close session 1: the callback is called for it a second time -/
theorem closed_twice : (iter (step twoWorkers)
      [.accept 1, .register 1 false, .timeout 1 (some 0), .close 1 (some 1) 1 1 false, .enter 1, .leave 1,
        .finish 1, .take 0 0 0, .enter 0] (start 0)).map (fun s => s.callbacks) = some [1, 1] := by
  decide +kernel

end Closing

end OSW
