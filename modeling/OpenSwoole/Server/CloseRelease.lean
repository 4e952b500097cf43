import OpenSwoole.Server.CloseSteps

/-!
# Releasing closed sessions

A session that `end` has marked refuses every later close, so that its close packet has to reach the
reactor.

* `leave_finish`   the packet is handed over exactly when the output queue is not full.
-/

namespace OSW
open Function List Machine Option

namespace Closing

/-- the close of a session is on its way: a call of `end` has yet to send the packet, the packet waits
for the reactor, or the output queue ends in a close -/
def Pending (s : Closing) (fd : Nat) : Prop :=
  (∃ t call, s.calls t = some call ∧ call.phase = .marked ∧ call.id = (s.conn fd).sessionId) ∨
    ClosePacket.close (s.conn fd).sessionId ∈ s.toReactor ∨
    ((s.conn fd).closeQueued = true ∧ OutChunk.close ∈ (s.sockets fd).outBuffer)

/-- every session that is marked closed is on its way to be released -/
structure Tracked (c : CloseConfig) (s : Closing) : Prop where
  sound : s.Sound c
  pending : ∀ fd, (s.conn fd).active = true → (s.conn fd).closed = true → s.Pending fd

section
variable {c : CloseConfig} {s s' : Closing}

variable {fd t u : Nat} {call x : EndCall} {call' : Option EndCall}

lemma Pending.mono (h : s.Pending fd) (hid : (s'.conn fd).sessionId = (s.conn fd).sessionId)
    (hcall : ∀ t call, s.calls t = some call → call.phase = .marked →
      call.id = (s.conn fd).sessionId → s'.calls t = some call)
    (hpacket : ClosePacket.close (s.conn fd).sessionId ∈ s.toReactor →
      ClosePacket.close (s.conn fd).sessionId ∈ s'.toReactor)
    (hqueued : (s.conn fd).closeQueued = true → (s'.conn fd).closeQueued = true)
    (hqueue : OutChunk.close ∈ (s.sockets fd).outBuffer → OutChunk.close ∈ (s'.sockets fd).outBuffer) :
    s'.Pending fd := by
  unfold Pending
  rw [hid]
  rcases h with ⟨t, call, hc, hp, hi⟩ | hp | ⟨hq, hb⟩
  · exact .inl ⟨t, call, hcall t call hc hp hi, hp, hi⟩
  · exact .inr (.inl (hpacket hp))
  · exact .inr (.inr ⟨hqueued hq, hqueue hb⟩)

lemma Ends.active (he : Ends c s s') (ha : (s'.conn fd).active = true) :
    SameSession (s.conn fd) (s'.conn fd) := by
  rcases he with hk | ⟨s₁, f, hk, -, rfl⟩
  · exact hk.conn fd
  · rw [(release_active ha).2]
    exact hk.conn fd

lemma Ends.pending (he : Ends c s s') (ha : (s'.conn fd).active = true) (h : s.Pending fd) :
    s'.Pending fd := by
  have hsame := he.active ha
  rcases he with hk | ⟨s₁, f, hk, -, rfl⟩
  · exact h.mono hsame.sessionId (fun t call hc _ _ => hk.call t call hc) (hk.packet _)
      hsame.closeQueued (hk.queue fd)
  · have hsock : (s₁.release c f).sockets fd = s₁.sockets fd := update_of_ne (release_active ha).1 _ _
    exact h.mono hsame.sessionId (fun t call hc _ _ => hk.call t call hc) (hk.packet _)
      hsame.closeQueued (by rw [hsock]; exact hk.queue fd)

lemma Tracked.ends (h : s.Tracked c) (he : Ends c s s') : s'.Tracked c := by
  refine ⟨h.sound.ends he, ?_⟩
  intro fd ha hd
  have hsame := he.active ha
  exact he.pending ha (h.pending fd (hsame.active ▸ ha) (hsame.closed ▸ hd))

lemma Tracked.accept (h : s.Tracked c) (hmax : c.maxConnection ≤ sessionListSize)
    (hroom : Room c s) (ha : s.accept c fd = some s') : s'.Tracked c := by
  obtain ⟨hsound, ⟨id, -, hconn⟩, hsock, hreactor, hcalls, -⟩ := h.sound.accept hmax hroom ha
  refine ⟨hsound, ?_⟩
  intro f hf hd
  by_cases hne : f = fd
  · rw [hconn, if_pos hne] at hd
    cases hd
  · have he : s'.conn f = s.conn f := (hconn f).trans (if_neg hne)
    rw [he] at hf hd
    exact (h.pending f hf hd).mono (by rw [he]) (fun t call hc _ _ => by rw [hcalls]; exact hc)
      (by rw [hreactor]; exact fun hp => hp) (by rw [he]; exact fun hq => hq)
      (by rw [hsock f hne]; exact fun hq => hq)

lemma sendClose_queued (h : s.Sound c) (hfd : (s.conn fd).active = true)
    (ha : ((s.sendClose c (s.conn fd).sessionId).conn fd).active = true) :
    ((s.sendClose c (s.conn fd).sessionId).conn fd).closeQueued = true ∧
      OutChunk.close ∈ ((s.sendClose c (s.conn fd).sessionId).sockets fd).outBuffer := by
  unfold sendClose at ha ⊢
  simp only [h.verify_eq hfd] at ha ⊢
  split at ha
  · exact absurd rfl (release_active ha).1
  · rename_i hflags
    rw [if_neg hflags]
    split at ha
    · exact absurd rfl (release_active ha).1
    · rename_i hne
      rw [if_neg hne]
      refine ⟨?_, ?_⟩
      · show (update s.tables.connectionList fd { s.conn fd with closeQueued := true } fd).closeQueued = true
        rw [update_self]
      · show OutChunk.close ∈ (update s.sockets fd { s.sockets fd with
          outBuffer := (s.sockets fd).outBuffer ++ [.close] } fd).outBuffer
        rw [update_self]
        exact mem_append_right _ mem_cons_self

lemma Tracked.receive (h : s.Tracked c) {i sent : Nat} {target : Option Nat} {packet : ClosePacket}
    (hi : s.toReactor[i]? = some packet) :
    ({ s with toReactor := s.toReactor.eraseIdx i }.receive c packet sent target).Tracked c := by
  let s₀ : Closing := { s with toReactor := s.toReactor.eraseIdx i }
  have hends : Ends c s₀ (s₀.receive c packet sent target) := receive_ends c s₀ packet sent target
  have hsound : s₀.Sound c := h.sound.erased i
  refine ⟨hsound.ends hends, ?_⟩
  intro fd ha hd
  have hsame := hends.active ha
  have ha₀ : (s.conn fd).active = true := hsame.active ▸ ha
  have hd₀ : (s.conn fd).closed = true := hsame.closed ▸ hd
  by_cases hp : packet = .close (s.conn fd).sessionId
  · subst hp
    exact .inr (.inr (sendClose_queued hsound ha₀ ha))
  · -- the packet is not the one this session waits for
    have hstays : ClosePacket.close (s.conn fd).sessionId ∈ s.toReactor →
        ClosePacket.close (s.conn fd).sessionId ∈ s.toReactor.eraseIdx i := by
      intro hm
      obtain ⟨j, hj⟩ := mem_iff_getElem?.1 hm
      refine mem_eraseIdx_iff_getElem?.2 ⟨j, ?_, hj⟩
      rintro rfl
      exact hp (some.inj (hi.symm.trans hj))
    exact hends.pending ha
      ((h.pending fd ha₀ hd₀).mono rfl (fun _ _ hc _ _ => hc) hstays (fun hq => hq) (fun hq => hq))

lemma setCall_marked (hc : s.calls t = some call) (hx : s.calls u = some x) (hne : x ≠ call) :
    update s.calls t call' u = some x := by
  have hu : u ≠ t := by
    rintro rfl
    exact hne (some.inj (hx.symm.trans hc))
  rw [update_of_ne hu]
  exact hx

lemma setCall_pending (hc : s.calls t = some call) (hp : call.phase ≠ .marked)
    (hx : s.calls u = some x) (hm : x.phase = .marked) : update s.calls t call' u = some x := by
  refine setCall_marked hc hx ?_
  rintro rfl
  exact hp hm

lemma enter_conn (s : Closing) (t : Nat) (call : EndCall) (fd : Nat) : (s.enter t call).conn fd =
    if fd = call.conn then { s.conn call.conn with closing := true } else s.conn fd :=
  update_apply _ _ _ _

lemma leave_conn (s : Closing) (t : Nat) (call : EndCall) (fd : Nat) : (s.leave t call).conn fd =
    if fd = call.conn then { s.conn call.conn with closing := false, closed := true } else s.conn fd :=
  update_apply _ _ _ _

lemma Tracked.enter (h : s.Tracked c) (hc : s.calls t = some call) (hp : call.phase = .decided) :
    (s.enter t call).Tracked c := by
  refine ⟨h.sound.enter hc, ?_⟩
  intro fd hfd hd
  have hconn : (s.enter t call).conn fd = { s.conn fd with closing := ((s.enter t call).conn fd).closing } := by
    rw [enter_conn]
    by_cases hf : fd = call.conn
    · rw [if_pos hf, hf]
    · rw [if_neg hf]
  rw [hconn] at hfd hd
  have hbefore : call.phase ≠ .marked := hp ▸ EndPhase.noConfusion
  exact (h.pending fd hfd hd).mono (by rw [hconn]) (fun u x hx hm _ => setCall_pending hc hbefore hx hm) id
    (by rw [hconn]; exact id) id

lemma Tracked.leave (h : s.Tracked c) (hc : s.calls t = some call) (hp : call.phase = .calling)
    (hsame : (s.conn call.conn).active = true → (s.conn call.conn).sessionId = call.id) :
    (s.leave t call).Tracked c := by
  refine ⟨h.sound.leave hc, ?_⟩
  intro fd hfd hd
  by_cases hf : fd = call.conn
  · -- the call that marked the session has yet to send the packet
    refine .inl ⟨t, { call with phase := .marked }, update_self _ _ _, rfl, ?_⟩
    rw [leave_conn, if_pos hf] at hfd ⊢
    exact (hsame hfd).symm
  · have hconn : (s.leave t call).conn fd = s.conn fd := (leave_conn s t call fd).trans (if_neg hf)
    rw [hconn] at hfd hd
    have hbefore : call.phase ≠ .marked := hp ▸ EndPhase.noConfusion
    exact (h.pending fd hfd hd).mono (by rw [hconn]) (fun u x hx hm _ => setCall_pending hc hbefore hx hm) id
      (by rw [hconn]; exact id) id

lemma finishClose_sent {id : Int} (hv : s.verify c id = some fd) (ho : (s.conn fd).overflow = false) :
    s.finishClose c id = { s with toReactor := s.toReactor ++ [.close id] } := by
  unfold finishClose
  simp only [hv, ho, Bool.false_eq_true, if_false]

lemma Tracked.finish (h : s.Tracked c) (hc : s.calls t = some call)
    (hroom : ∀ fd ∈ s.verify c call.id, (s.conn fd).overflow = false) :
    ((s.setCall t none).finishClose c call.id).Tracked c := by
  have hk := finishClose_kept c (s.setCall t none) call.id
  refine ⟨(h.sound.returned t).kept hk, ?_⟩
  intro fd hfd hd
  have ha : (s.conn fd).active = true := (hk.conn fd).active ▸ hfd
  by_cases hid : (s.conn fd).sessionId = call.id
  · have hv : s.verify c call.id = some fd := hid ▸ h.sound.verify_eq ha
    have hv' : (s.setCall t none).verify c call.id = some fd := hv
    refine .inr (.inl ?_)
    rw [(hk.conn fd).sessionId, finishClose_sent hv' (hroom fd hv)]
    exact mem_append_right _ (mem_singleton.2 (congrArg _ hid))
  · refine (hk.ends : Ends c _ _).pending hfd
      ((h.pending fd ha ((hk.conn fd).closed ▸ hd)).mono rfl ?_ (fun hm => hm) (fun hq => hq) (fun hq => hq))
    intro u x hx _ hi
    refine setCall_marked hc hx ?_
    rintro rfl
    exact hid hi.symm

/-- a call of `end` that marks a connection finds its own session there, and the queue of the session
is not full when it sends the packet -/
def MarksOwn (c : CloseConfig) (a : CloseAct) (s : Closing) : Prop :=
  match a with
  | .accept _ => Room c s
  | .leave t => ∀ call ∈ s.calls t,
    (s.conn call.conn).active = true → (s.conn call.conn).sessionId = call.id
  | .finish t => ∀ call ∈ s.calls t, ∀ fd ∈ s.verify c call.id, (s.conn fd).overflow = false
  | _ => True

instance (c : CloseConfig) (a : CloseAct) (s : Closing) : Decidable (MarksOwn c a s) := by
  rcases a with ⟨⟩ <;> dsimp only [MarksOwn] <;> infer_instance

lemma Tracked.step (hmax : c.maxConnection ≤ sessionListSize) (a : CloseAct) (s s' : Closing)
    (ha : MarksOwn c a s) (h : s.Tracked c) (hs : s.step c a = some s') : s'.Tracked c := by
  rcases step_cases hs with he | ⟨fd, rfl, he⟩ | ⟨i, sent, target, packet, rfl, hi, rfl⟩ |
    ⟨t, call, rfl, hc, hp, rfl⟩ | ⟨t, call, rfl, hc, hp, rfl⟩ | ⟨t, call, rfl, hc, -, rfl⟩
  · exact h.ends he
  · exact h.accept hmax ha he
  · exact h.receive hi
  · exact h.enter hc hp
  · exact h.leave hc hp (ha call hc)
  · exact h.finish hc (ha call hc)

/-! ## releasing -/

/-- the reactor goes on with the close of a session: its packet is received, or its queue written -/
def GoesOn (s : Closing) (fd : Nat) : CloseAct → Prop
  | .receive i _ _ => s.toReactor[i]? = some (.close (s.conn fd).sessionId)
  | .write f _ _ => f = fd
  | _ => False

lemma queue_releases (ha : (s.conn fd).active = true) (hm : OutChunk.close ∈ (s.sockets fd).outBuffer) :
    ∃ (sents : List (Option Nat)) (s' : Closing),
      iter (step c) (sents.map fun sent => .write fd sent none) s = some s' ∧
      (s'.conn fd).active = false := by
  generalize hq : (s.sockets fd).outBuffer = queue at hm
  induction queue generalizing s with
  | nil => cases hm
  | cons chunk rest ih =>
    by_cases hforce : (c.disableNotify && (s.conn fd).closeForce) = true
    · refine ⟨[none], _, rfl, ?_⟩
      unfold onWrite
      rw [if_neg (ha ▸ Bool.noConfusion), if_pos hforce, release_conn, if_pos rfl]
    · cases chunk with
      | close =>
        refine ⟨[none], _, rfl, ?_⟩
        unfold onWrite
        rw [if_neg (ha ▸ Bool.noConfusion), if_neg hforce, hq]
        rw [release_conn, if_pos rfl]
      | data len offset =>
        have hrest : OutChunk.close ∈ rest := (mem_cons.1 hm).resolve_left fun he => OutChunk.noConfusion he
        have hwrite : s.onWrite c fd (some len) none =
            s.setSocket fd { s.sockets fd with outBuffer := rest } := by
          unfold onWrite
          rw [if_neg (ha ▸ Bool.noConfusion), if_neg hforce, hq]
          simp only [Nat.le_add_left, if_true]
        obtain ⟨sents, s', hs', hfree⟩ := ih (s := s.setSocket fd { s.sockets fd with outBuffer := rest }) ha
          (by show (update s.sockets fd _ fd).outBuffer = rest; rw [update_self]) hrest
        refine ⟨some len :: sents, s', ?_, hfree⟩
        show (some (s.onWrite c fd (some len) none)).bind _ = _
        rw [hwrite]
        exact hs'

lemma packet_releases (h : s.Sound c) (ha : (s.conn fd).active = true)
    (hm : ClosePacket.close (s.conn fd).sessionId ∈ s.toReactor) :
    ∃ as s', (∀ a ∈ as, s.GoesOn fd a) ∧ iter (step c) as s = some s' ∧ (s'.conn fd).active = false := by
  obtain ⟨i, hi⟩ := mem_iff_getElem?.1 hm
  let s₀ : Closing := { s with toReactor := s.toReactor.eraseIdx i }
  have hstep : s.step c (.receive i 0 none) = some (s₀.sendClose c (s.conn fd).sessionId) := by
    show s.toReactor[i]?.map _ = _
    rw [hi]
    rfl
  by_cases hfd : ((s₀.sendClose c (s.conn fd).sessionId).conn fd).active = true
  · obtain ⟨sents, s', hs', hfree⟩ :=
      queue_releases (c := c) hfd (sendClose_queued (h.erased i) (s := s₀) ha hfd).2
    refine ⟨.receive i 0 none :: sents.map fun sent => .write fd sent none, s',
      forall_mem_cons.2 ⟨hi, forall_mem_map.2 fun _ _ => rfl⟩, ?_, hfree⟩
    show (s.step c (.receive i 0 none)).bind _ = _
    rw [hstep]
    exact hs'
  · refine ⟨[.receive i 0 none], _, forall_mem_singleton.2 hi, ?_, Bool.of_not_eq_true hfd⟩
    show (s.step c (.receive i 0 none)).bind _ = _
    rw [hstep]
    rfl

lemma leave_verify (id : Int) : (s.leave t call).verify c id = s.verify c id := by
  refine congrArg _ (funext fun session => congrArg _ (funext fun fd => ?_))
  have hconn := leave_conn s t call fd
  have ha : ((s.leave t call).conn fd).active = (s.conn fd).active := by
    rw [hconn]
    by_cases hf : fd = call.conn
    · rw [if_pos hf, hf]
    · rw [if_neg hf]
  have hid : ((s.leave t call).conn fd).sessionId = (s.conn fd).sessionId := by
    rw [hconn]
    by_cases hf : fd = call.conn
    · rw [if_pos hf, hf]
    · rw [if_neg hf]
  show (if ((s.leave t call).conn fd).active = false then none
    else if session.id ≠ id ∨ ((s.leave t call).conn fd).sessionId ≠ id then none else some fd) = _
  rw [ha, hid]
  rfl

lemma leave_finish (hc : s.calls t = some call) (hp : call.phase = .calling)
    (hv : s.verify c call.id = some call.conn) :
    ∃ s', iter (step c) [.leave t, .finish t] s = some s' ∧ (s'.conn call.conn).closed = true ∧
      s'.toReactor = if (s.conn call.conn).overflow then s.toReactor
        else s.toReactor ++ [.close call.id] := by
  have hleave : s.step c (.leave t) = some (s.leave t call) := by
    show (s.callIn t .calling).map _ = _
    rw [callIn, hc, filter_some, if_pos (decide_eq_true hp)]
    rfl
  have hcall : (s.leave t call).calls t = some { call with phase := .marked } := update_self _ _ _
  have hfinish : (s.leave t call).step c (.finish t) =
      some (((s.leave t call).setCall t none).finishClose c call.id) := by
    show ((s.leave t call).callIn t .marked).map _ = _
    rw [callIn, hcall]
    rfl
  have hconn : ((s.leave t call).setCall t none).conn call.conn =
      { s.conn call.conn with closing := false, closed := true } :=
    (leave_conn s t call call.conn).trans (if_pos rfl)
  have hv' : ((s.leave t call).setCall t none).verify c call.id = some call.conn :=
    (leave_verify (t := t) call.id).trans hv
  have hk := finishClose_kept c ((s.leave t call).setCall t none) call.id
  refine ⟨((s.leave t call).setCall t none).finishClose c call.id, ?_, ?_, ?_⟩
  · show (s.step c (.leave t)).bind (fun s₁ => (s₁.step c (.finish t)).bind some) = _
    rw [hleave, bind_some, hfinish]
    rfl
  · rw [(hk.conn call.conn).closed, hconn]
  · by_cases ho : (s.conn call.conn).overflow = true
    · unfold finishClose
      simp only [hv', hconn, if_pos ho]
      rfl
    · rw [if_neg ho, finishClose_sent hv' (by rw [hconn]; exact Bool.of_not_eq_true ho)]
      rfl

end

/-- **A session that is marked closed is on its way to be released.** -/
theorem closed_released (c : CloseConfig) :
    (∀ (s : Closing) (t : Nat) (call : EndCall), s.calls t = some call → call.phase = .calling →
      s.verify c call.id = some call.conn → (s.conn call.conn).overflow = false →
      ∃ s', iter (step c) [.leave t, .finish t] s = some s' ∧
        (s'.conn call.conn).closed = true ∧ ClosePacket.close call.id ∈ s'.toReactor) ∧
    (c.maxConnection ≤ sessionListSize → ∀ (first : Int), 0 ≤ first → ∀ (as : List CloseAct) (s : Closing),
      Along (step c) (MarksOwn c) as (start first) →
      iter (step c) as (start first) = some s →
      ∀ fd, (s.conn fd).active = true → (s.conn fd).closed = true → s.Pending fd ∧
        ((∃ t call, s.calls t = some call ∧ call.phase = .marked ∧ call.id = (s.conn fd).sessionId) ∨
          ∃ bs s', (∀ b ∈ bs, s.GoesOn fd b) ∧ iter (step c) bs s = some s' ∧ (s'.conn fd).active = false)) := by
  refine ⟨?_, ?_⟩
  · intro s t call hc hp hv ho
    obtain ⟨s', hs', hclosed, hreactor⟩ := leave_finish hc hp hv
    rw [if_neg (ho ▸ Bool.false_ne_true)] at hreactor
    exact ⟨s', hs', hclosed, hreactor ▸ mem_append_right _ mem_cons_self⟩
  · intro hmax first hfirst as s has hs fd ha hd
    have h := iter_keeps (Tracked.step hmax) as has ⟨start_sound hfirst, nofun⟩ hs
    have hpend := h.pending fd ha hd
    refine ⟨hpend, ?_⟩
    rcases hpend with hcall | hp | ⟨-, hq⟩
    · exact .inl hcall
    · exact .inr (packet_releases h.sound ha hp)
    · obtain ⟨sents, s', hs', hfree⟩ := queue_releases (c := c) ha hq
      exact .inr ⟨sents.map fun sent => .write fd sent none, s', forall_mem_map.2 fun _ _ => rfl, hs', hfree⟩

/-- a worker closes a session after its output was written -/
theorem closed_released_run : ∃ s, iter (step twoWorkers)
        [.accept 1, .register 1 false, .send 1 5, .receive 0 0 none, .write 1 (some 5) none, .written 1,
          .close 0 (some 0) 0 1 false, .enter 0, .leave 0, .finish 0] (start 0) = some s ∧
      (s.conn 1).active = true ∧ (s.conn 1).closed = true ∧ s.Pending 1 := by
  refine exists_of_map (fun s => ((s.conn 1).active, (s.conn 1).closed))
    (show _ = some (true, true) by decide +kernel) fun s hs hflags => ?_
  obtain ⟨ha, hd⟩ := Prod.mk.inj hflags
  have := (closed_released twoWorkers).2 (by decide) 0 (by decide) _ s (by decide +kernel) hs 1 ha hd
  exact ⟨ha, hd, this.1⟩

/-- the queue of session 1 is full when `end` marks it: no packet is sent, and nothing happens later -/
theorem closed_stranded : (iter (step twoWorkers)
      [.accept 1, .register 1 false, .send 1 5, .receive 0 0 none, .send 1 5, .receive 0 0 none,
        .close 0 (some 0) 0 1 false, .enter 0, .leave 0, .finish 0,
        .write 1 (some 5) none, .write 1 (some 5) none, .written 1, .peer 1 (some 0),
        .close 0 (some 0) 0 1 false] (start 0)).map
      (fun s => (((s.conn 1).active, (s.conn 1).closed), s.toReactor, s.toWorker.isEmpty,
        (s.calls 0).isNone, (s.sockets 1).outBuffer)) =
      some ((true, true), [], true, true, []) := by
  decide +kernel

end Closing

end OSW
