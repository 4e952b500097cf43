import OpenSwoole.Server.Close

/-!
# Steps of closing sessions

A step of a worker or of the reactor keeps what is known of the sessions (`Kept`), or then releases one
(`Ends`); only `accept`, `enter`, `leave`, `finish` and a received packet do more.

* `Closing.Kept`   no session starts, ends or is marked;
* `Closing.step_cases`   **what a step can do**;
* `Closing.Sound`   the tables are good, and every id in use was given out.
-/

namespace OSW
open Function Option List

namespace Closing

/-! ## what most steps keep -/

/-- the same session in the same state; a queued close stays queued -/
structure SameSession (a b : Connection) : Prop where
  active : b.active = a.active
  sessionId : b.sessionId = a.sessionId
  closing : b.closing = a.closing
  closed : b.closed = a.closed
  closeQueued : a.closeQueued = true → b.closeQueued = true

lemma SameSession.refl (a : Connection) : SameSession a a := ⟨rfl, rfl, rfl, rfl, id⟩

structure Kept (s s' : Closing) : Prop where
  sessionList : s'.tables.sessionList = s.tables.sessionList
  sessionRound : s'.tables.sessionRound = s.tables.sessionRound
  conn : ∀ fd, SameSession (s.conn fd) (s'.conn fd)
  queue : ∀ fd, OutChunk.close ∈ (s.sockets fd).outBuffer → OutChunk.close ∈ (s'.sockets fd).outBuffer
  packet : ∀ id, ClosePacket.close id ∈ s.toReactor → ClosePacket.close id ∈ s'.toReactor
  call : ∀ t call, s.calls t = some call → s'.calls t = some call
  fresh : ∀ t call, s'.calls t = some call → s.calls t = some call ∨
    call.phase = .decided ∧ (s.conn call.conn).active = true ∧ (s.conn call.conn).sessionId = call.id
  callbacks : s'.callbacks = s.callbacks

lemma Kept.refl (s : Closing) : Kept s s :=
  ⟨rfl, rfl, fun _ => .refl _, fun _ h => h, fun _ h => h, fun _ _ h => h, fun _ _ h => .inl h, rfl⟩

variable {c : CloseConfig} {s s' s'' : Closing} {fd : Nat}

lemma Kept.trans (h : Kept s s') (h' : Kept s' s'') : Kept s s'' where
  sessionList := h'.sessionList.trans h.sessionList
  sessionRound := h'.sessionRound.trans h.sessionRound
  conn := fun fd =>
    ⟨(h'.conn fd).active.trans (h.conn fd).active, (h'.conn fd).sessionId.trans (h.conn fd).sessionId,
      (h'.conn fd).closing.trans (h.conn fd).closing, (h'.conn fd).closed.trans (h.conn fd).closed,
      fun hq => (h'.conn fd).closeQueued ((h.conn fd).closeQueued hq)⟩
  queue := fun fd hq => h'.queue fd (h.queue fd hq)
  packet := fun id hp => h'.packet id (h.packet id hp)
  call := fun t call hc => h'.call t call (h.call t call hc)
  fresh := by
    intro t call hc
    rcases h'.fresh t call hc with hc | ⟨hp, ha, hi⟩
    · exact h.fresh t call hc
    · rw [(h.conn _).active] at ha
      rw [(h.conn _).sessionId] at hi
      exact .inr ⟨hp, ha, hi⟩
  callbacks := h'.callbacks.trans h.callbacks

lemma Kept.setConn {conn : Connection} (h : SameSession (s.conn fd) conn) :
    Kept s (s.setConn fd conn) := by
  refine ⟨rfl, rfl, ?_, fun _ h => h, fun _ h => h, fun _ _ h => h, fun _ _ h => .inl h, rfl⟩
  intro f
  show SameSession _ (update s.tables.connectionList fd conn f)
  by_cases hf : f = fd
  · rw [hf, update_self]
    exact h
  · rw [update_of_ne hf]
    exact .refl _

lemma Kept.setSocket {socket : SessionSocket}
    (h : OutChunk.close ∈ (s.sockets fd).outBuffer → OutChunk.close ∈ socket.outBuffer) :
    Kept s (s.setSocket fd socket) := by
  refine ⟨rfl, rfl, fun _ => .refl _, ?_, fun _ h => h, fun _ _ h => h, fun _ _ h => .inl h, rfl⟩
  intro f
  show _ → OutChunk.close ∈ (update s.sockets fd socket f).outBuffer
  by_cases hf : f = fd
  · rw [hf, update_self]
    exact h
  · rw [update_of_ne hf]
    exact id

lemma Kept.toWorker (s : Closing) (events : List (Nat × Int)) : Kept s { s with toWorker := events } :=
  ⟨rfl, rfl, fun _ => .refl _, fun _ h => h, fun _ h => h, fun _ _ h => h, fun _ _ h => .inl h, rfl⟩

lemma Kept.toReactor (s : Closing) (packet : ClosePacket) :
    Kept s { s with toReactor := s.toReactor ++ [packet] } :=
  ⟨rfl, rfl, fun _ => .refl _, fun _ h => h, fun _ h => mem_append_left _ h, fun _ _ h => h,
    fun _ _ h => .inl h, rfl⟩

/-- a session that is kept, and then perhaps released -/
def Ends (c : CloseConfig) (s s' : Closing) : Prop :=
  Kept s s' ∨ ∃ s₁ fd, Kept s s₁ ∧ (s₁.conn fd).active = true ∧ s' = s₁.release c fd

lemma Kept.ends (h : Kept s s') : Ends c s s' := .inl h

lemma ends_release (h : (s.conn fd).active = true) :
    Ends c s (s.release c fd) := .inr ⟨s, fd, .refl s, h, rfl⟩

lemma Kept.ends_trans (h : Kept s s') (h' : Ends c s' s'') : Ends c s s'' := by
  rcases h' with h' | ⟨s₁, fd, h', ha, he⟩
  · exact .inl (h.trans h')
  · exact .inr ⟨s₁, fd, h.trans h', ha, he⟩

/-! ## the reactor -/

section
lemma dispatchClose_kept (s : Closing) (fd : Nat) (target : Option Nat) :
    Kept s (s.dispatchClose fd target) := by
  unfold dispatchClose
  cases target with
  | none => exact .refl s
  | some worker =>
    by_cases ha : (s.conn fd).active = false
    · simp only [if_pos ha]
      exact .refl s
    · by_cases hd : ((s.conn fd).closed && !(s.conn fd).closeForce) = true
      · simp only [if_neg ha, if_pos hd]
        exact .refl s
      · simp only [if_neg ha, if_neg hd]
        exact .toWorker s _

lemma onClose_ends (c : CloseConfig) (s : Closing) (fd : Nat) (target : Option Nat) :
    Ends c s (s.onClose c fd target) := by
  unfold onClose
  by_cases ha : (s.conn fd).active = false
  · rw [if_pos ha]
    exact .inl (.refl s)
  rw [if_neg ha]
  have hactive := Bool.of_not_eq_false ha
  by_cases hn : c.disableNotify = true
  · rw [if_pos hn]
    exact ends_release hactive
  rw [if_neg hn]
  by_cases hr : (s.sockets fd).removed = true
  · rw [if_pos hr]
    exact .inl (.refl s)
  rw [if_neg hr]
  have hdel : Kept s (s.setSocket fd { s.sockets fd with removed := true }) := .setSocket id
  refine hdel.ends_trans ?_
  dsimp only
  split
  · exact ends_release hactive
  · have hpeer : SameSession ((s.setSocket fd { s.sockets fd with removed := true }).conn fd)
        { (s.setSocket fd { s.sockets fd with removed := true }).conn fd with peerClosed := true } :=
      ⟨rfl, rfl, rfl, rfl, id⟩
    exact ((Kept.setConn hpeer).trans (dispatchClose_kept _ fd target)).ends

lemma setForce_kept (s : Closing) (fd : Nat) :
    Kept s (s.setConn fd { s.conn fd with closeForce := true }) :=
  .setConn ⟨rfl, rfl, rfl, rfl, id⟩

lemma timeout_ends (c : CloseConfig) (s : Closing) (fd : Nat) (target : Option Nat) :
    Ends c s (s.timeout c fd target) := by
  unfold timeout
  by_cases ha : (s.conn fd).active = false
  · rw [if_pos ha]
    exact .inl (.refl s)
  rw [if_neg ha]
  split
  · exact ends_release (Bool.of_not_eq_false ha)
  · exact (setForce_kept s fd).ends_trans (onClose_ends c _ fd target)

variable {id : Int} {t : Nat}

lemma verify_active (h : s.verify c id = some fd) :
    (s.conn fd).active = true ∧ (s.conn fd).sessionId = id := by
  obtain ⟨session, -, h⟩ := bind_eq_some_iff.1 h
  obtain ⟨conn, -, h⟩ := bind_eq_some_iff.1 h
  split at h
  · cases h
  · split at h
    · cases h
    · rename_i ha hne
      cases h
      exact ⟨Bool.of_not_eq_false ha, not_not.1 (not_or.1 hne).2⟩

section
variable (c) (s)

lemma closeForced_ends (id : Int) (target : Option Nat) : Ends c s (s.closeForced c id target) := by
  unfold closeForced
  cases hv : s.verify c id with
  | none => exact .inl (.refl s)
  | some fd =>
    dsimp only
    split
    · exact ends_release (verify_active hv).1
    · exact (setForce_kept s fd).ends_trans (onClose_ends c _ fd target)

lemma appendData_kept (fd len : Nat) : Kept s (s.appendData c fd len) := by
  unfold appendData
  split
  · exact .refl s
  · refine Kept.trans (.setConn ?_) (.setSocket fun h => mem_append_left _ h)
    exact ⟨rfl, rfl, rfl, rfl, id⟩

lemma sendData_kept (id : Int) (len sent : Nat) : Kept s (s.sendData c id len sent) := by
  unfold sendData
  cases s.verify c id with
  | none => exact .refl s
  | some fd =>
    dsimp only
    split
    · split
      · exact .refl s
      · exact appendData_kept c s fd _
    · exact appendData_kept c s fd _

lemma onWrite_ends (fd : Nat) (sent target : Option Nat) : Ends c s (s.onWrite c fd sent target) := by
  unfold onWrite
  by_cases ha : (s.conn fd).active = false
  · rw [if_pos ha]
    exact .inl (.refl s)
  have hactive := Bool.of_not_eq_false ha
  rw [if_neg ha]
  split
  · exact ends_release hactive
  · cases hb : (s.sockets fd).outBuffer with
    | nil => exact .inl (.refl s)
    | cons chunk rest =>
      cases chunk with
      | close => exact ends_release hactive
      | data len offset =>
        cases sent with
        | none => exact onClose_ends c s fd target
        | some n =>
          refine Kept.ends (.setSocket ?_)
          rw [hb]
          intro hm
          have hrest := (mem_cons.1 hm).resolve_left (fun he => OutChunk.noConfusion he)
          split
          · exact hrest
          · exact mem_cons_of_mem _ hrest

lemma written_kept (fd : Nat) : Kept s (s.written c fd) := by
  unfold written
  split
  · exact .setConn ⟨rfl, rfl, rfl, rfl, id⟩
  · exact .refl s

lemma sendClose_ends (id : Int) : Ends c s (s.sendClose c id) := by
  unfold sendClose
  cases hv : s.verify c id with
  | none => exact .inl (.refl s)
  | some fd =>
    dsimp only
    split
    · exact ends_release (verify_active hv).1
    · split
      · exact ends_release (verify_active hv).1
      · refine Kept.ends (.trans (.setConn ?_) (.setSocket fun h => mem_append_left _ h))
        exact ⟨rfl, rfl, rfl, rfl, fun _ => rfl⟩

lemma receive_ends (packet : ClosePacket) (sent : Nat) (target : Option Nat) :
    Ends c s (s.receive c packet sent target) := by
  cases packet with
  | data id len => exact .inl (sendData_kept c s id len sent)
  | close id => exact sendClose_ends c s id
  | closeForce id => exact closeForced_ends c s id target

end

/-! ## the workers -/

lemma setCall_kept {call : EndCall} (hnone : s.calls t = none) (hp : call.phase = .decided)
    (ha : (s.conn call.conn).active = true) (hi : (s.conn call.conn).sessionId = call.id) :
    Kept s (s.setCall t (some call)) := by
  refine ⟨rfl, rfl, fun _ => .refl _, fun _ h => h, fun _ h => h, ?_, ?_, rfl⟩
  · intro u x hx
    show update s.calls t (some call) u = some x
    have hu : u ≠ t := fun he => some_ne_none x (by rw [← hx, he, hnone])
    rw [update_of_ne hu]
    exact hx
  · intro u x hx
    have hx' : update s.calls t (some call) u = some x := hx
    by_cases hu : u = t
    · rw [hu, update_self] at hx'
      cases hx'
      exact .inr ⟨hp, ha, hi⟩
    · rw [update_of_ne hu] at hx'
      exact .inl hx'

lemma decideClose_kept (hnone : s.calls t = none) (ha : (s.conn fd).active = true)
    (hi : (s.conn fd).sessionId = id) : Kept s (s.decideClose t id fd) := by
  have hset : Kept s (s.setCall t (some ⟨id, fd, .decided⟩)) := setCall_kept hnone rfl ha hi
  unfold decideClose
  split
  · exact hset
  · split
    · exact .refl s
    · split
      · exact .refl s
      · exact hset

lemma begin_kept (c : CloseConfig) {s : Closing} (hnone : s.calls t = none) (self : Option Nat)
    (bound : Nat) (id : Int) (reset actively : Bool) :
    Kept s (s.begin c t self bound id reset actively) := by
  unfold begin
  cases hv : s.verify c id with
  | none => exact .refl s
  | some fd =>
    obtain ⟨ha, hi⟩ := verify_active hv
    have hflags : Kept s (s.setConn fd { s.conn fd with
        closeReset := (s.conn fd).closeReset || reset
        closeActively := (s.conn fd).closeActively || actively }) :=
      .setConn ⟨rfl, rfl, rfl, rfl, fun h => h⟩
    have hdecide : Kept (s.setConn fd { s.conn fd with
        closeReset := (s.conn fd).closeReset || reset
        closeActively := (s.conn fd).closeActively || actively }) ((s.setConn fd { s.conn fd with
        closeReset := (s.conn fd).closeReset || reset
        closeActively := (s.conn fd).closeActively || actively }).decideClose t id fd) :=
      decideClose_kept hnone ((hflags.conn fd).active.trans ha) ((hflags.conn fd).sessionId.trans hi)
    refine hflags.trans ?_
    dsimp only
    split
    · split
      · split
        · exact .toWorker _ _
        · exact hdecide
      · split
        · exact .toWorker _ _
        · exact hdecide
    · exact hdecide

lemma finishClose_kept (c : CloseConfig) (s : Closing) (id : Int) : Kept s (s.finishClose c id) := by
  unfold finishClose
  cases s.verify c id with
  | none => exact .refl s
  | some fd =>
    dsimp only
    split
    · exact .refl s
    · exact .toReactor s _

lemma finishData_kept (c : CloseConfig) (s : Closing) (id : Int) (len : Nat) :
    Kept s (s.finishData c id len) := by
  unfold finishData
  split
  · exact .refl s
  · cases s.verify c id with
    | none => exact .refl s
    | some fd =>
      dsimp only
      split
      · exact .refl s
      · split
        · exact .refl s
        · exact .toReactor s _

end

/-! ## one step -/

lemma callIn_eq {t : Nat} {phase : EndPhase} {call : EndCall} (h : s.callIn t phase = some call) :
    s.calls t = some call ∧ call.phase = phase := by
  obtain ⟨hc, hp⟩ := filter_eq_some_iff.1 h
  exact ⟨hc, of_decide_eq_true hp⟩

lemma step_cases {a : CloseAct} (h : s.step c a = some s') : Ends c s s' ∨
    (∃ fd, a = .accept fd ∧ s.accept c fd = some s') ∨
    (∃ i sent target packet, a = .receive i sent target ∧ s.toReactor[i]? = some packet ∧
      s' = { s with toReactor := s.toReactor.eraseIdx i }.receive c packet sent target) ∨
    (∃ t call, a = .enter t ∧ s.calls t = some call ∧ call.phase = .decided ∧ s' = s.enter t call) ∨
    (∃ t call, a = .leave t ∧ s.calls t = some call ∧ call.phase = .calling ∧ s' = s.leave t call) ∨
    ∃ t call, a = .finish t ∧ s.calls t = some call ∧ call.phase = .marked ∧
      s' = (s.setCall t none).finishClose c call.id := by
  cases a with
  | accept fd => exact .inr (.inl ⟨fd, rfl, h⟩)
  | register fd removed =>
    obtain ⟨-, rfl⟩ := ite_some_none_eq_some.1 h
    exact .inl (.inl (.setSocket id))
  | peer fd target => exact some.inj h ▸ .inl (onClose_ends c s fd target)
  | timeout fd target => exact some.inj h ▸ .inl (timeout_ends c s fd target)
  | heartbeat fd =>
    obtain ⟨-, rfl⟩ := ite_some_none_eq_some.1 h
    exact .inl (.inl (.toReactor s _))
  | receive i sent target =>
    obtain ⟨packet, hi, h⟩ := map_eq_some_iff.1 h
    exact .inr (.inr (.inl ⟨i, sent, target, packet, rfl, hi, h.symm⟩))
  | write fd sent target => exact some.inj h ▸ .inl (onWrite_ends c s fd sent target)
  | written fd => exact some.inj h ▸ .inl (.inl (written_kept c s fd))
  | close t self bound id reset =>
    obtain ⟨hnone, rfl⟩ := ite_some_none_eq_some.1 h
    exact .inl (.inl (begin_kept c hnone self bound id reset true))
  | take i t bound =>
    obtain ⟨hnone, h⟩ := ite_none_right_eq_some.1 h
    obtain ⟨event, -, rfl⟩ := map_eq_some_iff.1 h
    have htaken : { s with toWorker := s.toWorker.eraseIdx i }.calls t = none := hnone
    exact .inl (.inl ((Kept.toWorker s _).trans (begin_kept c htaken _ bound _ false false)))
  | mark fd =>
    obtain ⟨-, rfl⟩ := ite_some_none_eq_some.1 h
    exact .inl (.inl (setForce_kept s fd))
  | enter t =>
    obtain ⟨call, hc, h⟩ := map_eq_some_iff.1 h
    exact .inr (.inr (.inr (.inl ⟨t, call, rfl, (callIn_eq hc).1, (callIn_eq hc).2, h.symm⟩)))
  | leave t =>
    obtain ⟨call, hc, h⟩ := map_eq_some_iff.1 h
    exact .inr (.inr (.inr (.inr (.inl ⟨t, call, rfl, (callIn_eq hc).1, (callIn_eq hc).2, h.symm⟩))))
  | finish t =>
    obtain ⟨call, hc, h⟩ := map_eq_some_iff.1 h
    exact .inr (.inr (.inr (.inr (.inr ⟨t, call, rfl, (callIn_eq hc).1, (callIn_eq hc).2, h.symm⟩))))
  | send id len => exact some.inj h ▸ .inl (.inl (finishData_kept c s id len))

/-! ## the tables -/

structure Sound (c : CloseConfig) (s : Closing) : Prop where
  good : s.tables.Good c.maxConnection
  calls : ∀ t call, s.calls t = some call → 0 < call.id ∧ call.id ≤ s.tables.sessionRound
  callbacks : ∀ id ∈ s.callbacks, id ≤ s.tables.sessionRound

/-- the next session id is not at the end of its range -/
def Room (c : CloseConfig) (s : Closing) : Prop := s.tables.sessionRound + c.maxConnection < 2^63

instance (c : CloseConfig) (s : Closing) : Decidable (Room c s) := inferInstanceAs (Decidable (_ < _))

def twoWorkers : CloseConfig := ⟨8, 2, false, false, 1, 100⟩

lemma start_sound {first : Int} (h : 0 ≤ first) : (start first).Sound c where
  good := SessionTables.new_good _ h 0 0
  calls := fun _ _ hc => absurd hc.symm (some_ne_none _)
  callbacks := nofun

lemma Sound.congr (h : s.Sound c) (hl : s'.tables.sessionList = s.tables.sessionList)
    (hr : s'.tables.sessionRound = s.tables.sessionRound)
    (hc : ∀ fd, (s'.conn fd).active = (s.conn fd).active ∧ (s'.conn fd).sessionId = (s.conn fd).sessionId)
    (hcalls : ∀ t call, s'.calls t = some call → 0 < call.id ∧ call.id ≤ s.tables.sessionRound)
    (hcb : ∀ id ∈ s'.callbacks, id ≤ s.tables.sessionRound) : s'.Sound c where
  good := h.good.congr hr hl fun fd => ⟨(hc fd).1, fun _ => (hc fd).2⟩
  calls := hr ▸ hcalls
  callbacks := hr ▸ hcb

variable {t : Nat} {call : EndCall}

lemma Sound.id_bounds (h : s.Sound c) (ha : (s.conn fd).active = true) :
    0 < (s.conn fd).sessionId ∧ (s.conn fd).sessionId ≤ s.tables.sessionRound :=
  ⟨(h.good.conn fd ha).2.2.1, (h.good.conn fd ha).2.2.2.1⟩

lemma Sound.conn_inj (h : s.Sound c) {a b : Nat} (ha : (s.conn a).active = true)
    (hb : (s.conn b).active = true) (he : (s.conn a).sessionId = (s.conn b).sessionId) : a = b :=
  h.good.index_inj ha hb (congrArg (fun id => (SessionTables.sessionIndex id).toNat) he)

lemma Sound.verify_eq (h : s.Sound c) (ha : (s.conn fd).active = true) :
    s.verify c (s.conn fd).sessionId = some fd :=
  (h.good.getConnectionVerify_iff (h.id_bounds ha).1 fd).2 ⟨ha, rfl⟩

lemma Sound.kept (h : s.Sound c) (hk : Kept s s') : s'.Sound c := by
  refine h.congr hk.sessionList hk.sessionRound
    (fun fd => ⟨(hk.conn fd).active, (hk.conn fd).sessionId⟩) ?_ (hk.callbacks ▸ h.callbacks)
  intro t call hc
  rcases hk.fresh t call hc with hc | ⟨-, ha, hi⟩
  · exact h.calls t call hc
  · exact hi ▸ h.id_bounds ha

lemma release_conn (s : Closing) (fd f : Nat) :
    (s.release c fd).conn f = if f = fd then {} else s.conn f := by
  show (s.tables.closeConnection c.maxConnection fd).connectionList f = _
  rw [SessionTables.closeConnection_connectionList, update_apply]
  rfl

lemma release_active {f : Nat} (ha : ((s.release c fd).conn f).active = true) :
    f ≠ fd ∧ (s.release c fd).conn f = s.conn f := by
  rw [release_conn] at ha ⊢
  split at ha
  · cases ha
  · rename_i hf
    exact ⟨hf, if_neg hf⟩

section
variable (h : s.Sound c)
include h

lemma Sound.release (ha : (s.conn fd).active = true) : (s.release c fd).Sound c where
  good := h.good.closed ha
  calls := (SessionTables.closeConnection_sessionRound c.maxConnection s.tables fd).symm ▸ h.calls
  callbacks := (SessionTables.closeConnection_sessionRound c.maxConnection s.tables fd).symm ▸ h.callbacks

lemma Sound.ends (he : Ends c s s') : s'.Sound c := by
  rcases he with hk | ⟨s₁, fd, hk, ha, rfl⟩
  · exact h.kept hk
  · exact (h.kept hk).release ha

lemma Sound.accept (hmax : c.maxConnection ≤ sessionListSize) (hroom : Room c s)
    (ha : s.accept c fd = some s') :
    s'.Sound c ∧ (∃ id, s.tables.sessionRound < id ∧
      ∀ f, s'.conn f = if f = fd then { active := true, fd := fd, sessionId := id } else s.conn f) ∧
      (∀ f, f ≠ fd → s'.sockets f = s.sockets f) ∧ s'.toReactor = s.toReactor ∧ s'.calls = s.calls ∧
      s'.callbacks = s.callbacks := by
  obtain ⟨⟨h1, h2, hfd⟩, ha⟩ := ite_none_right_eq_some.1 ha
  obtain ⟨id, t', hadd, hid, -, hgood, hround, hconn⟩ := h.good.addConnection_spec hmax h1 h2 hfd hroom
  cases ha
  rw [hadd]
  refine ⟨⟨hgood, ?_, ?_⟩, ⟨id, hid, ?_⟩, ?_, rfl, rfl, rfl⟩
  · intro t call hc
    have := h.calls t call hc
    exact ⟨this.1, by show call.id ≤ t'.sessionRound; omega⟩
  · intro x hx
    have := h.callbacks x hx
    show x ≤ t'.sessionRound
    omega
  · intro f
    show t'.connectionList f = _
    rw [hconn, update_apply]
    rfl
  · intro f hf
    exact update_of_ne hf _ _

lemma Sound.erased (i : Nat) : { s with toReactor := s.toReactor.eraseIdx i }.Sound c := { h with }

lemma Sound.returned (t : Nat) : (s.setCall t none).Sound c := by
  refine ⟨h.good, ?_, h.callbacks⟩
  intro u call hc
  have hc' : update s.calls t none u = some call := hc
  rw [update_apply] at hc'
  split at hc'
  · cases hc'
  · exact h.calls u call hc'

end

variable (h : s.Sound c) (hc : s.calls t = some call)
include h hc

lemma Sound.marked {call' : EndCall} {conn : Connection} {callbacks : List Int} (hid : call'.id = call.id)
    (ha : conn.active = (s.conn call.conn).active) (hi : conn.sessionId = (s.conn call.conn).sessionId)
    (hcb : ∀ id ∈ callbacks, id ≤ s.tables.sessionRound) :
    { (s.setConn call.conn conn).setCall t (some call') with callbacks := callbacks }.Sound c := by
  refine h.congr rfl rfl ?_ ?_ hcb
  · intro fd
    show (update s.tables.connectionList call.conn conn fd).active = _ ∧
      (update s.tables.connectionList call.conn conn fd).sessionId = _
    by_cases hf : fd = call.conn
    · rw [hf, update_self]
      exact ⟨ha, hi⟩
    · rw [update_of_ne hf]
      exact ⟨rfl, rfl⟩
  · intro u x hx
    have hx' : update s.calls t (some call') u = some x := hx
    by_cases hu : u = t
    · rw [hu, update_self] at hx'
      rw [← some.inj hx', hid]
      exact h.calls t call hc
    · rw [update_of_ne hu] at hx'
      exact h.calls u x hx'

lemma Sound.enter : (s.enter t call).Sound c := by
  refine h.marked hc rfl rfl rfl ?_
  intro id hid
  rcases mem_append.1 hid with hid | hid
  · exact h.callbacks id hid
  · rw [mem_singleton.1 hid]
    exact (h.calls t call hc).2

lemma Sound.leave : (s.leave t call).Sound c := h.marked hc rfl rfl rfl h.callbacks

end Closing

end OSW
