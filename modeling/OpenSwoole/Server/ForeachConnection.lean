import OpenSwoole.Server.Sessions

/-!
# Enumerating connections

`Server::foreach_connection` of `src/server/master.cc` looks at the descriptors from `min_fd` to `max_fd`.  The
two bounds are in memory that all processes share.  The connection list is shared too in process mode, where the
master has all connections; in BASE mode every process has its own.  `add_connection` and `close_connection` are
those of `Server.Sessions`, on what one process sees.  Descriptor 0 is not a connection.

The field `live` is a record: the open connections.
-/

namespace OSW
open Function Machine List Option

/-! ## the loop -/

namespace SessionTables

/-- `is_valid_connection(get_connection(fd))`; a connection is active from when it has a socket -/
def isValidConnection (maxConn : Nat) (t : SessionTables) (fd : Nat) : Bool :=
  match getConnection maxConn fd with
  | none => false
  | some conn => (t.connectionList conn).active

/-- the next `n` descriptors from `fd`; the bound is read again each time -/
def visit (maxConn : Nat) (closes : Nat → Bool) : Nat → Nat → SessionTables → List Nat × SessionTables
  | 0, _, t => ([], t)
  | n + 1, fd, t =>
    if fd ≤ t.maxFd then
      if t.isValidConnection maxConn fd then
        let t := if closes fd then t.closeConnection maxConn fd else t
        (fd :: (visit maxConn closes n (fd + 1) t).1, (visit maxConn closes n (fd + 1) t).2)
      else visit maxConn closes n (fd + 1) t
    else ([], t)

/-- the connections that `foreach_connection` calls back for, and what it leaves -/
def foreachConnection (maxConn : Nat) (closes : Nat → Bool) (t : SessionTables) : List Nat × SessionTables :=
  t.visit maxConn closes (t.maxFd + 1 - t.minFd) t.minFd

end SessionTables

/-! ## start-up -/

inductive StartAct where
  /-- `store_pipe_fd`, for one of its descriptors -/
  | pipe (fd : Nat)
  /-- `store_listen_socket`, for one port -/
  | listen (fd : Nat)
  /-- `init_signal_handler`, where `signal_fd` is 0 yet -/
  | signal

def StartAct.apply (bounds : Nat × Nat) : StartAct → Nat × Nat
  | .pipe fd => if fd > bounds.2 then (bounds.1, fd) else bounds
  | .listen fd => (fd, fd)
  | .signal => (0, bounds.2)

/-- `min_fd` and `max_fd` behind start-up -/
def startUp (acts : List StartAct) : Nat × Nat := acts.foldl StartAct.apply (0, 0)

/-! ## processes -/

structure Fleet where
  sessionList : Nat → Session
  sessionRound : Int
  minFd : Nat
  maxFd : Nat
  /-- by process -/
  connectionList : Nat → Nat → Connection
  live : Nat → List Nat

/-- the server: `base` is `is_base_mode()` -/
structure FleetConfig where
  base : Bool
  workerNum : Nat
  maxConnection : Nat

/-- the connection list of a process; in process mode there is one -/
def FleetConfig.list (c : FleetConfig) (process : Nat) : Nat := if c.base then process else 0

namespace Fleet

def start (id : Int) (acts : List StartAct) : Fleet :=
  ⟨fun _ => ⟨0, 0⟩, id, (startUp acts).1, (startUp acts).2, fun _ _ => {}, fun _ => []⟩

def view (s : Fleet) (k : Nat) : SessionTables :=
  ⟨s.sessionList, s.connectionList k, s.sessionRound, s.minFd, s.maxFd⟩

def put (s : Fleet) (k : Nat) (t : SessionTables) (live : List Nat) : Fleet :=
  ⟨t.sessionList, t.sessionRound, t.minFd, t.maxFd,
    update s.connectionList k t.connectionList, update s.live k live⟩

def accept (c : FleetConfig) (s : Fleet) (k fd : Nat) : Fleet :=
  match (s.view k).addConnection c.maxConnection fd with
  | (.found _, t) => s.put k t (fd :: s.live k)
  | (_, t) => s.put k t (s.live k)

def close (c : FleetConfig) (s : Fleet) (k fd : Nat) : Fleet :=
  s.put k ((s.view k).closeConnection c.maxConnection fd) ((s.live k).filter (· ≠ fd))

def step (c : FleetConfig) : Nat × SessionAct → Fleet → Option Fleet
  | (p, .accept fd), s =>
    if p < c.workerNum ∧ 1 ≤ fd ∧ fd < c.maxConnection ∧
      fd ∉ s.live (c.list p) then some (s.accept c (c.list p) fd)
    else none
  | (p, .close fd del), s =>
    if p < c.workerNum ∧ fd ∈ s.live (c.list p) then some (if del then s.close c (c.list p) fd else s) else none

/-- the connection `f` of another process is not above what is left to the process that closes `fd` -/
def Covered (s : Fleet) (k fd f : Nat) : Prop := (f ≤ s.minFd ∧ f < fd) ∨ ∃ g ∈ s.live k, g ≠ fd ∧ f ≤ g

/-- in BASE mode, a process closes `max_fd` only if the connections of the others are covered -/
def Careful (c : FleetConfig) : Nat × SessionAct → Fleet → Prop
  | (p, .close fd true), s =>
    c.base = true → fd = s.maxFd → ∀ q < c.workerNum, q ≠ p → ∀ f ∈ s.live q, s.Covered p fd f
  | _, _ => True

instance (s : Fleet) (k fd f : Nat) : Decidable (s.Covered k fd f) := inferInstanceAs (Decidable (_ ∨ _))

instance (c : FleetConfig) (e : Nat × SessionAct) (s : Fleet) : Decidable (Careful c e s) := by
  unfold Careful
  split <;> infer_instance

end Fleet

/-! ## what the loop visits -/

namespace SessionTables

variable {maxConn : Nat} {t : SessionTables}

lemma isValidConnection_iff {fd : Nat} :
    t.isValidConnection maxConn fd = true ↔ fd ≤ maxConn ∧ (t.connectionList fd).active = true := by
  unfold isValidConnection getConnection
  by_cases h : fd > maxConn
  · rw [if_pos h]
    exact ⟨nofun, fun hf => absurd hf.1 (by omega)⟩
  · rw [if_neg h]
    exact ⟨fun hf => ⟨by omega, hf⟩, And.right⟩

lemma closeConnection_minFd (fd : Nat) : (t.closeConnection maxConn fd).minFd = t.minFd := by
  unfold closeConnection
  dsimp only
  split <;> rfl

lemma findMaxFd_setSession (i : Nat) (session : Session) (n : Nat) :
    (t.setSession i session).findMaxFd maxConn n = t.findMaxFd maxConn n := by
  induction n with
  | zero => rfl
  | succ n ih =>
    unfold findMaxFd
    rw [ih]
    rfl

lemma closeConnection_maxFd (maxConn : Nat) (t : SessionTables) (fd : Nat) :
    (t.closeConnection maxConn fd).maxFd =
      if fd = t.maxFd then t.findMaxFd maxConn (fd - 1) else t.maxFd := by
  unfold closeConnection
  dsimp only
  by_cases h : fd = t.maxFd
  · rw [if_pos h, if_pos (show fd = (t.setSession _ _).maxFd from h), findMaxFd_setSession]
    rfl
  · rw [if_neg h, if_neg (show ¬ fd = (t.setSession _ _).maxFd from h)]
    rfl

lemma findMaxFd_spec (maxConn : Nat) (t : SessionTables) (n : Nat) :
    min t.minFd n ≤ t.findMaxFd maxConn n ∧
      ∀ f ≤ n, f ≤ maxConn → (t.connectionList f).active = true → f ≤ t.findMaxFd maxConn n := by
  induction n with
  | zero => exact ⟨min_le_right _ _, fun f hf _ _ => hf⟩
  | succ n ih =>
    have hstep : t.findMaxFd maxConn (n + 1) =
        if !t.isValidConnection maxConn (n + 1) && n + 1 > t.minFd then t.findMaxFd maxConn n else n + 1 := rfl
    rw [hstep]
    split
    · rename_i hskip
      obtain ⟨hinvalid, hlt⟩ := Bool.and_eq_true_iff.1 hskip
      have hlt : n + 1 > t.minFd := of_decide_eq_true hlt
      obtain ⟨hmin, hbelow⟩ := ih
      refine ⟨by omega, fun f hf hmax hactive => ?_⟩
      by_cases hn : f = n + 1
      · rw [hn] at hmax hactive
        rw [isValidConnection_iff.2 ⟨hmax, hactive⟩] at hinvalid
        cases hinvalid
      · exact hbelow f (by omega) hmax hactive
    · exact ⟨min_le_right _ _, fun f hf _ _ => hf⟩

def Between (maxConn : Nat) (t : SessionTables) : Prop :=
  ∀ f, (t.connectionList f).active = true → t.minFd ≤ f ∧ f ≤ t.maxFd ∧ f ≤ maxConn

lemma visit_eq (closes : Nat → Bool) (n fd : Nat)
    (h : ∀ f, fd ≤ f → (t.connectionList f).active = true → f ≤ t.maxFd ∧ f ≤ maxConn) :
    (t.visit maxConn closes n fd).1 = (range' fd n).filter fun f => (t.connectionList f).active := by
  induction n generalizing fd t with
  | zero => rfl
  | succ n ih =>
    have hrest : ∀ t' : SessionTables, (∀ f, fd < f → t'.connectionList f = t.connectionList f ∧
        (f ≤ t.maxFd → f ≤ t'.maxFd)) →
        (t'.visit maxConn closes n (fd + 1)).1 =
          (range' (fd + 1) n).filter fun f => (t.connectionList f).active := by
      intro t' ht'
      rw [ih (fd + 1) fun f hf hactive => ?_]
      · refine filter_congr fun f hf => ?_
        rw [(ht' f (mem_range'_1.1 hf).1).1]
      · rw [(ht' f hf).1] at hactive
        obtain ⟨hle, hmax⟩ := h f (by omega) hactive
        exact ⟨(ht' f hf).2 hle, hmax⟩
    rw [range'_succ, filter_cons, visit]
    by_cases hfd : fd ≤ t.maxFd
    · rw [if_pos hfd]
      by_cases hactive : (t.connectionList fd).active = true
      · have hvalid := isValidConnection_iff.2 ⟨(h fd le_rfl hactive).2, hactive⟩
        rw [if_pos hvalid, if_pos hactive]
        refine congrArg (fd :: ·) (hrest _ fun f hf => ?_)
        split
        · rw [closeConnection_connectionList, update_of_ne (ne_of_gt hf), closeConnection_maxFd]
          refine ⟨rfl, fun hle => ?_⟩
          rw [if_neg (by omega)]
          exact hle
        · exact ⟨rfl, id⟩
      · have hinvalid : ¬ t.isValidConnection maxConn fd = true :=
          fun hf => hactive (isValidConnection_iff.1 hf).2
        rw [if_neg hinvalid, if_neg hactive]
        exact hrest t fun _ _ => ⟨rfl, id⟩
    · have hnone : ∀ f, fd ≤ f → ¬ (t.connectionList f).active = true := by
        intro f hf hactive
        have := (h f hf hactive).1
        omega
      rw [if_neg hfd, if_neg (hnone fd le_rfl), filter_eq_nil_iff.2]
      exact fun f hf => hnone f (by have := (mem_range'_1.1 hf).1; omega)

section
variable (h : t.Between maxConn) (closes : Nat → Bool)
include h closes

lemma Between.foreachConnection_eq : (t.foreachConnection maxConn closes).1 =
      (range' t.minFd (t.maxFd + 1 - t.minFd)).filter fun f => (t.connectionList f).active :=
  visit_eq closes _ _ fun f _ hactive => (h f hactive).2

lemma Between.nodup_foreachConnection : (t.foreachConnection maxConn closes).1.Nodup := by
  rw [h.foreachConnection_eq closes]
  exact (nodup_range' ..).filter _

lemma Between.mem_foreachConnection (f : Nat) :
    f ∈ (t.foreachConnection maxConn closes).1 ↔ (t.connectionList f).active = true := by
  rw [h.foreachConnection_eq closes, mem_filter, mem_range'_1]
  constructor
  · exact And.right
  · intro hactive
    have := h f hactive
    exact ⟨by omega, hactive⟩

end

/-! ## the bounds -/

lemma addConnection_frame (maxConn : Nat) (t : SessionTables) (fd : Nat) :
    ((t.addConnection maxConn fd).2.minFd = (t.noteFd fd).minFd ∧
      (t.addConnection maxConn fd).2.maxFd = (t.noteFd fd).maxFd) ∧
    ∃ conn, (t.addConnection maxConn fd).2.connectionList = update t.connectionList fd conn ∧
      (conn.active = true ↔ ∃ id, (t.addConnection maxConn fd).1 = .found id) := by
  obtain ⟨minFd, maxFd, he⟩ := noteFd_eq t fd
  unfold addConnection
  rw [he]
  dsimp only
  split
  · exact ⟨⟨rfl, rfl⟩, _, update_idem .., fun _ => ⟨_, rfl⟩, fun _ => rfl⟩
  · rename_i hslot
    exact ⟨⟨rfl, rfl⟩, _, rfl, nofun, fun ⟨id, hid⟩ => absurd hid (hslot id)⟩

lemma noteFd_bounds (t : SessionTables) (hmin : t.minFd ≤ t.maxFd + 1) (fd : Nat) :
    (t.noteFd fd).minFd ≤ (t.noteFd fd).maxFd + 1 ∧ (t.noteFd fd).minFd ≤ fd ∧ fd ≤ (t.noteFd fd).maxFd ∧
      (t.noteFd fd).minFd ≤ t.minFd ∧ t.maxFd ≤ (t.noteFd fd).maxFd := by
  unfold noteFd
  split
  · dsimp only
    omega
  · split
    · dsimp only
      omega
    · omega

end SessionTables

lemma startUp_le (acts : List StartAct) : (startUp acts).1 ≤ (startUp acts).2 := by
  refine foldl_spec (g := fun a b => StartAct.apply b a) (A := fun _ => True) (J := fun b => b.1 ≤ b.2) ?_ acts
    (fun _ _ => trivial) le_rfl
  intro act bounds _ h
  cases act with
  | pipe fd =>
    show (if fd > bounds.2 then (bounds.1, fd) else bounds).1 ≤
      (if fd > bounds.2 then (bounds.1, fd) else bounds).2
    split
    · exact le_trans h (le_of_lt ‹_›)
    · exact h
  | listen fd => exact le_rfl
  | signal => exact Nat.zero_le _

/-! ## runs -/

namespace Fleet

/-- the connections of every list are its active entries, and between the bounds -/
structure Sound (c : FleetConfig) (s : Fleet) : Prop where
  order : s.minFd ≤ s.maxFd + 1
  active : ∀ k f, (s.connectionList k f).active = true ↔ f ∈ s.live k
  bounds : ∀ k, ∀ f ∈ s.live k, s.minFd ≤ f ∧ f ≤ s.maxFd ∧ f ≤ c.maxConnection
  owner : ∀ k, s.live k ≠ [] → k < c.workerNum ∧ (c.base = false → k = 0)

variable {c : FleetConfig} {s s' : Fleet}

lemma Sound.between (h : s.Sound c) (k : Nat) : (s.view k).Between c.maxConnection :=
  fun f hf => h.bounds k f ((h.active k f).1 hf)

lemma sound_start (id : Int) (acts : List StartAct) : (start id acts).Sound c where
  order := Nat.le_succ_of_le (startUp_le acts)
  active _ _ := ⟨nofun, nofun⟩
  bounds _ _ h := absurd h not_mem_nil
  owner _ h := absurd rfl h

lemma Sound.put (h : s.Sound c) {k : Nat} {t : SessionTables} {live : List Nat} (horder : t.minFd ≤ t.maxFd + 1)
    (hactive : ∀ f, (t.connectionList f).active = true ↔ f ∈ live)
    (hself : ∀ f ∈ live, t.minFd ≤ f ∧ f ≤ t.maxFd ∧ f ≤ c.maxConnection)
    (hother : ∀ q, q ≠ k → ∀ f ∈ s.live q, t.minFd ≤ f ∧ f ≤ t.maxFd)
    (howner : live ≠ [] → k < c.workerNum ∧ (c.base = false → k = 0)) : (s.put k t live).Sound c := by
  refine ⟨horder, fun q f => ?_, fun q f hf => ?_, fun q hq => ?_⟩
  · show (update s.connectionList k t.connectionList q f).active = true ↔ f ∈ update s.live k live q
    by_cases he : q = k
    · rw [he, update_self, update_self]
      exact hactive f
    · rw [update_of_ne he, update_of_ne he]
      exact h.active q f
  · change f ∈ update s.live k live q at hf
    by_cases he : q = k
    · rw [he, update_self] at hf
      exact hself f hf
    · rw [update_of_ne he] at hf
      obtain ⟨hmin, hmax⟩ := hother q he f hf
      exact ⟨hmin, hmax, (h.bounds q f hf).2.2⟩
  · change update s.live k live q ≠ [] at hq
    by_cases he : q = k
    · rw [he, update_self] at hq
      exact he ▸ howner hq
    · rw [update_of_ne he] at hq
      exact h.owner q hq

lemma owner_list {p : Nat} (hp : p < c.workerNum) :
    c.list p < c.workerNum ∧ (c.base = false → c.list p = 0) := by
  unfold FleetConfig.list
  cases c.base with
  | true => exact ⟨hp, fun h => absurd h.symm Bool.false_ne_true⟩
  | false => exact ⟨lt_of_le_of_lt (Nat.zero_le p) hp, fun _ => rfl⟩

section
variable (h : s.Sound c) {k fd : Nat} (howner : k < c.workerNum ∧ (c.base = false → k = 0))
  (hfd : fd < c.maxConnection) (hnew : fd ∉ s.live k)
include h howner hfd hnew

lemma Sound.accepted {t : SessionTables} {conn : Connection} {live : List Nat}
    (hmin : t.minFd = ((s.view k).noteFd fd).minFd) (hmax : t.maxFd = ((s.view k).noteFd fd).maxFd)
    (hlist : t.connectionList = update (s.connectionList k) fd conn)
    (hlive : ∀ f, f ∈ live ↔ (conn.active = true ∧ f = fd) ∨ f ∈ s.live k) : (s.put k t live).Sound c := by
  obtain ⟨horder, hge, hle, hlower, hupper⟩ := (s.view k).noteFd_bounds h.order fd
  rw [← hmin, ← hmax] at horder
  rw [← hmin] at hge hlower
  rw [← hmax] at hle hupper
  have hwider : ∀ q, ∀ f ∈ s.live q, t.minFd ≤ f ∧ f ≤ t.maxFd ∧ f ≤ c.maxConnection := by
    intro q f hf
    obtain ⟨hf1, hf2, hf3⟩ := h.bounds q f hf
    exact ⟨le_trans hlower hf1, le_trans hf2 hupper, hf3⟩
  refine h.put horder (fun f => ?_) (fun f hf => ?_) (fun q _ f hf => ?_) (fun _ => howner)
  · rw [hlist, hlive]
    by_cases he : f = fd
    · rw [he, update_self]
      exact ⟨fun hactive => .inl ⟨hactive, rfl⟩, fun hor => (hor.resolve_right hnew).1⟩
    · rw [update_of_ne he]
      exact ⟨fun hactive => .inr ((h.active k f).1 hactive),
        fun hor => (h.active k f).2 (hor.resolve_left fun ha => he ha.2)⟩
  · rcases (hlive f).1 hf with ⟨-, he⟩ | hf
    · rw [he]
      exact ⟨hge, hle, le_of_lt hfd⟩
    · exact hwider k f hf
  · obtain ⟨hf1, hf2, -⟩ := hwider q f hf
    exact ⟨hf1, hf2⟩

lemma Sound.accept : (s.accept c k fd).Sound c := by
  obtain ⟨⟨hmin, hmax⟩, conn, hlist, hfound⟩ := (s.view k).addConnection_frame c.maxConnection fd
  unfold Fleet.accept
  split
  · rename_i id t hadd
    rw [hadd] at hmin hmax hlist hfound
    refine h.accepted howner hfd hnew hmin hmax hlist fun f => ?_
    rw [mem_cons, hfound.2 ⟨id, rfl⟩]
    exact or_congr (iff_and_self.2 fun _ => rfl) Iff.rfl
  · rename_i slot t hslot hadd
    rw [hadd] at hmin hmax hlist hfound
    refine h.accepted howner hfd hnew hmin hmax hlist fun f => ?_
    have hnot : ¬ (conn.active = true ∧ f = fd) := by
      rintro ⟨hactive, -⟩
      obtain ⟨id, hid⟩ := hfound.1 hactive
      exact hslot id hid
    exact (or_iff_right hnot).symm

end

lemma Sound.close (h : s.Sound c) {k fd : Nat} (hfd : fd ∈ s.live k)
    (hother : fd = s.maxFd → ∀ q, q ≠ k → ∀ f ∈ s.live q, s.Covered k fd f) : (s.close c k fd).Sound c := by
  have hbound := h.bounds k fd hfd
  have hmin : ((s.view k).closeConnection c.maxConnection fd).minFd = s.minFd :=
    SessionTables.closeConnection_minFd fd
  have hmax := (s.view k).closeConnection_maxFd c.maxConnection fd
  obtain ⟨hspec, hbelow⟩ := (s.view k).findMaxFd_spec c.maxConnection (fd - 1)
  change min s.minFd (fd - 1) ≤ _ at hspec
  -- what is left to the process that closes `max_fd` is still below the bound
  have hleft : fd = s.maxFd → ∀ f ∈ s.live k, f ≠ fd → f ≤ (s.view k).findMaxFd c.maxConnection (fd - 1) := by
    intro he f hf hne
    obtain ⟨-, hf2, hf3⟩ := h.bounds k f hf
    exact hbelow f (by omega) hf3 ((h.active k f).2 hf)
  refine h.put ?_ (fun f => ?_) (fun f hf => ?_) (fun q hq f hf => ⟨hmin ▸ (h.bounds q f hf).1, ?_⟩)
    (fun _ => h.owner k (ne_nil_of_mem hfd))
  · rw [hmin, hmax]
    split
    · omega
    · exact h.order
  · rw [SessionTables.closeConnection_connectionList, mem_filter]
    by_cases he : f = fd
    · rw [he, update_self]
      exact ⟨nofun, fun hc => absurd rfl (of_decide_eq_true hc.2)⟩
    · rw [update_of_ne he]
      exact ⟨fun hc => ⟨(h.active k f).1 hc, decide_eq_true he⟩, fun hc => (h.active k f).2 hc.1⟩
  · obtain ⟨hlive, hne⟩ := mem_filter.1 hf
    obtain ⟨hf1, hf2, hf3⟩ := h.bounds k f hlive
    refine ⟨hmin ▸ hf1, ?_, hf3⟩
    rw [hmax]
    split
    · rename_i he
      exact hleft he f hlive (of_decide_eq_true hne)
    · exact hf2
  · rw [hmax]
    split
    · rename_i he
      rcases hother he q hq f hf with ⟨hle, hlt⟩ | ⟨g, hg, hne, hle⟩
      · omega
      · exact le_trans hle (hleft he g hg hne)
    · exact (h.bounds q f hf).2.1

lemma Sound.step (h : s.Sound c) {e : Nat × SessionAct} (he : Careful c e s)
    (hstep : Fleet.step c e s = some s') : s'.Sound c := by
  obtain ⟨p, act⟩ := e
  cases act with
  | accept fd =>
    obtain ⟨⟨hp, _, hfd, hnew⟩, hs'⟩ := ite_none_right_eq_some.1 hstep
    exact some.inj hs' ▸ h.accept (owner_list hp) hfd hnew
  | close fd del =>
    obtain ⟨⟨hp, hfd⟩, hs'⟩ := ite_none_right_eq_some.1 hstep
    cases hs'
    cases del with
    | false => exact h
    | true =>
      refine h.close hfd fun hlast q hq f hf => ?_
      obtain ⟨hlt, hzero⟩ := h.owner q (ne_nil_of_mem hf)
      cases hbase : c.base with
      | true =>
        have hlist : c.list p = p := if_pos hbase
        rw [hlist] at hq ⊢
        exact he hbase hlast q hlt hq f hf
      | false => exact absurd ((hzero hbase).trans ((owner_list hp).2 hbase).symm) hq

/-- **Every connection is visited once**, if in BASE mode no process closes `max_fd` while another has a
connection above all that are left to it. -/
theorem foreach_visits_live (c : FleetConfig) (id : Int) (acts : List StartAct)
    {events : List (Nat × SessionAct)} (hevents : Along (Fleet.step c) (Careful c) events (start id acts))
    (hrun : iter (Fleet.step c) events (start id acts) = some s) (p : Nat) (closes : Nat → Bool) :
    ((s.view (c.list p)).foreachConnection c.maxConnection closes).1.Nodup ∧
      ∀ fd, fd ∈ ((s.view (c.list p)).foreachConnection c.maxConnection closes).1 ↔ fd ∈ s.live (c.list p) := by
  have hs : s.Sound c := iter_keeps (fun _ _ _ he h hstep => h.step he hstep) events hevents
    (sound_start id acts) hrun
  have hbetween := hs.between (c.list p)
  refine ⟨hbetween.nodup_foreachConnection closes, fun fd => ?_⟩
  exact (hbetween.mem_foreachConnection closes fd).trans (hs.active _ fd)

theorem foreach_visits_live_two : ∃ s, iter (Fleet.step ⟨true, 2, 16⟩)
    [(0, .accept 7), (1, .accept 5), (1, .accept 7), (0, .accept 9), (0, .close 9 true)]
      (start 0 [.listen 3, .signal]) = some s ∧ ((s.view 1).foreachConnection 16 fun _ => true).1.Nodup ∧
      7 ∈ ((s.view 1).foreachConnection 16 fun _ => true).1 := by
  refine exists_of_map (fun s => s.live 1) (show _ = some [7, 5] by decide +kernel) fun s hs hlive => ?_
  obtain ⟨hnodup, hmem⟩ := foreach_visits_live ⟨true, 2, 16⟩ 0 [.listen 3, .signal]
    (by decide +kernel) hs 1 fun _ => true
  refine ⟨hnodup, (hmem 7).2 ?_⟩
  show 7 ∈ s.live 1
  rw [hlive]
  exact mem_cons_self

/-- the first of two workers in BASE mode moves the bound below the connection of the second -/
theorem live_skipped : (iter (Fleet.step ⟨true, 2, 16⟩)
    [(1, .accept 8), (0, .accept 9), (0, .close 9 true)] (start 0 [.listen 3])).map
      (fun s => (s.live 1, ((s.view 1).foreachConnection 16 fun _ => false).1)) = some ([8], []) := by
  decide +kernel

end Fleet

end OSW
