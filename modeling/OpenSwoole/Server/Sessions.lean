import Mathlib.Algebra.Order.Group.Nat
import Mathlib.Order.Interval.Finset.Nat
import OpenSwoole.Core.Integers
import OpenSwoole.Lib.Machine

/-!
# Session ids

`Server::add_connection` of `src/server/master.cc`, `Server::close_connection` of
`src/server/reactor_thread.cc` and the lookups of `include/openswoole_server.h`, in process mode and
without TLS.  A connection is named by its descriptor, the index into `connection_list`; a session by
its id, a `long`, which also picks the entry of `session_list`.  Statistics, the port and the socket itself are
left out, and so is `reactor_id`, which none of the lookups reads.

The fields `given` and `live` of a run are records: the ids handed out, and the open connections with
their ids.

* `SessionTables.addConnection`   takes the next id whose entry is free;
* `findSlot_found`   **there is a free entry**: more entries are tried than connections can be open;
* `session_ids_unambiguous`   **what an id stands for, in every run**, as long as ids fit into a `long`.
-/

namespace OSW
open Function Core Machine

/-! ## the tables -/

def sessionListSize : Nat := 1024 * 1024

structure Session where
  id : Int
  fd : Nat

structure Connection where
  active : Bool := false
  fd : Nat := 0
  sessionId : Int := 0
  overflow : Bool := false
  closeActively : Bool := false
  closed : Bool := false
  closeQueued : Bool := false
  closing : Bool := false
  closeReset : Bool := false
  peerClosed : Bool := false
  closeForce : Bool := false

structure SessionTables where
  sessionList : Nat → Session
  connectionList : Nat → Connection
  sessionRound : Int
  minFd : Nat
  maxFd : Nat

/-- what `add_connection` finds in the session list; `outside` is an entry with a negative index -/
inductive Slot where
  | found (id : Int)
  | full
  | outside

namespace SessionTables

/-- zeroed shared memory, and the value of `set_start_session_id` -/
def new (start : Int) (minFd maxFd : Nat) : SessionTables :=
  ⟨fun _ => ⟨0, 0⟩, fun _ => {}, start, minFd, maxFd⟩

/-- `session_id % OSW_SESSION_LIST_SIZE`; the sign is that of the id -/
def sessionIndex (id : Int) : Int := id.tmod sessionListSize

def getSession (t : SessionTables) (id : Int) : Option Session :=
  if 0 ≤ sessionIndex id then some (t.sessionList (sessionIndex id).toNat) else none

/-- `get_connection`: an address in `connection_list` -/
def getConnection (maxConn fd : Nat) : Option Nat := if fd > maxConn then none else some fd

/-- `get_connection_verify`; `get_connection_verify_no_ssl` is the same without TLS -/
def getConnectionVerify (maxConn : Nat) (t : SessionTables) (id : Int) : Option Nat := do
  let session ← t.getSession id
  let conn ← getConnection maxConn session.fd
  if (t.connectionList conn).active = false then none
  else if session.id ≠ id ∨ (t.connectionList conn).sessionId ≠ id then none
  else some conn

/-! ## accepting -/

/-- the descriptors that `connection_list` is used for -/
def noteFd (t : SessionTables) (fd : Nat) : SessionTables :=
  if fd > t.maxFd then { t with maxFd := fd }
  else if fd < t.minFd then { t with minFd := fd }
  else t

/-- the loop over `max_connection` ids -/
def findSlot (t : SessionTables) : Nat → Int → Slot
  | 0, _ => .full
  | n + 1, id =>
    let id := int64 (id + 1)
    match t.getSession id with
    | none => .outside
    | some session => if session.fd = 0 then .found id else t.findSlot n id

def setConnection (t : SessionTables) (fd : Nat) (conn : Connection) : SessionTables :=
  { t with connectionList := update t.connectionList fd conn }

def setSession (t : SessionTables) (i : Nat) (session : Session) : SessionTables :=
  { t with sessionList := update t.sessionList i session }

def addConnection (maxConn fd : Nat) (t : SessionTables) : Slot × SessionTables :=
  let t := (t.noteFd fd).setConnection fd {}
  match t.findSlot maxConn t.sessionRound with
  | .found id =>
    (.found id, { (t.setSession (sessionIndex id).toNat ⟨id, fd⟩).setConnection fd
      { active := true, fd := fd, sessionId := id } with sessionRound := id })
  | slot => (slot, t)

/-! ## closing -/

/-- the search for the new `max_fd`, from `fd` down -/
def findMaxFd (maxConn : Nat) (t : SessionTables) : Nat → Nat
  | 0 => 0
  | fd + 1 =>
    let valid := match getConnection maxConn (fd + 1) with
      | none => false
      | some conn => (t.connectionList conn).active
    if !valid && fd + 1 > t.minFd then t.findMaxFd maxConn fd else fd + 1

/-- `close_connection` once the socket is out of the reactor -/
def closeConnection (maxConn fd : Nat) (t : SessionTables) : SessionTables :=
  let id := (t.connectionList fd).sessionId
  let t := t.setSession (sessionIndex id).toNat { t.sessionList (sessionIndex id).toNat with fd := 0 }
  let t := if fd = t.maxFd then { t with maxFd := t.findMaxFd maxConn (fd - 1) } else t
  t.setConnection fd {}

end SessionTables

/-! ## runs -/

structure SessionRun where
  tables : SessionTables
  given : List Int
  live : List (Int × Nat)

/-- the kernel gives out a descriptor; a connection is closed, `del` is the result of
`reactor->del` -/
inductive SessionAct where
  | accept (fd : Nat)
  | close (fd : Nat) (del : Bool)

namespace SessionRun

def start (id : Int) (minFd maxFd : Nat) : SessionRun := ⟨.new id minFd maxFd, [], []⟩

def Open (s : SessionRun) (fd : Nat) : Prop := ∃ p ∈ s.live, p.2 = fd

instance (s : SessionRun) (fd : Nat) : Decidable (s.Open fd) :=
  inferInstanceAs (Decidable (∃ p ∈ s.live, _))

def Free (maxConn : Nat) (s : SessionRun) (fd : Nat) : Prop := 1 ≤ fd ∧ fd < maxConn ∧ ¬ s.Open fd

instance (maxConn : Nat) (s : SessionRun) (fd : Nat) : Decidable (s.Free maxConn fd) :=
  inferInstanceAs (Decidable (_ ∧ _ ∧ _))

def step (maxConn : Nat) : SessionAct → SessionRun → Option SessionRun
  | .accept fd, s =>
    if s.Free maxConn fd then
      match s.tables.addConnection maxConn fd with
      | (.found id, t) => some ⟨t, s.given ++ [id], s.live ++ [(id, fd)]⟩
      | (_, t) => some { s with tables := t }
    else none
  | .close fd del, s =>
    if s.Open fd then
      if del then
        some { s with tables := s.tables.closeConnection maxConn fd,
                      live := s.live.filter fun p => p.2 ≠ fd }
      else some s
    else none

/-- the ids that `add_connection` may try fit into a `long` -/
def Room (maxConn : Nat) : SessionAct → SessionRun → Prop
  | .accept _, s => s.tables.sessionRound + maxConn < 2^63
  | .close _ _, _ => True

instance (maxConn : Nat) (a : SessionAct) (s : SessionRun) : Decidable (Room maxConn a s) := by
  cases a <;> dsimp only [Room] <;> infer_instance

end SessionRun

/-! ## entries and connections -/

namespace SessionTables

variable {id : Int}

lemma sessionIndex_eq (h : 0 ≤ id) : sessionIndex id = id % sessionListSize :=
  Int.tmod_eq_emod_of_nonneg h

lemma getSession_eq (t : SessionTables) (h : 0 ≤ id) :
    t.getSession id = some (t.sessionList (sessionIndex id).toNat) := by
  refine if_pos ?_
  rw [sessionIndex_eq h]
  exact Int.emod_nonneg _ (by decide)

lemma sessionIndex_inj (h : 0 ≤ id) {j k : Nat} (hj : j < sessionListSize)
    (hk : k < sessionListSize) (he : (sessionIndex (id + j)).toNat = (sessionIndex (id + k)).toNat) :
    j = k := by
  rw [sessionIndex_eq (by omega), sessionIndex_eq (by omega)] at he
  unfold sessionListSize at *
  omega

/-- every entry in use belongs to an open connection, and every open connection to its entry -/
structure Good (maxConn : Nat) (t : SessionTables) : Prop where
  round : 0 ≤ t.sessionRound
  entry : ∀ i, (t.sessionList i).fd ≠ 0 → (t.connectionList (t.sessionList i).fd).active = true ∧
      (sessionIndex (t.connectionList (t.sessionList i).fd).sessionId).toNat = i
  conn : ∀ fd, (t.connectionList fd).active = true →
    1 ≤ fd ∧ fd < maxConn ∧ 0 < (t.connectionList fd).sessionId ∧
      (t.connectionList fd).sessionId ≤ t.sessionRound ∧
      t.sessionList (sessionIndex (t.connectionList fd).sessionId).toNat =
        ⟨(t.connectionList fd).sessionId, fd⟩

lemma new_good (maxConn : Nat) {start : Int} (h : 0 ≤ start) (minFd maxFd : Nat) :
    Good maxConn (new start minFd maxFd) where
  round := h
  entry := fun _ hi => absurd rfl hi
  conn := nofun

variable {maxConn : Nat} {t t' : SessionTables}

lemma Good.congr (h : Good maxConn t) (hr : t'.sessionRound = t.sessionRound)
    (hs : t'.sessionList = t.sessionList)
    (hc : ∀ fd, (t'.connectionList fd).active = (t.connectionList fd).active ∧
      ((t.connectionList fd).active = true →
        (t'.connectionList fd).sessionId = (t.connectionList fd).sessionId)) :
    Good maxConn t' where
  round := hr ▸ h.round
  entry := by
    intro i hi
    rw [hs] at hi ⊢
    obtain ⟨ha, hx⟩ := h.entry i hi
    rw [(hc _).1, (hc _).2 ha]
    exact ⟨ha, hx⟩
  conn := by
    intro fd ha
    rw [(hc fd).1] at ha
    rw [(hc fd).2 ha, hs, hr]
    exact h.conn fd ha

lemma Good.index_inj (h : Good maxConn t) {a b : Nat}
    (ha : (t.connectionList a).active = true) (hb : (t.connectionList b).active = true)
    (he : (sessionIndex (t.connectionList a).sessionId).toNat =
      (sessionIndex (t.connectionList b).sessionId).toNat) : a = b := by
  obtain ⟨-, -, -, -, ea⟩ := h.conn a ha
  obtain ⟨-, -, -, -, eb⟩ := h.conn b hb
  rw [he] at ea
  exact (Session.mk.inj (ea.symm.trans eb)).2

variable {fd : Nat}

/-- **the lookup finds exactly the open connections** -/
theorem Good.getConnectionVerify_iff (h : Good maxConn t) (hid : 0 < id) (fd : Nat) :
    t.getConnectionVerify maxConn id = some fd ↔
      (t.connectionList fd).active = true ∧ (t.connectionList fd).sessionId = id := by
  unfold getConnectionVerify
  rw [getSession_eq t (le_of_lt hid)]
  show ((getConnection maxConn (t.sessionList (sessionIndex id).toNat).fd).bind fun conn => _) = _ ↔ _
  constructor
  · intro he
    obtain ⟨conn, hconn, he⟩ := Option.bind_eq_some_iff.1 he
    split at he
    · cases he
    · split at he
      · cases he
      · rename_i ha hne
        cases he
        exact ⟨Bool.of_not_eq_false ha, not_not.1 (not_or.1 hne).2⟩
  · rintro ⟨ha, rfl⟩
    obtain ⟨-, hlt, -, -, he⟩ := h.conn fd ha
    rw [he]
    have hconn : getConnection maxConn fd = some fd := if_neg (by omega)
    simp only [hconn, Option.bind_some, ha, Bool.true_eq_false, if_false, ne_eq, not_true_eq_false, or_self]

lemma noteFd_eq (t : SessionTables) (fd : Nat) : ∃ minFd maxFd,
    t.noteFd fd = { t with minFd := minFd, maxFd := maxFd } := by
  unfold noteFd
  by_cases h1 : fd > t.maxFd
  · exact ⟨_, _, by rw [if_pos h1]⟩
  · by_cases h2 : fd < t.minFd
    · exact ⟨_, _, by rw [if_neg h1, if_pos h2]⟩
    · exact ⟨_, _, by rw [if_neg h1, if_neg h2]⟩

lemma Good.cleared (h : Good maxConn t) (hfd : (t.connectionList fd).active = false) :
    Good maxConn ((t.noteFd fd).setConnection fd {}) := by
  obtain ⟨minFd, maxFd, he⟩ := noteFd_eq t fd
  rw [he]
  refine h.congr rfl rfl fun f => ?_
  show (update t.connectionList fd {} f).active = _ ∧ (_ → (update t.connectionList fd {} f).sessionId = _)
  by_cases hf : f = fd
  · rw [hf, update_self, hfd]
    exact ⟨rfl, nofun⟩
  · rw [update_of_ne hf]
    exact ⟨rfl, fun _ => rfl⟩

lemma findSlot_first (hi : 0 ≤ sessionIndex (int64 (id + 1)))
    (hfree : (t.sessionList (sessionIndex (int64 (id + 1))).toNat).fd = 0) (n : Nat) :
    t.findSlot (n + 1) id = .found (int64 (id + 1)) := by
  have hs : t.getSession (int64 (id + 1)) = some _ := if_pos hi
  unfold findSlot
  simp only [hs, hfree, if_true]

lemma findSlot_cases (t : SessionTables) {n : Nat} (h0 : 0 ≤ id) (hlt : id + n < 2^63) :
    (∃ k : Nat, k < n ∧ t.findSlot n id = .found (id + 1 + k) ∧
      (t.sessionList (sessionIndex (id + 1 + k)).toNat).fd = 0) ∨
    ∀ k : Nat, k < n → (t.sessionList (sessionIndex (id + 1 + k)).toNat).fd ≠ 0 := by
  induction n generalizing id with
  | zero => exact .inr fun k hk => absurd hk (Nat.not_lt_zero k)
  | succ n ih =>
    have hid : int64 (id + 1) = id + 1 := int64_of_lt (by omega) (by omega)
    unfold findSlot
    simp only [hid, getSession_eq t (show 0 ≤ id + 1 by omega)]
    by_cases hfree : (t.sessionList (sessionIndex (id + 1)).toNat).fd = 0
    · left
      refine ⟨0, Nat.succ_pos n, ?_, ?_⟩
      · rw [if_pos hfree]
        simp
      · simpa using hfree
    · rw [if_neg hfree]
      have hshift : ∀ k : Nat, id + 1 + 1 + k = id + 1 + (k + 1 : Nat) := by
        intro k
        omega
      rcases @ih (id + 1) (by omega) (by omega) with ⟨k, hk, hf, hz⟩ | hall
      · rw [hshift] at hf hz
        exact .inl ⟨k + 1, by omega, hf, hz⟩
      · right
        intro k hk
        cases k with
        | zero => simpa using hfree
        | succ k =>
          rw [← hshift]
          exact hall k (by omega)

lemma Good.findSlot_found (h : Good maxConn t) (hpos : 0 < maxConn)
    (hmax : maxConn ≤ sessionListSize) (hlt : t.sessionRound + maxConn < 2^63) :
    ∃ k : Nat, k < maxConn ∧ t.findSlot maxConn t.sessionRound = .found (t.sessionRound + 1 + k) ∧
      (t.sessionList (sessionIndex (t.sessionRound + 1 + k)).toNat).fd = 0 := by
  refine (findSlot_cases t h.round hlt).resolve_right fun hall => ?_
  let fdOf (k : Nat) : Nat := (t.sessionList (sessionIndex (t.sessionRound + 1 + k)).toNat).fd
  have hmaps : ∀ k ∈ Finset.range maxConn, fdOf k ∈ Finset.Ico 1 maxConn := by
    intro k hk
    have hne := hall k (Finset.mem_range.1 hk)
    have hc := h.conn _ (h.entry _ hne).1
    exact Finset.mem_Ico.2 ⟨hc.1, hc.2.1⟩
  have hcard : (Finset.Ico 1 maxConn).card < (Finset.range maxConn).card := by
    rw [Nat.card_Ico, Finset.card_range]
    omega
  obtain ⟨j, hj, k, hk, hjk, he⟩ := Finset.exists_ne_map_eq_of_card_lt_of_maps_to hcard hmaps
  rw [Finset.mem_range] at hj hk
  refine hjk (@sessionIndex_inj (t.sessionRound + 1) ?_ j k (by omega) (by omega) ?_)
  · have := h.round
    omega
  · have ej := (h.entry _ (hall j hj)).2
    have ek := (h.entry _ (hall k hk)).2
    have he' : (t.sessionList (sessionIndex (t.sessionRound + 1 + j)).toNat).fd =
      (t.sessionList (sessionIndex (t.sessionRound + 1 + k)).toNat).fd := he
    rw [he'] at ej
    exact ej.symm.trans ek

lemma Good.insert (h : Good maxConn t) (h1 : 1 ≤ fd) (h2 : fd < maxConn)
    (hfd : (t.connectionList fd).active = false) (hid : t.sessionRound < id)
    (hfree : (t.sessionList (sessionIndex id).toNat).fd = 0) (hr : t'.sessionRound = id)
    (hs : t'.sessionList = update t.sessionList (sessionIndex id).toNat ⟨id, fd⟩)
    (hc : t'.connectionList = update t.connectionList fd { active := true, fd := fd, sessionId := id }) :
    Good maxConn t' := by
  have hround := h.round
  refine ⟨by omega, ?_, ?_⟩
  · intro i hne
    rw [hs] at hne ⊢
    rw [hc]
    by_cases hi : i = (sessionIndex id).toNat
    · rw [hi, update_self, update_self]
      exact ⟨rfl, rfl⟩
    · rw [update_of_ne hi] at hne ⊢
      obtain ⟨ha, hx⟩ := h.entry i hne
      have hother : (t.sessionList i).fd ≠ fd := by
        intro he
        rw [he, hfd] at ha
        exact Bool.false_ne_true ha
      rw [update_of_ne hother]
      exact ⟨ha, hx⟩
  · intro f ha
    rw [hc] at ha ⊢
    rw [hs, hr]
    by_cases hf : f = fd
    · rw [hf, update_self, update_self]
      exact ⟨h1, h2, by show (0 : Int) < id; omega, le_rfl, rfl⟩
    · rw [update_of_ne hf] at ha ⊢
      obtain ⟨c1, c2, c3, c4, c5⟩ := h.conn f ha
      have hother : (sessionIndex (t.connectionList f).sessionId).toNat ≠ (sessionIndex id).toNat := by
        intro he
        rw [he] at c5
        rw [c5] at hfree
        exact absurd (show f = 0 from hfree) (by omega)
      rw [update_of_ne hother]
      exact ⟨c1, c2, c3, by omega, c5⟩

/-- **a descriptor that is not in use gets the next free id** -/
theorem Good.addConnection_spec (h : Good maxConn t) (hmax : maxConn ≤ sessionListSize) (h1 : 1 ≤ fd)
    (h2 : fd < maxConn) (hfd : (t.connectionList fd).active = false) (hlt : t.sessionRound + maxConn < 2^63) :
    ∃ id t', t.addConnection maxConn fd = (.found id, t') ∧ t.sessionRound < id ∧
      id ≤ t.sessionRound + maxConn ∧ Good maxConn t' ∧ t'.sessionRound = id ∧
      t'.connectionList = update t.connectionList fd { active := true, fd := fd, sessionId := id } := by
  have hg := h.cleared hfd
  obtain ⟨minFd, maxFd, he⟩ := noteFd_eq t fd
  generalize hn : (t.noteFd fd).setConnection fd {} = n at hg
  have hround : n.sessionRound = t.sessionRound := by
    rw [← hn, he]
    rfl
  have hconn : n.connectionList = update t.connectionList fd {} := by
    rw [← hn, he]
    rfl
  obtain ⟨k, hk, hf, hfree⟩ := hg.findSlot_found (by omega) hmax (by rwa [hround])
  have hclear : (n.connectionList fd).active = false := by rw [hconn, update_self]
  unfold addConnection
  simp only [hn, hf]
  refine ⟨_, _, rfl, by omega, by omega, hg.insert h1 h2 hclear (by omega) hfree rfl rfl rfl, rfl, ?_⟩
  show update n.connectionList fd _ = _
  rw [hconn, update_idem]

section
variable (maxConn) (t) (fd)

lemma closeConnection_sessionList : (t.closeConnection maxConn fd).sessionList =
      update t.sessionList (sessionIndex (t.connectionList fd).sessionId).toNat
        { t.sessionList (sessionIndex (t.connectionList fd).sessionId).toNat with fd := 0 } := by
  unfold closeConnection
  dsimp only
  split <;> rfl

lemma closeConnection_sessionRound : (t.closeConnection maxConn fd).sessionRound = t.sessionRound := by
  unfold closeConnection
  dsimp only
  split <;> rfl

lemma closeConnection_connectionList :
    (t.closeConnection maxConn fd).connectionList = update t.connectionList fd {} := by
  unfold closeConnection
  dsimp only
  split <;> rfl

end

lemma Good.closed (h : Good maxConn t) (hfd : (t.connectionList fd).active = true) :
    Good maxConn (t.closeConnection maxConn fd) := by
  let i := (sessionIndex (t.connectionList fd).sessionId).toNat
  have hs : (t.closeConnection maxConn fd).sessionList =
      update t.sessionList i { t.sessionList i with fd := 0 } := closeConnection_sessionList _ _ _
  have hr := closeConnection_sessionRound maxConn t fd
  have hc := closeConnection_connectionList maxConn t fd
  refine ⟨hr ▸ h.round, ?_, ?_⟩
  · intro j hj
    rw [hs] at hj ⊢
    rw [hc]
    by_cases hji : j = i
    · rw [hji, update_self] at hj
      exact absurd rfl hj
    · rw [update_of_ne hji] at hj ⊢
      obtain ⟨ha, hx⟩ := h.entry j hj
      have hother : (t.sessionList j).fd ≠ fd := by
        intro he
        rw [he] at hx
        exact hji hx.symm
      rw [update_of_ne hother]
      exact ⟨ha, hx⟩
  · intro f ha
    rw [hc] at ha ⊢
    by_cases hf : f = fd
    · rw [hf, update_self] at ha
      cases ha
    · rw [update_of_ne hf] at ha ⊢
      obtain ⟨c1, c2, c3, c4, c5⟩ := h.conn f ha
      have hother : (sessionIndex (t.connectionList f).sessionId).toNat ≠ i :=
        fun he => hf (h.index_inj ha hfd he)
      rw [hs, hr, update_of_ne hother]
      exact ⟨c1, c2, c3, c4, c5⟩

end SessionTables

/-! ## whole runs -/

namespace SessionRun

/-- the records of the run are what the tables hold -/
structure Inv (maxConn : Nat) (s : SessionRun) : Prop where
  good : s.tables.Good maxConn
  increasing : s.given.Pairwise (· < ·)
  bounded : ∀ id ∈ s.given, id ≤ s.tables.sessionRound
  live : ∀ id fd, (id, fd) ∈ s.live ↔
    (s.tables.connectionList fd).active = true ∧ (s.tables.connectionList fd).sessionId = id

variable {maxConn fd : Nat} {s : SessionRun}

lemma Inv.open_iff (h : s.Inv maxConn) (fd : Nat) :
    s.Open fd ↔ (s.tables.connectionList fd).active = true := by
  constructor
  · rintro ⟨⟨id, f⟩, hp, rfl⟩
    exact ((h.live id f).1 hp).1
  · intro ha
    exact ⟨(_, fd), (h.live _ fd).2 ⟨ha, rfl⟩, rfl⟩

lemma Inv.inactive (h : s.Inv maxConn) (hfd : s.Free maxConn fd) :
    (s.tables.connectionList fd).active = false :=
  Bool.of_not_eq_true fun ha => hfd.2.2 ((h.open_iff fd).2 ha)

lemma start_inv (maxConn : Nat) {id : Int} (h : 0 ≤ id) (minFd maxFd : Nat) :
    (start id minFd maxFd).Inv maxConn where
  good := SessionTables.new_good maxConn h minFd maxFd
  increasing := List.Pairwise.nil
  bounded := nofun
  live := fun _ _ => ⟨nofun, fun hc => absurd hc.1 Bool.false_ne_true⟩

lemma Inv.accept (h : s.Inv maxConn) (hmax : maxConn ≤ sessionListSize)
    (hfd : s.Free maxConn fd) (hroom : s.tables.sessionRound + maxConn < 2^63) :
    ∃ id t, s.tables.addConnection maxConn fd = (.found id, t) ∧
      Inv maxConn ⟨t, s.given ++ [id], s.live ++ [(id, fd)]⟩ := by
  have hin := h.inactive hfd
  obtain ⟨id, t, he, hlt, -, hg, hr, hc⟩ := h.good.addConnection_spec hmax hfd.1 hfd.2.1 hin hroom
  refine ⟨id, t, he, hg, ?_, ?_, ?_⟩
  · refine List.pairwise_append.2 ⟨h.increasing, List.pairwise_singleton _ _, ?_⟩
    intro a ha b hb
    have := h.bounded a ha
    rw [List.mem_singleton.1 hb]
    omega
  · intro a ha
    rw [hr]
    rcases List.mem_append.1 ha with ha | ha
    · have := h.bounded a ha
      omega
    · rw [List.mem_singleton.1 ha]
  · intro a f
    rw [hc, List.mem_append, List.mem_singleton, h.live a f, Prod.mk.injEq]
    by_cases hf : f = fd
    · rw [hf, update_self, hin]
      constructor
      · rintro (⟨ha, -⟩ | ⟨rfl, -⟩)
        · cases ha
        · exact ⟨rfl, rfl⟩
      · rintro ⟨-, rfl⟩
        exact .inr ⟨rfl, rfl⟩
    · rw [update_of_ne hf]
      exact ⟨fun hp => hp.resolve_right fun hp => hf hp.2, .inl⟩

lemma Inv.close (h : s.Inv maxConn) (hfd : s.Open fd) :
    Inv maxConn { s with tables := s.tables.closeConnection maxConn fd,
                               live := s.live.filter fun p => p.2 ≠ fd } := by
  have hr := SessionTables.closeConnection_sessionRound maxConn s.tables fd
  have hc := SessionTables.closeConnection_connectionList maxConn s.tables fd
  refine ⟨h.good.closed ((h.open_iff fd).1 hfd), h.increasing, fun id hid => hr.symm ▸ h.bounded id hid, ?_⟩
  intro id f
  rw [hc, List.mem_filter, h.live id f, decide_eq_true_eq]
  by_cases hf : f = fd
  · rw [hf, update_self]
    exact ⟨fun hp => absurd rfl hp.2, fun hp => absurd hp.1 Bool.false_ne_true⟩
  · rw [update_of_ne hf]
    exact ⟨And.left, fun hp => ⟨hp, hf⟩⟩

lemma Inv.step {s' : SessionRun} (h : s.Inv maxConn) (hmax : maxConn ≤ sessionListSize) {a : SessionAct}
    (hroom : Room maxConn a s) (hs : SessionRun.step maxConn a s = some s') : s'.Inv maxConn := by
  cases a with
  | accept fd =>
    by_cases hfd : s.Free maxConn fd
    · obtain ⟨id, t, he, hinv⟩ := h.accept hmax hfd hroom
      simp only [SessionRun.step, if_pos hfd, he] at hs
      exact Option.some.inj hs ▸ hinv
    · simp only [SessionRun.step, if_neg hfd] at hs
      cases hs
  | close fd del =>
    by_cases hfd : s.Open fd
    · simp only [SessionRun.step, if_pos hfd] at hs
      by_cases hdel : del = true
      · rw [if_pos hdel] at hs
        exact Option.some.inj hs ▸ h.close hfd
      · rw [if_neg hdel] at hs
        exact Option.some.inj hs ▸ h
    · simp only [SessionRun.step, if_neg hfd] at hs
      cases hs

theorem session_ids_unambiguous (maxConn : Nat) (hmax : maxConn ≤ sessionListSize)
    (first : Int) (hfirst : 0 ≤ first) (minFd maxFd : Nat) (acts : List SessionAct)
    (hroom : Along (step maxConn) (Room maxConn) acts (start first minFd maxFd))
    (s : SessionRun) (hs : iter (step maxConn) acts (start first minFd maxFd) = some s) :
    (∀ fd, s.Free maxConn fd → Room maxConn (.accept fd) s →
      ∃ id t, s.tables.addConnection maxConn fd = (.found id, t)) ∧
    s.given.Pairwise (· < ·) ∧
    (∀ p ∈ s.live, ∀ q ∈ s.live, (p.1 = q.1 ∨
      SessionTables.sessionIndex p.1 = SessionTables.sessionIndex q.1 ∨ p.2 = q.2) → p = q) ∧
    ∀ id fd, 0 < id → (s.tables.getConnectionVerify maxConn id = some fd ↔ (id, fd) ∈ s.live) := by
  have h : s.Inv maxConn := iter_keeps (J := Inv maxConn)
    (fun _ _ _ hc hj he => hj.step hmax hc he) acts hroom (start_inv maxConn hfirst minFd maxFd) hs
  refine ⟨?_, h.increasing, ?_, ?_⟩
  · intro fd hfd hr
    obtain ⟨id, t, he, -⟩ := h.accept hmax hfd hr
    exact ⟨id, t, he⟩
  · rintro ⟨a, f⟩ hp ⟨b, g⟩ hq hshare
    obtain ⟨hf, rfl⟩ := (h.live a f).1 hp
    obtain ⟨hg, rfl⟩ := (h.live b g).1 hq
    have hfg : f = g := by
      rcases hshare with he | he | he
      · exact h.good.index_inj hf hg (congrArg _ (congrArg _ he))
      · exact h.good.index_inj hf hg (congrArg _ he)
      · exact he
    rw [hfg]
  · intro id fd hid
    rw [h.good.getConnectionVerify_iff hid fd, h.live]

theorem session_ids_unambiguous_three :
    ∃ s, iter (step 3) [.accept 1, .accept 2, .close 1 true] (start 0 0 0) = some s ∧
      (s.tables.getConnectionVerify 3 2 = some 2 ↔ (2, 2) ∈ s.live) := by
  refine exists_of_map (fun s => s.live) (show _ = some [(2, 2)] by decide) fun s hs _ => ?_
  exact (session_ids_unambiguous 3 (by decide) 0 (by decide) 0 0 _ (by decide) s hs).2.2.2 2 2 (by decide)

/-! ## the last id -/

/-- a peer that connects and leaves again, `n` times -/
def visits (n : Nat) : List SessionAct := (List.replicate n [.accept 1, .close 1 true]).flatten

lemma visits_succ (n : Nat) : visits (n + 1) = visits n ++ [.accept 1, .close 1 true] := by
  unfold visits
  rw [List.replicate_succ', List.flatten_append, List.flatten_singleton]

def Empty (s : SessionRun) : Prop := s.live = [] ∧ ∀ i, (s.tables.sessionList i).fd = 0

section
variable (h : s.Empty) (hi : 0 ≤ SessionTables.sessionIndex (int64 (s.tables.sessionRound + 1)))
include h hi

lemma Empty.accept : ∃ t, step 2 (.accept 1) s = some ⟨t, s.given ++ [int64 (s.tables.sessionRound + 1)],
        [(int64 (s.tables.sessionRound + 1), 1)]⟩ ∧
      t.sessionRound = int64 (s.tables.sessionRound + 1) ∧
      (t.connectionList 1).sessionId = int64 (s.tables.sessionRound + 1) ∧
      ∀ i, i ≠ (SessionTables.sessionIndex (int64 (s.tables.sessionRound + 1))).toNat →
        (t.sessionList i).fd = 0 := by
  obtain ⟨hlive, hfree⟩ := h
  obtain ⟨minFd, maxFd, hnote⟩ := SessionTables.noteFd_eq s.tables 1
  have hfd : s.Free 2 1 := by
    refine ⟨le_refl 1, Nat.lt_succ_self 1, ?_⟩
    rintro ⟨p, hp, -⟩
    rw [hlive] at hp
    cases hp
  have hround : ((s.tables.noteFd 1).setConnection 1 {}).sessionRound = s.tables.sessionRound := by
    rw [hnote]
    rfl
  have hslot : ((s.tables.noteFd 1).setConnection 1 {}).findSlot 2
      ((s.tables.noteFd 1).setConnection 1 {}).sessionRound =
        .found (int64 (s.tables.sessionRound + 1)) := by
    rw [hround]
    refine SessionTables.findSlot_first hi ?_ 1
    rw [hnote]
    exact hfree _
  simp only [step, if_pos hfd, SessionTables.addConnection, hslot, hlive]
  refine ⟨_, rfl, rfl, ?_, ?_⟩
  · show (update ((s.tables.noteFd 1).setConnection 1 {}).connectionList 1
      { active := true, fd := 1, sessionId := int64 (s.tables.sessionRound + 1) } 1).sessionId = _
    rw [update_self]
  · intro i hne
    show (update ((s.tables.noteFd 1).setConnection 1 {}).sessionList _ _ i).fd = 0
    rw [update_of_ne hne, hnote]
    exact hfree i

lemma Empty.visit : ∃ s', iter (step 2) [.accept 1, .close 1 true] s = some s' ∧ s'.Empty ∧
      s'.tables.sessionRound = int64 (s.tables.sessionRound + 1) ∧
      s'.given = s.given ++ [int64 (s.tables.sessionRound + 1)] := by
  obtain ⟨t, hstep, hround, hid, hfree⟩ := h.accept hi
  refine ⟨⟨t.closeConnection 2 1, s.given ++ [int64 (s.tables.sessionRound + 1)], []⟩, ?_, ⟨rfl, ?_⟩, ?_, rfl⟩
  · simp only [iter, hstep]
    rfl
  · intro i
    rw [SessionTables.closeConnection_sessionList, hid]
    by_cases hne : i = (SessionTables.sessionIndex (int64 (s.tables.sessionRound + 1))).toNat
    · rw [hne, update_self]
    · rw [update_of_ne hne]
      exact hfree i hne
  · exact (SessionTables.closeConnection_sessionRound 2 t 1).trans hround

end

lemma iter_visits (n : Nat) (hn : (n : Int) < 2^63) :
    ∃ s, iter (step 2) (visits n) (start 0 0 0) = some s ∧ s.Empty ∧
      s.tables.sessionRound = n ∧ (0 < n → (n : Int) ∈ s.given) := by
  induction n with
  | zero => exact ⟨_, rfl, ⟨rfl, fun _ => rfl⟩, rfl, fun h => absurd h (lt_irrefl 0)⟩
  | succ n ih =>
    obtain ⟨s, hs, he, hr, -⟩ := ih (by omega)
    have hid : int64 (s.tables.sessionRound + 1) = (n + 1 : Nat) := by
      rw [hr]
      exact int64_of_lt (by omega) (by omega)
    obtain ⟨s', hs', he', hr', hg⟩ := he.visit (by
      rw [SessionTables.sessionIndex_eq (by omega)]
      exact Int.emod_nonneg _ (by decide))
    rw [hid] at hr' hg
    refine ⟨s', ?_, he', hr', fun _ => hg ▸ List.mem_concat_self⟩
    rw [visits_succ, iter_append, hs]
    exact hs'

/-- after `2^63 - 1` visits the id wraps around -/
theorem session_id_wraps : ∃ s s', iter (step 2) (visits (2^63 - 1)) (start 0 0 0) = some s ∧
      step 2 (.accept 1) s = some s' ∧ 2^63 - 1 ∈ s.given ∧ s'.given = s.given ++ [-2^63] ∧
      ¬ s'.given.Pairwise (· < ·) := by
  obtain ⟨s, hs, he, hr, hg⟩ := iter_visits (2^63 - 1) (by decide)
  have hid : int64 (s.tables.sessionRound + 1) = -2^63 := by
    rw [hr]
    decide
  have hlast : (2^63 - 1 : Int) ∈ s.given := hg (by decide)
  obtain ⟨t, hstep, -⟩ := he.accept (by rw [hid]; decide)
  rw [hid] at hstep
  refine ⟨s, _, hs, hstep, hlast, rfl, ?_⟩
  intro hp
  have := (List.pairwise_append.1 hp).2.2 _ hlast _ (List.mem_singleton_self _)
  cases this

end SessionRun

end OSW
