import OpenSwoole.Server.ForeachConnection

/-!
# Paging through the connections

`getClientList` of `ext-src/openswoole_server.cc` in process mode, over the tables of `Server.Sessions`.  A page
starts behind the connection of an id, the first one behind `min_fd`.  `get_connection_for_iterator` passes over
connections that the server has closed and not released yet.

* `ClientAct`   accepts, closes, and closes by the server;
* `collect_spec`   a page, and what is behind it, is what was left.
-/

namespace OSW
open Function List Option Machine

def maxFindCount : Int := 100

namespace SessionTables

def getConnectionForIterator (maxConn : Nat) (t : SessionTables) (fd : Nat) : Option Nat := do
  let conn ← getConnection maxConn fd
  if (t.connectionList conn).active && !(t.connectionList conn).closed then some conn else none

/-- the loop, for the next descriptors from `fd`; a `continue` passes over the test of `find_count` -/
def collect (maxConn : Nat) (t : SessionTables) : Nat → Nat → Int → List Int
  | 0, _, _ => []
  | n + 1, fd, findCount =>
    match t.getConnectionForIterator maxConn fd with
    | some conn =>
      if (t.connectionList conn).sessionId ≤ 0 then t.collect maxConn n (fd + 1) findCount
      else
        (t.connectionList conn).sessionId ::
          if findCount - 1 ≤ 0 then [] else t.collect maxConn n (fd + 1) (findCount - 1)
    | none => if findCount ≤ 0 then [] else t.collect maxConn n (fd + 1) findCount

variable (maxConn : Nat) (t : SessionTables)

def startFd (startId : Int) : Option Nat :=
  if startId = 0 then some t.minFd
  else (t.getConnectionVerify maxConn startId).map fun conn => (t.connectionList conn).fd

/-- `none` is `false` -/
def getClientList (startId findCount : Int) : Option (List Int) :=
  if findCount > maxFindCount then none
  else
    (t.startFd maxConn startId).bind fun startFd =>
      if startFd ≥ t.maxFd then none
      else some (t.collect maxConn (t.maxFd - startFd) (startFd + 1) findCount)

/-- the next call, with the last id of the page; all ids so far -/
def pageStep (findCount : Int) (s : Int × List Int) : (Int × List Int) ⊕ List Int :=
  match t.getClientList maxConn s.1 findCount with
  | none => .inr s.2
  | some page =>
    match page.getLast? with
    | none => .inr s.2
    | some id => .inl (id, s.2 ++ page)

/-- all pages; there are not more than descriptors -/
def paging (findCount : Int) : Option (List Int) := run (t.pageStep maxConn findCount) (t.maxFd + 1) (0, [])

end SessionTables

/-! ## histories -/

inductive ClientAct where
  | session (act : SessionAct)
  /-- the server closes a connection that is not released yet -/
  | closed (fd : Nat)

namespace SessionRun

def markClosed (s : SessionRun) (fd : Nat) : SessionRun :=
  { s with tables := s.tables.setConnection fd { s.tables.connectionList fd with closed := true } }

def clientStep (maxConn : Nat) : ClientAct → SessionRun → Option SessionRun
  | .session act, s => step maxConn act s
  | .closed fd, s => if s.Open fd then some (s.markClosed fd) else none

def ClientRoom (maxConn : Nat) : ClientAct → SessionRun → Prop
  | .session act, s => Room maxConn act s
  | .closed _, _ => True

instance (maxConn : Nat) (a : ClientAct) (s : SessionRun) : Decidable (ClientRoom maxConn a s) := by
  cases a <;> dsimp only [ClientRoom] <;> infer_instance

def Connected (s : SessionRun) (id : Int) (fd : Nat) : Prop :=
  (id, fd) ∈ s.live ∧ (s.tables.connectionList fd).closed = false

end SessionRun

/-! ## one page -/

namespace SessionTables
variable {maxConn : Nat} {t : SessionTables}

def listed (maxConn : Nat) (t : SessionTables) (fd n : Nat) : List Nat :=
  (range' fd n).filter fun f => (t.getConnectionForIterator maxConn f).isSome

variable {fd f : Nat} {findCount : Int} {s : Int × List Int}

lemma getConnectionForIterator_eq {conn : Nat} (h : t.getConnectionForIterator maxConn fd = some conn) :
    conn = fd ∧ fd ≤ maxConn ∧ (t.connectionList fd).active = true ∧ (t.connectionList fd).closed = false := by
  obtain ⟨c, hc, h⟩ := bind_eq_some_iff.1 h
  obtain ⟨hle, hc⟩ := ite_none_left_eq_some.1 hc
  cases hc
  obtain ⟨hflags, h⟩ := ite_none_right_eq_some.1 h
  simp only [Bool.and_eq_true, Bool.not_eq_true'] at hflags
  exact ⟨(some.inj h).symm, Nat.le_of_not_lt hle, hflags.1, hflags.2⟩

lemma getConnectionForIterator_isSome : (t.getConnectionForIterator maxConn fd).isSome = true ↔
      fd ≤ maxConn ∧ (t.connectionList fd).active = true ∧ (t.connectionList fd).closed = false := by
  constructor
  · intro h
    obtain ⟨conn, hconn⟩ := isSome_iff_exists.1 h
    exact (getConnectionForIterator_eq hconn).2
  · rintro ⟨hle, hactive, hclosed⟩
    have hget : getConnection maxConn fd = some fd := if_neg (not_lt.2 hle)
    simp only [getConnectionForIterator, hget, bind_eq_bind, bind_some, hactive, hclosed, Bool.not_false,
      Bool.and_self, if_true, isSome_some]

lemma listed_succ (fd n : Nat) : t.listed maxConn fd (n + 1) =
      if (t.getConnectionForIterator maxConn fd).isSome then fd :: t.listed maxConn (fd + 1) n
      else t.listed maxConn (fd + 1) n := by
  unfold listed
  rw [range'_succ, filter_cons]

def idsOf (t : SessionTables) (fds : List Nat) : List Int := fds.map fun f => (t.connectionList f).sessionId

def Page (maxConn : Nat) (t : SessionTables) (fd n : Nat) (page : List Int) : Prop :=
  (page = [] ∧ t.listed maxConn fd n = []) ∨ ∃ fds g, page = t.idsOf (fds ++ [g]) ∧ fd ≤ g ∧ g < fd + n ∧
      t.listed maxConn fd n = fds ++ g :: t.listed maxConn (g + 1) (fd + n - (g + 1))

lemma collect_spec (hpos : ∀ f, (t.connectionList f).active = true → 0 < (t.connectionList f).sessionId)
    (n : Nat) (fd : Nat) (hcount : 1 ≤ findCount) :
    t.Page maxConn fd n (t.collect maxConn n fd findCount) := by
  induction n generalizing fd findCount with
  | zero => exact .inl ⟨rfl, rfl⟩
  | succ n ih =>
    -- what is behind a descriptor does not depend on where the range began
    have hend : ∀ g, fd + 1 + n - (g + 1) = fd + (n + 1) - (g + 1) := fun g => by omega
    cases hconn : t.getConnectionForIterator maxConn fd with
    | none =>
      have hcollect : t.collect maxConn (n + 1) fd findCount = t.collect maxConn n (fd + 1) findCount := by
        simp only [collect, hconn, if_neg (show ¬ findCount ≤ 0 by omega)]
      have hlisted : t.listed maxConn fd (n + 1) = t.listed maxConn (fd + 1) n := by
        rw [listed_succ, hconn, isSome_none, if_neg Bool.false_ne_true]
      rw [hcollect, Page, hlisted]
      rcases ih (fd + 1) hcount with h | ⟨fds, g, hpage, hle, hlt, hrest⟩
      · exact .inl h
      · exact .inr ⟨fds, g, hpage, by omega, by omega, hend g ▸ hrest⟩
    | some conn =>
      obtain ⟨rfl, -, hactive, -⟩ := getConnectionForIterator_eq hconn
      have hid := hpos conn hactive
      have hlisted : t.listed maxConn conn (n + 1) = conn :: t.listed maxConn (conn + 1) n := by
        rw [listed_succ, hconn, isSome_some, if_pos rfl]
      have hcollect : t.collect maxConn (n + 1) conn findCount = (t.connectionList conn).sessionId ::
          if findCount - 1 ≤ 0 then [] else t.collect maxConn n (conn + 1) (findCount - 1) := by
        simp only [collect, hconn, if_neg (show ¬ (t.connectionList conn).sessionId ≤ 0 by omega)]
      have hself : conn + (n + 1) - (conn + 1) = n := by omega
      rw [hcollect, Page, hlisted]
      by_cases hlast : findCount - 1 ≤ 0
      · rw [if_pos hlast]
        exact .inr ⟨[], conn, rfl, by omega, by omega, by rw [hself]; rfl⟩
      · rw [if_neg hlast]
        rcases ih (conn + 1) (show 1 ≤ findCount - 1 by omega) with ⟨hpage, hnone⟩
          | ⟨fds, g, hpage, hle, hlt, hrest⟩
        · rw [hpage]
          exact .inr ⟨[], conn, rfl, by omega, by omega, by rw [hself]; rfl⟩
        · rw [hpage, hrest, hend g]
          exact .inr ⟨conn :: fds, g, rfl, by omega, by omega, rfl⟩

/-! ## all pages -/

structure Bounded (maxConn : Nat) (t : SessionTables) : Prop where
  order : t.minFd ≤ t.maxFd + 1
  between : t.Between maxConn
  named : ∀ f, (t.connectionList f).active = true → (t.connectionList f).fd = f

def behind (maxConn : Nat) (t : SessionTables) (fd : Nat) : List Nat :=
  t.listed maxConn (fd + 1) (t.maxFd - fd)

structure Paging (maxConn : Nat) (t : SessionTables) (s : Int × List Int) : Prop where
  rest : ∃ f, t.startFd maxConn s.1 = some f ∧
    s.2 ++ t.idsOf (t.behind maxConn f) = t.idsOf (t.behind maxConn t.minFd)

lemma mem_behind :
    f ∈ t.behind maxConn fd ↔ fd < f ∧ f ≤ t.maxFd ∧ f ≤ maxConn ∧ (t.connectionList f).active = true ∧
      (t.connectionList f).closed = false := by
  unfold behind listed
  rw [mem_filter, mem_range'_1, getConnectionForIterator_isSome]
  constructor
  · rintro ⟨⟨hlt, hle⟩, hf⟩
    exact ⟨hlt, by omega, hf⟩
  · rintro ⟨hlt, hle, hf⟩
    exact ⟨⟨hlt, by omega⟩, hf⟩

section
variable (hgood : t.Good maxConn)
include hgood

lemma Good.startFd_eq (hbounded : t.Bounded maxConn) {g : Nat}
    (hactive : (t.connectionList g).active = true) :
    t.startFd maxConn (t.connectionList g).sessionId = some g := by
  have hid := (hgood.conn g hactive).2.2.1
  unfold startFd
  rw [if_neg (by omega), (hgood.getConnectionVerify_iff hid g).2 ⟨hactive, rfl⟩, map_some,
    hbounded.named g hactive]

lemma Good.pageStep_cases (hcount : 1 ≤ findCount) (hmax : findCount ≤ maxFindCount)
    (hf : t.startFd maxConn s.1 = some f) :
    (t.behind maxConn f = [] ∧ t.pageStep maxConn findCount s = .inr s.2) ∨
      ∃ fds g, t.behind maxConn f = fds ++ g :: t.behind maxConn g ∧ t.pageStep maxConn findCount s =
          .inl ((t.connectionList g).sessionId, s.2 ++ t.idsOf (fds ++ [g])) := by
  have hlist : t.getClientList maxConn s.1 findCount =
      if f ≥ t.maxFd then none else some (t.collect maxConn (t.maxFd - f) (f + 1) findCount) := by
    unfold getClientList
    rw [if_neg (not_lt.2 hmax), hf, bind_some]
  by_cases hend : f ≥ t.maxFd
  · rw [if_pos hend] at hlist
    have hnil : t.behind maxConn f = [] := by
      unfold behind
      rw [Nat.sub_eq_zero_of_le hend]
      rfl
    exact .inl ⟨hnil, by simp only [pageStep, hlist]⟩
  rw [if_neg hend] at hlist
  have hcollect : t.Page maxConn (f + 1) (t.maxFd - f) _ :=
    collect_spec (fun g hg => (hgood.conn g hg).2.2.1) (t.maxFd - f) (f + 1) hcount
  rcases hcollect with ⟨hpage, hnil⟩ | ⟨fds, g, hpage, hle, hlt, hsplit⟩
  · rw [hpage] at hlist
    exact .inl ⟨hnil, by simp only [pageStep, hlist, getLast?_nil]⟩
  · rw [hpage] at hlist
    have hlast : (t.idsOf (fds ++ [g])).getLast? = some (t.connectionList g).sessionId := by
      unfold idsOf
      rw [map_append, map_singleton, getLast?_concat]
    have hwidth : f + 1 + (t.maxFd - f) - (g + 1) = t.maxFd - g := by omega
    rw [hwidth] at hsplit
    exact .inr ⟨fds, g, hsplit, by simp only [pageStep, hlist, hlast]⟩

section
variable (hbounded : t.Bounded maxConn) (hcount : 1 ≤ findCount) (hmax : findCount ≤ maxFindCount)
include hbounded hcount hmax

lemma Paging.step (h : t.Paging maxConn s) : Steps (t.pageStep maxConn findCount) (t.Paging maxConn)
      (fun s => (t.idsOf (t.behind maxConn t.minFd)).length - s.2.length)
      (fun ids => ids = t.idsOf (t.behind maxConn t.minFd)) s := by
  obtain ⟨f, hf, hrest⟩ := h.rest
  rcases hgood.pageStep_cases hcount hmax hf with ⟨hnil, hstep⟩ | ⟨fds, g, hbehind, hstep⟩
  · rw [hnil] at hrest
    exact .inr ⟨s.2, hstep, (append_nil _).symm.trans hrest⟩
  · have hg : (t.connectionList g).active = true := by
      have hmem : g ∈ t.behind maxConn f := hbehind ▸ mem_append_right _ mem_cons_self
      exact (mem_behind.1 hmem).2.2.2.1
    have hall : s.2 ++ t.idsOf (fds ++ [g]) ++ t.idsOf (t.behind maxConn g) =
        t.idsOf (t.behind maxConn t.minFd) := by
      rw [← hrest, hbehind]
      simp [idsOf]
    refine .inl ⟨_, hstep, ⟨g, hgood.startFd_eq hbounded hg, hall⟩, ?_⟩
    -- the page is not empty
    have hlen := congrArg length hall
    have hsome : 0 < (t.idsOf (fds ++ [g])).length := by simp [idsOf]
    rw [length_append, length_append] at hlen
    dsimp only
    rw [length_append]
    omega

lemma Good.paging_eq : t.paging maxConn findCount = some (t.idsOf (t.behind maxConn t.minFd)) := by
  have hfuel : (t.idsOf (t.behind maxConn t.minFd)).length - ([] : List Int).length < t.maxFd + 1 := by
    have hle : (t.behind maxConn t.minFd).length ≤ t.maxFd - t.minFd := by
      refine le_trans (length_filter_le _ _) ?_
      rw [length_range']
    unfold idsOf
    rw [length_map]
    omega
  obtain ⟨ids, hids, rfl⟩ := run_spec (s := ((0 : Int), ([] : List Int)))
    (fun s hs => Paging.step hgood hbounded hcount hmax hs) ⟨t.minFd, if_pos rfl, nil_append _⟩ hfuel
  exact hids

end

omit hgood in
lemma paging_refused (t : SessionTables) (maxConn : Nat) (hmax : ¬ findCount ≤ maxFindCount) :
    t.paging maxConn findCount = some [] := by
  refine run_inr ?_ _
  simp only [pageStep, getClientList, if_pos (not_le.1 hmax)]

lemma Good.nodup_idsOf (fd : Nat) : (t.idsOf (t.behind maxConn fd)).Nodup := by
  refine Nodup.map_on (fun a ha b hb he => ?_) ((nodup_range' ..).filter _)
  exact hgood.index_inj (mem_behind.1 ha).2.2.2.1 (mem_behind.1 hb).2.2.2.1 (by rw [he])

end

variable (h : t.Bounded maxConn)
include h

lemma Bounded.update {t' : SessionTables} {conn : Connection} (horder : t'.minFd ≤ t'.maxFd + 1)
    (hlist : t'.connectionList = update t.connectionList fd conn)
    (hnew : conn.active = true → conn.fd = fd ∧ t'.minFd ≤ fd ∧ fd ≤ t'.maxFd ∧ fd ≤ maxConn)
    (hold : ∀ f, f ≠ fd → (t.connectionList f).active = true → t'.minFd ≤ f ∧ f ≤ t'.maxFd) :
    t'.Bounded maxConn := by
  refine ⟨horder, fun f hf => ?_, fun f hf => ?_⟩
  · rw [hlist] at hf
    by_cases he : f = fd
    · rw [he, update_self] at hf
      exact he ▸ (hnew hf).2
    · rw [update_of_ne he] at hf
      obtain ⟨hmin, hmax⟩ := hold f he hf
      exact ⟨hmin, hmax, (h.between f hf).2.2⟩
  · rw [hlist] at hf ⊢
    by_cases he : f = fd
    · rw [he, update_self] at hf ⊢
      exact (hnew hf).1
    · rw [update_of_ne he] at hf ⊢
      exact h.named f hf

lemma Bounded.accept (hfd : fd < maxConn) {id : Int}
    (hlist : (t.addConnection maxConn fd).2.connectionList =
      Function.update t.connectionList fd { active := true, fd := fd, sessionId := id }) :
    (t.addConnection maxConn fd).2.Bounded maxConn := by
  obtain ⟨⟨hmin, hmax⟩, -⟩ := t.addConnection_frame maxConn fd
  obtain ⟨horder, hge, hle, hlower, hupper⟩ := t.noteFd_bounds h.order fd
  rw [← hmin, ← hmax] at horder
  rw [← hmin] at hge hlower
  rw [← hmax] at hle hupper
  refine h.update horder hlist (fun _ => ⟨rfl, hge, hle, le_of_lt hfd⟩) fun f _ hf => ?_
  obtain ⟨hf1, hf2, -⟩ := h.between f hf
  exact ⟨le_trans hlower hf1, le_trans hf2 hupper⟩

lemma Bounded.close (hfd : (t.connectionList fd).active = true) :
    (t.closeConnection maxConn fd).Bounded maxConn := by
  obtain ⟨hfd1, hfd2, hfd3⟩ := h.between fd hfd
  have hmin : (t.closeConnection maxConn fd).minFd = t.minFd := closeConnection_minFd fd
  have hmax := t.closeConnection_maxFd maxConn fd
  obtain ⟨hspec, hbelow⟩ := t.findMaxFd_spec maxConn (fd - 1)
  refine h.update ?_ (t.closeConnection_connectionList ..) (nofun) fun f hne hf => ?_
  · rw [hmin, hmax]
    split
    · omega
    · exact h.order
  · obtain ⟨hf1, hf2, hf3⟩ := h.between f hf
    rw [hmin, hmax]
    refine ⟨hf1, ?_⟩
    split
    · exact hbelow f (by omega) hf3 hf
    · exact hf2

end SessionTables

/-! ## runs -/

namespace SessionRun
variable {maxConn : Nat} {s s' : SessionRun}

structure ClientInv (maxConn : Nat) (s : SessionRun) : Prop where
  inv : s.Inv maxConn
  bounded : s.tables.Bounded maxConn

section
variable (h : s.ClientInv maxConn)
include h

lemma ClientInv.accept (hmax : maxConn ≤ sessionListSize) {fd : Nat} (hfd : s.Free maxConn fd)
    (hroom : s.tables.sessionRound + maxConn < 2^63) :
    ∃ id t, s.tables.addConnection maxConn fd = (.found id, t) ∧
      ClientInv maxConn ⟨t, s.given ++ [id], s.live ++ [(id, fd)]⟩ := by
  obtain ⟨id, t, he, hinv⟩ := h.inv.accept hmax hfd hroom
  obtain ⟨id', t', he', -, -, -, -, hlist⟩ :=
    h.inv.good.addConnection_spec hmax hfd.1 hfd.2.1 (h.inv.inactive hfd) hroom
  have ht : t' = t := (Prod.mk.inj (he'.symm.trans he)).2
  have hadd : (s.tables.addConnection maxConn fd).2 = t := by rw [he]
  refine ⟨id, t, he, hinv, ?_⟩
  rw [ht] at hlist
  exact hadd ▸ h.bounded.accept hfd.2.1 (hadd.symm ▸ hlist)

lemma ClientInv.markClosed (fd : Nat) : (s.markClosed fd).ClientInv maxConn := by
  have hlist : (s.markClosed fd).tables.connectionList =
      update s.tables.connectionList fd { s.tables.connectionList fd with closed := true } := rfl
  have hsame : ∀ f, ((s.markClosed fd).tables.connectionList f).active = (s.tables.connectionList f).active ∧
      ((s.markClosed fd).tables.connectionList f).sessionId = (s.tables.connectionList f).sessionId := by
    intro f
    rw [hlist]
    by_cases hf : f = fd
    · rw [hf, update_self]
      exact ⟨rfl, rfl⟩
    · rw [update_of_ne hf]
      exact ⟨rfl, rfl⟩
  have hgood : (s.markClosed fd).tables.Good maxConn :=
    h.inv.good.congr rfl rfl fun f => ⟨(hsame f).1, fun _ => (hsame f).2⟩
  refine ⟨⟨hgood, h.inv.increasing, h.inv.bounded, fun id f => ?_⟩, ?_⟩
  · rw [(hsame f).1, (hsame f).2]
    exact h.inv.live id f
  · refine h.bounded.update h.bounded.order hlist (fun hactive => ?_) fun f _ hf => ?_
    · exact ⟨h.bounded.named fd hactive, h.bounded.between fd hactive⟩
    · obtain ⟨hmin, hmax, -⟩ := h.bounded.between f hf
      exact ⟨hmin, hmax⟩

lemma ClientInv.step (hmax : maxConn ≤ sessionListSize) {act : ClientAct}
    (hroom : ClientRoom maxConn act s) (hs : clientStep maxConn act s = some s') :
    s'.ClientInv maxConn := by
  cases act with
  | closed fd =>
    obtain ⟨-, rfl⟩ := ite_some_none_eq_some.1 hs
    exact h.markClosed fd
  | session act =>
    have hinv : s'.Inv maxConn := h.inv.step hmax hroom hs
    refine ⟨hinv, ?_⟩
    cases act with
    | accept fd =>
      obtain ⟨hfd, hs⟩ := ite_none_right_eq_some.1 hs
      obtain ⟨id, t, he, hnew⟩ := h.accept hmax hfd hroom
      rw [he] at hs
      exact some.inj hs ▸ hnew.bounded
    | close fd del =>
      obtain ⟨hfd, hs⟩ := ite_none_right_eq_some.1 hs
      cases del with
      | true => exact some.inj hs ▸ h.bounded.close ((h.inv.open_iff fd).1 hfd)
      | false => exact some.inj hs ▸ h.bounded

end

lemma clientInv_start (maxConn : Nat) {first : Int} (hfirst : 0 ≤ first) (bounds : List StartAct) :
    (start first (startUp bounds).1 (startUp bounds).2).ClientInv maxConn where
  inv := start_inv maxConn hfirst ..
  bounded := ⟨Nat.le_succ_of_le (startUp_le bounds), nofun, nofun⟩

lemma ClientInv.mem_behind (h : s.ClientInv maxConn) (id : Int) :
    id ∈ s.tables.idsOf (s.tables.behind maxConn s.tables.minFd) ↔
      ∃ fd, s.Connected id fd ∧ fd ≠ s.tables.minFd := by
  unfold SessionTables.idsOf
  rw [List.mem_map]
  constructor
  · rintro ⟨fd, hfd, rfl⟩
    obtain ⟨hlt, -, -, hactive, hclosed⟩ := SessionTables.mem_behind.1 hfd
    exact ⟨fd, ⟨(h.inv.live _ fd).2 ⟨hactive, rfl⟩, hclosed⟩, ne_of_gt hlt⟩
  · rintro ⟨fd, ⟨hlive, hclosed⟩, hne⟩
    obtain ⟨hactive, hid⟩ := (h.inv.live id fd).1 hlive
    obtain ⟨hge, hle, hmax⟩ := h.bounded.between fd hactive
    exact ⟨fd, SessionTables.mem_behind.2 ⟨lt_of_le_of_ne hge hne.symm, hle, hmax, hactive, hclosed⟩, hid⟩

lemma ClientInv.connected_inj (h : s.ClientInv maxConn) {id : Int} {fd fd' : Nat} (hfd : s.Connected id fd)
    (hfd' : s.Connected id fd') : fd = fd' := by
  obtain ⟨hactive, hid⟩ := (h.inv.live id fd).1 hfd.1
  obtain ⟨hactive', hid'⟩ := (h.inv.live id fd').1 hfd'.1
  exact h.inv.good.index_inj hactive hactive' (by rw [hid, hid'])

/-- **Paging lists every open connection once** exactly if the pages are not too large and none has the
descriptor `min_fd`, or none is open. -/
theorem client_list_pages (maxConn : Nat) (hmax : maxConn ≤ sessionListSize) (first : Int)
    (hfirst : 0 ≤ first) (bounds : List StartAct) (acts : List ClientAct)
    (hroom : Along (clientStep maxConn) (ClientRoom maxConn) acts
      (start first (startUp bounds).1 (startUp bounds).2))
    (s : SessionRun)
    (hs : iter (clientStep maxConn) acts (start first (startUp bounds).1 (startUp bounds).2) = some s)
    (findCount : Int) (hcount : 1 ≤ findCount) :
    (∃ ids, s.tables.paging maxConn findCount = some ids ∧ ids.Nodup ∧
      ∀ id, id ∈ ids ↔ ∃ fd, s.Connected id fd) ↔
    ∀ id fd, s.Connected id fd → findCount ≤ maxFindCount ∧ fd ≠ s.tables.minFd := by
  have h : s.ClientInv maxConn := iter_keeps (fun _ _ _ hc hj he => hj.step hmax hc he) acts hroom
    (clientInv_start maxConn hfirst bounds) hs
  by_cases hpage : findCount ≤ maxFindCount
  · have hpaging := h.inv.good.paging_eq h.bounded hcount hpage
    constructor
    · rintro ⟨ids, hids, -, hall⟩ id fd hfd
      obtain rfl := some.inj (hpaging.symm.trans hids)
      obtain ⟨fd', hfd', hne⟩ := (h.mem_behind id).1 ((hall id).2 ⟨fd, hfd⟩)
      exact ⟨hpage, h.connected_inj hfd hfd' ▸ hne⟩
    · intro hcond
      refine ⟨_, hpaging, h.inv.good.nodup_idsOf _, fun id => (h.mem_behind id).trans ?_⟩
      exact exists_congr fun fd => and_iff_left_of_imp fun hfd => (hcond id fd hfd).2
  · have hpaging := s.tables.paging_refused maxConn hpage
    constructor
    · rintro ⟨ids, hids, -, hall⟩ id fd hfd
      obtain rfl := some.inj (hpaging.symm.trans hids)
      cases (hall id).2 ⟨fd, hfd⟩
    · intro hcond
      refine ⟨[], hpaging, nodup_nil, fun id => iff_of_false not_mem_nil ?_⟩
      rintro ⟨fd, hfd⟩
      exact hpage (hcond id fd hfd).1

def listening (fd : Nat) : SessionRun := start 0 (startUp [.signal, .listen fd]).1
    (startUp [.signal, .listen fd]).2

/-- four connections, one closed by the server and one released, in pages of one id -/
def fourClients : List ClientAct :=
  [.session (.accept 4), .session (.accept 5), .session (.accept 6), .session (.accept 7), .closed 5,
    .session (.close 7 true)]

theorem client_list_pages_four : ∃ s ids, iter (clientStep 8) fourClients (listening 3) = some s ∧
    s.tables.paging 8 1 = some ids ∧ ids.Nodup ∧ ∀ id, id ∈ ids ↔ ∃ fd, s.Connected id fd := by
  obtain ⟨s, hs, hlow⟩ := map_eq_some_iff.1 (show (iter (clientStep 8) fourClients (listening 3)).map
    (fun s => decide (∀ p ∈ s.live, p.2 ≠ s.tables.minFd)) = some true by decide +kernel)
  obtain ⟨ids, hids⟩ := (client_list_pages 8 (by decide) 0 (by decide) [.signal, .listen 3] fourClients
    (by decide +kernel) s hs 1 (by decide)).2 fun id fd hfd => ⟨by decide, of_decide_eq_true hlow _ hfd.1⟩
  exact ⟨s, ids, hs, hids⟩

def listedBy (fd client : Nat) (findCount : Int) : Option (List (Int × Nat) × Bool × Option (List Int)) :=
  (iter (clientStep 8) [.session (.accept client)] (listening fd)).map fun s =>
    (s.live, (s.tables.connectionList client).closed, s.tables.paging 8 findCount)

/-- a connection that is `min_fd` itself is not on the first page; and a page of 101 ids is refused -/
theorem lowest_unlisted :
    listedBy 5 3 10 = some ([(1, 3)], false, some []) ∧ listedBy 5 6 101 = some ([(1, 6)], false, some []) := by
  decide +kernel

end SessionRun

end OSW
