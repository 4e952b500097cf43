import Mathlib.Data.List.Nodup
import OpenSwoole.Lib.Behaviour
import OpenSwoole.Os.ProcessPool

/-!
# Reloads of a process pool

A reload goes through the workers of its snapshot in order: it sends `SIGTERM` to one and waits until the
pid comes back from `wait`.  It loses its way when a worker of the snapshot ends before its turn, and when
the request comes while a pid that `wait` has returned is handled.

* `Pool.Careful`   the condition on a step.
-/

namespace OSW.Os
open List Option Function Machine

namespace Pool

/-! ## the workers -/

/-- workers are children, apart from the one `wait` has just returned, and `map_` finds them -/
structure Staffed (pids : List Nat) (map : WorkerMap) (procs : Procs) (ever : List Nat)
    (ret : Option Nat) : Prop where
  nodup : pids.Nodup
  pos : ∀ q ∈ pids, 0 < q
  child : ∀ q ∈ pids, procs q = .gone → ret = some q
  map_iff : ∀ q j, map q = some j ↔ pids[j]? = some q
  ever : ∀ q ∈ pids, q ∈ ever

section
variable {pids ever : List Nat} {map : WorkerMap} {procs : Procs} {ret : Option Nat} {pid new i : Nat}

lemma mapOf_eq_some (hn : pids.Nodup) (q j : Nat) : mapOf pids q = some j ↔ pids[j]? = some q := by
  show pids.findIdx? (· == q) = some j ↔ _
  rw [findIdx?_eq_some_iff_getElem]
  constructor
  · rintro ⟨hj, he, -⟩
    rw [getElem?_eq_getElem hj, eq_of_beq he]
  · intro he
    obtain ⟨hj, he⟩ := List.getElem?_eq_some_iff.1 he
    refine ⟨hj, beq_iff_eq.2 he, fun k hk hbeq => ?_⟩
    have heq : pids[k] = pids[j] := (eq_of_beq hbeq).trans he.symm
    exact absurd ((Nodup.getElem_inj_iff hn).1 heq) (ne_of_lt hk)

section
variable (h : Staffed pids map procs ever ret)
include h

lemma Staffed.mem_of_map (hm : map pid = some i) : pid ∈ pids := mem_of_getElem? ((h.map_iff pid i).1 hm)

lemma Staffed.map_of_mem (hm : pid ∈ pids) : ∃ i, map pid = some i := by
  obtain ⟨i, hi⟩ := getElem?_of_mem hm
  exact ⟨i, (h.map_iff pid i).2 hi⟩

lemma Staffed.not_mem_of_fresh (hf : procs.Fresh new) (hret : ret ≠ some new) : new ∉ pids :=
  fun hm => hret (h.child new hm hf.2)

lemma Staffed.exits (pid : Nat) : Staffed pids map (procs.exits pid) ever ret :=
  { h with
    child := fun q hq hgone => h.child q hq (Procs.exits_eq_gone.1 hgone).2 }

end

lemma Staffed.reap (h : Staffed pids map procs ever none) (pid : Nat) :
    Staffed pids map (procs.reap pid) ever (some pid) :=
  { h with
    child := by
      intro q hq hgone
      rcases Procs.reap_eq_gone.1 hgone with rfl | hgone
      · rfl
      · cases h.child q hq hgone }

lemma Staffed.handled (h : Staffed pids map procs ever ret) (hret : ∀ q, ret = some q → q ∉ pids) :
    Staffed pids map procs ever none :=
  { h with
    child := fun q hq hgone => absurd hq (hret q (h.child q hq hgone)) }

lemma Staffed.map_replace (h : Staffed pids map procs ever ret) (hm : map pid = some i)
    (hnew : new ∉ pids) (q : Nat) :
    (((if pids.getD i 0 = 0 then map else map.erase (pids.getD i 0)).emplace new i).erase pid) q =
      if q = pid then none else if q = new then some i else map q := by
  have hget := (h.map_iff pid i).1 hm
  have hold : pids.getD i 0 = pid := by rw [getD_eq_getElem?_getD, hget]; rfl
  have hpos : pid ≠ 0 := ne_of_gt (h.pos pid (h.mem_of_map hm))
  have hne : new ≠ pid := fun he => hnew (he ▸ h.mem_of_map hm)
  have hnone : map.erase pid new = none := by
    rw [WorkerMap.erase, update_of_ne hne]
    cases hn : map new with
    | none => rfl
    | some j => exact absurd (h.mem_of_map hn) hnew
  rw [hold, if_neg hpos, WorkerMap.emplace, if_pos hnone]
  by_cases hq : q = pid
  · rw [if_pos hq, hq, WorkerMap.erase, update_self]
  · rw [if_neg hq, WorkerMap.erase, update_of_ne hq]
    by_cases hq' : q = new
    · rw [if_pos hq', hq', update_self]
    · rw [if_neg hq', update_of_ne hq', WorkerMap.erase, update_of_ne hq]

lemma Staffed.replace {s : Pool} (h : Staffed s.pids s.map s.procs s.ever ret)
    (hm : s.map pid = some i) (hf : s.procs.Fresh new) (hret : ret ≠ some new) :
    Staffed (s.pids.set i new) ((s.spawn i new).erase pid).map (s.procs.fork new) (s.ever ++ [new]) ret := by
  have hnew := h.not_mem_of_fresh hf hret
  have hget := (h.map_iff pid i).1 hm
  have hi : i < s.pids.length := (List.getElem?_eq_some_iff.1 hget).1
  -- the worker `i` is the only one with this pid
  have honly : ∀ j, s.pids[j]? = some pid → j = i := fun j hj =>
    some.inj (((h.map_iff pid j).2 hj).symm.trans hm)
  refine ⟨h.nodup.set hnew, fun q hq => ?_, fun q hq hgone => ?_, fun q j => ?_, fun q hq => ?_⟩
  · rcases mem_or_eq_of_mem_set hq with hq | rfl
    · exact h.pos q hq
    · exact hf.1
  · obtain ⟨hne, hgone⟩ := Procs.fork_eq_gone.1 hgone
    exact h.child q ((mem_or_eq_of_mem_set hq).resolve_right hne) hgone
  · show (((if s.pids.getD i 0 = 0 then s.map else s.map.erase (s.pids.getD i 0)).emplace new i).erase
      pid) q = some j ↔ _
    rw [h.map_replace hm hnew, getElem?_set]
    by_cases hij : i = j
    · subst hij
      rw [if_pos rfl, if_pos hi, some_inj]
      by_cases hq : q = pid
      · rw [if_pos hq, hq]
        exact ⟨nofun, fun he => absurd (h.mem_of_map hm) (he ▸ hnew)⟩
      · rw [if_neg hq]
        by_cases hq' : q = new
        · rw [if_pos hq', hq']
          exact ⟨fun _ => rfl, fun _ => rfl⟩
        · rw [if_neg hq', h.map_iff, hget, some_inj]
          exact ⟨fun he => absurd he.symm hq, fun he => absurd he.symm hq'⟩
    · rw [if_neg hij, ← h.map_iff]
      by_cases hq : q = pid
      · rw [if_pos hq, hq]
        exact ⟨nofun, fun he => absurd (honly j ((h.map_iff pid j).1 he)).symm hij⟩
      · rw [if_neg hq]
        by_cases hq' : q = new
        · rw [if_pos hq', hq']
          exact ⟨fun he => absurd (some.inj he) hij, fun he => absurd (h.mem_of_map he) hnew⟩
        · rw [if_neg hq']
  · rcases mem_or_eq_of_mem_set hq with hq | rfl
    · exact mem_append_left _ (h.ever q hq)
    · exact mem_concat_self

end

/-! ## the phases of a reload -/

/-- `pid` is in the snapshot, and its turn has not ended -/
def Due (s : Pool) (pid : Nat) : Prop := pid ∈ s.atStart.drop s.reloadWorkerI

instance (s : Pool) (pid : Nat) : Decidable (s.Due pid) := inferInstanceAs (Decidable (_ ∈ _))

variable {s : Pool}

lemma due_iff {pid : Nat} : s.Due pid ↔ ∃ j, s.reloadWorkerI ≤ j ∧ s.atStart[j]? = some pid := by
  show pid ∈ s.atStart.drop s.reloadWorkerI ↔ _
  rw [mem_iff_getElem?]
  constructor
  · rintro ⟨j, hj⟩
    rw [getElem?_drop] at hj
    exact ⟨_, Nat.le_add_right _ _, hj⟩
  · rintro ⟨j, hle, hj⟩
    refine ⟨j - s.reloadWorkerI, ?_⟩
    rw [getElem?_drop, Nat.add_sub_cancel' hle]
    exact hj

/-- no reload is under way, and the last one has reached all -/
structure Idle (s : Pool) : Prop where
  reloading : s.reloading = false
  reloadInit : s.reloadInit = false
  worker : s.reloadWorkerI = 0
  pid : s.reloadWorkerPid = 0
  exited : ∀ q ∈ s.atStart, q ∈ s.exited

/-- a reload is requested; its snapshot is taken in this round of the loop -/
structure Asked (s : Pool) : Prop where
  reloading : s.reloading = true
  reloadInit : s.reloadInit = false
  worker : s.reloadWorkerI = 0
  pc : s.pc = .woke none ∨ s.pc = .body none
  atStart : s.atStart = s.pids
  exited : s.exited = []

lemma Asked.ret (h : s.Asked) : s.pc.ret = none := by rcases h.pc with he | he <;> rw [he] <;> rfl

/-- a reload is under way: those before its turn have exited, the others have not, and apart from
`_kill_worker` the one whose turn it is has been sent `SIGTERM` -/
structure Reloading (s : Pool) : Prop where
  reloading : s.reloading = true
  reloadInit : s.reloadInit = true
  snapshot : s.reloadWorkers = s.atStart
  length : s.atStart.length = s.pids.length
  before : ∀ j q, j < s.reloadWorkerI → s.atStart[j]? = some q → q ∈ s.exited
  same : ∀ j, s.reloadWorkerI ≤ j → s.pids[j]? = s.atStart[j]?
  due : ∀ q, s.Due q → q ∈ s.exited → s.pc.ret = some q
  ret : ∀ q, s.pc.ret = some q → q ∈ s.exited ∧ (q = s.reloadWorkerPid ∨ ¬ s.Due q)
  turn : s.pc ≠ .kill → s.atStart[s.reloadWorkerI]? = some s.reloadWorkerPid ∧ s.reloadWorkerPid ∈ s.terms

/-- the invariant while the loop runs -/
structure Running (s : Pool) : Prop where
  staff : Staffed s.pids s.map s.procs s.ever s.pc.ret
  log : ∀ q ∈ s.log, 0 < q ∧ q ∈ s.ever
  phase : s.Idle ∨ s.Asked ∨ s.Reloading

/-- `pid` may leave the pool when no reload is under way, when it has had its turn, and in its turn -/
def MayExit (s : Pool) (pid : Nat) : Prop := s.reloading = true → pid = s.reloadWorkerPid ∨ ¬ s.Due pid

def MayDetach (s : Pool) : Prop :=
  s.reloading = true → ∀ pid ∈ s.messageBox.head?, s.map pid = none ∨ ¬ s.Due pid

/-- the pid of a new process is not the one that `wait` has just returned -/
def NotReused (s : Pool) (new : Option Nat) : Prop := new = none ∨ s.pc.ret ≠ new

/-- a request comes when no reload is under way, and no returned pid is to be handled -/
def MayRequest (s : Pool) : Prop :=
  s.reloading = false ∧ (s.pc = .wait ∨ s.pc = .woke none ∨ s.pc = .body none)

def Careful (e : PoolEvent) (s : Pool) : Prop :=
  match e with
  | .request => s.MayRequest
  | .reap pid => s.MayExit pid
  | .pop new => s.NotReused new ∧ s.MayDetach
  | .handle new => s.NotReused new
  | _ => True

instance (s : Pool) (pid : Nat) : Decidable (s.MayExit pid) := inferInstanceAs (Decidable (_ → _))

instance (s : Pool) : Decidable s.MayDetach := inferInstanceAs (Decidable (_ → _))

instance (s : Pool) (new : Option Nat) : Decidable (s.NotReused new) := inferInstanceAs (Decidable (_ ∨ _))

instance (s : Pool) : Decidable s.MayRequest := inferInstanceAs (Decidable (_ ∧ _))

instance (e : PoolEvent) (s : Pool) : Decidable (Careful e s) := by
  cases e <;> dsimp only [Careful] <;> infer_instance

/-! ## one step -/

section
lemma running_start {pids : List Nat} (hn : pids.Nodup) (hpos : ∀ q ∈ pids, 0 < q) :
    (start pids).Running where
  staff := {
    nodup := hn
    pos := hpos
    child := by
      intro q hq hgone
      have hrun : (start pids).procs q = .running := if_pos hq
      cases hrun.symm.trans hgone
    map_iff := mapOf_eq_some hn
    ever := fun _ hq => hq }
  log := nofun
  phase := .inl ⟨rfl, rfl, rfl, rfl, nofun⟩

lemma Running.request (h : s.Running) (hc : s.MayRequest) : s.request.Running := by
  obtain ⟨hre, hpc⟩ := hc
  have hidle : s.Idle := by
    rcases h.phase with hp | hp | hp
    · exact hp
    · cases hre.symm.trans hp.reloading
    · cases hre.symm.trans hp.reloading
  have hret : s.pc.ret = none ∧ (s.pc.interrupt = .woke none ∨ s.pc.interrupt = .body none) := by
    rcases hpc with hpc | hpc | hpc <;> rw [hpc]
    · exact ⟨rfl, .inl rfl⟩
    · exact ⟨rfl, .inl rfl⟩
    · exact ⟨rfl, .inr rfl⟩
  have hret' : s.pc.interrupt.ret = none := by rcases hret.2 with hi | hi <;> rw [hi] <;> rfl
  have hstaff := h.staff
  rw [hret.1, ← hret'] at hstaff
  exact ⟨hstaff, h.log, .inr (.inl ⟨rfl, rfl, hidle.worker, hret.2, rfl, rfl⟩)⟩

lemma Running.setPc (h : s.Running) {pc : Pc} (box : List Nat) (b : Bool) (hret : pc.ret = s.pc.ret)
    (hkill : s.pc = .kill → pc = .kill)
    (hasked : s.pc = .woke none ∨ s.pc = .body none → pc = .woke none ∨ pc = .body none) :
    Running { s with messageBox := box, readMessage := b, pc := pc } := by
  have hstaff := h.staff
  rw [← hret] at hstaff
  refine ⟨hstaff, h.log, ?_⟩
  rcases h.phase with hp | hp | hp
  · exact .inl { hp with }
  · exact .inr (.inl { hp with pc := hasked hp.pc })
  · exact .inr (.inr ⟨hp.reloading, hp.reloadInit, hp.snapshot, hp.length, hp.before, hp.same,
      fun q hd hq => hret.trans (hp.due q hd hq), fun q hq => hp.ret q (hret.symm.trans hq),
      fun hpc => hp.turn fun he => hpc (hkill he)⟩)

lemma Running.interrupt (h : s.Running) (b : Bool) :
    Running { s with readMessage := b, pc := s.pc.interrupt } := by
  refine h.setPc s.messageBox b ?_ (fun he => by rw [he]; rfl) ?_
  · cases s.pc <;> rfl
  · rintro (he | he) <;> rw [he]
    · exact .inl rfl
    · exact .inr rfl

lemma Running.exits (h : s.Running) (pid : Nat) : Running { s with procs := s.procs.exits pid } := by
  refine ⟨h.staff.exits pid, h.log, ?_⟩
  rcases h.phase with hp | hp | hp
  · exact .inl { hp with }
  · exact .inr (.inl { hp with })
  · exact .inr (.inr { hp with })

variable {pid j i new : Nat}

lemma Running.reap (h : s.Running) (hpc : s.pc = .wait) (hc : s.MayExit pid) : (s.reap pid).Running := by
  have hret : s.pc.ret = none := by rw [hpc]; rfl
  have hstaff := h.staff
  rw [hret] at hstaff
  refine ⟨hstaff.reap pid, h.log, ?_⟩
  rcases h.phase with hp | hp | hp
  · exact .inl { hp with exited := fun q hq => mem_append_left _ (hp.exited q hq) }
  · rcases hp.pc with he | he <;> cases hpc.symm.trans he
  · refine .inr (.inr ⟨hp.reloading, hp.reloadInit, hp.snapshot, hp.length,
      fun j q hj hq => mem_append_left _ (hp.before j q hj hq), hp.same, fun q hd hq => ?_, fun q hq => ?_,
      fun _ => hp.turn (by rw [hpc]; exact Pc.noConfusion)⟩)
    · rcases mem_append.1 hq with hq | hq
      · cases hret.symm.trans (hp.due q hd hq)
      · rw [mem_singleton.1 hq]
        rfl
    · obtain rfl : pid = q := some.inj hq
      exact ⟨mem_concat_self, hc hp.reloading⟩

section
variable (hp : s.Reloading) (hs : Staffed s.pids s.map s.procs s.ever s.pc.ret)
include hp hs

lemma Reloading.lt_of_not_due (hm : s.map pid = some j) (hd : ¬ s.Due pid) : j < s.reloadWorkerI := by
  by_contra hlt
  have hle := Nat.le_of_not_lt hlt
  exact hd (due_iff.2 ⟨j, hle, (hp.same j hle).symm.trans ((hs.map_iff pid j).1 hm)⟩)

lemma Reloading.map_of_due (hd : s.Due pid) : ∃ j, s.reloadWorkerI ≤ j ∧ s.map pid = some j := by
  obtain ⟨j, hle, hj⟩ := due_iff.1 hd
  exact ⟨j, hle, (hs.map_iff pid j).2 ((hp.same j hle).trans hj)⟩

end

lemma getElem?_set_of_lt {l : List Nat} (h : i < j) : (l.set i new)[j]? = l[j]? :=
  getElem?_set_ne (ne_of_lt h)

lemma Running.replace (h : s.Running) (hm : s.map pid = some i) (hf : s.procs.Fresh new)
    (hret : s.pc.ret ≠ some new) (hd : s.reloading = true → ¬ s.Due pid) :
    ((s.spawn i new).erase pid).Running := by
  refine ⟨h.staff.replace hm hf hret, fun q hq => ⟨(h.log q hq).1, mem_append_left _ (h.log q hq).2⟩, ?_⟩
  rcases h.phase with hp | hp | hp
  · exact .inl { hp with }
  · -- before the snapshot all workers are due
    refine absurd (due_iff.2 ⟨i, ?_, ?_⟩) (hd hp.reloading)
    · rw [hp.worker]
      exact Nat.zero_le i
    · rw [hp.atStart]
      exact (h.staff.map_iff pid i).1 hm
  · have hlt := hp.lt_of_not_due h.staff hm (hd hp.reloading)
    exact .inr (.inr ⟨hp.reloading, hp.reloadInit, hp.snapshot, hp.length.trans length_set.symm,
      hp.before, fun j hj => (getElem?_set_of_lt (lt_of_lt_of_le hlt hj)).trans (hp.same j hj), hp.due,
      hp.ret, hp.turn⟩)

lemma Running.unknown (h : s.Running) (hpc : s.pc = .body (some pid)) (hm : s.map pid = none) :
    Running { s with pc := .enter } := by
  have hret : s.pc.ret = some pid := by rw [hpc]; rfl
  have hnot : ∀ j, s.map pid ≠ some j := fun j he => absurd (he.symm.trans hm) (some_ne_none j)
  refine ⟨h.staff.handled fun q hq hmem => ?_, h.log, ?_⟩
  · obtain rfl : pid = q := some.inj (hret.symm.trans hq)
    obtain ⟨j, hj⟩ := h.staff.map_of_mem hmem
    exact hnot j hj
  · rcases h.phase with hp | hp | hp
    · exact .inl { hp with }
    · cases hret.symm.trans hp.ret
    · refine .inr (.inr ⟨hp.reloading, hp.reloadInit, hp.snapshot, hp.length, hp.before, hp.same,
        fun q hd hq => ?_, nofun,
        fun _ => hp.turn (by rw [hpc]; exact Pc.noConfusion)⟩)
      obtain rfl : pid = q := some.inj (hret.symm.trans (hp.due q hd hq))
      obtain ⟨j, -, hj⟩ := hp.map_of_due h.staff hd
      exact absurd hj (hnot j)

section
variable (hp : s.Reloading) (hs : Staffed s.pids s.map s.procs s.ever s.pc.ret) (hpid : s.pc.ret = some pid)
include hp hs hpid

lemma Reloading.collect_turn (hkill : s.pc ≠ .kill) (hm : s.map pid = some i)
    (hturn : pid = s.reloadWorkerPid) : (s.restart pid i new).Reloading := by
  unfold restart
  rw [if_pos hturn]
  have hat : s.atStart[s.reloadWorkerI]? = some pid := hturn ▸ (hp.turn hkill).1
  -- the worker has the number whose turn it is, and no other has
  have hnum : ∀ j, s.reloadWorkerI ≤ j → s.atStart[j]? = some pid → j = i := fun j hle hj =>
    some.inj (((hs.map_iff pid j).2 ((hp.same j hle).trans hj)).symm.trans hm)
  have hi : s.reloadWorkerI = i := hnum _ le_rfl hat
  refine ⟨hp.reloading, hp.reloadInit, hp.snapshot, hp.length.trans length_set.symm,
    fun j q hj hq => ?_, fun j hj => ?_, fun q hd hq => ?_,
    nofun, fun he => absurd rfl he⟩
  · rcases lt_or_eq_of_le (Nat.lt_succ_iff.1 hj) with hj | rfl
    · exact hp.before j q hj hq
    · exact some.inj (hat.symm.trans hq) ▸ (hp.ret pid hpid).1
  · exact (getElem?_set_of_lt (hi ▸ hj)).trans (hp.same j (Nat.le_of_succ_le hj))
  · obtain ⟨j, hj, hq'⟩ := due_iff.1 hd
    have hle : s.reloadWorkerI ≤ j := Nat.le_of_succ_le hj
    obtain rfl : pid = q := some.inj (hpid.symm.trans (hp.due q (due_iff.2 ⟨j, hle, hq'⟩) hq))
    exact absurd (hi.trans (hnum j hle hq').symm) (ne_of_lt hj)

lemma Reloading.collect_other (hm : s.map pid = some i) (hne : pid ≠ s.reloadWorkerPid) :
    (s.restart pid i new).Reloading := by
  unfold restart
  rw [if_neg hne]
  have hd := (hp.ret pid hpid).2.resolve_left hne
  have hlt := hp.lt_of_not_due hs hm hd
  refine ⟨hp.reloading, hp.reloadInit, hp.snapshot, hp.length.trans length_set.symm, hp.before,
    fun j hj => (getElem?_set_of_lt (lt_of_lt_of_le hlt hj)).trans (hp.same j hj), fun q hdue hq => ?_,
    nofun, fun he => absurd rfl he⟩
  obtain rfl : pid = q := some.inj (hpid.symm.trans (hp.due q hdue hq))
  exact absurd hdue hd

end

lemma Running.collect (h : s.Running) (hpc : s.pc = .body (some pid)) (hm : s.map pid = some i)
    (hf : s.procs.Fresh new) (hret : s.pc.ret ≠ some new) : (s.restart pid i new).Running := by
  have hpid : s.pc.ret = some pid := by rw [hpc]; rfl
  have hstaff := h.staff.replace hm hf hret
  refine ⟨hstaff.handled fun q hq hmem => ?_,
    fun q hq => ⟨(h.log q hq).1, mem_append_left _ (h.log q hq).2⟩, ?_⟩
  · obtain rfl : pid = q := some.inj (hpid.symm.trans hq)
    obtain ⟨j, hj⟩ := hstaff.map_of_mem hmem
    have hnone := h.staff.map_replace hm (h.staff.not_mem_of_fresh hf hret) pid
    rw [if_pos rfl] at hnone
    cases hj.symm.trans hnone
  · rcases h.phase with hp | hp | hp
    · have hne : pid ≠ s.reloadWorkerPid := by
        rw [hp.pid]
        exact ne_of_gt (h.staff.pos pid (h.staff.mem_of_map hm))
      refine .inl { hp with worker := ?_ }
      exact (if_neg hne).trans hp.worker
    · cases hpid.symm.trans hp.ret
    · by_cases hne : pid = s.reloadWorkerPid
      · exact .inr (.inr (hp.collect_turn h.staff hpid (by rw [hpc]; exact Pc.noConfusion) hm hne))
      · exact .inr (.inr (hp.collect_other h.staff hpid hm hne))

lemma Running.interrupted (h : s.Running) (hpc : s.pc = .body none) : s.interrupted.Running := by
  have hret : s.pc.ret = none := by rw [hpc]; rfl
  have hstaff := h.staff
  rw [hret] at hstaff
  unfold Pool.interrupted
  rcases h.phase with hp | hp | hp
  · rw [if_pos hp.reloading]
    exact ⟨hstaff, h.log, .inl { hp with }⟩
  · rw [if_neg (by rw [hp.reloading]; decide), if_pos hp.reloadInit]
    refine ⟨hstaff, h.log, .inr (.inr ⟨hp.reloading, rfl, hp.atStart.symm, congrArg length hp.atStart,
      fun j q hj => ?_, fun j _ => ?_, fun q _ hq => ?_, nofun,
      fun he => absurd rfl he⟩)⟩
    · exact absurd (hp.worker ▸ hj) (Nat.not_lt_zero j)
    · rw [hp.atStart]
    · cases hp.exited ▸ hq
  · rw [if_neg (by rw [hp.reloading]; decide), if_neg (by rw [hp.reloadInit]; decide)]
    exact ⟨hstaff, h.log, .inr (.inr ⟨hp.reloading, hp.reloadInit, hp.snapshot, hp.length, hp.before, hp.same,
      fun q hd hq => hret.symm.trans (hp.due q hd hq), nofun,
      fun he => absurd rfl he⟩)⟩

lemma Reloading.all_exited (hp : s.Reloading) (hle : s.pids.length ≤ s.reloadWorkerI) :
    ∀ q ∈ s.atStart, q ∈ s.exited := by
  intro q hq
  obtain ⟨j, hj⟩ := getElem?_of_mem hq
  have hlt : j < s.atStart.length := (List.getElem?_eq_some_iff.1 hj).1
  exact hp.before j q (by have := hp.length; omega) hj

lemma Reloading.target (hp : s.Reloading) (hs : Staffed s.pids s.map s.procs s.ever none)
    (hlt : s.reloadWorkerI < s.pids.length) :
    s.atStart[s.reloadWorkerI]? = some s.target ∧ s.target ∈ s.pids ∧ s.procs s.target ≠ .gone := by
  obtain ⟨q, hq⟩ : ∃ q, s.pids[s.reloadWorkerI]? = some q := ⟨_, getElem?_eq_getElem hlt⟩
  have hat := (hp.same _ le_rfl).symm.trans hq
  have htarget : s.target = q := by
    rw [Pool.target, hp.snapshot, getD_eq_getElem?_getD, hat]
    rfl
  rw [htarget]
  refine ⟨hat, mem_of_getElem? hq, fun hgone => ?_⟩
  cases hs.child q (mem_of_getElem? hq) hgone

lemma Running.killWorker (h : s.Running) (hpc : s.pc = .kill) {res : KillRes} {s' : Pool}
    (he : s.killWorker res = some s') : s'.Running := by
  have hret : s.pc.ret = none := by rw [hpc]; rfl
  have hstaff := h.staff
  rw [hret] at hstaff
  unfold Pool.killWorker at he
  rcases h.phase with hp | hp | hp
  · rw [if_pos hp.reloading] at he
    cases he
    exact ⟨hstaff, h.log, .inl { hp with }⟩
  · rcases hp.pc with he | he <;> cases hpc.symm.trans he
  · rw [if_neg (by rw [hp.reloading]; decide)] at he
    by_cases hle : s.pids.length ≤ s.reloadWorkerI
    · rw [if_pos hle] at he
      cases he
      exact ⟨hstaff, h.log, .inl ⟨rfl, rfl, rfl, rfl, hp.all_exited hle⟩⟩
    · obtain ⟨hat, hmem, halive⟩ := hp.target hstaff (Nat.lt_of_not_le hle)
      rw [if_neg hle] at he
      by_cases hk : s.procs.Kills s.target res
      · -- the target is a child, so `kill` succeeds
        have hok : res = .ok := hk (.inl halive)
        rw [if_pos hk, if_neg (by rw [hok]; decide)] at he
        cases he
        refine ⟨hstaff, fun q hq => ?_, .inr (.inr { hp with
            due := fun q hd hq => hret.symm.trans (hp.due q hd hq), ret := nofun,
            turn := fun _ => ⟨hat, mem_concat_self⟩ })⟩
        rcases mem_append.1 hq with hq | hq
        · exact h.log q hq
        · rw [mem_singleton.1 hq]
          exact ⟨hstaff.pos _ hmem, hstaff.ever _ hmem⟩
      · rw [if_neg hk] at he
        cases he

end

/-! ## runs -/

/-- what is left of the invariant when `wait` has returned -/
structure Settled (s : Pool) : Prop where
  log : ∀ q ∈ s.log, 0 < q ∧ q ∈ s.ever
  exited : s.reloading = false → ∀ q ∈ s.atStart, q ∈ s.exited

def Inv (s : Pool) : Prop := s.Running ∨ s.pc = .returned ∧ s.Settled

section
variable {s' : Pool} {e : PoolEvent}

lemma Running.settled (h : s.Running) : s.Settled := by
  refine ⟨h.log, fun hre => ?_⟩
  rcases h.phase with hp | hp | hp
  · exact hp.exited
  · cases hre.symm.trans hp.reloading
  · cases hre.symm.trans hp.reloading

lemma Inv.settled (h : s.Inv) : s.Settled := by
  rcases h with h | h
  · exact h.settled
  · exact h.2

lemma Running.returns (h : s.Running) : Inv { s with pc := .returned } :=
  .inr ⟨rfl, h.settled.log, h.settled.exited⟩

lemma NotReused.ne {new : Nat} (h : s.NotReused (some new)) : s.pc.ret ≠ some new :=
  h.resolve_left (some_ne_none new)

variable {new : Option Nat} {pid : Nat} {rest : List Nat}

lemma Running.pop (h : s.Running) (hnew : s.NotReused new)
    (hd : s.reloading = true → s.map pid = none ∨ ¬ s.Due pid) (he : s.pop pid rest new = some s') :
    s'.Inv := by
  have hbox : Running { s with messageBox := rest } := h.setPc rest s.readMessage rfl id id
  unfold Pool.pop at he
  dsimp only at he
  split at he
  · cases he
    exact .inl hbox
  · cases he
  · cases he
    exact hbox.returns
  · next i new hm =>
    obtain ⟨hf, rfl⟩ := ite_some_none_eq_some.1 he
    refine .inl (hbox.replace hm hf hnew.ne fun hre => ?_)
    exact (hd hre).resolve_left fun hn => absurd (hm.symm.trans hn) (some_ne_none i)

lemma Running.collected (h : s.Running) (hpc : s.pc = .body (some pid)) (hnew : s.NotReused new)
    (he : s.collected pid new = some s') : s'.Inv := by
  unfold Pool.collected at he
  split at he
  · next hm =>
    cases he
    exact .inl (h.unknown hpc hm)
  · cases he
  · cases he
    exact h.returns
  · next i new hm =>
    obtain ⟨hf, rfl⟩ := ite_some_none_eq_some.1 he
    exact .inl (h.collect hpc hm hf hnew.ne)

lemma Running.popped (h : s.Running) {ret : Option Nat} (hpc : s.pc = .woke ret)
    (he : s.popped ret = some s') : s'.Running := by
  obtain ⟨-, he⟩ := ite_none_left_eq_some.1 he
  cases he
  refine h.setPc s.messageBox false ?_ ?_ ?_ <;> rw [hpc]
  · rfl
  · exact Pc.noConfusion
  · rintro (he | he)
    · obtain rfl := Pc.woke.inj he
      exact .inr rfl
    · cases he

lemma Running.step (h : s.Running) (hc : Careful e s) (he : step e s = some s') : s'.Inv := by
  cases e with
  | request =>
    cases he
    exact .inl (h.request hc)
  | push pid =>
    cases he
    exact .inl (h.setPc _ s.readMessage rfl id id)
  | sigio =>
    cases he
    exact .inl (h.interrupt true)
  | otherSignal =>
    cases he
    exact .inl (h.interrupt s.readMessage)
  | exits pid =>
    obtain ⟨-, rfl⟩ := ite_some_none_eq_some.1 he
    exact .inl (h.exits pid)
  | enterWait =>
    obtain ⟨hpc, rfl⟩ := ite_some_none_eq_some.1 he
    refine .inl (h.setPc s.messageBox s.readMessage ?_ ?_ ?_) <;> rw [hpc]
    · rfl
    · exact Pc.noConfusion
    · rintro (he | he) <;> cases he
  | reap pid =>
    obtain ⟨hpc, rfl⟩ := ite_some_none_eq_some.1 he
    exact .inl (h.reap hpc.1 hc)
  | pop new =>
    dsimp only [Pool.step] at he
    split at he
    · next pid rest _ _ hbox =>
      exact h.pop hc.1 (fun hre => hc.2 hre pid (by rw [hbox]; rfl)) he
    · cases he
  | popped =>
    dsimp only [Pool.step] at he
    split at he
    · next hpc => exact .inl (h.popped hpc he)
    · cases he
  | handle new =>
    dsimp only [Pool.step] at he
    split at he
    · next hpc =>
      cases he
      exact .inl (h.interrupted hpc)
    · next hpc => exact h.collected hpc hc he
    · cases he
  | kill res =>
    obtain ⟨hpc, he⟩ := ite_none_right_eq_some.1 he
    exact .inl (h.killWorker hpc he)

lemma Settled.step (h : s.Settled) (hpc : s.pc = .returned) (hc : Careful e s) (he : step e s = some s') :
    s'.Inv := by
  have hint : s.pc.interrupt = .returned := by rw [hpc]; rfl
  cases e with
  | request => rcases hc.2 with he | he | he <;> cases hpc.symm.trans he
  | push pid =>
    cases he
    exact .inr ⟨hpc, h.log, h.exited⟩
  | sigio | otherSignal =>
    cases he
    exact .inr ⟨hint, h.log, h.exited⟩
  | exits pid =>
    obtain ⟨-, rfl⟩ := ite_some_none_eq_some.1 he
    exact .inr ⟨hpc, h.log, h.exited⟩
  | enterWait | kill res =>
    obtain ⟨he, -⟩ := ite_none_right_eq_some.1 he
    cases hpc.symm.trans he
  | reap pid =>
    obtain ⟨he, -⟩ := ite_none_right_eq_some.1 he
    cases hpc.symm.trans he.1
  | pop new | popped | handle new =>
    dsimp only [Pool.step] at he
    rw [hpc] at he
    cases he

lemma Inv.step (e : PoolEvent) (s s' : Pool) (hc : Careful e s) (h : s.Inv) (he : Pool.step e s = some s') :
    s'.Inv := by
  rcases h with h | ⟨hpc, h⟩
  · exact h.step hc he
  · exact h.step hpc hc he

/-- while a reload is under way, `s'` comes after `s` -/
structure After (s s' : Pool) : Prop where
  atStart : s'.atStart = s.atStart
  exited : ∀ q ∈ s.exited, q ∈ s'.exited
  worker : s'.reloading = true → s.reloadWorkerI ≤ s'.reloadWorkerI

def progress (s : Pool) : List Nat × List Nat × Nat := (s.atStart, s.exited, s.reloadWorkerI)

lemma After.of_progress (h : s'.progress = s.progress) : s.After s' := by
  obtain ⟨hat, h⟩ := Prod.mk.inj h
  obtain ⟨hexit, hi⟩ := Prod.mk.inj h
  exact ⟨hat, fun q hq => hexit ▸ hq, fun _ => le_of_eq hi.symm⟩

lemma After.trans {s'' : Pool} (h : s.After s') (hre : s'.reloading = true) (h' : s'.After s'') : s.After s'' :=
  ⟨h'.atStart.trans h.atStart, fun q hq => h'.exited q (h.exited q hq),
    fun hre' => le_trans (h.worker hre) (h'.worker hre')⟩

lemma pop_after (he : s.pop pid rest new = some s') : s.After s' := by
  unfold Pool.pop at he
  dsimp only at he
  split at he
  · cases he
    exact .of_progress rfl
  · cases he
  · cases he
    exact .of_progress rfl
  · obtain ⟨-, rfl⟩ := ite_some_none_eq_some.1 he
    exact .of_progress rfl

lemma collected_after (he : s.collected pid new = some s') : s.After s' := by
  unfold Pool.collected at he
  split at he
  · cases he
    exact .of_progress rfl
  · cases he
  · cases he
    exact .of_progress rfl
  · obtain ⟨-, rfl⟩ := ite_some_none_eq_some.1 he
    refine ⟨rfl, fun _ hq => hq, fun _ => ?_⟩
    show s.reloadWorkerI ≤ if pid = s.reloadWorkerPid then s.reloadWorkerI + 1 else s.reloadWorkerI
    split <;> omega

lemma interrupted_after : s.After s.interrupted := by
  unfold Pool.interrupted
  split
  · exact .of_progress rfl
  · split <;> exact .of_progress rfl

lemma killWorker_after {res : KillRes} (he : s.killWorker res = some s') : s.After s' := by
  unfold Pool.killWorker at he
  split at he
  · cases he
    exact .of_progress rfl
  · split at he
    · cases he
      exact ⟨rfl, fun _ hq => hq, nofun⟩
    · obtain ⟨-, he⟩ := ite_none_right_eq_some.1 he
      split at he
      · cases he
        exact ⟨rfl, fun _ hq => hq, fun _ => Nat.le_succ _⟩
      · cases he
        exact .of_progress rfl

lemma step_after (hre : s.reloading = true) (hc : Careful e s) (he : step e s = some s') : s.After s' := by
  cases e with
  | request => cases hc.1.symm.trans hre
  | push pid | sigio | otherSignal =>
    cases he
    exact .of_progress rfl
  | exits pid | enterWait =>
    obtain ⟨-, rfl⟩ := ite_some_none_eq_some.1 he
    exact .of_progress rfl
  | reap pid =>
    obtain ⟨-, rfl⟩ := ite_some_none_eq_some.1 he
    exact ⟨rfl, fun _ hq => mem_append_left _ hq, fun _ => le_rfl⟩
  | pop new =>
    dsimp only [step] at he
    split at he
    · exact pop_after he
    · cases he
  | popped =>
    dsimp only [step] at he
    split at he
    · obtain ⟨-, he⟩ := ite_none_left_eq_some.1 he
      cases he
      exact .of_progress rfl
    · cases he
  | handle new =>
    dsimp only [step] at he
    split at he
    · cases he
      exact interrupted_after
    · exact collected_after he
    · cases he
  | kill res =>
    obtain ⟨-, he⟩ := ite_none_right_eq_some.1 he
    exact killWorker_after he

lemma Inv.waits (h : s.Inv) (hpc : s.pc = .wait) (hre : s.reloading = true) :
    ∃ q, s.atStart[s.reloadWorkerI]? = some q ∧ q ∈ s.terms ∧ q ∉ s.exited := by
  rcases h with h | ⟨he, -⟩
  · rcases h.phase with hp | hp | hp
    · cases hp.reloading.symm.trans hre
    · rcases hp.pc with he | he <;> cases hpc.symm.trans he
    · have hkill : s.pc ≠ .kill := by rw [hpc]; exact Pc.noConfusion
      refine ⟨_, (hp.turn hkill).1, (hp.turn hkill).2, fun hexit => ?_⟩
      have hret := hp.due _ (due_iff.2 ⟨_, le_rfl, (hp.turn hkill).1⟩) hexit
      rw [hpc] at hret
      cases hret
  · cases hpc.symm.trans he

end

variable {pids : List Nat} {input : Nat → PoolEvent} {state : Nat → Pool}

lemma After.of_phase (hrun : Behaviour step Careful input state) {t t' : Nat} (hle : t ≤ t')
    (hre : ∀ u, t ≤ u → u < t' → (state u).reloading = true) : (state t).After (state t') :=
  follows_of_phase (B := fun s : Pool => s.reloading = true) (.of_progress rfl)
    (fun u hu h => h.trans hu (step_after hu (hrun.meets u) (hrun.next u))) hle hre

lemma reload_ends (hinv : ∀ t, (state t).Inv) (hrun : Behaviour step Careful input state)
    (hloop : ∀ t, ∃ t' ≥ t, (state t').pc = .wait)
    (hexit : ∀ t q, q ∈ (state t).terms → ∃ t' ≥ t, (state t').reloading = true → q ∈ (state t').exited)
    (t : Nat) : ∃ t' ≥ t, ¬ (state t').reloading = true := by
  have hlater : ∀ t t', t ≤ t' → (∀ u, t ≤ u → u ≤ t' → (state u).reloading = true) →
      (state t').atStart = (state t).atStart ∧ (state t).reloadWorkerI ≤ (state t').reloadWorkerI ∧
        ∀ q, q ∈ (state t).exited → q ∈ (state t').exited := by
    intro t t' hle hre
    have hafter := After.of_phase hrun hle fun u hu hlt => hre u hu (le_of_lt hlt)
    exact ⟨hafter.atStart, hafter.worker (hre t' hle le_rfl), hafter.exited⟩
  exact ends_of_turns (B := fun s : Pool => s.reloading = true) atStart reloadWorkerI
    (fun s q => q ∈ s.terms) (fun s q => q ∈ s.exited) (fun s => s.pc = .wait) hlater
    (fun t hre hpc => (hinv t).waits hpc hre) hloop hexit t

/-- **Every `SIGTERM` goes to a worker, and a reload ends with all workers it found exited.** -/
theorem reload_reaches_workers (hn : pids.Nodup) (hpos : ∀ q ∈ pids, 0 < q) (h0 : state 0 = start pids)
    (hrun : Behaviour step Careful input state) :
    (∀ t, ∀ q ∈ (state t).log, 0 < q ∧ q ∈ (state t).ever) ∧ ((∀ t, ∃ t' ≥ t, (state t').pc = .wait) →
        (∀ t q, q ∈ (state t).terms → ∃ t' ≥ t, (state t').reloading = true → q ∈ (state t').exited) →
        ∀ t, (state t).reloading = true →
          ∃ t' ≥ t, (state t').reloading = false ∧ ∀ q ∈ (state t).atStart, q ∈ (state t').exited) := by
  have hinv : ∀ t, (state t).Inv := hrun.keeps Inv.step (h0 ▸ .inl (running_start hn hpos))
  refine ⟨fun t => (hinv t).settled.log, fun hloop hexit t _ => ?_⟩
  obtain ⟨t', ht', hre, hphase⟩ := exists_first (B := fun s : Pool => s.reloading = true)
    (reload_ends hinv hrun hloop hexit t)
  have hre' := Bool.eq_false_iff.2 hre
  refine ⟨t', ht', hre', fun q hq => (hinv t').settled.exited hre' q ?_⟩
  rw [(After.of_phase hrun ht' hphase).atStart]
  exact hq

def reloadOfTwo : List PoolEvent :=
  [.enterWait, .request, .popped, .handle none, .kill .ok,
    .enterWait, .exits 101, .reap 101, .popped, .handle (some 103), .kill .ok,
    .enterWait, .exits 102, .reap 102, .popped, .handle (some 104), .kill .ok, .enterWait]

theorem reload_reaches_two : ∃ (input : Nat → PoolEvent) (state : Nat → Pool), state 0 = start [101, 102] ∧
    Behaviour step Careful input state ∧ (state 2).reloading = true ∧
    (∀ t, ∀ q ∈ (state t).log, 0 < q ∧ q ∈ (state t).ever) ∧
    ∃ t' ≥ 2, (state t').reloading = false ∧ ∀ q ∈ (state 2).atStart, q ∈ (state t').exited := by
  let ended : Pool := ((iter step reloadOfTwo (start [101, 102])).getD (start []))
  let C : PoolEvent → Pool → Prop := fun e s => Careful e s ∧ ∀ q ∈ s.terms, q ∈ [101, 102]
  have hpre : OnLasso step C ended (start [101, 102], reloadOfTwo) := ⟨rfl, by decide⟩
  have hloop : OnLasso step C ended (ended, [.otherSignal, .popped, .handle none, .enterWait]) :=
    ⟨rfl, by decide⟩
  obtain ⟨hrun, hback⟩ := Behaviour.lasso hpre hloop
  have hrun' : Behaviour step Careful _ _ := hrun.mono fun _ _ h => h.1
  obtain ⟨hlog, hend⟩ := reload_reaches_workers (by decide) (by decide) rfl hrun'
  refine ⟨_, _, rfl, hrun', rfl, hlog, hend (fun t => ?_) (fun t q hq => ?_) 2 rfl⟩
  · obtain ⟨t', ht', he⟩ := hback t
    exact ⟨t', ht', by rw [he]; rfl⟩
  · obtain ⟨t', ht', he⟩ := hback t
    exact ⟨t', ht', fun _ => by rw [he]; exact (hrun.meets t).2 q hq⟩

/-- `SIGTERM` goes to the process group; and the reload waits for a process that is gone -/
theorem reload_goes_astray :
    (∃ s, iter step [.enterWait, .exits 101, .reap 101, .popped, .request, .handle (some 102), .kill .ok]
        (start [101]) = some s ∧ s.log = [0]) ∧
      ∃ s, iter step [.enterWait, .request, .popped, .handle none, .kill .ok, .enterWait, .exits 102,
          .reap 102, .popped, .handle (some 103), .kill .ok, .enterWait, .exits 101, .reap 101, .popped,
          .handle (some 104), .kill .esrch, .enterWait] (start [101, 102]) = some s ∧
        s.reloading = true ∧ s.pc = .wait ∧ s.exited = [102, 101] ∧ s.reloadWorkerPid = 102 ∧
        s.procs 102 = .gone :=
  ⟨⟨_, rfl, rfl⟩, _, rfl, rfl, rfl, rfl, rfl, rfl⟩

end Pool

end OSW.Os
