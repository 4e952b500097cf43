import OpenSwoole.Lib.Behaviour
import OpenSwoole.Server.Manager

/-!
# Reloads of the workers

A reload that the signal handler accepts is turned into a snapshot of the workers when `wait` returns
without a child.  The workers of the snapshot then have their turns: one after the other is sent `SIGTERM`
and waited for.  A child that `wait` returns before the snapshot is taken ends the reload instead.

* `Manager.Careful`   the condition on a step.
-/

namespace OSW

open Os List Option Machine

namespace Manager

/-! ## the phases of a reload -/

def snapshot (s : Manager) : List Nat := s.reloadWorkers.take s.reloadWorkerNum

/-- no reload is under way, and the last one has reached all -/
structure Idle (s : Manager) : Prop where
  reloading : s.reloading = false
  reloadInit : s.reloadInit = false
  all : s.reloadAllWorker = false
  task : s.reloadTaskWorker = false
  reached : ∀ q ∈ s.atAccept, q ∈ s.terms ∨ q ∈ s.exited

/-- a reload is accepted; its snapshot is taken in this round of the loop -/
structure Asked (s : Manager) : Prop where
  reloading : s.reloading = true
  reloadInit : s.reloadInit = false
  pc : s.pc = .woke none ∨ s.pc = .body none
  kept : ∀ q ∈ s.atAccept, s.procs q ≠ .gone
  exited : s.exited = []
  kind : (s.reloadAllWorker = true ∧ s.reloadTaskWorker = false ∧ s.atAccept ⊆ s.workers ++ s.taskWorkers) ∨
    (s.reloadAllWorker = false ∧ s.reloadTaskWorker = true ∧ s.taskWorkers ≠ [] ∧ s.atAccept ⊆ s.taskWorkers)

/-- a reload is under way: those before the turn are reached, and apart from `_kill_worker` the one whose
turn it is has been sent `SIGTERM` and is waited for -/
structure Reloading (s : Manager) : Prop where
  reloading : s.reloading = true
  reloadInit : s.reloadInit = true
  all : s.reloadAllWorker = false
  task : s.reloadTaskWorker = false
  num_le : s.reloadWorkerNum ≤ s.reloadWorkers.length
  has : s.atAccept ⊆ s.snapshot
  before : ∀ j q, j < s.reloadWorkerI → s.snapshot[j]? = some q → q ∈ s.atAccept →
    q ∈ s.terms ∨ q ∈ s.exited
  kept : ∀ q ∈ s.atAccept, s.procs q = .gone → q ∈ s.exited
  gone : ∀ q ∈ s.snapshot, q ∈ s.exited → s.procs q = .gone
  turn : s.pc ≠ .kill → s.snapshot[s.reloadWorkerI]? = some s.reloadWorkerPid ∧
    s.reloadWorkerPid ∈ s.terms ∧ (s.procs s.reloadWorkerPid = .gone → s.pc.ret = some s.reloadWorkerPid)

def Inv (s : Manager) : Prop := s.Idle ∨ s.Asked ∨ s.Reloading

/-- a reload is accepted when no returned pid is to be handled, and the loop has not passed the test of
`reloading` -/
def MayAccept (s : Manager) : Prop :=
  s.reloading = false → s.pc = .wait ∨ s.pc = .woke none ∨ s.pc = .body none

/-- the pid of a new process is none of the snapshot -/
def NotReused (s : Manager) (new : Option Nat) : Prop := s.reloading = true → ∀ q ∈ new, q ∉ s.snapshot

/-- `SIGTERM` finds no process under the pid of a worker that was waited for -/
def KillsChild (s : Manager) (res : KillRes) : Prop :=
  s.reloading = true → s.reloadWorkerI < s.reloadWorkerNum → s.procs s.target = .gone →
    res = .echild ∨ res = .esrch

def Careful (e : ManagerEvent) (s : Manager) : Prop :=
  match e with
  | .sigusr1 => s.MayAccept
  | .sigusr2 => s.MayAccept ∧ s.taskWorkers ≠ []
  | .pop new => (s.reloading = true → s.reloadInit = true) ∧ s.NotReused new
  | .handle new newTask => s.NotReused new ∧ s.NotReused newTask
  | .kill res => s.KillsChild res
  | _ => True

instance (s : Manager) : Decidable s.MayAccept := inferInstanceAs (Decidable (_ → _))

instance (s : Manager) (new : Option Nat) : Decidable (s.NotReused new) := inferInstanceAs (Decidable (_ → _))

instance (s : Manager) (res : KillRes) : Decidable (s.KillsChild res) := inferInstanceAs (Decidable (_ → _))

instance (e : ManagerEvent) (s : Manager) : Decidable (Careful e s) := by
  cases e <;> dsimp only [Careful] <;> infer_instance

/-! ## one step -/

section
variable {s s' : Manager}

lemma Asked.ret (h : s.Asked) : s.pc.ret = none := by rcases h.pc with he | he <;> rw [he] <;> rfl

lemma mem_alive {pids : List Nat} {q : Nat} : q ∈ s.alive pids ↔ q ∈ pids ∧ s.procs q ≠ .gone := by
  rw [alive, mem_filter, decide_eq_true_iff]

lemma Inv.idle (h : s.Inv) (hre : s.reloading = false) : s.Idle := by
  rcases h with hp | hp | hp
  · exact hp
  · cases hre.symm.trans hp.reloading
  · cases hre.symm.trans hp.reloading

lemma Inv.setPc (h : s.Inv) {pc : Pc} (box : List Nat) (b : Bool) (hret : pc.ret = s.pc.ret)
    (hkill : s.pc = .kill → pc = .kill)
    (hasked : s.pc = .woke none ∨ s.pc = .body none → pc = .woke none ∨ pc = .body none) :
    Inv { s with messageBox := box, readMessage := b, pc := pc } := by
  rcases h with hp | hp | hp
  · exact .inl { hp with }
  · exact .inr (.inl { hp with pc := hasked hp.pc })
  · refine .inr (.inr { hp with turn := fun hpc => ?_ })
    obtain ⟨hat, hterm, hgone⟩ := hp.turn fun he => hpc (hkill he)
    exact ⟨hat, hterm, fun hg => hret.trans (hgone hg)⟩

lemma Inv.interrupt (h : s.Inv) (b : Bool) : Inv { s with readMessage := b, pc := s.pc.interrupt } := by
  refine h.setPc s.messageBox b ?_ (fun he => by rw [he]; rfl) ?_
  · cases s.pc <;> rfl
  · rintro (he | he) <;> rw [he]
    · exact .inl rfl
    · exact .inr rfl

lemma Inv.signalHandler (h : s.Inv) (hc : s.MayAccept) {all : Bool} (htask : all = true ∨ s.taskWorkers ≠ []) :
    (s.signalHandler all).Inv := by
  unfold Manager.signalHandler
  by_cases hre : s.reloading = true
  · rw [if_pos hre]
    exact h.interrupt s.readMessage
  · rw [if_neg hre]
    have hre' := Bool.eq_false_iff.2 hre
    have hidle := h.idle hre'
    have hpc : s.pc.interrupt = .woke none ∨ s.pc.interrupt = .body none := by
      rcases hc hre' with hpc | hpc | hpc <;> rw [hpc]
      · exact .inl rfl
      · exact .inl rfl
      · exact .inr rfl
    cases all with
    | true =>
      exact .inr (.inl ⟨rfl, hidle.reloadInit, hpc, fun q hq => (mem_alive.1 hq).2, rfl,
        .inl ⟨rfl, hidle.task, fun q hq => (mem_alive.1 hq).1⟩⟩)
    | false =>
      exact .inr (.inl ⟨rfl, hidle.reloadInit, hpc, fun q hq => (mem_alive.1 hq).2, rfl,
        .inr ⟨hidle.all, rfl, htask.resolve_left Bool.false_ne_true, fun q hq => (mem_alive.1 hq).1⟩⟩)

variable {pid workerId : Nat} {new newTask : Option Nat} {rest : List Nat} {res : KillRes}

lemma Inv.exits (h : s.Inv) (hpid : s.procs pid = .running) :
    Inv { s with procs := s.procs.exits pid } := by
  rcases h with hp | hp | hp
  · exact .inl { hp with }
  · exact .inr (.inl { hp with kept := fun q hq hg => hp.kept q hq (Procs.exits_eq_gone.1 hg).2 })
  · refine .inr (.inr ⟨hp.reloading, hp.reloadInit, hp.all, hp.task, hp.num_le, hp.has, hp.before,
      fun q hq hg => hp.kept q hq (Procs.exits_eq_gone.1 hg).2,
      fun q hq he => Procs.exits_eq_gone.2 ⟨?_, hp.gone q hq he⟩, fun hpc => ?_⟩)
    · rintro rfl
      cases hpid.symm.trans (hp.gone q hq he)
    · obtain ⟨hat, hterm, hgone⟩ := hp.turn hpc
      exact ⟨hat, hterm, fun hg => hgone (Procs.exits_eq_gone.1 hg).2⟩

lemma Inv.reap (h : s.Inv) (hpc : s.pc = .wait) (pid : Nat) : (s.reap pid).Inv := by
  rcases h with hp | hp | hp
  · exact .inl { hp with reached := fun q hq => (hp.reached q hq).imp_right (mem_append_left _) }
  · rcases hp.pc with he | he <;> cases hpc.symm.trans he
  · refine .inr (.inr { hp with
        before := fun j q hj hq ha => (hp.before j q hj hq ha).imp_right (mem_append_left _),
        kept := fun q hq hg => ?_, gone := fun q hq he => ?_, turn := fun _ => ?_ })
    · rcases Procs.reap_eq_gone.1 hg with rfl | hg
      · exact mem_concat_self
      · exact mem_append_left _ (hp.kept q hq hg)
    · rcases mem_append.1 he with he | he
      · exact Procs.reap_eq_gone.2 (.inr (hp.gone q hq he))
      · exact Procs.reap_eq_gone.2 (.inl (mem_singleton.1 he))
    · obtain ⟨hat, hterm, hgone⟩ := hp.turn (by rw [hpc]; exact Pc.noConfusion)
      refine ⟨hat, hterm, fun hg => ?_⟩
      rcases Procs.reap_eq_gone.1 hg with he | hg
      · exact congrArg some he.symm
      · have hret := hgone hg
        rw [hpc] at hret
        cases hret

/-! ## new workers -/

/-- `s'` is `s` with a new process, or after a failed `fork` -/
def Respawned (s s' : Manager) (new : Option Nat) : Prop :=
  ∃ workers taskWorkers map, s' = { s with
    workers := workers
    taskWorkers := taskWorkers
    taskMap := map
    procs := new.elim s.procs s.procs.fork }

lemma Idle.respawned (hp : s.Idle) (h : Respawned s s' new) : s'.Idle := by
  obtain ⟨_, _, _, rfl⟩ := h
  exact { hp with }

lemma Reloading.respawned (hp : s.Reloading) (h : Respawned s s' new) (hnew : s.NotReused new) :
    s'.Reloading := by
  obtain ⟨_, _, _, rfl⟩ := h
  cases new with
  | none => exact { hp with }
  | some new =>
    refine ⟨hp.reloading, hp.reloadInit, hp.all, hp.task, hp.num_le, hp.has, hp.before,
      fun q hq hg => hp.kept q hq (Procs.fork_eq_gone.1 hg).2,
      fun q hq he => Procs.fork_eq_gone.2 ⟨?_, hp.gone q hq he⟩, fun hpc => ?_⟩
    · rintro rfl
      exact hnew hp.reloading q rfl hq
    · obtain ⟨hat, hterm, hgone⟩ := hp.turn hpc
      exact ⟨hat, hterm, fun hg => hgone (Procs.fork_eq_gone.1 hg).2⟩

lemma replaceEvent_respawned (he : s.replaceEvent pid new = some s') : Respawned s s' new := by
  unfold replaceEvent at he
  split at he
  · cases he
    exact ⟨_, _, _, rfl⟩
  · obtain ⟨-, rfl⟩ := ite_some_none_eq_some.1 he
    exact ⟨_, _, _, rfl⟩
  · cases he

lemma replaceTask_respawned (he : s.replaceTask pid new = some s') : Respawned s s' new := by
  unfold replaceTask at he
  split at he
  · cases he
    exact ⟨_, _, _, rfl⟩
  · obtain ⟨-, rfl⟩ := ite_some_none_eq_some.1 he
    exact ⟨_, _, _, rfl⟩
  · cases he

lemma pop_respawned (he : s.pop workerId rest new = some s') :
    Respawned { s with messageBox := rest } s' new := by
  cases new with
  | none =>
    cases he
    exact ⟨_, _, _, rfl⟩
  | some new =>
    obtain ⟨-, he⟩ := ite_none_right_eq_some.1 he
    split at he
    · cases he
      exact ⟨_, _, _, rfl⟩
    · cases he
      exact ⟨_, _, _, rfl⟩

lemma Inv.pop (h : s.Inv) (hinit : s.reloading = true → s.reloadInit = true)
    (hnew : s.NotReused new) (he : s.pop workerId rest new = some s') : s'.Inv := by
  have hbox : Inv { s with messageBox := rest } := h.setPc rest s.readMessage rfl id id
  rcases hbox with hp | hp | hp
  · exact .inl (hp.respawned (pop_respawned he))
  · cases hp.reloadInit.symm.trans (hinit hp.reloading)
  · exact .inr (.inr (hp.respawned (pop_respawned he) hnew))

lemma Inv.popped (h : s.Inv) {ret : Option Nat} (hpc : s.pc = .woke ret) (he : s.popped ret = some s') :
    s'.Inv := by
  obtain ⟨-, he⟩ := ite_none_left_eq_some.1 he
  cases he
  refine h.setPc s.messageBox false ?_ ?_ ?_ <;> rw [hpc]
  · rfl
  · exact Pc.noConfusion
  · rintro (he | he)
    · obtain rfl := Pc.woke.inj he
      exact .inr rfl
    · cases he

/-! ## turns -/

lemma Reloading.collect (hp : s.Reloading) (hkill : s.pc ≠ .kill) (pid : Nat) : Reloading { s with
    reloadWorkerI :=
      if pid = s.reloadWorkerPid ∧ s.reloading = true then s.reloadWorkerI + 1 else s.reloadWorkerI
    pc := .kill } := by
  refine { hp with before := fun j q hj hq ha => ?_, turn := fun he => absurd rfl he }
  obtain ⟨hat, hterm, -⟩ := hp.turn hkill
  have hle : j ≤ s.reloadWorkerI := by
    dsimp only at hj
    split at hj <;> omega
  rcases lt_or_eq_of_le hle with hlt | rfl
  · exact hp.before j q hlt hq ha
  · exact .inl (some.inj (hat.symm.trans hq) ▸ hterm)

lemma Inv.collected (h : s.Inv) (hpc : s.pc = .body (some pid)) (hnew : s.NotReused new)
    (hnewTask : s.NotReused newTask) (he : s.collected pid new newTask = some s') : s'.Inv := by
  obtain ⟨s₁, h₁, he⟩ := bind_eq_some_iff.1 he
  obtain ⟨s₂, h₂, he⟩ := bind_eq_some_iff.1 he
  cases he
  have hr₁ := replaceEvent_respawned h₁
  have hr₂ := replaceTask_respawned h₂
  rcases h with hp | hp | hp
  · have hp₂ := (hp.respawned hr₁).respawned hr₂
    exact .inl { hp₂ with }
  · have hret := hp.ret
    rw [hpc] at hret
    cases hret
  · have hp₁ := hp.respawned hr₁ hnew
    have hnew₁ : s₁.NotReused newTask := by
      obtain ⟨_, _, _, rfl⟩ := hr₁
      exact hnewTask
    have hkill : s₂.pc ≠ .kill := by
      obtain ⟨_, _, _, rfl⟩ := hr₁
      obtain ⟨_, _, _, rfl⟩ := hr₂
      rw [hpc]
      exact Pc.noConfusion
    exact .inr (.inr ((hp₁.respawned hr₂ hnew₁).collect hkill pid))

lemma snapshot_initAll (s : Manager) : s.initAll.snapshot = s.workers ++ s.taskWorkers := by
  show (s.workers ++ s.taskWorkers).take (s.workers.length + s.taskWorkers.length) = _
  rw [← length_append, take_length]

lemma Asked.initAll (hp : s.Asked) (htask : s.reloadTaskWorker = false)
    (hsub : s.atAccept ⊆ s.workers ++ s.taskWorkers) : Reloading { s.initAll with pc := .kill } := by
  have hsnap : Manager.snapshot { s.initAll with pc := .kill } = s.workers ++ s.taskWorkers := snapshot_initAll s
  refine ⟨hp.reloading, rfl, rfl, htask, ?_, ?_, fun j q hj hq ha => .inl ?_,
    fun q hq hg => absurd hg (hp.kept q hq), fun q _ he => absurd (hp.exited ▸ he) not_mem_nil,
    fun he => absurd rfl he⟩
  · exact le_of_eq length_append.symm
  · rw [hsnap]
    exact hsub
  · rw [hsnap] at hq
    replace hj : j < if s.reloadAsync = true then s.workers.length else 0 := hj
    show q ∈ if s.reloadAsync = true then s.terms ++ s.alive s.workers else s.terms
    by_cases hasync : s.reloadAsync = true
    · rw [if_pos hasync] at hj ⊢
      rw [getElem?_append_left hj] at hq
      exact mem_append_right _ (mem_alive.2 ⟨mem_of_getElem? hq, hp.kept q ha⟩)
    · rw [if_neg hasync] at hj
      exact absurd hj (Nat.not_lt_zero j)

lemma Asked.initTask (hp : s.Asked) (hall : s.reloadAllWorker = false) (hsub : s.atAccept ⊆ s.taskWorkers) :
    Reloading { s.initTask with pc := .kill } := by
  have hsnap : Manager.snapshot { s.initTask with pc := .kill } = s.taskWorkers := take_left
  refine ⟨hp.reloading, rfl, hall, rfl, ?_, ?_, fun j q hj => absurd hj (Nat.not_lt_zero j),
    fun q hq hg => absurd hg (hp.kept q hq), fun q _ he => absurd (hp.exited ▸ he) not_mem_nil,
    fun he => absurd rfl he⟩
  · show s.taskWorkers.length ≤ (s.taskWorkers ++ s.reloadWorkers.drop s.taskWorkers.length).length
    rw [length_append]
    exact Nat.le_add_right _ _
  · rw [hsnap]
    exact hsub

lemma Inv.interrupted (h : s.Inv) (hpc : s.pc = .body none) : s.interrupted.Inv := by
  unfold Manager.interrupted
  rcases h with hp | hp | hp
  · rw [if_pos hp.reloading]
    exact .inl { hp with }
  · rw [if_neg (by rw [hp.reloading]; decide)]
    rcases hp.kind with ⟨hall, htask, hsub⟩ | ⟨hall, htask, hne, hsub⟩
    · rw [if_pos hall, if_neg (by rw [hp.reloadInit]; decide)]
      exact .inr (.inr (hp.initAll htask hsub))
    · rw [if_neg (by rw [hall]; decide), if_pos htask, if_neg hne, if_neg (by rw [hp.reloadInit]; decide)]
      exact .inr (.inr (hp.initTask hall hsub))
  · rw [if_neg (by rw [hp.reloading]; decide), if_neg (by rw [hp.all]; decide), if_neg (by rw [hp.task]; decide)]
    refine .inr (.inr { hp with turn := fun _ => ?_ })
    obtain ⟨hat, hterm, hgone⟩ := hp.turn (by rw [hpc]; exact Pc.noConfusion)
    rw [hpc] at hgone
    exact ⟨hat, hterm, hgone⟩

section
variable (hp : s.Reloading)
include hp

lemma Reloading.length_snapshot : s.snapshot.length = s.reloadWorkerNum := by
  rw [snapshot, length_take, min_eq_left hp.num_le]

lemma Reloading.all_reached (hle : s.reloadWorkerNum ≤ s.reloadWorkerI) :
    ∀ q ∈ s.atAccept, q ∈ s.terms ∨ q ∈ s.exited := by
  intro q hq
  obtain ⟨j, hj⟩ := getElem?_of_mem (hp.has hq)
  have hlt : j < s.snapshot.length := (List.getElem?_eq_some_iff.1 hj).1
  have hlen := hp.length_snapshot
  exact hp.before j q (by omega) hj hq

lemma Reloading.target (hlt : s.reloadWorkerI < s.reloadWorkerNum) :
    s.snapshot[s.reloadWorkerI]? = some s.target := by
  have hlen : s.reloadWorkerI < s.reloadWorkers.length := lt_of_lt_of_le hlt hp.num_le
  rw [snapshot, getElem?_take_of_lt hlt, Manager.target, getD_eq_getElem?_getD, getElem?_eq_getElem hlen]
  rfl

lemma Reloading.skip (hpc : s.pc = .kill) (hlt : s.reloadWorkerI < s.reloadWorkerNum)
    (hgone : s.procs s.target = .gone) :
    Reloading { s with reloadWorkerPid := s.target, reloadWorkerI := s.reloadWorkerI + 1 } := by
  refine { hp with before := fun j q hj hq ha => ?_, turn := fun he => absurd hpc he }
  rcases lt_or_eq_of_le (Nat.lt_succ_iff.1 hj) with hj | rfl
  · exact hp.before j q hj hq ha
  · obtain rfl : s.target = q := some.inj ((hp.target hlt).symm.trans hq)
    exact .inr (hp.kept _ ha hgone)

lemma Reloading.signal (hlt : s.reloadWorkerI < s.reloadWorkerNum) (halive : s.procs s.target ≠ .gone) :
    Reloading { s with reloadWorkerPid := s.target, terms := s.terms ++ [s.target], pc := .enter } :=
  ⟨hp.reloading, hp.reloadInit, hp.all, hp.task, hp.num_le, hp.has,
    fun j q hj hq ha => (hp.before j q hj hq ha).imp_left (mem_append_left _), hp.kept, hp.gone,
    fun _ => ⟨hp.target hlt, mem_concat_self, fun hg => absurd hg halive⟩⟩

end

lemma Inv.killWorker (h : s.Inv) (hpc : s.pc = .kill) (hc : s.KillsChild res)
    (he : s.killWorker res = some s') : s'.Inv := by
  unfold Manager.killWorker at he
  rcases h with hp | hp | hp
  · rw [if_pos hp.reloading] at he
    cases he
    exact .inl { hp with }
  · rcases hp.pc with he | he <;> cases hpc.symm.trans he
  · rw [if_neg (by rw [hp.reloading]; decide)] at he
    by_cases hle : s.reloadWorkerNum ≤ s.reloadWorkerI
    · rw [if_pos hle] at he
      cases he
      exact .inl ⟨rfl, rfl, hp.all, hp.task, hp.all_reached hle⟩
    · have hlt := Nat.lt_of_not_le hle
      rw [if_neg hle] at he
      obtain ⟨hk, he⟩ := ite_none_right_eq_some.1 he
      by_cases hgone : s.procs s.target = .gone
      · have hres := hc hp.reloading hlt hgone
        have hnot : res ≠ .ok := by rcases hres with rfl | rfl <;> decide
        rw [if_pos hres, if_neg hnot] at he
        cases he
        exact .inr (.inr (hp.skip hpc hlt hgone))
      · obtain rfl : res = .ok := hk (.inl hgone)
        cases he
        exact .inr (.inr (hp.signal hlt hgone))

lemma Inv.step (e : ManagerEvent) (s s' : Manager) (hc : Careful e s) (h : s.Inv)
    (he : Manager.step e s = some s') : s'.Inv := by
  cases e with
  | sigusr1 =>
    cases he
    exact h.signalHandler hc (.inl rfl)
  | sigusr2 =>
    cases he
    exact h.signalHandler hc.1 (.inr hc.2)
  | sigio =>
    cases he
    exact h.interrupt true
  | otherSignal =>
    cases he
    exact h.interrupt s.readMessage
  | push workerId =>
    obtain ⟨-, rfl⟩ := ite_some_none_eq_some.1 he
    exact h.setPc _ s.readMessage rfl id id
  | exits pid =>
    obtain ⟨hrun, rfl⟩ := ite_some_none_eq_some.1 he
    exact h.exits hrun
  | enterWait =>
    obtain ⟨hpc, rfl⟩ := ite_some_none_eq_some.1 he
    refine h.setPc s.messageBox s.readMessage ?_ ?_ ?_ <;> rw [hpc]
    · rfl
    · exact Pc.noConfusion
    · rintro (he | he) <;> cases he
  | reap pid =>
    obtain ⟨hpc, rfl⟩ := ite_some_none_eq_some.1 he
    exact h.reap hpc.1 pid
  | pop new =>
    dsimp only [Manager.step] at he
    split at he
    · exact h.pop hc.1 hc.2 he
    · cases he
  | popped =>
    dsimp only [Manager.step] at he
    split at he
    · next hpc => exact h.popped hpc he
    · cases he
  | handle new newTask =>
    dsimp only [Manager.step] at he
    split at he
    · next hpc =>
      cases he
      exact h.interrupted hpc
    · next hpc => exact h.collected hpc hc.1 hc.2 he
    · cases he
  | kill res =>
    obtain ⟨hpc, he⟩ := ite_none_right_eq_some.1 he
    exact h.killWorker hpc hc he

lemma Inv.waits (h : s.Inv) (hpc : s.pc = .wait) (hre : s.reloading = true) :
    s.reloadInit = true ∧ ∃ q, s.snapshot[s.reloadWorkerI]? = some q ∧ q ∈ s.terms ∧ q ∉ s.exited := by
  rcases h with hp | hp | hp
  · cases hp.reloading.symm.trans hre
  · rcases hp.pc with he | he <;> cases hpc.symm.trans he
  · obtain ⟨hat, hterm, hgone⟩ := hp.turn (by rw [hpc]; exact Pc.noConfusion)
    refine ⟨hp.reloadInit, _, hat, hterm, fun hexit => ?_⟩
    have hret := hgone (hp.gone _ (mem_of_getElem? hat) hexit)
    rw [hpc] at hret
    cases hret

/-! ## runs -/

/-- while a reload is under way, `s'` comes after `s` -/
structure After (s s' : Manager) : Prop where
  atAccept : s'.atAccept = s.atAccept
  exited : ∀ q ∈ s.exited, q ∈ s'.exited
  turns : s.reloadInit = true → s'.reloading = true →
    s'.reloadInit = true ∧ s'.snapshot = s.snapshot ∧ s.reloadWorkerI ≤ s'.reloadWorkerI

def progress (s : Manager) : List Nat × List Nat × Bool × List Nat × Nat :=
  (s.atAccept, s.exited, s.reloadInit, s.snapshot, s.reloadWorkerI)

lemma After.of_progress (h : s'.progress = s.progress) : s.After s' := by
  obtain ⟨hat, h⟩ := Prod.mk.inj h
  obtain ⟨hexit, h⟩ := Prod.mk.inj h
  obtain ⟨hinit, h⟩ := Prod.mk.inj h
  obtain ⟨hsnap, hi⟩ := Prod.mk.inj h
  exact ⟨hat, fun q hq => hexit ▸ hq, fun he _ => ⟨hinit.trans he, hsnap, le_of_eq hi.symm⟩⟩

lemma After.trans {s'' : Manager} (h : s.After s') (hre : s'.reloading = true) (h' : s'.After s'') :
    s.After s'' := by
  refine ⟨h'.atAccept.trans h.atAccept, fun q hq => h'.exited q (h.exited q hq), fun hinit hre' => ?_⟩
  obtain ⟨hinit', hsnap, hle⟩ := h.turns hinit hre
  obtain ⟨hinit'', hsnap', hle'⟩ := h'.turns hinit' hre'
  exact ⟨hinit'', hsnap'.trans hsnap, le_trans hle hle'⟩

lemma Respawned.after (h : Respawned s s' new) : s'.progress = s.progress := by
  obtain ⟨_, _, _, rfl⟩ := h
  rfl

lemma collected_after (he : s.collected pid new newTask = some s') : s.After s' := by
  obtain ⟨s₁, h₁, he⟩ := bind_eq_some_iff.1 he
  obtain ⟨s₂, h₂, he⟩ := bind_eq_some_iff.1 he
  cases he
  have h := After.of_progress ((replaceTask_respawned h₂).after.trans (replaceEvent_respawned h₁).after)
  refine ⟨h.atAccept, h.exited, fun hinit hre => ?_⟩
  obtain ⟨hinit', hsnap, hle⟩ := h.turns hinit hre
  refine ⟨hinit', hsnap, le_trans hle ?_⟩
  show s₂.reloadWorkerI ≤
    if pid = s₂.reloadWorkerPid ∧ s₂.reloading = true then s₂.reloadWorkerI + 1 else s₂.reloadWorkerI
  split <;> omega

lemma After.of_init (hat : s'.atAccept = s.atAccept) (hexit : s'.exited = s.exited)
    (hinit : ¬ s.reloadInit = true) : s.After s' :=
  ⟨hat, fun _ hq => hexit ▸ hq, fun he => absurd he hinit⟩

lemma interrupted_after (s : Manager) : s.After s.interrupted := by
  unfold Manager.interrupted
  by_cases hinit : s.reloadInit = true
  · split
    · exact .of_progress rfl
    · split
      · exact .of_progress rfl
      · split
        · split <;> exact .of_progress rfl
        · exact .of_progress rfl
  · split
    · exact .of_progress rfl
    · split
      · exact .of_init rfl rfl hinit
      · split
        · split
          · exact .of_progress rfl
          · exact .of_init rfl rfl hinit
        · exact .of_progress rfl

lemma killWorker_after (he : s.killWorker res = some s') : s.After s' := by
  unfold Manager.killWorker at he
  split at he
  · cases he
    exact .of_progress rfl
  · split at he
    · cases he
      exact ⟨rfl, fun _ hq => hq, nofun⟩
    · obtain ⟨-, he⟩ := ite_none_right_eq_some.1 he
      dsimp only at he
      split at he
      · cases he
        exact ⟨rfl, fun _ hq => hq, fun hinit _ => ⟨hinit, rfl, Nat.le_succ _⟩⟩
      · cases he
        exact .of_progress rfl

lemma signalHandler_after (hre : s.reloading = true) (all : Bool) : s.After (s.signalHandler all) := by
  rw [Manager.signalHandler, if_pos hre]
  exact .of_progress rfl

lemma step_after {e : ManagerEvent} (hre : s.reloading = true) (he : step e s = some s') : s.After s' := by
  cases e with
  | sigusr1 =>
    cases he
    exact signalHandler_after hre true
  | sigusr2 =>
    cases he
    exact signalHandler_after hre false
  | sigio | otherSignal =>
    cases he
    exact .of_progress rfl
  | push workerId | exits pid | enterWait =>
    obtain ⟨-, rfl⟩ := ite_some_none_eq_some.1 he
    exact .of_progress rfl
  | reap pid =>
    obtain ⟨-, rfl⟩ := ite_some_none_eq_some.1 he
    exact ⟨rfl, fun _ hq => mem_append_left _ hq, fun hinit _ => ⟨hinit, rfl, le_rfl⟩⟩
  | pop new =>
    dsimp only [step] at he
    split at he
    · exact .of_progress (pop_respawned he).after
    · cases he
  | popped =>
    dsimp only [step] at he
    split at he
    · obtain ⟨-, he⟩ := ite_none_left_eq_some.1 he
      cases he
      exact .of_progress rfl
    · cases he
  | handle new newTask =>
    dsimp only [step] at he
    split at he
    · cases he
      exact interrupted_after s
    · exact collected_after he
    · cases he
  | kill res =>
    obtain ⟨-, he⟩ := ite_none_right_eq_some.1 he
    exact killWorker_after he

end

variable {input : Nat → ManagerEvent} {state : Nat → Manager}

lemma After.of_phase (hrun : Behaviour step Careful input state) {t t' : Nat} (hle : t ≤ t')
    (hre : ∀ u, t ≤ u → u < t' → (state u).reloading = true) : (state t).After (state t') :=
  follows_of_phase (B := fun s : Manager => s.reloading = true) (.of_progress rfl)
    (fun u hu h => h.trans hu (step_after hu (hrun.next u))) hle hre

lemma reload_ends (hinv : ∀ t, (state t).Inv) (hrun : Behaviour step Careful input state)
    (hloop : ∀ t, ∃ t' ≥ t, (state t').pc = .wait)
    (hexit : ∀ t q, q ∈ (state t).terms → ∃ t' ≥ t, (state t').reloading = true → q ∈ (state t').exited)
    (t : Nat) : ∃ t' ≥ t, ¬ (state t').reloading = true := by
  by_contra hend
  have hre : ∀ u, t ≤ u → (state u).reloading = true := fun u hu => by
    by_contra h
    exact hend ⟨u, hu, h⟩
  -- at the next `wait` the snapshot is there, and from then on turns pass
  obtain ⟨t₁, ht₁, hw₁⟩ := hloop t
  have hinit := ((hinv t₁).waits hw₁ (hre t₁ ht₁)).1
  have hlater : ∀ t t', t ≤ t' →
      (∀ u, t ≤ u → u ≤ t' → (state u).reloading = true ∧ (state u).reloadInit = true) →
      (state t').snapshot = (state t).snapshot ∧ (state t).reloadWorkerI ≤ (state t').reloadWorkerI ∧
        ∀ q, q ∈ (state t).exited → q ∈ (state t').exited := by
    intro t t' hle hB
    have hafter := After.of_phase hrun hle fun u hu hlt => (hB u hu (le_of_lt hlt)).1
    have hturns := hafter.turns (hB t le_rfl hle).2 (hB t' hle le_rfl).1
    exact ⟨hturns.2.1, hturns.2.2, hafter.exited⟩
  obtain ⟨t₂, ht₂, hB⟩ := ends_of_turns
    (B := fun s : Manager => s.reloading = true ∧ s.reloadInit = true) snapshot reloadWorkerI
    (fun s q => q ∈ s.terms) (fun s q => q ∈ s.exited) (fun s => s.pc = .wait) hlater
    (fun t hB hpc => ((hinv t).waits hpc hB.1).2) hloop
    (fun t q hq => (hexit t q hq).imp fun _ h => ⟨h.1, fun hB => h.2 hB.1⟩) t₁
  have hre₂ := hre t₂ (by omega)
  have hafter := After.of_phase hrun ht₂ fun u hu _ => hre u (by omega)
  exact hB ⟨hre₂, (hafter.turns hinit hre₂).1⟩

/-- an event worker and a task worker, and their reload -/
def reloadOfTwo : List ManagerEvent :=
  [.enterWait, .sigusr1, .popped, .handle none none, .kill .ok,
    .enterWait, .exits 101, .reap 101, .popped, .handle (some 102) none, .kill .ok,
    .enterWait, .exits 201, .reap 201, .popped, .handle none (some 202), .kill .ok, .enterWait]

end Manager

end OSW
