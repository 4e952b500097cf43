import Mathlib.Data.List.Nodup
import Mathlib.Data.List.Perm.Basic
import OpenSwoole.Lib.Machine
import OpenSwoole.Lib.PartialMap

/-!
# `System::waitpid` for coroutines

`src/os/wait.cc`: the calls `System::wait` and `System::waitpid` of coroutines, without `WNOHANG`, and the
handler of `SIGCHLD`.  A resumed coroutine takes itself out of the registry before anything else happens, so
that a round of the handler's loop is one step.  An exit is a pid with its status.  The kernel may report any
child that has ended, and a map may begin with any entry: `pick` says which.

`reaped` and `returned` are records: the exits that `waitpid` has collected, and those that calls have returned.

* `Kept`   the invariant: every suspended call is registered, and no exit is lost;
* `exits_handed_out`   **every exit is handed out once and nobody is stranded**, when no two calls ask for
    the same child.
-/

namespace OSW.Os
open Function PartialMap List Option Machine

/-- `System::wait`, and `System::waitpid` for a child -/
inductive WaitTarget where
  | any
  | pid (child : Nat)
  deriving DecidableEq

def WaitTarget.fits : WaitTarget → Nat × Nat → Bool
  | .any, _ => true
  | .pid child, exit => exit.1 = child

structure WaitTables where
  waitList : List Nat
  waitpidMap : Nat → Option Nat
  childProcesses : List (Nat × Nat)
  /-- the calls that are suspended -/
  calls : Nat → Option WaitTarget
  running : List Nat
  /-- the exits that nobody has waited for -/
  zombies : List (Nat × Nat)
  reaped : List (Nat × Nat)
  returned : List (Nat × Nat × Nat)

inductive ChildEvent where
  | fork (pid : Nat)
  | exits (pid status : Nat)
  | call (co : Nat) (target : WaitTarget) (pick : Nat × Nat)
  /-- the timer or a cancellation resumes the coroutine -/
  | giveUp (co : Nat)
  | sigchld (pick : Nat × Nat)

namespace WaitTables

def start : WaitTables := ⟨[], fun _ => none, [], fun _ => none, [], [], [], []⟩

def Child (s : WaitTables) (pid : Nat) : Prop := pid ∈ s.running ∨ pid ∈ s.zombies.map Prod.fst

instance (s : WaitTables) (pid : Nat) : Decidable (s.Child pid) := inferInstanceAs (Decidable (_ ∨ _))

section
variable (s : WaitTables)

/-- `waitpid` of the kernel -/
def reap (exit : Nat × Nat) : WaitTables :=
  { s with zombies := s.zombies.erase exit, reaped := s.reaped ++ [exit] }

def answer (co : Nat) (exit : Nat × Nat) : WaitTables := { s with returned := s.returned ++ [(co, exit)] }

def suspend (co : Nat) (target : WaitTarget) : WaitTables :=
  let s := { s with calls := update s.calls co (some target) }
  match target with
  | .any => { s with waitList := s.waitList ++ [co] }
  | .pid pid => { s with waitpidMap := update s.waitpidMap pid (some co) }

/-- `System::waitpid`: an exit that is kept, one that the kernel has, or suspension -/
def call (co : Nat) (target : WaitTarget) (pick : Nat × Nat) : Option WaitTables :=
  if s.childProcesses.any target.fits then
    if pick ∈ s.childProcesses ∧ target.fits pick then
      some ({ s with childProcesses := s.childProcesses.erase pick }.answer co pick)
    else none
  else if s.zombies.any target.fits then
    if pick ∈ s.zombies ∧ target.fits pick then some ((s.reap pick).answer co pick) else none
  else some (s.suspend co target)

/-- the coroutine goes on behind `yield`; `handed` tells that `task.pid` is set -/
def dequeue (co : Nat) (handed : Bool) : WaitTables :=
  match s.calls co with
  | some .any =>
    { s with
      waitList := if handed then s.waitList.tail else s.waitList.erase co
      calls := update s.calls co none }
  | some (.pid pid) => { s with waitpidMap := update s.waitpidMap pid none, calls := update s.calls co none }
  | none => s

/-- `child_processes[pid] = status` -/
def store (exit : Nat × Nat) : WaitTables :=
  { s with childProcesses := exit :: s.childProcesses.filter fun e => e.1 ≠ exit.1 }

def taskFor (pid : Nat) : Option Nat :=
  match s.waitpidMap pid with
  | some co => some co
  | none => s.waitList.head?

def handler (exit : Nat × Nat) : WaitTables :=
  let s := s.reap exit
  match s.taskFor exit.1 with
  | some co => (s.dequeue co true).answer co exit
  | none => s.store exit

end

def step : ChildEvent → WaitTables → Option WaitTables
  | .fork pid, s => if 0 < pid ∧ ¬ s.Child pid then some { s with running := pid :: s.running } else none
  | .exits pid status, s =>
    if pid ∈ s.running then
      some { s with running := s.running.erase pid, zombies := (pid, status) :: s.zombies }
    else none
  | .call co target pick, s => if s.calls co = none then s.call co target pick else none
  | .giveUp co, s => if s.calls co ≠ none then some (s.dequeue co false) else none
  | .sigchld exit, s => if exit ∈ s.zombies then some (s.handler exit) else none

/-- a call names a child that nobody has waited for or waits for, none takes a child that another one waits
for, and an exit is kept where none of its pid is -/
def Careful : ChildEvent → WaitTables → Prop
  | .call _ (.pid pid) _, s =>
    s.childProcesses.any (WaitTarget.pid pid).fits = false → s.Child pid ∧ s.waitpidMap pid = none
  | .call _ .any pick, s => s.childProcesses = [] → pick ∈ s.zombies → s.waitpidMap pick.1 = none
  | .sigchld exit, s => s.taskFor exit.1 = none → exit.1 ∉ s.childProcesses.map Prod.fst
  | _, _ => True

instance (e : ChildEvent) (s : WaitTables) : Decidable (Careful e s) := by
  unfold Careful
  split <;> infer_instance

/-! ## registrations -/

structure Registered (s : WaitTables) : Prop where
  any : ∀ co, co ∈ s.waitList ↔ s.calls co = some .any
  nodup : s.waitList.Nodup
  pid : ∀ pid co, s.waitpidMap pid = some co ↔ s.calls co = some (.pid pid)

variable {s s' : WaitTables}

variable {co k : Nat} {target t : WaitTarget}

lemma calls_suspend (hco : s.calls co = none) (hne : t ≠ target) :
    s.calls k = some target ↔ update s.calls co (some t) k = some target := by
  rw [update_some_eq_some]
  refine ⟨fun hk => .inr ⟨?_, hk⟩, fun hk => (hk.resolve_left fun he => hne he.2).2⟩
  rintro rfl
  cases hk.symm.trans hco

lemma Registered.suspend (h : s.Registered) (hco : s.calls co = none)
    (hfree : ∀ pid, target = .pid pid → s.waitpidMap pid = none) :
    (s.suspend co target).Registered := by
  have hnew : ∀ k t, s.calls k = some t → k ≠ co := by
    rintro k t hk rfl
    cases hk.symm.trans hco
  cases target with
  | any =>
    refine ⟨fun k => ?_, ?_, fun pid k => (h.pid pid k).trans (calls_suspend hco WaitTarget.noConfusion)⟩
    · show k ∈ s.waitList ++ [co] ↔ update s.calls co (some .any) k = some .any
      rw [update_some_eq_some, mem_append, mem_singleton, h.any k]
      constructor
      · rintro (hk | hk)
        · exact .inr ⟨hnew k _ hk, hk⟩
        · exact .inl ⟨hk, rfl⟩
      · rintro (⟨hk, -⟩ | ⟨-, hk⟩)
        · exact .inr hk
        · exact .inl hk
    · show (s.waitList ++ [co]).Nodup
      rw [← concat_eq_append]
      exact h.nodup.concat fun hmem => hnew co _ ((h.any co).1 hmem) rfl
  | pid q =>
    refine ⟨fun k => (h.any k).trans (calls_suspend hco WaitTarget.noConfusion), h.nodup, fun pid k => ?_⟩
    show update s.waitpidMap q (some co) pid = some k ↔ update s.calls co (some (.pid q)) k = some (.pid pid)
    rw [update_some_eq_some, update_some_eq_some, h.pid pid k]
    constructor
    · rintro (⟨rfl, rfl⟩ | ⟨-, hk⟩)
      · exact .inl ⟨rfl, rfl⟩
      · exact .inr ⟨hnew k _ hk, hk⟩
    · rintro (⟨rfl, hq⟩ | ⟨-, hk⟩)
      · exact .inl ⟨(WaitTarget.pid.inj hq).symm, rfl⟩
      · -- nobody is registered for the pid yet
        refine .inr ⟨?_, hk⟩
        rintro rfl
        cases ((h.pid pid k).2 hk).symm.trans (hfree pid rfl)

lemma calls_dequeue (hco : s.calls co = some t) (hne : t ≠ target) :
    s.calls k = some target ↔ update s.calls co none k = some target := by
  rw [update_none_eq_some]
  refine ⟨fun hk => ⟨?_, hk⟩, And.right⟩
  rintro rfl
  exact hne (some.inj (hco.symm.trans hk))

lemma Registered.dequeue (h : s.Registered) (co : Nat) (handed : Bool)
    (hfront : handed = true → s.calls co = some .any → s.waitList.head? = some co) :
    (s.dequeue co handed).Registered := by
  unfold WaitTables.dequeue
  split
  · next hco =>
    -- the first entry of the list is that of the coroutine
    have hlist : (if handed then s.waitList.tail else s.waitList.erase co) = s.waitList.erase co := by
      split
      · next hhanded =>
        obtain ⟨rest, hrest⟩ := head?_eq_some_iff.1 (hfront hhanded hco)
        rw [hrest, tail_cons, erase_cons_head]
      · rfl
    rw [hlist]
    refine ⟨fun k => ?_, h.nodup.erase co, fun pid k =>
      (h.pid pid k).trans (calls_dequeue hco WaitTarget.noConfusion)⟩
    rw [update_none_eq_some, h.nodup.mem_erase_iff, h.any k]
  · next q hco =>
    refine ⟨fun k => (h.any k).trans (calls_dequeue hco WaitTarget.noConfusion), h.nodup, fun pid k => ?_⟩
    rw [update_none_eq_some, update_none_eq_some, h.pid pid k]
    refine and_congr_left fun hk => not_congr ⟨?_, ?_⟩
    · -- the map has one entry for the pid
      rintro rfl
      exact some.inj (((h.pid pid k).2 hk).symm.trans ((h.pid pid co).2 hco))
    · rintro rfl
      exact WaitTarget.pid.inj (some.inj (hk.symm.trans hco))
  · exact h

lemma dequeue_calls {handed : Bool} (h : (s.dequeue co handed).calls k = some target) :
    k ≠ co ∧ s.calls k = some target := by
  unfold dequeue at h
  split at h
  · exact update_none_eq_some.1 h
  · exact update_none_eq_some.1 h
  · next hco =>
    refine ⟨?_, h⟩
    rintro rfl
    cases h.symm.trans hco

lemma dequeue_eq (s : WaitTables) (co : Nat) (handed : Bool) :
    ∃ waitList waitpidMap calls, s.dequeue co handed = { s with waitList, waitpidMap, calls } ∧
      (s.waitList = [] → waitList = []) := by
  unfold dequeue
  split
  · refine ⟨_, s.waitpidMap, _, rfl, fun hnil => ?_⟩
    rw [hnil]
    split <;> rfl
  · exact ⟨s.waitList, _, _, rfl, fun hnil => hnil⟩
  · exact ⟨s.waitList, s.waitpidMap, s.calls, rfl, fun hnil => hnil⟩

/-! ## exits -/

structure Kept (s : WaitTables) : Prop where
  registered : s.Registered
  child : ∀ co pid, s.calls co = some (.pid pid) → s.Child pid
  idle : s.waitList ≠ [] → s.childProcesses = []
  exits : (s.returned.map Prod.snd ++ s.childProcesses).Perm s.reaped

lemma child_reap {exit : Nat × Nat} {pid : Nat} (h : s.Child pid) (hne : pid ≠ exit.1) :
    (s.reap exit).Child pid := by
  refine h.imp_right fun hmem => ?_
  obtain ⟨e, he, rfl⟩ := mem_map.1 hmem
  exact mem_map.2 ⟨e, (mem_erase_of_ne fun heq => hne (congrArg Prod.fst heq)).2 he, rfl⟩

lemma exits_returned {returned : List (Nat × Nat × Nat)} {kept reaped : List (Nat × Nat)} (co : Nat)
    (exit : Nat × Nat) (h : (returned.map Prod.snd ++ kept).Perm reaped) :
    ((returned ++ [(co, exit)]).map Prod.snd ++ kept).Perm (reaped ++ [exit]) := by
  rw [map_append, append_assoc]
  exact (perm_append_comm.append_left _).trans (by rw [← append_assoc]; exact h.append_right _)

section
variable (hs : s.Kept)
include hs

lemma Kept.fork (pid : Nat) : Kept { s with running := pid :: s.running } :=
  ⟨{ hs.registered with },
    fun co q hco => (hs.child co q hco).imp_left (mem_cons_of_mem _), hs.idle, hs.exits⟩

lemma Kept.exit (pid status : Nat) :
    Kept { s with running := s.running.erase pid, zombies := (pid, status) :: s.zombies } := by
  refine ⟨{ hs.registered with }, fun co q hco => ?_, hs.idle, hs.exits⟩
  by_cases hq : q = pid
  · exact .inr (mem_map.2 ⟨(pid, status), mem_cons_self, hq.symm⟩)
  · refine (hs.child co q hco).imp (fun hmem => (mem_erase_of_ne hq).2 hmem) fun hmem => ?_
    exact mem_cons_of_mem _ hmem

lemma Kept.take (co : Nat) {exit : Nat × Nat} (hexit : exit ∈ s.childProcesses) :
    ({ s with childProcesses := s.childProcesses.erase exit }.answer co exit).Kept := by
  refine ⟨{ hs.registered with }, hs.child, fun hne => ?_, ?_⟩
  · rw [hs.idle hne]
    rfl
  · show ((s.returned ++ [(co, exit)]).map Prod.snd ++ s.childProcesses.erase exit).Perm s.reaped
    rw [map_append, append_assoc]
    exact ((perm_cons_erase hexit).symm.append_left _).trans hs.exits

lemma Kept.direct (co : Nat) {exit : Nat × Nat} (hfree : s.waitpidMap exit.1 = none) :
    ((s.reap exit).answer co exit).Kept := by
  refine ⟨{ hs.registered with }, fun k pid hk => ?_, hs.idle, exits_returned co exit hs.exits⟩
  refine child_reap (hs.child k pid hk) ?_
  rintro rfl
  cases ((hs.registered.pid exit.1 k).2 hk).symm.trans hfree

lemma Kept.suspend (hco : s.calls co = none) (hnone : s.childProcesses.any target.fits = false)
    (hpid : ∀ pid, target = .pid pid → s.Child pid ∧ s.waitpidMap pid = none) : (s.suspend co target).Kept := by
  have hregistered := hs.registered.suspend hco fun pid he => (hpid pid he).2
  have hcalls : ∀ k pid, update s.calls co (some target) k = some (.pid pid) → s.Child pid := by
    intro k pid hk
    rcases update_some_eq_some.1 hk with ⟨-, rfl⟩ | ⟨-, hk⟩
    · exact (hpid pid rfl).1
    · exact hs.child k pid hk
  cases target with
  | any =>
    refine ⟨hregistered, hcalls, fun _ => ?_, hs.exits⟩
    exact eq_nil_iff_forall_not_mem.2 fun e he => (any_eq_false.1 hnone e he) rfl
  | pid q => exact ⟨hregistered, hcalls, hs.idle, hs.exits⟩

lemma Kept.giveUp (co : Nat) : (s.dequeue co false).Kept := by
  have hregistered := hs.registered.dequeue co false nofun
  have hcalls : ∀ k pid, (s.dequeue co false).calls k = some (.pid pid) → s.Child pid := fun k pid hk =>
    hs.child k pid (dequeue_calls hk).2
  obtain ⟨waitList, waitpidMap, calls, heq, hnil⟩ := dequeue_eq s co false
  rw [heq] at hregistered hcalls ⊢
  exact ⟨hregistered, hcalls, fun hne => hs.idle fun he => hne (hnil he), hs.exits⟩

lemma Kept.handed {exit : Nat × Nat} (hco : s.taskFor exit.1 = some co) :
    (((s.reap exit).dequeue co true).answer co exit).Kept := by
  have hreap : (s.reap exit).Registered := { hs.registered with }
  -- the task waits for the child, or it is the first of the list
  have hcases : s.waitpidMap exit.1 = some co ∨ s.waitpidMap exit.1 = none ∧ s.waitList.head? = some co := by
    unfold taskFor at hco
    split at hco
    · next hmap => exact .inl (hmap.trans hco)
    · next hmap => exact .inr ⟨hmap, hco⟩
  have hfront : true = true → s.calls co = some .any → s.waitList.head? = some co := by
    intro _ hany
    rcases hcases with hmap | ⟨-, hhead⟩
    · have hcall := (hs.registered.pid exit.1 co).1 hmap
      exact absurd (hany.symm.trans hcall) fun he => WaitTarget.noConfusion (some.inj he)
    · exact hhead
  have hregistered := hreap.dequeue co true hfront
  have hcalls : ∀ k pid, ((s.reap exit).dequeue co true).calls k = some (.pid pid) →
      (s.reap exit).Child pid := by
    intro k pid hk
    obtain ⟨hne, hk⟩ := dequeue_calls hk
    refine child_reap (hs.child k pid hk) ?_
    rintro rfl
    have hmap := (hs.registered.pid exit.1 k).2 hk
    rcases hcases with hco | ⟨hco, -⟩
    · exact hne (some.inj (hmap.symm.trans hco))
    · exact some_ne_none _ (hmap.symm.trans hco)
  obtain ⟨waitList, waitpidMap, calls, heq, hnil⟩ := dequeue_eq (s.reap exit) co true
  rw [heq] at hregistered hcalls ⊢
  exact ⟨{ hregistered with }, hcalls, fun hne => hs.idle fun he => hne (hnil he),
    exits_returned co exit hs.exits⟩

lemma Kept.store {exit : Nat × Nat} (hnone : s.taskFor exit.1 = none)
    (hfresh : exit.1 ∉ s.childProcesses.map Prod.fst) : ((s.reap exit).store exit).Kept := by
  have hfree : s.waitpidMap exit.1 = none ∧ s.waitList = [] := by
    unfold taskFor at hnone
    split at hnone
    · cases hnone
    · next hmap => exact ⟨hmap, head?_eq_none_iff.1 hnone⟩
  have hfilter : (s.childProcesses.filter fun e => e.1 ≠ exit.1) = s.childProcesses :=
    filter_eq_self.2 fun e he => decide_eq_true fun heq => hfresh (mem_map.2 ⟨e, he, heq⟩)
  refine ⟨{ hs.registered with }, fun k pid hk => ?_, fun hne => absurd hfree.2 hne, ?_⟩
  · refine child_reap (hs.child k pid hk) ?_
    rintro rfl
    cases ((hs.registered.pid exit.1 k).2 hk).symm.trans hfree.1
  · show (s.returned.map Prod.snd ++ exit :: s.childProcesses.filter fun e => e.1 ≠ exit.1).Perm
      (s.reaped ++ [exit])
    rw [hfilter]
    exact perm_middle.trans ((hs.exits.cons exit).trans (perm_append_singleton exit s.reaped).symm)

end

lemma Kept.step {e : ChildEvent} (hcond : Careful e s) (hs : s.Kept) (h : WaitTables.step e s = some s') :
    s'.Kept := by
  cases e with
  | fork pid =>
    obtain ⟨-, rfl⟩ := ite_some_none_eq_some.1 h
    exact hs.fork pid
  | exits pid status =>
    obtain ⟨-, rfl⟩ := ite_some_none_eq_some.1 h
    exact hs.exit pid status
  | call co target pick =>
    obtain ⟨hco, h⟩ := ite_none_right_eq_some.1 h
    -- what the condition says when no exit is kept for the call
    have hfree : s.childProcesses.any target.fits = false → pick ∈ s.zombies ∧ target.fits pick = true →
        s.waitpidMap pick.1 = none := by
      intro hnone hpick
      cases target with
      | any => exact hcond (eq_nil_iff_forall_not_mem.2 fun e he => (any_eq_false.1 hnone e he) rfl) hpick.1
      | pid child =>
        rw [of_decide_eq_true hpick.2]
        exact (hcond hnone).2
    unfold WaitTables.call at h
    split at h
    · obtain ⟨hpick, rfl⟩ := ite_some_none_eq_some.1 h
      exact hs.take co hpick.1
    · next hnone =>
      have hnone := Bool.eq_false_iff.2 hnone
      split at h
      · obtain ⟨hpick, rfl⟩ := ite_some_none_eq_some.1 h
        exact hs.direct co (hfree hnone hpick)
      · refine some.inj h ▸ hs.suspend hco hnone fun pid he => ?_
        subst he
        exact hcond hnone
  | giveUp co =>
    obtain ⟨-, rfl⟩ := ite_some_none_eq_some.1 h
    exact hs.giveUp co
  | sigchld exit =>
    obtain ⟨-, rfl⟩ := ite_some_none_eq_some.1 h
    unfold handler
    have htask : (s.reap exit).taskFor exit.1 = s.taskFor exit.1 := rfl
    cases hco : s.taskFor exit.1 with
    | some co =>
      simp only [htask, hco]
      exact hs.handed hco
    | none =>
      simp only [htask, hco]
      exact hs.store hco (hcond hco)

theorem exits_handed_out (events : List ChildEvent) (hevents : Along WaitTables.step Careful events start)
    (s : WaitTables) (hs : iter WaitTables.step events start = some s) :
    (s.returned.map Prod.snd ++ s.childProcesses).Perm s.reaped ∧
      (∀ co, co ∈ s.waitList ↔ s.calls co = some .any) ∧
      (∀ pid co, s.waitpidMap pid = some co ↔ s.calls co = some (.pid pid)) ∧
      (∀ co pid, s.calls co = some (.pid pid) → s.Child pid) ∧
      ∀ co, s.calls co = some .any → s.childProcesses = [] := by
  have hkept : s.Kept := by
    refine iter_keeps (fun e s s' hcond hs h => hs.step hcond h) events hevents ⟨⟨?_, ?_, ?_⟩, ?_, ?_, ?_⟩ hs
    · exact fun co => iff_of_false not_mem_nil fun he => some_ne_none _ he.symm
    · exact nodup_nil
    · exact fun pid co => iff_of_false (fun he => some_ne_none _ he.symm) fun he => some_ne_none _ he.symm
    · exact fun co pid he => absurd he.symm (some_ne_none _)
    · exact fun hne => absurd rfl hne
    · exact Perm.refl _
  refine ⟨hkept.exits, hkept.registered.any, hkept.registered.pid, hkept.child, fun co hco => ?_⟩
  exact hkept.idle (ne_nil_of_mem ((hkept.registered.any co).2 hco))

/-- one exit goes to the call that asks for it, one is kept and taken by a later call, and a call gives up -/
def threeCalls : List ChildEvent :=
  [.fork 5, .fork 6, .fork 7, .call 1 (.pid 5) (0, 0), .exits 6 3, .sigchld (6, 3), .exits 5 0, .sigchld (5, 0),
    .call 2 .any (6, 3), .call 2 (.pid 7) (0, 0), .giveUp 2, .call 3 .any (0, 0)]

theorem exits_handed_out_three : ∃ s, iter WaitTables.step threeCalls start = some s ∧
    s.returned = [(1, 5, 0), (2, 6, 3)] ∧ (s.returned.map Prod.snd ++ s.childProcesses).Perm s.reaped ∧
      3 ∈ s.waitList := by
  refine exists_of_map (fun s => (s.returned, s.calls 3)) (show _ = some ([(1, 5, 0), (2, 6, 3)], some .any) by
    decide +kernel) fun s hs hstate => ?_
  obtain ⟨hreturned, hcall⟩ := Prod.mk.inj hstate
  obtain ⟨hexits, hany, -⟩ := exits_handed_out threeCalls (by decide +kernel) s hs
  exact ⟨hreturned, hexits, (hany 3).2 hcall⟩

/-- the second of two calls for one child takes the place of the first, which stays suspended -/
theorem second_waiter_stranded : (iter WaitTables.step
        [.fork 5, .call 1 (.pid 5) (0, 0), .call 2 (.pid 5) (0, 0), .exits 5 0, .sigchld (5, 0)] start).map
        (fun s => (s.calls 1, decide (s.Child 5), s.returned)) = some (some (.pid 5), false, [(2, 5, 0)]) ∧
      (iter WaitTables.step
        [.fork 5, .call 1 (.pid 5) (0, 0), .call 2 (.pid 5) (0, 0), .giveUp 1] start).map
        (fun s => (s.calls 2, s.waitpidMap 5)) = some (some (.pid 5), none) :=
  ⟨by decide +kernel, by decide +kernel⟩

end WaitTables

end OSW.Os
