import OpenSwoole.Core.HeapOps
import OpenSwoole.Core.Timer
import OpenSwoole.Lib.PartialMap

/-!
# Map and heap of the timers

* `Good`   the allocated timer nodes are those in the map and those in the heap, every heap node carries
    the deadline of its timer node, ids and addresses are below the next;
* `Added`, `add_cases`   what `add` does.
-/

namespace OSW.Core
open PartialMap Function

namespace Timer

structure Good (t : Timer) : Prop where
  heap : t.heap.Wf
  type : t.heap.type = .minHeap
  null : t.heap.live 0 = false ∧ 1 ≤ t.heap.fresh
  map : ∀ id p, t.map id = some p → t.live p = true ∧ (t.tnodes p).id = id
  node : ∀ p, t.live p = true → t.map (t.tnodes p).id = some p
  out : ∀ p, t.live p = true → t.heap.live (t.tnodes p).heapNode = true ∧
    t.heap.key (t.tnodes p).heapNode = (uint64 (t.tnodes p).execMsec, p)
  back : ∀ q, t.heap.live q = true → t.live (t.heap.mem q).data = true ∧
    (t.tnodes (t.heap.mem q).data).heapNode = q
  ids : ∀ p, t.live p = true → 1 ≤ (t.tnodes p).id ∧ (t.tnodes p).id < t.nextId
  nextId : 1 ≤ t.nextId ∧ t.nextId < 2^63
  fresh : ∀ p, t.live p = true → p < t.fresh

lemma new_good (mode : TimerMode) : (new mode).Good where
  heap := Heap.new_wf (by decide) _
  type := rfl
  null := ⟨rfl, le_refl 1⟩
  map := nofun
  node := nofun
  out := nofun
  back := nofun
  ids := nofun
  nextId := ⟨le_refl 1, (by decide : (1 : Int) < 2^63)⟩
  fresh := nofun

structure Same (t t' : Timer) : Prop where
  heap : t'.heap = t.heap
  map : t'.map = t.map
  tnodes : t'.tnodes = t.tnodes
  live : t'.live = t.live
  fresh : t'.fresh = t.fresh

/-- the nodes that are left have changed in nothing but their mark -/
def Fewer (t t' : Timer) : Prop :=
  ∀ p, t'.live p = true → t.live p = true ∧ ∃ removed, t'.tnodes p = { t.tnodes p with removed := removed }

variable {t t' : Timer} {p q : Nat} {tnode : TimerNode} {id : Int} {heap : Heap}

lemma Same.fewer (hs : Same t t') : Fewer t t' := by
  intro p hp
  rw [hs.live] at hp
  rw [hs.tnodes]
  exact ⟨hp, _, rfl⟩

lemma live_drop (hq : Function.update t.live p false q = true) : q ≠ p ∧ t.live q = true := by
  by_cases hqp : q = p
  · rw [hqp, update_self] at hq
    cases hq
  · rw [update_of_ne hqp] at hq
    exact ⟨hqp, hq⟩

lemma setCurrent_fewer (t : Timer) (id : Int) : Fewer t { t with currentId := id } :=
  fun _ hq => ⟨hq, _, rfl⟩

lemma erase_fewer (t : Timer) (p : Nat) : Fewer t (t.erase p) := fun _ hq => ⟨(live_drop hq).2, _, rfl⟩

lemma popNode_fewer (t : Timer) (p : Nat) : Fewer t (t.popNode p) :=
  fun _ hq => ⟨(live_drop hq).2, _, rfl⟩

lemma markRemoved_tnodes (t : Timer) (p q : Nat) : (t.markRemoved p).tnodes q
      = { t.tnodes q with removed := if q = p then true else (t.tnodes q).removed } := by
  show Function.update t.tnodes p _ q = _
  by_cases hqp : q = p
  · rw [hqp, update_self, if_pos rfl]
  · rw [update_of_ne hqp, if_neg hqp]

lemma markRemoved_fewer (t : Timer) (p : Nat) : Fewer t (t.markRemoved p) :=
  fun q hq => ⟨hq, _, markRemoved_tnodes t p q⟩

lemma Good.of_same (hg : t.Good) (hs : Same t t') (hle : t.nextId ≤ t'.nextId)
    (hlt : t'.nextId < 2^63) : t'.Good where
  heap := hs.heap ▸ hg.heap
  type := hs.heap ▸ hg.type
  null := hs.heap ▸ hg.null
  map := by
    rw [hs.map, hs.live, hs.tnodes]
    exact hg.map
  node := by
    rw [hs.map, hs.live, hs.tnodes]
    exact hg.node
  out := by
    rw [hs.live, hs.tnodes, hs.heap]
    exact hg.out
  back := by
    rw [hs.live, hs.tnodes, hs.heap]
    exact hg.back
  ids := by
    rw [hs.live, hs.tnodes]
    intro p hp
    exact ⟨(hg.ids p hp).1, lt_of_lt_of_le (hg.ids p hp).2 hle⟩
  nextId := ⟨le_trans hg.nextId.1 hle, hlt⟩
  fresh := by
    rw [hs.live, hs.fresh]
    exact hg.fresh

section
variable (hg : t.Good) (hp : t.live p = true)
include hg hp

lemma Good.ne_fresh : p ≠ t.fresh := ne_of_lt (hg.fresh p hp)

lemma Good.data : (t.heap.mem (t.tnodes p).heapNode).data = p := congrArg Prod.snd (hg.out p hp).2

lemma Good.priority : t.heap.priority (t.tnodes p).heapNode = uint64 (t.tnodes p).execMsec :=
  congrArg Prod.fst (hg.out p hp).2

lemma Good.heapNode_inj (hq : t.live q = true) (he : (t.tnodes p).heapNode = (t.tnodes q).heapNode) : p = q := by
  rw [← hg.data hp, he]
  exact hg.data hq

lemma Good.heapNode_ne : (t.tnodes p).heapNode ≠ 0 := by
  intro he
  have hl := (hg.out p hp).1
  rw [he, hg.null.1] at hl
  exact Bool.false_ne_true hl

lemma Good.id_inj (hq : t.live q = true) (he : (t.tnodes p).id = (t.tnodes q).id) : p = q := by
  have hpm := hg.node p hp
  rw [he, hg.node q hq] at hpm
  exact (Option.some.inj hpm).symm

/-! ## arming -/

end

lemma set_same (t : Timer) (clock msec : Int) : Same t (t.set clock msec) := by
  unfold set
  cases t.mode with
  | reactor | system => exact ⟨rfl, rfl, rfl, rfl, rfl⟩

lemma set_fields (t : Timer) (clock msec : Int) :
    (t.set clock msec).nextId = t.nextId ∧ (t.set clock msec).round = t.round ∧
      (t.set clock msec).currentId = t.currentId ∧ (t.set clock msec).mode = t.mode := by
  unfold set
  cases t.mode with
  | reactor | system => exact ⟨rfl, rfl, rfl, rfl⟩

lemma arm_same (t : Timer) (now msec : Int) : Same t (t.arm now msec) := by
  have hs := set_same t now msec
  unfold arm
  split
  · exact { hs with }
  · exact ⟨rfl, rfl, rfl, rfl, rfl⟩

lemma arm_fields (t : Timer) (now msec : Int) :
    (t.arm now msec).nextId = t.nextId ∧ (t.arm now msec).round = t.round ∧
      (t.arm now msec).currentId = t.currentId ∧ (t.arm now msec).mode = t.mode := by
  unfold arm
  split
  · exact set_fields t now msec
  · exact ⟨rfl, rfl, rfl, rfl⟩

/-! ## a node comes -/

/-- there are ids and heap slots left -/
def Room (t : Timer) : Prop := t.nextId < 2^63 - 1 ∧ t.heap.num < 2^31

instance (t : Timer) : Decidable t.Room := inferInstanceAs (Decidable (_ ∧ _))

def newNode (t : Timer) (now msec : Int) (persistent : Bool) : TimerNode :=
  { id := t.nextId, execMsec := int64 (now + msec), interval := if persistent then msec else 0,
    round := t.round, removed := false, heapNode := t.heap.fresh }

/-- `add` has made the node at the address `fresh` -/
structure Added (t t' : Timer) (now msec : Int) (persistent : Bool) : Prop where
  good : t'.Good
  heap : Heap.Pushed t.heap t'.heap (uint64 (int64 (now + msec))) t.fresh
  tnodes : t'.tnodes = Function.update t.tnodes t.fresh (t.newNode now msec persistent)
  live : t'.live = Function.update t.live t.fresh true
  fresh : t'.fresh = t.fresh + 1
  nextId : t'.nextId = t.nextId + 1
  round : t'.round = t.round
  currentId : t'.currentId = t.currentId
  armed : t'.mode = t.mode ∧ t'.alarm = (t.arm now msec).alarm ∧ t'.nextMsec = (t.arm now msec).nextMsec

/-- `add` has made no node; it may have armed the timeout -/
structure Refused (t t' : Timer) (now msec : Int) : Prop where
  same : Same t t'
  nextId : t'.nextId = t.nextId ∨ t'.nextId = t.nextId + 1
  round : t'.round = t.round
  currentId : t'.currentId = t.currentId
  armed : t'.mode = t.mode ∧ (t'.alarm = t.alarm ∧ t'.nextMsec = t.nextMsec ∨
    0 < msec ∧ 0 ≤ now ∧ t'.alarm = (t.arm now msec).alarm ∧ t'.nextMsec = (t.arm now msec).nextMsec)

lemma Good.emplace_nextId (hg : t.Good) (p : Nat) :
    emplace t.map t.nextId p = Function.update t.map t.nextId (some p) := by
  refine if_pos ?_
  cases hm : t.map t.nextId with
  | none => rfl
  | some q =>
    obtain ⟨hl, he⟩ := hg.map _ q hm
    exact absurd (hg.ids q hl).2 (by omega)

lemma live_insert (h : Function.update t.live t.fresh true p = true) :
    p = t.fresh ∨ p ≠ t.fresh ∧ t.live p = true := by
  by_cases hp : p = t.fresh
  · exact .inl hp
  · rw [update_of_ne hp] at h
    exact .inr ⟨hp, h⟩

lemma Good.map_insert (hg : t.Good) (hnode : tnode.id = t.nextId)
    (hm : emplace t.map t.nextId t.fresh id = some p) :
    Function.update t.live t.fresh true p = true ∧ (Function.update t.tnodes t.fresh tnode p).id = id := by
  rw [hg.emplace_nextId] at hm
  rcases update_some_eq_some.1 hm with ⟨rfl, rfl⟩ | ⟨-, hm⟩
  · rw [update_self, update_self]
    exact ⟨rfl, hnode⟩
  · obtain ⟨hl, he⟩ := hg.map id p hm
    rw [update_of_ne (hg.ne_fresh hl), update_of_ne (hg.ne_fresh hl)]
    exact ⟨hl, he⟩

lemma Good.node_insert (hg : t.Good) (hnode : tnode.id = t.nextId)
    (hl : Function.update t.live t.fresh true p = true) :
    emplace t.map t.nextId t.fresh (Function.update t.tnodes t.fresh tnode p).id = some p := by
  rw [hg.emplace_nextId]
  rcases live_insert hl with rfl | ⟨hp, hl⟩
  · rw [update_self, hnode, update_self]
  · have hne : (t.tnodes p).id ≠ t.nextId := fun he => absurd (hg.ids p hl).2 (by omega)
    rw [update_of_ne hp, update_of_ne hne]
    exact hg.node p hl

section
variable (hg : t.Good) (hp : Heap.Pushed t.heap heap (uint64 tnode.execMsec) t.fresh)
  (hnode : tnode.heapNode = t.heap.fresh)
include hg hp hnode

lemma Good.out_insert (hl : Function.update t.live t.fresh true p = true) :
    heap.live (Function.update t.tnodes t.fresh tnode p).heapNode = true ∧
      heap.key (Function.update t.tnodes t.fresh tnode p).heapNode
        = (uint64 (Function.update t.tnodes t.fresh tnode p).execMsec, p) := by
  rw [hp.live, hp.key]
  rcases live_insert hl with rfl | ⟨hpf, hl⟩
  · rw [update_self, hnode, update_self, update_self]
    exact ⟨rfl, rfl⟩
  · have hne := hg.heap.live_ne_fresh (hg.out p hl).1
    rw [update_of_ne hpf, update_of_ne hne, update_of_ne hne]
    exact hg.out p hl

lemma Good.back_insert (hq : heap.live q = true) :
    Function.update t.live t.fresh true (heap.mem q).data = true ∧
      (Function.update t.tnodes t.fresh tnode (heap.mem q).data).heapNode = q := by
  have hdata : (heap.mem q).data = (heap.key q).2 := rfl
  rw [hp.live] at hq
  rw [hdata, hp.key]
  by_cases hqf : q = t.heap.fresh
  · rw [hqf, update_self, update_self, update_self]
    exact ⟨rfl, hnode⟩
  · rw [update_of_ne hqf] at hq ⊢
    obtain ⟨hl, hb⟩ := hg.back q hq
    show Function.update t.live t.fresh true (t.heap.mem q).data = true ∧
      (Function.update t.tnodes t.fresh _ (t.heap.mem q).data).heapNode = q
    rw [update_of_ne (hg.ne_fresh hl), update_of_ne (hg.ne_fresh hl)]
    exact ⟨hl, hb⟩

end

lemma Good.insert (hg : t.Good) (hid : t.nextId < 2^63 - 1) {exec : Int} (interval : Int)
    (round : Nat) (hp : Heap.Pushed t.heap heap (uint64 exec) t.fresh) :
    ({ t with heap := heap, nextId := t.nextId + 1 }.insert
      ⟨t.nextId, exec, interval, round, false, t.heap.fresh⟩).Good := by
  constructor
  · exact hp.wf
  · exact hp.type.trans hg.type
  · show heap.live 0 = false ∧ 1 ≤ heap.fresh
    rw [hp.live, hp.fresh, update_of_ne (ne_of_lt hg.null.2)]
    exact ⟨hg.null.1, by omega⟩
  · exact fun id p hm => hg.map_insert rfl hm
  · exact fun p hl => hg.node_insert rfl hl
  · exact fun p hl => hg.out_insert hp rfl hl
  · exact fun q hq => hg.back_insert hp rfl hq
  · intro p hl
    show 1 ≤ (Function.update t.tnodes t.fresh _ p).id ∧
      (Function.update t.tnodes t.fresh _ p).id < t.nextId + 1
    rcases live_insert hl with rfl | ⟨hpf, hl⟩
    · rw [update_self]
      exact ⟨hg.nextId.1, by show t.nextId < t.nextId + 1; omega⟩
    · rw [update_of_ne hpf]
      have := hg.ids p hl
      exact ⟨this.1, by omega⟩
  · show 1 ≤ t.nextId + 1 ∧ t.nextId + 1 < 2^63
    have := hg.nextId
    omega
  · intro p hl
    rcases live_insert hl with hpf | ⟨-, hl⟩
    · exact hpf ▸ Nat.lt_succ_self _
    · exact Nat.lt_succ_of_lt (hg.fresh p hl)

lemma takeId_eq (h1 : 1 ≤ t.nextId) (h2 : t.nextId < 2^63 - 1) :
    t.takeId = (t.nextId, { t with nextId := t.nextId + 1 }) := by
  unfold takeId
  rw [if_neg (by omega), int64_of_lt (by omega) (by omega)]

lemma add_cases (hg : t.Good) (hroom : t.Room) (now msec : Int) (persistent room : Bool) :
    (∃ t', t.add now msec persistent room = (none, t') ∧ Refused t t' now msec) ∨ 0 < msec ∧ 0 ≤ now ∧
        ∃ t', t.add now msec persistent room = (some t.fresh, t') ∧ Added t t' now msec persistent := by
  unfold add
  by_cases hmsec : msec ≤ 0
  · rw [if_pos hmsec]
    exact .inl ⟨t, rfl, ⟨rfl, rfl, rfl, rfl, rfl⟩, .inl rfl, rfl, rfl, rfl, .inl ⟨rfl, rfl⟩⟩
  rw [if_neg hmsec]
  by_cases hnow : now < 0
  · rw [if_pos hnow]
    exact .inl ⟨t, rfl, ⟨rfl, rfl, rfl, rfl, rfl⟩, .inl rfl, rfl, rfl, rfl, .inl ⟨rfl, rfl⟩⟩
  rw [if_neg hnow]
  have hs := arm_same t now msec
  obtain ⟨hfid, hfr, hfc, hfm⟩ := arm_fields t now msec
  have hga : (t.arm now msec).Good := by
    refine hg.of_same hs (le_of_eq hfid.symm) ?_
    rw [hfid]
    exact hg.nextId.2
  have htake := takeId_eq (t := t.arm now msec) (by rw [hfid]; exact hg.nextId.1)
    (by rw [hfid]; exact hroom.1)
  have hnum : (t.arm now msec).heap.num < 2^31 := by
    rw [hs.heap]
    exact hroom.2
  simp only [htake]
  rcases Heap.push_spec hga.heap hnum (uint64 (int64 (now + msec))) (t.arm now msec).fresh room with
    ⟨heap, hpush, hp⟩ | ⟨-, hpush⟩
  · right
    refine ⟨by omega, by omega, ?_⟩
    simp only [hpush]
    have hins := hga.insert (by rw [hfid]; exact hroom.1) (if persistent then msec else 0)
      (t.arm now msec).round hp
    rw [hs.heap, hs.fresh] at hp
    refine ⟨_, congrArg (fun p => (some p, _)) hs.fresh, hins, hp, ?_, ?_, ?_, ?_, hfr, hfc, hfm, rfl, rfl⟩
    · show Function.update (t.arm now msec).tnodes (t.arm now msec).fresh _ = _
      rw [hs.tnodes, hs.fresh]
      unfold newNode
      rw [hfid, hfr, hs.heap]
    · show Function.update (t.arm now msec).live (t.arm now msec).fresh true = _
      rw [hs.live, hs.fresh]
    · show (t.arm now msec).fresh + 1 = _
      rw [hs.fresh]
    · show (t.arm now msec).nextId + 1 = _
      rw [hfid]
  · left
    simp only [hpush]
    refine ⟨_, rfl, { hs with }, .inr ?_, hfr, hfc, hfm, .inr ?_⟩
    · rw [hfid]
    · exact ⟨by omega, by omega, rfl, rfl⟩

lemma Refused.good {now msec : Int} (hr : Refused t t' now msec) (hg : t.Good) (hroom : t.Room) :
    t'.Good := by
  have := hroom.1
  have := hr.nextId
  exact hg.of_same hr.same (by omega) (by omega)

/-! ## a node gets another deadline -/

section
variable (t)

lemma setExec_self (p : Nat) : t.setExec p (t.tnodes p).execMsec = t := by
  show { t with tnodes := Function.update t.tnodes p (t.tnodes p) } = t
  rw [update_eq_self]

/-- the new deadline, in the node and in the heap -/
def retime (t : Timer) (p : Nat) (exec : Int) : Timer := (t.setExec p exec).update p

lemma retime_heap (p : Nat) (exec : Int) :
    (t.retime p exec).heap = t.heap.changePriority (uint64 exec) (t.tnodes p).heapNode := by
  show t.heap.changePriority (uint64 (Function.update t.tnodes p _ p).execMsec)
    (Function.update t.tnodes p _ p).heapNode = _
  rw [update_self]

lemma retime_tnodes_ne (exec : Int) (hq : q ≠ p) : (t.retime p exec).tnodes q = t.tnodes q :=
  update_of_ne hq _ _

lemma retime_tnodes_self (p : Nat) (exec : Int) :
    (t.retime p exec).tnodes p = { t.tnodes p with execMsec := exec } :=
  update_self _ _ _

lemma retime_tnodes (p q : Nat) (exec : Int) : (t.retime p exec).tnodes q
      = { t.tnodes q with execMsec := if q = p then exec else (t.tnodes q).execMsec } := by
  by_cases hq : q = p
  · rw [hq, retime_tnodes_self, if_pos rfl]
  · rw [retime_tnodes_ne t exec hq, if_neg hq]

lemma update_eq_retime (p : Nat) : t.update p = t.retime p (t.tnodes p).execMsec := by
  unfold retime
  rw [setExec_self]

lemma rearm_eq_retime (p : Nat) (exec : Int) : t.rearm (t.tnodes p).heapNode p exec = t.retime p exec := by
  have hh := retime_heap t p exec
  show { t.setExec p exec with heap := t.heap.changePriority (uint64 exec) (t.tnodes p).heapNode } = _
  rw [← hh]
  rfl

end

section
variable (hg : t.Good) (hp : t.live p = true)
include hg hp

lemma Good.retime (exec : Int) : (t.retime p exec).Good := by
  have hr := Heap.changePriority_spec hg.heap (hg.out p hp).1 (uint64 exec)
  rw [← retime_heap] at hr
  have hkey := hr.key
  rw [hg.data hp] at hkey
  have hdata : ∀ q, ((t.retime p exec).heap.mem q).data = (t.heap.mem q).data := by
    intro q
    show ((t.retime p exec).heap.key q).2 = _
    rw [hkey]
    by_cases hq : q = (t.tnodes p).heapNode
    · rw [hq, update_self]
      exact (hg.data hp).symm
    · rw [update_of_ne hq]
      rfl
  have hid : ∀ q, ((t.retime p exec).tnodes q).id = (t.tnodes q).id := by
    intro q
    rw [retime_tnodes]
  have hnode : ∀ q, ((t.retime p exec).tnodes q).heapNode = (t.tnodes q).heapNode := by
    intro q
    rw [retime_tnodes]
  constructor
  · exact hr.wf
  · exact hr.type.trans hg.type
  · rw [hr.live, hr.fresh]
    exact hg.null
  · intro id q hm
    rw [hid]
    exact hg.map id q hm
  · intro q hq
    rw [hid]
    exact hg.node q hq
  · intro q hq
    have hq' : t.live q = true := hq
    rw [hnode, hr.live, hkey]
    refine ⟨(hg.out q hq').1, ?_⟩
    by_cases hqp : q = p
    · rw [hqp, update_self, retime_tnodes_self]
    · have hne : (t.tnodes q).heapNode ≠ (t.tnodes p).heapNode := fun he => hqp (hg.heapNode_inj hq' hp he)
      rw [update_of_ne hne, retime_tnodes_ne t exec hqp]
      exact (hg.out q hq').2
  · intro q hq
    rw [hr.live] at hq
    rw [hdata, hnode]
    exact hg.back q hq
  · intro q hq
    rw [hid]
    exact hg.ids q hq
  · exact hg.nextId
  · exact hg.fresh

/-! ## a node goes -/

/-- erased from the map, taken out of the heap, freed -/
def drop (t : Timer) (p : Nat) (heap : Heap) : Timer :=
  { t with
    heap := heap, map := Function.update t.map (t.tnodes p).id none,
    live := Function.update t.live p false }

lemma Good.drop (hr : Heap.Removed t.heap heap (t.tnodes p).heapNode) : (t.drop p heap).Good := by
  have hdata : ∀ q, (heap.mem q).data = (t.heap.mem q).data :=
    fun q => congrArg Prod.snd (congrFun hr.key q)
  constructor
  · exact hr.wf
  · exact hr.type.trans hg.type
  · show heap.live 0 = false ∧ 1 ≤ heap.fresh
    rw [hr.live, hr.fresh, update_of_ne (Ne.symm (hg.heapNode_ne hp))]
    exact hg.null
  · intro id q hm
    obtain ⟨hi, hm⟩ := update_none_eq_some.1 hm
    obtain ⟨hl, he⟩ := hg.map id q hm
    have hqp : q ≠ p := by
      intro hqp
      rw [hqp] at he
      exact hi he.symm
    show Function.update t.live p false q = true ∧ (t.tnodes q).id = id
    rw [update_of_ne hqp]
    exact ⟨hl, he⟩
  · intro q hq
    obtain ⟨hqp, hl⟩ := live_drop hq
    have hne : (t.tnodes q).id ≠ (t.tnodes p).id := fun he => hqp (hg.id_inj hl hp he)
    show Function.update t.map (t.tnodes p).id none (t.tnodes q).id = some q
    rw [update_of_ne hne]
    exact hg.node q hl
  · intro q hq
    obtain ⟨hqp, hl⟩ := live_drop hq
    have hne : (t.tnodes q).heapNode ≠ (t.tnodes p).heapNode := fun he => hqp (hg.heapNode_inj hl hp he)
    show heap.live (t.tnodes q).heapNode = true ∧ heap.key (t.tnodes q).heapNode = _
    rw [hr.live, hr.key, update_of_ne hne]
    exact hg.out q hl
  · intro q hq
    have hq' : Function.update t.heap.live (t.tnodes p).heapNode false q = true := hr.live ▸ hq
    show Function.update t.live p false (heap.mem q).data = true ∧ (t.tnodes (heap.mem q).data).heapNode = q
    rw [hdata]
    by_cases hqh : q = (t.tnodes p).heapNode
    · rw [hqh, update_self] at hq'
      cases hq'
    · rw [update_of_ne hqh] at hq'
      obtain ⟨hl, hb⟩ := hg.back q hq'
      have hne : (t.heap.mem q).data ≠ p := by
        intro he
        rw [he] at hb
        exact hqh hb.symm
      rw [update_of_ne hne]
      exact ⟨hl, hb⟩
  · intro q hq
    exact hg.ids q (live_drop hq).2
  · exact hg.nextId
  · intro q hq
    exact hg.fresh q (live_drop hq).2

lemma Good.erase : t.erase p = t.drop p (t.heap.remove (t.tnodes p).heapNode) ∧ (t.erase p).Good := by
  have he : t.erase p = t.drop p (t.heap.remove (t.tnodes p).heapNode) := by
    unfold Timer.erase Timer.drop
    rw [if_pos (hg.heapNode_ne hp)]
  rw [he]
  exact ⟨rfl, hg.drop hp (Heap.remove_spec hg.heap (hg.out p hp).1)⟩

lemma Good.popNode (htop : t.heap.nodes 1 = (t.tnodes p).heapNode) :
    Heap.Removed t.heap t.heap.pop.2 (t.tnodes p).heapNode ∧ (t.popNode p).Good := by
  obtain ⟨h1, hlt, -⟩ := hg.heap.seated.pos _ (hg.out p hp).1
  have hr := (Heap.pop_spec hg.heap (by omega)).2
  rw [htop] at hr
  exact ⟨hr, hg.drop hp hr⟩

end

lemma Good.markRemoved (hg : t.Good) (p : Nat) : (t.markRemoved p).Good := by
  have hfields : ∀ q, ((t.markRemoved p).tnodes q).id = (t.tnodes q).id ∧
      ((t.markRemoved p).tnodes q).heapNode = (t.tnodes q).heapNode ∧
      ((t.markRemoved p).tnodes q).execMsec = (t.tnodes q).execMsec := by
    intro q
    rw [markRemoved_tnodes]
    exact ⟨rfl, rfl, rfl⟩
  constructor
  · exact hg.heap
  · exact hg.type
  · exact hg.null
  · intro id q hm
    rw [(hfields q).1]
    exact hg.map id q hm
  · intro q hq
    rw [(hfields q).1]
    exact hg.node q hq
  · intro q hq
    rw [(hfields q).2.1, (hfields q).2.2]
    exact hg.out q hq
  · intro q hq
    obtain ⟨hl, hb⟩ := hg.back q hq
    exact ⟨hl, (hfields _).2.1.trans hb⟩
  · intro q hq
    rw [(hfields q).1]
    exact hg.ids q hq
  · exact hg.nextId
  · exact hg.fresh

lemma remove_cases (hg : t.Good) (hm : t.map id = some p) :
    (t.tnodes p).removed = true ∧ t.remove (some p) = (false, t) ∨
      (t.tnodes p).removed = false ∧ 0 < t.currentId ∧ (t.tnodes p).id = t.currentId ∧
        t.remove (some p) = (true, t.markRemoved p) ∨
      (t.tnodes p).removed = false ∧ (t.tnodes p).id ≠ t.currentId ∧
        t.remove (some p) = (true, t.erase p) := by
  obtain ⟨hl, hid⟩ := hg.map id p hm
  have hpos := (hg.ids p hl).1
  by_cases hr : (t.tnodes p).removed = true
  · exact .inl ⟨hr, if_pos hr⟩
  · have hf := Bool.of_not_eq_true hr
    by_cases hc : t.currentId > 0 ∧ (t.tnodes p).id = t.currentId
    · exact .inr (.inl ⟨hf, hc.1, hc.2, (if_neg hr).trans (if_pos hc)⟩)
    · have hsome : ¬ t.map (t.tnodes p).id = none := by
        rw [hg.node p hl]
        exact Option.some_ne_none p
      refine .inr (.inr ⟨hf, ?_, (if_neg hr).trans ((if_neg hc).trans (if_neg hsome))⟩)
      intro he
      exact hc ⟨by omega, he⟩

end Timer

end OSW.Core
