import OpenSwoole.Core.Heap

/-!
# The heap operations

* `push_spec`, `pop_spec`, `changePriority_spec`, `remove_spec`   every operation keeps `Wf`, and what it
    does to the nodes;
* `remove_root`   taking out another node leaves the root where it is.
-/

namespace OSW.Core
open Function

namespace Heap

/-! ## well-formed heaps -/

/-- the nodes in the slots are the allocated ones, in order, and the slots fit the array and `left`; nothing was
written behind the array -/
structure Wf (h : Heap) : Prop where
  num_pos : 1 ≤ h.num
  num_le_size : h.num ≤ h.size
  inside : h.overrun = false
  num_le : h.num ≤ 2^31
  seated : BinHeap.Seated h.nodes h.position (fun p => h.live p = true) h.num
  ordered : BinHeap.Ordered h.Above h.nodes h.num
  fresh : ∀ p, h.live p = true → p < h.fresh

lemma new_wf {n : Nat} (hn : n + 1 < 2^32) (type : HeapType) : (new n type).Wf where
  num_pos := Nat.le_refl 1
  num_le_size := by
    show 1 ≤ (n + 1) % 2^32
    omega
  inside := rfl
  num_le := Nat.one_le_two_pow
  seated := ⟨fun j h1 hj => absurd h1 (Nat.not_le.2 hj), nofun⟩
  ordered := fun j h2 hj => absurd (Nat.lt_of_lt_of_le hj (by decide : (1 : Nat) ≤ 2)) (Nat.not_lt.2 h2)
  fresh := nofun

variable {h h' : Heap} {p j q node : Nat}

lemma Wf.live_ne_fresh (hw : h.Wf) (hp : h.live p = true) : p ≠ h.fresh := Nat.ne_of_lt (hw.fresh p hp)

lemma Wf.not_live_fresh (hw : h.Wf) : ¬ h.live h.fresh = true :=
  fun hp => absurd (hw.fresh _ hp) (Nat.lt_irrefl _)

lemma Wf.live_nodes (hw : h.Wf) (h1 : 1 ≤ j) (hj : j < h.num) : h.live (h.nodes j) = true :=
  (hw.seated.seat j h1 hj).1

lemma Wf.root_above (hw : h.Wf) (hp : h.live p = true) : h.Above (h.nodes 1) p := by
  obtain ⟨h1, hlt, hpos⟩ := hw.seated.pos p hp
  have := hw.ordered.root (Above.refl h) Above.trans h1 hlt
  rwa [hpos] at this

lemma Sifted.wf {M : Nat → Prop} (hs : Sifted h h' M) (hpos : 1 ≤ h.num) (hsize : h.num ≤ h.size)
    (hinside : h.overrun = false) (hnum : h.num ≤ 2^31) (live : Nat → Bool) (hM : ∀ p, M p ↔ live p = true)
    (hfresh : ∀ p, live p = true → p < h.fresh) :
    Wf { h' with live := live } where
  num_pos := by
    rw [hs.shuffled.num]
    exact hpos
  num_le_size := by
    rw [hs.shuffled.num, hs.shuffled.size]
    exact hsize
  inside := hs.shuffled.overrun.trans hinside
  num_le := by
    rw [hs.shuffled.num]
    exact hnum
  seated := by
    have hset : M = fun p => live p = true := funext fun p => propext (hM p)
    have := hs.seated
    rw [hset] at this
    exact this
  ordered := hs.ordered
  fresh := by
    intro p hp
    rw [hs.shuffled.fresh]
    exact hfresh p hp

/-! ## a node comes -/

lemma append_num (hnum : h.num < 2^31) (priority data : Nat) : (h.append priority data).num = h.num + 1 :=
  Nat.mod_eq_of_lt (by omega)

lemma append_key_ne (h : Heap) (priority data : Nat) (hp : p ≠ h.fresh) :
    (h.append priority data).key p = h.key p := by
  show ((update h.mem h.fresh _ p).priority, (update h.mem h.fresh _ p).data) = h.key p
  rw [update_of_ne hp]
  rfl

lemma append_key_fresh (h : Heap) (priority data : Nat) :
    (h.append priority data).key h.fresh = (priority, data) := by
  show ((update h.mem h.fresh _ h.fresh).priority, (update h.mem h.fresh _ h.fresh).data) = _
  rw [update_self]

lemma append_nodes_ne (h : Heap) (priority data : Nat) (hj : j ≠ h.num) :
    (h.append priority data).nodes j = h.nodes j :=
  update_of_ne hj _ _

lemma append_above (priority data : Nat) (hp : p ≠ h.fresh) (hq : q ≠ h.fresh) :
    (h.append priority data).Above p q ↔ h.Above p q :=
  Above.congr (show (h.append priority data).type = h.type from rfl)
    (append_key_ne h priority data hp) (append_key_ne h priority data hq)

section
variable (hw : h.Wf) (hnum : h.num < 2^31)
include hw hnum

lemma append_moving (priority data : Nat) :
    BinHeap.Moving (h.append priority data).nodes (h.append priority data).position
      (fun p => h.live p = true ∨ p = h.fresh) (h.append priority data).num h.num h.fresh := by
  rw [append_num hnum]
  refine (hw.seated.join hw.num_pos hw.not_live_fresh).congr (fun _ _ => rfl) ?_
  intro p hp
  show (update h.mem h.fresh _ p).position = h.position p
  rw [update_of_ne hp]
  rfl

lemma append_rising (priority data : Nat) :
    BinHeap.Rising (h.append priority data).Above (h.append priority data).nodes
      (h.append priority data).num h.num h.fresh := by
  have hpos := hw.num_pos
  rw [append_num hnum]
  refine ⟨⟨?_, ?_⟩, ?_⟩
  · intro j h2 hj hne hpne
    rw [append_nodes_ne h priority data hne, append_nodes_ne h priority data hpne]
    refine (append_above priority data ?_ ?_).2 (hw.ordered j h2 (by omega))
    · exact hw.live_ne_fresh (hw.live_nodes (by omega) (by omega))
    · exact hw.live_ne_fresh (hw.live_nodes (by omega) (by omega))
  · intro _ c hc hci
    omega
  · intro c hc hci
    omega

lemma append_bubbleUp (priority data : Nat) :
    Sifted (h.append priority data) ((h.append priority data).bubbleUp h.num)
      (fun p => h.live p = true ∨ p = h.fresh) := by
  have hx : (h.append priority data).nodes h.num = h.fresh := update_self _ _ _
  unfold bubbleUp
  rw [hx]
  exact bubbleUpLoop_spec h.num h.num _ (Nat.le_refl _) (append_moving hw hnum priority data)
    (append_rising hw hnum priority data)

structure Pushed (h h' : Heap) (priority data : Nat) : Prop where
  wf : h'.Wf
  num : h'.num = h.num + 1
  type : h'.type = h.type
  live : h'.live = update h.live h.fresh true
  fresh : h'.fresh = h.fresh + 1
  key : h'.key = update h.key h.fresh (priority, data)
  root : 2 ≤ h.num → h.compare (h.priority (h.nodes 1)) priority = false → h'.nodes 1 = h.nodes 1

lemma append_pushed (hsize : h.num < h.size) (priority data : Nat) :
    Pushed h ((h.append priority data).bubbleUp h.num) priority data := by
  have hs := append_bubbleUp hw hnum priority data
  have hn := append_num hnum priority data
  have hlive : ((h.append priority data).bubbleUp h.num).live = update h.live h.fresh true :=
    hs.shuffled.live
  refine ⟨?_, hs.shuffled.num.trans hn, hs.shuffled.type, hlive, hs.shuffled.fresh, ?_, ?_⟩
  · refine hs.wf ?_ ?_ ?_ ?_ ((h.append priority data).bubbleUp h.num).live ?_ ?_
    · omega
    · rw [hn]
      exact hsize
    · show (h.overrun || decide (h.size ≤ h.num)) = false
      rw [hw.inside, Bool.false_or]
      exact decide_eq_false (Nat.not_le.2 hsize)
    · omega
    · intro p
      rw [hlive]
      by_cases hp : p = h.fresh
      · rw [hp, update_self]
        exact iff_of_true (.inr rfl) rfl
      · rw [update_of_ne hp]
        exact ⟨fun hor => hor.resolve_right hp, .inl⟩
    · intro p hp
      rw [hlive] at hp
      show p < h.fresh + 1
      by_cases hpe : p = h.fresh
      · omega
      · rw [update_of_ne hpe] at hp
        exact Nat.lt_succ_of_lt (hw.fresh p hp)
  · rw [hs.shuffled.key]
    funext p
    by_cases hp : p = h.fresh
    · rw [hp, update_self]
      exact append_key_fresh h priority data
    · rw [update_of_ne hp]
      exact append_key_ne h priority data hp
  · intro h2 hc
    have hroot : (h.append priority data).nodes 1 = h.nodes 1 := append_nodes_ne h priority data (by omega)
    have hx : (h.append priority data).nodes h.num = h.fresh := update_self _ _ _
    have hr : (h.append priority data).priority (h.nodes 1) = h.priority (h.nodes 1) :=
      priority_of_key (append_key_ne h priority data (hw.live_ne_fresh (hw.live_nodes (Nat.le_refl 1) h2)))
    have hf : (h.append priority data).priority h.fresh = priority :=
      congrArg Prod.fst (append_key_fresh h priority data)
    unfold bubbleUp
    rw [hx, bubbleUpLoop_root h.num h.num _ h2, hroot]
    show h.compare ((h.append priority data).priority ((h.append priority data).nodes 1))
      ((h.append priority data).priority h.fresh) = false
    rw [hroot, hr, hf]
    exact hc

end

lemma Wf.resize (hw : h.Wf) (size : Nat) (hsize : h.num ≤ size) : Wf { h with size := size } :=
  { hw with num_le_size := hsize }

lemma push_spec (hw : h.Wf) (hnum : h.num < 2^31) (priority data : Nat) (room : Bool) :
    (∃ h', h.push priority data room = (some h.fresh, h') ∧ Pushed h h' priority data) ∨
      (room = false ∧ h.push priority data room = (none, h)) := by
  unfold push
  by_cases hfull : h.num < h.size
  · rw [if_pos hfull]
    exact .inl ⟨_, rfl, append_pushed hw hnum hfull priority data⟩
  · rw [if_neg hfull]
    cases room with
    | false => exact .inr ⟨rfl, rfl⟩
    | true =>
      have hle := hw.num_le_size
      have hpos := hw.num_pos
      have hp := append_pushed (hw.resize (h.size * 2 % 2^32) (by omega)) hnum
        (by show h.num < h.size * 2 % 2^32; omega) priority data
      exact .inl ⟨_, rfl, hp.wf, hp.num, hp.type, hp.live, hp.fresh, hp.key, hp.root⟩

/-! ## a node gets another priority -/

lemma setPriority_key (h : Heap) (newPriority node : Nat) :
    (h.setPriority newPriority node).key = update h.key node (newPriority, (h.mem node).data) := by
  funext p
  show ((update h.mem node _ p).priority, (update h.mem node _ p).data) = _
  by_cases hp : p = node
  · rw [hp, update_self, update_self]
  · rw [update_of_ne hp, update_of_ne hp]
    rfl

lemma setPriority_position (h : Heap) (newPriority node : Nat) :
    (h.setPriority newPriority node).position = h.position := by
  funext p
  show (update h.mem node _ p).position = h.position p
  by_cases hp : p = node
  · rw [hp, update_self]
    rfl
  · rw [update_of_ne hp]
    rfl

lemma setPriority_priority_ne (h : Heap) (newPriority : Nat) (hp : p ≠ node) :
    (h.setPriority newPriority node).priority p = h.priority p := by
  show (update h.mem node _ p).priority = (h.mem p).priority
  rw [update_of_ne hp]

lemma setPriority_above (newPriority : Nat) (hp : p ≠ node) (hq : q ≠ node) :
    (h.setPriority newPriority node).Above p q ↔ h.Above p q := by
  refine Above.congr (show (h.setPriority newPriority node).type = h.type from rfl) ?_ ?_
  · rw [setPriority_key, update_of_ne hp]
  · rw [setPriority_key, update_of_ne hq]

lemma setPriority_around (hw : h.Wf) (hl : h.live node = true) (newPriority : Nat) :
    BinHeap.Around (h.setPriority newPriority node).Above h.nodes h.num (h.position node) := by
  obtain ⟨h1, hlt, hat⟩ := hw.seated.pos node hl
  have hne : ∀ j, 1 ≤ j → j < h.num → j ≠ h.position node → h.nodes j ≠ node := by
    intro j hj1 hj hjn he
    exact hjn (hw.seated.inj ⟨hj1, hj⟩ ⟨h1, hlt⟩ (he.trans hat.symm))
  have ha := hw.ordered.around Above.trans (h.position node)
  refine ⟨?_, ?_⟩
  · intro j h2 hj hj1 hj2
    exact (setPriority_above newPriority (hne _ (by omega) (by omega) hj2)
      (hne j (by omega) hj hj1)).2 (ha.off j h2 hj hj1 hj2)
  · intro h2 c hc hci
    exact (setPriority_above newPriority (hne _ (by omega) (by omega) (by omega))
      (hne c (by omega) hc (by omega))).2 (ha.across h2 c hc hci)

structure Rekeyed (h h' : Heap) (newPriority node : Nat) : Prop where
  wf : h'.Wf
  num : h'.num = h.num
  type : h'.type = h.type
  live : h'.live = h.live
  fresh : h'.fresh = h.fresh
  key : h'.key = update h.key node (newPriority, (h.mem node).data)

lemma changePriority_spec (hw : h.Wf) (hl : h.live node = true) (newPriority : Nat) :
    Rekeyed h (h.changePriority newPriority node) newPriority node := by
  obtain ⟨h1, hlt, hat⟩ := hw.seated.pos node hl
  have ha := setPriority_around hw hl newPriority
  have hnew : (h.setPriority newPriority node).priority node = newPriority := by
    show (update h.mem node _ node).priority = newPriority
    rw [update_self]
  have hm : BinHeap.Moving (h.setPriority newPriority node).nodes
      (h.setPriority newPriority node).position (fun p => h.live p = true) h.num
      (h.position node) node := by
    have := hw.seated.moving h1 hlt
    rw [hat] at this
    rw [setPriority_position]
    exact this
  -- the nodes around the hole are other nodes, so they keep their priorities
  have hother : ∀ j, 1 ≤ j → j < h.num → j ≠ h.position node →
      (h.setPriority newPriority node).priority (h.nodes j) = h.priority (h.nodes j) := by
    intro j hj1 hj hjn
    refine setPriority_priority_ne h newPriority ?_
    intro he
    exact hjn (hw.seated.inj ⟨hj1, hj⟩ ⟨h1, hlt⟩ (he.trans hat.symm))
  have hs : Sifted (h.setPriority newPriority node) (h.changePriority newPriority node)
      (fun p => h.live p = true) := by
    show Sifted _ (if h.compare (h.priority node) newPriority = true then
      (h.setPriority newPriority node).bubbleUp (h.position node)
      else (h.setPriority newPriority node).percolateDown (h.position node)) _
    by_cases hc : h.compare (h.priority node) newPriority = true
    · rw [if_pos hc]
      show Sifted _ (bubbleUpLoop (h.nodes (h.position node)) _ _ _) _
      rw [hat]
      refine bubbleUpLoop_spec _ _ _ (Nat.le_refl _) hm ⟨ha, ?_⟩
      intro c hcn hci
      have hlow := hw.ordered c (by omega) hcn
      rw [hci, hat] at hlow
      show h.compare ((h.setPriority newPriority node).priority node)
        ((h.setPriority newPriority node).priority (h.nodes c)) = false
      rw [hnew, hother c (by omega) hcn (by omega)]
      exact compare_trans (compare_asymm hc) hlow
    · rw [if_neg hc]
      show Sifted _ (percolateDownLoop (h.nodes (h.position node)) _ _ _) _
      rw [hat]
      refine percolateDownLoop_spec _ _ _ (Nat.le_add_left _ _) hw.num_le hm ⟨ha, ?_⟩
      intro h2
      have hup := hw.ordered (h.position node) h2 hlt
      rw [hat] at hup
      show h.compare ((h.setPriority newPriority node).priority (h.nodes (h.position node / 2)))
        ((h.setPriority newPriority node).priority node) = false
      rw [hnew, hother (h.position node / 2) (by omega) (by omega) (by omega)]
      exact compare_trans hup (Bool.of_not_eq_true hc)
  have hlive : (h.changePriority newPriority node).live = h.live := hs.shuffled.live
  refine { hs.shuffled with wf := ?_, live := hlive, key := ?_ }
  · refine hs.wf hw.num_pos hw.num_le_size hw.inside hw.num_le (h.changePriority newPriority node).live ?_ ?_
    · intro p
      rw [hlive]
    · intro p hp
      rw [hlive] at hp
      exact hw.fresh p hp
  · rw [hs.shuffled.key, setPriority_key]

/-! ## a node goes -/

structure Removed (h h' : Heap) (node : Nat) : Prop where
  wf : h'.Wf
  num : h'.num = h.num - 1
  type : h'.type = h.type
  live : h'.live = update h.live node false
  fresh : h'.fresh = h.fresh
  key : h'.key = h.key

lemma Sifted.removed (hw : h.Wf) (pos : Nat) (h2 : 2 ≤ h.num)
    (hs : Sifted (h.replace pos) h' (fun p => h.live p = true ∧ p ≠ node)) :
    Removed h (h'.delete node) node := by
  have hlive : update h'.live node false = update h.live node false :=
    congrArg (fun l => update l node false) hs.shuffled.live
  have hsize := hw.num_le_size
  have hnum := hw.num_le
  refine { hs.shuffled with wf := ?_, live := hlive }
  refine hs.wf ?_ ?_ hw.inside ?_ (update h'.live node false) ?_ ?_
  · show 1 ≤ h.num - 1
    omega
  · show h.num - 1 ≤ h.size
    omega
  · show h.num - 1 ≤ 2^31
    omega
  · intro p
    rw [hlive]
    by_cases hp : p = node
    · rw [hp, update_self]
      exact iff_of_false (fun hand => hand.2 rfl) Bool.false_ne_true
    · rw [update_of_ne hp]
      exact ⟨And.left, fun hpl => ⟨hpl, hp⟩⟩
  · intro p hp
    rw [hlive] at hp
    by_cases hpe : p = node
    · rw [hpe, update_self] at hp
      cases hp
    · rw [update_of_ne hpe] at hp
      exact hw.fresh p hp

lemma replace_nodes_self (h : Heap) (pos : Nat) : (h.replace pos).nodes pos = h.nodes (h.num - 1) :=
  update_self _ _ _

lemma replace_moving (hw : h.Wf) (hl : h.live node = true) (hlast : h.position node < h.num - 1) :
    BinHeap.Moving (h.replace (h.position node)).nodes (h.replace (h.position node)).position
      (fun p => h.live p = true ∧ p ≠ node) (h.num - 1) (h.position node) (h.nodes (h.num - 1)) := by
  obtain ⟨h1, hlt, hat⟩ := hw.seated.pos node hl
  have hs := hw.seated
  rw [show h.num = h.num - 1 + 1 by omega] at hs
  have hm := hs.replace h1 hlast
  rw [hat] at hm
  exact hm

lemma replace_around (hw : h.Wf) (pos : Nat) :
    BinHeap.Around (h.replace pos).Above (h.replace pos).nodes (h.num - 1) pos :=
  ((hw.ordered.mono (Nat.sub_le _ 1)).around Above.trans pos).congr fun _ _ _ hne => update_of_ne hne _ _

section
variable (hw : h.Wf) (hl : h.live node = true)
include hw hl

lemma replace_last (hlast : h.position node = h.num - 1) :
    Sifted (h.replace (h.position node)) ((h.replace (h.position node)).percolateDown (h.position node))
      (fun p => h.live p = true ∧ p ≠ node) := by
  obtain ⟨h1, hlt, hat⟩ := hw.seated.pos node hl
  have hnum := hw.num_le
  have hat' : h.nodes (h.num - 1) = node := by
    rw [← hlast]
    exact hat
  have hput : update h.nodes (h.position node) node = h.nodes := by
    have := update_eq_self (h.position node) h.nodes
    rwa [hat] at this
  have hself : (h.replace (h.position node)).nodes = h.nodes := by
    show update h.nodes (h.position node) (h.nodes (h.num - 1)) = h.nodes
    rw [hat', hput]
  have hchild : (h.replace (h.position node)).maxchild (h.position node) = 0 := by
    refine (maxchild_eq_zero (by omega) h1).2 ?_
    show h.num - 1 ≤ h.position node * 2
    omega
  have hplace : (h.replace (h.position node)).percolateDown (h.position node)
      = (h.replace (h.position node)).place (h.position node) node := by
    unfold percolateDown
    rw [replace_nodes_self, hat']
    show percolateDownLoop node (h.num - 1) _ _ = _
    rw [show h.num - 1 = h.num - 2 + 1 by omega]
    show (if _ then _ else _) = _
    rw [if_neg (fun hc => hc.1 hchild)]
  have hs := hw.seated
  rw [show h.num = h.num - 1 + 1 by omega] at hs
  have hleave := hs.leave (by omega)
  rw [hat'] at hleave
  rw [hplace]
  have hsh := place_shuffled (h.replace (h.position node)) (h.position node) node
  refine ⟨hsh, ?_, ?_⟩
  · rw [place_position]
    show BinHeap.Seated (update (h.replace (h.position node)).nodes (h.position node) node) _ _ (h.num - 1)
    rw [hself]
    exact hleave.outside (by omega) (fun hand => hand.2 rfl)
  · rw [hsh.above]
    show BinHeap.Ordered h.Above (update (h.replace (h.position node)).nodes (h.position node) node)
      (h.num - 1)
    rw [hself, hput]
    exact hw.ordered.mono (Nat.sub_le _ 1)

lemma remove_spec : Removed h (h.remove node) node := by
  obtain ⟨h1, hlt, hat⟩ := hw.seated.pos node hl
  have hnum := hw.num_le
  refine Sifted.removed hw (h.position node) (by omega) ?_
  show Sifted _ (if h.compare (h.priority node)
      (h.priority ((h.replace (h.position node)).nodes (h.position node))) = true then
    (h.replace (h.position node)).bubbleUp (h.position node)
    else (h.replace (h.position node)).percolateDown (h.position node)) _
  rw [replace_nodes_self]
  by_cases hlast : h.position node = h.num - 1
  · rw [← hlast, hat, compare_self, if_neg Bool.false_ne_true]
    exact replace_last hw hl hlast
  · have hm := replace_moving hw hl (by omega)
    have ha := replace_around hw (h.position node)
    by_cases hc : h.compare (h.priority node) (h.priority (h.nodes (h.num - 1))) = true
    · rw [if_pos hc]
      unfold bubbleUp
      rw [replace_nodes_self]
      refine bubbleUpLoop_spec _ _ _ (Nat.le_refl _) hm ⟨ha, ?_⟩
      intro c hcn hci
      have hcn' : c < h.num - 1 := hcn
      have hlow := hw.ordered c (by omega) (by omega)
      rw [hci, hat] at hlow
      have hc' : (h.replace (h.position node)).nodes c = h.nodes c := update_of_ne (by omega) _ _
      rw [hc']
      exact (Above.of_compare hc).trans hlow
    · rw [if_neg hc]
      unfold percolateDown
      rw [replace_nodes_self]
      refine percolateDownLoop_spec _ _ _ (Nat.le_add_left _ _) ?_ hm ⟨ha, ?_⟩
      · show h.num - 1 ≤ 2^31
        omega
      · intro h2
        have hup := hw.ordered (h.position node) h2 hlt
        rw [hat] at hup
        have hc' : (h.replace (h.position node)).nodes (h.position node / 2)
            = h.nodes (h.position node / 2) := update_of_ne (by omega) _ _
        rw [hc']
        exact Above.trans hup (Above.of_not_compare hc)

lemma remove_root (hne : h.nodes 1 ≠ node) : (h.remove node).nodes 1 = h.nodes 1 := by
  obtain ⟨h1, hlt, hat⟩ := hw.seated.pos node hl
  have hnum := hw.num_le
  have h2 : 2 ≤ h.position node := by
    by_contra hlow
    rw [show h.position node = 1 by omega] at hat
    exact hne hat
  have hroot : (h.replace (h.position node)).nodes 1 = h.nodes 1 := update_of_ne (by omega) _ _
  show (if h.compare (h.priority node)
      (h.priority ((h.replace (h.position node)).nodes (h.position node))) = true then
    (h.replace (h.position node)).bubbleUp (h.position node)
    else (h.replace (h.position node)).percolateDown (h.position node) : Heap).nodes 1 = _
  split
  · refine (bubbleUpLoop_root _ _ _ h2 ?_).trans hroot
    rw [hroot, replace_nodes_self]
    exact hw.root_above (hw.live_nodes (by omega) (by omega))
  · refine (percolateDownLoop_root _ _ _ ?_ h2 (by omega)).trans hroot
    show h.num - 1 ≤ 2^31
    omega

end

lemma pop_spec (hw : h.Wf) (h2 : 2 ≤ h.num) :
    (h.pop).1 = some (h.mem (h.nodes 1)).data ∧ Removed h (h.pop).2 (h.nodes 1) := by
  have hnum := hw.num_le
  have hl : h.live (h.nodes 1) = true := hw.live_nodes (Nat.le_refl 1) h2
  have hpos : h.position (h.nodes 1) = 1 := (hw.seated.seat 1 (Nat.le_refl 1) h2).2
  have hpop : h.pop = (some (h.mem (h.nodes 1)).data, ((h.replace 1).percolateDown 1).delete (h.nodes 1)) :=
    if_neg (by omega)
  rw [hpop]
  refine ⟨rfl, ?_⟩
  refine Sifted.removed hw 1 h2 ?_
  by_cases hlast : h.num = 2
  · have := replace_last hw hl (by omega)
    rw [hpos] at this
    exact this
  · have hm := replace_moving hw hl (by omega)
    rw [hpos] at hm
    unfold percolateDown
    refine percolateDownLoop_spec _ _ _ (Nat.le_add_left _ _) ?_ hm ⟨replace_around hw 1, ?_⟩
    · show h.num - 1 ≤ 2^31
      omega
    · intro hbad
      omega

end Heap

end OSW.Core
