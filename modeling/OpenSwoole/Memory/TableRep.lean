import Mathlib.Data.List.Perm.Subperm
import Mathlib.Data.Set.List
import OpenSwoole.Memory.Table

/-!
# The buckets of a table

* `Bucket`   the rows of a bucket, from its head on: linked, in use, with distinct keys that hash to the
    bucket;
* `Inv.replace`   an operation that changes one bucket and the pool leaves the other buckets alone;
* `findRow_hit`, `findRow_off`   what the loop over a bucket finds.
-/

namespace OSW
open Chain List Function Option

namespace TableRow

def keyBytes (row : TableRow) : Bytes := row.key.take row.keyLen

structure Live (row : TableRow) : Prop where
  active : row.active = true
  keyLen : row.keyLen < tableKeySize
  key : row.key.length = tableKeySize

variable {row tmp : TableRow} {key : Bytes}

lemma Live.hasKey_iff (h : row.Live) (key : Bytes) : row.hasKey key = true ↔ row.keyBytes = key := by
  unfold hasKey
  rw [decide_eq_true_eq]
  constructor
  · exact fun hk => hk.2
  · intro hk
    refine ⟨?_, hk⟩
    have h1 := h.keyLen
    have h2 := h.key
    rw [← hk, keyBytes, length_take]
    omega

lemma Live.hasKey_eq_false (h : row.Live) (hne : row.keyBytes ≠ key) : row.hasKey key = false := by
  rw [Bool.eq_false_iff]
  exact fun hk => hne ((h.hasKey_iff key).1 hk)

lemma init_live (hk : key.length < tableKeySize) : (row.init key).Live := by
  refine ⟨rfl, hk, ?_⟩
  unfold init
  rw [length_append, length_replicate]
  omega

lemma init_keyBytes (row : TableRow) (key : Bytes) : (row.init key).keyBytes = key := take_left

lemma copyFrom_live (h : row.Live) (htmp : tmp.Live) : (row.copyFrom tmp).Live := by
  have h1 := h.key
  have h3 := htmp.key
  refine ⟨h.active, htmp.keyLen, ?_⟩
  unfold copyFrom
  rw [length_append, length_take, length_drop]
  omega

lemma copyFrom_keyBytes (htmp : tmp.Live) : (row.copyFrom tmp).keyBytes = tmp.keyBytes := by
  have h2 := htmp.keyLen
  have h3 := htmp.key
  unfold copyFrom keyBytes
  dsimp only
  rw [take_append_of_le_length, take_take]
  · congr 1
    omega
  · rw [length_take]
    omega

end TableRow

lemma TableKey.cut_lt (key : TableKey) : key.cut.length < tableKeySize := by
  unfold TableKey.cut checkKeyLength tableKeySize
  rw [length_take]
  split <;> omega

structure Bucket (c : TableConfig) (rows : RowRef → TableRow) (i : Nat) (refs : List RowRef) : Prop where
  live : ∀ r ∈ refs, (rows r).Live
  index : ∀ r ∈ refs, c.index (rows r).keyBytes = i
  keys : (refs.map fun r => (rows r).keyBytes).Nodup
  path : Path (fun r => (rows r).next) refs none
  empty : refs = [] → (rows (.root i)).active = false ∧ (rows (.root i)).next = none
  shape : ∀ r l, refs = r :: l → r = .root i ∧ ∀ x ∈ l, ∃ s, x = .slot s

structure SameHead (row row' : TableRow) : Prop where
  active : row'.active = row.active
  keyLen : row'.keyLen = row.keyLen
  next : row'.next = row.next
  key : row'.key = row.key

variable {row row' : TableRow} {rows : RowRef → TableRow} {k d : Bytes}

lemma SameHead.of_eq (h : row' = row) : SameHead row row' := by
  subst h
  exact ⟨rfl, rfl, rfl, rfl⟩

lemma SameHead.keyBytes (h : SameHead row row') : row'.keyBytes = row.keyBytes := by
  unfold TableRow.keyBytes
  rw [h.keyLen, h.key]

namespace Bucket
variable {c : TableConfig} {rows' : RowRef → TableRow} {i : Nat} {refs : List RowRef}

lemma nil (h : (rows (.root i)).active = false ∧ (rows (.root i)).next = none) : Bucket c rows i [] :=
  ⟨nofun, nofun, nodup_nil, trivial, fun _ => h, nofun⟩

section
variable (h : Bucket c rows i refs)
include h

lemma root (hne : refs ≠ []) : ∃ ss : List Nat, refs = .root i :: ss.map .slot := by
  obtain ⟨r, l, rfl⟩ := exists_cons_of_ne_nil hne
  obtain ⟨rfl, hl⟩ := h.shape r l rfl
  have hslots : l ∈ Set.range (map RowRef.slot) := by
    rw [Set.range_list_map]
    exact fun x hx => (hl x hx).imp fun s hs => hs.symm
  obtain ⟨ss, rfl⟩ := hslots
  exact ⟨ss, rfl⟩

lemma nodup : refs.Nodup := h.keys.of_map _

lemma of_keys {refs' : List RowRef} (hlive : ∀ r ∈ refs', (rows' r).Live)
    (hkeys : (refs'.map fun r => (rows' r).keyBytes).Sublist (refs.map fun r => (rows r).keyBytes))
    (hpath : Path (fun r => (rows' r).next) refs' none)
    (hempty : refs' = [] → (rows' (.root i)).active = false ∧ (rows' (.root i)).next = none)
    (hhead : refs'.head? = refs.head?) (htail : refs'.tail ⊆ refs.tail) : Bucket c rows' i refs' := by
  refine ⟨hlive, ?_, h.keys.sublist hkeys, hpath, hempty, ?_⟩
  · intro r hr
    obtain ⟨x, hx, he⟩ := mem_map.1 (hkeys.subset (mem_map_of_mem hr))
    rw [← he]
    exact h.index x hx
  · rintro r l rfl
    obtain ⟨l', rfl⟩ := head?_eq_some_iff.1 hhead.symm
    obtain ⟨hr, hl⟩ := h.shape r l' rfl
    exact ⟨hr, fun x hx => hl x (htail hx)⟩

lemma congr (hroot : SameHead (rows (.root i)) (rows' (.root i)))
    (hrefs : ∀ r ∈ refs, SameHead (rows r) (rows' r)) : Bucket c rows' i refs := by
  refine h.of_keys ?_ ?_ (h.path.congr fun r hr => (hrefs r hr).next) ?_ rfl (Subset.refl _)
  · intro r hr
    have hl := h.live r hr
    have he := hrefs r hr
    exact ⟨he.active.trans hl.active, he.keyLen ▸ hl.keyLen, he.key ▸ hl.key⟩
  · rw [map_congr_left fun r hr => (hrefs r hr).keyBytes]
  · intro he
    rw [hroot.active, hroot.next]
    exact h.empty he

/-- a row in which at most `next` has changed -/
lemma relinked {u r : RowRef} {n : Option RowRef} (hu : rows' u = { rows u with next := n })
    (hother : r ≠ u → rows' r = rows r) (hr : r ∈ refs) :
    (rows' r).keyBytes = (rows r).keyBytes ∧ (rows' r).Live := by
  by_cases hru : r = u
  · subst hru
    rw [hu]
    exact ⟨rfl, { h.live r hr with }⟩
  · rw [hother hru]
    exact ⟨rfl, h.live r hr⟩

lemma eq_of_root_mem {j : Nat} (hj : .root j ∈ refs) : j = i := by
  obtain ⟨ss, he⟩ := h.root (ne_nil_of_mem hj)
  rw [he] at hj
  simpa using hj

lemma eq_of_keyBytes {r r' : RowRef} (hr : r ∈ refs) (hr' : r' ∈ refs)
    (he : (rows r).keyBytes = (rows r').keyBytes) : r = r' :=
  inj_on_of_nodup_map h.keys hr hr' he

end

variable {a b : List RowRef} {x : RowRef}

lemma append {last : RowRef} {k : Bytes} {s : Nat} (hb : Bucket c rows i (a ++ [last])) (hi : c.index k = i)
    (hmiss : ∀ r ∈ a ++ [last], (rows r).keyBytes ≠ k) (hs : .slot s ∉ a ++ [last])
    (hslot : (rows' (.slot s)).Live ∧ (rows' (.slot s)).keyBytes = k ∧ (rows' (.slot s)).next = none)
    (hlast : rows' last = { rows last with next := some (.slot s) })
    (hother : ∀ x, x ≠ last → x ≠ .slot s → rows' x = rows x) :
    Bucket c rows' i (a ++ [last] ++ [.slot s]) := by
  have hsame : ∀ r ∈ a ++ [last], (rows' r).keyBytes = (rows r).keyBytes ∧ (rows' r).Live := fun r hr =>
    hb.relinked hlast (fun hrl => hother r hrl fun he => hs (he ▸ hr)) hr
  refine ⟨?_, ?_, ?_, ?_, ?_, ?_⟩
  · exact forall_mem_append.2 ⟨fun r hr => (hsame r hr).2, forall_mem_singleton.2 hslot.1⟩
  · refine forall_mem_append.2 ⟨fun r hr => ?_, forall_mem_singleton.2 (by rw [hslot.2.1, hi])⟩
    rw [(hsame r hr).1]
    exact hb.index r hr
  · rw [map_append, map_congr_left fun r hr => (hsame r hr).1, nodup_append]
    refine ⟨hb.keys, nodup_singleton _, ?_⟩
    intro x hx y hy
    obtain ⟨r, hr, rfl⟩ := mem_map.1 hx
    obtain rfl : y = k := (mem_singleton.1 hy).trans hslot.2.1
    exact hmiss r hr
  · have hla : last ∉ a := by
      intro hm
      exact (nodup_append.1 hb.nodup).2.2 last hm last mem_cons_self rfl
    rw [path_append]
    refine ⟨(hb.path.setEnd hla (some (.slot s))).congr ?_, path_singleton.2 hslot.2.2⟩
    intro r hr
    by_cases hrl : r = last
    · rw [hrl, hlast, update_self]
    · rw [hother r hrl fun he => hs (he ▸ hr), update_of_ne hrl]
  · intro he
    simp at he
  · intro r l he
    cases hrefs : a ++ [last] with
    | nil => simp at hrefs
    | cons r' l' =>
      rw [hrefs] at he
      obtain ⟨rfl, rfl⟩ := cons.inj he
      obtain ⟨hroot, hl⟩ := hb.shape r' l' hrefs
      refine ⟨hroot, fun x hx => ?_⟩
      rcases mem_append.1 hx with hx | hx
      · exact hl x hx
      · exact ⟨s, mem_singleton.1 hx⟩

lemma unlink {u : RowRef} (hb : Bucket c rows i (a ++ u :: x :: b))
    (hu : rows' u = { rows u with next := (rows x).next })
    (hother : ∀ y, y ≠ u → y ≠ x → rows' y = rows y) : Bucket c rows' i (a ++ u :: b) := by
  have hsub : (a ++ u :: b).Sublist (a ++ u :: x :: b) :=
    (Sublist.refl a).append ((sublist_cons_self x b).cons_cons u)
  have hx : x ∉ a ++ u :: b := by
    have hn := hb.nodup
    rw [append_cons, nodup_middle, ← append_cons] at hn
    exact (nodup_cons.1 hn).1
  have hsame : ∀ r ∈ a ++ u :: b, (rows' r).keyBytes = (rows r).keyBytes ∧ (rows' r).Live := fun r hr =>
    hb.relinked hu (fun hru => hother r hru fun he => hx (he ▸ hr)) (hsub.subset hr)
  refine hb.of_keys (fun r hr => (hsame r hr).2) ?_ ?_ ?_ ?_ ?_
  · rw [map_congr_left fun r hr => (hsame r hr).1]
    exact hsub.map _
  · have hnext : (rows x).next = first b none := (path_append.1 hb.path).2.2.1
    refine (hb.path.unlink hb.nodup).congr fun r hr => ?_
    by_cases hru : r = u
    · rw [hru, hu, update_self]
      exact hnext
    · rw [hother r hru fun he => hx (he ▸ hr), update_of_ne hru]
  · intro he
    simp at he
  · cases a <;> rfl
  · cases a with
    | nil => exact subset_cons_self x b
    | cons r a =>
      intro y hy
      simp only [cons_append, tail_cons, mem_append, mem_cons] at hy ⊢
      exact hy.imp_right (Or.imp_right .inr)

lemma pop (hb : Bucket c rows i (.root i :: x :: b))
    (hroot : (rows' (.root i)).Live ∧ (rows' (.root i)).keyBytes = (rows x).keyBytes ∧
      (rows' (.root i)).next = (rows x).next)
    (hother : ∀ y, y ≠ .root i → y ≠ x → rows' y = rows y) : Bucket c rows' i (.root i :: b) := by
  obtain ⟨hrn, hn⟩ := nodup_cons.1 hb.nodup
  obtain ⟨hxn, -⟩ := nodup_cons.1 hn
  have hb' : ∀ r ∈ b, rows' r = rows r := by
    intro r hr
    apply hother r
    · rintro rfl
      exact hrn (mem_cons_of_mem x hr)
    · rintro rfl
      exact hxn hr
  refine hb.of_keys ?_ ?_ ?_ nofun rfl (subset_cons_self x b)
  · intro r hr
    rcases mem_cons.1 hr with rfl | hr
    · exact hroot.1
    · rw [hb' r hr]
      exact hb.live r (mem_cons_of_mem _ (mem_cons_of_mem x hr))
  · rw [map_cons, hroot.2.1, map_congr_left fun r hr => by rw [hb' r hr]]
    exact sublist_cons_self _ _
  · exact ⟨hroot.2.2.trans hb.path.2.1, hb.path.2.2.congr fun r hr => by rw [hb' r hr]⟩

end Bucket

/-! ## the table -/

/-- the rows `refs` hold the key with the data -/
def Content (rows : RowRef → TableRow) (refs : List RowRef) (key data : Bytes) : Prop :=
  ∃ r ∈ refs, (rows r).keyBytes = key ∧ (rows r).data = data

lemma content_append {a b : List RowRef} :
    Content rows (a ++ b) k d ↔ Content rows a k d ∨ Content rows b k d := by
  simp only [Content, mem_append, or_and_right, exists_or]

lemma content_congr {rows' : RowRef → TableRow} {refs : List RowRef}
    (h : ∀ r ∈ refs, (rows' r).keyBytes = (rows r).keyBytes ∧ (rows' r).data = (rows r).data) :
    Content rows' refs k d ↔ Content rows refs k d := by
  refine exists_congr fun r => and_congr_right fun hr => ?_
  rw [(h r hr).1, (h r hr).2]

/-- `refs` are the rows of the buckets and `m` is the map they make -/
structure Table.Inv (c : TableConfig) (t : Table) (refs : Nat → List RowRef) (idle busy : List Nat)
    (m : Bytes → Option Bytes) : Prop where
  pool : t.pool.Rep idle busy
  perm : (idle ++ busy).Perm (range c.sliceNum)
  bucket : ∀ i < c.size, Bucket c t.rows i (refs i)
  owner : ∀ s, s ∈ busy ↔ ∃ i < c.size, .slot s ∈ refs i
  disjoint : ∀ i j s, i < c.size → j < c.size → .slot s ∈ refs i → .slot s ∈ refs j → i = j
  dataLen : ∀ r, (t.rows r).data.length = c.itemSize
  content : ∀ k d, m k = some d ↔ Content t.rows (refs (c.index k)) k d

namespace Table.Inv
variable {c : TableConfig} {t t' : Table} {refs : Nat → List RowRef} {idle busy idle' busy' : List Nat}
  {m : Bytes → Option Bytes} {i : Nat} {refs' : List RowRef}

variable {j : Nat}

section
variable (h : t.Inv c refs idle busy m)
include h

lemma other_slot (hi : i < c.size) (hfresh : ∀ s, .slot s ∈ refs' → .slot s ∈ refs i ∨ s ∉ busy)
    (hj : j < c.size) (hne : j ≠ i) {s : Nat} (hs : .slot s ∈ refs j) : .slot s ∉ refs i ∧ .slot s ∉ refs' := by
  have hi' : .slot s ∉ refs i := fun hm => hne (h.disjoint j i s hj hi hs hm)
  refine ⟨hi', fun hm => ?_⟩
  rcases hfresh s hm with hold | hnew
  · exact hi' hold
  · exact hnew ((h.owner s).2 ⟨j, hj, hs⟩)

lemma other_row (hi : i < c.size) (hbucket : Bucket c t'.rows i refs')
    (hframe : ∀ r, r ≠ .root i → r ∉ refs i → r ∉ refs' → t'.rows r = t.rows r)
    (hfresh : ∀ s, .slot s ∈ refs' → .slot s ∈ refs i ∨ s ∉ busy) (hj : j < c.size) (hne : j ≠ i) :
    t'.rows (.root j) = t.rows (.root j) ∧ ∀ r ∈ refs j, t'.rows r = t.rows r := by
  have hroot : t'.rows (.root j) = t.rows (.root j) :=
    hframe _ (fun he => hne (RowRef.root.inj he)) (fun hm => hne ((h.bucket i hi).eq_of_root_mem hm))
      fun hm => hne (hbucket.eq_of_root_mem hm)
  refine ⟨hroot, fun r hr => ?_⟩
  cases r with
  | slot s =>
    obtain ⟨h1, h2⟩ := h.other_slot hi hfresh hj hne hr
    exact hframe _ nofun h1 h2
  | root k =>
    rw [(h.bucket j hj).eq_of_root_mem hr]
    exact hroot

lemma replace {k : Bytes} {v : Option Bytes} (hk : c.index k = i) (hpool : t'.pool.Rep idle' busy')
    (hperm : (idle' ++ busy').Perm (range c.sliceNum)) (hbucket : Bucket c t'.rows i refs')
    (hframe : ∀ r, r ≠ .root i → r ∉ refs i → r ∉ refs' → t'.rows r = t.rows r)
    (hfresh : ∀ s, .slot s ∈ refs' → .slot s ∈ refs i ∨ s ∉ busy)
    (howner : ∀ s, s ∈ busy' ↔ (s ∈ busy ∧ .slot s ∉ refs i) ∨ .slot s ∈ refs')
    (hdata : ∀ r, (t'.rows r).data.length = c.itemSize)
    (hcontent : ∀ k' d, Content t'.rows refs' k' d ↔ (k' = k ∧ v = some d) ∨
      (k' ≠ k ∧ Content t.rows (refs i) k' d)) :
    t'.Inv c (update refs i refs') idle' busy' (update m k v) := by
  have hi : i < c.size := hk ▸ c.index_lt k
  refine ⟨hpool, hperm, ?_, ?_, ?_, hdata, ?_⟩
  · intro j hj
    by_cases hji : j = i
    · subst hji
      rw [update_self]
      exact hbucket
    rw [update_of_ne hji]
    obtain ⟨hroot, hrows⟩ := h.other_row hi hbucket hframe hfresh hj hji
    exact (h.bucket j hj).congr (SameHead.of_eq hroot) fun r hr => SameHead.of_eq (hrows r hr)
  · intro s
    rw [howner, h.owner]
    constructor
    · rintro (⟨⟨j, hj, hs⟩, hn⟩ | hs)
      · refine ⟨j, hj, ?_⟩
        rw [update_of_ne]
        · exact hs
        · rintro rfl
          exact hn hs
      · exact ⟨i, hi, by rwa [update_self]⟩
    · rintro ⟨j, hj, hs⟩
      by_cases hji : j = i
      · subst hji
        rw [update_self] at hs
        exact .inr hs
      · rw [update_of_ne hji] at hs
        exact .inl ⟨⟨j, hj, hs⟩, (h.other_slot hi hfresh hj hji hs).1⟩
  · intro j j' s hj hj' hsj hsj'
    by_cases hji : j = i <;> by_cases hji' : j' = i
    · rw [hji, hji']
    · subst hji
      rw [update_self] at hsj
      rw [update_of_ne hji'] at hsj'
      exact absurd hsj (h.other_slot hi hfresh hj' hji' hsj').2
    · subst hji'
      rw [update_self] at hsj'
      rw [update_of_ne hji] at hsj
      exact absurd hsj' (h.other_slot hi hfresh hj hji hsj).2
    · rw [update_of_ne hji] at hsj
      rw [update_of_ne hji'] at hsj'
      exact h.disjoint j j' s hj hj' hsj hsj'
  · intro k' d
    by_cases hki : c.index k' = i
    · rw [hki, update_self, hcontent]
      by_cases hkk : k' = k
      · simp [hkk]
      · rw [update_of_ne hkk, h.content, hki]
        simp [hkk]
    · have hkk : k' ≠ k := fun he => hki (he ▸ hk)
      obtain ⟨-, hrows⟩ := h.other_row hi hbucket hframe hfresh (c.index_lt k') hki
      rw [update_of_ne hki, update_of_ne hkk, h.content]
      refine (content_congr fun r hr => ?_).symm
      rw [hrows r hr]
      exact ⟨rfl, rfl⟩

/-! ## looking for a key -/

lemma busy_length : busy.length ≤ c.sliceNum := by
  have := h.perm.length_eq
  rw [length_append, length_range] at this
  omega

lemma refs_length (hi : i < c.size) : (refs i).length ≤ c.sliceNum + 1 := by
  by_cases hnil : refs i = []
  · rw [hnil]
    exact Nat.zero_le _
  obtain ⟨ss, hss⟩ := (h.bucket i hi).root hnil
  have hnodup := (h.bucket i hi).nodup
  rw [hss] at hnodup ⊢
  have hsub : ss ⊆ busy := by
    intro s hs
    refine (h.owner s).2 ⟨i, hi, ?_⟩
    rw [hss]
    exact mem_cons_of_mem _ (mem_map_of_mem hs)
  have hle := (subperm_of_subset (nodup_cons.1 hnodup).2.of_map hsub).length_le
  have := h.busy_length
  rw [length_cons, length_map]
  omega

end

variable {k : Bytes} {a b : List RowRef} {r : RowRef}

section
variable (h : t.Inv c refs idle busy m)
include h

lemma first_refs (hi : i < c.size) (hne : refs i ≠ []) : first (refs i) none = some (.root i) := by
  obtain ⟨ss, hss⟩ := (h.bucket i hi).root hne
  rw [hss]
  rfl

lemma findRow_hit (hk : c.index k = i) (hrefs : refs i = a ++ r :: b) (hr : (t.rows r).keyBytes = k) :
    t.findRow c k = some (.hit a.getLast? r) := by
  have hi : i < c.size := hk ▸ c.index_lt k
  have hb := h.bucket i hi
  have hlen := h.refs_length hi
  have hfirst := h.first_refs hi (by rw [hrefs]; simp)
  have hnodup := hb.nodup
  rw [hrefs] at hlen hfirst hnodup
  have hmem : r ∈ refs i := by rw [hrefs]; simp
  rw [length_append, length_cons] at hlen
  have hmiss : ∀ y ∈ a, (t.rows y).hasKey k = false := by
    intro y hy
    have hy' : y ∈ refs i := by rw [hrefs]; exact mem_append_left _ hy
    apply (hb.live y hy').hasKey_eq_false
    intro hyk
    obtain rfl := hb.eq_of_keyBytes hy' hmem (hyk.trans hr.symm)
    exact (nodup_append.1 hnodup).2.2 y hy y mem_cons_self rfl
  rw [← or_none (o := a.getLast?), Table.findRow, hk]
  exact find_hit (p := fun r => (t.rows r).hasKey k) (hrefs ▸ hb.path) hfirst hmiss
    (((hb.live r hmem).hasKey_iff k).2 hr) (by omega)

lemma findRow_off (hk : c.index k = i) (hrefs : refs i = a ++ [r])
    (hmiss : ∀ r ∈ refs i, (t.rows r).keyBytes ≠ k) : t.findRow c k = some (.off r) := by
  have hi : i < c.size := hk ▸ c.index_lt k
  have hb := h.bucket i hi
  have hlen := h.refs_length hi
  have hfirst := h.first_refs hi (by rw [hrefs]; simp)
  have hmiss : ∀ y ∈ refs i, (t.rows y).hasKey k = false :=
    fun y hy => (hb.live y hy).hasKey_eq_false (hmiss y hy)
  rw [hrefs] at hlen hfirst hmiss
  rw [length_append, length_singleton] at hlen
  rw [Table.findRow, hk]
  exact find_off (p := fun r => (t.rows r).hasKey k) (hrefs ▸ hb.path) hfirst hmiss (by omega)

end

variable {key : TableKey}

lemma get_hit (h : t.Inv c refs idle busy m) (hr : r ∈ refs (c.index key.cut))
    (hk : (t.rows r).keyBytes = key.cut) : t.get c key = some (some r) := by
  obtain ⟨a, b, hrefs⟩ := append_of_mem hr
  have hlive := (h.bucket _ (c.index_lt _)).live r hr
  unfold Table.get
  rw [h.findRow_hit rfl hrefs hk, map_some]
  dsimp only
  rw [if_pos hlive.active]

lemma get_miss (h : t.Inv c refs idle busy m)
    (hk : ∀ r ∈ refs (c.index key.cut), (t.rows r).keyBytes ≠ key.cut) : t.get c key = some none := by
  unfold Table.get
  obtain hnil | ⟨a, r, hrefs⟩ := eq_nil_or_concat' (refs (c.index key.cut))
  · -- the head is not in use and has no successor, whatever its key is
    obtain ⟨hactive, hnext⟩ := (h.bucket _ (c.index_lt _)).empty hnil
    unfold Table.findRow find
    split
    · rw [map_some]
      dsimp only
      rw [hactive]
      rfl
    · rw [hnext]
      rfl
  · rw [h.findRow_off rfl hrefs hk]
    rfl

end Table.Inv

end OSW
