import Mathlib.Order.Interval.Set.Nat
import OpenSwoole.Memory.TableOps

/-!
# The table is a finite map

* `MapStep`, `MapRun`   what calls do to a map from cut keys to data, and what they return;
* `lastSet`   whether the last call that had an effect on a key was a `set`;
* `Table.Abs`   the table is a map, and `row_num` counts its keys modulo 2^32;
* `Abs.step`   every call returns and does to the map what it should.
-/

namespace OSW
open List Option Function

def MapStep (m : Bytes → Option Bytes) : TableOp → TableRes → (Bytes → Option Bytes) → Prop
  | .get key, .get d, m' => d = m key.cut ∧ m' = m
  | .existsKey key, .bool b, m' => b = (m key.cut).isSome ∧ m' = m
  | .del key, .bool b, m' => b = (m key.cut).isSome ∧ m' = update m key.cut none
  | .set key w, .set (some flags), m' =>
    -- the caller finds the data of the key, or whatever a new row holds
    flags.newRow = (m key.cut).isNone ∧ ∃ d, (∀ d', m key.cut = some d' → d = d') ∧
        m' = update m key.cut (some (w.apply flags d))
  | .set key _, .set none, m' => m key.cut = none ∧ m' = m
  | _, _, _ => False

def MapRun (m : Bytes → Option Bytes) : List TableOp → List TableRes → (Bytes → Option Bytes) → Prop
  | [], [], m' => m' = m
  | op :: ops, r :: rs, m' => ∃ m1, MapStep m op r m1 ∧ MapRun m1 ops rs m'
  | _, _, _ => False

/-- A `set` that gives a row and a `del` that finds one have an effect on their key. -/
def effect (k : Bytes) (present : Bool) : TableOp × TableRes → Bool
  | (.set key _, .set (some _)) => if key.cut = k then true else present
  | (.del key, .bool true) => if key.cut = k then false else present
  | _ => present

def lastSet (k : Bytes) (calls : List (TableOp × TableRes)) : Bool := calls.foldl (effect k) false

section
variable {m m' : Bytes → Option Bytes} {op : TableOp} {r : TableRes}

lemma MapStep.effect (h : MapStep m op r m') (k : Bytes) :
    (m' k).isSome = OSW.effect k (m k).isSome (op, r) := by
  cases op with
  | get key =>
    cases r with
    | get d => rw [h.2]; rfl
    | _ => exact h.elim
  | existsKey key =>
    cases r with
    | bool b => rw [h.2]; rfl
    | _ => exact h.elim
  | del key =>
    cases r with
    | bool b =>
      obtain ⟨hb, rfl⟩ := h
      by_cases hk : key.cut = k
      · subst hk
        cases b with
        | true => simp [OSW.effect]
        | false => simp [OSW.effect, ← hb]
      · cases b <;> simp [OSW.effect, hk, update_of_ne (Ne.symm hk)]
    | _ => exact h.elim
  | set key w =>
    cases r with
    | set flags =>
      cases flags with
      | none => rw [h.2]; rfl
      | some flags =>
        obtain ⟨-, d, -, rfl⟩ := h
        by_cases hk : key.cut = k
        · subst hk
          simp [OSW.effect]
        · simp [OSW.effect, hk, update_of_ne (Ne.symm hk)]
    | _ => exact h.elim

lemma MapRun.foldl_effect {ops : List TableOp} {rs : List TableRes} (h : MapRun m ops rs m')
    (k : Bytes) : (m' k).isSome = (ops.zip rs).foldl (OSW.effect k) (m k).isSome := by
  induction ops generalizing m rs with
  | nil =>
    cases rs with
    | nil => rw [show m' = m from h]; rfl
    | cons r rs => exact h.elim
  | cons op ops ih =>
    cases rs with
    | nil => exact h.elim
    | cons r rs =>
      obtain ⟨m1, hstep, hrun⟩ := h
      rw [ih hrun, hstep.effect k]
      rfl

end

/-! ## the number of rows -/

def keySet (m : Bytes → Option Bytes) : Set Bytes := {k | (m k).isSome}

section
variable {m : Bytes → Option Bytes} {k d : Bytes}

lemma keySet_none : keySet (fun _ => none) = ∅ := Set.eq_empty_of_forall_notMem nofun

lemma keySet_insert (k d : Bytes) (m : Bytes → Option Bytes) :
    keySet (update m k (some d)) = insert k (keySet m) := by
  ext k'
  by_cases hk : k' = k
  · simp [keySet, hk]
  · simp [keySet, hk]

lemma keySet_erase (k : Bytes) (m : Bytes → Option Bytes) :
    keySet (update m k none) = keySet m \ {k} := by
  ext k'
  by_cases hk : k' = k
  · simp [keySet, hk]
  · simp [keySet, hk]

end

/-- `row_num` is the number of keys, in 32 bits -/
structure Table.Counted (t : Table) (m : Bytes → Option Bytes) : Prop where
  finite : (keySet m).Finite
  rowNum : t.rowNum = (keySet m).ncard % 2^32

namespace Table.Counted
variable {t t' : Table} {m : Bytes → Option Bytes} {k d : Bytes}

lemma insert (h : t.Counted m) (hk : m k = none) (ht : t'.rowNum = (t.rowNum + 1) % 2^32) :
    t'.Counted (update m k (some d)) := by
  have hnot : k ∉ keySet m := by simp [keySet, hk]
  refine ⟨?_, ?_⟩
  · rw [keySet_insert]
    exact h.finite.insert k
  · rw [keySet_insert, Set.ncard_insert_of_notMem hnot h.finite, ht, h.rowNum]
    omega

variable (h : t.Counted m) (hk : k ∈ keySet m) (ht : t'.rowNum = t.rowNum)
include h hk ht

lemma overwrite : t'.Counted (update m k (some d)) := by
  have hset : keySet (update m k (some d)) = keySet m := by rw [keySet_insert, Set.insert_eq_of_mem hk]
  exact ⟨hset ▸ h.finite, by rw [hset, ht, h.rowNum]⟩

lemma erase : t'.countDown.Counted (update m k none) := by
  refine ⟨?_, ?_⟩
  · rw [keySet_erase]
    exact h.finite.sdiff
  · have hpos : 0 < (keySet m).ncard := (Set.ncard_pos h.finite).2 ⟨k, hk⟩
    show (t'.rowNum + 2^32 - 1) % 2^32 = _
    rw [keySet_erase, Set.ncard_sdiff_singleton_of_mem hk, ht, h.rowNum]
    omega

end Table.Counted

/-! ## calls -/

namespace Table.Inv
variable {c : TableConfig} {t : Table} {refs : Nat → List RowRef} {idle busy : List Nat}
  {m : Bytes → Option Bytes} {key : TableKey} {k : Bytes}

variable (h : t.Inv c refs idle busy m)
include h

lemma miss (hk : m k = none) : ∀ r ∈ refs (c.index k), (t.rows r).keyBytes ≠ k := by
  intro r hr hrk
  have := (h.content k (t.rows r).data).2 ⟨r, hr, hrk, rfl⟩
  rw [hk] at this
  cases this

lemma get_eq (key : TableKey) : ∃ r, t.get c key = some r ∧ (r.map fun r => (t.rows r).data) = m key.cut := by
  cases hk : m key.cut with
  | none => exact ⟨none, h.get_miss (h.miss hk), rfl⟩
  | some d =>
    obtain ⟨r, hr, hrk, hrd⟩ := (h.content _ d).1 hk
    exact ⟨some r, h.get_hit hr hrk, congrArg some hrd⟩

lemma existsKey_eq (key : TableKey) : t.existsKey c key = some (m key.cut).isSome := by
  obtain ⟨r, hget, hr⟩ := h.get_eq key
  unfold Table.existsKey
  rw [hget, ← hr, isSome_map, map_some]

lemma set_new (hk : m key.cut = none) (hroom : refs (c.index key.cut) = [] ∨ idle ≠ []) :
    ∃ r flags t', t.set c key = some (some (r, flags), t') ∧ flags.newRow = true ∧
      t'.rowNum = (t.rowNum + 1) % 2^32 ∧ (t'.rows r).keyBytes = key.cut ∧
      ∃ refs' idle' busy', r ∈ refs' (c.index key.cut) ∧
        busy'.length = busy.length + (if refs (c.index key.cut) = [] then 0 else 1) ∧
        t'.Inv c refs' idle' busy' (update m key.cut (some (t'.rows r).data)) := by
  by_cases hnil : refs (c.index key.cut) = []
  · obtain ⟨hset, hinv⟩ := h.set_root rfl hnil
    have hrow : (t.initRow (.root (c.index key.cut)) key.cut).rows (.root (c.index key.cut)) =
        (t.rows (.root (c.index key.cut))).init key.cut := update_self _ _ _
    refine ⟨_, _, _, hset, rfl, rfl, by rw [hrow, TableRow.init_keyBytes],
      update refs (c.index key.cut) [.root (c.index key.cut)], idle, busy, ?_, ?_, ?_⟩
    · rw [update_self]
      exact mem_singleton_self _
    · rw [if_pos hnil, add_zero]
    · rw [hrow]
      exact hinv
  · obtain ⟨s, idle, rfl⟩ := exists_cons_of_ne_nil (hroom.resolve_left hnil)
    obtain ⟨flags, t', hset, hnew, hnum, hkey, hinv⟩ := h.set_slot rfl hnil (h.miss hk)
    refine ⟨_, flags, t', hset, hnew, hnum, hkey, _, idle, _, ?_, ?_, hinv⟩
    · rw [update_self]
      exact mem_concat_self
    · rw [if_neg hnil, length_append, length_singleton]

lemma step_new (hcount : t.Counted m) (hk : m key.cut = none)
    (hroom : refs (c.index key.cut) = [] ∨ idle ≠ []) (w : RowWriter) :
    ∃ flags t' d, c.step t (.set key w) = some (.set (some flags), t') ∧
      MapStep m (.set key w) (.set (some flags)) (update m key.cut (some d)) ∧
      t'.Counted (update m key.cut (some d)) ∧
      ∃ refs' idle' busy', busy'.length = busy.length + (if refs (c.index key.cut) = [] then 0 else 1) ∧
        t'.Inv c refs' idle' busy' (update m key.cut (some d)) := by
  obtain ⟨r, flags, t', hset, hnew, hnum, hrk, refs', idle', busy', hr, hbusy, hinv⟩ := h.set_new hk hroom
  have hw := hinv.write hr hrk (w.length flags)
  rw [update_idem] at hw
  refine ⟨flags, t'.write r (w.apply flags), _, ?_,
    ⟨by rw [hk, hnew]; rfl, (t'.rows r).data, ?_, rfl⟩, hcount.insert hk hnum,
    refs', idle', busy', hbusy, hw⟩
  · show (t.set c key).map _ = _
    rw [hset]
    rfl
  · intro d' hd'
    rw [hk] at hd'
    cases hd'

lemma refs_ne_nil_iff {i : Nat} (hi : i < c.size) : refs i ≠ [] ↔ ∃ k ∈ keySet m, c.index k = i := by
  constructor
  · intro hne
    obtain ⟨r, rs, hrefs⟩ := exists_cons_of_ne_nil hne
    have hr : r ∈ refs i := by rw [hrefs]; exact mem_cons_self
    have hidx := (h.bucket i hi).index r hr
    refine ⟨(t.rows r).keyBytes, ?_, hidx⟩
    have := (h.content (t.rows r).keyBytes (t.rows r).data).2 ⟨r, by rwa [hidx], rfl, rfl⟩
    exact isSome_iff_exists.2 ⟨_, this⟩
  · rintro ⟨k, hk, rfl⟩
    obtain ⟨d, hd⟩ := isSome_iff_exists.1 hk
    obtain ⟨r, hr, -⟩ := (h.content k d).1 hd
    exact ne_nil_of_mem hr

lemma ncard_le : (keySet m).ncard ≤ c.size + c.sliceNum := by
  let rows := RowRef.root '' Set.Iio c.size ∪ RowRef.slot '' Set.Iio c.sliceNum
  have hroots := (Set.finite_Iio c.size).image RowRef.root
  have hslots := (Set.finite_Iio c.sliceNum).image RowRef.slot
  have hfin : rows.Finite := hroots.union hslots
  have hsub : keySet m ⊆ (fun r => (t.rows r).keyBytes) '' rows := by
    intro k hk
    obtain ⟨d, hd⟩ := isSome_iff_exists.1 hk
    obtain ⟨r, hr, hrk, -⟩ := (h.content k d).1 hd
    have hi := c.index_lt k
    refine ⟨r, ?_, hrk⟩
    cases r with
    | root i =>
      obtain rfl := (h.bucket _ hi).eq_of_root_mem hr
      exact .inl ⟨_, hi, rfl⟩
    | slot s =>
      have hs : s ∈ idle ++ busy := mem_append_right _ ((h.owner s).2 ⟨_, hi, hr⟩)
      exact .inr ⟨s, mem_range.1 (h.perm.mem_iff.1 hs), rfl⟩
  calc (keySet m).ncard
      ≤ ((fun r => (t.rows r).keyBytes) '' rows).ncard := Set.ncard_le_ncard hsub (hfin.image _)
    _ ≤ rows.ncard := Set.ncard_image_le hfin
    _ ≤ (RowRef.root '' Set.Iio c.size).ncard + (RowRef.slot '' Set.Iio c.sliceNum).ncard :=
        Set.ncard_union_le _ _
    _ ≤ (Set.Iio c.size).ncard + (Set.Iio c.sliceNum).ncard :=
        add_le_add (Set.ncard_image_le (Set.finite_Iio _)) (Set.ncard_image_le (Set.finite_Iio _))
    _ = c.size + c.sliceNum := by rw [Set.ncard_Iio_nat, Set.ncard_Iio_nat]

lemma del_hit (hk : key.cut ∈ keySet m) :
    ∃ t' : Table, t.del c key = some (true, t'.countDown) ∧ t'.rowNum = t.rowNum ∧
      ∃ refs' idle' busy', t'.Inv c refs' idle' busy' (update m key.cut none) := by
  obtain ⟨d, hd⟩ := isSome_iff_exists.1 hk
  obtain ⟨r, hr, hrk, -⟩ := (h.content _ d).1 hd
  have hb := h.bucket _ (c.index_lt key.cut)
  obtain ⟨a, b, hrefs⟩ := append_of_mem hr
  obtain ⟨ss, hss⟩ := hb.root (ne_nil_of_mem hr)
  obtain rfl | ⟨a, u, rfl⟩ := eq_nil_or_concat' a
  · -- the row is the head of the bucket
    obtain ⟨rfl, rfl⟩ := cons.inj (hrefs.symm.trans hss)
    cases ss with
    | nil =>
      obtain ⟨t', hdel, hnum, hinv⟩ := h.del_single rfl hss hrk
      exact ⟨t', hdel, hnum, _, _, _, hinv⟩
    | cons s ss =>
      obtain ⟨t', hdel, hnum, hinv⟩ := h.del_root rfl hss hrk
      exact ⟨t', hdel, hnum, _, _, _, hinv⟩
  · rw [append_assoc] at hrefs
    obtain ⟨s, rfl⟩ : ∃ s, r = .slot s := by
      cases a with
      | nil => exact (hb.shape u (r :: b) hrefs).2 r mem_cons_self
      | cons x a => exact (hb.shape x _ hrefs).2 r (by simp)
    obtain ⟨t', hdel, hnum, hinv⟩ := h.del_slot rfl hrefs hrk
    exact ⟨t', hdel, hnum, _, _, _, hinv⟩

end Table.Inv

structure Table.Abs (c : TableConfig) (t : Table) (m : Bytes → Option Bytes) : Prop where
  inv : ∃ refs idle busy, t.Inv c refs idle busy m
  counted : t.Counted m

def Table.Exhausted (c : TableConfig) (t : Table) : Prop := ∀ s < c.sliceNum, t.pool.lock s = true

namespace Table
variable {c : TableConfig} {t : Table} {m : Bytes → Option Bytes}

lemma create_inv (c : TableConfig) :
    (create c).Inv c (fun _ => []) (range c.sliceNum).reverse [] fun _ => none := by
  refine ⟨FixedPool.init_rep, ?_, ?_, ?_, ?_, ?_, ?_⟩
  · rw [append_nil]
    exact reverse_perm _
  · exact fun i _ => .nil ⟨rfl, rfl⟩
  · intro s
    simp
  · exact nofun
  · exact fun r => length_replicate
  · intro k d
    simp [Content]

lemma create_counted (c : TableConfig) : (create c).Counted fun _ => none := by
  refine ⟨?_, ?_⟩
  · rw [keySet_none]
    exact Set.finite_empty
  · rw [keySet_none, Set.ncard_empty]
    rfl

lemma create_abs (c : TableConfig) : (create c).Abs c fun _ => none :=
  ⟨⟨_, _, _, create_inv c⟩, create_counted c⟩

variable (h : t.Abs c m)
include h

/-- **A `set` that gives no row**: the pool is exhausted, and nothing has changed. -/
theorem Abs.set_none {key : TableKey} {t' : Table} (hset : t.set c key = some (none, t')) :
    t' = t ∧ t.Exhausted c ∧ m key.cut = none := by
  obtain ⟨refs, idle, busy, hinv⟩ := h.inv
  cases hk : m key.cut with
  | some d =>
    obtain ⟨r, hr, hrk, -⟩ := (hinv.content _ d).1 hk
    rw [hinv.set_hit hr hrk] at hset
    cases hset
  | none =>
    by_cases hroom : refs (c.index key.cut) = [] ∨ idle ≠ []
    · obtain ⟨r, flags, t1, hset', -⟩ := hinv.set_new hk hroom
      rw [hset'] at hset
      cases hset
    · rw [not_or, not_not] at hroom
      obtain ⟨hne, rfl⟩ := hroom
      rw [hinv.set_full rfl hne (hinv.miss hk)] at hset
      cases hset
      refine ⟨rfl, fun s hs => ?_, rfl⟩
      exact hinv.pool.busy_lock s (hinv.perm.mem_iff.2 (mem_range.2 hs))

def Abs.Steps (c : TableConfig) (t : Table) (m : Bytes → Option Bytes) (op : TableOp) : Prop :=
  ∃ r t' m', c.step t op = some (r, t') ∧ MapStep m op r m' ∧ t'.Abs c m'

lemma Abs.step_del (key : TableKey) : Abs.Steps c t m (.del key) := by
  obtain ⟨refs, idle, busy, hinv⟩ := h.inv
  cases hk : m key.cut with
  | none =>
    refine ⟨.bool false, t, m, ?_, ⟨by rw [hk]; rfl, ?_⟩, h⟩
    · show (t.del c key).map _ = _
      rw [hinv.del_miss rfl (hinv.miss hk)]
      rfl
    · rw [← hk, update_eq_self]
  | some d =>
    have hmem : key.cut ∈ keySet m := isSome_iff_exists.2 ⟨d, hk⟩
    obtain ⟨t', hdel, hnum, refs', idle', busy', hinv'⟩ := hinv.del_hit hmem
    have hrows : t'.countDown.rows = t'.rows := by unfold countDown; rfl
    have hpool : t'.countDown.pool = t'.pool := by unfold countDown; rfl
    refine ⟨.bool true, t'.countDown, update m key.cut none, ?_, ⟨by rw [hk]; rfl, rfl⟩,
      ⟨refs', idle', busy', hinv'.of_rows hrows hpool⟩, h.counted.erase hmem hnum⟩
    show (t.del c key).map _ = _
    rw [hdel]
    rfl

lemma Abs.step_overwrite {key : TableKey} {d : Bytes} (hk : m key.cut = some d) (w : RowWriter) :
    Abs.Steps c t m (.set key w) := by
  obtain ⟨refs, idle, busy, hinv⟩ := h.inv
  obtain ⟨r, hr, hrk, hrd⟩ := (hinv.content _ d).1 hk
  have hmem : key.cut ∈ keySet m := isSome_iff_exists.2 ⟨d, hk⟩
  let flags : SetFlags := ⟨false, decide (r ≠ .root (c.index key.cut))⟩
  have hinv' := hinv.write hr hrk (w.length flags)
  refine ⟨.set (some flags), t.write r (w.apply flags), _, ?_, ⟨by rw [hk]; rfl, d, ?_, ?_⟩,
    ⟨refs, idle, busy, hinv'⟩, h.counted.overwrite hmem rfl⟩
  · show (t.set c key).map _ = _
    rw [hinv.set_hit hr hrk]
    rfl
  · intro d' hd'
    exact some.inj (hk.symm.trans hd')
  · rw [hrd]

lemma Abs.step_set (key : TableKey) (w : RowWriter) : Abs.Steps c t m (.set key w) := by
  obtain ⟨refs, idle, busy, hinv⟩ := h.inv
  cases hk : m key.cut with
  | some d => exact h.step_overwrite hk w
  | none =>
    by_cases hroom : refs (c.index key.cut) = [] ∨ idle ≠ []
    · obtain ⟨flags, t', d, hstep, hm, hcount, refs', idle', busy', -, hinv'⟩ :=
        hinv.step_new h.counted hk hroom w
      exact ⟨_, t', _, hstep, hm, ⟨refs', idle', busy', hinv'⟩, hcount⟩
    · rw [not_or, not_not] at hroom
      obtain ⟨hne, rfl⟩ := hroom
      refine ⟨.set none, t, m, ?_, ⟨hk, rfl⟩, h⟩
      show (t.set c key).map _ = _
      rw [hinv.set_full rfl hne (hinv.miss hk)]
      rfl

lemma Abs.step (op : TableOp) : Abs.Steps c t m op := by
  obtain ⟨refs, idle, busy, hinv⟩ := h.inv
  cases op with
  | get key =>
    obtain ⟨r, hget, hr⟩ := hinv.get_eq key
    refine ⟨.get (m key.cut), t, m, ?_, ⟨rfl, rfl⟩, h⟩
    show (t.get c key).map _ = _
    rw [hget, ← hr]
    rfl
  | existsKey key =>
    refine ⟨.bool (m key.cut).isSome, t, m, ?_, ⟨rfl, rfl⟩, h⟩
    show (t.existsKey c key).map _ = _
    rw [hinv.existsKey_eq key]
    rfl
  | del key => exact h.step_del key
  | set key w => exact h.step_set key w

lemma Abs.run (ops : List TableOp) :
    ∃ rs t' m', c.run ops t = some (rs, t') ∧ MapRun m ops rs m' ∧ t'.Abs c m' := by
  induction ops generalizing t m with
  | nil => exact ⟨[], t, m, rfl, rfl, h⟩
  | cons op ops ih =>
    obtain ⟨r, t1, m1, hstep, hm1, h1⟩ := h.step op
    obtain ⟨rs, t', m', hrun, hm', h'⟩ := ih h1
    refine ⟨r :: rs, t', m', ?_, ⟨m1, hm1, hm'⟩, h'⟩
    show (c.step t op).bind _ = _
    rw [hstep]
    show (c.run ops t1).map _ = _
    rw [hrun]
    rfl

lemma Abs.count_eq_iff : t.count = (keySet m).ncard ↔ (keySet m).ncard < 2^32 := by
  show t.rowNum = _ ↔ _
  rw [h.counted.rowNum]
  exact ⟨fun he => by omega, Nat.mod_eq_of_lt⟩

end Table

/-! ## the largest table, filled -/

/-- four bytes with the number in them, the lowest first -/
def numberKey (n : Nat) : TableKey where
  bytes := [UInt8.ofNat n, UInt8.ofNat (n / 256), UInt8.ofNat (n / 65536), UInt8.ofNat (n / 16777216)]
  short := show 4 < 2^16 by decide

def keyNumber (key : Bytes) : UInt64 := UInt64.ofNat (key.foldr (fun b v => b.toNat + 256 * v) 0)

/-- the largest table that `make` makes, with one column of 8 bytes -/
def largest : TableConfig := .make 0x80000000 8 (by decide) keyNumber

/-- `set` of the keys from `n` on, their rows left as they are -/
def setNumbers (n len : Nat) : List TableOp :=
  (range' n len).map fun j => .set (numberKey j) ⟨fun _ d => d, fun _ _ => rfl⟩

lemma keyNumber_numberKey {n : Nat} (hn : n < 2^32) : (keyNumber (numberKey n).cut).toNat = n := by
  have hcut : (numberKey n).cut = (numberKey n).bytes := rfl
  rw [hcut]
  simp only [keyNumber, numberKey, foldr, UInt64.toNat_ofNat', UInt8.toNat_ofNat']
  omega

lemma largest_size : largest.size = 2^31 := by
  show 2^sizeBits 0x80000000 = 2^31
  rw [show sizeBits 0x80000000 = 31 from rfl]

lemma largest_index {n : Nat} (hn : n < 2^32) : largest.index (numberKey n).cut = n % 2^31 := by
  show (keyNumber (numberKey n).cut).toNat &&& (largest.size - 1) = _
  rw [keyNumber_numberKey hn, largest_size, Nat.and_two_pow_sub_one_eq_mod]

/-- The keys below `n` are in the table.  The first 2^31 of them are in the heads of the buckets, the
others in slices. -/
structure Filled (n : Nat) (t : Table) (m : Bytes → Option Bytes) : Prop where
  inv : ∃ refs idle busy, t.Inv largest refs idle busy m ∧ busy.length = n - 2^31
  keys : ∀ k, k ∈ keySet m ↔ ∃ j < n, k = (numberKey j).cut
  card : (keySet m).ncard = n
  counted : t.Counted m

namespace Filled
variable {n : Nat} {t : Table} {m : Bytes → Option Bytes}

section
variable (h : Filled n t m) (hn : n < 2^32)
include h hn

lemma fresh : m (numberKey n).cut = none := by
  by_contra hsome
  obtain ⟨j, hj, he⟩ := (h.keys _).1 (isSome_iff_ne_none.2 hsome)
  have hn' := keyNumber_numberKey hn
  rw [he, keyNumber_numberKey (lt_trans hj hn)] at hn'
  omega

lemma bucket_nil_iff {refs : Nat → List RowRef} {idle busy : List Nat} (hinv : t.Inv largest refs idle busy m) :
    refs (largest.index (numberKey n).cut) = [] ↔ n < 2^31 := by
  rw [← not_iff_not, ← ne_eq, hinv.refs_ne_nil_iff (largest.index_lt _), largest_index hn]
  constructor
  · rintro ⟨k, hk, hidx⟩
    obtain ⟨j, hj, rfl⟩ := (h.keys k).1 hk
    rw [largest_index (lt_trans hj hn)] at hidx
    omega
  · intro hge
    have hj : n - 2^31 < n := by omega
    refine ⟨_, (h.keys _).2 ⟨n - 2^31, hj, rfl⟩, ?_⟩
    rw [largest_index (lt_trans hj hn)]
    omega

lemma step (w : RowWriter) :
    ∃ flags t' m', largest.step t (.set (numberKey n) w) = some (.set (some flags), t') ∧
      MapStep m (.set (numberKey n) w) (.set (some flags)) m' ∧ Filled (n + 1) t' m' := by
  obtain ⟨refs, idle, busy, hinv, hbusy⟩ := h.inv
  have hk := h.fresh hn
  have hnil := h.bucket_nil_iff hn hinv
  have hroom : refs (largest.index (numberKey n).cut) = [] ∨ idle ≠ [] := by
    by_contra hfull
    rw [not_or, not_not] at hfull
    have hlen := hinv.perm.length_eq
    rw [hfull.2, nil_append, length_range] at hlen
    have : largest.sliceNum = 2^31 := largest_size
    omega
  obtain ⟨flags, t', d, hstep, hm, hcount, refs', idle', busy', hbusy', hinv'⟩ :=
    hinv.step_new h.counted hk hroom w
  have hnot : (numberKey n).cut ∉ keySet m := by simp [keySet, hk]
  refine ⟨flags, t', _, hstep, hm, ⟨refs', idle', busy', hinv', ?_⟩, ?_, ?_, hcount⟩
  · rw [hbusy', hbusy]
    split
    · have := hnil.1 (by assumption)
      omega
    · have := mt hnil.2 (by assumption)
      omega
  · intro k
    rw [keySet_insert, Set.mem_insert_iff, h.keys k]
    constructor
    · rintro (rfl | ⟨j, hj, rfl⟩)
      · exact ⟨n, lt_add_one n, rfl⟩
      · exact ⟨j, Nat.lt_succ_of_lt hj, rfl⟩
    · rintro ⟨j, hj, rfl⟩
      obtain hj | rfl := Nat.lt_succ_iff_lt_or_eq.1 hj
      · exact .inr ⟨j, hj, rfl⟩
      · exact .inl rfl
  · rw [keySet_insert, Set.ncard_insert_of_notMem hnot h.counted.finite, h.card]

end

lemma run (h : Filled n t m) {len : Nat} (hlen : n + len ≤ 2^32) :
    ∃ rs t' m', largest.run (setNumbers n len) t = some (rs, t') ∧
      MapRun m (setNumbers n len) rs m' ∧ Filled (n + len) t' m' := by
  induction len generalizing n t m with
  | zero => exact ⟨[], t, m, rfl, rfl, h⟩
  | succ len ih =>
    obtain ⟨flags, t1, m1, hstep, hm1, h1⟩ := h.step (by omega) ⟨fun _ d => d, fun _ _ => rfl⟩
    obtain ⟨rs, t', m', hrun, hm', h'⟩ := ih h1 (by omega)
    refine ⟨_ :: rs, t', m', ?_, ⟨m1, hm1, hm'⟩, by rwa [add_comm len, ← add_assoc]⟩
    show (largest.step t _).bind _ = _
    rw [hstep]
    show (largest.run (setNumbers (n + 1) len) t1).map _ = _
    rw [hrun]
    rfl

end Filled

lemma create_filled : Filled 0 (Table.create largest) fun _ => none := by
  refine ⟨⟨_, _, _, Table.create_inv largest, rfl⟩, ?_, ?_, Table.create_counted largest⟩
  · simp [keySet_none]
  · rw [keySet_none, Set.ncard_empty]

/-! ## every sequence of calls -/

/-- **The table is a map**, and `count` the number of its keys while there are fewer than `2^32`. -/
theorem table_is_map (c : TableConfig) (ops : List TableOp) :
    ∃ rs t m, c.run ops (Table.create c) = some (rs, t) ∧ MapRun (fun _ => none) ops rs m ∧
      (∀ key, ∃ r, t.get c key = some r ∧ (r.map fun r => (t.rows r).data) = m key.cut ∧
        t.existsKey c key = some r.isSome ∧ r.isSome = lastSet key.cut (ops.zip rs)) ∧
      (∀ key t', t.set c key = some (none, t') → t' = t ∧ t.Exhausted c) ∧
      (keySet m).ncard ≤ c.size + c.sliceNum ∧
      (t.count = (keySet m).ncard ↔ (keySet m).ncard < 2^32) := by
  obtain ⟨rs, t, m, hrun, hm, h⟩ := (Table.create_abs c).run ops
  obtain ⟨refs, idle, busy, hinv⟩ := h.inv
  refine ⟨rs, t, m, hrun, hm, ?_, ?_, hinv.ncard_le, h.count_eq_iff⟩
  · intro key
    obtain ⟨r, hget, hr⟩ := hinv.get_eq key
    have hsome : (m key.cut).isSome = r.isSome := by rw [← hr, isSome_map]
    refine ⟨r, hget, hr, ?_, ?_⟩
    · rw [hinv.existsKey_eq key, hsome]
    · rw [← hsome, hm.foldl_effect key.cut]
      rfl
  · intro key t' hset
    obtain ⟨ht, hfull, -⟩ := h.set_none hset
    exact ⟨ht, hfull⟩

/-- 2^32 keys in a table of the largest size: every one of them is there, and `count` is 0. -/
theorem table_count_wraps :
    ∃ rs t m, largest.run (setNumbers 0 (2^32)) (Table.create largest) = some (rs, t) ∧
      MapRun (fun _ => none) (setNumbers 0 (2^32)) rs m ∧ (keySet m).ncard = 2^32 ∧ t.count = 0 := by
  obtain ⟨rs, t, m, hrun, hm, h⟩ := create_filled.run (le_of_eq (zero_add (2^32)))
  rw [zero_add] at h
  refine ⟨rs, t, m, hrun, hm, h.card, ?_⟩
  show t.rowNum = 0
  rw [h.counted.rowNum, h.card, Nat.mod_self]

end OSW
