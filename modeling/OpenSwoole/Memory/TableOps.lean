import OpenSwoole.Memory.TableRep

/-!
# What `set` and `del` do to a table

* `Inv.set_hit`, `set_root`, `set_slot`, `set_full`   the key is there; its bucket is empty; a slice is
    taken from the pool; the pool has none;
* `Inv.del_miss`, `del_single`, `del_root`, `del_slot`   the key is not there; it is the only one of its
    bucket; it is in the head, and the next row is moved there; it is in a slice.
-/

namespace OSW
open Chain List Option Function

/-! ## a row behind the last one -/

/-- slice `s` is a new row for key `k`, linked behind `last` -/
structure Chained (t t' : Table) (last : RowRef) (s : Nat) (k : Bytes) : Prop where
  slot : t'.rows (.slot s) = (t.rows (.slot s)).init k
  before : t'.rows last = { t.rows last with next := some (.slot s) }
  other : ∀ x, x ≠ last → x ≠ .slot s → t'.rows x = t.rows x

/-- a write to one row -/
lemma Table.setRow_dataLen {t : Table} {r : RowRef} {row : TableRow} {n : Nat}
    (h : ∀ x, (t.rows x).data.length = n) (hrow : row.data.length = n) :
    ∀ x, ((t.setRow r row).rows x).data.length = n :=
  (forall_update_iff t.rows fun _ row => row.data.length = n).2 ⟨hrow, fun x _ => h x⟩

namespace Chained
variable {t t' : Table} {last : RowRef} {s : Nat} {k : Bytes} {refs : List RowRef}

lemma of_set (hlast : last ≠ .slot s) (pool : FixedPool) :
    Chained t (({ t with pool := pool }.initRow (.slot s) k).setNext last (some (.slot s))) last s k := by
  refine ⟨?_, ?_, fun x hxl hxs => ?_⟩
  · show update (update t.rows (.slot s) _) last _ (.slot s) = _
    rw [update_of_ne (Ne.symm hlast), update_self]
  · show update (update t.rows (.slot s) _) last { update t.rows (.slot s) _ last with next := _ } last = _
    rw [update_self, update_of_ne hlast]
  · show update (update t.rows (.slot s) _) last _ x = _
    rw [update_of_ne hxl, update_of_ne hxs]

variable (h : Chained t t' last s k)
include h

lemma keyBytes : (t'.rows (.slot s)).keyBytes = k := by rw [h.slot, TableRow.init_keyBytes]

lemma same {x : RowRef} (hx : x ≠ .slot s) :
    (t'.rows x).keyBytes = (t.rows x).keyBytes ∧ (t'.rows x).data = (t.rows x).data := by
  by_cases hxl : x = last
  · rw [hxl, h.before]
    exact ⟨rfl, rfl⟩
  · rw [h.other x hxl hx]
    exact ⟨rfl, rfl⟩

lemma content (hs : .slot s ∉ refs) (hmiss : ∀ x ∈ refs, (t.rows x).keyBytes ≠ k) (k' d : Bytes) :
    Content t'.rows (refs ++ [.slot s]) k' d ↔
      (k' = k ∧ some (t'.rows (.slot s)).data = some d) ∨ (k' ≠ k ∧ Content t.rows refs k' d) := by
  rw [content_append, content_congr fun x hx => h.same fun he => hs (he ▸ hx)]
  constructor
  · rintro (⟨x, hx, rfl, hxd⟩ | ⟨x, hx, hxk, hxd⟩)
    · exact .inr ⟨hmiss x hx, x, hx, rfl, hxd⟩
    · rw [mem_singleton.1 hx] at hxk hxd
      rw [h.keyBytes] at hxk
      exact .inl ⟨hxk.symm, congrArg some hxd⟩
  · rintro (⟨rfl, hv⟩ | ⟨-, hx⟩)
    · exact .inr ⟨.slot s, mem_singleton_self _, h.keyBytes, some.inj hv⟩
    · exact .inl hx

end Chained

namespace Table.Inv
variable {c : TableConfig} {t : Table} {refs : Nat → List RowRef} {idle busy : List Nat}
  {m : Bytes → Option Bytes} {key : TableKey} {r : RowRef} {s : Nat}

lemma busy_nodup (h : t.Inv c refs idle busy m) : busy.Nodup := (nodup_append.1 h.pool.linked.nodup).2.1

variable {i : Nat} {k : Bytes} {refs' a b : List RowRef} {t' : Table}

section
variable (h : t.Inv c refs idle busy m)
include h

lemma root_active (hi : i < c.size) (hne : refs i ≠ []) : (t.rows (.root i)).active = true := by
  obtain ⟨ss, hss⟩ := (h.bucket i hi).root hne
  exact ((h.bucket i hi).live _ (hss ▸ mem_cons_self)).active

/-! ## set -/

lemma set_hit (hr : r ∈ refs (c.index key.cut)) (hk : (t.rows r).keyBytes = key.cut) :
    t.set c key = some (some (r, ⟨false, decide (r ≠ .root (c.index key.cut))⟩), t) := by
  obtain ⟨a, b, hrefs⟩ := append_of_mem hr
  unfold Table.set
  rw [if_pos (h.root_active (c.index_lt _) (ne_nil_of_mem hr)), h.findRow_hit rfl hrefs hk]
  rfl

lemma write (hr : r ∈ refs (c.index k)) (hk : (t.rows r).keyBytes = k) {f : Bytes → Bytes}
    (hf : ∀ d, (f d).length = d.length) :
    (t.write r f).Inv c refs idle busy (update m k (some (f (t.rows r).data))) := by
  have hrows : (t.write r f).rows = update t.rows r { t.rows r with data := f (t.rows r).data } := rfl
  have hsame : ∀ x, SameHead (t.rows x) ((t.write r f).rows x) := by
    intro x
    rw [hrows]
    by_cases hx : x = r
    · subst hx
      rw [update_self]
      exact ⟨rfl, rfl, rfl, rfl⟩
    · rw [update_of_ne hx]
      exact SameHead.of_eq rfl
  have hother : ∀ x, x ≠ r → (t.write r f).rows x = t.rows x := by
    intro x hx
    rw [hrows, update_of_ne hx]
  have hdata : ((t.write r f).rows r).data = f (t.rows r).data := by rw [hrows, update_self]
  have hb := h.bucket _ (c.index_lt k)
  have hinv : (t.write r f).Inv c (update refs (c.index k) (refs (c.index k))) idle busy
      (update m k (some (f (t.rows r).data))) := by
    refine h.replace rfl h.pool h.perm (hb.congr (hsame _) fun x _ => hsame x) ?_
      (fun s hs => .inl hs) ?_ ?_ ?_
    · intro x _ hx _
      exact hother x fun he => hx (he ▸ hr)
    · intro s
      refine ⟨fun hs => (Classical.em _).symm.imp_left fun hn => ⟨hs, hn⟩, ?_⟩
      rintro (hs | hs)
      · exact hs.1
      · exact (h.owner s).2 ⟨_, c.index_lt k, hs⟩
    · exact setRow_dataLen h.dataLen ((hf _).trans (h.dataLen r))
    · intro k' d
      constructor
      · rintro ⟨x, hx, hxk, hxd⟩
        rw [(hsame x).keyBytes] at hxk
        by_cases hxr : x = r
        · subst hxr
          exact .inl ⟨hxk.symm.trans hk, by rw [← hxd, hdata]⟩
        · refine .inr ⟨?_, x, hx, hxk, (hother x hxr) ▸ hxd⟩
          rintro rfl
          exact hxr (hb.eq_of_keyBytes hx hr (hxk.trans hk.symm))
      · rintro (⟨rfl, hv⟩ | ⟨hne, x, hx, hxk, hxd⟩)
        · exact ⟨r, hr, (hsame r).keyBytes.trans hk, hdata.trans (some.inj hv)⟩
        · have hxr : x ≠ r := by
            rintro rfl
            exact hne (hxk.symm.trans hk)
          exact ⟨x, hx, (hsame x).keyBytes.trans hxk, by rw [hother x hxr]; exact hxd⟩
  rwa [update_eq_self] at hinv

end

lemma set_root (h : t.Inv c refs idle busy m) (hi : c.index key.cut = i) (hnil : refs i = []) :
    t.set c key = some (some (.root i, ⟨true, false⟩), t.initRow (.root i) key.cut) ∧
    (t.initRow (.root i) key.cut).Inv c (update refs i [.root i]) idle busy
      (update m key.cut (some (t.rows (.root i)).data)) := by
  have hrow : (t.initRow (.root i) key.cut).rows (.root i) = (t.rows (.root i)).init key.cut := update_self _ _ _
  constructor
  · unfold Table.set
    rw [hi, if_neg (ne_true_of_eq_false (((h.bucket i (hi ▸ c.index_lt _)).empty hnil).1))]
  refine h.replace hi h.pool h.perm ⟨?_, ?_, ?_, ?_, ?_, ?_⟩ ?_ ?_ ?_ (setRow_dataLen h.dataLen (h.dataLen _)) ?_
  · intro r hr
    rw [mem_singleton.1 hr, hrow]
    exact TableRow.init_live key.cut_lt
  · intro r hr
    rw [mem_singleton.1 hr, hrow, TableRow.init_keyBytes, hi]
  · exact nodup_singleton _
  · refine path_singleton.2 ?_
    rw [hrow]
    rfl
  · exact nofun
  · intro r l he
    cases he
    exact ⟨rfl, nofun⟩
  · intro r hr _ _
    exact update_of_ne hr _ _
  · intro s hs
    cases mem_singleton.1 hs
  · intro s
    rw [hnil]
    simp
  · intro k' d
    rw [hnil]
    simp only [Content, mem_singleton, exists_eq_left, hrow, TableRow.init_keyBytes]
    constructor
    · rintro ⟨rfl, rfl⟩
      exact .inl ⟨rfl, rfl⟩
    · rintro (⟨rfl, hv⟩ | ⟨-, x, hx, -⟩)
      · exact ⟨rfl, some.inj hv⟩
      · cases hx

lemma idle_notMem (h : t.Inv c refs idle busy m) (hs : s ∈ idle) : s ∉ busy := fun hb =>
  (nodup_append.1 h.pool.linked.nodup).2.2 s hs s hb rfl

lemma pool_ne_nil (h : t.Inv c refs (s :: idle) busy m) : idle ++ busy ≠ [] := by
  intro he
  have hlen := h.perm.length_eq
  rw [cons_append, he, length_range] at hlen
  have := c.size_ge
  unfold TableConfig.sliceNum at hlen
  simp only [length_singleton] at hlen
  omega

lemma append_owner (h : t.Inv c refs idle busy m) (hi : i < c.size) (x : Nat) :
    x ∈ busy ++ [s] ↔ x ∈ busy ∧ .slot x ∉ refs i ∨ .slot x ∈ refs i ++ [.slot s] := by
  rw [mem_append, mem_append, mem_singleton, mem_singleton, RowRef.slot.injEq]
  constructor
  · rintro (hx | rfl)
    · exact (Classical.em _).symm.imp (fun hn => ⟨hx, hn⟩) .inl
    · exact .inr (.inr rfl)
  · rintro (hx | hx | rfl)
    · exact .inl hx.1
    · exact .inl ((h.owner x).2 ⟨_, hi, hx⟩)
    · exact .inr rfl

lemma set_slot (h : t.Inv c refs (s :: idle) busy m) (hi : c.index key.cut = i) (hne : refs i ≠ [])
    (hmiss : ∀ r ∈ refs i, (t.rows r).keyBytes ≠ key.cut) :
    ∃ flags t', t.set c key = some (some (.slot s, flags), t') ∧ flags.newRow = true ∧
      t'.rowNum = (t.rowNum + 1) % 2^32 ∧ (t'.rows (.slot s)).keyBytes = key.cut ∧
      t'.Inv c (update refs i (refs i ++ [.slot s])) idle (busy ++ [s])
        (update m key.cut (some (t'.rows (.slot s)).data)) := by
  have hlt : i < c.size := hi ▸ c.index_lt _
  have hb := h.bucket i hlt
  obtain ⟨pool, halloc, hpool⟩ := h.pool.alloc_idle h.pool_ne_nil
  obtain ⟨a, last, hrefs⟩ := (eq_nil_or_concat' (refs i)).resolve_left hne
  have hmem : last ∈ refs i := by rw [hrefs]; simp
  have hbusy := h.idle_notMem mem_cons_self
  have hs : .slot s ∉ refs i := fun hm => hbusy ((h.owner s).2 ⟨i, hlt, hm⟩)
  have hlast : last ≠ .slot s := fun he => hs (he ▸ hmem)
  refine ⟨⟨true, decide (last ≠ .root i)⟩,
    ({ t with pool := pool }.initRow (.slot s) key.cut).setNext last (some (.slot s)), ?_, rfl, rfl, ?_⟩
  · unfold Table.set
    rw [h.findRow_off hi hrefs hmiss, hi, if_pos (h.root_active hlt hne), bind_some]
    rw [halloc]
    rfl
  have hch := Chained.of_set (t := t) (k := key.cut) hlast pool
  have hdata : ∀ x, ((t.initRow (.slot s) key.cut).rows x).data.length = c.itemSize :=
    setRow_dataLen h.dataLen (h.dataLen (.slot s))
  refine ⟨hch.keyBytes, h.replace hi hpool ?_ ?_ ?_ ?_ (h.append_owner hlt)
    (setRow_dataLen hdata (hdata last)) (hch.content hs hmiss)⟩
  · refine Perm.trans ?_ h.perm
    rw [← append_assoc]
    exact perm_append_singleton s (idle ++ busy)
  · rw [hrefs] at hb hmiss hs ⊢
    refine hb.append hi hmiss hs ?_ hch.before hch.other
    rw [hch.slot]
    exact ⟨TableRow.init_live key.cut_lt, TableRow.init_keyBytes _ _, rfl⟩
  · intro x _ hx hx'
    apply hch.other
    · exact fun he => hx (he ▸ hmem)
    · rintro rfl
      exact hx' (by simp)
  · intro x hx
    rcases mem_append.1 hx with hx | hx
    · exact .inl hx
    · cases mem_singleton.1 hx
      exact .inr hbusy

lemma set_full (h : t.Inv c refs [] busy m) (hi : c.index key.cut = i) (hne : refs i ≠ [])
    (hmiss : ∀ r ∈ refs i, (t.rows r).keyBytes ≠ key.cut) : t.set c key = some (none, t) := by
  obtain ⟨a, last, hrefs⟩ := (eq_nil_or_concat' (refs i)).resolve_left hne
  have hbusy : busy ≠ [] := by
    rintro rfl
    have hlen := h.perm.length_eq
    rw [length_range] at hlen
    have := c.size_ge
    unfold TableConfig.sliceNum at hlen
    simp only [append_nil, length_nil] at hlen
    omega
  unfold Table.set
  rw [h.findRow_off hi hrefs hmiss, hi, if_pos (h.root_active (hi ▸ c.index_lt _) hne), bind_some]
  rw [h.pool.alloc_full hbusy]
  rfl

/-! ## del -/

section
variable (h : t.Inv c refs idle busy m)
include h

lemma del_miss (hi : c.index key.cut = i) (hmiss : ∀ r ∈ refs i, (t.rows r).keyBytes ≠ key.cut) :
    t.del c key = some (false, t) := by
  have hb := h.bucket i (hi ▸ c.index_lt _)
  unfold Table.del
  dsimp only
  rw [hi]
  obtain hnil | ⟨a, last, hrefs⟩ := eq_nil_or_concat' (refs i)
  · rw [(hb.empty hnil).1]
    rfl
  obtain ⟨ss, hss⟩ := hb.root (by rw [hrefs]; simp)
  have hroot : .root i ∈ refs i := hss ▸ mem_cons_self
  rw [(hb.live _ hroot).active]
  cases (t.rows (.root i)).next with
  | none =>
    rw [(hb.live _ hroot).hasKey_eq_false (hmiss _ hroot)]
    rfl
  | some second =>
    rw [h.findRow_off hi hrefs hmiss]
    rfl

lemma erase_perm (hs : s ∈ busy) : (s :: idle ++ busy.erase s).Perm (range c.sliceNum) := by
  refine Perm.trans ?_ h.perm
  have h1 : (idle ++ s :: busy.erase s).Perm (s :: idle ++ busy.erase s) := perm_middle
  exact h1.symm.trans ((perm_cons_erase hs).symm.append_left idle)

lemma erase_owner (hi : i < c.size) (hrefs : ∀ x, x ∈ refs i ↔ x = .slot s ∨ x ∈ refs') (hs : .slot s ∉ refs')
    (x : Nat) : x ∈ busy.erase s ↔ (x ∈ busy ∧ .slot x ∉ refs i) ∨ .slot x ∈ refs' := by
  rw [h.busy_nodup.mem_erase_iff, hrefs, RowRef.slot.injEq]
  constructor
  · rintro ⟨hne, hx⟩
    by_cases hx' : .slot x ∈ refs'
    · exact .inr hx'
    · exact .inl ⟨hx, fun hor => hor.elim hne hx'⟩
  · rintro (⟨hx, hn⟩ | hx)
    · exact ⟨fun he => hn (.inl he), hx⟩
    · refine ⟨?_, (h.owner x).2 ⟨i, hi, (hrefs _).2 (.inr hx)⟩⟩
      rintro rfl
      exact hs hx

lemma of_rows (hrows : t'.rows = t.rows) (hpool : t'.pool = t.pool) : t'.Inv c refs idle busy m := by
  refine ⟨hpool ▸ h.pool, h.perm, ?_, h.owner, h.disjoint, ?_, ?_⟩ <;> rw [hrows]
  · exact h.bucket
  · exact h.dataLen
  · exact h.content

lemma del_single (hi : c.index key.cut = i) (hrefs : refs i = [.root i])
    (hk : (t.rows (.root i)).keyBytes = key.cut) :
    ∃ t' : Table, t.del c key = some (true, t'.countDown) ∧ t'.rowNum = t.rowNum ∧
      t'.Inv c (update refs i []) idle busy (update m key.cut none) := by
  have hb := h.bucket i (hi ▸ c.index_lt _)
  rw [hrefs] at hb
  have hlive := hb.live _ mem_cons_self
  have hnext : (t.rows (.root i)).next = none := hb.path.1
  refine ⟨t.setRow (.root i) (t.rows (.root i)).clear, ?_, rfl, ?_⟩
  · unfold Table.del
    dsimp only
    rw [hi, hlive.active, hnext, (hlive.hasKey_iff _).2 hk]
    rfl
  refine h.replace hi h.pool h.perm (.nil ?_) ?_ nofun ?_ (setRow_dataLen h.dataLen (h.dataLen _)) ?_
  · rw [show (t.setRow (.root i) (t.rows (.root i)).clear).rows (.root i) = _ from update_self _ _ _]
    exact ⟨rfl, rfl⟩
  · intro r hr _ _
    exact update_of_ne hr _ _
  · intro s
    rw [hrefs]
    simp
  · intro k' d
    rw [hrefs]
    constructor
    · rintro ⟨x, hx, -⟩
      cases hx
    · rintro (⟨-, hv⟩ | ⟨hne, x, hx, hxk, -⟩)
      · cases hv
      · rw [mem_singleton.1 hx] at hxk
        exact absurd (hxk.symm.trans hk) hne

lemma released (hpool : t'.pool = t.pool) (hi : c.index k = i)
    (hrefs : ∀ x, x ∈ refs i ↔ x = .slot s ∨ x ∈ refs') (hs : .slot s ∉ refs')
    (hbucket : Bucket c t'.rows i refs') (hframe : ∀ x, x ≠ .root i → x ∉ refs i → t'.rows x = t.rows x)
    (hdata : ∀ x, (t'.rows x).data.length = c.itemSize)
    (hcontent : ∀ k' d, Content t'.rows refs' k' d ↔ k' ≠ k ∧ Content t.rows (refs i) k' d) :
    ∃ t'' : Table, t'.release (.slot s) = some t'' ∧ t''.rowNum = t'.rowNum ∧
      t''.Inv c (update refs i refs') (s :: idle) (busy.erase s) (update m k none) := by
  have hlt : i < c.size := hi ▸ c.index_lt _
  have hbusy : s ∈ busy := (h.owner s).2 ⟨i, hlt, (hrefs _).2 (.inl rfl)⟩
  obtain ⟨pool, hfree, hrep⟩ := h.pool.free_busy hbusy
  obtain ⟨t'', hrel, hrows, rfl, hnum⟩ : ∃ t'' : Table, t'.release (.slot s) = some t'' ∧
      t''.rows = update t'.rows (.slot s) (t'.rows (.slot s)).clear ∧
      t''.pool = pool ∧ t''.rowNum = t'.rowNum := by
    refine ⟨{ t'.setRow (.slot s) (t'.rows (.slot s)).clear with pool := pool }, ?_, rfl, rfl, rfl⟩
    show (t'.pool.free s).map _ = _
    rw [hpool, hfree]
    rfl
  refine ⟨t'', hrel, hnum, ?_⟩
  have hother : ∀ x, x ≠ .slot s → t''.rows x = t'.rows x := by
    intro x hx
    rw [hrows, update_of_ne hx]
  have hrefs' : ∀ x ∈ refs', x ≠ .slot s := fun x hx he => hs (he ▸ hx)
  refine h.replace hi hrep (h.erase_perm hbusy) ?_ ?_ ?_ (h.erase_owner hlt hrefs hs) ?_ ?_
  · exact hbucket.congr (SameHead.of_eq (hother _ nofun)) fun x hx => SameHead.of_eq (hother x (hrefs' x hx))
  · intro x hx hx' _
    exact (hother x fun he => hx' ((hrefs x).2 (.inl he))).trans (hframe x hx hx')
  · exact fun x hx => .inl ((hrefs _).2 (.inr hx))
  · rw [hrows]
    exact setRow_dataLen hdata (hdata _)
  · intro k' d
    refine (content_congr fun x hx => ?_).trans ((hcontent k' d).trans ?_)
    · rw [hother x (hrefs' x hx)]
      exact ⟨rfl, rfl⟩
    · simp

end

lemma content_other {rows : RowRef → TableRow} {x : RowRef} (hb : Bucket c rows i (a ++ x :: b))
    (k' d : Bytes) :
    Content rows (a ++ b) k' d ↔ k' ≠ (rows x).keyBytes ∧ Content rows (a ++ x :: b) k' d := by
  have hn := hb.nodup
  rw [nodup_middle, nodup_cons] at hn
  constructor
  · rintro ⟨y, hy, rfl, hyd⟩
    have hy' : y ∈ a ++ x :: b := by
      rw [mem_append, mem_cons] at *
      exact hy.imp_right .inr
    refine ⟨fun he => hn.1 ?_, y, hy', rfl, hyd⟩
    rw [← hb.eq_of_keyBytes hy' (by simp) he]
    exact hy
  · rintro ⟨hne, y, hy, rfl, hyd⟩
    refine ⟨y, ?_, rfl, hyd⟩
    rw [mem_append, mem_cons] at hy
    rw [mem_append]
    refine hy.imp_right fun hor => hor.resolve_left ?_
    rintro rfl
    exact hne rfl

variable (h : t.Inv c refs idle busy m) (hi : c.index key.cut = i)
include h hi

lemma del_root (hrefs : refs i = .root i :: .slot s :: b) (hk : (t.rows (.root i)).keyBytes = key.cut) :
    ∃ t' : Table, t.del c key = some (true, t'.countDown) ∧ t'.rowNum = t.rowNum ∧
      t'.Inv c (update refs i (.root i :: b)) (s :: idle) (busy.erase s) (update m key.cut none) := by
  have hb := h.bucket i (hi ▸ c.index_lt _)
  have hfind := h.findRow_hit (a := []) hi hrefs hk
  rw [hrefs] at hb
  obtain ⟨hrn, hn⟩ := nodup_cons.1 hb.nodup
  obtain ⟨hsn, -⟩ := nodup_cons.1 hn
  have hlive := hb.live _ mem_cons_self
  have hslive := hb.live (.slot s) (mem_cons_of_mem _ mem_cons_self)
  have hnext : (t.rows (.root i)).next = some (.slot s) := hb.path.1
  obtain ⟨t₁, ht₁⟩ : ∃ t₁, t.moveToRoot (.root i) (.slot s) = t₁ := ⟨_, rfl⟩
  have hrow : t₁.rows (.root i) = (t.rows (.root i)).copyFrom (t.rows (.slot s)) := by
    rw [← ht₁]
    exact update_self _ _ _
  have hother : ∀ x, x ≠ .root i → t₁.rows x = t.rows x := by
    intro x hx
    rw [← ht₁]
    exact update_of_ne hx _ _
  obtain ⟨t', hrel, hnum, hinv⟩ : ∃ t', t₁.release (.slot s) = some t' ∧ t'.rowNum = t₁.rowNum ∧
      t'.Inv c (update refs i (.root i :: b)) (s :: idle) (busy.erase s) (update m key.cut none) := by
    refine h.released (ht₁ ▸ rfl) hi ?_ ?_ (hb.pop ?_ fun x hx _ => hother x hx) (fun x hx _ => hother x hx)
      (ht₁ ▸ setRow_dataLen h.dataLen (h.dataLen (.slot s))) ?_
    · intro x
      rw [hrefs, mem_cons, mem_cons, mem_cons]
      exact or_left_comm
    · intro hm
      exact hsn ((mem_cons.1 hm).resolve_left nofun)
    · rw [hrow]
      exact ⟨TableRow.copyFrom_live hlive hslive, TableRow.copyFrom_keyBytes hslive, rfl⟩
    · intro k' d
      rw [hrefs]
      refine Iff.trans ?_ (hk ▸ content_other (a := []) hb k' d)
      -- the head holds now what the slice held
      have hhead : Content t₁.rows [.root i] k' d ↔ Content t.rows [.slot s] k' d := by
        simp only [Content, mem_singleton, exists_eq_left, hrow]
        rw [TableRow.copyFrom_keyBytes hslive]
        rfl
      have htail : Content t₁.rows b k' d ↔ Content t.rows b k' d := by
        apply content_congr
        intro x hx
        rw [hother x fun he => hrn (he ▸ mem_cons_of_mem _ hx)]
        exact ⟨rfl, rfl⟩
      exact content_append.trans ((or_congr hhead htail).trans content_append.symm)
  refine ⟨t', ?_, hnum.trans (ht₁ ▸ rfl), hinv⟩
  unfold Table.del
  dsimp only
  rw [hfind, hi, hlive.active, hnext]
  dsimp only [Bool.not_true, bind_some]
  rw [if_pos rfl, ht₁, hrel]
  rfl

lemma del_slot {u : RowRef} (hrefs : refs i = a ++ u :: .slot s :: b)
    (hk : (t.rows (.slot s)).keyBytes = key.cut) :
    ∃ t' : Table, t.del c key = some (true, t'.countDown) ∧ t'.rowNum = t.rowNum ∧
      t'.Inv c (update refs i (a ++ u :: b)) (s :: idle) (busy.erase s) (update m key.cut none) := by
  have hlt : i < c.size := hi ▸ c.index_lt _
  have hb := h.bucket i hlt
  have hactive := h.root_active hlt (by rw [hrefs]; simp)
  have hfind := h.findRow_hit (a := a ++ [u]) hi (hrefs.trans (append_cons a u _)) hk
  rw [getLast?_concat] at hfind
  rw [hrefs] at hb
  have hsn : .slot s ∉ a ++ u :: b := by
    have hn := hb.nodup
    rw [append_cons, nodup_middle, ← append_cons] at hn
    exact (nodup_cons.1 hn).1
  obtain ⟨second, hnext⟩ : ∃ second, (t.rows (.root i)).next = some second := by
    cases a with
    | nil =>
      obtain ⟨rfl, -⟩ := hb.shape u _ rfl
      exact ⟨_, hb.path.1⟩
    | cons r a =>
      obtain ⟨rfl, -⟩ := hb.shape r _ rfl
      cases a with
      | nil | cons r' a => exact ⟨_, hb.path.1⟩
  obtain ⟨t₁, ht₁⟩ : ∃ t₁, t.setNext u (t.rows (.slot s)).next = t₁ := ⟨_, rfl⟩
  have hrow : t₁.rows u = { t.rows u with next := (t.rows (.slot s)).next } := by
    rw [← ht₁]
    exact update_self _ _ _
  have hother : ∀ x, x ≠ u → t₁.rows x = t.rows x := by
    intro x hx
    rw [← ht₁]
    exact update_of_ne hx _ _
  have hsame : ∀ x, (t₁.rows x).keyBytes = (t.rows x).keyBytes ∧ (t₁.rows x).data = (t.rows x).data := by
    intro x
    by_cases hx : x = u
    · rw [hx, hrow]
      exact ⟨rfl, rfl⟩
    · rw [hother x hx]
      exact ⟨rfl, rfl⟩
  obtain ⟨t', hrel, hnum, hinv⟩ : ∃ t', t₁.release (.slot s) = some t' ∧ t'.rowNum = t₁.rowNum ∧
      t'.Inv c (update refs i (a ++ u :: b)) (s :: idle) (busy.erase s) (update m key.cut none) := by
    refine h.released (ht₁ ▸ rfl) hi ?_ hsn (hb.unlink hrow fun x hx _ => hother x hx) ?_ ?_ ?_
    · intro x
      rw [hrefs]
      simp only [mem_append, mem_cons]
      tauto
    · intro x _ hx
      refine hother x ?_
      rintro rfl
      exact hx (by rw [hrefs]; simp)
    · intro x
      rw [(hsame x).2]
      exact h.dataLen x
    · intro k' d
      rw [hrefs, content_congr fun x _ => hsame x]
      rw [append_cons] at hb
      have hcontent := content_other hb k' d
      rwa [← append_cons, ← append_cons, hk] at hcontent
  refine ⟨t', ?_, hnum.trans (ht₁ ▸ rfl), hinv⟩
  unfold Table.del
  dsimp only
  rw [hfind, hi, hactive, hnext]
  simp only [Bool.not_true, Bool.false_eq_true, if_false, bind_some, reduceCtorEq, ht₁, hrel, map_some]

end Table.Inv

end OSW
