import OpenSwoole.Protocol.EofFraming
import OpenSwoole.Protocol.Redis

/-!
# Framing by `redis::recv_packet`

The parser looks at the buffer only when it ends with a line break, and takes all of it for one
command.  So arrays are handed over one by one as long as no `recv` reaches behind the end of an
array and none ends with a line break inside of one.

* `parse_array`   the loop over the lines accepts an array that is in the buffer, whole.
-/

namespace OSW
namespace Redis
open Core List Machine

/-! ## one array -/

section
variable {memory : Bytes} {p pe maxLength : Nat} {request : Request}

variable {items : List Bytes} {bytes ds rest : Bytes} {n : Nat}

lemma IsBulks.pos (h : IsBulks items bytes) (hne : items ≠ []) : 0 < bytes.length := by
  cases h with
  | nil => exact absurd rfl hne
  | cons hb _ =>
    obtain ⟨ds, -, rfl⟩ := hb
    exact Nat.succ_pos _

lemma IsBulks.length_le (h : IsBulks items bytes) : items.length ≤ bytes.length := by
  induction h with
  | nil => exact le_rfl
  | cons hb _ ih =>
    obtain ⟨ds, -, rfl⟩ := hb
    simp only [length_append, length_cons]
    omega

lemma drop_add {xs ys : Bytes} (h : memory.drop p = xs ++ ys) : memory.drop (p + xs.length) = ys := by
  rw [← drop_drop, h, drop_left]

lemma drop_crlf (h : memory.drop p = bytes ++ (crlf ++ rest)) : memory.drop (p + bytes.length + 2) = rest :=
  @drop_add _ _ crlf _ (drop_add h)

lemma drop_line {x : UInt8} (h : memory.drop p = [x] ++ (ds ++ (crlf ++ rest))) :
    memory.drop (p + 1 + ds.length + 2) = rest :=
  drop_crlf (drop_add h)

lemma getNumber_line {x : UInt8} (h : IsDecimal ds n) (hm : memory.drop p = [x] ++ (ds ++ (crlf ++ rest))) :
    getNumber memory p = some (int32 (min (n : Int) (2^63 - 1)), p + 1 + ds.length + 2) := by
  have hdrop : memory.drop (p + 1) = ds ++ (crlf ++ rest) := drop_add hm
  have hline : memory.drop (p + 1 + ds.length) = crlf ++ rest := drop_add hdrop
  have hnum := @strtol_decimal ds (crlf ++ rest) n h (by intro b hb; obtain rfl := Option.some.inj hb; decide)
  have htake : (crlf ++ rest).take 2 = crlf := rfl
  unfold getNumber
  simp only [hdrop, hnum, hline]
  rw [if_pos htake]

lemma getNumber_decimal {x : UInt8} (h : IsDecimal ds n) (hn : n < 2^31)
    (hm : memory.drop p = [x] ++ (ds ++ (crlf ++ rest))) :
    getNumber memory p = some ((n : Int), p + 1 + ds.length + 2) := by
  rw [getNumber_line h hm, min_eq_left (by omega), int32_of_lt (by omega) (by omega)]

lemma receiveLength_bulk (h : IsDecimal ds n)
    (hm : memory.drop p = [36] ++ (ds ++ (crlf ++ rest))) (hpe : p + 1 + ds.length + 2 < pe)
    (hlen : n + (p + 1 + ds.length + 2) ≤ maxLength) (hmax : maxLength ≤ 2^31) :
    receiveLength memory pe maxLength request p =
      .inl ({ request with nBytesTotal := n, state := .receiveString }, p + 1 + ds.length + 2) := by
  have hhead : memory[p]? = some 36 := by
    rw [← head?_drop, hm]
    rfl
  unfold receiveLength
  simp only [hhead, if_true, getNumber_decimal h (by omega) hm]
  rw [if_neg (by omega), if_neg (by omega)]
  exact if_pos hpe

/-- **the strings of an array**: the loop over the lines ends with the last one -/
theorem parse_bulks {behind : Bytes} (h : IsBulks items bytes) (hne : items ≠ [])
    (hm : memory.drop p = bytes ++ behind) (hpe : p + bytes.length = pe) (hlen : pe ≤ maxLength)
    (hmax : maxLength ≤ 2^31) {total received : Int} (hreceived : 0 ≤ received)
    (htotal : received + items.length = total) (hint : total < 2^31) {fuel : Nat}
    (hfuel : bytes.length < fuel) :
    run (parseStep memory pe maxLength) fuel (⟨.receiveLength, total, received, 0, 0⟩, p) =
      some .package := by
  induction h generalizing p received fuel with
  | nil => exact absurd rfl hne
  | @cons item items bulk rest hb hs ih =>
    obtain ⟨ds, hds, rfl⟩ := hb
    have hlenb : (36 :: (ds ++ (crlf ++ (item ++ crlf))) ++ rest).length =
        1 + ds.length + 2 + item.length + 2 + rest.length := by
      simp only [length_append, length_cons, crlf, length_nil]
      omega
    rw [length_cons] at htotal
    have hm₁ : memory.drop p = [36] ++ (ds ++ (crlf ++ (item ++ (crlf ++ (rest ++ behind))))) := by
      rw [hm]
      simp only [append_assoc, cons_append, nil_append]
    have hm₂ := drop_line hm₁
    have hm₃ := drop_crlf hm₂
    obtain ⟨fuel, rfl⟩ : ∃ k, fuel = k + 2 := ⟨fuel - 2, by omega⟩
    have hlength : parseStep memory pe maxLength (⟨.receiveLength, total, received, 0, 0⟩, p) =
        .inl (⟨.receiveString, total, received, item.length, 0⟩, p + 1 + ds.length + 2) :=
      receiveLength_bulk hds hm₁ (by omega) (by omega) hmax
    rw [run_inl hlength]
    have hstring : parseStep memory pe maxLength
        (⟨.receiveString, total, received, item.length, 0⟩, p + 1 + ds.length + 2) =
        if received + 1 = total then .inr .package
        else turn pe ⟨.receiveLength, total, received + 1, 0, 0⟩ (p + 1 + ds.length + 2 + item.length + 2) := by
      show receiveString pe _ _ = _
      have hitem : int32 item.length = item.length := int32_of_lt (by omega) (by omega)
      have hlines : int32 (received + 1) = received + 1 := int32_of_lt (by omega) (by omega)
      unfold receiveString
      simp only [sub_zero, Int.toNat_natCast, hitem, hlines]
      rw [if_neg (by omega)]
    by_cases hlast : items = []
    · subst hlast
      have heq : received + 1 = total := by omega
      rw [if_pos heq] at hstring
      exact run_inr hstring fuel
    · have hpos := length_pos_of_ne_nil hlast
      have hrest := hs.pos hlast
      rw [if_neg (by omega), turn, if_pos (by omega)] at hstring
      rw [run_inl hstring]
      exact ih hlast hm₃ (by omega) (by omega) (by omega) (by omega)

lemma parse_array (h : IsArray items bytes) (hne : items ≠ []) (hlen : bytes.length ≤ maxLength)
    (hmax : maxLength ≤ 2^31) (behind : Bytes) :
    run (parseStep (bytes ++ behind) bytes.length maxLength) (bytes.length + 1) ({}, 0) =
      some .package := by
  obtain ⟨ds, body, hds, hbody, rfl⟩ := h
  have hcount := hbody.length_le
  have hlenb : (42 :: (ds ++ (crlf ++ body))).length = 1 + ds.length + 2 + body.length := by
    simp only [length_append, length_cons, crlf, length_nil]
    omega
  have hm₁ : (42 :: (ds ++ (crlf ++ body)) ++ behind).drop 0 = [42] ++ (ds ++ (crlf ++ (body ++ behind))) := by
    simp only [drop_zero, append_assoc, cons_append, nil_append]
  have hm₂ := drop_line hm₁
  rw [hlenb] at hlen ⊢
  have hpos := hbody.pos hne
  have htotal : parseStep (42 :: (ds ++ (crlf ++ body)) ++ behind) (1 + ds.length + 2 + body.length)
      maxLength ({}, 0) = .inl (⟨.receiveLength, items.length, 0, 0, 0⟩, 0 + 1 + ds.length + 2) := by
    show receiveTotalLine _ _ _ _ _ = _
    unfold receiveTotalLine
    have hhead : (42 :: (ds ++ (crlf ++ body)) ++ behind)[0]? = some 42 := rfl
    rw [if_pos hhead, getNumber_decimal hds (by omega) hm₁]
    exact if_pos (by omega)
  rw [run_inl htotal]
  exact parse_bulks hbody hne hm₂ (by omega) hlen hmax le_rfl (by omega) (by omega) (by omega)

end

/-! ## one `recv` -/

/-- the condition on what a `recv` gives: it does not reach behind the end of the next array, and it
ends with a line break at the end of the array only -/
def AlignedRes (before : UInt8) (arrays : List Bytes) : RecvRes → Prop
  | .data conn => ∃ array ∈ arrays[conn.out.length]?, conn.buffer.str <+: array ∧
    (endsWithCrlf before conn.buffer.str = true → conn.buffer.str = array)
  | _ => True

instance (before : UInt8) (arrays : List Bytes) (r : RecvRes) : Decidable (AlignedRes before arrays r) := by
  cases r <;> dsimp only [AlignedRes] <;> infer_instance

/-- the next `recv` of a connection meets the condition -/
def Aligned (before : UInt8) (arrays : List Bytes) (c : RedisConn) : Prop :=
  AlignedRes before arrays (c.conn.recv (room c))

instance (before : UInt8) (arrays : List Bytes) (c : RedisConn) : Decidable (Aligned before arrays c) :=
  inferInstanceAs (Decidable (AlignedRes _ _ _))

def Arrays (p : Protocol) (arrays : List Bytes) : Prop :=
  ∀ array ∈ arrays, (∃ items, items ≠ [] ∧ IsArray items array) ∧ array.length ≤ p.packageMaxLength

section
variable (p : Protocol) (P : Nat) (arrays : List Bytes)

/-- between two turns: the arrays before have been handed over, a part of the next one is in the
buffer, and there is room for more -/
structure Waiting (xs : Bytes) (c : RedisConn) : Prop where
  bytes : c.conn.rcvd ++ eventBytes c.conn.queue = xs
  out : c.conn.out <+: arrays
  rcvd : c.conn.rcvd = c.conn.out.flatten ++ c.conn.buffer.str
  part : c.conn.buffer.str = [] ∨ ∃ array ∈ arrays[c.conn.out.length]?,
    c.conn.buffer.str <+: array ∧ c.conn.buffer.str ≠ array
  request : c.request = {}
  segments : Segments c.conn.queue
  removed : c.conn.removed = false
  sized : Sized p P c.conn.buffer.size
  room : c.conn.buffer.length < c.conn.buffer.size

/-- how `recv_packet` ends: everything was received, or one more array handed over -/
def Handed (xs : Bytes) (k : Nat) (r : Option (Exit × RedisConn)) : Prop :=
  ∃ c, r = some (.ok, c) ∧ Waiting p P arrays xs c ∧
    (c.conn.queue = [] ∧ k = c.conn.out.length ∨ k < c.conn.out.length)

end

section
variable {p : Protocol} {P : Nat} {before : UInt8} {behind : Bytes → Bytes} {h : OnPackage}
  {arrays : List Bytes} {xs : Bytes} {c : RedisConn} {k : Nat}

variable {items : List Bytes} {array : Bytes}

lemma IsBulks.crlf_suffix {bytes : Bytes} (h : IsBulks items bytes) (hne : items ≠ []) :
    crlf <:+ bytes := by
  induction h with
  | nil => exact absurd rfl hne
  | @cons item items bulk rest hb _ ih =>
    by_cases hlast : items = []
    · subst hlast
      rename_i hs
      cases hs
      obtain ⟨ds, -, rfl⟩ := hb
      exact ⟨36 :: (ds ++ (crlf ++ item)), by simp only [append_assoc, cons_append, append_nil]⟩
    · exact (ih hlast).trans (suffix_append _ _)

lemma IsArray.endsWithCrlf (h : IsArray items array) (hne : items ≠ []) :
    Redis.endsWithCrlf before array = true := by
  obtain ⟨ds, body, -, hbody, rfl⟩ := h
  have hsuffix : body <:+ before :: 42 :: (ds ++ (crlf ++ body)) :=
    ⟨before :: 42 :: (ds ++ crlf), by simp only [append_assoc, cons_append]⟩
  exact decide_eq_true ((hbody.crlf_suffix hne).trans hsuffix)

lemma growth_fits (hP : PageSize P) (hmax : p.packageMaxLength ≤ 2^31) {j : Nat}
    (hj : growth P j < p.packageMaxLength) : growth P (j + 1) < 2^32 := by
  have hle := growth_add_le hP (by decide) (lt_of_lt_of_le hj hmax)
  rw [growth_succ hP]
  omega

lemma received_part (before : UInt8) (behind : Bytes → Bytes) (hP : PageSize P)
    (hmax : p.packageMaxLength ≤ 2^31) (hsized : Sized p P c.conn.buffer.size)
    (hfits : c.conn.buffer.length ≤ c.conn.buffer.size) (hlen : c.conn.buffer.length < p.packageMaxLength)
    (hend : endsWithCrlf before c.conn.buffer.str = false) :
    ∃ size, Sized p P size ∧ c.conn.buffer.length < size ∧ received p P before behind h c =
      .inl { c with conn := { c.conn with buffer := { c.conn.buffer with size := size } } } := by
  unfold received
  simp only [if_pos hend]
  by_cases hsize : c.conn.buffer.size < p.packageMaxLength
  · rw [if_pos hsize]
    rcases hsized.form with ⟨j, hj⟩ | ⟨hle, -⟩
    · obtain ⟨size, he, hgt, hs⟩ := Sized.extend hP (hj ▸ hsize) (growth_fits hP hmax (hj ▸ hsize)) hj
      refine ⟨size, hs, by omega, ?_⟩
      rw [he]
    · omega
  · rw [if_neg hsize, if_neg (by omega)]
    exact ⟨c.conn.buffer.size, hsized, by omega, rfl⟩

lemma received_array (before : UInt8) (behind : Bytes → Bytes) (ha : Accepts h)
    (hmax : p.packageMaxLength ≤ 2^31) (harray : IsArray items c.conn.buffer.str) (hne : items ≠ [])
    (hlen : c.conn.buffer.length ≤ p.packageMaxLength) (hrequest : c.request = {})
    (hremoved : c.conn.removed = false) (hsized : Sized p P c.conn.buffer.size) :
    ∃ size, Sized p P size ∧ received p P before behind h c =
      .inr (some
        (.ok, ⟨{ c.conn with buffer := ⟨[], size, 0⟩, out := c.conn.out ++ [c.conn.buffer.str] }, {}⟩)) := by
  have hend : endsWithCrlf before c.conn.buffer.str = true := harray.endsWithCrlf hne
  have hparse := parse_array harray hne hlen hmax (behind c.conn.buffer.str)
  unfold received
  simp only [hend, Bool.true_eq_false, if_false, hrequest]
  rw [show c.conn.buffer.length = length c.conn.buffer.str from rfl, hparse]
  unfold dispatch Conn.onPackage
  rcases ha c.conn.out.length with hok | hpop
  · refine ⟨c.conn.buffer.size, hsized, ?_⟩
    simp only [hok, hremoved, Bool.false_eq_true, if_false]
    rfl
  · -- a base-mode worker has taken the memory over
    have hpos : 0 < c.conn.buffer.str.length := by
      obtain ⟨ds, body, -, -, hb⟩ := harray
      rw [hb]
      exact Nat.succ_pos _
    refine ⟨(makeString bufferSizeBig).size, Sized.initial, ?_⟩
    simp only [hpop, hremoved, Bool.false_eq_true, if_false, OswString.popPackage]
    rw [if_pos ⟨hpos, rfl⟩]
    rfl

lemma out_snoc {out : List Bytes} (h1 : out <+: arrays) (h2 : arrays[out.length]? = some array) :
    out ++ [array] <+: arrays := by
  obtain ⟨rest, rfl⟩ := h1
  rw [getElem?_append_right le_rfl, Nat.sub_self] at h2
  cases rest with
  | nil => cases h2
  | cons a rest =>
    obtain rfl := Option.some.inj h2
    exact ⟨rest, by rw [append_assoc]; rfl⟩

section
variable {bs : Bytes} {es : List RecvEvent} (hw : Waiting p P arrays xs c)
  (ht : Taken c.conn.queue (room c) bs es)
include hw ht

lemma got_bytes : (c.conn.rcvd ++ bs) ++ eventBytes es = xs := by
  rw [append_assoc, ← ht.bytes]
  exact hw.bytes

lemma complete_handed (before : UInt8) (behind : Bytes → Bytes) (hmax : p.packageMaxLength ≤ 2^31)
    (ha : Accepts h) {items : List Bytes} (hitems : IsArray items (c.conn.buffer.str ++ bs)) (hne : items ≠ [])
    (hlen : (c.conn.buffer.str ++ bs).length ≤ p.packageMaxLength)
    (hnext : arrays[c.conn.out.length]? = some (c.conn.buffer.str ++ bs)) :
    ∃ r, received p P before behind h { c with conn := (c.conn.asked (room c)).got bs es } = .inr r ∧
      Handed p P arrays xs c.conn.out.length r := by
  obtain ⟨size, hsize, hr⟩ := received_array (p := p) (P := P)
    (c := { c with conn := (c.conn.asked (room c)).got bs es }) before behind ha hmax hitems hne hlen hw.request
    hw.removed hw.sized
  refine ⟨_, hr, _, rfl, ⟨got_bytes hw ht, out_snoc hw.out hnext, ?_, .inl rfl, rfl, ht.segments hw.segments,
    hw.removed, hsize, ?_⟩, .inr ?_⟩
  · show c.conn.rcvd ++ bs = (c.conn.out ++ [c.conn.buffer.str ++ bs]).flatten ++ []
    rw [hw.rcvd, append_assoc, flatten_append, append_nil, flatten_singleton]
  · have := hsize.ge
    show 0 < size
    unfold bufferSizeBig at this
    omega
  · show c.conn.out.length < (c.conn.out ++ [c.conn.buffer.str ++ bs]).length
    rw [length_append, length_singleton]
    omega

lemma part_waiting (behind : Bytes → Bytes) (h : OnPackage) (hP : PageSize P) (hmax : p.packageMaxLength ≤ 2^31)
    {array : Bytes} (hnext : arrays[c.conn.out.length]? = some array) (hpre : c.conn.buffer.str ++ bs <+: array)
    (hne : c.conn.buffer.str ++ bs ≠ array) (hlen : array.length ≤ p.packageMaxLength)
    (hfit : c.conn.buffer.length + bs.length ≤ c.conn.buffer.size)
    (hend : endsWithCrlf before (c.conn.buffer.str ++ bs) = false) :
    ∃ c', received p P before behind h { c with conn := (c.conn.asked (room c)).got bs es } = .inl c' ∧
      (Waiting p P arrays xs c' ∧ c'.conn.out.length = c.conn.out.length) ∧
      weight c'.conn.queue < weight c.conn.queue := by
  have hlt : (c.conn.buffer.str ++ bs).length < array.length :=
    lt_of_le_of_ne hpre.length_le fun he => hne (hpre.eq_of_length he)
  obtain ⟨size, hsize, hroom, hr⟩ := received_part (h := h)
    (c := { c with conn := (c.conn.asked (room c)).got bs es }) before behind hP hmax hw.sized
    (by show (c.conn.buffer.str ++ bs).length ≤ c.conn.buffer.size
        rw [length_append]
        exact hfit)
    (lt_of_lt_of_le hlt hlen) hend
  have hrcvd : c.conn.rcvd ++ bs = c.conn.out.flatten ++ (c.conn.buffer.str ++ bs) := by
    rw [hw.rcvd, append_assoc]
  refine ⟨_, hr, ⟨⟨got_bytes hw ht, hw.out, hrcvd, .inr ⟨array, hnext, hpre, hne⟩, hw.request,
    ht.segments hw.segments, hw.removed, hsize, hroom⟩, rfl⟩, ?_⟩
  have hpos := length_pos_of_ne_nil ht.ne_nil
  have hwt := ht.weight_le
  show weight es < weight c.conn.queue
  omega

end

section
variable (hP : PageSize P) (hmax : p.packageMaxLength ≤ 2^31) (ha : Accepts h) (harrays : Arrays p arrays)
include hP hmax ha harrays

/-- **one turn of the loop** -/
theorem redis_step (c : RedisConn) (hc : Waiting p P arrays xs c ∧ c.conn.out.length = k)
    (hal : Aligned before arrays c) :
    Steps (recvStep p P before behind h)
      (fun c => Waiting p P arrays xs c ∧ c.conn.out.length = k) (fun c => weight c.conn.queue)
      (Handed p P arrays xs k) c := by
  obtain ⟨hw, rfl⟩ := hc
  have hroom : 0 < room c := Nat.sub_pos_of_lt hw.room
  unfold Aligned at hal
  rcases c.conn.recv_cases (room c) with ⟨e, q, he, ⟨-, -⟩, hseg⟩ | ⟨-, hz⟩ | ⟨bs, es, ht, ⟨hov, -⟩ | ⟨hfit, he⟩⟩
  · -- nothing to receive
    obtain ⟨rfl, hq, rfl⟩ := hseg hw.segments
    refine .inr ⟨some (.ok, { c with conn := { c.conn.asked (room c) with queue := [] } }), ?_, _, rfl, ?_,
      .inl ⟨rfl, rfl⟩⟩
    · unfold recvStep
      rw [he]
      rfl
    · have hb := hw.bytes
      rw [hq] at hb
      exact { hw with bytes := hb, segments := Segments.nil }
  · exact absurd (hz hw.segments) (by omega)
  · have := ht.le
    unfold room at *
    omega
  · rw [he] at hal
    obtain ⟨array, harray, hpre, hwhole⟩ := hal
    obtain ⟨⟨items, hne, hitems⟩, hlen⟩ := harrays array (mem_of_getElem? harray)
    have hstep : recvStep p P before behind h c =
        received p P before behind h { c with conn := (c.conn.asked (room c)).got bs es } := by
      unfold recvStep
      rw [he]
    rw [Steps, hstep]
    by_cases hend : endsWithCrlf before (c.conn.buffer.str ++ bs) = true
    · obtain rfl : c.conn.buffer.str ++ bs = array := hwhole hend
      exact .inr (complete_handed hw ht before behind hmax ha hitems hne hlen harray)
    · refine .inl (part_waiting hw ht behind h hP hmax harray hpre ?_ hlen hfit (Bool.of_not_eq_true hend))
      rintro rfl
      exact hend (hitems.endsWithCrlf hne)

/-! ## whole runs -/

theorem redis_recv (hc : Waiting p P arrays xs c)
    (hal : Throughout (recvStep p P before behind h) (Aligned before arrays) (weight c.conn.queue + 1) c) :
    Handed p P arrays xs c.conn.out.length (recvPacket p P before behind h c) := by
  obtain ⟨r, hr, hq⟩ := run_throughout (μ := fun c => weight c.conn.queue)
    (redis_step hP hmax ha harrays) hal ⟨hc, rfl⟩ (Nat.lt_succ_self _)
  unfold recvPacket
  rw [hr]
  exact hq

/-- the condition on a readiness event: every `recv` of the handler meets `Aligned` -/
def AlignedRead (p : Protocol) (P : Nat) (before : UInt8) (behind : Bytes → Bytes) (h : OnPackage)
    (arrays : List Bytes) (es : List RecvEvent) (s : Status × RedisConn) : Prop :=
  Throughout (recvStep p P before behind h) (Aligned before arrays)
    (weight (s.2.conn.queue ++ es) + 1) { s.2 with conn := { s.2.conn with queue := s.2.conn.queue ++ es } }

instance (p : Protocol) (P : Nat) (before : UInt8) (behind : Bytes → Bytes) (h : OnPackage)
    (arrays : List Bytes) (es : List RecvEvent) (s : Status × RedisConn) :
    Decidable (AlignedRead p P before behind h arrays es s) :=
  inferInstanceAs (Decidable (Throughout _ _ _ _))

lemma redis_onRead (hc : Waiting p P arrays xs c) {es : List RecvEvent} (hes : Segments es)
    (hal : AlignedRead p P before behind h arrays es (.opened, c)) :
    ∃ c', onRead p P before behind h es (.opened, c) = some (.opened, c') ∧
      Waiting p P arrays (xs ++ eventBytes es) c' ∧
      (c'.conn.queue = [] ∧ c.conn.out.length = c'.conn.out.length ∨
        c.conn.out.length < c'.conn.out.length) := by
  have hq : Waiting p P arrays (xs ++ eventBytes es)
      { c with conn := { c.conn with queue := c.conn.queue ++ es } } := by
    refine { hc with bytes := ?_, segments := hc.segments.append hes }
    rw [eventBytes_append, ← append_assoc, hc.bytes]
  obtain ⟨c', hr, hw, hprog⟩ := redis_recv hP hmax ha harrays hq hal
  refine ⟨c', ?_, hw, hprog⟩
  unfold onRead
  simp only [hr]
  rfl

end

lemma Waiting.out_eq (harrays : Arrays p arrays) (hc : Waiting p P arrays arrays.flatten c)
    (hq : c.conn.queue = []) : c.conn.out = arrays := by
  obtain ⟨rest, hrest⟩ := hc.out
  have hb := hc.bytes
  rw [hq, hc.rcvd] at hb
  have htail : c.conn.buffer.str = rest.flatten := by
    rw [← hrest, flatten_append] at hb
    exact append_cancel_left ((append_nil _).symm.trans hb)
  cases rest with
  | nil => rw [← hrest, append_nil]
  | cons array rest =>
    have hget : arrays[c.conn.out.length]? = some array := by
      rw [← hrest, getElem?_append_right le_rfl, Nat.sub_self]
      rfl
    rw [flatten_cons] at htail
    rcases hc.part with hnil | ⟨array', hget', hpre, hne⟩
    · obtain ⟨⟨items, -, ds, body, -, -, rfl⟩, -⟩ := harrays array (mem_of_getElem? hget)
      rw [hnil] at htail
      cases htail
    · obtain rfl : array = array' := Option.some.inj (hget.symm.trans hget')
      have hle := hpre.length_le
      rw [htail, length_append] at hle
      exact absurd (hpre.eq_of_length (by rw [htail, length_append]; omega)) hne

variable (hP : PageSize P) (hmax : p.packageMaxLength ≤ 2^31) (ha : Accepts h) (harrays : Arrays p arrays)
include hP hmax ha harrays

lemma redis_calls {calls tail : List (List RecvEvent)} (hseg : ∀ es ∈ calls, Segments es)
    (hc : Waiting p P arrays xs c)
    (hal : Along (onRead p P before behind h) (AlignedRead p P before behind h arrays)
      (calls ++ tail) (.opened, c)) :
    ∃ c', Waiting p P arrays (xs ++ eventBytes calls.flatten) c' ∧
      iter (onRead p P before behind h) (calls ++ tail) (.opened, c) =
        iter (onRead p P before behind h) tail (.opened, c') ∧
      Along (onRead p P before behind h) (AlignedRead p P before behind h arrays) tail (.opened, c') := by
  induction calls generalizing xs c with
  | nil => exact ⟨c, (append_nil xs).symm ▸ hc, rfl, hal⟩
  | cons es calls ih =>
    obtain ⟨c₁, hr, hw, -⟩ := redis_onRead hP hmax ha harrays hc (hseg es mem_cons_self) hal.1
    obtain ⟨c', hw', hiter, hal'⟩ := ih (fun e he => hseg e (mem_cons_of_mem _ he)) hw (hal.2 _ hr)
    refine ⟨c', ?_, ?_, hal'⟩
    · rw [flatten_cons, eventBytes_append, ← append_assoc]
      exact hw'
    · rw [← hiter]
      show (onRead p P before behind h es (.opened, c)).bind _ = _
      rw [hr]
      rfl

lemma redis_drain (n : Nat) (hc : Waiting p P arrays arrays.flatten c)
    (hn : arrays.length ≤ c.conn.out.length + n)
    (hal : Along (onRead p P before behind h) (AlignedRead p P before behind h arrays)
      (replicate n []) (.opened, c)) :
    ∃ c', iter (onRead p P before behind h) (replicate n []) (.opened, c) =
      some (.opened, c') ∧ c'.conn.out = arrays := by
  induction n generalizing c with
  | zero => exact ⟨c, rfl, hc.out.eq_of_length (le_antisymm hc.out.length_le hn)⟩
  | succ n ih =>
    obtain ⟨c₁, hr, hw, hprog⟩ := redis_onRead hP hmax ha harrays hc Segments.nil hal.1
    have hw₁ : Waiting p P arrays arrays.flatten c₁ := by
      have := hw
      rwa [show eventBytes [] = [] from rfl, append_nil] at this
    have hn₁ : arrays.length ≤ c₁.conn.out.length + n := by
      rcases hprog with ⟨hq, -⟩ | hlt
      · rw [hw₁.out_eq harrays hq]
        omega
      · omega
    obtain ⟨c', hiter, hout⟩ := ih hw₁ hn₁ (hal.2 _ hr)
    refine ⟨c', ?_, hout⟩
    show (onRead p P before behind h [] (.opened, c)).bind _ = _
    rw [hr]
    exact hiter

end

lemma Waiting.init (p : Protocol) (P : Nat) (arrays : List Bytes) :
    Waiting p P arrays [] RedisConn.init :=
  ⟨rfl, nil_prefix, rfl, .inl rfl, rfl, Segments.nil, rfl, Sized.initial, by decide⟩

/-- **Every array is handed over**, for every cutting in which no `recv` reaches behind the end of an array or
ends with a line break inside of one. -/
theorem redis_frames (p : Protocol) (hmax : p.packageMaxLength ≤ 2^31) (P : Nat) (hP : PageSize P)
    (before : UInt8) (behind : Bytes → Bytes) (h : OnPackage) (ha : Accepts h) (arrays : List Bytes)
    (harrays : ∀ array ∈ arrays, (∃ items, items ≠ [] ∧ IsArray items array) ∧
      array.length ≤ p.packageMaxLength)
    (calls : List (List RecvEvent)) (hcuts : Cuts calls arrays.flatten)
    (hal : Along (onRead p P before behind h) (AlignedRead p P before behind h arrays)
      (calls ++ replicate arrays.length []) (.opened, RedisConn.init)) :
    ∃ c, iter (onRead p P before behind h) (calls ++ replicate arrays.length [])
      (.opened, RedisConn.init) = some (.opened, c) ∧ c.conn.out = arrays := by
  obtain ⟨hseg, hbytes⟩ := hcuts
  obtain ⟨c, hw, hiter, hal'⟩ := redis_calls hP hmax ha harrays hseg (Waiting.init p P arrays) hal
  rw [hbytes] at hw
  obtain ⟨c', hdrain, hout⟩ := redis_drain hP hmax ha harrays arrays.length hw (Nat.le_add_left _ _) hal'
  exact ⟨c', hiter.trans hdrain, hout⟩

def oneArray : Bytes := [42, 49, 13, 10, 36, 49, 13, 10, 97, 13, 10]

lemma isArray_oneArray : IsArray [[97]] oneArray :=
  ⟨[49], [36, 49, 13, 10, 97, 13, 10], ⟨by decide +kernel, by decide +kernel, rfl⟩,
    @IsBulks.cons [97] [] _ [] ⟨[49], ⟨by decide +kernel, by decide +kernel, rfl⟩, rfl⟩ .nil, rfl⟩

/-- two arrays, the first one cut inside of a number -/
theorem redis_frames_two :
    ∃ c, iter (onRead (eofConfig 65536 (by decide)) 4096 0 (fun _ => []) (fun _ => .ok))
      ([[.data (oneArray.take 2)], [.data (oneArray.drop 2), .data oneArray]] ++ replicate 2 [])
      (.opened, RedisConn.init) = some (.opened, c) ∧ c.conn.out = [oneArray, oneArray] := by
  refine redis_frames (eofConfig 65536 (by decide)) (by decide) 4096 ⟨by decide, by decide⟩ 0 (fun _ => [])
    (fun _ => .ok) (fun _ => .inl rfl) [oneArray, oneArray] ?_ _ (by decide) (by decide +kernel)
  intro array hm
  simp only [mem_cons, not_mem_nil, or_false, or_self] at hm
  subst hm
  exact ⟨⟨_, by decide, isArray_oneArray⟩, by decide⟩

/-- the first line comes alone: the connection is closed, and nothing is handed over -/
theorem redis_splits : IsArray [[97]] oneArray ∧ oneArray.take 4 ++ oneArray.drop 4 = oneArray ∧
      (iter (onRead (eofConfig 65536 (by decide)) 4096 0 (fun _ => []) (fun _ => .ok))
        [[.data (oneArray.take 4)], [.data (oneArray.drop 4)], []] (.opened, RedisConn.init)).map
        (fun s => (s.1, s.2.conn.out)) = some (.closed, []) :=
  ⟨isArray_oneArray, rfl, by decide +kernel⟩

end Redis
end OSW
