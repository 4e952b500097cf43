import Mathlib.Data.List.Induction
import OpenSwoole.Protocol.Eof

/-!
# Framing by `recv_with_eof_protocol`

In `split_by_eof` mode the packages handed over are the frames of the stream at the delimiter,
however the stream is cut.  A full buffer grows to the next aligned double of its size, computed as
a `uint32_t`: `growth` is the sequence of sizes, and a buffer that is full at a size whose successor
does not fit 32 bits runs into the assertion of `String::extend`.

* `Tails`   no undelivered tail reaches the last size below 32 bits;
* `eof_step`   one turn of the loop keeps the invariant `EofPaused`, closes the connection for a tail of
    `package_max_length` bytes, or aborts with a tail that breaks `Tails`;
* `eof_serve`   so every run of the read handler does.
-/

set_option linter.unusedSectionVars false

namespace OSW

open Framing List

/-! ## the sizes of a growing buffer -/

/-- a page size: pages are a multiple of the alignment and divide the initial buffer -/
structure PageSize (pagesize : Nat) : Prop where
  aligned : 8 ∣ pagesize
  divides : pagesize ∣ bufferSizeBig

def growth (pagesize : Nat) : Nat → Nat
  | 0 => bufferSizeBig
  | k + 1 => sizeAlign (growth pagesize k * 2) pagesize

variable {n : Nat}

lemma memAlignedSize_of_dvd (h : 8 ∣ n) : memAlignedSize n = n := by
  unfold memAlignedSize
  omega

lemma memAlignedSize_mono {m : Nat} (h : m ≤ n) : memAlignedSize m ≤ memAlignedSize n := by
  unfold memAlignedSize
  omega

section
variable {P : Nat} (hP : PageSize P)
include hP

lemma PageSize.pos : 0 < P := Nat.pos_of_dvd_of_pos hP.divides (by decide)

variable {k j : Nat}

lemma growth_succ_of_dvd (h : P ∣ growth P k) : growth P (k + 1) = growth P k * 2 + P := by
  show sizeAlign (growth P k * 2) P = _
  unfold sizeAlign
  rw [Nat.mod_eq_zero_of_dvd (Nat.dvd_mul_right_of_dvd h 2), Nat.sub_zero]

lemma growth_dvd (k : Nat) : P ∣ growth P k := by
  induction k with
  | zero => exact hP.divides
  | succ k ih =>
    rw [growth_succ_of_dvd hP ih]
    exact Nat.dvd_add (Nat.dvd_mul_right_of_dvd ih 2) (Nat.dvd_refl P)

lemma growth_succ (k : Nat) : growth P (k + 1) = growth P k * 2 + P :=
  growth_succ_of_dvd hP (growth_dvd hP k)

lemma growth_lt_succ (k : Nat) : growth P k < growth P (k + 1) := by
  have := hP.pos
  rw [growth_succ hP]
  omega

lemma growth_le (h : j ≤ k) : growth P j ≤ growth P k := by
  induction h with
  | refl => exact le_rfl
  | step _ ih => exact le_trans ih (le_of_lt (growth_lt_succ hP _))

lemma le_of_growth_lt (h : growth P j < growth P (k + 1)) : j ≤ k := by
  by_contra hn
  have := growth_le hP (show k + 1 ≤ j by omega)
  omega

lemma big_le_growth (k : Nat) : bufferSizeBig ≤ growth P k := growth_le hP (Nat.zero_le k)

lemma memAlignedSize_growth (k : Nat) : memAlignedSize (growth P k) = growth P k :=
  memAlignedSize_of_dvd (Nat.dvd_trans hP.aligned (growth_dvd hP k))

lemma growth_add_le {n : Nat} (hn : bufferSizeBig ∣ n) (h : growth P k < n) : growth P k + P ≤ n := by
  obtain ⟨a, ha⟩ := growth_dvd hP k
  obtain ⟨m, rfl⟩ := Nat.dvd_trans hP.divides hn
  rw [ha, ← Nat.mul_succ]
  rw [ha] at h
  exact Nat.mul_le_mul_left P (Nat.lt_of_mul_lt_mul_left h)

lemma growth_wrap (h1 : growth P k < 2^32) (h2 : 2^32 ≤ growth P (k + 1)) :
    growth P (k + 1) % 2^32 ≤ growth P k := by
  have hle := growth_add_le hP (by decide) h1
  rw [growth_succ hP] at h2 ⊢
  omega

end

section
variable (p : Protocol) (P : Nat)

/-- a buffer full at the size `growth P k` cannot grow: the next size does not fit 32 bits -/
def Risky (k : Nat) : Prop := growth P k < p.packageMaxLength ∧ 2^32 ≤ growth P (k + 1)

def Tails (xs : Bytes) : Prop :=
  ∀ k, Risky p P k → ∀ ys, ys <+: xs → (frames (eofLen p.packageEof) ys).2.length < growth P k

structure Sized (size : Nat) : Prop where
  lt : size < 2^32
  ge : bufferSizeBig ≤ size
  form : (∃ k, size = growth P k) ∨ (p.packageMaxLength ≤ size ∧ ∀ k, ¬ Risky p P k)

/-- between two turns: the buffer holds the undelivered tail, scanned up to `offset` -/
structure EofPaused (xs : Bytes) (c : Conn) : Prop where
  bytes : c.rcvd ++ eventBytes c.queue = xs
  frames : frames (eofLen p.packageEof) c.rcvd = (c.out, c.buffer.str)
  offset : c.buffer.offset ≤ c.buffer.length - p.packageEof.length
  segments : Segments c.queue
  removed : c.removed = false
  sized : Sized p P c.buffer.size
  fits : c.buffer.length ≤ c.buffer.size
  room : c.buffer.length < c.buffer.size ∨ p.packageMaxLength ≤ c.buffer.size
  tails : Tails p P c.rcvd

/-- closed for a tail of `package_max_length` bytes -/
structure EofClosed (xs : Bytes) (c : Conn) : Prop where
  received : c.rcvd <+: xs
  frames : Framing.frames (eofLen p.packageEof) c.rcvd = (c.out, c.buffer.str)
  pos : 0 < c.buffer.length
  big : p.packageMaxLength ≤ c.buffer.length
  safe : ∀ k, ¬ Risky p P k

def EofAborted (xs : Bytes) : Prop :=
  ∃ k, Risky p P k ∧ ∃ ys, ys <+: xs ∧ (frames (eofLen p.packageEof) ys).2.length = growth P k

def EofExit (xs : Bytes) (w : Nat) : Exit × Conn → Prop
  | (.ok, c) => EofPaused p P xs c ∧ (weight c.queue < w ∨ c.queue = [])
  | (.err, c) => EofClosed p P xs c
  | (.abort, _) => EofAborted p P xs
  | (.overflow, _) => False

end

section
variable {p : Protocol} {P : Nat} {h : OnPackage} {xs : Bytes} {c : Conn} {w : Nat}

/-! ## how much one turn asks for -/

variable {b : OswString}

lemma bufSize_pos (h : b.length < b.size) (hs : b.size < 2^32) : 0 < bufSize b := by
  unfold bufSize toSigned bufferSizeStd
  simp only
  split <;> split <;> omega

lemma bufSize_eq_zero (h : bufSize b = 0) (hs : b.size < 2^32) : b.size ≤ b.length := by
  by_contra hn
  have := bufSize_pos (Nat.lt_of_not_le hn) hs
  omega

lemma taken_le {q es : List RecvEvent} {bs : Bytes} (hs : b.size < 2^32) (hle : b.length ≤ b.size)
    (ht : Taken q (bufSize b) bs es) : b.length + bs.length ≤ b.size := by
  have h1 := ht.le
  have h2 := ht.le_max
  unfold bufSize toSigned bufferSizeStd at h1
  unfold maxRwCount at h2
  simp only at h1
  split at h1 <;> split at h1 <;> omega

/-! ## tails -/

lemma frames_tail_le (len : Bytes → Option Nat) (ys : Bytes) : (frames len ys).2.length ≤ ys.length := by
  have := congrArg length (frames_flatten len ys)
  rw [length_append] at this
  omega

section
variable (hP : PageSize P)
include hP

variable {size j : Nat} {cur : Bytes}

lemma Sized.le_growth {k : Nat} (hs : Sized p P size) (hk : Risky p P k) : size ≤ growth P k := by
  rcases hs.form with ⟨j, rfl⟩ | ⟨_, hsafe⟩
  · exact growth_le hP (le_of_growth_lt hP (lt_of_lt_of_le hs.lt hk.2))
  · exact absurd hk (hsafe k)

lemma Sized.safe (hs : Sized p P size) (hle : p.packageMaxLength ≤ size) (k : Nat) : ¬ Risky p P k := by
  intro hk
  have := hs.le_growth hP hk
  have := hk.1
  omega

lemma Tails.recv (hd : p.packageEof ≠ []) {rcvd bs : Bytes} {out : List Bytes}
    (ht : Tails p P rcvd) (hf : frames (eofLen p.packageEof) rcvd = (out, cur))
    (hs : Sized p P size) (hfit : cur.length + bs.length ≤ size)
    (hnew : ∀ k, Risky p P k → (frames (eofLen p.packageEof) (rcvd ++ bs)).2.length < growth P k) :
    Tails p P (rcvd ++ bs) := by
  intro k hk ys hys
  obtain ⟨t, heq⟩ := hys
  rcases append_eq_append_iff.1 heq with ⟨a, rfl, _⟩ | ⟨bs', rfl, hbs⟩
  · exact ht k hk ys (prefix_append _ _)
  · have hpre : bs' <+: bs := ⟨t, hbs.symm⟩
    by_cases heq : bs'.length = bs.length
    · rw [hpre.eq_of_length heq]
      exact hnew k hk
    · have hlt : bs'.length < bs.length := lt_of_le_of_ne hpre.length_le heq
      have hle := hs.le_growth hP hk
      have htail := frames_tail_le (eofLen p.packageEof) (cur ++ bs')
      rw [length_append] at htail
      rw [frames_append (eofLen_stable hd), hf]
      show (frames (eofLen p.packageEof) (cur ++ bs')).2.length < _
      omega

/-! ## one turn -/

lemma Sized.extend (h1 : growth P j < p.packageMaxLength) (h2 : growth P (j + 1) < 2^32)
    (hb : b.size = growth P j) :
    ∃ size, b.extend (extendSize p P b) = some { b with size := size } ∧ growth P j < size ∧
      Sized p P size := by
  have hlt := growth_lt_succ hP j
  have he : extendSize p P b = min (growth P (j + 1)) p.packageMaxLength := by
    unfold extendSize
    rw [hb, show sizeAlign (growth P j * 2) P = growth P (j + 1) from rfl, Nat.mod_eq_of_lt h2]
  have hgt : b.size < extendSize p P b := by omega
  have hle := le_memAlignedSize (extendSize p P b)
  refine ⟨memAlignedSize (extendSize p P b), by unfold OswString.extend; rw [if_pos hgt], by omega, ?_⟩
  rw [he]
  by_cases hmax : growth P (j + 1) ≤ p.packageMaxLength
  · rw [min_eq_left hmax, memAlignedSize_growth hP]
    exact ⟨h2, big_le_growth hP _, .inl ⟨j + 1, rfl⟩⟩
  · have hmono := memAlignedSize_mono (Nat.le_of_not_le hmax)
    rw [memAlignedSize_growth hP] at hmono
    rw [min_eq_right (Nat.le_of_not_le hmax)]
    have hge := big_le_growth hP j
    have hle' := le_memAlignedSize p.packageMaxLength
    refine ⟨by omega, by omega, .inr ⟨hle', fun k hk => ?_⟩⟩
    have hkj := le_of_growth_lt hP (show growth P k < growth P (j + 1) from by
      have := hk.1
      omega)
    have := growth_le hP (show k + 1 ≤ j + 1 by omega)
    have := hk.2
    omega

lemma extend_wrap (hj : Risky p P j) (hb : b.size = growth P j) : b.extend (extendSize p P b) = none := by
  have hmax := p.max_lt
  have h1 := hj.1
  have hwrap := growth_wrap hP (by omega) hj.2
  refine if_neg ?_
  unfold extendSize
  rw [hb, show sizeAlign (growth P j * 2) P = growth P (j + 1) from rfl]
  omega

lemma eofAgain_spec (hbytes : c.rcvd ++ eventBytes c.queue = xs)
    (hf : frames (eofLen p.packageEof) c.rcvd = (c.out, c.buffer.str))
    (ho : c.buffer.offset ≤ c.buffer.length - p.packageEof.length) (hseg : Segments c.queue)
    (hr : c.removed = false) (hs : Sized p P c.buffer.size) (hfit : c.buffer.length ≤ c.buffer.size)
    (hpos : 0 < c.buffer.length)
    (htails : (∀ k, Risky p P k → c.buffer.length < growth P k) → Tails p P c.rcvd) :
    (∃ c', eofAgain p P true c = .inl (true, c') ∧ EofPaused p P xs c' ∧ c'.queue = c.queue) ∨
    ∃ r, eofAgain p P true c = .inr (some r) ∧ EofExit p P xs w r := by
  unfold eofAgain
  have hpre : c.rcvd <+: xs := ⟨_, hbytes⟩
  by_cases hmax : c.buffer.length = p.packageMaxLength
  · rw [if_pos hmax]
    exact .inr ⟨_, rfl, hpre, hf, hpos, by omega, hs.safe hP (by omega)⟩
  rw [if_neg hmax]
  by_cases hfull : c.buffer.length = c.buffer.size
  · rw [if_pos hfull]
    by_cases hlt : c.buffer.size < p.packageMaxLength
    · rw [if_pos hlt]
      obtain ⟨j, hj⟩ : ∃ j, c.buffer.size = growth P j := by
        rcases hs.form with hj | ⟨hle, _⟩
        · exact hj
        · omega
      by_cases hrisk : 2^32 ≤ growth P (j + 1)
      · rw [extend_wrap hP ⟨by omega, hrisk⟩ hj]
        refine .inr ⟨_, rfl, j, ⟨by omega, hrisk⟩, c.rcvd, hpre, ?_⟩
        rw [hf]
        show c.buffer.length = _
        omega
      · obtain ⟨size, he, hgt, hsize⟩ := Sized.extend hP (p := p) (by omega) (by omega) hj
        rw [he]
        refine .inl ⟨_, rfl, ⟨hbytes, hf, ho, hseg, hr, hsize, ?_, .inl ?_, ?_⟩, rfl⟩
        · show c.buffer.length ≤ size
          omega
        · show c.buffer.length < size
          omega
        · refine htails fun k hk => ?_
          have hne : j ≠ k := by
            rintro rfl
            exact hrisk hk.2
          have hjk := le_of_growth_lt hP (lt_of_lt_of_le (hj ▸ hs.lt) hk.2)
          have h1 := growth_lt_succ hP j
          have h2 := growth_le hP (show j + 1 ≤ k by omega)
          omega
    · rw [if_neg hlt]
      exact .inl ⟨c, rfl, ⟨hbytes, hf, ho, hseg, hr, hs, hfit, .inr (by omega),
        htails fun k hk => absurd hk (hs.safe hP (by omega) k)⟩, rfl⟩
  · rw [if_neg hfull, if_pos rfl]
    refine .inl ⟨c, rfl, ⟨hbytes, hf, ho, hseg, hr, hs, hfit, .inl (by omega), htails fun k hk => ?_⟩, rfl⟩
    have := hs.le_growth hP hk
    omega

/-! ### the code behind a successful `recv` -/

namespace EofPaused
variable {n : Nat} {bs : Bytes} {es : List RecvEvent}

omit hP in
lemma got_bytes (hc : EofPaused p P xs c) (ht : Taken c.queue n bs es) :
    c.rcvd ++ bs ++ eventBytes es = xs := by
  rw [append_assoc, ← ht.bytes]
  exact hc.bytes

omit hP in
lemma first_none (hd : p.packageEof ≠ []) (hc : EofPaused p P xs c) :
    first p.packageEof c.buffer.str = none := by
  have hcur := frames_tail (eofLen p.packageEof) c.rcvd
  rw [hc.frames] at hcur
  cases hx : first p.packageEof c.buffer.str with
  | none => rfl
  | some i => exact absurd (eofLen_complete hd hx) (hcur _)

lemma delivered (hd : p.packageEof ≠ []) (hc : EofPaused p P xs c) (ht : Taken c.queue n bs es)
    (hfit : c.buffer.length + bs.length ≤ c.buffer.size) {out : List Bytes} {t : Bytes} {offset : Nat}
    (hf : Framing.frames (eofLen p.packageEof) (c.rcvd ++ bs) = (out, t))
    (ho : offset ≤ t.length - p.packageEof.length) (hlt : t.length < c.buffer.size) :
    EofPaused p P xs { (c.asked n).got bs es with out := out, buffer := ⟨t, c.buffer.size, offset⟩ } := by
  refine ⟨hc.got_bytes ht, hf, ho, ht.segments hc.segments, hc.removed, hc.sized, le_of_lt hlt,
    .inl hlt, hc.tails.recv hP hd hc.frames hc.sized hfit fun k hk => ?_⟩
  rw [hf]
  exact lt_of_lt_of_le hlt (hc.sized.le_growth hP hk)

end EofPaused

omit hP in
lemma not_complete_of_short (hd : p.packageEof ≠ []) (hshort : cur.length < p.packageEof.length)
    (n : Nat) : ¬ Complete (eofLen p.packageEof) cur n := by
  refine eofLen_not_complete ((first_eq_none_iff hd _).2 fun j hj => ?_) n
  have := prefix_drop_le hd hj
  omega

variable (hd : p.packageEof ≠ []) (hsplit : p.splitByEof = true) (ha : Accepts h)
include hd hsplit ha

variable {es : List RecvEvent}

lemma eofReceived_spec {b : Bool} {n : Nat} {bs : Bytes} (hc : EofPaused p P xs c)
    (ht : Taken c.queue n bs es) (hfit : c.buffer.length + bs.length ≤ c.buffer.size) (hw : weight es < w) :
    (∃ c', eofReceived p P h b ((c.asked n).got bs es) = .inl (true, c') ∧
      EofPaused p P xs c' ∧ c'.queue = es) ∨
    ∃ r, eofReceived p P h b ((c.asked n).got bs es) = .inr (some r) ∧ EofExit p P xs w r := by
  let e : Conn := (c.asked n).got bs es
  have hpos := length_pos_iff.2 ht.ne_nil
  have hlen : e.buffer.length = c.buffer.length + bs.length := length_append
  have hparsed : Parsed (eofLen p.packageEof) e.rcvd e.out e.buffer.str :=
    (Parsed.of_frames hc.frames).recv (eofLen_stable hd) bs
  have hoff : c.buffer.offset ≤ e.buffer.length - p.packageEof.length := by
    have := hc.offset
    omega
  unfold eofReceived
  by_cases hshort : e.buffer.length < p.packageEof.length
  · have hsmall : e.buffer.length < c.buffer.size := by
      have hd8 := p.eof_le
      have hge := hc.sized.ge
      unfold dataEofMaxlen at hd8
      unfold bufferSizeBig at hge
      omega
    rw [if_pos hshort]
    have hf := hparsed.final (not_complete_of_short hd hshort)
    exact .inr ⟨_, rfl, hc.delivered hP hd ht hfit hf hoff hsmall, .inl hw⟩
  · have hclean : Clean p.packageEof e.buffer.str e.buffer.offset :=
      (clean_append hd (hc.first_none hd) bs).mono hc.offset
    have hlt : e.buffer.length < 2^32 := by
      have := hc.sized.lt
      omega
    rw [if_neg hshort, hsplit, if_pos rfl]
    rcases recvSplitByEof_spec hd ha hlt (by omega) hclean (show c.buffer.offset ≤ e.buffer.length by omega)
      hc.removed with ⟨hno, he⟩ | ⟨fs, t, hft, htl, he⟩
    · rw [he]
      have hf := hparsed.final hno
      exact eofAgain_spec (w := w) hP (c := { e with buffer := { e.buffer with
          offset := e.buffer.length - p.packageEof.length } })
        (hc.got_bytes ht) hf le_rfl (ht.segments hc.segments) hc.removed hc.sized
        (show e.buffer.length ≤ c.buffer.size by omega) (show 0 < e.buffer.length by omega)
        (fun hk => hc.tails.recv hP hd hc.frames hc.sized hfit fun k hk' => by
          rw [show c.rcvd ++ bs = e.rcvd from rfl, hf]
          exact hk k hk')
    · rw [he]
      have hf : frames (eofLen p.packageEof) e.rcvd = (c.out ++ fs, t) := by
        have hp := hparsed
        unfold Parsed at hp
        rw [hft] at hp
        exact hp
      exact .inr ⟨_, rfl, hc.delivered hP hd ht hfit hf le_rfl (by omega), .inl hw⟩

lemma eof_step (s : Bool × Conn) (hs : EofPaused p P xs s.2 ∧ weight s.2.queue ≤ w) :
    Machine.Steps (eofStep p P h) (fun s => EofPaused p P xs s.2 ∧ weight s.2.queue ≤ w)
      (fun s => weight s.2.queue) (fun r => ∃ x, r = some x ∧ EofExit p P xs w x) s := by
  obtain ⟨again, c⟩ := s
  obtain ⟨hc, hw⟩ := hs
  change EofPaused p P xs c at hc
  change weight c.queue ≤ w at hw
  unfold Machine.Steps eofStep
  rcases c.recv_cases (bufSize c.buffer) with ⟨e, q, he, _, hq⟩ | ⟨he, hz⟩ | ⟨bs, es, ht, hd'⟩
  · obtain ⟨rfl, hnil, rfl⟩ := hq hc.segments
    have hsame : { c.asked (bufSize c.buffer) with queue := [] } = c.asked (bufSize c.buffer) := by
      rw [← hnil]
      rfl
    simp only [he, hsame]
    exact .inr ⟨_, rfl, _, rfl, { hc with }, .inr hnil⟩
  · have hfull := bufSize_eq_zero (hz hc.segments) hc.sized.lt
    have hge := hc.sized.ge
    have hbig : p.packageMaxLength ≤ c.buffer.size := by
      rcases hc.room with hlt | hle
      · omega
      · exact hle
    unfold bufferSizeBig at hge
    simp only [he]
    exact .inr ⟨_, rfl, _, rfl, ⟨_, hc.bytes⟩, hc.frames, show 0 < c.buffer.length by omega,
      show p.packageMaxLength ≤ c.buffer.length by omega, hc.sized.safe hP hbig⟩
  · have hfit := taken_le hc.sized.lt hc.fits ht
    have hwt := ht.weight_le
    have hpos := length_pos_iff.2 ht.ne_nil
    rcases hd' with ⟨hov, _⟩ | ⟨_, he⟩
    · omega
    simp only [he]
    rcases eofReceived_spec (w := w) (b := again) hP hd hsplit ha hc ht hfit (by omega) with
      ⟨c', he', hc', hq⟩ | ⟨r, he', hr⟩
    · refine .inl ⟨_, he', ⟨hc', ?_⟩, ?_⟩ <;> simp only [hq] <;> omega
    · exact .inr ⟨_, he', r, rfl, hr⟩

lemma eof_recv (hc : EofPaused p P xs c) :
    ∃ r, recvWithEofProtocol p P h c = some r ∧ EofExit p P xs (weight c.queue) r := by
  obtain ⟨r, hrun, x, rfl, hx⟩ := Machine.run_spec (eof_step hP hd hsplit ha)
    (s := (false, c)) (n := weight c.queue + 1) ⟨hc, le_rfl⟩ (Nat.lt_succ_self _)
  refine ⟨x, ?_, hx⟩
  unfold recvWithEofProtocol
  rw [hrun]
  rfl

/-! ## the read handler -/

omit hP hd hsplit ha in
lemma Sized.initial : Sized p P (makeString bufferSizeBig).size :=
  ⟨by decide, le_rfl, .inl ⟨0, rfl⟩⟩

omit hd hsplit ha in
lemma EofPaused.freeBuffer (hc : EofPaused p P xs c) : EofPaused p P xs c.freeBuffer := by
  unfold Conn.freeBuffer
  by_cases hf : c.buffer.length = 0 ∧ bufferSizeBig * 2 < c.buffer.size
  · rw [if_pos hf]
    have hnil : c.buffer.str = [] := length_eq_zero_iff.mp hf.1
    have hframes := hc.frames
    rw [hnil] at hframes
    exact ⟨hc.bytes, hframes, Nat.zero_le _, hc.segments, hc.removed, Sized.initial, Nat.zero_le _,
      .inl (show 0 < memAlignedSize bufferSizeBig by decide), hc.tails⟩
  · rw [if_neg hf]
    exact hc

omit hP hd hsplit ha in
lemma EofPaused.enqueue (hc : EofPaused p P xs c) (hes : Segments es) :
    EofPaused p P (xs ++ eventBytes es) { c with queue := c.queue ++ es } := by
  refine { hc with bytes := ?_, segments := hc.segments.append hes }
  rw [eventBytes_append, ← append_assoc, hc.bytes]

omit hd hsplit ha in
lemma EofPaused.init : EofPaused p P [] Conn.init := by
  have hf : Framing.frames (eofLen p.packageEof) [] = ([], []) :=
    frames_stop (fun _ hn => absurd hn.2.1 (not_lt.mpr hn.2.2))
  refine ⟨rfl, hf, Nat.zero_le _, Segments.nil, rfl, Sized.initial, Nat.zero_le _,
    .inl (by decide), fun k _ ys hys => ?_⟩
  rw [prefix_nil.mp hys, hf]
  exact lt_of_lt_of_le (by decide) (big_le_growth hP k)

end

/-- the state of a connection after the bytes `xs` have been sent to it -/
def EofState (p : Protocol) (P : Nat) (xs : Bytes) : Status × Conn → Prop
  | (.opened, c) => EofPaused p P xs c
  | (.closed, c) => EofClosed p P xs c
  | (.crashed, _) => EofAborted p P xs

lemma EofState.append {s : Status × Conn} (hs : EofState p P xs s) (hst : s.1 ≠ .opened)
    (ys : Bytes) : EofState p P (xs ++ ys) s := by
  obtain ⟨st, c⟩ := s
  cases st with
  | opened => exact absurd rfl hst
  | closed => exact { hs with received := hs.received.trans (prefix_append _ _) }
  | crashed =>
    obtain ⟨k, hk, zs, hz, hl⟩ := hs
    exact ⟨k, hk, zs, hz.trans (prefix_append _ _), hl⟩

variable (hP : PageSize P) (hd : p.packageEof ≠ []) (hsplit : p.splitByEof = true) (ha : Accepts h)
include hP hd hsplit ha

lemma eof_onRead {es : List RecvEvent} (hes : Segments es) (hc : EofPaused p P xs c) :
    ∃ s, Conn.onRead (recvWithEofProtocol p P h) es (.opened, c) = some s ∧
      EofState p P (xs ++ eventBytes es) s ∧
      (s.1 = .opened → weight s.2.queue < weight (c.queue ++ es) ∨ s.2.queue = []) := by
  obtain ⟨⟨x, c'⟩, he, hx⟩ := eof_recv hP hd hsplit ha (hc.enqueue hes)
  have hq : c'.freeBuffer.queue = c'.queue := by
    unfold Conn.freeBuffer
    split <;> rfl
  refine ⟨(x.status, c'.freeBuffer), by simp only [Conn.onRead, he, Option.map_some], ?_, ?_⟩
  · cases x with
    | ok => exact hx.1.freeBuffer hP
    | err =>
      have hfree : c'.freeBuffer = c' := if_neg fun hf => absurd hf.1 (ne_of_gt hx.pos)
      rw [hfree]
      exact hx
    | abort => exact hx
    | overflow => exact hx.elim
  · cases x with
    | ok =>
      intro _
      rw [hq]
      exact hx.2
    | err | abort | overflow => exact nofun

variable (calls : List (List RecvEvent)) (hseg : ∀ es ∈ calls, Segments es)
include calls hseg

lemma eof_serve : ∃ s, Conn.serve (recvWithEofProtocol p P h) calls = some s ∧
      EofState p P (eventBytes calls.flatten) s := by
  induction calls using reverseRecOn with
  | nil => exact ⟨_, Conn.serve_nil _, EofPaused.init hP⟩
  | append_singleton calls es ih =>
    rw [eventBytes_flatten_snoc]
    obtain ⟨⟨st, c⟩, hs, hc⟩ := ih fun e he => hseg e (mem_append_left _ he)
    have hes := hseg es (mem_concat_self)
    cases st with
    | opened =>
      obtain ⟨s, he, hs', _⟩ := eof_onRead hP hd hsplit ha hes hc
      exact ⟨s, (Conn.serve_snoc hs es).trans he, hs'⟩
    | closed | crashed => exact ⟨_, Conn.serve_snoc hs es, hc.append nofun _⟩

lemma eof_drain : ∃ j s, Conn.serve (recvWithEofProtocol p P h) (calls ++ replicate j []) = some s ∧
      EofState p P (eventBytes calls.flatten) s ∧ (s.1 = .opened → s.2.queue = []) := by
  obtain ⟨s, hs, hc⟩ := eof_serve hP hd hsplit ha calls hseg
  refine Conn.drain (J := EofState p P (eventBytes calls.flatten)) (fun c hc => ?_) hs hc
  obtain ⟨s', he, hs', hq⟩ := eof_onRead hP hd hsplit ha Segments.nil hc
  have hnil : eventBytes calls.flatten ++ eventBytes [] = eventBytes calls.flatten := append_nil _
  rw [hnil] at hs'
  rw [append_nil] at hq
  exact ⟨s', he, hs', hq⟩

end

/-- **EOF-split framing does not depend on segmentation**, exactly if no undelivered tail reaches a size of the
buffer from which it cannot grow in 32 bits. -/
theorem recvWithEofProtocol_frames_iff (p : Protocol) (hsplit : p.splitByEof = true)
    (hd : p.packageEof ≠ []) (P : Nat) (hP : PageSize P) (h : OnPackage) (ha : Accepts h)
    (xs : Bytes) (calls : List (List RecvEvent)) (hc : Cuts calls xs) :
    ((∀ j, ∃ st c, Conn.serve (recvWithEofProtocol p P h) (calls ++ replicate j []) =
          some (st, c) ∧ st ≠ .crashed ∧ c.rcvd <+: xs ∧
        frames (eofLen p.packageEof) c.rcvd = (c.out, c.buffer.str) ∧
        (st = .closed → p.packageMaxLength ≤ c.buffer.length)) ∧
      ∃ j st c, Conn.serve (recvWithEofProtocol p P h) (calls ++ replicate j []) =
          some (st, c) ∧ (st = .opened → c.rcvd = xs)) ↔
    ∀ k, growth P k < p.packageMaxLength → 2^32 ≤ growth P (k + 1) →
      ∀ ys, ys <+: xs → (frames (eofLen p.packageEof) ys).2.length < growth P k := by
  obtain ⟨hseg, rfl⟩ := hc
  have hall := fun j => eof_serve hP hd hsplit ha (calls ++ replicate j []) (segments_replicate_nil hseg j)
  simp only [eventBytes_replicate_nil] at hall
  constructor
  · rintro ⟨hrun, j, st, c, hs, hrcvd⟩ k h1 h2
    obtain ⟨s, hs', hstate⟩ := hall j
    obtain ⟨st', c', hs'', hne, _⟩ := hrun j
    rw [hs] at hs' hs''
    cases hs'
    cases hs''
    cases st with
    | opened =>
      have := hstate.tails
      rw [hrcvd rfl] at this
      exact this k ⟨h1, h2⟩
    | closed => exact absurd ⟨h1, h2⟩ (hstate.safe k)
    | crashed => exact absurd rfl hne
  · intro htails
    have hno : ¬ EofAborted p P (eventBytes calls.flatten) := by
      rintro ⟨k, hk, ys, hys, hl⟩
      have := htails k hk.1 hk.2 ys hys
      omega
    refine ⟨fun j => ?_, ?_⟩
    · obtain ⟨⟨st, c⟩, hs, hstate⟩ := hall j
      refine ⟨st, c, hs, ?_⟩
      cases st with
      | opened => exact ⟨by decide, ⟨_, hstate.bytes⟩, hstate.frames, nofun⟩
      | closed => exact ⟨by decide, hstate.received, hstate.frames, fun _ => hstate.big⟩
      | crashed => exact absurd hstate hno
    · obtain ⟨j, ⟨st, c⟩, hs, hstate, hq⟩ := eof_drain hP hd hsplit ha calls hseg
      refine ⟨j, st, c, hs, fun h0 => ?_⟩
      subst h0
      have hb := EofPaused.bytes hstate
      have hq' : c.queue = [] := hq rfl
      rw [hq'] at hb
      exact (append_nil _).symm.trans hb

def eofConfig (maxLength : Nat) (hm : maxLength < 2^32) : Protocol where
  splitByEof := true
  packageEof := [10]
  packageLengthType := .N
  packageLengthSize := 4
  packageLengthOffset := 0
  packageBodyOffset := 4
  packageMaxLength := maxLength
  eof_le := by decide
  size_lt := defaultSize_lt
  offset_lt := defaultOffset_lt
  body_lt := defaultBody_lt
  max_lt := hm

/-- one package of two bytes, cut before the delimiter -/
theorem recvWithEofProtocol_frames_iff_two :
    ((∀ j, ∃ st c, Conn.serve (recvWithEofProtocol (eofConfig 65536 (by decide)) 4096 (fun _ => .ok))
          ([[.data [1]], [.data [10]]] ++ replicate j []) =
          some (st, c) ∧ st ≠ .crashed ∧ c.rcvd <+: [1, 10] ∧
        frames (eofLen [10]) c.rcvd = (c.out, c.buffer.str) ∧
        (st = .closed → 65536 ≤ c.buffer.length)) ∧
      ∃ j st c, Conn.serve (recvWithEofProtocol (eofConfig 65536 (by decide)) 4096 (fun _ => .ok))
          ([[.data [1]], [.data [10]]] ++ replicate j []) =
          some (st, c) ∧ (st = .opened → c.rcvd = [1, 10])) ↔
    ∀ k, growth 4096 k < 65536 → 2^32 ≤ growth 4096 (k + 1) →
      ∀ ys : Bytes, ys <+: [1, 10] → (frames (eofLen [10]) ys).2.length < growth 4096 k := by
  refine recvWithEofProtocol_frames_iff (eofConfig 65536 (by decide)) rfl (by decide) 4096
    ⟨by decide, by decide⟩ _ (fun _ => .inl rfl) [1, 10]
    [[.data [1]], [.data [10]]] ?_
  decide

lemma first_replicate_ne {x y : UInt8} (h : x ≠ y) (n : Nat) : first [x] (replicate n y) = none := by
  refine (first_eq_none_iff (by simp) _).2 fun j hj => ?_
  rw [drop_replicate] at hj
  have hx : x ∈ replicate (n - j) y := hj.subset (mem_singleton_self x)
  exact h (eq_of_mem_replicate hx)

lemma growth_fifteen : growth 4096 15 = 2281697280 := by decide

/-- with a limit of three gigabytes a package of 2281697280 bytes aborts the process -/
theorem recvWithEofProtocol_aborts :
    ∃ j c, Conn.serve (recvWithEofProtocol (eofConfig 3000000000 (by decide)) 4096 (fun _ => .ok))
      ([[.data (replicate 2281697280 0)]] ++ replicate j []) = some (.crashed, c) := by
  have hlen : (replicate 2281697280 (0 : UInt8)).length = 2281697280 := length_replicate
  have hrisk : Risky (eofConfig 3000000000 (by decide)) 4096 15 := ⟨by decide, by decide⟩
  have hbytes : eventBytes [[RecvEvent.data (replicate 2281697280 0)]].flatten =
      replicate 2281697280 0 := append_nil _
  have hseg : ∀ es ∈ [[RecvEvent.data (replicate 2281697280 0)]], Segments es := by
    intro es hes e he
    rw [mem_singleton.1 hes] at he
    rw [mem_singleton.1 he]
    refine ⟨_, rfl, fun h0 => ?_⟩
    rw [h0] at hlen
    cases hlen
  obtain ⟨j, ⟨st, c⟩, hs, hstate, hq⟩ := eof_drain (p := eofConfig 3000000000 (by decide))
    (P := 4096) (h := fun _ => .ok) ⟨by decide, by decide⟩ (by decide) rfl (fun _ => .inl rfl) _
    hseg
  rw [hbytes] at hstate
  cases st with
  | crashed => exact ⟨j, c, hs⟩
  | closed => exact absurd hrisk (hstate.safe 15)
  | opened =>
    have hb := EofPaused.bytes hstate
    have hq' : c.queue = [] := hq rfl
    rw [hq', show eventBytes [] = [] from rfl, append_nil] at hb
    have ht := EofPaused.tails hstate 15 hrisk c.rcvd (prefix_refl _)
    have hf : first [10] (replicate 2281697280 (0 : UInt8)) = none := first_replicate_ne (by decide) _
    have hfr : frames (eofLen (eofConfig 3000000000 (by decide)).packageEof)
        (replicate 2281697280 0) = ([], replicate 2281697280 0) :=
      frames_stop (eofLen_not_complete hf)
    rw [hb, growth_fifteen, hfr, hlen] at ht
    omega

end OSW
