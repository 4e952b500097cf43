import OpenSwoole.Protocol.Length

/-!
# Where `recv_with_length_protocol` writes

Every `recv` is issued at the end of the buffer.  `Room` is the invariant under which none of them
asks for more than the buffer has left, label by label; it needs a header that fits twice into the
initial buffer and a package length of `0` that can only mean an incomplete header.

* `Room`   the invariant;
* `room_serve`   every run of the read handler keeps it;
* `zeros_run`   without a body offset, zero bytes fill the buffer: the header is asked for again and
    again.
-/

set_option linter.unusedSectionVars false

namespace OSW
open List Machine

section
variable (p : Protocol)

/-- all `recv` calls so far stayed inside the buffer -/
def Conn.Bounded (c : Conn) : Prop := ∀ r ∈ c.reqs, r.InBounds

lemma Conn.Bounded.asked {c : Conn} {n : Nat} (h : c.Bounded)
    (hn : c.buffer.length + n ≤ c.buffer.size) : (c.asked n).Bounded := by
  intro r hr
  rcases mem_append.1 hr with hr | hr
  · exact h r hr
  · rw [mem_singleton.1 hr]
    exact hn

structure Ready (c : Conn) : Prop where
  bounded : c.Bounded
  size : bufferSizeBig ≤ c.buffer.size
  skip : c.skipRecv = false
  wait : c.removed = false → (c.recvWait = true ∧ 0 < c.buffer.length ∧ c.buffer.length < c.buffer.offset ∧
      c.buffer.offset ≤ c.buffer.size) ∨
    (c.recvWait = false ∧ c.buffer.offset = 0 ∧ c.buffer.length < p.headerLen)

/-- at `_do_get_length` and `_do_dispatch`.  Without a body offset there is never more than the
package in the buffer. -/
structure Loaded (c : Conn) : Prop where
  bounded : c.Bounded
  size : bufferSizeBig ≤ c.buffer.size
  skip : c.skipRecv = false
  removed : c.removed = false
  pos : 0 < c.buffer.length
  fits : c.buffer.length ≤ c.buffer.size

def Room : Label × Conn → Prop
  | (.doRecv, c) => Ready p c
  | (.doGetLength, c) => Loaded c ∧ c.recvWait = false ∧ c.buffer.offset = 0 ∧
      (1 ≤ p.packageBodyOffset ∨ c.buffer.length = 1)
  | (.doDispatch, c) => Loaded c ∧ c.recvWait = true ∧ 0 < c.buffer.offset ∧
      c.buffer.offset ≤ c.buffer.length ∧
      (1 ≤ p.packageBodyOffset ∨ c.buffer.length = c.buffer.offset)

def RoomExit (r : Exit × Conn) : Prop := r.2.Bounded ∧ (r.1 = .ok → Ready p r.2)

end

section
variable {p : Protocol} {h : OnPackage} {c : Conn}

lemma recvSize_offset {dyn : Option Nat} (ho : 0 < c.buffer.offset) (hl : c.buffer.length ≤ c.buffer.offset) :
    recvSize p dyn c = (c.buffer.offset - c.buffer.length) % 2^32 := by
  unfold recvSize
  rw [if_pos ho]
  omega

lemma recvSize_header (ho : c.buffer.offset = 0) : recvSize p none c = p.headerLen := by
  unfold recvSize
  rw [if_neg (by omega)]
  rfl

lemma Ready.recvSize_le (hh : p.headerLen ≤ 32768) (hc : Ready p c) (hr : c.removed = false) :
    c.buffer.length + recvSize p none c ≤ c.buffer.size := by
  have hsize := hc.size
  unfold bufferSizeBig at hsize
  rcases hc.wait hr with ⟨_, _, hl, ho⟩ | ⟨_, ho, hl⟩
  · rw [recvSize_offset (by omega) (by omega)]
    omega
  · rw [recvSize_header ho]
    omega

lemma Ready.recvSize_le_offset (hc : Ready p c) (hr : c.removed = false)
    (hw : c.recvWait = true) : c.buffer.length + recvSize p none c ≤ c.buffer.offset := by
  rcases hc.wait hr with ⟨_, _, hl, ho⟩ | ⟨hw', _, _⟩
  · rw [recvSize_offset (by omega) (by omega)]
    omega
  · rw [hw] at hw'
    cases hw'

variable (hp : p.LengthCheck) (hh : p.headerLen ≤ 32768) (hb : 1 ≤ p.packageBodyOffset ∨ p.headerLen = 1)
include hp hh hb

lemma room_doRecv (hc : Ready p c) :
    Steps (lengthStep p none (defaultLengthFunc p) h) (Room p) lengthMeasure (RoomExit p) (.doRecv, c) := by
  show (∃ s', doRecv p none c = .inl s' ∧ _) ∨ ∃ r, doRecv p none c = .inr r ∧ _
  cases hr : c.removed with
  | true =>
    refine .inr ⟨(.ok, c), ?_, hc.bounded, fun _ => hc⟩
    unfold doRecv
    rw [if_pos hr]
  | false =>
    have hfit := hc.recvSize_le hh hr
    have hbd : (c.asked (recvSize p none c)).Bounded := hc.bounded.asked hfit
    rcases doRecv_cases hr with ⟨x, q, he, _, _⟩ | ⟨he, _⟩ | ⟨bs, es, ht, hd⟩
    · exact .inr ⟨_, he, hbd, fun _ => { hc with bounded := hbd }⟩
    · exact .inr ⟨_, he, hbd, nofun⟩
    have hle := ht.le
    have hpos := length_pos_iff.2 ht.ne_nil
    have hwt := ht.weight_le
    rcases hd with ⟨hov, _⟩ | ⟨_, he⟩
    · omega
    have hload : Loaded (c.fed (recvSize p none c) bs es) :=
      ⟨hbd, hc.size, hc.skip, hr, by rw [Conn.fed_length]; omega,
        by rw [Conn.fed_length, Conn.fed_size]; omega⟩
    have hμ := lengthMeasure_fed ht
    cases hw : c.recvWait with
    | true =>
      have hoff := hc.recvSize_le_offset hr hw
      rw [hw, if_pos rfl] at he
      by_cases hge : c.buffer.offset ≤ c.buffer.length + bs.length
      · rw [if_pos hge] at he
        exact .inl ⟨_, he, ⟨hload, hw, by rw [Conn.fed_offset]; omega,
          by rw [Conn.fed_offset, Conn.fed_length]; omega,
          .inr (by rw [Conn.fed_offset, Conn.fed_length]; omega)⟩, hμ _⟩
      · rw [if_neg hge] at he
        refine .inr ⟨_, he, hbd, fun _ => ⟨hbd, hc.size, hc.skip, fun _ => .inl ⟨hw, ?_⟩⟩⟩
        rw [Conn.fed_offset, Conn.fed_length, Conn.fed_size]
        rcases hc.wait hr with ⟨_, _, _, ho⟩ | ⟨hw', _, _⟩
        · omega
        · rw [hw] at hw'
          cases hw'
    | false =>
      have ho : c.buffer.offset = 0 ∧ c.buffer.length < p.headerLen := by
        rcases hc.wait hr with ⟨hw', _⟩ | ⟨_, h1, h2⟩
        · rw [hw] at hw'
          cases hw'
        · exact ⟨h1, h2⟩
      rw [recvSize_header ho.1] at hle
      rw [hw, if_neg Bool.false_ne_true] at he
      refine .inl ⟨_, he, ⟨hload, hw, ho.1, ?_⟩, hμ _⟩
      rw [Conn.fed_length]
      rcases hb with h1 | h1
      · exact .inl h1
      · exact .inr (by omega)

lemma room_doGetLength (hc : Room p (.doGetLength, c)) :
    Steps (lengthStep p none (defaultLengthFunc p) h) (Room p) lengthMeasure (RoomExit p)
      (.doGetLength, c) := by
  obtain ⟨hl, hw, ho, hbody⟩ := hc
  rcases doGetLength_cases (p := p) (f := defaultLengthFunc p) (c := c) with
    ⟨_, he⟩ | ⟨_, _, he⟩ | ⟨hz, hne, he⟩ | ⟨_, he⟩ | ⟨n, _, hn, _, he⟩
  · exact .inr ⟨_, he, hl.bounded, nofun⟩
  · exact .inr ⟨_, he, hl.bounded, nofun⟩
  · refine .inr ⟨_, he, hl.bounded, fun _ => { hl with wait := fun _ => .inr ⟨hw, ho, ?_⟩ }⟩
    rcases hbody with h1 | h1
    · exact defaultLengthFunc_eq_zero hp h1 hz
    · have := hp.headerLen_pos
      show c.buffer.length < p.headerLen
      omega
  · exact .inr ⟨_, he, hl.bounded, nofun⟩
  · have hsz := c.buffer.size_le_expecting n
    have hnsz := c.buffer.le_expecting n
    have hsize := hl.size
    have hfits := hl.fits
    by_cases hge : n ≤ c.buffer.length
    · rw [if_pos hge] at he
      refine .inl ⟨_, he, ⟨{ hl with size := Nat.le_trans hsize hsz, fits := Nat.le_trans hfits hsz },
        rfl, hn, hge, ?_⟩, Nat.lt_succ_self _⟩
      rcases hbody with h1 | h1
      · exact .inl h1
      · exact .inr (show c.buffer.length = n by omega)
    · rw [if_neg hge] at he
      exact .inl ⟨_, he, ⟨hl.bounded, Nat.le_trans hsize hsz, hl.skip,
        fun _ => .inl ⟨rfl, hl.pos, Nat.lt_of_not_le hge, hnsz⟩⟩, Nat.lt_add_of_pos_right Nat.two_pos⟩

lemma room_doDispatch (hc : Room p (.doDispatch, c)) :
    Steps (lengthStep p none (defaultLengthFunc p) h) (Room p) lengthMeasure (RoomExit p)
      (.doDispatch, c) := by
  obtain ⟨hl, hw, ho, hle, hbody⟩ := hc
  have hsize := hl.size
  have hfits := hl.fits
  rcases doDispatch_cases (h := h) hl.removed ho hle with
    ⟨he, _⟩ | ⟨he, _⟩ | ⟨hlt, he⟩ | ⟨_, size, hs, he⟩
  · exact .inr ⟨_, he, hl.bounded, nofun⟩
  · exact .inr ⟨_, he, hl.bounded, fun _ => ⟨hl.bounded, hsize, hl.skip, nofun⟩⟩
  · have hlen : c.advanced.buffer.length = c.buffer.length - c.buffer.offset := length_drop
    refine .inl ⟨_, he, ⟨⟨hl.bounded, hsize, hl.skip, hl.removed, by omega, ?_⟩, rfl, rfl, ?_⟩, ?_⟩
    · show c.advanced.buffer.length ≤ c.buffer.size
      omega
    · rcases hbody with h1 | h1
      · exact .inl h1
      · omega
    · show 3 * (2 * weight c.queue + c.advanced.buffer.length) + 2 <
        3 * (2 * weight c.queue + c.buffer.length) + 1
      omega
  · refine .inr ⟨_, he, hl.bounded, fun _ => ⟨hl.bounded, ?_, hl.skip,
      fun _ => .inr ⟨rfl, rfl, hp.headerLen_pos⟩⟩⟩
    rcases hs with rfl | rfl
    · exact hsize
    · exact le_rfl

lemma room_step (s : Label × Conn) (hs : Room p s) :
    Steps (lengthStep p none (defaultLengthFunc p) h) (Room p) lengthMeasure (RoomExit p) s := by
  obtain ⟨l, c⟩ := s
  cases l with
  | doRecv => exact room_doRecv hp hh hb hs
  | doGetLength => exact room_doGetLength hp hh hb hs
  | doDispatch => exact room_doDispatch hp hh hb hs

lemma room_recv (hc : Ready p c) :
    ∃ r, recvWithLengthProtocol p none (defaultLengthFunc p) h c = some r ∧ RoomExit p r := by
  unfold recvWithLengthProtocol
  rw [hc.skip]
  exact run_spec (room_step hp hh hb) (s := (.doRecv, c)) hc (Nat.lt_succ_self _)

omit hb hh in
lemma Ready.freeBuffer (hc : Ready p c) : Ready p c.freeBuffer := by
  unfold Conn.freeBuffer
  by_cases hf : c.buffer.length = 0 ∧ bufferSizeBig * 2 < c.buffer.size
  · rw [if_pos hf]
    refine ⟨hc.bounded, le_rfl, hc.skip, fun hr => ?_⟩
    rcases hc.wait hr with ⟨_, hpos, _⟩ | ⟨hw, _, _⟩
    · omega
    · exact .inr ⟨hw, rfl, hp.headerLen_pos⟩
  · rw [if_neg hf]
    exact hc

lemma room_serve (calls : List (List RecvEvent)) :
    ∃ s, Conn.serve (recvWithLengthProtocol p none (defaultLengthFunc p) h) calls = some s ∧
      s.2.Bounded ∧ (s.1 = .opened → Ready p s.2) := by
  have hinit : Ready p Conn.init := ⟨nofun, le_rfl, rfl, fun _ => .inr ⟨rfl, rfl, hp.headerLen_pos⟩⟩
  refine iter_spec (A := fun _ => True)
    (J := fun s : Status × Conn => s.2.Bounded ∧ (s.1 = .opened → Ready p s.2))
    ?_ calls (fun _ _ => trivial) ⟨hinit.bounded, fun _ => hinit⟩
  intro es s _ hs
  obtain ⟨st, c⟩ := s
  cases st with
  | closed | crashed => exact ⟨_, rfl, hs⟩
  | opened =>
    have hc := hs.2 rfl
    obtain ⟨⟨x, c'⟩, he, hbd, hok⟩ := room_recv (h := h) hp hh hb
      (c := { c with queue := c.queue ++ es }) { hc with }
    refine ⟨(x.status, c'.freeBuffer), by simp only [Conn.onRead, he, Option.map_some], ?_, ?_⟩
    · have : c'.freeBuffer.reqs = c'.reqs := by
        unfold Conn.freeBuffer
        split <;> rfl
      intro r hr
      exact hbd r (this ▸ hr)
    · intro hx
      cases x with
      | ok => exact (hok rfl).freeBuffer hp
      | err | abort | overflow => cases hx

end

/-! ## filling the buffer with zero bytes -/

section
variable {p : Protocol} {h : OnPackage} {c : Conn} {L : Nat}

/-- `L` zero bytes in the initial buffer, and no package known -/
structure Zeros (L : Nat) (c : Conn) : Prop where
  buffer : c.buffer = ⟨replicate L 0, bufferSizeBig, 0⟩
  recvWait : c.recvWait = false
  skip : c.skipRecv = false
  removed : c.removed = false
  queue : c.queue = []

section
variable (hc : Zeros L c)
include hc

lemma Zeros.freeBuffer : c.freeBuffer = c := by
  unfold Conn.freeBuffer
  rw [hc.buffer]
  exact if_neg fun hf => absurd hf.2 (show ¬ bufferSizeBig * 2 < bufferSizeBig by decide)

lemma Zeros.length : c.buffer.length = L := by
  rw [hc.buffer]
  exact length_replicate

lemma Zeros.ask : Conn.onRead (recvWithLengthProtocol p none (defaultLengthFunc p) h) [] (.opened, c) =
      some (.opened, c.asked p.headerLen) := by
  have hq : { c with queue := c.queue ++ [] } = c := by rw [append_nil]
  have hz : Zeros L (c.asked p.headerLen) := { hc with }
  have hoff : c.buffer.offset = 0 := by rw [hc.buffer]
  have hrecv : c.recv (recvSize p none c) = .error .wait (c.asked p.headerLen) := by
    rw [recvSize_header hoff]
    unfold Conn.recv
    simp only [show (c.asked p.headerLen).queue = [] from hc.queue]
  have hstep : lengthStep p none (defaultLengthFunc p) h (.doRecv, c) =
      .inr (.ok, c.asked p.headerLen) := by
    show doRecv p none c = _
    unfold doRecv
    rw [hc.removed, hrecv]
    rfl
  have hcall : recvWithLengthProtocol p none (defaultLengthFunc p) h c =
      some (.ok, c.asked p.headerLen) := by
    unfold recvWithLengthProtocol
    rw [hc.skip]
    exact run_inr hstep _
  simp only [Conn.onRead, hq, hcall, Option.map_some, hz.freeBuffer, Exit.status]

lemma Zeros.feed {k : Nat} (hk : 0 < k) (hkh : k ≤ p.headerLen) (hfit : L + k ≤ bufferSizeBig)
    (hne : L + k ≠ p.headerLen) (hf : (defaultLengthFunc p (replicate (L + k) 0)).1 = 0) :
    ∃ c', Conn.onRead (recvWithLengthProtocol p none (defaultLengthFunc p) h)
      [.data (replicate k 0)] (.opened, c) = some (.opened, c') ∧ Zeros (L + k) c' := by
  have hk' : (replicate k (0 : UInt8)).length = k := length_replicate
  have hoff : c.buffer.offset = 0 := by rw [hc.buffer]
  let d : Conn := { c with queue := c.queue ++ [.data (replicate k 0)] }
  let e : Conn := d.fed p.headerLen (replicate k 0) []
  have hd : d.queue = [.data (replicate k 0)] := by
    show c.queue ++ _ = _
    rw [hc.queue, nil_append]
  have hstr : e.buffer.str = replicate (L + k) 0 := by
    show c.buffer.str ++ replicate k 0 = _
    rw [hc.buffer, replicate_append_replicate]
  have hlen : e.buffer.length = L + k := by
    show e.buffer.str.length = L + k
    rw [hstr, length_replicate]
  have he : Zeros (L + k) e := by
    refine { hc with buffer := ?_, queue := rfl }
    show OswString.mk e.buffer.str c.buffer.size c.buffer.offset = _
    rw [hstr, hc.buffer]
  have hrecv : d.recv (recvSize p none d) = .data e := by
    rw [recvSize_header (c := d) hoff]
    refine Conn.recv_data hd (fun h0 => ?_) (by omega) ?_ ?_
    · rw [h0, length_nil] at hk'
      omega
    · unfold maxRwCount
      unfold bufferSizeBig at hfit
      omega
    · rw [hc.length, hk', hc.buffer]
      exact hfit
  have hstep1 : lengthStep p none (defaultLengthFunc p) h (.doRecv, d) = .inl (.doGetLength, e) := by
    show doRecv p none d = _
    unfold doRecv
    rw [show d.removed = false from hc.removed, hrecv]
    show (if e.recvWait = true then _ else _) = _
    rw [he.recvWait, if_neg Bool.false_ne_true]
  have hstep2 : lengthStep p none (defaultLengthFunc p) h (.doGetLength, e) = .inr (.ok, e) := by
    show doGetLength p (defaultLengthFunc p) e = _
    unfold doGetLength
    simp only [hstr, hf]
    rw [if_neg (by decide), if_pos trivial, if_neg (by rw [hlen]; exact hne)]
  have hcall : recvWithLengthProtocol p none (defaultLengthFunc p) h d = some (.ok, e) := by
    obtain ⟨m, hm⟩ : ∃ m, lengthMeasure (.doRecv, d) = m + 1 := by
      refine Nat.exists_eq_add_one.2 ?_
      show 0 < 3 * (2 * weight d.queue + d.buffer.length) + 0
      rw [hd]
      show 0 < 3 * (2 * ((replicate k (0 : UInt8)).length + 1 + 0) + d.buffer.length) + 0
      omega
    unfold recvWithLengthProtocol
    rw [show d.skipRecv = false from hc.skip]
    show run _ (lengthMeasure (Label.doRecv, d) + 1) (Label.doRecv, d) = _
    rw [hm, run_inl hstep1, run_inr hstep2]
  refine ⟨e, ?_, he⟩
  show (recvWithLengthProtocol p none (defaultLengthFunc p) h d).map _ = _
  rw [hcall]
  show some (Exit.ok.status, e.freeBuffer) = _
  rw [he.freeBuffer]
  rfl

lemma Zeros.outOfBounds (hL : bufferSizeBig < L + p.headerLen) {calls : List (List RecvEvent)}
    (hs : Conn.serve (recvWithLengthProtocol p none (defaultLengthFunc p) h) calls = some (.opened, c)) :
    ∃ s, Conn.serve (recvWithLengthProtocol p none (defaultLengthFunc p) h) (calls ++ [[]]) = some s ∧
      ¬ s.2.Bounded := by
  refine ⟨(.opened, c.asked p.headerLen), ?_, fun hb => ?_⟩
  · rw [Conn.serve_snoc hs, hc.ask]
  · have hin := hb ⟨c.buffer.length, c.buffer.size, p.headerLen⟩ (mem_concat_self)
    have hle : c.buffer.length + p.headerLen ≤ c.buffer.size := hin
    have hsize : c.buffer.size = bufferSizeBig := by rw [hc.buffer]
    rw [hc.length] at hle
    omega

end

lemma Zeros.init : Zeros 0 Conn.init := ⟨rfl, rfl, rfl, rfl, rfl⟩

lemma zeros_serve {k : Nat} {calls : List (List RecvEvent)}
    (hs : Conn.serve (recvWithLengthProtocol p none (defaultLengthFunc p) h) calls =
      some (.opened, c)) (hc : Zeros L c) (hk : 0 < k) (hkh : k ≤ p.headerLen)
    (hfit : L + k ≤ bufferSizeBig) (hne : L + k ≠ p.headerLen)
    (hf : (defaultLengthFunc p (replicate (L + k) 0)).1 = 0) :
    ∃ c', Conn.serve (recvWithLengthProtocol p none (defaultLengthFunc p) h)
      (calls ++ [[.data (replicate k 0)]]) = some (.opened, c') ∧ Zeros (L + k) c' := by
  obtain ⟨c', he, hc'⟩ := hc.feed (h := h) hk hkh hfit hne hf
  exact ⟨c', by rw [Conn.serve_snoc hs, he], hc'⟩

variable (h)

lemma long_header_run (hp : p.LengthCheck) (h1 : 32768 < p.headerLen) (h2 : p.headerLen ≤ bufferSizeBig) :
    ∃ calls s, Conn.serve (recvWithLengthProtocol p none (defaultLengthFunc p) h) calls = some s ∧
      ¬ s.2.Bounded := by
  have hz : 0 + (p.headerLen - 1) < p.headerLen := by omega
  obtain ⟨c, hs, hc⟩ := zeros_serve (p := p) (h := h) (Conn.serve_nil _) Zeros.init
    (k := p.headerLen - 1) (by omega) (by omega) (by omega) (by omega)
    (by rw [defaultLengthFunc_short hp (by rw [length_replicate]; exact hz)])
  obtain ⟨s, hs', hb⟩ := hc.outOfBounds (by unfold bufferSizeBig at h2 ⊢; omega) hs
  exact ⟨_, s, hs', hb⟩

variable (hp : p.LengthCheck) (hb : p.packageBodyOffset = 0) (h1 : 1 < p.headerLen)
include hp hb h1

lemma zeros_run (j : Nat) (hj : 1 + j * p.headerLen ≤ bufferSizeBig) :
    ∃ calls c, Conn.serve (recvWithLengthProtocol p none (defaultLengthFunc p) h) calls =
      some (.opened, c) ∧ Zeros (1 + j * p.headerLen) c := by
  induction j with
  | zero =>
    obtain ⟨c, hs, hc⟩ := zeros_serve (h := h) (Conn.serve_nil _) Zeros.init
      (k := 1) (by omega) (by omega) (by decide) (by omega) (defaultLengthFunc_zeros hp hb _)
    refine ⟨_, c, hs, ?_⟩
    rw [Nat.zero_mul]
    exact hc
  | succ j ih =>
    have hsucc : 1 + (j + 1) * p.headerLen = 1 + j * p.headerLen + p.headerLen := by
      rw [Nat.succ_mul, add_assoc]
    rw [hsucc] at hj ⊢
    obtain ⟨calls, c, hs, hc⟩ := ih (by omega)
    obtain ⟨c', hs', hc'⟩ := zeros_serve hs hc (k := p.headerLen) (by omega) le_rfl hj
      (by omega) (defaultLengthFunc_zeros hp hb _)
    exact ⟨_, c', hs', hc'⟩

lemma zeros_overrun :
    ∃ calls s, Conn.serve (recvWithLengthProtocol p none (defaultLengthFunc p) h) calls = some s ∧
      ¬ s.2.Bounded := by
  have hdiv := Nat.div_add_mod (bufferSizeBig - 1) p.headerLen
  have hmod := Nat.mod_lt (bufferSizeBig - 1) (show 0 < p.headerLen by omega)
  rw [mul_comm] at hdiv
  have hbig : bufferSizeBig = 65536 := rfl
  obtain ⟨calls, c, hs, hc⟩ := zeros_run h hp hb h1 ((bufferSizeBig - 1) / p.headerLen) (by omega)
  obtain ⟨s, hs', hb'⟩ := hc.outOfBounds (by omega) hs
  exact ⟨_, s, hs', hb'⟩

end

/-- **No `recv` of the read handler reaches behind its buffer**, exactly if the header fits twice into the
initial buffer and either the body offset is positive or the header is a single byte. -/
theorem recvWithLengthProtocol_inBounds_iff (p : Protocol) (hp : p.LengthCheck)
    (hh : p.headerLen ≤ bufferSizeBig) :
    (∀ (h : OnPackage) (calls : List (List RecvEvent)),
      ∃ s, Conn.serve (recvWithLengthProtocol p none (defaultLengthFunc p) h) calls = some s ∧
        ∀ r ∈ s.2.reqs, r.InBounds) ↔
    p.headerLen ≤ 32768 ∧ (1 ≤ p.packageBodyOffset ∨ p.headerLen = 1) := by
  constructor
  · intro hall
    have hno : ¬ ∃ calls s, Conn.serve (recvWithLengthProtocol p none (defaultLengthFunc p)
        (fun _ => .ok)) calls = some s ∧ ¬ s.2.Bounded := by
      rintro ⟨calls, s, hs, hb⟩
      obtain ⟨t, ht, hbt⟩ := hall (fun _ => .ok) calls
      rw [hs] at ht
      cases ht
      exact hb hbt
    have hpos := hp.headerLen_pos
    by_contra hcon
    by_cases hlong : 32768 < p.headerLen
    · exact hno (long_header_run _ hp hlong hh)
    · exact hno (zeros_overrun _ hp (by omega) (by omega))
  · rintro ⟨hlen, hb⟩ h calls
    obtain ⟨s, hs, hbd, _⟩ := room_serve (h := h) hp hlen hb calls
    exact ⟨s, hs, hbd⟩

/-- a `uint32` length in network order at the start of the package, counted from `bodyOffset` -/
def lengthConfig (bodyOffset maxLength : Nat) (hb : bodyOffset < 2^16) (hm : maxLength < 2^32) :
    Protocol where
  splitByEof := false
  packageEof := []
  packageLengthType := .N
  packageLengthSize := 4
  packageLengthOffset := 0
  packageBodyOffset := bodyOffset
  packageMaxLength := maxLength
  eof_le := noEof_le
  size_lt := defaultSize_lt
  offset_lt := defaultOffset_lt
  body_lt := hb
  max_lt := hm

theorem recvWithLengthProtocol_inBounds_iff_four :
    (lengthConfig 4 65536 (by decide) (by decide)).LengthCheck ∧
    ((∀ (h : OnPackage) (calls : List (List RecvEvent)),
      ∃ s, Conn.serve (recvWithLengthProtocol (lengthConfig 4 65536 (by decide) (by decide)) none
          (defaultLengthFunc (lengthConfig 4 65536 (by decide) (by decide))) h) calls = some s ∧
        ∀ r ∈ s.2.reqs, r.InBounds) ↔ 4 ≤ 32768 ∧ (1 ≤ 4 ∨ 4 = 1)) :=
  ⟨⟨rfl, by decide⟩, recvWithLengthProtocol_inBounds_iff _ ⟨rfl, by decide⟩ (by decide)⟩

/-- without a body offset a peer that sends zero bytes makes the handler write behind its buffer -/
theorem recvWithLengthProtocol_outOfBounds :
    ∃ calls s, Conn.serve (recvWithLengthProtocol (lengthConfig 0 65536 (by decide) (by decide))
        none (defaultLengthFunc (lengthConfig 0 65536 (by decide) (by decide))) (fun _ => .ok))
        calls = some s ∧ ∃ r ∈ s.2.reqs, ¬ r.InBounds := by
  obtain ⟨calls, s, hs, hb⟩ := zeros_overrun (fun _ => .ok)
    (p := lengthConfig 0 65536 (by decide) (by decide)) ⟨rfl, by decide⟩ rfl (by decide)
  unfold Conn.Bounded at hb
  push Not at hb
  exact ⟨calls, s, hs, hb⟩

end OSW
