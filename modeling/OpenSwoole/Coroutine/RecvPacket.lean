import OpenSwoole.Protocol.LengthFraming

/-!
# `Socket::recv_packet` of the coroutine client, with the length protocol

`src/coroutine/socket.cc`.  A coroutine waits where a reactor would return: `EAGAIN` suspends it
until the socket is readable or the timer fires.  An event `.error .wait` in the queue is an
`EAGAIN` after which more comes; at the end of the queue the timer fires.

* `CoOp`, `coRun`   a program that calls `recv_packet` and `pop_packet`;
* `CoReady`   the state between two calls: less than a header is left over;
* `recvPacket_spec`   what one call does in such a state.
-/

set_option linter.unusedSectionVars false

namespace OSW

open Framing List Machine Option

/-! ## the code -/

/-- `Socket::recv` on the events `q`: the call is repeated after every `EAGAIN` -/
def coRecv (n : Nat) : List RecvEvent → Conn → RecvRes
  | .error .wait :: es, c => coRecv n es { c.asked n with queue := es }
  | _, c => c.recv n

/-- a return value, a failed assertion or a write behind the end of the buffer -/
inductive PacketExit where
  | ret (r : Int)
  | abort
  | overflow

/-- one turn of `Socket::recv_all`, of whose `n` bytes `total` are there; the pieces are received
directly behind each other -/
def recvAllStep (n : Nat) : Nat × Conn → (Nat × Conn) ⊕ (PacketExit × Conn)
  | (total, c) =>
    match c.recv (n - total) with
    | .error e d =>
      if e = .wait ∧ c.queue.length ≠ 0 then .inl (total, d)
      else .inr (.ret (if total = 0 then -1 else total), d)
    | .eof d => .inr (.ret total, d)
    | .overflow d => .inr (.overflow, d)
    | .data d =>
      let total := total + (d.buffer.length - c.buffer.length)
      if total < n then .inl (total, d) else .inr (.ret total, d)

def recvAll (n : Nat) (c : Conn) : Option (PacketExit × Conn) :=
  run (recvAllStep n) (weight c.queue + 1) (0, c)

inductive PacketLabel where
  | recvHeader
  | getLength
  deriving DecidableEq

section
variable (p : Protocol) (f : LengthFunc)

/-- from `_recv_header` to `_get_length`; `header_len - length` is a `size_t` -/
def recvHeader (headerLen : Nat) (c : Conn) : (PacketLabel × Nat × Conn) ⊕ Option (PacketExit × Conn) :=
  match coRecv ((headerLen + 2^64 - c.buffer.length) % 2^64) c.queue c with
  | .error _ c => .inr (some (.ret (-1), c))
  | .eof c => .inr (some (.ret 0, c))
  | .overflow c => .inr (some (.overflow, c))
  | .data c => .inl (.getLength, headerLen, c)

/-- the end of the function: the rest of a packet of `n` bytes -/
def recvBody (n : Nat) (c : Conn) : Option (PacketExit × Conn) :=
  match (if c.buffer.size < n then c.buffer.extend n else some c.buffer) with
  | none => some (.abort, c)
  | some b =>
    (recvAll (n - c.buffer.length) { c with buffer := b }).map fun (r, c) =>
      match r with
      | .ret r => if 0 < r then (.ret (if c.buffer.length = n then (n : Int) else 0), c) else (.ret r, c)
      | x => (x, c)

def getLength (headerLen : Nat) (c : Conn) : (PacketLabel × Nat × Conn) ⊕ Option (PacketExit × Conn) :=
  let (packetLen, realHeaderLength) := f c.buffer.str
  if packetLen < 0 then .inr (some (.ret 0, c))
  else if packetLen = 0 then
    .inl (.recvHeader, if realHeaderLength = 0 then headerLen else realHeaderLength, c)
  else if p.packageMaxLength < packetLen then
    .inr (some (.ret (-1), { c with buffer := c.buffer.clear }))
  else
    let n := packetLen.toNat
    let c := { c with buffer := { c.buffer with offset := n } }
    if n ≤ c.buffer.length then .inr (some (.ret n, c)) else .inr (recvBody n c)

def packetStep : PacketLabel × Nat × Conn → (PacketLabel × Nat × Conn) ⊕ Option (PacketExit × Conn)
  | (.recvHeader, headerLen, c) => recvHeader headerLen c
  | (.getLength, headerLen, c) => getLength p f headerLen c

/-- `Socket::recv_packet_with_length_protocol`; a custom length function has no length type -/
def recvPacketWithLengthProtocol (c : Conn) : Option (PacketExit × Conn) :=
  let label := if 0 < c.buffer.length ∧ (p.headerLen ≤ c.buffer.length ∨
    (p.packageLengthSize = 0 ∧ p.packageLengthType = .none)) then PacketLabel.getLength
    else PacketLabel.recvHeader
  (run (packetStep p f) (2 * weight c.queue + 2) (label, p.headerLen, c)).join

/-- `Socket::recv_packet`; `out` records the packets returned -/
def recvPacket (c : Conn) : Option (PacketExit × Conn) :=
  let c := if 0 < c.buffer.offset then { c with buffer := c.buffer.reduce c.buffer.offset } else c
  (recvPacketWithLengthProtocol p f c).map fun (x, c) =>
    match x with
    | .ret r =>
      if r ≤ 0 then (.ret r, { c with buffer := c.buffer.clear })
      else (.ret r, { c with out := c.out ++ [c.buffer.str.take r.toNat] })
    | x => (x, c)

end

def popPacket (c : Conn) : Conn :=
  if c.buffer.offset = 0 then c else { c with buffer := c.buffer.pop bufferSizeBig }

/-- what a program does with its socket; `unavailable` is `recv_packet` on a socket that is not available or
whose timer does not start -/
inductive CoOp where
  | recvPacket (es : List RecvEvent)
  | unavailable
  | popPacket

section
variable (p : Protocol) (f : LengthFunc)

def Conn.enqueue (c : Conn) (es : List RecvEvent) : Conn := { c with queue := c.queue ++ es }

def PacketExit.status : PacketExit → Status
  | .ret _ => .opened
  | .abort | .overflow => .crashed

def coStep : CoOp → Status × Conn → Option (Status × Conn)
  | .recvPacket es, (.opened, c) => (recvPacket p f (c.enqueue es)).map fun r => (r.1.status, r.2)
  | .popPacket, (.opened, c) => some (.opened, popPacket c)
  | _, s => some s

def coRun (ops : List CoOp) : Option (Status × Conn) := iter (coStep p f) ops (.opened, Conn.init)

end

/-- the bytes sent and not yet returned in a packet -/
def Conn.todo (c : Conn) : Bytes := c.buffer.str.drop c.buffer.offset ++ eventBytes c.queue

/-! ## receiving in a coroutine -/

/-- `d` is `c` after calls of `recv` that brought nothing, each for `n` bytes -/
structure Waited (n : Nat) (c d : Conn) : Prop where
  buffer : d.buffer = c.buffer
  out : d.out = c.out
  bytes : eventBytes d.queue = eventBytes c.queue
  weight_le : weight d.queue ≤ weight c.queue
  bounded : c.Bounded → c.buffer.length + n ≤ c.buffer.size → d.Bounded

lemma Waited.asked (n : Nat) (c : Conn) : Waited n c (c.asked n) :=
  ⟨rfl, rfl, rfl, le_rfl, fun h1 h2 => h1.asked h2⟩

lemma Waited.trans {n : Nat} {c d e : Conn} (h1 : Waited n c d) (h2 : Waited n d e) : Waited n c e := by
  refine ⟨h2.buffer.trans h1.buffer, h2.out.trans h1.out, h2.bytes.trans h1.bytes,
    le_trans h2.weight_le h1.weight_le, fun hb hl => h2.bounded (h1.bounded hb hl) ?_⟩
  rw [h1.buffer]
  exact hl

/-- what a call of `recv` for `n` bytes can return -/
def Outcome (n : Nat) (c : Conn) (r : RecvRes) : Prop :=
  ∃ d, Waited n c d ∧ ((∃ e, r = .error e d) ∨ r = .eof d ∨ ∃ bs es, Taken d.queue n bs es ∧
        ((c.buffer.size < c.buffer.length + bs.length ∧ r = .overflow d) ∨
          (c.buffer.length + bs.length ≤ c.buffer.size ∧ r = .data (d.got bs es))))

lemma recv_outcome (n : Nat) (c : Conn) : Outcome n c (c.recv n) := by
  rcases c.recv_cases n with ⟨e, q, he, ⟨hw, hb⟩, _⟩ | ⟨he, _⟩ | ⟨bs, es, ht, hd⟩
  · refine ⟨{ c.asked n with queue := q }, ⟨rfl, rfl, hb, ?_, fun h1 h2 => h1.asked h2⟩, .inl ⟨e, he⟩⟩
    rcases hw with ⟨_, rfl⟩ | hlt
    · exact Nat.zero_le _
    · exact le_of_lt hlt
  · exact ⟨c.asked n, Waited.asked n c, .inr (.inl he)⟩
  · exact ⟨c.asked n, Waited.asked n c, .inr (.inr ⟨bs, es, ht, hd⟩)⟩

lemma Outcome.of_waited {n : Nat} {c d : Conn} {r : RecvRes} (hw : Waited n c d)
    (h : Outcome n d r) : Outcome n c r := by
  obtain ⟨e, he, hr⟩ := h
  rw [hw.buffer] at hr
  exact ⟨e, hw.trans he, hr⟩

lemma coRecv_outcome (n : Nat) (q : List RecvEvent) (c : Conn) (hq : c.queue = q) :
    Outcome n c (coRecv n q c) := by
  induction q generalizing c with
  | nil => exact recv_outcome n c
  | cons e es ih =>
    cases e with
    | data bs | eof => exact recv_outcome n c
    | error x =>
      cases x with
      | wait =>
        have hw : Waited n c { c.asked n with queue := es } := by
          refine ⟨rfl, rfl, ?_, ?_, fun h1 h2 => h1.asked h2⟩
          · rw [hq]
            rfl
          · rw [hq]
            exact Nat.le_add_left _ _
        exact Outcome.of_waited hw (ih _ rfl)
      | close | error | invalid => exact recv_outcome n c

/-! ## one call of `recv_packet` -/

/-- inside a call: `A` are the bytes that were to come when it began -/
structure InCall (A : Bytes) (o : List Bytes) (c : Conn) : Prop where
  bounded : c.Bounded
  size : bufferSizeBig ≤ c.buffer.size
  fits : c.buffer.length ≤ c.buffer.size
  bytes : c.buffer.str ++ eventBytes c.queue = A
  out : c.out = o

section
variable {A : Bytes} {o : List Bytes} {c d : Conn} {n : Nat}

lemma InCall.waited (hc : InCall A o c) (hw : Waited n c d)
    (hn : c.buffer.length + n ≤ c.buffer.size) : InCall A o d := by
  refine ⟨hw.bounded hc.bounded hn, ?_, ?_, ?_, hw.out.trans hc.out⟩
  · rw [hw.buffer]
    exact hc.size
  · rw [hw.buffer]
    exact hc.fits
  · rw [hw.buffer, hw.bytes]
    exact hc.bytes

lemma InCall.got {bs : Bytes} {es : List RecvEvent} (hc : InCall A o d)
    (ht : Taken d.queue n bs es) (hfit : d.buffer.length + bs.length ≤ d.buffer.size) :
    InCall A o (d.got bs es) := by
  refine ⟨hc.bounded, hc.size, ?_, ?_, hc.out⟩
  · show (d.buffer.str ++ bs).length ≤ d.buffer.size
    rw [length_append]
    exact hfit
  · show (d.buffer.str ++ bs) ++ eventBytes es = A
    rw [append_assoc, ← ht.bytes]
    exact hc.bytes

/-- inside `recv_all`: what is still to come fits into the buffer -/
structure InRecvAll (A : Bytes) (o : List Bytes) (n offset : Nat) (s : Nat × Conn) : Prop
    extends InCall A o s.2 where
  offset_eq : s.2.buffer.offset = offset
  more : s.1 < n
  room : s.2.buffer.length + (n - s.1) ≤ s.2.buffer.size

lemma recvAll_step {offset : Nat} (s : Nat × Conn) (hs : InRecvAll A o n offset s) :
    Steps (recvAllStep n) (InRecvAll A o n offset) (fun s => weight s.2.queue)
      (fun x => ∃ r, x.1 = .ret r ∧ InCall A o x.2 ∧ x.2.buffer.offset = offset) s := by
  obtain ⟨total, e⟩ := s
  obtain ⟨he, ho, hlt, hroom⟩ := hs
  change e.buffer.length + (n - total) ≤ e.buffer.size at hroom
  unfold Steps recvAllStep
  rcases e.recv_cases (n - total) with ⟨x, q, hr, ⟨hw, hb⟩, _⟩ | ⟨hr, _⟩ | ⟨bs, es, ht, hd⟩
  · have hin : InCall A o { e.asked (n - total) with queue := q } :=
      ⟨he.bounded.asked hroom, he.size, he.fits, by
        rw [hb]
        exact he.bytes, he.out⟩
    simp only [hr]
    by_cases hcont : x = .wait ∧ e.queue.length ≠ 0
    · rw [if_pos hcont]
      refine .inl ⟨_, rfl, ⟨hin, ho, hlt, hroom⟩, ?_⟩
      rcases hw with ⟨hnil, _⟩ | hw
      · rw [hnil] at hcont
        exact absurd rfl hcont.2
      · exact hw
    · rw [if_neg hcont]
      exact .inr ⟨_, rfl, _, rfl, hin, ho⟩
  · simp only [hr]
    exact .inr ⟨_, rfl, _, rfl, he.waited (Waited.asked _ e) hroom, ho⟩
  · have hle := ht.le
    have hpos := length_pos_iff.mpr ht.ne_nil
    have hwt := ht.weight_le
    rcases hd with ⟨hov, _⟩ | ⟨hfit', hr⟩
    · omega
    have hin := (he.waited (Waited.asked (n - total) e) hroom).got (d := e.asked (n - total)) ht hfit'
    have hlen : ((e.asked (n - total)).got bs es).buffer.length = e.buffer.length + bs.length :=
      length_append
    simp only [hr, hlen, Nat.add_sub_cancel_left]
    by_cases hmore : total + bs.length < n
    · rw [if_pos hmore]
      refine .inl ⟨_, rfl, ⟨hin, ho, hmore, ?_⟩, ?_⟩
      · show ((e.asked (n - total)).got bs es).buffer.length + (n - (total + bs.length)) ≤ e.buffer.size
        omega
      · show weight es < weight e.queue
        omega
    · rw [if_neg hmore]
      exact .inr ⟨_, rfl, _, rfl, hin, ho⟩

lemma recvAll_spec (hc : InCall A o c) (hn : 0 < n) (hfit : c.buffer.length + n ≤ c.buffer.size) :
    ∃ r d, recvAll n c = some (.ret r, d) ∧ InCall A o d ∧ d.buffer.offset = c.buffer.offset := by
  obtain ⟨⟨x, d⟩, hrun, r, hx, hd, hod⟩ := run_spec (recvAll_step (n := n)) (s := (0, c))
    ⟨hc, rfl, hn, hfit⟩ (Nat.lt_succ_self _)
  subst hx
  exact ⟨r, d, hrun, hd, hod⟩

/-- the loop of `recv_packet_with_length_protocol`: at most a header is in the buffer -/
structure InPacket (p : Protocol) (A : Bytes) (o : List Bytes) (s : PacketLabel × Nat × Conn) : Prop
    extends InCall A o s.2.2 where
  header : s.2.1 = p.headerLen
  offset : s.2.2.buffer.offset = 0
  length : s.2.2.buffer.length ≤ p.headerLen

/-- a packet of `n` bytes is at the head of the buffer, and less than a header behind it -/
structure Returned (p : Protocol) (A : Bytes) (o : List Bytes) (n : Nat) (d : Conn) : Prop
    extends InCall A o d where
  offset : d.buffer.offset = n
  le : n ≤ d.buffer.length
  declared : declaredLen p A = some n
  left : d.buffer.length - n < p.headerLen

def PacketDone (p : Protocol) (A : Bytes) (o : List Bytes) (x : Option (PacketExit × Conn)) : Prop :=
  ∃ r d, x = some (.ret r, d) ∧ d.Bounded ∧ bufferSizeBig ≤ d.buffer.size ∧ d.out = o ∧
    (0 < r → Returned p A o r.toNat d)

def packetMeasure (s : PacketLabel × Nat × Conn) : Nat :=
  2 * weight s.2.2.queue + if s.1 = .getLength then 1 else 0

variable {p : Protocol} (hp : p.LengthCheck) (hh : p.headerLen ≤ bufferSizeBig)
include hp hh

lemma packet_recvHeader {m : Nat} (hs : InPacket p A o (.recvHeader, m, c)) :
    Steps (packetStep p (defaultLengthFunc p)) (InPacket p A o) packetMeasure
      (PacketDone p A o) (.recvHeader, m, c) := by
  obtain ⟨hc, hm, ho, hl⟩ := hs
  change InCall A o c at hc
  change m = p.headerLen at hm
  change c.buffer.length ≤ p.headerLen at hl
  have hbig : bufferSizeBig = 65536 := rfl
  have hsize := hc.size
  have hask : (m + 2^64 - c.buffer.length) % 2^64 = p.headerLen - c.buffer.length := by omega
  have hroom : c.buffer.length + (p.headerLen - c.buffer.length) ≤ c.buffer.size := by omega
  show (∃ s', recvHeader m c = .inl s' ∧ _) ∨ ∃ r, recvHeader m c = .inr r ∧ _
  unfold recvHeader
  rw [hask]
  obtain ⟨d, hw, hr⟩ := coRecv_outcome (p.headerLen - c.buffer.length) c.queue c rfl
  have hd := hc.waited hw hroom
  rcases hr with ⟨e, hr⟩ | hr | ⟨bs, es, ht, hr⟩
  · rw [hr]
    exact .inr ⟨_, rfl, _, d, rfl, hd.bounded, hd.size, hd.out, nofun⟩
  · rw [hr]
    exact .inr ⟨_, rfl, _, d, rfl, hd.bounded, hd.size, hd.out, nofun⟩
  · have hle := ht.le
    have hpos := length_pos_iff.2 ht.ne_nil
    have hwt := ht.weight_le
    have hwd := hw.weight_le
    rcases hr with ⟨hov, _⟩ | ⟨hfit, hr⟩
    · omega
    have hlen : (d.got bs es).buffer.length = c.buffer.length + bs.length := by
      show (d.buffer.str ++ bs).length = _
      rw [length_append, hw.buffer]
      rfl
    rw [← hw.buffer] at hfit
    rw [hr]
    refine .inl ⟨_, rfl, ⟨hd.got ht hfit, hm, ?_, ?_⟩, ?_⟩
    · show d.buffer.offset = 0
      rw [hw.buffer]
      exact ho
    · show (d.got bs es).buffer.length ≤ p.headerLen
      omega
    · show 2 * weight es + 1 < 2 * weight c.queue + 0
      omega

lemma recvBody_spec {n : Nat} (hc : InCall A o c) (ho : c.buffer.offset = n)
    (hn : c.buffer.length < n) (hd : declaredLen p A = some n) :
    PacketDone p A o (recvBody n c) := by
  have hsz : c.buffer.size ≤ (c.buffer.expecting n).size := c.buffer.size_le_expecting n
  have hnsz : n ≤ (c.buffer.expecting n).size := c.buffer.le_expecting n
  have hext : (if c.buffer.size < n then c.buffer.extend n else some c.buffer) =
      some { c.buffer with size := (c.buffer.expecting n).size } := by
    unfold OswString.extend OswString.expecting
    by_cases hlt : c.buffer.size < n
    · simp only [if_pos hlt]
    · simp only [if_neg hlt]
  have hgrown : InCall A o { c with
      buffer := { c.buffer with size := (c.buffer.expecting n).size } } :=
    ⟨hc.bounded, le_trans hc.size hsz, le_trans hc.fits hsz, hc.bytes, hc.out⟩
  obtain ⟨r, d, hall, hin, hoff⟩ := recvAll_spec (n := n - c.buffer.length) hgrown (by omega)
    (by show c.buffer.length + (n - c.buffer.length) ≤ (c.buffer.expecting n).size; omega)
  unfold recvBody
  rw [hext]
  simp only [hall, map_some]
  by_cases hr : 0 < r
  · simp only [if_pos hr]
    refine ⟨_, d, rfl, hin.bounded, hin.size, hin.out, fun h0 => ?_⟩
    by_cases hfull : d.buffer.length = n
    · rw [if_pos hfull, Int.toNat_natCast]
      have hpos := hp.headerLen_pos
      exact ⟨hin, hoff.trans ho, by omega, hd, by omega⟩
    · rw [if_neg hfull] at h0
      cases h0
  · simp only [if_neg hr]
    exact ⟨r, d, rfl, hin.bounded, hin.size, hin.out, fun h0 => absurd h0 hr⟩

lemma packet_getLength {m : Nat} (hs : InPacket p A o (.getLength, m, c)) :
    Steps (packetStep p (defaultLengthFunc p)) (InPacket p A o) packetMeasure
      (PacketDone p A o) (.getLength, m, c) := by
  obtain ⟨hc, hm, ho, hl⟩ := hs
  change InCall A o c at hc
  change c.buffer.length ≤ p.headerLen at hl
  have hbig : bufferSizeBig = 65536 := rfl
  have hagain : ∀ k : Nat, k = p.headerLen → InPacket p A o (.recvHeader, k, c) ∧
        packetMeasure (.recvHeader, k, c) < packetMeasure (.getLength, m, c) :=
    fun k hk => ⟨⟨hc, hk, ho, hl⟩, Nat.lt_succ_self _⟩
  show (∃ s', getLength p (defaultLengthFunc p) m c = .inl s' ∧ _) ∨
    ∃ r, getLength p (defaultLengthFunc p) m c = .inr r ∧ _
  unfold getLength
  by_cases hshort : c.buffer.str.length < p.headerLen
  · rw [defaultLengthFunc_short hp hshort]
    refine .inl ⟨_, rfl, hagain _ ?_⟩
    split <;> omega
  have hfull : p.headerLen ≤ c.buffer.str.length := by omega
  have hA : lengthField p A = lengthField p c.buffer.str := by
    rw [← hc.bytes]
    exact lengthField_append hp hfull _
  have hAl : p.headerLen ≤ A.length := by
    rw [← hc.bytes, length_append]
    omega
  rw [defaultLengthFunc_full hp hfull]
  by_cases hneg : unpack p.packageLengthType (c.buffer.str.drop p.packageLengthOffset) < 0
  · rw [if_pos hneg]
    exact .inr ⟨_, rfl, _, c, rfl, hc.bounded, hc.size, hc.out, nofun⟩
  rw [if_neg hneg]
  have hbody := p.body_lt
  have hu := unpack_lt p.packageLengthType (c.buffer.str.drop p.packageLengthOffset)
  simp only
  generalize hw : p.packageBodyOffset +
    (unpack p.packageLengthType (c.buffer.str.drop p.packageLengthOffset)).toNat = t
  by_cases h31 : t < 2^31
  · rw [toSigned_of_lt (w := 32) h31, if_neg (by omega)]
    by_cases h0 : t = 0
    · rw [if_pos (by omega), if_pos trivial]
      exact .inl ⟨_, rfl, hagain m hm⟩
    rw [if_neg (by omega)]
    by_cases hmax : (p.packageMaxLength : Int) < t
    · rw [if_pos hmax]
      exact .inr ⟨_, rfl, _, _, rfl, hc.bounded, hc.size, hc.out, nofun⟩
    rw [if_neg hmax, Int.toNat_natCast]
    have hdecl : declaredLen p A = some t := by
      rw [declaredLen_full hAl, hA]
      unfold lengthField
      congr 1
      omega
    have hin : InCall A o { c with buffer := { c.buffer with offset := t } } := { hc with }
    by_cases hle : t ≤ c.buffer.length
    · refine .inr ⟨_, if_pos hle, _, _, rfl, hc.bounded, hc.size, hc.out, fun _ => ?_⟩
      exact ⟨hin, rfl, hle, hdecl, show c.buffer.length - t < p.headerLen by omega⟩
    · exact .inr ⟨_, if_neg hle, recvBody_spec hp hh hin rfl (Nat.lt_of_not_le hle) hdecl⟩
  · have hnegative := toSigned_neg (w := 32) (Nat.le_of_not_lt h31) (by omega)
    rw [if_pos hnegative]
    exact .inr ⟨_, rfl, _, c, rfl, hc.bounded, hc.size, hc.out, nofun⟩

lemma packet_step (s : PacketLabel × Nat × Conn) (hs : InPacket p A o s) :
    Steps (packetStep p (defaultLengthFunc p)) (InPacket p A o) packetMeasure (PacketDone p A o) s := by
  obtain ⟨l, m, c⟩ := s
  cases l with
  | recvHeader => exact packet_recvHeader hp hh hs
  | getLength => exact packet_getLength hp hh hs

end

lemma Conn.reduced_eq (c : Conn) :
    (if 0 < c.buffer.offset then { c with buffer := c.buffer.reduce c.buffer.offset } else c) =
      { c with buffer := { c.buffer with str := c.buffer.str.drop c.buffer.offset, offset := 0 } } := by
  unfold OswString.reduce
  by_cases h0 : 0 < c.buffer.offset
  · rw [if_pos h0, if_neg (ne_of_gt h0)]
  · have hz : c.buffer.offset = 0 := Nat.eq_zero_of_not_pos h0
    rw [if_neg h0]
    rw [hz, drop_zero]
    conv_lhs => rw [show c = { c with buffer := ⟨c.buffer.str, c.buffer.size, c.buffer.offset⟩ }
      from rfl, hz]

structure CoReady (p : Protocol) (c : Conn) : Prop where
  bounded : c.Bounded
  size : bufferSizeBig ≤ c.buffer.size
  fits : c.buffer.length ≤ c.buffer.size
  offset : c.buffer.offset ≤ c.buffer.length
  left : c.buffer.length - c.buffer.offset < p.headerLen

/-- one call: a returned packet is the slice of the declared length at the head of the bytes to
come -/
structure NextSlice (p : Protocol) (c c' : Conn) (n : Nat) : Prop where
  declared : declaredLen p c.todo = some n
  packet : c'.out = c.out ++ [c.todo.take n]
  rest : c'.todo = c.todo.drop n

section
variable {p : Protocol} {c : Conn} (hp : p.LengthCheck) (hh : p.headerLen ≤ bufferSizeBig)
include hp hh

lemma recvPacket_spec (hc : CoReady p c) :
    ∃ r d, recvPacket p (defaultLengthFunc p) c = some (.ret r, d) ∧ CoReady p d ∧
      (0 < r → NextSlice p c d r.toNat) := by
  have hpos := hp.headerLen_pos
  have hlen : (c.buffer.str.drop c.buffer.offset).length = c.buffer.length - c.buffer.offset := length_drop
  have hleft := hc.left
  have hfits := hc.fits
  let e : Conn := { c with buffer := { c.buffer with
    str := c.buffer.str.drop c.buffer.offset, offset := 0 } }
  have hred : _ = e := c.reduced_eq
  have hin : InCall c.todo c.out e :=
    ⟨hc.bounded, hc.size,
      show (c.buffer.str.drop c.buffer.offset).length ≤ c.buffer.size by omega, rfl, rfl⟩
  have hstart : ¬ (0 < e.buffer.length ∧ (p.headerLen ≤ e.buffer.length ∨
      (p.packageLengthSize = 0 ∧ p.packageLengthType = .none))) := by
    rintro ⟨_, hge | ⟨_, hnone⟩⟩
    · change p.headerLen ≤ (c.buffer.str.drop c.buffer.offset).length at hge
      omega
    · exact hp.type_ne hnone
  obtain ⟨x, hrun, r, d, rfl, hbd, hsz, hout, hret⟩ := run_spec
    (packet_step (A := c.todo) (o := c.out) hp hh)
    (s := (.recvHeader, p.headerLen, e)) (n := 2 * weight e.queue + 2)
    ⟨hin, rfl, rfl, show (c.buffer.str.drop c.buffer.offset).length ≤ _ by omega⟩
    (show 2 * weight e.queue + 0 < _ by omega)
  unfold recvPacket recvPacketWithLengthProtocol
  simp only [hred, if_neg hstart, hrun, join_some, map_some]
  by_cases hr : r ≤ 0
  · rw [if_pos hr]
    exact ⟨r, _, rfl, ⟨hbd, hsz, Nat.zero_le _, le_rfl, hpos⟩,
      fun h0 => absurd hr (not_le.mpr h0)⟩
  · rw [if_neg hr]
    have hd := hret (not_le.mp hr)
    have hle := hd.le
    refine ⟨r, _, rfl, ⟨hbd, hsz, hd.fits, ?_, ?_⟩, fun _ => ⟨hd.declared, ?_, ?_⟩⟩
    · rw [hd.offset]
      exact hle
    · rw [hd.offset]
      exact hd.left
    · rw [hout, ← hd.bytes, take_append_of_le_length hle]
    · show d.buffer.str.drop d.buffer.offset ++ eventBytes d.queue = _
      rw [hd.offset, ← hd.bytes, drop_append_of_le_length hle]

omit hp in
lemma CoReady.pop (hc : CoReady p c) : CoReady p (popPacket c) := by
  have hlen : (c.buffer.str.drop c.buffer.offset).length = c.buffer.length - c.buffer.offset := length_drop
  have hleft := hc.left
  unfold popPacket
  by_cases h0 : c.buffer.offset = 0
  · rw [if_pos h0]
    exact hc
  · rw [if_neg h0]
    have hsz : bufferSizeBig ≤ (c.buffer.pop bufferSizeBig).size := by
      refine le_trans ?_ (le_memAlignedSize _)
      split
      · exact le_rfl
      · exact le_max_right _ _
    refine ⟨hc.bounded, hsz, ?_, Nat.zero_le _, ?_⟩
    · refine le_trans ?_ hsz
      show (c.buffer.str.drop c.buffer.offset).length ≤ _
      omega
    · show (c.buffer.str.drop c.buffer.offset).length - 0 < _
      omega

/-- **the invariant over whole programs** -/
theorem coRun_spec (ops : List CoOp) :
    ∃ c, coRun p (defaultLengthFunc p) ops = some (.opened, c) ∧ CoReady p c := by
  have hinit : CoReady p Conn.init := ⟨nofun, le_rfl, Nat.zero_le _, le_rfl, hp.headerLen_pos⟩
  have hstep : ∀ op s, True → (s.1 = Status.opened ∧ CoReady p s.2) →
      ∃ s', coStep p (defaultLengthFunc p) op s = some s' ∧ s'.1 = .opened ∧ CoReady p s'.2 := by
    rintro op ⟨st, c⟩ _ ⟨hst, hc⟩
    subst hst
    cases op with
    | recvPacket es =>
      obtain ⟨r, d, he, hd, _⟩ := recvPacket_spec hp hh (c := c.enqueue es) { hc with }
      exact ⟨(.opened, d), by simp only [coStep, he, map_some, PacketExit.status], rfl, hd⟩
    | unavailable => exact ⟨_, rfl, rfl, hc⟩
    | popPacket => exact ⟨_, rfl, rfl, hc.pop hh⟩
  obtain ⟨⟨st, c⟩, hrun, hst, hc⟩ := iter_spec hstep ops (fun _ _ => trivial)
    (s := (.opened, Conn.init)) ⟨rfl, hinit⟩
  subst hst
  exact ⟨c, hrun, hc⟩

end

lemma recvPacket_first (p : Protocol) (f : LengthFunc) : recvPacket p f Conn.init =
      some (.ret (-1), { Conn.init.asked p.headerLen with buffer := Conn.init.buffer.clear }) := by
  have hoff := p.offset_lt
  have hsize := p.size_lt
  have hask : (p.headerLen + 2^64 - 0) % 2^64 = p.headerLen := by
    unfold Protocol.headerLen
    omega
  have hstep : packetStep p f (.recvHeader, p.headerLen, Conn.init) =
      .inr (some (.ret (-1), Conn.init.asked p.headerLen)) := by
    show recvHeader p.headerLen Conn.init = _
    unfold recvHeader
    rw [show Conn.init.buffer.length = 0 from rfl, hask]
    rfl
  have hstart : ¬ (0 < Conn.init.buffer.length ∧ (p.headerLen ≤ Conn.init.buffer.length ∨
      (p.packageLengthSize = 0 ∧ p.packageLengthType = .none))) :=
    fun h0 => absurd h0.1 (by decide)
  unfold recvPacket recvPacketWithLengthProtocol
  simp only [if_neg (show ¬ 0 < Conn.init.buffer.offset by decide), if_neg hstart, run_inr hstep]
  rfl

/-- **The coroutine client stays in its read buffer** exactly if the header fits into the initial buffer. -/
theorem recvPacket_inBounds_iff (p : Protocol) (hp : p.LengthCheck) :
    (∀ ops, ∃ s, coRun p (defaultLengthFunc p) ops = some s ∧ (∀ r ∈ s.2.reqs, r.InBounds) ∧
      ∀ es, ∃ x d, recvPacket p (defaultLengthFunc p) (s.2.enqueue es) = some (x, d) ∧
        ∀ r, x = .ret r → 0 < r → NextSlice p (s.2.enqueue es) d r.toNat) ↔
    p.headerLen ≤ bufferSizeBig := by
  constructor
  · intro hall
    obtain ⟨s, hs, hb, _⟩ := hall [.recvPacket []]
    by_contra hgt
    have hrun : coRun p (defaultLengthFunc p) [.recvPacket []] =
        some (.opened, { Conn.init.asked p.headerLen with buffer := Conn.init.buffer.clear }) := by
      have hstep : coStep p (defaultLengthFunc p) (.recvPacket []) (.opened, Conn.init) =
          some (.opened, { Conn.init.asked p.headerLen with buffer := Conn.init.buffer.clear }) := by
        simp only [coStep, show Conn.init.enqueue [] = Conn.init from rfl, recvPacket_first,
          map_some, PacketExit.status]
      unfold coRun Machine.iter
      rw [hstep]
      rfl
    rw [hrun] at hs
    cases hs
    have := hb ⟨0, bufferSizeBig, p.headerLen⟩ (mem_singleton_self _)
    change 0 + p.headerLen ≤ bufferSizeBig at this
    omega
  · intro hh ops
    obtain ⟨c, hrun, hc⟩ := coRun_spec hp hh ops
    refine ⟨_, hrun, hc.bounded, fun es => ?_⟩
    obtain ⟨r, d, he, _, hn⟩ := recvPacket_spec hp hh (c := c.enqueue es) { hc with }
    refine ⟨_, d, he, fun r' hr' hpos => ?_⟩
    cases hr'
    exact hn hpos

/-- a length field of four bytes at the largest offset there is -/
def farConfig : Protocol where
  splitByEof := false
  packageEof := []
  packageLengthType := .N
  packageLengthSize := 4
  packageLengthOffset := 65535
  packageBodyOffset := 0
  packageMaxLength := 2 * 1024 * 1024
  eof_le := noEof_le
  size_lt := defaultSize_lt
  offset_lt := by decide
  body_lt := defaultOffset_lt
  max_lt := defaultMax_lt

theorem recvPacket_inBounds_iff_four : (lengthConfig 4 65536 (by decide) (by decide)).LengthCheck ∧
    ((∀ ops, ∃ s, coRun (lengthConfig 4 65536 (by decide) (by decide))
        (defaultLengthFunc (lengthConfig 4 65536 (by decide) (by decide))) ops = some s ∧
        (∀ r ∈ s.2.reqs, r.InBounds) ∧
      ∀ es, ∃ x d, recvPacket (lengthConfig 4 65536 (by decide) (by decide))
          (defaultLengthFunc (lengthConfig 4 65536 (by decide) (by decide))) (s.2.enqueue es) =
          some (x, d) ∧
        ∀ r, x = .ret r → 0 < r →
          NextSlice (lengthConfig 4 65536 (by decide) (by decide)) (s.2.enqueue es) d r.toNat) ↔
    4 ≤ bufferSizeBig) :=
  ⟨⟨rfl, by decide⟩, recvPacket_inBounds_iff _ ⟨rfl, by decide⟩⟩

/-- the first call asks for 65539 bytes in a buffer of 65536 -/
theorem recvPacket_outOfBounds : farConfig.LengthCheck ∧
    (coRun farConfig (defaultLengthFunc farConfig) [.recvPacket []]).map (fun s => s.2.reqs) =
      some [⟨0, 65536, 65539⟩] ∧ ¬ RecvReq.InBounds ⟨0, 65536, 65539⟩ :=
  ⟨⟨rfl, by decide⟩, by decide, by decide⟩

end OSW
