import OpenSwoole.Protocol.LengthFraming

/-!
# WebSocket frames on a port that also speaks HTTP/2

`websocket::get_package_length`, the dispatch on the state of the connection in
`http_server::get_package_length` and `get_package_length_size`, and the branches of
`Server::init_port_protocol` that set up the length protocol of an HTTP port.

On a WebSocket-only port the static header size is that of the longest frame header.  On the dual
port it keeps the value of `package_length_size`, which only the test for `no length found` reads.

* `getPackageLength_fst`   which is what the length function computes;
* `Stalled`   an incomplete frame header of exactly the static size: the dual port closes the connection
    when it holds one.
-/

namespace OSW

open Framing List

/-! ## length functions -/

namespace Websocket

inductive Status where
  | none
  | connection
  | handshake
  | active
  | closing
  deriving DecidableEq

/-- `websocket_status >= STATUS_HANDSHAKE` -/
def Status.established : Status → Bool
  | .none | .connection => false
  | .handshake | .active | .closing => true

def headerLen : Nat := 2
def maskLen : Nat := 4
def ext16Length : Nat := 0x7e
def ext64Length : Nat := 0x7f
/-- `OSW_WEBSOCKET_HEADER_LEN + OSW_WEBSOCKET_MASK_LEN + sizeof(uint64_t)` -/
def maxHeaderLen : Nat := headerLen + maskLen + 8

/-- the last part of `get_package_length`: the mask, then the sum as a `ssize_t` -/
def withMask (mask : Bool) (headerLength payloadLength : Nat) (buf : Bytes) : Int × Nat :=
  let headerLength := if mask then headerLength + maskLen else headerLength
  if mask ∧ buf.length < headerLength then (0, headerLength)
  else (toSigned 64 (headerLength + payloadLength), 0)

def getPackageLength : LengthFunc := fun buf =>
  if buf.length < headerLen then (0, 0)
  else
    let b := (buf.getD 1 0).toNat
    let mask := 128 ≤ b
    let payloadLength := b % 128
    if payloadLength = ext16Length then
      if buf.length < headerLen + 2 then (0, headerLen + 2)
      else withMask mask (headerLen + 2) (be ((buf.drop headerLen).take 2)) buf
    else if payloadLength = ext64Length then
      if buf.length < headerLen + 8 then (0, headerLen + 8)
      else withMask mask (headerLen + 8) (be ((buf.drop headerLen).take 8)) buf
    else withMask mask headerLen payloadLength buf

def extLen (b : Nat) : Nat := if b % 128 = ext16Length then 2 else if b % 128 = ext64Length then 8 else 0

def headerSize (b : Nat) : Nat := headerLen + extLen b + if 128 ≤ b then maskLen else 0

def payloadSize (b : Nat) (buf : Bytes) : Nat :=
  if extLen b = 0 then b % 128 else be ((buf.drop headerLen).take (extLen b))

/-- the length of the frame at the head of `buf`, once its header is there -/
def frameLen (buf : Bytes) : Option Nat :=
  let b := (buf.getD 1 0).toNat
  if buf.length < headerLen ∨ buf.length < headerSize b then none
  else some (headerSize b + payloadSize b buf)

end Websocket

namespace Http2

def frameHeaderSize : Nat := 9

def getFrameLength : LengthFunc := fun buf =>
  if buf.length < frameHeaderSize then (0, 0)
  else (be (buf.take 3) + frameHeaderSize, 0)

end Http2

/-- what the length functions of an HTTP port read of a connection -/
structure HttpConn where
  websocketStatus : Websocket.Status
  http2Stream : Bool

namespace HttpServer

def getPackageLength (conn : HttpConn) : LengthFunc := fun data =>
  if conn.websocketStatus.established then Websocket.getPackageLength data
  else if conn.http2Stream then Http2.getFrameLength data
  else (-1, 0)

def getPackageLengthSize (conn : HttpConn) : Nat :=
  if conn.websocketStatus.established then Websocket.maxHeaderLen
  else if conn.http2Stream then Http2.frameHeaderSize
  else 0

end HttpServer

/-- the HTTP branch of `Server::init_port_protocol`; the dual port sets no `package_length_size` -/
def initPortProtocol (openHttp2 openWebsocket : Bool) (p : Protocol) : Protocol :=
  let size : { n : Nat // n < 2^8 } :=
    if openHttp2 && openWebsocket then ⟨p.packageLengthSize, p.size_lt⟩
    else if openHttp2 then ⟨Http2.frameHeaderSize, by decide⟩
    else if openWebsocket then ⟨Websocket.maxHeaderLen, by decide⟩
    else ⟨p.packageLengthSize, p.size_lt⟩
  { p with
    packageLengthSize := size.1
    packageLengthOffset := 0
    packageBodyOffset := 0
    size_lt := size.2
    offset_lt := defaultOffset_lt
    body_lt := defaultOffset_lt }

def recvDual (p : Protocol) (conn : HttpConn) (h : OnPackage) (c : Conn) : Option (Exit × Conn) :=
  recvWithLengthProtocol (initPortProtocol true true p) (some (HttpServer.getPackageLengthSize conn))
    (HttpServer.getPackageLength conn) h c

def recvWebsocket (p : Protocol) (h : OnPackage) (c : Conn) : Option (Exit × Conn) :=
  recvWithLengthProtocol (initPortProtocol false true p) none Websocket.getPackageLength h c

/-! ## the length function computes the frame length -/

namespace Websocket

lemma headerSize_le (b : Nat) : headerSize b ≤ maxHeaderLen := by
  have he : extLen b ≤ 8 := by
    unfold extLen
    split
    · omega
    · split <;> omega
  unfold headerSize maxHeaderLen
  split <;> omega

lemma frameLen_eq_some {buf : Bytes} {n : Nat} (h : frameLen buf = some n) :
    headerLen ≤ buf.length ∧ headerSize (buf.getD 1 0).toNat ≤ buf.length ∧
      n = headerSize (buf.getD 1 0).toNat + payloadSize (buf.getD 1 0).toNat buf := by
  unfold frameLen at h
  simp only at h
  split at h
  · cases h
  · cases h
    omega

lemma frameLen_pos {buf : Bytes} {n : Nat} (h : frameLen buf = some n) : 0 < n := by
  obtain ⟨_, _, rfl⟩ := frameLen_eq_some h
  unfold headerSize headerLen
  omega

lemma frameLen_eq_none {buf : Bytes} (h : frameLen buf = none) : buf.length < maxHeaderLen := by
  have hb := headerSize_le (buf.getD 1 0).toNat
  have hl : headerLen < maxHeaderLen := by decide
  unfold frameLen at h
  simp only at h
  split at h
  · omega
  · cases h

lemma frameLen_stable : Stable frameLen := by
  intro xs ys n h
  obtain ⟨h2, hh, rfl⟩ := frameLen_eq_some h
  have hb : (xs ++ ys).getD 1 0 = xs.getD 1 0 := by
    unfold headerLen at h2
    rw [getD_eq_getElem?_getD, getD_eq_getElem?_getD, getElem?_append_left (by omega)]
  have hp : payloadSize (xs.getD 1 0).toNat (xs ++ ys) = payloadSize (xs.getD 1 0).toNat xs := by
    unfold payloadSize
    split
    · rfl
    · unfold headerSize at hh
      rw [drop_append_of_le_length h2, take_append_of_le_length (by rw [length_drop]; omega)]
  unfold frameLen
  simp only [hb, hp]
  rw [if_neg (by rw [length_append]; omega)]

lemma withMask_fst {b headerLength : Nat} (payloadLength : Nat) {buf : Bytes}
    (hb : headerLength ≤ buf.length) :
    (withMask (128 ≤ b) headerLength payloadLength buf).1 =
      if buf.length < headerLength + (if 128 ≤ b then maskLen else 0) then 0
      else toSigned 64 (headerLength + (if 128 ≤ b then maskLen else 0) + payloadLength) := by
  unfold withMask
  by_cases hm : 128 ≤ b
  · simp only [hm, decide_true, if_true, true_and]
    split <;> rfl
  · simp only [hm, decide_false, Bool.false_eq_true, if_false, false_and, add_zero]
    rw [if_neg (by omega)]

lemma getPackageLength_fst (buf : Bytes) : (getPackageLength buf).1 =
      if buf.length < headerLen ∨ buf.length < headerSize (buf.getD 1 0).toNat then 0
      else toSigned 64 (headerSize (buf.getD 1 0).toNat + payloadSize (buf.getD 1 0).toNat buf) := by
  unfold getPackageLength
  generalize (buf.getD 1 0).toNat = b
  by_cases h2 : buf.length < headerLen
  · simp only [h2, if_true, true_or]
  simp only [h2, if_false, false_or]
  by_cases h16 : b % 128 = ext16Length
  · have he : extLen b = 2 := if_pos h16
    simp only [headerSize, payloadSize, he, h16, if_true]
    by_cases hl : buf.length < headerLen + 2
    · rw [if_pos hl, if_pos (by omega)]
    · rw [if_neg hl, withMask_fst _ (by omega)]
      rfl
  by_cases h64 : b % 128 = ext64Length
  · have he : extLen b = 8 := by
      unfold extLen
      rw [if_neg h16, if_pos h64]
    simp only [headerSize, payloadSize, he, if_neg h16, if_pos h64]
    by_cases hl : buf.length < headerLen + 8
    · rw [if_pos hl, if_pos (by omega)]
    · rw [if_neg hl, withMask_fst _ (by omega)]
      rfl
  · have he : extLen b = 0 := by
      unfold extLen
      rw [if_neg h16, if_neg h64]
    simp only [headerSize, payloadSize, he, if_neg h16, if_neg h64, if_true, add_zero]
    rw [withMask_fst _ (by omega)]

end Websocket

/-! ## both ports against the framing -/

/-- every frame of the stream is at most `package_max_length` bytes long -/
def WebsocketStream (p : Protocol) (xs : Bytes) : Prop :=
  ∀ ys n, Boundary Websocket.frameLen xs ys → Websocket.frameLen ys = some n → n ≤ p.packageMaxLength

section
variable {p : Protocol} {conn : HttpConn} {h : OnPackage} {xs : Bytes} {c : Conn}

lemma websocket_agrees {q : Protocol} {dyn : Option Nat} (hx : WebsocketStream p xs)
    (hq : q.packageMaxLength = p.packageMaxLength) (hd : dyn ≠ some 0)
    (ha : headerAsked q dyn = Websocket.maxHeaderLen) :
    Agrees q dyn Websocket.getPackageLength Websocket.frameLen xs := by
  refine ⟨Websocket.frameLen_stable, hd, by rw [ha]; decide, by rw [ha]; decide, ?_, ?_⟩
  · intro cur rest _ hn
    refine ⟨?_, by rw [ha]; exact Websocket.frameLen_eq_none hn⟩
    unfold Websocket.frameLen at hn
    simp only at hn
    rw [Websocket.getPackageLength_fst]
    split at hn
    · rename_i hs
      exact if_pos hs
    · cases hn
  · intro cur rest n hb hn
    have hle := hx _ _ hb (Websocket.frameLen_stable _ rest _ hn)
    have hlt := p.max_lt
    obtain ⟨h2, hh, hn'⟩ := Websocket.frameLen_eq_some hn
    refine ⟨?_, Websocket.frameLen_pos hn, by rw [hq]; exact hle⟩
    rw [Websocket.getPackageLength_fst, if_neg (by omega), ← hn', toSigned_of_lt (by omega)]

lemma recvDual_eq (hc : conn.websocketStatus.established) :
    recvDual p conn h = recvWithLengthProtocol (initPortProtocol true true p)
      (some Websocket.maxHeaderLen) Websocket.getPackageLength h := by
  have h1 : HttpServer.getPackageLength conn = Websocket.getPackageLength := by
    funext data
    exact if_pos hc
  have h2 : HttpServer.getPackageLengthSize conn = Websocket.maxHeaderLen := if_pos hc
  funext c
  unfold recvDual
  rw [h1, h2]

lemma dual_agrees (hx : WebsocketStream p xs) :
    Agrees (initPortProtocol true true p) (some Websocket.maxHeaderLen) Websocket.getPackageLength
      Websocket.frameLen xs :=
  websocket_agrees hx rfl (by decide) rfl

def Stalled (p : Protocol) (t : Bytes) : Prop :=
  Websocket.frameLen t = none ∧ 0 < t.length ∧ t.length = p.packageLengthSize

lemma static_dual (p : Protocol) :
    (initPortProtocol true true p).headerLen = p.packageLengthSize := zero_add _

lemma Paused.not_stalled {d : Option Nat}
    (hc : Paused (initPortProtocol true true p) d Websocket.frameLen xs c) :
    ¬ Stalled p c.buffer.str := by
  rintro ⟨hn, hpos, hs⟩
  rcases hc.wait with ⟨_, hlen, _⟩ | ⟨_, _, _, _, h0 | h0⟩
  · rw [hn] at hlen
    cases hlen
  · exact absurd h0 (ne_of_gt hpos)
  · exact h0 (hs.trans (static_dual p).symm)

lemma Refused.stalled (hc : Refused (initPortProtocol true true p) Websocket.frameLen xs c) :
    Stalled p (Framing.frames Websocket.frameLen c.rcvd).2 := by
  rw [hc.frames]
  exact ⟨hc.unknown, hc.pos, hc.static.trans (static_dual p)⟩

lemma WebsocketStream.of_append {ys : Bytes} (hx : WebsocketStream p (xs ++ ys)) :
    WebsocketStream p xs := by
  intro zs n hb hn
  exact hx _ n (hb.append Websocket.frameLen_stable ys) (Websocket.frameLen_stable _ _ _ hn)

lemma dual_ends (hc : conn.websocketStatus.established) (hh : Accepts h)
    (hx : WebsocketStream p xs) (hst : Stalled p (frames Websocket.frameLen xs).2) :
    ∃ k, ¬ ∃ c, Conn.serve (recvDual p conn h) (oneSegment xs ++ replicate k []) = some (.opened, c) := by
  obtain ⟨hseg, hflat⟩ := cuts_oneSegment xs
  obtain ⟨k, s, hs, hstate, hq⟩ := framing_drain hh (oneSegment xs) hseg (hflat.symm ▸ dual_agrees hx)
  rw [hflat] at hstate
  refine ⟨k, ?_⟩
  rintro ⟨c, hopen⟩
  rw [recvDual_eq hc, hs] at hopen
  cases hopen
  have hp : Paused (initPortProtocol true true p) (some Websocket.maxHeaderLen)
      Websocket.frameLen xs c := hstate
  have hf := hp.frames_all (hq rfl)
  rw [hf] at hst
  exact hp.not_stalled hst

end

/-- **WebSocket frames on the dual port** are handed over if and only if no prefix of the stream ends
`package_length_size` bytes into a frame whose header is longer. -/
theorem recvDual_frames_iff (p : Protocol) (conn : HttpConn) (hc : conn.websocketStatus.established)
    (h : OnPackage) (ha : Accepts h) (xs : Bytes) (hx : WebsocketStream p xs) :
    (∀ calls, Cuts calls xs → (∃ c, Conn.serve (recvDual p conn h) calls = some (.opened, c) ∧
        c.rcvd ++ eventBytes c.queue = xs ∧
        frames Websocket.frameLen c.rcvd = (c.out, c.buffer.str)) ∧
      ∃ k c, Conn.serve (recvDual p conn h) (calls ++ replicate k []) = some (.opened, c) ∧
        frames Websocket.frameLen xs = (c.out, c.buffer.str)) ↔
    ∀ zs, zs <+: xs → ¬ Stalled p (frames Websocket.frameLen zs).2 := by
  constructor
  · intro hall zs hz hst
    obtain ⟨rest, rfl⟩ := hz
    obtain ⟨k, hk⟩ := dual_ends hc ha hx.of_append hst
    -- the prefix alone until everything of it is received, then the rest
    have hcut := ((cuts_oneSegment zs).replicate_nil k).append (cuts_oneSegment rest)
    obtain ⟨⟨c, hs, _⟩, _⟩ := hall _ hcut
    exact hk (Conn.serve_opened_of_append hs)
  · intro hno calls hcut
    obtain ⟨hseg, rfl⟩ := hcut
    have hopen : ∀ zs, zs <+: eventBytes calls.flatten →
        ∀ c, ¬ Refused (initPortProtocol true true p) Websocket.frameLen zs c := by
      intro zs hz c hr
      have hpre : c.rcvd <+: zs := ⟨_, hr.bytes⟩
      exact hno c.rcvd (hpre.trans hz) hr.stalled
    rw [recvDual_eq hc]
    constructor
    · obtain ⟨s, hs, hstate⟩ := framing_serve ha calls hseg (dual_agrees hx)
      obtain ⟨c, rfl, hp⟩ := hstate.opened hopen
      exact ⟨c, hs, hp.bytes, hp.frames⟩
    · obtain ⟨k, s, hs, hstate, hq⟩ := framing_drain ha calls hseg (dual_agrees hx)
      obtain ⟨c, rfl, hp⟩ := hstate.opened hopen
      exact ⟨k, c, hs, hp.frames_all (hq rfl)⟩

/-- the protocol of a port as `ListenPort::ListenPort` sets it -/
def listenPort : Protocol where
  splitByEof := false
  packageEof := [13, 10]
  packageLengthType := .N
  packageLengthSize := 4
  packageLengthOffset := 0
  packageBodyOffset := 4
  packageMaxLength := 2 * 1024 * 1024
  eof_le := by decide
  size_lt := defaultSize_lt
  offset_lt := defaultOffset_lt
  body_lt := defaultBody_lt
  max_lt := defaultMax_lt

def maskedFrame : Bytes := [0x81, 0x82, 1, 2, 3, 4, 5, 6]

theorem recvDual_frames_iff_masked : (∀ calls, Cuts calls maskedFrame →
      (∃ c, Conn.serve (recvDual listenPort ⟨.handshake, false⟩ (fun _ => .ok)) calls =
          some (.opened, c) ∧ c.rcvd ++ eventBytes c.queue = maskedFrame ∧
        frames Websocket.frameLen c.rcvd = (c.out, c.buffer.str)) ∧
      ∃ k c, Conn.serve (recvDual listenPort ⟨.handshake, false⟩ (fun _ => .ok))
          (calls ++ replicate k []) = some (.opened, c) ∧
        frames Websocket.frameLen maskedFrame = (c.out, c.buffer.str)) ↔
    ∀ zs, zs <+: maskedFrame → ¬ Stalled listenPort (frames Websocket.frameLen zs).2 := by
  refine recvDual_frames_iff listenPort ⟨.handshake, false⟩ rfl _ (fun _ => .inl rfl) maskedFrame ?_
  intro ys n hb hn
  rcases hb.single (by decide) with rfl | rfl
  · obtain rfl : 8 = n := Option.some.inj hn
    decide
  · cases hn

/-- a masked frame of eight bytes of which the first four arrive alone -/
theorem recvDual_closes : Websocket.frameLen [0x81, 0x82, 1, 2, 3, 4, 5, 6] = some 8 ∧
    (Conn.serve (recvDual listenPort ⟨.handshake, false⟩ (fun _ => .ok))
      [[.data [0x81, 0x82, 1, 2]], [.data [3, 4, 5, 6]]]).map (fun s => (s.1, s.2.out)) =
        some (.closed, []) ∧
    (Conn.serve (recvWebsocket listenPort (fun _ => .ok))
      [[.data [0x81, 0x82, 1, 2]], [.data [3, 4, 5, 6]]]).map (fun s => (s.1, s.2.out)) =
        some (.opened, [[0x81, 0x82, 1, 2, 3, 4, 5, 6]]) :=
  ⟨by decide, by decide, by decide⟩

end OSW
