import OpenSwoole.Protocol.WebSocket

/-!
# Messages in WebSocket frames

`websocket::decode` and `websocket::dispatch_frame` of `src/protocol/websocket.cc`.  The string that
collects the fragments of a message keeps opcode and flags of the first one in its field `offset`.
A frame is a package of `get_package_length`; `outside` stands for reading behind its end.

* `Websocket.IsFrame`   a frame on the wire;
* `decode_frame`   decoding gives back its parts.
-/

namespace OSW
namespace Websocket
open Core List Option Machine

/-- `enum Opcode`; `other` are the reserved ones -/
inductive Opcode where
  | continuation
  | text
  | binary
  | close
  | ping
  | pong
  | other (code : Nat)
  deriving DecidableEq

def Opcode.code : Opcode → Nat
  | .continuation => 0
  | .text => 1
  | .binary => 2
  | .close => 8
  | .ping => 9
  | .pong => 10
  | .other n => n

def Opcode.ofCode : Nat → Opcode
  | 0 => .continuation
  | 1 => .text
  | 2 => .binary
  | 8 => .close
  | 9 => .ping
  | 10 => .pong
  | n => .other n

/-- the bit fields of a frame header; the field `LENGTH` is not kept -/
structure Header where
  opcode : Opcode
  rsv3 : Bool
  rsv2 : Bool
  rsv1 : Bool
  fin : Bool
  mask : Bool

def Header.ofBytes (b0 b1 : Nat) : Header where
  opcode := .ofCode (b0 % 16)
  rsv3 := b0 / 16 % 2 = 1
  rsv2 := b0 / 32 % 2 = 1
  rsv1 := b0 / 64 % 2 = 1
  fin := b0 / 128 % 2 = 1
  mask := 128 ≤ b1

/-- `get_flags` with `FLAG_FIN`, `FLAG_RSV1`, `FLAG_RSV2`, `FLAG_RSV3`, `FLAG_MASK` -/
def Header.flags (h : Header) : Nat :=
  (if h.fin then 1 else 0) + (if h.rsv1 then 4 else 0) + (if h.rsv2 then 8 else 0) +
    (if h.rsv3 then 16 else 0) + if h.mask then 32 else 0

def Header.extFlags (h : Header) : Nat := h.opcode.code * 256 + h.flags

/-- `mask`: the key is repeated over the data -/
def maskBytes (key data : Bytes) : Bytes := data.mapIdx fun i b => b ^^^ key.getD (i % maskLen) 0

/-- `decode`: the header, `payload_length`, and the data with the payload unmasked in place -/
def decode (data : Bytes) : Option (Header × Nat × Bytes) :=
  let b := (data.getD 1 0).toNat
  let header := Header.ofBytes (data.getD 0 0).toNat b
  let payloadLength := payloadSize b data
  let headerLength := headerLen + extLen b
  if data.length < headerLength then none
  else if payloadLength = 0 then some (header, 0, data)
  else if header.mask then
    let key := (data.drop headerLength).take maskLen
    let headerLength := headerLength + maskLen
    if data.length < headerLength + payloadLength then none
    else some (header, payloadLength, data.take headerLength ++
      (maskBytes key ((data.drop headerLength).take payloadLength) ++
        data.drop (headerLength + payloadLength)))
  else if data.length < headerLength + payloadLength then none
  else some (header, payloadLength, data)

inductive DispatchRes where
  | ok
  | err
  | outside
  deriving DecidableEq

/-- what `dispatch_frame` uses of a connection; `tasks` records what was dispatched, with `ext_flags`,
`sent` the frames sent back -/
structure WsConn where
  websocketBuffer : Option OswString
  websocketStatus : Status
  tasks : List (Nat × Bytes)
  sent : List Bytes

def WsConn.init : WsConn := ⟨none, .active, [], []⟩

def closeReasonMaxLen : Nat := 125
def sendFrameSize : Nat := headerLen + 2 + closeReasonMaxLen

def WsConn.dispatchTask (s : WsConn) (extFlags : Nat) (data : Bytes) : WsConn :=
  { s with tasks := s.tasks ++ [(extFlags, data)] }

section
variable (maxLength : Nat)

section
variable (header : Header)

/-- `case OPCODE_CONTINUATION`; `frame_length` is an `int`.  `ext_flags` is a `uint16_t`. -/
def dispatchContinuation (payload : Bytes) (s : WsConn) : DispatchRes × WsConn :=
  match s.websocketBuffer with
  | none => (.err, s)
  | some buffer =>
    let frameLength := int32 payload.length
    if maxLength < uint64 (buffer.length + frameLength) then (.err, s)
    else if frameLength < 0 then (.outside, s)
    else
      let buffer := buffer.appendBytes payload
      if header.fin then
        (.ok, { s.dispatchTask (buffer.offset % 2^16 ||| 1) buffer.str with websocketBuffer := none })
      else (.ok, { s with websocketBuffer := some buffer })

def dispatchData (payload : Bytes) (s : WsConn) : DispatchRes × WsConn :=
  if header.fin = false then
    if s.websocketBuffer.isSome then (.err, s)
    else (.ok, { s with websocketBuffer := some { OswString.ofBytes payload with offset := header.extFlags } })
  else (.ok, s.dispatchTask header.extFlags payload)

def dispatchControl (data : Bytes) (s : WsConn) : DispatchRes × WsConn :=
  if sendFrameSize - headerLen ≤ data.length then (.err, s)
  else if data.length = headerLen then (.ok, s.dispatchTask header.extFlags [])
  else
    let offset := if header.mask then headerLen + maskLen else headerLen
    (.ok, s.dispatchTask header.extFlags (data.drop offset))

/-- `case OPCODE_CLOSE`: the frame is sent back, and the connection closed -/
def dispatchClose (length : Nat) (payload : Bytes) (s : WsConn) : DispatchRes × WsConn :=
  if closeReasonMaxLen < length - headerLen then (.err, s)
  else if s.websocketStatus ≠ .closing then
    let s := s.dispatchTask header.extFlags payload
    (.err, { s with sent := s.sent ++ [0x88 :: UInt8.ofNat payload.length :: payload] })
  else (.err, { s with websocketStatus := .none })

end

/-- `dispatch_frame`; `maxLength` is `package_max_length` of the port -/
def dispatchFrame (data : Bytes) (s : WsConn) : DispatchRes × WsConn :=
  match decode data with
  | none => (.outside, s)
  | some (header, payloadLength, data) =>
    let payload := data.drop (data.length - payloadLength)
    match header.opcode with
    | .continuation => dispatchContinuation maxLength header payload s
    | .text | .binary => dispatchData header payload s
    | .ping | .pong => dispatchControl header data s
    | .close => dispatchClose header data.length payload s
    | .other _ => (.ok, s)

/-- a frame that is accepted: the connection goes on -/
def acceptFrame (data : Bytes) (s : WsConn) : Option WsConn :=
  match dispatchFrame maxLength data s with
  | (.ok, s) => some s
  | _ => none

end

/-! ## frames on the wire -/

/-- a frame: its header bits, the masking key if there is one, the payload -/
structure WireFrame where
  opcode : Opcode
  rsv3 : Bool
  rsv2 : Bool
  rsv1 : Bool
  fin : Bool
  key : Option Bytes
  payload : Bytes

def WireFrame.header (f : WireFrame) : Header := ⟨f.opcode, f.rsv3, f.rsv2, f.rsv1, f.fin, f.key.isSome⟩

/-- `n` in the seven bits `l` and the extended length, in the shortest form -/
def IsLength (n l : Nat) (ext : Bytes) : Prop :=
  (l = n ∧ n < 126 ∧ ext = []) ∨ (l = 126 ∧ 126 ≤ n ∧ ext.length = 2 ∧ be ext = n) ∨
    (l = 127 ∧ 65536 ≤ n ∧ ext.length = 8 ∧ be ext = n)

def WireFrame.byte0 (f : WireFrame) : Nat :=
  f.opcode.code + 16 * f.rsv3.toNat + 32 * f.rsv2.toNat + 64 * f.rsv1.toNat + 128 * f.fin.toNat

def WireFrame.masked (f : WireFrame) : Bytes :=
  match f.key with
  | none => f.payload
  | some key => maskBytes key f.payload

def IsFrame (f : WireFrame) (data : Bytes) : Prop :=
  f.opcode.code < 16 ∧ Opcode.ofCode f.opcode.code = f.opcode ∧ (∀ key ∈ f.key, key.length = maskLen) ∧
    ∃ l ext, IsLength f.payload.length l ext ∧
      data = UInt8.ofNat f.byte0 :: UInt8.ofNat (l + 128 * f.key.isSome.toNat) ::
        (ext ++ (f.key.getD [] ++ f.masked))

/-! ## decoding -/

lemma maskBytes_length (key data : Bytes) : (maskBytes key data).length = data.length := length_mapIdx

lemma maskBytes_maskBytes (key data : Bytes) : maskBytes key (maskBytes key data) = data := by
  refine ext_getElem? fun i => ?_
  unfold maskBytes
  rw [getElem?_mapIdx, getElem?_mapIdx, Option.map_map]
  refine Eq.trans (congrArg (fun g => data[i]?.map g) ?_) Option.map_id'
  funext b
  show (b ^^^ key.getD (i % maskLen) 0) ^^^ key.getD (i % maskLen) 0 = b
  rw [UInt8.xor_assoc, UInt8.xor_self, UInt8.xor_zero]

section
variable {f : WireFrame} {data : Bytes}

variable {l n : Nat} {ext acc : Bytes} {b : OswString}

lemma byte1_toNat {m : Bool} (hl : l < 128) :
    (UInt8.ofNat (l + 128 * m.toNat)).toNat = l + 128 * m.toNat := by
  have := Bool.toNat_le m
  exact Nat.mod_eq_of_lt (by omega)

lemma bit_eq (b : Bool) (h : n = b.toNat) : decide (n = 1) = b := by
  rw [h]
  cases b <;> rfl

lemma header_ofBytes (hcode : f.opcode.code < 16) (hop : Opcode.ofCode f.opcode.code = f.opcode)
    (hl : l < 128) :
    Header.ofBytes (UInt8.ofNat f.byte0).toNat (UInt8.ofNat (l + 128 * f.key.isSome.toNat)).toNat =
      f.header := by
  have h0 : (UInt8.ofNat f.byte0).toNat = f.byte0 := by
    refine Nat.mod_eq_of_lt ?_
    have := Bool.toNat_le f.rsv3
    have := Bool.toNat_le f.rsv2
    have := Bool.toNat_le f.rsv1
    have := Bool.toNat_le f.fin
    unfold WireFrame.byte0
    omega
  have h1 : (UInt8.ofNat (l + 128 * f.key.isSome.toNat)).toNat = l + 128 * f.key.isSome.toNat :=
    byte1_toNat hl
  rw [h0, h1]
  unfold Header.ofBytes WireFrame.header WireFrame.byte0
  obtain ⟨h3, h2, h1, hf, hm⟩ : _ ∧ _ ∧ _ ∧ _ ∧ _ := ⟨Bool.toNat_le f.rsv3, Bool.toNat_le f.rsv2,
    Bool.toNat_le f.rsv1, Bool.toNat_le f.fin, Bool.toNat_le f.key.isSome⟩
  refine Header.mk.injEq .. ▸ ⟨?_, ?_, ?_, ?_, ?_, ?_⟩
  · refine Eq.trans (congrArg Opcode.ofCode ?_) hop
    omega
  · exact bit_eq _ (by omega)
  · exact bit_eq _ (by omega)
  · exact bit_eq _ (by omega)
  · exact bit_eq _ (by omega)
  · cases f.key.isSome with
    | false => exact decide_eq_false (by show ¬ 128 ≤ l + 0; omega)
    | true => exact decide_eq_true (by show 128 ≤ l + 128; omega)

lemma payloadSize_frame (h : IsLength n l ext) (m : Bool) (b0 b1 : UInt8) (rest : Bytes) :
    l < 128 ∧ extLen (l + 128 * m.toNat) = ext.length ∧
      payloadSize (l + 128 * m.toNat) (b0 :: b1 :: (ext ++ rest)) = n := by
  have hmod : l < 128 → (l + 128 * m.toNat) % 128 = l := by
    intro hl
    omega
  rcases h with ⟨rfl, hn, rfl⟩ | ⟨rfl, -, hlen, rfl⟩ | ⟨rfl, -, hlen, rfl⟩
  · have hext : extLen (l + 128 * m.toNat) = 0 := by
      unfold extLen ext16Length ext64Length
      rw [hmod (by omega), if_neg (by omega), if_neg (by omega)]
    refine ⟨by omega, hext, ?_⟩
    unfold payloadSize
    rw [if_pos hext, hmod (by omega)]
  · have hext : extLen (126 + 128 * m.toNat) = 2 := by exact if_pos (hmod (by decide))
    refine ⟨by decide, hext.trans hlen.symm, ?_⟩
    unfold payloadSize
    rw [hext, if_neg (by decide), ← hlen]
    exact congrArg be (take_left)
  · have hext : extLen (127 + 128 * m.toNat) = 8 := by
      unfold extLen
      rw [hmod (by decide)]
      rfl
    refine ⟨by decide, hext.trans hlen.symm, ?_⟩
    unfold payloadSize
    rw [hext, if_neg (by decide), ← hlen]
    exact congrArg be (take_left)

/-- `decode` finds `header` and a payload of `n` bytes in `data`, behind `head` and the key -/
structure HasHead (data head : Bytes) (header : Header) (n : Nat) : Prop where
  header : Header.ofBytes (data.getD 0 0).toNat (data.getD 1 0).toNat = header
  length : headerLen + extLen (data.getD 1 0).toNat = head.length
  payload : payloadSize (data.getD 1 0).toNat data = n

lemma hasHead_frame (hcode : f.opcode.code < 16) (hop : Opcode.ofCode f.opcode.code = f.opcode)
    (hlen : IsLength f.payload.length l ext) (rest : Bytes) :
    HasHead ((UInt8.ofNat f.byte0 :: UInt8.ofNat (l + 128 * f.key.isSome.toNat) :: ext) ++ rest)
      (UInt8.ofNat f.byte0 :: UInt8.ofNat (l + 128 * f.key.isSome.toNat) :: ext) f.header f.payload.length := by
  obtain ⟨hl, hext, hpayload⟩ := payloadSize_frame hlen f.key.isSome (UInt8.ofNat f.byte0)
    (UInt8.ofNat (l + 128 * f.key.isSome.toNat)) rest
  have hb1 : (UInt8.ofNat (l + 128 * f.key.isSome.toNat)).toNat = l + 128 * f.key.isSome.toNat := byte1_toNat hl
  refine ⟨header_ofBytes hcode hop hl, ?_, ?_⟩
  · show headerLen + extLen (UInt8.ofNat (l + 128 * f.key.isSome.toNat)).toNat = ext.length + 1 + 1
    rw [hb1, hext, add_comm]
    rfl
  · show payloadSize (UInt8.ofNat (l + 128 * f.key.isSome.toNat)).toNat _ = _
    rw [hb1]
    exact hpayload

section
variable {head key payload : Bytes} {header : Header}

lemma decode_plain (h : HasHead (head ++ payload) head header payload.length) (hm : header.mask = false) :
    decode (head ++ payload) = some (header, payload.length, head ++ payload) := by
  have hsize : (head ++ payload).length = head.length + payload.length := length_append
  unfold decode
  simp only [h.header, h.length, h.payload, hm, Bool.false_eq_true, if_false]
  rw [if_neg (by omega)]
  by_cases hz : payload.length = 0
  · rw [if_pos hz, hz]
  · rw [if_neg hz, if_neg (by omega)]

lemma decode_masked (h : HasHead (head ++ (key ++ maskBytes key payload)) head header payload.length)
    (hm : header.mask = true) (hk : key.length = maskLen) :
    ∃ data', decode (head ++ (key ++ maskBytes key payload)) = some (header, payload.length, data') ∧
      data'.length = (head ++ (key ++ maskBytes key payload)).length ∧
      data'.drop (head.length + maskLen) = payload := by
  have hsize : (head ++ (key ++ maskBytes key payload)).length = head.length + maskLen + payload.length := by
    rw [length_append, length_append, hk, maskBytes_length, add_assoc]
  have hdrop : (head ++ (key ++ maskBytes key payload)).drop (head.length + maskLen) =
      maskBytes key payload := by
    rw [← append_assoc, ← hk, ← length_append]
    exact drop_left
  have htake : (head ++ (key ++ maskBytes key payload)).take (head.length + maskLen) = head ++ key := by
    rw [← append_assoc, ← hk, ← length_append]
    exact take_left
  unfold decode
  simp only [h.header, h.length, h.payload, hm, if_true]
  rw [if_neg (by omega)]
  by_cases hz : payload.length = 0
  · rw [if_pos hz, hz]
    refine ⟨_, rfl, rfl, ?_⟩
    rw [hdrop, length_eq_zero_iff.1 hz]
    rfl
  · have hkey : ((head ++ (key ++ maskBytes key payload)).drop head.length).take maskLen = key := by
      rw [drop_left, ← hk]
      exact take_left
    have hpayload : (maskBytes key payload).take payload.length = maskBytes key payload := by
      rw [← maskBytes_length key payload, take_length]
    have hend : (head ++ (key ++ maskBytes key payload)).drop (head.length + maskLen + payload.length) = [] :=
      drop_of_length_le (le_of_eq hsize)
    rw [if_neg hz, if_neg (by omega), hkey, hdrop, hpayload, hend, htake, maskBytes_maskBytes, append_nil]
    refine ⟨_, rfl, ?_, ?_⟩
    · rw [hsize, length_append, length_append, hk]
    · rw [← hk, ← length_append]
      exact drop_left

end

lemma decode_frame (h : IsFrame f data) : ∃ n data', decode data = some (f.header, f.payload.length, data') ∧
    data.length = n + f.payload.length ∧ data'.length = data.length ∧ data'.drop n = f.payload ∧
    (f.payload.length < 126 → n = headerLen + if f.header.mask then maskLen else 0) := by
  obtain ⟨hcode, hop, hkey, l, ext, hlen, rfl⟩ := h
  have hshort : f.payload.length < 126 → ext = [] := by
    intro hn
    rcases hlen with ⟨-, -, he⟩ | ⟨-, hle, -⟩ | ⟨-, hle, -⟩
    · exact he
    · omega
    · omega
  have hhead := hasHead_frame hcode hop hlen
  rw [← cons_append, ← cons_append]
  generalize hb0 : UInt8.ofNat f.byte0 = b0 at *
  generalize hb1 : UInt8.ofNat (l + 128 * f.key.isSome.toNat) = b1 at *
  have hmask : f.header.mask = f.key.isSome := rfl
  rw [hmask]
  cases hk : f.key with
  | none =>
    have hmasked : f.masked = f.payload := by
      unfold WireFrame.masked
      rw [hk]
    rw [getD_none, nil_append, hmasked]
    refine ⟨(b0 :: b1 :: ext).length, _, decode_plain (hhead _) (by rw [hmask, hk]; rfl), length_append, rfl,
      drop_left, fun hn => ?_⟩
    rw [hshort hn]
    rfl
  | some key =>
    have hmasked : f.masked = maskBytes key f.payload := by
      unfold WireFrame.masked
      rw [hk]
    have hlenk : key.length = maskLen := hkey key (by rw [hk]; exact rfl)
    rw [getD_some, hmasked]
    obtain ⟨data', hd, hl, hdrop⟩ := decode_masked (hhead _) (by rw [hmask, hk]; rfl) hlenk
    refine ⟨(b0 :: b1 :: ext).length + maskLen, data', hd, ?_, hl, hdrop, fun hn => ?_⟩
    · rw [length_append, length_append, hlenk, maskBytes_length, add_assoc]
    · rw [hshort hn]
      rfl

/-! ## one frame -/

variable {maxLength : Nat} {s : WsConn}

section
variable (h : IsFrame f data)
include h

lemma decode_payload : ∃ data', decode data = some (f.header, f.payload.length, data') ∧
    data'.length = data.length ∧ data'.drop (data'.length - f.payload.length) = f.payload := by
  obtain ⟨n, data', hd, hsize, hlen, hdrop, -⟩ := decode_frame h
  refine ⟨data', hd, hlen, ?_⟩
  rw [show data'.length - f.payload.length = n by omega]
  exact hdrop

lemma dispatchFrame_data (hop : f.opcode = .text ∨ f.opcode = .binary) :
    dispatchFrame maxLength data s = dispatchData f.header f.payload s := by
  obtain ⟨data', hd, hlen, hdrop⟩ := decode_payload h
  unfold dispatchFrame
  simp only [hd, hdrop, show f.header.opcode = f.opcode from rfl]
  rcases hop with hop | hop
  · rw [hop]
  · rw [hop]

lemma dispatchFrame_continuation (hop : f.opcode = .continuation) :
    dispatchFrame maxLength data s = dispatchContinuation maxLength f.header f.payload s := by
  obtain ⟨data', hd, hlen, hdrop⟩ := decode_payload h
  unfold dispatchFrame
  simp only [hd, hdrop, show f.header.opcode = f.opcode from rfl, hop]

structure IsControl (f : WireFrame) : Prop where
  opcode : f.opcode = .ping ∨ f.opcode = .pong
  fin : f.fin = true
  payload : f.payload.length ≤ 125

lemma dispatchFrame_control (hop : f.opcode = .ping ∨ f.opcode = .pong) (hpayload : f.payload.length ≤ 125) :
    dispatchFrame maxLength data s =
      if data.length < 127 then (.ok, s.dispatchTask f.header.extFlags f.payload) else (.err, s) := by
  obtain ⟨n, data', hd, hsize, hlen, hdrop, hn⟩ := decode_frame h
  have hn' := hn (by omega)
  have hctl : dispatchFrame maxLength data s = dispatchControl f.header data' s := by
    unfold dispatchFrame
    simp only [hd, show f.header.opcode = f.opcode from rfl]
    rcases hop with hop | hop
    · rw [hop]
    · rw [hop]
  rw [hctl]
  unfold dispatchControl
  rw [hlen]
  by_cases hlt : data.length < 127
  · rw [if_neg (by show ¬ 127 ≤ data.length; omega), if_pos hlt]
    by_cases hempty : data.length = headerLen
    · have hnil : f.payload = [] := by
        refine length_eq_zero_iff.1 ?_
        split at hn' <;> omega
      rw [if_pos hempty, hnil]
    · rw [if_neg hempty]
      have hoff : (if f.header.mask = true then headerLen + maskLen else headerLen) = n := by
        rw [hn']
        split <;> rfl
      simp only [hoff, hdrop]
  · rw [if_pos (by show 127 ≤ data.length; omega), if_neg hlt]

end

/-! ## collecting fragments -/

/-- the string holds the fragments `acc` of a message that starts with `first`; opcode and flags are
lost when the string gets its memory late -/
structure Collects (first : WireFrame) (acc : Bytes) (b : OswString) : Prop where
  str : b.str = acc
  fits : acc.length ≤ b.size
  empty : b.size = 0 ↔ acc = []
  starts : first.payload <+: acc
  offset : b.offset = if first.payload = [] ∧ acc ≠ [] then 0 else first.header.extFlags

lemma memAlignedSize_eq_zero : memAlignedSize n = 0 ↔ n = 0 := by
  unfold memAlignedSize
  omega

def firstBuffer (f : WireFrame) : OswString :=
  { OswString.ofBytes f.payload with offset := f.header.extFlags }

lemma Collects.first (f : WireFrame) : Collects f f.payload (firstBuffer f) where
  str := rfl
  fits := le_memAlignedSize _
  empty := memAlignedSize_eq_zero.trans length_eq_zero_iff
  starts := prefix_refl _
  offset := (if_neg fun hn => hn.2 hn.1).symm

lemma Collects.append {first : WireFrame} (h : Collects first acc b) (xs : Bytes) :
    Collects first (acc ++ xs) (b.appendBytes xs) := by
  have hlen : b.length = acc.length := congrArg length h.str
  have hstarts := h.starts.trans (prefix_append acc xs)
  unfold OswString.appendBytes
  by_cases hbig : b.size < b.length + xs.length
  · have hne : acc ++ xs ≠ [] := by
      intro hnil
      have := congrArg length hnil
      rw [length_append, length_nil] at this
      omega
    simp only [if_pos hbig, OswString.reserve]
    by_cases hz : b.size = 0
    · -- the memory is allocated anew
      have hacc := h.empty.1 hz
      rw [if_pos hz]
      refine ⟨?_, ?_, ?_, hstarts, ?_⟩
      · rw [hacc]
        rfl
      · rw [hlen, ← length_append]
        exact le_memAlignedSize _
      · rw [hlen, ← length_append]
        exact memAlignedSize_eq_zero.trans length_eq_zero_iff
      · have hfirst : first.payload = [] := prefix_nil.1 (hacc ▸ h.starts)
        rw [if_pos ⟨hfirst, hne⟩]
        rfl
    · have hacc : acc ≠ [] := fun hacc => hz (h.empty.2 hacc)
      rw [if_neg hz]
      refine ⟨by rw [← h.str], ?_, ?_, hstarts, ?_⟩
      · rw [hlen, ← length_append]
        exact le_memAlignedSize _
      · rw [hlen, ← length_append]
        exact memAlignedSize_eq_zero.trans length_eq_zero_iff
      · rw [h.offset]
        simp only [hacc, hne, ne_eq, not_false_eq_true, and_true]
  · simp only [if_neg hbig]
    have hempty : acc ++ xs = [] ↔ acc = [] := by
      constructor
      · intro hnil
        exact (append_eq_nil_iff.1 hnil).1
      · intro hacc
        have hz := h.empty.2 hacc
        rw [hacc, nil_append, ← length_eq_zero_iff]
        omega
    refine ⟨by rw [← h.str], ?_, h.empty.trans hempty.symm, hstarts, ?_⟩
    · rw [length_append]
      show _ ≤ b.size
      omega
    · rw [h.offset]
      simp only [ne_eq, hempty]

lemma extFlags_lt (hcode : f.opcode.code < 16) : f.header.extFlags < 2^16 := by
  have hflags : f.header.flags ≤ 61 := by
    unfold Header.flags
    split <;> split <;> split <;> split <;> split <;> omega
  unfold Header.extFlags
  have : f.header.opcode.code = f.opcode.code := rfl
  omega

lemma acceptFrame_continuation (h : IsFrame f data) (hop : f.opcode = .continuation) {first : WireFrame}
    (hcode : first.opcode.code < 16) (hb : Collects first acc b) (hs : s.websocketBuffer = some b)
    (htotal : acc.length + f.payload.length ≤ maxLength) (hmax : maxLength < 2^32) :
    acceptFrame maxLength data s = if f.payload.length < 2^31 then
        if f.fin then some { s.dispatchTask ((if first.payload = [] ∧ acc ++ f.payload ≠ [] then 0
          else first.header.extFlags) ||| 1) (acc ++ f.payload) with websocketBuffer := none }
        else some { s with websocketBuffer := some (b.appendBytes f.payload) }
      else none := by
  have hlen : b.length = acc.length := congrArg length hb.str
  have happ := hb.append f.payload
  unfold acceptFrame
  rw [dispatchFrame_continuation h hop]
  unfold dispatchContinuation
  simp only [hs]
  by_cases hint : f.payload.length < 2^31
  · have hframe : int32 f.payload.length = f.payload.length := int32_of_lt (by omega) (by omega)
    have hsum : uint64 (b.length + int32 f.payload.length) = acc.length + f.payload.length := by
      rw [hframe, uint64_of_nonneg (by omega) (by omega)]
      omega
    have hoff : (b.appendBytes f.payload).offset % 2^16 =
        if first.payload = [] ∧ acc ++ f.payload ≠ [] then 0 else first.header.extFlags := by
      rw [happ.offset]
      split
      · rfl
      · exact Nat.mod_eq_of_lt (extFlags_lt hcode)
    rw [if_pos hint, if_neg (by omega), if_neg (by omega), hoff, happ.str,
      show f.header.fin = f.fin from rfl]
    cases f.fin with
    | true | false => rfl
  · -- the length is a negative `int`, and the sum wraps to a number above every limit
    have hframe : int32 f.payload.length = f.payload.length - 2^32 := by
      unfold int32
      rw [Int.bmod_def]
      omega
    have hsum : maxLength < uint64 (b.length + int32 f.payload.length) := by
      unfold uint64
      omega
    rw [if_neg hint, if_pos hsum]

end

/-! ## a message -/

def IsMiddle (f : WireFrame) : Prop := (f.opcode = .continuation ∧ f.fin = false) ∨ IsControl f

def fragments (fs : List WireFrame) : Bytes :=
  ((fs.filter fun f => f.opcode = .continuation).map WireFrame.payload).flatten

def controls (fs : List WireFrame) : List (Nat × Bytes) :=
  (fs.filter fun f => f.opcode ≠ .continuation).map fun f => (f.header.extFlags, f.payload)

/-- what `dispatch_frame` can take: fragments whose length fits an `int`, pings and pongs of less than
127 bytes -/
def Takes (x : WireFrame × Bytes) : Prop :=
  (x.1.opcode = .continuation → x.1.payload.length < 2^31) ∧ (x.1.opcode ≠ .continuation → x.2.length < 127)

section
variable {maxLength : Nat} {s : WsConn} {first : WireFrame} {acc : Bytes} {b : OswString}

lemma acceptFrame_middle {x : WireFrame × Bytes} (h : IsFrame x.1 x.2) (hx : IsMiddle x.1)
    (hcode : first.opcode.code < 16) (hb : Collects first acc b) (hs : s.websocketBuffer = some b)
    (htotal : (acc ++ fragments [x.1]).length ≤ maxLength) (hmax : maxLength < 2^32) :
    (¬ Takes x ∧ acceptFrame maxLength x.2 s = none) ∨
    (Takes x ∧ ∃ b', Collects first (acc ++ fragments [x.1]) b' ∧ acceptFrame maxLength x.2 s =
      some { s with websocketBuffer := some b', tasks := s.tasks ++ controls [x.1] }) := by
  obtain ⟨f, data⟩ := x
  rcases hx with ⟨hop, hfin⟩ | hc
  · have hfrag : fragments [f] = f.payload := by
      unfold fragments
      rw [filter_cons_of_pos (by rw [hop]; rfl)]
      exact append_nil _
    have hctl : controls [f] = [] := by
      unfold controls
      rw [filter_cons_of_neg (by rw [hop]; decide)]
      rfl
    rw [hfrag, length_append] at htotal
    have hacc := acceptFrame_continuation h hop hcode hb hs htotal hmax
    rw [hfin] at hacc
    have htakes : Takes (f, data) ↔ f.payload.length < 2^31 :=
      ⟨fun ht => ht.1 hop, fun hint => ⟨fun _ => hint, fun hne => absurd hop hne⟩⟩
    rw [hfrag, hctl, append_nil, htakes]
    by_cases hint : f.payload.length < 2^31
    · rw [if_pos hint] at hacc
      exact .inr ⟨hint, _, hb.append f.payload, hacc⟩
    · rw [if_neg hint] at hacc
      exact .inl ⟨hint, hacc⟩
  · have hne : f.opcode ≠ .continuation := by
      rcases hc.opcode with hop | hop
      · rw [hop]
        decide
      · rw [hop]
        decide
    have hfrag : fragments [f] = [] := by
      unfold fragments
      rw [filter_cons_of_neg (by rw [decide_eq_true_eq]; exact hne)]
      rfl
    have hctl : controls [f] = [(f.header.extFlags, f.payload)] := by
      unfold controls
      rw [filter_cons_of_pos (by rw [decide_eq_true_eq]; exact hne)]
      rfl
    have htakes : Takes (f, data) ↔ data.length < 127 :=
      ⟨fun ht => ht.2 hne, fun hlt => ⟨fun hop => absurd hop hne, fun _ => hlt⟩⟩
    rw [hfrag, hctl, append_nil, htakes]
    unfold acceptFrame
    rw [dispatchFrame_control h hc.opcode hc.payload]
    by_cases hlt : data.length < 127
    · rw [if_pos hlt]
      refine .inr ⟨hlt, b, hb, ?_⟩
      rw [← hs]
      rfl
    · rw [if_neg hlt]
      exact .inl ⟨hlt, rfl⟩

lemma fragments_cons (f : WireFrame) (fs : List WireFrame) :
    fragments (f :: fs) = fragments [f] ++ fragments fs := by
  unfold fragments
  rw [← flatten_append, ← map_append, ← filter_append]
  rfl

lemma controls_cons (f : WireFrame) (fs : List WireFrame) :
    controls (f :: fs) = controls [f] ++ controls fs := by
  unfold controls
  rw [← map_append, ← filter_append]
  rfl

lemma iter_middle {xs : List (WireFrame × Bytes)} (hxs : ∀ x ∈ xs, IsFrame x.1 x.2 ∧ IsMiddle x.1)
    (hcode : first.opcode.code < 16) (hb : Collects first acc b) (hs : s.websocketBuffer = some b)
    (htotal : (acc ++ fragments (xs.map Prod.fst)).length ≤ maxLength) (hmax : maxLength < 2^32) :
    ((¬ ∀ x ∈ xs, Takes x) ∧ iter (acceptFrame maxLength) (xs.map Prod.snd) s = none) ∨
    ((∀ x ∈ xs, Takes x) ∧ ∃ b', Collects first (acc ++ fragments (xs.map Prod.fst)) b' ∧
      iter (acceptFrame maxLength) (xs.map Prod.snd) s =
        some { s with websocketBuffer := some b', tasks := s.tasks ++ controls (xs.map Prod.fst) }) := by
  induction xs generalizing s acc b with
  | nil =>
    refine .inr ⟨nofun, b, (append_nil acc).symm ▸ hb, ?_⟩
    show some s = some { s with websocketBuffer := some b, tasks := s.tasks ++ [] }
    rw [append_nil, ← hs]
  | cons x xs ih =>
    obtain ⟨hframe, hmid⟩ := hxs x mem_cons_self
    have hfrag : acc ++ fragments ((x :: xs).map Prod.fst) =
        acc ++ fragments [x.1] ++ fragments (xs.map Prod.fst) := by
      rw [map_cons, fragments_cons, append_assoc]
    have hctl : controls ((x :: xs).map Prod.fst) = controls [x.1] ++ controls (xs.map Prod.fst) :=
      controls_cons _ _
    have hiter : iter (acceptFrame maxLength) ((x :: xs).map Prod.snd) s =
        (acceptFrame maxLength x.2 s).bind (iter (acceptFrame maxLength) (xs.map Prod.snd)) := rfl
    rw [hfrag] at htotal ⊢
    rw [hctl, hiter]
    have hpart : (acc ++ fragments [x.1]).length ≤ maxLength := by
      rw [length_append] at htotal
      omega
    rcases acceptFrame_middle hframe hmid hcode hb hs hpart hmax with ⟨hnot, he⟩ | ⟨htakes, b₁, hb₁, he⟩
    · rw [he]
      exact .inl ⟨fun hall => hnot (hall x mem_cons_self), rfl⟩
    · rw [he, ← append_assoc]
      have hs₁ : { s with websocketBuffer := some b₁, tasks := s.tasks ++ controls [x.1] }.websocketBuffer =
        some b₁ := rfl
      rcases ih (fun y hy => hxs y (mem_cons_of_mem _ hy)) hb₁ hs₁ htotal with ⟨hnot, hi⟩ | ⟨hall, b', hb', hi⟩
      · exact .inl ⟨fun hall => hnot fun y hy => hall y (mem_cons_of_mem _ hy), hi⟩
      · refine .inr ⟨?_, b', hb', hi⟩
        intro y hy
        rcases mem_cons.1 hy with rfl | hy
        · exact htakes
        · exact hall y hy

end

/-- a message in several fragments, with pings and pongs between them -/
structure IsMessage (first : WireFrame × Bytes) (middle : List (WireFrame × Bytes))
    (last : WireFrame × Bytes) : Prop where
  first_frame : IsFrame first.1 first.2
  first_opcode : first.1.opcode = .text ∨ first.1.opcode = .binary
  first_fin : first.1.fin = false
  middle_frames : ∀ x ∈ middle, IsFrame x.1 x.2 ∧ IsMiddle x.1
  last_frame : IsFrame last.1 last.2
  last_opcode : last.1.opcode = .continuation
  last_fin : last.1.fin = true

def messagePayload (first : WireFrame × Bytes) (middle : List (WireFrame × Bytes))
    (last : WireFrame × Bytes) : Bytes :=
  first.1.payload ++ fragments (middle.map Prod.fst) ++ last.1.payload

variable {f : WireFrame} {s : WsConn}

lemma extFlags_fin_ne (hop : f.opcode = .text ∨ f.opcode = .binary) :
    0 ||| 1 ≠ f.header.extFlags ||| 1 := by
  have hcode : 1 ≤ f.opcode.code := by
    rcases hop with hop | hop
    · rw [hop]
      decide
    · rw [hop]
      decide
  have hge : 256 ≤ f.header.extFlags := by
    show 256 ≤ f.opcode.code * 256 + f.header.flags
    omega
  have hle : f.header.extFlags ≤ f.header.extFlags ||| 1 := Nat.left_le_or
  intro he
  have : (0 ||| 1 : Nat) = 1 := rfl
  omega

/-- **a message of several fragments** -/
theorem message_iff {maxLength : Nat} (hmax : maxLength < 2^32) (hs : s.websocketBuffer = none)
    {first last : WireFrame × Bytes} {middle : List (WireFrame × Bytes)} (h : IsMessage first middle last)
    (htotal : (messagePayload first middle last).length ≤ maxLength) :
    iter (acceptFrame maxLength) (first.2 :: (middle.map Prod.snd ++ [last.2])) s =
      some { s with tasks := s.tasks ++ controls (middle.map Prod.fst) ++
        [(first.1.header.extFlags ||| 1, messagePayload first middle last)] } ↔
    (∀ x ∈ middle, Takes x) ∧ last.1.payload.length < 2^31 ∧
      (first.1.payload = [] → messagePayload first middle last = []) := by
  have hcode : first.1.opcode.code < 16 := h.first_frame.1
  have hb := Collects.first first.1
  -- the first fragment
  have hfirst : acceptFrame maxLength first.2 s =
      some { s with websocketBuffer := some (firstBuffer first.1) } := by
    unfold acceptFrame
    rw [dispatchFrame_data h.first_frame h.first_opcode]
    unfold dispatchData
    rw [if_pos (show first.1.header.fin = false from h.first_fin), hs]
    rfl
  have hlen : (first.1.payload ++ fragments (middle.map Prod.fst)).length + last.1.payload.length ≤
      maxLength := by
    rw [← length_append]
    exact htotal
  show (acceptFrame maxLength first.2 s).bind (iter (acceptFrame maxLength) (middle.map Prod.snd ++ [last.2])) =
    _ ↔ _
  rw [hfirst, bind_some, iter_append]
  have hs₁ : { s with websocketBuffer := some (firstBuffer first.1) }.websocketBuffer =
    some (firstBuffer first.1) := rfl
  rcases iter_middle h.middle_frames hcode hb hs₁ (by omega) hmax with ⟨hnot, he⟩ | ⟨hall, b', hb', he⟩
  · rw [he]
    exact ⟨fun hsome => absurd hsome.symm (some_ne_none _), fun hcond => absurd hcond.1 hnot⟩
  · -- the last fragment
    have hs₂ : { s with
        websocketBuffer := some b', tasks := s.tasks ++ controls (middle.map Prod.fst) }.websocketBuffer =
          some b' := rfl
    have hlast := acceptFrame_continuation h.last_frame h.last_opcode hcode hb' hs₂ hlen hmax
    rw [if_pos h.last_fin] at hlast
    rw [he, bind_some]
    show (acceptFrame maxLength last.2 _).bind some = _ ↔ _
    rw [hlast]
    by_cases hint : last.1.payload.length < 2^31
    · rw [if_pos hint, bind_some]
      by_cases hlost : first.1.payload = [] ∧
          first.1.payload ++ fragments (middle.map Prod.fst) ++ last.1.payload ≠ []
      · rw [if_pos hlost]
        refine ⟨fun hsome => ?_, fun hcond => absurd (hcond.2.2 hlost.1) hlost.2⟩
        have htasks := congrArg WsConn.tasks (some.inj hsome)
        have hflags := (Prod.mk.inj (singleton_inj.1 (append_cancel_left htasks))).1
        exact absurd hflags (extFlags_fin_ne h.first_opcode)
      · rw [if_neg hlost]
        refine ⟨fun _ => ⟨hall, hint, fun hnil => not_not.1 fun hne => hlost ⟨hnil, hne⟩⟩, fun _ => ?_⟩
        rw [← hs]
        rfl
    · rw [if_neg hint]
      exact ⟨fun hsome => absurd hsome.symm (some_ne_none _), fun hcond => absurd hcond.2.1 hint⟩

lemma dispatchFrame_incomplete {data : Bytes} (h : IsFrame f data)
    (hop : f.opcode = .text ∨ f.opcode = .binary) (maxLength : Nat) (hs : s.websocketBuffer.isSome = true) :
    dispatchFrame maxLength data s =
      if f.fin then (.ok, s.dispatchTask f.header.extFlags f.payload) else (.err, s) := by
  rw [dispatchFrame_data h hop]
  unfold dispatchData
  rw [show f.header.fin = f.fin from rfl]
  cases f.fin with
  | true => rfl
  | false => exact if_pos hs

/-- **Messages are reassembled** exactly if the fragments and the pings and pongs between them fit, and the first
fragment is not empty unless all are. -/
theorem reassembly_iff (maxLength : Nat) (hmax : maxLength < 2^32) (s : WsConn) :
    (∀ f data, IsFrame f data → (f.opcode = .text ∨ f.opcode = .binary) → f.fin = true →
      acceptFrame maxLength data s = some { s with tasks := s.tasks ++ [(f.header.extFlags, f.payload)] }) ∧
    (s.websocketBuffer = none → ∀ first middle last, IsMessage first middle last →
      (messagePayload first middle last).length ≤ maxLength →
      (iter (acceptFrame maxLength) (first.2 :: (middle.map Prod.snd ++ [last.2])) s =
          some { s with tasks := s.tasks ++ controls (middle.map Prod.fst) ++
            [(first.1.header.extFlags ||| 1, messagePayload first middle last)] } ↔
        (∀ x ∈ middle, Takes x) ∧ last.1.payload.length < 2^31 ∧
          (first.1.payload = [] → messagePayload first middle last = []))) ∧
    (s.websocketBuffer.isSome = true → ∀ f data, IsFrame f data → (f.opcode = .text ∨ f.opcode = .binary) →
      (dispatchFrame maxLength data s = (.err, s) ↔ f.fin = false)) := by
  refine ⟨?_, ?_, ?_⟩
  · intro f data h hop hfin
    unfold acceptFrame
    rw [dispatchFrame_data h hop]
    unfold dispatchData
    have hne : ¬ f.header.fin = false := fun he => Bool.noConfusion (hfin.symm.trans he)
    rw [if_neg hne]
    rfl
  · intro hs first middle last h htotal
    exact message_iff hmax hs h htotal
  · intro hs f data h hop
    rw [dispatchFrame_incomplete h hop maxLength hs]
    cases f.fin with
    | true => exact ⟨fun he => DispatchRes.noConfusion (Prod.mk.inj he).1, fun he => Bool.noConfusion he⟩
    | false => exact ⟨fun _ => rfl, fun _ => rfl⟩

def helloFirst : WireFrame × Bytes := (⟨.text, false, false, false, false, none, [104]⟩, [0x01, 1, 104])
def helloPing : WireFrame × Bytes := (⟨.ping, false, false, false, true, none, []⟩, [0x89, 0])
def helloLast : WireFrame × Bytes := (⟨.continuation, false, false, false, true, none, [105]⟩, [0x80, 1, 105])

/-- two fragments with a ping between them -/
theorem reassembly_iff_two : iter (acceptFrame 65536) [[0x01, 1, 104], [0x89, 0], [0x80, 1, 105]]
    WsConn.init = some { WsConn.init with tasks := [(0x901, []), (0x101, [104, 105])] } := by
  have hmsg : IsMessage helloFirst [helloPing] helloLast := by
    refine ⟨⟨by decide, rfl, fun _ hk => absurd hk (not_mem_none _), 1, [], .inl (by decide), rfl⟩,
      .inl rfl, rfl, ?_,
      ⟨by decide, rfl, fun _ hk => absurd hk (not_mem_none _), 1, [], .inl (by decide), rfl⟩, rfl, rfl⟩
    intro x hx
    obtain rfl := mem_singleton.1 hx
    exact ⟨⟨by decide, rfl, fun _ hk => absurd hk (not_mem_none _), 0, [], .inl (by decide), rfl⟩,
      .inr ⟨.inl rfl, rfl, by decide⟩⟩
  refine ((reassembly_iff 65536 (by decide) WsConn.init).2.1 rfl helloFirst [helloPing] helloLast hmsg
    (by decide)).2 ⟨?_, by decide, nofun⟩
  intro x hx
  obtain rfl := mem_singleton.1 hx
  exact ⟨nofun, fun _ => by decide⟩

/-- an empty text fragment loses the opcode of its message; and a final text frame inside of a message is
dispatched -/
theorem reassembly_breaks :
    (iter (acceptFrame 65536) [[0x01, 0], [0x80, 1, 105]] WsConn.init).map (fun s => s.tasks) =
      some [(1, [105])] ∧
    (iter (acceptFrame 65536) [[0x01, 1, 104], [0x81, 1, 105]] WsConn.init).map (fun s => s.tasks) =
      some [(0x101, [105])] := by
  decide +kernel

end Websocket
end OSW
