import OpenSwoole.Protocol.WebSocketCodec

/-!
# WebSocket control frames

Pings and pongs in `websocket::dispatch_frame`, and the close frames of `websocket::pack_close_frame`.
`dispatch_frame` compares the length of the whole frame with 127 where the limit is a payload of 125
bytes, and it takes the payload to start behind two bytes and the key, whatever the form of the
length.  `pack_close_frame` accepts a reason of 125 bytes and forgets the two of the code.

* `dispatchFrame_extended`   a ping or pong with an extended length.
-/

namespace OSW
namespace Websocket

open Reads List

section
variable {data : Bytes}

lemma decode_length {header : Header} {n : Nat} {data' : Bytes} (h : decode data = some (header, n, data')) :
    data'.length = data.length := by
  unfold decode at h
  simp only at h
  split at h
  · cases h
  split at h
  · cases h
    rfl
  split at h
  · split at h
    · cases h
    · cases h
      simp only [length_append, maskBytes_length, length_take, length_drop]
      omega
  · split at h
    · cases h
    · cases h
      rfl

lemma decode_whole {n : Nat} (h : frameLen data = some n) (hn : n ≤ data.length) :
    ∃ data', decode data = some (headerAt data, payloadSize (data.getD 1 0).toNat data, data') := by
  obtain ⟨-, -, rfl⟩ := frameLen_eq_some h
  have hsize := headerSize_eq data
  have hheader : Header.ofBytes (data.getD 0 0).toNat (data.getD 1 0).toNat = headerAt data := rfl
  unfold decode
  simp only [hheader]
  rw [if_neg (by omega)]
  by_cases hz : payloadSize (data.getD 1 0).toNat data = 0
  · rw [hz]
    exact ⟨_, rfl⟩
  rw [if_neg hz]
  cases hm : (headerAt data).mask with
  | false =>
    rw [if_neg Bool.false_ne_true, if_neg (by omega)]
    exact ⟨_, rfl⟩
  | true =>
    rw [hm, if_pos rfl] at hsize
    rw [if_pos rfl, if_neg (by omega)]
    exact ⟨_, rfl⟩

lemma two_le_extLen {b : Nat} (h : 126 ≤ b % 128) : 2 ≤ extLen b := by
  unfold extLen ext16Length ext64Length
  split
  · exact le_rfl
  · rw [if_pos (by omega)]
    decide

lemma dispatchFrame_extended (maxLength : Nat) (s : WsConn) (h : frameLen data = some data.length)
    (hop : (headerAt data).opcode = .ping ∨ (headerAt data).opcode = .pong)
    (hext : 126 ≤ (data.getD 1 0).toNat % 128) :
    (127 ≤ data.length ∧ dispatchFrame maxLength data s = (.err, s)) ∨
    (data.length < 127 ∧ ∃ bytes, payloadSize (data.getD 1 0).toNat data < bytes.length ∧
      dispatchFrame maxLength data s = (.ok, s.dispatchTask (headerAt data).extFlags bytes)) := by
  obtain ⟨data', hd⟩ := decode_whole h le_rfl
  have hlen := decode_length hd
  obtain ⟨-, -, htotal⟩ := frameLen_eq_some h
  have hsize := headerSize_eq data
  have hlong := two_le_extLen hext
  have hctl : dispatchFrame maxLength data s = dispatchControl (headerAt data) data' s := by
    unfold dispatchFrame
    rw [hd]
    rcases hop with hop | hop
    · simp only [hop]
    · simp only [hop]
  rw [hctl]
  unfold dispatchControl
  rw [hlen]
  by_cases hlt : data.length < 127
  · refine .inr ⟨hlt, ?_⟩
    rw [if_neg (by show ¬ 127 ≤ data.length; omega), if_neg (by omega)]
    refine ⟨_, ?_, rfl⟩
    rw [length_drop]
    cases hm : (headerAt data).mask with
    | true =>
      rw [hm, if_pos rfl] at hsize
      rw [if_pos rfl]
      omega
    | false =>
      rw [if_neg Bool.false_ne_true]
      omega
  · exact .inl ⟨by omega, if_pos (by show 127 ≤ data.length; omega)⟩

end

/-- **Control frames carry their payload exactly** if the whole frame has less than 127 bytes. -/
theorem control_frames_iff (maxLength : Nat) (s : WsConn) :
    (∀ f data, IsFrame f data → f.opcode = .ping ∨ f.opcode = .pong → f.payload.length ≤ 125 →
      (dispatchFrame maxLength data s = (.ok, s.dispatchTask f.header.extFlags f.payload) ↔
        data.length < 127)) ∧
    (∀ data, frameLen data = some data.length →
      (headerAt data).opcode = .ping ∨ (headerAt data).opcode = .pong →
      126 ≤ (data.getD 1 0).toNat % 128 →
      (dispatchFrame maxLength data s = (.err, s) ↔ 127 ≤ data.length)) := by
  refine ⟨fun f data h hop hpayload => ?_, fun data h hop hext => ?_⟩
  · rw [dispatchFrame_control h hop hpayload]
    by_cases hlt : data.length < 127
    · rw [if_pos hlt]
      exact ⟨fun _ => hlt, fun _ => rfl⟩
    · rw [if_neg hlt]
      exact ⟨(fun he => by cases he), fun h0 => absurd h0 hlt⟩
  · rcases dispatchFrame_extended maxLength s h hop hext with ⟨hge, he⟩ | ⟨hlt, bytes, -, he⟩
    · exact ⟨fun _ => hge, fun _ => he⟩
    · rw [he]
      exact ⟨(fun h0 => by cases h0), fun hge => absurd hlt (not_lt.2 hge)⟩

/-- pings of 125 bytes are refused; one with a length of 16 bits is dispatched with the length -/
theorem control_frames_break : (dispatchFrame 65536 (0x89 :: 125 :: replicate 125 65) .init).1 = .err ∧
    (dispatchFrame 65536 (0x89 :: 249 :: replicate 129 65) .init).1 = .err ∧
    (dispatchFrame 65536 [0x89, 126, 0, 1, 65] .init).1 = .ok ∧
    (dispatchFrame 65536 [0x89, 126, 0, 1, 65] .init).2.tasks = [(9 * 256 + 1, [0, 1, 65])] := by
  decide +kernel

/-! ## close frames -/

/-- `pack_close_frame` with a code of 16 bits; `none` is `OSW_ERR` -/
def packCloseFrame (buffer : OswString) (code : Nat) (reason : Bytes) (flags : UInt8) : Option OswString :=
  if closeReasonMaxLen < reason.length then none
  else
    let payload := UInt8.ofNat (code >>> 8) :: UInt8.ofNat code :: reason
    some (encode buffer payload Opcode.close.code (flags ||| 1)).2

/-- a frame with a length of seven bits and a payload of at most 125 bytes, which decodes to the code
and the reason -/
def IsLegalClose (frame : Bytes) (code : Nat) (reason : Bytes) : Prop :=
  (frame.getD 1 0).toNat % 128 < 126 ∧ payloadSize (frame.getD 1 0).toNat frame ≤ 125 ∧
    ∃ header n data', decode frame = some (header, n, data') ∧ header.opcode = .close ∧
      be ((data'.drop (data'.length - n)).take 2) = code ∧ (data'.drop (data'.length - n)).drop 2 = reason

lemma hasFlag_fin {flags : UInt8} {k : Nat} (hk : k ≠ 0) : hasFlag (flags ||| 1) k = hasFlag flags k := by
  have hone : Nat.testBit 1 k = false := by
    rw [Bool.eq_false_iff]
    exact fun h => hk (Nat.testBit_one_eq_true_iff_self_eq_zero.1 h)
  unfold hasFlag
  rw [UInt8.toNat_or, Nat.testBit_or, show (1 : UInt8).toNat = 1 from rfl, hone, Bool.or_false]

lemma be_code {code : Nat} (h : code < 2^16) : be [UInt8.ofNat (code >>> 8), UInt8.ofNat code] = code := by
  show (UInt8.ofNat code).toNat + 256 * ((UInt8.ofNat (code >>> 8)).toNat + 256 * 0) = code
  rw [UInt8.toNat_ofNat', UInt8.toNat_ofNat']
  omega

section
variable {data : Bytes} {opcode : Nat} {flags : UInt8}

variable (hlen : data.length < 2^64)
include hlen

lemma encode_form (rest : Bytes) :
    ((frameHeader data.length opcode flags ++ rest).getD 1 0).toNat % 128 < 126 ↔ data.length < 126 := by
  obtain ⟨l, ext, hl, he⟩ := frameHeader_eq data opcode flags hlen
  have hlt : l < 128 := (payloadSize_frame hl false 0 0 []).1
  rw [he]
  show (UInt8.ofNat (l + 128 * _)).toNat % 128 < 126 ↔ _
  rw [byte1_toNat hlt]
  rcases hl with ⟨rfl, hn, -⟩ | ⟨rfl, hn, -⟩ | ⟨rfl, hn, -⟩ <;> omega

lemma encode_hasHead (rest : Bytes) :
    HasHead (frameHeader data.length opcode flags ++ rest) (frameHeader data.length opcode flags)
      (wireFrame data opcode flags).header data.length := by
  obtain ⟨l, ext, hl, he⟩ := frameHeader_eq data opcode flags hlen
  have hcode : (wireFrame data opcode flags).opcode.code = opcode % 16 := code_ofCode _
  rw [he]
  refine hasHead_frame (f := wireFrame data opcode flags) ?_ ?_ hl rest
  · rw [hcode]
    exact Nat.mod_lt _ (by decide)
  · rw [hcode]
    rfl

lemma decode_headerOnly (hpos : 0 < data.length) (honly : hasFlag flags flagEncodeHeaderOnly = true) :
    decode (frameHeader data.length opcode flags ++ frameBody data flags) = none := by
  have hbody : frameBody data flags = if hasFlag flags flagMask then maskData else [] := by
    unfold frameBody
    rw [honly, if_pos rfl, append_nil]
  have hhead := @encode_hasHead data opcode flags hlen (frameBody data flags)
  have hmask : (wireFrame data opcode flags).header.mask = hasFlag flags flagMask := isSome_key data opcode flags
  unfold decode
  simp only [hhead.header, hhead.length, hhead.payload, hmask]
  rw [if_neg (by rw [length_append]; omega), if_neg (by omega), length_append, hbody]
  cases hasFlag flags flagMask with
  | true =>
    rw [if_pos rfl, if_pos]
    show (frameHeader data.length opcode flags).length + 4 <
      (frameHeader data.length opcode flags).length + 4 + _
    omega
  | false =>
    rw [if_neg Bool.false_ne_true, if_pos]
    show (frameHeader data.length opcode flags).length + 0 < _
    omega

end

/-- **Close frames built by the server are legal**, exactly if the reason has at most 123 bytes and the flags do
not ask for the header only. -/
theorem pack_close_iff (b b' : OswString) (hb : b.length ≤ b.size) (code : Nat) (hcode : code < 2^16)
    (reason : Bytes) (flags : UInt8) (hpack : packCloseFrame b code reason flags = some b') :
    ∃ frame, b'.str = b.str ++ frame ∧ (IsLegalClose frame code reason ↔
        reason.length ≤ 123 ∧ hasFlag flags flagEncodeHeaderOnly = false) := by
  unfold packCloseFrame at hpack
  split at hpack
  · cases hpack
  rename_i hmax
  unfold closeReasonMaxLen at hmax
  cases hpack
  refine ⟨_, encode_str hb _ _ _, ?_⟩
  have hlen : (UInt8.ofNat (code >>> 8) :: UInt8.ofNat code :: reason).length = reason.length + 2 := rfl
  generalize hp : UInt8.ofNat (code >>> 8) :: UInt8.ofNat code :: reason = payload at *
  have honly : hasFlag (flags ||| 1) flagEncodeHeaderOnly = hasFlag flags flagEncodeHeaderOnly :=
    hasFlag_fin (by decide)
  have hform := @encode_form payload Opcode.close.code (flags ||| 1) (by omega)
    (frameBody payload (flags ||| 1))
  have hhead := @encode_hasHead payload Opcode.close.code (flags ||| 1) (by omega)
    (frameBody payload (flags ||| 1))
  cases hflag : hasFlag flags flagEncodeHeaderOnly with
  | true =>
    have hnone := @decode_headerOnly payload Opcode.close.code _ (by omega) (by omega) (honly.trans hflag)
    constructor
    · rintro ⟨-, -, header, n, data', hd, -⟩
      rw [hnone] at hd
      cases hd
    · rintro ⟨-, h0⟩
      cases h0
  | false =>
    constructor
    · rintro ⟨h7, -⟩
      exact ⟨by omega, rfl⟩
    · rintro ⟨hle, -⟩
      obtain ⟨data', hd, -, hdrop⟩ := decode_payload
        (isFrame_encode payload Opcode.close.code (flags ||| 1) (honly.trans hflag) (by omega))
      refine ⟨hform.2 (by omega), by rw [hhead.payload]; omega, _, _, data', hd, rfl, ?_⟩
      rw [hdrop]
      rw [← hp]
      exact ⟨be_code hcode, rfl⟩

/-- a normal close with the reason `bye` -/
theorem pack_close_normal : ∃ frame, ([0x88, 5, 3, 232, 98, 121, 101] : Bytes) = [] ++ frame ∧
      (IsLegalClose frame 1000 [98, 121, 101] ↔
        ([98, 121, 101] : Bytes).length ≤ 123 ∧ hasFlag 0 flagEncodeHeaderOnly = false) :=
  pack_close_iff ⟨[], 0, 0⟩ ⟨[0x88, 5, 3, 232, 98, 121, 101], 8, 0⟩ (by decide) 1000
    (by decide) [98, 121, 101] 0 rfl

lemma not_legal_of_long {b : OswString} (hb : b.length ≤ b.size) (hnil : b.str = []) {reason : Bytes}
    (hlen : reason.length = 124) :
    ∃ b', packCloseFrame b 1000 reason 0 = some b' ∧ ¬ IsLegalClose b'.str 1000 reason := by
  refine ⟨_, if_neg (by rw [hlen]; decide), ?_⟩
  rintro ⟨h7, -⟩
  rw [encode_str hb, hnil] at h7
  have hshort := (encode_form (by rw [length_cons, length_cons, hlen]; decide) _).1 h7
  rw [length_cons, length_cons] at hshort
  omega

/-- a reason of 124 bytes is accepted, and the frame has a length of 16 bits -/
theorem pack_close_long : ∃ b', packCloseFrame ⟨[], 0, 0⟩ 1000 (replicate 124 65) 0 = some b' ∧
      ¬ IsLegalClose b'.str 1000 (replicate 124 65) :=
  not_legal_of_long (b := ⟨[], 0, 0⟩) le_rfl rfl length_replicate

end Websocket
end OSW
