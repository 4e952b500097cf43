import OpenSwoole.Lib.Reads
import OpenSwoole.Protocol.Http2

/-!
# What the server's frame parser reads

`openswoole_http2_server_parse` and `http2_parse_header` of `ext-src/openswoole_http2_server.cc`, with every
access to the buffer that the frame stands in.  The frame begins at offset 0; what follows it in memory is
arbitrary.  The parser takes the length of the payload from the frame and compares it with nothing: the
loads of a frame type happen whatever the length is, and five bytes are taken off an unsigned length when
`PRIORITY` is set.

nghttp2 may read the whole header block that it is given, and nothing else.  Whether it can change the size
of its table is a parameter.  The texts of trace logs are left out.

* `parseReads`   the parser, with what it reads;
* `Fits`   the payload is as long as the loads of its type need it;
* `parseReads_value`   on a frame that fits, the parser is `Session.parse`.
-/

namespace OSW.Http2
open Reads List

/-! ## the parser -/

/-- the fields are in network byte order -/
def readBe (offset length : Nat) : Reads UInt8 Nat := do
  return be (← take offset length)

def priority (flags : UInt8) : Bool := flags.toNat.testBit 5

/-- `while (length > 0)`: the length is signed, and the last turn may take it below zero.  The result tells
whether nghttp2 has accepted the size of the header table. -/
def readSettings (tableOk : Nat → Bool) (remote : Settings) (buf length : Nat) : Reads UInt8 (Bool × Settings) :=
  if _h : length = 0 then pure (true, remote)
  else do
    let id ← readBe buf 2
    let value ← readBe (buf + 2) 4
    if id = 1 ∧ value ≠ remote.headerTableSize ∧ tableOk value = false then
      pure (false, Session.applySetting remote id value)
    else readSettings tableOk (Session.applySetting remote id value) (buf + 6) (length - 6)
termination_by length

/-- `in` and `inlen` as `http2_parse_header` hands them to nghttp2 -/
def headerBlock (flags : UInt8) (length : Nat) : Span :=
  if priority flags then ⟨frameHeaderSize + 5, (length + 2^64 - 5) % 2^64⟩ else ⟨frameHeaderSize, length⟩

/-- whether nghttp2 accepts a header block, and whether it accepts a table size -/
structure Hpack where
  inflate : Bytes → Bool
  tableOk : Nat → Bool

def Hpack.lenient : Hpack := ⟨fun _ => true, fun _ => true⟩

namespace Session

variable (sendYield : Bool) (h : Hpack)

/-- the `switch` over the types; the header block is part of the result -/
def frameReads (s : Session) (type : Option FrameType) (flags : UInt8) (id length : Nat) :
    Reads UInt8 (Parsed × Option Span) :=
  match type with
  | some .settings =>
    if isAck flags then pure (⟨true, s, []⟩, none)
    else do
      let r ← readSettings h.tableOk s.remoteSettings frameHeaderSize length
      let s := { s with remoteSettings := r.2 }
      if r.1 then return (⟨true, s, [.send (setFrameHeader .settings 0 1 id)]⟩, none)
      else return (⟨false, s, []⟩, none)
  | some .headers => do
    let block := headerBlock flags length
    let fields ← take block.offset block.length
    return (s.onHeaders ⟨sendYield, fun _ => h.inflate⟩ flags id fields, some block)
  | some .data =>
    if (s.streams id).isSome then do
      let payload ← take frameHeaderSize length
      return (s.onData flags id payload, none)
    else pure (⟨false, s, []⟩, none)
  | some .ping =>
    if isAck flags then pure (⟨true, s, []⟩, none)
    else do
      let payload ← take frameHeaderSize 8
      return (⟨true, s, [.send (wire .ping 1 id payload)]⟩, none)
  | some .windowUpdate => do
    let value ← take frameHeaderSize 4
    return (s.onWindowUpdate ⟨sendYield, fun _ => h.inflate⟩ id value, none)
  | some .rstStream => do
    let _errorCode ← readBe frameHeaderSize 4
    return (s.onRstStream id, none)
  | some .goaway => do
    let _lastStreamId ← readBe frameHeaderSize 4
    let _errorCode ← readBe (frameHeaderSize + 4) 4
    return (⟨true, s, []⟩, none)
  | _ => pure (⟨true, s, []⟩, none)

def parseReads (s : Session) : Reads UInt8 (Parsed × Option Span) := do
  let type ← get 3
  let flags ← get 4
  let word ← readBe 5 4
  let id := word % 2^31
  let s := s.noteStream id
  if s.shuttingDown then return (⟨true, s, []⟩, none)
  let length ← readBe 0 3
  s.frameReads sendYield h (FrameType.ofCode type) flags id length

end Session

/-! ## fields -/

@[simp] lemma within_readBe {m : Nat → UInt8} {bound : Nat} (offset length : Nat) :
    Within m bound (readBe offset length) ↔ offset + length ≤ bound := by
  simp [readBe]

variable {length : Nat}

lemma value_readBe (frame : Bytes) (rest : Nat → UInt8) {offset : Nat} (h : offset + length ≤ frame.length) :
    value (readBe offset length) (memory frame rest) = be ((frame.drop offset).take length) :=
  congrArg be (take_memory frame rest h)

section head

variable {frame : Bytes} (hframe : frameHeaderSize ≤ frame.length) (rest : Nat → UInt8)
include hframe

lemma memory_type : memory frame rest 3 = (readHead frame).type :=
  memory_eq_getD frame rest (lt_of_lt_of_le (by decide) hframe) 0

lemma memory_flags : memory frame rest 4 = (readHead frame).flags :=
  memory_eq_getD frame rest (lt_of_lt_of_le (by decide) hframe) 0

lemma value_streamId : value (readBe 5 4) (memory frame rest) % 2^31 = (readHead frame).streamId := by
  rw [value_readBe frame rest hframe]
  rfl

lemma value_length : value (readBe 0 3) (memory frame rest) = (readHead frame).length := by
  rw [value_readBe frame rest (le_trans (by decide) hframe)]
  rfl

end head

lemma length_readHead_lt (frame : Bytes) : (readHead frame).length < 2^24 :=
  lt_of_lt_of_eq (be_take_lt frame 3) (by decide)

/-! ## settings -/

section settings

variable {buf : Nat} {tableOk : Nat → Bool} {α : Type} {remote : Settings} {flags : UInt8}

lemma within_readSettings (tableOk : Nat → Bool) (m : Nat → UInt8) (bound : Nat)
    (hlen : length % 6 = 0) (hbuf : buf + length ≤ bound) (remote : Settings) :
    Within m bound (readSettings tableOk remote buf length) := by
  induction length using Nat.strongRecOn generalizing buf remote with
  | ind length ih =>
    rw [readSettings]
    split
    · exact within_pure _
    · next hpos =>
      simp only [within_bind, within_readBe]
      refine ⟨by omega, by omega, ?_⟩
      split
      · exact within_pure _
      · exact ih (length - 6) (by omega) (by omega) (by omega) _

lemma readSettings_overruns (htable : ∀ size, tableOk size = true) (m : Nat → UInt8)
    (hlen : length % 6 ≠ 0) (buf : Nat) (remote : Settings) :
    ¬ Within m (buf + length) (readSettings tableOk remote buf length) := by
  induction length using Nat.strongRecOn generalizing buf remote with
  | ind length ih =>
    rw [readSettings, dif_neg (by omega)]
    simp only [within_bind, within_readBe, htable, Bool.true_eq_false, and_false, if_false]
    rintro ⟨-, hlast, hrest⟩
    by_cases hshort : length < 6
    · omega
    · apply ih (length - 6) (by omega) (by omega) (buf + 6) _
      rwa [show buf + 6 + (length - 6) = buf + length by omega]

lemma within_unlessAck (hfits : isAck flags = true ∨ length % 6 = 0) (m : Nat → UInt8) (a : α)
    {f : Bool × Settings → Reads UInt8 α} (hf : ∀ r, Within m (frameHeaderSize + length) (f r)) :
    Within m (frameHeaderSize + length)
      (if isAck flags then pure a else readSettings tableOk remote frameHeaderSize length >>= f) := by
  split
  · exact within_pure a
  · next hack =>
    rw [within_bind]
    exact ⟨within_readSettings _ _ _ (hfits.resolve_left hack) le_rfl _, hf _⟩

lemma unlessAck_overruns (htable : ∀ size, tableOk size = true)
    (hfits : ¬ (isAck flags = true ∨ length % 6 = 0)) (m : Nat → UInt8) (a : α)
    (f : Bool × Settings → Reads UInt8 α) :
    ¬ Within m (frameHeaderSize + length)
      (if isAck flags then pure a else readSettings tableOk remote frameHeaderSize length >>= f) := by
  obtain ⟨hack, hlen⟩ := not_or.1 hfits
  rw [if_neg hack, within_bind]
  exact fun hw => readSettings_overruns htable m hlen _ _ hw.1

lemma exists_six {bs : Bytes} (h : 6 ≤ bs.length) :
    ∃ a b c d e f rest, bs = a :: b :: c :: d :: e :: f :: rest := by
  rcases bs with _ | ⟨a, _ | ⟨b, _ | ⟨c, _ | ⟨d, _ | ⟨e, _ | ⟨f, rest⟩⟩⟩⟩⟩⟩
  all_goals simp at h
  exact ⟨a, b, c, d, e, f, rest, rfl⟩

lemma value_readSettings (htable : ∀ size, tableOk size = true) (frame : Bytes) (rest : Nat → UInt8)
    (hlen : length % 6 = 0) (hbuf : buf + length = frame.length) (remote : Settings) :
    value (readSettings tableOk remote buf length) (memory frame rest) =
      (true, Session.applySettings remote (frame.drop buf)) := by
  induction length using Nat.strongRecOn generalizing buf remote with
  | ind length ih =>
    rw [readSettings]
    split
    · next hzero =>
      rw [drop_eq_nil_of_le (by omega)]
      rfl
    · next hpos =>
      have hsix : 6 ≤ (frame.drop buf).length := by
        rw [length_drop]
        omega
      obtain ⟨a, b, c, d, e, f, tail, hdrop⟩ := exists_six hsix
      have hdrop2 : frame.drop (buf + 2) = c :: d :: e :: f :: tail := by
        rw [← drop_drop, hdrop]
        rfl
      have hdrop6 : frame.drop (buf + 6) = tail := by
        rw [← drop_drop, hdrop]
        rfl
      have hnext := ih (length - 6) (by omega) (by omega) (show buf + 6 + (length - 6) = frame.length by omega)
        (Session.applySetting remote (be [a, b]) (be [c, d, e, f]))
      simp only [value_bind, value_readBe frame rest (show buf + 2 ≤ frame.length by omega),
        value_readBe frame rest (show buf + 2 + 4 ≤ frame.length by omega), htable,
          Bool.true_eq_false, and_false, hdrop, hdrop2]
      rw [hdrop6] at hnext
      exact hnext

end settings

/-! ## frames -/

def Fits (type : Option FrameType) (flags : UInt8) (length : Nat) : Prop :=
  match type with
  | some .settings => isAck flags = true ∨ length % 6 = 0
  | some .headers => priority flags = true → 5 ≤ length
  | some .ping => isAck flags = true ∨ 8 ≤ length
  | some .windowUpdate | some .rstStream => 4 ≤ length
  | some .goaway => 8 ≤ length
  | _ => True

instance (type : Option FrameType) (flags : UInt8) (length : Nat) : Decidable (Fits type flags length) := by
  unfold Fits
  split <;> infer_instance

lemma headerBlock_below {flags : UInt8} (hlen : length < 2^24) :
    (headerBlock flags length).Below (frameHeaderSize + length) ↔ (priority flags = true → 5 ≤ length) := by
  unfold headerBlock Span.Below
  split
  · next hp =>
    simp only [hp, forall_const]
    omega
  · next hp => simp [hp]

namespace Session

variable {sendYield : Bool} {h : Hpack}

variable {s : Session} {type : Option FrameType} {flags : UInt8} {frame : Bytes}

lemma within_frameReads_iff (htype : type ≠ some .settings) (hlen : length < 2^24) (id : Nat)
    (m : Nat → UInt8) :
    Within m (frameHeaderSize + length) (s.frameReads sendYield h type flags id length) ↔
      Fits type flags length := by
  unfold frameReads
  split
  · exact absurd rfl htype
  · simp only [within_bind, within_take, within_pure, and_true]
    exact headerBlock_below hlen
  · split <;> simp [Fits]
  · split
    · next hack => simp [Fits, hack]
    · next hack => simp [Fits, hack]
  · simp [Fits]
  · simp [Fits]
  · simp only [within_bind, within_readBe, within_pure, and_true, Fits]
    omega
  · unfold Fits
    split <;> simp_all

lemma within_frameReads (hlen : length < 2^24) (id : Nat) (m : Nat → UInt8) : (Fits type flags length →
      Within m (frameHeaderSize + length) (s.frameReads sendYield h type flags id length)) ∧
    ((∀ size, h.tableOk size = true) → ¬ Fits type flags length →
      ¬ Within m (frameHeaderSize + length) (s.frameReads sendYield h type flags id length)) := by
  by_cases htype : type = some .settings
  · subst htype
    refine ⟨fun hfits => ?_, fun htable hfits => unlessAck_overruns htable hfits m _ _⟩
    apply within_unlessAck hfits
    intro r
    split <;> exact within_pure _
  · exact ⟨(within_frameReads_iff htype hlen id m).2, fun _ => mt (within_frameReads_iff htype hlen id m).1⟩

lemma block_frameReads (s : Session) (type : Option FrameType) (flags : UInt8)
    (id length : Nat) (m : Nat → UInt8) : (value (s.frameReads sendYield h type flags id length) m).2 =
      if type = some .headers then some (headerBlock flags length) else none := by
  unfold frameReads
  split
  · split
    · rfl
    · rw [value_bind]
      split <;> rfl
  · rfl
  · split <;> rfl
  · split <;> rfl
  · rfl
  · rfl
  · rfl
  · next hheaders _ _ _ _ _ => exact (if_neg hheaders).symm

lemma headerBlock_above (flags : UInt8) (length : Nat) :
    frameHeaderSize ≤ (headerBlock flags length).offset := by
  unfold headerBlock
  split
  · exact Nat.le_add_right _ _
  · exact le_rfl

/-! ## the head of a frame -/

section head

variable (hframe : frameHeaderSize ≤ frame.length) (rest : Nat → UInt8)
include hframe

lemma value_parseReads (s : Session) : value (s.parseReads sendYield h) (memory frame rest) =
      if s.shuttingDown then (⟨true, s.noteStream (readHead frame).streamId, []⟩, none)
      else value ((s.noteStream (readHead frame).streamId).frameReads sendYield h
        (FrameType.ofCode (readHead frame).type) (readHead frame).flags (readHead frame).streamId
        (readHead frame).length) (memory frame rest) := by
  simp only [parseReads, value_bind, value_get, memory_type hframe, memory_flags hframe, value_streamId hframe,
    noteStream_shuttingDown]
  split
  · rfl
  · rw [value_bind, value_length hframe]

lemma within_parseReads (s : Session) {bound : Nat} (hbound : frameHeaderSize ≤ bound) :
    Within (memory frame rest) bound (s.parseReads sendYield h) ↔
      (s.shuttingDown = false → Within (memory frame rest) bound
        ((s.noteStream (readHead frame).streamId).frameReads sendYield h (FrameType.ofCode (readHead frame).type)
          (readHead frame).flags (readHead frame).streamId (readHead frame).length)) := by
  have hsize : frameHeaderSize = 9 := rfl
  simp only [parseReads, within_bind, within_get, within_readBe, value_get,
    memory_type hframe, memory_flags hframe, value_streamId hframe, noteStream_shuttingDown]
  rw [and_iff_right (by omega), and_iff_right (by omega), and_iff_right (by omega)]
  split
  · next hdown => simp [hdown]
  · next hup =>
    simp only [within_bind, within_readBe, value_length hframe, hup, forall_const]
    exact and_iff_right (by omega)

end head

/-! ## whole frames -/

lemma fields_frame (hframe : frame.length = frameHeaderSize + length) (hlen : length < 2^24)
    (hfits : Fits (some .headers) flags length) (rest : Nat → UInt8) :
    value (take (headerBlock flags length).offset (headerBlock flags length).length) (memory frame rest) =
      (frame.drop frameHeaderSize).drop (if priority flags then 5 else 0) := by
  have hbelow : (headerBlock flags length).Below frame.length := hframe ▸ (headerBlock_below hlen).2 hfits
  rw [take_memory frame rest hbelow]
  unfold headerBlock
  split
  · next hp =>
    rw [drop_drop, take_of_length_le]
    rw [length_drop]
    dsimp only
    omega
  · rw [drop_zero, take_of_length_le]
    rw [length_drop]
    dsimp only
    omega

lemma value_frameReads (htable : ∀ size, h.tableOk size = true)
    (hframe : frame.length = frameHeaderSize + length) (hlen : length < 2^24)
    (hfits : Fits type flags length) (id : Nat) (rest : Nat → UInt8) :
    (value (s.frameReads sendYield h type flags id length) (memory frame rest)).1 =
      s.dispatch ⟨sendYield, fun flags payload => h.inflate (payload.drop (if priority flags then 5 else 0))⟩
        type flags id ((frame.drop frameHeaderSize).take length) := by
  have hpayload : (frame.drop frameHeaderSize).take length = frame.drop frameHeaderSize :=
    take_of_length_le (by rw [length_drop]; omega)
  rw [hpayload]
  have htake : ∀ {offset n : Nat}, offset + n ≤ frameHeaderSize + length →
      value (take offset n) (memory frame rest) = (frame.drop offset).take n := by
    intro offset n hn
    exact take_memory frame rest (by omega)
  unfold frameReads
  split
  · show _ = s.onSettings flags id _
    unfold onSettings
    split
    · rfl
    · next hack =>
      have hsix := hfits.resolve_left hack
      rw [value_bind, value_readSettings htable frame rest hsix hframe.symm]
      rfl
  · rw [value_bind, fields_frame hframe hlen hfits rest]
    rfl
  · show _ = s.onData flags id _
    cases hstream : s.streams id with
    | none => simp [onData, hstream]
    | some stream =>
      rw [if_pos (show (some stream).isSome = true from rfl), value_bind, htake le_rfl, hpayload]
      rfl
  · show _ = s.onPing flags id _
    unfold onPing
    split
    · rfl
    · next hack =>
      have height : 8 ≤ length := hfits.resolve_left hack
      rw [value_bind, htake (by omega)]
      rfl
  · have hfour : 4 ≤ length := hfits
    rw [value_bind, htake (by omega)]
    simp only [onWindowUpdate, take_take, Nat.min_self]
    rfl
  · rfl
  · rfl
  · unfold dispatch
    split <;> first | rfl | contradiction

theorem parseReads_value (htable : ∀ size, h.tableOk size = true) (s : Session)
    (hframe : frame.length = frameHeaderSize + (readHead frame).length)
    (hfits : Fits (FrameType.ofCode (readHead frame).type) (readHead frame).flags (readHead frame).length)
    (rest : Nat → UInt8) :
    (value (s.parseReads sendYield h) (memory frame rest)).1 =
      s.parse ⟨sendYield, fun flags payload => h.inflate (payload.drop (if priority flags then 5 else 0))⟩
        frame := by
  rw [value_parseReads (by omega) rest s]
  unfold parse
  simp only [noteStream_shuttingDown]
  split
  · rfl
  · exact value_frameReads htable hframe (length_readHead_lt frame) hfits _ rest

theorem parseReads_ping :
    (value (new.parseReads true .lenient) (memory (wire .ping 0 0 (replicate 8 1)) fun _ => 0)).1 =
      new.parse .lenient (wire .ping 0 0 (replicate 8 1)) :=
  parseReads_value (fun _ => rfl) new (by decide) (by decide) _

/-- nothing outside a frame is read if the frame fits, and something is if it does not -/
theorem server_parse_inside (sendYield : Bool) (h : Hpack) (s : Session) (frame : Bytes)
    (hframe : frame.length = frameHeaderSize + (readHead frame).length) (rest : Nat → UInt8) :
    (s.shuttingDown = true ∨
        Fits (FrameType.ofCode (readHead frame).type) (readHead frame).flags (readHead frame).length →
      Within (memory frame rest) frame.length (s.parseReads sendYield h) ∧
      ∀ block, (value (s.parseReads sendYield h) (memory frame rest)).2 = some block →
        frameHeaderSize ≤ block.offset ∧ block.Below frame.length) ∧
    ((∀ size, h.tableOk size = true) → s.shuttingDown = false →
        ¬ Fits (FrameType.ofCode (readHead frame).type) (readHead frame).flags (readHead frame).length →
      ¬ Within (memory frame rest) frame.length (s.parseReads sendYield h)) := by
  have hlen := length_readHead_lt frame
  rw [within_parseReads (by omega) rest s (by omega), value_parseReads (by omega) rest s, hframe]
  constructor
  · intro hfits
    constructor
    · intro hup
      exact (within_frameReads hlen _ _).1 (hfits.resolve_left (by simp [hup]))
    · intro block hblock
      split at hblock
      · cases hblock
      · next hup =>
        rw [block_frameReads] at hblock
        obtain ⟨htype, he⟩ := Option.ite_none_right_eq_some.1 hblock
        have hheaders := hfits.resolve_left hup
        rw [htype] at hheaders
        cases he
        exact ⟨headerBlock_above _ _, (headerBlock_below hlen).2 hheaders⟩
  · intro htable hup hfits hw
    exact (within_frameReads hlen _ _).2 htable hfits (hw hup)

/-- `HEADERS` with `PRIORITY` and one byte of header block -/
theorem server_parse_inside_priority : let frame := wire .headers 0x25 1 [0, 0, 0, 0, 16, 0x82]
    Within (memory frame fun _ => 0) frame.length (new.parseReads true .lenient) ∧
      (value (new.parseReads true .lenient) (memory frame fun _ => 0)).2 = some ⟨14, 1⟩ :=
  ⟨((server_parse_inside true .lenient new _ (by decide) fun _ => 0).1 (by decide)).1, by decide +kernel⟩

/-- `PRIORITY` without the five bytes gives nghttp2 nearly the whole address space -/
theorem short_frames_overrun :
    (value (new.parseReads true .lenient) (memory (wire .headers 0x24 1 []) fun _ => 0)).2 =
      some ⟨14, 2^64 - 5⟩ ∧
    (¬ Within (memory (wire .settings 0 0 [0]) fun _ => 0) 10 (new.parseReads true .lenient)) ∧
    ∀ type ∈ [FrameType.headers, .ping, .windowUpdate, .rstStream, .goaway],
      ¬ Within (memory (wire type 0x24 1 []) fun _ => 0) 9 (new.parseReads true .lenient) := by
  refine ⟨?_, ?_, ?_⟩ <;> decide +kernel

end Session

end OSW.Http2
