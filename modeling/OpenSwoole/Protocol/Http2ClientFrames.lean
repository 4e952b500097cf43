import OpenSwoole.Protocol.Http2Bounds

/-!
# The frame parser of the HTTP/2 client

`Client::parse_frame` and `Client::parse_header` of `ext-src/openswoole_http2_client_coro.cc`, with every
access to the read buffer, as in `Http2Bounds`.  The pointer is moved past the frame header before the
`switch`, and the branch for `PING` moves it once more: the eight bytes of the reply are taken from behind a
frame of the usual length.

What nghttp2, zlib and the socket answer are parameters; the headers of a response, the error texts of a
failed send and the branch of debug builds that reads a `PUSH_PROMISE` are left out.

* `Client.parseFrame`   the parser, with what it reads;
* `ClientFits`   the payload is as long as the loads of its type need it.
-/

namespace OSW.Http2
open Function Reads List

/-! ## the client -/

/-- the two flags are `OSW_HTTP2_STREAM_PIPELINE_RESPONSE` and `OSW_HTTP2_STREAM_USE_PIPELINE_READ` -/
structure ClientStream where
  gzip : Bool
  pipelineResponse : Bool
  usePipelineRead : Bool
  buffer : Bytes
  remoteWindowSize : Nat
  localWindowSize : Nat

/-- the last four are properties of the object -/
structure Client where
  streams : Nat → Option ClientStream
  localSettings : Settings
  remoteSettings : Settings
  lastStreamId : Nat
  errCode : Nat
  errMsg : Bytes
  serverLastStreamId : Nat
  connected : Bool

/-- `gzipHeader`: the header block asks for decompression; `decompress`: what zlib makes of a piece of the
body; `bound`: a coroutine waits on the socket -/
structure ClientEnv where
  hpack : Hpack
  gzipHeader : Bytes → Bool
  decompress : Bytes → Option Bytes
  sendOk : Bytes → Bool
  bound : Bool

inductive ReturnCode where
  | ready
  | goOn
  | close
  | error

/-- the value of the response object, for `ready`: its data, and the property `pipeline` -/
structure Response where
  data : Bytes
  pipeline : Bool

structure FrameResult where
  code : ReturnCode
  client : Client
  sent : List Bytes
  response : Option Response

namespace Client

def setStream (c : Client) (id : Nat) (stream : Option ClientStream) : Client :=
  { c with streams := update c.streams id stream }

def noteStream (c : Client) (id : Nat) : Client :=
  if id > c.lastStreamId then { c with lastStreamId := id } else c

def goOn (c : Client) : FrameResult := ⟨.goOn, c, [], none⟩

def reply (env : ClientEnv) (c : Client) (frame : Bytes) : FrameResult :=
  ⟨if env.sendOk frame then .goOn else .error, c, [frame], none⟩

def onWindowUpdate (c : Client) (id value : Nat) : Client :=
  if id = 0 then
    { c with remoteSettings :=
      { c.remoteSettings with windowSize := (c.remoteSettings.windowSize + value) % 2^32 } }
  else
    match c.streams id with
    | none => c
    | some stream =>
      c.setStream id (some { stream with remoteWindowSize := (stream.remoteWindowSize + value) % 2^32 })

/-- the properties that `GOAWAY` sets, and `Client::close` -/
def onGoaway (env : ClientEnv) (c : Client) (lastStreamId errCode : Nat) (errMsg : Bytes) : FrameResult :=
  let c := { c with errCode, errMsg, serverLastStreamId := lastStreamId, connected := false }
  ⟨.close, if env.bound then c else { c with streams := fun _ => none }, [], none⟩

/-- the last part of `parse_frame`: the response of a stream is given to the caller, or not yet -/
def deliver (c : Client) (id : Nat) (stream : ClientStream) (flags : UInt8)
    (pipelineRead : Bool) (sent : List Bytes) : FrameResult :=
  let response := ⟨stream.buffer, !endStream flags⟩
  if endStream flags then ⟨.ready, c.setStream id none, sent, some response⟩
  else if (pipelineRead || stream.usePipelineRead) && stream.pipelineResponse then
    ⟨.ready, c.setStream id (some { stream with buffer := [] }), sent, some response⟩
  else ⟨.goOn, c.setStream id (some stream), sent, none⟩

/-- a local window after `length` bytes: whether the update was sent, the window, and the update -/
def consume (env : ClientEnv) (id window length : Nat) : Bool × Nat × List Bytes :=
  let window := (window + 2^32 - length) % 2^32
  if window < maxWindowSize / 4 then
    let frame := Session.windowUpdateFrame id (maxWindowSize - window)
    if env.sendOk frame then (true, maxWindowSize, [frame]) else (false, window, [frame])
  else (true, window, [])

def setLocalWindow (c : Client) (window : Nat) : Client :=
  { c with localSettings := { c.localSettings with windowSize := window } }

variable (env : ClientEnv) (c : Client)

/-- what a `DATA` frame with a payload does to the windows; the stream's update is sent after that of the
connection, when that was sent -/
def onWindows (id : Nat) (stream : ClientStream) (length : Nat) : Bool × Client × ClientStream × List Bytes :=
  let own := consume env 0 c.localSettings.windowSize length
  let c := c.setLocalWindow own.2.1
  if own.1 then
    let its := consume env id stream.localWindowSize length
    (its.1, c, { stream with localWindowSize := its.2.1 }, own.2.2 ++ its.2.2)
  else
    (false, c, { stream with localWindowSize := (stream.localWindowSize + 2^32 - length) % 2^32 }, own.2.2)

def onData (id : Nat) (stream : ClientStream) (flags : UInt8) (pipelineRead : Bool) (payload : Bytes) :
    FrameResult :=
  match if stream.gzip then env.decompress payload else some payload with
  | none => ⟨.error, c.setStream id (some stream), [], none⟩
  | some data =>
    let r := onWindows env c id { stream with buffer := stream.buffer ++ data } payload.length
    if r.1 then r.2.1.deliver id r.2.2.1 flags pipelineRead r.2.2.2
    else ⟨.error, r.2.1.setStream id (some r.2.2.1), r.2.2.2, none⟩

def streamReads (type : Option FrameType) (flags : UInt8) (id length : Nat) (pipelineRead : Bool)
    (stream : ClientStream) : Reads UInt8 FrameResult :=
  match type with
  | some .headers => do
    let block := headerBlock flags length
    let fields ← take block.offset block.length
    return c.deliver id { stream with gzip := stream.gzip || env.gzipHeader fields } flags pipelineRead []
  | some .data =>
    let stream := { stream with pipelineResponse := stream.pipelineResponse || !endStream flags }
    if length = 0 then pure (c.deliver id stream flags pipelineRead [])
    else do
      let payload ← take frameHeaderSize length
      return c.onData env id stream flags pipelineRead payload
  | _ => pure (c.deliver id stream flags pipelineRead [])

/-- the `switch` over the types, and what follows it -/
def frameReads (type : Option FrameType) (flags : UInt8) (id length : Nat) (pipelineRead : Bool) :
    Reads UInt8 FrameResult :=
  match type with
  | some .settings =>
    if isAck flags then pure c.goOn
    else do
      let r ← readSettings env.hpack.tableOk c.remoteSettings frameHeaderSize length
      let c := { c with remoteSettings := r.2 }
      if r.1 then return c.reply env (setFrameHeader .settings 0 1 id) else return ⟨.error, c, [], none⟩
  | some .windowUpdate => do
    let value ← readBe frameHeaderSize 4
    return (c.onWindowUpdate id value).goOn
  | some .ping =>
    if isAck flags then pure c.goOn
    else do
      -- the pointer has been moved past the header before
      let payload ← take (frameHeaderSize + frameHeaderSize) 8
      return c.reply env (wire .ping 1 id payload)
  | some .goaway => do
    let lastStreamId ← readBe frameHeaderSize 4
    let errCode ← readBe (frameHeaderSize + 4) 4
    let errMsg ← take (frameHeaderSize + 8) ((length + 2^64 - 8) % 2^64)
    return c.onGoaway env lastStreamId errCode errMsg
  | some .rstStream => do
    let _errorCode ← readBe frameHeaderSize 4
    return (c.setStream id none).goOn
  | some .pushPromise => pure c.goOn
  | _ =>
    match c.streams id with
    | none => pure c.goOn
    | some stream => c.streamReads env type flags id length pipelineRead stream

def parseFrame (pipelineRead : Bool) : Reads UInt8 FrameResult := do
  let type ← get 3
  let flags ← get 4
  let word ← readBe 5 4
  let id := word % 2^31
  let length ← readBe 0 3
  (c.noteStream id).frameReads env (FrameType.ofCode type) flags id length pipelineRead

end Client

/-! ## bounds -/

def ClientFits (known : Bool) (type : Option FrameType) (flags : UInt8) (length : Nat) : Prop :=
  match type with
  | some .settings => isAck flags = true ∨ length % 6 = 0
  | some .headers => known = true → priority flags = true → 5 ≤ length
  | some .ping => isAck flags = true ∨ 17 ≤ length
  | some .windowUpdate | some .rstStream => 4 ≤ length
  | some .goaway => 8 ≤ length
  | _ => True

instance (known : Bool) (type : Option FrameType) (flags : UInt8) (length : Nat) :
    Decidable (ClientFits known type flags length) := by
  rcases type with _ | ⟨⟨⟩⟩ <;> dsimp only [ClientFits] <;> infer_instance

namespace Client

variable {env : ClientEnv}

variable {c : Client} {type : Option FrameType} {flags : UInt8} {length id : Nat}

lemma within_streamReads_iff (hlen : length < 2^24) (id : Nat) (pipelineRead : Bool)
    (stream : ClientStream) (m : Nat → UInt8) :
    Within m (frameHeaderSize + length) (c.streamReads env type flags id length pipelineRead stream) ↔
      (type = some .headers → priority flags = true → 5 ≤ length) := by
  unfold streamReads
  split
  · simp only [within_bind, within_take, within_pure, and_true, forall_const]
    exact headerBlock_below hlen
  · split <;> simp
  · next hheaders _ => exact iff_of_true (within_pure _) fun h => absurd h hheaders

lemma within_frameReads_iff (htype : type ≠ some .settings) (hlen : length < 2^24) (id : Nat)
    (pipelineRead : Bool) (m : Nat → UInt8) :
    Within m (frameHeaderSize + length) (c.frameReads env type flags id length pipelineRead) ↔
      ClientFits (c.streams id).isSome type flags length := by
  unfold frameReads
  split
  · exact absurd rfl htype
  · simp [ClientFits]
  · split
    · next hack => simp [ClientFits, hack]
    · next hack =>
      simp only [within_bind, within_take, within_pure, and_true, ClientFits, hack]
      simp [frameHeaderSize]
      omega
  · simp only [within_bind, within_take, within_readBe, within_pure, and_true, ClientFits]
    omega
  · simp [ClientFits]
  · simp [ClientFits]
  · next hupdate hping hgoaway hrst _ =>
    have hfits : ClientFits (c.streams id).isSome type flags length ↔
        ((c.streams id).isSome = true → type = some .headers → priority flags = true → 5 ≤ length) := by
      unfold ClientFits
      split <;> simp_all
    rw [hfits]
    split
    · next hstream => simp [hstream]
    · next stream hstream => simp [hstream, within_streamReads_iff hlen]

lemma within_frameReads (hlen : length < 2^24) (pipelineRead : Bool) (m : Nat → UInt8) :
    (ClientFits (c.streams id).isSome type flags length →
      Within m (frameHeaderSize + length) (c.frameReads env type flags id length pipelineRead)) ∧
    ((∀ size, env.hpack.tableOk size = true) → ¬ ClientFits (c.streams id).isSome type flags length →
      ¬ Within m (frameHeaderSize + length) (c.frameReads env type flags id length pipelineRead)) := by
  by_cases htype : type = some .settings
  · subst htype
    refine ⟨fun hfits => ?_, fun htable hfits => unlessAck_overruns htable hfits m _ _⟩
    apply within_unlessAck hfits
    intro r
    split <;> exact within_pure _
  · exact ⟨(within_frameReads_iff htype hlen id pipelineRead m).2,
      fun _ => mt (within_frameReads_iff htype hlen id pipelineRead m).1⟩

/-! ## whole frames -/

lemma noteStream_streams (c : Client) (id : Nat) : (c.noteStream id).streams = c.streams := by
  unfold noteStream
  split <;> rfl

section head

variable {frame : Bytes} (hframe : frameHeaderSize ≤ frame.length) (rest : Nat → UInt8)
include hframe

lemma value_parseFrame (c : Client) (pipelineRead : Bool) :
    value (c.parseFrame env pipelineRead) (memory frame rest) =
      value ((c.noteStream (readHead frame).streamId).frameReads env (FrameType.ofCode (readHead frame).type)
        (readHead frame).flags (readHead frame).streamId (readHead frame).length pipelineRead)
          (memory frame rest) := by
  simp only [parseFrame, value_bind, value_get, memory_type hframe, memory_flags hframe, value_streamId hframe,
    value_length hframe]

lemma within_parseFrame (c : Client) (pipelineRead : Bool) {bound : Nat} (hbound : frameHeaderSize ≤ bound) :
    Within (memory frame rest) bound (c.parseFrame env pipelineRead) ↔
      Within (memory frame rest) bound ((c.noteStream (readHead frame).streamId).frameReads env
        (FrameType.ofCode (readHead frame).type) (readHead frame).flags (readHead frame).streamId
        (readHead frame).length pipelineRead) := by
  have hsize : frameHeaderSize = 9 := rfl
  simp only [parseFrame, within_bind, within_get, within_readBe, value_get,
    memory_type hframe, memory_flags hframe, value_streamId hframe, value_length hframe]
  rw [and_iff_right (by omega), and_iff_right (by omega), and_iff_right (by omega), and_iff_right (by omega)]

end head

lemma wire_inj {type : FrameType} {p q : Bytes} :
    wire type flags id p = wire type flags id q ↔ p = q := by
  constructor
  · intro h
    exact append_inj_right h (by rw [length_setFrameHeader, length_setFrameHeader])
  · intro h
    rw [h]

lemma reply_ping {frame : Bytes} (hframe : frame.length = frameHeaderSize + 8) (rest : Nat → UInt8)
    (c : Client) (hack : isAck flags = false) (id length : Nat) (pipelineRead : Bool) :
    (value (c.frameReads env (some .ping) flags id length pipelineRead) (memory frame rest)).sent =
      [wire .ping 1 id ((range 8).map fun i => rest (1 + i))] := by
  have hbehind : ∀ i, memory frame rest (frameHeaderSize + frameHeaderSize + i) = rest (1 + i) := by
    intro i
    have hsize : frameHeaderSize = 9 := rfl
    rw [memory, getElem?_eq_none (by omega), Option.getD_none]
    congr 1
    omega
  have hvalue : value (take (frameHeaderSize + frameHeaderSize) 8) (memory frame rest) =
      (range 8).map fun i => rest (1 + i) :=
    map_congr_left fun i _ => hbehind i
  unfold frameReads
  rw [hack]
  show [wire .ping 1 id (value (take _ 8) _)] = _
  rw [hvalue]

/-- nothing outside a frame is read exactly if it fits, and a `PING` is answered with its payload if and only if
that is repeated behind the frame -/
theorem parse_frame_inside (env : ClientEnv) (c : Client) (pipelineRead : Bool) (frame : Bytes)
    (hframe : frame.length = frameHeaderSize + (readHead frame).length) (rest : Nat → UInt8) :
    let head := readHead frame
    let known := (c.streams head.streamId).isSome
    (ClientFits known (FrameType.ofCode head.type) head.flags head.length →
      Within (memory frame rest) frame.length (c.parseFrame env pipelineRead)) ∧
    ((∀ size, env.hpack.tableOk size = true) →
      ¬ ClientFits known (FrameType.ofCode head.type) head.flags head.length →
      ¬ Within (memory frame rest) frame.length (c.parseFrame env pipelineRead)) ∧
    (FrameType.ofCode head.type = some .ping → isAck head.flags = false → head.length = 8 →
      ((value (c.parseFrame env pipelineRead) (memory frame rest)).sent =
          [wire .ping 1 head.streamId (frame.drop frameHeaderSize)] ↔
        frame.drop frameHeaderSize = (range 8).map fun i => rest (1 + i))) := by
  intro head known
  have hlen := length_readHead_lt frame
  have hknown : known = ((c.noteStream head.streamId).streams head.streamId).isSome := by
    rw [noteStream_streams]
  rw [within_parseFrame (by omega) rest c pipelineRead (by omega),
    value_parseFrame (by omega) rest c pipelineRead, hframe, hknown]
  obtain ⟨hin, hout⟩ := within_frameReads hlen pipelineRead (memory frame rest)
  refine ⟨hin, hout, fun htype hack height => ?_⟩
  have height' : (readHead frame).length = 8 := height
  rw [htype, reply_ping (by omega) rest _ hack, cons.injEq, wire_inj, and_iff_left rfl, eq_comm]

def quietEnv : ClientEnv := ⟨.lenient, fun _ => false, some, fun _ => true, false⟩

def idle : Client := ⟨fun _ => none, initSettings, initSettings, 0, 0, [], 0, true⟩

theorem parse_frame_inside_update : let frame := wire .windowUpdate 0 0 [0, 0, 1, 0]
    Within (memory frame fun _ => 0) frame.length (idle.parseFrame quietEnv false) :=
  (parse_frame_inside quietEnv idle false _ (by decide) fun _ => 0).1 (by decide)

/-- a `PING` is answered with eight bytes that stand outside the frame -/
theorem ping_reply_differs :
    (value (idle.parseFrame quietEnv false) (memory (wire .ping 0 0 [1, 2, 3, 4, 5, 6, 7, 8]) fun _ => 0)).sent =
      [wire .ping 1 0 [0, 0, 0, 0, 0, 0, 0, 0]] ∧
    (¬ Within (memory (wire .ping 0 0 [1, 2, 3, 4, 5, 6, 7, 8]) fun _ => 0) 17
      (idle.parseFrame quietEnv false)) ∧
    (¬ Within (memory (wire .settings 0 0 [0]) fun _ => 0) 10 (idle.parseFrame quietEnv false)) ∧
    ∀ type ∈ [FrameType.windowUpdate, .rstStream, .goaway],
      ¬ Within (memory (wire type 0 1 []) fun _ => 0) 9 (idle.parseFrame quietEnv false) := by
  refine ⟨?_, ?_, ?_, ?_⟩ <;> decide +kernel

end Client

end OSW.Http2
