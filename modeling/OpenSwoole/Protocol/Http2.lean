import Mathlib.Data.List.GetD
import OpenSwoole.Protocol.WebSocket

/-!
# HTTP/2 frames and sessions

The frame header of `include/openswoole_http2.h`, and `openswoole_http2_server_parse` of
`ext-src/openswoole_http2_server.cc`, which handles one frame of a connection.  Header compression is
that of nghttp2: whether it accepts a header block is a parameter, and the request that it builds is left
out, with the parsing of forms and the settings that are stored and not read.  `is_coro` is false, as in
every server.

* `setFrameHeader`, `readHead`   a frame header written and read;
* `Stream`, `Session`   the fields of the classes;
* `Session.parse`   one frame, with what it does outside the session;
* `parse_wire`   what it does to a frame as it stands on the wire.
-/

namespace OSW.Http2
open Function List

/-! ## frames -/

inductive FrameType where
  | data
  | headers
  | priority
  | rstStream
  | settings
  | pushPromise
  | ping
  | goaway
  | windowUpdate
  | continuation
  deriving DecidableEq

def FrameType.code : FrameType → UInt8
  | .data => 0
  | .headers => 1
  | .priority => 2
  | .rstStream => 3
  | .settings => 4
  | .pushPromise => 5
  | .ping => 6
  | .goaway => 7
  | .windowUpdate => 8
  | .continuation => 9

def FrameType.ofCode (code : UInt8) : Option FrameType :=
  [.data, .headers, .priority, .rstStream, .settings, .pushPromise, .ping, .goaway, .windowUpdate,
    .continuation].find? fun type => type.code = code

lemma FrameType.ofCode_code (type : FrameType) : ofCode type.code = some type := by cases type <;> rfl

/-! Flags are the bits of one byte: `END_STREAM` and `ACK` the first, `PADDED` the fourth, `PRIORITY` the
sixth. -/

def endStream (flags : UInt8) : Bool := flags.toNat.testBit 0
def isAck (flags : UInt8) : Bool := flags.toNat.testBit 0
def endHeaders (flags : UInt8) : Bool := flags.toNat.testBit 2
def padded (flags : UInt8) : Bool := flags.toNat.testBit 3

def setFrameHeader (type : FrameType) (length : Nat) (flags : UInt8) (streamId : Nat) : Bytes :=
  beBytes 3 length ++ ([type.code, flags] ++ beBytes 4 streamId)

structure FrameHead where
  length : Nat
  type : UInt8
  flags : UInt8
  streamId : Nat

/-- `http2::get_length`, and the other fields as `openswoole_http2_server_parse` reads them -/
def readHead (buf : Bytes) : FrameHead where
  length := be (buf.take 3)
  type := buf.getD 3 0
  flags := buf.getD 4 0
  streamId := be ((buf.drop 5).take 4) % 2^31

section
variable (type : FrameType)

def wire (flags : UInt8) (streamId : Nat) (payload : Bytes) : Bytes :=
  setFrameHeader type payload.length flags streamId ++ payload

lemma length_setFrameHeader (length : Nat) (flags : UInt8) (streamId : Nat) :
    (setFrameHeader type length flags streamId).length = frameHeaderSize := by
  simp [setFrameHeader, length_beBytes, frameHeaderSize]

lemma readHead_wire (flags : UInt8) {streamId : Nat} (payload : Bytes)
    (hid : streamId < 2^31) (hlen : payload.length < 2^24) :
    readHead (wire type flags streamId payload) = ⟨payload.length, type.code, flags, streamId⟩ := by
  have h3 : (beBytes 3 payload.length).length = 3 := length_beBytes 3 _
  have h4 : (beBytes 4 streamId).length = 4 := length_beBytes 4 _
  have hwire : wire type flags streamId payload =
      beBytes 3 payload.length ++ ([type.code, flags] ++ (beBytes 4 streamId ++ payload)) := by
    simp only [wire, setFrameHeader, append_assoc]
  have hlength : be ((wire type flags streamId payload).take 3) = payload.length := by
    rw [hwire, take_left' h3, be_beBytes, Nat.mod_eq_of_lt (lt_of_lt_of_eq hlen (by decide))]
  have hstream : be (((wire type flags streamId payload).drop 5).take 4) % 2^31 = streamId := by
    show be ((beBytes 4 streamId ++ payload).take 4) % 2^31 = streamId
    rw [take_left' h4, be_beBytes, Nat.mod_eq_of_lt (lt_trans hid (by decide)), Nat.mod_eq_of_lt hid]
  simp only [readHead, hlength, hstream]
  rfl

lemma payload_wire (flags : UInt8) (streamId : Nat) (payload : Bytes) :
    ((wire type flags streamId payload).drop frameHeaderSize).take payload.length = payload := by
  rw [wire, drop_left' (length_setFrameHeader ..), take_length]

end

/-! ## sessions -/

def defaultWindowSize : Nat := 65535
def maxWindowSize : Nat := 2^31 - 1

structure Settings where
  headerTableSize : Nat
  windowSize : Nat
  maxFrameSize : Nat

def initSettings : Settings := ⟨4096, defaultWindowSize, 16384⟩

/-- `dataBuffer` is `ctx->request.h2_data_buffer`, and `waiting` tells that `waiting_coroutine` is set -/
structure Stream where
  remoteWindowSize : Nat
  localWindowSize : Nat
  waiting : Bool
  dataBuffer : Option Bytes
  deriving DecidableEq

structure Session where
  streams : Nat → Option Stream
  localSettings : Settings
  remoteSettings : Settings
  lastStreamId : Nat
  shuttingDown : Bool

/-- `sendYield` of the server, and whether nghttp2 accepts the header block of a `HEADERS` frame -/
structure Config where
  sendYield : Bool
  inflate : UInt8 → Bytes → Bool

def Config.lenient : Config := ⟨true, fun _ _ => true⟩

/-- what a frame makes the server do: call the request handler with the collected body, resume the
coroutine of a stream, send a frame -/
inductive Act where
  | handle (streamId : Nat) (body : Bytes)
  | resume (streamId : Nat)
  | send (frame : Bytes)
  deriving DecidableEq

/-- the return value is `OSW_OK` or not -/
structure Parsed where
  ok : Bool
  client : Session
  acts : List Act

namespace Session

def new : Session := ⟨fun _ => none, initSettings, initSettings, 0, false⟩

def setStream (s : Session) (id : Nat) (stream : Option Stream) : Session :=
  { s with streams := update s.streams id stream }

def setRemoteWindow (s : Session) (n : Nat) : Session :=
  { s with remoteSettings := { s.remoteSettings with windowSize := n } }

def setLocalWindow (s : Session) (n : Nat) : Session :=
  { s with localSettings := { s.localSettings with windowSize := n } }

def newStream (s : Session) : Stream where
  remoteWindowSize := if s.remoteSettings.windowSize > 0 then s.remoteSettings.windowSize else defaultWindowSize
  localWindowSize := defaultWindowSize
  waiting := false
  dataBuffer := none

def handled (id : Nat) (stream : Stream) (flags : UInt8) : List Act :=
  if endStream flags then [.handle id (stream.dataBuffer.getD [])] else []

def applySetting (remote : Settings) (id value : Nat) : Settings :=
  match id with
  | 1 => { remote with headerTableSize := value }
  | 4 => { remote with windowSize := value }
  | 5 => { remote with maxFrameSize := value }
  | _ => remote

def applySettings (remote : Settings) : Bytes → Settings
  | a :: b :: c :: d :: e :: f :: rest => applySettings (applySetting remote (be [a, b]) (be [c, d, e, f])) rest
  | _ => remote

def onSettings (s : Session) (flags : UInt8) (id : Nat) (payload : Bytes) : Parsed :=
  if isAck flags then ⟨true, s, []⟩
  else ⟨true, { s with remoteSettings := applySettings s.remoteSettings payload },
    [.send (setFrameHeader .settings 0 1 id)]⟩

def onHeaders (c : Config) (s : Session) (flags : UInt8) (id : Nat) (payload : Bytes) : Parsed :=
  let stream := (s.streams id).getD s.newStream
  let s := s.setStream id (some stream)
  if c.inflate flags payload then ⟨true, s, handled id stream flags⟩ else ⟨false, s, []⟩

/-- `http2_server_send_window_update` -/
def windowUpdateFrame (id size : Nat) : Bytes := wire .windowUpdate 0 id (beBytes 4 size)

/-- a local window after `length` bytes, and the update that is sent for it -/
def consume (id window length : Nat) : Nat × List Act :=
  let window := (window + 2^32 - length % 2^32) % 2^32
  if length > 0 ∧ window < maxWindowSize / 4 then
    (maxWindowSize, [.send (windowUpdateFrame id (maxWindowSize - window))])
  else (window, [])

def onData (s : Session) (flags : UInt8) (id : Nat) (payload : Bytes) : Parsed :=
  match s.streams id with
  | none => ⟨false, s, []⟩
  | some stream =>
    let session := consume 0 s.localSettings.windowSize payload.length
    let own := consume id stream.localWindowSize payload.length
    let stream := { stream with
      localWindowSize := own.1
      dataBuffer := some (stream.dataBuffer.getD [] ++ payload) }
    ⟨true, (s.setLocalWindow session.1).setStream id (some stream),
      session.2 ++ own.2 ++ handled id stream flags⟩

def onPing (s : Session) (flags : UInt8) (id : Nat) (payload : Bytes) : Parsed :=
  if isAck flags then ⟨true, s, []⟩ else ⟨true, s, [.send (wire .ping 1 id (payload.take 8))]⟩

/-- the windows are `uint32_t` -/
def onWindowUpdate (c : Config) (s : Session) (id : Nat) (payload : Bytes) : Parsed :=
  let value := be (payload.take 4)
  if id = 0 then ⟨true, s.setRemoteWindow ((s.remoteSettings.windowSize + value) % 2^32), []⟩
  else
    match s.streams id with
    | none => ⟨true, s, []⟩
    | some stream =>
      let stream := { stream with remoteWindowSize := (stream.remoteWindowSize + value) % 2^32 }
      ⟨true, s.setStream id (some stream), if c.sendYield && stream.waiting then [.resume id] else []⟩

/-- `delete stream`, when there is one -/
def onRstStream (s : Session) (id : Nat) : Parsed := ⟨true, s.setStream id none, []⟩

def dispatch (c : Config) (s : Session) (type : Option FrameType) (flags : UInt8) (id : Nat)
    (payload : Bytes) : Parsed :=
  match type with
  | some .settings => s.onSettings flags id payload
  | some .headers => s.onHeaders c flags id payload
  | some .data => s.onData flags id payload
  | some .ping => s.onPing flags id payload
  | some .windowUpdate => s.onWindowUpdate c id payload
  | some .rstStream => s.onRstStream id
  | _ => ⟨true, s, []⟩

def noteStream (s : Session) (id : Nat) : Session :=
  if id > s.lastStreamId then { s with lastStreamId := id } else s

def parse (c : Config) (s : Session) (buf : Bytes) : Parsed :=
  let head := readHead buf
  let s := s.noteStream head.streamId
  if s.shuttingDown then ⟨true, s, []⟩
  else s.dispatch c (FrameType.ofCode head.type) head.flags head.streamId
    ((buf.drop frameHeaderSize).take head.length)

section
variable (s : Session) (id : Nat)
include s id

lemma setStream_self (stream : Option Stream) : (s.setStream id stream).streams id = stream :=
  update_self ..

lemma noteStream_shuttingDown : (s.noteStream id).shuttingDown = s.shuttingDown := by
  unfold noteStream
  split <;> rfl

lemma noteStream_streams : (s.noteStream id).streams = s.streams := by
  unfold noteStream
  split <;> rfl

lemma noteStream_newStream : (s.noteStream id).newStream = s.newStream := by
  unfold noteStream
  split <;> rfl

lemma noteStream_localSettings : (s.noteStream id).localSettings = s.localSettings := by
  unfold noteStream
  split <;> rfl

end

lemma parse_wire (c : Config) {s : Session} (hs : s.shuttingDown = false) (type : FrameType) (flags : UInt8)
    {id : Nat} (payload : Bytes) (hid : id < 2^31) (hlen : payload.length < 2^24) :
    s.parse c (wire type flags id payload) = (s.noteStream id).dispatch c (some type) flags id payload := by
  have hhead := readHead_wire type flags payload hid hlen
  unfold parse
  simp only [hhead, noteStream_shuttingDown, hs, FrameType.ofCode_code, payload_wire]
  rfl

end Session

end OSW.Http2
