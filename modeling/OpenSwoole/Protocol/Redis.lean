import OpenSwoole.Core.Strtol
import OpenSwoole.Protocol.Eof

/-!
# `redis::recv_packet`

`src/protocol/redis.cc` and `get_number` of `include/openswoole_redis.h`, under the read handler
`Port_onRead_redis` of `src/server/port.cc`.  The parser reads memory outside of the bytes received:
`before` is the byte in front of the buffer, `behind` what follows the data, whatever it is.

* `Redis.parseStep`   one turn of the loop over the lines of a command;
* `Redis.received`   the code behind a successful `recv`;
* `Redis.IsArray`   an array of bulk strings on the wire.
-/

namespace OSW

def crlf : Bytes := [13, 10]

namespace Redis
open Core

inductive State where
  | receiveTotalLine
  | receiveLength
  | receiveString

/-- `redis::Request`; the field `offset` is not used.  The numbers are `int`s. -/
structure Request where
  state : State := .receiveTotalLine
  nLinesTotal : Int := 0
  nLinesReceived : Int := 0
  nBytesTotal : Int := 0
  nBytesReceived : Int := 0

/-- `get_number` at position `p` of the memory: the number and the position behind its line -/
def getNumber (memory : Bytes) (p : Nat) : Option (Int × Nat) :=
  let number := strtol (memory.drop (p + 1))
  if (memory.drop (p + 1 + number.2)).take 2 = crlf then
    some (int32 number.1, p + 1 + number.2 + 2)
  else none

/-- how the loop over the lines ends: `wait` for the rest of a string, or with the whole command; `null` is a
read through the null pointer of `get_number` -/
inductive Parsed where
  | failed
  | null
  | tooBig
  | wait (request : Request)
  | package

section
variable (memory : Bytes) (pe maxLength : Nat)

section
variable (request : Request) (p : Nat)

/-- the end of a turn: `while (p < pe)`, and `_failed` behind it -/
def turn : (Request × Nat) ⊕ Parsed := if p < pe then .inl (request, p) else .inr .failed

def receiveString : (Request × Nat) ⊕ Parsed :=
  if (pe - p : Int) < int32 (request.nBytesTotal - request.nBytesReceived) then
    .inr (.wait { request with nBytesReceived := int32 (request.nBytesReceived + (pe - p)) })
  else
    let lines := int32 (request.nLinesReceived + 1)
    if lines = request.nLinesTotal then .inr .package
    else
      turn pe { request with nBytesTotal := 0, nLinesReceived := lines, state := .receiveLength }
        (p + request.nBytesTotal.toNat + 2)

/-- `case STATE_RECEIVE_LENGTH`; what is neither `$` nor `:` falls through -/
def receiveLength : (Request × Nat) ⊕ Parsed :=
  if memory[p]? = some 36 then
    match getNumber memory p with
    -- the test for `:` behind it reads `*p`
    | none => .inr .null
    | some (ret, p) =>
      if ret < 0 then turn pe request p
      else if (maxLength : Int) < ret + p then .inr .tooBig
      else turn pe { request with nBytesTotal := ret, state := .receiveString } p
  else if memory[p]? = some 58 then
    match getNumber memory p with
    | none => .inr .failed
    | some (_, p) => turn pe request p
  else receiveString pe request p

/-- `case STATE_RECEIVE_TOTAL_LINE`; what is not `*` falls through -/
def receiveTotalLine : (Request × Nat) ⊕ Parsed :=
  if memory[p]? = some 42 then
    match getNumber memory p with
    | none => .inr .failed
    | some (ret, p) => turn pe { request with nLinesTotal := ret, state := .receiveLength } p
  else receiveLength memory pe maxLength request p

end

/-- one turn of the loop; `pe` is the end of the data -/
def parseStep : Request × Nat → (Request × Nat) ⊕ Parsed
  | (request, p) =>
    match request.state with
    | .receiveTotalLine => receiveTotalLine memory pe maxLength request p
    | .receiveLength => receiveLength memory pe maxLength request p
    | .receiveString => receiveString pe request p

end

/-- `conn` with its socket, and `conn->object` -/
structure RedisConn where
  conn : Conn
  request : Request

def RedisConn.init : RedisConn := ⟨Conn.init, {}⟩

section
variable (p : Protocol) (pagesize : Nat) (before : UInt8) (behind : Bytes → Bytes) (h : OnPackage)

/-- `strncmp(buffer->str + buffer->length - OSW_CRLF_LEN, OSW_CRLF, OSW_CRLF_LEN) == 0` -/
def endsWithCrlf (data : Bytes) : Bool := crlf <:+ before :: data

section
variable (c : RedisConn)

def dispatch : Exit × RedisConn :=
  let conn := { c.conn with buffer := { c.conn.buffer with offset := c.conn.buffer.length } }
  match conn.onPackage h conn.buffer.str with
  | (false, conn) => (.err, { c with conn := conn })
  | (true, conn) =>
    if conn.removed then (.ok, { c with conn := conn })
    else (.ok, ⟨{ conn with buffer := conn.buffer.clear }, {}⟩)

/-- the code from `buffer->length += n` on -/
def received : RedisConn ⊕ Option (Exit × RedisConn) :=
  let b := c.conn.buffer
  if endsWithCrlf before b.str = false then
    if b.size < p.packageMaxLength then
      match b.extend (extendSize p pagesize b) with
      | none => .inr (some (.abort, c))
      | some b => .inl { c with conn := { c.conn with buffer := b } }
    else if b.length = b.size then .inr (some (.err, c))
    else .inl c
  else
    match Machine.run (parseStep (b.str ++ behind b.str) b.length p.packageMaxLength) (b.length + 1)
        (c.request, 0) with
    | none => .inr none
    | some .null => .inr (some (.abort, c))
    | some .failed | some .tooBig => .inr (some (.err, c))
    | some (.wait request) => .inr (some (.ok, { c with request := request }))
    | some .package => .inr (some (dispatch h c))

def room : Nat := c.conn.buffer.size - c.conn.buffer.length

/-- from the label `_recv_data` to the next jump or return -/
def recvStep : RedisConn ⊕ Option (Exit × RedisConn) :=
  match c.conn.recv (room c) with
  | .error e conn => .inr (some (if e = .close then .err else .ok, { c with conn := conn }))
  | .eof conn => .inr (some (.err, { c with conn := conn }))
  | .overflow conn => .inr (some (.overflow, { c with conn := conn }))
  | .data conn => received p pagesize before behind h { c with conn := conn }

def recvPacket : Option (Exit × RedisConn) :=
  (Machine.run (recvStep p pagesize before behind h) (weight c.conn.queue + 1) c).join

end

/-- one readiness event of an open connection: the events `es` have arrived since the last one -/
def onRead (es : List RecvEvent) (s : Status × RedisConn) : Option (Status × RedisConn) :=
  match s.1 with
  | .opened =>
    (recvPacket p pagesize before behind h
      { s.2 with conn := { s.2.conn with queue := s.2.conn.queue ++ es } }).map fun r => (r.1.status, r.2)
  | _ => some s

end

/-! ## arrays of bulk strings -/

/-- `$`, the length, the string -/
def IsBulk (item bytes : Bytes) : Prop :=
  ∃ ds, IsDecimal ds item.length ∧ bytes = 36 :: (ds ++ (crlf ++ (item ++ crlf)))

inductive IsBulks : List Bytes → Bytes → Prop where
  | nil : IsBulks [] []
  | cons {item : Bytes} {items : List Bytes} {bulk rest : Bytes} (h : IsBulk item bulk)
      (hs : IsBulks items rest) : IsBulks (item :: items) (bulk ++ rest)

/-- `*`, the number of strings, the strings -/
def IsArray (items : List Bytes) (bytes : Bytes) : Prop :=
  ∃ ds body, IsDecimal ds items.length ∧ IsBulks items body ∧ bytes = 42 :: (ds ++ (crlf ++ body))

end Redis

end OSW
