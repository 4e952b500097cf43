import OpenSwoole.Protocol.Http

/-!
# `Port_onRead_http`

The read handler of an HTTP port, `src/server/port.cc`, for a connection that is not upgraded and a
server without static handler.  The labels of the source are the labels of a step machine; allocation
succeeds.  `behind` is the memory behind the data, `base` the address of the buffer.

* `recvData`, `parse`   the code from a label to the next jump or return;
* `onReadHttp`   the whole handler.
-/

namespace OSW.Http

def httpHeaderMaxSize : Nat := 65536

inductive Refusal where
  | badRequest
  | tooLarge
  | unavailable

/-- `OSW_HTTP_BAD_REQUEST_PACKET`, `OSW_HTTP_REQUEST_ENTITY_TOO_LARGE_PACKET` and
`OSW_HTTP_SERVICE_UNAVAILABLE_PACKET` -/
def Refusal.packet : Refusal → Bytes
  | .badRequest => ascii "HTTP/1.1 400 Bad Request\r\n\r\n"
  | .tooLarge => ascii "HTTP/1.1 413 Request Entity Too Large\r\n\r\n"
  | .unavailable => ascii "HTTP/1.1 503 Service Unavailable\r\n\r\n"

/-- a connection; a `conn->object` that does not exist yet is a request of zeros, as `clean` leaves it -/
structure HttpConn where
  conn : Conn
  request : Request
  sent : List Bytes

def HttpConn.init : HttpConn := ⟨Conn.init, {}, []⟩

namespace HttpConn

def buffer (c : HttpConn) : OswString := c.conn.buffer

def setBuffer (c : HttpConn) (b : OswString) : HttpConn := { c with conn := { c.conn with buffer := b } }

def destroyHttpRequest (c : HttpConn) : HttpConn := { c with request := {} }

end HttpConn

inductive Label where
  | recvData
  | parse
  deriving DecidableEq

/-- a jump, or a return; the exit `abort` stands for a walk over the chunks that does not end -/
abbrev Jump := (Label × HttpConn) ⊕ (Exit × HttpConn)

def returnOk (c : HttpConn) : Jump := .inr (.ok, c)

/-- the label `_close_fd`; the exit `err` stands for the close event -/
def closeFd (c : HttpConn) : Jump := .inr (.err, c.destroyHttpRequest)

/-- the labels `_bad_request`, `_too_large` and `_unavailable` -/
def refuse (r : Refusal) (c : HttpConn) : Jump := closeFd { c with sent := c.sent ++ [r.packet] }

def recvData (c : HttpConn) : Jump :=
  match c.conn.recv (c.buffer.size - c.buffer.length) with
  | .error .close conn => closeFd { c with conn := conn }
  | .error _ conn => returnOk { c with conn := conn }
  | .eof conn => closeFd { c with conn := conn }
  | .overflow conn => .inr (.overflow, { c with conn := conn })
  | .data conn => .inl (.parse, { c with conn := conn })

/-- `align_size` of `extend_align`, doubled until it is large enough -/
def alignSize : Nat → Nat → Nat → Nat
  | 0, size, _ => size
  | k + 1, size, newSize => if size < newSize then alignSize k (size * 2) newSize else size

def extendAlign (b : OswString) (newSize : Nat) : OswString :=
  { b with size := memAlignedSize (alignSize 64 (memAlignedSize (b.size * 2)) newSize) }

variable (p : Protocol) (behind : Bytes → Bytes) (base : Nat) (h : OnPackage)

/-- `Server::dispatch_task`; its result is not looked at, its length is a `uint32_t` -/
def dispatchTask (c : HttpConn) (length : Nat) : HttpConn :=
  { c with conn := (c.conn.onPackage h (c.buffer.str.take (length % 2^32))).2 }

/-- the request is all in the buffer: from `discard the redundant data` to the end -/
def dispatchBody (requestLength : Nat) (c : HttpConn) : Jump :=
  let c := c.setBuffer { c.buffer with str := c.buffer.str.take requestLength, offset := requestLength }
  let c := dispatchTask h c c.buffer.length
  if c.conn.removed then returnOk c
  else if bufferSizeBig * 2 < c.buffer.size then
    returnOk (c.destroyHttpRequest.setBuffer (makeString bufferSizeBig))
  else returnOk (c.destroyHttpRequest.setBuffer c.buffer.clear)

/-- `header_length_ + content_length_`, in `uint32_t` -/
def requestLength (request : Request) : Nat := (request.headerLength + request.contentLength) % 2^32

/-- the buffer of a chunked request is full, or too small for what has been announced -/
def growChunked (b : OswString) (requestLength : Nat) : OswString :=
  let b := if b.length = b.size then { b with size := memAlignedSize (b.size * 2) } else b
  if b.size < requestLength then extendAlign b requestLength else b

section
variable (c : HttpConn)

/-- the branch `request->chunked` -/
def receiveChunked : Jump :=
  let b := c.buffer
  match getChunkedBodyLength (b.str ++ behind b.str) base b.length c.request b.offset with
  | none => .inr (.abort, c)
  | some .wild => .inr (.overflow, c)
  | some (.excepted request _) => refuse .badRequest { c with request := request }
  | some (.more request offset) =>
    let c := { c.setBuffer { b with offset := offset } with request := request }
    if p.packageMaxLength < requestLength request then refuse .tooLarge c
    else .inl (.recvData, c.setBuffer (growChunked c.buffer (requestLength request)))
  | some (.ok request offset) =>
    dispatchBody h (requestLength request) { c.setBuffer { b with offset := offset } with request := request }

/-- the branch with a known length; `extend` asserts that the buffer grows -/
def receiveBody : Jump :=
  let n := requestLength c.request
  if p.packageMaxLength < n then refuse .tooLarge c
  else
    let c := if c.buffer.size < n then c.setBuffer { c.buffer with size := memAlignedSize n } else c
    if c.buffer.length < n then .inl (.recvData, c) else dispatchBody h n c

def receive : Jump := if c.request.chunked then receiveChunked p behind base h c else receiveBody p h c

def dispatchHeader : Jump :=
  let n := c.request.headerLength
  let c := dispatchTask h (c.setBuffer { c.buffer with offset := n }) n
  if c.conn.removed then returnOk c
  else if n < c.buffer.length then .inl (.parse, { c.setBuffer (c.buffer.reduce n) with request := {} })
  else returnOk (c.destroyHttpRequest.setBuffer c.buffer.clear)

/-- the block `!request->tried_to_dispatch` -/
def tryToDispatch : Jump :=
  if c.request.triedToDispatch then receive p behind base h c
  else if c.request.nobodyChunked ∧ c.buffer.length < c.request.headerLength + (ascii "0\r\n\r\n").length then
    .inl (.recvData, c)
  else
    let headerLength := if c.request.nobodyChunked then
        c.request.headerLength + (ascii "0\r\n\r\n").length
      else c.request.headerLength
    let c := { c with request := { c.request with headerLength := headerLength, triedToDispatch := true } }
    if c.request.contentLength = 0 ∧ (c.request.knownLength ∨ ¬ c.request.chunked) then dispatchHeader h c
    else receive p behind base h c

/-- the block `!request->header_parsed` -/
def headerComplete : Jump :=
  if c.request.headerParsed then tryToDispatch p behind base h c
  else
    tryToDispatch p behind base h
      { c with request := parseHeaderInfo (c.buffer.str ++ behind c.buffer.str) c.request }

/-- the block `request->header_length_ == 0` -/
def parseHeader : Jump :=
  if c.request.headerLength = 0 then
    match getHeaderLength c.request c.buffer with
    | (false, request, b) =>
      let c := { c.setBuffer b with request := request }
      if c.buffer.size = c.buffer.length then refuse .badRequest c else .inl (.recvData, c)
    | (true, request, b) => headerComplete p behind base h { c.setBuffer b with request := request }
  else headerComplete p behind base h c

def parse : Jump :=
  if c.request.method = none then
    match getProtocol c.request c.buffer with
    | (false, request, b) =>
      let c := { c.setBuffer b with request := request }
      if c.request.excepted = false ∧ c.buffer.length < httpHeaderMaxSize then returnOk c
      else refuse .badRequest c
    | (true, request, b) => parseHeader p behind base h { c.setBuffer b with request := request }
  else parseHeader p behind base h c

end

def httpStep (s : Label × HttpConn) : Jump :=
  match s.1 with
  | .recvData => recvData s.2
  | .parse => parse p behind base h s.2

/-- how much the handler has to do: bytes to receive count more than bytes to parse -/
def work (s : Label × HttpConn) : Nat :=
  3 * weight s.2.conn.queue + s.2.buffer.length + if s.1 = .parse then 1 else 0

def onReadHttp (c : HttpConn) : Option (Exit × HttpConn) :=
  Machine.run (httpStep p behind base h) (work (.recvData, c) + 1) (.recvData, c)

/-- one readiness event of an open connection: the events `es` have arrived since the last one -/
def onRead (es : List RecvEvent) (s : Status × HttpConn) : Option (Status × HttpConn) :=
  match s.1 with
  | .opened =>
    (onReadHttp p behind base h { s.2 with conn := { s.2.conn with queue := s.2.conn.queue ++ es } }).map
      fun r => (r.1.status, r.2)
  | _ => some s

/-- the handler runs once for each readiness event, as long as the connection is open -/
def HttpConn.serve (calls : List (List RecvEvent)) : Option (Status × HttpConn) :=
  Machine.iter (onRead p behind base h) calls (.opened, HttpConn.init)

end OSW.Http
