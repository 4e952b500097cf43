import OpenSwoole.Protocol.Redis

/-!
# `http_server::Request`

The parser of `src/protocol/http.cc` over the receive buffer, with `openswoole_hex2dec` of
`src/core/base.cc`, as built without `OSW_USE_HTTP2` (the default).  Positions count from
`buffer_->str`.  Where a function reads behind the bytes received, `memory` is the buffer followed by
whatever comes after it.

* `headerLoop`, `parseHeaderInfo`   the header fields that decide on the body.
-/

namespace OSW

def ascii (s : String) : Bytes := s.toList.map fun c => c.toNat.toUInt8

namespace Http

/-- the methods that `get_protocol` knows -/
inductive Method where
  | get | post | put | patch | delete | head | options | copy | lock | mkcol | move | propfind
  | proppatch | unlock | report | purge
  deriving DecidableEq

/-- the comparisons of `get_protocol`, in its order -/
def methods : List (Bytes × Method) :=
  [(ascii "GET", .get), (ascii "POST", .post), (ascii "PUT", .put), (ascii "PATCH", .patch),
    (ascii "DELETE", .delete), (ascii "HEAD", .head), (ascii "OPTIONS", .options),
    (ascii "COPY", .copy), (ascii "LOCK", .lock), (ascii "MKCOL", .mkcol), (ascii "MOVE", .move),
    (ascii "PROPFIND", .propfind), (ascii "PROPPATCH", .proppatch), (ascii "UNLOCK", .unlock),
    (ascii "REPORT", .report), (ascii "PURGE", .purge)]

inductive Version where
  | v10
  | v11

structure HeaderInfo where
  contentLength : Nat := 0
  knownLength : Bool := false
  keepAlive : Bool := false
  chunked : Bool := false

/-- `http_server::Request`, zeroed by `clean`; `method == 0` is `none` -/
structure Request extends HeaderInfo where
  method : Option Method := none
  version : Option Version := none
  excepted : Bool := false
  headerParsed : Bool := false
  triedToDispatch : Bool := false
  nobodyChunked : Bool := false
  urlOffset : Nat := 0
  urlLength : Nat := 0
  requestLineLength : Nat := 0
  headerLength : Nat := 0

/-! ## the request line -/

/-- `state` of `get_protocol`: 0, 1 and 2 -/
inductive LineState where
  | beforeUrl
  | url
  | beforeVersion

/-- how the loop over the request line ends: at `_end` with `p`, or with a `return` -/
inductive LineRes where
  | found (p : Nat) (request : Request)
  | short (request : Request)
  | excepted (request : Request)

/-- the loop of `get_protocol` from position `p` on; the end of the data leads to `_end` too -/
def scanLine : LineState → Nat → Bytes → Request → LineRes
  | _, p, [], request => .found p request
  | .beforeUrl, p, c :: cs, request =>
    if isSpace c then scanLine .beforeUrl (p + 1) cs request
    else scanLine .url (p + 1) cs { request with urlOffset := p }
  | .url, p, c :: cs, request =>
    if isSpace c then
      scanLine .beforeVersion (p + 1) cs { request with urlLength := p - request.urlOffset }
    else scanLine .url (p + 1) cs request
  | .beforeVersion, p, c :: cs, request =>
    if isSpace c then scanLine .beforeVersion (p + 1) cs request
    else if (c :: cs).length < 8 then .short request
    else if ascii "HTTP/1.1" <+: c :: cs then .found p { request with version := some .v11 }
    else if ascii "HTTP/1.0" <+: c :: cs then .found p { request with version := some .v10 }
    else .excepted request

/-- `get_protocol`; `false` is `OSW_ERR` -/
def getProtocol (request : Request) (b : OswString) : Bool × Request × OswString :=
  if b.length < (ascii "GET / HTTP/1.x\r\n").length then (false, request, b)
  else
    match methods.find? fun m => m.1.isPrefixOf b.str with
    | none => (false, { request with excepted := true }, b)
    | some (name, method) =>
      match scanLine .beforeUrl name.length (b.str.drop name.length)
          { request with method := some method } with
      | .short request => (false, request, b)
      | .excepted request => (false, { request with excepted := true }, b)
      | .found p request => (true, { request with requestLineLength := p + 8 }, { b with offset := p + 8 })

/-! ## the header -/

def headerEnd : Bytes := ascii "\r\n\r\n"

/-- `get_header_length`; `false` is `OSW_ERR` -/
def getHeaderLength (request : Request) (b : OswString) : Bool × Request × OswString :=
  match Framing.first headerEnd (b.str.drop b.offset) with
  | some i =>
    (true, { request with headerLength := b.offset + i + 4 }, { b with offset := b.offset + i + 4 })
  | none => (false, request, { b with offset := max b.offset (b.length - 3) })

def toLower (b : UInt8) : UInt8 := if 65 ≤ b && b ≤ 90 then b + 32 else b

def strcasect (memory : Bytes) (p pe : Nat) (name : Bytes) : Bool :=
  p + name.length ≤ pe && ((memory.drop p).take name.length).map toLower == name.map toLower

/-- `while (*p == ' ') p++` -/
def skipSpaces (memory : Bytes) (p : Nat) : Nat := p + ((memory.drop p).takeWhile (· == 32)).length

/-- the `if` cascade of `parse_header_info` at the start of a line: the new fields, and `p` -/
def headerField (memory : Bytes) (pe p : Nat) (info : HeaderInfo) : HeaderInfo × Nat :=
  if strcasect memory p pe (ascii "Content-Length:") then
    let q := skipSpaces memory (p + 15)
    ({ info with contentLength := min (strtoull (memory.drop q)) (2^32 - 1), knownLength := true }, q)
  else if strcasect memory p pe (ascii "Connection:") then
    let q := skipSpaces memory (p + 11)
    (if strcasect memory q pe (ascii "keep-alive") then { info with keepAlive := true } else info, q)
  else if strcasect memory p pe (ascii "Transfer-Encoding:") then
    let q := skipSpaces memory (p + 18)
    (if strcasect memory q pe (ascii "chunked") then { info with chunked := true } else info, q)
  else (info, p)

/-- the loop of `parse_header_info`; `p` grows in every turn -/
def headerLoop (memory : Bytes) (pe : Nat) : Nat → Nat → HeaderInfo → HeaderInfo
  | 0, _, info => info
  | fuel + 1, p, info =>
    if p < pe then
      if memory[p - 1]? = some 10 ∧ memory[p - 2]? = some 13 then
        let field := headerField memory pe p info
        headerLoop memory pe fuel (field.2 + 1) field.1
      else headerLoop memory pe fuel (p + 1) info
    else info

def parseHeaderInfo (memory : Bytes) (request : Request) : Request :=
  let info := headerLoop memory (request.headerLength - 4) (request.headerLength - 4)
    (request.requestLineLength + 2) request.toHeaderInfo
  { request with
    toHeaderInfo := info
    headerParsed := true
    nobodyChunked := info.chunked && info.knownLength && info.contentLength == 0 }

/-! ## chunked bodies -/

/-- the digits of `openswoole_hex2dec`: the letters up to `Z` count -/
def hexDigit (b : UInt8) : Option Nat :=
  if isDigit b then some (b.toNat - 48)
  else if 97 ≤ b && b ≤ 122 then some (b.toNat - 97 + 10)
  else if 65 ≤ b && b ≤ 90 then some (b.toNat - 65 + 10)
  else none

/-- the loop of `openswoole_hex2dec`: the value in `size_t`, and the number of digits -/
def hexLoop : Bytes → Nat → Nat × Nat
  | [], value => (value, 0)
  | c :: cs, value =>
    match hexDigit c with
    | none => (value, 0)
    | some d =>
      let rest := hexLoop cs ((value * 16 + d) % 2^64)
      (rest.1, rest.2 + 1)

/-- `openswoole_hex2dec`: the value and `parsed_bytes` -/
def hex2dec (hex : Bytes) : Nat × Nat :=
  let p := if (hex.take 2).map toLower = ascii "0x" then 2 else 0
  let digits := hexLoop (hex.drop p) 0
  (digits.1, p + digits.2)

/-- how `get_chunked_body_length` ends: `wild` when it reads in front of the buffer -/
inductive ChunkRes where
  | ok (request : Request) (offset : Nat)
  | more (request : Request) (offset : Nat)
  | excepted (request : Request) (offset : Nat)
  | wild

variable (memory : Bytes) (base length : Nat)

/-- one chunk; the state is `p`, an address, with the request and `buffer_->offset`.  The buffer is at
address `base` and holds `length` bytes. -/
def chunkStep (s : Nat × Request × Nat) : (Nat × Request × Nat) ⊕ ChunkRes :=
  let (p, request, offset) := s
  if p < base then .inr .wild
  else if base + length - p < 3 then .inr (.more request offset)
  else
    let size := hex2dec (memory.drop (p - base))
    let head := p + size.2
    if memory[head - base]? ≠ some 13 then .inr (.excepted { request with excepted := true } offset)
    else
      let p := (head + 2 + size.1 + 2) % 2^64
      let request := { request with
        contentLength := ((p - (base + request.headerLength) : Int) % 2^32).toNat }
      if base + length < p then .inr (.more request offset)
      else if size.1 = 0 then .inr (.ok { request with knownLength := true } (p - base))
      else .inl (p, request, p - base)

/-- `get_chunked_body_length`; a position that comes back comes back for ever, so that `none` is a
walk without end -/
def getChunkedBodyLength (request : Request) (offset : Nat) : Option ChunkRes :=
  Machine.run (chunkStep memory base length) (length + 2) (base + offset, request, offset)

end Http

end OSW
