/-
HTTP/1 connections (`connection.cc`, `HTTP1Connection`; `ingress.cc`, `Ingress::enqueue`).

A connection collects the bytes it reads in a buffer of its own until it has a whole message. What
is kept between two reads is reset by hand when the message is complete. The bytes in use are a
list here, and their number is its length. The array is not cleared with the number, and `strtoul`
does not stop at it, so what earlier messages have left behind the bytes in use is part of the
state.

The parser is a parameter: the two functions of `picohttpparser.c` that are called, with the
buffer, the room for headers and the number of bytes that were there before. A request on an
ingress sidecar that is refused raises `HTTPParseException`, which the event loop handles;
everything else that goes wrong ends the process.

The functions have the names of the source. Where the source throws or logs at a place, the model
names the place, so that it can be said which of them a byte from outside can reach.
-/
import RlpSidecar.EventLoop
import RlpSidecar.Ingress
import RlpSidecar.PicoHttp
import RlpSidecar.RpcMapper

set_option autoImplicit false

namespace RlpSidecar

/-- The parser that a connection calls, as a parameter: the two functions of picohttpparser, on the
bytes of the buffer, the number of header slots and the length of the earlier part. -/
structure HttpParser where
  phr_parse_request : Bytes → ℕ → ℕ → Except PicoHttp.Fail (PicoHttp.Request × ℕ)
  phr_parse_response : Bytes → ℕ → ℕ → Except PicoHttp.Fail (PicoHttp.Response × ℕ)

/-- The parser of the repository, `picohttpparser.c`, as the model has it. -/
def HttpParser.pico : HttpParser := ⟨PicoHttp.phr_parse_request, PicoHttp.phr_parse_response⟩

/-- What a connection reads of the configuration: which of the three roles the sidecar has, and the
service of an edge. -/
structure HttpConfig where
  ids : IdConfig
  is_frontend : Bool
  deriving DecidableEq, Repr

/-- `HTTP1Connection_BUF_SIZE`, the size of the array that a connection reads into. -/
def http1BufSize : ℕ := 200000

/-- `HTTP1Connection_MAX_HEADERS`: a head with more headers is a parse failure. -/
def http1MaxHeaders : ℕ := 10

/-- `HTTP1Connection`. The array of `http1BufSize` bytes is given in two parts: `buf` is the part
in use, `buf_len` bytes, and `stale` is what earlier messages have left behind it. Behind both
stand the zeros of the constructor. -/
structure HTTP1Connection (n : ℕ) where
  fd : ℤ
  type : ConnectionType
  direction : ConnectionDirection
  status : ConnectionStatus
  buf : Bytes
  stale : Bytes
  prev_buf_len : ℕ
  hdr_complete : Bool
  content_length : ℤ
  hdr_size : ℤ
  idle : Bool
  last_id : ℤ
  rpc_message : Option (Fin n)
  deriving DecidableEq, Repr

/-- What the connections of a worker share: the registry, the HTTP/1 objects, and the queues of the
messages that are to be forwarded. The base part of an object is what the registry has of it. -/
structure HttpCalls (n : ℕ) where
  rpc_mapper : RPCMapper n
  http : Fin n → HTTPMessage
  rpc_queue : ConnectionType → ConnectionDirection → List (ℤ × ℤ)

namespace HttpCalls

variable {n : ℕ}

/-- The whole object of an RPC. The registry and the connections share it in the source; here its
base part is with the registry and the rest is beside it. -/
def message (s : HttpCalls n) (rpc : Fin n) : HTTPMessage :=
  { s.http rpc with ids.rpc := s.rpc_mapper.heap rpc }

/-- Stores the whole object: the base part goes to the registry, the rest beside it. -/
def set_message (s : HttpCalls n) (rpc : Fin n) (m : HTTPMessage) : HttpCalls n :=
  { s with
    rpc_mapper := s.rpc_mapper.modify rpc fun _ => m.ids.rpc
    http := Function.update s.http rpc m }

/-- Replaces one of the four queues of `RPCQueue`, and leaves the others alone. -/
def set_queue (s : HttpCalls n) (type : ConnectionType) (direction : ConnectionDirection)
    (entries : List (ℤ × ℤ)) :
    HttpCalls n :=
  { s with
    rpc_queue :=
    Function.update s.rpc_queue type (Function.update (s.rpc_queue type) direction entries) }

/-- `RPCQueue::enqueue`: the descriptor and the stream of a message that `forward` is to take
up. -/
def enqueue (s : HttpCalls n) (type : ConnectionType) (direction : ConnectionDirection)
    (fd stream_id : ℤ) :
    HttpCalls n :=
  s.set_queue type direction (s.rpc_queue type direction ++ [(fd, stream_id)])

/-- The queues and the objects are independent. -/
@[simp] theorem http_set_queue (s : HttpCalls n) (type : ConnectionType)
    (direction : ConnectionDirection) (entries : List (ℤ × ℤ)) :
    (s.set_queue type direction entries).http = s.http := rfl

/-- One queue changes: the one that is read afterwards is new if both coordinates agree, and is the
old one otherwise. -/
theorem rpc_queue_set_queue (s : HttpCalls n) (type type' : ConnectionType)
    (direction direction' : ConnectionDirection) (entries : List (ℤ × ℤ)) :
    (s.set_queue type direction entries).rpc_queue type' direction'
      = if type' = type ∧ direction' = direction then entries
        else s.rpc_queue type' direction' := by
  unfold set_queue
  dsimp only
  by_cases htype : type' = type
  · subst htype
    rw [Function.update_self]
    by_cases hdirection : direction' = direction
    · rw [hdirection, Function.update_self, if_pos ⟨rfl, rfl⟩]
    · rw [Function.update_of_ne hdirection, if_neg fun h => hdirection h.2]
  · rw [Function.update_of_ne htype, if_neg fun h => htype h.1]

/-- `std::dynamic_pointer_cast<HTTPMessage>`, with the check for null that follows it. An object of
the other class ends the process. -/
def cast_http (s : HttpCalls n) (rpc : Fin n) : Except Abort Unit :=
  if (s.rpc_mapper.heap rpc).http = .HTTP1 then .ok () else .error .nullPointer

end HttpCalls

/-- A worker: what its connections share, the counter of the local ids, and the ingress queue. -/
structure HttpWorker (n : ℕ) extends HttpCalls n where
  local_id_counter : RPCID
  ingress : Ingress n

/-! ## Texts -/

/-- "Content-Length", which requests are searched for with `strncmp` and responses with
`strncasecmp`. -/
def CONTENT_LENGTH : Bytes := [67, 111, 110, 116, 101, 110, 116, 45, 76, 101, 110, 103, 116, 104]

/-- "Transfer-Encoding", which only responses are searched for. -/
def TRANSFER_ENCODING : Bytes :=
  [84, 114, 97, 110, 115, 102, 101, 114, 45, 69, 110, 99, 111, 100, 105, 110, 103]

/-- "chunked", the one value of Transfer-Encoding that a response must not have. -/
def CHUNKED : Bytes := [99, 104, 117, 110, 107, 101, 100]

/-- `tolower` in the C locale, on one byte. -/
def lower (c : UInt8) : UInt8 := if 65 ≤ c.toNat ∧ c.toNat ≤ 90 then c + 32 else c

/-- The name of a header, which is empty for a line that continues the one before. -/
def headerName (name : Option Bytes) : Bytes := name.getD []

/-- `strncasecmp` over the length of `key`. The lengths were compared before, so neither text ends
early. -/
def sameText (key s : Bytes) : Bool := (s.take key.length).map lower = key.map lower

/-- The header of a response is named "Content-Length", in any case. Requests are compared with
case, and by their first bytes only. -/
def isContentLength (name : Option Bytes) : Bool :=
  (headerName name).length = 14 && sameText CONTENT_LENGTH (headerName name)

/-- The header announces chunks, by the name and by the first bytes of the value. The connection
does not read them and ends the process. -/
def isChunked (h : Option Bytes × Bytes) : Bool :=
  (headerName h.1).length = 17 && 7 ≤ h.2.length && sameText TRANSFER_ENCODING (headerName h.1)
    && sameText CHUNKED h.2

namespace HTTP1Connection

variable {n : ℕ}

/-- The constructor of `HTTP1Connection` for a connection to a server. `std::make_unique` fills the
array with zeros, which end a number like any other byte, so nothing stale is kept for it. -/
def create (fd : ℤ) (type : ConnectionType) : HTTP1Connection n :=
  { fd := fd
    type := type
    direction := .UPSTREAM
    status := .DOWN
    buf := []
    stale := []
    prev_buf_len := 0
    hdr_complete := false
    -- no length was read yet
    content_length := -1
    hdr_size := 0
    idle := true
    last_id := 0
    rpc_message := none }

/-- `std::copy_n` of what was read behind the bytes in use (`connection.cc`, 682 to 685). It covers
that much of what stands there of earlier messages. -/
def fill (c : HTTP1Connection n) (data : Bytes) : HTTP1Connection n :=
  { c with
    buf := c.buf ++ data
    stale := c.stale.drop data.length
    prev_buf_len := c.buf.length }

/-- The state after a message. Of the buffer only the length is reset, so the message stays in the
array. -/
def reset (c : HTTP1Connection n) (idle : Bool) : HTTP1Connection n :=
  { c with
    buf := []
    -- only `buf_len` is set to zero; the bytes themselves stay in the array
    stale := c.buf ++ c.stale
    prev_buf_len := 0
    hdr_complete := false
    content_length := -1
    hdr_size := 0
    idle := idle }

/-- `last_id++` on an `int`, which is undefined at the largest value. A connection numbers the
messages it carries in this way. -/
def next_id (c : HTTP1Connection n) : Except Abort ℤ :=
  if c.last_id + 1 < 2 ^ 31 then .ok (c.last_id + 1) else .error .undefined

/-! ## Responses -/

/-- `header_body_allowed`: the statuses whose responses have no body whatever their headers say. -/
def header_body_allowed (code : ℕ) : Bool := !(100 ≤ code && code < 200 || code = 204 || code = 304)

/-- The value of "Content-Length". An error is only noticed after a length that was read before. -/
def parse_content_length (content_length : ℤ) (value : Bytes) : Except Abort ℤ :=
  match Decimal.from_chars value with
  | .ok value => .ok value
  | .error _ => if content_length ≠ -1 then .error .contentLengthInvalid else .ok content_length

/-- What the loop over the headers of a response does with one of them. -/
def read_framing (content_length : ℤ) (h : Option Bytes × Bytes) : Except Abort ℤ := do
  let content_length ←
    (if isContentLength h.1 then parse_content_length content_length h.2 else .ok content_length)
  if isChunked h then .error .chunkedEncoding else .ok content_length

/-- The loop over the headers of a response, if it can have a body. -/
def response_length (content_length : ℤ) (r : PicoHttp.Response) : Except Abort ℤ :=
  if header_body_allowed r.status then r.headers.foldlM read_framing content_length
    else .ok content_length

/-- The headers of a response are added to its RPC. No local id is given out for them. -/
def add_response_headers (config : IdConfig) (headers : List (Option Bytes × Bytes))
    (m : HTTPMessage) :
    Except Abort HTTPMessage :=
  headers.foldlM (fun m h => do
    let (m, _) ← m.add_header_field config 0 (headerName h.1) h.2 false false
    .ok m) m

/-- The body goes to the RPC of the last request, which the registry finds by descriptor and
stream. An empty body is not stored. -/
def store_body (c : HTTP1Connection n) (s : HttpCalls n) : Except Abort (HttpCalls n) :=
  if 0 < c.content_length then do
    let rpc ← s.rpc_mapper.get_us_rpc c.type c.last_id c.fd
    s.cast_http rpc
    let body := (c.buf.drop c.hdr_size.toNat).take c.content_length.toNat
    let m ← (s.message rpc).add_data body false
    .ok (s.set_message rpc m)
  else .ok s

/-- The part of `http_read` from the complete head of a response on. Until the announced length is
there it only waits; then the response is queued, and any byte behind it ends the process. -/
def read_body (c : HTTP1Connection n) (s : HttpCalls n) :
    Except Abort (HTTP1Connection n × HttpCalls n) := do
  -- a response without a length has −1 here and is complete at once
  if (c.buf.length : ℤ) - c.hdr_size < c.content_length then .ok (c, s)
  else
    let s ← c.store_body s
    let content_length := if 0 < c.content_length then c.content_length else 0
    let s := s.enqueue c.type c.direction c.fd c.last_id
    if c.hdr_size + content_length < c.buf.length then .error .moreData
    else if c.idle then .error .wrongIdle
    else .ok (c.reset true, s)

/-- The part of `http_read` that reads a response. The head is parsed once, when it is complete;
the later reads of the same response go straight to its body. -/
def read_response (parser : HttpParser) (config : IdConfig) (c : HTTP1Connection n)
    (s : HttpCalls n) :
    Except Abort (HTTP1Connection n × HttpCalls n) :=
  if c.hdr_complete then c.read_body s
  else
    match parser.phr_parse_response c.buf http1MaxHeaders c.prev_buf_len with
    -- `phr_parse_response` returns -2, and the rest is waited for
    | .error .incomplete => .ok ({ c with hdr_size := -2 }, s)
    | .error .failed => .error .parseFailed
    | .ok (r, hdr_size) => do
      let content_length ← response_length c.content_length r
      -- the request that was sent last on this connection
      let rpc ← s.rpc_mapper.get_us_rpc c.type c.last_id c.fd
      s.cast_http rpc
      let m ← add_response_headers config r.headers (s.message rpc)
      let m := { m with status := r.status, msg := r.msg, minor := r.minor }
      let c :=
        { c with hdr_size := hdr_size, content_length := content_length, hdr_complete := true }
      c.read_body (s.set_message rpc m)

end HTTP1Connection

/-! ## The ingress queue -/

namespace HttpWorker

variable {n : ℕ}

/-- `drop_rpc`: the request is answered with an error, by way of an upstream stream that does not
exist. -/
def drop_rpc (rpc : Fin n) (w : HttpWorker n) : Except Abort (HttpWorker n) := do
  w.cast_http rpc
  if (w.rpc_mapper.heap rpc).service ≠ w.ingress.ingress_service then .error .serviceMismatch
  else
    let drop_id := w.ingress.drop_id + 1
    let m := { w.http rpc with status := 503 }
    let rpc_mapper := w.rpc_mapper.modify rpc fun msg =>
      { msg with
        error := true
        -- an id that no request of the mesh has, so that `route` finds it free
        local_id := (-(drop_id + 1)).signExtend 64
        -- the drop is filed like a request that was sent, and answered like one
        us_fd := w.ingress.drop_fd
        us_stream_id := drop_id.toInt }
    let msg := rpc_mapper.heap rpc
    let rpc_mapper ← rpc_mapper.route .EGRESS msg.ds_stream_id msg.ds_fd
      msg.us_stream_id w.ingress.drop_fd
    let calls : HttpCalls n :=
      { w with rpc_mapper := rpc_mapper, http := Function.update w.http rpc m }
    .ok
      { w with
        toHttpCalls := calls.enqueue .EGRESS .UPSTREAM msg.us_fd msg.us_stream_id
        ingress := { w.ingress with drop_id := drop_id } }

/-- `Ingress::enqueue`, the admission at the edge: an RPC of another service ends the process, one
above the cap is answered with an error at once, and the others get their headers and wait for
credit. -/
def ingress_enqueue (config : IdConfig) (rpc : Fin n) (w : HttpWorker n) :
    Except Abort (HttpWorker n) := do
  if (w.rpc_mapper.heap rpc).service ≠ w.ingress.ingress_service then .error .serviceMismatch
  -- the request that has just come is the one that is dropped
  else if w.ingress.ingress_size_cap ≤ w.ingress.queue.length then w.drop_rpc rpc
  else
    let (m, counter, ingress) ← w.ingress.add_rpc_id_header config
      w.local_id_counter (w.message rpc)
    let (m, counter) ← ingress.add_priority_header config counter m
    .ok
      { toHttpCalls := w.set_message rpc m
        local_id_counter := counter
        ingress := { ingress with queue := ingress.queue ++ [rpc] } }

end HttpWorker

/-- How a read ends, unless the process does: it returns, or it throws `HTTPParseException`. -/
inductive HttpRead (n : ℕ)
  | returned (c : HTTP1Connection n) (w : HttpWorker n)
  | thrown (c : HTTP1Connection n) (w : HttpWorker n)

namespace HTTP1Connection

variable {n : ℕ}

/-! ## Requests -/

/-- The number that `strtoul` reads at the value of a header. It is given where the value starts
and not where it ends, nor does it stop at the end of the bytes in use: behind an empty value on
the last line of a head it reads on in what an earlier message has left in the array. If the array
is full and nothing in it ends the number, it reads past its end. -/
def header_number (c : HTTP1Connection n) (value_ptr : Bytes) : Except Abort ℤ :=
  if http1BufSize ≤ c.buf.length + c.stale.length
      ∧ Decimal.runs_on (value_ptr ++ c.stale) = true then
    .error .undefined
  else .ok ((Decimal.strtoul (value_ptr ++ c.stale)).setWidth 32).toInt

/-- What the loop over the headers of a request does with one of them: the name only has to start
with the text. -/
def read_length (c : HTTP1Connection n) (content_length : ℤ) (h : PicoHttp.phr_header) :
    Except Abort ℤ :=
  if CONTENT_LENGTH <+: headerName h.name then c.header_number h.value_ptr else .ok content_length

/-- The content length of a request: of the last header whose name starts with the text. -/
def request_content_length (c : HTTP1Connection n) (headers : List PicoHttp.phr_header) :
    Except Abort ℤ :=
  headers.foldlM c.read_length c.content_length

/-- A header of a request is added to its RPC. `memcmp` reads a name that is null. -/
def add_request_headers (config : IdConfig) :
    List PicoHttp.phr_header → HTTPMessage → RPCID → Except Abort (HTTPMessage × RPCID)
  | [], m, local_id_counter => .ok (m, local_id_counter)
  | h :: headers, m, local_id_counter =>
    match h.name with
    -- a line that continues a header has no name, and `memcmp` gets a null pointer
    | none => .error .undefined
    | some name => do
      let (m, local_id_counter) ← m.add_header_field config local_id_counter name h.value true false
      add_request_headers config headers m local_id_counter

/-- Whether an ingress sidecar throws over the target of a request: it names no service, or not the
one that this edge serves. The exception closes the connection, unlike the aborts of the other
roles. -/
def refused_target (w : HttpWorker n) (path : Bytes) : Bool :=
  match HTTPMessage.parse_service_from_request_target path with
  | none => true
  | some seg => seg ≠ w.ingress.ingress_service

/-- The part of `http_read` that makes an RPC of a complete request: it is registered, filled in
from the head, and queued for `forward` at a frontend or for credit at the edge. Then the
connection is busy until the response is out. -/
def accept_request (config : HttpConfig) (c : HTTP1Connection n) (w : HttpWorker n)
    (r : PicoHttp.Request) :
    Except Abort (HTTP1Connection n × HttpWorker n) := do
  let last_id ← c.next_id
  let c := { c with last_id := last_id }
  let rpc_mapper ← w.rpc_mapper.allocate_rpc c.type c.last_id c.fd .HTTP1
  let w := { w with rpc_mapper := rpc_mapper }
  let rpc ← w.rpc_mapper.get_ds_rpc c.type c.last_id c.fd
  let (m, counter) ← add_request_headers config.ids r.headers (w.message rpc) w.local_id_counter
  let m := { m with method := r.method }
  let m ← m.set_service r.path
  let m := { m with path := r.path, minor := r.minor }
  let w := { w with toHttpCalls := w.set_message rpc m, local_id_counter := counter }
  let w ←
    if config.is_frontend then
      .ok { w with toHttpCalls := w.enqueue c.type c.direction c.fd c.last_id }
    else if config.ids.is_ingress then
      if c.type = .INGRESS then .error .wrongEdge else w.ingress_enqueue config.ids rpc
    else .error .wrongEdge
  -- the check comes last in the source too, after the RPC was queued
  if c.idle then .ok (c.reset false, w) else .error .wrongIdle

/-- The part of `http_read` that reads a request. What the edge throws over, the other roles abort
over; after the throw the event loop closes the connection. -/
def read_request (parser : HttpParser) (config : HttpConfig) (c : HTTP1Connection n)
    (w : HttpWorker n) :
    Except Abort (HttpRead n) :=
  match parser.phr_parse_request c.buf http1MaxHeaders c.prev_buf_len with
  | .error .incomplete => .ok (.returned { c with hdr_size := -2 } w)
  | .error .failed =>
    -- a client is not trusted: its connection is closed, where others end the process
    if config.ids.is_ingress then .ok (.thrown { c with hdr_size := -1 } w) else .error .parseFailed
  | .ok (r, hdr_size) => do
    let content_length ← c.request_content_length r.headers
    let c := { c with hdr_size := hdr_size, content_length := content_length }
    -- a request with a body, whatever its length
    if 0 ≤ c.content_length then
      if config.ids.is_ingress then .ok (.thrown c w) else .error .contentLengthInRequest
    else if config.ids.is_ingress ∧ refused_target w r.path = true then .ok (.thrown c w)
    -- bytes behind the head, of a body or of another request
    else if hdr_size < c.buf.length then .error .moreData
    else do
      let (c, w) ← c.accept_request config w r
      .ok (.returned c w)

/-- `HTTP1Connection::http_read`, on the bytes of one completion. They are copied behind those that
wait, and the parser sees the whole text again, with the length of the earlier part as a hint. -/
def http_read (parser : HttpParser) (config : HttpConfig) (data : Bytes) (c : HTTP1Connection n)
    (w : HttpWorker n) : Except Abort (HttpRead n) :=
  if data.length = 0 then .ok (.returned c w)
  -- what does not fit behind the bytes that wait ends the process
  else if http1BufSize - c.buf.length < data.length then .error .bufferOverflow
  else
    let c := c.fill data
    match c.direction with
    | .DOWNSTREAM => c.read_request parser config w
    | .UPSTREAM => do
      let (c, calls) ← c.read_response parser config.ids w.toHttpCalls
      .ok (.returned c { w with toHttpCalls := calls })

/-! ## Writing -/

/-- `available`: an established connection without a request under way. This is what
`ConnectionPool` looks for. -/
def available (c : HTTP1Connection n) : Bool := c.idle && decide (c.status = .UP)

/-- `submit_request`: the next stream number is given to the RPC, and the connection is busy with
it. A connection that is left with a message it has not written ends the process. -/
def submit_request (c : HTTP1Connection n) (s : HttpCalls n) (rpc : Fin n) :
    Except Abort (ℤ × HTTP1Connection n) := do
  s.cast_http rpc
  if c.rpc_message ≠ none then .error .messageSet
  else
    let last_id ← c.next_id
    .ok (last_id, { c with rpc_message := some rpc, last_id := last_id, idle := false })

/-- What `%.*s` writes of a text: the bytes before the first zero byte, however long the text
is. -/
def printed (s : Bytes) : Bytes := s.takeWhile (· ≠ 0)

/-- The text of a request as `http_write` prints it: the request line, then every header that was
added, then the empty line. -/
def request_text (m : HTTPMessage) : Bytes :=
  printed m.method ++ [32] ++ printed m.path ++ [32] ++ PicoHttp.VERSION
    ++ Decimal.ofInt m.minor ++ [13, 10]
    ++ (m.req_headers.text.map fun h => printed h.1 ++ [58, 32] ++ printed h.2 ++ [13, 10]).flatten
    ++ [13, 10]

/-- `http_write` for a request, into a buffer of `size` bytes. `vsnprintf` needs a byte after the
text. -/
def http_write_request (size : ℕ) (c : HTTP1Connection n) (s : HttpCalls n) :
    Except Abort (Bytes × HTTP1Connection n) :=
  match c.rpc_message with
  | none => .error .messageNotSet
  | some rpc =>
    let text := request_text (s.message rpc)
    -- `snprintf` needs room for a zero behind the text
    if size ≤ text.length then .error .bufferOverflow
    else if c.idle then .error .wrongIdle
    else .ok (text, { c with rpc_message := none })

end HTTP1Connection

end RlpSidecar
