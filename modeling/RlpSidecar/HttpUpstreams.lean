/-
The upstream half of a worker that speaks HTTP/1 (`state.cc`, `route_request`, `forward_request`
and `forward`, with `UpstreamRouteMapper`).

A request goes to any connection of a pool that is up and idle; the connection is busy from then
on, until the read that completes the response. What the response belongs to is not in its bytes:
it is the number of requests that the connection has sent so far.

The connections here are those of HTTP/1. What else happens in the process (requests that arrive,
requests that go out over HTTP/2, drops) is an event of the registry, and may change the parts of
the objects that the registry does not have.

A step is one event: a request is routed and sent, bytes are read, a response is forwarded, the
state of a connection changes, or something happens elsewhere. The history of a run is kept beside
it: which requests were sent over a connection (`sent`), and which of them have been answered
(`answered`).
-/
import RlpSidecar.ConnectionPool
import RlpSidecar.HttpReads
import RlpSidecar.RpcCoherence

set_option autoImplicit false

open Runs

namespace RlpSidecar

/-- What the code of this module reads of the configuration: the role of the sidecar, and the size
of a buffer. -/
structure UpstreamConfig extends TrafficConfig where
  is_frontend : Bool
  buffer_size : ℕ

/-- `ingress_pool`, and the pools in the map of `UpstreamRouteMapper`, one for each service. -/
inductive PoolId
  | ingress
  | service (name : Bytes)
  deriving DecidableEq

/-- The type that the pools are made with: INGRESS towards the own service, EGRESS towards the
others. -/
def PoolId.type : PoolId → ConnectionType
  | .ingress => .INGRESS
  | .service _ => .EGRESS

/-- A worker with its HTTP/1 connections to servers, by their descriptors, and the pools they are
in. -/
structure HttpUpstreams (n : ℕ) extends HttpWorker n where
  connections : ℤ → Option (HTTP1Connection n)
  pools : PoolId → Option ConnectionPool
  answers : List (StreamKey × ℤ × ℤ)

namespace HttpUpstreams

variable {n : ℕ}

/-! ## The registry of a worker -/

/-- The part of a worker that `Traffic` is about: the registry, the counters for ids, and the
answers that were given. -/
def traffic (s : HttpUpstreams n) : Traffic n :=
  { rpc_mapper := s.rpc_mapper
    local_id_counter := s.local_id_counter
    drop_id := s.ingress.drop_id
    answers := s.answers }

/-- Puts that part back, after a handler of `Traffic` has changed it. -/
def set_traffic (s : HttpUpstreams n) (t : Traffic n) : HttpUpstreams n :=
  { s with
    rpc_mapper := t.rpc_mapper
    local_id_counter := t.local_id_counter
    ingress := { s.ingress with drop_id := t.drop_id }
    answers := t.answers }

/-- Stores a connection under its descriptor, as the handlers change it through a pointer. -/
def set_connection (s : HttpUpstreams n) (fd : ℤ) (c : HTTP1Connection n) : HttpUpstreams n :=
  { s with connections := Function.update s.connections fd (some c) }

/-! ## Requests -/

/-- `available`, of the connection with a descriptor; without a connection there is nothing to be
available. -/
def available (s : HttpUpstreams n) (fd : ℤ) : Bool :=
  (s.connections fd).any HTTP1Connection.available

/-- The pool for a request: `ingress_pool`, or what `get_pool` finds for its service. -/
def find_pool (s : HttpUpstreams n) (type : ConnectionType) (service : Bytes) :
    Except Abort PoolId :=
  match type with
  | .INGRESS => .ok .ingress
  | .EGRESS =>
    if (s.pools (.service service)).isSome then .ok (.service service)
    else if (s.pools (.service ANY_SERVICE)).isSome then .ok (.service ANY_SERVICE)
    else .error .noPool

/-- `route_request`: the descriptor of the connection. It is stored in the object by
`forward_request` here. For a connection that is down, a null pointer is returned and followed. -/
def route_request (k : StreamKey) (s : HttpUpstreams n) : Except Abort (ℤ × HttpUpstreams n) := do
  let rpc ← s.rpc_mapper.get_ds_rpc k.1 k.2.2 k.2.1
  let id ← s.find_pool k.1 (s.rpc_mapper.heap rpc).service
  match s.pools id with
  | none => .error .noConnection
  | some pool => do
    -- the iterator of the pool may have moved, and is stored with it
    let (fd, pool) ← pool.get_any_connection s.available
    match (s.connections fd).map HTTP1Connection.status with
    | some .UP => .ok (fd, { s with pools := Function.update s.pools id (some pool) })
    -- available, but closing: the source looks again
    | some .TEARDOWN => .error .noConnection
    | _ => .error .undefined

/-- The part of `forward_request` before the request is submitted: on INGRESS the message gets a
header with its id. -/
def add_local_id (config : IdConfig) (type : ConnectionType) (rpc : Fin n) (s : HttpUpstreams n) :
    Except Abort (HttpUpstreams n) :=
  match type with
  | .EGRESS => .ok s
  | .INGRESS => do
    let (m, local_id_counter) ← (s.message rpc).set_local_id_header config s.local_id_counter
    .ok { s with toHttpCalls := s.set_message rpc m, local_id_counter := local_id_counter }

/-- `forward_request`, over the connection of a descriptor: the id of the stream, and the text that
is sent. -/
def forward_request (config : UpstreamConfig) (k : StreamKey) (fd : ℤ) (s : HttpUpstreams n) :
    Except Abort (ℤ × Bytes × HttpUpstreams n) := do
  let rpc ← s.rpc_mapper.get_ds_rpc k.1 k.2.2 k.2.1
  match s.connections fd with
  | none => .error .noPool
  | some c => do
    let s ← s.add_local_id config.ids c.type rpc
    let (us_stream_id, c) ← c.submit_request s.toHttpCalls rpc
    let traffic ← s.traffic.forward_request config.toTrafficConfig k fd us_stream_id
    let s := s.set_traffic traffic
    -- `write_http`, which has one request to write
    let (text, c) ← c.http_write_request config.buffer_size s.toHttpCalls
    .ok (us_stream_id, text, s.set_connection fd c)

/-! ## Responses -/

/-- The READ handler of a connection to a server, up to `forward`. An exception closes the
connection. -/
def read (parser : HttpParser) (config : UpstreamConfig) (fd : ℤ) (data : Bytes)
    (s : HttpUpstreams n) :
    Except Abort (HttpUpstreams n) :=
  match s.connections fd with
  | none => .error .undefined
  | some c => do
    match ← c.http_read parser ⟨config.ids, config.is_frontend⟩ data s.toHttpWorker with
    | .returned c w => .ok ({ s with toHttpWorker := w }.set_connection fd c)
    -- the exception of `http_read`, after which the connection is closed
    | .thrown c w =>
      .ok ({ s with toHttpWorker := w }.set_connection fd { c with status := .TEARDOWN })

/-- `forward`, for the first response in a queue. Without one there is nothing to be done. -/
def respond (config : UpstreamConfig) (type : ConnectionType) (failed : Bool)
    (held : ℕ) (s : HttpUpstreams n) :
    Except Abort (HttpUpstreams n) :=
  match s.rpc_queue type .UPSTREAM with
  | [] => .ok s
  | (src_fd, src_stream_id) :: rest => do
    -- the request is found by the stream and removed with its response
    let traffic ← s.traffic.handle config.toTrafficConfig
      (.forward_response type src_fd src_stream_id failed held)
    let s := s.set_traffic traffic
    .ok { s with toHttpCalls := s.set_queue type .UPSTREAM rest }

/-! ## Runs -/

/-- What happens to the upstream half. `answer` is the stream whose response a read has
completed. -/
inductive Event
  /-- `route_request` and `forward_request`. -/
  | forward (k : StreamKey) (fd us_stream_id : ℤ)
  /-- Bytes of a response arrive. -/
  | read (fd : ℤ) (data : Bytes) (answer : Option ℤ)
  /-- The first response of a queue goes back. -/
  | respond (type : ConnectionType) (fd us_stream_id : ℤ)
  /-- The first response of a queue is taken out of it while there is no connection to send it back
  on. -/
  | discard (type : ConnectionType)
  /-- A connection is established, or closed. -/
  | set_status (fd : ℤ) (status : ConnectionStatus)
  /-- A request, a drop or the response of an HTTP/2 connection is put into a queue. -/
  | enqueue (type : ConnectionType) (direction : ConnectionDirection) (fd stream_id : ℤ)
  /-- A request is taken out of its queue. -/
  | dequeue (type : ConnectionType)
  /-- Something else happens to the registry. -/
  | other (ev : Traffic.Event)

/-- The worker, and the ledger of the requests that it is for. -/
abbrev World (n : ℕ) := HttpUpstreams n × Ledger

/-- The ledger of a request that was sent: it is forwarded on that stream, and the route is
noted. -/
def sendLedger (L : Ledger) (k : StreamKey) (http : HTTP) (us : ℤ × ℤ) : Ledger :=
  { L.set k (some ⟨http, .forwarded us⟩) with routes := (k, us) :: L.routes }

/-- The queue after a read that has completed a response, or none. -/
def answerQueue (s : HttpUpstreams n) (type : ConnectionType) (fd : ℤ) :
    Option ℤ → ConnectionType → ConnectionDirection → List (ℤ × ℤ)
  | none => s.rpc_queue
  | some us_stream_id => (s.enqueue type .UPSTREAM fd us_stream_id).rpc_queue

/-- What the other connections and the pool of the descriptors promise about an event of the
registry: it is not one that only an HTTP/1 connection can cause. -/
def Elsewhere (s : HttpUpstreams n) : Traffic.Event → Prop
  | .forward_request _ us_fd _ => s.connections us_fd = none
  | .forward_response .. => False
  | _ => True

/-- A step of the worker. That a request is sent once, after it is complete, is promised by the
code that calls; which streams are new is not. -/
inductive Step (parser : HttpParser) (config : UpstreamConfig) : World n → Event → World n → Prop
  | forward {s s₁ s' : HttpUpstreams n} {L : Ledger} {k : StreamKey} {http : HTTP}
      {fd us_stream_id : ℤ} {text : Bytes}
      (hk : L.request k = some ⟨http, .ready⟩) (hroute : s.route_request k = .ok (fd, s₁))
      (hok : s₁.forward_request config k fd = .ok (us_stream_id, text, s')) :
      Step parser config (s, L) (.forward k fd us_stream_id)
        (s', sendLedger L k http (fd, us_stream_id))
  | read {s s' : HttpUpstreams n} {L : Ledger} {fd : ℤ} {c : HTTP1Connection n}
      {data : Bytes} {answer : Option ℤ}
      (hc : s.connections fd = some c) (hok : s.read parser config fd data = .ok s')
      (hanswer : s'.rpc_queue = s.answerQueue c.type fd answer) :
      Step parser config (s, L) (.read fd data answer) (s', L)
  | respond {s s' : HttpUpstreams n} {L L' : Ledger} {type : ConnectionType}
      {us : ℤ × ℤ} {rest : List (ℤ × ℤ)}
      {failed : Bool} {held : ℕ} (hqueue : s.rpc_queue type .UPSTREAM = us :: rest)
      (hok : s.respond config type failed held = .ok s')
      (hledger : L.Step config.toTrafficConfig (.forward_response type us.1 us.2 failed held) L') :
      Step parser config (s, L) (.respond type us.1 us.2) (s', L')
  | discard {s : HttpUpstreams n} {L : Ledger} {type : ConnectionType}
      {us : ℤ × ℤ} {rest : List (ℤ × ℤ)}
      (hqueue : s.rpc_queue type .UPSTREAM = us :: rest) :
      Step parser config (s, L) (.discard type)
        ({ s with toHttpCalls := s.set_queue type .UPSTREAM rest }, L)
  | set_status {s : HttpUpstreams n} {L : Ledger} {fd : ℤ} {c : HTTP1Connection n}
      (status : ConnectionStatus)
      (hc : s.connections fd = some c) :
      Step parser config (s, L) (.set_status fd status)
        (s.set_connection fd { c with status := status }, L)
  | enqueue {s : HttpUpstreams n} {L : Ledger} (type : ConnectionType)
      (direction : ConnectionDirection)
      (fd stream_id : ℤ) (hfd : direction = .UPSTREAM → s.connections fd = none) :
      Step parser config (s, L) (.enqueue type direction fd stream_id)
        ({ s with toHttpCalls := s.enqueue type direction fd stream_id }, L)
  | dequeue {s : HttpUpstreams n} {L : Ledger} (type : ConnectionType) (rest : List (ℤ × ℤ)) :
      Step parser config (s, L) (.dequeue type)
        ({ s with toHttpCalls := s.set_queue type .DOWNSTREAM rest }, L)
  | other {s : HttpUpstreams n} {L L' : Ledger} {t : Traffic n} {ev : Traffic.Event}
      (http : Fin n → HTTPMessage)
      (ingress : Ingress n) (helse : s.Elsewhere ev)
        (hok : s.traffic.handle config.toTrafficConfig ev = .ok t)
      (hledger : L.Step config.toTrafficConfig ev L') :
      Step parser config (s, L) (.other ev)
        ({ s with http := http, ingress := ingress }.set_traffic t, L')

/-- A run of the worker, as the list of its steps with the states around them. -/
abbrev Run (n : ℕ) := List (Transition (World n) Event)

/-- What a step sends over a connection: the request, and the stream. -/
def sentBy (fd : ℤ) (t : Transition (World n) Event) : Option (StreamKey × ℤ) :=
  match t.label with
  | .forward k fd' us_stream_id => if fd' = fd then some (k, us_stream_id) else none
  | _ => none

/-- The stream whose response a step completes on a connection, if it is a read of this connection
that does. -/
def answeredBy (fd : ℤ) (t : Transition (World n) Event) : Option ℤ :=
  match t.label with
  | .read fd' _ answer => if fd' = fd then answer else none
  | _ => none

/-- The requests that a run has sent over a connection, oldest first, with their streams. -/
def sent (ts : Run n) (fd : ℤ) : List (StreamKey × ℤ) := ts.filterMap (sentBy fd)

/-- The streams whose responses a run has read from a connection, in the order in which they were
complete. -/
def answered (ts : Run n) (fd : ℤ) : List ℤ := ts.filterMap (answeredBy fd)

/-- The requests that were sent over a connection and have no response. -/
def unanswered (ts : Run n) (fd : ℤ) : List (StreamKey × ℤ) :=
  (sent ts fd).filter fun x => x.2 ∉ answered ts fd

/-- A worker at its start: the registry is new, the queues for responses are empty, and the
connections of the pools are on different descriptors and have not been used. -/
structure Start (grpc_n http_n : ℕ) (s : HttpUpstreams (http_n + grpc_n)) : Prop where
  traffic : ∃ type priority, s.traffic = Traffic.start grpc_n http_n type priority
  queue : ∀ type, s.rpc_queue type .UPSTREAM = []
  connection : ∀ fd c, s.connections fd = some c → 0 < fd ∧ c = .create fd c.type
  pool : ∀ id pool, s.pools id = some pool → ∀ fd ∈ pool.fds, ∃ c, s.connections fd = some c
    ∧ c.type = id.type

end HttpUpstreams

end RlpSidecar
