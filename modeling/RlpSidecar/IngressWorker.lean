/-
A worker of the ingress sidecar (`event_loop.cc`, `state.cc` and `ingress.cc`, for one thread): its
clients, the queue of their requests, and the credits the requests wait for.

A request is read on the connection of a client and joins the queue, or is dropped if the queue is
full. One Credit Request is on its way at a time; when its Credit Grant comes, the first request of
the queue is sent to the frontend and the next Credit Request goes out. Responses go back when they
are read, and those of dropped requests with them: nothing handles a drop on its own.

A connection of a client is found under its descriptor in the listener, and is taken out of it when
its close completes.
-/
import RlpSidecar.DatagramRoundTrip
import RlpSidecar.HttpUpstreamRuns
import RlpSidecar.IngressCap
import RlpSidecar.ResponseForwarding

set_option autoImplicit false

open Runs Tables

namespace RlpSidecar

variable {n : ℕ}

/-- `RPCMapper::check_fd_exists`: whether an RPC of this descriptor is still registered, in the map
of the given direction. -/
def RPCMapper.check_fd_exists (m : RPCMapper n) (type : ConnectionType)
    (fd : ℤ) (is_us : Bool) : Bool :=
  match (if is_us then m.us_map type else m.ds_map type).lookup fd with
  | none => false
  | some streams => decide (0 < streams.entries.length)

/-- The constructor of `HTTP1Connection` for a connection from a client, which is UP from the
start. -/
def HTTP1Connection.accepted (fd : ℤ) (type : ConnectionType) : HTTP1Connection n :=
  { HTTP1Connection.create fd type with direction := .DOWNSTREAM, status := .UP }

/-- `is_drop`: an error with status 503 is one that the edge has made itself, for a request above
the cap. -/
def HTTPMessage.is_drop (m : HTTPMessage) : Bool := m.ids.rpc.error && decide (m.status = 503)

namespace Ingress

/-- `Ingress::dequeue`: the oldest request leaves the queue, and the next Credit Request may be
sent. -/
def dequeue (ingress : Ingress n) : Except Abort (Fin n × Ingress n) :=
  match ingress.queue with
  | [] => .error .ingressEmpty
  | rpc :: queue => .ok (rpc, { ingress with queue := queue, has_credit_request_on_fly := false })

/-- `Ingress::send_credit_request_checker`: a Credit Request is due if something waits and none is
under way, and then the flag is set at once. -/
def send_credit_request_checker (ingress : Ingress n) : Bool × Ingress n :=
  let check := decide (0 < ingress.queue.length) && !ingress.has_credit_request_on_fly
  (check, { ingress with has_credit_request_on_fly := if check then true
                           else ingress.has_credit_request_on_fly })

/-- The request whose id and priority `get_tail_id` and `get_tail_priority` return. In spite of
their names they read the front of the queue. -/
def front (ingress : Ingress n) : Except Abort (Fin n) :=
  match ingress.queue with
  | [] => .error .undefined
  | rpc :: _ => .ok rpc

end Ingress

/-- The state of the thread. The messages are those of HTTP/1, and so are the connections: the
pools of the frontends are `EGRESS`, and there is no other. `on_fly` are the Credit Requests that
have been sent and have no answer. `written` is the record of what has been written on the
connections of the clients: each text with the stream of its request, which names the descriptor of
the client. -/
structure IngressWorker (n : ℕ) extends HttpUpstreams n where
  clients : UMap ℤ (HTTP1Connection n)
  last_rtt_us : BitVec 32
  on_fly : List Buffer
  written : List (StreamKey × Bytes)

namespace IngressWorker

/-- What a handler gets from outside: a new limit for the queue, if there is one, a buffer, and the
clock. -/
structure Env where
  cap : Option ℕ
  fresh : Buffer
  now_us : BitVec 64

/-- Stores what a handler has made of the connection of a client. -/
def set_client (fd : ℤ) (c : HTTP1Connection n) (w : IngressWorker n) : IngressWorker n :=
  { w with clients := w.clients.insert fd c }

/-- A request that waits: the stream it was read from, and the text that is to be sent for it. -/
def entry (w : IngressWorker n) (rpc : Fin n) : StreamKey × Bytes :=
  (w.rpc_mapper.ds_key rpc, HTTP1Connection.request_text (w.http rpc))

/-! ## Credits -/

/-- `State::send_credit_request` at the edge. The address is that of the pool of the service, and a
service without a pool ends the process; what is sent is recorded in `on_fly`. -/
def send_credit_request (env : Env) (service : Bytes) (num_credits : ℕ)
    (id : RPCID) (priority : Priority) (w : IngressWorker n) : Except Abort (IngressWorker n) := do
  let _ ← w.find_pool .EGRESS service
  let buffer ← write_credit_request env.fresh service num_credits id priority
    env.now_us w.last_rtt_us
  .ok { w with on_fly := w.on_fly ++ [buffer] }

/-- `State::ingress_pre_credit`: the cap is updated, and if a Credit Request is due it is sent for
the front of the queue, with its id and its priority. -/
def ingress_pre_credit (env : Env) (w : IngressWorker n) : Except Abort (IngressWorker n) := do
  let (check, ingress) := (w.ingress.update_cap env.cap).send_credit_request_checker
  let w := { w with ingress := ingress }
  if check = false then .ok w
  else
    let rpc ← w.ingress.front
    let msg := w.rpc_mapper.heap rpc
    w.send_credit_request env w.ingress.ingress_service 1 msg.local_id msg.priority

/-- `credit_post_process`: the number of credits. The RTT is stored, which an ingress does for its
one service only. -/
def credit_post_process (env : Env) (buf : Buffer) (w : IngressWorker n) :
    Except Abort (ℕ × IngressWorker n) := do
  let m ← read_credit_grant buf
  let rtt ← credit_rtt m env.now_us
  if m.requested ≠ m.granted then .error .creditMismatch
  else if m.granted = 0 then .error .creditMismatch
  else if w.ingress.ingress_service ≠ m.service then .error .serviceMismatch
  else .ok (charToSize m.granted, { w with last_rtt_us := rtt })

/-! ## Requests and responses -/

/-- `State::send_sub_request` at the edge: the stream of the request, and the text that is sent.
The connection is taken from the pool of the service. -/
def send_sub_request (config : UpstreamConfig) (rpc : Fin n) (w : IngressWorker n) :
    Except Abort ((StreamKey × Bytes) × IngressWorker n) := do
  let msg := w.rpc_mapper.heap rpc
  let k : StreamKey := (.EGRESS, msg.ds_fd, msg.ds_stream_id)
  let (us_fd, s) ← w.toHttpUpstreams.route_request k
  let (_, text, s) ← s.forward_request config k us_fd
  .ok ((k, text), { w with toHttpUpstreams := s })

/-- The body of the loop in `forward`, for a response: it is written on the connection of its
client. Pointers to the message are the one in hand and those in the queue. -/
def forward_response (config : UpstreamConfig) (src : ℤ × ℤ) (w : IngressWorker n) :
    Except Abort (IngressWorker n) := do
  let rpc ← w.rpc_mapper.get_us_rpc .EGRESS src.2 src.1
  -- the object carries the stream of its client
  let msg := w.rpc_mapper.heap rpc
  match w.clients.lookup msg.ds_fd with
  -- `connections.at(fd)`, for a client that has gone
  | none => .error .outOfRange
  | some conn =>
    if (w.message rpc).is_drop = false ∧ msg.local_id = -1
        ∧ config.ids.is_plain_frontend = false then
      .error .requestHasNoId
    else do
      let conn ← conn.submit_response w.toHttpCalls rpc
      -- the response is written at once, and the object goes back to the pool
      let (text, conn, calls) ← conn.http_write_response config.buffer_size
        (w.ingress.queue.count rpc) w.toHttpCalls
      let k : StreamKey := (.EGRESS, msg.ds_fd, msg.ds_stream_id)
      .ok ({ w with
        toHttpCalls := calls
        answers := w.answers ++ [(k, src)]
        written := w.written ++ [(k, text)] }.set_client msg.ds_fd conn)

/-- The loop of `forward` over the queue of the responses. Without any client it returns, and the
entry it has taken is lost. -/
def forward (config : UpstreamConfig) : List (ℤ × ℤ) → IngressWorker n →
    Except Abort (IngressWorker n)
  | [], w => .ok w
  | src :: rest, w => do
    let w := { w with toHttpCalls := w.set_queue .EGRESS .UPSTREAM rest }
    -- "no connections": the loop returns with what it has not looked at still queued
    if w.clients.entries.isEmpty then .ok w
    else do
      let w ← w.forward_response config src
      forward config rest w

/-! ## Handlers -/

/-- `Operation::ACCEPT`, on the listener for `EGRESS`, which is where the clients of an edge
connect. An entry that is there already is kept. -/
def handle_accept (fd : ℤ) (w : IngressWorker n) : IngressWorker n :=
  { w with clients := (emplace w.clients fd (.accepted fd .EGRESS)).1 }

/-- `Operation::CANCEL`, for a client: with a request of it still registered the process ends. -/
def handle_cancel (fd : ℤ) (w : IngressWorker n) : Except Abort (IngressWorker n) :=
  if w.rpc_mapper.check_fd_exists .EGRESS fd false then .error .mapperNotEmpty
  else .ok { w with clients := w.clients.erase fd }

/-- `Operation::READ`, for a client. Of what the event loop calls after `http_read`, `forward`
returns at once, since nothing is queued for a frontend, and `protocol_client` finds its queue
empty. -/
def handle_request (parser : HttpParser) (config : UpstreamConfig) (env : Env)
    (fd : ℤ) (data : Bytes) (w : IngressWorker n) : Except Abort (IngressWorker n) :=
  match w.clients.lookup fd with
  | none => .error .undefined
  | some conn => do
    match ← conn.http_read parser ⟨config.ids, config.is_frontend⟩ data w.toHttpWorker with
    -- the exception: the close of the connection is submitted, and nothing else is called
    | .thrown conn s =>
      .ok ({ w with toHttpWorker := s }.set_client fd { conn with status := .TEARDOWN })
    | .returned conn s => ({ w with toHttpWorker := s }.set_client fd conn).ingress_pre_credit env

/-- `Operation::READ`, for a frontend: the response is read, forwarded to its client together with
any drop that waits, and then a Credit Request may be due. -/
def handle_response (parser : HttpParser) (config : UpstreamConfig) (env : Env)
    (fd : ℤ) (data : Bytes) (w : IngressWorker n) : Except Abort (IngressWorker n) := do
  let s ← w.toHttpUpstreams.read parser config fd data
  let w ← { w with toHttpUpstreams := s }.forward config (s.rpc_queue .EGRESS .UPSTREAM)
  w.ingress_pre_credit env

/-- `State::ingress_post_credit`, for one Credit Grant: the oldest request is sent, and the next
Credit Request may go out. The first component is the request that is sent. -/
def ingress_post_credit (config : UpstreamConfig) (env : Env) (buf : Buffer) (w : IngressWorker n) :
    Except Abort ((StreamKey × Bytes) × IngressWorker n) := do
  let (num_credits, w) ← w.credit_post_process env buf
  if num_credits ≠ 1 then .error .creditMismatch
  else do
    let (rpc, ingress) ← w.ingress.dequeue
    let (sent, w) ← { w with ingress := ingress }.send_sub_request config rpc
    -- the drops go back
    let w ← w.forward config (w.rpc_queue .EGRESS .UPSTREAM)
    let w ← w.ingress_pre_credit env
    .ok (sent, w)

/-! ## Runs -/

/-- What happens to the worker: what the kernel tells it about its clients and its frontends, and
the Credit Grants. -/
inductive Event
  /-- A client connects. -/
  | accept (fd : ℤ)
  /-- A connection to a frontend is established, or closed. -/
  | set_status (fd : ℤ) (status : ConnectionStatus)
  /-- A client closes its connection. -/
  | close (fd : ℤ)
  /-- The close of the connection of a client completes. -/
  | cancel (fd : ℤ)
  /-- Bytes come from a client. -/
  | request (fd : ℤ) (data : Bytes)
  /-- Bytes come from a frontend. -/
  | response (fd : ℤ) (data : Bytes)
  /-- The Credit Grant for a Credit Request comes, and a request is sent. -/
  | grant (req buf : Buffer) (sent : StreamKey × Bytes)

/-- A step of the worker. Whatever a Credit Grant says, it is the answer to one Credit Request,
which it takes out of `on_fly`.

The hypothesis `hdrops` of a request bounds the drops: `drop_id` is an `int32_t` that every drop
increments, and its overflow is undefined. So a run has fewer than `2 ^ 31` drops, and nothing else
about the clients is assumed. -/
inductive Step (parser : HttpParser) (config : UpstreamConfig) :
    IngressWorker n → Event → IngressWorker n → Prop
  | accept {w : IngressWorker n} (fd : ℤ) : Step parser config w (.accept fd) (w.handle_accept fd)
  | set_status {w : IngressWorker n} {fd : ℤ} {c : HTTP1Connection n} (status : ConnectionStatus)
      (hc : w.connections fd = some c) :
      Step parser config w (.set_status fd status)
        { w with toHttpUpstreams := w.set_connection fd { c with status := status } }
  | close {w : IngressWorker n} {fd : ℤ} {c : HTTP1Connection n}
      (hc : w.clients.lookup fd = some c) :
      Step parser config w (.close fd) (w.set_client fd { c with status := .TEARDOWN })
  | cancel {w w' : IngressWorker n} {fd : ℤ} (hok : w.handle_cancel fd = .ok w') : Step
      parser config w (.cancel fd) w'
  | request {w w' : IngressWorker n} {env : Env} {fd : ℤ} {data : Bytes}
      (hdrops : w.ingress.drop_id.toNat + 1 < 2 ^ 31)
        (hok : w.handle_request parser config env fd data = .ok w') :
      Step parser config w (.request fd data) w'
  | response {w w' : IngressWorker n} {env : Env} {fd : ℤ} {data : Bytes}
      (hok : w.handle_response parser config env fd data = .ok w') : Step
        parser config w (.response fd data) w'
  | grant {w w' : IngressWorker n} {env : Env} {before after : List Buffer}
      {req buf : Buffer} {sent : StreamKey × Bytes}
      (hreq : w.on_fly = before ++ req :: after)
        (hdispatch : dispatch_rlp_recv buf = .ok .credit_grant)
      (hok : { w with on_fly := before ++ after }.ingress_post_credit config env buf
        = .ok (sent, w')) :
      Step parser config w (.grant req buf sent) w'

/-- A run of the worker, as the list of its transitions. -/
abbrev Run (n : ℕ) := List (Transition (IngressWorker n) Event)

/-- What a step adds to the queue, as the stream of the request and the text that a frontend would
get. A dropped request adds nothing. -/
def admittedBy (t : Transition (IngressWorker n) Event) : List (StreamKey × Bytes) :=
  match t.label with
  | .request .. => (t.post.ingress.queue.drop t.pre.ingress.queue.length).map t.post.entry
  | _ => []

/-- What a step sends to a frontend. Only a Credit Grant makes it send. -/
def forwardedBy (t : Transition (IngressWorker n) Event) : List (StreamKey × Bytes) :=
  match t.label with
  | .grant _ _ sent => [sent]
  | _ => []

/-- The requests that a run has put into the queue, in this order. -/
def admitted (ts : Run n) : List (StreamKey × Bytes) := ts.flatMap admittedBy

/-- The requests that a run has sent, in this order. -/
def forwarded (ts : Run n) : List (StreamKey × Bytes) := ts.flatMap forwardedBy

/-- A worker at its start: no client, no request, no Credit Request, and the connections to the
frontends that its constructor has made. The `Ingress` comes from its own constructor, so the
configuration passed the checks there. -/
structure Start (config : UpstreamConfig) (grpc_n http_n : ℕ)
    (w : IngressWorker (http_n + grpc_n)) : Prop where
  upstreams : HttpUpstreams.Start grpc_n http_n w.toHttpUpstreams
  egress : ∀ fd c, w.connections fd = some c → c.type = .EGRESS
  quiet : w.rpc_queue .EGRESS .DOWNSTREAM = []
  ingress : ∃ routing priority, Ingress.create true routing priority config.index
    config.ingress_service = .ok w.ingress
  clients : w.clients = ∅
  on_fly : w.on_fly = []

end IngressWorker

end RlpSidecar
