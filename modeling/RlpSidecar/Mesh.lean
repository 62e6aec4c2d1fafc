/-
A mesh sidecar: the client side of the protocol beside the server side (`state.cc`,
`ppm_queue.cc`).

A request of a hosted service comes in as an ingress RPC. While it serves it the service sends
egress RPCs, each of which waits in `PPMQueue` for the Credit Grant that carries its id. How many
Credit Requests are sent for it, and when its ingress RPC stops and starts to count as active,
depends on the fan-out of the hosted service.

An RPC is kept as the value of its message object: while it is open the registry finds that
object, and no other, under its stream and under its id. `ingress_rpcs` and `egress_rpcs` are the
two sides of `id_map`; `rpc_queue` is the queue of egress requests that are complete.

The handlers have the names of the source. What goes to the ring or to a connection is kept in
logs, in order: the Credit Requests, the RPCs that were forwarded, the Credit Returns, and the
services for which `decrement_in_flight` was called.
-/
import RlpSidecar.RpcMapper
import RlpSidecar.ServerSpec

set_option autoImplicit false

open Tables

namespace RlpSidecar

/-- `PPMQueue`: for each service of the routing table, the RPCs that wait for a credit, by id. -/
abbrev PPMQueue := Nested Bytes RPCID RPCMessage

namespace PPMQueue

/-- `PPMQueue::PPMQueue`: an empty map for every downstream service of the routing. -/
def create (routing : List Bytes) : PPMQueue :=
  routing.foldl (fun q route => (emplace q route ∅).1) ∅

/-- `PPMQueue::push`: the RPC waits under its service and its local id. A service without a route,
or an id that waits already, ends the process. -/
def push (q : PPMQueue) (rpc : RPCMessage) : Except Abort PPMQueue :=
  match q.lookup rpc.service with
  | none => .error .ppmPush
  | some rpcs =>
    let (rpcs, check) := emplace rpcs rpc.local_id rpc
    if check then .ok (q.insert rpc.service rpcs) else .error .ppmPush

/-- `PPMQueue::pop`. Each of the three `LOG(FATAL)`s of the source, no such service, nothing
waiting, no such id, is the same error here. -/
def pop (q : PPMQueue) (service : Bytes) (id : RPCID) : Except Abort (RPCMessage × PPMQueue) :=
  match q.lookup service with
  | none => .error .ppmPop
  | some rpcs =>
    -- the source checks for an empty line before it looks the id up
    if rpcs.entries.isEmpty then .error .ppmPop
    else
      match rpcs.lookup id with
      | none => .error .ppmPop
      | some rpc => .ok (rpc, q.insert service (rpcs.erase id))

/-- `PPMQueue::check`, which looks for the service only, and not for an RPC that waits. -/
def check (q : PPMQueue) (service : Bytes) : Except Abort Unit :=
  if service ∈ q then .ok () else .error .ppmCheck

end PPMQueue

/-- What a mesh sidecar reads of its configuration: the part of its server, the services it routes
to, and the rules for identifiers. -/
structure MeshConfig where
  server : ServerConfig
  routing : List Bytes
  ids : IdConfig

/-- `get_pool`, as far as it can fail: a service of the routing table has a pool, and any other one
has that of `*`, if there is one. -/
def MeshConfig.get_pool (config : MeshConfig) (service : Bytes) : Except Abort Unit :=
  if service ∈ config.routing ∨ ANY_SERVICE ∈ config.routing then .ok () else .error .noPool

/-- A mesh sidecar. `requests` are the Credit Requests sent (service and id), `forwarded` the egress
RPCs sent, `returned` the Credit Returns handed to the ring, and `decrements` the services for which
an egress request has called `decrement_in_flight`, each in order. -/
structure Mesh where
  server : Server
  local_id_counter : RPCID
  ingress_rpcs : UMap RPCID RPCMessage
  egress_rpcs : UMap RPCID RPCMessage
  rpc_queue : List RPCMessage
  ppm_queue : PPMQueue
  last_rtt_us : LocalMap (BitVec 32)
  requests : List (Bytes × RPCID)
  forwarded : List RPCMessage
  returned : List Buffer
  decrements : List Bytes

namespace Mesh

/-- What the client side gets from outside when a Credit Grant arrives: a pool buffer, the clock
when the RTT is measured, and the clock when a credit of the server side is stamped. -/
structure GrantEnv where
  fresh : Buffer
  now_us : BitVec 64
  now_ts : BitVec 64

/-- `RPCMapper::get_ingress_rpc`: the id of the ingress RPC and its message. The upper half of a
local id is the local id of the ingress RPC. -/
def get_ingress_rpc (s : Mesh) (id : RPCID) : Except Abort (RPCID × RPCMessage) :=
  let ingress_side_id : RPCID := id >>> 32
  if ingress_side_id = 0 then .error .noIngressRpc
  else
    match s.ingress_rpcs.lookup ingress_side_id with
    | none => .error .noIngressRpc
    | some rpc => .ok (ingress_side_id, rpc)

/-- Writes to the message of an ingress RPC: the fan-out counters and the queued returns are fields
of it. -/
def set_ingress (s : Mesh) (id : RPCID) (rpc : RPCMessage) : Mesh :=
  { s with ingress_rpcs := s.ingress_rpcs.insert id rpc }

/-- `config.mapping.at(service)`, which throws for a service that is not hosted here. -/
def mapping_at (config : MeshConfig) (service : Bytes) : Except Abort MappingInfo :=
  match config.server.find service with
  | none => .error .outOfRange
  | some info => .ok info

/-! ## Requests go out -/

/-- What a Credit Request to a service depends on: its caller looks up the pool for the address, the
name has to fit into a datagram behind the header (`set_filled` leaves the last byte free), and the
RTT to the service is sent along. -/
def credit_request_rtt (config : MeshConfig) (last_rtt_us : LocalMap (BitVec 32))
    (service : Bytes) :
    Except Abort (BitVec 32) := do
  -- `get_pool` ends the process for a service without a route
  config.get_pool service
  -- the first check of the length is by `>`, and `set_filled` has one byte less
  if udpBufferLength < headerSize + service.length then .error .bufferTooSmall
  else do
    let last_rtt ← last_rtt_us.get service
    if udpBufferLength ≤ headerSize + service.length then .error .bufferOverflow
    else .ok last_rtt

/-- `send_credit_request`, as far as it can fail and be seen: the bytes are in `Datagram`. -/
def send_credit_request (config : MeshConfig) (service : Bytes) (id : RPCID) (s : Mesh) :
    Except Abort Mesh := do
  let _ ← credit_request_rtt config s.last_rtt_us service
  .ok { s with requests := s.requests ++ [(service, id)] }

/-- `send_credit_request` to each of these services: the downstream services of a fan-out, in the
order of the configuration. -/
def send_credit_requests (config : MeshConfig) (id : RPCID) : List Bytes → Mesh → Except Abort Mesh
  | [], s => .ok s
  | service :: services, s => do
    let s ← s.send_credit_request config service id
    send_credit_requests config id services s

/-- One round of the loop of `protocol_client` that admits the egress requests. A dynamic fan-out
asks all downstreams for a credit, and remembers for whom. -/
def admit_request (config : MeshConfig) (rpc : RPCMessage) (s : Mesh) : Except Abort Mesh := do
  let queue ← s.ppm_queue.push rpc
  let s := { s with ppm_queue := queue }
  let (ingress_id, ingress_rpc) ← s.get_ingress_rpc rpc.local_id
  let mapping_entry ← mapping_at config ingress_rpc.service
  -- the choice is noted in the ingress RPC, for the grants that come
  if mapping_entry.dfanout then
    let s := s.set_ingress ingress_id { ingress_rpc with dfanout_service := some rpc.service }
    s.send_credit_requests config rpc.local_id mapping_entry.downstreams
  else s.send_credit_request config rpc.service rpc.local_id

/-- The loop of `protocol_client` over the requests that are queued when it starts. Each one that
is admitted waits for its credit from then on. -/
def admit_requests (config : MeshConfig) : List RPCMessage → Mesh → Except Abort Mesh
  | [], s => .ok s
  | rpc :: rpcs, s => do
    let s ← s.admit_request config rpc
    admit_requests config rpcs s

/-- `protocol_client(false, …)`, which the event loop calls after every read. -/
def protocol_client_requests (config : MeshConfig) (s : Mesh) : Except Abort Mesh :=
  admit_requests config s.rpc_queue { s with rpc_queue := [] }

/-- `send_sub_request`: the RPC is filed under its id, which must be new, and sent. -/
def send_sub_request (config : MeshConfig) (rpc : RPCMessage) (s : Mesh) : Except Abort Mesh :=
  if rpc.local_id = -1 ∧ config.ids.is_plain_frontend = false then .error .requestHasNoId
  else if rpc.priority = -1 ∧ config.ids.is_plain_frontend = false then
    .error .requestHasNoPriority
  else
    let (rpcs, check) := emplace s.egress_rpcs rpc.local_id rpc
    if check then .ok { s with egress_rpcs := rpcs, forwarded := s.forwarded ++ [rpc] }
    else .error .idExists

/-- `decrement_in_flight` for the service of an ingress RPC, and `check_credit_transmission`. The
record `decrements` is not the program's; it says for which service this happened. -/
def release (service : Bytes) (now_ts : BitVec 64) (s : Mesh) : Except Abort Mesh := do
  let server ← s.server.release service now_ts
  .ok { s with server := server, decrements := s.decrements ++ [service] }

/-- The filling of the dfanout queue: a credit of another service than the one the RPC is for is
kept as a Credit Return. -/
def fill_dfanout_queue (env : GrantEnv) (dfanout_service service : Bytes) (credit_grant : Buffer)
    (ingress_rpc : RPCMessage) : Except Abort RPCMessage :=
  if dfanout_service ≠ service then do
    let credit_return ← prepare_credit_return credit_grant env.fresh
    .ok
      { ingress_rpc with
        credit_return_queue := ingress_rpc.credit_return_queue ++ [credit_return] }
  else .ok ingress_rpc

/-- `State::fanout_req_management`: a credit for the RPC `id` has come from `service`. The three
branches are the parallel fan-out, in which each credit sends its branch; the dynamic one, in which
the last credit sends the RPC and the unused ones go back; and no fan-out. -/
def fanout_req_management (config : MeshConfig) (env : GrantEnv) (id : RPCID) (service : Bytes)
    (credit_grant : Buffer) (s : Mesh) : Except Abort Mesh := do
  let (ingress_id, ingress_rpc) ← s.get_ingress_rpc id
  let mapping_entry ← mapping_at config ingress_rpc.service
  if mapping_entry.pfanout then
    let ingress_rpc := { ingress_rpc with pfanout_req := ingress_rpc.pfanout_req + 1 }
    let s := s.set_ingress ingress_id ingress_rpc
    let (rpc, queue) ← s.ppm_queue.pop service id
    let s ← send_sub_request config rpc { s with ppm_queue := queue }
    -- only the last branch goes on
    if ingress_rpc.pfanout_req.toNat ≠ mapping_entry.downstreams.length then .ok s
    else s.release ingress_rpc.service env.now_ts
  else if mapping_entry.dfanout then
    let ingress_rpc := { ingress_rpc with pfanout_req := ingress_rpc.pfanout_req + 1 }
    match ingress_rpc.dfanout_service with
    | none => .error .undefined
    | some dfanout_service => do
      let ingress_rpc ← fill_dfanout_queue env dfanout_service service credit_grant ingress_rpc
      let s := s.set_ingress ingress_id ingress_rpc
      if ingress_rpc.pfanout_req.toNat ≠ mapping_entry.downstreams.length then .ok s
      else do
        let (rpc, queue) ← s.ppm_queue.pop dfanout_service id
        let s ← send_sub_request config rpc { s with ppm_queue := queue }
        -- the queued credit returns go out
        let s := { s with returned := s.returned ++ ingress_rpc.credit_return_queue }
        let s := s.set_ingress ingress_id { ingress_rpc with credit_return_queue := [] }
        s.release ingress_rpc.service env.now_ts
  else do
    let (rpc, queue) ← s.ppm_queue.pop service id
    let s ← send_sub_request config rpc { s with ppm_queue := queue }
    s.release ingress_rpc.service env.now_ts

/-- `credit_post_process`: the service, the id and the number of credits of a grant. The RTT is
stored for the service. -/
def credit_post_process (s : Mesh) (env : GrantEnv) (buf : Buffer) :
    Except Abort ((Bytes × RPCID × ℕ) × Mesh) := do
  let m ← read_credit_grant buf
  s.ppm_queue.check m.service
  let rtt ← credit_rtt m env.now_us
  let last_rtt_us ← s.last_rtt_us.set m.service rtt
  -- the RTT is stored before these checks, which end the process
  if m.requested ≠ m.granted then .error .creditMismatch
  else if m.granted = 0 then .error .creditMismatch
  else .ok ((m.service, m.id, charToSize m.granted), { s with last_rtt_us := last_rtt_us })

/-- `n` credits of one grant: the loop of `protocol_client` over the granted credits. -/
def use_credits (config : MeshConfig) (env : GrantEnv) (id : RPCID) (service : Bytes)
    (credit_grant : Buffer) : ℕ → Mesh → Except Abort Mesh
  | 0, s => .ok s
  | n + 1, s => do
    let s ← s.fanout_req_management config env id service credit_grant
    use_credits config env id service credit_grant n s

/-- `protocol_client(true, …)`, for one Credit Grant: `credit_post_process` reads it, and its
credits are used. -/
def protocol_client_grant (config : MeshConfig) (env : GrantEnv) (credit_grant : Buffer)
    (s : Mesh) : Except Abort Mesh := do
  let ((service, id, num_credits), s) ← s.credit_post_process env credit_grant
  use_credits config env id service credit_grant num_credits s

/-! ## Responses come back -/

/-- `State::fanout_res_credit_management`: the response to an egress RPC is back, and its ingress
RPC counts as active from the first of them on. In a parallel fan-out the others are only
counted. -/
def fanout_res_credit_management (config : MeshConfig) (id : RPCID) (s : Mesh) :
    Except Abort Mesh := do
  let (ingress_id, ingress_rpc) ← s.get_ingress_rpc id
  let entry ← mapping_at config ingress_rpc.service
  if entry.pfanout then
    let ingress_rpc := { ingress_rpc with pfanout_res := ingress_rpc.pfanout_res + 1 }
    let s := s.set_ingress ingress_id ingress_rpc
    -- only the first branch goes on
    if ingress_rpc.pfanout_res.toNat > 1 then .ok s
    else
      let server ← s.server.acquire ingress_rpc.service
      .ok { s with server := server }
  else
    let server ← s.server.acquire ingress_rpc.service
    .ok { s with server := server }

/-- `forward` for the response of an egress RPC, a success or an error, which is then removed. -/
def forward_egress_response (config : MeshConfig) (id : RPCID) (s : Mesh) : Except Abort Mesh :=
  match s.egress_rpcs.lookup id with
  | none => .error .noUsRpc
  | some rpc => do
    let s ← s.fanout_res_credit_management config rpc.local_id
    .ok { s with egress_rpcs := s.egress_rpcs.erase id }

/-- `forward` for the response of an ingress RPC, which is then cleared and removed. -/
def forward_ingress_response (id : RPCID) (now_ts : BitVec 64) (s : Mesh) : Except Abort Mesh :=
  match s.ingress_rpcs.lookup id with
  | none => .error .noUsRpc
  | some rpc => do
    let server ← s.server.release rpc.service now_ts
    let _ ← rpc.clear
    .ok { s with server := server, ingress_rpcs := s.ingress_rpcs.erase id }

/-! ## Requests come in -/

/-- An ingress request: its id is the next one, and it is filed under it when it is sent to the
service. -/
def receive_ingress_request (config : MeshConfig) (service : Bytes) (s : Mesh) :
    Except Abort Mesh := do
  let blank := RPCMapper.blankMessage .HTTP2 .INGRESS 0
  let (rpc, counter) ←
    { blank with service := service }.add_header_field config.ids s.local_id_counter .rpc_id
  let (rpcs, check) := emplace s.ingress_rpcs rpc.local_id rpc
  if check then .ok { s with local_id_counter := counter, ingress_rpcs := rpcs }
  else .error .idExists

/-- An egress request for `service`, sent while `parent` is served: its id is made of the parent's,
which the service passes on, and the next one. -/
def receive_egress_request (config : MeshConfig) (parent : RPCID) (service : Bytes)
    (priority : Priority) (s : Mesh) : Except Abort Mesh := do
  let blank := RPCMapper.blankMessage .HTTP2 .EGRESS priority
  let (rpc, counter) ← { blank with service := service }.add_header_field config.ids
    s.local_id_counter (.rpc_local_id parent)
  .ok { s with local_id_counter := counter, rpc_queue := s.rpc_queue ++ [rpc] }

/-! ## Events -/

/-- What happens to a mesh sidecar: the requests and responses it relays on either side, the
datagrams of the credit protocol, and the run of `protocol_client` that the event loop makes. -/
inductive Event
  /-- An ingress request has been received and sent to its service. -/
  | ingress_request (service : Bytes)
  /-- The service has answered it. -/
  | ingress_response (id : RPCID) (now_ts : BitVec 64)
  /-- A service has sent an egress request. -/
  | egress_request (parent : RPCID) (service : Bytes) (priority : Priority)
  /-- `protocol_client` admits the egress requests. -/
  | credit_requests
  /-- A Credit Grant arrives. -/
  | grant (buf : Buffer) (env : GrantEnv)
  /-- The response to an egress RPC arrives. -/
  | egress_response (id : RPCID)
  /-- A Credit Request or a Credit Return arrives. -/
  | datagram (req : Buffer) (env : Server.Env)

/-- Handles an event, with the function of `State` that the event loop calls for it. -/
def handle (config : MeshConfig) : Event → Mesh → Except Abort Mesh
  | .ingress_request service, s => s.receive_ingress_request config service
  | .ingress_response id now_ts, s => s.forward_ingress_response id now_ts
  | .egress_request parent service priority, s =>
    s.receive_egress_request config parent service priority
  | .credit_requests, s => s.protocol_client_requests config
  | .grant buf env, s => s.protocol_client_grant config env buf
  | .egress_response id, s => s.forward_egress_response config id
  -- the server side works on its own part of the state
  | .datagram req env, s => do
    .ok { s with server := ← s.server.protocol_server config.server env req }

/-- A mesh sidecar at the start: its server as the constructors make it, no RPC on either side, and
an RTT of zero to every downstream service. -/
def start (config : MeshConfig) (rtt_count : LocalMap (BitVec 32)) : Except Abort Mesh := do
  let server ← Server.start config.server rtt_count
  let last_rtt_us ← LocalMap.ofKeys config.routing 0
  .ok
    { server := server
      -- it is incremented before it is used, so the first id is 2
      local_id_counter := 1
      ingress_rpcs := ∅
      egress_rpcs := ∅
      rpc_queue := []
      ppm_queue := .create config.routing
      last_rtt_us := last_rtt_us
      requests := []
      forwarded := []
      returned := []
      decrements := [] }

end Mesh

end RlpSidecar
