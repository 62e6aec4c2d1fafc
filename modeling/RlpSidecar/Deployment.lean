/-
A deployment (`event_loop.cc`, `state.cc`): the workers of the ingress sidecars, the sidecar of the
frontend they send to, and what is on its way between them.

Credit Requests and Credit Grants are datagrams. They may be lost and may overtake one another, and
none arrives twice. Each worker has a socket of its own, and a Credit Grant goes to the address its
Credit Request came from. A request that a worker sends stays with the frontend until its response
is forwarded; the services of the frontend send nothing further.

A step is an event at one party, or on the way: a worker does something that needs no credit, a
Credit Request arrives at the frontend, a Credit Grant arrives at its worker, the frontend forwards
a response, or a datagram is lost. What a party sends is added to what is on its way, and what it
handles is taken out of it. The handlers are those of the modules about a worker and about the
server side.
-/
import RlpSidecar.IngressCycle
import RlpSidecar.LeafSafety

set_option autoImplicit false

open Runs

namespace RlpSidecar

/-- What is configured: the sidecars, their parser, and their addresses. -/
structure DeploymentConfig (ι : Type) where
  parser : HttpParser
  server : ServerConfig
  worker : ι → UpstreamConfig
  address : ι → SockAddr
  server_address : SockAddr

/-- The workers, the frontend, and what is between them. The address of a Credit Request is the one
it comes from, that of a Credit Grant the one it goes to. `calls` are the requests the frontend has
to answer. -/
structure Deployment (ι : Type) (n : ℕ) where
  worker : ι → IngressWorker n
  server : Server
  requests : List Buffer
  grants : List Buffer
  lost_requests : List Buffer
  lost_grants : List Buffer
  calls : List (ι × StreamKey × Bytes)

namespace Deployment

variable {ι : Type} [DecidableEq ι] {n : ℕ}

/-- A worker has handled an event. Of its Credit Requests all but the first `old` have just been
sent. -/
def worker_handled (config : DeploymentConfig ι) (i : ι) (w : IngressWorker n)
    (old : ℕ) (d : Deployment ι n) : Deployment ι n :=
  { d with
    worker := Function.update d.worker i w
    requests := d.requests ++ (w.on_fly.drop old).map fun req =>
    { req with addr := config.address i } }

/-- The frontend has handled an event, and the grants that it has sent are under way. -/
def server_handled (s : Server) (d : Deployment ι n) : Deployment ι n :=
  { d with server := s, grants := d.grants ++ s.sent.drop d.server.sent.length }

/-- What happens in a deployment, at a worker, at the frontend or on the way. -/
inductive Event (ι : Type)
  /-- A worker does something that needs no credit. -/
  | work (i : ι) (ev : IngressWorker.Event)
  /-- A Credit Request arrives. -/
  | request (req : Buffer)
  /-- A Credit Grant arrives, and the worker sends a request. -/
  | grant (i : ι) (buf : Buffer) (sent : StreamKey × Bytes)
  /-- The frontend forwards the response to a request. -/
  | answer (i : ι) (call : StreamKey × Bytes)
  /-- A datagram is lost. -/
  | lose (buf : Buffer)

/-- A step of a deployment. Datagrams under way may be overtaken by others and may be lost, but are
not doubled. -/
inductive Step (config : DeploymentConfig ι) : Deployment ι n → Event ι → Deployment ι n → Prop
  | work {d : Deployment ι n} {i : ι} {ev : IngressWorker.Event} {w : IngressWorker n}
      (hother : ∀ req buf sent, ev ≠ .grant req buf sent)
      (hstep : IngressWorker.Step config.parser (config.worker i) (d.worker i) ev w) :
      Step config d (.work i ev) (d.worker_handled config i w (d.worker i).on_fly.length)
  | request {d : Deployment ι n} {before after : List Buffer} {req rx : Buffer}
      {env : Server.Env} {s : Server}
      (hreq : d.requests = before ++ req :: after)
      (hstep : Server.Step config.server d.server (.datagram (rx.receive req req.addr) env) s) :
      Step config d (.request req) ({ d with requests := before ++ after }.server_handled s)
  | grant {d : Deployment ι n} {i : ι} {before after : List Buffer} {req buf rx : Buffer}
      {sent : StreamKey × Bytes}
      {w : IngressWorker n} (hbuf : d.grants = before ++ buf :: after)
        (haddr : buf.addr = config.address i)
      (hstep : IngressWorker.Step config.parser (config.worker i) (d.worker i)
        (.grant req (rx.receive buf config.server_address) sent) w) :
      Step config d (.grant i buf sent)
        ({ d with grants := before ++ after, calls := d.calls ++ [(i, sent)] }.worker_handled
          config i w
          ((d.worker i).on_fly.length - 1))
  | answer {d : Deployment ι n} {i : ι} {before after : List (ι × StreamKey × Bytes)}
      {call : StreamKey × Bytes}
      {now_ts : BitVec 64} {s : Server} (hcall : d.calls = before ++ (i, call) :: after)
      (hstep : Server.Step config.server d.server
        (.ingress_response (config.worker i).ingress_service now_ts) s) :
      Step config d (.answer i call) ({ d with calls := before ++ after }.server_handled s)
  | lose_request {d : Deployment ι n} {before after : List Buffer} {req : Buffer}
      (hreq : d.requests = before ++ req :: after) :
      Step config d (.lose req)
        { d with requests := before ++ after, lost_requests := req :: d.lost_requests }
  | lose_grant {d : Deployment ι n} {before after : List Buffer} {buf : Buffer}
      (hbuf : d.grants = before ++ buf :: after) :
      Step config d (.lose buf)
        { d with grants := before ++ after, lost_grants := buf :: d.lost_grants }

/-- A run of a deployment, as the list of its steps with the states around them. -/
abbrev Run (ι : Type) (n : ℕ) := List (Transition (Deployment ι n) (Event ι))

/-- A deployment at its start, with nothing under way. Each socket has its own address. -/
structure Start (config : DeploymentConfig ι) (grpc_n http_n : ℕ)
    (d : Deployment ι (http_n + grpc_n)) : Prop where
  worker : ∀ i, IngressWorker.Start (config.worker i) grpc_n http_n (d.worker i)
  edge : ∀ i, (config.worker i).ids.is_ingress = true ∧ (config.worker i).is_frontend = false
  address : Function.Injective config.address
  hosted : config.server.mapping ≠ []
  server : ∃ counts, Server.start config.server counts = .ok d.server
  requests : d.requests = [] ∧ d.lost_requests = []
  grants : d.grants = [] ∧ d.lost_grants = []
  calls : d.calls = []

end Deployment

end RlpSidecar
