/-
The server side of the protocol (`state.cc`): the handlers that grant credits and count
active requests.

Each handler changes the credit queue and then calls `check_credit_transmission`, which takes at
most one buffer out of it. What a handler hands to the ring is kept in `sent`, in order, so
that "the grants sent for a service" is a count over real datagrams.

Two things come from outside. Clock readings are arguments. And `update_limits` divides two
floating-point averages; the integer it gets from that, `(int32_t)std::ceil(theo_term /
local_rt)`, is the argument `ratio`, while the sample count that decides whether the limits are
recomputed at all, and what is computed from the ratio, is as in the source.
-/
import RlpSidecar.CreditQueueRuns
import RlpSidecar.Datagram

set_option autoImplicit false

namespace RlpSidecar

/-- `MappingInfo`: what is configured for a hosted service. An absent flag counts as false. -/
structure MappingInfo where
  downstreams : List Bytes
  pfanout : Bool
  dfanout : Bool
  deriving DecidableEq, Repr

/-- What the server side reads of the configuration. The mapping has one entry a service. -/
structure ServerConfig where
  limits : LimitConfig
  mapping : List (Bytes × MappingInfo)

/-- `get_hosted_services`: the keys of the mapping, for which the queue and all tables are
built. -/
def ServerConfig.hosted (config : ServerConfig) : List Bytes := config.mapping.map Prod.fst

/-- `config.mapping.find(service)`, the entry of a hosted service with its downstream services and
its kind of fan-out. -/
def ServerConfig.find (config : ServerConfig) (service : Bytes) : Option MappingInfo :=
  config.mapping.lookup service

/-- The server-side state: `shared_state.credit_queue`, the sample counts of
`stats.ema_us_sidecar_rtt_us`, and the datagrams handed to the ring so far. -/
structure Server where
  credit_queue : CreditQueue Buffer
  rtt_count : LocalMap (BitVec 32)
  sent : List Buffer

namespace Server

/-- `State::check_credit_transmission`, at the time `now_ts`: one pop, and what it gives is stamped
with its time in the queue and sent. There is no loop, so one call sends one grant at most. -/
def check_credit_transmission (s : Server) (now_ts : BitVec 64) : Except Abort Server := do
  let (buffer, queue) ← s.credit_queue.pop
  match buffer with
  | none => .ok { s with credit_queue := queue }
  | some buffer =>
    .ok { s with credit_queue := queue, sent := s.sent ++ [stamp_queuing_time buffer now_ts] }

/-- The endpoint limit `update_limits` computes from the rounded quotient `ratio`: at least two
requests for each CPU, one more for each downstream service unless the fan-out is dynamic, and the
configured extra. -/
def newEndpointLimit (config : ServerConfig) (info : MappingInfo) (ratio : ℤ) : ℤ :=
  (max ratio 1 + 1) * config.limits.cpu_count
    + (if info.dfanout then 0 else (info.downstreams.length : ℤ)) + config.limits.extra_limit

/-- The global limit of the endpoint limits `limits`: the largest, and a share of the others. -/
def combineLimits (config : ServerConfig) (limits : List ℤ) : ℤ :=
  let sum_limits := limits.foldl (· + ·) 0
  let max_limit := limits.foldl max 0
  max_limit + config.limits.over_commit (sum_limits - max_limit)

/-- The part of `State::update_limits` that every 2000th sample of a service runs. The measured
quotient is an argument here; `LimitUpdates` computes it. -/
def recompute_limits (config : ServerConfig) (ratio : ℤ) (service : Bytes)
    (queue : CreditQueue Buffer) : Except Abort (CreditQueue Buffer) :=
  match config.find service with
  | none => .error .notInMapping
  | some info => do
    let queue ← queue.update_endpoint_limit (newEndpointLimit config info ratio) service
    -- only a leaf has a global limit of its own
    if config.limits.leaf then
      let limits ← config.hosted.mapM queue.get_per_endpoint_limit
      .ok (queue.update_global_limit (combineLimits config limits))
    else .ok queue

/-- `State::update_limits`: the sample is counted, and every 2000th one of a service gives it a new
limit. Nothing is sent for a limit that has grown. -/
def update_limits (config : ServerConfig) (ratio : ℤ) (service : Bytes) (s : Server) :
    Except Abort Server := do
  let count ← s.rtt_count.get service
  let counts ← s.rtt_count.set service (count + 1)
  let s := { s with rtt_count := counts }
  -- limits are computed at every 2000th sample of a service
  if (count + 1).toNat % 2000 = 0 then
    let queue ← recompute_limits config ratio service s.credit_queue
    .ok { s with credit_queue := queue }
  else .ok s

/-- What a handler gets from outside: the pool buffer it takes, the clock when it queues a
request and when it stamps a grant, and the measured ratio. -/
structure Env where
  fresh : Buffer
  enter_ts : BitVec 64
  now_ts : BitVec 64
  ratio : ℤ

/-- `State::protocol_server`, for one datagram: a Credit Request joins the queue as the grant it
will become, and a Credit Return takes its credit back. Either is followed by one look at the
queue. -/
def protocol_server (config : ServerConfig) (env : Env) (req : Buffer) (s : Server) :
    Except Abort Server := do
  match ← read_server_message req with
  | .credit_request service _ priority _ => do
    let s ← s.update_limits config env.ratio service
    let resp ← write_failed_dn_response req env.fresh
    -- from here on the time in the queue counts
    let resp := { resp with enter_queue_ts := env.enter_ts }
    let queue ← s.credit_queue.push resp service priority
    check_credit_transmission { s with credit_queue := queue } env.now_ts
  | .credit_return service => do
    let queue ← s.credit_queue.decrement_in_flight service
    check_credit_transmission { s with credit_queue := queue } env.now_ts

/-- `decrement_in_flight` followed by `check_credit_transmission`: what `forward` does for an
INGRESS response, and `fanout_req_management` after an egress request has been sent. -/
def release (service : Bytes) (now_ts : BitVec 64) (s : Server) : Except Abort Server := do
  let queue ← s.credit_queue.decrement_in_flight service
  check_credit_transmission { s with credit_queue := queue } now_ts

/-- `increment_in_flight`: what `fanout_res_credit_management` does to the server part. Unlike a
grant it asks for no limit. -/
def acquire (service : Bytes) (s : Server) : Except Abort Server := do
  let queue ← s.credit_queue.increment_in_flight service
  .ok { s with credit_queue := queue }

/-- The server side at the start of a process: the queue as its constructor leaves it. The sample
counts belong to the statistics and may be anything. -/
def start (config : ServerConfig) (rtt_count : LocalMap (BitVec 32)) : Except Abort Server := do
  let queue ← CreditQueue.create config.limits config.hosted
  .ok { credit_queue := queue, rtt_count := rtt_count, sent := [] }

/-! ## Events -/

/-- What makes the server side act: the datagrams, the three places of `State` that change a
counter, and the two functions that set a limit. -/
inductive Event
  /-- A datagram that `dispatch_rlp_recv` hands to `protocol_server`. -/
  | datagram (req : Buffer) (env : Env)
  /-- `forward` sends an INGRESS response of this service. -/
  | ingress_response (service : Bytes) (now_ts : BitVec 64)
  /-- `fanout_req_management` has sent the last egress request of a round. -/
  | egress_request (service : Bytes) (now_ts : BitVec 64)
  /-- `forward` sends an EGRESS response that makes a request active again. -/
  | egress_response (service : Bytes)
  /-- `update_endpoint_limit`, on its own. -/
  | endpoint_limit (limit : ℤ) (service : Bytes)
  /-- `update_global_limit`, on its own. -/
  | global_limit (limit : ℤ)

/-- Handles an event, with the function of `State` or of the queue that stands behind it. -/
def handle (config : ServerConfig) : Event → Server → Except Abort Server
  | .datagram req env, s => s.protocol_server config env req
  | .ingress_response service now_ts, s => s.release service now_ts
  | .egress_request service now_ts, s => s.release service now_ts
  | .egress_response service, s => s.acquire service
  | .endpoint_limit limit service, s => do
    .ok { s with credit_queue := ← s.credit_queue.update_endpoint_limit limit service }
  | .global_limit limit, s =>
    .ok { s with credit_queue := s.credit_queue.update_global_limit limit }

/-- An event that was handled to its end. A datagram has been dispatched to the server. -/
def Step (config : ServerConfig) (s : Server) (ev : Event) (s' : Server) : Prop :=
  (∀ req env, ev = .datagram req env → dispatch_rlp_recv req = .ok .protocol_server)
    ∧ s.handle config ev = .ok s'

/-- Handles an event and labels the step with it. A datagram first has to be one that
`dispatch_rlp_recv` gives to the server part. -/
def next (config : ServerConfig) (s : Server) (ev : Event) : Except Abort (Event × Server) :=
  match ev with
  | .datagram req _ =>
    match dispatch_rlp_recv req with
    | .ok .protocol_server => (s.handle config ev).map fun t => (ev, t)
    | .ok .credit_grant => .error .unknownMessage
    | .error e => .error e
  | _ => (s.handle config ev).map fun t => (ev, t)

/-- What is handled is a step of the relation below, so a computed run is a run. -/
theorem step_of_next {config : ServerConfig} {s t : Server} {ev l : Event}
    (h : s.next config ev = .ok (l, t)) : Step config s l t ∧ id l = ev := by
  have hmap : ∀ {x : Except Abort Server}, x.map (fun t => (ev, t)) = .ok (l, t) →
      x = .ok t ∧ l = ev := by
    intro x hx
    cases x with
    | error e => simp [Except.map] at hx
    | ok u =>
        obtain ⟨rfl, rfl⟩ := Prod.mk.inj (Except.ok.inj hx)
        exact ⟨rfl, rfl⟩
  unfold next at h
  split at h
  · split at h
    · rename_i req env hdispatch
      obtain ⟨hs, rfl⟩ := hmap h
      refine ⟨⟨fun req' env' heq => ?_, hs⟩, rfl⟩
      obtain ⟨rfl, rfl⟩ := Event.datagram.inj heq
      exact hdispatch
    · simp at h
    · simp at h
  · rename_i hne
    obtain ⟨hs, rfl⟩ := hmap h
    exact ⟨⟨fun req env heq => absurd heq (hne req env), hs⟩, rfl⟩

/-! ## A small sidecar

One leaf service with two CPUs' worth of limit, for the runs on fixed inputs. -/

/-- The service `a`, without downstreams; nothing is over-committed. The configuration of the
concrete runs in this development. -/
def oneService : ServerConfig :=
  { limits := ⟨1, 0, true, fun _ => 0⟩, mapping := [([97], ⟨[], false, false⟩)] }

/-- Pool buffers are blank, the clock stands still, and the measured ratio is `3`. -/
def plainEnv : Env := ⟨.blank, 0, 0, 3⟩

/-- A Credit Request for `service`, as its client writes it, for the concrete runs. -/
def requestFor (service : Bytes) (priority : Priority) : Buffer :=
  match write_credit_request .blank service 1 7 priority 0 0 with
  | .ok req => req
  | .error _ => .blank

end Server

end RlpSidecar
