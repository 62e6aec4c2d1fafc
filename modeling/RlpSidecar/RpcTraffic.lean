/-
How requests and responses move through the registry: the callbacks of a connection, the
forwarding code of `state.cc`, and the drops of `ingress.cc`.

`handle` is what the code does. Beside it stands what the code is for: a `Ledger` says which
downstream streams have a request open and on which upstream stream it was sent, without any
object, pool or map. A step of the ledger is also what a connection promises: headers come before
the end of a request, a request is forwarded or dropped once and after it is complete, an upstream
stream gets one response, and the streams opened on real descriptors are all different. Real
descriptors are positive; those of drops are not.

`Step.wf` is what the promises come to: upstream streams are not shared. It is all that the
coherence of the registry with the ledger needs of the connections.
-/
import RlpSidecar.RpcMapper
import RlpSidecar.Runs

set_option autoImplicit false

namespace RlpSidecar

/-- What the code of this module reads of the configuration: the flags, the index of the thread,
and the service of an ingress worker. -/
structure TrafficConfig where
  ids : IdConfig
  index : ℕ
  ingress_service : Bytes

/-- `drop_fd`: the descriptor under which an ingress worker files the requests it drops. -/
def TrafficConfig.drop_fd (config : TrafficConfig) : ℤ := -(config.index : ℤ)

/-- The registry, the counter of the local ids, and the counter of the drops (an `int32_t`, taken
to wrap around). `answers` is the record of the responses handed to a downstream stream, each
with the upstream stream it came from. -/
structure Traffic (n : ℕ) where
  rpc_mapper : RPCMapper n
  local_id_counter : RPCID
  drop_id : BitVec 32
  answers : List (StreamKey × ℤ × ℤ)

namespace Traffic

variable {n : ℕ}

/-- What happens to a sidecar, as far as its registry of requests is concerned. -/
inductive Event
  /-- The headers of a request begin on a downstream stream. -/
  | begin_headers (k : StreamKey) (http : HTTP)
  /-- A header of that request. -/
  | header (k : StreamKey) (h : Header)
  /-- The request is complete. -/
  | end_stream (k : StreamKey)
  /-- `route_request` and `forward_request` send the request on a stream of a connection. -/
  | forward_request (k : StreamKey) (us_fd us_stream_id : ℤ)
  /-- `Ingress::drop_rpc`. -/
  | drop_rpc (ds_fd ds_stream_id : ℤ)
  /-- `forward` handles a response, or a drop, queued for an upstream stream. A response without
  data is marked as an error when it arrives. -/
  | forward_response (type : ConnectionType) (us_fd us_stream_id : ℤ) (failed : Bool) (held : ℕ)
  /-- The HTTP/2 session has written the last of a response. -/
  | data_sent (k : StreamKey) (held : ℕ)

/-- A request header, which may set an id or the priority of the message. -/
def add_header (config : TrafficConfig) (k : StreamKey) (h : Header) (s : Traffic n) :
    Except Abort (Traffic n) := do
  let rpc ← s.rpc_mapper.get_ds_rpc k.1 k.2.2 k.2.1
  let (msg, counter) ←
    (s.rpc_mapper.heap rpc).add_header_field config.ids s.local_id_counter h
  .ok { s with rpc_mapper := s.rpc_mapper.modify rpc fun _ => msg, local_id_counter := counter }

/-- `route_request` followed by `forward_request`, on the stream `us_stream_id` that
`submit_request` opens on the connection `us_fd`. -/
def forward_request (config : TrafficConfig) (k : StreamKey) (us_fd us_stream_id : ℤ)
    (s : Traffic n) : Except Abort (Traffic n) := do
  let rpc ← s.rpc_mapper.get_ds_rpc k.1 k.2.2 k.2.1
  let m := s.rpc_mapper.modify rpc fun msg => { msg with us_fd := us_fd }
  let m := m.modify rpc fun msg => { msg with us_stream_id := us_stream_id }
  let msg := m.heap rpc
  -- `set_us_fd` and `set_us_stream_id` come before the checks
  if msg.local_id = -1 ∧ config.ids.is_plain_frontend = false then .error .requestHasNoId
  else if msg.priority = -1 ∧ config.ids.is_plain_frontend = false then
    .error .requestHasNoPriority
  else
    let m ← m.route k.1 msg.ds_stream_id msg.ds_fd msg.us_stream_id us_fd
    .ok { s with rpc_mapper := m }

/-- `drop_rpc`: the request is answered with an error, by way of an upstream stream that does
not exist. -/
def drop_rpc (config : TrafficConfig) (ds_fd ds_stream_id : ℤ) (s : Traffic n) :
    Except Abort (Traffic n) := do
  let rpc ← s.rpc_mapper.get_ds_rpc .EGRESS ds_stream_id ds_fd
  if (s.rpc_mapper.heap rpc).http ≠ .HTTP1 then .error .nullPointer
  else if (s.rpc_mapper.heap rpc).service ≠ config.ingress_service then .error .serviceMismatch
  else
    let drop_id := s.drop_id + 1
    let m := s.rpc_mapper.modify rpc fun msg =>
      { msg with
        error := true
        -- an id that no request of the mesh has
        local_id := (-(drop_id + 1)).signExtend 64
        us_fd := config.drop_fd
        us_stream_id := drop_id.toInt }
    let msg := m.heap rpc
    let m ← m.route .EGRESS msg.ds_stream_id msg.ds_fd msg.us_stream_id config.drop_fd
    .ok { s with rpc_mapper := m, drop_id := drop_id }

/-- `forward` for one response. An HTTP/1 response and an error are written at once and the
object is removed; an HTTP/2 response goes to the session, which writes it when it can. -/
def forward_response (type : ConnectionType) (us_fd us_stream_id : ℤ) (failed : Bool) (held : ℕ)
    (s : Traffic n) : Except Abort (Traffic n) := do
  let rpc ← s.rpc_mapper.get_us_rpc type us_stream_id us_fd
  let m := s.rpc_mapper.modify rpc fun msg => { msg with error := msg.error || failed }
  let msg := m.heap rpc
  let s :=
    { s with
      rpc_mapper := m
      answers := s.answers ++ [((type, msg.ds_fd, msg.ds_stream_id), us_fd, us_stream_id)] }
  -- HTTP/2 sends its response later, and removes the request with the last byte
  if msg.error ∨ msg.http = .HTTP1 then
    let m ← m.remove_rpc type rpc held
    .ok { s with rpc_mapper := m }
  else .ok s

/-- The end of `data_read_callback_response`: with the last byte of the response its request is
removed. -/
def data_sent (k : StreamKey) (held : ℕ) (s : Traffic n) : Except Abort (Traffic n) := do
  let rpc ← s.rpc_mapper.get_ds_rpc k.1 k.2.2 k.2.1
  if (s.rpc_mapper.heap rpc).http ≠ .HTTP2 then .error .nullPointer
  else
    let m ← s.rpc_mapper.remove_rpc k.1 rpc held
    .ok { s with rpc_mapper := m }

/-- Handles an event, by the function that the source calls for it. -/
def handle (config : TrafficConfig) : Event → Traffic n → Except Abort (Traffic n)
  | .begin_headers k http, s => do
    .ok { s with rpc_mapper := ← s.rpc_mapper.allocate_rpc k.1 k.2.2 k.2.1 http }
  | .header k h, s => s.add_header config k h
  | .end_stream k, s => do
    -- the lookup is all that matters here of the end of a stream
    let _ ← s.rpc_mapper.get_ds_rpc k.1 k.2.2 k.2.1
    .ok s
  | .forward_request k us_fd us_stream_id, s => s.forward_request config k us_fd us_stream_id
  | .drop_rpc ds_fd ds_stream_id, s => s.drop_rpc config ds_fd ds_stream_id
  | .forward_response type us_fd us_stream_id failed held, s =>
    s.forward_response type us_fd us_stream_id failed held
  | .data_sent k held, s => s.data_sent k held

/-- The state at the start of a process: all objects in the pool, and the counter for local ids at
one. -/
def start (grpc_n http_n : ℕ) (type : Fin (http_n + grpc_n) → ConnectionType)
    (priority : Fin (http_n + grpc_n) → Priority) : Traffic (http_n + grpc_n) :=
  { rpc_mapper := .create grpc_n http_n type priority
    local_id_counter := 1
    drop_id := 0
    answers := [] }

end Traffic

/-! ## The ledger -/

/-- How far a request has come. `us` is the upstream stream it was sent on. -/
inductive Phase
  | receiving
  | ready
  | forwarded (us : ℤ × ℤ)
  | answered (us : ℤ × ℤ)

/-- A request that is open on a downstream stream, and how far it has come. -/
structure OpenRequest where
  http : HTTP
  phase : Phase

/-- The upstream stream a request was sent on, once it was sent. -/
def OpenRequest.upstream? (r : OpenRequest) : Option (ℤ × ℤ) :=
  match r.phase with
  | .receiving | .ready => none
  | .forwarded us | .answered us => some us

/-- The requests that are open, every upstream stream that was ever opened for one, and the number
of drops. -/
structure Ledger where
  request : StreamKey → Option OpenRequest
  routes : List (StreamKey × ℤ × ℤ)
  drops : ℕ

namespace Ledger

/-- The ledger of a process at its start. -/
def empty : Ledger := ⟨fun _ => none, [], 0⟩

/-- The upstream stream on which the request of a downstream stream was sent. -/
def upstream (L : Ledger) (k : StreamKey) : Option (ℤ × ℤ) :=
  (L.request k).bind OpenRequest.upstream?

/-- The entry of a downstream stream, set or removed. -/
def set (L : Ledger) (k : StreamKey) (r : Option OpenRequest) : Ledger :=
  { L with request := Function.update L.request k r }

/-- The upstream stream of a route, with the type of its connection. -/
def upstreamKey (x : StreamKey × ℤ × ℤ) : StreamKey := (x.1.1, x.2)

/-- The upstream stream under which a drop is filed: a descriptor that no connection has, and a
number of its own. -/
def dropStream (config : TrafficConfig) (drops : ℕ) : ℤ × ℤ :=
  (config.drop_fd, (BitVec.ofNat 32 drops).toInt)

/-- What can happen to the open requests, and what a connection promises about it. -/
inductive Step (config : TrafficConfig) (L : Ledger) : Traffic.Event → Ledger → Prop
  | begin_headers (k : StreamKey) (http : HTTP) :
      Step config L (.begin_headers k http) (L.set k (some ⟨http, .receiving⟩))
  | header (k : StreamKey) (h : Header) (http : HTTP)
      (hk : L.request k = some ⟨http, .receiving⟩) : Step config L (.header k h) L
  | end_stream (k : StreamKey) (http : HTTP) (hk : L.request k = some ⟨http, .receiving⟩) :
      Step config L (.end_stream k) (L.set k (some ⟨http, .ready⟩))
  | forward_request (k : StreamKey) (us : ℤ × ℤ) (http : HTTP)
      (hk : L.request k = some ⟨http, .ready⟩) (hfd : 0 < us.1)
      (hnew : (k.1, us) ∉ L.routes.map upstreamKey) :
      Step config L (.forward_request k us.1 us.2)
        { L.set k (some ⟨http, .forwarded us⟩) with routes := (k, us) :: L.routes }
  /-- Fewer than `2 ^ 32 - 2` local ids are handed out, and each drop takes one. -/
  | drop_rpc (ds : ℤ × ℤ) (http : HTTP) (hk : L.request (.EGRESS, ds) = some ⟨http, .receiving⟩)
      (hids : L.drops + 1 < 2 ^ 32 - 2) :
      Step config L (.drop_rpc ds.1 ds.2)
        { L.set (.EGRESS, ds) (some ⟨http, .forwarded (dropStream config (L.drops + 1))⟩) with
          routes := ((.EGRESS, ds), dropStream config (L.drops + 1)) :: L.routes
          drops := L.drops + 1 }
  | forward_response (k : StreamKey) (us : ℤ × ℤ) (http : HTTP) (failed : Bool) (held : ℕ)
      (hk : L.request k = some ⟨http, .forwarded us⟩) :
      Step config L (.forward_response k.1 us.1 us.2 failed held)
        (L.set k (if http = .HTTP1 ∨ failed then none else some ⟨http, .answered us⟩))
  | data_sent (k : StreamKey) (us : ℤ × ℤ) (http : HTTP) (held : ℕ)
      (hk : L.request k = some ⟨http, .answered us⟩) :
      Step config L (.data_sent k held) (L.set k none)

/-! ## Upstream streams are not shared -/

/-- The routes are over different upstream streams, which belong to a real descriptor or were made
up for a drop, and every request that was sent on one is among them. -/
structure Wf (config : TrafficConfig) (L : Ledger) : Prop where
  routed : ∀ k us, L.upstream k = some us → (k, us) ∈ L.routes
  origin : ∀ x ∈ L.routes, 0 < x.2.1
    ∨ ∃ j, j ≤ L.drops ∧ x.2 = dropStream config j
  drops : L.drops < 2 ^ 32
  distinct : (L.routes.map upstreamKey).Nodup

variable {config : TrafficConfig} {L L' : Ledger}

theorem upstream_set (L : Ledger) (k k' : StreamKey) (r : Option OpenRequest) :
    (L.set k r).upstream k' = if k' = k then r.bind OpenRequest.upstream?
      else L.upstream k' := by
  unfold upstream set
  by_cases hk : k' = k
  · subst hk; simp only [Function.update_self, if_true]
  · simp only [Function.update_of_ne hk, if_neg hk]

/-- Once the entry of a stream is removed, the open requests are the others. -/
theorem request_set_none {k k' : StreamKey} {r : OpenRequest} :
    (L.set k none).request k' = some r ↔ k' ≠ k ∧ L.request k' = some r := by
  unfold set
  by_cases hk : k' = k
  · subst hk; simp only [Function.update_self, ne_eq, not_true_eq_false, false_and, reduceCtorEq]
  · simp only [Function.update_of_ne hk, ne_eq, hk, not_false_eq_true, true_and]

theorem wf_empty (config : TrafficConfig) : empty.Wf config where
  routed _ _ h := by simp [upstream, empty] at h
  origin _ hx := by simp [empty] at hx
  drops := Nat.two_pow_pos 32
  distinct := List.nodup_nil

/-- The streams made up for drops are all different, as long as their numbers have not wrapped
around. -/
theorem dropStream_inj {config : TrafficConfig} {i j : ℕ} (hi : i < 2 ^ 32) (hj : j < 2 ^ 32)
    (h : dropStream config i = dropStream config j) : i = j := by
  have hstream := BitVec.eq_of_toInt_eq (Prod.mk.inj h).2
  have hnat := congrArg BitVec.toNat hstream
  rwa [BitVec.toNat_ofNat, BitVec.toNat_ofNat, Nat.mod_eq_of_lt hi, Nat.mod_eq_of_lt hj] at hnat

/-- The stream of the next drop is not in use, as long as the counter has room. -/
theorem Wf.dropStream_new (h : L.Wf config) (hids : L.drops + 1 < 2 ^ 32) :
    (ConnectionType.EGRESS, dropStream config (L.drops + 1)) ∉ L.routes.map upstreamKey := by
  intro hmem
  obtain ⟨x, hx, hkey⟩ := List.mem_map.mp hmem
  have hus : x.2 = dropStream config (L.drops + 1) := (Prod.mk.inj hkey).2
  rcases h.origin x hx with hfd | ⟨j, hj, hx2⟩
  · -- a real descriptor is positive, that of the drops is not
    have h0 : x.2.1 = -(config.index : ℤ) := by rw [hus]; rfl
    omega
  · have hne := dropStream_inj (by have := h.drops; omega) hids (hx2.symm.trans hus)
    omega

/-- A request that joins the routes over a new upstream stream, that of a connection or one of a
drop. -/
theorem Wf.route (h : L.Wf config) {k : StreamKey} {us : ℤ × ℤ} {http : HTTP} {drops : ℕ}
    (hnew : (k.1, us) ∉ L.routes.map upstreamKey) (hle : L.drops ≤ drops) (hlt : drops < 2 ^ 32)
    (hus : 0 < us.1 ∨ us = dropStream config drops) :
    Wf config ⟨(L.set k (some ⟨http, .forwarded us⟩)).request, (k, us) :: L.routes, drops⟩ where
  routed k' us' h' := by
    have hup := (upstream_set L k k' (some ⟨http, .forwarded us⟩)).symm.trans h'
    split_ifs at hup with hk
    · obtain rfl : us = us' := Option.some.inj hup
      rw [hk]; exact List.mem_cons_self
    · exact List.mem_cons_of_mem _ (h.routed k' us' hup)
  origin x hx := by
    rcases List.mem_cons.mp hx with rfl | hx
    · exact hus.imp id fun heq => ⟨drops, le_rfl, heq⟩
    · refine (h.origin x hx).imp id ?_
      rintro ⟨j, hj, hx2⟩
      exact ⟨j, hj.trans hle, hx2⟩
  drops := hlt
  distinct := List.nodup_cons.mpr ⟨hnew, h.distinct⟩

/-- A change of an entry that names no new upstream stream keeps the streams apart. -/
theorem Wf.set (h : L.Wf config) {k : StreamKey} {r : Option OpenRequest}
    (hr : ∀ us, (r.bind OpenRequest.upstream?) = some us → L.upstream k = some us) :
    (L.set k r).Wf config where
  routed k' us hus := by
    rw [upstream_set] at hus
    split_ifs at hus with hk
    · rw [hk]; exact h.routed k us (hr us hus)
    · exact h.routed k' us hus
  origin := h.origin
  drops := h.drops
  distinct := h.distinct

/-- **Steps keep upstream streams apart**: no two open requests of a type have the same. -/
theorem Step.wf {ev : Traffic.Event} (hs : Step config L ev L') (h : L.Wf config) :
    L'.Wf config := by
  cases hs with
  | begin_headers k http => exact h.set fun us hus => by simp [OpenRequest.upstream?] at hus
  | header => exact h
  | end_stream k http hk => exact h.set fun us hus => by simp [OpenRequest.upstream?] at hus
  | forward_request k us http hk hfd hnew => exact h.route hnew le_rfl h.drops (.inl hfd)
  | drop_rpc ds http hk hids =>
      exact h.route (h.dropStream_new (by omega)) (Nat.le_succ _) (by omega) (.inr rfl)
  | forward_response k us http failed held hk =>
      refine h.set fun us' hus => ?_
      split_ifs at hus
      · simp at hus
      · unfold upstream; rw [hk]; exact hus
  | data_sent k us http held hk => exact h.set fun us hus => by simp at hus

end Ledger

end RlpSidecar
