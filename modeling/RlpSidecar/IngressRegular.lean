/-
**What the handlers of an ingress worker rely on** (`event_loop.cc`, `state.cc`, `ingress.cc`)
without looking: facts that no part of the code checks, since other parts have made them so.

A client has one open request at a time, and its connection is busy with that. No connection is
left with something to write. Nothing on an edge keeps a Credit Return. A request that was dropped
is marked as an error and has the status 503, and one that waits has the service of the worker, an
id and the priority of the configuration.

`Regular` has these facts, and `Regular.step` is that every step keeps them, with one lemma for each
part of a handler before it. They need the first invariant, which says whose objects are where.
-/
import RlpSidecar.IngressCycle
import RlpSidecar.Priorities

set_option autoImplicit false

open Runs Tables

namespace RlpSidecar

variable {n : ℕ}

/-! ## The object of a request -/

/-- A local id without a parent has nothing in its upper half. -/
theorem get_new_local_id_ne (counter : RPCID) : (get_new_local_id counter 0).1 ≠ -1 := by
  intro h
  have hnat := congrArg BitVec.toNat h
  rw [get_new_local_id_toNat] at hnat
  have hzero : (0 : RPCID).toNat = 0 := rfl
  have hall : (-1 : RPCID).toNat = 2 ^ 64 - 1 := rfl
  rw [hzero, hall] at hnat
  omega

/-- The header `rpc-id` gives a request of the edge its local id. -/
theorem HTTPMessage.add_rpc_id {config : IdConfig} {counter counter' : RPCID} {name value : Bytes}
    {m m' : HTTPMessage} (hedge : config.is_ingress = true) (hname : RPC_ID <+: name)
    (hadd : m.add_header_field config counter name value true false = .ok (m', counter')) :
    m'.ids.rpc.local_id ≠ -1 := by
  rw [add_request_header] at hadd
  obtain ⟨⟨ids, counter₁, dropped⟩, hread, hadd⟩ := bind_eq_ok.mp hadd
  have hids : m'.ids = ids := by
    dsimp only at hadd
    split_ifs at hadd
    · obtain ⟨rfl, -⟩ := Prod.mk.inj (Except.ok.inj hadd)
      rfl
    · obtain ⟨headers, -, hadd⟩ := bind_eq_ok.mp hadd
      obtain ⟨rfl, -⟩ := Prod.mk.inj (Except.ok.inj hadd)
      rfl
  unfold read_request_header RPCMessage.add_header_field at hread
  rw [if_pos hname] at hread
  obtain ⟨id, -, hread⟩ := bind_eq_ok.mp hread
  dsimp only at hread
  rw [if_pos (.inl hedge)] at hread
  obtain rfl := congrArg Prod.fst (Except.ok.inj hread)
  rw [hids]
  exact get_new_local_id_ne counter

/-- The header `priority` leaves the local id alone. -/
theorem HTTPMessage.add_priority_local_id {config : IdConfig} {counter counter' : RPCID}
    {name value : Bytes} {m m' : HTTPMessage} (hname : PRIORITY <+: name)
    (hadd : m.add_header_field config counter name value true false = .ok (m', counter')) :
    m'.ids.rpc.local_id = m.ids.rpc.local_id := by
  rw [add_request_header, read_priority _ _ _ _ hname] at hadd
  obtain ⟨x, hread, hadd⟩ := bind_eq_ok.mp hadd
  obtain ⟨z, -, hread⟩ := bind_eq_ok.mp hread
  obtain rfl := Except.ok.inj hread
  dsimp only at hadd
  rw [if_neg Bool.false_ne_true] at hadd
  obtain ⟨headers, -, hadd⟩ := bind_eq_ok.mp hadd
  obtain ⟨rfl, -⟩ := Prod.mk.inj (Except.ok.inj hadd)
  rfl

namespace HttpWorker

/-- What the object of a request has that waits for a credit: the service of the worker, an id, and
the priority of the configuration. -/
def Waiting (w : HttpWorker n) (rpc : Fin n) : Prop :=
  (w.rpc_mapper.heap rpc).service = w.ingress.ingress_service
    ∧ (w.rpc_mapper.heap rpc).local_id ≠ -1 ∧ (w.rpc_mapper.heap rpc).priority = w.ingress.priority

/-- Admitting a request, or dropping it: the object keeps its Credit Returns, and in the queue it
has all that it needs. -/
theorem ingress_enqueue_object {config : IdConfig} {w w' : HttpWorker n} {rpc : Fin n}
    (hedge : config.is_ingress = true) (h : w.ingress_enqueue config rpc = .ok w') :
    (w'.rpc_mapper.heap rpc).credit_return_queue = (w.rpc_mapper.heap rpc).credit_return_queue
      ∧ w'.ingress.priority = w.ingress.priority
      ∧ w'.ingress.ingress_service = w.ingress.ingress_service
      ∧ (w.Queued rpc w' → w'.Waiting rpc) := by
  unfold ingress_enqueue at h
  split_ifs at h with hservice hfull
  · -- it is dropped
    refine ⟨?_, ?_, ?_, fun hqueued => absurd hfull (Nat.not_le_of_lt hqueued.room)⟩
    all_goals
      unfold drop_rpc at h
      obtain ⟨_, _, h⟩ := bind_eq_ok.mp h
      split_ifs at h
      dsimp only at h
      obtain ⟨m', hroute, h⟩ := bind_eq_ok.mp h
      obtain ⟨_, _, _, _, hheap, _⟩ := RPCMapper.route_frame hroute
      obtain rfl := Except.ok.inj h
    · show (m'.heap rpc).credit_return_queue = _
      rw [hheap, RPCMapper.modify_heap, if_pos rfl]
    · rfl
    · rfl
  · rw [not_not] at hservice
    obtain ⟨⟨m₁, counter₁, ingress⟩, hfirst, h⟩ := bind_eq_ok.mp h
    obtain ⟨⟨m₂, counter₂⟩, hsecond, h⟩ := bind_eq_ok.mp h
    obtain rfl := Except.ok.inj h
    unfold Ingress.add_rpc_id_header at hfirst
    obtain ⟨⟨m₃, counter₃⟩, hid, hfirst⟩ := bind_eq_ok.mp hfirst
    obtain ⟨rfl, hrest⟩ := Prod.mk.inj (Except.ok.inj hfirst)
    obtain ⟨rfl, rfl⟩ := Prod.mk.inj hrest
    unfold Ingress.add_priority_header at hsecond
    have hlocal := (HTTPMessage.add_priority_local_id (List.prefix_append _ _) hsecond).trans_ne
      (HTTPMessage.add_rpc_id hedge (List.prefix_append _ _) hid)
    have hlow := BitVec.le_toInt w.ingress.priority
    have hhigh := BitVec.toInt_lt (x := w.ingress.priority)
    have hvalue := Ingress.stoll_header_value (z := w.ingress.priority.toInt) (by omega) (by omega)
    have hpriority := HTTPMessage.add_priority (List.prefix_append _ _) hvalue hsecond
    rw [Message.add_http_header_eq] at hid
    obtain ⟨⟨ids₁, headers₁, c₁⟩, hstore₁, hid⟩ := bind_eq_ok.mp hid
    obtain ⟨rfl, rfl⟩ := Prod.mk.inj (Except.ok.inj hid)
    rw [Message.add_http_header_eq] at hsecond
    obtain ⟨⟨ids₂, headers₂, c₂⟩, hstore₂, hsecond⟩ := bind_eq_ok.mp hsecond
    obtain ⟨rfl, rfl⟩ := Prod.mk.inj (Except.ok.inj hsecond)
    have hstream := (store_stream hstore₁).1.trans (store_stream hstore₂).1
    have hheap : ((w.set_message rpc
        { { w.message rpc with ids := ids₁, req_headers := headers₁ } with
          ids := ids₂, req_headers := headers₂ }).rpc_mapper.heap rpc) = ids₂.rpc := by
      unfold HttpCalls.set_message
      dsimp only
      rw [RPCMapper.modify_heap, if_pos rfl]
    refine ⟨?_, rfl, rfl, fun _ => ⟨?_, ?_, ?_⟩⟩
    · exact (congrArg RPCMessage.credit_return_queue hheap).trans hstream.returns
    · exact (congrArg RPCMessage.service hheap).trans (hstream.service.trans hservice)
    · exact (congrArg RPCMessage.local_id hheap).trans_ne hlocal
    · refine (congrArg RPCMessage.priority hheap).trans (hpriority.trans ?_)
      exact BitVec.ofInt_toInt

end HttpWorker

namespace HTTP1Connection

/-- Only a connection without a request under way takes another one. -/
theorem accept_request_idle {config : HttpConfig} {c c' : HTTP1Connection n}
    {w w' : HttpWorker n} {r : PicoHttp.Request}
    (h : c.accept_request config w r = .ok (c', w')) : c.idle = true := by
  rw [accept_request_eq] at h
  obtain ⟨⟨rpc, c₁, w₁⟩, hmake, h⟩ := bind_eq_ok.mp h
  obtain ⟨rfl, -⟩ := make_rpc_spec hmake
  by_contra hbusy
  unfold give_rpc at h
  dsimp only at h
  split_ifs at h
  all_goals
    obtain ⟨_, -, h⟩ := bind_eq_ok.mp h
    cases h

/-- **The object of a new request** keeps its Credit Returns, and in the queue it has what it
needs. -/
theorem accept_request_object {config : HttpConfig} {c c' : HTTP1Connection n}
    {w w' : HttpWorker n} {r : PicoHttp.Request} {rpc : Fin n}
    (hedge : config.ids.is_ingress = true) (hrole : config.is_frontend = false)
    (htype : c.type = .EGRESS) (hpool : w.rpc_mapper.http_pool = rpc :: w'.rpc_mapper.http_pool)
    (h : c.accept_request config w r = .ok (c', w')) :
    (w'.rpc_mapper.heap rpc).credit_return_queue = (w.rpc_mapper.heap rpc).credit_return_queue
      ∧ w'.ingress.priority = w.ingress.priority
      ∧ w'.ingress.ingress_service = w.ingress.ingress_service
      ∧ (w.Queued rpc w' → w'.Waiting rpc) := by
  rw [accept_request_eq] at h
  obtain ⟨⟨rpc', c₁, w₁⟩, hmake, h⟩ := bind_eq_ok.mp h
  obtain ⟨rfl, -, -, -, -, -, hallocated⟩ := make_rpc_spec hmake
  rw [give_rpc_edge hedge hrole (by exact htype)] at h
  obtain ⟨w₂, henqueue, h⟩ := bind_eq_ok.mp h
  split_ifs at h
  obtain ⟨-, rfl⟩ := Prod.mk.inj (Except.ok.inj h)
  -- the object is the first of the pool
  obtain rfl : rpc' = rpc := (List.cons.inj (hallocated.pool.symm.trans hpool)).1
  obtain ⟨hreturns, hpriority, hservice, hwaiting⟩ :=
    HttpWorker.ingress_enqueue_object hedge henqueue
  rw [hallocated.ingress] at hpriority hservice
  refine ⟨hreturns.trans hallocated.returns, hpriority, hservice, fun hqueued => hwaiting ?_⟩
  obtain ⟨hroom, hqueue, hlast, hqueues⟩ := hqueued
  refine ⟨?_, ?_, ?_, ?_⟩
  · rw [hallocated.ingress]; exact hroom
  · rw [hallocated.ingress]; exact hqueue
  · rw [hallocated.ingress]; exact hlast
  · rw [hallocated.rpc_queue]; exact hqueues

end HTTP1Connection

namespace IngressWorker

/-- **The third invariant**, which holds between any two parts of a handler: what the handlers rely
on without looking. -/
structure Regular (config : UpstreamConfig) (w : IngressWorker n) : Prop where
  /-- The connection of a client is busy with its request, which is the only one. -/
  busy : ∀ k a, w.rpc_mapper.find_ds k = some a →
    ∃ c, w.clients.lookup k.2.1 = some c ∧ c.idle = false ∧ c.last_id = k.2.2
  /-- No connection has something to write. -/
  clients : ∀ fd c, w.clients.lookup fd = some c → c.rpc_message = none
  frontends : ∀ fd c, w.connections fd = some c → c.rpc_message = none
  waiting : ∀ a ∈ w.ingress.queue, w.Waiting a
  /-- A request that was dropped is an error with the status 503. -/
  dropped : ∀ k a, w.rpc_mapper.find_ds k = some a → a ∉ w.ingress.queue →
    (w.rpc_mapper.heap a).us_fd = config.drop_fd → (w.message a).is_drop = true
  returns : ∀ a, (w.rpc_mapper.heap a).credit_return_queue = []
  priority : w.ingress.priority ≠ -1

section Regular

variable {config : UpstreamConfig} {parser : HttpParser} {w w' : IngressWorker n} {L L' : Ledger}
    {fd : ℤ}

namespace Regular

/-- Neither the RTT nor what is on the fly is among these facts. -/
theorem credits (h : Regular config w) (on_fly : List Buffer) (last_rtt_us : BitVec 32) :
    Regular config { w with on_fly := on_fly, last_rtt_us := last_rtt_us } :=
  ⟨h.busy, h.clients, h.frontends, h.waiting, h.dropped, h.returns, h.priority⟩

/-- The connection of a client changes, but for what it says about its requests. -/
theorem set_client (h : Regular config w) {c c' : HTTP1Connection n}
    (hc : w.clients.lookup fd = some c)
    (hsame : (c'.idle, c'.last_id, c'.rpc_message) = (c.idle, c.last_id, c.rpc_message)) :
    Regular config (w.set_client fd c') := by
  obtain ⟨hidle, hrest⟩ := Prod.mk.inj hsame
  obtain ⟨hlast, hmessage⟩ := Prod.mk.inj hrest
  refine { h with busy := ?_, clients := ?_ }
  · intro k a hk
    obtain ⟨c₁, hc₁, hbusy, hid⟩ := h.busy k a hk
    by_cases hfd : k.2.1 = fd
    · rw [hfd, hc] at hc₁
      obtain rfl := Option.some.inj hc₁
      exact ⟨c', by rw [hfd]; exact AList.lookup_insert _, hidle.trans hbusy, hlast.trans hid⟩
    · exact ⟨c₁, (AList.lookup_insert_ne hfd).trans hc₁, hbusy, hid⟩
  · intro fd' c₁ hc₁
    by_cases hfd : fd' = fd
    · rw [hfd] at hc₁
      obtain rfl := Option.some.inj ((AList.lookup_insert _).symm.trans hc₁)
      exact hmessage.trans (h.clients fd c hc)
    · exact h.clients fd' c₁ ((AList.lookup_insert_ne hfd).symm.trans hc₁)

/-- A client that connects has no request yet, and the clients that are there stay. -/
theorem handle_accept (h : Regular config w) (fd : ℤ) : Regular config (w.handle_accept fd) := by
  refine { h with busy := ?_, clients := ?_ }
  · intro k a hk
    obtain ⟨c, hc, hbusy, hid⟩ := h.busy k a hk
    refine ⟨c, ?_, hbusy, hid⟩
    unfold IngressWorker.handle_accept emplace
    dsimp only
    split_ifs with hmem
    · exact hc
    · refine (AList.lookup_insert_ne ?_).trans hc
      rintro rfl
      exact hmem (AList.lookup_isSome.mp (by rw [hc]; rfl))
  · intro fd' c hc
    unfold IngressWorker.handle_accept emplace at hc
    dsimp only at hc
    split_ifs at hc
    · exact h.clients fd' c hc
    · by_cases hfd : fd' = fd
      · rw [hfd, AList.lookup_insert] at hc
        obtain rfl := Option.some.inj hc
        rfl
      · exact h.clients fd' c ((AList.lookup_insert_ne hfd).symm.trans hc)

/-- A client that is taken out of the listener has no request. -/
theorem handle_cancel (h : Regular config w) (hconsistent : Consistent config w L)
    (hok : w.handle_cancel fd = .ok w') : Regular config w' := by
  unfold IngressWorker.handle_cancel at hok
  split_ifs at hok with hexists
  obtain rfl := Except.ok.inj hok
  rw [Bool.not_eq_true] at hexists
  refine { h with busy := ?_, clients := ?_ }
  · intro k a hk
    obtain ⟨c, hc, hbusy, hid⟩ := h.busy k a hk
    refine ⟨c, (AList.lookup_erase_ne ?_).trans hc, hbusy, hid⟩
    rintro rfl
    have hnone := RPCMapper.find_ds_none hexists k.2.2
    rw [← (hconsistent.found hk).1] at hnone
    rw [hnone] at hk
    cases hk
  · intro fd' c hc
    by_cases hfd : fd' = fd
    · rw [hfd, AList.lookup_erase] at hc
      cases hc
    · exact h.clients fd' c ((AList.lookup_erase_ne hfd).symm.trans hc)

/-- A connection to a frontend that has nothing to write is stored. -/
theorem frontends_update (h : Regular config w) {c : HTTP1Connection n}
    (hmessage : c.rpc_message = none) (fd : ℤ) :
    ∀ fd' c', Function.update w.connections fd (some c) fd' = some c' → c'.rpc_message = none := by
  refine (Function.forall_update_iff w.connections fun _ conn => ∀ c', conn = some c' →
    c'.rpc_message = none).mpr ⟨?_, fun fd' _ => h.frontends fd'⟩
  rintro c' heq
  obtain rfl := Option.some.inj heq
  exact hmessage

/-- The status of a connection to a frontend is not among these facts. -/
theorem set_status (h : Regular config w) {c : HTTP1Connection n} (hc : w.connections fd = some c)
    (status : ConnectionStatus) :
    Regular config
      { w with toHttpUpstreams := w.set_connection fd { c with status := status } } := by
  refine { h with frontends := ?_ }
  refine h.frontends_update ?_ fd
  exact h.frontends fd c hc

/-- Nor is a Credit Request. -/
theorem requested (h : Regular config w) (hrequested : Requested w w') : Regular config w' := by
  obtain ⟨ingress, hupstreams⟩ := hrequested.upstreams
  have hhttp : w'.http = w.http := congrArg (fun s => s.http) hupstreams
  have hconnections : w'.connections = w.connections := congrArg (fun s => s.connections) hupstreams
  constructor
  case busy =>
    rw [hrequested.rpc_mapper, hrequested.clients]
    exact h.busy
  case clients =>
    rw [hrequested.clients]
    exact h.clients
  case frontends =>
    rw [hconnections]
    exact h.frontends
  case waiting =>
    rw [hrequested.queue]
    unfold HttpWorker.Waiting
    rw [hrequested.rpc_mapper, hrequested.service, hrequested.priority]
    exact h.waiting
  case dropped =>
    unfold HttpCalls.message
    rw [hrequested.queue, hrequested.rpc_mapper, hhttp]
    exact h.dropped
  case returns =>
    rw [hrequested.rpc_mapper]
    exact h.returns
  case priority =>
    rw [hrequested.priority]
    exact h.priority

/-- **A request of a client** is the only one of its connection, since that was idle. -/
theorem accept_request (h : Regular config w) (hconsistent : Consistent config w L)
    (hedge : config.ids.is_ingress = true) (hrole : config.is_frontend = false)
    {c c' : HTTP1Connection n} {s : HttpWorker n} {rpc : Fin n}
    (hc : w.clients.lookup fd = some c) {r : PicoHttp.Request} {data : Bytes}
    (htaken : c.Taken w.toHttpWorker rpc s)
    (haccept : (c.fill data).accept_request ⟨config.ids, config.is_frontend⟩ w.toHttpWorker r
      = .ok (c', s)) :
    Regular config ({ w with toHttpWorker := s }.set_client fd c') := by
  obtain ⟨hfd, htype, -⟩ := hconsistent.clients fd c hc
  have hidle : c.idle = true :=
    HTTP1Connection.accept_request_idle (c := c.fill data) haccept
  obtain ⟨hconnection, -⟩ :=
    HTTP1Connection.accept_request_taken (c := c.fill data) hedge hrole htype haccept
  obtain ⟨hreturns, hpriority, hservice, hwaiting⟩ :=
    HTTP1Connection.accept_request_object (c := c.fill data) hedge hrole htype htaken.pool haccept
  have hfound : s.rpc_mapper.find_ds = Function.update w.rpc_mapper.find_ds c.next_key (some rpc) :=
    htaken.find_ds
  -- what was found before is found still, is another object, and is on another connection
  have hold : ∀ k a, s.rpc_mapper.find_ds k = some a → k ≠ c.next_key →
      w.rpc_mapper.find_ds k = some a ∧ a ≠ rpc ∧ k.2.1 ≠ fd := by
    intro k a hk hne
    rw [hfound, Function.update_of_ne hne] at hk
    refine ⟨hk, ?_, ?_⟩
    · rintro rfl
      refine RPCMapper.live_iff.mp ((hconsistent.tracks.ds k a).mp hk).1 .HTTP1 ?_
      show a ∈ w.rpc_mapper.http_pool
      rw [htaken.pool]
      exact List.mem_cons_self
    · rintro rfl
      obtain ⟨c₁, hc₁, hbusy, -⟩ := h.busy k a hk
      obtain rfl := Option.some.inj (hc.symm.trans hc₁)
      rw [hidle] at hbusy
      cases hbusy
  have hnew : ∀ a, s.rpc_mapper.find_ds c.next_key = some a → a = rpc := by
    intro a ha
    rw [hfound, Function.update_self] at ha
    exact (Option.some.inj ha).symm
  have hqueue : ∀ a, a ∈ w.ingress.queue → a ∈ s.ingress.queue := by
    intro a ha
    rcases htaken.outcome with hqueued | hdeclined
    · rw [hqueued.queue]
      exact List.mem_append_left _ ha
    · rw [hdeclined.queue]
      exact ha
  constructor
  case busy =>
    intro k a hk
    by_cases hne : k = c.next_key
    · subst hne
      refine ⟨c', ?_, by rw [hconnection]; rfl, by rw [hconnection]; rfl⟩
      show (w.clients.insert fd c').lookup c.fd = some c'
      rw [hfd]
      exact AList.lookup_insert _
    · obtain ⟨hk, -, hother⟩ := hold k a hk hne
      obtain ⟨c₁, hc₁, hbusy, hid⟩ := h.busy k a hk
      exact ⟨c₁, (AList.lookup_insert_ne hother).trans hc₁, hbusy, hid⟩
  case clients =>
    intro fd' c₁ hc₁
    by_cases hsame : fd' = fd
    · rw [hsame] at hc₁
      obtain rfl := Option.some.inj ((AList.lookup_insert _).symm.trans hc₁)
      rw [hconnection]
      exact h.clients fd c hc
    · exact h.clients fd' c₁ ((AList.lookup_insert_ne hsame).symm.trans hc₁)
  case frontends => exact h.frontends
  case waiting =>
    intro a ha
    by_cases hrpc : a = rpc
    · subst hrpc
      refine hwaiting ?_
      rcases htaken.outcome with hqueued | hdeclined
      · exact hqueued
      · -- a request that is dropped does not wait
        have ha' : a ∈ s.ingress.queue := ha
        rw [hdeclined.queue] at ha'
        exact absurd ha' (hconsistent.not_waiting htaken)
    · have hmem : a ∈ w.ingress.queue := by
        rcases htaken.outcome with hqueued | hdeclined
        · have ha' : a ∈ s.ingress.queue := ha
          rw [hqueued.queue] at ha'
          exact (List.mem_append.mp ha').resolve_right fun hlast =>
            hrpc (List.mem_singleton.mp hlast)
        · rw [← hdeclined.queue]
          exact ha
      obtain ⟨hs, hid, hp⟩ := h.waiting a hmem
      have hheap : s.rpc_mapper.heap a = w.rpc_mapper.heap a := (htaken.others a hrpc).2
      refine ⟨?_, ?_, ?_⟩
      · exact (congrArg RPCMessage.service hheap).trans (hs.trans hservice.symm)
      · exact (congrArg RPCMessage.local_id hheap).trans_ne hid
      · exact (congrArg RPCMessage.priority hheap).trans (hp.trans hpriority.symm)
  case dropped =>
    intro k a hk ha husfd
    by_cases hne : k = c.next_key
    · subst hne
      obtain rfl := hnew a hk
      rcases htaken.outcome with hqueued | hdeclined
      · refine absurd ?_ ha
        show a ∈ s.ingress.queue
        rw [hqueued.queue]
        exact List.mem_append_right _ List.mem_cons_self
      · unfold HTTPMessage.is_drop
        exact Bool.and_eq_true_iff.mpr ⟨hdeclined.error, decide_eq_true hdeclined.status⟩
    · obtain ⟨hk, hrpc, -⟩ := hold k a hk hne
      obtain ⟨hhttp, hheap⟩ := htaken.others a hrpc
      have hdrop := h.dropped k a hk (fun hmem => ha (hqueue a hmem))
        ((congrArg RPCMessage.us_fd hheap).symm.trans husfd)
      refine Eq.trans ?_ hdrop
      show HTTPMessage.is_drop { s.http a with ids.rpc := s.rpc_mapper.heap a } = _
      rw [hhttp, hheap]
      rfl
  case returns =>
    intro a
    by_cases hrpc : a = rpc
    · subst hrpc
      exact hreturns.trans (h.returns a)
    · exact (congrArg RPCMessage.credit_return_queue (htaken.others a hrpc).2).trans (h.returns a)
  case priority => exact hpriority.trans_ne h.priority

/-- **Bytes of a frontend** change the object of the last request that was sent there, which was
not dropped. -/
theorem read (h : Regular config w) (hconsistent : Consistent config w L) {data : Bytes}
    {s : HttpUpstreams n} (hok : w.toHttpUpstreams.read parser config fd data = .ok s) :
    Regular config { w with toHttpUpstreams := s } := by
  obtain ⟨ts, horderly⟩ := hconsistent.orderly
  obtain ⟨c, hc⟩ : ∃ c, w.connections fd = some c := by
    unfold HttpUpstreams.read at hok
    split at hok
    · cases hok
    · rename_i c hc
      exact ⟨c, hc⟩
  have hpaired := horderly.paired fd c hc
  obtain ⟨c', calls, heffect, rfl⟩ := HttpUpstreams.read_effect hc hpaired.direction hok
  have hmapper : calls.rpc_mapper = w.rpc_mapper := heffect.rpc_mapper
  constructor
  case busy =>
    show ∀ k a, calls.rpc_mapper.find_ds k = some a → _
    rw [hmapper]
    exact h.busy
  case clients => exact h.clients
  case frontends => exact h.frontends_update (heffect.same.2.2.2.trans (h.frontends fd c hc)) fd
  case waiting =>
    intro a ha
    have hwaiting := h.waiting a ha
    unfold HttpWorker.Waiting at hwaiting ⊢
    show (calls.rpc_mapper.heap a).service = _ ∧ (calls.rpc_mapper.heap a).local_id ≠ _
      ∧ (calls.rpc_mapper.heap a).priority = _
    rw [hmapper]
    exact hwaiting
  case dropped =>
    show ∀ k a, calls.rpc_mapper.find_ds k = some a → a ∉ w.ingress.queue →
      (calls.rpc_mapper.heap a).us_fd = _ → HTTPMessage.is_drop (calls.message a) = true
    unfold HttpCalls.message
    rw [hmapper]
    intro k a hk ha husfd
    have hsame : calls.http a = w.http a := by
      -- the object that may change is that of a request on this connection
      by_contra hne
      have hfind := RPCMapper.get_us_rpc_eq_ok.mp (heffect.object a hne)
      have hkey := ((hconsistent.tracks.us _ a).mp hfind).2
      have hfd : (w.rpc_mapper.heap a).us_fd = c.fd := congrArg (fun k => k.2.1) hkey
      have hreal := hpaired.real
      rw [husfd, hpaired.descriptor] at hfd
      unfold TrafficConfig.drop_fd at hfd
      omega
    rw [hsame]
    exact h.dropped k a hk ha husfd
  case returns =>
    show ∀ a, (calls.rpc_mapper.heap a).credit_return_queue = []
    rw [hmapper]
    exact h.returns
  case priority => exact h.priority

/-- **A response goes back**: its client has no request any more. -/
theorem forward_response (h : Regular config w) (hconsistent : Consistent config w L)
    {src : ℤ × ℤ} {rest : List (ℤ × ℤ)} {rpc : Fin n}
    (hreturned : Returned config src rpc
      { w with toHttpCalls := w.set_queue .EGRESS .UPSTREAM rest } w') :
    Regular config w' := by
  obtain ⟨hds, htype, -⟩ := hconsistent.sent hreturned.found
  obtain ⟨hconnections, -, -, hingress, -⟩ := hreturned.frame
  obtain ⟨c, c', hc, hsame, hmessage, hclients⟩ := hreturned.clients
  have hfound : w'.rpc_mapper.find_ds = Function.update w.rpc_mapper.find_ds
      (w.rpc_mapper.ds_key rpc) none := hreturned.find_ds
  have hold : ∀ k a, w'.rpc_mapper.find_ds k = some a →
      w.rpc_mapper.find_ds k = some a ∧ k ≠ w.rpc_mapper.ds_key rpc ∧ a ≠ rpc := by
    intro k a hk
    have hne : k ≠ w.rpc_mapper.ds_key rpc := by
      rintro rfl
      rw [hfound, Function.update_self] at hk
      cases hk
    rw [hfound, Function.update_of_ne hne] at hk
    refine ⟨hk, hne, ?_⟩
    rintro rfl
    exact hne ((hconsistent.tracks.ds k a).mp hk).2.symm
  constructor
  case busy =>
    intro k a hk
    obtain ⟨hk, hne, -⟩ := hold k a hk
    obtain ⟨c₁, hc₁, hbusy, hid⟩ := h.busy k a hk
    obtain ⟨c₂, hc₂, -, hid'⟩ := h.busy _ rpc hds
    refine ⟨c₁, ?_, hbusy, hid⟩
    rw [hclients]
    refine (AList.lookup_insert_ne ?_).trans hc₁
    -- two requests of one connection would have the same number
    intro hfd
    have hfd' : k.2.1 = (w.rpc_mapper.ds_key rpc).2.1 := hfd
    rw [hfd', hc₂] at hc₁
    obtain rfl := Option.some.inj hc₁
    refine hne (Prod.ext ((hconsistent.found hk).1.trans htype.symm) (Prod.ext hfd' ?_))
    exact hid.symm.trans hid'
  case clients =>
    rw [hclients]
    intro fd' c₁ hc₁
    by_cases hfd : fd' = (w.rpc_mapper.heap rpc).ds_fd
    · rw [hfd] at hc₁
      obtain rfl := Option.some.inj ((AList.lookup_insert _).symm.trans hc₁)
      exact hmessage
    · exact h.clients fd' c₁ ((AList.lookup_insert_ne hfd).symm.trans hc₁)
  case frontends =>
    rw [hconnections]
    exact h.frontends
  case waiting =>
    rw [hingress]
    intro a ha
    have hwaiting := h.waiting a ha
    have hheap : w'.rpc_mapper.heap a = w.rpc_mapper.heap a := by
      refine (hreturned.others a ?_).2
      rintro rfl
      exact hconsistent.not_sent ha hreturned.found
    unfold HttpWorker.Waiting at hwaiting ⊢
    rw [hingress, hheap]
    exact hwaiting
  case dropped =>
    rw [hingress]
    intro k a hk ha husfd
    obtain ⟨hk, -, hrpc⟩ := hold k a hk
    obtain ⟨hhttp, hheap⟩ := hreturned.others a hrpc
    have hdrop := h.dropped k a hk ha ((congrArg RPCMessage.us_fd hheap).symm.trans husfd)
    refine Eq.trans ?_ hdrop
    unfold HttpCalls.message
    rw [hhttp, hheap]
    rfl
  case returns =>
    intro a
    by_cases hrpc : a = rpc
    · subst hrpc
      exact hreturned.returns
    · rw [(hreturned.others a hrpc).2]
      exact h.returns a
  case priority =>
    rw [hingress]
    exact h.priority

/-- All of them do. -/
theorem forward (h : Regular config w) (hconsistent : Consistent config w L)
    {queue : List (ℤ × ℤ)} (hqueue : w.rpc_queue .EGRESS .UPSTREAM = queue)
    (hok : w.forward config queue = .ok w') : Regular config w' := by
  induction queue generalizing w L with
  | nil =>
      obtain rfl := Except.ok.inj hok
      exact h
  | cons src rest ih =>
      unfold IngressWorker.forward at hok
      dsimp only at hok
      split_ifs at hok with hnone
      · -- the loop returns at once; its entry is lost, which is nothing here
        obtain rfl := Except.ok.inj hok
        exact ⟨h.busy, h.clients, h.frontends, h.waiting, h.dropped, h.returns, h.priority⟩
      · obtain ⟨w₁, hone, hrest⟩ := bind_eq_ok.mp hok
        obtain ⟨L₁, hconsistent₁, -, hqueue₁, -⟩ := hconsistent.forward_response hqueue hone
        obtain ⟨rpc, hreturned⟩ := hconsistent.returned hone
        exact ih (h.forward_response hconsistent hreturned) hconsistent₁ hqueue₁ hrest

/-- **The first request is sent**, over a connection that is none of the drops'. -/
theorem send_sub_request (h : Regular config w) (hconsistent : Consistent config w L)
    {rpc : Fin n} {rest : List (Fin n)} (hqueue : w.ingress.queue = rpc :: rest)
    {sent : StreamKey × Bytes}
    (hok : (Consistent.dequeued w rest).send_sub_request config rpc = .ok (sent, w')) :
    Regular config w' := by
  obtain ⟨L', -, -, -, hkeeps, -, hsends, -⟩ := hconsistent.send_sub_request hqueue hok
  obtain ⟨us, hreal, hobject⟩ := hsends.object
  have hingress : w'.ingress = (Consistent.dequeued w rest).ingress := hkeeps.ingress
  have hfirst : ∀ a ∈ rest, a ∈ w.ingress.queue := by
    rw [hqueue]
    exact fun a ha => List.mem_cons_of_mem _ ha
  constructor
  case busy =>
    rw [hsends.find_ds, hsends.clients]
    exact h.busy
  case clients =>
    rw [hsends.clients]
    exact h.clients
  case frontends =>
    intro fd c hc
    exact (hsends.connections fd c hc).elim id (h.frontends fd c)
  case waiting =>
    intro a ha
    rw [hingress] at ha
    have hwaiting := h.waiting a (hfirst a ha)
    unfold HttpWorker.Waiting at hwaiting ⊢
    rw [hingress, (hkeeps.waiting a ha).2]
    exact hwaiting
  case dropped =>
    rw [hsends.find_ds]
    intro k a hk ha husfd
    by_cases hrpc : a = rpc
    · -- it went to a frontend
      subst hrpc
      rw [hobject] at husfd
      dsimp only at husfd
      unfold TrafficConfig.drop_fd at husfd
      omega
    · have hout : a ∉ w.ingress.queue := by
        rw [hqueue]
        rw [hingress] at ha
        exact List.not_mem_cons_of_ne_of_not_mem hrpc ha
      rw [hsends.others a hrpc] at husfd
      refine Eq.trans ?_ (h.dropped k a hk hout husfd)
      unfold HttpCalls.message
      rw [hsends.http, hsends.others a hrpc]
  case returns =>
    intro a
    by_cases hrpc : a = rpc
    · rw [hrpc, hobject]
      exact h.returns rpc
    · rw [hsends.others a hrpc]
      exact h.returns a
  case priority =>
    rw [hingress]
    exact h.priority

/-- **Every step** keeps it. -/
theorem step (h : Regular config w) (hconsistent : Consistent config w L)
    (hedge : config.ids.is_ingress = true) (hrole : config.is_frontend = false) {ev : Event}
    (hs : Step parser config w ev w') : Regular config w' := by
  cases hs with
  | accept fd => exact h.handle_accept fd
  | set_status status hc => exact h.set_status hc status
  | close hc => exact h.set_client hc rfl
  | cancel hok => exact h.handle_cancel hconsistent hok
  | request hdrops hok =>
      obtain ⟨c, c', hc, ⟨-, hsame, rfl | hrequested⟩ | ⟨r, s, haccept, hrequested⟩⟩ :=
        handle_request_parts (fun fd c hc => (hconsistent.clients fd c hc).2.2) hok
      · exact h.set_client hc hsame
      · exact (h.set_client hc hsame).requested hrequested
      · obtain ⟨rpc, -, -, htaken, -⟩ :=
          hconsistent.accept_request hedge hrole hdrops hc haccept
        exact (h.accept_request hconsistent hedge hrole hc htaken haccept).requested hrequested
  | response hok =>
      unfold handle_response at hok
      obtain ⟨s, hs, hok⟩ := bind_eq_ok.mp hok
      obtain ⟨w₁, hforward, hpre⟩ := bind_eq_ok.mp hok
      exact ((h.read hconsistent hs).forward (hconsistent.read hs).1 rfl hforward).requested
        (ingress_pre_credit_spec hpre)
  | @grant _ _ before after _ _ _ hreq _ hok =>
      obtain ⟨last_rtt_us, rpc, rest, w₁, w₂, hqueue, hsend, hforward, hrequested⟩ :=
        ingress_post_credit_parts hok
      have hconsistent' := hconsistent.credits (before ++ after) last_rtt_us
      obtain ⟨L', hsent, -⟩ := hconsistent'.send_sub_request hqueue hsend
      have hregular := (h.credits (before ++ after) last_rtt_us).send_sub_request hconsistent'
        hqueue hsend
      exact (hregular.forward hsent rfl hforward).requested hrequested

end Regular

/-- At its start, a worker has nothing that could be irregular. -/
theorem start_regular {grpc_n http_n : ℕ} {w : IngressWorker (http_n + grpc_n)}
    (hstart : Start config grpc_n http_n w) : Regular config w := by
  obtain ⟨routing, priority, hcreate⟩ := hstart.ingress
  obtain ⟨hqueue, hpriority⟩ : w.ingress.queue = [] ∧ w.ingress.priority ≠ -1 := by
    obtain ⟨configured, hlow, hinit⟩ := Ingress.create_eq_ok hcreate
    rw [hinit]
    refine ⟨rfl, ?_⟩
    rintro rfl
    exact absurd hlow (by decide)
  obtain ⟨type, priority, htraffic⟩ := hstart.upstreams.traffic
  have hmapper : w.rpc_mapper = .create grpc_n http_n type priority :=
    congrArg Traffic.rpc_mapper htraffic
  have hnone : ∀ k a, w.rpc_mapper.find_ds k ≠ some a := by
    rw [hmapper]
    exact fun k a h => by cases h
  constructor
  case busy => exact fun k a h => absurd h (hnone k a)
  case clients =>
    rw [hstart.clients]
    exact fun fd c h => by cases h
  case frontends =>
    intro fd c hc
    rw [(hstart.upstreams.connection fd c hc).2]
    rfl
  case waiting =>
    rw [hqueue]
    exact fun a h => absurd h List.not_mem_nil
  case dropped => exact fun k a h => absurd h (hnone k a)
  case returns =>
    rw [hmapper]
    exact fun a => rfl
  case priority => exact hpriority

end Regular

end IngressWorker

end RlpSidecar
