/-
What the operations of the upstream half do (`connection.cc`, `state.cc`): one lemma for each.

Whatever bytes arrive, a read touches one object, that of the last request of its connection, and
makes a busy connection idle or leaves it as it is. Sending takes an idle connection of the pool
and gives it the next number.

The lemmas are inversions: from a handler that returned, `ReadEffect` or `SendEffect` lists all it
has changed, the registry, the queue, the object and the fields of the connection. The module on
runs uses nothing else about the handlers.
-/
import RlpSidecar.HttpUpstreams
import RlpSidecar.LocalIds

set_option autoImplicit false

open Runs

namespace RlpSidecar

variable {n : ℕ}

/-! ## What a read can do -/

namespace HTTP1Connection

/-- What any bytes can do to a connection and to the objects: the registry and the numbers stay,
the one object that may change is that of the last request, and a response that is complete makes a
busy connection idle. -/
structure ReadEffect (c : HTTP1Connection n) (s : HttpCalls n) (c' : HTTP1Connection n)
    (s' : HttpCalls n) : Prop where
  rpc_mapper : s'.rpc_mapper = s.rpc_mapper
  same : (c'.fd, c'.type, c'.direction) = (c.fd, c.type, c.direction) ∧ c'.status = c.status
    ∧ c'.last_id = c.last_id
    ∧ c'.rpc_message = c.rpc_message
  object : ∀ a, s'.http a ≠ s.http a → s.rpc_mapper.get_us_rpc c.type c.last_id c.fd = .ok a
  queue : c'.idle = c.idle ∧ s'.rpc_queue = s.rpc_queue
    ∨ c.idle = false ∧ c'.idle = true
      ∧ s'.rpc_queue = (s.enqueue c.type c.direction c.fd c.last_id).rpc_queue

theorem ReadEffect.refl (c : HTTP1Connection n) (s : HttpCalls n) : ReadEffect c s c s :=
  ⟨rfl, ⟨rfl, rfl, rfl, rfl⟩, fun _ h => absurd rfl h, .inl ⟨rfl, rfl⟩⟩

/-- Headers of a response do not change the base part of a message. -/
theorem add_response_headers_ids {config : IdConfig} {headers : List (Option Bytes × Bytes)}
    {m m' : HTTPMessage} (h : add_response_headers config headers m = .ok m') : m'.ids = m.ids := by
  unfold add_response_headers at h
  induction headers generalizing m with
  | nil =>
      obtain rfl := Except.ok.inj h
      rfl
  | cons x headers ih =>
      rw [List.foldlM_cons] at h
      obtain ⟨m₁, hone, hrest⟩ := bind_eq_ok.mp h
      obtain ⟨⟨m₂, counter⟩, hadd, hone⟩ := bind_eq_ok.mp hone
      obtain rfl := Except.ok.inj hone
      obtain ⟨first, -, hadd⟩ := bind_eq_ok.mp hadd
      obtain ⟨rfl, rfl⟩ := Prod.mk.inj (Except.ok.inj hadd)
      exact (ih hrest).trans rfl

/-- The object of the last request is stored, and no other object of the pool changes by it. -/
theorem stored_object {s : HttpCalls n} {rpc a : Fin n} {m : HTTPMessage}
    (hbase : m.ids.rpc = s.rpc_mapper.heap rpc) (h : (s.set_message rpc m).http a ≠ s.http a) :
    a = rpc := by
  by_contra hne
  rw [set_message_same s hbase] at h
  exact h (Function.update_of_ne hne _ _)

/-- The payload goes to the object of the last request of this connection, which the registry finds
by its stream. -/
theorem store_body_effect {c : HTTP1Connection n} {s s' : HttpCalls n}
    (h : c.store_body s = .ok s') :
    s'.rpc_mapper = s.rpc_mapper ∧ s'.rpc_queue = s.rpc_queue
      ∧ ∀ a, s'.http a ≠ s.http a → s.rpc_mapper.get_us_rpc c.type c.last_id c.fd = .ok a := by
  unfold store_body at h
  by_cases hpos : 0 < c.content_length
  · rw [if_pos hpos] at h
    obtain ⟨rpc, hrpc, h⟩ := bind_eq_ok.mp h
    obtain ⟨-, -, h⟩ := bind_eq_ok.mp h
    obtain ⟨m, hadd, h⟩ := bind_eq_ok.mp h
    obtain rfl := Except.ok.inj h
    obtain ⟨res_data, -, hm⟩ := bind_eq_ok.mp hadd
    obtain rfl := Except.ok.inj hm
    refine ⟨?_, rfl, ?_⟩
    · rw [set_message_same s (by rfl)]
    · intro a ha
      rw [stored_object (by rfl) ha]
      exact hrpc
  · rw [if_neg hpos] at h
    obtain rfl := Except.ok.inj h
    exact ⟨rfl, rfl, fun a ha => absurd rfl ha⟩

/-- The part after the head: payload is stored, and a complete response is put into the queue. -/
theorem read_body_effect {c c' : HTTP1Connection n} {s s' : HttpCalls n}
    (h : c.read_body s = .ok (c', s')) :
    ReadEffect c s c' s' := by
  unfold read_body at h
  -- The body is not whole yet: the handler returns and nothing has changed.
  by_cases hpart : (c.buf.length : ℤ) - c.hdr_size < c.content_length
  · rw [if_pos hpart] at h
    obtain ⟨rfl, rfl⟩ := Prod.mk.inj (Except.ok.inj h)
    exact .refl c s
  rw [if_neg hpart] at h
  obtain ⟨s₁, hdata, h⟩ := bind_eq_ok.mp h
  obtain ⟨hmapper, hqueue, hobject⟩ := store_body_effect hdata
  dsimp only at h
  -- More bytes than the body has, or an answer that nobody asked for, end the process.
  by_cases hmore : c.hdr_size + (if 0 < c.content_length then c.content_length else 0)
    < (c.buf.length : ℤ)
  · rw [if_pos hmore] at h
    cases h
  by_cases hidle : c.idle = true
  · rw [if_neg hmore, if_pos hidle] at h
    cases h
  rw [if_neg hmore, if_neg hidle] at h
  obtain ⟨rfl, rfl⟩ := Prod.mk.inj (Except.ok.inj h)
  refine ⟨hmapper, ⟨rfl, rfl, rfl, rfl⟩, hobject, .inr ⟨Bool.eq_false_iff.mpr hidle, rfl, ?_⟩⟩
  unfold HttpCalls.enqueue HttpCalls.set_queue
  dsimp only
  rw [hqueue]

/-- The whole of `read_response`, with the head parsed in this call or in one before it. -/
theorem read_response_effect {parser : HttpParser} {config : IdConfig}
    {c c' : HTTP1Connection n} {s s' : HttpCalls n}
    (h : c.read_response parser config s = .ok (c', s')) : ReadEffect c s c' s' := by
  unfold read_response at h
  by_cases hcomplete : c.hdr_complete = true
  · rw [if_pos hcomplete] at h
    exact read_body_effect h
  rw [if_neg hcomplete] at h
  split at h
  · obtain ⟨rfl, rfl⟩ := Prod.mk.inj (Except.ok.inj h)
    exact ⟨rfl, ⟨rfl, rfl, rfl, rfl⟩, fun _ ha => absurd rfl ha, .inl ⟨rfl, rfl⟩⟩
  · cases h
  · rename_i r hdr_size hparse
    obtain ⟨content_length, -, h⟩ := bind_eq_ok.mp h
    obtain ⟨rpc, hrpc, h⟩ := bind_eq_ok.mp h
    obtain ⟨-, -, h⟩ := bind_eq_ok.mp h
    obtain ⟨m, hadd, h⟩ := bind_eq_ok.mp h
    have hbase : m.ids.rpc = s.rpc_mapper.heap rpc := by
      rw [add_response_headers_ids hadd]
      rfl
    have hbody := read_body_effect h
    have hmapper :
        (s.set_message rpc { m with status := r.status, msg := r.msg, minor := r.minor }).rpc_mapper
        = s.rpc_mapper := by
      rw [set_message_same s (by exact hbase)]
    refine ⟨hbody.rpc_mapper.trans hmapper, hbody.same, ?_, hbody.queue⟩
    intro a ha
    -- either the head has changed the object, or the body
    by_cases hhead :
      (s.set_message rpc { m with status := r.status, msg := r.msg, minor := r.minor }).http a
        = s.http a
    · have hlast := hbody.object a (by rw [hhead]; exact ha)
      rw [hmapper] at hlast
      exact hlast
    · rw [stored_object (by exact hbase) hhead]
      exact hrpc

/-- **Any read** of a connection to a server returns, and has the effect of `read_response`: only
the request path throws. -/
theorem http_read_effect {parser : HttpParser} {config : HttpConfig} {c : HTTP1Connection n}
    {w : HttpWorker n} {data : Bytes} {x : HttpRead n} (hdirection : c.direction = .UPSTREAM)
    (h : c.http_read parser config data w = .ok x) :
    ∃ c' s', x = .returned c' { w with toHttpCalls := s' } ∧ ReadEffect c w.toHttpCalls c' s' := by
  unfold http_read at h
  split_ifs at h with hdata
  · obtain rfl := Except.ok.inj h
    exact ⟨c, w.toHttpCalls, rfl, .refl c _⟩
  · dsimp only at h
    rw [show (c.fill data).direction = .UPSTREAM from hdirection] at h
    obtain ⟨⟨c', s'⟩, hread, h⟩ := bind_eq_ok.mp h
    obtain rfl := Except.ok.inj h
    have heffect := read_response_effect hread
    exact ⟨c', s', rfl, heffect.rpc_mapper, heffect.same, heffect.object, heffect.queue⟩

end HTTP1Connection

namespace HttpUpstreams

/-! ## What sending a request does -/

/-- The pool of a request has its type: the ingress pool for INGRESS, and a service's own
otherwise. -/
theorem find_pool_type {s : HttpUpstreams n} {type : ConnectionType} {service : Bytes} {id : PoolId}
    (h : s.find_pool type service = .ok id) : id.type = type := by
  unfold find_pool at h
  cases type with
  | INGRESS =>
      obtain rfl := Except.ok.inj h
      rfl
  | EGRESS =>
      dsimp only at h
      split_ifs at h
      · obtain rfl := Except.ok.inj h
        rfl
      · obtain rfl := Except.ok.inj h
        rfl

/-- **`route_request`** returns a connection of the pool that is available. Only the iterator of
the pool moves. -/
theorem route_request_effect {s s' : HttpUpstreams n} {k : StreamKey} {fd : ℤ}
    (h : s.route_request k = .ok (fd, s')) :
    ∃ id pool pool', id.type = k.1 ∧ s.pools id = some pool ∧ fd ∈ pool.fds ∧ s.available fd = true
      ∧ pool'.fds = pool.fds
      ∧ s' = { s with pools := Function.update s.pools id (some pool') } := by
  unfold route_request at h
  obtain ⟨rpc, -, h⟩ := bind_eq_ok.mp h
  obtain ⟨id, hid, h⟩ := bind_eq_ok.mp h
  cases hpool : s.pools id with
  | none =>
      rw [hpool] at h
      cases h
  | some pool =>
      rw [hpool] at h
      obtain ⟨⟨fd', pool'⟩, hany, h⟩ := bind_eq_ok.mp h
      obtain ⟨hmem, havailable, hfds⟩ := ConnectionPool.get_any_connection_ok hany
      dsimp only at h
      split at h
      · obtain ⟨rfl, rfl⟩ := Prod.mk.inj (Except.ok.inj h)
        exact ⟨id, pool, pool', find_pool_type hid, hpool, hmem, havailable, hfds, rfl⟩
      · cases h
      · cases h

/-- A request goes over the connection of the iterator, if that is available and up. The iterator
stays. -/
theorem route_request_here {s : HttpUpstreams n} {k : StreamKey} {rpc : Fin n}
    {id : PoolId} {pool : ConnectionPool} {fd : ℤ}
    (hrpc : s.rpc_mapper.get_ds_rpc k.1 k.2.2 k.2.1 = .ok rpc)
    (hid : s.find_pool k.1 (s.rpc_mapper.heap rpc).service = .ok id)
    (hpool : s.pools id = some pool) (hnext : pool.fds[pool.next_conn]? = some fd)
    (havailable : s.available fd = true)
    (hup : (s.connections fd).map HTTP1Connection.status = some .UP) :
    s.route_request k = .ok (fd, { s with pools := Function.update s.pools id (some pool) }) := by
  refine bind_eq_ok.mpr ⟨rpc, hrpc, bind_eq_ok.mpr ⟨id, hid, ?_⟩⟩
  rw [hpool]
  refine bind_eq_ok.mpr ⟨_, ConnectionPool.get_any_connection_here hnext havailable, ?_⟩
  dsimp only
  rw [hup]

/-- On INGRESS, the header with the id changes only the headers: the number is written as text and
read again, and is not that of an unset id. -/
theorem set_local_id_header_ingress {config : IdConfig} {counter counter' : RPCID}
    {m m' : HTTPMessage} (htype : m.ids.rpc.type = .INGRESS)
    (h : m.set_local_id_header config counter = .ok (m', counter')) :
    counter' = counter ∧ ∃ headers, m' = { m with req_headers := headers } := by
  unfold HTTPMessage.set_local_id_header at h
  rw [HTTPMessage.add_request_header] at h
  by_cases hunset : m.ids.rpc.local_id = -1
  · rw [read_local_id] at h
    unfold RPCMessage.add_header_field at h
    dsimp only at h
    rw [htype] at h
    dsimp only at h
    rw [if_pos hunset] at h
    cases h
  · rw [read_local_id_ingress htype hunset, ok_bind] at h
    obtain ⟨headers, -, h⟩ := bind_eq_ok.mp h
    obtain ⟨rfl, rfl⟩ := Prod.mk.inj (Except.ok.inj h)
    exact ⟨rfl, headers, rfl⟩

/-- So it goes into the object, and not into the registry: on these paths no id is allocated. -/
theorem add_local_id_effect {config : IdConfig} {type : ConnectionType}
    {rpc : Fin n} {s s' : HttpUpstreams n}
    (htype : type = .INGRESS → (s.rpc_mapper.heap rpc).type = .INGRESS)
    (h : s.add_local_id config type rpc = .ok s') : ∃ http, s' = { s with http := http } := by
  unfold add_local_id at h
  cases type with
  | EGRESS =>
      obtain rfl := Except.ok.inj h
      exact ⟨s.http, rfl⟩
  | INGRESS =>
      obtain ⟨⟨m, counter⟩, hset, h⟩ := bind_eq_ok.mp h
      obtain rfl := Except.ok.inj h
      obtain ⟨rfl, headers, rfl⟩ := set_local_id_header_ingress (by exact htype rfl) hset
      rw [HTTP1Connection.set_message_same s.toHttpCalls (by rfl)]
      exact ⟨_, rfl⟩

/-- What `route_request` and `forward_request` do over HTTP/1: one idle connection takes the
request and its next number, and all else stays. -/
structure SendEffect (config : UpstreamConfig) (k : StreamKey) (fd us_stream_id : ℤ)
    (c : HTTP1Connection n) (s s' : HttpUpstreams n) : Prop where
  found : s.connections fd = some c
  available : c.available = true
  type : c.type = k.1
  next : us_stream_id = c.last_id + 1
  traffic : s.traffic.handle config.toTrafficConfig (.forward_request k fd us_stream_id)
    = .ok s'.traffic
  connections : s'.connections = Function.update s.connections fd
    (some { c with last_id := us_stream_id, idle := false, rpc_message := none })
  queue : s'.rpc_queue = s.rpc_queue
  pools : ∀ id pool', s'.pools id = some pool' → ∃ pool, s.pools id = some pool
    ∧ pool'.fds = pool.fds

/-- **Sending** takes an idle connection of the pool and gives it the next number, which becomes
the stream of the request. -/
theorem send_effect {config : UpstreamConfig} {k : StreamKey} {fd us_stream_id : ℤ} {text : Bytes}
    {s s₁ s' : HttpUpstreams n} (hroute : s.route_request k = .ok (fd, s₁))
    (hok : s₁.forward_request config k fd = .ok (us_stream_id, text, s'))
    (hpools : ∀ id pool, s.pools id = some pool → ∀ fd ∈ pool.fds, ∃ c, s.connections fd = some c
      ∧ c.type = id.type)
    (htype : ∀ rpc, s.rpc_mapper.get_ds_rpc k.1 k.2.2 k.2.1 = .ok rpc →
      (s.rpc_mapper.heap rpc).type = k.1) :
    ∃ c, SendEffect config k fd us_stream_id c s s' := by
  obtain ⟨id, pool, pool', hid, hpool, hmem, havailable, hfds, rfl⟩ := route_request_effect hroute
  obtain ⟨c, hc, hctype⟩ := hpools id pool hpool fd hmem
  have hup : c.available = true := by
    unfold available at havailable
    rw [hc] at havailable
    exact havailable
  unfold forward_request at hok
  obtain ⟨rpc, hrpc, hok⟩ := bind_eq_ok.mp hok
  dsimp only at hok
  rw [hc] at hok
  obtain ⟨s₂, hadd, hok⟩ := bind_eq_ok.mp hok
  obtain ⟨http, rfl⟩ := add_local_id_effect (fun heq => by
    rw [← heq, hctype, hid]
    exact htype rpc hrpc) hadd
  obtain ⟨⟨us, c₁⟩, hsubmit, hok⟩ := bind_eq_ok.mp hok
  obtain ⟨traffic, htraffic, hok⟩ := bind_eq_ok.mp hok
  obtain ⟨⟨text', c₂⟩, hwrite, hok⟩ := bind_eq_ok.mp hok
  obtain ⟨hus, hrest⟩ := Prod.mk.inj (Except.ok.inj hok)
  obtain ⟨htext, hs⟩ := Prod.mk.inj hrest
  dsimp only at hus htext hs hwrite
  subst hus htext hs
  -- `submit_request` counts, and `http_write` gives the message away
  unfold HTTP1Connection.submit_request at hsubmit
  obtain ⟨-, -, hsubmit⟩ := bind_eq_ok.mp hsubmit
  split_ifs at hsubmit with hmessage
  obtain ⟨last_id, hnext, hsubmit⟩ := bind_eq_ok.mp hsubmit
  obtain ⟨rfl, rfl⟩ := Prod.mk.inj (Except.ok.inj hsubmit)
  unfold HTTP1Connection.next_id at hnext
  split_ifs at hnext
  obtain rfl := Except.ok.inj hnext
  unfold HTTP1Connection.http_write_request at hwrite
  dsimp only at hwrite
  split_ifs at hwrite
  obtain ⟨-, rfl⟩ := Prod.mk.inj (Except.ok.inj hwrite)
  refine ⟨c, hc, hup, hctype.trans hid, rfl, ?_, rfl, rfl, ?_⟩
  · exact htraffic
  · intro id' pool₁ hpool₁
    have hupdate : Function.update s.pools id (some pool') id' = some pool₁ := hpool₁
    by_cases hsame : id' = id
    · rw [hsame, Function.update_self] at hupdate
      obtain rfl := Option.some.inj hupdate
      rw [hsame]
      exact ⟨pool, hpool, hfds⟩
    · rw [Function.update_of_ne hsame] at hupdate
      exact ⟨pool₁, hupdate, rfl⟩

/-! ## What the handlers do -/

/-- The READ handler of a connection to a server, with what its reader does to the objects and the
queue. -/
theorem read_effect {parser : HttpParser} {config : UpstreamConfig} {fd : ℤ}
    {data : Bytes} {c : HTTP1Connection n} {s s' : HttpUpstreams n} (hc : s.connections fd = some c)
    (hdirection : c.direction = .UPSTREAM) (h : s.read parser config fd data = .ok s') :
    ∃ c' calls, c.ReadEffect s.toHttpCalls c' calls
      ∧ s' = { s with toHttpCalls := calls }.set_connection fd c' := by
  unfold read at h
  rw [hc] at h
  obtain ⟨x, hread, h⟩ := bind_eq_ok.mp h
  obtain ⟨c', calls, rfl, heffect⟩ := HTTP1Connection.http_read_effect hdirection hread
  obtain rfl := Except.ok.inj h
  exact ⟨c', calls, heffect, rfl⟩

/-- `forward`, for a response: the registry is asked first, and then the entry leaves the queue. -/
theorem respond_effect {config : UpstreamConfig} {type : ConnectionType}
    {us : ℤ × ℤ} {rest : List (ℤ × ℤ)} {failed : Bool} {held : ℕ} {s s' : HttpUpstreams n}
    (hqueue : s.rpc_queue type .UPSTREAM = us :: rest)
    (h : s.respond config type failed held = .ok s') :
    ∃ t, s.traffic.handle config.toTrafficConfig (.forward_response type us.1 us.2 failed held)
      = .ok t
      ∧ s'.traffic = t ∧ s'.connections = s.connections ∧ s'.pools = s.pools
      ∧ s'.rpc_queue = (s.set_queue type .UPSTREAM rest).rpc_queue := by
  unfold respond at h
  rw [hqueue] at h
  obtain ⟨t, ht, h⟩ := bind_eq_ok.mp h
  obtain rfl := Except.ok.inj h
  exact ⟨t, ht, rfl, rfl, rfl, rfl⟩

/-- A read puts at most one response into one queue: that of its own type. -/
theorem answerQueue_eq (s : HttpUpstreams n) (type : ConnectionType) (fd : ℤ) (answer : Option ℤ) :
    s.answerQueue type fd answer type .UPSTREAM
      = s.rpc_queue type .UPSTREAM
        ++ (answer.map fun us_stream_id => (fd, us_stream_id)).toList := by
  cases answer with
  | none => exact (List.append_nil _).symm
  | some us_stream_id =>
      unfold answerQueue HttpCalls.enqueue
      dsimp only
      rw [HttpCalls.rpc_queue_set_queue, if_pos ⟨rfl, rfl⟩]
      rfl

/-- What it has put there is in the queue, so that the queue tells which response it was. -/
theorem answer_of_queue {s : HttpUpstreams n} {type : ConnectionType} {fd : ℤ}
    {answer answer' : Option ℤ} (h : s.answerQueue type fd answer = s.answerQueue type fd answer') :
    answer = answer' := by
  have hqueue := congrArg (fun q => q type .UPSTREAM) h
  rw [answerQueue_eq, answerQueue_eq] at hqueue
  have hlist := List.append_cancel_left hqueue
  cases answer <;> cases answer' <;> simp_all

/-- The responses of other connections stay, in the order in which they were put there. -/
theorem answerQueue_other (s : HttpUpstreams n) (type type' : ConnectionType)
    {fd fd' : ℤ} (answer : Option ℤ) (hfd : fd' ≠ fd) :
    ((s.answerQueue type fd answer type' .UPSTREAM).filter fun x => x.1 = fd')
      = (s.rpc_queue type' .UPSTREAM).filter fun x => x.1 = fd' := by
  cases answer with
  | none => rfl
  | some us_stream_id =>
      unfold answerQueue HttpCalls.enqueue
      dsimp only
      rw [HttpCalls.rpc_queue_set_queue]
      by_cases htype : type' = type
      · rw [if_pos ⟨htype, rfl⟩, htype, List.filter_append]
        have hnew : ([(fd, us_stream_id)].filter fun x => x.1 = fd') = [] := by
          rw [List.filter_singleton, decide_eq_false hfd.symm]
          rfl
        rw [hnew, List.append_nil]
      · rw [if_neg fun h => htype h.1]

end HttpUpstreams

end RlpSidecar
