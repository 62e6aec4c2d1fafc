/-
**What a client can do to the edge** (`connection.cc`, `HTTP1Connection::http_read`; `ingress.cc`,
`Ingress::enqueue`), on the sidecar of the ingress.

A request comes from outside here. What the parser refuses, what announces a body and what is meant
for another service is thrown, and costs the client its connection. A request that is let through
is taken for one that can be served, and where it cannot the process ends: the values of some
headers are read with `stoll`, a name or a value that fills its array has no room for the zero
byte, and nothing else may have come with the head or be under way on the connection. Whether a
request announces a body is asked of a number that may stand behind its head, in what earlier
requests have left in the array of the connection.
-/
import RlpSidecar.HttpRequestReads
import RlpSidecar.PicoHttpSpec

set_option autoImplicit false

namespace RlpSidecar

variable {n : ℕ}

/-! ## Headers that are read -/

/-- A header whose reading succeeds has a value that can be read. -/
theorem Readable.of_read {config : IdConfig} {type : ConnectionType}
    {counter : RPCID} {f : IdFields} {name value : Bytes} {x : IdFields × RPCID}
    (h : IdFields.read config type counter f name value = .ok x) :
    Readable type name value := by
  unfold IdFields.read at h
  by_cases hid : RPC_ID <+: name
  · -- no name starts with both `rpc-id` and `rpc-local-id`
    have hlocal : ¬ RPC_LOCAL_ID <+: name := fun h =>
      absurd (List.prefix_of_prefix_length_le hid h (by decide)) (by decide)
    rw [if_pos hid] at h
    obtain ⟨z, hz, _⟩ := bind_eq_ok.mp h
    exact ⟨fun _ => ⟨z, hz⟩, fun h => absurd h hlocal,
      fun h => absurd h (priority_alone (.inl hid))⟩
  rw [if_neg hid] at h
  by_cases hlocal : RPC_LOCAL_ID <+: name
  · rw [if_pos hlocal] at h
    obtain ⟨z, hz, h⟩ := bind_eq_ok.mp h
    refine ⟨fun h => absurd h hid, fun _ => ⟨z, hz, ?_⟩,
      fun h => absurd h (priority_alone (.inr hlocal))⟩
    cases type with
    | INGRESS =>
        dsimp only at h ⊢
        split_ifs at h with hunset
        exact hunset
    | EGRESS =>
        dsimp only at h ⊢
        split_ifs at h with hrange
        omega
  rw [if_neg hlocal] at h
  by_cases hpriority : PRIORITY <+: name
  · rw [if_pos hpriority] at h
    obtain ⟨z, hz, _⟩ := bind_eq_ok.mp h
    exact ⟨fun h => absurd h hid, fun h => absurd h hlocal, fun _ => ⟨z, hz⟩⟩
  · exact ⟨fun h => absurd h hid, fun h => absurd h hlocal, fun h => absurd h hpriority⟩

/-- What a message is stored under, apart from its local id, its kind, and its Credit Returns. -/
structure SameStream (a b : RPCMessage) : Prop where
  http : b.http = a.http
  type : b.type = a.type
  ds_fd : b.ds_fd = a.ds_fd
  ds_stream_id : b.ds_stream_id = a.ds_stream_id
  service : b.service = a.service
  returns : b.credit_return_queue = a.credit_return_queue

theorem SameStream.trans {a b c : RPCMessage} (hab : SameStream a b) (hbc : SameStream b c) :
    SameStream a c where
  http := hbc.http.trans hab.http
  type := hbc.type.trans hab.type
  ds_fd := hbc.ds_fd.trans hab.ds_fd
  ds_stream_id := hbc.ds_stream_id.trans hab.ds_stream_id
  service := hbc.service.trans hab.service
  returns := hbc.returns.trans hab.returns

/-- A header of a request changes ids and the priority, and leaves alone what ties the message to
its stream. -/
theorem read_request_header_stream {config : IdConfig} {counter : RPCID}
    {m : Identified} {name value : Bytes} {x : Identified × RPCID × Bool}
    (h : read_request_header config counter m name value = .ok x) :
    SameStream m.rpc x.1.rpc := by
  unfold read_request_header RPCMessage.add_header_field at h
  -- each of the three reserved names writes an id or the priority, and nothing else
  by_cases hid : RPC_ID <+: name
  · rw [if_pos hid] at h
    obtain ⟨id, _, h⟩ := bind_eq_ok.mp h
    obtain ⟨⟨rpc, c⟩, hadd, h⟩ := bind_eq_ok.mp h
    obtain rfl := Except.ok.inj h
    dsimp only at hadd
    split_ifs at hadd
    all_goals
      obtain ⟨rfl, rfl⟩ := Prod.mk.inj (Except.ok.inj hadd)
      exact ⟨rfl, rfl, rfl, rfl, rfl, rfl⟩
  rw [if_neg hid] at h
  by_cases hlocal : RPC_LOCAL_ID <+: name
  · rw [if_pos hlocal] at h
    obtain ⟨id, _, h⟩ := bind_eq_ok.mp h
    obtain ⟨⟨rpc, c⟩, hadd, h⟩ := bind_eq_ok.mp h
    obtain rfl := Except.ok.inj h
    dsimp only at hadd
    split at hadd
    all_goals
      split_ifs at hadd
      obtain ⟨rfl, rfl⟩ := Prod.mk.inj (Except.ok.inj hadd)
      exact ⟨rfl, rfl, rfl, rfl, rfl, rfl⟩
  rw [if_neg hlocal] at h
  by_cases hpriority : PRIORITY <+: name
  · rw [if_pos hpriority] at h
    obtain ⟨priority, _, h⟩ := bind_eq_ok.mp h
    obtain rfl := Except.ok.inj h
    exact ⟨rfl, rfl, rfl, rfl, rfl, rfl⟩
  · rw [if_neg hpriority] at h
    obtain rfl := Except.ok.inj h
    exact ⟨rfl, rfl, rfl, rfl, rfl, rfl⟩

/-- A header takes one place, and none if it is dropped. -/
theorem store_stream {config : IdConfig} {counter counter' : RPCID} {ids ids' : Identified}
    {headers headers' : HeaderList} {name value : Bytes}
    (h : store config counter ids headers name value = .ok (ids', headers', counter')) :
    SameStream ids.rpc ids'.rpc ∧ headers'.count ≤ headers.count + 1
      ∧ headers'.text = headers.text ++ (if Dropped ids.rpc.type name then []
        else [(name, value)]) := by
  unfold store at h
  obtain ⟨⟨ids₁, c, dropped⟩, hread, h⟩ := bind_eq_ok.mp h
  have hstream := read_request_header_stream hread
  obtain ⟨_, _, _, _, _, hdropped⟩ :=
    (read_request_header_fields config counter ids name value).of_ok hread
  dsimp only at h hstream hdropped
  -- a header that is dropped takes no place
  split_ifs at h with hd
  · obtain ⟨rfl, hrest⟩ := Prod.mk.inj (Except.ok.inj h)
    obtain ⟨rfl, rfl⟩ := Prod.mk.inj hrest
    rw [hd] at hdropped
    rw [if_pos (of_decide_eq_true hdropped.symm), List.append_nil]
    exact ⟨hstream, Nat.le_succ _, rfl⟩
  · obtain ⟨headers₁, hadd, h⟩ := bind_eq_ok.mp h
    obtain ⟨rfl, hrest⟩ := Prod.mk.inj (Except.ok.inj h)
    obtain ⟨rfl, rfl⟩ := Prod.mk.inj hrest
    obtain ⟨htext, hcount, _⟩ := HeaderList.add_text hadd
    rw [Bool.eq_false_iff.mpr hd] at hdropped
    rw [if_neg (of_decide_eq_false hdropped.symm)]
    exact ⟨hstream, hcount.le, htext⟩

theorem length_requestTexts (type : ConnectionType) (headers : List PicoHttp.phr_header) :
    (requestTexts type headers).length ≤ headers.length := by
  unfold requestTexts
  refine (List.length_filter_le _ _).trans ?_
  rw [List.length_map]

namespace HTTP1Connection

/-- The headers of a request could be added, and were: what each of them had to satisfy, and what
they have left. -/
structure HeadersAdded (headers : List PicoHttp.phr_header) (m m' : HTTPMessage) : Prop where
  names : ∀ h ∈ headers, h.name ≠ none
  readable : ∀ h ∈ headers, Readable m.ids.rpc.type (headerName h.name) h.value
  size : ∀ h ∈ requestTexts m.ids.rpc.type headers,
    h.1.length < maxHeaderFieldSize ∧ h.2.length < maxHeaderFieldSize
  stream : SameStream m.ids.rpc m'.ids.rpc
  count : m'.req_headers.count ≤ m.req_headers.count + headers.length
  text : m'.req_headers.text = m.req_headers.text ++ requestTexts m.ids.rpc.type headers

/-- **Headers that were added could be**, each of them, and the message is still that of its
stream. -/
theorem add_request_headers_spec {config : IdConfig} {headers : List PicoHttp.phr_header}
    {m m' : HTTPMessage} {counter counter' : RPCID}
    (h : add_request_headers config headers m counter = .ok (m', counter')) :
    HeadersAdded headers m m' := by
  induction headers generalizing m counter with
  | nil =>
      obtain ⟨rfl, _⟩ := Prod.mk.inj (Except.ok.inj h)
      exact ⟨by simp, by simp, by simp [requestTexts], ⟨rfl, rfl, rfl, rfl, rfl, rfl⟩,
        Nat.le_refl _, (List.append_nil _).symm⟩
  | cons x headers ih =>
      unfold add_request_headers at h
      split at h
      · cases h
      rename_i name hname
      obtain ⟨⟨m₁, counter₁⟩, hadd, h⟩ := bind_eq_ok.mp h
      rw [Message.add_http_header_eq] at hadd
      obtain ⟨⟨ids, req_headers, c⟩, hstore, hadd⟩ := bind_eq_ok.mp hadd
      obtain ⟨rfl, rfl⟩ := Prod.mk.inj (Except.ok.inj hadd)
      obtain ⟨hread, htype, hstored⟩ := store_inv hstore
      obtain ⟨hstream, hcount, htext⟩ := store_stream hstore
      -- the rest of the headers, into the message that has the first
      obtain ⟨hnames, hreadable, hsize, hstream', hcount', htext'⟩ := ih h
      dsimp only at hreadable hsize hstream' hcount' htext'
      rw [htype] at hreadable hsize htext'
      have hheader : headerName x.name = name := by rw [hname]; rfl
      refine ⟨?_, ?_, ?_, hstream.trans hstream', ?_, ?_⟩
      · intro y hy
        rcases List.mem_cons.mp hy with rfl | hy
        · rw [hname]
          exact Option.some_ne_none name
        · exact hnames y hy
      · intro y hy
        rcases List.mem_cons.mp hy with rfl | hy
        · rw [hheader]
          exact .of_read hread
        · exact hreadable y hy
      · intro y hy
        rw [requestTexts_cons, hheader] at hy
        rcases List.mem_append.mp hy with hy | hy
        · split_ifs at hy with hdropped
          · cases hy
          · rw [List.mem_singleton.mp hy]
            -- what was stored had room in its array
            rcases hstored with ⟨hd, _⟩ | ⟨_, hroom⟩
            · exact absurd hd hdropped
            · exact hroom
        · exact hsize y hy
      · rw [List.length_cons]
        omega
      · rw [htext', htext, requestTexts_cons, hheader, List.append_assoc]

end HTTP1Connection

/-! ## The ingress queue -/

namespace HttpCalls

/-- The objects in the pool are HTTP/1 messages without headers, each there once. -/
structure Pooled (s : HttpCalls n) : Prop where
  nodup : s.rpc_mapper.http_pool.Nodup
  kind : ∀ rpc ∈ s.rpc_mapper.http_pool, (s.rpc_mapper.heap rpc).http = .HTTP1
  blank : ∀ rpc ∈ s.rpc_mapper.http_pool, (s.http rpc).req_headers.count = 0

end HttpCalls

namespace HttpWorker

/-- The id that the next request that is dropped gets. These ids are negative, so they do not meet
those of the counter. -/
def next_drop_id (w : HttpWorker n) : RPCID := (-(w.ingress.drop_id + 1 + 1)).signExtend 64

/-- The request has got an id and a priority, and waits for a credit. -/
structure Queued (w : HttpWorker n) (rpc : Fin n) (w' : HttpWorker n) : Prop where
  room : w.ingress.queue.length < w.ingress.ingress_size_cap
  queue : w'.ingress.queue = w.ingress.queue ++ [rpc]
  last_rpc_id : w'.ingress.last_rpc_id = w.ingress.last_rpc_id + 1
  rpc_queue : w'.rpc_queue = w.rpc_queue

/-- The request is answered with an error, as the queue is full: the error waits to be forwarded,
and the queue stays. -/
structure Declined (w : HttpWorker n) (rpc : Fin n) (w' : HttpWorker n) : Prop where
  full : w.ingress.ingress_size_cap ≤ w.ingress.queue.length
  queue : w'.ingress.queue = w.ingress.queue
  drop_id : w'.ingress.drop_id = w.ingress.drop_id + 1
  status : (w'.http rpc).status = 503
  error : (w'.rpc_mapper.heap rpc).error = true
  rpc_queue : w'.rpc_queue
    = (w.enqueue .EGRESS .UPSTREAM w.ingress.drop_fd (w.ingress.drop_id + 1).toInt).rpc_queue

/-- Whatever becomes of a request, the pool and the downstream streams are left alone, and so are
the other objects. -/
structure Leaves (w : HttpWorker n) (rpc : Fin n) (w' : HttpWorker n) : Prop where
  http_pool : w'.rpc_mapper.http_pool = w.rpc_mapper.http_pool
  find_ds : w'.rpc_mapper.find_ds = w.rpc_mapper.find_ds
  others : ∀ a, a ≠ rpc → w'.http a = w.http a ∧ w'.rpc_mapper.heap a = w.rpc_mapper.heap a

/-- A request is dropped if the id for it is free; the message was just made, so this is the only
condition left. -/
theorem drop_rpc_iff {w : HttpWorker n} {rpc : Fin n}
    (hkind : (w.rpc_mapper.heap rpc).http = .HTTP1)
    (hservice : (w.rpc_mapper.heap rpc).service = w.ingress.ingress_service)
    (hds : w.rpc_mapper.find_ds
      (.EGRESS, (w.rpc_mapper.heap rpc).ds_fd, (w.rpc_mapper.heap rpc).ds_stream_id) = some rpc) :
    (∃ w', w.drop_rpc rpc = .ok w') ↔ w.rpc_mapper.find_id (.EGRESS, w.next_drop_id) = none := by
  unfold drop_rpc HttpCalls.cast_http next_drop_id
  rw [if_pos hkind, ok_bind, if_neg (not_not.mpr hservice)]
  dsimp only
  unfold RPCMapper.modify
  dsimp only
  rw [Function.update_self]
  dsimp only
  -- `route` refuses an id that is filed already, and nothing else can fail here
  constructor
  · rintro ⟨w', h⟩
    obtain ⟨m', hroute, _⟩ := bind_eq_ok.mp h
    obtain ⟨rpc', hds', hfree, _⟩ := RPCMapper.route_frame hroute
    obtain rfl := Option.some.inj (hds.symm.trans hds')
    dsimp only at hfree
    rw [Function.update_self] at hfree
    exact hfree
  · intro hfree
    obtain ⟨m', hroute⟩ := RPCMapper.route_exists
      (m := { w.rpc_mapper with
        heap := Function.update w.rpc_mapper.heap rpc
          { w.rpc_mapper.heap rpc with
            error := true
            local_id := (-(w.ingress.drop_id + 1 + 1)).signExtend 64
            us_fd := w.ingress.drop_fd
            us_stream_id := (w.ingress.drop_id + 1).toInt } })
      hds (by dsimp only; rw [Function.update_self]; exact hfree) (w.ingress.drop_id + 1).toInt
        w.ingress.drop_fd
    rw [hroute]
    exact ⟨_, rfl⟩

theorem drop_rpc_spec {w w' : HttpWorker n} {rpc : Fin n} (h : w.drop_rpc rpc = .ok w')
    (hfull : w.ingress.ingress_size_cap ≤ w.ingress.queue.length) :
    w.Declined rpc w' ∧ w.Leaves rpc w' := by
  unfold drop_rpc at h
  obtain ⟨_, _, h⟩ := bind_eq_ok.mp h
  split_ifs at h
  dsimp only at h
  obtain ⟨m', hroute, h⟩ := bind_eq_ok.mp h
  -- `route` files the object, and leaves the pool and the downstream streams
  obtain ⟨_, _, _, hds, hheap, hpool⟩ := RPCMapper.route_frame hroute
  obtain rfl := Except.ok.inj h
  unfold RPCMapper.modify at hheap hpool hds hroute
  dsimp only at hheap hpool hds
  unfold RPCMapper.modify HttpCalls.enqueue HttpCalls.set_queue
  refine ⟨⟨hfull, rfl, rfl, ?_, ?_, ?_⟩, ⟨hpool, hds, ?_⟩⟩
  · dsimp only
    rw [Function.update_self]
  · dsimp only
    rw [hheap, Function.update_self]
  · dsimp only
    rw [Function.update_self]
    rfl
  · intro a ha
    dsimp only
    rw [hheap, Function.update_of_ne ha, Function.update_of_ne ha]
    exact ⟨rfl, rfl⟩

/-- A header that the sidecar adds itself: there is room for it, and it is read. -/
theorem add_own_header (config : IdConfig) (counter : RPCID) {m : HTTPMessage} {name value : Bytes}
    (hreadable : Readable m.ids.rpc.type name value)
    (hcount : m.req_headers.count < maxHeaderFieldNumber) (hname : name.length < maxHeaderFieldSize)
    (hvalue : value.length < maxHeaderFieldSize) :
    ∃ ids req_headers counter', m.add_header_field config counter name value true false
        = .ok ({ m with ids := ids, req_headers := req_headers }, counter')
      ∧ SameStream m.ids.rpc ids.rpc ∧ req_headers.count ≤ m.req_headers.count + 1 := by
  obtain ⟨f, counter', hread⟩ := hreadable.read config counter m.ids.fields
  obtain ⟨ids, req_headers, hstore, _⟩ := store_ok hread fun _ => ⟨hcount, hname, hvalue⟩
  obtain ⟨hstream, hcount', _⟩ := store_stream hstore
  rw [Message.add_http_header_eq, hstore]
  exact ⟨ids, req_headers, counter', rfl, hstream, hcount'⟩

/-- The two headers that an admitted request gets can be added to any that came from a client. -/
theorem add_ingress_headers (config : IdConfig) (counter : RPCID) (ingress : Ingress n)
    {m : HTTPMessage} (hcount : m.req_headers.count + 2 ≤ maxHeaderFieldNumber) :
    ∃ m₁ counter₁ m₂ counter₂,
      ingress.add_rpc_id_header config counter m
          = .ok (m₁, counter₁, { ingress with last_rpc_id := ingress.last_rpc_id + 1 })
        ∧ ({ ingress with last_rpc_id := ingress.last_rpc_id + 1 } : Ingress n).add_priority_header
          config counter₁ m₁
          = .ok (m₂, counter₂) := by
  -- both numbers are written and read back by the sidecar itself
  have hid := Ingress.stoll_header_value (z := (ingress.last_rpc_id + 1).toInt)
    (BitVec.le_toInt _) (Int.le_sub_one_of_lt (BitVec.toInt_lt (x := ingress.last_rpc_id + 1)))
  have hpriority := Ingress.stoll_header_value (z := ingress.priority.toInt)
    (by have := BitVec.le_toInt ingress.priority; omega)
      (by have := BitVec.toInt_lt (x := ingress.priority); omega)
  have hlength (z : ℤ) : (Ingress.header_value z).length < maxHeaderFieldSize :=
    Nat.lt_of_le_of_lt (Ingress.length_header_value z) (by decide)
  have hreadid (type : ConnectionType) :
      Readable type (RPC_ID ++ [0]) (Ingress.header_value (ingress.last_rpc_id + 1).toInt) :=
    ⟨fun _ => ⟨_, hid⟩, fun h => absurd h (by decide), fun h => absurd h (by decide)⟩
  have hreadpriority (type : ConnectionType) :
      Readable type (PRIORITY ++ [0]) (Ingress.header_value ingress.priority.toInt) :=
    ⟨fun h => absurd h (by decide), fun h => absurd h (by decide), fun _ => ⟨_, hpriority⟩⟩
  obtain ⟨ids₁, headers₁, counter₁, hfirst, _, hcount₁⟩ := add_own_header config counter (m := m)
    (hreadid _) (by omega) (by decide) (hlength _)
  -- the second header, into a list that is one longer
  obtain ⟨ids₂, headers₂, counter₂, hsecond, _⟩ := add_own_header config counter₁
    (m := { m with ids := ids₁, req_headers := headers₁ }) (hreadpriority _)
      (by dsimp only; omega) (by decide) (hlength _)
  refine ⟨_, counter₁, _, counter₂, ?_, hsecond⟩
  unfold Ingress.add_rpc_id_header
  dsimp only
  rw [hfirst]
  rfl

/-- **`Ingress::enqueue`** takes every request that came from a client, unless the id for a drop is
in use. -/
theorem ingress_enqueue_iff (config : IdConfig) {w : HttpWorker n} {rpc : Fin n}
    (hkind : (w.rpc_mapper.heap rpc).http = .HTTP1)
    (hservice : (w.rpc_mapper.heap rpc).service = w.ingress.ingress_service)
    (hds : w.rpc_mapper.find_ds
      (.EGRESS, (w.rpc_mapper.heap rpc).ds_fd, (w.rpc_mapper.heap rpc).ds_stream_id) = some rpc)
    (hcount : (w.http rpc).req_headers.count + 2 ≤ maxHeaderFieldNumber) :
    (∃ w', w.ingress_enqueue config rpc = .ok w')
      ↔ (w.ingress.ingress_size_cap ≤ w.ingress.queue.length
          → w.rpc_mapper.find_id (.EGRESS, w.next_drop_id) = none) := by
  unfold ingress_enqueue
  rw [if_neg (not_not.mpr hservice)]
  by_cases hfull : w.ingress.ingress_size_cap ≤ w.ingress.queue.length
  · rw [if_pos hfull, drop_rpc_iff hkind hservice hds]
    exact ⟨fun h _ => h, fun h => h hfull⟩
  · rw [if_neg hfull]
    refine ⟨fun _ h => absurd h hfull, fun _ => ?_⟩
    obtain ⟨m₁, counter₁, m₂, counter₂, hfirst, hsecond⟩ :=
      add_ingress_headers config w.local_id_counter w.ingress (m := w.message rpc) hcount
    rw [hfirst, ok_bind]
    dsimp only
    rw [hsecond]
    exact ⟨_, rfl⟩

theorem ingress_enqueue_spec {config : IdConfig} {w w' : HttpWorker n} {rpc : Fin n}
    (h : w.ingress_enqueue config rpc = .ok w') : (w.Queued rpc w' ∨ w.Declined rpc w')
      ∧ w.Leaves rpc w' := by
  unfold ingress_enqueue at h
  split_ifs at h with hservice hfull
  · obtain ⟨hdeclined, hleaves⟩ := drop_rpc_spec h hfull
    exact ⟨.inr hdeclined, hleaves⟩
  · obtain ⟨⟨m₁, counter₁, ingress⟩, hfirst, h⟩ := bind_eq_ok.mp h
    obtain ⟨⟨m₂, counter₂⟩, _, h⟩ := bind_eq_ok.mp h
    obtain rfl := Except.ok.inj h
    unfold Ingress.add_rpc_id_header at hfirst
    obtain ⟨_, _, hfirst⟩ := bind_eq_ok.mp hfirst
    obtain ⟨_, hrest⟩ := Prod.mk.inj (Except.ok.inj hfirst)
    obtain ⟨_, rfl⟩ := Prod.mk.inj hrest
    refine ⟨.inl ⟨by omega, rfl, rfl, rfl⟩, rfl, rfl, fun a ha => ?_⟩
    unfold HttpCalls.set_message RPCMapper.modify
    dsimp only
    rw [Function.update_of_ne ha, Function.update_of_ne ha]
    exact ⟨rfl, rfl⟩

end HttpWorker

/-! ## Requests that can be served -/

namespace HTTP1Connection

/-- What a request needs to become an RPC that is queued or dropped. -/
structure Acceptable (c : HTTP1Connection n) (w : HttpWorker n) (r : PicoHttp.Request) : Prop where
  /-- No line continues the one before. -/
  names : ∀ h ∈ r.headers, h.name ≠ none
  readable : ∀ h ∈ r.headers, Readable .EGRESS (headerName h.name) h.value
  size : ∀ h ∈ requestTexts .EGRESS r.headers, h.1.length < maxHeaderFieldSize
    ∧ h.2.length < maxHeaderFieldSize
  idle : c.idle = true
  next : c.last_id + 1 < 2 ^ 31
  pool : w.rpc_mapper.http_pool ≠ []
  new : w.rpc_mapper.find_ds (.EGRESS, c.fd, c.last_id + 1) = none
  drop : w.ingress.ingress_size_cap ≤ w.ingress.queue.length →
    w.rpc_mapper.find_id (.EGRESS, w.next_drop_id) = none

/-- One RPC of the pool is that of the request now, and is queued or dropped. -/
structure Taken (c : HTTP1Connection n) (w : HttpWorker n) (rpc : Fin n)
    (w' : HttpWorker n) : Prop where
  pool : w.rpc_mapper.http_pool = rpc :: w'.rpc_mapper.http_pool
  find_ds : w'.rpc_mapper.find_ds = Function.update w.rpc_mapper.find_ds
    (.EGRESS, c.fd, c.last_id + 1) (some rpc)
  others : ∀ a, a ≠ rpc → w'.http a = w.http a ∧ w'.rpc_mapper.heap a = w.rpc_mapper.heap a
  outcome : w.Queued rpc w' ∨ w.Declined rpc w'

/-- The request with its headers, before it is given to the queue. -/
structure Allocated (c : HTTP1Connection n) (w : HttpWorker n) (r : PicoHttp.Request) (rpc : Fin n)
    (w' : HttpWorker n) : Prop where
  pool : w.rpc_mapper.http_pool = rpc :: w'.rpc_mapper.http_pool
  find_ds : w'.rpc_mapper.find_ds = Function.update w.rpc_mapper.find_ds
    (c.type, c.fd, c.last_id + 1) (some rpc)
  find_id : w'.rpc_mapper.find_id = w.rpc_mapper.find_id
  others : ∀ a, a ≠ rpc → w'.http a = w.http a ∧ w'.rpc_mapper.heap a = w.rpc_mapper.heap a
  kind : (w'.rpc_mapper.heap rpc).http = (w.rpc_mapper.heap rpc).http
  type : (w'.rpc_mapper.heap rpc).type = c.type
  ds_fd : (w'.rpc_mapper.heap rpc).ds_fd = c.fd
  ds_stream_id : (w'.rpc_mapper.heap rpc).ds_stream_id = c.last_id + 1
  returns : (w'.rpc_mapper.heap rpc).credit_return_queue
    = (w.rpc_mapper.heap rpc).credit_return_queue
  service : some (w'.rpc_mapper.heap rpc).service
    = HTTPMessage.parse_service_from_request_target r.path
  count : (w'.http rpc).req_headers.count ≤ (w.http rpc).req_headers.count + r.headers.length
  method : (w'.http rpc).method = r.method
  path : (w'.http rpc).path = r.path
  minor : (w'.http rpc).minor = r.minor
  headers : (w'.http rpc).req_headers.text = (w.http rpc).req_headers.text
    ++ requestTexts c.type r.headers
  ingress : w'.ingress = w.ingress
  rpc_queue : w'.rpc_queue = w.rpc_queue

/-- The first half of `accept_request`: from the allocation of the RPC to the last field that the
head fills in. -/
def make_rpc (config : HttpConfig) (c : HTTP1Connection n) (w : HttpWorker n)
    (r : PicoHttp.Request) :
    Except Abort (Fin n × HTTP1Connection n × HttpWorker n) := do
  let last_id ← c.next_id
  let c := { c with last_id := last_id }
  -- the stream of the request on this connection is its number
  let rpc_mapper ← w.rpc_mapper.allocate_rpc c.type c.last_id c.fd .HTTP1
  let w := { w with rpc_mapper := rpc_mapper }
  let rpc ← w.rpc_mapper.get_ds_rpc c.type c.last_id c.fd
  let (m, counter) ← add_request_headers config.ids r.headers (w.message rpc) w.local_id_counter
  let m := { m with method := r.method }
  -- an error here has been looked for before, on the ingress edge
  let m ← m.set_service r.path
  let m := { m with path := r.path, minor := r.minor }
  .ok (rpc, c, { w with toHttpCalls := w.set_message rpc m, local_id_counter := counter })

/-- The second half: the RPC goes to the queue of its role, and the connection is busy. -/
def give_rpc (config : HttpConfig) (x : Fin n × HTTP1Connection n × HttpWorker n) :
    Except Abort (HTTP1Connection n × HttpWorker n) := do
  let (rpc, c, w) := x
  let w ←
    if config.is_frontend then
      .ok { w with toHttpCalls := w.enqueue c.type c.direction c.fd c.last_id }
    else if config.ids.is_ingress then
      -- the clients of an edge connect to its listener for `EGRESS`
      if c.type = .INGRESS then .error .wrongEdge else w.ingress_enqueue config.ids rpc
    else .error .wrongEdge
  if c.idle then .ok (c.reset false, w) else .error .wrongIdle

theorem accept_request_eq (config : HttpConfig) (c : HTTP1Connection n)
    (w : HttpWorker n) (r : PicoHttp.Request) :
    c.accept_request config w r = c.make_rpc config w r >>= give_rpc config := by
  unfold accept_request make_rpc give_rpc
  simp only [bind_assoc]
  rfl

/-- **A request that became an RPC** could, and the RPC is in the downstream map, with the service
of the target. -/
theorem make_rpc_spec {config : HttpConfig} {c c' : HTTP1Connection n}
    {w w' : HttpWorker n} {r : PicoHttp.Request} {rpc : Fin n}
    (h : c.make_rpc config w r = .ok (rpc, c', w')) :
    c' = { c with last_id := c.last_id + 1 } ∧ c.last_id + 1 < 2 ^ 31
      ∧ w.rpc_mapper.find_ds (c.type, c.fd, c.last_id + 1) = none
      ∧ (∀ h ∈ r.headers, h.name ≠ none)
      ∧ (∀ h ∈ r.headers, Readable c.type (headerName h.name) h.value)
      ∧ (∀ h ∈ requestTexts c.type r.headers, h.1.length < maxHeaderFieldSize
        ∧ h.2.length < maxHeaderFieldSize)
      ∧ c.Allocated w r rpc w' := by
  unfold make_rpc at h
  obtain ⟨last_id, hnext, h⟩ := bind_eq_ok.mp h
  unfold next_id at hnext
  split_ifs at hnext with hlimit
  obtain rfl := Except.ok.inj hnext
  dsimp only at h
  -- the object comes from the pool, and carries the stream of the request
  obtain ⟨m₁, hallocate, h⟩ := bind_eq_ok.mp h
  obtain ⟨rpc', m₀, hget, hnew, hds, -, hid, hheap, hpool, -⟩ :=
    RPCMapper.allocate_rpc_spec hallocate
  obtain ⟨-, -, -, hheap₀, -, -, -⟩ := RPCMapper.get_rpc_spec hget
  obtain ⟨rpc'', hfound, h⟩ := bind_eq_ok.mp h
  rw [RPCMapper.get_ds_rpc_eq_ok, hds, Function.update_self] at hfound
  obtain rfl := Option.some.inj hfound
  obtain ⟨⟨m, counter⟩, hheaders, h⟩ := bind_eq_ok.mp h
  -- what the headers have written, with what had to be so for it
  obtain ⟨hnames, hreadable, hsize, hstream, hcount, htext⟩ := add_request_headers_spec hheaders
  dsimp only at h
  obtain ⟨m', hservice, h⟩ := bind_eq_ok.mp h
  unfold HTTPMessage.set_service at hservice
  split at hservice
  · cases hservice
  rename_i service htarget
  obtain rfl := Except.ok.inj hservice
  cases h
  unfold HttpCalls.message at hreadable hsize hstream hcount htext
  dsimp only at hreadable hsize hstream hcount htext
  -- the object as the registry hands it out
  have hobject : m₁.heap rpc
      = { w.rpc_mapper.heap rpc with ds_fd := c.fd, ds_stream_id := c.last_id + 1,
                                     type := c.type } := by
    rw [hheap, hheap₀, Function.update_self]
  rw [hobject] at hreadable hsize hstream htext
  refine ⟨rfl, hlimit, hnew, hnames, hreadable, hsize, ?_⟩
  unfold HttpCalls.set_message RPCMapper.modify
  exact
    { pool := (RPCMapper.get_rpc_http1 hget).trans (by rw [hpool])
      find_ds := hds
      find_id := hid
      others := by
        intro a ha
        dsimp only
        rw [Function.update_of_ne ha, Function.update_of_ne ha, hheap,
          hheap₀, Function.update_of_ne ha]
        exact ⟨rfl, rfl⟩
      kind := by
        dsimp only
        rw [Function.update_self]
        exact hstream.http
      type := by
        dsimp only
        rw [Function.update_self]
        exact hstream.type
      ds_fd := by
        dsimp only
        rw [Function.update_self]
        exact hstream.ds_fd
      ds_stream_id := by
        dsimp only
        rw [Function.update_self]
        exact hstream.ds_stream_id
      returns := by
        dsimp only
        rw [Function.update_self]
        exact hstream.returns
      service := by
        dsimp only
        rw [Function.update_self, htarget]
      count := by
        dsimp only
        rw [Function.update_self]
        exact hcount
      method := by
        dsimp only
        rw [Function.update_self]
      path := by
        dsimp only
        rw [Function.update_self]
      minor := by
        dsimp only
        rw [Function.update_self]
      headers := by
        dsimp only
        rw [Function.update_self]
        exact htext
      ingress := rfl
      rpc_queue := rfl }

/-- A request that can be served becomes an RPC. Each hypothesis is one of the places at which the
source would abort. -/
theorem make_rpc_exists (config : HttpConfig) {c : HTTP1Connection n} {w : HttpWorker n}
    {r : PicoHttp.Request} {service : Bytes} (hpooled : w.Pooled)
    (hcount : r.headers.length ≤ maxHeaderFieldNumber)
    (htarget : HTTPMessage.parse_service_from_request_target r.path = some service)
    (hnext : c.last_id + 1 < 2 ^ 31) (hpool : w.rpc_mapper.http_pool ≠ [])
    (hnew : w.rpc_mapper.find_ds (c.type, c.fd, c.last_id + 1) = none)
    (hnames : ∀ h ∈ r.headers, h.name ≠ none)
    (hreadable : ∀ h ∈ r.headers, Readable c.type (headerName h.name) h.value)
    (hsize : ∀ h ∈ requestTexts c.type r.headers,
      h.1.length < maxHeaderFieldSize ∧ h.2.length < maxHeaderFieldSize) :
    ∃ x, c.make_rpc config w r = .ok x := by
  obtain ⟨m₁, hallocate⟩ := RPCMapper.allocate_rpc_exists hpool hnew
  obtain ⟨rpc, m₀, hget, -, hds, -, -, hheap, -, -⟩ := RPCMapper.allocate_rpc_spec hallocate
  obtain ⟨-, hmem, -, hheap₀, -, -, -⟩ := RPCMapper.get_rpc_spec hget
  -- what was just allocated is found
  have hfound : m₁.get_ds_rpc c.type (c.last_id + 1) c.fd = .ok rpc := by
    rw [RPCMapper.get_ds_rpc_eq_ok, hds, Function.update_self]
  have htype : (m₁.heap rpc).type = c.type := by rw [hheap, hheap₀, Function.update_self]
  obtain ⟨ids, req_headers, counter', hheaders, -⟩ :=
    add_request_headers_ok config.ids (m := { w.http rpc with ids.rpc := m₁.heap rpc })
      w.local_id_counter hnames
      (by dsimp only; rw [htype]; exact hreadable) (by dsimp only; rw [htype]; exact hsize)
      (by dsimp only; rw [hpooled.blank rpc hmem,
        Nat.zero_add]; exact (length_requestTexts _ _).trans hcount)
  -- every step of it succeeds by what was collected
  unfold make_rpc next_id
  rw [if_pos hnext, ok_bind]
  dsimp only
  rw [hallocate, ok_bind, hfound, ok_bind]
  unfold HttpCalls.message
  dsimp only
  rw [hheaders, ok_bind]
  unfold HTTPMessage.set_service
  dsimp only
  rw [htarget]
  exact ⟨_, rfl⟩

section Edge

variable {config : HttpConfig} {c : HTTP1Connection n} {w : HttpWorker n} {r : PicoHttp.Request}

/-- Whatever RPC was made, the queue takes it unless the id for a drop is in use. -/
theorem enqueue_made {rpc : Fin n} {c₁ : HTTP1Connection n} {w₁ : HttpWorker n}
    (htype : c.type = .EGRESS) (hpooled : w.Pooled) (hcount : r.headers.length ≤ http1MaxHeaders)
    (htarget : HTTPMessage.parse_service_from_request_target r.path
      = some w.ingress.ingress_service)
    (hmake : c.make_rpc config w r = .ok (rpc, c₁, w₁)) :
    (∃ w₂, w₁.ingress_enqueue config.ids rpc = .ok w₂)
      ↔ (w.ingress.ingress_size_cap ≤ w.ingress.queue.length
        → w.rpc_mapper.find_id (.EGRESS, w.next_drop_id) = none) := by
  obtain ⟨-, -, -, -, -, -, hallocated⟩ := make_rpc_spec hmake
  have hmem : rpc ∈ w.rpc_mapper.http_pool := by
    rw [hallocated.pool]
    exact List.mem_cons_self
  have hservice : (w₁.rpc_mapper.heap rpc).service = w₁.ingress.ingress_service := by
    rw [hallocated.ingress]
    exact Option.some.inj (hallocated.service.trans htarget)
  have hds : w₁.rpc_mapper.find_ds
      (.EGRESS, (w₁.rpc_mapper.heap rpc).ds_fd, (w₁.rpc_mapper.heap rpc).ds_stream_id)
        = some rpc := by
    rw [hallocated.ds_fd, hallocated.ds_stream_id, hallocated.find_ds, htype, Function.update_self]
  -- the parser finds ten headers at most, so there is room for two more
  have hroom : (w₁.http rpc).req_headers.count + 2 ≤ maxHeaderFieldNumber := by
    have hle := hallocated.count
    rw [hpooled.blank rpc hmem] at hle
    unfold http1MaxHeaders at hcount
    unfold maxHeaderFieldNumber
    omega
  have hiff := HttpWorker.ingress_enqueue_iff config.ids
    (hallocated.kind.trans (hpooled.kind rpc hmem)) hservice hds hroom
  unfold HttpWorker.next_drop_id at hiff ⊢
  rw [hallocated.ingress, hallocated.find_id] at hiff
  exact hiff

theorem taken_of_enqueue {rpc : Fin n} {c₁ : HTTP1Connection n} {w₁ w₂ : HttpWorker n}
    (htype : c.type = .EGRESS) (hmake : c.make_rpc config w r = .ok (rpc, c₁, w₁))
    (henqueue : w₁.ingress_enqueue config.ids rpc = .ok w₂) :
    c.Taken w rpc w₂ := by
  obtain ⟨-, -, -, -, -, -, hallocated⟩ := make_rpc_spec hmake
  obtain ⟨houtcome, hleaves⟩ := HttpWorker.ingress_enqueue_spec henqueue
  refine ⟨hallocated.pool.trans (by rw [hleaves.http_pool]), ?_, ?_, ?_⟩
  · rw [hleaves.find_ds, hallocated.find_ds, htype]
  · intro a ha
    exact ⟨(hleaves.others a ha).1.trans (hallocated.others a ha).1,
      (hleaves.others a ha).2.trans (hallocated.others a ha).2⟩
  have hingress := hallocated.ingress
  -- queued, or declined with a 503: in both cases from the object as it was allocated
  rcases houtcome with hqueued | hdeclined
  · refine .inl ⟨?_, ?_, ?_, hqueued.rpc_queue.trans hallocated.rpc_queue⟩
    · rw [← hingress]
      exact hqueued.room
    · rw [← hingress]
      exact hqueued.queue
    · rw [← hingress]
      exact hqueued.last_rpc_id
  · refine .inr ⟨?_, ?_, ?_, hdeclined.status, hdeclined.error, ?_⟩
    · rw [← hingress]
      exact hdeclined.full
    · rw [← hingress]
      exact hdeclined.queue
    · rw [← hingress]
      exact hdeclined.drop_id
    · rw [hdeclined.rpc_queue, hingress]
      unfold HttpCalls.enqueue HttpCalls.set_queue
      rw [hallocated.rpc_queue]

/-- The second half of `accept_request`, on the sidecar of the ingress, where only the admission is
left of it. -/
theorem give_rpc_edge (hedge : config.ids.is_ingress = true)
    (hrole : config.is_frontend = false) {rpc : Fin n} {c₁ : HTTP1Connection n}
    (htype : c₁.type = .EGRESS) (w₁ : HttpWorker n) :
    give_rpc config (rpc, c₁, w₁) = (do
      let w ← w₁.ingress_enqueue config.ids rpc
      if c₁.idle then .ok (c₁.reset false, w) else .error .wrongIdle) := by
  unfold give_rpc
  dsimp only
  rw [if_neg (by rw [hrole]; exact Bool.false_ne_true), if_pos hedge,
    if_neg (by rw [htype]; exact ConnectionType.noConfusion)]

/-- **A request becomes an RPC exactly if it is acceptable.** The two halves are put together
here. -/
theorem accept_request_iff (hedge : config.ids.is_ingress = true)
    (hrole : config.is_frontend = false) (htype : c.type = .EGRESS) (hpooled : w.Pooled)
    (hcount : r.headers.length ≤ http1MaxHeaders)
    (htarget : HTTPMessage.parse_service_from_request_target r.path
      = some w.ingress.ingress_service) :
    (∃ x, c.accept_request config w r = .ok x) ↔ c.Acceptable w r := by
  rw [accept_request_eq]
  constructor
  · -- what was accepted has passed each check on the way
    rintro ⟨x, h⟩
    obtain ⟨⟨rpc, c₁, w₁⟩, hmake, h⟩ := bind_eq_ok.mp h
    obtain ⟨rfl, hnext, hnew, hnames, hreadable, hsize, hallocated⟩ := make_rpc_spec hmake
    rw [htype] at hnew hreadable hsize
    rw [give_rpc_edge hedge hrole (by exact htype)] at h
    obtain ⟨w₂, henqueue, h⟩ := bind_eq_ok.mp h
    split_ifs at h with hidle
    refine ⟨hnames, hreadable, hsize, hidle, hnext, ?_, hnew,
      (enqueue_made htype hpooled hcount htarget hmake).mp ⟨w₂, henqueue⟩⟩
    rw [hallocated.pool]
    exact List.cons_ne_nil _ _
  · intro h
    obtain ⟨⟨rpc, c₁, w₁⟩, hmake⟩ := make_rpc_exists config hpooled (hcount.trans (by decide))
      htarget h.next h.pool (by rw [htype]; exact h.new) h.names
      (by rw [htype]; exact h.readable) (by rw [htype]; exact h.size)
    obtain ⟨rfl, -⟩ := make_rpc_spec hmake
    obtain ⟨w₂, henqueue⟩ := (enqueue_made htype hpooled hcount htarget hmake).mpr h.drop
    rw [hmake, ok_bind, give_rpc_edge hedge hrole (by exact htype), henqueue,
      ok_bind, if_pos (by exact h.idle)]
    exact ⟨_, rfl⟩

theorem accept_request_taken (hedge : config.ids.is_ingress = true)
    (hrole : config.is_frontend = false) (htype : c.type = .EGRESS) {c' : HTTP1Connection n}
    {w' : HttpWorker n} (h : c.accept_request config w r = .ok (c', w')) :
    c' = ({ c with last_id := c.last_id + 1 } : HTTP1Connection n).reset false
      ∧ ∃ rpc, c.Taken w rpc w' := by
  rw [accept_request_eq] at h
  obtain ⟨⟨rpc, c₁, w₁⟩, hmake, h⟩ := bind_eq_ok.mp h
  obtain ⟨rfl, -⟩ := make_rpc_spec hmake
  rw [give_rpc_edge hedge hrole (by exact htype)] at h
  obtain ⟨w₂, henqueue, h⟩ := bind_eq_ok.mp h
  split_ifs at h
  obtain ⟨rfl, rfl⟩ := Prod.mk.inj (Except.ok.inj h)
  exact ⟨rfl, rpc, taken_of_enqueue htype hmake henqueue⟩

/-- Whoever the RPC is for, no other is touched by the second half. -/
theorem give_rpc_leaves {rpc : Fin n} {c₁ c' : HTTP1Connection n} {w₁ w' : HttpWorker n}
    (h : give_rpc config (rpc, c₁, w₁) = .ok (c', w')) :
    c' = c₁.reset false ∧ w₁.Leaves rpc w' := by
  unfold give_rpc at h
  dsimp only at h
  by_cases hrole : config.is_frontend = true
  · rw [if_pos hrole, ok_bind] at h
    split_ifs at h
    obtain ⟨rfl, rfl⟩ := Prod.mk.inj (Except.ok.inj h)
    exact ⟨rfl, rfl, rfl, fun _ _ => ⟨rfl, rfl⟩⟩
  rw [if_neg hrole] at h
  by_cases hedge : config.ids.is_ingress = true
  · rw [if_pos hedge] at h
    by_cases htype : c₁.type = .INGRESS
    · rw [if_pos htype] at h
      cases h
    rw [if_neg htype] at h
    obtain ⟨w₂, henqueue, h⟩ := bind_eq_ok.mp h
    split_ifs at h
    obtain ⟨rfl, rfl⟩ := Prod.mk.inj (Except.ok.inj h)
    exact ⟨rfl, (HttpWorker.ingress_enqueue_spec henqueue).2⟩
  · rw [if_neg hedge] at h
    cases h

/-- What is left in the pool is as it was, so the next request finds a message like this one
did. -/
theorem accept_request_pooled (hpooled : w.Pooled) {c' : HTTP1Connection n} {w' : HttpWorker n}
    (h : c.accept_request config w r = .ok (c', w')) :
    c' = ({ c with last_id := c.last_id + 1 } : HTTP1Connection n).reset false ∧ w'.Pooled := by
  rw [accept_request_eq] at h
  obtain ⟨⟨rpc, c₁, w₁⟩, hmake, h⟩ := bind_eq_ok.mp h
  obtain ⟨rfl, -, -, -, -, -, hallocated⟩ := make_rpc_spec hmake
  obtain ⟨rfl, hleaves⟩ := give_rpc_leaves h
  have hpool : w.rpc_mapper.http_pool = rpc :: w'.rpc_mapper.http_pool :=
    hallocated.pool.trans (by rw [hleaves.http_pool])
  have hnodup := hpooled.nodup
  rw [hpool, List.nodup_cons] at hnodup
  -- the objects that are still in the pool are none of those that were touched
  have hsame : ∀ a ∈ w'.rpc_mapper.http_pool, a ∈ w.rpc_mapper.http_pool
      ∧ w'.http a = w.http a ∧ w'.rpc_mapper.heap a = w.rpc_mapper.heap a := by
    intro a ha
    have hne : a ≠ rpc := by
      rintro rfl
      exact hnodup.1 ha
    refine ⟨?_, (hleaves.others a hne).1.trans (hallocated.others a hne).1,
      (hleaves.others a hne).2.trans (hallocated.others a hne).2⟩
    rw [hpool]
    exact List.mem_cons_of_mem _ ha
  refine ⟨rfl, hnodup.2, fun a ha => ?_, fun a ha => ?_⟩
  · rw [(hsame a ha).2.2]
    exact hpooled.kind a (hsame a ha).1
  · rw [(hsame a ha).2.1]
    exact hpooled.blank a (hsame a ha).1

end Edge

/-! ## Reads of a client -/

/-- The states between the reads of a connection that a client opened. Elsewhere in the worker
anything may happen meanwhile that puts objects into the pool as `clear` leaves them, and the
response to the request may be written. -/
inductive Reached (parser : HttpParser) (config : HttpConfig) (c₀ : HTTP1Connection n) :
    HTTP1Connection n → HttpWorker n → Prop
  | opened (w : HttpWorker n) (hpooled : w.Pooled) : Reached parser config c₀ c₀ w
  | read {c c' : HTTP1Connection n} {w w' : HttpWorker n} {d : Bytes}
      (hbefore : Reached parser config c₀ c w)
      (hd : d ≠ []) (hfits : c.buf.length + d.length ≤ http1BufSize)
      (hread : c.http_read parser config d w = .ok (.returned c' w')) : Reached
        parser config c₀ c' w'
  | elsewhere {c : HTTP1Connection n} {w : HttpWorker n}
      (hbefore : Reached parser config c₀ c w) (idle : Bool)
      (w' : HttpWorker n) (hpooled : w'.Pooled) : Reached parser config
        c₀ { c with idle := idle } w'

section Reads

variable {parser : HttpParser} {config : HttpConfig} {c₀ c : HTTP1Connection n} {w : HttpWorker n}

/-- **One read keeps** what is known of the connection between reads, as long as it is not thrown
over. -/
theorem read_keeps {c' : HTTP1Connection n} {w' : HttpWorker n} {d : Bytes}
    (hdirection : c.direction = .DOWNSTREAM) (hcontent : c.content_length = -1)
    (hpooled : w.Pooled) (hd : d ≠ []) (hfits : c.buf.length + d.length ≤ http1BufSize)
    (hread : c.http_read parser config d w = .ok (.returned c' w')) :
    c'.direction = c.direction ∧ c'.type = c.type ∧ c'.content_length = -1 ∧ w'.Pooled := by
  rw [http_read_downstream parser config w hdirection hd hfits] at hread
  unfold read_request at hread
  dsimp only at hread
  split at hread
  · obtain ⟨rfl, rfl⟩ := HttpRead.returned.inj (Except.ok.inj hread)
    exact ⟨rfl, rfl, hcontent, hpooled⟩
  · split_ifs at hread
    cases hread
  · obtain ⟨number, -, hread⟩ := bind_eq_ok.mp hread
    split_ifs at hread
    · cases hread
    · cases hread
    obtain ⟨⟨c₁, w₁⟩, haccept, hread⟩ := bind_eq_ok.mp hread
    obtain ⟨rfl, rfl⟩ := HttpRead.returned.inj (Except.ok.inj hread)
    obtain ⟨rfl, hpooled'⟩ := accept_request_pooled hpooled haccept
    exact ⟨rfl, rfl, rfl, hpooled'⟩

theorem reached_keeps (hdirection : c₀.direction = .DOWNSTREAM) (hclean : c₀ = c₀.reset true)
    (hreached : Reached parser config c₀ c w) :
    c.direction = .DOWNSTREAM ∧ c.type = c₀.type ∧ c.content_length = -1 ∧ w.Pooled := by
  induction hreached with
  | opened w hpooled =>
    exact ⟨hdirection, rfl, congrArg HTTP1Connection.content_length hclean, hpooled⟩
  | read _ hd hfits hread ih =>
      obtain ⟨hdirection', htype, hcontent, hpooled⟩ := ih
      obtain ⟨hdirection'', htype', hcontent', hpooled'⟩ :=
        read_keeps hdirection' hcontent hpooled hd hfits hread
      exact ⟨hdirection''.trans hdirection', htype'.trans htype, hcontent', hpooled'⟩
  | elsewhere _ idle w' hpooled ih => exact ⟨ih.1, ih.2.1, ih.2.2.1, hpooled⟩

/-- The service of a request that is not thrown is the one of the worker. -/
theorem target_of_served {path : Bytes} (h : refused_target w path = false) :
    HTTPMessage.parse_service_from_request_target path = some w.ingress.ingress_service := by
  unfold refused_target at h
  split at h
  · cases h
  · rename_i seg hseg
    rw [hseg, not_not.mp (of_decide_eq_false h)]

/-- On a sidecar that is that of a frontend as well, the request does not get to the ingress
queue. -/
theorem accept_request_frontend {r : PicoHttp.Request} (hrole : config.is_frontend = true)
    {c' : HTTP1Connection n} {w' : HttpWorker n} (h : c.accept_request config w r = .ok (c', w')) :
    w'.ingress = w.ingress := by
  rw [accept_request_eq] at h
  obtain ⟨⟨rpc, c₁, w₁⟩, hmake, h⟩ := bind_eq_ok.mp h
  obtain ⟨rfl, -, -, -, -, -, hallocated⟩ := make_rpc_spec hmake
  unfold give_rpc at h
  dsimp only at h
  rw [if_pos hrole, ok_bind] at h
  split_ifs at h
  obtain ⟨rfl, rfl⟩ := Prod.mk.inj (Except.ok.inj h)
  exact hallocated.ingress

/-- The bytes in the buffer say nothing of what becomes of a request. -/
theorem Taken.of_fill {d : Bytes} {rpc : Fin n} {w' : HttpWorker n}
    (h : (c.fill d).Taken w rpc w') :
    c.Taken w rpc w' := ⟨h.pool, h.find_ds, h.others, h.outcome⟩

/-- Nor of whether it is acceptable: this asks for nothing in the buffer. -/
theorem fill_acceptable {r : PicoHttp.Request} (d : Bytes) : (c.fill d).Acceptable w r
    ↔ c.Acceptable w r := by
  constructor
  · rintro ⟨hnames, hreadable, hsize, hidle, hnext, hpool, hnew, hdrop⟩
    exact ⟨hnames, hreadable, hsize, hidle, hnext, hpool, hnew, hdrop⟩
  · rintro ⟨hnames, hreadable, hsize, hidle, hnext, hpool, hnew, hdrop⟩
    exact ⟨hnames, hreadable, hsize, hidle, hnext, hpool, hnew, hdrop⟩

end Reads

/-! ### A request that is served, and one that ends the process -/

/-- The parser of the repository does not find more headers than it is asked for. -/
theorem pico_headers_le {buf : Bytes} {max_headers last_len : ℕ}
    {r : PicoHttp.Request} {hdr_size : ℕ}
    (h : HttpParser.pico.phr_parse_request buf max_headers last_len = .ok (r, hdr_size)) :
    r.headers.length ≤ max_headers := by
  obtain ⟨rest, hparse, _⟩ := PicoHttp.phr_parse_request_ok h
  exact (PicoHttp.parse_request_ok hparse).2.2.2.1

/-- A worker of the ingress of the service "s", with one HTTP/1 object. -/
def edgeWorker : HttpWorker 1 := { worker false with ingress := .init 0 1 [115] }

theorem edgeWorker_pooled : edgeWorker.Pooled where
  nodup := by decide
  kind := by decide +kernel
  blank := fun _ _ => rfl

end HTTP1Connection

end RlpSidecar
