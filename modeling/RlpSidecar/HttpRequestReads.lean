/-
**HTTP/1 requests in pieces** (`connection.cc`, `HTTP1Connection::http_read`), on the sidecar of a
frontend.

A request has no body, so the bytes are collected up to the end of the head, and the last read
makes an RPC of it. A header whose name starts with `Content-Length` is refused, however long the
body is that it announces.

`accept_request_ok` is the other half, what the last read does: the headers are added to a new
object, the target names the service, and the RPC is queued. `http_read_any_division` states both
directions of a connection together, responses from the module before and requests from this one.
-/
import RlpSidecar.HeaderNames
import RlpSidecar.HttpReads

set_option autoImplicit false

namespace RlpSidecar

variable {n : ℕ}

/-! ## Requests that are accepted -/

/-- A header that the sidecar looks at has a value that it can read. -/
structure Readable (type : ConnectionType) (name value : Bytes) : Prop where
  rpc_id : RPC_ID <+: name → ∃ z, stoll value = .ok z
  rpc_local_id : RPC_LOCAL_ID <+: name → ∃ z, stoll value = .ok z ∧ match type with
    | .INGRESS => BitVec.ofInt 64 z ≠ -1
    | .EGRESS => 0 < (BitVec.ofInt 64 z).toInt ∧ (BitVec.ofInt 64 z).toInt ≤ 2 ^ 32 - 1
  priority : PRIORITY <+: name → ∃ z, stoll value = .ok z

/-- What is stored of the headers of a request: all that are not dropped. -/
def requestTexts (type : ConnectionType) (headers : List PicoHttp.phr_header) :
    List (Bytes × Bytes) :=
  (headers.map fun h => (headerName h.name, h.value)).filter fun h => ¬ Dropped type h.1

/-- The headers that are stored of a request, by the first and the others. -/
theorem requestTexts_cons (type : ConnectionType) (h : PicoHttp.phr_header)
    (headers : List PicoHttp.phr_header) :
    requestTexts type (h :: headers)
      = (if Dropped type (headerName h.name) then [] else [(headerName h.name, h.value)])
        ++ requestTexts type headers := by
  unfold requestTexts
  rw [List.map_cons, List.filter_cons]
  by_cases hdropped : Dropped type (headerName h.name)
  · rw [if_pos hdropped, decide_eq_false (not_not.mpr hdropped)]
    rfl
  · rw [if_neg hdropped, decide_eq_true hdropped]
    rfl

/-- The request has a target with a service, and headers that a message takes: none that continues
another, and none that speaks of a body. -/
structure WellFormedRequest (type : ConnectionType) (r : PicoHttp.Request) : Prop where
  target : ∃ service, HTTPMessage.parse_service_from_request_target r.path = some service
  no_body : ∀ h ∈ r.headers, ¬ CONTENT_LENGTH <+: headerName h.name
  names : ∀ h ∈ r.headers, h.name ≠ none
  readable : ∀ h ∈ r.headers, Readable type (headerName h.name) h.value
  size : ∀ h ∈ requestTexts type r.headers, h.1.length < maxHeaderFieldSize
    ∧ h.2.length < maxHeaderFieldSize
  count : (requestTexts type r.headers).length ≤ maxHeaderFieldNumber

/-- Whatever the local ids are, the header is read: whether a header can be read depends on its
text and its side. -/
theorem Readable.read {type : ConnectionType} {name value : Bytes} (h : Readable type name value)
    (config : IdConfig) (counter : RPCID) (f : IdFields) :
    ∃ f' counter', IdFields.read config type counter f name value = .ok (f', counter') := by
  unfold IdFields.read
  by_cases hid : RPC_ID <+: name
  · obtain ⟨z, hz⟩ := h.rpc_id hid
    rw [if_pos hid, hz, ok_bind]
    dsimp only
    split_ifs
    · exact ⟨_, _, rfl⟩
    · exact ⟨_, _, rfl⟩
  rw [if_neg hid]
  by_cases hlocal : RPC_LOCAL_ID <+: name
  · obtain ⟨z, hz, hrange⟩ := h.rpc_local_id hlocal
    rw [if_pos hlocal, hz, ok_bind]
    cases type with
    | INGRESS =>
        dsimp only at hrange ⊢
        rw [if_neg hrange]
        exact ⟨_, _, rfl⟩
    | EGRESS =>
        dsimp only at hrange ⊢
        rw [if_neg (by omega)]
        exact ⟨_, _, rfl⟩
  rw [if_neg hlocal]
  by_cases hpriority : PRIORITY <+: name
  · obtain ⟨z, hz⟩ := h.priority hpriority
    rw [if_pos hpriority, hz]
    exact ⟨_, _, rfl⟩
  · rw [if_neg hpriority]
    exact ⟨_, _, rfl⟩

namespace HTTP1Connection

/-- **The headers of a request** are added one after the other. Of the rest of the message, only
the ids change. -/
theorem add_request_headers_ok (config : IdConfig) {headers : List PicoHttp.phr_header}
    {m : HTTPMessage} (counter : RPCID) (hnames : ∀ h ∈ headers, h.name ≠ none)
    (hreadable : ∀ h ∈ headers, Readable m.ids.rpc.type (headerName h.name) h.value)
    (hsize : ∀ h ∈ requestTexts m.ids.rpc.type headers,
      h.1.length < maxHeaderFieldSize ∧ h.2.length < maxHeaderFieldSize)
    (hcount : m.req_headers.count + (requestTexts m.ids.rpc.type headers).length
      ≤ maxHeaderFieldNumber) :
    ∃ ids req_headers counter', add_request_headers config headers m counter
        = .ok ({ m with ids := ids, req_headers := req_headers }, counter')
      ∧ req_headers.text = m.req_headers.text ++ requestTexts m.ids.rpc.type headers := by
  induction headers generalizing m counter with
  | nil => exact ⟨m.ids, m.req_headers, counter, rfl, (List.append_nil _).symm⟩
  | cons h headers ih =>
      obtain ⟨name, hname⟩ := Option.ne_none_iff_exists'.mp (hnames h List.mem_cons_self)
      have hheader : headerName h.name = name := by rw [hname]; rfl
      have hread := hreadable h List.mem_cons_self
      rw [hheader] at hread
      obtain ⟨f, counter₁, hfields⟩ := hread.read config counter m.ids.fields
      have htexts := requestTexts_cons m.ids.rpc.type h headers
      rw [hheader] at htexts
      rw [htexts] at hsize hcount ⊢
      rw [List.length_append] at hcount
      have hfirst : ¬ Dropped m.ids.rpc.type name → m.req_headers.count < maxHeaderFieldNumber
          ∧ name.length < maxHeaderFieldSize ∧ h.value.length < maxHeaderFieldSize := by
        intro hdropped
        rw [if_neg hdropped] at hsize hcount
        refine ⟨?_, hsize _ (List.mem_append_left _ List.mem_cons_self)⟩
        rw [List.length_singleton] at hcount
        omega
      obtain ⟨ids₁, headers₁, hstore, -, htype, htext, hcount₁⟩ := store_ok hfields hfirst
      have hroom : headers₁.count + (requestTexts ids₁.rpc.type headers).length
          ≤ maxHeaderFieldNumber := by
        rw [hcount₁, htype]
        split_ifs at hcount ⊢
        · rw [List.length_nil] at hcount
          omega
        · rw [List.length_singleton] at hcount
          omega
      obtain ⟨ids, req_headers, counter', hrest, htext'⟩ :=
        ih (m := { m with ids := ids₁, req_headers := headers₁ })
        counter₁ (fun x hx => hnames x (List.mem_cons_of_mem _ hx))
        (fun x hx => by rw [htype]; exact hreadable x (List.mem_cons_of_mem _ hx))
        (fun x hx => by rw [htype] at hx; exact hsize x (List.mem_append_right _ hx)) hroom
      refine ⟨ids, req_headers, counter', ?_, ?_⟩
      · unfold add_request_headers
        rw [hname]
        dsimp only
        rw [Message.add_http_header_eq, hstore]
        exact hrest
      · rw [htext', htext, htype, List.append_assoc]

/-! ## The last read of a request -/

/-- The connection waits for a request, and an RPC can be allocated for it. -/
structure Listening (c : HTTP1Connection n) (s : HttpCalls n) : Prop where
  direction : c.direction = .DOWNSTREAM
  clean : c = c.reset true
  next : c.last_id + 1 < 2 ^ 31
  pool : s.rpc_mapper.http_pool ≠ []
  blank : ∀ rpc ∈ s.rpc_mapper.http_pool, (s.http rpc).req_headers.count = 0
  new : s.rpc_mapper.find_ds (c.type, c.fd, c.last_id + 1) = none

/-- An RPC of the pool has the request, and is queued once, to be forwarded. -/
structure Accepted (c : HTTP1Connection n) (w : HttpWorker n) (r : PicoHttp.Request)
    (rpc : Fin n) (w' : HttpWorker n) :
    Prop where
  pool : rpc ∈ w.rpc_mapper.http_pool
  find_ds : w'.rpc_mapper.find_ds
    = Function.update w.rpc_mapper.find_ds (c.type, c.fd, c.last_id + 1) (some rpc)
  others : ∀ a, a ≠ rpc → w'.http a = w.http a ∧ w'.rpc_mapper.heap a = w.rpc_mapper.heap a
  method : (w'.http rpc).method = r.method
  path : (w'.http rpc).path = r.path
  minor : (w'.http rpc).minor = r.minor
  service : some (w'.rpc_mapper.heap rpc).service
    = HTTPMessage.parse_service_from_request_target r.path
  headers : (w'.http rpc).req_headers.text = requestTexts c.type r.headers
  queue : w'.rpc_queue = (w.enqueue c.type .DOWNSTREAM c.fd (c.last_id + 1)).rpc_queue
  ingress : w'.ingress = w.ingress

/-- What is kept between two reads takes no part, but for the array. -/
theorem accept_request_buf (config : HttpConfig) (c : HTTP1Connection n)
    (w : HttpWorker n) (r : PicoHttp.Request) (prev_buf_len : ℕ) (hdr_size content_length : ℤ) :
    ({ c with
        prev_buf_len := prev_buf_len
        hdr_size := hdr_size
        content_length := content_length } : HTTP1Connection n).accept_request config w r
      = c.accept_request config w r := rfl

/-- **The request becomes an RPC**, on a connection that has some bytes of it in its buffer. -/
theorem accept_request_ok {config : HttpConfig} {c : HTTP1Connection n}
    {w : HttpWorker n} {r : PicoHttp.Request} (d : Bytes) (hfrontend : config.is_frontend = true)
    (hlistening : c.Listening w.toHttpCalls)
    (htarget : ∃ service, HTTPMessage.parse_service_from_request_target r.path = some service)
    (hnames : ∀ h ∈ r.headers, h.name ≠ none)
    (hreadable : ∀ h ∈ r.headers, Readable c.type (headerName h.name) h.value)
    (hsize : ∀ h ∈ requestTexts c.type r.headers,
      h.1.length < maxHeaderFieldSize ∧ h.2.length < maxHeaderFieldSize)
    (hcount : (requestTexts c.type r.headers).length ≤ maxHeaderFieldNumber) :
    ∃ rpc w', (c.fill d).accept_request config w r
        = .ok (({ c.fill d with last_id := c.last_id + 1 } : HTTP1Connection n).reset false, w')
      ∧ c.Accepted w r rpc w' := by
  obtain ⟨m', hallocate⟩ := RPCMapper.allocate_rpc_exists hlistening.pool hlistening.new
  obtain ⟨rpc, m₁, hget, -, hds, -, -, hheap, -, -⟩ := RPCMapper.allocate_rpc_spec hallocate
  obtain ⟨-, hpool, -, hheap₁, -, -, -⟩ := RPCMapper.get_rpc_spec hget
  have hfound : m'.get_ds_rpc c.type (c.last_id + 1) c.fd = .ok rpc := by
    apply RPCMapper.get_ds_rpc_eq_ok.mpr
    rw [hds, Function.update_self]
  have hobject : m'.heap rpc
      = { w.rpc_mapper.heap rpc with ds_fd := c.fd, ds_stream_id := c.last_id + 1,
                                     type := c.type } := by
    rw [hheap, hheap₁, Function.update_self]
  -- the object that is allocated has no headers, and takes those of the request
  have hblank := hlistening.blank rpc hpool
  have htype : (m'.heap rpc).type = c.type := by rw [hobject]
  obtain ⟨ids, req_headers, counter', hheaders, htext⟩ :=
    add_request_headers_ok config.ids (m := { w.http rpc with ids.rpc := m'.heap rpc })
      w.local_id_counter
      hnames (by dsimp only; rw [htype]; exact hreadable) (by dsimp only; rw [htype]; exact hsize)
      (by dsimp only; rw [htype, hblank, Nat.zero_add]; exact hcount)
  obtain ⟨service, hservice⟩ := htarget
  have hidle : c.idle = true := congrArg HTTP1Connection.idle hlistening.clean
  unfold accept_request next_id fill
  rw [if_pos hlistening.next, ok_bind]
  dsimp only
  rw [hallocate, ok_bind, hfound, ok_bind]
  unfold HttpCalls.message
  dsimp only
  rw [hheaders, ok_bind]
  unfold HTTPMessage.set_service
  dsimp only
  rw [hservice]
  dsimp only
  rw [ok_bind, if_pos hfrontend, ok_bind, if_pos hidle]
  refine ⟨rpc, _, rfl, ?_⟩
  have htexts : req_headers.text = requestTexts c.type r.headers := by
    have hnone : (w.http rpc).req_headers.text = [] := by
      unfold HeaderList.text
      rw [hblank]
      rfl
    dsimp only at htext
    rw [htext, hnone, htype, List.nil_append]
  unfold HttpCalls.enqueue HttpCalls.set_queue HttpCalls.set_message RPCMapper.modify
  refine
    { pool := hpool
      find_ds := hds
      others := ?_
      method := ?_
      path := ?_
      minor := ?_
      service := ?_
      headers := ?_
      queue := ?_
      ingress := rfl }
  · intro a ha
    dsimp only
    rw [Function.update_of_ne ha, Function.update_of_ne ha, hheap, hheap₁, Function.update_of_ne ha]
    exact ⟨rfl, rfl⟩
  · dsimp only
    rw [Function.update_self]
  · dsimp only
    rw [Function.update_self]
  · dsimp only
    rw [Function.update_self]
  · dsimp only
    rw [Function.update_self, hservice]
  · dsimp only
    rw [Function.update_self]
    exact htexts
  · dsimp only
    rw [hlistening.direction]
    rfl

/-- No header speaks of a body, so the length stays what it was. -/
theorem read_length_none {headers : List PicoHttp.phr_header}
    (hnone : ∀ h ∈ headers, ¬ CONTENT_LENGTH <+: headerName h.name) (c : HTTP1Connection n)
    (content_length : ℤ) :
    headers.foldlM c.read_length content_length = .ok content_length := by
  induction headers with
  | nil => rfl
  | cons h headers ih =>
      rw [List.foldlM_cons]
      unfold read_length at ih ⊢
      rw [if_neg (hnone h List.mem_cons_self), ok_bind]
      exact ih fun x hx => hnone x (List.mem_cons_of_mem _ hx)

/-- The state after some bytes of a request, which the parser has found incomplete. -/
def requestMidway (c : HTTP1Connection n) (w : HttpWorker n) (prev : ℕ) (p : Bytes) :
    HTTP1Connection n × HttpWorker n :=
  if p = [] then (c, w) else ({ c.holding prev p with hdr_size := -2 }, w)

theorem requestMidway_eq {c : HTTP1Connection n} (w : HttpWorker n) (prev : ℕ)
    (p : Bytes) (hclean : c = c.reset true) :
    ∃ k hdr_size, requestMidway c w prev p = ({ c.holding k p with hdr_size := hdr_size }, w) := by
  unfold requestMidway
  by_cases hnil : p = []
  · rw [if_pos hnil, hnil]
    exact ⟨0, 0, by rw [holding_nil hclean]⟩
  · rw [if_neg hnil]
    exact ⟨prev, -2, rfl⟩

/-- A read that brings bytes of a request, and that the buffer has room for. -/
theorem http_read_downstream {c : HTTP1Connection n} (parser : HttpParser)
    (config : HttpConfig) (w : HttpWorker n) {d : Bytes}
    (hdirection : c.direction = .DOWNSTREAM) (hd : d ≠ [])
    (hfits : c.buf.length + d.length ≤ http1BufSize) :
    c.http_read parser config d w = (c.fill d).read_request parser config w := by
  unfold http_read
  rw [if_neg (fun h => hd (List.eq_nil_of_length_eq_zero h)), if_neg (by omega)]
  dsimp only
  rw [show (c.fill d).direction = .DOWNSTREAM from hdirection]

/-- A request is accepted as if its head had been read in one piece. -/
theorem holding_accept {c : HTTP1Connection n} (hbuf : c.buf = []) (config : HttpConfig)
    (w : HttpWorker n) (r : PicoHttp.Request) (prev : ℕ) (p : Bytes) (hdr_size content_length : ℤ) :
    ({ c.holding prev p with hdr_size := hdr_size, content_length := content_length } :
      HTTP1Connection n).accept_request config w r = (c.fill p).accept_request config w r := by
  unfold fill
  rw [hbuf, List.nil_append]
  rfl

/-- **One read of a request**, from any state within it. A request has no body, so there are two
cases only. -/
theorem request_steps_through {parser : HttpParser} {config : HttpConfig} {c c' : HTTP1Connection n}
    {w w' : HttpWorker n} {head : Bytes} {r : PicoHttp.Request}
    (hedge : config.ids.is_ingress = false) (hlistening : c.Listening w.toHttpCalls)
    (hheads : Heads parser.phr_parse_request head [] r) (hfits : head.length ≤ http1BufSize)
    (hrequest : WellFormedRequest c.type r)
    (haccept : (c.fill head).accept_request config w r = .ok (c', w')) :
    StepsThrough parser config head (requestMidway c w) c' w' := by
  intro prev p d hd hprefix
  obtain ⟨k, z, hmidway⟩ := requestMidway_eq w prev p hlistening.clean
  rw [hmidway]
  have hle := hprefix.length_le
  have hpos := List.length_pos_iff.mpr hd
  rw [List.length_append] at hle
  have hlonger : p.length < (p ++ d).length := by
    rw [List.length_append]
    omega
  rw [http_read_downstream parser config w (by exact hlistening.direction)
    hd (by exact hle.trans hfits), holding_fill]
  unfold read_request
  dsimp only
  -- The parser is asked at every read, and answers at the one that completes the head.
  by_cases hwhole : p ++ d = head
  · have hparse := hheads.whole [] List.prefix_rfl p.length (by rw [← hwhole]; exact hlonger)
    have hcontent : c.content_length = -1 :=
      congrArg HTTP1Connection.content_length hlistening.clean
    rw [List.append_nil] at hparse
    rw [hwhole, hparse, if_pos rfl]
    dsimp only
    unfold request_content_length
    rw [read_length_none hrequest.no_body, ok_bind]
    dsimp only
    rw [hcontent, if_neg (by decide), hedge, if_neg (fun h => Bool.false_ne_true h.1),
      if_neg (lt_irrefl _),
      holding_accept (congrArg HTTP1Connection.buf hlistening.clean), haccept]
    rfl
  · rw [hheads.part (p ++ d) hprefix hwhole p.length hlonger, if_neg hwhole]
    dsimp only
    unfold requestMidway
    rw [if_neg fun hnil => hd (List.append_eq_nil_iff.mp hnil).2]

/-- **A request in any division** is read as it is in one piece. -/
theorem request_reads_as {parser : HttpParser} {config : HttpConfig} {c : HTTP1Connection n}
    {w : HttpWorker n} {head : Bytes} {r : PicoHttp.Request} (hfrontend : config.is_frontend = true)
    (hedge : config.ids.is_ingress = false) (hlistening : c.Listening w.toHttpCalls)
    (hheads : Heads parser.phr_parse_request head [] r) (hfits : head.length ≤ http1BufSize)
    (hrequest : WellFormedRequest c.type r) :
    ∃ rpc w', c.Accepted w r rpc w'
      ∧ ReadsAs parser config c w head
          (({ c.fill head with last_id := c.last_id + 1 } : HTTP1Connection n).reset false) w' := by
  obtain ⟨rpc, w', haccept, haccepted⟩ :=
    accept_request_ok head hfrontend hlistening hrequest.target
    hrequest.names hrequest.readable hrequest.size hrequest.count
  refine ⟨rpc, w', haccepted, ?_⟩
  refine (request_steps_through hedge hlistening hheads hfits hrequest haccept).readsAs
    hheads.nonempty ?_ ?_
  · rfl
  · intro prev p
    unfold requestMidway
    split_ifs
    · exact ⟨rfl, rfl⟩
    · exact ⟨rfl, rfl⟩

/-- **Reading does not depend on how bytes are cut.** A response to a request that was sent, and on
a frontend a request without a body and without a header that speaks of one, are read in any
division as in one piece: the RPC is queued once, with the last piece, and the connection is as
before the first, with the message left in its array. -/
theorem http_read_any_division (parser : HttpParser) (config : HttpConfig)
    (c : HTTP1Connection n) (w : HttpWorker n) :
    (∀ (rpc : Fin n) (head body : Bytes) (r : PicoHttp.Response), c.Awaits w.toHttpCalls rpc →
        Heads parser.phr_parse_response head body r → head.length + body.length ≤ http1BufSize →
        Framed r body → Storable r body →
        ∃ s', c.Answered w.toHttpCalls rpc r body s'
          ∧ ReadsAs parser config c w (head ++ body) ((c.fill (head ++ body)).reset true)
              { w with toHttpCalls := s' })
      ∧ (config.is_frontend = true → config.ids.is_ingress = false → ∀ (head : Bytes)
        (r : PicoHttp.Request),
        c.Listening w.toHttpCalls → Heads parser.phr_parse_request head [] r →
          head.length ≤ http1BufSize →
        WellFormedRequest c.type r →
        ∃ rpc w', c.Accepted w r rpc w'
          ∧ ReadsAs parser config c w head
              (({ c.fill head with last_id := c.last_id + 1 } : HTTP1Connection n).reset false)
                w') := by
  constructor
  · intro rpc head body r hawaits hheads hfits hframed hstorable
    exact response_reads_as hawaits hheads hfits hframed hstorable
  · intro hfrontend hedge head r hlistening hheads hfits hrequest
    exact request_reads_as hfrontend hedge hlistening hheads hfits hrequest

/-! ### A response and a request -/

/-- A connection on descriptor 5, which has carried one message, for the concrete runs. -/
def connection (direction : ConnectionDirection) (idle : Bool) : HTTP1Connection 1 :=
  { fd := 5
    type := .EGRESS
    direction := direction
    status := .UP
    buf := []
    stale := []
    prev_buf_len := 0
    hdr_complete := false
    content_length := -1
    hdr_size := 0
    idle := idle
    last_id := 1
    rpc_message := none }

/-- A worker with one HTTP/1 object, which is in the pool or was sent as request 1 on descriptor
5. -/
def worker (sent : Bool) : HttpWorker 1 :=
  { rpc_mapper :=
      { RPCMapper.create 0 1 (fun _ => .EGRESS) (fun _ => 0) with
        http_pool := if sent then [] else [Fin.last 0]
        us_map := fun _ =>
          if sent then (∅ : Tables.Nested ℤ ℤ (Fin 1)).insert 5
            ((∅ : Tables.UMap ℤ (Fin 1)).insert 1 (Fin.last 0)) else ∅ }
    http := fun _ => .create (RPCMapper.blankMessage .HTTP1 .EGRESS 0)
    rpc_queue := fun _ _ => []
    local_id_counter := 0
    ingress := .init 0 1 [] }

/-- "HTTP/1.1 200" with Content-Length 1, for a body of one byte -/
def answerHead : Bytes :=
  [72, 84, 84, 80, 47, 49, 46, 49, 32, 50, 48, 48, 13, 10] ++ CONTENT_LENGTH
    ++ [58, 49, 13, 10, 13, 10]

/-- "GET /s HTTP/1.1", the shortest request that names a service -/
def questionHead : Bytes :=
  [71, 69, 84, 32, 47, 115, 32, 72, 84, 84, 80, 47, 49, 46, 49, 13, 10, 13, 10]

/-- Both in some division: a response and a request that satisfy the conditions of the theorem
above. -/
theorem http_read_any_division_short :
    (∃ s', (connection .UPSTREAM false).Answered (worker true).toHttpCalls 0
          ⟨1, 200, [], [(some CONTENT_LENGTH, [49])]⟩ [65] s'
        ∧ ReadsAs .pico ⟨⟨false, false⟩, true⟩ (connection .UPSTREAM false)
          (worker true) (answerHead ++ [65])
            (((connection .UPSTREAM false).fill (answerHead ++ [65])).reset true)
              { worker true with toHttpCalls := s' })
      ∧ ∃ rpc w', (connection .DOWNSTREAM true).Accepted (worker false)
        ⟨[71, 69, 84], [47, 115], 1, []⟩ rpc w'
        ∧ ReadsAs .pico ⟨⟨false, false⟩, true⟩ (connection .DOWNSTREAM true)
          (worker false) questionHead
          (({ (connection .DOWNSTREAM true).fill questionHead with last_id := 2 } :
            HTTP1Connection 1).reset false) w' := by
  constructor
  · refine (http_read_any_division .pico ⟨⟨false, false⟩, true⟩ (connection .UPSTREAM false)
      (worker true)).1 0
      answerHead [65] ⟨1, 200, [], [(some CONTENT_LENGTH, [49])]⟩ ?_ ?_ ?_ ?_ ?_
    · -- What stands before the read: no bytes, and the request in the mapper.
      exact ⟨rfl, rfl, by decide +kernel, rfl, rfl, rfl⟩
    · exact .of_parts (by decide) (by decide +kernel) (by decide +kernel)
    · decide
    · refine ⟨fun _ => by decide, fun _ => .inr ⟨[], some CONTENT_LENGTH,
        [49], [], rfl, by decide, ?_⟩, ?_⟩
      · exact ⟨by decide, by decide, by decide +kernel, by decide⟩
      · intro h
        exact absurd h (by decide)
    · exact ⟨by decide, by decide, by decide⟩
  · refine (http_read_any_division .pico ⟨⟨false, false⟩, true⟩ (connection .DOWNSTREAM true)
      (worker false)).2 rfl rfl
      questionHead ⟨[71, 69, 84], [47, 115], 1, []⟩ ?_ ?_ ?_ ?_
    · exact ⟨rfl, rfl, by decide, by decide, fun _ _ => rfl, by decide +kernel⟩
    · exact .of_parts (by decide) (by decide +kernel) (by decide +kernel)
    · decide
    · refine ⟨⟨[115], by decide⟩, ?_, ?_, ?_, ?_, by decide⟩
      all_goals
        intro h hmem
        cases hmem

/-- "GET /s HTTP/1.1" with a header that says that there is no body. -/
def emptyBodyHead : Bytes :=
  [71, 69, 84, 32, 47, 115, 32, 72, 84, 84, 80, 47, 49, 46, 49, 13, 10]
    ++ CONTENT_LENGTH ++ [58, 48, 13, 10, 13, 10]

/-- A request without a body that says so ends the process of a frontend's sidecar. -/
theorem empty_body_refused :
    ¬ ∀ (parser : HttpParser) (config : HttpConfig) (c : HTTP1Connection 1)
      (w : HttpWorker 1) (head : Bytes)
        (r : PicoHttp.Request), config.is_frontend = true → config.ids.is_ingress = false →
      c.Listening w.toHttpCalls → Heads parser.phr_parse_request head [] r →
        head.length ≤ http1BufSize →
      (∀ h ∈ r.headers, isContentLength h.name = true → Decimal.number h.value = some 0) →
      WellFormedRequest c.type
        { r with headers := r.headers.filter fun h => ¬ isContentLength h.name } →
      ∃ c' w', ReadsAs parser config c w head c' w' := by
  intro hall
  obtain ⟨c', w', hreads⟩ :=
    hall .pico ⟨⟨false, false⟩, true⟩ (connection .DOWNSTREAM true) (worker false) emptyBodyHead
    ⟨[71, 69, 84], [47, 115], 1, [⟨some CONTENT_LENGTH, [48], [48, 13, 10, 13, 10]⟩]⟩ rfl rfl
    ⟨rfl, rfl, by decide, by decide, fun _ _ => rfl, by decide +kernel⟩
    (.of_parts (by decide) (by decide +kernel) (by decide +kernel)) (by decide) (by decide)
    ⟨⟨[115], by decide⟩, by decide, by decide, (fun h hmem => by cases hmem), by decide, by decide⟩
  have hread := (hreads [emptyBodyHead] (by decide) (by decide)).1
  have habort : feed .pico ⟨⟨false, false⟩, true⟩ [emptyBodyHead]
      (connection .DOWNSTREAM true) (worker false)
      = .error .contentLengthInRequest := rfl
  rw [habort] at hread
  cases hread

end HTTP1Connection

end RlpSidecar
