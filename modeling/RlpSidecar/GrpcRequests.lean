/-
gRPC requests, from the service that makes one to the service that serves it (`connection.cc`, the
nghttp2 callbacks and `submit_request`; `state.cc`, `forward_request`).

A request passes two sidecars. That of the caller reads it on an EGRESS connection, that of the
callee on an INGRESS one, and each submits what it has stored: the headers in their order, and the
data. The header `rpc-local-id` goes one hop only. The caller's sidecar takes it off, and the
callee's puts its own behind the others.

`relay_request` is one sidecar from its callbacks to its submission, for a message that is blank.
`receive_request` says which requests are stored and as what, `submit_request_eq` and
`forward_taken` what is sent of them. `request_hop_iff` puts two sidecars one behind the other:
what the first one has sent is sent on by the second exactly under three conditions, and in every
other case its process ends.
-/
import RlpSidecar.DataStreams
import RlpSidecar.HeaderNames
import RlpSidecar.Runs

set_option autoImplicit false

namespace RlpSidecar

/-! ## The callbacks of the downstream session -/

/-- The message of a request, and whether the request is in `rpc_queue`. -/
structure Serving where
  rpc : gRPCMessage
  local_id_counter : RPCID
  queued : Bool

namespace Serving

/-- `on_header_callback`, on a downstream connection. A client cannot send the headers of a
response, and the source ends the process over them. -/
def on_header_callback (config : IdConfig) (s : Serving) (cat : HeadersCategory)
    (name value : Bytes) :
    Except Abort Serving :=
  match cat with
  | .HCAT_REQUEST => do
    let (rpc, local_id_counter) ← s.rpc.add_header_field config s.local_id_counter
      name value true false
    .ok { s with rpc := rpc, local_id_counter := local_id_counter }
  -- a request has no trailers
  | .HCAT_HEADERS => .error .invalidDirection
  | .HCAT_RESPONSE => .error .invalidDirection

/-- `on_data_chunk_recv_callback`, on a downstream connection: the chunk is added to the payload of
the request. -/
def on_data_chunk_recv_callback (s : Serving) (data : Bytes) : Except Abort Serving := do
  .ok { s with rpc := ← s.rpc.add_data data true }

/-- `frame_recv_callback`, on a downstream connection. Headers that end a stream are taken for a
response, and no response is stored under a downstream descriptor. -/
def frame_recv_callback (s : Serving) (type : FrameType) (end_stream : Bool) :
    Except Abort Serving :=
  if end_stream then
    match type with
    | .DATA => .ok { s with queued := true }
    | .HEADERS => .error .noUsRpc
    | .SETTINGS | .OTHER => .ok s
  else .ok s

/-- One call, by the function it is a call of. -/
def callback (config : IdConfig) (s : Serving) : Callback → Except Abort Serving
  | .on_header cat name value => s.on_header_callback config cat name value
  | .on_data_chunk_recv data => s.on_data_chunk_recv_callback data
  | .frame_recv type end_stream => s.frame_recv_callback type end_stream

/-- The calls in their order; the first that fails ends the process. -/
def receive (config : IdConfig) (s : Serving) (cs : List Callback) : Except Abort Serving :=
  cs.foldlM (callback config) s

end Serving

/-! ## The upstream session -/

/-- What has gone to the upstream session: the headers, what the data callback has read out, and
whether the stream has ended with it. -/
structure SubmittedRequest where
  headers : List Field
  data : Bytes
  end_stream : Bool
  deriving DecidableEq, Repr

namespace gRPCMessage

/-- `data_read_callback_request`, without the time that it records: like the one for responses, but
the data end the stream. -/
def data_read_callback_request (m : gRPCMessage) (length : ℕ) : DataRead × gRPCMessage :=
  if m.req_data.offset = 0 then (⟨[], true, none⟩, m)
  else
    let (buf, req_data) := m.req_data.read length
    (⟨buf, decide (req_data.read_offset = req_data.offset), none⟩, { m with req_data := req_data })

/-- `submit_request`, which copies the headers. nghttp2 reads the data later, `lengths` bytes at a
time. -/
def submit_request (m : gRPCMessage) (lengths : List ℕ) :
    Except Abort (SubmittedRequest × gRPCMessage) := do
  let headers := m.req_headers.text
  let (calls, m) ← reads (fun m length => .ok (m.data_read_callback_request length)) lengths m
  .ok (⟨headers, copied calls, calls.any DataRead.eof⟩, m)

/-- The two checks of `forward_request`, which only a plain frontend skips: its clients send no
identifiers. -/
def check_ids (config : IdConfig) (m : gRPCMessage) : Except Abort Unit :=
  if m.ids.rpc.local_id = -1 ∧ config.is_plain_frontend = false then .error .requestHasNoId
  else if m.ids.rpc.priority = -1 ∧ config.is_plain_frontend = false then
    .error .requestHasNoPriority
  else .ok ()

/-- `forward_request`. A check that fails ends the process, before `write_http` has asked for the
data. -/
def forward_request (config : IdConfig) (local_id_counter : RPCID) (m : gRPCMessage)
    (lengths : List ℕ) :
    Except Abort (SubmittedRequest × gRPCMessage × RPCID) := do
  let (m, local_id_counter) ←
    -- only towards the own application is the id put into a header
    if m.ids.rpc.type = .INGRESS then m.set_local_id_header config local_id_counter
      else .ok (m, local_id_counter)
  m.check_ids config
  let (x, m) ← m.submit_request lengths
  .ok (x, m, local_id_counter)

end gRPCMessage

/-! ## Requests -/

/-- A request as nghttp2 calls for it. A frame of data ends it. -/
structure GrpcRequest where
  headers : List Field
  pieces : List Piece
  deriving DecidableEq, Repr

namespace GrpcRequest

/-- The payload of a request, whatever chunks it comes in. -/
def data (r : GrpcRequest) : Bytes := r.pieces.flatMap Piece.data

/-- The calls that nghttp2 makes for a request: its headers, the frame that ends them, the payload,
and the frame that ends the stream. -/
def callbacks (r : GrpcRequest) : List Callback :=
  r.headers.map (fun x => .on_header .HCAT_REQUEST x.1 x.2) ++ [.frame_recv .HEADERS false]
    ++ r.pieces.map Piece.callback ++ [.frame_recv .DATA true]

end GrpcRequest

/-- **A sidecar** with a message for the request: what it submits of a request, with the message
and the counter. -/
def relay_request (config : IdConfig) (local_id_counter : RPCID) (m : gRPCMessage)
    (r : GrpcRequest) (lengths : List ℕ) :
    Except Abort (SubmittedRequest × gRPCMessage × RPCID) := do
  let s ← Serving.receive config ⟨m, local_id_counter, false⟩ r.callbacks
  s.rpc.forward_request config s.local_id_counter lengths

/-- A message of a connection that nothing has been stored in, as the pool hands it out. -/
structure Blank (type : ConnectionType) (m : gRPCMessage) : Prop where
  typed : m.ids.rpc.type = type
  local_id : m.ids.rpc.local_id = -1
  service : m.ids.rpc.service = []
  header_text : m.req_headers.text = []
  header_count : m.req_headers.count = 0
  content : m.req_data.content = []
  unread : m.req_data.read_offset = 0

/-! ## What the headers say -/

/-- The headers before the last one are read first, which is how the loop of the callbacks reads
them. -/
theorem readAll_snoc (config : IdConfig) (type : ConnectionType) (hs : List Field)
    (h : Field) (counter : RPCID) (f : IdFields) :
    IdFields.readAll config type (hs ++ [h]) counter f
      = (IdFields.readAll config type hs counter f >>= fun x =>
        IdFields.read config type x.2 x.1 h.1 h.2) := by
  induction hs generalizing counter f with
  | nil =>
      change (IdFields.read config type counter f h.1 h.2 >>= fun x => .ok x)
        = IdFields.read config type counter f h.1 h.2
      cases IdFields.read config type counter f h.1 h.2 <;> rfl
  | cons g hs ih =>
      rw [List.cons_append]
      unfold IdFields.readAll
      cases IdFields.read config type counter f g.1 g.2 with
      | error e => rfl
      | ok x => exact ih x.2 x.1

/-- The headers that are stored: all but `rpc-local-id` on the EGRESS side. -/
def keptHeaders (type : ConnectionType) (hs : List Field) : List Field :=
  hs.filter fun h => ¬ Dropped type h.1

/-- The service, which is the last `:path` without its slash, or what was there before. -/
def serviceOf (service : Bytes) (hs : List Field) : Bytes :=
  hs.foldl (fun service h => if cstring h.1 = PATH then h.2.tail else service) service

/-- The priority, which is the last one that is given, or what was there before. -/
def priorityOf (priority : Priority) (hs : List Field) : Priority :=
  hs.foldl (fun priority h =>
    if PRIORITY <+: h.1 then ((stoll h.2).toOption.map (BitVec.ofInt 32)).getD priority
      else priority) priority

theorem keptHeaders_append (type : ConnectionType) (hs : List Field) (h : Field) :
    keptHeaders type (hs ++ [h]) = keptHeaders type hs
      ++ (if Dropped type h.1 then [] else [h]) := by
  unfold keptHeaders
  rw [List.filter_append]
  by_cases hdropped : Dropped type h.1
  · simp [hdropped]
  · simp [hdropped]

/-- Nothing is dropped from a request that comes in. -/
theorem keptHeaders_ingress (hs : List Field) : keptHeaders .INGRESS hs = hs :=
  List.filter_eq_self.mpr fun _ _ => by simp [Dropped]

/-! ## One header -/

namespace gRPCMessage

/-- What `:path` does to a message: the service is set, and the method is emptied. -/
def pathed (m : gRPCMessage) (name value : Bytes) : gRPCMessage :=
  if cstring name = PATH then { m with ids.rpc.service := value.tail, method := [] } else m

theorem pathed_parts (m : gRPCMessage) (name value : Bytes) :
    (m.pathed name value).ids.fields = m.ids.fields ∧ (m.pathed name value).ids.rpc.type
      = m.ids.rpc.type
      ∧ (m.pathed name value).req_headers = m.req_headers ∧ (m.pathed name value).req_data
        = m.req_data := by
  unfold pathed
  split_ifs
  · exact ⟨rfl, rfl, rfl, rfl⟩
  · exact ⟨rfl, rfl, rfl, rfl⟩

/-- A request header, with the part that both classes share: the path first, then `store`. -/
theorem add_request_eq_ok {config : IdConfig} {counter counter' : RPCID}
    {m m' : gRPCMessage} {name value : Bytes} :
    m.add_header_field config counter name value true false = .ok (m', counter')
      ↔ (cstring name = PATH → value ≠ []) ∧ ∃ ids headers,
        store config counter (m.pathed name value).ids m.req_headers name value
          = .ok (ids, headers, counter')
          ∧ m' = { m.pathed name value with ids := ids, req_headers := headers } := by
  by_cases hpath : cstring name = PATH → value ≠ []
  · have hread : m.read_path name value = .ok (m.pathed name value) := by
      unfold read_path pathed
      split_ifs with hname hvalue
      · exact absurd hvalue (hpath hname)
      · rfl
      · rfl
    -- With the path read, what is left of the call is the reading and the storing of the header.
    have heq : m.add_header_field config counter name value true false
        = (do
          let x ← store config counter (m.pathed name value).ids m.req_headers name value
          .ok ({ m.pathed name value with ids := x.1, req_headers := x.2.1 }, x.2.2)) := by
      unfold add_header_field store
      rw [hread, ok_bind, if_pos rfl, (pathed_parts m name value).2.2.1]
      cases read_request_header config counter (m.pathed name value).ids name value with
      | error e => rfl
      | ok x =>
          obtain ⟨ids, c, dropped⟩ := x
          cases dropped with
          | true =>
              dsimp only [ok_bind]
              rw [if_pos rfl, if_pos rfl, ok_bind, ← (pathed_parts m name value).2.2.1]
          | false =>
              dsimp only [ok_bind]
              rw [if_neg Bool.false_ne_true, if_neg Bool.false_ne_true, if_neg Bool.false_ne_true]
              cases m.req_headers.add name value <;> rfl
    rw [heq, bind_eq_ok]
    constructor
    · rintro ⟨⟨ids, headers, c⟩, hstore, h⟩
      obtain ⟨rfl, rfl⟩ := Prod.mk.inj (Except.ok.inj h)
      exact ⟨hpath, ids, headers, hstore, rfl⟩
    · rintro ⟨_, ids, headers, hstore, rfl⟩
      exact ⟨_, hstore, rfl⟩
  · -- An empty path ends the process before anything is stored.
    obtain ⟨hname, hvalue⟩ := not_forall.mp hpath
    refine iff_of_false (fun h => ?_) fun h => hpath h.1
    obtain ⟨m₁, hread, _⟩ := bind_eq_ok.mp h
    unfold read_path at hread
    rw [if_pos hname, if_pos (not_not.mp hvalue)] at hread
    cases hread

end gRPCMessage

/-- Of the headers, only `:path` names a service; the others leave the one that is set. -/
theorem add_header_field_service {config : IdConfig} {counter counter' : RPCID}
    {rpc rpc' : RPCMessage} {h : Header} (hh : ∀ service, h ≠ .path service)
    (hok : rpc.add_header_field config counter h = .ok (rpc', counter')) :
    rpc'.service = rpc.service := by
  unfold RPCMessage.add_header_field at hok
  cases h with
  | path service => exact absurd rfl (hh service)
  | rpc_id =>
      dsimp only at hok
      split_ifs at hok
      · obtain ⟨rfl, _⟩ := Prod.mk.inj (Except.ok.inj hok)
        rfl
      · obtain ⟨rfl, _⟩ := Prod.mk.inj (Except.ok.inj hok)
        rfl
  | rpc_local_id id_from_str =>
      cases htype : rpc.type with
      | INGRESS =>
          rw [htype] at hok
          dsimp only at hok
          split_ifs at hok
          obtain ⟨rfl, _⟩ := Prod.mk.inj (Except.ok.inj hok)
          rfl
      | EGRESS =>
          rw [htype] at hok
          dsimp only at hok
          split_ifs at hok
          obtain ⟨rfl, _⟩ := Prod.mk.inj (Except.ok.inj hok)
          rfl
  | priority value =>
      obtain ⟨rfl, _⟩ := Prod.mk.inj (Except.ok.inj hok)
      rfl

theorem read_request_header_service {config : IdConfig} {counter counter' : RPCID}
    {m m' : Identified} {name value : Bytes} {dropped : Bool}
    (h : read_request_header config counter m name value = .ok (m', counter', dropped)) :
    m'.rpc.service = m.rpc.service := by
  unfold read_request_header at h
  split_ifs at h
  · obtain ⟨id, _, h⟩ := bind_eq_ok.mp h
    obtain ⟨⟨rpc, c⟩, hrpc, h⟩ := bind_eq_ok.mp h
    obtain ⟨rfl, _⟩ := Prod.mk.inj (Except.ok.inj h)
    exact add_header_field_service (fun _ h => by cases h) hrpc
  · obtain ⟨id, _, h⟩ := bind_eq_ok.mp h
    obtain ⟨⟨rpc, c⟩, hrpc, h⟩ := bind_eq_ok.mp h
    obtain ⟨rfl, _⟩ := Prod.mk.inj (Except.ok.inj h)
    exact add_header_field_service (fun _ h => by cases h) hrpc
  · obtain ⟨priority, _, h⟩ := bind_eq_ok.mp h
    obtain ⟨⟨rpc, c⟩, hrpc, h⟩ := bind_eq_ok.mp h
    obtain ⟨rfl, _⟩ := Prod.mk.inj (Except.ok.inj h)
    exact add_header_field_service (fun _ h => by cases h) hrpc
  · obtain ⟨rfl, _⟩ := Prod.mk.inj (Except.ok.inj h)
    rfl

/-- What is known of a header that was stored or dropped: the identifiers are read in either
case. -/
theorem store_eq_ok {config : IdConfig} {counter counter' : RPCID} {ids ids' : Identified}
    {headers headers' : HeaderList} {name value : Bytes}
    (h : store config counter ids headers name value = .ok (ids', headers', counter')) :
    IdFields.read config ids.rpc.type counter ids.fields name value = .ok (ids'.fields, counter')
      ∧ ids'.rpc.type = ids.rpc.type ∧ ids'.rpc.service = ids.rpc.service
      ∧ (Dropped ids.rpc.type name ∧ headers' = headers
        ∨ ¬ Dropped ids.rpc.type name ∧ headers.add name value = .ok headers') := by
  obtain ⟨hread, htype, _⟩ := store_inv h
  unfold store at h
  obtain ⟨⟨ids₁, c, dropped⟩, hheader, h⟩ := bind_eq_ok.mp h
  have hservice := read_request_header_service hheader
  obtain ⟨x, _, _, _, _, hdrop⟩ :=
    (read_request_header_fields config counter ids name value).of_ok hheader
  dsimp only at h hdrop
  by_cases hdropped : Dropped ids.rpc.type name
  · rw [hdrop, decide_eq_true hdropped, if_pos rfl] at h
    obtain ⟨rfl, hrest⟩ := Prod.mk.inj (Except.ok.inj h)
    exact ⟨hread, htype, hservice, .inl ⟨hdropped, (Prod.mk.inj hrest).1.symm⟩⟩
  · rw [hdrop, decide_eq_false hdropped, if_neg Bool.false_ne_true] at h
    obtain ⟨headers₁, hadd, h⟩ := bind_eq_ok.mp h
    obtain ⟨rfl, hrest⟩ := Prod.mk.inj (Except.ok.inj h)
    obtain ⟨rfl, _⟩ := Prod.mk.inj hrest
    exact ⟨hread, htype, hservice, .inr ⟨hdropped, hadd⟩⟩

/-! ## What a message has stored of a request -/

/-- A message of a connection of this type has read the headers `hs` and the data, from where its
fields and the counter stood. -/
structure TakenUp (config : IdConfig) (type : ConnectionType) (counter : RPCID)
    (f : IdFields) (hs : List Field) (data : Bytes) (s : Serving) : Prop where
  typed : s.rpc.ids.rpc.type = type
  fields : IdFields.readAll config type hs counter f = .ok (s.rpc.ids.fields, s.local_id_counter)
  service : s.rpc.ids.rpc.service = serviceOf [] hs
  header_text : s.rpc.req_headers.text = keptHeaders type hs
  header_count : s.rpc.req_headers.count = (keptHeaders type hs).length
  content : s.rpc.req_data.content = data
  unread : s.rpc.req_data.read_offset = 0

/-- The headers that a message takes without an abort: the numbers can be read, a path is not
empty, and what is kept fits. -/
structure Takeable (config : IdConfig) (type : ConnectionType) (counter : RPCID)
    (f : IdFields) (hs : List Field) :
    Prop where
  numbers : ∃ x, IdFields.readAll config type hs counter f = .ok x
  path : ∀ h ∈ hs, cstring h.1 = PATH → h.2 ≠ []
  sizes : ∀ h ∈ keptHeaders type hs, h.1.length < maxHeaderFieldSize
    ∧ h.2.length < maxHeaderFieldSize
  count : (keptHeaders type hs).length ≤ maxHeaderFieldNumber

section TakenUp

variable {config : IdConfig} {type : ConnectionType} {counter : RPCID}
    {f : IdFields} {hs : List Field} {data : Bytes}
  {s t : Serving} {name value : Bytes}

theorem on_header_eq_ok : s.callback config (.on_header .HCAT_REQUEST name value) = .ok t
    ↔ ∃ m c, s.rpc.add_header_field config s.local_id_counter name value true false = .ok (m, c)
      ∧ t = { s with rpc := m, local_id_counter := c } := by
  refine bind_eq_ok.trans ⟨?_, ?_⟩
  · rintro ⟨⟨m, c⟩, hadd, h⟩
    exact ⟨m, c, hadd, (Except.ok.inj h).symm⟩
  · rintro ⟨m, c, hadd, rfl⟩
    exact ⟨(m, c), hadd, rfl⟩

/-- One more header that was taken, so those with it are takeable. -/
theorem TakenUp.header (h : TakenUp config type counter f hs data s)
    (htakeable : Takeable config type counter f hs)
    (hcall : s.callback config (.on_header .HCAT_REQUEST name value) = .ok t) :
    TakenUp config type counter f (hs ++ [(name, value)]) data t
      ∧ Takeable config type counter f (hs ++ [(name, value)]) := by
  obtain ⟨m, c, hadd, rfl⟩ := on_header_eq_ok.mp hcall
  obtain ⟨hpath, ids, headers, hstore, rfl⟩ := gRPCMessage.add_request_eq_ok.mp hadd
  obtain ⟨hfields, htype, hheaders, hdata⟩ := s.rpc.pathed_parts name value
  obtain ⟨hread, htype', hservice, hkept⟩ := store_eq_ok hstore
  rw [hfields, htype, h.typed] at hread
  rw [htype, h.typed] at htype' hkept
  have hservice' : (s.rpc.pathed name value).ids.rpc.service
      = serviceOf [] (hs ++ [(name, value)]) := by
    unfold serviceOf gRPCMessage.pathed
    rw [List.foldl_append, List.foldl_cons, List.foldl_nil]
    dsimp only
    split_ifs
    · rfl
    · exact h.service
  have hall : IdFields.readAll config type (hs ++ [(name, value)]) counter f
      = .ok (ids.fields, c) := by
    rw [readAll_snoc, h.fields, ok_bind]
    exact hread
  have hpaths : ∀ x ∈ hs ++ [(name, value)], cstring x.1 = PATH → x.2 ≠ [] := by
    intro x hx
    rcases List.mem_append.mp hx with hx | hx
    · exact htakeable.path x hx
    · rw [List.mem_singleton.mp hx]
      exact hpath
  rcases hkept with ⟨hdropped, rfl⟩ | ⟨hstored, hlist⟩
  · -- the header is read, but not stored
    have hsame : keptHeaders type (hs ++ [(name, value)]) = keptHeaders type hs := by
      rw [keptHeaders_append, if_pos hdropped, List.append_nil]
    refine ⟨⟨htype', hall, hservice.trans hservice', ?_, ?_, ?_, ?_⟩, ⟨_, hall⟩, hpaths, ?_, ?_⟩
    · rw [hsame]
      exact h.header_text
    · rw [hsame]
      exact h.header_count
    · exact (congrArg DataReadStruct.content hdata).trans h.content
    · exact (congrArg DataReadStruct.read_offset hdata).trans h.unread
    · rw [hsame]
      exact htakeable.sizes
    · rw [hsame]
      exact htakeable.count
  · have hmore : keptHeaders type (hs ++ [(name, value)]) = keptHeaders type hs
        ++ [(name, value)] := by
      rw [keptHeaders_append, if_neg hstored]
    obtain ⟨htext, hcount, hroom⟩ := HeaderList.add_text hlist
    rw [hcount, h.header_count] at hroom
    refine ⟨⟨htype', hall, hservice.trans hservice', ?_, ?_, ?_, ?_⟩, ⟨_, hall⟩, hpaths, ?_, ?_⟩
    · rw [hmore]
      exact htext.trans (by rw [h.header_text])
    · rw [hmore, List.length_append, List.length_singleton]
      exact hcount.trans (by rw [h.header_count])
    · exact (congrArg DataReadStruct.content hdata).trans h.content
    · exact (congrArg DataReadStruct.read_offset hdata).trans h.unread
    · rw [hmore]
      intro x hx
      rcases List.mem_append.mp hx with hx | hx
      · exact htakeable.sizes x hx
      · rw [List.mem_singleton.mp hx]
        exact HeaderList.add_terminated hlist
    · rw [hmore, List.length_append, List.length_singleton]
      exact hroom

/-- A header is taken if it is takeable behind the others. With `TakenUp.header` this is both
directions for one call. -/
theorem TakenUp.header_exists (h : TakenUp config type counter f hs data s)
    (htakeable : Takeable config type counter f (hs ++ [(name, value)])) :
    ∃ t, s.callback config (.on_header .HCAT_REQUEST name value) = .ok t := by
  obtain ⟨hfields, htype, hheaders, hdata⟩ := s.rpc.pathed_parts name value
  obtain ⟨⟨f', c⟩, hall⟩ := htakeable.numbers
  rw [readAll_snoc, h.fields, ok_bind, ← hfields, ← h.typed, ← htype] at hall
  have hroom : ¬ Dropped (s.rpc.pathed name value).ids.rpc.type name →
      s.rpc.req_headers.count < maxHeaderFieldNumber
      ∧ name.length < maxHeaderFieldSize ∧ value.length < maxHeaderFieldSize := by
    intro hstored
    rw [htype, h.typed] at hstored
    have hmore : keptHeaders type (hs ++ [(name, value)]) = keptHeaders type hs
        ++ [(name, value)] := by
      rw [keptHeaders_append, if_neg hstored]
    have hcount := htakeable.count
    rw [hmore, List.length_append, List.length_singleton, ← h.header_count] at hcount
    refine ⟨by omega, htakeable.sizes (name, value) ?_⟩
    rw [hmore]
    exact List.mem_append_right _ (List.mem_singleton.mpr rfl)
  obtain ⟨ids, headers, hstore, _⟩ := store_ok hall hroom
  have hpath := htakeable.path (name, value) (List.mem_append_right _ (List.mem_singleton.mpr rfl))
  exact ⟨_, on_header_eq_ok.mpr
    ⟨_, _, gRPCMessage.add_request_eq_ok.mpr ⟨hpath, ids, headers, hstore, rfl⟩, rfl⟩⟩

/-- What is takeable is takeable up to any header. -/
theorem Takeable.prefix {rest : List Field} (h : Takeable config type counter f (hs ++ rest)) :
    Takeable config type counter f hs := by
  induction rest using List.reverseRecOn with
  | nil =>
      rw [List.append_nil] at h
      exact h
  | append_singleton rest x ih =>
      rw [← List.append_assoc] at h
      obtain ⟨y, hy⟩ := h.numbers
      rw [readAll_snoc] at hy
      obtain ⟨z, hz, _⟩ := bind_eq_ok.mp hy
      have hkept := keptHeaders_append type (hs ++ rest) x
      refine ih ⟨⟨z, hz⟩, fun y hy => h.path y (List.mem_append_left _ hy),
        fun y hy => h.sizes y ?_, ?_⟩
      · rw [hkept]
        exact List.mem_append_left _ hy
      · have hcount := h.count
        rw [hkept, List.length_append] at hcount
        omega

/-- One more chunk of data is taken exactly if it fits behind the others. -/
theorem TakenUp.chunk {bytes : Bytes} (h : TakenUp config type counter f hs data s) :
    (∀ t, s.callback config (.on_data_chunk_recv bytes) = .ok t →
        TakenUp config type counter f hs (data ++ bytes) t ∧ (data ++ bytes).length
          ≤ maxPayloadSize)
      ∧ ((data ++ bytes).length ≤ maxPayloadSize →
        ∃ t, s.callback config (.on_data_chunk_recv bytes) = .ok t) := by
  -- The store takes a piece exactly when it fits behind what is there.
  have hlength : s.rpc.req_data.content.length + bytes.length = (data ++ bytes).length := by
    rw [h.content, List.length_append]
  constructor
  · intro t ht
    obtain ⟨m, hm, ht⟩ := bind_eq_ok.mp ht
    obtain ⟨d, hd, hm⟩ := bind_eq_ok.mp hm
    obtain rfl := Except.ok.inj hm
    obtain rfl := Except.ok.inj ht
    obtain ⟨hcontent, hread⟩ := DataReadStruct.add_content hd
    rw [h.content] at hcontent
    refine ⟨⟨h.typed, h.fields, h.service, h.header_text, h.header_count,
      hcontent, hread.trans h.unread⟩, ?_⟩
    rw [← hcontent, d.length_content]
    exact d.offset_le
  · intro hfits
    obtain ⟨d, hd⟩ : ∃ d, s.rpc.req_data.add bytes = .ok d := DataReadStruct.add_exists (by omega)
    refine ⟨{ s with rpc := { s.rpc with req_data := d } }, ?_⟩
    exact bind_eq_ok.mpr ⟨_, bind_eq_ok.mpr ⟨d, hd, rfl⟩, rfl⟩

end TakenUp

/-! ## Requests that are stored -/

namespace Serving

variable {config : IdConfig} {type : ConnectionType} {counter : RPCID}
    {f : IdFields} {s t : Serving}

theorem receive_append {cs ds : List Callback} :
    s.receive config (cs ++ ds) = .ok t ↔ ∃ u, s.receive config cs = .ok u
      ∧ u.receive config ds = .ok t := by
  unfold receive
  rw [List.foldlM_append]
  exact bind_eq_ok

/-- Headers are taken exactly if they are takeable, whatever was in the message before. -/
theorem receive_headers (h : TakenUp config type counter f [] [] s) (hs : List Field) :
    (∀ t, s.receive config (hs.map fun x => .on_header .HCAT_REQUEST x.1 x.2) = .ok t →
        TakenUp config type counter f hs [] t ∧ Takeable config type counter f hs)
      ∧ (Takeable config type counter f hs →
        ∃ t, s.receive config (hs.map fun x => .on_header .HCAT_REQUEST x.1 x.2) = .ok t) := by
  have hnone : Takeable config type counter f [] := by
    refine ⟨⟨_, rfl⟩, ?_, ?_, Nat.zero_le _⟩
    · intro x hx
      cases hx
    · intro x hx
      cases hx
  unfold receive
  rw [List.foldlM_map]
  constructor
  · intro t ht
    -- The invariant of both directions: the headers read so far are taken up, and could be.
    exact Runs.inv_of_foldlM (fun done u => TakenUp config type counter f done [] u
      ∧ Takeable config type counter f done)
      (fun done x u v hu hv => hu.1.header hu.2 hv) ht ⟨h, hnone⟩
  · intro htakeable
    -- Every prefix of a list that can be taken up can be, so no callback on the way fails.
    have hstep : ∀ (done : List Field) (x : Field) (rest : List Field) (u : Serving), hs
        = done ++ x :: rest →
        (TakenUp config type counter f done [] u ∧ Takeable config type counter f done) →
        ∃ v, u.callback config (.on_header .HCAT_REQUEST x.1 x.2) = .ok v
          ∧ TakenUp config type counter f (done ++ [x]) [] v
            ∧ Takeable config type counter f (done ++ [x]) := by
      intro done x rest u hdone hu
      have hnext : Takeable config type counter f (done ++ [x]) := by
        rw [hdone, ← List.singleton_append, ← List.append_assoc] at htakeable
        exact htakeable.prefix
      obtain ⟨v, hv⟩ := hu.1.header_exists hnext
      exact ⟨v, hv, hu.1.header hu.2 hv⟩
    obtain ⟨t, ht, _⟩ := Runs.foldlM_of_inv
      (fun done u => TakenUp config type counter f done [] u ∧ Takeable config type counter f done)
        hstep ⟨h, hnone⟩
    exact ⟨t, ht⟩

/-- Data is taken exactly if it fits, in any division into chunks and frames. -/
theorem receive_pieces {hs : List Field} (h : TakenUp config type counter f hs [] s)
    (pieces : List Piece) :
    (∀ t, s.receive config (pieces.map Piece.callback) = .ok t →
        TakenUp config type counter f hs (pieces.flatMap Piece.data) t
          ∧ (pieces.flatMap Piece.data).length ≤ maxPayloadSize)
      ∧ ((pieces.flatMap Piece.data).length ≤ maxPayloadSize →
        ∃ t, s.receive config (pieces.map Piece.callback) = .ok t) := by
  have hsnoc : ∀ (done : List Piece) (x : Piece),
      (done ++ [x]).flatMap Piece.data = done.flatMap Piece.data ++ x.data := by
    intro done x
    rw [List.flatMap_append, List.flatMap_singleton]
  -- a frame that ends nothing is not looked at
  have hframe : ∀ (u : Serving) (type : FrameType), u.callback config (Piece.frame type).callback
      = .ok u := by
    intro u type
    rfl
  unfold receive
  rw [List.foldlM_map]
  constructor
  · intro t ht
    have hstep : ∀ (done : List Piece) (x : Piece) (u v : Serving),
        (TakenUp config type counter f hs (done.flatMap Piece.data) u
          ∧ (done.flatMap Piece.data).length ≤ maxPayloadSize) →
          u.callback config x.callback = .ok v →
        TakenUp config type counter f hs ((done ++ [x]).flatMap Piece.data) v
          ∧ ((done ++ [x]).flatMap Piece.data).length ≤ maxPayloadSize := by
      intro done x u v hu hv
      rw [hsnoc]
      cases x with
      | chunk bytes => exact hu.1.chunk.1 v hv
      | frame type =>
          obtain rfl := Except.ok.inj ((hframe u type).symm.trans hv)
          rw [Piece.data, List.append_nil]
          exact hu
    have hstart : TakenUp config type counter f hs (([] : List Piece).flatMap Piece.data) s
        ∧ (([] : List Piece).flatMap Piece.data).length ≤ maxPayloadSize := ⟨h, Nat.zero_le _⟩
    exact Runs.inv_of_foldlM _ hstep ht hstart
  · intro hfits
    have hstep : ∀ (done : List Piece) (x : Piece) (rest : List Piece) (u : Serving), pieces
        = done ++ x :: rest →
        TakenUp config type counter f hs (done.flatMap Piece.data) u →
        ∃ v, u.callback config x.callback = .ok v
          ∧ TakenUp config type counter f hs ((done ++ [x]).flatMap Piece.data) v := by
      intro done x rest u hdone hu
      rw [hsnoc]
      cases x with
      | chunk bytes =>
          have hroom : (done.flatMap Piece.data ++ bytes).length ≤ maxPayloadSize := by
            rw [hdone, ← List.singleton_append, ← List.append_assoc, List.flatMap_append, hsnoc,
              List.length_append] at hfits
            exact le_trans (Nat.le_add_right _ _) hfits
          obtain ⟨v, hv⟩ := hu.chunk.2 hroom
          exact ⟨v, hv, (hu.chunk.1 v hv).1⟩
      | frame type =>
          refine ⟨u, hframe u type, ?_⟩
          rw [Piece.data, List.append_nil]
          exact hu
    obtain ⟨t, ht, _⟩ := Runs.foldlM_of_inv
      (fun done u => TakenUp config type counter f hs (done.flatMap Piece.data) u) hstep h
    exact ⟨t, ht⟩

/-- **Which requests are stored**, and as what: both directions for the calls of a whole
request. -/
theorem receive_request {m : gRPCMessage} (hm : Blank type m) (counter : RPCID) (r : GrpcRequest) :
    (∀ t, receive config ⟨m, counter, false⟩ r.callbacks = .ok t →
        TakenUp config type counter m.ids.fields r.headers r.data t ∧ t.queued = true
          ∧ Takeable config type counter m.ids.fields r.headers ∧ r.data.length ≤ maxPayloadSize)
      ∧ (Takeable config type counter m.ids.fields r.headers ∧ r.data.length ≤ maxPayloadSize →
        ∃ t, receive config ⟨m, counter, false⟩ r.callbacks = .ok t) := by
  have hstart : TakenUp config type counter m.ids.fields [] [] ⟨m, counter, false⟩ :=
    ⟨hm.typed, rfl, hm.service, hm.header_text, hm.header_count, hm.content, hm.unread⟩
  obtain ⟨htaken, hexists⟩ := receive_headers hstart r.headers
  constructor
  · -- The callbacks in their order: headers, the frame that ends them, the pieces, the last frame.
    intro t ht
    obtain ⟨u, hu, hend⟩ := receive_append.mp ht
    obtain ⟨u₁, hu₁, hpieces⟩ := receive_append.mp hu
    obtain ⟨u₂, hheaders, hframe⟩ := receive_append.mp hu₁
    obtain ⟨htaken₂, htakeable⟩ := htaken u₂ hheaders
    obtain rfl : u₂ = u₁ := Except.ok.inj hframe
    obtain ⟨htaken₁, hfits⟩ := (receive_pieces htaken₂ r.pieces).1 u hpieces
    obtain rfl : { u with queued := true } = t := Except.ok.inj hend
    exact ⟨⟨htaken₁.typed, htaken₁.fields, htaken₁.service, htaken₁.header_text,
      htaken₁.header_count,
      htaken₁.content, htaken₁.unread⟩, rfl, htakeable, hfits⟩
  · rintro ⟨htakeable, hfits⟩
    obtain ⟨u₂, hheaders⟩ := hexists htakeable
    obtain ⟨u, hpieces⟩ := (receive_pieces (htaken u₂ hheaders).1 r.pieces).2 hfits
    have hframe : receive config u₂ [.frame_recv .HEADERS false] = .ok u₂ := rfl
    have hend : receive config u [.frame_recv .DATA true] = .ok { u with queued := true } := rfl
    exact ⟨_,
      receive_append.mpr
      ⟨u, receive_append.mpr ⟨u₂, receive_append.mpr ⟨u₂, hheaders, hframe⟩, hpieces⟩,
      hend⟩⟩

end Serving

/-! ## Requests that are sent -/

/-- The buffers that nghttp2 reads a text into: none is empty, and together they suffice. -/
structure Offers (lengths : List ℕ) (data : Bytes) : Prop where
  nonempty : lengths ≠ []
  positive : ∀ length ∈ lengths, 0 < length
  suffices_for : data.length ≤ lengths.sum

namespace gRPCMessage

/-- Data of the request is left, and the rest of the message is as it was. -/
def RequestLeft (m₀ m : gRPCMessage) (rest : Bytes) : Prop :=
  ∃ d, m = { m₀ with req_data := d } ∧ d.rest = rest ∧ d.read_offset ≤ d.offset ∧ d.offset ≠ 0

/-- The data of a request is a source, so the general lemmas on reading in chunks apply to it. -/
theorem request_source (m₀ : gRPCMessage) :
    Source (fun m length => .ok (m.data_read_callback_request length)) (RequestLeft m₀) none
      fun m => .ok { m with req_data := m.req_data.finished } where
  more := by
    rintro m rest length ⟨d, rfl, rfl, hread, hoffset⟩ hlen
    obtain ⟨hcopy, hmore, hrest⟩ := DataReadStruct.read_more hlen
    have hle : d.rest.length = d.offset - d.read_offset := by
      unfold DataReadStruct.rest
      rw [List.length_drop, d.length_content]
    refine ⟨_, ?_, _, rfl, hrest, ?_, hoffset⟩
    · unfold data_read_callback_request
      dsimp only
      rw [if_neg hoffset, hcopy, decide_eq_false hmore]
    · dsimp only
      omega
  last := by
    rintro m rest length ⟨d, rfl, rfl, hread, hoffset⟩ hlen
    unfold data_read_callback_request
    dsimp only
    rw [if_neg hoffset, DataReadStruct.read_last hread hlen,
      decide_eq_true (DataReadStruct.read_offset_finished d)]
    rfl

/-- **The data of a request is read to its end**, if the lengths that nghttp2 asks for reach that
far. -/
theorem submit_request_eq {m : gRPCMessage} {lengths : List ℕ}
    (hunread : m.req_data.read_offset = 0) (hlengths : Offers lengths m.req_data.content) :
    ∃ d, m.submit_request lengths = .ok (⟨m.req_headers.text, m.req_data.content, true⟩,
      { m with req_data := d }) := by
  unfold submit_request
  by_cases hempty : m.req_data.content = []
  · -- the first call ends a request without data
    have hoffset : m.req_data.offset = 0 := by
      rw [← m.req_data.length_content, hempty, List.length_nil]
    obtain ⟨length, rest, rfl⟩ := List.exists_cons_of_ne_nil hlengths.nonempty
    refine ⟨m.req_data, ?_⟩
    unfold reads data_read_callback_request
    rw [if_pos hoffset, hempty]
    rfl
  · have hoffset : m.req_data.offset ≠ 0 := by
      rw [← m.req_data.length_content]
      exact fun hzero => hempty (List.length_eq_zero_iff.mp hzero)
    have hrest : m.req_data.rest = m.req_data.content := by
      unfold DataReadStruct.rest
      rw [hunread, List.drop_zero]
    have hleft : RequestLeft m m m.req_data.content :=
      ⟨m.req_data, rfl, hrest, by rw [hunread]; exact Nat.zero_le _, hoffset⟩
    obtain ⟨calls, m', rest, hout, ⟨d, rfl, _⟩, hreads⟩ :=
      (request_source m).reads_eq hleft hempty hlengths.positive
    rw [if_pos hlengths.suffices_for, ok_bind] at hreads
    have hwhole := hout.whole hlengths.suffices_for
    -- the last call has the flag
    have hcalls : calls ≠ [] := by
      rintro rfl
      exact hempty hwhole.symm
    have hlast : calls[calls.length - 1]? = some (calls.getLast hcalls) := by
      rw [List.getLast_eq_getElem]
      exact List.getElem?_eq_getElem _
    have hpos := List.length_pos_of_ne_nil hcalls
    have heof : calls.any DataRead.eof = true := by
      refine List.any_eq_true.mpr ⟨calls.getLast hcalls, List.getLast_mem hcalls,
        (hout.eof _ _ hlast).2.mpr ?_⟩
      rw [Nat.sub_add_cancel hpos, List.take_length]
      exact hwhole
    refine ⟨d.finished, ?_⟩
    rw [hreads, ok_bind]
    dsimp only
    rw [hwhole, heof]

theorem check_ids_eq_ok {config : IdConfig} {m : gRPCMessage} :
    m.check_ids config = .ok ()
      ↔ (config.is_plain_frontend = false → m.ids.rpc.local_id ≠ -1 ∧ m.ids.rpc.priority ≠ -1) := by
  unfold check_ids
  split_ifs with hid hpriority
  · exact iff_of_false nofun fun h => (h hid.2).1 hid.1
  · exact iff_of_false nofun fun h => (h hpriority.2).2 hpriority.1
  · exact iff_of_true rfl fun h => ⟨fun hi => hid ⟨hi, h⟩, fun hp => hpriority ⟨hp, h⟩⟩

/-- The header with the id of the message, on an ingress request. -/
theorem set_local_id_header_eq_ok {config : IdConfig} {counter counter' : RPCID}
    {m m' : gRPCMessage} (htype : m.ids.rpc.type = .INGRESS) :
    m.set_local_id_header config counter = .ok (m', counter')
      ↔ m.ids.rpc.local_id ≠ -1 ∧ ∃ headers,
        m.req_headers.add RPC_LOCAL_ID (Decimal.ofInt m.ids.rpc.local_id.toInt) = .ok headers
          ∧ m' = { m with req_headers := headers } ∧ counter' = counter := by
  unfold set_local_id_header
  rw [add_request_header _ _ _ (by decide)]
  -- The id is read back from the header that is about to be stored, and -1 is refused there.
  by_cases hid : m.ids.rpc.local_id = -1
  · have hread : read_request_header config counter m.ids RPC_LOCAL_ID
        (Decimal.ofInt m.ids.rpc.local_id.toInt)
        = .error .invalidLocalId := by
      rw [read_local_id]
      unfold RPCMessage.add_header_field
      dsimp only
      rw [htype, if_pos hid]
      rfl
    rw [hread]
    exact iff_of_false (fun h => by cases h) fun h => h.1 hid
  · rw [read_local_id_ingress htype hid, ok_bind]
    dsimp only
    rw [if_neg Bool.false_ne_true, bind_eq_ok]
    constructor
    · rintro ⟨headers, hadd, h⟩
      obtain ⟨rfl, rfl⟩ := Prod.mk.inj (Except.ok.inj h)
      exact ⟨hid, headers, hadd, rfl, rfl⟩
    · rintro ⟨_, headers, hadd, rfl, rfl⟩
      exact ⟨headers, hadd, rfl⟩

end gRPCMessage

/-- The headers that a sidecar adds: on the INGRESS side the local id, and none on the other. -/
def ownHeaders (local_id : RPCID) : ConnectionType → List Field
  | .INGRESS => [(RPC_LOCAL_ID, Decimal.ofInt local_id.toInt)]
  | .EGRESS => []

/-- A request with these fields and headers goes on: the local id fits behind the headers, and the
two checks of `forward_request` pass. -/
structure Forwardable (config : IdConfig) (type : ConnectionType) (hs : List Field)
    (f : IdFields) : Prop where
  local_id : type = .INGRESS → f.local_id ≠ -1 ∧ (keptHeaders type hs).length < maxHeaderFieldNumber
  named : config.is_plain_frontend = false → f.local_id ≠ -1 ∧ f.priority ≠ -1

section Relay

variable {config : IdConfig} {type : ConnectionType} {counter counter' : RPCID}
    {f : IdFields} {hs : List Field}
  {data : Bytes} {s : Serving} {m m' : gRPCMessage} {r : GrpcRequest} {lengths : List ℕ}
  {x : SubmittedRequest}

/-- **A stored request** is sent with the headers that were stored and the one of the sidecar, and
all of its data. -/
theorem forward_taken (h : TakenUp config type counter f hs data s)
    (hlengths : Offers lengths data) :
    (∀ x m' c, s.rpc.forward_request config s.local_id_counter lengths = .ok (x, m', c) →
        Forwardable config type hs s.rpc.ids.fields ∧ m'.ids = s.rpc.ids
          ∧ x = ⟨keptHeaders type hs ++ ownHeaders s.rpc.ids.rpc.local_id type, data, true⟩)
      ∧ (Forwardable config type hs s.rpc.ids.fields →
        ∃ y, s.rpc.forward_request config s.local_id_counter lengths = .ok y) := by
  have hcontent := h.content
  unfold gRPCMessage.forward_request
  cases type with
  | EGRESS =>
      -- nothing is added, so only the ids are checked
      have htype : ¬ s.rpc.ids.rpc.type = .INGRESS := by
        rw [h.typed]
        nofun
      obtain ⟨d, hsubmit⟩ := gRPCMessage.submit_request_eq h.unread (hcontent ▸ hlengths)
      rw [if_neg htype, ok_bind]
      dsimp only
      rw [hsubmit, h.header_text, hcontent]
      constructor
      · intro x m' c hrun
        obtain ⟨_, hcheck, hrun⟩ := bind_eq_ok.mp hrun
        obtain ⟨rfl, hrest⟩ := Prod.mk.inj (Except.ok.inj hrun)
        obtain ⟨rfl, rfl⟩ := Prod.mk.inj hrest
        refine ⟨⟨nofun, gRPCMessage.check_ids_eq_ok.mp hcheck⟩, rfl, ?_⟩
        rw [ownHeaders, List.append_nil]
      · intro hforward
        exact ⟨_, bind_eq_ok.mpr ⟨(), gRPCMessage.check_ids_eq_ok.mpr hforward.named, rfl⟩⟩
  | INGRESS =>
      -- the id is written in a header first, which needs a place
      have hcount := h.header_count
      rw [if_pos h.typed]
      constructor
      · intro x m' c hrun
        obtain ⟨⟨m₁, c₁⟩, hheader, hrun⟩ := bind_eq_ok.mp hrun
        obtain ⟨hid, headers, hadd, rfl, rfl⟩ :=
          (gRPCMessage.set_local_id_header_eq_ok h.typed).mp hheader
        obtain ⟨htext, hcount', hroom⟩ := HeaderList.add_text hadd
        obtain ⟨d, hsubmit⟩ :=
          gRPCMessage.submit_request_eq (m := { s.rpc with req_headers := headers })
          h.unread (hcontent ▸ hlengths)
        dsimp only at hrun
        rw [hsubmit] at hrun
        obtain ⟨_, hcheck, hrun⟩ := bind_eq_ok.mp hrun
        obtain ⟨rfl, hrest⟩ := Prod.mk.inj (Except.ok.inj hrun)
        obtain ⟨rfl, rfl⟩ := Prod.mk.inj hrest
        refine ⟨⟨fun _ => ⟨hid, by omega⟩, gRPCMessage.check_ids_eq_ok.mp hcheck⟩, rfl, ?_⟩
        dsimp only
        rw [htext, h.header_text, hcontent, ownHeaders]
      · intro hforward
        obtain ⟨hid, hroom⟩ := hforward.local_id rfl
        have hname : RPC_LOCAL_ID.length < maxHeaderFieldSize := by decide
        obtain ⟨headers, hadd⟩ :=
          HeaderList.add_exists (h := s.rpc.req_headers) (by rw [hcount]; exact hroom) hname
          (length_ofInt_lt s.rpc.ids.rpc.local_id)
        obtain ⟨d, hsubmit⟩ :=
          gRPCMessage.submit_request_eq (m := { s.rpc with req_headers := headers })
          h.unread (hcontent ▸ hlengths)
        have hheader : s.rpc.set_local_id_header config s.local_id_counter
            = .ok ({ s.rpc with req_headers := headers }, s.local_id_counter) :=
          (gRPCMessage.set_local_id_header_eq_ok h.typed).mpr ⟨hid, headers, hadd, rfl, rfl⟩
        rw [hheader, ok_bind]
        dsimp only
        rw [hsubmit]
        exact ⟨_, bind_eq_ok.mpr ⟨(), gRPCMessage.check_ids_eq_ok.mpr hforward.named, rfl⟩⟩

/-- What is known of a request that a sidecar has sent on. -/
structure Relayed (config : IdConfig) (type : ConnectionType) (f : IdFields)
    (counter : RPCID) (r : GrpcRequest) (x : SubmittedRequest) (ids : Identified) : Prop where
  fields : ∃ c, IdFields.readAll config type r.headers counter f = .ok (ids.fields, c)
  service : ids.rpc.service = serviceOf [] r.headers
  sent : x = ⟨keptHeaders type r.headers ++ ownHeaders ids.rpc.local_id type, r.data, true⟩
  takeable : Takeable config type counter f r.headers
  fits : r.data.length ≤ maxPayloadSize
  forwardable : Forwardable config type r.headers ids.fields

theorem relayed_of_relay (hm : Blank type m) (hlengths : Offers lengths r.data)
    (h : relay_request config counter m r lengths = .ok (x, m', counter')) :
    Relayed config type m.ids.fields counter r x m'.ids := by
  obtain ⟨s, hs, h⟩ := bind_eq_ok.mp h
  obtain ⟨htaken, _, htakeable, hfits⟩ := (Serving.receive_request hm counter r).1 s hs
  obtain ⟨hforward, hids, rfl⟩ := (forward_taken htaken hlengths).1 x m' counter' h
  rw [hids]
  exact ⟨⟨_, htaken.fields⟩, htaken.service, rfl, htakeable, hfits, hforward⟩

/-- **Which requests are sent on**: with `receive_request` this is the direction from the condition
to the result. -/
theorem relay_exists (hm : Blank type m) (hlengths : Offers lengths r.data)
    (htakeable : Takeable config type counter m.ids.fields r.headers)
    (hfits : r.data.length ≤ maxPayloadSize)
    (hforward : ∀ y, IdFields.readAll config type r.headers counter m.ids.fields = .ok y →
      Forwardable config type r.headers y.1) :
    ∃ x m' counter', relay_request config counter m r lengths = .ok (x, m', counter') := by
  obtain ⟨s, hs⟩ := (Serving.receive_request hm counter r).2 ⟨htakeable, hfits⟩
  obtain ⟨htaken, _⟩ := (Serving.receive_request hm counter r).1 s hs
  obtain ⟨y, hy⟩ := (forward_taken htaken hlengths).2 (hforward _ htaken.fields)
  exact ⟨y.1, y.2.1, y.2.2, bind_eq_ok.mpr ⟨s, hs, hy⟩⟩

end Relay

/-! ## From one sidecar to the next -/

/-- The headers that go all the way, through both sidecars. -/
def endToEnd (hs : List Field) : List Field := hs.filter fun h => ¬ RPC_LOCAL_ID <+: h.1

theorem keptHeaders_egress (hs : List Field) : keptHeaders .EGRESS hs = endToEnd hs := by
  unfold keptHeaders endToEnd Dropped
  simp

/-- The header with the id of the message ends at the next sidecar. -/
theorem endToEnd_cons_dropped {h : Field} (hlocal : RPC_LOCAL_ID <+: h.1) (hs : List Field) :
    endToEnd (h :: hs) = endToEnd hs := by
  unfold endToEnd
  rw [List.filter_cons_of_neg (by simpa using hlocal)]

theorem endToEnd_cons_kept {h : Field} (hlocal : ¬ RPC_LOCAL_ID <+: h.1) (hs : List Field) :
    endToEnd (h :: hs) = h :: endToEnd hs := by
  unfold endToEnd
  rw [List.filter_cons_of_pos (by simpa using hlocal)]

/-- An id of its own is never the one of a message without. -/
theorem new_local_id_ne (counter : RPCID) : (get_new_local_id counter 0).1 ≠ -1 := by
  intro h
  have hnat := congrArg BitVec.toNat h
  rw [get_new_local_id_toNat] at hnat
  have hzero : (0 : RPCID).toNat = 0 := rfl
  have hone : (-1 : RPCID).toNat = 2 ^ 64 - 1 := rfl
  rw [hzero, hone] at hnat
  omega

/-- The names that are looked for exclude each other, so the order of the checks does not
matter. -/
theorem names_exclude {name : Bytes} :
    (RPC_ID <+: name → ¬ RPC_LOCAL_ID <+: name ∧ ¬ PRIORITY <+: name)
    ∧ (RPC_LOCAL_ID <+: name → ¬ PRIORITY <+: name) := by
  refine ⟨fun hid => ⟨fun hlocal => ?_, priority_alone (.inl hid)⟩,
    fun hlocal => priority_alone (.inr hlocal)⟩
  exact absurd (List.prefix_of_prefix_length_le hid hlocal (by decide)) (by decide)

/-- A header says nothing of the priority, unless it has its name. -/
theorem priorityOf_other (priority : Priority) {h : Field} (hname : ¬ PRIORITY <+: h.1) :
    priorityOf priority [h] = priority := by
  unfold priorityOf
  rw [List.foldl_cons, List.foldl_nil, if_neg hname]

theorem priorityOf_cons (priority : Priority) (h : Field) (hs : List Field) :
    priorityOf priority (h :: hs) = priorityOf (priorityOf priority [h]) hs := rfl

/-- One header, read by both sidecars: the priority is the same, and each gives its own local
id. -/
theorem read_hop {config₁ : IdConfig} (config₂ : IdConfig) {c₁ : RPCID} {f₁ : IdFields} {h : Field}
    {z₁ : IdFields × RPCID} (hread : IdFields.read config₁ .EGRESS c₁ f₁ h.1 h.2 = .ok z₁) :
    z₁.1.priority = priorityOf f₁.priority [h]
      ∧ (¬ RPC_LOCAL_ID <+: h.1 → ∀ (c₂ : RPCID) (f₂ : IdFields), ∃ z₂,
        IdFields.read config₂ .INGRESS c₂ f₂ h.1 h.2 = .ok z₂ ∧ z₂.1.priority
          = priorityOf f₂.priority [h]
          ∧ (z₂.1.local_id ≠ -1 ↔ f₂.local_id ≠ -1 ∨ RPC_ID <+: h.1)) := by
  unfold IdFields.read at hread ⊢
  by_cases hid : RPC_ID <+: h.1
  · -- both read the number, and the second one makes an id of its own
    have hpriority : ¬ PRIORITY <+: h.1 := (names_exclude.1 hid).2
    rw [if_pos hid] at hread
    obtain ⟨z, hz, hread⟩ := bind_eq_ok.mp hread
    rw [priorityOf_other _ hpriority]
    refine ⟨?_, fun _ c₂ f₂ => ?_⟩
    · dsimp only at hread
      by_cases hedge : config₁.is_ingress = true ∨ ConnectionType.EGRESS = .INGRESS
      · rw [if_pos hedge] at hread
        obtain rfl := Except.ok.inj hread
        rfl
      · rw [if_neg hedge] at hread
        obtain rfl := Except.ok.inj hread
        rfl
    · rw [if_pos hid, hz, ok_bind]
      dsimp only
      rw [if_pos (.inr rfl)]
      exact ⟨_, rfl, (priorityOf_other _ hpriority).symm,
        iff_of_true (new_local_id_ne c₂) (.inr hid)⟩
  rw [if_neg hid] at hread
  by_cases hlocal : RPC_LOCAL_ID <+: h.1
  · -- the first one reads it and does not pass it on
    rw [if_pos hlocal] at hread
    obtain ⟨z, hz, hread⟩ := bind_eq_ok.mp hread
    dsimp only at hread
    rw [priorityOf_other _ (names_exclude.2 hlocal)]
    refine ⟨?_, fun hother => absurd hlocal hother⟩
    split_ifs at hread
    obtain rfl := Except.ok.inj hread
    rfl
  rw [if_neg hlocal] at hread
  by_cases hpriority : PRIORITY <+: h.1
  · rw [if_pos hpriority] at hread
    obtain ⟨z, hz, hread⟩ := bind_eq_ok.mp hread
    obtain rfl := Except.ok.inj hread
    have hgiven : ∀ p : Priority, priorityOf p [h] = BitVec.ofInt 32 z := by
      intro p
      unfold priorityOf
      rw [List.foldl_cons, List.foldl_nil, if_pos hpriority, hz]
      rfl
    refine ⟨(hgiven _).symm, fun _ c₂ f₂ => ?_⟩
    rw [if_neg hid, if_neg hlocal, if_pos hpriority, hz, ok_bind]
    exact ⟨_, rfl, (hgiven _).symm, by simp [hid]⟩
  · rw [if_neg hpriority] at hread
    obtain rfl := Except.ok.inj hread
    refine ⟨(priorityOf_other _ hpriority).symm, fun _ c₂ f₂ => ?_⟩
    rw [if_neg hid, if_neg hlocal, if_neg hpriority]
    exact ⟨_, rfl, (priorityOf_other _ hpriority).symm, by simp [hid]⟩

/-- **What the caller's sidecar has read, the callee's reads.** The id is its own, the priority the
one that is given. -/
theorem readAll_hop {config₁ : IdConfig} (config₂ : IdConfig) {hs : List Field}
    {c₁ : RPCID} {f₁ : IdFields} {y₁ : IdFields × RPCID}
    (hall : IdFields.readAll config₁ .EGRESS hs c₁ f₁ = .ok y₁) (c₂ : RPCID) (f₂ : IdFields) :
    y₁.1.priority = priorityOf f₁.priority hs
      ∧ ∃ y₂, IdFields.readAll config₂ .INGRESS (endToEnd hs) c₂ f₂ = .ok y₂
      ∧ y₂.1.priority = priorityOf f₂.priority hs
      ∧ (y₂.1.local_id ≠ -1 ↔ f₂.local_id ≠ -1 ∨ ∃ h ∈ hs, RPC_ID <+: h.1) := by
  induction hs generalizing c₁ f₁ c₂ f₂ with
  | nil =>
      obtain rfl := Except.ok.inj hall
      exact ⟨rfl, _, rfl, rfl, by simp⟩
  | cons h hs ih =>
      obtain ⟨z₁, hread, hrest⟩ := bind_eq_ok.mp hall
      obtain ⟨hpriority, hsecond⟩ := read_hop config₂ hread
      rw [priorityOf_cons f₁.priority h hs, priorityOf_cons f₂.priority h hs]
      by_cases hlocal : RPC_LOCAL_ID <+: h.1
      · -- the header ends here
        have hid : ¬ RPC_ID <+: h.1 := fun hid => (names_exclude.1 hid).1 hlocal
        obtain ⟨hfirst, y₂, hall₂, hpriority₂, hlocal₂⟩ := ih hrest c₂ f₂
        rw [endToEnd_cons_dropped hlocal, priorityOf_other f₂.priority (names_exclude.2 hlocal)]
        refine ⟨by rw [hfirst, hpriority], y₂, hall₂, hpriority₂, hlocal₂.trans ?_⟩
        simp [hid]
      · -- the other sidecar goes on with what it made of it
        obtain ⟨z₂, hread₂, hpriority₂, hlocal₂⟩ := hsecond hlocal c₂ f₂
        obtain ⟨hfirst, y₂, hall₂, hpriority₃, hlocal₃⟩ := ih hrest z₂.2 z₂.1
        rw [endToEnd_cons_kept hlocal]
        refine ⟨by rw [hfirst, hpriority], y₂, bind_eq_ok.mpr ⟨z₂, hread₂, hall₂⟩, by
          rw [hpriority₃, hpriority₂],
          hlocal₃.trans ?_⟩
        rw [hlocal₂]
        simp [or_assoc]

/-- The service does not depend on what is dropped, as that is no path. -/
theorem serviceOf_endToEnd (service : Bytes) (hs : List Field) :
    serviceOf service (endToEnd hs) = serviceOf service hs := by
  induction hs generalizing service with
  | nil => rfl
  | cons h hs ih =>
      by_cases hlocal : RPC_LOCAL_ID <+: h.1
      · have hpath : cstring h.1 ≠ PATH := cstring_ne_path hlocal (by decide) (by decide)
        rw [endToEnd_cons_dropped hlocal, ih]
        unfold serviceOf
        rw [List.foldl_cons, if_neg hpath]
      · rw [endToEnd_cons_kept hlocal]
        exact ih _

/-- A priority that is given is the same to everybody who has read it. -/
theorem priorityOf_given {config : IdConfig} {type : ConnectionType} {hs : List Field}
    {c : RPCID} {f : IdFields} {y : IdFields × RPCID}
    (hall : IdFields.readAll config type hs c f = .ok y) (hgiven : ∃ h ∈ hs, PRIORITY <+: h.1)
    (p q : Priority) : priorityOf p hs = priorityOf q hs := by
  induction hs generalizing c f p q with
  | nil =>
      obtain ⟨h, hmem, _⟩ := hgiven
      cases hmem
  | cons h hs ih =>
      obtain ⟨z, hread, hrest⟩ := bind_eq_ok.mp hall
      rw [priorityOf_cons p, priorityOf_cons q]
      by_cases hlater : ∃ h ∈ hs, PRIORITY <+: h.1
      · exact ih hrest hlater _ _
      · have hname : PRIORITY <+: h.1 := by
          obtain ⟨g, hmem, hg⟩ := hgiven
          rcases List.mem_cons.mp hmem with rfl | hmem
          · exact hg
          · exact absurd ⟨g, hmem, hg⟩ hlater
        -- it is read as a number
        unfold IdFields.read at hread
        rw [if_neg fun hid => (names_exclude.1 hid).2 hname,
          if_neg fun hlocal => names_exclude.2 hlocal hname,
          if_pos hname] at hread
        obtain ⟨n, hn, _⟩ := bind_eq_ok.mp hread
        have hsame : priorityOf p [h] = priorityOf q [h] := by
          unfold priorityOf
          rw [List.foldl_cons, List.foldl_cons, if_pos hname, if_pos hname, hn]
          rfl
        rw [hsame]

/-- What a sidecar demands of the headers that a caller has sent, to send them on once more after
another one: a place for its own id, an id of the request, and a priority, which a plain frontend
does without. -/
def Relayable (config : IdConfig) (m : gRPCMessage) (headers : List Field) : Prop :=
  (endToEnd headers).length < maxHeaderFieldNumber ∧ (∃ h ∈ headers, RPC_ID <+: h.1)
    ∧ (config.is_plain_frontend = true ∨ priorityOf m.ids.rpc.priority headers ≠ -1)

/-- **The next sidecar** sends on what it gets of a request: what the caller has said, with the
data, and the id under which the callee's requests are told apart. It is sent on exactly if there
is room for that id, if the request has one of its own, and if it has a priority; in every other
case the process ends. -/
theorem request_hop_iff {config₁ config₂ : IdConfig} {counter₁ counter₂ c₁ : RPCID}
    {m₁ m₁' m₂ : gRPCMessage} {r₁ r₂ : GrpcRequest} {lengths₁ lengths₂ : List ℕ}
    {x₁ : SubmittedRequest} (hm₁ : Blank .EGRESS m₁) (hlengths₁ : Offers lengths₁ r₁.data)
    (hrelay : relay_request config₁ counter₁ m₁ r₁ lengths₁ = .ok (x₁, m₁', c₁))
    (hm₂ : Blank .INGRESS m₂) (hheaders : r₂.headers = x₁.headers) (hdata : r₂.data = x₁.data)
    (hlengths₂ : Offers lengths₂ r₂.data) :
    ((∃ x₂ m₂' c₂, relay_request config₂ counter₂ m₂ r₂ lengths₂ = .ok (x₂, m₂', c₂)
        ∧ x₂ = ⟨endToEnd r₁.headers ++ [(RPC_LOCAL_ID, Decimal.ofInt m₂'.ids.rpc.local_id.toInt)],
          r₁.data, true⟩
        ∧ m₂'.ids.rpc.service = m₁'.ids.rpc.service
        ∧ ((∃ h ∈ r₁.headers, PRIORITY <+: h.1) → m₂'.ids.rpc.priority = m₁'.ids.rpc.priority))
      ↔ Relayable config₂ m₂ r₁.headers)
    ∧ (¬ Relayable config₂ m₂ r₁.headers →
      ∃ abort, relay_request config₂ counter₂ m₂ r₂ lengths₂ = .error abort) := by
  have hfirst := relayed_of_relay hm₁ hlengths₁ hrelay
  have hsent := hfirst.sent
  rw [keptHeaders_egress, ownHeaders, List.append_nil] at hsent
  have hheaders' : r₂.headers = endToEnd r₁.headers := by rw [hheaders, hsent]
  have hdata' : r₂.data = r₁.data := by rw [hdata, hsent]
  have hkept : keptHeaders .INGRESS r₂.headers = endToEnd r₁.headers := by
    rw [keptHeaders_ingress, hheaders']
  obtain ⟨c, hread₁⟩ := hfirst.fields
  obtain ⟨hpriority₁, y₂, hread₂, hpriority₂, hid₂⟩ :=
    readAll_hop config₂ hread₁ counter₂ m₂.ids.fields
  rw [← hheaders'] at hread₂
  have hnone : m₂.ids.fields.local_id = -1 := hm₂.local_id
  have hid : y₂.1.local_id ≠ -1 ↔ ∃ h ∈ r₁.headers, RPC_ID <+: h.1 :=
    hid₂.trans (or_iff_right fun h => h hnone)
  -- what the second sidecar demands to send it on was met
  have hrelayable : ∀ x₂ m₂' c₂, relay_request config₂ counter₂ m₂ r₂ lengths₂ = .ok (x₂, m₂', c₂) →
      Relayable config₂ m₂ r₁.headers := by
    intro x₂ m₂' c₂ hrelay₂
    have hsecond := relayed_of_relay hm₂ hlengths₂ hrelay₂
    obtain ⟨c', hread⟩ := hsecond.fields
    obtain rfl : y₂ = (m₂'.ids.fields, c') := Except.ok.inj (hread₂.symm.trans hread)
    obtain ⟨hne, hroom⟩ := hsecond.forwardable.local_id rfl
    rw [hkept] at hroom
    refine ⟨hroom, hid.mp hne, ?_⟩
    cases hplain : config₂.is_plain_frontend with
    | true => exact .inl rfl
    | false =>
        have hnamed := (hsecond.forwardable.named hplain).2
        rw [hpriority₂] at hnamed
        exact .inr hnamed
  refine ⟨⟨fun ⟨x₂, m₂', c₂, hrelay₂, _⟩ => hrelayable x₂ m₂' c₂ hrelay₂, ?_⟩, fun hno => ?_⟩
  · rintro ⟨hroom, hgiven, hpriority⟩
    -- it gets the headers that the first one has stored, and has a place left
    have htakeable : Takeable config₂ .INGRESS counter₂ m₂.ids.fields r₂.headers := by
      refine ⟨⟨y₂, hread₂⟩, fun h hh => ?_, fun h hh => ?_, ?_⟩
      · rw [hheaders'] at hh
        exact hfirst.takeable.path h (List.mem_of_mem_filter hh)
      · rw [hkept, ← keptHeaders_egress] at hh
        exact hfirst.takeable.sizes h hh
      · rw [hkept]
        exact hroom.le
    obtain ⟨x₂, m₂', c₂, hrelay₂⟩ :=
      relay_exists hm₂ hlengths₂ htakeable (hdata' ▸ hfirst.fits) fun y hy => by
      obtain rfl : y₂ = y := Except.ok.inj (hread₂.symm.trans hy)
      refine ⟨fun _ => ⟨hid.mpr hgiven, by rw [hkept]; exact hroom⟩,
        fun hplain => ⟨hid.mpr hgiven, ?_⟩⟩
      rw [hpriority₂]
      exact hpriority.resolve_left (by rw [hplain]; exact Bool.false_ne_true)
    have hsecond := relayed_of_relay hm₂ hlengths₂ hrelay₂
    obtain ⟨c', hread⟩ := hsecond.fields
    obtain rfl : y₂ = (m₂'.ids.fields, c') := Except.ok.inj (hread₂.symm.trans hread)
    refine ⟨x₂, m₂', c₂, hrelay₂, ?_, ?_, fun hprioritized => ?_⟩
    · rw [hsecond.sent, hkept, hdata', ownHeaders]
    · rw [hsecond.service, hfirst.service, hheaders', serviceOf_endToEnd]
    · exact hpriority₂.trans ((priorityOf_given hread₁ hprioritized _ _).trans hpriority₁.symm)
  · cases hrelay₂ : relay_request config₂ counter₂ m₂ r₂ lengths₂ with
    | error abort => exact ⟨abort, rfl⟩
    | ok out => exact absurd (hrelayable out.1 out.2.1 out.2.2 hrelay₂) hno

/-- ":path" and "/s", "rpc-id" and "7", "rpc-local-id" and "5", "priority" and "3" -/
def callHeaders : List Field :=
  [(PATH, [47, 115]), (RPC_ID, [55]), (RPC_LOCAL_ID, [53]), (PRIORITY, [51])]

/-- A call with two chunks of data, which come as one to the next sidecar. -/
theorem request_hop_call : ∃ x₁ m₁' c₁,
    relay_request ⟨false, false⟩ 1 egress_call ⟨callHeaders, [.chunk [1, 2], .chunk [3]]⟩ [2, 9]
      = .ok (x₁, m₁', c₁)
      ∧ ∃ x₂ m₂' c₂, relay_request ⟨false, false⟩ 8
        (.create (RPCMapper.blankMessage .HTTP2 .INGRESS 0))
            ⟨x₁.headers, [.chunk x₁.data]⟩ [1, 1, 1] = .ok (x₂, m₂', c₂)
          ∧ x₂ = ⟨endToEnd callHeaders
            ++ [(RPC_LOCAL_ID, Decimal.ofInt m₂'.ids.rpc.local_id.toInt)], [1, 2, 3], true⟩
          ∧ m₂'.ids.rpc.service = m₁'.ids.rpc.service
          ∧ ((∃ h ∈ callHeaders, PRIORITY <+: h.1) → m₂'.ids.rpc.priority
            = m₁'.ids.rpc.priority) := by
  have hm₁ : Blank .EGRESS egress_call := ⟨rfl, rfl, rfl, rfl, rfl, rfl, rfl⟩
  have hm₂ : Blank .INGRESS (.create (RPCMapper.blankMessage .HTTP2 .INGRESS 0)) :=
    ⟨rfl, rfl, rfl, rfl, rfl, rfl, rfl⟩
  have hlengths₁ : Offers [2, 9] (GrpcRequest.data ⟨callHeaders, [.chunk [1, 2], .chunk [3]]⟩) :=
    ⟨by decide, by decide, by decide⟩
  obtain ⟨y, hread, hy⟩ : ∃ y, IdFields.readAll ⟨false, false⟩ .EGRESS
    callHeaders 1 egress_call.ids.fields = .ok y
      ∧ y.1.local_id ≠ -1 ∧ y.1.priority ≠ -1 := ⟨_, rfl, by decide, by decide⟩
  have htakeable : Takeable ⟨false, false⟩ .EGRESS 1 egress_call.ids.fields callHeaders :=
    ⟨⟨y, hread⟩, by decide, by decide, by decide⟩
  -- The first sidecar's relay exists; only its content is needed, never its value.
  obtain ⟨x₁, m₁', c₁, hrelay⟩ := relay_exists hm₁ hlengths₁ htakeable (by decide) fun z hz => by
    obtain rfl : y = z := Except.ok.inj (hread.symm.trans hz)
    exact ⟨nofun, fun _ => hy⟩
  have hdata : x₁.data = [1, 2, 3] := by rw [(relayed_of_relay hm₁ hlengths₁ hrelay).sent]; rfl
  have hlengths₂ : Offers [1, 1, 1] (GrpcRequest.data ⟨x₁.headers, [.chunk x₁.data]⟩) := by
    rw [hdata]
    exact ⟨by decide, by decide, Nat.le_refl 3⟩
  exact ⟨x₁, m₁', c₁, hrelay,
    (request_hop_iff hm₁ hlengths₁ hrelay hm₂ rfl (by simp [GrpcRequest.data, Piece.data])
    hlengths₂).1.mpr ⟨by decide, by decide, .inr (by decide)⟩⟩

end RlpSidecar
