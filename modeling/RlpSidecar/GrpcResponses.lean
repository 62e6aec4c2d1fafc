/-
gRPC responses, from the upstream session to the downstream one (`connection.cc`, the nghttp2
callbacks and `submit_response`; `state.cc`, the last part of `forward`).

A response comes in through three callbacks and is stored in its message: the initial headers, the
data, the trailers. It goes out in one of two ways. One without data is taken for an error and sent
back as its headers alone; any other is sent with a data provider, which submits the trailers when
nghttp2 has read the last byte. How many bytes nghttp2 reads at a time is its own business.

`response_forwarded` says for which responses, of those within the limits of a message, what goes
out is what came in: those with data or without trailers, and with no name or value that fills its
array. `drain_eq` follows the data provider through all of its calls, for any lengths that nghttp2
asks for.
-/
import RlpSidecar.Messages
import RlpSidecar.RpcMapper

set_option autoImplicit false

namespace RlpSidecar

/-- A header or a trailer, its name and its value. -/
abbrev Field := Bytes × Bytes

/-! ## The callbacks of the upstream session -/

/-- `nghttp2_headers_category`, without pushes: by it the callback tells trailers, HCAT_HEADERS,
from the headers of a response. -/
inductive HeadersCategory
  | HCAT_REQUEST
  | HCAT_RESPONSE
  | HCAT_HEADERS
  deriving DecidableEq, Repr

/-- `nghttp2_frame_type`, as far as the callbacks tell frames apart. SETTINGS concern the
connection and not a message. -/
inductive FrameType
  | DATA
  | HEADERS
  | SETTINGS
  | OTHER
  deriving DecidableEq, Repr

/-- A call of nghttp2 on the stream of the response, with what the callback reads of its
arguments. -/
inductive Callback
  | on_header (cat : HeadersCategory) (name value : Bytes)
  | on_data_chunk_recv (data : Bytes)
  | frame_recv (type : FrameType) (end_stream : Bool)
  deriving DecidableEq, Repr

/-- The message of a response, and whether the response is in `rpc_queue`. -/
structure Receiving where
  rpc : gRPCMessage
  local_id_counter : RPCID
  queued : Bool

namespace Receiving

/-- `on_header_callback`, on an upstream connection. A header of a request cannot come from a
server, and the source ends the process over it. -/
def on_header_callback (config : IdConfig) (s : Receiving) (cat : HeadersCategory)
    (name value : Bytes) : Except Abort Receiving :=
  match cat with
  -- headers of a request come on the sessions to the clients
  | .HCAT_REQUEST => .error .invalidDirection
  -- a second block of headers holds the trailers
  | .HCAT_HEADERS => do
    let (rpc, local_id_counter) ←
      s.rpc.add_header_field config s.local_id_counter name value false true
    .ok { s with rpc := rpc, local_id_counter := local_id_counter }
  | .HCAT_RESPONSE => do
    let (rpc, local_id_counter) ←
      s.rpc.add_header_field config s.local_id_counter name value false false
    .ok { s with rpc := rpc, local_id_counter := local_id_counter }

/-- `on_data_chunk_recv_callback`, on an upstream connection: the chunk is added to the payload of
the response. -/
def on_data_chunk_recv_callback (s : Receiving) (data : Bytes) : Except Abort Receiving := do
  .ok { s with rpc := ← s.rpc.add_data data false }

/-- `frame_recv_callback`, on an upstream connection. Data that ends a stream is taken for a
request, and no request is stored under an upstream descriptor. -/
def frame_recv_callback (s : Receiving) (type : FrameType) (end_stream : Bool) :
    Except Abort Receiving :=
  if end_stream then
    match type with
    -- taken for the end of a request, which is then not found
    | .DATA => .error .noDsRpc
    | .HEADERS =>
      -- a response that ends with its headers has no data, and is taken for an error
      let s := { s with queued := true }
      if s.rpc.res_data.offset = 0 then .ok { s with rpc.ids.rpc.error := true } else .ok s
    | .SETTINGS | .OTHER => .ok s
  else .ok s

/-- One call, by the function it is a call of. -/
def callback (config : IdConfig) (s : Receiving) : Callback → Except Abort Receiving
  | .on_header cat name value => s.on_header_callback config cat name value
  | .on_data_chunk_recv data => s.on_data_chunk_recv_callback data
  | .frame_recv type end_stream => s.frame_recv_callback type end_stream

/-- The calls in their order; the first that fails ends the process. -/
def receive (config : IdConfig) (s : Receiving) (cs : List Callback) : Except Abort Receiving :=
  cs.foldlM (callback config) s

/-- The message after the frame that ends the stream of a response with this data. -/
def ended (s : Receiving) (data : Bytes) : Receiving :=
  { s with queued := true, rpc.ids.rpc.error := decide (data = []) }

end Receiving

/-! ## The downstream session -/

/-- What `data_read_callback_response` returns. `trailer` is what it has submitted, with
`NGHTTP2_DATA_FLAG_NO_END_STREAM`, so that the trailers and not the data end the stream. -/
structure DataRead where
  buf : Bytes
  eof : Bool
  trailer : Option (List Field)
  deriving DecidableEq, Repr

/-- What has gone to the downstream session. Without trailers the stream ends after the data. -/
structure Submitted where
  headers : List Field
  data : Bytes
  trailers : Option (List Field)
  deriving DecidableEq, Repr

namespace gRPCMessage

/-- `data_read_callback_response`: the next part of the payload, and with the last one the
trailers. A response without a payload is at its end at once. -/
def data_read_callback_response (m : gRPCMessage) (length : ℕ) : DataRead × gRPCMessage :=
  if m.res_data.offset = 0 then (⟨[], true, none⟩, m)
  else
    let (buf, res_data) := m.res_data.read length
    let m := { m with res_data := res_data }
    if res_data.read_offset = res_data.offset then (⟨buf, true, some m.res_trailers.text⟩, m)
    else (⟨buf, false, none⟩, m)

/-- nghttp2 reads until the end of the data, `lengths` bytes at a time. -/
def drain : List ℕ → gRPCMessage → Option (Bytes × Option (List Field))
  | [], _ => none
  | length :: lengths, m =>
    let (r, m) := m.data_read_callback_response length
    if r.eof then some (r.buf, r.trailer)
    else (drain lengths m).map fun x => (r.buf ++ x.1, x.2)

/-- `HTTP2Connection::submit_response`: the headers, and the calls of the data callback that
nghttp2 makes with the given lengths. There is no result when the lengths do not reach the end. -/
def submit_response (m : gRPCMessage) (lengths : List ℕ) : Option Submitted :=
  (m.drain lengths).map fun x => ⟨m.res_headers.text, x.1, x.2⟩

/-- `HTTP2Connection::submit_error_response`, without a data provider: the headers end the stream,
and neither payload nor trailers are looked at. -/
def submit_error_response (m : gRPCMessage) : Submitted := ⟨m.res_headers.text, [], none⟩

/-- What `State::forward` does with a response: one marked as an error goes by the way that has no
data. -/
def forward_response (m : gRPCMessage) (lengths : List ℕ) : Option Submitted :=
  if m.ids.rpc.error then some m.submit_error_response else m.submit_response lengths

/-- A call that reads the last byte returns the rest and submits the trailers. -/
theorem data_read_last {m : gRPCMessage} {length : ℕ} (hdata : m.res_data.offset ≠ 0)
    (hread : m.res_data.read_offset ≤ m.res_data.offset)
    (hlast : m.res_data.offset - m.res_data.read_offset ≤ length) :
    (m.data_read_callback_response length).1
      = ⟨m.res_data.content.drop m.res_data.read_offset, true, some m.res_trailers.text⟩ := by
  have hall : (m.res_data.content.drop m.res_data.read_offset).length ≤
      m.res_data.offset - m.res_data.read_offset := by
    rw [List.length_drop, m.res_data.length_content]
  unfold data_read_callback_response DataReadStruct.read
  rw [if_neg hdata, Nat.min_eq_left hlast]
  dsimp only
  rw [if_pos (show m.res_data.read_offset + (m.res_data.offset - m.res_data.read_offset)
    = m.res_data.offset by omega), List.take_of_length_le hall]

/-- A call that leaves some returns as much as it was asked for, and only the offset moves. -/
theorem data_read_more {m : gRPCMessage} {length : ℕ} (hdata : m.res_data.offset ≠ 0)
    (hmore : length < m.res_data.offset - m.res_data.read_offset) :
    m.data_read_callback_response length
      = (⟨(m.res_data.content.drop m.res_data.read_offset).take length, false, none⟩,
        { m with res_data.read_offset := m.res_data.read_offset + length }) := by
  unfold data_read_callback_response DataReadStruct.read
  rw [if_neg hdata, Nat.min_eq_right (by omega)]
  dsimp only
  rw [if_neg (show ¬ m.res_data.read_offset + length = m.res_data.offset by omega)]

/-- **Reading to the end** gives what has not been read, and then the trailers. -/
theorem drain_eq {m : gRPCMessage} {lengths : List ℕ} (hdata : m.res_data.offset ≠ 0)
    (hread : m.res_data.read_offset ≤ m.res_data.offset) (hne : lengths ≠ [])
    (hsum : m.res_data.offset - m.res_data.read_offset ≤ lengths.sum) :
    m.drain lengths
      = some (m.res_data.content.drop m.res_data.read_offset, some m.res_trailers.text) := by
  induction lengths generalizing m with
  | nil => exact absurd rfl hne
  | cons length lengths ih =>
      rw [List.sum_cons] at hsum
      unfold drain
      by_cases hlast : m.res_data.offset - m.res_data.read_offset ≤ length
      · dsimp only
        rw [data_read_last hdata hread hlast]
        rfl
      · -- what is left is not empty, so there is a next call
        have hmore : length < m.res_data.offset - m.res_data.read_offset := by omega
        have hrest : lengths ≠ [] := by
          intro hnil
          rw [hnil, List.sum_nil] at hsum
          omega
        have hnext := ih (m := { m with res_data.read_offset := m.res_data.read_offset + length })
          hdata (by dsimp only; omega) hrest (by dsimp only; omega)
        rw [data_read_more hdata hmore]
        dsimp only at hnext ⊢
        rw [hnext]
        have hdrop : m.res_data.content.drop (m.res_data.read_offset + length)
            = (m.res_data.content.drop m.res_data.read_offset).drop length := List.drop_drop.symm
        rw [if_neg (by decide), Option.map_some]
        dsimp only
        rw [show DataReadStruct.content { m.res_data with
          read_offset := m.res_data.read_offset + length } = m.res_data.content from rfl, hdrop,
          List.take_append_drop]

end gRPCMessage

/-! ## What a message has stored of its response -/

/-- A message whose request has come in, and nothing of the response: a new or a cleared message,
what the request has filled in, and what routing has set. -/
inductive Awaiting (config : IdConfig) : gRPCMessage → Prop
  | create (rpc : RPCMessage) (h : rpc.error = false) : Awaiting config (.create rpc)
  | clear (m m' : gRPCMessage) (h : m.clear = .ok m') : Awaiting config m'
  | header (m m' : gRPCMessage) (counter counter' : RPCID) (name value : Bytes)
      (hm : Awaiting config m)
      (h : m.add_header_field config counter name value true false = .ok (m', counter')) :
      Awaiting config m'
  | data (m m' : gRPCMessage) (bytes : Bytes) (hm : Awaiting config m)
      (h : m.add_data bytes true = .ok m') : Awaiting config m'
  | routed (m : gRPCMessage) (ids : Identified) (hm : Awaiting config m)
      (h : ids.rpc.error = m.ids.rpc.error) : Awaiting config { m with ids := ids }

/-- The part of a response that is stored: what its headers, its payload and its trailers read as,
none of it handed on yet. -/
structure Stored (headers : List Field) (data : Bytes) (trailers : List Field) (m : gRPCMessage) :
    Prop where
  header_text : m.res_headers.text = headers
  header_count : m.res_headers.count = headers.length
  content : m.res_data.content = data
  unread : m.res_data.read_offset = 0
  trailer_text : m.res_trailers.text = trailers
  trailer_count : m.res_trailers.count = trailers.length
  no_error : m.ids.rpc.error = false

section Storing

variable {config : IdConfig}

/-- The identifiers that a request header sets do not include the mark of an error. -/
theorem read_request_header_error {counter counter' : RPCID} {m m' : Identified}
    {name value : Bytes} {dropped : Bool}
    (h : read_request_header config counter m name value = .ok (m', counter', dropped)) :
    m'.rpc.error = m.rpc.error := by
  unfold read_request_header at h
  split_ifs at h
  · obtain ⟨id, _, h⟩ := bind_eq_ok.mp h
    obtain ⟨⟨rpc, c⟩, hrpc, h⟩ := bind_eq_ok.mp h
    obtain ⟨rfl, _⟩ := Prod.mk.inj (Except.ok.inj h)
    exact (RPCMessage.add_header_field_keys hrpc).2.2.2.2
  · obtain ⟨id, _, h⟩ := bind_eq_ok.mp h
    obtain ⟨⟨rpc, c⟩, hrpc, h⟩ := bind_eq_ok.mp h
    obtain ⟨rfl, _⟩ := Prod.mk.inj (Except.ok.inj h)
    exact (RPCMessage.add_header_field_keys hrpc).2.2.2.2
  · obtain ⟨priority, _, h⟩ := bind_eq_ok.mp h
    obtain ⟨⟨rpc, c⟩, hrpc, h⟩ := bind_eq_ok.mp h
    obtain ⟨rfl, _⟩ := Prod.mk.inj (Except.ok.inj h)
    exact (RPCMessage.add_header_field_keys hrpc).2.2.2.2
  · obtain ⟨rfl, _⟩ := Prod.mk.inj (Except.ok.inj h)
    rfl

/-- Reading a path touches neither the response nor its mark. -/
theorem read_path_error {m m' : gRPCMessage} {name value : Bytes}
    (h : m.read_path name value = .ok m') :
    m'.ids.rpc.error = m.ids.rpc.error ∧ m'.res_headers = m.res_headers ∧ m'.res_data = m.res_data
      ∧ m'.res_trailers = m.res_trailers := by
  unfold gRPCMessage.read_path at h
  split_ifs at h
  · obtain rfl := Except.ok.inj h
    exact ⟨rfl, rfl, rfl, rfl⟩
  · obtain rfl := Except.ok.inj h
    exact ⟨rfl, rfl, rfl, rfl⟩

/-- A request header does not touch the response, which shares its object. -/
theorem request_header_response {counter counter' : RPCID} {m m' : gRPCMessage} {name value : Bytes}
    (h : m.add_header_field config counter name value true false = .ok (m', counter')) :
    m'.ids.rpc.error = m.ids.rpc.error ∧ m'.res_headers = m.res_headers ∧ m'.res_data = m.res_data
      ∧ m'.res_trailers = m.res_trailers := by
  obtain ⟨p, hp, h⟩ := bind_eq_ok.mp h
  obtain ⟨herror, hheaders, hdata, htrailers⟩ := read_path_error hp
  rw [if_pos rfl] at h
  obtain ⟨⟨ids, c, dropped⟩, hids, h⟩ := bind_eq_ok.mp h
  have hids' := (read_request_header_error hids).trans herror
  dsimp only at h
  split_ifs at h
  · obtain ⟨rfl, _⟩ := Prod.mk.inj (Except.ok.inj h)
    exact ⟨hids', hheaders, hdata, htrailers⟩
  · obtain ⟨fields, _, h⟩ := bind_eq_ok.mp h
    obtain ⟨rfl, _⟩ := Prod.mk.inj (Except.ok.inj h)
    exact ⟨hids', hheaders, hdata, htrailers⟩

/-- Nothing is stored before the response begins, so the invariant of the loop holds at its
start. -/
theorem Awaiting.stored {m : gRPCMessage} (h : Awaiting config m) : Stored [] [] [] m := by
  induction h with
  | create rpc h => exact ⟨rfl, rfl, rfl, rfl, rfl, rfl, h⟩
  -- A message that comes back from the pool was cleared, the error flag with the rest.
  | clear m m' h =>
      obtain ⟨rpc, hrpc, h⟩ := bind_eq_ok.mp h
      obtain rfl := Except.ok.inj h
      have herror : rpc.error = false := by
        unfold RPCMessage.clear at hrpc
        split_ifs at hrpc
        obtain rfl := Except.ok.inj hrpc
        rfl
      exact ⟨rfl, rfl, rfl, rfl, rfl, rfl, herror⟩
  | header m m' counter counter' name value _ h ih =>
      obtain ⟨herror, hheaders, hdata, htrailers⟩ := request_header_response h
      exact ⟨hheaders ▸ ih.header_text, hheaders ▸ ih.header_count, hdata ▸ ih.content,
        hdata ▸ ih.unread,
        htrailers ▸ ih.trailer_text, htrailers ▸ ih.trailer_count, herror.trans ih.no_error⟩
  | data m m' bytes _ h ih =>
      obtain ⟨d, _, h⟩ := bind_eq_ok.mp h
      obtain rfl := Except.ok.inj h
      exact ⟨ih.header_text, ih.header_count, ih.content, ih.unread,
        ih.trailer_text, ih.trailer_count,
        ih.no_error⟩
  | routed m ids _ h ih =>
      exact ⟨ih.header_text, ih.header_count, ih.content, ih.unread,
        ih.trailer_text, ih.trailer_count,
        h.trans ih.no_error⟩

variable {headers trailers : List Field} {data : Bytes} {s : Receiving}

/-- An initial header is stored behind the others, as it came. The hypotheses are what the source
checks, and the name must not be a path. -/
theorem stored_header (config : IdConfig) {name value : Bytes}
    (h : Stored headers data trailers s.rpc) (hpath : cstring name ≠ PATH)
    (hcount : headers.length < maxHeaderFieldNumber) (hname : name.length < maxHeaderFieldSize)
    (hvalue : value.length < maxHeaderFieldSize) :
    ∃ s', s.callback config (.on_header .HCAT_RESPONSE name value) = .ok s'
      ∧ Stored (headers ++ [(name, value)]) data trailers s'.rpc ∧ s'.queued = s.queued := by
  have hadd := HeaderList.add_exists (h := s.rpc.res_headers) (by rw [h.header_count]; exact hcount)
    hname hvalue
  obtain ⟨fields, hfields⟩ := hadd
  obtain ⟨htext, hlength, _⟩ := HeaderList.add_text hfields
  refine ⟨{ s with rpc.res_headers := fields }, ?_, ⟨?_, ?_, h.content, h.unread, h.trailer_text,
    h.trailer_count, h.no_error⟩, rfl⟩
  · unfold Receiving.callback Receiving.on_header_callback
    dsimp only
    rw [gRPCMessage.add_response_header config _ _ hpath, hfields]
    rfl
  · rw [htext, h.header_text]
  · rw [hlength, h.header_count, List.length_append, List.length_singleton]

/-- A trailer is stored behind the other trailers, under the same conditions. -/
theorem stored_trailer (config : IdConfig) {name value : Bytes}
    (h : Stored headers data trailers s.rpc) (hpath : cstring name ≠ PATH)
    (hcount : trailers.length < maxHeaderFieldNumber) (hname : name.length < maxHeaderFieldSize)
    (hvalue : value.length < maxHeaderFieldSize) :
    ∃ s', s.callback config (.on_header .HCAT_HEADERS name value) = .ok s'
      ∧ Stored headers data (trailers ++ [(name, value)]) s'.rpc ∧ s'.queued = s.queued := by
  have hadd := HeaderList.add_exists (h := s.rpc.res_trailers)
    (by rw [h.trailer_count]; exact hcount) hname hvalue
  obtain ⟨fields, hfields⟩ := hadd
  obtain ⟨htext, hlength, _⟩ := HeaderList.add_text hfields
  refine ⟨{ s with rpc.res_trailers := fields }, ?_,
    ⟨h.header_text, h.header_count, h.content, h.unread,
    ?_, ?_, h.no_error⟩, rfl⟩
  · unfold Receiving.callback Receiving.on_header_callback
    dsimp only
    rw [gRPCMessage.add_response_trailer config _ _ hpath, hfields]
    rfl
  · rw [htext, h.trailer_text]
  · rw [hlength, h.trailer_count, List.length_append, List.length_singleton]

/-- Data is stored behind the rest, as long as there is room. -/
theorem stored_data (config : IdConfig) (bytes : Bytes) (h : Stored headers data trailers s.rpc)
    (hroom : data.length + bytes.length ≤ maxPayloadSize) :
    ∃ s', s.callback config (.on_data_chunk_recv bytes) = .ok s'
      ∧ Stored headers (data ++ bytes) trailers s'.rpc ∧ s'.queued = s.queued := by
  have hoffset : s.rpc.res_data.offset = data.length := by
    rw [← h.content, s.rpc.res_data.length_content]
  obtain ⟨d, hd⟩ : ∃ d, s.rpc.res_data.add bytes = .ok d := by
    unfold DataReadStruct.add
    rw [dif_neg (by rw [hoffset]; omega)]
    exact ⟨_, rfl⟩
  obtain ⟨hcontent, hread⟩ := DataReadStruct.add_content hd
  refine ⟨{ s with rpc.res_data := d }, ?_, ⟨h.header_text, h.header_count, ?_, ?_, h.trailer_text,
    h.trailer_count, h.no_error⟩, rfl⟩
  · unfold Receiving.callback Receiving.on_data_chunk_recv_callback gRPCMessage.add_data
    simp only [Bool.false_eq_true, if_false]
    rw [hd]
    rfl
  · rw [hcontent, h.content]
  · rw [hread, h.unread]

end Storing

/-! ## Responses -/

/-- What comes between the headers and the trailers: a chunk of data, or a frame that has been
read. -/
inductive Piece
  | chunk (data : Bytes)
  | frame (type : FrameType)
  deriving DecidableEq, Repr

/-- A response of the upstream server: either in full, or with its trailers in the place of the
headers, as gRPC does for an error. -/
inductive Response
  | full (headers : List Field) (pieces : List Piece) (trailers : List Field)
  | trailers_only (headers : List Field)
  deriving DecidableEq, Repr

/-- The bytes of a piece, none for a frame that brings no data. -/
def Piece.data : Piece → Bytes
  | .chunk data => data
  | .frame _ => []

/-- The call that nghttp2 makes for a piece. -/
def Piece.callback : Piece → Callback
  | .chunk data => .on_data_chunk_recv data
  | .frame type => .frame_recv type false

namespace Response

/-- The header fields, those that stand for the trailers among them. -/
def headers : Response → List Field
  | .full headers _ _ => headers
  | .trailers_only headers => headers

/-- The payload, whatever chunks it came in. -/
def data : Response → Bytes
  | .full _ pieces _ => pieces.flatMap Piece.data
  | .trailers_only _ => []

/-- The trailers. A response of trailers only has them as its headers. -/
def trailers : Response → List Field
  | .full _ _ trailers => trailers
  | .trailers_only _ => []

/-- The calls that nghttp2 makes for a response, in their order; the last one is for the frame that
ends the stream. -/
def callbacks : Response → List Callback
  | .full headers pieces trailers =>
    headers.map (fun x => .on_header .HCAT_RESPONSE x.1 x.2) ++ [.frame_recv .HEADERS false]
      ++ pieces.map Piece.callback
      ++ trailers.map (fun x => .on_header .HCAT_HEADERS x.1 x.2) ++ [.frame_recv .HEADERS true]
  | .trailers_only headers =>
    headers.map (fun x => .on_header .HCAT_RESPONSE x.1 x.2) ++ [.frame_recv .HEADERS true]

/-- The limits of a message. `:path` belongs to requests, and nghttp2 lets it through in no other
place. -/
structure Fits (r : Response) : Prop where
  header_count : r.headers.length ≤ maxHeaderFieldNumber
  trailer_count : r.trailers.length ≤ maxHeaderFieldNumber
  sizes : ∀ x ∈ r.headers ++ r.trailers,
    x.1.length ≤ maxHeaderFieldSize ∧ x.2.length ≤ maxHeaderFieldSize
  payload : r.data.length ≤ maxPayloadSize
  no_path : ∀ x ∈ r.headers ++ r.trailers, cstring x.1 ≠ PATH

/-- There is room for the zero byte behind each text: the condition that the lengths alone do not
give, since the source checks them with `>`. -/
def Terminated (r : Response) : Prop :=
  ∀ x ∈ r.headers ++ r.trailers, x.1.length < maxHeaderFieldSize ∧ x.2.length < maxHeaderFieldSize

end Response

/-- What is submitted is the response: the same headers, the same payload and the same trailers. -/
def Submitted.Carries (x : Submitted) (r : Response) : Prop :=
  x.headers = r.headers ∧ x.data = r.data ∧ x.trailers.getD [] = r.trailers

section Receiving

variable {config : IdConfig} {s : Receiving} {headers trailers : List Field} {data : Bytes}

/-- Calls after calls. -/
theorem receive_append {t u : Receiving} {cs ds : List Callback} (hs : s.receive config cs = .ok t)
    (ht : t.receive config ds = .ok u) : s.receive config (cs ++ ds) = .ok u := by
  unfold Receiving.receive at *
  rw [List.foldlM_append]
  exact bind_eq_ok.mpr ⟨t, hs, ht⟩

/-- A call before calls. -/
theorem receive_cons {t u : Receiving} {c : Callback} {cs : List Callback}
    (hs : s.callback config c = .ok t) (ht : t.receive config cs = .ok u) :
    s.receive config (c :: cs) = .ok u := by
  unfold Receiving.receive
  rw [List.foldlM_cons]
  exact bind_eq_ok.mpr ⟨t, hs, ht⟩

/-- Calls that each carry an invariant on, where the invariant may speak of what has been passed. -/
theorem receive_each {A : Type} {call : A → Callback} (inv : List A → Receiving → Prop)
    {xs : List A} (hstep : ∀ passed x rest t, xs = passed ++ x :: rest → inv passed t →
      ∃ u, t.callback config (call x) = .ok u ∧ inv (passed ++ [x]) u)
    (h : inv [] s) : ∃ t, s.receive config (xs.map call) = .ok t ∧ inv xs t := by
  -- the induction is on what is left
  have hrest : ∀ rest passed t, xs = passed ++ rest → inv passed t →
      ∃ u, t.receive config (rest.map call) = .ok u ∧ inv xs u := by
    intro rest
    induction rest with
    | nil =>
        intro passed t hxs ht
        rw [List.append_nil] at hxs
        rw [hxs]
        exact ⟨t, rfl, ht⟩
    | cons x rest ih =>
        intro passed t hxs ht
        obtain ⟨u, hu, hinv⟩ := hstep passed x rest t hxs ht
        obtain ⟨v, hv, hinv'⟩ := ih (passed ++ [x]) u (by rw [hxs, List.append_assoc]; rfl) hinv
        exact ⟨v, receive_cons hu hv, hinv'⟩
  exact hrest xs [] s rfl h

/-- Header fields of one kind, each of which is stored behind those before it. -/
theorem receive_fields (config : IdConfig) {cat : HeadersCategory}
    (stored : List Field → gRPCMessage → Prop)
    (hstep : ∀ (passed : List Field) (name value : Bytes) (t : Receiving), stored passed t.rpc →
      cstring name ≠ PATH → passed.length < maxHeaderFieldNumber →
        name.length < maxHeaderFieldSize →
      value.length < maxHeaderFieldSize → ∃ u, t.callback config (.on_header cat name value) = .ok u
        ∧ stored (passed ++ [(name, value)]) u.rpc ∧ u.queued = t.queued)
    {new : List Field} (h : stored [] s.rpc) (hcount : new.length ≤ maxHeaderFieldNumber)
    (hnew : ∀ x ∈ new, cstring x.1 ≠ PATH ∧ x.1.length < maxHeaderFieldSize
      ∧ x.2.length < maxHeaderFieldSize) :
    ∃ t, s.receive config (new.map fun x => .on_header cat x.1 x.2) = .ok t
      ∧ stored new t.rpc ∧ t.queued = s.queued := by
  refine receive_each (fun passed t => stored passed t.rpc ∧ t.queued = s.queued) ?_ ⟨h, rfl⟩
  intro passed x rest t hpassed ht
  have hlength : passed.length < new.length := by
    rw [hpassed, List.length_append, List.length_cons]
    omega
  obtain ⟨hpath, hname, hvalue⟩ := hnew x (by rw [hpassed]; simp)
  obtain ⟨u, hu, hstored, hqueued⟩ := hstep passed x.1 x.2 t ht.1 hpath (by omega) hname hvalue
  exact ⟨u, hu, hstored, hqueued.trans ht.2⟩

/-- All initial headers are stored. The invariant of the calls is that those passed so far are. -/
theorem receive_headers (config : IdConfig) {new : List Field} (h : Stored [] data trailers s.rpc)
    (hcount : new.length ≤ maxHeaderFieldNumber)
    (hnew : ∀ x ∈ new, cstring x.1 ≠ PATH ∧ x.1.length < maxHeaderFieldSize
      ∧ x.2.length < maxHeaderFieldSize) :
    ∃ t, s.receive config (new.map fun x => .on_header .HCAT_RESPONSE x.1 x.2) = .ok t
      ∧ Stored new data trailers t.rpc ∧ t.queued = s.queued := by
  apply receive_fields config (fun passed m => Stored passed data trailers m) _ h hcount hnew
  intro passed name value t ht
  exact stored_header config ht

/-- All trailers are stored, behind the headers and the payload, which stay. -/
theorem receive_trailers (config : IdConfig) {new : List Field} (h : Stored headers data [] s.rpc)
    (hcount : new.length ≤ maxHeaderFieldNumber)
    (hnew : ∀ x ∈ new, cstring x.1 ≠ PATH ∧ x.1.length < maxHeaderFieldSize
      ∧ x.2.length < maxHeaderFieldSize) :
    ∃ t, s.receive config (new.map fun x => .on_header .HCAT_HEADERS x.1 x.2) = .ok t
      ∧ Stored headers data new t.rpc ∧ t.queued = s.queued := by
  apply receive_fields config (fun passed m => Stored headers data passed m) _ h hcount hnew
  intro passed name value t ht
  exact stored_trailer config ht

/-- All pieces of the payload are stored. That there is room for the next one follows from the
bound on the whole. -/
theorem receive_pieces (config : IdConfig) {pieces : List Piece}
    (h : Stored headers [] trailers s.rpc)
    (hroom : (pieces.flatMap Piece.data).length ≤ maxPayloadSize) :
    ∃ t, s.receive config (pieces.map Piece.callback) = .ok t
      ∧ Stored headers (pieces.flatMap Piece.data) trailers t.rpc ∧ t.queued = s.queued := by
  refine receive_each
    (fun passed t => Stored headers (passed.flatMap Piece.data) trailers t.rpc
      ∧ t.queued = s.queued) ?_ ⟨h, rfl⟩
  intro passed piece rest t hpassed ht
  have hlength : (passed.flatMap Piece.data).length + piece.data.length
      ≤ (pieces.flatMap Piece.data).length := by
    rw [hpassed, List.flatMap_append, List.flatMap_cons, List.length_append, List.length_append]
    omega
  rw [List.flatMap_append, List.flatMap_singleton]
  cases piece with
  | chunk bytes =>
      obtain ⟨u, hu, hstored, hqueued⟩ := stored_data config bytes ht.1
        (by simp only [Piece.data] at hlength; omega)
      exact ⟨u, hu, hstored, hqueued.trans ht.2⟩
  | frame type =>
      refine ⟨t, rfl, ?_, ht.2⟩
      rw [Piece.data, List.append_nil]
      exact ht.1

/-- The end of the stream: the response is queued, and is an error if it has no data. -/
theorem receive_end (h : Stored headers data trailers s.rpc) :
    s.receive config [.frame_recv .HEADERS true]
      = .ok (s.ended data) := by
  have hoffset : s.rpc.res_data.offset = data.length := by
    rw [← h.content, s.rpc.res_data.length_content]
  have hframe : s.frame_recv_callback .HEADERS true = .ok (s.ended data) := by
    unfold Receiving.frame_recv_callback Receiving.ended
    rw [if_pos rfl]
    dsimp only
    by_cases hdata : data = []
    · have hzero : s.rpc.res_data.offset = 0 := by rw [hoffset, hdata, List.length_nil]
      rw [if_pos hzero, decide_eq_true hdata]
    · have hlength : data.length ≠ 0 := fun hzero => hdata (List.length_eq_zero_iff.mp hzero)
      rw [if_neg (by rw [hoffset]; exact hlength), decide_eq_false hdata, ← h.no_error]
  exact receive_cons hframe rfl

/-- **A response that fits** is stored as it came, and at its end it is queued for `forward`, with
the mark of an error if it had no payload. -/
theorem receive_response (config : IdConfig) {r : Response} (h : Stored [] [] [] s.rpc)
    (hfits : r.Fits) (hterminated : r.Terminated) :
    ∃ t : Receiving, s.receive config r.callbacks = .ok (t.ended r.data)
      ∧ Stored r.headers r.data r.trailers t.rpc := by
  have hfields : ∀ x ∈ r.headers ++ r.trailers, cstring x.1 ≠ PATH ∧ x.1.length < maxHeaderFieldSize
      ∧ x.2.length < maxHeaderFieldSize := fun x hx => ⟨hfits.no_path x hx, hterminated x hx⟩
  have hheaders := fun x hx => hfields x (List.mem_append_left _ hx)
  have htrailers := fun x hx => hfields x (List.mem_append_right _ hx)
  cases r with
  | trailers_only headers =>
      obtain ⟨t, ht, hstored, _⟩ := receive_headers config h hfits.header_count hheaders
      exact ⟨t, receive_append ht (receive_end hstored), hstored⟩
  | full headers pieces trailers =>
      obtain ⟨t, ht, hstored, _⟩ := receive_headers config h hfits.header_count hheaders
      obtain ⟨u, hu, hstored', _⟩ := receive_pieces config hstored hfits.payload
      obtain ⟨v, hv, hstored'', _⟩ :=
        receive_trailers config hstored' hfits.trailer_count htrailers
      refine ⟨v, ?_, hstored''⟩
      have hframe : t.receive config [.frame_recv .HEADERS false] = .ok t := rfl
      exact receive_append (receive_append (receive_append (receive_append ht hframe) hu) hv)
        (receive_end hstored'')

/-- A call that succeeds has found room for the zero bytes, since `at` throws otherwise. -/
theorem header_terminated {t : Receiving} {cat : HeadersCategory} {name value : Bytes}
    (h : s.callback config (.on_header cat name value) = .ok t) :
    name.length < maxHeaderFieldSize ∧ value.length < maxHeaderFieldSize := by
  cases cat with
  | HCAT_REQUEST => cases h
  | HCAT_RESPONSE =>
      obtain ⟨x, hx, _⟩ := bind_eq_ok.mp h
      obtain ⟨m, _, hx⟩ := bind_eq_ok.mp hx
      obtain ⟨l, hl, _⟩ := bind_eq_ok.mp hx
      exact HeaderList.add_terminated hl
  | HCAT_HEADERS =>
      obtain ⟨x, hx, _⟩ := bind_eq_ok.mp h
      obtain ⟨m, _, hx⟩ := bind_eq_ok.mp hx
      obtain ⟨l, hl, _⟩ := bind_eq_ok.mp hx
      exact HeaderList.add_terminated hl

/-- Every call of a run that succeeds has succeeded, on some state. -/
theorem callback_of_receive {t : Receiving} {cs : List Callback} (h : s.receive config cs = .ok t)
    {c : Callback} (hc : c ∈ cs) : ∃ u v, Receiving.callback config u c = .ok v := by
  induction cs generalizing s with
  | nil => cases hc
  | cons d cs ih =>
      obtain ⟨u, hu, hrest⟩ := bind_eq_ok.mp h
      rcases List.mem_cons.mp hc with rfl | hc
      · exact ⟨s, u, hu⟩
      · exact ih hrest hc

/-- A response that is received without an abort had room for all zero bytes. This is the other
direction of `receive_response`. -/
theorem receive_terminated {t : Receiving} {r : Response}
    (h : s.receive config r.callbacks = .ok t) : r.Terminated := by
  intro x hx
  have hcall : ∃ cat, Callback.on_header cat x.1 x.2 ∈ r.callbacks := by
    cases r with
    | trailers_only headers =>
        rw [Response.trailers, List.append_nil] at hx
        exact ⟨.HCAT_RESPONSE, List.mem_append_left _ (List.mem_map.mpr ⟨x, hx, rfl⟩)⟩
    | full headers pieces trailers =>
        rcases List.mem_append.mp hx with hx | hx
        · have hmem : Callback.on_header .HCAT_RESPONSE x.1 x.2
              ∈ headers.map fun x => Callback.on_header .HCAT_RESPONSE x.1 x.2 :=
            List.mem_map.mpr ⟨x, hx, rfl⟩
          exact ⟨_, List.mem_append_left _ (List.mem_append_left _ (List.mem_append_left _
            (List.mem_append_left _ hmem)))⟩
        · have hmem : Callback.on_header .HCAT_HEADERS x.1 x.2
              ∈ trailers.map fun x => Callback.on_header .HCAT_HEADERS x.1 x.2 :=
            List.mem_map.mpr ⟨x, hx, rfl⟩
          exact ⟨_, List.mem_append_left _ (List.mem_append_right _ hmem)⟩
  obtain ⟨cat, hcat⟩ := hcall
  obtain ⟨u, v, hv⟩ := callback_of_receive h hcat
  exact header_terminated hv

end Receiving

/-- **What is sent of a stored response**: all of it if there is data, and its headers if there is
none. -/
theorem forward_stored {s : Receiving} {headers trailers : List Field} {data : Bytes}
    {lengths : List ℕ} (h : Stored headers data trailers s.rpc) (hne : lengths ≠ [])
    (hsum : data.length ≤ lengths.sum) :
    (s.ended data).rpc.forward_response lengths
      = some ⟨headers, data, if data = [] then none else some trailers⟩ := by
  have hoffset : s.rpc.res_data.offset = data.length := by
    rw [← h.content, s.rpc.res_data.length_content]
  unfold Receiving.ended gRPCMessage.forward_response
  by_cases hdata : data = []
  · rw [if_pos (decide_eq_true hdata), if_pos hdata]
    unfold gRPCMessage.submit_error_response
    rw [h.header_text, hdata]
  · have hlength : data.length ≠ 0 := fun hzero => hdata (List.length_eq_zero_iff.mp hzero)
    have hdrain := gRPCMessage.drain_eq (m := { s.rpc with ids.rpc.error := decide (data = []) })
      (by rw [hoffset]; exact hlength) (by rw [h.unread]; exact Nat.zero_le _) hne
      (by rw [h.unread, hoffset]; omega)
    rw [h.unread, List.drop_zero, h.content, h.trailer_text] at hdrain
    have hno : ¬ decide (data = []) = true := by
      rw [decide_eq_false hdata]
      nofun
    rw [if_neg hno, if_neg hdata]
    unfold gRPCMessage.submit_response
    rw [hdrain, Option.map_some, h.header_text]

/-- **Responses are forwarded whole exactly when they have data or no trailers**, and no name or
value of the full size. The message waits for the response (`hm`), the response keeps to the limits
of the sidecar (`hfits`), and the buffers that are offered for its data hold all of it (`hsum`), so
that nothing but the sidecar itself can lose a part. -/
theorem response_forwarded (config : IdConfig) (counter : RPCID) {m : gRPCMessage} {r : Response}
    {lengths : List ℕ} (hm : Awaiting config m) (hfits : r.Fits) (hne : lengths ≠ [])
    (hsum : r.data.length ≤ lengths.sum) :
    (∃ s x, Receiving.receive config ⟨m, counter, false⟩ r.callbacks = .ok s ∧ s.queued = true
        ∧ s.rpc.forward_response lengths = some x ∧ x.Carries r)
      ↔ (r.data = [] → r.trailers = []) ∧ r.Terminated := by
  constructor
  · -- What was stored is known, so the trailers that were carried are the ones written.
    rintro ⟨s, x, hs, _, hx, hcarries⟩
    have hterminated := receive_terminated hs
    refine ⟨fun hdata => ?_, hterminated⟩
    obtain ⟨t, ht, hstored⟩ := receive_response config (s := ⟨m, counter, false⟩)
      hm.stored hfits hterminated
    obtain rfl := Except.ok.inj (hs.symm.trans ht)
    rw [forward_stored hstored hne hsum] at hx
    obtain rfl := Option.some.inj hx
    rw [← hcarries.2.2]
    dsimp only
    rw [if_pos hdata]
    rfl
  · rintro ⟨htrailers, hterminated⟩
    obtain ⟨t, ht, hstored⟩ := receive_response config (s := ⟨m, counter, false⟩)
      hm.stored hfits hterminated
    refine ⟨_, _, ht, rfl, forward_stored hstored hne hsum, rfl, rfl, ?_⟩
    dsimp only
    -- Without data the message ends at its headers, and there must be no trailers to lose.
    by_cases hdata : r.data = []
    · rw [if_pos hdata, htrailers hdata]
      rfl
    · rw [if_neg hdata]
      rfl

/-- ":status" and "200", the one header of the concrete responses. -/
def STATUS_OK : Field := ([58, 115, 116, 97, 116, 117, 115], [50, 48, 48])

/-- "grpc-status" and "5", the trailer of an error. -/
def GRPC_NOT_FOUND : Field := ([103, 114, 112, 99, 45, 115, 116, 97, 116, 117, 115], [53])

/-- A new message of an EGRESS call, before its response begins. -/
def egress_call : gRPCMessage := .create (RPCMapper.blankMessage .HTTP2 .EGRESS 0)

/-- A response with two chunks of data, read in three parts: it satisfies the condition of the
theorem above and goes on unchanged. -/
theorem response_forwarded_chunks : ∃ s x,
    Receiving.receive ⟨false, false⟩ ⟨egress_call, 1, false⟩
        (Response.full [STATUS_OK] [.chunk [1, 2], .frame .DATA, .chunk [3]]
          [GRPC_NOT_FOUND]).callbacks
      = .ok s ∧ s.queued = true ∧ s.rpc.forward_response [1, 1, 5] = some x
      ∧ x.Carries (.full [STATUS_OK] [.chunk [1, 2], .frame .DATA, .chunk [3]] [GRPC_NOT_FOUND]) :=
  (response_forwarded ⟨false, false⟩ 1 (.create _ rfl)
    ⟨by decide, by decide, by decide, by decide, by decide⟩ (by decide) (by decide)).mpr
    ⟨nofun, by unfold Response.Terminated; decide⟩

/-- Headers, no data, and a status in the trailers: the status is lost. -/
theorem response_status_lost : ¬ ∀ (config : IdConfig) (counter : RPCID) (m : gRPCMessage)
    (r : Response) (lengths : List ℕ), Awaiting config m → r.Fits → r.Terminated → lengths ≠ [] →
    r.data.length ≤ lengths.sum →
    ∃ s x, Receiving.receive config ⟨m, counter, false⟩ r.callbacks = .ok s ∧ s.queued = true
      ∧ s.rpc.forward_response lengths = some x ∧ x.Carries r := by
  intro hall
  obtain ⟨s, x, hs, _, hx, hcarries⟩ := hall ⟨false, false⟩ 1 egress_call
    (.full [STATUS_OK] [] [GRPC_NOT_FOUND]) [16384] (.create _ rfl)
    ⟨by decide, by decide, by decide, by decide, by decide⟩ (by unfold Response.Terminated; decide)
    (by decide) (by decide)
  have hsent : (Receiving.receive ⟨false, false⟩ ⟨egress_call, 1, false⟩
      (Response.full [STATUS_OK] [] [GRPC_NOT_FOUND]).callbacks).toOption.bind
        (fun s => s.rpc.forward_response [16384]) = some ⟨[STATUS_OK], [], none⟩ := by
          decide +kernel
  rw [hs] at hsent
  obtain rfl := Option.some.inj (hx.symm.trans hsent)
  exact absurd hcarries.2.2 (by decide)

end RlpSidecar
