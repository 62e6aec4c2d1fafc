/-
Payloads of gRPC messages, from chunks to reads (`connection.cc`, the two data callbacks;
`rpc_message.cc`, `add_data`).

The data of a message comes in chunks of one session and goes out on another, where nghttp2 asks
for it with a buffer of its own length each time. The callback that copies the last byte of a
response also submits the trailers and gives the message back to the pool, with the buffer it has
just read from.

`Source` is what the two callbacks have in common: there is a text that has not been read, a call
copies the front of it, and the call that copies the last byte does something besides.
`payload_rechunked` puts the chunks and the reads together: what goes out is what came in, in
order, however it is cut on either side.
-/
import RlpSidecar.GrpcResponses

set_option autoImplicit false

namespace RlpSidecar

/-! ## Reading to the end

What nghttp2 does with a data callback, for any callback that hands out a text piece by piece. -/

/-- nghttp2 calls until it has seen `NGHTTP2_DATA_FLAG_EOF`, with a buffer of the next length each
time. -/
def reads {σ : Type} (call : σ → ℕ → Except Abort (DataRead × σ)) :
    List ℕ → σ → Except Abort (List DataRead × σ)
  | [], s => .ok ([], s)
  | length :: lengths, s => do
    let (r, s) ← call s length
    -- nghttp2 does not ask for more after `NGHTTP2_DATA_FLAG_EOF`
    if r.eof then .ok ([r], s)
    else
      let (rs, s) ← reads call lengths s
      .ok (r :: rs, s)

/-- What some calls have copied, one behind the other. -/
def copied (calls : List DataRead) : Bytes := (calls.map DataRead.buf).flatten

@[simp] theorem copied_nil : copied [] = [] := rfl

@[simp] theorem copied_cons (r : DataRead) (calls : List DataRead) :
    copied (r :: calls) = r.buf ++ copied calls := rfl

/-- The calls hand out `data`: no more than fits each buffer, all of it if there are enough of
them, and they end with the last byte, when there is one more than `trailer` to tell. -/
structure HandsOut (data : Bytes) (trailer : Option (List Field)) (lengths : List ℕ)
    (calls : List DataRead) : Prop where
  bounded : ∀ (i : ℕ) (r : DataRead), calls[i]? = some r →
    ∃ length, lengths[i]? = some length ∧ r.buf.length ≤ length
  prefix_of : copied calls = data.take lengths.sum
  whole : data.length ≤ lengths.sum → copied calls = data
  /-- The flag is set exactly on the call that copies the last byte. -/
  eof : ∀ (i : ℕ) (r : DataRead), calls[i]? = some r →
    copied (calls.take i) ≠ data ∧ (r.eof = true ↔ copied (calls.take (i + 1)) = data)
  /-- Trailers are submitted exactly there. -/
  trailer : ∀ r ∈ calls, r.trailer = if r.eof then trailer else none

/-- A callback that hands out a text: `left s rest` if in `s` it is `rest` that has not been read,
and `finish` what the call with the last byte does besides. -/
structure Source {σ : Type} (call : σ → ℕ → Except Abort (DataRead × σ)) (left : σ → Bytes → Prop)
    (trailer : Option (List Field)) (finish : σ → Except Abort σ) : Prop where
  more : ∀ s rest length, left s rest → length < rest.length →
    ∃ s', call s length = .ok (⟨rest.take length, false, none⟩, s') ∧ left s' (rest.drop length)
  last : ∀ s rest length, left s rest → rest.length ≤ length →
    call s length = do
      let s ← finish s
      .ok (⟨rest, true, trailer⟩, s)

namespace HandsOut

variable {data : Bytes} {trailer : Option (List Field)} {length : ℕ} {lengths : List ℕ}

theorem nil (hne : data ≠ []) : HandsOut data trailer [] [] where
  bounded := by
    intro i r h
    cases h
  prefix_of := by rw [List.sum_nil, List.take_zero, copied_nil]
  whole := by
    intro h
    exact absurd (List.length_eq_zero_iff.mp (Nat.le_zero.mp h)) hne
  eof := by
    intro i r h
    cases h
  trailer := by
    intro r h
    cases h

/-- The last call, for which there is room enough. -/
theorem last (hne : data ≠ []) (hlen : data.length ≤ length) :
    HandsOut data trailer (length :: lengths) [⟨data, true, trailer⟩] := by
  have hcopied : copied [⟨data, true, trailer⟩] = data := List.append_nil data
  refine ⟨?_, ?_, fun _ => hcopied, ?_, ?_⟩
  · intro i r h
    cases i with
    | zero =>
        obtain rfl := Option.some.inj h
        exact ⟨length, rfl, hlen⟩
    | succ i => cases h
  · rw [hcopied, List.sum_cons, List.take_of_length_le (by omega)]
  · intro i r h
    cases i with
    | zero =>
        obtain rfl := Option.some.inj h
        exact ⟨hne.symm, iff_of_true rfl hcopied⟩
    | succ i => cases h
  · intro r h
    obtain rfl := List.mem_singleton.mp h
    rfl

/-- One more call in front, which fills its buffer and leaves something for the others. -/
theorem cons {calls : List DataRead} (hne : data ≠ []) (hlen : length < data.length)
    (h : HandsOut (data.drop length) trailer lengths calls) :
    HandsOut data trailer (length :: lengths) (⟨data.take length, false, none⟩ :: calls) := by
  have hsplit : data.take length ++ data.drop length = data := List.take_append_drop length data
  -- what has been copied with the first call, against the whole
  have hcopied : ∀ i, copied ((⟨data.take length, false, none⟩ :: calls).take (i + 1)) = data
      ↔ copied (calls.take i) = data.drop length := by
    intro i
    rw [List.take_succ_cons, copied_cons]
    conv_lhs => rhs; rw [← hsplit]
    exact List.append_right_inj _
  refine ⟨?_, ?_, ?_, ?_, ?_⟩
  · intro i r hi
    cases i with
    | zero =>
        obtain rfl := Option.some.inj hi
        exact ⟨length, rfl, List.length_take_le _ _⟩
    | succ i => exact h.bounded i r hi
  · rw [copied_cons, h.prefix_of, List.sum_cons, List.take_add]
  · intro hsum
    rw [List.sum_cons] at hsum
    rw [copied_cons, h.whole (by rw [List.length_drop]; omega)]
    exact hsplit
  · intro i r hi
    rw [hcopied]
    cases i with
    | zero =>
        obtain rfl := Option.some.inj hi
        refine ⟨hne.symm, iff_of_false Bool.false_ne_true ?_⟩
        intro hnil
        have hdrop := congrArg List.length hnil
        rw [List.take_zero, copied_nil, List.length_nil, List.length_drop] at hdrop
        omega
    | succ i =>
        rw [ne_eq, hcopied]
        exact h.eof i r hi
  · intro r hr
    rcases List.mem_cons.mp hr with rfl | hr
    · rfl
    · exact h.trailer r hr

end HandsOut

/-- **A source hands out what it has.** If the buffers suffice, the run ends as the call with the
last byte does. -/
theorem Source.reads_eq {σ : Type} {call : σ → ℕ → Except Abort (DataRead × σ)}
    {left : σ → Bytes → Prop} {trailer : Option (List Field)} {finish : σ → Except Abort σ}
    (h : Source call left trailer finish) {s : σ} {data : Bytes} (hdata : left s data)
    (hne : data ≠ []) {lengths : List ℕ} (hpos : ∀ length ∈ lengths, 0 < length) :
    ∃ calls s' rest, HandsOut data trailer lengths calls ∧ left s' rest
      ∧ reads call lengths s = if data.length ≤ lengths.sum then (do
          let s ← finish s'
          .ok (calls, s))
        else .ok (calls, s') := by
  induction lengths generalizing s data with
  | nil =>
      refine ⟨[], s, data, .nil hne, hdata, ?_⟩
      have hlen := List.length_pos_of_ne_nil hne
      rw [List.sum_nil, if_neg (by omega)]
      rfl
  | cons length lengths ih =>
      have hlength := hpos length List.mem_cons_self
      by_cases hlast : data.length ≤ length
      · -- one read takes all that is left, and ends the stream
        refine ⟨[⟨data, true, trailer⟩], s, data, .last hne hlast, hdata, ?_⟩
        rw [List.sum_cons, if_pos (by omega)]
        unfold reads
        rw [h.last s data length hdata hlast]
        cases finish s <;> rfl
      · -- the read is full, and the rest is read by the others
        obtain ⟨s₁, hcall, hleft⟩ := h.more s data length hdata (by omega)
        have hrest : data.drop length ≠ [] := by
          intro hnil
          have hdrop := congrArg List.length hnil
          rw [List.length_drop, List.length_nil] at hdrop
          omega
        obtain ⟨calls, s', rest, hout, hs', hreads⟩ := ih hleft hrest
          fun l hl => hpos l (List.mem_cons_of_mem _ hl)
        refine ⟨⟨data.take length, false, none⟩ :: calls, s', rest,
          .cons hne (by omega) hout, hs', ?_⟩
        have hsum : (data.drop length).length ≤ lengths.sum
            ↔ data.length ≤ (length :: lengths).sum := by
          rw [List.length_drop, List.sum_cons]
          omega
        unfold reads
        rw [hcall, ok_bind]
        dsimp only
        rw [if_neg Bool.false_ne_true, hreads]
        by_cases hdone : data.length ≤ (length :: lengths).sum
        · rw [if_pos hdone, if_pos (hsum.mpr hdone)]
          cases finish s' <;> rfl
        · rw [if_neg hdone, if_neg fun hle => hdone (hsum.mp hle)]
          rfl

/-! ## Chunks -/

namespace DataReadStruct

/-- Nothing has been added or read, as after `clear`. -/
def Fresh (d : DataReadStruct) : Prop := d.offset = 0 ∧ d.read_offset = 0

/-- What has not been read, and is still to be copied. -/
def rest (d : DataReadStruct) : Bytes := d.content.drop d.read_offset

/-- Every byte that was added has been copied, so that nothing is left to be read. -/
def finished (d : DataReadStruct) : DataReadStruct := { d with read_offset := d.offset }

theorem read_offset_finished (d : DataReadStruct) :
    d.finished.read_offset = d.finished.offset := rfl

theorem add_exists {d : DataReadStruct} {bytes : Bytes}
    (h : d.content.length + bytes.length ≤ maxPayloadSize) :
    ∃ d', d.add bytes = .ok d' := by
  rw [d.length_content] at h
  unfold add
  rw [dif_neg (by omega)]
  exact ⟨_, rfl⟩

/-- Chunks are put one behind the other, as long as all of them fit. -/
theorem add_chunks {chunks : List Bytes} {d : DataReadStruct}
    (h : d.content.length + chunks.flatten.length ≤ maxPayloadSize) :
    ∃ d', chunks.foldlM add d = .ok d' ∧ d'.content = d.content ++ chunks.flatten
      ∧ d'.read_offset = d.read_offset := by
  induction chunks generalizing d with
  | nil => exact ⟨d, rfl, (List.append_nil _).symm, rfl⟩
  | cons chunk chunks ih =>
      rw [List.flatten_cons, List.length_append] at h
      obtain ⟨d₁, hadd⟩ : ∃ d₁, d.add chunk = .ok d₁ := add_exists (by omega)
      obtain ⟨hcontent, hread⟩ := add_content hadd
      obtain ⟨d', hfold, hcontent', hread'⟩ := ih (d := d₁)
        (by rw [hcontent, List.length_append]; omega)
      refine ⟨d', ?_, ?_, hread'.trans hread⟩
      · rw [List.foldlM_cons, hadd]
        exact hfold
      · rw [hcontent', hcontent, List.flatten_cons, List.append_assoc]

/-- Reading what is left, with a buffer that is too short or one that is not. -/
theorem read_more {d : DataReadStruct} {length : ℕ} (h : length < d.rest.length) :
    d.read length = (d.rest.take length, { d with read_offset := d.read_offset + length })
      ∧ d.read_offset + length ≠ d.offset
      ∧ rest { d with read_offset := d.read_offset + length } = d.rest.drop length := by
  have hlen : d.rest.length = d.offset - d.read_offset := by
    unfold rest
    rw [List.length_drop, d.length_content]
  refine ⟨?_, by omega, List.drop_drop.symm⟩
  unfold read
  rw [Nat.min_eq_right (by omega)]
  rfl

theorem read_last {d : DataReadStruct} {length : ℕ} (hread : d.read_offset ≤ d.offset)
    (h : d.rest.length ≤ length) : d.read length = (d.rest, d.finished) := by
  have hlen : d.rest.length = d.offset - d.read_offset := by
    unfold rest
    rw [List.length_drop, d.length_content]
  have hoffset : d.read_offset + (d.offset - d.read_offset) = d.offset := by omega
  unfold read
  dsimp only
  rw [Nat.min_eq_left (by omega), hoffset, List.take_of_length_le (by rw [← hlen]; exact le_refl _)]
  rfl

end DataReadStruct

namespace gRPCMessage

/-- `data_map.at(request ? 0 : 1)`: the body of the request, or that of the response. -/
def data (m : gRPCMessage) (request : Bool) : DataReadStruct :=
  if request then m.req_data else m.res_data

/-- Stores a body there, as the source changes it in place. -/
def set_data (m : gRPCMessage) (request : Bool) (d : DataReadStruct) : gRPCMessage :=
  if request then { m with req_data := d } else { m with res_data := d }

@[simp] theorem data_set_data (m : gRPCMessage) (request : Bool) (d : DataReadStruct) :
    (m.set_data request d).data request = d := by
  cases request <;> rfl

theorem add_data_eq (m : gRPCMessage) (bytes : Bytes) (request : Bool) :
    m.add_data bytes request = (do
      let d ← (m.data request).add bytes
      .ok (m.set_data request d)) := by
  cases request <;> rfl

/-- The chunks of one direction, in a message that has room for them. -/
theorem add_data_chunks {chunks : List Bytes} {m : gRPCMessage} {request : Bool}
    (h : (m.data request).content.length + chunks.flatten.length ≤ maxPayloadSize) :
    ∃ m', chunks.foldlM (fun m bytes => m.add_data bytes request) m = .ok m'
      ∧ (m'.data request).content = (m.data request).content ++ chunks.flatten
      ∧ (m'.data request).read_offset = (m.data request).read_offset := by
  -- the loop over the object does what the loop over its body does
  have hfold : ∀ (chunks : List Bytes) (m : gRPCMessage) {d : DataReadStruct},
      chunks.foldlM DataReadStruct.add (m.data request) = .ok d →
        ∃ m', chunks.foldlM (fun m bytes => m.add_data bytes request) m = .ok m'
          ∧ m'.data request = d := by
    intro chunks
    induction chunks with
    | nil =>
        intro m d hd
        exact ⟨m, rfl, Except.ok.inj hd⟩
    | cons chunk chunks ih =>
        intro m d hd
        rw [List.foldlM_cons] at hd
        obtain ⟨d₁, hadd, hd⟩ := bind_eq_ok.mp hd
        obtain ⟨m', hm', hdata⟩ := ih (m.set_data request d₁) (by rw [data_set_data]; exact hd)
        refine ⟨m', ?_, hdata⟩
        rw [List.foldlM_cons, add_data_eq, hadd]
        exact hm'
  obtain ⟨d, hd, hcontent, hread⟩ := DataReadStruct.add_chunks h
  obtain ⟨m', hm', rfl⟩ := hfold chunks m hd
  exact ⟨m', hm', hcontent, hread⟩

end gRPCMessage

/-! ## The callbacks -/

/-- The registry and the gRPC objects. The base part of an object is what the registry has of it. -/
structure Calls (n : ℕ) where
  rpc_mapper : RPCMapper n
  grpc : Fin n → gRPCMessage

/-- `CallbackData`: the type and the descriptor of the session that nghttp2 calls for. -/
structure CallbackData where
  type : ConnectionType
  fd : ℤ
  deriving DecidableEq, Repr

namespace Calls

variable {n : ℕ}

/-- The object with its base, which the registry keeps. -/
def message (s : Calls n) (rpc : Fin n) : gRPCMessage :=
  { s.grpc rpc with ids.rpc := s.rpc_mapper.heap rpc }

/-- `data_map.at(request ? 0 : 1)` of an object of the pool. -/
def data (s : Calls n) (rpc : Fin n) (request : Bool) : DataReadStruct := (s.grpc rpc).data request

/-- Stores a body in an object of the pool; the other objects stay. -/
def set_data (s : Calls n) (rpc : Fin n) (request : Bool) (d : DataReadStruct) : Calls n :=
  { s with grpc := Function.update s.grpc rpc ((s.grpc rpc).set_data request d) }

/-- `RPCMapper::remove_rpc`, which clears the whole object, its bodies and its headers among
them. -/
def remove_rpc (s : Calls n) (type : ConnectionType) (rpc : Fin n) (held : ℕ) :
    Except Abort (Calls n) := do
  let rpc_mapper ← s.rpc_mapper.remove_rpc type rpc held
  let m ← (s.message rpc).clear
  .ok { rpc_mapper := rpc_mapper, grpc := Function.update s.grpc rpc m }

/-- `data_read_callback_request`. The source is the buffer of the object `info`, and the registry
is asked only when all of it has been copied. -/
def data_read_callback_request (callback_data : CallbackData) (stream_id : ℤ) (info : Fin n)
    (s : Calls n) (length : ℕ) : Except Abort (DataRead × Calls n) :=
  if (s.data info true).offset = 0 then .ok (⟨[], true, none⟩, s)
  else
    let (buf, d) := (s.data info true).read length
    let s := s.set_data info true d
    if d.read_offset = d.offset then do
      -- the time is recorded in the message
      let _ ← s.rpc_mapper.get_us_rpc callback_data.type stream_id callback_data.fd
      .ok (⟨buf, true, none⟩, s)
    else .ok (⟨buf, false, none⟩, s)

/-- `data_read_callback_response`. The trailers are those of the RPC that the stream belongs to. -/
def data_read_callback_response (callback_data : CallbackData) (stream_id : ℤ)
    (info : Fin n) (held : ℕ) (s : Calls n) (length : ℕ) : Except Abort (DataRead × Calls n) :=
  -- a response without data: its trailers are not looked at
  if (s.data info false).offset = 0 then .ok (⟨[], true, none⟩, s)
  else
    let (buf, d) := (s.data info false).read length
    let s := s.set_data info false d
    if d.read_offset = d.offset then do
      let rpc ← s.rpc_mapper.get_ds_rpc callback_data.type stream_id callback_data.fd
      -- `dynamic_pointer_cast<gRPCMessage>`
      if (s.rpc_mapper.heap rpc).http ≠ .HTTP2 then .error .nullPointer
      else
        let trailers := (s.grpc rpc).res_trailers.text
        -- the trailers were submitted before this, which clears them
        let s ← s.remove_rpc callback_data.type rpc held
        .ok (⟨buf, true, some trailers⟩, s)
    else .ok (⟨buf, false, none⟩, s)

@[simp] theorem data_set (s : Calls n) (rpc : Fin n) (request : Bool) (d : DataReadStruct) :
    (s.set_data rpc request d).data rpc request = d := by
  unfold data set_data
  dsimp only
  rw [Function.update_self, gRPCMessage.data_set_data]

@[simp] theorem rpc_mapper_set_data (s : Calls n) (rpc : Fin n) (request : Bool)
    (d : DataReadStruct) :
    (s.set_data rpc request d).rpc_mapper = s.rpc_mapper := rfl

/-- Data of `info` is left, and the registry is `rpc_mapper`. The trailers are `trailers`. -/
structure Left (rpc_mapper : RPCMapper n) (info : Fin n) (request : Bool) (trailers : List Field)
    (s : Calls n) (rest : Bytes) : Prop where
  rpc_mapper : s.rpc_mapper = rpc_mapper
  rest : (s.data info request).rest = rest
  read : (s.data info request).read_offset ≤ (s.data info request).offset
  nonempty : (s.data info request).offset ≠ 0
  trailers : (s.grpc info).res_trailers.text = trailers

/-- Everything has been copied out of the body of an object. -/
def finished (s : Calls n) (info : Fin n) (request : Bool) : Calls n :=
  s.set_data info request (s.data info request).finished

theorem Left.next {rpc_mapper : RPCMapper n} {info : Fin n} {request : Bool} {trailers : List Field}
    {s : Calls n} {rest : Bytes} (h : Left rpc_mapper info request trailers s rest) {length : ℕ}
    (hlen : length < rest.length) :
    Left rpc_mapper info request trailers
      (s.set_data info request
        { s.data info request with read_offset := (s.data info request).read_offset + length })
      (rest.drop length) := by
  have hrest := h.rest
  have hread := (DataReadStruct.read_more (d := s.data info request) (hrest ▸ hlen)).2.2
  have hle : (s.data info request).rest.length
      = (s.data info request).offset - (s.data info request).read_offset := by
    unfold DataReadStruct.rest
    rw [List.length_drop, DataReadStruct.length_content]
  rw [hrest] at hread hle
  refine ⟨h.rpc_mapper, by rw [data_set]; exact hread, by rw [data_set]; dsimp only; omega,
    by rw [data_set]; exact h.nonempty, ?_⟩
  rw [← h.trailers]
  unfold set_data
  dsimp only
  rw [Function.update_self]
  cases request <;> rfl

/-- The request of an RPC that was sent on the session is a source. -/
theorem request_source {rpc_mapper : RPCMapper n} {callback_data : CallbackData} {stream_id : ℤ}
    {rpc : Fin n} (info : Fin n) (trailers : List Field)
    (hrpc : rpc_mapper.get_us_rpc callback_data.type stream_id callback_data.fd = .ok rpc) :
    Source (data_read_callback_request callback_data stream_id info)
      (Left rpc_mapper info true trailers) none fun s => .ok (s.finished info true) where
  more := by
    intro s rest length h hlen
    obtain ⟨hread, hoffset, _⟩ := DataReadStruct.read_more (d := s.data info true) (h.rest ▸ hlen)
    refine ⟨_, ?_, h.next hlen⟩
    unfold data_read_callback_request
    rw [if_neg h.nonempty, hread, h.rest]
    dsimp only
    rw [if_neg hoffset]
  last := by
    intro s rest length h hlen
    have hread := DataReadStruct.read_last h.read (h.rest ▸ hlen)
    unfold data_read_callback_request
    rw [if_neg h.nonempty, hread, h.rest]
    dsimp only
    rw [if_pos (DataReadStruct.read_offset_finished _), rpc_mapper_set_data, h.rpc_mapper, hrpc]
    rfl

/-- The response of an RPC is a source, whose end is that of the RPC. -/
theorem response_source {rpc_mapper : RPCMapper n} {callback_data : CallbackData} {stream_id : ℤ}
    {rpc : Fin n} (trailers : List Field) (held : ℕ)
    (hrpc : rpc_mapper.get_ds_rpc callback_data.type stream_id callback_data.fd = .ok rpc)
    (hkind : (rpc_mapper.heap rpc).http = .HTTP2) :
    Source (data_read_callback_response callback_data stream_id rpc held)
      (Left rpc_mapper rpc false trailers) (some trailers)
      fun s => (s.finished rpc false).remove_rpc callback_data.type rpc held where
  more := by
    intro s rest length h hlen
    obtain ⟨hread, hoffset, _⟩ := DataReadStruct.read_more (d := s.data rpc false) (h.rest ▸ hlen)
    refine ⟨_, ?_, h.next hlen⟩
    unfold data_read_callback_response
    rw [if_neg h.nonempty, hread, h.rest]
    dsimp only
    rw [if_neg hoffset]
  last := by
    intro s rest length h hlen
    have hread := DataReadStruct.read_last h.read (h.rest ▸ hlen)
    -- the trailers are read before `remove_rpc` clears the object
    have htrailers : ((s.set_data rpc false (s.data rpc false).finished).grpc rpc).res_trailers.text
        = trailers := by
      rw [← h.trailers]
      unfold set_data
      dsimp only
      rw [Function.update_self]
      rfl
    unfold data_read_callback_response
    rw [if_neg h.nonempty, hread, h.rest]
    dsimp only
    rw [if_pos (DataReadStruct.read_offset_finished _), rpc_mapper_set_data,
      h.rpc_mapper, hrpc, ok_bind,
      if_neg (not_not.mpr hkind), htrailers]
    rfl

/-- **Payload reassembly and re-chunking are inverse.** The chunks of a direction that has no data
yet, more than nothing and no more than fits, are handed out as one text, whatever the lengths of
the buffers. A response ends with the call that copies the last byte: it submits the trailers and
removes the RPC. -/
theorem payload_rechunked {m : gRPCMessage} {chunks : List Bytes} (hne : chunks.flatten ≠ [])
    (hfit : chunks.flatten.length ≤ maxPayloadSize) :
    ((m.data true).Fresh → ∃ m', chunks.foldlM (fun m bytes => m.add_data bytes true) m = .ok m'
      ∧ ∀ (s : Calls n) (callback_data : CallbackData) (stream_id : ℤ) (info rpc : Fin n),
        s.data info true = m'.data true →
        s.rpc_mapper.get_us_rpc callback_data.type stream_id callback_data.fd = .ok rpc →
        ∀ lengths : List ℕ, (∀ length ∈ lengths, 0 < length) → ∃ calls s',
          reads (data_read_callback_request callback_data stream_id info) lengths s
            = .ok (calls, s')
          ∧ HandsOut chunks.flatten none lengths calls ∧ s'.rpc_mapper = s.rpc_mapper)
    ∧ ((m.data false).Fresh → ∃ m', chunks.foldlM (fun m bytes => m.add_data bytes false) m = .ok m'
      ∧ ∀ (s : Calls n) (callback_data : CallbackData) (stream_id : ℤ) (rpc : Fin n) (held : ℕ),
        s.data rpc false = m'.data false →
        s.rpc_mapper.get_ds_rpc callback_data.type stream_id callback_data.fd = .ok rpc →
        (s.rpc_mapper.heap rpc).http = .HTTP2 →
        ∀ lengths : List ℕ, (∀ length ∈ lengths, 0 < length) → ∃ calls s',
          reads (data_read_callback_response callback_data stream_id rpc held) lengths s
            = (if chunks.flatten.length ≤ lengths.sum then (do
                let s ← s'.remove_rpc callback_data.type rpc held
                .ok (calls, s))
              else .ok (calls, s'))
          ∧ HandsOut chunks.flatten (some (s.grpc rpc).res_trailers.text) lengths calls
          ∧ s'.rpc_mapper = s.rpc_mapper) := by
  -- what a fresh buffer holds after the chunks
  have hadded : ∀ request, (m.data request).Fresh →
      ∃ m', chunks.foldlM (fun m bytes => m.add_data bytes request) m = .ok m'
        ∧ (m'.data request).rest = chunks.flatten ∧ (m'.data request).read_offset = 0
        ∧ (m'.data request).offset ≠ 0 := by
    intro request hfresh
    have hempty : (m.data request).content = [] := by
      rw [← List.length_eq_zero_iff, DataReadStruct.length_content]
      exact hfresh.1
    have hroom : (m.data request).content.length + chunks.flatten.length ≤ maxPayloadSize := by
      rw [hempty, List.length_nil, Nat.zero_add]
      exact hfit
    obtain ⟨m', hm', hcontent, hread⟩ := gRPCMessage.add_data_chunks hroom
    rw [hempty, List.nil_append] at hcontent
    rw [hfresh.2] at hread
    refine ⟨m', hm', ?_, hread, ?_⟩
    · unfold DataReadStruct.rest
      rw [hread, hcontent, List.drop_zero]
    · rw [← DataReadStruct.length_content, hcontent]
      exact fun hzero => hne (List.length_eq_zero_iff.mp hzero)
  constructor
  · intro hfresh
    obtain ⟨m', hm', hrest, hread, hoffset⟩ := hadded true hfresh
    refine ⟨m', hm', fun s callback_data stream_id info rpc hdata hrpc lengths hpos => ?_⟩
    have hleft : Left s.rpc_mapper info true (s.grpc info).res_trailers.text s chunks.flatten :=
      ⟨rfl, by rw [hdata]; exact hrest, by rw [hdata, hread]; exact Nat.zero_le _,
        by rw [hdata]; exact hoffset, rfl⟩
    obtain ⟨calls, s', rest, hout, hs', hreads⟩ :=
      (request_source info _ hrpc).reads_eq hleft hne hpos
    rw [hreads]
    by_cases hdone : chunks.flatten.length ≤ lengths.sum
    · rw [if_pos hdone]
      exact ⟨calls, s'.finished info true, rfl, hout, hs'.rpc_mapper⟩
    · rw [if_neg hdone]
      exact ⟨calls, s', rfl, hout, hs'.rpc_mapper⟩
  · intro hfresh
    obtain ⟨m', hm', hrest, hread, hoffset⟩ := hadded false hfresh
    refine ⟨m', hm', fun s callback_data stream_id rpc held hdata hrpc hkind lengths hpos => ?_⟩
    have hleft : Left s.rpc_mapper rpc false (s.grpc rpc).res_trailers.text s chunks.flatten :=
      ⟨rfl, by rw [hdata]; exact hrest, by rw [hdata, hread]; exact Nat.zero_le _,
        by rw [hdata]; exact hoffset, rfl⟩
    obtain ⟨calls, s', rest, hout, hs', hreads⟩ :=
      (response_source _ held hrpc hkind).reads_eq hleft hne hpos
    rw [hreads]
    by_cases hdone : chunks.flatten.length ≤ lengths.sum
    · refine ⟨calls, s'.finished rpc false, ?_, hout, hs'.rpc_mapper⟩
      rw [if_pos hdone, if_pos hdone]
    · refine ⟨calls, s', ?_, hout, hs'.rpc_mapper⟩
      rw [if_neg hdone, if_neg hdone]

/-- A call that came on stream 1 of descriptor 4 and went out on stream 3 of descriptor 5. -/
def oneCall : Except Abort (RPCMapper 1) := do
  let m ← (RPCMapper.create 1 0 (fun _ => .INGRESS) fun _ => 0).allocate_rpc .INGRESS 1 4 .HTTP2
  (m.modify 0 fun rpc => { rpc with local_id := 7, us_fd := 5, us_stream_id := 3 }).route
    .INGRESS 1 4 3 5

/-- Three chunks, one of them empty, are read in two parts; the response ends with the call. -/
theorem payload_rechunked_two :
    ∃ (m' m'' : gRPCMessage) (rpc_mapper : RPCMapper 1), oneCall = .ok rpc_mapper
      ∧ (∃ calls s',
        reads (data_read_callback_request ⟨.INGRESS, 5⟩ 3 0)
          [2, 5] ⟨rpc_mapper, fun _ => m'⟩ = .ok (calls, s')
        ∧ HandsOut [1, 2, 3] none [2, 5] calls ∧ s'.rpc_mapper = rpc_mapper)
      ∧ ∃ calls s',
        reads (data_read_callback_response ⟨.INGRESS, 4⟩ 1 0 0) [2, 5] ⟨rpc_mapper, fun _ => m''⟩
          = (if ([1, 2, 3] : Bytes).length ≤ [2, 5].sum then (do
              let s ← s'.remove_rpc .INGRESS 0 0
              .ok (calls, s))
            else .ok (calls, s'))
        ∧ HandsOut [1, 2, 3] (some m''.res_trailers.text)
          [2, 5] calls ∧ s'.rpc_mapper = rpc_mapper := by
  -- the registry of one call, in which both streams are found
  have hcheck : (do
      let m ← oneCall
      let us ← m.get_us_rpc .INGRESS 3 5
      let ds ← m.get_ds_rpc .INGRESS 1 4
      .ok (decide (us = 0 ∧ ds = 0 ∧ (m.heap ds).http = .HTTP2)))
        = (.ok true : Except Abort Bool) := by
    decide +kernel
  obtain ⟨rpc_mapper, hmapper, hcheck⟩ := bind_eq_ok.mp hcheck
  obtain ⟨us, hus, hcheck⟩ := bind_eq_ok.mp hcheck
  obtain ⟨ds, hds, hcheck⟩ := bind_eq_ok.mp hcheck
  obtain ⟨rfl, rfl, hkind⟩ := of_decide_eq_true (Except.ok.inj hcheck)
  have hpos : ∀ length ∈ [2, 5], 0 < length := by decide
  have hne : ([[1, 2], [], [3]] : List Bytes).flatten ≠ [] := by decide
  have hmain := payload_rechunked (n := 1) (m := egress_call) hne (by decide)
  obtain ⟨m', _, hrequest⟩ := hmain.1 ⟨rfl, rfl⟩
  obtain ⟨m'', _, hresponse⟩ := hmain.2 ⟨rfl, rfl⟩
  exact ⟨m', m'', rpc_mapper, hmapper,
    hrequest ⟨rpc_mapper, fun _ => m'⟩ ⟨.INGRESS, 5⟩ 3 0 0 rfl hus [2, 5] hpos,
    hresponse ⟨rpc_mapper, fun _ => m''⟩ ⟨.INGRESS, 4⟩ 1 0 0 rfl hds hkind [2, 5] hpos⟩

end Calls

end RlpSidecar
