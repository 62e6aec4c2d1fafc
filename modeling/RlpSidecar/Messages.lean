/-
Whole message objects: headers, payloads and the texts of identifiers (`rpc_message.cc`).

`RPCMessage` has the fields that the registry and the queues work with. The two classes below add
what a connection fills in and reads: header fields in arrays of fixed size, payloads in a buffer
of fixed size, and for HTTP/1 the request line and the status line. Nothing is taken out of an
array when a message is cleared; the lengths are set to zero. What the program reads is the part
that the lengths cover, `text` and `content`.

A name is compared with `memcmp` over the length of the constant. The byte after a name is a colon
or a zero byte, which no constant has, so the comparison asks whether the name starts with the
constant.
-/
import RlpSidecar.Decimal
import RlpSidecar.RpcMessage

set_option autoImplicit false

namespace RlpSidecar

/-- `MAX_HEADER_FIELD_SIZE`: the capacity of the name and of the value of a header field, the
terminating zero byte included. -/
abbrev maxHeaderFieldSize : ℕ := 60

/-- `MAX_HEADER_FIELD_NUMBER`: how many header fields a message has room for, in each of its
vectors. -/
abbrev maxHeaderFieldNumber : ℕ := 13

/-- `MAX_PAYLOAD_SIZE`: the capacity of the payload of one direction. -/
abbrev maxPayloadSize : ℕ := 20000

/-! ## Header fields -/

/-- `HeaderField`: two arrays of fixed size, and the lengths of what they hold at the moment. The
bytes behind a length are those of earlier headers, and the fields say that the arrays never change
their size. -/
structure HeaderField where
  name : Bytes
  name_len : ℕ
  value : Bytes
  value_len : ℕ
  length_name : name.length = maxHeaderFieldSize
  length_value : value.length = maxHeaderFieldSize

namespace HeaderField

/-- The constructor of `HeaderField`: both arrays are allocated with zeros, and nothing is in
use. -/
def create : HeaderField :=
  { name := List.replicate maxHeaderFieldSize 0
    name_len := 0
    value := List.replicate maxHeaderFieldSize 0
    value_len := 0
    length_name := List.length_replicate
    length_value := List.length_replicate }

/-- The name and the value as the program reads them, by their lengths. What stands behind is not
part of it. -/
def text (h : HeaderField) : Bytes × Bytes := (h.name.take h.name_len, h.value.take h.value_len)

/-- `HeaderField::set`. The two checks compare with `>`, but the zero byte after each text is
written with `at`, so a text of exactly the capacity passes the check and then throws. -/
def set (h : HeaderField) (field_name field_value : Bytes) : Except Abort HeaderField :=
  -- the lengths are checked with `>`, so that the full size passes
  if maxHeaderFieldSize < field_name.length then .error .headerTooLong
  else if maxHeaderFieldSize < field_value.length then .error .headerTooLong
  else if hlen : field_name.length < maxHeaderFieldSize ∧ field_value.length
      < maxHeaderFieldSize then
    .ok
      -- the text and a zero; what was longer before stays behind it
      { name := Wire.overwrite h.name 0 (field_name ++ [0])
        name_len := field_name.length
        value := Wire.overwrite h.value 0 (field_value ++ [0])
        value_len := field_value.length
        length_name := by
          rw [Wire.length_overwrite (by simp [h.length_name]; omega)]
          exact h.length_name
        length_value := by
          rw [Wire.length_overwrite (by simp [h.length_value]; omega)]
          exact h.length_value }
  -- `at(size())`, for the zero behind a text of the full size
  else .error .outOfRange

/-- `HeaderField::clear`: `name_len = 0` and `value_len = 0`. The bytes stay where they are. -/
def clear (h : HeaderField) : HeaderField := { h with name_len := 0, value_len := 0 }

/-- What `set` stores is what `text` reads: the old bytes behind the new ones do not show. -/
theorem set_text {h h' : HeaderField} {field_name field_value : Bytes}
    (hset : h.set field_name field_value = .ok h') : h'.text = (field_name, field_value) := by
  unfold set at hset
  split_ifs at hset
  obtain rfl := Except.ok.inj hset
  unfold text Wire.overwrite
  simp

/-- Whether `set` succeeds depends on the lengths only, and not on what the field held before. This
is the side that succeeds; `set_error` is the other one. -/
theorem set_exists (h : HeaderField) {field_name field_value : Bytes}
    (hname : field_name.length < maxHeaderFieldSize)
    (hvalue : field_value.length < maxHeaderFieldSize) :
    ∃ h', h.set field_name field_value = .ok h' := by
  unfold set
  rw [if_neg (by omega), if_neg (by omega), dif_pos ⟨hname, hvalue⟩]
  exact ⟨_, rfl⟩

/-- If `set` fails on one field, it fails in the same way on every field, since it looks at the
lengths of its arguments only. -/
theorem set_error {h : HeaderField} {field_name field_value : Bytes} {e : Abort}
    (hset : h.set field_name field_value = .error e) (h' : HeaderField) :
    h'.set field_name field_value = .error e := by
  unfold set at hset ⊢
  split_ifs at hset ⊢
  · exact hset
  · exact hset
  · exact hset

end HeaderField

/-- A vector of header fields and the number of those in use. The vector is filled once, when the
message is allocated, and its length never changes. -/
structure HeaderList where
  fields : List HeaderField
  count : ℕ
  length_fields : fields.length = maxHeaderFieldNumber

namespace HeaderList

/-- All fields are allocated, and none is in use. -/
def create : HeaderList :=
  ⟨List.replicate maxHeaderFieldNumber .create, 0, List.length_replicate⟩

/-- The headers in use, in the order in which they were added: what `submit_request` and the
writers of HTTP/1 go over. -/
def text (h : HeaderList) : List (Bytes × Bytes) := (h.fields.take h.count).map HeaderField.text

/-- While the count is below the limit, the next field exists. -/
theorem count_lt_length (h : HeaderList) (hcount : ¬ maxHeaderFieldNumber ≤ h.count) :
    h.count < h.fields.length := by
  rw [h.length_fields]
  omega

/-- An assignment to a field keeps the length of the vector. -/
theorem length_set (h : HeaderList) (field : HeaderField) :
    (h.fields.set h.count field).length = maxHeaderFieldNumber := by
  rw [List.length_set]
  exact h.length_fields

/-- Fills in the next field. The check of the number comes before the field is touched, and the
number grows only after `set` has returned. -/
def add (h : HeaderList) (name value : Bytes) : Except Abort HeaderList :=
  if hcount : maxHeaderFieldNumber ≤ h.count then .error .tooManyHeaders
  else do
    let field ← (h.fields.get ⟨h.count, h.count_lt_length hcount⟩).set name value
    .ok
      { fields := h.fields.set h.count field
        count := h.count + 1
        length_fields := h.length_set field }

/-- All lengths and the number are set to zero; the source goes over all the fields and not only
over those in use. -/
def clear (h : HeaderList) : HeaderList :=
  { fields := h.fields.map HeaderField.clear
    count := 0
    length_fields := by rw [List.length_map]; exact h.length_fields }

/-- There is room for a header if a field is free and both texts are shorter than the capacity. -/
theorem add_exists {h : HeaderList} {name value : Bytes}
    (hcount : h.count < maxHeaderFieldNumber) (hname : name.length < maxHeaderFieldSize)
    (hvalue : value.length < maxHeaderFieldSize) : ∃ h', h.add name value = .ok h' := by
  have hroom : ¬ maxHeaderFieldNumber ≤ h.count := by omega
  unfold add
  rw [dif_neg hroom]
  obtain ⟨field, hset⟩ := (h.fields.get ⟨h.count, h.count_lt_length hroom⟩).set_exists hname hvalue
  rw [hset]
  exact ⟨_, rfl⟩

/-- A header that was added left room for the zero bytes. -/
theorem add_terminated {h h' : HeaderList} {name value : Bytes} (hadd : h.add name value = .ok h') :
    name.length < maxHeaderFieldSize ∧ value.length < maxHeaderFieldSize := by
  unfold add at hadd
  split_ifs at hadd
  obtain ⟨field, hset, _⟩ := bind_eq_ok.mp hadd
  unfold HeaderField.set at hset
  split_ifs at hset with _ _ hlength
  exact hlength

/-- An added header stands behind the others, exactly as it was given. -/
theorem add_text {h h' : HeaderList} {name value : Bytes} (hadd : h.add name value = .ok h') :
    h'.text = h.text ++ [(name, value)] ∧ h'.count = h.count + 1
      ∧ h'.count ≤ maxHeaderFieldNumber := by
  unfold add at hadd
  split_ifs at hadd with hcount
  obtain ⟨field, hset, hadd⟩ := bind_eq_ok.mp hadd
  obtain rfl := Except.ok.inj hadd
  have hlt := h.count_lt_length hcount
  refine ⟨?_, rfl, by dsimp only; omega⟩
  unfold text
  dsimp only
  rw [List.take_succ_eq_append_getElem (by rw [List.length_set]; exact hlt), List.map_append,
    List.take_set_of_le (le_refl _), List.getElem_set_self]
  rw [List.map_singleton, HeaderField.set_text hset]

end HeaderList

/-! ## Payloads -/

/-- `DataReadStruct`: the payload of one direction, with `offset` the end of what was received and
`read_offset` the end of what was handed on. -/
structure DataReadStruct where
  data : Bytes
  offset : ℕ
  read_offset : ℕ
  length_data : data.length = maxPayloadSize
  offset_le : offset ≤ maxPayloadSize

namespace DataReadStruct

/-- A payload as it is allocated: zeros, and nothing received or handed on. -/
def create : DataReadStruct :=
  ⟨List.replicate maxPayloadSize 0, 0, 0, List.length_replicate, by omega⟩

/-- The bytes added so far, without those of earlier messages behind `offset`. -/
def content (d : DataReadStruct) : Bytes := d.data.take d.offset

/-- `add_data`, for one direction: the chunk is copied behind the others, or the process ends
because it does not fit into what is left. -/
def add (d : DataReadStruct) (bytes : Bytes) : Except Abort DataReadStruct :=
  -- what is left of the array
  if h : maxPayloadSize - d.offset < bytes.length then .error .payloadTooLong
  else
    have hle := d.offset_le
    .ok
      { d with
        data := Wire.overwrite d.data d.offset bytes
        offset := d.offset + bytes.length
        length_data := by
          rw [Wire.length_overwrite (by rw [d.length_data]; omega)]
          exact d.length_data
        offset_le := by omega }

/-- The copying of the two data callbacks: the next bytes, at most `length` of them. -/
def read (d : DataReadStruct) (length : ℕ) : Bytes × DataReadStruct :=
  let to_copy := min (d.offset - d.read_offset) length
  ((d.content.drop d.read_offset).take to_copy, { d with read_offset := d.read_offset + to_copy })

/-- Both offsets are set to zero, and the bytes stay. -/
def clear (d : DataReadStruct) : DataReadStruct :=
  { d with offset := 0, read_offset := 0, offset_le := Nat.zero_le _ }

/-- The length of the content is the offset. -/
theorem length_content (d : DataReadStruct) : d.content.length = d.offset := by
  unfold content
  rw [List.length_take, d.length_data]
  exact Nat.min_eq_left d.offset_le

/-- A chunk is added behind the others, and what was handed on stays the same. -/
theorem add_content {d d' : DataReadStruct} {bytes : Bytes} (hadd : d.add bytes = .ok d') :
    d'.content = d.content ++ bytes ∧ d'.read_offset = d.read_offset := by
  unfold add at hadd
  split_ifs at hadd with h
  obtain rfl := Except.ok.inj hadd
  have hle := d.offset_le
  refine ⟨?_, rfl⟩
  have hlen : (d.data.take d.offset ++ bytes).length = d.offset + bytes.length := by
    rw [List.length_append, List.length_take, d.length_data, Nat.min_eq_left hle]
  exact List.take_left' hlen

end DataReadStruct

/-! ## Texts of identifiers -/

/-- "rpc-id", the header with the global identifier of a request. -/
def RPC_ID : Bytes := [114, 112, 99, 45, 105, 100]

/-- "rpc-local-id", `RPC_LOCAL_ID_HEADER_NAME`: the header with the identifier that the sidecar
gives to a request. -/
def RPC_LOCAL_ID : Bytes := [114, 112, 99, 45, 108, 111, 99, 97, 108, 45, 105, 100]

/-- "priority", the header with the priority of a request. -/
def PRIORITY : Bytes := [112, 114, 105, 111, 114, 105, 116, 121]

/-- ":path", the pseudo header of HTTP/2 with the name of the called method. -/
def PATH : Bytes := [58, 112, 97, 116, 104]

/-- What `strcmp` reads of a name: the bytes before the first zero byte. The comparison with
":path" is the only one that is made in this way. -/
def cstring (name : Bytes) : Bytes := name.takeWhile (· ≠ 0)

/-- A name that starts with anything but a colon is no path. The three names that requests are
searched for start with letters, so the two checks exclude each other. -/
theorem cstring_ne_path {c : UInt8} {key name : Bytes} (h : c :: key <+: name)
    (hc : c ≠ 0) (hcolon : c ≠ 58) :
    cstring name ≠ PATH := by
  obtain ⟨rest, rfl⟩ := h
  intro hpath
  unfold cstring at hpath
  rw [List.cons_append, List.takeWhile_cons_of_pos (by simpa using hc)] at hpath
  exact hcolon (List.cons.inj hpath).1

/-- `std::stoll`. Both of its exceptions, for a text without a number and for a number that is too
large, are caught by nothing and end the process. -/
def stoll (value : Bytes) : Except Abort ℤ :=
  match Decimal.stoll value with
  | .ok z => .ok z
  | .error .noConversion => .error .invalidArgument
  | .error .outOfRange => .error .outOfRange

/-- What is read fits into a `long long`; the assignment to a narrower field then cuts it. -/
theorem stoll_range {value : Bytes} {z : ℤ} (h : stoll value = .ok z) :
    -2 ^ 63 ≤ z ∧ z ≤ 2 ^ 63 - 1 := by
  unfold stoll Decimal.stoll at h
  dsimp only at h
  generalize (if (Decimal.scan value).1 = true then -(Decimal.value (Decimal.scan value).2 : ℤ)
    else Decimal.value (Decimal.scan value).2) = x at h
  by_cases hne : (Decimal.scan value).2 = []
  · rw [if_pos hne] at h
    cases h
  rw [if_neg hne] at h
  by_cases hrange : x < -2 ^ 63 ∨ 2 ^ 63 - 1 < x
  · rw [if_pos hrange] at h
    cases h
  · rw [if_neg hrange] at h
    obtain rfl := Except.ok.inj h
    omega

/-- The fields of `RPCMessage` that headers set: the base part of a message, and the global
identifier, which the registry does not look at. -/
structure Identified where
  rpc : RPCMessage
  global_id : RPCID

/-- What `add_header_field` of both classes does with a request header before it is stored. The last
component says that it is not stored. -/
def read_request_header (config : IdConfig) (local_id_counter : RPCID) (m : Identified)
    (name value : Bytes) : Except Abort (Identified × RPCID × Bool) := do
  -- `memcmp` with the length of the reserved name, so longer names match as well
  if RPC_ID <+: name then
    let id ← stoll value
    let (rpc, local_id_counter) ← m.rpc.add_header_field config local_id_counter .rpc_id
    .ok (⟨rpc, BitVec.ofInt 64 id⟩, local_id_counter, false)
  else if RPC_LOCAL_ID <+: name then
    let id_from_str ← stoll value
    let (rpc, local_id_counter) ←
      m.rpc.add_header_field config local_id_counter (.rpc_local_id (BitVec.ofInt 64 id_from_str))
    -- the caller's own id is not sent on
    .ok ({ m with rpc := rpc }, local_id_counter, decide (m.rpc.type = .EGRESS))
  else if PRIORITY <+: name then
    let priority ← stoll value
    let (rpc, local_id_counter) ←
      m.rpc.add_header_field config local_id_counter (.priority (BitVec.ofInt 32 priority))
    .ok ({ m with rpc := rpc }, local_id_counter, false)
  else .ok (m, local_id_counter, false)

/-- No name starts with two of the names that are looked for, so the order of the three checks does
not matter. -/
theorem priority_alone {name : Bytes} (h : RPC_ID <+: name ∨ RPC_LOCAL_ID <+: name) :
    ¬ PRIORITY <+: name := by
  intro hpriority
  rcases h with h | h
  · exact absurd (List.prefix_of_prefix_length_le h hpriority (by decide)) (by decide)
  · exact absurd (List.prefix_of_prefix_length_le hpriority h (by decide)) (by decide)

/-- A request header `priority`: the number is cut to an `int32_t`, and the header is kept. -/
theorem read_priority (config : IdConfig) (counter : RPCID) (m : Identified) {name : Bytes}
    (value : Bytes) (hname : PRIORITY <+: name) :
    read_request_header config counter m name value = (do
      let priority ← stoll value
      .ok ({ m with rpc.priority := BitVec.ofInt 32 priority }, counter, false)) := by
  have hid : ¬ RPC_ID <+: name := fun h => priority_alone (.inl h) hname
  have hlocal : ¬ RPC_LOCAL_ID <+: name := fun h => priority_alone (.inr h) hname
  unfold read_request_header
  rw [if_neg hid, if_neg hlocal, if_pos hname]
  rfl

/-! ## The two classes -/

/-- `gRPCMessage`: what HTTP/2 adds to an `RPCMessage`. A request and its response share the
object, so it has headers and a payload for each direction, and trailers for the response. -/
structure gRPCMessage where
  ids : Identified
  method : Bytes
  req_data : DataReadStruct
  res_data : DataReadStruct
  req_headers : HeaderList
  res_headers : HeaderList
  res_trailers : HeaderList

/-- `HTTPMessage`: what HTTP/1 adds to an `RPCMessage`, with the parts of the request line and of
the status line. Its requests have no body. -/
structure HTTPMessage where
  ids : Identified
  path : Bytes
  method : Bytes
  minor : ℤ
  status : ℤ
  msg : Bytes
  req_headers : HeaderList
  res_headers : HeaderList
  res_data : DataReadStruct

namespace gRPCMessage

/-- The constructor of `gRPCMessage`, on what the one of `RPCMessage` makes. The global identifier
is −1 until a header sets it. -/
def create (rpc : RPCMessage) : gRPCMessage :=
  { ids := ⟨rpc, -1⟩
    method := []
    req_data := .create
    res_data := .create
    req_headers := .create
    res_headers := .create
    res_trailers := .create }

/-- What `add_header_field` does with `:path`. The path of a request begins with a slash;
`value_len - 1` wraps around for an empty one. -/
def read_path (m : gRPCMessage) (name value : Bytes) : Except Abort gRPCMessage :=
  if cstring name = PATH then
    if value = [] then .error .lengthError
    else .ok { m with ids.rpc.service := value.tail, method := [] }
  else .ok m

/-- `gRPCMessage::add_header_field`: first the path, in either direction, then for a request the
identifiers, and then the field is added to its vector. A header `rpc-local-id` of an EGRESS
connection is read and not added; a request has no trailers. -/
def add_header_field (config : IdConfig) (local_id_counter : RPCID) (m : gRPCMessage)
    (name value : Bytes) (request tailer : Bool) : Except Abort (gRPCMessage × RPCID) := do
  -- in a request and in a response alike
  let m ← m.read_path name value
  if request then
    let (ids, local_id_counter, dropped) ←
      read_request_header config local_id_counter m.ids name value
    let m := { m with ids := ids }
    if dropped then .ok (m, local_id_counter)
    else if tailer then .error .trailerInRequest
    else .ok ({ m with req_headers := ← m.req_headers.add name value }, local_id_counter)
  else if tailer then
    .ok ({ m with res_trailers := ← m.res_trailers.add name value }, local_id_counter)
  else .ok ({ m with res_headers := ← m.res_headers.add name value }, local_id_counter)

/-- A request header other than `:path` changes the identifiers and the headers of the request, and
nothing else. -/
theorem add_request_header (config : IdConfig) (counter : RPCID) (m : gRPCMessage)
    {name value : Bytes} (hname : cstring name ≠ PATH) :
    m.add_header_field config counter name value true false = (do
      let (ids, counter', dropped) ← read_request_header config counter m.ids name value
      if dropped then .ok ({ m with ids := ids }, counter')
      else do
        .ok ({ m with ids := ids, req_headers := ← m.req_headers.add name value }, counter')) := by
  unfold add_header_field read_path
  rw [if_neg hname]
  rfl

/-- A response header other than `:path` is added to the headers of the response as it is; no
identifier is read from it. -/
theorem add_response_header (config : IdConfig) (counter : RPCID) (m : gRPCMessage)
    {name value : Bytes} (hname : cstring name ≠ PATH) :
    m.add_header_field config counter name value false false = (do
      .ok ({ m with res_headers := ← m.res_headers.add name value }, counter)) := by
  unfold add_header_field read_path
  rw [if_neg hname]
  rfl

/-- A trailer other than `:path` is added to the trailers of the response as it is. -/
theorem add_response_trailer (config : IdConfig) (counter : RPCID) (m : gRPCMessage)
    {name value : Bytes} (hname : cstring name ≠ PATH) :
    m.add_header_field config counter name value false true = (do
      .ok ({ m with res_trailers := ← m.res_trailers.add name value }, counter)) := by
  unfold add_header_field read_path
  rw [if_neg hname]
  rfl

/-- `gRPCMessage::set_local_id_header`: the identifier is written as a decimal number and added
like a header that has come, so it is in the vector only if the message is one of INGRESS. -/
def set_local_id_header (config : IdConfig) (local_id_counter : RPCID) (m : gRPCMessage) :
    Except Abort (gRPCMessage × RPCID) :=
  m.add_header_field config local_id_counter RPC_LOCAL_ID
    (Decimal.ofInt m.ids.rpc.local_id.toInt) true false

/-- `gRPCMessage::add_data`: a chunk of a DATA frame goes to the payload of its direction. -/
def add_data (m : gRPCMessage) (data : Bytes) (request : Bool) : Except Abort gRPCMessage := do
  if request then .ok { m with req_data := ← m.req_data.add data }
  else .ok { m with res_data := ← m.res_data.add data }

/-- `gRPCMessage::clear`, before the object goes back to its pool: the base part, the method and
all lengths are reset. -/
def clear (m : gRPCMessage) : Except Abort gRPCMessage := do
  let rpc ← m.ids.rpc.clear
  .ok
    -- the arrays keep their bytes; only counts and offsets are set to zero
    { ids := ⟨rpc, -1⟩
      method := []
      req_data := m.req_data.clear
      res_data := m.res_data.clear
      req_headers := m.req_headers.clear
      res_headers := m.res_headers.clear
      res_trailers := m.res_trailers.clear }

end gRPCMessage

namespace HTTPMessage

/-- The constructor, on what the one of `RPCMessage` makes. The first `clear` sets the numbers that
it leaves open. -/
def create (rpc : RPCMessage) : HTTPMessage :=
  { ids := ⟨rpc, -1⟩
    path := []
    method := []
    minor := 0
    status := 0
    msg := []
    req_headers := .create
    res_headers := .create
    res_data := .create }

/-- "http://", with which a target in absolute form starts. -/
def SCHEME : Bytes := [104, 116, 116, 112, 58, 47, 47]

/-- `parse_service_from_request_target`: the text between the first slash and the first question
mark after it. A scheme in front is skipped, and then the first slash is the one behind the
host. -/
def parse_service_from_request_target (s : Bytes) : Option Bytes :=
  let p := if SCHEME <+: s then s.drop 7 else s
  match p.dropWhile (· ≠ 47) with
  | [] => none
  | [_] => none
  | _ :: rest => some (rest.takeWhile (· ≠ 63))

/-- `HTTPMessage::set_service`. A target without a slash, or with nothing behind it, ends the
process. -/
def set_service (m : HTTPMessage) (s : Bytes) : Except Abort HTTPMessage :=
  match parse_service_from_request_target s with
  | none => .error .invalidService
  | some service => .ok { m with ids.rpc.service := service }

/-- `HTTPMessage::add_header_field`: like the one of `gRPCMessage`, but without a path among the
headers and without trailers at all. -/
def add_header_field (config : IdConfig) (local_id_counter : RPCID) (m : HTTPMessage)
    (name value : Bytes) (request tailer : Bool) : Except Abort (HTTPMessage × RPCID) := do
  -- HTTP/1 has no trailers here
  if tailer then .error .trailerInRequest
  else if request then
    let (ids, local_id_counter, dropped) ←
      read_request_header config local_id_counter m.ids name value
    let m := { m with ids := ids }
    if dropped then .ok (m, local_id_counter)
    else .ok ({ m with req_headers := ← m.req_headers.add name value }, local_id_counter)
  else .ok ({ m with res_headers := ← m.res_headers.add name value }, local_id_counter)

/-- A request header of HTTP/1, with no condition on the name: a message of HTTP/1 has its path
from the request line. -/
theorem add_request_header (config : IdConfig) (counter : RPCID) (m : HTTPMessage)
    (name value : Bytes) :
    m.add_header_field config counter name value true false = (do
      let (ids, counter', dropped) ← read_request_header config counter m.ids name value
      if dropped then .ok ({ m with ids := ids }, counter')
      else do
        .ok ({ m with ids := ids, req_headers := ← m.req_headers.add name value }, counter')) := rfl

/-- `HTTPMessage::set_local_id_header`: the identifier is written as a decimal number and added
like a header that has come. -/
def set_local_id_header (config : IdConfig) (local_id_counter : RPCID) (m : HTTPMessage) :
    Except Abort (HTTPMessage × RPCID) :=
  m.add_header_field config local_id_counter RPC_LOCAL_ID
    (Decimal.ofInt m.ids.rpc.local_id.toInt) true false

/-- `HTTPMessage::add_data`. The connection never gives it a part of a request, and the source says
so with a `LOG(FATAL)`. -/
def add_data (m : HTTPMessage) (data : Bytes) (request : Bool) : Except Abort HTTPMessage :=
  if request then .error .requestData
  else do
    .ok { m with res_data := ← m.res_data.add data }

/-- `HTTPMessage::clear`. The path and the priority stay: the source does not reset them, unlike
everything else. -/
def clear (m : HTTPMessage) : Except Abort HTTPMessage := do
  let rpc ← m.ids.rpc.clear
  .ok
    -- the path is not among the fields that are cleared
    { m with
      ids := ⟨rpc, -1⟩
      method := []
      minor := 0
      status := 0
      msg := []
      req_headers := m.req_headers.clear
      res_headers := m.res_headers.clear
      res_data := m.res_data.clear }

end HTTPMessage

/-- A message of one of the two classes, for what is said of both: the source has a base class with
virtual functions instead. -/
inductive Message
  | grpc (m : gRPCMessage)
  | http (m : HTTPMessage)

namespace Message

/-- The base part, in the source the object of class `RPCMessage` itself. -/
def rpc : Message → RPCMessage
  | .grpc m => m.ids.rpc
  | .http m => m.ids.rpc

/-- The headers of the request, which both classes have. -/
def req_headers : Message → HeaderList
  | .grpc m => m.req_headers
  | .http m => m.req_headers

/-- `set_local_id_header`, the virtual function of `RPCMessage`. -/
def set_local_id_header (config : IdConfig) (local_id_counter : RPCID) :
    Message → Except Abort (Message × RPCID)
  | .grpc m => do
    let (m, local_id_counter) ← m.set_local_id_header config local_id_counter
    .ok (.grpc m, local_id_counter)
  | .http m => do
    let (m, local_id_counter) ← m.set_local_id_header config local_id_counter
    .ok (.http m, local_id_counter)

/-- `add_header_field`, the virtual function of `RPCMessage`. -/
def add_header_field (config : IdConfig) (local_id_counter : RPCID) (name value : Bytes)
    (request tailer : Bool) : Message → Except Abort (Message × RPCID)
  | .grpc m => do
    let (m, local_id_counter) ← m.add_header_field config local_id_counter name value request tailer
    .ok (.grpc m, local_id_counter)
  | .http m => do
    let (m, local_id_counter) ← m.add_header_field config local_id_counter name value request tailer
    .ok (.http m, local_id_counter)

end Message

end RlpSidecar
