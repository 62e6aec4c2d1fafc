/-
The RLP datagrams: the encoder and the decoders of `state.cc`.

Every message is a 26-byte header followed by the service name. A Credit Request is written by
`send_credit_request`; a Credit Grant is a copy of the request with two bytes patched by
`write_credit_grant` and four by `check_credit_transmission`; a Credit Return is a copy of the
grant with one byte patched. Buffers come from a pool with whatever bytes their last use left in
them, so nothing here assumes anything of the bytes that are not written.

A `char` is signed. It is kept as the byte it is, and every cast of the source is written out:
`charToSize` is `(size_t)c`, which extends the sign, while `dispatch_rlp_recv` goes through
`unsigned char` and does not.

The functions have the names of the source, and each takes the buffer it writes or reads; what they
do to each other's fields is the subject of the module on the round trip. Addresses go with the
buffers, since a grant and a return are sent to where the datagram before came from.
-/
import RlpSidecar.CreditQueue
import RlpSidecar.SignedInt
import RlpSidecar.Wire

set_option autoImplicit false

namespace RlpSidecar

/-- `RPCID` is an `int64_t`. The upper half of a local identifier names an ingress RPC, the lower
half one of its branches. -/
abbrev RPCID := BitVec 64

/-- What the source uses of a `sockaddr_in`: where a datagram came from is where its answer
goes. -/
structure SockAddr where
  ip : BitVec 32
  port : BitVec 16
  deriving DecidableEq, Repr

/-! ## Buffers -/

/-- UDP buffers are created as `Buffer(256, …)`, so a datagram has at most 255 bytes: `set_filled`
asks for less than the size. -/
abbrev udpBufferLength : ℕ := 256

/-- `Buffer`, for UDP: 256 bytes, of which at most 255 count as filled (`size` is one less than
the length). -/
@[ext] structure Buffer where
  data : Bytes
  filled : ℕ
  addr : SockAddr
  enter_queue_ts : BitVec 64
  length_data : data.length = udpBufferLength
  filled_lt : filled < udpBufferLength

namespace Buffer

/-- `data.at(i)`, for the constant indices of the source, all of which are within the 256 bytes. -/
def byte (b : Buffer) (i : ℕ) : UInt8 := b.data.getD i 0

/-- Consecutive assignments `data.at(pos) = …`, or a `copy_n` to `data.begin() + pos`. That they
stay within the array is an argument, which every use below discharges. -/
def put (b : Buffer) (pos : ℕ) (bytes : Bytes) (h : pos + bytes.length ≤ udpBufferLength) :
    Buffer :=
  { b with
    data := Wire.overwrite b.data pos bytes
    length_data := by
      rw [Wire.length_overwrite (by rw [b.length_data]; exact h)]
      exact b.length_data }

/-- `set_filled` of a UDP buffer, which refuses a length that is not below the size. -/
def set_filled (b : Buffer) (f : ℕ) : Except Abort Buffer :=
  if h : f < udpBufferLength then .ok { b with filled := f, filled_lt := h }
  else .error .bufferOverflow

/-- `prepare_sendmsg`: the destination. The payload sent is the first `filled` bytes; what stands
behind them does not leave the machine. -/
def prepare_sendmsg (b : Buffer) (servaddr : SockAddr) : Buffer := { b with addr := servaddr }

/-- Several of these writes, in the order in which the source makes them, so that a later one may
cover an earlier one. -/
def puts (b : Buffer) (ws : List (ℕ × Bytes)) (h : ∀ w ∈ ws, w.1 + w.2.length ≤ udpBufferLength) :
    Buffer :=
  { b with
    data := Wire.overwrites b.data ws
    length_data := by
      rw [Wire.length_overwrites (by rw [b.length_data]; exact h)]
      exact b.length_data }

/-- `copy_n(src.data.begin(), src.get_filled(), b.data.begin())`, with which a grant starts as a
copy of its request. -/
def copy_n (b src : Buffer) : Buffer :=
  { b with
    data := Wire.overwrite b.data 0 (src.data.take src.filled)
    length_data := by
      have hs := src.filled_lt
      have hb := b.length_data
      rw [Wire.length_overwrite (by rw [List.length_take, hb]; omega), hb] }

/-- A receive buffer `rx` after `sent` has arrived in it from `peer`: the payload at its start,
the peer in its address. -/
def receive (rx sent : Buffer) (peer : SockAddr) : Buffer :=
  { rx.copy_n sent with filled := sent.filled, addr := peer, filled_lt := sent.filled_lt }

/-- A pool buffer with no byte ever written: a concrete instance for the examples. The theorems
hold for buffers with any contents. -/
def blank : Buffer :=
  { data := List.replicate udpBufferLength 0
    filled := 0
    addr := ⟨0, 0⟩
    enter_queue_ts := 0
    length_data := List.length_replicate
    filled_lt := by decide }

end Buffer

/-! ## Encoding -/

/-- `(size_t)c` of a `char`, which is signed here: a length byte from 128 on becomes a number near
`2 ^ 64`. -/
def charToSize (c : UInt8) : ℕ := (c.toBitVec.signExtend 64).toNat

/-- `header_size`, the number of bytes in front of the name of the service. -/
abbrev headerSize : ℕ := 26

/-- The buffer `send_credit_request` sends, built in `buffer`: the layout of a datagram, field by
field. Byte 4 is not written, so it keeps what the pool buffer had there. -/
def write_credit_request (buffer : Buffer) (service : Bytes) (num_credits : ℕ) (id : RPCID)
    (priority : Priority) (now_us : BitVec 64) (last_rtt : BitVec 32) : Except Abort Buffer :=
  let len := headerSize + service.length
  -- the check lets a length through for which `set_filled` has no room
  if h : udpBufferLength < len then .error .bufferTooSmall
  else
    let buffer := buffer.puts
      [(0, [UInt8.ofNat len]),
       (1, [0x01]),
       (2, [0x00]),
       (3, [UInt8.ofNat num_credits]),
       -- byte 4, the number of granted credits, is left as it is
       (5, Wire.encode id 8),
       (13, [⟨priority.setWidth 8⟩]),
       (14, Wire.encode now_us 8),
       (22, Wire.encode last_rtt 4),
       (headerSize, service)]
      (by simp only [List.forall_mem_cons, Wire.length_encode, List.length_singleton,
            List.not_mem_nil, udpBufferLength, len] at h ⊢; simp; omega)
    buffer.set_filled len

/-- `write_credit_grant`: the request is copied, and its flag and the number of credits are
overwritten. The sum is the test `grant->data.size() - grant->get_filled() < req->get_filled()`. -/
def write_credit_grant (granted_credits : ℕ) (req grant : Buffer) : Except Abort Buffer :=
  if udpBufferLength < grant.filled + req.filled then .error .bufferOverflow
  else
    let grant := grant.copy_n req
    let grant := grant.put 2 [0x01] (by decide)
    let grant := grant.put 4 [UInt8.ofNat granted_credits] (by simp [udpBufferLength])
    grant.set_filled req.filled

/-- `write_failed_dn_response`: a grant of one credit, addressed to the sender of the request. -/
def write_failed_dn_response (req resp : Buffer) : Except Abort Buffer := do
  let resp ← write_credit_grant 1 req resp
  .ok (resp.prepare_sendmsg req.addr)

/-- What `check_credit_transmission` does to a buffer it took from the queue: the time it spent
there, over the last RTT the client sent. -/
def stamp_queuing_time (buffer : Buffer) (now_ts : BitVec 64) : Buffer :=
  buffer.put 22 (Wire.encode ((now_ts - buffer.enter_queue_ts).setWidth 32) 4)
    (by rw [Wire.length_encode]; decide)

/-- `prepare_credit_return`: the grant is copied and becomes a Credit Return by its first byte of
kind. It goes to where the grant came from. -/
def prepare_credit_return (credit_grant credit_ret : Buffer) : Except Abort Buffer :=
  if udpBufferLength - 1 < credit_ret.filled + credit_grant.filled then .error .bufferOverflow
  else do
    let credit_ret := credit_ret.copy_n credit_grant
    let credit_ret ← credit_ret.set_filled credit_grant.filled
    let credit_ret := credit_ret.put 1 [0x02] (by decide)
    .ok (credit_ret.prepare_sendmsg credit_grant.addr)

/-! ## Decoding -/

/-- `extract_service_from_rlp_req`. The view it returns is read by every caller, and reading past
the buffer is undefined. -/
def extract_service_from_rlp_req (buf : Buffer) : Except Abort Bytes :=
  if buf.byte 1 ≠ 0x01 ∧ buf.byte 1 ≠ 0x02 then .error .invalidMessageType
  else if charToSize (buf.byte 0) < headerSize then .error .invalidMessageLength
  else if udpBufferLength < charToSize (buf.byte 0) then .error .undefined
  else .ok (Wire.window buf.data headerSize (charToSize (buf.byte 0) - headerSize))

/-- Where `dispatch_rlp_recv` sends a datagram: requests and returns go to the server part, grants
to the client part. -/
inductive Handler
  | protocol_server
  | credit_grant
  deriving DecidableEq, Repr

/-- `dispatch_rlp_recv`. A grant goes to `ingress_post_credit` on an ingress and to
`protocol_client` elsewhere. -/
def dispatch_rlp_recv (buf : Buffer) : Except Abort Handler :=
  if buf.filled < 3 then .error .payloadTooShort
  else if (buf.byte 0).toNat < headerSize ∨ buf.filled < (buf.byte 0).toNat then
    .error .invalidLengthByte
  else if buf.byte 1 = 0x02 then .ok .protocol_server
  else if buf.byte 1 = 0x01 ∧ buf.byte 2 = 0x00 then .ok .protocol_server
  else if buf.byte 1 = 0x01 ∧ buf.byte 2 = 0x01 then .ok .credit_grant
  else .error .unknownMessage

/-- What `protocol_server` reads out of a datagram, before it does anything with it. -/
inductive ServerMessage
  | credit_request (service : Bytes) (id : RPCID) (priority : Priority) (rtt : BitVec 32)
  | credit_return (service : Bytes)
  deriving DecidableEq, Repr

/-- The reading part of `protocol_server`, up to the RTT check. The branches are those of the
source, in its order, and each of its `LOG(FATAL)`s has its own error. -/
def read_server_message (req : Buffer) : Except Abort ServerMessage :=
  if req.byte 1 = 0x01 then
    if req.byte 2 ≠ 0x00 then .error .notACreditRequest
    -- a request for more than one credit is not implemented
    else if req.byte 3 ≠ 1 then .error .batching
    else do
      let service ← extract_service_from_rlp_req req
      let id := Wire.decode 64 (Wire.window req.data 5 8)
      let priority : Priority := (req.byte 13).toBitVec.signExtend 32
      let rtt := Wire.decode 32 (Wire.window req.data 22 4)
      -- zero is what is sent before the first grant has come
      if 0 ≤ rtt.toInt then .ok (.credit_request service id priority rtt)
      else .error .invalidRtt
  else if req.byte 1 = 0x02 then do
    let service ← extract_service_from_rlp_req req
    .ok (.credit_return service)
  else .error .unknownMessage

/-- What `credit_post_process` reads out of a Credit Grant. Most of it is an echo of the request
that asked for it; the queueing time and the number of granted credits are the server's. -/
structure GrantMessage where
  service : Bytes
  id : RPCID
  timestamp : BitVec 64
  queueing_time : BitVec 32
  requested : UInt8
  granted : UInt8
  deriving DecidableEq, Repr

/-- The reading part of `credit_post_process`: the service goes through
`extract_service_from_rlp_req`, and the other fields are at fixed places. -/
def read_credit_grant (buf : Buffer) : Except Abort GrantMessage := do
  let service ← extract_service_from_rlp_req buf
  .ok
    { service := service
      id := Wire.decode 64 (Wire.window buf.data 5 8)
      timestamp := Wire.decode 64 (Wire.window buf.data 14 8)
      queueing_time := Wire.decode 32 (Wire.window buf.data 22 4)
      requested := buf.byte 3
      granted := buf.byte 4 }

/-- A signed subtraction, as C++ makes it on `int64_t` and `int32_t`. One that overflows is
undefined, so it is an error here and not a wrapped value. -/
def subtract {w : ℕ} (x y : BitVec w) : Except Abort (BitVec w) :=
  match SignedInt.sub x y with
  | some z => .ok z
  | none => .error .undefined

/-- The RTT that `credit_post_process` computes of a grant: the time since the request, cut to 32
bits, less the time that the request has spent in the queue of the server. -/
def credit_rtt (m : GrantMessage) (now_us : BitVec 64) : Except Abort (BitVec 32) := do
  let elapsed ← subtract now_us m.timestamp
  let total : BitVec 32 := elapsed.setWidth 32
  let rtt ← subtract total m.queueing_time
  if 0 < rtt.toInt then .ok rtt else .error .invalidRtt

end RlpSidecar
