/-
RPC message objects (`rpc_message.cc`).

The process creates all its message objects at the start and keeps them in a pool. A request
takes one, its headers fill in the identifiers, and the object goes back once the response is
written. The fields kept here are those that the mapping, the queues and the credit handling
read; headers, payloads and time stamps are not.

A local id has two halves, for an ingress RPC and for one of its egress RPCs;
`get_new_local_id_toNat` gives both as numbers, at any value of the counter. Which header writes
which identifier is `add_header_field`, with its two configurations.
-/
import RlpSidecar.Datagram

set_option autoImplicit false

namespace RlpSidecar

/-- `ConnectionType`: INGRESS for the calls that come to the service beside the sidecar, EGRESS for
those that it makes. -/
inductive ConnectionType
  | INGRESS
  | EGRESS
  deriving DecidableEq, Repr

/-- `HTTP`, the protocol of a connection and of the messages on it. -/
inductive HTTP
  | HTTP1
  | HTTP2
  deriving DecidableEq, Repr

/-- "*", the name under which the routing table has a pool for all services that it does not
name. -/
def ANY_SERVICE : Bytes := [42]

/-- `RPCMessage`. `http` tells its two subclasses apart. Descriptors and stream ids are plain
integers here: nothing computes with them. `dfanout_service` points to the service of an egress
RPC that waits for its credits, and is kept as that name. -/
structure RPCMessage where
  http : HTTP
  type : ConnectionType
  ds_stream_id : ℤ
  ds_fd : ℤ
  us_stream_id : ℤ
  us_fd : ℤ
  local_id : RPCID
  priority : Priority
  service : Bytes
  error : Bool
  pfanout_req : BitVec 8
  pfanout_res : BitVec 8
  credit_return_queue : List Buffer
  dfanout_service : Option Bytes

namespace RPCMessage

/-- `clear`, the same for both subclasses as far as these fields go. Type and priority stay. -/
def clear (rpc : RPCMessage) : Except Abort RPCMessage :=
  if rpc.credit_return_queue.length ≠ 0 then .error .creditReturnsLeft
  else
    .ok
      -- neither the type nor the priority is set back
      { rpc with
        ds_stream_id := -1
        ds_fd := -1
        us_stream_id := -1
        us_fd := -1
        error := false
        service := []
        local_id := -1
        pfanout_req := 0
        pfanout_res := 0
        dfanout_service := none }

end RPCMessage

/-! ## Local ids -/

/-- `get_new_local_id`: the next value of the counter in the lower half, the parent in the upper
one. Returns the id and the counter. -/
def get_new_local_id (local_id_counter parent : RPCID) : RPCID × RPCID :=
  let local_id_counter := local_id_counter + 1
  let branch : BitVec 32 := local_id_counter.setWidth 32
  let packed : BitVec 64 := (((parent.setWidth 32).setWidth 64) <<< 32) ||| branch.setWidth 64
  (packed, local_id_counter)

/-- **The two halves of an id**, at any value of the counter. -/
theorem get_new_local_id_toNat (local_id_counter parent : RPCID) :
    (get_new_local_id local_id_counter parent).1.toNat
      = parent.toNat % 2 ^ 32 * 2 ^ 32 + (local_id_counter.toNat + 1) % 2 ^ 32 := by
  have hcounter : (local_id_counter + 1 : BitVec 64).toNat
      = (local_id_counter.toNat + 1) % 2 ^ 64 := by
    rw [BitVec.toNat_add]; rfl
  unfold get_new_local_id
  simp only
  -- the halves do not overlap, so the disjunction is a sum
  have hand : (((parent.setWidth 32).setWidth 64 <<< 32 : BitVec 64)
      &&& ((local_id_counter + 1 : BitVec 64).setWidth 32).setWidth 64) = 0#64 := by
    ext i hi
    simp only [BitVec.getElem_and, BitVec.getElem_shiftLeft, BitVec.getElem_setWidth,
      BitVec.getLsbD_setWidth, BitVec.getElem_zero]
    by_cases hlt : i < 32
    · simp [hlt]
    · simp [hlt]
  rw [← BitVec.add_eq_or_of_and_eq_zero _ _ hand, BitVec.toNat_add, BitVec.toNat_shiftLeft,
    BitVec.toNat_setWidth, BitVec.toNat_setWidth, BitVec.toNat_setWidth, BitVec.toNat_setWidth,
    hcounter, Nat.shiftLeft_eq]
  omega

/-- The counter goes up by one for every identifier, whatever its parent is. -/
theorem get_new_local_id_snd (local_id_counter parent : RPCID) :
    (get_new_local_id local_id_counter parent).2 = local_id_counter + 1 := rfl

/-- The request headers that fields are taken from. Values are as `stoll` reads them. -/
inductive Header
  | path (service : Bytes)
  | rpc_id
  | rpc_local_id (id_from_str : RPCID)
  | priority (value : Priority)
  deriving DecidableEq, Repr

/-- The flags of the configuration that identifiers depend on: whether the sidecar is the edge, and
whether it is a frontend whose clients send no identifiers. -/
structure IdConfig where
  is_ingress : Bool
  is_plain_frontend : Bool
  deriving DecidableEq, Repr

namespace RPCMessage

/-- `add_header_field` for a request header. Only an EGRESS request takes an id from
`rpc-local-id`, only an INGRESS one (or any, on an ingress worker) from `rpc-id`. -/
def add_header_field (config : IdConfig) (local_id_counter : RPCID) (rpc : RPCMessage) :
    Header → Except Abort (RPCMessage × RPCID)
  | .path service => .ok ({ rpc with service := service }, local_id_counter)
  | .rpc_id =>
    -- a request that enters the mesh, or one for the own application
    if config.is_ingress ∨ rpc.type = .INGRESS then
      let (id, local_id_counter) := get_new_local_id local_id_counter 0
      .ok ({ rpc with local_id := id }, local_id_counter)
    else .ok (rpc, local_id_counter)
  | .rpc_local_id id_from_str =>
    match rpc.type with
    | .INGRESS =>
      -- in an ingress request the header is only checked
      if id_from_str = -1 then .error .invalidLocalId else .ok (rpc, local_id_counter)
    | .EGRESS =>
      -- the application answers with the lower half of the id that it was given
      if id_from_str.toInt ≤ 0 ∨ id_from_str.toInt > 2 ^ 32 - 1 then .error .invalidLocalId
      else
        let (id, local_id_counter) := get_new_local_id local_id_counter id_from_str
        .ok ({ rpc with local_id := id }, local_id_counter)
  | .priority value => .ok ({ rpc with priority := value }, local_id_counter)

/-- Header fields do not touch what a message is stored under, except for its local id. -/
theorem add_header_field_keys {config : IdConfig} {counter counter' : RPCID} {rpc rpc' : RPCMessage}
    {h : Header} (hok : rpc.add_header_field config counter h = .ok (rpc', counter')) :
    rpc'.http = rpc.http ∧ rpc'.type = rpc.type ∧ rpc'.ds_stream_id = rpc.ds_stream_id
      ∧ rpc'.ds_fd = rpc.ds_fd ∧ rpc'.error = rpc.error := by
  unfold add_header_field at hok
  split at hok
  · obtain ⟨rfl, rfl⟩ := Prod.mk.inj (Except.ok.inj hok); exact ⟨rfl, rfl, rfl, rfl, rfl⟩
  · split_ifs at hok <;>
      (obtain ⟨rfl, rfl⟩ := Prod.mk.inj (Except.ok.inj hok); exact ⟨rfl, rfl, rfl, rfl, rfl⟩)
  · split at hok
    all_goals
      split_ifs at hok
      obtain ⟨rfl, rfl⟩ := Prod.mk.inj (Except.ok.inj hok); exact ⟨rfl, rfl, rfl, rfl, rfl⟩
  · obtain ⟨rfl, rfl⟩ := Prod.mk.inj (Except.ok.inj hok); exact ⟨rfl, rfl, rfl, rfl, rfl⟩

end RPCMessage

end RlpSidecar
