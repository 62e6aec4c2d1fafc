/-
The ingress queue of a worker (`ingress.cc`): the object, and the headers it puts on a request.

A worker of the ingress sidecar serves one service. The priority of its requests comes from the
configuration, which the constructor checks, and goes to the next sidecar as text in a header. Both
headers are written from arrays that are sent whole, so a value is followed by zero bytes, and both
names are one byte longer than their constants, which is the zero byte at the end.

What the queue holds are pointers to message objects, so the type is over the number of objects.
Dropping, sending and the choice of the request to ask for are in the module about the worker,
since they touch the registry too.
-/
import RlpSidecar.Messages

set_option autoImplicit false

namespace RlpSidecar

/-- `RoutingEntry`, without the address: the objective for the latency and the priority of a
service. -/
structure RoutingEntry where
  slo : Option ℤ
  priority : Option Priority
  deriving DecidableEq, Repr

/-- `Ingress`. The queue holds pointers to message objects, which are their indices. -/
structure Ingress (n : ℕ) where
  ingress_size_cap : ℕ
  queue : List (Fin n)
  has_credit_request_on_fly : Bool
  priority : Priority
  drop_id : BitVec 32
  drop_fd : ℤ
  last_rpc_id : RPCID
  ingress_service : Bytes

namespace Ingress

variable {n : ℕ}

/-- What the constructor sets before it looks at the configuration. The priority is not set. -/
def init (priority : Priority) (index_arg : ℤ) (ingress_service : Bytes) : Ingress n :=
  { ingress_size_cap := 10
    queue := []
    has_credit_request_on_fly := false
    priority := priority
    drop_id := 0
    -- no descriptor of a connection, and another one for each worker
    drop_fd := -index_arg
    -- the workers number their requests in ranges of their own
    last_rpc_id := BitVec.ofInt 64 index_arg <<< 48
    ingress_service := ingress_service }

/-- The constructor. `routing` is the entry of the service; only the ingress edge needs one. -/
def create (is_ingress : Bool) (routing : Option RoutingEntry) (priority : Priority) (index_arg : ℤ)
    (ingress_service : Bytes) : Except Abort (Ingress n) :=
  let ingress : Ingress n := init priority index_arg ingress_service
  if is_ingress then
    match routing with
    -- `config.routing.at(service)`
    | none => .error .outOfRange
    | some entry =>
      if entry.slo = none then .error .invalidConfig
      else
        match entry.priority with
        | none => .error .invalidConfig
        | some priority =>
          -- the check lets 3 through, for which there is no level
          if priority.toInt < 0 ∨ 3 < priority.toInt then .error .invalidConfig
          else .ok { ingress with priority := priority }
  else .ok ingress

/-- On the ingress edge it sets all fields to their first values, with the priority of the
configuration, which is not negative. -/
theorem create_eq_ok {routing : Option RoutingEntry} {priority : Priority} {index_arg : ℤ}
    {ingress_service : Bytes} {ingress : Ingress n}
    (h : create true routing priority index_arg ingress_service = .ok ingress) :
    ∃ configured : Priority, 0 ≤ configured.toInt
      ∧ ingress = init configured index_arg ingress_service := by
  unfold create at h
  dsimp only at h
  rw [if_pos rfl] at h
  split at h
  · cases h
  split_ifs at h
  split at h
  · cases h
  rename_i configured _
  split_ifs at h with hrange
  exact ⟨configured, by omega, (Except.ok.inj h).symm⟩

/-! ## Headers -/

/-- The text of a number in an array of 32 bytes, all of which are sent. -/
def header_value (z : ℤ) : Bytes :=
  (Decimal.ofInt z ++ List.replicate (32 - (Decimal.ofInt z).length) 0).take 32

/-- `add_rpc_id_header`. The id is incremented first, so the first request has the one after the
initial value. -/
def add_rpc_id_header (config : IdConfig) (local_id_counter : RPCID) (ingress : Ingress n)
    (rpc : HTTPMessage) : Except Abort (HTTPMessage × RPCID × Ingress n) := do
  let ingress := { ingress with last_rpc_id := ingress.last_rpc_id + 1 }
  let (rpc, local_id_counter) ← rpc.add_header_field config local_id_counter (RPC_ID ++ [0])
    (header_value ingress.last_rpc_id.toInt) true false
  .ok (rpc, local_id_counter, ingress)

/-- `add_priority_header`, with the priority of the service and not one that the client sent. -/
def add_priority_header (config : IdConfig) (local_id_counter : RPCID) (ingress : Ingress n)
    (rpc : HTTPMessage) : Except Abort (HTTPMessage × RPCID) :=
  rpc.add_header_field config local_id_counter (PRIORITY ++ [0])
    (header_value ingress.priority.toInt) true false

/-- A number of 64 bits has no more than 20 characters, and a sign. -/
theorem length_ofInt_le {z : ℤ} (hlow : -2 ^ 63 ≤ z) (hhigh : z ≤ 2 ^ 63 - 1) :
    (Decimal.ofInt z).length ≤ 21 := by
  have hdigits : (Decimal.digits z.natAbs z.natAbs).length ≤ 20 :=
    Decimal.length_digits_le (by omega) (by omega)
  unfold Decimal.ofInt Decimal.ofNat
  split_ifs
  · rw [List.length_cons]
    omega
  · omega

/-- It fits, with zeros after it: a 64-bit number has at most 20 characters. -/
theorem header_value_eq {z : ℤ} (hlow : -2 ^ 63 ≤ z) (hhigh : z ≤ 2 ^ 63 - 1) :
    header_value z = Decimal.ofInt z ++ List.replicate (32 - (Decimal.ofInt z).length) 0 := by
  have hlen := length_ofInt_le hlow hhigh
  unfold header_value
  rw [List.take_of_length_le]
  rw [List.length_append, List.length_replicate]
  omega

/-- It is read back: the zeros behind the digits end the number. -/
theorem stoll_header_value {z : ℤ} (hlow : -2 ^ 63 ≤ z) (hhigh : z ≤ 2 ^ 63 - 1) :
    stoll (header_value z) = .ok z := by
  -- what follows the number is a zero byte
  have hzero : ∀ c ∈ (List.replicate (32 - (Decimal.ofInt z).length) (0 : UInt8)).head?,
      Decimal.isDigit c = false := by
    intro c hc
    obtain rfl := List.eq_of_mem_replicate (List.mem_of_mem_head? hc)
    rfl
  unfold stoll
  rw [header_value_eq hlow hhigh, Decimal.stoll_ofInt hlow hhigh hzero]

theorem length_header_value (z : ℤ) : (header_value z).length ≤ 32 := by
  unfold header_value
  rw [List.length_take]
  exact Nat.min_le_left _ _

end Ingress

end RlpSidecar
