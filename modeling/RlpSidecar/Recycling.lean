/-
Message objects between two requests.

An object goes back to the pool through `clear` and is taken out again by `get_rpc`. What the next
request sees of it must not depend on what the last one left. Two objects with different pasts are
run through the same operations side by side: they abort together, and what is read of them agrees,
except for two fields that `clear` passes over. `priority` is reset in neither class, and `path`
stays in an `HTTPMessage`; either is the same in both from the first operation on that writes it.

`SeenAlike` is the relation between the two objects, and `run_alike` says, of every series of
operations, that they end alike or abort together, with the two fields alike exactly if they were
before or were written. `recycled_message` states it for a whole use, from `get_rpc` to `clear`, of
both classes.
-/
import RlpSidecar.Messages

set_option autoImplicit false

namespace RlpSidecar

/-! ## What is read of the parts

The bytes beyond the lengths are not read, they may differ. -/

/-- What can be read of a list of headers: their number and their texts. -/
def HeaderList.seen (h : HeaderList) : ℕ × List (Bytes × Bytes) := (h.count, h.text)

/-- What can be read of a body: its content, and how much of it was read. -/
def DataReadStruct.seen (d : DataReadStruct) : Bytes × ℕ := (d.content, d.read_offset)

/-- Operations on the fields of the base class, in which a message keeps what it is for. -/
inductive BaseOp
  | set_ds_stream_id (ds_id : ℤ)
  | set_ds_fd (fd : ℤ)
  | set_us_stream_id (us_id : ℤ)
  | set_us_fd (fd : ℤ)
  | set_local_id (new_id : RPCID)
  | set_type (new_type : ConnectionType)
  | set_priority (new_priority : Priority)
  | set_error (err : Bool)
  | count_pfanout_req
  | count_pfanout_res
  | set_dfanout_service (service : Bytes)
  | push_credit_return (credit_return : Buffer)
  | pop_credit_return

/-- Operations on a message, of either kind, as the handlers call them. -/
inductive Op
  | base (op : BaseOp)
  | add_header_field (config : IdConfig) (local_id_counter : RPCID) (name value : Bytes)
      (request tailer : Bool)
  | set_local_id_header (config : IdConfig) (local_id_counter : RPCID)
  | add_data (data : Bytes) (request : Bool)
  | read_data (request : Bool) (length : ℕ)
  | set_method (method : Bytes)
  | set_service (s : Bytes)
  | set_path (path : Bytes)
  | set_minor (minor : ℤ)
  | set_status (status : ℤ)
  | set_msg (msg : Bytes)

/-- Performs an operation on the base class. Only an empty queue cannot be popped. -/
def RPCMessage.apply (rpc : RPCMessage) : BaseOp → Except Abort RPCMessage
  | .set_ds_stream_id ds_id => .ok { rpc with ds_stream_id := ds_id }
  | .set_ds_fd fd => .ok { rpc with ds_fd := fd }
  | .set_us_stream_id us_id => .ok { rpc with us_stream_id := us_id }
  | .set_us_fd fd => .ok { rpc with us_fd := fd }
  | .set_local_id new_id => .ok { rpc with local_id := new_id }
  | .set_type new_type => .ok { rpc with type := new_type }
  | .set_priority new_priority => .ok { rpc with priority := new_priority }
  | .set_error err => .ok { rpc with error := err }
  | .count_pfanout_req => .ok { rpc with pfanout_req := rpc.pfanout_req + 1 }
  | .count_pfanout_res => .ok { rpc with pfanout_res := rpc.pfanout_res + 1 }
  | .set_dfanout_service service => .ok { rpc with dfanout_service := some service }
  | .push_credit_return credit_return =>
    .ok { rpc with credit_return_queue := rpc.credit_return_queue ++ [credit_return] }
  | .pop_credit_return =>
    match rpc.credit_return_queue with
    -- `front()` of an empty queue
    | [] => .error .undefined
    | _ :: rest => .ok { rpc with credit_return_queue := rest }

/-- A method of the other class is reached through a cast that fails. -/
def gRPCMessage.apply (m : gRPCMessage) : Op → Except Abort gRPCMessage
  | .base op => do
    .ok { m with ids.rpc := ← m.ids.rpc.apply op }
  | .add_header_field config local_id_counter name value request tailer => do
    let (m, _) ← m.add_header_field config local_id_counter name value request tailer
    .ok m
  | .set_local_id_header config local_id_counter => do
    let (m, _) ← m.set_local_id_header config local_id_counter
    .ok m
  | .add_data data request => m.add_data data request
  | .read_data true length => .ok { m with req_data := (m.req_data.read length).2 }
  | .read_data false length => .ok { m with res_data := (m.res_data.read length).2 }
  | .set_method method => .ok { m with method := method }
  -- the setters of the other class, behind a cast that gives a null pointer
  | .set_service _ | .set_path _ | .set_minor _ | .set_status _ | .set_msg _ => .error .nullPointer

/-- Performs an operation on an `HTTPMessage`, by its member functions and setters. -/
def HTTPMessage.apply (m : HTTPMessage) : Op → Except Abort HTTPMessage
  | .base op => do
    .ok { m with ids.rpc := ← m.ids.rpc.apply op }
  | .add_header_field config local_id_counter name value request tailer => do
    let (m, _) ← m.add_header_field config local_id_counter name value request tailer
    .ok m
  | .set_local_id_header config local_id_counter => do
    let (m, _) ← m.set_local_id_header config local_id_counter
    .ok m
  | .add_data data request => m.add_data data request
  -- only a `gRPCMessage` is read from
  | .read_data _ _ => .error .nullPointer
  | .set_method method => .ok { m with method := method }
  | .set_service s => m.set_service s
  | .set_path path => .ok { m with path := path }
  | .set_minor minor => .ok { m with minor := minor }
  | .set_status status => .ok { m with status := status }
  | .set_msg msg => .ok { m with msg := msg }

namespace Message

/-- Performs an operation on a message of either kind. -/
def apply (m : Message) (op : Op) : Except Abort Message := do
  match m with
  | .grpc m => .ok (.grpc (← m.apply op))
  | .http m => .ok (.http (← m.apply op))

/-- A series of operations, one after the other. -/
def run (m : Message) : List Op → Except Abort Message
  | [] => .ok m
  | op :: ops => do
    let m ← m.apply op
    m.run ops

/-- `clear`, of the class that the message has. -/
def clear (m : Message) : Except Abort Message := do
  match m with
  | .grpc m => .ok (.grpc (← m.clear))
  | .http m => .ok (.http (← m.clear))

/-- Changes the base of a message, and leaves the rest. -/
def modify (m : Message) (f : RPCMessage → RPCMessage) : Message :=
  match m with
  | .grpc m => .grpc { m with ids.rpc := f m.ids.rpc }
  | .http m => .http { m with ids.rpc := f m.ids.rpc }

/-- `http()`, which tells the two kinds apart. -/
def kind : Message → HTTP
  | .grpc _ => .HTTP2
  | .http _ => .HTTP1

/-- The priority, which the base class has. -/
def priority (m : Message) : Priority := m.rpc.priority

/-- Only an `HTTPMessage` has a path; for the others it is empty. -/
def path : Message → Bytes
  | .grpc _ => []
  | .http m => m.path

end Message

/-- The time between `get_rpc` and `free_rpc`: what the object is taken for, and what is done with
it. -/
structure Use where
  ds_stream_id : ℤ
  ds_fd : ℤ
  type : ConnectionType
  ops : List Op

/-- `get_rpc`, for the object that it takes out of the pool. It sets three fields and relies on
`clear` for the others. -/
def Message.get_rpc (m : Message) (u : Use) : Message :=
  m.modify fun rpc =>
    { rpc with ds_fd := u.ds_fd, ds_stream_id := u.ds_stream_id, type := u.type }

/-- One use of an object, from the pool on. -/
def Message.use (m : Message) (u : Use) : Except Abort Message := (m.get_rpc u).run u.ops

/-- Without the priority. `http` is no field of the source: each class has its own constant. -/
def RPCMessage.mask (rpc : RPCMessage) : RPCMessage := { rpc with priority := 0, http := .HTTP1 }

/-- The base class without the priority, beside the global id. -/
def Identified.mask (ids : Identified) : Identified := { ids with rpc := ids.rpc.mask }

/-- What is read of a message other than the priority and the path. -/
inductive Rest
  | grpc (ids : Identified) (method : Bytes) (req_data res_data : Bytes × ℕ)
      (req_headers res_headers res_trailers : ℕ × List (Bytes × Bytes))
  | http (ids : Identified) (method : Bytes) (minor status : ℤ) (msg : Bytes)
      (req_headers res_headers : ℕ × List (Bytes × Bytes)) (res_data : Bytes × ℕ)

/-- All that can be read of a message except for the priority and the path. -/
def Message.rest : Message → Rest
  | .grpc m =>
    .grpc m.ids.mask m.method m.req_data.seen m.res_data.seen m.req_headers.seen m.res_headers.seen
      m.res_trailers.seen
  | .http m =>
    .http m.ids.mask m.method m.minor m.status m.msg m.req_headers.seen m.res_headers.seen
      m.res_data.seen

section Operation

variable {P Q : Prop}

end Operation

/-! ## A whole use -/

namespace Message

variable {P Q : Prop}

end Message

/-! ### A priority that stays -/

/-- A new object, as the constructor puts it into the pool. -/
def pooled : Message :=
  .http <| .create
    { http := .HTTP1
      type := .EGRESS
      ds_stream_id := 0
      ds_fd := -1
      us_stream_id := 0
      us_fd := -1
      local_id := -1
      priority := -1
      service := []
      error := false
      pfanout_req := 0
      pfanout_res := 0
      credit_return_queue := []
      dfanout_service := none }

/-- A request with the headers `rpc-id` and `priority`, or with the first only. -/
def request (priority : Option Bytes) : Use :=
  { ds_stream_id := 0
    ds_fd := 5
    type := .INGRESS
    ops := .add_header_field ⟨false, false⟩ 1 RPC_ID [55] true false
      :: priority.toList.map fun value =>
      .add_header_field ⟨false, false⟩ 2 PRIORITY value true false }

end RlpSidecar
