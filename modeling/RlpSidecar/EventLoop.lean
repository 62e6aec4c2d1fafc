/-
The event loop and the kernel below it (`event_loop.cc`, with `ring_wrapper.cc`, `listener.cc` and
the `UserData` part of `buffer_manager.cc`).

`run` takes one completion after another and handles it. Every operation is submitted with a
`UserData` object, which comes back with its completion. Between a submission and its completion
the kernel carries the operation out; where something else can observe when it does (a descriptor
is taken or given back, bytes go to the peer), that is a step of its own, and its result waits in
`results` until `run` gets to it. So accepts, closes and sends may be carried out in any order, and
be seen in any other one. An operation names a descriptor, not a connection: a send looks its
descriptor up when it starts, and writes to whatever socket the number stands for by then.

What a handler calls in `State` is not repeated here. All it does to the ring is to hand over
buffers, to connections or datagrams, and the handler is given the list of them.

A connection object is a number, a pointer to it is that number, and `heap` is what the objects
hold. An object is destroyed, and its descriptor closed, when the last pointer to it goes; pointers
are in the listeners, in the pools (which keep theirs) and in the `UserData` objects.
-/
import RlpSidecar.RpcMessage
import RlpSidecar.Runs
import RlpSidecar.Tables
import Mathlib.Data.Fintype.Basic

set_option autoImplicit false

open Tables

namespace RlpSidecar

/-- `ConnectionDirection`: UPSTREAM for a connection that a pool has made to a server, DOWNSTREAM
for one that was accepted from a client. -/
inductive ConnectionDirection
  | UPSTREAM
  | DOWNSTREAM
  deriving DecidableEq, Repr

/-- `ConnectionStatus`. A connection to a server starts DOWN and is UP once it is established;
TEARDOWN is set when its end or a parse failure is seen, and nothing sets it back. -/
inductive ConnectionStatus
  | UP
  | DOWN
  | TEARDOWN
  deriving DecidableEq, Repr

/-- `Operation`, the tag by which `run` tells completions apart. CLEAR is the tag of a `UserData`
that is in the queue of the free ones. -/
inductive Operation
  | ACCEPT
  | READ
  | WRITE
  | CONNECT
  | CANCEL
  | RCVMSG
  | SENDMSG
  | CLEAR
  deriving DecidableEq, Repr

/-- `HTTPConnection`, without what it reads and writes: the fields that the event loop itself looks
at. -/
structure Connection where
  fd : ℤ
  type : ConnectionType
  direction : ConnectionDirection
  http : HTTP
  status : ConnectionStatus
  deriving DecidableEq, Repr

/-- `UserData`, what a submission carries to its completion. A listener is named by its type, since
there is one of each, and a connection by the number of its object. -/
structure UserData where
  op : Operation
  buffer : Option Bytes
  listener : Option ConnectionType
  conn : Option ℕ
  deriving DecidableEq, Repr

/-- `EventLoop`, with `count` objects of `UserData`, and the kernel's part: the operations that are
submitted and not completed, the results of those that have been carried out, the descriptors that
are open, the connections that have had theirs closed, and the sockets.

The kernel has made `sockets` sockets so far; `file` is the one that a descriptor stands for,
`target` the one that a send which has started writes to, and `peer` what has gone out on each. Two
fields are kept for the record, and no step looks at them: `handed`, the buffers that were
submitted for a connection, and `socket`, the socket that its descriptor stood for when the object
was made. -/
structure EventLoop (count : ℕ) where
  heap : ℕ → Connection
  allocated : ℕ
  connections : ConnectionType → UMap ℤ ℕ
  user_data : Fin count → UserData
  user_data_queue : List (Fin count)
  ring : List (Fin count)
  results : Fin count → Option ℤ
  is_open : ℤ → Bool
  closed : ℕ → Bool
  sockets : ℕ
  file : ℤ → ℕ
  target : Fin count → Option ℕ
  peer : ℕ → Bytes
  socket : ℕ → ℕ
  handed : ℕ → List Bytes

namespace EventLoop

variable {count : ℕ}

/-! ## Objects -/

/-- The pointers to a connection object, which `std::shared_ptr` counts: the pool for an upstream
connection, the entries of the two listeners, and the submissions that carry it. -/
def references (s : EventLoop count) (o : ℕ) : ℕ :=
  let listed (type : ConnectionType) : ℕ :=
    (s.connections type).entries.countP fun x => decide (x.2 = o)
  (if (s.heap o).direction = .UPSTREAM then 1 else 0) + listed .INGRESS + listed .EGRESS
    + (List.finRange count).countP fun ud => decide ((s.user_data ud).conn = some o)

/-- A pointer goes. If it was the last one, `~HTTPConnection` runs, and it closes the descriptor
number that the object has, whoever uses that number by then. -/
def release (s : EventLoop count) : Option ℕ → EventLoop count
  | none => s
  | some o =>
    if s.references o = 0 then
      { s with is_open := Function.update s.is_open (s.heap o).fd false }
    else s

/-- `set_status` of a connection object. -/
def set_status (s : EventLoop count) (o : ℕ) (status : ConnectionStatus) : EventLoop count :=
  { s with heap := Function.update s.heap o { s.heap o with status := status } }

/-- `Listener::add_connection`. Whether the insertion took place is not looked at: if it did not,
the new object is destroyed at once, and the object that is in its place is returned. -/
def add_connection (s : EventLoop count) (type : ConnectionType) (new_fd : ℤ) (http : HTTP) :
    ℕ × EventLoop count :=
  match (s.connections type).lookup new_fd with
  -- `emplace` keeps the entry, and the new object is destroyed with its descriptor
  | some old => (old, { s with is_open := Function.update s.is_open new_fd false })
  | none =>
    (s.allocated,
      { s with
        heap := Function.update s.heap s.allocated ⟨new_fd, type, .DOWNSTREAM, http, .UP⟩
        allocated := s.allocated + 1
        socket := Function.update s.socket s.allocated (s.file new_fd)
        connections := Function.update s.connections type
          ((s.connections type).insert new_fd s.allocated) })

/-- `Listener::remove_connection`: the entry of the descriptor goes, if there is one. The object is
not looked at. -/
def remove_connection (s : EventLoop count) (type : ConnectionType) (target_fd : ℤ) :
    EventLoop count :=
  { s with
    connections := Function.update s.connections type ((s.connections type).erase target_fd) }

/-! ## Submissions -/

/-- `get_user_data`, filled in and submitted, as all the `prepare_` functions of `RingWrapper` do
it. Without a free object the process ends, and what an earlier submission left in the object is
gone. -/
def prepare (s : EventLoop count) (data : UserData) : Except Abort (EventLoop count) :=
  match s.user_data_queue with
  | [] => .error .noUserData
  | ud :: rest =>
    .ok
      { s with
        user_data_queue := rest
        user_data := Function.update s.user_data ud data
        ring := s.ring ++ [ud]
        -- what an earlier operation with this object has left is no result of this one
        results := Function.update s.results ud none
        target := Function.update s.target ud none }

/-- `RingWrapper::prepare_accept`: one accept for a listener, which the handler of the completion
submits again. -/
def prepare_accept (s : EventLoop count) (listener : ConnectionType) :
    Except Abort (EventLoop count) := s.prepare ⟨.ACCEPT, none, some listener, none⟩

/-- `RingWrapper::prepare_read`: a multishot receive, so the submission stays in the ring over any
number of completions. -/
def prepare_read (s : EventLoop count) (listener : ConnectionType) (conn : ℕ) :
    Except Abort (EventLoop count) := s.prepare ⟨.READ, none, some listener, some conn⟩

/-- `RingWrapper::prepare_connect`, for a connection of a pool, which has no listener. -/
def prepare_connect (s : EventLoop count) (conn : ℕ) : Except Abort (EventLoop count) :=
  s.prepare ⟨.CONNECT, none, none, some conn⟩

/-- `RingWrapper::prepare_write`: a send of one buffer. The record `handed`, which the program does
not have, says what was handed over for which object. -/
def prepare_write (s : EventLoop count) (conn : ℕ) (buffer : Bytes) :
    Except Abort (EventLoop count) := do
  let s ← s.prepare ⟨.WRITE, some buffer, none, some conn⟩
  .ok { s with handed := Function.update s.handed conn (s.handed conn ++ [buffer]) }

/-- `RingWrapper::prepare_cancel`. What is submitted is a close of the descriptor of the
connection, and the receive on it is not cancelled by name. -/
def prepare_cancel (s : EventLoop count) (conn : ℕ) : Except Abort (EventLoop count) :=
  s.prepare ⟨.CANCEL, none, none, some conn⟩

/-- `RingWrapper::prepare_rcvmsg`: the multishot receive on the UDP socket, submitted once at the
start. -/
def prepare_rcvmsg (s : EventLoop count) : Except Abort (EventLoop count) :=
  s.prepare ⟨.RCVMSG, none, none, none⟩

/-- `RingWrapper::prepare_sendmsg`: one datagram on the UDP socket. -/
def prepare_sendmsg (s : EventLoop count) (buffer : Bytes) : Except Abort (EventLoop count) :=
  s.prepare ⟨.SENDMSG, some buffer, none, none⟩

/-- `free_user_data`, after `clear`. The buffer has to be gone by then, and the pointer to the
connection goes with the object. -/
def free_user_data (s : EventLoop count) (ud : Fin count) : Except Abort (EventLoop count) :=
  match (s.user_data ud).buffer with
  -- a buffer must have been given back before
  | some _ => .error .userDataBuffer
  | none =>
    let conn := (s.user_data ud).conn
    let s :=
      { s with
        user_data := Function.update s.user_data ud ⟨.CLEAR, none, none, none⟩
        user_data_queue := s.user_data_queue ++ [ud] }
    -- the pointer to the connection is reset, and may have been the last one
    .ok (s.release conn)

/-- What a handler hands over to the ring through `State`: the sends of `write_http`, and the
datagrams of the credit protocol. What `State` computes to get there is the subject of other
modules. -/
inductive Request
  | write (conn : ℕ) (buffer : Bytes)
  | sendmsg (buffer : Bytes)
  deriving DecidableEq, Repr

/-- One request is submitted, by the function that `State` calls for it. -/
def request (s : EventLoop count) : Request → Except Abort (EventLoop count)
  | .write conn buffer => s.prepare_write conn buffer
  | .sendmsg buffer => s.prepare_sendmsg buffer

/-- The requests of a handler, in the order in which `State` makes them; the first failure ends the
process. -/
def requests (s : EventLoop count) (rs : List Request) : Except Abort (EventLoop count) :=
  rs.foldlM request s

/-! ## Handlers -/

/-- What the loop reads of the configuration: the two flags by which it chooses the protocol of an
accepted connection. -/
structure Config where
  is_frontend : Bool
  is_ingress : Bool
  deriving DecidableEq, Repr

/-- What a handler gets from the rest of the program: whether `http_read` throws, whether it brings
the connection up, what is handed over, and whether `rpc_mapper` still has RPCs of a connection. -/
structure Env where
  parse_fails : Bool
  comes_up : Bool
  requests : List Request
  fd_exists : Bool
  deriving DecidableEq, Repr

/-- What an accepted connection speaks: HTTP/1 on the side where the clients or the plain frontend
are, and HTTP/2 between sidecars. -/
def Config.http_type (config : Config) (listener : ConnectionType) : HTTP :=
  if config.is_frontend ∧ listener = .INGRESS then .HTTP1
  else if config.is_ingress then .HTTP1
  else .HTTP2

/-- `Operation::ACCEPT`: the connection is entered in the listener, its first read and the next
accept are submitted, and then the object of the old accept is freed. -/
def handle_accept (config : Config) (ud : Fin count) (res : ℤ) (s : EventLoop count) :
    Except Abort (EventLoop count) :=
  if res < 0 then .error .operationFailed
  else
    match (s.user_data ud).listener with
    | none => .error .undefined
    | some listener => do
      let (conn, s) := s.add_connection listener res (config.http_type listener)
      -- two objects are taken here before the one of this completion is given back
      let s ← s.prepare_read listener conn
      let s ← s.prepare_accept listener
      s.free_user_data ud

/-- What `http_read` does to the status of a connection: the SETTINGS frame of HTTP/2 brings it UP,
if it was DOWN. -/
def bring_up (s : EventLoop count) (conn : ℕ) (env : Env) : EventLoop count :=
  if env.comes_up ∧ (s.heap conn).status = .DOWN then s.set_status conn .UP else s

/-- `Operation::READ`. On both paths that end the connection `ud` stays as it is. -/
def handle_read (ud : Fin count) (res : ℤ) (env : Env) (s : EventLoop count) :
    Except Abort (EventLoop count) :=
  match (s.user_data ud).conn with
  | none => .error .nullPointer
  | some conn =>
    if res < 0 then .error .operationFailed
    -- the end of the stream: `ud` is not given back on this path
    else if res = 0 then (s.set_status conn .TEARDOWN).prepare_cancel conn
    -- nor on this one, where the parser has thrown
    else if env.parse_fails then (s.set_status conn .TEARDOWN).prepare_cancel conn
    else (s.bring_up conn env).requests env.requests

/-- `std::move(ud->conn)`: the pointer leaves the `UserData`, so freeing the object does not drop
it. -/
def take_conn (s : EventLoop count) (ud : Fin count) : EventLoop count :=
  { s with user_data := Function.update s.user_data ud { s.user_data ud with conn := none } }

/-- `ud->get_buffer()`, whose buffer is freed at once. It moves the buffer out, and
`free_user_data` checks that it is gone. -/
def take_buffer (s : EventLoop count) (ud : Fin count) : EventLoop count :=
  { s with user_data := Function.update s.user_data ud { s.user_data ud with buffer := none } }

/-- A new HTTP/1 connection is up; on an HTTP/2 connection the first frames are written. -/
def connected (s : EventLoop count) (conn : ℕ) (env : Env) : Except Abort (EventLoop count) :=
  match (s.heap conn).http with
  | .HTTP1 => .ok (s.set_status conn .UP)
  | .HTTP2 => s.requests env.requests

/-- `Operation::CONNECT`: HTTP/1 is UP now, HTTP/2 sends its settings and waits, and the first read
is armed for both. -/
def handle_connect (ud : Fin count) (res : ℤ) (env : Env) (s : EventLoop count) :
    Except Abort (EventLoop count) :=
  if res < 0 then .error .operationFailed
  else
    match (s.user_data ud).conn with
    | none => .error .nullPointer
    | some conn => do
      let s ← (s.take_conn ud).connected conn env
      -- the read takes an object of its own, and then that of the connect is given back
      let s ← s.prepare_read (s.heap conn).type conn
      s.free_user_data ud

/-- `Operation::WRITE`. The result is not compared with the length of the buffer, so the rest after
a short send is lost. -/
def handle_write (ud : Fin count) (res : ℤ) (s : EventLoop count) :
    Except Abort (EventLoop count) :=
  if res < 0 then .error .operationFailed
  else
    match (s.user_data ud).buffer with
    | none => .error .userDataBuffer
    | some _ => (s.take_buffer ud).free_user_data ud

/-- `Operation::CANCEL`, the completion of a close. A connection to a server cannot go away, and
one of a client must have no RPC left; its entry is removed by descriptor number. -/
def handle_cancel (ud : Fin count) (env : Env) (s : EventLoop count) :
    Except Abort (EventLoop count) :=
  match (s.user_data ud).conn with
  | none => .error .nullPointer
  | some conn =>
    let s := s.take_conn ud
    match (s.heap conn).direction with
    | .UPSTREAM => .error .upstreamRemoved
    | .DOWNSTREAM =>
      if env.fd_exists then .error .mapperNotEmpty
      else
        let s := s.remove_connection (s.heap conn).type (s.heap conn).fd
        -- `conn.reset()`, the last pointer of this handler
        (s.release (some conn)).free_user_data ud

/-- `Operation::RCVMSG`: what the datagram makes `State` submit. The receive goes on, so nothing is
freed. -/
def handle_rcvmsg (res : ℤ) (env : Env) (s : EventLoop count) : Except Abort (EventLoop count) :=
  if res ≤ 0 then .error .operationFailed else s.requests env.requests

/-- `Operation::SENDMSG`: the buffer and the object of the datagram are given back. -/
def handle_sendmsg (ud : Fin count) (res : ℤ) (s : EventLoop count) :
    Except Abort (EventLoop count) :=
  match (s.user_data ud).buffer with
  | none => .error .userDataBuffer
  | some _ =>
    if res ≤ 0 then .error .operationFailed
    else (s.take_buffer ud).free_user_data ud

/-- The body of the loop in `run`, for one completion: a `switch` over the tag of its `UserData`. A
tag of CLEAR means that the object was freed before its last completion, and ends the process. -/
def handle (config : Config) (ud : Fin count) (res : ℤ) (env : Env) (s : EventLoop count) :
    Except Abort (EventLoop count) :=
  match (s.user_data ud).op with
  -- an object that was given back has no operation
  | .CLEAR => .error .userDataClear
  | .ACCEPT => s.handle_accept config ud res
  | .READ => s.handle_read ud res env
  | .CONNECT => s.handle_connect ud res env
  | .WRITE => s.handle_write ud res
  | .CANCEL => s.handle_cancel ud env
  | .RCVMSG => s.handle_rcvmsg res env
  | .SENDMSG => s.handle_sendmsg ud res

/-! ### What a handler that returns has done -/

section Inversion

variable {config : Config} {s s' : EventLoop count} {ud : Fin count} {res : ℤ} {env : Env}

/-- What is left after a submission: the first free object is out of the queue, holds the data, and
is in the ring. -/
theorem prepare_eq_ok {data : UserData} (h : s.prepare data = .ok s') :
    ∃ new rest, s.user_data_queue = new :: rest
      ∧ s' = { s with
          user_data_queue := rest
          user_data := Function.update s.user_data new data
          ring := s.ring ++ [new]
          results := Function.update s.results new none
          target := Function.update s.target new none } := by
  unfold prepare at h
  split at h
  · cases h
  rename_i new rest hqueue
  exact ⟨new, rest, hqueue, (Except.ok.inj h).symm⟩

/-- What is left after an object was freed: it is cleared, last in the queue, and its pointer to a
connection is gone. -/
theorem free_eq_ok (h : s.free_user_data ud = .ok s') :
    s' = release
      { s with
        user_data := Function.update s.user_data ud ⟨.CLEAR, none, none, none⟩
        user_data_queue := s.user_data_queue ++ [ud] } (s.user_data ud).conn := by
  unfold free_user_data at h
  split at h
  · cases h
  exact (Except.ok.inj h).symm

/-- An ACCEPT that is handled, cut into its steps. The `_eq_ok` lemmas of the handlers are what the
invariants of this development use instead of unfolding a handler. -/
theorem handle_accept_eq_ok (h : s.handle_accept config ud res = .ok s') :
    ∃ listener t u, 0 ≤ res ∧ (s.user_data ud).listener = some listener
      ∧ (s.add_connection listener res (config.http_type listener)).2.prepare_read listener
          (s.add_connection listener res (config.http_type listener)).1 = .ok t
      ∧ t.prepare_accept listener = .ok u ∧ u.free_user_data ud = .ok s' := by
  unfold handle_accept at h
  split_ifs at h with hres
  split at h
  · cases h
  rename_i listener hlistener
  dsimp only at h
  obtain ⟨t, ht, h⟩ := bind_eq_ok.mp h
  obtain ⟨u, hu, h⟩ := bind_eq_ok.mp h
  exact ⟨listener, t, u, not_lt.mp hres, hlistener, ht, hu, h⟩

/-- A READ that is handled: it ends the connection and keeps its object, or it hands over what
`State` makes of the data. -/
theorem handle_read_eq_ok (h : s.handle_read ud res env = .ok s') :
    ∃ conn, (s.user_data ud).conn = some conn ∧ 0 ≤ res
      ∧ ((res = 0 ∨ env.parse_fails = true)
            ∧ (s.set_status conn .TEARDOWN).prepare_cancel conn = .ok s'
          ∨ res ≠ 0 ∧ env.parse_fails ≠ true
            ∧ (s.bring_up conn env).requests env.requests = .ok s') := by
  unfold handle_read at h
  split at h
  · cases h
  rename_i conn hconn
  split_ifs at h with hneg hzero hparse
  · exact ⟨conn, hconn, not_lt.mp hneg, .inl ⟨.inl hzero, h⟩⟩
  · exact ⟨conn, hconn, not_lt.mp hneg, .inl ⟨.inr hparse, h⟩⟩
  · exact ⟨conn, hconn, not_lt.mp hneg, .inr ⟨hzero, hparse, h⟩⟩

/-- A CONNECT that is handled: the status changes or the settings are written, the first read is
armed, and the object is freed. -/
theorem handle_connect_eq_ok (h : s.handle_connect ud res env = .ok s') :
    ∃ conn t u, (s.user_data ud).conn = some conn
      ∧ (t = (s.take_conn ud).set_status conn .UP
          ∨ (s.take_conn ud).requests env.requests = .ok t)
      ∧ t.prepare_read (t.heap conn).type conn = .ok u ∧ u.free_user_data ud = .ok s' := by
  unfold handle_connect at h
  split_ifs at h
  split at h
  · cases h
  rename_i conn hconn
  obtain ⟨t, ht, h⟩ := bind_eq_ok.mp h
  obtain ⟨u, hu, h⟩ := bind_eq_ok.mp h
  refine ⟨conn, t, u, hconn, ?_, hu, h⟩
  unfold connected at ht
  split at ht
  · exact .inl (Except.ok.inj ht).symm
  · exact .inr ht

/-- A WRITE that is handled gives back its buffer and its object, and nothing else happens. -/
theorem handle_write_eq_ok (h : s.handle_write ud res = .ok s') :
    0 ≤ res ∧ (s.take_buffer ud).free_user_data ud = .ok s' := by
  unfold handle_write at h
  split_ifs at h with hres
  split at h
  · cases h
  exact ⟨not_lt.mp hres, h⟩

/-- A CANCEL that is handled was one of a client, whose entry goes with it. -/
theorem handle_cancel_eq_ok (h : s.handle_cancel ud env = .ok s') :
    ∃ conn, (s.user_data ud).conn = some conn ∧ (s.heap conn).direction = .DOWNSTREAM
      ∧ (((s.take_conn ud).remove_connection (s.heap conn).type (s.heap conn).fd).release
          (some conn)).free_user_data ud = .ok s' := by
  unfold handle_cancel at h
  split at h
  · cases h
  rename_i conn hconn
  dsimp only at h
  split at h
  · cases h
  rename_i hdirection
  split_ifs at h
  exact ⟨conn, hconn, hdirection, h⟩

/-- An RCVMSG that is handled keeps its object. -/
theorem handle_rcvmsg_eq_ok (h : s.handle_rcvmsg res env = .ok s') :
    0 < res ∧ s.requests env.requests = .ok s' := by
  unfold handle_rcvmsg at h
  split_ifs at h with hres
  exact ⟨not_le.mp hres, h⟩

/-- A SENDMSG that is handled gives back its buffer and its object. -/
theorem handle_sendmsg_eq_ok (h : s.handle_sendmsg ud res = .ok s') :
    (s.take_buffer ud).free_user_data ud = .ok s' := by
  unfold handle_sendmsg at h
  split at h
  · cases h
  split_ifs at h
  exact h

end Inversion

/-! ## Steps -/

/-- A step of the kernel, or of the loop. The kernel carries operations out one at a time and in
any order, and the loop sees their completions in any order; closing a descriptor and its
completion are two steps. -/
inductive Event (count : ℕ)
  /-- A connection is accepted and gets a descriptor. -/
  | accepts (ud : Fin count) (fd : ℤ)
  /-- A send starts: its descriptor is looked up. -/
  | starts (ud : Fin count)
  /-- A send takes the first `n` bytes of its buffer. -/
  | sends (ud : Fin count) (n : ℕ)
  /-- A descriptor is closed. -/
  | closes (ud : Fin count)
  /-- An accept or a send fails. -/
  | fails (ud : Fin count) (res : ℤ)
  /-- `run` handles a completion. -/
  | cqe (ud : Fin count) (res : ℤ) (env : Env)

/-- The operations that the kernel carries out in a step of their own. -/
def Operation.observed : Operation → Bool
  | .ACCEPT | .WRITE | .CANCEL => true
  | _ => false

/-- An operation that is submitted and has not been carried out: it is in the ring, and it has no
result yet. -/
def Pending (s : EventLoop count) (ud : Fin count) (op : Operation) : Prop :=
  ud ∈ s.ring ∧ (s.user_data ud).op = op ∧ s.results ud = none

/-- `run` takes a completion. A multishot operation stays submitted until it has failed, or until
its stream has ended. -/
def complete (s : EventLoop count) (ud : Fin count) (res : ℤ) : EventLoop count :=
  if 0 < res ∧ ((s.user_data ud).op = .READ ∨ (s.user_data ud).op = .RCVMSG) then s
  else { s with ring := s.ring.erase ud }

/-- The operation of `ud` does not go on: it leaves the ring. The object itself stays with whoever
handles the completion. -/
def take (s : EventLoop count) (ud : Fin count) : EventLoop count :=
  { s with ring := s.ring.erase ud }

/-- What the handling of a completion comes to: which handler runs, and whether the operation goes
on. -/
inductive Handled (config : Config) (s : EventLoop count) (ud : Fin count) (res : ℤ) (env : Env)
    (s' : EventLoop count) : Prop
  | accept (hop : (s.user_data ud).op = .ACCEPT)
      (h : (s.take ud).handle_accept config ud res = .ok s')
  | end_of_stream (hop : (s.user_data ud).op = .READ) (hres : res = 0)
      (h : (s.take ud).handle_read ud res env = .ok s')
  | read (hop : (s.user_data ud).op = .READ) (hres : 0 < res)
      (h : s.handle_read ud res env = .ok s')
  | connect (hop : (s.user_data ud).op = .CONNECT)
      (h : (s.take ud).handle_connect ud res env = .ok s')
  | write (hop : (s.user_data ud).op = .WRITE) (hres : 0 ≤ res)
      (h : ((s.take ud).take_buffer ud).free_user_data ud = .ok s')
  | cancel (hop : (s.user_data ud).op = .CANCEL)
      (h : (s.take ud).handle_cancel ud env = .ok s')
  | rcvmsg (hop : (s.user_data ud).op = .RCVMSG) (h : s.requests env.requests = .ok s')
  | sendmsg (hop : (s.user_data ud).op = .SENDMSG)
      (h : ((s.take ud).take_buffer ud).free_user_data ud = .ok s')

section Completion

variable {config : Config} {s s' : EventLoop count} {ud : Fin count} {res : ℤ} {env : Env}

/-- A completion does not touch what its `UserData` holds. -/
@[simp] theorem complete_user_data (s : EventLoop count) (ud : Fin count) (res : ℤ) :
    (s.complete ud res).user_data = s.user_data := by
  unfold complete
  split_ifs <;> rfl

/-- A receive with data goes on, so its submission stays in the ring. This is the case that
multishot adds. -/
theorem complete_goes_on (hres : 0 < res)
    (hop : (s.user_data ud).op = .READ ∨ (s.user_data ud).op = .RCVMSG) :
    s.complete ud res = s := by
  unfold complete
  rw [if_pos ⟨hres, hop⟩]

/-- Every other completion is the last one of its submission. -/
theorem complete_ends
    (h : ¬ (0 < res ∧ ((s.user_data ud).op = .READ ∨ (s.user_data ud).op = .RCVMSG))) :
    s.complete ud res = s.take ud := by
  unfold complete
  rw [if_neg h]
  rfl

/-- The relation `Handled` says all that a handled completion can have done, so an invariant is
shown once for each of its cases. -/
theorem handled (h : (s.complete ud res).handle config ud res env = .ok s') :
    Handled config s ud res env s' := by
  unfold handle at h
  rw [complete_user_data] at h
  cases hop : (s.user_data ud).op with
  | CLEAR =>
      rw [hop] at h
      cases h
  | ACCEPT =>
      rw [hop, complete_ends (by rw [hop]; simp)] at h
      exact .accept hop h
  | READ =>
      rw [hop] at h
      obtain ⟨_, _, hnonneg, _⟩ := handle_read_eq_ok h
      -- a `READ` that ends is the only one whose object the kernel is done with
      by_cases hzero : res = 0
      · rw [complete_ends fun hno => absurd hno.1 (by omega)] at h
        exact .end_of_stream hop hzero h
      · rw [complete_goes_on (by omega) (.inl hop)] at h
        exact .read hop (by omega) h
  | CONNECT =>
      rw [hop, complete_ends (by rw [hop]; simp)] at h
      exact .connect hop h
  | WRITE =>
      rw [hop, complete_ends (by rw [hop]; simp)] at h
      obtain ⟨hres, h⟩ := handle_write_eq_ok h
      exact .write hop hres h
  | CANCEL =>
      rw [hop, complete_ends (by rw [hop]; simp)] at h
      exact .cancel hop h
  | RCVMSG =>
      rw [hop] at h
      obtain ⟨hres, h⟩ := handle_rcvmsg_eq_ok h
      rw [complete_goes_on hres (.inr hop)] at h
      exact .rcvmsg hop h
  | SENDMSG =>
      rw [hop, complete_ends (by rw [hop]; simp)] at h
      exact .sendmsg hop (handle_sendmsg_eq_ok h)

end Completion

/-- The steps. An accept makes a socket and gives it a descriptor that is free, which may be one
that was closed before. A send goes to the socket it has found when it started; by then the
descriptor of its connection may have been closed, and may be that of another one. -/
inductive Step (config : Config) : EventLoop count → Event count → EventLoop count → Prop
  | accepts (s : EventLoop count) (ud : Fin count) (fd : ℤ) (hop : s.Pending ud .ACCEPT)
      (hfd : 0 ≤ fd) (hfree : s.is_open fd = false) :
      Step config s (.accepts ud fd)
        { s with
          results := Function.update s.results ud (some fd)
          is_open := Function.update s.is_open fd true
          file := Function.update s.file fd s.sockets
          sockets := s.sockets + 1 }
  | starts (s : EventLoop count) (ud : Fin count) (o : ℕ) (hop : s.Pending ud .WRITE)
      (hconn : (s.user_data ud).conn = some o) (hopen : s.is_open (s.heap o).fd = true)
      (hnew : s.target ud = none) :
      Step config s (.starts ud)
        { s with target := Function.update s.target ud (some (s.file (s.heap o).fd)) }
  | sends (s : EventLoop count) (ud : Fin count) (n k : ℕ) (buffer : Bytes)
      (hop : s.Pending ud .WRITE) (htarget : s.target ud = some k)
      (hbuffer : (s.user_data ud).buffer = some buffer) (hn : n ≤ buffer.length) :
      Step config s (.sends ud n)
        { s with
          results := Function.update s.results ud (some n)
          peer := Function.update s.peer k (s.peer k ++ buffer.take n) }
  | closes (s : EventLoop count) (ud : Fin count) (o : ℕ) (hop : s.Pending ud .CANCEL)
      (hconn : (s.user_data ud).conn = some o) :
      Step config s (.closes ud)
        { s with
          results := Function.update s.results ud (some 0)
          is_open := Function.update s.is_open (s.heap o).fd false
          closed := Function.update s.closed o true }
  | fails (s : EventLoop count) (ud : Fin count) (op : Operation) (res : ℤ) (hop : s.Pending ud op)
      (hkind : op = .ACCEPT ∨ op = .WRITE) (hres : res < 0) :
      Step config s (.fails ud res) { s with results := Function.update s.results ud (some res) }
  | cqe (s s' : EventLoop count) (ud : Fin count) (res : ℤ) (env : Env) (hring : ud ∈ s.ring)
      (hres : (Operation.observed (s.user_data ud).op) = true → s.results ud = some res)
      (h : (s.complete ud res).handle config ud res env = .ok s') :
      Step config s (.cqe ud res env) s'

/-! ## The start -/

/-- A connection of a pool as its constructor leaves it, not connected yet. -/
def upstream (fd : ℤ) (type : ConnectionType) (http : HTTP) : Connection :=
  ⟨fd, type, .UPSTREAM, http, .DOWN⟩

/-- The socket of a descriptor at the start: those of the pools are numbered like their
connections, and any other descriptor stands for something else. -/
def pool_socket (pools : List (ℤ × ConnectionType × HTTP)) (fd : ℤ) : ℕ :=
  pools.findIdx fun x => x.1 = fd

/-- The objects of the constructor of `EventLoop`: the connections of the pools, numbered by their
place in the list, and nothing submitted. -/
def create (count : ℕ) (pools : List (ℤ × ConnectionType × HTTP)) (is_open : ℤ → Bool) :
    EventLoop count :=
  { heap := fun o =>
      match pools[o]? with
      | some (fd, type, http) => upstream fd type http
      -- an object that is not allocated yet
      | none => upstream (-1) .EGRESS .HTTP2
    allocated := pools.length
    connections := fun _ => ∅
    user_data := fun _ => ⟨.ACCEPT, none, none, none⟩
    user_data_queue := List.finRange count
    ring := []
    results := fun _ => none
    is_open := is_open
    closed := fun _ => false
    -- one more, for the descriptors that no pool has
    sockets := pools.length + 1
    file := pool_socket pools
    target := fun _ => none
    peer := fun _ => []
    socket := fun o =>
      match pools[o]? with
      | some (fd, _) => pool_socket pools fd
      | none => pools.length
    handed := fun _ => [] }

/-- The connects of the constructor of `State`, and what `run` submits before its loop. -/
def start (count : ℕ) (pools : List (ℤ × ConnectionType × HTTP)) (is_open : ℤ → Bool) :
    Except Abort (EventLoop count) := do
  let s ← (List.range pools.length).foldlM prepare_connect (create count pools is_open)
  let s ← s.prepare_accept .EGRESS
  let s ← s.prepare_accept .INGRESS
  s.prepare_rcvmsg

end EventLoop

end RlpSidecar
