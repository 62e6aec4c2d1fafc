/-
The RPC registry: `rpc_mapper.cc`, and `RPCMessagePool` of `rpc_message.cc`.

There is a fixed number of message objects. An object is its index `Fin n`, a pointer to it is
that index, and `heap` is what the objects hold; the maps and the pool store pointers. The
outermost level of each map has an entry for both connection types from the constructor on, so
its `at(type)` never fails; the level of the descriptors is a map, and its `at(fd)` can.

`remove_rpc` checks that nobody else holds the object. Its uses in the registry are counted
here; `held` stands for those elsewhere (a queue, a connection).

The lookups `find_ds`, `find_us` and `find_id` see through the levels of the maps; the lemma about
an operation says what it does to the three of them and to the pools, so that nothing above unfolds
a map.
-/
import RlpSidecar.RpcMessage
import RlpSidecar.Tables

set_option autoImplicit false

open Tables

namespace RlpSidecar

/-- A stream of a connection: the connection's type, its descriptor, the stream id. -/
abbrev StreamKey := ConnectionType × ℤ × ℤ

/-- `RPCMapper`, with the objects and their pool. An object is a number below `n`, and the maps
hold numbers where the source has `std::shared_ptr`s; who else holds a pointer is an argument of
the functions that ask for it. -/
structure RPCMapper (n : ℕ) where
  heap : Fin n → RPCMessage
  http_pool : List (Fin n)
  grpc_pool : List (Fin n)
  ds_map : ConnectionType → Nested ℤ ℤ (Fin n)
  us_map : ConnectionType → Nested ℤ ℤ (Fin n)
  id_map : ConnectionType → UMap RPCID (Fin n)

namespace RPCMapper

variable {n : ℕ}

/-- Changes an object, as a write through one of its pointers does. -/
def modify (m : RPCMapper n) (rpc : Fin n) (f : RPCMessage → RPCMessage) : RPCMapper n :=
  { m with heap := Function.update m.heap rpc (f (m.heap rpc)) }

/-! ## The pool -/

/-- A message object as its constructor and the first `clear` leave it. The constructor sets
neither the type nor the priority. -/
def blankMessage (http : HTTP) (type : ConnectionType) (priority : Priority) : RPCMessage :=
  { http := http
    type := type
    ds_stream_id := -1
    ds_fd := -1
    us_stream_id := -1
    us_fd := -1
    local_id := -1
    priority := priority
    service := []
    error := false
    pfanout_req := 0
    pfanout_res := 0
    credit_return_queue := []
    dfanout_service := none }

/-- `RPCMapper()`, with a pool of `http_n` HTTP/1 and `grpc_n` HTTP/2 messages. Type and priority
of a new object are whatever its memory holds, so they are arguments. -/
def create (grpc_n http_n : ℕ) (type : Fin (http_n + grpc_n) → ConnectionType)
    (priority : Fin (http_n + grpc_n) → Priority) : RPCMapper (http_n + grpc_n) :=
  { heap := fun a =>
      blankMessage (if a.val < http_n then .HTTP1 else .HTTP2) (type a) (priority a)
    -- the objects of the two classes are numbered one after the other
    http_pool := (List.finRange (http_n + grpc_n)).filter fun a => a.val < http_n
    grpc_pool := (List.finRange (http_n + grpc_n)).filter fun a => ¬ a.val < http_n
    ds_map := fun _ => ∅
    us_map := fun _ => ∅
    id_map := fun _ => ∅ }

/-- `RPCMessagePool::get_rpc`: the first free object of the kind is taken and gets its downstream
stream. An empty pool ends the process. -/
def get_rpc (m : RPCMapper n) (ds_stream_id ds_fd : ℤ) (http : HTTP) (type : ConnectionType) :
    Except Abort (Fin n × RPCMapper n) :=
  let prepare (m : RPCMapper n) (rpc : Fin n) : Fin n × RPCMapper n :=
    (rpc, m.modify rpc fun msg =>
      -- what `clear` does not set back is as the last request has left it
      { msg with ds_fd := ds_fd, ds_stream_id := ds_stream_id, type := type })
  match http with
  | .HTTP1 =>
    match m.http_pool with
    | [] => .error .poolEmpty
    | rpc :: rest => .ok (prepare { m with http_pool := rest } rpc)
  | .HTTP2 =>
    match m.grpc_pool with
    | [] => .error .poolEmpty
    | rpc :: rest => .ok (prepare { m with grpc_pool := rest } rpc)

/-- The uses of an object by the maps and the pool, which `use_count` counts besides the pointers
that the program holds elsewhere. -/
def references (m : RPCMapper n) (rpc : Fin n) : ℕ :=
  let uses (type : ConnectionType) : ℕ :=
    (m.ds_map type).count (· = rpc) + (m.us_map type).count (· = rpc)
      + (m.id_map type).entries.countP fun x => decide (x.2 = rpc)
  uses .INGRESS + uses .EGRESS + (m.http_pool ++ m.grpc_pool).count rpc

/-- `RPCMessagePool::free_rpc`. The pointer passed in is one use of the object, and `held` are
those outside the maps; with any other use left the process ends. -/
def free_rpc (m : RPCMapper n) (rpc : Fin n) (held : ℕ) : Except Abort (RPCMapper n) := do
  -- `rpc.use_count()`: the argument itself, the maps, and who else holds it
  let use_count := 1 + m.references rpc + held
  if use_count > 1 then .error .stillInUse
  else
    let msg ← (m.heap rpc).clear
    let m := m.modify rpc fun _ => msg
    match msg.http with
    | .HTTP1 => .ok { m with http_pool := m.http_pool ++ [rpc] }
    | .HTTP2 => .ok { m with grpc_pool := m.grpc_pool ++ [rpc] }

/-! ## The maps -/

/-- `RPCMapper::allocate_rpc`, when the headers of a request begin: an object is taken and entered
under its downstream stream. A stream that is in use ends the process. -/
def allocate_rpc (m : RPCMapper n) (type : ConnectionType) (stream_id fd : ℤ) (http : HTTP) :
    Except Abort (RPCMapper n) := do
  let (rpc, m) ← m.get_rpc stream_id fd http type
  -- `ds_map[type][fd]`, which makes an entry
  let t := (m.ds_map type).touch fd
  match t.lookup fd with
  | none => .error .outOfRange
  | some streams =>
    match streams.lookup stream_id with
    | none =>
      let t := t.insert fd (emplace streams stream_id rpc).1
      .ok { m with ds_map := Function.update m.ds_map type t }
    | some _ => .error .rpcExists

/-- `route`. Whether the insertion into `us_map` took place is not looked at. -/
def route (m : RPCMapper n) (type : ConnectionType) (ds_stream_id ds_fd us_stream_id us_fd : ℤ) :
    Except Abort (RPCMapper n) :=
  -- the entry is made before the request is looked for
  let t := (m.us_map type).touch us_fd
  match (m.ds_map type).find (ds_fd, ds_stream_id) with
  | none => .error .outOfRange
  | some rpc =>
    -- only the result of this `emplace` is checked, not that under the stream
    let (ids, check) := emplace (m.id_map type) (m.heap rpc).local_id rpc
    if check then
      match t.lookup us_fd with
      | none => .error .outOfRange
      | some streams =>
        let t := t.insert us_fd (emplace streams us_stream_id rpc).1
        .ok
          { m with
            id_map := Function.update m.id_map type ids
            us_map := Function.update m.us_map type t }
    else .error .idExists

/-- `get_ingress_rpc`: the upper half of an egress id is the id of its ingress RPC. -/
def get_ingress_rpc (m : RPCMapper n) (id : RPCID) : Except Abort (Fin n) :=
  let ingress_side_id : RPCID := id >>> 32
  if ingress_side_id = 0 then .error .noIngressRpc
  else
    match (m.id_map .INGRESS).lookup ingress_side_id with
    | none => .error .noIngressRpc
    | some rpc => .ok rpc

/-- `RPCMapper::get_us_rpc`, by which a response finds its request. -/
def get_us_rpc (m : RPCMapper n) (type : ConnectionType) (us_stream_id us_fd : ℤ) :
    Except Abort (Fin n) :=
  match (m.us_map type).find (us_fd, us_stream_id) with
  | none => .error .noUsRpc
  | some rpc => .ok rpc

/-- `RPCMapper::get_ds_rpc`, by which the later parts of a request find it. -/
def get_ds_rpc (m : RPCMapper n) (type : ConnectionType) (ds_stream_id ds_fd : ℤ) :
    Except Abort (Fin n) :=
  match (m.ds_map type).find (ds_fd, ds_stream_id) with
  | none => .error .noDsRpc
  | some rpc => .ok rpc

/-- `RPCMapper::remove_rpc`, when a response has gone out: it erases the object's entries under the
keys it holds itself, in all three maps, and the object goes back to its pool. -/
def remove_rpc (m : RPCMapper n) (type : ConnectionType) (rpc : Fin n) (held : ℕ) :
    Except Abort (RPCMapper n) :=
  let msg := m.heap rpc
  match (m.us_map type).lookup msg.us_fd, (m.ds_map type).lookup msg.ds_fd with
  | some us_streams, some ds_streams =>
    -- erased under the keys that the object has now
    let us := (m.us_map type).insert msg.us_fd (us_streams.erase msg.us_stream_id)
    let ds := (m.ds_map type).insert msg.ds_fd (ds_streams.erase msg.ds_stream_id)
    let ids := (m.id_map type).erase msg.local_id
    free_rpc
      { m with
        us_map := Function.update m.us_map type us
        ds_map := Function.update m.ds_map type ds
        id_map := Function.update m.id_map type ids }
      rpc held
  | _, _ => .error .outOfRange

/-! ## Keys and lookups

What a map holds is a function of the whole key; what an object is stored under is read off its
own fields. -/

/-- The downstream stream an object belongs to, read from the object. -/
def ds_key (m : RPCMapper n) (rpc : Fin n) : StreamKey :=
  ((m.heap rpc).type, (m.heap rpc).ds_fd, (m.heap rpc).ds_stream_id)

/-- The upstream stream an object was sent on, read from the object. -/
def us_key (m : RPCMapper n) (rpc : Fin n) : StreamKey :=
  ((m.heap rpc).type, (m.heap rpc).us_fd, (m.heap rpc).us_stream_id)

/-- The local id of an object, in the id space of its type. -/
def id_key (m : RPCMapper n) (rpc : Fin n) : ConnectionType × RPCID :=
  ((m.heap rpc).type, (m.heap rpc).local_id)

/-- The map of the downstream streams, as a function. -/
def find_ds (m : RPCMapper n) (k : StreamKey) : Option (Fin n) := (m.ds_map k.1).find k.2

/-- The map of the upstream streams, as a function. -/
def find_us (m : RPCMapper n) (k : StreamKey) : Option (Fin n) := (m.us_map k.1).find k.2

/-- The map of the local ids, as a function. -/
def find_id (m : RPCMapper n) (k : ConnectionType × RPCID) : Option (Fin n) :=
  (m.id_map k.1).lookup k.2

/-- An object that is not in the pool: it stands for an RPC that is under way. -/
def Live (m : RPCMapper n) (rpc : Fin n) : Prop := rpc ∉ m.http_pool ++ m.grpc_pool

instance (m : RPCMapper n) (rpc : Fin n) : Decidable (m.Live rpc) := by
  unfold Live; infer_instance

/-- `get_ds_rpc` in terms of the map as a function. -/
theorem get_ds_rpc_eq_ok {m : RPCMapper n} {type : ConnectionType} {stream fd : ℤ} {a : Fin n} :
    m.get_ds_rpc type stream fd = .ok a ↔ m.find_ds (type, fd, stream) = some a := by
  unfold get_ds_rpc find_ds
  cases (m.ds_map type).find (fd, stream) <;> simp

/-- `get_us_rpc` in terms of the map as a function. -/
theorem get_us_rpc_eq_ok {m : RPCMapper n} {type : ConnectionType} {stream fd : ℤ} {a : Fin n} :
    m.get_us_rpc type stream fd = .ok a ↔ m.find_us (type, fd, stream) = some a := by
  unfold get_us_rpc find_us
  cases (m.us_map type).find (fd, stream) <;> simp

/-- Changing the map of one type changes what is found for that type. -/
theorem find_update {maps : ConnectionType → Nested ℤ ℤ (Fin n)} {type : ConnectionType}
    {t : Nested ℤ ℤ (Fin n)} {i : ℤ × ℤ} {v : Option (Fin n)}
    (h : t.find = Function.update (maps type).find i v) :
    (fun k : StreamKey => (Function.update maps type t k.1).find k.2)
      = Function.update (fun k : StreamKey => (maps k.1).find k.2) (type, i) v := by
  funext k
  obtain ⟨type', j⟩ := k
  by_cases ht : type' = type
  · subst ht
    dsimp only
    rw [Function.update_self, h]
    by_cases hj : j = i
    · subst hj; rw [Function.update_self, Function.update_self]
    · rw [Function.update_of_ne hj, Function.update_of_ne fun heq => hj (Prod.mk.inj heq).2]
  · dsimp only
    rw [Function.update_of_ne ht, Function.update_of_ne fun heq => ht (Prod.mk.inj heq).1]

/-- A change under one key of one of the two maps, seen as a change of the function on both. -/
theorem lookup_update {maps : ConnectionType → UMap RPCID (Fin n)} {type : ConnectionType}
    {t : UMap RPCID (Fin n)} {i : RPCID} {v : Option (Fin n)}
    (h : (fun j => t.lookup j) = Function.update (fun j => (maps type).lookup j) i v) :
    (fun k : ConnectionType × RPCID => (Function.update maps type t k.1).lookup k.2)
      = Function.update (fun k : ConnectionType × RPCID => (maps k.1).lookup k.2) (type, i) v := by
  funext k
  obtain ⟨type', j⟩ := k
  by_cases ht : type' = type
  · subst ht
    dsimp only
    rw [Function.update_self, congrFun h j]
    by_cases hj : j = i
    · subst hj; rw [Function.update_self, Function.update_self]
    · rw [Function.update_of_ne hj, Function.update_of_ne fun heq => hj (Prod.mk.inj heq).2]
  · dsimp only
    rw [Function.update_of_ne ht, Function.update_of_ne fun heq => ht (Prod.mk.inj heq).1]

/-! ## What the operations do to the lookups -/

/-- The pool for messages of a kind, the two being kept apart by the source. -/
def pool (m : RPCMapper n) : HTTP → List (Fin n)
  | .HTTP1 => m.http_pool
  | .HTTP2 => m.grpc_pool

/-- **`get_rpc`** takes an object of the right kind out of the pool. -/
theorem get_rpc_spec {m m' : RPCMapper n} {stream fd : ℤ} {http : HTTP} {type : ConnectionType}
    {rpc : Fin n} (h : m.get_rpc stream fd http type = .ok (rpc, m')) :
    (m.http_pool ++ m.grpc_pool).Perm (rpc :: (m'.http_pool ++ m'.grpc_pool))
      ∧ rpc ∈ m.pool http ∧ (∀ kind, m'.pool kind ⊆ m.pool kind)
      ∧ m'.heap = Function.update m.heap rpc
          { m.heap rpc with ds_fd := fd, ds_stream_id := stream, type := type }
      ∧ m'.ds_map = m.ds_map ∧ m'.us_map = m.us_map ∧ m'.id_map = m.id_map := by
  unfold get_rpc at h
  -- The object is the head of the pool of its kind, and the other pool is untouched.
  cases http with
  | HTTP1 =>
      dsimp only at h
      split at h
      · simp at h
      rename_i rpc' rest hpool
      obtain ⟨rfl, rfl⟩ := Prod.mk.inj (Except.ok.inj h)
      have hmem : rpc' ∈ m.pool .HTTP1 := by unfold pool; rw [hpool]; exact List.mem_cons_self
      refine ⟨by rw [hpool]; rfl, hmem, fun kind => ?_, rfl, rfl, rfl, rfl⟩
      cases kind with
      | HTTP1 => unfold pool; rw [hpool]; exact List.subset_cons_self _ _
      | HTTP2 => exact fun _ hx => hx
  | HTTP2 =>
      dsimp only at h
      split at h
      · simp at h
      rename_i rpc' rest hpool
      obtain ⟨rfl, rfl⟩ := Prod.mk.inj (Except.ok.inj h)
      have hmem : rpc' ∈ m.pool .HTTP2 := by unfold pool; rw [hpool]; exact List.mem_cons_self
      refine ⟨by rw [hpool]; exact List.perm_middle, hmem, fun kind => ?_, rfl, rfl, rfl, rfl⟩
      cases kind with
      | HTTP1 => exact fun _ hx => hx
      | HTTP2 => unfold pool; rw [hpool]; exact List.subset_cons_self _ _

/-- The first object of the pool is taken, and the others stay. -/
theorem get_rpc_http1 {m m' : RPCMapper n} {stream fd : ℤ} {type : ConnectionType} {rpc : Fin n}
    (h : m.get_rpc stream fd .HTTP1 type = .ok (rpc, m')) : m.http_pool = rpc :: m'.http_pool := by
  unfold get_rpc at h
  dsimp only at h
  split at h
  · cases h
  rename_i rpc' rest hpool
  obtain ⟨rfl, rfl⟩ := Prod.mk.inj (Except.ok.inj h)
  exact hpool

/-- **`free_rpc`** clears the object and puts it back into the pool of its kind. -/
theorem free_rpc_spec {m m' : RPCMapper n} {rpc : Fin n} {held : ℕ}
    (h : m.free_rpc rpc held = .ok m') :
    (m'.http_pool ++ m'.grpc_pool).Perm (rpc :: (m.http_pool ++ m.grpc_pool))
      ∧ rpc ∈ m'.pool (m.heap rpc).http
      ∧ (∀ kind, ∀ a ∈ m'.pool kind, a ∈ m.pool kind ∨ a = rpc ∧ kind = (m.heap rpc).http)
      ∧ (∃ msg, m'.heap = Function.update m.heap rpc msg ∧ msg.http = (m.heap rpc).http
          ∧ msg.error = false ∧ msg.credit_return_queue = [])
      ∧ m'.ds_map = m.ds_map ∧ m'.us_map = m.us_map ∧ m'.id_map = m.id_map := by
  unfold free_rpc at h
  dsimp only at h
  split_ifs at h with hcount
  obtain ⟨msg, hclear, h⟩ := bind_eq_ok.mp h
  have hmsg : msg.http = (m.heap rpc).http ∧ msg.error = false ∧ msg.credit_return_queue = [] := by
    unfold RPCMessage.clear at hclear
    split_ifs at hclear with hreturns
    obtain rfl := Except.ok.inj hclear
    exact ⟨rfl, rfl, List.length_eq_zero_iff.mp (not_not.mp hreturns)⟩
  have hsingle : ∀ a, a ∈ [rpc] → a = rpc := fun a ha => List.mem_singleton.mp ha
  rw [← hmsg.1]
  -- The object goes to the back of the pool of its kind, and the other pool is untouched.
  cases hhttp : msg.http with
  | HTTP1 =>
      rw [hhttp] at h
      obtain rfl := Except.ok.inj h
      refine ⟨?_, List.mem_append_right _ List.mem_cons_self, fun kind a ha => ?_,
        ⟨msg, rfl, hhttp, hmsg.2⟩, rfl, rfl, rfl⟩
      · exact (List.append_assoc _ _ _ ▸ List.perm_middle)
      · cases kind with
        | HTTP1 => exact (List.mem_append.mp ha).imp id fun ha => ⟨hsingle a ha, rfl⟩
        | HTTP2 => exact .inl ha
  | HTTP2 =>
      rw [hhttp] at h
      obtain rfl := Except.ok.inj h
      refine ⟨?_, List.mem_append_right _ List.mem_cons_self, fun kind a ha => ?_,
        ⟨msg, rfl, hhttp, hmsg.2⟩, rfl, rfl, rfl⟩
      · exact (List.append_assoc m.http_pool m.grpc_pool [rpc] ▸ List.perm_append_singleton _ _)
      · cases kind with
        | HTTP1 => exact .inl ha
        | HTTP2 => exact (List.mem_append.mp ha).imp id fun ha => ⟨hsingle a ha, rfl⟩

/-- **`allocate_rpc`** stores an object from the pool under a free downstream key. -/
theorem allocate_rpc_spec {m m' : RPCMapper n} {type : ConnectionType} {stream fd : ℤ}
    {http : HTTP} (h : m.allocate_rpc type stream fd http = .ok m') :
    ∃ rpc m₁, m.get_rpc stream fd http type = .ok (rpc, m₁)
      ∧ m.find_ds (type, fd, stream) = none
      ∧ m'.find_ds = Function.update m.find_ds (type, fd, stream) (some rpc)
      ∧ m'.find_us = m.find_us ∧ m'.find_id = m.find_id ∧ m'.heap = m₁.heap
      ∧ m'.http_pool = m₁.http_pool ∧ m'.grpc_pool = m₁.grpc_pool := by
  unfold allocate_rpc at h
  obtain ⟨⟨rpc, m₁⟩, hget, h⟩ := bind_eq_ok.mp h
  obtain ⟨_, _, _, _, hds, hus, hid⟩ := get_rpc_spec hget
  dsimp only at h
  split at h
  · simp at h
  rename_i streams hstreams
  split at h
  · rename_i hfree
    obtain rfl := Except.ok.inj h
    -- The inner map is created where it is missing, which finds nothing new.
    have hold : ((m₁.ds_map type).touch fd).find = (m.ds_map type).find := by
      funext k; rw [Nested.find_touch, hds]
    have hnone : m.find_ds (type, fd, stream) = none := by
      rw [← hfree, ← Nested.find_eq hstreams stream, hold]; rfl
    have hfind := Nested.find_insert hstreams (lookup_insert_eq streams stream rpc)
    rw [hold, hds] at hfind
    refine ⟨rpc, m₁, hget, hnone, ?_, ?_, ?_, rfl, rfl, rfl⟩
    · rw [emplace_of_free hfree, hds]
      exact find_update hfind
    · unfold find_us; rw [hus]
    · unfold find_id; rw [hid]
  · simp at h

/-- With an object in the pool, and the key free, it succeeds. -/
theorem allocate_rpc_exists {m : RPCMapper n} {type : ConnectionType} {stream fd : ℤ}
    (hpool : m.http_pool ≠ []) (hnew : m.find_ds (type, fd, stream) = none) :
    ∃ m', m.allocate_rpc type stream fd .HTTP1 = .ok m' := by
  obtain ⟨rpc, rest, hpool⟩ := List.exists_cons_of_ne_nil hpool
  obtain ⟨streams, hstreams⟩ := Nested.exists_bucket (m.ds_map type) fd
  have hfree : streams.lookup stream = none := by
    rw [← Nested.find_eq hstreams stream, Nested.find_touch]
    exact hnew
  unfold allocate_rpc get_rpc modify
  rw [hpool]
  dsimp only
  rw [ok_bind]
  dsimp only
  rw [hstreams]
  dsimp only
  rw [hfree]
  exact ⟨_, rfl⟩

/-- **`route`** stores the object of a downstream stream under its local id, which must be free,
and, if that is free as well, under the upstream stream. -/
theorem route_spec {m m' : RPCMapper n} {type : ConnectionType}
    {ds_stream ds_fd us_stream us_fd : ℤ}
    (h : m.route type ds_stream ds_fd us_stream us_fd = .ok m')
    (hus : m.find_us (type, us_fd, us_stream) = none) :
    ∃ rpc, m.find_ds (type, ds_fd, ds_stream) = some rpc
      ∧ m.find_id (type, (m.heap rpc).local_id) = none
      ∧ m'.find_id = Function.update m.find_id (type, (m.heap rpc).local_id) (some rpc)
      ∧ m'.find_us = Function.update m.find_us (type, us_fd, us_stream) (some rpc)
      ∧ m'.find_ds = m.find_ds ∧ m'.heap = m.heap
      ∧ m'.http_pool = m.http_pool ∧ m'.grpc_pool = m.grpc_pool := by
  unfold route at h
  dsimp only at h
  split at h
  · simp at h
  rename_i rpc hds
  split_ifs at h with hcheck
  split at h
  · simp at h
  rename_i streams hstreams
  obtain rfl := Except.ok.inj h
  have hid := emplace_snd hcheck
  -- The insertion by upstream key is not checked, hence the hypothesis that the key is free.
  have hold : ((m.us_map type).touch us_fd).find = (m.us_map type).find :=
    funext fun k => Nested.find_touch _ _ _
  have hfree : streams.lookup us_stream = none := by
    rw [← Nested.find_eq hstreams us_stream, hold]; exact hus
  have hfind := Nested.find_insert hstreams (lookup_insert_eq streams us_stream rpc)
  rw [hold] at hfind
  refine ⟨rpc, hds, hid, ?_, ?_, rfl, rfl, rfl, rfl⟩
  · rw [emplace_of_free hid]
    exact lookup_update (lookup_insert_eq _ _ _)
  · rw [emplace_of_free hfree]
    exact find_update hfind

/-- Whatever the upstream stream is, `route` leaves the downstream streams, the objects and the
pool alone. -/
theorem route_frame {m m' : RPCMapper n} {type : ConnectionType}
    {ds_stream ds_fd us_stream us_fd : ℤ}
    (h : m.route type ds_stream ds_fd us_stream us_fd = .ok m') :
    ∃ rpc, m.find_ds (type, ds_fd, ds_stream) = some rpc
      ∧ m.find_id (type, (m.heap rpc).local_id) = none
      ∧ m'.find_ds = m.find_ds ∧ m'.heap = m.heap ∧ m'.http_pool = m.http_pool := by
  unfold route at h
  dsimp only at h
  split at h
  · cases h
  rename_i rpc hds
  split_ifs at h with hcheck
  split at h
  · cases h
  obtain rfl := Except.ok.inj h
  exact ⟨rpc, hds, emplace_snd hcheck, rfl, rfl, rfl⟩

/-- With an object under the downstream stream, and its id free, it succeeds. -/
theorem route_exists {m : RPCMapper n} {type : ConnectionType} {ds_stream ds_fd : ℤ} {rpc : Fin n}
    (hds : m.find_ds (type, ds_fd, ds_stream) = some rpc)
    (hfree : m.find_id (type, (m.heap rpc).local_id) = none) (us_stream us_fd : ℤ) :
    ∃ m', m.route type ds_stream ds_fd us_stream us_fd = .ok m' := by
  obtain ⟨streams, hstreams⟩ := Nested.exists_bucket (m.us_map type) us_fd
  unfold find_ds at hds
  unfold find_id at hfree
  unfold route
  dsimp only at hds hfree ⊢
  rw [hds]
  dsimp only
  rw [emplace_of_free hfree]
  dsimp only
  rw [if_pos rfl, hstreams]
  exact ⟨_, rfl⟩

/-- **`remove_rpc`** erases what is stored under the object's own keys and frees it. -/
theorem remove_rpc_spec {m m' : RPCMapper n} {type : ConnectionType} {rpc : Fin n} {held : ℕ}
    (h : m.remove_rpc type rpc held = .ok m') (htype : (m.heap rpc).type = type) :
    m'.find_us = Function.update m.find_us (m.us_key rpc) none
      ∧ m'.find_ds = Function.update m.find_ds (m.ds_key rpc) none
      ∧ m'.find_id = Function.update m.find_id (m.id_key rpc) none
      ∧ ∃ m₁ : RPCMapper n, m₁.free_rpc rpc held = .ok m' ∧ m₁.heap = m.heap
      ∧ m₁.http_pool = m.http_pool
        ∧ m₁.grpc_pool = m.grpc_pool := by
  -- The keys are computed from the object, so they are those under which it was entered.
  subst htype
  unfold remove_rpc at h
  dsimp only at h
  split at h
  · rename_i us_streams ds_streams hus hds
    obtain ⟨_, _, _, _, hds', hus', hid'⟩ := free_rpc_spec h
    have hus₁ :=
      find_update (Nested.find_insert hus (lookup_erase_eq us_streams (m.heap rpc).us_stream_id))
    have hds₁ :=
      find_update (Nested.find_insert hds (lookup_erase_eq ds_streams (m.heap rpc).ds_stream_id))
    have hid₁ := lookup_update (lookup_erase_eq (m.id_map (m.heap rpc).type) (m.heap rpc).local_id)
    refine ⟨?_, ?_, ?_, _, h, rfl, rfl, rfl⟩
    · unfold find_us; rw [hus']; exact hus₁
    · unfold find_ds; rw [hds']; exact hds₁
    · unfold find_id; rw [hid']; exact hid₁
  · simp at h

/-- An object that nothing finds and no pool holds is referred to by nobody. -/
theorem references_eq_zero {m : RPCMapper n} {a : Fin n} (hds : ∀ k, m.find_ds k ≠ some a)
    (hus : ∀ k, m.find_us k ≠ some a) (hid : ∀ k, m.find_id k ≠ some a) (hlive : m.Live a) :
    m.references a = 0 := by
  have huses : ∀ type : ConnectionType, (m.ds_map type).count (· = a) = 0
      ∧ (m.us_map type).count (· = a) = 0
      ∧ ((m.id_map type).entries.countP fun x => decide (x.2 = a)) = 0 := by
    intro type
    refine ⟨Nested.count_eq_zero fun k b hb => decide_eq_false ?_,
      Nested.count_eq_zero fun k b hb => decide_eq_false ?_,
      countP_eq_zero (p := fun b => decide (b = a)) fun k b hb => decide_eq_false ?_⟩
    · rintro rfl
      exact hds (type, k) hb
    · rintro rfl
      exact hus (type, k) hb
    · rintro rfl
      exact hid (type, k) hb
  unfold references
  dsimp only
  rw [(huses .INGRESS).1, (huses .INGRESS).2.1, (huses .INGRESS).2.2, (huses .EGRESS).1,
    (huses .EGRESS).2.1, (huses .EGRESS).2.2, List.count_eq_zero_of_not_mem hlive]

/-- An object that nobody refers to goes back to its pool, if it has no returns left. -/
theorem free_rpc_exists {m : RPCMapper n} {a : Fin n} (hreferences : m.references a = 0)
    (hreturns : (m.heap a).credit_return_queue = []) : ∃ m', m.free_rpc a 0 = .ok m' := by
  unfold free_rpc RPCMessage.clear
  rw [hreferences, hreturns]
  dsimp only
  rw [if_neg (by decide), List.length_nil, if_neg (by decide), ok_bind]
  dsimp only
  cases (m.heap a).http <;> exact ⟨_, rfl⟩

end RPCMapper

end RlpSidecar
