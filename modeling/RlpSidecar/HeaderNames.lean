/-
Which header sets what (`rpc_message.cc`, the two `add_header_field`).

Three headers of a request are for the sidecar: `rpc-id`, `rpc-local-id` and `priority`. They are
looked for with `memcmp` over the length of the name that is looked for, so a longer name that
begins the same is taken for it: its value is read as a number, which ends the process if it is
none, and what the sender has put under the real name is lost. With no such name in a request, and
no text of the full size of a field, the headers mean what their names say, and the same to both
kinds of messages.

`InterpretedExactly` says what it means that headers are interpreted by their names: what each of
the three numbers is, which headers are stored, and that both kinds of messages agree.
`interpreted_exactly_iff` is the result, for every list within the limits of a message: it is so
exactly if every header of it is harmless.
-/
import RlpSidecar.LocalIds

set_option autoImplicit false

namespace RlpSidecar

/-! ## What the names say -/

/-- The name is `key`, up to a zero byte at its end. -/
def Named (key name : Bytes) : Prop := name = key ∨ name = key ++ [0]

instance (key name : Bytes) : Decidable (Named key name) := by
  unfold Named; infer_instance

/-- A name that the sidecar reads, rather than only handing it on. -/
def Reserved (name : Bytes) : Prop := Named RPC_ID name ∨ Named RPC_LOCAL_ID name
    ∨ Named PRIORITY name

instance (name : Bytes) : Decidable (Reserved name) := by
  unfold Reserved; infer_instance

/-- The number in the last header of a name, as the reference that the loop is compared with. -/
def lastNumber (key : Bytes) : List (Bytes × Bytes) → Option ℤ
  | [] => none
  | h :: hs => (lastNumber key hs).or (if Named key h.1 then Decimal.number h.2 else none)

/-- The headers that are stored: on an EGRESS connection all but `rpc-local-id`. -/
def storedHeaders (type : ConnectionType) (hs : List (Bytes × Bytes)) : List (Bytes × Bytes) :=
  hs.filter fun h => ¬ (type = .EGRESS ∧ Named RPC_LOCAL_ID h.1)

/-- The numbers that a header can carry. On an INGRESS connection `rpc-local-id` is not looked at
further, and only the mark of an unset id is refused. -/
def InRange (type : ConnectionType) (name : Bytes) (z : ℤ) : Prop :=
  (Named RPC_ID name → -2 ^ 63 ≤ z ∧ z < 2 ^ 63)
    ∧ (Named RPC_LOCAL_ID name → match type with
      | .EGRESS => 1 ≤ z ∧ z ≤ 2 ^ 32 - 1
      | .INGRESS => -2 ^ 63 ≤ z ∧ z < 2 ^ 63 ∧ z ≠ -1)
    ∧ (Named PRIORITY name → -2 ^ 31 ≤ z ∧ z < 2 ^ 31)

/-- A list of request headers within the limits, whose reserved headers have decimal values in
range. -/
structure Limited (type : ConnectionType) (hs : List (Bytes × Bytes)) : Prop where
  size : ∀ h ∈ hs, h.1.length ≤ maxHeaderFieldSize ∧ h.2.length ≤ maxHeaderFieldSize
  count : (storedHeaders type hs).length ≤ maxHeaderFieldNumber
  number : ∀ h ∈ hs, Reserved h.1 → ∃ z, Decimal.number h.2 = some z ∧ InRange type h.1 z

/-- The fields that the reserved headers set, apart from the message they belong to. -/
structure IdFields where
  global_id : RPCID
  local_id : RPCID
  priority : Priority
  deriving DecidableEq, Repr

/-- The three fields of a message. -/
def Identified.fields (m : Identified) : IdFields := ⟨m.global_id, m.rpc.local_id, m.rpc.priority⟩

namespace Message

/-- The identified part of a message of either class. -/
def ids : Message → Identified
  | .grpc m => m.ids
  | .http m => m.ids

/-- The three fields of a message of either class. -/
def fields (m : Message) : IdFields := m.ids.fields

/-- `add_header_field` for each header of a request, in the order in which they come. -/
def add_request (config : IdConfig) : List (Bytes × Bytes) → RPCID → Message →
    Except Abort (Message × RPCID)
  | [], local_id_counter, m => .ok (m, local_id_counter)
  | h :: hs, local_id_counter, m => do
    let (m, local_id_counter) ← m.add_header_field config local_id_counter h.1 h.2 true false
    add_request config hs local_id_counter m

end Message

/-- What `fields` become when a request with the headers `hs` has been read. -/
structure ReadAs (config : IdConfig) (type : ConnectionType) (hs : List (Bytes × Bytes))
    (before after : IdFields) :
    Prop where
  global_id : after.global_id = ((lastNumber RPC_ID hs).map (BitVec.ofInt 64)).getD before.global_id
  priority : after.priority = ((lastNumber PRIORITY hs).map (BitVec.ofInt 32)).getD before.priority
  /-- On an EGRESS connection of a sidecar that is not at the edge. -/
  local_id : type = .EGRESS → config.is_ingress = false → match lastNumber RPC_LOCAL_ID hs with
    | none => after.local_id = before.local_id
    | some z => after.local_id >>> 32 = BitVec.ofInt 64 z

/-- **Headers are interpreted by their exact names**, the same in both kinds of messages. -/
structure InterpretedExactly (config : IdConfig) (type : ConnectionType)
    (hs : List (Bytes × Bytes)) : Prop where
  /-- A header with another name changes nothing, never fails and is stored as it is. -/
  others : ∀ h ∈ hs, ¬ Reserved h.1 → ∀ (counter : RPCID) (m : Message), m.rpc.type = type →
    m.req_headers.count < maxHeaderFieldNumber → ∃ m',
      m.add_header_field config counter h.1 h.2 true false = .ok (m', counter)
        ∧ m'.fields = m.fields
        ∧ m'.req_headers.text = m.req_headers.text ++ [h]
  /-- What becomes of the fields depends on nothing else in a message, and not on its kind. -/
  request : ∀ (counter : RPCID) (before : IdFields), ∃ after counter',
    ReadAs config type hs before after
    ∧ ∀ m : Message, m.rpc.type = type → m.fields = before →
      m.req_headers.count + (storedHeaders type hs).length ≤ maxHeaderFieldNumber → ∃ m',
        m.add_request config hs counter = .ok (m', counter') ∧ m'.fields = after
          ∧ m'.req_headers.text = m.req_headers.text ++ storedHeaders type hs

/-- The header is not one of those that the sidecar takes for something else, or cannot store. -/
structure Harmless (type : ConnectionType) (name value : Bytes) : Prop where
  /-- There is room for the zero bytes. -/
  terminated : ¬ (type = .EGRESS ∧ Named RPC_LOCAL_ID name) →
    name.length < maxHeaderFieldSize ∧ value.length < maxHeaderFieldSize
  rpc_id : RPC_ID <+: name → Reserved name
  priority : PRIORITY <+: name → Reserved name
  rpc_local_id : RPC_LOCAL_ID <+: name →
    Reserved name ∨ type = .INGRESS ∧ ∃ z, stoll value = .ok z ∧ z ≠ -1
  path : cstring name = PATH → value ≠ []

/-! ## One header -/

/-- What `read_request_header` makes of the three fields, which depend on nothing else but the
counter. -/
def IdFields.read (config : IdConfig) (type : ConnectionType) (counter : RPCID) (f : IdFields)
    (name value : Bytes) : Except Abort (IdFields × RPCID) :=
  if RPC_ID <+: name then do
    let id ← stoll value
    let f := { f with global_id := BitVec.ofInt 64 id }
    -- the id of the RPC is new here, and it has a local id of its own
    if config.is_ingress ∨ type = .INGRESS then
      .ok ({ f with local_id := (get_new_local_id counter 0).1 }, counter + 1)
    else .ok (f, counter)
  else if RPC_LOCAL_ID <+: name then do
    let id ← stoll value
    let id_from_str : RPCID := BitVec.ofInt 64 id
    match type with
    -- the header of an ingress request is only checked
    | .INGRESS => if id_from_str = -1 then .error .invalidLocalId else .ok (f, counter)
    | .EGRESS =>
      if id_from_str.toInt ≤ 0 ∨ id_from_str.toInt > 2 ^ 32 - 1 then .error .invalidLocalId
      else .ok ({ f with local_id := (get_new_local_id counter id_from_str).1 }, counter + 1)
  else if PRIORITY <+: name then do
    let priority ← stoll value
    .ok ({ f with priority := BitVec.ofInt 32 priority }, counter)
  else .ok (f, counter)

/-- Whether a header is not stored, which the source decides by type and by the first bytes of the
name. -/
def Dropped (type : ConnectionType) (name : Bytes) : Prop := type = .EGRESS ∧ RPC_LOCAL_ID <+: name

instance (type : ConnectionType) (name : Bytes) : Decidable (Dropped type name) := by
  unfold Dropped; infer_instance

/-- The rest of a message takes no part: the fields and the counter are what `IdFields.read`
says. -/
theorem read_request_header_fields (config : IdConfig) (counter : RPCID) (m : Identified)
    (name value : Bytes) :
    Agree (fun a b => a.1.fields = b.1 ∧ a.1.rpc.type = m.rpc.type ∧ a.2.1 = b.2
        ∧ a.2.2 = decide (Dropped m.rpc.type name))
      (read_request_header config counter m name value)
      (IdFields.read config m.rpc.type counter m.fields name value) := by
  unfold read_request_header IdFields.read
  by_cases hid : RPC_ID <+: name
  · -- no name starts with both `rpc-id` and `rpc-local-id`
    have hlocal : ¬ RPC_LOCAL_ID <+: name := fun h =>
      absurd (List.prefix_of_prefix_length_le hid h (by decide)) (by decide)
    have hdropped : ¬ Dropped m.rpc.type name := fun h => hlocal h.2
    rw [if_pos hid, if_pos hid]
    refine (Agree.refl _).bind fun id _ hsame => ?_
    subst hsame
    unfold RPCMessage.add_header_field
    dsimp only
    split_ifs
    · exact ⟨rfl, rfl, rfl, (decide_eq_false hdropped).symm⟩
    · exact ⟨rfl, rfl, rfl, (decide_eq_false hdropped).symm⟩
  rw [if_neg hid, if_neg hid]
  by_cases hlocal : RPC_LOCAL_ID <+: name
  · rw [if_pos hlocal, if_pos hlocal]
    refine (Agree.refl _).bind fun id _ hsame => ?_
    subst hsame
    unfold RPCMessage.add_header_field Dropped
    dsimp only
    cases htype : m.rpc.type with
    | INGRESS =>
        dsimp only
        split_ifs
        · exact rfl
        · exact ⟨rfl, htype, rfl, rfl⟩
    | EGRESS =>
        dsimp only
        split_ifs
        · exact rfl
        · exact ⟨rfl, rfl, rfl, by simp [hlocal]⟩
  have hdropped : ¬ Dropped m.rpc.type name := fun h => hlocal h.2
  rw [if_neg hlocal, if_neg hlocal]
  by_cases hpriority : PRIORITY <+: name
  · rw [if_pos hpriority, if_pos hpriority]
    refine (Agree.refl _).bind fun priority _ hsame => ?_
    subst hsame
    exact ⟨rfl, rfl, rfl, (decide_eq_false hdropped).symm⟩
  · rw [if_neg hpriority, if_neg hpriority]
    exact ⟨rfl, rfl, rfl, (decide_eq_false hdropped).symm⟩

/-- What both classes do with a request header after `:path`: the identifiers are read, and the
header is stored or dropped. -/
def store (config : IdConfig) (counter : RPCID) (ids : Identified) (headers : HeaderList)
    (name value : Bytes) : Except Abort (Identified × HeaderList × RPCID) := do
  let (ids, counter, dropped) ← read_request_header config counter ids name value
  if dropped then .ok (ids, headers, counter)
  else
    let headers ← headers.add name value
    .ok (ids, headers, counter)

theorem store_ok {config : IdConfig} {counter counter' : RPCID} {ids : Identified}
    {headers : HeaderList} {name value : Bytes} {f : IdFields}
    (hread : IdFields.read config ids.rpc.type counter ids.fields name value = .ok (f, counter'))
    (hroom : ¬ Dropped ids.rpc.type name → headers.count < maxHeaderFieldNumber
      ∧ name.length < maxHeaderFieldSize ∧ value.length < maxHeaderFieldSize) :
    ∃ ids' headers', store config counter ids headers name value = .ok (ids', headers', counter')
      ∧ ids'.fields = f ∧ ids'.rpc.type = ids.rpc.type
      ∧ headers'.text = headers.text ++ (if Dropped ids.rpc.type name then [] else [(name, value)])
      ∧ headers'.count = headers.count + (if Dropped ids.rpc.type name then 0 else 1) := by
  have hagree := read_request_header_fields config counter ids name value
  unfold store
  cases hread' : read_request_header config counter ids name value with
  | error e =>
      rw [hread', hread] at hagree
      exact hagree.elim
  | ok x =>
      obtain ⟨ids', c, dropped⟩ := x
      rw [hread', hread] at hagree
      obtain ⟨hfields, htype, hcounter, hdrop⟩ := hagree
      dsimp only at hfields htype hcounter hdrop
      subst hcounter hdrop
      rw [ok_bind]
      dsimp only
      -- A dropped header is read and not stored, so it needs no room.
      by_cases h : Dropped ids.rpc.type name
      · rw [decide_eq_true h, if_pos rfl, if_pos h, if_pos h, List.append_nil]
        exact ⟨ids', headers, rfl, hfields, htype, rfl, rfl⟩
      · obtain ⟨hcount, hname, hvalue⟩ := hroom h
        obtain ⟨headers', hadd⟩ := HeaderList.add_exists hcount hname hvalue
        obtain ⟨htext, hcount', _⟩ := HeaderList.add_text hadd
        rw [decide_eq_false h, if_neg Bool.false_ne_true, if_neg h, if_neg h, hadd]
        exact ⟨ids', headers', rfl, hfields, htype, htext, hcount'⟩

theorem store_inv {config : IdConfig} {counter counter' : RPCID} {ids ids' : Identified}
    {headers headers' : HeaderList} {name value : Bytes}
    (h : store config counter ids headers name value = .ok (ids', headers', counter')) :
    IdFields.read config ids.rpc.type counter ids.fields name value = .ok (ids'.fields, counter')
      ∧ ids'.rpc.type = ids.rpc.type
      ∧ (Dropped ids.rpc.type name ∧ headers' = headers
        ∨ ¬ Dropped ids.rpc.type name ∧ name.length < maxHeaderFieldSize
          ∧ value.length < maxHeaderFieldSize) := by
  unfold store at h
  obtain ⟨⟨ids₁, c, dropped⟩, hread, h⟩ := bind_eq_ok.mp h
  obtain ⟨⟨f, c'⟩, hfields, hf, htype, hc, hdrop⟩ :=
    (read_request_header_fields config counter ids name value).of_ok hread
  dsimp only at h hf htype hc hdrop
  subst hf hc hdrop
  by_cases hdropped : Dropped ids.rpc.type name
  · rw [decide_eq_true hdropped, if_pos rfl] at h
    obtain ⟨rfl, hrest⟩ := Prod.mk.inj (Except.ok.inj h)
    obtain ⟨rfl, rfl⟩ := Prod.mk.inj hrest
    exact ⟨hfields, htype, .inl ⟨hdropped, rfl⟩⟩
  · rw [decide_eq_false hdropped, if_neg Bool.false_ne_true] at h
    obtain ⟨headers₁, hadd, h⟩ := bind_eq_ok.mp h
    obtain ⟨rfl, hrest⟩ := Prod.mk.inj (Except.ok.inj h)
    obtain ⟨rfl, rfl⟩ := Prod.mk.inj hrest
    exact ⟨hfields, htype, .inr ⟨hdropped, HeaderList.add_terminated hadd⟩⟩

namespace Message

/-- The same message with other ids and headers, in either class. -/
def withParts (m : Message) (ids : Identified) (headers : HeaderList) : Message :=
  match m with
  | .grpc m => .grpc { m with ids := ids, req_headers := headers }
  | .http m => .http { m with ids := ids, req_headers := headers }

@[simp] theorem ids_withParts (m : Message) (ids : Identified) (headers : HeaderList) :
    (m.withParts ids headers).ids = ids := by
  cases m <;> rfl

@[simp] theorem req_headers_withParts (m : Message) (ids : Identified) (headers : HeaderList) :
    (m.withParts ids headers).req_headers = headers := by
  cases m <;> rfl

theorem rpc_eq (m : Message) : m.rpc = m.ids.rpc := by
  cases m <;> rfl

/-- A request header of an HTTP/1 message is `store` and nothing else. -/
theorem add_http_header_eq (config : IdConfig) (counter : RPCID) (m : HTTPMessage)
    (name value : Bytes) :
    m.add_header_field config counter name value true false = (do
      let (ids, headers, counter) ← store config counter m.ids m.req_headers name value
      .ok ({ m with ids := ids, req_headers := headers }, counter)) := by
  unfold store
  rw [HTTPMessage.add_request_header]
  cases read_request_header config counter m.ids name value with
  | error e => rfl
  | ok x =>
      obtain ⟨ids, c, dropped⟩ := x
      cases dropped with
      | true => rfl
      | false => cases m.req_headers.add name value <;> simp [bind, Except.bind]

/-- A request header in either class, after `:path` has been read, is `store` on what that has
left. -/
theorem add_header_field_eq (config : IdConfig) (counter : RPCID) (m : Message) {name value : Bytes}
    (hpath : cstring name = PATH → value ≠ []) :
    ∃ base : Message, base.fields = m.fields ∧ base.rpc.type = m.rpc.type
      ∧ base.req_headers = m.req_headers
      ∧ m.add_header_field config counter name value true false = (do
        let (ids, headers, counter) ← store config counter base.ids base.req_headers name value
        .ok (base.withParts ids headers, counter)) := by
  cases m with
  | grpc m =>
      -- `:path` is read first, which leaves the identifiers and the headers
      obtain ⟨m₁, hread, hfields, htype, hheaders⟩ : ∃ m₁, m.read_path name value = .ok m₁
          ∧ m₁.ids.fields = m.ids.fields ∧ m₁.ids.rpc.type = m.ids.rpc.type
          ∧ m₁.req_headers = m.req_headers := by
        unfold gRPCMessage.read_path
        by_cases hname : cstring name = PATH
        · rw [if_pos hname, if_neg (hpath hname)]
          exact ⟨_, rfl, rfl, rfl, rfl⟩
        · rw [if_neg hname]
          exact ⟨m, rfl, rfl, rfl, rfl⟩
      refine ⟨.grpc m₁, hfields, htype, hheaders, ?_⟩
      unfold add_header_field gRPCMessage.add_header_field store
      dsimp only
      rw [hread, ok_bind, if_pos rfl]
      dsimp only [ids, req_headers]
      cases read_request_header config counter m₁.ids name value with
      | error e => rfl
      | ok x =>
          obtain ⟨ids, c, dropped⟩ := x
          cases dropped with
          | true => rfl
          | false => cases m₁.req_headers.add name value <;> simp [withParts, bind, Except.bind]
  | http m =>
      refine ⟨.http m, rfl, rfl, rfl, ?_⟩
      unfold add_header_field
      dsimp only
      rw [add_http_header_eq]
      dsimp only [ids, req_headers]
      cases store config counter m.ids m.req_headers name value <;> rfl

/-- **One header** that has room is read and stored. The step lemma of the direction that
succeeds. -/
theorem add_header_field_ok {config : IdConfig} {counter counter' : RPCID} {m : Message}
    {name value : Bytes} {f : IdFields} (hpath : cstring name = PATH → value ≠ [])
    (hread : IdFields.read config m.rpc.type counter m.fields name value = .ok (f, counter'))
    (hroom : ¬ Dropped m.rpc.type name → m.req_headers.count < maxHeaderFieldNumber
      ∧ name.length < maxHeaderFieldSize ∧ value.length < maxHeaderFieldSize) :
    ∃ m', m.add_header_field config counter name value true false = .ok (m', counter')
      ∧ m'.fields = f
      ∧ m'.rpc.type = m.rpc.type
      ∧ m'.req_headers.text
        = m.req_headers.text ++ (if Dropped m.rpc.type name then [] else [(name, value)])
      ∧ m'.req_headers.count = m.req_headers.count
        + (if Dropped m.rpc.type name then 0 else 1) := by
  -- The two kinds of message differ only in the base the header is stored over.
  obtain ⟨base, hfields, htype, hheaders, heq⟩ := add_header_field_eq config counter m hpath
  rw [rpc_eq base] at htype
  have hread' : IdFields.read config base.ids.rpc.type counter base.ids.fields name value
      = .ok (f, counter') := by
    have hbase : base.ids.fields = m.fields := hfields
    rw [htype, hbase]
    exact hread
  have hroom' : ¬ Dropped base.ids.rpc.type name → base.req_headers.count < maxHeaderFieldNumber
      ∧ name.length < maxHeaderFieldSize ∧ value.length < maxHeaderFieldSize := by
    rw [htype, hheaders]
    exact hroom
  obtain ⟨ids', headers', hstore, hf, htype', htext, hcount⟩ := store_ok hread' hroom'
  rw [htype] at htype' htext hcount
  rw [hheaders] at htext hcount
  refine ⟨base.withParts ids' headers', ?_, ?_, ?_, ?_, ?_⟩
  · rw [heq, hstore]
    rfl
  · unfold fields
    rw [ids_withParts, hf]
  · rw [rpc_eq, ids_withParts, htype']
  · rw [req_headers_withParts, htext]
  · rw [req_headers_withParts, hcount]

/-- What is known of a header that was read without an abort. The step lemma of the other
direction. -/
theorem add_header_field_inv {config : IdConfig} {counter counter' : RPCID} {m m' : Message}
    {name value : Bytes} (hpath : cstring name = PATH → value ≠ [])
    (h : m.add_header_field config counter name value true false = .ok (m', counter')) :
    IdFields.read config m.rpc.type counter m.fields name value = .ok (m'.fields, counter')
      ∧ m'.rpc.type = m.rpc.type
      ∧ (Dropped m.rpc.type name ∧ m'.req_headers = m.req_headers
        ∨ ¬ Dropped m.rpc.type name ∧ name.length < maxHeaderFieldSize
          ∧ value.length < maxHeaderFieldSize) := by
  obtain ⟨base, hfields, htype, hheaders, heq⟩ := add_header_field_eq config counter m hpath
  rw [heq] at h
  obtain ⟨⟨ids, headers, c⟩, hstore, h⟩ := bind_eq_ok.mp h
  obtain ⟨rfl, rfl⟩ := Prod.mk.inj (Except.ok.inj h)
  have hinv := store_inv hstore
  have hbase : base.ids.fields = m.fields := hfields
  rw [rpc_eq base] at htype
  rw [htype, hbase, hheaders] at hinv
  rw [req_headers_withParts, rpc_eq (base.withParts ids headers)]
  unfold fields at hinv ⊢
  rw [ids_withParts]
  exact hinv

end Message

/-! ## A request -/

theorem Named.prefix {key name : Bytes} (h : Named key name) : key <+: name := by
  rcases h with rfl | rfl
  · exact List.prefix_rfl
  · exact List.prefix_append _ _

/-- A reserved name has one of the three constants, and no room for another. -/
theorem Reserved.named {name : Bytes} (h : Reserved name) :
    (RPC_ID <+: name → Named RPC_ID name) ∧ (RPC_LOCAL_ID <+: name → Named RPC_LOCAL_ID name)
      ∧ (PRIORITY <+: name → Named PRIORITY name) ∧ cstring name ≠ PATH
      ∧ name.length < maxHeaderFieldSize := by
  rcases h with (rfl | rfl) | (rfl | rfl) | (rfl | rfl)
  all_goals decide

namespace Harmless

variable {type : ConnectionType} {name value : Bytes}

/-- On an EGRESS connection the harmless headers that are not stored are named `rpc-local-id`. -/
theorem dropped_iff (h : Harmless type name value) :
    Dropped type name ↔ type = .EGRESS ∧ Named RPC_LOCAL_ID name := by
  constructor
  · rintro ⟨htype, hprefix⟩
    rcases h.rpc_local_id hprefix with hreserved | ⟨hingress, _⟩
    · exact ⟨htype, hreserved.named.2.1 hprefix⟩
    · rw [htype] at hingress
      cases hingress
  · rintro ⟨htype, hname⟩
    exact ⟨htype, hname.prefix⟩

/-- A header that is not for the sidecar changes none of the fields. -/
theorem read_other (h : Harmless type name value) (hother : ¬ Reserved name) (config : IdConfig)
    (counter : RPCID) (f : IdFields) : IdFields.read config type counter f name value
      = .ok (f, counter) := by
  unfold IdFields.read
  rw [if_neg fun hp => hother (h.rpc_id hp)]
  by_cases hlocal : RPC_LOCAL_ID <+: name
  · rcases h.rpc_local_id hlocal with hreserved | ⟨hingress, z, hz, hne⟩
    · exact absurd hreserved hother
    have hunset : BitVec.ofInt 64 z ≠ (-1 : RPCID) := by
      have hrange : -2 ^ 63 ≤ z ∧ z ≤ 2 ^ 63 - 1 := stoll_range hz
      intro heq
      have hint := congrArg BitVec.toInt heq
      rw [BitVec.toInt_ofInt_eq_self (by omega) (by omega) (by omega)] at hint
      exact hne hint
    rw [if_pos hlocal, hz, ok_bind]
    subst hingress
    dsimp only
    rw [if_neg hunset]
  · rw [if_neg hlocal, if_neg fun hp => hother (h.priority hp)]

end Harmless

theorem lastNumber_singleton (key : Bytes) (h : Bytes × Bytes) :
    lastNumber key [h] = if Named key h.1 then Decimal.number h.2 else none := Option.none_or

theorem stoll_number {value : Bytes} {z : ℤ} (hz : Decimal.number value = some z)
    (hlow : -2 ^ 63 ≤ z) (hhigh : z < 2 ^ 63) : stoll value = .ok z := by
  unfold stoll
  rw [Decimal.stoll_number hz hlow (by omega)]

/-- A header that sets one of the numbers leaves the others as they are. -/
theorem lastNumber_of_named {key name value : Bytes} {z : ℤ} (hname : Named key name)
    (hkey : key = RPC_ID ∨ key = RPC_LOCAL_ID ∨ key = PRIORITY)
    (hz : Decimal.number value = some z) :
    lastNumber RPC_ID [(name, value)] = (if key = RPC_ID then some z else none)
      ∧ lastNumber RPC_LOCAL_ID [(name, value)] = (if key = RPC_LOCAL_ID then some z else none)
      ∧ lastNumber PRIORITY [(name, value)] = if key = PRIORITY then some z else none := by
  rw [lastNumber_singleton, lastNumber_singleton, lastNumber_singleton, hz]
  rcases hkey with rfl | rfl | rfl
  all_goals
    rcases hname with rfl | rfl
    · exact ⟨rfl, rfl, rfl⟩
    · exact ⟨rfl, rfl, rfl⟩

/-- **One header** that is for the sidecar is read as the number that it has. -/
theorem read_reserved (config : IdConfig) {type : ConnectionType} (counter : RPCID) (f : IdFields)
    {name value : Bytes} {z : ℤ} (hname : Reserved name) (hz : Decimal.number value = some z)
    (hrange : InRange type name z) :
    ∃ f' counter', IdFields.read config type counter f name value = .ok (f', counter')
      ∧ ReadAs config type [(name, value)] f f' := by
  unfold IdFields.read
  rcases hname with hname | hname | hname
  · -- `rpc-id`: on an ingress request it becomes the local id, otherwise nothing reads it
    obtain ⟨hlow, hhigh⟩ := hrange.1 hname
    obtain ⟨hid, hlocal, hpriority⟩ := lastNumber_of_named hname (.inl rfl) hz
    rw [if_pos hname.prefix, stoll_number hz hlow hhigh, ok_bind]
    dsimp only
    by_cases hnew : config.is_ingress = true ∨ type = .INGRESS
    · rw [if_pos hnew]
      refine ⟨_, _, rfl, by rw [hid]; rfl, by rw [hpriority]; rfl, ?_⟩
      rintro rfl hingress
      rw [hingress] at hnew
      exact absurd hnew (by decide)
    · rw [if_neg hnew]
      exact ⟨_, _, rfl, by rw [hid]; rfl, by rw [hpriority]; rfl, fun _ _ => by rw [hlocal]; rfl⟩
  · -- `rpc-local-id`: the id itself on an ingress request, its parent on an egress one
    have hother : ¬ RPC_ID <+: name := by
      rcases hname with rfl | rfl
      · decide
      · decide
    obtain ⟨hid, hlocal, hpriority⟩ := lastNumber_of_named hname (.inr (.inl rfl)) hz
    rw [if_neg hother, if_pos hname.prefix]
    cases type with
    | INGRESS =>
        obtain ⟨hlow, hhigh, hne⟩ := hrange.2.1 hname
        have hunset : BitVec.ofInt 64 z ≠ (-1 : RPCID) := by
          intro heq
          have hint := congrArg BitVec.toInt heq
          rw [BitVec.toInt_ofInt_eq_self (by omega) (by omega) (by omega)] at hint
          exact hne hint
        rw [stoll_number hz hlow hhigh, ok_bind]
        dsimp only
        rw [if_neg hunset]
        refine ⟨_, _, rfl, by rw [hid]; rfl, by rw [hpriority]; rfl, ?_⟩
        intro h
        cases h
    | EGRESS =>
        obtain ⟨hlow, hhigh⟩ := hrange.2.1 hname
        have hint : (BitVec.ofInt 64 z).toInt = z :=
          BitVec.toInt_ofInt_eq_self (by omega) (by omega) (by omega)
        have hnat : (BitVec.ofInt 64 z).toNat < 2 ^ 32 := by
          have hcast := BitVec.toInt_eq_toNat_cond (BitVec.ofInt 64 z)
          rw [hint] at hcast
          split_ifs at hcast
          · omega
          · omega
        rw [stoll_number hz (by omega) (by omega), ok_bind]
        dsimp only
        rw [hint, if_neg (by omega)]
        refine ⟨_, _, rfl, by rw [hid]; rfl, by rw [hpriority]; rfl, fun _ _ => ?_⟩
        rw [hlocal]
        exact get_new_local_id_parent counter hnat
  · -- `priority`
    have hother : ¬ RPC_ID <+: name ∧ ¬ RPC_LOCAL_ID <+: name := by
      rcases hname with rfl | rfl
      · decide
      · decide
    obtain ⟨hlow, hhigh⟩ := hrange.2.2 hname
    obtain ⟨hid, hlocal, hpriority⟩ := lastNumber_of_named hname (.inr (.inr rfl)) hz
    rw [if_neg hother.1, if_neg hother.2, if_pos hname.prefix,
      stoll_number hz (by omega) (by omega)]
    exact ⟨_, _, rfl, by rw [hid]; rfl, by rw [hpriority]; rfl, fun _ _ => by rw [hlocal]; rfl⟩

/-- A header with another name says nothing about the fields. -/
theorem ReadAs.other (config : IdConfig) (type : ConnectionType) {h : Bytes × Bytes}
    (hother : ¬ Reserved h.1) (f : IdFields) : ReadAs config type [h] f f := by
  have hnone : ∀ key, (Named key h.1 → Reserved h.1) → lastNumber key [h] = none := by
    intro key hkey
    rw [lastNumber_singleton, if_neg fun hname => hother (hkey hname)]
  have hid := hnone RPC_ID .inl
  have hlocal := hnone RPC_LOCAL_ID fun hname => .inr (.inl hname)
  have hpriority := hnone PRIORITY fun hname => .inr (.inr hname)
  exact ⟨by rw [hid]; rfl, by rw [hpriority]; rfl, fun _ _ => by rw [hlocal]⟩

/-- **The last header counts**: a header and the ones behind it, where these have the last word. -/
theorem ReadAs.cons {config : IdConfig} {type : ConnectionType} {h : Bytes × Bytes}
    {hs : List (Bytes × Bytes)} {f f₁ f₂ : IdFields} (hfirst : ReadAs config type [h] f f₁)
    (hrest : ReadAs config type hs f₁ f₂) : ReadAs config type (h :: hs) f f₂ := by
  have hcons : ∀ key, lastNumber key (h :: hs) = (lastNumber key hs).or (lastNumber key [h]) := by
    intro key
    rw [lastNumber_singleton]
    rfl
  refine ⟨?_, ?_, fun htype hingress => ?_⟩
  · rw [hcons, hrest.global_id, hfirst.global_id]
    cases lastNumber RPC_ID hs <;> rfl
  · rw [hcons, hrest.priority, hfirst.priority]
    cases lastNumber PRIORITY hs <;> rfl
  · have hlast := hrest.local_id htype hingress
    have hone := hfirst.local_id htype hingress
    rw [hcons]
    -- The last header of a name decides; the first counts only where the rest has none.
    cases hnumber : lastNumber RPC_LOCAL_ID hs with
    | some z =>
        rw [hnumber] at hlast
        exact hlast
    | none =>
        rw [hnumber] at hlast
        dsimp only at hlast
        rw [hlast]
        exact hone

/-- `IdFields.read` for each header, as the loop over a request makes it. -/
def IdFields.readAll (config : IdConfig) (type : ConnectionType) :
    List (Bytes × Bytes) → RPCID → IdFields → Except Abort (IdFields × RPCID)
  | [], counter, f => .ok (f, counter)
  | h :: hs, counter, f => do
    let (f, counter) ← IdFields.read config type counter f h.1 h.2
    readAll config type hs counter f

/-- What a list of harmless headers makes of the fields. -/
theorem readAll_ok (config : IdConfig) {type : ConnectionType} {hs : List (Bytes × Bytes)}
    (hharmless : ∀ h ∈ hs, Harmless type h.1 h.2)
    (hnumber : ∀ h ∈ hs, Reserved h.1 → ∃ z, Decimal.number h.2 = some z ∧ InRange type h.1 z)
    (counter : RPCID) (f : IdFields) : ∃ f' counter',
      IdFields.readAll config type hs counter f = .ok (f', counter')
        ∧ ReadAs config type hs f f' := by
  induction hs generalizing counter f with
  | nil => exact ⟨f, counter, rfl, rfl, rfl, fun _ _ => rfl⟩
  | cons h hs ih =>
      -- the first header, whatever its name
      obtain ⟨f₁, c₁, hread, hfirst⟩ : ∃ f₁ c₁,
          IdFields.read config type counter f h.1 h.2 = .ok (f₁, c₁)
            ∧ ReadAs config type [h] f f₁ := by
        by_cases hname : Reserved h.1
        · obtain ⟨z, hz, hrange⟩ := hnumber h List.mem_cons_self hname
          exact read_reserved config counter f hname hz hrange
        · exact ⟨f, counter, (hharmless h List.mem_cons_self).read_other hname config counter f,
            .other config type hname f⟩
      obtain ⟨f₂, c₂, hrun, hrest⟩ := ih (fun x hx => hharmless x (List.mem_cons_of_mem _ hx))
        (fun x hx => hnumber x (List.mem_cons_of_mem _ hx)) c₁ f₁
      refine ⟨f₂, c₂, ?_, hfirst.cons hrest⟩
      unfold IdFields.readAll
      rw [hread]
      exact hrun

/-- **A message takes up harmless headers**, if it has room for those that are stored. -/
theorem Message.add_request_ok {config : IdConfig} {type : ConnectionType}
    {hs : List (Bytes × Bytes)} (hharmless : ∀ h ∈ hs, Harmless type h.1 h.2)
    {counter counter' : RPCID} {m : Message} {f : IdFields} (htype : m.rpc.type = type)
    (hread : IdFields.readAll config type hs counter m.fields = .ok (f, counter'))
    (hroom : m.req_headers.count + (storedHeaders type hs).length ≤ maxHeaderFieldNumber) :
    ∃ m', m.add_request config hs counter = .ok (m', counter') ∧ m'.fields = f
      ∧ m'.req_headers.text = m.req_headers.text ++ storedHeaders type hs := by
  induction hs generalizing counter m with
  | nil =>
      obtain ⟨rfl, rfl⟩ := Prod.mk.inj (Except.ok.inj hread)
      exact ⟨m, rfl, rfl, (List.append_nil _).symm⟩
  | cons h hs ih =>
      obtain ⟨⟨f₁, c₁⟩, hfirst, hrest⟩ := bind_eq_ok.mp hread
      have hh := hharmless h List.mem_cons_self
      have hdropped : Dropped m.rpc.type h.1 ↔ type = .EGRESS ∧ Named RPC_LOCAL_ID h.1 := by
        rw [htype]
        exact hh.dropped_iff
      -- the first header is stored unless it is dropped
      have hstored : storedHeaders type (h :: hs)
          = (if Dropped m.rpc.type h.1 then [] else [h]) ++ storedHeaders type hs := by
        unfold storedHeaders
        rw [List.filter_cons]
        by_cases hd : Dropped m.rpc.type h.1
        · have hlocal := hdropped.mp hd
          rw [if_pos hd, decide_eq_false (not_not.mpr hlocal)]
          rfl
        · have hlocal : ¬ (type = .EGRESS ∧ Named RPC_LOCAL_ID h.1) :=
            fun hlocal => hd (hdropped.mpr hlocal)
          rw [if_neg hd, decide_eq_true hlocal]
          rfl
      have hlength := congrArg List.length hstored
      rw [List.length_append] at hlength
      obtain ⟨m₁, hadd, hfields, htype₁, htext, hcount⟩ := Message.add_header_field_ok (m := m)
        hh.path (by rw [htype]; exact hfirst) fun hd => by
          rw [if_neg hd, List.length_singleton] at hlength
          exact ⟨by omega, hh.terminated fun hlocal => hd (hdropped.mpr hlocal)⟩
      have hroom₁ : m₁.req_headers.count + (storedHeaders type hs).length
          ≤ maxHeaderFieldNumber := by
        rw [hcount]
        split_ifs at hlength ⊢
        · rw [List.length_nil] at hlength
          omega
        · rw [List.length_singleton] at hlength
          omega
      obtain ⟨m', hrun, hf, htext'⟩ := ih (fun x hx => hharmless x (List.mem_cons_of_mem _ hx))
        (htype₁.trans htype) (by rw [hfields]; exact hrest) hroom₁
      refine ⟨m', ?_, hf, ?_⟩
      · unfold Message.add_request
        rw [hadd]
        exact hrun
      · rw [htext', htext, hstored, List.append_assoc]

/-! ## Which requests are interpreted exactly -/

/-- A new message of a connection of this type, with these fields. -/
def Message.fresh (type : ConnectionType) (f : IdFields) : Message :=
  .grpc
    { gRPCMessage.create
      { RPCMapper.blankMessage .HTTP2 type f.priority with local_id := f.local_id } with
      ids.global_id := f.global_id }

/-- A run that succeeds has read each of its headers, so each was small enough or was dropped. -/
theorem Message.header_of_request {config : IdConfig} {hs : List (Bytes × Bytes)}
    {counter counter' : RPCID} {m m' : Message} (hnames : ∀ h ∈ hs, cstring h.1 = PATH → h.2 ≠ [])
    (hrun : m.add_request config hs counter = .ok (m', counter')) {h : Bytes × Bytes}
    (hmem : h ∈ hs) :
    Dropped m.rpc.type h.1 ∨ h.1.length < maxHeaderFieldSize ∧ h.2.length < maxHeaderFieldSize := by
  induction hs generalizing counter m with
  | nil => cases hmem
  | cons x hs ih =>
      obtain ⟨⟨m₁, c₁⟩, hadd, hrest⟩ := bind_eq_ok.mp hrun
      obtain ⟨_, htype, hroom⟩ := Message.add_header_field_inv (hnames x List.mem_cons_self) hadd
      rcases List.mem_cons.mp hmem with rfl | hmem
      · exact hroom.imp And.left And.right
      · have hlater := ih (fun y hy => hnames y (List.mem_cons_of_mem _ hy)) hrest hmem
        rw [htype] at hlater
        exact hlater

namespace InterpretedExactly

variable {config : IdConfig} {type : ConnectionType} {hs : List (Bytes × Bytes)} {h : Bytes × Bytes}

/-- Read in a new message, a header with another name shows that it is harmless. -/
theorem harmless_other (hexact : InterpretedExactly config type hs) (hmem : h ∈ hs)
    (hother : ¬ Reserved h.1) :
    Harmless type h.1 h.2 := by
  have hroom : ∀ f, (Message.fresh type f).req_headers.count < maxHeaderFieldNumber :=
    fun _ => Nat.succ_pos _
  have hpath : cstring h.1 = PATH → h.2 ≠ [] := by
    intro hname hvalue
    obtain ⟨m', hadd, _⟩ := hexact.others h hmem hother 0 (.fresh type ⟨0, 0, 0⟩) rfl (hroom _)
    unfold Message.fresh Message.add_header_field gRPCMessage.add_header_field
      gRPCMessage.read_path at hadd
    dsimp only at hadd
    rw [if_pos hname, if_pos hvalue] at hadd
    cases hadd
  -- nothing is set, whatever the fields are
  have hread : ∀ f, IdFields.read config type 0 f h.1 h.2 = .ok (f, 0) ∧ ¬ Dropped type h.1
      ∧ h.1.length < maxHeaderFieldSize ∧ h.2.length < maxHeaderFieldSize := by
    intro f
    obtain ⟨m', hadd, hfields, htext⟩ := hexact.others h hmem hother 0 (.fresh type f) rfl (hroom f)
    obtain ⟨hread, _, hroom⟩ := Message.add_header_field_inv hpath hadd
    rw [hfields] at hread
    rcases hroom with ⟨_, hkept⟩ | hroom
    · rw [hkept] at htext
      exact absurd (congrArg List.length htext) (by simp)
    · exact ⟨hread, hroom⟩
  obtain ⟨_, hkept, hname, hvalue⟩ := hread ⟨0, 0, 0⟩
  refine ⟨fun _ => ⟨hname, hvalue⟩, fun hprefix => ?_, fun hprefix => ?_, fun hprefix => ?_, hpath⟩
  · exfalso
    have hset : ∀ g : RPCID, ∃ z : ℤ, stoll h.2 = .ok z ∧ BitVec.ofInt 64 z = g := by
      intro g
      have hr := (hread ⟨g, 0, 0⟩).1
      unfold IdFields.read at hr
      rw [if_pos hprefix] at hr
      obtain ⟨z, hz, hr⟩ := bind_eq_ok.mp hr
      refine ⟨z, hz, ?_⟩
      dsimp only at hr
      split_ifs at hr
      · exact congrArg IdFields.global_id (Prod.mk.inj (Except.ok.inj hr)).1
      · exact congrArg IdFields.global_id (Prod.mk.inj (Except.ok.inj hr)).1
    obtain ⟨z, hz, hzero⟩ := hset 0
    obtain ⟨z', hz', hone⟩ := hset 1
    obtain rfl := Except.ok.inj (hz.symm.trans hz')
    exact absurd (hzero.symm.trans hone) (by decide)
  · exfalso
    have hset : ∀ p : Priority, ∃ z : ℤ, stoll h.2 = .ok z ∧ BitVec.ofInt 32 z = p := by
      intro p
      have hr := (hread ⟨0, 0, p⟩).1
      unfold IdFields.read at hr
      rw [if_neg fun hid => priority_alone (.inl hid) hprefix,
        if_neg fun hlocal => priority_alone (.inr hlocal) hprefix, if_pos hprefix] at hr
      obtain ⟨z, hz, hr⟩ := bind_eq_ok.mp hr
      exact ⟨z, hz, congrArg IdFields.priority (Prod.mk.inj (Except.ok.inj hr)).1⟩
    obtain ⟨z, hz, hzero⟩ := hset 0
    obtain ⟨z', hz', hone⟩ := hset 1
    obtain rfl := Except.ok.inj (hz.symm.trans hz')
    exact absurd (hzero.symm.trans hone) (by decide)
  · right
    have hid : ¬ RPC_ID <+: h.1 := fun hid =>
      absurd (List.prefix_of_prefix_length_le hid hprefix (by decide)) (by decide)
    cases type with
    | EGRESS => exact absurd ⟨rfl, hprefix⟩ hkept
    | INGRESS =>
        refine ⟨rfl, ?_⟩
        have hr := (hread ⟨0, 0, 0⟩).1
        unfold IdFields.read at hr
        rw [if_neg hid, if_pos hprefix] at hr
        obtain ⟨z, hz, hr⟩ := bind_eq_ok.mp hr
        refine ⟨z, hz, ?_⟩
        rintro rfl
        cases hr

end InterpretedExactly

/-- **Headers are interpreted by their exact names** exactly if each of them is harmless: if it
does not go on after a reserved name, leaves room for the zero bytes, and is no empty path. The
list keeps to the limits of a message, and its reserved headers have numbers in range (`hlimited`);
others end the process, whatever their names. -/
theorem interpreted_exactly_iff {config : IdConfig} {type : ConnectionType}
    {hs : List (Bytes × Bytes)} (hlimited : Limited type hs) :
    InterpretedExactly config type hs ↔ ∀ h ∈ hs, Harmless type h.1 h.2 := by
  constructor
  · intro hexact h hmem
    by_cases hname : Reserved h.1
    · obtain ⟨hid, hlocal, hpriority, hpath, hlength⟩ := hname.named
      refine ⟨fun hstored => ⟨hlength, ?_⟩, fun _ => hname, fun _ => hname, fun _ => .inl hname,
        fun hp => absurd hp hpath⟩
      -- the run over the whole list has stored its value
      have hnames : ∀ x ∈ hs, cstring x.1 = PATH → x.2 ≠ [] := by
        intro x hx hp
        have hother : ¬ Reserved x.1 := fun hreserved => hreserved.named.2.2.2.1 hp
        exact (hexact.harmless_other hx hother).path hp
      obtain ⟨after, counter', _, hruns⟩ := hexact.request 0 ⟨0, 0, 0⟩
      have hroom := hlimited.count
      obtain ⟨m', hrun, _⟩ := hruns (.fresh type ⟨0, 0, 0⟩) rfl rfl
        (by rw [show (Message.fresh type ⟨0, 0, 0⟩).req_headers.count = 0 from rfl]; omega)
      rcases Message.header_of_request hnames hrun hmem with hdropped | hroom'
      · exact absurd ⟨hdropped.1, hlocal hdropped.2⟩ hstored
      · exact hroom'.2
    · exact hexact.harmless_other hmem hname
  · intro hharmless
    refine ⟨fun h hmem hother counter m htype hroom => ?_, fun counter before => ?_⟩
    · have hh := hharmless h hmem
      have hkept : ¬ Dropped m.rpc.type h.1 := by
        rw [htype, hh.dropped_iff]
        exact fun hd => hother (.inr (.inl hd.2))
      obtain ⟨m', hadd, hfields, _, htext, _⟩ := Message.add_header_field_ok (m := m) hh.path
        (by rw [htype]; exact hh.read_other hother config counter m.fields)
        fun _ => ⟨hroom, hh.terminated fun hd => hother (.inr (.inl hd.2))⟩
      rw [if_neg hkept] at htext
      exact ⟨m', hadd, hfields, htext⟩
    · obtain ⟨after, counter', hread, has⟩ :=
        readAll_ok config hharmless hlimited.number counter before
      refine ⟨after, counter', has, fun m htype hfields hroom => ?_⟩
      exact Message.add_request_ok hharmless htype (by rw [hfields]; exact hread) hroom

/-- "x", a name that is not reserved. -/
def X : Bytes := [120]

/-- A request with the ids of the mesh and one header of its own. -/
theorem interpreted_exactly_egress :
    Limited .EGRESS [(RPC_ID ++ [0], [55]), (X, X), (RPC_LOCAL_ID, [51])]
      ∧ (InterpretedExactly ⟨false, false⟩ .EGRESS [(RPC_ID ++ [0], [55]),
        (X, X), (RPC_LOCAL_ID, [51])]
        ↔ ∀ h ∈ [(RPC_ID ++ [0], [55]), (X, X), (RPC_LOCAL_ID, [51])],
          Harmless .EGRESS h.1 h.2) := by
  have hlimited : Limited .EGRESS [(RPC_ID ++ [0], [55]), (X, X), (RPC_LOCAL_ID, [51])] := by
    refine ⟨by decide, by decide, ?_⟩
    intro h hmem _
    rcases List.mem_cons.mp hmem with rfl | hmem
    · refine ⟨7, by decide, fun _ => by decide, fun hname => ?_, fun _ => by decide⟩
      exact absurd hname (by decide)
    rcases List.mem_cons.mp hmem with rfl | hmem
    · rename_i hname
      exact absurd hname (by decide)
    obtain rfl := List.mem_singleton.mp hmem
    exact ⟨3, by decide, fun _ => by decide, fun _ => by decide, fun _ => by decide⟩
  exact ⟨hlimited, interpreted_exactly_iff hlimited⟩

/-- A header `rpc-idx` is read as `rpc-id`, since the comparison is over the length of the constant
only. -/
theorem longer_name : ¬ ∀ (config : IdConfig) (type : ConnectionType) (hs : List (Bytes × Bytes)),
    Limited type hs → InterpretedExactly config type hs := by
  intro hall
  have hlimited : Limited .EGRESS [(RPC_ID ++ X, X)] := by
    refine ⟨by decide, by decide, ?_⟩
    intro h hmem hname
    obtain rfl := List.mem_singleton.mp hmem
    exact absurd hname (by decide)
  obtain ⟨m', hadd, _⟩ := (hall ⟨false, false⟩ .EGRESS _ hlimited).others (RPC_ID ++ X, X)
    List.mem_cons_self (by decide) 0 (.fresh .EGRESS ⟨0, 0, 0⟩) rfl (Nat.succ_pos _)
  unfold Message.fresh Message.add_header_field at hadd
  dsimp only at hadd
  rw [gRPCMessage.add_request_header _ _ _ (by decide)] at hadd
  cases hadd

end RlpSidecar
