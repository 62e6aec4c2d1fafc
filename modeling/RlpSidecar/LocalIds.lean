/-
Local ids on their way to the local service and back.

An id of an ingress RPC is sent to the service as decimal text, and the service puts that text on
the requests it makes for this RPC. Such a request gets an id of its own, with the received number
in the upper half, and `get_ingress_rpc` finds the ingress RPC under the upper half. Only the lower
32 bits of the counter go into an id. They are zero once in `2 ^ 32` allocations, and zero cannot
come back: it is out of the range that `add_header_field` accepts.

`Echoed` says what is asked of an id: whatever registry holds the ingress RPC under it, both kinds
of messages send it, and a request that brings it back finds the RPC. `echoed_iff` says which ids
have that property, and `local_ids_echoed` which allocations make such an id: all but those at
which the lower half of the counter is zero.
-/
import RlpSidecar.Messages
import RlpSidecar.RpcMapper

set_option autoImplicit false

namespace RlpSidecar

/-! ## Allocations -/

/-- A call of `get_new_local_id`: for a request to the local service, or for one that the service
makes for the RPC `parent`. -/
inductive IdRequest
  | ingress
  | egress (parent : RPCID)
  deriving DecidableEq, Repr

namespace IdRequest

/-- The id that the new one is derived from: that of the ingress RPC, or zero for an ingress RPC
itself. -/
def parent : IdRequest → RPCID
  | .ingress => 0
  | .egress parent => parent

/-- The ids that a series of requests gets, in which each takes the next value of the counter. -/
def allocate (local_id_counter : RPCID) : List IdRequest → List RPCID
  | [] => []
  | r :: rs =>
    let (id, local_id_counter) := get_new_local_id local_id_counter r.parent
    id :: allocate local_id_counter rs

/-- Each allocation takes the next value of the counter, whatever it is for. -/
theorem allocate_getElem? (rs : List IdRequest) (counter : RPCID) (k : ℕ) :
    (allocate counter rs)[k]?
      = rs[k]?.map fun r => (get_new_local_id (counter + BitVec.ofNat 64 k) r.parent).1 := by
  induction rs generalizing counter k with
  | nil => rfl
  | cons r rs ih =>
      rw [allocate]
      cases k with
      | zero => simp
      | succ k =>
          rw [List.getElem?_cons_succ, List.getElem?_cons_succ, get_new_local_id_snd, ih]
          have hshift : counter + 1 + BitVec.ofNat 64 k = counter + BitVec.ofNat 64 (k + 1) := by
            rw [BitVec.ofNat_add, BitVec.add_assoc]
            exact congrArg _ (BitVec.add_comm _ _)
          rw [hshift]

/-- **The id of an ingress RPC** is the number of the allocation, modulo `2 ^ 32`. The counter
starts at one and is incremented first. -/
theorem ingress_id {rs : List IdRequest} {k : ℕ} {id : RPCID} (hk : rs[k]? = some .ingress)
    (hid : (allocate 1 rs)[k]? = some id) : id.toNat = (k + 2) % 2 ^ 32 := by
  rw [allocate_getElem?, hk] at hid
  obtain rfl := Option.some.inj hid
  have hone : (1 : RPCID).toNat = 1 := rfl
  have hparent : (parent .ingress).toNat = 0 := rfl
  rw [get_new_local_id_toNat, BitVec.toNat_add, BitVec.toNat_ofNat, hone, hparent]
  omega

end IdRequest

/-! ## There and back -/

/-- The text of `rpc-local-id` that is sent to the local service with the id `L`, by a message that
has room for it. -/
def Sends (L : RPCID) (text : Bytes) : Prop :=
  ∀ (config : IdConfig) (local_id_counter : RPCID) (m : Message), m.rpc.type = .INGRESS →
    m.rpc.local_id = L → m.req_headers.count < maxHeaderFieldNumber →
      ∃ m', m.set_local_id_header config local_id_counter = .ok (m', local_id_counter)
        ∧ m'.req_headers.text = m.req_headers.text ++ [(RPC_LOCAL_ID, text)]

/-- A request of the service with this text in `rpc-local-id` is accepted, and the id it gets leads
to the ingress RPC. -/
def LeadsTo (text : Bytes) {n : ℕ} (rpc_mapper : RPCMapper n) (rpc : Fin n) : Prop :=
  ∀ (config : IdConfig) (local_id_counter : RPCID) (m : Message), m.rpc.type = .EGRESS →
    ∃ m' local_id_counter',
      m.add_header_field config local_id_counter RPC_LOCAL_ID text true false
          = .ok (m', local_id_counter')
        ∧ rpc_mapper.get_ingress_rpc m'.rpc.local_id = .ok rpc

/-- **The id comes back**: in every registry that holds an ingress RPC under it. -/
def Echoed (L : RPCID) : Prop :=
  ∃ text, Sends L text ∧ ∀ (n : ℕ) (rpc_mapper : RPCMapper n) (rpc : Fin n),
    (rpc_mapper.id_map .INGRESS).lookup L = some rpc → LeadsTo text rpc_mapper rpc

/-! ### What is sent -/

theorem length_ofInt_lt (L : RPCID) : (Decimal.ofInt L.toInt).length < maxHeaderFieldSize := by
  have hlow := BitVec.le_toInt L
  have hhigh := BitVec.toInt_lt (x := L)
  have hdigits : (Decimal.digits L.toInt.natAbs L.toInt.natAbs).length ≤ 20 :=
    Decimal.length_digits_le (by omega) (by omega)
  unfold Decimal.ofInt Decimal.ofNat
  split_ifs
  · rw [List.length_cons]
    unfold maxHeaderFieldSize
    omega
  · unfold maxHeaderFieldSize
    omega

/-- The text of an id is read as the id, since the header has it as a signed number. -/
theorem stoll_local_id (L : RPCID) : stoll (Decimal.ofInt L.toInt) = .ok L.toInt := by
  have hlow := BitVec.le_toInt L
  have hhigh := BitVec.toInt_lt (x := L)
  have hread : Decimal.stoll (Decimal.ofInt L.toInt ++ []) = .ok L.toInt :=
    Decimal.stoll_ofInt (by omega) (by omega) (by simp)
  rw [List.append_nil] at hread
  unfold stoll
  rw [hread]

/-- A request header `rpc-local-id` with the text of an id. The id is set from it; in an EGRESS
message the header itself is not stored. -/
theorem read_local_id (config : IdConfig) (counter : RPCID) (m : Identified) (L : RPCID) :
    read_request_header config counter m RPC_LOCAL_ID (Decimal.ofInt L.toInt) = (do
      let (rpc, counter') ← m.rpc.add_header_field config counter (.rpc_local_id L)
      .ok ({ m with rpc := rpc }, counter', decide (m.rpc.type = .EGRESS))) := by
  unfold read_request_header
  rw [if_neg (by decide), if_pos (by decide), stoll_local_id, ok_bind, BitVec.ofInt_toInt]

/-- On an ingress request the header changes nothing but the header list. -/
theorem read_local_id_ingress {config : IdConfig} {counter : RPCID} {m : Identified} {L : RPCID}
    (htype : m.rpc.type = .INGRESS) (hL : L ≠ -1) :
    read_request_header config counter m RPC_LOCAL_ID (Decimal.ofInt L.toInt)
      = .ok (m, counter, false) := by
  rw [read_local_id]
  unfold RPCMessage.add_header_field
  dsimp only
  rw [htype, if_neg hL]
  rfl

/-- On an egress request the number is the parent of a new id. -/
theorem read_local_id_egress {config : IdConfig} {counter : RPCID} {m : Identified} {L : RPCID}
    (htype : m.rpc.type = .EGRESS) (hlow : 0 < L.toInt) (hhigh : L.toInt ≤ 2 ^ 32 - 1) :
    read_request_header config counter m RPC_LOCAL_ID (Decimal.ofInt L.toInt)
      = .ok ({ m with rpc.local_id := (get_new_local_id counter L).1 }, counter + 1, true) := by
  have hrange : ¬ (L.toInt ≤ 0 ∨ L.toInt > 2 ^ 32 - 1) := by omega
  rw [read_local_id]
  unfold RPCMessage.add_header_field
  dsimp only
  rw [htype]
  dsimp only
  rw [if_neg hrange]
  rfl

theorem sends_local_id {L : RPCID} (hL : L ≠ -1) : Sends L (Decimal.ofInt L.toInt) := by
  intro config counter m htype hid hcount
  subst hid
  have hname : RPC_LOCAL_ID.length < maxHeaderFieldSize := by decide
  obtain ⟨headers, hadd⟩ := HeaderList.add_exists hcount hname (length_ofInt_lt m.rpc.local_id)
  have htext := (HeaderList.add_text hadd).1
  -- Both kinds of message store the same text; they differ in the record around it.
  cases m with
  | grpc m =>
      refine ⟨.grpc { m with req_headers := headers }, ?_, htext⟩
      dsimp only [Message.rpc, Message.req_headers] at htype hL hadd
      unfold Message.set_local_id_header gRPCMessage.set_local_id_header
      dsimp only
      rw [gRPCMessage.add_request_header _ _ _ (by decide), read_local_id_ingress htype hL, ok_bind]
      dsimp only
      rw [if_neg Bool.false_ne_true, hadd]
      rfl
  | http m =>
      refine ⟨.http { m with req_headers := headers }, ?_, htext⟩
      dsimp only [Message.rpc, Message.req_headers] at htype hL hadd
      unfold Message.set_local_id_header HTTPMessage.set_local_id_header
      dsimp only
      rw [HTTPMessage.add_request_header, read_local_id_ingress htype hL, ok_bind]
      dsimp only
      rw [if_neg Bool.false_ne_true, hadd]
      rfl

/-! ### What comes back -/

/-- An egress message whose `rpc-local-id` is in range gets an id of its own, derived from that
one. -/
theorem add_local_id {L : RPCID} (hlow : 0 < L.toInt) (hhigh : L.toInt ≤ 2 ^ 32 - 1)
    (config : IdConfig) (counter : RPCID) {m : Message} (htype : m.rpc.type = .EGRESS) :
    ∃ m', m.add_header_field config counter RPC_LOCAL_ID (Decimal.ofInt L.toInt) true false
          = .ok (m', counter + 1)
      ∧ m'.rpc.local_id = (get_new_local_id counter L).1 := by
  cases m with
  | grpc m =>
      refine ⟨.grpc { m with ids.rpc.local_id := (get_new_local_id counter L).1 }, ?_, rfl⟩
      dsimp only [Message.rpc] at htype
      unfold Message.add_header_field
      dsimp only
      rw [gRPCMessage.add_request_header _ _ _ (by decide), read_local_id_egress htype hlow hhigh]
      rfl
  | http m =>
      refine ⟨.http { m with ids.rpc.local_id := (get_new_local_id counter L).1 }, ?_, rfl⟩
      dsimp only [Message.rpc] at htype
      unfold Message.add_header_field
      dsimp only
      rw [HTTPMessage.add_request_header, read_local_id_egress htype hlow hhigh]
      rfl

/-- The upper half of an id is the parent's number, for parents of at most 32 bits. -/
theorem get_new_local_id_parent (counter : RPCID) {parent : RPCID} (h : parent.toNat < 2 ^ 32) :
    (get_new_local_id counter parent).1 >>> 32 = parent := by
  apply BitVec.eq_of_toNat_eq
  rw [BitVec.toNat_ushiftRight, get_new_local_id_toNat, Nat.shiftRight_eq_div_pow]
  omega

theorem leads_to_ingress {L : RPCID} (hne : L ≠ 0) (hL : L.toNat < 2 ^ 32) {n : ℕ}
    {rpc_mapper : RPCMapper n} {rpc : Fin n}
    (hrpc : (rpc_mapper.id_map .INGRESS).lookup L = some rpc) :
    LeadsTo (Decimal.ofInt L.toInt) rpc_mapper rpc := by
  intro config counter m htype
  have hint : L.toInt = L.toNat := BitVec.toInt_eq_toNat_of_lt (by omega)
  have hpos : L.toNat ≠ 0 := fun h => hne (BitVec.eq_of_toNat_eq h)
  have hlow : 0 < L.toInt := by omega
  have hhigh : L.toInt ≤ 2 ^ 32 - 1 := by omega
  obtain ⟨m', hadd, hid⟩ := add_local_id hlow hhigh config counter htype
  refine ⟨m', counter + 1, hadd, ?_⟩
  unfold RPCMapper.get_ingress_rpc
  dsimp only
  rw [hid, get_new_local_id_parent counter hL, if_neg hne, hrpc]

/-- A message of a type, with an id and no headers, to which the header with the id is added. -/
def Message.withId (type : ConnectionType) (L : RPCID) : Message :=
  .http (.create { RPCMapper.blankMessage .HTTP1 type 0 with local_id := L })

/-- Only one text is sent for an id: the header is written from the message alone. -/
theorem sends_unique {L : RPCID} {text text' : Bytes} (h : Sends L text) (h' : Sends L text') :
    text = text' := by
  obtain ⟨m, hset, htext⟩ := h ⟨false, false⟩ 0 (.withId .INGRESS L) rfl rfl (Nat.succ_pos _)
  obtain ⟨m', hset', htext'⟩ := h' ⟨false, false⟩ 0 (.withId .INGRESS L) rfl rfl (Nat.succ_pos _)
  rw [hset] at hset'
  obtain rfl := (Prod.mk.inj (Except.ok.inj hset')).1
  rw [htext] at htext'
  exact (Prod.mk.inj (List.singleton_inj.mp (List.append_cancel_left htext'))).2

/-- A zero is out of the range that is accepted, so an answer with it is for no request. -/
theorem zero_leads_nowhere {n : ℕ} (rpc_mapper : RPCMapper n) (rpc : Fin n) :
    ¬ LeadsTo (Decimal.ofInt (0 : RPCID).toInt) rpc_mapper rpc := by
  intro h
  obtain ⟨m', counter, hadd, _⟩ := h ⟨false, false⟩ 0 (.withId .EGRESS 0) rfl
  unfold Message.add_header_field Message.withId at hadd
  dsimp only at hadd
  rw [HTTPMessage.add_request_header, read_local_id] at hadd
  simp [RPCMessage.add_header_field, HTTPMessage.create, RPCMapper.blankMessage] at hadd
  cases hadd

/-- **Which ids come back**, of those that fit into a parent's half. -/
theorem echoed_iff {L : RPCID} (hL : L.toNat < 2 ^ 32) : Echoed L ↔ L ≠ 0 := by
  have hsent : L ≠ -1 := by
    rintro rfl
    revert hL
    decide
  constructor
  · rintro ⟨text, hsends, hleads⟩ rfl
    obtain rfl := sends_unique hsends (sends_local_id hsent)
    let rpc_mapper : RPCMapper 1 :=
      { RPCMapper.create 0 1 (fun _ => .INGRESS) fun _ => 0 with
        id_map := fun _ => (∅ : Tables.UMap RPCID (Fin 1)).insert 0 0 }
    exact zero_leads_nowhere rpc_mapper 0 (hleads 1 rpc_mapper 0 rfl)
  · intro hne
    exact ⟨_, sends_local_id hsent, fun n rpc_mapper rpc hrpc => leads_to_ingress hne hL hrpc⟩

/-! ## The ids of a run -/

/-- The `k`-th id of a run comes back, and no other ingress RPC gets it within `2 ^ 32`
allocations. -/
def EchoedAlone (rs : List IdRequest) (k : ℕ) : Prop :=
  ∀ id, (IdRequest.allocate 1 rs)[k]? = some id → Echoed id
    ∧ ∀ j id', rs[j]? = some .ingress → (IdRequest.allocate 1 rs)[j]? = some id' → j ≠ k →
        j < k + 2 ^ 32 → k < j + 2 ^ 32 → id' ≠ id

/-- Ids of ingress RPCs that are less than `2 ^ 32` allocations apart differ. -/
theorem ingress_ids_differ {rs : List IdRequest} {j k : ℕ} {id id' : RPCID}
    (hj : rs[j]? = some .ingress) (hid' : (IdRequest.allocate 1 rs)[j]? = some id')
    (hk : rs[k]? = some .ingress) (hid : (IdRequest.allocate 1 rs)[k]? = some id) (hne : j ≠ k)
    (hjk : j < k + 2 ^ 32) (hkj : k < j + 2 ^ 32) : id' ≠ id := by
  rintro rfl
  have hleft := IdRequest.ingress_id hj hid'
  have hright := IdRequest.ingress_id hk hid
  omega

/-- **Local ids can be echoed back**, except for those allocations at which the lower half of the
counter is zero. The counter starts at one and is incremented before it is used, so the `k`-th
allocation has the lower half `k + 2`; `hk` says that it is for an ingress RPC. -/
theorem local_ids_echoed (rs : List IdRequest) (k : ℕ) (hk : rs[k]? = some .ingress) :
    EchoedAlone rs k ↔ (k + 2) % 2 ^ 32 ≠ 0 := by
  obtain ⟨id, hid⟩ : ∃ id, (IdRequest.allocate 1 rs)[k]? = some id := by
    rw [IdRequest.allocate_getElem?, hk]
    exact ⟨_, rfl⟩
  have hnat := IdRequest.ingress_id hk hid
  have hiff := echoed_iff (L := id) (by omega)
  have hzero : id ≠ 0 ↔ (k + 2) % 2 ^ 32 ≠ 0 := by
    rw [← hnat, ne_eq, ne_eq, ← BitVec.toNat_inj]
    rfl
  rw [← hzero, ← hiff]
  constructor
  · intro h
    exact (h id hid).1
  · intro hechoed id' hid'
    rw [hid] at hid'
    obtain rfl := Option.some.inj hid'
    exact ⟨hechoed, fun j id' hj hid' hne hjk hkj => ingress_ids_differ hj hid' hk hid hne hjk hkj⟩

/-- Three RPCs come in, with the ids 2, 5 and 7, and the first two issue RPCs of their own
meanwhile. -/
def mixedRequests : List IdRequest :=
  [.ingress, .egress 2, .egress 2, .ingress, .egress 5, .ingress]

theorem local_ids_echoed_mixed :
    mixedRequests[3]? = some .ingress ∧ (EchoedAlone mixedRequests 3 ↔ (3 + 2) % 2 ^ 32 ≠ 0) :=
  ⟨rfl, local_ids_echoed mixedRequests 3 rfl⟩

/-- The `2 ^ 32 - 1`-st request to the local service gets the id zero. -/
theorem local_id_zero :
    ¬ ∀ (rs : List IdRequest) (k : ℕ), rs[k]? = some .ingress → EchoedAlone rs k := by
  intro h
  have hk : (List.replicate (2 ^ 32 - 1) IdRequest.ingress)[2 ^ 32 - 2]? = some .ingress := by
    rw [List.getElem?_replicate, if_pos (by omega)]
  obtain ⟨id, hid⟩ : ∃ id, (IdRequest.allocate 1
      (List.replicate (2 ^ 32 - 1) IdRequest.ingress))[2 ^ 32 - 2]? = some id := by
    rw [IdRequest.allocate_getElem?, hk]
    exact ⟨_, rfl⟩
  have hnat := IdRequest.ingress_id hk hid
  have hne := (echoed_iff (by omega)).mp (h _ _ hk id hid).1
  exact hne (BitVec.eq_of_toNat_eq hnat)

end RlpSidecar
