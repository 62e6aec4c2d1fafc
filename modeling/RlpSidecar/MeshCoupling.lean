/-
The sidecar and the book of its neighbours agree.

An egress RPC of the book is kept in exactly one place of the sidecar, which its phase says:
`place` is that place, and the coupling is an equation between functions of the id, so a step that
moves one RPC is one `Function.update` on both sides. An ingress RPC of the book has a message
object whose counters and kept credit returns follow from its egress RPCs (`Matches`). And the
counter of an endpoint, less the grants that are not used yet, is the sum of what the open ingress
RPCs of that endpoint count for.

`push_spec` and `pop_spec` are what the queue contributes: it is a family of lines, one for each
service of the routing table, and an RPC waits in one line under its id. `Agrees` is the coupling
as a whole, with a field for each part of the sidecar.
-/
import Mathlib.Algebra.BigOperators.Group.Finset.Basic
import Mathlib.Data.Fintype.EquivFin
import RlpSidecar.MeshBook

set_option autoImplicit false

open Tables

namespace RlpSidecar

/-! ## The queue of requests that wait for a credit -/

namespace PPMQueue

/-- **`push`**, for a service of the routing table and an id that is not waiting. -/
theorem push_spec {q : PPMQueue} {rpc : RPCMessage} (hline : rpc.service ∈ q)
    (hfree : q.find (rpc.service, rpc.local_id) = none) :
    ∃ q', q.push rpc = .ok q' ∧ (∀ service ∈ q, service ∈ q')
      ∧ q'.find = Function.update q.find (rpc.service, rpc.local_id) (some rpc) := by
  obtain ⟨b, hb⟩ := Option.isSome_iff_exists.mp (AList.lookup_isSome.mpr hline)
  have hnone : b.lookup rpc.local_id = none := (Nested.find_eq hb _).symm.trans hfree
  refine ⟨q.insert rpc.service (b.insert rpc.local_id rpc), ?_, fun service h => ?_,
    Nested.find_insert hb (lookup_insert_eq _ _ _)⟩
  · unfold push
    rw [hb]
    dsimp only
    rw [emplace_of_free hnone]
    rfl
  · exact AList.mem_insert _ |>.mpr (.inr h)

/-- **`pop`**, for an RPC that waits: it comes out, and the other lines stay. -/
theorem pop_spec {q : PPMQueue} {service : Bytes} {id : RPCID} {rpc : RPCMessage}
    (hfind : q.find (service, id) = some rpc) :
    ∃ q', q.pop service id = .ok (rpc, q') ∧ (∀ service ∈ q, service ∈ q')
      ∧ q'.find = Function.update q.find (service, id) none := by
  obtain ⟨b, hb, hrpc⟩ := Nested.exists_of_find hfind
  dsimp only at hb hrpc
  refine ⟨q.insert service (b.erase id), ?_, fun service h => ?_,
    Nested.find_insert hb (lookup_erase_eq _ _)⟩
  · have hmem : b.entries ≠ [] := by
      intro hnil
      have hsome : (b.lookup id).isSome := by rw [hrpc]; rfl
      have hin := AList.lookup_isSome.mp hsome
      rw [AList.mem_keys] at hin
      unfold AList.keys at hin
      rw [hnil] at hin
      simp at hin
    unfold pop
    rw [hb]
    dsimp only
    rw [if_neg (by simpa using hmem), hrpc]
  · exact AList.mem_insert _ |>.mpr (.inr h)

/-- Adding lines adds no RPC, and afterwards there is a line for each service. -/
theorem foldl_touch (routing : List Bytes) (q : PPMQueue) :
    (∀ service, service ∈ q ∨ service ∈ routing → service ∈ routing.foldl Nested.touch q)
      ∧ Nested.find (routing.foldl Nested.touch q) = q.find := by
  induction routing generalizing q with
  | nil => exact ⟨fun service h => h.resolve_right (by simp), rfl⟩
  | cons route routing ih =>
      obtain ⟨hmem, hfind⟩ := ih (Nested.touch q route)
      refine ⟨fun service h => hmem service ?_,
        hfind.trans (funext fun k => Nested.find_touch q route k)⟩
      obtain ⟨b, hb⟩ := Nested.exists_bucket q route
      by_cases hs : service = route
      · subst hs
        exact .inl (AList.lookup_isSome.mp (Option.isSome_iff_exists.mpr ⟨b, hb⟩))
      · rcases h with h | h
        · left
          unfold Nested.touch emplace
          split_ifs
          · exact h
          · exact AList.mem_insert _ |>.mpr (.inr h)
        · exact .inr ((List.mem_cons.mp h).resolve_left hs)

/-- The queue starts with an empty line for each service of the routing table. -/
theorem create_spec (routing : List Bytes) :
    (∀ service ∈ routing, service ∈ create routing) ∧ (create routing).find = fun _ => none := by
  obtain ⟨hmem, hfind⟩ := foldl_touch routing ∅
  exact ⟨fun service h => hmem service (.inr h),
    hfind.trans (funext fun k => Nested.find_empty k)⟩

end PPMQueue

/-! ## Places -/

/-- What the sidecar keeps under an id: the services of its requests in the queue, the RPC that
waits for a credit of a service, and the RPC that was forwarded. -/
@[ext] structure Place where
  queue : List Bytes
  ppm : Bytes → Option (Bytes × RPCID)
  egress : Option RPCID

/-- The place of an egress RPC in the book: in the queue, with the waiting ones of its service, or
sent. -/
def Child.place : Option Child → Place
  | none => ⟨[], fun _ => none, none⟩
  | some c =>
    match c.phase with
    | .queued => ⟨[c.service], fun _ => none, none⟩
    | .waiting .. => ⟨[], fun service => if service = c.service then some (service, c.id) else none,
        none⟩
    | .forwarded => ⟨[], fun _ => none, some c.id⟩

namespace Child

variable {c : Child}

@[simp] theorem place_none : place none = ⟨[], fun _ => none, none⟩ := rfl

theorem place_queued (h : c.phase = .queued) :
    place (some c) = ⟨[c.service], fun _ => none, none⟩ := by
  simp only [place, h]

theorem place_waiting {pending : List Bytes} {kept : List Buffer}
    (h : c.phase = .waiting pending kept) :
    place (some c)
      = ⟨[], fun service => if service = c.service then some (service, c.id) else none, none⟩ := by
  simp only [place, h]

theorem place_forwarded (h : c.phase = .forwarded) :
    place (some c) = ⟨[], fun _ => none, some c.id⟩ := by
  simp only [place, h]

end Child

namespace Mesh

/-- The place of an id in the sidecar, `queue` being what is left of `rpc_queue`. -/
def place (queue : List RPCMessage) (s : Mesh) (id : RPCID) : Place where
  queue := (queue.filter fun rpc => rpc.local_id = id).map RPCMessage.service
  ppm service := (s.ppm_queue.find (service, id)).map fun rpc => (rpc.service, rpc.local_id)
  egress := (s.egress_rpcs.lookup id).map RPCMessage.local_id

theorem place_push_queue (queue : List RPCMessage) (s : Mesh) (rpc : RPCMessage) :
    s.place (queue ++ [rpc]) = Function.update (s.place queue) rpc.local_id
      { s.place queue rpc.local_id with
        queue := (s.place queue rpc.local_id).queue ++ [rpc.service] } := by
  funext id
  by_cases hid : id = rpc.local_id
  · subst hid
    rw [Function.update_self]
    simp [place, List.filter_append]
  · rw [Function.update_of_ne hid]
    simp [place, List.filter_append, Ne.symm hid]

theorem place_pop_queue (queue : List RPCMessage) (s : Mesh) (rpc : RPCMessage) :
    s.place queue = Function.update (s.place (rpc :: queue)) rpc.local_id
      { s.place (rpc :: queue) rpc.local_id with
        queue := (s.place (rpc :: queue) rpc.local_id).queue.tail } := by
  funext id
  by_cases hid : id = rpc.local_id
  · subst hid
    rw [Function.update_self]
    simp [place]
  · rw [Function.update_of_ne hid]
    simp [place, Ne.symm hid]

theorem place_ppm {queue : List RPCMessage} {s s' : Mesh} {service : Bytes} {id : RPCID}
    {o : Option RPCMessage}
    (hppm : s'.ppm_queue.find = Function.update s.ppm_queue.find (service, id) o)
    (hegress : s'.egress_rpcs = s.egress_rpcs) :
    s'.place queue = Function.update (s.place queue) id
      { s.place queue id with
        ppm := Function.update (s.place queue id).ppm service
          (o.map fun rpc => (rpc.service, rpc.local_id)) } := by
  funext id'
  by_cases hid : id' = id
  · subst hid
    rw [Function.update_self]
    refine Place.ext rfl ?_ (by unfold place; rw [hegress])
    funext service'
    unfold place
    dsimp only
    rw [hppm]
    -- An entry of the PPM queue is addressed by its service and its id together.
    by_cases hs : service' = service
    · subst hs; rw [Function.update_self, Function.update_self]
    · rw [Function.update_of_ne hs, Function.update_of_ne fun heq => hs (Prod.mk.inj heq).1]
  · rw [Function.update_of_ne hid]
    refine Place.ext rfl ?_ (by unfold place; rw [hegress])
    funext service'
    unfold place
    dsimp only
    rw [hppm, Function.update_of_ne fun heq => hid (Prod.mk.inj heq).2]

theorem place_egress {queue : List RPCMessage} {s s' : Mesh} {id : RPCID} {o : Option RPCMessage}
    (hppm : s'.ppm_queue = s.ppm_queue)
    (hegress : (fun k => s'.egress_rpcs.lookup k)
      = Function.update (fun k => s.egress_rpcs.lookup k) id o) :
    s'.place queue = Function.update (s.place queue) id
      { s.place queue id with egress := o.map RPCMessage.local_id } := by
  funext id'
  have hlookup := congrFun hegress id'
  by_cases hid : id' = id
  · subst hid
    rw [Function.update_self] at hlookup ⊢
    refine Place.ext rfl (by unfold place; rw [hppm]) ?_
    unfold place
    dsimp only
    rw [hlookup]
  · rw [Function.update_of_ne hid] at hlookup ⊢
    refine Place.ext rfl (by unfold place; rw [hppm]) ?_
    unfold place
    dsimp only
    rw [hlookup]

end Mesh

/-! ## Ingress RPCs -/

/-- A Credit Return for this grant: the same datagram with command `0x02`, to the grant's sender. -/
structure ReturnOf (grant ret : Buffer) : Prop where
  command : ret.byte 1 = 0x02
  addr : ret.addr = grant.addr
  filled : ret.filled = grant.filled
  same : ∀ i, i < grant.filled → i ≠ 1 → ret.byte i = grant.byte i

/-- `prepare_credit_return` makes such a datagram, unless the pool buffer is too full. -/
theorem prepare_credit_return_spec (grant fresh : Buffer) :
    Ends (fun e => e = .bufferOverflow ∧ fresh.filled ≠ 0) (ReturnOf grant)
      (prepare_credit_return grant fresh) := by
  unfold prepare_credit_return
  split_ifs with hfull
  · -- a grant fits into a buffer that is empty
    have hlt : grant.filled < 256 := grant.filled_lt
    have h256 : udpBufferLength = 256 := rfl
    exact ⟨rfl, by omega⟩
  have hset : (fresh.copy_n grant).set_filled grant.filled
      = .ok { fresh.copy_n grant with filled := grant.filled, filled_lt := grant.filled_lt } := by
    unfold Buffer.set_filled
    rw [dif_pos grant.filled_lt]
  dsimp only
  rw [hset]
  refine ⟨?_, rfl, rfl, fun i hi hne => ?_⟩
  swap
  · have hput : ((fresh.copy_n grant).put 1 [0x02] (by decide)).byte i
        = (fresh.copy_n grant).byte i :=
      Buffer.byte_put_ne _ _ (by rw [List.length_singleton]; omega)
    exact hput.trans (Buffer.byte_copy_n fresh grant hi)
  have hle : 1 + [(0x02 : UInt8)].length ≤ (fresh.copy_n grant).data.length := by
    rw [(fresh.copy_n grant).length_data]; decide
  have hget := Wire.getElem?_overwrite hle 1
  have hbyte : (Wire.overwrite (fresh.copy_n grant).data 1 [(0x02 : UInt8)]).getD 1 0 = 0x02 := by
    rw [List.getD_eq_getElem?_getD, hget]
    rfl
  exact hbyte

/-- What a dynamic fan-out keeps on its ingress RPC for an egress RPC. -/
def Child.Counted (info : MappingInfo) (rpc : RPCMessage) (c : Child) : Prop :=
  match c.phase with
  | .queued => rpc.pfanout_req = 0
  | .waiting pending _ =>
    rpc.dfanout_service = some c.service
      ∧ rpc.pfanout_req.toNat + pending.length = info.downstreams.length
  | .forwarded => True

/-- The message object of an open ingress RPC. A parallel fan-out counts its branches as they are
forwarded and as they are answered; a dynamic one counts the grants of its egress RPC and keeps the
returns for those it does not use. -/
structure Matches (en : Entry) (rpc : RPCMessage) : Prop where
  service : rpc.service = en.service
  parallel : en.info.fanout = .pfanout →
    rpc.pfanout_req.toNat + en.unsent = en.issued
      ∧ rpc.pfanout_res.toNat + en.children.length = en.issued
  blank : en.info.fanout = .dfanout → en.issued = 0 → rpc.pfanout_req = 0
  counted : en.info.fanout = .dfanout → ∀ c ∈ en.children, c.Counted en.info rpc
  returns : List.Forall₂ ReturnOf (en.children.flatMap Child.kept) rpc.credit_return_queue

/-! ## What is active -/

noncomputable instance : Fintype RPCID :=
  have : Finite RPCID := Finite.of_injective BitVec.toFin fun _ _ h => BitVec.toFin_inj.mp h
  Fintype.ofFinite RPCID

/-- What an ingress RPC counts for at the service `e`; only its own service counts it. -/
def worth (e : Bytes) : Option Entry → ℤ
  | none => 0
  | some en => if en.service = e then en.value else 0

namespace Book

/-- What the open ingress RPCs of `e` count for, all together. -/
noncomputable def owed (B : Book) (e : Bytes) : ℤ := ∑ i, worth e (B.entry i)

/-- One entry changes a sum over the open ingress RPCs by the difference of its two terms. -/
theorem sum_set (f : Option Entry → ℤ) (B : Book) (i : RPCID) (o : Option Entry) :
    ∑ j, f ((B.set i o).entry j) = ∑ j, f (B.entry j) - f (B.entry i) + f o := by
  have hupd : (fun j => f ((B.set i o).entry j))
      = Function.update (fun j => f (B.entry j)) i (f o) := by
    funext j
    by_cases hj : j = i
    · subst hj; simp [set]
    · simp [set, hj]
  have hsplit := Finset.add_sum_erase Finset.univ (fun j => f (B.entry j)) (Finset.mem_univ i)
  rw [hupd, Finset.sum_update_of_mem (Finset.mem_univ i), Finset.sdiff_singleton_eq_erase]
  omega

theorem owed_set (B : Book) (i : RPCID) (o : Option Entry) (e : Bytes) :
    (B.set i o).owed e = B.owed e - worth e (B.entry i) + worth e o := sum_set (worth e) B i o

/-- One entry changes its worth by `d` at its own service, and nothing at the others. -/
theorem owed_set_some {B : Book} {i : RPCID} {en en' : Entry} (hentry : B.entry i = some en)
    (hservice : en'.service = en.service) {d : ℤ} (hvalue : en'.value = en.value + d) (e : Bytes) :
    (B.set i (some en')).owed e = B.owed e + if e = en.service then d else 0 := by
  rw [owed_set, hentry]
  simp only [worth, hservice, hvalue]
  by_cases he : en.service = e
  · rw [if_pos he, if_pos he, if_pos he.symm]; omega
  · rw [if_neg he, if_neg he, if_neg (Ne.symm he)]; omega

end Book

/-! ## The coupling -/

/-- **The coupling** of a sidecar and the book of its neighbours, `queue` being what is left of
`rpc_queue`. -/
structure Agrees (config : MeshConfig) (queue : List RPCMessage) (s : Mesh) (B : Book) : Prop where
  book : B.Wf config
  server : s.server.Wf config.server
  counter : s.local_id_counter = BitVec.ofNat 64 (B.ids + 1)
  ingress : ∀ i, Option.Rel Matches (B.entry i) (s.ingress_rpcs.lookup i)
  placed : s.place queue = fun id => Child.place (B.child id)
  routed : ∀ service ∈ config.routing, service ∈ s.ppm_queue
  balance : ∀ e, s.server.balance e + B.spent e = B.owed e

/-- Both sides of a relation change at one key, to values that are related again. -/
theorem rel_update {κ α β : Type} [DecidableEq κ] {R : α → β → Prop} {f : κ → Option α}
    {g g' : κ → Option β} (h : ∀ i, Option.Rel R (f i) (g i)) {i : κ} {a : Option α} {b : Option β}
    (hab : Option.Rel R a b) (hg : g' = Function.update g i b) :
    ∀ j, Option.Rel R (Function.update f i a j) (g' j) := by
  intro j
  rw [hg]
  by_cases hj : j = i
  · subst hj; rw [Function.update_self, Function.update_self]; exact hab
  · rw [Function.update_of_ne hj, Function.update_of_ne hj]; exact h j

theorem mem_hosted_of_find {config : ServerConfig} {service : Bytes} {info : MappingInfo}
    (h : config.find service = some info) : service ∈ config.hosted := by
  unfold ServerConfig.find at h
  unfold ServerConfig.hosted
  obtain ⟨l₁, l₂, hmapping, _⟩ := List.lookup_eq_some_iff.mp h
  rw [hmapping]
  simp

namespace Agrees

variable {config : MeshConfig} {queue : List RPCMessage} {s : Mesh} {B : Book}

/-- The place of one egress RPC changes on both sides, to the one that its new phase has. -/
theorem place_update (h : s.place queue = fun id => Child.place (B.child id)) {B' : Book}
    {id : RPCID} {o : Option Child} (hB : B'.child = Function.update B.child id o) :
    Function.update (s.place queue) id (Child.place o) = fun id => Child.place (B'.child id) := by
  funext id'
  rw [hB]
  by_cases hid : id' = id
  · subst hid; rw [Function.update_self, Function.update_self]
  · rw [Function.update_of_ne hid, Function.update_of_ne hid]; exact congrFun h id'

/-- The ingress RPC of an egress RPC, as `get_ingress_rpc` and `config.mapping` find it. -/
theorem parent (h : Agrees config queue s B) {id : RPCID} {en : Entry}
    (hentry : B.entry (id >>> 32) = some en) :
    ∃ rpc, s.ingress_rpcs.lookup (id >>> 32) = some rpc ∧ Matches en rpc
      ∧ s.get_ingress_rpc id = .ok (id >>> 32, rpc)
      ∧ Mesh.mapping_at config rpc.service = .ok en.info := by
  have hrel := h.ingress (id >>> 32)
  have hwf := h.book.entries _ _ hentry
  rw [hentry] at hrel
  generalize hlookup : s.ingress_rpcs.lookup (id >>> 32) = o at hrel
  cases hrel with
  | some hmatch =>
      rename_i rpc
      refine ⟨rpc, rfl, hmatch, ?_, ?_⟩
      · have hne : id >>> 32 ≠ 0 := by
          intro hzero
          have hlow := hwf.id.1
          rw [hzero] at hlow
          simp at hlow
        unfold Mesh.get_ingress_rpc
        dsimp only
        rw [if_neg hne, hlookup]
      · unfold Mesh.mapping_at
        rw [hmatch.service, hwf.find]

/-- An id that was handed out is not the id of a cleared message. -/
theorem id_ne (h : Agrees config queue s B) {id : RPCID} {c : Child}
    (hchild : B.child id = some c) :
    id ≠ -1 := by
  obtain ⟨en, l₁, l₂, hat⟩ := Book.exists_at hchild
  have howned := ((h.book.entries _ _ hat.entry).owned c (by rw [hat.children]; simp)).2
  have hids := h.book.ids
  rw [hat.id] at howned
  rintro rfl
  have hlast : (-1 : RPCID).toNat % 2 ^ 32 = 2 ^ 32 - 1 := by decide
  omega

end Agrees

end RlpSidecar
