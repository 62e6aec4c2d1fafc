/-
What a mesh sidecar's neighbours do, and what is open because of it.

A `Book` has an entry for each ingress RPC that is open: its service, how many egress RPCs it has
issued, and those that are not answered. An egress RPC is queued, then waits for the credits
that were requested for it, and is then forwarded. Nothing here is a message object, a queue or a
counter of the sidecar. A step of the book says what the neighbours promise: an ingress RPC
uses a grant that was issued, egress RPCs come while their ingress RPC is open and as many as its
fan-out allows, each Credit Request is granted once, a response comes after its request was
forwarded, and a service answers when all its egress RPCs are answered.

A run hands out fewer than `2 ^ 32 - 2` local ids, which is the range in which the lower halves of
ids do not repeat; the steps that need a new id say so. `Wf` is what the promises come to, for each
entry (`Entry.Wf`) and for the book as a whole.
-/
import RlpSidecar.Mesh
import RlpSidecar.ServerAccounting

set_option autoImplicit false

namespace RlpSidecar

/-- How a hosted service sends egress RPCs: one after the other, all at once, or one of several. -/
inductive Fanout
  | plain
  | pfanout
  | dfanout
  deriving DecidableEq, Repr

/-- The fan-out of a mapping entry. The source asks for the two flags in this order. -/
def MappingInfo.fanout (info : MappingInfo) : Fanout :=
  if info.pfanout then .pfanout else if info.dfanout then .dfanout else .plain

/-- A mapping entry that makes sense: at most one of the flags, at most 255 downstreams (the
loader refuses more), and distinct ones for a dynamic fan-out. -/
structure MappingInfo.Valid (info : MappingInfo) : Prop where
  exclusive : ¬ (info.pfanout = true ∧ info.dfanout = true)
  width : info.downstreams.length ≤ 255
  distinct : info.fanout = .dfanout → info.downstreams.Nodup

/-- All services of the mapping have such an entry, and there is one. -/
structure MeshConfig.Valid (config : MeshConfig) : Prop where
  nonempty : config.server.mapping ≠ []
  info : ∀ service info, config.server.find service = some info → info.Valid

/-- How far an egress RPC has come. While it waits, `pending` are the services whose credit has not
been used, and `kept` the grants of services other than its own. -/
inductive ChildPhase
  | queued
  | waiting (pending : List Bytes) (kept : List Buffer)
  | forwarded

/-- The services that are asked for a credit for an egress RPC of `service`. -/
def asks (info : MappingInfo) (service : Bytes) : List Bytes :=
  if info.dfanout then info.downstreams else [service]

/-- An egress RPC that is not answered: its local id, its service, and how far it has come. -/
structure Child where
  id : RPCID
  service : Bytes
  phase : ChildPhase

namespace Child

/-- Whether it has been sent to its service. -/
def isForwarded (c : Child) : Bool := match c.phase with | .forwarded => true | _ => false

/-- The grants kept for it: those of a dynamic fan-out that are to go back. -/
def kept (c : Child) : List Buffer := match c.phase with | .waiting _ kept => kept | _ => []

/-- The egress RPC waits for the credits that are requested for it. -/
def enlist (info : MappingInfo) (c : Child) : Child :=
  { c with phase := .waiting (asks info c.service) [] }

/-- A grant for the egress RPC from `service`. After the last one it is forwarded. -/
def granted (service : Bytes) (buf : Buffer) (pending : List Bytes) (kept : List Buffer)
    (c : Child) : Child :=
  { c with
    phase :=
      if pending.erase service = [] then .forwarded
      else .waiting (pending.erase service) (if service = c.service then kept else kept ++ [buf]) }

end Child

/-- An open ingress RPC: its service with the mapping entry, how many egress RPCs it has issued,
and those that are not answered. -/
structure Entry where
  service : Bytes
  info : MappingInfo
  issued : ℕ
  children : List Child

namespace Entry

/-- The egress RPC `id` of this ingress RPC. -/
def child (en : Entry) (id : RPCID) : Option Child := en.children.find? fun c => c.id = id

/-- The entry with `o` in the place of an egress RPC, which stood between `l₁` and `l₂`. -/
def withChild (en : Entry) (l₁ : List Child) (o : Option Child) (l₂ : List Child) : Entry :=
  { en with children := l₁ ++ (o.toList ++ l₂) }

/-- The egress RPCs that are not forwarded, for which the ingress RPC holds no unit in flight
yet. -/
def unsent (en : Entry) : ℕ := en.children.countP fun c => !c.isForwarded

/-- Another egress RPC to `service` may be issued: as the neighbours of the sidecar, its services,
promise by their configuration. A parallel fan-out issues each branch once, a dynamic one chooses
one service. -/
def MayIssue (en : Entry) (service : Bytes) : Prop :=
  match en.info.fanout with
  | .plain => True
  | .pfanout => en.issued < en.info.downstreams.length
  | .dfanout => en.issued = 0 ∧ service ∈ en.info.downstreams

/-- What an open ingress RPC counts for. A plain or dynamic one is active except while an egress
RPC of it is. A parallel one stops when the last of its branches is forwarded, and starts when the
first is answered. -/
def value (en : Entry) : ℤ :=
  match en.info.fanout with
  | .plain | .dfanout => 1 - (en.children.countP Child.isForwarded : ℕ)
  | .pfanout =>
    1 - (if 0 < en.issued ∧ en.unsent = 0 ∧ en.issued = en.info.downstreams.length then 1 else 0)
      + if en.children.length < en.issued then 1 else 0

end Entry

/-- The open ingress RPCs by their ids, the issued grants that were used or returned, for each
service, and the number of local ids handed out. -/
structure Book where
  entry : RPCID → Option Entry
  spent : Bytes → ℕ
  ids : ℕ

/-- The id that is handed out next for an RPC of this parent. -/
def newId (parent : RPCID) (ids : ℕ) : RPCID :=
  (get_new_local_id (BitVec.ofNat 64 (ids + 1)) parent).1

namespace Book

/-- The book of a sidecar that has seen nothing. -/
def empty : Book := ⟨fun _ => none, fun _ => 0, 0⟩

/-- The egress RPC `id`, which its ingress RPC has; the upper half of the id names that one. -/
def child (B : Book) (id : RPCID) : Option Child := (B.entry (id >>> 32)).bind fun en => en.child id

/-- The mapping entry of the ingress RPC of an egress RPC. -/
def info (B : Book) (id : RPCID) : Option MappingInfo := (B.entry (id >>> 32)).map Entry.info

/-- The egress RPC `id` is `c`, between `l₁` and `l₂` in the entry `en`. -/
structure At (B : Book) (id : RPCID) (en : Entry) (l₁ : List Child) (c : Child) (l₂ : List Child) :
    Prop where
  entry : B.entry (id >>> 32) = some en
  children : en.children = l₁ ++ c :: l₂
  id : c.id = id

/-- The book with another entry, or none, for an ingress RPC. -/
def set (B : Book) (i : RPCID) (en : Option Entry) : Book :=
  { B with entry := Function.update B.entry i en }

/-- An issued grant of this service is used or returned, so one unit less of it is out. -/
def spend (B : Book) (service : Bytes) : Book :=
  { B with spent := Function.update B.spent service (B.spent service + 1) }

/-- One more unit of the service is spent, and none of another. -/
theorem spent_spend (B : Book) (service e : Bytes) :
    (B.spend service).spent e = B.spent e + if service = e then 1 else 0 := by
  unfold spend
  dsimp only
  by_cases hs : service = e
  · subst hs; simp
  · simp [hs, Ne.symm hs]

/-- Another local id is handed out. -/
def count (B : Book) : Book := { B with ids := B.ids + 1 }

/-- The entry of an ingress RPC that issues another egress RPC, which gets the next local id. -/
def issue (B : Book) (parent : RPCID) (en : Entry) (service : Bytes) : Entry :=
  { en with
    issued := en.issued + 1
    children := en.children ++ [⟨newId parent B.ids, service, .queued⟩] }

/-- The egress RPC `id` waits for its credits from now on: its Credit Requests have been sent. -/
def enlist (B : Book) (id : RPCID) : Book :=
  match B.entry (id >>> 32) with
  | none => B
  | some en =>
    B.set (id >>> 32) (some
      { en with children := en.children.map fun c => if c.id = id then c.enlist en.info else c })

/-- What the neighbours of a sidecar in state `s` can do. A request gets the next local id, and
`hids` says that there is one: an id is the lower half of a counter, over the id of the parent, so
after 2³² - 3 of them the counter passes zero and meets ids that may still be open. What happens
then is not said here, so a run among these neighbours uses fewer than 2³² - 2 local ids. -/
inductive Step (config : MeshConfig) (s : Mesh) (B : Book) : Mesh.Event → Book → Prop
  | ingress_request (service : Bytes) (info : MappingInfo)
      (hinfo : config.server.find service = some info)
      (hgrant : B.spent service < Server.grantsFor service s.server.sent)
      (hids : B.ids + 1 < 2 ^ 32 - 2) :
      Step config s B (.ingress_request service)
        ((B.set (newId 0 B.ids) (some ⟨service, info, 0, []⟩)).spend service).count
  | egress_request (parent : RPCID) (service : Bytes) (priority : Priority) (en : Entry)
      (hentry : B.entry parent = some en) (hrouting : service ∈ config.routing)
      (hmay : en.MayIssue service) (hids : B.ids + 1 < 2 ^ 32 - 2) :
      Step config s B (.egress_request parent service priority)
        (B.set parent (some (B.issue parent en service))).count
  | credit_requests :
      Step config s B .credit_requests (s.rpc_queue.foldl (fun B rpc => B.enlist rpc.local_id) B)
  | grant (buf : Buffer) (env : Mesh.GrantEnv) (m : GrantMessage) (en : Entry) (l₁ : List Child)
      (c : Child) (l₂ : List Child) (pending : List Bytes) (kept : List Buffer)
      (hread : read_credit_grant buf = .ok m) (hone : m.granted = 1)
      (hat : B.At m.id en l₁ c l₂) (hphase : c.phase = .waiting pending kept)
      (hpending : m.service ∈ pending) :
      Step config s B (.grant buf env)
        (B.set (m.id >>> 32)
          (some (en.withChild l₁ (some (c.granted m.service buf pending kept)) l₂)))
  | egress_response (id : RPCID) (en : Entry) (l₁ : List Child) (c : Child) (l₂ : List Child)
      (hat : B.At id en l₁ c l₂) (hphase : c.phase = .forwarded) :
      Step config s B (.egress_response id) (B.set (id >>> 32) (some (en.withChild l₁ none l₂)))
  | ingress_response (id : RPCID) (now_ts : BitVec 64) (en : Entry)
      (hentry : B.entry id = some en) (hdone : en.children = [])
      (hall : en.info.fanout = .pfanout → en.issued = en.info.downstreams.length) :
      Step config s B (.ingress_response id now_ts) (B.set id none)
  | credit_request (req : Buffer) (env : Server.Env) (service : Bytes) (id : RPCID)
      (priority : Priority) (rtt : BitVec 32)
      (hdispatch : dispatch_rlp_recv req = .ok .protocol_server)
      (hread : read_server_message req = .ok (.credit_request service id priority rtt)) :
      Step config s B (.datagram req env) B
  | credit_return (req : Buffer) (env : Server.Env) (service : Bytes)
      (hdispatch : dispatch_rlp_recv req = .ok .protocol_server)
      (hread : read_server_message req = .ok (.credit_return service))
      (hgrant : B.spent service < Server.grantsFor service s.server.sent) :
      Step config s B (.datagram req env) (B.spend service)

/-- The step with the book it leads to in another form. -/
theorem Step.to {config : MeshConfig} {s : Mesh} {B B' B'' : Book} {ev : Mesh.Event}
    (h : Step config s B ev B') (hB : B' = B'') : Step config s B ev B'' := hB ▸ h

end Book

/-! ## Ids -/

/-- The counter of the ids after `ids` of them were handed out. -/
theorem newId_snd (parent : RPCID) (ids : ℕ) :
    (get_new_local_id (BitVec.ofNat 64 (ids + 1)) parent).2 = BitVec.ofNat 64 (ids + 2) := by
  unfold get_new_local_id
  simp only
  rw [BitVec.ofNat_add (ids + 1) 1]
  rfl

/-- The lower half of an id is the number of the id, the upper half is its parent. -/
theorem newId_toNat {parent : RPCID} {ids : ℕ} (hp : parent.toNat < 2 ^ 32)
    (hids : ids + 2 < 2 ^ 32) :
    (newId parent ids).toNat = parent.toNat * 2 ^ 32 + (ids + 2) := by
  unfold newId
  rw [get_new_local_id_toNat, BitVec.toNat_ofNat, Nat.mod_eq_of_lt hp]
  omega

/-- The upper half of an id, as a number. -/
theorem shift_toNat (id : RPCID) : (id >>> 32).toNat = id.toNat / 2 ^ 32 := by
  rw [BitVec.toNat_ushiftRight, Nat.shiftRight_eq_div_pow]

/-- The upper half of a new id is its parent, while the lower half has room for the counter. -/
theorem newId_shift {parent : RPCID} {ids : ℕ} (hp : parent.toNat < 2 ^ 32)
    (hids : ids + 2 < 2 ^ 32) : newId parent ids >>> 32 = parent := by
  refine BitVec.eq_of_toNat_eq ?_
  rw [shift_toNat, newId_toNat hp hids]
  omega

/-! ## What the promises come to -/

/-- What an egress RPC of `service` that waits has left of its credits. -/
def Waits (info : MappingInfo) (service : Bytes) (pending : List Bytes) (kept : List Buffer) :
    Prop :=
  match info.fanout with
  | .plain | .pfanout => pending = [service] ∧ kept = []
  | .dfanout =>
    pending ≠ [] ∧ pending.Nodup ∧ pending ⊆ info.downstreams
      ∧ kept.length + pending.length + (if service ∈ pending then 0 else 1)
        = info.downstreams.length

/-- What an egress RPC of this phase, with this service, is allowed. -/
def Child.Fits (info : MappingInfo) (c : Child) : Prop :=
  ∀ pending kept, c.phase = .waiting pending kept → Waits info c.service pending kept

/-- **The invariant** of an open ingress RPC: its own id and those of its egress RPCs come from the
counter, these are distinct and routed, and there are no more of them than the fan-out allows. -/
structure Entry.Wf (config : MeshConfig) (ids : ℕ) (i : RPCID) (en : Entry) : Prop where
  find : config.server.find en.service = some en.info
  id : 2 ≤ i.toNat ∧ i.toNat ≤ ids + 1
  owned : ∀ c ∈ en.children, c.id >>> 32 = i ∧ c.id.toNat % 2 ^ 32 ≤ ids + 1
  nodup : (en.children.map Child.id).Nodup
  routed : ∀ c ∈ en.children, c.service ∈ config.routing
  issued : en.children.length ≤ en.issued
  parallel : en.info.fanout = .pfanout → en.issued ≤ en.info.downstreams.length
  dynamic : en.info.fanout = .dfanout →
    en.issued ≤ 1 ∧ ∀ c ∈ en.children, c.service ∈ en.info.downstreams
  fits : ∀ c ∈ en.children, c.Fits en.info

namespace Entry

variable {config : MeshConfig} {ids : ℕ} {i : RPCID} {en : Entry}

/-- A counter that goes on keeps the invariant. -/
theorem Wf.mono {ids' : ℕ} (h : en.Wf config ids i) (hle : ids ≤ ids') : en.Wf config ids' i :=
  { h with
    id := ⟨h.id.1, h.id.2.trans (Nat.succ_le_succ hle)⟩
    owned := fun c hc => ⟨(h.owned c hc).1, (h.owned c hc).2.trans (Nat.succ_le_succ hle)⟩ }

/-- The id of an ingress RPC fits into the lower half, while the counter does. -/
theorem Wf.toNat_lt (h : en.Wf config ids i) (hids : ids < 2 ^ 32 - 2) : i.toNat < 2 ^ 32 := by
  have hid := h.id.2
  omega

/-- An egress RPC gives way to another phase of it, or leaves. -/
theorem Wf.withChild (h : en.Wf config ids i) {l₁ l₂ : List Child} {c : Child}
    (hchildren : en.children = l₁ ++ c :: l₂) {o : Option Child}
    (ho : ∀ c' ∈ o, c'.id = c.id ∧ c'.service = c.service ∧ c'.Fits en.info) :
    (en.withChild l₁ o l₂).Wf config ids i := by
  have hmem : ∀ c' ∈ l₁ ++ (o.toList ++ l₂), c'.Fits en.info
      ∧ ∃ c'' ∈ en.children, c'.id = c''.id ∧ c'.service = c''.service := by
    intro c' hc'
    rw [List.mem_append, List.mem_append] at hc'
    rcases hc' with hc' | hc' | hc'
    · have hold : c' ∈ en.children := by rw [hchildren]; exact List.mem_append_left _ hc'
      exact ⟨h.fits c' hold, c', hold, rfl, rfl⟩
    · obtain ⟨hid, hservice, hfits⟩ := ho c' (Option.mem_toList.mp hc')
      exact ⟨hfits, c, by rw [hchildren]; simp, hid, hservice⟩
    · have hold : c' ∈ en.children := by rw [hchildren]; simp [hc']
      exact ⟨h.fits c' hold, c', hold, rfl, rfl⟩
  -- the ids are those that were there, possibly without one
  have hids : ((l₁ ++ (o.toList ++ l₂)).map Child.id).Sublist (en.children.map Child.id) := by
    rw [hchildren, List.map_append, List.map_append, List.map_append, List.map_cons]
    refine (List.Sublist.refl _).append ?_
    cases o with
    | none => exact List.sublist_cons_self _ _
    | some c' =>
        rw [← (ho c' rfl).1]
        exact List.Sublist.refl _
  have hlen := hids.length_le
  rw [List.length_map, List.length_map] at hlen
  refine { h with owned := ?_, nodup := hids.nodup h.nodup, routed := ?_,
                  issued := hlen.trans h.issued, dynamic := ?_,
                  fits := fun c' hc' => (hmem c' hc').1 }
  · intro c' hc'
    obtain ⟨_, c'', hc'', hid, _⟩ := hmem c' hc'
    rw [hid]; exact h.owned c'' hc''
  · intro c' hc'
    obtain ⟨_, c'', hc'', _, hservice⟩ := hmem c' hc'
    rw [hservice]; exact h.routed c'' hc''
  · intro hd
    refine ⟨(h.dynamic hd).1, fun c' hc' => ?_⟩
    obtain ⟨_, c'', hc'', _, hservice⟩ := hmem c' hc'
    rw [hservice]; exact (h.dynamic hd).2 c'' hc''

/-- Looking up an egress RPC after one has been replaced or left out. -/
theorem Wf.child_withChild (h : en.Wf config ids i) {l₁ l₂ : List Child} {c : Child}
    (hchildren : en.children = l₁ ++ c :: l₂) {o : Option Child} (ho : ∀ c' ∈ o, c'.id = c.id) :
    (en.withChild l₁ o l₂).child = Function.update en.child c.id o := by
  have hnodup := h.nodup
  rw [hchildren, List.map_append, List.map_cons] at hnodup
  -- no other egress RPC has its id
  have hne₁ : ∀ c' ∈ l₁, c'.id ≠ c.id := fun c' hc' heq =>
    (List.nodup_append.mp hnodup).2.2 c'.id (List.mem_map_of_mem hc') c.id
      List.mem_cons_self heq
  have hne₂ : ∀ c' ∈ l₂, c'.id ≠ c.id := fun c' hc' heq =>
    (List.nodup_cons.mp (List.nodup_append.mp hnodup).2.1).1 (heq ▸ List.mem_map_of_mem hc')
  funext id
  unfold Entry.child Entry.withChild
  rw [hchildren]
  by_cases hid : id = c.id
  · subst hid
    have hnone₁ : l₁.find? (fun c' => c'.id = c.id) = none :=
      List.find?_eq_none.mpr (by simpa using hne₁)
    have hnone₂ : l₂.find? (fun c' => c'.id = c.id) = none :=
      List.find?_eq_none.mpr (by simpa using hne₂)
    rw [Function.update_self, List.find?_append, List.find?_append, hnone₁, hnone₂]
    cases o with
    | none => rfl
    | some c' => simp [ho c' rfl]
  · rw [Function.update_of_ne hid, List.find?_append, List.find?_append, List.find?_append]
    cases o with
    | none => simp [Ne.symm hid]
    | some c' => simp [Ne.symm hid, ho c' rfl]

/-- Looking up the egress RPC in the middle finds it, since the ids are distinct. -/
theorem Wf.child_eq (h : en.Wf config ids i) {l₁ l₂ : List Child} {c : Child}
    (hchildren : en.children = l₁ ++ c :: l₂) : en.child c.id = some c := by
  have hself := h.child_withChild hchildren (o := some c) (by simp)
  have hen : en.withChild l₁ (some c) l₂ = en := by
    unfold Entry.withChild
    rw [show l₁ ++ ((some c).toList ++ l₂) = en.children from hchildren.symm]
  rw [hen] at hself
  rw [hself, Function.update_self]

end Entry

/-! ## Credits of an egress RPC -/

/-- An egress RPC that has just been admitted waits for all its credits. -/
theorem waits_enlist {info : MappingInfo} (h : info.Valid) {service : Bytes}
    (hservice : info.fanout = .dfanout → service ∈ info.downstreams) :
    Waits info service (asks info service) [] := by
  have hexclusive := h.exclusive
  have hdistinct := h.distinct
  unfold Waits asks
  unfold MappingInfo.fanout at hservice hdistinct ⊢
  by_cases hp : info.pfanout = true
  · have hd : info.dfanout = false := by
      rw [← Bool.not_eq_true]; exact fun hd => hexclusive ⟨hp, hd⟩
    simp [hp, hd]
  · by_cases hd : info.dfanout = true
    · simp only [hp, hd, if_false, if_true, Bool.false_eq_true] at hservice hdistinct ⊢
      have hmem := hservice trivial
      refine ⟨List.ne_nil_of_mem hmem, hdistinct trivial, List.Subset.refl _, ?_⟩
      rw [if_pos hmem]
      simp
    · simp [hp, hd]

/-- A grant for an egress RPC that waits leaves it waiting for the others, or forwarded. -/
theorem waits_granted {info : MappingInfo} {service granted : Bytes} {pending : List Bytes}
    {kept : List Buffer} (h : Waits info service pending kept) (hmem : granted ∈ pending)
    (hne : pending.erase granted ≠ []) (buf : Buffer) :
    Waits info service (pending.erase granted)
      (if granted = service then kept else kept ++ [buf]) := by
  unfold Waits at h ⊢
  split at h
  · obtain ⟨rfl, rfl⟩ := h
    rw [List.mem_singleton.mp hmem] at hne
    simp at hne
  · obtain ⟨rfl, rfl⟩ := h
    rw [List.mem_singleton.mp hmem] at hne
    simp at hne
  · obtain ⟨_, hnodup, hsub, hcount⟩ := h
    refine ⟨hne, hnodup.erase _, fun x hx => hsub (List.mem_of_mem_erase hx), ?_⟩
    have hlen := List.length_erase_of_mem hmem
    have hpos := List.length_pos_of_mem hmem
    -- The grant for the request's own service is used now; any other is kept until the last.
    by_cases hs : granted = service
    · subst hs
      rw [if_pos hmem] at hcount
      rw [if_pos rfl, if_neg (List.Nodup.not_mem_erase hnodup)]
      omega
    · have hiff : service ∈ pending.erase granted ↔ service ∈ pending :=
        List.mem_erase_of_ne (Ne.symm hs)
      rw [if_neg hs, List.length_append, List.length_singleton]
      simp only [hiff]
      omega

/-- An egress RPC that has got one of its credits still fits. -/
theorem Child.fits_granted {info : MappingInfo} {c : Child} {pending : List Bytes}
    {kept : List Buffer} (h : c.Fits info) (hphase : c.phase = .waiting pending kept)
    {service : Bytes} (hmem : service ∈ pending) (buf : Buffer) :
    (c.granted service buf pending kept).Fits info := by
  intro pending' kept' hphase'
  unfold granted at hphase' ⊢
  dsimp only at hphase' ⊢
  split at hphase'
  · simp at hphase'
  · rename_i hne
    obtain ⟨rfl, rfl⟩ := ChildPhase.waiting.inj hphase'
    exact waits_granted (h pending kept hphase) hmem hne buf

namespace Book

variable {config : MeshConfig} {s : Mesh} {B B' : Book}

/-- **The invariant** of a book: that of its entries, and that the counter has not come round. -/
structure Wf (config : MeshConfig) (B : Book) : Prop where
  entries : ∀ i en, B.entry i = some en → en.Wf config B.ids i
  ids : B.ids < 2 ^ 32 - 2

/-- One entry changes, to one that keeps the invariant. -/
theorem Wf.update (h : B.Wf config) {i : RPCID} {en : Option Entry} {spent : Bytes → ℕ} {ids : ℕ}
    (hle : B.ids ≤ ids) (hids : ids < 2 ^ 32 - 2) (hen : ∀ e ∈ en, e.Wf config ids i) :
    Wf config ⟨(B.set i en).entry, spent, ids⟩ := by
  refine ⟨fun j e he => ?_, hids⟩
  unfold set at he
  by_cases hj : j = i
  · subst hj
    simp only [Function.update_self] at he
    exact hen e he
  · simp only [Function.update_of_ne hj] at he
    exact (h.entries j e he).mono hle

/-- The entry of a new ingress RPC, which has issued nothing. -/
theorem wf_newEntry {service : Bytes} {info : MappingInfo} {ids : ℕ} (hids : ids + 2 < 2 ^ 32)
    (hinfo : config.server.find service = some info) :
    (⟨service, info, 0, []⟩ : Entry).Wf config (ids + 1) (newId 0 ids) where
  find := hinfo
  id := by
    rw [newId_toNat (by decide) hids]
    have h0 : (0 : RPCID).toNat = 0 := rfl
    omega
  owned c hc := by simp at hc
  nodup := List.nodup_nil
  routed c hc := by simp at hc
  issued := le_rfl
  parallel _ := Nat.zero_le _
  dynamic _ := ⟨Nat.zero_le _, fun c hc => by simp at hc⟩
  fits c hc := by simp at hc

/-- The entry of an ingress RPC that issues another egress RPC keeps the invariant, if the fan-out
allows it. -/
theorem Wf.issue (h : B.Wf config) {parent : RPCID} {en : Entry} {service : Bytes}
    (hentry : B.entry parent = some en) (hrouting : service ∈ config.routing)
    (hmay : en.MayIssue service) (hids : B.ids + 1 < 2 ^ 32 - 2) :
    (B.issue parent en service).Wf config (B.ids + 1) parent := by
  have hwf := h.entries parent en hentry
  have hp := hwf.toNat_lt h.ids
  have hshift := newId_shift hp (show B.ids + 2 < 2 ^ 32 by omega)
  have hnat := newId_toNat hp (show B.ids + 2 < 2 ^ 32 by omega)
  have hmem : ∀ c ∈ en.children ++ [⟨newId parent B.ids, service, .queued⟩],
      c ∈ en.children ∨ c = ⟨newId parent B.ids, service, .queued⟩ := by
    intro c hc
    rcases List.mem_append.mp hc with hc | hc
    · exact .inl hc
    · exact .inr (List.mem_singleton.mp hc)
  refine { (hwf.mono (Nat.le_succ _)) with
    owned := fun c hc => ?_, nodup := ?_, routed := fun c hc => ?_, issued := ?_,
    parallel := fun hp => ?_, dynamic := fun hd => ?_, fits := fun c hc => ?_ }
  · rcases hmem c hc with hc | rfl
    · exact ((hwf.mono (Nat.le_succ _)).owned c hc)
    · exact ⟨hshift, by rw [hnat]; omega⟩
  · -- the new id is larger than all that were handed out
    unfold Book.issue
    rw [List.map_append, List.nodup_append]
    refine ⟨hwf.nodup, List.nodup_singleton _, fun a ha b hb => ?_⟩
    obtain ⟨c, hc, rfl⟩ := List.mem_map.mp ha
    rw [List.map_singleton, List.mem_singleton] at hb
    rintro rfl
    have hold := (hwf.owned c hc).2
    rw [hb, hnat] at hold
    omega
  · rcases hmem c hc with hc | rfl
    · exact hwf.routed c hc
    · exact hrouting
  · have hissued := hwf.issued
    unfold Book.issue
    simp only [List.length_append, List.length_singleton]
    omega
  · unfold Entry.MayIssue at hmay
    have hp' : en.info.fanout = .pfanout := hp
    rw [hp'] at hmay
    exact hmay
  · unfold Entry.MayIssue at hmay
    have hd' : en.info.fanout = .dfanout := hd
    rw [hd'] at hmay
    refine ⟨by have h0 := hmay.1; unfold Book.issue; simp only; omega, fun c hc => ?_⟩
    rcases hmem c hc with hc | rfl
    · exact (hwf.dynamic hd').2 c hc
    · exact hmay.2
  · rcases hmem c hc with hc | rfl
    · exact hwf.fits c hc
    · intro pending kept hphase
      simp at hphase

/-! ## Egress RPCs by their ids -/

/-- The egress RPC at a place of the book is the one that is looked up. -/
theorem At.child (h : B.Wf config) {id : RPCID} {en : Entry} {l₁ l₂ : List Child} {c : Child}
    (hat : B.At id en l₁ c l₂) : B.child id = some c := by
  unfold Book.child
  rw [hat.entry, Option.bind_some, ← hat.id]
  exact (h.entries _ _ hat.entry).child_eq hat.children

/-- An egress RPC that is looked up is at some place of the book. -/
theorem exists_at {id : RPCID} {c : Child} (h : B.child id = some c) :
    ∃ en l₁ l₂, B.At id en l₁ c l₂ := by
  obtain ⟨en, hentry, hchild⟩ := Option.bind_eq_some_iff.mp h
  obtain ⟨hid, l₁, l₂, hchildren, _⟩ := List.find?_eq_some_iff_append.mp hchild
  exact ⟨en, l₁, l₂, hentry, hchildren, by simpa using hid⟩

/-- An egress RPC that is looked up is one of the entry under the upper half of its id. -/
theorem mem_children {id : RPCID} {en : Entry} {c : Child} (hentry : B.entry (id >>> 32) = some en)
    (hchild : B.child id = some c) : c ∈ en.children := by
  unfold Book.child at hchild
  rw [hentry, Option.bind_some] at hchild
  exact List.mem_of_find?_eq_some hchild

/-- Replacing an egress RPC by one of the same id and the same service, or by none, keeps the
invariant. -/
theorem At.wf (h : B.Wf config) {id : RPCID} {en : Entry} {l₁ l₂ : List Child} {c : Child}
    (hat : B.At id en l₁ c l₂) {o : Option Child}
    (ho : ∀ c' ∈ o, c'.id = c.id ∧ c'.service = c.service ∧ c'.Fits en.info) :
    (B.set (id >>> 32) (some (en.withChild l₁ o l₂))).Wf config := by
  refine h.update le_rfl h.ids fun e he => ?_
  obtain rfl := Option.some.inj he
  exact (h.entries _ _ hat.entry).withChild hat.children ho

/-- Setting an entry changes its own egress RPCs only. -/
theorem child_set (B : Book) (i : RPCID) (en : Option Entry) (id : RPCID) :
    (B.set i en).child id = if id >>> 32 = i then en.bind fun en => en.child id
    else B.child id := by
  unfold Book.child set
  dsimp only
  by_cases hid : id >>> 32 = i
  · rw [if_pos hid, ← hid, Function.update_self]
  · rw [if_neg hid, Function.update_of_ne hid]

/-- Replacing an egress RPC, or leaving it out, changes what its id finds and nothing else. -/
theorem At.child_set (h : B.Wf config) {id : RPCID} {en : Entry} {l₁ l₂ : List Child} {c : Child}
    (hat : B.At id en l₁ c l₂) {o : Option Child} (ho : ∀ c' ∈ o, c'.id = c.id) :
    (B.set (id >>> 32) (some (en.withChild l₁ o l₂))).child = Function.update B.child id o := by
  have hwf := h.entries _ _ hat.entry
  funext id'
  rw [Book.child_set, Option.bind_some, hwf.child_withChild hat.children ho, hat.id]
  by_cases hid : id' = id
  · subst hid; rw [if_pos rfl, Function.update_self, Function.update_self]
  · rw [Function.update_of_ne hid, Function.update_of_ne hid]
    split_ifs with hs
    · unfold Book.child
      rw [hs, hat.entry, Option.bind_some]
    · rfl

/-- Enlisting an egress RPC replaces it, and leaves its neighbours in the entry alone. -/
theorem At.enlist (h : B.Wf config) {id : RPCID} {en : Entry} {l₁ l₂ : List Child} {c : Child}
    (hat : B.At id en l₁ c l₂) :
    B.enlist id = B.set (id >>> 32) (some (en.withChild l₁ (some (c.enlist en.info)) l₂)) := by
  have hnodup := (h.entries _ _ hat.entry).nodup
  rw [hat.children, List.map_append, List.map_cons] at hnodup
  have hne : ∀ c' ∈ l₁ ++ l₂, c'.id ≠ id := by
    intro c' hc' heq
    rcases List.mem_append.mp hc' with hc' | hc'
    · exact (List.nodup_append.mp hnodup).2.2 c'.id (List.mem_map_of_mem hc') c.id
        List.mem_cons_self (heq.trans hat.id.symm)
    · exact (List.nodup_cons.mp (List.nodup_append.mp hnodup).2.1).1
        (hat.id ▸ heq ▸ List.mem_map_of_mem hc')
  -- The ids of the children are distinct, so only one child is enlisted.
  have hfix : ∀ l : List Child, (∀ c' ∈ l, c' ∈ l₁ ++ l₂) →
      l.map (fun c => if c.id = id then c.enlist en.info else c) = l := by
    intro l hl
    refine (List.map_congr_left fun c' hc' => ?_).trans (List.map_id l)
    rw [if_neg (hne c' (hl c' hc'))]; rfl
  unfold Book.enlist Entry.withChild
  rw [hat.entry]
  dsimp only
  rw [hat.children, List.map_append, List.map_cons, if_pos hat.id,
    hfix l₁ fun _ hc' => List.mem_append_left _ hc',
    hfix l₂ fun _ hc' => List.mem_append_right _ hc']
  rfl

/-- An egress RPC that is enlisted fits: it waits for the services that its fan-out names. -/
theorem At.fits_enlist (h : B.Wf config) (hvalid : config.Valid) {id : RPCID} {en : Entry}
    {l₁ l₂ : List Child} {c : Child} (hat : B.At id en l₁ c l₂) :
    (c.enlist en.info).Fits en.info := by
  have hwf := h.entries _ _ hat.entry
  intro pending kept hphase
  obtain ⟨rfl, rfl⟩ := ChildPhase.waiting.inj hphase
  exact waits_enlist (hvalid.info _ _ hwf.find) fun hd =>
    (hwf.dynamic hd).2 c (by rw [hat.children]; simp)

/-! ## New ids -/

/-- No ingress RPC has the next id, which is above all that were handed out. -/
theorem Wf.entry_newId (h : B.Wf config) (hids : B.ids + 1 < 2 ^ 32 - 2) :
    B.entry (newId 0 B.ids) = none := by
  by_contra hne
  obtain ⟨en, hentry⟩ := Option.ne_none_iff_exists'.mp hne
  have hlow := (h.entries _ _ hentry).id.2
  rw [newId_toNat (by decide) (by omega)] at hlow
  have h0 : (0 : RPCID).toNat = 0 := rfl
  omega

/-- No egress RPC has the next id, whoever its parent is. -/
theorem Wf.child_newId (h : B.Wf config) (hids : B.ids + 1 < 2 ^ 32 - 2) {parent : RPCID}
    (hparent : parent.toNat < 2 ^ 32) : B.child (newId parent B.ids) = none := by
  by_contra hne
  obtain ⟨c, hchild⟩ := Option.ne_none_iff_exists'.mp hne
  obtain ⟨en, l₁, l₂, hat⟩ := exists_at hchild
  have howned := ((h.entries _ _ hat.entry).owned c (by rw [hat.children]; simp)).2
  rw [hat.id, newId_toNat hparent (by omega)] at howned
  omega

/-- Issuing an egress RPC adds it under the next id and changes nothing else. -/
theorem Wf.child_issue (h : B.Wf config) (hids : B.ids + 1 < 2 ^ 32 - 2) {parent : RPCID}
    {en : Entry} (hentry : B.entry parent = some en) (service : Bytes) :
    (B.set parent (some (B.issue parent en service))).child
      = Function.update B.child (newId parent B.ids)
          (some ⟨newId parent B.ids, service, .queued⟩) := by
  have hparent := (h.entries _ _ hentry).toNat_lt h.ids
  have hshift := newId_shift hparent (show B.ids + 2 < 2 ^ 32 by omega)
  have hnew := h.child_newId hids hparent
  unfold Book.child at hnew
  rw [hshift, hentry, Option.bind_some] at hnew
  unfold Entry.child at hnew
  funext id
  rw [Book.child_set, Option.bind_some]
  unfold Entry.child Book.issue
  dsimp only
  rw [List.find?_append]
  -- The new id was not in use, so it finds the new child and nothing else changes.
  by_cases hid : id = newId parent B.ids
  · subst hid
    rw [if_pos hshift, Function.update_self, hnew]
    simp
  · rw [Function.update_of_ne hid]
    split_ifs with hs
    · unfold Book.child Entry.child
      rw [hs, hentry, Option.bind_some]
      simp [Ne.symm hid]
    · rfl

/-- Setting an entry to one of the same mapping entry does not change which mapping entry an RPC
has. -/
theorem info_set {i : RPCID} {en en' : Entry} (hentry : B.entry i = some en)
    (hinfo : en'.info = en.info) : (B.set i (some en')).info = B.info := by
  funext id
  unfold info set
  dsimp only
  by_cases hid : id >>> 32 = i
  · rw [hid, Function.update_self, hentry, Option.map_some, Option.map_some, hinfo]
  · rw [Function.update_of_ne hid]

/-- Setting an entry without egress RPCs does not concern those of others. -/
theorem info_set_nil {i : RPCID} {o : Option Entry} (ho : ∀ en ∈ o, en.children = []) {id : RPCID}
    (hid : (B.set i o).child id ≠ none) : (B.set i o).info id = B.info id := by
  have hne : id >>> 32 ≠ i := by
    intro heq
    refine hid ?_
    rw [Book.child_set, if_pos heq]
    cases o with
    | none => rfl
    | some en =>
        rw [Option.bind_some]
        unfold Entry.child
        rw [ho en rfl]
        rfl
  unfold info set
  dsimp only
  rw [Function.update_of_ne hne]

/-- An ingress RPC without egress RPCs comes or goes, and every egress RPC stays. -/
theorem child_set_nil {i : RPCID} {o : Option Entry} (hB : ∀ en ∈ B.entry i, en.children = [])
    (ho : ∀ en ∈ o, en.children = []) : (B.set i o).child = B.child := by
  have hnone : ∀ {o : Option Entry} (id : RPCID), (∀ en ∈ o, en.children = []) →
      (o.bind fun en => en.child id) = none := by
    intro o id ho
    cases o with
    | none => rfl
    | some en =>
        rw [Option.bind_some]
        unfold Entry.child
        rw [ho en rfl]
        rfl
  funext id
  rw [Book.child_set, hnone id ho]
  split_ifs with hs
  · unfold Book.child
    rw [hs, hnone id hB]
  · rfl

/-- The empty book satisfies the invariant, for every configuration. -/
theorem wf_empty (config : MeshConfig) : empty.Wf config where
  entries i en h := by simp [empty] at h
  ids := by decide

end Book

end RlpSidecar
