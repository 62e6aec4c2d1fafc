/-
One egress RPC moves on, and its admission.

An egress RPC moves on in three events: it is admitted, a grant for it arrives, its response
arrives. `Agrees.child_step` is what the three have in common: one egress RPC is replaced in the
book, its place in the sidecar and the message object of its ingress RPC change with it, and the
counter of the service moves by the difference in value. What is left to each event is to run the
handler, and to say in which ways it may abort: nothing it looks up is ever missing.

For an admission the three modes differ only in the services that are asked for a credit.
`admit_requests_spec` is the loop of `protocol_client` over its queue: all of the requests are
admitted, in order, unless a Credit Request cannot be sent, and `RequestBlames` lists why that may
be.
-/
import RlpSidecar.MeshCoupling

set_option autoImplicit false

open Tables

namespace RlpSidecar

theorem MappingInfo.flags (info : MappingInfo) :
    match info.fanout with
    | .plain => info.pfanout = false ∧ info.dfanout = false
    | .pfanout => info.pfanout = true
    | .dfanout => info.pfanout = false ∧ info.dfanout = true := by
  unfold fanout
  cases hp : info.pfanout <;> cases hd : info.dfanout <;> simp

/-- The dynamic flag is set for a dynamic fan-out only, since an entry has at most one of the
flags. -/
theorem MappingInfo.Valid.dfanout_eq {info : MappingInfo} (h : info.Valid) :
    info.dfanout = decide (info.fanout = .dfanout) := by
  have hexclusive := h.exclusive
  unfold fanout
  cases hp : info.pfanout <;> cases hd : info.dfanout <;> simp_all

/-- A dynamic fan-out asks all downstreams for a credit, whichever of them the egress RPC is
for. -/
theorem MappingInfo.Valid.asks_dynamic {info : MappingInfo} (h : info.Valid)
    (hd : info.fanout = .dfanout) (service : Bytes) : asks info service = info.downstreams := by
  unfold asks
  rw [h.dfanout_eq, if_pos (by simpa using hd)]

/-- The other modes ask the service of the egress RPC, and no other. -/
theorem MappingInfo.Valid.asks_static {info : MappingInfo} (h : info.Valid)
    (hd : info.fanout ≠ .dfanout) (service : Bytes) : asks info service = [service] := by
  unfold asks
  rw [h.dfanout_eq, if_neg (by simpa using hd)]

/-! ## What an ingress RPC counts for -/

namespace Entry

variable {config : MeshConfig} {ids : ℕ} {i : RPCID} {en : Entry} {l₁ l₂ : List Child}
  {c c' : Child}

theorem countP_withChild (p : Child → Bool) (hchildren : en.children = l₁ ++ c :: l₂)
    (o : Option Child) :
    (en.withChild l₁ o l₂).children.countP p + (if p c then 1 else 0)
      = en.children.countP p + (if o.any p then 1 else 0) := by
  unfold withChild
  dsimp only
  rw [hchildren, List.countP_append, List.countP_append, List.countP_append, List.countP_cons]
  cases o with
  | none => simp; omega
  | some c' => simp [List.countP_cons]; omega

theorem length_withChild (hchildren : en.children = l₁ ++ c :: l₂) (o : Option Child) :
    (en.withChild l₁ o l₂).children.length + 1
      = en.children.length + (if o.isSome then 1 else 0) := by
  unfold withChild
  dsimp only
  rw [hchildren]
  cases o with
  | none => simp; omega
  | some c' => simp

/-- Kept grants do not change with an egress RPC that keeps as many. -/
theorem kept_withChild (hchildren : en.children = l₁ ++ c :: l₂) {o : Option Child}
    (ho : o.toList.flatMap Child.kept = c.kept) :
    (en.withChild l₁ o l₂).children.flatMap Child.kept = en.children.flatMap Child.kept := by
  unfold withChild
  dsimp only
  rw [hchildren, List.flatMap_append, List.flatMap_append, List.flatMap_append, ho,
    List.flatMap_cons]

/-- Until it is forwarded, an egress RPC changes nothing in what its ingress RPC counts for. -/
theorem value_unsent (hchildren : en.children = l₁ ++ c :: l₂) (hc : c.isForwarded = false)
    (hc' : c'.isForwarded = false) : (en.withChild l₁ (some c') l₂).value = en.value + 0 := by
  have hsent := countP_withChild Child.isForwarded hchildren (some c')
  have hunsent := countP_withChild (fun c => !c.isForwarded) hchildren (some c')
  have hlen := length_withChild hchildren (some c')
  simp only [Option.any_some, hc, hc', Bool.not_false, Option.isSome_some, if_true,
    Bool.false_eq_true, if_false, Nat.add_right_cancel_iff] at hsent hunsent hlen
  unfold value unsent
  rw [hsent, hunsent, hlen]
  exact (add_zero _).symm

/-- A forwarded egress RPC stops its ingress RPC, except for a parallel one that is not the last. -/
theorem value_sent (hchildren : en.children = l₁ ++ c :: l₂) (hwf : en.Wf config ids i)
    (hc : c.isForwarded = false) (hc' : c'.isForwarded = true) :
    (en.withChild l₁ (some c') l₂).value = en.value
      + if en.info.fanout = .pfanout ∧ ¬ ((en.withChild l₁ (some c') l₂).unsent = 0
          ∧ en.issued = en.info.downstreams.length) then 0 else -1 := by
  have hsent := countP_withChild Child.isForwarded hchildren (some c')
  have hunsent := countP_withChild (fun c => !c.isForwarded) hchildren (some c')
  have hlen := length_withChild hchildren (some c')
  have hissued := hwf.issued
  have hpos : 0 < en.children.length := by rw [hchildren]; simp
  simp only [Option.any_some, hc, hc', Bool.not_false, Bool.not_true, Option.isSome_some, if_true,
    Bool.false_eq_true, if_false] at hsent hunsent hlen
  have hinfo : (en.withChild l₁ (some c') l₂).info = en.info := rfl
  have hiss : (en.withChild l₁ (some c') l₂).issued = en.issued := rfl
  unfold value unsent at *
  rw [hinfo, hiss]
  cases hf : en.info.fanout with
  | plain | dfanout =>
      simp only [reduceCtorEq, false_and, if_false]
      omega
  | pfanout =>
      simp only [true_and]
      split_ifs <;> omega

/-- The response to an egress RPC starts its ingress RPC again, except for a parallel one that is
not the first. -/
theorem value_answered (hchildren : en.children = l₁ ++ c :: l₂) (hwf : en.Wf config ids i)
    (hc : c.isForwarded = true) :
    (en.withChild l₁ none l₂).value = en.value
      + if en.info.fanout = .pfanout ∧ en.children.length < en.issued then 0 else 1 := by
  have hsent := countP_withChild Child.isForwarded hchildren none
  have hunsent := countP_withChild (fun c => !c.isForwarded) hchildren none
  have hlen := length_withChild hchildren none
  have hissued := hwf.issued
  simp only [Option.any_none, hc, Bool.not_true, Option.isSome_none, if_true, Bool.false_eq_true,
    if_false] at hsent hunsent hlen
  have hinfo : (en.withChild l₁ none l₂).info = en.info := rfl
  have hiss : (en.withChild l₁ none l₂).issued = en.issued := rfl
  unfold value unsent at *
  rw [hinfo, hiss]
  cases hf : en.info.fanout with
  | plain | dfanout =>
      simp only [reduceCtorEq, false_and, if_false]
      omega
  | pfanout =>
      simp only [true_and]
      split_ifs <;> omega

/-- Issuing an egress RPC changes nothing yet: it is queued, and holds no credit. -/
theorem value_issue {B : Book} (hwf : en.Wf config ids i) {parent : RPCID} {service : Bytes}
    (hmay : en.MayIssue service) : (B.issue parent en service).value = en.value + 0 := by
  have hissued := hwf.issued
  have hinfo : (B.issue parent en service).info = en.info := rfl
  have hiss : (B.issue parent en service).issued = en.issued + 1 := rfl
  have hlen : (B.issue parent en service).children.length = en.children.length + 1 := by
    simp [Book.issue]
  have hsent : (B.issue parent en service).children.countP Child.isForwarded
      = en.children.countP Child.isForwarded := by
    simp [Book.issue, Child.isForwarded]
  have hunsent : (B.issue parent en service).children.countP (fun c => !c.isForwarded)
      = en.children.countP (fun c => !c.isForwarded) + 1 := by
    simp [Book.issue, Child.isForwarded]
  unfold MayIssue at hmay
  unfold value unsent
  rw [hinfo, hiss, hlen, hsent, hunsent]
  cases hf : en.info.fanout with
  | plain | dfanout => exact (add_zero _).symm
  | pfanout =>
      rw [hf] at hmay
      dsimp only at hmay ⊢
      rw [if_neg (by omega)]
      split_ifs <;> omega

/-- An ingress RPC whose egress RPCs are all answered is active: it counts for one. -/
theorem value_done (hdone : en.children = [])
    (hall : en.info.fanout = .pfanout → en.issued = en.info.downstreams.length) :
    en.value = 1 := by
  unfold value unsent
  rw [hdone]
  cases hf : en.info.fanout with
  | plain | dfanout => simp
  | pfanout =>
      have hN := hall hf
      simp only [List.countP_nil, List.length_nil, true_and]
      split_ifs <;> omega

end Entry

/-! ## Steps of one egress RPC -/

/-- Outside a dynamic fan-out, the message object follows the counts of its egress RPCs. -/
theorem Matches.withChild {en : Entry} {l₁ l₂ : List Child} {c : Child} {o : Option Child}
    {rpc rpc' : RPCMessage} (h : Matches en rpc) (hchildren : en.children = l₁ ++ c :: l₂)
    (hd : en.info.fanout ≠ .dfanout) (hkept : o.toList.flatMap Child.kept = c.kept)
    (hservice : rpc'.service = rpc.service)
    (hreturns : rpc'.credit_return_queue = rpc.credit_return_queue)
    (hparallel : en.info.fanout = .pfanout →
      rpc'.pfanout_req.toNat + (en.withChild l₁ o l₂).unsent = en.issued
        ∧ rpc'.pfanout_res.toNat + (en.withChild l₁ o l₂).children.length = en.issued) :
    Matches (en.withChild l₁ o l₂) rpc' where
  service := hservice.trans h.service
  parallel := hparallel
  blank hd' := absurd hd' hd
  counted hd' := absurd hd' hd
  returns := by
    rw [Entry.kept_withChild hchildren hkept, hreturns]
    exact h.returns

/-- In a dynamic fan-out it follows its only egress RPC, whose datagrams it keeps for the Credit
Returns. -/
theorem Matches.withSole {en : Entry} {c : Child} {rpc rpc' : RPCMessage} (h : Matches en rpc)
    (hd : en.info.fanout = .dfanout) (hissued : en.issued = 1)
    (hservice : rpc'.service = rpc.service) (hcounted : c.Counted en.info rpc')
    (hreturns : List.Forall₂ ReturnOf c.kept rpc'.credit_return_queue) :
    Matches (en.withChild [] (some c) []) rpc' where
  service := hservice.trans h.service
  parallel hp := by
    have hp' : en.info.fanout = .pfanout := hp
    rw [hp'] at hd
    cases hd
  blank _ h0 := by
    have h0' : en.issued = 0 := h0
    rw [h0'] at hissued
    cases hissued
  counted _ c' hc' := by
    obtain rfl := List.mem_singleton.mp hc'
    exact hcounted
  returns := by
    have hkept : (en.withChild [] (some c) []).children.flatMap Child.kept = c.kept :=
      List.flatMap_singleton Child.kept c
    rw [hkept]
    exact hreturns

/-- A counter of a byte, as long as it does not wrap around. -/
theorem toNat_succ {b : BitVec 8} (h : b.toNat < 255) : (b + 1).toNat = b.toNat + 1 := by
  have hone : (1 : BitVec 8).toNat = 1 := rfl
  rw [BitVec.toNat_add, hone]
  omega

namespace Agrees

variable {config : MeshConfig} {queue queue' : List RPCMessage} {s s' : Mesh} {B : Book}

/-- **One egress RPC moves on**: what an event that is about it has to show. -/
theorem child_step (h : Agrees config queue s B) {id : RPCID} {en : Entry} {l₁ l₂ : List Child}
    {c : Child} (hat : B.At id en l₁ c l₂) {o : Option Child}
    (ho : ∀ c' ∈ o, c'.id = c.id ∧ c'.service = c.service ∧ c'.Fits en.info)
    {rpc' : RPCMessage} {d : ℤ}
    (hcounter : s'.local_id_counter = s.local_id_counter)
    (hrouted : ∀ service ∈ s.ppm_queue, service ∈ s'.ppm_queue)
    (hingress : (fun i => s'.ingress_rpcs.lookup i)
      = Function.update (fun i => s.ingress_rpcs.lookup i) (id >>> 32) (some rpc'))
    (hmatch : Matches (en.withChild l₁ o l₂) rpc')
    (hplace : s'.place queue' = Function.update (s.place queue) id (Child.place o))
    (hserver : s'.server.Wf config.server) (hvalue : (en.withChild l₁ o l₂).value = en.value + d)
    (hbalance : ∀ e, s'.server.balance e = s.server.balance e + if e = en.service then d else 0) :
    Agrees config queue' s' (B.set (id >>> 32) (some (en.withChild l₁ o l₂))) where
  book := hat.wf h.book ho
  server := hserver
  counter := hcounter.trans h.counter
  ingress := rel_update h.ingress (.some hmatch) hingress
  placed := by
    rw [hplace]
    exact place_update h.placed (hat.child_set h.book fun c' hc' => (ho c' hc').1)
  routed service hs := hrouted service (h.routed service hs)
  -- The counter of the service moves by as much as the value of its entry.
  balance e := by
    have hold := h.balance e
    have hservice : (en.withChild l₁ o l₂).service = en.service := rfl
    have hspent : (B.set (id >>> 32) (some (en.withChild l₁ o l₂))).spent = B.spent := rfl
    rw [hbalance e, Book.owed_set_some hat.entry hservice hvalue e, hspent]
    omega

/-- An egress RPC of a dynamic fan-out is the only one of its ingress RPC. -/
theorem only_child (h : Agrees config queue s B) {id : RPCID} {en : Entry} {l₁ l₂ : List Child}
    {c : Child} (hat : B.At id en l₁ c l₂) (hd : en.info.fanout = .dfanout) :
    l₁ = [] ∧ l₂ = [] ∧ en.issued = 1 := by
  have hwf := h.book.entries _ _ hat.entry
  have hlen := hwf.issued
  have hone := (hwf.dynamic hd).1
  rw [hat.children, List.length_append, List.length_cons] at hlen
  exact ⟨List.length_eq_zero_iff.mp (by omega), List.length_eq_zero_iff.mp (by omega), by omega⟩

/-! ## Admission -/

/-- Some of these services cannot be sent a Credit Request: it is not routed, or its RTT is not
there. -/
def RequestBlames (config : MeshConfig) (s : Mesh) (services : List Bytes) (e : Abort) : Prop :=
  ∃ service ∈ services, Mesh.credit_request_rtt config s.last_rtt_us service = .error e

/-- `send_credit_request` sends, unless the service has no pool, no RTT or a name that is too
long. -/
theorem send_credit_request_spec (service : Bytes) (id : RPCID) (s : Mesh) :
    Ends (RequestBlames config s [service])
      (fun s' => s' = { s with requests := s.requests ++ [(service, id)] })
      (s.send_credit_request config service id) := by
  have hcheck : Ends (RequestBlames config s [service]) (fun _ => True)
      (Mesh.credit_request_rtt config s.last_rtt_us service) :=
    (Ends.of_self fun _ _ => trivial).blame_mono fun e he =>
      ⟨service, List.mem_singleton_self _, he⟩
  exact hcheck.bind fun _ _ => rfl

theorem send_credit_requests_spec (id : RPCID) (services : List Bytes) (s : Mesh) :
    Ends (RequestBlames config s services)
      (fun s' => s' = { s with requests := s.requests ++ services.map fun e => (e, id) })
      (s.send_credit_requests config id services) := by
  induction services generalizing s with
  | nil =>
      have hnil : s.requests ++ [].map (fun e => (e, id)) = s.requests := List.append_nil _
      unfold Mesh.send_credit_requests
      change s = _
      rw [hnil]
  | cons service services ih =>
      unfold Mesh.send_credit_requests
      refine Ends.bind ((send_credit_request_spec service id s).blame_mono ?_) fun s₁ hs₁ => ?_
      · rintro e ⟨service', hmem, he⟩
        obtain rfl := List.mem_singleton.mp hmem
        exact ⟨service', List.mem_cons_self, he⟩
      · subst hs₁
        refine ((ih _).blame_mono ?_).mono fun s₂ hs₂ => ?_
        · rintro e ⟨service', hmem, he⟩
          exact ⟨service', List.mem_cons_of_mem _ hmem, he⟩
        · rw [hs₂]
          simp

/-- The services an egress RPC waits for, each with a Credit Request of its own. -/
def wanted : Option Child → List Bytes
  | none => []
  | some c => match c.phase with | .waiting pending _ => pending | _ => []

/-- What admitting the egress RPC `id` does to what the sidecar has sent. -/
structure Asked (s : Mesh) (B : Book) (id : RPCID) (s' : Mesh) : Prop where
  rpc_queue : s'.rpc_queue = s.rpc_queue
  requests : s'.requests = s.requests ++ (wanted ((B.enlist id).child id)).map fun e => (e, id)
  forwarded : s'.forwarded = s.forwarded
  returned : s'.returned = s.returned
  decrements : s'.decrements = s.decrements
  last_rtt_us : s'.last_rtt_us = s.last_rtt_us

/-- A request at the head of the queue is that of a queued egress RPC, and its only one. -/
theorem head_queued {rpc : RPCMessage} (h : Agrees config (rpc :: queue) s B) :
    ∃ c, B.child rpc.local_id = some c ∧ c.phase = .queued ∧ c.service = rpc.service
      ∧ s.ppm_queue.find (rpc.service, rpc.local_id) = none := by
  have hplace := congrFun h.placed rpc.local_id
  have hqueue := congrArg Place.queue hplace
  have hppm := congrFun (congrArg Place.ppm hplace) rpc.service
  unfold Mesh.place at hqueue hppm
  simp only [List.filter_cons, decide_true, if_true, List.map_cons] at hqueue hppm
  cases hchild : B.child rpc.local_id with
  | none => rw [hchild] at hqueue; simp at hqueue
  | some c =>
      rw [hchild] at hqueue hppm
      cases hphase : c.phase with
      | queued =>
          rw [Child.place_queued hphase] at hqueue hppm
          exact ⟨c, rfl, hphase, (List.cons.inj hqueue).1.symm, Option.map_eq_none_iff.mp hppm⟩
      | waiting pending kept => rw [Child.place_waiting hphase] at hqueue; simp at hqueue
      | forwarded => rw [Child.place_forwarded hphase] at hqueue; simp at hqueue

/-- The place of a queued egress RPC once it waits for its credits. -/
theorem place_enlist {rpc : RPCMessage} {q : PPMQueue} {c : Child} {info : MappingInfo}
    (h : Agrees config (rpc :: queue) s B) (hchild : B.child rpc.local_id = some c)
    (hphase : c.phase = .queued) (hservice : c.service = rpc.service) (hid : c.id = rpc.local_id)
    (hfind : q.find = Function.update s.ppm_queue.find (rpc.service, rpc.local_id) (some rpc))
    (hppm : s'.ppm_queue = q) (hegress : s'.egress_rpcs = s.egress_rpcs) :
    s'.place queue = Function.update (s.place (rpc :: queue)) rpc.local_id
      (Child.place (some (c.enlist info))) := by
  have hplace := congrFun h.placed rpc.local_id
  rw [hchild, Child.place_queued hphase] at hplace
  rw [← hppm] at hfind
  rw [Mesh.place_ppm hfind hegress, Mesh.place_pop_queue queue s rpc, Function.update_idem,
    Function.update_self, hplace, Child.place_waiting (c := c.enlist info) rfl]
  congr 1
  refine Place.ext rfl (funext fun service => ?_) rfl
  unfold Child.enlist
  dsimp only
  by_cases hs : service = rpc.service
  · subst hs
    rw [Function.update_self, if_pos hservice.symm, hid]
    rfl
  · rw [Function.update_of_ne hs, if_neg fun heq => hs (heq.trans hservice)]

/-- The services that are asked for a credit for an egress request. -/
def asked (B : Book) (rpc : RPCMessage) : List Bytes :=
  ((B.info rpc.local_id).map fun info => asks info rpc.service).getD []

/-- **One request is admitted**: it waits for its services, or the process ends because of one of
them. -/
theorem admit_request_spec (hvalid : config.Valid) {rpc : RPCMessage}
    (h : Agrees config (rpc :: queue) s B) :
    Ends (RequestBlames config s (asked B rpc))
      (fun s' => Agrees config queue s' (B.enlist rpc.local_id) ∧ Asked s B rpc.local_id s')
      (s.admit_request config rpc) := by
  obtain ⟨c, hchild, hphase, hservice, hfree⟩ := h.head_queued
  obtain ⟨en, l₁, l₂, hat⟩ := Book.exists_at hchild
  obtain ⟨ingress_rpc, hlookup, hmatch, hget, hmapping⟩ := h.parent hat.entry
  have hwf := h.book.entries _ _ hat.entry
  have hc : c ∈ en.children := by rw [hat.children]; simp
  have hline : rpc.service ∈ s.ppm_queue := h.routed _ (hservice ▸ hwf.routed c hc)
  obtain ⟨q, hpush, hrouted, hfind⟩ := PPMQueue.push_spec hline hfree
  -- the book: one egress RPC goes from queued to waiting
  have hfits := hat.fits_enlist h.book hvalid
  have hunsent : c.isForwarded = false := by unfold Child.isForwarded; rw [hphase]
  have hvalue : (en.withChild l₁ (some (c.enlist en.info)) l₂).value = _ :=
    Entry.value_unsent hat.children hunsent rfl
  have hkept : (some (c.enlist en.info)).toList.flatMap Child.kept = c.kept := by
    unfold Child.kept
    rw [hphase]
    rfl
  have henlist := hat.enlist h.book
  have hwanted : wanted ((B.enlist rpc.local_id).child rpc.local_id)
      = asks en.info rpc.service := by
    rw [henlist, hat.child_set h.book fun c' hc' => by obtain rfl := Option.some.inj hc'; rfl,
      Function.update_self, ← hservice]
    rfl
  have hstep : ∀ {s' : Mesh} {rpc' : RPCMessage}, s'.server = s.server →
      s'.local_id_counter = s.local_id_counter → s'.ppm_queue = q →
      s'.egress_rpcs = s.egress_rpcs →
      (fun i => s'.ingress_rpcs.lookup i)
        = Function.update (fun i => s.ingress_rpcs.lookup i) (rpc.local_id >>> 32) (some rpc') →
      Matches (en.withChild l₁ (some (c.enlist en.info)) l₂) rpc' →
      Agrees config queue s' (B.enlist rpc.local_id) := by
    intro s' rpc' hs hcounter hppm hegress hingress hmatch'
    rw [henlist]
    refine h.child_step hat (fun c' hc' => ?_) hcounter (fun e he => hppm ▸ hrouted e he) hingress
      hmatch' (h.place_enlist hchild hphase hservice hat.id hfind hppm hegress)
      (hs ▸ h.server) hvalue fun e => by rw [hs]; simp
    obtain rfl := Option.some.inj hc'
    exact ⟨rfl, rfl, hfits⟩
  unfold Mesh.admit_request
  rw [hpush, ok_bind]
  dsimp only
  have hget' : ({ s with ppm_queue := q } : Mesh).get_ingress_rpc rpc.local_id
      = .ok (rpc.local_id >>> 32, ingress_rpc) := hget
  rw [hget', ok_bind]
  dsimp only
  rw [hmapping, ok_bind]
  have hinfo := hvalid.info _ _ hwf.find
  have hflag := hinfo.dfanout_eq
  have hasked : asked B rpc = asks en.info rpc.service := by
    unfold asked Book.info
    rw [hat.entry]
    rfl
  by_cases hd : en.info.fanout = .dfanout
  · -- a dynamic fan-out: the ingress RPC remembers the service, all downstreams are asked
    have hdyn : en.info.dfanout = true := by rw [hflag]; simpa using hd
    rw [if_pos hdyn]
    rw [hasked, hinfo.asks_dynamic hd]
    refine (send_credit_requests_spec _ _ _).mono fun s' hs' => ?_
    subst hs'
    obtain ⟨rfl, rfl, hissued⟩ := h.only_child hat hd
    refine ⟨hstep rfl rfl rfl rfl (lookup_insert_eq _ _ _) ?_, ⟨rfl, ?_, rfl, rfl, rfl, rfl⟩⟩
    · have hreq := hmatch.counted hd c hc
      unfold Child.Counted at hreq
      rw [hphase] at hreq
      have hreq' : ingress_rpc.pfanout_req = 0 := hreq
      have hreturns := hmatch.returns
      rw [hat.children, List.nil_append, List.flatMap_singleton] at hreturns
      refine hmatch.withSole hd hissued rfl ?_ ?_
      · unfold Child.Counted Child.enlist
        dsimp only
        rw [hinfo.asks_dynamic hd, hreq']
        exact ⟨congrArg some hservice.symm, by simp⟩
      · unfold Child.kept at hreturns
        rw [hphase] at hreturns
        exact hreturns
    · rw [hwanted, hinfo.asks_dynamic hd]
      rfl
  · have hdyn : en.info.dfanout = false := by rw [hflag]; simpa using hd
    rw [if_neg (by rw [hdyn]; simp), hasked, hinfo.asks_static hd]
    refine (send_credit_request_spec _ _ _).mono fun s' hs' => ?_
    subst hs'
    refine ⟨hstep rfl rfl rfl rfl (Function.update_eq_self_iff.mpr hlookup.symm).symm ?_,
      ⟨rfl, ?_, rfl, rfl, rfl, rfl⟩⟩
    · refine hmatch.withChild hat.children hd hkept rfl rfl fun hp => ?_
      have hun := Entry.countP_withChild (fun c => !c.isForwarded) hat.children
        (some (c.enlist en.info))
      have hlen := Entry.length_withChild hat.children (some (c.enlist en.info))
      have hwait : (c.enlist en.info).isForwarded = false := rfl
      simp only [Option.any_some, hunsent, hwait, Bool.not_false, Option.isSome_some, if_true,
        Nat.add_right_cancel_iff] at hun hlen
      have hcounts := hmatch.parallel hp
      unfold Entry.unsent at hcounts ⊢
      rw [hun, hlen]
      exact hcounts
    · rw [hwanted, hinfo.asks_static hd]
      rfl

/-- A loop that admits these requests, with the agreement at every round. -/
inductive Admitted (config : MeshConfig) : List RPCMessage → Mesh → Book → Mesh → Book → Prop
  | nil {s : Mesh} {B : Book} : Admitted config [] s B s B
  | cons {rpc : RPCMessage} {rpcs : List RPCMessage} {s s₁ s' : Mesh} {B B' : Book}
      (pre : Agrees config (rpc :: rpcs) s B) (head : Asked s B rpc.local_id s₁)
      (tail : Admitted config rpcs s₁ (B.enlist rpc.local_id) s' B') :
      Admitted config (rpc :: rpcs) s B s' B'

/-- Admitting a request leaves the mapping entries alone, so the others ask the services they would
have asked. -/
theorem asked_enlist {rpc : RPCMessage} (h : Agrees config (rpc :: queue) s B) (rpc' : RPCMessage) :
    asked (B.enlist rpc.local_id) rpc' = asked B rpc' := by
  obtain ⟨c, hchild, -⟩ := h.head_queued
  obtain ⟨en, l₁, l₂, hat⟩ := Book.exists_at hchild
  have hinfo : (B.enlist rpc.local_id).info = B.info := by
    rw [hat.enlist h.book]
    exact Book.info_set hat.entry rfl
  unfold asked
  rw [hinfo]

/-- **`protocol_client`** admits all requests that are queued, in order, unless a Credit Request
cannot be sent. -/
theorem admit_requests_spec (hvalid : config.Valid) {rpcs : List RPCMessage}
    (h : Agrees config rpcs s B) :
    Ends (RequestBlames config s (rpcs.flatMap (asked B)))
      (fun s' => Agrees config [] s' (rpcs.foldl (fun B rpc => B.enlist rpc.local_id) B)
        ∧ s'.rpc_queue = s.rpc_queue
        ∧ Admitted config rpcs s B s' (rpcs.foldl (fun B rpc => B.enlist rpc.local_id) B))
      (Mesh.admit_requests config rpcs s) := by
  induction rpcs generalizing s B with
  | nil => exact ⟨h, rfl, .nil⟩
  | cons rpc rpcs ih =>
      unfold Mesh.admit_requests
      refine Ends.bind ((h.admit_request_spec hvalid).blame_mono ?_) fun s₁ hs₁ => ?_
      · rintro e ⟨service, hmem, he⟩
        exact ⟨service, List.mem_flatMap.mpr ⟨rpc, List.mem_cons_self, hmem⟩, he⟩
      · obtain ⟨h₁, hasked⟩ := hs₁
        refine ((ih h₁).blame_mono ?_).mono fun s' hs' => ?_
        · -- the RTTs and the mapping entries are those from before the first request
          rintro e ⟨service, hmem, he⟩
          obtain ⟨rpc', hrpc', hmem⟩ := List.mem_flatMap.mp hmem
          rw [h.asked_enlist] at hmem
          rw [hasked.last_rtt_us] at he
          exact ⟨service, List.mem_flatMap.mpr ⟨rpc', List.mem_cons_of_mem _ hrpc', hmem⟩, he⟩
        · exact ⟨hs'.1, hs'.2.1.trans hasked.rpc_queue, .cons h hasked hs'.2.2⟩

end Agrees

end RlpSidecar
