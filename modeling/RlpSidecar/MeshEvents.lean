/-
The other events of a mesh sidecar, and all of them together.

Requests and responses move the ends of an RPC: an ingress request opens an entry of the book, an
egress request adds an egress RPC to it, the response to an egress RPC takes it out again and the
response to the ingress RPC closes the entry. `step_agrees` is the simulation: whatever the
neighbours do next, the handler ends in agreement with the book, or aborts for one of the reasons in
`Event.blames`.

The handlers of the server side come in through `protocol_server_spec`: a Credit Request leaves the
book alone, and a Credit Return uses a grant. `Outcome` is what an event can come to, as a list of
cases; everything that is proved about runs is by cases on it, and does not look at a handler
again.
-/
import RlpSidecar.MeshGrants

set_option autoImplicit false

open Tables

namespace RlpSidecar

/-- Nothing has been sent, and no RTT has been stored: the handler has only moved RPCs and
counters. -/
structure Quiet (s s' : Mesh) : Prop where
  last_rtt_us : s'.last_rtt_us = s.last_rtt_us
  requests : s'.requests = s.requests
  forwarded : s'.forwarded = s.forwarded
  returned : s'.returned = s.returned
  decrements : s'.decrements = s.decrements

namespace Agrees

variable {config : MeshConfig} {queue : List RPCMessage} {s s' : Mesh} {B : Book}

/-! ## Responses -/

/-- Acquiring a hosted service succeeds, and adds one to its balance. -/
theorem acquire_spec {server : Server} (hserver : server.Wf config.server) {service : Bytes}
    (he : service ∈ config.server.hosted) :
    ∃ server', server.acquire service = .ok server' ∧ server'.Wf config.server
      ∧ ∀ e, server'.balance e = server.balance e + if e = service then 1 else 0 := by
  obtain ⟨server', hacquire⟩ := Server.acquire_exists hserver he
  exact ⟨server', hacquire, (Server.acquire_spec hserver hacquire).2.1,
    Server.acquire_balance hserver hacquire⟩

/-- **The response to an egress RPC.** The RPC is forgotten, and its ingress RPC is active again
once it has no other. -/
theorem forward_egress_response_spec (hvalid : config.Valid) (h : Agrees config queue s B)
    {id : RPCID} {en : Entry} {l₁ l₂ : List Child} {c : Child} (hat : B.At id en l₁ c l₂)
    (hphase : c.phase = .forwarded) {blame : Abort → Prop} :
    Ends blame
      (fun s' => Agrees config queue s' (B.set (id >>> 32) (some (en.withChild l₁ none l₂)))
        ∧ Quiet s s' ∧ s'.rpc_queue = s.rpc_queue)
      (s.forward_egress_response config id) := by
  have hchild := hat.child h.book
  have hwf := h.book.entries _ _ hat.entry
  have hforwarded : c.isForwarded = true := by unfold Child.isForwarded; rw [hphase]
  have hnokept : c.kept = [] := by unfold Child.kept; rw [hphase]
  obtain ⟨ingress_rpc, hlookup, hmatch, hget, hmapping⟩ := h.parent hat.entry
  have he : ingress_rpc.service ∈ config.server.hosted :=
    hmatch.service ▸ mem_hosted_of_find hwf.find
  obtain ⟨server, hacquire, hserver, hbalance⟩ := acquire_spec h.server he
  -- the RPC is filed under its id
  have hplace := congrFun h.placed id
  rw [hchild, Child.place_forwarded hphase, hat.id] at hplace
  obtain ⟨rpc, hrpc, hlocal⟩ := Option.map_eq_some_iff.mp (congrArg Place.egress hplace)
  have hgone : ∀ s' : Mesh, s'.ppm_queue = s.ppm_queue → s'.egress_rpcs = s.egress_rpcs.erase id →
      s'.place queue = Function.update (s.place queue) id (Child.place none) := by
    intro s' hppm hegress
    rw [Mesh.place_egress hppm (by rw [hegress]; exact lookup_erase_eq _ _), hplace]
    rfl
  have hflags := en.info.flags
  have hvalue := Entry.value_answered hat.children hwf hforwarded
  have hkept : (none : Option Child).toList.flatMap Child.kept = c.kept := by rw [hnokept]; rfl
  have hstep : ∀ {s' : Mesh} {rpc' : RPCMessage}, s'.local_id_counter = s.local_id_counter →
      s'.ppm_queue = s.ppm_queue → s'.egress_rpcs = s.egress_rpcs.erase id →
      (fun i => s'.ingress_rpcs.lookup i)
        = Function.update (fun i => s.ingress_rpcs.lookup i) (id >>> 32) (some rpc') →
      Matches (en.withChild l₁ none l₂) rpc' → s'.server.Wf config.server →
      (∀ e, s'.server.balance e = s.server.balance e + if e = en.service then
        (if en.info.fanout = .pfanout ∧ en.children.length < en.issued then 0 else 1) else 0) →
      Agrees config queue s' (B.set (id >>> 32) (some (en.withChild l₁ none l₂))) := by
    intro s' rpc' hcounter hppm hegress hingress hmatch' hserver hbalance
    exact h.child_step hat (fun c' hc' => by simp at hc') hcounter (fun e he => hppm ▸ he) hingress
      hmatch' (hgone s' hppm hegress) hserver hvalue hbalance
  have hacquired : ¬ (en.info.fanout = .pfanout ∧ en.children.length < en.issued) →
      ∀ e, server.balance e = s.server.balance e + if e = en.service then
        (if en.info.fanout = .pfanout ∧ en.children.length < en.issued then 0 else 1) else 0 := by
    intro hnot e
    rw [if_neg hnot, ← hmatch.service]
    exact hbalance e
  unfold Mesh.forward_egress_response
  rw [hrpc]
  dsimp only
  rw [hlocal]
  unfold Mesh.fanout_res_credit_management
  rw [hget, ok_bind]
  dsimp only
  rw [hmapping, ok_bind]
  by_cases hf : en.info.fanout = .pfanout
  · -- a parallel fan-out counts the response, only the first one goes on
    rw [hf] at hflags
    rw [if_pos hflags]
    have hcounts := hmatch.parallel hf
    have hwidth := (hvalid.info _ _ hwf.find).width
    have hissued := hwf.parallel hf
    have hun := Entry.countP_withChild (fun c => !c.isForwarded) hat.children none
    have hlen := Entry.length_withChild hat.children none
    simp only [hforwarded, Bool.not_true, Option.any_none, Option.isSome_none, Bool.false_eq_true,
      if_false, Nat.add_zero] at hun hlen
    have hres : (ingress_rpc.pfanout_res + 1).toNat = ingress_rpc.pfanout_res.toNat + 1 :=
      toNat_succ (by omega)
    have hmatch' : Matches (en.withChild l₁ none l₂)
        { ingress_rpc with pfanout_res := ingress_rpc.pfanout_res + 1 } :=
      hmatch.withChild hat.children (by rw [hf]; decide) hkept rfl rfl fun _ => by
        unfold Entry.unsent at hcounts ⊢
        dsimp only
        omega
    dsimp only [Mesh.set_ingress]
    split_ifs with hfirst
    · refine ⟨hstep rfl rfl rfl (lookup_insert_eq _ _ _) hmatch' h.server fun e => ?_,
        ⟨rfl, rfl, rfl, rfl, rfl⟩, rfl⟩
      rw [if_pos (⟨hf, by omega⟩ : en.info.fanout = .pfanout ∧ _), ite_self, add_zero]
    · rw [hacquire]
      exact ⟨hstep rfl rfl rfl (lookup_insert_eq _ _ _) hmatch' hserver
        (hacquired fun hcond => by have hlt := hcond.2; omega), ⟨rfl, rfl, rfl, rfl, rfl⟩, rfl⟩
  · have hp : en.info.pfanout = false := by
      cases hf' : en.info.fanout with
      | plain | dfanout => rw [hf'] at hflags; exact hflags.1
      | pfanout => exact absurd hf' hf
    rw [if_neg (by rw [hp]; simp)]
    rw [hacquire]
    have hmatch' : Matches (en.withChild l₁ none l₂) ingress_rpc := by
      by_cases hd : en.info.fanout = .dfanout
      · obtain ⟨rfl, rfl, hissued⟩ := h.only_child hat hd
        refine ⟨hmatch.service, fun hp' => absurd hp' hf, fun _ h0 => ?_, fun _ c' hc' => ?_, ?_⟩
        · have h0' : en.issued = 0 := h0
          omega
        · simp [Entry.withChild] at hc'
        · rw [Entry.kept_withChild hat.children hkept]
          exact hmatch.returns
      · exact hmatch.withChild hat.children hd hkept rfl rfl fun hp' => absurd hp' hf
    exact ⟨hstep rfl rfl rfl (Function.update_eq_self_iff.mpr hlookup.symm).symm hmatch' hserver
      (hacquired fun hcond => hf hcond.1), ⟨rfl, rfl, rfl, rfl, rfl⟩, rfl⟩

/-- **The response to an ingress RPC**, whose egress RPCs are all answered. -/
theorem forward_ingress_response_spec (h : Agrees config queue s B) {id : RPCID} {en : Entry}
    (hentry : B.entry id = some en) (hdone : en.children = [])
    (hall : en.info.fanout = .pfanout → en.issued = en.info.downstreams.length)
    (now_ts : BitVec 64) {blame : Abort → Prop} :
    Ends blame
      (fun s' => Agrees config queue s' (B.set id none) ∧ Quiet s s' ∧ s'.rpc_queue = s.rpc_queue)
      (s.forward_ingress_response id now_ts) := by
  have hwf := h.book.entries _ _ hentry
  have hrel := h.ingress id
  rw [hentry] at hrel
  generalize hlookup : s.ingress_rpcs.lookup id = o at hrel
  cases hrel with
  | some hmatch =>
    rename_i rpc
    have he : rpc.service ∈ config.server.hosted := hmatch.service ▸ mem_hosted_of_find hwf.find
    obtain ⟨server, hrelease⟩ := Server.release_exists h.server he now_ts
    have hserver := (Server.release_spec h.server hrelease).2.1
    have hbalance := Server.release_balance h.server hrelease
    -- no credit return is left in the message when it is cleared
    have hempty : rpc.credit_return_queue = [] := by
      have hreturns := hmatch.returns
      rw [hdone] at hreturns
      exact List.forall₂_nil_left_iff.mp hreturns
    unfold Mesh.forward_ingress_response
    rw [hlookup]
    dsimp only
    rw [hrelease, ok_bind]
    unfold RPCMessage.clear
    rw [hempty, if_neg (by simp), ok_bind]
    refine ⟨⟨?_, hserver, h.counter, rel_update h.ingress .none (lookup_erase_eq _ _), ?_, h.routed,
      fun e => ?_⟩, ⟨rfl, rfl, rfl, rfl, rfl⟩, rfl⟩
    · exact h.book.update le_rfl h.book.ids fun e he => by simp at he
    · rw [Book.child_set_nil (fun en' hen' => ?_) fun en' hen' => by simp at hen']
      · exact h.placed
      · rw [hentry] at hen'
        obtain rfl := Option.some.inj hen'
        exact hdone
    · -- an ingress RPC without egress RPCs counts for one
      have hold := h.balance e
      have hvalue := Entry.value_done hdone hall
      have hspent : (B.set id none).spent = B.spent := rfl
      rw [Book.owed_set, hentry, hspent]
      simp only [worth, hvalue]
      have hnew := hbalance e
      rw [hmatch.service] at hnew
      by_cases hs : en.service = e
      · rw [if_pos hs.symm] at hnew
        rw [if_pos hs]
        omega
      · rw [if_neg (Ne.symm hs)] at hnew
        rw [if_neg hs]
        omega

/-! ## Requests -/

/-- **An ingress request**, which uses a grant. `hids` leaves room for its id: the lower halves of
ids are counted up and must not wrap around. -/
theorem receive_ingress_request_spec (h : Agrees config queue s B) {service : Bytes}
    {info : MappingInfo} (hinfo : config.server.find service = some info)
    (hids : B.ids + 1 < 2 ^ 32 - 2) {blame : Abort → Prop} :
    Ends blame
      (fun s' => Agrees config queue s'
          ((B.set (newId 0 B.ids) (some ⟨service, info, 0, []⟩)).spend service).count
        ∧ Quiet s s' ∧ s'.rpc_queue = s.rpc_queue)
      (s.receive_ingress_request config service) := by
  have hnone := h.book.entry_newId hids
  have hfree : s.ingress_rpcs.lookup (newId 0 B.ids) = none := by
    have hrel := h.ingress (newId 0 B.ids)
    rw [hnone] at hrel
    generalize s.ingress_rpcs.lookup (newId 0 B.ids) = o at hrel
    cases hrel
    rfl
  have hid : (get_new_local_id s.local_id_counter 0).1 = newId 0 B.ids := by rw [h.counter]; rfl
  have hcounter : (get_new_local_id s.local_id_counter 0).2 = BitVec.ofNat 64 (B.ids + 1 + 1) := by
    rw [h.counter]; exact newId_snd 0 B.ids
  unfold Mesh.receive_ingress_request RPCMessage.add_header_field
  dsimp only
  rw [if_pos (.inr rfl), ok_bind, hid, emplace_of_free hfree]
  refine ⟨⟨?_, h.server, hcounter, rel_update h.ingress (.some ?_) (lookup_insert_eq _ _ _), ?_,
    h.routed, fun e => ?_⟩, ⟨rfl, rfl, rfl, rfl, rfl⟩, rfl⟩
  · refine h.book.update (Nat.le_succ _) hids fun e he => ?_
    obtain rfl := Option.some.inj he
    have hlt : B.ids + 2 < 2 ^ 32 := by omega
    exact Book.wf_newEntry hlt hinfo
  · exact ⟨rfl, fun _ => ⟨rfl, rfl⟩, fun _ _ => rfl, fun _ c hc => by simp at hc, .nil⟩
  · have hchild : ((B.set (newId 0 B.ids) (some ⟨service, info, 0, []⟩)).spend service).count.child
        = B.child := by
      refine Book.child_set_nil (B := B) (fun en hen => ?_) fun en hen => ?_
      · rw [hnone] at hen; simp at hen
      · obtain rfl := Option.some.inj hen; rfl
    rw [hchild]
    exact h.placed
  · -- the grant it uses now counts for it
    have hold := h.balance e
    have howed := Book.owed_set B (newId 0 B.ids) (some ⟨service, info, 0, []⟩) e
    have hvalue : (⟨service, info, 0, []⟩ : Entry).value = 1 := by
      unfold Entry.value Entry.unsent
      cases info.fanout <;> simp
    rw [hnone] at howed
    simp only [worth, hvalue] at howed
    have hfinal : (((B.set (newId 0 B.ids) (some ⟨service, info, 0, []⟩)).spend service).count).owed
        e
        = (B.set (newId 0 B.ids) (some ⟨service, info, 0, []⟩)).owed e := rfl
    have hspent :
        (((B.set (newId 0 B.ids) (some ⟨service, info, 0, []⟩)).spend service).count).spent e
        = B.spent e + if service = e then 1 else 0 := by
      by_cases hs : service = e
      · subst hs; simp [Book.count, Book.spend, Book.set]
      · simp [Book.count, Book.spend, Book.set, hs, Ne.symm hs]
    rw [hfinal, howed, hspent]
    dsimp only
    split_ifs <;> push_cast <;> omega

/-- The message of an ingress RPC does not change when an egress RPC is issued. -/
theorem matches_issue {parent : RPCID} {en : Entry} {rpc : RPCMessage} {ids : ℕ} {service : Bytes}
    (hmatch : Matches en rpc) (hwf : en.Wf config ids parent) (hmay : en.MayIssue service) :
    Matches (B.issue parent en service) rpc where
  service := hmatch.service
  parallel hp := by
    have hcounts := hmatch.parallel hp
    have hun : (B.issue parent en service).unsent = en.unsent + 1 := by
      simp [Book.issue, Entry.unsent, Child.isForwarded]
    have hlen : (B.issue parent en service).children.length = en.children.length + 1 := by
      simp [Book.issue]
    have hissued : (B.issue parent en service).issued = en.issued + 1 := rfl
    omega
  blank _ h0 := by
    have hissued : (B.issue parent en service).issued = en.issued + 1 := rfl
    omega
  -- With dynamic fanout the new child is the only one, and the message has no name stored yet.
  counted hd c hc := by
    have hd' : en.info.fanout = .dfanout := hd
    have hissued := hwf.issued
    unfold Entry.MayIssue at hmay
    rw [hd'] at hmay
    have hnil : en.children = [] := List.length_eq_zero_iff.mp (by have h0 := hmay.1; omega)
    obtain rfl : c = ⟨newId parent B.ids, service, .queued⟩ := by
      simpa [Book.issue, hnil] using hc
    exact hmatch.blank hd' hmay.1
  returns := by
    have hkept : (B.issue parent en service).children.flatMap Child.kept
        = en.children.flatMap Child.kept := by
      simp [Book.issue, Child.kept]
    rw [hkept]
    exact hmatch.returns

/-- **An egress request**, sent for an open ingress RPC. It waits in the queue of the sidecar until
it is admitted. -/
theorem receive_egress_request_spec (h : Agrees config queue s B) {parent : RPCID}
    {service : Bytes} (priority : Priority) {en : Entry} (hentry : B.entry parent = some en)
    (hrouting : service ∈ config.routing) (hmay : en.MayIssue service)
    (hids : B.ids + 1 < 2 ^ 32 - 2) {blame : Abort → Prop} :
    Ends blame
      (fun s' => ∃ rpc, Agrees config (queue ++ [rpc]) s'
          (B.set parent (some (B.issue parent en service))).count
        ∧ Quiet s s' ∧ s'.rpc_queue = s.rpc_queue ++ [rpc])
      (s.receive_egress_request config parent service priority) := by
  have hwf := h.book.entries _ _ hentry
  have hparent := hwf.toNat_lt h.book.ids
  have hlow := hwf.id.1
  have hchild := h.book.child_issue hids hentry service
  have hnone := h.book.child_newId hids hparent
  have hid : (get_new_local_id s.local_id_counter parent).1 = newId parent B.ids := by
    rw [h.counter]; rfl
  have hcounter : (get_new_local_id s.local_id_counter parent).2
      = BitVec.ofNat 64 (B.ids + 1 + 1) := by rw [h.counter]; exact newId_snd parent B.ids
  have hint : parent.toInt = parent.toNat := BitVec.toInt_eq_toNat_of_lt (by omega)
  have hrel := h.ingress parent
  rw [hentry] at hrel
  generalize hlookup : s.ingress_rpcs.lookup parent = o at hrel
  cases hrel with
  | some hmatch =>
    unfold Mesh.receive_egress_request RPCMessage.add_header_field
    dsimp only [RPCMapper.blankMessage]
    rw [if_neg (by rw [hint]; omega), ok_bind, hid]
    refine ⟨_, ⟨?_, h.server, hcounter, rel_update h.ingress (.some (matches_issue hmatch hwf hmay))
      (Function.update_eq_self_iff.mpr hlookup.symm).symm, ?_, h.routed, fun e => ?_⟩,
      ⟨rfl, rfl, rfl, rfl, rfl⟩, rfl⟩
    · refine h.book.update (Nat.le_succ _) hids fun e he => ?_
      obtain rfl := Option.some.inj he
      exact h.book.issue hentry hrouting hmay hids
    · -- the request joins the queue under its new id
      have hplace := congrFun h.placed (newId parent B.ids)
      rw [hnone] at hplace
      have hcount : (B.set parent (some (B.issue parent en service))).count.child = _ := hchild
      have hnew := place_update h.placed hcount
      rw [Child.place_queued rfl] at hnew
      rw [← hnew]
      refine (Mesh.place_push_queue queue s _).trans ?_
      dsimp only
      rw [hplace]
      rfl
    · have hold := h.balance e
      have hservice : (B.issue parent en service).service = en.service := rfl
      have howed := Book.owed_set_some hentry hservice (Entry.value_issue hwf hmay) e
      rw [ite_self, add_zero] at howed
      have hcount : (B.set parent (some (B.issue parent en service))).count.owed e
          = (B.set parent (some (B.issue parent en service))).owed e := rfl
      rw [hcount, howed]
      exact hold

/-! ## Datagrams for the server side -/

/-- **A Credit Request** leaves the book alone, **a Credit Return** uses a grant. -/
theorem protocol_server_spec (h : Agrees config queue s B) {req : Buffer} {env : Server.Env}
    (hdispatch : dispatch_rlp_recv req = .ok .protocol_server) {o : Option Bytes}
    (ho : ∀ e, read_server_message req = .ok (.credit_return e) ↔ o = some e) :
    Ends (fun _ => True)
      (fun s' => Agrees config queue s' (o.elim B B.spend) ∧ Quiet s s'
        ∧ s'.rpc_queue = s.rpc_queue)
      (s.handle config (.datagram req env)) := by
  unfold Mesh.handle
  dsimp only
  cases hserver : s.server.protocol_server config.server env req with
  | error e => trivial
  | ok server =>
      have hwf := (Server.protocol_server_spec h.server hdispatch hserver).1
      have hbalance := Server.protocol_server_balance h.server hdispatch hserver
      refine ⟨?_, ⟨rfl, rfl, rfl, rfl, rfl⟩, rfl⟩
      cases o with
      | none =>
          refine ⟨h.book, hwf, h.counter, h.ingress, h.placed, h.routed, fun e => ?_⟩
          have hnone : read_server_message req ≠ .ok (.credit_return e) := fun heq => by
            have hsome := (ho e).mp heq
            simp at hsome
          rw [hbalance e, if_neg hnone, sub_zero]
          exact h.balance e
      | some service =>
          refine ⟨⟨h.book.entries, h.book.ids⟩, hwf, h.counter, h.ingress, h.placed, h.routed,
            fun e => ?_⟩
          -- a grant that comes back is one that was not used: both sides of the balance lose it
          have hold := h.balance e
          have hread := ho e
          have howed : (B.spend service).owed e = B.owed e := rfl
          have hspent := B.spent_spend service e
          rw [hbalance e, Option.elim_some, howed, hspent]
          by_cases hs : service = e
          · rw [if_pos (hread.mpr (congrArg some hs)), if_pos hs]
            push_cast
            omega
          · rw [if_neg fun heq => hs (Option.some.inj (hread.mp heq)), if_neg hs]
            push_cast
            omega

end Agrees

/-! ## All events -/

/-- What a handler may make the process abort for. On the client side these are a service that
cannot be sent a Credit Request, for want of a pool or an RTT or because its name is too long for a
datagram, and what is wrong with a grant or with the RPC it is for. -/
def Mesh.Event.blames (config : MeshConfig) (s : Mesh) (B : Book) : Mesh.Event → Abort → Prop
  | .credit_requests, e => Agrees.RequestBlames config s (s.rpc_queue.flatMap (Agrees.asked B)) e
  | .grant buf env, e => ∃ m c, read_credit_grant buf = .ok m ∧ B.child m.id = some c
      ∧ Agrees.GrantBlames config s env m c e
  | .datagram _ _, _ => True
  | _, _ => False

/-- What an event has done, for the egress RPCs and for what has been sent. -/
inductive Outcome (config : MeshConfig) (s : Mesh) (B : Book) (s' : Mesh) (B' : Book) :
    Mesh.Event → Prop
  /-- No egress RPC has changed. -/
  | kept (ev : Mesh.Event) (hev : (∀ buf env, ev ≠ .grant buf env) ∧ ev ≠ .credit_requests)
      (hquiet : Quiet s s')
      (hids : B.ids ≤ B'.ids) (hchild : B'.child = B.child)
      (hinfo : ∀ id, B'.child id ≠ none → B'.info id = B.info id) : Outcome config s B s' B' ev
  /-- One has been issued, under an id that was never in use. -/
  | issued (parent : RPCID) (service : Bytes) (priority : Priority) (hquiet : Quiet s s')
      (hids : B'.ids = B.ids + 1) (hnew : (newId parent B.ids).toNat % 2 ^ 32 = B.ids + 2)
      (hold : B.child (newId parent B.ids) = none)
      (hchild : B'.child = Function.update B.child (newId parent B.ids)
        (some ⟨newId parent B.ids, service, .queued⟩))
      (hinfo : B'.info = B.info) : Outcome config s B s' B'
        (.egress_request parent service priority)
  /-- Those in the queue have been admitted. -/
  | admitted (h : Agrees.Admitted config s.rpc_queue { s with rpc_queue := [] } B s' B') :
      Outcome config s B s' B' .credit_requests
  /-- A grant has been used for one. -/
  | granted (buf : Buffer) (env : Mesh.GrantEnv) (m : GrantMessage) (en : Entry) (c : Child)
      (pending : List Bytes) (kept : List Buffer) (hread : read_credit_grant buf = .ok m)
      (hentry : B.entry (m.id >>> 32) = some en) (hold : B.child m.id = some c) (hid : c.id = m.id)
      (hphase : c.phase = .waiting pending kept) (hpending : m.service ∈ pending)
      (hdelivered : Agrees.Delivered s en c pending kept m.service buf s') (hids : B'.ids = B.ids)
      (hchild : B'.child
        = Function.update B.child m.id (some (c.granted m.service buf pending kept)))
      (hinfo : B'.info = B.info) : Outcome config s B s' B' (.grant buf env)
  /-- One has been answered. -/
  | answered (id : RPCID) (c : Child) (hold : B.child id = some c) (hphase : c.phase = .forwarded)
      (hquiet : Quiet s s') (hids : B'.ids = B.ids)
        (hchild : B'.child = Function.update B.child id none)
      (hinfo : B'.info = B.info) : Outcome config s B s' B' (.egress_response id)

/-- **The simulation.** Whatever the neighbours do next, the handler ends in agreement with the
book, or the process aborts for one of the reasons above. -/
theorem step_agrees {config : MeshConfig} (hvalid : config.Valid) {s : Mesh} {B B' : Book}
    {ev : Mesh.Event} (h : Agrees config s.rpc_queue s B) (hs : Book.Step config s B ev B') :
    Ends (ev.blames config s B)
      (fun s' => Agrees config s'.rpc_queue s' B' ∧ Outcome config s B s' B' ev)
      (s.handle config ev) := by
  cases hs with
  | ingress_request service info hinfo hgrant hids =>
      refine (h.receive_ingress_request_spec hinfo hids).mono fun s' hs' => ?_
      obtain ⟨hagrees, hquiet, hqueue⟩ := hs'
      -- a new entry, without egress RPCs
      have hnone := h.book.entry_newId hids
      have hnil : ∀ en ∈ (some ⟨service, info, 0, []⟩ : Option Entry), en.children = [] := by
        intro en hen
        obtain rfl := Option.some.inj hen
        rfl
      refine ⟨by rw [hqueue]; exact hagrees, .kept _ (by simp) hquiet (Nat.le_succ _)
        (Book.child_set_nil (B := B) (fun en hen => ?_) hnil) fun id hid =>
        Book.info_set_nil hnil hid⟩
      rw [hnone] at hen
      simp at hen
  | egress_request parent service priority en hentry hrouting hmay hids =>
      refine (h.receive_egress_request_spec priority hentry hrouting hmay hids).mono
        fun s' hs' => ?_
      obtain ⟨rpc, hagrees, hquiet, hqueue⟩ := hs'
      have hparent := (h.book.entries _ _ hentry).toNat_lt h.book.ids
      refine ⟨by rw [hqueue]; exact hagrees, .issued parent service priority hquiet rfl ?_
        (h.book.child_newId hids hparent) (h.book.child_issue hids hentry service)
        (Book.info_set hentry rfl)⟩
      rw [newId_toNat hparent (by omega)]
      omega
  | credit_requests =>
      -- the queue is taken as a whole, and admitted from there
      have hcleared : Agrees config s.rpc_queue { s with rpc_queue := [] } B :=
        ⟨h.book, h.server, h.counter, h.ingress, h.placed, h.routed, h.balance⟩
      have hadmit : Ends (Mesh.Event.blames config s B .credit_requests) _
        (s.handle config .credit_requests) := hcleared.admit_requests_spec hvalid
      refine hadmit.mono fun s' hs' => ?_
      obtain ⟨hagrees, hqueue, hadmitted⟩ := hs'
      exact ⟨by rw [hqueue]; exact hagrees, .admitted hadmitted⟩
  | grant buf env m en l₁ c l₂ pending kept hread hone hat hphase hpending =>
      refine ((h.protocol_client_grant_spec hvalid hread hone hat hphase hpending env).blame_mono
        fun e he => (⟨m, c, hread, hat.child h.book, he⟩ :
          Mesh.Event.blames config s B (.grant buf env) e)).mono
        fun s' hs' => ?_
      obtain ⟨hagrees, hdelivered⟩ := hs'
      refine ⟨by rw [hdelivered.rpc_queue]; exact hagrees,
        .granted buf env m en c pending kept hread
        hat.entry (hat.child h.book) hat.id hphase hpending hdelivered rfl
        (hat.child_set h.book fun c' hc' => ?_) (Book.info_set hat.entry rfl)⟩
      obtain rfl := Option.some.inj hc'
      rfl
  | egress_response id en l₁ c l₂ hat hphase =>
      refine (h.forward_egress_response_spec hvalid hat hphase).mono fun s' hs' => ?_
      obtain ⟨hagrees, hquiet, hqueue⟩ := hs'
      exact ⟨by rw [hqueue]; exact hagrees, .answered id c (hat.child h.book) hphase hquiet rfl
        (hat.child_set h.book fun c' hc' => by simp at hc') (Book.info_set hat.entry rfl)⟩
  | ingress_response id now_ts en hentry hdone hall =>
      refine (h.forward_ingress_response_spec hentry hdone hall now_ts).mono fun s' hs' => ?_
      obtain ⟨hagrees, hquiet, hqueue⟩ := hs'
      have hnil : ∀ en ∈ (none : Option Entry), en.children = [] := by simp
      refine ⟨by rw [hqueue]; exact hagrees, .kept _ (by simp) hquiet le_rfl
        (Book.child_set_nil (fun en' hen' => ?_) hnil) fun id' hid' => Book.info_set_nil hnil hid'⟩
      rw [hentry] at hen'
      obtain rfl := Option.some.inj hen'
      exact hdone
  | credit_request req env service id priority rtt hdispatch hread =>
      have ho : ∀ e, read_server_message req = .ok (.credit_return e)
          ↔ (none : Option Bytes) = some e := by
        intro e; rw [hread]; simp
      refine (h.protocol_server_spec hdispatch ho).mono fun s' hs' => ?_
      obtain ⟨hagrees, hquiet, hqueue⟩ := hs'
      exact ⟨by rw [hqueue]; exact hagrees, .kept _ (by simp) hquiet le_rfl rfl fun _ _ => rfl⟩
  | credit_return req env service hdispatch hread hgrant =>
      have ho : ∀ e, read_server_message req = .ok (.credit_return e) ↔ some service = some e := by
        intro e; rw [hread]; simp
      refine (h.protocol_server_spec hdispatch ho).mono fun s' hs' => ?_
      obtain ⟨hagrees, hquiet, hqueue⟩ := hs'
      exact ⟨by rw [hqueue]; exact hagrees, .kept _ (by simp) hquiet le_rfl rfl fun _ _ => rfl⟩

end RlpSidecar
