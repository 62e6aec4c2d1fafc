/-
A Credit Grant reaches a mesh sidecar.

In each mode of fan-out the grant is used for the egress RPC it names: a plain one is forwarded and
releases its service, a branch of a parallel one is forwarded and the last one releases, a dynamic
one is counted and either kept as a Credit Return or is the last, which forwards the RPC, sends the
returns and releases.

Each mode has its own lemma, since the source has a branch for each. What they have in common is
`Delivered`, what one grant does to the logs of the sidecar, and `UseBlames`, the reasons for which
it can end: an RPC without a priority, or a pool buffer that is not empty.
-/
import RlpSidecar.MeshSteps

set_option autoImplicit false

open Tables

namespace RlpSidecar

namespace Agrees

variable {config : MeshConfig} {queue : List RPCMessage} {s : Mesh} {B : Book}

/-- What a grant from `service` for the egress RPC `c` does to what the sidecar has sent. The last
grant sends the RPC that waits in `ppm_queue` under the service and the id of `c`. The service of
the ingress RPC is released with it, except for a branch of a parallel fan-out that is not the
last. The stored RTTs are still of the same services. -/
structure Delivered (s : Mesh) (en : Entry) (c : Child) (pending : List Bytes) (kept : List Buffer)
    (service : Bytes) (buf : Buffer) (s' : Mesh) : Prop where
  rpc_queue : s'.rpc_queue = s.rpc_queue
  requests : s'.requests = s.requests
  hosts : ∀ es, s.last_rtt_us.Hosts es → s'.last_rtt_us.Hosts es
  held : pending.erase service ≠ [] →
    s'.forwarded = s.forwarded ∧ s'.returned = s.returned ∧ s'.decrements = s.decrements
  sent : pending.erase service = [] → ∃ rpc rets, s.ppm_queue.find (c.service, c.id) = some rpc
    ∧ rpc.local_id = c.id ∧ rpc.service = c.service
    ∧ s'.forwarded = s.forwarded ++ [rpc] ∧ s'.returned = s.returned ++ rets
    ∧ List.Forall₂ ReturnOf (if service = c.service then kept else kept ++ [buf]) rets
    ∧ (s'.decrements = s.decrements ∨ s'.decrements = s.decrements ++ [en.service])
    ∧ (en.info.fanout ≠ .pfanout → s'.decrements = s.decrements ++ [en.service])

/-- An egress RPC that waits can be taken out of `ppm_queue` and filed under its id. -/
theorem waiting_rpc (h : Agrees config queue s B) {id : RPCID} {c : Child}
    (hchild : B.child id = some c) {pending : List Bytes} {kept : List Buffer}
    (hphase : c.phase = .waiting pending kept) (hid : c.id = id) :
    ∃ rpc q, s.ppm_queue.find (c.service, id) = some rpc
      ∧ s.ppm_queue.pop c.service id = .ok (rpc, q) ∧ rpc.service = c.service
      ∧ rpc.local_id = id ∧ (∀ service ∈ s.ppm_queue, service ∈ q)
      ∧ s.egress_rpcs.lookup id = none
      ∧ ∀ s' : Mesh, s'.ppm_queue = q → s'.egress_rpcs = s.egress_rpcs.insert id rpc →
          s'.place queue = Function.update (s.place queue) id
            (Child.place (some { c with phase := .forwarded })) := by
  have hplace := congrFun h.placed id
  rw [hchild, Child.place_waiting hphase] at hplace
  have hppm := congrFun (congrArg Place.ppm hplace) c.service
  have hegress := congrArg Place.egress hplace
  unfold Mesh.place at hppm hegress
  dsimp only at hppm hegress
  rw [if_pos rfl] at hppm
  obtain ⟨rpc, hfind, hkey⟩ := Option.map_eq_some_iff.mp hppm
  obtain ⟨hservice, hlocal⟩ := Prod.mk.inj hkey
  obtain ⟨q, hpop, hrouted, hq⟩ := PPMQueue.pop_spec hfind
  refine ⟨rpc, q, hfind, hpop, hservice, hlocal.trans hid, hrouted,
    Option.map_eq_none_iff.mp hegress,
    fun s' hppm' hegress' => ?_⟩
  -- out of `ppm_queue`, then into `egress_rpcs`
  have hout : ({ s with ppm_queue := q } : Mesh).place queue = _ := Mesh.place_ppm hq rfl
  have hin : s'.place queue
      = Function.update (({ s with ppm_queue := q } : Mesh).place queue) id _ :=
    Mesh.place_egress hppm' (by rw [hegress']; exact lookup_insert_eq _ _ _)
  rw [hin, hout, Function.update_idem, Function.update_self, hplace, Child.place_forwarded rfl]
  congr 1
  refine Place.ext rfl (funext fun service => ?_) (congrArg some hlocal)
  dsimp only
  by_cases hs : service = c.service
  · subst hs; rw [Function.update_self]; rfl
  · rw [Function.update_of_ne hs, if_neg hs]

/-- What using a grant may make the process abort for: the RPC it is for has no priority, or the
pool buffer for a Credit Return is not empty. -/
def UseBlames (config : MeshConfig) (s : Mesh) (env : Mesh.GrantEnv)
    (k : Bytes × RPCID) (e : Abort) :
    Prop :=
  (e = .requestHasNoPriority ∧ config.ids.is_plain_frontend = false
      ∧ ∃ rpc, s.ppm_queue.find k = some rpc ∧ rpc.priority = -1)
    ∨ (e = .bufferOverflow ∧ env.fresh.filled ≠ 0)

/-- `send_sub_request`, for an RPC that is not filed yet. It ends the process for one without a
priority. -/
theorem send_sub_request_spec {rpc : RPCMessage} {id : RPCID} (hlocal : rpc.local_id = id)
    (hid : id ≠ -1) (hfree : s.egress_rpcs.lookup id = none) {blame : Abort → Prop}
    (hblame : config.ids.is_plain_frontend = false → rpc.priority = -1 →
      blame .requestHasNoPriority) :
    Ends blame
      (fun s' => s' = { s with egress_rpcs := s.egress_rpcs.insert id rpc
                               forwarded := s.forwarded ++ [rpc] })
      (Mesh.send_sub_request config rpc s) := by
  unfold Mesh.send_sub_request
  rw [hlocal, if_neg fun hand => hid hand.1]
  split_ifs with hpriority
  · exact hblame hpriority.2 hpriority.1
  · rw [emplace_of_free hfree]
    exact rfl

/-- Releasing a hosted service succeeds, takes one off its balance, and is noted. -/
theorem release_spec {blame : Abort → Prop} (hserver : s.server.Wf config.server) {service : Bytes}
    (he : service ∈ config.server.hosted) (now_ts : BitVec 64) :
    Ends blame
      (fun s' => ∃ server, s' = { s with server := server, decrements := s.decrements ++ [service] }
        ∧ server.Wf config.server
        ∧ ∀ e, server.balance e = s.server.balance e + if e = service then -1 else 0)
      (s.release service now_ts) := by
  obtain ⟨server, hrelease⟩ := Server.release_exists hserver he now_ts
  unfold Mesh.release
  rw [hrelease, ok_bind]
  refine ⟨server, rfl, (Server.release_spec hserver hrelease).2.1, fun e => ?_⟩
  rw [Server.release_balance hserver hrelease e]
  split_ifs <;> omega

section Grant

variable {id : RPCID} {en : Entry} {l₁ l₂ : List Child} {c : Child} {pending : List Bytes}
  {kept : List Buffer} {service : Bytes}

/-- Outside a dynamic fan-out an egress RPC waits for the credit of its own service. -/
theorem own_credit (h : Agrees config queue s B) (hat : B.At id en l₁ c l₂)
    (hphase : c.phase = .waiting pending kept) (hpending : service ∈ pending)
    (hd : en.info.fanout ≠ .dfanout) :
    service = c.service ∧ pending.erase service = [] ∧ kept = [] := by
  have hwaits := (h.book.entries _ _ hat.entry).fits c (by rw [hat.children]; simp)
    pending kept hphase
  have hone : pending = [c.service] ∧ kept = [] := by
    unfold Waits at hwaits
    cases hf : en.info.fanout with
    | plain | pfanout => rw [hf] at hwaits; exact hwaits
    | dfanout => exact absurd hf hd
  obtain ⟨rfl, rfl⟩ := hone
  obtain rfl := List.mem_singleton.mp hpending
  exact ⟨rfl, by simp, rfl⟩

/-- After its last grant an egress RPC is forwarded, and waits for no more. -/
theorem granted_last (hlast : pending.erase service = []) (buf : Buffer) :
    c.granted service buf pending kept = { c with phase := .forwarded } := by
  unfold Child.granted
  rw [if_pos hlast]

/-- A grant for an egress RPC of a plain service, which is its only one: the RPC is forwarded at
once. -/
theorem grant_plain_spec (h : Agrees config queue s B) (hat : B.At id en l₁ c l₂)
    (hphase : c.phase = .waiting pending kept) (hpending : service ∈ pending)
    (hf : en.info.fanout = .plain) (buf : Buffer) (env : Mesh.GrantEnv) :
    Ends (UseBlames config s env (c.service, id))
      (fun s' => Agrees config queue s'
          (B.set (id >>> 32)
            (some (en.withChild l₁ (some (c.granted service buf pending kept)) l₂)))
        ∧ Delivered s en c pending kept service buf s')
      (s.fanout_req_management config env id service buf) := by
  have hd : en.info.fanout ≠ .dfanout := by rw [hf]; decide
  have hchild := hat.child h.book
  have hwf := h.book.entries _ _ hat.entry
  obtain ⟨rfl, hlast, rfl⟩ := h.own_credit hat hphase hpending hd
  obtain ⟨ingress_rpc, hlookup, hmatch, hget, hmapping⟩ := h.parent hat.entry
  obtain ⟨rpc, q, hfind, hpop, hservice, hlocal, hrouted, hfree, hplace⟩ :=
    h.waiting_rpc hchild hphase hat.id
  have hflags := en.info.flags
  rw [hf] at hflags
  have hunsent : c.isForwarded = false := by unfold Child.isForwarded; rw [hphase]
  rw [granted_last hlast]
  unfold Mesh.fanout_req_management
  rw [hget, ok_bind]
  dsimp only
  rw [hmapping, ok_bind, if_neg (by rw [hflags.1]; simp), if_neg (by rw [hflags.2]; simp), hpop,
    ok_bind]
  dsimp only
  -- The two ways out without a result: the message has no priority, or its id is in use.
  have hblame : config.ids.is_plain_frontend = false → rpc.priority = -1 →
      UseBlames config s env (c.service, id) .requestHasNoPriority :=
    fun hplain hpriority => .inl ⟨rfl, hplain, rpc, hfind, hpriority⟩
  refine Ends.bind (send_sub_request_spec hlocal (h.id_ne hchild) ?_ hblame) fun s₁ hs₁ => ?_
  · exact hfree
  subst hs₁
  rw [hmatch.service]
  refine Ends.mono (release_spec ?_ (mem_hosted_of_find hwf.find) env.now_ts) fun s' hs' => ?_
  · exact h.server
  obtain ⟨server, rfl, hserver, hbalance⟩ := hs'
  refine ⟨h.child_step hat (fun c' hc' => ?_) rfl hrouted
    (Function.update_eq_self_iff.mpr hlookup.symm).symm (hmatch.withChild hat.children hd ?_ rfl rfl
      fun hp => by rw [hp] at hf; simp at hf) (hplace _ rfl rfl) hserver
    ((Entry.value_sent hat.children hwf hunsent rfl).trans (by rw [if_neg (by rw [hf]; simp)]))
    hbalance, ⟨rfl, rfl, fun _ hes => hes, fun hne => absurd hlast hne, fun _ => ?_⟩⟩
  · obtain rfl := Option.some.inj hc'
    exact ⟨rfl, rfl, fun _ _ hp => by simp at hp⟩
  · unfold Child.kept
    rw [hphase]
    rfl
  · refine ⟨rpc, [], by rw [hat.id]; exact hfind, hlocal.trans hat.id.symm, hservice, rfl,
      (List.append_nil _).symm, ?_, .inr rfl, fun _ => rfl⟩
    rw [if_pos rfl]
    exact .nil

/-- A grant for a branch of a parallel fan-out: the branch is forwarded, and the last one releases
the service. -/
theorem grant_pfanout_spec (hvalid : config.Valid) (h : Agrees config queue s B)
    (hat : B.At id en l₁ c l₂) (hphase : c.phase = .waiting pending kept)
    (hpending : service ∈ pending) (hf : en.info.fanout = .pfanout) (buf : Buffer)
    (env : Mesh.GrantEnv) :
    Ends (UseBlames config s env (c.service, id))
      (fun s' => Agrees config queue s'
          (B.set (id >>> 32)
            (some (en.withChild l₁ (some (c.granted service buf pending kept)) l₂)))
        ∧ Delivered s en c pending kept service buf s')
      (s.fanout_req_management config env id service buf) := by
  have hd : en.info.fanout ≠ .dfanout := by rw [hf]; decide
  have hchild := hat.child h.book
  have hwf := h.book.entries _ _ hat.entry
  obtain ⟨rfl, hlast, rfl⟩ := h.own_credit hat hphase hpending hd
  obtain ⟨ingress_rpc, hlookup, hmatch, hget, hmapping⟩ := h.parent hat.entry
  obtain ⟨rpc, q, hfind, hpop, hservice, hlocal, hrouted, hfree, hplace⟩ :=
    h.waiting_rpc hchild hphase hat.id
  have hflags := en.info.flags
  rw [hf] at hflags
  have hunsent : c.isForwarded = false := by unfold Child.isForwarded; rw [hphase]
  -- the counter of branches goes up by one, the branches left to forward down by one
  have hcounts := hmatch.parallel hf
  have hwidth := (hvalid.info _ _ hwf.find).width
  have hissued := hwf.parallel hf
  have hun := Entry.countP_withChild (fun c => !c.isForwarded) hat.children
    (some { c with phase := .forwarded })
  have hlen := Entry.length_withChild hat.children (some { c with phase := .forwarded })
  have hsent : Child.isForwarded { c with phase := .forwarded } = true := rfl
  simp only [Option.any_some, hunsent, hsent, Bool.not_false, Bool.not_true, Option.isSome_some,
    if_true, Bool.false_eq_true, if_false, Nat.add_right_cancel_iff] at hun hlen
  have hreq : (ingress_rpc.pfanout_req + 1).toNat = ingress_rpc.pfanout_req.toNat + 1 := by
    unfold Entry.unsent at hcounts
    exact toNat_succ (by omega)
  have hcounts' : (ingress_rpc.pfanout_req + 1).toNat
        + (en.withChild l₁ (some { c with phase := .forwarded }) l₂).unsent = en.issued
      ∧ ingress_rpc.pfanout_res.toNat
        + (en.withChild l₁ (some { c with phase := .forwarded }) l₂).children.length
          = en.issued := by
    unfold Entry.unsent at hcounts ⊢
    omega
  have hkept : ([{ c with phase := .forwarded }] : List Child).flatMap Child.kept = c.kept := by
    unfold Child.kept
    rw [hphase]
    rfl
  have hmatch' : Matches (en.withChild l₁ (some { c with phase := .forwarded }) l₂)
      { ingress_rpc with pfanout_req := ingress_rpc.pfanout_req + 1 } :=
    hmatch.withChild hat.children hd hkept rfl rfl fun _ => hcounts'
  have hvalue := Entry.value_sent hat.children hwf hunsent hsent
  rw [granted_last hlast]
  have hdelivered : ∀ {s' : Mesh}, s'.rpc_queue = s.rpc_queue → s'.requests = s.requests →
      s'.last_rtt_us = s.last_rtt_us → s'.forwarded = s.forwarded ++ [rpc] →
      s'.returned = s.returned →
      (s'.decrements = s.decrements ∨ s'.decrements = s.decrements ++ [en.service]) →
      Delivered s en c pending [] c.service buf s' := by
    intro s' hq hrequests hrtts hforwarded hreturned hdecrements
    refine ⟨hq, hrequests, fun es hes => hrtts ▸ hes, fun hne => absurd hlast hne,
      fun _ => ⟨rpc, [],
      by rw [hat.id]; exact hfind, hlocal.trans hat.id.symm, hservice, hforwarded,
      by rw [hreturned, List.append_nil], ?_, hdecrements, fun hp => absurd hf hp⟩⟩
    rw [if_pos rfl]
    exact .nil
  have hstep : ∀ {s' : Mesh}, s'.local_id_counter = s.local_id_counter → s'.ppm_queue = q →
      s'.egress_rpcs = s.egress_rpcs.insert id rpc →
      s'.ingress_rpcs = s.ingress_rpcs.insert (id >>> 32)
        { ingress_rpc with pfanout_req := ingress_rpc.pfanout_req + 1 } →
      s'.server.Wf config.server →
      (∀ e, s'.server.balance e = s.server.balance e + if e = en.service then
        (if en.info.fanout = .pfanout
            ∧ ¬ ((en.withChild l₁ (some { c with phase := .forwarded }) l₂).unsent = 0
              ∧ en.issued = en.info.downstreams.length) then 0 else -1) else 0) →
      Agrees config queue s' (B.set (id >>> 32)
        (some (en.withChild l₁ (some { c with phase := .forwarded }) l₂))) := by
    intro s' hcounter hppm hegress hingress hserver hbalance
    refine h.child_step hat (fun c' hc' => ?_) hcounter (fun e he => hppm ▸ hrouted e he)
      (by rw [hingress]; exact lookup_insert_eq _ _ _) hmatch'
        (hplace _ hppm hegress) hserver hvalue
      hbalance
    obtain rfl := Option.some.inj hc'
    exact ⟨rfl, rfl, fun _ _ hp => by simp at hp⟩
  unfold Mesh.fanout_req_management Mesh.set_ingress
  rw [hget, ok_bind]
  dsimp only
  rw [hmapping, ok_bind, if_pos hflags, hpop, ok_bind]
  dsimp only
  have hblame : config.ids.is_plain_frontend = false → rpc.priority = -1 →
      UseBlames config s env (c.service, id) .requestHasNoPriority :=
    fun hplain hpriority => .inl ⟨rfl, hplain, rpc, hfind, hpriority⟩
  refine Ends.bind (send_sub_request_spec hlocal (h.id_ne hchild) ?_ hblame) fun s₁ hs₁ => ?_
  · exact hfree
  subst hs₁
  split_ifs with hbranch
  · -- not the last branch
    refine ⟨hstep rfl rfl rfl rfl h.server fun e => ?_, hdelivered rfl rfl rfl rfl rfl (.inl rfl)⟩
    rw [if_pos (⟨hf, by omega⟩ : en.info.fanout = .pfanout ∧ _), ite_self, add_zero]
  · have he : ingress_rpc.service ∈ config.server.hosted :=
      hmatch.service ▸ mem_hosted_of_find hwf.find
    refine Ends.mono (release_spec ?_ he env.now_ts) fun s' hs' => ?_
    · exact h.server
    obtain ⟨server, rfl, hserver, hbalance⟩ := hs'
    refine ⟨hstep rfl rfl rfl rfl hserver fun e => ?_, hdelivered rfl rfl rfl rfl rfl (.inr ?_)⟩
    swap
    · exact congrArg (fun service => s.decrements ++ [service]) hmatch.service
    have hlast' : ¬ (en.info.fanout = .pfanout
        ∧ ¬ ((en.withChild l₁ (some { c with phase := .forwarded }) l₂).unsent = 0
          ∧ en.issued = en.info.downstreams.length)) := by rintro ⟨_, hnot⟩; omega
    rw [hbalance e, if_neg hlast', hmatch.service]

/-- The credit returns that a grant of a dynamic fan-out adds to the queue. -/
theorem fill_dfanout_queue_spec (env : Mesh.GrantEnv) (own : Bytes) (buf : Buffer)
    (rpc : RPCMessage) :
    Ends (fun e => e = .bufferOverflow ∧ env.fresh.filled ≠ 0)
      (fun rpc' => ∃ rets, rpc'
        = { rpc with credit_return_queue := rpc.credit_return_queue ++ rets }
        ∧ List.Forall₂ ReturnOf (if service = own then [] else [buf]) rets)
      (Mesh.fill_dfanout_queue env own service buf rpc) := by
  unfold Mesh.fill_dfanout_queue
  by_cases hown : service = own
  · rw [if_neg (not_not.mpr hown.symm), if_pos hown]
    exact ⟨[], by rw [List.append_nil], .nil⟩
  · rw [if_pos (Ne.symm hown), if_neg hown]
    exact (prepare_credit_return_spec buf env.fresh).bind fun ret hret =>
      ⟨[ret], rfl, .cons hret .nil⟩

/-- What is kept for the RPC once a grant is counted: the grants of the services that it was not
for. -/
theorem kept_returns {ingress_rpc : RPCMessage} (hmatch : Matches en ingress_rpc)
    (hchildren : en.children = [c]) (hphase : c.phase = .waiting pending kept)
    {buf : Buffer} {rets : List Buffer}
    (hrets : List.Forall₂ ReturnOf (if service = c.service then [] else [buf]) rets) :
    List.Forall₂ ReturnOf (if service = c.service then kept else kept ++ [buf])
      (ingress_rpc.credit_return_queue ++ rets) := by
  have hreturns := hmatch.returns
  rw [hchildren, List.flatMap_singleton] at hreturns
  unfold Child.kept at hreturns
  rw [hphase] at hreturns
  have happend := List.rel_append hreturns hrets
  dsimp only at happend
  by_cases hown : service = c.service
  · rw [if_pos hown] at happend ⊢
    rwa [List.append_nil] at happend
  · rw [if_neg hown] at happend ⊢
    exact happend

/-- All credits of a dynamic fan-out are there: the RPC is forwarded and the other credits are
returned. -/
theorem grant_dfanout_last (h : Agrees config queue s B) (hat : B.At id en [] c [])
    (hphase : c.phase = .waiting pending kept) (hlast : pending.erase service = [])
    (hf : en.info.fanout = .dfanout) (hissued : en.issued = 1) {ingress_rpc rpc' : RPCMessage}
    (hmatch : Matches en ingress_rpc) (hservice' : rpc'.service = ingress_rpc.service)
    {buf : Buffer}
    (hkept : List.Forall₂ ReturnOf (if service = c.service then kept else kept ++ [buf])
      rpc'.credit_return_queue) (env : Mesh.GrantEnv) :
    Ends (UseBlames config s env (c.service, id))
      (fun s' => Agrees config queue s'
          (B.set (id >>> 32)
            (some (en.withChild [] (some (c.granted service buf pending kept)) [])))
        ∧ Delivered s en c pending kept service buf s') (do
      let (rpc, queue) ← s.ppm_queue.pop c.service id
      let s' ← Mesh.send_sub_request config rpc
        { s.set_ingress (id >>> 32) rpc' with ppm_queue := queue }
      let s' := { s' with returned := s'.returned ++ rpc'.credit_return_queue }
      (s'.set_ingress (id >>> 32) { rpc' with credit_return_queue := [] }).release
        rpc'.service env.now_ts) := by
  have hchild := hat.child h.book
  have hwf := h.book.entries _ _ hat.entry
  have hunsent : c.isForwarded = false := by unfold Child.isForwarded; rw [hphase]
  obtain ⟨rpc, q, hfind, hpop, hservice, hlocal, hrouted, hfree, hplace⟩ :=
    h.waiting_rpc hchild hphase hat.id
  have he : rpc'.service ∈ config.server.hosted :=
    hservice'.trans hmatch.service ▸ mem_hosted_of_find hwf.find
  have hvalue : (en.withChild [] (some { c with phase := .forwarded }) []).value = _ :=
    Entry.value_sent hat.children hwf hunsent rfl
  rw [if_neg (by rw [hf]; simp)] at hvalue
  have hmatch' : Matches (en.withChild [] (some { c with phase := .forwarded }) [])
      { rpc' with credit_return_queue := [] } :=
    hmatch.withSole hf hissued hservice' trivial .nil
  rw [hpop, ok_bind, granted_last hlast]
  dsimp only
  -- The message forwarded is the one that was stored, whichever downstream granted last.
  have hblame : config.ids.is_plain_frontend = false → rpc.priority = -1 →
      UseBlames config s env (c.service, id) .requestHasNoPriority :=
    fun hplain hpriority => .inl ⟨rfl, hplain, rpc, hfind, hpriority⟩
  refine Ends.bind (send_sub_request_spec hlocal (h.id_ne hchild) ?_ hblame) fun s₁ hs₁ => ?_
  · exact hfree
  subst hs₁
  refine Ends.mono (release_spec ?_ he env.now_ts) fun s' hs' => ?_
  · exact h.server
  obtain ⟨server, rfl, hserver, hbalance⟩ := hs'
  constructor
  · refine h.child_step hat ?_ rfl hrouted (lookup_insert_insert _ _ _ _)
      hmatch' (hplace _ rfl rfl) hserver
      hvalue ?_
    · intro c' hc'
      obtain rfl := Option.some.inj hc'
      exact ⟨rfl, rfl, fun _ _ hp => by simp at hp⟩
    · rw [hservice', hmatch.service] at hbalance
      exact hbalance
  · -- The credits kept on the way go back with the last grant, and one slot is given up.
    have hreleased : s.decrements ++ [rpc'.service] = s.decrements ++ [en.service] :=
      congrArg (fun service => s.decrements ++ [service]) (hservice'.trans hmatch.service)
    exact ⟨rfl, rfl, fun _ hes => hes, fun hne => absurd hlast hne, fun _ => ⟨rpc,
      rpc'.credit_return_queue, by rw [hat.id]; exact hfind,
      hlocal.trans hat.id.symm, hservice, rfl,
      rfl, hkept, .inr hreleased, fun _ => hreleased⟩⟩

/-- Credits of a dynamic fan-out are still to come: the RPC stays where it is. -/
theorem grant_dfanout_more (h : Agrees config queue s B) (hat : B.At id en [] c [])
    (hphase : c.phase = .waiting pending kept) (hpending : service ∈ pending)
    (hmore : pending.erase service ≠ []) (hf : en.info.fanout = .dfanout) (hissued : en.issued = 1)
    {ingress_rpc rpc' : RPCMessage} (hmatch : Matches en ingress_rpc)
    (hservice' : rpc'.service = ingress_rpc.service)
    (hnamed : rpc'.dfanout_service = some c.service)
    (hcount : rpc'.pfanout_req.toNat + (pending.erase service).length = en.info.downstreams.length)
    {buf : Buffer}
    (hkept : List.Forall₂ ReturnOf (if service = c.service then kept else kept ++ [buf])
      rpc'.credit_return_queue) :
    Agrees config queue (s.set_ingress (id >>> 32) rpc')
        (B.set (id >>> 32) (some (en.withChild [] (some (c.granted service buf pending kept)) [])))
      ∧ Delivered s en c pending kept service buf (s.set_ingress (id >>> 32) rpc') := by
  have hchild := hat.child h.book
  have hc : c ∈ en.children := by rw [hat.children]; exact List.mem_singleton.mpr rfl
  have hfits := Child.fits_granted ((h.book.entries _ _ hat.entry).fits c hc) hphase hpending buf
  have hunsent : c.isForwarded = false := by unfold Child.isForwarded; rw [hphase]
  have hphase' : (c.granted service buf pending kept).phase = .waiting (pending.erase service)
      (if service = c.service then kept else kept ++ [buf]) := by
    unfold Child.granted
    dsimp only
    rw [if_neg hmore]
  have hunsent' : (c.granted service buf pending kept).isForwarded = false := by
    unfold Child.isForwarded
    rw [hphase']
  -- The count in the message and the credits still missing go on adding up.
  have hmatch' : Matches (en.withChild [] (some (c.granted service buf pending kept)) []) rpc' := by
    apply hmatch.withSole hf hissued hservice'
    · unfold Child.Counted
      rw [hphase']
      exact ⟨hnamed, hcount⟩
    · unfold Child.kept
      rw [hphase']
      exact hkept
  refine ⟨h.child_step hat ?_ rfl (fun _ he => he) (lookup_insert_eq _ _ _) hmatch' ?_ h.server
    (Entry.value_unsent hat.children hunsent hunsent') fun e => ?_,
    ⟨rfl, rfl, fun _ hes => hes, fun _ => ⟨rfl, rfl, rfl⟩, fun hnil => absurd hnil hmore⟩⟩
  · intro c' hc'
    obtain rfl := Option.some.inj hc'
    exact ⟨rfl, rfl, hfits⟩
  · have hplace := congrFun h.placed id
    rw [hchild, Child.place_waiting hphase] at hplace
    rw [Child.place_waiting hphase']
    exact (Function.update_eq_self_iff.mpr hplace.symm).symm
  · rw [ite_self, add_zero]
    rfl

/-- **A grant for an egress RPC of a dynamic fan-out.** It is counted on the ingress RPC, and kept
as a Credit Return unless it is the RPC's own. The last one forwards the RPC and sends what was
kept. -/
theorem grant_dfanout_spec (hvalid : config.Valid) (h : Agrees config queue s B)
    (hat : B.At id en l₁ c l₂) (hphase : c.phase = .waiting pending kept)
    (hpending : service ∈ pending) (hf : en.info.fanout = .dfanout) (buf : Buffer)
    (env : Mesh.GrantEnv) :
    Ends (UseBlames config s env (c.service, id))
      (fun s' => Agrees config queue s'
          (B.set (id >>> 32)
            (some (en.withChild l₁ (some (c.granted service buf pending kept)) l₂)))
        ∧ Delivered s en c pending kept service buf s')
      (s.fanout_req_management config env id service buf) := by
  have hwf := h.book.entries _ _ hat.entry
  obtain ⟨rfl, rfl, hissued⟩ := h.only_child hat hf
  obtain ⟨ingress_rpc, hlookup, hmatch, hget, hmapping⟩ := h.parent hat.entry
  have hflags := en.info.flags
  rw [hf] at hflags
  -- the counter of grants goes up by one, the credits waited for down by one
  have hc : c ∈ en.children := by rw [hat.children]; exact List.mem_singleton.mpr rfl
  have hcounted := hmatch.counted hf c hc
  unfold Child.Counted at hcounted
  rw [hphase] at hcounted
  obtain ⟨hnamed, hcount⟩ := hcounted
  have hwidth := (hvalid.info _ _ hwf.find).width
  have hlen := List.length_erase_of_mem hpending
  have hpos := List.length_pos_of_mem hpending
  have hreq : (ingress_rpc.pfanout_req + 1).toNat = ingress_rpc.pfanout_req.toNat + 1 :=
    toNat_succ (by omega)
  unfold Mesh.fanout_req_management
  rw [hget, ok_bind]
  dsimp only
  rw [hmapping, ok_bind, if_neg (by rw [hflags.1]; simp), if_pos hflags.2, hnamed]
  dsimp only
  refine Ends.bind ((fill_dfanout_queue_spec env c.service buf _).blame_mono fun e he => .inr he)
    fun rpc' hrpc' => ?_
  obtain ⟨rets, rfl, hrets⟩ := hrpc'
  have hkept := kept_returns hmatch hat.children hphase hrets
  dsimp only
  by_cases hlast : pending.erase service = []
  · rw [hlast, List.length_nil] at hlen
    rw [if_neg (by omega)]
    refine h.grant_dfanout_last hat hphase hlast hf hissued hmatch ?_ ?_ env
    · rfl
    · exact hkept
  · have hrest : 0 < (pending.erase service).length := List.length_pos_iff.mpr hlast
    rw [if_pos (by omega)]
    apply h.grant_dfanout_more hat hphase hpending hlast hf hissued hmatch
    · rfl
    · rfl
    · dsimp only
      omega
    · exact hkept

/-- A grant, in each mode of fan-out: what it does to the RPC, and what may be to blame if it
aborts. -/
theorem fanout_req_management_spec (hvalid : config.Valid) (h : Agrees config queue s B)
    (hat : B.At id en l₁ c l₂) (hphase : c.phase = .waiting pending kept)
    (hpending : service ∈ pending) (buf : Buffer) (env : Mesh.GrantEnv) :
    Ends (UseBlames config s env (c.service, id))
      (fun s' => Agrees config queue s'
          (B.set (id >>> 32)
            (some (en.withChild l₁ (some (c.granted service buf pending kept)) l₂)))
        ∧ Delivered s en c pending kept service buf s')
      (s.fanout_req_management config env id service buf) := by
  cases hf : en.info.fanout with
  | plain => exact h.grant_plain_spec hat hphase hpending hf buf env
  | pfanout => exact h.grant_pfanout_spec hvalid hat hphase hpending hf buf env
  | dfanout => exact h.grant_dfanout_spec hvalid hat hphase hpending hf buf env

end Grant

/-- What a grant for the egress RPC `c` may make the process abort for: an RTT that is out of range
or not positive or has no place in the map, counts that differ, a service that is not routed, and
what using it may do. -/
def GrantBlames (config : MeshConfig) (s : Mesh) (env : Mesh.GrantEnv)
    (m : GrantMessage) (c : Child) (e : Abort) : Prop :=
  credit_rtt m env.now_us = .error e
    ∨ (∃ rtt, s.last_rtt_us.set m.service rtt = .error e)
    ∨ (e = .creditMismatch ∧ m.requested ≠ m.granted)
    ∨ (e = .ppmCheck ∧ m.service ∉ config.routing)
    ∨ UseBlames config s env (c.service, m.id) e

/-- The checks of `credit_post_process`: the RTT is computed from the grant and stored for its
service. -/
theorem credit_post_process_spec (h : Agrees config queue s B) {buf : Buffer} {m : GrantMessage}
    (hread : read_credit_grant buf = .ok m) (hone : m.granted = 1)
    (env : Mesh.GrantEnv) (c : Child) :
    Ends (GrantBlames config s env m c)
      (fun r => r.1 = (m.service, m.id, 1) ∧ ∃ rtt last_rtt_us, credit_rtt m env.now_us = .ok rtt
        ∧ s.last_rtt_us.set m.service rtt = .ok last_rtt_us
        ∧ r.2 = { s with last_rtt_us := last_rtt_us })
      (s.credit_post_process env buf) := by
  unfold Mesh.credit_post_process
  rw [hread, ok_bind]
  -- The places at which it can end, in the order of the source.
  have hcheck : Ends (GrantBlames config s env m c) (fun _ => True)
      (s.ppm_queue.check m.service) := by
    unfold PPMQueue.check
    split_ifs with hline
    · trivial
    · exact .inr (.inr (.inr (.inl ⟨rfl, fun hrouted => hline (h.routed _ hrouted)⟩)))
  have hrtt : Ends (GrantBlames config s env m c) (fun rtt => credit_rtt m env.now_us = .ok rtt)
      (credit_rtt m env.now_us) := (Ends.of_self fun _ hrtt => hrtt).blame_mono fun _ he => .inl he
  refine Ends.bind hcheck fun _ _ => Ends.bind hrtt fun rtt hrtt => ?_
  have hset : Ends (GrantBlames config s env m c)
      (fun last_rtt_us => s.last_rtt_us.set m.service rtt = .ok last_rtt_us)
      (s.last_rtt_us.set m.service rtt) :=
    (Ends.of_self fun _ hset => hset).blame_mono fun _ he => .inr (.inl ⟨rtt, he⟩)
  refine Ends.bind hset fun last_rtt_us hset => ?_
  split_ifs with hrequested hzero
  · exact .inr (.inr (.inl ⟨rfl, hrequested⟩))
  · rw [hone] at hzero
    cases hzero
  · have hsize : charToSize m.granted = 1 := by rw [hone]; rfl
    rw [hsize]
    exact ⟨rfl, rtt, last_rtt_us, hrtt, hset, rfl⟩

/-- The RTTs have no part in the agreement, so they may change. -/
theorem with_rtts (h : Agrees config queue s B) (last_rtt_us : LocalMap (BitVec 32)) :
    Agrees config queue { s with last_rtt_us := last_rtt_us } B :=
  ⟨h.book, h.server, h.counter, h.ingress, h.placed, h.routed, h.balance⟩

/-- **`protocol_client`, for a Credit Grant**: its checks, and then what the mode of fan-out does
with it. -/
theorem protocol_client_grant_spec (hvalid : config.Valid) (h : Agrees config queue s B)
    {buf : Buffer} {m : GrantMessage} (hread : read_credit_grant buf = .ok m) (hone : m.granted = 1)
    {en : Entry} {l₁ l₂ : List Child} {c : Child} {pending : List Bytes} {kept : List Buffer}
    (hat : B.At m.id en l₁ c l₂) (hphase : c.phase = .waiting pending kept)
    (hpending : m.service ∈ pending) (env : Mesh.GrantEnv) :
    Ends (GrantBlames config s env m c)
      (fun s' => Agrees config queue s' (B.set (m.id >>> 32)
          (some (en.withChild l₁ (some (c.granted m.service buf pending kept)) l₂)))
        ∧ Delivered s en c pending kept m.service buf s')
      (s.protocol_client_grant config env buf) := by
  unfold Mesh.protocol_client_grant
  refine Ends.bind (h.credit_post_process_spec hread hone env c) fun r hr => ?_
  obtain ⟨r, s₁⟩ := r
  obtain ⟨hr, rtt, last_rtt_us, -, hset, hs₁⟩ := hr
  dsimp only at hr hs₁
  subst hr hs₁
  dsimp only [Mesh.use_credits]
  have hgrant :=
    ((h.with_rtts last_rtt_us).fanout_req_management_spec hvalid hat hphase hpending buf
    env).blame_mono fun e he => (.inr (.inr (.inr (.inr he))) : GrantBlames config s env m c e)
  refine Ends.bind hgrant fun s' hs' => ?_
  obtain ⟨hagrees, hdelivered⟩ := hs'
  -- the RTT that was stored is one of a service that had one
  exact ⟨hagrees, { hdelivered with
    hosts := fun es hes => hdelivered.hosts es (hes.modify hset).2.1 }⟩

end Agrees

end RlpSidecar
