/-
When the client side of a mesh sidecar goes on.

A handler of the client side returns unless there is a reason for it to abort, and the reasons are
listed in `Event.blames`. Here they are ruled out. A Credit Request can be sent to a service of the
routing table with a name that fits into a datagram. A Credit Grant can be used if the RTT it gives
is positive, it brings the one credit that was asked for, and the RPC it is for has a priority; a
pool buffer comes empty. The map of the RTTs is built over the routing table when the process
starts, and no event changes which services it has.

`Coherent.requests_return` and `Coherent.grant_returns` are the two results, for every state of a
run: the handler returns, and its result is the one that the book describes. They turn the
statements about handlers that return into statements about what will happen.
-/
import RlpSidecar.LocalMapLookups
import RlpSidecar.MeshRuns

set_option autoImplicit false

open Runs

namespace RlpSidecar

/-! ## Reasons to abort -/

/-- A lookup fails because the key is missing or the map was not built. -/
theorem LocalMap.get_error {T : Type} {m : LocalMap T} {k : Bytes} {e : Abort}
    (h : m.get k = .error e) : e = .keyNotFound ∨ e = .undefined := by
  unfold get find_ptr probe at h
  split_ifs at h with hempty hslot
  · exact .inr (Except.error.inj h).symm
  · rw [ok_bind] at h
    cases hget : m.slots_[slotIndex m.seed_ m.size_ m.mask_ k]? with
    | none =>
        rw [hget] at h
        exact .inr (Except.error.inj h).symm
    | some s =>
        rw [hget] at h
        dsimp only at h
        split_ifs at h
        · rw [ok_bind] at h
          dsimp only at h
          rw [hget] at h
          cases h
        · exact .inl (Except.error.inj h).symm
  · exact .inr (Except.error.inj h).symm

/-- So does a write, which looks the key up in the same way. -/
theorem LocalMap.set_error {T : Type} {m : LocalMap T} {k : Bytes} {v : T} {e : Abort}
    (h : m.set k v = .error e) : e = .keyNotFound ∨ e = .undefined := by
  unfold set modify at h
  cases hfind : m.find_ptr k with
  | error e' =>
      have hget : m.get k = .error e' := by unfold get; rw [hfind]; rfl
      rw [hfind] at h
      obtain rfl := Except.error.inj h
      exact get_error hget
  | ok o =>
      rw [hfind, ok_bind] at h
      cases o with
      | none => exact .inl (Except.error.inj h).symm
      | some i => cases h

/-- An RTT is refused because it is not positive or out of range. -/
theorem credit_rtt_error {m : GrantMessage} {now_us : BitVec 64} {e : Abort}
    (h : credit_rtt m now_us = .error e) : e = .undefined ∨ e = .invalidRtt := by
  have hsubtract : ∀ {w : ℕ} {x y : BitVec w} {e : Abort}, subtract x y = .error e →
      e = .undefined := by
    intro w x y e h
    unfold subtract at h
    split at h
    · cases h
    · exact (Except.error.inj h).symm
  unfold credit_rtt at h
  rcases bind_eq_error.mp h with h | ⟨elapsed, -, h⟩
  · exact .inl (hsubtract h)
  rcases bind_eq_error.mp h with h | ⟨rtt, -, h⟩
  · exact .inl (hsubtract h)
  · split_ifs at h
    exact .inr (Except.error.inj h).symm

/-- A Credit Request is not sent for want of a pool or an RTT, or because the name is too long. -/
theorem Mesh.credit_request_rtt_error {config : MeshConfig} {last_rtt_us : LocalMap (BitVec 32)}
    {service : Bytes} {e : Abort} (h : credit_request_rtt config last_rtt_us service = .error e) :
    e = .noPool ∨ e = .bufferTooSmall ∨ e = .keyNotFound ∨ e = .undefined
      ∨ e = .bufferOverflow := by
  unfold credit_request_rtt at h
  rcases bind_eq_error.mp h with h | ⟨_, -, h⟩
  · unfold MeshConfig.get_pool at h
    split_ifs at h
    exact .inl (Except.error.inj h).symm
  by_cases hsize : udpBufferLength < headerSize + service.length
  · rw [if_pos hsize] at h
    exact .inr (.inl (Except.error.inj h).symm)
  · rw [if_neg hsize] at h
    rcases bind_eq_error.mp h with h | ⟨_, -, h⟩
    · rcases LocalMap.get_error h with rfl | rfl <;> simp
    · split_ifs at h
      exact .inr (.inr (.inr (.inr (Except.error.inj h).symm)))

/-! ## What a configuration and a grant need -/

/-- The downstreams of the dynamic fan-outs are in the routing table. The loader does not check
this: `get_pool` ends the process when the first Credit Request for such a downstream is due. -/
def MeshConfig.Routed (config : MeshConfig) : Prop :=
  ∀ service info, config.server.find service = some info → info.fanout = .dfanout →
    ∀ downstream ∈ info.downstreams, downstream ∈ config.routing

/-- Credit Requests can be sent to the services of the routing table: their names are not empty and
fit into a datagram behind the header, and the map of the RTTs finds a seed for them, without which
no lookup in it is defined. -/
structure MeshConfig.Sendable (config : MeshConfig) : Prop where
  names : ∀ service ∈ config.routing,
    0 < service.length ∧ headerSize + service.length < udpBufferLength
  seeded : LocalMap.Seeded config.routing

namespace Mesh

/-- **A grant that can be used**: its RTT is positive and in range, it brings the one credit that
was asked for, the pool buffer for a Credit Return is empty, and the RPC that waits under its id
has a priority. Only a plain frontend sends requests without one. -/
structure Acceptable (config : MeshConfig) (s : Mesh) (env : GrantEnv)
    (m : GrantMessage) : Prop where
  rtt : ∃ rtt, credit_rtt m env.now_us = .ok rtt
  requested : m.requested = 1
  fresh : env.fresh.filled = 0
  priority : ∀ service rpc, s.ppm_queue.find (service, m.id) = some rpc → rpc.priority = -1 →
    config.ids.is_plain_frontend = true

variable {config : MeshConfig} {G : List Used} {w w' : Mesh × Book}

/-! ## RPCs that wait -/

/-- `ppm_queue` holds the egress RPCs that wait, each under its service and its id. -/
theorem Coherent.ppm_find (h : Coherent config G w) (service : Bytes) (id : RPCID) :
    (w.1.ppm_queue.find (service, id)).isSome = true
      ↔ ∃ c pending kept, w.2.child id = some c ∧ c.phase = .waiting pending kept
        ∧ c.service = service := by
  -- The book and the queue agree on the place of every id.
  have hppm := congrFun (congrArg Place.ppm (congrFun h.agrees.placed id)) service
  have hsome : (w.1.ppm_queue.find (service, id)).isSome
      = ((Child.place (w.2.child id)).ppm service).isSome := by
    rw [← hppm]
    exact (Option.isSome_map).symm
  rw [hsome]
  constructor
  · intro hfound
    cases hchild : w.2.child id with
    | none => rw [hchild] at hfound; simp at hfound
    | some c =>
        rw [hchild] at hfound
        cases hphase : c.phase with
        | queued => rw [Child.place_queued hphase] at hfound; simp at hfound
        | forwarded => rw [Child.place_forwarded hphase] at hfound; simp at hfound
        | waiting pending kept =>
            rw [Child.place_waiting hphase] at hfound
            refine ⟨c, pending, kept, rfl, hphase, ?_⟩
            by_contra hne
            simp [Ne.symm hne] at hfound
  · rintro ⟨c, pending, kept, hchild, hphase, rfl⟩
    rw [hchild, Child.place_waiting hphase]
    simp

/-- Only one RPC waits under an id, whatever the service: ids are not given twice. -/
theorem Coherent.ppm_unique (h : Coherent config G w) {id : RPCID} {service service' : Bytes}
    {rpc rpc' : RPCMessage} (hfind : w.1.ppm_queue.find (service, id) = some rpc)
    (hfind' : w.1.ppm_queue.find (service', id) = some rpc') : rpc = rpc' := by
  obtain ⟨c, _, _, hc, _, hservice⟩ :=
    (h.ppm_find service id).mp (Option.isSome_iff_exists.mpr ⟨rpc, hfind⟩)
  obtain ⟨c', _, _, hc', _, hservice'⟩ :=
    (h.ppm_find service' id).mp (Option.isSome_iff_exists.mpr ⟨rpc', hfind'⟩)
  obtain rfl := Option.some.inj (hc.symm.trans hc')
  obtain rfl : service = service' := hservice.symm.trans hservice'
  exact Option.some.inj (hfind.symm.trans hfind')

/-- A grant for an RPC with a priority, with an RTT in range and into a fresh buffer, is
acceptable. -/
theorem Coherent.acceptable (h : Coherent config G w) {env : GrantEnv}
    {m : GrantMessage} {service : Bytes} {rpc : RPCMessage}
    (hfind : w.1.ppm_queue.find (service, m.id) = some rpc) (hpriority : rpc.priority ≠ -1)
    {rtt : BitVec 32} (hrtt : credit_rtt m env.now_us = .ok rtt) (hrequested : m.requested = 1)
    (hfresh : env.fresh.filled = 0) : Acceptable config w.1 env m :=
  ⟨⟨rtt, hrtt⟩, hrequested, hfresh, fun _ _ hfind' hnone =>
    absurd (h.ppm_unique hfind hfind' ▸ hnone) hpriority⟩

/-! ## The map of the RTTs -/

/-- A process starts with an RTT for each service of the routing table. -/
theorem start_hosts {counts : LocalMap (BitVec 32)} {s : Mesh} (hsend : config.Sendable)
    (hstart : start config counts = .ok s) : s.last_rtt_us.Hosts config.routing := by
  obtain ⟨server, _, hs⟩ := bind_eq_ok.mp hstart
  obtain ⟨last_rtt_us, hrtts, hs⟩ := bind_eq_ok.mp hs
  obtain rfl := Except.ok.inj hs
  dsimp only
  by_cases hne : config.routing = []
  · rw [hne] at hrtts ⊢
    obtain rfl := Except.ok.inj hrtts
    exact ⟨fun _ he => by simp at he, fun i s hs _ => by simp [LocalMap.noSlots] at hs⟩
  · refine .of_ofKeys hrtts (fun e he => ?_)
      ((LocalMap.slots_ne_nil_iff hrtts).mpr ⟨hne, hsend.seeded⟩)
    obtain ⟨hpos, hlen⟩ := hsend.names e he
    have h256 : udpBufferLength = 256 := rfl
    exact ⟨hpos, by omega⟩

/-- Admitting requests leaves the RTTs alone; they are written when a grant is used. -/
theorem last_rtt_us_of_admitted {rpcs : List RPCMessage} {s s' : Mesh} {B B' : Book}
    (hrun : Agrees.Admitted config rpcs s B s' B') : s'.last_rtt_us = s.last_rtt_us := by
  induction hrun with
  | nil => rfl
  | cons _ head _ ih => exact ih.trans head.last_rtt_us

/-- No event changes which services have an RTT: the handlers only write to keys that the map
has. -/
theorem step_hosts {ev : Event} (hvalid : config.Valid) (h : Coherent config G w)
    (hs : Step config w ev w') {es : List Bytes} (hes : w.1.last_rtt_us.Hosts es) :
    w'.1.last_rtt_us.Hosts es := by
  obtain ⟨hhandle, hbook⟩ := hs
  obtain ⟨_, houtcome⟩ := (step_agrees hvalid h.agrees hbook).of_ok hhandle
  cases houtcome with
  | kept _ _ hquiet => rw [hquiet.last_rtt_us]; exact hes
  | issued _ _ _ hquiet => rw [hquiet.last_rtt_us]; exact hes
  | admitted hrun =>
      have hsame := last_rtt_us_of_admitted hrun
      rw [hsame]
      exact hes
  | granted _ _ _ _ _ _ _ _ _ _ _ _ _ hdelivered => exact hdelivered.hosts es hes
  | answered _ _ _ _ hquiet => rw [hquiet.last_rtt_us]; exact hes

/-- No run changes it either, one step after the other. -/
theorem exec_hosts {ts : List (Transition (Mesh × Book) Event)} (hvalid : config.Valid)
    (hrun : Exec (Step config) w ts w') (h : Coherent config G w) {es : List Bytes}
    (hes : w.1.last_rtt_us.Hosts es) : w'.1.last_rtt_us.Hosts es := by
  induction hrun generalizing G with
  | nil => exact hes
  | cons head _ ih => exact ih (step_coherent hvalid h head) (step_hosts hvalid h head hes)

/-! ## Handlers that return -/

/-- **A Credit Request can be sent** to a service of the routing table. -/
theorem credit_request_rtt_ok {last_rtt_us : LocalMap (BitVec 32)} (hsend : config.Sendable)
    (hhosts : last_rtt_us.Hosts config.routing) {service : Bytes}
    (hservice : service ∈ config.routing) :
    ∃ rtt, credit_request_rtt config last_rtt_us service = .ok rtt := by
  have hlen := (hsend.names service hservice).2
  unfold credit_request_rtt MeshConfig.get_pool
  rw [if_pos (.inl hservice), ok_bind, if_neg (by omega), hhosts.get hservice 0,
    ok_bind, if_neg (by omega)]
  exact ⟨_, rfl⟩

/-- A queued request is for a service of the routing table, and so are those that are asked for
it. -/
theorem Coherent.asked_routed (h : Coherent config G w) (hvalid : config.Valid)
    (hrouted : config.Routed) {rpc : RPCMessage} (hrpc : rpc ∈ w.1.rpc_queue) :
    ∀ service ∈ Agrees.asked w.2 rpc, service ∈ config.routing := by
  intro service hservice
  -- the request is that of a queued egress RPC
  have hqueue := congrArg Place.queue (congrFun h.agrees.placed rpc.local_id)
  have hmem : rpc.service ∈ (Child.place (w.2.child rpc.local_id)).queue := by
    rw [← hqueue]
    exact List.mem_map_of_mem (List.mem_filter.mpr ⟨hrpc, decide_eq_true rfl⟩)
  cases hchild : w.2.child rpc.local_id with
  | none => rw [hchild] at hmem; cases hmem
  | some c =>
      rw [hchild] at hmem
      have hown : rpc.service = c.service := by
        cases hphase : c.phase with
        | queued => rw [Child.place_queued hphase] at hmem; exact List.mem_singleton.mp hmem
        | waiting pending kept => rw [Child.place_waiting hphase] at hmem; cases hmem
        | forwarded => rw [Child.place_forwarded hphase] at hmem; cases hmem
      obtain ⟨en, l₁, l₂, hat⟩ := Book.exists_at hchild
      have hwf := h.agrees.book.entries _ _ hat.entry
      have hasked : Agrees.asked w.2 rpc = asks en.info rpc.service := by
        unfold Agrees.asked Book.info
        rw [hat.entry]
        rfl
      rw [hasked] at hservice
      by_cases hd : en.info.fanout = .dfanout
      · rw [(hvalid.info _ _ hwf.find).asks_dynamic hd] at hservice
        exact hrouted _ _ hwf.find hd service hservice
      · rw [(hvalid.info _ _ hwf.find).asks_static hd, List.mem_singleton] at hservice
        rw [hservice, hown]
        exact hwf.routed c (by rw [hat.children]; simp)

/-- **`protocol_client` admits the requests that are queued**, if all their services are routed and
can be sent to. -/
theorem Coherent.requests_return (h : Coherent config G w) (hvalid : config.Valid)
    (hrouted : config.Routed) (hsend : config.Sendable)
    (hhosts : w.1.last_rtt_us.Hosts config.routing) {B' : Book}
    (hs : Book.Step config w.1 w.2 .credit_requests B') :
    ∃ s', w.1.handle config .credit_requests = .ok s'
      ∧ Step config w .credit_requests (s', B') := by
  obtain ⟨s', hok, -⟩ := (step_agrees hvalid h.agrees hs).exists_ok fun e hblame => by
    obtain ⟨service, hmem, he⟩ := hblame
    obtain ⟨rpc, hrpc, hservice⟩ := List.mem_flatMap.mp hmem
    have hservice' := h.asked_routed hvalid hrouted hrpc service hservice
    obtain ⟨rtt, hok⟩ := credit_request_rtt_ok hsend hhosts hservice'
    rw [hok] at he
    cases he
  exact ⟨s', hok, hok, hs⟩

/-- **`protocol_client` uses a grant that can be used**: the handler returns, with the state that
the book describes. -/
theorem Coherent.grant_returns (h : Coherent config G w) (hvalid : config.Valid)
    (hhosts : w.1.last_rtt_us.Hosts config.routing) {buf : Buffer} {env : GrantEnv} {B' : Book}
    (hs : Book.Step config w.1 w.2 (.grant buf env) B') {m : GrantMessage}
    (hread : read_credit_grant buf = .ok m) (hservice : m.service ∈ config.routing)
    (hacceptable : Acceptable config w.1 env m) :
    ∃ s', w.1.handle config (.grant buf env) = .ok s' ∧ Step config w (.grant buf env)
      (s', B') := by
  have hone : m.granted = 1 := by
    cases hs with
    | grant _ _ m' _ _ _ _ _ _ hread' hone =>
        obtain rfl := Except.ok.inj (hread.symm.trans hread')
        exact hone
  obtain ⟨s', hok, -⟩ := (step_agrees hvalid h.agrees hs).exists_ok fun e hblame => by
    obtain ⟨m', c, hread', -, hblame⟩ := hblame
    obtain rfl := Except.ok.inj (hread.symm.trans hread')
    -- Everything the handler can be blamed for is excluded by one of the hypotheses.
    rcases hblame with hrtt | ⟨rtt, hset⟩ | ⟨-, hcredits⟩ | ⟨-, hunrouted⟩ | hpriority | ⟨-, hfull⟩
    · obtain ⟨rtt, hok⟩ := hacceptable.rtt
      rw [hok] at hrtt
      cases hrtt
    · obtain ⟨last_rtt_us, hok⟩ := hhosts.modify_exists hservice fun _ => rtt
      have hset' : w.1.last_rtt_us.set m.service rtt = .ok last_rtt_us := hok
      rw [hset'] at hset
      cases hset
    · exact hcredits (hacceptable.requested.trans hone.symm)
    · exact hunrouted hservice
    · obtain ⟨-, hplain, rpc, hfind, hnone⟩ := hpriority
      rw [hacceptable.priority _ rpc hfind hnone] at hplain
      cases hplain
    · exact hfull hacceptable.fresh
  exact ⟨s', hok, hok, hs⟩

end Mesh

end RlpSidecar
