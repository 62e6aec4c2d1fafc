/-
**A mesh client forwards each egress RPC once, on its own credit.**

Where no hosted service has a dynamic fan-out, an egress RPC that `protocol_client` admits asks for
one credit of its own service. The grant that echoes its service and id takes it out of `PPMQueue`
and sends it, and nothing else does. So what has been forwarded is what has been granted, in that
order, and `PPMQueue` holds the admitted RPCs whose grant has not come.

`step_forwards` is that statement for one event, and `run_forwards` the one for a run.
`forwarded_on_own_credit` adds what the client side can do next: it never aborts for what it finds
in `PPMQueue` or in the registry, it admits what is queued, and it forwards the RPC of every grant
that can be used.
-/
import RlpSidecar.MeshConservation
import RlpSidecar.MeshProgress

set_option autoImplicit false

open Runs

namespace RlpSidecar

/-- No hosted service has a dynamic fan-out, so each egress RPC needs one grant. -/
def MeshConfig.Static (config : MeshConfig) : Prop :=
  ∀ service info, config.server.find service = some info → info.fanout ≠ .dfanout

namespace Mesh

/-- The egress RPCs that an event admits, which are those in the queue. -/
def admitsOf (s : Mesh) : Event → List (Bytes × RPCID)
  | .credit_requests => s.rpc_queue.map RPCMessage.key
  | _ => []

/-- The egress RPCs that a run has admitted, in the order of their admission. -/
def admittedOf (ts : List (Transition (Mesh × Book) Event)) : List (Bytes × RPCID) :=
  ts.flatMap fun t => t.pre.1.admitsOf t.label

variable {config : MeshConfig} {G : List Used} {w w' : Mesh × Book}

/-! ## What an egress RPC waits for -/

/-- An egress RPC that waits does so for its own service, and none of its grants has been used. -/
theorem Coherent.waiting_own (hvalid : config.Valid) (hstatic : config.Static)
    (h : Coherent config G w) {id : RPCID} {c : Child} (hchild : w.2.child id = some c)
    {pending : List Bytes} {kept : List Buffer} (hphase : c.phase = .waiting pending kept) :
    pending = [c.service] ∧ grantsTo id G = [] := by
  obtain ⟨en, l₁, l₂, hat⟩ := Book.exists_at hchild
  have hwf := h.agrees.book.entries _ _ hat.entry
  have hd := hstatic _ _ hwf.find
  have hwaits := hwf.fits c (by rw [hat.children]; simp) pending kept hphase
  have hpending : pending = [c.service] := by
    unfold Waits at hwaits
    cases hf : en.info.fanout with
    | plain | pfanout => rw [hf] at hwaits; exact hwaits.1
    | dfanout => exact absurd hf hd
  refine ⟨hpending, ?_⟩
  -- its round is complete with what it still waits for
  obtain ⟨-, hlen, -⟩ := Child.waiting_round (h.round hat.entry hchild) hphase
  rw [(hvalid.info _ _ hwf.find).asks_static hd, hpending,
    List.length_singleton] at hlen
  exact List.length_eq_zero_iff.mp (by omega)

/-! ## One event -/

/-- A loop that admits requests asks for one credit for each, and forwards nothing. -/
theorem requests_of_admitted (hvalid : config.Valid) (hstatic : config.Static)
    {rpcs : List RPCMessage} {s s' : Mesh} {B B' : Book}
    (hrun : Agrees.Admitted config rpcs s B s' B') :
    s'.requests = s.requests ++ rpcs.map RPCMessage.key ∧ s'.forwarded = s.forwarded := by
  induction hrun with
  | nil => simp
  | @cons rpc rpcs s s₁ s' B B' pre head _ ih =>
      obtain ⟨c, hchild, _, hservice, _⟩ := pre.head_queued
      obtain ⟨en, l₁, l₂, hat⟩ := Book.exists_at hchild
      have hfind := (pre.book.entries _ _ hat.entry).find
      have hset := hat.child_set pre.book (o := some (c.enlist en.info)) fun c' hc' => by
        obtain rfl := Option.some.inj hc'
        rfl
      have hwanted : Agrees.wanted ((B.enlist rpc.local_id).child rpc.local_id)
          = [rpc.service] := by
        rw [hat.enlist pre.book, hset, Function.update_self, ← hservice]
        exact (hvalid.info _ _ hfind).asks_static (hstatic _ _ hfind) c.service
      obtain ⟨hrequests, hforwarded⟩ := ih
      refine ⟨?_, hforwarded.trans head.forwarded⟩
      rw [hrequests, head.requests, hwanted, List.append_assoc]
      rfl

/-- **One event** admits what is in the queue if it is the turn of `protocol_client`, forwards the
RPC of its grant if it is one, and does neither otherwise. -/
theorem step_forwards {ev : Event} (hvalid : config.Valid) (hstatic : config.Static)
    (h : Coherent config G w) (hs : Step config w ev w') :
    w'.1.requests = w.1.requests ++ w.1.admitsOf ev
      ∧ w'.1.forwarded.map RPCMessage.key
        = w.1.forwarded.map RPCMessage.key ++ (grantOf ev).toList.map Used.key := by
  obtain ⟨hhandle, hbook⟩ := hs
  obtain ⟨_, houtcome⟩ := (step_agrees hvalid h.agrees hbook).of_ok hhandle
  cases houtcome with
  | kept _ hev hquiet =>
      rw [hquiet.requests, hquiet.forwarded]
      cases ev with
      | grant buf env => exact absurd rfl (hev.1 buf env)
      | credit_requests => exact absurd rfl hev.2
      | _ => simp [admitsOf, grantOf]
  | issued parent service priority hquiet =>
      rw [hquiet.requests, hquiet.forwarded]
      simp [admitsOf, grantOf]
  -- An admitted request asks once, for its own service.
  | admitted hrun =>
      obtain ⟨hrequests, hforwarded⟩ := requests_of_admitted hvalid hstatic hrun
      rw [hrequests, hforwarded]
      simp [admitsOf, grantOf]
  | granted buf env m en c pending kept hread hentry hold hid hphase hpending hdelivered =>
      -- Without dynamic fanout the child waits for one credit, so this grant is its last.
      obtain ⟨hown, _⟩ := h.waiting_own hvalid hstatic hold hphase
      rw [hown, List.mem_singleton] at hpending
      have hlast : pending.erase m.service = [] := by rw [hown, hpending]; simp
      obtain ⟨rpc, _, _, hlocal, hservice, hforwarded, _⟩ := hdelivered.sent hlast
      have hkey : rpc.key = Used.key (m, buf) := by
        unfold RPCMessage.key Used.key
        rw [hlocal, hservice, hid, hpending]
      rw [hdelivered.requests, hforwarded]
      simp [admitsOf, grantOf, hread, hkey]
  | answered id c hold hphase hquiet =>
      rw [hquiet.requests, hquiet.forwarded]
      simp [admitsOf, grantOf]

/-! ## Whole runs -/

/-- **Every run**, by induction: what was admitted was asked for, and what was granted was
forwarded. -/
theorem exec_forwards {ts : List (Transition (Mesh × Book) Event)} (hvalid : config.Valid)
    (hstatic : config.Static) (hrun : Exec (Step config) w ts w') (h : Coherent config G w) :
    w'.1.requests = w.1.requests ++ admittedOf ts
      ∧ w'.1.forwarded.map RPCMessage.key
        = w.1.forwarded.map RPCMessage.key ++ (grantsOf ts).map Used.key := by
  induction hrun generalizing G with
  | nil => simp [admittedOf, grantsOf]
  | @cons w w₁ w' ev ts head _ ih =>
      obtain ⟨hrequests, hforwarded⟩ := step_forwards hvalid hstatic h head
      obtain ⟨hrequests', hforwarded'⟩ := ih (step_coherent hvalid h head)
      rw [hrequests', hforwarded', hrequests, hforwarded, grantsOf_cons]
      simp [admittedOf]

/-- A client-side handler never aborts for what `ppm_queue` or the registry holds. -/
theorem Coherent.client_aborts (hvalid : config.Valid) (hstatic : config.Static)
    (h : Coherent config G w) {ev : Event} {B' : Book} (hs : Book.Step config w.1 w.2 ev B')
    (hclient : ∀ req env, ev ≠ .datagram req env) {e : Abort}
    (he : w.1.handle config ev = .error e) :
    e ≠ .ppmPush ∧ e ≠ .ppmPop ∧ e ≠ .ppmCheck ∧ e ≠ .noIngressRpc := by
  have hblames := (step_agrees hvalid h.agrees hs).of_error he
  cases hs with
  | credit_requests =>
      obtain ⟨service, -, he⟩ := hblames
      rcases credit_request_rtt_error he with rfl | rfl | rfl | rfl | rfl <;> simp
  | grant buf env m en l₁ c l₂ pending kept hread hone hat hphase hpending =>
      obtain ⟨m', c', hread', -, hblame⟩ := hblames
      obtain rfl := Except.ok.inj (hread.symm.trans hread')
      obtain ⟨hown, _⟩ := h.waiting_own hvalid hstatic (hat.child h.agrees.book) hphase
      -- the grant names the service of its egress RPC, which is routed
      have hrouted : m.service ∈ config.routing := by
        rw [hown, List.mem_singleton] at hpending
        rw [hpending]
        exact (h.agrees.book.entries _ _ hat.entry).routed c (by rw [hat.children]; simp)
      rcases hblame with hrtt | ⟨rtt, hset⟩ | ⟨rfl, -⟩ | ⟨-, hunrouted⟩ | ⟨rfl, -⟩ | ⟨rfl, -⟩
      · rcases credit_rtt_error hrtt with rfl | rfl <;> simp
      · rcases LocalMap.set_error hset with rfl | rfl <;> simp
      · simp
      · exact absurd hrouted hunrouted
      · simp
      · simp
  | credit_request req env => exact absurd rfl (hclient req env)
  | credit_return req env => exact absurd rfl (hclient req env)
  | _ => exact hblames.elim

/-- **What a run has asked for, forwarded and kept**: one Credit Request for each admitted RPC,
what was granted in that order, and the admitted RPCs whose grant has not been used. -/
theorem run_forwards {counts : LocalMap (BitVec 32)} {s₀ s : Mesh} {B : Book}
    {ts : List (Transition (Mesh × Book) Event)} (hvalid : config.Valid) (hstatic : config.Static)
    (hstart : start config counts = .ok s₀) (hrun : Exec (Step config) (s₀, .empty) ts (s, B)) :
    s.requests = admittedOf ts ∧ (admittedOf ts).Nodup
      ∧ s.forwarded.map RPCMessage.key = (grantsOf ts).map Used.key
      ∧ (s.forwarded.map RPCMessage.local_id).Nodup
      ∧ ∀ k, (s.ppm_queue.find k).isSome = true
          ↔ k ∈ admittedOf ts ∧ k ∉ (grantsOf ts).map Used.key := by
  have h := run_coherent hvalid hstart hrun
  obtain ⟨hrequests, hforwarded⟩ := exec_forwards hvalid hstatic hrun (start_coherent hvalid hstart)
  obtain ⟨server, _, hs₀⟩ := bind_eq_ok.mp hstart
  obtain ⟨last_rtt_us, _, hs₀⟩ := bind_eq_ok.mp hs₀
  obtain rfl := Except.ok.inj hs₀
  rw [List.map_nil, List.nil_append] at hforwarded
  rw [List.nil_append] at hrequests
  -- the keys that were granted are those that were forwarded, each once
  have hkeys : ((grantsOf ts).map Used.key).Nodup := by
    rw [← hforwarded]
    refine List.Nodup.of_map Prod.snd ?_
    rw [List.map_map]
    exact h.logged.nodup
  have hasked : ∀ service id, (admittedOf ts).count (service, id)
      = ((grantsOf ts).map Used.key).count (service, id)
        + (Agrees.wanted (B.child id)).count service := by
    intro service id
    rw [← hrequests]
    exact h.logged.asked service id
  have hwaiting : ∀ {id c pending kept}, B.child id = some c → c.phase = .waiting pending kept →
      Agrees.wanted (B.child id) = [c.service]
        ∧ ∀ service, (service, id) ∉ (grantsOf ts).map Used.key := by
    intro id c pending kept hchild hphase
    obtain ⟨hown, hnone⟩ := h.waiting_own hvalid hstatic hchild hphase
    refine ⟨by rw [hchild, ← hown]; simp only [Agrees.wanted, hphase], fun service hmem => ?_⟩
    obtain ⟨g, hg, hkey⟩ := List.mem_map.mp hmem
    have hid : g.1.id = id := (Prod.mk.inj hkey).2
    have hin : g ∈ grantsTo id (grantsOf ts) := List.mem_filter.mpr ⟨hg, by simpa using hid⟩
    rw [hnone] at hin
    simp at hin
  refine ⟨hrequests, List.nodup_iff_count_le_one.mpr fun k => ?_, hforwarded, h.logged.nodup,
    fun k => ?_⟩
  · obtain ⟨service, id⟩ := k
    rw [hasked]
    have hgranted := List.nodup_iff_count_le_one.mp hkeys (service, id)
    cases hchild : B.child id with
    | none => simpa [Agrees.wanted] using hgranted
    | some c =>
        cases hphase : c.phase with
        | queued | forwarded => simpa [Agrees.wanted, hphase] using hgranted
        | waiting pending kept =>
            obtain ⟨hwanted, hfresh⟩ := hwaiting hchild hphase
            rw [← hchild, hwanted, List.count_eq_zero_of_not_mem (hfresh service), Nat.zero_add]
            exact List.nodup_iff_count_le_one.mp (List.nodup_singleton _) service
  · obtain ⟨service, id⟩ := k
    rw [show (s.ppm_queue.find (service, id)).isSome = true ↔ _ from h.ppm_find service id]
    constructor
    · rintro ⟨c, pending, kept, hchild, hphase, rfl⟩
      obtain ⟨hwanted, hfresh⟩ := hwaiting hchild hphase
      refine ⟨List.count_pos_iff.mp ?_, hfresh c.service⟩
      rw [hasked, hwanted, List.count_singleton_self]
      omega
    · rintro ⟨hmem, hfresh⟩
      have hpos := List.count_pos_iff.mpr hmem
      rw [hasked, List.count_eq_zero_of_not_mem hfresh, Nat.zero_add, List.count_pos_iff] at hpos
      -- who waits for a credit has asked its own service for it
      cases hchild : B.child id with
      | none => rw [hchild] at hpos; simp [Agrees.wanted] at hpos
      | some c =>
          cases hphase : c.phase with
          | queued | forwarded => rw [hchild] at hpos; simp [Agrees.wanted, hphase] at hpos
          | waiting pending kept =>
              rw [(hwaiting hchild hphase).1, List.mem_singleton] at hpos
              exact ⟨c, pending, kept, rfl, hphase, hpos.symm⟩

/-! ## What comes next -/

/-- A configuration without dynamic fan-outs asks no other downstream than that of the request,
which is routed. -/
theorem routed_of_static (hstatic : config.Static) : config.Routed :=
  fun service info hinfo hd => absurd hd (hstatic service info hinfo)

/-- A grant that echoes the service and the id of an RPC that waits is one the neighbours may
send. -/
theorem Coherent.grant_step (hvalid : config.Valid) (hstatic : config.Static)
    (h : Coherent config G w) {buf : Buffer} {m : GrantMessage} {rpc : RPCMessage}
    (hread : read_credit_grant buf = .ok m) (hone : m.granted = 1)
    (hfind : w.1.ppm_queue.find (m.service, m.id) = some rpc) (env : GrantEnv) :
    m.service ∈ config.routing ∧ ∃ B', Book.Step config w.1 w.2 (.grant buf env) B' := by
  obtain ⟨c, pending, kept, hchild, hphase, hservice⟩ :=
    (h.ppm_find m.service m.id).mp (by rw [hfind]; rfl)
  obtain ⟨en, l₁, l₂, hat⟩ := Book.exists_at hchild
  obtain ⟨hown, -⟩ := h.waiting_own hvalid hstatic hchild hphase
  refine ⟨?_, _, .grant buf env m en l₁ c l₂ pending kept hread hone hat hphase ?_⟩
  · rw [← hservice]
    exact (h.agrees.book.entries _ _ hat.entry).routed c (by rw [hat.children]; simp)
  · rw [hown, hservice]
    exact List.mem_singleton_self _

/-- **A grant forwards the RPC that waits for it**: the handler returns, and the RPC is the last
one forwarded. -/
theorem Coherent.grant_forwards (hvalid : config.Valid) (hstatic : config.Static)
    (h : Coherent config G w) (hhosts : w.1.last_rtt_us.Hosts config.routing)
    {buf : Buffer} {env : GrantEnv} {m : GrantMessage} {rpc : RPCMessage}
    (hread : read_credit_grant buf = .ok m) (hone : m.granted = 1)
    (hfind : w.1.ppm_queue.find (m.service, m.id) = some rpc)
    (hacceptable : Acceptable config w.1 env m) :
    ∃ s' B', Step config w (.grant buf env) (s', B') ∧ s'.forwarded = w.1.forwarded ++ [rpc] := by
  obtain ⟨hservice, B', hbook⟩ := h.grant_step hvalid hstatic hread hone hfind env
  obtain ⟨s', hok, hstep⟩ := h.grant_returns hvalid hhosts hbook hread hservice hacceptable
  refine ⟨s', B', hstep, ?_⟩
  obtain ⟨_, houtcome⟩ := (step_agrees hvalid h.agrees hbook).of_ok hok
  cases houtcome with
  | kept _ hev => exact absurd rfl (hev.1 buf env)
  | granted _ _ m' en c pending kept hread' hentry hold hid hphase hpending hdelivered =>
      obtain rfl := Except.ok.inj (hread.symm.trans hread')
      obtain ⟨hown, _⟩ := h.waiting_own hvalid hstatic hold hphase
      rw [hown, List.mem_singleton] at hpending
      obtain ⟨rpc', _, hfind', _, _, hforwarded, _⟩ :=
        hdelivered.sent (by rw [hown, hpending]; simp)
      rw [hid, ← hpending, hfind] at hfind'
      obtain rfl := Option.some.inj hfind'
      exact hforwarded

/-- **Every egress RPC is forwarded once, on its own credit.** In every run among these neighbours,
who use at most 2³² - 3 local ids: each admitted RPC has sent one Credit Request; what was
forwarded is what was granted, in that order, each RPC once and at its own grant; `ppm_queue` holds
the admitted RPCs whose grant has not been used; and whatever the neighbours do next, the client
side does not abort for what it finds in `ppm_queue` or in the registry.

Nor does it stop otherwise, if Credit Requests can be sent to the services of the routing table:
next, `protocol_client` admits all requests that are queued, each then waits in `ppm_queue`, and
none is forwarded by it; and a grant that can be used, for any RPC that waits there, is handled to
its end and forwards this RPC. -/
theorem forwarded_on_own_credit {counts : LocalMap (BitVec 32)} {s₀ s : Mesh} {B : Book}
    {ts : List (Transition (Mesh × Book) Event)} (hvalid : config.Valid) (hstatic : config.Static)
    (hstart : start config counts = .ok s₀) (hrun : Exec (Step config) (s₀, .empty) ts (s, B)) :
    s.requests = admittedOf ts ∧ (admittedOf ts).Nodup
      ∧ s.forwarded.map RPCMessage.key = (grantsOf ts).map Used.key
      ∧ (s.forwarded.map RPCMessage.local_id).Nodup
      ∧ (∀ t ∈ ts, t.post.1.forwarded.map RPCMessage.key
          = t.pre.1.forwarded.map RPCMessage.key ++ (grantOf t.label).toList.map Used.key)
      ∧ (∀ k, (s.ppm_queue.find k).isSome = true
          ↔ k ∈ admittedOf ts ∧ k ∉ (grantsOf ts).map Used.key)
      ∧ (∀ ev B' e, Book.Step config s B ev B' → (∀ req env, ev ≠ .datagram req env) →
          s.handle config ev = .error e →
          e ≠ .ppmPush ∧ e ≠ .ppmPop ∧ e ≠ .ppmCheck ∧ e ≠ .noIngressRpc)
      ∧ (config.Sendable →
          (∃ s' B', Step config (s, B) .credit_requests (s', B') ∧ s'.forwarded = s.forwarded
            ∧ ∀ rpc ∈ s.rpc_queue, (s'.ppm_queue.find rpc.key).isSome = true)
          ∧ ∀ buf env m rpc, read_credit_grant buf = .ok m → m.granted = 1 →
              s.ppm_queue.find (m.service, m.id) = some rpc → Acceptable config s env m →
              ∃ s' B', Step config (s, B) (.grant buf env) (s', B')
                ∧ s'.forwarded = s.forwarded ++ [rpc]) := by
  have h := run_coherent hvalid hstart hrun
  obtain ⟨hrequests, hnodup, hforwarded, honce, hwaits⟩ := run_forwards hvalid hstatic hstart hrun
  refine ⟨hrequests, hnodup, hforwarded, honce, fun t ht => ?_, hwaits,
    fun ev B' e hstep hclient he => h.client_aborts hvalid hstatic hstep hclient he,
    fun hsend => ?_⟩
  · obtain ⟨before, after, rfl⟩ := List.append_of_mem ht
    obtain ⟨w₁, hbefore, hrest⟩ := hrun.split
    cases hrest with
    | cons head _ =>
        exact (step_forwards hvalid hstatic (run_coherent hvalid hstart hbefore) head).2
  have hhosts : s.last_rtt_us.Hosts config.routing :=
    exec_hosts hvalid hrun (start_coherent hvalid hstart) (start_hosts hsend hstart)
  refine ⟨?_, fun buf env m rpc hread hone hfind hacceptable =>
    h.grant_forwards hvalid hstatic hhosts hread hone hfind hacceptable⟩
  obtain ⟨B', hbook⟩ : ∃ B', Book.Step config s B .credit_requests B' := ⟨_, .credit_requests⟩
  obtain ⟨s', -, hstep⟩ := h.requests_return hvalid (routed_of_static hstatic) hsend hhosts hbook
  refine ⟨s', B', hstep, ?_, fun rpc hrpc => ?_⟩
  · -- nothing is added to what was forwarded
    obtain ⟨_, houtcome⟩ := (step_agrees hvalid h.agrees hstep.2).of_ok hstep.1
    cases houtcome with
    | kept _ hev => exact absurd rfl hev.2
    | admitted hrun => exact (requests_of_admitted hvalid hstatic hrun).2
  · -- the run with this event has admitted the request, and none of its grants is for it
    have hafter := run_forwards hvalid hstatic hstart (hrun.append (.single hstep))
    obtain ⟨-, hnodup', -, -, hwaits'⟩ := hafter
    have hlabel : admittedOf (ts ++ [⟨(s, B), .credit_requests, (s', B')⟩])
        = admittedOf ts ++ s.rpc_queue.map RPCMessage.key := by
      unfold admittedOf
      rw [List.flatMap_append, List.flatMap_singleton]
      rfl
    have hgrants : grantsOf (ts ++ [⟨(s, B), .credit_requests, (s', B')⟩]) = grantsOf ts := by
      unfold grantsOf
      rw [List.filterMap_append]
      exact List.append_nil _
    have hkey : rpc.key ∈ s.rpc_queue.map RPCMessage.key := List.mem_map_of_mem hrpc
    rw [hwaits', hlabel, hgrants]
    rw [hlabel] at hnodup'
    refine ⟨List.mem_append_right _ hkey, fun hgranted => ?_⟩
    -- a grant is for an RPC that was admitted before
    have hbefore : rpc.key ∈ admittedOf ts := by
      have hcount := h.logged.asked rpc.key.1 rpc.key.2
      have hpos := List.count_pos_iff.mpr hgranted
      rw [← hrequests]
      exact List.count_pos_iff.mp (by
        have hkey' : (rpc.key.1, rpc.key.2) = rpc.key := rfl
        rw [hkey'] at hcount
        dsimp only at hcount
        omega)
    exact (List.nodup_append.mp hnodup').2.2 _ hbefore _ hkey rfl

/-- The routing table of the relay can be sent Credit Requests: its only name is short enough. -/
theorem relay_sendable : relay.Sendable where
  names service hservice := by
    obtain rfl := List.mem_singleton.mp hservice
    decide
  seeded := ⟨by decide, .inl ⟨0, by decide, LocalMap.collisionFree_singleton [98] 0⟩⟩

/-- The relay forwards its egress RPC once. While the RPC waits, the grant for it can be used, and
forwards it. -/
theorem forwarded_on_own_credit_relay : ∃ (counts : LocalMap (BitVec 32)) (s₀ s s₁ s₂ : Mesh),
    start relay counts = .ok s₀ ∧ s.forwarded.map RPCMessage.key = [([98], firstChild)]
      ∧ s₁.handle relay (.grant (grantFor [98] firstChild) grantEnv) = .ok s₂
      ∧ ∃ rpc, s₁.ppm_queue.find ([98], firstChild) = some rpc
        ∧ s₂.forwarded = s₁.forwarded ++ [rpc] := by
  obtain ⟨counts, s₀, s, B, ts, hstart, hrun, _, _, hgrants, ⟨s₁, B₁⟩, before, hbefore, hwaits⟩ :=
    relay_run
  have hstatic : relay.Static := by
    intro service info hinfo hd
    obtain rfl : (⟨[[98]], false, false⟩ : MappingInfo) = info := relay_find hinfo
    simp [MappingInfo.fanout] at hd
  have hkeys := (forwarded_on_own_credit relay_valid hstatic hstart hrun).2.2.1
  rw [hgrants] at hkeys
  obtain ⟨rpc, hfind, hpriority⟩ := Option.map_eq_some_iff.mp hwaits
  have h := run_coherent relay_valid hstart hbefore
  have hacceptable : Acceptable relay s₁ grantEnv firstGrant :=
    h.acceptable hfind (by rw [hpriority]; decide)
      (by decide : _ = Except.ok (5 : BitVec 32)) rfl rfl
  have hread : read_credit_grant (grantFor [98] firstChild) = .ok firstGrant := by decide +kernel
  obtain ⟨s₂, B₂, hstep, hforwarded⟩ := (forwarded_on_own_credit relay_valid hstatic hstart
    hbefore).2.2.2.2.2.2.2 relay_sendable |>.2 _ grantEnv firstGrant rpc hread rfl hfind hacceptable
  exact ⟨counts, s₀, s, s₁, s₂, hstart, hkeys, hstep.1, rpc, hfind, hforwarded⟩

end Mesh

end RlpSidecar
