/-
**Credit conservation over whole RPC lifetimes.**

The counter of a service goes up when a grant is sent for it and when an egress response makes an
ingress RPC active again, and down when an ingress RPC waits for its egress RPCs, when it is
answered and when a grant comes back. At every moment it is the grants that are not used yet and
what the open ingress RPCs count for; when nothing is open and no grant is left it is zero,
whatever the services' modes of fan-out and the order in which everything arrived.

The equation itself is part of the coupling, so it is kept by every event; what is left here is to
read it at the end of a run. A run is one of the sidecar among neighbours that keep their promises,
in any order, with any number of ingress RPCs at a time and in all three modes of fan-out.
-/
import RlpSidecar.MeshRuns

set_option autoImplicit false

open Runs

namespace RlpSidecar

namespace Mesh

variable {config : MeshConfig} {G : List Used} {w : Mesh × Book}

/-- The counter of a service at any moment: the grants that are not used yet, and what the open
RPCs count for. -/
theorem Coherent.active_eq (h : Coherent config G w) (e : Bytes) :
    w.1.server.credit_queue.counters.active e
      = (Server.grantsFor e w.1.server.sent - w.2.spent e : ℤ) + ∑ i, worth e (w.2.entry i) := by
  have hbalance := h.agrees.balance e
  unfold Server.balance Book.owed at hbalance
  have hactive : w.1.server.room.active e = w.1.server.credit_queue.counters.active e := rfl
  rw [hactive] at hbalance
  omega

/-- **Credits are conserved.** Once all RPCs of a run have finished and each issued grant has been
used or returned, every counter of the sidecar is zero. The run may have any length, but hands out
fewer than 2³² - 2 local ids, before the lower halves of the ids begin to repeat. -/
theorem credits_conserved {counts : LocalMap (BitVec 32)} {s₀ s : Mesh} {B : Book}
    {ts : List (Transition (Mesh × Book) Event)} (hvalid : config.Valid)
    (hstart : start config counts = .ok s₀) (hrun : Exec (Step config) (s₀, .empty) ts (s, B))
    (hfinished : ∀ i, B.entry i = none)
    (hspent : ∀ e, B.spent e = Server.grantsFor e s.server.sent) :
    s.server.credit_queue.counters.in_flight = 0
      ∧ ∀ e, s.server.credit_queue.counters.active e = 0 := by
  have h := run_coherent hvalid hstart hrun
  have hactive : ∀ e, s.server.credit_queue.counters.active e = 0 := by
    intro e
    rw [h.active_eq e]
    have hworth : ∑ i, worth e (B.entry i) = 0 := Finset.sum_eq_zero fun i _ => by
      rw [hfinished i]; rfl
    rw [hworth, hspent e, sub_self, add_zero]
  refine ⟨?_, hactive⟩
  have htotal : s.server.credit_queue.counters.in_flight
      = ∑ e ∈ config.server.hosted.toFinset, s.server.credit_queue.counters.active e :=
    h.agrees.server.queue.balanced
  rw [htotal]
  exact Finset.sum_eq_zero fun e _ => hactive e

/-! ## A small relay

One plain service whose requests each send one egress request, for the runs on fixed inputs. -/

/-- The service `a`, which asks `b` for each of its requests. -/
def relay : MeshConfig :=
  { server := { limits := ⟨1, 0, false, fun _ => 0⟩, mapping := [([97], ⟨[[98]], false, false⟩)] }
    routing := [[98]]
    ids := ⟨false, false⟩ }

/-- The grant of `service` for the egress RPC `id`, as its server writes it. -/
def grantFor (service : Bytes) (id : RPCID) : Buffer :=
  match (do
    let req ← write_credit_request .blank service 1 id 0 0 0
    write_failed_dn_response req .blank) with
  | .ok grant => grant
  | .error _ => .blank

/-- Pool buffers are blank, and a grant arrives five microseconds after its request. -/
def grantEnv : GrantEnv := ⟨.blank, 5, 0⟩

/-- The entry of an ingress RPC of `a`, for the concrete run. -/
def relayEntry (issued : ℕ) (children : List Child) : Entry :=
  ⟨[97], ⟨[[98]], false, false⟩, issued, children⟩

/-- A book with at most one ingress RPC, the first one, of the service `a`. -/
def soleBook (en : Option Entry) (spent ids : ℕ) : Book :=
  ⟨Function.update (fun _ => none) 2 en, Function.update (fun _ => 0) [97] spent, ids⟩

@[simp] theorem soleBook_set (en en' : Option Entry) (spent ids : ℕ) :
    (soleBook en spent ids).set 2 en' = soleBook en' spent ids := by
  simp [soleBook, Book.set]

@[simp] theorem soleBook_spend (en : Option Entry) (spent ids : ℕ) :
    (soleBook en spent ids).spend [97] = soleBook en (spent + 1) ids := by
  simp [soleBook, Book.spend]

@[simp] theorem soleBook_count (en : Option Entry) (spent ids : ℕ) :
    (soleBook en spent ids).count = soleBook en spent (ids + 1) := rfl

@[simp] theorem soleBook_entry (en : Option Entry) (spent ids : ℕ) :
    (soleBook en spent ids).entry 2 = en := by
  simp [soleBook]

theorem soleBook_empty : soleBook none 0 0 = .empty := by
  simp [soleBook, Book.empty]

/-- The id of the first egress RPC of the first ingress RPC. -/
def firstChild : RPCID := newId 2 1

/-- What the grant for it says, as the datagram is read. -/
def firstGrant : GrantMessage := ⟨[98], firstChild, 0, 0, 1, 1⟩

/-- A request to `a` is granted, arrives, sends its egress request, which is granted, forwarded and
answered, and is answered itself. Before its grant the egress request waits with its priority. -/
theorem relay_run : ∃ counts s₀ s B ts, start relay counts = .ok s₀
    ∧ Exec (Step relay) (s₀, .empty) ts (s, B) ∧ (∀ i, B.entry i = none)
    ∧ (∀ e, B.spent e = Server.grantsFor e s.server.sent)
    ∧ grantsOf ts = [(firstGrant, grantFor [98] firstChild)]
    ∧ ∃ w before, Exec (Step relay) (s₀, .empty) before w
      ∧ (w.1.ppm_queue.find ([98], firstChild)).map RPCMessage.priority = some 0 := by
  have hcheck : (do
      let counts ← LocalMap.ofKeys [[97]] 0
      let s₀ ← start relay counts
      let s₁ ← s₀.handle relay (.datagram (Server.requestFor [97] 0) Server.plainEnv)
      let s₂ ← s₁.handle relay (.ingress_request [97])
      let s₃ ← s₂.handle relay (.egress_request 2 [98] 0)
      let s₄ ← s₃.handle relay .credit_requests
      let s₅ ← s₄.handle relay (.grant (grantFor [98] firstChild) grantEnv)
      let s₆ ← s₅.handle relay (.egress_response firstChild)
      let s₇ ← s₆.handle relay (.ingress_response 2 0)
      .ok (decide (Server.grantsFor [97] s₁.server.sent = 1)
        && decide (s₃.rpc_queue.map RPCMessage.local_id = [firstChild])
        && decide ((s₄.ppm_queue.find ([98], firstChild)).map RPCMessage.priority = some 0)
        && decide (s₇.server.sent.map extract_service_from_rlp_req = [.ok [97]])))
      = (.ok true : Except Abort Bool) := by
    decide +kernel
  obtain ⟨counts, _, hcheck⟩ := bind_eq_ok.mp hcheck
  obtain ⟨s₀, hstart, hcheck⟩ := bind_eq_ok.mp hcheck
  obtain ⟨s₁, h₁, hcheck⟩ := bind_eq_ok.mp hcheck
  obtain ⟨s₂, h₂, hcheck⟩ := bind_eq_ok.mp hcheck
  obtain ⟨s₃, h₃, hcheck⟩ := bind_eq_ok.mp hcheck
  obtain ⟨s₄, h₄, hcheck⟩ := bind_eq_ok.mp hcheck
  obtain ⟨s₅, h₅, hcheck⟩ := bind_eq_ok.mp hcheck
  obtain ⟨s₆, h₆, hcheck⟩ := bind_eq_ok.mp hcheck
  obtain ⟨s₇, h₇, hcheck⟩ := bind_eq_ok.mp hcheck
  have hall := Except.ok.inj hcheck
  simp only [Bool.and_eq_true, decide_eq_true_eq] at hall
  obtain ⟨⟨⟨hgrants, hqueue⟩, hwaits⟩, hsent⟩ := hall
  obtain ⟨rpc, hrpc, hlocal⟩ := List.map_eq_singleton_iff.mp hqueue
  obtain ⟨sent, hsent, hservice⟩ := List.map_eq_singleton_iff.mp hsent
  -- the ingress RPC opens, and its egress RPC goes through its phases
  have w₁ : Step relay (s₀, .empty) (.datagram (Server.requestFor [97] 0) Server.plainEnv)
      (s₁, .empty) :=
    ⟨h₁, .credit_request _ _ [97] 7 0 0 (by decide +kernel) (by decide +kernel)⟩
  have w₂ : Step relay (s₁, .empty) (.ingress_request [97])
      (s₂, soleBook (some (relayEntry 0 [])) 1 1) := by
    rw [← soleBook_empty]
    refine ⟨h₂, .to (.ingress_request [97] _ rfl (by rw [hgrants]; exact Nat.one_pos)
      (by dsimp only; decide)) ?_⟩
    have hid : newId 0 (soleBook none 0 0).ids = 2 := by decide
    dsimp only
    rw [hid, soleBook_set, soleBook_spend, soleBook_count]
    rfl
  have w₃ : Step relay (s₂, soleBook (some (relayEntry 0 [])) 1 1) (.egress_request 2 [98] 0)
      (s₃, soleBook (some (relayEntry 1 [⟨firstChild, [98], .queued⟩])) 1 2) :=
    ⟨h₃, .to (.egress_request 2 [98] 0 (relayEntry 0 []) (soleBook_entry ..) (by decide) trivial
      (by dsimp only; decide)) (congrArg Book.count (soleBook_set ..))⟩
  have w₄ : Step relay (s₃, soleBook (some (relayEntry 1 [⟨firstChild, [98], .queued⟩])) 1 2)
      .credit_requests
      (s₄, soleBook (some (relayEntry 1 [⟨firstChild, [98], .waiting [[98]] []⟩])) 1 2) := by
    refine ⟨h₄, .to .credit_requests ?_⟩
    dsimp only
    rw [hrpc, List.foldl_cons, List.foldl_nil, hlocal]
    exact soleBook_set ..
  have w₅ : Step relay
      (s₄, soleBook (some (relayEntry 1 [⟨firstChild, [98], .waiting [[98]] []⟩])) 1 2)
      (.grant (grantFor [98] firstChild) grantEnv)
      (s₅, soleBook (some (relayEntry 1 [⟨firstChild, [98], .forwarded⟩])) 1 2) :=
    ⟨h₅, .to (.grant _ _ firstGrant (relayEntry 1 [⟨firstChild, [98], .waiting [[98]] []⟩]) [] _ []
      [[98]] [] (by decide +kernel) rfl ⟨soleBook_entry .., rfl, rfl⟩ rfl (by decide))
      (soleBook_set ..)⟩
  have w₆ : Step relay (s₅, soleBook (some (relayEntry 1 [⟨firstChild, [98], .forwarded⟩])) 1 2)
      (.egress_response firstChild) (s₆, soleBook (some (relayEntry 1 [])) 1 2) :=
    ⟨h₆, .to (.egress_response firstChild (relayEntry 1 [⟨firstChild, [98], .forwarded⟩]) [] _ []
      ⟨soleBook_entry .., rfl, rfl⟩ rfl) (soleBook_set ..)⟩
  have w₇ : Step relay (s₆, soleBook (some (relayEntry 1 [])) 1 2) (.ingress_response 2 0)
      (s₇, soleBook none 1 2) :=
    ⟨h₇, .to (.ingress_response 2 0 (relayEntry 1 []) (soleBook_entry ..) rfl (by decide))
      (soleBook_set ..)⟩
  refine ⟨counts, s₀, s₇, soleBook none 1 2, _, hstart, .cons w₁ (.cons w₂ (.cons w₃ (.cons w₄
    (.cons w₅ (.cons w₆ (.cons w₇ (.nil _))))))), fun i => ?_, fun e => ?_, ?_, (s₄, _), _,
    .cons w₁ (.cons w₂ (.cons w₃ (.cons w₄ (.nil _)))), hwaits⟩
  · simp [soleBook]
  · have hspent : (soleBook none 1 2).spent e = if e = [97] then 1 else 0 := by
      simp [soleBook, Function.update_apply]
    rw [hspent]
    unfold Server.grantsFor
    rw [hsent, List.countP_singleton, hservice]
    simp [eq_comm]
  · have hread : read_credit_grant (grantFor [98] firstChild) = .ok firstGrant := by decide +kernel
    simp [grantsOf, grantOf, hread]

theorem relay_find {service : Bytes} {info : MappingInfo}
    (hinfo : relay.server.find service = some info) : ⟨[[98]], false, false⟩ = info := by
  simp only [ServerConfig.find, relay, List.lookup_cons, List.lookup_nil] at hinfo
  split at hinfo
  · exact Option.some.inj hinfo
  · simp at hinfo

/-- The relay is configured as it should be: it hosts a service, with one downstream and no
fan-out. -/
theorem relay_valid : relay.Valid where
  nonempty := by decide
  info service info hinfo := by
    rw [← relay_find hinfo]
    exact ⟨by simp, by decide, fun h => by simp [MappingInfo.fanout] at h⟩

/-- The relay ends with all counters at zero: one request is served, and everything is returned. -/
theorem credits_conserved_relay : ∃ (counts : LocalMap (BitVec 32))
    (s₀ s : Mesh), start relay counts = .ok s₀
    ∧ s.server.credit_queue.counters.in_flight = 0
    ∧ ∀ e, s.server.credit_queue.counters.active e = 0 := by
  obtain ⟨counts, s₀, s, B, ts, hstart, hrun, hfinished, hspent, _⟩ := relay_run
  exact ⟨counts, s₀, s, hstart, credits_conserved relay_valid hstart hrun hfinished hspent⟩

end Mesh

end RlpSidecar
