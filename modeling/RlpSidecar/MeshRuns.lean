/-
Runs of a mesh sidecar, and what they have sent.

A run starts with a new process and an empty book. `Logged` relates what the sidecar has sent to
the grants the run has used: for each service and id there are as many Credit Requests as grants
and credits still waited for, no RPC is forwarded twice, and an egress RPC has had exactly the
grants its phase says. Together with the coupling it holds at every moment of every run.

`logged_of_outcome` is the step lemma, by the outcomes of an event, and `exec_coherent` the
induction. The statements about whole runs (conservation, forwarding, dynamic fan-out, what counts
as active) all start from `Coherent`, which has the coupling and the log.
-/
import RlpSidecar.MeshEvents

set_option autoImplicit false

open Runs

namespace RlpSidecar

/-! ## Histories -/

/-- The service and the id of an RPC, under which it waits in `ppm_queue`. -/
def RPCMessage.key (rpc : RPCMessage) : Bytes × RPCID := (rpc.service, rpc.local_id)

/-- A used grant: what was read from it, and the datagram, which is kept for a Credit Return. -/
abbrev Used := GrantMessage × Buffer

/-- The service and the id of a used grant, as the RPC that waits is found by them. -/
def Used.key (g : Used) : Bytes × RPCID := (g.1.service, g.1.id)

/-- The used grants for the egress RPC `id`, in the order of their arrival. -/
def grantsTo (id : RPCID) (G : List Used) : List Used := G.filter fun g => g.1.id = id

/-- The grants that an egress RPC of this phase has had: none, some of those it asked for, or
all. -/
def Child.Round (info : MappingInfo) (G : List Used) (c : Child) : Prop :=
  match c.phase with
  | .queued => G = []
  | .waiting pending kept =>
    (G.map (fun g => g.1.service) ++ pending).Perm (asks info c.service)
      ∧ kept = (G.filter fun g => g.1.service ≠ c.service).map Prod.snd
  | .forwarded => (G.map fun g => g.1.service).Perm (asks info c.service)

/-- Of an egress RPC that waits: the grants it has had and those it waits for are all it asked for,
and what is kept are those that it does not use. -/
theorem Child.waiting_round {info : MappingInfo} {c : Child} {pending : List Bytes}
    {kept : List Buffer} {H : List Used} (h : c.Round info H)
    (hphase : c.phase = .waiting pending kept) :
    (H.map (fun g => g.1.service) ++ pending).Perm (asks info c.service)
      ∧ H.length + pending.length = (asks info c.service).length
      ∧ kept = (H.filter fun g => g.1.service ≠ c.service).map Prod.snd := by
  unfold Child.Round at h
  rw [hphase] at h
  obtain ⟨hperm, hkept⟩ := h
  have hlen := hperm.length_eq
  rw [List.length_append, List.length_map] at hlen
  exact ⟨hperm, hlen, hkept⟩

/-- The grants an egress RPC does not use, after one more. -/
theorem unused_snoc {service : Bytes} {kept : List Buffer} {H : List Used}
    (hkept : kept = (H.filter fun g => g.1.service ≠ service).map Prod.snd) (g : Used) :
    ((H ++ [g]).filter fun g => g.1.service ≠ service).map Prod.snd
      = if g.1.service = service then kept else kept ++ [g.2] := by
  rw [List.filter_append, List.map_append, ← hkept]
  by_cases hown : g.1.service = service <;> simp [hown]

/-- **What a run has sent**, `G` being the grants it has used. -/
structure Logged (G : List Used) (s : Mesh) (B : Book) : Prop where
  asked : ∀ service id, s.requests.count (service, id)
    = (G.map Used.key).count (service, id) + (Agrees.wanted (B.child id)).count service
  nodup : (s.forwarded.map RPCMessage.local_id).Nodup
  sent : ∀ rpc ∈ s.forwarded, rpc.local_id.toNat % 2 ^ 32 ≤ B.ids + 1
    ∧ ∀ c ∈ B.child rpc.local_id, c.phase = .forwarded
  used : ∀ g ∈ G, g.1.id.toNat % 2 ^ 32 ≤ B.ids + 1 ∧ ∀ c ∈ B.child g.1.id, c.phase ≠ .queued
  rounds : ∀ id info c, B.info id = some info → B.child id = some c → c.Round info (grantsTo id G)

namespace Logged

variable {config : MeshConfig} {G : List Used} {s s' : Mesh} {B B' : Book}

/-- One egress RPC changes without anything being sent, so that the log stays right for the
others. -/
theorem quiet (h : Logged G s B) (hq : Quiet s s') (hids : B.ids ≤ B'.ids)
    (hinfo : ∀ id, B'.child id ≠ none → B'.info id = B.info id) {id : RPCID} {o : Option Child}
    (hchild : B'.child = Function.update B.child id o)
    (hwanted : Agrees.wanted o = Agrees.wanted (B.child id))
    (hsent : ∀ rpc ∈ s.forwarded, rpc.local_id = id → ∀ c ∈ o, c.phase = .forwarded)
    (hused : ∀ g ∈ G, g.1.id = id → ∀ c ∈ o, c.phase ≠ .queued)
    (hround : ∀ info, ∀ c ∈ o, B.info id = some info → c.Round info (grantsTo id G)) :
    Logged G s' B' where
  asked service id' := by
    rw [hq.requests, h.asked service id', hchild]
    by_cases hid : id' = id
    · subst hid; rw [Function.update_self, hwanted]
    · rw [Function.update_of_ne hid]
  nodup := by rw [hq.forwarded]; exact h.nodup
  -- Only the entry of `id` has moved, so the others keep what was said of them.
  sent rpc hrpc := by
    rw [hq.forwarded] at hrpc
    refine ⟨(h.sent rpc hrpc).1.trans (Nat.succ_le_succ hids), fun c hc => ?_⟩
    rw [hchild] at hc
    by_cases hid : rpc.local_id = id
    · rw [hid, Function.update_self] at hc; exact hsent rpc hrpc hid c hc
    · rw [Function.update_of_ne hid] at hc; exact (h.sent rpc hrpc).2 c hc
  used g hg := by
    refine ⟨(h.used g hg).1.trans (Nat.succ_le_succ hids), fun c hc => ?_⟩
    rw [hchild] at hc
    by_cases hid : g.1.id = id
    · rw [hid, Function.update_self] at hc; exact hused g hg hid c hc
    · rw [Function.update_of_ne hid] at hc; exact (h.used g hg).2 c hc
  rounds id' info c hi hc := by
    rw [hinfo id' (by rw [hc]; simp)] at hi
    rw [hchild] at hc
    by_cases hid : id' = id
    · subst hid; rw [Function.update_self] at hc; exact hround info c hc hi
    · rw [Function.update_of_ne hid] at hc; exact h.rounds id' info c hi hc

/-- A queued egress RPC is admitted: its Credit Requests are sent, one to each service that it
waits for. -/
theorem asked_step {id : RPCID} {c : Child} {info : MappingInfo} (h : Logged G s B)
    (hold : B.child id = some c) (hphase : c.phase = .queued) (hi : B.info id = some info)
    (hask : Agrees.Asked s B id s')
    (hchild : (B.enlist id).child = Function.update B.child id (some (c.enlist info)))
    (hids : (B.enlist id).ids = B.ids) (hinfo : (B.enlist id).info = B.info) :
    Logged G s' (B.enlist id) where
  asked service id' := by
    rw [hask.requests, List.count_append, h.asked service id', hchild, Function.update_self]
    by_cases hid : id' = id
    · subst hid
      have hnone : Agrees.wanted (B.child id') = [] := by
        rw [hold]; simp only [Agrees.wanted, hphase]
      rw [Function.update_self, hnone, List.count_nil, Nat.add_zero]
      have hinj : Function.Injective fun e : Bytes => (e, id') := fun a b hab => (Prod.mk.inj hab).1
      rw [List.count_map_of_injective _ _ hinj]
    · have hzero : ((Agrees.wanted (some (c.enlist info))).map fun e => (e, id)).count
          (service, id')
          = 0 := by
        refine List.count_eq_zero.mpr fun hmem => hid ?_
        obtain ⟨e, _, heq⟩ := List.mem_map.mp hmem
        exact (Prod.mk.inj heq).2.symm
      rw [Function.update_of_ne hid, hzero, Nat.add_zero]
  nodup := by rw [hask.forwarded]; exact h.nodup
  sent rpc hrpc := by
    rw [hask.forwarded] at hrpc
    rw [hids, hchild]
    refine ⟨(h.sent rpc hrpc).1, fun c' hc' => ?_⟩
    by_cases hid : rpc.local_id = id
    · -- a queued RPC has not been forwarded
      have hforwarded := (h.sent rpc hrpc).2 c (by rw [hid]; exact hold)
      rw [hphase] at hforwarded
      simp at hforwarded
    · rw [Function.update_of_ne hid] at hc'; exact (h.sent rpc hrpc).2 c' hc'
  used g hg := by
    rw [hids, hchild]
    refine ⟨(h.used g hg).1, fun c' hc' => ?_⟩
    by_cases hid : g.1.id = id
    · exact absurd hphase ((h.used g hg).2 c (by rw [hid]; exact hold))
    · rw [Function.update_of_ne hid] at hc'; exact (h.used g hg).2 c' hc'
  rounds id' info' c' hi' hc' := by
    rw [hinfo] at hi'
    rw [hchild] at hc'
    by_cases hid : id' = id
    · subst hid
      rw [Function.update_self] at hc'
      obtain rfl := Option.some.inj hc'
      obtain rfl := Option.some.inj (hi'.symm.trans hi)
      have hnone : grantsTo id' G = [] := by
        have hround := h.rounds id' info' c hi' hold
        simpa only [Child.Round, hphase] using hround
      rw [hnone]
      exact ⟨List.Perm.refl _, rfl⟩
    · rw [Function.update_of_ne hid] at hc'; exact h.rounds id' info' c' hi' hc'

/-- The whole queue is admitted, one RPC after the other. -/
theorem admitted {rpcs : List RPCMessage} (hrun : Agrees.Admitted config rpcs s B s' B')
    (h : Logged G s B) : Logged G s' B' := by
  induction hrun with
  | nil => exact h
  | @cons rpc rpcs s s₁ s' B B' pre head _ ih =>
      obtain ⟨c, hchild, hphase, _, _⟩ := pre.head_queued
      obtain ⟨en, l₁, l₂, hat⟩ := Book.exists_at hchild
      have hi := congrArg (Option.map Entry.info) hat.entry
      have hinfo : (B.set (rpc.local_id >>> 32)
          (some (en.withChild l₁ (some (c.enlist en.info)) l₂))).info = B.info :=
        Book.info_set hat.entry rfl
      have hset := hat.child_set pre.book (o := some (c.enlist en.info)) fun c' hc' => by
        obtain rfl := Option.some.inj hc'
        rfl
      have henlist := hat.enlist pre.book
      rw [← henlist] at hinfo hset
      exact ih (h.asked_step hchild hphase hi head hset (by rw [henlist]; rfl) hinfo)

/-- The grants an egress RPC has had after one more, which it was waiting for. -/
theorem round_granted {info : MappingInfo} {c : Child} {pending : List Bytes} {kept : List Buffer}
    {H : List Used} (hround : c.Round info H) (hphase : c.phase = .waiting pending kept)
    {m : GrantMessage} (hpending : m.service ∈ pending) (buf : Buffer) :
    (c.granted m.service buf pending kept).Round info (H ++ [(m, buf)]) := by
  obtain ⟨hperm, -, hkept⟩ := Child.waiting_round hround hphase
  have hmoved : (H.map (fun g => g.1.service) ++ [m.service] ++ pending.erase m.service).Perm
      (asks info c.service) := by
    rw [List.append_assoc]
    exact ((List.perm_cons_erase hpending).symm.append_left _).trans hperm
  unfold Child.Round Child.granted
  dsimp only
  rw [List.map_append]
  split_ifs with hlast hown
  · rw [hlast, List.append_nil] at hmoved
    exact hmoved
  · exact ⟨hmoved, ((unused_snoc hkept (m, buf)).trans (if_pos hown)).symm⟩
  · exact ⟨hmoved, ((unused_snoc hkept (m, buf)).trans (if_neg hown)).symm⟩

/-- A grant is used: it joins the log, and the egress RPC waits for one less or is forwarded. -/
theorem granted {m : GrantMessage} {buf : Buffer} {en : Entry} {c : Child} {pending : List Bytes}
    {kept : List Buffer} (h : Logged G s B) (hlow : m.id.toNat % 2 ^ 32 ≤ B.ids + 1)
    (hold : B.child m.id = some c) (hid : c.id = m.id) (hphase : c.phase = .waiting pending kept)
    (hpending : m.service ∈ pending) (hdel : Agrees.Delivered s en c pending kept m.service buf s')
    (hids : B'.ids = B.ids)
    (hchild : B'.child = Function.update B.child m.id (some (c.granted m.service buf pending kept)))
    (hinfo : B'.info = B.info) : Logged (G ++ [(m, buf)]) s' B' := by
  -- the RPC has not been forwarded yet
  have hunsent : ∀ rpc ∈ s.forwarded, rpc.local_id ≠ m.id := by
    intro rpc hrpc heq
    have hforwarded := (h.sent rpc hrpc).2 c (by rw [heq]; exact hold)
    rw [hphase] at hforwarded
    simp at hforwarded
  have hgranted : (c.granted m.service buf pending kept).phase ≠ .queued := by
    unfold Child.granted
    dsimp only
    split_ifs <;> simp
  refine ⟨fun service id' => ?_, ?_, fun rpc hrpc => ?_, fun g hg => ?_,
    fun id' info c' hi hc' => ?_⟩
  · have hwanted : Agrees.wanted (some (c.granted m.service buf pending kept))
        = pending.erase m.service := by
      by_cases hlast : pending.erase m.service = []
      · simp only [Agrees.wanted, Child.granted, hlast, if_true]
      · simp only [Agrees.wanted, Child.granted, hlast, if_false]
    have hasked := h.asked service id'
    rw [hdel.requests, hchild, List.map_append, List.count_append, List.map_singleton]
    by_cases hid' : id' = m.id
    · subst hid'
      have hpend : Agrees.wanted (B.child m.id) = pending := by
        rw [hold]; simp only [Agrees.wanted, hphase]
      have hcount := List.Perm.count_eq (List.perm_cons_erase hpending) service
      rw [List.count_cons] at hcount
      rw [hpend] at hasked
      rw [Function.update_self, hwanted, hasked, hcount]
      unfold Used.key
      rw [List.count_singleton]
      by_cases hs : m.service = service
      · subst hs; simp; omega
      · simp [hs]
    · have hkey : (Used.key (m, buf) == (service, id')) = false := by
        unfold Used.key
        simp [Ne.symm hid']
      rw [Function.update_of_ne hid', List.count_singleton, hkey, hasked]
      simp
  · by_cases hlast : pending.erase m.service = []
    · obtain ⟨rpc, rets, _, hlocal, _, hforwarded, _⟩ := hdel.sent hlast
      rw [hforwarded, List.map_append, List.map_singleton, List.nodup_append]
      refine ⟨h.nodup, List.nodup_singleton _, fun a ha b hb => ?_⟩
      obtain ⟨rpc', hrpc', rfl⟩ := List.mem_map.mp ha
      rw [List.mem_singleton] at hb
      rw [hb, hlocal, hid]
      exact hunsent rpc' hrpc'
    · rw [(hdel.held hlast).1]
      exact h.nodup
  · rw [hids, hchild]
    by_cases hlast : pending.erase m.service = []
    · obtain ⟨rpc', rets, _, hlocal, _, hforwarded, _⟩ := hdel.sent hlast
      rw [hforwarded, List.mem_append, List.mem_singleton] at hrpc
      rcases hrpc with hrpc | rfl
      · rw [Function.update_of_ne (hunsent rpc hrpc)]
        exact h.sent rpc hrpc
      · rw [hlocal, hid, Function.update_self]
        refine ⟨hlow, fun c' hc' => ?_⟩
        obtain rfl := Option.some.inj hc'
        unfold Child.granted
        dsimp only
        rw [if_pos hlast]
    · rw [(hdel.held hlast).1] at hrpc
      rw [Function.update_of_ne (hunsent rpc hrpc)]
      exact h.sent rpc hrpc
  · rw [hids, hchild]
    have hnew : ∀ c' ∈ some (c.granted m.service buf pending kept), c'.phase ≠ .queued := by
      intro c' hc'
      obtain rfl := Option.some.inj hc'
      exact hgranted
    rcases List.mem_append.mp hg with hg | hg
    · refine ⟨(h.used g hg).1, fun c' hc' => ?_⟩
      by_cases hid' : g.1.id = m.id
      · rw [hid', Function.update_self] at hc'; exact hnew c' hc'
      · rw [Function.update_of_ne hid'] at hc'; exact (h.used g hg).2 c' hc'
    · obtain rfl := List.mem_singleton.mp hg
      refine ⟨hlow, fun c' hc' => ?_⟩
      rw [Function.update_self] at hc'
      exact hnew c' hc'
  · rw [hinfo] at hi
    rw [hchild] at hc'
    unfold grantsTo
    rw [List.filter_append]
    by_cases hid' : id' = m.id
    · subst hid'
      rw [Function.update_self] at hc'
      obtain rfl := Option.some.inj hc'
      have hone : [(m, buf)].filter (fun g : Used => g.1.id = m.id) = [(m, buf)] := by simp
      rw [hone]
      exact round_granted (h.rounds m.id info c hi hold) hphase hpending buf
    · rw [Function.update_of_ne hid'] at hc'
      have hnone : [(m, buf)].filter (fun g : Used => g.1.id = id') = [] := by simp [Ne.symm hid']
      rw [hnone, List.append_nil]
      exact h.rounds id' info c' hi hc'

end Logged

/-! ## Runs -/

namespace Mesh

/-- The grant that an event brings, if its datagram can be read. -/
def grantOf : Event → Option Used
  | .grant buf _ => match read_credit_grant buf with | .ok m => some (m, buf) | .error _ => none
  | _ => none

/-- The grants that a run has used, in the order of their arrival. -/
def grantsOf {S : Type} (ts : List (Transition S Event)) : List Used :=
  ts.filterMap fun t => grantOf t.label

theorem grantsOf_cons {S : Type} (t : Transition S Event) (ts : List (Transition S Event)) :
    grantsOf (t :: ts) = (grantOf t.label).toList ++ grantsOf ts := by
  unfold grantsOf
  rw [List.filterMap_cons]
  cases grantOf t.label <;> rfl

/-- One event of a sidecar among its neighbours, handled to its end. -/
def Step (config : MeshConfig) (w : Mesh × Book) (ev : Event) (w' : Mesh × Book) : Prop :=
  w.1.handle config ev = .ok w'.1 ∧ Book.Step config w.1 w.2 ev w'.2

/-- What holds of a sidecar and its book at every moment: the states agree, and so does the log of
what was sent. -/
structure Coherent (config : MeshConfig) (G : List Used) (w : Mesh × Book) : Prop where
  agrees : Agrees config w.1.rpc_queue w.1 w.2
  logged : Logged G w.1 w.2

variable {config : MeshConfig} {G : List Used} {w w' : Mesh × Book}

/-- The round of an egress RPC of the book is the one of the grants that the run has used for it. -/
theorem Coherent.round (h : Coherent config G w) {id : RPCID} {en : Entry} {c : Child}
    (hentry : w.2.entry (id >>> 32) = some en) (hchild : w.2.child id = some c) :
    c.Round en.info (grantsTo id G) :=
  h.logged.rounds id en.info c (congrArg (Option.map Entry.info) hentry) hchild

/-- **The log after an event**, whichever of the outcomes it had. -/
theorem logged_of_outcome {s s' : Mesh} {B B' : Book} {ev : Event}
    (ho : Outcome config s B s' B' ev) (hagrees : Agrees config s.rpc_queue s B)
    (h : Logged G s B) : Logged (G ++ (grantOf ev).toList) s' B' := by
  cases ho with
  | kept _ hev hquiet hids hchild hinfo =>
      have hnone : grantOf ev = none := by
        cases ev with
        | grant buf env => exact absurd rfl (hev.1 buf env)
        | _ => rfl
      rw [hnone, Option.toList_none, List.append_nil]
      exact h.quiet hquiet hids hinfo (hchild.trans (Function.update_eq_self 0 B.child).symm) rfl
        (fun rpc hrpc heq c hc => (h.sent rpc hrpc).2 c (by rw [heq]; exact hc))
        (fun g hg heq c hc => (h.used g hg).2 c (by rw [heq]; exact hc))
        fun info c hc hi => h.rounds 0 info c hi hc
  | issued parent service priority hquiet hids hnew hold hchild hinfo =>
      rw [show (grantOf (.egress_request parent service priority)).toList = [] from rfl,
        List.append_nil]
      -- the id is larger than all that have been used
      have hfresh : ∀ {id : RPCID}, id.toNat % 2 ^ 32 ≤ B.ids + 1 → id ≠ newId parent B.ids := by
        rintro id hle rfl
        omega
      refine h.quiet hquiet (by omega) (fun _ _ => congrFun hinfo _) hchild (by rw [hold]; rfl)
        (fun rpc hrpc heq => absurd heq (hfresh (h.sent rpc hrpc).1))
        (fun g hg heq => absurd heq (hfresh (h.used g hg).1)) fun info c hc _ => ?_
      obtain rfl := Option.some.inj hc
      refine List.filter_eq_nil_iff.mpr fun g hg => ?_
      simpa using hfresh (h.used g hg).1
  | admitted hrun =>
      rw [show (grantOf .credit_requests).toList = [] from rfl, List.append_nil]
      exact Logged.admitted hrun ⟨h.asked, h.nodup, h.sent, h.used, h.rounds⟩
  | granted buf env m en c pending kept hread hentry hold hid hphase hpending hdelivered hids hchild
      hinfo =>
      have hgrant : grantOf (.grant buf env) = some (m, buf) := by
        simp only [grantOf, hread]
      rw [hgrant, Option.toList_some]
      obtain ⟨en', l₁, l₂, hat⟩ := Book.exists_at hold
      have hlow := ((hagrees.book.entries _ _ hat.entry).owned c (by rw [hat.children]; simp)).2
      rw [hid] at hlow
      exact h.granted hlow hold hid hphase hpending hdelivered hids hchild hinfo
  | answered id c hold hphase hquiet hids hchild hinfo =>
      rw [show (grantOf (.egress_response id)).toList = [] from rfl, List.append_nil]
      have hwanted : Agrees.wanted none = Agrees.wanted (B.child id) := by
        rw [hold]; simp only [Agrees.wanted, hphase]
      exact h.quiet hquiet hids.ge (fun _ _ => congrFun hinfo _) hchild hwanted
        (fun _ _ _ c hc => by simp at hc) (fun _ _ _ c hc => by simp at hc)
        fun _ c hc => by simp at hc

/-- **One event** keeps the sidecar and its book coherent. -/
theorem step_coherent {ev : Event} (hvalid : config.Valid) (h : Coherent config G w)
    (hs : Step config w ev w') : Coherent config (G ++ (grantOf ev).toList) w' := by
  obtain ⟨hhandle, hbook⟩ := hs
  obtain ⟨hagrees, houtcome⟩ := (step_agrees hvalid h.agrees hbook).of_ok hhandle
  exact ⟨hagrees, logged_of_outcome houtcome h.agrees h.logged⟩

/-- **The start**: nothing is open, nothing has been sent, and no grant has been used. -/
theorem start_coherent {counts : LocalMap (BitVec 32)} {s : Mesh} (hvalid : config.Valid)
    (hstart : start config counts = .ok s) : Coherent config [] (s, .empty) := by
  obtain ⟨server, hserver, hs⟩ := bind_eq_ok.mp hstart
  obtain ⟨last_rtt_us, _, hs⟩ := bind_eq_ok.mp hs
  obtain rfl := Except.ok.inj hs
  obtain ⟨hwf, hfresh, hsent⟩ := Server.start_spec hvalid.nonempty hserver
  obtain ⟨hrouted, hfind⟩ := PPMQueue.create_spec config.routing
  have hnone : Book.empty.child = fun _ => none := rfl
  refine ⟨⟨Book.wf_empty config, hwf, rfl, fun i => .none, ?_, hrouted, fun e => ?_⟩,
    ⟨fun service id => by rw [hnone]; rfl, List.nodup_nil, fun _ h => by simp at h,
      fun _ h => by simp at h, fun _ _ _ hi => by simp [Book.info, Book.empty] at hi⟩⟩
  · funext id
    rw [hnone]
    refine Place.ext rfl (funext fun service => ?_) rfl
    unfold place
    dsimp only
    rw [hfind]
    rfl
  · -- Nothing is active, granted or owed at the start.
    have hactive : server.room.active e = 0 := hfresh.active e
    have hgrants : Server.grantsFor e server.sent = 0 := by rw [hsent]; rfl
    have howed : Book.empty.owed e = 0 := Finset.sum_eq_zero fun _ _ => rfl
    unfold Server.balance
    dsimp only
    rw [hactive, hgrants, howed]
    rfl

/-- **Every run** keeps them coherent, with its grants behind the ones before. -/
theorem exec_coherent {ts : List (Transition (Mesh × Book) Event)} (hvalid : config.Valid)
    (hrun : Exec (Step config) w ts w') (h : Coherent config G w) :
    Coherent config (G ++ grantsOf ts) w' := by
  induction hrun generalizing G with
  | nil => simpa [grantsOf] using h
  | @cons w w₁ w' ev ts head _ ih =>
      have hrest := ih (step_coherent hvalid h head)
      rw [grantsOf_cons, ← List.append_assoc]
      exact hrest

/-- Every moment of a run from the start: the grants are those of the run. -/
theorem run_coherent {counts : LocalMap (BitVec 32)} {s : Mesh}
    {ts : List (Transition (Mesh × Book) Event)} (hvalid : config.Valid)
    (hstart : start config counts = .ok s) (hrun : Exec (Step config) (s, .empty) ts w) :
    Coherent config (grantsOf ts) w := by
  have h := exec_coherent hvalid hrun (start_coherent hvalid hstart)
  rwa [List.nil_append] at h

end Mesh

end RlpSidecar
