/-
**What credits are for** (`state.cc`, `credit_queue.cc`, `ingress.cc`): the requests that all the
workers have sent to a frontend, and that it has not answered, are never more than its limits
allow; and none waits without a cause.

Neither side can see this alone. The frontend counts the Credit Grants it has sent, and not what
becomes of them; a worker sends one request for each Credit Grant, and does not know the limits.
Between the two are datagrams: each Credit Request is in one place, on its way, at the frontend, or
on its way back, unless it is lost, and the counter of a service is what was granted, less what was
answered.

`calls_limited` is the equation that says so, with the two bounds that follow from it; it holds for
any number of workers, with loss and reordering. `no_deadlock` is the converse: whenever a request
waits, a datagram is on its way, the frontend has a request to answer, or a datagram was lost.
-/
import RlpSidecar.DeploymentSpec

set_option autoImplicit false

open Runs

namespace RlpSidecar

namespace Deployment

open Buffer Server

variable {ι : Type} {n : ℕ}

/-- The services of the requests that the frontend has to answer, each named by the worker that has
sent it. -/
def services (config : DeploymentConfig ι) (d : Deployment ι n) : List Bytes :=
  d.calls.map fun call => (config.worker call.1).ingress_service

/-- The messages of the Credit Requests, where they are: on their way to the frontend or lost on
it, waiting there, or as grants on their way back or lost. -/
def messages (config : DeploymentConfig ι) (d : Deployment ι n) : Multiset Buffer :=
  d.requests + d.lost_requests + d.server.room.bag config.server.hosted.toFinset
    + d.grants + d.lost_grants

/-- **The invariant** of a deployment: each worker is in the state that its own runs lead to, the
server is well formed, every Credit Request is in one place, and the counters of the server count
what they should. -/
structure Inv (config : DeploymentConfig ι) (d : Deployment ι n) : Prop where
  worker : ∀ i, ∃ ts, IngressWorker.Steady config.parser (config.worker i) (d.worker i) ts
  server : d.server.Wf config.server
  kind : ∀ req ∈ d.requests, req.byte 1 = 0x01
  /-- The Credit Request of a worker is in one place. -/
  placed : ∀ i, (((d.worker i).on_fly.map echo : List Echo) : Multiset Echo)
    = echoes (config.address i) (d.messages config)
  /-- What was granted and is not answered is on its way, lost, or with the frontend. -/
  counted : ∀ e, d.server.room.active e
    = grantsFor e d.grants + grantsFor e d.lost_grants + (d.services config).count e

section Steps

variable {config : DeploymentConfig ι} {d d' : Deployment ι n}

/-- A message is in one place or another, so what stays of them adds up. -/
theorem echoes_messages (d : Deployment ι n) (a : SockAddr) :
    echoes a (d.messages config) = echoes a d.requests + echoes a d.lost_requests
      + echoes a (d.server.room.bag config.server.hosted.toFinset) + echoes a d.grants
      + echoes a d.lost_grants := by
  unfold messages
  rw [echoes_add, echoes_add, echoes_add, echoes_add]

/-- A message of several, taken out of the middle. -/
theorem echoes_middle (a : SockAddr) (before after : List Buffer) (b : Buffer) :
    echoes a ((before ++ b :: after : List Buffer) : Multiset Buffer)
      = echoes a ((before ++ after : List Buffer) : Multiset Buffer) + echoes a {b} := by
  rw [← echoes_add, ← Multiset.coe_singleton, Multiset.coe_add]
  refine congrArg (echoes a) (Multiset.coe_eq_coe.mpr ?_)
  exact List.perm_middle.trans (List.perm_append_singleton b (before ++ after)).symm

theorem echoes_cons (a : SockAddr) (l : List Buffer) (b : Buffer) :
    echoes a ((b :: l : List Buffer) : Multiset Buffer) = echoes a (l : Multiset Buffer)
      + echoes a {b} :=
  echoes_middle a [] l b

theorem grantsFor_middle (e : Bytes) (before after : List Buffer) (b : Buffer) :
    grantsFor e (before ++ b :: after)
      = grantsFor e (before ++ after) + if extract_service_from_rlp_req b
      = .ok e then 1 else 0 := by
  unfold grantsFor
  rw [List.countP_append, List.countP_cons, List.countP_append, Nat.add_assoc]
  simp only [decide_eq_true_eq]

theorem grantsFor_append (e : Bytes) (l l' : List Buffer) :
    grantsFor e (l ++ l') = grantsFor e l + grantsFor e l' :=
  List.countP_append

/-- The frontend sends Credit Grants, for Credit Requests it has: what leaves its lines is on its
way back. -/
theorem echoes_server_handled {d : Deployment ι n} {s : Server} {a : SockAddr} {m : Multiset Echo}
    (hgrown : d.server.sent <+: s.sent)
    (h : echoes a (s.carried config.server) = echoes a (d.server.carried config.server) + m) :
    echoes a ((d.server_handled s).messages config) = echoes a (d.messages config) + m := by
  obtain ⟨new, hnew⟩ := hgrown
  have hmoved : echoes a (s.room.bag config.server.hosted.toFinset)
      + echoes a (new : Multiset Buffer)
      = echoes a (d.server.room.bag config.server.hosted.toFinset) + m := by
    unfold carried at h
    rw [echoes_add, echoes_add, ← hnew, ← Multiset.coe_add, echoes_add] at h
    refine add_right_cancel (b := echoes a (d.server.sent : Multiset Buffer)) ?_
    rw [add_assoc, add_comm (echoes a (new : Multiset Buffer)), h]
    abel
  rw [echoes_messages, echoes_messages]
  unfold server_handled
  dsimp only
  rw [← hnew, List.drop_left, ← Multiset.coe_add, echoes_add]
  calc _ = echoes a d.requests + echoes a d.lost_requests + echoes a d.grants
    + echoes a d.lost_grants
        + (echoes a (s.room.bag config.server.hosted.toFinset)
          + echoes a (new : Multiset Buffer)) := by abel
    _ = _ := by rw [hmoved]; abel

namespace Inv

/-- The worker has one Credit Request at most, and it asks for the first of its requests. -/
theorem on_fly (h : Inv config d) (i : ι) : (d.worker i).on_fly = []
    ∧ (d.worker i).ingress.queue = []
    ∨ ∃ rpc rest req, (d.worker i).ingress.queue = rpc :: rest ∧ (d.worker i).on_fly = [req]
      ∧ (d.worker i).Asks req rpc := by
  obtain ⟨ts, hsteady⟩ := h.worker i
  cases hflag : (d.worker i).ingress.has_credit_request_on_fly with
  | true => exact .inr (hsteady.asked.asked hflag)
  | false =>
      refine .inl ⟨hsteady.asked.quiet hflag, ?_⟩
      by_contra hne
      rw [hsteady.asked.waits hne] at hflag
      cases hflag

/-- A Credit Grant is taken for the only Credit Request of the worker, so no other could be
meant. -/
theorem on_fly_of_grant (h : Inv config d) {i : ι} {req buf : Buffer} {sent : StreamKey × Bytes}
    {w : IngressWorker n} (hstep : IngressWorker.Step config.parser (config.worker i)
      (d.worker i) (.grant req buf sent) w) :
    (d.worker i).on_fly = [req] := by
  cases hstep with
  | @grant _ env before after _ _ _ hreq =>
      rcases h.on_fly i with ⟨hnone, -⟩ | ⟨-, -, req', -, hfly, -⟩
      · rw [hnone] at hreq
        exact absurd hreq.symm (List.append_ne_nil_of_right_ne_nil _ (List.cons_ne_nil _ _))
      · rw [hreq] at hfly ⊢
        rcases List.append_eq_singleton_iff.mp hfly with ⟨rfl, hcons⟩ | ⟨-, hnil⟩
        · obtain ⟨-, rfl⟩ := List.cons.inj hcons
          rfl
        · cases hnil

/-- The Credit Grant that arrives is the answer to the Credit Request of the worker. -/
theorem grant_echo (h : Inv config d) {i : ι} {before after : List Buffer} {buf req : Buffer}
    (hbuf : d.grants = before ++ buf :: after) (haddr : buf.addr = config.address i)
    (hfly : (d.worker i).on_fly = [req]) :
    buf.echo = req.echo ∧ echoes (config.address i)
      ({ d with grants := before ++ after }.messages config) = 0 := by
  have hplaced := h.placed i
  rw [hfly, echoes_messages, hbuf, echoes_middle, echoes_singleton, if_pos haddr] at hplaced
  have hsum : ({req.echo} : Multiset Echo)
      = echoes (config.address i) ({ d with grants := before ++ after }.messages config)
        + {buf.echo} := by
    rw [echoes_messages]
    refine Eq.trans hplaced ?_
    abel
  -- there is one in all, so it is this one, and no other is left
  have hcard := congrArg Multiset.card hsum
  rw [Multiset.card_add, Multiset.card_singleton, Multiset.card_singleton] at hcard
  have hzero := Multiset.card_eq_zero.mp (show Multiset.card (echoes (config.address i)
    ({ d with grants := before ++ after }.messages config)) = 0 by omega)
  rw [hzero, zero_add] at hsum
  exact ⟨(Multiset.singleton_inj.mp hsum).symm, hzero⟩

/-- The frontend counts what it grants, and what is answered leaves the count. -/
theorem counted_server_handled {s : Server} {sev : Server.Event}
    (hserver : d.server.Wf config.server) (hstep : Server.Step config.server d.server sev s)
    (hleaf : sev.egress = false) (hcounted : ∀ e, d.server.room.active e
      = grantsFor e d.grants + grantsFor e d.lost_grants + (d.services config).count e
        + if sev.frees e then 1 else 0)
    (e : Bytes) : s.room.active e = grantsFor e (d.server_handled s).grants
    + grantsFor e (d.server_handled s).lost_grants
      + ((d.server_handled s).services config).count e := by
  have hactive := (step_active hserver hstep hleaf e).1
  have hbefore := hcounted e
  obtain ⟨new, hnew⟩ := sent_grows hserver hstep
  show s.room.active e = (grantsFor e (d.grants ++ s.sent.drop d.server.sent.length) : ℕ)
    + (grantsFor e d.lost_grants : ℕ)
    + ((d.services config).count e : ℕ)
  rw [← hnew, grantsFor_append] at hactive
  rw [← hnew, List.drop_left, grantsFor_append]
  push_cast at hactive ⊢
  omega

/-- The Credit Requests that stay are still Credit Requests. -/
theorem kind_rest (h : Inv config d) {before after : List Buffer} {req : Buffer}
    (hreq : d.requests = before ++ req :: after) :
    ∀ req' ∈ before ++ after, req'.byte 1 = 0x01 := by
  intro req' hmem
  have hsublist := (List.Sublist.refl before).append (List.sublist_cons_self req after)
  rw [← hreq] at hsublist
  exact h.kind req' (hsublist.subset hmem)

/-- The one that arrives is a Credit Request by its first bytes, which it has kept. -/
theorem kind_receive (h : Inv config d) {before after : List Buffer} {req received : Buffer}
    (hreq : d.requests = before ++ req :: after) (hecho : received.echo = req.echo) :
    received.byte 1 = 0x01 := by
  rw [byte_of_echo hecho (by omega)]
  refine h.kind req ?_
  rw [hreq]
  exact List.mem_append_right _ List.mem_cons_self

/-- A Credit Request arrives, whichever of those on their way it is: the step of the network that
may reorder. -/
theorem request (h : Inv config d) {before after : List Buffer} {req rx : Buffer}
    {env : Server.Env} {s : Server} (hreq : d.requests = before ++ req :: after)
    (hstep : Server.Step config.server d.server (.datagram (rx.receive req req.addr) env) s) :
    Inv config ({ d with requests := before ++ after }.server_handled s) := by
  have hdispatch := hstep.1 _ _ rfl
  obtain ⟨hheader, hfilled⟩ := filled_of_dispatch hdispatch
  have hecho : (rx.receive req req.addr).echo = req.echo :=
    echo_receive rx req req.addr (hheader.trans hfilled)
  have hkind := h.kind_receive hreq hecho
  constructor
  case worker => exact h.worker
  case server => exact (step_spec h.server hstep).1
  case kind => exact h.kind_rest hreq
  case placed =>
    intro i
    have hcarried := protocol_server_echoes h.server hdispatch hkind hstep.2 (config.address i)
    rw [echoes_congr (b := rx.receive req req.addr) hecho rfl] at hcarried
    rw [echoes_server_handled (d := { d with requests := before ++ after })
      (sent_grows h.server hstep) hcarried]
    -- it has moved from the requests to those the frontend carries
    refine (h.placed i).trans ?_
    rw [echoes_messages, echoes_messages, hreq, echoes_middle]
    abel
  case counted =>
    refine counted_server_handled (d := { d with requests := before ++ after })
      h.server hstep rfl fun e => ?_
    have hfrees : (Event.datagram (rx.receive req req.addr) env).frees e = false :=
      decide_eq_false (read_server_message_ne_return hkind e)
    rw [hfrees, if_neg Bool.false_ne_true, add_zero]
    exact h.counted e

/-- The frontend forwards a response, so the request that it answers is active no more. -/
theorem answer (h : Inv config d) {i : ι} {before after : List (ι × StreamKey × Bytes)}
    {call : StreamKey × Bytes} {now_ts : BitVec 64} {s : Server}
    (hcall : d.calls = before ++ (i, call) :: after)
    (hstep : Server.Step config.server d.server
      (.ingress_response (config.worker i).ingress_service now_ts) s) :
    Inv config ({ d with calls := before ++ after }.server_handled s) := by
  constructor
  case worker => exact h.worker
  case server => exact (step_spec h.server hstep).1
  case kind => exact h.kind
  -- a response frees a credit, and the grant that may follow echoes a request that waited
  case placed =>
    intro j
    have hcarried := (release_echoes h.server hstep.2 (config.address j)).trans (add_zero _).symm
    rw [echoes_server_handled (d := { d with calls := before ++ after })
      (sent_grows h.server hstep) hcarried, add_zero]
    exact h.placed j
  -- one call less, one active request less
  case counted =>
    refine counted_server_handled (d := { d with calls := before ++ after })
      h.server hstep rfl fun e => ?_
    have hcounted := h.counted e
    unfold services at hcounted ⊢
    rw [hcall, List.map_append, List.map_cons, List.count_append, List.count_cons] at hcounted
    show d.server.room.active e = _
    rw [hcounted, List.map_append, List.count_append]
    unfold Event.frees
    push_cast
    ring

/-- A Credit Request is lost, and its worker will wait for it forever. -/
theorem lose_request (h : Inv config d) {before after : List Buffer} {req : Buffer}
    (hreq : d.requests = before ++ req :: after) :
    Inv config { d with requests := before ++ after, lost_requests := req :: d.lost_requests } := by
  refine { h with kind := h.kind_rest hreq, placed := fun i => ?_ }
  refine (h.placed i).trans ?_
  rw [echoes_messages, echoes_messages, hreq, echoes_middle]
  dsimp only
  rw [echoes_cons]
  abel

/-- A Credit Grant is lost, and what it granted stays counted. -/
theorem lose_grant (h : Inv config d) {before after : List Buffer} {buf : Buffer}
    (hbuf : d.grants = before ++ buf :: after) :
    Inv config { d with grants := before ++ after, lost_grants := buf :: d.lost_grants } := by
  refine { h with placed := fun i => ?_, counted := fun e => ?_ }
  · refine (h.placed i).trans ?_
    rw [echoes_messages, echoes_messages, hbuf, echoes_middle]
    dsimp only
    rw [echoes_cons]
    abel
  · have hcounted := h.counted e
    rw [hbuf, grantsFor_middle] at hcounted
    show d.server.room.active e = (grantsFor e (before ++ after) : ℕ)
      + (grantsFor e ([] ++ buf :: d.lost_grants) : ℕ)
      + ((d.services config).count e : ℕ)
    rw [hcounted, grantsFor_middle, List.nil_append]
    push_cast
    ring

end Inv

variable [DecidableEq ι]

/-- A worker sends Credit Requests, each from its own address. -/
theorem echoes_worker_handled (d : Deployment ι n) (i : ι) (w : IngressWorker n)
    (old : ℕ) (a : SockAddr) :
    echoes a ((d.worker_handled config i w old).messages config)
      = echoes a (d.messages config)
        + if config.address i = a then (((w.on_fly.drop old).map echo : List Echo) : Multiset Echo)
          else 0 := by
  rw [← echoes_from, echoes_messages, echoes_messages]
  unfold worker_handled
  dsimp only
  rw [← Multiset.coe_add, echoes_add]
  abel

namespace Inv

/-- A Credit Request says what it is, in the byte that the server reads first. -/
theorem kind_of_asked {w : IngressWorker n} (h : IngressWorker.Asked w)
    {req : Buffer} (hreq : req ∈ w.on_fly) :
    req.byte 1 = 0x01 := by
  cases hflag : w.ingress.has_credit_request_on_fly with
  | false =>
      rw [h.quiet hflag] at hreq
      cases hreq
  | true =>
      obtain ⟨rpc, rest, req', -, hfly, now_us, rtt, hholds⟩ := h.asked hflag
      rw [hfly] at hreq
      rw [List.mem_singleton.mp hreq]
      exact Buffer.byte_eq hholds.kind

/-- What a worker adds are its Credit Requests: all but the first `old`, which were there before. -/
theorem worker_handled {i : ι} {w : IngressWorker n} {old : ℕ}
    (hworker : ∀ j, ∃ ts, IngressWorker.Steady config.parser (config.worker j) (d.worker j) ts)
    (hsteady : ∃ ts, IngressWorker.Steady config.parser (config.worker i) w ts)
    (hserver : d.server.Wf config.server) (hkind : ∀ req ∈ d.requests, req.byte 1 = 0x01)
    (hinjective : Function.Injective config.address)
    (hplaced : (((w.on_fly.take old).map echo : List Echo) : Multiset Echo)
      = echoes (config.address i) (d.messages config)) (hothers :
        ∀ j, j ≠ i → (((d.worker j).on_fly.map echo : List Echo) : Multiset Echo)
      = echoes (config.address j) (d.messages config))
    (hcounted : ∀ e, d.server.room.active e
      = grantsFor e d.grants + grantsFor e d.lost_grants + (d.services config).count e) :
    Inv config (d.worker_handled config i w old) := by
  obtain ⟨ts, hsteady⟩ := hsteady
  constructor
  case worker =>
    intro j
    show ∃ ts, IngressWorker.Steady config.parser (config.worker j)
      (Function.update d.worker i w j) ts
    by_cases hj : j = i
    · subst hj
      rw [Function.update_self]
      exact ⟨ts, hsteady⟩
    · rw [Function.update_of_ne hj]
      exact hworker j
  case server => exact hserver
  case kind =>
    intro req hreq
    rcases List.mem_append.mp hreq with hold | hsent
    · exact hkind req hold
    · obtain ⟨req', hreq', rfl⟩ := List.mem_map.mp hsent
      have hasked := kind_of_asked hsteady.asked (List.mem_of_mem_drop hreq')
      exact hasked
  -- what the worker has sent is under way now, with its address
  case placed =>
    intro j
    rw [echoes_worker_handled]
    show (((Function.update d.worker i w j).on_fly.map echo : List Echo) : Multiset Echo) = _
    by_cases hj : j = i
    · subst hj
      rw [Function.update_self, if_pos rfl, ← hplaced, Multiset.coe_add,
        ← List.map_append, List.take_append_drop]
    · rw [Function.update_of_ne hj, if_neg fun heq => hj (hinjective heq).symm, add_zero]
      exact hothers j hj
  case counted => exact hcounted

/-- A worker handles something that needs no credit: a client, a response, or the status of a
connection. -/
theorem work (h : Inv config d) (hinjective : Function.Injective config.address)
    {i : ι} {ev : IngressWorker.Event} (hedge : (config.worker i).ids.is_ingress = true)
    (hrole : (config.worker i).is_frontend = false) {w : IngressWorker n}
    (hother : ∀ req buf sent, ev ≠ .grant req buf sent)
    (hstep : IngressWorker.Step config.parser (config.worker i) (d.worker i) ev w) :
    Inv config (d.worker_handled config i w (d.worker i).on_fly.length) := by
  obtain ⟨ts, hsteady⟩ := h.worker i
  obtain ⟨new, hnew⟩ := hstep.on_fly_grows hother
  refine worker_handled h.worker ⟨_, hsteady.step hedge hrole hstep⟩ h.server h.kind hinjective ?_
    (fun j _ => h.placed j) h.counted
  rw [← hnew, List.take_left]
  exact h.placed i

/-- A Credit Grant arrives, and the worker sends a request. It may send its next Credit Request in
the same step. -/
theorem grant (h : Inv config d) (hinjective : Function.Injective config.address) {i : ι}
    (hedge : (config.worker i).ids.is_ingress = true)
    (hrole : (config.worker i).is_frontend = false) {before after : List Buffer}
    {req buf rx : Buffer} {sent : StreamKey × Bytes} {w : IngressWorker n}
    (hbuf : d.grants = before ++ buf :: after) (haddr : buf.addr = config.address i)
    (hstep : IngressWorker.Step config.parser (config.worker i) (d.worker i)
      (.grant req (rx.receive buf config.server_address) sent) w) :
    Inv config ({ d with grants := before ++ after, calls := d.calls ++ [(i, sent)] }.worker_handled
      config i w
      ((d.worker i).on_fly.length - 1)) := by
  obtain ⟨ts, hsteady⟩ := h.worker i
  obtain ⟨hdispatch, hservice⟩ := hstep.grant_service
  have hfly := h.on_fly_of_grant hstep
  obtain ⟨-, hzero⟩ := h.grant_echo hbuf haddr hfly
  -- the service it names is that of the worker
  obtain ⟨hheader, hfilled⟩ := filled_of_dispatch hdispatch
  have hnamed : extract_service_from_rlp_req buf = .ok (config.worker i).ingress_service := by
    obtain ⟨L, hconsistent⟩ := hsteady.consistent
    have hecho := echo_receive rx buf config.server_address (hheader.trans hfilled)
    rw [extract_of_echo hecho.symm hfilled, hservice, hconsistent.service]
  refine worker_handled h.worker ⟨_, hsteady.step hedge hrole hstep⟩ h.server
    h.kind hinjective ?_ ?_ ?_
  · -- the Credit Request is answered, and was the only one: all that the worker has now are new
    rw [hfly, List.length_singleton, Nat.sub_self, List.take_zero]
    exact hzero.symm
  · intro j hj
    refine (h.placed j).trans ?_
    rw [echoes_messages, echoes_messages, hbuf, echoes_middle, echoes_singleton,
      if_neg fun heq => hj (hinjective (haddr.symm.trans heq)).symm, add_zero]
  · intro e
    have hcounted := h.counted e
    rw [hbuf, grantsFor_middle, hnamed] at hcounted
    show d.server.room.active e = grantsFor e (before ++ after) + grantsFor e d.lost_grants
      + (List.map (fun call => (config.worker call.1).ingress_service)
        (d.calls ++ [(i, sent)])).count e
    rw [hcounted, List.map_append, List.count_append, List.map_singleton, List.count_singleton]
    simp only [Except.ok.injEq, beq_iff_eq]
    unfold services
    push_cast
    ring

/-- **Every step** keeps the invariant. Addresses tell the workers apart, and all of them are
edges. -/
theorem step (h : Inv config d) (hinjective : Function.Injective config.address)
    (hedge : ∀ i, (config.worker i).ids.is_ingress = true ∧ (config.worker i).is_frontend = false)
    {ev : Event ι} (hs : Step config d ev d') : Inv config d' := by
  cases hs with
  | @work i _ _ hother hstep => exact h.work hinjective (hedge i).1 (hedge i).2 hother hstep
  | request hreq hstep => exact h.request hreq hstep
  | @grant i _ _ _ _ _ _ _ hbuf haddr hstep =>
    exact h.grant hinjective (hedge i).1 (hedge i).2 hbuf haddr hstep
  | answer hcall hstep => exact h.answer hcall hstep
  | lose_request hreq => exact h.lose_request hreq
  | lose_grant hbuf => exact h.lose_grant hbuf

end Inv

/-- What a step does to the frontend: nothing, or one of the steps of a leaf. -/
theorem Step.server_step (h : Inv config d) {ev : Event ι} (hs : Step config d ev d') :
    d'.server = d.server ∨ ∃ sev, Server.Step config.server d.server sev d'.server
      ∧ sev.egress = false ∧ sev.handler = true
      ∧ ∀ e, (if sev.frees e then 1 else 0) ≤ d.server.room.active e := by
  have hactive : ∀ e, (0 : ℤ) ≤ d.server.room.active e := by
    intro e
    rw [h.counted e]
    positivity
  cases hs with
  | work | grant | lose_request | lose_grant => exact .inl rfl
  | @request _ _ req rx env s hreq hstep =>
      refine .inr ⟨_, hstep, rfl, rfl, fun e => ?_⟩
      obtain ⟨hheader, hfilled⟩ := filled_of_dispatch (hstep.1 _ _ rfl)
      have hkind := h.kind_receive hreq (echo_receive rx req req.addr (hheader.trans hfilled))
      rw [show (Event.datagram (rx.receive req req.addr) env).frees e = false from
        decide_eq_false (read_server_message_ne_return hkind e), if_neg Bool.false_ne_true]
      exact hactive e
  | @answer i before after call now_ts s hcall hstep =>
      refine .inr ⟨_, hstep, rfl, rfl, fun e => ?_⟩
      unfold Event.frees
      dsimp only
      split_ifs with hsame
      · -- it is the response to one of the requests
        have hmem : e ∈ d.services config := by
          rw [← beq_iff_eq.mp hsame]
          exact List.mem_map.mpr
            ⟨(i, call), by rw [hcall]; exact List.mem_append_right _ List.mem_cons_self, rfl⟩
        have hcount := List.count_pos_iff.mpr hmem
        rw [h.counted e]
        omega
      · exact hactive e

end Steps

/-! ## Runs -/

section Runs

variable {config : DeploymentConfig ι} {grpc_n http_n : ℕ} {d₀ d : Deployment ι (http_n + grpc_n)}
    {ts : Run ι (http_n + grpc_n)}

/-- At its start, there is no Credit Request and nothing is active, so the invariant holds. -/
theorem start_inv (hstart : Start config grpc_n http_n d₀) : Inv config d₀ := by
  obtain ⟨counts, hserver⟩ := hstart.server
  obtain ⟨hwf, hfresh, -⟩ := start_spec hstart.hosted hserver
  obtain ⟨hrequests, hlost_requests⟩ := hstart.requests
  obtain ⟨hgrants, hlost_grants⟩ := hstart.grants
  constructor
  case worker => exact fun i => ⟨[], IngressWorker.start_steady (hstart.worker i)⟩
  case server => exact hwf
  case kind =>
    rw [hrequests]
    exact fun req hreq => absurd hreq List.not_mem_nil
  case placed =>
    intro i
    unfold messages
    rw [(hstart.worker i).on_fly, hrequests, hlost_requests, hgrants, hlost_grants,
      bag_of_fresh hfresh]
    rfl
  case counted =>
    intro e
    unfold services
    rw [hgrants, hlost_grants, hstart.calls]
    exact hfresh.active e

/-- The number of all that are active is what has become of the Credit Grants, over the services. -/
theorem Inv.total_eq (h : Inv config d) : d.server.room.total = ∑ e ∈ config.server.hosted.toFinset,
    ((grantsFor e d.grants : ℤ) + grantsFor e d.lost_grants + (d.services config).count e) :=
  (show d.server.room.total = ∑ e ∈ config.server.hosted.toFinset, d.server.room.active e
    from h.server.queue.balanced).trans
    (Finset.sum_congr rfl fun e _ => h.counted e)

/-- All requests that the frontend has to answer are active, so the total counter is an upper
bound. -/
theorem Inv.calls_le_total (h : Inv config d) : d.calls.length ≤ d.server.room.total := by
  -- they are for services that are hosted
  have hhosted : ∀ e ∈ (d.services config : Multiset Bytes), e ∈ config.server.hosted.toFinset := by
    intro e he
    rw [List.mem_toFinset]
    by_contra hnot
    have hcounted := h.counted e
    have hcount := List.count_pos_iff.mpr (Multiset.mem_coe.mp he)
    rw [active_of_not_hosted h.server hnot] at hcounted
    omega
  have hsum := Multiset.sum_count_eq_card hhosted
  rw [Multiset.coe_card] at hsum
  have hlength : (d.services config).length = d.calls.length := List.length_map _
  rw [← hlength, ← hsum, h.total_eq]
  push_cast
  refine Finset.sum_le_sum fun e _ => ?_
  -- the multiset counts with the equality of `DecidableEq`, the list with that of `BEq`
  have hcount : (d.services config : Multiset Bytes).count e = (d.services config).count e :=
    (Multiset.coe_count e _).trans
      (congrArg (fun beq => @List.count Bytes beq e (d.services config))
        (lawful_beq_subsingleton _ _))
  rw [hcount]
  exact le_add_of_nonneg_left (by positivity)

/-- The Credit Request of a worker is where `placed` says, if a request waits. -/
theorem Inv.asked_placed (h : Inv config d) (i : ι) : match (d.worker i).ingress.queue with
    | [] => echoes (config.address i) (d.messages config) = 0
    | rpc :: _ => ∃ req, (d.worker i).Asks req rpc ∧ echoes (config.address i) (d.messages config)
        = {req.echo} := by
  rw [← h.placed i]
  rcases h.on_fly i with ⟨hfly, hqueue⟩ | ⟨rpc, rest, req, hqueue, hfly, hasks⟩
  · rw [hqueue, hfly]
    rfl
  · rw [hqueue, hfly]
    exact ⟨req, hasks, rfl⟩

/-- Where no datagram is on its way or was lost, the Credit Request for a request that waits is
with the frontend. -/
theorem Inv.bag_of_waiting (h : Inv config d) {i : ι} (hne : (d.worker i).ingress.queue ≠ [])
    (hrequests : d.requests = []) (hgrants : d.grants = []) (hlost_requests : d.lost_requests = [])
    (hlost_grants : d.lost_grants = []) :
    d.server.room.bag config.server.hosted.toFinset ≠ 0 := by
  intro hzero
  have hnone : echoes (config.address i) (d.messages config) = 0 := by
    unfold messages
    rw [hrequests, hgrants, hlost_requests, hlost_grants, hzero]
    rfl
  have hworker := h.asked_placed i
  rw [hnone] at hworker
  cases hqueue : (d.worker i).ingress.queue with
  | nil => exact hne hqueue
  | cons rpc rest =>
      rw [hqueue] at hworker
      obtain ⟨req, -, hreq⟩ := hworker
      exact absurd hreq.symm (Multiset.singleton_ne_zero _)

/-- Where the frontend has nothing to answer and its Credit Grants have all come, nothing is
active. -/
theorem Inv.total_of_idle (h : Inv config d) (hgrants : d.grants = [])
    (hlost_grants : d.lost_grants = []) (hcalls : d.calls = []) : d.server.room.total = 0 := by
  rw [h.total_eq]
  refine Finset.sum_eq_zero fun e _ => ?_
  unfold services
  rw [hgrants, hlost_grants, hcalls]
  rfl

variable [DecidableEq ι]

/-- It holds at every moment of a run, before and after each step. -/
theorem run_inv (hstart : Start config grpc_n http_n d₀) (hrun : Exec (Step config) d₀ ts d) :
    Inv config d ∧ ∀ t ∈ ts, Inv config t.pre ∧ Inv config t.post := by
  have hstep : ∀ t ∈ ts, Inv config t.pre → Step config t.pre t.label t.post → Inv config t.post :=
    fun t _ h hs => h.step hstart.address hstart.edge hs
  exact ⟨hrun.invariant _ hstep (start_inv hstart), fun t ht =>
    hrun.invariant_of_mem _ hstep (start_inv hstart) ht⟩

/-- **What the frontend keeps by itself** holds in every run: with the invariant, it frees only
what is active. -/
theorem run_server (hstart : Start config grpc_n http_n d₀) (hrun : Exec (Step config) d₀ ts d)
    {P : Server → Prop} (hinit : P d₀.server)
    (hkeeps : ∀ t ∈ ts, ∀ sev, t.pre.server.Wf config.server →
      Server.Step config.server t.pre.server sev t.post.server →
      sev.egress = false → sev.handler = true →
        (∀ e, (if sev.frees e then 1 else 0) ≤ t.pre.server.room.active e) →
      P t.pre.server → P t.post.server) : P d.server := by
  obtain ⟨-, hsteps⟩ := run_inv hstart hrun
  refine hrun.invariant (fun d => P d.server) (fun t ht hbefore hs => ?_) hinit
  rcases hs.server_step (hsteps t ht).1 with hsame | ⟨sev, hstep, hleaf, hhandler, hactive⟩
  · rw [hsame]
    exact hbefore
  · exact hkeeps t ht sev (hsteps t ht).1.server hstep hleaf hhandler hactive hbefore

/-! ### One request -/

/-- A deployment with one worker, whose frontend hosts the service "s" on one CPU. -/
def edgeDeployment : DeploymentConfig Unit :=
  { parser := .pico
    server := { limits := ⟨1, 0, true, fun _ => 0⟩, mapping := [([115], ⟨[], false, false⟩)] }
    worker := fun _ => ⟨⟨⟨true, false⟩, 1, [115]⟩, false, 1000⟩
    address := fun _ => ⟨1, 5000⟩
    server_address := ⟨2, 80⟩ }

/-- A client connects and asks for something, the credit is granted, and the request is with the
frontend. -/
theorem edgeDeployment_run :
    ∃ (d₀ d : Deployment Unit (2 + 0)) (ts : Run Unit (2 + 0)),
      Start edgeDeployment 0 2 d₀ ∧ Exec (Step edgeDeployment) d₀ ts d
        ∧ d.calls.map (fun call => call.2.1) = [(.EGRESS, 5, 1)]
        ∧ ∀ t ∈ ts, t.post.server.credit_queue.counters.limit [115] ≤ (2 : ℕ) := by
  let config : UpstreamConfig := ⟨⟨⟨true, false⟩, 1, [115]⟩, false, 1000⟩
  let env (now_us : BitVec 64) : IngressWorker.Env := ⟨some 1, Buffer.blank, now_us⟩
  let pool : ConnectionPool := ⟨[7], 0, fun _ => Nat.zero_lt_one⟩
  let k : StreamKey := (.EGRESS, 5, 1)
  let w₁ := IngressWorker.edgeStart.handle_accept 5
  let w₂ := { w₁ with
    toHttpUpstreams := w₁.set_connection 7 { HTTP1Connection.create 7 .EGRESS with status := .UP } }
  have hcheck : (do
      let counts ← LocalMap.ofKeys [[115]] 0
      let s₀ ← Server.start edgeDeployment.server counts
      let w₃ ← w₂.handle_request .pico config (env 10) 5 HTTP1Connection.questionHead
      let arrived :=
        Buffer.blank.receive { w₃.on_fly.headD Buffer.blank with addr := ⟨1, 5000⟩ } ⟨1, 5000⟩
      let handler ← dispatch_rlp_recv arrived
      let s₁ ← s₀.protocol_server edgeDeployment.server ⟨Buffer.blank, 100, 200, 3⟩ arrived
      let buf := Buffer.blank.receive (s₁.sent.headD Buffer.blank) ⟨2, 80⟩
      let handler' ← dispatch_rlp_recv buf
      let credited : ℕ × IngressWorker (2 + 0) ← { w₃ with on_fly := [] }.credit_post_process
        (env 500) buf
      let dequeued : Fin (2 + 0) × Ingress (2 + 0) ← credited.2.ingress.dequeue
      let w₅ : IngressWorker (2 + 0) := { credited.2 with ingress := dequeued.2 }
      let rpc ← w₅.rpc_mapper.get_ds_rpc k.1 k.2.2 k.2.1
      let id ← w₅.find_pool k.1 (w₅.rpc_mapper.heap rpc).service
      let s :=
        { w₅.toHttpUpstreams with pools := Function.update w₅.pools (.service [115]) (some pool) }
      let sent : ℤ × Bytes × HttpUpstreams (2 + 0) ← s.forward_request config k 7
      let w₆ ← { w₅ with toHttpUpstreams := sent.2.2 }.forward config
        (sent.2.2.rpc_queue .EGRESS .UPSTREAM)
      let w₇ ← w₆.ingress_pre_credit (env 500)
      .ok (decide (s₀.sent = [] ∧ w₃.on_fly.length = 1 ∧ handler = .protocol_server
        ∧ s₁.sent.length = 1
        ∧ (s₁.sent.headD Buffer.blank).addr = ⟨1, 5000⟩ ∧ handler' = .credit_grant ∧ credited.1 = 1
        ∧ ((w₅.rpc_mapper.heap dequeued.1).ds_fd, (w₅.rpc_mapper.heap dequeued.1).ds_stream_id)
          = (5, 1)
        ∧ id = .service [115] ∧ (w₅.pools id).map (fun pool => (pool.fds, pool.next_conn))
          = some ([7], 0)
        ∧ w₅.available 7 = true ∧ (w₅.connections 7).map HTTP1Connection.status = some .UP
        ∧ s₀.credit_queue.counters.limit [115] = 2 ∧ s₁.credit_queue.counters.limit [115] = 2)))
      = (.ok true : Except Abort Bool) := by
    decide +kernel
  obtain ⟨counts, -, hcheck⟩ := bind_eq_ok.mp hcheck
  obtain ⟨s₀, hserver, hcheck⟩ := bind_eq_ok.mp hcheck
  obtain ⟨w₃, h₃, hcheck⟩ := bind_eq_ok.mp hcheck
  obtain ⟨handler, hdispatch, hcheck⟩ := bind_eq_ok.mp hcheck
  obtain ⟨s₁, hhandled, hcheck⟩ := bind_eq_ok.mp hcheck
  obtain ⟨handler', hdispatch', hcheck⟩ := bind_eq_ok.mp hcheck
  obtain ⟨⟨num_credits, w₄⟩, hpost, hcheck⟩ := bind_eq_ok.mp hcheck
  obtain ⟨⟨rpc, ingress⟩, hdequeue, hcheck⟩ := bind_eq_ok.mp hcheck
  obtain ⟨rpc', hrpc, hcheck⟩ := bind_eq_ok.mp hcheck
  obtain ⟨id, hid, hcheck⟩ := bind_eq_ok.mp hcheck
  obtain ⟨⟨us_stream_id, text, s⟩, hsent, hcheck⟩ := bind_eq_ok.mp hcheck
  obtain ⟨w₆, hforward, hcheck⟩ := bind_eq_ok.mp hcheck
  obtain ⟨w₇, hpre, hcheck⟩ := bind_eq_ok.mp hcheck
  obtain ⟨hnone, hone, rfl, hgrant, haddr, rfl, rfl, hkey, rfl, hpool,
    havailable, hup, hlimit₀, hlimit₁⟩ :=
    of_decide_eq_true (Except.ok.inj hcheck)
  obtain ⟨req, hreq⟩ := List.length_eq_one_iff.mp hone
  obtain ⟨buf, hbuf⟩ := List.length_eq_one_iff.mp hgrant
  rw [hreq] at hdispatch hhandled
  rw [hbuf] at haddr hdispatch' hpost
  -- the pool has one connection, which is up and idle
  obtain ⟨pool', hpool', hsame⟩ := Option.map_eq_some_iff.mp hpool
  obtain rfl : pool' = pool := by
    obtain ⟨fds, next_conn, _⟩ := pool'
    obtain ⟨rfl, rfl⟩ := Prod.mk.inj hsame
    rfl
  let u₀ := ({ w₄ with ingress := ingress } : IngressWorker (2 + 0)).toHttpUpstreams
  have hroute : u₀.route_request k
      = .ok (7, { u₀ with pools := Function.update w₄.pools (.service [115]) (some pool) }) :=
    HttpUpstreams.route_request_here hrpc hid hpool' rfl havailable hup
  have hsend : ({ w₄ with ingress := ingress } : IngressWorker (2 + 0)).send_sub_request config rpc
      = .ok ((k, text), { w₄ with toHttpUpstreams := s }) :=
    IngressWorker.send_sub_request_here (congrArg (Prod.mk ConnectionType.EGRESS) hkey) hroute hsent
  have hcredit : { w₃ with on_fly := [] ++ [] }.ingress_post_credit config
      (env 500) (Buffer.blank.receive buf ⟨2, 80⟩)
      = .ok ((k, text), w₇) :=
    bind_eq_ok.mpr ⟨_, hpost,
      bind_eq_ok.mpr ⟨_, hdequeue, bind_eq_ok.mpr ⟨_, hsend, bind_eq_ok.mpr ⟨_, hforward,
      bind_eq_ok.mpr ⟨_, hpre, rfl⟩⟩⟩⟩⟩
  let d₀ : Deployment Unit (2 + 0) := ⟨fun _ => IngressWorker.edgeStart, s₀, [], [], [], [], []⟩
  have hstart : Start edgeDeployment 0 2 d₀ :=
    ⟨fun _ => IngressWorker.edgeStart_start, fun _ => ⟨rfl, rfl⟩, fun _ _ _ => rfl,
      List.cons_ne_nil _ _, ⟨counts, hserver⟩,
      ⟨rfl, rfl⟩, ⟨rfl, rfl⟩, rfl⟩
  let d₁ := d₀.worker_handled edgeDeployment () w₁ 0
  let d₂ := d₁.worker_handled edgeDeployment () w₂ 0
  let d₃ := d₂.worker_handled edgeDeployment () w₃ 0
  have hrequests : d₃.requests = [] ++ { req with addr := ⟨1, 5000⟩ } :: [] := by
    show ([] ++ _ ++ _ ++ (w₃.on_fly.drop 0).map _ : List Buffer) = _
    rw [hreq]
    rfl
  let d₄ := { d₃ with requests := [] ++ [] }.server_handled s₁
  have hgrants : d₄.grants = [] ++ buf :: [] := by
    show [] ++ s₁.sent.drop s₀.sent.length = _
    rw [hnone, hbuf]
    rfl
  have hfirst : Step edgeDeployment d₀ (.work () (.accept 5)) d₁ :=
    .work (fun _ _ _ => IngressWorker.Event.noConfusion) (.accept 5)
  have hsecond : Step edgeDeployment d₁ (.work () (.set_status 7 .UP)) d₂ :=
    .work (fun _ _ _ => IngressWorker.Event.noConfusion) (.set_status .UP rfl)
  have hthird : Step edgeDeployment d₂ (.work () (.request 5 HTTP1Connection.questionHead)) d₃ :=
    .work (fun _ _ _ => IngressWorker.Event.noConfusion)
      (.request (show w₂.ingress.drop_id.toNat + 1 < 2 ^ 31 by decide) h₃)
  have hfourth : Step edgeDeployment d₃ (.request { req with addr := ⟨1, 5000⟩ }) d₄ :=
    .request hrequests
      ⟨fun _ _ heq => by obtain ⟨rfl, -⟩ := Event.datagram.inj heq; exact hdispatch, hhandled⟩
  have htaken : IngressWorker.Step .pico config w₃
      (.grant req (Buffer.blank.receive buf ⟨2, 80⟩) (k, text)) w₇ :=
    .grant (show w₃.on_fly = [] ++ req :: [] from hreq) hdispatch' hcredit
  have hfifth : Step edgeDeployment d₄ (.grant () buf (k, text)) _ :=
    .grant hgrants haddr (show IngressWorker.Step edgeDeployment.parser
      (edgeDeployment.worker ()) (d₄.worker ()) _ w₇ from htaken)
  refine ⟨d₀, _, _, hstart,
    .cons hfirst (.cons hsecond (.cons hthird (.cons hfourth (.cons hfifth (.nil _))))), rfl, ?_⟩
  simp only [List.forall_mem_cons]
  exact ⟨hlimit₀.le, hlimit₀.le, hlimit₀.le, hlimit₁.le,
    hlimit₁.le, fun t ht => absurd ht List.not_mem_nil⟩

/-! ### Limits -/

/-- A counter goes up only within its limit, so a bound on both stays one. -/
theorem active_le {s s' : Server} {sev : Server.Event} {config : ServerConfig} (h : s.Wf config)
    (hs : Server.Step config s sev s') (hleaf : sev.egress = false) {e : Bytes}
    {m : ℤ} (hbefore : s.room.active e ≤ m) (hlimit : s'.room.cap e ≤ m) :
    s'.room.active e ≤ m := by
  obtain ⟨hactive, hgranted⟩ := step_active h hs hleaf e
  rcases lt_or_ge (grantsFor e s.sent) (grantsFor e s'.sent) with hlt | hge
  · exact (hgranted hlt).1.trans hlimit
  · split_ifs at hactive <;> omega

/-- So does the number of all that are active, within the limit on the total. -/
theorem total_le {s s' : Server} {sev : Server.Event} {config : ServerConfig} (h : s.Wf config)
    (hs : Server.Step config s sev s') (hleaf : sev.egress = false) {m : ℤ}
    (hbefore : s.room.total ≤ m) (hlimit : s'.room.totalCap ≤ m) : s'.room.total ≤ m := by
  -- a step that grants nothing raises no counter
  by_cases hgranted : ∃ e, grantsFor e s.sent < grantsFor e s'.sent
  · obtain ⟨e, hlt⟩ := hgranted
    exact ((step_active h hs hleaf e).2 hlt).2.trans hlimit
  · push Not at hgranted
    have hle : ∀ e, s'.room.active e ≤ s.room.active e := by
      intro e
      have hactive := (step_active h hs hleaf e).1
      have hsent := hgranted e
      split_ifs at hactive <;> omega
    have htotal : s.room.total = ∑ e ∈ config.hosted.toFinset, s.room.active e := h.queue.balanced
    have htotal' : s'.room.total = ∑ e ∈ config.hosted.toFinset, s'.room.active e :=
      (step_spec h hs).1.queue.balanced
    rw [htotal] at hbefore
    rw [htotal']
    exact (Finset.sum_le_sum fun e _ => hle e).trans hbefore

/-- What the frontend has to answer, in numbers: the counters are exact, and the limits that the
run has seen bound them. -/
structure Limited (config : DeploymentConfig ι) (d : Deployment ι (http_n + grpc_n))
    (ts : Run ι (http_n + grpc_n)) : Prop where
  /-- A counter is what is on its way to a worker, was lost on it, and has come back as a
  request. -/
  counted : ∀ e, d.server.credit_queue.counters.active e
    = grantsFor e d.grants + grantsFor e d.lost_grants + (d.services config).count e
  /-- The requests for a service are as many as the largest of its limits allows. -/
  limited : ∀ (e : Bytes) (m : ℕ), (∀ t ∈ ts, t.post.server.credit_queue.counters.limit e ≤ m) →
    (d.services config).count e ≤ m
  /-- And so are all of them. -/
  total : ∀ m : ℕ, (∀ t ∈ ts, t.post.server.credit_queue.counters.global_limit ≤ m) →
    d.calls.length ≤ m

/-- **The limits of the frontend** hold for what all workers have sent: in every run of a
deployment, with any number of workers, and whatever datagrams are lost or overtaken on the way.
Each request that is sent stands for a grant, and the frontend counts its grants. -/
theorem calls_limited (hstart : Start config grpc_n http_n d₀) (hrun : Exec (Step config) d₀ ts d) :
    Limited config d ts := by
  obtain ⟨hinv, -⟩ := run_inv hstart hrun
  obtain ⟨counts, hserver⟩ := hstart.server
  obtain ⟨-, hfresh, -⟩ := start_spec hstart.hosted hserver
  constructor
  case counted => exact hinv.counted
  case limited =>
    intro e m hlimit
    have hle : d.server.room.active e ≤ m :=
      run_server hstart hrun (P := fun s => s.room.active e ≤ (m : ℤ))
        ((hfresh.active e).le.trans (Int.natCast_nonneg m))
        fun t ht _ hwf hstep hleaf _ _ hbefore => active_le hwf hstep hleaf hbefore (hlimit t ht)
    have hcounted := hinv.counted e
    omega
  case total =>
    intro m hlimit
    have hle : d.server.room.total ≤ m :=
      run_server hstart hrun (P := fun s => s.room.total ≤ (m : ℤ))
        (hfresh.total.le.trans (Int.natCast_nonneg m))
        fun t ht _ hwf hstep hleaf _ _ hbefore => total_le hwf hstep hleaf hbefore (hlimit t ht)
    have hcalls := hinv.calls_le_total
    omega

/-- A request that was granted is with the frontend, and within the limits: a concrete run of the
theorem above. -/
theorem calls_limited_one :
    ∃ (d : Deployment Unit (2 + 0)) (ts : Run Unit (2 + 0)), Limited edgeDeployment d ts
      ∧ d.calls.length = 1
      ∧ (d.services edgeDeployment).count [115] ≤ 2 := by
  obtain ⟨d₀, d, ts, hstart, hrun, hcalls, hlimit⟩ := edgeDeployment_run
  have hlimited := calls_limited hstart hrun
  refine ⟨d, ts, hlimited, ?_, hlimited.limited [115] 2 hlimit⟩
  rw [← List.length_map (fun call : Unit × StreamKey × Bytes => call.2.1), hcalls]
  rfl

/-! ### Progress -/

/-- The request that a worker sends is the one whose credit has come: the worker has one Credit
Request on the fly, which asked for the first of its requests, and the Credit Grant gives back what
that one said (the time included). -/
def Credited (t : Transition (Deployment ι (http_n + grpc_n)) (Event ι)) : Prop :=
  match t.label with
  | .grant i buf sent => ∃ rpc rest req, (t.pre.worker i).ingress.queue = rpc :: rest
    ∧ (t.pre.worker i).on_fly = [req]
      ∧ (t.pre.worker i).Asks req rpc ∧ buf.echo = req.echo ∧ sent = (t.pre.worker i).entry rpc
  | _ => True

/-- What keeps a deployment going: who waits has asked, and what was asked is somewhere. -/
structure Moving (config : DeploymentConfig ι) (d : Deployment ι (http_n + grpc_n))
    (ts : Run ι (http_n + grpc_n)) : Prop where
  /-- The Credit Request of a worker asks for the first of its requests, and is in one place;
  without a request there is none. -/
  placed : ∀ i, match (d.worker i).ingress.queue with
    | [] => echoes (config.address i) (d.messages config) = 0
    | rpc :: _ => ∃ req, (d.worker i).Asks req rpc
        ∧ echoes (config.address i) (d.messages config) = {req.echo}
  credited : ∀ t ∈ ts, Credited t
  /-- A request waits for a datagram on its way, or for the response to another request, unless a
  datagram was lost. -/
  moving : (∃ i, (d.worker i).ingress.queue ≠ []) →
    d.requests ≠ [] ∨ d.grants ≠ [] ∨ d.calls ≠ [] ∨ d.lost_requests ≠ [] ∨ d.lost_grants ≠ []

/-- The frontend has room for one request, and is busy as long as a Credit Request waits there. -/
theorem run_busy (hroomy : config.server.Roomy) (hstart : Start config grpc_n http_n d₀)
    (hrun : Exec (Step config) d₀ ts d) :
    Server.Open config.server d.server.room ∧ Busy config.server d.server.room := by
  obtain ⟨counts, hserver⟩ := hstart.server
  obtain ⟨-, hfresh, -⟩ := start_spec hstart.hosted hserver
  have hinit : Server.Open config.server d₀.server.room ∧ Busy config.server d₀.server.room :=
    ⟨start_open hroomy hstart.hosted hfresh, fun hbag => absurd (bag_of_fresh hfresh) hbag⟩
  exact run_server hstart hrun (P := fun s => Server.Open config.server s.room
    ∧ Busy config.server s.room) hinit
    fun _ _ _ hwf hstep hleaf hhandler hactive hbefore =>
      step_busy hroomy hwf hstep hhandler hleaf hbefore.1 hactive

/-- A worker that gets a Credit Grant has asked for it, with the Credit Request that the grant is
an echo of. -/
theorem Inv.credited (h : Inv config d)
    (hedge : ∀ i, (config.worker i).ids.is_ingress = true ∧ (config.worker i).is_frontend = false)
    {ev : Event ι} {d' : Deployment ι (http_n + grpc_n)} (hs : Step config d ev d') :
    Credited ⟨d, ev, d'⟩ := by
  cases hs with
  | work | request | answer | lose_request | lose_grant => trivial
  | @grant i before after req buf rx sent w hbuf haddr hstep =>
      obtain ⟨us, hsteady⟩ := h.worker i
      have hfly := h.on_fly_of_grant hstep
      obtain ⟨hecho, -⟩ := h.grant_echo hbuf haddr hfly
      have hsteady' := hsteady.step (hedge i).1 (hedge i).2 hstep
      obtain ⟨-, rpc, rest, hqueue, hasks, hsent⟩ :=
        hsteady'.steps _ (List.mem_append_right _ List.mem_cons_self)
      exact ⟨rpc, rest, req, hqueue, hfly, hasks, hecho, hsent⟩

/-- **No deployment is stuck**: in every run, as long as no datagram was lost, who waits is waiting
for something that will come. `hroomy` asks the configuration for room for one request; with limits
below one the frontend would never grant anything. -/
theorem no_deadlock (hroomy : config.server.Roomy) (hstart : Start config grpc_n http_n d₀)
    (hrun : Exec (Step config) d₀ ts d) : Moving config d ts := by
  obtain ⟨hinv, hsteps⟩ := run_inv hstart hrun
  constructor
  case placed => exact hinv.asked_placed
  case credited => exact fun t ht => (hsteps t ht).1.credited hstart.edge (hrun.step_of_mem ht)
  case moving =>
    rintro ⟨i, hne⟩
    by_contra hstuck
    push Not at hstuck
    obtain ⟨hrequests, hgrants, hcalls, hlost_requests, hlost_grants⟩ := hstuck
    -- a Credit Request waits at the frontend, which would grant it, since nothing is active
    have hbag := hinv.bag_of_waiting hne hrequests hgrants hlost_requests hlost_grants
    have hone := (run_busy hroomy hstart hrun).2 hbag
    have hzero := hinv.total_of_idle hgrants hlost_grants hcalls
    omega

/-- While the frontend has the request, nothing else is to be done. -/
theorem no_deadlock_one :
    ∃ (d : Deployment Unit (2 + 0)) (ts : Run Unit (2 + 0)), Moving edgeDeployment d ts
      ∧ d.calls.length = 1 := by
  obtain ⟨d₀, d, ts, hstart, hrun, hcalls, -⟩ := edgeDeployment_run
  refine ⟨d, ts, no_deadlock ⟨by decide, by decide, fun _ _ => le_rfl⟩ hstart hrun, ?_⟩
  rw [← List.length_map (fun call : Unit × StreamKey × Bytes => call.2.1), hcalls]
  rfl

end Runs

end Deployment

end RlpSidecar
