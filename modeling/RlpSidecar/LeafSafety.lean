/-
**The limit of a leaf**: what the protocol is for.

On a sidecar whose services send nothing further, a request is active from the grant sent for
it until its response is forwarded or its credit comes back. The counters say exactly that at
every moment of every run, whatever the limits do meanwhile, and no grant is ever sent that
takes a counter above the limit in force.

`step_active` is the step lemma, for the counter of one service: it moves with the grants and with
what is given back, and a grant respects the limits. `leaf_limit_safety` is the account over the
whole run, with the total and with both limits at every grant, those that `update_limits` sets on
the way included.
-/
import RlpSidecar.ServerAccounting

set_option autoImplicit false

open Runs

namespace RlpSidecar

namespace Server

variable {config : ServerConfig}

/-- The event is an INGRESS response of `e`, or a Credit Return for it. -/
def Event.frees (e : Bytes) : Event → Bool
  | .ingress_response service _ => service == e
  | .datagram req _ => decide (read_server_message req = .ok (.credit_return e))
  | _ => false

/-- The INGRESS responses of `e` forwarded in a run, each of which frees a credit. -/
def responsesOf (e : Bytes) (ts : List (Transition Server Event)) : ℕ :=
  ts.countP fun t => match t.label with
    | .ingress_response service _ => service == e
    | _ => false

/-- The Credit Returns for `e` handled in a run, each of which frees a credit that was not used. -/
def returnsOf (e : Bytes) (ts : List (Transition Server Event)) : ℕ :=
  ts.countP fun t => match t.label with
    | .datagram req _ => decide (read_server_message req = .ok (.credit_return e))
    | _ => false

theorem countP_frees (e : Bytes) (ts : List (Transition Server Event)) :
    ts.countP (fun t => t.label.frees e) = responsesOf e ts + returnsOf e ts := by
  unfold responsesOf returnsOf
  induction ts with
  | nil => rfl
  | cons t ts ih =>
      rw [List.countP_cons, List.countP_cons, List.countP_cons, ih]
      cases t.label <;> simp [Event.frees] <;> omega

/-- The event belongs to the egress side, which a leaf does not have. -/
def Event.egress : Event → Bool
  | .egress_request .. | .egress_response .. => true
  | _ => false

/-- Before any grant, a leaf's event lowers the counter of the service it frees. -/
theorem Effect.active_eq {s : Server} {ev : Event}
    {r : Admission.Room (Fin PriorityCount) Bytes Buffer} (h : Effect config s ev r)
    (hleaf : ev.egress = false) (e : Bytes) :
    r.active e = s.room.active e - if ev.frees e then 1 else 0 := by
  cases h with
  | request req env service id priority rtt p resp hread hp he =>
      have hsame := (sampleRoom_waiting config env.ratio service s).2.1
      simp [Event.frees, hread, Admission.Room.active_enqueue, hsame]
  | credit_return req env service hread he =>
      by_cases hs : e = service
      · subst hs; simp [Event.frees, hread, Admission.Room.release]
      · simp [Event.frees, hread, Admission.Room.release, hs, Ne.symm hs]
  | ingress_response service now_ts he =>
      by_cases hs : e = service
      · subst hs; simp [Event.frees, Admission.Room.release]
      · simp [Event.frees, Admission.Room.release, hs, Ne.symm hs]
  | egress_request | egress_response => simp [Event.egress] at hleaf
  | endpoint_limit limit service he => simp [Event.frees, Admission.Room.setCap]
  | global_limit limit => simp [Event.frees, Admission.Room.setTotalCap]

/-- **One event of a leaf**, for the counter of `e`: it moves with the grants and what is given
back, and a grant respects the limits. -/
theorem step_active {s s' : Server} {ev : Event} (h : s.Wf config) (hs : Step config s ev s')
    (hleaf : ev.egress = false) (e : Bytes) :
    s'.room.active e + grantsFor e s.sent + (if ev.frees e then 1 else 0)
        = s.room.active e + grantsFor e s'.sent
      ∧ (grantsFor e s.sent < grantsFor e s'.sent →
          s'.room.active e ≤ s'.room.cap e ∧ s'.room.total ≤ s'.room.totalCap) := by
  obtain ⟨_, mid, hmid, hsent, heffect, hend⟩ := step_spec h hs
  have hactive := heffect.active_eq hleaf e
  have hfinal : (s'.room.active e + grantsFor e mid.sent = mid.room.active e + grantsFor e s'.sent)
      ∧ (grantsFor e mid.sent < grantsFor e s'.sent →
          s'.room.active e ≤ s'.room.cap e ∧ s'.room.total ≤ s'.room.totalCap) := by
    cases hcheck : ev.check? with
    | some now_ts => rw [hcheck] at hend; exact Checked.active_eq hmid hend e
    | none =>
        rw [hcheck] at hend
        rw [hend.1, hend.2]
        exact ⟨rfl, fun hlt => absurd hlt (lt_irrefl _)⟩
  rw [hsent] at hfinal
  refine ⟨?_, hfinal.2⟩
  have h1 := hfinal.1
  rw [hactive] at h1
  omega

/-- The counter of `e` over a whole run, by induction on the run. -/
theorem exec_active {s s' : Server} {ts : List (Transition Server Event)}
    (hrun : Exec (Step config) s ts s') (h : s.Wf config)
    (hleaf : ∀ t ∈ ts, t.label.egress = false) (e : Bytes) :
    s'.room.active e + grantsFor e s.sent + (responsesOf e ts + returnsOf e ts : ℕ)
      = s.room.active e + grantsFor e s'.sent := by
  rw [← countP_frees]
  induction hrun with
  | nil s => simp
  | @cons s t u ev ts head _ ih =>
      have hone := (step_active h head (hleaf _ List.mem_cons_self) e).1
      have hrest := ih (step_spec h head).1 fun x hx => hleaf x (List.mem_cons_of_mem _ hx)
      rw [List.countP_cons]
      push_cast
      split_ifs at hone ⊢ <;> omega

/-- **RLP limit safety for leaf services.** In every run of a sidecar without egress traffic, from
its start: for every hosted service the endpoint counter is the grants sent for it less its
INGRESS responses forwarded and its Credit Returns handled, the total is the sum of these, and
after every event that sends a grant for a service both its counter and the total are within
the limits in force then. -/
theorem leaf_limit_safety {counts : LocalMap (BitVec 32)} {s₀ s : Server}
    {ts : List (Transition Server Event)} (hne : config.mapping ≠ [])
    (hstart : start config counts = .ok s₀) (hrun : Exec (Step config) s₀ ts s)
    (hleaf : ∀ t ∈ ts, t.label.egress = false) :
    (∀ e ∈ config.hosted, s.credit_queue.counters.active e
        = grantsFor e s.sent - responsesOf e ts - returnsOf e ts)
      ∧ s.credit_queue.counters.in_flight
        = ∑ e ∈ config.hosted.toFinset,
            ((grantsFor e s.sent : ℤ) - responsesOf e ts - returnsOf e ts)
      ∧ ∀ t ∈ ts, ∀ e ∈ config.hosted, grantsFor e t.pre.sent < grantsFor e t.post.sent →
          t.post.credit_queue.counters.active e ≤ t.post.credit_queue.counters.limit e
            ∧ t.post.credit_queue.counters.in_flight
              ≤ t.post.credit_queue.counters.global_limit := by
  obtain ⟨hwf₀, hfresh, hsent⟩ := start_spec hne hstart
  -- The change over the run, with nothing active and nothing granted at the start.
  have hcount : ∀ e, s.credit_queue.counters.active e
      = grantsFor e s.sent - responsesOf e ts - returnsOf e ts := by
    intro e
    have h := exec_active hrun hwf₀ hleaf e
    have h0 : s₀.room.active e = 0 := hfresh.active e
    have hg : grantsFor e s₀.sent = 0 := by rw [hsent]; rfl
    have hroom : s.credit_queue.counters.active e = s.room.active e := rfl
    rw [h0, hg] at h
    rw [hroom]
    push_cast at h
    omega
  have hwf : s.Wf config :=
    hrun.invariant (Wf config) (fun _ _ hpre hstep => (step_spec hpre hstep).1) hwf₀
  refine ⟨fun e _ => hcount e, ?_, fun t ht e _ hlt => ?_⟩
  · have hbal : s.credit_queue.counters.in_flight
        = ∑ e ∈ config.hosted.toFinset, s.credit_queue.counters.active e := hwf.queue.balanced
    rw [hbal]
    exact Finset.sum_congr rfl fun e _ => hcount e
  · -- The bounds are about one step: what it grants, it grants below both limits.
    have hpre := (hrun.invariant_of_mem (Wf config)
      (fun _ _ hpre hstep => (step_spec hpre hstep).1) hwf₀ ht).1
    exact (step_active hpre (hrun.step_of_mem ht) (hleaf t ht) e).2 hlt

/-- A leaf with one service: two requests arrive and are granted, the first is answered, and one
is left active. -/
theorem leaf_limit_safety_run :
    ∃ (s : Server) (ts : List (Transition Server Event)),
      ts.map (fun t => t.label.frees [97]) = [false, false, true]
        ∧ grantsFor [97] s.sent = 2
        ∧ s.credit_queue.counters.active [97]
          = grantsFor [97] s.sent - responsesOf [97] ts - returnsOf [97] ts := by
  -- Two grants, and the response of the first.
  have hcheck : (do
      let counts ← LocalMap.ofKeys [[97]] 0
      let s₀ ← start oneService counts
      let (ts, s) ← trace (next oneService) s₀
        [.datagram (requestFor [97] 0) plainEnv, .datagram (requestFor [97] 2) plainEnv,
          .ingress_response [97] 0]
      .ok (decide (∀ t ∈ ts, t.label.egress = false)
        && decide (ts.map (fun t => t.label.frees [97]) = [false, false, true])
        && decide (grantsFor [97] s.sent = 2))) = (.ok true : Except Abort Bool) := by
    decide +kernel
  obtain ⟨counts, _, hcheck⟩ := bind_eq_ok.mp hcheck
  obtain ⟨s₀, hstart, hcheck⟩ := bind_eq_ok.mp hcheck
  obtain ⟨⟨ts, s⟩, htrace, hcheck⟩ := bind_eq_ok.mp hcheck
  have hall := Except.ok.inj hcheck
  simp only [Bool.and_eq_true, decide_eq_true_eq] at hall
  obtain ⟨⟨hleaf, hfrees⟩, hgrants⟩ := hall
  have hnext : ∀ s a l t, next oneService s a = .ok (l, t) → Step oneService s l t ∧ id l = a :=
    fun _ _ _ _ => step_of_next
  have hrun := (exec_of_trace hnext htrace).1
  exact ⟨s, ts, hfrees, hgrants,
    (leaf_limit_safety (by decide) hstart hrun hleaf).1 [97] (by decide)⟩

end Server

end RlpSidecar
