/-
The counters of the server side against the grants it has sent.

`balance` is the endpoint counter less the grants sent for the endpoint. Granting does not move
it: only responses, returns and the client side do, each by one. What is left to a run is to say
which of these belong to the same request.

Both are counted from the datagrams that were sent, not from a variable of the process, so the
statements about grants are about what the neighbours can see.
-/
import RlpSidecar.ServerSpec

set_option autoImplicit false

namespace RlpSidecar

namespace Server

variable {config : ServerConfig}

/-- The datagrams in `sent` that carry the name `e`, which are the grants for it. -/
def grantsFor (e : Bytes) (sent : List Buffer) : ℕ :=
  sent.countP fun b => decide (extract_service_from_rlp_req b = .ok e)

/-- Looking for a credit to grant moves a counter by the grants sent for its service, and what it
grants is within the limits. -/
theorem Checked.active_eq {s s' : Server} {now_ts : BitVec 64} (hs : s.Wf config)
    (h : Checked config now_ts s s') (e : Bytes) :
    (s'.room.active e + grantsFor e s.sent = s.room.active e + grantsFor e s'.sent)
      ∧ (grantsFor e s.sent < grantsFor e s'.sent →
          s'.room.active e ≤ s'.room.cap e ∧ s'.room.total ≤ s'.room.totalCap) := by
  cases h with
  | nothing hroom hsent _ => rw [hroom, hsent]; exact ⟨rfl, fun hlt => absurd hlt (lt_irrefl _)⟩
  | granted p e' b he hready hline hroom hsent =>
      obtain ⟨rest, hline⟩ := hline
      have hname : extract_service_from_rlp_req (stamp_queuing_time b now_ts) = .ok e' := by
        rw [Buffer.extract_stamp]
        exact hs.named p e' b (by rw [hline]; exact List.mem_cons_self)
      -- The grant that was sent names the service whose counter went up.
      have hcount : grantsFor e s'.sent = grantsFor e s.sent + if e = e' then 1 else 0 := by
        rw [hsent]
        unfold grantsFor
        rw [List.countP_append, List.countP_singleton, hname]
        simp [eq_comm]
      have hstep := Admission.Room.Step.grant s.room p e' b rest hline hready
      rw [← hroom] at hstep
      rw [hcount, hstep.active_eq e]
      simp only [Admission.Room.Event.charge]
      refine ⟨by split_ifs <;> push_cast <;> omega, fun hlt => ?_⟩
      have heq : e = e' := by
        by_contra hne
        rw [if_neg hne] at hlt
        omega
      subst heq
      have hlimits := hstep.within_limits
      rw [hstep.active_eq] at hlimits
      simpa [Admission.Room.Event.charge] using hlimits

/-! ## What was sent stays sent -/

/-- A grant is sent after all that were sent before, and takes none of them back. -/
theorem check_prefix (s : Server) (now_ts : BitVec 64) :
    Ends (fun _ => True) (fun s' => s.sent <+: s'.sent) (s.check_credit_transmission now_ts) := by
  refine Ends.bind_any _ fun r => ?_
  obtain ⟨buffer, queue⟩ := r
  cases buffer with
  | none => exact List.prefix_refl _
  | some buffer => exact List.prefix_append _ _

theorem release_prefix (s : Server) (service : Bytes) (now_ts : BitVec 64) :
    Ends (fun _ => True) (fun s' => s.sent <+: s'.sent) (s.release service now_ts) :=
  Ends.bind_any _ fun queue => check_prefix { s with credit_queue := queue } now_ts

theorem acquire_prefix (s : Server) (service : Bytes) :
    Ends (fun _ => True) (fun s' => s.sent <+: s'.sent) (s.acquire service) :=
  Ends.bind_any _ fun _ => List.prefix_refl _

theorem update_limits_sent (ratio : ℤ) (service : Bytes) (s : Server) :
    Ends (fun _ => True) (fun s' => s'.sent = s.sent) (s.update_limits config ratio service) := by
  refine Ends.bind_any _ fun count => Ends.bind_any _ fun counts => ?_
  dsimp only
  split_ifs
  · exact Ends.bind_any _ fun queue => rfl
  · exact rfl

theorem protocol_server_prefix (s : Server) (env : Env) (req : Buffer) :
    Ends (fun _ => True) (fun s' => s.sent <+: s'.sent) (s.protocol_server config env req) := by
  refine Ends.bind_any _ fun message => ?_
  cases message with
  | credit_request service id priority rtt =>
      refine (update_limits_sent env.ratio service s).bind fun s₁ hs₁ => ?_
      refine Ends.bind_any _ fun resp => Ends.bind_any _ fun queue => ?_
      rw [← hs₁]
      exact check_prefix { s₁ with credit_queue := queue } env.now_ts
  | credit_return service =>
      exact Ends.bind_any _ fun queue => check_prefix { s with credit_queue := queue } env.now_ts

/-! ## The balance -/

/-- The counter of an endpoint less the grants sent for it. -/
def balance (e : Bytes) (s : Server) : ℤ := s.room.active e - grantsFor e s.sent

/-- Looking for a credit to grant leaves the balance alone: counter and grants move together. -/
theorem Checked.balance_eq {s s' : Server} {now_ts : BitVec 64} (hs : s.Wf config)
    (h : Checked config now_ts s s') (e : Bytes) : s'.balance e = s.balance e := by
  have hactive := (Checked.active_eq hs h e).1
  unfold balance
  omega

/-- A release takes one off the balance of its service, also if it lets a request be granted. -/
theorem release_balance {s s' : Server} (h : s.Wf config) {service : Bytes} {now_ts : BitVec 64}
    (hs : s.release service now_ts = .ok s') (e : Bytes) :
    s'.balance e = s.balance e - if e = service then 1 else 0 := by
  obtain ⟨_, _, mid, hmid, hsent, hroom, hchecked⟩ := release_spec h hs
  rw [Checked.balance_eq hmid hchecked e]
  unfold balance
  rw [hroom, hsent]
  simp only [Admission.Room.release]
  split_ifs <;> omega

/-- An acquisition adds one to it, without a grant. -/
theorem acquire_balance {s s' : Server} (h : s.Wf config) {service : Bytes}
    (hs : s.acquire service = .ok s') (e : Bytes) :
    s'.balance e = s.balance e + if e = service then 1 else 0 := by
  obtain ⟨_, _, hsent, hroom⟩ := acquire_spec h hs
  unfold balance
  rw [hroom, hsent]
  simp only [Admission.Room.acquire]
  split_ifs <;> omega

/-- A service that is hosted can always be released: nothing on the way ends the process. -/
theorem release_exists {s : Server} (h : s.Wf config) {service : Bytes}
    (he : service ∈ config.hosted) (now_ts : BitVec 64) :
    ∃ s', s.release service now_ts = .ok s' := by
  obtain ⟨c, hc⟩ := Counters.decrement_in_flight_exists h.queue.counters he
  have hq : s.credit_queue.decrement_in_flight service
      = .ok { s.credit_queue with counters := c } := by
    unfold CreditQueue.decrement_in_flight; rw [hc]; rfl
  obtain ⟨_, hwf, _, _⟩ := CreditQueue.decrement_in_flight_spec h.queue hq
  obtain ⟨_, r, q, _, hpop, _⟩ := CreditQueue.pop_spec hwf
  unfold release check_credit_transmission
  rw [hq, ok_bind]
  dsimp only
  rw [hpop, ok_bind]
  cases r with
  | none => exact ⟨_, rfl⟩
  | some buffer => exact ⟨_, rfl⟩

theorem acquire_exists {s : Server} (h : s.Wf config) {service : Bytes}
    (he : service ∈ config.hosted) : ∃ s', s.acquire service = .ok s' := by
  obtain ⟨c, hc⟩ := Counters.increment_in_flight_exists h.queue.counters he
  exact ⟨_, by unfold acquire CreditQueue.increment_in_flight; rw [hc]; rfl⟩

/-- A Credit Request leaves the balance alone, a Credit Return takes one off it. -/
theorem protocol_server_balance {s s' : Server} (h : s.Wf config) {req : Buffer} {env : Env}
    (hdispatch : dispatch_rlp_recv req = .ok .protocol_server)
    (hs : s.protocol_server config env req = .ok s') (e : Bytes) :
    s'.balance e = s.balance e
      - if read_server_message req = .ok (.credit_return e) then 1 else 0 := by
  obtain ⟨_, mid, hmid, hsent, heffect, hend⟩ := protocol_server_spec h hdispatch hs
  have hbalance : s'.balance e = mid.balance e := Checked.balance_eq hmid hend e
  rw [hbalance]
  unfold balance
  rw [hsent]
  generalize hr : mid.room = r at heffect
  cases heffect with
  | request _ _ service id priority rtt p resp hread hp he =>
      have hsame := (sampleRoom_waiting config env.ratio service s).2.1
      rw [hread]
      simp [Admission.Room.active_enqueue, hsame]
  | credit_return _ _ service hread he =>
      rw [hread]
      by_cases hs : e = service
      · subst hs; simp [Admission.Room.release]; omega
      · simp [Admission.Room.release, hs, Ne.symm hs]

end Server

end RlpSidecar
