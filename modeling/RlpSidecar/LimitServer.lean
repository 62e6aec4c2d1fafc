/-
**The two views of `update_limits`** (`state.cc`).

The server side of the protocol is modelled with exact integers and takes the rounded quotient of
two averages from outside (`Server.update_limits`), since its safety holds whatever the quotient
is. The averages themselves, and everything of `update_limits` that can be undefined, are modelled
apart (`LimitState.update_limits`). Here the two are put together: as long as the limits are well
defined, the server that is given the quotient of the averages does what the averages say, so that
whatever is proved of the server for every quotient holds with the one that is measured.

`Mirrors` relates the two states, and is kept by one request (`update_limits`) and along a whole
history (`mirrored_history`). The quotients that the server is given are the rounded ones of the
averages, one for each request, and what the two have in common, the sample counts and the limits,
is equal throughout.
-/
import RlpSidecar.LimitSoundness
import RlpSidecar.ServerSpec

set_option autoImplicit false

namespace RlpSidecar

variable {config : LimitSettings} {service : Bytes} {rtt : Sample}

/-- A server and the averages behind its limits: the sample counts are those of the averages of
the RTT, and the limits in its queue are those that the averages have led to. The global limit is
compared on a leaf only, where it is ever computed again. -/
structure Mirrors (config : LimitSettings) (s : LimitState) (v : Server) : Prop where
  queue : v.credit_queue.Wf config.hosted
  samples : v.rtt_count.Hosts config.hosted
  count : ∀ service ∈ config.hosted,
    v.rtt_count.lookup service = some (s.stats.ema_us_sidecar_rtt_us service).count
  limit : ∀ service ∈ config.hosted, v.credit_queue.view.cap service = s.per_endpoint_limit service
  global : config.routing.length = 0 → v.credit_queue.view.totalCap = s.global_limit

namespace Mirrors

/-- At the start both have the limits of the constructor of the queue, if the tables were built
for the hosted services with no sample in them. -/
theorem start {s : LimitState} {v : Server} {counts : LocalMap (BitVec 32)}
    (hne : config.hosted ≠ []) (hcounts : counts.Hosts config.hosted)
    (hzero : ∀ service ∈ config.hosted, counts.lookup service = some 0)
    (hs : LimitState.start config = .ok s) (hv : Server.start config.server counts = .ok v) :
    Mirrors config s v := by
  obtain ⟨queue, hqueue, hv⟩ := bind_eq_ok.mp hv
  obtain rfl := Except.ok.inj hv
  have hfresh : CreditQueue.Fresh config.server.limits config.hosted queue :=
    CreditQueue.create_spec hne hqueue
  obtain ⟨hstats, hlimits, -, -⟩ := LimitState.start_spec hs
  refine ⟨hfresh.wf, hcounts, fun service hmem => ?_, fun service hmem => ?_, fun hleaf => ?_⟩
  · rw [hzero service hmem, hstats]
    rfl
  · rw [hlimits]
    exact hfresh.cap service hmem
  · -- The two starts compute the global limit from the same numbers; the queue's only at a leaf.
    rw [hfresh.totalCap]
    unfold CreditQueue.initialGlobalLimit
    rw [if_pos (show config.server.limits.leaf = true from decide_eq_true hleaf)]
    unfold LimitState.start at hs
    simp only [bind_eq_ok, int32, SignedInt.fit_eq_ok_iff] at hs
    obtain ⟨_, ⟨-, rfl⟩, _, ⟨-, rfl⟩, _, ⟨-, rfl⟩, hs⟩ := hs
    rw [if_pos hleaf] at hs
    simp only [bind_eq_ok, SignedInt.fit_eq_ok_iff] at hs
    obtain ⟨_, ⟨-, rfl⟩, _, ⟨-, rfl⟩, _, ⟨-, rfl⟩, hok⟩ := hs
    obtain rfl := Except.ok.inj hok
    rfl

/-- One more sample of a hosted service is counted. -/
theorem counted {s : LimitState} {v : Server} (h : Mirrors config s v)
    (hmem : service ∈ config.hosted) (rtt : Sample) :
    v.rtt_count.get service = .ok (s.stats.ema_us_sidecar_rtt_us service).count
      ∧ ∃ counts, v.rtt_count.set service ((s.stats.ema_us_sidecar_rtt_us service).count + 1)
        = .ok counts
        ∧ counts.Hosts config.hosted
        ∧ ∀ other ∈ config.hosted,
          counts.lookup other = some ((s.noted service rtt).ema_us_sidecar_rtt_us other).count := by
  refine ⟨LocalMap.get_eq_ok.mpr (h.count service hmem), ?_⟩
  obtain ⟨counts, hset⟩ := h.samples.modify_exists hmem
    fun _ => (s.stats.ema_us_sidecar_rtt_us service).count + 1
  obtain ⟨-, hhosts, hlookup, -, -⟩ := h.samples.modify hset
  refine ⟨counts, hset, hhosts, fun other hother => ?_⟩
  rw [hlookup]
  unfold LimitState.noted
  dsimp only
  by_cases heq : other = service
  · subst heq
    rw [if_pos rfl, h.count other hmem, Function.update_self]
    rfl
  · rw [if_neg heq, h.count other hother, Function.update_of_ne heq]

/-- The limits of the server, computed again. -/
theorem recomputed {v : Server} (h : v.credit_queue.Wf config.hosted) {info : MappingInfo}
    (hfind : config.find service = some info) (ratio : ℤ) :
    ∃ queue, Server.recompute_limits config.server ratio service v.credit_queue = .ok queue := by
  have hvalid : CreditQueue.Op.Valid config.hosted
      (.update_endpoint_limit (Server.newEndpointLimit config.server info ratio)
        service : CreditQueue.Op Buffer) :=
    LimitSettings.mem_hosted hfind
  obtain ⟨_, queue, hqueue⟩ := CreditQueue.apply_total h hvalid
  obtain ⟨queue, hupdate, -⟩ := bind_eq_ok.mp hqueue
  obtain ⟨-, hwf, -, -, -⟩ := CreditQueue.update_endpoint_limit_spec h hupdate
  unfold Server.recompute_limits
  rw [show config.server.find service = some info from hfind]
  dsimp only
  rw [hupdate, ok_bind]
  split_ifs
  · rw [Server.mapM_limits hwf (l := config.server.hosted) fun _ he => he]
    exact ⟨_, rfl⟩
  · exact ⟨_, rfl⟩

/-- **One request.** Where its limits are well defined, the server that is given the quotient of
the averages has the same limits afterwards. -/
theorem update_limits {s s' : LimitState} {v : Server} (h : Mirrors config s v)
    (hsound : s.Sound config service rtt)
    (hs : LimitState.update_limits config rtt service s = .ok s') :
    ∃ ratio v', v.update_limits config.server ratio service = .ok v' ∧ v'.sent = v.sent
      ∧ Mirrors config s' v' := by
  have hupdate := hs
  obtain ⟨m, hm, hs⟩ := bind_eq_ok.mp hs
  obtain ⟨hmem, rfl⟩ := AverageMap.update_eq_ok_iff.mp hm
  obtain ⟨info, hfind⟩ := LimitState.exists_find hmem
  obtain ⟨hget, counts, hset, hhosts, hcounts⟩ := h.counted hmem rtt
  by_cases hdue : s.Due service
  · obtain ⟨local_rt, theo_term, s'', -, -, hupdate', -, -, hlimits, -, hglobal⟩ :=
      hsound info hfind hdue
    obtain rfl := Except.ok.inj (hupdate.symm.trans hupdate')
    obtain ⟨_, _, _, -, -, -, hstats, -, -⟩ :=
      (LimitState.update_limits_of_due hfind hdue).mp hupdate
    obtain ⟨queue, hqueue⟩ := recomputed h.queue hfind ⌈theo_term / local_rt⌉
    obtain ⟨info', hfind', hwf, hview⟩ := 
      Server.recompute_limits_spec (show v.credit_queue.Wf config.server.hosted from h.queue) hqueue
    obtain rfl := Option.some.inj (hfind.symm.trans hfind')
    refine ⟨⌈theo_term / local_rt⌉, { v with rtt_count := counts, credit_queue := queue },
      ?_, rfl, ?_⟩
    · unfold Server.update_limits
      rw [hget, ok_bind, hset, ok_bind]
      dsimp only
      rw [if_pos (show ((s.stats.ema_us_sidecar_rtt_us service).count + 1).toNat % 2000 = 0
        from hdue), hqueue]
      rfl
    -- the limits of the services, and from them the global one
    have hcap : ∀ us ∈ config.hosted, (v.credit_queue.view.setCap service
        (Server.newEndpointLimit config.server info ⌈theo_term / local_rt⌉)).cap us
          = s'.per_endpoint_limit us := by
      intro us hus
      rw [hlimits]
      unfold Admission.Room.setCap
      dsimp only
      by_cases heq : us = service
      · rw [if_pos heq, heq, Function.update_self]
      · rw [if_neg heq, Function.update_of_ne heq]
        exact h.limit us hus
    refine ⟨hwf, hhosts, ?_, fun us hus => ?_, fun hleaf => ?_⟩
    · rw [hstats]
      exact hcounts
    · dsimp only
      rw [hview]
      split_ifs
      · exact hcap us hus
      · exact hcap us hus
    · dsimp only
      rw [hview, if_pos (show config.server.limits.leaf = true from decide_eq_true hleaf),
        (hglobal hleaf).1]
      show Server.combineLimits config.server (config.hosted.map _) = _
      rw [List.map_congr_left hcap]
  · rw [Function.update_self] at hs
    rw [if_neg (show ¬ ((s.stats.ema_us_sidecar_rtt_us service).update rtt).count.toNat % 2000 = 0
      from hdue)] at hs
    obtain rfl := Except.ok.inj hs
    refine ⟨0, { v with rtt_count := counts }, ?_, rfl, h.queue, hhosts, hcounts, h.limit, h.global⟩
    unfold Server.update_limits
    rw [hget, ok_bind, hset, ok_bind]
    exact if_neg hdue

/-- The other measurements leave the limits, and the RTTs that are counted, alone. -/
theorem measured {s s' : LimitState} {v : Server} (h : Mirrors config s v) {event : LimitEvent}
    (hevent : ∀ service rtt, event ≠ .credit_request service rtt)
    (hs : s.apply config event = .ok s') :
    Mirrors config s' v := by
  cases event with
  | credit_request service rtt => exact absurd rfl (hevent service rtt)
  | us_service_time service us =>
      obtain ⟨m, -, hok⟩ := bind_eq_ok.mp hs
      obtain rfl := Except.ok.inj hok
      exact ⟨h.queue, h.samples, h.count, h.limit, h.global⟩
  | ds_service_time service us =>
      obtain ⟨m, -, hok⟩ := bind_eq_ok.mp hs
      obtain rfl := Except.ok.inj hok
      exact ⟨h.queue, h.samples, h.count, h.limit, h.global⟩
  | wait_to_tx service us =>
      obtain ⟨m, -, hok⟩ := bind_eq_ok.mp hs
      obtain rfl := Except.ok.inj hok
      exact ⟨h.queue, h.samples, h.count, h.limit, h.global⟩
  | ds_sidecar_rtt service rtt =>
      obtain ⟨m, -, hok⟩ := bind_eq_ok.mp hs
      obtain rfl := Except.ok.inj hok
      exact ⟨h.queue, h.samples, h.count, h.limit, h.global⟩

end Mirrors

/-- The services whose requests are in a history, in their order. -/
def requestsOf (history : List LimitEvent) : List Bytes :=
  history.filterMap fun
    | .credit_request service _ => some service
    | _ => none

/-- The samples of some services, each with a quotient. -/
def Server.sampleAll (config : ServerConfig) (samples : List (Bytes × ℤ))
    (v : Server) : Except Abort Server :=
  samples.foldlM (fun v x => v.update_limits config x.2 x.1) v

/-- **A whole history**, from the start of a sidecar. Where every limit in it is well defined,
there is a quotient for each of its requests with which the server ends with the limits of the
history. The induction is on the history from its end, since what is well defined is said of the
state before each request. -/
theorem mirrored_history {history : List LimitEvent} {s₀ s : LimitState} {v₀ : Server}
    {counts : LocalMap (BitVec 32)} (hne : config.hosted ≠ [])
    (hcounts : counts.Hosts config.hosted)
    (hzero : ∀ service ∈ config.hosted, counts.lookup service = some 0)
    (hstart : LimitState.start config = .ok s₀)
    (hserver : Server.start config.server counts = .ok v₀)
    (hsound : LimitState.SoundAlong config history)
    (hreaches : LimitState.Reaches config history s) :
    ∃ samples v, samples.map Prod.fst = requestsOf history
      ∧ v₀.sampleAll config.server samples = .ok v
      ∧ v.sent = v₀.sent ∧ Mirrors config s v := by
  have h₀ := Mirrors.start hne hcounts hzero hstart hserver
  -- On the history from its end: the last event is applied to two states that agree.
  induction history using List.reverseRecOn generalizing s with
  | nil =>
      obtain ⟨s₁, hs₁, hs⟩ := hreaches
      obtain rfl := Except.ok.inj (hstart.symm.trans hs₁)
      obtain rfl := Except.ok.inj hs
      exact ⟨[], v₀, rfl, rfl, rfl, h₀⟩
  | append_singleton earlier event ih =>
      obtain ⟨s₁, hearlier, happly⟩ := LimitState.Reaches.append.mp hreaches
      have hbefore : LimitState.SoundAlong config earlier := by
        intro before service rtt s hpre
        exact hsound before service rtt s (hpre.trans (List.prefix_append _ _))
      obtain ⟨samples, v, hrequests, hrun, hsent, hmirrors⟩ := ih hbefore hearlier
      unfold requestsOf at hrequests ⊢
      rw [List.filterMap_append]
      -- Only a Credit Request moves the limits; every other event is a measurement.
      by_cases hevent : ∀ service rtt, event ≠ .credit_request service rtt
      · refine ⟨samples, v, ?_, hrun, hsent, hmirrors.measured hevent happly⟩
        rw [hrequests]
        cases event with
        | credit_request service rtt => exact absurd rfl (hevent service rtt)
        | _ => exact (List.append_nil _).symm
      · simp only [not_forall, not_not] at hevent
        obtain ⟨service, rtt, rfl⟩ := hevent
        obtain ⟨ratio, v', hstep, hsent', hmirrors'⟩ :=
          hmirrors.update_limits
            (hsound earlier service rtt s₁ (List.prefix_refl _) hearlier) happly
        refine ⟨samples ++ [(service, ratio)], v', ?_, ?_, hsent'.trans hsent, hmirrors'⟩
        · rw [List.map_append, hrequests]
          rfl
        · unfold Server.sampleAll at hrun ⊢
          rw [List.foldlM_append, hrun, ok_bind]
          exact bind_eq_ok.mpr ⟨v', hstep, rfl⟩

end RlpSidecar
