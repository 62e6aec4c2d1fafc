/-
**When the limits are well defined** (`state.cc`, `update_limits`).

Between two computations the averages change one at a time, so nothing keeps the averaged time of
the application above what the downstream services took of it, and before the first response is
measured it is zero. What holds is an equivalence: in every history the limits are well defined if
and only if, each time they are computed, the service takes longer than its downstream services,
and the averaged RTTs are not longer than so many times this difference as there is room below `2 ^
31`.

`limits_sound_iff` is about every history, in exact arithmetic, with no assumption on the
measurements. Two consequences are in plain terms: a limit that is well defined was computed after
a response that took some time (`response_of_soundAlong`), so two thousand requests before the
first response divide by zero (`limits_before_responses`).
-/
import RlpSidecar.LimitUpdates

set_option autoImplicit false

namespace RlpSidecar

open SignedInt (Fits)

/-! ## Loops over the downstream services -/

/-- A loop that looks a value up in each step is a loop over the values, if all of them are
there. -/
theorem foldlM_lookup_eq_ok_iff {ι : Type} {f : ι → Except Abort ℚ} {p : ι → Prop} {val : ι → ℚ}
    (hf : ∀ i v, f i = .ok v ↔ p i ∧ v = val i) (g : ℚ → ℚ → ℚ) {l : List ι} {a r : ℚ} :
    l.foldlM (fun a i => do
      let v ← f i
      .ok (g a v)) a = .ok r ↔ (∀ i ∈ l, p i) ∧ r = l.foldl (fun a i => g a (val i)) a := by
  induction l generalizing a with
  | nil =>
      rw [List.foldlM_nil, List.foldl_nil]
      constructor
      · intro h
        exact ⟨fun i hi => (nomatch hi), (Except.ok.inj h).symm⟩
      · intro h
        rw [h.2]
        rfl
  | cons i l ih =>
      rw [List.foldlM_cons, List.foldl_cons, bind_eq_ok, List.forall_mem_cons]
      constructor
      · rintro ⟨a', hstep, hrest⟩
        obtain ⟨v, hv, hok⟩ := bind_eq_ok.mp hstep
        obtain ⟨hp, rfl⟩ := (hf i v).mp hv
        obtain rfl := Except.ok.inj hok
        obtain ⟨hall, rfl⟩ := ih.mp hrest
        exact ⟨⟨hp, hall⟩, rfl⟩
      · rintro ⟨⟨hp, hall⟩, rfl⟩
        refine ⟨g a (val i), ?_, ih.mpr ⟨hall, rfl⟩⟩
        rw [(hf i (val i)).mpr ⟨hp, rfl⟩]
        rfl

namespace LimitStats

variable (stats : LimitStats)

/-- The averaged time of a call of a downstream service, from when its request arrives until it is
answered. -/
def callTime (ds_service : Bytes) : ℚ :=
  (stats.ema_ds_service_time_us ds_service).value + (stats.ema_wait_to_tx_us ds_service).value

/-- The part of the time of a service that its downstream services take: the longest call if they
are called at the same time, the shortest one if one of them is called, and all of them together
otherwise. -/
def downstreamTime (info : MappingInfo) : ℚ :=
  if info.pfanout then (info.downstreams.map stats.callTime).foldl max 0
  else if info.dfanout then (info.downstreams.map stats.callTime).foldl min maxFloat
  else (info.downstreams.map stats.callTime).sum

/-- The time that a service spends itself, without that of its downstream services. -/
def ownTime (service : Bytes) (info : MappingInfo) : ℚ :=
  (stats.ema_us_service_time_us service).value - stats.downstreamTime info

/-- The RTT to the upstream sidecar, and those to the downstream sidecars: all of them if they are
called one after the other, and the longest one otherwise. -/
def rttTerm (config : LimitSettings) (service : Bytes) (info : MappingInfo) : ℚ :=
  let rtts := config.routing.map fun ds => (stats.ema_ds_sidecar_rtt_us ds).value
  (stats.ema_us_sidecar_rtt_us service).value
    + if info.pfanout || info.dfanout then rtts.foldl max 0 else rtts.sum

end LimitStats

section Terms

variable {config : LimitSettings} {stats : LimitStats} {service : Bytes} {info : MappingInfo}

theorem downstream_value_eq_ok_iff {ds : Bytes} {v : ℚ} :
    downstream_value config stats ds = .ok v ↔ ds ∈ config.routing ∧ v = stats.callTime ds := by
  unfold downstream_value
  rw [bind_eq_ok]
  constructor
  · rintro ⟨a, ha, h⟩
    obtain ⟨b, hb, h⟩ := bind_eq_ok.mp h
    obtain ⟨hds, rfl⟩ := AverageMap.get_eq_ok_iff.mp ha
    obtain ⟨-, rfl⟩ := AverageMap.get_eq_ok_iff.mp hb
    exact ⟨hds, (Except.ok.inj h).symm⟩
  · rintro ⟨hds, rfl⟩
    refine ⟨_, AverageMap.get_eq_ok_iff.mpr ⟨hds, rfl⟩, ?_⟩
    rw [AverageMap.get_eq_ok_iff.mpr ⟨hds, rfl⟩]
    rfl

/-- When the downstream services take less than `us`, for each of the three ways of calling them. -/
theorem downstreamTime_lt_iff {us : ℚ} : stats.downstreamTime info < us
    ↔ if info.pfanout then 0 < us ∧ ∀ ds ∈ info.downstreams, stats.callTime ds < us
      else if info.dfanout then maxFloat < us ∨ ∃ ds ∈ info.downstreams, stats.callTime ds < us
      else (info.downstreams.map stats.callTime).sum < us := by
  unfold LimitStats.downstreamTime
  split_ifs
  · rw [Averages.foldl_max_lt_iff, List.forall_mem_map]
  · rw [Averages.foldl_min_lt_iff]
    simp only [List.mem_map, exists_exists_and_eq_and]
  · exact Iff.rfl

/-- A service that is in the mapping is hosted, so there are averages of it. -/
theorem LimitSettings.mem_hosted (h : config.find service = some info) :
    service ∈ config.hosted := by
  obtain ⟨l₁, l₂, hl, -⟩ := List.lookup_eq_some_iff.mp h
  unfold LimitSettings.hosted
  rw [hl, List.map_append, List.map_cons]
  exact List.mem_append_right _ List.mem_cons_self

/-- What `cal_local_service_time` computes, and when it does: every downstream service must have a
measurement, which the routed ones have. -/
theorem cal_local_service_time_eq_ok_iff (h : config.find service = some info) {r : ℚ} :
    cal_local_service_time config stats service = .ok r
      ↔ (∀ ds ∈ info.downstreams, ds ∈ config.routing) ∧ r = stats.ownTime service info := by
  have hloop := fun g l a r =>
    foldlM_lookup_eq_ok_iff (@downstream_value_eq_ok_iff config stats) g (l := l) (a := a) (r := r)
  -- The three modes differ in how the downstream times are taken together, and all subtract them.
  have hsub : ∀ {x : Except Abort ℚ} {y us : ℚ} {p : Prop}, (∀ v, x = .ok v ↔ p ∧ v = y) →
      ((do let v ← x; .ok (us - v) : Except Abort ℚ) = .ok r ↔ p ∧ r = us - y) := by
    intro x y us p hx
    rw [bind_eq_ok]
    constructor
    · rintro ⟨v, hv, hok⟩
      obtain ⟨hp, rfl⟩ := (hx v).mp hv
      exact ⟨hp, (Except.ok.inj hok).symm⟩
    · rintro ⟨hp, rfl⟩
      exact ⟨y, (hx y).mpr ⟨hp, rfl⟩, rfl⟩
  unfold cal_local_service_time LimitStats.ownTime LimitStats.downstreamTime
  rw [h]
  dsimp only
  rw [AverageMap.get_eq_ok_iff.mpr ⟨LimitSettings.mem_hosted h, rfl⟩, ok_bind]
  split_ifs
  · apply hsub
    intro v
    rw [hloop, Averages.foldl_larger]
  · apply hsub
    intro v
    rw [hloop, Averages.foldl_smaller]
  · apply hsub
    intro v
    rw [hloop, List.sum_eq_foldl, List.foldl_map]

/-- What `get_theo_term` computes: the RTT of the service, and those of the services that it
calls. -/
theorem get_theo_term_eq (h : config.find service = some info) :
    get_theo_term config stats service (!info.pfanout && !info.dfanout)
      = .ok (stats.rttTerm config service info) := by
  unfold get_theo_term LimitStats.rttTerm
  rw [AverageMap.get_eq_ok_iff.mpr ⟨LimitSettings.mem_hosted h, rfl⟩, ok_bind, ← Bool.not_or]
  dsimp only
  cases hfanout : (info.pfanout || info.dfanout) with
  | true =>
      rw [if_neg (by decide), if_pos rfl, Averages.foldl_larger]
  | false =>
      rw [if_pos (by decide), if_neg (by decide), ← List.sum_cons, List.sum_eq_foldl,
        List.foldl_cons, zero_add,
        List.foldl_map]

end Terms

/-! ## The new limits -/

namespace LimitSettings

variable (config : LimitSettings)

/-- The configuration of the server side, as the model of the handlers takes it. -/
def server : ServerConfig where
  limits :=
    { cpu_count := config.cpu_count
      extra_limit := config.extra_limit
      leaf := config.routing.length = 0
      over_commit := fun n => truncate (n * config.over_commitment) }
  mapping := config.mapping

/-- What the number of downstream services adds to the limit of a service. -/
def calls (info : MappingInfo) : ℤ := if info.dfanout then 0 else info.downstreams.length

variable {config} {info : MappingInfo} {ratio : ℤ}

theorem newEndpointLimit_server : Server.newEndpointLimit config.server info ratio
    = (max ratio 1 + 1) * config.cpu_count + (calls info + config.extra_limit) := by
  rw [← add_assoc]
  rfl

end LimitSettings

section NewLimits

variable {config : LimitSettings} {info : MappingInfo} {ratio : ℤ}

/-- Adding an unsigned number keeps the value exactly if the sum fits. -/
theorem bmod_eq_self_iff {z : ℤ} : Int.bmod z (2 ^ 32) = z ↔ Fits z := by
  constructor
  · intro h
    have hlow := Int.le_bmod (x := z) (m := 2 ^ 32) (by decide)
    have hhigh := Int.bmod_lt (x := z) (m := 2 ^ 32) (by decide)
    rw [h] at hlow hhigh
    exact ⟨hlow, hhigh⟩
  · intro h
    exact Int.bmod_eq_of_le h.1 h.2

/-- **When the new limit of an endpoint is well defined**: if there is room for it, with what is
added to it. -/
theorem new_endpoint_limit_eq_ok_iff :
    new_endpoint_limit config info ratio = .ok (Server.newEndpointLimit config.server info ratio)
      ↔ (max ratio 1 + 1) * config.cpu_count + (LimitSettings.calls info + max config.extra_limit 0)
          ≤ 2 ^ 31 - 1 := by
  have hcpu := config.cpu_count_pos
  have hextra := config.extra_limit_fits
  have hgrown : max ratio 1 + 1 ≤ (max ratio 1 + 1) * config.cpu_count := by
    nlinarith [le_max_right ratio 1]
  have hcalls : 0 ≤ LimitSettings.calls info := by unfold LimitSettings.calls; split_ifs <;> omega
  have hvalue := @LimitSettings.newEndpointLimit_server config info ratio
  generalize hproduct : (max ratio 1 + 1) * config.cpu_count = product at hgrown hvalue ⊢
  have hone : 2 ≤ max ratio 1 + 1 := by omega
  -- the number of downstream services is added without a check, and must not change anything else
  have hwrap : (if info.dfanout then product
      else Int.bmod (product + info.downstreams.length) (2 ^ 32))
      = product + LimitSettings.calls info ↔ info.dfanout = true
        ∨ Fits (product + LimitSettings.calls info) := by
    unfold LimitSettings.calls
    split_ifs with hd
    · simp [hd]
    · rw [bmod_eq_self_iff]
      simp [hd]
  have hzero : info.dfanout = true → LimitSettings.calls info = 0 := fun hd => if_pos hd
  unfold new_endpoint_limit
  rw [hvalue]
  simp only [bind_eq_ok, int32, SignedInt.fit_eq_ok_iff]
  unfold SignedInt.Fits at *
  constructor
  · rintro ⟨_, ⟨hgrown_fits, rfl⟩, _, ⟨hproduct_fits, rfl⟩, hlimit, heq⟩
    rw [hproduct] at hproduct_fits hlimit heq
    have hsum := hwrap.mp (by omega)
    rcases hsum with hd | hsum
    · have := hzero hd
      omega
    · omega
  · intro h
    refine ⟨_, ⟨by omega, rfl⟩, _, ⟨by rw [hproduct]; omega, rfl⟩, ?_⟩
    rw [hproduct, hwrap.mpr (Or.inr (by omega))]
    omega

/-- No limit is below the one of the start, which is the smallest there can be, and the constructor
of the queue has computed what all of them add up to. -/
structure Moderate (config : LimitSettings) (limits : Bytes → ℤ) : Prop where
  floor : ∀ us ∈ config.hosted, config.cpu_count * 2 + config.extra_limit ≤ limits us
  cap : ∀ us ∈ config.hosted, limits us ≤ 2 ^ 31 - 1
  total : -2 ^ 31 ≤ (config.cpu_count * 2 + config.extra_limit) * config.hosted.length

/-- **When the new global limit is well defined**: if no part of the sum of the limits gets too
large. -/
theorem new_global_limit_eq_ok_iff {limits : Bytes → ℤ} (hlimits : Moderate config limits) {g : ℤ} :
    new_global_limit config limits = .ok g
      ↔ (∀ p, p <+: config.hosted.map limits → p.sum ≤ 2 ^ 31 - 1)
        ∧ g = Server.combineLimits config.server (config.hosted.map limits) := by
  set l := config.hosted.map limits with hl
  -- a bound that is not positive, so that leaving summands out does not get below it
  set b := min (config.cpu_count * 2 + config.extra_limit) 0 with hb
  have hb₀ : b ≤ 0 := min_le_right _ _
  have hfloor : ∀ x ∈ l, b ≤ x := by
    intro x hx
    obtain ⟨us, hus, rfl⟩ := List.mem_map.mp hx
    exact le_trans (min_le_left _ _) (hlimits.floor us hus)
  have hcap : ∀ x ∈ l, x < 2 ^ 31 := by
    intro x hx
    obtain ⟨us, hus, rfl⟩ := List.mem_map.mp hx
    have := hlimits.cap us hus
    omega
  have htotal : -2 ^ 31 ≤ l.length * b := by
    rw [hl, List.length_map, mul_comm, hb]
    rcases min_cases (config.cpu_count * 2 + config.extra_limit) 0 with ⟨hmin, -⟩ | ⟨hmin, -⟩
    · rw [hmin]
      exact hlimits.total
    · rw [hmin, zero_mul]
      norm_num
  have hmax : config.hosted.foldl (fun max us => if limits us > max then limits us else max) 0
      = l.foldl max 0 :=
    Averages.foldl_larger limits config.hosted 0
  have hmax₀ : 0 ≤ l.foldl max 0 := Averages.le_foldl_max l 0
  have hmax_lt : l.foldl max 0 < 2 ^ 31 := Averages.foldl_max_lt_iff.mpr ⟨by norm_num, hcap⟩
  have hsum_foldl : l.foldl (· + ·) 0 = l.sum := (List.sum_eq_foldl).symm
  unfold new_global_limit
  simp only [bind_eq_ok, int32, SignedInt.fit_eq_ok_iff, SignedInt.foldlM_fit_eq_ok_iff, ← hl, hmax]
  constructor
  · rintro ⟨_, ⟨hparts, rfl⟩, _, ⟨-, rfl⟩, _, ⟨-, rfl⟩, -, rfl⟩
    refine ⟨?_, ?_⟩
    · intro p hp
      by_cases hnil : p = []
      · rw [hnil]
        decide
      · have hfits := hparts p hp hnil
        unfold SignedInt.Fits at hfits
        omega
    · unfold Server.combineLimits
      rw [hsum_foldl, zero_add]
      rfl
  · rintro ⟨hparts, rfl⟩
    have hsum := hparts l (List.prefix_refl l)
    have hothers := SignedInt.length_mul_le_sum_sub_max (a := 0) (by omega) hfloor
    have hshare := truncate_mul_mem (n := l.sum - l.foldl max 0) config.over_commitment_nonneg
      config.over_commitment_le_one
    have hparts_fit : ∀ p, p <+: l → p ≠ [] → Fits (0 + p.sum) := by
      intro p hp _
      have hlow := SignedInt.length_mul_le_sum_of_prefix hb₀ hfloor hp
      have hhigh := hparts p hp
      unfold SignedInt.Fits
      omega
    refine ⟨_, ⟨hparts_fit, rfl⟩, _, ⟨?_, rfl⟩, _, ⟨?_, rfl⟩, ?_, ?_⟩
    · unfold SignedInt.Fits
      omega
    · rw [zero_add]
      unfold SignedInt.Fits
      omega
    · rw [zero_add]
      unfold SignedInt.Fits
      omega
    · unfold Server.combineLimits
      rw [hsum_foldl, zero_add]
      rfl

/-- A global limit that is computed fits into its type: a sum that does not is an error. -/
theorem fits_of_new_global_limit {limits : Bytes → ℤ} {g : ℤ}
    (h : new_global_limit config limits = .ok g) :
    Fits g := by
  unfold new_global_limit at h
  simp only [bind_eq_ok, int32, SignedInt.fit_eq_ok_iff] at h
  obtain ⟨_, -, _, -, _, -, hfits, rfl⟩ := h
  exact hfits

end NewLimits

/-! ## Well defined, and supported by the measurements -/

namespace LimitState

variable (config : LimitSettings) (service : Bytes) (rtt : Sample) (s : LimitState)

/-- The averages with the RTT of one more request, which is noted before anything is computed. -/
def noted : LimitStats :=
  { s.stats with
    ema_us_sidecar_rtt_us := Function.update s.stats.ema_us_sidecar_rtt_us service
      ((s.stats.ema_us_sidecar_rtt_us service).update rtt) }

/-- The next request of the service has its limit computed: it is the 2000th, or a multiple of
it. -/
def Due : Prop := ((s.stats.ema_us_sidecar_rtt_us service).count + 1).toNat % 2000 = 0

/-- **The limits are well defined** when this request comes: if they are computed, the divisor is
positive, and the rounded quotient, the limit of the endpoint and, on a leaf, the global limit fit,
each with the value that exact integers give it. -/
def Sound : Prop :=
  ∀ info, config.find service = some info → s.Due service →
    ∃ local_rt theo_term s',
      cal_local_service_time config (s.noted service rtt) service = .ok local_rt
      ∧ get_theo_term config (s.noted service rtt) service (!info.pfanout && !info.dfanout)
        = .ok theo_term
      ∧ update_limits config rtt service s = .ok s'
      -- the quotient is by a positive number, and everything fits into 32 bits
      ∧ 0 < local_rt
      ∧ Fits ⌈theo_term / local_rt⌉
      ∧ s'.per_endpoint_limit
          = Function.update s.per_endpoint_limit service
            (Server.newEndpointLimit config.server info ⌈theo_term / local_rt⌉)
      ∧ Fits (Server.newEndpointLimit config.server info ⌈theo_term / local_rt⌉)
      ∧ (config.routing.length = 0 →
          s'.global_limit = Server.combineLimits config.server
          (config.hosted.map s'.per_endpoint_limit)
          ∧ Fits s'.global_limit)

/-- With `extra` on top of it, a limit for the RTTs `theo_term` and the time `local_rt` stays below
`2 ^ 31`: the smallest limit does, and the RTTs are not longer than as many times `local_rt` as
there is room for. -/
def RoomFor (extra : ℤ) (theo_term local_rt : ℚ) : Prop :=
  2 * config.cpu_count + extra ≤ 2 ^ 31 - 1
    ∧ theo_term ≤ (((2 ^ 31 - 1 - extra) / config.cpu_count - 1 : ℤ) : ℚ) * local_rt

/-- What a limit that is computed now rests on: routes, measured times and room in the types. -/
structure SupportedBy (info : MappingInfo) : Prop where
  /-- Every downstream service of the service has a route, and so a measurement. -/
  routed : ∀ ds ∈ info.downstreams, ds ∈ config.routing
  /-- On average the service takes longer than what its downstream services take of it. -/
  slower : s.stats.downstreamTime info < (s.stats.ema_us_service_time_us service).value
  /-- The RTTs are short enough for the limit of the endpoint. -/
  endpoint : RoomFor config (LimitSettings.calls info + max config.extra_limit 0)
    ((s.noted service rtt).rttTerm config service info) (s.stats.ownTime service info)
  /-- On a leaf they are short enough for the sum with the limits of the other services. -/
  sum : config.routing.length = 0 → ∀ before after rest, config.hosted
    = before ++ service :: (after ++ rest) →
    RoomFor config (((before ++ after).map s.per_endpoint_limit).sum + config.extra_limit)
      ((s.noted service rtt).rttTerm config service info) (s.stats.ownTime service info)

/-- **The measurements support the limits** when this request comes, or no limit is computed at
it. -/
def Supported : Prop :=
  ∀ info, config.find service = some info → s.Due service → s.SupportedBy config service rtt info

/-- What every history keeps as long as its limits are well defined. -/
structure Consistent : Prop where
  rtt : s.stats.ema_us_sidecar_rtt_us.Nonneg
  service_time : s.stats.ema_us_service_time_us.Nonneg
  ds_service_time : s.stats.ema_ds_service_time_us.Nonneg
  wait : s.stats.ema_wait_to_tx_us.Nonneg
  ds_rtt : s.stats.ema_ds_sidecar_rtt_us.Nonneg
  moderate : Moderate config s.per_endpoint_limit
  parts : config.routing.length = 0 → ∀ p, p <+: config.hosted.map s.per_endpoint_limit →
    p.sum ≤ 2 ^ 31 - 1

variable {config service rtt s}

theorem noted_rtt : (s.noted service rtt).ema_us_sidecar_rtt_us service
    = (s.stats.ema_us_sidecar_rtt_us service).update rtt :=
  Function.update_self _ _ _

/-- The RTT that comes with the request changes no other average, and so not the time of the
service itself. -/
theorem ownTime_noted (info : MappingInfo) :
    (s.noted service rtt).ownTime service info = s.stats.ownTime service info := rfl

/-! ### One request -/

theorem roomFor_iff {extra : ℤ} {t g : ℚ} (hg : 0 < g) :
    RoomFor config extra t g ↔ (max ⌈t / g⌉ 1 + 1) * config.cpu_count + extra ≤ 2 ^ 31 - 1 :=
  (Averages.limit_le_iff config.cpu_count_pos hg).symm

/-- A request that has the limit computed: the steps of the computation, and what they leave in the
state. -/
theorem update_limits_of_due {info : MappingInfo} (hfind : config.find service = some info)
    (hdue : s.Due service) {s' : LimitState} :
    update_limits config rtt service s = .ok s'
      ↔ ∃ local_rt ratio new_limit,
        cal_local_service_time config (s.noted service rtt) service = .ok local_rt
        ∧ ceil_quotient ((s.noted service rtt).rttTerm config service info) local_rt = .ok ratio
        ∧ new_endpoint_limit config info ratio = .ok new_limit
        ∧ s'.stats = s.noted service rtt
        ∧ s'.per_endpoint_limit = Function.update s.per_endpoint_limit service new_limit
        ∧ if config.routing.length = 0
          then new_global_limit config (Function.update s.per_endpoint_limit service new_limit)
            = .ok s'.global_limit
          else s'.global_limit = s.global_limit := by
  unfold update_limits
  rw [AverageMap.update_eq_ok_iff.mpr ⟨LimitSettings.mem_hosted hfind, rfl⟩,
    ok_bind, Function.update_self]
  rw [if_pos (show ((s.stats.ema_us_sidecar_rtt_us service).update rtt).count.toNat % 2000
    = 0 from hdue)]
  -- The sample is noted first, so the recomputation sees it.
  change recompute_limits config service { s with stats := s.noted service rtt } = _ ↔ _
  unfold recompute_limits
  rw [hfind]
  dsimp only
  rw [get_theo_term_eq hfind]
  simp only [bind_eq_ok, ok_bind]
  obtain ⟨stats', limits', global'⟩ := s'
  constructor
  · rintro ⟨local_rt, hlocal, ratio, hratio, new_limit, hnew, hrest⟩
    refine ⟨local_rt, ratio, new_limit, hlocal, hratio, hnew, ?_⟩
    split_ifs at hrest ⊢
    · obtain ⟨global_limit, hglobal, hok⟩ := bind_eq_ok.mp hrest
      cases hok
      exact ⟨rfl, rfl, hglobal⟩
    · cases hrest
      exact ⟨rfl, rfl, rfl⟩
  · rintro ⟨local_rt, ratio, new_limit, hlocal, hratio, hnew, rfl, rfl, hrest⟩
    refine ⟨local_rt, hlocal, ratio, hratio, new_limit, hnew, ?_⟩
    split_ifs at hrest ⊢
    · rw [hrest]
      rfl
    · obtain rfl : global' = s.global_limit := hrest
      rfl

theorem Consistent.rttTerm_nonneg (hs : s.Consistent config) (info : MappingInfo) :
    0 ≤ (s.noted service rtt).rttTerm config service info := by
  have hrtt : 0 ≤ ((s.noted service rtt).ema_us_sidecar_rtt_us service).value := by
    rw [noted_rtt]
    exact ExponentialMovingAverage.update_nonneg (hs.rtt service) rtt
  unfold LimitStats.rttTerm
  dsimp only
  split_ifs
  · exact add_nonneg hrtt (Averages.le_foldl_max _ 0)
  · apply add_nonneg hrtt
    apply List.sum_nonneg
    intro x hx
    obtain ⟨ds, -, rfl⟩ := List.mem_map.mp hx
    exact hs.ds_rtt ds

/-- A quotient whose limit has room is defined, and its ceiling fits into the type. -/
theorem ceil_quotient_eq_ok {t g : ℚ} {extra : ℤ} (ht : 0 ≤ t) (hg : 0 < g) (hextra : 0 ≤ extra)
    (hroom : RoomFor config extra t g) : ceil_quotient t g = .ok ⌈t / g⌉ ∧ Fits ⌈t / g⌉ := by
  have hceil : 0 ≤ ⌈t / g⌉ := Int.ceil_nonneg (div_nonneg ht hg.le)
  have hlimit := (roomFor_iff hg).mp hroom
  have hgrown : max ⌈t / g⌉ 1 + 1 ≤ (max ⌈t / g⌉ 1 + 1) * config.cpu_count := by
    nlinarith [le_max_right ⌈t / g⌉ 1, config.cpu_count_pos]
  have hfits : Fits ⌈t / g⌉ := by
    unfold SignedInt.Fits
    omega
  refine ⟨?_, hfits⟩
  unfold ceil_quotient
  rw [if_neg hg.ne']
  exact SignedInt.fit_eq_ok_iff.mpr ⟨hfits, rfl⟩

theorem calls_nonneg (info : MappingInfo) : 0 ≤ LimitSettings.calls info := by
  unfold LimitSettings.calls
  split_ifs <;> omega

/-- A leaf has no downstream services, so its requests make no calls. -/
theorem SupportedBy.calls_eq_zero {info : MappingInfo}
    (h : ∀ ds ∈ info.downstreams, ds ∈ config.routing) (hleaf : config.routing.length = 0) :
    LimitSettings.calls info = 0 := by
  have hnil : info.downstreams = [] := by
    apply List.eq_nil_iff_forall_not_mem.mpr
    intro ds hds
    have hmem := h ds hds
    rw [List.eq_nil_of_length_eq_zero hleaf] at hmem
    exact nomatch hmem
  unfold LimitSettings.calls
  rw [hnil]
  split_ifs <;> rfl

/-- The limits stay moderate with a new one that is as it should be. -/
theorem Consistent.moderate_update (hs : s.Consistent config) {info : MappingInfo} {ratio : ℤ}
    (hfits : Fits (Server.newEndpointLimit config.server info ratio)) :
    Moderate config (Function.update s.per_endpoint_limit service
      (Server.newEndpointLimit config.server info ratio)) := by
  refine ⟨?_, ?_, hs.moderate.total⟩
  · intro us hus
    by_cases h : us = service
    · rw [h, Function.update_self, LimitSettings.newEndpointLimit_server]
      have := calls_nonneg info
      nlinarith [le_max_right ratio 1, config.cpu_count_pos]
    · rw [Function.update_of_ne h]
      exact hs.moderate.floor us hus
  · intro us hus
    by_cases h : us = service
    · rw [h, Function.update_self]
      have := hfits.2
      omega
    · rw [Function.update_of_ne h]
      exact hs.moderate.cap us hus

/-- On a leaf, what is left of the room by the limits of the other services. -/
theorem Consistent.sum_iff (hs : s.Consistent config) {info : MappingInfo} {t g : ℚ} (hg : 0 < g)
    (hleaf : config.routing.length = 0) (hrouted : ∀ ds ∈ info.downstreams, ds ∈ config.routing) :
    (∀ before after rest, config.hosted = before ++ service :: (after ++ rest) →
      RoomFor config (((before ++ after).map s.per_endpoint_limit).sum + config.extra_limit) t g)
      ↔ ∀ p, p <+: config.hosted.map (Function.update s.per_endpoint_limit service
          (Server.newEndpointLimit config.server info ⌈t / g⌉)) → p.sum ≤ 2 ^ 31 - 1 := by
  have hnodup : config.hosted.Nodup := config.mapping_nodup
  rw [SignedInt.prefix_sums_update_iff hnodup (hs.parts hleaf)]
  refine forall_congr' fun before => forall_congr' fun after => forall_congr' fun rest => ?_
  refine forall_congr' fun _ => ?_
  rw [roomFor_iff hg, LimitSettings.newEndpointLimit_server,
    SupportedBy.calls_eq_zero hrouted hleaf]
  constructor <;> intro h <;> linarith

/-- **One request**: the limits are well defined exactly if the measurements support them. -/
theorem Consistent.sound_iff (hs : s.Consistent config) :
    s.Sound config service rtt ↔ s.Supported config service rtt := by
  unfold Sound Supported
  refine forall_congr' fun info => forall_congr' fun hfind => forall_congr' fun hdue => ?_
  have htheo : 0 ≤ (s.noted service rtt).rttTerm config service info := hs.rttTerm_nonneg info
  constructor
  · rintro ⟨local_rt, theo_term, s', hlocal, hterm, hupdate, hpos, -, hlimits, hfits, hglobal⟩
    rw [get_theo_term_eq hfind] at hterm
    obtain rfl := Except.ok.inj hterm
    obtain ⟨hrouted, hown⟩ := (cal_local_service_time_eq_ok_iff hfind).mp hlocal
    rw [ownTime_noted] at hown
    subst hown
    obtain ⟨local_rt, ratio, new_limit, hlocal', hratio, hnew, -, hlimits', hrest⟩ :=
      (update_limits_of_due hfind hdue).mp hupdate
    obtain rfl := Except.ok.inj (hlocal.symm.trans hlocal')
    -- the quotient is the one of exact arithmetic, and so is the limit
    have hceil : ratio = ⌈(s.noted service rtt).rttTerm config service
        info / s.stats.ownTime service info⌉ := by
      unfold ceil_quotient at hratio
      rw [if_neg hpos.ne'] at hratio
      exact (SignedInt.fit_eq_ok_iff.mp hratio).2
    subst hceil
    have hnew_limit := congrFun (hlimits'.symm.trans hlimits) service
    rw [Function.update_self, Function.update_self] at hnew_limit
    subst hnew_limit
    refine ⟨hrouted, sub_pos.mp hpos,
      (roomFor_iff hpos).mpr (new_endpoint_limit_eq_ok_iff.mp hnew), ?_⟩
    intro hleaf
    rw [if_pos hleaf] at hrest
    apply (hs.sum_iff hpos hleaf hrouted).mpr
    exact ((new_global_limit_eq_ok_iff (hs.moderate_update hfits)).mp hrest).1
  · intro h
    have hpos : 0 < s.stats.ownTime service info := sub_pos.mpr h.slower
    have hextra : 0 ≤ LimitSettings.calls info + max config.extra_limit 0 :=
      add_nonneg (calls_nonneg info) (le_max_right _ _)
    obtain ⟨hratio, hceil_fits⟩ := ceil_quotient_eq_ok htheo hpos hextra h.endpoint
    have hroom := (roomFor_iff hpos).mp h.endpoint
    set ratio := ⌈(s.noted service rtt).rttTerm config service info / s.stats.ownTime service info⌉
    have hnew := new_endpoint_limit_eq_ok_iff.mpr hroom
    have hfits : Fits (Server.newEndpointLimit config.server info ratio) := by
      have hextra_fits := config.extra_limit_fits
      have hproduct : 2 ≤ (max ratio 1 + 1) * config.cpu_count := by
        nlinarith [le_max_right ratio 1, config.cpu_count_pos]
      have hcalls := calls_nonneg info
      rw [LimitSettings.newEndpointLimit_server]
      unfold SignedInt.Fits at *
      omega
    have hlocal : cal_local_service_time config (s.noted service rtt) service
        = .ok (s.stats.ownTime service info) :=
      (cal_local_service_time_eq_ok_iff hfind).mpr ⟨h.routed, rfl⟩
    have hupdate := fun s' => (@update_limits_of_due config service rtt s info hfind hdue s').mpr
    set limits := Function.update s.per_endpoint_limit service
      (Server.newEndpointLimit config.server info ratio)
    by_cases hleaf : config.routing.length = 0
    · have hparts := (hs.sum_iff hpos hleaf h.routed).mp (h.sum hleaf)
      have hglobal := (new_global_limit_eq_ok_iff (hs.moderate_update hfits)).mpr ⟨hparts, rfl⟩
      refine ⟨_, _, ⟨s.noted service rtt, limits, _⟩, hlocal, get_theo_term_eq hfind,
        hupdate _ ?_, hpos, hceil_fits,
        rfl, hfits, fun _ => ⟨rfl, fits_of_new_global_limit hglobal⟩⟩
      refine ⟨_, _, _, hlocal, hratio, hnew, rfl, rfl, ?_⟩
      rw [if_pos hleaf]
      exact hglobal
    · refine ⟨_, _, ⟨s.noted service rtt, limits, s.global_limit⟩, hlocal,
        get_theo_term_eq hfind, hupdate _ ?_, hpos,
        hceil_fits, rfl, hfits, fun hleaf' => absurd hleaf' hleaf⟩
      refine ⟨_, _, _, hlocal, hratio, hnew, rfl, rfl, ?_⟩
      rw [if_neg hleaf]

/-! ### Every history -/

/-- In the history the limits are well defined at every Credit Request. -/
def SoundAlong (config : LimitSettings) (history : List LimitEvent) : Prop :=
  ∀ earlier service rtt s, earlier ++ [.credit_request service rtt] <+: history →
    Reaches config earlier s →
    s.Sound config service rtt

/-- In the history the measurements support the limits at every Credit Request. -/
def SupportedAlong (config : LimitSettings) (history : List LimitEvent) : Prop :=
  ∀ earlier service rtt s, earlier ++ [.credit_request service rtt] <+: history →
    Reaches config earlier s →
    s.Supported config service rtt

theorem Reaches.append {history : List LimitEvent} {event : LimitEvent} {s' : LimitState} :
    Reaches config (history ++ [event]) s' ↔ ∃ s, Reaches config history s
      ∧ s.apply config event = .ok s' := by
  unfold Reaches
  simp only [List.foldlM_append, List.foldlM_cons, List.foldlM_nil, bind_pure, bind_eq_ok]
  constructor
  · rintro ⟨s₀, hstart, s, hs, happly⟩
    exact ⟨s, ⟨s₀, hstart, hs⟩, happly⟩
  · rintro ⟨s, ⟨s₀, hstart, hs⟩, happly⟩
    exact ⟨s₀, hstart, s, hs, happly⟩

/-- The state of the start: no measurement, and the same limit for every service. -/
theorem start_spec (h : start config = .ok s) :
    s.stats = ⟨fun _ => .create, fun _ => .create, fun _ => .create,
      fun _ => .create, fun _ => .create⟩
      ∧ s.per_endpoint_limit = (fun _ => config.cpu_count * 2 + config.extra_limit)
      ∧ Fits (config.cpu_count * 2 + config.extra_limit)
      ∧ Fits ((config.cpu_count * 2 + config.extra_limit) * config.hosted.length) := by
  unfold start at h
  simp only [bind_eq_ok, int32, SignedInt.fit_eq_ok_iff] at h
  obtain ⟨_, ⟨-, rfl⟩, _, ⟨hmax, rfl⟩, _, ⟨hsum, rfl⟩, hrest⟩ := h
  split_ifs at hrest
  · simp only [bind_eq_ok, SignedInt.fit_eq_ok_iff] at hrest
    obtain ⟨_, -, _, -, _, -, hok⟩ := hrest
    cases hok
    exact ⟨rfl, rfl, hmax, hsum⟩
  · cases hrest
    exact ⟨rfl, rfl, hmax, hsum⟩

/-- No average is negative before there is a measurement, and the constructor of the queue has
added up the limits. -/
theorem consistent_start (h : start config = .ok s) : s.Consistent config := by
  obtain ⟨hstats, hlimits, hmax, hsum⟩ := start_spec h
  have hnonneg : AverageMap.Nonneg fun _ => .create := fun _ => le_refl 0
  refine ⟨?_, ?_, ?_, ?_, ?_, ⟨?_, ?_, hsum.1⟩, ?_⟩
  · rw [hstats]; exact hnonneg
  · rw [hstats]; exact hnonneg
  · rw [hstats]; exact hnonneg
  · rw [hstats]; exact hnonneg
  · rw [hstats]; exact hnonneg
  · intro us _
    rw [hlimits]
  · intro us _
    have := hmax.2
    rw [hlimits]
    dsimp only
    omega
  · intro _ p hp
    -- a part of the sum is a multiple of the limit that is not larger
    have hreplicate : config.hosted.map s.per_endpoint_limit
        = List.replicate config.hosted.length (config.cpu_count * 2 + config.extra_limit) := by
      rw [hlimits]
      exact List.map_const' ..
    rw [hreplicate] at hp
    have hlength := hp.length_le
    rw [List.length_replicate] at hlength
    have hp_eq : p = List.replicate p.length (config.cpu_count * 2 + config.extra_limit) := by
      apply List.eq_replicate_of_mem
      intro x hx
      exact List.eq_of_mem_replicate (hp.subset hx)
    rw [hp_eq, List.sum_replicate, nsmul_eq_mul]
    have hsum_high := hsum.2
    have hcast : (p.length : ℤ) ≤ config.hosted.length := by exact_mod_cast hlength
    rcases le_total 0 (config.cpu_count * 2 + config.extra_limit) with hsign | hsign
    · have := mul_le_mul_of_nonneg_right hcast hsign
      linarith
    · have := mul_nonpos_of_nonneg_of_nonpos (Int.natCast_nonneg p.length) hsign
      omega

theorem exists_find (h : service ∈ config.hosted) : ∃ info, config.find service = some info := by
  obtain ⟨⟨_, info⟩, hmem, rfl⟩ := List.mem_map.mp h
  apply Option.isSome_iff_exists.mp
  exact List.lookup_isSome_iff.mpr ⟨_, hmem, beq_self_eq_true _⟩

/-- A Credit Request keeps the invariant, if the limits it computes are well defined. -/
theorem Consistent.update_limits {s' : LimitState} (hs : s.Consistent config)
    (hsound : s.Sound config service rtt) (h : update_limits config rtt service s = .ok s') :
    s'.Consistent config := by
  obtain ⟨m, hm, hrest⟩ := bind_eq_ok.mp h
  obtain ⟨hmem, rfl⟩ := AverageMap.update_eq_ok_iff.mp hm
  obtain ⟨info, hfind⟩ := exists_find hmem
  have hrtt := hs.rtt.update hm
  by_cases hdue : s.Due service
  · -- A recomputation: the statistics are those with the sample, and the limits are moderate
    -- because the new one fits.
    obtain ⟨_, ratio, new_limit, -, -, -, hstats, hlimits, hglobal⟩ :=
      (update_limits_of_due hfind hdue).mp h
    obtain ⟨_, _, s'', -, -, hupdate, -, -, hlimits', hfits, -⟩ := hsound info hfind hdue
    obtain rfl := Except.ok.inj (h.symm.trans hupdate)
    have hmoderate : Moderate config s'.per_endpoint_limit := by
      rw [hlimits']
      exact hs.moderate_update hfits
    rw [← hlimits] at hglobal
    refine ⟨?_, ?_, ?_, ?_, ?_, hmoderate, ?_⟩
    · rw [hstats]; exact hrtt
    · rw [hstats]; exact hs.service_time
    · rw [hstats]; exact hs.ds_service_time
    · rw [hstats]; exact hs.wait
    · rw [hstats]; exact hs.ds_rtt
    · intro hleaf
      rw [if_pos hleaf] at hglobal
      exact ((new_global_limit_eq_ok_iff hmoderate).mp hglobal).1
  · rw [Function.update_self] at hrest
    rw [if_neg (show ¬ ((s.stats.ema_us_sidecar_rtt_us service).update rtt).count.toNat % 2000
      = 0 from hdue)]
      at hrest
    obtain rfl := Except.ok.inj hrest
    exact { hs with rtt := hrtt }

/-- One event keeps the invariant, if the limits it computes are well defined. -/
theorem Consistent.apply {event : LimitEvent} {s' : LimitState} (hs : s.Consistent config)
    (hsound : ∀ service rtt, event = .credit_request service rtt → s.Sound config service rtt)
    (h : s.apply config event = .ok s') : s'.Consistent config := by
  cases event with
  | credit_request service rtt => exact hs.update_limits (hsound service rtt rfl) h
  | us_service_time service us =>
      obtain ⟨m, hm, hok⟩ := bind_eq_ok.mp h
      obtain rfl := Except.ok.inj hok
      exact { hs with service_time := hs.service_time.update hm }
  | ds_service_time service us =>
      obtain ⟨m, hm, hok⟩ := bind_eq_ok.mp h
      obtain rfl := Except.ok.inj hok
      exact { hs with ds_service_time := hs.ds_service_time.update hm }
  | wait_to_tx service us =>
      obtain ⟨m, hm, hok⟩ := bind_eq_ok.mp h
      obtain rfl := Except.ok.inj hok
      exact { hs with wait := hs.wait.update hm }
  | ds_sidecar_rtt service rtt =>
      obtain ⟨m, hm, hok⟩ := bind_eq_ok.mp h
      obtain rfl := Except.ok.inj hok
      exact { hs with ds_rtt := hs.ds_rtt.update hm }

/-- The invariant holds wherever all limits that were computed on the way were well defined. -/
theorem consistent_of_soundAlong {history : List LimitEvent} (hsound : SoundAlong config history)
    (h : Reaches config history s) : s.Consistent config := by
  induction history using List.reverseRecOn generalizing s with
  | nil =>
      obtain ⟨s₀, hstart, hs⟩ := h
      obtain rfl := Except.ok.inj hs
      exact consistent_start hstart
  | append_singleton earlier event ih =>
      obtain ⟨s₁, hreaches, happly⟩ := Reaches.append.mp h
      have hearlier : SoundAlong config earlier := by
        intro before service rtt s hpre
        exact hsound before service rtt s (hpre.trans (List.prefix_append _ _))
      refine (ih hearlier hreaches).apply ?_ happly
      rintro service rtt rfl
      exact hsound earlier service rtt s₁ (List.prefix_refl _) hreaches

/-- If the measurements support every limit, the invariant holds along the history, and every limit
is well defined. The induction is on the history up to the request: what was computed before it was
well defined. -/
theorem soundAlong_of_supportedAlong {history : List LimitEvent}
    (h : SupportedAlong config history) :
    SoundAlong config history := by
  induction history using List.reverseRecOn with
  | nil =>
      intro earlier service rtt s hpre
      exact absurd (List.prefix_nil.mp hpre) (by simp)
  | append_singleton history event ih =>
      have hearlier : SoundAlong config history := by
        apply ih
        intro before service rtt s hpre
        exact h before service rtt s (hpre.trans (List.prefix_append _ _))
      intro earlier service rtt s hpre hreaches
      rcases List.prefix_concat_iff.mp hpre with heq | hpre'
      · obtain ⟨rfl, -⟩ := List.append_inj' heq rfl
        have hconsistent := consistent_of_soundAlong hearlier hreaches
        exact hconsistent.sound_iff.mpr (h earlier service rtt s hpre hreaches)
      · exact hearlier earlier service rtt s hpre' hreaches

end LimitState

/-- **Limits are well defined in a history exactly if the measurements support them** each time
they are computed. The history is any sequence of Credit Requests and responses, in exact
arithmetic; the condition is one on the averages and limits before the request at which they are
computed. -/
theorem limits_sound_iff (config : LimitSettings) (history : List LimitEvent) :
    LimitState.SoundAlong config history ↔ LimitState.SupportedAlong config history := by
  constructor
  · intro h earlier service rtt s hpre hreaches
    have hearlier : LimitState.SoundAlong config earlier := by
      intro before service rtt s hbefore
      exact h before service rtt s (hbefore.trans ((List.prefix_append _ _).trans hpre))
    have hconsistent := LimitState.consistent_of_soundAlong hearlier hreaches
    exact hconsistent.sound_iff.mp (h earlier service rtt s hpre hreaches)
  · exact LimitState.soundAlong_of_supportedAlong

/-! ## Before the first response -/

namespace LimitState

variable {config : LimitSettings} {service : Bytes} {rtt : Sample} {s : LimitState}

/-- Credit Requests leave the averaged time of a service alone; only responses change it. -/
theorem update_limits_service_time {s' : LimitState}
    (h : update_limits config rtt service s = .ok s') :
    s'.stats.ema_us_service_time_us = s.stats.ema_us_service_time_us := by
  obtain ⟨m, hm, hrest⟩ := bind_eq_ok.mp h
  obtain ⟨hmem, rfl⟩ := AverageMap.update_eq_ok_iff.mp hm
  obtain ⟨info, hfind⟩ := exists_find hmem
  by_cases hdue : s.Due service
  · obtain ⟨_, _, _, -, -, -, hstats, -, -⟩ := (update_limits_of_due hfind hdue).mp h
    rw [hstats]
    rfl
  · rw [Function.update_self] at hrest
    rw [if_neg (show ¬ ((s.stats.ema_us_sidecar_rtt_us service).update rtt).count.toNat % 2000
      = 0 from hdue)]
      at hrest
    obtain rfl := Except.ok.inj hrest
    rfl

/-- **The averaged time of a service is positive** exactly if a response of it has been measured
that took any time. -/
theorem service_time_pos_iff {history : List LimitEvent} (h : Reaches config history s) :
    0 ≤ (s.stats.ema_us_service_time_us service).value
      ∧ (0 < (s.stats.ema_us_service_time_us service).value
        ↔ ∃ us : Sample, .us_service_time service us ∈ history ∧ 0 < us.val) := by
  induction history using List.reverseRecOn generalizing s with
  | nil =>
      obtain ⟨s₀, hstart, hs⟩ := h
      obtain rfl := Except.ok.inj hs
      obtain ⟨hstats, -⟩ := start_spec hstart
      rw [hstats]
      simp [ExponentialMovingAverage.create]
  | append_singleton history event ih =>
      obtain ⟨s₁, hreaches, happly⟩ := Reaches.append.mp h
      obtain ⟨hnonneg, hpos⟩ := ih hreaches
      -- an event that is no sample of the service changes neither side
      have hsame : (∀ us, event ≠ .us_service_time service us) →
          s.stats.ema_us_service_time_us service = s₁.stats.ema_us_service_time_us service →
          0 ≤ (s.stats.ema_us_service_time_us service).value
            ∧ (0 < (s.stats.ema_us_service_time_us service).value
              ↔ ∃ us : Sample, .us_service_time service us ∈ history ++ [event] ∧ 0 < us.val) := by
        intro hevent heq
        rw [heq]
        refine ⟨hnonneg, hpos.trans ?_⟩
        simp only [List.mem_append, List.mem_singleton]
        refine exists_congr fun us => and_congr_left' ?_
        exact (or_iff_left (hevent us).symm).symm
      cases event with
      | credit_request other rtt =>
          apply hsame
          · exact nofun
          · rw [update_limits_service_time happly]
      | us_service_time other us =>
          obtain ⟨m, hm, hok⟩ := bind_eq_ok.mp happly
          obtain rfl := Except.ok.inj hok
          obtain ⟨-, rfl⟩ := AverageMap.update_eq_ok_iff.mp hm
          by_cases hother : service = other
          · subst hother
            dsimp only
            rw [Function.update_self, ExponentialMovingAverage.update_value]
            have hus : (0 : ℚ) ≤ us.val := Nat.cast_nonneg _
            refine ⟨Averages.blend_nonneg ExponentialMovingAverage.alpha_pos.le
              ExponentialMovingAverage.alpha_lt_one.le hnonneg hus, ?_⟩
            -- the average leaves zero with the first sample that is positive
            rw [Averages.blend_pos_iff ExponentialMovingAverage.alpha_pos
              ExponentialMovingAverage.alpha_lt_one
              hnonneg hus, hpos, Nat.cast_pos]
            constructor
            · rintro (⟨us', hmem, hpos'⟩ | hpos')
              · exact ⟨us', List.mem_append_left _ hmem, hpos'⟩
              · exact ⟨us, List.mem_append_right _ (List.mem_singleton_self _), hpos'⟩
            · rintro ⟨us', hmem, hpos'⟩
              rcases List.mem_append.mp hmem with hmem | hmem
              · exact Or.inl ⟨us', hmem, hpos'⟩
              · cases List.mem_singleton.mp hmem
                exact Or.inr hpos'
          · apply hsame
            · rintro us' ⟨⟩
              exact hother rfl
            · exact Function.update_of_ne hother _ _
      | ds_service_time other us =>
          obtain ⟨m, hm, hok⟩ := bind_eq_ok.mp happly
          obtain rfl := Except.ok.inj hok
          exact hsame nofun rfl
      | wait_to_tx other us =>
          obtain ⟨m, hm, hok⟩ := bind_eq_ok.mp happly
          obtain rfl := Except.ok.inj hok
          exact hsame nofun rfl
      | ds_sidecar_rtt other rtt =>
          obtain ⟨m, hm, hok⟩ := bind_eq_ok.mp happly
          obtain rfl := Except.ok.inj hok
          exact hsame nofun rfl

theorem Consistent.downstreamTime_nonneg (hs : s.Consistent config) (info : MappingInfo) :
    0 ≤ s.stats.downstreamTime info := by
  have hcall : ∀ ds, 0 ≤ s.stats.callTime ds :=
    fun ds => add_nonneg (hs.ds_service_time ds) (hs.wait ds)
  have hmaxFloat : 0 < maxFloat := by norm_num [maxFloat]
  by_contra h
  have hlt := downstreamTime_lt_iff.mp (not_le.mp h)
  split_ifs at hlt
  · exact lt_irrefl _ hlt.1
  · rcases hlt with hlt | ⟨ds, -, hlt⟩
    · exact absurd hmaxFloat hlt.not_gt
    · exact absurd hlt (hcall ds).not_gt
  · refine absurd hlt (not_lt.mpr (List.sum_nonneg ?_))
    intro x hx
    obtain ⟨ds, -, rfl⟩ := List.mem_map.mp hx
    exact hcall ds

/-- **A limit that is well defined was computed after a response**: one that took some time. -/
theorem response_of_soundAlong {history : List LimitEvent}
    (hsound : SoundAlong config (history ++ [.credit_request service rtt]))
    (hreaches : Reaches config history s) (hmem : service ∈ config.hosted) (hdue : s.Due service) :
    ∃ us : Sample, .us_service_time service us ∈ history ∧ 0 < us.val := by
  obtain ⟨info, hfind⟩ := exists_find hmem
  have hearlier : SoundAlong config history := by
    intro before service rtt s hpre
    exact hsound before service rtt s (hpre.trans (List.prefix_append _ _))
  have hs := consistent_of_soundAlong hearlier hreaches
  have hsupported := hs.sound_iff.mp (hsound history service rtt s (List.prefix_refl _) hreaches)
  have hslower := (hsupported info hfind hdue).slower
  exact (service_time_pos_iff hreaches).2.mp
    (lt_of_le_of_lt (hs.downstreamTime_nonneg info) hslower)

/-- Up to the 1999th Credit Request of a service no limit is computed. -/
theorem requests_reach (rtt : Sample) {s₀ : LimitState} (hstart : start config = .ok s₀)
    (hmem : service ∈ config.hosted) {k : ℕ} (hk : k < 2000) :
    ∃ s, Reaches config (List.replicate k (.credit_request service rtt)) s
      ∧ (s.stats.ema_us_sidecar_rtt_us service).count = BitVec.ofNat 32 k := by
  induction k with
  | zero =>
      refine ⟨s₀, ⟨s₀, hstart, rfl⟩, ?_⟩
      rw [(start_spec hstart).1]
      rfl
  | succ k ih =>
      obtain ⟨s, hreaches, hcount⟩ := ih (by omega)
      have hnext : (s.stats.ema_us_sidecar_rtt_us service).count + 1 = BitVec.ofNat 32 (k + 1) := by
        rw [hcount, BitVec.ofNat_add]
        rfl
      -- The count is below 2000, so no request on the way recomputes the limits.
      have hdue : ¬ s.Due service := by
        unfold Due
        rw [hnext, BitVec.toNat_ofNat, Nat.mod_eq_of_lt (by omega)]
        omega
      refine ⟨{ s with stats := s.noted service rtt }, ?_, ?_⟩
      · rw [List.replicate_succ']
        refine Reaches.append.mpr ⟨s, hreaches, ?_⟩
        change update_limits config rtt service s = _
        unfold update_limits
        rw [AverageMap.update_eq_ok_iff.mpr ⟨hmem, rfl⟩, ok_bind, Function.update_self]
        exact if_neg hdue
      · rw [noted_rtt]
        exact hnext

/-- **Two thousand requests before the first response**: whatever the RTTs are, the limit that is
computed with the last one of them is not well defined. -/
theorem not_soundAlong_requests {s₀ : LimitState} (hstart : start config = .ok s₀)
    (hmem : service ∈ config.hosted) (rtt : Sample) :
    ¬ SoundAlong config (List.replicate 2000 (.credit_request service rtt)) := by
  intro h
  rw [show 2000 = 1999 + 1 from rfl, List.replicate_succ'] at h
  obtain ⟨s, hreaches, hcount⟩ := requests_reach rtt hstart hmem (show 1999 < 2000 by omega)
  have hdue : s.Due service := by
    unfold Due
    rw [hcount]
    decide
  obtain ⟨us, hresponse, -⟩ := response_of_soundAlong h hreaches hmem hdue
  cases List.eq_of_mem_replicate hresponse

end LimitState

/-- A sidecar for one service on one CPU, without downstream services, for the concrete history. -/
def oneService : LimitSettings where
  cpu_count := 1
  extra_limit := 0
  over_commitment := 0
  mapping := [([115], ⟨[], false, false⟩)]
  routing := []
  cpu_count_pos := by decide
  cpu_count_fits := by decide
  extra_limit_fits := by decide
  over_commitment_nonneg := by decide
  over_commitment_le_one := by decide
  mapping_nodup := by decide

/-- **Not every limit is well defined**: with requests that pile up, the first one divides by
zero. -/
theorem limits_before_responses :
    ¬ LimitState.SoundAlong oneService (List.replicate 2000 (.credit_request [115] 0)) := by
  have hstart : ∃ s₀, LimitState.start oneService = .ok s₀ := by
    simp [LimitState.start, oneService, LimitSettings.hosted, int32, SignedInt.fit,
      SignedInt.Fits, truncate]
  obtain ⟨s₀, hstart⟩ := hstart
  exact LimitState.not_soundAlong_requests hstart (by decide) 0

end RlpSidecar
