/-
The measurements behind `update_limits`, and the limits computed from them (`state.cc`,
`cal_local_service_time`, `get_theo_term` and `update_limits`; `stats.cc`,
`ExponentialMovingAverage`).

Every 2000th Credit Request of a service computes its limit again. The averaged time the service
spends itself is a difference: the averaged time of the application behind the sidecar, less what
the downstream services took of it. The averaged times between the sidecars are divided by it. The
averages are exact here, so what is undefined in the source is what the arithmetic makes undefined:
a quotient by zero, a conversion or a sum that does not fit an `int32_t`.

A table of the statistics is a function on the names it was built for. A name it was not built for
stops the process.

A history is a sequence of Credit Requests and of responses with the times that were measured, and
`Reaches` says which state it leads to. Every operation that is not defined aborts here, so that a
limit is well defined is the same as that the update returns.
-/
import RlpSidecar.Averages
import RlpSidecar.Server
import RlpSidecar.SignedInt
import Mathlib.Data.Rat.Floor

set_option autoImplicit false

namespace RlpSidecar

open SignedInt (Fits)

/-! ## Averages -/

/-- What `update` is called with: an `int32_t` that is not negative, which `protocol_server` and
`credit_post_process` check before. -/
abbrev Sample := Fin (2 ^ 31)

/-- `ExponentialMovingAverage`, with its count of samples, an `int32_t` of which only the remainder
by 2000 is used. -/
structure ExponentialMovingAverage where
  count : BitVec 32
  value : ℚ
  deriving DecidableEq, Repr

namespace ExponentialMovingAverage

/-- `0.01F`: the nearest `float`, as the fraction that it is. -/
def alpha : ℚ := 5368709 / 2 ^ 29

/-- The constructor: no sample, and zero as the average. -/
def create : ExponentialMovingAverage := ⟨0, 0⟩

/-- `ExponentialMovingAverage::update`: the sample has the weight `alpha`. The arithmetic is exact
where the source rounds to `float`. -/
def update (a : ExponentialMovingAverage) (new_value : Sample) : ExponentialMovingAverage :=
  ⟨a.count + 1, alpha * new_value.val + (1 - alpha) * a.value⟩

/-- A sample is blended into the average that there was before. -/
theorem update_value (a : ExponentialMovingAverage) (new_value : Sample) :
    (a.update new_value).value = Averages.blend alpha a.value (new_value.val : ℚ) := rfl

/-- The weight of a new sample is positive, so that none is without effect. -/
theorem alpha_pos : 0 < alpha := by norm_num [alpha]

/-- The weight of a new sample is below one, so the old ones keep some. -/
theorem alpha_lt_one : alpha < 1 := by norm_num [alpha]

/-- An average of samples that are not negative is not negative. -/
theorem update_nonneg {a : ExponentialMovingAverage} (h : 0 ≤ a.value) (new_value : Sample) :
    0 ≤ (a.update new_value).value :=
  Averages.blend_nonneg alpha_pos.le alpha_lt_one.le h (Nat.cast_nonneg _)

end ExponentialMovingAverage

/-- One average a service, as the tables of `LocalState` have them. -/
abbrev AverageMap := Bytes → ExponentialMovingAverage

namespace AverageMap

/-- `get(service)`, of a table that was built for `keys`; any other service ends the process. -/
def get (m : AverageMap) (keys : List Bytes) (service : Bytes) :
    Except Abort ExponentialMovingAverage :=
  if service ∈ keys then .ok (m service) else .error .keyNotFound

/-- `get(service).update(new_value)`: the average of one service changes. -/
def update (m : AverageMap) (keys : List Bytes) (service : Bytes) (new_value : Sample) :
    Except Abort AverageMap := do
  let average ← m.get keys service
  .ok (Function.update m service (average.update new_value))

/-- `get` succeeds for the keys, and returns the average. -/
@[simp] theorem get_eq_ok_iff {m : AverageMap} {keys : List Bytes} {service : Bytes}
    {a : ExponentialMovingAverage} : m.get keys service = .ok a
      ↔ service ∈ keys ∧ a = m service := by
  unfold get
  split_ifs with h
  · rw [Except.ok.injEq, eq_comm]
    exact (and_iff_right h).symm
  · exact ⟨fun h' => (nomatch h'), fun h' => absurd h'.1 h⟩

/-- No average of the table is negative, as no sample is. -/
def Nonneg (m : AverageMap) : Prop := ∀ service, 0 ≤ (m service).value

/-- An update succeeds for the keys, and changes one average. -/
theorem update_eq_ok_iff {m m' : AverageMap} {keys : List Bytes} {service : Bytes}
    {new_value : Sample} :
    m.update keys service new_value = .ok m'
      ↔ service ∈ keys ∧ m' = Function.update m service ((m service).update new_value) := by
  unfold update
  constructor
  · intro h
    obtain ⟨a, ha, h⟩ := bind_eq_ok.mp h
    obtain ⟨hmem, rfl⟩ := get_eq_ok_iff.mp ha
    exact ⟨hmem, (Except.ok.inj h).symm⟩
  · rintro ⟨hmem, rfl⟩
    rw [get_eq_ok_iff.mpr ⟨hmem, rfl⟩]
    rfl

/-- An update keeps the averages of a table from becoming negative. -/
theorem Nonneg.update {m m' : AverageMap} (hm : m.Nonneg) {keys : List Bytes} {service : Bytes}
    {new_value : Sample} (h : m.update keys service new_value = .ok m') : m'.Nonneg := by
  obtain ⟨-, rfl⟩ := update_eq_ok_iff.mp h
  intro other
  by_cases hother : other = service
  · rw [hother, Function.update_self]
    exact ExponentialMovingAverage.update_nonneg (hm service) new_value
  · rw [Function.update_of_ne hother]
    exact hm other

end AverageMap

/-! ## Configuration and state -/

/-- What `update_limits` reads of the configuration. The loader refuses a `cpu_count` below one and
an `over_commitment` outside of the unit interval. -/
structure LimitSettings where
  cpu_count : ℤ
  extra_limit : ℤ
  over_commitment : ℚ
  mapping : List (Bytes × MappingInfo)
  routing : List Bytes
  cpu_count_pos : 1 ≤ cpu_count
  cpu_count_fits : Fits cpu_count
  extra_limit_fits : Fits extra_limit
  over_commitment_nonneg : 0 ≤ over_commitment
  over_commitment_le_one : over_commitment ≤ 1
  mapping_nodup : (mapping.map Prod.fst).Nodup

namespace LimitSettings

/-- `get_hosted_services`, the keys of the mapping, each of which has its averages. -/
def hosted (config : LimitSettings) : List Bytes := config.mapping.map Prod.fst

/-- `config.mapping.find(service)`, the entry of a hosted service, and none of another. -/
def find (config : LimitSettings) (service : Bytes) : Option MappingInfo :=
  config.mapping.lookup service

end LimitSettings

/-- The averages of `Stats` that a limit is computed from. The tables of the upstream side are
built for the hosted services, those of the downstream side for the services of
`config.routing`. -/
structure LimitStats where
  ema_us_sidecar_rtt_us : AverageMap
  ema_us_service_time_us : AverageMap
  ema_ds_service_time_us : AverageMap
  ema_wait_to_tx_us : AverageMap
  ema_ds_sidecar_rtt_us : AverageMap

/-- The averages, and the limits of the credit queue: all that `update_limits` reads and writes. -/
structure LimitState where
  stats : LimitStats
  per_endpoint_limit : Bytes → ℤ
  global_limit : ℤ

/-! ## What `update_limits` computes -/

/-- A value of type `int32_t`. One that does not fit is undefined. -/
def int32 (z : ℤ) : Except Abort ℤ := SignedInt.fit .undefined z

/-- `(int32_t)std::ceil(theo_term / local_rt)`. A quotient by zero is infinite or not a number, and
converting it is undefined. -/
def ceil_quotient (theo_term local_rt : ℚ) : Except Abort ℤ :=
  if local_rt = 0 then .error .undefined else int32 ⌈theo_term / local_rt⌉

/-- `(int32_t)x`: the conversion drops the fraction, towards zero on both sides of it. -/
def truncate (x : ℚ) : ℤ := if 0 ≤ x then ⌊x⌋ else ⌈x⌉

/-- A share of an integer lies between it and zero, and so does what is left of it without the
fraction. -/
theorem truncate_mul_mem {n : ℤ} {q : ℚ} (h₀ : 0 ≤ q) (h₁ : q ≤ 1) :
    min 0 n ≤ truncate (n * q) ∧ truncate (n * q) ≤ max 0 n := by
  unfold truncate
  rcases le_total 0 n with hn | hn
  · have hn' : (0 : ℚ) ≤ n := by exact_mod_cast hn
    rw [if_pos (mul_nonneg hn' h₀), min_eq_left hn, max_eq_right hn]
    exact ⟨Int.floor_nonneg.mpr (mul_nonneg hn' h₀), Int.floor_le_iff.mpr (by nlinarith)⟩
  · have hn' : (n : ℚ) ≤ 0 := by exact_mod_cast hn
    rw [min_eq_right hn, max_eq_left hn]
    split_ifs with hzero
    · have hprod : (n : ℚ) * q = 0 := le_antisymm (mul_nonpos_of_nonpos_of_nonneg hn' h₀) hzero
      rw [hprod, Int.floor_zero]
      exact ⟨hn, le_refl 0⟩
    · exact ⟨Int.le_ceil_iff.mpr (by nlinarith), Int.ceil_le.mpr (by push_cast; linarith)⟩

/-- `MAXFLOAT`, from which the minimum over the downstream services starts. -/
def maxFloat : ℚ := (2 - 1 / 2 ^ 23) * 2 ^ 127

section Compute

variable (config : LimitSettings) (stats : LimitStats)

/-- What a call of a downstream service takes, with the time its request waits for a credit. -/
def downstream_value (ds_service : Bytes) : Except Abort ℚ := do
  let service_time ← stats.ema_ds_service_time_us.get config.routing ds_service
  let wait ← stats.ema_wait_to_tx_us.get config.routing ds_service
  .ok (service_time.value + wait.value)

/-- `State::cal_local_service_time`: the service time of the hosted service without what it waits
for its downstream services, the longest of them, the shortest or all, by the kind of fan-out. -/
def cal_local_service_time (us_service : Bytes) : Except Abort ℚ :=
  match config.find us_service with
  | none => .error .notInMapping
  | some info => do
    let us_rt ← stats.ema_us_service_time_us.get config.hosted us_service
    -- the calls run at once, so the longest one counts
    if info.pfanout then
      let max ← info.downstreams.foldlM
        (fun max ds_service => do
          let value ← downstream_value config stats ds_service
          .ok (if value > max then value else max))
        0
      .ok (us_rt.value - max)
    -- one of them is made, and the shortest is taken for it
    else if info.dfanout then
      let min ← info.downstreams.foldlM
        (fun min ds_service => do
          let value ← downstream_value config stats ds_service
          .ok (if value < min then value else min))
        maxFloat
      .ok (us_rt.value - min)
    else
      -- one call after the other
      let sum ← info.downstreams.foldlM
        (fun sum ds_service => do
          let value ← downstream_value config stats ds_service
          .ok (sum + value))
        0
      .ok (us_rt.value - sum)

/-- `get_theo_term`. The loops go over every entry of the table, whatever the service calls. -/
def get_theo_term (service : Bytes) (sequential : Bool) : Except Abort ℚ := do
  let theo_term ← stats.ema_us_sidecar_rtt_us.get config.hosted service
  if sequential then
    .ok (config.routing.foldl
      (fun theo_term ds => theo_term + (stats.ema_ds_sidecar_rtt_us ds).value) theo_term.value)
  else
    -- over the whole routing table, and not only over the service's own downstreams
    let max_rtt := config.routing.foldl
      (fun max_rtt ds =>
        let v := (stats.ema_ds_sidecar_rtt_us ds).value
        if v > max_rtt then v else max_rtt)
      0
    .ok (theo_term.value + max_rtt)

/-- The new limit of an endpoint. The number of downstream services is a `size_t`: the sum is one
of unsigned numbers, and only its lower half is kept. -/
def new_endpoint_limit (info : MappingInfo) (ratio : ℤ) : Except Abort ℤ := do
  let grown ← int32 (max ratio 1 + 1)
  let new_limit ← int32 (grown * config.cpu_count)
  let new_limit :=
    if info.dfanout then new_limit else Int.bmod (new_limit + info.downstreams.length) (2 ^ 32)
  int32 (new_limit + config.extra_limit)

/-- The new global limit. One loop of the source computes the sum and the maximum. -/
def new_global_limit (limits : Bytes → ℤ) : Except Abort ℤ := do
  let sum_limits ← (config.hosted.map limits).foldlM (fun sum limit => int32 (sum + limit)) 0
  let max_limit := config.hosted.foldl (fun max us => if limits us > max then limits us else max) 0
  let others ← int32 (sum_limits - max_limit)
  let share ← int32 (truncate (others * config.over_commitment))
  int32 (max_limit + share)

end Compute

namespace LimitState

/-- The part of `State::update_limits` that every 2000th sample runs: the quotient, the limit of
the endpoint, and at a leaf the limit on the total. A conversion that overflows is an error. -/
def recompute_limits (config : LimitSettings) (service : Bytes) (s : LimitState) :
    Except Abort LimitState := do
  let local_rt ← cal_local_service_time config s.stats service
  match config.find service with
  | none => .error .notInMapping
  | some info =>
    let theo_term ← get_theo_term config s.stats service (!info.pfanout && !info.dfanout)
    let ratio ← ceil_quotient theo_term local_rt
    let new_limit ← new_endpoint_limit config info ratio
    let s := { s with per_endpoint_limit := Function.update s.per_endpoint_limit service new_limit }
    -- only a leaf has a global limit of its own
    if config.routing.length = 0 then
      let global_limit ← new_global_limit config s.per_endpoint_limit
      .ok { s with global_limit := global_limit }
    else .ok s

/-- `State::update_limits`: the RTT is averaged, and every 2000th sample of a service recomputes
its limits. -/
def update_limits (config : LimitSettings) (rtt : Sample) (service : Bytes) (s : LimitState) :
    Except Abort LimitState := do
  let rtt_stats ← s.stats.ema_us_sidecar_rtt_us.update config.hosted service rtt
  let s := { s with stats := { s.stats with ema_us_sidecar_rtt_us := rtt_stats } }
  if (rtt_stats service).count.toNat % 2000 = 0 then recompute_limits config service s else .ok s

end LimitState

/-! ## Histories -/

/-- What changes the averages: a Credit Request with the RTT it carries, and the four times that
are measured. -/
inductive LimitEvent
  | credit_request (service : Bytes) (rtt : Sample)
  /-- `report_latency` of an INGRESS response. -/
  | us_service_time (service : Bytes) (us : Sample)
  /-- `report_latency` of an EGRESS response. -/
  | ds_service_time (service : Bytes) (us : Sample)
  /-- An egress request has got its credit and is sent. -/
  | wait_to_tx (service : Bytes) (us : Sample)
  /-- `credit_post_process` has computed an RTT. -/
  | ds_sidecar_rtt (service : Bytes) (rtt : Sample)
  deriving DecidableEq, Repr

namespace LimitState

/-- The state before any measurement, with the limits that the constructor of `CreditQueue` sets. -/
def start (config : LimitSettings) : Except Abort LimitState := do
  let doubled ← int32 (config.cpu_count * 2)
  let max_limit ← int32 (doubled + config.extra_limit)
  let sum_limit ← int32 (max_limit * config.hosted.length)
  let averages : AverageMap := fun _ => .create
  let stats : LimitStats := ⟨averages, averages, averages, averages, averages⟩
  if config.routing.length = 0 then
    let others ← int32 (sum_limit - max_limit)
    -- the share of the others is rounded towards zero
    let share ← int32 (truncate (others * config.over_commitment))
    let global_limit ← int32 (max_limit + share)
    .ok ⟨stats, fun _ => max_limit, global_limit⟩
  else .ok ⟨stats, fun _ => max_limit, 2 ^ 31 - 1⟩

/-- One event of a history: a call of `update` on one of the tables, or a Credit Request with its
RTT. -/
def apply (config : LimitSettings) (s : LimitState) : LimitEvent → Except Abort LimitState
  | .credit_request service rtt => update_limits config rtt service s
  | .us_service_time service us => do
    let m ← s.stats.ema_us_service_time_us.update config.hosted service us
    .ok { s with stats := { s.stats with ema_us_service_time_us := m } }
  | .ds_service_time service us => do
    let m ← s.stats.ema_ds_service_time_us.update config.routing service us
    .ok { s with stats := { s.stats with ema_ds_service_time_us := m } }
  | .wait_to_tx service us => do
    let m ← s.stats.ema_wait_to_tx_us.update config.routing service us
    .ok { s with stats := { s.stats with ema_wait_to_tx_us := m } }
  | .ds_sidecar_rtt service rtt => do
    let m ← s.stats.ema_ds_sidecar_rtt_us.update config.routing service rtt
    .ok { s with stats := { s.stats with ema_ds_sidecar_rtt_us := m } }

/-- The state that a history leads to from the start, if nothing in it is undefined. -/
def Reaches (config : LimitSettings) (history : List LimitEvent) (s : LimitState) : Prop :=
  ∃ s₀, start config = .ok s₀ ∧ history.foldlM (apply config) s₀ = .ok s

end LimitState

end RlpSidecar
