/-
The limit of the ingress queue (`ingress.cc`, `update_ingress_cap`).

Each time the tail latency of the served requests has been measured, the limit is set again: it is
divided by a factor if the latency is too high, and grows if it is low and the queue is long. A
divided limit is rounded up, which is why repeated decreases end above one unless the factor at
least halves.

Numbers are exact, of any field. A latency is not negative, so that of a service whose objective is
zero is infinitely too high, or not a number.

`OverloadRun` is a run in which the latency is too high at every update. `overload_decreases` says
that the limit is never raised in it and stays at least one, and where it ends, for every
configuration; `late_kept` is the case of the default values, with which a limit of two is kept for
ever.
-/
import RlpSidecar.Decrease
import RlpSidecar.Ingress
import RlpSidecar.QuantileEstimator
import RlpSidecar.TimeWeightedMean

set_option autoImplicit false

namespace RlpSidecar

/-- The configuration of the limit: the two thresholds of the error, and by how much an update
decreases or increases. -/
structure AimdConfig (K : Type) where
  aimd_err_d : K
  aimd_err_i : K
  aimd_adj_d : K
  aimd_adj_i : K
  safe_multiply : K

/-- How far the latency is from its objective. The quotient by an objective of zero is a value of
its own. -/
inductive LatencyError (K : Type)
  | nan
  | infinite
  | finite (err : K)

/-- The ingress of a worker, with the measurements that its limit is computed from. -/
structure MeasuredIngress (n : ℕ) (K T : Type) where
  ingress : Ingress n
  ingress_mean : TimeWeightedMean K
  tail_e2e_time_us : SmoothedQuantileEstimator K T
  time_mean_ds_concurrency : TimeWeightedMean K

/-- What `update_ingress_cap` does to the queue, for what it computes: the limit is at least one. -/
def Ingress.update_cap {n : ℕ} (ingress : Ingress n) : Option ℕ → Ingress n
  | none => ingress
  | some cap => { ingress with ingress_size_cap := max 1 cap }

namespace MeasuredIngress

section Model

variable {n : ℕ} {K T : Type}

/-- `ingress_size_cap`, the number of requests that may wait. -/
def cap (s : MeasuredIngress n K T) : ℕ := s.ingress.ingress_size_cap

/-- The limit is set, and nothing else of the ingress changes. -/
def setCap (s : MeasuredIngress n K T) (cap : ℕ) : MeasuredIngress n K T :=
  { s with ingress := { s.ingress with ingress_size_cap := cap } }

@[simp] theorem cap_setCap (s : MeasuredIngress n K T) (c : ℕ) : (s.setCap c).cap = c := rfl

variable [Field K] [LinearOrder K] [FloorRing K]

/-- The values that are configured if nothing else is, as exact fractions. -/
def defaults : AimdConfig K :=
  { aimd_err_d := -1 / 20
    aimd_err_i := -3 / 10
    aimd_adj_d := 3 / 2
    aimd_adj_i := 1
    safe_multiply := 2 }

/-- `aimd_queue_th`, the part of the limit that must be in use before it is increased. -/
def aimd_queue_th : K := 4 / 5

/-- `err`, the relative distance of the tail latency from the objective. The objective is in
milliseconds. -/
def err (entry : RoutingEntry) (s : MeasuredIngress n K T) : LatencyError K :=
  let slo_us : K := ((entry.slo.getD 0 * 1000 : ℤ) : K)
  let value := s.tail_e2e_time_us.value
  if slo_us = 0 then
    if 0 < value then .infinite else .nan
  else .finite ((value - slo_us) / slo_us)

/-- `update_ingress_cap`. `entry` is the route of the service; the means are read at the times
`now` and `now'`. -/
def update_ingress_cap (config : AimdConfig K) (entry : Option RoutingEntry) (now now' : K)
    (s : MeasuredIngress n K T) : Except Abort (MeasuredIngress n K T) :=
  match entry with
  | none => .error .outOfRange
  | some entry =>
    let decreased := s.setCap ⌈(s.cap : K) / config.aimd_adj_d⌉₊
    let s :=
      match s.err entry with
      -- `0 / 0`: neither comparison holds
      | .nan => s
      | .infinite => decreased
      | .finite err =>
        if config.aimd_err_d < err then decreased
        -- well below the objective: both means are read, which ends their windows
        else if err < config.aimd_err_i then
          let (ing_mean, ingress_mean) := s.ingress_mean.value now
          let (concurrency, time_mean_ds_concurrency) := s.time_mean_ds_concurrency.value now'
          let s :=
            { s with ingress_mean := ingress_mean,
                     time_mean_ds_concurrency := time_mean_ds_concurrency }
          -- the limit is in use, so it may be raised
          if (s.cap : K) * aimd_queue_th ≤ ing_mean then
            s.setCap (s.cap + ⌈-err * config.aimd_adj_i⌉₊)
          else if config.safe_multiply * concurrency < (s.cap : K) then
            let lowered : K := (⌈(s.cap : K) / config.aimd_adj_d⌉₊ : K)
            s.setCap ⌊max (config.safe_multiply * concurrency) lowered⌋₊
          else s
        else s
    -- `std::max(1, …)` at the end of all the branches
    .ok (s.setCap (max 1 s.cap))

/-- The latency is too high: the error is above the threshold for a decrease. -/
def Overloaded (config : AimdConfig K) (entry : RoutingEntry) (s : MeasuredIngress n K T) : Prop :=
  match s.err entry with
  | .nan => False
  | .infinite => True
  | .finite err => config.aimd_err_d < err

/-- **A run** in which the latency is too high at each of `k` updates. Nothing else sets the
limit. -/
inductive OverloadRun (config : AimdConfig K) (entry : RoutingEntry) (s : MeasuredIngress n K T) :
    ℕ → MeasuredIngress n K T → Prop
  | start : OverloadRun config entry s 0 s
  | other {k : ℕ} {s₁ s₂ : MeasuredIngress n K T} :
      OverloadRun config entry s k s₁ → s₂.cap = s₁.cap → OverloadRun config entry s k s₂
  | update {k : ℕ} {s₁ s₂ : MeasuredIngress n K T} (now now' : K) :
      OverloadRun config entry s k s₁ → Overloaded config entry s₁ →
        update_ingress_cap config (some entry) now now' s₁ = .ok s₂ →
          OverloadRun config entry s (k + 1) s₂

end Model

/-! ## Under overload -/

open Decrease

variable {n : ℕ} {K T : Type} [Field K] [LinearOrder K] [IsStrictOrderedRing K] [FloorRing K]
variable {config : AimdConfig K} {entry : RoutingEntry} {now now' : K}
    {s s' : MeasuredIngress n K T} {k : ℕ}

/-- An update under overload is a decrease, for any thresholds and whatever is measured besides. -/
theorem update_of_overloaded (hd : 1 < config.aimd_adj_d) (hcap : 1 ≤ s.cap)
    (h : Overloaded config entry s) :
    update_ingress_cap config (some entry) now now' s
      = .ok (s.setCap (decrease config.aimd_adj_d s.cap)) := by
  -- The decrease stays at one or above, so the last line of the function keeps it.
  have hkept : max 1 (decrease config.aimd_adj_d s.cap) = decrease config.aimd_adj_d s.cap :=
    max_eq_right (one_le_decrease hd hcap)
  have hdecreased : (s.setCap (decrease config.aimd_adj_d s.cap)).setCap
      (max 1 (s.setCap (decrease config.aimd_adj_d s.cap)).cap)
        = s.setCap (decrease config.aimd_adj_d s.cap) := by
    rw [cap_setCap, hkept]
    rfl
  unfold Overloaded at h
  unfold update_ingress_cap
  dsimp only
  cases herr : s.err entry with
  | nan =>
      rw [herr] at h
      exact h.elim
  | infinite => exact congrArg Except.ok hdecreased
  | finite err =>
      rw [herr] at h
      dsimp only at h ⊢
      rw [if_pos h]
      exact congrArg Except.ok hdecreased

/-- In a run of overload the limit is that of as many decreases. -/
theorem run_iterates (hd : 1 < config.aimd_adj_d) (hcap : 1 ≤ s.cap)
    (h : OverloadRun config entry s k s') :
    1 ≤ s'.cap ∧ s'.cap = (decrease config.aimd_adj_d)^[k] s.cap := by
  induction h with
  | start => exact ⟨hcap, rfl⟩
  | other _ hother ih =>
      rw [hother]
      exact ih
  | update _ _ _ hover hupdate ih =>
      obtain ⟨hcap, hiterate⟩ := ih
      rw [update_of_overloaded hd hcap hover] at hupdate
      obtain rfl := Except.ok.inj hupdate
      rw [cap_setCap, Function.iterate_succ_apply', ← hiterate]
      exact ⟨one_le_decrease hd hcap, rfl⟩

/-- Where the latency stays too high, there are such runs of any length. -/
theorem exists_run (hd : 1 < config.aimd_adj_d) (hcap : 1 ≤ s.cap)
    (hover : Overloaded config entry s) (k : ℕ) :
    OverloadRun config entry s k (s.setCap ((decrease config.aimd_adj_d)^[k] s.cap)) := by
  induction k with
  | zero => exact .start
  | succ k ih =>
      -- the latency does not depend on the limit
      have hover' : Overloaded config entry (s.setCap ((decrease config.aimd_adj_d)^[k] s.cap)) :=
        hover
      have hcap' := (run_iterates hd hcap ih).1
      rw [Function.iterate_succ_apply']
      exact .update 0 0 ih hover' (update_of_overloaded hd hcap' hover')

/-- **Under overload the limit is never raised and stays at least one**; it gets smaller if a whole
one is taken away. In a run of overload it ends at the greatest limit that rounding keeps, or where
it starts; which is one, from every start, exactly if the factor at least halves. -/
theorem overload_decreases (config : AimdConfig K) (hd : 1 < config.aimd_adj_d) :
    (∀ (n : ℕ) (T : Type) (entry : RoutingEntry) (now now' : K) (s : MeasuredIngress n K T),
      1 ≤ s.cap → Overloaded config entry s →
        ∃ s', update_ingress_cap config (some entry) now now' s = .ok s'
          ∧ 1 ≤ s'.cap ∧ s'.cap ≤ s.cap
          ∧ (s'.cap < s.cap ↔ config.aimd_adj_d ≤ s.cap * (config.aimd_adj_d - 1)))
      ∧ (∀ (n : ℕ) (T : Type) (entry : RoutingEntry) (k : ℕ) (s s' : MeasuredIngress n K T),
        1 ≤ s.cap → OverloadRun config entry s k s' → s.cap - ⌈1 / (config.aimd_adj_d - 1)⌉₊ ≤ k →
          s'.cap = min s.cap ⌈1 / (config.aimd_adj_d - 1)⌉₊)
      ∧ (⌈1 / (config.aimd_adj_d - 1)⌉₊ = 1 ↔ 2 ≤ config.aimd_adj_d) := by
  refine ⟨?_, ?_, rest_eq_one_iff hd⟩
  · intro n T entry now now' s hcap hover
    refine ⟨_, update_of_overloaded hd hcap hover, ?_⟩
    rw [cap_setCap]
    exact ⟨one_le_decrease hd hcap, decrease_le hd s.cap, decrease_lt_iff hd hcap⟩
  · intro n T entry k s s' hcap hrun hk
    rw [(run_iterates hd hcap hrun).2]
    exact iterate_decrease hd hk

/-- An ingress whose latency is twice its objective of a millisecond, for the concrete run
below. -/
def late (cap : ℕ) : MeasuredIngress 1 ℚ ℕ :=
  { ingress := { Ingress.init 0 0 [] with ingress_size_cap := cap }
    ingress_mean := .create
    tail_e2e_time_us :=
    { SmoothedQuantileEstimator.create (1 / 2) 200 100 (99 / 100) with smoothed_ := some 2000 }
    time_mean_ds_concurrency := .create }

theorem late_overloaded (cap : ℕ) : Overloaded defaults ⟨some 1, some 0⟩ (late cap) := by
  unfold Overloaded err late SmoothedQuantileEstimator.value defaults
  norm_num

theorem one_lt_default : 1 < (defaults : AimdConfig ℚ).aimd_adj_d := by
  unfold defaults
  norm_num

/-- With the default values, eight updates under overload get the limit from ten to two. -/
theorem overload_decreases_default :
    ∃ s', OverloadRun defaults ⟨some 1, some 0⟩ (late 10) 8 s' ∧ s'.cap = 2 := by
  have hrest : ⌈1 / ((defaults : AimdConfig ℚ).aimd_adj_d - 1)⌉₊ = 2 := by
    unfold defaults
    norm_num
  have hcap : 1 ≤ (late 10).cap := by decide
  have hrun := exists_run one_lt_default hcap (late_overloaded 10) 8
  have hend := (overload_decreases defaults one_lt_default).2.1 1 ℕ _ 8 (late 10) _ hcap hrun
  rw [hrest] at hend
  exact ⟨_, hrun, hend (by decide)⟩

/-- **The limit may stop above one**: with the default values, two is kept. -/
theorem late_kept :
    Overloaded defaults ⟨some 1, some 0⟩ (late 2)
      ∧ (late 2).cap = 2 ∧ update_ingress_cap defaults (some ⟨some 1, some 0⟩) 0 0 (late 2)
        = .ok (late 2) := by
  have hkept : decrease (defaults : AimdConfig ℚ).aimd_adj_d 2 = 2 := by
    unfold decrease defaults
    exact (Nat.ceil_eq_iff two_ne_zero).mpr (by norm_num)
  have hcap : 1 ≤ (late 2).cap := by decide
  refine ⟨late_overloaded 2, rfl, ?_⟩
  rw [update_of_overloaded one_lt_default hcap (late_overloaded 2)]
  exact congrArg (fun c => Except.ok ((late 2).setCap c)) hkept

end MeasuredIngress

end RlpSidecar
