/-
**Signals that are constant between samples**, and their averages.

A signal is given by its samples, each a time and a level, in the order of their times. It has the
level of the last sample that is not later, so of several samples of one time only the last is ever
seen, and a later sample does not change what was before it. The average over a window is the
integral over the window, divided by its length. Over windows that join, the averages with their
lengths add up to the integral over all of it. Nothing here depends on the program.

Integrals are those of Mathlib, over intervals of real numbers; a signal with finitely many samples
is integrable on each of them, which is all that is needed of it.
-/
import Mathlib.MeasureTheory.Integral.IntervalIntegral.Basic

set_option autoImplicit false

open MeasureTheory Set

namespace Signals

/-! ## Signals -/

/-- The level at time `u`, zero before the first sample: that of the last sample up to then. -/
noncomputable def signal (samples : List (ℝ × ℝ)) (u : ℝ) : ℝ :=
  match (samples.filter fun p => p.1 ≤ u).getLast? with
  | none => 0
  | some p => p.2

variable {samples later : List (ℝ × ℝ)} {t x a b : ℝ}

theorem signal_nil : signal [] = fun _ => 0 := rfl

/-- One more sample sets the level from its time on, and not before. -/
theorem signal_concat (samples : List (ℝ × ℝ)) (t x u : ℝ) :
    signal (samples ++ [(t, x)]) u = if t ≤ u then x else signal samples u := by
  unfold signal
  rw [List.filter_append]
  by_cases h : t ≤ u
  · rw [List.filter_singleton, decide_eq_true h, if_pos h]
    simp
  · rw [List.filter_singleton, decide_eq_false h, if_neg h]
    simp

/-- What is later is not seen, at any time before it. -/
theorem signal_append {u : ℝ} (hlater : ∀ p ∈ later, u < p.1) :
    signal (samples ++ later) u = signal samples u := by
  have hnone : later.filter (fun p => p.1 ≤ u) = [] := by
    apply List.filter_eq_nil_iff.mpr
    intro p hp
    rw [decide_eq_true_iff, not_le]
    exact hlater p hp
  unfold signal
  rw [List.filter_append, hnone, List.append_nil]

/-- A signal with finitely many samples can be integrated over every interval. The induction is on
the samples, from the last. -/
theorem signal_integrable (samples : List (ℝ × ℝ)) (a b : ℝ) :
    IntervalIntegrable (signal samples) volume a b := by
  induction samples using List.reverseRecOn with
  | nil =>
      rw [signal_nil]
      exact intervalIntegrable_const
  | append_singleton samples p ih =>
      obtain ⟨t, x⟩ := p
      have hsplit : signal (samples ++ [(t, x)])
          = (Ici t).piecewise (fun _ => x) (signal samples) := by
        funext u
        rw [signal_concat]
        rfl
      have hconst : IntervalIntegrable (fun _ : ℝ => x) volume a b := intervalIntegrable_const
      rw [hsplit]
      exact ⟨Integrable.piecewise measurableSet_Ici hconst.1.integrable.integrableOn
        ih.1.integrable.integrableOn,
        Integrable.piecewise measurableSet_Ici hconst.2.integrable.integrableOn
        ih.2.integrable.integrableOn⟩

/-- The integral up to some time does not depend on what is later. -/
theorem integral_append (hab : a ≤ b) (hlater : ∀ p ∈ later, b ≤ p.1) :
    ∫ u in a..b, signal (samples ++ later) u = ∫ u in a..b, signal samples u := by
  apply intervalIntegral.integral_congr_Ioo_of_le hab
  intro u hu
  exact signal_append fun p hp => lt_of_lt_of_le hu.2 (hlater p hp)

/-- From the last sample on the signal is constant, and its integral is a rectangle. -/
theorem integral_constant {c : ℝ} (hab : a ≤ b) (hconst : ∀ u, a ≤ u → signal samples u = c) :
    ∫ u in a..b, signal samples u = c * (b - a) := by
  have heq : EqOn (signal samples) (fun _ => c) (uIcc a b) := by
    intro u hu
    rw [uIcc_of_le hab] at hu
    exact hconst u hu.1
  rw [intervalIntegral.integral_congr heq, intervalIntegral.integral_const, smul_eq_mul, mul_comm]

theorem integral_add (samples : List (ℝ × ℝ)) (a b c : ℝ) :
    (∫ u in a..b, signal samples u) + ∫ u in b..c, signal samples u = ∫ u in a..c,
    signal samples u :=
  intervalIntegral.integral_add_adjacent_intervals (signal_integrable samples a b)
    (signal_integrable samples b c)

/-! ## Averages -/

/-- The average over a window: the integral of the signal, by the length of the window. -/
noncomputable def average (samples : List (ℝ × ℝ)) (a b : ℝ) : ℝ :=
  (∫ u in a..b, signal samples u) / (b - a)

/-- It does not depend on what is later than the window. -/
theorem average_append (hab : a ≤ b) (hlater : ∀ p ∈ later, b ≤ p.1) :
    average (samples ++ later) a b = average samples a b := by
  unfold average
  rw [integral_append hab hlater]

theorem average_mul (hab : a < b) : average samples a b * (b - a) = ∫ u in a..b, signal samples u :=
  div_mul_cancel₀ _ (sub_pos.mpr hab).ne'

/-- The average is not below what the signal is not below in the window. -/
theorem le_average {lo : ℝ} (hab : a < b) (hlo : ∀ u, a ≤ u → u < b → lo ≤ signal samples u) :
    lo ≤ average samples a b := by
  rw [average, le_div_iff₀ (sub_pos.mpr hab)]
  calc lo * (b - a) = ∫ _ in a..b,
    lo := by rw [intervalIntegral.integral_const, smul_eq_mul, mul_comm]
    _ ≤ ∫ u in a..b, signal samples u := by
        apply intervalIntegral.integral_mono_on_of_le_Ioo hab.le intervalIntegrable_const
          (signal_integrable samples a b)
        intro u hu
        exact hlo u hu.1.le hu.2

/-- And not above what the signal is not above, anywhere in the window. -/
theorem average_le {hi : ℝ} (hab : a < b) (hhi : ∀ u, a ≤ u → u < b → signal samples u ≤ hi) :
    average samples a b ≤ hi := by
  rw [average, div_le_iff₀ (sub_pos.mpr hab)]
  calc ∫ u in a..b, signal samples u ≤ ∫ _ in a..b, hi := by
        apply intervalIntegral.integral_mono_on_of_le_Ioo hab.le (signal_integrable samples a b)
          intervalIntegrable_const
        intro u hu
        exact hhi u hu.1.le hu.2
    _ = hi * (b - a) := by rw [intervalIntegral.integral_const, smul_eq_mul, mul_comm]

/-! ## Windows that join -/

/-- The averages over some windows, with their lengths: what all of them together integrate. -/
noncomputable def total (samples : List (ℝ × ℝ)) (windows : List (ℝ × ℝ)) : ℝ :=
  (windows.map fun w => average samples w.1 w.2 * (w.2 - w.1)).sum

/-- **Nothing is counted twice or left out** where each window begins with the end of the one
before. -/
theorem total_eq {w : ℝ × ℝ} {windows : List (ℝ × ℝ)} (hpos : ∀ v ∈ w :: windows, v.1 < v.2)
    (hjoin : (w :: windows).IsChain fun v v' => v.2 = v'.1) :
    total samples (w :: windows)
      = ∫ u in w.1..((w :: windows).getLast (List.cons_ne_nil w windows)).2, signal samples u := by
  induction windows generalizing w with
  | nil =>
      unfold total
      rw [List.map_singleton, List.sum_singleton]
      exact average_mul (hpos w List.mem_cons_self)
  | cons v windows ih =>
      have hvw := (List.isChain_cons_cons.mp hjoin).1
      have hrest := ih (fun z hz => hpos z (List.mem_cons_of_mem _ hz))
        (List.isChain_cons_cons.mp hjoin).2
      unfold total at hrest ⊢
      rw [List.map_cons, List.sum_cons, hrest, average_mul (hpos w List.mem_cons_self),
        hvw, integral_add,
        List.getLast_cons (List.cons_ne_nil v windows)]

end Signals
