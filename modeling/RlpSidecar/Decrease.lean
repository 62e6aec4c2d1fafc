/-
**Multiplicative decrease, rounded up.**

A limit is divided by a factor that is greater than one, and rounded up. It never grows and never
gets to zero, but it only gets smaller as long as it is far enough from one: there is a greatest
limit that rounding keeps, every limit above it gets smaller and stays above it or reaches it, and
every limit below it is kept as well. So repeated decreases end there. It is one only for factors
that at least halve. Nothing here depends on the program.

`rest` is that greatest limit, and `iterate_decrease` the statement about repetition: after enough
decreases the limit is the smaller of `rest` and of where it started.
-/
import Mathlib.Algebra.Order.Floor.Semiring
import Mathlib.Algebra.Order.Field.Basic
import Mathlib.Logic.Function.Iterate
import Mathlib.Tactic.Linarith

set_option autoImplicit false

namespace Decrease

variable {K : Type*} [Field K] [LinearOrder K] [IsStrictOrderedRing K] [FloorSemiring K]

/-- The limit `c` after a decrease by the factor `d`: the quotient, rounded up. -/
def decrease (d : K) (c : ℕ) : ℕ := ⌈(c : K) / d⌉₊

/-- The greatest limit that is kept, at which repeated decreases end. -/
def rest (d : K) : ℕ := ⌈1 / (d - 1)⌉₊

variable {d : K} {c k : ℕ}

theorem decrease_mono (hd : 1 < d) {c c' : ℕ} (h : c ≤ c') : decrease d c ≤ decrease d c' := by
  have hd₀ : 0 < d := zero_lt_one.trans hd
  exact Nat.ceil_mono (div_le_div_of_nonneg_right (by exact_mod_cast h) hd₀.le)

/-- A limit is never raised by a decrease, since the factor is above one. -/
theorem decrease_le (hd : 1 < d) (c : ℕ) : decrease d c ≤ c :=
  Nat.ceil_le.mpr (div_le_self (Nat.cast_nonneg c) hd.le)

/-- A limit never gets to zero, since the quotient is rounded up. -/
theorem one_le_decrease (hd : 1 < d) (hc : 1 ≤ c) : 1 ≤ decrease d c := by
  have hd₀ : 0 < d := zero_lt_one.trans hd
  have hc₀ : (0 : K) < c := by exact_mod_cast hc
  exact Nat.ceil_pos.mpr (div_pos hc₀ hd₀)

/-- A limit gets smaller if the part of it that is taken away is a whole one. -/
theorem decrease_lt_iff (hd : 1 < d) (hc : 1 ≤ c) : decrease d c < c ↔ d ≤ c * (d - 1) := by
  have hd₀ : 0 < d := zero_lt_one.trans hd
  have hpred : decrease d c < c ↔ decrease d c ≤ c - 1 := by omega
  have hcast : ((c - 1 : ℕ) : K) = c - 1 := by rw [Nat.cast_sub hc, Nat.cast_one]
  rw [hpred]
  unfold decrease
  rw [Nat.ceil_le, hcast, div_le_iff₀ hd₀]
  constructor <;> intro h <;> linarith

theorem rest_lt_iff (hd : 1 < d) (hc : 1 ≤ c) : rest d < c ↔ d ≤ c * (d - 1) := by
  have hd₁ : 0 < d - 1 := sub_pos.mpr hd
  have hpred : rest d < c ↔ rest d ≤ c - 1 := by omega
  have hcast : ((c - 1 : ℕ) : K) = c - 1 := by rw [Nat.cast_sub hc, Nat.cast_one]
  rw [hpred]
  unfold rest
  rw [Nat.ceil_le, hcast, div_le_iff₀ hd₁]
  constructor <;> intro h <;> linarith

theorem one_le_rest (hd : 1 < d) : 1 ≤ rest d :=
  Nat.ceil_pos.mpr (div_pos one_pos (sub_pos.mpr hd))

/-- Up to there, limits are kept: rounding up undoes the division. -/
theorem decrease_of_le_rest (hd : 1 < d) (h : c ≤ rest d) : decrease d c = c := by
  rcases Nat.eq_zero_or_pos c with hzero | hc
  · rw [hzero]
    exact Nat.le_zero.mp (decrease_le hd 0)
  have hnot : ¬ decrease d c < c := by
    rw [decrease_lt_iff hd hc, ← rest_lt_iff hd hc]
    omega
  exact le_antisymm (decrease_le hd c) (not_lt.mp hnot)

/-- Above it, a decrease does not get below, so repeated decreases end exactly there. -/
theorem rest_le_decrease (hd : 1 < d) (h : rest d ≤ c) : rest d ≤ decrease d c := by
  calc rest d = decrease d (rest d) := (decrease_of_le_rest hd le_rfl).symm
    _ ≤ decrease d c := decrease_mono hd h

/-- **Repeated decreases** end at the greatest limit that is kept, or where they start. -/
theorem iterate_decrease (hd : 1 < d) (h : c - rest d ≤ k) :
    (decrease d)^[k] c = min c (rest d) := by
  induction k generalizing c with
  | zero =>
      rw [Function.iterate_zero, id_eq]
      omega
  | succ k ih =>
      rw [Function.iterate_succ_apply]
      rcases le_or_gt c (rest d) with hle | hgt
      · rw [decrease_of_le_rest hd hle]
        exact ih (by omega)
      · -- one nearer
        have hc : 1 ≤ c := by omega
        have hlt : decrease d c < c := (decrease_lt_iff hd hc).mpr ((rest_lt_iff hd hc).mp hgt)
        have hge := rest_le_decrease hd hgt.le
        rw [ih (by omega)]
        omega

/-- They end at one exactly if the factor at least halves. -/
theorem rest_eq_one_iff (hd : 1 < d) : rest d = 1 ↔ 2 ≤ d := by
  have hd₁ : 0 < d - 1 := sub_pos.mpr hd
  have hone : rest d = 1 ↔ rest d ≤ 1 := ⟨fun h => h.le, fun h => le_antisymm h (one_le_rest hd)⟩
  rw [hone]
  unfold rest
  rw [Nat.ceil_le, Nat.cast_one, div_le_one hd₁]
  constructor <;> intro h <;> linarith

end Decrease
