/-
**Exponential moving averages**, and limits that are computed from a quotient of them.

An average starts at zero and moves towards each sample by the share `α`. If no sample is negative
the average is not either, and it has left zero exactly if some sample has. A limit that grows with
the rounded quotient `t / g` is bounded if and only if `t` is bounded by a multiple of `g`. Nothing
here depends on the program.

`limit_le_iff` is the statement the limits need: the quotient is of averages that are measured one
at a time, so nothing keeps it bounded by itself, and the bound has to be read back as one between
the averages. The lemmas on the largest and the smallest of some values are for services that wait
for several others at once.
-/
import Mathlib.Algebra.Order.Floor.Ring
import Mathlib.Algebra.Order.Field.Basic
import Mathlib.Tactic.Positivity
import Mathlib.Tactic.Linarith

set_option autoImplicit false

namespace Averages

/-! ## The largest and the smallest of some values -/

section Extremes

variable {ι L : Type*} [LinearOrder L] (f : ι → L)

/-- A loop that keeps the larger value computes the maximum of what it started with and the values
it saw. -/
theorem foldl_larger (l : List ι) (a : L) :
    l.foldl (fun m i => if f i > m then f i else m) a = (l.map f).foldl max a := by
  rw [List.foldl_map]
  congr 1
  funext m i
  rcases lt_or_ge m (f i) with h | h
  · rw [if_pos h, max_eq_right h.le]
  · rw [if_neg (not_lt.mpr h), max_eq_left h]

/-- A loop that keeps the smaller value computes the minimum of what it started with and the values
it saw. -/
theorem foldl_smaller (l : List ι) (a : L) :
    l.foldl (fun m i => if f i < m then f i else m) a = (l.map f).foldl min a := by
  rw [List.foldl_map]
  congr 1
  funext m i
  rcases lt_or_ge (f i) m with h | h
  · rw [if_pos h, min_eq_right h.le]
  · rw [if_neg (not_lt.mpr h), min_eq_left h]

/-- The maximum is below a bound exactly if all of the values are. -/
theorem foldl_max_lt_iff {l : List L} {a b : L} : l.foldl max a < b ↔ a < b ∧ ∀ y ∈ l, y < b := by
  induction l generalizing a with
  | nil => simp
  | cons y l ih =>
      rw [List.foldl_cons, ih, max_lt_iff, List.forall_mem_cons]
      tauto

/-- The minimum is below a bound exactly if one of the values is. -/
theorem foldl_min_lt_iff {l : List L} {a b : L} : l.foldl min a < b ↔ a < b ∨ ∃ y ∈ l, y < b := by
  induction l generalizing a with
  | nil => simp
  | cons y l ih =>
      rw [List.foldl_cons, ih, min_lt_iff, List.exists_mem_cons_iff]
      tauto

theorem le_foldl_max (l : List L) (a : L) : a ≤ l.foldl max a := by
  by_contra h
  exact lt_irrefl _ (foldl_max_lt_iff.mp (not_le.mp h)).1

end Extremes

variable {K : Type*} [Field K] [LinearOrder K] [IsStrictOrderedRing K]

/-! ## The average -/

/-- The average `v` after one more sample `x`, which has the weight `α`. -/
def blend (α v x : K) : K := α * x + (1 - α) * v

variable {α v x : K}

theorem blend_nonneg (h₀ : 0 ≤ α) (h₁ : α ≤ 1) (hv : 0 ≤ v) (hx : 0 ≤ x) : 0 ≤ blend α v x :=
  add_nonneg (mul_nonneg h₀ hx) (mul_nonneg (sub_nonneg.mpr h₁) hv)

/-- The average leaves zero with the first sample that is not zero, and never gets back to it. -/
theorem blend_pos_iff (h₀ : 0 < α) (h₁ : α < 1) (hv : 0 ≤ v) (hx : 0 ≤ x) :
    0 < blend α v x ↔ 0 < v ∨ 0 < x := by
  have hβ : 0 < 1 - α := sub_pos.mpr h₁
  constructor
  · intro h
    by_contra hne
    push Not at hne
    have hv₀ : v = 0 := le_antisymm hne.1 hv
    have hx₀ : x = 0 := le_antisymm hne.2 hx
    rw [blend, hv₀, hx₀, mul_zero, mul_zero, add_zero] at h
    exact lt_irrefl _ h
  · intro h
    rcases h with h | h
    · exact add_pos_of_nonneg_of_pos (mul_nonneg h₀.le hx) (mul_pos hβ h)
    · exact add_pos_of_pos_of_nonneg (mul_pos h₀ h) (mul_nonneg hβ.le hv)

/-! ## A limit that grows with a quotient -/

variable [FloorRing K] {t g : K} {c e r : ℤ}

/-- **When the limit is bounded**: `(max ⌈t / g⌉ 1 + 1) * c + e` is at most `r` if the smallest
such limit is, and `t` is at most so many times `g` as `r` leaves room for. -/
theorem limit_le_iff (hc : 1 ≤ c) (hg : 0 < g) :
    (max ⌈t / g⌉ 1 + 1) * c + e ≤ r ↔ 2 * c + e ≤ r ∧ t ≤ (((r - e) / c - 1 : ℤ) : K) * g := by
  have hc₀ : 0 < c := hc
  calc (max ⌈t / g⌉ 1 + 1) * c + e ≤ r
      ↔ max ⌈t / g⌉ 1 + 1 ≤ (r - e) / c := by
        rw [Int.le_ediv_iff_mul_le hc₀]
        constructor <;> intro h <;> linarith
    _ ↔ 2 ≤ (r - e) / c ∧ ⌈t / g⌉ ≤ (r - e) / c - 1 := by omega
    _ ↔ 2 * c + e ≤ r ∧ t ≤ (((r - e) / c - 1 : ℤ) : K) * g := by
        rw [Int.le_ediv_iff_mul_le hc₀, Int.ceil_le, div_le_iff₀ hg]
        refine and_congr_left' ?_
        constructor <;> intro h <;> linarith

end Averages
