/-
**Quantiles of a sample**, and sorting only as far as a quantile needs it.

A quantile is read from the sorted sample at a position that is no whole number in general, between
two neighbours. It lies between the least and the greatest of the sample. For the two neighbours it
is enough that the sample is sorted up to the later one: a permutation whose front is in order,
with nothing behind it that is smaller, has the front of the sorted sample. Nothing here depends on
the program.

`FrontSorted` is what is asked of such a permutation, for any way of sorting, and
`FrontSorted.take_eq` that its front is the one of the sorted list.
-/
import Mathlib.Algebra.Order.Floor.Ring
import Mathlib.Algebra.Order.Field.Basic
import Mathlib.Data.List.Sort
import Mathlib.Tactic.Linarith

set_option autoImplicit false

namespace Quantiles

/-! ## Sorting the front -/

section Sorting

variable {α : Type*} [LinearOrder α]

/-- The first `k` of `p` are the `k` smallest of `v`, in order. -/
structure FrontSorted (p v : List α) (k : ℕ) : Prop where
  perm : p.Perm v
  front : (p.take k).Pairwise (· ≤ ·)
  rest : ∀ x ∈ p.take k, ∀ y ∈ p.drop k, x ≤ y

/-- **The front is that of the sorted list**, element by element. -/
theorem FrontSorted.take_eq {p v : List α} {k : ℕ} (h : FrontSorted p v k) :
    p.take k = (v.insertionSort (· ≤ ·)).take k := by
  have hsorted : (p.take k ++ (p.drop k).insertionSort (· ≤ ·)).Pairwise (· ≤ ·) := by
    refine List.pairwise_append.mpr ⟨h.front, List.sortedLE_insertionSort.pairwise, ?_⟩
    intro x hx y hy
    exact h.rest x hx y ((List.mem_insertionSort _).mp hy)
  have hperm : (p.take k ++ (p.drop k).insertionSort (· ≤ ·)).Perm (v.insertionSort (· ≤ ·)) := by
    have hparts := (List.perm_insertionSort (· ≤ ·) (p.drop k)).append_left (p.take k)
    rw [List.take_append_drop] at hparts
    exact (hparts.trans h.perm).trans (List.perm_insertionSort (· ≤ ·) v).symm
  have heq := hperm.eq_of_pairwise' hsorted List.sortedLE_insertionSort.pairwise
  have htake : (p.take k).take k = p.take k := by rw [List.take_take, min_self]
  rw [← heq]
  rcases le_total k p.length with hk | hk
  · rw [List.take_left' (by rw [List.length_take, min_eq_left hk])]
  · -- everything is in front
    rw [List.drop_eq_nil_of_le hk, List.insertionSort_nil, List.append_nil, htake]

/-- To sort everything sorts the front, whatever its length. -/
theorem frontSorted_insertionSort (v : List α) (k : ℕ) :
    FrontSorted (v.insertionSort (· ≤ ·)) v k := by
  have hsorted : (v.insertionSort (· ≤ ·)).Pairwise (· ≤ ·) := List.sortedLE_insertionSort.pairwise
  rw [← List.take_append_drop k (v.insertionSort (· ≤ ·))] at hsorted
  obtain ⟨hfront, -, hrest⟩ := List.pairwise_append.mp hsorted
  exact ⟨List.perm_insertionSort _ v, hfront, hrest⟩

end Sorting

/-! ## Interpolation -/

variable {K : Type*} [Field K] [LinearOrder K] [IsStrictOrderedRing K] [FloorRing K]

/-- The value at position `h` of a list, on the line between the two elements next to it. -/
def interpolate (s : List K) (h : K) : Option K := do
  let lo ← s[⌊h⌋₊]?
  let hi ← s[⌈h⌉₊]?
  some (lo + (h - ⌊h⌋₊) * (hi - lo))

/-- The quantile `q` of a sample: the value at its place in the sorted sample, between two elements
if need be. -/
def quantile (v : List K) (q : K) : Option K := interpolate (v.insertionSort (· ≤ ·))
    (((v.length : K) - 1) * q)

variable {v s : List K} {h q lo hi : K}

/-- At a whole position the value is the element there, and nothing is interpolated. -/
theorem interpolate_natCast (s : List K) (k : ℕ) : interpolate s (k : K) = s[k]? := by
  unfold interpolate
  rw [Nat.floor_natCast, Nat.ceil_natCast, sub_self]
  cases s[k]? with
  | none => rfl
  | some x => simp

theorem interpolate_zero (s : List K) : interpolate s (0 : K) = s[0]? := by
  rw [← Nat.cast_zero]
  exact interpolate_natCast s 0

/-- Where there are elements on both sides, the value is between them. -/
theorem interpolate_bounds (hh : 0 ≤ h) (hceil : ⌈h⌉₊ < s.length)
    (hbounds : ∀ x ∈ s, lo ≤ x ∧ x ≤ hi) :
    ∃ y, interpolate s h = some y ∧ lo ≤ y ∧ y ≤ hi := by
  have hfloor : ⌊h⌋₊ < s.length := lt_of_le_of_lt (Nat.floor_le_ceil h) hceil
  have hf := hbounds _ (List.getElem_mem hfloor)
  have hc := hbounds _ (List.getElem_mem hceil)
  refine ⟨_, by rw [interpolate, List.getElem?_eq_getElem hfloor,
    List.getElem?_eq_getElem hceil]; rfl, ?_⟩
  -- the weight of the later one is between zero and one
  have hw₀ : 0 ≤ h - ⌊h⌋₊ := sub_nonneg.mpr (Nat.floor_le hh)
  have hw₁ : h - ⌊h⌋₊ ≤ 1 := by
    have := Nat.lt_floor_add_one h
    linarith
  constructor
  · nlinarith [hf.1, hc.1]
  · nlinarith [hf.2, hc.2]

/-- The position of a quantile is inside of the sample, also when it is rounded up. -/
theorem quantile_position_lt (hne : v ≠ []) (hq₁ : q ≤ 1) :
    ⌈((v.length : K) - 1) * q⌉₊ < v.length := by
  have hlen : 1 ≤ v.length := List.length_pos_iff.mpr hne
  have hn : (0 : K) ≤ (v.length : K) - 1 := sub_nonneg.mpr (by exact_mod_cast hlen)
  rw [Nat.lt_iff_add_one_le, ← Nat.le_sub_iff_add_le hlen, Nat.ceil_le,
    Nat.cast_sub hlen, Nat.cast_one]
  exact mul_le_of_le_one_right hn hq₁

theorem exists_quantile (hne : v ≠ []) (hq₁ : q ≤ 1) : ∃ y, quantile v q = some y := by
  have hceil := quantile_position_lt hne hq₁
  have hfloor := lt_of_le_of_lt (Nat.floor_le_ceil (((v.length : K) - 1) * q)) hceil
  have hlen := List.length_insertionSort (· ≤ ·) v
  unfold quantile interpolate
  rw [List.getElem?_eq_getElem (lt_of_lt_of_eq hfloor hlen.symm),
    List.getElem?_eq_getElem (lt_of_lt_of_eq hceil hlen.symm)]
  exact ⟨_, rfl⟩

/-- **A quantile is between the bounds of its sample**, and there is one if the sample is not
empty. -/
theorem quantile_bounds (hne : v ≠ []) (hq₀ : 0 ≤ q) (hq₁ : q ≤ 1)
    (hbounds : ∀ x ∈ v, lo ≤ x ∧ x ≤ hi) :
    ∃ y, quantile v q = some y ∧ lo ≤ y ∧ y ≤ hi := by
  have hlen : 1 ≤ v.length := List.length_pos_iff.mpr hne
  have hn : (0 : K) ≤ (v.length : K) - 1 := sub_nonneg.mpr (by exact_mod_cast hlen)
  apply interpolate_bounds (mul_nonneg hn hq₀)
  · rw [List.length_insertionSort]
    exact quantile_position_lt hne hq₁
  · intro x hx
    exact hbounds x ((List.mem_insertionSort _).mp hx)

end Quantiles
