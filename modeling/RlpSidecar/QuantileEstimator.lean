/-
The smoothed quantile of a stream of samples (`quantile_estimator.hpp`,
`SmoothedQuantileEstimator`).

Samples are collected in batches. A batch ends when it is long enough, or when enough time has
passed since the last one ended; the quantile of the batch is then taken, and moves the smoothed
value. Only the front of the batch is sorted.

Numbers are exact, of any field, and NaN is `none`: samples are finite, so it only stands for a
value that is not there yet. `std::partial_sort` is a parameter, since the order of what it leaves
behind the front is not specified.

`reference` is the estimator without a buffer: all samples cut into batches, each batch sorted as a
whole, and the moving average of their quantiles. `refines_reference` says, after any series of
calls, that the value is that of the reference, that no sample is lost, that the value is between
the bounds of the samples that were flushed, and that each flush is reported once.
-/
import RlpSidecar.Averages
import RlpSidecar.Quantiles
import Mathlib.Data.List.DropRight
import Mathlib.Data.Rat.Floor

set_option autoImplicit false

namespace RlpSidecar

open Quantiles

/-- `std::partial_sort`, with what is documented of it: the front is sorted and has the smallest
elements, and the order behind it is open. The theorems hold for every implementation. -/
structure PartialSort (K : Type) [LinearOrder K] where
  partial_sort : List K → ℕ → List K
  sorts : ∀ v k, k ≤ v.length → FrontSorted (partial_sort v k) v k

/-- An implementation that sorts everything, which the documentation allows. -/
def PartialSort.full (K : Type) [LinearOrder K] : PartialSort K where
  partial_sort v _ := v.insertionSort (· ≤ ·)
  sorts v k _ := frontSorted_insertionSort v k

section Quantile

variable {K : Type} [Field K] [LinearOrder K] [IsStrictOrderedRing K] [FloorRing K]

/-! ## The quantile of a batch -/

/-- `max_quantile_sorted_index`: the last index that `quantile_sorted` will read, with its special
cases. -/
def max_quantile_sorted_index (n : ℤ) (q : K) : ℤ :=
  if n ≤ 1 then max 0 (n - 1)
  else if q ≤ 0 then 0
  else if 1 ≤ q then n - 1
  else
    let h : K := ((n - 1 : ℤ) : K) * q
    let lo := ⌊h⌋
    let hi := ⌈h⌉
    max lo hi

/-- `partial_sort_for_quantile`: only the front is sorted, up to the last index that will be read;
all of it when that is the end. -/
def partial_sort_for_quantile (std : PartialSort K) (v : List K) (q : K) : List K :=
  let n := v.length
  if n ≤ 1 then v
  else
    let max_idx := max_quantile_sorted_index n q
    let need := max_idx.toNat + 1
    if n ≤ need then v.insertionSort (· ≤ ·) else std.partial_sort v need

/-- `quantile_sorted`. A position outside of the vector has no value either; there is none. -/
def quantile_sorted (s : List K) (q : K) : Option K :=
  let n : ℤ := s.length
  if s = [] then none
  else if n = 1 then s[0]?
  else if q ≤ 0 then s[0]?
  else if 1 ≤ q then s[(n - 1).toNat]?
  else
    let h : K := ((n - 1 : ℤ) : K) * q
    let lo := ⌊h⌋
    let hi := ⌈h⌉
    -- a whole position, at which there is an element
    if hi ≤ lo then s[lo.toNat]?
    else do
      let a ← s[lo.toNat]?
      let b ← s[hi.toNat]?
      -- between two elements, in proportion
      some (a + (h - lo) * (b - a))

variable {s s' v : List K} {q : K}

omit [IsStrictOrderedRing K] in
/-- **The front decides**: two lists that agree up to the last position that is needed have the
same quantile. -/
theorem quantile_sorted_congr (hlen : s.length = s'.length)
    (hfront : s.take ((max_quantile_sorted_index s.length q).toNat + 1)
      = s'.take ((max_quantile_sorted_index s.length q).toNat + 1)) :
        quantile_sorted s q = quantile_sorted s' q := by
  -- Every index the function reads is at most the largest that the partial sort orders.
  have hget : ∀ i, i ≤ (max_quantile_sorted_index s.length q).toNat → s[i]? = s'[i]? := by
    intro i hi
    have h := congrArg (fun l : List K => l[i]?) hfront
    rwa [List.getElem?_take_of_lt (by omega), List.getElem?_take_of_lt (by omega)] at h
  have hempty : s = [] ↔ s' = [] := by rw [← List.length_eq_zero_iff, hlen, List.length_eq_zero_iff]
  unfold quantile_sorted
  dsimp only
  rw [← hlen]
  by_cases hnil : s = []
  · rw [if_pos hnil, if_pos (hempty.mp hnil)]
  rw [if_neg hnil, if_neg (mt hempty.mpr hnil)]
  have hzero := hget 0 (Nat.zero_le _)
  by_cases hone : (s.length : ℤ) = 1
  · rw [if_pos hone, if_pos hone, hzero]
  rw [if_neg hone, if_neg hone]
  by_cases hq₀ : q ≤ 0
  · rw [if_pos hq₀, if_pos hq₀, hzero]
  rw [if_neg hq₀, if_neg hq₀]
  have hpos := List.length_pos_iff.mpr hnil
  have hsize : ¬ (s.length : ℤ) ≤ 1 := by omega
  unfold max_quantile_sorted_index at hget
  rw [if_neg hsize, if_neg hq₀] at hget
  by_cases hq₁ : 1 ≤ q
  · rw [if_pos hq₁] at hget
    rw [if_pos hq₁, if_pos hq₁, hget _ le_rfl]
  rw [if_neg hq₁] at hget
  rw [if_neg hq₁, if_neg hq₁, hget _ (Int.toNat_le_toNat (le_max_left _ _)),
    hget _ (Int.toNat_le_toNat (le_max_right _ _))]

omit [IsStrictOrderedRing K] in
/-- **Sorting the front is enough**, for every vector and every quantile: what `quantile_sorted`
reads is the same as after a full sort. -/
theorem quantile_of_partial_sort (std : PartialSort K) (v : List K) (q : K) :
    quantile_sorted (partial_sort_for_quantile std v q) q
      = quantile_sorted (v.insertionSort (· ≤ ·)) q := by
  unfold partial_sort_for_quantile
  dsimp only
  by_cases hshort : v.length ≤ 1
  · -- a vector of one element is sorted
    rw [if_pos hshort]
    match v, hshort with
    | [], _ => rfl
    | [x], _ => rfl
  rw [if_neg hshort]
  by_cases hall : v.length ≤ (max_quantile_sorted_index (v.length : ℤ) q).toNat + 1
  · rw [if_pos hall]
  rw [if_neg hall]
  have hfront := std.sorts v ((max_quantile_sorted_index (v.length : ℤ) q).toNat + 1) (by omega)
  have hlen := hfront.perm.length_eq
  apply quantile_sorted_congr
  · rw [hlen, List.length_insertionSort]
  · rw [hlen]
    exact hfront.take_eq

/-- The special cases of `quantile_sorted` are cases of the interpolation, for a quantile within
its range. -/
theorem quantile_sorted_eq (hne : s ≠ []) (hq₀ : 0 ≤ q) (hq₁ : q ≤ 1) :
    quantile_sorted s q = interpolate s (((s.length : K) - 1) * q) := by
  have hpos := List.length_pos_iff.mpr hne
  have hlast : ((s.length : K) - 1) = ((s.length - 1 : ℕ) : K) := by
    rw [Nat.cast_sub hpos, Nat.cast_one]
  have hcast : (((s.length : ℤ) - 1 : ℤ) : K) = (s.length : K) - 1 := by
    rw [Int.cast_sub, Int.cast_natCast, Int.cast_one]
  unfold quantile_sorted
  dsimp only
  rw [if_neg hne, hcast]
  split_ifs with hone hzero hfull hwhole
  · have hlen : s.length = 1 := by omega
    rw [hlen, Nat.cast_one, sub_self, zero_mul, interpolate_zero]
  · rw [le_antisymm hzero hq₀, mul_zero, interpolate_zero]
  · rw [le_antisymm hq₁ hfull, mul_one, hlast, interpolate_natCast]
    congr 1
    omega
  · -- the position is a whole one
    have hh : 0 ≤ ((s.length : K) - 1) * q :=
      mul_nonneg (by rw [hlast]; exact Nat.cast_nonneg _) hq₀
    have hfloor : ((s.length : K) - 1) * q = ((⌊((s.length : K) - 1) * q⌋.toNat : ℕ) : K) := by
      have hle : ((s.length : K) - 1) * q ≤ ⌊((s.length : K) - 1) * q⌋ :=
        (Int.le_ceil _).trans (by exact_mod_cast hwhole)
      have heq := le_antisymm hle (Int.floor_le _)
      have hnonneg : 0 ≤ ⌊((s.length : K) - 1) * q⌋ := Int.floor_nonneg.mpr hh
      calc ((s.length : K) - 1) * q = (⌊((s.length : K) - 1) * q⌋ : K) := heq
        _ = ((⌊((s.length : K) - 1) * q⌋.toNat : ℤ) : K) := by rw [Int.toNat_of_nonneg hnonneg]
        _ = _ := Int.cast_natCast _
    conv_rhs => rw [hfloor]
    rw [interpolate_natCast]
  · have hh : 0 ≤ ((s.length : K) - 1) * q :=
      mul_nonneg (by rw [hlast]; exact Nat.cast_nonneg _) hq₀
    unfold interpolate
    rw [Int.floor_toNat, Int.ceil_toNat, natCast_floor_eq_intCast_floor hh]

/-- **The quantile of a batch** is that of the whole of it. -/
theorem quantile_batch (std : PartialSort K) (hne : v ≠ []) (hq₀ : 0 ≤ q) (hq₁ : q ≤ 1) :
    quantile_sorted (partial_sort_for_quantile std v q) q = quantile v q := by
  have hsorted : v.insertionSort (· ≤ ·) ≠ [] := by
    intro h
    have hlen := List.length_insertionSort (· ≤ ·) v
    rw [h] at hlen
    exact hne (List.length_eq_zero_iff.mp hlen.symm)
  rw [quantile_of_partial_sort, quantile_sorted_eq hsorted hq₀ hq₁, List.length_insertionSort]
  rfl

end Quantile

/-! ## The estimator -/

/-- `SmoothedQuantileEstimator`, over any ordered field and any clock: the parameters, the batch
that is being filled, the time of its flush, and the smoothed value. -/
structure SmoothedQuantileEstimator (K T : Type) where
  ema_alpha_ : K
  time_period_ : T
  sample_period_ : ℕ
  target_q_ : K
  buf_ : List K
  next_flush_ : Option T
  smoothed_ : Option K
  flush_updated_ : Bool

namespace SmoothedQuantileEstimator

variable {K T : Type} [Field K] [LinearOrder K] [IsStrictOrderedRing K]
    [FloorRing K] [Add T] [LE T] [DecidableLE T]

/-- The constructor: an empty batch without a time of flush, and no value yet. -/
def create (ema_alpha : K) (time_period : T) (sample_period : ℕ) (target_quantile : K) :
    SmoothedQuantileEstimator K T :=
  { ema_alpha_ := ema_alpha
    time_period_ := time_period
    sample_period_ := sample_period
    target_q_ := target_quantile
    buf_ := []
    next_flush_ := none
    smoothed_ := none
    flush_updated_ := false }

/-- `flush_at`: the quantile of the batch is blended into the smoothed value, and the next batch
gets its time. An empty batch only gets the time. -/
def flush_at (std : PartialSort K) (now : T) (e : SmoothedQuantileEstimator K T) :
    SmoothedQuantileEstimator K T :=
  -- no sample since the last flush: only the time is set
  if e.buf_ = [] then { e with next_flush_ := some (now + e.time_period_) }
  else
    let scratch := partial_sort_for_quantile std e.buf_ e.target_q_
    let e := { e with buf_ := [], next_flush_ := some (now + e.time_period_) }
    match quantile_sorted scratch e.target_q_ with
    | none => e
    | some q =>
      { e with
        smoothed_ :=
          match e.smoothed_ with
          -- the first quantile is taken as it is
          | none => some q
          | some v => some (e.ema_alpha_ * q + (1 - e.ema_alpha_) * v)
        flush_updated_ := true }

/-- `update`: the sample joins the batch, which is flushed when it is full or its time has come. -/
def update (std : PartialSort K) (sample : K) (now : T) (e : SmoothedQuantileEstimator K T) :
    SmoothedQuantileEstimator K T :=
  let next_flush := e.next_flush_.getD (now + e.time_period_)
  let e := { e with buf_ := e.buf_ ++ [sample], next_flush_ := some next_flush }
  if e.sample_period_ ≤ e.buf_.length ∨ next_flush ≤ now then e.flush_at std now else e

/-- `value`, which is zero before the first flush. -/
def value (e : SmoothedQuantileEstimator K T) : K := e.smoothed_.getD 0

/-- `consume_flush_updated`: whether there was a flush since the last call of it. -/
def consume_flush_updated (e : SmoothedQuantileEstimator K T) :
    Bool × SmoothedQuantileEstimator K T :=
  (e.flush_updated_, { e with flush_updated_ := false })

end SmoothedQuantileEstimator

/-! ## The reference -/

namespace Batches

variable {K T : Type} [Add T] [LE T] [DecidableLE T]

/-- Where the batch ends that `l` begins with, if the last one ended at time `since`: with the
first sample that makes it `N` long, or comes a period later. -/
def batchEnd (N : ℕ) (period since : T) (l : List (K × T)) : Option ℕ :=
  l.zipIdx.findIdx? fun x => N ≤ x.2 + 1 ∨ since + period ≤ x.1.2

/-- The batches of `l`; when the last one ended; and the samples behind it. -/
def cut (N : ℕ) (period since : T) (l : List (K × T)) : List (List (K × T)) × T × List (K × T) :=
  match batchEnd N period since l with
  | none => ([], since, l)
  | some i =>
    match h : l[i]? with
    | none => ([], since, l)
    -- the sample that fills a batch, or comes too late for it, is its last
    | some last =>
      let r := cut N period last.2 (l.drop (i + 1))
      (l.take (i + 1) :: r.1, r.2)
termination_by l.length
decreasing_by
  have := (List.getElem?_eq_some_iff.mp h).1
  rw [List.length_drop]
  omega

/-- The batches of all samples. The time of the first one counts as the end of a batch. -/
def batches (N : ℕ) (period : T) : List (K × T) → List (List K)
  | [] => []
  | x :: l => (cut N period x.2 (x :: l)).1.map (List.map Prod.fst)

/-- A moving average that starts from the first value. The reference that the estimator is compared
with. -/
def smooth [Field K] (α : K) : List K → Option K
  | [] => none
  | x :: xs => some (xs.foldl (Averages.blend α) x)

/-- **The reference**: the quantiles of the batches, each of them sorted, and their moving
average. -/
def reference [Field K] [LinearOrder K] [FloorRing K] (α q : K) (bs : List (List K)) : Option K :=
  smooth α (bs.filterMap fun b => quantile b q)

variable {N : ℕ} {period since : T} {l : List (K × T)} {x : K × T}

/-- One more sample may end the batch, if none of those before did. -/
theorem batchEnd_concat (N : ℕ) (period since : T) (l : List (K × T)) (x : K × T) :
    batchEnd N period since (l ++ [x])
      = (batchEnd N period since l).or (if N ≤ l.length + 1 ∨ since + period ≤ x.2 then
        some l.length else none) := by
  unfold batchEnd
  rw [List.zipIdx_append, List.findIdx?_append, List.length_zipIdx, Nat.zero_add]
  congr 1
  rw [List.zipIdx_singleton, List.findIdx?_singleton]
  split_ifs <;> simp_all

/-- The end of a batch is one of its samples. -/
theorem batchEnd_lt {i : ℕ} (h : batchEnd N period since l = some i) : i < l.length := by
  unfold batchEnd at h
  have := (List.findIdx?_eq_some_iff_getElem.mp h).1
  rwa [List.length_zipIdx] at this

/-- Samples that do not end a batch are all pending. -/
theorem cut_of_none (h : batchEnd N period since l = none) :
    cut N period since l = ([], since, l) := by
  rw [cut]
  split
  · rfl
  · rename_i i hi
    rw [h] at hi
    nomatch hi

/-- A batch that ends is cut off, and the rest is cut from the time of its last sample on. -/
theorem cut_of_some {i : ℕ} {last : K × T} (h : batchEnd N period since l = some i)
    (hlast : l[i]? = some last) :
    cut N period since l
      = (l.take (i + 1) :: (cut N period last.2 (l.drop (i + 1))).1,
        (cut N period last.2 (l.drop (i + 1))).2) := by
  rw [cut]
  split
  · rename_i hi
    rw [h] at hi
    nomatch hi
  · rename_i j hj
    rw [h] at hj
    cases hj
    split
    · rename_i hnone
      rw [hlast] at hnone
      nomatch hnone
    · rename_i last' hlast'
      rw [hlast] at hlast'
      cases hlast'
      rfl

/-- **One more sample** comes to those behind the last batch, and may end the next one. -/
theorem cut_concat (N : ℕ) (period since : T) (l : List (K × T)) (x : K × T) :
    cut N period since (l ++ [x])
      = if N ≤ (cut N period since l).2.2.length + 1 ∨ (cut N period since l).2.1
        + period ≤ x.2 then
          ((cut N period since l).1 ++ [(cut N period since l).2.2 ++ [x]], x.2, [])
        else ((cut N period since l).1, (cut N period since l).2.1,
          (cut N period since l).2.2 ++ [x]) := by
  induction hn : l.length using Nat.strong_induction_on generalizing since l with
  | _ n ih =>
      have hend := batchEnd_concat N period since l x
      cases hi : batchEnd N period since l with
      | none =>
          -- the first batch is not complete without the sample
          rw [cut_of_none hi]
          rw [hi, Option.none_or] at hend
          dsimp only
          split_ifs with h
          · rw [if_pos h] at hend
            have hlen : (l ++ [x]).length = l.length + 1 := List.length_append
            have hlast : (l ++ [x])[l.length]? = some x := List.getElem?_concat_length
            have hdrop : (l ++ [x]).drop (l.length + 1) = [] := List.drop_eq_nil_of_le hlen.le
            have htake : (l ++ [x]).take (l.length + 1) = l ++ [x] := List.take_of_length_le hlen.le
            rw [cut_of_some hend hlast, hdrop, htake, cut_of_none rfl]
            rfl
          · rw [if_neg h] at hend
            rw [cut_of_none hend]
      | some i =>
          have hlt := batchEnd_lt hi
          have hlast := List.getElem?_eq_getElem hlt
          have hlast' : (l ++ [x])[i]? = some l[i] := by rw [List.getElem?_append_left hlt, hlast]
          rw [hi, Option.some_or] at hend
          have hrest :=
            ih (l.drop (i + 1)).length (by rw [List.length_drop]; omega) l[i].2 (l.drop (i + 1)) rfl
          rw [cut_of_some hend hlast', List.drop_append_of_le_length hlt,
            List.take_append_of_le_length hlt, hrest,
            cut_of_some hi hlast]
          split_ifs <;> rfl

/-- When the batch that is not complete ends at the latest, and its samples so far. -/
def pending (N : ℕ) (period : T) : List (K × T) → Option T × List K
  | [] => (none, [])
  | x :: l => (some ((cut N period x.2 (x :: l)).2.1 + period),
      (cut N period x.2 (x :: l)).2.2.map Prod.fst)

/-- Before the first sample it counts as the end of a batch. -/
theorem batches_concat (N : ℕ) (period : T) (l : List (K × T)) (x : K × T) :
    (batches N period (l ++ [x]), pending N period (l ++ [x]))
      = if N ≤ (pending N period l).2.length + 1
        ∨ (pending N period l).1.getD (x.2 + period) ≤ x.2 then
          (batches N period l ++ [(pending N period l).2 ++ [x.1]], some (x.2 + period), [])
        else
          (batches N period l, some ((pending N period l).1.getD (x.2 + period)),
            (pending N period l).2 ++ [x.1]) := by
  cases l with
  | nil =>
      have hnil : cut N period x.2 ([] : List (K × T)) = ([], x.2, []) := cut_of_none rfl
      have h := cut_concat N period x.2 [] x
      rw [hnil] at h
      unfold batches pending
      dsimp only [List.nil_append, List.length_nil, Option.getD_none] at h ⊢
      rw [h]
      split_ifs <;> rfl
  | cons y l =>
      have h := cut_concat N period y.2 (y :: l) x
      rw [List.cons_append] at h
      simp only [List.cons_append, batches, pending, h, List.length_map, Option.getD_some]
      split_ifs <;> simp

/-- Every sample is in one batch, or behind the last one, in the order in which they came. -/
theorem batches_flatten (N : ℕ) (period : T) (l : List (K × T)) :
    (batches N period l).flatten ++ (pending N period l).2 = l.map Prod.fst := by
  induction l using List.reverseRecOn with
  | nil => rfl
  | append_singleton l x ih =>
      have h := batches_concat N period l x
      rw [List.map_append, ← ih]
      split_ifs at h
      · obtain ⟨hbatches, hpending⟩ := Prod.mk.inj h
        rw [hbatches, hpending]
        simp
      · obtain ⟨hbatches, hpending⟩ := Prod.mk.inj h
        rw [hbatches, hpending]
        simp

/-- No batch is empty, so each has a quantile. -/
theorem batches_ne_nil (N : ℕ) (period : T) (l : List (K × T)) :
    ∀ b ∈ batches N period l, b ≠ [] := by
  induction l using List.reverseRecOn with
  | nil => exact fun b hb => nomatch hb
  | append_singleton l x ih =>
      have h := batches_concat N period l x
      intro b hb
      split_ifs at h
      · rw [(Prod.mk.inj h).1] at hb
        rcases List.mem_append.mp hb with hold | hnew
        · exact ih b hold
        · rw [List.mem_singleton.mp hnew]
          exact List.concat_ne_nil _ _
      · rw [(Prod.mk.inj h).1] at hb
        exact ih b hb

section Reference

variable [Field K] {α q y lo hi : K} {bs : List (List K)} {b : List K}

/-- One more value of the moving average. -/
theorem smooth_concat (α : K) (xs : List K) (x : K) :
    smooth α (xs ++ [x])
      = some (match smooth α xs with
        | none => x
        | some v => Averages.blend α v x) := by
  cases xs with
  | nil => rfl
  | cons z xs =>
      rw [List.cons_append, smooth, smooth, List.foldl_append]
      rfl

variable [LinearOrder K] [IsStrictOrderedRing K] [FloorRing K]

omit [IsStrictOrderedRing K] in
/-- One more batch of the reference. -/
theorem reference_concat (hy : quantile b q = some y) :
    reference α q (bs ++ [b])
      = some (match reference α q bs with
        | none => y
        | some v => Averages.blend α v y) := by
  unfold reference
  rw [List.filterMap_append, List.filterMap_cons, hy, List.filterMap_nil, smooth_concat]

/-- **The moving average of quantiles is between the bounds of all samples.** -/
theorem reference_bounds (hα₀ : 0 ≤ α) (hα₁ : α ≤ 1) (hq₀ : 0 ≤ q) (hq₁ : q ≤ 1) (hne : bs ≠ [])
    (hfull : ∀ b ∈ bs, b ≠ []) (hbounds : ∀ x ∈ bs.flatten, lo ≤ x ∧ x ≤ hi) :
    ∃ v, reference α q bs = some v ∧ lo ≤ v ∧ v ≤ hi := by
  induction bs using List.reverseRecOn with
  | nil => exact absurd rfl hne
  | append_singleton bs b ih =>
      rw [List.flatten_append, List.flatten_singleton] at hbounds
      obtain ⟨y, hy, hy₀, hy₁⟩ := quantile_bounds (hfull b List.mem_concat_self) hq₀ hq₁
        fun x hx => hbounds x (List.mem_append_right _ hx)
      rw [reference_concat hy]
      by_cases hfirst : bs = []
      · rw [hfirst]
        exact ⟨y, rfl, hy₀, hy₁⟩
      obtain ⟨v, hv, hv₀, hv₁⟩ := ih hfirst (fun b hb => hfull b (List.mem_append_left _ hb))
        fun x hx => hbounds x (List.mem_append_left _ hx)
      rw [hv]
      refine ⟨_, rfl, ?_⟩
      unfold Averages.blend
      -- a mean of two values between the bounds
      constructor
      · nlinarith [mul_le_mul_of_nonneg_left hy₀ hα₀,
          mul_le_mul_of_nonneg_left hv₀ (sub_nonneg.mpr hα₁)]
      · nlinarith [mul_le_mul_of_nonneg_left hy₁ hα₀,
          mul_le_mul_of_nonneg_left hv₁ (sub_nonneg.mpr hα₁)]

end Reference

end Batches

/-! ## Runs -/

namespace SmoothedQuantileEstimator

variable {K T : Type} [Field K] [LinearOrder K] [IsStrictOrderedRing K]
    [FloorRing K] [Add T] [LE T] [DecidableLE T]

/-- What is called on an estimator that changes it. -/
inductive Call (K T : Type)
  | update (sample : K) (now : T)
  | consume_flush_updated

/-- What a call does to the estimator. -/
def Call.apply (std : PartialSort K) (e : SmoothedQuantileEstimator K T) :
    Call K T → SmoothedQuantileEstimator K T
  | .update sample now => e.update std sample now
  | .consume_flush_updated => e.consume_flush_updated.2

/-- The samples of the calls, with their times, which is all that the batches depend on. -/
def samples (calls : List (Call K T)) : List (K × T) :=
  calls.filterMap fun
    | .update sample now => some (sample, now)
    | .consume_flush_updated => none

/-- The calls up to the last one that consumed; the flag speaks of what came after them. -/
def consumed (calls : List (Call K T)) : List (Call K T) :=
  calls.rdropWhile fun
    | .update _ _ => true
    | .consume_flush_updated => false

/-- The estimator after some calls, from its constructor on. -/
def run (std : PartialSort K) (α : K) (period : T) (N : ℕ) (q : K) (calls : List (Call K T)) :
    SmoothedQuantileEstimator K T :=
  calls.foldl (Call.apply std) (create α period N q)

/-- What the estimator holds after some calls: the batch that is not complete, and the reference
over the others. -/
structure Refines (α : K) (period : T) (N : ℕ) (q : K) (calls : List (Call K T))
    (e : SmoothedQuantileEstimator K T) :
    Prop where
  alpha : e.ema_alpha_ = α
  time_period : e.time_period_ = period
  sample_period : e.sample_period_ = N
  target : e.target_q_ = q
  pending : (e.next_flush_, e.buf_) = Batches.pending N period (samples calls)
  smoothed : e.smoothed_ = Batches.reference α q (Batches.batches N period (samples calls))
  consumed_le :
    (Batches.batches N period (samples (consumed calls))).length
      ≤ (Batches.batches N period (samples calls)).length
  flush_updated :
    e.flush_updated_
      = decide ((Batches.batches N period (samples (consumed calls))).length
          < (Batches.batches N period (samples calls)).length)

variable {α q y : K} {period now : T} {N : ℕ} {sample : K} {calls : List (Call K T)}
    {e : SmoothedQuantileEstimator K T}

omit [LE T] [DecidableLE T] in
/-- A flush of a batch that has a quantile, in closed form. -/
theorem flush_at_eq (std : PartialSort K) (hne : e.buf_ ≠ []) (hq₀ : 0 ≤ e.target_q_)
    (hq₁ : e.target_q_ ≤ 1) (hy : quantile e.buf_ e.target_q_ = some y) :
    e.flush_at std now
      = { e with
          buf_ := []
          next_flush_ := some (now + e.time_period_)
          smoothed_ :=
            some (match e.smoothed_ with
              | none => y
              | some v => Averages.blend e.ema_alpha_ v y)
          flush_updated_ := true } := by
  unfold flush_at
  rw [if_neg hne]
  dsimp only
  rw [quantile_batch std hne hq₀ hq₁, hy]
  cases e.smoothed_ with
  | none => rfl
  | some v => rfl

omit [IsStrictOrderedRing K] in
/-- A new estimator refines the reference on no calls. -/
theorem create_refines (α : K) (period : T) (N : ℕ) (q : K) :
    Refines α period N q [] (create α period N q : SmoothedQuantileEstimator K T) :=
  ⟨rfl, rfl, rfl, rfl, rfl, rfl, Nat.zero_le _, rfl⟩

/-- An update ends a batch exactly if the reference does, and then the smoothed values agree
again. -/
theorem update_refines (std : PartialSort K) (hq₀ : 0 ≤ q) (hq₁ : q ≤ 1)
    (h : Refines α period N q calls e) :
    Refines α period N q (calls ++ [.update sample now]) (e.update std sample now) := by
  obtain rfl := h.alpha
  obtain rfl := h.time_period
  obtain rfl := h.sample_period
  obtain rfl := h.target
  have hsamples : samples (calls ++ [.update sample now]) = samples calls ++ [(sample, now)] := by
    unfold samples
    rw [List.filterMap_append]
    rfl
  have hconsumed : consumed (calls ++ [.update sample now]) = consumed calls :=
    List.rdropWhile_concat_pos _ _ _ rfl
  have hnext : e.next_flush_
      = (Batches.pending e.sample_period_ e.time_period_ (samples calls)).1 :=
        congrArg Prod.fst h.pending
  have hbuf : e.buf_ = (Batches.pending e.sample_period_ e.time_period_ (samples calls)).2 :=
    congrArg Prod.snd h.pending
  have hbatches := Batches.batches_concat e.sample_period_ e.time_period_
    (samples calls) (sample, now)
  rw [← hnext, ← hbuf, ← hsamples] at hbatches
  unfold update
  dsimp only
  rw [List.length_append, List.length_singleton]
  split_ifs at hbatches ⊢ with hend
  · -- the batch is complete
    obtain ⟨hbatches, hpending⟩ := Prod.mk.inj hbatches
    have hne : e.buf_ ++ [sample] ≠ [] := List.concat_ne_nil _ _
    obtain ⟨y, hy⟩ := exists_quantile hne hq₁
    rw [flush_at_eq (e := { e with
      buf_ := e.buf_ ++ [sample]
      next_flush_ := some (e.next_flush_.getD (now + e.time_period_)) }) std hne hq₀ hq₁ hy]
    have hlt : (Batches.batches e.sample_period_ e.time_period_ (samples (consumed calls))).length
        < (Batches.batches e.sample_period_ e.time_period_
          (samples (calls ++ [.update sample now]))).length := by
      rw [hbatches, List.length_append]
      exact Nat.lt_succ_of_le h.consumed_le
    refine ⟨h.alpha, h.time_period, h.sample_period, h.target, ?_, ?_, ?_, ?_⟩
    · rw [hpending, h.time_period]
    · rw [hbatches, Batches.reference_concat hy, ← h.smoothed, ← h.alpha]
    · rw [hconsumed]
      exact hlt.le
    · rw [hconsumed, decide_eq_true hlt]
  · obtain ⟨hbatches, hpending⟩ := Prod.mk.inj hbatches
    refine ⟨rfl, rfl, rfl, rfl, ?_, ?_, ?_, ?_⟩
    · rw [hpending]
    · rw [hbatches, h.smoothed]
    · rw [hconsumed, hbatches]
      exact h.consumed_le
    · rw [hconsumed, hbatches, h.flush_updated]

omit [IsStrictOrderedRing K] in
/-- Asking for the flag keeps the refinement, and the flag starts anew. -/
theorem consume_refines (h : Refines α period N q calls e) :
    Refines α period N q (calls ++ [.consume_flush_updated]) e.consume_flush_updated.2 := by
  have hsamples : samples (calls ++ [.consume_flush_updated]) = samples calls := by
    unfold samples
    rw [List.filterMap_append]
    exact List.append_nil _
  have hconsumed : consumed (calls ++ [.consume_flush_updated])
      = calls ++ [.consume_flush_updated] :=
    List.rdropWhile_concat_neg _ _ _ Bool.false_ne_true
  refine ⟨h.alpha, h.time_period, h.sample_period, h.target, ?_, ?_, ?_, ?_⟩
  · rw [hsamples, ← h.pending]
    rfl
  · rw [hsamples, ← h.smoothed]
    rfl
  · rw [hconsumed]
  · rw [hconsumed, decide_eq_false (lt_irrefl _)]
    rfl

/-- After any calls the estimator refines the reference, by induction on the calls. -/
theorem run_refines (std : PartialSort K) (hq₀ : 0 ≤ q) (hq₁ : q ≤ 1) (calls : List (Call K T)) :
    Refines α period N q calls (run std α period N q calls) := by
  induction calls using List.reverseRecOn with
  | nil => exact create_refines α period N q
  | append_singleton calls c ih =>
      unfold run at ih ⊢
      rw [List.foldl_append]
      cases c with
      | update sample now => exact update_refines std hq₀ hq₁ ih
      | consume_flush_updated => exact consume_refines ih

/-- **The estimator is the moving average of the quantiles of its batches.** The samples of the
batches and those that wait are all samples, in order; the value is between the bounds of what was
flushed, and a flush is reported once. To sort the front is as good as to sort the whole batch. -/
theorem refines_reference (std : PartialSort K) (hα₀ : 0 ≤ α) (hα₁ : α ≤ 1)
    (hq₀ : 0 ≤ q) (hq₁ : q ≤ 1) (period : T) (N : ℕ) (calls : List (Call K T)) :
    let e := run std α period N q calls
    let flushed := Batches.batches N period (samples calls)
    e.value = (Batches.reference α q flushed).getD 0
      ∧ flushed.flatten ++ e.buf_ = (samples calls).map Prod.fst
      ∧ (∀ b ∈ flushed, b ≠ []
          ∧ quantile_sorted (partial_sort_for_quantile std b q) q
            = quantile_sorted (b.insertionSort (· ≤ ·)) q
          ∧ quantile_sorted (partial_sort_for_quantile std b q) q = quantile b q)
      ∧ (∀ lo hi : K, flushed ≠ [] → (∀ x ∈ flushed.flatten, lo ≤ x ∧ x ≤ hi) →
        lo ≤ e.value ∧ e.value ≤ hi)
      ∧ e.consume_flush_updated.1
          = decide ((Batches.batches N period (samples (consumed calls))).length
            < flushed.length) := by
  intro e flushed
  -- The relation that the run keeps; the clauses are read from it.
  have h : Refines α period N q calls e := run_refines std hq₀ hq₁ calls
  have hfull := Batches.batches_ne_nil N period (samples calls)
  have hvalue : e.value = (Batches.reference α q flushed).getD 0 :=
    congrArg (Option.getD · 0) h.smoothed
  refine ⟨hvalue, ?_, ?_, ?_, h.flush_updated⟩
  · rw [← Batches.batches_flatten N period (samples calls), ← h.pending]
  · intro b hb
    exact ⟨hfull b hb, quantile_of_partial_sort std b q, quantile_batch std (hfull b hb) hq₀ hq₁⟩
  · intro lo hi hne hbounds
    obtain ⟨v, hv, hv₀, hv₁⟩ := Batches.reference_bounds hα₀ hα₁ hq₀ hq₁ hne hfull hbounds
    rw [hvalue, hv]
    exact ⟨hv₀, hv₁⟩

/-- The batches of two: `3` and `1` are flushed, and `2` waits. -/
theorem refines_reference_two :
    let calls : List (Call ℚ ℕ) := [.update 3 0, .update 1 1, .consume_flush_updated, .update 2 5]
    let e := run (PartialSort.full ℚ) (1 / 2) 10 2 (1 / 2) calls
    e.buf_ = [2] ∧ 1 ≤ e.value ∧ e.value ≤ 3 := by
  intro calls e
  have hα : (0 : ℚ) ≤ 1 / 2 ∧ (1 / 2 : ℚ) ≤ 1 := by norm_num
  obtain ⟨-, hsplit, -, hbounds, -⟩ :=
    refines_reference (PartialSort.full ℚ) hα.1 hα.2 hα.1 hα.2 10 2 calls
  have hflushed : Batches.batches 2 10 (samples calls) = [[3, 1]] := by
    have hend : Batches.batchEnd 2 10 0 [((3 : ℚ), 0), (1, 1), (2, 5)] = some 1 := rfl
    have hwait : Batches.batchEnd 2 10 1 [((2 : ℚ), 5)] = none := rfl
    change (Batches.cut 2 10 0 [((3 : ℚ), 0), (1, 1), (2, 5)]).1.map (List.map Prod.fst) = _
    rw [Batches.cut_of_some hend rfl]
    change [[(3 : ℚ), 1]] ++ (Batches.cut 2 10 1 [((2 : ℚ), 5)]).1.map (List.map Prod.fst) = _
    rw [Batches.cut_of_none hwait]
    rfl
  rw [hflushed] at hsplit hbounds
  refine ⟨List.append_cancel_left hsplit, hbounds 1 3 (List.cons_ne_nil _ _) ?_⟩
  intro x hx
  rcases List.mem_pair.mp hx with rfl | rfl
  · norm_num
  · norm_num

end SmoothedQuantileEstimator

end RlpSidecar
