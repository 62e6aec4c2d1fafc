/-
**Signed integers of C.**

A value of a signed type is its bits; what it stands for is `toInt`. A difference that does not fit
is undefined, where an unsigned one would wrap around, and a conversion to a narrower type keeps
the lower bits. Nothing here depends on the program.

Sums that are built up in a loop are the other place where a value may not fit.
`foldlM_fit_eq_ok_iff` says that such a loop is defined exactly if every partial sum fits, and the
last lemmas what becomes of that when one summand changes (`prefix_sums_update_iff`).
-/
import Mathlib.Data.Int.Init
import Mathlib.Algebra.BigOperators.Group.List.Basic
import Mathlib.Algebra.Order.BigOperators.Group.List
import Mathlib.Algebra.Order.Ring.Int
import Mathlib.Data.List.Nodup
import Mathlib.Tactic.Common
import Mathlib.Tactic.Ring

set_option autoImplicit false

namespace SignedInt

variable {w : ℕ}

/-- `x - y`, if it fits into the signed type of that width. -/
def sub (x y : BitVec w) : Option (BitVec w) :=
  if BitVec.ssubOverflow x y = true then none else some (x - y)

/-- A difference that is defined is the difference of the values. -/
theorem toInt_of_sub {x y z : BitVec w} (h : sub x y = some z) : z.toInt = x.toInt - y.toInt := by
  unfold sub at h
  split_ifs at h with hover
  obtain rfl := Option.some.inj h
  exact BitVec.toInt_sub_of_not_ssubOverflow hover

/-- **When a difference is defined**: when there is a value for it. -/
theorem sub_eq_some_iff {x y z : BitVec w} : sub x y = some z ↔ z.toInt = x.toInt - y.toInt := by
  refine ⟨toInt_of_sub, ?_⟩
  intro hz
  have hlow := BitVec.le_toInt z
  have hhigh := BitVec.toInt_lt (x := z)
  have hfits : ¬ BitVec.ssubOverflow x y = true := by
    unfold BitVec.ssubOverflow
    rw [← hz]
    simp only [ge_iff_le, Bool.or_eq_true, decide_eq_true_eq]
    omega
  unfold sub
  rw [if_neg hfits]
  apply congrArg some
  apply BitVec.eq_of_toInt_eq
  rw [BitVec.toInt_sub_of_not_ssubOverflow hfits, hz]

/-- A conversion to 32 bits, of what a 64-bit value stands for. -/
theorem toInt_setWidth_32 (x : BitVec 64) : (x.setWidth 32).toInt = Int.bmod x.toInt (2 ^ 32) := by
  have hcast := BitVec.toInt_eq_toNat_cond x
  rw [BitVec.toInt_setWidth, hcast, Int.bmod_def, Int.bmod_def]
  split_ifs at hcast ⊢ <;> omega

/-- **Two times cut to 32 bits** have the difference of the times, if that fits, exactly if both
lie in the same span of `2 ^ 32` around a multiple of it. -/
theorem bmod_sub_bmod {a b : ℤ} (hlow : 0 < a - b) (hhigh : a - b < 2 ^ 31) :
    Int.bmod a (2 ^ 32) - Int.bmod b (2 ^ 32) = a - b
      ↔ (a + 2 ^ 31) / 2 ^ 32 = (b + 2 ^ 31) / 2 ^ 32 := by
  rw [Int.bmod_def, Int.bmod_def]
  split_ifs <;> omega

/-- If they do not, the difference of what is left of them is out of range. -/
theorem bmod_sub_bmod_out {a b : ℤ} (hlow : 0 < a - b) (hhigh : a - b < 2 ^ 31)
    (hspan : (a + 2 ^ 31) / 2 ^ 32 ≠ (b + 2 ^ 31) / 2 ^ 32) :
    Int.bmod a (2 ^ 32) - Int.bmod b (2 ^ 32) < -2 ^ 31 := by
  rw [Int.bmod_def, Int.bmod_def]
  split_ifs <;> omega

/-! ## Running sums -/

/-- The values of a signed type of 32 bits, as integers. -/
def Fits (z : ℤ) : Prop := -2 ^ 31 ≤ z ∧ z < 2 ^ 31

instance (z : ℤ) : Decidable (Fits z) := by
  unfold Fits; infer_instance

/-- `z`, if it fits into 32 bits, and the error `e` otherwise. -/
def fit {ε : Type*} (e : ε) (z : ℤ) : Except ε ℤ := if Fits z then .ok z else .error e

variable {ε : Type*} {e : ε}

@[simp] theorem fit_eq_ok_iff {y z : ℤ} : fit e z = .ok y ↔ Fits z ∧ y = z := by
  unfold fit
  split_ifs with h
  · rw [Except.ok.injEq, eq_comm]
    exact (and_iff_right h).symm
  · exact ⟨fun h' => (nomatch h'), fun h' => absurd h'.1 h⟩

/-- **A running sum is defined** exactly if it fits after every summand, and then it is the sum. -/
theorem foldlM_fit_eq_ok_iff {l : List ℤ} {a z : ℤ} :
    l.foldlM (fun a x => fit e (a + x)) a = .ok z
      ↔ (∀ p, p <+: l → p ≠ [] → Fits (a + p.sum)) ∧ z = a + l.sum := by
  induction l generalizing a with
  | nil =>
      rw [List.foldlM_nil, List.sum_nil, add_zero]
      constructor
      · intro h
        refine ⟨?_, (Except.ok.inj h).symm⟩
        intro p hp hne
        exact absurd (List.prefix_nil.mp hp) hne
      · intro h
        rw [h.2]
        rfl
  | cons x l ih =>
      rw [List.foldlM_cons, List.sum_cons, ← add_assoc]
      by_cases hx : Fits (a + x)
      · have hfit : fit e (a + x) = .ok (a + x) := fit_eq_ok_iff.mpr ⟨hx, rfl⟩
        rw [hfit]
        change l.foldlM (fun a x => fit e (a + x)) (a + x) = .ok z ↔ _
        rw [ih]
        refine and_congr_left' ⟨?_, ?_⟩
        · intro h p hp hne
          rcases List.prefix_cons_iff.mp hp with rfl | ⟨q, rfl, hq⟩
          · exact absurd rfl hne
          · rw [List.sum_cons, ← add_assoc]
            -- the prefix of length one is the first summand, which fits
            by_cases hnil : q = []
            · rw [hnil, List.sum_nil, add_zero]
              exact hx
            · exact h q hq hnil
        · intro h p hp hne
          have hfits := h (x :: p) (List.cons_prefix_cons.mpr ⟨rfl, hp⟩) (List.cons_ne_nil _ _)
          rwa [List.sum_cons, ← add_assoc] at hfits
      · have hfit : fit e (a + x) = .error e := if_neg hx
        rw [hfit]
        constructor
        · intro h
          cases h
        · intro h
          refine absurd ?_ hx
          have hfits :=
            h.1 [x] (List.cons_prefix_cons.mpr ⟨rfl, List.nil_prefix⟩) (List.cons_ne_nil _ _)
          rwa [List.sum_singleton] at hfits

/-! ## Sums above a bound -/

section Bounds

variable {l p : List ℤ} {a b : ℤ}

/-- No part of a sum is below what the whole could be. -/
theorem length_mul_le_sum_of_prefix (hb : b ≤ 0) (hl : ∀ x ∈ l, b ≤ x) (hp : p <+: l) :
    l.length * b ≤ p.sum := by
  have hlength : (p.length : ℤ) ≤ l.length := by exact_mod_cast hp.length_le
  have hsum : p.length • b ≤ p.sum := List.card_nsmul_le_sum p b fun x hx => hl x (hp.subset hx)
  rw [nsmul_eq_mul] at hsum
  exact le_trans (mul_le_mul_of_nonpos_right hlength hb) hsum

/-- Nor is it without its largest summand, for summands that are not below `b`. -/
theorem length_mul_le_sum_sub_max (ha : b ≤ a) (hl : ∀ x ∈ l, b ≤ x) :
    l.length * b ≤ a + l.sum - l.foldl max a := by
  induction l generalizing a with
  | nil => simp
  | cons x l ih =>
      have hx : b ≤ x := hl x List.mem_cons_self
      have hrest := ih (le_trans ha (le_max_left a x)) fun y hy => hl y (List.mem_cons_of_mem _ hy)
      have hpair : max a x + b ≤ a + x := by omega
      have hcast : (((x :: l).length : ℕ) : ℤ) * b = l.length * b + b := by
        rw [List.length_cons, Nat.cast_add_one]
        ring
      rw [List.foldl_cons, List.sum_cons, hcast]
      omega

end Bounds

/-! ## Sums in which one summand changes -/

section Change

variable {ι : Type*} [DecidableEq ι] {keys : List ι} {f : ι → ℤ} {k : ι} {v bound : ℤ}

theorem sum_map_update_of_notMem (hk : k ∉ keys) :
    (keys.map (Function.update f k v)).sum = (keys.map f).sum := by
  apply congrArg List.sum
  apply List.map_congr_left
  intro i hi
  exact Function.update_of_ne (ne_of_mem_of_not_mem hi hk) v f

/-- If no part of a sum exceeds a bound, then after one summand has changed none does exactly if
those with this summand do not. -/
theorem prefix_sums_update_iff (hnodup : keys.Nodup) (hf : ∀ p, p <+: keys.map f → p.sum ≤ bound) :
    (∀ p, p <+: keys.map (Function.update f k v) → p.sum ≤ bound)
      ↔ ∀ before after rest, keys = before ++ k :: (after ++ rest) →
        ((before ++ after).map f).sum + v ≤ bound := by
  -- the sum over a part with the changed summand
  have hpart : ∀ before after rest, keys = before ++ k :: (after ++ rest) →
      ((before ++ k :: after).map (Function.update f k v)).sum
        = ((before ++ after).map f).sum + v := by
    intro before after rest hkeys
    rw [hkeys, List.nodup_middle, List.nodup_cons] at hnodup
    have hbefore : k ∉ before := fun h => hnodup.1 (List.mem_append_left _ h)
    have hafter : k ∉ after :=
      fun h => hnodup.1 (List.mem_append_right _ (List.mem_append_left _ h))
    rw [List.map_append, List.map_cons, List.sum_append, List.sum_cons,
      sum_map_update_of_notMem hbefore,
      sum_map_update_of_notMem hafter, Function.update_self, List.map_append, List.sum_append]
    ring
  constructor
  · intro h before after rest hkeys
    rw [← hpart before after rest hkeys]
    apply h
    rw [hkeys]
    exact ⟨rest.map (Function.update f k v), by simp⟩
  · intro h p hp
    -- a part of the sum belongs to the first keys
    have htake : p = (keys.take p.length).map (Function.update f k v) := by
      rw [List.map_take]
      exact List.prefix_iff_eq_take.mp hp
    obtain ⟨rest, hrest⟩ := List.take_prefix p.length keys
    by_cases hk : k ∈ keys.take p.length
    · obtain ⟨before, after, hsplit⟩ := List.append_of_mem hk
      have hkeys : keys = before ++ k :: (after ++ rest) := by
        rw [← hrest, hsplit, List.append_assoc, List.cons_append]
      rw [htake, hsplit, hpart before after rest hkeys]
      exact h before after rest hkeys
    · rw [htake, sum_map_update_of_notMem hk]
      apply hf
      rw [List.map_take]
      exact List.take_prefix _ _

end Change

end SignedInt
