/-
**Cyclic scans**: the general facts about walking the positions `0 … n - 1` in a
circle, starting anywhere.

Two loop shapes are covered. `skipFrom` is "advance until the predicate holds,
give up after one turn", which is how an iterator over a table with holes steps
from one occupied entry to the next. `cycleFind` is "try the entry, step to the
next occupied one, stop when back at the start", which is how a round-robin scan
looks for the first entry it can serve. Both are shown to compute the same thing:
the least cyclic offset at which a predicate holds (`firstFrom`), so that a caller
never has to reason about the wrap-around again.

A walk that steps from one occupied position to the next goes around for ever. Counted
from its start its offsets are the numbers at which a periodic predicate holds, in order,
so what it does in one turn is what `Nat.nth` and `Nat.count` say about them.
-/
import Mathlib.Data.Nat.Basic
import Mathlib.Data.List.Basic
import Mathlib.Data.Nat.ModEq
import Mathlib.Data.Nat.Nth
import Mathlib.Data.Nat.Periodic
import Mathlib.Tactic.Linarith

set_option autoImplicit false

namespace Circular

/-! ## Positions on a circle -/

/-- One step forward on the circle `0 … n - 1`, as an iterator makes it at the end of an array. -/
def bump (n x : ℕ) : ℕ := if x + 1 < n then x + 1 else 0

theorem bump_lt {n : ℕ} (hn : 0 < n) (x : ℕ) : bump n x < n := by
  unfold bump; split_ifs <;> omega

/-- A step forward adds one to the cyclic offset, so a walk is described by its offset alone. -/
theorem bump_offset {n i d : ℕ} (hn : 0 < n) : bump n ((i + d) % n) = (i + (d + 1)) % n := by
  have hlt : (i + d) % n < n := Nat.mod_lt _ hn
  have hsucc : (i + (d + 1)) % n = ((i + d) % n + 1) % n := by
    rw [← Nat.add_assoc, Nat.add_mod (i + d) 1 n, Nat.add_mod ((i + d) % n) 1 n, Nat.mod_mod]
  rw [hsucc]
  unfold bump
  split_ifs with h
  · rw [Nat.mod_eq_of_lt h]
  · have heq : (i + d) % n + 1 = n := by omega
    rw [heq, Nat.mod_self]

/-- Every position lies at some offset below `n`: nothing is left out by one turn. -/
theorem exists_offset {n i x : ℕ} (hi : i < n) (hx : x < n) : ∃ d < n, (i + d) % n = x := by
  rcases Nat.lt_or_ge x i with h | h
  · refine ⟨x + n - i, by omega, ?_⟩
    rw [show i + (x + n - i) = x + n by omega, Nat.add_mod_right, Nat.mod_eq_of_lt hx]
  · refine ⟨x - i, by omega, ?_⟩
    rw [show i + (x - i) = x by omega, Nat.mod_eq_of_lt hx]

/-- Offsets below `n` name positions without repetition: nothing is visited twice in one turn. -/
theorem offset_inj {n i d e : ℕ} (hd : d < n) (he : e < n)
    (h : (i + d) % n = (i + e) % n) : d = e := by
  have hmod : d ≡ e [MOD n] := Nat.ModEq.add_left_cancel' i h
  rwa [Nat.ModEq, Nat.mod_eq_of_lt hd, Nat.mod_eq_of_lt he] at hmod

/-! ## The least offset that satisfies a predicate -/

/-- The least offset `d < n` at which `p` holds, walking forward from `i`. -/
def firstFrom (n : ℕ) (p : ℕ → Bool) (i : ℕ) : Option ℕ :=
  (List.range n).find? fun d => p ((i + d) % n)

theorem firstFrom_eq_some {n : ℕ} {p : ℕ → Bool} {i d : ℕ} :
    firstFrom n p i = some d
      ↔ d < n ∧ p ((i + d) % n) = true ∧ ∀ e < d, p ((i + e) % n) = false := by
  unfold firstFrom
  rw [List.find?_range_eq_some]
  simp only [List.mem_range, Bool.not_eq_true']
  tauto

theorem firstFrom_eq_none {n : ℕ} {p : ℕ → Bool} {i : ℕ} (hi : i < n) :
    firstFrom n p i = none ↔ ∀ x < n, p x = false := by
  unfold firstFrom
  rw [List.find?_range_eq_none]
  simp only [Bool.not_eq_true']
  constructor
  · intro h x hx
    obtain ⟨d, hd, rfl⟩ := exists_offset hi hx
    exact h d hd
  · intro h d _
    exact h _ (Nat.mod_lt _ (by omega))

/-- Where a walk that starts at `i` first meets `p`; `i` itself when it never does. -/
def nextFrom (n : ℕ) (p : ℕ → Bool) (i : ℕ) : ℕ :=
  match firstFrom n p i with
  | some d => (i + d) % n
  | none => i

theorem nextFrom_lt {n : ℕ} {p : ℕ → Bool} {i : ℕ} (hi : i < n) : nextFrom n p i < n := by
  unfold nextFrom
  split
  · exact Nat.mod_lt _ (by omega)
  · exact hi

/-- A walk stops on a position that satisfies `p` whenever one exists. -/
theorem nextFrom_holds {n : ℕ} {p : ℕ → Bool} {i x : ℕ} (hi : i < n) (hx : x < n)
    (hp : p x = true) : p (nextFrom n p i) = true := by
  unfold nextFrom
  cases h : firstFrom n p i with
  | some d => exact (firstFrom_eq_some.mp h).2.1
  | none => rw [(firstFrom_eq_none hi).mp h x hx] at hp; exact absurd hp (by simp)

/-! ## The skipping loop -/

/-- "While `p` fails, step; stop after a full turn": the loop of a skipping iterator that
started its scan at `start` and stands at `x`. -/
def skipFrom (n : ℕ) (p : ℕ → Bool) (start : ℕ) : ℕ → ℕ → ℕ
  | 0, x => x
  | fuel + 1, x =>
    if p x then x
    else if bump n x = start then bump n x
    else skipFrom n p start fuel (bump n x)

/-- The loop invariant of `skipFrom`: at offset `d` nothing before it satisfies `p`, and the
fuel covers the rest of the turn. The induction is on the fuel. -/
theorem skipFrom_offset {n : ℕ} {p : ℕ → Bool} {i : ℕ} (hi : i < n) :
    ∀ (fuel d : ℕ), d < n → n ≤ d + fuel → (∀ e < d, p ((i + e) % n) = false) →
      skipFrom n p i fuel ((i + d) % n) = nextFrom n p i
  | 0, d, hd, hfuel, _ => by omega
  | fuel + 1, d, hd, hfuel, hbefore => by
      have hn : 0 < n := by omega
      unfold skipFrom
      by_cases hp : p ((i + d) % n) = true
      · have hfirst : firstFrom n p i = some d := firstFrom_eq_some.mpr ⟨hd, hp, hbefore⟩
        rw [if_pos hp, nextFrom, hfirst]
      · rw [if_neg hp, bump_offset hn]
        have hbefore' : ∀ e < d + 1, p ((i + e) % n) = false := by
          intro e he
          rcases Nat.lt_succ_iff_lt_or_eq.mp he with h | rfl
          · exact hbefore e h
          · simpa using hp
        rcases Nat.lt_or_ge (d + 1) n with hlt | hge
        · -- not around yet, so the search goes on one step farther
          have hne : (i + (d + 1)) % n ≠ i := by
            intro h
            have h0 : (i + (d + 1)) % n = (i + 0) % n := by
              rw [h, Nat.add_zero, Nat.mod_eq_of_lt hi]
            exact absurd (offset_inj hlt hn h0) (by omega)
          rw [if_neg hne]
          exact skipFrom_offset hi fuel (d + 1) hlt (by omega) hbefore'
        · -- back at the start: nothing was found in the whole round
          have hturn : (i + (d + 1)) % n = i := by
            rw [show d + 1 = n by omega, Nat.add_mod_right, Nat.mod_eq_of_lt hi]
          have hnone : firstFrom n p i = none := by
            refine (firstFrom_eq_none hi).mpr fun x hx => ?_
            obtain ⟨e, he, rfl⟩ := exists_offset hi hx
            exact hbefore' e (by omega)
          rw [if_pos hturn, hturn, nextFrom, hnone]

/-- **The skipping loop ends**, after at most one turn, at the first position that satisfies
`p`; more fuel than one turn changes nothing. -/
theorem skipFrom_eq_nextFrom {n : ℕ} {p : ℕ → Bool} {i fuel : ℕ} (hi : i < n) (hfuel : n ≤ fuel) :
    skipFrom n p i fuel i = nextFrom n p i := by
  have h := skipFrom_offset (p := p) hi fuel 0 (by omega) (by omega) (by intro e he; omega)
  rwa [Nat.add_zero, Nat.mod_eq_of_lt hi] at h

/-! ## The round-robin search

`occ` marks the occupied positions and `g` the ones that can be served; only occupied
positions are ever visited. -/

/-- "Serve `x` if possible, else step to the next occupied position; stop back at `start`."
The outer `none` is a search that ran out of fuel, the inner one a search that found nothing. -/
def cycleFind (n : ℕ) (occ g : ℕ → Bool) (start : ℕ) : ℕ → ℕ → Option (Option ℕ)
  | 0, _ => none
  | fuel + 1, x =>
    if g x then some (some x)
    else if nextFrom n occ (bump n x) = start then some none
    else cycleFind n occ g start fuel (nextFrom n occ (bump n x))

/-- Stepping from offset `d` to the next occupied position lands at the least occupied offset
above `d`, or back at the start when there is none. -/
theorem nextFrom_bump {n : ℕ} {occ : ℕ → Bool} {i d : ℕ} (hi : i < n) (hd : d < n)
    (hocc : occ i = true) :
    (∃ e, d < e ∧ e < n ∧ occ ((i + e) % n) = true
        ∧ (∀ c, d < c → c < e → occ ((i + c) % n) = false)
        ∧ nextFrom n occ (bump n ((i + d) % n)) = (i + e) % n)
      ∨ ((∀ c, d < c → c < n → occ ((i + c) % n) = false)
        ∧ nextFrom n occ (bump n ((i + d) % n)) = i) := by
  have hn : 0 < n := by omega
  rw [bump_offset hn]
  have hshift : ∀ c, ((i + (d + 1)) % n + c) % n = (i + (d + 1 + c)) % n := by
    intro c
    rw [Nat.add_mod, Nat.mod_mod, ← Nat.add_mod, Nat.add_assoc i]
  have hturn : (i + n) % n = i := by rw [Nat.add_mod_right, Nat.mod_eq_of_lt hi]
  -- position `i` is occupied, so the walk stops at the latest there, at offset `n - (d + 1)`
  have hstop : occ (((i + (d + 1)) % n + (n - (d + 1))) % n) = true := by
    rw [hshift, show d + 1 + (n - (d + 1)) = n by omega, hturn]; exact hocc
  cases hf : firstFrom n occ ((i + (d + 1)) % n) with
  | none =>
      have := (firstFrom_eq_none (Nat.mod_lt (i + (d + 1)) hn)).mp hf i hi
      rw [hocc] at this
      exact absurd this (by simp)
  | some c =>
      obtain ⟨hc, hocc_c, hmin⟩ := firstFrom_eq_some.mp hf
      have hcle : c ≤ n - (d + 1) := by
        by_contra hlt
        have := hmin (n - (d + 1)) (by omega)
        rw [hstop] at this
        exact absurd this (by simp)
      have hnext : nextFrom n occ ((i + (d + 1)) % n) = (i + (d + 1 + c)) % n := by
        rw [nextFrom, hf]; exact hshift c
      have hgap : ∀ b, d < b → b < d + 1 + c → occ ((i + b) % n) = false := by
        intro b hb hbc
        have := hmin (b - (d + 1)) (by omega)
        rwa [hshift, show d + 1 + (b - (d + 1)) = b by omega] at this
      rcases Nat.lt_or_ge (d + 1 + c) n with hlt | hge
      · left
        refine ⟨d + 1 + c, by omega, hlt, ?_, hgap, hnext⟩
        rw [← hshift]; exact hocc_c
      · right
        have heq : d + 1 + c = n := by omega
        refine ⟨fun b hb hbn => hgap b hb (by omega), ?_⟩
        rw [hnext, heq, hturn]

/-- The invariant of the search: nothing at an offset before `d` can be served. The induction
is on the fuel, which covers the offsets still to visit. -/
theorem cycleFind_offset {n : ℕ} {occ g : ℕ → Bool} {i : ℕ} (hi : i < n) (hocc : occ i = true)
    (hg : ∀ x, g x = true → occ x = true) :
    ∀ (fuel d : ℕ), d < n → n ≤ d + fuel → (∀ e < d, g ((i + e) % n) = false) →
      cycleFind n occ g i fuel ((i + d) % n) = some ((firstFrom n g i).map fun c => (i + c) % n)
  | 0, d, hd, hfuel, _ => by omega
  | fuel + 1, d, hd, hfuel, hbefore => by
      unfold cycleFind
      by_cases hp : g ((i + d) % n) = true
      · have hfirst : firstFrom n g i = some d := firstFrom_eq_some.mpr ⟨hd, hp, hbefore⟩
        rw [if_pos hp, hfirst, Option.map_some]
      · rw [if_neg hp]
        -- what the walk steps over does not satisfy `g` either, since `g` implies `occ`
        have hmiss : ∀ c, occ ((i + c) % n) = false → g ((i + c) % n) = false := by
          intro c hc
          by_contra hgc
          rw [hg _ (by simpa using hgc)] at hc
          exact absurd hc (by simp)
        have hupto : ∀ c ≤ d, g ((i + c) % n) = false := by
          intro c hc
          rcases Nat.lt_or_eq_of_le hc with h | rfl
          · exact hbefore c h
          · simpa using hp
        rcases nextFrom_bump hi hd hocc with ⟨e, hde, hen, _, hgap, hnext⟩ | ⟨hgap, hnext⟩
        · -- the next occupied position is still in this turn: the walk goes on from there
          have hne : (i + e) % n ≠ i := by
            intro h
            have h0 : (i + e) % n = (i + 0) % n := by rw [h, Nat.add_zero, Nat.mod_eq_of_lt hi]
            exact absurd (offset_inj hen (by omega) h0) (by omega)
          rw [hnext, if_neg hne]
          refine cycleFind_offset hi hocc hg fuel e hen (by omega) fun c hc => ?_
          rcases Nat.lt_or_ge d c with hdc | hcd
          · exact hmiss c (hgap c hdc hc)
          · exact hupto c hcd
        · -- the walk is back at the start, and has passed all positions
          have hnone : firstFrom n g i = none := by
            refine (firstFrom_eq_none hi).mpr fun x hx => ?_
            obtain ⟨c, hc, rfl⟩ := exists_offset hi hx
            rcases Nat.lt_or_ge d c with hdc | hcd
            · exact hmiss c (hgap c hdc hc)
            · exact hupto c hcd
          rw [hnext, if_pos rfl, hnone, Option.map_none]

/-- **The round-robin search is exact**: it ends within one turn, with the first servable
position in cyclic order, and with nothing only when no position can be served. -/
theorem cycleFind_eq_firstFrom {n : ℕ} {occ g : ℕ → Bool} {i fuel : ℕ} (hi : i < n)
    (hocc : occ i = true) (hg : ∀ x, g x = true → occ x = true) (hfuel : n ≤ fuel) :
    cycleFind n occ g i fuel i = some ((firstFrom n g i).map fun c => (i + c) % n) := by
  have h := cycleFind_offset hi hocc hg fuel 0 (by omega) (by omega) (by intro e he; omega)
  rwa [Nat.add_zero, Nat.mod_eq_of_lt hi] at h

/-! ## How far a position is ahead

What a walk passes on the way to a position shrinks when the walk starts behind something it would
have passed. -/

/-- The occupied positions at offsets below `d`: those that a walk of that length has passed. -/
def passed (n : ℕ) (occ : ℕ → Bool) (i d : ℕ) : ℕ :=
  (List.range d).countP fun k => occ ((i + k) % n)

theorem passed_add (n : ℕ) (occ : ℕ → Bool) (i d k : ℕ) :
    passed n occ i (d + k) = passed n occ i d + passed n occ ((i + d) % n) k := by
  unfold passed
  rw [List.range_add, List.countP_append, List.countP_map]
  refine congrArg _ (List.countP_congr fun j _ => ?_)
  have hshift : ((i + d) % n + j) % n = (i + (d + j)) % n := by
    rw [Nat.add_mod, Nat.mod_mod, ← Nat.add_mod, Nat.add_assoc]
  simp only [Function.comp, hshift]

theorem passed_pos {n : ℕ} {occ : ℕ → Bool} {i c d : ℕ} (hc : c < d)
    (hocc : occ ((i + c) % n) = true) : 0 < passed n occ i d :=
  List.countP_pos_iff.mpr ⟨c, List.mem_range.mpr hc, hocc⟩

/-- **A walk that starts behind an occupied position**, at the next one, passes fewer. -/
theorem passed_next {n : ℕ} {occ : ℕ → Bool} {i c d : ℕ} (hi : i < n)
    (hocc : occ i = true) (hcd : c < d) (hd : d < n) (hpassed : occ ((i + c) % n) = true)
    (htarget : occ ((i + d) % n) = true) :
    ∃ d' < n, (nextFrom n occ (bump n ((i + c) % n)) + d') % n = (i + d) % n
      ∧ passed n occ (nextFrom n occ (bump n ((i + c) % n))) d' + 1 ≤ passed n occ i d := by
  rcases nextFrom_bump hi (Nat.lt_trans hcd hd) hocc with ⟨e, hce, hen, _, hgap, hnext⟩ | ⟨hgap, _⟩
  · -- the walk comes to the target at the latest
    have hed : e ≤ d := by
      by_contra hlt
      rw [hgap d hcd (by omega)] at htarget
      cases htarget
    obtain ⟨k, rfl⟩ : ∃ k, d = e + k := ⟨d - e, by omega⟩
    have hsplit := passed_add n occ i e k
    have hpos := passed_pos hce hpassed
    rw [hnext]
    refine ⟨k, by omega, ?_, by omega⟩
    rw [Nat.add_mod, Nat.mod_mod, ← Nat.add_mod, Nat.add_assoc]
  · rw [hgap d hcd hd] at htarget
    cases htarget

/-! ## Turns

The walk that starts on an occupied position and goes to the next one, again and again. -/

section Turns

variable (n : ℕ) (occ : ℕ → Bool) (i : ℕ)

/-- From a position to the next occupied one behind it, or around to itself when there is no
other. -/
def stride (x : ℕ) : ℕ := nextFrom n occ (bump n x)

/-- The position at offset `d` is occupied, where the offsets do not end with the first turn. -/
abbrev Occ (d : ℕ) : Prop := occ ((i + d) % n) = true

theorem occ_periodic : Function.Periodic (Occ n occ i) n := by
  intro d
  unfold Occ
  rw [← Nat.add_assoc, Nat.add_mod_right]

theorem count_congr {p q : ℕ → Prop} [DecidablePred p] [DecidablePred q]
    (h : ∀ d, p d ↔ q d) (m : ℕ) :
    Nat.count p m = Nat.count q m := by
  rw [Nat.count_eq_card_filter_range, Nat.count_eq_card_filter_range]
  exact congrArg _ (Finset.filter_congr fun d _ => h d)

/-- The number of occupied positions is the same from wherever one counts. -/
theorem count_turn : Nat.count (Occ n occ i) n = Nat.count (Occ n occ 0) n := by
  have hshift : ∀ d, Occ n occ 0 (i + d) ↔ Occ n occ i d := by
    intro d
    unfold Occ
    rw [Nat.zero_add]
  have hone : Nat.count (Occ n occ 0) (i + n) = Nat.count (Occ n occ 0) i
      + Nat.count (Occ n occ i) n := by
    rw [Nat.count_add]
    congr 1
    exact count_congr hshift n
  have hother : Nat.count (Occ n occ 0) (n + i) = Nat.count (Occ n occ 0) n
      + Nat.count (Occ n occ 0) i := by
    rw [Nat.count_add]
    congr 1
    refine count_congr (fun d => ?_) i
    rw [Nat.add_comm n d]
    exact iff_of_eq (occ_periodic n occ 0 d)
  rw [Nat.add_comm n i] at hother
  omega

variable {n occ i}

/-- A walk from any offset stops at the least offset that is occupied. -/
theorem nextFrom_least {d e : ℕ} (hn : 0 < n) (hde : d ≤ e) (hocc : Occ n occ i e)
    (hgap : ∀ c, d ≤ c → c < e → ¬ Occ n occ i c) : nextFrom n occ ((i + d) % n) = (i + e) % n := by
  have hshift : ∀ c, ((i + d) % n + c) % n = (i + (d + c)) % n := by
    intro c
    rw [Nat.mod_add_mod, Nat.add_assoc]
  -- one turn before `e` the same position is occupied as well
  have hturn : e - d < n := by
    by_contra hfar
    have hback : Occ n occ i (e - n + n) := by
      rw [Nat.sub_add_cancel (by omega)]
      exact hocc
    rw [occ_periodic n occ i (e - n)] at hback
    exact hgap (e - n) (by omega) (by omega) hback
  have hfirst : firstFrom n occ ((i + d) % n) = some (e - d) := by
    refine firstFrom_eq_some.mpr ⟨hturn, ?_, ?_⟩
    · rw [hshift, Nat.add_sub_cancel' hde]
      exact hocc
    · intro c hc
      rw [hshift]
      exact Bool.eq_false_iff.mpr (hgap (d + c) (by omega) (by omega))
  rw [nextFrom, hfirst]
  dsimp only
  rw [hshift, Nat.add_sub_cancel' hde]

section Walk

variable (hi : i < n) (hocc : occ i = true)
include hi hocc

theorem occ_start : Occ n occ i 0 := by
  unfold Occ
  rw [Nat.add_zero, Nat.mod_eq_of_lt hi]
  exact hocc

theorem occ_infinite : (Set.ofPred (Occ n occ i)).Infinite := by
  apply Set.infinite_of_injective_forall_mem (f := fun k : ℕ => k * n)
  · intro a b hab
    exact Nat.eq_of_mul_eq_mul_right (by omega) hab
  · intro k
    show occ ((i + k * n) % n) = true
    rw [Nat.add_mul_mod_self_right, Nat.mod_eq_of_lt hi]
    exact hocc

/-- **Where the walk is** after `k` steps: at the `k`-th occupied offset. The induction is on the
steps. -/
theorem iterate_stride (k : ℕ) : (stride n occ)^[k] i = (i + Nat.nth (Occ n occ i) k) % n := by
  have hinf := occ_infinite hi hocc
  induction k with
  | zero => rw [Nat.nth_zero_of_zero (occ_start hi hocc), Nat.add_zero, Nat.mod_eq_of_lt hi]; rfl
  | succ k ih =>
      rw [Function.iterate_succ_apply', ih, stride, bump_offset (by omega)]
      apply nextFrom_least (by omega)
      · exact Nat.nth_strictMono hinf (Nat.lt_succ_self k)
      · exact Nat.nth_mem_of_infinite hinf (k + 1)
      · intro c hle hlt hc
        have := Nat.le_nth_of_lt_nth_succ hlt hc
        omega

theorem occ_iterate_stride (k : ℕ) : occ ((stride n occ)^[k] i) = true := by
  rw [iterate_stride hi hocc]
  exact Nat.nth_mem_of_infinite (occ_infinite hi hocc) k

/-- As many steps as there are occupied positions are one turn of the circle. -/
theorem nth_turn (k : ℕ) :
    Nat.nth (Occ n occ i) (k + Nat.count (Occ n occ 0) n) = Nat.nth (Occ n occ i) k + n := by
  have hinf := occ_infinite hi hocc
  have hocc' : Occ n occ i (Nat.nth (Occ n occ i) k + n) := by
    rw [occ_periodic n occ i]
    exact Nat.nth_mem_of_infinite hinf k
  have hcount : Nat.count (Occ n occ i) (n + Nat.nth (Occ n occ i) k)
      = Nat.count (Occ n occ 0) n + k := by
    have hshift : ∀ d, Occ n occ i (n + d) ↔ Occ n occ i d := by
      intro d
      rw [Nat.add_comm n d]
      exact iff_of_eq (occ_periodic n occ i d)
    rw [Nat.count_add, count_turn n occ i, count_congr hshift, Nat.count_nth_of_infinite hinf]
  rw [Nat.add_comm k, ← hcount, Nat.add_comm n]
  exact Nat.nth_count hocc'

/-- **After a turn** the walk is where it was, so the visits repeat with this period. -/
theorem iterate_stride_turn (k : ℕ) :
    (stride n occ)^[k + Nat.count (Occ n occ 0) n] i = (stride n occ)^[k] i := by
  rw [iterate_stride hi hocc, iterate_stride hi hocc, nth_turn hi hocc,
    ← Nat.add_assoc, Nat.add_mod_right]

/-- **Within a turn** the walk does not come to a position again. -/
theorem iterate_stride_inj {a b : ℕ} (hab : a ≤ b) (hb : b < a + Nat.count (Occ n occ 0) n)
    (heq : (stride n occ)^[a] i = (stride n occ)^[b] i) : a = b := by
  have hinf := occ_infinite hi hocc
  have hle : Nat.nth (Occ n occ i) a ≤ Nat.nth (Occ n occ i) b := (Nat.nth_le_nth hinf).mpr hab
  have hlt : Nat.nth (Occ n occ i) b < Nat.nth (Occ n occ i) a + n := by
    rw [← nth_turn hi hocc]
    exact (Nat.nth_lt_nth hinf).mpr hb
  rw [iterate_stride hi hocc, iterate_stride hi hocc] at heq
  have hmod : Nat.nth (Occ n occ i) a ≡ Nat.nth (Occ n occ i) b [MOD n] :=
    Nat.ModEq.add_left_cancel' i heq
  have hdvd := (Nat.modEq_iff_dvd' hle).mp hmod
  have hzero := Nat.eq_zero_of_dvd_of_lt hdvd (by omega)
  exact Nat.nth_injective hinf (by omega)

/-- **A turn misses nothing**: from any step on, every occupied position is come to. -/
theorem iterate_stride_surj (k : ℕ) {x : ℕ} (hx : x < n) (hoccx : occ x = true) :
    ∃ j < Nat.count (Occ n occ 0) n, (stride n occ)^[k + j] i = x := by
  have hinf := occ_infinite hi hocc
  have hpos : (i + Nat.nth (Occ n occ i) k) % n < n := Nat.mod_lt _ (by omega)
  obtain ⟨d, hd, hoff⟩ := exists_offset hpos hx
  rw [Nat.mod_add_mod, Nat.add_assoc] at hoff
  have hocce : Occ n occ i (Nat.nth (Occ n occ i) k + d) := by
    unfold Occ
    rw [hoff]
    exact hoccx
  have hnth := Nat.nth_count hocce
  have hge : k ≤ Nat.count (Occ n occ i) (Nat.nth (Occ n occ i) k + d) := by
    apply (Nat.nth_le_nth hinf).mp
    omega
  have hlt : Nat.count (Occ n occ i) (Nat.nth (Occ n occ i) k + d)
      < k + Nat.count (Occ n occ 0) n := by
    apply (Nat.nth_lt_nth hinf).mp
    rw [hnth, nth_turn hi hocc]
    omega
  refine ⟨Nat.count (Occ n occ i) (Nat.nth (Occ n occ i) k + d) - k, by omega, ?_⟩
  rw [Nat.add_sub_cancel' hge, iterate_stride hi hocc, hnth]
  exact hoff

end Walk

end Turns

end Circular
