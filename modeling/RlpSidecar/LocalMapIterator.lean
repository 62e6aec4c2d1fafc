/-
The circular iterator of `LocalMap`, over any vector of slots (`fast_map.hpp`,
`LocalMap::iterator`).

The iterator has a pointer to the slots and an index, and goes around: behind the last slot comes
the first one. Where an index is out of the vector it is set to zero first, so the loop of
`skip_empty` starts inside, and what ends it is the next occupied slot, or the index it started
from. How many steps that is depends on the gap in front of the iterator, which may be one that
goes over the end of the vector.

`LocalMap` has the iterator of its own slots as `begin_` and `next`; they are these functions.

`visits_once_per_turn` is about any layout of slots with an occupied one: the iterator always
stands on such a slot, comes to each of them once in as many steps as there are, and is back then.
The general facts about walks on a circle do the counting.
-/
import RlpSidecar.LocalMap

set_option autoImplicit false

namespace RlpSidecar

variable {T : Type}

/-- `LocalMap::iterator`: the slots of the map, and the index at which it stands. -/
structure SlotIterator (T : Type) where
  slots_ : List (LocalSlot T)
  idx_ : ℕ

namespace SlotIterator

/-- The loop of `skip_empty`, which ends at the latest when it is back where it started. -/
def skip_loop (slots_ : List (LocalSlot T)) (start idx_ : Fin slots_.length) : Fin slots_.length :=
  if (slots_.get idx_).occupied then idx_
  else
    let next : Fin slots_.length :=
      if hwrap : slots_.length ≤ idx_.val + 1 then ⟨0, Nat.zero_lt_of_lt idx_.isLt⟩
        else ⟨idx_.val + 1, by omega⟩
    if next = start then next else skip_loop slots_ start next
-- how far the index is from where it started, going forward
termination_by if idx_.val < start.val then start.val - idx_.val
  else slots_.length - idx_.val + start.val
decreasing_by
  rename_i hne
  have hne' : ¬ next.val = start.val := fun h => hne (Fin.ext h)
  dsimp only [next] at hne' ⊢
  split_ifs at hne' ⊢ <;> dsimp only at * <;> omega

/-- `skip_empty`, which moves to the next occupied slot, around the end if need be. -/
def skip_empty (it : SlotIterator T) : SlotIterator T :=
  if hne : it.slots_ = [] then it
  else
    let start : Fin it.slots_.length :=
      if hout : it.slots_.length ≤ it.idx_ then ⟨0, List.length_pos_iff.mpr hne⟩
        else ⟨it.idx_, by omega⟩
    { it with idx_ := (skip_loop it.slots_ start start).val }

/-- The constructor, which leaves a free slot at once. -/
def create (slots : List (LocalSlot T)) (idx : ℕ) : SlotIterator T := skip_empty ⟨slots, idx⟩

/-- `begin()`, the first occupied slot from index zero on. -/
def begin_ (slots : List (LocalSlot T)) : SlotIterator T := create slots 0

/-- `operator++`. There is no end: behind the last slot it goes on with the first one. -/
def next (it : SlotIterator T) : SlotIterator T :=
  if it.slots_ = [] then it else skip_empty { it with idx_ := it.idx_ + 1 }

/-- `operator*`, the slot at which the iterator stands. -/
def deref (it : SlotIterator T) : Option (LocalSlot T) := it.slots_[it.idx_]?

/-! ## One step -/

/-- The slot with an index exists and is occupied, as `skip_empty` asks. -/
def occupiedAt (slots : List (LocalSlot T)) (i : ℕ) : Bool := slots[i]?.any LocalSlot.occupied

theorem occupiedAt_get (slots : List (LocalSlot T)) (i : Fin slots.length) :
    occupiedAt slots i = (slots.get i).occupied := by
  unfold occupiedAt
  rw [List.getElem?_eq_getElem i.isLt]
  rfl

/-- The loop goes on as long as the fuel of `Circular.skipFrom` does not run out, and it does
not. -/
theorem skip_loop_eq (slots : List (LocalSlot T)) (start idx : Fin slots.length) (fuel : ℕ)
    (hfuel : (if idx.val < start.val then start.val - idx.val
      else slots.length - idx.val + start.val) ≤ fuel) :
    (skip_loop slots start idx).val = Circular.skipFrom slots.length (occupiedAt slots)
    start.val fuel idx.val := by
  induction fuel generalizing idx with
  | zero =>
      have hlt := idx.isLt
      split_ifs at hfuel <;> omega
  | succ fuel ih =>
      rw [skip_loop, Circular.skipFrom, occupiedAt_get]
      by_cases hocc : (slots.get idx).occupied = true
      · rw [if_pos hocc, if_pos hocc]
      · rw [if_neg hocc, if_neg hocc]
        dsimp only
        generalize hnext : (if hwrap : slots.length ≤ idx.val + 1 then
          (⟨0, Nat.zero_lt_of_lt idx.isLt⟩ : Fin slots.length) else ⟨idx.val + 1, by omega⟩) = next
        have hbump : next.val = Circular.bump slots.length idx.val := by
          rw [← hnext]
          unfold Circular.bump
          split_ifs <;> first | rfl | omega
        rw [← hbump]
        by_cases hback : next = start
        · rw [if_pos hback, if_pos (congrArg Fin.val hback)]
        · have hback' : next.val ≠ start.val := fun h => hback (Fin.ext h)
          rw [if_neg hback, if_neg hback']
          apply ih
          -- one step closer to the start
          have hlt := idx.isLt
          unfold Circular.bump at hbump
          split_ifs at hfuel hbump ⊢ <;> omega

/-- `skip_empty` goes to the next occupied slot, and goes around for it. -/
theorem skip_empty_eq {slots : List (LocalSlot T)} {i : ℕ} (hi : i < slots.length) :
    skip_empty ⟨slots, i⟩ = ⟨slots, Circular.nextFrom slots.length (occupiedAt slots) i⟩ := by
  have hne : slots ≠ [] := List.length_pos_iff.mp (by omega)
  have hin : ¬ slots.length ≤ i := by omega
  have hfuel : (if i < i then i - i else slots.length - i + i) ≤ slots.length := by
    rw [if_neg (lt_irrefl i)]
    omega
  unfold skip_empty
  dsimp only
  rw [dif_neg hne, dif_neg hin, skip_loop_eq slots _ _ slots.length hfuel,
    Circular.skipFrom_eq_nextFrom hi le_rfl]

/-- An index out of the vector is the same as zero, from where the search goes on. -/
theorem skip_empty_out {slots : List (LocalSlot T)} {i : ℕ} (hne : slots ≠ [])
    (hi : slots.length ≤ i) :
    skip_empty ⟨slots, i⟩ = skip_empty ⟨slots, 0⟩ := by
  have hpos := List.length_pos_iff.mpr hne
  have hin : ¬ slots.length ≤ 0 := by omega
  unfold skip_empty
  dsimp only
  rw [dif_neg hne, dif_neg hne, dif_pos hi, dif_neg hin]

/-- `++` is a stride: it goes to the next occupied index in the circle. -/
theorem next_eq {slots : List (LocalSlot T)} {i : ℕ} (hi : i < slots.length) :
    next ⟨slots, i⟩ = ⟨slots, Circular.stride slots.length (occupiedAt slots) i⟩ := by
  have hne : slots ≠ [] := List.length_pos_iff.mp (by omega)
  unfold next Circular.stride
  dsimp only
  rw [if_neg hne]
  by_cases hlast : i + 1 < slots.length
  · rw [skip_empty_eq hlast, Circular.bump, if_pos hlast]
  · rw [skip_empty_out hne (by omega), skip_empty_eq (by omega), Circular.bump, if_neg hlast]

/-! ## The iterator of a map -/

theorem occupiedAt_map (m : LocalMap T) : occupiedAt m.slots_ = m.occupiedAt := by
  funext i
  unfold occupiedAt LocalMap.occupiedAt
  cases m.slots_[i]? <;> rfl

/-- `begin_` of a map is the index of this iterator over its slots. -/
theorem begin_map {m : LocalMap T} (hne : m.slots_ ≠ []) :
    begin_ m.slots_ = ⟨m.slots_, m.begin_⟩ := by
  have hpos := List.length_pos_iff.mpr hne
  unfold begin_ create LocalMap.begin_
  rw [skip_empty_eq hpos, LocalMap.skip_empty_eq hpos, occupiedAt_map]

/-- And `next` of a map is what `++` does to the index. -/
theorem next_map {m : LocalMap T} {i : ℕ} (hi : i < m.slots_.length) :
    next ⟨m.slots_, i⟩ = ⟨m.slots_, m.next i⟩ := by
  rw [next_eq hi, LocalMap.next_eq hi, occupiedAt_map]
  rfl

/-! ## Turns -/

section Turns

variable {slots : List (LocalSlot T)}

/-- The number of occupied slots, as the count that the lemmas about circles use. -/
theorem countP_occupied (slots : List (LocalSlot T)) :
    slots.countP LocalSlot.occupied = Nat.count (Circular.Occ slots.length (occupiedAt slots) 0)
      slots.length := by
  have hcount : ∀ k ≤ slots.length, (slots.take k).countP LocalSlot.occupied
      = Nat.count (Circular.Occ slots.length (occupiedAt slots) 0) k := by
    intro k hk
    induction k with
    | zero => rfl
    | succ k ih =>
        have hlt : k < slots.length := hk
        have hocc : Circular.Occ slots.length (occupiedAt slots) 0 k
            ↔ (slots[k]).occupied = true := by
          unfold Circular.Occ
          rw [Nat.zero_add, Nat.mod_eq_of_lt hlt]
          exact iff_of_eq (congrArg (· = true) (occupiedAt_get slots ⟨k, hlt⟩))
        rw [List.take_succ_eq_append_getElem hlt, List.countP_append, ih (by omega), Nat.count_succ,
          List.countP_singleton]
        congr 1
        exact if_congr hocc.symm rfl rfl
  have hall := hcount slots.length le_rfl
  rwa [List.take_length] at hall

variable {s : LocalSlot T} (hs : s ∈ slots) (hocc : s.occupied = true)
include hs hocc

/-- `begin()` stands on an occupied slot, if there is one. -/
theorem begin_eq : ∃ i < slots.length, begin_ slots = ⟨slots, i⟩ ∧ occupiedAt slots i = true := by
  obtain ⟨x, hx, hget⟩ := List.mem_iff_getElem.mp hs
  have hpos : 0 < slots.length := by omega
  have hoccx : occupiedAt slots x = true := by
    rw [occupiedAt_get slots ⟨x, hx⟩]
    exact (congrArg LocalSlot.occupied hget).trans hocc
  unfold begin_ create
  rw [skip_empty_eq hpos]
  exact ⟨_, Circular.nextFrom_lt hpos, rfl, Circular.nextFrom_holds hpos hx hoccx⟩

/-- Where the iterator is after some steps: that many strides from where it began. -/
theorem iterate_next : ∃ i < slots.length, occupiedAt slots i = true ∧ ∀ k, next^[k] (begin_ slots)
    = ⟨slots, (Circular.stride slots.length (occupiedAt slots))^[k] i⟩ := by
  obtain ⟨i, hi, hbegin, hocci⟩ := begin_eq hs hocc
  refine ⟨i, hi, hocci, ?_⟩
  intro k
  induction k with
  | zero => exact hbegin
  | succ k ih =>
      have hlt : (Circular.stride slots.length (occupiedAt slots))^[k] i < slots.length := by
        rw [Circular.iterate_stride hi hocci]
        exact Nat.mod_lt _ (by omega)
      rw [Function.iterate_succ_apply', Function.iterate_succ_apply', ih, next_eq hlt]

end Turns

/-- **The iterator visits every occupied slot once per turn**, wherever the empty slots are: it
always stands on an occupied slot, as many steps as there are occupied slots come back to the same
slot, and on the way every occupied slot is come to, each once. -/
theorem visits_once_per_turn {slots : List (LocalSlot T)} {s : LocalSlot T} (hs : s ∈ slots)
    (hocc : s.occupied = true) :
    let turn := slots.countP LocalSlot.occupied
    let position (k : ℕ) := (next^[k] (begin_ slots)).idx_
    (∀ k, ∃ t, (next^[k] (begin_ slots)).deref = some t ∧ t.occupied = true)
      ∧ (∀ k, ((List.range turn).map fun j => position (k + j)).Nodup)
      ∧ (∀ k i t, slots[i]? = some t → t.occupied = true → ∃ j < turn, position (k + j) = i)
      ∧ ∀ k, next^[k + turn] (begin_ slots) = next^[k] (begin_ slots) := by
  dsimp only
  -- The iterator walks as the circular stride does, from the first occupied slot.
  obtain ⟨i, hi, hocci, hwalk⟩ := iterate_next hs hocc
  rw [countP_occupied]
  refine ⟨?_, ?_, ?_, ?_⟩
  · intro k
    have hstands := Circular.occ_iterate_stride hi hocci k
    rw [hwalk]
    unfold occupiedAt at hstands
    exact Option.any_eq_true _ _ |>.mp hstands
  · intro k
    apply List.Nodup.map_on _ List.nodup_range
    intro a ha b hb heq
    rw [List.mem_range] at ha hb
    rw [hwalk, hwalk] at heq
    dsimp only at heq
    rcases Nat.le_total a b with hab | hba
    · have := Circular.iterate_stride_inj hi hocci (Nat.add_le_add_left hab k) (by omega) heq
      omega
    · have := Circular.iterate_stride_inj hi hocci (Nat.add_le_add_left hba k) (by omega) heq.symm
      omega
  · intro k x t ht htocc
    have hx : x < slots.length := (List.getElem?_eq_some_iff.mp ht).1
    have hoccx : occupiedAt slots x = true := by
      unfold occupiedAt
      rw [ht]
      exact htocc
    obtain ⟨j, hj, hvisit⟩ := Circular.iterate_stride_surj hi hocci k hx hoccx
    refine ⟨j, hj, ?_⟩
    rw [hwalk]
    exact hvisit
  · intro k
    rw [hwalk, hwalk, Circular.iterate_stride_turn hi hocci]

/-- Two slots in use, with empty ones in front of them, between them and behind them. -/
def twoOfSix : List (LocalSlot ℕ) :=
  [.empty 0, ⟨[97], 1, 0, 0⟩, .empty 0, .empty 0, ⟨[98], 1, 0, 0⟩, .empty 0]

theorem visits_once_per_turn_gaps :
    twoOfSix.countP LocalSlot.occupied = 2
      ∧ ∀ k, next^[k + 2] (begin_ twoOfSix) = next^[k] (begin_ twoOfSix) := by
  have hmem : (⟨[97], 1, 0, 0⟩ : LocalSlot ℕ) ∈ twoOfSix := by decide
  exact ⟨by decide, (visits_once_per_turn hmem (by decide)).2.2.2⟩

end SlotIterator

end RlpSidecar
