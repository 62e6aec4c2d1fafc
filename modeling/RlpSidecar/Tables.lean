/-
**Tables of records**, each stored under its own key.

A hash map is an `AList`, and a two-level map (a map of maps, as a registry keyed by a
connection and a stream is) an `AList` of them; `find` sees through the two levels, and every
update is stated as a `Function.update` of it.

`Indexes` is the relation between such a map and the records it is about: it holds exactly the
records of some set, each under its own key. It is kept by an insertion under a key that is not
in use, by an erasure, and by any change to a record that leaves its key alone, and it makes the
keys of the set distinct.

What cannot be said with one map is said with three of these relations over one set: a registry
that finds its objects by several keys is coherent if each of its maps is an index of the objects
that have such a key.
-/
import Mathlib.Algebra.GroupWithZero.Nat
import Mathlib.Data.List.AList
import Mathlib.Logic.Function.Basic
import Mathlib.Tactic.Common

set_option autoImplicit false

namespace Tables

variable {K K₁ K₂ V A : Type}

/-! ## Maps -/

/-- An unordered map, `std::unordered_map`. The order of the entries is never used, only their
number and what is found under a key. -/
abbrev UMap (K V : Type) := AList fun _ : K => V

section Flat

variable [DecidableEq K]

/-- An insertion, seen as a change of the function from keys to values. -/
theorem lookup_insert_eq (m : UMap K V) (k : K) (v : V) :
    (fun k' => (m.insert k v).lookup k') = Function.update (fun k' => m.lookup k') k (some v) := by
  funext k'
  by_cases h : k' = k
  · subst h; rw [AList.lookup_insert, Function.update_self]
  · rw [AList.lookup_insert_ne h, Function.update_of_ne h]

/-- The later of two insertions under a key counts, as with two assignments through
`operator[]`. -/
theorem lookup_insert_insert (m : UMap K V) (k : K) (v w : V) :
    (fun k' => ((m.insert k v).insert k w).lookup k')
      = Function.update (fun k' => m.lookup k') k (some w) := by
  have hout := lookup_insert_eq (m.insert k v) k w
  rwa [lookup_insert_eq m k v, Function.update_idem] at hout

/-- An erasure, seen as a change of the function from keys to values. -/
theorem lookup_erase_eq (m : UMap K V) (k : K) :
    (fun k' => (m.erase k).lookup k') = Function.update (fun k' => m.lookup k') k none := by
  funext k'
  by_cases h : k' = k
  · subst h; rw [AList.lookup_erase, Function.update_self]
  · rw [AList.lookup_erase_ne h, Function.update_of_ne h]

/-- `emplace`: inserts only if the key is free, and says whether it did. -/
def emplace (m : UMap K V) (k : K) (v : V) : UMap K V × Bool :=
  if k ∈ m then (m, false) else (m.insert k v, true)

/-- `emplace` under a free key inserts and says so by its second component. -/
theorem emplace_of_free {m : UMap K V} {k : K} (h : m.lookup k = none) (v : V) :
    emplace m k v = (m.insert k v, true) := by
  unfold emplace
  rw [if_neg (AList.lookup_eq_none.mp h)]

/-- After an `emplace` the key is there, and all keys that were. -/
theorem mem_emplace {m : UMap K V} {k k' : K} {v : V} : k' ∈ (emplace m k v).1
    ↔ k' = k ∨ k' ∈ m := by
  unfold emplace
  split_ifs with h
  · exact ⟨Or.inr, fun h' => h'.elim (fun heq => heq ▸ h) id⟩
  · exact AList.mem_insert _

/-- If `emplace` says that it has inserted, the key was free. -/
theorem emplace_snd {m : UMap K V} {k : K} {v : V} (h : (emplace m k v).2 = true) :
    m.lookup k = none := by
  unfold emplace at h
  split_ifs at h with hk
  exact AList.lookup_eq_none.mpr hk

/-- Values that are found under no key are not counted. -/
theorem countP_eq_zero {m : UMap K V} {p : V → Bool}
    (h : ∀ k v, m.lookup k = some v → p v = false) :
    m.entries.countP (fun x => p x.2) = 0 := by
  rw [List.countP_eq_zero]
  rintro ⟨k, v⟩ hmem
  rw [Bool.not_eq_true]
  exact h k v (AList.mem_lookup_iff.mpr hmem)

end Flat

/-! ## Maps of maps -/

/-- A map of maps, as the registry has them for descriptors and streams. -/
abbrev Nested (K₁ K₂ V : Type) := UMap K₁ (UMap K₂ V)

namespace Nested

variable [DecidableEq K₁] [DecidableEq K₂]

/-- The value under both keys, whichever of them is missing, as the code looks twice. -/
def find (t : Nested K₁ K₂ V) (k : K₁ × K₂) : Option V :=
  (t.lookup k.1).bind fun b => b.lookup k.2

/-- The outer key gets an empty map if it has none: what `operator[]` does on the way to the inner
map. -/
def touch (t : Nested K₁ K₂ V) (i : K₁) : Nested K₁ K₂ V := (emplace t i ∅).1

/-- The entries whose value satisfies `p`, over all inner maps of the table. -/
def count (t : Nested K₁ K₂ V) (p : V → Bool) : ℕ :=
  (t.entries.map fun x => x.2.entries.countP fun y => p y.2).sum

/-- An empty map has no value under any pair of keys. -/
@[simp] theorem find_empty (k : K₁ × K₂) : find (∅ : Nested K₁ K₂ V) k = none := rfl

/-- An empty inner map changes nothing that is found, which is why `operator[]` may add one. -/
@[simp] theorem find_touch (t : Nested K₁ K₂ V) (i : K₁) (k : K₁ × K₂) :
    (t.touch i).find k = t.find k := by
  unfold touch emplace
  split_ifs with h
  · rfl
  · unfold find
    by_cases hk : k.1 = i
    · subst hk
      rw [AList.lookup_insert, AList.lookup_eq_none.mpr h]
      rfl
    · rw [AList.lookup_insert_ne hk]

omit [DecidableEq K₂] in
/-- Behind `operator[]` there is an inner map, if it was there before or not. -/
theorem exists_bucket (t : Nested K₁ K₂ V) (i : K₁) : ∃ b, (t.touch i).lookup i = some b := by
  unfold touch emplace
  split_ifs with h
  · exact Option.isSome_iff_exists.mp (AList.lookup_isSome.mpr h)
  · exact ⟨∅, AList.lookup_insert _⟩

/-- What is found under an outer key that has an inner map. -/
theorem find_eq {t : Nested K₁ K₂ V} {i : K₁} {b : UMap K₂ V} (h : t.lookup i = some b) (j : K₂) :
    t.find (i, j) = b.lookup j := by
  unfold find; rw [h]; rfl

/-- What is found under both keys is in an inner map. -/
theorem exists_of_find {t : Nested K₁ K₂ V} {k : K₁ × K₂} {v : V} (h : t.find k = some v) :
    ∃ b, t.lookup k.1 = some b ∧ b.lookup k.2 = some v := Option.bind_eq_some_iff.mp h

/-- Replacing one inner map by another, when these differ in one key: the function on pairs changes
there only. -/
theorem find_insert {t : Nested K₁ K₂ V} {i : K₁} {b b' : UMap K₂ V} (h : t.lookup i = some b)
    {j : K₂} {v : Option V}
    (hb : (fun j' => b'.lookup j') = Function.update (fun j' => b.lookup j') j v) :
    find (t.insert i b') = Function.update t.find (i, j) v := by
  funext k
  obtain ⟨i', j'⟩ := k
  by_cases hi : i' = i
  · subst hi
    rw [find_eq (AList.lookup_insert _), congrFun hb j']
    by_cases hj : j' = j
    · subst hj; rw [Function.update_self, Function.update_self]
    · rw [Function.update_of_ne hj, Function.update_of_ne fun heq => hj (Prod.mk.inj heq).2,
        find_eq h]
  · rw [Function.update_of_ne fun heq => hi (Prod.mk.inj heq).1]
    unfold find
    rw [AList.lookup_insert_ne hi]

/-- So for a map of maps, where the keys are pairs. -/
theorem count_eq_zero {t : Nested K₁ K₂ V} {p : V → Bool}
    (h : ∀ k v, t.find k = some v → p v = false) : t.count p = 0 := by
  unfold count
  rw [List.sum_eq_zero_iff_forall_eq_nat]
  intro x hx
  obtain ⟨⟨i, b⟩, hmem, rfl⟩ := List.mem_map.mp hx
  refine countP_eq_zero fun j v hv => h (i, j) v ?_
  rw [find_eq (AList.mem_lookup_iff.mpr hmem)]
  exact hv

end Nested

/-! ## Indexes -/

/-- The map holds exactly the records of `live`, each under its own key. -/
def Indexes (find : K → Option A) (live : A → Prop) (key : A → K) : Prop :=
  ∀ k a, find k = some a ↔ live a ∧ key a = k

namespace Indexes

variable {find : K → Option A} {live live' : A → Prop} {key key' : A → K}

/-- Each record is found under its key, as long as it is live. -/
theorem find_key (h : Indexes find live key) {a : A} (ha : live a) : find (key a) = some a :=
  (h _ a).mpr ⟨ha, rfl⟩

/-- The keys of the records are distinct, since each is found under its own. -/
theorem key_inj (h : Indexes find live key) {a b : A} (ha : live a) (hb : live b)
    (hk : key a = key b) : a = b := by
  have hfind := h.find_key ha
  rw [hk, h.find_key hb] at hfind
  exact (Option.some.inj hfind).symm

/-- A key that no record has is free: nothing is found under it. -/
theorem free (h : Indexes find live key) {k : K} (hk : ∀ a, live a → key a ≠ k) :
    find k = none := by
  by_contra hne
  obtain ⟨a, ha⟩ := Option.ne_none_iff_exists'.mp hne
  obtain ⟨hlive, hkey⟩ := (h k a).mp ha
  exact hk a hlive hkey

/-- No record has a free key, as it would be found under it. -/
theorem ne_of_free (h : Indexes find live key) {k : K} (hk : find k = none) {a : A}
    (ha : live a) : key a ≠ k := by
  rintro rfl
  rw [h.find_key ha] at hk
  simp at hk

/-- Without records the empty table indexes them, whatever the key. -/
theorem empty (h : ∀ a, ¬ live a) : Indexes (fun _ : K => none) live key :=
  fun _ a => ⟨fun h' => by simp at h', fun h' => absurd h'.1 (h a)⟩

/-- The same records under the same keys, after a change of the records that does not concern their
keys. -/
theorem congr (h : Indexes find live key) (hlive : ∀ a, live' a ↔ live a)
    (hkey : ∀ a, live a → key' a = key a) : Indexes find live' key' := by
  intro k a
  rw [h k a, hlive a]
  exact and_congr_right fun ha => by rw [hkey a ha]

variable [DecidableEq K]

/-- A record joins under a key that is not in use, and the others keep theirs. -/
theorem insert (h : Indexes find live key) {a : A} {k : K} (hfree : find k = none)
    (hlive : ∀ b, live' b ↔ live b ∨ b = a) (hkey : ∀ b, live b → key' b = key b)
    (ha : key' a = k) : Indexes (Function.update find k (some a)) live' key' := by
  intro k' b
  by_cases hk : k' = k
  · subst hk
    rw [Function.update_self]
    constructor
    · intro hb
      obtain rfl := Option.some.inj hb
      exact ⟨(hlive a).mpr (.inr rfl), ha⟩
    · rintro ⟨hb, hkb⟩
      rcases (hlive b).mp hb with hb | rfl
      · exact absurd ((hkey b hb).symm.trans hkb) (h.ne_of_free hfree hb)
      · rfl
  · rw [Function.update_of_ne hk, h k' b]
    constructor
    · rintro ⟨hb, hkb⟩
      exact ⟨(hlive b).mpr (.inl hb), (hkey b hb).trans hkb⟩
    · rintro ⟨hb, hkb⟩
      rcases (hlive b).mp hb with hb | rfl
      · exact ⟨hb, (hkey b hb).symm.trans hkb⟩
      · exact absurd (hkb.symm.trans ha) hk

/-- A record leaves, and its key is free again; the others keep theirs. -/
theorem erase (h : Indexes find live key) {a : A} (ha : live a)
    (hlive : ∀ b, live' b ↔ live b ∧ b ≠ a) (hkey : ∀ b, live' b → key' b = key b) :
    Indexes (Function.update find (key a) none) live' key' := by
  intro k b
  by_cases hk : k = key a
  · subst hk
    rw [Function.update_self]
    refine ⟨fun hb => by simp at hb, ?_⟩
    rintro ⟨hb, hkb⟩
    obtain ⟨hb', hne⟩ := (hlive b).mp hb
    exact absurd (h.key_inj hb' ha ((hkey b hb).symm.trans hkb)) hne
  · rw [Function.update_of_ne hk, h k b]
    constructor
    · rintro ⟨hb, hkb⟩
      have hne : b ≠ a := by rintro rfl; exact hk hkb.symm
      have hb' := (hlive b).mpr ⟨hb, hne⟩
      exact ⟨hb', (hkey b hb').trans hkb⟩
    · rintro ⟨hb, hkb⟩
      exact ⟨((hlive b).mp hb).1, (hkey b hb).symm.trans hkb⟩

end Indexes

end Tables
