/-
`LocalMap<T>` (`fast_map.hpp`): the hash table behind every limit, counter and
queue of the sidecar.

The table is built once from a list of keys by trying seeds until no two keys share
a slot, and never grows. `placed` is the one fact the search establishes and
everything else rests on: an occupied slot stands where `probe` looks for its key.
It is a field of the map, so a map that breaks it cannot be built.

Three things are kept as the source has them because later results depend on them:
the key's length is stored in 32 bits and a slot counts as occupied when that is not
zero; the slot index is a mask or a remainder, chosen through the sentinel
`size_t(-1)`; and when no seed works the map is left with no slots at all, so that
the next access reads outside it.

What a caller relies on is said with `lookup`, the map as a function of the text: `modify_spec`
says that a write changes the value of one key and nothing else, and `Hosts` that a map has the
keys of a list. Construction looks at the keys only (`placeKeys_isSome`), so maps over one list
have slots together or not at all.
-/
import Mathlib.Data.List.Basic
import Mathlib.Data.List.Nodup
import Mathlib.Tactic.Common
import Mathlib.Tactic.Positivity
import RlpSidecar.Abort
import RlpSidecar.Circular

set_option autoImplicit false

namespace RlpSidecar

/-- The bytes of a `std::string` or a `std::string_view`. Nothing in the map looks at characters,
so a text may hold any bytes, zeros included. -/
abbrev Bytes := List UInt8

instance : LawfulBEq Bytes := inferInstance

/-- `size_t(-1)`, which `mask_` holds when the capacity is no power of two. -/
def npos : ℕ := 2 ^ 64 - 1

/-- No `std::vector` of 64-byte slots is larger than this: `max_size` on a 64-bit machine, beyond
which the constructor of the vector throws. -/
def slotVectorMaxSize : ℕ := 2 ^ 57

/-! ## Hashing and slots -/

/-- `fnv1a64`: FNV-1a over the bytes, then the finalizer that spreads low-entropy keys. All
operations are on `uint64_t` and wrap. -/
def fnv1a64 (s : Bytes) (seed : UInt64) : UInt64 :=
  let h := s.foldl (fun h c => (h ^^^ c.toUInt64) * 1099511628211) (1469598103934665603 ^^^ seed)
  let h := h ^^^ (h >>> 33)
  let h := h * 0xff51afd7ed558ccd
  let h := h ^^^ (h >>> 33)
  let h := h * 0xc4ceb9fe1a85ec53
  h ^^^ (h >>> 33)

/-- `LocalSlot<T>`: a key with its length and its fingerprint, and the value. The length is a
`uint32_t` of its own beside the one in the key. -/
structure LocalSlot (T : Type) where
  key : Bytes
  len : ℕ
  fp : UInt64
  value : T
  deriving DecidableEq, Repr

/-- `LocalSlot::occupied`: the length is not zero. A key whose length is a multiple of `2 ^ 32`
thus leaves its slot free. -/
def LocalSlot.occupied {T : Type} (s : LocalSlot T) : Bool := s.len != 0

/-- A slot of a freshly constructed vector: no key, and the value that `T` is constructed with. -/
def LocalSlot.empty {T : Type} (value : T) : LocalSlot T := ⟨[], 0, 0, value⟩

/-- `(cap & (cap - 1)) == 0`, by which `try_build` decides between a mask and a remainder. -/
def isPow2 (cap : ℕ) : Bool := cap &&& (cap - 1) == 0

/-- Where `probe` looks for `k`: under the mask when there is one, and by the remainder
otherwise. -/
def slotIndex (seed : UInt64) (size mask : ℕ) (k : Bytes) : ℕ :=
  if mask ≠ npos then (fnv1a64 k seed).toNat &&& mask else (fnv1a64 k seed).toNat % size

/-- Where `try_build` puts `k`. It computes with the capacity and not with the fields, which are
set only after it succeeds; that both agree is part of `LocalMap.placed`. -/
def buildIndex (cap : ℕ) (seed : UInt64) (k : Bytes) : ℕ :=
  if isPow2 cap then (fnv1a64 k seed).toNat &&& (cap - 1) else (fnv1a64 k seed).toNat % cap

/-- Both ways stay within the vector. -/
theorem buildIndex_lt {cap : ℕ} (hcap : 0 < cap) (seed : UInt64) (k : Bytes) :
    buildIndex cap seed k < cap := by
  unfold buildIndex
  split_ifs
  · exact Nat.lt_of_le_of_lt Nat.and_le_right (by omega)
  · exact Nat.mod_lt _ hcap

/-- The two ways of computing a slot agree for every capacity the constructor uses: the key
count itself, or a power of two. -/
theorem slotIndex_eq_buildIndex {cap K : ℕ} (hmax : cap ≤ slotVectorMaxSize)
    (hcap : isPow2 cap = true ∨ cap = K) (seed : UInt64) (k : Bytes) :
    slotIndex seed K (if isPow2 cap then cap - 1 else npos) k = buildIndex cap seed k := by
  have hne : cap - 1 ≠ npos := by
    unfold npos; unfold slotVectorMaxSize at hmax; omega
  unfold slotIndex buildIndex
  by_cases h : isPow2 cap = true
  · rw [if_pos h, if_pos h, if_pos hne]
  · rw [if_neg h, if_neg h, if_neg (by simp), hcap.resolve_left h]

/-! ## The map -/

/-- `LocalMap<T>`, with the fact its construction establishes as a field: an occupied slot is where
`probe` looks for its key, and its length is that of its key. No operation below moves a key, so
each keeps the field. -/
structure LocalMap (T : Type) where
  slots_ : List (LocalSlot T)
  seed_ : UInt64
  size_ : ℕ
  mask_ : ℕ
  placed : ∀ (i : ℕ) (s : LocalSlot T), slots_[i]? = some s → s.occupied = true →
    0 < size_ ∧ slotIndex seed_ size_ mask_ s.key = i ∧ s.len = s.key.length % 2 ^ 32

/-! ### Construction -/

/-- One step of `try_build`'s loop: put `k` in its slot unless that is occupied. -/
def placeKey {T : Type} (cap : ℕ) (seed : UInt64) (tmp : List (LocalSlot T)) (k : Bytes) :
    Option (List (LocalSlot T)) :=
  match tmp[buildIndex cap seed k]? with
  | none => none
  | some s =>
    if s.occupied then none
    else some (tmp.set (buildIndex cap seed k)
      { s with key := k, len := k.length % 2 ^ 32, fp := fnv1a64 k seed })

/-- The slots `try_build` fills for `keys`, or nothing when two keys meet in one slot. The loop of
the source stops at the first such key. -/
def placeKeys {T : Type} (keys : List Bytes) (cap : ℕ) (seed : UInt64) (value : T) :
    Option (List (LocalSlot T)) :=
  keys.foldlM (placeKey cap seed) (List.replicate cap (LocalSlot.empty value))

/-- What the slots look like after `ks` have been placed: only these keys are in occupied slots,
each that can be seen is where it belongs, and all values are the initial one. -/
structure Filled {T : Type} (cap : ℕ) (seed : UInt64) (value : T) (ks : List Bytes)
    (tmp : List (LocalSlot T)) : Prop where
  length : tmp.length = cap
  occupied : ∀ (i : ℕ) (s : LocalSlot T), tmp[i]? = some s → s.occupied = true →
    s.key ∈ ks ∧ buildIndex cap seed s.key = i ∧ s.len = s.key.length % 2 ^ 32
  present : ∀ k ∈ ks, k.length % 2 ^ 32 ≠ 0 → ∃ s, tmp[buildIndex cap seed k]? = some s
    ∧ s.key = k ∧ s.len = k.length % 2 ^ 32
  values : ∀ (i : ℕ) (s : LocalSlot T), tmp[i]? = some s → s.value = value

/-- Before the first key all slots are empty. -/
theorem Filled.nil {T : Type} (cap : ℕ) (seed : UInt64) (value : T) :
    Filled cap seed value [] (List.replicate cap (LocalSlot.empty value)) := by
  have hget : ∀ i s, (List.replicate cap (LocalSlot.empty value))[i]? = some s →
      s = LocalSlot.empty value := fun i s h => List.eq_of_mem_replicate (List.mem_of_getElem? h)
  refine ⟨List.length_replicate, ?_, ?_, ?_⟩
  · intro i s hs hocc
    rw [hget i s hs] at hocc
    simp [LocalSlot.occupied, LocalSlot.empty] at hocc
  · intro k hk; simp at hk
  · intro i s hs
    rw [hget i s hs]; rfl

/-- Placing one more key keeps the slots filled; a key placed earlier is never overwritten,
because its slot is occupied. -/
theorem Filled.placeKey {T : Type} {cap : ℕ} {seed : UInt64} {value : T} {ks : List Bytes}
    {tmp tmp' : List (LocalSlot T)} {k : Bytes} (h : Filled cap seed value ks tmp)
    (hk : RlpSidecar.placeKey cap seed tmp k = some tmp') :
    Filled cap seed value (ks ++ [k]) tmp' := by
  unfold RlpSidecar.placeKey at hk
  split at hk
  · simp at hk
  rename_i s hs
  split_ifs at hk with hocc
  simp only [Option.some.injEq] at hk
  subst hk
  have hlt : buildIndex cap seed k < tmp.length := (List.getElem?_eq_some_iff.mp hs).1
  -- one slot is new, the others are as they were
  have hget : ∀ i t, (tmp.set (buildIndex cap seed k)
      { s with key := k, len := k.length % 2 ^ 32, fp := fnv1a64 k seed })[i]? = some t →
      (i = buildIndex cap seed k
        ∧ t = { s with key := k, len := k.length % 2 ^ 32, fp := fnv1a64 k seed })
      ∨ (i ≠ buildIndex cap seed k ∧ tmp[i]? = some t) := by
    intro i t ht
    by_cases hi : i = buildIndex cap seed k
    · subst hi
      rw [List.getElem?_set_self hlt] at ht
      exact .inl ⟨rfl, (Option.some.inj ht).symm⟩
    · rw [List.getElem?_set_ne (Ne.symm hi)] at ht
      exact .inr ⟨hi, ht⟩
  refine ⟨by rw [List.length_set, h.length], ?_, ?_, ?_⟩
  · intro i t ht htocc
    rcases hget i t ht with ⟨rfl, rfl⟩ | ⟨_, ht'⟩
    · exact ⟨by simp, rfl, rfl⟩
    · obtain ⟨hmem, hidx, hlen⟩ := h.occupied i t ht' htocc
      exact ⟨List.mem_append_left _ hmem, hidx, hlen⟩
  · intro k' hk' hlen'
    rcases List.mem_append.mp hk' with hmem | hmem
    · obtain ⟨t, ht, hkey, hlen⟩ := h.present k' hmem hlen'
      -- the slot of an earlier key is occupied, so it is another one
      have hne : buildIndex cap seed k' ≠ buildIndex cap seed k := by
        intro heq
        rw [heq, hs] at ht
        obtain rfl := Option.some.inj ht
        simp only [LocalSlot.occupied, hlen, bne_iff_ne, ne_eq, Decidable.not_not] at hocc
        exact hlen' hocc
      exact ⟨t, by rw [List.getElem?_set_ne (Ne.symm hne)]; exact ht, hkey, hlen⟩
    · obtain rfl := List.mem_singleton.mp hmem
      exact ⟨_, List.getElem?_set_self hlt, rfl, rfl⟩
  · intro i t ht
    rcases hget i t ht with ⟨_, rfl⟩ | ⟨_, ht'⟩
    · exact h.values _ s hs
    · exact h.values i t ht'

/-- The loop of `try_build`: `Filled` holds of the keys placed so far, by induction on those that
are left. -/
theorem placeKeys_filled {T : Type} {keys : List Bytes} {cap : ℕ} {seed : UInt64} {value : T}
    {slots : List (LocalSlot T)} (h : placeKeys keys cap seed value = some slots) :
    Filled cap seed value keys slots := by
  have hgen : ∀ (ks pre : List Bytes) (tmp : List (LocalSlot T)),
      Filled cap seed value pre tmp →
      ks.foldlM (placeKey cap seed) tmp = some slots → Filled cap seed value (pre ++ ks) slots := by
    intro ks
    induction ks with
    | nil =>
        intro pre tmp hpre hfold
        simp only [List.foldlM_nil, Option.pure_def, Option.some.injEq] at hfold
        subst hfold
        simpa using hpre
    | cons k ks ih =>
        intro pre tmp hpre hfold
        simp only [List.foldlM_cons, Option.bind_eq_bind, Option.bind_eq_some_iff] at hfold
        obtain ⟨tmp', hk, hrest⟩ := hfold
        have := ih (pre ++ [k]) tmp' (hpre.placeKey hk) hrest
        simpa using this
  exact hgen keys [] _ (Filled.nil cap seed value) h

namespace LocalMap

variable {T : Type}

/-- `try_build`: succeeds when no two keys meet in a slot. `hcap` lists the two modes in which
the constructor calls it. -/
def try_build (keys : List Bytes) (K cap : ℕ) (value : T) (hK : keys.length = K)
    (hmax : cap ≤ slotVectorMaxSize) (hcap : isPow2 cap = true ∨ cap = K) (seed : UInt64) :
    Option (LocalMap T) :=
  match h : placeKeys keys cap seed value with
  -- two keys meet with this seed
  | none => none
  | some slots => some
    { slots_ := slots
      seed_ := seed
      size_ := K
      mask_ := if isPow2 cap then cap - 1 else npos
      -- every occupied slot is the one that its key is looked up in
      placed := fun i s hs hocc => by
        obtain ⟨hmem, hidx, hlen⟩ := (placeKeys_filled h).occupied i s hs hocc
        exact ⟨hK ▸ List.length_pos_of_mem hmem,
          by rw [slotIndex_eq_buildIndex hmax hcap]; exact hidx, hlen⟩ }

/-- The seed search: `trial`, `trial + 1`, … until `try_build` succeeds or the attempts are used
up. -/
def searchSeed (build : UInt64 → Option (LocalMap T)) : ℕ → UInt64 → Option (LocalMap T)
  | 0, _ => none
  | fuel + 1, trial =>
    match build trial with
    | some m => some m
    | none => searchSeed build fuel (trial + 1)

/-- What the search returns was built for one of the seeds it tried. -/
theorem searchSeed_eq_some {build : UInt64 → Option (LocalMap T)} {m : LocalMap T} :
    ∀ {fuel : ℕ} {trial : UInt64}, searchSeed build fuel trial = some m →
      ∃ seed, build seed = some m
  | 0, _, h => by simp [searchSeed] at h
  | fuel + 1, trial, h => by
      unfold searchSeed at h
      split at h
      · rename_i m' hm'
        exact ⟨trial, by rw [hm', h]⟩
      · exact searchSeed_eq_some h

/-- `while (cap < 2 * K) cap <<= 1`, from `cap = 2 ^ j`. -/
def fallbackExponent (K : ℕ) : ℕ → ℕ → ℕ
  | 0, j => j
  | fuel + 1, j => if 2 ^ j < 2 * K then fallbackExponent K fuel (j + 1) else j

/-- The powers of two pass the test of `try_build`. -/
theorem isPow2_two_pow (j : ℕ) : isPow2 (2 ^ j) = true := by
  unfold isPow2
  rw [Nat.and_two_pow_sub_one_eq_mod, Nat.mod_self]
  rfl

/-- The map of an empty key list, and of a list for which no seed works: no slots. -/
def noSlots (mask : ℕ) : LocalMap T :=
  { slots_ := [], seed_ := 0, size_ := 0, mask_ := mask, placed := by intro i s h; simp at h }

/-- The constructor `LocalMap(keys)`: the key count as capacity first, then a power of two of
at least twice that. Each search has 100000 trials; when both fail no slot is ever set. -/
def ofKeys (keys : List Bytes) (value : T) : Except Abort (LocalMap T) :=
  -- the constructor returns before it has any slots
  if keys = [] then .ok (noSlots npos)
  else if ¬ keys.Nodup then .error .duplicateKey
  else if hK : keys.length ≤ slotVectorMaxSize then
    match searchSeed (try_build keys keys.length keys.length value rfl hK (.inr rfl)) 100000 0 with
    | some m => .ok m
    | none =>
      if hcap : 2 ^ fallbackExponent keys.length 64 0 ≤ slotVectorMaxSize then
        -- the smallest power of two that is at least twice as large
        match searchSeed (try_build keys keys.length _ value rfl hcap (.inl (isPow2_two_pow _)))
            100000 0 with
        | some m => .ok m
        -- the second search has failed too, which is not checked
        | none => .ok (noSlots 0)
      else .error .lengthError
  else .error .lengthError

/-! ### Access -/

/-- `probe`, with the places at which it is undefined: a remainder by zero, and an index behind the
end of the vector. -/
def probe (m : LocalMap T) (k : Bytes) : Except Abort ℕ :=
  if m.mask_ = npos ∧ m.size_ = 0 then .error .undefined
  else if slotIndex m.seed_ m.size_ m.mask_ k < m.slots_.length then
    .ok (slotIndex m.seed_ m.size_ m.mask_ k)
  else .error .undefined

/-- `equals`: the length first, then whether the slot is occupied, then `memcmp` over that many
bytes. -/
def equals (s : LocalSlot T) (k : Bytes) : Bool :=
  s.len == k.length && s.occupied && k.take s.len == s.key.take s.len

/-- `find_ptr`, as the index of the slot it points into. One slot is looked at; there is no search
along a chain. -/
def find_ptr (m : LocalMap T) (k : Bytes) : Except Abort (Option ℕ) := do
  let idx ← m.probe k
  match m.slots_[idx]? with
  | some s => .ok (if equals s k then some idx else none)
  | none => .error .undefined

/-- `get`, which ends the process for a key that is not there. -/
def get (m : LocalMap T) (k : Bytes) : Except Abort T := do
  match ← m.find_ptr k with
  | none => .error .keyNotFound
  | some i =>
    match m.slots_[i]? with
    | some s => .ok s.value
    | none => .error .undefined

/-- A write through the reference that `by_index` or an iterator returns: the value of one slot
changes, and keys and lengths stay, which is why `placed` carries over. -/
def update (m : LocalMap T) (i : ℕ) (f : T → T) : LocalMap T :=
  { m with
    slots_ := m.slots_.modify i fun s => { s with value := f s.value }
    -- no key moves, so every one is where it was placed
    placed := by
      intro j s hs hocc
      rw [List.getElem?_modify] at hs
      cases hj : m.slots_[j]? with
      | none => rw [hj] at hs; simp at hs
      | some t =>
          rw [hj] at hs
          obtain rfl := Option.some.inj hs
          split_ifs at hocc ⊢ with hij
          · exact m.placed j t hj hocc
          · exact m.placed j t hj hocc }

/-- A write through the reference `get` returns: `get(k) = f(get(k))`. -/
def modify (m : LocalMap T) (k : Bytes) (f : T → T) : Except Abort (LocalMap T) := do
  match ← m.find_ptr k with
  | none => .error .keyNotFound
  | some i => .ok (m.update i f)

/-- `set`, an assignment through `get`: it adds no key. -/
def set (m : LocalMap T) (k : Bytes) (v : T) : Except Abort (LocalMap T) := m.modify k fun _ => v

/-! ### The iterator -/

/-- Slot `i` exists and is occupied, as a test that the iterators can use. -/
def occupiedAt (m : LocalMap T) (i : ℕ) : Bool :=
  match m.slots_[i]? with
  | some s => s.occupied
  | none => false

/-- `iterator::skip_empty`, on the index: from there to the next occupied slot, around the end, and
back to the start when there is none. -/
def skip_empty (m : LocalMap T) (idx : ℕ) : ℕ :=
  if m.slots_ = [] then idx
  else
    let start := if m.slots_.length ≤ idx then 0 else idx
    Circular.skipFrom m.slots_.length m.occupiedAt start m.slots_.length start

/-- `begin()`: the first occupied slot. -/
def begin_ (m : LocalMap T) : ℕ := m.skip_empty 0

/-- `iterator::operator++`: one slot on, and from there to the next occupied one. After the last
one it is at the first again; there is no end. -/
def next (m : LocalMap T) (idx : ℕ) : ℕ :=
  if m.slots_ = [] then idx else m.skip_empty (idx + 1)

/-- `iterator::operator*`, which is undefined when the map has no slots. -/
def deref (m : LocalMap T) (idx : ℕ) : Except Abort (LocalSlot T) :=
  match m.slots_[idx]? with
  | some s => .ok s
  | none => .error .undefined

/-! ## The map as a finite map -/

/-- The value under `k`, if `k` is a key of the map. The abstract view of the map: what is proved
of its users speaks of `lookup` and not of slots. -/
def lookup (m : LocalMap T) (k : Bytes) : Option T :=
  match m.get k with
  | .ok v => some v
  | .error _ => none

/-- `get` in terms of the abstract view. -/
theorem get_eq_ok {m : LocalMap T} {k : Bytes} {v : T} : m.get k = .ok v ↔ m.lookup k = some v := by
  unfold lookup
  cases m.get k <;> simp

/-- When `probe` is defined, its result is the index that the construction used. -/
theorem probe_eq_ok {m : LocalMap T} {k : Bytes} {idx : ℕ} (h : m.probe k = .ok idx) :
    slotIndex m.seed_ m.size_ m.mask_ k = idx := by
  unfold probe at h
  split_ifs at h
  exact Except.ok.inj h

/-- What `find_ptr` points at: an occupied slot whose stored bytes are the key. -/
theorem find_ptr_eq_some {m : LocalMap T} {k : Bytes} {i : ℕ} (h : m.find_ptr k = .ok (some i)) :
    ∃ s, m.slots_[i]? = some s ∧ s.occupied = true ∧ s.len = k.length ∧ k = s.key.take s.len := by
  unfold find_ptr at h
  obtain ⟨idx, _, hidx⟩ := bind_eq_ok.mp h
  split at hidx
  · rename_i s hs
    split_ifs at hidx with heq
    · obtain rfl := Option.some.inj (Except.ok.inj hidx)
      simp only [equals, Bool.and_eq_true, beq_iff_eq] at heq
      obtain ⟨⟨hlen, hocc⟩, hkey⟩ := heq
      exact ⟨s, hs, hocc, hlen, by rw [← hkey, hlen, List.take_length]⟩
    · simp at hidx
  · simp at hidx

/-- Two keys found in the same slot are the same key, since `equals` compares the lengths and then
all bytes. -/
theorem find_ptr_inj {m : LocalMap T} {k k' : Bytes} {i : ℕ}
    (h : m.find_ptr k = .ok (some i)) (h' : m.find_ptr k' = .ok (some i)) : k = k' := by
  obtain ⟨s, hs, _, _, hk⟩ := find_ptr_eq_some h
  obtain ⟨s', hs', _, _, hk'⟩ := find_ptr_eq_some h'
  rw [hs] at hs'
  obtain rfl := Option.some.inj hs'
  rw [hk, hk']

/-- A key with a value has a slot, and the value is there. -/
theorem lookup_eq_some {m : LocalMap T} {k : Bytes} {v : T} :
    m.lookup k = some v
      ↔ ∃ i s, m.find_ptr k = .ok (some i) ∧ m.slots_[i]? = some s ∧ s.value = v := by
  rw [← get_eq_ok]
  unfold get
  constructor
  · intro h
    obtain ⟨r, hr, hv⟩ := bind_eq_ok.mp h
    cases r with
    | none => simp at hv
    | some i =>
        cases hs : m.slots_[i]? with
        | none => simp [hs] at hv
        | some s => exact ⟨i, s, hr, hs, by simpa [hs] using hv⟩
  · rintro ⟨i, s, hr, hs, rfl⟩
    simp [hr, hs]

/-- An occupied slot is found under its own key, provided the key's length fits its field. -/
theorem find_ptr_of_occupied {m : LocalMap T} {i : ℕ} {s : LocalSlot T}
    (hs : m.slots_[i]? = some s) (hocc : s.occupied = true) (hlen : s.key.length < 2 ^ 32) :
    m.find_ptr s.key = .ok (some i) := by
  obtain ⟨hsize, hidx, hslen⟩ := m.placed i s hs hocc
  have hlt : i < m.slots_.length := (List.getElem?_eq_some_iff.mp hs).1
  have hprobe : m.probe s.key = .ok i := by
    unfold probe
    rw [if_neg (by omega), hidx, if_pos hlt]
  have heq : equals s s.key = true := by
    have hkey : s.len = s.key.length := by rw [hslen, Nat.mod_eq_of_lt hlen]
    simp [equals, hkey, hocc]
  unfold find_ptr
  simp [hprobe, hs, heq]

/-! ### Writes -/

/-- A write changes the slots in one place only. -/
theorem slots_update (m : LocalMap T) (i : ℕ) (f : T → T) :
    (m.update i f).slots_ = m.slots_.modify i fun s => { s with value := f s.value } := rfl

/-- A write keeps the number of slots. -/
@[simp] theorem length_slots_update (m : LocalMap T) (i : ℕ) (f : T → T) :
    (m.update i f).slots_.length = m.slots_.length := by
  rw [slots_update, List.length_modify]

/-- The slot `j` after a write to the slot `i`. -/
theorem getElem?_slots_update (m : LocalMap T) (i j : ℕ) (f : T → T) :
    (m.update i f).slots_[j]?
      = (m.slots_[j]?).map fun s => if i = j then { s with value := f s.value } else s := by
  rw [slots_update, List.getElem?_modify]
  cases m.slots_[j]? with
  | none => rfl
  | some s => split_ifs <;> simp_all

/-- A write through a reference moves no key: the same slots are found as before. -/
@[simp] theorem find_ptr_update (m : LocalMap T) (i : ℕ) (f : T → T) (k : Bytes) :
    (m.update i f).find_ptr k = m.find_ptr k := by
  have hprobe : (m.update i f).probe k = m.probe k := by
    unfold probe
    rw [length_slots_update]
    rfl
  unfold find_ptr
  rw [hprobe]
  cases m.probe k with
  | error e => rfl
  | ok idx =>
      simp only [ok_bind, getElem?_slots_update]
      cases m.slots_[idx]? with
      | none => rfl
      | some s =>
          have heq : equals (if i = idx then { s with value := f s.value } else s) k
              = equals s k := by
            split_ifs <;> rfl
          simp only [Option.map_some, heq]

/-- A write through a reference neither fills nor frees a slot, so iterators go the same way as
before. -/
@[simp] theorem occupiedAt_update (m : LocalMap T) (i : ℕ) (f : T → T) :
    (m.update i f).occupiedAt = m.occupiedAt := by
  funext j
  unfold occupiedAt
  rw [getElem?_slots_update]
  cases m.slots_[j]? with
  | none => rfl
  | some s => simp only [Option.map_some]; split_ifs <;> rfl

/-- The abstract view of a write: the value under `k` changes, and no other. -/
theorem lookup_update {m : LocalMap T} {k : Bytes} {i : ℕ} (h : m.find_ptr k = .ok (some i))
    (f : T → T) (k' : Bytes) :
    (m.update i f).lookup k' = if k' = k then (m.lookup k).map f else m.lookup k' := by
  obtain ⟨s, hs, -⟩ := find_ptr_eq_some h
  have hlook : m.lookup k = some s.value := lookup_eq_some.mpr ⟨i, s, h, hs, rfl⟩
  split_ifs with hk
  · subst hk
    rw [hlook, Option.map_some]
    refine lookup_eq_some.mpr ⟨i, { s with value := f s.value }, ?_, ?_, rfl⟩
    · rw [find_ptr_update, h]
    · rw [getElem?_slots_update, hs]; simp
  · unfold lookup get
    rw [find_ptr_update]
    cases hf : m.find_ptr k' with
    | error e => rfl
    | ok r =>
        cases r with
        | none => rfl
        | some j =>
            -- Two keys of the map never share a slot.
            have hij : i ≠ j := by
              rintro rfl
              exact hk (find_ptr_inj hf h)
            simp only [ok_bind, getElem?_slots_update, if_neg hij]
            cases m.slots_[j]? <;> rfl

/-- **`get(k) = f(get(k))`** on a key of the map: that key's value changes, nothing else. -/
theorem modify_spec {m : LocalMap T} {k : Bytes} {v : T} (h : m.lookup k = some v) (f : T → T) :
    ∃ m', m.modify k f = .ok m' ∧ m'.lookup k = some (f v)
      ∧ ∀ k', k' ≠ k → m'.lookup k' = m.lookup k' := by
  obtain ⟨i, s, hf, hs, rfl⟩ := lookup_eq_some.mp h
  refine ⟨m.update i f, by unfold modify; simp [hf], ?_, ?_⟩
  · rw [lookup_update hf, if_pos rfl, h, Option.map_some]
  · intro k' hk'
    rw [lookup_update hf, if_neg hk']

/-- A write that succeeds was on a key of the map, and it is a write to the slot of that key. -/
theorem modify_eq_ok {m m' : LocalMap T} {k : Bytes} {f : T → T} (h : m.modify k f = .ok m') :
    ∃ i, m.find_ptr k = .ok (some i) ∧ m' = m.update i f := by
  unfold modify at h
  obtain ⟨r, hr, hv⟩ := bind_eq_ok.mp h
  cases r with
  | none => simp at hv
  | some i => exact ⟨i, hr, (Except.ok.inj hv).symm⟩

/-! ### Steps of the iterator -/

/-- The test `occupiedAt` as a statement about the slots. -/
theorem occupiedAt_iff {m : LocalMap T} {i : ℕ} :
    m.occupiedAt i = true ↔ ∃ s, m.slots_[i]? = some s ∧ s.occupied = true := by
  unfold occupiedAt
  cases m.slots_[i]? <;> simp

/-- From an index of the vector, `skip_empty` is the search on a circle of `Circular`. -/
theorem skip_empty_eq {m : LocalMap T} {i : ℕ} (hi : i < m.slots_.length) :
    m.skip_empty i = Circular.nextFrom m.slots_.length m.occupiedAt i := by
  have hne : m.slots_ ≠ [] := by rintro h; simp [h] at hi
  unfold skip_empty
  rw [if_neg hne, if_neg (by omega)]
  exact Circular.skipFrom_eq_nextFrom hi (Nat.le_refl _)

/-- `++` goes to the next occupied slot on the circle, so an iteration is one turn of
`Circular`. -/
theorem next_eq {m : LocalMap T} {i : ℕ} (hi : i < m.slots_.length) :
    m.next i = Circular.nextFrom m.slots_.length m.occupiedAt
      (Circular.bump m.slots_.length i) := by
  have hne : m.slots_ ≠ [] := by rintro h; simp [h] at hi
  have hpos : 0 < m.slots_.length := by omega
  unfold next
  rw [if_neg hne]
  rcases Nat.lt_or_ge (i + 1) m.slots_.length with hlt | hge
  · rw [skip_empty_eq hlt, Circular.bump, if_pos hlt]
  · have hb : Circular.bump m.slots_.length i = 0 := by
      unfold Circular.bump; rw [if_neg (by omega)]
    rw [hb, ← skip_empty_eq hpos]
    unfold skip_empty
    rw [if_neg hne, if_neg hne, if_pos hge, if_neg (by omega)]

/-! ### What the constructor builds -/

/-- Every key of a constructed map was given, and every key given is found, unless the map
has no slots or the key is empty or too long for its length field. -/
theorem try_build_spec {keys : List Bytes} {K cap : ℕ} {value : T} {hK : keys.length = K}
    {hmax : cap ≤ slotVectorMaxSize} {hcap : isPow2 cap = true ∨ cap = K} {seed : UInt64}
    {m : LocalMap T} (h : try_build keys K cap value hK hmax hcap seed = some m) :
    (∀ (i : ℕ) (s : LocalSlot T), m.slots_[i]? = some s → s.occupied = true → s.key ∈ keys)
      ∧ (∀ k ∈ keys, 0 < k.length → k.length < 2 ^ 32 → m.lookup k = some value) := by
  unfold try_build at h
  split at h
  · simp at h
  rename_i slots hslots
  have hfill := placeKeys_filled hslots
  simp only [Option.some.injEq] at h
  subst h
  refine ⟨fun i s hs hocc => (hfill.occupied i s hs hocc).1, fun k hk hpos hlt => ?_⟩
  obtain ⟨s, hs, rfl, hlen⟩ := hfill.present k hk (by rw [Nat.mod_eq_of_lt hlt]; omega)
  have hocc : s.occupied = true := by
    unfold LocalSlot.occupied
    rw [hlen, Nat.mod_eq_of_lt hlt]
    simp only [bne_iff_ne]
    omega
  exact lookup_eq_some.mpr
    ⟨_, s, find_ptr_of_occupied hs hocc hlt, hs, hfill.values _ s hs⟩

/-- What the constructor promises: only the given keys are in the map, and if it has slots at all,
each key that has a length finds its value. -/
theorem ofKeys_spec {keys : List Bytes} {value : T} {m : LocalMap T}
    (h : ofKeys keys value = .ok m) :
    (∀ (i : ℕ) (s : LocalSlot T), m.slots_[i]? = some s → s.occupied = true → s.key ∈ keys)
      ∧ (m.slots_ = []
        ∨ ∀ k ∈ keys, 0 < k.length → k.length < 2 ^ 32 → m.lookup k = some value) := by
  have hnone : ∀ mask, (∀ (i : ℕ) (s : LocalSlot T), (noSlots (T := T) mask).slots_[i]? = some s →
      s.occupied = true → s.key ∈ keys) := by
    intro mask i s hs; simp [noSlots] at hs
  unfold ofKeys at h
  split at h
  · obtain rfl := Except.ok.inj h
    exact ⟨hnone npos, .inl rfl⟩
  split at h
  · simp at h
  split at h
  case isFalse => simp at h
  split at h
  · rename_i m' hm'
    obtain rfl := Except.ok.inj h
    -- The first search succeeded, on as many slots as there are keys.
    obtain ⟨seed, hseed⟩ := searchSeed_eq_some hm'
    exact ⟨(try_build_spec hseed).1, .inr (try_build_spec hseed).2⟩
  split at h
  case isFalse => simp at h
  split at h
  · rename_i m' hm'
    obtain rfl := Except.ok.inj h
    -- The second one, on a power of two that is at least twice their number.
    obtain ⟨seed, hseed⟩ := searchSeed_eq_some hm'
    exact ⟨(try_build_spec hseed).1, .inr (try_build_spec hseed).2⟩
  · obtain rfl := Except.ok.inj h
    exact ⟨hnone 0, .inl rfl⟩

/-- A map without slots finds no key. This is what is left when the seed search was exhausted. -/
theorem lookup_of_no_slots {m : LocalMap T} (h : m.slots_ = []) (k : Bytes) :
    m.lookup k = none := by
  cases hk : m.lookup k with
  | none => rfl
  | some v =>
      obtain ⟨i, s, _, hs, _⟩ := lookup_eq_some.mp hk
      simp [h] at hs

/-! ### Construction does not look at the values -/

/-- The lengths of the stored keys: all that decides whether a slot is occupied. -/
def lens (tmp : List (LocalSlot T)) : List ℕ := tmp.map LocalSlot.len

/-- Whether a key fits depends on the lengths in the slots, and not on their values. The lemmas
from here on serve `slots_nil_iff`. -/
theorem lens_placeKey {U : Type} (cap : ℕ) (seed : UInt64) (k : Bytes)
    {tmp : List (LocalSlot T)} {tmp' : List (LocalSlot U)} (h : lens tmp = lens tmp') :
    (placeKey cap seed tmp k).map lens = (placeKey cap seed tmp' k).map lens := by
  have hget : (tmp[buildIndex cap seed k]?).map LocalSlot.len
      = (tmp'[buildIndex cap seed k]?).map LocalSlot.len := by
    rw [← List.getElem?_map, ← List.getElem?_map]
    exact congrArg (fun l => l[buildIndex cap seed k]?) h
  unfold placeKey
  cases hs : tmp[buildIndex cap seed k]? with
  | none =>
      rw [hs] at hget
      rw [Option.map_eq_none_iff.mp hget.symm]
      rfl
  | some s =>
      rw [hs] at hget
      obtain ⟨s', hs', hlen⟩ := Option.map_eq_some_iff.mp hget.symm
      rw [hs']
      have hsame : s'.occupied = s.occupied := by unfold LocalSlot.occupied; rw [hlen]
      dsimp only
      -- Whether a key finds its slot free depends on the stored length alone.
      by_cases hocc : s.occupied = true
      · rw [if_pos hocc, if_pos (hsame.trans hocc)]; rfl
      · rw [if_neg hocc, if_neg (hsame ▸ hocc), Option.map_some, Option.map_some]
        unfold lens at h ⊢
        rw [List.map_set, List.map_set, h]

/-- Whether all keys find a place does not depend on the value type. -/
theorem placeKeys_isSome {U : Type} (keys : List Bytes) (cap : ℕ) (seed : UInt64) (value : T)
    (value' : U) :
    (placeKeys keys cap seed value).isSome = (placeKeys keys cap seed value').isSome := by
  -- Generalised to two tables of different values that agree on the lengths.
  have hgen : ∀ (ks : List Bytes) (tmp : List (LocalSlot T)) (tmp' : List (LocalSlot U)),
      lens tmp = lens tmp' →
      (ks.foldlM (placeKey cap seed) tmp).isSome = (ks.foldlM (placeKey cap seed) tmp').isSome := by
    intro ks
    induction ks with
    | nil => intro tmp tmp' _; rfl
    | cons k ks ih =>
        intro tmp tmp' h
        have hk := lens_placeKey cap seed k h
        simp only [List.foldlM_cons, Option.bind_eq_bind]
        cases hp : placeKey cap seed tmp k with
        | none =>
            rw [hp] at hk
            rw [Option.map_eq_none_iff.mp hk.symm]
            rfl
        | some t =>
            rw [hp] at hk
            obtain ⟨t', ht', hlens⟩ := Option.map_eq_some_iff.mp hk.symm
            rw [ht']
            exact ih t t' hlens.symm
  exact hgen keys _ _ (by simp [lens, LocalSlot.empty])

/-- `try_build` succeeds just when its loop does. -/
theorem isSome_try_build {keys : List Bytes} {K cap : ℕ} {value : T} {hK : keys.length = K}
    {hmax : cap ≤ slotVectorMaxSize} {hcap : isPow2 cap = true ∨ cap = K} {seed : UInt64} :
    (try_build keys K cap value hK hmax hcap seed).isSome
      = (placeKeys keys cap seed value).isSome := by
  unfold try_build
  split
  · rename_i h; rw [h]; rfl
  · rename_i h; exact (Option.isSome_iff_exists.mpr ⟨_, h⟩).symm

/-- Whether `try_build` succeeds does not depend on the value type. -/
theorem try_build_isSome {U : Type} {keys : List Bytes} {K cap : ℕ} {value : T} {value' : U}
    {hK : keys.length = K} {hmax : cap ≤ slotVectorMaxSize}
    {hcap : isPow2 cap = true ∨ cap = K} {seed : UInt64} :
    (try_build keys K cap value hK hmax hcap seed).isSome
      = (try_build keys K cap value' hK hmax hcap seed).isSome := by
  rw [isSome_try_build, isSome_try_build, placeKeys_isSome keys cap seed value value']

/-- Whether the seed search succeeds does not depend on the value type. -/
theorem searchSeed_isSome {U : Type} {build : UInt64 → Option (LocalMap T)}
    {build' : UInt64 → Option (LocalMap U)}
    (h : ∀ seed, (build seed).isSome = (build' seed).isSome) :
    ∀ (fuel : ℕ) (trial : UInt64),
      (searchSeed build fuel trial).isSome = (searchSeed build' fuel trial).isSome
  | 0, _ => rfl
  | fuel + 1, trial => by
      have ht := h trial
      unfold searchSeed
      cases hb : build trial with
      | some m =>
          rw [hb] at ht
          obtain ⟨m', hm'⟩ := Option.isSome_iff_exists.mp ht.symm
          rw [hm']
          rfl
      | none =>
          rw [hb] at ht
          rw [Option.isSome_eq_false_iff.mp ht.symm |> Option.isNone_iff_eq_none.mp]
          exact searchSeed_isSome h fuel (trial + 1)

/-- A map with at least one key that was built by a search that succeeded has slots. -/
theorem slots_of_try_build {keys : List Bytes} {K cap : ℕ} {value : T} {hK : keys.length = K}
    {hmax : cap ≤ slotVectorMaxSize} {hcap : isPow2 cap = true ∨ cap = K} {seed : UInt64}
    {m : LocalMap T} (hpos : 0 < cap) (h : try_build keys K cap value hK hmax hcap seed = some m) :
    m.slots_ ≠ [] := by
  unfold try_build at h
  split at h
  · simp at h
  rename_i slots hslots
  simp only [Option.some.injEq] at h
  subst h
  intro hnil
  have hlen := (placeKeys_filled hslots).length
  simp only at hnil
  rw [hnil] at hlen
  simp only [List.length_nil] at hlen
  omega

/-- Two maps over the same keys have slots together, whatever they store: the seed search looks at
the keys only. The maps of the counters and of the limits thus fail together or not at all. -/
theorem slots_nil_iff {U : Type} {keys : List Bytes} {value : T} {value' : U} {m : LocalMap T}
    {m' : LocalMap U} (h : ofKeys keys value = .ok m) (h' : ofKeys keys value' = .ok m') :
    m.slots_ = [] ↔ m'.slots_ = [] := by
  unfold ofKeys at h h'
  by_cases hnil : keys = []
  · rw [if_pos hnil] at h h'
    rw [← Except.ok.inj h, ← Except.ok.inj h']
    exact iff_of_true rfl rfl
  rw [if_neg hnil] at h h'
  by_cases hnodup : ¬ keys.Nodup
  · rw [if_pos hnodup] at h; simp at h
  rw [if_neg hnodup] at h h'
  by_cases hK : keys.length ≤ slotVectorMaxSize
  case neg => rw [dif_neg hK] at h; simp at h
  rw [dif_pos hK] at h h'
  have hpos : 0 < keys.length := List.length_pos_of_ne_nil hnil
  -- whether a trial works depends on the keys and the seed alone
  have hbuild : ∀ seed, (try_build keys keys.length keys.length value rfl hK (.inr rfl) seed).isSome
      = (try_build keys keys.length keys.length value' rfl hK (.inr rfl) seed).isSome :=
    fun _ => try_build_isSome
  have hfirst := searchSeed_isSome hbuild 100000 0
  cases hb : searchSeed (try_build keys keys.length keys.length value rfl hK (.inr rfl))
    100000 0 with
  | some b =>
      rw [hb] at h hfirst
      obtain ⟨b', hb'⟩ := Option.isSome_iff_exists.mp hfirst.symm
      rw [hb'] at h'
      obtain ⟨_, hs⟩ := searchSeed_eq_some hb
      obtain ⟨_, hs'⟩ := searchSeed_eq_some hb'
      rw [← Except.ok.inj h, ← Except.ok.inj h']
      exact iff_of_false (slots_of_try_build hpos hs) (slots_of_try_build hpos hs')
  | none =>
      rw [hb] at h hfirst
      rw [Option.isSome_eq_false_iff.mp hfirst.symm |> Option.isNone_iff_eq_none.mp] at h'
      dsimp only at h h'
      by_cases hcap : 2 ^ fallbackExponent keys.length 64 0 ≤ slotVectorMaxSize
      case neg => rw [dif_neg hcap] at h; simp at h
      rw [dif_pos hcap] at h h'
      have hbuild' : ∀ seed,
          (try_build keys keys.length _ value rfl hcap (.inl (isPow2_two_pow _)) seed).isSome
            = (try_build keys keys.length _ value' rfl hcap (.inl (isPow2_two_pow _))
              seed).isSome :=
        fun _ => try_build_isSome
      have hsecond := searchSeed_isSome hbuild' 100000 0
      cases hc : searchSeed (try_build keys keys.length _ value rfl hcap
          (.inl (isPow2_two_pow _))) 100000 0 with
      | some b =>
          rw [hc] at h hsecond
          obtain ⟨b', hb'⟩ := Option.isSome_iff_exists.mp hsecond.symm
          rw [hb'] at h'
          obtain ⟨_, hs⟩ := searchSeed_eq_some hc
          obtain ⟨_, hs'⟩ := searchSeed_eq_some hb'
          rw [← Except.ok.inj h, ← Except.ok.inj h']
          exact iff_of_false (slots_of_try_build (by positivity) hs)
            (slots_of_try_build (by positivity) hs')
      | none =>
          rw [hc] at h hsecond
          rw [Option.isSome_eq_false_iff.mp hsecond.symm |> Option.isNone_iff_eq_none.mp] at h'
          rw [← Except.ok.inj h, ← Except.ok.inj h']
          exact iff_of_true rfl rfl

/-! ## A map over a list of endpoints

The maps of a credit queue are all built over the hosted endpoints and never gain a key. -/

/-- `m` has exactly the keys `es`, and each key fits its length field. -/
structure Hosts (es : List Bytes) (m : LocalMap T) : Prop where
  found : ∀ e ∈ es, ∃ v, m.lookup e = some v
  keys : ∀ (i : ℕ) (s : LocalSlot T), m.slots_[i]? = some s → s.occupied = true →
    s.key ∈ es ∧ s.key.length < 2 ^ 32

/-- Every key of the map has a slot of its own, which is occupied. -/
theorem Hosts.slot {es : List Bytes} {m : LocalMap T} (h : m.Hosts es) {e : Bytes} (he : e ∈ es) :
    ∃ i s, m.find_ptr e = .ok (some i) ∧ m.slots_[i]? = some s ∧ s.occupied = true ∧ s.key = e := by
  obtain ⟨v, hv⟩ := h.found e he
  obtain ⟨i, s, hi, hs, _⟩ := lookup_eq_some.mp hv
  obtain ⟨t, ht, hocc, hlen, hkey⟩ := find_ptr_eq_some hi
  obtain rfl := Option.some.inj (hs.symm.trans ht)
  obtain ⟨_, _, hslen⟩ := m.placed i s hs hocc
  refine ⟨i, s, hi, hs, hocc, ?_⟩
  rw [hkey, hslen, Nat.mod_eq_of_lt (h.keys i s hs hocc).2, List.take_length]

/-- Only keys of the map are found. -/
theorem Hosts.mem_of_find_ptr {es : List Bytes} {m : LocalMap T} (h : m.Hosts es) {k : Bytes}
    {i : ℕ} (hi : m.find_ptr k = .ok (some i)) : k ∈ es := by
  obtain ⟨s, hs, hocc, hlen, hkey⟩ := find_ptr_eq_some hi
  obtain ⟨hmem, hlt⟩ := h.keys i s hs hocc
  obtain ⟨_, _, hslen⟩ := m.placed i s hs hocc
  rw [hkey, hslen, Nat.mod_eq_of_lt hlt, List.take_length]
  exact hmem

/-- The value in an occupied slot is the value under its key, so an iteration sees what `lookup`
does. -/
theorem Hosts.lookup_key {es : List Bytes} {m : LocalMap T} (h : m.Hosts es) {i : ℕ}
    {s : LocalSlot T} (hs : m.slots_[i]? = some s) (hocc : s.occupied = true) :
    m.find_ptr s.key = .ok (some i) ∧ m.lookup s.key = some s.value := by
  have hi := find_ptr_of_occupied hs hocc (h.keys i s hs hocc).2
  exact ⟨hi, lookup_eq_some.mpr ⟨i, s, hi, hs, rfl⟩⟩

/-- Occupied slots with the same key are the same slot, so an iteration sees no key twice. -/
theorem Hosts.key_inj {es : List Bytes} {m : LocalMap T} (h : m.Hosts es) {i j : ℕ}
    {s t : LocalSlot T} (hs : m.slots_[i]? = some s) (hsocc : s.occupied = true)
    (ht : m.slots_[j]? = some t) (htocc : t.occupied = true) (hkey : s.key = t.key) : i = j := by
  have hi := (h.lookup_key hs hsocc).1
  have hj := (h.lookup_key ht htocc).1
  rw [hkey, hj] at hi
  exact (Option.some.inj (Except.ok.inj hi)).symm

/-- A write through a reference keeps the keys of the map. -/
theorem Hosts.update {es : List Bytes} {m : LocalMap T} (h : m.Hosts es) (i : ℕ) (f : T → T) :
    (m.update i f).Hosts es := by
  refine ⟨fun e he => ?_, fun j t ht htocc => ?_⟩
  · obtain ⟨v, hv⟩ := h.found e he
    obtain ⟨j, s, hj, hs, _⟩ := lookup_eq_some.mp hv
    have hj' : (m.update i f).find_ptr e = .ok (some j) := by rw [find_ptr_update, hj]
    exact ⟨_, lookup_eq_some.mpr ⟨j, _, hj', by rw [getElem?_slots_update, hs]; rfl, rfl⟩⟩
  · rw [getElem?_slots_update] at ht
    obtain ⟨s, hs, rfl⟩ := Option.map_eq_some_iff.mp ht
    split_ifs at htocc ⊢
    · exact h.keys j s hs htocc
    · exact h.keys j s hs htocc

/-- **A write through a reference**, on a map over `es`: it succeeds exactly on the keys, and
changes the value of that key only. -/
theorem Hosts.modify {es : List Bytes} {m m' : LocalMap T} (h : m.Hosts es) {k : Bytes}
    {f : T → T} (hm : m.modify k f = .ok m') :
    k ∈ es ∧ m'.Hosts es ∧ (∀ k', m'.lookup k' = if k' = k then (m.lookup k).map f else m.lookup k')
      ∧ m'.occupiedAt = m.occupiedAt ∧ m'.slots_.length = m.slots_.length := by
  obtain ⟨i, hi, rfl⟩ := modify_eq_ok hm
  exact ⟨h.mem_of_find_ptr hi, h.update i f, fun k' => lookup_update hi f k',
    occupiedAt_update m i f, length_slots_update m i f⟩

/-- A write to a key of the map succeeds. -/
theorem Hosts.modify_exists {es : List Bytes} {m : LocalMap T} (h : m.Hosts es) {k : Bytes}
    (hk : k ∈ es) (f : T → T) : ∃ m', m.modify k f = .ok m' := by
  obtain ⟨v, hv⟩ := h.found k hk
  obtain ⟨m', hm', _⟩ := modify_spec hv f
  exact ⟨m', hm'⟩

/-- `get` of a key of the map succeeds. The default `d` is never used; it only makes the right side
total. -/
theorem Hosts.get {es : List Bytes} {m : LocalMap T} (h : m.Hosts es) {k : Bytes} (hk : k ∈ es)
    (d : T) : m.get k = .ok ((m.lookup k).getD d) := by
  obtain ⟨v, hv⟩ := h.found k hk
  rw [get_eq_ok.mpr hv, hv]
  rfl

/-- A map that was built over `es` and finds each of them hosts them. -/
theorem Hosts.of_ofKeys {es : List Bytes} {value : T} {m : LocalMap T}
    (h : ofKeys es value = .ok m) (hfound : ∀ e ∈ es, 0 < e.length ∧ e.length < 2 ^ 32)
    (hslots : m.slots_ ≠ []) : m.Hosts es := by
  obtain ⟨hkeys, hvalues⟩ := ofKeys_spec h
  have hall := hvalues.resolve_left hslots
  refine ⟨fun e he => ⟨value, hall e he (hfound e he).1 (hfound e he).2⟩, fun i s hs hocc => ?_⟩
  exact ⟨hkeys i s hs hocc, (hfound _ (hkeys i s hs hocc)).2⟩

/-- A key a map of its own keys finds is not empty and fits its length field. -/
theorem length_of_find_ptr {m : LocalMap T} {k : Bytes} {i : ℕ} (h : m.find_ptr k = .ok (some i)) :
    0 < k.length ∧ k.length < 2 ^ 32 := by
  obtain ⟨s, hs, hocc, hlen, _⟩ := find_ptr_eq_some h
  obtain ⟨_, _, hslen⟩ := m.placed i s hs hocc
  have hlt : s.key.length % 2 ^ 32 < 2 ^ 32 := Nat.mod_lt _ (by norm_num)
  have hpos : s.len ≠ 0 := by simpa [LocalSlot.occupied] using hocc
  omega

end LocalMap

end RlpSidecar
