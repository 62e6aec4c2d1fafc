/-
**What a constructed `LocalMap` does for every query** (`fast_map.hpp`).

A seed that works gives every key its own slot, and from then on the map is a finite map over its
keys: lookups find the keys and nothing else, writes under one key are seen under that key, and the
two enumerations list the keys once each. Two things are outside of this. A map without slots,
which the constructor leaves for an empty list and when it runs out of seeds, has nothing to look
at, and a lookup divides by zero or reads past the end. And a slot keeps the length of its key in
32 bits, so a longer key is not found, and a text that is as long as what is left of its length can
be found in its place.

`safe_lookups` is the equivalence, for the accessors of the source one by one and every text: the
list is not empty, one of the trials of the constructor is free of collisions, and no key is so
long that its truncated length lets another text pass for it. `finite_map` is about series of
writes.
-/
import Mathlib.Data.List.Perm.Basic
import RlpSidecar.LocalMap

set_option autoImplicit false

namespace RlpSidecar

namespace LocalMap

variable {T : Type}

/-! ## The other accessors -/

/-- `index_of`, which compares the key that the slot has with the one that is looked for. -/
def index_of (m : LocalMap T) (k : Bytes) : Except Abort ℕ := do
  let idx ← m.probe k
  match m.slots_[idx]? with
  | some s => .ok (if equals s k then idx else npos)
  | none => .error .undefined

/-- `add`, on top of the value that the slot has. -/
def add [Add T] (m : LocalMap T) (k : Bytes) (delta : T) : Except Abort (LocalMap T) :=
  m.modify k (· + delta)

/-- `get_all_keys`, in the order of the slots. -/
def get_all_keys (m : LocalMap T) : List Bytes :=
  (m.slots_.filter LocalSlot.occupied).map LocalSlot.key

/-- `for_each_key`: the calls it makes, with a key and the index of its slot each. -/
def for_each_key (m : LocalMap T) : List (Bytes × ℕ) :=
  (m.slots_.zipIdx.filter fun x => x.1.occupied).map fun x => (x.1.key, x.2)

theorem index_of_eq (m : LocalMap T) (k : Bytes) :
    m.index_of k = (do .ok ((← m.find_ptr k).getD npos)) := by
  unfold index_of find_ptr
  cases m.probe k with
  | error e => rfl
  | ok idx =>
      simp only [ok_bind]
      cases m.slots_[idx]? with
      | none => rfl
      | some s =>
          dsimp only
          split_ifs <;> rfl

/-! ## Seeds -/

/-- The trial `trial` with `cap` slots: no key meets an occupied slot. -/
def CollisionFree (keys : List Bytes) (cap trial : ℕ) : Prop :=
  (placeKeys keys cap (UInt64.ofNat trial) ()).isSome = true

/-- One of the constructor's trials is collision free, at the size of the list or at the power of
two that it falls back to. -/
def Seeded (keys : List Bytes) : Prop :=
  keys.length ≤ slotVectorMaxSize
    ∧ ((∃ trial < 100000, CollisionFree keys keys.length trial)
      ∨ 2 ^ fallbackExponent keys.length 64 0 ≤ slotVectorMaxSize
        ∧ ∃ trial < 100000, CollisionFree keys (2 ^ fallbackExponent keys.length 64 0) trial)

theorem placeKey_isSome {cap : ℕ} {seed : UInt64} {tmp : List (LocalSlot T)}
    {k : Bytes} {s : LocalSlot T} (hs : tmp[buildIndex cap seed k]? = some s)
    (hocc : s.occupied = false) :
    (placeKey cap seed tmp k).isSome = true := by
  unfold placeKey
  rw [hs]
  dsimp only
  rw [if_neg (by simp [hocc])]
  exact Option.isSome_some

/-- One key never meets an occupied slot, whatever its hash is. -/
theorem collisionFree_singleton (key : Bytes) (trial : ℕ) : CollisionFree [key] 1 trial := by
  have hidx : buildIndex 1 (UInt64.ofNat trial) key = 0 := by
    have hlt := buildIndex_lt Nat.one_pos (UInt64.ofNat trial) key
    omega
  have hplace : (placeKey 1 (UInt64.ofNat trial) [LocalSlot.empty ()] key).isSome = true := by
    refine placeKey_isSome (s := LocalSlot.empty ()) ?_
      (by simp [LocalSlot.occupied, LocalSlot.empty])
    rw [hidx]
    exact List.getElem?_cons_zero
  obtain ⟨slots, hslots⟩ := Option.isSome_iff_exists.mp hplace
  unfold CollisionFree placeKeys
  rw [List.foldlM_cons, List.replicate_one, hslots]
  exact Option.isSome_some

theorem searchSeed_isSome_iff {build : UInt64 → Option (LocalMap T)} (fuel start : ℕ) :
    (searchSeed build fuel (UInt64.ofNat start)).isSome = true
      ↔ ∃ j < fuel, (build (UInt64.ofNat (start + j))).isSome = true := by
  -- On the seeds that are left to try.
  induction fuel generalizing start with
  | zero => simp [searchSeed]
  | succ fuel ih =>
      have hnext : UInt64.ofNat start + 1 = UInt64.ofNat (start + 1) := by
        rw [UInt64.ofNat_add]
        rfl
      unfold searchSeed
      cases hb : build (UInt64.ofNat start) with
      | some m =>
          refine ⟨fun _ => ⟨0, Nat.succ_pos _, ?_⟩, fun _ => rfl⟩
          rw [Nat.add_zero, hb]
          rfl
      | none =>
          dsimp only
          rw [hnext, ih]
          constructor
          · rintro ⟨j, hj, h⟩
            exact ⟨j + 1, by omega, by rwa [← Nat.add_assoc, Nat.add_right_comm]⟩
          · rintro ⟨j, hj, h⟩
            cases j with
            | zero =>
                rw [Nat.add_zero, hb] at h
                cases h
            | succ j => exact ⟨j, by omega, by rwa [Nat.add_right_comm]⟩

theorem search_try_build {keys : List Bytes} {cap : ℕ} {value : T} {hmax : cap ≤ slotVectorMaxSize}
    {hcap : isPow2 cap = true ∨ cap = keys.length} :
    (searchSeed (try_build keys keys.length cap value rfl hmax hcap) 100000 0).isSome = true
      ↔ ∃ trial < 100000, CollisionFree keys cap trial := by
  have hzero : (0 : UInt64) = UInt64.ofNat 0 := rfl
  rw [hzero, searchSeed_isSome_iff]
  unfold CollisionFree
  simp only [Nat.zero_add, isSome_try_build, placeKeys_isSome keys cap _ value ()]

/-- What the constructor makes of a list with a seed: the slots of a trial. -/
theorem ofKeys_seeded {keys : List Bytes} (hne : keys ≠ []) (hnodup : keys.Nodup)
    (hseed : Seeded keys) (value : T) : ∃ m cap seed, ∃ hmax : cap ≤ slotVectorMaxSize,
      ∃ hcap : isPow2 cap = true ∨ cap = keys.length, ofKeys keys value = .ok m ∧ 0 < cap
        ∧ try_build keys keys.length cap value rfl hmax hcap seed = some m := by
  obtain ⟨hK, htrials⟩ := hseed
  unfold ofKeys
  rw [if_neg hne, if_neg (not_not.mpr hnodup), dif_pos hK]
  cases hfirst : searchSeed (try_build keys keys.length keys.length value rfl hK (.inr rfl))
    100000 0 with
  | some m =>
      obtain ⟨seed, hbuild⟩ := searchSeed_eq_some hfirst
      exact ⟨m, keys.length, seed, hK, .inr rfl, rfl, List.length_pos_of_ne_nil hne, hbuild⟩
  | none =>
      -- A trial of the first search that works contradicts that it was exhausted.
      rcases htrials with htrial | ⟨hcap, htrial⟩
      · have hsome :
            (searchSeed (try_build keys keys.length keys.length value rfl hK (.inr rfl)) 100000
            0).isSome = true := search_try_build.mpr htrial
        rw [hfirst] at hsome
        cases hsome
      · dsimp only
        rw [dif_pos hcap]
        cases hsecond : searchSeed (try_build keys keys.length _ value rfl hcap
            (.inl (isPow2_two_pow _))) 100000 0 with
        | some m =>
            obtain ⟨seed, hbuild⟩ := searchSeed_eq_some hsecond
            exact ⟨m, _, seed, hcap, .inl (isPow2_two_pow _), rfl, by positivity, hbuild⟩
        | none =>
            have hsome : (searchSeed (try_build keys keys.length _ value rfl hcap
                (.inl (isPow2_two_pow _))) 100000 0).isSome = true := search_try_build.mpr htrial
            rw [hsecond] at hsome
            cases hsome

/-- So a map with slots is that of a trial, if it is known that the constructor has returned. -/
theorem try_build_of_ofKeys {keys : List Bytes} {value : T} {m : LocalMap T}
    (h : ofKeys keys value = .ok m) (hne : keys ≠ []) (hseed : Seeded keys) :
    ∃ cap seed, ∃ hmax : cap ≤ slotVectorMaxSize, ∃ hcap : isPow2 cap = true ∨ cap = keys.length,
      0 < cap ∧ try_build keys keys.length cap value rfl hmax hcap seed = some m := by
  have hnodup : keys.Nodup := by
    by_contra hdup
    unfold ofKeys at h
    rw [if_neg hne, if_pos hdup] at h
    cases h
  obtain ⟨m', cap, seed, hmax, hcap, hok, hpos, hbuild⟩ := ofKeys_seeded hne hnodup hseed value
  obtain rfl := Except.ok.inj (hok.symm.trans h)
  exact ⟨cap, seed, hmax, hcap, hpos, hbuild⟩

/-- **When there are slots**: the list is not empty and one of its trials is collision free. -/
theorem slots_ne_nil_iff {keys : List Bytes} {value : T} {m : LocalMap T}
    (h : ofKeys keys value = .ok m) : m.slots_ ≠ [] ↔ keys ≠ [] ∧ Seeded keys := by
  constructor
  · -- The branches of the constructor in order; the three that leave no slots contradict it.
    intro hslots
    unfold ofKeys at h
    by_cases hnil : keys = []
    · rw [if_pos hnil] at h
      obtain rfl := Except.ok.inj h
      exact absurd rfl hslots
    rw [if_neg hnil] at h
    by_cases hdup : ¬ keys.Nodup
    · rw [if_pos hdup] at h
      cases h
    rw [if_neg hdup] at h
    by_cases hK : keys.length ≤ slotVectorMaxSize
    case neg => rw [dif_neg hK] at h; cases h
    rw [dif_pos hK] at h
    refine ⟨hnil, hK, ?_⟩
    split at h
    · rename_i m' hsearch
      exact .inl (search_try_build.mp (by rw [hsearch]; rfl))
    by_cases hcap : 2 ^ fallbackExponent keys.length 64 0 ≤ slotVectorMaxSize
    case neg => rw [dif_neg hcap] at h; cases h
    rw [dif_pos hcap] at h
    split at h
    · rename_i m' hsearch
      exact .inr ⟨hcap, search_try_build.mp (by rw [hsearch]; rfl)⟩
    · obtain rfl := Except.ok.inj h
      exact absurd rfl hslots
  · rintro ⟨hne, hseed⟩
    obtain ⟨cap, seed, hmax, hcap, hpos, hbuild⟩ := try_build_of_ofKeys h hne hseed
    exact slots_of_try_build hpos hbuild

/-! ## Lookups are safe -/

/-- In a map that was built, `probe` finds a slot for every text. -/
theorem probe_total {keys : List Bytes} {K cap : ℕ} {value : T} {hK : keys.length = K}
    {hmax : cap ≤ slotVectorMaxSize} {hcap : isPow2 cap = true ∨ cap = K}
    {seed : UInt64} {m : LocalMap T} (hsize : 0 < K) (hpos : 0 < cap)
    (h : try_build keys K cap value hK hmax hcap seed = some m) (k : Bytes) :
    m.probe k = .ok (slotIndex m.seed_ m.size_ m.mask_ k)
      ∧ slotIndex m.seed_ m.size_ m.mask_ k < m.slots_.length := by
  unfold try_build at h
  split at h
  · cases h
  rename_i slots hslots
  obtain rfl := Option.some.inj h
  have hlt := buildIndex_lt hpos seed k
  have hlen := (placeKeys_filled hslots).length
  have hslot := slotIndex_eq_buildIndex hmax hcap seed k
  unfold probe
  dsimp only
  rw [if_neg (by omega), hslot, if_pos (by omega)]
  exact ⟨rfl, by omega⟩

/-- A text that is found is a key, or what the 32 bits of a key's length leave of it. -/
theorem mem_of_find_ptr {keys : List Bytes} {m : LocalMap T}
    (hkeys : ∀ (i : ℕ) (s : LocalSlot T), m.slots_[i]? = some s → s.occupied = true → s.key ∈ keys)
    {k : Bytes} {i : ℕ} (h : m.find_ptr k = .ok (some i)) :
    ∃ key ∈ keys, k = key.take (key.length % 2 ^ 32) ∧ k ≠ []
      ∧ slotIndex m.seed_ m.size_ m.mask_ key = i ∧ slotIndex m.seed_ m.size_ m.mask_ k = i := by
  have hprobe : slotIndex m.seed_ m.size_ m.mask_ k = i := by
    unfold find_ptr at h
    obtain ⟨idx, hidx, h⟩ := bind_eq_ok.mp h
    split at h
    · split_ifs at h
      · obtain rfl := Option.some.inj (Except.ok.inj h)
        exact probe_eq_ok hidx
      · cases h
    · cases h
  obtain ⟨s, hs, hocc, hlen, htake⟩ := find_ptr_eq_some h
  obtain ⟨_, hidx, hslen⟩ := m.placed i s hs hocc
  refine ⟨s.key, hkeys i s hs hocc, by rw [← hslen]; exact htake, ?_, hidx, hprobe⟩
  have hpos := (length_of_find_ptr h).1
  exact List.ne_nil_of_length_pos hpos

/-- The slot of a key holds it, with what the 32 bits leave of its length. -/
theorem slot_of_key {keys : List Bytes} {K cap : ℕ} {value : T} {hK : keys.length = K}
    {hmax : cap ≤ slotVectorMaxSize} {hcap : isPow2 cap = true ∨ cap = K}
    {seed : UInt64} {m : LocalMap T} (h : try_build keys K cap value hK hmax hcap seed = some m)
    {key : Bytes} (hkey : key ∈ keys) (hlen : key.length % 2 ^ 32 ≠ 0) :
    ∃ s, m.slots_[slotIndex m.seed_ m.size_ m.mask_ key]? = some s ∧ s.key = key
      ∧ s.len = key.length % 2 ^ 32 := by
  unfold try_build at h
  split at h
  · cases h
  rename_i slots hslots
  obtain rfl := Option.some.inj h
  obtain ⟨s, hs, hkey', hslen⟩ := (placeKeys_filled hslots).present key hkey hlen
  rw [← slotIndex_eq_buildIndex hmax hcap] at hs
  exact ⟨s, hs, hkey', hslen⟩

/-- What the 32 bits of a key's length leave of it is found, if it has the slot of the key. -/
theorem find_truncated {keys : List Bytes} {K cap : ℕ} {value : T} {hK : keys.length = K}
    {hmax : cap ≤ slotVectorMaxSize} {hcap : isPow2 cap = true ∨ cap = K}
    {seed : UInt64} {m : LocalMap T} (hsize : 0 < K) (hpos : 0 < cap)
    (h : try_build keys K cap value hK hmax hcap seed = some m) {key : Bytes}
    (hkey : key ∈ keys) (hlen : key.length % 2 ^ 32 ≠ 0)
    (hslot : slotIndex m.seed_ m.size_ m.mask_ (key.take (key.length % 2 ^ 32))
      = slotIndex m.seed_ m.size_ m.mask_ key) :
    ∃ i, m.find_ptr (key.take (key.length % 2 ^ 32)) = .ok (some i) := by
  obtain ⟨s, hs, hskey, hslen⟩ := slot_of_key h hkey hlen
  have hprobe := (probe_total hsize hpos h (key.take (key.length % 2 ^ 32))).1
  have hlt : key.length % 2 ^ 32 ≤ key.length := Nat.mod_le _ _
  have heq : equals s (key.take (key.length % 2 ^ 32)) = true := by
    unfold equals LocalSlot.occupied
    rw [hskey, hslen, List.length_take, Nat.min_eq_left hlt, List.take_take, Nat.min_self,
      bne_iff_ne.mpr hlen, beq_self_eq_true, beq_self_eq_true]
    rfl
  unfold find_ptr
  rw [hprobe, ok_bind, hslot, hs]
  dsimp only
  rw [if_pos heq]
  exact ⟨_, rfl⟩

/-- A lookup of `k` ends as its comments say: it stays within the slots, and on a text that is no
key it finds nothing. -/
structure SafeLookup [Add T] (keys : List Bytes) (m : LocalMap T) (k : Bytes) : Prop where
  find_ptr : ∃ r, m.find_ptr k = .ok r
  index_of : ∃ i, m.index_of k = .ok i
  get : m.get k ≠ .error .undefined
  set : ∀ v, m.set k v ≠ .error .undefined
  add : ∀ delta, m.add k delta ≠ .error .undefined
  absent : k ∉ keys → m.find_ptr k = .ok none ∧ m.get k = .error .keyNotFound
    ∧ (∀ v, m.set k v = .error .keyNotFound) ∧ ∀ delta, m.add k delta = .error .keyNotFound

/-- No key is so long that what its 32-bit length leaves of it is a text of its own in the same
slot. -/
def Untruncated (keys : List Bytes) (m : LocalMap T) : Prop :=
  ∀ key ∈ keys, 2 ^ 32 ≤ key.length → key.take (key.length % 2 ^ 32) ≠ [] →
    key.take (key.length % 2 ^ 32) ∉ keys →
      slotIndex m.seed_ m.size_ m.mask_ (key.take (key.length % 2 ^ 32))
        ≠ slotIndex m.seed_ m.size_ m.mask_ key

/-- The result of `find_ptr` decides the others: `get`, `set` and `add` look up in the same way. -/
theorem safeLookup_of_find_ptr [Add T] {keys : List Bytes} {m : LocalMap T}
    {k : Bytes} {r : Option ℕ} (h : m.find_ptr k = .ok r) (habsent : k ∉ keys → r = none) :
    SafeLookup keys m k := by
  have hnone : r = none → m.get k = .error .keyNotFound ∧ ∀ f, m.modify k f
      = .error .keyNotFound := by
    rintro rfl
    unfold LocalMap.get modify
    rw [h]
    exact ⟨rfl, fun _ => rfl⟩
  have hsome : ∀ i, r = some i → m.get k ≠ .error .undefined ∧ ∀ f, m.modify k f
      ≠ .error .undefined := by
    rintro i rfl
    obtain ⟨s, hs, _⟩ := find_ptr_eq_some h
    unfold LocalMap.get modify
    rw [h, ok_bind]
    dsimp only
    rw [hs]
    exact ⟨by simp, fun f => by simp⟩
  -- An absent key ends the process with its message, a present one is read inside the slots.
  have hall : m.get k ≠ .error .undefined ∧ ∀ f, m.modify k f ≠ .error .undefined := by
    cases r with
    | some i => exact hsome i rfl
    | none =>
        obtain ⟨hget, hmodify⟩ := hnone rfl
        exact ⟨by rw [hget]; simp, fun f => by rw [hmodify]; simp⟩
  refine ⟨⟨r, h⟩, ⟨r.getD npos, by rw [index_of_eq, h]; rfl⟩, hall.1, fun v => hall.2 _,
    fun delta => hall.2 _, fun hk => ?_⟩
  obtain ⟨hget, hmodify⟩ := hnone (habsent hk)
  exact ⟨by rw [h, habsent hk], hget, fun v => hmodify _, fun delta => hmodify _⟩

/-- **Lookups are safe for every text** exactly if the list is not empty, one of the constructor's
trials is collision free, and no key's truncation takes its place. Safe are those that read no slot
outside the vector, divide by no zero, and find nothing for a text that is no key. -/
theorem safe_lookups [Add T] {keys : List Bytes} {value : T} {m : LocalMap T}
    (h : ofKeys keys value = .ok m) :
    (∀ k, SafeLookup keys m k) ↔ keys ≠ [] ∧ Seeded keys ∧ Untruncated keys m := by
  constructor
  · intro hsafe
    have hslots : m.slots_ ≠ [] := by
      intro hnil
      obtain ⟨r, hr⟩ := (hsafe []).find_ptr
      unfold LocalMap.find_ptr at hr
      obtain ⟨idx, hidx, hr⟩ := bind_eq_ok.mp hr
      rw [hnil] at hr
      cases hr
    obtain ⟨hne, hseed⟩ := (slots_ne_nil_iff h).mp hslots
    refine ⟨hne, hseed, fun key hkey hlong hpos habsent hslot => ?_⟩
    obtain ⟨cap, seed, hmax, hcap, hcappos, hbuild⟩ := try_build_of_ofKeys h hne hseed
    have hlen : key.length % 2 ^ 32 ≠ 0 := by
      intro hzero
      rw [hzero, List.take_zero] at hpos
      exact hpos rfl
    -- what is left of the key is not in the list, but it is found
    obtain ⟨i, hi⟩ := find_truncated (List.length_pos_of_ne_nil hne) hcappos hbuild hkey hlen hslot
    obtain ⟨hnull, _⟩ := (hsafe _).absent habsent
    rw [hi] at hnull
    cases hnull
  · rintro ⟨hne, hseed, huntruncated⟩ k
    obtain ⟨cap, seed, hmax, hcap, hcappos, hbuild⟩ := try_build_of_ofKeys h hne hseed
    obtain ⟨hprobe, hlt⟩ := probe_total (List.length_pos_of_ne_nil hne) hcappos hbuild k
    have htotal : ∃ r, m.find_ptr k = .ok r := by
      unfold LocalMap.find_ptr
      rw [hprobe, ok_bind, List.getElem?_eq_getElem hlt]
      exact ⟨_, rfl⟩
    obtain ⟨r, hr⟩ := htotal
    refine safeLookup_of_find_ptr hr fun habsent => ?_
    cases r with
    | none => rfl
    | some i =>
        obtain ⟨key, hkey, rfl, hpos, hi, hki⟩ := mem_of_find_ptr (ofKeys_spec h).1 hr
        by_cases hlong : key.length < 2 ^ 32
        · rw [Nat.mod_eq_of_lt hlong, List.take_length] at habsent
          exact absurd hkey habsent
        · exact absurd (hki.trans hi.symm) (huntruncated key hkey (by omega) hpos habsent)

/-- A map over one key, all of whose lookups are safe. -/
theorem safe_lookups_one : ∃ m : LocalMap ℤ, ofKeys [[97]] 0 = .ok m
    ∧ ((∀ k, SafeLookup [[97]] m k)
      ↔ ([[97]] : List Bytes) ≠ [] ∧ Seeded [[97]] ∧ Untruncated [[97]] m) := by
  have hcheck : (do
      let _ ← ofKeys [[97]] (0 : ℤ)
      .ok true) = (.ok true : Except Abort Bool) := by decide +kernel
  obtain ⟨m, hm, _⟩ := bind_eq_ok.mp hcheck
  exact ⟨m, hm, safe_lookups hm⟩

/-- The map of the empty list takes a remainder by zero: the constructor accepts it, and the first
lookup is undefined. -/
theorem empty_lookup :
    ¬ ∀ (keys : List Bytes) (m : LocalMap ℤ), ofKeys keys 0 = .ok m → ∀ k, SafeLookup keys m k := by
  intro h
  obtain ⟨r, hr⟩ := (h [] (noSlots npos) rfl [97]).find_ptr
  cases hr

/-! ## A finite map -/

/-- A write to the map, of a value or of a difference. -/
inductive Write (T : Type)
  | set (k : Bytes) (v : T)
  | add (k : Bytes) (delta : T)

namespace Write

/-- The key that is written to. -/
def key : Write T → Bytes
  | .set k _ => k
  | .add k _ => k

/-- What the write makes of the value under its key: a new one, or the sum. -/
def value [Add T] : Write T → T → T
  | .set _ v => fun _ => v
  | .add _ delta => (· + delta)

/-- The value under `k` after some writes: those to `k`, in order. -/
def after [Add T] (ws : List (Write T)) (k : Bytes) (v : T) : T :=
  ws.foldl (fun v w => if w.key = k then w.value v else v) v

end Write

/-- Performs a write, by the member function of its kind. -/
def write [Add T] (m : LocalMap T) : Write T → Except Abort (LocalMap T)
  | .set k v => m.set k v
  | .add k delta => m.add k delta

theorem write_eq [Add T] (m : LocalMap T) (w : Write T) : m.write w = m.modify w.key w.value := by
  cases w <;> rfl

/-- What is asked of a map over `keys`, with `value` the value under each. -/
structure FiniteMap (keys : List Bytes) (value : Bytes → T) (m : LocalMap T) : Prop where
  /-- A text is found exactly if it is a key. -/
  found : ∀ k, ∃ r, m.find_ptr k = .ok r ∧ (r.isSome ↔ k ∈ keys)
  /-- The index is that of the cell, and `npos` if there is none. -/
  index : ∀ k, ∃ i, m.index_of k = .ok i ∧ (i ≠ npos ↔ k ∈ keys)
  /-- Different keys have different cells. -/
  cells : ∀ k k' i, m.find_ptr k = .ok (some i) → m.find_ptr k' = .ok (some i) → k = k'
  values : ∀ k ∈ keys, m.get k = .ok (value k)
  /-- The enumerations list each key once, with its cell. -/
  listed : m.get_all_keys.Perm keys
  each : (m.for_each_key.map Prod.fst).Perm keys
    ∧ ∀ k i, (k, i) ∈ m.for_each_key → m.find_ptr k = .ok (some i)

/-- The two enumerations list the same keys in the same order. -/
theorem for_each_key_fst (m : LocalMap T) : m.for_each_key.map Prod.fst = m.get_all_keys := by
  have hgen : ∀ (slots : List (LocalSlot T)) (n : ℕ),
      (((slots.zipIdx n).filter fun x => x.1.occupied).map fun x => (x.1.key, x.2)).map Prod.fst
        = (slots.filter LocalSlot.occupied).map LocalSlot.key := by
    intro slots
    induction slots with
    | nil => intro n; rfl
    | cons s slots ih =>
        intro n
        rw [List.zipIdx_cons, List.filter_cons, List.filter_cons]
        dsimp only
        split_ifs with hocc
        · rw [List.map_cons, List.map_cons, List.map_cons, ih]
        · exact ih (n + 1)
  exact hgen m.slots_ 0

/-- A map that hosts its keys is a finite map over them. -/
theorem finiteMap_of_hosts {keys : List Bytes} {value : Bytes → T} {m : LocalMap T}
    (hm : m.Hosts keys) (hnodup : keys.Nodup) (hmax : m.slots_.length ≤ npos)
    (htotal : ∀ k, ∃ r, m.find_ptr k = .ok r) (hvalues : ∀ k ∈ keys, m.get k = .ok (value k)) :
    FiniteMap keys value m := by
  have hfound : ∀ k, ∃ r, m.find_ptr k = .ok r ∧ (r.isSome ↔ k ∈ keys) := by
    intro k
    obtain ⟨r, hr⟩ := htotal k
    refine ⟨r, hr, fun hsome => ?_, fun hk => ?_⟩
    · obtain ⟨i, rfl⟩ := Option.isSome_iff_exists.mp hsome
      exact hm.mem_of_find_ptr hr
    · obtain ⟨i, _, hi, _⟩ := hm.slot hk
      obtain rfl := Except.ok.inj (hr.symm.trans hi)
      rfl
  have hkeys : m.get_all_keys.Perm keys := by
    -- no key is in two slots
    have hpair : m.slots_.Pairwise fun s t => s.occupied = true → t.occupied = true →
        s.key ≠ t.key := by
      rw [List.pairwise_iff_getElem]
      intro i j hi hj hij hs ht hkey
      have hsame :=
        hm.key_inj (List.getElem?_eq_getElem hi) hs (List.getElem?_eq_getElem hj) ht hkey
      omega
    have hdistinct : m.get_all_keys.Nodup := by
      unfold get_all_keys List.Nodup
      rw [List.pairwise_map, List.pairwise_filter]
      exact hpair
    refine (List.perm_ext_iff_of_nodup hdistinct hnodup).mpr fun k => ?_
    unfold get_all_keys
    rw [List.mem_map]
    constructor
    · rintro ⟨s, hs, rfl⟩
      obtain ⟨hmem, hocc⟩ := List.mem_filter.mp hs
      obtain ⟨i, hi⟩ := List.mem_iff_getElem?.mp hmem
      exact (hm.keys i s hi hocc).1
    · intro hk
      obtain ⟨i, s, _, hs, hocc, hkey⟩ := hm.slot hk
      exact ⟨s, List.mem_filter.mpr ⟨List.mem_of_getElem? hs, hocc⟩, hkey⟩
  refine ⟨hfound, fun k => ?_, fun k k' i => find_ptr_inj, hvalues, hkeys, ?_, fun k i hki => ?_⟩
  · obtain ⟨r, hr, hiff⟩ := hfound k
    refine ⟨r.getD npos, by rw [index_of_eq, hr]; rfl, ?_⟩
    rw [← hiff]
    cases r with
    | none => simp
    | some i =>
        obtain ⟨s, hs, _⟩ := find_ptr_eq_some hr
        have hlt := (List.getElem?_eq_some_iff.mp hs).1
        -- an index of a slot is not the sentinel
        have hne : i ≠ npos := by omega
        simpa using hne
  · rw [for_each_key_fst]
    exact hkeys
  · unfold for_each_key at hki
    obtain ⟨⟨s, j⟩, hs, heq⟩ := List.mem_map.mp hki
    obtain ⟨rfl, rfl⟩ := Prod.mk.inj heq
    obtain ⟨hmem, hocc⟩ := List.mem_filter.mp hs
    exact (hm.lookup_key (List.mk_mem_zipIdx_iff_getElem?.mp hmem) hocc).1

/-- **Any sequence of writes to its keys leaves a finite map**, with the values that the writes
come to. -/
theorem writes_spec [Add T] {keys : List Bytes} (ws : List (Write T))
    {value : Bytes → T} {m : LocalMap T} (hm : FiniteMap keys value m)
    (hhosts : m.Hosts keys) (hnodup : keys.Nodup) (hmax : m.slots_.length ≤ npos) :
    ((∃ m', ws.foldlM write m = .ok m') ↔ ∀ w ∈ ws, w.key ∈ keys)
      ∧ ∀ m', ws.foldlM write m = .ok m' →
        FiniteMap keys (fun k => Write.after ws k (value k)) m' := by
  induction ws generalizing m value with
  | nil =>
      refine ⟨⟨fun _ w hw => absurd hw List.not_mem_nil, fun _ => ⟨m, rfl⟩⟩, fun m' h => ?_⟩
      obtain rfl := Except.ok.inj h
      exact hm
  | cons w ws ih =>
      rw [List.foldlM_cons]
      by_cases hw : w.key ∈ keys
      · obtain ⟨m₁, hm₁⟩ := hhosts.modify_exists hw w.value
        obtain ⟨_, hhosts₁, hlookup, _, hlen⟩ := hhosts.modify hm₁
        obtain ⟨i, hi, heq⟩ := modify_eq_ok hm₁
        -- one write keeps the map a finite map
        have hstep : FiniteMap keys (fun k => if w.key = k then w.value (value k)
            else value k) m₁ := by
          refine finiteMap_of_hosts hhosts₁ hnodup (by omega) (fun k => ?_) fun k hk => ?_
          · rw [heq, find_ptr_update]
            obtain ⟨r, hr, _⟩ := hm.found k
            exact ⟨r, hr⟩
          · have hold := get_eq_ok.mp (hm.values k hk)
            rw [get_eq_ok, hlookup]
            by_cases hkey : k = w.key
            · rw [if_pos hkey, if_pos hkey.symm, ← hkey, hold]
              rfl
            · rw [if_neg hkey, if_neg (Ne.symm hkey)]
              exact hold
        rw [write_eq, hm₁, ok_bind]
        obtain ⟨hiff, hspec⟩ := ih hstep hhosts₁ (by omega)
        refine ⟨hiff.trans ⟨fun hall => ?_, fun hall w' hw' =>
          hall w' (List.mem_cons_of_mem _ hw')⟩, hspec⟩
        intro w' hw'
        rcases List.mem_cons.mp hw' with rfl | hw'
        · exact hw
        · exact hall w' hw'
      · have hfail : m.write w = .error .keyNotFound := by
          obtain ⟨r, hr, hiff⟩ := hm.found w.key
          obtain rfl : r = none := by
            rw [← Option.not_isSome_iff_eq_none, hiff]
            exact hw
          rw [write_eq]
          unfold modify
          rw [hr]
          rfl
        rw [hfail]
        refine ⟨⟨?_, fun hall => absurd (hall w List.mem_cons_self) hw⟩, ?_⟩
        · rintro ⟨m', h⟩
          cases h
        · intro m' h
          cases h

/-- **`LocalMap` is a finite map over its keys**, for keys that fit the length field of a slot:
after any sequence of `set` and `add`, all of them on keys of the list. `hseed` says that the
constructor has found a seed; without one it gives up. -/
theorem finite_map [Add T] {keys : List Bytes} (hne : keys ≠ []) (hnodup : keys.Nodup)
    (hlen : ∀ k ∈ keys, k ≠ [] ∧ k.length < 2 ^ 32) (hseed : Seeded keys)
    (value : T) (ws : List (Write T)) :
    ∃ m, ofKeys keys value = .ok m
      ∧ ((∃ m', ws.foldlM write m = .ok m') ↔ ∀ w ∈ ws, w.key ∈ keys)
      ∧ ∀ m', ws.foldlM write m = .ok m' → FiniteMap keys (fun k => Write.after ws k value) m' := by
  obtain ⟨m, cap, seed, hmax, hcap, hok, hcappos, hbuild⟩ := ofKeys_seeded hne hnodup hseed value
  have hfit : ∀ k ∈ keys, 0 < k.length ∧ k.length < 2 ^ 32 :=
    fun k hk => ⟨List.length_pos_of_ne_nil (hlen k hk).1, (hlen k hk).2⟩
  have hhosts := Hosts.of_ofKeys hok hfit (slots_of_try_build hcappos hbuild)
  -- The table is never long enough for a slot's index to be the value that stands for none.
  have hslots : m.slots_.length ≤ npos := by
    unfold try_build at hbuild
    split at hbuild
    · cases hbuild
    rename_i slots hslots
    obtain rfl := Option.some.inj hbuild
    have hlength := (placeKeys_filled hslots).length
    unfold slotVectorMaxSize at hmax
    unfold npos
    dsimp only
    omega
  have hmap : FiniteMap keys (fun _ => value) m := by
    refine finiteMap_of_hosts hhosts hnodup hslots (fun k => ?_) fun k hk => ?_
    · obtain ⟨hprobe, hlt⟩ := probe_total (List.length_pos_of_ne_nil hne) hcappos hbuild k
      unfold LocalMap.find_ptr
      rw [hprobe, ok_bind, List.getElem?_eq_getElem hlt]
      exact ⟨_, rfl⟩
    · exact get_eq_ok.mpr ((try_build_spec hbuild).2 k hk (hfit k hk).1 (hfit k hk).2)
  exact ⟨m, hok, writes_spec ws hmap hhosts hnodup hslots⟩

/-- Two keys, and a `set` and an `add` on the first: the map then has the sum under it, and zero
under the other. -/
theorem finite_map_two : ∃ m : LocalMap ℤ, ofKeys [[97], [98]] 0 = .ok m
    ∧ ((∃ m', [Write.set [97] 5, .add [97] 2].foldlM write m = .ok m')
        ↔ ∀ w ∈ [Write.set [97] 5, .add [97] (2 : ℤ)], w.key ∈ ([[97], [98]] : List Bytes))
    ∧ ∀ m', [Write.set [97] 5, .add [97] 2].foldlM write m = .ok m' →
      FiniteMap [[97], [98]] (fun k => Write.after [.set [97] 5, .add [97] 2] k 0) m' := by
  refine finite_map (by decide) (by decide) (by decide) ?_ 0 _
  refine ⟨by decide, .inl ⟨1, by decide, ?_⟩⟩
  unfold CollisionFree
  decide +kernel

/-- A key of 4 GiB is not found: its length is kept in 32 bits. -/
theorem long_key_lost : ¬ ∀ (keys : List Bytes) (m : LocalMap ℤ), keys ≠ [] → keys.Nodup →
    (∀ k ∈ keys, k ≠ []) → Seeded keys → ofKeys keys 0 = .ok m →
      ∀ k ∈ keys, ∃ i, m.find_ptr k = .ok (some i) := by
  intro h
  let key : Bytes := List.replicate (2 ^ 32) 97
  have hlen : key.length = 2 ^ 32 := List.length_replicate
  have hne : key ≠ [] := List.ne_nil_of_length_pos (by omega)
  have hseed : Seeded [key] := by
    exact ⟨by decide, .inl ⟨0, by decide, collisionFree_singleton key 0⟩⟩
  obtain ⟨m, cap, seed, _, _, hok, _⟩ := ofKeys_seeded (by simp) (by simp) hseed (0 : ℤ)
  obtain ⟨i, hi⟩ := h [key] m (by simp) (by simp) (by simpa using hne) hseed hok key (by simp)
  have hshort := (length_of_find_ptr hi).2
  omega

end LocalMap

end RlpSidecar
