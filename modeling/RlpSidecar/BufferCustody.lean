/-
**Each buffer is in one place** (`buffer_manager.cc`): in the queue, in the kernel's ring, or with
the one who has it.

The indices in the three places are, together, those of the pool, each once. What the vector and
the flags of a buffer say follows: a slot is null exactly while its buffer is handed out, a buffer
in the vector is free, and the queue has those that are never provided to the kernel. What moves a
buffer keeps that, so no check of the manager fails, other than that for an empty queue.

A run is any sequence of the calls that the owners of the buffers and the kernel may make
(`Allowed`): a buffer is taken, written into, given back, or reported by the kernel out of its
ring. `Wf` is the invariant of one pool, with a field for each of the places and for what the
vector says of it, and `Wf.apply` is its step lemma. `buffers_in_one_place` reads the result off
for both pools, in every state that can be reached.
-/
import RlpSidecar.BufferManager

set_option autoImplicit false

namespace RlpSidecar

namespace BufferPool

/-- The buffer that is made for slot `i`: its index, its target, and its memory. -/
structure Made (count offset length i : ℕ) (b : PoolBuffer) : Prop where
  index : b.index = i + offset
  is_provided : b.is_provided = decide (5 * i < 4 * count)
  memory : b.data.length = length
  size : b.size = (length + (2 ^ 64 - 1)) % 2 ^ 64

/-- **The invariant of a pool** of which `k` buffers are made, and `held` are handed out. -/
structure Wf (count offset length k : ℕ) (p : BufferPool) (held : List PoolBuffer) : Prop where
  size : p.buffer_vector.length = k
  places : (p.free_queue ++ p.ring ++ held.map PoolBuffer.index).Perm
    ((List.range k).map (· + offset))
  stored : ∀ (i : ℕ) (b : PoolBuffer), p.buffer_vector[i]? = some (some b) →
    b.is_free = true ∧ b.filled = 0 ∧ Made count offset length i b
  handed : ∀ b ∈ held, b.is_free = false ∧ ∃ i, Made count offset length i b
    ∧ p.buffer_vector[i]? = some none
  queued : ∀ x ∈ p.free_queue, ∃ i b, x = i + offset ∧ ¬ 5 * i < 4 * count
    ∧ p.buffer_vector[i]? = some (some b)
  ringed : ∀ x ∈ p.ring, ∃ i b, x = i + offset ∧ 5 * i < 4 * count
    ∧ p.buffer_vector[i]? = some (some b)

variable {count offset length k limit i x : ℕ} {p p' : BufferPool} {held : List PoolBuffer}
    {b b' : PoolBuffer}
variable {queue ring : List ℕ}

/-! ## What moves a buffer -/

theorem Wf.nodup (h : p.Wf count offset length k held) :
    (p.free_queue ++ p.ring ++ held.map PoolBuffer.index).Nodup := by
  apply h.places.nodup_iff.mpr
  apply List.Nodup.map _ List.nodup_range
  exact fun _ _ h => Nat.add_right_cancel h

/-- A free buffer is handed out: it goes from the queue or the ring to its holder. -/
theorem Wf.hand_out (h : p.Wf count offset length k held) (hi : p.buffer_vector[i]? = some (some b))
    (hqueue : ∀ x ∈ queue, x ∈ p.free_queue) (hring : ∀ x ∈ ring, x ∈ p.ring)
    (hmove : (p.free_queue ++ p.ring).Perm ((i + offset) :: (queue ++ ring))) :
    Wf count offset length k ⟨p.buffer_vector.set i none, queue, ring⟩
      ({ b with is_free := false } :: held) := by
  have hlt : i < p.buffer_vector.length := (List.getElem?_eq_some_iff.mp hi).1
  obtain ⟨hfree, hempty, hmade⟩ := h.stored i b hi
  have hplaces : ((i + offset) :: (queue ++ ring) ++ held.map PoolBuffer.index).Perm
      ((List.range k).map (· + offset)) := (hmove.symm.append_right _).trans h.places
  -- the index is in no other place
  have hnodup := (hmove.append_right _).nodup_iff.mp h.nodup
  have hgone : i + offset ∉ queue ++ ring := by
    intro hmem
    rw [List.cons_append] at hnodup
    exact (List.nodup_cons.mp hnodup).1 (List.mem_append_left _ hmem)
  refine ⟨?_, ?_, ?_, ?_, ?_, ?_⟩
  · rw [List.length_set]
    exact h.size
  · rw [List.map_cons, hmade.index]
    exact List.perm_middle.trans hplaces
  · intro j c hj
    dsimp only at hj
    rw [List.getElem?_set] at hj
    split_ifs at hj with heq
    · cases hj
    · exact h.stored j c hj
  · intro c hc
    rcases List.mem_cons.mp hc with rfl | hc
    · refine ⟨rfl, i, ⟨hmade.index, hmade.is_provided, hmade.memory, hmade.size⟩, ?_⟩
      exact List.getElem?_set_self hlt
    · obtain ⟨hfree, j, hmade, hj⟩ := h.handed c hc
      refine ⟨hfree, j, hmade, ?_⟩
      dsimp only
      rw [List.getElem?_set]
      split_ifs with heq
      · rfl
      · exact hj
  · intro x hx
    obtain ⟨j, c, rfl, hj, hc⟩ := h.queued x (hqueue x hx)
    have hne : i ≠ j := fun heq => hgone (List.mem_append_left _ (heq ▸ hx))
    exact ⟨j, c, rfl, hj, by rw [List.getElem?_set_ne hne, hc]⟩
  · intro x hx
    obtain ⟨j, c, rfl, hj, hc⟩ := h.ringed x (hring x hx)
    have hne : i ≠ j := fun heq => hgone (List.mem_append_right _ (heq ▸ hx))
    exact ⟨j, c, rfl, hj, by rw [List.getElem?_set_ne hne, hc]⟩

/-- A buffer comes back: it goes from its holder to the queue, or to the ring. -/
theorem Wf.put_back (h : p.Wf count offset length k held) (hb : b ∈ held)
    (hmade : Made count offset length i b) (hi : p.buffer_vector[i]? = some none)
    (hqueue : ∀ x ∈ queue, x ∈ p.free_queue ∨ x = i + offset ∧ ¬ 5 * i < 4 * count)
    (hring : ∀ x ∈ ring, x ∈ p.ring ∨ x = i + offset ∧ 5 * i < 4 * count)
    (hmove : (queue ++ ring).Perm ((i + offset) :: (p.free_queue ++ p.ring))) :
    Wf count offset length k ⟨p.buffer_vector.set i (some b.clear), queue, ring⟩
      (held.erase b) := by
  have hlt : i < p.buffer_vector.length := (List.getElem?_eq_some_iff.mp hi).1
  have hheld : (held.map PoolBuffer.index).Perm
      ((i + offset) :: (held.erase b).map PoolBuffer.index) := by
    rw [← hmade.index]
    exact (List.perm_cons_erase hb).map PoolBuffer.index
  have hself : (p.buffer_vector.set i (some b.clear))[i]? = some (some b.clear) :=
    List.getElem?_set_self hlt
  -- a slot with a buffer keeps it
  have hkept : ∀ (j : ℕ) (c : PoolBuffer), p.buffer_vector[j]? = some (some c) →
      (p.buffer_vector.set i (some b.clear))[j]? = some (some c) := by
    intro j c hj
    have hne : i ≠ j := by
      intro heq
      rw [← heq, hi] at hj
      cases hj
    rw [List.getElem?_set_ne hne, hj]
  refine ⟨?_, ?_, ?_, ?_, ?_, ?_⟩
  · rw [List.length_set]
    exact h.size
  · have hback : (queue ++ ring ++ (held.erase b).map PoolBuffer.index).Perm
        ((i + offset) :: (p.free_queue ++ p.ring) ++ (held.erase b).map PoolBuffer.index) :=
          hmove.append_right _
    have hfrom : ((i + offset) :: (p.free_queue ++ p.ring)
        ++ (held.erase b).map PoolBuffer.index).Perm
        (p.free_queue ++ p.ring ++ held.map PoolBuffer.index) :=
      List.perm_middle.symm.trans (hheld.symm.append_left _)
    exact (hback.trans hfrom).trans h.places
  · intro j c hj
    dsimp only at hj
    rw [List.getElem?_set] at hj
    split_ifs at hj with heq
    · obtain rfl := Option.some.inj (Option.some.inj hj)
      subst heq
      exact ⟨rfl, rfl, ⟨hmade.index, hmade.is_provided, hmade.memory, hmade.size⟩⟩
    · exact h.stored j c hj
  · intro c hc
    obtain ⟨hfree, j, hmade', hj⟩ := h.handed c (List.mem_of_mem_erase hc)
    have hne : i ≠ j := by
      intro heq
      have hnodup := (List.nodup_append.mp h.nodup).2.1
      have hindex : c.index = i + offset := by rw [heq]; exact hmade'.index
      apply (List.nodup_cons.mp (hheld.nodup_iff.mp hnodup)).1
      rw [← hindex]
      exact List.mem_map_of_mem hc
    exact ⟨hfree, j, hmade', by rw [List.getElem?_set_ne hne, hj]⟩
  · intro x hx
    rcases hqueue x hx with hold | ⟨rfl, hnot⟩
    · obtain ⟨j, c, rfl, hj, hc⟩ := h.queued x hold
      exact ⟨j, c, rfl, hj, hkept j c hc⟩
    · exact ⟨i, b.clear, rfl, hnot, hself⟩
  · intro x hx
    rcases hring x hx with hold | ⟨rfl, hprovided⟩
    · obtain ⟨j, c, rfl, hj, hc⟩ := h.ringed x hold
      exact ⟨j, c, rfl, hj, hkept j c hc⟩
    · exact ⟨i, b.clear, rfl, hprovided, hself⟩

/-- In which order the buffers were handed out does not matter to the invariant of the pool. -/
theorem Wf.perm {held' : List PoolBuffer} (h : p.Wf count offset length k held)
    (hp : held.Perm held') :
    p.Wf count offset length k held' := by
  refine ⟨h.size, ?_, h.stored, ?_, h.queued, h.ringed⟩
  · exact ((hp.map PoolBuffer.index).symm.append_left _).trans h.places
  · intro c hc
    exact h.handed c (hp.mem_iff.mpr hc)

/-- A holder writes to its buffer: as long as it leaves the index alone, the buffer can come
back. -/
theorem Wf.use (h : p.Wf count offset length k held) (hb : b ∈ held) (hused : b.Used b') :
    p.Wf count offset length k (b' :: held.erase b) := by
  obtain ⟨hlength, hsize, hindex, hfree, hprovided⟩ := hused
  refine ⟨h.size, ?_, h.stored, ?_, h.queued, h.ringed⟩
  · refine List.Perm.trans (List.Perm.append_left _ ?_) h.places
    rw [List.map_cons, hindex]
    exact ((List.perm_cons_erase hb).map PoolBuffer.index).symm
  · intro c hc
    rcases List.mem_cons.mp hc with rfl | hc
    · obtain ⟨hfree', i, hmade, hi⟩ := h.handed b hb
      refine ⟨hfree.trans hfree', i, ?_, hi⟩
      exact ⟨hindex.trans hmade.index, hprovided.trans hmade.is_provided,
        hlength.trans hmade.memory,
        hsize.trans hmade.size⟩
    · exact h.handed c (List.mem_of_mem_erase hc)

/-! ## What the functions do -/

theorem at_eq {slot : Option PoolBuffer} (hi : p.buffer_vector[i]? = some slot) :
    p.at_ offset (i + offset) = .ok slot := by
  unfold at_
  rw [if_neg (by omega), Nat.add_sub_cancel, hi]

theorem store_eq (i : ℕ) (slot : Option PoolBuffer) :
    p.store offset (i + offset) slot = { p with buffer_vector := p.buffer_vector.set i slot } := by
  unfold store
  rw [Nat.add_sub_cancel]

theorem hand_out_eq (h : b.is_free = true) :
    hand_out (some b) = .ok { b with is_free := false } := by
  unfold hand_out
  dsimp only
  rw [if_pos h]

/-- Without free buffers, the process ends. This is the one abort that the theorems allow. -/
theorem get_of_empty (hq : p.free_queue = []) : p.get offset = .error .noFreeBuffer := by
  unfold get
  rw [hq]

/-- A free buffer is taken from the front of the queue, and is empty. -/
theorem Wf.get {rest : List ℕ} (h : p.Wf count offset length k held)
    (hq : p.free_queue = x :: rest) :
    ∃ b p', p.get offset = .ok (b, p') ∧ p'.Wf count offset length k (b :: held)
      ∧ b.index = x ∧ b.filled = 0
      ∧ p'.free_queue = rest := by
  obtain ⟨i, b, rfl, -, hi⟩ := h.queued x (by rw [hq]; exact List.mem_cons_self)
  obtain ⟨hfree, hempty, hmade⟩ := h.stored i b hi
  refine ⟨{ b with is_free := false }, ⟨p.buffer_vector.set i none, rest, p.ring⟩,
    ?_, ?_, hmade.index, hempty, rfl⟩
  · unfold BufferPool.get
    rw [hq]
    dsimp only
    rw [at_eq hi, ok_bind, hand_out_eq hfree, ok_bind, store_eq]
  · apply h.hand_out hi
    · intro y hy
      rw [hq]
      exact List.mem_cons_of_mem _ hy
    · exact fun _ => id
    · rw [hq, List.cons_append]

/-- A buffer that the kernel reports is in the vector, since it was given to the kernel out of
it. -/
theorem Wf.report (h : p.Wf count offset length k held) (hx : x ∈ p.ring) (hlimit : limit = k) :
    ∃ b p', (p.report x).get_by_index offset limit x = .ok (b, p')
      ∧ p'.Wf count offset length k (b :: held) := by
  obtain ⟨i, b, rfl, -, hi⟩ := h.ringed x hx
  obtain ⟨hfree, hempty, hmade⟩ := h.stored i b hi
  have hlt : i < k := by
    rw [← h.size]
    exact (List.getElem?_eq_some_iff.mp hi).1
  have hi' : (p.report (i + offset)).buffer_vector[i]? = some (some b) := hi
  refine ⟨{ b with is_free := false },
    ⟨p.buffer_vector.set i none, p.free_queue, p.ring.erase (i + offset)⟩, ?_, ?_⟩
  · unfold get_by_index
    rw [if_neg (by omega), at_eq hi', ok_bind, if_neg (Option.some_ne_none b),
      hand_out_eq hfree, ok_bind, store_eq]
    rfl
  · apply h.hand_out hi
    · exact fun _ => id
    · exact fun _ => List.mem_of_mem_erase
    · exact (List.Perm.append_left _ (List.perm_cons_erase hx)).trans List.perm_middle

/-- A buffer that was handed out can be freed: its slot is empty, and its index fits into the 16
bits of the ring. -/
theorem Wf.free (h : p.Wf count offset length k held) (hb : b ∈ held)
    (hbits : k + offset ≤ 2 ^ 16) :
    ∃ p', p.free offset (some b) = .ok p' ∧ p'.Wf count offset length k (held.erase b) := by
  obtain ⟨hfree, i, hmade, hi⟩ := h.handed b hb
  have hlt : i < k := by
    rw [← h.size]
    exact (List.getElem?_eq_some_iff.mp hi).1
  have hindex : b.clear.index = i + offset := hmade.index
  have hprovided : b.clear.is_provided = decide (5 * i < 4 * count) := hmade.is_provided
  unfold BufferPool.free
  dsimp only
  rw [if_neg (by rw [hfree]; exact Bool.false_ne_true), hindex, at_eq hi,
    ok_bind, if_neg (not_not.mpr rfl), store_eq,
    hprovided]
  by_cases hring : 5 * i < 4 * count
  · -- back to the kernel
    refine ⟨_, if_pos (decide_eq_true hring), ?_⟩
    unfold add_buffer_to_ring
    rw [hindex, Nat.mod_eq_of_lt (by omega)]
    apply h.put_back hb hmade hi
    · exact fun _ => Or.inl
    · intro y hy
      rcases List.mem_append.mp hy with hold | hnew
      · exact .inl hold
      · exact .inr ⟨List.mem_singleton.mp hnew, hring⟩
    · rw [← List.append_assoc]
      exact List.perm_append_singleton _ _
  · refine ⟨_, if_neg (by rw [decide_eq_false hring]; exact Bool.false_ne_true), ?_⟩
    apply h.put_back hb hmade hi
    · intro y hy
      rcases List.mem_append.mp hy with hold | hnew
      · exact .inl hold
      · exact .inr ⟨List.mem_singleton.mp hnew, hring⟩
    · exact fun _ => Or.inl
    · rw [List.append_assoc, List.singleton_append]
      exact List.perm_middle

/-- The slot of one more buffer, at the end of the vector. -/
theorem Wf.slot_new (h : p.Wf count offset length k held) (c : PoolBuffer) :
    (p.buffer_vector ++ [some c])[k]? = some (some c) := by
  rw [← h.size]
  exact List.getElem?_concat_length

/-- The other slots stay as they are when one more is added. -/
theorem slot_old (c : PoolBuffer) (hi : p.buffer_vector[i]? = some (some b)) :
    (p.buffer_vector ++ [some c])[i]? = some (some b) := by
  rw [List.getElem?_append_left (List.getElem?_eq_some_iff.mp hi).1, hi]

theorem Wf.size_new (h : p.Wf count offset length k held) (c : PoolBuffer) :
    (p.buffer_vector ++ [some c]).length = k + 1 := by
  rw [List.length_append, h.size, List.length_singleton]

/-- What is in a slot, after one more buffer is made: an old buffer, or the new one. -/
theorem Wf.stored_new (h : p.Wf count offset length k held) {c : PoolBuffer}
    (hfree : c.is_free = true) (hempty : c.filled = 0) (hmade : Made count offset length k c)
    (hi : (p.buffer_vector ++ [some c])[i]? = some (some b)) :
    b.is_free = true ∧ b.filled = 0 ∧ Made count offset length i b := by
  rcases Nat.lt_or_ge i k with hlt | hge
  · rw [List.getElem?_append_left (by rw [h.size]; exact hlt)] at hi
    exact h.stored i b hi
  · have hlen := (List.getElem?_eq_some_iff.mp hi).1
    rw [h.size_new] at hlen
    obtain rfl : i = k := by omega
    rw [h.slot_new] at hi
    obtain rfl := Option.some.inj (Option.some.inj hi)
    exact ⟨hfree, hempty, hmade⟩

/-- One more buffer is made by the constructor, and nothing has been handed out yet. -/
theorem Wf.add (h : p.Wf count offset length k []) (hbits : k + offset < 2 ^ 16) :
    (p.add count offset length k).Wf count offset length (k + 1) [] := by
  have hrange : (List.range (k + 1)).map (· + offset) = (List.range k).map (· + offset)
      ++ [k + offset] := by
    rw [List.range_succ, List.map_append]
    rfl
  have hplaces := h.places
  rw [List.map_nil, List.append_nil] at hplaces
  -- what was in the queue or in the ring is in its slot still
  have hqueued : ∀ (c : PoolBuffer), ∀ x ∈ p.free_queue, ∃ j c', x = j + offset
      ∧ ¬ 5 * j < 4 * count
      ∧ (p.buffer_vector ++ [some c])[j]? = some (some c') := by
    intro c x hx
    obtain ⟨j, c', rfl, hj, hc⟩ := h.queued x hx
    exact ⟨j, c', rfl, hj, slot_old c hc⟩
  have hringed : ∀ (c : PoolBuffer), ∀ x ∈ p.ring, ∃ j c', x = j + offset ∧ 5 * j < 4 * count
      ∧ (p.buffer_vector ++ [some c])[j]? = some (some c') := by
    intro c x hx
    obtain ⟨j, c', rfl, hj, hc⟩ := h.ringed x hx
    exact ⟨j, c', rfl, hj, slot_old c hc⟩
  unfold BufferPool.add
  dsimp only
  by_cases hring : 5 * k < 4 * count
  · rw [if_pos hring]
    refine ⟨h.size_new _, ?_, ?_, ?_, hqueued _, ?_⟩
    · unfold add_buffer_to_ring
      rw [List.map_nil, List.append_nil, hrange, ← List.append_assoc]
      dsimp only [PoolBuffer.create]
      rw [Nat.mod_eq_of_lt hbits]
      exact hplaces.append_right _
    · intro j c hj
      refine h.stored_new ?_ ?_ ?_ hj
      · rfl
      · rfl
      · exact ⟨rfl, (decide_eq_true hring).symm, List.length_replicate, rfl⟩
    · exact fun c hc => nomatch hc
    · intro x hx
      rcases List.mem_append.mp hx with hx | hx
      · exact hringed _ x hx
      · dsimp only [PoolBuffer.create] at hx
        rw [List.mem_singleton, Nat.mod_eq_of_lt hbits] at hx
        exact ⟨k, _, hx, hring, h.slot_new _⟩
  · rw [if_neg hring]
    refine ⟨h.size_new _, ?_, ?_, ?_, ?_, hringed _⟩
    · rw [List.map_nil, List.append_nil, hrange, List.append_assoc]
      refine List.Perm.trans ?_ (hplaces.append_right _)
      rw [List.append_assoc]
      exact List.Perm.append_left _ List.perm_append_comm
    · intro j c hj
      refine h.stored_new ?_ ?_ ?_ hj
      · rfl
      · rfl
      · exact ⟨rfl, (decide_eq_false hring).symm, List.length_replicate, rfl⟩
    · exact fun c hc => nomatch hc
    · intro x hx
      rcases List.mem_append.mp hx with hx | hx
      · exact hqueued _ x hx
      · exact ⟨k, _, List.mem_singleton.mp hx, hring, h.slot_new _⟩

/-! ## Places -/

/-- Each of the `count` buffers of a pool is in the queue, in the ring, or handed out, and in one
of them only. The queue has no index twice, and none of a buffer that is provided to the kernel. A
slot has a buffer that is free exactly if the buffer is not handed out. -/
def InOnePlace (offset count : ℕ) (p : BufferPool) (held : List PoolBuffer) : Prop :=
  (∀ i < count,
      p.free_queue.count (i + offset) + p.ring.count (i + offset)
        + (held.map PoolBuffer.index).count (i + offset) = 1)
    ∧ p.free_queue.Nodup
    ∧ (∀ x ∈ p.free_queue, ∃ i b, x = i + offset ∧ p.buffer_vector[i]? = some (some b)
      ∧ b.is_provided = false)
    ∧ ∀ i < count, ((∃ b, p.buffer_vector[i]? = some (some b) ∧ b.is_free = true)
        ↔ i + offset ∉ held.map PoolBuffer.index)

theorem Wf.inOnePlace (h : p.Wf count offset length k held) : InOnePlace offset k p held := by
  have hcount : ∀ i < k, p.free_queue.count (i + offset) + p.ring.count (i + offset)
      + (held.map PoolBuffer.index).count (i + offset) = 1 := by
    intro i hi
    rw [← List.count_append, ← List.count_append]
    apply List.count_eq_one_of_mem h.nodup
    exact h.places.mem_iff.mpr (List.mem_map_of_mem (List.mem_range.mpr hi))
  refine ⟨hcount, (List.nodup_append.mp (List.nodup_append.mp h.nodup).1).1, ?_, ?_⟩
  · intro x hx
    obtain ⟨i, b, rfl, hnot, hi⟩ := h.queued x hx
    exact ⟨i, b, rfl, hi, (h.stored i b hi).2.2.is_provided.trans (decide_eq_false hnot)⟩
  · intro i hlt
    constructor
    · rintro ⟨b, hi, -⟩ hmem
      obtain ⟨c, hc, hindex⟩ := List.mem_map.mp hmem
      obtain ⟨-, j, hmade, hj⟩ := h.handed c hc
      have heq : j = i := Nat.add_right_cancel (hmade.index.symm.trans hindex)
      rw [heq, hi] at hj
      cases hj
    · intro hmem
      -- it is in the queue or in the ring
      have hone := hcount i hlt
      rw [List.count_eq_zero_of_not_mem hmem, Nat.add_zero] at hone
      have hplace : i + offset ∈ p.free_queue ∨ i + offset ∈ p.ring := by
        by_contra hnone
        rw [not_or] at hnone
        rw [List.count_eq_zero_of_not_mem hnone.1, List.count_eq_zero_of_not_mem hnone.2] at hone
        omega
      have hslot : ∃ b, p.buffer_vector[i]? = some (some b) := by
        rcases hplace with hqueue | hring
        · obtain ⟨j, b, heq, -, hj⟩ := h.queued _ hqueue
          rw [Nat.add_right_cancel heq]
          exact ⟨b, hj⟩
        · obtain ⟨j, b, heq, -, hj⟩ := h.ringed _ hring
          rw [Nat.add_right_cancel heq]
          exact ⟨b, hj⟩
      obtain ⟨b, hb⟩ := hslot
      exact ⟨b, hb, (h.stored i b hb).1⟩

end BufferPool

/-! ## Runs -/

open BufferPool

/-- The manager, and the buffers of each pool that are handed out. -/
structure Custody where
  manager : BufferManager
  held : List PoolBuffer
  held_udp : List PoolBuffer

namespace Custody

/-- What happens to the buffers. A holder may write to its buffer. -/
inductive Call
  | get_buffer
  | get_udp_buffer
  | get_buffer_by_index (index : ℕ)
  | get_udp_buffer_by_index (index : ℕ)
  | free_buffer (buffer : PoolBuffer)
  | free_udp_buffer (buffer : PoolBuffer)
  | use (buffer buffer' : PoolBuffer)
  | use_udp (buffer buffer' : PoolBuffer)

/-- What is required of a call: the kernel reports a buffer of the ring of that group, and a buffer
is freed, or written to, by its holder. -/
def Allowed (s : Custody) : Call → Prop
  | .get_buffer | .get_udp_buffer => True
  | .get_buffer_by_index index => index ∈ s.manager.tcp.ring
  | .get_udp_buffer_by_index index => index ∈ s.manager.udp.ring
  | .free_buffer buffer => buffer ∈ s.held
  | .free_udp_buffer buffer => buffer ∈ s.held_udp
  | .use buffer buffer' => buffer ∈ s.held ∧ buffer.Used buffer'
  | .use_udp buffer buffer' => buffer ∈ s.held_udp ∧ buffer.Used buffer'

/-- What a call does: to the manager, and to the record of what the program holds. -/
def apply (s : Custody) : Call → Except Abort Custody
  | .get_buffer => do
    let (buffer, manager) ← s.manager.get_buffer
    .ok { s with manager := manager, held := buffer :: s.held }
  | .get_udp_buffer => do
    let (buffer, manager) ← s.manager.get_udp_buffer
    .ok { s with manager := manager, held_udp := buffer :: s.held_udp }
  | .get_buffer_by_index index => do
    -- the completion names a buffer that the kernel has taken from its ring
    let reported := { s.manager with tcp := s.manager.tcp.report index }
    let (buffer, manager) ← reported.get_buffer_by_index index
    .ok { s with manager := manager, held := buffer :: s.held }
  | .get_udp_buffer_by_index index => do
    let reported := { s.manager with udp := s.manager.udp.report index }
    let (buffer, manager) ← reported.get_udp_buffer_by_index index
    .ok { s with manager := manager, held_udp := buffer :: s.held_udp }
  | .free_buffer buffer => do
    let manager ← s.manager.free_buffer (some buffer)
    .ok { s with manager := manager, held := s.held.erase buffer }
  | .free_udp_buffer buffer => do
    let manager ← s.manager.free_udp_buffer (some buffer)
    .ok { s with manager := manager, held_udp := s.held_udp.erase buffer }
  -- the holder writes into its buffer, which stays where it is
  | .use buffer buffer' => .ok { s with held := buffer' :: s.held.erase buffer }
  | .use_udp buffer buffer' => .ok { s with held_udp := buffer' :: s.held_udp.erase buffer }

/-- A manager that has just been made, with nothing handed out. -/
def start (count size : ℕ) : Custody := ⟨.create count size, [], []⟩

/-- The states that calls lead to, in any order, as long as only what is held is freed or written
to. -/
inductive Reachable (count size : ℕ) : Custody → Prop
  | start : Reachable count size (start count size)
  | step {s s' : Custody} {c : Call} :
      Reachable count size s → s.Allowed c → s.apply c = .ok s' → Reachable count size s'

/-- The invariant of both pools: every buffer is in exactly one place, and its slot says which. -/
structure Wf (count size : ℕ) (s : Custody) : Prop where
  made : s.manager.count = count
  tcp : s.manager.tcp.Wf count 0 size count s.held
  udp : s.manager.udp.Wf count count 256 count s.held_udp

/-- The calls that find an empty queue, which are the only ones that may fail. -/
def QueueEmpty (s : Custody) : Call → Prop
  | .get_buffer => s.manager.tcp.free_queue = []
  | .get_udp_buffer => s.manager.udp.free_queue = []
  | _ => False

variable {count size : ℕ} {s s' : Custody} {c : Call}

theorem start_wf (hcount : count ≤ 2 ^ 15) : (start count size).Wf count size := by
  -- the invariant after `k` rounds of the loop, over the first `k` buffers
  have hloop : ∀ k ≤ count,
      let m := (List.range k).foldl
        (fun m i =>
          { m with
            tcp := m.tcp.add count 0 size i
            udp := m.udp.add count count 256 i
            user_data_queue := m.user_data_queue ++ [i] })
        ({ count := count, size := size, tcp := ⟨[], [], []⟩, udp := ⟨[], [], []⟩,
           user_data_queue := [] } :
          BufferManager)
      m.count = count ∧ m.tcp.Wf count 0 size k [] ∧ m.udp.Wf count count 256 k [] := by
    intro k hk
    induction k with
    | zero =>
        have hempty : ∀ offset length, (⟨[], [], []⟩ : BufferPool).Wf count offset length 0 [] := by
          intro offset length
          refine ⟨rfl, List.Perm.refl _, ?_, List.forall_mem_nil _, List.forall_mem_nil _,
            List.forall_mem_nil _⟩
          intro i b hi
          rw [List.getElem?_nil] at hi
          cases hi
        exact ⟨rfl, hempty _ _, hempty _ _⟩
    | succ k ih =>
        obtain ⟨hm, htcp, hudp⟩ := ih (by omega)
        rw [List.range_succ, List.foldl_append]
        exact ⟨hm, htcp.add (by omega), hudp.add (by omega)⟩
  obtain ⟨hm, htcp, hudp⟩ := hloop count le_rfl
  exact ⟨hm, htcp, hudp⟩

/-- **One call** keeps the invariant, unless it finds an empty queue. The bound on `count` is what
the kernel asks of a ring. -/
theorem Wf.apply (h : s.Wf count size) (hcount : count ≤ 2 ^ 15) (hc : s.Allowed c) :
    (∃ s', s.apply c = .ok s' ∧ s'.Wf count size) ∨ s.apply c = .error .noFreeBuffer
      ∧ s.QueueEmpty c := by
  obtain ⟨hm, htcp, hudp⟩ := h
  cases c with
  | get_buffer =>
      -- the only call that can fail asks an empty queue
      cases hq : s.manager.tcp.free_queue with
      | nil =>
          right
          refine ⟨?_, hq⟩
          unfold Custody.apply BufferManager.get_buffer
          dsimp only
          rw [get_of_empty hq]
          rfl
      | cons x rest =>
          obtain ⟨b, p, hget, hwf, -⟩ := htcp.get hq
          left
          refine ⟨⟨{ s.manager with tcp := p }, b :: s.held, s.held_udp⟩, ?_, hm, hwf, hudp⟩
          unfold Custody.apply BufferManager.get_buffer
          dsimp only
          rw [hget]
          rfl
  | get_udp_buffer =>
      cases hq : s.manager.udp.free_queue with
      | nil =>
          right
          refine ⟨?_, hq⟩
          unfold Custody.apply BufferManager.get_udp_buffer
          dsimp only
          rw [hm, get_of_empty hq]
          rfl
      | cons x rest =>
          obtain ⟨b, p, hget, hwf, -⟩ := hudp.get hq
          left
          refine ⟨⟨{ s.manager with udp := p }, s.held, b :: s.held_udp⟩, ?_, hm, htcp, hwf⟩
          unfold Custody.apply BufferManager.get_udp_buffer
          dsimp only
          rw [hm, hget]
          rfl
  | get_buffer_by_index index =>
      -- what the kernel reports was in its ring, so the buffer is there
      obtain ⟨b, p, hreport, hwf⟩ := htcp.report hc hm
      left
      refine ⟨⟨{ s.manager with tcp := p }, b :: s.held, s.held_udp⟩, ?_, hm, hwf, hudp⟩
      unfold Custody.apply BufferManager.get_buffer_by_index
      dsimp only
      rw [hreport]
      rfl
  | get_udp_buffer_by_index index =>
      obtain ⟨b, p, hreport, hwf⟩ := hudp.report hc hudp.size
      left
      refine ⟨⟨{ s.manager with udp := p }, s.held, b :: s.held_udp⟩, ?_, hm, htcp, hwf⟩
      unfold Custody.apply BufferManager.get_udp_buffer_by_index
      dsimp only
      have hsize : (s.manager.udp.report index).buffer_vector.length
          = s.manager.udp.buffer_vector.length := rfl
      rw [hm, hsize, hreport]
      rfl
  | free_buffer b =>
      obtain ⟨p, hfree, hwf⟩ := htcp.free hc (by omega)
      left
      refine ⟨⟨{ s.manager with tcp := p }, s.held.erase b, s.held_udp⟩, ?_, hm, hwf, hudp⟩
      unfold Custody.apply BufferManager.free_buffer
      dsimp only
      rw [hfree]
      rfl
  | free_udp_buffer b =>
      obtain ⟨p, hfree, hwf⟩ := hudp.free hc (by omega)
      left
      refine ⟨⟨{ s.manager with udp := p }, s.held, s.held_udp.erase b⟩, ?_, hm, htcp, hwf⟩
      unfold Custody.apply BufferManager.free_udp_buffer
      dsimp only
      rw [hm, hfree]
      rfl
  -- the holder writes into its own buffer
  | use b b' => exact .inl ⟨_, rfl, hm, htcp.use hc.1 hc.2, hudp⟩
  | use_udp b b' => exact .inl ⟨_, rfl, hm, htcp, hudp.use hc.1 hc.2⟩

/-- **In every run** the invariant holds, by induction on the calls. -/
theorem Reachable.wf (hcount : count ≤ 2 ^ 15) (h : Reachable count size s) : s.Wf count size := by
  induction h with
  | start => exact start_wf hcount
  | step _ hallowed happly ih =>
      rcases ih.apply hcount hallowed with ⟨s', hs', hwf⟩ | ⟨herror, -⟩
      · rw [hs'] at happly
        obtain rfl := Except.ok.inj happly
        exact hwf
      · rw [herror] at happly
        cases happly

/-- Where the rings could be made, their entries fit: this is the documented bound of the kernel,
carried by `BufferRings`. -/
theorem count_le {kernel : BufferRings} (hring : kernel.create count = .ok ()) :
    count ≤ 2 ^ 15 := by
  unfold BufferRings.create at hring
  split_ifs at hring with _ _ hregister _
  exact kernel.entries_le count 0 (not_not.mp hregister)

/-- **No buffer is handed out twice.** In every state that calls lead to, each buffer of each pool
is in one place, and the only call that ends the process is one that finds an empty queue. -/
theorem buffers_in_one_place (kernel : BufferRings) (count size : ℕ)
    (hring : kernel.create count = .ok ()) (s : Custody) (h : Reachable count size s) :
    InOnePlace 0 count s.manager.tcp s.held ∧ InOnePlace count count s.manager.udp s.held_udp
      ∧ ∀ c, s.Allowed c → (∃ s', s.apply c = .ok s') ∨ s.apply c = .error .noFreeBuffer
      ∧ s.QueueEmpty c := by
  have hcount := count_le hring
  have hwf := h.wf hcount
  refine ⟨hwf.tcp.inOnePlace, hwf.udp.inOnePlace, ?_⟩
  intro c hc
  rcases hwf.apply hcount hc with ⟨s', hs', -⟩ | herror
  · exact .inl ⟨s', hs'⟩
  · exact .inr herror

/-- A kernel that takes any other number of entries, for the concrete runs. -/
def anyRing : BufferRings where
  register_buf_ring entries _ := if entries ≤ 2 ^ 15 then 0 else -22
  entries_le entries bgid h := by
    by_contra hnot
    rw [if_neg hnot] at h
    cases h

/-- Of eight buffers the queue has one, which is then handed out. -/
theorem buffers_in_one_place_eight :
    ∃ s, Reachable 8 16 s ∧ s.held.map PoolBuffer.index = [7]
      ∧ InOnePlace 0 8 s.manager.tcp s.held := by
  have hstep : ∃ s, (start 8 16).apply .get_buffer = .ok s ∧ s.held.map PoolBuffer.index = [7] :=
    ⟨_, rfl, rfl⟩
  obtain ⟨s, hs, hheld⟩ := hstep
  have hreach : Reachable 8 16 s := .step (c := .get_buffer) .start True.intro hs
  exact ⟨s, hreach, hheld, (buffers_in_one_place anyRing 8 16 rfl s hreach).1⟩

end Custody

end RlpSidecar
