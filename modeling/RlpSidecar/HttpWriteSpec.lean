/-
**Output keeps the byte stream** (`write_http`): what is submitted are the groups of a greedy
packing of the blocks.

The loop has one buffer at hand, which holds the group that has been begun; all other buffers that
were taken are submitted. A block either joins the group or begins a new one in a fresh buffer, and
it always fits there. The buffer at hand is empty only after a first block that is.

`write_block_fits` and `write_block_full` are the two cases of a round, `loop_spec` is the
induction, and `write_http_spec` says how the function ends: everything is written, or there are
too few buffers or `UserData` objects. `stream_kept` reads it off for every state of the pool that
can be reached.
-/
import RlpSidecar.HttpWrites

set_option autoImplicit false

namespace RlpSidecar

open BufferPool Packing

namespace HttpWriter

variable {count len n : ℕ} {held : List PoolBuffer} {group blocks : List Bytes}
    {block : Bytes} {b : PoolBuffer}
variable {w : HttpWriter} {m : BufferManager}

/-! ## Buffers -/

/-- A block that fits is appended behind what is filled, and the rest of the buffer stays. -/
theorem append_spec (hmemory : b.data.length = len) (hsize : b.size = len - 1)
    (hfit : b.filled + block.length < len) :
    ∃ b', b.append block = .ok b' ∧ b.Used b' ∧ b'.content = b.content ++ block
      ∧ b'.filled = b.filled + block.length := by
  have hroom : b.filled + block.length ≤ b.data.length := by omega
  have hle : b.filled + block.length ≤ b.size := by omega
  refine ⟨{ b with
    data := Wire.overwrite b.data b.filled block
    filled := b.filled + block.length
    filled_le := hle }, ?_, ?_, ?_, rfl⟩
  · unfold PoolBuffer.append PoolBuffer.set_filled
    rw [if_neg (not_lt.mpr hroom)]
    exact dif_pos hle
  · exact ⟨Wire.length_overwrite hroom, rfl, rfl, rfl, rfl⟩
  · have hfilled : (b.data.take b.filled).length = b.filled := by
      rw [List.length_take]
      omega
    unfold PoolBuffer.content Wire.overwrite
    apply List.take_left'
    rw [List.length_append, hfilled]

/-- The size of a pool buffer, if it has memory: the constructor takes one byte off its length. -/
theorem size_eq (hpos : 0 < len) (hlen : len < 2 ^ 64) {i offset : ℕ}
    (h : Made count offset len i b) :
    b.size = len - 1 := by
  have hsize := h.size
  omega

/-! ## The loop -/

/-- The buffer at hand holds `group`; the others that were taken are submitted. -/
structure Filling (count len : ℕ) (held : List PoolBuffer) (group : List Bytes)
    (b : PoolBuffer) (w : HttpWriter) :
    Prop where
  wf : w.manager.tcp.Wf count 0 len count (b :: (w.buffers ++ held))
  content : b.content = group.flatten
  filled : b.filled = group.flatten.length
  taken : w.taken = w.buffers.map PoolBuffer.index ++ [b.index]
  freed : w.freed = []

/-- What there is too little of, if `n` of each are needed. -/
def Short (n : ℕ) (m : BufferManager) (e : Abort) : Prop :=
  e = .noFreeBuffer ∧ m.tcp.free_queue.length < n ∨ e = .noUserData ∧ m.user_data_queue.length < n

/-- At most `n` buffers and `n` records have been used between the two, and none has come back. -/
def Spent (n : ℕ) (m m' : BufferManager) : Prop :=
  m.tcp.free_queue.length ≤ m'.tcp.free_queue.length + n ∧ m.user_data_queue.length
    ≤ m'.user_data_queue.length + n

/-- A buffer is taken from the pool, empty; the only way to fail is that there is none. -/
theorem take_spec (h : w.manager.tcp.Wf count 0 len count (w.buffers ++ held))
    (htaken : w.taken = w.buffers.map PoolBuffer.index) (hfreed : w.freed = []) :
    Ends (fun e => e = .noFreeBuffer ∧ w.manager.tcp.free_queue.length = 0)
      (fun r => Filling count len held [] r.1 r.2 ∧ r.2.buffers = w.buffers
        ∧ w.manager.tcp.free_queue.length = r.2.manager.tcp.free_queue.length + 1
        ∧ r.2.manager.user_data_queue = w.manager.user_data_queue
        ∧ r.2.send_buffer = w.send_buffer ∧ r.2.write_flag = w.write_flag)
      w.take := by
  unfold HttpWriter.take BufferManager.get_buffer
  cases hq : w.manager.tcp.free_queue with
  | nil =>
      rw [get_of_empty hq]
      exact ⟨rfl, rfl⟩
  | cons x rest =>
      obtain ⟨b, p, hget, hwf, -, hempty, hrest⟩ := h.get hq
      rw [hget]
      refine ⟨⟨hwf, ?_, hempty, ?_, hfreed⟩, rfl, ?_, rfl, rfl, rfl⟩
      · unfold PoolBuffer.content
        rw [hempty]
        rfl
      · exact congrArg (· ++ [b.index]) htaken
      · dsimp only
        rw [hrest, List.length_cons]

/-- A buffer is submitted with a record of its own; the only way to fail is that there is no
record. -/
theorem prepare_write_spec (b : PoolBuffer) (w : HttpWriter) :
    Ends (fun e => e = .noUserData ∧ w.manager.user_data_queue.length = 0)
      (fun w' => w'.buffers = w.buffers ++ [b]
        ∧ w.manager.user_data_queue.length = w'.manager.user_data_queue.length + 1
        ∧ w'.manager.tcp = w.manager.tcp ∧ w'.taken = w.taken ∧ w'.freed = w.freed)
      (w.prepare_write b) := by
  unfold HttpWriter.prepare_write BufferManager.get_user_data
  cases hq : w.manager.user_data_queue with
  | nil => exact ⟨rfl, rfl⟩
  | cons ud rest =>
      refine ⟨?_, rfl, rfl, rfl, rfl⟩
      unfold HttpWriter.buffers
      rw [List.map_append]
      rfl

/-- The block is appended to a buffer that has room for it. -/
theorem Filling.append (hpos : 0 < len) (hlen : len < 2 ^ 64) (h : Filling count len held group b w)
    (hfit : group.flatten.length + block.length < len) :
    ∃ b', b.append block = .ok b' ∧ Filling count len held (group ++ [block]) b' w := by
  obtain ⟨-, i, hmade, -⟩ := h.wf.handed b List.mem_cons_self
  obtain ⟨b', happend, hused, hcontent, hfilled⟩ :=
    append_spec hmade.memory (size_eq hpos hlen hmade) (by rw [h.filled]; exact hfit)
  have hwf := h.wf.use List.mem_cons_self hused
  rw [List.erase_cons_head] at hwf
  refine ⟨b', happend, hwf, ?_, ?_, ?_, h.freed⟩
  · rw [hcontent, h.content, List.flatten_append, List.flatten_singleton]
  · rw [hfilled, h.filled, List.flatten_append, List.flatten_singleton, List.length_append]
  · rw [h.taken, hused.2.2.1]

/-- What the buffer at hand has room for, all the blocks of the group together. -/
theorem Filling.size (hpos : 0 < len) (hlen : len < 2 ^ 64) (h : Filling count len held group b w) :
    b.size = len - 1 := by
  obtain ⟨-, i, hmade, -⟩ := h.wf.handed b List.mem_cons_self
  exact size_eq hpos hlen hmade

/-- **A block that fits** joins the group in the buffer at hand, and nothing is submitted. -/
theorem write_block_fits (hpos : 0 < len) (hlen : len < 2 ^ 64)
    (h : Filling count len held group b w) (hfit : group.flatten.length + block.length ≤ len - 1) :
    ∃ b', w.write_block block b = .ok (b', w) ∧ Filling count len held (group ++ [block]) b' w := by
  obtain ⟨b', happend, hfilling⟩ :=
    h.append hpos hlen (show group.flatten.length + block.length < len by omega)
  have hwrite : http_write block b = .ok (.written b') := by
    unfold http_write
    rw [if_neg (by rw [h.size hpos hlen, h.filled]; omega), happend]
    rfl
  refine ⟨b', ?_, hfilling⟩
  unfold HttpWriter.write_block
  rw [hwrite, ok_bind]

/-- **A block that does not fit** begins the next group; the one before it is submitted. -/
theorem write_block_full (hlen : len < 2 ^ 64) (h : Filling count len held group b w)
    (hblock : block.length < len) (hfull : ¬ group.flatten.length + block.length ≤ len - 1) :
    Ends (Short 1 w.manager)
      (fun r => Spent 1 w.manager r.2.manager ∧ r.2.buffers = w.buffers ++ [b]
        ∧ Filling count len held [block] r.1 r.2)
      (w.write_block block b) := by
  have hpos : 0 < len := by omega
  have hwrite : http_write block b = .ok (.bufferFull block) := by
    unfold http_write
    rw [if_pos (by rw [h.size hpos hlen, h.filled]; omega)]
  unfold HttpWriter.write_block
  rw [hwrite, ok_bind]
  dsimp only
  -- the buffer is submitted, and another one taken
  have hprepare : ∀ e, e = Abort.noUserData ∧ w.manager.user_data_queue.length = 0 →
      Short 1 w.manager e :=
    fun e he => .inr ⟨he.1, by rw [he.2]; exact Nat.one_pos⟩
  apply ((prepare_write_spec b w).blame_mono hprepare).bind
  rintro w₁ ⟨hbuffers, hqueue, htcp, htaken, hfreed⟩
  have hwf₁ : w₁.manager.tcp.Wf count 0 len count (w₁.buffers ++ held) := by
    rw [htcp, hbuffers, List.append_assoc, List.singleton_append]
    exact h.wf.perm List.perm_middle.symm
  have htaken₁ : w₁.taken = w₁.buffers.map PoolBuffer.index := by
    rw [htaken, h.taken, hbuffers, List.map_append]
    rfl
  have htake : ∀ e, e = Abort.noFreeBuffer ∧ w₁.manager.tcp.free_queue.length = 0 →
      Short 1 w.manager e :=
    fun e he => .inl ⟨he.1, by rw [← htcp, he.2]; exact Nat.one_pos⟩
  apply ((take_spec hwf₁ htaken₁ (hfreed.trans h.freed)).blame_mono htake).bind
  rintro ⟨c, w₂⟩ ⟨hfilling, hbuffers₂, hfree, hqueue₂, -⟩
  dsimp only at hfilling hbuffers₂ hfree hqueue₂ ⊢
  obtain ⟨c', happend, hfilling'⟩ := hfilling.append hpos hlen
    (show ([] : List Bytes).flatten.length + block.length < len by
      rw [List.flatten_nil, List.length_nil]; omega)
  have hroom : ¬ c.size - c.filled < block.length := by
    rw [hfilling.size hpos hlen, hfilling.filled, List.flatten_nil, List.length_nil]
    omega
  rw [if_neg hroom, happend, ok_bind]
  refine ⟨⟨?_, ?_⟩, hbuffers₂.trans hbuffers, hfilling'⟩
  · rw [← htcp]
    exact hfree.le
  · rw [hqueue₂]
    exact hqueue.le

/-- The buffer at hand is in the record again, between two rounds of the loop. -/
theorem Filling.hold (h : Filling count len held group b w) (send_buffer : Option PoolBuffer)
    (write_flag : Bool) :
    Filling count len held group b
      { w with send_buffer := send_buffer, write_flag := write_flag } :=
  ⟨h.wf, h.content, h.filled, h.taken, h.freed⟩

/-- The buffer at hand has something in it, so the loop goes on after it. -/
theorem Filling.filled_ne (h : Filling count len held group b w) (hgroup : group.flatten ≠ []) :
    b.filled ≠ 0 := by
  rw [h.filled]
  exact fun hzero => hgroup (List.length_eq_zero_iff.mp hzero)

theorem Short.mono {n' : ℕ} {m' : BufferManager} {e : Abort} (h : Short n m e)
    (hspent : Spent n' m' m) :
    Short (n + n') m' e := by
  obtain ⟨hfree, hqueue⟩ := hspent
  rcases h with ⟨he, hlt⟩ | ⟨he, hlt⟩
  · exact .inl ⟨he, by omega⟩
  · exact .inr ⟨he, by omega⟩

/-- Too few for one block is too few for more: the bound grows with the list. -/
theorem Short.cons {m : BufferManager} {e : Abort} {block : Bytes} {blocks : List Bytes}
    (h : Short 1 m e) :
    Short (block :: blocks).length m e := by
  rw [List.length_cons, Nat.add_comm]
  exact h.mono ⟨Nat.le_add_right _ _, Nat.le_add_right _ _⟩

theorem Spent.trans {n' : ℕ} {m' m'' : BufferManager} (h : Spent n m m')
    (h' : Spent n' m' m'') : Spent (n' + n) m m'' := by
  obtain ⟨hfree, hqueue⟩ := h
  obtain ⟨hfree', hqueue'⟩ := h'
  constructor <;> omega

/-- **The loop**, where the buffer at hand is not empty: all blocks are written. -/
theorem loop_spec (hlen : len < 2 ^ 64) (h : Filling count len held group b w)
    (hb : w.send_buffer = some b) (hflag : w.write_flag = true) (hgroup : group.flatten ≠ [])
    (hblocks : ∀ x ∈ blocks, x.length < len) :
    Ends (Short blocks.length w.manager)
      (fun r => r.2 = [] ∧ r.1.write_flag = true ∧ Spent blocks.length w.manager r.1.manager
        ∧ ∃ b' group', r.1.send_buffer = some b' ∧ Filling count len held group' b' r.1
          ∧ r.1.buffers.map PoolBuffer.content ++ [b'.content]
            = w.buffers.map PoolBuffer.content ++ (pack (len - 1) group blocks).map List.flatten)
      (loop blocks w) := by
  induction blocks generalizing group b w with
  | nil =>
      refine ⟨rfl, hflag, ⟨le_rfl, le_rfl⟩, b, group, hb, h, ?_⟩
      rw [pack, h.content]
      rfl
  | cons block blocks ih =>
      have hblock := hblocks block List.mem_cons_self
      have hrest : ∀ x ∈ blocks, x.length < len := fun x hx => hblocks x (List.mem_cons_of_mem _ hx)
      -- the rest starts from a buffer with something in it
      have hnext : Ends (Short 1 w.manager)
          (fun r => Spent 1 w.manager r.2.manager
            ∧ ∃ group₁, Filling count len held group₁ r.1 r.2 ∧ group₁.flatten ≠ []
              ∧ r.2.buffers.map PoolBuffer.content
                ++ (pack (len - 1) group₁ blocks).map List.flatten
                = w.buffers.map PoolBuffer.content
                  ++ (pack (len - 1) group (block :: blocks)).map List.flatten)
          ({ w with send_buffer := none }.write_block block b) := by
        by_cases hfit : group.flatten.length + block.length ≤ len - 1
        · obtain ⟨c, hwrite, hfilling⟩ :=
            write_block_fits (by omega) hlen (h.hold none w.write_flag) hfit
          rw [hwrite]
          refine ⟨⟨Nat.le_succ _, Nat.le_succ _⟩, group ++ [block], hfilling, ?_, ?_⟩
          · rw [List.flatten_append]
            exact List.append_ne_nil_of_left_ne_nil hgroup _
          · rw [pack_of_fits hfit]
            rfl
        · apply (write_block_full hlen (h.hold none w.write_flag) hblock hfit).mono
          rintro ⟨c, w₁⟩ ⟨hspent, hbuffers, hfilling⟩
          refine ⟨hspent, [block], hfilling, ?_, ?_⟩
          · -- a block that does not fit is not empty
            intro hnil
            rw [List.flatten_singleton] at hnil
            have hle := b.filled_le
            rw [h.filled, h.size (by omega) hlen] at hle
            rw [hnil, List.length_nil, Nat.add_zero] at hfit
            exact hfit hle
          · rw [hbuffers, pack_of_full hfit, List.map_append, List.map_singleton,
              List.append_assoc, List.map_cons,
              h.content]
            rfl
      unfold loop put_block at_hand
      rw [hb]
      dsimp only
      rw [ok_bind]
      dsimp only
      apply (hnext.blame_mono fun e he => he.cons).bind
      rintro ⟨c, w₁⟩ ⟨hspent, group₁, hfilling, hne, hpack⟩
      dsimp only at hspent hfilling hpack ⊢
      rw [if_neg (hfilling.filled_ne hne)]
      apply ((ih (hfilling.hold (some c) true) rfl rfl hne hrest).blame_mono fun e
        he => he.mono hspent).mono
      rintro r ⟨hr, hflag', hspent', b', group', hb', hfilling', hpack'⟩
      exact ⟨hr, hflag', hspent.trans hspent', b', group', hb', hfilling', hpack'.trans hpack⟩

/-! ## The function -/

/-- How blocks are written: what is left of the session, the buffers that were submitted, and those
that were taken. -/
structure Packed (count : ℕ) (held : List PoolBuffer) (blocks : List Bytes)
    (r : HttpWriter × List Bytes) : Prop where
  /-- Everything is written. -/
  all : r.2 = []
  /-- The contents are those of the blocks. -/
  stream : (r.1.buffers.map PoolBuffer.content).flatten = blocks.flatten
  /-- No block is split. -/
  whole : ∃ groups : List (List Bytes),
    groups.flatten = blocks.filter (· ≠ []) ∧ r.1.buffers.map PoolBuffer.content
      = groups.map List.flatten
  /-- No buffer is empty, or too full. -/
  bounded : ∀ b ∈ r.1.buffers, b.content ≠ [] ∧ b.content.length ≤ b.size
  /-- A buffer that was taken is submitted or given back, and not both. -/
  once : r.1.taken = r.1.buffers.map PoolBuffer.index ++ r.1.freed ∧ r.1.taken.Nodup
  /-- The submitted buffers are handed out, and each other one is where it was. -/
  custody : InOnePlace 0 count r.1.manager.tcp (r.1.buffers ++ held)

/-- What was submitted has been taken from the pool, each buffer once, since a buffer is in one
place. -/
theorem nodup_of_wf {p : BufferPool} {bs : List PoolBuffer}
    (h : p.Wf count 0 len count (bs ++ held)) :
    (bs.map PoolBuffer.index).Nodup := by
  have hnodup := (List.nodup_append.mp h.nodup).2.1
  rw [List.map_append] at hnodup
  exact (List.nodup_append.mp hnodup).1

/-- The first block goes into a fresh buffer, in which any block has room. -/
theorem first_block_spec (h : m.tcp.Wf count 0 len count held) (hlen : len < 2 ^ 64)
    (hblock : block.length < len) :
    Ends (Short 1 m)
      (fun r => Filling count len held [block] r.1 r.2 ∧ r.2.buffers = [] ∧ r.2.send_buffer = none
        ∧ r.2.write_flag = false ∧ m.tcp.free_queue.length = r.2.manager.tcp.free_queue.length + 1
        ∧ r.2.manager.user_data_queue = m.user_data_queue)
      ((start m).put_block block) := by
  have htake : ∀ e, e = Abort.noFreeBuffer ∧ m.tcp.free_queue.length = 0 → Short 1 m e :=
    fun e he => .inl ⟨he.1, by rw [he.2]; exact Nat.one_pos⟩
  have hstart : (start m).manager.tcp.Wf count 0 len count ((start m).buffers ++ held) := h
  apply ((take_spec hstart rfl rfl).blame_mono htake).bind
  rintro ⟨c, w⟩ ⟨hfilling, hbuffers, hfree, hqueue, hsend, hflag⟩
  dsimp only at hfilling hbuffers hfree hqueue hsend hflag ⊢
  have hfit : ([] : List Bytes).flatten.length + block.length ≤ len - 1 := by
    rw [List.flatten_nil, List.length_nil]
    omega
  obtain ⟨c', hwrite, hfilling'⟩ := write_block_fits (by omega) hlen hfilling hfit
  rw [hwrite]
  exact ⟨hfilling', hbuffers, hsend, hflag, hfree, hqueue⟩

/-- Nothing was written but an empty block: the buffer is given back. -/
theorem give_back_spec (h : Filling count len held [[]] b w) (hcount : count ≤ 2 ^ 15)
    (hbuffers : w.buffers = []) :
    ∃ manager, w.manager.free_buffer (some b) = .ok manager
      ∧ Packed count held [[]]
        ({ w with manager := manager, freed := w.freed ++ [b.index] }, []) := by
  -- No block was written, so the buffer that was taken goes back as it came.
  have hwf := h.wf
  rw [hbuffers, List.nil_append] at hwf
  obtain ⟨p, hfree, hback⟩ := hwf.free List.mem_cons_self (by omega)
  rw [List.erase_cons_head] at hback
  have hnone : ({ w with
      manager := { w.manager with tcp := p }
      freed := w.freed ++ [b.index] } : HttpWriter).buffers = [] := hbuffers
  refine ⟨{ w.manager with tcp := p }, ?_, rfl, ?_, ⟨[], rfl, ?_⟩, ?_, ?_, ?_⟩
  · unfold BufferManager.free_buffer
    rw [hfree]
    rfl
  · rw [hnone]
    rfl
  · rw [hnone]
    rfl
  · rw [hnone]
    exact List.forall_mem_nil _
  · rw [hnone]
    dsimp only
    rw [h.taken, hbuffers, h.freed]
    exact ⟨rfl, List.nodup_singleton _⟩
  · rw [hnone, List.nil_append]
    exact hback.inOnePlace

/-- All blocks are in the submitted buffers, in order, and each buffer was begun because the one
before had no room. -/
theorem packed_of_pack {w' : HttpWriter} {held : List PoolBuffer} (hpos : 0 < len)
    (hlen : len < 2 ^ 64) (hwf : w'.manager.tcp.Wf count 0 len count (w'.buffers ++ held))
    (hcontents : w'.buffers.map PoolBuffer.content
      = (pack (len - 1) [block] blocks).map List.flatten)
    (htaken : w'.taken = w'.buffers.map PoolBuffer.index) (hfreed : w'.freed = [])
    (hblock : block ≠ []) (hfit : ∀ x ∈ block :: blocks, x.length < len) :
    Packed count held (block :: blocks) (w', []) := by
  have hflatten : (pack (len - 1) [block] blocks).flatten = block :: blocks := pack_flatten _ _ _
  -- Every group is made of blocks that go into one buffer together.
  have hgroups : ∀ g ∈ pack (len - 1) [block] blocks, g.flatten ≠ []
      ∧ g.flatten.length ≤ len - 1 := by
    apply pack_fits
    · rw [List.flatten_singleton]
      have := hfit block List.mem_cons_self
      exact ⟨hblock, by omega⟩
    · intro x hx
      have := hfit x (List.mem_cons_of_mem _ hx)
      omega
  refine ⟨rfl, ?_, ⟨(pack (len - 1) [block] blocks).map (List.filter (· ≠ [])), ?_, ?_⟩,
    ?_, ⟨?_, ?_⟩, hwf.inOnePlace⟩
  · rw [hcontents, ← List.flatten_flatten, hflatten]
  · rw [← List.filter_flatten, hflatten]
  · rw [hcontents, List.map_map]
    apply List.map_congr_left
    intro g _
    exact (List.flatten_filter_ne_nil).symm
  · intro b hb
    have hcontent : b.content ∈ w'.buffers.map PoolBuffer.content := List.mem_map_of_mem hb
    rw [hcontents] at hcontent
    obtain ⟨g, hg, heq⟩ := List.mem_map.mp hcontent
    obtain ⟨-, i, hmade, -⟩ := hwf.handed b (List.mem_append_left _ hb)
    rw [← heq, size_eq hpos hlen hmade]
    exact hgroups g hg
  · rw [htaken, hfreed, List.append_nil]
  · rw [htaken]
    exact nodup_of_wf hwf

/-- **How the function ends**: everything is written, or there are too few buffers or objects of
user data. -/
theorem write_http_spec (h : m.tcp.Wf count 0 len count held) (hlen : len < 2 ^ 64)
    (hcount : count ≤ 2 ^ 15) (hfit : ∀ x ∈ blocks, x.length < len)
    (hlast : ∀ x ∈ blocks.dropLast, x ≠ []) :
    Ends (Short blocks.length m) (Packed count held blocks) (write_http m blocks) := by
  unfold write_http
  cases blocks with
  | nil =>
      rw [if_pos rfl]
      exact ⟨rfl, rfl, ⟨[], rfl, rfl⟩, List.forall_mem_nil _, ⟨rfl, List.nodup_nil⟩, h.inOnePlace⟩
  | cons block blocks =>
      rw [if_neg (List.cons_ne_nil _ _)]
      have hblock := hfit block List.mem_cons_self
      have hrest : ∀ x ∈ blocks, x.length < len := fun x hx => hfit x (List.mem_cons_of_mem _ hx)
      unfold loop
      rw [bind_assoc]
      apply ((first_block_spec h hlen hblock).blame_mono fun e he => he.cons).bind
      rintro ⟨c, w⟩ ⟨hfilling, hbuffers, hsend, hflag, hfree, hqueue⟩
      dsimp only at hfilling hbuffers hsend hflag hfree hqueue ⊢
      by_cases hempty : block = []
      · -- the only block
        have hnil : blocks = [] := by
          cases blocks with
          | nil => rfl
          | cons y ys => exact absurd hempty (hlast block List.mem_cons_self)
        subst hempty hnil
        obtain ⟨manager, hback, hpacked⟩ := give_back_spec hfilling hcount hbuffers
        have hzero : c.filled = 0 := hfilling.filled
        rw [if_pos hzero, hback, ok_bind, ok_bind]
        dsimp only
        rw [hsend, hflag] at hpacked ⊢
        exact hpacked
      · have hne : [block].flatten ≠ [] := by
          rw [List.flatten_singleton]
          exact hempty
        have hspent : Spent 1 m w.manager := ⟨hfree.le, by rw [hqueue]; exact Nat.le_succ _⟩
        rw [if_neg (hfilling.filled_ne hne)]
        have hloop := loop_spec hlen (hfilling.hold (some c) true) rfl rfl hne hrest
        apply (hloop.blame_mono fun e he => he.mono hspent).bind
        rintro ⟨w₁, rest⟩ ⟨hr, hflag₁, hspent₁, b', group', hb', hfilling', hpack⟩
        dsimp only at hr hflag₁ hspent₁ hb' hfilling' hpack ⊢
        subst hr
        rw [hflag₁, hb']
        dsimp only
        -- the last buffer
        have hprepare : ∀ e, e = Abort.noUserData ∧ w₁.manager.user_data_queue.length = 0 →
            Short (block :: blocks).length m e := by
          rintro e ⟨he, hzero⟩
          refine .inr ⟨he, ?_⟩
          have hle := hspent₁.2
          rw [hqueue, hzero] at hle
          rw [List.length_cons]
          omega
        apply ((prepare_write_spec b'
          { w₁ with send_buffer := none, write_flag := true }).blame_mono hprepare).bind
        rintro w₂ ⟨hbuffers₂, -, htcp, htaken, hfreed⟩
        dsimp only at htcp htaken hfreed
        have hbuffers₂' : w₂.buffers = w₁.buffers ++ [b'] := hbuffers₂
        apply packed_of_pack (by omega) hlen _ _ _ (hfreed.trans hfilling'.freed) hempty hfit
        · rw [htcp, hbuffers₂', List.append_assoc, List.singleton_append]
          exact hfilling'.wf.perm List.perm_middle.symm
        · rw [hbuffers₂', List.map_append, List.map_singleton, hpack]
          have hnone : ({ w with send_buffer := some c, write_flag := true } : HttpWriter).buffers
              = [] := hbuffers
          rw [hnone]
          rfl
        · rw [htaken, hfilling'.taken, hbuffers₂', List.map_append]
          rfl

/-- **Output keeps the byte stream.** From any state of the pool, blocks that fit in a buffer, of
which only the last may be empty, are written as `Packed` says. Only a lack of buffers or of user
data ends the process, and one of each for every block is enough. -/
theorem stream_kept (kernel : BufferRings) (count len : ℕ) (hring : kernel.create count = .ok ())
    (hlen : len < 2 ^ 64) (s : Custody) (h : Custody.Reachable count len s)
    (user_data_queue : List ℕ) (blocks : List Bytes) (hfit : ∀ x ∈ blocks, x.length < len)
    (hlast : ∀ x ∈ blocks.dropLast, x ≠ []) :
    let m := { s.manager with user_data_queue := user_data_queue }
    (∀ r, write_http m blocks = .ok r → Packed count s.held blocks r)
      ∧ (∀ e, write_http m blocks = .error e → e = .noFreeBuffer ∨ e = .noUserData)
      ∧ (blocks.length ≤ m.tcp.free_queue.length → blocks.length ≤ user_data_queue.length →
        ∃ r, write_http m blocks = .ok r) := by
  intro m
  have hcount := Custody.count_le hring
  -- Both outcomes at once: a packed result, or a pool that ran out.
  have hspec : Ends (Short blocks.length m) (Packed count s.held blocks) (write_http m blocks) :=
    write_http_spec (h.wf hcount).tcp hlen hcount hfit hlast
  refine ⟨fun r hr => hspec.of_ok hr, ?_, ?_⟩
  · intro e he
    rcases hspec.of_error he with ⟨rfl, -⟩ | ⟨rfl, -⟩
    · exact .inl rfl
    · exact .inr rfl
  · intro hfree hqueue
    cases hwrite : write_http m blocks with
    | ok r => exact ⟨r, rfl⟩
    | error e =>
        rcases hspec.of_error hwrite with ⟨-, hlt⟩ | ⟨-, hlt⟩
        · exact absurd hlt (not_lt.mpr hfree)
        · exact absurd hlt (not_lt.mpr hqueue)

/-- Two blocks that do not fit in one buffer of three bytes. -/
theorem stream_kept_two :
    ∃ r, write_http (Custody.start 16 4).manager [[1, 2], [3, 4]] = .ok r
      ∧ Packed 16 [] [[1, 2], [3, 4]] r ∧ r.1.buffers.map PoolBuffer.content
        = [[1, 2], [3, 4]] := by
  have hwrite : ∃ r, write_http (Custody.start 16 4).manager [[1, 2], [3, 4]] = .ok r
      ∧ r.1.buffers.map PoolBuffer.content = [[1, 2], [3, 4]] := ⟨_, rfl, rfl⟩
  obtain ⟨r, hr, hcontents⟩ := hwrite
  have hkept := stream_kept Custody.anyRing 16 4 rfl (by norm_num) (Custody.start 16 4)
    .start (List.range 16)
    [[1, 2], [3, 4]] (by decide) (by decide)
  exact ⟨r, hr, hkept.1 r hr, hcontents⟩

end HttpWriter

end RlpSidecar
