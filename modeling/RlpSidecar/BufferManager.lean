/-
The buffers of a worker (`buffer_manager.cc`, `buffer.cc`, and the buffer rings of
`ring_wrapper.cc`).

There is a pool for TCP and one for UDP. A buffer is in the vector of its pool unless it is handed
out. It is handed out by `get_buffer`, from a queue, or by the kernel, from a ring that the buffer
was put in; which of the two it goes back to is decided once, when it is made. The vector, the
flags of the buffer, the queue and the ring all say where it is, and agree. The indices of the UDP
pool are shifted by the number of buffers, and an index is cut to 16 bits in a ring.

Addresses and message headers in a buffer are left out. The kernel is a parameter: how many entries
a ring may have.

`UserData` objects only have their queue here, which is all that the output functions need of them;
where the objects are is the subject of the event loop. The functions have the names of the source,
those of the pool for UDP with `udp` in them.
-/
import RlpSidecar.LocalMap
import RlpSidecar.Wire
import Mathlib.Data.List.Perm.Basic
import Mathlib.Data.List.Range
import Mathlib.Data.List.Nodup

set_option autoImplicit false

namespace RlpSidecar

/-! ## Buffers -/

/-- `Buffer`, of either pool, with the fields that its custody depends on. That it is never filled
beyond its size is a field, since `set_filled` is the only way to fill it. -/
structure PoolBuffer where
  data : Bytes
  is_free : Bool
  is_provided : Bool
  enter_queue_ts : BitVec 64
  size : ℕ
  filled : ℕ
  index : ℕ
  filled_le : filled ≤ size
  deriving DecidableEq

namespace PoolBuffer

/-- The constructor. The size is one less than the length, as a `size_t`. -/
def create (length id : ℕ) : PoolBuffer :=
  { data := List.replicate length 0
    is_free := true
    is_provided := false
    enter_queue_ts := 0
    size := (length + (2 ^ 64 - 1)) % 2 ^ 64
    filled := 0
    index := id
    filled_le := Nat.zero_le _ }

/-- `Buffer::clear`: nothing is filled, the buffer is free, and its time stamp is gone. The data
and the index stay. -/
def clear (b : PoolBuffer) : PoolBuffer :=
  { b with
    filled := 0
    is_free := true
    enter_queue_ts := 0
    filled_le := Nat.zero_le _ }

/-- `Buffer::set_filled`, which ends the process for more than the size. -/
def set_filled (b : PoolBuffer) (f : ℕ) : Except Abort PoolBuffer :=
  if h : f ≤ b.size then .ok { b with filled := f, filled_le := h } else .error .bufferOverflow

/-- The content, the filled part of the data. -/
def content (b : PoolBuffer) : Bytes := b.data.take b.filled

/-- What the holder of a buffer cannot change: the memory, its size and index, and the flags. -/
def Used (b b' : PoolBuffer) : Prop :=
  b'.data.length = b.data.length ∧ b'.size = b.size ∧ b'.index = b.index ∧ b'.is_free = b.is_free
    ∧ b'.is_provided = b.is_provided

end PoolBuffer

/-! ## Pools -/

/-- One of the two pools: the vector of its buffers, null where the buffer is handed out, the queue
of free indices, and the ring of indices that the kernel may choose from. -/
structure BufferPool where
  buffer_vector : List (Option PoolBuffer)
  free_queue : List ℕ
  ring : List ℕ

namespace BufferPool

variable {offset index : ℕ} {p : BufferPool}

/-- `buffer_vector.at(index - offset)`. A difference below zero wraps around, and is out of
range. -/
def at_ (offset index : ℕ) (p : BufferPool) : Except Abort (Option PoolBuffer) :=
  if index < offset then .error .outOfRange
  else
    match p.buffer_vector[index - offset]? with
    | none => .error .outOfRange
    | some slot => .ok slot

/-- `buffer_vector.at(index - offset) = …`: the buffers of the UDP pool are numbered behind those
of the TCP pool. -/
def store (offset index : ℕ) (slot : Option PoolBuffer) (p : BufferPool) : BufferPool :=
  { p with buffer_vector := p.buffer_vector.set (index - offset) slot }

/-- A buffer that was moved out of the vector is marked as handed out, if it is free. -/
def hand_out (slot : Option PoolBuffer) : Except Abort PoolBuffer :=
  match slot with
  | none => .error .undefined
  | some buffer => if buffer.is_free then .ok { buffer with is_free := false }
    else .error .bufferNotFree

/-- `get_buffer` and `get_udp_buffer`: the buffer at the front of the queue is moved out of the
vector, and its slot is empty until it comes back. -/
def get (offset : ℕ) (p : BufferPool) : Except Abort (PoolBuffer × BufferPool) :=
  match p.free_queue with
  | [] => .error .noFreeBuffer
  | front :: rest => do
    let slot ← p.at_ offset front
    let buffer ← hand_out slot
    .ok (buffer, { p.store offset front none with free_queue := rest })

/-- `get_buffer_by_index` and `get_udp_buffer_by_index`. `limit` is the number of indices that are
in range. -/
def get_by_index (offset limit index : ℕ) (p : BufferPool) :
    Except Abort (PoolBuffer × BufferPool) :=
  if index < offset ∨ offset + limit ≤ index then .error .bufferIdOutOfRange
  else do
    -- the slot is empty while the buffer is with a holder
    let slot ← p.at_ offset index
    if slot = none then .error .bufferIsNull
    else
      let buffer ← hand_out slot
      .ok (buffer, p.store offset index none)

/-- `add_buffer_to_ring`: the kernel may fill the buffer from now on. The ring takes 16 bits of the
index. -/
def add_buffer_to_ring (buffer : PoolBuffer) (p : BufferPool) : BufferPool :=
  { p with ring := p.ring ++ [buffer.index % 2 ^ 16] }

/-- `free_buffer` and `free_udp_buffer`. A buffer that is in the vector already would be destroyed
by the assignment. -/
def free (offset : ℕ) (buffer : Option PoolBuffer) (p : BufferPool) : Except Abort BufferPool :=
  match buffer with
  | none => .error .bufferCannotBeNull
  | some buffer =>
    if buffer.is_free then .error .bufferAlreadyFree
    else do
      -- everything but the index and the pool's own flag is set back
      let buffer := buffer.clear
      let index := buffer.index
      let slot ← p.at_ offset index
      if slot ≠ none then .error .bufferDestroyed
      else
        let p := p.store offset index (some buffer)
        -- it goes back to where it came from, the ring of the kernel or the queue
        if buffer.is_provided then .ok (p.add_buffer_to_ring buffer)
        else .ok { p with free_queue := p.free_queue ++ [index] }

/-- What the constructor does for one buffer. Of five buffers the ring gets four. -/
def add (count offset length i : ℕ) (p : BufferPool) : BufferPool :=
  let buffer := PoolBuffer.create length (i + offset)
  -- the first four fifths are provided to the kernel, the rest waits in the queue
  if 5 * i < 4 * count then
    let p := p.add_buffer_to_ring buffer
    { p with buffer_vector := p.buffer_vector ++ [some { buffer with is_provided := true }] }
  else
    { p with
      buffer_vector := p.buffer_vector ++ [some buffer]
      free_queue := p.free_queue ++ [i + offset] }

/-- The kernel reports a buffer that it has chosen: it is no longer in the ring. -/
def report (index : ℕ) (p : BufferPool) : BufferPool := { p with ring := p.ring.erase index }

end BufferPool

/-! ## The manager -/

/-- `BufferManager`, with its two pools and the queue of free `UserData`. Objects of `UserData` are
numbers, since only their custody matters here. -/
structure BufferManager where
  count : ℕ
  size : ℕ
  tcp : BufferPool
  udp : BufferPool
  user_data_queue : List ℕ

namespace BufferManager

/-- The constructor of `BufferManager`: one loop fills both pools and the queue. -/
def create (count size : ℕ) : BufferManager :=
  (List.range count).foldl
    (fun m i =>
      { m with
        -- the indices of the datagram buffers go on where those of the others end
        tcp := m.tcp.add count 0 size i
        udp := m.udp.add count count 256 i
        user_data_queue := m.user_data_queue ++ [i] })
    { count := count, size := size, tcp := ⟨[], [], []⟩, udp := ⟨[], [], []⟩,
      user_data_queue := [] }

/-- `BufferManager::get_buffer`, for a send over TCP. -/
def get_buffer (m : BufferManager) : Except Abort (PoolBuffer × BufferManager) := do
  let (buffer, tcp) ← m.tcp.get 0
  .ok (buffer, { m with tcp := tcp })

/-- `BufferManager::get_udp_buffer`, for a datagram that is sent. -/
def get_udp_buffer (m : BufferManager) : Except Abort (PoolBuffer × BufferManager) := do
  let (buffer, udp) ← m.udp.get m.count
  .ok (buffer, { m with udp := udp })

/-- `BufferManager::get_buffer_by_index`, for the buffer that the kernel has filled; the index
comes from the flags of the completion. -/
def get_buffer_by_index (index : ℕ) (m : BufferManager) :
    Except Abort (PoolBuffer × BufferManager) := do
  let (buffer, tcp) ← m.tcp.get_by_index 0 m.count index
  .ok (buffer, { m with tcp := tcp })

/-- `BufferManager::get_udp_buffer_by_index`, for the buffer of a datagram that has come. -/
def get_udp_buffer_by_index (index : ℕ) (m : BufferManager) :
    Except Abort (PoolBuffer × BufferManager) := do
  let (buffer, udp) ← m.udp.get_by_index m.count m.udp.buffer_vector.length index
  .ok (buffer, { m with udp := udp })

/-- `BufferManager::free_buffer`, for either origin: a provided buffer goes back to the kernel, the
others to the queue. -/
def free_buffer (buffer : Option PoolBuffer) (m : BufferManager) : Except Abort BufferManager := do
  let tcp ← m.tcp.free 0 buffer
  .ok { m with tcp := tcp }

/-- `BufferManager::free_udp_buffer`, for either origin. -/
def free_udp_buffer (buffer : Option PoolBuffer) (m : BufferManager) :
    Except Abort BufferManager := do
  let udp ← m.udp.free m.count buffer
  .ok { m with udp := udp }

/-- `BufferManager::get_user_data`, which ends the process when all objects are under way. -/
def get_user_data (m : BufferManager) : Except Abort (ℕ × BufferManager) :=
  match m.user_data_queue with
  | [] => .error .noUserData
  | ud :: rest => .ok (ud, { m with user_data_queue := rest })

end BufferManager

/-- `io_uring_register_buf_ring`: the result for a number of entries and a group. A ring has at
most `2 ^ 15` entries. -/
structure BufferRings where
  register_buf_ring : ℕ → ℕ → ℤ
  entries_le : ∀ entries bgid, register_buf_ring entries bgid = 0 → entries ≤ 2 ^ 15

/-- `RingWrapper::RingWrapper`, as far as the buffers are concerned: the two checks of the count,
and the registration of the two rings. The kernel is a parameter. -/
def BufferRings.create (kernel : BufferRings) (buffer_count : ℕ) : Except Abort Unit :=
  if buffer_count &&& (buffer_count - 1) ≠ 0 then .error .ringSetup
  else if 32 * 1024 * 1024 < buffer_count then .error .ringSetup
  else if kernel.register_buf_ring buffer_count 0 ≠ 0 then .error .ringSetup
  else if kernel.register_buf_ring buffer_count 1 ≠ 0 then .error .ringSetup
  else .ok ()

end RlpSidecar
