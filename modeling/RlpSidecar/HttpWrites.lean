/-
Writing HTTP/2 data (`write_http` in `state.cc`, `http_write` in `connection.cc`).

The library yields what a session has to send in blocks. Blocks are collected in a buffer from the
pool until one does not fit: `http_write` then throws an exception that has the block, the buffer
is submitted, and the block goes into a fresh one. Written blocks are the groups of a greedy
packing.

The session is the list of the blocks that it will yield; it wants to write as long as there are
any.

What the function hands to the ring is a list of buffers, in the order in which they are submitted,
each with a `UserData` object; the indices of the buffers it has taken and of those it has given
back are kept for the account.
-/
import RlpSidecar.BufferCustody
import RlpSidecar.Packing

set_option autoImplicit false

namespace RlpSidecar

open BufferPool

/-- `copy_n` to the end of what is filled, and `set_filled`. Behind the memory the copy is
undefined. -/
def PoolBuffer.append (b : PoolBuffer) (block : Bytes) : Except Abort PoolBuffer :=
  if b.data.length < b.filled + block.length then .error .undefined
  else { b with data := Wire.overwrite b.data b.filled block }.set_filled (b.filled + block.length)

/-- How `http_write` ends: it has written, or throws `BufferFullException`, with the block. -/
inductive HttpWrite
  | written (buffer : PoolBuffer)
  | bufferFull (outbuf : Bytes)

/-- `HTTP2Connection::http_write`, where the session yields `block`: it is written whole, or handed
back with a `BufferFullException`. -/
def http_write (block : Bytes) (buffer : PoolBuffer) : Except Abort HttpWrite :=
  if buffer.size < buffer.filled + block.length then .ok (.bufferFull block)
  else do
    let buffer ← buffer.append block
    .ok (.written buffer)

/-- The variables of `write_http`, with what was submitted to the ring, each with its user data,
and the indices of the buffers that were taken from the pool and given back to it. -/
structure HttpWriter where
  manager : BufferManager
  send_buffer : Option PoolBuffer
  write_flag : Bool
  submitted : List (ℕ × PoolBuffer)
  taken : List ℕ
  freed : List ℕ

namespace HttpWriter

/-- Before the loop: no buffer is at hand, and nothing has been submitted. -/
def start (manager : BufferManager) : HttpWriter :=
  { manager := manager
    send_buffer := none
    write_flag := false
    submitted := []
    taken := []
    freed := [] }

/-- The buffers that were submitted, oldest first, without their records. -/
def buffers (w : HttpWriter) : List PoolBuffer := w.submitted.map Prod.snd

/-- `send_buffer = buffer_manager.get_buffer()`, and a note of which buffer it was. -/
def take (w : HttpWriter) : Except Abort (PoolBuffer × HttpWriter) := do
  let (buffer, manager) ← w.manager.get_buffer
  .ok (buffer, { w with manager := manager, taken := w.taken ++ [buffer.index] })

/-- `ring.prepare_write(conn, send_buffer, get_user_data())`: the buffer goes to the kernel with a
record of its own. -/
def prepare_write (buffer : PoolBuffer) (w : HttpWriter) : Except Abort HttpWriter := do
  let (ud, manager) ← w.manager.get_user_data
  .ok { w with manager := manager, submitted := w.submitted ++ [(ud, buffer)] }

/-- The buffer at hand, or a new one. It is returned, and is null in the record. -/
def at_hand (w : HttpWriter) : Except Abort (PoolBuffer × HttpWriter) :=
  match w.send_buffer with
  | none => w.take
  | some send_buffer => .ok (send_buffer, { w with send_buffer := none })

/-- The `try` block and its handler. A full buffer is submitted, and the block goes into the next
one. -/
def write_block (block : Bytes) (send_buffer : PoolBuffer) (w : HttpWriter) :
    Except Abort (PoolBuffer × HttpWriter) := do
  match ← http_write block send_buffer with
  | .written send_buffer => .ok (send_buffer, w)
  | .bufferFull outbuf => do
    -- the handler of the exception: the full buffer goes out, and a fresh one is taken
    let w ← w.prepare_write send_buffer
    let (send_buffer, w) ← w.take
    -- a block that does not fit into an empty buffer cannot be written at all
    if send_buffer.size - send_buffer.filled < outbuf.length then .error .singleWriteTooLarge
    else
      let send_buffer ← send_buffer.append outbuf
      .ok (send_buffer, w)

/-- The body of the loop, up to the check that the buffer is not empty. -/
def put_block (block : Bytes) (w : HttpWriter) : Except Abort (PoolBuffer × HttpWriter) := do
  let (send_buffer, w) ← w.at_hand
  w.write_block block send_buffer

/-- The loop, over the blocks that the session still has. What it returns of the session is not
written. -/
def loop : List Bytes → HttpWriter → Except Abort (HttpWriter × List Bytes)
  | [], w => .ok (w, [])
  | block :: session, w => do
    let (send_buffer, w) ← w.put_block block
    if send_buffer.filled = 0 then
      let manager ← w.manager.free_buffer (some send_buffer)
      .ok ({ w with manager := manager, freed := w.freed ++ [send_buffer.index] }, session)
    else loop session { w with send_buffer := some send_buffer, write_flag := true }

/-- `write_http`, for an HTTP/2 connection. A buffer that is still there at the end would be
destroyed. -/
def write_http (manager : BufferManager) (session : List Bytes) :
    Except Abort (HttpWriter × List Bytes) :=
  if session = [] then .ok (start manager, [])
  else do
    let (w, session) ← loop session (start manager)
    match w.write_flag, w.send_buffer with
    | true, some send_buffer => do
      -- what the last buffer holds is submitted too
      let w ← { w with send_buffer := none }.prepare_write send_buffer
      .ok (w, session)
    | true, none => .error .undefined
    -- nothing was written, but a buffer is held: its destructor ends the process
    | false, some _ => .error .bufferDestroyed
    | false, none => .ok (w, session)

end HttpWriter

end RlpSidecar
