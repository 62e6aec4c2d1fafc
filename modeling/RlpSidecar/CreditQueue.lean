/-
`credit_queue.cc`: the queue of granted but not yet sent credits.

One `InnerCreditQueue` per priority holds a deque per endpoint and a circular
iterator over them. `CreditQueue` holds the three of them, a cursor with a budget of
rounds, and the counters and limits. Both scans are the source's `while (1)` loops,
with a fuel argument that is shown never to run out.

Buffers are moved, never inspected, so their type `β` is a parameter. Counters and limits
are `int32_t` in the source, whose overflow is undefined behaviour and would need 2³¹
units in flight; they are integers here. `size_t` values are naturals, and the decrements
wrap at zero as the source's do.
-/
import RlpSidecar.LocalMap

set_option autoImplicit false

namespace RlpSidecar

/-- `using Priority = int32_t`: the number that a Credit Request carries and that
`CreditQueue::push` takes as the index of a level, after a cast to `size_t`. -/
abbrev Priority := BitVec 32

/-- `PriorityCount`, the number of levels of a `CreditQueue`: priorities 0, 1 and 2 have one each,
and 3 is out of range for `std::array::at`. -/
abbrev PriorityCount : ℕ := 3

instance : NeZero PriorityCount := ⟨by decide⟩

/-- `n - 1` on a `size_t`, as `_size--` and `remaining_rounds--` compute it: it wraps at zero. That
the counters of the queue never get there is proved, not assumed here. -/
def decSize (n : ℕ) : ℕ := if n = 0 then 2 ^ 64 - 1 else n - 1

/-- `(size_t)priority`: the sign is extended, so a negative priority is a huge index. -/
def Priority.toSize (priority : Priority) : ℕ := (priority.signExtend 64).toNat

/-- `std::array::at` on one of the two arrays of `CreditQueue`, the levels and the weights. Past
the end it throws `std::out_of_range`, which nothing catches. -/
def levelAt {α : Type} (a : Fin PriorityCount → α) (i : ℕ) : Except Abort α :=
  if h : i < PriorityCount then .ok (a ⟨i, h⟩) else .error .outOfRange

/-- An assignment through the reference that `std::array::at` returns: the one level changes, and
the others stay as they are. -/
def setLevel {α : Type} (a : Fin PriorityCount → α) (i : ℕ) (v : α) : Fin PriorityCount → α :=
  fun j => if j.val = i then v else a j

/-! ## Counters -/

/-- The counters and the limits of `CreditQueue`, which `InnerCreditQueue::pop` takes by reference:
in total, and for each endpoint. They are a record of their own because the pop of a level reads
and changes them, and nothing else of the outer queue. -/
structure Counters where
  in_flight : ℤ
  global_limit : ℤ
  in_flight_per_endpoint : LocalMap ℤ
  per_endpoint_limit : LocalMap ℤ

namespace Counters

/-- `CreditQueue::increment_in_flight`, and the two increments in the loop of
`InnerCreditQueue::pop`: one more unit of the endpoint is in flight, here and in total. A service
without an entry ends the process. -/
def increment_in_flight (c : Counters) (api : Bytes) : Except Abort Counters := do
  let counts ← c.in_flight_per_endpoint.modify api (· + 1)
  .ok { c with in_flight_per_endpoint := counts, in_flight := c.in_flight + 1 }

/-- `CreditQueue::decrement_in_flight`. The counters are signed, and nothing in the source keeps
them above zero. -/
def decrement_in_flight (c : Counters) (api : Bytes) : Except Abort Counters := do
  let counts ← c.in_flight_per_endpoint.modify api (· - 1)
  .ok { c with in_flight_per_endpoint := counts, in_flight := c.in_flight - 1 }

/-- `CreditQueue::update_endpoint_limit`: the new limit replaces the old one, whatever is in flight
at that moment. Nothing is popped for a limit that grows. -/
def update_endpoint_limit (c : Counters) (limit : ℤ) (api : Bytes) : Except Abort Counters := do
  let limits ← c.per_endpoint_limit.set api limit
  .ok { c with per_endpoint_limit := limits }

/-- `CreditQueue::update_global_limit`. Like the limit of an endpoint it may fall below what is in
flight. -/
def update_global_limit (c : Counters) (limit : ℤ) : Counters := { c with global_limit := limit }

end Counters

/-! ## One priority level -/

/-- `InnerCreditQueue`, one level of the queue: a deque for each endpoint, the circular iterator
`it` (here its slot number) at which the next pop begins, and the number of all queued buffers. -/
structure InnerCreditQueue (β : Type) where
  queue : LocalMap (List β)
  it : ℕ
  _size : ℕ

namespace InnerCreditQueue

variable {β : Type}

/-- The constructor of `InnerCreditQueue`: an empty deque for each endpoint, and the iterator on
the first slot that holds a key. -/
def create (endpoints : List Bytes) : Except Abort (InnerCreditQueue β) := do
  let queue ← LocalMap.ofKeys endpoints []
  .ok { queue := queue, it := queue.begin_, _size := 0 }

/-- `InnerCreditQueue::push`: the buffer goes to the back of the deque of its endpoint. An endpoint
that the map does not have ends the process in `get`. -/
def push (q : InnerCreditQueue β) (buffer : β) (endpoint : Bytes) :
    Except Abort (InnerCreditQueue β) := do
  let queue ← q.queue.modify endpoint (· ++ [buffer])
  .ok { q with queue := queue, _size := q._size + 1 }

/-- The test in the loop of `pop`: the limits are read only when the deque is not empty. -/
def may_serve (slot : LocalSlot (List β)) (c : Counters) : Except Abort Bool :=
  if slot.value.length > 0 then do
    let active ← c.in_flight_per_endpoint.get slot.key
    let limit ← c.per_endpoint_limit.get slot.key
    .ok (decide (active < limit) && decide (c.in_flight < c.global_limit))
  else .ok false

/-- The branch of the loop that serves the endpoint under the iterator: it is counted as in flight,
its oldest buffer is taken, and the iterator moves on, so the next pop begins behind it. `front` of
an empty deque is undefined; the guard of the branch excludes it. -/
def serve (q : InnerCreditQueue β) (slot : LocalSlot (List β)) (c : Counters) :
    Except Abort (Option β × InnerCreditQueue β × Counters) := do
  let c ← c.increment_in_flight slot.key
  match slot.value with
  | [] => .error .undefined
  | buffer :: _ =>
    let queue := q.queue.update q.it List.tail
    .ok (some buffer, { queue := queue, it := queue.next q.it, _size := decSize q._size }, c)

/-- The loop of `InnerCreditQueue::pop`, from the slot under the iterator on. It ends with nothing
when the iterator is back at the key `init_endpoint`, at which it started. -/
def popLoop (init_endpoint : Bytes) (c : Counters) :
    ℕ → InnerCreditQueue β → Except Abort (Option β × InnerCreditQueue β × Counters)
  -- the loop of the source has no bound; no queue that is constructed gets here
  | 0, _ => .error .diverges
  | fuel + 1, q => do
    let slot ← q.queue.deref q.it
    if ← may_serve slot c then q.serve slot c
    else
      let q := { q with it := q.queue.next q.it }
      let slot ← q.queue.deref q.it
      -- one time around: no endpoint of this level can be served
      if slot.key = init_endpoint then .ok (none, q, c) else popLoop init_endpoint c fuel q

/-- `InnerCreditQueue::pop`. A turn visits each slot at most once, so the number of slots is enough
fuel; `popLoop_eq_cycleFind` shows that it never runs out. -/
def pop (q : InnerCreditQueue β) (c : Counters) :
    Except Abort (Option β × InnerCreditQueue β × Counters) :=
  if q._size = 0 then .ok (none, q, c)
  else do
    let init ← q.queue.deref q.it
    popLoop init.key c q.queue.slots_.length q

end InnerCreditQueue

/-! ## The queue -/

/-- `CreditQueue`: a level for each priority, the cursor `it` over them, the rounds that the level
under the cursor has left, the number of all queued buffers, and the counters. -/
structure CreditQueue (β : Type) where
  credit_queue : Fin PriorityCount → InnerCreditQueue β
  it : ℕ
  remaining_rounds : ℕ
  _size : ℕ
  counters : Counters

/-- What the constructor of `CreditQueue` reads of the configuration. The product with
`over_commitment`, a `float`, is a function, so that no rounding has to be modelled. -/
structure LimitConfig where
  cpu_count : ℤ
  extra_limit : ℤ
  /-- `config.routing.size() == 0`: a leaf. -/
  leaf : Bool
  /-- `(int32_t)((float)n * over_commitment)`. -/
  over_commit : ℤ → ℤ

namespace CreditQueue

variable {β : Type}

/-- `weights`, which the constructor fixes to 16, 4 and 1: so many buffers a level may give before
the cursor leaves it. -/
def weights : Fin PriorityCount → ℕ
  | 0 => 16
  | 1 => 4
  | 2 => 1

/-- The body of the loop in the constructor of `CreditQueue`: the endpoint starts with nothing in
flight and with `cpu_count * 2 + extra_limit` as its limit. -/
def initCounters (limit : ℤ) (c : Counters) (endpoint : Bytes) : Except Abort Counters := do
  let counts ← c.in_flight_per_endpoint.set endpoint 0
  let limits ← c.per_endpoint_limit.set endpoint limit
  .ok { c with in_flight_per_endpoint := counts, per_endpoint_limit := limits }

/-- The global limit that the constructor of `CreditQueue` sets. Only a leaf, a process without
routes of its own, starts with a bound; for an intermediate service it is `INT_MAX`. -/
def initialGlobalLimit (config : LimitConfig) (count : ℕ) : ℤ :=
  let max_limit := config.cpu_count * 2 + config.extra_limit
  let sum_limit := max_limit * count
  if config.leaf then max_limit + config.over_commit (sum_limit - max_limit) else 2 ^ 31 - 1

/-- The constructor of `CreditQueue`: three empty levels over the same endpoints, the cursor on
level 0 with its whole budget, and the initial limits. -/
def create (config : LimitConfig) (endpoints : List Bytes) : Except Abort (CreditQueue β) := do
  let level ← InnerCreditQueue.create endpoints
  let counts ← LocalMap.ofKeys endpoints 0
  let limits ← LocalMap.ofKeys endpoints 0
  -- each endpoint starts with the limit of the whole machine
  let c ← endpoints.foldlM (initCounters (config.cpu_count * 2 + config.extra_limit))
    { in_flight := 0, global_limit := 0, in_flight_per_endpoint := counts,
      per_endpoint_limit := limits }
  .ok
    { credit_queue := fun _ => level
      it := 0
      -- all levels begin as one empty level, and the cursor on the first
      remaining_rounds := weights 0
      _size := 0
      counters := c.update_global_limit (initialGlobalLimit config endpoints.length) }

/-- `CreditQueue::push`. The priority is the index of the level, without a check before `at`; the
buffer of a negative one would ask for a level near `2 ^ 64`. -/
def push (s : CreditQueue β) (buffer : β) (endpoint : Bytes) (priority : Priority) :
    Except Abort (CreditQueue β) := do
  let level ← levelAt s.credit_queue priority.toSize
  let level ← level.push buffer endpoint
  .ok { s with credit_queue := setLevel s.credit_queue priority.toSize level
               _size := s._size + 1 }

/-- The cursor moves to the next level, which gets its full budget. The source has these two
statements twice, after the last round of a level and after a level that gave nothing. -/
def advance (s : CreditQueue β) : Except Abort (CreditQueue β) := do
  let it := (s.it + 1) % PriorityCount
  let rounds ← levelAt weights it
  .ok { s with it := it, remaining_rounds := rounds }

/-- The bookkeeping of `CreditQueue::pop` after a level has given a buffer: one round less, and
with the last of them the cursor moves on. -/
def spendRound (s : CreditQueue β) : Except Abort (CreditQueue β) := do
  let s := { s with remaining_rounds := decSize s.remaining_rounds }
  let s ← if s.remaining_rounds = 0 then s.advance else .ok s
  .ok { s with _size := decSize s._size }

/-- The loop of `CreditQueue::pop`. A level that gives nothing loses the rest of its budget, and
the loop ends when the cursor is back at `init_index`. The level it started at then has its budget
again. -/
def popLoop (init_index : ℕ) : ℕ → CreditQueue β → Except Abort (Option β × CreditQueue β)
  | 0, _ => .error .diverges
  | fuel + 1, s => do
    let level ← levelAt s.credit_queue s.it
    let (buffer, level, c) ← level.pop s.counters
    let s := { s with credit_queue := setLevel s.credit_queue s.it level, counters := c }
    match buffer with
    -- a level that gives a buffer has used a round of its budget
    | some buffer => do
      let s ← s.spendRound
      .ok (some buffer, s)
    | none => do
      let s ← s.advance
      -- all levels have been asked
      if s.it = init_index then .ok (none, s) else popLoop init_index fuel s

/-- `CreditQueue::pop`: the two early exits, an empty queue and a global limit that is reached, and
then at most one turn over the levels. -/
def pop (s : CreditQueue β) : Except Abort (Option β × CreditQueue β) :=
  if s._size = 0 then .ok (none, s)
  else if s.counters.in_flight ≥ s.counters.global_limit then .ok (none, s)
  else popLoop s.it PriorityCount s

/-- `CreditQueue::increment_in_flight`, for an RPC whose credit was not popped here: `State` calls
it when the first response of a dynamic or parallel fan-out is back. -/
def increment_in_flight (s : CreditQueue β) (api : Bytes) : Except Abort (CreditQueue β) := do
  let c ← s.counters.increment_in_flight api
  .ok { s with counters := c }

/-- `CreditQueue::decrement_in_flight`, which `State` calls when a credit is used up or comes back
unused. -/
def decrement_in_flight (s : CreditQueue β) (api : Bytes) : Except Abort (CreditQueue β) := do
  let c ← s.counters.decrement_in_flight api
  .ok { s with counters := c }

/-- `CreditQueue::update_endpoint_limit`, called by `State::update_limits` with the limit it has
computed for a hosted service. -/
def update_endpoint_limit (s : CreditQueue β) (limit : ℤ) (api : Bytes) :
    Except Abort (CreditQueue β) := do
  let c ← s.counters.update_endpoint_limit limit api
  .ok { s with counters := c }

/-- `CreditQueue::update_global_limit`, called at the end of `State::update_limits` with the limit
that combines those of the endpoints. -/
def update_global_limit (s : CreditQueue β) (limit : ℤ) : CreditQueue β :=
  { s with counters := s.counters.update_global_limit limit }

/-- `CreditQueue::get_per_endpoint_limit`, which `State::update_limits` reads to combine the limits
of all endpoints. -/
def get_per_endpoint_limit (s : CreditQueue β) (service : Bytes) : Except Abort ℤ :=
  s.counters.per_endpoint_limit.get service

end CreditQueue

end RlpSidecar
