/-
Pools of connections (`connection.cc`, `ConnectionPool`).

An iterator into the map of the connections stays where the last one was found. The scan goes from
there to the end of the map, and then once over all of it; a connection in front of the iterator is
looked at in the second part.

The connections come as a list in the order of the map, and the iterator as a position in it, which
is inside as long as the pool is not empty (`next_lt`). What a connection is does not matter here,
only whether it is available. The two results are that the scan returns a connection that is, and
that it throws only if none is, wherever the iterator stands.
-/
import RlpSidecar.Abort
import Mathlib.Data.List.Basic

set_option autoImplicit false

namespace RlpSidecar

/-- `ConnectionPool`: the descriptors of its connections, in the order of the map, and the position
of `next_conn`. Only in an empty pool is that the end. -/
structure ConnectionPool where
  fds : List ℤ
  next_conn : ℕ
  next_lt : fds ≠ [] → next_conn < fds.length

namespace ConnectionPool

/-- The loop of `get_any_connection`: the position of the connection it returns. `wrap` says that
it has been around the end once. -/
def scan (available : ℤ → Bool) (fds : List ℤ) (wrap : Bool) (next_conn : Fin fds.length) :
    Except Abort (Fin fds.length) :=
  if available (fds.get next_conn) then .ok next_conn
  else if hnext : next_conn.val + 1 < fds.length then
    scan available fds wrap ⟨next_conn.val + 1, hnext⟩
  else if wrap = true then .error .noConnection
  else scan available fds true ⟨0, Nat.zero_lt_of_lt next_conn.isLt⟩
termination_by (if wrap then 0 else 1, fds.length - next_conn.val)
decreasing_by
  · exact Prod.Lex.right _ (by omega)
  · rename_i hwrap
    rw [Bool.not_eq_true] at hwrap
    subst hwrap
    exact Prod.Lex.left _ _ Nat.zero_lt_one

/-- `get_any_connection`. An exception leaves the iterator at the end, but ends the process. -/
def get_any_connection (pool : ConnectionPool) (available : ℤ → Bool) :
    Except Abort (ℤ × ConnectionPool) :=
  if hne : pool.fds = [] then .error .noConnection
  else do
    let next ← scan available pool.fds false ⟨pool.next_conn, pool.next_lt hne⟩
    .ok (pool.fds.get next, { pool with next_conn := next.val, next_lt := fun _ => next.isLt })

variable {available : ℤ → Bool} {fds : List ℤ}

/-- What the scan returns is available, as it stops at nothing else. -/
theorem scan_available {wrap : Bool} {next i : Fin fds.length}
    (h : scan available fds wrap next = .ok i) :
    available (fds.get i) = true := by
  fun_induction scan available fds wrap next with
  | case1 wrap next hnext =>
      obtain rfl := Except.ok.inj h
      exact hnext
  | case2 wrap next hnext hlt ih => exact ih h
  | case3 next hnext hlt => cases h
  | case4 wrap next hnext hlt hwrap ih => exact ih h

/-- **The scan misses nothing**: where it throws, it has looked at every connection from its
position on, and at those before as well, if it started in the first part. -/
theorem scan_throws {wrap : Bool} {next : Fin fds.length} {e : Abort}
    (h : scan available fds wrap next = .error e) :
    e = .noConnection
      ∧ ∀ i : Fin fds.length, (wrap = false ∨ next.val ≤ i.val) →
        available (fds.get i) = false := by
  fun_induction scan available fds wrap next with
  | case1 wrap next hnext => cases h
  | case2 wrap next hnext hlt ih =>
      obtain ⟨he, hrest⟩ := ih h
      refine ⟨he, ?_⟩
      intro i hi
      by_cases hhere : i = next
      · rw [hhere]
        exact Bool.eq_false_iff.mpr hnext
      · apply hrest i
        refine hi.imp id ?_
        intro hle
        exact lt_of_le_of_ne hle fun heq => hhere (Fin.ext heq.symm)
  | case3 next hnext hlt =>
      -- the last connection of the second part
      obtain rfl := Except.error.inj h
      refine ⟨rfl, ?_⟩
      intro i hi
      have hle : next.val ≤ i.val := hi.resolve_left Bool.noConfusion
      have hlast : i = next := by
        apply Fin.ext
        omega
      rw [hlast]
      exact Bool.eq_false_iff.mpr hnext
  | case4 wrap next hnext hlt hwrap ih =>
      obtain ⟨he, hall⟩ := ih h
      exact ⟨he, fun i _ => hall i (.inr (Nat.zero_le _))⟩

/-- A connection that is returned is one of the pool and available; the pool keeps its
connections. -/
theorem get_any_connection_ok {pool pool' : ConnectionPool} {fd : ℤ}
    (h : pool.get_any_connection available = .ok (fd, pool')) :
    fd ∈ pool.fds ∧ available fd = true ∧ pool'.fds = pool.fds := by
  unfold get_any_connection at h
  split_ifs at h with hne
  obtain ⟨next, hscan, h⟩ := bind_eq_ok.mp h
  obtain ⟨rfl, rfl⟩ := Prod.mk.inj (Except.ok.inj h)
  exact ⟨List.get_mem _ _, scan_available hscan, rfl⟩

/-- An iterator on a connection that is available stays there, so the same connection is returned
again. -/
theorem get_any_connection_here {pool : ConnectionPool} {fd : ℤ}
    (hnext : pool.fds[pool.next_conn]? = some fd) (h : available fd = true) :
    pool.get_any_connection available = .ok (fd, pool) := by
  obtain ⟨hlt, rfl⟩ := List.getElem?_eq_some_iff.mp hnext
  have hne : pool.fds ≠ [] := List.ne_nil_of_length_pos (Nat.zero_lt_of_lt hlt)
  have hscan : scan available pool.fds false ⟨pool.next_conn, pool.next_lt hne⟩
      = .ok ⟨pool.next_conn, hlt⟩ := by
    rw [scan]
    exact if_pos h
  unfold get_any_connection
  rw [dif_neg hne]
  exact bind_eq_ok.mpr ⟨_, hscan, rfl⟩

/-- **Wherever the iterator stands**, the pool throws only if none of its connections is
available. -/
theorem get_any_connection_error {pool : ConnectionPool} {e : Abort}
    (h : pool.get_any_connection available = .error e) :
    e = .noConnection ∧ ∀ fd ∈ pool.fds, available fd = false := by
  unfold get_any_connection at h
  split_ifs at h with hne
  · obtain rfl := Except.error.inj h
    refine ⟨rfl, ?_⟩
    intro fd hfd
    rw [hne] at hfd
    cases hfd
  · cases hscan : scan available pool.fds false ⟨pool.next_conn, pool.next_lt hne⟩ with
    | ok next =>
        rw [hscan] at h
        cases h
    | error e' =>
        rw [hscan] at h
        obtain rfl := Except.error.inj h
        obtain ⟨he, hall⟩ := scan_throws hscan
        refine ⟨he, ?_⟩
        intro fd hfd
        obtain ⟨i, rfl⟩ := List.get_of_mem hfd
        exact hall i (.inl rfl)

end ConnectionPool

end RlpSidecar
