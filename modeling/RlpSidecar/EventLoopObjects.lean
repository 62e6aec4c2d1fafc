/-
Where the `UserData` objects of a worker are, and how many are left for the connections to come.

An object is free, or attached to one operation, or it is lost: it is taken out of the queue with a
submission and goes back when the completion has been handled. Handlers either free the object they
were called with or leave it to a multishot operation that goes on. The handler of `READ` does the
latter on every path, and on two of them it closes the connection.

At the end of a stream the multishot receive posts nothing more, and its object is gone for good.
When `http_read` refuses the bytes the receive goes on, so that its object still has a place, but
the connection it reads from is closed. Either way a connection that is closed does not give back
what opening it has taken, and the pool holds only so many of them.
-/
import RlpSidecar.EventLoop

set_option autoImplicit false

open Runs

namespace RlpSidecar

namespace EventLoop

variable {count : ℕ} {config : Config}

/-- Every object is free, attached to a submitted operation, or in the list `lost`. -/
def Places (lost : List (Fin count)) (s : EventLoop count) : Prop :=
  (s.user_data_queue ++ s.ring ++ lost).Perm (List.finRange count)

/-! ## The operations -/

section Operations

variable {s s' : EventLoop count} {lost : List (Fin count)}

/-- No object is in two places, whatever has been lost. -/
theorem Places.nodup (h : Places lost s) : (s.user_data_queue ++ s.ring).Nodup := by
  have hall : (s.user_data_queue ++ s.ring ++ lost).Nodup :=
    (List.Perm.nodup_iff h).mpr (List.nodup_finRange count)
  exact (List.nodup_append.mp hall).1

theorem Places.ring_nodup (h : Places lost s) : s.ring.Nodup := (List.nodup_append.mp h.nodup).2.1

theorem Places.queue_disjoint (h : Places lost s) {ud : Fin count}
    (hqueue : ud ∈ s.user_data_queue) :
    ud ∉ s.ring :=
  fun hring => (List.nodup_append.mp h.nodup).2.2 ud hqueue ud hring rfl

/-- The object in hand is neither free nor submitted, so a handler cannot meet it elsewhere. -/
theorem Places.hand_alone {ud : Fin count} (h : Places (ud :: lost) s) :
    ud ∉ s.user_data_queue ++ s.ring := by
  have hall : (s.user_data_queue ++ s.ring ++ ud :: lost).Nodup :=
    (List.Perm.nodup_iff h).mpr (List.nodup_finRange count)
  exact fun hin => (List.nodup_append.mp hall).2.2 ud hin ud List.mem_cons_self rfl

theorem Places.hand {ud : Fin count} (h : Places (ud :: lost) s) : ud ∉ s.ring :=
  fun hring => h.hand_alone (List.mem_append_right _ hring)

theorem Places.hand_not_free {ud : Fin count} (h : Places (ud :: lost) s) :
    ud ∉ s.user_data_queue :=
  fun hqueue => h.hand_alone (List.mem_append_left _ hqueue)

theorem Places.of_eq (h : Places lost s) (hqueue : s'.user_data_queue = s.user_data_queue)
    (hring : s'.ring = s.ring) : Places lost s' := by
  unfold Places
  rw [hqueue, hring]
  exact h

theorem prepare_places {data : UserData} (h : Places lost s) (hs : s.prepare data = .ok s') :
    Places lost s' := by
  obtain ⟨ud, rest, hqueue, rfl⟩ := prepare_eq_ok hs
  unfold Places at h ⊢
  rw [hqueue] at h
  refine List.Perm.trans (List.Perm.append_right lost ?_) h
  rw [← List.append_assoc, List.cons_append]
  exact List.perm_append_singleton ud (rest ++ s.ring)

theorem release_queue (s : EventLoop count) (o : Option ℕ) :
    (s.release o).user_data_queue = s.user_data_queue ∧ (s.release o).ring = s.ring := by
  unfold release
  cases o with
  | none => exact ⟨rfl, rfl⟩
  | some o =>
      dsimp only
      split_ifs
      · exact ⟨rfl, rfl⟩
      · exact ⟨rfl, rfl⟩

/-- The object in hand goes back, to the end of the queue. -/
theorem free_places {ud : Fin count} (h : Places (ud :: lost) s)
    (hs : s.free_user_data ud = .ok s') : Places lost s' := by
  obtain rfl := free_eq_ok hs
  obtain ⟨hqueue, hring⟩ := release_queue
    { s with
      user_data := Function.update s.user_data ud ⟨.CLEAR, none, none, none⟩
      user_data_queue := s.user_data_queue ++ [ud] } (s.user_data ud).conn
  unfold Places at h ⊢
  rw [hqueue, hring]
  refine List.Perm.trans ?_ h
  rw [List.append_assoc, List.append_assoc, List.append_assoc, List.singleton_append]
  exact List.Perm.append_left _ List.perm_middle.symm

theorem write_places {conn : ℕ} {buffer : Bytes} (h : Places lost s)
    (hs : s.prepare_write conn buffer = .ok s') : Places lost s' := by
  obtain ⟨t, ht, hs⟩ := bind_eq_ok.mp hs
  obtain rfl := Except.ok.inj hs
  exact (prepare_places h ht).of_eq rfl rfl

theorem requests_places {rs : List Request} (h : Places lost s) (hs : s.requests rs = .ok s') :
    Places lost s' := by
  induction rs generalizing s with
  | nil =>
      obtain rfl := Except.ok.inj hs
      exact h
  | cons r rs ih =>
      obtain ⟨t, ht, hs⟩ := bind_eq_ok.mp hs
      refine ih ?_ hs
      cases r with
      | write conn buffer => exact write_places h ht
      | sendmsg buffer => exact prepare_places h ht

theorem add_connection_queue (s : EventLoop count) (type : ConnectionType) (fd : ℤ) (http : HTTP) :
    (s.add_connection type fd http).2.user_data_queue = s.user_data_queue
      ∧ (s.add_connection type fd http).2.ring = s.ring := by
  unfold add_connection
  split
  · exact ⟨rfl, rfl⟩
  · exact ⟨rfl, rfl⟩

end Operations

/-! ## The handlers -/

section Handlers

variable {s s' : EventLoop count} {lost : List (Fin count)} {ud : Fin count} {res : ℤ} {env : Env}

theorem handle_accept_places (h : Places (ud :: lost) s)
    (hs : s.handle_accept config ud res = .ok s') : Places lost s' := by
  obtain ⟨listener, t, u, _, _, ht, hu, hs⟩ := handle_accept_eq_ok hs
  obtain ⟨hqueue, hring⟩ := add_connection_queue s listener res (config.http_type listener)
  exact free_places (prepare_places (prepare_places (h.of_eq hqueue hring) ht) hu) hs

theorem handle_read_places (h : Places lost s) (hs : s.handle_read ud res env = .ok s') :
    Places lost s' := by
  obtain ⟨conn, _, _, ⟨_, hs⟩ | ⟨_, _, hs⟩⟩ := handle_read_eq_ok hs
  · have hstatus : Places lost (s.set_status conn .TEARDOWN) := h.of_eq rfl rfl
    exact prepare_places hstatus hs
  · refine requests_places ?_ hs
    unfold bring_up
    split_ifs
    · exact h.of_eq rfl rfl
    · exact h

theorem handle_connect_places (h : Places (ud :: lost) s)
    (hs : s.handle_connect ud res env = .ok s') : Places lost s' := by
  obtain ⟨conn, t, u, _, ht, hu, hs⟩ := handle_connect_eq_ok hs
  have hplaces : Places (ud :: lost) t := by
    rcases ht with rfl | ht
    · exact h.of_eq rfl rfl
    · have htaken : Places (ud :: lost) (s.take_conn ud) := h.of_eq rfl rfl
      exact requests_places htaken ht
  exact free_places (prepare_places hplaces hu) hs

theorem handle_cancel_places (h : Places (ud :: lost) s) (hs : s.handle_cancel ud env = .ok s') :
    Places lost s' := by
  obtain ⟨conn, _, _, hs⟩ := handle_cancel_eq_ok hs
  obtain ⟨hqueue, hring⟩ := release_queue
    ((s.take_conn ud).remove_connection (s.heap conn).type (s.heap conn).fd) (some conn)
  exact free_places (Places.of_eq h hqueue hring) hs

theorem free_buffer_places (h : Places (ud :: lost) s)
    (hs : (s.take_buffer ud).free_user_data ud = .ok s') : Places lost s' := by
  have htaken : Places (ud :: lost) (s.take_buffer ud) := h.of_eq rfl rfl
  exact free_places htaken hs

end Handlers

/-! ## Steps -/

/-- The end of a stream is handled: a `READ` with nothing read. -/
def EndOfStream (s : EventLoop count) (ev : Event count) : Prop :=
  ∃ ud env, ev = .cqe ud 0 env ∧ (s.user_data ud).op = .READ

/-- The object that a step loses: the one of a receive that has come to its end, which the handler
does not free. -/
def lost? (s : EventLoop count) : Event count → Option (Fin count)
  | .cqe ud res _ => if res = 0 ∧ (s.user_data ud).op = .READ then some ud else none
  | _ => none

theorem lost?_eq_none {s : EventLoop count} {ev : Event count} :
    s.lost? ev = none ↔ ¬ EndOfStream s ev := by
  unfold lost? EndOfStream
  cases ev with
  | cqe ud res env =>
      dsimp only
      split_ifs with h
      · obtain ⟨rfl, hop⟩ := h
        exact iff_of_false nofun fun hno => hno ⟨ud, env, rfl, hop⟩
      · refine iff_of_true rfl ?_
        rintro ⟨ud', env', heq, hop⟩
        obtain ⟨rfl, rfl, rfl⟩ := Event.cqe.inj heq
        exact h ⟨rfl, hop⟩
  | _ => exact iff_of_true rfl fun ⟨_, _, heq, _⟩ => nomatch heq

section Completion

variable {s s' : EventLoop count} {ud : Fin count} {res : ℤ} {env : Env} {lost : List (Fin count)}

/-- An operation that does not go on puts its object in the hand of the handler. -/
theorem take_places (h : Places lost s) (hring : ud ∈ s.ring) : Places (ud :: lost)
    (s.take ud) := by
  unfold Places take at *
  refine List.Perm.trans ?_ h
  rw [List.append_assoc, List.append_assoc]
  refine List.Perm.append_left _ (List.perm_middle.trans ?_)
  exact List.Perm.append_right lost (List.perm_cons_erase hring).symm

theorem lost?_of_ne_read (hop : (s.user_data ud).op ≠ .READ) : s.lost? (.cqe ud res env) = none :=
  if_neg fun hno => hop hno.2

/-- A completion is handled, and every object has a place afterwards, or is the one that was
lost. -/
theorem cqe_places (h : Places lost s) (hring : ud ∈ s.ring) (hs : Handled config s ud res env s') :
    Places ((s.lost? (.cqe ud res env)).toList ++ lost) s' := by
  have hhand := take_places h hring
  -- the object of the completion is given back on every path but those of `READ`
  cases hs with
  | accept hop hs =>
      rw [lost?_of_ne_read (by rw [hop]; nofun)]
      exact handle_accept_places hhand hs
  | end_of_stream hop hres hs =>
      have hlost : s.lost? (.cqe ud res env) = some ud := if_pos ⟨hres, hop⟩
      rw [hlost]
      exact handle_read_places hhand hs
  | read hop hres hs =>
      have hlost : s.lost? (.cqe ud res env) = none := if_neg fun hno => by omega
      rw [hlost]
      exact handle_read_places h hs
  | connect hop hs =>
      rw [lost?_of_ne_read (by rw [hop]; nofun)]
      exact handle_connect_places hhand hs
  | write hop _ hs =>
      rw [lost?_of_ne_read (by rw [hop]; nofun)]
      exact free_buffer_places hhand hs
  | cancel hop hs =>
      rw [lost?_of_ne_read (by rw [hop]; nofun)]
      exact handle_cancel_places hhand hs
  | rcvmsg hop hs =>
      rw [lost?_of_ne_read (by rw [hop]; nofun)]
      exact requests_places h hs
  | sendmsg hop hs =>
      rw [lost?_of_ne_read (by rw [hop]; nofun)]
      exact free_buffer_places hhand hs

end Completion

/-- **A step** keeps every object in its place, but for the one of a stream that has ended. -/
theorem step_places {s s' : EventLoop count} {ev : Event count} {lost : List (Fin count)}
    (h : Places lost s) (hs : Step config s ev s') : Places ((s.lost? ev).toList ++ lost) s' := by
  cases hs with
  | accepts => exact h.of_eq rfl rfl
  | starts => exact h.of_eq rfl rfl
  | sends => exact h.of_eq rfl rfl
  | closes => exact h.of_eq rfl rfl
  | fails => exact h.of_eq rfl rfl
  | @cqe _ ud res env hring hres hs => exact cqe_places h hring (handled hs)

/-! ## Runs -/

theorem create_places {pools : List (ℤ × ConnectionType × HTTP)} {is_open : ℤ → Bool} :
    Places [] (create count pools is_open) := by
  unfold Places create
  simp

/-- What the constructor and `run` submit at the start comes out of the queue, and nothing is
lost. -/
theorem start_places {pools : List (ℤ × ConnectionType × HTTP)} {is_open : ℤ → Bool}
    {s : EventLoop count} (h : start count pools is_open = .ok s) : Places [] s := by
  have hconnects : ∀ (os : List ℕ) {a b : EventLoop count}, Places [] a →
      os.foldlM prepare_connect a = .ok b → Places [] b := by
    intro os
    induction os with
    | nil =>
        intro a b ha hb
        obtain rfl := Except.ok.inj hb
        exact ha
    | cons o os ih =>
        intro a b ha hb
        obtain ⟨t, ht, hb⟩ := bind_eq_ok.mp hb
        exact ih (prepare_places ha ht) hb
  obtain ⟨t, ht, h⟩ := bind_eq_ok.mp h
  obtain ⟨u, hu, h⟩ := bind_eq_ok.mp h
  obtain ⟨v, hv, h⟩ := bind_eq_ok.mp h
  exact prepare_places (prepare_places (prepare_places (hconnects _ create_places ht) hu) hv) h

/-- The objects lost in a run, the last one first, which the program does not know of. -/
def lostIn (ts : List (Transition (EventLoop count) (Event count))) : List (Fin count) :=
  ts.foldl (fun lost x => (x.pre.lost? x.label).toList ++ lost) []

/-- **Every object has its place** all along a run, if those that were lost are counted as a
place. -/
theorem run_places {s t : EventLoop count} {ts : List (Transition (EventLoop count) (Event count))}
    (hstart : Places [] s) (h : Exec (Step config) s ts t) : Places (lostIn ts) t :=
  h.ghost (fun s lost => Places lost s) (fun lost x => (x.pre.lost? x.label).toList ++ lost)
    (fun _ _ _ hplaces hstep => step_places hplaces hstep) hstart

theorem lostIn_eq_nil {ts : List (Transition (EventLoop count) (Event count))} :
    lostIn ts = [] ↔ ∀ x ∈ ts, ¬ EndOfStream x.pre x.label := by
  have hfold : ∀ lost : List (Fin count),
      ts.foldl (fun lost x => (x.pre.lost? x.label).toList ++ lost) lost = []
        ↔ lost = [] ∧ ∀ x ∈ ts, ¬ EndOfStream x.pre x.label := by
    induction ts with
    | nil => simp
    | cons x ts ih =>
        intro lost
        rw [List.foldl_cons, ih, List.append_eq_nil_iff, Option.toList_eq_nil_iff, lost?_eq_none,
          List.forall_mem_cons]
        tauto
  exact (hfold []).trans (and_iff_right rfl)

/-- **The objects are conserved**: each is either free or attached to one submitted operation that
can still complete, and there are as many of the two together as there are objects. -/
structure Conserved (s : EventLoop count) : Prop where
  place : ∀ ud, (ud ∈ s.user_data_queue ∧ ud ∉ s.ring) ∨ (ud ∉ s.user_data_queue ∧ ud ∈ s.ring)
  queue_nodup : s.user_data_queue.Nodup
  ring_nodup : s.ring.Nodup
  number : s.user_data_queue.length + s.ring.length = count

theorem Places.conserved {s : EventLoop count} (h : Places [] s) : Conserved s := by
  obtain ⟨hqueue, hring, hdisjoint⟩ := List.nodup_append.mp h.nodup
  have hmem : ∀ ud, ud ∈ s.user_data_queue ∨ ud ∈ s.ring := by
    intro ud
    have hin := (List.Perm.mem_iff h).mpr (List.mem_finRange ud)
    rw [List.append_nil] at hin
    exact List.mem_append.mp hin
  refine ⟨fun ud => ?_, hqueue, hring, ?_⟩
  · rcases hmem ud with hfree | hused
    · exact .inl ⟨hfree, fun hused => hdisjoint ud hfree ud hused rfl⟩
    · exact .inr ⟨fun hfree => hdisjoint ud hfree ud hused rfl, hused⟩
  · have hlength := List.Perm.length_eq h
    rw [List.append_nil, List.length_append, List.length_finRange] at hlength
    exact hlength

/-! ## What opening and closing uses

An accept, the reads of a connection and the receiving of datagrams hold their objects for as long
as the listener, the connection or the socket is there. Every other operation completes once, and
its object is free again. The constructor and `run` leave three operations of the first kind, and
opening a connection adds one, its `READ`; whether closing a connection takes that one away again
is what the number of free objects depends on in the long run. -/

/-- The operations that last: multishot ones, and the accept, which its handler submits again. -/
def Operation.lasting : Operation → Bool
  | .ACCEPT | .READ | .RCVMSG => true
  | _ => false

/-- The number of operations that last: accepts and receives, one for each listener and each
connection. -/
def armed (s : EventLoop count) : ℕ :=
  s.ring.countP fun ud => Operation.lasting (s.user_data ud).op

/-- The number of operations that complete once, and give their object back then. -/
def in_flight (s : EventLoop count) : ℕ :=
  s.ring.countP fun ud => !Operation.lasting (s.user_data ud).op

/-- A connection is opened: an accept or a connect has completed, and its receive is submitted. -/
def opens (s : EventLoop count) : Event count → Bool
  | .cqe ud _ _ => decide ((s.user_data ud).op = .ACCEPT ∨ (s.user_data ud).op = .CONNECT)
  | _ => false

/-- The connection whose close a step submits. The handler of `READ` does this at the end of the
stream and when `http_read` refuses the bytes. -/
def closes? (s : EventLoop count) : Event count → Option ℕ
  | .cqe ud res env =>
    if (s.user_data ud).op = .READ ∧ (res = 0 ∨ env.parse_fails = true) then (s.user_data ud).conn
    else none
  | _ => none

/-- The connections opened in a run, from either side. -/
def opened (ts : List (Transition (EventLoop count) (Event count))) : ℕ :=
  ts.countP fun x => x.pre.opens x.label

/-- The connections closed in a run, each counted once, whatever it was closed for. -/
def closings (ts : List (Transition (EventLoop count) (Event count))) : ℕ :=
  (ts.filterMap fun x => x.pre.closes? x.label).toFinset.card

/-- **Opening and closing leaves the pool as it was**: all objects are free or with an operation
that completes once, but for three and one for each connection that has been opened and not
closed. So it is the connections open at a time that have to fit in the pool, not those of the
whole run. -/
def Sustained (ts : List (Transition (EventLoop count) (Event count)))
    (t : EventLoop count) : Prop :=
  t.user_data_queue.length + t.in_flight + 3 + opened ts = count + closings ts

section Armed

variable {s s' : EventLoop count} {lost : List (Fin count)} {ud : Fin count} {res : ℤ} {env : Env}

theorem armed_add_in_flight (s : EventLoop count) : s.armed + s.in_flight = s.ring.length := by
  rw [List.length_eq_countP_add_countP fun ud => Operation.lasting (s.user_data ud).op]
  refine congrArg (s.armed + ·) (List.countP_congr fun ud _ => ?_)
  simp

theorem armed_congr (hring : s'.ring = s.ring)
    (hop : ∀ ud ∈ s.ring, (s'.user_data ud).op = (s.user_data ud).op) : s'.armed = s.armed := by
  unfold armed
  rw [hring]
  exact List.countP_congr fun ud hmem => by rw [hop ud hmem]

/-- An object that is not submitted may change in any way, and the kinds of the submitted ones
stay. -/
theorem op_update (data : UserData) (hring : ud ∉ s.ring) :
    ∀ v ∈ s.ring, (Function.update s.user_data ud data v).op = (s.user_data v).op := by
  intro v hv
  have hne : v ≠ ud := fun heq => hring (heq ▸ hv)
  rw [Function.update_of_ne hne]

theorem prepare_armed {data : UserData} (h : Places lost s) (hs : s.prepare data = .ok s') :
    s'.armed = s.armed + if Operation.lasting data.op = true then 1 else 0 := by
  obtain ⟨new, rest, hqueue, rfl⟩ := prepare_eq_ok hs
  have hnew : new ∉ s.ring := h.queue_disjoint (by rw [hqueue]; exact List.mem_cons_self)
  have hold := op_update data hnew
  unfold armed
  dsimp only
  rw [List.countP_append, List.countP_singleton, Function.update_self]
  refine congrArg (· + _) (List.countP_congr fun v hv => ?_)
  rw [hold v hv]

theorem write_armed {conn : ℕ} {buffer : Bytes} (h : Places lost s)
    (hs : s.prepare_write conn buffer = .ok s') : s'.armed = s.armed := by
  obtain ⟨t, ht, hs⟩ := bind_eq_ok.mp hs
  obtain rfl := Except.ok.inj hs
  exact prepare_armed h ht

theorem requests_armed {rs : List Request} (h : Places lost s) (hs : s.requests rs = .ok s') :
    s'.armed = s.armed := by
  induction rs generalizing s with
  | nil =>
      obtain rfl := Except.ok.inj hs
      rfl
  | cons r rs ih =>
      obtain ⟨t, ht, hrest⟩ := bind_eq_ok.mp hs
      cases r with
      | write conn buffer => exact (ih (write_places h ht) hrest).trans (write_armed h ht)
      | sendmsg buffer => exact (ih (prepare_places h ht) hrest).trans (prepare_armed h ht)

theorem release_user_data (s : EventLoop count) (o : Option ℕ) :
    (s.release o).user_data = s.user_data := by
  unfold release
  cases o with
  | none => rfl
  | some o =>
      dsimp only
      split_ifs <;> rfl

theorem free_armed (h : Places (ud :: lost) s) (hs : s.free_user_data ud = .ok s') :
    s'.armed = s.armed := by
  obtain rfl := free_eq_ok hs
  refine armed_congr (release_queue _ _).2 ?_
  rw [release_user_data]
  exact op_update _ h.hand

/-- An operation that ends is no longer one of those that last. -/
theorem take_lasting (hring : ud ∈ s.ring)
    (hlasting : Operation.lasting (s.user_data ud).op = true) :
    s.armed = (s.take ud).armed + 1 := by
  have hcount := List.countP_erase (fun v => Operation.lasting (s.user_data v).op) s.ring ud
  have hpos : 0 < s.ring.countP fun v => Operation.lasting (s.user_data v).op :=
    List.countP_pos_iff.mpr ⟨ud, hring, hlasting⟩
  rw [if_pos ⟨hring, hlasting⟩] at hcount
  unfold armed take
  dsimp only
  omega

theorem take_once (hlasting : Operation.lasting (s.user_data ud).op = false) :
    (s.take ud).armed = s.armed := by
  have hcount := List.countP_erase (fun v => Operation.lasting (s.user_data v).op) s.ring ud
  rw [if_neg fun hno => by simp [hlasting] at hno] at hcount
  exact hcount

/-! ### One lemma per handler -/

theorem handle_accept_armed (h : Places (ud :: lost) s)
    (hs : s.handle_accept config ud res = .ok s') : s'.armed = s.armed + 2 := by
  obtain ⟨listener, t, u, _, _, ht, hu, hs⟩ := handle_accept_eq_ok hs
  obtain ⟨hqueue, hring⟩ := add_connection_queue s listener res (config.http_type listener)
  have hadded := h.of_eq hqueue hring
  have hsame : (s.add_connection listener res (config.http_type listener)).2.armed = s.armed := by
    refine armed_congr hring fun v _ => ?_
    unfold add_connection
    split <;> rfl
  calc s'.armed = u.armed := free_armed (prepare_places (prepare_places hadded ht) hu) hs
    _ = t.armed + 1 := prepare_armed (prepare_places hadded ht) hu
    _ = (s.add_connection listener res (config.http_type listener)).2.armed + 1 + 1 :=
      congrArg (· + 1) (prepare_armed hadded ht)
    _ = s.armed + 2 := by rw [hsame]

theorem handle_read_armed (h : Places lost s) (hs : s.handle_read ud res env = .ok s') :
    s'.armed = s.armed := by
  obtain ⟨conn, _, _, ⟨_, hs⟩ | ⟨_, _, hs⟩⟩ := handle_read_eq_ok hs
  · have hstatus : Places lost (s.set_status conn .TEARDOWN) := h.of_eq rfl rfl
    exact prepare_armed hstatus hs
  · have hup : Places lost (s.bring_up conn env) ∧ (s.bring_up conn env).armed = s.armed := by
      unfold bring_up
      split_ifs
      · exact ⟨h.of_eq rfl rfl, rfl⟩
      · exact ⟨h, rfl⟩
    exact (requests_armed hup.1 hs).trans hup.2

theorem take_conn_armed (hring : ud ∉ s.ring) : (s.take_conn ud).armed = s.armed :=
  armed_congr rfl (op_update _ hring)

theorem handle_connect_armed (h : Places (ud :: lost) s)
    (hs : s.handle_connect ud res env = .ok s') : s'.armed = s.armed + 1 := by
  obtain ⟨conn, t, u, _, ht, hu, hs⟩ := handle_connect_eq_ok hs
  have htaken : Places (ud :: lost) (s.take_conn ud) := h.of_eq rfl rfl
  have hconnected : Places (ud :: lost) t ∧ t.armed = (s.take_conn ud).armed := by
    rcases ht with rfl | ht
    · exact ⟨h.of_eq rfl rfl, rfl⟩
    · exact ⟨requests_places htaken ht, requests_armed htaken ht⟩
  calc s'.armed = u.armed := free_armed (prepare_places hconnected.1 hu) hs
    _ = t.armed + 1 := prepare_armed hconnected.1 hu
    _ = s.armed + 1 := by rw [hconnected.2, take_conn_armed h.hand]

theorem handle_cancel_armed (h : Places (ud :: lost) s) (hs : s.handle_cancel ud env = .ok s') :
    s'.armed = s.armed := by
  obtain ⟨conn, _, _, hs⟩ := handle_cancel_eq_ok hs
  have hrelease := release_queue
    ((s.take_conn ud).remove_connection (s.heap conn).type (s.heap conn).fd) (some conn)
  refine (free_armed (Places.of_eq h hrelease.1 hrelease.2) hs).trans ?_
  refine armed_congr hrelease.2 ?_
  rw [release_user_data]
  exact op_update _ h.hand

theorem free_buffer_armed (h : Places (ud :: lost) s)
    (hs : (s.take_buffer ud).free_user_data ud = .ok s') : s'.armed = s.armed := by
  have htaken : Places (ud :: lost) (s.take_buffer ud) := h.of_eq rfl rfl
  exact (free_armed htaken hs).trans (armed_congr rfl (op_update _ h.hand))

/-! ### Steps -/

theorem opens_of_ne (haccept : (s.user_data ud).op ≠ .ACCEPT)
    (hconnect : (s.user_data ud).op ≠ .CONNECT) : s.opens (.cqe ud res env) = false :=
  decide_eq_false fun hno => hno.elim haccept hconnect

/-- A completion: an object of a lasting operation that is neither replaced nor kept is one that is
lost. -/
theorem cqe_armed (h : Places lost s) (hring : ud ∈ s.ring) (hs : Handled config s ud res env s') :
    s'.armed + (s.lost? (.cqe ud res env)).toList.length
      = s.armed + if s.opens (.cqe ud res env) = true then 1 else 0 := by
  have hhand := take_places h hring
  have hother : (s.user_data ud).op ≠ .ACCEPT → (s.user_data ud).op ≠ .CONNECT →
      s.opens (.cqe ud res env) = false := opens_of_ne
  -- a connection that opens has one more read, and one that is lost has one less
  cases hs with
  | accept hop hs =>
      have hopens : s.opens (.cqe ud res env) = true := decide_eq_true (.inl hop)
      rw [lost?_of_ne_read (by rw [hop]; nofun), handle_accept_armed hhand hs,
        take_lasting hring (by rw [hop]; rfl), hopens]
      rfl
  | end_of_stream hop hres hs =>
      have hlost : s.lost? (.cqe ud res env) = some ud := if_pos ⟨hres, hop⟩
      rw [hlost, handle_read_armed hhand hs, take_lasting hring (by rw [hop]; rfl),
        hother (by rw [hop]; nofun) (by rw [hop]; nofun)]
      rfl
  | read hop hres hs =>
      have hlost : s.lost? (.cqe ud res env) = none := if_neg fun hno => by omega
      rw [hlost, handle_read_armed h hs, hother (by rw [hop]; nofun) (by rw [hop]; nofun)]
      rfl
  | connect hop hs =>
      have hopens : s.opens (.cqe ud res env) = true := decide_eq_true (.inr hop)
      rw [lost?_of_ne_read (by rw [hop]; nofun), handle_connect_armed hhand hs,
        take_once (by rw [hop]; rfl), hopens]
      rfl
  | write hop _ hs =>
      rw [lost?_of_ne_read (by rw [hop]; nofun), free_buffer_armed hhand hs,
        take_once (by rw [hop]; rfl), hother (by rw [hop]; nofun) (by rw [hop]; nofun)]
      rfl
  | cancel hop hs =>
      rw [lost?_of_ne_read (by rw [hop]; nofun), handle_cancel_armed hhand hs,
        take_once (by rw [hop]; rfl), hother (by rw [hop]; nofun) (by rw [hop]; nofun)]
      rfl
  | rcvmsg hop hs =>
      rw [lost?_of_ne_read (by rw [hop]; nofun), requests_armed h hs,
        hother (by rw [hop]; nofun) (by rw [hop]; nofun)]
      rfl
  | sendmsg hop hs =>
      rw [lost?_of_ne_read (by rw [hop]; nofun), free_buffer_armed hhand hs,
        take_once (by rw [hop]; rfl), hother (by rw [hop]; nofun) (by rw [hop]; nofun)]
      rfl

/-- **A step** adds an operation that lasts when it opens a connection, and takes one away only
when it loses the object. -/
theorem step_armed {ev : Event count} (h : Places lost s) (hs : Step config s ev s') :
    s'.armed + (s.lost? ev).toList.length = s.armed + if s.opens ev = true then 1 else 0 := by
  cases hs with
  | cqe _ ud res env hring hres hs => exact cqe_armed h hring (handled hs)
  | _ => rfl

/-- Two accepts and the receiving of datagrams are there at the start, besides the connects. -/
theorem start_armed {pools : List (ℤ × ConnectionType × HTTP)} {is_open : ℤ → Bool}
    (h : start count pools is_open = .ok s) : s.armed = 3 := by
  have hconnects : ∀ (os : List ℕ) {a b : EventLoop count}, Places [] a →
      os.foldlM prepare_connect a = .ok b → Places [] b ∧ b.armed = a.armed := by
    intro os
    induction os with
    | nil =>
        intro a b ha hb
        obtain rfl := Except.ok.inj hb
        exact ⟨ha, rfl⟩
    | cons o os ih =>
        intro a b ha hb
        obtain ⟨t, ht, hb⟩ := bind_eq_ok.mp hb
        obtain ⟨hplaces, harmed⟩ := ih (prepare_places ha ht) hb
        exact ⟨hplaces, harmed.trans (prepare_armed ha ht)⟩
  obtain ⟨t, ht, h⟩ := bind_eq_ok.mp h
  obtain ⟨u, hu, h⟩ := bind_eq_ok.mp h
  obtain ⟨v, hv, h⟩ := bind_eq_ok.mp h
  obtain ⟨hplaces, harmed⟩ := hconnects _ create_places ht
  calc s.armed = v.armed + 1 := prepare_armed (prepare_places (prepare_places hplaces hu) hv) h
    _ = u.armed + 1 + 1 := congrArg (· + 1) (prepare_armed (prepare_places hplaces hu) hv)
    _ = t.armed + 1 + 1 + 1 := congrArg (· + 1 + 1) (prepare_armed hplaces hu)
    _ = 3 := by rw [harmed]; rfl

end Armed

/-- **Along a run**, an operation that lasts has gone only where its object has been lost. -/
theorem run_armed {pools : List (ℤ × ConnectionType × HTTP)} {is_open : ℤ → Bool}
    {s t : EventLoop count} {ts : List (Transition (EventLoop count) (Event count))}
    (hstart : start count pools is_open = .ok s) (h : Exec (Step config) s ts t) :
    t.armed + (lostIn ts).length = 3 + opened ts := by
  have hrun := h.history (fun s ts => Places (lostIn ts) s
    ∧ s.armed + (lostIn ts).length = 3 + opened ts) ?_ ⟨start_places hstart, start_armed hstart⟩
  · exact hrun.2
  · rintro x _ ts ⟨hplaces, harmed⟩ hstep
    have hone := step_armed hplaces hstep
    have hlost : lostIn (ts ++ [x]) = (x.pre.lost? x.label).toList ++ lostIn ts := by
      unfold lostIn
      rw [List.foldl_append]
      rfl
    have hopened : opened (ts ++ [x])
        = opened ts + if x.pre.opens x.label = true then 1 else 0 := by
      unfold opened
      rw [List.countP_append, List.countP_singleton]
    refine ⟨?_, ?_⟩
    · rw [hlost]
      exact step_places hplaces hstep
    · rw [hlost, hopened, List.length_append]
      omega

/-- A step that loses an object closes a connection, so the losses are bounded by the closes. -/
theorem closes?_of_lost {s s' : EventLoop count} {ev : Event count} (hs : Step config s ev s')
    (hlost : s.lost? ev ≠ none) : s.closes? ev ≠ none := by
  cases hs with
  | cqe _ ud res env hring hres hs =>
      have hread : res = 0 ∧ (s.user_data ud).op = .READ := by
        by_contra hno
        exact hlost (if_neg hno)
      cases handled hs with
      | end_of_stream hop hres hs =>
          obtain ⟨conn, hconn, _⟩ := handle_read_eq_ok hs
          have hcloses : s.closes? (.cqe ud res env) = (s.user_data ud).conn :=
            if_pos ⟨hread.2, .inl hread.1⟩
          rw [hcloses, show (s.user_data ud).conn = some conn from hconn]
          exact Option.some_ne_none conn
      | read hop hres _ => omega
      | _ hop => rw [hread.2] at hop; cases hop
  | _ => exact absurd rfl hlost

theorem closings_eq_zero {ts : List (Transition (EventLoop count) (Event count))} :
    closings ts = 0 ↔ ∀ x ∈ ts, x.pre.closes? x.label = none := by
  unfold closings
  rw [Finset.card_eq_zero, List.toFinset_eq_empty_iff, List.filterMap_eq_nil_iff]

/-- **The objects are conserved and no opening and closing uses them up, exactly as long as no
connection has been closed.** The two paths of the handler of `READ` that close a connection keep
its object: at the end of a stream it is with no operation any more, and after bytes that are
refused it stays with the reads of a connection that is closed. -/
theorem user_data_conserved {pools : List (ℤ × ConnectionType × HTTP)} {is_open : ℤ → Bool}
    {s t : EventLoop count} {ts : List (Transition (EventLoop count) (Event count))}
    (hstart : start count pools is_open = .ok s) (h : Exec (Step config) s ts t) :
    Conserved t ∧ Sustained ts t ↔ ∀ x ∈ ts, x.pre.closes? x.label = none := by
  have hplaces := run_places (start_places hstart) h
  have harmed := run_armed hstart h
  have hring := armed_add_in_flight t
  have hlength := List.Perm.length_eq hplaces
  rw [List.length_append, List.length_append, List.length_finRange] at hlength
  -- whatever has been lost, what is free or in flight goes down by one with each opening
  have hfree : t.user_data_queue.length + t.in_flight + 3 + opened ts = count := by omega
  rw [← closings_eq_zero]
  constructor
  · rintro ⟨_, hsustained⟩
    unfold Sustained at hsustained
    omega
  · intro hnone
    have hlost : lostIn ts = [] := by
      refine lostIn_eq_nil.mpr fun x hx => lost?_eq_none.mp ?_
      by_contra hsome
      exact closes?_of_lost (h.step_of_mem hx) hsome (closings_eq_zero.mp hnone x hx)
    rw [hlost] at hplaces
    refine ⟨hplaces.conserved, ?_⟩
    unfold Sustained
    omega

/-- A frontend's loop right after the start: the configuration of the concrete runs. -/
def frontend : Config := ⟨true, false⟩

/-- Nothing but data is read: no protocol reacts to it. -/
def no_requests : Env := ⟨false, false, [], false⟩

/-- A client connects, and what it sends is read: nothing is lost, as no end of stream was
handled. -/
theorem user_data_conserved_read : ∃ s t ts, start 8 [] (fun _ => false) = .ok s
    ∧ Exec (Step frontend) s ts t ∧ ts.length = 3 ∧ opened ts = 1 ∧ Conserved t
    ∧ Sustained ts t := by
  have hwitness : ∀ s t ts, start 8 [] (fun _ => false) = .ok s → Exec (Step frontend) s ts t →
      ts.length = 3 → opened ts = 1 → (ts.filterMap fun x => x.pre.closes? x.label) = [] →
      ∃ s t ts, start 8 [] (fun _ => false) = .ok s ∧ Exec (Step frontend) s ts t ∧ ts.length = 3
        ∧ opened ts = 1 ∧ Conserved t ∧ Sustained ts t :=
    fun s t ts hs hrun hlength hopened hnone => ⟨s, t, ts, hs, hrun, hlength, hopened,
      (user_data_conserved hs hrun).mpr (List.filterMap_eq_nil_iff.mp hnone)⟩
  exact hwitness _ _ _ rfl
    (.cons (.accepts _ 1 5 ⟨by decide, rfl, rfl⟩ (by decide) rfl)
      (.cons (.cqe _ _ 1 5 no_requests (by decide) (fun _ => rfl) rfl)
        (.cons (.cqe _ _ 3 100 no_requests (by decide) nofun rfl) (.nil _)))) rfl rfl rfl

/-- The client closes its end: one object is gone, so the claim does not hold of every run. -/
theorem user_data_lost : ¬ ∀ (config : Config) (count : ℕ)
    (pools : List (ℤ × ConnectionType × HTTP)) (is_open : ℤ → Bool) (s t : EventLoop count)
    (ts : List (Transition (EventLoop count) (Event count))),
    start count pools is_open = .ok s → Exec (Step config) s ts t → Conserved t := by
  intro hall
  have hconserved := hall frontend 8 [] (fun _ => false) _ _ _ rfl
    (.cons (.accepts _ 1 5 ⟨by decide, rfl, rfl⟩ (by decide) rfl)
    (.cons (.cqe _ _ 1 5 no_requests (by decide) (fun _ => rfl) rfl)
      (.cons (.cqe _ _ 3 0 no_requests (by decide) nofun rfl) (.nil _))))
  exact absurd hconserved.number (by decide)

end EventLoop

end RlpSidecar
