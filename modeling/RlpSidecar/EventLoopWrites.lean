/-
What the peer of a connection gets to see.

Buffers are handed over one at a time and each is sent by an operation of its own, so it is up to
the kernel which of them goes first and how much of it goes. The handler of `WRITE` looks at
neither. And a send names a descriptor: one that starts after the close of its connection was
carried out fails, or it reaches the client that has got the number since. As long as every send of
a connection starts on the socket of that connection and takes the whole of the buffer that has
waited longest, and no send of another connection ends up there, what has gone out and what waits
make up what has been handed over.
-/
import RlpSidecar.EventLoopObjects

set_option autoImplicit false

open Runs

namespace RlpSidecar

namespace EventLoop

variable {count : ℕ} {config : Config}

/-- The sends on `o` that have not been carried out, the oldest first. -/
def waiting (s : EventLoop count) (o : ℕ) : List (Fin count) :=
  s.ring.filter fun ud => (s.user_data ud).op = .WRITE ∧ (s.user_data ud).conn = some o
    ∧ s.results ud = none

/-- What they have to send, in the order of their submission. -/
def unsent (s : EventLoop count) (o : ℕ) : Bytes :=
  (s.waiting o).flatMap fun ud => (s.user_data ud).buffer.getD []

/-- What has gone out on the socket `k` and what waits for the connection `o` make up what has been
handed over for `o`. -/
def Written (o k : ℕ) (s : EventLoop count) : Prop :=
  (s.handed o).flatten = s.peer k ++ s.unsent o

theorem mem_waiting {s : EventLoop count} {o : ℕ} {ud : Fin count} :
    ud ∈ s.waiting o ↔ s.Pending ud .WRITE ∧ (s.user_data ud).conn = some o := by
  unfold waiting Pending
  rw [List.mem_filter, decide_eq_true_iff]
  tauto

/-! ## The operations -/

section Operations

variable {s s' : EventLoop count} {o k : ℕ} {lost : List (Fin count)}

/-- Only the objects of submitted operations count for what is to be sent. -/
theorem unsent_congr (hring : s'.ring = s.ring)
    (hdata : ∀ ud ∈ s.ring, s'.user_data ud = s.user_data ud)
    (hresults : ∀ ud ∈ s.ring, s'.results ud = s.results ud) (o : ℕ) :
    s'.unsent o = s.unsent o := by
  have hwaiting : s'.waiting o = s.waiting o := by
    unfold waiting
    rw [hring]
    refine List.filter_congr fun ud hud => ?_
    rw [hdata ud hud, hresults ud hud]
  unfold unsent
  rw [hwaiting]
  refine List.flatMap_congr fun ud hud => ?_
  rw [hdata ud (List.mem_of_mem_filter hud)]

theorem Written.congr (h : Written o k s) (hring : s'.ring = s.ring)
    (hdata : ∀ ud ∈ s.ring, s'.user_data ud = s.user_data ud)
    (hresults : ∀ ud ∈ s.ring, s'.results ud = s.results ud) (hhanded : s'.handed = s.handed)
    (hpeer : s'.peer = s.peer) : Written o k s' := by
  unfold Written at h ⊢
  rw [hhanded, hpeer, unsent_congr hring hdata hresults, h]

/-- What waits after a submission: a send adds its buffer, and nothing else adds any. -/
theorem prepare_unsent {data : UserData} (h : Places lost s)
    (hs : s.prepare data = .ok s') (o : ℕ) :
    s'.unsent o = s.unsent o
      ++ if data.op = .WRITE ∧ data.conn = some o then data.buffer.getD [] else [] := by
  obtain ⟨ud, rest, hqueue, rfl⟩ := prepare_eq_ok hs
  have hnew : ud ∉ s.ring := h.queue_disjoint (by rw [hqueue]; exact List.mem_cons_self)
  have hne : ∀ x ∈ s.ring, x ≠ ud := fun x hx heq => hnew (heq ▸ hx)
  unfold unsent waiting
  dsimp only
  rw [List.filter_append, List.flatMap_append]
  congr 1
  · have hsame : ∀ x ∈ s.ring, Function.update s.user_data ud data x = s.user_data x
        ∧ Function.update s.results ud none x = s.results x := fun x hx =>
      ⟨Function.update_of_ne (hne x hx) .., Function.update_of_ne (hne x hx) ..⟩
    -- The entry is new to the ring, so the older ones keep their data and their results.
    have hfilter := List.filter_congr (l := s.ring)
      (p := fun x => decide ((Function.update s.user_data ud data x).op = .WRITE
        ∧ (Function.update s.user_data ud data x).conn = some o
        ∧ Function.update s.results ud none x = none))
      (q := fun x => decide ((s.user_data x).op = .WRITE ∧ (s.user_data x).conn = some o
        ∧ s.results x = none)) fun x hx => by rw [(hsame x hx).1, (hsame x hx).2]
    rw [hfilter]
    refine List.flatMap_congr fun x hx => ?_
    rw [(hsame x (List.mem_of_mem_filter hx)).1]
  · simp only [List.filter_cons, List.filter_nil, Function.update_self, and_true, decide_eq_true_eq]
    split_ifs with hwrite
    · simp
    · rfl

theorem prepare_written {data : UserData} (h : Places lost s) (hw : Written o k s)
    (hs : s.prepare data = .ok s') (hop : data.op ≠ .WRITE) : Written o k s' := by
  have hunsent := prepare_unsent h hs o
  rw [if_neg fun hno => hop hno.1, List.append_nil] at hunsent
  obtain ⟨ud, rest, hqueue, rfl⟩ := prepare_eq_ok hs
  unfold Written at hw ⊢
  rw [hunsent]
  exact hw

theorem write_written {conn : ℕ} {buffer : Bytes} (h : Places lost s) (hw : Written o k s)
    (hs : s.prepare_write conn buffer = .ok s') : Written o k s' := by
  obtain ⟨t, ht, hs⟩ := bind_eq_ok.mp hs
  obtain rfl := Except.ok.inj hs
  have hhanded : unsent { t with
      handed := Function.update t.handed conn (t.handed conn ++ [buffer]) } o = t.unsent o :=
    unsent_congr rfl (fun _ _ => rfl) (fun _ _ => rfl) o
  have hunsent := hhanded.trans (prepare_unsent h ht o)
  obtain ⟨ud, rest, hqueue, rfl⟩ := prepare_eq_ok ht
  unfold Written at hw ⊢
  rw [hunsent]
  dsimp only
  by_cases hconn : o = conn
  · subst hconn
    rw [Function.update_self, List.flatten_append, hw, if_pos ⟨rfl, rfl⟩]
    simp
  · rw [Function.update_of_ne hconn, if_neg fun hno => hconn (Option.some.inj hno.2).symm,
      List.append_nil, hw]

theorem requests_written {rs : List Request} (h : Places lost s) (hw : Written o k s)
    (hs : s.requests rs = .ok s') : Written o k s' := by
  induction rs generalizing s with
  | nil =>
      obtain rfl := Except.ok.inj hs
      exact hw
  | cons r rs ih =>
      obtain ⟨t, ht, hrest⟩ := bind_eq_ok.mp hs
      cases r with
      | write conn buffer => exact ih (write_places h ht) (write_written h hw ht) hrest
      | sendmsg buffer => exact ih (prepare_places h ht) (prepare_written h hw ht nofun) hrest

theorem release_written (hw : Written o k s) (conn : Option ℕ) : Written o k (s.release conn) := by
  unfold release
  cases conn with
  | none => exact hw
  | some conn =>
      dsimp only
      split_ifs
      · exact hw.congr rfl (fun _ _ => rfl) (fun _ _ => rfl) rfl rfl
      · exact hw

theorem add_connection_written (hw : Written o k s) (type : ConnectionType) (fd : ℤ) (http : HTTP) :
    Written o k (s.add_connection type fd http).2 := by
  unfold add_connection
  split
  · exact hw.congr rfl (fun _ _ => rfl) (fun _ _ => rfl) rfl rfl
  · exact hw.congr rfl (fun _ _ => rfl) (fun _ _ => rfl) rfl rfl

theorem bring_up_written (hw : Written o k s) (conn : ℕ) (env : Env) :
    Written o k (s.bring_up conn env) := by
  unfold bring_up
  split_ifs
  · exact hw.congr rfl (fun _ _ => rfl) (fun _ _ => rfl) rfl rfl
  · exact hw

/-- What is done to an object that is not submitted does not concern the stream. -/
theorem Written.update (hw : Written o k s) {ud : Fin count} (hud : ud ∉ s.ring) (data : UserData) :
    Written o k { s with user_data := Function.update s.user_data ud data } :=
  hw.congr rfl (fun x hx => Function.update_of_ne (show x ≠ ud by rintro rfl; exact hud hx) _ _)
    (fun _ _ => rfl)
    rfl rfl

theorem free_written {ud : Fin count} (h : Places (ud :: lost) s) (hw : Written o k s)
    (hs : s.free_user_data ud = .ok s') : Written o k s' := by
  obtain rfl := free_eq_ok hs
  refine release_written ?_ _
  exact (hw.update h.hand ⟨.CLEAR, none, none, none⟩).congr rfl (fun _ _ => rfl) (fun _ _ => rfl)
    rfl rfl

end Operations

/-! ## The handlers -/

section Handlers

variable {s s' : EventLoop count} {o k : ℕ} {lost : List (Fin count)} {ud : Fin count} {res : ℤ}
  {env : Env}

theorem handle_accept_written (h : Places (ud :: lost) s) (hw : Written o k s)
    (hs : s.handle_accept config ud res = .ok s') : Written o k s' := by
  obtain ⟨listener, t, u, _, _, ht, hu, hs⟩ := handle_accept_eq_ok hs
  obtain ⟨hqueue, hring⟩ := add_connection_queue s listener res (config.http_type listener)
  have hadded := h.of_eq hqueue hring
  have hread := prepare_written hadded (add_connection_written hw _ _ _) ht nofun
  have haccept := prepare_written (prepare_places hadded ht) hread hu nofun
  exact free_written (prepare_places (prepare_places hadded ht) hu) haccept hs

theorem handle_read_written (h : Places lost s) (hw : Written o k s)
    (hs : s.handle_read ud res env = .ok s') : Written o k s' := by
  obtain ⟨conn, _, _, ⟨_, hs⟩ | ⟨_, _, hs⟩⟩ := handle_read_eq_ok hs
  · have hplaces : Places lost (s.set_status conn .TEARDOWN) := h.of_eq rfl rfl
    have hstatus : Written o k (s.set_status conn .TEARDOWN) :=
      hw.congr rfl (fun _ _ => rfl) (fun _ _ => rfl) rfl rfl
    exact prepare_written hplaces hstatus hs nofun
  · have hplaces : Places lost (s.bring_up conn env) := by
      unfold bring_up
      split_ifs
      · exact h.of_eq rfl rfl
      · exact h
    exact requests_written hplaces (bring_up_written hw conn env) hs

theorem handle_connect_written (h : Places (ud :: lost) s) (hw : Written o k s)
    (hs : s.handle_connect ud res env = .ok s') : Written o k s' := by
  obtain ⟨conn, t, u, _, ht, hu, hs⟩ := handle_connect_eq_ok hs
  have htaken : Places (ud :: lost) (s.take_conn ud) := h.of_eq rfl rfl
  have hwtaken : Written o k (s.take_conn ud) := hw.update h.hand _
  have hconnected : Places (ud :: lost) t ∧ Written o k t := by
    rcases ht with rfl | ht
    · exact ⟨htaken.of_eq rfl rfl, hwtaken.congr rfl (fun _ _ => rfl) (fun _ _ => rfl) rfl rfl⟩
    · exact ⟨requests_places htaken ht, requests_written htaken hwtaken ht⟩
  have hread := prepare_written hconnected.1 hconnected.2 hu nofun
  exact free_written (prepare_places hconnected.1 hu) hread hs

theorem handle_cancel_written (h : Places (ud :: lost) s) (hw : Written o k s)
    (hs : s.handle_cancel ud env = .ok s') : Written o k s' := by
  obtain ⟨conn, _, _, hs⟩ := handle_cancel_eq_ok hs
  have htaken : Written o k (s.take_conn ud) := hw.update h.hand _
  have hremoved : Written o k
      ((s.take_conn ud).remove_connection (s.heap conn).type (s.heap conn).fd) :=
    htaken.congr rfl (fun _ _ => rfl) (fun _ _ => rfl) rfl rfl
  obtain ⟨hqueue, hring⟩ := release_queue
    ((s.take_conn ud).remove_connection (s.heap conn).type (s.heap conn).fd) (some conn)
  exact free_written (Places.of_eq h hqueue hring) (release_written hremoved _) hs

theorem free_buffer_written (h : Places (ud :: lost) s) (hw : Written o k s)
    (hs : (s.take_buffer ud).free_user_data ud = .ok s') : Written o k s' := by
  have htaken : Places (ud :: lost) (s.take_buffer ud) := h.of_eq rfl rfl
  exact free_written htaken (hw.update h.hand _) hs

end Handlers

/-! ## Steps -/

section Steps

variable {s s' : EventLoop count} {o k : ℕ} {lost : List (Fin count)} {ud : Fin count} {res : ℤ}
  {env : Env}

/-- A completed operation does not wait any more, and what it has sent is with the peer. -/
theorem take_written (hring : s.ring.Nodup) (hw : Written o k s) (hud : ud ∉ s.waiting o) :
    Written o k (s.take ud) := by
  have hwaiting : (s.take ud).waiting o = s.waiting o := by
    unfold waiting take
    dsimp only
    rw [List.Nodup.erase_eq_filter hring, List.filter_filter]
    refine List.filter_congr fun x hx => ?_
    by_cases heq : x = ud
    · subst heq
      have hno := fun hyes => hud (List.mem_filter.mpr ⟨hx, hyes⟩)
      simpa using hno
    · simp [heq]
  unfold Written unsent at hw ⊢
  rw [hwaiting]
  exact hw

/-- A completion is handled, and what was handed over is still what went out and what waits. -/
theorem cqe_written (h : Places lost s) (hw : Written o k s) (hring : ud ∈ s.ring)
    (hres : (Operation.observed (s.user_data ud).op) = true → s.results ud = some res)
    (hs : Handled config s ud res env s') : Written o k s' := by
  have hhand := take_places h hring
  -- what a send has done is in `results` when `run` gets to it
  have hdone : ud ∉ s.waiting o := by
    intro hwaiting
    obtain ⟨⟨_, hop, hnone⟩, _⟩ := mem_waiting.mp hwaiting
    rw [hop, hnone] at hres
    exact nomatch hres rfl
  have htaken := take_written h.ring_nodup hw hdone
  cases hs with
  | accept _ hs => exact handle_accept_written hhand htaken hs
  | end_of_stream _ _ hs => exact handle_read_written hhand htaken hs
  | read _ _ hs => exact handle_read_written h hw hs
  | connect _ hs => exact handle_connect_written hhand htaken hs
  | write _ _ hs => exact free_buffer_written hhand htaken hs
  | cancel _ hs => exact handle_cancel_written hhand htaken hs
  | rcvmsg _ hs => exact requests_written h hw hs
  | sendmsg _ hs => exact free_buffer_written hhand htaken hs

/-- An operation that has been carried out does not wait any more. -/
theorem answered_waiting {r : ℤ} (hring : s'.ring = s.ring) (hdata : s'.user_data = s.user_data)
    (hresults : s'.results = Function.update s.results ud (some r)) :
    s'.waiting o = (s.waiting o).filter fun x => x ≠ ud := by
  unfold waiting
  rw [hring, hdata, hresults, List.filter_filter]
  refine List.filter_congr fun x _ => ?_
  by_cases heq : x = ud
  · subst heq
    simp
  · simp [heq]

theorem answered_unsent {r : ℤ} (hring : s'.ring = s.ring) (hdata : s'.user_data = s.user_data)
    (hresults : s'.results = Function.update s.results ud (some r)) (hud : ud ∉ s.waiting o) :
    s'.unsent o = s.unsent o := by
  unfold unsent
  rw [answered_waiting hring hdata hresults, hdata, List.filter_eq_self.mpr]
  intro x hx
  have hne : x ≠ ud := by
    rintro rfl
    exact hud hx
  simpa using hne

/-- An operation that is not a send on `o` has been carried out. -/
theorem Written.answered {r : ℤ} (hw : Written o k s) (hring : s'.ring = s.ring)
    (hdata : s'.user_data = s.user_data)
    (hresults : s'.results = Function.update s.results ud (some r)) (hhanded : s'.handed = s.handed)
    (hpeer : s'.peer k = s.peer k) (hud : ud ∉ s.waiting o) : Written o k s' := by
  unfold Written at hw ⊢
  rw [answered_unsent hring hdata hresults hud, hhanded, hpeer, hw]

theorem not_waiting {op : Operation} (hop : s.Pending ud op) (hne : op ≠ .WRITE) :
    ud ∉ s.waiting o := by
  intro hwaiting
  have hwrite := (mem_waiting.mp hwaiting).1.2.1
  rw [hop.2.1] at hwrite
  exact hne hwrite

/-- What is asked of a send on the connection `o`, whose socket is `k`, and of any send that
reaches `k`: it is on this connection and has found this socket, it takes its turn, and all of its
buffer. No send of the connection fails. -/
def InTurn (o k : ℕ) (s : EventLoop count) : Event count → Prop
  | .sends ud n => (s.user_data ud).conn = some o ∨ s.target ud = some k →
      (s.user_data ud).conn = some o ∧ s.target ud = some k ∧ (s.waiting o).head? = some ud
        ∧ ∀ buffer, (s.user_data ud).buffer = some buffer → n = buffer.length
  | .fails ud _ => ud ∉ s.waiting o
  | _ => True

/-- A send in turn moves the front of what waits to the peer. -/
theorem sends_written {n : ℕ} {buffer : Bytes} {t : EventLoop count} (h : Places lost s)
    (hw : Written o k s) (hhead : (s.waiting o).head? = some ud)
    (hbuffer : (s.user_data ud).buffer = some buffer) (hn : n = buffer.length)
    (hring : t.ring = s.ring) (hdata : t.user_data = s.user_data)
    (hresults : t.results = Function.update s.results ud (some n)) (hhanded : t.handed = s.handed)
    (hpeer : t.peer k = s.peer k ++ buffer.take n) : Written o k t := by
  obtain ⟨rest, hrest⟩ := List.head?_eq_some_iff.mp hhead
  have hnodup : (ud :: rest).Nodup := by
    rw [← hrest]
    exact h.ring_nodup.filter _
  have hwaiting : t.waiting o = rest := by
    rw [answered_waiting hring hdata hresults, hrest, List.filter_cons_of_neg (by simp),
      List.filter_eq_self.mpr]
    intro x hx
    have hne : x ≠ ud := by
      rintro rfl
      exact (List.nodup_cons.mp hnodup).1 hx
    simpa using hne
  unfold Written unsent at hw ⊢
  rw [hrest, List.flatMap_cons, hbuffer] at hw
  rw [hhanded, hpeer, hwaiting, hdata, hn, List.take_length, List.append_assoc]
  exact hw

/-- **A step** in turn keeps the stream: the oldest send goes first, it goes as a whole, and its
descriptor is still the connection's. -/
theorem step_written {ev : Event count} (h : Places lost s) (hw : Written o k s)
    (hturn : InTurn o k s ev) (hs : Step config s ev s') : Written o k s' := by
  cases hs with
  | accepts ud fd hop => exact hw.answered rfl rfl rfl rfl rfl (not_waiting hop nofun)
  | starts => exact hw.congr rfl (fun _ _ => rfl) (fun _ _ => rfl) rfl rfl
  | closes ud conn hop => exact hw.answered rfl rfl rfl rfl rfl (not_waiting hop nofun)
  | fails ud op res hop => exact hw.answered rfl rfl rfl rfl rfl hturn
  | sends ud n socket buffer hop htarget hbuffer hn =>
      by_cases hours : (s.user_data ud).conn = some o ∨ s.target ud = some k
      · obtain ⟨_, hreached, hhead, hwhole⟩ := hturn hours
        obtain rfl : socket = k := Option.some.inj (htarget.symm.trans hreached)
        exact sends_written h hw hhead hbuffer (hwhole buffer hbuffer) rfl rfl rfl rfl
          (Function.update_self ..)
      · -- a send of another connection, which goes somewhere else
        obtain ⟨hconn, hother⟩ := not_or.mp hours
        have hsocket : k ≠ socket := by
          rintro rfl
          exact hother htarget
        exact hw.answered rfl rfl rfl rfl (Function.update_of_ne hsocket ..) fun hwaiting =>
          hconn (mem_waiting.mp hwaiting).2
  | @cqe _ ud res env hring hres hs => exact cqe_written h hw hring hres (handled hs)

end Steps

/-! ## Runs -/

/-- At the start nothing has been handed over, and nothing has gone out. -/
theorem start_written {pools : List (ℤ × ConnectionType × HTTP)} {is_open : ℤ → Bool}
    {s : EventLoop count} (h : start count pools is_open = .ok s) (o k : ℕ) : Written o k s := by
  have hconnects : ∀ (os : List ℕ) {a b : EventLoop count}, Places [] a ∧ Written o k a →
      os.foldlM prepare_connect a = .ok b → Places [] b ∧ Written o k b := by
    intro os
    induction os with
    | nil =>
        intro a b ha hb
        obtain rfl := Except.ok.inj hb
        exact ha
    | cons conn os ih =>
        intro a b ha hb
        obtain ⟨t, ht, hb⟩ := bind_eq_ok.mp hb
        exact ih ⟨prepare_places ha.1 ht, prepare_written ha.1 ha.2 ht nofun⟩ hb
  obtain ⟨t, ht, h⟩ := bind_eq_ok.mp h
  obtain ⟨u, hu, h⟩ := bind_eq_ok.mp h
  obtain ⟨v, hv, h⟩ := bind_eq_ok.mp h
  obtain ⟨ht', hwt⟩ := hconnects _ ⟨create_places, rfl⟩ ht
  have hu' := prepare_places ht' hu
  have hv' := prepare_places hu' hv
  exact prepare_written hv' (prepare_written hu' (prepare_written ht' hwt hu nofun) hv nofun)
    h nofun

/-- **The stream of a connection is in order**: its peer has seen a prefix of what has been handed
over for it, and all of it when no send waits, in every run that serves the sends of the
connection in turn. The peer is the one behind the socket that the object was made for, which
stays the same. -/
theorem stream_in_order {pools : List (ℤ × ConnectionType × HTTP)} {is_open : ℤ → Bool}
    {s t : EventLoop count} {ts : List (Transition (EventLoop count) (Event count))} (o : ℕ)
    (hstart : start count pools is_open = .ok s) (h : Exec (Step config) s ts t)
    (hturn : ∀ x ∈ ts, InTurn o (t.socket o) x.pre x.label) :
    t.peer (t.socket o) <+: (t.handed o).flatten
      ∧ (t.waiting o = [] → t.peer (t.socket o) = (t.handed o).flatten) := by
  have hinvariant : (∃ lost, Places lost t) ∧ Written o (t.socket o) t := by
    refine h.invariant (fun s => (∃ lost, Places lost s) ∧ Written o (t.socket o) s) ?_
      ⟨⟨[], start_places hstart⟩, start_written hstart o (t.socket o)⟩
    rintro x hx ⟨⟨lost, hplaces⟩, hwritten⟩ hstep
    exact ⟨⟨_, step_places hplaces hstep⟩, step_written hplaces hwritten (hturn x hx) hstep⟩
  have hwritten : (t.handed o).flatten = t.peer (t.socket o) ++ t.unsent o := hinvariant.2
  refine ⟨⟨t.unsent o, hwritten.symm⟩, fun hnone => ?_⟩
  rw [hwritten]
  unfold unsent
  rw [hnone, List.flatMap_nil, List.append_nil]

/-- Two buffers for the client that has connected, handed over in one step. -/
def two_buffers : Env := ⟨false, false, [.write 0 [1, 2], .write 0 [3]], false⟩

/-- Two buffers that are sent in turn come out one behind the other: a concrete run of the theorem
above. -/
theorem stream_in_order_two : ∃ s t ts, start 8 [] (fun _ => false) = .ok s
    ∧ Exec (Step frontend) s ts t ∧ ts.length = 8 ∧ t.waiting 0 = []
    ∧ t.peer (t.socket 0) = (t.handed 0).flatten ∧ t.handed 0 = [[1, 2], [3]] := by
  have hwitness : ∀ s t ts, start 8 [] (fun _ => false) = .ok s → Exec (Step frontend) s ts t →
      (∀ x ∈ ts, InTurn 0 (t.socket 0) x.pre x.label) → ts.length = 8 → t.waiting 0 = [] →
      t.handed 0 = [[1, 2], [3]] →
      ∃ s t ts, start 8 [] (fun _ => false) = .ok s ∧ Exec (Step frontend) s ts t ∧ ts.length = 8
        ∧ t.waiting 0 = [] ∧ t.peer (t.socket 0) = (t.handed 0).flatten
          ∧ t.handed 0 = [[1, 2], [3]] :=
    fun s t ts hs hrun hturn hlength hnone hhanded => ⟨s, t, ts, hs, hrun, hlength, hnone,
      (stream_in_order 0 hs hrun hturn).2 hnone, hhanded⟩
  -- One client is accepted, two answers start and each is sent whole in its turn.
  refine hwitness _ _ _ rfl
    (.cons (.accepts _ 1 5 ⟨by decide, rfl, rfl⟩ (by decide) rfl)
      (.cons (.cqe _ _ 1 5 no_requests (by decide) (fun _ => rfl) rfl)
        (.cons (.cqe _ _ 3 100 two_buffers (by decide) nofun rfl)
          (.cons (.starts _ 5 0 ⟨by decide, rfl, rfl⟩ rfl rfl rfl)
            (.cons (.starts _ 6 0 ⟨by decide, rfl, rfl⟩ rfl rfl rfl)
              (.cons (.sends _ 5 2 1 [1, 2] ⟨by decide, rfl, rfl⟩ rfl rfl (by decide))
                (.cons (.cqe _ _ 5 2 no_requests (by decide) (fun _ => rfl) rfl)
                  (.cons (.sends _ 6 1 1 [3] ⟨by decide, rfl, rfl⟩ rfl rfl (by decide))
                    (.nil _)))))))))
    ?_ rfl (by decide) rfl
  simp only [List.forall_mem_cons]
  refine ⟨trivial, trivial, trivial, trivial, trivial, fun _ => ⟨rfl, rfl, by decide, ?_⟩, trivial,
    fun _ => ⟨rfl, rfl, by decide, ?_⟩, by simp⟩
  · rintro buffer hbuffer
    obtain rfl := Option.some.inj hbuffer
    rfl
  · rintro buffer hbuffer
    obtain rfl := Option.some.inj hbuffer
    rfl

/-- The first send takes one byte of two, the second one goes ahead, and the loop goes on. -/
theorem stream_short_send : ¬ ∀ (config : Config) (count : ℕ)
    (pools : List (ℤ × ConnectionType × HTTP)) (is_open : ℤ → Bool) (s t : EventLoop count)
    (ts : List (Transition (EventLoop count) (Event count))) (o : ℕ),
    start count pools is_open = .ok s → Exec (Step config) s ts t →
    (∀ x ∈ ts, ∀ ud res, x.label ≠ .fails ud res) →
    t.peer (t.socket o) <+: (t.handed o).flatten ∨ (t.heap o).status = .TEARDOWN
      ∨ t.closed o = true := by
  intro hall
  have hstream := hall frontend 8 [] (fun _ => false) _ _ _ 0 rfl
    (.cons (.accepts _ 1 5 ⟨by decide, rfl, rfl⟩ (by decide) rfl)
      (.cons (.cqe _ _ 1 5 no_requests (by decide) (fun _ => rfl) rfl)
        (.cons (.cqe _ _ 3 100 two_buffers (by decide) nofun rfl)
          (.cons (.starts _ 5 0 ⟨by decide, rfl, rfl⟩ rfl rfl rfl)
            (.cons (.starts _ 6 0 ⟨by decide, rfl, rfl⟩ rfl rfl rfl)
              (.cons (.sends _ 5 1 1 [1, 2] ⟨by decide, rfl, rfl⟩ rfl rfl (by decide))
                (.cons (.sends _ 6 1 1 [3] ⟨by decide, rfl, rfl⟩ rfl rfl (by decide))
                  (.cons (.cqe _ _ 5 1 no_requests (by decide) (fun _ => rfl) rfl)
                    (.cons (.cqe _ _ 6 1 no_requests (by decide) (fun _ => rfl) rfl)
                      (.nil _))))))))))
    (by simp)
  exact absurd hstream (by decide)

end EventLoop

end RlpSidecar
