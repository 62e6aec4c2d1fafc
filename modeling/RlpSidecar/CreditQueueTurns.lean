/-
**What `pop` grants, and when it is an endpoint's turn.**

A pop is exact: it returns a buffer whenever some queue may be served, and takes it off that queue
alone. Between the endpoints of one level the turn goes around. `turn` counts the endpoints that
the iterator passes before it comes to `e`. A pop that serves another endpoint has passed it by,
and everything else leaves the iterator where it is: a push, a change of the counters, and a scan
that finds nothing, which ends where it began.

`round_robin` is the bound that follows: as long as `e` could be served, and another endpoint is,
this goes on for at most `K - 1` pops if the level has `K` endpoints, however the counters change
meanwhile. A level is seen here without the two others; which of them is asked is the subject of
the fairness between priorities.
-/
import RlpSidecar.CreditQueueRuns

set_option autoImplicit false

open Runs

namespace RlpSidecar

variable {β : Type} {es : List Bytes}

/-! ## A pop is exact -/

namespace CreditQueue

/-- `b` was the oldest buffer of `e` in level `p`, and was taken from there and counted. -/
structure Granted (s : CreditQueue β) (p : Fin PriorityCount) (e : Bytes) (b : β)
    (s' : CreditQueue β) : Prop where
  below : s.counters.active e < s.counters.limit e
  oldest : (s.credit_queue p).queued e = b :: (s'.credit_queue p).queued e
  others : ∀ p' e', p' ≠ p ∨ e' ≠ e → (s'.credit_queue p').queued e' = (s.credit_queue p').queued e'
  size : s'._size + 1 = s._size
  in_flight : s'.counters.in_flight = s.counters.in_flight + 1
  active : ∀ e', s'.counters.active e' = s.counters.active e' + if e' = e then 1 else 0
  limit : s'.counters.limit = s.counters.limit
  global_limit : s'.counters.global_limit = s.counters.global_limit

theorem Serves.granted {s s' : CreditQueue β} {p : Fin PriorityCount} {r : ℕ} {e : Bytes} {b : β}
    (h : Serves es s p r e b s') : Granted s p e b s' := by
  obtain ⟨rest, hline⟩ := h.line
  -- the lines after the pop, read off the view
  have hwaiting : ∀ p' e', (s'.credit_queue p').queued e' = (s.view.grant p e).waiting p' e' := by
    intro p' e'
    rw [← h.view]
    rfl
  refine ⟨h.ready.2.1, ?_, fun p' e' hne => ?_, h.size, ?_, fun e' => ?_, ?_, ?_⟩
  · rw [hwaiting]
    unfold Admission.Room.grant
    dsimp only
    rw [if_pos ⟨rfl, rfl⟩, hline]
    exact hline
  · rw [hwaiting]
    unfold Admission.Room.grant
    dsimp only
    rw [if_neg (by tauto)]
    rfl
  · exact congrArg Admission.Room.total h.view
  · have hactive : s'.counters.active e' = (s.view.grant p e).active e' := by
      rw [← h.view]
      rfl
    have hbefore : s.counters.active e' = s.view.active e' := rfl
    rw [hactive, hbefore]
    simp only [Admission.Room.grant, Admission.Room.acquire]
    split_ifs <;> omega
  · exact congrArg Admission.Room.cap h.view
  · exact congrArg Admission.Room.totalCap h.view

/-- A pop of a well-formed queue: when it returns a buffer, that it changes nothing otherwise, and
which buffer it is. -/
theorem Popped.exact {s s' : CreditQueue β} {p : Fin PriorityCount} {r : Option β} (hs : s.Wf es)
    (h : Popped es s p r s') :
    (r.isSome ↔ ∃ q, HasGrantable es q s)
      ∧ (r = none → s'.credit_queue = s.credit_queue ∧ s'._size = s._size
        ∧ s'.counters = s.counters)
      ∧ ∀ b, r = some b → ∃ q, ∃ e ∈ es, Granted s q e b s' := by
  have hserved : ∀ {q r e b}, Serves es s q r e b s' → ∃ q, HasGrantable es q s := by
    intro q r e b hq
    exact ⟨q, e, hq.mem, hq.ready⟩
  -- nothing was returned, or one buffer: at the level of the cursor or at a later one
  cases r with
  | none =>
      have hnone := h.none_ready hs
      refine ⟨⟨fun hsome => absurd hsome (by simp), ?_⟩, fun _ => ?_,
        fun b hb => absurd hb (by simp)⟩
      · rintro ⟨q, e, he, hready⟩
        exact absurd hready (hnone q e he)
      · cases h with
        | idle => exact ⟨rfl, rfl, rfl⟩
        | missed => exact ⟨rfl, rfl, rfl⟩
  | some b =>
      refine ⟨⟨fun _ => ?_, fun _ => rfl⟩, fun hnone => absurd hnone (by simp), fun b' hb => ?_⟩
      · cases h with
        | here hserve => exact hserved hserve
        | later _ _ _ hserve => exact hserved hserve
      · obtain rfl := Option.some.inj hb
        cases h with
        | here hserve => exact ⟨_, _, hserve.mem, hserve.granted⟩
        | later _ _ _ hserve => exact ⟨_, _, hserve.mem, hserve.granted⟩

/-- **`pop` is exact and work-conserving**, in every state that the queue can reach: its scans end,
it returns a buffer exactly if some queue may be served, that buffer is the oldest of such a queue,
and nothing else moves. -/
theorem pop_exact {config : LimitConfig} {endpoints : List Bytes} {s₀ s : CreditQueue β}
    {ts : List (Transition (CreditQueue β) (Op β × Option β))} (hne : endpoints ≠ [])
    (hcreate : create config endpoints = .ok s₀) (hrun : Exec Step s₀ ts s) :
    ∃ r s', s.pop = .ok (r, s')
      ∧ (r.isSome ↔ s.counters.in_flight < s.counters.global_limit ∧ ∃ p, ∃ e ∈ endpoints,
          (s.credit_queue p).queued e ≠ [] ∧ s.counters.active e < s.counters.limit e)
      ∧ (r = none → s'.credit_queue = s.credit_queue ∧ s'._size = s._size
        ∧ s'.counters = s.counters)
      ∧ ∀ b, r = some b → ∃ p, ∃ e ∈ endpoints, Granted s p e b s' := by
  have hwf := wf_of_exec hrun (create_spec hne hcreate).wf
  obtain ⟨p, r, s', _, hpop, hpopped⟩ := pop_spec hwf
  obtain ⟨hiff, hnone, hsome⟩ := hpopped.exact hwf
  refine ⟨r, s', hpop, hiff.trans ?_, hnone, hsome⟩
  constructor
  · rintro ⟨q, e, he, hline, hlimit, hglobal⟩
    exact ⟨hglobal, q, e, he, hline, hlimit⟩
  · rintro ⟨hglobal, q, e, he, hline, hlimit⟩
    exact ⟨q, e, he, hline, hlimit, hglobal⟩

/-- A queue over one endpoint after one push, from which the buffer can be popped. -/
theorem pop_exact_pushed :
    ∃ (s₀ s : CreditQueue ℕ) (ts : List (Transition (CreditQueue ℕ) (Op ℕ × Option ℕ))),
      create ⟨1, 0, false, id⟩ [[97]] = .ok s₀ ∧ Exec Step s₀ ts s
        ∧ ts.map (fun t => t.label.1) = [.push 0 [97] 0]
        ∧ ∃ r s', s.pop = .ok (r, s')
          ∧ (r.isSome ↔ s.counters.in_flight < s.counters.global_limit ∧ ∃ p, ∃ e ∈ [[97]],
              (s.credit_queue p).queued e ≠ [] ∧ s.counters.active e < s.counters.limit e)
          ∧ (r = none → s'.credit_queue = s.credit_queue ∧ s'._size = s._size
              ∧ s'.counters = s.counters)
          ∧ ∀ b, r = some b → ∃ p, ∃ e ∈ [[97]], Granted s p e b s' := by
  have hcheck : (do
      let s₀ ← create (β := ℕ) ⟨1, 0, false, id⟩ [[97]]
      let (_, _) ← trace next s₀ [.push 0 [97] 0]
      .ok true) = (.ok true : Except Abort Bool) := by
    decide +kernel
  obtain ⟨s₀, hcreate, hcheck⟩ := bind_eq_ok.mp hcheck
  obtain ⟨⟨ts, s⟩, hts, _⟩ := bind_eq_ok.mp hcheck
  obtain ⟨hexec, hops⟩ := exec_of_trace (fun _ _ _ _ => step_of_next) hts
  exact ⟨s₀, s, ts, hcreate, hexec, hops, pop_exact (by decide) hcreate hexec⟩

end CreditQueue

/-! ## Whose turn it is -/

namespace InnerCreditQueue

/-- A level and the counters it is popped with, which other operations may change between two
pops. -/
structure Turns (β : Type) where
  level : InnerCreditQueue β
  counters : Counters

/-- What can happen to a level. A change is one of the counters and limits. -/
inductive Event (β : Type)
  | push (buffer : β) (endpoint : Bytes)
  | pop (result : Option β)
  | change

/-- One event. The counters change in any way, over the same endpoints. -/
inductive Step (es : List Bytes) : Turns β → Event β → Turns β → Prop
  | push {q q' : InnerCreditQueue β} {c : Counters} {b : β} {e : Bytes} (h : q.push b e = .ok q') :
      Step es ⟨q, c⟩ (.push b e) ⟨q', c⟩
  | pop {q q' : InnerCreditQueue β} {c c' : Counters} {r : Option β}
      (h : q.pop c = .ok (r, q', c')) :
      Step es ⟨q, c⟩ (.pop r) ⟨q', c'⟩
  | change {q : InnerCreditQueue β} {c c' : Counters} (h : c'.Hosts es) :
      Step es ⟨q, c⟩ .change ⟨q, c'⟩

/-- The event is a pop that returned a buffer, and not a pop in vain. -/
def Event.succeeds : Event β → Bool
  | .pop (some _) => true
  | _ => false

/-- The step took a buffer of `e`, whose deque is shorter after it. -/
def Took (e : Bytes) (t : Transition (Turns β) (Event β)) : Prop :=
  (t.post.level.queued e).length < (t.pre.level.queued e).length

instance (e : Bytes) (t : Transition (Turns β) (Event β)) : Decidable (Took e t) := by
  unfold Took; infer_instance

/-- Slot `x` is that of `e`: it is occupied and has this key. -/
def slotOf (q : InnerCreditQueue β) (e : Bytes) (x : ℕ) : Bool :=
  match q.queue.slots_[x]? with
  | some s => s.occupied && decide (s.key = e)
  | none => false

/-- The endpoints that the iterator passes before it comes to `e`, from where it stands. -/
def turn (e : Bytes) (q : InnerCreditQueue β) : ℕ :=
  match Circular.firstFrom q.queue.slots_.length (q.slotOf e) q.it with
  | some d => Circular.passed q.queue.slots_.length q.queue.occupiedAt q.it d
  | none => 0

theorem slotOf_eq_true {q : InnerCreditQueue β} {e : Bytes} {x : ℕ} :
    q.slotOf e x = true ↔ ∃ s, q.queue.slots_[x]? = some s ∧ s.occupied = true ∧ s.key = e := by
  unfold slotOf
  cases q.queue.slots_[x]? with
  | none => simp
  | some s => simp

/-- The turn of an endpoint is counted up to its slot, wherever around the circle that lies. -/
theorem turn_eq {q : InnerCreditQueue β} (h : q.queue.Hosts es) {e : Bytes} {d : ℕ}
    (hd : d < q.queue.slots_.length)
    (hslot : q.slotOf e ((q.it + d) % q.queue.slots_.length) = true) :
    q.turn e = Circular.passed q.queue.slots_.length q.queue.occupiedAt q.it d := by
  have hfirst : Circular.firstFrom q.queue.slots_.length (q.slotOf e) q.it = some d := by
    refine Circular.firstFrom_eq_some.mpr ⟨hd, hslot, fun k hk => ?_⟩
    by_contra hne
    rw [Bool.not_eq_false] at hne
    obtain ⟨s, hs, hsocc, rfl⟩ := slotOf_eq_true.mp hslot
    obtain ⟨t, ht, htocc, hkey⟩ := slotOf_eq_true.mp hne
    have hsame := Circular.offset_inj (by omega) hd (h.key_inj ht htocc hs hsocc hkey)
    omega
  unfold turn
  rw [hfirst]

/-- Where the slot of an endpoint lies: at some distance from the iterator, less than a whole
round. -/
theorem exists_slot {q : InnerCreditQueue β} (h : q.Wf es) {e : Bytes} (he : e ∈ es) :
    q.it < q.queue.slots_.length ∧ ∃ d < q.queue.slots_.length,
      q.slotOf e ((q.it + d) % q.queue.slots_.length) = true := by
  obtain ⟨init, hinit, _⟩ := LocalMap.occupiedAt_iff.mp h.standing
  have hlt : q.it < q.queue.slots_.length := (List.getElem?_eq_some_iff.mp hinit).1
  obtain ⟨i, s, _, hs, hocc, hkey⟩ := h.hosts.slot he
  obtain ⟨d, hd, hoff⟩ := Circular.exists_offset hlt (List.getElem?_eq_some_iff.mp hs).1
  exact ⟨hlt, d, hd, by rw [hoff]; exact slotOf_eq_true.mpr ⟨s, hs, hocc, hkey⟩⟩

/-- **There are at most `K - 1` endpoints before `e`**, which is one of the `K`. -/
theorem turn_lt {q : InnerCreditQueue β} (h : q.Wf es) {e : Bytes} (he : e ∈ es) :
    q.turn e < es.length := by
  obtain ⟨hlt, d, hd, hslot⟩ := exists_slot h he
  rw [turn_eq h.hosts hd hslot]
  have hn : 0 < q.queue.slots_.length := by omega
  -- each occupied offset up to that of `e` stands for an endpoint of its own
  let key (k : ℕ) : Bytes :=
    ((q.queue.slots_[(q.it + k) % q.queue.slots_.length]?).map LocalSlot.key).getD []
  let met := (List.range (d + 1)).filter fun k =>
    q.queue.occupiedAt ((q.it + k) % q.queue.slots_.length)
  have hmet : ∀ k ∈ met, k < q.queue.slots_.length ∧ ∃ s,
      q.queue.slots_[(q.it + k) % q.queue.slots_.length]? = some s ∧ s.occupied = true
        ∧ key k = s.key := by
    intro k hk
    obtain ⟨hk, hocc⟩ := List.mem_filter.mp hk
    obtain ⟨s, hs, hocc⟩ := LocalMap.occupiedAt_iff.mp hocc
    refine ⟨by have := List.mem_range.mp hk; omega, s, hs, hocc, ?_⟩
    show ((q.queue.slots_[(q.it + k) % q.queue.slots_.length]?).map LocalSlot.key).getD [] = s.key
    rw [hs]
    rfl
  have hnodup : (met.map key).Nodup := by
    refine List.Nodup.map_on (fun j hj k hk hjk => ?_) (List.nodup_range.filter _)
    obtain ⟨hjn, s, hs, hsocc, hsk⟩ := hmet j hj
    obtain ⟨hkn, t, ht, htocc, htk⟩ := hmet k hk
    exact Circular.offset_inj hjn hkn
      (h.hosts.key_inj hs hsocc ht htocc (by rw [← hsk, ← htk, hjk]))
  have hsub : met.map key ⊆ es := by
    intro x hx
    obtain ⟨k, hk, rfl⟩ := List.mem_map.mp hx
    obtain ⟨_, s, hs, hocc, hsk⟩ := hmet k hk
    rw [hsk]
    exact (h.hosts.keys _ s hs hocc).1
  have hlen := (List.subperm_of_subset hnodup hsub).length_le
  rw [List.length_map] at hlen
  have hcount : met.length
      = Circular.passed q.queue.slots_.length q.queue.occupiedAt q.it (d + 1) :=
    (List.countP_eq_length_filter ..).symm
  have hone : 0 < Circular.passed q.queue.slots_.length q.queue.occupiedAt
      ((q.it + d) % q.queue.slots_.length) 1 := by
    obtain ⟨s, hs, hocc, _⟩ := slotOf_eq_true.mp hslot
    refine Circular.passed_pos Nat.zero_lt_one (LocalMap.occupiedAt_iff.mpr ⟨s, ?_, hocc⟩)
    rw [Nat.add_zero, Nat.mod_mod]
    exact hs
  have hsplit := Circular.passed_add q.queue.slots_.length q.queue.occupiedAt q.it d 1
  omega

/-- What the slots hold does not matter: the turn depends on their keys and on the iterator. -/
theorem turn_update (q : InnerCreditQueue β) (e : Bytes) (i : ℕ) (f : List β → List β) (n : ℕ) :
    (⟨q.queue.update i f, q.it, n⟩ : InnerCreditQueue β).turn e = q.turn e := by
  have hslot : (⟨q.queue.update i f, q.it, n⟩ : InnerCreditQueue β).slotOf e = q.slotOf e := by
    funext x
    unfold slotOf
    dsimp only
    rw [LocalMap.getElem?_slots_update]
    cases q.queue.slots_[x]? with
    | none => rfl
    | some s =>
        simp only [Option.map_some]
        split_ifs <;> rfl
  unfold turn
  rw [hslot]
  simp only [LocalMap.length_slots_update, LocalMap.occupiedAt_update]

/-- The level with its iterator at slot `i`, and everything else as it was. -/
def seek (q : InnerCreditQueue β) (i : ℕ) : InnerCreditQueue β := { q with it := i }

/-- Serving a slot moves the iterator behind it, on to the next occupied one. -/
theorem turn_serve {q q' : InnerCreditQueue β} {slot : LocalSlot (List β)} {c c' : Counters}
    {r : Option β} (h : q.serve slot c = .ok (r, q', c'))
    (hlt : q.it < q.queue.slots_.length) (e : Bytes) :
    q'.turn e = (q.seek (Circular.nextFrom q.queue.slots_.length q.queue.occupiedAt
      (Circular.bump q.queue.slots_.length q.it))).turn e := by
  unfold serve at h
  obtain ⟨c₁, _, h⟩ := bind_eq_ok.mp h
  split at h
  · cases h
  obtain ⟨_, heq⟩ := Prod.mk.inj (Except.ok.inj h)
  obtain ⟨rfl, _⟩ := Prod.mk.inj heq
  have hnext := LocalMap.next_eq (m := q.queue.update q.it List.tail) (i := q.it)
    (by rw [LocalMap.length_slots_update]; exact hlt)
  rw [LocalMap.length_slots_update, LocalMap.occupiedAt_update] at hnext
  rw [hnext]
  exact turn_update (q.seek (Circular.nextFrom q.queue.slots_.length q.queue.occupiedAt
    (Circular.bump q.queue.slots_.length q.it))) e q.it List.tail _

/-- **A pop that serves another endpoint passes it by**, so that `e` is nearer by one. A pop in
vain does not put it farther away. -/
theorem pop_turn {q q' : InnerCreditQueue β} {c c' : Counters} {r : Option β} (h : q.Wf es)
    (hc : c.Hosts es) (hpop : q.pop c = .ok (r, q', c')) {e : Bytes} (he : e ∈ es)
    (hready : r.isSome → q.Grantable c e ∧ ¬ (q'.queued e).length < (q.queued e).length) :
    q'.turn e + (if r.isSome then 1 else 0) ≤ q.turn e := by
  rw [pop_eq h hc] at hpop
  cases hf : Circular.firstFrom q.queue.slots_.length (q.servableAt c) q.it with
  | none =>
      rw [hf] at hpop
      obtain ⟨rfl, heq⟩ := Prod.mk.inj (Except.ok.inj hpop)
      obtain ⟨rfl, _⟩ := Prod.mk.inj heq
      exact le_refl _
  | some k =>
      rw [hf] at hpop
      obtain ⟨hk, hserv, hfirst⟩ := Circular.firstFrom_eq_some.mp hf
      obtain ⟨s, hs, hocc⟩ := LocalMap.occupiedAt_iff.mp (occupiedAt_of_servableAt hserv)
      have hge : q.Grantable c s.key := by simpa [servableAt, hs, hocc] using hserv
      have hderef : q.queue.deref ((q.it + k) % q.queue.slots_.length) = .ok s := by
        unfold LocalMap.deref; rw [hs]
      dsimp only at hpop
      rw [hderef, ok_bind] at hpop
      obtain ⟨b, rest, q₁, c₁, hserve, hline, _, _, _, hqueued⟩ := serve_spec h hc hs hocc hge
      obtain ⟨rfl, heq⟩ := Prod.mk.inj (Except.ok.inj (hserve.symm.trans hpop))
      obtain ⟨rfl, rfl⟩ := Prod.mk.inj heq
      obtain ⟨hgrant, hnot⟩ := hready rfl
      -- the slot that was served is not that of `e`, and comes before it
      have hother : s.key ≠ e := by
        rintro rfl
        refine hnot ?_
        rw [hqueued, if_pos rfl, hline]
        exact Nat.lt_succ_self _
      obtain ⟨hlt, d, hd, hslot⟩ := exists_slot h he
      obtain ⟨t, ht, htocc, hkey⟩ := slotOf_eq_true.mp hslot
      have hmay : q.servableAt c ((q.it + d) % q.queue.slots_.length) = true := by
        unfold servableAt
        rw [ht]
        dsimp only
        rw [htocc, hkey, decide_eq_true hgrant]
        rfl
      have hkd : k < d := by
        rcases Nat.lt_trichotomy k d with hlt' | rfl | hgt
        · exact hlt'
        · obtain rfl := Option.some.inj (hs.symm.trans ht)
          exact absurd hkey hother
        · rw [hfirst d hgt] at hmay
          cases hmay
      have hnow : q.turn e = _ := turn_eq h.hosts hd hslot
      obtain ⟨d', hd', htarget, hle⟩ := Circular.passed_next hlt h.standing hkd hd
        (occupiedAt_of_servableAt hserv) (occupiedAt_of_servableAt hmay)
      have hslot' : q.slotOf e ((Circular.nextFrom q.queue.slots_.length q.queue.occupiedAt
          (Circular.bump q.queue.slots_.length ((q.it + k) % q.queue.slots_.length)) + d')
            % q.queue.slots_.length) = true := by
        rw [htarget]
        exact hslot
      have hafter :=
        turn_eq (q := q.seek (Circular.nextFrom q.queue.slots_.length q.queue.occupiedAt
        (Circular.bump q.queue.slots_.length ((q.it + k) % q.queue.slots_.length))))
        h.hosts hd' hslot'
      have hthen := turn_serve hserve (Nat.mod_lt _ (by omega)) e
      have hpassed := hthen.trans hafter
      rw [hpassed, hnow]
      exact hle

/-- The invariant of a run: the level is well-formed, and the counters know its endpoints. -/
def Turns.Wf (es : List Bytes) (s : Turns β) : Prop := s.level.Wf es ∧ s.counters.Hosts es

theorem Step.wf {s s' : Turns β} {l : Event β} (h : Step es s l s') (hs : s.Wf es) : s'.Wf es := by
  cases h with
  | push hpush => exact ⟨(push_spec hs.1 hpush).2.1, hs.2⟩
  | pop hpop =>
      rcases pop_spec hs.1 hs.2 with ⟨heq, _⟩ | ⟨e, _, b, rest, q₁, c₁, heq, _, _, hc, hwf, _⟩
      · obtain ⟨_, hstate⟩ := Prod.mk.inj (Except.ok.inj (heq.symm.trans hpop))
        obtain ⟨rfl, rfl⟩ := Prod.mk.inj hstate
        exact hs
      · obtain ⟨_, hstate⟩ := Prod.mk.inj (Except.ok.inj (heq.symm.trans hpop))
        obtain ⟨rfl, rfl⟩ := Prod.mk.inj hstate
        exact ⟨hwf, (Counters.increment_in_flight_spec hs.2 hc).hosts⟩
  | change hc => exact ⟨hs.1, hc⟩

/-- **One step of a run, for the turn of `e`**: it never grows, and a pop for another endpoint
makes it smaller. -/
theorem Step.turn_le {s s' : Turns β} {l : Event β} (h : Step es s l s') (hs : s.Wf es) {e : Bytes}
    (he : e ∈ es)
    (hready : l.succeeds = true → s.level.Grantable s.counters e ∧ ¬ Took e ⟨s, l, s'⟩) :
    s'.level.turn e + (if l.succeeds then 1 else 0) ≤ s.level.turn e := by
  cases h with
  | @push q q' c b e' hpush =>
      unfold InnerCreditQueue.push at hpush
      obtain ⟨m, hm, hpush⟩ := bind_eq_ok.mp hpush
      obtain rfl := Except.ok.inj hpush
      obtain ⟨i, _, rfl⟩ := LocalMap.modify_eq_ok hm
      exact le_of_eq (turn_update q e i (· ++ [b]) _)
  | @pop q q' c c' r hpop =>
      have hturn := pop_turn hs.1 hs.2 hpop he (by
        intro hr
        obtain ⟨b, rfl⟩ := Option.isSome_iff_exists.mp hr
        exact hready rfl)
      cases r with
      | none => exact hturn
      | some b => exact hturn
  | change => exact le_refl _

/-- A level without slots never gives anything, and stays without them. -/
theorem no_slots {s s' : Turns β} {ts : List (Transition (Turns β) (Event β))}
    (h : Exec (Step es) s ts s') (hs : s.level.queue.slots_ = [] ∧ s.level._size = 0)
    {t : Transition (Turns β) (Event β)} (ht : t ∈ ts) :
    t.label.succeeds = false := by
  -- a push finds no slot, and a pop returns at once for the size zero
  have hinv : ∀ x ∈ ts, (x.pre.level.queue.slots_ = [] ∧ x.pre.level._size = 0) →
      Step es x.pre x.label x.post →
        x.post.level.queue.slots_ = [] ∧ x.post.level._size = 0 := by
    rintro ⟨pre, l, post⟩ _ hpre hstep
    cases hstep with
    | @push q q' c b e hpush =>
        unfold InnerCreditQueue.push at hpush
        obtain ⟨m, hm, _⟩ := bind_eq_ok.mp hpush
        obtain ⟨i, hi, _⟩ := LocalMap.modify_eq_ok hm
        obtain ⟨slot, hslot, _⟩ := LocalMap.find_ptr_eq_some hi
        rw [hpre.1] at hslot
        cases hslot
    | pop hpop =>
        unfold InnerCreditQueue.pop at hpop
        rw [if_pos hpre.2] at hpop
        obtain ⟨_, hstate⟩ := Prod.mk.inj (Except.ok.inj hpop)
        obtain ⟨rfl, _⟩ := Prod.mk.inj hstate
        exact hpre
    | change => exact hpre
  have hpre :=
    (h.invariant_of_mem (fun s => s.level.queue.slots_ = [] ∧ s.level._size = 0) hinv hs ht).1
  have hstep := h.step_of_mem ht
  obtain ⟨pre, l, post⟩ := t
  cases hstep with
  | push => rfl
  | pop hpop =>
      unfold InnerCreditQueue.pop at hpop
      rw [if_pos hpre.2] at hpop
      obtain ⟨rfl, _⟩ := Prod.mk.inj (Except.ok.inj hpop)
      rfl
  | change => rfl

/-- What the constructor makes, next to counters that find every endpoint: a well-formed level, or
one without slots. -/
theorem create_turns {q : InnerCreditQueue β} {c : Counters} (hcreate : create es = .ok q)
    (hc : c.Hosts es) :
    (⟨q, c⟩ : Turns β).Wf es ∨ q.queue.slots_ = [] ∧ q._size = 0 := by
  unfold create at hcreate
  obtain ⟨queue, hqueue, hcreate⟩ := bind_eq_ok.mp hcreate
  obtain rfl := Except.ok.inj hcreate
  by_cases hslots : queue.slots_ = []
  · exact .inr ⟨hslots, rfl⟩
  have hlen : ∀ e ∈ es, 0 < e.length ∧ e.length < 2 ^ 32 := by
    intro e he
    obtain ⟨i, _, hi, _⟩ := hc.counts.slot he
    exact LocalMap.length_of_find_ptr hi
  exact .inl ⟨CreditQueue.created_level_wf hqueue hlen hslots, hc⟩

/-- **Round-robin between the endpoints of a level.** In any run of a level over `K` endpoints, in
any stretch in which `e` could be served at every pop that returns a buffer, and is not: there are
at most `K - 1` of these pops. The counters may change in any way between the pops, as long as they
know the endpoints. -/
theorem round_robin {endpoints : List Bytes} {q₀ : InnerCreditQueue β} {c₀ : Counters}
    {before stretch : List (Transition (Turns β) (Event β))} {s s' : Turns β}
    (hcreate : create endpoints = .ok q₀) (hcounters : c₀.Hosts endpoints)
    (hbefore : Exec (Step endpoints) ⟨q₀, c₀⟩ before s)
    (hstretch : Exec (Step endpoints) s stretch s') {e : Bytes} (he : e ∈ endpoints)
    (hturn : ∀ t ∈ stretch, t.label.succeeds = true →
      t.pre.level.Grantable t.pre.counters e ∧ ¬ Took e t) :
    stretch.countP (fun t => t.label.succeeds) ≤ endpoints.length - 1 := by
  rcases create_turns hcreate hcounters with hwf | hempty
  · have hs : s.Wf endpoints :=
      hbefore.invariant (Turns.Wf endpoints) (fun _ _ hpre hstep => hstep.wf hpre) hwf
    have hcount :=
      hstretch.countP_le (fun s => s.level.turn e) (fun t => t.label.succeeds) fun t ht hstep =>
      hstep.turn_le
        (hstretch.invariant_of_mem (Turns.Wf endpoints) (fun _ _ hpre hstep => hstep.wf hpre)
        hs ht).1 he (hturn t ht)
    have hbound := turn_lt hs.1 he
    omega
  · -- no buffer is ever in such a level
    have hnone : stretch.countP (fun t => t.label.succeeds) = 0 := by
      rw [List.countP_eq_zero]
      intro t ht hsucc
      rw [no_slots (hbefore.append hstretch) hempty (List.mem_append_right _ ht)] at hsucc
      cases hsucc
    omega

/-- Two endpoints with a buffer each: a pop serves one of them while the other could be served, and
there is no more than one such pop. -/
theorem round_robin_two :
    ∃ (before stretch : List (Transition (Turns ℕ) (Event ℕ)))
      (q₀ : InnerCreditQueue ℕ) (c₀ : Counters) (s s' : Turns ℕ),
      create [[97], [98]] = .ok q₀ ∧ Exec (Step [[97], [98]]) ⟨q₀, c₀⟩ before s
        ∧ Exec (Step [[97], [98]]) s stretch s' ∧ stretch.map (fun t => t.label.succeeds) = [true]
        ∧ stretch.countP (fun t => t.label.succeeds) ≤ [[97], [98]].length - 1 := by
  -- one pop that serves the other endpoint, evaluated
  have hcheck : (do
      let s₀ ← CreditQueue.create (β := ℕ) ⟨1, 0, false, id⟩ [[97], [98]]
      let q₀ ← create (β := ℕ) [[97], [98]]
      let q₁ ← q₀.push 0 [97]
      let q₂ ← q₁.push 1 [98]
      let (r, q₃, c) ← q₂.pop s₀.counters
      .ok (decide (r.isSome ∧ q₂.Grantable s₀.counters [97]
        ∧ ¬ Took [97] ⟨⟨q₂, s₀.counters⟩, .pop r, ⟨q₃, c⟩⟩))) = (.ok true : Except Abort Bool) := by
    decide +kernel
  obtain ⟨s₀, hs₀, hcheck⟩ := bind_eq_ok.mp hcheck
  obtain ⟨q₀, hq₀, hcheck⟩ := bind_eq_ok.mp hcheck
  obtain ⟨q₁, hq₁, hcheck⟩ := bind_eq_ok.mp hcheck
  obtain ⟨q₂, hq₂, hcheck⟩ := bind_eq_ok.mp hcheck
  obtain ⟨⟨r, q₃, c⟩, hpop, hcheck⟩ := bind_eq_ok.mp hcheck
  obtain ⟨hr, hready⟩ := of_decide_eq_true (Except.ok.inj hcheck)
  obtain ⟨b, rfl⟩ := Option.isSome_iff_exists.mp hr
  have hbefore : Exec (Step [[97], [98]]) ⟨q₀, s₀.counters⟩ _ ⟨q₂, s₀.counters⟩ :=
    .cons (.push hq₁) (.single (.push hq₂))
  have hstretch : Exec (Step [[97], [98]]) ⟨q₂, s₀.counters⟩ _ ⟨q₃, c⟩ := .single (.pop hpop)
  refine ⟨_, _, q₀, s₀.counters, _, _, hq₀, hbefore, hstretch, rfl,
    round_robin hq₀ (CreditQueue.create_spec (by decide) hs₀).wf.counters hbefore hstretch
      (e := [97]) (by decide) ?_⟩
  intro t ht _
  obtain rfl := List.mem_singleton.mp ht
  exact hready

end InnerCreditQueue

end RlpSidecar
