/-
What one priority level does: the counters, `push`, and the round-robin `pop`.

`Counters.Hosts` and `InnerCreditQueue.Wf` say which maps a queue over the hosted endpoints
holds. Each operation gets one lemma that says everything it can do; the levels and the
queue above never look at slots or at the iterator again.

The round-robin `pop` is the only one with a loop. It is shown to be a cyclic scan
(`popLoop_eq_cycleFind`), and what it finds is then the first endpoint from the iterator on that
may be served, or none at all; the general facts about such scans do the rest.
-/
import Mathlib.Algebra.BigOperators.Group.Finset.Basic
import Mathlib.Algebra.BigOperators.Ring.Finset
import RlpSidecar.CreditQueue

set_option autoImplicit false

namespace RlpSidecar

variable {β : Type} {es : List Bytes}

/-! ## Counters -/

namespace Counters

/-- `in_flight_per_endpoint[e]`, and zero for an endpoint that is not hosted. -/
def active (c : Counters) (e : Bytes) : ℤ := (c.in_flight_per_endpoint.lookup e).getD 0

/-- `per_endpoint_limit[e]`, and zero for an endpoint that is not hosted. -/
def limit (c : Counters) (e : Bytes) : ℤ := (c.per_endpoint_limit.lookup e).getD 0

/-- Both maps are over the hosted endpoints, which never change after the constructor. -/
structure Hosts (es : List Bytes) (c : Counters) : Prop where
  counts : c.in_flight_per_endpoint.Hosts es
  limits : c.per_endpoint_limit.Hosts es

/-- The counters hosted endpoints have after one of them moved by `d`. -/
structure Moved (es : List Bytes) (e : Bytes) (d : ℤ) (c c' : Counters) : Prop where
  mem : e ∈ es
  hosts : c'.Hosts es
  active : ∀ e', c'.active e' = if e' = e then c.active e' + d else c.active e'
  in_flight : c'.in_flight = c.in_flight + d
  limit : c'.limit = c.limit
  global_limit : c'.global_limit = c.global_limit

theorem moved_of_modify {c : Counters} (h : c.Hosts es) {e : Bytes} {d : ℤ} {m : LocalMap ℤ}
    (hm : c.in_flight_per_endpoint.modify e (· + d) = .ok m) :
    Moved es e d c { c with in_flight_per_endpoint := m, in_flight := c.in_flight + d } := by
  obtain ⟨hmem, hhosts, hlookup, _, _⟩ := h.counts.modify hm
  refine ⟨hmem, ⟨hhosts, h.limits⟩, fun e' => ?_, rfl, rfl, rfl⟩
  unfold active
  rw [hlookup]
  split_ifs with he
  · subst he
    obtain ⟨v, hv⟩ := h.counts.found e' hmem
    rw [hv]; rfl
  · rfl

/-- **`increment_in_flight`** succeeds on hosted endpoints only, and moves both counters up by
one. -/
theorem increment_in_flight_spec {c c' : Counters} (h : c.Hosts es) {e : Bytes}
    (hc : c.increment_in_flight e = .ok c') : Moved es e 1 c c' := by
  unfold increment_in_flight at hc
  obtain ⟨m, hm, hc⟩ := bind_eq_ok.mp hc
  obtain rfl := Except.ok.inj hc
  exact moved_of_modify h hm

theorem increment_in_flight_exists {c : Counters} (h : c.Hosts es) {e : Bytes} (he : e ∈ es) :
    ∃ c', c.increment_in_flight e = .ok c' := by
  obtain ⟨m, hm⟩ := h.counts.modify_exists he (· + 1)
  exact ⟨_, by unfold increment_in_flight; rw [hm]; rfl⟩

/-- **`decrement_in_flight`** succeeds on hosted endpoints only, and moves both counters down by
one. -/
theorem decrement_in_flight_spec {c c' : Counters} (h : c.Hosts es) {e : Bytes}
    (hc : c.decrement_in_flight e = .ok c') : Moved es e (-1) c c' := by
  unfold decrement_in_flight at hc
  obtain ⟨m, hm, hc⟩ := bind_eq_ok.mp hc
  obtain rfl := Except.ok.inj hc
  exact moved_of_modify h hm

theorem decrement_in_flight_exists {c : Counters} (h : c.Hosts es) {e : Bytes} (he : e ∈ es) :
    ∃ c', c.decrement_in_flight e = .ok c' := by
  obtain ⟨m, hm⟩ := h.counts.modify_exists he (· - 1)
  exact ⟨_, by unfold decrement_in_flight; rw [hm]; rfl⟩

/-- **`update_endpoint_limit`** changes that limit and nothing else, neither a counter nor the
global limit. -/
theorem update_endpoint_limit_spec {c c' : Counters} (h : c.Hosts es) {e : Bytes} {n : ℤ}
    (hc : c.update_endpoint_limit n e = .ok c') :
    e ∈ es ∧ c'.Hosts es ∧ (∀ e', c'.limit e' = if e' = e then n else c.limit e')
      ∧ c'.active = c.active ∧ c'.in_flight = c.in_flight ∧ c'.global_limit = c.global_limit := by
  unfold update_endpoint_limit at hc
  obtain ⟨m, hm, hc⟩ := bind_eq_ok.mp hc
  obtain rfl := Except.ok.inj hc
  obtain ⟨hmem, hhosts, hlookup, _, _⟩ := h.limits.modify hm
  refine ⟨hmem, ⟨h.counts, hhosts⟩, fun e' => ?_, rfl, rfl, rfl⟩
  unfold limit
  rw [hlookup]
  split_ifs with he
  · subst he
    obtain ⟨v, hv⟩ := h.limits.found e' hmem
    rw [hv]; rfl
  · rfl

theorem update_endpoint_limit_exists {c : Counters} (h : c.Hosts es) {e : Bytes} (he : e ∈ es)
    (n : ℤ) : ∃ c', c.update_endpoint_limit n e = .ok c' := by
  obtain ⟨m, hm⟩ := h.limits.modify_exists he fun _ => n
  exact ⟨_, by unfold update_endpoint_limit LocalMap.set; rw [hm]; rfl⟩

end Counters

namespace InnerCreditQueue

/-- The deque of an endpoint, oldest buffer first, and the empty one without an endpoint. -/
def queued (q : InnerCreditQueue β) (e : Bytes) : List β := (q.queue.lookup e).getD []

/-- The invariant of a level: its map is over the hosted endpoints, the iterator stands on one of
them, and `_size` counts the queued buffers. -/
structure Wf (es : List Bytes) (q : InnerCreditQueue β) : Prop where
  hosts : q.queue.Hosts es
  standing : q.queue.occupiedAt q.it = true
  size : q._size = ∑ e ∈ es.toFinset, (q.queued e).length

theorem queued_modify {q : InnerCreditQueue β} {m : LocalMap (List β)} {e : Bytes}
    {f : List β → List β} (he : e ∈ es) (hq : q.queue.Hosts es)
    (hlookup : ∀ e', m.lookup e' = if e' = e then (q.queue.lookup e).map f else q.queue.lookup e')
    (e' : Bytes) :
    (m.lookup e').getD [] = if e' = e then f (q.queued e') else q.queued e' := by
  rw [hlookup]
  unfold queued
  split_ifs with h
  · subst h
    obtain ⟨v, hv⟩ := hq.found e' he
    rw [hv]; rfl
  · rfl

/-- **`push`** succeeds on hosted endpoints only, and appends to that deque. The cursor stays. -/
theorem push_spec {q q' : InnerCreditQueue β} (h : q.Wf es) {b : β} {e : Bytes}
    (hq : q.push b e = .ok q') :
    e ∈ es ∧ q'.Wf es ∧ (∀ e', q'.queued e' = if e' = e then q.queued e' ++ [b] else q.queued e')
      ∧ q'.it = q.it ∧ q'._size = q._size + 1 := by
  unfold push at hq
  obtain ⟨m, hm, hq⟩ := bind_eq_ok.mp hq
  obtain rfl := Except.ok.inj hq
  obtain ⟨hmem, hhosts, hlookup, hocc, _⟩ := h.hosts.modify hm
  have hqueued : ∀ e', (m.lookup e').getD [] = if e' = e then q.queued e' ++ [b] else q.queued e' :=
    queued_modify (f := (· ++ [b])) hmem h.hosts hlookup
  refine ⟨hmem, ⟨hhosts, by rw [hocc]; exact h.standing, ?_⟩, hqueued, rfl, rfl⟩
  have hlen : ∀ e', ((m.lookup e').getD []).length
      = (q.queued e').length + if e' = e then 1 else 0 := by
    intro e'
    rw [hqueued]
    split_ifs <;> simp
  simp only [queued, hlen, Finset.sum_add_distrib, Finset.sum_ite_eq', List.mem_toFinset, hmem,
    if_true, h.size]

theorem push_exists {q : InnerCreditQueue β} (h : q.Wf es) (b : β) {e : Bytes} (he : e ∈ es) :
    ∃ q', q.push b e = .ok q' := by
  obtain ⟨m, hm⟩ := h.hosts.modify_exists he (· ++ [b])
  exact ⟨_, by unfold push; rw [hm]; rfl⟩

/-! ## The round-robin scan -/

/-- The endpoint `e` has a buffer and both limits leave room for it. -/
def Grantable (q : InnerCreditQueue β) (c : Counters) (e : Bytes) : Prop :=
  q.queued e ≠ [] ∧ c.active e < c.limit e ∧ c.in_flight < c.global_limit

instance (q : InnerCreditQueue β) (c : Counters) (e : Bytes) : Decidable (q.Grantable c e) := by
  unfold Grantable; exact instDecidableAnd

/-- Slot `x` is occupied and its endpoint can be served: it has a buffer, and the limits leave
room. -/
def servableAt (q : InnerCreditQueue β) (c : Counters) (x : ℕ) : Bool :=
  match q.queue.slots_[x]? with
  | some s => s.occupied && decide (q.Grantable c s.key)
  | none => false

theorem queued_key {q : InnerCreditQueue β} (h : q.queue.Hosts es) {x : ℕ}
    {s : LocalSlot (List β)} (hs : q.queue.slots_[x]? = some s) (hocc : s.occupied = true) :
    q.queued s.key = s.value := by
  unfold queued
  rw [(h.lookup_key hs hocc).2]
  rfl

/-- The test in the loop is `Grantable`, as the maps have all the endpoints. -/
theorem may_serve_eq {q : InnerCreditQueue β} {c : Counters} (h : q.queue.Hosts es)
    (hc : c.Hosts es) {x : ℕ} {s : LocalSlot (List β)} (hs : q.queue.slots_[x]? = some s)
    (hocc : s.occupied = true) : may_serve s c = .ok (decide (q.Grantable c s.key)) := by
  have hmem := (h.keys x s hs hocc).1
  have hiff : q.Grantable c s.key ↔ s.value ≠ [] ∧ c.active s.key < c.limit s.key
      ∧ c.in_flight < c.global_limit := by
    unfold Grantable; rw [queued_key h hs hocc]
  have hdecide : decide (q.Grantable c s.key) = decide (s.value ≠ []
      ∧ c.active s.key < c.limit s.key ∧ c.in_flight < c.global_limit) := decide_eq_decide.mpr hiff
  rw [hdecide]
  unfold may_serve
  rw [hc.counts.get hmem 0, hc.limits.get hmem 0]
  by_cases hv : s.value = []
  · simp [hv]
  · simp [hv, List.length_pos_of_ne_nil hv, Counters.active, Counters.limit]

/-- **The loop of `pop` is a round-robin search** over the slots: `cycleFind` on the slots that
can be served. The induction is on the fuel. -/
theorem popLoop_eq_cycleFind {q : InnerCreditQueue β} {c : Counters} (h : q.queue.Hosts es)
    (hc : c.Hosts es) {start : ℕ} {init : LocalSlot (List β)}
    (hstart : q.queue.slots_[start]? = some init) (hinit : init.occupied = true) :
    ∀ (fuel x : ℕ), q.queue.occupiedAt x = true →
      popLoop init.key c fuel { q with it := x }
        = match Circular.cycleFind q.queue.slots_.length q.queue.occupiedAt (q.servableAt c) start
            fuel x with
          | none => .error .diverges
          | some none => .ok (none, { q with it := start }, c)
          | some (some y) => do
              let slot ← q.queue.deref y
              { q with it := y }.serve slot c
  | 0, x, _ => rfl
  | fuel + 1, x, hx => by
      obtain ⟨s, hs, hocc⟩ := LocalMap.occupiedAt_iff.mp hx
      have hxlt : x < q.queue.slots_.length := (List.getElem?_eq_some_iff.mp hs).1
      have hservable : q.servableAt c x = decide (q.Grantable c s.key) := by
        unfold servableAt; rw [hs]; simp [hocc]
      have hnext := LocalMap.next_eq hxlt
      have hnextOcc : q.queue.occupiedAt (q.queue.next x) = true := by
        rw [hnext]
        exact Circular.nextFrom_holds (Circular.bump_lt (by omega) x) hxlt hx
      obtain ⟨t, ht, htocc⟩ := LocalMap.occupiedAt_iff.mp hnextOcc
      have hkey : t.key = init.key ↔ q.queue.next x = start := by
        constructor
        · intro hk; exact h.key_inj ht htocc hstart hinit hk
        · intro hk
          rw [hk] at ht
          rw [Option.some.inj (ht.symm.trans hstart)]
      unfold popLoop Circular.cycleFind
      simp only [LocalMap.deref, hs, ht, ok_bind, may_serve_eq h hc hs hocc, hservable]
      by_cases hg : q.Grantable c s.key
      · -- the queue under the iterator is served
        simp [hg, hs]
      · -- the iterator goes on; the loop ends at the key it began with, and no other slot has
        -- that key
        rw [← hnext]
        simp only [hg, decide_false, Bool.false_eq_true, if_false, hkey]
        by_cases hk : q.queue.next x = start
        · simp [hk]
        · simp only [hk, if_false]
          have hrec := popLoop_eq_cycleFind h hc hstart hinit fuel (q.queue.next x) hnextOcc
          simpa only [LocalMap.deref] using hrec

/-- Serving slot `y`, whose endpoint can be served: its oldest buffer comes out, and the counters
go up. -/
theorem serve_spec {q : InnerCreditQueue β} {c : Counters} (h : q.Wf es) (hc : c.Hosts es)
    {y : ℕ} {s : LocalSlot (List β)} (hs : q.queue.slots_[y]? = some s)
    (hocc : s.occupied = true) (hg : q.Grantable c s.key) :
    ∃ b rest q' c', { q with it := y }.serve s c = .ok (some b, q', c')
      ∧ q.queued s.key = b :: rest ∧ c.increment_in_flight s.key = .ok c'
      ∧ q'.Wf es ∧ q'._size + 1 = q._size
      ∧ ∀ e, q'.queued e = if e = s.key then (q.queued e).tail else q.queued e := by
  obtain ⟨hmem, _⟩ := h.hosts.keys y s hs hocc
  have hfind := (h.hosts.lookup_key hs hocc).1
  have hvalue := queued_key h.hosts hs hocc
  obtain ⟨c', hc'⟩ := Counters.increment_in_flight_exists hc hmem
  obtain ⟨b, rest, hline⟩ := List.exists_cons_of_ne_nil hg.1
  have hqueued : ∀ e, ((q.queue.update y List.tail).lookup e).getD []
      = if e = s.key then (q.queued e).tail else q.queued e :=
    queued_modify hmem h.hosts fun e => LocalMap.lookup_update hfind List.tail e
  have hylt : y < q.queue.slots_.length := (List.getElem?_eq_some_iff.mp hs).1
  have hlen : ∀ e, (q.queued e).length
      = (((q.queue.update y List.tail).lookup e).getD []).length + if e = s.key then 1 else 0 := by
    intro e
    rw [hqueued]
    split_ifs with he
    · rw [he, hline]; simp
    · simp
  -- one buffer less, in the line of the key
  have hsize : q._size = (∑ e ∈ es.toFinset,
      (((q.queue.update y List.tail).lookup e).getD []).length) + 1 := by
    rw [h.size, Finset.sum_congr rfl fun e _ => hlen e, Finset.sum_add_distrib]
    simp [hmem]
  refine ⟨b, rest, ⟨q.queue.update y List.tail, (q.queue.update y List.tail).next y,
    decSize q._size⟩, c', ?_, hline, hc', ⟨h.hosts.update y List.tail, ?_, ?_⟩, ?_, hqueued⟩
  · unfold serve
    rw [hc', ← hvalue, hline]
    rfl
  · have hylt' : y < (q.queue.update y List.tail).slots_.length := by
      rw [LocalMap.length_slots_update]; exact hylt
    rw [LocalMap.next_eq hylt', LocalMap.occupiedAt_update, LocalMap.length_slots_update]
    exact Circular.nextFrom_holds (Circular.bump_lt (by omega) y) hylt
      (LocalMap.occupiedAt_iff.mpr ⟨s, hs, hocc⟩)
  · simp only [queued, hsize, decSize]
    rw [if_neg (by omega)]
    omega
  · simp only [hsize, decSize]
    rw [if_neg (by omega)]
    omega

/-- A queued buffer of a hosted endpoint makes the level non-empty, so at size zero there is
none. -/
theorem Wf.queued_nil {q : InnerCreditQueue β} (h : q.Wf es) (hsize : q._size = 0) {e : Bytes}
    (he : e ∈ es) : q.queued e = [] := by
  have hsum := h.size.symm.trans hsize
  rw [Finset.sum_eq_zero_iff] at hsum
  exact List.length_eq_zero_iff.mp (hsum e (List.mem_toFinset.mpr he))

/-- Only occupied slots can be served, so the iterator stops at each of them. -/
theorem occupiedAt_of_servableAt {q : InnerCreditQueue β} {c : Counters} {x : ℕ}
    (hx : q.servableAt c x = true) : q.queue.occupiedAt x = true := by
  unfold servableAt at hx
  unfold LocalMap.occupiedAt
  split at hx <;> simp_all

/-- **`pop` serves the first slot that can be served**, counted from the iterator. -/
theorem pop_eq {q : InnerCreditQueue β} {c : Counters} (h : q.Wf es) (hc : c.Hosts es) :
    q.pop c
      = (match Circular.firstFrom q.queue.slots_.length (q.servableAt c) q.it with
        | none => .ok (none, q, c)
        | some d => do
            let slot ← q.queue.deref ((q.it + d) % q.queue.slots_.length)
            { q with it := (q.it + d) % q.queue.slots_.length }.serve slot c) := by
  obtain ⟨init, hinit, hinitOcc⟩ := LocalMap.occupiedAt_iff.mp h.standing
  have hlt : q.it < q.queue.slots_.length := (List.getElem?_eq_some_iff.mp hinit).1
  unfold pop
  by_cases hsize : q._size = 0
  · -- nothing is queued, so no slot can be served
    have hnone : Circular.firstFrom q.queue.slots_.length (q.servableAt c) q.it = none := by
      refine (Circular.firstFrom_eq_none hlt).mpr fun x _ => ?_
      by_contra hx
      rw [Bool.not_eq_false] at hx
      obtain ⟨s, hs, hocc⟩ := LocalMap.occupiedAt_iff.mp (occupiedAt_of_servableAt hx)
      have hg : q.Grantable c s.key := by simpa [servableAt, hs, hocc] using hx
      exact hg.1 (h.queued_nil hsize (h.hosts.keys _ s hs hocc).1)
    rw [if_pos hsize, hnone]
  · have hderef : q.queue.deref q.it = .ok init := by unfold LocalMap.deref; rw [hinit]
    have hloop :=
      popLoop_eq_cycleFind h.hosts hc hinit hinitOcc q.queue.slots_.length q.it h.standing
    rw [Circular.cycleFind_eq_firstFrom hlt h.standing (fun x => occupiedAt_of_servableAt)
      le_rfl] at hloop
    rw [if_neg hsize, hderef, ok_bind, hloop]
    cases Circular.firstFrom q.queue.slots_.length (q.servableAt c) q.it <;> rfl

/-- **`InnerCreditQueue::pop` is exact.** It returns nothing, and changes nothing, only when no
endpoint of the level can be served. Otherwise it returns the oldest buffer of an endpoint
that can, counts it, and takes it off that deque alone. -/
theorem pop_spec {q : InnerCreditQueue β} {c : Counters} (h : q.Wf es) (hc : c.Hosts es) :
    (q.pop c = .ok (none, q, c) ∧ ∀ e ∈ es, ¬ q.Grantable c e)
      ∨ ∃ e ∈ es, ∃ b rest q' c', q.pop c = .ok (some b, q', c') ∧ q.Grantable c e
        ∧ q.queued e = b :: rest ∧ c.increment_in_flight e = .ok c' ∧ q'.Wf es
        ∧ q'._size + 1 = q._size
        ∧ ∀ e', q'.queued e' = if e' = e then (q.queued e').tail else q.queued e' := by
  obtain ⟨init, hinit, _⟩ := LocalMap.occupiedAt_iff.mp h.standing
  have hlt : q.it < q.queue.slots_.length := (List.getElem?_eq_some_iff.mp hinit).1
  rw [pop_eq h hc]
  -- The loop of the source is one search around the slots: it stops at the first that can be
  -- served, or comes back to its start.
  cases hf : Circular.firstFrom q.queue.slots_.length (q.servableAt c) q.it with
  | none =>
      refine .inl ⟨rfl, fun e he hge => ?_⟩
      obtain ⟨i, s, _, hs, hocc, rfl⟩ := h.hosts.slot he
      have hnone := (Circular.firstFrom_eq_none hlt).mp hf i (List.getElem?_eq_some_iff.mp hs).1
      simp [servableAt, hs, hocc, hge] at hnone
  | some d =>
      obtain ⟨_, hserv, _⟩ := Circular.firstFrom_eq_some.mp hf
      obtain ⟨s, hs, hocc⟩ := LocalMap.occupiedAt_iff.mp (occupiedAt_of_servableAt hserv)
      have hge : q.Grantable c s.key := by
        simpa [servableAt, hs, hocc] using hserv
      obtain ⟨b, rest, q', c', hserve, hline, hc', hwf, hsz, hq'⟩ := serve_spec h hc hs hocc hge
      refine .inr ⟨s.key, (h.hosts.keys _ s hs hocc).1, b, rest, q', c', ?_, hge, hline, hc', hwf,
        hsz, hq'⟩
      have hderef : q.queue.deref ((q.it + d) % q.queue.slots_.length) = .ok s := by
        unfold LocalMap.deref; rw [hs]
      dsimp only
      rw [hderef, ok_bind]
      exact hserve

end InnerCreditQueue

end RlpSidecar
