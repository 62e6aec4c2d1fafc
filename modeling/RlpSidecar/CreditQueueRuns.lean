/-
Runs of the credit queue.

`apply` performs one public operation of `CreditQueue`; a step is an operation that returned,
with what it returned. `apply_refines` connects a step to the admission room below it, and
everything that is true of rooms becomes true of runs. What happens to the cursor, which rooms
know nothing of, is followed by `wait`: how many buffers the other priorities can still
be given before it is the turn of a priority that has one to give.

`create_spec` is the start of every run: the constructor, for a list of endpoints that is not
empty, gives a queue that is well formed and whose room is empty. `apply_total` is the other half
of what callers rely on: an operation on a hosted endpoint never aborts.
-/
import RlpSidecar.CreditQueueSpec
import RlpSidecar.Runs

set_option autoImplicit false

namespace RlpSidecar

namespace CreditQueue

variable {β : Type} {es : List Bytes}

/-! ## Operations -/

/-- A public operation of `CreditQueue` that changes it, with its arguments. -/
inductive Op (β : Type)
  | push (buffer : β) (endpoint : Bytes) (priority : Priority)
  | pop
  | increment_in_flight (api : Bytes)
  | decrement_in_flight (api : Bytes)
  | update_endpoint_limit (limit : ℤ) (api : Bytes)
  | update_global_limit (limit : ℤ)

/-- Performs an operation. Only `pop` returns a buffer, or none. -/
def apply (s : CreditQueue β) : Op β → Except Abort (Option β × CreditQueue β)
  | .push buffer endpoint priority => do .ok (none, ← s.push buffer endpoint priority)
  | .pop => s.pop
  | .increment_in_flight api => do .ok (none, ← s.increment_in_flight api)
  | .decrement_in_flight api => do .ok (none, ← s.decrement_in_flight api)
  | .update_endpoint_limit limit api => do .ok (none, ← s.update_endpoint_limit limit api)
  | .update_global_limit limit => .ok (none, s.update_global_limit limit)

/-- An operation that returned, with what it returned; one that ends the process is no step. -/
def Step (s : CreditQueue β) (l : Op β × Option β) (s' : CreditQueue β) : Prop :=
  s.apply l.1 = .ok (l.2, s')

/-- Performs an operation and labels the step with it and its result. -/
def next (s : CreditQueue β) (op : Op β) : Except Abort ((Op β × Option β) × CreditQueue β) := do
  let (r, t) ← s.apply op
  .ok ((op, r), t)

theorem step_of_next {s t : CreditQueue β} {op : Op β} {l : Op β × Option β}
    (h : s.next op = .ok (l, t)) : Step s l t ∧ l.1 = op := by
  obtain ⟨⟨r, u⟩, hr, h⟩ := bind_eq_ok.mp h
  obtain ⟨rfl, rfl⟩ := Prod.mk.inj (Except.ok.inj h)
  exact ⟨hr, rfl⟩

/-- The operation names a hosted endpoint and an existing priority, as far as it names any. -/
def Op.Valid (es : List Bytes) : Op β → Prop
  | .push _ endpoint priority => endpoint ∈ es ∧ priority.toSize < PriorityCount
  | .increment_in_flight api | .decrement_in_flight api | .update_endpoint_limit _ api => api ∈ es
  | .pop | .update_global_limit _ => True

/-- The event of the room behind an operation and its result; `none` when a pop returns
nothing. -/
inductive Observes : Op β → Option β →
    Option (Admission.Room.Event (Fin PriorityCount) Bytes β) → Prop
  | push (b : β) (e : Bytes) (priority : Priority) (p : Fin PriorityCount)
      (hp : priority.toSize = p.val) :
      Observes (.push b e priority) none (some (.enqueue p e b))
  | pop (b : β) (p : Fin PriorityCount) (e : Bytes) : Observes .pop (some b) (some (.grant p e b))
  | pop_none : Observes .pop none none
  | increment (e : Bytes) : Observes (.increment_in_flight e) none (some (.acquire e))
  | decrement (e : Bytes) : Observes (.decrement_in_flight e) none (some (.release e))
  | endpoint_limit (n : ℤ) (e : Bytes) :
      Observes (.update_endpoint_limit n e) none (some (.setCap e n))
  | global_limit (n : ℤ) : Observes (.update_global_limit n) none (some (.setTotalCap n))

/-- What a step is on the view: the observed event, on a hosted endpoint, or nothing. -/
def Refines (es : List Bytes) (s s' : CreditQueue β) :
    Option (Admission.Room.Event (Fin PriorityCount) Bytes β) → Prop
  | none => s'.view = s.view
  | some ev => Admission.Room.Step s.view ev s'.view ∧ ∀ e, ev.endpoint? = some e → e ∈ es

/-! ## Each operation -/

theorem push_spec {s s' : CreditQueue β} (h : s.Wf es) {b : β} {e : Bytes} {priority : Priority}
    (hs : s.push b e priority = .ok s') :
    ∃ p : Fin PriorityCount, priority.toSize = p.val ∧ e ∈ es ∧ s'.Wf es
      ∧ s'.view = s.view.enqueue p e b ∧ s'.it = s.it
      ∧ s'.remaining_rounds = s.remaining_rounds := by
  unfold push at hs
  obtain ⟨level, hlevel, hs⟩ := bind_eq_ok.mp hs
  obtain ⟨q, hq, hs⟩ := bind_eq_ok.mp hs
  obtain rfl := Except.ok.inj hs
  obtain ⟨p, hp, rfl⟩ := levelAt_eq_ok hlevel
  obtain ⟨hmem, hwf, hqueued, _, hsize⟩ := InnerCreditQueue.push_spec (h.levels p) hq
  -- one line of one class gets longer
  have hview : (⟨setLevel s.credit_queue priority.toSize q, s.it, s.remaining_rounds, s._size + 1,
      s.counters⟩ : CreditQueue β).view = s.view.enqueue p e b := by
    apply Admission.Room.ext
    · funext p' e'
      simp only [view, Admission.Room.enqueue, hp, setLevel_apply]
      by_cases hp' : p' = p
      · subst hp'; simp only [if_true, hqueued, true_and]
      · simp only [hp', if_false, false_and]
    all_goals rfl
  refine ⟨p, hp, hmem, ⟨fun i => ?_, h.counters, h.cursor, ?_, ?_⟩, hview, rfl, rfl⟩
  · simp only [hp, setLevel_apply]
    split_ifs
    · exact hwf
    · exact h.levels i
  · -- the total size goes up with that of the level
    have hsum := sum_setLevel (a := s.credit_queue) (p := p) (q := q)
    have hold := h.size
    simp only [hp]
    omega
  · rw [hview]
    exact h.balanced

/-- An operation on the counters alone keeps the invariant, given what it does on the view. -/
theorem counters_spec {s : CreditQueue β} (h : s.Wf es) {c : Counters} (hc : c.Hosts es)
    {ev : Admission.Room.Event (Fin PriorityCount) Bytes β}
    (hstep : Admission.Room.Step s.view ev ({ s with counters := c } : CreditQueue β).view)
    (hev : ∀ e, ev.endpoint? = some e → e ∈ es) :
    ({ s with counters := c } : CreditQueue β).Wf es :=
  ⟨h.levels, hc, h.cursor, h.size,
    hstep.balanced (fun e he => List.mem_toFinset.mpr (hev e he)) h.balanced⟩

theorem increment_in_flight_spec {s s' : CreditQueue β} (h : s.Wf es) {e : Bytes}
    (hs : s.increment_in_flight e = .ok s') :
    e ∈ es ∧ s'.Wf es ∧ s'.view = s.view.acquire e ∧ s'.it = s.it
      ∧ s'.remaining_rounds = s.remaining_rounds := by
  unfold increment_in_flight at hs
  obtain ⟨c, hc, hs⟩ := bind_eq_ok.mp hs
  obtain rfl := Except.ok.inj hs
  have hm := Counters.increment_in_flight_spec h.counters hc
  have hview : ({ s with counters := c } : CreditQueue β).view = s.view.acquire e :=
    Admission.Room.ext rfl (funext hm.active) hm.limit hm.in_flight hm.global_limit
  have hstep := Admission.Room.Step.acquire s.view e
  rw [← hview] at hstep
  exact ⟨hm.mem, counters_spec h hm.hosts hstep (by rintro _ ⟨⟩; exact hm.mem), hview, rfl, rfl⟩

theorem decrement_in_flight_spec {s s' : CreditQueue β} (h : s.Wf es) {e : Bytes}
    (hs : s.decrement_in_flight e = .ok s') :
    e ∈ es ∧ s'.Wf es ∧ s'.view = s.view.release e ∧ s'.it = s.it
      ∧ s'.remaining_rounds = s.remaining_rounds := by
  unfold decrement_in_flight at hs
  obtain ⟨c, hc, hs⟩ := bind_eq_ok.mp hs
  obtain rfl := Except.ok.inj hs
  have hm := Counters.decrement_in_flight_spec h.counters hc
  have hview : ({ s with counters := c } : CreditQueue β).view = s.view.release e :=
    Admission.Room.ext rfl (funext hm.active) hm.limit hm.in_flight hm.global_limit
  have hstep := Admission.Room.Step.release s.view e
  rw [← hview] at hstep
  exact ⟨hm.mem, counters_spec h hm.hosts hstep (by rintro _ ⟨⟩; exact hm.mem), hview, rfl, rfl⟩

theorem update_endpoint_limit_spec {s s' : CreditQueue β} (h : s.Wf es) {n : ℤ} {e : Bytes}
    (hs : s.update_endpoint_limit n e = .ok s') :
    e ∈ es ∧ s'.Wf es ∧ s'.view = s.view.setCap e n ∧ s'.it = s.it
      ∧ s'.remaining_rounds = s.remaining_rounds := by
  unfold update_endpoint_limit at hs
  obtain ⟨c, hc, hs⟩ := bind_eq_ok.mp hs
  obtain rfl := Except.ok.inj hs
  obtain ⟨hmem, hhosts, hlimit, hactive, hin, hglobal⟩ :=
    Counters.update_endpoint_limit_spec h.counters hc
  have hview : ({ s with counters := c } : CreditQueue β).view = s.view.setCap e n :=
    Admission.Room.ext rfl hactive (funext hlimit) hin hglobal
  have hstep := Admission.Room.Step.setCap s.view e n
  rw [← hview] at hstep
  exact ⟨hmem, counters_spec h hhosts hstep (by rintro _ ⟨⟩; exact hmem), hview, rfl, rfl⟩

theorem update_global_limit_spec {s : CreditQueue β} (h : s.Wf es) (n : ℤ) :
    (s.update_global_limit n).Wf es ∧ (s.update_global_limit n).view = s.view.setTotalCap n :=
  ⟨⟨h.levels, ⟨h.counters.counts, h.counters.limits⟩, h.cursor, h.size, h.balanced⟩, rfl⟩

theorem Popped.refines {s s' : CreditQueue β} (h : s.Wf es) {p : Fin PriorityCount}
    {r : Option β} (hp : Popped es s p r s') :
    s'.Wf es ∧ ∃ ev, Observes .pop r ev ∧ Refines es s s' ev := by
  have hserves : ∀ {q r e b}, Serves es s q r e b s' →
      s'.Wf es ∧ ∃ ev, Observes .pop (some b) ev ∧ Refines es s s' ev := by
    intro q r e b hq
    obtain ⟨rest, hline⟩ := hq.line
    refine ⟨hq.wf, some (.grant q e b), .pop b q e, ?_, by rintro _ ⟨⟩; exact hq.mem⟩
    rw [hq.view]
    exact .grant s.view q e b rest hline hq.ready
  cases hp with
  | idle => exact ⟨h, none, .pop_none, rfl⟩
  | missed => exact ⟨moveTo_wf h p, none, .pop_none, rfl⟩
  | here hs => exact hserves hs
  | later q _ _ hs => exact hserves hs

/-- **Refinement**: an operation that returns keeps the invariant and is one event of the room,
or no event when a pop returns nothing. -/
theorem apply_refines {s s' : CreditQueue β} (h : s.Wf es) {op : Op β} {r : Option β}
    (hs : s.apply op = .ok (r, s')) :
    s'.Wf es ∧ ∃ ev, Observes op r ev ∧ Refines es s s' ev := by
  -- each operation of the code is an event of the room, which the spec of its function names
  cases op with
  | push b e priority =>
      obtain ⟨t, ht, hs⟩ := bind_eq_ok.mp hs
      obtain ⟨rfl, rfl⟩ := Prod.mk.inj (Except.ok.inj hs)
      obtain ⟨p, hp, hmem, hwf, hview, _⟩ := push_spec h ht
      refine ⟨hwf, _, .push b e priority p hp, ?_, by rintro _ ⟨⟩; exact hmem⟩
      rw [hview]
      exact .enqueue s.view p e b
  | pop =>
      obtain ⟨p, r', t, _, hpop, hpopped⟩ := pop_spec h
      obtain ⟨rfl, rfl⟩ := Prod.mk.inj (Except.ok.inj (hpop.symm.trans hs))
      exact hpopped.refines h
  | increment_in_flight e =>
      obtain ⟨t, ht, hs⟩ := bind_eq_ok.mp hs
      obtain ⟨rfl, rfl⟩ := Prod.mk.inj (Except.ok.inj hs)
      obtain ⟨hmem, hwf, hview, _⟩ := increment_in_flight_spec h ht
      refine ⟨hwf, _, .increment e, ?_, by rintro _ ⟨⟩; exact hmem⟩
      rw [hview]
      exact .acquire s.view e
  | decrement_in_flight e =>
      obtain ⟨t, ht, hs⟩ := bind_eq_ok.mp hs
      obtain ⟨rfl, rfl⟩ := Prod.mk.inj (Except.ok.inj hs)
      obtain ⟨hmem, hwf, hview, _⟩ := decrement_in_flight_spec h ht
      refine ⟨hwf, _, .decrement e, ?_, by rintro _ ⟨⟩; exact hmem⟩
      rw [hview]
      exact .release s.view e
  | update_endpoint_limit n e =>
      obtain ⟨t, ht, hs⟩ := bind_eq_ok.mp hs
      obtain ⟨rfl, rfl⟩ := Prod.mk.inj (Except.ok.inj hs)
      obtain ⟨hmem, hwf, hview, _⟩ := update_endpoint_limit_spec h ht
      refine ⟨hwf, _, .endpoint_limit n e, ?_, by rintro _ ⟨⟩; exact hmem⟩
      rw [hview]
      exact .setCap s.view e n
  | update_global_limit n =>
      obtain ⟨rfl, rfl⟩ := Prod.mk.inj (Except.ok.inj hs)
      obtain ⟨hwf, hview⟩ := update_global_limit_spec h n
      refine ⟨hwf, _, .global_limit n, ?_, by rintro _ ⟨⟩⟩
      rw [hview]
      exact .setTotalCap s.view n

/-- Only a pop returns a buffer, moves the cursor or uses up the budget of a level. -/
theorem apply_cursor {s s' : CreditQueue β} (h : s.Wf es) {op : Op β} {r : Option β}
    (hs : s.apply op = .ok (r, s')) :
    op = .pop ∨ (r = none ∧ s'.it = s.it ∧ s'.remaining_rounds = s.remaining_rounds) := by
  -- by the spec of each function, which leaves the cursor alone
  cases op with
  | pop => exact .inl rfl
  | push b e priority =>
      obtain ⟨t, ht, hs⟩ := bind_eq_ok.mp hs
      obtain ⟨rfl, rfl⟩ := Prod.mk.inj (Except.ok.inj hs)
      obtain ⟨_, _, _, _, _, hit, hrounds⟩ := push_spec h ht
      exact .inr ⟨rfl, hit, hrounds⟩
  | increment_in_flight e =>
      obtain ⟨t, ht, hs⟩ := bind_eq_ok.mp hs
      obtain ⟨rfl, rfl⟩ := Prod.mk.inj (Except.ok.inj hs)
      obtain ⟨_, _, _, hit, hrounds⟩ := increment_in_flight_spec h ht
      exact .inr ⟨rfl, hit, hrounds⟩
  | decrement_in_flight e =>
      obtain ⟨t, ht, hs⟩ := bind_eq_ok.mp hs
      obtain ⟨rfl, rfl⟩ := Prod.mk.inj (Except.ok.inj hs)
      obtain ⟨_, _, _, hit, hrounds⟩ := decrement_in_flight_spec h ht
      exact .inr ⟨rfl, hit, hrounds⟩
  | update_endpoint_limit n e =>
      obtain ⟨t, ht, hs⟩ := bind_eq_ok.mp hs
      obtain ⟨rfl, rfl⟩ := Prod.mk.inj (Except.ok.inj hs)
      obtain ⟨_, _, _, hit, hrounds⟩ := update_endpoint_limit_spec h ht
      exact .inr ⟨rfl, hit, hrounds⟩
  | update_global_limit n =>
      obtain ⟨rfl, rfl⟩ := Prod.mk.inj (Except.ok.inj hs)
      exact .inr ⟨rfl, rfl, rfl⟩

/-- **No operation on a hosted endpoint aborts**, whatever the state of the queue. -/
theorem apply_total {s : CreditQueue β} (h : s.Wf es) {op : Op β} (hop : op.Valid es) :
    ∃ r s', s.apply op = .ok (r, s') := by
  cases op with
  | push b e priority =>
      obtain ⟨he, hp⟩ := hop
      obtain ⟨q, hq⟩ := InnerCreditQueue.push_exists (h.levels ⟨_, hp⟩) b he
      have hpush : s.push b e priority = .ok ⟨setLevel s.credit_queue priority.toSize q, s.it,
          s.remaining_rounds, s._size + 1, s.counters⟩ := by
        simp only [push, levelAt, dif_pos hp, ok_bind, hq]
      exact ⟨none, _, by simp only [apply, hpush, ok_bind]; rfl⟩
  | pop =>
      obtain ⟨_, r, s', _, hpop, _⟩ := pop_spec h
      exact ⟨r, s', hpop⟩
  | increment_in_flight e =>
      obtain ⟨c, hc⟩ := Counters.increment_in_flight_exists h.counters hop
      exact ⟨none, _, by simp only [apply, increment_in_flight, hc, ok_bind]; rfl⟩
  | decrement_in_flight e =>
      obtain ⟨c, hc⟩ := Counters.decrement_in_flight_exists h.counters hop
      exact ⟨none, _, by simp only [apply, decrement_in_flight, hc, ok_bind]; rfl⟩
  | update_endpoint_limit n e =>
      obtain ⟨c, hc⟩ := Counters.update_endpoint_limit_exists h.counters hop n
      exact ⟨none, _, by simp only [apply, update_endpoint_limit, hc, ok_bind]; rfl⟩
  | update_global_limit n => exact ⟨none, _, rfl⟩

/-! ## Construction -/

/-- The constructor's loop aborts on a key either map does not find. -/
theorem initCounters_found {limit : ℤ} : ∀ {keys : List Bytes} {c c' : Counters},
    keys.foldlM (initCounters limit) c = .ok c' →
      ∀ e ∈ keys, ∃ i, c.in_flight_per_endpoint.find_ptr e = .ok (some i)
  | [], _, _, _, e, he => by simp at he
  | k :: keys, c, c', h, e, he => by
      rw [List.foldlM_cons] at h
      obtain ⟨c₁, hk, hrest⟩ := bind_eq_ok.mp h
      unfold initCounters at hk
      obtain ⟨counts, hcounts, hk⟩ := bind_eq_ok.mp hk
      obtain ⟨limits, _, hk⟩ := bind_eq_ok.mp hk
      obtain rfl := Except.ok.inj hk
      obtain ⟨i, hi, rfl⟩ := LocalMap.modify_eq_ok hcounts
      rcases List.mem_cons.mp he with rfl | he
      · exact ⟨i, hi⟩
      · obtain ⟨j, hj⟩ := initCounters_found hrest e he
        exact ⟨j, by rwa [LocalMap.find_ptr_update] at hj⟩

/-- Over maps that host the endpoints, the loop sets every count to zero and the limits it has
come to. -/
theorem initCounters_spec {limit : ℤ} : ∀ {keys : List Bytes} {c c' : Counters},
    c.Hosts es → (∀ e, c.active e = 0) → keys.foldlM (initCounters limit) c = .ok c' →
      c'.Hosts es ∧ (∀ e, c'.active e = 0) ∧ c'.in_flight = c.in_flight
        ∧ ∀ e, e ∈ keys ∨ c.limit e = limit → c'.limit e = limit
  | [], c, c', hc, hactive, h => by
      obtain rfl := Except.ok.inj h
      exact ⟨hc, hactive, rfl, fun e he => he.resolve_left (by simp)⟩
  | k :: keys, c, c', hc, hactive, h => by
      rw [List.foldlM_cons] at h
      obtain ⟨c₁, hk, hrest⟩ := bind_eq_ok.mp h
      unfold initCounters at hk
      obtain ⟨counts, hcounts, hk⟩ := bind_eq_ok.mp hk
      obtain ⟨limits, hlimits, hk⟩ := bind_eq_ok.mp hk
      obtain rfl := Except.ok.inj hk
      obtain ⟨hmem, hhosts, hlookup, _, _⟩ := hc.counts.modify hcounts
      obtain ⟨_, hhosts', hlookup', _, _⟩ := hc.limits.modify hlimits
      have hactive' : ∀ e, (⟨c.in_flight, c.global_limit, counts, limits⟩ : Counters).active e
          = 0 := by
        intro e
        unfold Counters.active
        dsimp only
        rw [hlookup]
        split_ifs with he
        · obtain ⟨v, hv⟩ := hc.counts.found k hmem
          rw [hv]; rfl
        · exact hactive e
      -- the rest of the endpoints, from counters that satisfy the same again
      obtain ⟨h1, h2, h3, h4⟩ := initCounters_spec ⟨hhosts, hhosts'⟩ hactive' hrest
      refine ⟨h1, h2, h3, fun e he => h4 e ?_⟩
      unfold Counters.limit
      dsimp only
      rw [hlookup']
      -- a limit that was set before stays, also if the endpoint comes twice
      rcases he with he | he
      · rcases List.mem_cons.mp he with rfl | he
        · right
          obtain ⟨v, hv⟩ := hc.limits.found e hmem
          rw [if_pos rfl, hv]; rfl
        · exact .inl he
      · right
        split_ifs with hek
        · obtain ⟨v, hv⟩ := hc.limits.found k hmem
          rw [hv]; rfl
        · exact he

/-- What the constructor leaves: the cursor on the first level, nothing queued, nothing in
flight, and the configured limits. -/
structure Fresh (config : LimitConfig) (es : List Bytes) (s : CreditQueue β) : Prop where
  wf : s.Wf es
  waiting : ∀ p e, s.view.waiting p e = []
  active : ∀ e, s.view.active e = 0
  total : s.view.total = 0
  cap : ∀ e ∈ es, s.view.cap e = config.cpu_count * 2 + config.extra_limit
  totalCap : s.view.totalCap = initialGlobalLimit config es.length
  it : s.it = 0
  rounds : s.remaining_rounds = 16

/-- The value under a key of a freshly built map, which is the one it was built with. -/
theorem lookup_ofKeys {T : Type} {value : T} {m : LocalMap T} (h : LocalMap.ofKeys es value = .ok m)
    (hm : m.Hosts es) (hlen : ∀ e ∈ es, 0 < e.length ∧ e.length < 2 ^ 32) (e : Bytes) :
    (m.lookup e).getD value = value := by
  obtain ⟨_, hnil | hvalues⟩ := LocalMap.ofKeys_spec h
  · rw [LocalMap.lookup_of_no_slots hnil]; rfl
  · by_cases he : e ∈ es
    · rw [hvalues e he (hlen e he).1 (hlen e he).2]; rfl
    · cases hv : m.lookup e with
      | none => rfl
      | some v =>
          obtain ⟨i, _, hi, _⟩ := LocalMap.lookup_eq_some.mp hv
          exact absurd (hm.mem_of_find_ptr hi) he

/-- A level whose map found room for its endpoints starts well-formed and empty. -/
theorem created_level_wf {queue : LocalMap (List β)} (hqueue : LocalMap.ofKeys es [] = .ok queue)
    (hlen : ∀ e ∈ es, 0 < e.length ∧ e.length < 2 ^ 32) (hslots : queue.slots_ ≠ []) :
    (⟨queue, queue.begin_, 0⟩ : InnerCreditQueue β).Wf es := by
  have hhosts := LocalMap.Hosts.of_ofKeys hqueue hlen hslots
  have hempty : ∀ e, (queue.lookup e).getD [] = [] := fun e => lookup_ofKeys hqueue hhosts hlen e
  have hne : es ≠ [] := by
    rintro rfl
    obtain rfl := Except.ok.inj hqueue
    exact hslots rfl
  have hstanding : queue.occupiedAt queue.begin_ = true := by
    obtain ⟨e, he⟩ := List.exists_mem_of_ne_nil es hne
    obtain ⟨i, t, _, ht, hocc, _⟩ := hhosts.slot he
    have hi : i < queue.slots_.length := (List.getElem?_eq_some_iff.mp ht).1
    unfold LocalMap.begin_
    rw [LocalMap.skip_empty_eq (by omega)]
    exact Circular.nextFrom_holds (by omega) hi (LocalMap.occupiedAt_iff.mpr ⟨t, ht, hocc⟩)
  exact ⟨hhosts, hstanding, by simp [InnerCreditQueue.queued, hempty]⟩

/-- **The constructor establishes the invariant**, for any list of endpoints it accepts but the
empty one. -/
theorem create_spec {config : LimitConfig} {s : CreditQueue β} (hne : es ≠ [])
    (h : create config es = .ok s) : Fresh config es s := by
  unfold create at h
  obtain ⟨level, hlevel, h⟩ := bind_eq_ok.mp h
  obtain ⟨counts, hcounts, h⟩ := bind_eq_ok.mp h
  obtain ⟨limits, hlimits, h⟩ := bind_eq_ok.mp h
  obtain ⟨c, hc, h⟩ := bind_eq_ok.mp h
  obtain rfl := Except.ok.inj h
  unfold InnerCreditQueue.create at hlevel
  obtain ⟨queue, hqueue, hlevel⟩ := bind_eq_ok.mp hlevel
  obtain rfl := Except.ok.inj hlevel
  -- the loop found every endpoint, so the maps have slots and the names fit
  have hfound := initCounters_found hc
  have hlen : ∀ e ∈ es, 0 < e.length ∧ e.length < 2 ^ 32 := by
    intro e he
    obtain ⟨i, hi⟩ := hfound e he
    exact LocalMap.length_of_find_ptr hi
  have hslots : counts.slots_ ≠ [] := by
    obtain ⟨e, he⟩ := List.exists_mem_of_ne_nil es hne
    obtain ⟨i, hi⟩ := hfound e he
    obtain ⟨t, ht, _⟩ := LocalMap.find_ptr_eq_some hi
    rintro hnil
    rw [hnil] at ht
    simp at ht
  have hcountsHosts := LocalMap.Hosts.of_ofKeys hcounts hlen hslots
  have hlimitsHosts := LocalMap.Hosts.of_ofKeys hlimits hlen
    (fun hnil => hslots ((LocalMap.slots_nil_iff hcounts hlimits).mpr hnil))
  have hzero : ∀ e, (⟨0, 0, counts, limits⟩ : Counters).active e = 0 :=
    fun e => lookup_ofKeys hcounts hcountsHosts hlen e
  obtain ⟨hhosts, hactive, hin, hlimit⟩ :=
    initCounters_spec ⟨hcountsHosts, hlimitsHosts⟩ hzero hc
  have hwf : (⟨queue, queue.begin_, 0⟩ : InnerCreditQueue β).Wf es :=
    created_level_wf hqueue hlen
      (fun hnil => hslots ((LocalMap.slots_nil_iff hcounts hqueue).mpr hnil))
  have hempty : ∀ e, (queue.lookup e).getD [] = [] := fun e => lookup_ofKeys hqueue hwf.hosts hlen e
  refine ⟨⟨fun _ => hwf, ⟨hhosts.counts, hhosts.limits⟩,
    ⟨0, rfl, one_le_weights 0, le_rfl⟩, by simp,
    ?_⟩, fun _ e => hempty e, hactive, hin, fun e he => hlimit e (.inl he), rfl, rfl, rfl⟩
  have hsum : ∑ e ∈ es.toFinset, c.active e = 0 := Finset.sum_eq_zero fun e _ => hactive e
  exact hin.trans hsum.symm

/-! ## Along a run -/

open Runs

/-- The invariant holds before and after every step of a run, and not only at its end. -/
theorem wf_of_mem {s s' : CreditQueue β} {ts : List (Transition (CreditQueue β) (Op β × Option β))}
    (h : Exec Step s ts s') (hs : s.Wf es) {t : Transition (CreditQueue β) (Op β × Option β)}
    (ht : t ∈ ts) : t.pre.Wf es ∧ t.post.Wf es :=
  h.invariant_of_mem (Wf es) (fun _ _ hpre hstep => (apply_refines hpre hstep).1) hs ht

theorem wf_of_exec {s s' : CreditQueue β} {ts : List (Transition (CreditQueue β) (Op β × Option β))}
    (h : Exec Step s ts s') (hs : s.Wf es) : s'.Wf es :=
  h.invariant (Wf es) (fun _ _ hpre hstep => (apply_refines hpre hstep).1) hs

/-- Any sequence of operations on hosted endpoints runs to its end: none of them ends the
process. -/
theorem exec_total {s : CreditQueue β} (hs : s.Wf es) :
    ∀ {ops : List (Op β)}, (∀ op ∈ ops, op.Valid es) →
      ∃ ts s', Exec Step s ts s' ∧ ts.map (fun t => t.label.1) = ops := by
  intro ops
  induction ops generalizing s with
  | nil => intro _; exact ⟨[], s, .nil s, rfl⟩
  | cons op ops ih =>
      intro hops
      obtain ⟨r, t, ht⟩ := apply_total hs (hops op List.mem_cons_self)
      obtain ⟨ts, s', hexec, hlabels⟩ := ih (apply_refines hs ht).1
        fun op' hop' => hops op' (List.mem_cons_of_mem _ hop')
      refine ⟨⟨s, (op, r), t⟩ :: ts, s', .cons ht hexec, ?_⟩
      rw [List.map_cons, hlabels]

end CreditQueue

end RlpSidecar
