/-
`CreditQueue` refines an admission room.

`view` forgets the cursors, sizes and maps. Every operation that returns keeps the
invariant `Wf` and is, on the view, exactly one event of the room or nothing at all
(`apply_refines`). What `pop` does to the cursor is in `pop_spec`, the inversion lemma
every fairness argument starts from.

The invariant `Wf` has the maps of the three levels over one list of endpoints, the sizes that are
kept twice, and the range of the cursor and of its budget. `Popped` lists what a pop can come to:
nothing at all, since nothing is queued or the global limit is reached; nothing after a full turn
of the cursor; or a buffer of the level under the cursor or of a later one, with nothing to serve
on the levels in between.
-/
import RlpSidecar.Admission
import RlpSidecar.InnerQueueSpec

set_option autoImplicit false

namespace RlpSidecar

namespace CreditQueue

variable {β : Type} {es : List Bytes}

/-- The queue without its cursors: three classes, one line per endpoint, and the counters with
their limits. -/
def view (s : CreditQueue β) : Admission.Room (Fin PriorityCount) Bytes β :=
  { waiting := fun p e => (s.credit_queue p).queued e
    active := s.counters.active
    cap := s.counters.limit
    total := s.counters.in_flight
    totalCap := s.counters.global_limit }

/-- **The invariant**: the levels and counters are over the hosted endpoints, the cursor stands
on a level with between one and its weight rounds left, and the redundant counts agree. -/
structure Wf (es : List Bytes) (s : CreditQueue β) : Prop where
  levels : ∀ p, (s.credit_queue p).Wf es
  counters : s.counters.Hosts es
  cursor : ∃ p : Fin PriorityCount,
    s.it = p.val ∧ 1 ≤ s.remaining_rounds ∧ s.remaining_rounds ≤ weights p
  size : s._size = ∑ p, (s.credit_queue p)._size
  balanced : s.view.Balanced es.toFinset

/-- Priority `q` has a request that may be granted: some hosted service under its limit has a
queued buffer, and the global limit leaves room. -/
def HasGrantable (es : List Bytes) (q : Fin PriorityCount) (s : CreditQueue β) : Prop :=
  ∃ e ∈ es, (s.credit_queue q).queued e ≠ [] ∧ s.counters.active e < s.counters.limit e
    ∧ s.counters.in_flight < s.counters.global_limit

instance (q : Fin PriorityCount) (s : CreditQueue β) : Decidable (HasGrantable es q s) := by
  unfold HasGrantable; infer_instance

theorem one_le_weights : ∀ p : Fin PriorityCount, 1 ≤ weights p := by decide

theorem levelAt_val {α : Type} (a : Fin PriorityCount → α) (p : Fin PriorityCount) :
    levelAt a p.val = .ok (a p) := by
  unfold levelAt; rw [dif_pos p.isLt]

theorem levelAt_eq_ok {α : Type} {a : Fin PriorityCount → α} {i : ℕ} {v : α}
    (h : levelAt a i = .ok v) : ∃ p : Fin PriorityCount, i = p.val ∧ v = a p := by
  unfold levelAt at h
  split_ifs at h with hi
  exact ⟨⟨i, hi⟩, rfl, (Except.ok.inj h).symm⟩

theorem setLevel_apply {α : Type} (a : Fin PriorityCount → α) (p q : Fin PriorityCount) (v : α) :
    setLevel a p.val v q = if q = p then v else a q := by
  unfold setLevel
  exact if_congr Fin.val_inj rfl rfl

theorem setLevel_self {α : Type} (a : Fin PriorityCount → α) (p : Fin PriorityCount) :
    setLevel a p.val (a p) = a := by
  funext q
  rw [setLevel_apply]
  split_ifs with h
  · rw [h]
  · rfl

/-- A queue whose levels differ at `p` only, by a given amount. -/
theorem sum_setLevel {a : Fin PriorityCount → InnerCreditQueue β} {p : Fin PriorityCount}
    {q : InnerCreditQueue β} :
    (∑ i, (setLevel a p.val q i)._size) + (a p)._size = (∑ i, (a i)._size) + q._size := by
  have hupd : (fun i => (setLevel a p.val q i)._size)
      = Function.update (fun i => (a i)._size) p q._size := by
    funext i
    rw [setLevel_apply, Function.update_apply]
    split_ifs <;> rfl
  have herase := Finset.add_sum_erase Finset.univ (fun i => (a i)._size) (Finset.mem_univ p)
  rw [hupd, Finset.sum_update_of_mem (Finset.mem_univ p), Finset.sdiff_singleton_eq_erase]
  omega

/-! ## Moving the cursor -/

/-- The cursor on level `p` with a full budget, as `advance_it` leaves it. -/
def moveTo (s : CreditQueue β) (p : Fin PriorityCount) : CreditQueue β :=
  { s with it := p.val, remaining_rounds := weights p }

theorem advance_eq {s : CreditQueue β} {p : Fin PriorityCount} (hp : s.it = p.val) :
    s.advance = .ok (s.moveTo (p + 1)) := by
  have hval : (s.it + 1) % PriorityCount = (p + 1).val := by rw [hp, Fin.val_add]; rfl
  unfold advance moveTo
  simp only [hval, levelAt_val, ok_bind]

/-- Where the cursor stands, and with how many rounds, after a level with `r` rounds left has
given a buffer. -/
def spend (p : Fin PriorityCount) (r : ℕ) : Fin PriorityCount × ℕ :=
  if r = 1 then (p + 1, weights (p + 1)) else (p, r - 1)

/-- The queue after level `p` has given a buffer and become `q`. -/
def served (s : CreditQueue β) (p : Fin PriorityCount) (q : InnerCreditQueue β) (c : Counters) :
    CreditQueue β :=
  { credit_queue := setLevel s.credit_queue p.val q
    it := (spend p s.remaining_rounds).1.val
    remaining_rounds := (spend p s.remaining_rounds).2
    _size := decSize s._size
    counters := c }

theorem spendRound_eq {s : CreditQueue β} {p : Fin PriorityCount} (hp : s.it = p.val)
    (hr : 1 ≤ s.remaining_rounds) :
    s.spendRound = .ok { s with it := (spend p s.remaining_rounds).1.val
                                remaining_rounds := (spend p s.remaining_rounds).2
                                _size := decSize s._size } := by
  have hdec : decSize s.remaining_rounds = s.remaining_rounds - 1 := by
    unfold decSize; rw [if_neg (by omega)]
  unfold spendRound spend
  by_cases h1 : s.remaining_rounds = 1
  · have hadv := advance_eq (s := { s with remaining_rounds := 0 }) hp
    rw [h1] at hdec
    simp only [h1, hdec, Nat.sub_self, if_true, hadv, ok_bind]
    rfl
  · have hne : s.remaining_rounds - 1 ≠ 0 := by omega
    simp only [hdec, hne, h1, if_false, ok_bind, hp]

theorem popLoop_hit {s : CreditQueue β} {p : Fin PriorityCount} {b : β} {q : InnerCreditQueue β}
    {c : Counters} (hp : s.it = p.val) (hr : 1 ≤ s.remaining_rounds)
    (hpop : (s.credit_queue p).pop s.counters = .ok (some b, q, c)) (init fuel : ℕ) :
    popLoop init (fuel + 1) s = .ok (some b, s.served p q c) := by
  have hspend := spendRound_eq (s := { s with credit_queue := setLevel s.credit_queue p.val q,
                                              counters := c }) hp hr
  unfold popLoop
  simp only [hp, levelAt_val, ok_bind, hpop] at hspend ⊢
  rw [hspend]
  rfl

theorem popLoop_miss {s : CreditQueue β} {p : Fin PriorityCount} (hp : s.it = p.val)
    (hpop : (s.credit_queue p).pop s.counters = .ok (none, s.credit_queue p, s.counters))
    (init fuel : ℕ) :
    popLoop init (fuel + 1) s
      = if (p + 1).val = init then .ok (none, s.moveTo (p + 1))
        else popLoop init fuel (s.moveTo (p + 1)) := by
  have hself : { s with credit_queue := setLevel s.credit_queue p.val (s.credit_queue p) } = s := by
    rw [setLevel_self]
  have hadv := advance_eq hp
  conv_lhs => unfold popLoop
  simp only [hp, levelAt_val, ok_bind, hpop] at hself ⊢
  rw [← hp] at hself
  rw [← hp, hself, hadv]
  rfl

/-! ## `pop` -/

/-- The invariant after level `p` has given the oldest buffer of `e`, and what that is on the
view. -/
theorem served_spec {s : CreditQueue β} {p : Fin PriorityCount} {q : InnerCreditQueue β}
    {c : Counters} {e : Bytes} (h : s.Wf es) (hr : 1 ≤ s.remaining_rounds)
    (hle : s.remaining_rounds ≤ weights p) (hq : q.Wf es)
    (hsize : q._size + 1 = (s.credit_queue p)._size)
    (hc : s.counters.increment_in_flight e = .ok c)
    (hqueued : ∀ e', q.queued e' = if e' = e then ((s.credit_queue p).queued e').tail
      else (s.credit_queue p).queued e') :
    (s.served p q c).Wf es ∧ (s.served p q c).view = s.view.grant p e
      ∧ (s.served p q c)._size + 1 = s._size := by
  have hmoved := Counters.increment_in_flight_spec h.counters hc
  have hsum := sum_setLevel (a := s.credit_queue) (p := p) (q := q)
  have hpos := h.size
  have hview : (s.served p q c).view = s.view.grant p e := by
    -- the view: one line loses its head, one counter goes up
    apply Admission.Room.ext
    · funext p' e'
      simp only [view, served, Admission.Room.grant, setLevel_apply]
      by_cases hp' : p' = p
      · subst hp'; simp only [if_true, hqueued, true_and]
      · simp only [hp', if_false, false_and]
    · funext e'; exact hmoved.active e'
    · exact hmoved.limit
    · exact hmoved.in_flight
    · exact hmoved.global_limit
  have hdec : (s.served p q c)._size + 1 = s._size := by
    simp only [served, decSize]
    have hge : (s.credit_queue p)._size ≤ ∑ i, (s.credit_queue i)._size :=
      Finset.single_le_sum (f := fun i => (s.credit_queue i)._size) (fun _ _ => Nat.zero_le _)
        (Finset.mem_univ p)
    rw [if_neg (by omega)]
    omega
  refine ⟨⟨fun i => ?_, hmoved.hosts, ⟨(spend p s.remaining_rounds).1, rfl, ?_⟩, ?_, ?_⟩, hview,
    hdec⟩
  · simp only [served, setLevel_apply]
    split_ifs
    · exact hq
    · exact h.levels i
  · simp only [served, spend]
    split_ifs with h1
    · exact ⟨one_le_weights _, le_rfl⟩
    · dsimp only; omega
  · -- the sizes: one less on the level, one less in total
    have hlevels : ∑ i, ((s.served p q c).credit_queue i)._size
        = ∑ i, (setLevel s.credit_queue p.val q i)._size := rfl
    omega
  · -- the balance: the total grew with the counter of `e`
    have hbal := h.balanced
    unfold Admission.Room.Balanced at hbal ⊢
    have hmem : e ∈ es.toFinset := List.mem_toFinset.mpr hmoved.mem
    have hactive : ∀ e', (s.view.grant p e).active e'
        = s.view.active e' + if e' = e then 1 else 0 := by
      intro e'
      simp only [Admission.Room.grant, Admission.Room.acquire]
      split_ifs <;> omega
    rw [hview, Finset.sum_congr rfl fun e' _ => hactive e', Finset.sum_add_distrib,
      Finset.sum_ite_eq', if_pos hmem, ← hbal]
    rfl

/-- `p` gave the buffer `b` of `e`, with `r` rounds left on it before. -/
structure Serves (es : List Bytes) (s : CreditQueue β) (p : Fin PriorityCount) (r : ℕ)
    (e : Bytes) (b : β) (s' : CreditQueue β) : Prop where
  mem : e ∈ es
  ready : s.view.Ready p e
  line : ∃ rest, s.view.waiting p e = b :: rest
  view : s'.view = s.view.grant p e
  wf : s'.Wf es
  it : s'.it = (spend p r).1.val
  rounds : s'.remaining_rounds = (spend p r).2
  size : s'._size + 1 = s._size

/-- One turn of the outer loop: the level under the cursor serves one of its endpoints, or none
of them is ready and the cursor moves on. -/
theorem popLoop_step {s : CreditQueue β} (h : s.Wf es) {p : Fin PriorityCount}
    (hp : s.it = p.val) (init fuel : ℕ) :
    (∃ e b s', Serves es s p s.remaining_rounds e b s'
        ∧ popLoop init (fuel + 1) s = .ok (some b, s'))
      ∨ ((∀ e ∈ es, ¬ s.view.Ready p e)
        ∧ popLoop init (fuel + 1) s
          = if (p + 1).val = init then .ok (none, s.moveTo (p + 1))
            else popLoop init fuel (s.moveTo (p + 1))) := by
  obtain ⟨p', hp', hr, hle⟩ := h.cursor
  obtain rfl : p' = p := Fin.val_inj.mp (hp'.symm.trans hp)
  rcases InnerCreditQueue.pop_spec (h.levels p') h.counters with ⟨hpop, hnone⟩
    | ⟨e, he, b, rest, q, c, hpop,
    hgrant, hline, hc, hq, hsize, hqueued⟩
  · exact .inr ⟨hnone, popLoop_miss hp hpop init fuel⟩
  · obtain ⟨hwf, hview, hdec⟩ := served_spec h hr hle hq hsize hc hqueued
    exact .inl ⟨e, b, s.served p' q c,
      ⟨he, hgrant, ⟨rest, hline⟩, hview, hwf, rfl, rfl, hdec⟩, popLoop_hit hp hr hpop init fuel⟩

theorem moveTo_wf {s : CreditQueue β} (h : s.Wf es) (p : Fin PriorityCount) :
    (s.moveTo p).Wf es :=
  ⟨h.levels, h.counters, ⟨p, rfl, one_le_weights p, le_rfl⟩, h.size, h.balanced⟩

theorem Serves.of_moveTo {s s' : CreditQueue β} {p : Fin PriorityCount} {r : ℕ} {e : Bytes} {b : β}
    {q : Fin PriorityCount} (h : Serves es (s.moveTo q) p r e b s') : Serves es s p r e b s' :=
  ⟨h.mem, h.ready, h.line, h.view, h.wf, h.it, h.rounds, h.size⟩

/-- How a pop can end, `p` being the level under the cursor. -/
inductive Popped (es : List Bytes) (s : CreditQueue β) (p : Fin PriorityCount) :
    Option β → CreditQueue β → Prop
  /-- Nothing is queued, or the global limit is reached: nothing changes. -/
  | idle (h : s._size = 0 ∨ s.counters.global_limit ≤ s.counters.in_flight) : Popped es s p none s
  /-- A full turn found nothing: the cursor is back where it was, with a full budget. -/
  | missed (hsize : s._size ≠ 0) (hglobal : s.counters.in_flight < s.counters.global_limit)
      (hnone : ∀ q, ∀ e ∈ es, ¬ s.view.Ready q e) : Popped es s p none (s.moveTo p)
  /-- The level under the cursor served one of its endpoints. -/
  | here {e : Bytes} {b : β} {s' : CreditQueue β} (h : Serves es s p s.remaining_rounds e b s') :
      Popped es s p (some b) s'
  /-- A later level served one of its endpoints, no level in between having any to serve. -/
  | later {e : Bytes} {b : β} {s' : CreditQueue β} (q : Fin PriorityCount) (hne : q ≠ p)
      (hbetween : ∀ q', (q' = p ∨ (q = p + 2 ∧ q' = p + 1)) → ∀ e ∈ es, ¬ s.view.Ready q' e)
      (h : Serves es s q (weights q) e b s') : Popped es s p (some b) s'

/-- A pop that returns nothing had nothing to return at any level. -/
theorem Popped.none_ready {s s' : CreditQueue β} {p : Fin PriorityCount} (hs : s.Wf es)
    (h : Popped es s p none s') : ∀ q, ∀ e ∈ es, ¬ s.view.Ready q e := by
  cases h with
  | missed _ _ hnone => exact hnone
  | idle h =>
      rintro q e he ⟨hline, _, hglobal⟩
      rcases h with hsize | hle
      · have hlevels := hs.size.symm.trans hsize
        rw [Finset.sum_eq_zero_iff] at hlevels
        exact hline ((hs.levels q).queued_nil (hlevels q (Finset.mem_univ q)) he)
      · exact absurd hglobal (not_lt.mpr hle)

theorem fin_cycle : ∀ p : Fin PriorityCount, p + 1 + 1 = p + 2 ∧ p + 2 + 1 = p ∧ p + 1 ≠ p
    ∧ p + 2 ≠ p ∧ p + 1 ≠ p + 2 ∧ ∀ q, q = p ∨ q = p + 1 ∨ q = p + 2 := by decide

/-- **`pop` never loops forever and is exact.** It always returns, in one of the four ways of
`Popped`. -/
theorem pop_spec {s : CreditQueue β} (h : s.Wf es) :
    ∃ p r s', s.it = (p : Fin PriorityCount).val ∧ s.pop = .ok (r, s') ∧ Popped es s p r s' := by
  obtain ⟨p, hp, -, -⟩ := h.cursor
  obtain ⟨h12, h20, h1, h2, h12', hall⟩ := fin_cycle p
  have hne1 : (p + 1).val ≠ s.it := by rw [hp]; exact fun hv => h1 (Fin.val_inj.mp hv)
  have hne2 : (p + 2).val ≠ s.it := by rw [hp]; exact fun hv => h2 (Fin.val_inj.mp hv)
  unfold pop
  by_cases hsize : s._size = 0
  · exact ⟨p, none, s, hp, by rw [if_pos hsize], .idle (.inl hsize)⟩
  by_cases hglobal : s.counters.in_flight ≥ s.counters.global_limit
  · exact ⟨p, none, s, hp, by rw [if_neg hsize, if_pos hglobal], .idle (.inr hglobal)⟩
  rw [if_neg hsize, if_neg hglobal]
  -- the level under the cursor, then the two after it
  rcases popLoop_step h hp s.it 2 with ⟨e, b, s', hserve, heq⟩ | ⟨hnone0, heq0⟩
  · exact ⟨p, some b, s', hp, heq, .here hserve⟩
  rw [if_neg hne1] at heq0
  rcases popLoop_step (moveTo_wf h (p + 1)) rfl s.it 1 with ⟨e, b, s', hserve, heq⟩ | ⟨hnone1, heq1⟩
  · refine ⟨p, some b, s', hp, heq0.trans heq, .later (p + 1) h1 ?_ hserve.of_moveTo⟩
    rintro q' (rfl | ⟨hq, rfl⟩)
    · exact hnone0
    · exact absurd hq h12'
  rw [h12, if_neg hne2] at heq1
  rcases popLoop_step (moveTo_wf (moveTo_wf h (p + 1)) (p + 2)) rfl s.it 0 with
    ⟨e, b, s', hserve, heq⟩ | ⟨hnone2, heq2⟩
  · refine ⟨p, some b, s', hp, heq0.trans (heq1.trans heq),
      .later (p + 2) h2 ?_ hserve.of_moveTo.of_moveTo⟩
    rintro q' (rfl | ⟨_, rfl⟩)
    · exact hnone0
    · exact hnone1
  · rw [h20, if_pos hp.symm] at heq2
    refine ⟨p, none, s.moveTo p, hp, heq0.trans (heq1.trans heq2),
      .missed hsize (not_le.mp hglobal) fun q e he => ?_⟩
    rcases hall q with rfl | rfl | rfl
    · exact hnone0 e he
    · exact hnone1 e he
    · exact hnone2 e he

end CreditQueue

end RlpSidecar
