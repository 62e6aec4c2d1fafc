/-
**Fairness between priorities**, and where it breaks.

The cursor stays on a level for its weight in buffers and then moves on, so a priority that
always has a buffer to give waits for at most the weights of the two others. `wait` is that
bound as a measure: every buffer another priority is given lowers it.

One thing raises it. A scan that finds nothing to serve walks the cursor once around and
back, and every level it passes gets its full budget, the level it started from included. A
level that had used up part of its budget starts over, without any other level having had its
turn. When every success is preceded by such a scan, which is what happens when requests
arrive while the endpoints are at their limits, the cursor never leaves its level.
-/
import RlpSidecar.CreditQueueRuns

set_option autoImplicit false

open Runs

namespace RlpSidecar

namespace CreditQueue

variable {β : Type} {es : List Bytes}

/-- Level `q` gave a buffer in this step: it is shorter after it. -/
def Took (q : Fin PriorityCount) (t : Transition (CreditQueue β) (Op β × Option β)) : Prop :=
  (t.post.credit_queue q)._size < (t.pre.credit_queue q)._size

instance (q : Fin PriorityCount) (t : Transition (CreditQueue β) (Op β × Option β)) :
    Decidable (Took q t) := by unfold Took; infer_instance

/-- A pop in this state makes a full turn for nothing and refills the budget of a level other than
`q` that had used part of it. -/
def Refills (es : List Bytes) (q : Fin PriorityCount) (s : CreditQueue β) : Prop :=
  s._size ≠ 0 ∧ s.counters.in_flight < s.counters.global_limit ∧ (∀ p, ¬ HasGrantable es p s)
    ∧ s.it ≠ q.val ∧ ∀ p : Fin PriorityCount, s.it = p.val → s.remaining_rounds < weights p

instance (q : Fin PriorityCount) (s : CreditQueue β) : Decidable (Refills es q s) := by
  unfold Refills; infer_instance

/-- The buffers that other priorities can still be given before the cursor reaches `q`. -/
def wait (q : Fin PriorityCount) (s : CreditQueue β) : ℕ :=
  if s.it = q.val then 0
  else if s.it = (q + 2).val then s.remaining_rounds
  else s.remaining_rounds + weights (q + 2)

theorem wait_of_it {q p : Fin PriorityCount} {s : CreditQueue β} (hp : s.it = p.val) :
    wait q s = if p = q then 0 else if p = q + 2 then s.remaining_rounds
      else s.remaining_rounds + weights (q + 2) := by
  unfold wait
  rw [hp]
  exact if_congr Fin.val_inj rfl (if_congr Fin.val_inj rfl rfl)

/-- No priority ever waits for more than the weights of the others. -/
theorem wait_le {s : CreditQueue β} (h : s.Wf es) (q : Fin PriorityCount) :
    wait q s ≤ ∑ p ∈ {q}ᶜ, weights p := by
  obtain ⟨p, hp, _, hle⟩ := h.cursor
  have hothers : ∀ q : Fin PriorityCount, ∑ p ∈ {q}ᶜ, weights p
      = weights (q + 1) + weights (q + 2) := by
    decide
  have hp3 : ∀ p q : Fin PriorityCount, p ≠ q → p ≠ q + 2 → p = q + 1 := by decide
  rw [wait_of_it hp, hothers]
  split_ifs with h1 h2
  · exact Nat.zero_le _
  · subst h2; omega
  · rw [hp3 p q h1 h2] at hle; omega

/-- The level that serves loses one buffer, the others none, as a pop serves one level. -/
theorem Serves.level_size {s s' : CreditQueue β} {p : Fin PriorityCount} {r : ℕ} {e : Bytes} {b : β}
    (h : Serves es s p r e b s') (hs : s.Wf es) (q : Fin PriorityCount) :
    (s'.credit_queue q)._size + (if q = p then 1 else 0) = (s.credit_queue q)._size := by
  obtain ⟨rest, hline⟩ := h.line
  -- one buffer less at one endpoint of one level
  have hpoint : ∀ e', ((s'.credit_queue q).queued e').length
      + (if q = p then (if e' = e then 1 else 0) else 0)
        = ((s.credit_queue q).queued e').length := by
    intro e'
    have hw : (s'.credit_queue q).queued e' = (s.view.grant p e).waiting q e' := by
      rw [← h.view]; rfl
    have hold : (s.credit_queue q).queued e' = s.view.waiting q e' := rfl
    rw [hw, hold]
    simp only [Admission.Room.grant]
    by_cases hq : q = p
    · subst hq
      by_cases he : e' = e
      · subst he; simp [hline]
      · simp [he]
    · simp [hq]
  rw [(h.wf.levels q).size, (hs.levels q).size, ← Finset.sum_congr rfl fun e' _ => hpoint e',
    Finset.sum_add_distrib]
  by_cases hq : q = p
  · simp [hq, h.mem]
  · simp [hq]

/-- Serving a level other than `q`, with `r` of its rounds left, uses up a unit of the wait. -/
theorem spend_wait : ∀ (p q : Fin PriorityCount) (s : CreditQueue β) (r : ℕ), p ≠ q → 1 ≤ r →
    r ≤ weights p → s.it = (spend p r).1.val → s.remaining_rounds = (spend p r).2 →
    wait q s + 1 ≤ if p = q + 2 then r else r + weights (q + 2) := by
  intro p q s r hne hr hle hit hrounds
  have hsucc : ∀ p q : Fin PriorityCount, p ≠ q → (p = q + 2 → p + 1 = q)
      ∧ (p ≠ q + 2 → p + 1 = q + 2) ∧
      q + 2 ≠ q := by decide
  obtain ⟨hnext, hnext', hq2⟩ := hsucc p q hne
  rw [wait_of_it hit, hrounds]
  unfold spend
  by_cases h1 : r = 1
  · simp only [if_pos h1]
    by_cases h2 : p = q + 2
    · rw [if_pos (hnext h2), if_pos h2]; omega
    · rw [hnext' h2, if_neg hq2, if_pos rfl, if_neg h2]; omega
  · simp only [if_neg h1]
    rw [if_neg hne]
    split_ifs <;> omega

/-- **What a pop does to the wait of `q`**, when `q` has something to give if the pop succeeds. -/
theorem Popped.wait_le {s s' : CreditQueue β} {p : Fin PriorityCount} {r : Option β}
    (h : Popped es s p r s') (hs : s.Wf es) (hp : s.it = p.val) {q : Fin PriorityCount}
    (hready : r.isSome → HasGrantable es q s ∧ ¬ Took q ⟨s, (.pop, r), s'⟩)
    (hrefill : ¬ Refills es q s) :
    wait q s' + (if r.isSome then 1 else 0) ≤ wait q s := by
  obtain ⟨p', hp', hone, hle⟩ := hs.cursor
  obtain rfl : p' = p := Fin.val_inj.mp (hp'.symm.trans hp)
  cases h with
  | idle => simp
  | missed hsize hglobal hnone =>
      simp only [Option.isSome_none, Bool.false_eq_true, if_false, Nat.add_zero]
      by_cases hq : p' = q
      · rw [wait_of_it (p := p') (s := s.moveTo p') rfl, if_pos hq]
        exact Nat.zero_le _
      · -- the level under the cursor had all its rounds, or this would be a refill
        have hfull : s.remaining_rounds = weights p' := by
          by_contra hlt
          refine hrefill ⟨hsize, hglobal, fun p => ?_, ?_, fun p hpp => ?_⟩
          · rintro ⟨e, he, hg⟩; exact hnone p e he hg
          · rw [hp]; exact fun hv => hq (Fin.val_inj.mp hv)
          · rw [← Fin.val_inj.mp (hp.symm.trans hpp)]; omega
        rw [wait_of_it (p := p') (s := s.moveTo p') rfl, wait_of_it hp, hfull]
        exact le_rfl
  | here hserve =>
      obtain ⟨_, hnot⟩ := hready rfl
      have hne : p' ≠ q := by
        rintro rfl
        have := hserve.level_size hs p'
        exact hnot (by unfold Took; simp only [if_true] at this; dsimp only; omega)
      have := spend_wait p' q s' _ hne hone hle hserve.it hserve.rounds
      rw [wait_of_it hp, if_neg hne]
      simpa using this
  | later q' hq' hbetween hserve =>
      obtain ⟨⟨e, he, hg⟩, hnot⟩ := hready rfl
      have hne : q' ≠ q := by
        rintro rfl
        have := hserve.level_size hs q'
        exact hnot (by unfold Took; simp only [if_true] at this; dsimp only; omega)
      -- `q` is not among the levels passed over, so it is the one after the level served
      have hpq : p' ≠ q := by rintro rfl; exact hbetween p' (.inl rfl) e he hg
      have hlast : ¬ (q' = p' + 2 ∧ q = p' + 1) :=
        fun hl => hbetween q (.inr hl) e he hg
      have hthree : ∀ p q q' : Fin PriorityCount, p ≠ q → q' ≠ p → q' ≠ q →
          ¬ (q' = p + 2 ∧ q = p + 1) → q' = q + 2 ∧ p ≠ q + 2 := by decide
      obtain ⟨hq2, hp2⟩ := hthree p' q q' hpq hq' hne hlast
      have := spend_wait q' q s' _ hne (one_le_weights q') le_rfl hserve.it hserve.rounds
      rw [if_pos hq2] at this
      rw [wait_of_it hp, if_neg hpq, if_neg hp2, ← hq2]
      simp only [Option.isSome_some, if_true]
      omega

/-- One step of a run, for the wait of `q`: a pop that serves another level brings its turn nearer
by one. -/
theorem step_wait_le {s s' : CreditQueue β} {l : Op β × Option β} (hs : s.Wf es)
    (h : Step s l s') {q : Fin PriorityCount}
    (hready : l.2.isSome → HasGrantable es q s ∧ ¬ Took q ⟨s, l, s'⟩)
    (hrefill : l.1 = .pop → ¬ Refills es q s) :
    wait q s' + (if l.2.isSome then 1 else 0) ≤ wait q s := by
  obtain ⟨op, r⟩ := l
  rcases apply_cursor hs h with rfl | ⟨hnone, hit, hrounds⟩
  · obtain ⟨p, r', t, hp, hpop, hpopped⟩ := pop_spec hs
    obtain ⟨rfl, rfl⟩ := Prod.mk.inj (Except.ok.inj (hpop.symm.trans h))
    exact hpopped.wait_le hs hp hready (hrefill rfl)
  · dsimp only at hnone
    subst hnone
    unfold wait
    rw [hit, hrounds]
    exact le_rfl

/-- **Weighted fairness, while no scan refills a used budget.** From any state the queue can
reach, in any stretch of a run in which priority `q` has a grantable request at every pop that
returns a buffer, and no pop makes a full turn for nothing while another level has used part
of its budget: at most as many pops in a row give buffers of other priorities as the weights
of those priorities add up to. -/
theorem weighted_fairness {config : LimitConfig} {endpoints : List Bytes} {s₀ s s' : CreditQueue β}
    {before stretch : List (Transition (CreditQueue β) (Op β × Option β))}
    (hne : endpoints ≠ []) (hcreate : create config endpoints = .ok s₀)
    (hbefore : Exec Step s₀ before s) (hstretch : Exec Step s stretch s') (q : Fin PriorityCount)
    (hturn : ∀ t ∈ stretch, t.label.2.isSome → HasGrantable endpoints q t.pre ∧ ¬ Took q t)
    (hbudget : ∀ t ∈ stretch, t.label.1 = .pop → ¬ Refills endpoints q t.pre) :
    stretch.countP (fun t => t.label.2.isSome) ≤ ∑ p ∈ {q}ᶜ, weights p := by
  have hwf := wf_of_exec hbefore (create_spec hne hcreate).wf
  have hcount := hstretch.countP_le (wait q) (fun t => t.label.2.isSome) fun t ht hstep =>
    step_wait_le (wf_of_mem hstretch hwf ht).1 hstep (hturn t ht) (hbudget t ht)
  have hbound := wait_le hwf q
  omega

/-- One request of priority 0 and one of priority 2 wait; a pop serves the first, within the
bound. -/
theorem weighted_fairness_one :
    ∃ (stretch : List (Transition (CreditQueue ℕ) (Op ℕ × Option ℕ))),
      stretch.map (fun t => t.label.1) = [.pop]
        ∧ (∀ t ∈ stretch, t.label.2 = some 0)
        ∧ stretch.countP (fun t => t.label.2.isSome)
          ≤ ∑ p ∈ {(2 : Fin PriorityCount)}ᶜ, weights p := by
  -- the run is evaluated once, and its states are taken from it
  have hcheck : (do
      let s₀ ← create (β := ℕ) ⟨1, 0, false, id⟩ [[97]]
      let (_, s) ← trace next s₀ [.push 0 [97] 0, .push 1 [97] 2]
      let (stretch, _) ← trace next s [.pop]
      .ok (decide (∀ t ∈ stretch, t.label.2.isSome → HasGrantable [[97]] 2 t.pre ∧ ¬ Took 2 t)
        && decide (∀ t ∈ stretch, ¬ Refills [[97]] 2 t.pre)
        && decide (∀ t ∈ stretch, t.label.2 = some 0))) = (.ok true : Except Abort Bool) := by
    decide +kernel
  obtain ⟨s₀, hcreate, hcheck⟩ := bind_eq_ok.mp hcheck
  obtain ⟨⟨before, s⟩, hbefore, hcheck⟩ := bind_eq_ok.mp hcheck
  obtain ⟨⟨stretch, s'⟩, hstretch, hcheck⟩ := bind_eq_ok.mp hcheck
  have hall := Except.ok.inj hcheck
  simp only [Bool.and_eq_true, decide_eq_true_eq] at hall
  obtain ⟨⟨hturn, hbudget⟩, hbuffer⟩ := hall
  exact ⟨stretch, (exec_of_trace (fun _ _ _ _ => step_of_next) hstretch).2, hbuffer,
    weighted_fairness (by decide) hcreate (exec_of_trace (fun _ _ _ _ => step_of_next) hbefore).1
    (exec_of_trace (fun _ _ _ _ => step_of_next) hstretch).1 2
      hturn fun t ht _ => hbudget t ht⟩

/-- Requests of priority 0 fill the endpoint's limit of two, then one of priority 2 arrives. -/
def fillEndpoint : List (Op ℕ) :=
  [.push 0 [97] 0, .pop, .push 0 [97] 0, .pop, .push 1 [97] 2]

/-- A request of priority 0 arrives while the endpoint is full, and a response frees a slot; each
is followed by a pop, as its handler does. -/
def arrivalThenResponse : List (Op ℕ) :=
  [.push 0 [97] 0, .pop, .decrement_in_flight [97], .pop]

/-- **A refilled budget starves a priority.** Priority 2 may be passed over 20 times; here every
arrival finds the endpoint full, which refills the budget of priority 0, and all 21 slots that
responses free in the meantime go to priority 0. -/
theorem weighted_fairness_fails :
    ∃ (s₀ s s' : CreditQueue ℕ)
      (before stretch : List (Transition (CreditQueue ℕ) (Op ℕ × Option ℕ))),
      create ⟨1, 0, false, id⟩ [[97]] = .ok s₀
        ∧ Exec Step s₀ before s ∧ before.map (fun t => t.label.1) = fillEndpoint
        ∧ Exec Step s stretch s'
        ∧ stretch.map (fun t => t.label.1) = (List.replicate 21 arrivalThenResponse).flatten
        ∧ (∀ t ∈ stretch, t.label.2.isSome → HasGrantable [[97]] 2 t.pre ∧ ¬ Took 2 t)
        ∧ ∑ p ∈ {(2 : Fin PriorityCount)}ᶜ, weights p
          < stretch.countP fun t => t.label.2.isSome := by
  -- the run is evaluated once, with the counts at its end
  have hcheck : (do
      let s₀ ← create (β := ℕ) ⟨1, 0, false, id⟩ [[97]]
      let (_, s) ← trace next s₀ fillEndpoint
      let (stretch, _) ← trace next s (List.replicate 21 arrivalThenResponse).flatten
      .ok (decide (∀ t ∈ stretch, t.label.2.isSome → HasGrantable [[97]] 2 t.pre ∧ ¬ Took 2 t)
        && decide (∑ p ∈ {(2 : Fin PriorityCount)}ᶜ, weights p
          < stretch.countP fun t => t.label.2.isSome))) = (.ok true : Except Abort Bool) := by
    decide +kernel
  obtain ⟨s₀, hcreate, hcheck⟩ := bind_eq_ok.mp hcheck
  obtain ⟨⟨before, s⟩, hbefore, hcheck⟩ := bind_eq_ok.mp hcheck
  obtain ⟨⟨stretch, s'⟩, hstretch, hcheck⟩ := bind_eq_ok.mp hcheck
  have hboth := Except.ok.inj hcheck
  rw [Bool.and_eq_true, decide_eq_true_eq, decide_eq_true_eq] at hboth
  obtain ⟨hexec, hops⟩ := exec_of_trace (fun _ _ _ _ => step_of_next) hbefore
  obtain ⟨hexec', hops'⟩ := exec_of_trace (fun _ _ _ _ => step_of_next) hstretch
  exact ⟨s₀, s, s', before, stretch, hcreate, hexec, hops, hexec', hops', hboth.1, hboth.2⟩

end CreditQueue

end RlpSidecar
