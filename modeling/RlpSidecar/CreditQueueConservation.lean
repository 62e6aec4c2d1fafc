/-
**The credit queue loses, duplicates and reorders nothing**, over whole runs.

The ledger of the room below carries the argument: each push enters one arrival, each
buffer a pop returns enters one admission of the line it came from. The redundant sizes,
the in-flight total and the cursor bounds are the invariant `Wf`, read at the end of the run.

Every operation may be mixed with every other one: pushes, pops, and changes of the counters and of
the limits, also those that make a limit smaller than what is active. `credit_queue_conserves` says
it for every sequence of operations on hosted endpoints and the three priorities: they all return,
and what came out together with what is still there is what went in, in each line in the same
order.
-/
import RlpSidecar.CreditQueueRuns

set_option autoImplicit false

open Admission.Room Runs

namespace RlpSidecar

namespace CreditQueue

variable {β : Type} {es : List Bytes}

/-- What a step put into the queue: priority, endpoint and buffer. Only a push puts anything
there. -/
def pushedBy : Op β × Option β → Option (Fin PriorityCount × Bytes × β)
  | (.push buffer endpoint priority, _) =>
    if h : priority.toSize < PriorityCount then some (⟨priority.toSize, h⟩, endpoint, buffer)
    else none
  | _ => none

/-- The buffers pushed in a run, in order, with their levels and endpoints. -/
def pushed (ts : List (Transition (CreditQueue β) (Op β × Option β))) :
    List (Fin PriorityCount × Bytes × β) :=
  ts.filterMap fun t => pushedBy t.label

/-- The buffers the pops of a run returned, in the order of the pops. -/
def returned (ts : List (Transition (CreditQueue β) (Op β × Option β))) : List β :=
  ts.filterMap fun t => t.label.2

/-- One step enters its push as an arrival and its returned buffer as an admission. -/
theorem step_ledger {s s' : CreditQueue β} {l : Op β × Option β} (h : s.Wf es)
    (hstep : Step s l s') {g : Ledger (Fin PriorityCount) Bytes β} (hc : s.view.Conserves g)
    (ha : s.view.Accounts es.toFinset g) :
    ∃ g', g'.arrived = g.arrived ++ (pushedBy l).toList
      ∧ (g'.admitted.map fun x => x.2.2) = (g.admitted.map fun x => x.2.2) ++ l.2.toList
      ∧ s'.view.Conserves g' ∧ s'.view.Accounts es.toFinset g' := by
  obtain ⟨op, r⟩ := l
  obtain ⟨_, ev, hobs, href⟩ := apply_refines h hstep
  cases ev with
  | none =>
      cases hobs
      have hview : s'.view = s.view := href
      exact ⟨g, by simp [pushedBy], by simp, by rwa [hview], by rwa [hview]⟩
  | some ev =>
      obtain ⟨hroom, hev⟩ := href
      refine ⟨g.record ev, ?_, ?_, hroom.conserves hc,
        hroom.accounts (fun e he => List.mem_toFinset.mpr (hev e he)) ha⟩
      · cases hobs with
        | push b e priority p hp =>
            have hlt : priority.toSize < PriorityCount := by rw [hp]; exact p.isLt
            simp [Ledger.record, pushedBy, hp]
        | _ => simp [Ledger.record, pushedBy]
      · cases hobs <;> simp [Ledger.record]

/-- The ledger of a whole run, by induction on the run: each step enters what it pushed or
returned. -/
theorem exec_ledger {s s' : CreditQueue β}
    {ts : List (Transition (CreditQueue β) (Op β × Option β))} (h : Exec Step s ts s')
    (hs : s.Wf es) {g : Ledger (Fin PriorityCount) Bytes β} (hc : s.view.Conserves g)
    (ha : s.view.Accounts es.toFinset g) :
    ∃ g', g'.arrived = g.arrived ++ pushed ts
      ∧ (g'.admitted.map fun x => x.2.2) = (g.admitted.map fun x => x.2.2) ++ returned ts
      ∧ s'.view.Conserves g' ∧ s'.view.Accounts es.toFinset g' := by
  induction h generalizing g with
  | nil => exact ⟨g, by simp [pushed], by simp [returned], hc, ha⟩
  | @cons s t u l ts head _ ih =>
      obtain ⟨g₁, harr, hadm, hc₁, ha₁⟩ := step_ledger hs head hc ha
      obtain ⟨g₂, harr₂, hadm₂, hc₂, ha₂⟩ := ih (apply_refines hs head).1 hc₁ ha₁
      refine ⟨g₂, ?_, ?_, hc₂, ha₂⟩
      · rw [harr₂, harr, List.append_assoc]
        cases hl : pushedBy l <;> simp [pushed, hl]
      · rw [hadm₂, hadm, List.append_assoc]
        obtain ⟨op, r⟩ := l
        cases r <;> simp [returned]

/-- **The queue conserves its buffers.** Over the endpoints of a constructed queue, every sequence
of operations on hosted endpoints and the three priorities runs to its end, and after any run:
each line is what was pushed to it less what pops returned of it, both in push order; the
returned and the queued buffers together are the pushed ones, each once; the sizes at both
levels and the in-flight total are the sums they stand for; and the cursor stands on a level
with between one and its weight rounds left. -/
theorem credit_queue_conserves {config : LimitConfig} {endpoints : List Bytes}
    {s₀ : CreditQueue β} (hne : endpoints ≠ []) (hcreate : create config endpoints = .ok s₀) :
    (∀ ops : List (Op β), (∀ op ∈ ops, op.Valid endpoints) →
      ∃ ts s, Exec Step s₀ ts s ∧ ts.map (fun t => t.label.1) = ops)
    ∧ ∀ ts s, Exec Step s₀ ts s →
      (∃ taken : List (Fin PriorityCount × Bytes × β),
        (taken.map fun x => x.2.2) = returned ts
          ∧ ∀ p e, entries p e (pushed ts) = entries p e taken ++ (s.credit_queue p).queued e)
      ∧ ((pushed ts).map (fun x => x.2.2) : Multiset β)
          = (returned ts : Multiset β)
            + ∑ p, ∑ e ∈ endpoints.toFinset, ((s.credit_queue p).queued e : Multiset β)
      ∧ s._size = ∑ p, (s.credit_queue p)._size
      ∧ (∀ p, (s.credit_queue p)._size
          = ∑ e ∈ endpoints.toFinset, ((s.credit_queue p).queued e).length)
      ∧ s.counters.in_flight = ∑ e ∈ endpoints.toFinset, s.counters.active e
      ∧ ∃ h : s.it < PriorityCount,
          1 ≤ s.remaining_rounds ∧ s.remaining_rounds ≤ weights ⟨s.it, h⟩ := by
  have hfresh := create_spec hne hcreate
  refine ⟨fun ops hops => exec_total hfresh.wf hops, fun ts s hrun => ?_⟩
  have hwf := wf_of_exec hrun hfresh.wf
  -- the ledger of the room starts empty, and so do the lines
  have hbag : s₀.view.bag endpoints.toFinset = 0 := by
    unfold bag
    simp [hfresh.waiting]
  obtain ⟨g, harrived, hadmitted, hconserves, haccounts⟩ :=
    exec_ledger (g := ⟨[], []⟩) hrun hfresh.wf (fun p e => by simp [hfresh.waiting])
      (by unfold Accounts; rw [hbag]; rfl)
  simp only [List.map_nil, List.nil_append] at harrived hadmitted
  refine ⟨⟨g.admitted, hadmitted, fun p e => ?_⟩, ?_, hwf.size, fun p => (hwf.levels p).size,
    hwf.balanced, ?_⟩
  · -- line by line, in order
    rw [← harrived]
    exact hconserves p e
  · -- all lines together
    rw [← harrived, ← hadmitted]
    exact haccounts
  · obtain ⟨p, hp, hone, hle⟩ := hwf.cursor
    have hlt : s.it < PriorityCount := by rw [hp]; exact p.isLt
    have hlevel : (⟨s.it, hlt⟩ : Fin PriorityCount) = p := Fin.ext hp
    exact ⟨hlt, hone, by rw [hlevel]; exact hle⟩

/-- On one endpoint with two CPUs' worth of limit, a push and two pops run, and the sizes agree
after them. -/
theorem credit_queue_conserves_one :
    ∃ s₀ : CreditQueue ℕ, create ⟨1, 0, false, id⟩ [[97]] = .ok s₀
      ∧ ∃ ts s, Exec Step s₀ ts s
        ∧ ts.map (fun t => t.label.1) = [.push 7 [97] 2, .pop, .pop]
        ∧ s._size = ∑ p, (s.credit_queue p)._size := by
  obtain ⟨s₀, hcreate⟩ : ∃ s₀ : CreditQueue ℕ, create ⟨1, 0, false, id⟩ [[97]] = .ok s₀ := ⟨_, rfl⟩
  refine ⟨s₀, hcreate, ?_⟩
  have h := credit_queue_conserves (by decide) hcreate
  obtain ⟨ts, s, hrun, hops⟩ := h.1 [.push 7 [97] 2, .pop, .pop] (by
    intro op hop
    simp only [List.mem_cons, List.not_mem_nil, or_false] at hop
    rcases hop with rfl | rfl | rfl
    · exact ⟨by decide, by decide⟩
    · trivial
    · trivial)
  exact ⟨ts, s, hrun, hops, (h.2 ts s hrun).2.2.1⟩

end CreditQueue

end RlpSidecar
