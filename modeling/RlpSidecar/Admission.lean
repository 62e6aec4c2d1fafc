/-
**Admission rooms**: what a credit queue is for, said without queues, cursors or maps.

Work of class `p` for endpoint `e` waits in line; an endpoint may have `cap e` units
active and the whole room `totalCap`. Admitting takes the oldest unit of one line, and
only while both limits leave room. Everything a client of the queue relies on is
proved here once: the counters agree, lines lose and reorder nothing, and the backlog
(how many more units could be admitted right now) grows by at most one per arrival or
release, which is what makes "one admission per event" enough as long as limits stand
still.

`Step` is the inversion principle of the room: what one event does to a line, to a counter and to
the totals. From it follow, each by its own induction, that the counter of an endpoint is what was
admitted less what was released (`Step.active_eq`), that no admission passes a limit
(`Step.within_limits`), and that a line is first in, first out (`Step.conserves`). Nothing here
depends on the program; the credit queue is shown to refine it.
-/
import Mathlib.Algebra.BigOperators.Group.Finset.Basic
import Mathlib.Algebra.BigOperators.Fin
import Mathlib.Algebra.Order.BigOperators.Group.Finset
import Mathlib.Algebra.Order.Group.Multiset
import Mathlib.Data.Fintype.Basic
import Mathlib.Tactic.Linarith
import RlpSidecar.Runs

set_option autoImplicit false
set_option linter.unusedSectionVars false

open Finset

namespace Admission

/-- The lines, the limits, and what is active: an admission queue with classes `π`, endpoints `ε`
and units `β`, and nothing about how it is stored. -/
@[ext] structure Room (π ε β : Type*) where
  waiting : π → ε → List β
  active : ε → ℤ
  cap : ε → ℤ
  total : ℤ
  totalCap : ℤ

namespace Room

variable {π ε β : Type*} [DecidableEq π] [DecidableEq ε]

/-- A line whose oldest unit may be admitted: something waits in it, and neither the limit of the
endpoint nor the total one is reached. -/
def Ready (r : Room π ε β) (p : π) (e : ε) : Prop :=
  r.waiting p e ≠ [] ∧ r.active e < r.cap e ∧ r.total < r.totalCap

instance (r : Room π ε β) (p : π) (e : ε) : Decidable (r.Ready p e) := by
  unfold Ready; exact instDecidableAnd

/-! ## Operations -/

/-- `b` joins the line of `(p, e)`, at its end. -/
def enqueue (r : Room π ε β) (p : π) (e : ε) (b : β) : Room π ε β :=
  { r with waiting := fun p' e' =>
      if p' = p ∧ e' = e then r.waiting p' e' ++ [b] else r.waiting p' e' }

/-- One more unit of `e` becomes active, without having waited here. -/
def acquire (r : Room π ε β) (e : ε) : Room π ε β :=
  { r with active := fun e' => if e' = e then r.active e' + 1 else r.active e'
           total := r.total + 1 }

/-- One unit of `e` stops being active, wherever it became so. -/
def release (r : Room π ε β) (e : ε) : Room π ε β :=
  { r with active := fun e' => if e' = e then r.active e' - 1 else r.active e'
           total := r.total - 1 }

/-- The oldest unit of `(p, e)` leaves its line and becomes active. -/
def grant (r : Room π ε β) (p : π) (e : ε) : Room π ε β :=
  { r.acquire e with waiting := fun p' e' =>
      if p' = p ∧ e' = e then (r.waiting p' e').tail else r.waiting p' e' }

/-- The limit of an endpoint is set, whatever is active. -/
def setCap (r : Room π ε β) (e : ε) (c : ℤ) : Room π ε β :=
  { r with cap := fun e' => if e' = e then c else r.cap e' }

/-- The limit on the total is set, whatever is active. -/
def setTotalCap (r : Room π ε β) (c : ℤ) : Room π ε β := { r with totalCap := c }

/-- A unit that waits is not active. -/
@[simp] theorem active_enqueue (r : Room π ε β) (p : π) (e : ε) (b : β) :
    (r.enqueue p e b).active = r.active := rfl

/-! ## Steps -/

/-- What can happen to a room. An admission says which unit it was. -/
inductive Event (π ε β : Type*)
  | enqueue (p : π) (e : ε) (b : β)
  | grant (p : π) (e : ε) (b : β)
  | acquire (e : ε)
  | release (e : ε)
  | setCap (e : ε) (c : ℤ)
  | setTotalCap (c : ℤ)

/-- One event. Only an admission is restricted: the line must be ready, and the unit admitted
is its oldest. -/
inductive Step : Room π ε β → Event π ε β → Room π ε β → Prop
  | enqueue (r : Room π ε β) (p : π) (e : ε) (b : β) : Step r (.enqueue p e b) (r.enqueue p e b)
  | grant (r : Room π ε β) (p : π) (e : ε) (b : β) (rest : List β)
      (hline : r.waiting p e = b :: rest) (hready : r.Ready p e) :
      Step r (.grant p e b) (r.grant p e)
  | acquire (r : Room π ε β) (e : ε) : Step r (.acquire e) (r.acquire e)
  | release (r : Room π ε β) (e : ε) : Step r (.release e) (r.release e)
  | setCap (r : Room π ε β) (e : ε) (c : ℤ) : Step r (.setCap e c) (r.setCap e c)
  | setTotalCap (r : Room π ε β) (c : ℤ) : Step r (.setTotalCap c) (r.setTotalCap c)

/-- What an admission says of the room before it: the line was ready, and the unit was the oldest
in it. -/
theorem Step.grant_inv {r r' : Room π ε β} {p : π} {e : ε} {b : β} (h : Step r (.grant p e b) r') :
    r.Ready p e ∧ (∃ rest, r.waiting p e = b :: rest) ∧ r' = r.grant p e := by
  cases h with
  | grant _ _ _ rest hline hready => exact ⟨hready, ⟨rest, hline⟩, rfl⟩

/-- The endpoint an event counts for, and by how much: the change of its counter. -/
def Event.charge (ev : Event π ε β) (e : ε) : ℤ :=
  match ev with
  | .grant _ e' _ | .acquire e' => if e = e' then 1 else 0
  | .release e' => if e = e' then -1 else 0
  | _ => 0

/-- The endpoint whose counter or line an event touches, if it is about one. -/
def Event.endpoint? : Event π ε β → Option ε
  | .enqueue _ e _ | .grant _ e _ | .acquire e | .release e | .setCap e _ => some e
  | .setTotalCap _ => none

/-- **Counters**: an event moves the counter of its endpoint by its charge. -/
theorem Step.active_eq {r r' : Room π ε β} {ev : Event π ε β} (h : Step r ev r') (e : ε) :
    r'.active e = r.active e + ev.charge e := by
  cases h with
  | enqueue | setCap | setTotalCap => exact (add_zero _).symm
  | grant _ e' | acquire e' =>
      simp only [Event.charge, Room.grant, Room.acquire]
      split_ifs <;> omega
  | release e' =>
      simp only [Event.charge, Room.release]
      split_ifs <;> omega

/-- The total is the sum of the endpoint counters, over the endpoints that are hosted. -/
def Balanced (hosted : Finset ε) (r : Room π ε β) : Prop :=
  r.total = ∑ e ∈ hosted, r.active e

/-- The total changes by what the counters change by, if the endpoint of the event is hosted. -/
theorem sum_charge {hosted : Finset ε} {ev : Event π ε β}
    (hev : ∀ e, ev.endpoint? = some e → e ∈ hosted) {r r' : Room π ε β} (h : Step r ev r') :
    r'.total = r.total + ∑ e ∈ hosted, ev.charge e := by
  cases h with
  | enqueue | setCap | setTotalCap =>
      simp [Event.charge, Room.enqueue, Room.setCap, Room.setTotalCap]
  | grant p e b rest _ _ =>
      have he : e ∈ hosted := hev e rfl
      simp [Event.charge, Room.grant, Room.acquire, Finset.sum_ite_eq', he]
  | acquire e =>
      have he : e ∈ hosted := hev e rfl
      simp [Event.charge, Room.acquire, Finset.sum_ite_eq', he]
  | release e =>
      have he : e ∈ hosted := hev e rfl
      simp only [Event.charge, Room.release, Finset.sum_ite_eq', he, if_true]
      omega

/-- Events of hosted endpoints keep the total equal to the sum, so a balanced room stays
balanced. -/
theorem Step.balanced {hosted : Finset ε} {ev : Event π ε β} {r r' : Room π ε β}
    (h : Step r ev r') (hev : ∀ e, ev.endpoint? = some e → e ∈ hosted)
    (hr : Balanced hosted r) : Balanced hosted r' := by
  unfold Balanced at hr ⊢
  rw [sum_charge hev h, hr, ← Finset.sum_add_distrib]
  exact Finset.sum_congr rfl fun e _ => (h.active_eq e).symm

/-- **Limits**: right after an admission both counters are within their limits. Later a limit may
fall, or a unit may become active on its own. -/
theorem Step.within_limits {r r' : Room π ε β} {p : π} {e : ε} {b : β}
    (h : Step r (.grant p e b) r') : r'.active e ≤ r'.cap e ∧ r'.total ≤ r'.totalCap := by
  cases h with
  | grant _ _ _ rest _ hready =>
      obtain ⟨_, hcap, htotal⟩ := hready
      simp only [Room.grant, Room.acquire, if_true]
      omega

/-! ## Lines -/

/-- What joined and what left each line, in order: a record that a run keeps beside the room. -/
structure Ledger (π ε β : Type*) where
  arrived : List (π × ε × β)
  admitted : List (π × ε × β)

/-- The entries of one line, in their order. -/
def entries (p : π) (e : ε) (l : List (π × ε × β)) : List β :=
  (l.filter fun x => x.1 = p ∧ x.2.1 = e).map fun x => x.2.2

/-- The entries of a longer record are those of its parts. -/
theorem entries_append (p : π) (e : ε) (l l' : List (π × ε × β)) :
    entries p e (l ++ l') = entries p e l ++ entries p e l' := by
  simp [entries]

/-- The entries of a record of one unit. -/
theorem entries_singleton (p p' : π) (e e' : ε) (b : β) :
    entries p e [(p', e', b)] = if p = p' ∧ e = e' then [b] else [] := by
  unfold entries
  by_cases h : p = p' ∧ e = e'
  · obtain ⟨rfl, rfl⟩ := h; simp
  · rw [if_neg h, List.filter_cons_of_neg]
    · rfl
    · rw [decide_eq_true_eq]; exact fun h' => h ⟨h'.1.symm, h'.2.symm⟩

/-- What an event adds to the record. -/
def Ledger.record (g : Ledger π ε β) : Event π ε β → Ledger π ε β
  | .enqueue p e b => { g with arrived := g.arrived ++ [(p, e, b)] }
  | .grant p e b => { g with admitted := g.admitted ++ [(p, e, b)] }
  | _ => g

/-- Every line is what arrived there, in order, less what was admitted from it, in order. -/
def Conserves (r : Room π ε β) (g : Ledger π ε β) : Prop :=
  ∀ p e, entries p e g.arrived = entries p e g.admitted ++ r.waiting p e

/-- **Lines lose, duplicate and reorder nothing.** What joined a line is what left it, and then
what waits in it. -/
theorem Step.conserves {r r' : Room π ε β} {ev : Event π ε β} {g : Ledger π ε β}
    (h : Step r ev r') (hr : r.Conserves g) : r'.Conserves (g.record ev) := by
  intro p e
  have hpe := hr p e
  cases h with
  | enqueue p' e' b =>
      simp only [Ledger.record, entries_append, entries_singleton, Room.enqueue, hpe]
      split_ifs <;> simp
  | grant p' e' b rest hline _ =>
      simp only [Ledger.record, entries_append, entries_singleton, Room.grant]
      split_ifs with heq
      · obtain ⟨rfl, rfl⟩ := heq
        rw [hpe, hline]; simp
      · rw [hpe]; simp
  | acquire | release | setCap | setTotalCap => exact hpe

/-! ## All the waiting units at once -/

section Bag

variable [Fintype π] (hosted : Finset ε)

/-- The waiting units of the hosted endpoints, with multiplicity and without their order. -/
def bag (r : Room π ε β) : Multiset β := ∑ p, ∑ e ∈ hosted, (r.waiting p e : Multiset β)

variable {hosted}

/-- A unit that joins a line of a hosted endpoint joins the bag. -/
theorem bag_enqueue (r : Room π ε β) (p : π) {e : ε} (he : e ∈ hosted) (b : β) :
    (r.enqueue p e b).bag hosted = r.bag hosted + {b} := by
  have hpoint : ∀ p' e', ((r.enqueue p e b).waiting p' e' : Multiset β)
      = (r.waiting p' e' : Multiset β) + if p' = p then (if e' = e then {b} else 0) else 0 := by
    intro p' e'
    simp only [enqueue]
    split_ifs <;> simp_all
    rfl
  unfold bag
  simp only [hpoint, Finset.sum_add_distrib]
  simp [he, Finset.sum_ite_irrel]

/-- A unit that is admitted leaves the bag, once. -/
theorem bag_grant {r : Room π ε β} {p : π} {e : ε} {b : β} {rest : List β} (he : e ∈ hosted)
    (hline : r.waiting p e = b :: rest) : r.bag hosted = (r.grant p e).bag hosted + {b} := by
  have hpoint : ∀ p' e', (r.waiting p' e' : Multiset β)
      = ((r.grant p e).waiting p' e' : Multiset β)
        + if p' = p then (if e' = e then {b} else 0) else 0 := by
    intro p' e'
    simp only [grant]
    split_ifs with h₁ h₂ h₃ <;> simp_all
    rw [← Multiset.cons_coe, ← Multiset.singleton_add, add_comm]
  unfold bag
  simp only [hpoint, Finset.sum_add_distrib]
  simp [he, Finset.sum_ite_irrel]

/-- What arrived is what was admitted and what still waits, over all lines at once. -/
def Accounts (hosted : Finset ε) (r : Room π ε β) (g : Ledger π ε β) : Prop :=
  (g.arrived.map fun x => x.2.2 : Multiset β)
    = (g.admitted.map fun x => x.2.2 : Multiset β) + r.bag hosted

/-- **No unit is lost or duplicated**, whatever line it waits in. The step lemma of the accounts;
the endpoints are to be hosted, since the bag only has those. -/
theorem Step.accounts {r r' : Room π ε β} {ev : Event π ε β} {g : Ledger π ε β} (h : Step r ev r')
    (hev : ∀ e, ev.endpoint? = some e → e ∈ hosted) (hr : r.Accounts hosted g) :
    r'.Accounts hosted (g.record ev) := by
  unfold Accounts at hr ⊢
  cases h with
  | enqueue p e b =>
      simp only [Ledger.record, List.map_append, List.map_cons, List.map_nil,
        bag_enqueue r p (hev e rfl) b, ← Multiset.coe_add, hr]
      rw [add_assoc]; rfl
  | grant p e b rest hline _ =>
      simp only [Ledger.record, List.map_append, List.map_cons, List.map_nil, ← Multiset.coe_add,
        hr, bag_grant (hev e rfl) hline]
      rw [add_assoc, add_comm _ ({b} : Multiset β)]; rfl
  | acquire | release | setCap | setTotalCap => exact hr

end Bag

/-! ## The backlog

How many more units the room could grant if nothing else happened. -/

section Backlog

variable [Fintype π] (hosted : Finset ε)

/-- The units waiting for an endpoint, over all classes: these share the limit of the endpoint. -/
def load (r : Room π ε β) (e : ε) : ℕ := ∑ p, (r.waiting p e).length

/-- The units an endpoint could still take; none when it is above its limit. -/
def slack (r : Room π ε β) (e : ε) : ℕ := (r.cap e - r.active e).toNat

/-- The units that could be admitted if only the endpoint limits counted. -/
def demand (r : Room π ε β) : ℕ := ∑ e ∈ hosted, min (r.load e) (r.slack e)

/-- The units that could be admitted: as many as wait behind free room of their endpoints, and no
more than the total limit leaves. -/
def backlog (r : Room π ε β) : ℕ := min (r.totalCap - r.total).toNat (r.demand hosted)

variable {hosted}

/-- No load means that every line of the endpoint is empty. -/
theorem load_eq_zero {r : Room π ε β} {e : ε} : r.load e = 0 ↔ ∀ p, r.waiting p e = [] := by
  simp [load]

/-- **Nothing is ready exactly when the backlog is zero.** This is how the statement about lines
becomes one about a number, which the steps below change by one. -/
theorem backlog_eq_zero {r : Room π ε β} :
    r.backlog hosted = 0 ↔ ∀ p, ∀ e ∈ hosted, ¬ r.Ready p e := by
  -- a sum of minima is zero exactly if one side of each is
  have hdemand : r.demand hosted = 0
      ↔ ∀ e ∈ hosted, (∀ p, r.waiting p e = []) ∨ r.cap e ≤ r.active e := by
    unfold demand
    rw [Finset.sum_eq_zero_iff]
    refine forall₂_congr fun e _ => ?_
    rw [Nat.min_eq_zero_iff, load_eq_zero, slack]
    exact or_congr Iff.rfl (by omega)
  unfold backlog
  rw [Nat.min_eq_zero_iff, hdemand]
  constructor
  · rintro (htotal | hlines) p e he ⟨hline, hcap, hlt⟩
    · omega
    · rcases hlines e he with hempty | hfull
      · exact hline (hempty p)
      · omega
  · intro h
    -- either the limit of the whole is used up, or no line has anything that it may give
    rcases lt_or_ge r.total r.totalCap with hlt | hge
    · right
      intro e he
      by_contra hne
      push Not at hne
      obtain ⟨⟨p, hp⟩, hcap⟩ := hne
      exact h p e he ⟨hp, hcap, hlt⟩
    · left; omega

/-- Changing one summand by at most one changes the sum by at most one. -/
theorem sum_le_sum_add_one {s : Finset ε} {f g : ε → ℕ} (e : ε)
    (he : f e ≤ g e + 1) (hne : ∀ e' ≠ e, f e' ≤ g e') : ∑ x ∈ s, f x ≤ (∑ x ∈ s, g x) + 1 := by
  have hpoint : ∀ x ∈ s, f x ≤ g x + if x = e then 1 else 0 := by
    intro x _
    split_ifs with hx
    · subst hx; exact he
    · simpa using hne x hx
  refine (Finset.sum_le_sum hpoint).trans ?_
  rw [Finset.sum_add_distrib, Finset.sum_ite_eq']
  split_ifs <;> omega

/-- A unit that joins a line adds one to the load of its endpoint. -/
theorem load_enqueue (r : Room π ε β) (p : π) (e : ε) (b : β) (e' : ε) :
    (r.enqueue p e b).load e' = r.load e' + if e' = e then 1 else 0 := by
  unfold load
  have hpoint : ∀ x, ((r.enqueue p e b).waiting x e').length
      = (r.waiting x e').length + if x = p then (if e' = e then 1 else 0) else 0 := by
    intro x
    simp only [enqueue]
    split_ifs <;> simp_all
  rw [Finset.sum_congr rfl fun x _ => hpoint x, Finset.sum_add_distrib]
  simp

/-- A release adds at most one to the backlog, so one admission after it is enough. -/
theorem backlog_release_le (r : Room π ε β) (e : ε) :
    (r.release e).backlog hosted ≤ r.backlog hosted + 1 := by
  have hdemand : (r.release e).demand hosted ≤ r.demand hosted + 1 := by
    refine sum_le_sum_add_one e ?_ fun e' he' => ?_
    · have hload : (r.release e).load e = r.load e := rfl
      rw [hload]
      simp only [slack, release, if_true]
      omega
    · have hload : (r.release e).load e' = r.load e' := rfl
      rw [hload]
      simp only [slack, release, if_neg he']
      exact le_rfl
  unfold backlog
  simp only [release] at hdemand ⊢
  omega

/-- An acquisition adds nothing to the backlog; it can only take room away. -/
theorem backlog_acquire_le (r : Room π ε β) (e : ε) :
    (r.acquire e).backlog hosted ≤ r.backlog hosted := by
  have hdemand : (r.acquire e).demand hosted ≤ r.demand hosted := by
    refine Finset.sum_le_sum fun e' _ => ?_
    have hload : (r.acquire e).load e' = r.load e' := rfl
    rw [hload]
    simp only [slack, acquire]
    split_ifs <;> omega
  unfold backlog
  simp only [acquire] at hdemand ⊢
  omega

/-- An admission takes one from the load of its endpoint. -/
theorem load_grant {r : Room π ε β} {p : π} {e : ε} (hline : r.waiting p e ≠ []) (e' : ε) :
    (r.grant p e).load e' + (if e' = e then 1 else 0) = r.load e' := by
  unfold load
  have hpoint : ∀ x, ((r.grant p e).waiting x e').length
      + (if x = p then (if e' = e then 1 else 0) else 0) = (r.waiting x e').length := by
    intro x
    have hpos : 0 < (r.waiting p e).length := List.length_pos_of_ne_nil hline
    simp only [grant]
    split_ifs with h₁ h₂ h₃ <;> simp_all
    omega
  rw [← Finset.sum_congr rfl fun x _ => hpoint x, Finset.sum_add_distrib]
  simp

/-- **An admission uses up exactly one unit of the backlog.** With `backlog_release_le` this is why
a room in which nothing is ready gets back to that after a release and an admission. -/
theorem backlog_grant {r : Room π ε β} {p : π} {e : ε} (he : e ∈ hosted) (h : r.Ready p e) :
    (r.grant p e).backlog hosted + 1 = r.backlog hosted := by
  obtain ⟨hline, hcap, htotal⟩ := h
  have hload : r.load e ≠ 0 := fun h0 => hline (load_eq_zero.mp h0 p)
  have hdemand : (r.grant p e).demand hosted + 1 = r.demand hosted := by
    unfold demand
    -- the load and the slack of `e` both go down by one, those of the others stay
    have hpoint : ∀ e', min ((r.grant p e).load e') ((r.grant p e).slack e')
        + (if e' = e then 1 else 0) = min (r.load e') (r.slack e') := by
      intro e'
      have hl := load_grant hline e'
      by_cases he' : e' = e
      · subst he'
        simp only [if_true] at hl ⊢
        have hs : (r.grant p e').slack e' + 1 = r.slack e' := by
          simp only [slack, grant, acquire, if_true]; omega
        omega
      · simp only [if_neg he', Nat.add_zero] at hl ⊢
        have hs : (r.grant p e).slack e' = r.slack e' := by
          simp only [slack, grant, acquire, if_neg he']
        rw [hl, hs]
    rw [← Finset.sum_congr rfl fun e' _ => hpoint e', Finset.sum_add_distrib,
      Finset.sum_ite_eq', if_pos he]
  unfold backlog
  have h' : ((r.grant p e).totalCap - (r.grant p e).total).toNat + 1
      = (r.totalCap - r.total).toNat := by
    simp only [grant, acquire]; omega
  omega

end Backlog

end Room

end Admission
