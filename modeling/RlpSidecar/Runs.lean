/-
**Runs of a labelled step relation**, with the states around every step kept.

A run is a list of transitions, so a statement about a run can speak of what was
true before a step, of its label, and of what changed, without a second trace. Three
rules do all the inductions of the development: an invariant holds along a run, a
ghost history is carried along a run, and steps that use up a measure are bounded by it.

The rules for functions that return `Except` are of the same kind: `inv_of_foldlM` and
`foldlM_of_inv` are for loops that may fail, and `exec_of_trace` makes a run of a computation that
has been evaluated. Nothing here depends on the program.
-/
import Mathlib.Data.List.Basic
import Mathlib.Tactic.Common

set_option autoImplicit false

namespace Runs

variable {S L : Type*}

/-- A step, with the states before and after it, as a run lists it. -/
structure Transition (S L : Type*) where
  pre : S
  label : L
  post : S

/-- A finite run of `step` from one state to another, with the list of its transitions. -/
inductive Exec (step : S → L → S → Prop) : S → List (Transition S L) → S → Prop
  | nil (s : S) : Exec step s [] s
  | cons {s t u : S} {l : L} {ts : List (Transition S L)} (head : step s l t)
      (tail : Exec step t ts u) : Exec step s (⟨s, l, t⟩ :: ts) u

variable {step : S → L → S → Prop}

theorem Exec.single {s t : S} {l : L} (h : step s l t) : Exec step s [⟨s, l, t⟩] t :=
  .cons h (.nil t)

theorem Exec.append {s t u : S} {ts us : List (Transition S L)} (h : Exec step s ts t)
    (h' : Exec step t us u) : Exec step s (ts ++ us) u := by
  induction h with
  | nil => exact h'
  | cons head _ ih => exact .cons head (ih h')

/-- A run over a concatenation passes through a middle state, at which it can be cut. -/
theorem Exec.split {s u : S} {ts us : List (Transition S L)} (h : Exec step s (ts ++ us) u) :
    ∃ t, Exec step s ts t ∧ Exec step t us u := by
  induction ts generalizing s with
  | nil => exact ⟨s, .nil s, h⟩
  | cons x ts ih =>
      cases h with
      | cons head tail =>
          obtain ⟨t, hts, hus⟩ := ih tail
          exact ⟨t, .cons head hts, hus⟩

/-- Every transition of a run is a step, between the states that it lists. -/
theorem Exec.step_of_mem {s u : S} {ts : List (Transition S L)} (h : Exec step s ts u)
    {x : Transition S L} (hx : x ∈ ts) : step x.pre x.label x.post := by
  induction h with
  | nil => simp at hx
  | cons head _ ih =>
      rcases List.mem_cons.mp hx with rfl | hx
      · exact head
      · exact ih hx

/-- **The ghost rule**: a relation between the state and a history that every step of the run
carries on holds at the end. The step may use that it is a member of the run. -/
theorem Exec.ghost {H : Type*} (inv : S → H → Prop) (record : H → Transition S L → H)
    {s u : S} {ts : List (Transition S L)} (h : Exec step s ts u)
    (hstep : ∀ x ∈ ts, ∀ g, inv x.pre g → step x.pre x.label x.post → inv x.post (record g x))
    {g : H} (hs : inv s g) : inv u (ts.foldl record g) := by
  induction h generalizing g with
  | nil => exact hs
  | cons head _ ih =>
      refine ih (fun x hx => hstep x (List.mem_cons_of_mem _ hx)) ?_
      exact hstep _ List.mem_cons_self g hs head

/-- **The history rule**: the ghost is the run so far, which each step extends by itself. -/
theorem Exec.history (inv : S → List (Transition S L) → Prop) {s u : S}
    {ts : List (Transition S L)} (h : Exec step s ts u)
    (hstep : ∀ x ∈ ts, ∀ g, inv x.pre g → step x.pre x.label x.post → inv x.post (g ++ [x]))
    (hs : inv s []) : inv u ts := by
  have hend := h.ghost inv (fun g x => g ++ [x]) hstep hs
  rwa [List.foldl_append_eq_append, List.nil_append, ← List.flatMap_def,
    List.flatMap_singleton'] at hend

/-- **The invariant rule**: what holds at the start and is kept by each step holds at the end. -/
theorem Exec.invariant (inv : S → Prop) {s u : S} {ts : List (Transition S L)}
    (h : Exec step s ts u)
    (hstep : ∀ x ∈ ts, inv x.pre → step x.pre x.label x.post → inv x.post) (hs : inv s) :
    inv u :=
  h.ghost (fun s (_ : Unit) => inv s) (fun g _ => g) (fun x hx _ => hstep x hx) (g := ()) hs

/-- An invariant holds before and after every step of a run, and not only at its end. -/
theorem Exec.invariant_of_mem (inv : S → Prop) {s u : S} {ts : List (Transition S L)}
    (h : Exec step s ts u)
    (hstep : ∀ x ∈ ts, inv x.pre → step x.pre x.label x.post → inv x.post) (hs : inv s)
    {x : Transition S L} (hx : x ∈ ts) : inv x.pre ∧ inv x.post := by
  obtain ⟨before, after, rfl⟩ := List.append_of_mem hx
  obtain ⟨t, hbefore, hrest⟩ := h.split
  cases hrest with
  | cons head _ =>
      have ht : inv t :=
        hbefore.invariant inv (fun y hy => hstep y (List.mem_append_left _ hy)) hs
      exact ⟨ht, hstep _ hx ht head⟩

/-- **The measure rule**: steps that each use up a unit of a measure no step raises are at
most as many as the measure had at the start. -/
theorem Exec.countP_le (Φ : S → ℕ) (spends : Transition S L → Bool) {s u : S}
    {ts : List (Transition S L)} (h : Exec step s ts u)
    (hstep : ∀ x ∈ ts, step x.pre x.label x.post →
      Φ x.post + (if spends x then 1 else 0) ≤ Φ x.pre) :
    ts.countP spends + Φ u ≤ Φ s := by
  induction h with
  | nil => simp
  | @cons s t u l ts head _ ih =>
      have hx := hstep ⟨s, l, t⟩ List.mem_cons_self head
      have hts := ih fun x hx => hstep x (List.mem_cons_of_mem _ hx)
      rw [List.countP_cons]
      dsimp only at hx
      omega

/-! ## Runs of a function -/

/-- The run of a list of operations, for a step given by a function that can fail; the function
also says what label the step gets. -/
def trace {A E : Type*} (next : S → A → Except E (L × S)) :
    S → List A → Except E (List (Transition S L) × S)
  | s, [] => .ok ([], s)
  | s, a :: as =>
    match next s a with
    | .error e => .error e
    | .ok (l, t) =>
      match trace next t as with
      | .error e => .error e
      | .ok (ts, u) => .ok (⟨s, l, t⟩ :: ts, u)

/-- **Running is a run**: what `trace` computes is a run of the operations it was given. -/
theorem exec_of_trace {A E : Type*} {next : S → A → Except E (L × S)} {op : L → A}
    (hnext : ∀ s a l t, next s a = .ok (l, t) → step s l t ∧ op l = a) {s u : S} {as : List A}
    {ts : List (Transition S L)} (h : trace next s as = .ok (ts, u)) :
    Exec step s ts u ∧ ts.map (fun x => op x.label) = as := by
  induction as generalizing s ts with
  | nil =>
      obtain ⟨rfl, rfl⟩ := Prod.mk.inj (Except.ok.inj h)
      exact ⟨.nil s, rfl⟩
  | cons a as ih =>
      unfold trace at h
      split at h
      · simp at h
      rename_i l t hat
      split at h
      · simp at h
      rename_i ts' u' hrest
      obtain ⟨rfl, rfl⟩ := Prod.mk.inj (Except.ok.inj h)
      obtain ⟨hexec, hmap⟩ := ih hrest
      obtain ⟨hstep, hop⟩ := hnext s a l t hat
      exact ⟨.cons hstep hexec, by rw [List.map_cons, hmap, hop]⟩

/-! ## Folds that can fail -/

section Folds

variable {A E : Type*} {next : S → A → Except E S}

theorem foldlM_cons_ok {s u : S} {a : A} {as : List A} :
    (a :: as).foldlM next s = .ok u ↔ ∃ t, next s a = .ok t ∧ as.foldlM next t = .ok u := by
  rw [List.foldlM_cons]
  cases h : next s a with
  | error e => simp [bind, Except.bind]
  | ok t => simp [bind, Except.bind]

/-- **A fold that has not failed** keeps an invariant, which may speak of what has been passed. -/
theorem inv_of_foldlM (inv : List A → S → Prop)
    (hstep : ∀ done a s t, inv done s → next s a = .ok t → inv (done ++ [a]) t)
    {as done : List A} {s u : S} (h : as.foldlM next s = .ok u) (hs : inv done s) :
    inv (done ++ as) u := by
  induction as generalizing done s with
  | nil =>
      obtain rfl := Except.ok.inj h
      rwa [List.append_nil]
  | cons a as ih =>
      obtain ⟨t, ht, hrest⟩ := foldlM_cons_ok.mp h
      have hend := ih hrest (hstep done a s t hs ht)
      rwa [List.append_assoc, List.singleton_append] at hend

/-- **A fold does not fail** if under the invariant no step of it does. -/
theorem foldlM_of_inv (inv : List A → S → Prop) {as : List A}
    (hstep : ∀ done a rest s, as = done ++ a :: rest → inv done s →
      ∃ t, next s a = .ok t ∧ inv (done ++ [a]) t)
    {s : S} (hs : inv [] s) : ∃ u, as.foldlM next s = .ok u ∧ inv as u := by
  -- the induction is on what is left
  have hrest : ∀ rest done s, as = done ++ rest → inv done s →
      ∃ u, rest.foldlM next s = .ok u ∧ inv as u := by
    intro rest
    induction rest with
    | nil =>
        intro done s has hs
        rw [List.append_nil] at has
        rw [has]
        exact ⟨s, rfl, hs⟩
    | cons a rest ih =>
        intro done s has hs
        obtain ⟨t, ht, hinv⟩ := hstep done a rest s has hs
        obtain ⟨u, hu, hend⟩ := ih (done ++ [a]) t (by rw [has, List.append_assoc]; rfl) hinv
        exact ⟨u, foldlM_cons_ok.mpr ⟨t, ht, hu⟩, hend⟩
  exact hrest as [] s rfl hs

end Folds

end Runs
