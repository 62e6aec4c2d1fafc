/-
**Readers that ask for more.** A reader is given what has come so far. It returns what it found,
with what is left of its input, or it fails; and one of its failures means that the input may go
on. A reader is settled if nothing that comes later changes an answer that was not this one.
Readers are put together with `bind`, and stay settled.

Nothing here depends on the program.

For a parser this is what makes it possible to call it with more and more of a message: once it has
answered, the answer stands, whatever comes behind it. `behind` and `behindRest` say what more
input is: bytes at the end of a list, and bytes at the end of what a result has left.
-/
import Mathlib.Tactic.Common

set_option autoImplicit false

universe u

namespace Incremental

variable {S E α β γ : Type u} {more : E} {pushα : S → α → α} {pushβ : S → β → β} {pushγ : S → γ → γ}

/-- Once `f` does not ask for more, what comes later is only put behind what is left. For each
type, `push s` puts `s` behind the part of it that is input. -/
def Settled (more : E) (pushα : S → α → α) (pushβ : S → β → β) (f : α → Except E β) : Prop :=
  ∀ s a, f a ≠ .error more → f (pushα s a) = (f a).map (pushβ s)

/-- One reader after the other: if neither changes its mind on a longer input, both together do
not. -/
theorem Settled.bind {f : α → Except E β} {g : β → Except E γ} (hf : Settled more pushα pushβ f)
    (hg : Settled more pushβ pushγ g) : Settled more pushα pushγ fun a => f a >>= g := by
  intro s a h
  dsimp only at h ⊢
  cases hfa : f a with
  | error e =>
      rw [hfa] at h
      have hstep := hf s a (by rw [hfa]; exact fun heq => h (by cases heq; rfl))
      rw [hstep, hfa]
      rfl
  | ok b =>
      rw [hfa] at h
      have hstep := hf s a (by rw [hfa]; exact fun heq => by cases heq)
      rw [hstep, hfa]
      exact hg s b h

/-- Nothing is read: a function that commutes with more input is settled, and never fails. -/
theorem Settled.map {f : α → β} (hf : ∀ s a, f (pushα s a) = pushβ s (f a)) :
    Settled (E := E) more pushα pushβ fun a => .ok (f a) := by
  intro s a _
  dsimp only
  rw [hf]
  rfl

/-- What was found is put together with what was there before, which more input does not change. -/
theorem Settled.result {f : α → Except E β} {g : α → β → γ} (hf : Settled more pushα pushβ f)
    (hg : ∀ s a b, g (pushα s a) (pushβ s b) = pushγ s (g a b)) :
    Settled more pushα pushγ fun a => f a >>= fun b => .ok (g a b) := by
  intro s a h
  dsimp only at h ⊢
  cases hfa : f a with
  | error e =>
      rw [hfa] at h
      have hstep := hf s a (by rw [hfa]; exact fun heq => h (by cases heq; rfl))
      rw [hstep, hfa]
      rfl
  | ok b =>
      have hstep := hf s a (by rw [hfa]; exact fun heq => by cases heq)
      rw [hstep, hfa]
      exact congrArg Except.ok (hg s a b)

theorem Settled.error (e : E) : Settled more pushα pushβ fun _ => .error e := fun _ _ _ => rfl

/-- What does not look at the input fails or goes on, whatever the input is. -/
theorem Settled.after {x : Except E β} {g : β → α → Except E γ}
    (hg : ∀ b, Settled more pushα pushγ (g b)) :
    Settled more pushα pushγ fun a => x >>= fun b => g b a := by
  cases x with
  | error e => exact .error e
  | ok b => exact hg b

/-- The choice between two readers does not depend on what comes later. -/
theorem Settled.ite {p : α → Prop} [DecidablePred p] {f g : α → Except E β}
    (hp : ∀ s a, p (pushα s a) ↔ p a) (hf : Settled more pushα pushβ f)
    (hg : Settled more pushα pushβ g) :
    Settled more pushα pushβ fun a => if p a then f a else g a := by
  intro s a h
  dsimp only at h ⊢
  by_cases ha : p a
  · rw [if_pos ha] at h
    rw [if_pos ha, if_pos ((hp s a).mpr ha)]
    exact hf s a h
  · rw [if_neg ha] at h
    rw [if_neg ha, if_neg fun hpush => ha ((hp s a).mp hpush)]
    exact hg s a h

/-- What was found on a longer input is found on its beginning, or more is asked for there. -/
theorem Settled.of_ok {f : α → Except E β} (hf : Settled more pushα pushβ f) {s : S} {a : α} {b : β}
    (h : f (pushα s a) = .ok b) : f a = .error more ∨ ∃ b', f a = .ok b' ∧ b = pushβ s b' := by
  by_cases hmore : f a = .error more
  · exact .inl hmore
  have hstep := hf s a hmore
  rw [h] at hstep
  cases hfa : f a with
  | error e =>
      rw [hfa] at hstep
      cases hstep
  | ok b' =>
      rw [hfa] at hstep
      exact .inr ⟨b', rfl, Except.ok.inj hstep⟩

/-- What was found is found on a longer input, with the additional input left behind it. -/
theorem Settled.ok {f : α → Except E β} (hf : Settled more pushα pushβ f)
    {a : α} {b : β} (h : f a = .ok b) (s : S) :
    f (pushα s a) = .ok (pushβ s b) := by
  have hstep := hf s a (by rw [h]; exact fun heq => by cases heq)
  rw [hstep, h]
  rfl

section Lists

variable {T δ : Type u}

/-- The input is a list, and more of it comes at its end. -/
def behind (s p : List T) : List T := p ++ s

/-- The input is what is left behind a result, and the result itself stays. -/
def behindRest (s : List T) (x : δ × List T) : δ × List T := (x.1, x.2 ++ s)

/-- A reader that goes on from a result reads what is left. -/
theorem Settled.ofRest {ε : Type u} {pushε : List T → ε → ε} {g : δ × List T → Except E ε}
    (hg : ∀ d, Settled more behind pushε fun buf => g (d, buf)) : Settled more behindRest pushε g :=
  fun s x h => hg x.1 s x.2 h

end Lists

end Incremental
