import SimMaster.Method

/-!
# Triples

A method that works on the world outside does one thing after the other and may fail after each. A
triple says what holds of the state after it has returned and what after it has failed; the rules
put triples together along the steps of a method.
-/

namespace Rust.Method

open List

variable {σ ε α β : Type}

/-- Called where `P` holds, the method returns with `Q` or fails with `E`. -/
def Triple (P : σ → Prop) (m : Method σ ε α) (Q : α → σ → Prop) (E : σ → Prop) : Prop :=
  ∀ s, P s → (∀ a s', call m s = (.ok a, s') → Q a s') ∧ ∀ e s', call m s = (.error e, s') → E s'

section Rules

variable {P P' : σ → Prop} {Q Q' : α → σ → Prop} {R : β → σ → Prop} {E : σ → Prop}

theorem Triple.of_pure {a : α} (h : ∀ s, P s → Q a s) : Triple P (pure a : Method σ ε α) Q E := by
  intro s hs
  refine ⟨?_, fun e s' hcall => by cases hcall⟩
  rintro a' s' ⟨⟩
  exact h s hs

theorem Triple.of_throw {e : ε} (h : ∀ s, P s → E s) : Triple P (throw e : Method σ ε α) Q E := by
  intro s hs
  refine ⟨(fun a s' hcall => by cases hcall), ?_⟩
  rintro e' s' ⟨⟩
  exact h s hs

theorem Triple.of_lift {x : Except ε α} (hok : ∀ a, x = .ok a → ∀ s, P s → Q a s)
    (herror : ∀ s, P s → E s) : Triple P (liftM x : Method σ ε α) Q E := by
  cases x with
  | error e => exact .of_throw herror
  | ok a => exact .of_pure (hok a rfl)

variable {m : Method σ ε α}

theorem Triple.bind {f : α → Method σ ε β} (hm : Triple P m Q E)
    (hf : ∀ a, Triple (Q a) (f a) R E) : Triple P (m >>= f) R E := by
  intro s hs
  obtain ⟨hok, herror⟩ := hm s hs
  rw [call_bind]
  rcases hcall : call m s with ⟨e | a, s₁⟩
  · refine ⟨(fun b s' h => by cases h), ?_⟩
    rintro e' s' ⟨⟩
    exact herror e s₁ hcall
  · exact hf a s₁ (hok a s₁ hcall)

theorem Triple.mono (hm : Triple P m Q E) (hP : ∀ s, P' s → P s)
    (hQ : ∀ a s, Q a s → Q' a s) : Triple P' m Q' E := by
  intro s hs
  obtain ⟨hok, herror⟩ := hm s (hP s hs)
  exact ⟨fun a s' h => hQ a s' (hok a s' h), herror⟩

theorem Triple.weaken (hm : Triple P m Q E) (hP : ∀ s, P' s → P s) :
    Triple P' m Q E := hm.mono hP fun _ _ h => h

theorem Triple.strengthen (hm : Triple P m Q E)
    (hQ : ∀ a s, Q a s → Q' a s) : Triple P m Q' E := hm.mono (fun _ h => h) hQ

theorem Triple.relax {E' : σ → Prop} (hm : Triple P m Q E)
    (hE : ∀ s, E s → E' s) : Triple P m Q E' := by
  intro s hs
  obtain ⟨hok, herror⟩ := hm s hs
  exact ⟨hok, fun e s' h => hE s' (herror e s' h)⟩

/-- A fact about what was returned may be used by what follows. -/
theorem Triple.given {φ : Prop} (h : φ → Triple P m Q E) :
    Triple (fun s => φ ∧ P s) m Q E := fun s hs => h hs.1 s hs.2

end Rules

end Rust.Method
