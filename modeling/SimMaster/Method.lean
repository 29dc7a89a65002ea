import Mathlib

/-!
# Fallible methods

A method `fn(&mut self, ..) -> Result<α, ε>` reads and writes its state and may return early with an
error; what it wrote before stays written. `Method` is the monad of such methods and `call` runs one
on a state. A method is `Atomic` if it leaves the state as it was whenever it fails, and the rules
below establish this from the order of its steps: first steps that only read (`ReadOnly`), then
steps that cannot fail (`Infallible`).
-/

namespace Rust

/-- A method on the state `σ` with errors in `ε`. -/
abbrev Method (σ ε α : Type) : Type := ExceptT ε (StateM σ) α

namespace Method

variable {σ ε α β : Type}

/-- Call the method on a state: its result and the state it leaves. -/
def call (m : Method σ ε α) (s : σ) : Except ε α × σ := StateT.run (ExceptT.run m) s

@[simp] theorem call_pure (a : α) (s : σ) : call (pure a : Method σ ε α) s = (.ok a, s) := rfl

@[simp] theorem call_throw (e : ε) (s : σ) :
    call (throw e : Method σ ε α) s = (.error e, s) := rfl

@[simp] theorem call_get (s : σ) : call (get : Method σ ε σ) s = (.ok s, s) := rfl

@[simp] theorem call_modify (f : σ → σ) (s : σ) :
    call (modify f : Method σ ε PUnit) s = (.ok PUnit.unit, f s) := rfl

@[simp] theorem call_lift (x : Except ε α) (s : σ) :
    call (liftM x : Method σ ε α) s = (x, s) := rfl

theorem call_bind (m : Method σ ε α) (f : α → Method σ ε β) (s : σ) :
    call (m >>= f) s = match call m s with
      | (.ok a, s') => call (f a) s'
      | (.error e, s') => (.error e, s') := by
  simp only [call, ExceptT.run_bind, StateT.run_bind]
  rcases StateT.run (ExceptT.run m) s with ⟨_ | _, _⟩ <;> rfl

/-- A step that lifts a pure result. -/
theorem call_lift_bind (x : Except ε α) (f : α → Method σ ε β) (s : σ) :
    call ((liftM x : Method σ ε α) >>= f) s = match x with
      | .ok a => call (f a) s
      | .error e => (.error e, s) := by
  rw [call_bind, call_lift]
  cases x <;> rfl

theorem call_get_bind (f : σ → Method σ ε β) (s : σ) :
    call ((get : Method σ ε σ) >>= f) s = call (f s) s := rfl

theorem call_modify_bind (g : σ → σ) (f : PUnit → Method σ ε β) (s : σ) :
    call ((modify g : Method σ ε PUnit) >>= f) s = call (f PUnit.unit) (g s) := rfl

variable {c : Prop}

theorem call_guard [Decidable c] (e : ε) (f : α → Method σ ε β) (m : Method σ ε β)
    (s : σ) : call (if c then throw e >>= f else m) s = if c then (.error e, s) else call m s := by
  split
  next => rfl
  next => rfl

variable {e : ε} {f : α → Method σ ε β} {s s' : σ} {b : β}

/-- A guard that was passed. -/
theorem call_guard_eq_ok [Decidable c] {m : Method σ ε β}
    (h : call (if c then throw e >>= f else m) s = (.ok b, s')) :
    ¬ c ∧ call m s = (.ok b, s') := by
  split at h
  next hc => cases h
  next hc => exact ⟨hc, h⟩

variable {x : Except ε α}

/-- A lifted result that was used. -/
theorem call_lift_bind_eq_ok (h : call ((liftM x : Method σ ε α) >>= f) s = (.ok b, s')) :
    ∃ a, x = .ok a ∧ call (f a) s = (.ok b, s') := by
  cases x with
  | error e => cases h
  | ok a => exact ⟨a, rfl, h⟩

/-- A guard of a pure computation that was passed. -/
theorem guard_eq_ok [Decidable c] {f : α → Except ε β} {x : Except ε β}
    (h : (if c then throw e >>= f else x) = .ok b) : ¬ c ∧ x = .ok b := by
  split at h
  next hc => cases h
  next hc => exact ⟨hc, h⟩

/-! ## Errors -/

/-- Every error of the result satisfies `P`. -/
def Raises (P : ε → Prop) (x : Except ε α) : Prop := ∀ e, x = .error e → P e

variable {P : ε → Prop}

theorem Raises.ok (a : α) : Raises P (.ok a : Except ε α) := fun _ h => by cases h

theorem Raises.error (h : P e) : Raises P (.error e : Except ε α) := by
  rintro e' ⟨⟩
  exact h

/-- A bind whose second part may use what the first has given. -/
theorem Raises.bind_of {f : α → Except ε β} (hx : Raises P x)
    (hf : ∀ a, x = .ok a → Raises P (f a)) : Raises P (x >>= f) := by
  cases x with
  | error e =>
    rintro e' ⟨⟩
    exact hx e rfl
  | ok a => exact hf a rfl

theorem Raises.bind {f : α → Except ε β} (hx : Raises P x)
    (hf : ∀ a, Raises P (f a)) : Raises P (x >>= f) := hx.bind_of fun a _ => hf a

theorem Raises.guard [Decidable c] {f : α → Except ε β}
    {x : Except ε β} (he : P e) (hx : Raises P x) : Raises P (if c then throw e >>= f else x) := by
  split
  next =>
    rintro e' ⟨⟩
    exact he
  next => exact hx

/-! ## Atomic methods -/

/-- A failure leaves the state as it was. -/
def Atomic (m : Method σ ε α) : Prop := ∀ s e s', call m s = (.error e, s') → s' = s

/-- No call changes the state. -/
def ReadOnly (m : Method σ ε α) : Prop := ∀ s, (call m s).2 = s

/-- No call fails. -/
def Infallible (m : Method σ ε α) : Prop := ∀ s e, (call m s).1 ≠ .error e

variable {m : Method σ ε α}

theorem ReadOnly.atomic (h : ReadOnly m) : Atomic m := by
  intro s e s' hcall
  have := h s
  rwa [hcall] at this

theorem Infallible.atomic (h : Infallible m) : Atomic m := by
  intro s e s' hcall
  exact absurd (by rw [hcall]) (h s e)

theorem readOnly_get : ReadOnly (get : Method σ ε σ) := fun _ => rfl

theorem readOnly_lift (x : Except ε α) : ReadOnly (liftM x : Method σ ε α) := fun _ => rfl

theorem readOnly_throw (e : ε) : ReadOnly (throw e : Method σ ε α) := fun _ => rfl

theorem infallible_pure (a : α) : Infallible (pure a : Method σ ε α) := fun _ _ h => by cases h

theorem infallible_modify (f : σ → σ) : Infallible (modify f : Method σ ε PUnit) :=
  fun _ _ h => by cases h

theorem Infallible.bind (hm : Infallible m)
    (hf : ∀ a, Infallible (f a)) : Infallible (m >>= f) := by
  intro s e h
  rw [call_bind] at h
  rcases hcall : call m s with ⟨e' | a, t⟩
  · exact hm s e' (by rw [hcall])
  · rw [hcall] at h
    exact hf a t e h

/-- Every error of the method satisfies `P`. -/
def RaisesOnly (P : ε → Prop) (m : Method σ ε α) : Prop :=
  ∀ s e s', call m s = (.error e, s') → P e

theorem Infallible.raisesOnly (h : Infallible m) : RaisesOnly P m := by
  intro s e s' hcall
  exact absurd (by rw [hcall]) (h s e)

theorem RaisesOnly.of_throw (he : P e) : RaisesOnly P (throw e : Method σ ε α) := by
  rintro s e' s' ⟨⟩
  exact he

theorem RaisesOnly.get_bind {f : σ → Method σ ε β} (hf : ∀ s, RaisesOnly P (f s)) :
    RaisesOnly P (get >>= f) := fun s e s' h => hf s s e s' h

theorem RaisesOnly.lift_bind (hx : Raises P x) (hf : ∀ a, RaisesOnly P (f a)) :
    RaisesOnly P ((liftM x : Method σ ε α) >>= f) := by
  intro s e s' h
  rw [call_lift_bind] at h
  cases x with
  | error e' =>
    cases h
    exact hx _ rfl
  | ok a => exact hf a s e s' h

theorem RaisesOnly.guard [Decidable c] {m : Method σ ε β} (he : P e) (hm : RaisesOnly P m) :
    RaisesOnly P (if c then throw e >>= f else m) := by
  split
  next =>
    rintro s e' s' ⟨⟩
    exact he
  next => exact hm

/-- Reading first does not spoil atomicity. -/
theorem Atomic.bind_readOnly (hm : ReadOnly m) (hf : ∀ a, Atomic (f a)) : Atomic (m >>= f) := by
  intro s e s' h
  rw [call_bind] at h
  have hstate := hm s
  rcases hcall : call m s with ⟨e' | a, t⟩
  all_goals
    rw [hcall] at h hstate
    obtain rfl : t = s := hstate
  · cases h
    rfl
  · exact hf a _ e s' h

/-- A guard fails before anything is written. -/
theorem Atomic.guard [Decidable c] {m : Method σ ε β}
    (hm : Atomic m) : Atomic (if c then throw e >>= f else m) := by
  split
  next =>
    intro s e' s' h
    cases h
    rfl
  next => exact hm

end Method

end Rust
