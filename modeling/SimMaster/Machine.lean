import Mathlib

/-!
# Machines

A component that is called again and again and keeps its own state between the calls is a function
`step : σ → ι → ω × σ`: from the state and the arguments of a call it gives the answer and the
next state. This file names the two things one says about a whole run, the state it ends in
(`run`) and the list of calls with their answers (`trace`), and packages the induction over a
run: what holds before the first call and is kept by every call holds after any run
(`run_invariant`), also when it speaks about the calls made so far (`history_invariant`).
-/

namespace Machine

open List

variable {σ ι ω : Type*} (step : σ → ι → ω × σ)

/-- The state after the calls `xs`. -/
def run (s : σ) (xs : List ι) : σ := xs.foldl (fun s x => (step s x).2) s

/-- The calls `xs` in order, each with its answer. -/
def trace : σ → List ι → List (ι × ω)
  | _, [] => []
  | s, x :: xs => (x, (step s x).1) :: trace (step s x).2 xs

@[simp] theorem run_nil (s : σ) : run step s [] = s := rfl

@[simp] theorem run_cons (s : σ) (x : ι) (xs : List ι) :
    run step s (x :: xs) = run step (step s x).2 xs := rfl

@[simp] theorem trace_nil (s : σ) : trace step s [] = [] := rfl

@[simp] theorem trace_cons (s : σ) (x : ι) (xs : List ι) :
    trace step s (x :: xs) = (x, (step s x).1) :: trace step (step s x).2 xs := rfl

theorem run_append (s : σ) (xs ys : List ι) :
    run step s (xs ++ ys) = run step (run step s xs) ys := by
  rw [run, foldl_append]
  rfl

theorem run_concat (s : σ) (xs : List ι) (x : ι) :
    run step s (xs ++ [x]) = (step (run step s xs) x).2 := by
  rw [run_append]
  rfl

theorem trace_append (s : σ) (xs ys : List ι) :
    trace step s (xs ++ ys) = trace step s xs ++ trace step (run step s xs) ys := by
  induction xs generalizing s with
  | nil => rfl
  | cons x xs ih => rw [cons_append, trace_cons, ih, trace_cons, run_cons, cons_append]

theorem trace_concat (s : σ) (xs : List ι) (x : ι) :
    trace step s (xs ++ [x]) = trace step s xs ++ [(x, (step (run step s xs) x).1)] :=
  trace_append step s xs [x]

@[simp] theorem map_fst_trace (s : σ) (xs : List ι) : (trace step s xs).map Prod.fst = xs := by
  induction xs generalizing s with
  | nil => rfl
  | cons x xs ih => rw [trace_cons, map_cons, ih]

variable {s : σ} {xs : List ι}

/-- An answer of a run is that of a call in the state the calls before it led to. -/
theorem mem_trace {answer : ι × ω} (h : answer ∈ trace step s xs) :
    ∃ front, answer.2 = (step (run step s front) answer.1).1 := by
  induction xs generalizing s with
  | nil => cases h
  | cons x xs ih =>
    rcases mem_cons.mp h with rfl | h
    · exact ⟨[], rfl⟩
    · obtain ⟨front, heq⟩ := ih h
      exact ⟨x :: front, heq⟩

/-- What holds at the start and survives every call of a kind holds after a run of such calls. -/
theorem run_invariant_of {Inv : σ → Prop} {P : ι → Prop} (hs : Inv s)
    (hstep : ∀ s x, P x → Inv s → Inv (step s x).2) (hxs : ∀ x ∈ xs, P x) :
    Inv (run step s xs) := by
  induction xs generalizing s with
  | nil => exact hs
  | cons x xs ih =>
    obtain ⟨hx, hrest⟩ := forall_mem_cons.mp hxs
    exact ih (hstep s x hx hs) hrest

/-- **Invariants of the state.** What holds at the start and survives every call holds after
every run. -/
theorem run_invariant {Inv : σ → Prop} {s : σ} (hs : Inv s)
    (hstep : ∀ s x, Inv s → Inv (step s x).2) (xs : List ι) : Inv (run step s xs) :=
  run_invariant_of step hs (fun s x _ => hstep s x) (fun x (_ : x ∈ xs) => trivial)

/-- Every call of the run is made in a state it suits. -/
def Along (P : σ → ι → Prop) : σ → List ι → Prop
  | _, [] => True
  | s, x :: xs => P s x ∧ Along P (step s x).2 xs

instance instDecidableAlong {P : σ → ι → Prop} [∀ s x, Decidable (P s x)] :
    ∀ s xs, Decidable (Along step P s xs)
  | _, [] => inferInstanceAs (Decidable True)
  | s, x :: xs =>
    have : Decidable (Along step P (step s x).2 xs) := instDecidableAlong (step s x).2 xs
    inferInstanceAs (Decidable (P s x ∧ Along step P (step s x).2 xs))

/-- What holds at the start and survives every call made in a state it suits holds after a run of
such calls. -/
theorem run_invariant_along {P : σ → ι → Prop} {Inv : σ → Prop} {s : σ} (hs : Inv s)
    (hstep : ∀ s x, P s x → Inv s → Inv (step s x).2) {xs : List ι} (hxs : Along step P s xs) :
    Inv (run step s xs) := by
  induction xs generalizing s with
  | nil => exact hs
  | cons x xs ih => exact ih (hstep s x hxs.1 hs) hxs.2

variable {P : σ → ι → Prop} {x : ι}

theorem Along.at {front : List ι} {back : List ι}
    (h : Along step P s (front ++ x :: back)) : P (run step s front) x := by
  induction front generalizing s with
  | nil => exact h.1
  | cons y front ih => exact ih h.2

/-- The last call of a run is made in the state the others led to. -/
theorem along_concat : Along step P s (xs ++ [x]) ↔ Along step P s xs ∧ P (run step s xs) x := by
  induction xs generalizing s with
  | nil => exact ⟨fun h => ⟨trivial, h.1⟩, fun h => ⟨h.2, trivial⟩⟩
  | cons y xs ih => rw [cons_append, Along, Along, ih, run_cons, and_assoc]

/-- **Invariants of the history.** The same for a relation between the calls answered so far and
the state they led to: each call puts its own answer at the end of the history. -/
theorem history_invariant {Inv : List (ι × ω) → σ → Prop} {s : σ} (hs : Inv [] s)
    (hstep : ∀ h s x, Inv h s → Inv (h ++ [(x, (step s x).1)]) (step s x).2) (xs : List ι) :
    Inv (trace step s xs) (run step s xs) := by
  -- the induction takes calls off the end, where the history grows
  induction xs using reverseRecOn with
  | nil => exact hs
  | append_singleton xs x ih =>
    rw [trace_concat, run_concat]
    exact hstep _ _ x ih

end Machine
