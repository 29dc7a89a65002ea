import Mathlib

/-!
# Hash maps

`std::collections::HashMap` as the list of its entries, no two of which have one key. Nothing here
depends on the order of the entries.
-/

namespace Rust

/-- `std::collections::HashMap`. -/
abbrev HashMap (K V : Type) : Type := AList fun _ : K => V

namespace HashMap

variable {K V : Type} [DecidableEq K]

/-- `HashMap::len`. -/
def len (m : HashMap K V) : ℕ := m.entries.length

/-- `HashMap::retain`. -/
def retain (m : HashMap K V) (keep : K → V → Bool) : HashMap K V :=
  ⟨m.entries.filter fun entry => keep entry.1 entry.2, m.nodupKeys.sublist List.filter_sublist⟩

variable (m : HashMap K V)

theorem lookup_retain (keep : K → V → Bool) (k : K) :
    (m.retain keep).lookup k = (m.lookup k).filter (keep k) := by
  refine Option.ext fun v => ?_
  have hkept : ⟨k, v⟩ ∈ (m.retain keep).entries ↔ ⟨k, v⟩ ∈ m.entries ∧ keep k v = true :=
    List.mem_filter
  rw [Option.filter_eq_some_iff, ← Option.mem_def, ← Option.mem_def, AList.mem_lookup_iff,
    AList.mem_lookup_iff, hkept]

/-- Leaves an entry as a computation on it decides: with a new value, or removed. -/
def set (m : HashMap K V) (k : K) : Option V → HashMap K V
  | some v => m.insert k v
  | none => m.erase k

@[simp] theorem lookup_set_self (k : K) (v : Option V) : (m.set k v).lookup k = v := by
  cases v with
  | none => exact AList.lookup_erase k m
  | some v => exact AList.lookup_insert m

theorem lookup_set_of_ne {k k' : K} (h : k' ≠ k) (v : Option V) :
    (m.set k v).lookup k' = m.lookup k' := by
  cases v with
  | none => exact AList.lookup_erase_ne h
  | some v => exact AList.lookup_insert_ne h

end HashMap

end Rust
