import Mathlib

/-!
# Ordered maps

`std::collections::BTreeMap` and `BTreeSet`, as the maps and sets of the standard library. What is
said here about them is in terms of lookups and of equality of keys.
-/

namespace Rust

open List

/-- `std::collections::BTreeMap`. -/
abbrev BTreeMap (K V : Type) [Ord K] : Type := Std.ExtTreeMap K V compare

/-- `std::collections::BTreeSet`. -/
abbrev BTreeSet (K : Type) [Ord K] : Type := Std.ExtTreeSet K compare

variable {K V : Type} [Ord K] [Std.TransOrd K]

namespace BTreeMap

/-- `BTreeMap::values`, in the order of the keys. -/
def vals (m : BTreeMap K V) : List V := m.toList.map Prod.snd

theorem mem_iff (m : BTreeMap K V) (k : K) : k ∈ m ↔ ∃ v, m[k]? = some v := by
  rw [Std.ExtTreeMap.mem_iff_isSome_getElem?, Option.isSome_iff_exists]

variable {m : BTreeMap K V}

/-- An entry of a union of maps is an entry of one of them. -/
theorem of_get_foldl_union {maps : List (BTreeMap K V)} {k : K} {v : V}
    (h : (maps.foldl (· ∪ ·) m)[k]? = some v) : m[k]? = some v ∨ ∃ m' ∈ maps, m'[k]? = some v := by
  induction maps generalizing m with
  | nil => exact Or.inl h
  | cons m' rest ih =>
    rcases ih h with h | ⟨m'', hmem, h⟩
    · rw [Std.ExtTreeMap.getElem?_union, Option.or_eq_some_iff] at h
      rcases h with h | ⟨-, h⟩
      · exact Or.inr ⟨m', mem_cons_self, h⟩
      · exact Or.inl h
    · exact Or.inr ⟨m'', mem_cons_of_mem _ hmem, h⟩

theorem mem_foldl_union (maps : List (BTreeMap K V)) (m : BTreeMap K V) (k : K) :
    k ∈ maps.foldl (· ∪ ·) m ↔ k ∈ m ∨ ∃ m' ∈ maps, k ∈ m' := by
  induction maps generalizing m with
  | nil => simp
  | cons m' rest ih =>
    rw [foldl_cons, ih, Std.ExtTreeMap.mem_union_iff, exists_mem_cons_iff, or_assoc]

variable [Std.LawfulEqOrd K]

theorem get_insert [DecidableEq K] (m : BTreeMap K V) (k a : K) (v : V) :
    (m.insert k v)[a]? = if k = a then some v else m[a]? := by
  rw [Std.ExtTreeMap.getElem?_insert]
  simp only [Std.LawfulEqOrd.compare_eq_iff_eq]

theorem get_erase [DecidableEq K] (m : BTreeMap K V) (k a : K) :
    (m.erase k)[a]? = if k = a then none else m[a]? := by
  rw [Std.ExtTreeMap.getElem?_erase]
  simp only [Std.LawfulEqOrd.compare_eq_iff_eq]

theorem mem_insert (m : BTreeMap K V) (k a : K) (v : V) : a ∈ m.insert k v ↔ a = k ∨ a ∈ m := by
  rw [Std.ExtTreeMap.mem_insert, Std.LawfulEqOrd.compare_eq_iff_eq]
  exact or_congr_left eq_comm

theorem mem_erase (m : BTreeMap K V) (k a : K) : a ∈ m.erase k ↔ a ≠ k ∧ a ∈ m := by
  rw [Std.ExtTreeMap.mem_erase, Ne, Std.LawfulEqOrd.compare_eq_iff_eq]
  exact and_congr_left fun _ => not_congr eq_comm

theorem mem_toList (m : BTreeMap K V) (k : K) (v : V) : (k, v) ∈ m.toList ↔ m[k]? = some v :=
  Std.ExtTreeMap.mem_toList_iff_getElem?_eq_some

theorem mem_vals (m : BTreeMap K V) (v : V) : v ∈ vals m ↔ ∃ k : K, m[k]? = some v := by
  simp only [vals, mem_map, Prod.exists, mem_toList, exists_eq_right]

/-- The keys of the entries in order are all different. -/
theorem nodup_keys_toList (m : BTreeMap K V) : (m.toList.map Prod.fst).Nodup := by
  rw [nodup_iff_pairwise_ne, pairwise_map]
  refine Std.ExtTreeMap.ordered_keys_toList.imp fun {a b} hlt heq => ?_
  rw [heq, Std.ReflOrd.compare_self] at hlt
  cases hlt

theorem nodup_keys (m : BTreeMap K V) : m.keys.Nodup := by
  rw [nodup_iff_pairwise_ne]
  refine Std.ExtTreeMap.ordered_keys.imp fun {a b} hlt heq => ?_
  rw [heq, Std.ReflOrd.compare_self] at hlt
  cases hlt

theorem mem_of_mem_toList {entry : K × V} (h : entry ∈ m.toList) : entry.1 ∈ m :=
  (mem_iff m entry.1).mpr ⟨entry.2, (mem_toList m entry.1 entry.2).mp h⟩

theorem mem_keys_toList (m : BTreeMap K V) (k : K) : k ∈ m.toList.map Prod.fst ↔ k ∈ m := by
  simp only [mem_iff, mem_map, Prod.exists, mem_toList, exists_and_right, exists_eq_right]

end BTreeMap

namespace BTreeSet

variable [Std.LawfulEqOrd K]

variable (s : BTreeSet K)
include s

theorem mem_insert (k a : K) : a ∈ s.insert k ↔ a = k ∨ a ∈ s := by
  rw [Std.ExtTreeSet.mem_insert, Std.LawfulEqOrd.compare_eq_iff_eq]
  exact or_congr_left eq_comm

theorem mem_erase (k a : K) : a ∈ s.erase k ↔ a ≠ k ∧ a ∈ s := by
  rw [Std.ExtTreeSet.mem_erase, Ne, Std.LawfulEqOrd.compare_eq_iff_eq]
  exact and_congr_left fun _ => not_congr eq_comm

theorem mem_insertMany [DecidableEq K] (ks : List K) (a : K) :
    a ∈ s.insertMany ks ↔ a ∈ s ∨ a ∈ ks := by
  rw [Std.ExtTreeSet.mem_insertMany_list, contains_iff_mem]

theorem mem_foldl_erase (ks : List K) (a : K) :
    a ∈ ks.foldl (fun set key => set.erase key) s ↔ a ∈ s ∧ a ∉ ks := by
  induction ks generalizing s with
  | nil => simp
  | cons k ks ih =>
    rw [foldl_cons, ih, mem_erase, mem_cons, not_or]
    tauto

end BTreeSet

end Rust
