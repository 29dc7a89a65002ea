import Mathlib

/-!
# Sliding replay windows

A replay filter of width `W` sees numbered packets and admits each number once. It may forget:
a number `W` or more below the highest one admitted is refused unseen. `Admits` says this over
the set of all numbers admitted so far. `Tracks` says when a highest number and a window of bits
(bit `i` stands for the number `i` below the highest) know enough of that set to decide it, and
the two ways such a window moves keep the relation: a new highest number shifts the bits
(`Tracks.raise`), a late one sets a bit (`Tracks.mark`).
-/

namespace ReplayWindow

/-- A filter of width `W` that has admitted the numbers of `S` admits `n`: a positive number, not
admitted before, and less than `W` below the highest of `S` if there is one. -/
def Admits (W : ℕ) (S : Finset ℕ) (n : ℕ) : Prop :=
  0 < n ∧ n ∉ S ∧ (S = ∅ ∨ S.sup id < n + W)

/-- The highest number and the bits below it describe the last `W` numbers of `S`. -/
structure Tracks (W : ℕ) (S : Finset ℕ) (highest : ℕ) (bits : ℕ → Bool) : Prop where
  pos : ∀ n ∈ S, 0 < n
  highest_eq : S.sup id = highest
  bit_iff : ∀ i, bits i = true ↔ i < W ∧ highest - i ∈ S

variable {W n highest : ℕ} {S : Finset ℕ} {bits bits' : ℕ → Bool}

theorem Tracks.empty (W : ℕ) : Tracks W ∅ 0 fun _ => false where
  pos := by simp
  highest_eq := rfl
  bit_iff := by simp

variable (h : Tracks W S highest bits)
include h

theorem Tracks.le_highest (hn : n ∈ S) : n ≤ highest := by
  rw [← h.highest_eq]
  exact Finset.le_sup (f := id) hn

theorem Tracks.eq_empty_iff : S = ∅ ↔ highest = 0 := by
  constructor
  · rintro rfl
    exact h.highest_eq.symm
  · intro h0
    rw [Finset.eq_empty_iff_forall_notMem]
    intro n hn
    have hpos := h.pos n hn
    have hle := h.le_highest hn
    omega

/-- A number above all admitted ones is admitted. -/
theorem Tracks.admits_above (hn : highest < n) : Admits W S n := by
  refine ⟨by omega, fun hm => ?_, Or.inr ?_⟩
  · exact absurd (h.le_highest hm) (by omega)
  · rw [h.highest_eq]
    omega

/-- At or below the highest number the bits decide. -/
theorem Tracks.admits_iff (hpos : 0 < n) (hle : n ≤ highest) :
    Admits W S n ↔ highest - n < W ∧ bits (highest - n) = false := by
  have hne : S ≠ ∅ := fun hS => by
    have h0 := h.eq_empty_iff.1 hS
    omega
  have hback : highest - (highest - n) = n := Nat.sub_sub_self hle
  rw [Admits, h.highest_eq, Bool.eq_false_iff, ne_eq, h.bit_iff, hback]
  constructor
  · rintro ⟨-, hn, hS | hlt⟩
    · exact absurd hS hne
    · exact ⟨by omega, fun hb => hn hb.2⟩
  · rintro ⟨hlt, hb⟩
    exact ⟨hpos, fun hn => hb ⟨hlt, hn⟩, Or.inr (by omega)⟩

/-- A new highest number: the old bits move down by the jump and the lowest bit is set. -/
theorem Tracks.raise (hn : highest < n)
    (hbits : ∀ i, bits' i = true ↔
      i < W ∧ (i = 0 ∨ n - highest ≤ i ∧ bits (i - (n - highest)) = true)) :
    Tracks W (insert n S) n bits' where
  pos := by
    intro m hm
    rcases Finset.mem_insert.1 hm with rfl | hm
    · omega
    · exact h.pos m hm
  highest_eq := by
    rw [Finset.sup_insert, h.highest_eq]
    exact max_eq_left hn.le
  bit_iff := by
    intro i
    rw [hbits, Finset.mem_insert, h.bit_iff]
    refine and_congr_right fun hi => or_congr (by omega) ?_
    constructor
    · rintro ⟨hd, -, hm⟩
      have he : n - i = highest - (i - (n - highest)) := by omega
      rw [he]
      exact hm
    · intro hm
      -- a member lies at or below the old highest number, so the jump is not past bit `i`
      have hle := h.le_highest hm
      have he : highest - (i - (n - highest)) = n - i := by omega
      rw [he]
      exact ⟨by omega, by omega, hm⟩

/-- A late number: its bit is set and the others stay. -/
theorem Tracks.mark (hpos : 0 < n) (hle : n ≤ highest)
    (hlt : highest - n < W) (hbits : ∀ i, bits' i = true ↔ bits i = true ∨ i = highest - n) :
    Tracks W (insert n S) highest bits' where
  pos := by
    intro m hm
    rcases Finset.mem_insert.1 hm with rfl | hm
    · exact hpos
    · exact h.pos m hm
  highest_eq := by
    rw [Finset.sup_insert, h.highest_eq]
    exact max_eq_right hle
  bit_iff := by
    intro i
    rw [hbits, h.bit_iff, Finset.mem_insert]
    constructor
    · rintro (⟨hi, hm⟩ | rfl)
      · exact ⟨hi, Or.inr hm⟩
      · exact ⟨hlt, Or.inl (Nat.sub_sub_self hle)⟩
    · rintro ⟨hi, he | hm⟩
      · exact Or.inr (by omega)
      · exact Or.inl ⟨hi, hm⟩

end ReplayWindow
