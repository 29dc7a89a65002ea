import SimMaster.Reassembly

/-!
# Pieces of any origin

`Reassembly` speaks about the parts of one message that was cut. A receiver also gets pieces that
were never cut from one message. Whatever they are: pieces no two of which share a place (`Apart`)
that a walk gets over, sorted by offset, lie one after the other without a gap (`Follows`), and
joined they are as long as the walk.
-/

namespace Reassembly

open List

variable {α : Type*}

/-- Two pieces share no place. -/
def Apart (p q : ℕ × List α) : Prop := ¬(p.1 < q.1 + q.2.length ∧ q.1 < p.1 + p.2.length)

variable {p q : ℕ × List α}

theorem Apart.symm (h : Apart p q) : Apart q p := fun ⟨h1, h2⟩ => h ⟨h2, h1⟩

variable {pieces : List (ℕ × List α)}

theorem apart_of_overlaps
    (h : overlaps p.1 (p.1 + p.2.length) pieces = false) (hq : q ∈ pieces) : Apart p q := by
  rintro ⟨hstart, hstop⟩
  have hall := any_eq_false.mp h q hq
  simp [hstart, hstop] at hall

theorem pairwise_concat (hpieces : pieces.Pairwise Apart)
    (h : overlaps p.1 (p.1 + p.2.length) pieces = false) : (pieces ++ [p]).Pairwise Apart := by
  rw [pairwise_append]
  refine ⟨hpieces, pairwise_singleton _ _, fun q hq p' hp' => ?_⟩
  rw [mem_singleton.mp hp']
  exact (apart_of_overlaps h hq).symm

/-! ## Pieces in a row -/

/-- The pieces lie one after the other from `o` to `stop`; one without data lies anywhere before
the place it is at. -/
inductive Follows : ℕ → List (ℕ × List α) → ℕ → Prop
  | nil (o : ℕ) : Follows o [] o
  | data {o stop : ℕ} (data : List α) {rest : List (ℕ × List α)} :
      Follows (o + data.length) rest stop → Follows o ((o, data) :: rest) stop
  | empty {o stop offset : ℕ} {rest : List (ℕ × List α)} :
      offset ≤ o → Follows o rest stop → Follows o ((offset, []) :: rest) stop

namespace Follows

variable {o stop : ℕ}

/-- Joined, the pieces are as long as the way from the first to the last. -/
theorem length_eq (h : Follows o pieces stop) : o + (pieces.flatMap Prod.snd).length = stop := by
  induction h with
  | nil => rfl
  | data d _ ih =>
    rw [flatMap_cons, length_append, ← Nat.add_assoc]
    exact ih
  | empty _ _ ih =>
    rw [flatMap_cons, nil_append]
    exact ih

theorem le (h : Follows o pieces stop) : o ≤ stop := by
  rw [← h.length_eq]
  exact Nat.le_add_right _ _

/-- No piece reaches beyond the end. -/
theorem stop_le (h : Follows o pieces stop) (hp : p ∈ pieces) : p.1 + p.2.length ≤ stop := by
  induction h with
  | nil => cases hp
  | data d hrest ih =>
    rcases mem_cons.mp hp with rfl | hp
    · exact hrest.le
    · exact ih hp
  | empty hoffset hrest ih =>
    rcases mem_cons.mp hp with rfl | hp
    · exact hoffset.trans hrest.le
    · exact ih hp

variable {rest : List (ℕ × List α)}

/-- The first piece starts where the row does, or before it. -/
theorem head_le (h : Follows o (p :: rest) stop) : p.1 ≤ o := by
  cases h with
  | data => exact Nat.le_refl _
  | empty hoffset _ => exact hoffset

variable {front : List (ℕ × List α)}

theorem of_append (h : Follows o (front ++ rest) stop) :
    ∃ middle, Follows o front middle ∧ Follows middle rest stop := by
  induction front generalizing o with
  | nil => exact ⟨o, .nil o, h⟩
  | cons p front ih =>
    cases h with
    | data d h =>
      obtain ⟨middle, hfront, hrest⟩ := ih h
      exact ⟨middle, .data d hfront, hrest⟩
    | empty hoffset h =>
      obtain ⟨middle, hfront, hrest⟩ := ih h
      exact ⟨middle, .empty hoffset hfront, hrest⟩

/-- Behind a piece that reaches the end there are only pieces without data. -/
theorem data_eq_nil (h : Follows o (front ++ p :: rest) stop) (hp : p.1 + p.2.length = stop)
    (hq : q ∈ rest) : q.2 = [] := by
  obtain ⟨middle, -, hrest⟩ := h.of_append
  cases hrest with
  | data d hrest =>
    have hlen := hrest.length_eq
    rw [hp, Nat.add_eq_left, length_eq_zero_iff, flatMap_eq_nil_iff] at hlen
    exact hlen q hq
  | empty hoffset hrest =>
    have hlen := hrest.length_eq
    have hle : stop ≤ middle := by simpa [← hp] using hoffset
    have hnil : (rest.flatMap Prod.snd).length = 0 := by omega
    exact flatMap_eq_nil_iff.mp (length_eq_zero_iff.mp hnil) q hq

end Follows

/-! ## Walks -/

variable {n o : ℕ}

theorem follows_of_contiguousEnd (h : contiguousEnd o pieces = some n) : Follows o pieces n := by
  induction pieces generalizing o with
  | nil => exact Option.some.inj h ▸ .nil o
  | cons p rest ih =>
    obtain ⟨offset, d⟩ := p
    rw [contiguousEnd] at h
    split at h
    case isTrue => cases h
    case isFalse hoffset =>
      obtain rfl := not_not.mp hoffset
      exact .data d (ih h)

/-- A walk that lets pieces reach into each other finds none that do when they lie apart. -/
theorem follows_of_coveredEnd
    (hsorted : pieces.Pairwise fun p q => p.1 ≤ q.1) (hapart : pieces.Pairwise Apart)
    (hbehind : ∀ p ∈ pieces, p.2 = [] ∨ o ≤ p.1) (h : coveredEnd o pieces = some n) :
    Follows o pieces n := by
  induction pieces generalizing o with
  | nil => exact Option.some.inj h ▸ .nil o
  | cons p rest ih =>
    obtain ⟨offset, d⟩ := p
    obtain ⟨hle, hsorted'⟩ := pairwise_cons.mp hsorted
    obtain ⟨hfirst, hapart'⟩ := pairwise_cons.mp hapart
    rw [coveredEnd] at h
    split at h
    case isTrue => cases h
    case isFalse hoffset =>
    have hoffset := not_lt.mp hoffset
    cases d with
    | nil =>
      rw [length_nil, Nat.add_zero, max_eq_left hoffset] at h
      exact .empty hoffset
        (ih hsorted' hapart' (fun q hq => hbehind q (mem_cons_of_mem _ hq)) h)
    | cons a d =>
      -- a piece with data starts exactly where the walk is
      have hstart : o = offset := by
        rcases hbehind _ mem_cons_self with hnil | hge
        · cases hnil
        · exact Nat.le_antisymm hge hoffset
      subst hstart
      rw [max_eq_right (Nat.le_add_right _ _)] at h
      refine .data _ (ih hsorted' hapart' (fun q hq => ?_) h)
      rcases eq_nil_or_concat' q.2 with hnil | ⟨init, last, hq'⟩
      · exact Or.inl hnil
      · right
        by_contra hlt
        have hpos : 0 < q.2.length := by rw [hq']; simp
        have hge := hle q hq
        exact hfirst q hq ⟨by simp only; omega, by simpa using hlt⟩

/-- A walk stays where no piece reaches further. -/
theorem coveredEnd_of_le
    (h : ∀ p ∈ pieces, p.1 + p.2.length ≤ o) : coveredEnd o pieces = some o := by
  induction pieces with
  | nil => rfl
  | cons p rest ih =>
    obtain ⟨offset, d⟩ := p
    have hp : offset + d.length ≤ o := h _ mem_cons_self
    rw [coveredEnd, if_neg (by omega), max_eq_left hp]
    exact ih fun q hq => h q (mem_cons_of_mem _ hq)

/-- Behind the only piece at the start, a walk gets to the end of that piece unless another one
reaches further. -/
theorem coveredEnd_of_first {d : List α} (hsorted : pieces.Pairwise fun p q => p.1 ≤ q.1)
    (hfirst : (0, d) ∈ pieces) (honly : ∀ p ∈ pieces, p.1 = 0 → p = (0, d))
    (hle : ∀ p ∈ pieces, p.1 + p.2.length ≤ d.length) : coveredEnd 0 pieces = some d.length := by
  cases pieces with
  | nil => cases hfirst
  | cons p rest =>
    have hzero : p.1 = 0 := by
      rcases mem_cons.mp hfirst with rfl | hmem
      · rfl
      · exact Nat.le_zero.mp ((pairwise_cons.mp hsorted).1 _ hmem)
    rw [honly p mem_cons_self hzero, coveredEnd, if_neg (Nat.lt_irrefl 0), Nat.zero_add,
      Nat.zero_max]
    exact coveredEnd_of_le fun q hq => hle q (mem_cons_of_mem _ hq)

/-! ## Sorted pieces -/

theorem pairwise_sortByOffset (pieces : List (ℕ × List α)) :
    (sortByOffset pieces).Pairwise fun p q => p.1 ≤ q.1 := by
  have h : (sortByOffset pieces).Pairwise fun a b => decide (a.1 ≤ b.1) = true :=
    pairwise_mergeSort
      (fun a b c hab hbc => by simp only [decide_eq_true_eq] at *; omega)
      (fun a b => by simp only [Bool.or_eq_true, decide_eq_true_eq]; omega) pieces
  exact h.imp fun hab => of_decide_eq_true hab

theorem sortByOffset_perm (pieces : List (ℕ × List α)) : (sortByOffset pieces).Perm pieces :=
  mergeSort_perm _ _

theorem pairwise_apart_sortByOffset (h : pieces.Pairwise Apart) :
    (sortByOffset pieces).Pairwise Apart :=
  h.perm (sortByOffset_perm pieces).symm fun hpq => hpq.symm

end Reassembly
