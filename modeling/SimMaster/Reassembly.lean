import SimMaster.Machine

/-!
# Cutting and reassembly

A message that is too long for its channel is cut into *parts*; each part says where it starts and
whether it ends the message. The receiver gathers the parts in whatever order they come, and has
the message when the parts, sorted by where they start, leave no gap and reach the end.

* `cut` is the sender's loop, and `Tiles` what its result satisfies: the parts follow each other
  without gap, and only the last one is marked.
* `contiguousEnd` and `coveredEnd` are two ways to walk over sorted pieces, one that insists on
  every piece starting where the previous one ended and one that lets pieces overlap. On pieces of a
  tiling they agree: they succeed on all of it (`contiguousEnd_of_tiles`) and on nothing less that
  has the last part (`contiguousEnd_eq_none`).
* `run_gathers` is the induction over a run. A receiver whose every step either gathers one more
  part or completes the set answers all but the last of the parts with "not yet", in any order and
  among any other inputs.
-/

namespace Reassembly

open List

variable {α β : Type*}

/-- A part of a message that was cut. -/
structure Fragment (α : Type*) where
  /-- where it starts in the message -/
  offset : ℕ
  data : List α
  /-- whether it ends the message -/
  last : Bool

/-- Where the part ends in the message. -/
def Fragment.stop (p : Fragment α) : ℕ := p.offset + p.data.length

/-- What a receiver keeps of a part. -/
def Fragment.piece (p : Fragment α) : ℕ × List α := (p.offset, p.data)

/-! ## The sender -/

/-- The loop that cuts `payload` into chunks, from `offset` on. -/
def cut (chunk : ℕ) (payload : List α) (offset : ℕ) : List (Fragment α) :=
  let stop := min (offset + chunk) payload.length
  ⟨offset, (payload.drop offset).take (stop - offset), stop = payload.length⟩ ::
    -- no caller has empty chunks, with which the loop would not end
    if stop = payload.length ∨ chunk = 0 then [] else cut chunk payload stop
termination_by payload.length - offset

/-- The parts follow each other from `o` on, none of them empty, and the end of the message is
marked on the last one alone. -/
inductive Tiles : ℕ → List (Fragment α) → Prop
  | last {p : Fragment α} : p.data ≠ [] → p.last = true → Tiles p.offset [p]
  | more {p : Fragment α} {rest : List (Fragment α)} :
      p.data ≠ [] → p.last = false → Tiles p.stop rest → Tiles p.offset (p :: rest)

/-- The message that parts in order make. -/
def join (parts : List (Fragment α)) : List α := parts.flatMap Fragment.data

/-- One turn of the loop. -/
theorem cut_eq (chunk : ℕ) (payload : List α) (offset : ℕ) : cut chunk payload offset =
      ⟨offset, (payload.drop offset).take (min (offset + chunk) payload.length - offset),
        min (offset + chunk) payload.length = payload.length⟩ ::
        if min (offset + chunk) payload.length = payload.length ∨ chunk = 0 then []
        else cut chunk payload (min (offset + chunk) payload.length) := by
  rw [cut.eq_def]

variable {chunk offset : ℕ} {payload : List α}

theorem tiles_cut (hchunk : 0 < chunk)
    (hoffset : offset < payload.length) : Tiles offset (cut chunk payload offset) := by
  induction offset using cut.induct chunk payload with
  | case1 offset stop ih =>
    have hlen : ((payload.drop offset).take (stop - offset)).length = stop - offset := by
      rw [length_take, length_drop]
      omega
    have hdata : (payload.drop offset).take (stop - offset) ≠ [] :=
      ne_nil_of_length_pos (by omega)
    rw [cut_eq]
    by_cases hstop : stop = payload.length
    · rw [if_pos (Or.inl hstop)]
      exact .last (p := ⟨offset, _, _⟩) hdata (decide_eq_true hstop)
    · have hrest := ih (not_or.mpr ⟨hstop, by omega⟩) (by omega)
      rw [if_neg (not_or.mpr ⟨hstop, by omega⟩)]
      refine .more (p := ⟨offset, _, _⟩) hdata (decide_eq_false hstop) ?_
      have hnext : Fragment.stop ⟨offset, (payload.drop offset).take (stop - offset),
          decide (stop = payload.length)⟩ = stop := by
        change offset + _ = stop
        rw [hlen]
        omega
      exact hnext ▸ hrest

/-- The parts make the message again. -/
theorem join_cut (hchunk : 0 < chunk)
    (hoffset : offset ≤ payload.length) :
    join (cut chunk payload offset) = payload.drop offset := by
  induction offset using cut.induct chunk payload with
  | case1 offset stop ih =>
    rw [cut_eq]
    by_cases hstop : stop = payload.length
    · rw [if_pos (Or.inl hstop), join, flatMap_singleton, take_of_length_le]
      rw [length_drop]
      omega
    · rw [if_neg (not_or.mpr ⟨hstop, by omega⟩), join, flatMap_cons, ← join,
        ih (not_or.mpr ⟨hstop, by omega⟩) (by omega)]
      have hdrop : payload.drop stop = (payload.drop offset).drop (stop - offset) := by
        rw [drop_drop]
        congr 1
        omega
      rw [hdrop, take_append_drop]

variable {p : Fragment α}

/-- Each part starts at a multiple of the chunk size after the start, is no longer than a chunk and
lies inside the message; only the last one may be shorter. -/
theorem mem_cut (hoffset : offset ≤ payload.length) (hp : p ∈ cut chunk payload offset) :
    (∃ k, p.offset = offset + k * chunk) ∧ p.data.length ≤ chunk ∧ p.stop ≤ payload.length ∧
      (p.last = false → p.data.length = chunk) := by
  induction offset using cut.induct chunk payload with
  | case1 offset stop ih =>
    have hlen : ((payload.drop offset).take (stop - offset)).length = stop - offset := by
      rw [length_take, length_drop]
      omega
    rw [cut_eq] at hp
    rcases mem_cons.mp hp with rfl | hrest
    · refine ⟨⟨0, (show offset = offset + 0 * chunk by omega)⟩, ?_, ?_, ?_⟩
      · exact hlen.trans_le (by omega)
      · change offset + _ ≤ _
        rw [hlen]
        omega
      · intro hlast
        have hstop : ¬ stop = payload.length := of_decide_eq_false hlast
        exact hlen.trans (by omega)
    · by_cases hstop : stop = payload.length ∨ chunk = 0
      · rw [if_pos hstop] at hrest
        cases hrest
      · rw [if_neg hstop] at hrest
        obtain ⟨⟨k, hk⟩, hrest⟩ := ih hstop (by omega) hrest
        refine ⟨⟨k + 1, ?_⟩, hrest⟩
        have hnext : stop = offset + chunk := by omega
        rw [hk, hnext]
        ring

/-! ## Tilings -/

namespace Tiles

variable {o : ℕ} {parts : List (Fragment α)} {q : Fragment α} (h : Tiles o parts)
include h

theorem ne_nil : parts ≠ [] := by
  cases h <;> exact cons_ne_nil _ _

theorem data_ne_nil (hp : p ∈ parts) : p.data ≠ [] := by
  induction h with
  | last hdata _ => exact mem_singleton.mp hp ▸ hdata
  | more hdata _ _ ih =>
    rcases mem_cons.mp hp with rfl | hrest
    · exact hdata
    · exact ih hrest

theorem le_offset (hp : p ∈ parts) : o ≤ p.offset := by
  induction h with
  | last _ _ => exact Nat.le_of_eq (mem_singleton.mp hp ▸ rfl)
  | @more q rest _ _ _ ih =>
    rcases mem_cons.mp hp with rfl | hrest
    · exact Nat.le_refl _
    · exact (Nat.le_add_right _ _).trans (ih hrest)

/-- Each part ends before every later one starts. -/
theorem pairwise : parts.Pairwise fun p q => p.stop ≤ q.offset := by
  induction h with
  | last _ _ => exact pairwise_singleton _ _
  | more _ _ hrest ih => exact pairwise_cons.mpr ⟨fun q hq => hrest.le_offset hq, ih⟩

theorem pairwise_offset : parts.Pairwise fun p q => p.offset < q.offset := by
  refine h.pairwise.imp_of_mem fun {p q} hp _ hpq => ?_
  have hpos := length_pos_iff.mpr (h.data_ne_nil hp)
  rw [Fragment.stop] at hpq
  omega

theorem nodup : parts.Nodup :=
  h.pairwise_offset.imp fun hpq heq => absurd (heq ▸ hpq) (Nat.lt_irrefl _)

/-- Two parts share no place of the message. -/
theorem disjoint (hp : p ∈ parts) (hq : q ∈ parts) (hne : p ≠ q) :
    p.stop ≤ q.offset ∨ q.stop ≤ p.offset := by
  let apart : Fragment α → Fragment α → Prop := fun p q => p.stop ≤ q.offset ∨ q.stop ≤ p.offset
  have hsymm : Std.Symm apart := ⟨fun _ _ => Or.symm⟩
  have hapart : parts.Pairwise apart := h.pairwise.imp Or.inl
  exact hapart.forall hp hq hne

/-- A part is known by where it starts. -/
theorem offset_inj (hp : p ∈ parts) (hq : q ∈ parts) (heq : p.offset = q.offset) : p = q := by
  by_contra hne
  have hp' := length_pos_iff.mpr (h.data_ne_nil hp)
  have hq' := length_pos_iff.mpr (h.data_ne_nil hq)
  have hdisjoint := h.disjoint hp hq hne
  simp only [Fragment.stop] at hdisjoint
  omega

/-- The first part starts the message. -/
theorem exists_first : ∃ p ∈ parts, p.offset = o := by
  cases h with
  | last _ _ => exact ⟨_, mem_singleton_self _, rfl⟩
  | more _ _ _ => exact ⟨_, mem_cons_self, rfl⟩

theorem exists_last : ∃ p ∈ parts, p.last = true := by
  induction h with
  | last _ hlast => exact ⟨_, mem_singleton_self _, hlast⟩
  | more _ _ _ ih =>
    obtain ⟨p, hp, hlast⟩ := ih
    exact ⟨p, mem_cons_of_mem _ hp, hlast⟩

/-- The marked part ends where the message does. -/
theorem stop_of_last
    (hp : p ∈ parts) (hlast : p.last = true) : p.stop = o + (join parts).length := by
  induction h with
  | last _ _ =>
    rw [mem_singleton.mp hp, join, flatMap_singleton]
    rfl
  | @more q rest _ hq _ ih =>
    rcases mem_cons.mp hp with rfl | hrest
    · rw [hlast] at hq
      cases hq
    · have hjoin : (join (q :: rest)).length = q.data.length + (join rest).length := by
        rw [join, flatMap_cons, length_append, join]
      rw [ih hrest, hjoin, Fragment.stop, Nat.add_assoc]

end Tiles

/-! ## The receiver

The pieces are sorted by where they start and walked over from the beginning of the message.
-/

/-- `sort_by_key` of the pieces by their offset. -/
def sortByOffset (pieces : List (ℕ × List α)) : List (ℕ × List α) :=
  pieces.mergeSort fun a b => a.1 ≤ b.1

/-- Whether a piece shares a place with the range. -/
def overlaps (start stop : ℕ) (pieces : List (ℕ × List α)) : Bool :=
  pieces.any fun (offset, data) => start < offset + data.length && offset < stop

/-- Walks over pieces each of which has to start where the one before it ended. -/
def contiguousEnd : ℕ → List (ℕ × List α) → Option ℕ
  | cursor, [] => some cursor
  | cursor, (offset, data) :: rest =>
    if offset ≠ cursor then none else contiguousEnd (cursor + data.length) rest

/-- Walks over pieces that may reach into each other but leave no gap. -/
def coveredEnd : ℕ → List (ℕ × List α) → Option ℕ
  | cursor, [] => some cursor
  | cursor, (offset, data) :: rest =>
    if cursor < offset then none else coveredEnd (max cursor (offset + data.length)) rest

variable {got parts : List (Fragment α)} {o : ℕ}

section

variable (h : Tiles o parts)
include h

section

variable (hgot : (got ++ [p]).Subperm parts)
include hgot

/-- A part that was not gathered yet lies apart from those that were. -/
theorem apart_of_subperm {q : Fragment α} (hq : q ∈ got) : p.stop ≤ q.offset ∨
    q.stop ≤ p.offset := by
  obtain ⟨kept, hperm, hsub⟩ := hgot
  have hnodup : (got ++ [p]).Nodup := hperm.nodup_iff.mp (hsub.nodup h.nodup)
  have hmem : ∀ r ∈ got ++ [p], r ∈ parts := fun r hr => hsub.subset (hperm.mem_iff.mpr hr)
  have hp : p ∈ parts := hmem p (mem_append_right _ (mem_singleton_self p))
  have hne : p ≠ q := fun heq =>
    (nodup_append.mp hnodup).2.2 q hq p (mem_singleton_self p) heq.symm
  exact h.disjoint hp (hmem q (mem_append_left _ hq)) hne

theorem overlaps_eq_false : overlaps p.offset p.stop (got.map Fragment.piece) = false := by
  rw [overlaps, any_map, any_eq_false]
  intro q hq hoverlap
  have hapart := apart_of_subperm h hgot hq
  change (decide (p.offset < q.stop) && decide (q.offset < p.stop)) = true at hoverlap
  rw [Bool.and_eq_true, decide_eq_true_eq, decide_eq_true_eq] at hoverlap
  omega

/-- Nothing that was gathered starts where the new part does. -/
theorem filter_offset_ne :
    (got.map Fragment.piece).filter (fun piece => piece.1 ≠ p.offset) = got.map Fragment.piece := by
  refine filter_eq_self.mpr fun piece hpiece => decide_eq_true ?_
  obtain ⟨q, hq, rfl⟩ := mem_map.mp hpiece
  have hmem : ∀ r ∈ got ++ [p], 0 < r.data.length := fun r hr =>
    length_pos_iff.mpr (h.data_ne_nil (hgot.subset hr))
  have hp := hmem p (mem_append_right _ (mem_singleton_self p))
  have hq' := hmem q (mem_append_left _ hq)
  have hapart := apart_of_subperm h hgot hq
  simp only [Fragment.stop] at hapart
  change q.offset ≠ p.offset
  omega

end

/-- Sorting gathered parts puts them in the order of the message. -/
theorem exists_sublist_sortByOffset
    (hgot : got.Subperm parts) : ∃ kept : List (Fragment α), kept.Perm got ∧ kept.Sublist parts ∧
      sortByOffset (got.map Fragment.piece) = kept.map Fragment.piece := by
  obtain ⟨kept, hperm, hsub⟩ := hgot
  have hsorted : (kept.map Fragment.piece).Pairwise fun a b => a.1 ≤ b.1 :=
    pairwise_map.mpr ((h.pairwise_offset.sublist hsub).imp Nat.le_of_lt)
  have hperm' : (sortByOffset (got.map Fragment.piece)).Perm (kept.map Fragment.piece) :=
    (mergeSort_perm _ _).trans (hperm.symm.map _)
  refine ⟨kept, hperm, hsub, hperm'.eq_of_pairwise ?_ ?_ hsorted⟩
  · -- pieces with one offset are one piece
    intro a b ha hb hab hba
    obtain ⟨p, hp, rfl⟩ := mem_map.mp (hperm'.mem_iff.mp ha)
    obtain ⟨q, hq, rfl⟩ := mem_map.mp hb
    rw [h.offset_inj (hsub.subset hp) (hsub.subset hq) (Nat.le_antisymm hab hba)]
  · refine (pairwise_mergeSort ?_ ?_ _).imp of_decide_eq_true
    · intro a b c hab hbc
      exact decide_eq_true ((of_decide_eq_true hab).trans (of_decide_eq_true hbc))
    · intro a b
      rw [Bool.or_eq_true, decide_eq_true_eq, decide_eq_true_eq]
      exact Nat.le_total a.1 b.1

/-- All parts, sorted, are walked over to the end of the message. -/
theorem contiguousEnd_of_tiles :
    contiguousEnd o (parts.map Fragment.piece) = some (o + (join parts).length) := by
  induction h with
  | @last p _ _ =>
    rw [map_singleton, Fragment.piece, contiguousEnd, if_neg (not_not_intro rfl), join,
      flatMap_singleton]
    rfl
  | @more p rest _ _ _ ih =>
    rw [map_cons, Fragment.piece, contiguousEnd, if_neg (not_not_intro rfl),
      ← Fragment.stop, ih, join, join, flatMap_cons, length_append, Fragment.stop, Nat.add_assoc]

end

variable {kept : List (Fragment α)}

/-- Fewer parts that have the last one among them leave a gap. -/
theorem contiguousEnd_eq_none (h : Tiles o parts)
    (hsub : kept.Sublist parts) (hne : kept ≠ parts) (hp : p ∈ kept)
    (hlast : p.last = true) : contiguousEnd o (kept.map Fragment.piece) = none := by
  induction h generalizing kept with
  | last _ _ =>
    rcases sublist_singleton.mp hsub with rfl | rfl
    · cases hp
    · exact absurd rfl hne
  | @more q rest hdata hq hrest ih =>
    cases hsub with
    | cons _ hsub =>
      -- the part at the cursor is missing, the next one starts later
      cases kept with
      | nil => cases hp
      | cons r kept =>
        have hr := hrest.le_offset (hsub.subset mem_cons_self)
        have hpos := length_pos_iff.mpr hdata
        rw [map_cons, Fragment.piece, contiguousEnd, if_pos]
        rw [Fragment.stop] at hr
        omega
    | @cons_cons kept _ _ hsub =>
      rw [map_cons, Fragment.piece, contiguousEnd, if_neg (not_not_intro rfl)]
      refine ih hsub (fun heq => hne (heq ▸ rfl)) ?_
      rcases mem_cons.mp hp with rfl | hmem
      · rw [hq] at hlast
        cases hlast
      · exact hmem

/-- On parts that leave each other alone the two walks are the same. -/
theorem coveredEnd_eq (h : kept.Pairwise fun p q => p.stop ≤ q.offset)
    (ho : ∀ p ∈ kept, o ≤ p.offset) :
    coveredEnd o (kept.map Fragment.piece) = contiguousEnd o (kept.map Fragment.piece) := by
  induction kept generalizing o with
  | nil => rfl
  | cons p rest ih =>
    obtain ⟨hp, hrest⟩ := pairwise_cons.mp h
    have hop := ho p mem_cons_self
    rw [map_cons, Fragment.piece, coveredEnd, contiguousEnd]
    by_cases hgap : p.offset = o
    · have hmax : max o (p.offset + p.data.length) = o + p.data.length := by omega
      rw [if_neg (by omega), if_neg (not_not_intro hgap), hmax, ← hgap]
      exact ih hrest hp
    · rw [if_pos (by omega), if_pos hgap]

theorem coveredEnd_sortByOffset (h : Tiles o parts)
    (hgot : got.Subperm parts) : coveredEnd o (sortByOffset (got.map Fragment.piece)) =
      contiguousEnd o (sortByOffset (got.map Fragment.piece)) := by
  obtain ⟨kept, _, hsub, hsort⟩ := exists_sublist_sortByOffset h hgot
  rw [hsort]
  exact coveredEnd_eq (h.pairwise.sublist hsub) fun p hp => h.le_offset (hsub.subset hp)

/-! ### What has been gathered -/

/-- The newest of the values that some of the gathered parts carry. -/
def latest (f : Fragment α → Option β) (got : List (Fragment α)) : Option β :=
  got.foldl (fun newest p => (f p).or newest) none

theorem latest_concat (f : Fragment α → Option β) (got : List (Fragment α)) (p : Fragment α) :
    latest f (got ++ [p]) = (f p).or (latest f got) := by
  rw [latest, latest, foldl_append]
  rfl

variable {f : Fragment α → Option β} {b : β}

theorem exists_of_latest_eq_some (h : latest f got = some b) : ∃ p ∈ got, f p = some b := by
  induction got using reverseRecOn with
  | nil => cases h
  | append_singleton got p ih =>
    rw [latest_concat, Option.or_eq_some_iff] at h
    rcases h with hp | ⟨_, hgot⟩
    · exact ⟨p, mem_append_right _ (mem_singleton_self p), hp⟩
    · obtain ⟨q, hq, hf⟩ := ih hgot
      exact ⟨q, mem_append_left _ hq, hf⟩

/-- A value that every part carrying one agrees on. -/
theorem latest_eq_some
    (hall : ∀ p ∈ got, f p = none ∨ f p = some b) (hsome : ∃ p ∈ got, f p = some b) :
    latest f got = some b := by
  induction got using reverseRecOn with
  | nil => cases hsome.choose_spec.1
  | append_singleton got p ih =>
    rw [latest_concat]
    rcases hall p (mem_append_right _ (mem_singleton_self p)) with hp | hp
    · rw [hp, Option.none_or]
      obtain ⟨q, hq, hf⟩ := hsome
      refine ih (fun r hr => hall r (mem_append_left _ hr)) ⟨q, ?_, hf⟩
      rcases mem_append.mp hq with hgot | hlast
      · exact hgot
      · rw [mem_singleton.mp hlast, hp] at hf
        cases hf
    · rw [hp, Option.some_or]

/-- The length of the message, once the last part is here. -/
def expectedLen (got : List (Fragment α)) : Option ℕ :=
  latest (fun p => if p.last = true then some p.stop else none) got

theorem expectedLen_concat (got : List (Fragment α)) (p : Fragment α) :
    expectedLen (got ++ [p]) = if p.last = true then some p.stop else expectedLen got := by
  rw [expectedLen, latest_concat]
  split
  · rw [Option.some_or]
  · rw [Option.none_or]
    rfl

/-- What the part that starts the message carries, once it is here. -/
def opening (f : Fragment α → β) (got : List (Fragment α)) : Option β :=
  latest (fun p => if p.offset = 0 then some (f p) else none) got

theorem opening_concat (f : Fragment α → β) (got : List (Fragment α)) (p : Fragment α) :
    opening f (got ++ [p]) = if p.offset = 0 then some (f p) else opening f got := by
  rw [opening, latest_concat]
  split
  · rw [Option.some_or]
  · rw [Option.none_or]
    rfl

theorem exists_opening (h : Tiles 0 parts) (hgot : got.Perm parts)
    (f : Fragment α → β) : ∃ p ∈ parts, p.offset = 0 ∧ opening f got = some (f p) := by
  obtain ⟨p, hp, hstart⟩ := h.exists_first
  refine ⟨p, hp, hstart, latest_eq_some (fun q hq => ?_) ⟨p, hgot.mem_iff.mpr hp, if_pos hstart⟩⟩
  by_cases hq' : q.offset = 0
  · rw [h.offset_inj (hgot.mem_iff.mp hq) hp (hq'.trans hstart.symm), if_pos hstart]
    exact Or.inr rfl
  · exact Or.inl (if_neg hq')

/-- The pieces of the parts in order hold the message. -/
theorem flatMap_piece (parts : List (Fragment α)) :
    (parts.map Fragment.piece).flatMap Prod.snd = join parts := by
  rw [flatMap_map]
  rfl

/-- The set is complete: its pieces in order are walked over to the expected length, and joined they
are the message. -/
theorem complete {parts got : List (Fragment α)} (h : Tiles 0 parts) (hgot : got.Perm parts) :
    expectedLen got = some (join parts).length ∧
      sortByOffset (got.map Fragment.piece) = parts.map Fragment.piece ∧
      contiguousEnd 0 (parts.map Fragment.piece) = some (join parts).length := by
  refine ⟨?_, ?_, ?_⟩
  · refine latest_eq_some (fun p hp => ?_) ?_
    · by_cases hlast : p.last = true
      · have hstop := h.stop_of_last (hgot.mem_iff.mp hp) hlast
        exact Or.inr (by rw [if_pos hlast, hstop, Nat.zero_add])
      · exact Or.inl (if_neg hlast)
    · obtain ⟨p, hp, hlast⟩ := h.exists_last
      exact ⟨p, hgot.mem_iff.mpr hp, by rw [if_pos hlast, h.stop_of_last hp hlast, Nat.zero_add]⟩
  · obtain ⟨kept, hperm, hsub, hsort⟩ := exists_sublist_sortByOffset h hgot.subperm
    rw [hsort, hsub.eq_of_length (hperm.trans hgot).length_eq]
  · rw [contiguousEnd_of_tiles h, Nat.zero_add]

/-- The set is not complete: the end of the message is not here, or some gap is left. -/
theorem incomplete (h : Tiles 0 parts) (hgot : got.Subperm parts) (hne : ¬ got.Perm parts) :
    expectedLen got = none ∨ contiguousEnd 0 (sortByOffset (got.map Fragment.piece)) = none := by
  obtain ⟨kept, hperm, hsub, hsort⟩ := exists_sublist_sortByOffset h hgot
  cases hexpected : expectedLen got with
  | none => exact Or.inl rfl
  | some n =>
    obtain ⟨p, hp, hlast⟩ := exists_of_latest_eq_some hexpected
    have hlast' : p.last = true := by
      by_contra hfalse
      rw [if_neg hfalse] at hlast
      cases hlast
    rw [hsort]
    exact Or.inr (contiguousEnd_eq_none h hsub (fun heq => hne (heq ▸ hperm.symm))
      (hperm.mem_iff.mpr hp) hlast')

/-! ## A run

The inputs of a machine are the parts of one message, those `own` holds of, among any others.
`Holding got` says what the state is like once `got` was gathered.
-/

section Run

open Machine

variable {σ ι ω π : Type*} {step : σ → ι → ω × σ} {own : ι → Bool} {Holding : List π → σ → Prop}
  {Quiet : σ → ι → Prop}

/-- The answers to a message's own inputs, in the order of the inputs. -/
def ownAnswers (own : ι → Bool) (entries : List (ι × ω)) : List ω :=
  (entries.filter fun entry => own entry.1).map Prod.snd

/-- **Gathering.** Inputs of others leave alone what was gathered; an own input, which carries some
part of the message, adds it, or completes the set and leaves nothing behind. Then any order of the
parts, among any other inputs, is answered `more` until the last of them, which is answered
`done`. -/
theorem run_gathers {τ : Type*} {parts : List π} {emit : π → τ} {carried : ι → τ} {more done : ω}
    (hother : ∀ got s x, Holding got s → Quiet s x → own x = false → Holding got (step s x).2)
    (hmore : ∀ got p s x, Holding got s → Quiet s x → own x = true → carried x = emit p →
      (got ++ [p]).Subperm parts → ¬ (got ++ [p]).Perm parts →
      (step s x).1 = more ∧ Holding (got ++ [p]) (step s x).2)
    (hdone : ∀ got p s x, Holding got s → Quiet s x → own x = true → carried x = emit p →
      (got ++ [p]).Perm parts → (step s x).1 = done ∧ Holding [] (step s x).2)
    {xs : List ι} {s : σ} {got rest : List π} (hgot : Holding got s)
    (hperm : rest ≠ [] → (got ++ rest).Perm parts)
    (hxs : (xs.filter own).map carried = rest.map emit)
    (hquiet : ∀ pre x post, xs = pre ++ x :: post → Quiet (run step s pre) x) :
    ownAnswers own (trace step s xs) =
        (if rest = [] then [] else replicate (rest.length - 1) more ++ [done]) ∧
      Holding (if rest = [] then got else []) (run step s xs) := by
  induction xs generalizing s got rest with
  | nil =>
    rw [map_eq_nil_iff.mp hxs.symm]
    exact ⟨rfl, hgot⟩
  | cons x xs ih =>
    have hx : Quiet s x := hquiet [] x xs rfl
    have hquiet' : ∀ pre y post, xs = pre ++ y :: post → Quiet (run step (step s x).2 pre) y :=
      fun pre y post heq => hquiet (x :: pre) y post (heq ▸ rfl)
    rw [trace_cons, run_cons, ownAnswers]
    by_cases hown : own x = true
    · rw [filter_cons_of_pos hown, map_cons] at hxs
      rw [filter_cons_of_pos (by exact hown), map_cons]
      cases rest with
      | nil => cases hxs
      | cons p rest =>
      rw [map_cons, cons.injEq] at hxs
      obtain ⟨hp, hrest⟩ := hxs
      have hperm' : (got ++ [p] ++ rest).Perm parts := by
        rw [append_assoc]
        exact hperm (cons_ne_nil _ _)
      cases rest with
      | nil =>
        -- the last part: what follows is of others
        rw [append_nil] at hperm'
        obtain ⟨hanswer, hempty⟩ := hdone got p s x hgot hx hown hp hperm'
        have hrun := ih hempty (fun hne => absurd rfl hne) hrest hquiet'
        exact ⟨by rw [hanswer, ← ownAnswers, hrun.1]; rfl, hrun.2⟩
      | cons q rest =>
        have hshort : ¬ (got ++ [p]).Perm parts := fun hfull => by
          have hlen := (hperm'.trans hfull.symm).length_eq
          simp only [length_append, length_cons, length_nil] at hlen
          omega
        have hsub : (got ++ [p]).Subperm parts :=
          (sublist_append_left _ _).subperm.trans hperm'.subperm
        obtain ⟨hanswer, hmore'⟩ := hmore got p s x hgot hx hown hp hsub hshort
        have hrun := ih hmore' (fun _ => hperm') hrest hquiet'
        refine ⟨?_, hrun.2⟩
        rw [hanswer, ← ownAnswers, hrun.1]
        rfl
    · rw [filter_cons_of_neg hown] at hxs
      rw [filter_cons_of_neg (by exact hown)]
      exact ih (hother got s x hgot hx (by simpa using hown)) hperm hxs hquiet'

end Run

end Reassembly
