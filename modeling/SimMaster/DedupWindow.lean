import SimMaster.Machine

/-!
# The dedup window

The numbers seen lately are the bits of a ring of 64 words; the word at `head` begins with the
number `base`. A number beyond the end moves the window: a little further and the oldest words are
cleared one after another, far away and the ring starts anew. So a number is marked if it was seen
and is not below `base` (`marked_iff_seen`), and it is fresh exactly if it was not seen and is not
below `base` (`insert_fresh_iff`).
-/

namespace SimMaster.Jegotrip

open Machine

def requestDedupBits : ℕ := 2048

instance neZero_words : NeZero 64 := ⟨by decide⟩

structure DedupWindow where
  base : ℕ
  head : Fin 64
  bits : Vector (BitVec 32) 64

namespace DedupWindow

def default : DedupWindow := ⟨0, 0, Vector.replicate 64 0⟩

/-- One turn of the loop that clears the oldest words. -/
def clearHead (w : DedupWindow) : DedupWindow :=
  { w with bits := w.bits.set w.head 0, head := w.head + 1 }

/-- The word and the bit of the number `delta` places after `base`. -/
def slot (w : DedupWindow) (delta : ℕ) : Fin 64 := w.head + Fin.ofNat 64 (delta / 32)

/-- Moves the window so that it covers the number, and says how far the number is from its start. -/
def makeRoom (w : DedupWindow) (sequence : ℕ) : DedupWindow × ℕ :=
  let delta := sequence - w.base
  if 4095 < delta then (⟨sequence - 2016, 0, Vector.replicate 64 0⟩, 2016)
  else if requestDedupBits ≤ delta then
    let shift := (delta - requestDedupBits) / 32 + 1
    ({ clearHead^[shift] w with base := w.base + shift * 32 }, delta - shift * 32)
  else (w, delta)

/-- Whether the number is fresh, and the window with it. -/
def insert (w : DedupWindow) (sequence : ℕ) : Bool × DedupWindow :=
  if sequence < w.base then (false, w)
  else
    let (w, delta) := w.makeRoom sequence
    let bit := 1#32 <<< (delta % 32)
    (w.bits[w.slot delta] &&& bit == 0,
      { w with bits := w.bits.set (w.slot delta) (w.bits[w.slot delta] ||| bit) })

/-! ## What is marked -/

/-- The bit `delta` places after `base`. -/
def bitAt (w : DedupWindow) (delta : ℕ) : Bool := (w.bits[w.slot delta]).getLsbD (delta % 32)

/-- The number has its bit set. -/
def Marked (w : DedupWindow) (n : ℕ) : Prop :=
  w.base ≤ n ∧ n < w.base + requestDedupBits ∧ w.bitAt (n - w.base) = true

variable {w : DedupWindow} {k : ℕ}

theorem slot_eq_slot {d : ℕ} (hk : k < requestDedupBits)
    (hd : d < requestDedupBits) : w.slot k = w.slot d ↔ k / 32 = d / 32 := by
  rw [requestDedupBits] at hk hd
  rw [slot, slot, add_right_inj, Fin.ext_iff, Fin.val_ofNat, Fin.val_ofNat,
    Nat.mod_eq_of_lt (by omega), Nat.mod_eq_of_lt (by omega)]

theorem getElem_set_fin (v : Vector (BitVec 32) 64) (i j : Fin 64) (x : BitVec 32) :
    (v.set i x)[j] = if i = j then x else v[j] := by
  simp only [Fin.getElem_fin, Vector.getElem_set, Fin.val_inj]

theorem bitAt_clearHead {w : DedupWindow} {k : ℕ} (hk : k < requestDedupBits) :
    w.clearHead.bitAt k = if k + 32 < requestDedupBits then w.bitAt (k + 32) else false := by
  rw [requestDedupBits] at hk ⊢
  have hslot : w.clearHead.slot k = w.slot (k + 32) := by
    rw [slot, slot, clearHead, Nat.add_div_right k (by decide), Fin.ext_iff]
    simp only [Fin.val_add, Fin.val_ofNat]
    omega
  have hhead : w.head = w.slot (k + 32) ↔ ¬k + 32 < 2048 := by
    rw [slot, Nat.add_div_right k (by decide), Fin.ext_iff]
    simp only [Fin.val_add, Fin.val_ofNat]
    have := w.head.isLt
    omega
  have hword : w.clearHead.bits[w.clearHead.slot k] =
      if w.head = w.slot (k + 32) then 0 else w.bits[w.slot (k + 32)] := by
    simp only [hslot]
    exact getElem_set_fin _ _ _ _
  rw [bitAt, bitAt, hword, Nat.add_mod_right]
  by_cases hshort : k + 32 < 2048
  · rw [if_pos hshort, if_neg (fun h => hhead.mp h hshort)]
  · rw [if_neg hshort, if_pos (hhead.mpr hshort)]
    exact BitVec.getLsbD_zero

theorem bitAt_iterate_clearHead {shift : ℕ} (hk : k < requestDedupBits) :
    (clearHead^[shift] w).bitAt k =
      if k + shift * 32 < requestDedupBits then w.bitAt (k + shift * 32) else false := by
  induction shift generalizing w with
  | zero => rw [Function.iterate_zero_apply, Nat.zero_mul, Nat.add_zero, if_pos hk]
  | succ shift ih =>
    rw [Function.iterate_succ_apply, ih]
    by_cases hshort : k + shift * 32 < requestDedupBits
    · rw [if_pos hshort, bitAt_clearHead hshort, Nat.succ_mul, Nat.add_assoc]
    · rw [if_neg hshort, if_neg (by rw [Nat.succ_mul]; omega)]

variable {base : ℕ} {head : Fin 64}

theorem bitAt_replicate (k : ℕ) :
    (⟨base, head, Vector.replicate 64 0⟩ : DedupWindow).bitAt k = false := by
  rw [bitAt, Fin.getElem_fin, Vector.getElem_replicate]
  exact BitVec.getLsbD_zero

/-- Setting one bit marks one number. -/
theorem bitAt_set {w : DedupWindow} {delta k : ℕ} (hdelta : delta < requestDedupBits)
    (hk : k < requestDedupBits) :
    ({ w with bits := w.bits.set (w.slot delta) (w.bits[w.slot delta] ||| 1#32 <<< (delta % 32)) } :
      DedupWindow).bitAt k = (w.bitAt k || decide (k = delta)) := by
  change ((w.bits.set (w.slot delta) _)[w.slot k]).getLsbD _ = _
  rw [bitAt, getElem_set_fin]
  by_cases hword : delta / 32 = k / 32
  · have hslot : w.slot delta = w.slot k := (slot_eq_slot hdelta hk).mpr hword
    have hbit : (1#32 <<< (delta % 32)).getLsbD (k % 32) = decide (k = delta) := by
      rw [BitVec.getLsbD_shiftLeft, BitVec.getLsbD_one]
      by_cases heq : k = delta
      · subst heq
        simp [Nat.mod_lt]
      · have hmod : k % 32 < delta % 32 ∨ 0 < k % 32 - delta % 32 := by omega
        rw [decide_eq_false heq]
        rcases hmod with hmod | hmod
        · simp [hmod]
        · simp [hmod.ne']
    rw [if_pos hslot, BitVec.getLsbD_or, hbit]
    simp only [hslot]
  · have hslot : w.slot delta ≠ w.slot k := fun h => hword ((slot_eq_slot hdelta hk).mp h)
    have hne : k ≠ delta := fun heq => hword (by rw [heq])
    rw [if_neg hslot, decide_eq_false hne, Bool.or_false]

theorem not_marked_replicate (n : ℕ) :
    ¬(⟨base, head, Vector.replicate 64 0⟩ : DedupWindow).Marked n := by
  rintro ⟨-, -, hbit⟩
  rw [bitAt_replicate] at hbit
  cases hbit

variable {s : ℕ}

/-- Making room moves the start of the window, never beyond the number, and unmarks nothing from
there on. -/
theorem makeRoom_spec (hs : w.base ≤ s) :
    w.base ≤ (w.makeRoom s).1.base ∧ (w.makeRoom s).1.base ≤ s ∧
      (w.makeRoom s).2 = s - (w.makeRoom s).1.base ∧ (w.makeRoom s).2 < requestDedupBits ∧
      ∀ n, (w.makeRoom s).1.base ≤ n → ((w.makeRoom s).1.Marked n ↔ w.Marked n) := by
  rw [makeRoom]
  dsimp only
  by_cases hfar : 4095 < s - w.base
  · rw [if_pos hfar]
    refine ⟨by dsimp only; omega, by dsimp only; omega, by dsimp only; omega,
      (by decide : 2016 < 2048), fun n hn => ?_⟩
    dsimp only at hn
    refine iff_of_false (not_marked_replicate n) fun hmarked => ?_
    have hlt : n < w.base + 2048 := hmarked.2.1
    omega
  · rw [if_neg hfar]
    by_cases hbeyond : requestDedupBits ≤ s - w.base
    · rw [if_pos hbeyond]
      rw [requestDedupBits] at hbeyond ⊢
      generalize hshift : (s - w.base - 2048) / 32 + 1 = shift
      refine ⟨by dsimp only; omega, by dsimp only; omega, by dsimp only; omega, by
        dsimp only; omega,
        fun n hn => ?_⟩
      dsimp only at hn
      rw [Marked, Marked]
      change _ ∧ _ ∧ (clearHead^[shift] w).bitAt _ = true ↔ _
      dsimp only
      rw [requestDedupBits]
      constructor
      · rintro ⟨-, hlt, hbit⟩
        rw [bitAt_iterate_clearHead (by rw [requestDedupBits]; omega), requestDedupBits] at hbit
        split at hbit
        case isTrue hshort =>
          rw [show n - (w.base + shift * 32) + shift * 32 = n - w.base by omega] at hbit
          exact ⟨by omega, by omega, hbit⟩
        case isFalse => cases hbit
      · rintro ⟨-, hlt, hbit⟩
        refine ⟨hn, by omega, ?_⟩
        rw [bitAt_iterate_clearHead (by rw [requestDedupBits]; omega), requestDedupBits,
          if_pos (by omega), show n - (w.base + shift * 32) + shift * 32 = n - w.base by omega]
        exact hbit
    · rw [if_neg hbeyond]
      exact ⟨le_refl _, hs, rfl, not_le.mp hbeyond, fun n _ => Iff.rfl⟩

/-- The test of a bit. -/
theorem and_shiftLeft_one_beq_zero (x : BitVec 32) (i : ℕ) (hi : i < 32) :
    (x &&& 1#32 <<< i == 0) = !x.getLsbD i := by
  change (x &&& BitVec.twoPow 32 i == 0) = _
  rw [BitVec.and_twoPow]
  cases x.getLsbD i with
  | false => rfl
  | true =>
    rw [if_pos rfl, Bool.not_true, beq_eq_false_iff_ne]
    intro h
    have hbit := congrArg (fun v => BitVec.getLsbD v i) h
    simp [hi] at hbit

theorem insert_of_lt (hs : s < w.base) : w.insert s = (false, w) :=
  if_pos hs

/-- What a call does with a number that is not below the window. -/
theorem insert_spec (hs : w.base ≤ s) :
    ((w.insert s).1 = true ↔ ¬w.Marked s) ∧ w.base ≤ (w.insert s).2.base ∧ (w.insert s).2.base ≤ s ∧
      ∀ n, (w.insert s).2.base ≤ n → ((w.insert s).2.Marked n ↔ w.Marked n ∨ n = s) := by
  obtain ⟨hbase, hle, hdelta, hroom, hmarked⟩ := makeRoom_spec hs
  rw [insert, if_neg (not_lt.mpr hs)]
  generalize w.makeRoom s = r at hbase hle hdelta hroom hmarked ⊢
  obtain ⟨w', delta⟩ := r
  dsimp only at hbase hle hdelta hroom hmarked ⊢
  refine ⟨?_, hbase, hle, fun n hn => ?_⟩
  · rw [and_shiftLeft_one_beq_zero _ _ (Nat.mod_lt _ (by decide)), Bool.not_eq_true',
      ← hmarked s hle, Marked, ← hdelta]
    constructor
    · intro hbit h
      rw [bitAt, hbit] at h
      cases h.2.2
    · intro h
      by_contra hbit
      exact h ⟨hle, by omega, Bool.not_eq_false _ ▸ hbit⟩
  · rw [← hmarked n hn, Marked, Marked]
    dsimp only
    constructor
    · rintro ⟨-, hlt, hbit⟩
      rw [bitAt_set hroom (by omega), Bool.or_eq_true, decide_eq_true_eq] at hbit
      exact hbit.imp (fun hbit => ⟨hn, hlt, hbit⟩) (by omega)
    · rintro (⟨-, hlt, hbit⟩ | rfl)
      · exact ⟨hn, hlt, by rw [bitAt_set hroom (by omega), hbit, Bool.true_or]⟩
      · refine ⟨hn, by omega, ?_⟩
        rw [bitAt_set hroom (by omega), ← hdelta, decide_eq_true rfl, Bool.or_true]

/-! ## Runs -/

/-- From `base` on, what is marked is what was seen. -/
def Remembers (w : DedupWindow) (seen : List ℕ) : Prop :=
  ∀ n, w.base ≤ n → (w.Marked n ↔ n ∈ seen)

theorem remembers_default : Remembers default [] := fun n _ =>
  iff_of_false (not_marked_replicate n) List.not_mem_nil

theorem base_le_insert (w : DedupWindow) (s : ℕ) : w.base ≤ (w.insert s).2.base := by
  rcases lt_or_ge s w.base with hlt | hle
  · rw [insert_of_lt hlt]
  · exact (insert_spec hle).2.1

variable {seen : List ℕ}

theorem Remembers.insert (h : w.Remembers seen) (s : ℕ) :
    (w.insert s).2.Remembers (seen ++ [s]) := by
  intro n hn
  have hold := h n ((base_le_insert w s).trans hn)
  rw [List.mem_append, List.mem_singleton, ← hold]
  rcases lt_or_ge s w.base with hlt | hle
  · rw [insert_of_lt hlt] at hn ⊢
    dsimp only at hn
    exact ⟨Or.inl, fun h => h.resolve_right (by omega)⟩
  · exact (insert_spec hle).2.2.2 n hn

theorem Remembers.fresh_iff (h : w.Remembers seen) (s : ℕ) :
    (w.insert s).1 = true ↔ s ∉ seen ∧ w.base ≤ s := by
  rcases lt_or_ge s w.base with hlt | hle
  · rw [insert_of_lt hlt]
    exact iff_of_false Bool.false_ne_true fun h => not_lt.mpr h.2 hlt
  · rw [(insert_spec hle).1, h s hle]
    exact (and_iff_left hle).symm

theorem remembers_run (xs : List ℕ) : (run insert default xs).Remembers xs := by
  have h := @history_invariant _ _ _ insert (fun h w => Remembers w (h.map Prod.fst)) _
    remembers_default (fun h w s hw => by
      rw [List.map_append]
      exact hw.insert s) xs
  rwa [map_fst_trace] at h

/-- **Freshness.** A number is fresh exactly if it was not there before and is not below the window;
the window only moves up, and what it has lost is below it. -/
theorem insert_fresh_iff (xs : List ℕ) (s : ℕ) :
    (((run insert default xs).insert s).1 = true ↔ s ∉ xs ∧ (run insert default xs).base ≤ s) ∧
      (run insert default xs).base ≤ ((run insert default xs).insert s).2.base ∧
      ∀ n ∈ xs, ¬(run insert default xs).Marked n → n < (run insert default xs).base := by
  refine ⟨(remembers_run xs).fresh_iff s, base_le_insert _ s, fun n hn hlost => ?_⟩
  by_contra hle
  exact hlost ((remembers_run xs n (not_lt.mp hle)).mpr hn)

end DedupWindow

end SimMaster.Jegotrip
