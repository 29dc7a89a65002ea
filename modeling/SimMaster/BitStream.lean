import Mathlib

/-!
# Octet strings as bit streams

An octet string read least significant bit first: bit `k` of the stream is bit
`k % 8` of octet `k / 8`. Writing is `|=` of a single bit, so a writer is
described by the bits it adds (`bit_setBit`, `bit_foldl_setBit`), a reader by
the bits it returns, and two octet strings are compared bit by bit
(`getElem_eq_of_bit`).
-/

namespace BitStream

open List

/-- Bit `k` of the stream; past the end every bit is clear. -/
def bit (out : List UInt8) (k : ℕ) : Bool :=
  (out.getD (k / 8) 0).toNat.testBit (k % 8)

/-- `out[k / 8] |= 1 << (k % 8)`. -/
def setBit (out : List UInt8) (k : ℕ) : List UInt8 :=
  out.modify (k / 8) fun b => b ||| (1 <<< UInt8.ofNat (k % 8))

@[simp] theorem length_setBit (out : List UInt8) (k : ℕ) :
    (setBit out k).length = out.length := by
  simp [setBit]

@[simp] theorem bit_replicate_zero (n k : ℕ) : bit (replicate n 0) k = false := by
  unfold bit
  by_cases h : k / 8 < n <;> simp [h]

/-- A single-bit mask, as a number. -/
theorem toNat_one_shiftLeft {i : ℕ} (hi : i < 8) :
    ((1 : UInt8) <<< UInt8.ofNat i).toNat = 2 ^ i := by
  have h : ∀ j : Fin 8, ((1 : UInt8) <<< UInt8.ofNat j).toNat = 2 ^ (j : ℕ) := by decide
  exact h ⟨i, hi⟩

variable {out : List UInt8}

/-- Writing inside the stream adds exactly the bit written. -/
theorem bit_setBit {t : ℕ} (ht : t < 8 * out.length) (k : ℕ) :
    bit (setBit out t) k = (bit out k || decide (k = t)) := by
  unfold bit setBit
  by_cases hk : k / 8 = t / 8
  · -- the octet that was written
    have hklt : k / 8 < out.length := by omega
    rw [getD_eq_getElem _ _ (by simpa using hklt), getD_eq_getElem _ _ hklt,
      getElem_modify, if_pos hk.symm, UInt8.toNat_or, Nat.testBit_or,
      toNat_one_shiftLeft (Nat.mod_lt t (by decide)), Nat.testBit_two_pow]
    congr 1
    simp only [decide_eq_decide]
    omega
  · -- another octet
    have hne : k ≠ t := fun h => hk (by rw [h])
    simp only [getD_eq_getElem?_getD, List.getElem?_modify, if_neg (Ne.symm hk), hne,
      decide_false, Bool.or_false]
    simp

variable {off : ℕ} {c : ℕ → Bool}

/-- A loop that sets the bits `off + i` for the `i` it is told to: it adds
exactly those. -/
theorem bit_foldl_setBit :
    ∀ {l : List ℕ} {out : List UInt8}, (∀ i ∈ l, off + i < 8 * out.length) → ∀ k,
      bit (l.foldl (fun out i => if c i then setBit out (off + i) else out) out) k =
        (bit out k || l.any fun i => c i && decide (k = off + i)) := by
  intro l
  induction l with
  | nil => intro out _ k; simp
  | cons i rest ih =>
    intro out hl k
    have hi : off + i < 8 * out.length := hl i (mem_cons_self ..)
    have hlen : (if c i then setBit out (off + i) else out).length = out.length := by
      split <;> simp
    rw [foldl_cons, ih (fun j hj => by rw [hlen]; exact hl j (mem_cons_of_mem _ hj)), any_cons]
    cases hc : c i with
    | true => simp [bit_setBit hi, Bool.or_assoc]
    | false => simp

@[simp] theorem length_foldl_setBit {l : List ℕ} :
    ∀ {out : List UInt8},
      (l.foldl (fun out i => if c i then setBit out (off + i) else out) out).length =
        out.length := by
  induction l with
  | nil => intro out; rfl
  | cons i rest ih =>
    intro out
    rw [foldl_cons, ih]
    split <;> simp

/-- Octets that agree in their eight bits are equal. -/
theorem getElem_eq_of_bit {out' : List UInt8} {j : ℕ} (hj : j < out.length)
    (hj' : j < out'.length) (h : ∀ i < 8, bit out (8 * j + i) = bit out' (8 * j + i)) :
    out[j] = out'[j] := by
  apply UInt8.toNat.inj
  apply Nat.eq_of_testBit_eq
  intro i
  by_cases hi : i < 8
  · have hd : (8 * j + i) / 8 = j := by omega
    have hm : (8 * j + i) % 8 = i := by omega
    have hbit := h i hi
    rw [bit, bit, hd, hm, getD_eq_getElem _ _ hj, getD_eq_getElem _ _ hj'] at hbit
    exact hbit
  · have hpow : 2 ^ 8 ≤ 2 ^ i := Nat.pow_le_pow_right (by decide) (by omega)
    rw [Nat.testBit_lt_two_pow (lt_of_lt_of_le (UInt8.toNat_lt _) hpow),
      Nat.testBit_lt_two_pow (lt_of_lt_of_le (UInt8.toNat_lt _) hpow)]

end BitStream
