import SimMaster.Text

/-!
# Octet strings

Ranges of octets and options turned into results, as the readers of binary formats use them. The
range functions are those of slices: they answer `none` when the range does not fit. Integers stand
in such formats most significant octet first: `be` writes one of a given width, `fromBe` reads one
of any width, and each undoes the other. `overwrite` changes a range of a record in place.
-/

namespace Rust

open List Option Function

/-- `Option::ok_or`. -/
def okOr {ε α : Type*} (e : ε) : Option α → Except ε α
  | some a => .ok a
  | none => .error e

variable {ε α : Type*}

@[simp] theorem okOr_some (e : ε) (a : α) : okOr e (some a) = .ok a := rfl

theorem okOr_eq_ok {e : ε} {x : Option α} {a : α} : okOr e x = .ok a ↔ x = some a := by
  cases x with
  | none => exact ⟨nofun, nofun⟩
  | some b => exact ⟨fun h => congrArg some (Except.ok.inj h),
      fun h => congrArg Except.ok (some.inj h)⟩

/-- `<[u8]>::get(i..)`. -/
def getFrom (data : Bytes) (i : ℕ) : Option Bytes :=
  if i ≤ data.length then some (data.drop i) else none

/-- `<[u8]>::get(i..j)`. -/
def getRange (data : Bytes) (i j : ℕ) : Option Bytes :=
  if i ≤ j ∧ j ≤ data.length then some ((data.drop i).take (j - i)) else none

/-- `&data[i..j]`, of a range that is known to fit. -/
def slice (data : Bytes) (i j : ℕ) : Bytes := (data.drop i).take (j - i)

variable {i j : ℕ}

theorem getRange_eq {data : Bytes} (hij : i ≤ j) (hj : j ≤ data.length) :
    getRange data i j = some (slice data i j) := if_pos ⟨hij, hj⟩

theorem slice_append_drop (data : Bytes) (h : i ≤ j) :
    slice data i j ++ data.drop j = data.drop i := by
  have hdrop : data.drop j = (data.drop i).drop (j - i) := by
    rw [drop_drop, Nat.add_sub_cancel' h]
  rw [slice, hdrop, take_append_drop]

variable {data : Bytes}

theorem length_slice (h : j ≤ data.length) : (slice data i j).length = j - i := by
  rw [slice, length_take, length_drop]
  omega

theorem getD_cons_drop (h : i < data.length) :
    data.getD i 0 :: data.drop (i + 1) = data.drop i := by
  rw [getD_eq_getElem data 0 h, getElem_cons_drop h]

/-! ## Big-endian integers -/

/-- `to_be_bytes` of an integer `width` octets wide. -/
def be : ℕ → ℕ → Bytes
  | 0, _ => []
  | width + 1, v => UInt8.ofNat (v / 256 ^ width) :: be width v

/-- `from_be_bytes`. -/
def fromBe : Bytes → ℕ
  | [] => 0
  | b :: rest => b.toNat * 256 ^ rest.length + fromBe rest

@[simp] theorem length_be (width v : ℕ) : (be width v).length = width := by
  induction width with
  | zero => rfl
  | succ width ih => rw [be, length_cons, ih]

theorem fromBe_lt (bytes : Bytes) : fromBe bytes < 256 ^ bytes.length := by
  induction bytes with
  | nil => exact Nat.one_pos
  | cons b rest ih =>
    have hb : b.toNat * 256 ^ rest.length ≤ 255 * 256 ^ rest.length :=
      Nat.mul_le_mul_right _ (Nat.le_of_lt_succ b.toNat_lt)
    rw [fromBe, length_cons, Nat.pow_succ]
    omega

/-- The octets keep the integer, as far as it fits their number. -/
theorem fromBe_be_mod (width v : ℕ) : fromBe (be width v) = v % 256 ^ width := by
  induction width with
  | zero => rw [pow_zero, Nat.mod_one]; rfl
  | succ width ih =>
    have htop : (UInt8.ofNat (v / 256 ^ width)).toNat = v / 256 ^ width % 256 := UInt8.toNat_ofNat'
    rw [be, fromBe, length_be, ih, htop, Nat.pow_succ, Nat.mod_mul, Nat.mul_comm, Nat.add_comm]

theorem fromBe_be {width v : ℕ} (h : v < 256 ^ width) : fromBe (be width v) = v := by
  rw [fromBe_be_mod, Nat.mod_eq_of_lt h]

/-- What stands above the width does not show. -/
theorem be_add_mul (width k v : ℕ) : be width (k * 256 ^ width + v) = be width v := by
  induction width generalizing k with
  | zero => rfl
  | succ width ih =>
    have hpow : k * 256 ^ (width + 1) + v = k * 256 * 256 ^ width + v := by
      rw [Nat.pow_succ]; ring
    have hdiv : (k * 256 * 256 ^ width + v) / 256 ^ width = k * 256 + v / 256 ^ width := by
      rw [Nat.add_comm, Nat.add_mul_div_right _ _ (by positivity), Nat.add_comm]
    have htop : UInt8.ofNat (k * 256 + v / 256 ^ width) = UInt8.ofNat (v / 256 ^ width) :=
      UInt8.toNat_inj.mp (by rw [UInt8.toNat_ofNat', UInt8.toNat_ofNat']; omega)
    rw [be, be, hpow, hdiv, htop, ih (k * 256)]

/-- Reading octets and writing them back. -/
theorem be_fromBe (bytes : Bytes) : be bytes.length (fromBe bytes) = bytes := by
  induction bytes with
  | nil => rfl
  | cons b rest ih =>
    have hrest := fromBe_lt rest
    have hdiv : (b.toNat * 256 ^ rest.length + fromBe rest) / 256 ^ rest.length = b.toNat := by
      rw [Nat.add_comm, Nat.add_mul_div_right _ _ (by positivity), Nat.div_eq_of_lt hrest,
        Nat.zero_add]
    rw [fromBe, length_cons, be, hdiv, UInt8.ofNat_toNat, be_add_mul, ih]

variable {bytes : Bytes}

theorem be_toNat_ofNat64 (h : bytes.length = 8) :
    be 8 (UInt64.ofNat (fromBe bytes)).toNat = bytes := by
  have hlt := fromBe_lt bytes
  have hback := be_fromBe bytes
  rw [h] at hlt hback
  rw [UInt64.toNat_ofNat_of_lt' hlt, hback]

theorem be_toNat_ofNat32 (h : bytes.length = 4) :
    be 4 (UInt32.ofNat (fromBe bytes)).toNat = bytes := by
  have hlt := fromBe_lt bytes
  have hback := be_fromBe bytes
  rw [h] at hlt hback
  rw [UInt32.toNat_ofNat_of_lt' hlt, hback]

/-! ## Writing into a range -/

/-- `data[i..i + bytes.len()].copy_from_slice(bytes)`, of a range that is known to fit. -/
def overwrite (data : Bytes) (i : ℕ) (bytes : Bytes) : Bytes :=
  data.mapIdx fun k b => if i ≤ k then bytes.getD (k - i) b else b

/-- The same of a range that may not fit. -/
def copyFromSlice (data : Bytes) (i : ℕ) (bytes : Bytes) : Option Bytes :=
  if i + bytes.length ≤ data.length then some (overwrite data i bytes) else none

@[simp] theorem length_overwrite (data : Bytes) (i : ℕ) (bytes : Bytes) :
    (overwrite data i bytes).length = data.length := length_mapIdx

theorem copyFromSlice_of_le (h : i + bytes.length ≤ data.length) :
    copyFromSlice data i bytes = some (overwrite data i bytes) := if_pos h

variable {k : ℕ}

/-- Octets outside the range stay. -/
theorem getElem?_overwrite_of_not_mem
    (h : k < i ∨ i + bytes.length ≤ k) : (overwrite data i bytes)[k]? = data[k]? := by
  rw [overwrite, getElem?_mapIdx]
  rcases h with hbefore | hafter
  · simp only [if_neg (Nat.not_le.mpr hbefore), Option.map_id']
  · have hnone : bytes[k - i]? = none := getElem?_eq_none (by omega)
    simp only [if_pos (show i ≤ k by omega), List.getD, hnone, getD_none, Option.map_id']

/-- The octets of the range are those written. -/
theorem getElem?_overwrite_of_mem
    (hi : i ≤ k) (hk : k < i + bytes.length) (hfit : i + bytes.length ≤ data.length) :
    (overwrite data i bytes)[k]? = bytes[k - i]? := by
  have hlt : k < data.length := by omega
  have hlt' : k - i < bytes.length := by omega
  have hdata : data[k]? = some data[k] := getElem?_eq_getElem hlt
  have hbytes : bytes[k - i]? = some bytes[k - i] := getElem?_eq_getElem hlt'
  rw [overwrite, getElem?_mapIdx, hdata]
  simp only [map_some, if_pos hi, List.getD, hbytes, getD_some]

theorem getElem?_slice (data : Bytes) (i j k : ℕ) :
    (slice data i j)[k]? = if k < j - i then data[i + k]? else none := by
  rw [slice, getElem?_take]
  simp only [getElem?_drop]

/-- What is written is read back. -/
theorem slice_overwrite (h : i + bytes.length ≤ data.length) :
    slice (overwrite data i bytes) i (i + bytes.length) = bytes := by
  refine ext_getElem? fun k => ?_
  rw [getElem?_slice]
  split
  · rename_i hk
    rw [getElem?_overwrite_of_mem (by omega) (by omega) h, Nat.add_sub_cancel_left]
  · exact (getElem?_eq_none (by omega)).symm

/-- Other ranges are not touched. -/
theorem slice_overwrite_of_disjoint {s e : ℕ}
    (h : e ≤ i ∨ i + bytes.length ≤ s) : slice (overwrite data i bytes) s e = slice data s e := by
  refine ext_getElem? fun k => ?_
  rw [getElem?_slice, getElem?_slice]
  split
  · exact getElem?_overwrite_of_not_mem (by omega)
  · rfl

variable {a b : Bytes}

/-- Writing over a range that was just written. -/
theorem overwrite_overwrite (h : a.length = b.length) :
    overwrite (overwrite data i a) i b = overwrite data i b := by
  rw [overwrite, overwrite, overwrite, mapIdx_mapIdx]
  congr 1
  funext k x
  by_cases hi : i ≤ k
  · by_cases hk : k - i < b.length
    · simp [comp, hi, List.getD, getElem?_eq_getElem hk]
    · have ha : a[k - i]? = none := getElem?_eq_none (by omega)
      have hb : b[k - i]? = none := getElem?_eq_none (by omega)
      simp [comp, hi, List.getD, ha, hb]
  · simp [comp, hi]

/-- Adjoining ranges are one range. -/
theorem overwrite_append :
    overwrite (overwrite data i a) (i + a.length) b = overwrite data i (a ++ b) := by
  rw [overwrite, overwrite, overwrite, mapIdx_mapIdx]
  congr 1
  funext k x
  simp only [comp]
  by_cases hi : i ≤ k
  · by_cases ha : i + a.length ≤ k
    · have hout : a[k - i]? = none := getElem?_eq_none (by omega)
      rw [if_pos ha, if_pos hi, if_pos hi, getD_append_right _ _ _ _ (by omega),
        getD_eq_getElem?_getD (l := a), hout, getD_none, Nat.sub_add_eq]
    · rw [if_neg ha, if_pos hi, if_pos hi, getD_append _ _ _ _ (by omega)]
  · rw [if_neg (by omega), if_neg hi, if_neg hi]

/-- Two ranges that do not meet may be written in either order. -/
theorem overwrite_comm (h : i + a.length ≤ j) :
    overwrite (overwrite data i a) j b = overwrite (overwrite data j b) i a := by
  refine ext_getElem? fun k => ?_
  by_cases hj : j ≤ k
  · have ha : a[k - i]? = none := getElem?_eq_none (by omega)
    simp [overwrite, getElem?_mapIdx, hj, List.getD, ha, comp_def]
  · simp [overwrite, getElem?_mapIdx, hj, comp_def]

/-- Writing what stands there already. -/
theorem overwrite_eq_self
    (h : slice data i (i + bytes.length) = bytes) : overwrite data i bytes = data := by
  refine ext_getElem? fun k => ?_
  by_cases hk : i ≤ k ∧ k < i + bytes.length
  · have hread : data[k]? = bytes[k - i]? := by
      have hslice := getElem?_slice data i (i + bytes.length) (k - i)
      rw [h, if_pos (by omega), Nat.add_sub_cancel' hk.1] at hslice
      exact hslice.symm
    have hlt : k - i < bytes.length := by omega
    have hbytes : bytes[k - i]? = some bytes[k - i] := getElem?_eq_getElem hlt
    simp [overwrite, getElem?_mapIdx, hk.1, List.getD, hread, hbytes]
  · exact getElem?_overwrite_of_not_mem (by omega)

/-- A range that ends in the first of two parts is a range of that part. -/
theorem slice_append_left (h : j ≤ a.length) : slice (a ++ b) i j = slice a i j := by
  refine ext_getElem? fun k => ?_
  rw [getElem?_slice, getElem?_slice]
  split
  · exact getElem?_append_left (by omega)
  · rfl

theorem slice_append_right (a b : Bytes) (i j : ℕ) :
    slice (a ++ b) (a.length + i) (a.length + j) = slice b i j := by
  rw [slice, slice, drop_append, Nat.add_sub_add_left, drop_eq_nil_of_le (by omega),
    nil_append, Nat.add_sub_cancel_left]

theorem slice_take {n : ℕ} (h : j ≤ n) : slice (data.take n) i j = slice data i j := by
  refine ext_getElem? fun k => ?_
  rw [getElem?_slice, getElem?_slice]
  split
  · exact getElem?_take_of_lt (by omega)
  · rfl

end Rust
