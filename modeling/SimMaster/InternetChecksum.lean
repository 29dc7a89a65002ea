import SimMaster.IpFragmentHeaders

/-!
# The internet checksum

The sum of the 16-bit words of some data with the carries added back in, that is modulo 65535, with
65535 for the multiples of it but zero (`foldCarries_eq`). A checksum is the complement of the sum
over the data with zeros in its field; with the checksum in place the sum is `0xffff`
(`onesComplementSum_checksum`). A checksum with its octets exchanged does that only if the two
octets of the sum are equal (`onesComplementSum_swapped_iff`).
-/

namespace SimMaster.TunGateway

open Rust List

/-! ## Sums of words -/

/-- The sum of the 16-bit words. -/
def wordsSum (data : Bytes) : ℕ := (headerWords data).sum

/-- The sum with its carries added back in. -/
def onesComplementSum (data : Bytes) : ℕ := foldCarries (wordsSum data)

variable {front : Bytes}

/-- The words of two parts, of which the first ends with a whole word. -/
theorem headerWords_append (h : 2 ∣ front.length) (back : Bytes) :
    headerWords (front ++ back) = headerWords front ++ headerWords back := by
  induction front using headerWords.induct with
  | case1 => rfl
  | case2 a =>
    rw [length_singleton] at h
    omega
  | case3 a b rest ih =>
    simp only [length_cons] at h
    have hrest : 2 ∣ rest.length := by omega
    rw [cons_append, cons_append, headerWords, headerWords, ih hrest, cons_append]

theorem wordsSum_append (h : 2 ∣ front.length) (back : Bytes) :
    wordsSum (front ++ back) = wordsSum front + wordsSum back := by
  rw [wordsSum, headerWords_append h, sum_append]
  rfl

/-- Each word is at most `0xffff`. -/
theorem wordsSum_le (data : Bytes) : wordsSum data ≤ 65535 * ((data.length + 1) / 2) := by
  induction data using headerWords.induct with
  | case1 => exact Nat.zero_le _
  | case2 a =>
    have ha := a.toNat_lt
    simp only [wordsSum, headerWords, sum_singleton, length_singleton]
    omega
  | case3 a b rest ih =>
    have hword := fromBe_lt [a, b]
    rw [wordsSum] at ih ⊢
    rw [headerWords, sum_cons]
    simp only [length_cons, length_nil] at hword ⊢
    omega

variable {v : ℕ}

/-- Two octets are one word. -/
theorem wordsSum_be (h : v < 65536) : wordsSum (be 2 v) = v := by
  have hvalue : fromBe (be 2 v) = v := fromBe_be h
  obtain ⟨a, b, hab⟩ : ∃ a b, be 2 v = [a, b] := length_eq_two.mp (length_be 2 v)
  rw [hab] at hvalue ⊢
  rw [wordsSum, headerWords, headerWords, sum_singleton, hvalue]

/-! ## Carries -/

/-- The carries of a sum that is not zero leave a value from 1 to 65535. -/
theorem foldCarries_eq (n : ℕ) : foldCarries n = if n = 0 then 0 else (n - 1) % 65535 + 1 := by
  induction n using foldCarries.induct with
  | case1 n h =>
    rw [foldCarries, if_pos h]
    split
    · assumption
    · rw [Nat.mod_eq_of_lt (by omega)]
      omega
  | case2 n h ih =>
    rw [foldCarries, if_neg h, ih, if_neg (by omega), if_neg (by omega)]
    have hsplit : n - 1 = n % 65536 + n / 65536 - 1 + 65535 * (n / 65536) := by omega
    rw [hsplit, Nat.add_mul_mod_self_left]

theorem foldCarries_le (n : ℕ) : foldCarries n ≤ 65535 := by
  rw [foldCarries_eq]
  split <;> omega

theorem foldCarries_mod (n : ℕ) : foldCarries n % 65535 = n % 65535 := by
  rw [foldCarries_eq]
  split
  · next h => rw [h]
  · rw [Nat.mod_add_mod, Nat.sub_add_cancel (by omega)]

theorem foldCarries_eq_zero_iff (n : ℕ) : foldCarries n = 0 ↔ n = 0 := by
  rw [foldCarries_eq]
  split <;> omega

theorem foldCarries_eq_max_iff (n : ℕ) : foldCarries n = 0xffff ↔ n % 65535 = 0 ∧ n ≠ 0 := by
  have hle := foldCarries_le n
  have hmod := foldCarries_mod n
  have hzero := foldCarries_eq_zero_iff n
  omega

/-! ## Checksums -/

/-- A value with its two octets exchanged. -/
def swapOctets (v : ℕ) : ℕ := v % 256 * 256 + v / 256

/-- Two octets of data at an even place. -/
theorem wordsSum_field (hfront : 2 ∣ front.length) (hv : v < 65536)
    (back : Bytes) :
    wordsSum (front ++ (be 2 v ++ back)) = wordsSum (front ++ ([0, 0] ++ back)) + v := by
  have hzero : wordsSum [0, 0] = 0 := rfl
  rw [wordsSum_append hfront, wordsSum_append hfront, wordsSum_append (by rw [length_be]),
    wordsSum_append (by decide), wordsSum_be hv, hzero]
  omega

/-- **Verification.** With the complement of the sum in the field the sum is `0xffff`. -/
theorem onesComplementSum_checksum (hfront : 2 ∣ front.length) (back : Bytes) :
    onesComplementSum (front ++
      (be 2 (65535 - onesComplementSum (front ++ ([0, 0] ++ back))) ++ back)) = 0xffff := by
  have hle : onesComplementSum (front ++ ([0, 0] ++ back)) ≤ 65535 := foldCarries_le _
  have hmod : onesComplementSum (front ++ ([0, 0] ++ back)) % 65535 =
      wordsSum (front ++ ([0, 0] ++ back)) % 65535 := foldCarries_mod _
  have hzero : onesComplementSum (front ++ ([0, 0] ++ back)) = 0 ↔
      wordsSum (front ++ ([0, 0] ++ back)) = 0 := foldCarries_eq_zero_iff _
  rw [onesComplementSum, foldCarries_eq_max_iff, wordsSum_field hfront (by omega)]
  omega

variable {sum : ℕ}

/-- With the octets of the complement exchanged the sum is `0xffff` only if the sum before had two
equal octets. -/
theorem onesComplementSum_swapped_iff (hfront : 2 ∣ front.length) (back : Bytes)
    (hsum : sum = onesComplementSum (front ++ ([0, 0] ++ back))) :
    onesComplementSum (front ++ (be 2 (swapOctets (65535 - sum)) ++ back)) = 0xffff ↔
      sum / 256 = sum % 256 := by
  have hle : sum ≤ 65535 := hsum ▸ foldCarries_le _
  have hmod : sum % 65535 = wordsSum (front ++ ([0, 0] ++ back)) % 65535 :=
    hsum ▸ foldCarries_mod _
  have hzero : sum = 0 ↔ wordsSum (front ++ ([0, 0] ++ back)) = 0 :=
    hsum ▸ foldCarries_eq_zero_iff _
  have hlt : swapOctets (65535 - sum) < 65536 := by
    rw [swapOctets]
    omega
  rw [onesComplementSum, foldCarries_eq_max_iff, wordsSum_field hfront hlt, swapOctets]
  omega

/-! ## IPv4 headers -/

/-- The sum of 32 bits does not wrap around. -/
theorem foldl_wrapping {words : List ℕ} (h : sum + words.sum < 2 ^ 32) :
    words.foldl (fun sum word => (sum + word) % 2 ^ 32) sum = sum + words.sum := by
  induction words generalizing sum with
  | nil => rfl
  | cons word words ih =>
    rw [sum_cons, ← Nat.add_assoc] at h
    rw [foldl_cons, Nat.mod_eq_of_lt (by omega), ih h, sum_cons, Nat.add_assoc]

variable {header : Bytes}

theorem ipv4HeaderChecksum_eq (h : header.length ≤ 65536) :
    ipv4HeaderChecksum header = 65535 - onesComplementSum header := by
  have hle := wordsSum_le header
  rw [wordsSum] at hle
  rw [ipv4HeaderChecksum, foldl_wrapping (by omega), Nat.zero_add]
  rfl

theorem overwrite_eq_append {data : Bytes} {i : ℕ} {bytes : Bytes}
    (h : i + bytes.length ≤ data.length) :
    overwrite data i bytes = data.take i ++ (bytes ++ data.drop (i + bytes.length)) := by
  have htake : (data.take i).length = i := by
    rw [length_take]
    omega
  refine ext_getElem? fun k => ?_
  by_cases hmem : i ≤ k ∧ k < i + bytes.length
  · rw [getElem?_overwrite_of_mem hmem.1 hmem.2 h, getElem?_append_right (by omega), htake,
      getElem?_append_left (by omega)]
  · rw [getElem?_overwrite_of_not_mem (by omega)]
    by_cases hi : i ≤ k
    · rw [getElem?_append_right (by omega), htake, getElem?_append_right (by omega), getElem?_drop]
      congr 1
      omega
    · rw [getElem?_append_left (by omega), getElem?_take_of_lt (by omega)]

/-- A header with its checksum computed verifies. -/
theorem onesComplementSum_withChecksum (hmin : 12 ≤ header.length)
    (hmax : header.length ≤ 65536) : onesComplementSum (withChecksum header) = 0xffff := by
  have hfront : 2 ∣ (header.take 10).length := by
    rw [length_take, Nat.min_eq_left (by omega)]
    decide
  have hcleared : overwrite header 10 [0, 0] = header.take 10 ++ ([0, 0] ++ header.drop 12) :=
    overwrite_eq_append hmin
  rw [withChecksum_eq, overwrite_overwrite (a := [0, 0]) (length_be 2 _).symm,
    ipv4HeaderChecksum_eq (by rw [length_overwrite]; exact hmax), hcleared,
    overwrite_eq_append (by rw [length_be]; exact hmin), length_be]
  exact onesComplementSum_checksum hfront (header.drop 12)

end SimMaster.TunGateway
