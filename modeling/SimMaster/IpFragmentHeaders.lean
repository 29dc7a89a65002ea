import SimMaster.IpFragments

/-!
# The headers of fragments

A fragment carries the header of its packet, changed in place. This file says what the reassemblers
read out of such a header, and that they can undo the change: all that is overwritten in the header
of fragment zero is written back.
-/

namespace SimMaster.TunGateway

open Rust Reassembly List Option

/-! ## Flags and offset -/

/-- The more-fragments bit above thirteen bits of offset. -/
theorem flags_and_offset {x : ℕ} (h : x < 8192) (last : Bool) :
    decide ((x ||| if last then 0 else 0x2000) &&& 0x2000 ≠ 0) = !last ∧
      (x ||| if last then 0 else 0x2000) &&& 0x1fff = x := by
  have hand : x &&& 8192 = 0 := by
    rw [show (8192 : ℕ) = 2 ^ 13 from rfl, Nat.and_two_pow, Nat.testBit_lt_two_pow h]
    rfl
  have hmod : x &&& 8191 = x := by
    rw [show (8191 : ℕ) = 2 ^ 13 - 1 from rfl, Nat.and_two_pow_sub_one_eq_mod, Nat.mod_eq_of_lt h]
  cases last with
  | true => simp [hand, hmod]
  | false => simp [Nat.and_or_distrib_right, hand, hmod]

/-- The offset above two reserved bits and the more-fragments bit. -/
theorem offset_and_flag (x : ℕ) (last : Bool) :
    decide ((x * 8 ||| if last then 0 else 1) &&& 1 ≠ 0) = !last ∧
      (x * 8 ||| if last then 0 else 1) >>> 3 = x := by
  have hor : (x * 8 ||| if last then 0 else 1) = x * 8 + if last then 0 else 1 := by
    cases last with
    | true => simp
    | false =>
      rw [Nat.mul_comm]
      exact (Nat.two_pow_add_eq_or_of_lt (i := 3) (by decide) x).symm
  rw [hor, Nat.and_one_is_mod, Nat.shiftRight_eq_div_pow]
  cases last with
  | true => exact ⟨decide_eq_false (by simp; omega), by simp⟩
  | false => exact ⟨decide_eq_true (by simp; omega), by simp; omega⟩

/-! ## IPv4 headers -/

theorem withChecksum_eq (header : Bytes) :
    withChecksum header = overwrite (overwrite header 10 [0, 0]) 10
      (be 2 (ipv4HeaderChecksum (overwrite header 10 [0, 0]))) := by
  have hzero : overwrite (overwrite header 10 [0]) 11 [0] = overwrite header 10 [0, 0] :=
    overwrite_append
  rw [withChecksum, hzero]

@[simp] theorem length_withChecksum (header : Bytes) :
    (withChecksum header).length = header.length := by
  rw [withChecksum_eq, length_overwrite, length_overwrite]

variable {header : Bytes} {i j : ℕ}

/-- Other fields are as they were. -/
theorem slice_withChecksum (h : j ≤ 10 ∨ 12 ≤ i) :
    slice (withChecksum header) i j = slice header i j := by
  have hlen : (be 2 (ipv4HeaderChecksum (overwrite header 10 [0, 0]))).length = 2 := length_be 2 _
  rw [withChecksum_eq, slice_overwrite_of_disjoint (by rw [hlen]; exact h),
    slice_overwrite_of_disjoint (by exact h)]

variable {a b : Bytes}

/-- Only what stands outside the checksum field decides about the header. -/
theorem withChecksum_congr (h : overwrite a 10 [0, 0] = overwrite b 10 [0, 0]) :
    withChecksum a = withChecksum b := by
  rw [withChecksum_eq a, withChecksum_eq b, h]

theorem overwrite_withChecksum (header : Bytes) :
    overwrite (withChecksum header) 10 [0, 0] = overwrite header 10 [0, 0] := by
  rw [withChecksum_eq, overwrite_overwrite (length_be 2 _), overwrite_overwrite rfl]

/-- A header that is changed after its checksum was computed may as well be changed before. -/
theorem withChecksum_rewrite (ha : a.length = 2) (hb : b.length = 2) :
    withChecksum (overwrite (overwrite (withChecksum header) 2 a) 6 b) =
      withChecksum (overwrite (overwrite header 2 a) 6 b) := by
  have hcomm : ∀ h : Bytes, overwrite (overwrite (overwrite h 2 a) 6 b) 10 [0, 0] =
      overwrite (overwrite (overwrite h 10 [0, 0]) 2 a) 6 b := fun h => by
    rw [overwrite_comm (i := 6) (by omega), overwrite_comm (i := 2) (by omega)]
  refine withChecksum_congr ?_
  rw [hcomm, hcomm, overwrite_withChecksum]

/-- What the reassemblers do to a header of fitting length. -/
theorem restoreIpv4Header_eq (h : 12 ≤ header.length) (totalLen : ℕ) :
    restoreIpv4Header header header.length totalLen =
      some (withChecksum (overwrite (overwrite header 2 (be 2 totalLen)) 6 [0, 0])) := by
  have hlen : ∀ v, (be 2 v).length = 2 := length_be 2
  have hcopy : ∀ (data : Bytes) (i : ℕ) (bytes : Bytes), data.length = header.length →
      i + bytes.length ≤ 12 → copyFromSlice data i bytes = some (overwrite data i bytes) :=
    fun data i bytes hdata hfit => copyFromSlice_of_le (by omega)
  have hwhole : ∀ data : Bytes, data.length = header.length →
      getRange data 0 header.length = some data := fun data hdata => by
    rw [getRange, if_pos ⟨Nat.zero_le _, hdata.ge⟩, drop_zero, Nat.sub_zero,
      take_of_length_le hdata.le]
  rw [restoreIpv4Header, hcopy _ 2 _ rfl (by rw [hlen]; decide)]
  dsimp only [bind_eq_bind, bind_some]
  rw [hcopy _ 6 _ (by simp) (by decide)]
  dsimp only [bind_some]
  rw [hcopy _ 10 _ (by simp) (by decide)]
  dsimp only [bind_some]
  rw [hcopy _ 11 _ (by simp) (by decide)]
  dsimp only [bind_some]
  rw [hwhole _ (by simp)]
  dsimp only [bind_some]
  rw [hcopy _ 10 _ (by simp) (by rw [hlen])]
  rfl

theorem version_congr (h : a[0]? = b[0]?) : version a = version b := by
  rw [version, version, head?_eq_getElem?, head?_eq_getElem?, h]

theorem headerLen_congr (h : a[0]? = b[0]?) : headerLen a = headerLen b := by
  rw [headerLen, headerLen, getD_eq_getElem?_getD, getD_eq_getElem?_getD, h]

/-! ### The header of an IPv4 fragment -/

section Ipv4

variable {packet : Bytes} {ihl : ℕ} (hmin : 20 ≤ ihl) (hle : ihl ≤ packet.length)
  (part : Fragment UInt8)

theorem ipv4FragmentHeader_eq (packet : Bytes) (ihl : ℕ) (part : Fragment UInt8) :
    ipv4FragmentHeader packet ihl part =
      withChecksum (overwrite (overwrite (overwrite (packet.take ihl) 2
        (be 2 (ihl + part.data.length))) 4 (be 2 (fromBe (slice packet 4 6)))) 6
        (be 2 (part.offset / 8 % 65536 ||| if part.last then 0 else 0x2000))) := rfl

include hle in
theorem length_ipv4FragmentHeader : (ipv4FragmentHeader packet ihl part).length = ihl := by
  rw [ipv4FragmentHeader_eq, length_withChecksum, length_overwrite, length_overwrite,
    length_overwrite, length_take, Nat.min_eq_left hle]

include hmin hle in
/-- The identification and the addresses are those of the packet. -/
theorem slice_ipv4FragmentHeader (h : 4 ≤ i ∧ j ≤ 6 ∨ 12 ≤ i ∧ j ≤ 20) :
    slice (ipv4FragmentHeader packet ihl part) i j = slice packet i j := by
  have hid : slice (packet.take ihl) 4 6 = slice packet 4 6 := slice_take (by omega)
  have hidlen : (slice packet 4 6).length = 2 := length_slice (by omega)
  have hback : be 2 (fromBe (slice packet 4 6)) = slice packet 4 6 := by
    have hbe := be_fromBe (slice packet 4 6)
    rwa [hidlen] at hbe
  have hlen : ∀ v, (be 2 v).length = 2 := length_be 2
  rw [ipv4FragmentHeader_eq, slice_withChecksum (by omega), slice_overwrite_of_disjoint
    (by rw [hlen]; omega), hback]
  -- the identification is overwritten with itself
  rw [overwrite_eq_self, slice_overwrite_of_disjoint (by rw [hlen]; omega), slice_take (by omega)]
  rw [hidlen, slice_overwrite_of_disjoint (by rw [hlen]; omega), hid]

include hmin hle in
theorem slice_ipv4FragmentHeader_flags : slice (ipv4FragmentHeader packet ihl part) 6 8 =
    be 2 (part.offset / 8 % 65536 ||| if part.last then 0 else 0x2000) := by
  have hlen : ∀ v, (be 2 v).length = 2 := length_be 2
  have hread : ∀ (data flags : Bytes), flags.length = 2 → 8 ≤ data.length →
      slice (overwrite data 6 flags) 6 8 = flags := fun data flags hflags hdata => by
    have hwritten := slice_overwrite (i := 6) (show 6 + flags.length ≤ data.length by omega)
    rwa [hflags] at hwritten
  rw [ipv4FragmentHeader_eq, slice_withChecksum (by omega), hread _ _ (hlen _)]
  rw [length_overwrite, length_overwrite, length_take]
  omega

include hmin in
theorem getElem?_ipv4FragmentHeader_zero :
    (ipv4FragmentHeader packet ihl part)[0]? = packet[0]? := by
  rw [ipv4FragmentHeader_eq, withChecksum_eq, getElem?_overwrite_of_not_mem (by omega),
    getElem?_overwrite_of_not_mem (by omega), getElem?_overwrite_of_not_mem (by omega),
    getElem?_overwrite_of_not_mem (by omega), getElem?_overwrite_of_not_mem (by omega),
    getElem?_take_of_lt (by omega)]

include hmin hle in
/-- Restoring the header of any fragment gives that of the packet, checksum apart. -/
theorem restoreIpv4Header_fragment {totalLen : ℕ} (htotal : slice packet 2 4 = be 2 totalLen)
    (hflags : slice packet 6 8 = [0, 0]) :
    restoreIpv4Header (ipv4FragmentHeader packet ihl part) ihl totalLen =
      some (withChecksum (packet.take ihl)) := by
  have hheader := length_ipv4FragmentHeader hle part
  have hrestore := restoreIpv4Header_eq (show 12 ≤ (ipv4FragmentHeader packet ihl part).length by
    omega) totalLen
  have hlen : ∀ v, (be 2 v).length = 2 := length_be 2
  have hsame : (be 2 (ihl + part.data.length)).length = (be 2 totalLen).length := by rw [hlen, hlen]
  have hid : be 2 (fromBe (slice packet 4 6)) = slice (packet.take ihl) 4 6 := by
    have hbe := be_fromBe (slice packet 4 6)
    rw [length_slice (show 6 ≤ packet.length by omega)] at hbe
    rw [slice_take (show 6 ≤ ihl by omega)]
    exact hbe
  rw [hheader] at hrestore
  rw [hrestore, ipv4FragmentHeader_eq, withChecksum_rewrite (hlen _) rfl]
  -- each field is written last with what the packet has there
  rw [← overwrite_comm (i := 2) (j := 6) (by rw [hlen]; decide), overwrite_overwrite (hlen _),
    ← overwrite_comm (i := 2) (j := 4) (by rw [hlen]), overwrite_overwrite hsame,
    overwrite_eq_self (i := 2), overwrite_eq_self (i := 4), overwrite_eq_self (i := 6)]
  · exact (slice_take (by simp; omega)).trans hflags
  · rw [hid, length_slice (by rw [length_take]; omega)]
  · rw [hlen]
    exact (slice_take (by omega)).trans htotal

include hmin hle in
theorem getElem?_ipv4Fragment_zero : (ipv4Fragment packet ihl part)[0]? = packet[0]? := by
  have hheader := length_ipv4FragmentHeader hle part
  rw [ipv4Fragment, getElem?_append_left (by omega)]
  exact getElem?_ipv4FragmentHeader_zero hmin part

include hle in
theorem length_ipv4Fragment : (ipv4Fragment packet ihl part).length = ihl + part.data.length := by
  rw [ipv4Fragment, length_append, length_ipv4FragmentHeader hle]

include hmin hle in
theorem slice_ipv4Fragment (h : 4 ≤ i ∧ j ≤ 6 ∨ 12 ≤ i ∧ j ≤ 20) :
    slice (ipv4Fragment packet ihl part) i j = slice packet i j := by
  have hheader := length_ipv4FragmentHeader hle part
  rw [ipv4Fragment, slice_append_left (by omega), slice_ipv4FragmentHeader hmin hle part h]

include hmin hle in
/-- The header says of the part what it was made for. -/
theorem offset_ipv4Fragment (hoffset : part.offset < 65536) (hunit : part.offset % 8 = 0) :
    (fromBe (slice (ipv4Fragment packet ihl part) 6 8) &&& 0x1fff) * 8 = part.offset ∧
      decide (fromBe (slice (ipv4Fragment packet ihl part) 6 8) &&& 0x2000 ≠ 0) = !part.last := by
  have hheader := length_ipv4FragmentHeader hle part
  have hsmall : part.offset / 8 % 65536 < 8192 := by omega
  have hlt : (part.offset / 8 % 65536 ||| if part.last then 0 else 0x2000) < 256 ^ 2 :=
    Nat.or_lt_two_pow (n := 16) (by omega) (by split <;> decide)
  obtain ⟨hmore, hpos⟩ := flags_and_offset hsmall part.last
  rw [ipv4Fragment, slice_append_left (by omega), slice_ipv4FragmentHeader_flags hmin hle,
    fromBe_be hlt, hpos, hmore]
  exact ⟨by omega, rfl⟩

end Ipv4

/-! ## IPv6 headers -/

section Ipv6

variable {packet : Bytes} (hlen : 40 ≤ packet.length) (identification : UInt32)
  (part : Fragment UInt8)

include hlen in
theorem length_ipv6BaseHeader : (ipv6BaseHeader packet part).length = 40 := by
  rw [ipv6BaseHeader, length_overwrite, length_overwrite, length_take, Nat.min_eq_left hlen]

theorem length_ipv6FragmentHeader : (ipv6FragmentHeader packet identification part).length = 8 := by
  rfl

include hlen in
/-- A fragment is a base header, a Fragment Header and the data. -/
theorem length_ipv6Fragment :
    (ipv6Fragment packet identification part).length = 48 + part.data.length := by
  rw [ipv6Fragment, length_append, length_append, length_ipv6BaseHeader hlen,
    length_ipv6FragmentHeader]

variable {k : ℕ}

theorem getElem?_ipv6BaseHeader (hk : k < 4 ∨ 7 ≤ k ∧ k < 40) :
    (ipv6BaseHeader packet part)[k]? = packet[k]? := by
  have hlen' : (be 2 (8 + part.data.length)).length = 2 := length_be 2 _
  rw [ipv6BaseHeader, getElem?_overwrite_of_not_mem (by simp; omega),
    getElem?_overwrite_of_not_mem (by omega), getElem?_take_of_lt (by omega)]

/-- The addresses are those of the packet. -/
theorem slice_ipv6BaseHeader (h : 7 ≤ i ∧ j ≤ 40) :
    slice (ipv6BaseHeader packet part) i j = slice packet i j := by
  have hlen' : (be 2 (8 + part.data.length)).length = 2 := length_be 2 _
  rw [ipv6BaseHeader, slice_overwrite_of_disjoint (by simp; omega),
    slice_overwrite_of_disjoint (by omega), slice_take (by omega)]

include hlen in
theorem slice_ipv6BaseHeader_length :
    slice (ipv6BaseHeader packet part) 4 6 = be 2 (8 + part.data.length) := by
  have hlen' : (be 2 (8 + part.data.length)).length = 2 := length_be 2 _
  have hwritten := slice_overwrite (i := 4)
    (show 4 + (be 2 (8 + part.data.length)).length ≤ (packet.take 40).length by
      rw [hlen', length_take]; omega)
  rw [hlen'] at hwritten
  rw [ipv6BaseHeader, slice_overwrite_of_disjoint (by omega), hwritten]

include hlen in
theorem getD_ipv6BaseHeader_six : (ipv6BaseHeader packet part).getD 6 0 = 44 := by
  rw [getD_eq_getElem?_getD, ipv6BaseHeader, getElem?_overwrite_of_mem le_rfl (by decide)]
  · rfl
  · rw [length_overwrite, length_take]
    simp
    omega

include hlen in
/-- Restoring the base header of any fragment gives that of the packet. -/
theorem restore_ipv6BaseHeader {totalLen : ℕ} (htotal : slice packet 4 6 = be 2 totalLen) :
    overwrite (overwrite (ipv6BaseHeader packet part) 6 [packet.getD 6 0]) 4 (be 2 totalLen) =
      packet.take 40 := by
  have hlen' : ∀ v, (be 2 v).length = 2 := length_be 2
  have hnext : slice (packet.take 40) 6 7 = [packet.getD 6 0] := by
    have hget : packet[6]? = some (packet.getD 6 0) := by
      rw [getD_eq_getElem packet 0 (by omega), getElem?_eq_getElem (by omega)]
    rw [slice_take (by omega), slice, take_one, head?_drop, hget]
    rfl
  rw [ipv6BaseHeader, overwrite_overwrite (a := [44]) (b := [packet.getD 6 0]) rfl,
    ← overwrite_comm (i := 4) (by rw [hlen']),
    overwrite_overwrite (by rw [hlen', hlen']), overwrite_eq_self (i := 4), overwrite_eq_self]
  · exact hnext
  · rw [hlen', slice_take (by omega), htotal]

/-! ### The parts of an IPv6 fragment -/

include hlen in
theorem ipv6Fragment_take : (ipv6Fragment packet identification part).take 40 =
    ipv6BaseHeader packet part := by
  rw [ipv6Fragment, append_assoc, take_left' (length_ipv6BaseHeader hlen part)]

include hlen in
theorem ipv6Fragment_drop : (ipv6Fragment packet identification part).drop 48 = part.data := by
  refine drop_left' ?_
  rw [length_append, length_ipv6BaseHeader hlen, length_ipv6FragmentHeader]

include hlen in
theorem slice_ipv6Fragment_base (h : j ≤ 40) : slice (ipv6Fragment packet identification part) i j =
      slice (ipv6BaseHeader packet part) i j := by
  rw [ipv6Fragment, append_assoc, slice_append_left (by rwa [length_ipv6BaseHeader hlen])]

include hlen in
/-- Fields of the Fragment Header. -/
theorem slice_ipv6Fragment_header (i j : ℕ) (h : j ≤ 8) :
    slice (ipv6Fragment packet identification part) (40 + i) (40 + j) =
      slice (ipv6FragmentHeader packet identification part) i j := by
  have hbase := slice_append_right (ipv6BaseHeader packet part)
    (ipv6FragmentHeader packet identification part ++ part.data) i j
  rw [length_ipv6BaseHeader hlen] at hbase
  rw [ipv6Fragment, append_assoc, hbase, slice_append_left (by rwa [length_ipv6FragmentHeader])]

include hlen in
theorem getElem?_ipv6Fragment_base (h : k < 40) :
    (ipv6Fragment packet identification part)[k]? = (ipv6BaseHeader packet part)[k]? := by
  rw [ipv6Fragment, append_assoc, getElem?_append_left (by rwa [length_ipv6BaseHeader hlen])]

include hlen in
theorem isIpv6Fragment_fragment (hversion : version packet = some 6) :
    version (ipv6Fragment packet identification part) = some 6 ∧
      (ipv6Fragment packet identification part).getD 6 0 = 44 := by
  have hzero : (ipv6Fragment packet identification part)[0]? = packet[0]? := by
    rw [getElem?_ipv6Fragment_base hlen identification part (by decide),
      getElem?_ipv6BaseHeader part (by decide)]
  refine ⟨(version_congr hzero).trans hversion, ?_⟩
  rw [getD_eq_getElem?_getD, getElem?_ipv6Fragment_base hlen identification part (by decide),
    ← getD_eq_getElem?_getD, getD_ipv6BaseHeader_six hlen]

include hlen in
/-- The original next header stands at the start of the Fragment Header. -/
theorem getD_ipv6Fragment_nextHeader :
    (ipv6Fragment packet identification part).getD 40 0 = packet.getD 6 0 := by
  have hbase := length_ipv6BaseHeader hlen part
  rw [getD_eq_getElem?_getD, ipv6Fragment, append_assoc, getElem?_append_right (by omega), hbase]
  rfl

include hlen in
/-- The Fragment Header says of the part what it was made for. -/
theorem offset_ipv6Fragment (hoffset : part.offset < 65536) (hunit : part.offset % 8 = 0) :
    (fromBe (slice (ipv6Fragment packet identification part) 42 44) >>> 3) * 8 = part.offset ∧
      decide (fromBe (slice (ipv6Fragment packet identification part) 42 44) &&& 1 ≠ 0) =
        !part.last := by
  have hfield : slice (ipv6FragmentHeader packet identification part) 2 4 =
      be 2 (part.offset / 8 % 65536 * 8 % 65536 ||| if part.last then 0 else 1) := rfl
  have hsmall : part.offset / 8 % 65536 * 8 % 65536 = part.offset / 8 * 8 := by omega
  have hlt : (part.offset / 8 * 8 ||| if part.last then 0 else 1) < 256 ^ 2 :=
    Nat.or_lt_two_pow (n := 16) (by omega) (by split <;> decide)
  obtain ⟨hmore, hpos⟩ := offset_and_flag (part.offset / 8) part.last
  rw [slice_ipv6Fragment_header hlen identification part 2 4 (by decide), hfield, hsmall,
    fromBe_be hlt, hpos, hmore]
  exact ⟨by omega, rfl⟩

include hlen in
theorem identification_ipv6Fragment :
    fromBe (slice (ipv6Fragment packet identification part) 44 48) = identification.toNat := by
  have hfield : slice (ipv6FragmentHeader packet identification part) 4 8 =
      be 4 identification.toNat := rfl
  rw [slice_ipv6Fragment_header hlen identification part 4 8 (by decide), hfield,
    fromBe_be identification.toNat_lt]

end Ipv6

end SimMaster.TunGateway
